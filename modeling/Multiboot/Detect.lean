import Multiboot.Lookup

/-!
# Format detection

`Disk` is what matters of a block device: the file-system type `blkid` recognises on it and the two
time stamps of its superblock.  An `FdInfo` keeps the type and the superblock read when the
descriptor was opened (`fsPre`); `fsWasFormat` compares them with the device when it is closed.

A result in `Option` is a C call that may not survive: `none` is a `NULL` handed to `strcmp` or
`strdup`.  The value `get_fstype` returns is the text `blkid` stored, read before it is freed.
-/

namespace Multiboot

/-- `struct ext2_super_block`, as far as it is compared. -/
structure SuperBlock where
  sLastcheck : ℕ
  sMkfsTime : ℕ
  deriving DecidableEq, Repr

structure Disk where
  type : Option CString
  sb : SuperBlock
  deriving DecidableEq, Repr

abbrev Disks := CString → Disk

/-- What `open(device, O_RDONLY)` returns: `-1`, descriptor 0 or another descriptor. -/
inductive OpenResult
  | failed | zero | opened
  deriving DecidableEq, Repr

/-- How the calls on a device end in one `make_fdinfo` or `fs_was_format`; `junk` is what `malloc`
left in the superblock buffer. -/
structure DevCalls where
  probe : Bool
  opened : OpenResult
  read : Bool
  junk : SuperBlock
  deriving DecidableEq, Repr

/-- No call on the device fails. -/
def DevCalls.succeeds (io : DevCalls) : Bool := io.probe && io.opened != .failed && io.read

/-- No call on the device fails, and `open` does not return descriptor 0. -/
def DevCalls.ok (io : DevCalls) : Bool := io.probe && io.opened == .opened && io.read

structure FdInfo where
  filename : CString
  fsType : Option CString
  fsPdata : Option SuperBlock
  device : Option CString
  deriving DecidableEq, Repr

def EXT4 : CString := "ext4".toList

/-! ### The calls on one device -/

/-- `get_fstype`; `NULL` as a device name makes the probe fail. -/
def getFstype (io : DevCalls) (disks : Disks) (device : Option CString) : Option CString :=
  if io.probe then device.bind fun dev => (disks dev).type else none

def ext2Pre (io : DevCalls) (disks : Disks) (fdi : FdInfo) : FdInfo :=
  match io.opened with
  -- `if (!fd)`: descriptor 0 is taken for a failure
  | .zero => fdi
  -- `open` failed: the read on descriptor -1 fails and leaves the buffer as `malloc` returned it
  | .failed => { fdi with fsPdata := some io.junk }
  | .opened =>
    let sbPre :=
      match fdi.device, io.read with
      | some dev, true => (disks dev).sb
      | _, _ => io.junk
    { fdi with fsPdata := some sbPre }

def ext2WasFormat (io : DevCalls) (disks : Disks) (fdi : FdInfo) : Bool :=
  match fdi.fsPdata, fdi.device, io.opened, io.read with
  | some pre, some dev, .opened, true =>
    let sb := (disks dev).sb
    if sb.sMkfsTime > pre.sMkfsTime then true
    else decide (sb.sLastcheck < pre.sLastcheck)
  | _, _, _, _ => false

def fsPre (io : DevCalls) (disks : Disks) (fdi : FdInfo) : Option FdInfo :=
  match fdi.fsType with
  | none => none
  | some t => if t = EXT4 then some (ext2Pre io disks fdi) else some fdi

def fsWasFormat (io : DevCalls) (disks : Disks) (fdi : FdInfo) : Option Bool :=
  let fstype := (getFstype io disks fdi.device).getD EXT4
  match fdi.fsType with
  | none => none
  | some t =>
    -- filesystem type has changed
    if t ≠ fstype then some true
    else if fstype = EXT4 then some (ext2WasFormat io disks fdi)
    else some false

/-- `free_fdinfo`: `fs_cleanup` compares the type. -/
def freeFdinfo (fdi : FdInfo) : Option Unit := fdi.fsType.map fun _ => ()

def freeFdinfoList {κ : Type} (files : List (κ × FdInfo)) : Option Unit :=
  if files.all (fun p => (freeFdinfo p.2).isSome) then some () else none

/-- `make_fdinfo`. -/
def makeFdinfo (data : ModuleData) (fs : FsView) (io : DevCalls) (disks : Disks)
    (filename : CString) : Option FdInfo :=
  match getFstabRec data fs filename with
  | none => fsPre io disks ⟨filename, none, none, none⟩
  | some r =>
    -- `strdup(fstabrec->stub_device)`
    match r.stubDevice with
    | none => none
    | some device =>
      let fstype := (getFstype io disks (some device)).getD EXT4
      fsPre io disks ⟨filename, some fstype, none, some device⟩

/-! ### What a check and a new file system do to a device -/

/-- `e2fsck` at time `t`: `s_lastcheck` moves forward, the type and `s_mkfs_time` stay. -/
def Disk.fsck (t : ℕ) (d : Disk) : Disk :=
  { d with sb := { d.sb with sLastcheck := max d.sb.sLastcheck t } }

/-- The type `make_fdinfo` and `fs_was_format` work with when the probe succeeds. -/
def Disk.fsName (d : Disk) : CString := d.type.getD EXT4

/-- `mke2fs` at time `t`, giving type `ty`. -/
def Disk.mke2fs (ty : CString) (t : ℕ) : Disk := ⟨some ty, ⟨t, t⟩⟩

/-- `make_ext4fs`: both time stamps are 0. -/
def Disk.makeExt4fs : Disk := ⟨some EXT4, ⟨0, 0⟩⟩

@[simp] theorem Disk.fsName_fsck (t : ℕ) (d : Disk) : (d.fsck t).fsName = d.fsName := rfl

@[simp] theorem Disk.sMkfsTime_fsck (t : ℕ) (d : Disk) :
    (d.fsck t).sb.sMkfsTime = d.sb.sMkfsTime := rfl

theorem Disk.sLastcheck_le_fsck (t : ℕ) (d : Disk) :
    d.sb.sLastcheck ≤ (d.fsck t).sb.sLastcheck := le_max_left _ _

/-! ### Descriptors whose snapshot agrees with the device -/

/-- The descriptor's snapshot shows no format of a device that now holds `d`. -/
def FdInfo.current (d : Disk) (fdi : FdInfo) : Bool :=
  fdi.fsType == some d.fsName &&
    (match fdi.fsPdata with
      | none => true
      | some pre => d.sb.sMkfsTime ≤ pre.sMkfsTime && pre.sLastcheck ≤ d.sb.sLastcheck)

/-- The probe does not fall back to `ext4` on a device of another type. -/
def DevCalls.probeSound (io : DevCalls) (d : Disk) : Bool := io.probe || d.fsName == EXT4

/-- `ext2_pre` leaves no superblock buffer or one that was read. -/
def DevCalls.bufferSound (io : DevCalls) : Bool :=
  io.opened == .zero || (io.opened == .opened && io.read)

/-- The snapshot `make_fdinfo` takes of a device that holds `d` is one of that device. -/
def DevCalls.sound (io : DevCalls) (d : Disk) : Bool :=
  io.probeSound d && (d.fsName != EXT4 || io.bufferSound)

/-- The buffer `ext2_pre` leaves for a device with superblock `sb`. -/
def DevCalls.sbPre (io : DevCalls) (sb : SuperBlock) : Option SuperBlock :=
  match io.opened, io.read with
  | .zero, _ => none
  | .opened, true => some sb
  | _, _ => some io.junk

theorem DevCalls.sound_of_succeeds {io : DevCalls} (h : io.succeeds = true) (d : Disk) :
    io.sound d = true := by
  simp only [DevCalls.succeeds, Bool.and_eq_true, bne_iff_ne] at h
  obtain ⟨⟨hprobe, hopened⟩, hread⟩ := h
  cases ho : io.opened with
  | failed => exact absurd ho hopened
  | zero => simp [DevCalls.sound, DevCalls.probeSound, DevCalls.bufferSound, hprobe, ho]
  | opened => simp [DevCalls.sound, DevCalls.probeSound, DevCalls.bufferSound, hprobe, ho, hread]

theorem getFstype_of_sound {io : DevCalls} {disks : Disks} {dev : CString}
    (h : io.probeSound (disks dev) = true) :
    (getFstype io disks (some dev)).getD EXT4 = (disks dev).fsName := by
  cases hp : io.probe with
  | true => simp [getFstype, hp, Disk.fsName]
  | false =>
    simp only [DevCalls.probeSound, hp, Bool.false_or, beq_iff_eq] at h
    simp [getFstype, hp, h]

/-- **What `make_fdinfo` builds**: the record of the path is found, and the entry describes its stub
device. -/
theorem makeFdinfo_spec {data : ModuleData} {fs : FsView} {io : DevCalls} {disks : Disks}
    {filename : CString} {fdi : FdInfo} (h : makeFdinfo data fs io disks filename = some fdi) :
    ∃ r dev, getFstabRec data fs filename = some r ∧ r.stubDevice = some dev ∧
      fdi.filename = filename ∧ fdi.device = some dev ∧
      fdi.fsType = some ((getFstype io disks (some dev)).getD EXT4) ∧
      fdi.fsPdata =
        if (getFstype io disks (some dev)).getD EXT4 = EXT4 then io.sbPre (disks dev).sb
        else none := by
  unfold makeFdinfo at h
  cases hr : getFstabRec data fs filename with
  | none => simp [hr, fsPre] at h
  | some r =>
    cases hd : r.stubDevice with
    | none => simp [hr, hd] at h
    | some dev =>
      refine ⟨r, dev, rfl, hd, ?_⟩
      simp only [hr, hd, fsPre] at h
      by_cases ht : (getFstype io disks (some dev)).getD EXT4 = EXT4
      · simp only [ht, if_true, Option.some.injEq] at h
        subst h
        cases ho : io.opened <;> cases hio : io.read <;>
          simp [ext2Pre, ho, hio, DevCalls.sbPre, ht]
      · simp only [ht, if_false, Option.some.injEq] at h
        subst h
        simp [ht]

/-- `make_fdinfo` survives exactly when the path still has a record with a stub device. -/
theorem makeFdinfo_isSome_iff {data : ModuleData} {fs : FsView} {io : DevCalls} {disks : Disks}
    {filename : CString} : (makeFdinfo data fs io disks filename).isSome ↔
      ∃ r dev, getFstabRec data fs filename = some r ∧ r.stubDevice = some dev := by
  constructor
  · intro h
    obtain ⟨fdi, hf⟩ := Option.isSome_iff_exists.mp h
    obtain ⟨r, dev, hr, hd, -⟩ := makeFdinfo_spec hf
    exact ⟨r, dev, hr, hd⟩
  · rintro ⟨r, dev, hr, hd⟩
    simp only [makeFdinfo, hr, hd, fsPre]
    split_ifs <;> rfl

/-- A sound snapshot agrees with the device it is taken of. -/
theorem makeFdinfo_current {data : ModuleData} {fs : FsView} {io : DevCalls} {disks : Disks}
    {filename dev : CString} {fdi : FdInfo} (h : makeFdinfo data fs io disks filename = some fdi)
    (hdev : fdi.device = some dev) (hs : io.sound (disks dev) = true) :
    fdi.current (disks dev) = true := by
  obtain ⟨r, dev', -, -, -, hd', ht, hp⟩ := makeFdinfo_spec h
  obtain rfl : dev' = dev := by rw [hdev] at hd'; exact (Option.some.inj hd').symm
  simp only [DevCalls.sound, Bool.and_eq_true, Bool.or_eq_true, bne_iff_ne] at hs
  rw [getFstype_of_sound hs.1] at ht hp
  by_cases he : (disks dev').fsName = EXT4
  · -- the superblock was read, or descriptor 0 left no buffer
    have hb : io.bufferSound = true := hs.2.resolve_left (not_not_intro he)
    rw [if_pos he] at hp
    rcases ho : io.opened with _ | _ | _ <;> cases hr : io.read <;>
      simp_all [FdInfo.current, DevCalls.sbPre, DevCalls.bufferSound]
  · rw [if_neg he] at hp
    simp [FdInfo.current, ht, hp]

/-- **No false alarm**: a descriptor whose snapshot agrees with the device shows no format. -/
theorem fsWasFormat_of_current {io : DevCalls} {disks : Disks} {fdi : FdInfo} {dev : CString}
    (hdev : fdi.device = some dev) (hc : fdi.current (disks dev) = true)
    (hs : io.probeSound (disks dev) = true) : fsWasFormat io disks fdi = some false := by
  simp only [FdInfo.current, Bool.and_eq_true, beq_iff_eq] at hc
  obtain ⟨ht, hp⟩ := hc
  simp only [fsWasFormat, hdev, ht, getFstype_of_sound hs, ne_eq, not_true, if_false]
  by_cases he : (disks dev).fsName = EXT4
  · rw [if_pos he]
    cases hpre : fdi.fsPdata with
    | none => simp [ext2WasFormat, hpre]
    | some pre =>
      simp only [hpre, Bool.and_eq_true, decide_eq_true_eq] at hp
      have h1 : ¬ (disks dev).sb.sMkfsTime > pre.sMkfsTime := not_lt.mpr hp.1
      have h2 : ¬ (disks dev).sb.sLastcheck < pre.sLastcheck := not_lt.mpr hp.2
      cases ho : io.opened <;> cases hr : io.read <;>
        simp [ext2WasFormat, hdev, hpre, ho, hr, h1, h2]
  · rw [if_neg he]

/-- A file-system check leaves every snapshot that agreed in agreement. -/
theorem FdInfo.current_fsck {d : Disk} {fdi : FdInfo} (t : ℕ) (h : fdi.current d = true) :
    fdi.current (d.fsck t) = true := by
  cases hp : fdi.fsPdata with
  | none => simpa [FdInfo.current, hp] using h
  | some pre =>
    simp only [FdInfo.current, hp, Bool.and_eq_true, decide_eq_true_eq] at h
    have h3 : pre.sLastcheck ≤ (d.fsck t).sb.sLastcheck := h.2.2.trans (d.sLastcheck_le_fsck t)
    simp [FdInfo.current, hp, h.1, h.2.1, h3]

/-- The device now holding `d` shows a format to a descriptor opened when it held `pre`. -/
def Disk.showsFormat (pre d : Disk) : Prop :=
  pre.fsName ≠ d.fsName ∨ d.fsName = EXT4 ∧
    (pre.sb.sMkfsTime < d.sb.sMkfsTime ∨ d.sb.sLastcheck < pre.sb.sLastcheck)

/-- **No missed format**: with a complete snapshot and no failure, `fs_was_format` reports it. -/
theorem fsWasFormat_of_showsFormat {io : DevCalls} {disks : Disks} {fdi : FdInfo} {dev : CString}
    {pre : Disk} (hdev : fdi.device = some dev) (ht : fdi.fsType = some pre.fsName)
    (hp : pre.fsName = EXT4 → fdi.fsPdata = some pre.sb) (hio : io.ok = true)
    (hf : pre.showsFormat (disks dev)) : fsWasFormat io disks fdi = some true := by
  simp only [DevCalls.ok, Bool.and_eq_true, beq_iff_eq] at hio
  have hs : io.probeSound (disks dev) = true := by simp [DevCalls.probeSound, hio]
  simp only [fsWasFormat, hdev, ht, getFstype_of_sound hs]
  by_cases hne : pre.fsName = (disks dev).fsName
  · obtain ⟨he, hcmp⟩ := hf.resolve_left (not_not_intro hne)
    rw [if_neg (not_not_intro hne), if_pos he]
    simp only [ext2WasFormat, hp (hne.trans he), hdev, hio.1.2, hio.2]
    rcases hcmp with h | h
    · simp [h]
    · by_cases h1 : (disks dev).sb.sMkfsTime > pre.sb.sMkfsTime <;> simp [h1, h]
  · rw [if_pos hne]

/-- With no failure the snapshot is complete. -/
theorem makeFdinfo_of_ok {data : ModuleData} {fs : FsView} {io : DevCalls} {disks : Disks}
    {filename dev : CString} {fdi : FdInfo} (h : makeFdinfo data fs io disks filename = some fdi)
    (hdev : fdi.device = some dev) (hio : io.ok = true) :
    fdi.fsType = some (disks dev).fsName ∧
      ((disks dev).fsName = EXT4 → fdi.fsPdata = some (disks dev).sb) := by
  obtain ⟨r, dev', -, -, -, hd', ht, hp⟩ := makeFdinfo_spec h
  obtain rfl : dev' = dev := by rw [hdev] at hd'; exact (Option.some.inj hd').symm
  simp only [DevCalls.ok, Bool.and_eq_true, beq_iff_eq] at hio
  have hs : io.probeSound (disks dev') = true := by simp [DevCalls.probeSound, hio]
  rw [getFstype_of_sound hs] at ht hp
  refine ⟨ht, fun he => ?_⟩
  rw [hp, if_pos he]
  simp [DevCalls.sbPre, hio.1.2, hio.2]

end Multiboot
