import Multiboot.Setup
import Mathlib.Data.Fintype.EquivFin
import Mathlib.Data.Finset.Dedup

/-!
# Which record a path belongs to

`getFstabRec` looks a path up among the multiboot source, the grub device and the multiboot-flagged
records of the multiboot fstab, by device number or by name.  `lookupRecs` is that order as a list
(`getFstabRec_eq_find`), `FirstMatch` the same as a relation (`getFstabRec_eq_some_iff`).
-/

namespace Multiboot

/-- `fstab_rec_matches`, with `sb` the answer of `stat(devname)`. -/
def fstabRecMatches (devname : CString) (r : FstabRec) (sb : Except Errno Stat) : Bool :=
  (match sb with
    | .ok st => st.rdev == r.stRdev
    | .error _ => false) || devname == r.blkDevice

/-- The loop of `get_fstab_rec` over the multiboot fstab. -/
def findMultibootRec (devname : CString) (sb : Except Errno Stat) :
    List FstabRec → Option FstabRec
  | [] => none
  | r :: recs =>
    if !fsMgrIsMultiboot r then findMultibootRec devname sb recs
    else if fstabRecMatches devname r sb then some r
    else findMultibootRec devname sb recs

def getFstabRec (data : ModuleData) (fs : FsView) (devname : CString) : Option FstabRec :=
  let sb := fs.stat devname
  -- multiboot source
  if data.multibootPath.isSome && fstabRecMatches devname data.multibootDevice sb then
    some data.multibootDevice
  -- grub device
  else if data.grubPath.isSome && fstabRecMatches devname data.grubDevice sb then
    some data.grubDevice
  else findMultibootRec devname sb data.multibootFstab.recs

/-- The records `get_fstab_rec` tries, in its order. -/
def lookupRecs (data : ModuleData) : List FstabRec :=
  (if data.multibootPath.isSome then [data.multibootDevice] else []) ++
    (if data.grubPath.isSome then [data.grubDevice] else []) ++
    data.multibootFstab.recs.filter fsMgrIsMultiboot

theorem findMultibootRec_eq_find (devname : CString) (sb : Except Errno Stat)
    (recs : List FstabRec) : findMultibootRec devname sb recs =
      (recs.filter fsMgrIsMultiboot).find? (fun r => fstabRecMatches devname r sb) := by
  induction recs with
  | nil => rfl
  | cons r recs ih =>
    unfold findMultibootRec
    by_cases hm : fsMgrIsMultiboot r = true
    · rw [List.filter_cons_of_pos hm, List.find?_cons, ih]
      cases fstabRecMatches devname r sb <;> simp [hm]
    · rw [List.filter_cons_of_neg hm, ← ih]
      simp [hm]

theorem getFstabRec_eq_find (data : ModuleData) (fs : FsView) (devname : CString) :
    getFstabRec data fs devname =
      (lookupRecs data).find? (fun r => fstabRecMatches devname r (fs.stat devname)) := by
  unfold getFstabRec lookupRecs
  rw [List.find?_append, List.find?_append, ← findMultibootRec_eq_find]
  by_cases h1 : fstabRecMatches devname data.multibootDevice (fs.stat devname) = true <;>
  by_cases h2 : fstabRecMatches devname data.grubDevice (fs.stat devname) = true <;>
  cases data.multibootPath <;> cases data.grubPath <;> simp [h1, h2]

/-- `r` matches the name under the view, and no record tried before it does. -/
def FirstMatch (data : ModuleData) (fs : FsView) (devname : CString) (r : FstabRec) : Prop :=
  fstabRecMatches devname r (fs.stat devname) = true ∧
    ∃ before after, lookupRecs data = before ++ r :: after ∧
      ∀ r' ∈ before, fstabRecMatches devname r' (fs.stat devname) = false

theorem getFstabRec_eq_some_iff {data : ModuleData} {fs : FsView} {devname : CString}
    {r : FstabRec} : getFstabRec data fs devname = some r ↔ FirstMatch data fs devname r := by
  rw [getFstabRec_eq_find, List.find?_eq_some_iff_append]
  simp [FirstMatch]

instance (data : ModuleData) (fs : FsView) (devname : CString) (r : FstabRec) :
    Decidable (FirstMatch data fs devname r) := decidable_of_iff _ getFstabRec_eq_some_iff

theorem getFstabRec_mem {data : ModuleData} {fs : FsView} {devname : CString} {r : FstabRec}
    (h : getFstabRec data fs devname = some r) : r ∈ lookupRecs data := by
  rw [getFstabRec_eq_find] at h
  exact List.mem_of_find?_eq_some h

theorem getFstabRec_matches {data : ModuleData} {fs : FsView} {devname : CString} {r : FstabRec}
    (h : getFstabRec data fs devname = some r) :
    fstabRecMatches devname r (fs.stat devname) = true :=
  (getFstabRec_eq_some_iff.mp h).1

theorem getFstabRec_eq_none_iff {data : ModuleData} {fs : FsView} {devname : CString} :
    getFstabRec data fs devname = none ↔
      ∀ r ∈ lookupRecs data, fstabRecMatches devname r (fs.stat devname) = false := by
  rw [getFstabRec_eq_find, List.find?_eq_none]
  simp

theorem getFstabRec_of_matches {data : ModuleData} (fs : FsView) {devname : CString} {r : FstabRec}
    (hr : r ∈ lookupRecs data) (hm : fstabRecMatches devname r (fs.stat devname) = true) :
    ∃ r', getFstabRec data fs devname = some r' := by
  cases hg : getFstabRec data fs devname with
  | none =>
    rw [getFstabRec_eq_none_iff.mp hg r hr] at hm
    cases hm
  | some r' => exact ⟨r', rfl⟩

theorem fstabRecMatches_iff {devname : CString} {r : FstabRec} {sb : Except Errno Stat} :
    fstabRecMatches devname r sb = true ↔
      (∃ st, sb = .ok st ∧ st.rdev = r.stRdev) ∨ devname = r.blkDevice := by
  cases sb <;> simp [fstabRecMatches]

/-! ### Only multiboot devices are redirected -/

/-- The path is the record's own device name, or it is a device node with the number `uevent_stat`
resolved for the record. -/
def NamesDevice (fs : FsView) (path : CString) (r : FstabRec) : Prop :=
  path = r.blkDevice ∨
    ∃ st, fs.stat path = .ok st ∧ st.isDevice = true ∧ r.statbuf = some st.rdev

instance (fs : FsView) (path : CString) (r : FstabRec) : Decidable (NamesDevice fs path r) :=
  decidable_of_iff (path = r.blkDevice ∨ (match fs.stat path with
      | .ok st => st.isDevice && r.statbuf == some st.rdev
      | .error _ => false) = true) <| by
    unfold NamesDevice
    cases fs.stat path <;> simp

/-- Every record that is looked up has a device number. -/
def AllResolved (data : ModuleData) : Prop :=
  ∀ r ∈ lookupRecs data, ∃ d, r.statbuf = some d ∧ d ≠ 0

instance (data : ModuleData) : Decidable (AllResolved data) :=
  decidable_of_iff (∀ r ∈ lookupRecs data, r.statbuf.isSome = true ∧ r.stRdev ≠ 0) <|
    forall₂_congr fun r _ => by cases h : r.statbuf <;> simp [FstabRec.stRdev, h]

theorem namesDevice_of_resolved (fs : FileSystem) {path : CString} {r : FstabRec} {d : Dev}
    (hr : r.statbuf = some d) (hd : d ≠ 0)
    (h : fstabRecMatches path r (fs.stat path) = true) : NamesDevice fs.toFsView path r := by
  rcases fstabRecMatches_iff.mp h with ⟨st, hst, hdev⟩ | hname
  · have hst' : st.rdev = d := by rw [hdev, FstabRec.stRdev, hr]; rfl
    exact Or.inr ⟨st, hst, fs.isDevice_of_rdev hst (by rwa [hst']), by rw [hr, hst']⟩
  · exact Or.inl hname

/-- A file system in which every path is a regular file. -/
def regularFiles : FileSystem where
  stat _ := .ok ⟨.reg, 0⟩
  lstat _ := .ok ⟨.reg, 0⟩
  realpath p := .ok p
  stat_kind h := by cases h; decide
  stat_of_lstat h _ := h
  lstat_of_stat h := Or.inl h
  realpath_of_stat {p s} h := ⟨p, rfl, h⟩
  rdev_of_not_device h _ := by cases h; rfl

/-- **A regular file is taken for a redirected device exactly when some record that is looked up has
no device number**: its zeroed `st_rdev` equals that of every file that is no device. -/
theorem getFstabRec_namesDevice_iff (data : ModuleData) :
    (∀ (fs : FileSystem) path r, getFstabRec data fs.toFsView path = some r →
      NamesDevice fs.toFsView path r) ↔ AllResolved data := by
  constructor
  · intro h r hr
    -- a name that is no record's, looked up where everything is a regular file
    obtain ⟨path, hpath⟩ := Infinite.exists_notMem_finset
      ((lookupRecs data).map fun r => r.blkDevice).toFinset
    have hfresh : ∀ r' ∈ lookupRecs data, path ≠ r'.blkDevice := by
      rintro r' hr' rfl
      exact hpath (List.mem_toFinset.mpr (List.mem_map_of_mem hr'))
    by_contra hno
    have hzero : r.stRdev = 0 := by
      cases hs : r.statbuf with
      | none => simp [FstabRec.stRdev, hs]
      | some d =>
        by_contra hd
        exact hno ⟨d, hs, by simpa [FstabRec.stRdev, hs] using hd⟩
    have hm : fstabRecMatches path r (regularFiles.stat path) = true :=
      fstabRecMatches_iff.mpr (Or.inl ⟨_, rfl, hzero.symm⟩)
    obtain ⟨r', hg⟩ := getFstabRec_of_matches regularFiles.toFsView hr hm
    rcases h regularFiles path r' hg with hname | ⟨st, hst, hdev, -⟩
    · exact hfresh r' (getFstabRec_mem hg) hname
    · cases hst
      cases hdev
  · intro h fs path r hr
    obtain ⟨d, hs, hd⟩ := h r (getFstabRec_mem hr)
    exact namesDevice_of_resolved fs hs hd (getFstabRec_matches hr)

/-- A boot with one known partition, the multiboot source, and a multiboot fstab that also names a
partition missing from the table. -/
def strayEnv : SetupEnv where
  blockInfo := [⟨179, 1, 0, 1, some "mmcblk0p1".toList, none⟩]
  partNumbers_lt := by decide
  grubJunk := (0, 0)
  earlyInitOk := true
  mknodOk _ := true
  multibootFstab := some [⟨"/dev/block/by-name/cache".toList, "/cache".toList, "ext4".toList,
    some "rw".toList, some "multiboot".toList, none, MF_MULTIBOOT⟩]
  numEntries_lt := by decide
  targetFstabs := some []
  junk := ⟨default, default, fun _ => default, fun _ _ => default⟩

def strayParams : BootParams where
  bootmode := .RECOVERY
  sndstageEnabled := false
  source := some ⟨0, 1, "/android".toList⟩
  grub := none

/-- `setup` accepts that boot, and then the regular file `/init.rc` is redirected. -/
theorem setup_stray_redirects_file : ∃ data r, setup strayParams strayEnv = some data ∧
    getFstabRec data regularFiles.toFsView "/init.rc".toList = some r ∧
    ¬ NamesDevice regularFiles.toFsView "/init.rc".toList r := by
  refine ⟨_, _, rfl, rfl, ?_⟩
  rintro (hname | ⟨st, hst, hdev, -⟩)
  · exact absurd hname (by decide)
  · cases hst
    cases hdev

end Multiboot
