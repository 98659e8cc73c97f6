import Multiboot.Lookup
import Mathlib.Data.Nat.Digits.Defs

/-!
# What `setup` guarantees of the records

Every record the hooks look up has a replacement, and a stub device if it is redirected to a
directory (`prepared_of_setup`).  The stub devices and the loop devices of the other records are
different files: each multiboot record has the loop device of its own position (`setup_recs_of_cols`),
and the source and grub devices stay in `/dev/block`.
-/

namespace Multiboot

/-! ### Names of loop devices -/

theorem showU_injective : Function.Injective showU := by
  intro m n h
  have hm : Nat.ofDigitChars 10 (showU m) 0 = m := Nat.ofDigitChars_ten_toDigits
  have hn : Nat.ofDigitChars 10 (showU n) 0 = n := Nat.ofDigitChars_ten_toDigits
  rw [← hm, h, hn]

theorem showU_ne_minus (m : ℕ) (text : CString) : showU m ≠ '-' :: text := by
  intro h
  have hdigit : ('-' : Char).isDigit = true :=
    Nat.isDigit_of_mem_toDigits (b := 10) (n := m) (by omega) (by omega)
      (by rw [show Nat.toDigits 10 m = '-' :: text from h]; exact List.mem_cons_self)
  cases hdigit

theorem showD_injective : Function.Injective showD := by
  intro x y h
  cases x with
  | ofNat m =>
    cases y with
    | ofNat n => exact congrArg _ (showU_injective h)
    | negSucc n => exact absurd h (showU_ne_minus m _)
  | negSucc m =>
    cases y with
    | ofNat n => exact absurd h.symm (showU_ne_minus n _)
    | negSucc n =>
      have hmn : m + 1 = n + 1 := showU_injective (List.cons.inj h).2
      rw [Nat.succ.inj hmn]

theorem showU_length_le {n : ℕ} (h : n < 10 ^ 10) : (showU n).length ≤ 10 :=
  Nat.toDigits_length 10 n 10 (by omega) h

theorem showD_length_le {x : ℤ} (h1 : -10 ^ 9 * 9 < x) (h2 : x < 10 ^ 10) :
    (showD x).length ≤ 11 := by
  cases x with
  | ofNat n =>
    have hn : n < 10 ^ 10 := by
      have : (n : ℤ) < 10 ^ 10 := h2
      omega
    exact (showU_length_le hn).trans (by omega)
  | negSucc n =>
    have hn : n + 1 < 10 ^ 10 := by
      rw [Int.negSucc_eq] at h1
      omega
    exact Nat.succ_le_succ (showU_length_le hn)

/-- The loop device of the `n`-th multiboot record. -/
def recLoop (n : ℕ) : CString := snprintf PATH_MAX (loopName (255 - n))

theorem recLoop_eq {n : ℕ} (h : n < 2 ^ 31) : recLoop n = loopName (255 - n) := by
  have hlen : (showD (255 - (n : ℤ))).length ≤ 11 := showD_length_le (by omega) (by omega)
  have htotal : (loopName (255 - n)).length ≤ PATH_MAX - 1 := by
    have hp : (PATH_MOUNTPOINT_DEV ++ "/block/loop".toList).length = 25 := by decide
    have hmax : PATH_MAX - 1 = 4095 := rfl
    rw [loopName, List.length_append, hp, hmax]
    omega
  exact List.take_of_length_le htotal

theorem recLoop_injOn {m n : ℕ} (hm : m < 2 ^ 31) (hn : n < 2 ^ 31) (h : recLoop m = recLoop n) :
    m = n := by
  rw [recLoop_eq hm, recLoop_eq hn, loopName, loopName] at h
  have hminor : (255 - (m : ℤ)) = 255 - n := showD_injective (List.append_cancel_left h)
  omega

/-! ### The multiboot fstab -/

/-- The text is there and fits into a scratch region. -/
def Short (text : Option CString) : Prop := ∃ t, text = some t ∧ t.length ≤ PATH_MAX

theorem short_snprintf (text : CString) : Short (some (snprintf PATH_MAX text)) := by
  refine ⟨_, rfl, ?_⟩
  rw [snprintf, List.length_take]
  omega

/-- What is known of the record at position `n` of the prepared multiboot fstab. -/
structure LoopRec (n : ℕ) (r : FstabRec) : Prop where
  replacement : Short r.replacementDevice
  stub : r.replacementBind = true → r.stubDevice = some (recLoop n)
  loop : r.replacementBind = false → r.replacementDevice = some (recLoop n)

theorem replaceRec_loopRec (path : Option CString) (n : ℕ) (r : FstabRec) :
    LoopRec n (replaceRec path (recLoop n) r) := by
  unfold replaceRec
  split_ifs
  · exact ⟨short_snprintf _, fun _ => rfl, nofun⟩
  · exact ⟨short_snprintf _, nofun, fun _ => rfl⟩

/-- Each record gets the loop device of its own position. -/
theorem loadRecs_eq {path : Option CString} {ok : ℕ → Bool} :
    ∀ {recs out : List FstabRec} {n : ℕ}, loadRecs path ok n recs = some out →
      out = recs.mapIdx fun i r => replaceRec path (recLoop (n + i)) r
  | [], out, n, h => (Option.some.inj h).symm
  | rec0 :: recs, out, n, h => by
    unfold loadRecs makeLoop at h
    cases hok : ok n with
    | false => simp [hok] at h
    | true =>
      simp only [hok, if_true, Option.isSome_none, Bool.false_eq_true, if_false,
        Option.map_eq_some_iff] at h
      obtain ⟨rest, hrest, rfl⟩ := h
      have hnext : (fun i r => replaceRec path (recLoop (n + 1 + i)) r) =
          fun i r => replaceRec path (recLoop (n + (i + 1))) r := by
        funext i r
        rw [Nat.add_right_comm, Nat.add_assoc]
      rw [List.mapIdx_cons, loadRecs_eq hrest, hnext]
      rfl

/-- Only the name and the number of the device change. -/
theorem translateFstabRec_eq (junk : Junk × Junk) (info : List SysBlockUevent) (r : FstabRec) :
    ∃ statbuf, translateFstabRec junk info r =
      { r with
        blkDevice := (ueventRealpath junk.1 info r.blkDevice).getD r.blkDevice
        statbuf := statbuf } := by
  simp only [translateFstabRec]
  cases ueventStat junk.2 info ((ueventRealpath junk.1 info r.blkDevice).getD r.blkDevice) with
  | none => exact ⟨r.statbuf, rfl⟩
  | some dev => exact ⟨some dev, rfl⟩

/-- Translating device names leaves the redirection of a record. -/
theorem LoopRec.translate {n : ℕ} {r : FstabRec} (h : LoopRec n r) (junk : Junk × Junk)
    (info : List SysBlockUevent) : LoopRec n (translateFstabRec junk info r) := by
  obtain ⟨statbuf, heq⟩ := translateFstabRec_eq junk info r
  rw [heq]
  exact ⟨h.replacement, h.stub, h.loop⟩

/-! ### The source and grub devices -/

/-- The prefix that no loop device of the multiboot fstab has. -/
def BLK_PREFIX : CString := "/dev/block/mmcblk".toList

theorem prefix_of_append (a b c : CString) : BLK_PREFIX <+: BLK_PREFIX ++ a ++ b ++ c :=
  ((List.prefix_append _ a).trans (List.prefix_append _ b)).trans (List.prefix_append _ c)

theorem translate_blkDevice_prefix {r : FstabRec} (h : BLK_PREFIX <+: r.blkDevice)
    (junk : Junk × Junk) (info : List SysBlockUevent) :
    BLK_PREFIX <+: (translateFstabRec junk info r).blkDevice := by
  have hname : BLK_PREFIX <+: (ueventRealpath junk.1 info r.blkDevice).getD r.blkDevice := by
    unfold ueventRealpath
    cases getBlockinfoForPath junk.1 info r.blkDevice with
    | none => exact h
    | some bi => exact prefix_of_append _ _ _
  obtain ⟨statbuf, heq⟩ := translateFstabRec_eq junk info r
  rw [heq]
  exact hname

theorem recLoop_not_prefix {n : ℕ} (h : n < 2 ^ 31) : ¬ BLK_PREFIX <+: recLoop n := by
  rw [recLoop_eq h]
  rintro ⟨rest, hrest⟩
  -- they differ in the second character
  have hblk : (BLK_PREFIX ++ rest)[1]? = some 'd' := by
    rw [List.getElem?_append_left (by decide)]
    decide
  have hloop : (loopName (255 - n))[1]? = some 'm' := by
    rw [loopName, List.getElem?_append_left (by decide)]
    decide
  rw [hrest, hloop] at hblk
  cases hblk

theorem mem_of_findUevent {name : Option CString} {part : ℕ × ℕ} {bi : SysBlockUevent} :
    ∀ {info : List SysBlockUevent}, findUevent name part info = some bi → bi ∈ info
  | event :: info, h => by
    unfold findUevent at h
    split_ifs at h
    · rw [Option.some.inj h]
      exact List.mem_cons_self
    · rw [Option.some.inj h]
      exact List.mem_cons_self
    · exact List.mem_cons_of_mem _ (mem_of_findUevent h)

theorem mem_of_getBlockinfoForPath {junk : Junk} {info : List SysBlockUevent} {path : CString}
    {bi : SysBlockUevent} (h : getBlockinfoForPath junk info path = some bi) : bi ∈ info := by
  unfold getBlockinfoForPath at h
  split_ifs at h
  · exact mem_of_findUevent h
  · split at h
    · cases h
    · exact mem_of_findUevent h

theorem blkPrefix_length (a b : CString) : (BLK_PREFIX ++ a ++ ['p'] ++ b).length =
    18 + a.length + b.length := by
  have hp : BLK_PREFIX.length = 17 := by decide
  simp only [List.length_append, hp, List.length_singleton]
  omega

theorem MmcParam.blkDevice_length (p : MmcParam) : p.blkDevice.length ≤ 40 := by
  have hd : ∀ n, (showD (BitVec.ofNat 32 n).toInt).length ≤ 11 := by
    intro n
    have h1 := BitVec.le_toInt (BitVec.ofNat 32 n)
    have h2 := BitVec.toInt_lt (x := BitVec.ofNat 32 n)
    exact showD_length_le (by omega) (by omega)
  have hlen := blkPrefix_length (showD (BitVec.ofNat 32 p.device).toInt)
    (showD (BitVec.ofNat 32 p.part).toInt)
  have h1 := hd p.device
  have h2 := hd p.part
  exact (le_of_eq hlen).trans (by omega)

theorem translate_blkDevice_length {r : FstabRec} (h : r.blkDevice.length ≤ 40)
    (junk : Junk × Junk) {info : List SysBlockUevent}
    (hinfo : ∀ ev ∈ info, ev.partMajor < 2 ^ 32 ∧ ev.partMinor < 2 ^ 32) :
    (translateFstabRec junk info r).blkDevice.length ≤ 40 := by
  have hname : ((ueventRealpath junk.1 info r.blkDevice).getD r.blkDevice).length ≤ 40 := by
    unfold ueventRealpath
    cases hbi : getBlockinfoForPath junk.1 info r.blkDevice with
    | none => exact h
    | some bi =>
      obtain ⟨h1, h2⟩ := hinfo bi (mem_of_getBlockinfoForPath hbi)
      have hlen := blkPrefix_length (showU bi.partMajor) (showU bi.partMinor)
      have h3 := showU_length_le (show bi.partMajor < 10 ^ 10 by omega)
      have h4 := showU_length_le (show bi.partMinor < 10 ^ 10 by omega)
      exact (le_of_eq hlen).trans (by omega)
  obtain ⟨statbuf, heq⟩ := translateFstabRec_eq junk info r
  rw [heq]
  exact hname

/-- What is known of the prepared source or grub device. -/
structure DeviceRec (r : FstabRec) : Prop where
  replacement : Short r.replacementDevice
  bind : r.replacementBind = true
  stub : ∃ dev, r.stubDevice = some dev ∧ BLK_PREFIX <+: dev ∧ dev.length ≤ PATH_MAX

theorem prepareDevice_deviceRec (junk : Junk × Junk) {info : List SysBlockUevent}
    (hinfo : ∀ ev ∈ info, ev.partMajor < 2 ^ 32 ∧ ev.partMinor < 2 ^ 32) (mp : CString)
    (p : MmcParam) {mountPoint : CString} (hmp : mountPoint.length ≤ PATH_MAX) :
    DeviceRec (prepareDevice junk info mountPoint (importDevice mp (some p))) := by
  have hprefix : BLK_PREFIX <+: (importDevice mp (some p)).blkDevice := prefix_of_append _ _ _
  have hlen := translate_blkDevice_length (r := importDevice mp (some p)) p.blkDevice_length junk
    hinfo
  have hmax : 40 ≤ PATH_MAX := by decide
  exact ⟨⟨_, rfl, hmp⟩, rfl, _, rfl, translate_blkDevice_prefix hprefix junk info, hlen.trans hmax⟩

/-! ### The stages of `setup` -/

/-- The entry that `setup` looks up for its parameters. -/
def setupBlockinfo (params : BootParams) (env : SetupEnv) : Option SysBlockUevent :=
  if params.grub.isSome then
    getBlockinfoForPath env.grubJunk env.blockInfo
      (importDevice PATH_MOUNTPOINT_GRUB params.grub).blkDevice
  else none

/-- What `setup` has loaded when it comes to `prepareFstab`. -/
def loadedData (params : BootParams) (env : SetupEnv) (recs : List FstabRec)
    (targets : List RomFstab) : ModuleData where
  bootmode := params.bootmode
  multibootEnabled := params.source.isSome
  sndstageEnabled := params.sndstageEnabled
  multibootPath := params.source.map MmcParam.path
  multibootDevice := importDevice PATH_MOUNTPOINT_SOURCE params.source
  grubPath := params.grub.map MmcParam.path
  grubDevice := importDevice PATH_MOUNTPOINT_GRUB params.grub
  grubBlockinfo := setupBlockinfo params env
  multibootFstab := { recs := recs, fstabFilename := FILE_FSTAB, twrp := false }
  targetFstabs := targets.map RomFstab.toFstab
  blockInfo := env.blockInfo

/-- Later proofs never unfold `setup`. -/
theorem setup_eq_some_iff {params : BootParams} {env : SetupEnv} {data : ModuleData} :
    setup params env = some data ↔
      (params.grub.isSome = true → (setupBlockinfo params env).isSome = true) ∧
      env.earlyInitOk = true ∧ ∃ cols recs targets, env.multibootFstab = some cols ∧
        loadRecs (params.source.map MmcParam.path) env.mknodOk 0
          (cols.map fun c => { toFstabCols := c }) = some recs ∧
        env.targetFstabs = some targets ∧
        prepareFstab env.junk (loadedData params env recs targets) = data := by
  unfold setup
  simp only [Option.bind_eq_bind, Option.ite_none_left_eq_some, Option.bind_eq_some_iff]
  have hgrub : (¬ (params.grub.isSome && (setupBlockinfo params env).isNone) = true) ↔
      (params.grub.isSome = true → (setupBlockinfo params env).isSome = true) := by
    cases params.grub.isSome <;> cases setupBlockinfo params env <;> simp
  constructor
  · rintro ⟨hcheck, hearly, cols, hcols, fstab, hload, targets, htargets, hdata⟩
    obtain ⟨recs, hrecs, rfl⟩ := Option.map_eq_some_iff.mp hload
    exact ⟨hgrub.mp hcheck, by simpa using hearly, cols, recs, targets, hcols, hrecs, htargets,
      Option.some.inj hdata⟩
  · rintro ⟨hcheck, hearly, cols, recs, targets, hcols, hrecs, htargets, rfl⟩
    refine ⟨hgrub.mpr hcheck, by simpa using hearly, cols, hcols, _, ?_, targets, htargets, rfl⟩
    exact Option.map_eq_some_iff.mpr ⟨recs, hrecs, rfl⟩

/-! ### All records -/

/-- What the hooks rely on. -/
structure Prepared (data : ModuleData) : Prop where
  /-- What a mount is redirected to. -/
  replacement : ∀ r ∈ lookupRecs data, Short r.replacementDevice
  /-- What a file access is redirected to. -/
  target : ∀ r ∈ lookupRecs data,
    Short (if r.replacementBind then r.stubDevice else r.replacementDevice)
  /-- No loop device is a stub device. -/
  separate : ∀ r ∈ lookupRecs data, ∀ r' ∈ lookupRecs data, r.replacementBind = true →
    r'.replacementBind = false → r.stubDevice ≠ r'.replacementDevice

theorem prepareFstab_recs {junk : PrepareJunk} {data : ModuleData} {i : ℕ} {r : FstabRec}
    (h : (prepareFstab junk data).multibootFstab.recs[i]? = some r) :
    ∃ r0, data.multibootFstab.recs[i]? = some r0 ∧
      r = translateFstabRec (junk.multiboot i) data.blockInfo r0 := by
  simp only [prepareFstab, translateFstabPaths, List.getElem?_mapIdx, Option.map_eq_some_iff] at h
  obtain ⟨r0, hr0, rfl⟩ := h
  exact ⟨r0, hr0, rfl⟩

/-- The records of the multiboot fstab, from the columns that were read. -/
theorem setup_recs_of_cols {params : BootParams} {env : SetupEnv} {data : ModuleData}
    (h : setup params env = some data) {i : ℕ} {r : FstabRec}
    (hr : data.multibootFstab.recs[i]? = some r) :
    ∃ recs cols, env.multibootFstab = some recs ∧ recs[i]? = some cols ∧
      r = translateFstabRec (env.junk.multiboot i) env.blockInfo
        (replaceRec data.multibootPath (recLoop i) { toFstabCols := cols }) := by
  obtain ⟨-, -, cols, recs, targets, hcols, hrecs, -, rfl⟩ := setup_eq_some_iff.mp h
  obtain ⟨r0, hr0, rfl⟩ := prepareFstab_recs hr
  simp only [loadedData, loadRecs_eq hrecs, List.getElem?_mapIdx, List.getElem?_map,
    Option.map_eq_some_iff, Nat.zero_add] at hr0
  obtain ⟨_, ⟨c, hc, rfl⟩, rfl⟩ := hr0
  exact ⟨cols, c, hcols, hc, rfl⟩

theorem setup_recs {params : BootParams} {env : SetupEnv} {data : ModuleData}
    (h : setup params env = some data) {i : ℕ} {r : FstabRec}
    (hr : data.multibootFstab.recs[i]? = some r) :
    i < 2 ^ 31 ∧ ∃ cols : FstabCols, r = translateFstabRec (env.junk.multiboot i) env.blockInfo
      (replaceRec data.multibootPath (recLoop i) { toFstabCols := cols }) := by
  obtain ⟨recs, cols, hrecs, hcols, hr⟩ := setup_recs_of_cols h hr
  have hlt : i < recs.length := (List.getElem?_eq_some_iff.mp hcols).1
  exact ⟨hlt.trans (env.numEntries_lt recs hrecs), cols, hr⟩

/-- A record that is looked up is the source or grub device, or stands in the multiboot fstab. -/
theorem lookupRecs_of_setup {params : BootParams} {env : SetupEnv} {data : ModuleData}
    (h : setup params env = some data) {r : FstabRec} (hr : r ∈ lookupRecs data) :
    (∃ junk mountPoint mp p, mountPoint ∈ [PATH_MOUNTPOINT_SOURCE, PATH_MOUNTPOINT_GRUB] ∧
      r = prepareDevice junk env.blockInfo mountPoint (importDevice mp (some p))) ∨
    ∃ i : ℕ, data.multibootFstab.recs[i]? = some r := by
  obtain ⟨-, -, _, _, _, -, -, -, hdata⟩ := setup_eq_some_iff.mp h
  simp only [lookupRecs, List.mem_append, List.mem_filter] at hr
  rcases hr with (hr | hr) | ⟨hr, -⟩
  · -- the multiboot source
    rw [← hdata] at hr
    cases hs : params.source with
    | none => simp [prepareFstab, loadedData, hs] at hr
    | some p =>
      simp only [prepareFstab, loadedData, hs, Option.map_some, Option.isSome_some, if_true,
        List.mem_singleton] at hr
      exact Or.inl ⟨_, _, _, p, List.mem_cons_self, hr⟩
  · -- the grub device
    rw [← hdata] at hr
    cases hg : params.grub with
    | none => simp [prepareFstab, loadedData, hg] at hr
    | some p =>
      simp only [prepareFstab, loadedData, hg, Option.map_some, Option.isSome_some, if_true,
        List.mem_singleton] at hr
      exact Or.inl ⟨_, _, _, p, List.mem_cons_of_mem _ List.mem_cons_self, hr⟩
  · exact Or.inr (List.mem_iff_getElem?.mp hr)

/-- A record that is looked up is the source or grub device, or has the loop device of its place. -/
theorem knownRec_of_setup {params : BootParams} {env : SetupEnv} {data : ModuleData}
    (h : setup params env = some data) {r : FstabRec} (hr : r ∈ lookupRecs data) :
    DeviceRec r ∨ ∃ i, i < 2 ^ 31 ∧ data.multibootFstab.recs[i]? = some r ∧ LoopRec i r := by
  rcases lookupRecs_of_setup h hr with ⟨junk, mountPoint, mp, p, hmp, rfl⟩ | ⟨i, hi⟩
  · have hlen : ∀ text ∈ [PATH_MOUNTPOINT_SOURCE, PATH_MOUNTPOINT_GRUB], text.length ≤ PATH_MAX := by
      decide
    exact Or.inl (prepareDevice_deviceRec junk env.partNumbers_lt mp p (hlen mountPoint hmp))
  · obtain ⟨recs, cols, hread, hcols, rfl⟩ := setup_recs_of_cols h hi
    have hlt : i < recs.length := (List.getElem?_eq_some_iff.mp hcols).1
    refine Or.inr ⟨i, hlt.trans (env.numEntries_lt recs hread), hi, ?_⟩
    exact (replaceRec_loopRec data.multibootPath i { toFstabCols := cols }).translate _ _

/-- **`setup` prepares the records.** -/
theorem prepared_of_setup {params : BootParams} {env : SetupEnv} {data : ModuleData}
    (h : setup params env = some data) : Prepared data where
  replacement r hr := by
    rcases knownRec_of_setup h hr with hd | ⟨i, -, -, hl⟩
    · exact hd.replacement
    · exact hl.replacement
  target r hr := by
    rcases knownRec_of_setup h hr with hd | ⟨i, -, -, hl⟩
    · obtain ⟨dev, hdev, -, hlen⟩ := hd.stub
      rw [if_pos hd.bind]
      exact ⟨dev, hdev, hlen⟩
    · split_ifs with hb
      · rw [hl.stub hb]
        exact short_snprintf _
      · exact hl.replacement
  separate r hr r' hr' hb hb' := by
    intro heq
    rcases knownRec_of_setup h hr' with hd' | ⟨j, hj, hrj, hl'⟩
    · rw [hd'.bind] at hb'
      cases hb'
    rw [hl'.loop hb'] at heq
    rcases knownRec_of_setup h hr with hd | ⟨i, hi, hri, hl⟩
    · obtain ⟨dev, hdev, hpre, -⟩ := hd.stub
      rw [hdev] at heq
      rw [Option.some.inj heq] at hpre
      exact recLoop_not_prefix hj hpre
    · -- the loop devices of two places differ, and one place has one record
      rw [hl.stub hb] at heq
      obtain rfl := recLoop_injOn hi hj (Option.some.inj heq)
      obtain rfl := Option.some.inj (hri.symm.trans hrj)
      rw [hb] at hb'
      cases hb'

theorem Prepared.stub {data : ModuleData} (h : Prepared data) {r : FstabRec}
    (hr : r ∈ lookupRecs data) (hb : r.replacementBind = true) : r.stubDevice.isSome = true := by
  obtain ⟨text, ht, -⟩ := h.target r hr
  rw [if_pos hb] at ht
  rw [ht]
  rfl

end Multiboot
