import Multiboot.Setup
import Multiboot.FstabReader

/-!
# The table of ROM fstabs

`findFstab` is `find_fstab(add_fstab)`.  The block behind `target_fstabs` is modelled byte by byte: it
has `target_fstabs_count` bytes where it needs four for each pointer, and a block that is moved keeps
no more than its bytes.  `written_of_findFstab` says what a successful run has written and where,
`keepsEvery_iff` when every fstab is kept, `holds_of_inPlace` what is found again while no block moves.
-/

namespace Multiboot

open Lib

/-! ### The source -/

def FSTAB_PREFIX : CString := "fstab.".toList
def FSTAB_RECOVERY : CString := "/etc/recovery.fstab".toList

/-- `sizeof(struct fstab *)`. -/
def PTR_SIZE : ℕ := 4

/-- `do_fs_mgr_read_fstab` of a file (`none`: it cannot be opened). -/
def readFstabFile (flagVals : FlagValues) (twrp : Bool) (file : Option CString) : ReadEnd :=
  match file with
  | none => .null
  | some text => doFsMgrReadFstabBuf flagVals twrp text text

/-- `struct fstab`, and whether its records overrun their array. -/
structure TargetFstab where
  fstabFilename : CString
  twrp : Bool
  numEntries : ℕ
  recs : List ReadRec
  overrun : Bool
  deriving DecidableEq, Repr

/-- A byte of memory: part of a stored pointer, or anything else. -/
abbrev Cell := Option (TargetFstab × ℕ)

/-- A block of memory, and what is read at a distance from its start, also behind its end. -/
structure Block where
  size : ℕ
  cells : ℕ → Cell

/-- How a `realloc` ends: the block is moved to a place with these bytes, or not. -/
inductive Realloc
  | fail
  | inPlace
  | moved (junk : ℕ → Cell)

/-- The block after `realloc`: one that is moved takes the bytes it had with it. -/
def Block.realloc (b : Block) (size : ℕ) : Realloc → Option Block
  | .fail => none
  | .inPlace => some ⟨size, b.cells⟩
  | .moved junk => some ⟨size, fun j => if j < min b.size size then b.cells j else junk j⟩

/-- `b[i] = f`, also behind the end of the block. -/
def Block.store (b : Block) (i : ℕ) (f : TargetFstab) : Block :=
  { b with
    cells := fun j =>
      if PTR_SIZE * i ≤ j ∧ j < PTR_SIZE * i + PTR_SIZE then some (f, j - PTR_SIZE * i)
      else b.cells j }

/-- `b[i]` is the pointer to `f`. -/
def Block.Holds (b : Block) (i : ℕ) (f : TargetFstab) : Prop :=
  ∀ k < PTR_SIZE, b.cells (PTR_SIZE * i + k) = some (f, k)

/-- A slot that was written, and the size of the block then. -/
structure SlotWrite where
  slot : ℕ
  size : ℕ
  fstab : TargetFstab
  deriving DecidableEq, Repr

/-- `target_fstabs` and `target_fstabs_count`, with the history of the writes. -/
structure TargetTable where
  count : ℕ
  block : Option Block
  writes : List SlotWrite

def TargetTable.empty : TargetTable := ⟨0, none, []⟩

structure Dirent where
  /-- `d_type == DT_REG`. -/
  reg : Bool
  name : CString
  deriving DecidableEq, Repr

/-- What `find_fstab` finds outside the tracer. -/
structure RootEnv where
  bootmode : BootMode
  /-- `stat` of the recovery fstab succeeds. -/
  recoveryStat : Bool
  /-- The root directory, `none` if it cannot be opened. -/
  root : Option (List Dirent)
  closedirOk : Bool
  file : CString → Option CString
  /-- What `flag_vals` starts with in the two readings of the `n`-th call. -/
  flagVals : ℕ → FlagValues × FlagValues
  realloc : ℕ → Realloc

/-- The end of `add_fstab`, from the `realloc` on. -/
def appendFstab (env : RootEnv) (table : TargetTable) (f : TargetFstab) : ℤ × TargetTable :=
  let count := table.count + 1
  match (table.block.getD ⟨0, fun _ => none⟩).realloc count (env.realloc table.count) with
  | none => (-1, { table with count := count, block := none })
  | some b => (0, ⟨count, some (b.store (count - 1) f), table.writes ++ [⟨count - 1, b.size, f⟩]⟩)

/-- `add_fstab` (`none`: it crashes). -/
def addFstab (env : RootEnv) (table : TargetTable) (path : CString) : Option (ℤ × TargetTable) :=
  let flagVals := env.flagVals table.count
  match readFstabFile flagVals.1 false (env.file path) with
  | .crash => none
  | .fstab n recs overrun => some (appendFstab env table ⟨path, false, n, recs, overrun⟩)
  | .null =>
    match readFstabFile flagVals.2 true (env.file path) with
    | .crash => none
    | .null => some (-1, table)
    | .fstab n recs overrun => some (appendFstab env table ⟨path, true, n, recs, overrun⟩)

/-- The tests of `find_fstab` on an entry. -/
def isFstab (dt : Dirent) : Bool :=
  dt.reg && dt.name != "fstab.goldfish".toList && FSTAB_PREFIX.isPrefixOf dt.name

/-- The loop of `find_fstab`. -/
def readRoot (env : RootEnv) (table : TargetTable) : List Dirent → Option (ℤ × TargetTable)
  | [] => some (0, table)
  | dt :: dir =>
    if isFstab dt then
      match addFstab env table dt.name with
      | none => none
      | some (rc, table) => if rc = 0 then readRoot env table dir else some (-1, table)
    else readRoot env table dir

/-- `find_fstab` from the `opendir` on. -/
def findInRoot (env : RootEnv) (table : TargetTable) : Option (ℤ × TargetTable) :=
  match env.root with
  | none => some (-1, table)
  | some dir =>
    match readRoot env table dir with
    | none => none
    | some (rc, table) =>
      if rc = 0 then some (if env.closedirOk then 0 else -1, table) else some (-1, table)

/-- `find_fstab(add_fstab)`: its result and the table (`none`: it crashes). -/
def findFstab (env : RootEnv) : Option (ℤ × TargetTable) :=
  if env.bootmode = .RECOVERY ∧ env.recoveryStat = true then
    match addFstab env .empty FSTAB_RECOVERY with
    | none => none
    | some (rc, table) => if rc = 0 then findInRoot env table else some (-1, table)
  else findInRoot env .empty

/-! ### What is to be kept -/

/-- The files handed to `add_fstab`. -/
def handed (env : RootEnv) : List CString :=
  (if env.bootmode = .RECOVERY ∧ env.recoveryStat = true then [FSTAB_RECOVERY] else []) ++
    ((env.root.getD []).filter isFstab).map Dirent.name

/-- The fstab of the `i`-th file: in standard format, or in TWRP format if that reading fails. -/
inductive IsParsed (env : RootEnv) (i : ℕ) (path : CString) : TargetFstab → Prop
  | standard {n : ℕ} {recs : List ReadRec} {overrun : Bool}
      (h : readFstabFile (env.flagVals i).1 false (env.file path) = .fstab n recs overrun) :
      IsParsed env i path ⟨path, false, n, recs, overrun⟩
  | twrp {n : ℕ} {recs : List ReadRec} {overrun : Bool}
      (hnull : readFstabFile (env.flagVals i).1 false (env.file path) = .null)
      (h : readFstabFile (env.flagVals i).2 true (env.file path) = .fstab n recs overrun) :
      IsParsed env i path ⟨path, true, n, recs, overrun⟩

/-- The table has every file, and was written within its bounds. -/
structure KeepsEvery (env : RootEnv) (table : TargetTable) : Prop where
  count : table.count = (handed env).length
  slots : ∀ i path, (handed env)[i]? = some path →
    ∃ f b, IsParsed env i path f ∧ table.block = some b ∧ b.Holds i f
  inside : ∀ w ∈ table.writes, PTR_SIZE * w.slot + PTR_SIZE ≤ w.size

/-- Every call `find_fstab` makes succeeds: the directory is opened and closed, every file can be read
in one of the formats, and every `realloc` gives a block. -/
structure AllSucceed (env : RootEnv) : Prop where
  root : env.root.isSome
  closedir : env.closedirOk = true
  readable : ∀ i path, (handed env)[i]? = some path → ∃ f, IsParsed env i path f
  memory : ∀ i < (handed env).length, env.realloc i ≠ .fail

/-! ### One file -/

theorem realloc_eq_none_iff (b : Block) (size : ℕ) (r : Realloc) :
    b.realloc size r = none ↔ r = .fail := by
  cases r <;> simp [Block.realloc]

theorem size_of_realloc {b b' : Block} {size : ℕ} {r : Realloc} (h : b.realloc size r = some b') :
    b'.size = size := by
  cases r with
  | fail => cases h
  | inPlace =>
    obtain rfl := Option.some.inj h
    rfl
  | moved junk =>
    obtain rfl := Option.some.inj h
    rfl

/-- What `add_fstab` does when it succeeds: the block gets one byte more, and the pointer is written
behind the others. -/
theorem addFstab_eq_zero_iff {env : RootEnv} {table table' : TargetTable} {path : CString} :
    addFstab env table path = some (0, table') ↔
      ∃ f b, IsParsed env table.count path f ∧
        (table.block.getD ⟨0, fun _ => none⟩).realloc (table.count + 1) (env.realloc table.count) =
          some b ∧
        table' = ⟨table.count + 1, some (b.store table.count f),
          table.writes ++ [⟨table.count, table.count + 1, f⟩]⟩ := by
  have happend : ∀ f, appendFstab env table f = (0, table') ↔ ∃ b,
      (table.block.getD ⟨0, fun _ => none⟩).realloc (table.count + 1) (env.realloc table.count) =
        some b ∧
      table' = ⟨table.count + 1, some (b.store table.count f),
        table.writes ++ [⟨table.count, table.count + 1, f⟩]⟩ := by
    intro f
    rw [appendFstab]
    cases hr : (table.block.getD ⟨0, fun _ => none⟩).realloc (table.count + 1)
        (env.realloc table.count) with
    | none => simp
    | some b =>
      simp only [size_of_realloc hr, Nat.add_sub_cancel, Prod.mk.injEq, true_and,
        Option.some.injEq, exists_eq_left']
      exact eq_comm
  rw [addFstab]
  constructor
  · intro h
    cases hstd : readFstabFile (env.flagVals table.count).1 false (env.file path) with
    | crash =>
      simp only [hstd] at h
      cases h
    | fstab n recs overrun =>
      simp only [hstd, Option.some.injEq] at h
      obtain ⟨b, hb, rfl⟩ := (happend _).mp h
      exact ⟨_, b, .standard hstd, hb, rfl⟩
    | null =>
      cases htwrp : readFstabFile (env.flagVals table.count).2 true (env.file path) with
      | crash =>
        simp only [hstd, htwrp] at h
        cases h
      | null =>
        simp only [hstd, htwrp] at h
        cases h
      | fstab n recs overrun =>
        simp only [hstd, htwrp, Option.some.injEq] at h
        obtain ⟨b, hb, rfl⟩ := (happend _).mp h
        exact ⟨_, b, .twrp hstd htwrp, hb, rfl⟩
  · rintro ⟨f, b, hparsed, hb, ht⟩
    have hf := (happend f).mpr ⟨b, hb, ht⟩
    cases hparsed with
    | standard h => simp only [h, hf]
    | twrp hnull h => simp only [hnull, h, hf]

/-! ### All files -/

theorem readRoot_induction {env : RootEnv} {P : List CString → TargetTable → Prop}
    (hadd : ∀ paths table table' path, P paths table →
      addFstab env table path = some (0, table') → P (paths ++ [path]) table')
    {dir : List Dirent} {paths : List CString} {table table' : TargetTable} (hP : P paths table)
    (h : readRoot env table dir = some (0, table')) :
    P (paths ++ (dir.filter isFstab).map Dirent.name) table' := by
  induction dir generalizing paths table with
  | nil =>
    obtain rfl : table = table' := by simpa [readRoot] using h
    simpa using hP
  | cons dt dir ih =>
    rw [readRoot] at h
    cases hdt : isFstab dt with
    | false =>
      rw [List.filter_cons_of_neg (by simp [hdt])]
      exact ih hP (by simpa [hdt] using h)
    | true =>
      rw [List.filter_cons_of_pos hdt, List.map_cons, List.append_cons]
      rw [if_pos hdt] at h
      cases hcall : addFstab env table dt.name with
      | none => simp [hcall] at h
      | some r =>
        obtain ⟨rc, table1⟩ := r
        simp only [hcall] at h
        split_ifs at h with hrc
        · subst hrc
          exact ih (hadd _ _ _ _ hP hcall) h
        · cases h

/-- **Runs of `find_fstab`**: what holds of the empty table and is kept by `add_fstab` holds of the
table of all files. -/
theorem findFstab_induction {env : RootEnv} {P : List CString → TargetTable → Prop}
    (hempty : P [] .empty)
    (hadd : ∀ paths table table' path, P paths table →
      addFstab env table path = some (0, table') → P (paths ++ [path]) table')
    {table : TargetTable} (h : findFstab env = some (0, table)) :
    P (handed env) table ∧ env.root.isSome ∧ env.closedirOk = true := by
  have hroot : ∀ paths table0, P paths table0 → findInRoot env table0 = some (0, table) →
      P (paths ++ ((env.root.getD []).filter isFstab).map Dirent.name) table ∧
        env.root.isSome ∧ env.closedirOk = true := by
    intro paths table0 hP hfind
    rw [findInRoot] at hfind
    cases hdir : env.root with
    | none => simp [hdir] at hfind
    | some dir =>
      simp only [hdir] at hfind
      cases hread : readRoot env table0 dir with
      | none => simp [hread] at hfind
      | some r =>
        obtain ⟨rc, table1⟩ := r
        simp only [hread] at hfind
        cases hclose : env.closedirOk with
        | false => simp [hclose] at hfind
        | true =>
          simp only [hclose, if_true] at hfind
          split_ifs at hfind with hrc
          · subst hrc
            obtain rfl : table1 = table := by simpa using hfind
            exact ⟨readRoot_induction hadd hP hread, rfl, rfl⟩
          · cases hfind
  rw [findFstab] at h
  rw [handed]
  split_ifs at h ⊢ with hrec
  · cases hcall : addFstab env .empty FSTAB_RECOVERY with
    | none => simp [hcall] at h
    | some r =>
      obtain ⟨rc, table1⟩ := r
      simp only [hcall] at h
      split_ifs at h with hrc
      · subst hrc
        exact hroot _ _ (hadd _ _ _ _ hempty hcall) h
      · cases h
  · exact hroot _ _ hempty h

/-- The table after these files, one after the other: the `i`-th pointer is written to slot `i` of a
block of `i + 1` bytes. -/
structure Written (env : RootEnv) (paths : List CString) (table : TargetTable) : Prop where
  count : table.count = paths.length
  length : table.writes.length = paths.length
  writes : ∀ i path, paths[i]? = some path → env.realloc i ≠ .fail ∧
    ∃ f, IsParsed env i path f ∧ table.writes[i]? = some ⟨i, i + 1, f⟩

/-- What one file adds. -/
theorem Written.add {env : RootEnv} {paths : List CString} {table table' : TargetTable}
    {path : CString} (h : Written env paths table)
    (hadd : addFstab env table path = some (0, table')) : Written env (paths ++ [path]) table' := by
  obtain ⟨f, b, hparsed, hb, rfl⟩ := addFstab_eq_zero_iff.mp hadd
  refine ⟨?_, ?_, fun i p hi => ?_⟩
  · simp [h.count]
  · simp [h.length]
  · rw [List.getElem?_append] at hi
    split_ifs at hi with hlt
    · obtain ⟨hmem, g, hg, hw⟩ := h.writes i p hi
      refine ⟨hmem, g, hg, ?_⟩
      rwa [List.getElem?_append_left (by rw [h.length]; exact hlt)]
    · obtain ⟨hi0, hp⟩ := List.getElem?_eq_some_iff.mp hi
      rw [List.length_singleton] at hi0
      obtain rfl : path = p := by simpa using hp
      obtain rfl : i = table.count := by
        rw [h.count]
        omega
      refine ⟨fun hfail => ?_, f, hparsed, ?_⟩
      · rw [(realloc_eq_none_iff _ _ _).mpr hfail] at hb
        cases hb
      · rw [List.getElem?_append_right (by rw [h.length, h.count]), h.length, h.count, Nat.sub_self]
        rfl

/-- **A successful run** has read every file and written its pointer. -/
theorem written_of_findFstab {env : RootEnv} {table : TargetTable}
    (h : findFstab env = some (0, table)) : Written env (handed env) table ∧ AllSucceed env := by
  have hempty : Written env [] .empty := ⟨rfl, rfl, nofun⟩
  obtain ⟨hw, hroot, hclose⟩ := findFstab_induction hempty
    (fun _ _ _ _ hP hadd => Written.add hP hadd) h
  refine ⟨hw, hroot, hclose, fun i path hi => ?_, fun i hi => ?_⟩
  · obtain ⟨-, f, hf, -⟩ := hw.writes i path hi
    exact ⟨f, hf⟩
  · exact (hw.writes i _ (List.getElem?_eq_getElem hi)).1

/-- A file that can be read is added. -/
theorem addFstab_succeeds {env : RootEnv} {table : TargetTable} {path : CString}
    (hread : ∃ f, IsParsed env table.count path f) (hmem : env.realloc table.count ≠ .fail) :
    ∃ table', addFstab env table path = some (0, table') ∧ table'.count = table.count + 1 := by
  obtain ⟨f, hf⟩ := hread
  cases hb : (table.block.getD ⟨0, fun _ => none⟩).realloc (table.count + 1)
      (env.realloc table.count) with
  | none => exact absurd ((realloc_eq_none_iff _ _ _).mp hb) hmem
  | some b => exact ⟨_, addFstab_eq_zero_iff.mpr ⟨f, b, hf, hb, rfl⟩, rfl⟩

theorem readRoot_succeeds {env : RootEnv} {dir : List Dirent} {table : TargetTable}
    (hread : ∀ i path, ((dir.filter isFstab).map Dirent.name)[i]? = some path →
      ∃ f, IsParsed env (table.count + i) path f)
    (hmem : ∀ i < ((dir.filter isFstab).map Dirent.name).length,
      env.realloc (table.count + i) ≠ .fail) :
    ∃ table', readRoot env table dir = some (0, table') := by
  induction dir generalizing table with
  | nil => exact ⟨table, rfl⟩
  | cons dt dir ih =>
    rw [readRoot]
    cases hdt : isFstab dt with
    | false =>
      rw [List.filter_cons_of_neg (by simp [hdt])] at hread hmem
      exact ih hread hmem
    | true =>
      rw [List.filter_cons_of_pos hdt, List.map_cons] at hread hmem
      obtain ⟨table1, hadd, hcount⟩ := addFstab_succeeds (hread 0 dt.name rfl)
        (hmem 0 (by simp))
      simp only [if_true, hadd]
      refine ih (fun i path hi => ?_) fun i hi => ?_
      · rw [hcount, Nat.add_assoc, Nat.add_comm 1 i]
        exact hread (i + 1) path hi
      · rw [hcount, Nat.add_assoc, Nat.add_comm 1 i]
        exact hmem (i + 1) (by simpa using hi)

theorem findFstab_succeeds {env : RootEnv} (h : AllSucceed env) :
    ∃ table, findFstab env = some (0, table) := by
  obtain ⟨dir, hdir⟩ := Option.isSome_iff_exists.mp h.root
  have hread := h.readable
  have hmem := h.memory
  have hroot : ∀ table, (∃ table', readRoot env table dir = some (0, table')) →
      ∃ table', findInRoot env table = some (0, table') := by
    rintro table ⟨table', hrun⟩
    refine ⟨table', ?_⟩
    simp only [findInRoot, hdir, hrun, if_true, h.closedir]
  rw [findFstab]
  rw [handed, hdir, Option.getD_some] at hread hmem
  split_ifs at hread hmem ⊢ with hrec
  · obtain ⟨table1, hadd, hcount⟩ := @addFstab_succeeds env .empty FSTAB_RECOVERY
      (hread 0 FSTAB_RECOVERY rfl) (hmem 0 (by simp))
    simp only [hadd, if_true]
    refine hroot _ (readRoot_succeeds (fun i path hi => ?_) fun i hi => ?_)
    · rw [hcount, Nat.add_comm]
      exact hread (i + 1) path hi
    · rw [hcount, Nat.add_comm]
      exact hmem (i + 1) (by simpa using hi)
  · refine hroot _ (readRoot_succeeds (fun i path hi => ?_) fun i hi => ?_)
    · rw [TargetTable.empty, Nat.zero_add]
      exact hread i path hi
    · rw [TargetTable.empty, Nat.zero_add]
      exact hmem i hi

/-! ### What is kept -/

/-- **When every fstab is kept.**  Slot 0 needs four bytes and its block has one, so whenever
`find_fstab` returns 0 the table is right exactly if no file was handed over; it does not return 0
exactly if one of its calls fails. -/
theorem keepsEvery_iff (env : RootEnv) :
    (∀ table, findFstab env = some (0, table) → KeepsEvery env table) ↔
      handed env = [] ∨ ¬ AllSucceed env := by
  constructor
  · intro h
    by_contra hno
    obtain ⟨hne, hall⟩ := not_or.mp hno
    obtain ⟨table, hrun⟩ := findFstab_succeeds (not_not.mp hall)
    obtain ⟨path, rest, hpath⟩ := List.exists_cons_of_ne_nil hne
    have hw := (written_of_findFstab hrun).1
    obtain ⟨-, f, -, hslot⟩ := hw.writes 0 path (by rw [hpath]; rfl)
    have hinside := (h table hrun).inside _ (List.mem_of_getElem? hslot)
    exact absurd hinside (by decide : ¬ PTR_SIZE * 0 + PTR_SIZE ≤ 0 + 1)
  · rintro (hnil | hfail) table hrun
    · have hw := (written_of_findFstab hrun).1
      rw [hnil] at hw
      have hwrites : table.writes = [] := List.length_eq_zero_iff.mp hw.length
      refine ⟨by rw [hw.count, hnil], fun i path hi => ?_, fun w hmem => ?_⟩
      · rw [hnil] at hi
        cases hi
      · rw [hwrites] at hmem
        cases hmem
    · exact absurd (written_of_findFstab hrun).2 hfail

/-- A root directory with two fstabs, where every block is moved. -/
def romRoot : RootEnv where
  bootmode := .ANDROID
  recoveryStat := false
  root := some [⟨true, "fstab.a".toList⟩, ⟨true, "fstab.b".toList⟩]
  closedirOk := true
  file _ := some "/dev/block/a /data ext4 ro wait\n".toList
  flagVals _ := (.notSpecified, .notSpecified)
  realloc _ := .moved fun _ => none

/-- The second file moves a block of one byte: three bytes of the first pointer are lost. -/
theorem first_slot_lost : handed romRoot = ["fstab.a".toList, "fstab.b".toList] ∧
    ∃ table, findFstab romRoot = some (0, table) ∧ ¬ KeepsEvery romRoot table ∧
      ∀ b f, table.block = some b → ¬ b.Holds 0 f := by
  have hlost : ∀ table, findFstab romRoot = some (0, table) →
      ∀ b f, table.block = some b → ¬ b.Holds 0 f := by
    rintro table h b f hb hholds
    have hbyte : (findFstab romRoot).bind (fun r => r.2.block.map fun b => b.cells 1) = some none :=
      rfl
    rw [h, Option.bind_some, hb, Option.map_some, Option.some.injEq] at hbyte
    have hsecond := hholds 1 (by decide)
    rw [show PTR_SIZE * 0 + 1 = 1 from rfl, hbyte] at hsecond
    cases hsecond
  have hrun : ((findFstab romRoot).map Prod.fst) = some 0 := by decide
  obtain ⟨⟨rc, table⟩, hfind, hrc⟩ := Option.map_eq_some_iff.mp hrun
  obtain rfl : rc = 0 := hrc
  refine ⟨by decide, table, hfind, fun hkeeps => ?_, hlost table hfind⟩
  obtain ⟨f, b, -, hb, hholds⟩ := hkeeps.slots 0 "fstab.a".toList rfl
  exact hlost table hfind b f hb hholds

/-! ### Blocks that grow in place -/

theorem Block.store_cells (b : Block) (i : ℕ) (f : TargetFstab) (j : ℕ) : (b.store i f).cells j =
    if PTR_SIZE * i ≤ j ∧ j < PTR_SIZE * i + PTR_SIZE then some (f, j - PTR_SIZE * i)
    else b.cells j := rfl

theorem Block.holds_store (b : Block) (i : ℕ) (f : TargetFstab) : (b.store i f).Holds i f := by
  intro k hk
  have hin : PTR_SIZE * i ≤ PTR_SIZE * i + k ∧ PTR_SIZE * i + k < PTR_SIZE * i + PTR_SIZE := by
    omega
  rw [Block.store_cells, if_pos hin, Nat.add_sub_cancel_left]

theorem Block.Holds.store {b : Block} {i j : ℕ} {f : TargetFstab} (h : b.Holds i f) (hij : i < j)
    (g : TargetFstab) : (b.store j g).Holds i f := by
  intro k hk
  have hout : ¬ (PTR_SIZE * j ≤ PTR_SIZE * i + k ∧
      PTR_SIZE * i + k < PTR_SIZE * j + PTR_SIZE) := by
    simp only [PTR_SIZE] at hk ⊢
    omega
  rw [Block.store_cells, if_neg hout]
  exact h k hk

/-- Every pointer that was written is found again. -/
def HoldsWritten (table : TargetTable) : Prop :=
  ∀ w ∈ table.writes, w.slot < table.count ∧ ∃ b, table.block = some b ∧ b.Holds w.slot w.fstab

theorem HoldsWritten.add {env : RootEnv} (hin : ∀ i, env.realloc i = .inPlace)
    {table table' : TargetTable} {path : CString} (h : HoldsWritten table)
    (hadd : addFstab env table path = some (0, table')) : HoldsWritten table' := by
  obtain ⟨f, b, -, hb, rfl⟩ := addFstab_eq_zero_iff.mp hadd
  rw [hin, Block.realloc, Option.some.injEq] at hb
  intro w hw
  rcases List.mem_append.mp hw with hw | hw
  · obtain ⟨hlt, b0, hb0, hholds⟩ := h w hw
    refine ⟨Nat.lt_succ_of_lt hlt, _, rfl, Block.Holds.store ?_ hlt f⟩
    rw [hb0, Option.getD_some] at hb
    rw [← hb]
    exact hholds
  · obtain rfl := List.mem_singleton.mp hw
    exact ⟨Nat.lt_succ_self _, _, rfl, Block.holds_store b _ f⟩

/-- **No fstab is lost while no block moves**, although all are written behind the end of the block. -/
theorem holds_of_inPlace {env : RootEnv} (hin : ∀ i, env.realloc i = .inPlace) {table : TargetTable}
    (h : findFstab env = some (0, table)) {i : ℕ} {path : CString}
    (hi : (handed env)[i]? = some path) :
    ∃ f b, IsParsed env i path f ∧ table.block = some b ∧ b.Holds i f := by
  obtain ⟨-, f, hf, hw⟩ := (written_of_findFstab h).1.writes i path hi
  have hkeep : HoldsWritten table := (findFstab_induction (P := fun _ => HoldsWritten) nofun
    (fun _ _ _ _ hP hadd => HoldsWritten.add hin hP hadd) h).1
  obtain ⟨-, b, hb, hholds⟩ := hkeep _ (List.mem_of_getElem? hw)
  exact ⟨f, b, hf, hb, hholds⟩

end Multiboot
