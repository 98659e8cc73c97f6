import Multiboot.DeviceNames

/-!
# Loop nodes in the private device directory

`loadFstabNodes` runs `uevent_create_nodes` and `load_multiboot_fstab` on a directory of nodes, where
`mknod` fails on a name that is there.  `loadLoops_eq_some_iff` says when the records get their loop
devices and which, `loops_iff` when these are valid and apart from all others.
-/

namespace Multiboot

open Lib

/-! ### The source -/

/-- The nodes in a directory: their names and numbers. -/
abbrev DevDir := List (CString × Dev)

/-- `makedev`: 12 bits of the major and 20 of the minor number are kept. -/
def makedev (major : ℕ) (minor : ℤ) : Dev := ⟨major % 2 ^ 12, (minor % 2 ^ 20).toNat⟩

/-- `mknod`: it fails on a name that is there, or where `ok` says so. -/
def mknod (ok : Bool) (nodes : DevDir) (node : CString × Dev) : Option DevDir :=
  if ok && !(nodes.map Prod.fst).contains node.1 then some (nodes ++ [node]) else none

/-- The node of an entry in the private directory. -/
def ueventNode (event : SysBlockUevent) : CString × Dev :=
  ((createNode PATH_MOUNTPOINT_DEV event).1, makedev event.linuxMajor event.linuxMinor)

/-- The loop of `uevent_create_nodes`: a failed `mknod` is passed over. -/
def createNodes (ok : ℕ → Bool) : ℕ → DevDir → List SysBlockUevent → DevDir
  | _, nodes, [] => nodes
  | i, nodes, event :: info =>
    createNodes ok (i + 1) ((mknod (ok i) nodes (ueventNode event)).getD nodes) info

/-- `make_loop`: its result, the directory and `loops_created`.  `buf` is what the local buffer starts
with. -/
def makeLoopNode (buf : CString) (path : Option CString) (ok : Bool) (nodes : DevDir)
    (loopsCreated : ℕ) : Option CString × DevDir × ℕ :=
  let minor : ℤ := 255 - loopsCreated
  let buf := if path.isSome then buf else snprintf PATH_MAX (loopName minor)
  match mknod ok nodes (path.getD buf, makedev 7 minor) with
  | none => (none, nodes, loopsCreated)
  | some nodes => (some buf, nodes, loopsCreated + 1)

/-- The loop of `load_multiboot_fstab`. -/
def loadLoops (multibootPath : Option CString) (ok : ℕ → Bool) :
    ℕ → DevDir → List FstabRec → Option (List FstabRec × DevDir)
  | _, nodes, [] => some ([], nodes)
  | loopsCreated, nodes, rec :: recs =>
    match makeLoopNode [] none (ok loopsCreated) nodes loopsCreated with
    | (none, _, _) => none
    | (some loopdev, nodes, loopsCreated) =>
      (loadLoops multibootPath ok loopsCreated nodes recs).map fun r =>
        (replaceRec multibootPath loopdev rec :: r.1, r.2)

/-- What `setup` finds between the mounting of `/multiboot/dev` and the end of
`load_multiboot_fstab`. -/
structure LoadEnv where
  /-- The nodes made before. -/
  dev : DevDir
  blockInfo : List SysBlockUevent
  /-- How the calls of `mknod` end where the name is free. -/
  nodeOk : ℕ → Bool
  loopOk : ℕ → Bool
  multibootPath : Option CString
  /-- The multiboot fstab, `none` if it cannot be read. -/
  fstab : Option (List FstabRec)
  /-- `num_entries` is an `int`. -/
  numEntries_lt : ∀ recs ∈ fstab, recs.length < 2 ^ 31

/-- The directory after `uevent_create_nodes`. -/
def LoadEnv.nodes (env : LoadEnv) : DevDir := createNodes env.nodeOk 0 env.dev env.blockInfo

/-- The nodes `uevent_create_nodes` has made. -/
def LoadEnv.made (env : LoadEnv) : DevDir := env.nodes.drop env.dev.length

/-- `load_multiboot_fstab` behind `uevent_create_nodes`: the records and the directory (`none`: it
returns -1). -/
def loadFstabNodes (env : LoadEnv) : Option (List FstabRec × DevDir) :=
  env.fstab.bind (loadLoops env.multibootPath env.loopOk 0 env.nodes)

/-! ### What is to hold -/

/-- The loop device of a record. -/
def FstabRec.loopNode (r : FstabRec) : Option CString :=
  if r.replacementBind then r.stubDevice else r.replacementDevice

/-- Each record has a loop device of its own, with a valid number, and none of them is one of the
nodes in `made`. -/
structure OwnLoops (made : DevDir) (recs : List FstabRec) (loops : DevDir) : Prop where
  own : recs.map FstabRec.loopNode = loops.map fun l => some l.1
  names : (loops.map Prod.fst).Nodup
  minors : (loops.map fun l => l.2.minor).Nodup
  valid : ∀ l ∈ loops, l.2.major = 7 ∧ l.2.minor ≤ 255
  apart : ∀ l ∈ loops, ∀ m ∈ made, l.1 ≠ m.1 ∧ l.2 ≠ m.2

/-- The `i`-th call of `mknod` in `load_multiboot_fstab` succeeds. -/
def LoopFree (env : LoadEnv) (i : ℕ) : Prop :=
  env.loopOk i = true ∧ recLoop i ∉ env.nodes.map Prod.fst

/-! ### One loop device -/

/-- The node of the `i`-th loop device. -/
def loopDev (i : ℕ) : CString × Dev := (recLoop i, makedev 7 (255 - i))

theorem mknod_eq_some_iff {ok : Bool} {nodes nodes' : DevDir} {node : CString × Dev} :
    mknod ok nodes node = some nodes' ↔
      (ok = true ∧ node.1 ∉ nodes.map Prod.fst) ∧ nodes' = nodes ++ [node] := by
  have hnew : (ok && !(nodes.map Prod.fst).contains node.1) = true ↔
      ok = true ∧ node.1 ∉ nodes.map Prod.fst := by
    rw [Bool.and_eq_true, Bool.not_eq_true', ← Bool.not_eq_true, List.contains_iff_mem]
  rw [mknod]
  split_ifs with h
  · rw [and_iff_right (hnew.mp h), Option.some.injEq]
    exact eq_comm
  · refine iff_of_false (fun h' => ?_) fun h' => h (hnew.mpr h'.1)
    cases h'

theorem makeLoopNode_some_iff {buf : CString} {path : Option CString} {ok : Bool} {nodes : DevDir}
    {n : ℕ} {name : CString} {nodes' : DevDir} {n' : ℕ} :
    makeLoopNode buf path ok nodes n = (some name, nodes', n') ↔
      (ok = true ∧ path.getD (recLoop n) ∉ nodes.map Prod.fst) ∧
        name = (if path.isSome then buf else recLoop n) ∧
        nodes' = nodes ++ [(path.getD (recLoop n), makedev 7 (255 - n))] ∧ n' = n + 1 := by
  have hname : path.getD (if path.isSome then buf else recLoop n) = path.getD (recLoop n) := by
    cases path <;> rfl
  have hcall : makeLoopNode buf path ok nodes n =
      match mknod ok nodes (path.getD (recLoop n), makedev 7 (255 - n)) with
      | none => (none, nodes, n)
      | some nodes => (some (if path.isSome then buf else recLoop n), nodes, n + 1) := by
    rw [← hname]
    rfl
  rw [hcall]
  cases hnode : mknod ok nodes (path.getD (recLoop n), makedev 7 (255 - n)) with
  | none =>
    have hfail : ¬ (ok = true ∧ path.getD (recLoop n) ∉ nodes.map Prod.fst) := fun h => by
      rw [mknod_eq_some_iff.mpr ⟨h, rfl⟩] at hnode
      cases hnode
    exact iff_of_false nofun fun h => hfail h.1
  | some nodes1 =>
    obtain ⟨hfree, rfl⟩ := mknod_eq_some_iff.mp hnode
    rw [and_iff_right hfree]
    simp only [Prod.mk.injEq, Option.some.injEq]
    exact ⟨fun ⟨h1, h2, h3⟩ => ⟨h1.symm, h2.symm, h3.symm⟩,
      fun ⟨h1, h2, h3⟩ => ⟨h1.symm, h2.symm, h3.symm⟩⟩

/-- A failed call leaves the directory and the count. -/
theorem makeLoopNode_none {buf : CString} {path : Option CString} {ok : Bool} {nodes : DevDir}
    {n : ℕ} {nodes' : DevDir} {n' : ℕ}
    (h : makeLoopNode buf path ok nodes n = (none, nodes', n')) : nodes' = nodes ∧ n' = n := by
  rw [makeLoopNode] at h
  split at h
  · cases h
    exact ⟨rfl, rfl⟩
  · cases h

/-- **The name that is returned** is that of the new node exactly if no path is given, the call fails,
or the buffer happens to hold the path. -/
theorem makeLoopNode_name_iff (buf : CString) (path : Option CString) (ok : Bool) (nodes : DevDir)
    (n : ℕ) :
    (∀ name nodes' n', makeLoopNode buf path ok nodes n = (some name, nodes', n') →
      ∃ dev, nodes' = nodes ++ [(name, dev)]) ↔
    ∀ p, path = some p → ok = false ∨ p ∈ nodes.map Prod.fst ∨ p = buf := by
  simp only [makeLoopNode_some_iff]
  constructor
  · rintro h p rfl
    by_contra hno
    simp only [not_or, Bool.not_eq_false] at hno
    obtain ⟨hok, hfree, hne⟩ := hno
    obtain ⟨dev, hdev⟩ := h _ _ _ ⟨⟨hok, hfree⟩, rfl, rfl, rfl⟩
    exact hne (Prod.mk.inj (List.cons.inj (List.append_cancel_left hdev)).1).1
  · rintro h name nodes' n' ⟨⟨hok, hfree⟩, rfl, rfl, -⟩
    refine ⟨makedev 7 (255 - n), ?_⟩
    cases path with
    | none => rfl
    | some p =>
      rcases h p rfl with hfail | hmem | rfl
      · rw [hok] at hfail
        cases hfail
      · exact absurd hmem hfree
      · rfl

/-! ### All records -/

/-- **The loop of `load_multiboot_fstab`** goes through exactly if no name is taken and no `mknod`
fails; the records get the loop devices of their positions. -/
theorem loadLoops_eq_some_iff {path : Option CString} {ok : ℕ → Bool} {n : ℕ} {nodes : DevDir}
    {recs : List FstabRec} (hn : n + recs.length ≤ 2 ^ 31) {r : List FstabRec × DevDir} :
    loadLoops path ok n nodes recs = some r ↔
      (∀ i, n ≤ i → i < n + recs.length → ok i = true ∧ recLoop i ∉ nodes.map Prod.fst) ∧
      r = (recs.mapIdx fun i rec => replaceRec path (recLoop (n + i)) rec,
        nodes ++ (List.range' n recs.length).map loopDev) := by
  induction recs generalizing n nodes r with
  | nil =>
    have hnone : ∀ i, n ≤ i → i < n + 0 → ok i = true ∧ recLoop i ∉ nodes.map Prod.fst :=
      fun i h1 h2 => by omega
    simp only [loadLoops, List.length_nil, List.range'_zero, List.map_nil, List.append_nil,
      List.mapIdx_nil, and_iff_right hnone, Option.some.injEq]
    exact eq_comm
  | cons rec recs ih =>
    have hlen : (rec :: recs).length = recs.length + 1 := rfl
    have hn1 : n + 1 + recs.length ≤ 2 ^ 31 := by omega
    have hindex : (fun i rec => replaceRec path (recLoop (n + 1 + i)) rec) =
        fun i rec => replaceRec path (recLoop (n + (i + 1))) rec := by
      funext i rec
      rw [Nat.add_right_comm, Nat.add_assoc]
    have hsplit : nodes ++ (List.range' n (rec :: recs).length).map loopDev =
        (nodes ++ [loopDev n]) ++ (List.range' (n + 1) recs.length).map loopDev := by
      rw [hlen, List.range'_succ, List.map_cons, List.append_assoc, List.singleton_append]
    -- a later name is free in the new directory if it was before
    have hfree : ∀ i, n + 1 ≤ i → i < n + 1 + recs.length →
        (recLoop i ∉ (nodes ++ [loopDev n]).map Prod.fst ↔ recLoop i ∉ nodes.map Prod.fst) := by
      intro i h1 h2
      have hne : recLoop i ≠ recLoop n := fun h => by
        have := recLoop_injOn (by omega) (by omega) h
        omega
      simp [loopDev, hne]
    rw [loadLoops]
    cases hcall : makeLoopNode [] none (ok n) nodes n with
    | mk name rest =>
      obtain ⟨nodes1, n1⟩ := rest
      cases name with
      | none =>
        refine iff_of_false nofun fun ⟨hall, _⟩ => ?_
        have hgood : makeLoopNode [] none (ok n) nodes n =
            (some (recLoop n), nodes ++ [loopDev n], n + 1) :=
          makeLoopNode_some_iff.mpr ⟨hall n le_rfl (by omega), rfl, rfl, rfl⟩
        rw [hcall] at hgood
        cases hgood
      | some loopdev =>
        obtain ⟨hfirst, rfl, rfl, rfl⟩ := makeLoopNode_some_iff.mp hcall
        simp only [Option.map_eq_some_iff]
        constructor
        · rintro ⟨r1, hr1, rfl⟩
          obtain ⟨hall, rfl⟩ := (ih hn1).mp hr1
          refine ⟨fun i h1 h2 => ?_, ?_⟩
          · rcases Nat.eq_or_lt_of_le h1 with rfl | hlt
            · exact hfirst
            · obtain ⟨hok, hmem⟩ := hall i hlt (by omega)
              exact ⟨hok, (hfree i hlt (by omega)).mp hmem⟩
          · rw [List.mapIdx_cons, hsplit, hindex]
            rfl
        · rintro ⟨hall, rfl⟩
          refine ⟨_, (ih hn1).mpr ⟨fun i h1 h2 => ?_, rfl⟩, ?_⟩
          · obtain ⟨hok, hmem⟩ := hall i (by omega) (by omega)
            exact ⟨hok, (hfree i h1 h2).mpr hmem⟩
          · rw [List.mapIdx_cons, hsplit, hindex]
            rfl

theorem loadRecs_of_ok {path : Option CString} {ok : ℕ → Bool} {n : ℕ} {recs : List FstabRec}
    (h : ∀ i, n ≤ i → i < n + recs.length → ok i = true) : loadRecs path ok n recs =
      some (recs.mapIdx fun i rec => replaceRec path (recLoop (n + i)) rec) := by
  have hsome : ∃ out, loadRecs path ok n recs = some out := by
    induction recs generalizing n with
    | nil => exact ⟨_, rfl⟩
    | cons rec recs ih =>
      have hlen : (rec :: recs).length = recs.length + 1 := rfl
      obtain ⟨out, hout⟩ := @ih (n + 1) fun i h1 h2 => h i (by omega) (by omega)
      have hok := h n le_rfl (by omega)
      exact ⟨_, by simp only [loadRecs, makeLoop, hok, if_true, hout, Option.map_some]; rfl⟩
  obtain ⟨out, hout⟩ := hsome
  rw [hout, loadRecs_eq hout]

theorem ok_of_loadRecs {path : Option CString} {ok : ℕ → Bool} {n : ℕ} {recs out : List FstabRec}
    (h : loadRecs path ok n recs = some out) : ∀ i, n ≤ i → i < n + recs.length → ok i = true := by
  induction recs generalizing n out with
  | nil =>
    intro i h1 h2
    rw [List.length_nil] at h2
    omega
  | cons rec recs ih =>
    intro i h1 h2
    have hlen : (rec :: recs).length = recs.length + 1 := rfl
    cases hok : ok n with
    | false => simp [loadRecs, makeLoop, hok] at h
    | true =>
      simp only [loadRecs, makeLoop, hok, if_true, Option.map_eq_some_iff] at h
      obtain ⟨rest, hrest, -⟩ := h
      rcases Nat.eq_or_lt_of_le h1 with rfl | hlt
      · exact hok
      · exact ih hrest i hlt (by omega)

/-- The loop gives the records of `loadRecs`, where `mknod` fails on the names that are taken. -/
theorem loadLoops_refines {path : Option CString} {ok okNode : ℕ → Bool} {n : ℕ} {nodes : DevDir}
    {recs : List FstabRec} (hn : n + recs.length ≤ 2 ^ 31)
    (hok : ∀ i, n ≤ i → i < n + recs.length →
      (okNode i = true ↔ ok i = true ∧ recLoop i ∉ nodes.map Prod.fst)) :
    (loadLoops path ok n nodes recs).map Prod.fst = loadRecs path okNode n recs := by
  cases hload : loadLoops path ok n nodes recs with
  | some r =>
    obtain ⟨hall, rfl⟩ := (loadLoops_eq_some_iff hn).mp hload
    exact (loadRecs_of_ok fun i h1 h2 => (hok i h1 h2).mpr (hall i h1 h2)).symm
  | none =>
    cases hrecs : loadRecs path okNode n recs with
    | none => rfl
    | some out =>
      have hall := ok_of_loadRecs hrecs
      have hgood : ∃ r, loadLoops path ok n nodes recs = some r :=
        ⟨_, (loadLoops_eq_some_iff hn).mpr
          ⟨fun i h1 h2 => (hok i h1 h2).mp (hall i h1 h2), rfl⟩⟩
      rw [hload] at hgood
      obtain ⟨r, hr⟩ := hgood
      cases hr

/-! ### Valid loop devices -/

theorem makedev_loop {i : ℕ} (h : i ≤ 255) : makedev 7 (255 - i) = ⟨7, 255 - i⟩ := by
  have hminor : ((255 - (i : ℤ)) % 2 ^ 20).toNat = 255 - i := by omega
  exact congrArg (Dev.mk 7) hminor

theorem loadFstabNodes_some_iff {env : LoadEnv} {recs : List FstabRec} {nodes : DevDir} :
    loadFstabNodes env = some (recs, nodes) ↔ ∃ fstab, env.fstab = some fstab ∧
      (∀ i < fstab.length, LoopFree env i) ∧
      recs = (fstab.mapIdx fun i rec => replaceRec env.multibootPath (recLoop i) rec) ∧
      nodes = env.nodes ++ (List.range fstab.length).map loopDev := by
  rw [loadFstabNodes, Option.bind_eq_some_iff]
  refine exists_congr fun fstab => and_congr_right fun hfstab => ?_
  have hlen := env.numEntries_lt fstab hfstab
  rw [loadLoops_eq_some_iff (by omega), Prod.mk.injEq, List.range_eq_range']
  simp only [Nat.zero_le, true_implies, Nat.zero_add, LoopFree]

theorem loopNode_replaceRec (path : Option CString) (n : ℕ) (r : FstabRec) :
    (replaceRec path (recLoop n) r).loopNode = some (recLoop n) := by
  have hrec := replaceRec_loopRec path n r
  rw [FstabRec.loopNode]
  cases hb : (replaceRec path (recLoop n) r).replacementBind with
  | true => exact hrec.stub hb
  | false => exact hrec.loop hb

/-- The loop devices of the first `n` records are valid exactly if there are no more than 256, and
no node has the number of one. -/
theorem ownLoops_iff {env : LoadEnv} {fstab : List FstabRec} (hfstab : env.fstab = some fstab)
    (hfree : ∀ i < fstab.length, LoopFree env i) :
    OwnLoops env.made (fstab.mapIdx fun i rec => replaceRec env.multibootPath (recLoop i) rec)
        ((List.range fstab.length).map loopDev) ↔
      fstab.length ≤ 256 ∧
        ∀ i < fstab.length, ∀ m ∈ env.made, m.2 ≠ ⟨7, 255 - i⟩ := by
  constructor
  · intro h
    have hlen : fstab.length ≤ 256 := by
      by_contra hlong
      have hmem : loopDev 256 ∈ (List.range fstab.length).map loopDev :=
        List.mem_map_of_mem (List.mem_range.mpr (by omega))
      exact absurd (h.valid _ hmem).2 (by decide)
    refine ⟨hlen, fun i hi m hm heq => ?_⟩
    have hmem : loopDev i ∈ (List.range fstab.length).map loopDev :=
      List.mem_map_of_mem (List.mem_range.mpr hi)
    refine (h.apart _ hmem m hm).2 ?_
    rw [heq]
    exact makedev_loop (by omega)
  · rintro ⟨hlen, hapart⟩
    have hlt := env.numEntries_lt fstab hfstab
    have hdev : ∀ l ∈ (List.range fstab.length).map loopDev,
        ∃ i < fstab.length, l = (recLoop i, ⟨7, 255 - i⟩) := by
      intro l hl
      obtain ⟨i, hi, rfl⟩ := List.mem_map.mp hl
      rw [List.mem_range] at hi
      exact ⟨i, hi, Prod.ext rfl (makedev_loop (by omega))⟩
    refine ⟨?_, ?_, ?_, fun l hl => ?_, fun l hl m hm => ?_⟩
    · refine List.ext_getElem (by simp) fun i h1 h2 => ?_
      simp only [List.getElem_map, List.getElem_mapIdx, List.getElem_range, loopDev,
        loopNode_replaceRec]
    · rw [List.map_map]
      refine List.Nodup.map_on (fun i hi j hj heq => ?_) List.nodup_range
      rw [List.mem_range] at hi hj
      exact recLoop_injOn (by omega) (by omega) heq
    · rw [List.map_map]
      refine List.Nodup.map_on (fun i hi j hj heq => ?_) List.nodup_range
      rw [List.mem_range] at hi hj
      simp only [Function.comp_apply, loopDev, makedev_loop (show i ≤ 255 by omega),
        makedev_loop (show j ≤ 255 by omega)] at heq
      omega
    · obtain ⟨i, -, rfl⟩ := hdev l hl
      exact ⟨rfl, Nat.sub_le 255 i⟩
    · obtain ⟨i, hi, rfl⟩ := hdev l hl
      refine ⟨fun heq => (hfree i hi).2 ?_, fun heq => hapart i hi m hm heq.symm⟩
      exact List.mem_map.mpr ⟨m, List.mem_of_mem_drop hm, heq.symm⟩

/-- **When loop devices are valid and apart.**  A successful `load_multiboot_fstab` gives every record
a loop device of its own exactly if there are at most 256 records and no other node has the number of
one of them; `make_loop` returns the name of the new node exactly if it is not given another one; a
failed call uses up no number. -/
theorem loops_iff (env : LoadEnv) :
    ((∀ recs nodes, loadFstabNodes env = some (recs, nodes) →
      ∃ loops, nodes = env.nodes ++ loops ∧ OwnLoops env.made recs loops) ↔
      ∀ fstab, env.fstab = some fstab → (∃ i < fstab.length, ¬ LoopFree env i) ∨
        fstab.length ≤ 256 ∧ ∀ i < fstab.length, ∀ m ∈ env.made, m.2 ≠ ⟨7, 255 - i⟩) ∧
    (∀ buf path ok nodes n,
      (∀ name nodes' n', makeLoopNode buf path ok nodes n = (some name, nodes', n') →
        ∃ dev, nodes' = nodes ++ [(name, dev)]) ↔
      ∀ p, path = some p → ok = false ∨ p ∈ nodes.map Prod.fst ∨ p = buf) ∧
    (∀ buf path ok nodes n nodes' n',
      makeLoopNode buf path ok nodes n = (none, nodes', n') → n' = n) := by
  refine ⟨⟨fun h fstab hfstab => ?_, fun h recs nodes hload => ?_⟩, makeLoopNode_name_iff,
    fun _ _ _ _ _ _ _ h => (makeLoopNode_none h).2⟩
  · by_cases hfree : ∀ i < fstab.length, LoopFree env i
    · obtain ⟨loops, hloops, hown⟩ :=
        h _ _ (loadFstabNodes_some_iff.mpr ⟨fstab, hfstab, hfree, rfl, rfl⟩)
      rw [← List.append_cancel_left hloops] at hown
      exact Or.inr ((ownLoops_iff hfstab hfree).mp hown)
    · push Not at hfree
      exact Or.inl hfree
  · obtain ⟨fstab, hfstab, hfree, rfl, rfl⟩ := loadFstabNodes_some_iff.mp hload
    refine ⟨_, rfl, (ownLoops_iff hfstab hfree).mpr ?_⟩
    rcases h fstab hfstab with ⟨i, hi, htaken⟩ | hgood
    · exact absurd (hfree i hi) htaken
    · exact hgood

/-- A fstab with `n` records, and a disk with the number 7:255. -/
def loopEnv (n : ℕ) (hn : n < 2 ^ 31) : LoadEnv where
  dev := []
  blockInfo := [⟨7, 255, 0, 0, some "sdx".toList, none⟩]
  nodeOk _ := true
  loopOk _ := true
  multibootPath := none
  fstab := some (List.replicate n (importDevice [] none))
  numEntries_lt recs h := by
    obtain rfl := Option.some.inj h
    rwa [List.length_replicate]

/-- The only record gets the number of a disk; the 257th of a longer fstab gets a number beyond 255;
and `make_loop` of a name returns what stood in its buffer. -/
theorem loops_not_own :
    (∃ recs nodes, loadFstabNodes (loopEnv 1 (by decide)) = some (recs, nodes) ∧
      ¬ ∃ loops, nodes = (loopEnv 1 (by decide)).nodes ++ loops ∧
        OwnLoops (loopEnv 1 (by decide)).made recs loops) ∧
    (∃ recs nodes, loadFstabNodes (loopEnv 257 (by decide)) = some (recs, nodes) ∧
      (recLoop 256, ⟨7, 2 ^ 20 - 1⟩) ∈ nodes) ∧
    makeLoopNode "junk".toList (some "/dev/loop".toList) true [] 0 =
      (some "junk".toList, [("/dev/loop".toList, ⟨7, 255⟩)], 1) := by
  refine ⟨⟨_, _, rfl, ?_⟩, ?_, rfl⟩
  · rintro ⟨loops, hloops, hown⟩
    have hone : [loopDev 0] = loops := List.append_cancel_left hloops
    subst hone
    exact (hown.apart (loopDev 0) List.mem_cons_self ("/multiboot/dev/block/sdx".toList, ⟨7, 255⟩)
      (by decide)).2 rfl
  · have hfree : ∀ i < 257, LoopFree (loopEnv 257 (by decide)) i := by
      refine fun i hi => ⟨rfl, fun hmem => ?_⟩
      rw [recLoop_eq (by omega)] at hmem
      have heq : loopName (255 - i) = "/multiboot/dev/block/sdx".toList := List.mem_singleton.mp hmem
      have hs := congrArg (fun t => t[21]?) heq
      cases hs
    refine ⟨_, _, loadFstabNodes_some_iff.mpr ⟨_, rfl, ?_, rfl, rfl⟩, ?_⟩
    · rw [List.length_replicate]
      exact hfree
    · rw [List.length_replicate]
      exact List.mem_append_right _ (List.mem_map_of_mem (List.mem_range.mpr (by decide)))

end Multiboot
