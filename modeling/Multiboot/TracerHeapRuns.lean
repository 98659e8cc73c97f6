import Mathlib.Algebra.Group.Prod
import Multiboot.TracerHeapSpecs

/-!
# Runs of the tracer with its heap

`ptrStep` simulates `step` (`ptr_run`): whatever the children do, in any order, the tracer frees no
block twice, writes to no freed block, and its pointers stand for the values of the system.  The same
simulation keeps the account of `stepCost`: the blocks that nothing points to any more, and the types
read out of freed probes.
-/

namespace Multiboot

open Lib HeapM

/-! ### What a system owns -/

/-- A child with these values behind the pointers of its data. -/
def Kid.withPtrs (k : Kid) (ptrs : ChildPtrs) (tmp : Option CString) (files : List (ℤ × FdInfo)) :
    Kid :=
  { k with mbc := ⟨ptrs.memory, tmp, files, ptrs.handledByOpen⟩ }

/-- The pointers of a child stand for its data.  A child that has exited owns nothing. -/
inductive KidRep (k : PtrKid) (kid : Kid) : Blocks → Prop
  | live {c : Ptr} {ptrs : ChildPtrs} {tmp : Option CString} {files : List (ℤ × FdInfo)}
      {T F : Blocks} (hc : k.custom = some c) (ha : k.out.alive = true)
      (ht : TmpRep ptrs.tmp tmp T) (hf : Owned (Keyed FdRep) ptrs.files files F)
      (hkid : kid = k.out.withPtrs ptrs tmp files) :
      KidRep k kid ({(c, .childData ptrs)} + (T + F))
  | gone (hk : k = ⟨none, .gone⟩) (hkid : kid = .gone) : KidRep k kid 0

theorem KidRep.alive_eq {k : PtrKid} {kid : Kid} {R : Blocks} (h : KidRep k kid R) :
    kid.alive = k.out.alive := by
  cases h with
  | live hc ha ht hf hkid => rw [hkid]; rfl
  | gone hk hkid => rw [hk, hkid]

theorem KidRep.inside_eq {k : PtrKid} {kid : Kid} {R : Blocks} (h : KidRep k kid R) :
    kid.inside = k.out.inside := by
  cases h with
  | live hc ha ht hf hkid => rw [hkid]; rfl
  | gone hk hkid => rw [hk, hkid]

/-- What the tracer does with the rest of a child is the same on both sides. -/
theorem KidRep.exists_withPtrs {k : PtrKid} {kid : Kid} {R : Blocks} (h : KidRep k kid R)
    (halive : kid.alive = true) : ∃ mbc, kid = { k.out with mbc := mbc } := by
  cases h with
  | live hc ha ht hf hkid => exact ⟨_, hkid⟩
  | gone hk hkid =>
    rw [hkid] at halive
    cases halive

structure SysRep (p : PtrSys) (s : Sys) (R : Blocks) : Prop where
  kids : Owned KidRep p.kids s.kids R
  disks : p.disks = s.disks
  wipes : p.wipes = s.wipes

/-! ### The account of a step -/

def fdBlocks (info : FdInfo) : ℕ := if info.fsPdata.isSome then 5 else 4

/-- How many blocks a child's data take. -/
def Kid.blocks (k : Kid) : ℕ :=
  if k.alive then
    1 + (if k.mbc.tmp.isSome then 1 else 0) + (k.mbc.files.map fun p => fdBlocks p.2).sum
  else 0

def Sys.blocks (s : Sys) : ℕ := (s.kids.map Kid.blocks).sum

/-- The blocks an action leaves behind and the freed types it reads. -/
def stepCost (data : ModuleData) (s : Sys) : Action → ℕ × ℕ
  | .pre i call args io =>
    match s.kids[i]? with
    | none => 0
    | some k =>
      (hookLeak data io call true (s.hookSt k args io),
        hookReads data io call true (s.hookSt k args io))
  | .post i ret _ io =>
    match s.kids[i]? with
    | none => 0
    | some k =>
      match k.inside with
      | none => 0
      | some p =>
        (hookLeak data io p.call false (s.hookSt k { p.args with returnCode := ret } io),
          hookReads data io p.call false (s.hookSt k { p.args with returnCode := ret } io))
  | .exit i =>
    match s.kids[i]? with
    | none => 0
    | some k => (k.mbc.files.length + (if k.mbc.tmp.isSome then 1 else 0), 0)
  | _ => 0

/-! ### One step -/

section Step

variable {data : ModuleData} {V : View Obj} {W R : Blocks} {p : PtrSys} {s : Sys}

/-- What a step has to establish. -/
def StepPost (V : View Obj) (W : Blocks) (c : ℕ × ℕ) (p : PtrSys) (s : Sys) (V' : View Obj) : Prop :=
  ∃ R, SysRep p s R ∧ After V W c.1 c.2 R V'

theorem stepPost_same {V' : View Obj} (h : SysRep p s R) (hlive : V'.live = R + W)
    (hstale : V'.stale = V.stale) : StepPost V W 0 p s V' :=
  ⟨R, h, ⟨0, by rw [hlive, zero_add], rfl⟩, [], by rw [hstale, List.append_nil], rfl, rfl⟩

/-- **A hook of one child**: it works on that child's blocks only. -/
theorem hookStep_refines {i : ℕ} {k : PtrKid} {kid : Kid} {S T : Blocks} {call : Syscall}
    {pre : Bool} {args : ScArgs} {io : HookCalls} {next : HookSt → Kid}
    (hdisks : p.disks = s.disks) (hwipes : p.wipes = s.wipes) (hk : KidRep k kid S)
    (hset : ∀ k' kid' S', KidRep k' kid' S' →
      Owned KidRep (p.kids.set i k') (s.kids.set i kid') (S' + T))
    (hV : V.live = S + T + W) (halive : kid.alive = true)
    (next' : HookSt → Kid) (hnext : ∀ out tmp files, next' (out.withPtrs tmp files) =
      { next out with mbc := (out.withPtrs tmp files).mbc })
    (hnextAlive : ∀ out, (next out).alive = true) :
    Refines V (hookStep data p i k call pre args io next)
      (match runHook data io call pre (s.hookSt kid args io) with
        | some (.CONTINUE, st) => some (s.updated i (next' st) st)
        | _ => none)
      (StepPost V W (hookLeak data io call pre (s.hookSt kid args io),
        hookReads data io call pre (s.hookSt kid args io))) := by
  cases hk with
  | gone hk hkid =>
    rw [hkid] at halive
    cases halive
  | @live c ptrs tmp files Tm F hc ha ht hf hkid =>
    have hrep : PtrRep (p.enter ptrs args io) (s.hookSt kid args io) (Tm + F) := by
      have hmk : PtrRep (p.enter ptrs args io) _ (Tm + F) := .mk (p := p.enter ptrs args io) ht hf
      rw [hkid, Sys.hookSt, ← hdisks, ← hwipes]
      exact hmk
    have hlive : V.live = Tm + F + ({(c, .childData ptrs)} + (T + W)) := by
      rw [hV]
      abel
    rw [hookStep, hc]
    refine refines_loadMbc (x := ptrs) (by simp [hV]) ?_
    refine (runHookPtr_refines hrep hlive).seq (fun hnone => by rw [hnone]) ?_
    rintro ⟨rc, ps⟩ ⟨rc', st⟩ V₁ hrun ⟨hrc, R, hps, ⟨L, hL, hcard⟩, hstale⟩
    obtain rfl : rc = rc' := hrc
    rw [hrun]
    cases rc with
    | ABORT => exact refines_fail
    | CONTINUE =>
      obtain @⟨tmp', files', T', F', ht', hf'⟩ := hps
      have hlive₁ : V₁.live = {(c, .childData ptrs)} + (T' + F' + (L + (T + W))) := by
        rw [hL]
        abel
      have hrep' : KidRep ⟨some c, (next ps.out).bare⟩ (next' (ps.out.withPtrs tmp' files'))
          ({(c, .childData ps.childPtrs)} + (T' + F')) :=
        .live rfl (hnextAlive ps.out) ht' hf' (hnext _ _ _)
      refine .store hlive₁ (refines_pure ⟨_, ⟨hset _ _ _ hrep', rfl, rfl⟩, ⟨L, ?_, hcard⟩, hstale⟩)
      show {(c, Obj.childData ps.childPtrs)} + (T' + F' + (L + (T + W))) = _
      abel

theorem createPtr_refines {inherited : List (ℤ × OpenFile)} (h : SysRep p s R)
    (hV : V.live = R + W) : Refines V (createPtr inherited p)
      (some { s with kids := s.kids ++ [Kid.new inherited] }) (StepPost V W 0) := by
  rw [createPtr]
  refine .alloc fun c => ?_
  have hnew : KidRep ⟨some c, Kid.new inherited⟩ (Kid.new inherited)
      ({(c, .childData .init)} + (0 + 0)) := .live rfl rfl .none .nil rfl
  have hkids := h.kids.concat hnew
  refine refines_pure ⟨_, ⟨hkids, h.disks, h.wipes⟩, ⟨0, ?_, rfl⟩, [], (List.append_nil _).symm,
    rfl, rfl⟩
  show {(c, Obj.childData .init)} + V.live = _
  rw [hV]
  abel

/-- **The end of a child**: what is not freed is one block for each descriptor and `mbc->tmp`. -/
theorem destroyPtr_refines {i : ℕ} {k : PtrKid} {kid : Kid} {S T : Blocks}
    (hdisks : p.disks = s.disks) (hwipes : p.wipes = s.wipes) (hk : KidRep k kid S)
    (hset : ∀ k' kid' S', KidRep k' kid' S' →
      Owned KidRep (p.kids.set i k') (s.kids.set i kid') (S' + T))
    (hV : V.live = S + T + W) (halive : kid.alive = true) :
    Refines V (destroyPtr i k p)
      (if (freeFdinfoList kid.mbc.files).isSome then some { s with kids := s.kids.set i .gone }
        else none)
      (StepPost V W (kid.mbc.files.length + (if kid.mbc.tmp.isSome then 1 else 0), 0)) := by
  cases hk with
  | gone hk hkid =>
    rw [hkid] at halive
    cases halive
  | @live c ptrs tmp files Tm F hc ha ht hf hkid =>
    have hlive : V.live = F + ({(c, .childData ptrs)} + (Tm + (T + W))) := by
      rw [hV]
      abel
    rw [destroyPtr, hc, hkid]
    refine refines_loadMbc (x := ptrs) (by simp [hV]) ?_
    refine (freeFdinfoListPtr_refines hf hlive).seq (fun hnone => ?_) ?_
    · have hfiles : (k.out.withPtrs ptrs tmp files).mbc.files = files := rfl
      rw [hfiles, hnone]
      rfl
    · rintro - u V₁ hfreed ⟨hstale, L, hlive₁, hcard⟩
      have hfiles : (k.out.withPtrs ptrs tmp files).mbc.files = files := rfl
      rw [hfiles, hfreed, Option.isSome_some, if_pos rfl]
      have hc₁ : V₁.live = {(c, .childData ptrs)} + (L + (Tm + (T + W))) := by
        rw [hlive₁]
        abel
      refine .free hc₁ (refines_pure ⟨_, ⟨hset _ _ _ (.gone rfl rfl), hdisks, hwipes⟩,
        ⟨L + Tm, ?_, ?_⟩, [], ?_, rfl, rfl⟩)
      · show L + (Tm + (T + W)) = _
        abel
      · rw [Multiset.card_add, hcard, ht.card]
        rfl
      · exact hstale.trans (List.append_nil _).symm

/-- **Every action** of the tracer, in any state. -/
theorem ptrAction_refines {a : Action} (h : SysRep p s R) (hV : V.live = R + W) :
    Refines V (ptrAction data p a) (step data s a) (StepPost V W (stepCost data s a)) := by
  obtain ⟨hkids, hdisks, hwipes⟩ := h
  cases a with
  | create inherited => exact createPtr_refines ⟨hkids, hdisks, hwipes⟩ hV
  | pre i call args io =>
    rcases hkids.focus i with ⟨hp, hv⟩ | ⟨k, kid, S, T, hp, hv, hk, rfl, hset⟩
    · simp only [ptrAction, step, hp, hv]
      exact refines_fail
    · simp only [ptrAction, step, stepCost, hp, hv, hk.alive_eq, hk.inside_eq]
      by_cases hrun : (k.out.alive && k.out.inside.isNone) = true
      · have halive : k.out.alive = true := (Bool.and_eq_true _ _ ▸ hrun).1
        obtain ⟨mbc, hkid⟩ := hk.exists_withPtrs (hk.alive_eq.trans halive)
        rw [if_pos hrun, if_pos hrun]
        refine hookStep_refines hdisks hwipes hk hset hV (hk.alive_eq.trans halive) _
          (fun out tmp files => ?_) fun _ => halive
        rw [hkid]
        rfl
      · rw [if_neg hrun, if_neg hrun]
        exact refines_fail
  | post i ret opened io =>
    rcases hkids.focus i with ⟨hp, hv⟩ | ⟨k, kid, S, T, hp, hv, hk, rfl, hset⟩
    · simp only [ptrAction, step, hp, hv]
      exact refines_fail
    · simp only [ptrAction, step, stepCost, hp, hv, hk.alive_eq, hk.inside_eq]
      cases halive : k.out.alive with
      | false => exact refines_fail
      | true =>
        obtain ⟨mbc, hkid⟩ := hk.exists_withPtrs (hk.alive_eq.trans halive)
        cases hinside : k.out.inside with
        | none => exact refines_fail
        | some c =>
          refine hookStep_refines hdisks hwipes hk hset hV (hk.alive_eq.trans halive) _
            (fun out tmp files => ?_) fun _ => halive
          rw [hkid]
          rfl
  | exit i =>
    rcases hkids.focus i with ⟨hp, hv⟩ | ⟨k, kid, S, T, hp, hv, hk, rfl, hset⟩
    · simp only [ptrAction, step, hp, hv]
      exact refines_fail
    · simp only [ptrAction, step, stepCost, hp, hv, hk.alive_eq]
      cases halive : k.out.alive with
      | false => exact refines_fail
      | true =>
        simp only [Bool.true_and, if_true]
        exact destroyPtr_refines hdisks hwipes hk hset hV (hk.alive_eq.trans halive)
  | mkfs dev d =>
    refine refines_pure (stepPost_same ⟨hkids, ?_, hwipes⟩ hV rfl)
    show Function.update p.disks dev d = Function.update s.disks dev d
    rw [hdisks]
  | fsck dev t =>
    refine refines_pure (stepPost_same ⟨hkids, ?_, hwipes⟩ hV rfl)
    show Function.update p.disks dev ((p.disks dev).fsck t) =
      Function.update s.disks dev ((s.disks dev).fsck t)
    rw [hdisks]

end Step

/-! ### Runs -/

/-- The tracer stands for `s`, has left `m.1` blocks behind and has read `m.2` freed types. -/
def Traced (m : ℕ × ℕ) (p : PtrSys × Heap Obj) (s : Sys) : Prop :=
  ∃ V R L, p.2.Holds V ∧ SysRep p.1 s R ∧ V.live = R + L ∧ Multiset.card L = m.1 ∧
    V.stale.all Obj.isProbe = true ∧ V.stale.length = m.2

theorem traced_init (disks : Disks) : Traced 0 (PtrSys.init disks) (Sys.init disks) :=
  ⟨⟨0, [], []⟩, 0, 0, Heap.holds_empty, ⟨.nil, rfl, rfl⟩, rfl, rfl, rfl, rfl⟩

theorem ptrStep_traced (data : ModuleData) (m : ℕ × ℕ) (p : PtrSys × Heap Obj) (s : Sys) (a : Action)
    (h : Traced m p s) :
    Option.Rel (Traced (m + stepCost data s a)) (ptrStep data p a) (step data s a) := by
  obtain ⟨V, R, L, hV, hsys, hlive, hcard, hprobes, hlen⟩ := h
  have href : Refines V (ptrAction data p.1 a) (step data s a) (StepPost V L (stepCost data s a)) :=
    ptrAction_refines hsys hlive
  have hr := href p.2 hV
  rw [ptrStep]
  generalize ptrAction data p.1 a p.2 = p' at hr
  generalize step data s a = s' at hr
  cases hr with
  | none => exact .none
  | some hp =>
    obtain ⟨V', hV', R', hsys', ⟨L', hlive', hcard'⟩, S, hS, hprobes', hlen'⟩ := hp
    refine .some ⟨V', R', L' + L, hV', hsys', hlive', ?_, ?_, ?_⟩
    · rw [Multiset.card_add, hcard', hcard, Nat.add_comm]
      rfl
    · rw [hS, List.all_append, hprobes, hprobes']
      rfl
    · rw [hS, List.length_append, hlen, hlen']
      rfl

/-- What holds of every pair of states that are related holds at the end of a run. -/
theorem ptrRun_rel (data : ModuleData) (disks : Disks) (as : List Action)
    {Q : PtrSys × Heap Obj → Sys → Prop}
    (hQ : ∀ p s, Traced (total (step data) (stepCost data) (Sys.init disks) as) p s → Q p s) :
    Option.Rel Q (run (ptrStep data) (PtrSys.init disks) as) (run (step data) (Sys.init disks) as) := by
  have hr := run_sim (ptrStep_traced data) as (traced_init disks)
  rw [zero_add] at hr
  generalize run (ptrStep data) (PtrSys.init disks) as = p at hr
  generalize run (step data) (Sys.init disks) as = s at hr
  cases hr with
  | none => exact .none
  | some h => exact .some (hQ _ _ h)

/-! ### The values behind the pointers -/

section Reading

variable {h : Heap Obj} {V : View Obj} {R : Blocks} {b : Ptr}

theorem peek_of_mem (hV : h.Holds V) {a : Obj} (hm : (b, a) ∈ V.live) : Heap.peek h b = some a := by
  rw [Heap.peek, hV.slot_of_mem hm]

theorem readText_of_mem (hV : h.Holds V) {s : CString} (hm : (b, .text s) ∈ V.live) :
    readText h b = some s := by
  rw [readText, peek_of_mem hV hm]

theorem readOpt_of_mem (hV : h.Holds V) {s : CString} (hm : (b, .text s) ∈ V.live) :
    readOpt (readText h) (some b) = some (some s) := by
  rw [readOpt, readText_of_mem hV hm]
  rfl

theorem readFdi_of_rep {info : FdInfo} (hrep : FdRep b info R) (hV : h.Holds V) (hR : R ≤ V.live) :
    readFdi h b = some info := by
  obtain ⟨ptrs, type, dev, hpoints⟩ := hrep.points
  have hp := hpoints.mono hR
  obtain ⟨n, hn, hname⟩ := hp.filename
  obtain ⟨t, ht, htype⟩ := hp.fsType
  obtain ⟨d, hd, hdev⟩ := hp.device
  have hpdata : readOpt (readPdata h) ptrs.fsPdata = some info.fsPdata := by
    rcases hp.fsPdata with ⟨hq, hi⟩ | ⟨q, sb, hq, hi, hm⟩
    · rw [hq, hi]
      rfl
    · rw [hq, hi, readOpt, readPdata, peek_of_mem hV hm]
      rfl
  obtain ⟨s, ty, sb, device⟩ := info
  obtain rfl : ty = some type := hp.type_eq
  obtain rfl : device = some dev := hp.device_eq
  simp only [readFdi, peek_of_mem hV hp.self, hn, ht, hd, hpdata, Option.bind_some,
    readText_of_mem hV hname, readOpt_of_mem hV htype, readOpt_of_mem hV hdev]
  rfl

theorem readFiles_of_owned {files : List (ℤ × Ptr)} {infos : List (ℤ × FdInfo)}
    (hf : Owned (Keyed FdRep) files infos R) (hV : h.Holds V) (hR : R ≤ V.live) :
    readFiles h files = some infos := by
  induction hf with
  | nil => rfl
  | cons head tail ih =>
    obtain ⟨hrep⟩ := head
    rw [readFiles, readFdi_of_rep hrep hV ((Multiset.le_add_right _ _).trans hR),
      ih ((Multiset.le_add_left _ _).trans hR)]
    rfl

theorem readTmp_of_rep {tmp : Option Ptr} {s : Option CString} (hrep : TmpRep tmp s R)
    (hV : h.Holds V) (hR : R ≤ V.live) : readOpt (readText h) tmp = some s := by
  cases hrep with
  | none => rfl
  | some => exact readOpt_of_mem hV (Multiset.singleton_le.mp hR)

theorem readKid_of_rep {k : PtrKid} {kid : Kid} (hk : KidRep k kid R) (hV : h.Holds V)
    (hR : R ≤ V.live) : readKid h k = some kid := by
  cases hk with
  | gone hk hkid =>
    rw [hk, hkid]
    rfl
  | @live c ptrs tmp files T F hc ha ht hf hkid =>
    have hself : (c, Obj.childData ptrs) ∈ V.live := Multiset.mem_of_le hR (by simp)
    have hT : T ≤ V.live := by
      refine le_trans ?_ hR
      exact (Multiset.le_add_right T F).trans (Multiset.le_add_left _ _)
    have hF : F ≤ V.live := by
      refine le_trans ?_ hR
      exact (Multiset.le_add_left F T).trans (Multiset.le_add_left _ _)
    simp only [readKid, hc, readMbc, peek_of_mem hV hself, readTmp_of_rep ht hV hT,
      readFiles_of_owned hf hV hF, hkid]
    rfl

theorem readKids_of_owned {ks : List PtrKid} {kids : List Kid} (hk : Owned KidRep ks kids R)
    (hV : h.Holds V) (hR : R ≤ V.live) : readKids h ks = some kids := by
  induction hk with
  | nil => rfl
  | cons head tail ih =>
    rw [readKids, readKid_of_rep head hV ((Multiset.le_add_right _ _).trans hR),
      ih ((Multiset.le_add_left _ _).trans hR)]
    rfl

end Reading

theorem Traced.read {m : ℕ × ℕ} {p : PtrSys × Heap Obj} {s : Sys} (h : Traced m p s) :
    readSys p = some s := by
  obtain ⟨V, R, L, hV, hsys, hlive, -⟩ := h
  have hR : R ≤ V.live := by
    rw [hlive]
    exact Multiset.le_add_right R L
  rw [readSys, readKids_of_owned hsys.kids hV hR, hsys.disks, hsys.wipes]
  rfl

/-! ### Counting the blocks -/

theorem FdRep.card {b : Ptr} {info : FdInfo} {R : Blocks} (h : FdRep b info R) :
    Multiset.card R = fdBlocks info := by
  obtain @⟨name, R, h⟩ := h
  rw [Multiset.card_add, h.card, fdBlocks, Multiset.card_singleton]
  cases info.fsPdata <;> rfl

theorem KidRep.card {k : PtrKid} {kid : Kid} {R : Blocks} (h : KidRep k kid R) :
    Multiset.card R = kid.blocks := by
  cases h with
  | gone hk hkid =>
    rw [hkid]
    rfl
  | @live c ptrs tmp files T F hc ha ht hf hkid =>
    have hfiles : Multiset.card F = (files.map fun p => fdBlocks p.2).sum :=
      hf.card fun p q R hrep => by
        obtain ⟨hrep⟩ := hrep
        exact hrep.card
    rw [Multiset.card_add, Multiset.card_add, ht.card, hfiles, Multiset.card_singleton, hkid,
      Kid.blocks, if_pos (show (k.out.withPtrs ptrs tmp files).alive = true from ha), ← Nat.add_assoc]
    rfl

theorem Traced.size {m : ℕ × ℕ} {p : PtrSys × Heap Obj} {s : Sys} (h : Traced m p s) :
    p.2.size = s.blocks + m.1 := by
  obtain ⟨V, R, L, hV, hsys, hlive, hcard, -⟩ := h
  rw [heap_size hV, hlive, Multiset.card_add, hcard,
    hsys.kids.card fun _ _ _ hk => hk.card]
  rfl

/-! ### The tracer never corrupts its heap -/

/-- **Any interleaving**: the tracer with its pointers is stuck exactly where the hooks on values are,
so it frees nothing twice and writes to nothing it has freed, and its pointers lead to those values. -/
theorem ptr_run (data : ModuleData) (disks : Disks) (as : List Action) :
    Option.Rel (fun p s => readSys p = some s) (run (ptrStep data) (PtrSys.init disks) as)
      (run (step data) (Sys.init disks) as) :=
  ptrRun_rel data disks as fun _ _ h => h.read

/-- **The ledger**: the live blocks are those of the children's data, and those the steps have lost. -/
theorem ptr_run_size (data : ModuleData) (disks : Disks) (as : List Action) :
    Option.Rel (fun p s => p.2.size =
        s.blocks + (total (step data) (stepCost data) (Sys.init disks) as).1)
      (run (ptrStep data) (PtrSys.init disks) as) (run (step data) (Sys.init disks) as) :=
  ptrRun_rel data disks as fun _ _ h => h.size

/-- **Use after free**: what is read out of freed blocks is the type of a device, each time
`get_fstype` has found one and it is compared or copied, and nothing else. -/
theorem ptr_run_stale (data : ModuleData) (disks : Disks) (as : List Action) :
    Option.Rel (fun p _ => p.2.stale.all Obj.isProbe = true ∧
        p.2.stale.length = (total (step data) (stepCost data) (Sys.init disks) as).2)
      (run (ptrStep data) (PtrSys.init disks) as) (run (step data) (Sys.init disks) as) := by
  refine ptrRun_rel data disks as fun p s h => ?_
  obtain ⟨V, R, L, hV, -, -, -, hprobes, hlen⟩ := h
  rw [← hV.stale] at hprobes hlen
  exact ⟨hprobes, hlen⟩

end Multiboot
