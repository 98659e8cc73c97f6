import Multiboot.System

/-!
# The scratch state of a system call

Between the stops before and after a system call, `mbc->memory`, `mbc->tmp` and `handled_by_open`
carry over what the first hook did.  `Mon` is a monitor that reads the log of a child: it refuses to
unmap what is not mapped with that length, and to read a stored path anywhere but in the hook after
the call whose first hook stored it.
-/

namespace Multiboot

open Lib

/-! ### The monitor -/

inductive Phase
  | outside
  | before (call : Syscall)
  | after (call : Syscall)
  deriving DecidableEq, Repr

structure Mon where
  phase : Phase
  /-- The regions mapped in the child, with their lengths. -/
  regions : List (Long × ℕ)
  /-- The path stored by the first hook of this system call and not read yet. -/
  stored : Option CString
  deriving DecidableEq, Repr

def Mon.init : Mon := ⟨.outside, [], none⟩

def Mon.step (m : Mon) : Touch → Option Mon
  | .enter call =>
    if m.phase = .outside then some { m with phase := .before call, stored := none } else none
  | .resume call =>
    if m.phase = .before call then some { m with phase := .after call } else none
  | .leave call =>
    if m.phase = .after call then some { m with phase := .outside } else none
  | .mmap addr len => some { m with regions := (addr, len) :: m.regions }
  | .write addr text =>
    if m.regions.any (fun r => r.1 == addr && decide (text.length < r.2)) then some m else none
  | .munmap addr len =>
    if (addr, len) ∈ m.regions then some { m with regions := m.regions.erase (addr, len) } else none
  | .store path =>
    match m.phase with
    | .before call => if isOpen call || isDup call then some { m with stored := some path } else none
    | _ => none
  | .load path =>
    match m.phase with
    | .after _ => if m.stored = some path then some { m with stored := none } else none
    | _ => none

/-- The region that `memory` names, as `copy_patharg` maps it. -/
def regionsOf (memory : Option Long) : List (Long × ℕ) :=
  (memory.map fun addr => (addr, PATH_MAX + 1)).toList

/-! ### The two hooks of one call -/

/-- What is carried from the hook before a call to the one after it. -/
structure Carried (call : Syscall) (mbc : ChildData) : Prop where
  memory : mbc.memory ≠ none → hookOf call = some .fileaccess ∨ call = .mount
  tmp : mbc.tmp ≠ none → isOpen call = true ∧ mbc.handledByOpen = true ∨ hookOf call = some .dup
  handled : mbc.handledByOpen = true → isOpen call = true

/-- Nothing is carried between two calls. -/
structure Clean (mbc : ChildData) : Prop where
  memory : mbc.memory = none
  tmp : mbc.tmp = none
  handled : mbc.handledByOpen = false

theorem Clean.carried {call : Syscall} {mbc : ChildData} (h : Clean mbc) : Carried call mbc :=
  ⟨fun hm => absurd h.memory hm, fun ht => absurd h.tmp ht,
    fun hh => by rw [h.handled] at hh; cases hh⟩

/-- The monitor's state after the hook before `call`. -/
def Mon.during (call : Syscall) (mbc : ChildData) : Mon :=
  ⟨.before call, regionsOf mbc.memory, mbc.tmp⟩

theorem run_copied {m : Mon} {addr : Long} {text : CString} (hlen : text.length ≤ PATH_MAX)
    (hm : m.regions = []) :
    run Mon.step m [.mmap addr (PATH_MAX + 1), .write addr text] =
      some { m with regions := [(addr, PATH_MAX + 1)] } := by
  have hlt : text.length < PATH_MAX + 1 := Nat.lt_succ_of_le hlen
  simp [run, Mon.step, hm, hlt]

/-- Before the call: the touches are accepted, and only what the hook after it expects is left. -/
theorem PreEffect.scratch {data : ModuleData} {io : HookCalls} {call : Syscall} {st st' : HookSt}
    (h : PreEffect data io call st st') (ht : st.touches = []) (hc : Clean st.mbc) :
    Carried call st'.mbc ∧
      run Mon.step ⟨.before call, [], none⟩ st'.touches = some (.during call st'.mbc) := by
  have hnone : ∀ (st1 : HookSt), Clean st1.mbc → st1.touches = [] →
      run Mon.step ⟨.before call, [], none⟩ st1.touches = some (.during call st1.mbc) := by
    intro st1 hc1 ht1
    simp [ht1, Mon.during, hc1.memory, hc1.tmp, regionsOf]
  cases h with
  | quiet e =>
    exact ⟨hc.carried, hnone _ hc ht⟩
  | file row st1 _ hrow hopen hother hred =>
    have hfile : hookOf call = some .fileaccess :=
      (infoOf_isSome_iff call).mp (by rw [hrow]; rfl)
    -- the part of `hook_open`
    have hfirst : Carried call st1.mbc ∧ st1.mbc.memory = none ∧
        run Mon.step ⟨.before call, [], none⟩ st1.touches = some (.during call st1.mbc) := by
      cases ho : isOpen call with
      | false =>
        obtain rfl := hother ho
        exact ⟨hc.carried, hc.memory, hnone _ hc ht⟩
      | true =>
        cases hopen ho with
        | untracked e => exact ⟨hc.carried, hc.memory, hnone _ hc ht⟩
        | tracked e path r =>
          refine ⟨⟨fun _ => Or.inl hfile, fun _ => Or.inl ⟨ho, rfl⟩, fun _ => ho⟩, hc.memory, ?_⟩
          simp [HookSt.tracked, run, Mon.step, Mon.during, ht, ho, hc.memory, regionsOf]
    obtain ⟨hcar, hmem, hrun⟩ := hfirst
    cases hred with
    | unchanged e => exact ⟨⟨hcar.memory, hcar.tmp, hcar.handled⟩, hrun⟩
    | rewritten e addr path r text _ _ _ hlen =>
      refine ⟨⟨fun _ => Or.inl hfile, hcar.tmp, hcar.handled⟩, ?_⟩
      refine run_append.mpr ⟨_, hrun, ?_⟩
      rw [run_copied hlen (by simp [Mon.during, hmem, regionsOf])]
      rfl
  | closed fdi was =>
    exact ⟨⟨hc.carried.memory, hc.carried.tmp, hc.carried.handled⟩,
      hnone _ ⟨hc.memory, hc.tmp, hc.handled⟩ ht⟩
  | dupped fdi hcall =>
    refine ⟨⟨hc.carried.memory, fun _ => Or.inr hcall, hc.carried.handled⟩, ?_⟩
    have hd : isDup call = true := by simp [isDup, hcall]
    simp [run, Mon.step, Mon.during, ht, hd, hc.memory, regionsOf]
  | mounted e addr text bind hcall hlen =>
    refine ⟨⟨fun _ => Or.inr hcall, hc.carried.tmp, hc.carried.handled⟩, ?_⟩
    refine run_append.mpr ⟨_, hnone st hc ht, ?_⟩
    rw [run_copied hlen (by simp [Mon.during, hc.memory, regionsOf])]
    rfl

theorem TmpPost.scratch {data : ModuleData} {io : HookCalls} {make : DevCalls} {st st' : HookSt}
    (h : TmpPost data io make st st') (ht : st.touches = []) (call : Syscall) :
    st'.mbc.tmp = none ∧ st'.mbc.memory = st.mbc.memory ∧
      st'.mbc.handledByOpen = st.mbc.handledByOpen ∧
      run Mon.step ⟨.after call, regionsOf st.mbc.memory, st.mbc.tmp⟩ st'.touches =
        some ⟨.after call, regionsOf st.mbc.memory, none⟩ := by
  cases h with
  | empty h => exact ⟨h, rfl, rfl, by simp [ht, h]⟩
  | failed path htmp => exact ⟨rfl, rfl, rfl, by simp [run, Mon.step, ht, htmp]⟩
  | added path fdi htmp => exact ⟨rfl, rfl, rfl, by simp [run, Mon.step, ht, htmp]⟩

/-- `free_patharg` unmaps the region `memory` names. -/
theorem freeMemory_scratch (m0 : Mon) (call : Syscall) (st : HookSt)
    (h : run Mon.step m0 st.touches = some ⟨.after call, regionsOf st.mbc.memory, none⟩) :
    (freeMemory st).mbc = { st.mbc with memory := none } ∧
      run Mon.step m0 (freeMemory st).touches = some ⟨.after call, [], none⟩ := by
  unfold freeMemory
  cases hm : st.mbc.memory with
  | none =>
    rw [hm] at h
    have hmbc : st.mbc = { st.mbc with memory := none } := by rw [← hm]
    exact ⟨hmbc, h⟩
  | some addr =>
    rw [hm] at h
    exact ⟨rfl, run_append.mpr ⟨_, h, by simp [run, Mon.step, regionsOf]⟩⟩

/-- After the call: the touches are accepted and nothing is left. -/
theorem PostEffect.scratch {data : ModuleData} {io : HookCalls} {call : Syscall}
    {st st' : HookSt} (h : PostEffect data io call st st') (ht : st.touches = [])
    (hc : Carried call st.mbc) :
    Clean st'.mbc ∧ run Mon.step ⟨.after call, regionsOf st.mbc.memory, st.mbc.tmp⟩ st'.touches =
      some ⟨.after call, [], none⟩ := by
  have hhandled : isOpen call = false → st.mbc.handledByOpen = false := by
    intro ho
    by_contra hh
    rw [hc.handled (by simpa using hh)] at ho
    cases ho
  cases h with
  | nothing hf hm hd =>
    have hmem : st.mbc.memory = none := by
      by_contra hmem
      rcases hc.memory hmem with h | h
      · exact hf h
      · exact hm h
    have ho : isOpen call = false := by
      by_contra ho
      apply hf
      cases call <;> first | rfl | exact absurd rfl ho
    have htmp : st.mbc.tmp = none := by
      by_contra htmp
      rcases hc.tmp htmp with h | h
      · rw [h.1] at ho
        cases ho
      · exact hd h
    exact ⟨⟨hmem, htmp, hhandled ho⟩, by simp [ht, hmem, htmp, regionsOf]⟩
  | opened st1 hcall hpost hskip =>
    have hst1 : st1.mbc.tmp = none ∧ st1.mbc.memory = st.mbc.memory ∧
        run Mon.step ⟨.after call, regionsOf st.mbc.memory, st.mbc.tmp⟩ st1.touches =
          some ⟨.after call, regionsOf st.mbc.memory, none⟩ := by
      cases hh : st.mbc.handledByOpen with
      | true =>
        obtain ⟨h1, h2, -, h3⟩ := (hpost hh).scratch ht call
        exact ⟨h1, h2, h3⟩
      | false =>
        obtain rfl := hskip hh
        have htmp : st1.mbc.tmp = none := by
          by_contra htmp
          rcases hc.tmp htmp with h | h
          · rw [hh] at h
            cases h.2
          · rw [show isOpen call = false by cases call <;> first | rfl | cases h] at hcall
            cases hcall
        exact ⟨htmp, rfl, by simp [ht, htmp]⟩
    obtain ⟨htmp, hmem, hrun⟩ := hst1
    rw [← hmem] at hrun
    obtain ⟨hmbc, hfree⟩ := freeMemory_scratch _ call st1.unhandled hrun
    rw [hmem] at hfree
    rw [hmbc]
    exact ⟨⟨rfl, htmp, rfl⟩, hfree⟩
  | freed hf ho =>
    have htmp : st.mbc.tmp = none := by
      by_contra htmp
      rcases hc.tmp htmp with h | h
      · rw [h.1] at ho
        cases ho
      · rcases hf with hf | rfl
        · rw [h] at hf
          cases hf
        · cases h
    obtain ⟨hmbc, hfree⟩ := freeMemory_scratch
      ⟨.after call, regionsOf st.mbc.memory, st.mbc.tmp⟩ call st (by simp [ht, htmp])
    rw [hmbc]
    exact ⟨⟨rfl, htmp, hhandled ho⟩, hfree⟩
  | dupped _ hcall hpost =>
    obtain ⟨h1, h2, h3, h4⟩ := hpost.scratch ht call
    have hmem : st.mbc.memory = none := by
      by_contra hmem
      rcases hc.memory hmem with h | rfl
      · rw [hcall] at h
        cases h
      · cases hcall
    have ho : isOpen call = false := by cases call <;> first | rfl | cases hcall
    rw [hmem] at h2 h4 ⊢
    exact ⟨⟨h2, h1, h3.trans (hhandled ho)⟩, h4⟩

/-! ### Runs -/

/-- The invariant of a child: its log is accepted, between two calls nothing is left over, and
inside a call the scratch fields describe what the first hook did. -/
structure Balanced (k : Kid) : Prop where
  outside : k.inside = none → Clean k.mbc ∧ run Mon.step .init k.log = some .init
  inside : ∀ p, k.inside = some p → Carried p.call k.mbc ∧
    run Mon.step .init k.log = some (.during p.call k.mbc)

theorem balanced_new (inherited : List (ℤ × OpenFile)) : Balanced (Kid.new inherited) :=
  ⟨fun _ => ⟨⟨rfl, rfl, rfl⟩, rfl⟩, fun p hp => by cases hp⟩

theorem balanced_invariant (data : ModuleData) (C : Sys → Action → Prop) :
    KidInvariant data C Balanced where
  new _ := balanced_new _
  entered {s i call args io k st} _ _ hin he hk := by
    obtain ⟨hclean, hlog⟩ := hk.outside hin
    obtain ⟨hcar, hrun⟩ := he.scratch rfl hclean
    refine ⟨fun h => by simp at h, fun p hp => ?_⟩
    obtain rfl := Option.some.inj hp
    refine ⟨hcar, run_append.mpr ⟨_, hlog, ?_⟩⟩
    exact run_cons_iff.mpr ⟨_, rfl, hrun⟩
  left {s i ret opened io k p st} _ _ hin he hk := by
    obtain ⟨hcar, hlog⟩ := hk.inside p hin
    obtain ⟨hclean, hrun⟩ := he.scratch rfl hcar
    refine ⟨fun _ => ⟨hclean, ?_⟩, fun q hq => by simp at hq⟩
    have hresume : Mon.step (.during p.call k.mbc) (.resume p.call) =
        some ⟨.after p.call, regionsOf k.mbc.memory, k.mbc.tmp⟩ := by
      simp [Mon.step, Mon.during]
    have hhook : run Mon.step .init (k.log ++ .resume p.call :: st.touches) =
        some ⟨.after p.call, [], none⟩ :=
      run_append.mpr ⟨_, hlog, run_cons_iff.mpr ⟨_, hresume, hrun⟩⟩
    have hleave : run Mon.step ⟨.after p.call, [], none⟩ [.leave p.call] = some .init := by
      simp [run, Mon.step, Mon.init]
    exact run_append.mpr ⟨_, hhook, hleave⟩
  gone := ⟨(balanced_new []).outside, (balanced_new []).inside⟩

theorem balanced_of_run {data : ModuleData} {disks : Disks} {as : List Action} {s : Sys}
    (h : run (step data) (Sys.init disks) as = some s) : EveryKid Balanced s :=
  (balanced_invariant data fun _ _ => True).run h (along_of_forall (fun _ _ _ => trivial) _)

/-- **The scratch state is balanced in every run.**  Between two calls `memory` and `tmp` are `NULL`,
`handled_by_open` is false and every region has been unmapped with its length; inside a call only
the region `memory` names is mapped, and `tmp` is what its own first hook stored. -/
theorem scratch_balanced (data : ModuleData) (disks : Disks) (as : List Action) (s : Sys)
    (h : run (step data) (Sys.init disks) as = some s) :
    ∀ k ∈ s.kids,
      (k.inside = none → k.mbc.memory = none ∧ k.mbc.tmp = none ∧ k.mbc.handledByOpen = false ∧
        run Mon.step .init k.log = some ⟨.outside, [], none⟩) ∧
      (∀ p, k.inside = some p → run Mon.step .init k.log =
        some ⟨.before p.call, (k.mbc.memory.map fun addr => (addr, PATH_MAX + 1)).toList,
          k.mbc.tmp⟩) := by
  intro k hk
  have hbal : Balanced k := balanced_of_run h k hk
  refine ⟨fun hout => ?_, fun p hp => (hbal.inside p hp).2⟩
  obtain ⟨hclean, hlog⟩ := hbal.outside hout
  exact ⟨hclean.memory, hclean.tmp, hclean.handled, hlog⟩

/-- A child opens the cache partition for writing, duplicates the descriptor and closes both. -/
def cacheRun : List Action :=
  .create [] :: openRun 0 1 5 ++ dup2Run 0 5 6 ++ closeRun 0 6 ++ closeRun 0 5

theorem scratch_balanced_cacheRun :
    ∃ s, run (step demoData) (Sys.init demoDisks) cacheRun = some s ∧
      ∀ k ∈ s.kids, k.inside = none →
        run Mon.step .init k.log = some ⟨.outside, [], none⟩ := by
  refine ⟨_, rfl, fun k hk hin => ?_⟩
  exact ((scratch_balanced demoData demoDisks cacheRun _ rfl k hk).1 hin).2.2.2

end Multiboot
