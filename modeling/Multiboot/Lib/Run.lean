import Mathlib.Algebra.Group.Defs
import Mathlib.Data.List.Basic

/-!
# Runs of a labelled partial step function

`run step s as` executes the actions `as` from `s` (`none` as soon as one of them is not enabled).
`Along step C s as` says that every action taken satisfies `C` in the state it is taken in.  The
rules: composition (`run_append`), an invariant carried by the steps (`run_invariant`), a relation
between the first and the last state (`run_rel`), a measure that never grows (`run_le`) and what an invariant
makes sure of before every step (`along_of_invariant`).  `run_project` takes a run of a machine to the run of
a part of it.  `trace step f s as` lists what `f` sees of each step, and `run_trace` takes a machine that
follows what is seen of the steps to runs.  `total step f s as` adds up what `f` gives for each action, and `run_sim` lifts a
simulation that keeps such an account to runs.
-/

namespace Multiboot.Lib

variable {S A : Type*} (step : S → A → Option S)

/-- The state after the actions `as`, if all of them are enabled. -/
def run : S → List A → Option S
  | s, [] => some s
  | s, a :: as => (step s a).bind (fun s' => run s' as)

/-- Every action taken along the run from `s` satisfies `C` in its state. -/
def Along (C : S → A → Prop) : S → List A → Prop
  | _, [] => True
  | s, a :: as => C s a ∧ ∀ s', step s a = some s' → Along C s' as

variable {step}

@[simp] theorem run_nil (s : S) : run step s [] = some s := rfl

theorem run_cons_iff {s s' : S} {a : A} {as : List A} :
    run step s (a :: as) = some s' ↔ ∃ t, step s a = some t ∧ run step t as = some s' := by
  simp [run, Option.bind_eq_some_iff]

theorem run_append {s s' : S} {as bs : List A} :
    run step s (as ++ bs) = some s' ↔ ∃ t, run step s as = some t ∧ run step t bs = some s' := by
  induction as generalizing s with
  | nil => simp
  | cons a as ih =>
    simp only [List.cons_append, run_cons_iff, ih]
    constructor
    · rintro ⟨t, h1, u, h2, h3⟩
      exact ⟨u, ⟨t, h1, h2⟩, h3⟩
    · rintro ⟨u, ⟨t, h1, h2⟩, h3⟩
      exact ⟨t, h1, u, h2, h3⟩

theorem run_concat (s : S) (as : List A) (a : A) :
    run step s (as ++ [a]) = (run step s as).bind fun t => step t a := by
  induction as generalizing s with
  | nil =>
    show (step s a).bind (fun t => run step t []) = step s a
    cases step s a <;> rfl
  | cons b as ih =>
    show (step s b).bind (fun t => run step t (as ++ [a])) = _
    rw [run]
    cases step s b with
    | none => rfl
    | some t => exact ih t

/-- A condition along a run holds along its parts. -/
theorem along_append {C : S → A → Prop} {as bs : List A} :
    ∀ {s t : S}, Along step C s (as ++ bs) → run step s as = some t →
      Along step C s as ∧ Along step C t bs := by
  induction as with
  | nil =>
    intro s t h hrun
    obtain rfl : s = t := by simpa using hrun
    exact ⟨trivial, h⟩
  | cons a as ih =>
    intro s t h hrun
    obtain ⟨u, hu, hrun'⟩ := run_cons_iff.mp hrun
    refine ⟨⟨h.1, fun s' hs' => ?_⟩, (ih (h.2 u hu) hrun').2⟩
    obtain rfl : u = s' := Option.some.inj (hu.symm.trans hs')
    exact (ih (h.2 u hu) hrun').1

/-- A condition on the actions alone holds along every run. -/
theorem along_of_forall {C : S → A → Prop} {as : List A} (h : ∀ a ∈ as, ∀ s, C s a) :
    ∀ s, Along step C s as := by
  induction as with
  | nil => exact fun _ => trivial
  | cons a as ih =>
    intro s
    exact ⟨h a (by simp) s, fun s' _ => ih (fun b hb => h b (by simp [hb])) s'⟩

theorem Along.mono {C C' : S → A → Prop} (hC : ∀ s a, C s a → C' s a) {as : List A} :
    ∀ {s : S}, Along step C s as → Along step C' s as := by
  induction as with
  | nil => exact fun _ => trivial
  | cons a as ih =>
    intro s h
    exact ⟨hC s a h.1, fun s' hs => ih (h.2 s' hs)⟩

theorem Along.and {C C' : S → A → Prop} {as : List A} :
    ∀ {s : S}, Along step C s as → Along step C' s as →
      Along step (fun s a => C s a ∧ C' s a) s as := by
  induction as with
  | nil => exact fun _ _ => trivial
  | cons a as ih =>
    intro s h h'
    exact ⟨⟨h.1, h'.1⟩, fun s' hs => ih (h.2 s' hs) (h'.2 s' hs)⟩

/-- A condition on the actions can be checked by executing the run. -/
instance decidableAlong {C : S → A → Prop} [∀ s a, Decidable (C s a)] :
    ∀ (s : S) (as : List A), Decidable (Along step C s as)
  | _, [] => isTrue trivial
  | s, a :: as =>
    match h : step s a with
    | none => decidable_of_iff (C s a) (by simp [Along, h])
    | some t =>
      haveI : Decidable (Along step C t as) := decidableAlong t as
      decidable_of_iff (C s a ∧ Along step C t as) (by simp [Along, h])

/-- **Relation rule**: a reflexive and transitive relation that every step establishes relates the
first state of a run to its last. -/
theorem run_rel {C : S → A → Prop} {R : S → S → Prop} (hrefl : ∀ s, R s s)
    (htrans : ∀ s t u, R s t → R t u → R s u)
    (hstep : ∀ s a s', C s a → step s a = some s' → R s s') :
    ∀ {as : List A} {s s' : S}, run step s as = some s' → Along step C s as → R s s' := by
  intro as
  induction as with
  | nil =>
    intro s s' h _
    obtain rfl : s = s' := by simpa using h
    exact hrefl s
  | cons a as ih =>
    intro s s' h hC
    obtain ⟨t, h1, h2⟩ := run_cons_iff.mp h
    exact htrans s t s' (hstep s a t hC.1 h1) (ih h2 (hC.2 t h1))

/-- **Invariant rule**: what every step preserves, a run preserves. -/
theorem run_invariant {C : S → A → Prop} {I : S → Prop}
    (hstep : ∀ s a s', I s → C s a → step s a = some s' → I s') {as : List A} {s s' : S}
    (h : run step s as = some s') (hC : Along step C s as) (hI : I s) : I s' :=
  run_rel (R := fun s s' => I s → I s') (fun _ h => h) (fun _ _ _ h1 h2 h => h2 (h1 h))
    (fun s a s' hc hs hi => hstep s a s' hi hc hs) h hC hI

/-- **Safety rule**: what an invariant guarantees of the next action holds along the run. -/
theorem along_of_invariant {C D : S → A → Prop} {I : S → Prop}
    (hstep : ∀ s a s', I s → C s a → step s a = some s' → I s')
    (hsafe : ∀ s a, I s → C s a → D s a) {as : List A} :
    ∀ {s : S}, I s → Along step C s as → Along step D s as := by
  induction as with
  | nil => exact fun _ _ => trivial
  | cons a as ih =>
    intro s hI hC
    exact ⟨hsafe s a hI hC.1, fun s' hs => ih (hstep s a s' hI hC.1 hs) (hC.2 s' hs)⟩

/-- **Measure rule**: a measure that no step increases is no larger after the run. -/
theorem run_le {C : S → A → Prop} {μ : S → ℕ}
    (hstep : ∀ s a s', C s a → step s a = some s' → μ s' ≤ μ s) {as : List A} {s s' : S}
    (h : run step s as = some s') (hC : Along step C s as) : μ s' ≤ μ s :=
  run_rel (R := fun s s' => μ s' ≤ μ s) (fun _ => Nat.le_refl _)
    (fun _ _ _ h1 h2 => Nat.le_trans h2 h1)
    hstep h hC

/-! ### A part of a machine -/

section Part

variable {T B : Type*} {step' : T → B → Option T} {π : S → T} {f : A → Option B}

/-- A step of the machine is one of its part, or leaves the part alone. -/
def Projects (step : S → A → Option S) (step' : T → B → Option T) (π : S → T) (f : A → Option B) :
    Prop :=
  ∀ s a s', step s a = some s' → (f a).elim (some (π s)) (step' (π s)) = some (π s')

/-- **Projection rule**: a run of the machine is one of its part. -/
theorem run_project (hproj : Projects step step' π f) {as : List A} :
    ∀ {s s' : S}, run step s as = some s' → run step' (π s) (as.filterMap f) = some (π s') := by
  induction as with
  | nil =>
    intro s s' h
    obtain rfl : s = s' := by simpa using h
    rfl
  | cons a as ih =>
    intro s s' h
    obtain ⟨t, h1, h2⟩ := run_cons_iff.mp h
    have hpart := hproj s a t h1
    rw [List.filterMap_cons]
    cases hf : f a with
    | none =>
      rw [hf, Option.elim_none, Option.some.injEq] at hpart
      rw [hpart]
      exact ih h2
    | some b =>
      rw [hf, Option.elim_some] at hpart
      exact run_cons_iff.mpr ⟨π t, hpart, ih h2⟩

end Part

/-! ### What is seen of a run -/

section Trace

variable {E T : Type*}

/-- What `f` sees of the steps of a run, in order. -/
def trace (step : S → A → Option S) (f : S → A → S → List E) : S → List A → List E
  | _, [] => []
  | s, a :: as => (step s a).elim [] fun t => f s a t ++ trace step f t as

/-- **Refinement rule**: a machine that follows what is seen of every step follows what is seen of a
run. -/
theorem run_trace {C : S → A → Prop} {f : S → A → S → List E} {next : T → E → T} {R : S → T → Prop}
    (hstep : ∀ s a s' t, R s t → C s a → step s a = some s' → R s' ((f s a s').foldl next t))
    {as : List A} : ∀ {s s' : S} {t : T}, run step s as = some s' → Along step C s as → R s t →
      R s' ((trace step f s as).foldl next t) := by
  induction as with
  | nil =>
    intro s s' t h _ hR
    obtain rfl : s = s' := by simpa using h
    exact hR
  | cons a as ih =>
    intro s s' t h hC hR
    obtain ⟨u, h1, h2⟩ := run_cons_iff.mp h
    rw [trace, h1, Option.elim_some, List.foldl_append]
    exact ih h2 (hC.2 u h1) (hstep s a u t hR hC.1 h1)

end Trace

/-! ### Accounts and simulations -/

section Account

variable {M : Type*} [AddMonoid M]

/-- What `f` gives for the actions of a run, added up. -/
def total (step : S → A → Option S) (f : S → A → M) : S → List A → M
  | _, [] => 0
  | s, a :: as => f s a + (step s a).elim 0 fun t => total step f t as

/-- **Simulation rule**: if every step keeps the two states related, with `f` added to the account,
so does every run; a run is enabled on both sides or on neither. -/
theorem run_sim {T : Type*} {step' : T → A → Option T} {f : S → A → M} {R : M → T → S → Prop}
    (hstep : ∀ m t s a, R m t s → Option.Rel (R (m + f s a)) (step' t a) (step s a)) (as : List A) :
    ∀ {m : M} {t : T} {s : S}, R m t s →
      Option.Rel (R (m + total step f s as)) (run step' t as) (run step s as) := by
  induction as with
  | nil =>
    intro m t s h
    rw [total, add_zero]
    exact .some h
  | cons a as ih =>
    intro m t s h
    have hr := hstep m t s a h
    rw [run, run, total]
    generalize step' t a = t' at hr
    generalize step s a = s' at hr
    cases hr with
    | none => exact .none
    | some hR =>
      rw [← add_assoc]
      exact ih hR

end Account

end Multiboot.Lib
