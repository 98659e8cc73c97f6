import Mathlib.Data.List.Basic

/-!
# Programs that make calls

A `Prog C Ans α` makes calls `c : C`, each of which is answered from outside by some `x : Ans c`, and
ends with a result.  `Runs p es a` says that the calls and answers `es` are a run of `p` with result
`a`.

`wp track Safe p Q s` says that every run of `p` from the state `s`, which `track` keeps of the calls
and answers so far, makes calls only where they are `Safe` and ends in `Q`.  The rules take a program
apart; `Runs.of_wp` is what they prove about runs.  `Gives A p Q` is about the results of the runs whose
answers satisfy `A`.  `Only P p` says that every call of `p` satisfies `P`: a part that makes no call of
interest leaves the state alone (`wp_of_only`).
-/

namespace Multiboot.Lib

inductive Prog (C : Type) (Ans : C → Type) (α : Type) where
  | ret (a : α)
  | call (c : C) (k : Ans c → Prog C Ans α)

namespace Prog

variable {C : Type} {Ans : C → Type} {α β S : Type}

def andThen : Prog C Ans α → (α → Prog C Ans β) → Prog C Ans β
  | ret a, f => f a
  | call c k, f => call c fun x => (k x).andThen f

instance : Monad (Prog C Ans) where
  pure := ret
  bind := andThen

def perform (c : C) : Prog C Ans (Ans c) := call c ret

/-! ### Runs -/

/-- A call with its answer. -/
abbrev Event (Ans : C → Type) := (c : C) × Ans c

inductive Runs : Prog C Ans α → List (Event Ans) → α → Prop
  | ret (a : α) : Runs (ret a) [] a
  | call {c : C} {k : Ans c → Prog C Ans α} {x : Ans c} {es : List (Event Ans)} {a : α}
      (h : Runs (k x) es a) : Runs (call c k) (⟨c, x⟩ :: es) a

/-- The run in which `answer` answers each call, given the events before it. -/
def exec (answer : List (Event Ans) → (c : C) → Ans c) :
    Prog C Ans α → List (Event Ans) → List (Event Ans) × α
  | ret a, es => (es, a)
  | call c k, es => (k (answer es c)).exec answer (es ++ [⟨c, answer es c⟩])

theorem exec_runs (answer : List (Event Ans) → (c : C) → Ans c) (p : Prog C Ans α) :
    ∀ es, ∃ es', (p.exec answer es).1 = es ++ es' ∧ p.Runs es' (p.exec answer es).2 := by
  induction p with
  | ret a => exact fun es => ⟨[], (List.append_nil es).symm, .ret a⟩
  | call c k ih =>
    intro es
    obtain ⟨es', h1, h2⟩ := ih (answer es c) (es ++ [⟨c, answer es c⟩])
    refine ⟨⟨c, answer es c⟩ :: es', ?_, .call h2⟩
    show ((k (answer es c)).exec answer (es ++ [⟨c, answer es c⟩])).1 = _
    rw [h1, List.append_assoc]
    rfl

/-- What holds of every answer holds of every event of the run. -/
theorem exec_forall {answer : List (Event Ans) → (c : C) → Ans c} {A : Event Ans → Prop}
    (hA : ∀ es c, A ⟨c, answer es c⟩) (p : Prog C Ans α) :
    ∀ es, (∀ e ∈ es, A e) → ∀ e ∈ (p.exec answer es).1, A e := by
  induction p with
  | ret a => exact fun es h => h
  | call c k ih =>
    intro es h
    refine ih _ _ fun e he => ?_
    rcases List.mem_append.mp he with he | he
    · exact h e he
    · rw [List.mem_singleton.mp he]
      exact hA es c

/-- Every call of every run satisfies `D` with the events before it. -/
def Always (D : List (Event Ans) → C → Prop) (p : Prog C Ans α) : Prop :=
  ∀ es a, p.Runs es a → ∀ before e after, es = before ++ e :: after → D before e.1

/-- Every run with result `a` satisfies `Q` with its events. -/
def Ends (Q : List (Event Ans) → α → Prop) (p : Prog C Ans α) : Prop := ∀ es a, p.Runs es a → Q es a

/-! ### Preconditions -/

section Rules

variable {track : S → Event Ans → S} {Safe : S → C → Prop} {s : S} {Q : α → S → Prop}

def wp (track : S → Event Ans → S) (Safe : S → C → Prop) :
    Prog C Ans α → (α → S → Prop) → S → Prop
  | ret a, Q, s => Q a s
  | call c k, Q, s => Safe s c ∧ ∀ x, (k x).wp track Safe Q (track s ⟨c, x⟩)

theorem wp_pure {a : α} (h : Q a s) : (pure a : Prog C Ans α).wp track Safe Q s := h

theorem wp_mono {p : Prog C Ans α} {Q' : α → S → Prop} (hQ : ∀ a s, Q a s → Q' a s) :
    ∀ {s : S}, p.wp track Safe Q s → p.wp track Safe Q' s := by
  induction p with
  | ret a => exact fun h => hQ _ _ h
  | call c k ih => exact fun h => ⟨h.1, fun x => ih x (h.2 x)⟩

theorem wp_bind {p : Prog C Ans α} {f : α → Prog C Ans β} {Q : β → S → Prop} :
    ∀ {s : S}, p.wp track Safe (fun a s' => (f a).wp track Safe Q s') s →
      (p >>= f).wp track Safe Q s := by
  induction p with
  | ret a => exact fun h => h
  | call c k ih => exact fun h => ⟨h.1, fun x => ih x (h.2 x)⟩

theorem wp_perform {c : C} {f : Ans c → Prog C Ans β} {Q : β → S → Prop} (hsafe : Safe s c)
    (h : ∀ x, (f x).wp track Safe Q (track s ⟨c, x⟩)) :
    (perform c >>= f).wp track Safe Q s := ⟨hsafe, h⟩

/-- What `wp` says is true of every run. -/
theorem Runs.of_wp {p : Prog C Ans α} {es : List (Event Ans)} {a : α} (h : p.Runs es a) :
    ∀ {s : S}, p.wp track Safe Q s → Q a (es.foldl track s) ∧
      ∀ before e after, es = before ++ e :: after → Safe (before.foldl track s) e.1 := by
  induction h with
  | ret a =>
    intro s hwp
    refine ⟨hwp, fun before e after hes => ?_⟩
    cases before <;> cases hes
  | @call c k x es a h ih =>
    intro s hwp
    obtain ⟨hQ, hsafe⟩ := ih (hwp.2 x)
    refine ⟨hQ, fun before e after hes => ?_⟩
    cases before with
    | nil =>
      obtain ⟨rfl, rfl⟩ := List.cons.inj hes
      exact hwp.1
    | cons e' before =>
      obtain ⟨rfl, rfl⟩ := List.cons.inj hes
      exact hsafe before e after rfl

theorem always_of_wp {p : Prog C Ans α} (h : p.wp track Safe Q s) :
    p.Always fun before c => Safe (before.foldl track s) c :=
  fun _ _ hrun before e after hes => (hrun.of_wp h).2 before e after hes

theorem ends_of_wp {p : Prog C Ans α} (h : p.wp track Safe Q s) :
    p.Ends fun es a => Q a (es.foldl track s) := fun _ _ hrun => (hrun.of_wp h).1

end Rules

/-! ### Runs with the answers that can be expected -/

/-- Every run whose answers satisfy `A` has a result in `Q`. -/
def Gives (A : Event Ans → Prop) : Prog C Ans α → (α → Prop) → Prop
  | ret a, Q => Q a
  | call c k, Q => ∀ x, A ⟨c, x⟩ → (k x).Gives A Q

section Gives

variable {A : Event Ans → Prop}

theorem gives_pure {a : α} {Q : α → Prop} (h : Q a) : (pure a : Prog C Ans α).Gives A Q := h

theorem gives_mono {p : Prog C Ans α} {Q Q' : α → Prop} (hQ : ∀ a, Q a → Q' a) (h : p.Gives A Q) :
    p.Gives A Q' := by
  induction p with
  | ret a => exact hQ a h
  | call c k ih => exact fun x hx => ih x (h x hx)

theorem gives_any {Q : α → Prop} (hQ : ∀ a, Q a) (p : Prog C Ans α) : p.Gives A Q := by
  induction p with
  | ret a => exact hQ a
  | call c k ih => exact fun x _ => ih x

theorem gives_bind {p : Prog C Ans α} {f : α → Prog C Ans β} {R : α → Prop} {Q : β → Prop}
    (hp : p.Gives A R) (hf : ∀ a, R a → (f a).Gives A Q) : (p >>= f).Gives A Q := by
  induction p with
  | ret a => exact hf a hp
  | call c k ih => exact fun x hx => ih x (hp x hx)

theorem gives_perform {c : C} {f : Ans c → Prog C Ans β} {Q : β → Prop}
    (h : ∀ x, A ⟨c, x⟩ → (f x).Gives A Q) : (perform c >>= f).Gives A Q := h

/-- A part whose result does not matter. -/
theorem gives_skip {p : Prog C Ans α} {f : α → Prog C Ans β} {Q : β → Prop}
    (h : ∀ a, (f a).Gives A Q) : (p >>= f).Gives A Q :=
  gives_bind (gives_any (fun _ => trivial) p) fun a _ => h a

/-- What `Gives` says is true of every run. -/
theorem ends_of_gives {p : Prog C Ans α} {Q : α → Prop} (h : p.Gives A Q) :
    p.Ends fun es a => (∀ e ∈ es, A e) → Q a := by
  intro es a hrun
  induction hrun with
  | ret a => exact fun _ => h
  | @call c k x es a hrun ih =>
    exact fun hA => ih (h x (hA _ List.mem_cons_self)) fun e he => hA e (List.mem_cons_of_mem _ he)

end Gives

/-! ### Parts without a call of interest -/

/-- Every call satisfies `P`. -/
def Only (P : C → Prop) : Prog C Ans α → Prop
  | ret _ => True
  | call c k => P c ∧ ∀ x, (k x).Only P

theorem only_pure {P : C → Prop} (a : α) : (pure a : Prog C Ans α).Only P := trivial

theorem only_perform {P : C → Prop} {c : C} (h : P c) : (perform c : Prog C Ans (Ans c)).Only P :=
  ⟨h, fun _ => trivial⟩

theorem only_bind {P : C → Prop} {p : Prog C Ans α} {f : α → Prog C Ans β} (hp : p.Only P)
    (hf : ∀ a, (f a).Only P) : (p >>= f).Only P := by
  induction p with
  | ret a => exact hf a
  | call c k ih => exact ⟨hp.1, fun x => ih x (hp.2 x)⟩

/-- Calls that are safe and that `track` passes over leave the state as it is. -/
theorem wp_of_only {track : S → Event Ans → S} {Safe : S → C → Prop} {P : C → Prop}
    {p : Prog C Ans α} {s : S} {Q : α → S → Prop} (hp : p.Only P) (hsafe : ∀ c, P c → Safe s c)
    (htrack : ∀ c x, P c → track s ⟨c, x⟩ = s) (hQ : ∀ a, Q a s) : p.wp track Safe Q s := by
  induction p with
  | ret a => exact hQ a
  | call c k ih =>
    refine ⟨hsafe c hp.1, fun x => ?_⟩
    rw [htrack c x hp.1]
    exact ih x (hp.2 x)

end Prog

end Multiboot.Lib
