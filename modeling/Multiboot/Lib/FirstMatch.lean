import Mathlib.Data.List.Basic

/-!
# First matches

`First p l a` says that `a` is the first entry of the list `l` that satisfies `p`.  A search under a
wider test than it should have finds the right entry unless a wrong one stands before it
(`find?_eq_find?_iff`).
-/

namespace Multiboot.Lib

variable {α : Type*} {p q : α → Bool} {l : List α} {a b : α}

def First (p : α → Bool) (l : List α) (a : α) : Prop :=
  ∃ before after, l = before ++ a :: after ∧ p a = true ∧ ∀ b ∈ before, p b = false

theorem first_iff : First p l a ↔ l.find? p = some a := by
  rw [List.find?_eq_some_iff_append]
  constructor
  · rintro ⟨before, after, hsplit, ha, hbefore⟩
    exact ⟨ha, before, after, hsplit, fun b hb => by rw [hbefore b hb]; rfl⟩
  · rintro ⟨ha, before, after, hsplit, hbefore⟩
    exact ⟨before, after, hsplit, ha, fun b hb => by simpa using hbefore b hb⟩

theorem First.mem (h : First p l a) : a ∈ l := by
  obtain ⟨before, after, rfl, -⟩ := h
  exact List.mem_append_right _ List.mem_cons_self

theorem First.holds (h : First p l a) : p a = true := by
  obtain ⟨-, -, -, ha, -⟩ := h
  exact ha

theorem First.unique (ha : First p l a) (hb : First p l b) : a = b :=
  Option.some.inj ((first_iff.mp ha).symm.trans (first_iff.mp hb))

theorem exists_first (hb : b ∈ l) (h : p b = true) : ∃ a, First p l a := by
  obtain ⟨a, ha⟩ := Option.isSome_iff_exists.mp (List.find?_isSome.mpr ⟨b, hb, h⟩)
  exact ⟨a, first_iff.mpr ha⟩

/-- Behind a match there is no first match any more. -/
theorem First.mem_of_append {before after : List α} (h : First p (before ++ b :: after) a)
    (hb : p b = true) : a ∈ before ++ [b] := by
  have hfind := first_iff.mp h
  rw [List.find?_append, List.find?_cons_of_pos hb] at hfind
  cases hbefore : before.find? p with
  | some c =>
    rw [hbefore] at hfind
    obtain rfl := Option.some.inj hfind
    exact List.mem_append_left _ (List.mem_of_find?_eq_some hbefore)
  | none =>
    rw [hbefore] at hfind
    obtain rfl := Option.some.inj hfind
    exact List.mem_append_right _ List.mem_cons_self

/-- A wider test `p` finds what `q` finds unless an entry that satisfies only `p` stands before every
entry that satisfies `q`. -/
theorem find?_eq_find?_iff (hqp : ∀ a ∈ l, q a = true → p a = true) :
    l.find? p = l.find? q ↔ ¬ ∃ before e after, l = before ++ e :: after ∧ p e = true ∧
      q e = false ∧ ∀ d ∈ before, q d = false := by
  constructor
  · rintro heq ⟨before, e, after, rfl, hp, hq, hbefore⟩
    obtain ⟨f, hf⟩ := exists_first (List.mem_append_right before List.mem_cons_self) hp
    have hqf : q f = true := (first_iff.mpr (heq.symm.trans (first_iff.mp hf))).holds
    have hno : q f = false := by
      rcases List.mem_append.mp (hf.mem_of_append hp) with h | h
      · exact hbefore f h
      · rw [List.mem_singleton.mp h, hq]
    rw [hqf] at hno
    cases hno
  · intro hno
    cases hp : l.find? p with
    | none =>
      refine (List.find?_eq_none.mpr fun a ha hq => ?_).symm
      exact List.find?_eq_none.mp hp a ha (hqp a ha hq)
    | some e =>
      obtain ⟨before, after, hsplit, he, hbefore⟩ := first_iff.mpr hp
      have hbefore' : ∀ d ∈ before, q d = false := by
        intro d hd
        by_contra hq
        have hpd := hqp d (by rw [hsplit]; exact List.mem_append_left _ hd) (by simpa using hq)
        rw [hbefore d hd] at hpd
        cases hpd
      have hqe : q e = true := by
        by_contra hq
        exact hno ⟨before, e, after, hsplit, he, by simpa using hq, hbefore'⟩
      exact (first_iff.mp ⟨before, after, hsplit, hqe, hbefore'⟩).symm

end Multiboot.Lib
