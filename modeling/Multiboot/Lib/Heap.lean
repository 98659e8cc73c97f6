import Mathlib.Algebra.Order.Group.Multiset
import Mathlib.Data.Multiset.Range
import Mathlib.Data.Option.Basic
import Mathlib.Tactic.Abel
import Multiboot.Lib.KeyedList

/-!
# A heap whose blocks are owned

The blocks of a `Heap α` hold an `α` each.  They are numbered in the order they are made, and a number
is not given out again.  Freeing or changing a block that is not live fails; reading a freed one gives
what it held and leaves a mark in `stale`.

A `View` is what is known of a heap: exactly the live blocks with what they hold, some freed ones, and
the marks so far.  `Refines V m v Q` says that `m`, on a heap with view `V`, fails exactly if `v` is
`none`, and that otherwise `Q` relates the two results and the view after.  The rules take a
computation apart at its first operation; `heap_size` counts the live blocks.  `Owned P` relates two
lists element by element, each pair with blocks of its own.
-/

namespace Multiboot.Lib

abbrev Ptr := ℕ

inductive Slot (α : Type) where
  | unused
  | live (a : α)
  | freed (a : α)
  deriving DecidableEq, Repr

structure Heap (α : Type) where
  next : Ptr
  slot : Ptr → Slot α
  /-- What was read from freed blocks. -/
  stale : List α
  unused : ∀ b, next ≤ b → slot b = .unused

abbrev HeapM (α : Type) := StateT (Heap α) Option

variable {α β γ δ : Type}

/-! ### Operations -/

def Heap.empty : Heap α := ⟨0, fun _ => .unused, [], fun _ _ => rfl⟩

def Heap.extend (h : Heap α) (a : α) : Heap α where
  next := h.next + 1
  slot := Function.update h.slot h.next (.live a)
  stale := h.stale
  unused b hb := by
    have hne : b ≠ h.next := (Nat.lt_of_succ_le hb).ne'
    rw [Function.update_of_ne hne]
    exact h.unused b (Nat.le_of_succ_le hb)

/-- The heap with another slot for a block that has been made. -/
def Heap.put (h : Heap α) (b : Ptr) (c : Slot α) : Heap α where
  next := h.next
  slot b' := if b' = b ∧ b < h.next then c else h.slot b'
  stale := h.stale
  unused b' hb' := by
    rw [if_neg]
    · exact h.unused b' hb'
    · rintro ⟨rfl, hlt⟩
      exact absurd hlt (not_lt.mpr hb')

def Heap.mark (h : Heap α) (a : α) : Heap α := { h with stale := h.stale ++ [a] }

theorem Heap.lt_next {h : Heap α} {b : Ptr} {a : α} (hc : h.slot b = .live a) : b < h.next := by
  by_contra hle
  rw [h.unused b (not_lt.mp hle)] at hc
  cases hc

theorem Heap.slot_put_self {h : Heap α} {b : Ptr} {a : α} (hc : h.slot b = .live a) (c : Slot α) :
    (h.put b c).slot b = c := if_pos ⟨rfl, Heap.lt_next hc⟩

theorem Heap.slot_put_of_ne {h : Heap α} {b b' : Ptr} (hne : b' ≠ b) (c : Slot α) :
    (h.put b c).slot b' = h.slot b' := if_neg fun hb => hne hb.1

namespace HeapM

def alloc (a : α) : HeapM α Ptr := fun h => some (h.next, h.extend a)

def free (b : Ptr) : HeapM α Unit := fun h =>
  match h.slot b with
  | .live a => some ((), h.put b (.freed a))
  | _ => none

def load (b : Ptr) : HeapM α α := fun h =>
  match h.slot b with
  | .live a => some (a, h)
  | .freed a => some (a, h.mark a)
  | .unused => none

def store (b : Ptr) (a : α) : HeapM α Unit := fun h =>
  match h.slot b with
  | .live _ => some ((), h.put b (.live a))
  | _ => none

def fail : HeapM α β := fun _ => none

/-- Free a block if there is one: `free(NULL)` does nothing. -/
def freeOpt : Option Ptr → HeapM α Unit
  | none => pure ()
  | some b => free b

end HeapM

/-! ### Views -/

/-- What is known of a heap. -/
structure View (α : Type) where
  live : Multiset (Ptr × α)
  freed : List (Ptr × α)
  stale : List α

structure Heap.Holds (h : Heap α) (V : View α) : Prop where
  nodup : (V.live.map Prod.fst).Nodup
  live : ∀ b a, (b, a) ∈ V.live ↔ h.slot b = .live a
  freed : ∀ b a, (b, a) ∈ V.freed → h.slot b = .freed a
  stale : h.stale = V.stale

theorem Heap.holds_empty : (Heap.empty : Heap α).Holds ⟨0, [], []⟩ where
  nodup := by simp
  live b a := by simp [Heap.empty]
  freed b a hm := by cases hm
  stale := rfl

namespace Heap.Holds

variable {h : Heap α} {V : View α} {R : Multiset (Ptr × α)} {b : Ptr} {a a' : α}

theorem slot_of_mem (hV : h.Holds V) (hm : (b, a) ∈ V.live) : h.slot b = .live a :=
  (hV.live b a).mp hm

theorem extend (hV : h.Holds V) (a : α) :
    (h.extend a).Holds ⟨{(h.next, a)} + V.live, V.freed, V.stale⟩ := by
  have hnew : ∀ x, (h.next, x) ∉ V.live := by
    intro x hx
    have hc := hV.slot_of_mem hx
    rw [h.unused h.next le_rfl] at hc
    cases hc
  refine ⟨?_, fun b x => ?_, fun b x hm => ?_, hV.stale⟩
  · rw [Multiset.map_add, Multiset.map_singleton, Multiset.singleton_add, Multiset.nodup_cons]
    refine ⟨fun hmem => ?_, hV.nodup⟩
    obtain ⟨⟨b, x⟩, hp, hb⟩ := Multiset.mem_map.mp hmem
    obtain rfl : b = h.next := hb
    exact hnew x hp
  · show (b, x) ∈ {(h.next, a)} + V.live ↔ Function.update h.slot h.next (.live a) b = .live x
    rw [Multiset.mem_add, Multiset.mem_singleton, hV.live b x]
    by_cases hb : b = h.next
    · subst hb
      have hc := h.unused h.next le_rfl
      simp [hc, eq_comm]
    · simp [hb]
  · have hc := hV.freed b x hm
    have hb : b ≠ h.next := by
      rintro rfl
      rw [h.unused h.next le_rfl] at hc
      cases hc
    show Function.update h.slot h.next (.live a) b = .freed x
    rw [Function.update_of_ne hb, hc]

/-- The blocks are distinct. -/
theorem nodup_cons (hV : h.Holds V) (heq : V.live = {(b, a)} + R) :
    b ∉ R.map Prod.fst ∧ (R.map Prod.fst).Nodup := by
  have hnodup := hV.nodup
  rwa [heq, Multiset.map_add, Multiset.map_singleton, Multiset.singleton_add,
    Multiset.nodup_cons] at hnodup

/-- What the live blocks without one of them are. -/
theorem mem_rest_iff (hV : h.Holds V) (heq : V.live = {(b, a)} + R) (b' : Ptr) (x : α) :
    (b', x) ∈ R ↔ b' ≠ b ∧ h.slot b' = .live x := by
  rw [← hV.live b' x, heq, Multiset.mem_add, Multiset.mem_singleton]
  constructor
  · intro hm
    refine ⟨?_, Or.inr hm⟩
    rintro rfl
    exact (hV.nodup_cons heq).1 (Multiset.mem_map_of_mem Prod.fst hm)
  · rintro ⟨hb, hm | hm⟩
    · exact absurd (congrArg Prod.fst hm) hb
    · exact hm

theorem slot_head (hV : h.Holds V) (heq : V.live = {(b, a)} + R) : h.slot b = .live a :=
  hV.slot_of_mem (by simp [heq])

theorem ne_of_freed (hV : h.Holds V) (heq : V.live = {(b, a)} + R) {b' : Ptr} {x : α}
    (hm : (b', x) ∈ V.freed) : b' ≠ b := by
  rintro rfl
  have hc := hV.freed b' x hm
  rw [hV.slot_head heq] at hc
  cases hc

theorem freedOne (hV : h.Holds V) (heq : V.live = {(b, a)} + R) :
    (h.put b (.freed a)).Holds ⟨R, (b, a) :: V.freed, V.stale⟩ := by
  have hself := Heap.slot_put_self (hV.slot_head heq) (.freed a)
  refine ⟨(hV.nodup_cons heq).2, fun b' x => ?_, fun b' x hm => ?_, hV.stale⟩
  · rw [hV.mem_rest_iff heq]
    by_cases hbb : b' = b
    · subst hbb
      simp [hself]
    · simp [Heap.slot_put_of_ne hbb, hbb]
  · rcases List.mem_cons.mp hm with hm | hm
    · obtain ⟨rfl, rfl⟩ := Prod.mk.inj hm
      exact hself
    · rw [Heap.slot_put_of_ne (hV.ne_of_freed heq hm)]
      exact hV.freed b' x hm

theorem storedOne (hV : h.Holds V) (heq : V.live = {(b, a)} + R) (a' : α) :
    (h.put b (.live a')).Holds ⟨{(b, a')} + R, V.freed, V.stale⟩ := by
  have hself := Heap.slot_put_self (hV.slot_head heq) (.live a')
  refine ⟨?_, fun b' x => ?_, fun b' x hm => ?_, hV.stale⟩
  · show (({(b, a')} + R).map Prod.fst).Nodup
    rw [Multiset.map_add, Multiset.map_singleton, Multiset.singleton_add, Multiset.nodup_cons]
    exact hV.nodup_cons heq
  · rw [Multiset.mem_add, Multiset.mem_singleton, hV.mem_rest_iff heq]
    by_cases hbb : b' = b
    · subst hbb
      simp [hself, eq_comm]
    · simp [Heap.slot_put_of_ne hbb, hbb]
  · rw [Heap.slot_put_of_ne (hV.ne_of_freed heq hm)]
    exact hV.freed b' x hm

theorem marked (hV : h.Holds V) (a : α) :
    (h.mark a).Holds ⟨V.live, V.freed, V.stale ++ [a]⟩ :=
  ⟨hV.nodup, hV.live, hV.freed, congrArg (· ++ [a]) hV.stale⟩

end Heap.Holds

/-! ### Computations against values -/

/-- The computation fails exactly if there is no value; else `Q` relates the results and the view. -/
def Refines (V : View α) (m : HeapM α β) (v : Option γ) (Q : β → γ → View α → Prop) : Prop :=
  ∀ h, h.Holds V → Option.Rel (fun p c => ∃ V', Heap.Holds p.2 V' ∧ Q p.1 c V') (m h) v

section Rules

variable {V : View α} {R : Multiset (Ptr × α)} {b : Ptr} {a a' : α} {m : HeapM α β}
  {v : Option γ} {Q Q' : β → γ → View α → Prop}

theorem refines_pure {x : β} {c : γ} (hQ : Q x c V) : Refines V (pure x) (some c) Q :=
  fun _ hV => .some ⟨V, hV, hQ⟩

theorem refines_fail : Refines V (HeapM.fail : HeapM α β) none Q := fun _ _ => .none

theorem Refines.mono (hm : Refines V m v Q) (hQ : ∀ x c V', Q x c V' → Q' x c V') :
    Refines V m v Q' := by
  intro h hV
  have hr := hm h hV
  generalize m h = r at hr
  cases hr with
  | none => exact .none
  | some hp =>
    obtain ⟨V', hV', hq⟩ := hp
    exact .some ⟨V', hV', hQ _ _ _ hq⟩

/-- A computation that gives a result can be compared with another value. -/
theorem Refines.imp_some {c : γ} {d : δ} {P : β → δ → View α → Prop} (hm : Refines V m (some c) Q)
    (hQ : ∀ x V', Q x c V' → P x d V') : Refines V m (some d) P := by
  intro h hV
  have hr := hm h hV
  generalize m h = r at hr
  cases hr with
  | some hp =>
    obtain ⟨V', hV', hq⟩ := hp
    exact .some ⟨V', hV', hQ _ _ hq⟩

/-- **Sequence**: where the first part fails so must the value, and where it gives a result the rest
refines the value. -/
theorem Refines.seq {u : Option δ} {P : β → δ → View α → Prop} (hm : Refines V m u P) {ε : Type}
    {f : β → HeapM α ε} {Q : ε → γ → View α → Prop} (hnone : u = none → v = none)
    (hsome : ∀ x c V', u = some c → P x c V' → Refines V' (f x) v Q) : Refines V (m >>= f) v Q := by
  intro h hV
  have hr := hm h hV
  show Option.Rel _ ((m h).bind fun p => f p.1 p.2) v
  generalize m h = r at hr
  cases hr with
  | none =>
    rw [hnone rfl]
    exact .none
  | some hp =>
    obtain ⟨V', hV', hq⟩ := hp
    exact hsome _ _ V' rfl hq _ hV'

theorem Refines.alloc {f : Ptr → HeapM α β}
    (hf : ∀ b, Refines ⟨{(b, a)} + V.live, V.freed, V.stale⟩ (f b) v Q) :
    Refines V (HeapM.alloc a >>= f) v Q := fun h hV => hf h.next _ (hV.extend a)

theorem Refines.free {f : Unit → HeapM α β} (heq : V.live = {(b, a)} + R)
    (hf : Refines ⟨R, (b, a) :: V.freed, V.stale⟩ (f ()) v Q) :
    Refines V (HeapM.free b >>= f) v Q := by
  intro h hV
  have hrun : HeapM.free b h = some ((), h.put b (.freed a)) := by
    rw [HeapM.free, hV.slot_head heq]
  show Option.Rel _ ((HeapM.free b h).bind fun p => f p.1 p.2) v
  rw [hrun]
  exact hf _ (hV.freedOne heq)

theorem Refines.store {f : Unit → HeapM α β} (heq : V.live = {(b, a)} + R)
    (hf : Refines ⟨{(b, a')} + R, V.freed, V.stale⟩ (f ()) v Q) :
    Refines V (HeapM.store b a' >>= f) v Q := by
  intro h hV
  have hrun : HeapM.store b a' h = some ((), h.put b (.live a')) := by
    rw [HeapM.store, hV.slot_head heq]
  show Option.Rel _ ((HeapM.store b a' h).bind fun p => f p.1 p.2) v
  rw [hrun]
  exact hf _ (hV.storedOne heq a')

theorem Refines.load {f : α → HeapM α β} (hm : (b, a) ∈ V.live) (hf : Refines V (f a) v Q) :
    Refines V (HeapM.load b >>= f) v Q := by
  intro h hV
  have hrun : HeapM.load b h = some (a, h) := by
    rw [HeapM.load, hV.slot_of_mem hm]
  show Option.Rel _ ((HeapM.load b h).bind fun p => f p.1 p.2) v
  rw [hrun]
  exact hf h hV

/-- A read of a freed block leaves a mark. -/
theorem Refines.loadFreed {f : α → HeapM α β} (hm : (b, a) ∈ V.freed)
    (hf : Refines ⟨V.live, V.freed, V.stale ++ [a]⟩ (f a) v Q) :
    Refines V (HeapM.load b >>= f) v Q := by
  intro h hV
  have hrun : HeapM.load b h = some (a, h.mark a) := by
    rw [HeapM.load, hV.freed b a hm]
  show Option.Rel _ ((HeapM.load b h).bind fun p => f p.1 p.2) v
  rw [hrun]
  exact hf _ (hV.marked a)

theorem Refines.seq_some {d : δ} {P : β → δ → View α → Prop} (hm : Refines V m (some d) P) {ε : Type}
    {f : β → HeapM α ε} {Q : ε → γ → View α → Prop} (hf : ∀ x V', P x d V' → Refines V' (f x) v Q) :
    Refines V (m >>= f) v Q := by
  refine hm.seq (fun h => absurd h (Option.some_ne_none d)) ?_
  intro x c V' hc hP
  obtain rfl := Option.some.inj hc
  exact hf x V' hP

/-- **Loop**: a step that keeps `Q`, over a list, from a computation that makes it. -/
theorem Refines.foldl {ι : Type} {step : β → ι → HeapM α β} {next : γ → ι → γ}
    (hstep : ∀ x c V i, Q x c V → Refines V (step x i) (some (next c i)) Q) (is : List ι) {c : γ}
    (hm : Refines V m (some c) Q) :
    Refines V (is.foldl (fun m i => m >>= fun x => step x i) m) (some (is.foldl next c)) Q := by
  induction is generalizing m c with
  | nil => exact hm
  | cons i is ih => exact ih (hm.seq_some fun x V' hQ => hstep x c V' i hQ)

/-- The rules are about an operation with something behind it. -/
theorem Refines.last (hm : Refines V (m >>= pure) v Q) : Refines V m v Q := by
  rwa [bind_pure] at hm

end Rules

/-! ### Pointers that may be `NULL` -/

/-- The pointer is `NULL`, or a block of its own that holds `mk t`. -/
inductive OptOwns {τ : Type} (mk : τ → α) : Option Ptr → Option τ → Multiset (Ptr × α) → Prop
  | null : OptOwns mk none none 0
  | own {b : Ptr} {t : τ} : OptOwns mk (some b) (some t) {(b, mk t)}

section OptOwns

variable {τ : Type} {mk : τ → α} {V : View α} {p : Option Ptr} {t : Option τ} {v : Option γ}
  {Q : β → γ → View α → Prop} {R S : Multiset (Ptr × α)}

theorem OptOwns.card (h : OptOwns mk p t R) : Multiset.card R = t.toList.length := by
  cases h <;> rfl

theorem Refines.freeOpt {f : Unit → HeapM α β} (h : OptOwns mk p t R) (heq : V.live = R + S)
    (hf : ∀ freed, Refines ⟨S, freed, V.stale⟩ (f ()) v Q) :
    Refines V (HeapM.freeOpt p >>= f) v Q := by
  cases h with
  | null =>
    rw [zero_add] at heq
    have hV := hf V.freed
    rw [← heq] at hV
    exact hV
  | own => exact .free heq (hf _)

end OptOwns

/-! ### Lists of things that own blocks -/

inductive Owned (P : β → γ → Multiset (Ptr × α) → Prop) :
    List β → List γ → Multiset (Ptr × α) → Prop
  | nil : Owned P [] [] 0
  | cons {x : β} {c : γ} {R S : Multiset (Ptr × α)} {xs : List β} {cs : List γ} (head : P x c R)
      (tail : Owned P xs cs S) : Owned P (x :: xs) (c :: cs) (R + S)

section Owned

variable {P : β → γ → Multiset (Ptr × α) → Prop} {xs : List β} {cs : List γ}
  {R S : Multiset (Ptr × α)} {x : β} {c : γ}

theorem Owned.concat (h : Owned P xs cs R) (hx : P x c S) : Owned P (xs ++ [x]) (cs ++ [c]) (S + R) := by
  induction h with
  | nil => exact .cons hx .nil
  | cons head tail ih =>
    rw [add_left_comm]
    exact .cons head ih

theorem Owned.length_eq (h : Owned P xs cs R) : xs.length = cs.length := by
  induction h with
  | nil => rfl
  | cons _ _ ih => rw [List.length_cons, List.length_cons, ih]

theorem Owned.append {ys : List β} {ds : List γ} (h : Owned P xs cs R) (h' : Owned P ys ds S) :
    Owned P (xs ++ ys) (cs ++ ds) (R + S) := by
  induction h with
  | nil =>
    rw [zero_add]
    exact h'
  | cons head tail ih =>
    rw [add_assoc]
    exact .cons head ih

theorem Owned.replicate (n : ℕ) (h : P x c 0) :
    Owned P (List.replicate n x) (List.replicate n c) 0 := by
  induction n with
  | zero => exact .nil
  | succ n ih =>
    have hcons := Owned.cons h ih
    rwa [add_zero] at hcons

/-- One element, with what it owns, can be replaced by another. -/
theorem Owned.focus (h : Owned P xs cs R) (i : ℕ) :
    xs[i]? = none ∧ cs[i]? = none ∨ ∃ x c S T, xs[i]? = some x ∧ cs[i]? = some c ∧ P x c S ∧
      R = S + T ∧ ∀ x' c' S', P x' c' S' → Owned P (xs.set i x') (cs.set i c') (S' + T) := by
  induction h generalizing i with
  | nil => exact Or.inl ⟨rfl, rfl⟩
  | @cons x c S T xs cs head tail ih =>
    cases i with
    | zero => exact Or.inr ⟨x, c, S, T, rfl, rfl, head, rfl, fun x' c' S' hx' => .cons hx' tail⟩
    | succ i =>
      rcases ih i with ⟨hx, hc⟩ | ⟨x₁, c₁, S₁, T₁, hx, hc, hP, rfl, hset⟩
      · exact Or.inl ⟨by simpa using hx, by simpa using hc⟩
      · refine Or.inr ⟨x₁, c₁, S₁, S + T₁, by simpa using hx, by simpa using hc, hP,
          add_left_comm _ _ _, fun x' c' S' hx' => ?_⟩
        rw [add_left_comm]
        exact .cons head (hset x' c' S' hx')

/-- How many blocks the elements own altogether. -/
theorem Owned.card {f : γ → ℕ} (hf : ∀ x c R, P x c R → Multiset.card R = f c)
    (h : Owned P xs cs R) : Multiset.card R = (cs.map f).sum := by
  induction h with
  | nil => rfl
  | cons head tail ih =>
    rw [Multiset.card_add, hf _ _ _ head, ih]
    rfl

/-- Two items with the same id. -/
inductive Keyed {κ : Type} (P : β → γ → Multiset (Ptr × α) → Prop) :
    κ × β → κ × γ → Multiset (Ptr × α) → Prop
  | mk {k : κ} {x : β} {c : γ} {R : Multiset (Ptr × α)} (h : P x c R) : Keyed P (k, x) (k, c) R

/-- An item is found in both lists or in none, and can be taken out of both. -/
theorem Owned.find {κ : Type} [DecidableEq κ] {l : List (κ × β)} {l' : List (κ × γ)}
    (h : Owned (Keyed P) l l' R) (id : κ) :
    llFind l id = none ∧ llFind l' id = none ∨ ∃ x c S T, llFind l id = some x ∧
      llFind l' id = some c ∧ P x c S ∧ R = S + T ∧ Owned (Keyed P) (llDel l id) (llDel l' id) T := by
  induction h with
  | nil => exact Or.inl ⟨rfl, rfl⟩
  | @cons p q S T l l' head tail ih =>
    obtain @⟨k, x, c, _, hP⟩ := head
    by_cases hk : k = id
    · exact Or.inr ⟨x, c, S, T, if_pos hk, if_pos hk, hP, rfl, by simpa [llDel, hk] using tail⟩
    · rcases ih with ⟨hx, hc⟩ | ⟨x₁, c₁, S₁, T₁, hx, hc, hP₁, rfl, hdel⟩
      · exact Or.inl ⟨by simpa [llFind, hk] using hx, by simpa [llFind, hk] using hc⟩
      · refine Or.inr ⟨x₁, c₁, S₁, S + T₁, by simpa [llFind, hk] using hx,
          by simpa [llFind, hk] using hc, hP₁, add_left_comm _ _ _, ?_⟩
        simp only [llDel, hk, if_false]
        exact .cons (.mk hP) hdel

end Owned

/-! ### Counting -/

def Slot.isLive : Slot α → Bool
  | .live _ => true
  | _ => false

/-- The number of live blocks. -/
def Heap.size (h : Heap α) : ℕ := (List.range h.next).countP fun b => (h.slot b).isLive

theorem heap_size {h : Heap α} {V : View α} (hV : h.Holds V) : h.size = Multiset.card V.live := by
  have hblocks : V.live.map Prod.fst =
      (Multiset.range h.next).filter fun b => (h.slot b).isLive = true := by
    refine (Multiset.Nodup.ext hV.nodup ((Multiset.nodup_range _).filter _)).mpr fun b => ?_
    rw [Multiset.mem_map, Multiset.mem_filter, Multiset.mem_range]
    constructor
    · rintro ⟨⟨b', a⟩, hm, rfl⟩
      have hc := hV.slot_of_mem hm
      exact ⟨Heap.lt_next hc, by rw [hc]; rfl⟩
    · rintro ⟨-, hl⟩
      cases hc : h.slot b with
      | live a => exact ⟨(b, a), (hV.live b a).mpr hc, rfl⟩
      | unused =>
        rw [hc] at hl
        cases hl
      | freed a =>
        rw [hc] at hl
        cases hl
  rw [Heap.size, List.countP_eq_length_filter, ← Multiset.card_map Prod.fst V.live, hblocks]
  simp [Multiset.range]

end Multiboot.Lib
