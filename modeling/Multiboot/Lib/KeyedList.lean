import Mathlib.Data.List.Perm.Basic
import Mathlib.Data.List.Count
import Mathlib.Data.List.Nodup

/-!
# Lists of items with an id

The interface the tracer uses of its linked lists: `llAdd` appends an item, `llFind` returns the
first item with an id and `llDel` removes that item.  Ids need not be distinct; `ids l` lists them
with repetitions.  The main facts: the effect of each operation on the ids (`ids_llAdd`,
`mem_ids_llDel`, `nodup_llDel`, `not_mem_ids_llDel`), and `llDel_perm`, from which every count over
the items follows.
-/

namespace Multiboot.Lib

variable {κ α : Type*}

def llAdd (l : List (κ × α)) (id : κ) (x : α) : List (κ × α) := l ++ [(id, x)]

/-- The ids of the items, in order and with repetitions. -/
def ids (l : List (κ × α)) : List κ := l.map Prod.fst

@[simp] theorem ids_nil : ids ([] : List (κ × α)) = [] := rfl

@[simp] theorem ids_llAdd (l : List (κ × α)) (id : κ) (x : α) :
    ids (llAdd l id x) = ids l ++ [id] := by
  simp [ids, llAdd]

theorem mem_ids_of_mem {l : List (κ × α)} {p : κ × α} (h : p ∈ l) : p.1 ∈ ids l :=
  List.mem_map_of_mem h

variable [DecidableEq κ]

def llFind (l : List (κ × α)) (id : κ) : Option α :=
  match l with
  | [] => none
  | (k, x) :: l => if k = id then some x else llFind l id

def llDel (l : List (κ × α)) (id : κ) : List (κ × α) :=
  match l with
  | [] => []
  | (k, x) :: l => if k = id then l else (k, x) :: llDel l id

theorem llFind_some_mem {l : List (κ × α)} {id : κ} {x : α} (h : llFind l id = some x) :
    (id, x) ∈ l := by
  induction l with
  | nil => simp [llFind] at h
  | cons p l ih =>
    obtain ⟨k, y⟩ := p
    unfold llFind at h
    split_ifs at h with hk
    · subst hk
      simp only [Option.some.injEq] at h
      simp [h]
    · exact List.mem_cons_of_mem _ (ih h)

theorem llFind_eq_none_iff {l : List (κ × α)} {id : κ} : llFind l id = none ↔ id ∉ ids l := by
  induction l with
  | nil => simp [llFind]
  | cons p l ih =>
    obtain ⟨k, y⟩ := p
    unfold llFind
    by_cases hk : k = id
    · simp [ids, hk]
    · rw [if_neg hk, ih]
      simp [ids, Ne.symm hk]

theorem llFind_isSome_iff {l : List (κ × α)} {id : κ} : (llFind l id).isSome ↔ id ∈ ids l := by
  rw [← not_iff_not, ← llFind_eq_none_iff]
  simp

theorem llDel_of_not_mem {l : List (κ × α)} {id : κ} (h : id ∉ ids l) : llDel l id = l := by
  induction l with
  | nil => rfl
  | cons p l ih =>
    obtain ⟨k, y⟩ := p
    simp only [ids, List.map_cons, List.mem_cons, not_or] at h
    unfold llDel
    rw [if_neg (Ne.symm h.1), ih h.2]

/-- Deleting takes out exactly the item that `llFind` returns. -/
theorem llDel_perm {l : List (κ × α)} {id : κ} {x : α} (h : llFind l id = some x) :
    l.Perm ((id, x) :: llDel l id) := by
  induction l with
  | nil => simp [llFind] at h
  | cons p l ih =>
    obtain ⟨k, y⟩ := p
    unfold llFind at h
    unfold llDel
    split_ifs at h ⊢ with hk
    · subst hk
      simp only [Option.some.injEq] at h
      rw [h]
    · exact ((ih h).cons (k, y)).trans (List.Perm.swap _ _ _)

theorem mem_of_mem_llDel {l : List (κ × α)} {id : κ} {p : κ × α} (h : p ∈ llDel l id) : p ∈ l := by
  by_cases hid : id ∈ ids l
  · obtain ⟨x, hx⟩ := Option.isSome_iff_exists.mp (llFind_isSome_iff.mpr hid)
    exact (llDel_perm hx).mem_iff.mpr (List.mem_cons_of_mem _ h)
  · rwa [llDel_of_not_mem hid] at h

theorem mem_llDel_of_ne {l : List (κ × α)} {id : κ} {p : κ × α} (h : p ∈ l) (hne : p.1 ≠ id) :
    p ∈ llDel l id := by
  by_cases hid : id ∈ ids l
  · obtain ⟨x, hx⟩ := Option.isSome_iff_exists.mp (llFind_isSome_iff.mpr hid)
    rcases List.mem_cons.mp ((llDel_perm hx).mem_iff.mp h) with rfl | h
    · exact absurd rfl hne
    · exact h
  · rwa [llDel_of_not_mem hid]

theorem count_llDel (l : List (κ × α)) (id k : κ) :
    (ids (llDel l id)).count k = if k = id then (ids l).count k - 1 else (ids l).count k := by
  by_cases hid : id ∈ ids l
  · obtain ⟨x, hx⟩ := Option.isSome_iff_exists.mp (llFind_isSome_iff.mpr hid)
    have hp : (ids l).Perm (id :: ids (llDel l id)) := (llDel_perm hx).map Prod.fst
    rw [hp.count_eq k, List.count_cons]
    by_cases hk : k = id
    · simp [hk]
    · simp [hk, Ne.symm hk]
  · rw [llDel_of_not_mem hid]
    split_ifs with hk
    · subst hk
      simp [List.count_eq_zero_of_not_mem hid]
    · rfl

theorem mem_ids_llDel {l : List (κ × α)} {id k : κ} (hk : k ∈ ids l) (hne : k ≠ id) :
    k ∈ ids (llDel l id) := by
  obtain ⟨p, hp, rfl⟩ := List.mem_map.mp hk
  exact mem_ids_of_mem (mem_llDel_of_ne hp hne)

theorem nodup_llDel {l : List (κ × α)} (h : (ids l).Nodup) (id : κ) :
    (ids (llDel l id)).Nodup := by
  rw [List.nodup_iff_count_le_one] at h ⊢
  intro k
  rw [count_llDel]
  split_ifs
  · exact Nat.le_trans (Nat.sub_le _ _) (h k)
  · exact h k

theorem not_mem_ids_llDel {l : List (κ × α)} (h : (ids l).Nodup) (id : κ) :
    id ∉ ids (llDel l id) := by
  have hcount := count_llDel l id id
  rw [if_pos rfl] at hcount
  have hle := List.nodup_iff_count_le_one.mp h id
  rw [← List.count_eq_zero]
  omega

/-- An item whose id occurs once is the one `llFind` returns. -/
theorem llFind_of_count_one {l : List (κ × α)} {id : κ} {x : α} (h : (id, x) ∈ l)
    (hc : (ids l).count id ≤ 1) : llFind l id = some x := by
  obtain ⟨y, hy⟩ := Option.isSome_iff_exists.mp
    (llFind_isSome_iff.mpr (mem_ids_of_mem h : id ∈ ids l))
  rcases List.mem_cons.mp ((llDel_perm hy).mem_iff.mp h) with he | he
  · rw [hy, (Prod.mk.inj he).2]
  · have h1 : 0 < (ids (llDel l id)).count id := List.count_pos_iff.mpr (mem_ids_of_mem he)
    rw [count_llDel, if_pos rfl] at h1
    omega

theorem llFind_llAdd (l : List (κ × α)) (id k : κ) (x : α) :
    llFind (llAdd l id x) k = (llFind l k).or (if id = k then some x else none) := by
  induction l with
  | nil => rfl
  | cons p l ih =>
    obtain ⟨k', y⟩ := p
    show (if k' = k then some y else llFind (llAdd l id x) k) =
      (if k' = k then some y else llFind l k).or _
    by_cases hk : k' = k
    · rw [if_pos hk, if_pos hk, Option.some_or]
    · rw [if_neg hk, if_neg hk, ih]

theorem llFind_llDel_of_ne (l : List (κ × α)) {id k : κ} (h : k ≠ id) :
    llFind (llDel l id) k = llFind l k := by
  induction l with
  | nil => rfl
  | cons p l ih =>
    obtain ⟨k', y⟩ := p
    show llFind (if k' = id then l else (k', y) :: llDel l id) k =
      if k' = k then some y else llFind l k
    by_cases hid : k' = id
    · rw [if_pos hid, if_neg fun hk => h (hk.symm.trans hid)]
    · rw [if_neg hid]
      show (if k' = k then some y else llFind (llDel l id) k) = _
      rw [ih]

end Multiboot.Lib
