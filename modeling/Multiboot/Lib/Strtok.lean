import Multiboot.Lib.Tokens
import Mathlib.Data.List.TakeWhile

/-!
# Cutting a buffer in place

A text in a buffer ends before the next terminator `z`.  `strtok` looks for the next token from a
position on, writes a terminator behind it and says where to go on; `strtokFold` is the loop around it.
The tokens are those of the text (`strtokFold_tokens`), and nothing behind the text is written
(`strtokFold_frame`), so that a token can itself be cut up while the loop over the row it stands in
goes on.
-/

namespace Multiboot.Lib

variable {α σ : Type*}

theorem drop_of_drop {buf buf' : List α} {m n : ℕ} (h : buf'.drop m = buf.drop m) (hle : m ≤ n) :
    buf'.drop n = buf.drop n := by
  obtain ⟨k, rfl⟩ := Nat.exists_eq_add_of_le hle
  rw [← List.drop_drop, ← List.drop_drop, h]

variable [DecidableEq α] {z : α} {delim : α → Bool}

def textAt (z : α) (buf : List α) (i : ℕ) : List α := (buf.drop i).takeWhile fun c => c ≠ z

/-- One call: where the token starts, the buffer and the position for the next call. -/
def strtok (z : α) (delim : α → Bool) (buf : List α) (save : ℕ) : Option (ℕ × List α × ℕ) :=
  let s := textAt z buf save
  let start := save + (s.takeWhile delim).length
  let w := (s.dropWhile delim).takeWhile fun c => !delim c
  if w = [] then none
  else
    let stop := start + w.length
    -- behind the token is a delimiter, or the text ends
    if stop < save + s.length then some (start, buf.set stop z, stop + 1) else some (start, buf, stop)

/-- `for (p = strtok(s, delim); p; p = strtok(NULL, delim))`, with the body `f`. -/
def strtokFold (z : α) (delim : α → Bool) (f : σ → List α → σ) :
    ℕ → σ → List α → ℕ → σ × List α
  | 0, st, buf, _ => (st, buf)
  | n + 1, st, buf, save =>
    match strtok z delim buf save with
    | none => (st, buf)
    | some (p, buf, save) => strtokFold z delim f n (f st (textAt z buf p)) buf save

/-! ### Texts in a buffer -/

theorem textAt_of_drop {buf buf' : List α} {n i : ℕ} (h : buf'.drop n = buf.drop n) (hle : n ≤ i) :
    textAt z buf' i = textAt z buf i := by
  rw [textAt, textAt, drop_of_drop h hle]

theorem length_textAt_le (buf : List α) (i : ℕ) : (textAt z buf i).length ≤ buf.length :=
  (List.takeWhile_sublist _).length_le.trans (by simp)

/-- The text at a position of a buffer that is written out. -/
theorem textAt_append (pre : List α) {s t : List α} (hs : ∀ c ∈ s, c ≠ z)
    (ht : ∀ c, t.head? = some c → c = z) :
    textAt z (pre ++ (s ++ t)) pre.length = s := by
  rw [textAt, List.drop_left, List.takeWhile_append_of_pos fun c hc => by simpa using hs c hc]
  cases t with
  | nil => rw [List.takeWhile_nil, List.append_nil]
  | cons c t =>
    obtain rfl := ht c rfl
    rw [List.takeWhile_cons_of_neg (by simp), List.append_nil]

/-- The text at the start of a buffer, where a terminator has been written behind `s`. -/
theorem textAt_terminated (s t : List α) :
    textAt z (s ++ z :: t) 0 = s.takeWhile fun c => c ≠ z := by
  rw [textAt, List.drop_zero]
  induction s with
  | nil => simp
  | cons c s ih =>
    by_cases hc : c = z
    · simp [hc]
    · rw [List.cons_append, List.takeWhile_cons_of_pos (by simpa using hc), ih,
        List.takeWhile_cons_of_pos (by simpa using hc)]

/-- A string with its terminator. -/
theorem textAt_string {s : List α} (hs : ∀ c ∈ s, c ≠ z) : textAt z (s ++ [z]) 0 = s :=
  textAt_append [] hs fun _ hc => (Option.some.inj hc).symm

/-- A buffer from a position on: the text, and what begins with the terminator. -/
theorem exists_textAt (buf : List α) (i : ℕ) : ∃ t, buf.drop i = textAt z buf i ++ t ∧
    (∀ c ∈ textAt z buf i, c ≠ z) ∧ ∀ c, t.head? = some c → c = z := by
  refine ⟨(buf.drop i).dropWhile fun c => c ≠ z, ?_, fun c hc => ?_, fun c hc => ?_⟩
  · rw [textAt, List.takeWhile_append_dropWhile]
  · simpa using List.mem_takeWhile_imp hc
  · have hhead := List.head?_dropWhile_not (fun c => decide (c ≠ z)) (buf.drop i)
    rw [hc] at hhead
    simpa using hhead

/-! ### One call -/

theorem strtok_none {buf : List α} {save : ℕ} (h : strtok z delim buf save = none) :
    tokens delim (textAt z buf save) = [] := by
  obtain ⟨r, hsplit, -, hnil⟩ := tokens_split delim (textAt z buf save)
  simp only [strtok] at h
  split_ifs at h with hw
  rw [← List.takeWhile_append_dropWhile (p := delim) (l := textAt z buf save),
    tokens_delims fun c hc => List.mem_takeWhile_imp hc, hsplit, hw, hnil hw, List.append_nil, tokens_nil]

/-- What a call has done: the token stands at `p`, the tokens of the rest at `save'`, and the buffer is
as it was from `save'` on. -/
structure Cut (z : α) (delim : α → Bool) (buf : List α) (save p : ℕ) (buf' : List α) (save' : ℕ) :
    Prop where
  tokens_eq : tokens delim (textAt z buf save) =
    textAt z buf' p :: tokens delim (textAt z buf' save')
  word : Word delim (textAt z buf' p)
  token_le : p + (textAt z buf' p).length ≤ save'
  end_eq : save' + (textAt z buf' save').length = save + (textAt z buf save).length
  frame : buf'.drop save' = buf.drop save'
  lt : save < save'

/-- The delimiter `d` behind the token is overwritten. -/
theorem cut_delim {pre a w r t : List α} {d : α} (ha : ∀ c ∈ a, delim c = true) (hw : Word delim w)
    (hd : delim d = true) (hplain : ∀ c ∈ a ++ (w ++ d :: r), c ≠ z)
    (ht : ∀ c, t.head? = some c → c = z) :
    Cut z delim (pre ++ ((a ++ (w ++ d :: r)) ++ t)) pre.length (pre.length + a.length)
      ((pre ++ a) ++ (w ++ z :: (r ++ t))) (pre.length + a.length + w.length + 1) := by
  have htext := textAt_append pre hplain ht
  have htoken : textAt z ((pre ++ a) ++ (w ++ z :: (r ++ t))) (pre.length + a.length) = w := by
    rw [← List.length_append]
    refine textAt_append _ (fun c hc => hplain c (by simp [hc])) fun c hc => ?_
    exact (Option.some.inj hc).symm
  have hrest : textAt z ((pre ++ a) ++ (w ++ z :: (r ++ t))) (pre.length + a.length + w.length + 1) =
      r := by
    have hsplit : (pre ++ a) ++ (w ++ z :: (r ++ t)) = (pre ++ a ++ w ++ [z]) ++ (r ++ t) := by simp
    have hlen : pre.length + a.length + w.length + 1 = (pre ++ a ++ w ++ [z]).length := by
      simp [Nat.add_assoc]
    rw [hsplit, hlen]
    exact textAt_append _ (fun c hc => hplain c (by simp [hc])) ht
  constructor
  · rw [htext, htoken, hrest, tokens_delims ha, tokens_word_cons hw hd]
  · rwa [htoken]
  · rw [htoken]
    omega
  · rw [hrest, htext]
    simp only [List.length_append, List.length_cons]
    omega
  · have hsplit : pre ++ ((a ++ (w ++ d :: r)) ++ t) = (pre ++ a ++ w ++ [d]) ++ (r ++ t) := by simp
    have hsplit' : (pre ++ a) ++ (w ++ z :: (r ++ t)) = (pre ++ a ++ w ++ [z]) ++ (r ++ t) := by simp
    rw [hsplit, hsplit', List.drop_left' (by simp [Nat.add_assoc]), List.drop_left' (by simp [Nat.add_assoc])]
  · omega

/-- The text ends with the token. -/
theorem cut_end {pre a w t : List α} (ha : ∀ c ∈ a, delim c = true) (hw : Word delim w)
    (hplain : ∀ c ∈ a ++ w, c ≠ z) (ht : ∀ c, t.head? = some c → c = z) :
    Cut z delim (pre ++ ((a ++ w) ++ t)) pre.length (pre.length + a.length)
      (pre ++ ((a ++ w) ++ t)) (pre.length + a.length + w.length) := by
  have htext := textAt_append pre hplain ht
  have htoken : textAt z (pre ++ ((a ++ w) ++ t)) (pre.length + a.length) = w := by
    have hsplit : pre ++ ((a ++ w) ++ t) = (pre ++ a) ++ (w ++ t) := by simp
    rw [hsplit, ← List.length_append]
    exact textAt_append _ (fun c hc => hplain c (List.mem_append_right _ hc)) ht
  have hrest : textAt z (pre ++ ((a ++ w) ++ t)) (pre.length + a.length + w.length) = [] := by
    have hsplit : pre ++ ((a ++ w) ++ t) = (pre ++ a ++ w) ++ ([] ++ t) := by simp
    have hlen : pre.length + a.length + w.length = (pre ++ a ++ w).length := by simp [Nat.add_assoc]
    rw [hsplit, hlen]
    exact textAt_append _ (fun c hc => absurd hc List.not_mem_nil) ht
  have hpos : 0 < w.length := List.length_pos_iff.mpr hw.1
  constructor
  · rw [htext, htoken, hrest, tokens_delims ha, tokens_word hw, tokens_nil]
  · rwa [htoken]
  · rw [htoken]
  · rw [hrest, htext]
    simp only [List.length_append, List.length_nil]
    omega
  · rfl
  · omega

theorem strtok_some {buf buf' : List α} {save p save' : ℕ}
    (h : strtok z delim buf save = some (p, buf', save')) : Cut z delim buf save p buf' save' := by
  obtain ⟨r, hsplit, hhead, -⟩ := tokens_split delim (textAt z buf save)
  obtain ⟨t, hdrop, hplain, ht⟩ := exists_textAt (z := z) buf save
  have hall := List.takeWhile_append_dropWhile (p := delim) (l := textAt z buf save)
  have hdelims : ∀ c ∈ (textAt z buf save).takeWhile delim, delim c = true := fun c hc =>
    List.mem_takeWhile_imp hc
  have hword : ∀ c ∈ ((textAt z buf save).dropWhile delim).takeWhile (fun c => !delim c),
      delim c = false := by
    intro c hc
    simpa using List.mem_takeWhile_imp hc
  simp only [strtok] at h
  rw [hsplit] at hall
  generalize (textAt z buf save).takeWhile delim = a at *
  generalize ((textAt z buf save).dropWhile delim).takeWhile (fun c => !delim c) = w at *
  rw [← hall] at hplain hdrop h
  clear hsplit hall
  by_cases hnil : w = []
  · rw [if_pos hnil] at h
    cases h
  rw [if_neg hnil] at h
  have hw : Word delim w := ⟨hnil, hword⟩
  -- the buffer written out
  have hlen : (buf.take save).length = save := by
    have hne : buf.drop save ≠ [] := by simp [hdrop, hnil]
    rw [List.length_take, Nat.min_eq_left (le_of_lt (by simpa using hne))]
  have hbuf : buf = buf.take save ++ ((a ++ (w ++ r)) ++ t) := by
    rw [← hdrop, List.take_append_drop]
  generalize buf.take save = pre at hlen hbuf
  subst hlen hbuf
  simp only [List.length_append] at h
  cases r with
  | nil =>
    rw [if_neg (by simp only [List.length_nil]; omega)] at h
    simp only [List.append_nil, Option.some.injEq, Prod.mk.injEq] at h hplain
    obtain ⟨rfl, rfl, rfl⟩ := h
    rw [List.append_nil]
    exact cut_end hdelims hw hplain ht
  | cons d r =>
    rw [if_pos (by simp only [List.length_cons]; omega)] at h
    simp only [Option.some.injEq, Prod.mk.injEq] at h
    obtain ⟨rfl, rfl, rfl⟩ := h
    have hset : (pre ++ ((a ++ (w ++ d :: r)) ++ t)).set (pre.length + a.length + w.length) z =
        (pre ++ a) ++ (w ++ z :: (r ++ t)) := by
      have hsplit : pre ++ ((a ++ (w ++ d :: r)) ++ t) = (pre ++ a ++ w) ++ d :: (r ++ t) := by simp
      have hat : pre.length + a.length + w.length = (pre ++ a ++ w).length := by simp [Nat.add_assoc]
      rw [hsplit, hat, List.set_append_right _ _ le_rfl, Nat.sub_self, List.set_cons_zero]
      simp
    rw [hset]
    exact cut_delim hdelims hw (hhead d rfl) hplain ht

/-- A call as it is used: there is a token. -/
theorem strtok_cons {buf : List α} {save : ℕ} {w : List α} {ws : List (List α)}
    (h : tokens delim (textAt z buf save) = w :: ws) : ∃ p buf' save',
      strtok z delim buf save = some (p, buf', save') ∧ textAt z buf' p = w ∧
        tokens delim (textAt z buf' save') = ws ∧ p + w.length ≤ save' := by
  cases hcall : strtok z delim buf save with
  | none =>
    rw [strtok_none hcall] at h
    cases h
  | some cut =>
    obtain ⟨p, buf', save'⟩ := cut
    have hcut := strtok_some hcall
    obtain ⟨hw, hws⟩ := List.cons_eq_cons.mp (hcut.tokens_eq.symm.trans h)
    refine ⟨p, buf', save', rfl, hw, hws, ?_⟩
    rw [← hw]
    exact hcut.token_le

/-- There is none. -/
theorem strtok_nil {buf : List α} {save : ℕ} (h : tokens delim (textAt z buf save) = []) :
    strtok z delim buf save = none := by
  cases hcall : strtok z delim buf save with
  | none => rfl
  | some cut =>
    have htok := (strtok_some hcall).tokens_eq
    rw [h] at htok
    cases htok

/-! ### The loop -/

/-- **The loop goes through the tokens of the text.** -/
theorem strtokFold_tokens (f : σ → List α → σ) {n : ℕ} {buf : List α} {save : ℕ} (st : σ)
    (hn : (textAt z buf save).length < n) :
    (strtokFold z delim f n st buf save).1 = (tokens delim (textAt z buf save)).foldl f st := by
  induction n generalizing st buf save with
  | zero => omega
  | succ n ih =>
    rw [strtokFold]
    cases h : strtok z delim buf save with
    | none => rw [strtok_none h, List.foldl_nil]
    | some cut =>
      obtain ⟨p, buf', save'⟩ := cut
      have hcut := strtok_some h
      have hend := hcut.end_eq
      have hlt := hcut.lt
      rw [hcut.tokens_eq, List.foldl_cons]
      exact ih _ (by omega)

/-- Behind the text the buffer stays as it is. -/
theorem strtokFold_frame (f : σ → List α → σ) (n : ℕ) (st : σ) (buf : List α) (save : ℕ) {m : ℕ}
    (hm : save + (textAt z buf save).length ≤ m) :
    (strtokFold z delim f n st buf save).2.drop m = buf.drop m := by
  induction n generalizing st buf save with
  | zero => rfl
  | succ n ih =>
    rw [strtokFold]
    cases h : strtok z delim buf save with
    | none => rfl
    | some cut =>
      obtain ⟨p, buf', save'⟩ := cut
      have hcut := strtok_some h
      have hend := hcut.end_eq
      rw [ih _ buf' save' (by omega), drop_of_drop hcut.frame (by omega)]

end Multiboot.Lib
