import Mathlib.Data.List.Basic

/-!
# Tokens

`tokens delim s` are the results of calling `strtok` on a text until it is used up: the longest pieces
without delimiters, none of them empty.  The facts used elsewhere say what the tokens of texts are
that are put together at a delimiter (`tokens_append_cons`) and of a row of words
(`tokens_row`), and that only delimiters get lost (`flatten_tokens`).
-/

namespace Multiboot.Lib

variable {α : Type*} {delim : α → Bool}

def tokens (delim : α → Bool) (s : List α) : List (List α) :=
  (s.splitOnP delim).filter fun t => !t.isEmpty

/-- A piece that `strtok` takes as a whole. -/
def Word (delim : α → Bool) (w : List α) : Prop := w ≠ [] ∧ ∀ c ∈ w, delim c = false

instance (w : List α) : Decidable (Word delim w) := inferInstanceAs (Decidable (_ ∧ _))

@[simp] theorem tokens_nil : tokens delim [] = [] := by
  simp [tokens, List.splitOnP_nil]

theorem tokens_append_cons {d : α} (hd : delim d = true) (a b : List α) :
    tokens delim (a ++ d :: b) = tokens delim a ++ tokens delim b := by
  rw [tokens, List.splitOnP_append_cons _ _ hd, List.filter_append, tokens, tokens]

theorem tokens_cons {d : α} (hd : delim d = true) (b : List α) :
    tokens delim (d :: b) = tokens delim b := by
  have h := tokens_append_cons hd [] b
  rwa [List.nil_append, tokens_nil, List.nil_append] at h

theorem tokens_word {w : List α} (h : Word delim w) : tokens delim w = [w] := by
  rw [tokens, List.splitOnP_eq_singleton h.2]
  cases w with
  | nil => exact absurd rfl h.1
  | cons c w => rfl

theorem tokens_word_cons {w : List α} (h : Word delim w) {d : α} (hd : delim d = true) (b : List α) :
    tokens delim (w ++ d :: b) = w :: tokens delim b := by
  rw [tokens_append_cons hd, tokens_word h, List.singleton_append]

/-- A word at the start of a text, which ends there or goes on with a delimiter. -/
theorem tokens_word_append {w b : List α} (h : Word delim w)
    (hb : ∀ c, b.head? = some c → delim c = true) : ∃ rest, tokens delim (w ++ b) = w :: rest := by
  cases b with
  | nil => exact ⟨[], by rw [List.append_nil, tokens_word h]⟩
  | cons c b => exact ⟨_, tokens_word_cons h (hb c rfl) b⟩

/-- A row of words, each followed by a delimiter. -/
theorem tokens_row {d : α} (hd : delim d = true) {ws : List (List α)} (h : ∀ w ∈ ws, Word delim w)
    (b : List α) : tokens delim (ws.flatMap (fun w => w ++ [d]) ++ b) = ws ++ tokens delim b := by
  induction ws with
  | nil => rfl
  | cons w ws ih =>
    rw [List.flatMap_cons, List.append_assoc, List.append_assoc, List.singleton_append,
      tokens_word_cons (h w List.mem_cons_self) hd,
      ih fun v hv => h v (List.mem_cons_of_mem _ hv), List.cons_append]

theorem tokens_delims {a : List α} (h : ∀ c ∈ a, delim c = true) (s : List α) :
    tokens delim (a ++ s) = tokens delim s := by
  induction a with
  | nil => rfl
  | cons c a ih =>
    rw [List.cons_append, tokens_cons (h c List.mem_cons_self),
      ih fun d hd => h d (List.mem_cons_of_mem _ hd)]

/-- A text up to its first token: delimiters, the token, and a rest that starts with a delimiter. -/
theorem tokens_split (delim : α → Bool) (s : List α) :
    ∃ r, s.dropWhile delim = (s.dropWhile delim).takeWhile (fun c => !delim c) ++ r ∧
      (∀ c, r.head? = some c → delim c = true) ∧
      ((s.dropWhile delim).takeWhile (fun c => !delim c) = [] → r = []) := by
  have hsplit := List.takeWhile_append_dropWhile (p := fun c => !delim c) (l := s.dropWhile delim)
  have hhead : ∀ c, ((s.dropWhile delim).dropWhile fun c => !delim c).head? = some c →
      delim c = true := by
    intro c hc
    have h := List.head?_dropWhile_not (fun c => !delim c) (s.dropWhile delim)
    rw [hc] at h
    simpa using h
  refine ⟨_, hsplit.symm, hhead, fun hnil => ?_⟩
  rw [hnil, List.nil_append] at hsplit
  rw [hsplit] at hhead ⊢
  cases hs : s.dropWhile delim with
  | nil => rfl
  | cons c r =>
    have hnot : delim c = false := by simpa [hs] using List.head?_dropWhile_not delim s
    rw [hhead c (by rw [hs]; rfl)] at hnot
    cases hnot

theorem not_delim_of_mem_splitOnP {s : List α} :
    ∀ t ∈ s.splitOnP delim, ∀ c ∈ t, delim c = false := by
  induction s with
  | nil => simp [List.splitOnP_nil]
  | cons x s ih =>
    intro t ht
    rw [List.splitOnP_cons_eq_if_modifyHead] at ht
    split_ifs at ht with hx
    · rcases List.mem_cons.mp ht with rfl | ht
      · simp
      · exact ih t ht
    · obtain ⟨u, us, hu⟩ := List.exists_cons_of_ne_nil (List.splitOnP_ne_nil delim s)
      rw [hu] at ht ih
      rcases List.mem_cons.mp ht with rfl | ht
      · intro c hc
        rcases List.mem_cons.mp hc with rfl | hc
        · simpa using hx
        · exact ih u List.mem_cons_self c hc
      · exact ih t (List.mem_cons_of_mem _ ht)

/-- Every token is a word. -/
theorem word_of_mem_tokens {s t : List α} (h : t ∈ tokens delim s) : Word delim t := by
  obtain ⟨ht, hne⟩ := List.mem_filter.mp h
  exact ⟨by simpa using hne, not_delim_of_mem_splitOnP t ht⟩

/-- A text with anything but delimiters has a token. -/
theorem tokens_ne_nil {s : List α} {c : α} (hc : c ∈ s) (h : delim c = false) :
    tokens delim s ≠ [] := by
  induction s with
  | nil => cases hc
  | cons x s ih =>
    by_cases hx : delim x = true
    · rw [tokens_cons hx]
      rcases List.mem_cons.mp hc with rfl | hc
      · rw [h] at hx
        cases hx
      · exact ih hc
    · obtain ⟨u, us, hu⟩ := List.exists_cons_of_ne_nil (List.splitOnP_ne_nil delim s)
      rw [tokens, List.splitOnP_cons_eq_if_modifyHead, if_neg hx, hu]
      simp

theorem Word.mono {delim' : α → Bool} {w : List α} (h : Word delim w)
    (hle : ∀ c, delim' c = true → delim c = true) : Word delim' w := by
  refine ⟨h.1, fun c hc => ?_⟩
  by_contra hne
  have hdelim := hle c (by simpa using hne)
  rw [h.2 c hc] at hdelim
  cases hdelim

theorem flatten_splitOnP (delim : α → Bool) (s : List α) :
    (s.splitOnP delim).flatten = s.filter fun c => !delim c := by
  induction s with
  | nil => simp [List.splitOnP_nil]
  | cons c s ih =>
    rw [List.splitOnP_cons_eq_if_modifyHead]
    by_cases hc : delim c = true
    · rw [if_pos hc, List.flatten_cons, List.nil_append, ih,
        List.filter_cons_of_neg (by rw [hc]; decide)]
    · obtain ⟨u, us, hu⟩ := List.exists_cons_of_ne_nil (List.splitOnP_ne_nil delim s)
      rw [hu, List.flatten_cons] at ih
      rw [if_neg hc, hu, List.modifyHead_cons, List.flatten_cons, List.cons_append, ih,
        List.filter_cons_of_pos (by simpa using hc)]

/-- The tokens together are the text without the delimiters. -/
theorem flatten_tokens (delim : α → Bool) (s : List α) :
    (tokens delim s).flatten = s.filter fun c => !delim c := by
  rw [tokens, List.flatten_filter_not_isEmpty, flatten_splitOnP]

theorem mem_of_mem_tokens {s t : List α} (h : t ∈ tokens delim s) {c : α} (hc : c ∈ t) : c ∈ s := by
  have hflat : c ∈ (tokens delim s).flatten := List.mem_flatten_of_mem h hc
  rw [flatten_tokens] at hflat
  exact (List.mem_filter.mp hflat).1

end Multiboot.Lib
