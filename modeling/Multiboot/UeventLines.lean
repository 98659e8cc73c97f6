import Multiboot.UeventFile

/-!
# The lines of a uevent file

`LinesRead` says of the lines of a file what the parser relies on: they fit the buffer, have a key and
a value with one equals sign between them, and one of them names the device.  `appendsOne_iff` says
that such a file is read as it stands and, of the files whose lines fit, no other.  The files of the
kernel are such files if no value has an equals sign (`KernelDev.Ok.linesRead`).
-/

namespace Multiboot

open Lib

/-! ### Lines -/

/-- The lines of a file, each with the newline that ends it. -/
def textLines : CString → List CString
  | [] => []
  | c :: s =>
    if c = '\n' then [c] :: textLines s
    else
      match textLines s with
      | [] => [[c]]
      | line :: lines => (c :: line) :: lines

/-- The line goes into the buffer and its key is not empty. -/
structure Fits (line : CString) : Prop where
  length : line.length ≤ 127
  key : line.head? ≠ some '='

/-- An equals sign, and behind it something else than equals signs. -/
def HasValue (line : CString) : Prop := '=' ∈ lineBody line ∧ ∃ c ∈ lineRest line, c ≠ '='

/-- The value of a line up to another equals sign. -/
def firstPart (line : CString) : CString :=
  ((lineRest line).dropWhile (· == '=')).takeWhile (· != '=')

/-- The last line with a key. -/
def lastLine (key text : CString) : Option CString :=
  ((textLines text).filter (lineKey · == key)).getLast?

/-- The text is no number, or it is `-1`. -/
def NoNumber (value : CString) : Prop := toUnsigned (getInt value) = toUnsigned (-1)

/-- Every line fits and has a value, one names the device, and the value of the last line with a key has
no other equals sign, or it makes no difference where the value ends. -/
structure LinesRead (text : CString) : Prop where
  fits : ∀ line ∈ textLines text, Fits line
  values : ∀ line ∈ textLines text, HasValue line
  named : ∃ line ∈ textLines text, lineKey line = "DEVNAME".toList
  devname : ∀ line ∈ lastLine "DEVNAME".toList text, '=' ∉ lineRest line
  partname : ∀ line ∈ lastLine "PARTNAME".toList text, '=' ∉ lineRest line
  major : ∀ line ∈ lastLine "MAJOR".toList text, '=' ∈ lineRest line →
    NoNumber (copyTrim (firstPart line))
  minor : ∀ line ∈ lastLine "MINOR".toList text, '=' ∈ lineRest line →
    NoNumber (copyTrim (firstPart line))
  type : ∀ line ∈ lastLine DEVTYPE text, '=' ∈ lineRest line →
    ueventType (copyTrim (firstPart line)) = .UNKNOWN

/-- A file is its first line and the rest, or one line without an end. -/
theorem line_induction {P : CString → Prop} (last : ∀ a, '\n' ∉ a → P a)
    (line : ∀ a b, '\n' ∉ a → P b → P (a ++ '\n' :: b)) (text : CString) : P text := by
  induction hn : text.length using Nat.strong_induction_on generalizing text with
  | _ n ih =>
    by_cases h : '\n' ∈ text
    · obtain ⟨a, b, rfl, ha⟩ := List.eq_append_cons_of_mem h
      refine line a b ha (ih b.length ?_ b rfl)
      rw [← hn, List.length_append, List.length_cons]
      omega
    · exact last text h

theorem textLines_line {a : CString} (h : '\n' ∉ a) (b : CString) :
    textLines (a ++ '\n' :: b) = (a ++ ['\n']) :: textLines b := by
  induction a with
  | nil => rw [List.nil_append, textLines, if_pos rfl, List.nil_append]
  | cons c a ih =>
    rw [List.mem_cons, not_or] at h
    rw [List.cons_append, textLines, if_neg (Ne.symm h.1), ih h.2]
    rfl

theorem textLines_last {a : CString} (h : '\n' ∉ a) (hne : a ≠ []) : textLines a = [a] := by
  induction a with
  | nil => exact absurd rfl hne
  | cons c a ih =>
    rw [List.mem_cons, not_or] at h
    rw [textLines, if_neg (Ne.symm h.1)]
    by_cases ha : a = []
    · rw [ha]
      rfl
    · rw [ih h.2 ha]

theorem fgetsLines_last {a : CString} (h : '\n' ∉ a) (hne : a ≠ []) {n : ℕ} (hn : a.length ≤ n) :
    fgetsLines n a = [a] := by
  induction a generalizing n with
  | nil => exact absurd rfl hne
  | cons c a ih =>
    rw [List.mem_cons, not_or] at h
    rw [List.length_cons] at hn
    rw [fgetsLines]
    by_cases ha : a = []
    · rw [ha]
      split_ifs <;> rfl
    · have hpos : 0 < a.length := List.length_pos_iff.mpr ha
      rw [if_neg (not_or.mpr ⟨Ne.symm h.1, by omega⟩), ih h.2 ha (by omega)]

/-- Lines that go into the buffer are read one by one. -/
theorem fgetsLines_eq {text : CString} (h : ∀ line ∈ textLines text, line.length ≤ 127) :
    fgetsLines 127 text = textLines text := by
  induction text using line_induction with
  | last a ha =>
    by_cases hne : a = []
    · rw [hne]
      rfl
    · rw [textLines_last ha hne] at h ⊢
      exact fgetsLines_last ha hne (h a List.mem_cons_self)
  | line a b ha ih =>
    rw [textLines_line ha] at h ⊢
    have hlen := h _ List.mem_cons_self
    rw [List.length_append, List.length_singleton] at hlen
    rw [fgetsLines_line ha (by omega), ih fun line hline => h line (List.mem_cons_of_mem _ hline)]

/-! ### Trimming -/

theorem copyTrim_concat_newline (s : CString) : copyTrim (s ++ ['\n']) = copyTrim s := by
  rw [copyTrim, copyTrim, List.dropWhile_append]
  by_cases h : s.dropWhile isspace = []
  · simp [h, isspace]
  · rw [if_neg (by simpa using h), List.reverse_append, List.reverse_singleton,
      List.singleton_append, List.dropWhile_cons_of_pos (by decide)]

theorem mem_dropWhile_of_not {p : Char → Bool} {s : CString} {c : Char} (hc : c ∈ s)
    (hp : p c = false) : c ∈ s.dropWhile p := by
  rw [← List.takeWhile_append_dropWhile (p := p) (l := s)] at hc
  rcases List.mem_append.mp hc with hc | hc
  · rw [List.mem_takeWhile_imp hc] at hp
    cases hp
  · exact hc

/-- Only blanks are trimmed. -/
theorem mem_copyTrim {s : CString} {c : Char} (hc : isspace c = false) : c ∈ copyTrim s ↔ c ∈ s := by
  rw [copyTrim, List.mem_reverse]
  constructor
  · intro h
    have hmem := (List.dropWhile_sublist isspace).subset h
    exact (List.dropWhile_sublist isspace).subset (List.mem_reverse.mp hmem)
  · intro h
    exact mem_dropWhile_of_not (List.mem_reverse.mpr (mem_dropWhile_of_not h hc)) hc

/-- A text with an equals sign is no number. -/
theorem getInt_of_mem {s : CString} (h : '=' ∈ s) : getInt s = -1 := by
  have hskip : '=' ∈ s.dropWhile isspace := mem_dropWhile_of_not h (by decide)
  have hsign : ∀ t : CString, '=' ∈ t → ∀ b : Bool,
      (b = true → t.head? = some '-' ∨ t.head? = some '+') → '=' ∈ if b then t.tail else t := by
    intro t ht b hb
    cases b with
    | false => exact ht
    | true =>
      cases t with
      | nil => cases ht
      | cons c t =>
        rcases List.mem_cons.mp ht with rfl | ht
        · rcases hb rfl with h | h <;> exact absurd (Option.some.inj h) (by decide)
        · exact ht
  have hne : s ≠ [] := List.ne_nil_of_mem h
  unfold getInt
  extract_lets t neg t' ds
  have ht' : '=' ∈ t' := by
    refine hsign t hskip _ fun hb => ?_
    simpa [neg] using hb
  by_cases hds : ds = []
  · rw [if_pos hds, if_neg hne]
  · rw [if_neg hds, if_pos]
    exact List.ne_nil_of_mem (mem_dropWhile_of_not ht' (by decide))

theorem ueventType_of_mem {s : CString} (h : '=' ∈ s) : ueventType s = .UNKNOWN := by
  rw [ueventType, if_neg, if_neg]
  · rintro rfl
    exact absurd h (by decide)
  · rintro rfl
    exact absurd h (by decide)

/-! ### One line -/

theorem takeWhile_append_of_mem {p : Char → Bool} {a : CString} {c : Char} (hc : c ∈ a)
    (hp : p c = false) (b : CString) :
    (a ++ b).takeWhile p = a.takeWhile p ∧ (a ++ b).dropWhile p = a.dropWhile p ++ b := by
  have hne : a.dropWhile p ≠ [] := List.ne_nil_of_mem (mem_dropWhile_of_not hc hp)
  have hdrop : (a ++ b).dropWhile p = a.dropWhile p ++ b := by
    rw [List.dropWhile_append, if_neg (by simpa using hne)]
  refine ⟨?_, hdrop⟩
  have hsplit := List.takeWhile_append_dropWhile (p := p) (l := a ++ b)
  rw [hdrop, ← List.append_assoc] at hsplit
  have hfront := List.append_cancel_right hsplit
  conv_rhs at hfront => rw [← List.takeWhile_append_dropWhile (p := p) (l := a)]
  exact List.append_cancel_right hfront

/-- The newline makes no difference to what a line says. -/
theorem lineField_newline (a : CString) : lineField (a ++ ['\n']) = lineField a := by
  by_cases hnul : nul ∈ a
  · have hbody : lineBody (a ++ ['\n']) = lineBody a :=
      (takeWhile_append_of_mem hnul (by simp) _).1
    rw [lineField, lineField, lineKey, lineKey, lineRest, lineRest, hbody]
  · have hall : ∀ c ∈ a, (c != nul) = true := fun c hc => by
      have hne : c ≠ nul := fun he => hnul (he ▸ hc)
      simpa using hne
    have hbody : lineBody a = a := List.takeWhile_eq_self_iff.mpr hall
    have hbody' : lineBody (a ++ ['\n']) = a ++ ['\n'] := by
      rw [lineBody, List.takeWhile_append_of_pos hall]
      rfl
    rw [lineField, lineField, lineKey, lineKey, lineRest, lineRest, hbody, hbody']
    by_cases heq : '=' ∈ a
    · obtain ⟨htake, hdrop⟩ := takeWhile_append_of_mem (p := (· != '=')) heq (by simp) ['\n']
      have hne : a.dropWhile (· != '=') ≠ [] :=
        List.ne_nil_of_mem (mem_dropWhile_of_not heq (by simp))
      rw [htake, hdrop, List.tail_append_of_ne_nil hne, copyTrim_concat_newline, if_pos heq,
        if_pos (List.mem_append_left _ heq)]
    · rw [if_neg heq, if_neg]
      rw [List.mem_append, List.mem_singleton]
      exact not_or.mpr ⟨heq, by decide⟩

theorem lineFields_eq (text : CString) : lineFields text = (textLines text).filterMap lineField := by
  rw [lineFields]
  induction text using line_induction with
  | last a ha =>
    rw [List.splitOn_eq_singleton ha]
    by_cases hne : a = []
    · rw [hne]
      rfl
    · rw [textLines_last ha hne]
  | line a b ha ih =>
    rw [List.splitOn_append_cons_self_of_not_mem ha, textLines_line ha, List.filterMap_cons,
      List.filterMap_cons, lineField_newline, ih]

/-- A line with a key and a value, at its first equals sign. -/
theorem lineBody_split {line : CString} (h : '=' ∈ lineBody line) :
    lineBody line = (lineBody line).takeWhile (· != '=') ++ '=' :: lineRest line := by
  have hsplit := List.takeWhile_append_dropWhile (p := (· != '=')) (l := lineBody line)
  have hrest : (lineBody line).dropWhile (· != '=') = '=' :: lineRest line := by
    have hmem : '=' ∈ (lineBody line).dropWhile (· != '=') := mem_dropWhile_of_not h (by decide)
    have hhead := List.head?_dropWhile_not (· != '=') (lineBody line)
    rw [lineRest]
    cases hd : (lineBody line).dropWhile (· != '=') with
    | nil =>
      rw [hd] at hmem
      cases hmem
    | cons c r =>
      rw [hd] at hhead
      have hc : c = '=' := by simpa using hhead
      rw [hc, List.tail_cons]
  rw [hrest] at hsplit
  exact hsplit.symm

/-- The first token of a text that has one. -/
theorem tokens_first {s : CString} (h : ∃ c ∈ s, c ≠ '=') :
    ∃ rest, tokens (· == '=') s = (s.dropWhile (· == '=')).takeWhile (· != '=') :: rest := by
  obtain ⟨c, hc, hne⟩ := h
  have hmem : c ∈ s.dropWhile (· == '=') := mem_dropWhile_of_not hc (by simpa using hne)
  have hskip : tokens (· == '=') s = tokens (· == '=') (s.dropWhile (· == '=')) := by
    have hall : ∀ c ∈ s.takeWhile (· == '='), (c == '=') = true := fun c hc =>
      List.mem_takeWhile_imp (p := (· == '=')) hc
    have hdelims := tokens_delims hall (s.dropWhile (· == '='))
    rwa [List.takeWhile_append_dropWhile] at hdelims
  obtain ⟨r, hsplit, hhead, hnil⟩ := tokens_split (· == '=') s
  have hword : Word (· == '=') ((s.dropWhile (· == '=')).takeWhile (· != '=')) := by
    refine ⟨fun hw => ?_, fun c hc => ?_⟩
    · rw [hnil hw, List.append_nil] at hsplit
      rw [hsplit.trans hw] at hmem
      cases hmem
    · simpa using List.mem_takeWhile_imp (p := (· != '=')) hc
  obtain ⟨rest, hrest⟩ := tokens_word_append hword hhead
  exact ⟨rest, hskip.trans ((congrArg (tokens (· == '=')) hsplit).trans hrest)⟩

/-- A line whose key is not empty is cut at its first two equals signs. -/
theorem pieceField_line {line : CString} (hhead : line.head? ≠ some '=') (f : CString × CString) :
    pieceField line = some f ↔ HasValue line ∧ f = (lineKey line, copyTrim (firstPart line)) := by
  have hbody : (line.takeWhile fun c => c ≠ nul) = lineBody line := by
    refine congrArg (List.takeWhile · line) (funext fun c => ?_)
    by_cases hc : c = nul <;> simp [hc]
  rw [pieceField_tokens, hbody]
  by_cases heq : '=' ∈ lineBody line
  · have hname : Word (· == '=') ((lineBody line).takeWhile (· != '=')) := by
      refine ⟨fun hw => hhead ?_, fun c hc => ?_⟩
      · -- the body would begin with the equals sign
        have hsplit := lineBody_split heq
        rw [hw, List.nil_append, lineBody] at hsplit
        cases line with
        | nil => cases hsplit
        | cons c l =>
          rw [List.takeWhile_cons] at hsplit
          split_ifs at hsplit
          rw [(List.cons.inj hsplit).1, List.head?_cons]
      · simpa using List.mem_takeWhile_imp (p := (· != '=')) hc
    have htok : tokens (· == '=') (lineBody line) =
        (lineBody line).takeWhile (· != '=') :: tokens (· == '=') (lineRest line) :=
      (congrArg (tokens (· == '=')) (lineBody_split heq)).trans (tokens_word_cons hname rfl _)
    rw [htok]
    by_cases hval : ∃ c ∈ lineRest line, c ≠ '='
    · obtain ⟨rest, hrest⟩ := tokens_first hval
      rw [hrest]
      simp only [Option.some.injEq, HasValue, heq, hval, and_self, true_and]
      exact eq_comm
    · have hall : ∀ c ∈ lineRest line, (c == '=') = true := by
        intro c hc
        by_contra hne
        exact hval ⟨c, hc, by simpa using hne⟩
      have hnone : tokens (· == '=') (lineRest line) = [] := by
        have hdelims := tokens_delims hall []
        rwa [List.append_nil, tokens_nil] at hdelims
      rw [hnone]
      simp [HasValue, hval]
  · have hfew : tokens (· == '=') (lineBody line) = [] ∨
        tokens (· == '=') (lineBody line) = [lineBody line] := by
      by_cases hnil : lineBody line = []
      · exact Or.inl (by rw [hnil, tokens_nil])
      · refine Or.inr (tokens_word ⟨hnil, fun c hc => ?_⟩)
        have hne : c ≠ '=' := fun h => heq (h ▸ hc)
        simpa using hne
    rcases hfew with h | h <;> simp [h, HasValue, heq]

/-! ### A whole file -/

theorem mapM_pieceField {lines : List CString} (h : ∀ line ∈ lines, line.head? ≠ some '=')
    (fields : List (CString × CString)) : lines.mapM pieceField = some fields ↔
      (∀ line ∈ lines, HasValue line) ∧
        fields = lines.map fun line => (lineKey line, copyTrim (firstPart line)) := by
  induction lines generalizing fields with
  | nil =>
    rw [List.mapM_nil]
    simp [eq_comm]
  | cons line lines ih =>
    have hline := pieceField_line (h line List.mem_cons_self)
    have hlines := ih fun line hl => h line (List.mem_cons_of_mem _ hl)
    rw [List.mapM_cons, List.forall_mem_cons, List.map_cons]
    simp only [Option.bind_eq_bind, Option.bind_eq_some_iff, Option.pure_def, Option.some.injEq]
    constructor
    · rintro ⟨field, hfield, rest, hrest, rfl⟩
      obtain ⟨hvalue, rfl⟩ := (hline field).mp hfield
      obtain ⟨hvalues, rfl⟩ := (hlines rest).mp hrest
      exact ⟨⟨hvalue, hvalues⟩, rfl⟩
    · rintro ⟨⟨hvalue, hvalues⟩, rfl⟩
      exact ⟨_, (hline _).mpr ⟨hvalue, rfl⟩, _, (hlines _).mpr ⟨hvalues, rfl⟩, rfl⟩

theorem pieceFields_eq_some_iff {text : CString} (h : ∀ line ∈ textLines text, Fits line)
    (fields : List (CString × CString)) : pieceFields text = some fields ↔
      (∀ line ∈ textLines text, HasValue line) ∧
        fields = (textLines text).map fun line => (lineKey line, copyTrim (firstPart line)) := by
  rw [pieceFields, fgetsLines_eq fun line hl => (h line hl).length]
  exact mapM_pieceField (fun line hl => (h line hl).key) fields

theorem lineFields_of_values {text : CString} (h : ∀ line ∈ textLines text, HasValue line) :
    lineFields text = (textLines text).map fun line => (lineKey line, copyTrim (lineRest line)) := by
  rw [lineFields_eq, ← List.filterMap_eq_map]
  exact List.filterMap_congr fun line hl => if_pos (h line hl).1

theorem lastOf_map (key text : CString) (value : CString → CString) :
    lastOf key ((textLines text).map fun line => (lineKey line, value line)) =
      (lastLine key text).map value := by
  rw [lastOf, lastLine, List.filter_map, List.getLast?_map, Option.map_map]
  rfl

/-- Without another equals sign the value is kept. -/
theorem firstPart_eq {line : CString} (h : '=' ∉ lineRest line) : firstPart line = lineRest line := by
  have hne : ∀ c ∈ lineRest line, c ≠ '=' := fun c hc he => h (he ▸ hc)
  have hdrop : (lineRest line).dropWhile (· == '=') = lineRest line := by
    refine List.dropWhile_eq_self_iff.mpr fun hpos => ?_
    simpa using hne _ (List.getElem_mem hpos)
  rw [firstPart, hdrop]
  exact List.takeWhile_eq_self_iff.mpr fun c hc => by simpa using hne c hc

theorem not_mem_firstPart (line : CString) : '=' ∉ firstPart line := fun h => by
  simpa using List.mem_takeWhile_imp (p := (· != '=')) h

/-- A name is cut at another equals sign. -/
theorem copyTrim_firstPart_iff (line : CString) :
    copyTrim (firstPart line) = copyTrim (lineRest line) ↔ '=' ∉ lineRest line := by
  constructor
  · intro h hmem
    have hcut : '=' ∈ copyTrim (firstPart line) := by
      rw [h]
      exact (mem_copyTrim (by decide)).mpr hmem
    exact not_mem_firstPart line ((mem_copyTrim (by decide)).mp hcut)
  · intro h
    rw [firstPart_eq h]

theorem string_agrees_iff (last : Option CString) :
    last.map (fun line => copyTrim (firstPart line)) =
        last.map (fun line => copyTrim (lineRest line)) ↔
      ∀ line ∈ last, '=' ∉ lineRest line := by
  cases last with
  | none => simp
  | some line => simp [copyTrim_firstPart_iff]

theorem number_agrees_iff (last : Option CString) :
    numberOf (last.map fun line => copyTrim (firstPart line)) =
        numberOf (last.map fun line => copyTrim (lineRest line)) ↔
      ∀ line ∈ last, '=' ∈ lineRest line → NoNumber (copyTrim (firstPart line)) := by
  cases last with
  | none => simp
  | some line =>
    simp only [Option.map_some, Option.mem_some_iff, forall_eq', numberOf, Option.getD_some]
    by_cases h : '=' ∈ lineRest line
    · rw [getInt_of_mem ((mem_copyTrim (by decide)).mpr h)]
      simp [h, NoNumber]
    · simp [h, firstPart_eq h]

theorem type_agrees_iff (last : Option CString) :
    typeOf (last.map fun line => copyTrim (firstPart line)) =
        typeOf (last.map fun line => copyTrim (lineRest line)) ↔
      ∀ line ∈ last, '=' ∈ lineRest line → ueventType (copyTrim (firstPart line)) = .UNKNOWN := by
  cases last with
  | none => simp
  | some line =>
    simp only [Option.map_some, Option.mem_some_iff, forall_eq', typeOf, Option.getD_some]
    by_cases h : '=' ∈ lineRest line
    · rw [ueventType_of_mem ((mem_copyTrim (by decide)).mpr h)]
      simp [h]
    · simp [h, firstPart_eq h]

theorem isSome_lastLine_iff (key text : CString) :
    (lastLine key text).isSome ↔ ∃ line ∈ textLines text, lineKey line = key := by
  rw [lastLine, List.getLast?_isSome, ne_eq, List.filter_eq_nil_iff]
  simp

/-- The pieces agree with the lines if the values are kept. -/
theorem agree_iff (text : CString) :
    Agree ((textLines text).map fun line => (lineKey line, copyTrim (firstPart line)))
        ((textLines text).map fun line => (lineKey line, copyTrim (lineRest line))) ↔
      (∀ line ∈ lastLine "MAJOR".toList text, '=' ∈ lineRest line →
        NoNumber (copyTrim (firstPart line))) ∧
      (∀ line ∈ lastLine "MINOR".toList text, '=' ∈ lineRest line →
        NoNumber (copyTrim (firstPart line))) ∧
      (∀ line ∈ lastLine "DEVNAME".toList text, '=' ∉ lineRest line) ∧
      (∀ line ∈ lastLine "PARTNAME".toList text, '=' ∉ lineRest line) ∧
      ∀ line ∈ lastLine DEVTYPE text, '=' ∈ lineRest line →
        ueventType (copyTrim (firstPart line)) = .UNKNOWN := by
  rw [← number_agrees_iff, ← number_agrees_iff, ← string_agrees_iff, ← string_agrees_iff,
    ← type_agrees_iff]
  constructor
  · rintro ⟨h1, h2, h3, h4, h5⟩
    simp only [lastOf_map] at h1 h2 h3 h4 h5
    exact ⟨h1, h2, h3, h4, h5⟩
  · rintro ⟨h1, h2, h3, h4, h5⟩
    constructor <;> simpa only [lastOf_map]

/-- **When a file is read as it stands.**  A file whose lines have values, of which one names the device
and the last one with each key is kept, adds one entry with the values of its lines; and of the files
whose lines fit, no other does. -/
theorem appendsOne_iff (info : List UeventEntry) (file : Option CString) :
    (AppendsOne info file ∧ ∀ text, file = some text → ∀ line ∈ textLines text, Fits line) ↔
      ∀ text, file = some text → LinesRead text := by
  cases file with
  | none => exact ⟨fun _ => nofun, fun _ => ⟨rfl, nofun⟩⟩
  | some text =>
    simp only [Option.some.injEq, forall_eq', appendsOne_iff_agree]
    constructor
    · rintro ⟨⟨fields, hfields, hdev, hagree⟩, hfits⟩
      obtain ⟨hvalues, rfl⟩ := (pieceFields_eq_some_iff hfits fields).mp hfields
      rw [lineFields_of_values hvalues] at hagree
      obtain ⟨hmajor, hminor, hdevname, hpartname, htype⟩ := (agree_iff text).mp hagree
      rw [lastOf_map, Option.isSome_map, isSome_lastLine_iff] at hdev
      exact ⟨hfits, hvalues, hdev, hdevname, hpartname, hmajor, hminor, htype⟩
    · intro h
      refine ⟨⟨_, (pieceFields_eq_some_iff h.fits _).mpr ⟨h.values, rfl⟩, ?_, ?_⟩, h.fits⟩
      · rw [lastOf_map, Option.isSome_map, isSome_lastLine_iff]
        exact h.named
      · rw [lineFields_of_values h.values]
        exact (agree_iff text).mpr ⟨h.major, h.minor, h.devname, h.partname, h.type⟩

/-- A line that does not fit. -/
def longLine : CString := "DEVNAME=sda\nPARTNAME=".toList ++ List.replicate 120 'a' ++ ['\n']

/-- A line without a value stops the parser, so do a file that does not name the device and a line that
is read in two pieces, and a value with an equals sign is cut. -/
theorem uevent_not_read :
    addUeventEntryTo [] (some "DEVNAME=sda\nPARTNAME=".toList) = none ∧
    addUeventEntryTo [] (some "MAJOR=8\nMINOR=1\n".toList) = none ∧
    addUeventEntryTo [] (some longLine) = none ∧
    ¬ AppendsOne [] (some "DEVNAME=sda\nPARTNAME=a=b\n".toList) ∧
    addUeventEntryTo [] (some "DEVNAME=sda\nPARTNAME=a=b\n".toList) =
      some (0, [⟨⟨0, 0, 0, 0, some "sda".toList, some "a".toList⟩, .UNKNOWN⟩]) := by
  have hcut : addUeventEntryTo [] (some "DEVNAME=sda\nPARTNAME=a=b\n".toList) =
      some (0, [⟨⟨0, 0, 0, 0, some "sda".toList, some "a".toList⟩, .UNKNOWN⟩]) := by decide
  refine ⟨by decide, by decide, by decide +kernel, ?_, hcut⟩
  rintro ⟨event, hadd, hhas⟩
  rw [hcut] at hadd
  obtain rfl := List.singleton_inj.mp (Prod.mk.inj (Option.some.inj hadd)).2
  exact absurd hhas.partname (by decide)

/-! ### The files of the kernel -/

/-- A line with one equals sign, behind a name, and no NUL. -/
structure SimpleLine (kv : CString × CString) : Prop extends PlainLine kv where
  noEq : '=' ∉ kv.2
  noNul : nul ∉ kv.1 ∧ nul ∉ kv.2

section

variable {kv : CString × CString} (h : SimpleLine kv)

include h

theorem SimpleLine.lineBody : lineBody (ueventLine kv) = kv.1 ++ '=' :: (kv.2 ++ ['\n']) := by
  refine List.takeWhile_eq_self_iff.mpr fun c hc => ?_
  have hne : c ≠ nul := by
    rintro rfl
    have hmem : nul ∈ kv.1 ++ '=' :: (kv.2 ++ ['\n']) := hc
    simp only [List.mem_append, List.mem_cons, List.not_mem_nil, or_false] at hmem
    rcases hmem with hc | hc | hc | hc
    · exact h.noNul.1 hc
    · cases hc
    · exact h.noNul.2 hc
    · cases hc
  simpa using hne

theorem SimpleLine.noEq_key : ∀ c ∈ kv.1, (c != '=') = true := fun c hc => by
  have hplain := h.name.2 c hc
  simp only [plainChar, Bool.and_eq_true] at hplain
  exact hplain.2

theorem SimpleLine.lineKey : lineKey (ueventLine kv) = kv.1 := by
  rw [Multiboot.lineKey, h.lineBody, List.takeWhile_append_of_pos h.noEq_key]
  simp [copyTrim_plain h.name.1 h.name.2]

theorem SimpleLine.lineRest : lineRest (ueventLine kv) = kv.2 ++ ['\n'] := by
  rw [Multiboot.lineRest, h.lineBody, List.dropWhile_append_of_pos h.noEq_key]
  simp

theorem SimpleLine.one_equals : '=' ∉ Multiboot.lineRest (ueventLine kv) := by
  rw [h.lineRest, List.mem_append, List.mem_singleton]
  exact not_or.mpr ⟨h.noEq, by decide⟩

theorem SimpleLine.fits : Fits (ueventLine kv) where
  length := by
    have hlen := h.length
    simp only [ueventLine, List.length_append, List.length_cons, List.length_nil]
    omega
  key := by
    obtain ⟨hne, hplain⟩ := h.name
    rw [ueventLine, List.head?_append_of_ne_nil _ hne]
    intro hhead
    have heq := h.noEq_key '=' (List.mem_of_head? hhead)
    simp at heq

theorem SimpleLine.hasValue : HasValue (ueventLine kv) := by
  refine ⟨?_, '\n', ?_, by decide⟩
  · rw [h.lineBody]
    simp
  · rw [h.lineRest]
    simp

end

theorem textLines_text {lines : List (CString × CString)} (h : ∀ kv ∈ lines, SimpleLine kv) :
    textLines (lines.flatMap ueventLine) = lines.map ueventLine := by
  induction lines with
  | nil => rfl
  | cons kv lines ih =>
    have hsplit : (kv :: lines).flatMap ueventLine =
        (kv.1 ++ '=' :: kv.2) ++ '\n' :: lines.flatMap ueventLine := by
      simp [ueventLine]
    rw [hsplit, textLines_line (h kv List.mem_cons_self).no_newline,
      ih fun kv' hkv => h kv' (List.mem_cons_of_mem _ hkv), List.map_cons]
    simp [ueventLine]

/-- The file of a device is read as it stands, if its values have no equals sign and no NUL. -/
theorem KernelDev.Ok.linesRead {d : KernelDev} (h : d.Ok)
    (hvalues : ∀ kv ∈ d.lines, '=' ∉ kv.2 ∧ nul ∉ kv.1 ∧ nul ∉ kv.2) : LinesRead d.text := by
  have hsimple : ∀ kv ∈ d.lines, SimpleLine kv := fun kv hkv =>
    ⟨h.plainLines kv hkv, (hvalues kv hkv).1, (hvalues kv hkv).2⟩
  have hlines : textLines d.text = d.lines.map ueventLine := textLines_text hsimple
  have hall : ∀ line ∈ textLines d.text,
      Fits line ∧ HasValue line ∧ '=' ∉ lineRest line := by
    intro line hline
    rw [hlines] at hline
    obtain ⟨kv, hkv, rfl⟩ := List.mem_map.mp hline
    exact ⟨(hsimple kv hkv).fits, (hsimple kv hkv).hasValue, (hsimple kv hkv).one_equals⟩
  have hlast : ∀ key, ∀ line ∈ lastLine key d.text, '=' ∉ lineRest line := by
    intro key line hline
    exact (hall line (List.mem_filter.mp (List.mem_of_getLast? hline)).1).2.2
  have hdev : ("DEVNAME".toList, d.devname) ∈ d.lines :=
    List.mem_append_left _ (List.mem_append_left _ (List.mem_append_left _
      (List.mem_cons_of_mem _ (List.mem_cons_of_mem _ List.mem_cons_self))))
  refine ⟨fun line hl => (hall line hl).1, fun line hl => (hall line hl).2.1, ?_, hlast _, hlast _,
    fun line hl heq => absurd heq (hlast _ line hl), fun line hl heq => absurd heq (hlast _ line hl),
    fun line hl heq => absurd heq (hlast _ line hl)⟩
  rw [hlines]
  exact ⟨_, List.mem_map_of_mem hdev, (hsimple _ hdev).lineKey⟩

end Multiboot
