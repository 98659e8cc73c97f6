import Multiboot.Uevent
import Multiboot.Fstab
import Multiboot.Lib.Tokens
import Mathlib.Data.List.TakeWhile

/-!
# Reading an fstab

`doFsMgrReadFstab` reads a file in one of two formats.  A line counts if it has a character other than
white space and the first of them is not `#`, but its columns are cut only at spaces and tabs: a
column may consist of other white space.
-/

namespace Multiboot

open Lib

/-! ### Flags -/

/-- The table `fs_mgr_flags`. -/
def fsMgrFlagList : List (CString × ℕ) :=
  [("wait".toList, 0x1), ("check".toList, 0x2), ("encryptable=".toList, 0x4),
    ("nonremovable".toList, 0x8), ("voldmanaged=".toList, 0x10), ("length=".toList, 0x20),
    ("recoveryonly".toList, 0x40), ("swapprio=".toList, 0x80), ("zramsize=".toList, 0x100),
    ("verify".toList, 0x200), ("noemulatedsd".toList, 0x400), ("multiboot".toList, MF_MULTIBOOT),
    ("defaults".toList, 0)]

/-- `parse_flags`: the flags of the names that the parts of the text start with. -/
def parseFlags (fl : List (CString × ℕ)) (flags : CString) : ℕ :=
  (tokens (· == ',') flags).foldl
    (fun f p => f ||| ((fl.find? fun entry => entry.1.isPrefixOf p).map Prod.snd).getD 0) 0

/-! ### Lines -/

/-- The lines `getline` gives, without the newlines. -/
def getLines : CString → List CString
  | [] => []
  | c :: text =>
    if c = '\n' then [] :: getLines text
    else
      match getLines text with
      | [] => [[c]]
      | line :: lines => (c :: line) :: lines

/-- The text of a line ends at a NUL. -/
def lineText (line : CString) : CString := line.takeWhile (· != nul)

/-- The line is no comment and not empty. -/
def isEntry (line : CString) : Bool :=
  match (line.dropWhile isspace).head? with
  | none => false
  | some c => c != '#'

/-- `delim`. -/
def fieldDelim (c : Char) : Bool := c == ' ' || c == '\t'

/-- The columns after the third of a line in TWRP format. -/
def joinColumns (ws : List CString) : Option CString :=
  if ws = [] then none else some (ws.flatMap (· ++ [' ']))

/-- One record (`none`: a column is missing). -/
def readRec (twrp : Bool) (line : CString) : Option FstabCols :=
  match twrp, tokens fieldDelim line with
  | true, mountPoint :: fsType :: blkDevice :: unhandled => some
    { blkDevice := blkDevice
      mountPoint := mountPoint
      fsType := fsType
      fsOptionsUnparsed := some "defaults".toList
      fsMgrFlagsUnparsed := some "defaults".toList
      unhandledColumns := joinColumns unhandled
      fsMgrFlags := 0 }
  | false, blkDevice :: mountPoint :: fsType :: fsOptions :: fsMgrFlags :: _ => some
    { blkDevice := blkDevice
      mountPoint := mountPoint
      fsType := fsType
      fsOptionsUnparsed := some fsOptions
      fsMgrFlagsUnparsed := some fsMgrFlags
      unhandledColumns := none
      fsMgrFlags := parseFlags fsMgrFlagList fsMgrFlags }
  | _, _ => none

/-- The second loop. -/
def readLines (twrp : Bool) : List CString → Option (List FstabCols)
  | [] => some []
  | line :: lines =>
    if isEntry line then do
      let cols ← readRec twrp line
      let recs ← readLines twrp lines
      some (cols :: recs)
    else readLines twrp lines

/-- `do_fs_mgr_read_fstab` (`none`: it returns `NULL`; the file may not open). -/
def doFsMgrReadFstab (twrp : Bool) (file : Option CString) : Option (List FstabCols) := do
  let text ← file
  let lines := (getLines text).map lineText
  -- no entries found in fstab
  if lines.any isEntry then readLines twrp lines else none

/-! ### What is read -/

theorem getLines_line {line : CString} (h : '\n' ∉ line) (rest : CString) :
    getLines (line ++ '\n' :: rest) = line :: getLines rest := by
  induction line with
  | nil => rw [List.nil_append, getLines, if_pos rfl]
  | cons c line ih =>
    have hc : c ≠ '\n' := by
      rintro rfl
      exact h List.mem_cons_self
    rw [List.cons_append, getLines, if_neg hc, ih fun hl => h (List.mem_cons_of_mem _ hl)]

theorem newline_notMem_getLines {text : CString} : ∀ line ∈ getLines text, '\n' ∉ line := by
  induction text with
  | nil => exact fun line hline => absurd hline List.not_mem_nil
  | cons c text ih =>
    intro line hline
    rw [getLines] at hline
    split_ifs at hline with hc
    · rcases List.mem_cons.mp hline with rfl | hline
      · exact List.not_mem_nil
      · exact ih line hline
    · have hc' : '\n' ≠ c := fun h => hc h.symm
      cases hlines : getLines text with
      | nil =>
        rw [hlines] at hline
        obtain rfl := List.mem_singleton.mp hline
        exact fun h => hc' (List.mem_singleton.mp h)
      | cons first lines =>
        rw [hlines] at hline ih
        rcases List.mem_cons.mp hline with rfl | hline
        · rw [List.mem_cons, not_or]
          exact ⟨hc', ih first List.mem_cons_self⟩
        · exact ih line (List.mem_cons_of_mem _ hline)

theorem getLines_flatMap {α : Type*} {ls : List α} {text : α → CString}
    (h : ∀ l ∈ ls, '\n' ∉ text l ∧ nul ∉ text l) :
    (getLines (ls.flatMap fun l => text l ++ ['\n'])).map lineText = ls.map text := by
  induction ls with
  | nil => rfl
  | cons l ls ih =>
    obtain ⟨hnewline, hnul⟩ := h l List.mem_cons_self
    have hline : lineText (text l) = text l := by
      rw [lineText, List.takeWhile_eq_self_iff]
      intro c hc
      rw [bne_iff_ne]
      rintro rfl
      exact hnul hc
    rw [List.flatMap_cons, List.append_assoc, List.singleton_append, getLines_line hnewline,
      List.map_cons, List.map_cons, hline, ih fun l' hl => h l' (List.mem_cons_of_mem _ hl)]

theorem readLines_map {α : Type*} {twrp : Bool} {ls : List α} {text : α → CString}
    {cols : α → FstabCols}
    (h : ∀ l ∈ ls, isEntry (text l) = true → readRec twrp (text l) = some (cols l)) :
    readLines twrp (ls.map text) = some ((ls.filter fun l => isEntry (text l)).map cols) := by
  induction ls with
  | nil => rfl
  | cons l ls ih =>
    have hrest := ih fun l' hl => h l' (List.mem_cons_of_mem _ hl)
    rw [List.map_cons, readLines]
    split_ifs with hentry
    · have hfirst := h l List.mem_cons_self hentry
      simp only [List.filter_cons, hentry, if_true, List.map_cons, hfirst, hrest,
        Option.bind_eq_bind, Option.bind_some]
    · simp only [List.filter_cons, hentry, Bool.false_eq_true, if_false, hrest]

/-- **Reading lines that were written**: every line that counts gives its record. -/
theorem doFsMgrReadFstab_lines {α : Type*} {twrp : Bool} {ls : List α} {text : α → CString}
    {cols : α → FstabCols} (hplain : ∀ l ∈ ls, '\n' ∉ text l ∧ nul ∉ text l)
    (h : ∀ l ∈ ls, isEntry (text l) = true → readRec twrp (text l) = some (cols l)) :
    doFsMgrReadFstab twrp (some (ls.flatMap fun l => text l ++ ['\n'])) =
      if ls.any fun l => isEntry (text l) then
        some ((ls.filter fun l => isEntry (text l)).map cols)
      else none := by
  have hany : (ls.map text).any isEntry = ls.any fun l => isEntry (text l) := List.any_map
  rw [doFsMgrReadFstab, Option.bind_eq_bind, Option.bind_some]
  dsimp only
  rw [getLines_flatMap hplain, hany, readLines_map h]

theorem mem_of_readLines {twrp : Bool} :
    ∀ {lines : List CString} {recs : List FstabCols}, readLines twrp lines = some recs →
      ∀ cols ∈ recs, ∃ line ∈ lines, isEntry line = true ∧ readRec twrp line = some cols
  | [], recs, h, cols, hcols => by
    obtain rfl := Option.some.inj h
    cases hcols
  | line :: lines, recs, h, cols, hcols => by
    rw [readLines] at h
    split_ifs at h with hentry
    · simp only [Option.bind_eq_bind, Option.bind_eq_some_iff] at h
      obtain ⟨first, hfirst, rest, hrest, hrecs⟩ := h
      obtain rfl := Option.some.inj hrecs
      rcases List.mem_cons.mp hcols with rfl | hcols
      · exact ⟨line, List.mem_cons_self, hentry, hfirst⟩
      · obtain ⟨l, hl, hread⟩ := mem_of_readLines hrest cols hcols
        exact ⟨l, List.mem_cons_of_mem _ hl, hread⟩
    · obtain ⟨l, hl, hread⟩ := mem_of_readLines h cols hcols
      exact ⟨l, List.mem_cons_of_mem _ hl, hread⟩

/-- There is a record. -/
theorem ne_nil_of_readLines {twrp : Bool} :
    ∀ {lines : List CString} {recs : List FstabCols}, readLines twrp lines = some recs →
      lines.any isEntry = true → recs ≠ []
  | [], recs, _, hany => by cases hany
  | line :: lines, recs, h, hany => by
    rw [readLines] at h
    split_ifs at h with hentry
    · simp only [Option.bind_eq_bind, Option.bind_eq_some_iff] at h
      obtain ⟨first, -, rest, -, hrecs⟩ := h
      rw [← Option.some.inj hrecs]
      exact List.cons_ne_nil _ _
    · rw [List.any_cons, Bool.not_eq_true _ |>.mp hentry, Bool.false_or] at hany
      exact ne_nil_of_readLines h hany

/-! ### Columns -/

/-- No column has such a character. -/
def endsColumn (c : Char) : Bool := fieldDelim c || c == '\n' || c == nul

theorem endsColumn_iff {c : Char} : endsColumn c = true ↔ c ∈ [' ', '\t', '\n', nul] := by
  simp [endsColumn, fieldDelim, or_assoc]

/-- A text that is read as one column. -/
abbrev Column (w : CString) : Prop := Word endsColumn w

theorem Column.word {w : CString} (h : Column w) : Word fieldDelim w :=
  Word.mono h fun c hc => by simp [endsColumn, hc]

theorem Column.newline {w : CString} (h : Column w) : '\n' ∉ w := fun hmem =>
  absurd (h.2 _ hmem) (by decide)

theorem Column.nul {w : CString} (h : Column w) : nul ∉ w := fun hmem =>
  absurd (h.2 _ hmem) (by decide)

/-- Columns and spaces make a line. -/
theorem plain_of_columns {text : CString} {ws : List CString} (h : ∀ w ∈ ws, Column w)
    (hmem : ∀ c ∈ text, c = ' ' ∨ ∃ w ∈ ws, c ∈ w) : '\n' ∉ text ∧ nul ∉ text := by
  constructor
  · intro hc
    obtain heq | ⟨w, hw, hcw⟩ := hmem _ hc
    · exact absurd heq (by decide)
    · exact Column.newline (h w hw) hcw
  · intro hc
    obtain heq | ⟨w, hw, hcw⟩ := hmem _ hc
    · exact absurd heq (by decide)
    · exact Column.nul (h w hw) hcw

/-- The first character of the columns that is no white space. -/
def opens (ws : List CString) : Option Char := ws.flatten.find? fun c => !isspace c

theorem opens_tokens (line : CString) :
    opens (tokens fieldDelim line) = (line.dropWhile isspace).head? := by
  rw [opens, flatten_tokens, List.find?_filter, ← List.find?_not_eq_head?_dropWhile]
  congr 1
  funext c
  cases hc : fieldDelim c with
  | false => simp
  | true =>
    have hspace : isspace c = true := by
      simp only [fieldDelim, Bool.or_eq_true, beq_iff_eq] at hc
      rcases hc with rfl | rfl <;> decide
    simp [hspace]

theorem isEntry_iff {line : CString} :
    isEntry line = true ↔ ∃ c, opens (tokens fieldDelim line) = some c ∧ c ≠ '#' := by
  rw [isEntry, opens_tokens]
  cases (line.dropWhile isspace).head? with
  | none => simp
  | some c => simp

theorem opens_append (ws vs : List CString) : opens (ws ++ vs) = (opens ws).or (opens vs) := by
  rw [opens, List.flatten_append, List.find?_append, opens, opens]

theorem opens_of_append {ws : List CString} (vs : List CString) {c : Char} (h : opens ws = some c) :
    opens (ws ++ vs) = some c := by
  rw [opens_append, h, Option.some_or]

/-- Columns that start with a slash. -/
theorem opens_slash (w : CString) (ws : List CString) : opens (('/' :: w) :: ws) = some '/' := by
  rw [opens, List.flatten_cons, List.cons_append, List.find?_cons_of_pos (by decide)]

theorem column_of_mem_tokens {line w : CString} (hline : '\n' ∉ line)
    (h : w ∈ tokens fieldDelim (lineText line)) : Column w := by
  have hword := word_of_mem_tokens h
  refine ⟨hword.1, fun c hc => ?_⟩
  have hmem : c ∈ lineText line := mem_of_mem_tokens h hc
  have hnewline : c ≠ '\n' := by
    rintro rfl
    exact hline (List.takeWhile_subset _ hmem)
  have hnul : c ≠ nul := by
    have h := List.mem_takeWhile_imp hmem
    simpa using h
  simp [endsColumn, hword.2 c hc, hnewline, hnul]

end Multiboot
