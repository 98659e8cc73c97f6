import Mathlib.Algebra.Group.Int.Defs
import Multiboot.Lib.Strtok
import Multiboot.ReadFstab

/-!
# `parse_flags`

The function cuts a column at its commas, in place, and looks every token up in a table of names.
`flagsApart_iff` says for which columns a token counts exactly for the flag it names, and
`optionsSurvive_iff` which options of the file system survive the buffer they are collected in.
-/

namespace Multiboot

open Lib

/-! ### The tables -/

def FS_OPTIONS_LEN : ℕ := 1024

def MF_CRYPT : ℕ := 0x4
def MF_VOLDMANAGED : ℕ := 0x10
def MF_LENGTH : ℕ := 0x20
def MF_SWAPPRIO : ℕ := 0x80
def MF_ZRAMSIZE : ℕ := 0x100
def MF_NOEMULATEDSD : ℕ := 0x400

/-- The table `mount_flags`, with the values of `MS_NOATIME` and so on. -/
def mountFlagList : List (CString × ℕ) :=
  [("noatime".toList, 0x400), ("noexec".toList, 0x8), ("nosuid".toList, 0x2), ("nodev".toList, 0x4),
    ("nodiratime".toList, 0x800), ("ro".toList, 0x1), ("rw".toList, 0), ("remount".toList, 0x20),
    ("bind".toList, 0x1000), ("rec".toList, 0x4000), ("unbindable".toList, 0x20000),
    ("private".toList, 0x40000), ("slave".toList, 0x80000), ("shared".toList, 0x100000),
    ("sync".toList, 0x10), ("defaults".toList, 0)]

def fsMgrIsNoemulatedsd (rec : FstabRec) : Bool := rec.fsMgrFlags &&& MF_NOEMULATEDSD != 0

/-! ### The values of flags -/

/-- A `char *`: `NULL`, a copy that this call has made, or whatever was there before. -/
inductive CPtr
  | null
  | own (text : CString)
  | stray
  deriving DecidableEq, Repr

/-- `struct fs_mgr_flag_values`. -/
structure FlagValues where
  keyLoc : CPtr
  partLength : ℤ
  label : CPtr
  partnum : ℤ
  swapPrio : ℤ
  zramSize : ℕ
  deriving DecidableEq, Repr

/-- What `parse_flags` starts with: negative means it was not specified. -/
def FlagValues.notSpecified : FlagValues := ⟨.null, 0, .null, -1, -1, 0⟩

/-- The value of a character as a digit. -/
def digitValue (c : Char) : ℕ :=
  if isdigit c then c.toNat - 48
  else if 97 ≤ c.toNat ∧ c.toNat ≤ 122 then c.toNat - 87
  else if 65 ≤ c.toNat ∧ c.toNat ≤ 90 then c.toNat - 55
  else 36

/-- `strtol(s, NULL, 0)` for an integer type of the given width. -/
def strtol (bits : ℕ) (s : CString) : ℤ :=
  let t := s.dropWhile isspace
  let neg := t.head? == some '-'
  let t := if neg || t.head? == some '+' then t.tail else t
  let hex := (t.take 2 == "0x".toList || t.take 2 == "0X".toList) &&
    ((t.drop 2).head?.map fun c => decide (digitValue c < 16)).getD false
  let base := if hex then 16 else if t.head? == some '0' then 8 else 10
  let ds := (if hex then t.drop 2 else t).takeWhile fun c => digitValue c < base
  let v : ℕ := ds.foldl (fun v c => base * v + digitValue c) 0
  if neg then max (-v) (-2 ^ (bits - 1)) else min v (2 ^ (bits - 1) - 1)

/-- The chain of tests on `fl[i].flag`; `p` is the token. -/
def setValue (flag : ℕ) (p : CString) (vals : FlagValues) : FlagValues :=
  -- `strchr(p, '=') + 1`
  let value := (p.dropWhile (· != '=')).tail
  if flag = MF_CRYPT then { vals with keyLoc := .own value }
  else if flag = MF_LENGTH then { vals with partLength := strtol 64 value }
  else if flag = MF_VOLDMANAGED then
    if ':' ∈ p then
      let part := (p.dropWhile (· != ':')).tail
      { vals with
        label := .own (value.takeWhile (· != ':'))
        partnum := if part = "auto".toList then -1 else strtol 32 part }
    else vals
  else if flag = MF_SWAPPRIO then
    { vals with swapPrio := (BitVec.ofInt 32 (strtol 64 value)).toInt }
  else if flag = MF_ZRAMSIZE then { vals with zramSize := (strtol 64 value % 2 ^ 32).toNat }
  else vals

/-! ### Collecting the options of the file system -/

/-- The text in a buffer, and how many bytes of the buffer have been written at most. -/
structure CBuf where
  text : CString
  written : ℕ
  deriving DecidableEq, Repr

/-- `strlcat`; `size_t` has 32 bits. -/
def strlcat (dst : CBuf) (src : CString) (size : ℕ) : CBuf :=
  let dstlen := dst.text.length
  let size := (size + 2 ^ 32 - (dstlen + 1)) % 2 ^ 32
  -- no room
  if size = 0 then dst
  else
    let srclen := min src.length size
    ⟨dst.text ++ src.take srclen, max dst.written (dstlen + srclen + 1)⟩

/-! ### The loop -/

/-- `flag_vals` and `fs_options` may be `NULL`; `unknown` are the tokens that were not found. -/
structure FlagState where
  f : ℕ
  vals : Option FlagValues
  fsOptions : Option CBuf
  unknown : List CString
  deriving DecidableEq, Repr

/-- The first name that the token starts with. -/
def findFlag (fl : List (CString × ℕ)) (p : CString) : Option (CString × ℕ) :=
  fl.find? fun entry => entry.1.isPrefixOf p

def flagStep (fl : List (CString × ℕ)) (len : ℕ) (st : FlagState) (p : CString) : FlagState :=
  match findFlag fl p with
  | some entry => { st with f := st.f ||| entry.2, vals := st.vals.map (setValue entry.2 p) }
  | none =>
    { st with
      fsOptions := st.fsOptions.map fun buf => strlcat (strlcat buf p len) [','] len
      unknown := st.unknown ++ [p] }

/-- Remove the last trailing comma. -/
def trimComma (buf : CBuf) : CBuf :=
  if buf.text = [] then buf else { buf with text := buf.text.dropLast }

/-- What the loop starts with: the pointers that are not `NULL` are initialised. -/
def FlagState.init (flagVals fsOptions : Bool) : FlagState where
  f := 0
  vals := if flagVals then some .notSpecified else none
  fsOptions := if fsOptions then some ⟨[], 1⟩ else none
  unknown := []

/-- `parse_flags(flags, fl, flag_vals, fs_options, len)`, with `flags` at the position `p` of `buf`:
what it computes, and the buffer after it. -/
def parseFlagsAt (fl : List (CString × ℕ)) (flagVals fsOptions : Bool) (len : ℕ) (buf : List Char)
    (p : ℕ) : FlagState × List Char :=
  let (st, buf) := strtokFold nul (· == ',') (flagStep fl len) (buf.length + 1)
    (.init flagVals fsOptions) buf p
  ({ st with fsOptions := st.fsOptions.map trimComma }, buf)

/-- The tokens of a column. -/
def flagTokens (column : CString) : List CString := tokens (· == ',') column

/-- What `do_fs_mgr_read_fstab` makes of the two flag columns. -/
def mountFlagsOf (column : CString) : FlagState :=
  (parseFlagsAt mountFlagList false true FS_OPTIONS_LEN (column ++ [nul]) 0).1

def fsMgrFlagsOf (column : CString) : FlagState :=
  (parseFlagsAt fsMgrFlagList true false 0 (column ++ [nul]) 0).1

/-! ### What the loop computes -/

theorem foldl_flagStep_unknown (fl : List (CString × ℕ)) (len : ℕ) (toks : List CString)
    (st : FlagState) : (toks.foldl (flagStep fl len) st).unknown =
      st.unknown ++ toks.filter fun tok => (findFlag fl tok).isNone := by
  induction toks generalizing st with
  | nil => simp
  | cons tok toks ih =>
    rw [List.foldl_cons, ih, flagStep]
    cases h : findFlag fl tok with
    | none => simp [h]
    | some entry => simp [h]

theorem or_and_ne_zero (a b m : ℕ) : (a ||| b) &&& m ≠ 0 ↔ a &&& m ≠ 0 ∨ b &&& m ≠ 0 := by
  rw [Nat.and_or_distrib_right, ne_eq, Nat.or_eq_zero_iff, not_and_or]

/-- A bit comes from a token that was found. -/
theorem foldl_flagStep_f (fl : List (CString × ℕ)) (len : ℕ) (toks : List CString) (st : FlagState)
    (m : ℕ) : (toks.foldl (flagStep fl len) st).f &&& m ≠ 0 ↔
      st.f &&& m ≠ 0 ∨ ∃ tok ∈ toks, ∃ entry, findFlag fl tok = some entry ∧ entry.2 &&& m ≠ 0 := by
  induction toks generalizing st with
  | nil => simp
  | cons tok toks ih =>
    rw [List.foldl_cons, ih, flagStep]
    cases h : findFlag fl tok with
    | none => simp [h]
    | some entry => simp only [or_and_ne_zero, List.mem_cons, exists_eq_or_imp, h,
        Option.some.injEq, exists_eq_left', or_assoc]

/-- `parse_flags` goes through the tokens of the column. -/
theorem parseFlagsAt_eq (fl : List (CString × ℕ)) (flagVals fsOptions : Bool) (len : ℕ)
    (buf : List Char) (p : ℕ) : (parseFlagsAt fl flagVals fsOptions len buf p).1 =
      let st := (flagTokens (textAt nul buf p)).foldl (flagStep fl len) (.init flagVals fsOptions)
      { st with fsOptions := st.fsOptions.map trimComma } := by
  have hloop : (strtokFold nul (· == ',') (flagStep fl len) (buf.length + 1)
      (.init flagVals fsOptions) buf p).1 =
        (flagTokens (textAt nul buf p)).foldl (flagStep fl len) (.init flagVals fsOptions) :=
    strtokFold_tokens _ _ (Nat.lt_succ_of_le (length_textAt_le buf p))
  dsimp only [parseFlagsAt]
  rw [hloop]

/-- It writes nothing behind the column. -/
theorem parseFlagsAt_frame (fl : List (CString × ℕ)) (flagVals fsOptions : Bool) (len : ℕ)
    (buf : List Char) (p : ℕ) {m : ℕ} (hm : p + (textAt nul buf p).length ≤ m) :
    (parseFlagsAt fl flagVals fsOptions len buf p).2.drop m = buf.drop m := by
  dsimp only [parseFlagsAt]
  exact strtokFold_frame _ _ _ buf p hm

/-- Only the text of the column matters. -/
theorem parseFlagsAt_text (fl : List (CString × ℕ)) (flagVals fsOptions : Bool) (len : ℕ)
    {buf : List Char} {p : ℕ} {column : CString} (h : textAt nul buf p = column) :
    (parseFlagsAt fl flagVals fsOptions len buf p).1 =
      (parseFlagsAt fl flagVals fsOptions len (column ++ [nul]) 0).1 := by
  have hplain : ∀ c ∈ column, c ≠ nul := by
    obtain ⟨t, -, hplain, -⟩ := exists_textAt (z := nul) buf p
    rwa [h] at hplain
  rw [parseFlagsAt_eq, parseFlagsAt_eq, h, textAt_string hplain]

/-- The values of the flags are there if they are asked for. -/
theorem foldl_flagStep_vals (fl : List (CString × ℕ)) (len : ℕ) {P : FlagValues → Prop}
    (hset : ∀ flag p vals, P vals → P (setValue flag p vals)) (toks : List CString) {st : FlagState}
    {vals : FlagValues} (hst : st.vals = some vals) (hvals : P vals) :
    ∃ vals', (toks.foldl (flagStep fl len) st).vals = some vals' ∧ P vals' := by
  induction toks generalizing st vals with
  | nil => exact ⟨vals, hst, hvals⟩
  | cons tok toks ih =>
    rw [List.foldl_cons]
    cases h : findFlag fl tok with
    | none => exact ih (by rw [flagStep, h]; exact hst) hvals
    | some entry =>
      refine ih ?_ (hset entry.2 tok vals hvals)
      rw [flagStep, h, hst]
      rfl

/-! ### Names -/

/-- The token is the name; a name that ends in `=` is followed by a value. -/
def Names (name tok : CString) : Prop :=
  if name.getLast? = some '=' then name <+: tok else tok = name

instance (name tok : CString) : Decidable (Names name tok) := by
  unfold Names
  infer_instance

/-- Every token counts for the flag that it names, and for no other. -/
structure FlagsApart (fl : List (CString × ℕ)) (toks : List CString) (st : FlagState) : Prop where
  bits : ∀ entry ∈ fl, entry.2 ≠ 0 →
    (st.f &&& entry.2 ≠ 0 ↔ ∃ tok ∈ toks, Names entry.1 tok)
  unknown : st.unknown = toks.filter fun tok => !fl.any fun entry => Names entry.1 tok

/-- No token goes on behind a name that takes no value. -/
def NoLonger (fl : List (CString × ℕ)) (toks : List CString) : Prop :=
  ∀ tok ∈ toks, ∀ entry ∈ fl, entry.1.getLast? ≠ some '=' → entry.1 <+: tok → tok = entry.1

/-! ### Recognising names -/

/-- No name of a table is the start of another. -/
def PrefixFree (fl : List (CString × ℕ)) : Prop :=
  ∀ entry ∈ fl, ∀ entry' ∈ fl, entry.1 <+: entry'.1 → entry = entry'

theorem prefixFree_mountFlagList : PrefixFree mountFlagList := by
  unfold PrefixFree
  decide

theorem prefixFree_fsMgrFlagList : PrefixFree fsMgrFlagList := by
  unfold PrefixFree
  decide

theorem findFlag_some {fl : List (CString × ℕ)} {tok : CString} {entry : CString × ℕ}
    (h : findFlag fl tok = some entry) : entry ∈ fl ∧ entry.1 <+: tok := by
  rw [findFlag] at h
  have hpre := List.find?_some h
  exact ⟨List.mem_of_find?_eq_some h, List.isPrefixOf_iff_prefix.mp hpre⟩

theorem findFlag_eq_some_iff {fl : List (CString × ℕ)} (hfree : PrefixFree fl) {tok : CString}
    {entry : CString × ℕ} : findFlag fl tok = some entry ↔ entry ∈ fl ∧ entry.1 <+: tok := by
  refine ⟨findFlag_some, ?_⟩
  rintro ⟨hmem, hpre⟩
  cases h : findFlag fl tok with
  | none =>
    have hnot := List.find?_eq_none.mp h entry hmem
    exact absurd (List.isPrefixOf_iff_prefix.mpr hpre) hnot
  | some entry' =>
    -- of two starts of the token one is the start of the other
    obtain ⟨hmem', hpre'⟩ := findFlag_some h
    rcases List.prefix_or_prefix_of_prefix hpre hpre' with hp | hp
    · rw [hfree _ hmem _ hmem' hp]
    · rw [hfree _ hmem' _ hmem hp]

theorem Names.isPrefix {name tok : CString} (h : Names name tok) : name <+: tok := by
  unfold Names at h
  split_ifs at h
  · exact h
  · exact h ▸ List.prefix_refl _

theorem names_of_isPrefix {fl : List (CString × ℕ)} {toks : List CString} (h : NoLonger fl toks)
    {tok : CString} (htok : tok ∈ toks) {entry : CString × ℕ} (hentry : entry ∈ fl)
    (hpre : entry.1 <+: tok) : Names entry.1 tok := by
  unfold Names
  split_ifs with hval
  · exact hpre
  · exact h tok htok entry hentry hval hpre

/-- The unknown tokens are those that name nothing exactly if no token is too long. -/
theorem unknown_iff {fl : List (CString × ℕ)} (hfree : PrefixFree fl) (toks : List CString) :
    (toks.filter fun tok => (findFlag fl tok).isNone) =
      (toks.filter fun tok => !fl.any fun entry => Names entry.1 tok) ↔ NoLonger fl toks := by
  constructor
  · intro h tok htok entry hentry hval hpre
    by_contra hne
    have hfound : findFlag fl tok = some entry := (findFlag_eq_some_iff hfree).mpr ⟨hentry, hpre⟩
    -- nothing names the token, since only `entry` is found
    have hnone : tok ∈ toks.filter fun tok => !fl.any fun entry => Names entry.1 tok := by
      refine List.mem_filter.mpr ⟨htok, ?_⟩
      rw [Bool.not_eq_true', List.any_eq_false]
      intro entry' hentry' hnames
      have hnames' : Names entry'.1 tok := of_decide_eq_true hnames
      have hfound' := (findFlag_eq_some_iff hfree).mpr ⟨hentry', hnames'.isPrefix⟩
      obtain rfl := Option.some.inj (hfound.symm.trans hfound')
      rw [Names, if_neg hval] at hnames'
      exact hne hnames'
    rw [← h, List.mem_filter, hfound] at hnone
    cases hnone.2
  · intro h
    refine List.filter_congr fun tok htok => ?_
    rw [Bool.eq_iff_iff, Option.isNone_iff_eq_none, Bool.not_eq_true', List.any_eq_false]
    constructor
    · intro hnone entry hentry hnames
      have hnames' : Names entry.1 tok := of_decide_eq_true hnames
      rw [(findFlag_eq_some_iff hfree).mpr ⟨hentry, hnames'.isPrefix⟩] at hnone
      cases hnone
    · intro hnone
      by_contra hsome
      obtain ⟨entry, hentry⟩ := Option.ne_none_iff_exists'.mp hsome
      obtain ⟨hmem, hpre⟩ := (findFlag_eq_some_iff hfree).mp hentry
      exact hnone entry hmem (decide_eq_true (names_of_isPrefix h htok hmem hpre))

/-- A token names the flag. -/
def IsNamed (name : CString) (toks : List CString) : Prop := ∃ tok ∈ toks, Names name tok

/-- What the loop has recognised, in terms of the names that the tokens start with. -/
theorem parseFlagsAt_bits {fl : List (CString × ℕ)} (hfree : PrefixFree fl) (flagVals fsOptions : Bool)
    (len : ℕ) (buf : List Char) (p m : ℕ) :
    (parseFlagsAt fl flagVals fsOptions len buf p).1.f &&& m ≠ 0 ↔
      ∃ tok ∈ flagTokens (textAt nul buf p), ∃ entry ∈ fl, entry.1 <+: tok ∧ entry.2 &&& m ≠ 0 := by
  rw [parseFlagsAt_eq]
  dsimp only
  rw [foldl_flagStep_f]
  simp only [FlagState.init, Nat.zero_and, ne_eq, not_true_eq_false, false_or,
    findFlag_eq_some_iff hfree, and_assoc]

theorem parseFlagsAt_unknown (fl : List (CString × ℕ)) (flagVals fsOptions : Bool) (len : ℕ)
    (buf : List Char) (p : ℕ) : (parseFlagsAt fl flagVals fsOptions len buf p).1.unknown =
      (flagTokens (textAt nul buf p)).filter fun tok => (findFlag fl tok).isNone := by
  rw [parseFlagsAt_eq]
  dsimp only
  rw [foldl_flagStep_unknown]
  rfl

/-- Flags that share a bit have to be named together. -/
theorem flagsApart_of_prefixFree {fl : List (CString × ℕ)} (hfree : PrefixFree fl)
    (flagVals fsOptions : Bool) (len : ℕ) (buf : List Char) (p : ℕ) :
    FlagsApart fl (flagTokens (textAt nul buf p))
        (parseFlagsAt fl flagVals fsOptions len buf p).1 ↔
      NoLonger fl (flagTokens (textAt nul buf p)) ∧
        ∀ entry ∈ fl, ∀ entry' ∈ fl, entry.2 &&& entry'.2 ≠ 0 →
          IsNamed entry.1 (flagTokens (textAt nul buf p)) →
            IsNamed entry'.1 (flagTokens (textAt nul buf p)) := by
  have hbits := parseFlagsAt_bits hfree flagVals fsOptions len buf p
  have hunknown := parseFlagsAt_unknown fl flagVals fsOptions len buf p
  generalize (parseFlagsAt fl flagVals fsOptions len buf p).1 = st at hbits hunknown ⊢
  generalize flagTokens (textAt nul buf p) = toks at hbits hunknown ⊢
  constructor
  · rintro ⟨hb, hu⟩
    refine ⟨(unknown_iff hfree toks).mp (hunknown.symm.trans hu), ?_⟩
    rintro entry hentry entry' hentry' hshare ⟨tok, htok, hnames⟩
    have hne : entry'.2 ≠ 0 := by
      intro h0
      rw [h0, Nat.and_zero] at hshare
      exact hshare rfl
    exact (hb entry' hentry' hne).mp
      ((hbits _).mpr ⟨tok, htok, entry, hentry, hnames.isPrefix, hshare⟩)
  · rintro ⟨hlong, hshared⟩
    refine ⟨fun entry hentry hne => ?_, hunknown.trans ((unknown_iff hfree toks).mpr hlong)⟩
    rw [hbits]
    constructor
    · rintro ⟨tok, htok, entry', hentry', hpre, hshare⟩
      exact hshared entry' hentry' entry hentry hshare
        ⟨tok, htok, names_of_isPrefix hlong htok hentry' hpre⟩
    · rintro ⟨tok, htok, hnames⟩
      refine ⟨tok, htok, entry, hentry, hnames.isPrefix, ?_⟩
      rwa [Nat.and_self]

theorem mountFlags_distinct : ∀ entry ∈ mountFlagList, ∀ entry' ∈ mountFlagList,
    entry.2 &&& entry'.2 ≠ 0 → entry = entry' := by
  decide

def MULTIBOOT : CString := "multiboot".toList
def NOEMULATEDSD : CString := "noemulatedsd".toList

/-- The one bit that two flags have. -/
theorem fsMgrFlags_distinct : ∀ entry ∈ fsMgrFlagList, ∀ entry' ∈ fsMgrFlagList,
    entry.2 &&& entry'.2 ≠ 0 → entry = entry' ∨
      (entry.1 = MULTIBOOT ∧ entry'.1 = NOEMULATEDSD) ∨
      (entry.1 = NOEMULATEDSD ∧ entry'.1 = MULTIBOOT) := by
  decide

theorem named_iff_mem (name : CString) (h : name.getLast? ≠ some '=') (toks : List CString) :
    IsNamed name toks ↔ name ∈ toks := by
  simp only [IsNamed, Names, if_neg h, exists_eq_right]

/-- The predicates on a record with these flags. -/
structure FsMgrFlagsApart (toks : List CString) (st : FlagState) : Prop where
  flags : FlagsApart fsMgrFlagList toks st
  isMultiboot : ∀ rec : FstabRec, rec.fsMgrFlags = st.f →
    (fsMgrIsMultiboot rec = true ↔ MULTIBOOT ∈ toks)
  isNoemulatedsd : ∀ rec : FstabRec, rec.fsMgrFlags = st.f →
    (fsMgrIsNoemulatedsd rec = true ↔ NOEMULATEDSD ∈ toks)

/-- **Every flag stands for the tokens that name it exactly if** no token goes on behind a name, and,
for the flags of `fs_mgr`, `multiboot` and `noemulatedsd` are given together or not at all: they have
the same bit. -/
theorem flagsApart_iff (flagVals fsOptions : Bool) (len : ℕ) (buf : List Char) (p : ℕ) :
    (FlagsApart mountFlagList (flagTokens (textAt nul buf p))
        (parseFlagsAt mountFlagList flagVals fsOptions len buf p).1 ↔
      NoLonger mountFlagList (flagTokens (textAt nul buf p))) ∧
    (FsMgrFlagsApart (flagTokens (textAt nul buf p))
        (parseFlagsAt fsMgrFlagList flagVals fsOptions len buf p).1 ↔
      NoLonger fsMgrFlagList (flagTokens (textAt nul buf p)) ∧
        (MULTIBOOT ∈ flagTokens (textAt nul buf p) ↔
          NOEMULATEDSD ∈ flagTokens (textAt nul buf p))) := by
  have hmb := named_iff_mem MULTIBOOT (by decide) (flagTokens (textAt nul buf p))
  have hno := named_iff_mem NOEMULATEDSD (by decide) (flagTokens (textAt nul buf p))
  have hmbMem : (MULTIBOOT, MF_MULTIBOOT) ∈ fsMgrFlagList := by decide
  have hnoMem : (NOEMULATEDSD, MF_NOEMULATEDSD) ∈ fsMgrFlagList := by decide
  constructor
  · rw [flagsApart_of_prefixFree prefixFree_mountFlagList]
    refine and_iff_left_of_imp fun _ entry hentry entry' hentry' hshare hnamed => ?_
    rwa [← mountFlags_distinct entry hentry entry' hentry' hshare]
  · constructor
    · rintro ⟨hflags, -, -⟩
      obtain ⟨hlong, hshared⟩ := (flagsApart_of_prefixFree prefixFree_fsMgrFlagList ..).mp hflags
      refine ⟨hlong, fun h => hno.mp ?_, fun h => hmb.mp ?_⟩
      · exact hshared _ hmbMem _ hnoMem (by decide) (hmb.mpr h)
      · exact hshared _ hnoMem _ hmbMem (by decide) (hno.mpr h)
    · rintro ⟨hlong, htogether⟩
      have hflags : FlagsApart fsMgrFlagList (flagTokens (textAt nul buf p))
          (parseFlagsAt fsMgrFlagList flagVals fsOptions len buf p).1 := by
        refine (flagsApart_of_prefixFree prefixFree_fsMgrFlagList ..).mpr ⟨hlong, ?_⟩
        intro entry hentry entry' hentry' hshare hnamed
        rcases fsMgrFlags_distinct entry hentry entry' hentry' hshare with rfl | ⟨h1, h2⟩ | ⟨h1, h2⟩
        · exact hnamed
        · rw [h1] at hnamed
          rw [h2]
          exact hno.mpr (htogether.mp (hmb.mp hnamed))
        · rw [h1] at hnamed
          rw [h2]
          exact hmb.mpr (htogether.mpr (hno.mp hnamed))
      refine ⟨hflags, fun rec hrec => ?_, fun rec hrec => ?_⟩
      · rw [fsMgrIsMultiboot, hrec, bne_iff_ne]
        exact (hflags.bits _ hmbMem (by decide)).trans hmb
      · rw [fsMgrIsNoemulatedsd, hrec, bne_iff_ne]
        exact (hflags.bits _ hnoMem (by decide)).trans hno

/-- A record that only says that it has no emulated card is a multiboot record; `row` is read as `ro`. -/
theorem noemulatedsd_is_multiboot :
    ¬ FsMgrFlagsApart (flagTokens "wait,noemulatedsd".toList)
      (fsMgrFlagsOf "wait,noemulatedsd".toList) ∧
    ¬ FlagsApart mountFlagList (flagTokens "row".toList) (mountFlagsOf "row".toList) := by
  refine ⟨fun h => ?_, fun h => ?_⟩
  · have hmb := h.isMultiboot ⟨⟨[], [], [], none, none, none, 0x401⟩, none, none, false, none⟩ rfl
    exact absurd (hmb.mp (by decide)) (by decide)
  · have hro := h.bits ("ro".toList, 0x1) (by decide) (by decide)
    obtain ⟨tok, htok, hnames⟩ := hro.mp (by decide)
    obtain rfl := List.mem_singleton.mp htok
    exact absurd hnames (by decide)

/-! ### The options of the file system -/

theorem take_append_take {α : Type*} (n : ℕ) (a b : List α) :
    (a.take n ++ b).take n = (a ++ b).take n := by
  rw [List.take_append, List.take_append, List.take_take, Nat.min_self, List.length_take]
  congr 2
  omega

/-- `strlcat` cuts the text to the buffer, and stays in it. -/
theorem strlcat_spec {dst : CBuf} (src : CString) {size : ℕ} (hdst : dst.text.length < size)
    (hsize : size < 2 ^ 32) (hwritten : dst.written ≤ size) :
    (strlcat dst src size).text = (dst.text ++ src).take (size - 1) ∧
      (strlcat dst src size).written ≤ size := by
  have hroom : (size + 2 ^ 32 - (dst.text.length + 1)) % 2 ^ 32 = size - 1 - dst.text.length := by
    omega
  have hfit : dst.text.take (size - 1) = dst.text := List.take_of_length_le (by omega)
  simp only [strlcat, hroom]
  split_ifs with h
  · rw [List.take_append, hfit, h, List.take_zero, List.append_nil]
    exact ⟨rfl, hwritten⟩
  · have hmin : src.take (min src.length (size - 1 - dst.text.length)) =
        src.take (size - 1 - dst.text.length) := by rw [Nat.min_comm, ← List.take_eq_take_min]
    rw [List.take_append, hfit, hmin]
    exact ⟨rfl, by dsimp only; omega⟩

/-- The tokens, each with a comma behind it. -/
def withCommas (toks : List CString) : CString := toks.flatMap fun tok => tok ++ [',']

/-- The buffer holds as much of the options as fits. -/
theorem foldl_flagStep_options (fl : List (CString × ℕ)) {len : ℕ} (hlen : 0 < len)
    (hlt : len < 2 ^ 32) (toks : List CString) {st : FlagState} {buf : CBuf} {text : CString}
    (hst : st.fsOptions = some buf) (htext : buf.text = text.take (len - 1))
    (hwritten : buf.written ≤ len) :
    ∃ buf', (toks.foldl (flagStep fl len) st).fsOptions = some buf' ∧
      buf'.text = (text ++ withCommas (toks.filter fun tok => (findFlag fl tok).isNone)).take (len - 1) ∧
      buf'.written ≤ len := by
  induction toks generalizing st buf text with
  | nil => exact ⟨buf, hst, by rw [htext]; simp [withCommas], hwritten⟩
  | cons tok toks ih =>
    rw [List.foldl_cons]
    have hshort : buf.text.length < len := by
      rw [htext, List.length_take]
      omega
    cases h : findFlag fl tok with
    | some entry =>
      have hstep : (flagStep fl len st tok).fsOptions = some buf := by rw [flagStep, h]; exact hst
      obtain ⟨buf', hbuf', htext', hwritten'⟩ := ih hstep htext hwritten
      refine ⟨buf', hbuf', ?_, hwritten'⟩
      rw [htext', List.filter_cons_of_neg (by simp [h])]
    | none =>
      obtain ⟨htok, hw⟩ := strlcat_spec tok hshort hlt hwritten
      have hshort' : (strlcat buf tok len).text.length < len := by
        rw [htok, List.length_take]
        omega
      obtain ⟨hcomma, hw'⟩ := strlcat_spec [','] hshort' hlt hw
      have hstep : (flagStep fl len st tok).fsOptions =
          some (strlcat (strlcat buf tok len) [','] len) := by rw [flagStep, h, hst]; rfl
      have hnew : (strlcat (strlcat buf tok len) [','] len).text =
          (text ++ (tok ++ [','])).take (len - 1) := by
        rw [hcomma, htok, take_append_take, htext, List.append_assoc, take_append_take]
      obtain ⟨buf', hbuf', htext', hwritten'⟩ := ih hstep hnew hw'
      refine ⟨buf', hbuf', ?_, hwritten'⟩
      rw [htext', List.filter_cons_of_pos (by simp [h]), withCommas, withCommas, List.flatMap_cons,
        List.append_assoc]

/-- The options joined by commas. -/
def joinOptions (toks : List CString) : CString := [','].intercalate toks

theorem withCommas_eq {toks : List CString} (h : toks ≠ []) :
    withCommas toks = joinOptions toks ++ [','] := by
  induction toks with
  | nil => exact absurd rfl h
  | cons tok toks ih =>
    cases toks with
    | nil => simp [withCommas, joinOptions]
    | cons tok' toks =>
      have hrest := ih (List.cons_ne_nil _ _)
      rw [withCommas] at hrest ⊢
      rw [List.flatMap_cons, hrest, joinOptions, joinOptions,
        List.intercalate_cons_cons, List.append_assoc, List.append_assoc, List.append_assoc]

theorem joinOptions_leading (toks : List CString) (k : ℕ) :
    joinOptions (toks.take k) <+: joinOptions toks := by
  by_cases hk : toks.take k = []
  · rw [hk]
    exact List.nil_prefix
  · have hne : toks ≠ [] := fun h => hk (by rw [h, List.take_nil])
    have hsplit : withCommas toks = withCommas (toks.take k) ++ withCommas (toks.drop k) := by
      rw [withCommas, withCommas, withCommas, ← List.flatMap_append, List.take_append_drop]
    rw [withCommas_eq hne, withCommas_eq hk, List.append_assoc] at hsplit
    have hlen := congrArg List.length hsplit
    simp only [List.length_append, List.length_singleton] at hlen
    refine List.prefix_of_prefix_length_le ⟨_, hsplit.symm⟩ (List.prefix_append _ [',']) ?_
    omega

/-- The options of a column that `parse_flags` does not know. -/
def unknownTokens (fl : List (CString × ℕ)) (column : CString) : List CString :=
  (flagTokens column).filter fun tok => (findFlag fl tok).isNone

/-- `fs_options` of the record: `NULL` if the buffer is empty. -/
def recordOptions (buf : CBuf) : Option CString := if buf.text = [] then none else some buf.text

/-- What should be left of the unknown options `toks` in the buffer. -/
structure OptionsSurvive (toks : List CString) (buf : CBuf) : Prop where
  whole : (joinOptions toks).length ≤ FS_OPTIONS_LEN - 1 → buf.text = joinOptions toks
  leading : ∃ k, buf.text = joinOptions (toks.take k)
  null : recordOptions buf = none ↔ toks = []
  inside : buf.written ≤ FS_OPTIONS_LEN

/-- The options leave room for a comma, or the comma behind one of them is the last that fits. -/
def OptionsFit (toks : List CString) : Prop :=
  (joinOptions toks).length < FS_OPTIONS_LEN - 1 ∨
    FS_OPTIONS_LEN - 1 < (joinOptions toks).length ∧
      ∃ k, (joinOptions (toks.take k)).length = FS_OPTIONS_LEN - 2

theorem trimComma_text (buf : CBuf) : (trimComma buf).text = buf.text.dropLast := by
  unfold trimComma
  split_ifs with h
  · rw [h, List.dropLast_nil]
  · rfl

theorem trimComma_written (buf : CBuf) : (trimComma buf).written = buf.written := by
  unfold trimComma
  split_ifs <;> rfl

/-- The last character that fits is dropped, whether it is a comma or not. -/
theorem dropLast_take_concat {α : Type*} (s : List α) (c : α) (n : ℕ) :
    ((s ++ [c]).take n).dropLast = s.take (n - 1) := by
  rw [List.dropLast_eq_take, List.length_take, List.length_append, List.length_singleton,
    List.take_take, List.take_append_of_le_length (by omega)]
  rcases Nat.le_total n (s.length + 1) with hle | hle
  · congr 1
    omega
  · rw [List.take_of_length_le (by omega : s.length ≤ n - 1), List.take_of_length_le (by omega)]

/-- What is left of the options: one character less than fits. -/
theorem parseFlagsAt_options (fl : List (CString × ℕ)) (flagVals : Bool) (buf : List Char) (p : ℕ) :
    ∃ out, (parseFlagsAt fl flagVals true FS_OPTIONS_LEN buf p).1.fsOptions = some out ∧
      out.text = (joinOptions (unknownTokens fl (textAt nul buf p))).take (FS_OPTIONS_LEN - 2) ∧
      out.written ≤ FS_OPTIONS_LEN := by
  have hstart : (FlagState.init flagVals true).fsOptions = some ⟨[], 1⟩ := rfl
  have htake : (⟨[], 1⟩ : CBuf).text = ([] : CString).take (FS_OPTIONS_LEN - 1) := rfl
  obtain ⟨out, hout, htext, hwritten⟩ := foldl_flagStep_options fl (by decide) (by decide)
    (flagTokens (textAt nul buf p)) hstart htake (by decide)
  refine ⟨trimComma out, ?_, ?_, by rwa [trimComma_written]⟩
  · rw [parseFlagsAt_eq]
    dsimp only
    rw [hout]
    rfl
  · rw [trimComma_text, htext, List.nil_append, ← unknownTokens]
    by_cases hne : unknownTokens fl (textAt nul buf p) = []
    · rw [hne]
      rfl
    · rw [withCommas_eq hne, dropLast_take_concat]
      rfl

theorem joinOptions_ne_nil {toks : List CString} (hne : toks ≠ []) (h : ∀ tok ∈ toks, tok ≠ []) :
    joinOptions toks ≠ [] := by
  cases toks with
  | nil => exact absurd rfl hne
  | cons tok toks =>
    obtain ⟨k, hk⟩ := joinOptions_leading (tok :: toks) 1
    have hfirst : joinOptions ((tok :: toks).take 1) = tok := List.intercalate_singleton
    rw [hfirst] at hk
    intro hnil
    rw [hnil] at hk
    exact h tok List.mem_cons_self (List.append_eq_nil_iff.mp hk).1

/-- There are options in the record exactly if one is unknown. -/
theorem recordOptions_eq_none_iff {toks : List CString} (h : ∀ tok ∈ toks, tok ≠ []) {out : CBuf}
    {n : ℕ} (htext : out.text = (joinOptions toks).take (n + 1)) :
    recordOptions out = none ↔ toks = [] := by
  have hnil : out.text = [] ↔ toks = [] := by
    rw [htext, List.take_eq_nil_iff]
    constructor
    · rintro (h0 | hj)
      · omega
      · by_contra hne
        exact joinOptions_ne_nil hne h hj
    · rintro rfl
      exact Or.inr rfl
  rw [← hnil, recordOptions]
  by_cases hout : out.text = []
  · rw [if_pos hout]
    exact iff_of_true rfl hout
  · rw [if_neg hout]
    exact iff_of_false (Option.some_ne_none _) hout

/-- **The options survive the buffer exactly if** they fit. -/
theorem optionsSurvive_iff (fl : List (CString × ℕ)) (flagVals : Bool) (buf : List Char) (p : ℕ) :
    ∃ out, (parseFlagsAt fl flagVals true FS_OPTIONS_LEN buf p).1.fsOptions = some out ∧
      (OptionsSurvive (unknownTokens fl (textAt nul buf p)) out ↔
        OptionsFit (unknownTokens fl (textAt nul buf p))) := by
  obtain ⟨out, hout, htext, hinside⟩ := parseFlagsAt_options fl flagVals buf p
  refine ⟨out, hout, ?_⟩
  have hwords : ∀ tok ∈ unknownTokens fl (textAt nul buf p), tok ≠ [] := fun tok htok =>
    (word_of_mem_tokens (List.mem_filter.mp htok).1).1
  generalize unknownTokens fl (textAt nul buf p) = toks at htext hwords ⊢
  have hnull := recordOptions_eq_none_iff hwords htext
  have h1023 : FS_OPTIONS_LEN - 1 = 1023 := rfl
  have h1022 : FS_OPTIONS_LEN - 2 = 1022 := rfl
  rw [h1022] at htext
  constructor
  · rintro ⟨hwhole, ⟨k, hk⟩, -, -⟩
    rw [htext] at hwhole hk
    rw [OptionsFit, h1023, h1022]
    rcases Nat.lt_trichotomy (joinOptions toks).length 1023 with hlt | heq | hgt
    · exact Or.inl hlt
    · have hlen := congrArg List.length (hwhole (by rw [heq, h1023]))
      rw [List.length_take] at hlen
      omega
    · refine Or.inr ⟨hgt, k, ?_⟩
      rw [← hk, List.length_take]
      omega
  · intro hfit
    rw [OptionsFit, h1023, h1022] at hfit
    refine ⟨fun hle => ?_, ?_, hnull, hinside⟩
    · rw [h1023] at hle
      rw [htext, List.take_of_length_le]
      omega
    · rcases hfit with hlt | ⟨-, k, hk⟩
      · refine ⟨toks.length, ?_⟩
        rw [htext, List.take_length, List.take_of_length_le]
        omega
      · refine ⟨k, ?_⟩
        have hpre := List.prefix_iff_eq_take.mp (joinOptions_leading toks k)
        rw [hk] at hpre
        rw [htext, ← hpre]

/-- One option that fills the buffer. -/
def longOption : CString := List.replicate 1023 'x'

theorem unknownTokens_longOption : unknownTokens mountFlagList longOption = [longOption] := by
  have hword : Word (· == ',') longOption := by
    refine ⟨List.cons_ne_nil _ _, fun c hc => ?_⟩
    rw [List.eq_of_mem_replicate hc]
    rfl
  rw [unknownTokens, flagTokens, tokens_word hword]
  rfl

/-- The option loses its last character. -/
theorem option_cut : ∃ out, (mountFlagsOf longOption).fsOptions = some out ∧
    ¬ OptionsSurvive (unknownTokens mountFlagList longOption) out := by
  obtain ⟨out, hout, htext, -⟩ := parseFlagsAt_options mountFlagList false (longOption ++ [nul]) 0
  rw [mountFlagsOf]
  refine ⟨out, hout, fun h => ?_⟩
  have hcolumn : textAt nul (longOption ++ [nul]) 0 = longOption := textAt_string fun c hc => by
    rw [List.eq_of_mem_replicate hc]
    decide
  have hjoin : joinOptions [longOption] = longOption := List.intercalate_singleton
  have hwhole := h.whole
  rw [hcolumn] at htext
  rw [unknownTokens_longOption, hjoin] at htext hwhole
  have hlen := congrArg List.length (hwhole (by rw [longOption, List.length_replicate]; decide))
  rw [htext, List.length_take, longOption, List.length_replicate] at hlen
  exact absurd hlen (by decide)

end Multiboot
