import Multiboot.ParseFlags
import Mathlib.Data.List.Forall2

/-!
# `do_fs_mgr_read_fstab` on its buffers

The function reads a file twice: it counts the entries, and then cuts each of them up in place, with
`parse_flags` cutting two of the columns up again.  `doFsMgrReadFstabBuf_eq` gives the result in terms
of the columns.  The fields that the TWRP format does not carry come from a local variable which only
`parse_flags` initialises, and on an error the pointers among them are freed.
-/

namespace Multiboot

open Lib

/-! ### Lines -/

/-- What `getline` returns, with the newlines. -/
def rawLines : CString → List CString
  | [] => []
  | c :: text =>
    if c = '\n' then ['\n'] :: rawLines text
    else
      match rawLines text with
      | [] => [[c]]
      | line :: lines => (c :: line) :: lines

/-- The buffer of a line; a newline at its end becomes a NUL. -/
def lineBuf (line : CString) : List Char :=
  if line.getLast? = some '\n' then line.dropLast ++ [nul, nul] else line ++ [nul]

/-- Behind the leading white space is neither a comment nor the end of the text. -/
def isEntryBuf (buf : List Char) : Bool :=
  match (buf.dropWhile isspace).head? with
  | none => false
  | some c => c != '#' && c != nul

/-! ### Records -/

/-- A record, zeroed by `calloc`. -/
structure ReadRec where
  blkDevice : Option CString := none
  mountPoint : Option CString := none
  fsType : Option CString := none
  fsOptionsUnparsed : Option CString := none
  fsMgrFlagsUnparsed : Option CString := none
  unhandledColumns : Option CString := none
  flags : ℕ := 0
  fsOptions : Option CString := none
  fsMgrFlags : ℕ := 0
  vals : FlagValues := ⟨.null, 0, .null, 0, 0, 0⟩
  deriving DecidableEq, Repr

/-- One column more behind the third, and a space. -/
def appendColumn (unhandled : Option CString) (p : CString) : Option CString :=
  some (unhandled.getD [] ++ p ++ [' '])

/-- A line in TWRP format jumps over the calls of `parse_flags`, so that `flag_vals` is as before. -/
def readTwrp (flagVals : FlagValues) (buf : List Char) : Option (ReadRec × FlagValues) := do
  let (p, buf, save) ← strtok nul fieldDelim buf 0
  let mountPoint := textAt nul buf p
  let (p, buf, save) ← strtok nul fieldDelim buf save
  let fsType := textAt nul buf p
  let (p, buf, save) ← strtok nul fieldDelim buf save
  let blkDevice := textAt nul buf p
  let (unhandled, _) := strtokFold nul fieldDelim appendColumn (buf.length + 1) none buf save
  some ({
    blkDevice := some blkDevice
    mountPoint := some mountPoint
    fsType := some fsType
    fsOptionsUnparsed := some "defaults".toList
    fsMgrFlagsUnparsed := some "defaults".toList
    unhandledColumns := unhandled
    fsOptions := some []
    vals := flagVals }, flagVals)

def readStandard (flagVals : FlagValues) (buf : List Char) : Option (ReadRec × FlagValues) := do
  let (p, buf, save) ← strtok nul fieldDelim buf 0
  let blkDevice := textAt nul buf p
  let (p, buf, save) ← strtok nul fieldDelim buf save
  let mountPoint := textAt nul buf p
  let (p, buf, save) ← strtok nul fieldDelim buf save
  let fsType := textAt nul buf p
  let (p, buf, save) ← strtok nul fieldDelim buf save
  let fsOptionsUnparsed := textAt nul buf p
  let (mount, buf) := parseFlagsAt mountFlagList false true FS_OPTIONS_LEN buf p
  let (p, buf, _) ← strtok nul fieldDelim buf save
  let fsMgrFlagsUnparsed := textAt nul buf p
  let (fsMgr, _) := parseFlagsAt fsMgrFlagList true false 0 buf p
  let flagVals := fsMgr.vals.getD flagVals
  some ({
    blkDevice := some blkDevice
    mountPoint := some mountPoint
    fsType := some fsType
    fsOptionsUnparsed := some fsOptionsUnparsed
    fsMgrFlagsUnparsed := some fsMgrFlagsUnparsed
    flags := mount.f
    fsOptions := mount.fsOptions.bind recordOptions
    fsMgrFlags := fsMgr.f
    vals := flagVals }, flagVals)

def readLineBuf (twrp : Bool) (flagVals : FlagValues) (buf : List Char) :
    Option (ReadRec × FlagValues) :=
  if twrp then readTwrp flagVals buf else readStandard flagVals buf

/-! ### The two passes -/

/-- How the second pass ends: all lines are read, or there are more entries than were counted, or a
column is missing behind the records `recs`. -/
inductive PassEnd
  | done (recs : List ReadRec) (overrun : Bool)
  | err (recs : List ReadRec)
  deriving DecidableEq, Repr

/-- The second pass, from the records `recs` on. -/
def secondPass (twrp : Bool) (entries : ℕ) :
    FlagValues → List ReadRec → List CString → PassEnd
  | _, recs, [] => .done recs false
  | flagVals, recs, line :: lines =>
    if isEntryBuf (lineBuf line) then
      if entries ≤ recs.length then .done recs true
      else
        match readLineBuf twrp flagVals (lineBuf line) with
        | none => .err recs
        | some (rec, flagVals) => secondPass twrp entries flagVals (recs ++ [rec]) lines
    else secondPass twrp entries flagVals recs lines

/-- A value that `fs_mgr_free_fstab` can free. -/
def FlagValues.owned (vals : FlagValues) : Bool := vals.keyLoc != .stray && vals.label != .stray

/-- What the function returns, unless it dies in `free`. -/
inductive ReadEnd
  | crash
  | null
  | fstab (numEntries : ℕ) (recs : List ReadRec) (overrun : Bool)
  deriving DecidableEq, Repr

/-- `do_fs_mgr_read_fstab`; `flagVals` is what its local variable starts with, `first` and `second` the
contents of the file in the two passes. -/
def doFsMgrReadFstabBuf (flagVals : FlagValues) (twrp : Bool) (first second : CString) : ReadEnd :=
  let entries := ((rawLines first).filter fun line => isEntryBuf (lineBuf line)).length
  if entries = 0 then .null
  else
    match secondPass twrp entries flagVals [] (rawLines second) with
    -- `fs_mgr_free_fstab`
    | .err recs => if recs.all fun rec => rec.vals.owned then .null else .crash
    | .done recs overrun =>
      .fstab entries (recs ++ List.replicate (entries - recs.length) {}) overrun

/-! ### A line in terms of its columns -/

/-- The columns of the text in a buffer. -/
def columnsOf (text : CString) : List CString := tokens fieldDelim text

/-- The least number of columns. -/
def minColumns (twrp : Bool) : ℕ := if twrp then 3 else 5

/-- The record of a line in TWRP format with these columns. -/
def twrpRec (flagVals : FlagValues) (mountPoint fsType blkDevice : CString)
    (unhandled : List CString) : ReadRec where
  blkDevice := some blkDevice
  mountPoint := some mountPoint
  fsType := some fsType
  fsOptionsUnparsed := some "defaults".toList
  fsMgrFlagsUnparsed := some "defaults".toList
  unhandledColumns := joinColumns unhandled
  fsOptions := some []
  vals := flagVals

def standardRec (blkDevice mountPoint fsType fsOptions fsMgrFlags : CString) : ReadRec where
  blkDevice := some blkDevice
  mountPoint := some mountPoint
  fsType := some fsType
  fsOptionsUnparsed := some fsOptions
  fsMgrFlagsUnparsed := some fsMgrFlags
  flags := (mountFlagsOf fsOptions).f
  fsOptions := (mountFlagsOf fsOptions).fsOptions.bind recordOptions
  fsMgrFlags := (fsMgrFlagsOf fsMgrFlags).f
  vals := (fsMgrFlagsOf fsMgrFlags).vals.getD .notSpecified

/-- The record of a line that has enough columns. -/
def recOf (twrp : Bool) (flagVals : FlagValues) (cols : List CString) : ReadRec :=
  if twrp then twrpRec flagVals (cols.getD 0 []) (cols.getD 1 []) (cols.getD 2 []) (cols.drop 3)
  else standardRec (cols.getD 0 []) (cols.getD 1 []) (cols.getD 2 []) (cols.getD 3 []) (cols.getD 4 [])

/-- The lines that count, each up to its first NUL. -/
def entryLines (text : CString) : List CString := ((getLines text).map lineText).filter isEntry

/-- The line has all the columns of its format. -/
def complete (twrp : Bool) (line : CString) : Bool := minColumns twrp ≤ (columnsOf line).length

def lineRec (twrp : Bool) (flagVals : FlagValues) (line : CString) : ReadRec :=
  recOf twrp flagVals (columnsOf line)

theorem foldl_appendColumn (ws : List CString) (unhandled : Option CString) :
    ws.foldl appendColumn unhandled =
      if ws = [] then unhandled else some (unhandled.getD [] ++ ws.flatMap (· ++ [' '])) := by
  induction ws generalizing unhandled with
  | nil => rfl
  | cons w ws ih =>
    rw [List.foldl_cons, ih]
    cases ws with
    | nil => simp [appendColumn]
    | cons v ws => simp [appendColumn]

theorem readTwrp_eq (flagVals : FlagValues) (buf : List Char) :
    readTwrp flagVals buf =
      if complete true (textAt nul buf 0) then
        some (lineRec true flagVals (textAt nul buf 0), flagVals)
      else none := by
  unfold complete lineRec columnsOf
  cases h1 : tokens fieldDelim (textAt nul buf 0) with
  | nil => simp [readTwrp, strtok_nil h1, minColumns]
  | cons c1 cs =>
    obtain ⟨p1, buf1, save1, hcall1, hp1, hrest1, -⟩ := strtok_cons h1
    cases cs with
    | nil => simp [readTwrp, hcall1, strtok_nil hrest1, minColumns]
    | cons c2 cs =>
      obtain ⟨p2, buf2, save2, hcall2, hp2, hrest2, -⟩ := strtok_cons hrest1
      cases cs with
      | nil => simp [readTwrp, hcall1, hcall2, strtok_nil hrest2, minColumns]
      | cons c3 cs =>
        obtain ⟨p3, buf3, save3, hcall3, hp3, hrest3, -⟩ := strtok_cons hrest2
        have hloop : (strtokFold nul fieldDelim appendColumn (buf3.length + 1) none buf3 save3).1 =
            (tokens fieldDelim (textAt nul buf3 save3)).foldl appendColumn none :=
          strtokFold_tokens _ _ (Nat.lt_succ_of_le (length_textAt_le buf3 save3))
        rw [hrest3, foldl_appendColumn] at hloop
        have hlen : minColumns true ≤ (c1 :: c2 :: c3 :: cs).length := by simp [minColumns]
        simp only [readTwrp, hcall1, hcall2, hcall3, hp1, hp2, hp3, Option.bind_eq_bind,
          Option.bind_some, hloop, hlen, decide_true, if_true]
        rfl

theorem setValue_owned (flag : ℕ) (p : CString) (vals : FlagValues) (h : vals.owned = true) :
    (setValue flag p vals).owned = true := by
  unfold FlagValues.owned at h ⊢
  rw [Bool.and_eq_true, bne_iff_ne, bne_iff_ne] at h ⊢
  unfold setValue
  dsimp only
  split_ifs
  · exact ⟨CPtr.noConfusion, h.2⟩
  · exact h
  · exact ⟨h.1, CPtr.noConfusion⟩
  · exact ⟨h.1, CPtr.noConfusion⟩
  · exact h
  · exact h
  · exact h
  · exact h

/-- `parse_flags` leaves pointers that can be freed. -/
theorem fsMgrFlagsOf_vals (column : CString) :
    ∃ vals, (fsMgrFlagsOf column).vals = some vals ∧ vals.owned = true := by
  have hinit : (FlagState.init true false).vals = some .notSpecified := rfl
  obtain ⟨vals, hvals, howned⟩ := foldl_flagStep_vals fsMgrFlagList 0
    (P := fun vals => vals.owned = true) setValue_owned
    (flagTokens (textAt nul (column ++ [nul]) 0)) hinit rfl
  refine ⟨vals, ?_, howned⟩
  rw [fsMgrFlagsOf, parseFlagsAt_eq]
  exact hvals

theorem readStandard_eq (flagVals vals : FlagValues) (buf : List Char) :
    (readStandard vals buf).map Prod.fst =
      if complete false (textAt nul buf 0) then some (lineRec false flagVals (textAt nul buf 0))
      else none := by
  unfold complete lineRec columnsOf
  cases h1 : tokens fieldDelim (textAt nul buf 0) with
  | nil => simp [readStandard, strtok_nil h1, minColumns]
  | cons c1 cs =>
  obtain ⟨p1, buf1, save1, hcall1, hp1, hrest1, -⟩ := strtok_cons h1
  cases cs with
  | nil => simp [readStandard, hcall1, strtok_nil hrest1, minColumns]
  | cons c2 cs =>
  obtain ⟨p2, buf2, save2, hcall2, hp2, hrest2, -⟩ := strtok_cons hrest1
  cases cs with
  | nil => simp [readStandard, hcall1, hcall2, strtok_nil hrest2, minColumns]
  | cons c3 cs =>
  obtain ⟨p3, buf3, save3, hcall3, hp3, hrest3, -⟩ := strtok_cons hrest2
  cases cs with
  | nil => simp [readStandard, hcall1, hcall2, hcall3, strtok_nil hrest3, minColumns]
  | cons c4 cs =>
  obtain ⟨p4, buf4, save4, hcall4, hp4, hrest4, hle⟩ := strtok_cons hrest3
  -- `parse_flags` cuts up the fourth column and leaves the fifth
  have hframe := parseFlagsAt_frame mountFlagList false true FS_OPTIONS_LEN buf4 p4
    (m := save4) (by rwa [hp4])
  have hmount := parseFlagsAt_text mountFlagList false true FS_OPTIONS_LEN hp4
  rw [← textAt_of_drop hframe le_rfl] at hrest4
  cases cs with
  | nil => simp [readStandard, hcall1, hcall2, hcall3, hcall4, strtok_nil hrest4, minColumns]
  | cons c5 cs =>
  obtain ⟨p5, buf5, save5, hcall5, hp5, -, -⟩ := strtok_cons hrest4
  have hfsMgr := parseFlagsAt_text fsMgrFlagList true false 0 hp5
  obtain ⟨vals', hvals, -⟩ := fsMgrFlagsOf_vals c5
  rw [← mountFlagsOf] at hmount
  rw [← fsMgrFlagsOf] at hfsMgr
  have hlen : minColumns false ≤ (c1 :: c2 :: c3 :: c4 :: c5 :: cs).length := by simp [minColumns]
  have hrec : recOf false flagVals (c1 :: c2 :: c3 :: c4 :: c5 :: cs) = standardRec c1 c2 c3 c4 c5 := rfl
  simp only [readStandard, hcall1, hcall2, hcall3, hcall4, hcall5, hp1, hp2, hp3, hp4, hp5,
    Option.bind_eq_bind, Option.bind_some, hmount, hfsMgr, hvals, Option.getD_some, Option.map_some,
    hlen, decide_true, if_true, hrec, standardRec]

/-! ### The lines -/

/-- The buffer of a line holds its text, and the newline is gone. -/
theorem textAt_lineBuf_concat {line : CString} (h : '\n' ∉ line) :
    textAt nul (lineBuf (line ++ ['\n'])) 0 = lineText line ∧
      textAt nul (lineBuf line) 0 = lineText line := by
  have htext : lineText line = line.takeWhile fun c => c ≠ nul := by
    rw [lineText]
    congr 1
    funext c
    rw [bne, beq_eq_decide, decide_not]
  have hlast : line.getLast? ≠ some '\n' := fun hlast => h (List.mem_of_getLast? hlast)
  constructor
  · rw [lineBuf, if_pos List.getLast?_concat, List.dropLast_concat, htext]
    exact textAt_terminated line [nul]
  · rw [lineBuf, if_neg hlast, htext]
    exact textAt_terminated line []

/-- Up to their newlines the lines are those of `getLines`. -/
theorem rawLines_eq (text : CString) : List.Forall₂
    (fun raw line => '\n' ∉ line ∧ (raw = line ∨ raw = line ++ ['\n'])) (rawLines text) (getLines text) := by
  induction text with
  | nil => exact List.Forall₂.nil
  | cons c text ih =>
    rw [rawLines, getLines]
    split_ifs with hc
    · exact List.Forall₂.cons ⟨List.not_mem_nil, Or.inr rfl⟩ ih
    · have hc' : ¬ '\n' = c := fun h => hc h.symm
      generalize rawLines text = raws at ih ⊢
      generalize getLines text = lines at ih ⊢
      cases ih with
      | nil => exact List.Forall₂.cons ⟨by simpa using hc', Or.inl rfl⟩ List.Forall₂.nil
      | cons hline hlines =>
        obtain ⟨hplain, hraw⟩ := hline
        refine List.Forall₂.cons ⟨?_, ?_⟩ hlines
        · rw [List.mem_cons, not_or]
          exact ⟨hc', hplain⟩
        · rcases hraw with rfl | rfl
          · exact Or.inl rfl
          · exact Or.inr rfl

/-- The texts that the two passes see. -/
theorem map_lineBuf_rawLines (text : CString) :
    (rawLines text).map (fun raw => textAt nul (lineBuf raw) 0) = (getLines text).map lineText := by
  have h := rawLines_eq text
  generalize rawLines text = raws at h ⊢
  generalize getLines text = lines at h ⊢
  induction h with
  | nil => rfl
  | cons hline _ ih =>
    obtain ⟨hplain, hraw⟩ := hline
    obtain ⟨hconcat, hplain'⟩ := textAt_lineBuf_concat hplain
    rw [List.map_cons, List.map_cons, ih]
    rcases hraw with rfl | rfl
    · rw [hplain']
    · rw [hconcat]

/-- The test of an entry on its buffer. -/
theorem isEntryBuf_eq (buf : List Char) : isEntryBuf buf = isEntry (textAt nul buf 0) := by
  obtain ⟨t, hdrop, hplain, ht⟩ := exists_textAt (z := nul) buf 0
  rw [List.drop_zero] at hdrop
  rw [isEntryBuf, isEntry]
  generalize textAt nul buf 0 = text at hdrop hplain ⊢
  rw [hdrop, List.dropWhile_append]
  cases hs : text.dropWhile isspace with
  | nil =>
    -- only white space up to the NUL
    simp only [List.isEmpty_nil, if_true]
    cases t with
    | nil => rfl
    | cons c t =>
      obtain rfl := ht c rfl
      rfl
  | cons c s =>
    have hc : c ≠ nul := by
      refine hplain c ((List.dropWhile_sublist isspace).subset ?_)
      rw [hs]
      exact List.mem_cons_self
    simp only [List.isEmpty_cons, Bool.false_eq_true, if_false, List.cons_append, List.head?_cons]
    simp [hc]

/-! ### The result in terms of the lines -/

theorem entries_rawLines (text : CString) :
    ((rawLines text).filter fun line => isEntryBuf (lineBuf line)).length =
      (entryLines text).length := by
  rw [entryLines, ← map_lineBuf_rawLines, List.filter_map, List.length_map]
  congr 2
  funext line
  exact isEntryBuf_eq _

theorem readLineBuf_incomplete {twrp : Bool} (vals : FlagValues) {buf : List Char}
    (h : complete twrp (textAt nul buf 0) = false) : readLineBuf twrp vals buf = none := by
  cases twrp with
  | true => rw [readLineBuf, if_pos rfl, readTwrp_eq, h, if_neg Bool.false_ne_true]
  | false =>
    have hfst := readStandard_eq vals vals buf
    rw [h, if_neg Bool.false_ne_true] at hfst
    exact Option.map_eq_none_iff.mp hfst

/-- A line in TWRP format gets the values the variable started with; they stay in it. -/
theorem readLineBuf_complete {twrp : Bool} {flagVals vals : FlagValues} {buf : List Char}
    (h : complete twrp (textAt nul buf 0) = true) (hvals : twrp = true → vals = flagVals) :
    ∃ vals', readLineBuf twrp vals buf = some (lineRec twrp flagVals (textAt nul buf 0), vals') ∧
      (twrp = true → vals' = flagVals) := by
  cases twrp with
  | true =>
    refine ⟨vals, ?_, hvals⟩
    rw [readLineBuf, if_pos rfl, readTwrp_eq, h, if_pos rfl, hvals rfl]
  | false =>
    have hfst := readStandard_eq flagVals vals buf
    rw [h, if_pos rfl] at hfst
    obtain ⟨⟨rec, vals'⟩, hread, hrec⟩ := Option.map_eq_some_iff.mp hfst
    obtain rfl : rec = _ := hrec
    exact ⟨vals', hread, nofun⟩

/-- **The second pass** makes the records of the lines, up to the first that is not complete. -/
theorem secondPass_eq (twrp : Bool) (flagVals : FlagValues) {entries : ℕ} (lines : List CString)
    {vals : FlagValues} {recs : List ReadRec} (hvals : twrp = true → vals = flagVals)
    (hle : recs.length +
      ((lines.map fun raw => textAt nul (lineBuf raw) 0).filter isEntry).length ≤ entries) :
    secondPass twrp entries vals recs lines =
      if ((lines.map fun raw => textAt nul (lineBuf raw) 0).filter isEntry).all (complete twrp) then
        .done (recs ++ ((lines.map fun raw => textAt nul (lineBuf raw) 0).filter isEntry).map
          (lineRec twrp flagVals)) false
      else
        .err (recs ++ (((lines.map fun raw => textAt nul (lineBuf raw) 0).filter isEntry).takeWhile
          (complete twrp)).map (lineRec twrp flagVals)) := by
  induction lines generalizing vals recs with
  | nil => simp [secondPass]
  | cons raw lines ih =>
    rw [List.map_cons] at hle ⊢
    rw [secondPass, isEntryBuf_eq]
    by_cases hentry : isEntry (textAt nul (lineBuf raw) 0) = true
    · rw [List.filter_cons_of_pos hentry] at hle ⊢
      rw [List.length_cons] at hle
      rw [if_pos hentry, if_neg (by omega)]
      cases hcomplete : complete twrp (textAt nul (lineBuf raw) 0) with
      | false => simp [readLineBuf_incomplete vals hcomplete, hcomplete]
      | true =>
        obtain ⟨vals', hread, hvals'⟩ := readLineBuf_complete hcomplete hvals
        rw [hread]
        dsimp only
        rw [ih hvals' (by rw [List.length_append, List.length_singleton]; omega),
          List.all_cons, hcomplete, Bool.true_and, List.takeWhile_cons_of_pos hcomplete,
          List.map_cons, List.map_cons, List.append_assoc, List.append_assoc, List.singleton_append,
          List.singleton_append]
    · rw [List.filter_cons_of_neg hentry] at hle ⊢
      rw [if_neg hentry]
      exact ih hvals hle

/-- **The result on a file that does not change between the passes.** -/
theorem doFsMgrReadFstabBuf_eq (flagVals : FlagValues) (twrp : Bool) (text : CString) :
    doFsMgrReadFstabBuf flagVals twrp text text =
      if entryLines text = [] then .null
      else if (entryLines text).all (complete twrp) then
        .fstab (entryLines text).length ((entryLines text).map (lineRec twrp flagVals)) false
      else if (((entryLines text).takeWhile (complete twrp)).map (lineRec twrp flagVals)).all
        fun rec => rec.vals.owned then .null
      else .crash := by
  have hlines : ((rawLines text).map fun raw => textAt nul (lineBuf raw) 0).filter isEntry =
      entryLines text := by rw [map_lineBuf_rawLines, entryLines]
  have hle : ([] : List ReadRec).length +
      (((rawLines text).map fun raw => textAt nul (lineBuf raw) 0).filter isEntry).length ≤
        (entryLines text).length := by
    rw [hlines, List.length_nil, Nat.zero_add]
  have hpass := secondPass_eq twrp flagVals (rawLines text) (fun _ => rfl) hle
  rw [hlines, List.nil_append, List.nil_append] at hpass
  simp only [doFsMgrReadFstabBuf, entries_rawLines, List.length_eq_zero_iff, hpass]
  by_cases hnil : entryLines text = []
  · rw [if_pos hnil, if_pos hnil]
  rw [if_neg hnil, if_neg hnil]
  cases hall : (entryLines text).all (complete twrp) with
  | true => simp
  | false => rfl

/-! ### The format -/

/-- The record has the columns of the line, whole and in order. -/
def HoldsColumns (twrp : Bool) (cols : List CString) (rec : ReadRec) : Prop :=
  if twrp then
    rec.mountPoint = cols[0]? ∧ rec.fsType = cols[1]? ∧ rec.blkDevice = cols[2]? ∧
      rec.unhandledColumns = joinColumns (cols.drop 3)
  else
    rec.blkDevice = cols[0]? ∧ rec.mountPoint = cols[1]? ∧ rec.fsType = cols[2]? ∧
      rec.fsOptionsUnparsed = cols[3]? ∧ rec.fsMgrFlagsUnparsed = cols[4]?

/-- What the reader should make of a file. -/
structure ReadsFormat (twrp : Bool) (text : CString) (result : ReadEnd) : Prop where
  null : result = .null ↔
    entryLines text = [] ∨ ∃ line ∈ entryLines text, (columnsOf line).length < minColumns twrp
  records : ¬ (entryLines text = [] ∨
      ∃ line ∈ entryLines text, (columnsOf line).length < minColumns twrp) →
    ∃ recs, result = .fstab (entryLines text).length recs false ∧
      List.Forall₂ (fun line rec => HoldsColumns twrp (columnsOf line) rec) (entryLines text) recs

/-- On an error the records so far have no pointer that is not theirs: the variable had none, or there
is no error, or it comes at the first line. -/
def FreesOwn (flagVals : FlagValues) (twrp : Bool) (text : CString) : Prop :=
  twrp = true → flagVals.owned = true ∨
    (∀ line ∈ entryLines text, minColumns true ≤ (columnsOf line).length) ∨
    ∃ line, (entryLines text).head? = some line ∧ (columnsOf line).length < minColumns true

theorem holdsColumns_lineRec {twrp : Bool} (flagVals : FlagValues) {line : CString}
    (h : complete twrp line = true) : HoldsColumns twrp (columnsOf line) (lineRec twrp flagVals line) := by
  have hlen : minColumns twrp ≤ (columnsOf line).length := of_decide_eq_true h
  have hget : ∀ i, i < minColumns twrp → some ((columnsOf line).getD i []) = (columnsOf line)[i]? := by
    intro i hi
    rw [List.getD_eq_getElem?_getD, List.getElem?_eq_getElem (by omega)]
    rfl
  cases twrp with
  | true => exact ⟨hget 0 (by decide), hget 1 (by decide), hget 2 (by decide), rfl⟩
  | false =>
    exact ⟨hget 0 (by decide), hget 1 (by decide), hget 2 (by decide), hget 3 (by decide),
      hget 4 (by decide)⟩

/-- The values of a record in the standard format are its own. -/
theorem owned_lineRec_false (flagVals : FlagValues) (line : CString) :
    (lineRec false flagVals line).vals.owned = true := by
  obtain ⟨vals, hvals, howned⟩ := fsMgrFlagsOf_vals ((columnsOf line).getD 4 [])
  show ((fsMgrFlagsOf ((columnsOf line).getD 4 [])).vals.getD .notSpecified).owned = true
  rw [hvals]
  exact howned

theorem incomplete_iff {twrp : Bool} {text : CString} :
    (∃ line ∈ entryLines text, (columnsOf line).length < minColumns twrp) ↔
      (entryLines text).all (complete twrp) = false := by
  rw [List.all_eq_false]
  simp only [complete, decide_eq_true_eq, Nat.not_le]

/-- The records before the first incomplete line can be freed. -/
theorem freesOwn_iff {flagVals : FlagValues} {twrp : Bool} {text : CString}
    (hall : (entryLines text).all (complete twrp) = false) :
    (((entryLines text).takeWhile (complete twrp)).map (lineRec twrp flagVals)).all
      (fun rec => rec.vals.owned) = true ↔ FreesOwn flagVals twrp text := by
  cases twrp with
  | false =>
    refine iff_of_true ?_ nofun
    rw [List.all_map, List.all_eq_true]
    exact fun line _ => owned_lineRec_false flagVals line
  | true =>
    obtain ⟨bad, hbad, hlen⟩ := incomplete_iff.mpr hall
    rw [List.all_map]
    have hvals : ∀ line, ((fun rec : ReadRec => rec.vals.owned) ∘ lineRec true flagVals) line =
        flagVals.owned := fun _ => rfl
    cases hes : entryLines text with
    | nil =>
      rw [hes] at hbad
      cases hbad
    | cons first rest =>
      cases hfirst : complete true first with
      | false =>
        -- the error comes at the first line
        rw [List.takeWhile_cons_of_neg (by rw [hfirst]; decide)]
        refine iff_of_true rfl fun _ => Or.inr (Or.inr ⟨first, by rw [hes]; rfl, ?_⟩)
        simpa [complete] using hfirst
      | true =>
        rw [List.takeWhile_cons_of_pos hfirst, List.all_cons, hvals]
        constructor
        · intro h _
          exact Or.inl (Bool.and_eq_true_iff.mp h).1
        · intro h
          rcases h rfl with howned | hgood | ⟨line, hline, hshort⟩
          · rw [howned, Bool.true_and, List.all_eq_true]
            exact fun line _ => (hvals line).trans howned
          · have hle := hgood bad hbad
            omega
          · rw [hes] at hline
            obtain rfl := Option.some.inj hline
            have hle : minColumns true ≤ (columnsOf first).length := of_decide_eq_true hfirst
            omega

/-- **The reader accepts its format exactly if** its error path frees nothing that is not its own. -/
theorem readsFormat_iff (flagVals : FlagValues) (twrp : Bool) (text : CString) :
    ReadsFormat twrp text (doFsMgrReadFstabBuf flagVals twrp text text) ↔
      FreesOwn flagVals twrp text := by
  rw [doFsMgrReadFstabBuf_eq]
  by_cases hnil : entryLines text = []
  · rw [if_pos hnil]
    refine iff_of_true ⟨iff_of_true rfl (Or.inl hnil), fun h => absurd (Or.inl hnil) h⟩ ?_
    refine fun _ => Or.inr (Or.inl fun line hline => ?_)
    rw [hnil] at hline
    cases hline
  rw [if_neg hnil]
  cases hall : (entryLines text).all (complete twrp) with
  | true =>
    rw [if_pos rfl]
    have hgood : ∀ line ∈ entryLines text, complete twrp line = true := List.all_eq_true.mp hall
    have hok : ¬ (entryLines text = [] ∨
        ∃ line ∈ entryLines text, (columnsOf line).length < minColumns twrp) := by
      rw [incomplete_iff, hall]
      simp [hnil]
    refine iff_of_true ⟨iff_of_false nofun hok, fun _ => ⟨_, rfl, ?_⟩⟩ ?_
    · rw [List.forall₂_map_right_iff, List.forall₂_same]
      exact fun line hline => holdsColumns_lineRec flagVals (hgood line hline)
    · rintro rfl
      exact Or.inr (Or.inl fun line hline => of_decide_eq_true (hgood line hline))
  | false =>
    have hbad := incomplete_iff.mpr hall
    rw [if_neg Bool.false_ne_true, ← freesOwn_iff hall]
    split_ifs with hfree
    · exact iff_of_true ⟨iff_of_true rfl (Or.inr hbad), fun h => absurd (Or.inr hbad) h⟩ hfree
    · refine iff_of_false (fun h => ?_) hfree
      exact absurd (h.null.mpr (Or.inr hbad)) nofun

/-- The second line of a TWRP file has two columns, and the variable starts with a stray pointer. -/
theorem error_path_crashes :
    doFsMgrReadFstabBuf ⟨.stray, 0, .null, 0, 0, 0⟩ true
      "/system ext4 /dev/block/a\n/data ext4\n".toList
      "/system ext4 /dev/block/a\n/data ext4\n".toList = .crash ∧
    ¬ ReadsFormat true "/system ext4 /dev/block/a\n/data ext4\n".toList
      (doFsMgrReadFstabBuf ⟨.stray, 0, .null, 0, 0, 0⟩ true
        "/system ext4 /dev/block/a\n/data ext4\n".toList
        "/system ext4 /dev/block/a\n/data ext4\n".toList) := by
  have hcrash : doFsMgrReadFstabBuf ⟨.stray, 0, .null, 0, 0, 0⟩ true
      "/system ext4 /dev/block/a\n/data ext4\n".toList
      "/system ext4 /dev/block/a\n/data ext4\n".toList = .crash := by decide
  refine ⟨hcrash, fun h => ?_⟩
  rw [hcrash] at h
  exact absurd (h.null.mpr (Or.inr ⟨"/data ext4".toList, by decide, by decide⟩)) nofun

/-! ### Records in TWRP format -/

/-- A record has what its line says, and nothing else. -/
def OnlyItsLine (cols : List CString) (rec : ReadRec) : Prop :=
  rec.unhandledColumns = (if cols.drop 3 = [] then none
    else some ((cols.drop 3).flatMap fun column => column ++ [' '])) ∧
    rec.vals = .notSpecified

/-- **The records of a TWRP file carry only what their lines say exactly if** there are none, or the
local variable happens to start with the values of `parse_flags`. -/
theorem twrp_onlyItsLine_iff (flagVals : FlagValues) (text : CString) :
    (∀ n recs overrun, doFsMgrReadFstabBuf flagVals true text text = .fstab n recs overrun →
      List.Forall₂ (fun line rec => OnlyItsLine (columnsOf line) rec) (entryLines text) recs) ↔
    flagVals = .notSpecified ∨ entryLines text = [] ∨
      ∃ line ∈ entryLines text, (columnsOf line).length < minColumns true := by
  rw [doFsMgrReadFstabBuf_eq, incomplete_iff]
  constructor
  · intro h
    by_contra hno
    simp only [not_or, Bool.not_eq_false] at hno
    obtain ⟨hvals, hnil, hall⟩ := hno
    rw [if_neg hnil, if_pos hall] at h
    have hrecs := h _ _ _ rfl
    obtain ⟨line, rest, hes⟩ := List.exists_cons_of_ne_nil hnil
    rw [hes, List.map_cons] at hrecs
    exact hvals (List.forall₂_cons.mp hrecs).1.2
  · rintro (rfl | hnil | hall) n recs overrun h
    · split_ifs at h with hnil hall hfree
      obtain ⟨-, rfl, -⟩ := ReadEnd.fstab.inj h
      rw [List.forall₂_map_right_iff, List.forall₂_same]
      exact fun line _ => ⟨rfl, rfl⟩
    · rw [if_pos hnil] at h
      cases h
    · rw [hall, if_neg Bool.false_ne_true] at h
      split_ifs at h

/-- A variable of zeros makes the only record of a file swap with priority 0. -/
theorem twrp_record_unspecified :
    ∃ rec, doFsMgrReadFstabBuf ⟨.null, 0, .null, 0, 0, 0⟩ true "/data ext4 /dev/block/b".toList
      "/data ext4 /dev/block/b".toList = .fstab 1 [rec] false ∧ rec.vals.swapPrio = 0 ∧
      ¬ OnlyItsLine (columnsOf "/data ext4 /dev/block/b".toList) rec := by
  refine ⟨_, rfl, rfl, fun h => ?_⟩
  exact absurd h.2 (by decide)

/-! ### The records as the other stages see them -/

/-- The columns of a record. -/
def ReadRec.cols (rec : ReadRec) : FstabCols where
  blkDevice := rec.blkDevice.getD []
  mountPoint := rec.mountPoint.getD []
  fsType := rec.fsType.getD []
  fsOptionsUnparsed := rec.fsOptionsUnparsed
  fsMgrFlagsUnparsed := rec.fsMgrFlagsUnparsed
  unhandledColumns := rec.unhandledColumns
  fsMgrFlags := rec.fsMgrFlags

theorem foldl_flagStep_parseFlags (fl : List (CString × ℕ)) (len : ℕ) (toks : List CString)
    (st : FlagState) : (toks.foldl (flagStep fl len) st).f =
      toks.foldl (fun f p => f ||| ((findFlag fl p).map Prod.snd).getD 0) st.f := by
  induction toks generalizing st with
  | nil => rfl
  | cons tok toks ih =>
    rw [List.foldl_cons, List.foldl_cons, ih, flagStep]
    cases h : findFlag fl tok with
    | none => simp
    | some entry => simp

theorem fsMgrFlagsOf_f {column : CString} (h : nul ∉ column) :
    (fsMgrFlagsOf column).f = parseFlags fsMgrFlagList column := by
  have htext : textAt nul (column ++ [nul]) 0 = column := textAt_string fun c hc heq => h (heq ▸ hc)
  rw [fsMgrFlagsOf, parseFlagsAt_eq, htext]
  exact foldl_flagStep_parseFlags fsMgrFlagList 0 (flagTokens column) _

theorem readRec_eq (twrp : Bool) (flagVals : FlagValues) {line : CString} (h : nul ∉ line) :
    readRec twrp line =
      if complete twrp line then some (lineRec twrp flagVals line).cols else none := by
  have hcol : ∀ column ∈ tokens fieldDelim line, nul ∉ column := fun column hcolumn hmem =>
    h (mem_of_mem_tokens hcolumn hmem)
  unfold complete lineRec columnsOf
  cases twrp with
  | true =>
    rcases hcols : tokens fieldDelim line with _ | ⟨c1, _ | ⟨c2, _ | ⟨c3, cs⟩⟩⟩
    · simp [readRec, hcols, minColumns]
    · simp [readRec, hcols, minColumns]
    · simp [readRec, hcols, minColumns]
    · have hlen : minColumns true ≤ (c1 :: c2 :: c3 :: cs).length := by simp [minColumns]
      rw [decide_eq_true hlen, if_pos rfl]
      simp only [readRec, hcols]
      rfl
  | false =>
    rcases hcols : tokens fieldDelim line with
      _ | ⟨c1, _ | ⟨c2, _ | ⟨c3, _ | ⟨c4, _ | ⟨c5, cs⟩⟩⟩⟩⟩
    · simp [readRec, hcols, minColumns]
    · simp [readRec, hcols, minColumns]
    · simp [readRec, hcols, minColumns]
    · simp [readRec, hcols, minColumns]
    · simp [readRec, hcols, minColumns]
    · have hlen : minColumns false ≤ (c1 :: c2 :: c3 :: c4 :: c5 :: cs).length := by simp [minColumns]
      have hflags := fsMgrFlagsOf_f (hcol c5 (by simp [hcols]))
      rw [decide_eq_true hlen, if_pos rfl]
      simp only [readRec, hcols, ← hflags]
      rfl

theorem readLines_eq {twrp : Bool} (flagVals : FlagValues) {lines : List CString}
    (h : ∀ line ∈ lines, nul ∉ line) : readLines twrp lines =
      if (lines.filter isEntry).all (complete twrp) then
        some (((lines.filter isEntry).map (lineRec twrp flagVals)).map ReadRec.cols)
      else none := by
  induction lines with
  | nil => rfl
  | cons line lines ih =>
    have hrest := ih fun l hl => h l (List.mem_cons_of_mem _ hl)
    have hfirst := readRec_eq twrp flagVals (h line List.mem_cons_self)
    rw [readLines]
    by_cases hentry : isEntry line = true
    · rw [if_pos hentry, hfirst, hrest, List.filter_cons_of_pos hentry, List.all_cons]
      cases complete twrp line with
      | false => simp
      | true => cases (lines.filter isEntry).all (complete twrp) <;> simp
    · rw [if_neg hentry, hrest, List.filter_cons_of_neg hentry]

/-- **The function on its buffers refines the one on lists of columns.** -/
theorem doFsMgrReadFstab_refined (flagVals : FlagValues) (twrp : Bool) (text : CString) :
    doFsMgrReadFstab twrp (some text) =
      match doFsMgrReadFstabBuf flagVals twrp text text with
      | .fstab _ recs _ => some (recs.map ReadRec.cols)
      | _ => none := by
  have hnul : ∀ line ∈ (getLines text).map lineText, nul ∉ line := by
    intro line hline hmem
    obtain ⟨raw, -, rfl⟩ := List.mem_map.mp hline
    simpa using List.mem_takeWhile_imp hmem
  have hany : ((getLines text).map lineText).any isEntry = !(entryLines text).isEmpty := by
    rw [entryLines, Bool.eq_iff_iff]
    simp
  rw [doFsMgrReadFstabBuf_eq, doFsMgrReadFstab, Option.bind_eq_bind, Option.bind_some]
  dsimp only
  rw [hany, readLines_eq flagVals hnul, ← entryLines]
  cases hes : entryLines text with
  | nil => rfl
  | cons line lines =>
    rw [List.isEmpty_cons, Bool.not_false, if_pos rfl, if_neg (List.cons_ne_nil _ _)]
    split_ifs <;> rfl

end Multiboot
