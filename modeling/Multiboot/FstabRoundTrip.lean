import Multiboot.FstabColumns

/-!
# Reading a patched fstab back

`patchRecs_eq` gives the lines of a patched file, `doFsMgrReadFstab_lines` what the reader makes of
lines.  A line is lost only if all its columns are white space; the reader takes it for an empty one.
`readsBack_iff` says when a file in standard format reads back as intended; one in TWRP format, none of
whose records gets another source, always does.
-/

namespace Multiboot

open Lib

/-! ### The lines of a record -/

/-- The remount entry after a line. -/
def FstabLine.remount (l : FstabLine) (own : CString) : FstabLine :=
  { l with fsOptions := FS_OPTION_REMOUNT ++ own, fsMgrFlags := "wait".toList }

/-- The lines `patch_fstab` writes for a record. -/
def writtenLines (junk : Junk) (data : ModuleData) (rec : FstabRec) : List FstabLine :=
  match patchLine junk data rec with
  | none => []
  | some (line, useBind) =>
    line :: if useBind && rec.mountPoint != "/system".toList then [line.remount rec.fsOptions] else []

theorem patchRec_eq {junk : Junk} {data : ModuleData} {twrp : Bool} {rec : FstabRec}
    (hline : (patchLine junk data rec).isSome = true)
    (hoptions : rec.fsOptionsUnparsed.isSome = true) :
    patchRec junk data twrp rec =
      some ((writtenLines junk data rec).flatMap (fileWriteFstabrec twrp)) := by
  obtain ⟨⟨line, useBind⟩, hl⟩ := Option.isSome_iff_exists.mp hline
  obtain ⟨own, hown⟩ := Option.isSome_iff_exists.mp hoptions
  have hopt : rec.fsOptions = own := by rw [FstabRec.fsOptions, hown, Option.getD_some]
  simp only [patchRec, writtenLines, hl, hown, hopt, Option.map_some]
  split_ifs with hremount
  · simp only [List.flatMap_cons, List.flatMap_nil, List.append_nil, FstabLine.remount]
  · simp only [List.flatMap_cons, List.flatMap_nil, List.append_nil]

/-- The lines of a file. -/
def fileLines (junk : ℕ → Junk) (data : ModuleData) (n : ℕ) (recs : List FstabRec) :
    List FstabLine :=
  (recs.mapIdx fun i rec => writtenLines (junk (n + i)) data rec).flatten

theorem fileLines_cons (junk : ℕ → Junk) (data : ModuleData) (n : ℕ) (rec : FstabRec)
    (recs : List FstabRec) : fileLines junk data n (rec :: recs) =
      writtenLines (junk n) data rec ++ fileLines junk data (n + 1) recs := by
  simp only [fileLines, List.mapIdx_cons, List.flatten_cons, Nat.add_zero, Nat.add_assoc,
    Nat.add_comm 1]

theorem patchRecs_eq {junk : ℕ → Junk} {data : ModuleData} {twrp : Bool}
    (hline : ∀ j rec, (patchLine j data rec).isSome = true) :
    ∀ {recs : List FstabRec} {n : ℕ}, (∀ rec ∈ recs, rec.fsOptionsUnparsed.isSome = true) →
      patchRecs junk data twrp n recs =
        some ((fileLines junk data n recs).flatMap (fileWriteFstabrec twrp))
  | [], n, _ => rfl
  | rec :: recs, n, h => by
    have hrest : patchRecs junk data twrp (n + 1) recs = _ :=
      patchRecs_eq hline fun r hr => h r (List.mem_cons_of_mem _ hr)
    rw [patchRecs, patchRec_eq (hline (junk n) rec) (h rec List.mem_cons_self), hrest,
      fileLines_cons, List.flatMap_append]
    rfl

/-! ### Standard format -/

def FstabLine.columns (l : FstabLine) : List CString :=
  [l.blkDevice, l.mountPoint, l.fsType, l.fsOptions, l.fsMgrFlags]

/-- A line without its newline. -/
def FstabLine.body (l : FstabLine) : CString :=
  l.blkDevice ++ ' ' :: (l.mountPoint ++ ' ' :: (l.fsType ++ ' ' :: (l.fsOptions ++ ' ' ::
    l.fsMgrFlags)))

/-- The record a line is to give. -/
def FstabLine.cols (l : FstabLine) : FstabCols where
  blkDevice := l.blkDevice
  mountPoint := l.mountPoint
  fsType := l.fsType
  fsOptionsUnparsed := some l.fsOptions
  fsMgrFlagsUnparsed := some l.fsMgrFlags
  unhandledColumns := none
  fsMgrFlags := parseFlags fsMgrFlagList l.fsMgrFlags

theorem fileWriteFstabrec_standard (l : FstabLine) :
    fileWriteFstabrec false l = l.body ++ ['\n'] := by
  simp [fileWriteFstabrec, FstabLine.body]

theorem tokens_body {l : FstabLine} (h : ∀ w ∈ l.columns, Column w) :
    tokens fieldDelim l.body = l.columns := by
  have hblank : fieldDelim ' ' = true := by decide
  have hword : ∀ w ∈ l.columns, Word fieldDelim w := by
    intro w hw
    exact Column.word (h w hw)
  simp only [FstabLine.columns, List.forall_mem_cons] at hword
  obtain ⟨h1, h2, h3, h4, h5, -⟩ := hword
  rw [FstabLine.body, tokens_word_cons h1 hblank, tokens_word_cons h2 hblank,
    tokens_word_cons h3 hblank, tokens_word_cons h4 hblank, tokens_word h5]
  rfl

theorem readRec_body {l : FstabLine} (h : ∀ w ∈ l.columns, Column w) :
    readRec false l.body = some l.cols := by
  unfold readRec
  rw [tokens_body h]
  rfl

/-- No column is broken by the end of a line or of a text. -/
theorem body_plain {l : FstabLine} (h : ∀ w ∈ l.columns, Column w) :
    '\n' ∉ l.body ∧ nul ∉ l.body := by
  apply plain_of_columns h
  intro c hc
  simp only [FstabLine.body, List.mem_append, List.mem_cons] at hc
  simp only [FstabLine.columns, List.mem_cons, List.not_mem_nil, or_false, exists_eq_or_imp,
    exists_eq_left]
  tauto

/-- Nothing but white space. -/
def Blank (ws : List CString) : Prop := ∀ w ∈ ws, ∀ c ∈ w, isspace c = true

theorem opens_eq_none_iff {ws : List CString} : opens ws = none ↔ Blank ws := by
  rw [opens, List.find?_eq_none]
  constructor
  · intro h w hw c hc
    have hspace := h c (List.mem_flatten_of_mem hw hc)
    simpa using hspace
  · intro h c hc
    obtain ⟨w, hw, hcw⟩ := List.mem_flatten.mp hc
    rw [h w hw c hcw]
    decide

/-- A written line counts unless it is blank. -/
theorem isEntry_body {l : FstabLine} (h : ∀ w ∈ l.columns, Column w)
    (hopens : opens l.columns ≠ some '#') : isEntry l.body = true ↔ ¬ Blank l.columns := by
  rw [isEntry_iff, tokens_body h, ← opens_eq_none_iff]
  constructor
  · rintro ⟨c, hc, -⟩ hnone
    rw [hnone] at hc
    cases hc
  · intro hnot
    obtain ⟨c, hc⟩ := Option.ne_none_iff_exists'.mp hnot
    refine ⟨c, hc, ?_⟩
    rintro rfl
    exact hopens hc

/-! ### What is to be read back -/

/-- Redirected to a directory. -/
def BindRedirected (data : ModuleData) (rec : FstabRec) : Prop :=
  ∃ r, multibootRecFor data rec.mountPoint = some r ∧ r.replacementBind = true

def NeedsRemount (data : ModuleData) (rec : FstabRec) : Prop :=
  BindRedirected data rec ∧ rec.mountPoint ≠ "/system".toList

/-- Neither redirected nor fixed up. -/
def LeftAlone (junk : Junk) (data : ModuleData) (rec : FstabRec) : Prop :=
  ¬ FixedUp junk data rec ∧ multibootRecFor data rec.mountPoint = none

/-- The first record read back for a record in memory. -/
structure FirstBack (junk : Junk) (data : ModuleData) (rec : FstabRec) (first : FstabCols) : Prop where
  mountPoint : first.mountPoint = rec.mountPoint
  fsType : first.fsType = rec.fsType
  flags : first.fsMgrFlagsUnparsed = rec.fsMgrFlagsUnparsed
  own : LeftAlone junk data rec →
    first.blkDevice = rec.blkDevice ∧ first.fsOptionsUnparsed = rec.fsOptionsUnparsed
  /-- The source and the options are what was written. -/
  written : ∀ line useBind, patchLine junk data rec = some (line, useBind) →
    first.blkDevice = line.blkDevice ∧ first.fsOptionsUnparsed = some line.fsOptions

/-- The record after it for a bind mount. -/
structure RemountBack (rec : FstabRec) (first second : FstabCols) : Prop where
  same : second.mountPoint = rec.mountPoint ∧ second.fsType = rec.fsType ∧
    second.blkDevice = first.blkDevice
  options : second.fsOptionsUnparsed = rec.fsOptionsUnparsed.map (FS_OPTION_REMOUNT ++ ·)
  flags : second.fsMgrFlagsUnparsed = some "wait".toList

/-- The records read back for a record in memory. -/
def RecBack (junk : Junk) (data : ModuleData) (rec : FstabRec) (recs : List FstabCols) : Prop :=
  ∃ first, FirstBack junk data rec first ∧
    (NeedsRemount data rec → ∃ second, RemountBack rec first second ∧ recs = [first, second]) ∧
    (¬ NeedsRemount data rec → recs = [first])

/-- The file reads back as intended: in order, the records for each record in memory. -/
def ReadsBack (junk : ℕ → Junk) (data : ModuleData) (recs : List FstabRec) (text : CString) : Prop :=
  ∃ parts : List (List FstabCols), doFsMgrReadFstab false (some text) = some parts.flatten ∧
    parts.length = recs.length ∧ ∀ i rec part, recs[i]? = some rec → parts[i]? = some part →
      RecBack (junk i) data rec part

/-! ### The lines of a record that was read -/

/-- What is known of the first line of a record. -/
structure FirstLine (junk : Junk) (data : ModuleData) (rec : FstabRec) (line : FstabLine)
    (useBind : Bool) : Prop where
  patched : patchLine junk data rec = some (line, useBind)
  columns : ∀ w ∈ line.columns, Column w
  kept : line.mountPoint = rec.mountPoint ∧ line.fsType = rec.fsType ∧
    some line.fsMgrFlags = rec.fsMgrFlagsUnparsed
  bind : useBind = true ↔ BindRedirected data rec
  alone : LeftAlone junk data rec → line.blkDevice = rec.blkDevice ∧
    some line.fsOptions = rec.fsOptionsUnparsed
  source : ¬ LeftAlone junk data rec → Rooted line.blkDevice

theorem column_bind : Column BIND := by decide

theorem column_remount {own : CString} (h : Column own) : Column (FS_OPTION_REMOUNT ++ own) := by
  have hremount : Unbroken FS_OPTION_REMOUNT := by decide
  exact ⟨List.cons_ne_nil _ _, hremount.append h.2⟩

section File

variable {params : BootParams} {env : SetupEnv} {data : ModuleData} {rec : FstabRec}

/-- A line of a record keeps the columns but for the source and the options. -/
theorem StandardCols.toLine_kept (h : StandardCols rec.toFstabCols) (source options : CString) :
    (rec.toLine source options).mountPoint = rec.mountPoint ∧
      (rec.toLine source options).fsType = rec.fsType ∧
      some (rec.toLine source options).fsMgrFlags = rec.fsMgrFlagsUnparsed := by
  obtain ⟨flags, hflags⟩ := Option.isSome_iff_exists.mp h.flags
  refine ⟨rfl, rfl, ?_⟩
  rw [FstabRec.toLine, hflags, Option.getD_some]

theorem StandardCols.toLine_columns (h : StandardCols rec.toFstabCols) {source options : CString}
    (hsource : Column source) (hoptions : Column options) :
    ∀ w ∈ (rec.toLine source options).columns, Column w := by
  have hcolumns := h.columns
  simp only [FstabCols.columns, List.forall_mem_cons] at hcolumns
  obtain ⟨-, hmount, htype, -, hflags, -⟩ := hcolumns
  simp only [FstabRec.toLine, FstabLine.columns, List.forall_mem_cons]
  exact ⟨hsource, hmount, htype, hoptions, hflags, by simp⟩

theorem StandardCols.column_blkDevice (h : StandardCols rec.toFstabCols) : Column rec.blkDevice := by
  apply h.columns
  simp [FstabCols.columns]

theorem StandardCols.column_fsOptions (h : StandardCols rec.toFstabCols) : Column rec.fsOptions := by
  apply h.columns
  simp [FstabCols.columns, FstabRec.fsOptions]

theorem StandardCols.some_fsOptions (h : StandardCols rec.toFstabCols) :
    some rec.fsOptions = rec.fsOptionsUnparsed := by
  obtain ⟨own, hown⟩ := Option.isSome_iff_exists.mp h.options
  rw [FstabRec.fsOptions, hown, Option.getD_some]

theorem Unredirected.column_options {junk : Junk} {source options : CString}
    (hun : Unredirected junk data rec source options) (h : StandardCols rec.toFstabCols) :
    Column options := by
  by_cases hfix : FixedUp junk data rec
  · rw [(hun.fixedUp hfix).2]
    exact column_bind
  · rw [(hun.own hfix).2]
    exact h.column_fsOptions

/-- A record that is not redirected. -/
theorem firstLine_of_none {junk : Junk} {source options : CString}
    (hun : Unredirected junk data rec source options) (h : StandardCols rec.toFstabCols)
    (hr : multibootRecFor data rec.mountPoint = none) :
    FirstLine junk data rec (rec.toLine source options) false := by
  have hnobind : ¬ BindRedirected data rec := by
    rintro ⟨r, hr', -⟩
    rw [hr] at hr'
    cases hr'
  have hsource : Column source := by
    by_cases hfix : FixedUp junk data rec
    · rw [(hun.fixedUp hfix).1]
      exact rooted_grub.column
    · rw [(hun.own hfix).1]
      exact h.column_blkDevice
  refine ⟨patchLine_alone hun.fixup hr, h.toLine_columns hsource (hun.column_options h),
    h.toLine_kept _ _, by simp [hnobind], ?_, ?_⟩
  · rintro ⟨hfix, -⟩
    obtain ⟨rfl, rfl⟩ := hun.own hfix
    exact ⟨rfl, h.some_fsOptions⟩
  · intro hnot
    have hfix : FixedUp junk data rec := by
      by_contra hfix
      exact hnot ⟨hfix, hr⟩
    rw [(hun.fixedUp hfix).1]
    exact rooted_grub

/-- A record that is redirected. -/
theorem firstLine_of_some {junk : Junk} {source options : CString}
    (hun : Unredirected junk data rec source options) (h : StandardCols rec.toFstabCols)
    {r : FstabRec} (hr : multibootRecFor data rec.mountPoint = some r)
    (hroot : Rooted (showS r.replacementDevice)) :
    FirstLine junk data rec
      (rec.toLine (showS r.replacementDevice) (if r.replacementBind then BIND else options))
      r.replacementBind := by
  have hbind : r.replacementBind = true ↔ BindRedirected data rec := by
    constructor
    · intro hb
      exact ⟨r, hr, hb⟩
    · rintro ⟨r', hr', hb⟩
      rw [hr] at hr'
      rwa [Option.some.inj hr']
  have hoptions : Column (if r.replacementBind then BIND else options) := by
    split_ifs
    · exact column_bind
    · exact hun.column_options h
  refine ⟨patchLine_redirected hun.fixup hr, h.toLine_columns hroot.column hoptions,
    h.toLine_kept _ _, hbind, ?_, fun _ => hroot⟩
  rintro ⟨-, hnone⟩
  rw [hr] at hnone
  cases hnone

theorem firstLine_exists (hsetup : setup params env = some data) (hread : FstabsRead env)
    (hcmdline : FromCmdline params) (h : StandardCols rec.toFstabCols) (junk : Junk) :
    ∃ line useBind, FirstLine junk data rec line useBind := by
  obtain ⟨source, options, hun⟩ := unredirected_of_setup hsetup junk rec
  cases hr : multibootRecFor data rec.mountPoint with
  | none => exact ⟨_, _, firstLine_of_none hun h hr⟩
  | some r =>
    have hroot := replacement_rooted hsetup hread hcmdline (replacement_of_found hsetup hr).1
    exact ⟨_, _, firstLine_of_some hun h hr hroot⟩

variable {junk : Junk} {line : FstabLine} {useBind : Bool}

theorem FirstLine.columns_eq (h : FirstLine junk data rec line useBind)
    (halone : LeftAlone junk data rec) : line.columns = rec.columns := by
  obtain ⟨hblk, hopt⟩ := h.alone halone
  obtain ⟨hmount, htype, hflags⟩ := h.kept
  rw [FstabLine.columns, FstabCols.columns, hblk, hmount, htype, ← hopt, ← hflags]
  rfl

/-- The first line is lost exactly if it is blank. -/
theorem FirstLine.isEntry_iff (h : FirstLine junk data rec line useBind)
    (hcols : StandardCols rec.toFstabCols) :
    isEntry line.body = true ↔ ¬ (LeftAlone junk data rec ∧ Blank rec.columns) := by
  by_cases halone : LeftAlone junk data rec
  · have hopens : opens line.columns ≠ some '#' := by
      rw [h.columns_eq halone]
      exact hcols.opens
    rw [isEntry_body h.columns hopens, h.columns_eq halone]
    simp [halone]
  · have hopens : opens line.columns = some '/' := (h.source halone).opens _
    rw [isEntry_body h.columns (by rw [hopens]; decide), ← opens_eq_none_iff, hopens]
    simp [halone]

theorem FirstLine.lines_of_remount (h : FirstLine junk data rec line useBind)
    (hremount : NeedsRemount data rec) :
    writtenLines junk data rec = [line, line.remount rec.fsOptions] := by
  obtain ⟨hbind, hmount⟩ := hremount
  have hcond : (useBind && rec.mountPoint != "/system".toList) = true := by
    rw [h.bind.mpr hbind, Bool.true_and, bne_iff_ne]
    exact hmount
  simp only [writtenLines, h.patched, hcond, if_true]

theorem FirstLine.lines_of_not_remount (h : FirstLine junk data rec line useBind)
    (hremount : ¬ NeedsRemount data rec) : writtenLines junk data rec = [line] := by
  have hcond : (useBind && rec.mountPoint != "/system".toList) = false := by
    by_contra hcond
    simp only [Bool.not_eq_false, Bool.and_eq_true, bne_iff_ne] at hcond
    exact hremount ⟨h.bind.mp hcond.1, hcond.2⟩
  simp only [writtenLines, h.patched, hcond, Bool.false_eq_true, if_false]

/-- The remount entry: it has the source of the line before, a path. -/
theorem FirstLine.remount_spec (h : FirstLine junk data rec line useBind)
    (hcols : StandardCols rec.toFstabCols) (hremount : NeedsRemount data rec) :
    (∀ w ∈ (line.remount rec.fsOptions).columns, Column w) ∧
      isEntry (line.remount rec.fsOptions).body = true := by
  have halone : ¬ LeftAlone junk data rec := by
    rintro ⟨-, hnone⟩
    obtain ⟨r, hr, -⟩ := hremount.1
    rw [hnone] at hr
    cases hr
  have hcolumns : ∀ w ∈ (line.remount rec.fsOptions).columns, Column w := by
    have hline := h.columns
    simp only [FstabLine.columns, List.forall_mem_cons] at hline
    obtain ⟨hblk, hmount, htype, -⟩ := hline
    simp only [FstabLine.columns, FstabLine.remount, List.forall_mem_cons]
    exact ⟨hblk, hmount, htype, column_remount hcols.column_fsOptions, by decide, by simp⟩
  have hopens : opens (line.remount rec.fsOptions).columns = some '/' := (h.source halone).opens _
  refine ⟨hcolumns, ?_⟩
  rw [isEntry_body hcolumns (by rw [hopens]; decide), ← opens_eq_none_iff, hopens]
  exact Option.some_ne_none _

/-- What the lines of a record are. -/
structure LinesOf (junk : Junk) (data : ModuleData) (rec : FstabRec) : Prop where
  columns : ∀ l ∈ writtenLines junk data rec, ∀ w ∈ l.columns, Column w
  entries : (∀ l ∈ writtenLines junk data rec, isEntry l.body = true) ↔
    ¬ (LeftAlone junk data rec ∧ Blank rec.columns)
  back : RecBack junk data rec ((writtenLines junk data rec).map FstabLine.cols)
  ne_nil : writtenLines junk data rec ≠ []

theorem FirstLine.firstBack (h : FirstLine junk data rec line useBind) :
    FirstBack junk data rec line.cols := by
  obtain ⟨hmount, htype, hflags⟩ := h.kept
  refine ⟨hmount, htype, hflags, h.alone, ?_⟩
  intro line' useBind' hline'
  rw [h.patched] at hline'
  obtain ⟨rfl, -⟩ := Prod.mk.inj (Option.some.inj hline')
  exact ⟨rfl, rfl⟩

theorem FirstLine.linesOf (h : FirstLine junk data rec line useBind)
    (hcols : StandardCols rec.toFstabCols) : LinesOf junk data rec := by
  by_cases hremount : NeedsRemount data rec
  · have hlines := h.lines_of_remount hremount
    obtain ⟨hcolumns, hentry⟩ := h.remount_spec hcols hremount
    refine ⟨?_, ?_, ⟨line.cols, h.firstBack, ?_, fun hnot => absurd hremount hnot⟩, ?_⟩
    · rw [hlines]
      simp only [List.forall_mem_cons]
      exact ⟨h.columns, hcolumns, by simp⟩
    · rw [hlines, ← h.isEntry_iff hcols]
      simp [hentry]
    · intro _
      refine ⟨(line.remount rec.fsOptions).cols, ⟨?_, ?_, rfl⟩, by rw [hlines]; rfl⟩
      · obtain ⟨hmount, htype, -⟩ := h.kept
        exact ⟨hmount, htype, rfl⟩
      · rw [← hcols.some_fsOptions]
        rfl
    · rw [hlines]
      exact List.cons_ne_nil _ _
  · have hlines := h.lines_of_not_remount hremount
    refine ⟨?_, ?_, ⟨line.cols, h.firstBack, fun hyes => absurd hyes hremount, ?_⟩, ?_⟩
    · rw [hlines]
      simp only [List.forall_mem_cons]
      exact ⟨h.columns, by simp⟩
    · rw [hlines, ← h.isEntry_iff hcols]
      simp
    · intro _
      rw [hlines]
      rfl
    · rw [hlines]
      exact List.cons_ne_nil _ _

/-- The number of records is fixed. -/
theorem RecBack.length_eq {part part' : List FstabCols} (h : RecBack junk data rec part)
    (h' : RecBack junk data rec part') : part.length = part'.length := by
  obtain ⟨first, -, hyes, hno⟩ := h
  obtain ⟨first', -, hyes', hno'⟩ := h'
  by_cases hremount : NeedsRemount data rec
  · obtain ⟨second, -, rfl⟩ := hyes hremount
    obtain ⟨second', -, rfl⟩ := hyes' hremount
    rfl
  · rw [hno hremount, hno' hremount]
    rfl

end File

/-! ### Files in standard format -/

theorem read_written {ls : List FstabLine} (h : ∀ l ∈ ls, ∀ w ∈ l.columns, Column w) :
    doFsMgrReadFstab false (some (ls.flatMap (fileWriteFstabrec false))) =
      if ls.any fun l => isEntry l.body then
        some ((ls.filter fun l => isEntry l.body).map FstabLine.cols)
      else none := by
  have htext : fileWriteFstabrec false = fun l => l.body ++ ['\n'] := by
    funext l
    exact fileWriteFstabrec_standard l
  rw [htext]
  apply doFsMgrReadFstab_lines
  · intro l hl
    exact body_plain (h l hl)
  · intro l hl _
    exact readRec_body (h l hl)

section Recs

variable {data : ModuleData} {junk : ℕ → Junk} {recs : List FstabRec}

theorem fileLines_zero : fileLines junk data 0 recs =
    (recs.mapIdx fun i rec => writtenLines (junk i) data rec).flatten := by
  simp only [fileLines, Nat.zero_add]

theorem mem_fileLines {l : FstabLine} : l ∈ fileLines junk data 0 recs ↔
    ∃ i rec, recs[i]? = some rec ∧ l ∈ writtenLines (junk i) data rec := by
  rw [fileLines_zero, List.mem_flatten]
  constructor
  · rintro ⟨lines, hlines, hl⟩
    obtain ⟨i, hi, rfl⟩ := List.mem_mapIdx.mp hlines
    exact ⟨i, recs[i], List.getElem?_eq_getElem hi, hl⟩
  · rintro ⟨i, rec, hrec, hl⟩
    refine ⟨_, List.mem_of_getElem? (i := i) ?_, hl⟩
    rw [List.getElem?_mapIdx, hrec]
    rfl

/-- Both have a fixed number of records for each line. -/
theorem length_parts {parts : List (List FstabCols)}
    (hlines : ∀ i rec, recs[i]? = some rec → LinesOf (junk i) data rec)
    (hlen : parts.length = recs.length)
    (hparts : ∀ i rec part, recs[i]? = some rec → parts[i]? = some part →
      RecBack (junk i) data rec part) :
    parts.flatten.length = (fileLines junk data 0 recs).length := by
  have hmap : parts.map List.length =
      (recs.mapIdx fun i rec => writtenLines (junk i) data rec).map List.length := by
    apply List.ext_getElem?
    intro i
    rw [List.getElem?_map, List.getElem?_map, List.getElem?_mapIdx]
    cases hrec : recs[i]? with
    | none =>
      have hi : recs.length ≤ i := List.getElem?_eq_none_iff.mp hrec
      rw [List.getElem?_eq_none (by omega)]
      rfl
    | some rec =>
      have hi : i < recs.length := (List.getElem?_eq_some_iff.mp hrec).1
      obtain ⟨part, hpart⟩ : ∃ part, parts[i]? = some part :=
        ⟨_, List.getElem?_eq_getElem (by omega)⟩
      have hback := (hparts i rec part hrec hpart).length_eq (hlines i rec hrec).back
      rw [hpart, Option.map_some, Option.map_some, Option.map_some, hback, List.length_map]
  rw [fileLines_zero, List.length_flatten, List.length_flatten, hmap]

theorem readsBack_of_lines (hlines : ∀ i rec, recs[i]? = some rec → LinesOf (junk i) data rec)
    (hne : recs ≠ [])
    (htext : ∀ i rec, recs[i]? = some rec → LeftAlone (junk i) data rec → ¬ Blank rec.columns) :
    ReadsBack junk data recs
      ((fileLines junk data 0 recs).flatMap (fileWriteFstabrec false)) := by
  have hcolumns : ∀ l ∈ fileLines junk data 0 recs, ∀ w ∈ l.columns, Column w := by
    intro l hl
    obtain ⟨i, rec, hrec, hl⟩ := mem_fileLines.mp hl
    exact (hlines i rec hrec).columns l hl
  have hentries : ∀ l ∈ fileLines junk data 0 recs, isEntry l.body = true := by
    intro l hl
    obtain ⟨i, rec, hrec, hl⟩ := mem_fileLines.mp hl
    refine (hlines i rec hrec).entries.mpr ?_ l hl
    rintro ⟨halone, hblank⟩
    exact htext i rec hrec halone hblank
  have hany : ((fileLines junk data 0 recs).any fun l => isEntry l.body) = true := by
    obtain ⟨rec, rest, hrecs⟩ := List.exists_cons_of_ne_nil hne
    have hrec : recs[0]? = some rec := by rw [hrecs]; rfl
    obtain ⟨l, ls, hl⟩ := List.exists_cons_of_ne_nil (hlines 0 rec hrec).ne_nil
    have hmem : l ∈ fileLines junk data 0 recs :=
      mem_fileLines.mpr ⟨0, rec, hrec, by rw [hl]; exact List.mem_cons_self⟩
    exact List.any_eq_true.mpr ⟨l, hmem, hentries l hmem⟩
  refine ⟨recs.mapIdx fun i rec => (writtenLines (junk i) data rec).map FstabLine.cols, ?_, ?_, ?_⟩
  · have hmap : (recs.mapIdx fun i rec => writtenLines (junk i) data rec).map
          (List.map FstabLine.cols) =
        recs.mapIdx fun i rec => (writtenLines (junk i) data rec).map FstabLine.cols := by
      apply List.ext_getElem?
      intro i
      simp only [List.getElem?_map, List.getElem?_mapIdx, Option.map_map]
      rfl
    rw [read_written hcolumns, if_pos hany, List.filter_eq_self.mpr hentries, fileLines_zero,
      List.map_flatten, hmap]
  · exact List.length_mapIdx
  · intro i rec part hrec hpart
    rw [List.getElem?_mapIdx, hrec] at hpart
    obtain rfl := Option.some.inj hpart
    exact (hlines i rec hrec).back

theorem not_readsBack_of_blank (hlines : ∀ i rec, recs[i]? = some rec → LinesOf (junk i) data rec)
    {i : ℕ} {rec : FstabRec} (hrec : recs[i]? = some rec) (halone : LeftAlone (junk i) data rec)
    (hblank : Blank rec.columns) :
    ¬ ReadsBack junk data recs
      ((fileLines junk data 0 recs).flatMap (fileWriteFstabrec false)) := by
  rintro ⟨parts, hread, hlen, hparts⟩
  have hcolumns : ∀ l ∈ fileLines junk data 0 recs, ∀ w ∈ l.columns, Column w := by
    intro l hl
    obtain ⟨i, rec, hrec, hl⟩ := mem_fileLines.mp hl
    exact (hlines i rec hrec).columns l hl
  -- the blank line is not read
  have hlost : ∃ l ∈ fileLines junk data 0 recs, ¬ isEntry l.body = true := by
    by_contra hall
    refine (hlines i rec hrec).entries.mp ?_ ⟨halone, hblank⟩
    intro l hl
    by_contra hentry
    exact hall ⟨l, mem_fileLines.mpr ⟨i, rec, hrec, hl⟩, hentry⟩
  have hshort := List.length_filter_lt_length_iff_exists.mpr hlost
  rw [read_written hcolumns] at hread
  split_ifs at hread
  have hcount := congrArg List.length (Option.some.inj hread)
  rw [List.length_map, length_parts hlines hlen hparts] at hcount
  omega

/-! ### Files in TWRP format -/

/-- The line of a record in TWRP format, without its newline. -/
def FstabRec.twrpBody (rec : FstabRec) : CString :=
  rec.mountPoint ++ ' ' :: (rec.fsType ++ ' ' :: (rec.blkDevice ++ ' ' :: ' ' :: ' ' ::
    rec.unhandledColumns.getD []))

theorem joinColumns_getD (ws : List CString) :
    (joinColumns ws).getD [] = ws.flatMap (· ++ [' ']) := by
  rw [joinColumns]
  split_ifs with h
  · rw [h]
    rfl
  · rfl

theorem tokens_twrpBody {rec : FstabRec} (h : TwrpCols rec.toFstabCols) {ws : List CString}
    (hws : ∀ w ∈ ws, Column w) (hjoin : rec.unhandledColumns = joinColumns ws) :
    tokens fieldDelim rec.twrpBody = [rec.mountPoint, rec.fsType, rec.blkDevice] ++ ws := by
  have hblank : fieldDelim ' ' = true := by decide
  have hcolumns := h.columns
  simp only [List.forall_mem_cons] at hcolumns
  obtain ⟨h1, h2, h3, -⟩ := hcolumns
  have hrow := tokens_row hblank (fun w hw => Column.word (hws w hw)) []
  rw [List.append_nil, tokens_nil, List.append_nil] at hrow
  rw [FstabRec.twrpBody, tokens_word_cons (Column.word h1) hblank,
    tokens_word_cons (Column.word h2) hblank, tokens_word_cons (Column.word h3) hblank,
    tokens_cons hblank, tokens_cons hblank, hjoin, joinColumns_getD, hrow]
  rfl

/-- A line in TWRP format gives its record back. -/
theorem readRec_twrpBody {rec : FstabRec} (h : TwrpCols rec.toFstabCols) :
    isEntry rec.twrpBody = true ∧ readRec true rec.twrpBody = some rec.toFstabCols := by
  obtain ⟨ws, hws, hjoin, c, hopens, hc⟩ := h.unhandled
  have htokens := tokens_twrpBody h hws hjoin
  refine ⟨isEntry_iff.mpr ⟨c, by rw [htokens]; exact hopens, hc⟩, ?_⟩
  obtain ⟨hflags, hmgr⟩ := h.flags
  have hcols : rec.toFstabCols = ⟨rec.blkDevice, rec.mountPoint, rec.fsType, some DEFAULTS,
      some DEFAULTS, joinColumns ws, 0⟩ := by
    show FstabCols.mk rec.blkDevice rec.mountPoint rec.fsType rec.fsOptionsUnparsed
      rec.fsMgrFlagsUnparsed rec.unhandledColumns rec.fsMgrFlags = _
    rw [h.options, hflags, hjoin, hmgr]
  unfold readRec
  rw [htokens, hcols]
  rfl

theorem twrpBody_plain {rec : FstabRec} (h : TwrpCols rec.toFstabCols) :
    '\n' ∉ rec.twrpBody ∧ nul ∉ rec.twrpBody := by
  obtain ⟨ws, hws, hjoin, -⟩ := h.unhandled
  have hcolumn : ∀ w ∈ [rec.mountPoint, rec.fsType, rec.blkDevice] ++ ws, Column w := by
    intro w hw
    rcases List.mem_append.mp hw with hw | hw
    · exact h.columns w hw
    · exact hws w hw
  apply plain_of_columns hcolumn
  intro c hc
  rw [FstabRec.twrpBody, hjoin, joinColumns_getD] at hc
  simp only [List.mem_append, List.mem_cons, List.mem_flatMap, List.not_mem_nil, or_false] at hc
  simp only [List.mem_append, List.mem_cons, List.not_mem_nil, or_false, or_and_right,
    exists_or, exists_eq_left]
  rcases hc with hc | hc | hc | hc | hc | hc | hc | ⟨w, hw, hc | hc⟩
  all_goals tauto

/-- A record that is left alone is written as it was read. -/
theorem writtenLines_twrp {params : BootParams} {env : SetupEnv}
    (hsetup : setup params env = some data) {j : Junk} {rec : FstabRec}
    (h : TwrpCols rec.toFstabCols) (halone : LeftAlone j data rec) :
    (writtenLines j data rec).flatMap (fileWriteFstabrec true) = rec.twrpBody ++ ['\n'] := by
  obtain ⟨hfix, hnone⟩ := halone
  have hline := patchLine_alone (sndstageFixup_of_not_fixedUp hsetup hfix) hnone
  have hopt : rec.fsOptions = DEFAULTS := by rw [FstabRec.fsOptions, h.options, Option.getD_some]
  simp [writtenLines, hline, fileWriteFstabrec, FstabRec.toLine, FstabRec.twrpBody, hopt, h.flags.1]

theorem twrp_readsBack {params : BootParams} {env : SetupEnv}
    (hsetup : setup params env = some data) (hcols : ∀ r ∈ recs, TwrpCols r.toFstabCols)
    (halone : ∀ i rec, recs[i]? = some rec → LeftAlone (junk i) data rec) (hne : recs ≠ []) :
    doFsMgrReadFstab true (some ((fileLines junk data 0 recs).flatMap (fileWriteFstabrec true))) =
      some (recs.map FstabRec.toFstabCols) := by
  have htext : (fileLines junk data 0 recs).flatMap (fileWriteFstabrec true) =
      recs.flatMap fun r => r.twrpBody ++ ['\n'] := by
    have hbodies : (recs.mapIdx fun i rec => writtenLines (junk i) data rec).map
          (List.flatMap (fileWriteFstabrec true)) = recs.map fun r => r.twrpBody ++ ['\n'] := by
      apply List.ext_getElem?
      intro i
      rw [List.getElem?_map, List.getElem?_map, List.getElem?_mapIdx]
      cases hrec : recs[i]? with
      | none => rfl
      | some rec =>
        have hwritten := writtenLines_twrp hsetup (hcols rec (List.mem_of_getElem? hrec))
          (halone i rec hrec)
        rw [Option.map_some, Option.map_some, Option.map_some, hwritten]
    rw [fileLines_zero, List.flatten_eq_flatMap, List.flatMap_assoc, List.flatMap_def]
    show ((recs.mapIdx _).map (List.flatMap (fileWriteFstabrec true))).flatten = _
    rw [hbodies, List.flatMap_def]
  rw [htext]
  have hentries : ∀ r ∈ recs, isEntry r.twrpBody = true := by
    intro r hr
    exact (readRec_twrpBody (hcols r hr)).1
  have hany : (recs.any fun r => isEntry r.twrpBody) = true := by
    obtain ⟨r, rest, hrecs⟩ := List.exists_cons_of_ne_nil hne
    have hmem : r ∈ recs := by rw [hrecs]; exact List.mem_cons_self
    exact List.any_eq_true.mpr ⟨r, hmem, hentries r hmem⟩
  have hread := doFsMgrReadFstab_lines (fun r hr => twrpBody_plain (hcols r hr))
    (fun r hr _ => (readRec_twrpBody (hcols r hr)).2)
  rw [hread, if_pos hany, List.filter_eq_self.mpr hentries]

end Recs

/-- **A patched fstab reads back as intended exactly if** every record that is left alone has a column
with something else than white space; one in TWRP format always does. -/
theorem readsBack_iff (params : BootParams) (env : SetupEnv) (data : ModuleData)
    (hsetup : setup params env = some data) (hcmdline : FromCmdline params) (hread : FstabsRead env)
    (junk : ℕ → Junk) (n : ℕ) (fstab : Fstab) (hfstab : data.targetFstabs[n]? = some fstab) :
    ∃ text, patchFstab junk data true fstab = some text ∧
      (fstab.twrp = false → (ReadsBack junk data fstab.recs text ↔
        ∀ i rec, fstab.recs[i]? = some rec → LeftAlone (junk i) data rec → ¬ Blank rec.columns)) ∧
      (fstab.twrp = true → (∀ i rec, fstab.recs[i]? = some rec → LeftAlone (junk i) data rec) →
        doFsMgrReadFstab true (some text) = some (fstab.recs.map FstabRec.toFstabCols)) := by
  obtain ⟨hne, hcols⟩ := target_cols hsetup hread hfstab
  have hline : ∀ j rec, (patchLine j data rec).isSome = true := by
    intro j rec
    obtain ⟨source, options, hun⟩ := unredirected_of_setup hsetup j rec
    rw [patchLine, hun.fixup]
    rfl
  have hoptions : ∀ rec ∈ fstab.recs, rec.fsOptionsUnparsed.isSome = true := by
    intro rec hrec
    obtain ⟨hstandard, htwrp⟩ := hcols rec hrec
    cases hformat : fstab.twrp with
    | false => exact (hstandard hformat).options
    | true =>
      rw [(htwrp hformat).options]
      rfl
  refine ⟨_, patchRecs_eq hline hoptions, ?_, ?_⟩
  · intro hformat
    have hlines : ∀ i rec, fstab.recs[i]? = some rec → LinesOf (junk i) data rec := by
      intro i rec hrec
      have hstandard := (hcols rec (List.mem_of_getElem? hrec)).1 hformat
      obtain ⟨line, useBind, hfirst⟩ := firstLine_exists hsetup hread hcmdline hstandard (junk i)
      exact hfirst.linesOf hstandard
    rw [hformat]
    constructor
    · intro hback i rec hrec halone hblank
      exact not_readsBack_of_blank hlines hrec halone hblank hback
    · exact readsBack_of_lines hlines hne
  · intro hformat halone
    rw [hformat]
    exact twrp_readsBack hsetup (fun r hr => (hcols r hr).2 hformat) halone hne

/-! #### A ROM with two fstabs -/

def romText : CString :=
  "# fstab\n/dev/block/mmcblk0p1 /data ext4 rw wait,check\n/dev/block/mmcblk0p4 /system ext4 ro wait".toList

/-- The columns are carriage returns, and what is behind them is not kept. -/
def returnsText : CString := "\r \r \r \r \r x\n".toList

def multibootText : CString := "/dev/block/mmcblk0p1 /data ext4 rw multiboot\n".toList

def textCols (text : CString) : List FstabCols := (doFsMgrReadFstab false (some text)).getD []

def textsEnv : SetupEnv :=
  { clashEnv with
    multibootFstab := some (textCols multibootText)
    numEntries_lt := by decide
    targetFstabs := some [⟨textCols romText, "/fstab.rom".toList, false⟩,
      ⟨textCols returnsText, "/fstab.returns".toList, false⟩] }

theorem fstabsRead_texts : FstabsRead textsEnv := by
  refine ⟨?_, ?_⟩
  · intro recs hrecs
    obtain rfl := Option.some.inj hrecs
    exact ⟨some multibootText, rfl⟩
  · intro fstabs hfstabs f hf
    obtain rfl := Option.some.inj hfstabs
    simp only [List.mem_cons, List.not_mem_nil, or_false] at hf
    rcases hf with rfl | rfl
    · exact ⟨some romText, rfl⟩
    · exact ⟨some returnsText, rfl⟩

theorem fromCmdline_clash : FromCmdline (clashParams .ANDROID) := by
  intro p hp
  obtain rfl := Option.some.inj hp
  refine ⟨fun _ => 0, some cmdline, ⟨0, "(hd0,1)/android".toList, ⟨0, 1, "/android".toList⟩⟩, ?_, rfl⟩
  have haccepted : accepted MULTIBOOT_SOURCE (nvCalls (fun _ => 0) (some cmdline)) =
      [⟨0, "(hd0,1)/android".toList, ⟨0, 1, "/android".toList⟩⟩] := rfl
  rw [haccepted]
  exact List.mem_cons_self

def texts : ModuleData := (setup (clashParams .ANDROID) textsEnv).get rfl

/-- The two fstabs in memory. -/
def rom : Fstab := texts.targetFstabs[0]?.get rfl
def returns : Fstab := texts.targetFstabs[1]?.get rfl

theorem readsBack_iff_rom : ∃ text, patchFstab default texts true rom = some text ∧
    (rom.twrp = false → (ReadsBack default texts rom.recs text ↔
      ∀ (i : ℕ) rec, rom.recs[i]? = some rec → LeftAlone default texts rec → ¬ Blank rec.columns)) ∧
    (rom.twrp = true → (∀ (i : ℕ) rec, rom.recs[i]? = some rec → LeftAlone default texts rec) →
      doFsMgrReadFstab true (some text) = some (rom.recs.map FstabRec.toFstabCols)) :=
  readsBack_iff (clashParams .ANDROID) textsEnv texts rfl fromCmdline_clash fstabsRead_texts default 0
    rom rfl

/-- The record of carriage returns is lost, and with it the file. -/
theorem returns_lost :
    setup (clashParams .ANDROID) textsEnv = some texts ∧ FromCmdline (clashParams .ANDROID) ∧
    FstabsRead textsEnv ∧ texts.targetFstabs[1]? = some returns ∧ returns.twrp = false ∧
    ∃ text, patchFstab default texts true returns = some text ∧
      doFsMgrReadFstab false (some text) = none ∧ ¬ ReadsBack default texts returns.recs text := by
  have hnone : doFsMgrReadFstab false (some "\r \r \r \r \r\n".toList) = none := by decide
  refine ⟨rfl, fromCmdline_clash, fstabsRead_texts, rfl, rfl, "\r \r \r \r \r\n".toList, by decide,
    hnone, ?_⟩
  rintro ⟨parts, hread, -⟩
  rw [hnone] at hread
  cases hread

end Multiboot
