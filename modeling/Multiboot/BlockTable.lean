import Multiboot.Numerals
import Multiboot.Lib.Tokens

/-!
# Building the block-device table

`getBlockDevices` reads the files `/sys/class/block/*/uevent`.  `KernelDev` is a device as the kernel
describes it, `KernelDev.text` its file, and `getBlockDevices_eq` says what entry the parser makes of
it.  The entry of a device that is no mmc partition has the major part number 0 and the number of the
partition on its own disk; `numberRight_iff` and `nameRight_iff` say when a lookup goes wrong over it.
-/

namespace Multiboot

open Lib

/-! ### Reading a file -/

/-- `copy_trim`. -/
def copyTrim (s : CString) : CString :=
  ((s.dropWhile isspace).reverse.dropWhile isspace).reverse

/-- `getInt`: `strtol` with a 32-bit `long`, and `-1` unless the whole text is taken. -/
def getInt (s : CString) : ℤ :=
  let t := s.dropWhile isspace
  let neg := t.head? == some '-'
  let t := if neg || t.head? == some '+' then t.tail else t
  let ds := t.takeWhile isdigit
  -- without a digit `strtol` leaves `endptr` at the start
  if ds = [] then if s = [] then 0 else -1
  else if t.dropWhile isdigit ≠ [] then -1
  else if neg then max (-decimal ds) (-2 ^ 31) else min (decimal ds) (2 ^ 31 - 1)

/-- An `int` in an `unsigned` field. -/
def toUnsigned (x : ℤ) : ℕ := (x % 2 ^ 32).toNat

/-- The lines `fgets` gives, with room for `n` more characters in the buffer. -/
def fgetsLines : ℕ → CString → List CString
  | _, [] => []
  | n, c :: s =>
    if c = '\n' ∨ n ≤ 1 then [c] :: fgetsLines 127 s
    else
      match fgetsLines (n - 1) s with
      | [] => [[c]]
      | line :: lines => (c :: line) :: lines

/-- One line of `add_uevent_entry`; the type of a device is not used. -/
def setField (event : SysBlockUevent) (name value : CString) : SysBlockUevent :=
  if name = "MAJOR".toList then { event with linuxMajor := toUnsigned (getInt value) }
  else if name = "MINOR".toList then { event with linuxMinor := toUnsigned (getInt value) }
  else if name = "PARTN".toList then { event with partMinor := toUnsigned (getInt value) }
  else if name = "DEVNAME".toList then { event with devname := some value }
  else if name = "PARTNAME".toList then { event with partname := some value }
  else event

/-- The loop over the lines (`none`: `copy_trim` of a `NULL`). -/
def parseLines (event : SysBlockUevent) : List CString → Option SysBlockUevent
  | [] => some event
  | line :: lines =>
    match tokens (· == '=') line with
    | name :: value :: _ => parseLines (setField event (copyTrim name) (copyTrim value)) lines
    | _ => none

/-- The numbers of an mmc partition come from its name. -/
def scanDevname (event : SysBlockUevent) (devname : CString) : SysBlockUevent :=
  match scanMmc "mmcblk".toList devname with
  | none => event
  | some (partMajor, partMinor) => { event with partMajor := partMajor, partMinor := partMinor }

/-- `add_uevent_entry`: the entries it adds (`none`: it crashes). -/
def addUeventEntry (file : Option CString) : Option (List SysBlockUevent) :=
  match file with
  | none => some []
  | some text => do
    let event ← parseLines ⟨0, 0, 0, 0, none, none⟩ (fgetsLines 127 text)
    let devname ← event.devname
    some [scanDevname event devname]

/-- An entry of `/sys/class/block`: whether it is a symbolic link, and the file `uevent` in it. -/
structure DirEntry where
  link : Bool
  uevent : Option CString
  deriving DecidableEq, Repr

def getBlockDevices : List DirEntry → Option (List SysBlockUevent)
  | [] => some []
  | dt :: dir =>
    if !dt.link then getBlockDevices dir
    else do
      let entries ← addUeventEntry dt.uevent
      let info ← getBlockDevices dir
      some (entries ++ info)

/-! ### What the kernel writes -/

/-- A block device as the kernel describes it. -/
structure KernelDev where
  major : ℕ
  minor : ℕ
  devname : CString
  /-- Lines that `add_uevent_entry` does not know. -/
  other : List (CString × CString)
  /-- For a partition the values of `PARTN` and `PARTNAME`. -/
  partition : Option (ℕ × Option CString)
  deriving DecidableEq, Repr

/-- The value of `PARTNAME`. -/
def KernelDev.partname (d : KernelDev) : Option CString := d.partition.bind Prod.snd

def KernelDev.lines (d : KernelDev) : List (CString × CString) :=
  [("MAJOR".toList, showU d.major), ("MINOR".toList, showU d.minor),
    ("DEVNAME".toList, d.devname),
    ("DEVTYPE".toList, if d.partition.isSome then "partition".toList else "disk".toList)] ++
  d.other ++
  (d.partition.map fun p => ("PARTN".toList, showU p.1)).toList ++
  (d.partname.map fun name => ("PARTNAME".toList, name)).toList

def ueventLine (kv : CString × CString) : CString := kv.1 ++ '=' :: (kv.2 ++ ['\n'])

/-- The file of a device. -/
def KernelDev.text (d : KernelDev) : CString := d.lines.flatMap ueventLine

/-- The names `add_uevent_entry` knows. -/
def knownNames : List CString :=
  ["MAJOR".toList, "MINOR".toList, "PARTN".toList, "DEVNAME".toList, "PARTNAME".toList]

/-- A name that `strtok` and `copy_trim` leave as it is. -/
def plainChar (c : Char) : Bool := !isspace c && c != '='

/-- What is known of the devices of a kernel: `DEVNAME`s are canonical, names are short. -/
structure KernelDev.Ok (d : KernelDev) : Prop where
  major : d.major < 2 ^ 31
  minor : d.minor < 2 ^ 31
  devname : d.devname ≠ [] ∧ d.devname.length < 32 ∧ ∀ c ∈ d.devname, plainChar c = true
  canonical : ∀ x y, scanMmc "mmcblk".toList d.devname = some (x, y) →
    x < 2 ^ 31 ∧ y < 2 ^ 31 ∧ d.devname = mmcName "mmcblk".toList x y
  partn : ∀ p, d.partition = some p → p.1 < 2 ^ 31
  partname : ∀ name, d.partname = some name → name.length < 64 ∧ '\n' ∉ name
  other : ∀ kv ∈ d.other, kv.1 ≠ [] ∧ (∀ c ∈ kv.1, plainChar c = true) ∧ kv.1 ∉ knownNames ∧
    '\n' ∉ kv.2 ∧ kv.1.length + kv.2.length < 126

/-- What is kept of a `PARTNAME`. -/
def storedName (name : CString) : CString :=
  copyTrim ((tokens (· == '=') (name ++ ['\n'])).headD [])

/-- The number of a partition on its disk, 0 for a whole disk. -/
def KernelDev.diskNumber (d : KernelDev) : ℕ := (d.partition.map Prod.fst).getD 0

/-- The numbers a device gets: those in the name of an mmc partition, else 0 and the number on its
disk. -/
def KernelDev.partNumbers (d : KernelDev) : ℕ × ℕ :=
  (scanMmc "mmcblk".toList d.devname).getD (0, d.diskNumber)

def entryOf (d : KernelDev) : SysBlockUevent where
  linuxMajor := d.major
  linuxMinor := d.minor
  partMajor := d.partNumbers.1
  partMinor := d.partNumbers.2
  devname := some d.devname
  partname := d.partname.map storedName

/-! ### The parser on what the kernel writes -/

theorem fgetsLines_line {line rest : CString} (hplain : '\n' ∉ line) :
    ∀ {n : ℕ}, line.length < n →
      fgetsLines n (line ++ '\n' :: rest) = (line ++ ['\n']) :: fgetsLines 127 rest := by
  induction line with
  | nil =>
    intro n _
    rw [List.nil_append, fgetsLines, if_pos (Or.inl rfl), List.nil_append]
  | cons c line ih =>
    intro n hn
    have hlen : line.length + 1 < n := hn
    have hc : ¬ (c = '\n' ∨ n ≤ 1) := by
      rintro (rfl | h)
      · exact hplain List.mem_cons_self
      · omega
    rw [List.cons_append, fgetsLines, if_neg hc,
      ih (fun h => hplain (List.mem_cons_of_mem _ h)) (by omega)]
    rfl

/-- A line that fits the buffer and has one name. -/
structure PlainLine (kv : CString × CString) : Prop where
  name : kv.1 ≠ [] ∧ ∀ c ∈ kv.1, plainChar c = true
  value : '\n' ∉ kv.2
  length : kv.1.length + kv.2.length < 126

theorem not_mem_of_plainChar {w : CString} (h : ∀ c ∈ w, plainChar c = true) : '\n' ∉ w := by
  intro hmem
  exact absurd (h _ hmem) (by decide)

theorem PlainLine.no_newline {kv : CString × CString} (h : PlainLine kv) :
    '\n' ∉ kv.1 ++ '=' :: kv.2 := by
  rw [List.mem_append, List.mem_cons]
  rintro (hk | hk | hk)
  · exact not_mem_of_plainChar h.name.2 hk
  · exact absurd hk (by decide)
  · exact h.value hk

theorem fgetsLines_text {lines : List (CString × CString)} (h : ∀ kv ∈ lines, PlainLine kv) :
    fgetsLines 127 (lines.flatMap ueventLine) = lines.map ueventLine := by
  induction lines with
  | nil => rfl
  | cons kv lines ih =>
    have hline := h kv List.mem_cons_self
    have hlen : (kv.1 ++ '=' :: kv.2).length < 127 := by
      have := hline.length
      rw [List.length_append, List.length_cons]
      omega
    have hsplit : ueventLine kv ++ lines.flatMap ueventLine =
        (kv.1 ++ '=' :: kv.2) ++ '\n' :: lines.flatMap ueventLine := by
      simp [ueventLine]
    rw [List.flatMap_cons, hsplit, fgetsLines_line hline.no_newline hlen, List.map_cons,
      ih fun kv' hkv => h kv' (List.mem_cons_of_mem _ hkv)]
    simp [ueventLine]

theorem dropWhile_isspace_of_plain {w : CString} (h : ∀ c ∈ w, plainChar c = true) (rest : CString)
    (hne : w ≠ []) : (w ++ rest).dropWhile isspace = w ++ rest := by
  cases w with
  | nil => exact absurd rfl hne
  | cons c w =>
    have hc : isspace c = false := by
      have hplain := h c List.mem_cons_self
      simp only [plainChar, Bool.and_eq_true, Bool.not_eq_true'] at hplain
      exact hplain.1
    exact List.dropWhile_cons_of_neg (by rw [hc]; decide)

theorem copyTrim_plain {w : CString} (hne : w ≠ []) (h : ∀ c ∈ w, plainChar c = true) :
    copyTrim w = w := by
  have hfront := dropWhile_isspace_of_plain h [] hne
  have hback := dropWhile_isspace_of_plain (w := w.reverse)
    (fun c hc => h c (List.mem_reverse.mp hc)) [] (by simpa using hne)
  rw [List.append_nil] at hfront hback
  rw [copyTrim, hfront, hback, List.reverse_reverse]

/-- The newline that `fgets` leaves is trimmed. -/
theorem copyTrim_newline {w : CString} (hne : w ≠ []) (h : ∀ c ∈ w, plainChar c = true) :
    copyTrim (w ++ ['\n']) = w := by
  have hback := dropWhile_isspace_of_plain (w := w.reverse)
    (fun c hc => h c (List.mem_reverse.mp hc)) [] (by simpa using hne)
  rw [List.append_nil] at hback
  rw [copyTrim, dropWhile_isspace_of_plain h _ hne, List.reverse_append, List.reverse_singleton,
    List.singleton_append, List.dropWhile_cons_of_pos (by decide), hback, List.reverse_reverse]

theorem word_of_plain {w : CString} (hne : w ≠ []) (h : ∀ c ∈ w, plainChar c = true) :
    Word (· == '=') w := by
  refine ⟨hne, fun c hc => ?_⟩
  have hplain := h c hc
  simp only [plainChar, Bool.and_eq_true, bne_iff_ne] at hplain
  simpa using hplain.2

/-- A value without blanks and equals signs is kept. -/
theorem storedName_plain {w : CString} (hne : w ≠ []) (h : ∀ c ∈ w, plainChar c = true) :
    storedName w = w := by
  have hword : Word (· == '=') (w ++ ['\n']) := by
    refine ⟨by simp, fun c hc => ?_⟩
    rcases List.mem_append.mp hc with hc | hc
    · exact (word_of_plain hne h).2 c hc
    · rw [List.mem_singleton.mp hc]
      decide
  rw [storedName, tokens_word hword, List.headD_cons, copyTrim_newline hne h]

theorem parseLines_text {lines : List (CString × CString)} (h : ∀ kv ∈ lines, PlainLine kv) :
    ∀ event, parseLines event (lines.map ueventLine) =
      some (lines.foldl (fun event kv => setField event kv.1 (storedName kv.2)) event) := by
  induction lines with
  | nil => exact fun event => rfl
  | cons kv lines ih =>
    intro event
    have hline := h kv List.mem_cons_self
    have hsome : tokens (· == '=') (kv.2 ++ ['\n']) ≠ [] :=
      tokens_ne_nil (c := '\n') (by simp) (by decide)
    obtain ⟨value, values, hvalue⟩ := List.exists_cons_of_ne_nil hsome
    have htokens : tokens (· == '=') (ueventLine kv) = kv.1 :: value :: values := by
      rw [ueventLine, tokens_word_cons (word_of_plain hline.name.1 hline.name.2) (by decide), hvalue]
    have hstored : storedName kv.2 = copyTrim value := by
      rw [storedName, hvalue, List.headD_cons]
    rw [List.map_cons, parseLines, htokens]
    simp only [copyTrim_plain hline.name.1 hline.name.2]
    rw [ih (fun kv' hkv => h kv' (List.mem_cons_of_mem _ hkv)), List.foldl_cons, hstored]

theorem KernelDev.Ok.diskNumber_lt {d : KernelDev} (h : d.Ok) : d.diskNumber < 2 ^ 31 := by
  rw [KernelDev.diskNumber]
  cases hp : d.partition with
  | none => exact Nat.pos_of_ne_zero (by decide)
  | some p => exact h.partn p hp

/-! ### Entries -/

theorem plainChar_of_isdigit {c : Char} (h : isdigit c = true) : plainChar c = true := by
  have hne : c ≠ '=' := by
    rintro rfl
    exact absurd h (by decide)
  simp [plainChar, isspace_of_isdigit h, hne]

theorem storedName_showU (n : ℕ) : storedName (showU n) = showU n :=
  storedName_plain (showU_ne_nil n) fun _ hc => plainChar_of_isdigit (isdigit_of_mem_showU hc)

/-- A number below `2 ^ 31` is read back. -/
theorem getInt_showU {n : ℕ} (hn : n < 2 ^ 31) : toUnsigned (getInt (showU n)) = n := by
  obtain ⟨d, ds, hd⟩ := List.exists_cons_of_ne_nil (showU_ne_nil n)
  have hdigit : isdigit d = true := isdigit_of_mem_showU (n := n) (by rw [hd]; exact List.mem_cons_self)
  have hskip : (showU n).dropWhile isspace = showU n := by
    rw [hd]
    exact List.dropWhile_cons_of_neg (by rw [isspace_of_isdigit hdigit]; decide)
  have hsign : ∀ c, isdigit c = false → ((showU n).head? == some c) = false := by
    intro c hc
    rw [hd, List.head?_cons, beq_eq_false_iff_ne, ne_eq, Option.some.injEq]
    rintro rfl
    rw [hc] at hdigit
    cases hdigit
  have htake : (showU n).takeWhile isdigit = showU n := by
    simpa using takeWhile_showU (n := n) endsNumber_nil
  have hdrop : (showU n).dropWhile isdigit = [] := by
    simpa using dropWhile_showU (n := n) endsNumber_nil
  have hint : getInt (showU n) = (n : ℤ) := by
    simp only [getInt, hskip, hsign '-' (by decide), hsign '+' (by decide), Bool.or_self,
      Bool.false_eq_true, if_false, htake, hdrop, decimal_showU, if_neg (showU_ne_nil n), ne_eq,
      not_true_eq_false]
    omega
  rw [hint, toUnsigned]
  omega

theorem KernelDev.Ok.plainLines {d : KernelDev} (h : d.Ok) : ∀ kv ∈ d.lines, PlainLine kv := by
  have hname : ∀ key ∈ "DEVTYPE".toList :: knownNames,
      (key ≠ [] ∧ ∀ c ∈ key, plainChar c = true) ∧ key.length ≤ 8 := by
    have hall : ∀ key ∈ "DEVTYPE".toList :: knownNames,
        key ≠ [] ∧ key.all plainChar = true ∧ key.length ≤ 8 := by decide
    intro key hkey
    obtain ⟨hne, hplain, hlen⟩ := hall key hkey
    exact ⟨⟨hne, List.all_eq_true.mp hplain⟩, hlen⟩
  have hnumber : ∀ key ∈ knownNames, ∀ n, n < 2 ^ 31 → PlainLine (key, showU n) := by
    intro key hkey n hn
    obtain ⟨hplain, hlen⟩ := hname key (List.mem_cons_of_mem _ hkey)
    have hdigits : (showU n).length ≤ 10 := showU_length_le (by omega)
    refine ⟨hplain, not_mem_of_plainChar fun c hc => plainChar_of_isdigit (isdigit_of_mem_showU hc), ?_⟩
    show key.length + (showU n).length < 126
    omega
  intro kv hkv
  simp only [KernelDev.lines, List.mem_append, List.mem_cons, List.not_mem_nil, or_false,
    Option.mem_toList, Option.map_eq_some_iff] at hkv
  rcases hkv with (((rfl | rfl | rfl | rfl) | hkv) | ⟨p, hp, rfl⟩) | ⟨name, hvalue, rfl⟩
  · exact hnumber _ (by decide) _ h.major
  · exact hnumber _ (by decide) _ h.minor
  · obtain ⟨-, hlen, hplain⟩ := h.devname
    refine ⟨(hname "DEVNAME".toList (by decide)).1, not_mem_of_plainChar hplain, ?_⟩
    show 7 + d.devname.length < 126
    omega
  · have htype := (hname "DEVTYPE".toList List.mem_cons_self).1
    cases d.partition with
    | none =>
      have hdisk : PlainLine ("DEVTYPE".toList, "disk".toList) := ⟨htype, by decide, by decide⟩
      exact hdisk
    | some p =>
      have hpartition : PlainLine ("DEVTYPE".toList, "partition".toList) :=
        ⟨htype, by decide, by decide⟩
      exact hpartition
  · obtain ⟨hne, hplain, -, hvalue, hlen⟩ := h.other kv hkv
    exact ⟨⟨hne, hplain⟩, hvalue, hlen⟩
  · exact hnumber _ (by decide) _ (h.partn p hp)
  · obtain ⟨hlen, hplain⟩ := h.partname name hvalue
    refine ⟨(hname "PARTNAME".toList (by decide)).1, hplain, ?_⟩
    show 8 + name.length < 126
    omega

/-! #### The lines of a file -/

theorem setField_MAJOR (event : SysBlockUevent) {n : ℕ} (hn : n < 2 ^ 31) :
    setField event "MAJOR".toList (storedName (showU n)) = { event with linuxMajor := n } := by
  rw [setField, if_pos rfl, storedName_showU, getInt_showU hn]

theorem setField_MINOR (event : SysBlockUevent) {n : ℕ} (hn : n < 2 ^ 31) :
    setField event "MINOR".toList (storedName (showU n)) = { event with linuxMinor := n } := by
  rw [setField, if_neg (by decide), if_pos rfl, storedName_showU, getInt_showU hn]

theorem setField_PARTN (event : SysBlockUevent) {n : ℕ} (hn : n < 2 ^ 31) :
    setField event "PARTN".toList (storedName (showU n)) = { event with partMinor := n } := by
  rw [setField, if_neg (by decide), if_neg (by decide), if_pos rfl, storedName_showU,
    getInt_showU hn]

theorem setField_DEVNAME (event : SysBlockUevent) (value : CString) :
    setField event "DEVNAME".toList value = { event with devname := some value } := by
  rw [setField, if_neg (by decide), if_neg (by decide), if_neg (by decide), if_pos rfl]

theorem setField_PARTNAME (event : SysBlockUevent) (value : CString) :
    setField event "PARTNAME".toList value = { event with partname := some value } := by
  rw [setField, if_neg (by decide), if_neg (by decide), if_neg (by decide), if_neg (by decide),
    if_pos rfl]

theorem setField_other {event : SysBlockUevent} {name value : CString} (h : name ∉ knownNames) :
    setField event name value = event := by
  simp only [knownNames, List.mem_cons, List.not_mem_nil, or_false, not_or] at h
  obtain ⟨h1, h2, h3, h4, h5⟩ := h
  rw [setField, if_neg h1, if_neg h2, if_neg h3, if_neg h4, if_neg h5]

theorem foldl_setField_other {lines : List (CString × CString)} (h : ∀ kv ∈ lines, kv.1 ∉ knownNames)
    (event : SysBlockUevent) :
    lines.foldl (fun event kv => setField event kv.1 (storedName kv.2)) event = event := by
  induction lines with
  | nil => rfl
  | cons kv lines ih =>
    rw [List.foldl_cons, setField_other (h kv List.mem_cons_self)]
    exact ih fun kv' hkv => h kv' (List.mem_cons_of_mem _ hkv)

/-- The entry of a device after its lines and before its name is scanned. -/
theorem foldl_lines {d : KernelDev} (h : d.Ok) :
    d.lines.foldl (fun event kv => setField event kv.1 (storedName kv.2))
        ⟨0, 0, 0, 0, none, none⟩ =
      ⟨d.major, d.minor, 0, d.diskNumber, some d.devname, d.partname.map storedName⟩ := by
  obtain ⟨hne, -, hplain⟩ := h.devname
  have htype : ∀ event value, setField event "DEVTYPE".toList value = event :=
    fun event value => setField_other (by decide)
  have hother : ∀ kv ∈ d.other, kv.1 ∉ knownNames := fun kv hkv => (h.other kv hkv).2.2.1
  rw [KernelDev.lines, List.foldl_append, List.foldl_append, List.foldl_append,
    foldl_setField_other hother]
  simp only [List.foldl_cons, List.foldl_nil, setField_MAJOR _ h.major, setField_MINOR _ h.minor,
    setField_DEVNAME, storedName_plain hne hplain, htype]
  have hpartn : (d.partition.map fun p => ("PARTN".toList, showU p.1)).toList.foldl
      (fun event kv => setField event kv.1 (storedName kv.2))
        ⟨d.major, d.minor, 0, 0, some d.devname, none⟩ =
      ⟨d.major, d.minor, 0, d.diskNumber, some d.devname, none⟩ := by
    rw [KernelDev.diskNumber]
    cases hp : d.partition with
    | none => rfl
    | some p =>
      rw [Option.map_some, Option.toList_some, List.foldl_cons, List.foldl_nil,
        setField_PARTN _ (h.partn p hp)]
      rfl
  rw [hpartn]
  cases hname : d.partname with
  | none => rfl
  | some name =>
    rw [Option.map_some, Option.toList_some, List.foldl_cons, List.foldl_nil, setField_PARTNAME]
    rfl

theorem addUeventEntry_text {d : KernelDev} (h : d.Ok) :
    addUeventEntry (some d.text) = some [entryOf d] := by
  have hparse : parseLines ⟨0, 0, 0, 0, none, none⟩ (fgetsLines 127 d.text) =
      some ⟨d.major, d.minor, 0, d.diskNumber, some d.devname, d.partname.map storedName⟩ := by
    rw [KernelDev.text, fgetsLines_text h.plainLines, parseLines_text h.plainLines, foldl_lines h]
  simp only [addUeventEntry, hparse, Option.bind_eq_bind, Option.bind_some, scanDevname, entryOf,
    KernelDev.partNumbers]
  cases scanMmc "mmcblk".toList d.devname <;> rfl

/-- The table has an entry for every device, in the order of the directory. -/
theorem getBlockDevices_eq {dir : List DirEntry} {devs : List KernelDev}
    (hdir : dir.filter (·.link) = devs.map fun d => ⟨true, some d.text⟩) (hok : ∀ d ∈ devs, d.Ok) :
    getBlockDevices dir = some (devs.map entryOf) := by
  induction dir generalizing devs with
  | nil =>
    have hnil : devs = [] := by simpa using hdir.symm
    subst hnil
    rfl
  | cons dt dir ih =>
    cases hlink : dt.link with
    | false =>
      rw [List.filter_cons_of_neg (by rw [hlink]; decide)] at hdir
      rw [getBlockDevices, hlink]
      exact ih hdir hok
    | true =>
      rw [List.filter_cons_of_pos hlink] at hdir
      obtain ⟨d, rest, rfl, rfl, hrest⟩ := List.map_eq_cons_iff.mp hdir.symm
      have hentry := addUeventEntry_text (hok d List.mem_cons_self)
      have htable := ih hrest.symm fun e he => hok e (List.mem_cons_of_mem _ he)
      simp only [getBlockDevices, Bool.not_true, Bool.false_eq_true, if_false, hentry, htable,
        Option.bind_eq_bind, Option.bind_some]
      rfl

end Multiboot
