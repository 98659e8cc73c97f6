import Multiboot.BlockTable
import Multiboot.Lib.Strtok

/-!
# A uevent file byte by byte

`addUeventEntryTo` is `add_uevent_entry` with the whole entry, on any bytes: lines come in pieces of
127 characters, a piece ends at its first NUL, and `strtok` cuts it.  `pieceFields` is what this makes
of a file and `lineFields` what its lines say; `addUeventEntryTo_spec` is the entry the pieces give.
On bytes without a NUL the parser refines that of the table (`addUeventEntryTo_refines`).
-/

namespace Multiboot

open Lib

/-! ### The source -/

/-- `uevent_type_t`. -/
inductive UeventType
  | UNKNOWN | DISK | PARTITION
  deriving DecidableEq, Repr

/-- `struct sys_block_uevent` with its type. -/
structure UeventEntry extends SysBlockUevent where
  type : UeventType
  deriving DecidableEq, Repr

/-- An entry after `memset`. -/
def UeventEntry.zero : UeventEntry := ⟨⟨0, 0, 0, 0, none, none⟩, .UNKNOWN⟩

def DEVTYPE : CString := "DEVTYPE".toList

def ueventType (value : CString) : UeventType :=
  if value = "disk".toList then .DISK
  else if value = "partition".toList then .PARTITION
  else .UNKNOWN

/-- The field of an entry a name stands for. -/
def setEntry (event : UeventEntry) (field : CString × CString) : UeventEntry :=
  if field.1 = DEVTYPE then { event with type := ueventType field.2 }
  else { event with toSysBlockUevent := setField event.toSysBlockUevent field.1 field.2 }

/-- The two `strtok` calls on a line and the copies of what they return (`none`: `copy_trim` of a
`NULL`). -/
def pieceField (piece : CString) : Option (CString × CString) :=
  match strtok nul (· == '=') (piece ++ [nul]) 0 with
  | none => none
  | some (name, line, save) =>
    match strtok nul (· == '=') line save with
    | none => none
    | some (value, line', _) =>
      some (copyTrim (textAt nul line name), copyTrim (textAt nul line' value))

/-- The loop over the lines. -/
def parseFile (event : UeventEntry) : List CString → Option UeventEntry
  | [] => some event
  | piece :: pieces =>
    match pieceField piece with
    | none => none
    | some field => parseFile (setEntry event field) pieces

/-- `add_uevent_entry`: its result and the table (`none`: it crashes). -/
def addUeventEntryTo (info : List UeventEntry) (file : Option CString) :
    Option (ℤ × List UeventEntry) :=
  match file with
  | none => some (-1, info)
  | some text =>
    match parseFile .zero (fgetsLines 127 text) with
    | none => none
    | some event =>
      -- `sscanf` of a `NULL`
      match event.devname with
      | none => none
      | some devname =>
        some (0, info ++
          [{ event with toSysBlockUevent := scanDevname event.toSysBlockUevent devname }])

/-! ### What a file says -/

/-- A line up to a NUL. -/
def lineBody (line : CString) : CString := line.takeWhile (· != nul)

def lineKey (line : CString) : CString := copyTrim ((lineBody line).takeWhile (· != '='))

/-- What stands behind the first equals sign of a line. -/
def lineRest (line : CString) : CString := ((lineBody line).dropWhile (· != '=')).tail

/-- The key and the value of a line, if it has an equals sign. -/
def lineField (line : CString) : Option (CString × CString) :=
  if '=' ∈ lineBody line then some (lineKey line, copyTrim (lineRest line)) else none

/-- The fields of a file, line by line. -/
def lineFields (text : CString) : List (CString × CString) :=
  (text.splitOn '\n').filterMap lineField

/-- The fields of a file as they are cut, if no piece lacks one. -/
def pieceFields (text : CString) : Option (List (CString × CString)) :=
  (fgetsLines 127 text).mapM pieceField

/-- The value of the last field with a key. -/
def lastOf (key : CString) (fields : List (CString × CString)) : Option CString :=
  (fields.filter (·.1 == key)).getLast?.map Prod.snd

def numberOf (value : Option CString) : ℕ := (value.map fun v => toUnsigned (getInt v)).getD 0

def typeOf (value : Option CString) : UeventType := (value.map ueventType).getD .UNKNOWN

/-- The entry has the values of these fields. -/
structure HasFields (event : UeventEntry) (fields : List (CString × CString)) : Prop where
  major : event.linuxMajor = numberOf (lastOf "MAJOR".toList fields)
  minor : event.linuxMinor = numberOf (lastOf "MINOR".toList fields)
  devname : event.devname = lastOf "DEVNAME".toList fields
  partname : event.partname = lastOf "PARTNAME".toList fields
  type : event.type = typeOf (lastOf DEVTYPE fields)

/-- What `add_uevent_entry` is to do: a file that cannot be opened leaves the table as it is, any
other adds one entry, with the values of its lines. -/
def AppendsOne (info : List UeventEntry) (file : Option CString) : Prop :=
  match file with
  | none => addUeventEntryTo info none = some (-1, info)
  | some text => ∃ event, addUeventEntryTo info (some text) = some (0, info ++ [event]) ∧
      HasFields event (lineFields text)

/-- Two rows of fields say the same about an entry. -/
structure Agree (fields fields' : List (CString × CString)) : Prop where
  major : numberOf (lastOf "MAJOR".toList fields) = numberOf (lastOf "MAJOR".toList fields')
  minor : numberOf (lastOf "MINOR".toList fields) = numberOf (lastOf "MINOR".toList fields')
  devname : lastOf "DEVNAME".toList fields = lastOf "DEVNAME".toList fields'
  partname : lastOf "PARTNAME".toList fields = lastOf "PARTNAME".toList fields'
  type : typeOf (lastOf DEVTYPE fields) = typeOf (lastOf DEVTYPE fields')

/-! ### One piece -/

/-- The two calls return the first two tokens. -/
theorem pieceField_tokens (piece : CString) : pieceField piece =
    match tokens (· == '=') (piece.takeWhile fun c => c ≠ nul) with
    | name :: value :: _ => some (copyTrim name, copyTrim value)
    | _ => none := by
  rw [← textAt_terminated piece [], pieceField]
  cases htok : tokens (· == '=') (textAt nul (piece ++ [nul]) 0) with
  | nil => rw [strtok_nil htok]
  | cons name rest =>
    obtain ⟨p, line, save, hcall, hname, hrest, -⟩ := strtok_cons htok
    rw [hcall]
    cases rest with
    | nil => simp only [strtok_nil hrest]
    | cons value rest =>
      obtain ⟨p', line', save', hcall', hvalue, -, -⟩ := strtok_cons hrest
      simp only [hcall', hname, hvalue]

/-! ### The loop -/

theorem parseFile_eq (pieces : List CString) (event : UeventEntry) :
    parseFile event pieces =
      (pieces.mapM pieceField).map fun fields => fields.foldl setEntry event := by
  induction pieces generalizing event with
  | nil => rfl
  | cons piece pieces ih =>
    rw [parseFile, List.mapM_cons]
    cases pieceField piece with
    | none => rfl
    | some field =>
      simp only [ih, Option.bind_eq_bind, Option.bind_some]
      cases pieces.mapM pieceField <;> rfl

@[simp] theorem lastOf_nil (key : CString) : lastOf key [] = none := rfl

theorem lastOf_concat (key : CString) (fields : List (CString × CString))
    (field : CString × CString) : lastOf key (fields ++ [field]) =
      if field.1 = key then some field.2 else lastOf key fields := by
  rw [lastOf, List.filter_append]
  by_cases h : field.1 = key
  · simp [h]
  · simp [h, lastOf]

section

variable (event : UeventEntry) (name value : CString)

theorem setEntry_linuxMajor : (setEntry event (name, value)).linuxMajor =
    if name = "MAJOR".toList then toUnsigned (getInt value) else event.linuxMajor := by
  by_cases h : name = "MAJOR".toList
  · subst h
    rfl
  · rw [if_neg h, setEntry, setField, if_neg h]
    split_ifs <;> rfl

theorem setEntry_linuxMinor : (setEntry event (name, value)).linuxMinor =
    if name = "MINOR".toList then toUnsigned (getInt value) else event.linuxMinor := by
  by_cases h : name = "MINOR".toList
  · subst h
    rfl
  · rw [if_neg h, setEntry, setField, if_neg h]
    split_ifs <;> rfl

theorem setEntry_devname : (setEntry event (name, value)).devname =
    if name = "DEVNAME".toList then some value else event.devname := by
  by_cases h : name = "DEVNAME".toList
  · subst h
    rfl
  · rw [if_neg h, setEntry, setField, if_neg h]
    split_ifs <;> rfl

theorem setEntry_partname : (setEntry event (name, value)).partname =
    if name = "PARTNAME".toList then some value else event.partname := by
  by_cases h : name = "PARTNAME".toList
  · subst h
    rfl
  · rw [if_neg h, setEntry, setField, if_neg h]
    split_ifs <;> rfl

theorem setEntry_type : (setEntry event (name, value)).type =
    if name = DEVTYPE then ueventType value else event.type := by
  rw [setEntry]
  split_ifs <;> rfl

end

/-- What one line changes: the field its name stands for. -/
theorem HasFields.set {event : UeventEntry} {fields : List (CString × CString)}
    (h : HasFields event fields) (field : CString × CString) :
    HasFields (setEntry event field) (fields ++ [field]) := by
  obtain ⟨name, value⟩ := field
  constructor
  · rw [setEntry_linuxMajor, lastOf_concat, h.major]
    split_ifs <;> rfl
  · rw [setEntry_linuxMinor, lastOf_concat, h.minor]
    split_ifs <;> rfl
  · rw [setEntry_devname, lastOf_concat, h.devname]
  · rw [setEntry_partname, lastOf_concat, h.partname]
  · rw [setEntry_type, lastOf_concat, h.type]
    split_ifs <;> rfl

/-- The loop leaves the values of the last fields. -/
theorem hasFields_foldl (fields : List (CString × CString)) :
    HasFields (fields.foldl setEntry .zero) fields := by
  induction fields using List.reverseRecOn with
  | nil => exact ⟨rfl, rfl, rfl, rfl, rfl⟩
  | append_singleton fields field ih =>
    rw [List.foldl_concat]
    exact ih.set field

theorem HasFields.scanned {event : UeventEntry} {fields : List (CString × CString)}
    (h : HasFields event fields) (devname : CString) :
    HasFields { event with toSysBlockUevent := scanDevname event.toSysBlockUevent devname }
      fields := by
  unfold scanDevname
  cases scanMmc "mmcblk".toList devname with
  | none => exact h
  | some part => exact ⟨h.major, h.minor, h.devname, h.partname, h.type⟩

/-- An entry with the values of some fields has those of others exactly if the fields agree. -/
theorem HasFields.agree_iff {event : UeventEntry} {fields fields' : List (CString × CString)}
    (h : HasFields event fields) : HasFields event fields' ↔ Agree fields fields' := by
  constructor
  · intro h'
    exact ⟨h.major.symm.trans h'.major, h.minor.symm.trans h'.minor,
      h.devname.symm.trans h'.devname, h.partname.symm.trans h'.partname,
      h.type.symm.trans h'.type⟩
  · intro ha
    exact ⟨h.major.trans ha.major, h.minor.trans ha.minor, h.devname.trans ha.devname,
      h.partname.trans ha.partname, h.type.trans ha.type⟩

/-! ### A whole file -/

theorem takeWhile_ne_nul {s : CString} (h : nul ∉ s) : (s.takeWhile fun c => c ≠ nul) = s :=
  List.takeWhile_eq_self_iff.mpr fun c hc => by
    have hne : c ≠ nul := fun he => h (he ▸ hc)
    simpa using hne

/-- **What the parser does with a file**: without a missing part it adds the entry of the pieces,
otherwise it crashes. -/
theorem addUeventEntryTo_spec (info : List UeventEntry) (text : CString) :
    (∃ fields event, pieceFields text = some fields ∧ (lastOf "DEVNAME".toList fields).isSome ∧
      HasFields event fields ∧ addUeventEntryTo info (some text) = some (0, info ++ [event])) ∨
    ((∀ fields, pieceFields text = some fields → (lastOf "DEVNAME".toList fields) = none) ∧
      addUeventEntryTo info (some text) = none) := by
  have hloop := parseFile_eq (fgetsLines 127 text) .zero
  rw [← pieceFields] at hloop
  rw [addUeventEntryTo]
  cases hfields : pieceFields text with
  | none =>
    rw [hfields, Option.map_none] at hloop
    rw [hloop]
    exact Or.inr ⟨nofun, rfl⟩
  | some fields =>
    rw [hfields, Option.map_some] at hloop
    have hhas := hasFields_foldl fields
    rw [hloop]
    cases hdev : (fields.foldl setEntry .zero).devname with
    | none =>
      simp only [hdev]
      refine Or.inr ⟨fun fields' h => ?_, trivial⟩
      rw [← Option.some.inj h, ← hhas.devname, hdev]
    | some devname =>
      simp only [hdev]
      refine Or.inl ⟨fields, _, rfl, ?_, hhas.scanned devname, rfl⟩
      rw [← hhas.devname, hdev, Option.isSome_some]

/-- The parser adds one entry with the values of the lines exactly if every piece has a name and a
value, one piece names the device and the pieces agree with the lines. -/
theorem appendsOne_iff_agree (info : List UeventEntry) (text : CString) :
    AppendsOne info (some text) ↔ ∃ fields, pieceFields text = some fields ∧
      (lastOf "DEVNAME".toList fields).isSome ∧ Agree fields (lineFields text) := by
  rw [AppendsOne]
  rcases addUeventEntryTo_spec info text with
    ⟨fields, event, hfields, hdev, hhas, hadd⟩ | ⟨hnone, hcrash⟩
  · rw [hadd]
    constructor
    · rintro ⟨event', heq, hhas'⟩
      have hevent : event = event' := by simpa using heq
      subst hevent
      exact ⟨fields, hfields, hdev, hhas.agree_iff.mp hhas'⟩
    · rintro ⟨fields', hfields', -, hagree⟩
      obtain rfl := Option.some.inj (hfields.symm.trans hfields')
      exact ⟨event, rfl, hhas.agree_iff.mpr hagree⟩
  · rw [hcrash]
    constructor
    · rintro ⟨event, heq, -⟩
      cases heq
    · rintro ⟨fields, hfields, hdev, -⟩
      rw [hnone fields hfields] at hdev
      cases hdev

/-! ### The table without types -/

theorem fgetsLines_flatten (n : ℕ) (text : CString) : (fgetsLines n text).flatten = text := by
  fun_induction fgetsLines n text with
  | case1 => rfl
  | case2 n c s h ih => rw [List.flatten_cons, ih, List.singleton_append]
  | case3 n c s h hnil ih =>
    rw [hnil] at ih
    rw [List.flatten_singleton, ← ih, List.flatten_nil]
  | case4 n c s h line lines hcons ih =>
    rw [hcons, List.flatten_cons] at ih
    rw [List.flatten_cons, List.cons_append, ih]

/-- On bytes without a NUL the loop is that over lines, and it keeps the type beside it. -/
theorem parseFile_refines {pieces : List CString} (h : ∀ piece ∈ pieces, nul ∉ piece)
    (event : UeventEntry) :
    (parseFile event pieces).map UeventEntry.toSysBlockUevent =
      parseLines event.toSysBlockUevent pieces := by
  induction pieces generalizing event with
  | nil => rfl
  | cons piece pieces ih =>
    have hset : ∀ name value, (setEntry event (name, value)).toSysBlockUevent =
        setField event.toSysBlockUevent name value := by
      intro name value
      rw [setEntry]
      split_ifs with htype
      · obtain rfl : name = DEVTYPE := htype
        rw [setField_other (by decide)]
      · rfl
    rw [parseFile, parseLines, pieceField_tokens, takeWhile_ne_nul (h piece List.mem_cons_self)]
    rcases tokens (· == '=') piece with _ | ⟨name, _ | ⟨value, _⟩⟩
    · rfl
    · rfl
    · simp only [ih (fun piece' hp => h piece' (List.mem_cons_of_mem _ hp)), hset]

/-- **Refinement**: on bytes without a NUL the parser adds the entries of the table. -/
theorem addUeventEntryTo_refines (info : List UeventEntry) {file : Option CString}
    (h : ∀ text, file = some text → nul ∉ text) :
    (addUeventEntryTo info file).map (fun r => r.2.map UeventEntry.toSysBlockUevent) =
      (addUeventEntry file).map (info.map UeventEntry.toSysBlockUevent ++ ·) := by
  cases file with
  | none => simp [addUeventEntryTo, addUeventEntry]
  | some text =>
    have hpieces : ∀ piece ∈ fgetsLines 127 text, nul ∉ piece := fun piece hp hmem => by
      refine h text rfl ?_
      rw [← fgetsLines_flatten 127 text]
      exact List.mem_flatten_of_mem hp hmem
    have hparse := parseFile_refines hpieces .zero
    rw [addUeventEntryTo, addUeventEntry]
    cases hfile : parseFile .zero (fgetsLines 127 text) with
    | none =>
      rw [hfile] at hparse
      simp only [show parseLines ⟨0, 0, 0, 0, none, none⟩ (fgetsLines 127 text) = none from
        hparse.symm]
      rfl
    | some event =>
      rw [hfile] at hparse
      simp only [show parseLines ⟨0, 0, 0, 0, none, none⟩ (fgetsLines 127 text) =
        some event.toSysBlockUevent from hparse.symm, Option.bind_eq_bind, Option.bind_some]
      cases event.devname with
      | none => rfl
      | some devname => simp

end Multiboot
