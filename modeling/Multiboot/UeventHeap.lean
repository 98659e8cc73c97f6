import Mathlib.Algebra.BigOperators.Group.List.Defs
import Multiboot.Lib.Heap
import Multiboot.UeventFile

/-!
# The block-device table with its pointers

`get_block_devices`, `add_uevent_entry` and `free_block_devices` on a heap.  The table is one block
that `realloc` moves for every entry.  Reading gives the table of `addUeventEntryTo`, and
`block_devices_read` counts what it leaves on the heap: two copies for each line, and the names that a
later line replaces.  `free_block_devices` frees every entry as if it were a block of its own;
`block_devices_freed` says what becomes of it.
-/

namespace Multiboot

open Lib HeapM

/-! ### The source -/

/-- What a block holds; the fields of the entries stand beside the heap. -/
inductive UeventObj
  | text (s : CString)
  | entries
  | info
  deriving DecidableEq, Repr

/-- `struct sys_block_uevent`: `event` has what is no pointer; its texts are not used. -/
structure EventPtrs where
  devname : Option Ptr
  partname : Option Ptr
  event : UeventEntry
  deriving DecidableEq, Repr

/-- An entry after `memset`. -/
def EventPtrs.zero : EventPtrs := ⟨none, none, .zero⟩

/-- `struct sys_block_info`, with the array at `block`. -/
structure InfoPtrs where
  self : Ptr
  block : Option Ptr
  entries : List EventPtrs
  deriving DecidableEq, Repr

def DEVNAME : CString := "DEVNAME".toList
def PARTNAME : CString := "PARTNAME".toList

/-- The loop body behind the copies of the name and the value, which nothing frees. -/
def setEntryPtr (x : EventPtrs) (field : CString × CString) : HeapM UeventObj EventPtrs := do
  let _ ← alloc (.text field.1)
  let _ ← alloc (.text field.2)
  let x := { x with event := setEntry x.event field }
  if field.1 = DEVNAME then do
    let devname ← alloc (.text field.2)
    pure { x with devname := some devname }
  else if field.1 = PARTNAME then do
    let partname ← alloc (.text field.2)
    pure { x with partname := some partname }
  else pure x

def parseFilePtr (x : EventPtrs) : List CString → HeapM UeventObj EventPtrs
  | [] => pure x
  | piece :: pieces =>
    match pieceField piece with
    -- `copy_trim` of a `NULL`
    | none => fail
    | some field => do
      let x ← setEntryPtr x field
      parseFilePtr x pieces

/-- `realloc` of the array. -/
def growPtr (block : Option Ptr) : HeapM UeventObj Ptr := do
  let larger ← alloc .entries
  freeOpt block
  pure larger

/-- `sscanf` on the name of the device. -/
def scanDevnamePtr (x : EventPtrs) : HeapM UeventObj EventPtrs :=
  match x.devname with
  | none => fail
  | some b =>
    load b >>= fun
      | .text devname => pure { x with event := { x.event with
          toSysBlockUevent := scanDevname x.event.toSysBlockUevent devname } }
      | _ => fail

/-- `add_uevent_entry`, whose result nothing looks at. -/
def addUeventEntryPtr (info : InfoPtrs) (file : Option CString) : HeapM UeventObj InfoPtrs :=
  match file with
  | none => pure info
  | some text => do
    let block ← growPtr info.block
    let x ← parseFilePtr .zero (fgetsLines 127 text)
    let x ← scanDevnamePtr x
    pure { info with block := some block, entries := info.entries ++ [x] }

/-- The loop of `get_block_devices`. -/
def readDirPtr (info : InfoPtrs) : List DirEntry → HeapM UeventObj InfoPtrs
  | [] => pure info
  | dt :: dir =>
    if !dt.link then readDirPtr info dir
    else do
      let info ← addUeventEntryPtr info dt.uevent
      readDirPtr info dir

/-- `get_block_devices`; `dir` is `none` if `opendir` fails, and `closes` says how `closedir` ends. -/
def getBlockDevicesPtr (dir : Option (List DirEntry)) (closes : Bool) :
    HeapM UeventObj (Option InfoPtrs) := do
  let self ← alloc .info
  match dir with
  | none => pure none
  | some dir => do
    let info ← readDirPtr ⟨self, none, []⟩ dir
    pure (if closes then some info else none)

/-- `free(event)`: the first entry is where the array is, the others are inside it. -/
def freeEventPtr (block : Option Ptr) (i : ℕ) : HeapM UeventObj Unit :=
  if i = 0 then freeOpt block else fail

/-- The loop of `free_block_devices` from the entry `i` on. -/
def freeEventsPtr (block : Option Ptr) : ℕ → List EventPtrs → HeapM UeventObj Unit
  | _, [] => pure ()
  | i, x :: xs => do
    -- the entry is in the array
    match block with
    | none => fail
    | some b => do
      let _ ← load b
      freeOpt x.devname
      freeOpt x.partname
      freeEventPtr block i
      freeEventsPtr block (i + 1) xs

def freeBlockDevicesPtr (info : InfoPtrs) : HeapM UeventObj Unit := do
  freeEventsPtr info.block 0 info.entries
  free info.self

/-! ### The table on values -/

/-- The loop of `get_block_devices` from the entries `info` on (`none`: it crashes). -/
def readDirTo (info : List UeventEntry) : List DirEntry → Option (List UeventEntry)
  | [] => some info
  | dt :: dir =>
    if !dt.link then readDirTo info dir
    else
      match addUeventEntryTo info dt.uevent with
      | none => none
      | some (_, info) => readDirTo info dir

/-! ### What the pointers stand for -/

abbrev UeventBlocks := Multiset (Ptr × UeventObj)

inductive EventRep (x : EventPtrs) (event : UeventEntry) : UeventBlocks → Prop
  | mk {D P : UeventBlocks} (devname : OptOwns UeventObj.text x.devname event.devname D)
      (partname : OptOwns UeventObj.text x.partname event.partname P) (rest : x.event = event) :
      EventRep x event (D + P)

/-- How many texts a line leaves that nothing points to. -/
def fieldLost (event : UeventEntry) (field : CString × CString) : ℕ :=
  2 + if field.1 = DEVNAME then event.devname.toList.length
    else if field.1 = PARTNAME then event.partname.toList.length
    else 0

/-- One line: the entry, and how many texts are lost. -/
def eventStep (c : UeventEntry × ℕ) (field : CString × CString) : UeventEntry × ℕ :=
  (setEntry c.1 field, c.2 + fieldLost c.1 field)

/-- The pointers stand for the entry, and the texts that are lost are live, beside `W`. -/
def EventHolds (W : UeventBlocks) (stale : List UeventObj) (x : EventPtrs) (c : UeventEntry × ℕ)
    (V : View UeventObj) : Prop :=
  ∃ R T, EventRep x c.1 R ∧ Multiset.card T = c.2 ∧ V.live = R + (T + W) ∧ V.stale = stale

theorem setEntryPtr_refines {W : UeventBlocks} {stale : List UeventObj} {x : EventPtrs}
    {c : UeventEntry × ℕ} {V : View UeventObj} (h : EventHolds W stale x c V)
    (field : CString × CString) :
    Refines V (setEntryPtr x field) (some (eventStep c field)) (EventHolds W stale) := by
  obtain ⟨_, T, @⟨D, P, hdev, hpart, hrest⟩, hcard, hlive, hstale⟩ := h
  obtain ⟨name, value⟩ := field
  have hdevname : (setEntry c.1 (name, value)).devname =
      if name = DEVNAME then some value else c.1.devname := setEntry_devname c.1 name value
  have hpartname : (setEntry c.1 (name, value)).partname =
      if name = PARTNAME then some value else c.1.partname := setEntry_partname c.1 name value
  have hevent : setEntry x.event (name, value) = setEntry c.1 (name, value) := by rw [hrest]
  unfold setEntryPtr eventStep fieldLost
  refine .alloc fun b1 => .alloc fun b2 => ?_
  dsimp only
  by_cases hname : name = DEVNAME
  · have hother : ¬ name = PARTNAME := by
      rw [hname]
      decide
    rw [if_pos hname] at hdevname
    rw [if_neg hother] at hpartname
    rw [if_pos hname, if_pos hname]
    have hown : ∀ b, OptOwns UeventObj.text (some b) (setEntry c.1 (name, value)).devname
        {(b, .text value)} := by
      intro b
      rw [hdevname]
      exact .own
    have hkeep : OptOwns UeventObj.text x.partname (setEntry c.1 (name, value)).partname P := by
      rwa [hpartname]
    refine .alloc fun b3 => refines_pure ⟨_, {(b1, .text name)} + ({(b2, .text value)} + (D + T)),
      .mk (hown b3) hkeep hevent, ?_, ?_, hstale⟩
    · simp only [Multiset.card_add, Multiset.card_singleton, hdev.card, hcard]
      omega
    · show _ + (_ + (_ + V.live)) = _
      rw [hlive]
      abel
  rw [if_neg hname] at hdevname
  rw [if_neg hname, if_neg hname]
  have hkeep : OptOwns UeventObj.text x.devname (setEntry c.1 (name, value)).devname D := by
    rwa [hdevname]
  by_cases hname' : name = PARTNAME
  · rw [if_pos hname'] at hpartname
    rw [if_pos hname', if_pos hname']
    have hown : ∀ b, OptOwns UeventObj.text (some b) (setEntry c.1 (name, value)).partname
        {(b, .text value)} := by
      intro b
      rw [hpartname]
      exact .own
    refine .alloc fun b3 => refines_pure ⟨_, {(b1, .text name)} + ({(b2, .text value)} + (P + T)),
      .mk hkeep (hown b3) hevent, ?_, ?_, hstale⟩
    · simp only [Multiset.card_add, Multiset.card_singleton, hpart.card, hcard]
      omega
    · show _ + (_ + (_ + V.live)) = _
      rw [hlive]
      abel
  · rw [if_neg hname'] at hpartname
    rw [if_neg hname', if_neg hname']
    have hkeep' : OptOwns UeventObj.text x.partname (setEntry c.1 (name, value)).partname P := by
      rwa [hpartname]
    refine refines_pure ⟨_, {(b1, .text name)} + ({(b2, .text value)} + T),
      .mk hkeep hkeep' hevent, ?_, ?_, hstale⟩
    · simp only [Multiset.card_add, Multiset.card_singleton, hcard]
      omega
    · show _ + (_ + V.live) = _
      rw [hlive]
      abel

/-- **The loop over the lines with its pointers.** -/
theorem parseFilePtr_refines {W : UeventBlocks} {stale : List UeventObj} (pieces : List CString)
    {x : EventPtrs} {c : UeventEntry × ℕ} {V : View UeventObj} (h : EventHolds W stale x c V) :
    Refines V (parseFilePtr x pieces)
      ((pieces.mapM pieceField).map fun fields => fields.foldl eventStep c)
      (EventHolds W stale) := by
  induction pieces generalizing x c V with
  | nil => exact refines_pure h
  | cons piece pieces ih =>
    rw [parseFilePtr, List.mapM_cons]
    cases pieceField piece with
    | none => exact refines_fail
    | some field =>
      refine (setEntryPtr_refines h field).seq_some fun x' V' h' => ?_
      have hrest := ih h'
      cases hfields : pieces.mapM pieceField with
      | none =>
        rw [hfields] at hrest
        exact hrest
      | some fields =>
        rw [hfields] at hrest
        exact hrest

theorem foldl_eventStep_fst (fields : List (CString × CString)) (c : UeventEntry × ℕ) :
    (fields.foldl eventStep c).1 = fields.foldl setEntry c.1 := by
  induction fields generalizing c with
  | nil => rfl
  | cons field fields ih => exact ih _

theorem scanDevname_texts (event : SysBlockUevent) (devname : CString) :
    (scanDevname event devname).devname = event.devname ∧
      (scanDevname event devname).partname = event.partname := by
  unfold scanDevname
  cases scanMmc "mmcblk".toList devname with
  | none => exact ⟨rfl, rfl⟩
  | some part => exact ⟨rfl, rfl⟩

theorem scanDevnamePtr_refines {W : UeventBlocks} {stale : List UeventObj} {x : EventPtrs}
    {c : UeventEntry × ℕ} {V : View UeventObj} (h : EventHolds W stale x c V) :
    Refines V (scanDevnamePtr x)
      (c.1.devname.map fun devname =>
        ({ c.1 with toSysBlockUevent := scanDevname c.1.toSysBlockUevent devname }, c.2))
      (EventHolds W stale) := by
  obtain ⟨_, T, @⟨D, P, hdev, hpart, hrest⟩, hcard, hlive, hstale⟩ := h
  unfold scanDevnamePtr
  cases hd : c.1.devname with
  | none =>
    rw [hd] at hdev
    generalize x.devname = p at hdev
    cases hdev
    exact refines_fail
  | some devname =>
    rw [hd] at hdev
    generalize hp : x.devname = p at hdev
    cases hdev with
    | @own b _ =>
      dsimp only
      rw [Option.map_some]
      refine .load (a := .text devname) (by simp [hlive]) (refines_pure ?_)
      refine ⟨{(b, .text devname)} + P, T, ?_, hcard, hlive, hstale⟩
      have htexts := scanDevname_texts c.1.toSysBlockUevent devname
      refine .mk ?_ ?_ (by rw [hrest])
      · show OptOwns _ (some b) (scanDevname c.1.toSysBlockUevent devname).devname _
        rw [htexts.1, hd]
        exact .own
      · show OptOwns _ x.partname (scanDevname c.1.toSysBlockUevent devname).partname P
        rw [htexts.2]
        exact hpart

/-! ### What is lost in a file -/

/-- How many texts the lines of a file leave that nothing points to: the copies, and the names before
the last. -/
def fieldsLost (fields : List (CString × CString)) : ℕ :=
  2 * fields.length + (fields.countP (·.1 == DEVNAME) - 1) + (fields.countP (·.1 == PARTNAME) - 1)

theorem foldl_eventStep_snd (fields : List (CString × CString)) :
    (fields.foldl eventStep (.zero, 0)).2 = fieldsLost fields ∧
      (fields.foldl setEntry .zero).devname.toList.length =
        min 1 (fields.countP (·.1 == DEVNAME)) ∧
      (fields.foldl setEntry .zero).partname.toList.length =
        min 1 (fields.countP (·.1 == PARTNAME)) := by
  induction fields using List.reverseRecOn with
  | nil => exact ⟨rfl, rfl, rfl⟩
  | append_singleton fields field ih =>
    obtain ⟨hlost, hdev, hpart⟩ := ih
    obtain ⟨name, value⟩ := field
    rw [List.foldl_concat, List.foldl_concat, eventStep, foldl_eventStep_fst, hlost]
    have hdevname : (setEntry (fields.foldl setEntry .zero) (name, value)).devname =
        if name = DEVNAME then some value else (fields.foldl setEntry .zero).devname :=
      setEntry_devname _ name value
    have hpartname : (setEntry (fields.foldl setEntry .zero) (name, value)).partname =
        if name = PARTNAME then some value else (fields.foldl setEntry .zero).partname :=
      setEntry_partname _ name value
    rw [hdevname, hpartname]
    unfold fieldsLost fieldLost
    dsimp only
    rw [List.length_append, List.countP_append, List.countP_append,
      List.countP_singleton, List.countP_singleton, List.length_singleton]
    by_cases hname : name = DEVNAME
    · have hother : ¬ name = PARTNAME := by
        rw [hname]
        decide
      rw [if_pos hname, if_neg hother, if_pos hname, if_pos (beq_iff_eq.mpr hname),
        if_neg fun h => hother (beq_iff_eq.mp h), hpart]
      refine ⟨by omega, ?_, by omega⟩
      rw [Option.toList_some, List.length_singleton]
      omega
    rw [if_neg hname, if_neg hname, if_neg fun h => hname (beq_iff_eq.mp h), hdev]
    by_cases hname' : name = PARTNAME
    · rw [if_pos hname', if_pos hname', if_pos (beq_iff_eq.mpr hname')]
      refine ⟨by omega, by omega, ?_⟩
      rw [Option.toList_some, List.length_singleton]
      omega
    · rw [if_neg hname', if_neg hname', if_neg fun h => hname' (beq_iff_eq.mp h), hpart]
      exact ⟨by omega, by omega, by omega⟩

/-! ### The table -/

def fileLost (file : Option CString) : ℕ := ((file.bind pieceFields).map fieldsLost).getD 0

def dirLost (dir : List DirEntry) : ℕ :=
  ((dir.filter DirEntry.link).map fun dt => fileLost dt.uevent).sum

/-- The array is there from the first entry on. -/
def arrayOf (es : List UeventEntry) : Option Unit := if es = [] then none else some ()

/-- The pointers stand for the entries, and the texts that are lost are live, beside `W`. -/
inductive TableHolds (W : UeventBlocks) (marks : List UeventObj) (lost : ℕ) (info : InfoPtrs)
    (es : List UeventEntry) (V : View UeventObj) : Prop
  | mk {A R T : UeventBlocks}
      (array : OptOwns (fun _ : Unit => UeventObj.entries) info.block (arrayOf es) A)
      (entries : Owned EventRep info.entries es R) (card : Multiset.card T = lost)
      (live : V.live = A + (R + (T + W))) (stale : V.stale = marks) :
      TableHolds W marks lost info es V

theorem refines_growPtr {β γ : Type} {V : View UeventObj} {A S : UeventBlocks} {block : Option Ptr}
    {o : Option Unit} {f : Ptr → HeapM UeventObj β} {v : Option γ} {Q : β → γ → View UeventObj → Prop}
    (h : OptOwns (fun _ : Unit => UeventObj.entries) block o A) (heq : V.live = A + S)
    (hf : ∀ b freed, Refines ⟨{(b, .entries)} + S, freed, V.stale⟩ (f b) v Q) :
    Refines V (growPtr block >>= f) v Q := by
  rw [growPtr, bind_assoc]
  refine .alloc fun b => ?_
  rw [bind_assoc]
  refine .freeOpt h (S := {(b, .entries)} + S) ?_ fun freed => hf b freed
  show _ + V.live = _
  rw [heq]
  abel

/-- **One file with its pointers.** -/
theorem addUeventEntryPtr_refines {W : UeventBlocks} {marks : List UeventObj} {lost : ℕ}
    {info : InfoPtrs} {es : List UeventEntry} {V : View UeventObj}
    (h : TableHolds W marks lost info es V) (file : Option CString) :
    Refines V (addUeventEntryPtr info file) ((addUeventEntryTo es file).map Prod.snd)
      fun info' es' V' => info'.self = info.self ∧
        TableHolds W marks (lost + fileLost file) info' es' V' := by
  cases file with
  | none => exact refines_pure ⟨rfl, h⟩
  | some text =>
    obtain @⟨A, R, T, hA, hR, hcard, hlive, hstale⟩ := h
    rw [addUeventEntryPtr, addUeventEntryTo, parseFile_eq, ← pieceFields]
    refine refines_growPtr hA hlive fun b freed => ?_
    have hzero : EventHolds ({(b, .entries)} + (R + (T + W))) marks .zero (.zero, 0)
        ⟨{(b, .entries)} + (R + (T + W)), freed, V.stale⟩ :=
      ⟨0 + 0, 0, .mk .null .null rfl, rfl, by simp, hstale⟩
    have hparse := parseFilePtr_refines (fgetsLines 127 text) hzero
    rw [← pieceFields] at hparse
    cases hfields : pieceFields text with
    | none =>
      rw [hfields] at hparse
      exact hparse.seq (fun _ => rfl) fun _ _ _ hc => by cases hc
    | some fields =>
      rw [hfields] at hparse
      obtain ⟨hlost, -, -⟩ := foldl_eventStep_snd fields
      refine hparse.seq_some fun x V₁ hx => ?_
      have hscan := scanDevnamePtr_refines hx
      rw [foldl_eventStep_fst, hlost] at hscan
      rw [Option.map_some]
      dsimp only at hscan ⊢
      cases hdev : (fields.foldl setEntry .zero).devname with
      | none =>
        rw [hdev] at hscan
        exact hscan.seq (fun _ => rfl) fun _ _ _ hc => by cases hc
      | some devname =>
        rw [hdev] at hscan
        refine hscan.seq_some ?_
        rintro x' V₂ ⟨R', T', hrep, hcard', hlive', hstale'⟩
        refine refines_pure ⟨rfl, .mk (A := {(b, .entries)}) (R := R' + R) (T := T + T')
          ?_ (hR.concat hrep) ?_ ?_ hstale'⟩
        · rw [arrayOf, if_neg (by simp)]
          exact .own
        · rw [Multiset.card_add, hcard, hcard', fileLost, Option.bind_some, hfields, Option.map_some,
            Option.getD_some]
        · rw [hlive']
          abel

theorem readDirPtr_refines {W : UeventBlocks} {marks : List UeventObj} (dir : List DirEntry)
    {lost : ℕ} {info : InfoPtrs} {es : List UeventEntry} {V : View UeventObj}
    (h : TableHolds W marks lost info es V) :
    Refines V (readDirPtr info dir) (readDirTo es dir) fun info' es' V' =>
      info'.self = info.self ∧ TableHolds W marks (lost + dirLost dir) info' es' V' := by
  induction dir generalizing lost info es V with
  | nil => exact refines_pure ⟨rfl, h⟩
  | cons dt dir ih =>
    rw [readDirPtr, readDirTo]
    cases hlink : dt.link with
    | false =>
      rw [if_pos (by rfl), if_pos (by rfl), dirLost, List.filter_cons_of_neg (by simp [hlink])]
      exact ih h
    | true =>
      rw [if_neg (by decide), if_neg (by decide)]
      have hadd := addUeventEntryPtr_refines h dt.uevent
      cases hto : addUeventEntryTo es dt.uevent with
      | none =>
        rw [hto] at hadd
        exact hadd.seq (fun _ => rfl) fun _ _ _ hc => by cases hc
      | some r =>
        obtain ⟨code, es'⟩ := r
        rw [hto] at hadd
        refine hadd.seq_some ?_
        rintro info' V₁ ⟨hself, hV₁⟩
        refine (ih hV₁).mono ?_
        rintro info'' es'' V₂ ⟨hself', hV₂⟩
        refine ⟨hself'.trans hself, ?_⟩
        have hlost : lost + dirLost (dt :: dir) = lost + fileLost dt.uevent + dirLost dir := by
          rw [dirLost, List.filter_cons_of_pos hlink, List.map_cons, List.sum_cons, ← dirLost,
            add_assoc]
        rw [hlost]
        exact hV₂

theorem getBlockDevicesPtr_refines (dir : List DirEntry) (closes : Bool) (V : View UeventObj) :
    Refines V (getBlockDevicesPtr (some dir) closes) (readDirTo [] dir) fun r es V' =>
      ∃ info : InfoPtrs, r = (if closes then some info else none) ∧
        TableHolds ({(info.self, .info)} + V.live) V.stale (dirLost dir) info es V' := by
  rw [getBlockDevicesPtr]
  refine .alloc fun self => ?_
  have hstart : TableHolds ({(self, .info)} + V.live) V.stale 0 ⟨self, none, []⟩ []
      ⟨{(self, .info)} + V.live, V.freed, V.stale⟩ :=
    .mk (A := 0) (R := 0) (T := 0) .null .nil rfl (by simp) rfl
  have hread := readDirPtr_refines dir hstart
  rw [Nat.zero_add] at hread
  refine hread.seq (fun h => h) ?_
  rintro info es V' hes ⟨hself, hV'⟩
  rw [hes]
  refine refines_pure ⟨info, rfl, ?_⟩
  rw [hself]
  exact hV'

/-! ### Freeing -/

/-- An entry that is freed, with what comes behind it. -/
theorem refines_freeEntry {β γ : Type} {V : View UeventObj} {R S : UeventBlocks} {x : EventPtrs}
    {event : UeventEntry} {f : Unit → HeapM UeventObj β} {v : Option γ}
    {Q : β → γ → View UeventObj → Prop} (h : EventRep x event R) (heq : V.live = R + S)
    (hf : ∀ freed, Refines ⟨S, freed, V.stale⟩ (f ()) v Q) :
    Refines V (freeOpt x.devname >>= fun _ => freeOpt x.partname >>= f) v Q := by
  obtain @⟨D, P, hdev, hpart, -⟩ := h
  refine .freeOpt hdev (S := P + S) (by rw [heq, add_assoc]) fun _ => ?_
  exact .freeOpt hpart rfl hf

/-- A table of two entries kills the program: the second is no block. -/
theorem freeBlockDevicesPtr_refines {W : UeventBlocks} {marks : List UeventObj} {lost : ℕ}
    {info : InfoPtrs} {es : List UeventEntry} {V : View UeventObj}
    (h : TableHolds ({(info.self, .info)} + W) marks lost info es V) :
    Refines V (freeBlockDevicesPtr info) (if es.length ≤ 1 then some () else none) fun _ _ V' =>
      V'.stale = marks ∧ ∃ T, Multiset.card T = lost ∧ V'.live = T + W := by
  obtain @⟨A, R, T, hA, hR, hcard, hlive, hstale⟩ := h
  rw [freeBlockDevicesPtr]
  generalize info.entries = xs at hR
  generalize info.block = block at hA ⊢
  rcases hR with _ | @⟨x, e, R₁, S, xs, es, hx, hxs⟩
  · cases hA
    refine .last (.free (a := .info) (R := T + W) ?_ (refines_pure ⟨hstale, T, hcard, rfl⟩))
    rw [hlive]
    abel
  · cases hA with
    | @own b _ =>
    rw [freeEventsPtr, bind_assoc]
    refine .load (a := .entries) (by simp [hlive]) ?_
    simp only [bind_assoc]
    refine refines_freeEntry hx (S := {(b, .entries)} + (S + (T + ({(info.self, .info)} + W)))) ?_
      fun freed => ?_
    · rw [hlive]
      abel
    -- the first entry is where the array is
    refine .free rfl ?_
    rcases hxs with _ | @⟨x', e', R₂, S, xs, es, hx', hxs⟩
    · refine .last (.free (a := .info) (R := T + W) ?_ (refines_pure ⟨hstale, T, hcard, rfl⟩))
      dsimp only
      abel
    · rw [if_neg (by simp), freeEventsPtr, bind_assoc]
      -- the array is gone
      refine .loadFreed List.mem_cons_self ?_
      simp only [bind_assoc]
      refine refines_freeEntry hx' (S := S + (T + ({(info.self, .info)} + W))) (add_assoc _ _ _)
        fun _ => ?_
      exact fun _ _ => .none

/-! ### Reading and freeing -/

/-- The blocks that the table is made of. -/
def tableSize (es : List UeventEntry) : ℕ :=
  1 + (arrayOf es).toList.length +
    (es.map fun event => event.devname.toList.length + event.partname.toList.length).sum

theorem TableHolds.card_live {marks : List UeventObj} {lost : ℕ} {info : InfoPtrs}
    {es : List UeventEntry} {V : View UeventObj}
    (h : TableHolds {(info.self, .info)} marks lost info es V) :
    Multiset.card V.live = tableSize es + lost := by
  obtain ⟨hA, hR, hcard, hlive, -⟩ := h
  have hnames := hR.card (f := fun event => event.devname.toList.length +
      event.partname.toList.length) fun x event R hrep => by
    obtain ⟨hdev, hpart, -⟩ := hrep
    rw [Multiset.card_add, hdev.card, hpart.card]
  rw [hlive, tableSize]
  simp only [Multiset.card_add, Multiset.card_singleton, hA.card, hnames, hcard]
  omega

/-- **The table with its pointers** is that of `readDirTo`; besides it the heap has the texts that
are lost.  Where `closedir` fails nobody gets it. -/
theorem block_devices_read (dir : List DirEntry) (closes : Bool) :
    Option.Rel
      (fun p es => p.2.size = tableSize es + dirLost dir ∧
        ∃ info V, p.1 = (if closes then some info else none) ∧ Heap.Holds p.2 V ∧
          TableHolds {(info.self, .info)} [] (dirLost dir) info es V)
      (getBlockDevicesPtr (some dir) closes Heap.empty) (readDirTo [] dir) := by
  have hread := getBlockDevicesPtr_refines dir closes ⟨0, [], []⟩ Heap.empty Heap.holds_empty
  generalize getBlockDevicesPtr (some dir) closes Heap.empty = r at hread ⊢
  generalize readDirTo [] dir = v at hread ⊢
  cases hread with
  | none => exact .none
  | some hp =>
    obtain ⟨V, hV, info, hinfo, htable⟩ := hp
    rw [add_zero] at htable
    exact .some ⟨(heap_size hV).trans htable.card_live, info, V, hinfo, hV, htable⟩

def readAndFreeDevicesPtr (dir : List DirEntry) : HeapM UeventObj Unit :=
  getBlockDevicesPtr (some dir) true >>= fun
    | none => pure ()
    | some info => freeBlockDevicesPtr info

/-- **`free_block_devices`** frees a table of one entry, and one of none; a table of more kills the
program.  What the lines have left stays. -/
theorem block_devices_freed (dir : List DirEntry) :
    Option.Rel (fun p _ => p.2.stale = [] ∧ p.2.size = dirLost dir)
      (readAndFreeDevicesPtr dir Heap.empty)
      ((readDirTo [] dir).bind fun es => if es.length ≤ 1 then some () else none) := by
  have hrun : Refines ⟨0, [], []⟩ (readAndFreeDevicesPtr dir)
      ((readDirTo [] dir).bind fun es => if es.length ≤ 1 then some () else none)
      fun _ _ V => V.stale = [] ∧ Multiset.card V.live = dirLost dir := by
    refine (getBlockDevicesPtr_refines dir true ⟨0, [], []⟩).seq (fun h => by rw [h]; rfl) ?_
    rintro _ es V hes ⟨info, rfl, htable⟩
    rw [hes, Option.bind_some]
    refine (freeBlockDevicesPtr_refines htable).mono ?_
    rintro _ _ V' ⟨hstale, T, hcard, hlive⟩
    exact ⟨hstale, by rw [hlive, add_zero, hcard]⟩
  have hempty := hrun Heap.empty Heap.holds_empty
  generalize readAndFreeDevicesPtr dir Heap.empty = r at hempty ⊢
  generalize (readDirTo [] dir).bind _ = v at hempty ⊢
  cases hempty with
  | none => exact .none
  | some hp =>
    obtain ⟨V, hV, hstale, hcard⟩ := hp
    exact .some ⟨hV.stale.trans hstale, (heap_size hV).trans hcard⟩

/-- **Refinement**: on bytes without a NUL the table is that of the lookups. -/
theorem readDirTo_refines {dir : List DirEntry}
    (h : ∀ dt ∈ dir, ∀ text, dt.uevent = some text → nul ∉ text) (info : List UeventEntry) :
    (readDirTo info dir).map (List.map UeventEntry.toSysBlockUevent) =
      (getBlockDevices dir).map (info.map UeventEntry.toSysBlockUevent ++ ·) := by
  induction dir generalizing info with
  | nil => simp [readDirTo, getBlockDevices]
  | cons dt dir ih =>
    have hrest := ih fun dt' hdt => h dt' (List.mem_cons_of_mem _ hdt)
    rw [readDirTo, getBlockDevices]
    split_ifs with hlink
    · exact hrest info
    · have hadd := addUeventEntryTo_refines info (h dt List.mem_cons_self)
      cases hto : addUeventEntryTo info dt.uevent with
      | none =>
        rw [hto, Option.map_none, eq_comm, Option.map_eq_none_iff] at hadd
        rw [hadd]
        rfl
      | some r =>
        rw [hto, Option.map_some, eq_comm, Option.map_eq_some_iff] at hadd
        obtain ⟨entries, hentries, hmap⟩ := hadd
        rw [hentries]
        dsimp only
        rw [hrest r.2, ← hmap]
        cases getBlockDevices dir with
        | none => rfl
        | some rest => simp

end Multiboot
