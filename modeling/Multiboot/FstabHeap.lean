import Mathlib.Algebra.BigOperators.Group.List.Defs
import Multiboot.FstabReader
import Multiboot.Lib.Heap

/-!
# The fstab reader with its pointers

`do_fs_mgr_read_fstab` and `fs_mgr_free_fstab` on a heap: every text that is copied is a block, and
so are the buffer of `getline`, the array of the records and the fstab.  The reader with pointers
reads what the reader on values reads, and survives where that one does (`fstab_read`).  By
`fstab_lifetime` nothing is freed twice when the fstab is freed, and what is left are the texts that
`fs_mgr_free_fstab` does not look at and the values that a second flag has overwritten.
-/

namespace Multiboot

open Lib HeapM

/-! ### The source -/

/-- What a block holds.  The fields of the records and of the fstab stand beside the heap. -/
inductive FstabObj
  | text (s : CString)
  | buffer
  | recs
  | fstab
  deriving DecidableEq, Repr

/-- A `char *` that need not have been assigned. -/
inductive VarPtr
  | null
  | own (b : Ptr)
  | stray
  deriving DecidableEq, Repr

/-- `struct fs_mgr_flag_values`: the numbers are those of `rest`, whose own pointers are not used. -/
structure FlagPtrs where
  keyLoc : VarPtr
  label : VarPtr
  rest : FlagValues
  deriving DecidableEq, Repr

/-- `struct fstab_rec`, zeroed: what is no pointer is in `rest`, whose texts are not used. -/
structure RecPtrs where
  blkDevice : Option Ptr := none
  mountPoint : Option Ptr := none
  fsType : Option Ptr := none
  fsOptionsUnparsed : Option Ptr := none
  fsMgrFlagsUnparsed : Option Ptr := none
  unhandledColumns : Option Ptr := none
  fsOptions : Option Ptr := none
  keyLoc : VarPtr := .null
  label : VarPtr := .null
  rest : ReadRec := {}
  deriving DecidableEq, Repr

def RecPtrs.zero : RecPtrs := {}

structure FstabPtrs where
  self : Ptr
  fstabFilename : Ptr
  recsBlock : Ptr
  recs : List RecPtrs
  /-- Its records overrun their array. -/
  overrun : Bool
  deriving DecidableEq, Repr

def strdup (s : CString) : HeapM FstabObj Ptr := alloc (.text s)

def strdupOpt : Option CString → HeapM FstabObj (Option Ptr)
  | none => pure none
  | some s => do
    let b ← strdup s
    pure (some b)

def freeVar : VarPtr → HeapM FstabObj Unit
  | .null => pure ()
  | .own b => free b
  | .stray => fail

/-- The chain of tests on `fl[i].flag`: a value that was there is overwritten. -/
def setValuePtr (flag : ℕ) (p : CString) (vals : FlagPtrs) : HeapM FstabObj FlagPtrs :=
  let value := (p.dropWhile (· != '=')).tail
  let vals := { vals with rest := setValue flag p vals.rest }
  if flag = MF_CRYPT then do
    let keyLoc ← strdup value
    pure { vals with keyLoc := .own keyLoc }
  else if flag = MF_VOLDMANAGED ∧ ':' ∈ p then do
    let label ← strdup (value.takeWhile (· != ':'))
    pure { vals with label := .own label }
  else pure vals

def FlagPtrs.notSpecified : FlagPtrs := ⟨.null, .null, .notSpecified⟩

/-- One token of the loop of `parse_flags`, as far as the values go. -/
def flagStepPtr (vals : FlagPtrs) (p : CString) : HeapM FstabObj FlagPtrs :=
  match findFlag fsMgrFlagList p with
  | some entry => setValuePtr entry.2 p vals
  | none => pure vals

/-- The values `parse_flags` leaves for the flags at `p`. -/
def flagValuesPtr (buf : List Char) (p : ℕ) : HeapM FstabObj FlagPtrs :=
  (strtokFold nul (· == ',') (fun vals p => vals >>= fun vals => flagStepPtr vals p) (buf.length + 1)
    (pure .notSpecified) buf p).1

/-- One column more: `unhandled` is moved to a larger block. -/
def appendColumnPtr (unhandled : Option Ptr) (p : CString) : HeapM FstabObj (Option Ptr) :=
  match unhandled with
  | none => do
    let b ← strdup (p ++ [' '])
    pure (some b)
  | some old =>
    load old >>= fun
      | .text s => do
        let b ← strdup (s ++ p ++ [' '])
        free old
        pure (some b)
      | _ => fail

/-- The columns behind the third of a line in TWRP format. -/
def unhandledPtr (buf : List Char) (save : ℕ) : HeapM FstabObj (Option Ptr) :=
  (strtokFold nul fieldDelim (fun unhandled p => unhandled >>= fun unhandled =>
    appendColumnPtr unhandled p) (buf.length + 1) (pure none) buf save).1

/-- `finish_rec`. -/
def RecPtrs.finish (rec : RecPtrs) (vals : FlagPtrs) : RecPtrs :=
  { rec with keyLoc := vals.keyLoc, label := vals.label, rest := { rec.rest with vals := vals.rest } }

/-- A line in TWRP format: the record as far as it gets, and `flag_vals` if it is complete. -/
def readTwrpPtr (vals : FlagPtrs) (buf : List Char) : HeapM FstabObj (RecPtrs × Option FlagPtrs) :=
  match strtok nul fieldDelim buf 0 with
  | none => pure (.zero, none)
  | some (p, buf, save) => do
    let mountPoint ← strdup (textAt nul buf p)
    let r : RecPtrs := { mountPoint := some mountPoint }
    match strtok nul fieldDelim buf save with
    | none => pure (r, none)
    | some (p, buf, save) => do
      let fsType ← strdup (textAt nul buf p)
      let r := { r with fsType := some fsType }
      match strtok nul fieldDelim buf save with
      | none => pure (r, none)
      | some (p, buf, save) => do
        let blkDevice ← strdup (textAt nul buf p)
        let unhandled ← unhandledPtr buf save
        let fsOptionsUnparsed ← strdup "defaults".toList
        let fsOptions ← strdup []
        let fsMgrFlagsUnparsed ← strdup "defaults".toList
        let r := { r with
          blkDevice := some blkDevice
          unhandledColumns := unhandled
          fsOptionsUnparsed := some fsOptionsUnparsed
          fsOptions := some fsOptions
          fsMgrFlagsUnparsed := some fsMgrFlagsUnparsed }
        pure (r.finish vals, some vals)

def readStandardPtr (buf : List Char) : HeapM FstabObj (RecPtrs × Option FlagPtrs) :=
  match strtok nul fieldDelim buf 0 with
  | none => pure (.zero, none)
  | some (p, buf, save) => do
    let blkDevice ← strdup (textAt nul buf p)
    let r : RecPtrs := { blkDevice := some blkDevice }
    match strtok nul fieldDelim buf save with
    | none => pure (r, none)
    | some (p, buf, save) => do
      let mountPoint ← strdup (textAt nul buf p)
      let r := { r with mountPoint := some mountPoint }
      match strtok nul fieldDelim buf save with
      | none => pure (r, none)
      | some (p, buf, save) => do
        let fsType ← strdup (textAt nul buf p)
        let r := { r with fsType := some fsType }
        match strtok nul fieldDelim buf save with
        | none => pure (r, none)
        | some (p, buf, save) => do
          let fsOptionsUnparsed ← strdup (textAt nul buf p)
          let (mount, buf) := parseFlagsAt mountFlagList false true FS_OPTIONS_LEN buf p
          -- fs_options are optional
          let fsOptions ← strdupOpt (mount.fsOptions.bind recordOptions)
          let r := { r with
            fsOptionsUnparsed := some fsOptionsUnparsed
            fsOptions := fsOptions
            rest := { r.rest with flags := mount.f } }
          match strtok nul fieldDelim buf save with
          | none => pure (r, none)
          | some (p, buf, _) => do
            let fsMgrFlagsUnparsed ← strdup (textAt nul buf p)
            let fsMgrFlags := (parseFlagsAt fsMgrFlagList true false 0 buf p).1.f
            let vals ← flagValuesPtr buf p
            let r := { r with
              fsMgrFlagsUnparsed := some fsMgrFlagsUnparsed
              rest := { r.rest with fsMgrFlags := fsMgrFlags } }
            pure (r.finish vals, some vals)

def readLinePtr (twrp : Bool) (vals : FlagPtrs) (buf : List Char) :
    HeapM FstabObj (RecPtrs × Option FlagPtrs) :=
  if twrp then readTwrpPtr vals buf else readStandardPtr buf

/-- How the second pass ends; on an error the last record is the one that was begun. -/
inductive PassPtrs
  | done (recs : List RecPtrs) (overrun : Bool)
  | err (recs : List RecPtrs)
  deriving DecidableEq, Repr

def secondPassPtr (twrp : Bool) (entries : ℕ) :
    FlagPtrs → List RecPtrs → List CString → HeapM FstabObj PassPtrs
  | _, recs, [] => pure (.done recs false)
  | vals, recs, line :: lines =>
    if isEntryBuf (lineBuf line) then
      if entries ≤ recs.length then pure (.done recs true)
      else
        readLinePtr twrp vals (lineBuf line) >>= fun
          | (rec, none) => pure (.err (recs ++ [rec]))
          | (rec, some vals) => secondPassPtr twrp entries vals (recs ++ [rec]) lines
    else secondPassPtr twrp entries vals recs lines

def freeRecPtr (rec : RecPtrs) : HeapM FstabObj Unit := do
  freeOpt rec.blkDevice
  freeOpt rec.mountPoint
  freeOpt rec.fsType
  freeOpt rec.fsOptions
  freeVar rec.keyLoc
  freeVar rec.label

def freeRecsPtr : List RecPtrs → HeapM FstabObj Unit
  | [] => pure ()
  | rec :: recs => do
    freeRecPtr rec
    freeRecsPtr recs

/-- `fs_mgr_free_fstab`. -/
def freeFstabPtr (fstab : FstabPtrs) : HeapM FstabObj Unit := do
  freeRecsPtr fstab.recs
  free fstab.recsBlock
  free fstab.fstabFilename
  free fstab.self

/-- The array with the records that no line has filled. -/
def zeroed (entries : ℕ) (recs : List RecPtrs) : List RecPtrs :=
  recs ++ List.replicate (entries - recs.length) RecPtrs.zero

/-- `do_fs_mgr_read_fstab`, with the contents of the file in the two passes. -/
def readFstabPtr (vals : FlagPtrs) (twrp : Bool) (path first second : CString) :
    HeapM FstabObj (Option FstabPtrs) := do
  let line ← alloc .buffer
  let entries := ((rawLines first).filter fun line => isEntryBuf (lineBuf line)).length
  if entries = 0 then do
    free line
    pure none
  else do
    let fstab ← alloc .fstab
    let fstabFilename ← strdup path
    let recs ← alloc .recs
    let pass ← secondPassPtr twrp entries vals [] (rawLines second)
    free line
    match pass with
    | .done rs overrun => pure (some ⟨fstab, fstabFilename, recs, zeroed entries rs, overrun⟩)
    | .err rs => do
      freeFstabPtr ⟨fstab, fstabFilename, recs, zeroed entries rs, false⟩
      pure none

/-! ### What the pointers stand for -/

abbrev Texts := Multiset (Ptr × FstabObj)

abbrev OptRep : Option Ptr → Option CString → Texts → Prop := OptOwns FstabObj.text

inductive VarRep : VarPtr → CPtr → Texts → Prop
  | null : VarRep .null .null 0
  | own {b : Ptr} {s : CString} : VarRep (.own b) (.own s) {(b, .text s)}
  | stray : VarRep .stray .stray 0

/-- The numbers alone. -/
def FlagValues.bare (vals : FlagValues) : FlagValues := { vals with keyLoc := .null, label := .null }

inductive FlagRep (x : FlagPtrs) (vals : FlagValues) : Texts → Prop
  | mk {K L : Texts} (keyLoc : VarRep x.keyLoc vals.keyLoc K) (label : VarRep x.label vals.label L)
      (rest : x.rest.bare = vals.bare) : FlagRep x vals (K + L)

/-- What is no text in a record. -/
def ReadRec.bare (r : ReadRec) : ReadRec :=
  { flags := r.flags, fsMgrFlags := r.fsMgrFlags, vals := r.vals.bare }

/-- The pointers stand for the texts of `r`; `fs_mgr_free_fstab` frees the first blocks, and does not
look at the second. -/
inductive RecRep (x : RecPtrs) (r : ReadRec) : Texts → Texts → Prop
  | mk {B M T O K L U F H : Texts} (blkDevice : OptRep x.blkDevice r.blkDevice B)
      (mountPoint : OptRep x.mountPoint r.mountPoint M) (fsType : OptRep x.fsType r.fsType T)
      (fsOptions : OptRep x.fsOptions r.fsOptions O) (keyLoc : VarRep x.keyLoc r.vals.keyLoc K)
      (label : VarRep x.label r.vals.label L)
      (fsOptionsUnparsed : OptRep x.fsOptionsUnparsed r.fsOptionsUnparsed U)
      (fsMgrFlagsUnparsed : OptRep x.fsMgrFlagsUnparsed r.fsMgrFlagsUnparsed F)
      (unhandledColumns : OptRep x.unhandledColumns r.unhandledColumns H)
      (rest : x.rest.bare = r.bare) :
      RecRep x r (B + (M + (T + (O + (K + L))))) (U + (F + H))

/-- How many texts `fs_mgr_free_fstab` does not free. -/
def ReadRec.unfreed (r : ReadRec) : ℕ :=
  r.fsOptionsUnparsed.toList.length + (r.fsMgrFlagsUnparsed.toList.length +
    r.unhandledColumns.toList.length)

theorem RecRep.card_unfreed {x : RecPtrs} {r : ReadRec} {K L : Texts} (h : RecRep x r K L) :
    Multiset.card L = r.unfreed := by
  cases h with
  | mk _ _ _ _ _ _ hu hf hh =>
    rw [Multiset.card_add, Multiset.card_add, hu.card, hf.card, hh.card]
    rfl

theorem recRep_zero : RecRep .zero {} 0 0 := by
  have h : RecRep .zero {} (0 + (0 + (0 + (0 + (0 + 0))))) (0 + (0 + 0)) :=
    .mk .null .null .null .null .null .null .null .null .null rfl
  simpa using h

/-! ### Freeing -/

section Free

variable {β γ : Type} {V : View FstabObj} {v : Option γ} {Q : β → γ → View FstabObj → Prop}
  {R S : Texts}

theorem refines_strdup {s : CString} {f : Ptr → HeapM FstabObj β}
    (hf : ∀ b, Refines ⟨{(b, .text s)} + V.live, V.freed, V.stale⟩ (f b) v Q) :
    Refines V (strdup s >>= f) v Q := .alloc hf

theorem refines_strdupOpt {t : Option CString} {f : Option Ptr → HeapM FstabObj β}
    (hf : ∀ p R, OptRep p t R → Refines ⟨R + V.live, V.freed, V.stale⟩ (f p) v Q) :
    Refines V (strdupOpt t >>= f) v Q := by
  cases t with
  | none =>
    have hV := hf none 0 .null
    rw [zero_add] at hV
    exact hV
  | some s => exact refines_strdup fun b => hf (some b) _ .own

theorem refines_freeVar {p : VarPtr} {c : CPtr} {f : Unit → HeapM FstabObj β} (h : VarRep p c R)
    (hc : c ≠ .stray) (heq : V.live = R + S)
    (hf : ∀ freed, Refines ⟨S, freed, V.stale⟩ (f ()) v Q) : Refines V (freeVar p >>= f) v Q := by
  cases h with
  | null =>
    rw [zero_add] at heq
    have hV := hf V.freed
    rw [← heq] at hV
    exact hV
  | own => exact .free heq (hf _)
  | stray => exact absurd rfl hc

/-- Freeing a stray pointer is fatal. -/
theorem refines_freeVar_stray {p : VarPtr} {f : Unit → HeapM FstabObj β} (h : VarRep p .stray R) :
    Refines V (freeVar p >>= f) (none : Option γ) Q := by
  cases h
  exact fun _ _ => .none

end Free

/-- What `owned` says of the two pointers. -/
theorem FlagValues.owned_iff (vals : FlagValues) :
    vals.owned = true ↔ vals.keyLoc ≠ .stray ∧ vals.label ≠ .stray := by
  rw [FlagValues.owned, Bool.and_eq_true, bne_iff_ne, bne_iff_ne]

theorem freeRecPtr_refines {V : View FstabObj} {W K L : Texts} {x : RecPtrs} {r : ReadRec}
    (h : RecRep x r K L) (hV : V.live = K + W) :
    Refines V (freeRecPtr x) (if r.vals.owned then some () else none) fun _ _ V' =>
      V'.live = W ∧ V'.stale = V.stale := by
  obtain @⟨B, M, T, O, K, L, U, F, H, hB, hM, hT, hO, hK, hL, -, -, -, -⟩ := h
  refine .freeOpt hB (S := M + (T + (O + (K + L))) + W) (by rw [hV, add_assoc]) fun _ => ?_
  refine .freeOpt hM (S := T + (O + (K + L)) + W) (add_assoc _ _ _) fun _ => ?_
  refine .freeOpt hT (S := O + (K + L) + W) (add_assoc _ _ _) fun _ => ?_
  refine .freeOpt hO (S := K + L + W) (add_assoc _ _ _) fun _ => ?_
  by_cases hkey : r.vals.keyLoc = .stray
  · rw [if_neg fun ho => ((FlagValues.owned_iff _).mp ho).1 hkey]
    rw [hkey] at hK
    exact refines_freeVar_stray hK
  · refine refines_freeVar hK hkey (S := L + W) (add_assoc _ _ _) fun _ => .last ?_
    by_cases hlabel : r.vals.label = .stray
    · rw [if_neg fun ho => ((FlagValues.owned_iff _).mp ho).2 hlabel]
      rw [hlabel] at hL
      exact refines_freeVar_stray hL
    · rw [if_pos ((FlagValues.owned_iff _).mpr ⟨hkey, hlabel⟩)]
      exact refines_freeVar hL hlabel rfl fun _ => refines_pure ⟨rfl, rfl⟩

/-- The blocks of a record, freed or not. -/
def RecOwns (x : RecPtrs) (r : ReadRec) (R : Texts) : Prop := ∃ K L, RecRep x r K L ∧ R = K + L

theorem freeRecsPtr_refines {xs : List RecPtrs} {rs : List ReadRec} {R : Texts}
    (h : Owned RecOwns xs rs R) : ∀ {V : View FstabObj} {W : Texts}, V.live = R + W →
      Refines V (freeRecsPtr xs) (if rs.all fun r => r.vals.owned then some () else none)
        fun _ _ V' => ∃ L, V'.live = L + W ∧ Multiset.card L = (rs.map ReadRec.unfreed).sum ∧
          V'.stale = V.stale := by
  induction h with
  | nil =>
    intro V W hV
    exact refines_pure ⟨0, hV, rfl, rfl⟩
  | @cons x r R S xs rs head tail ih =>
    intro V W hV
    obtain ⟨K, L, hrep, rfl⟩ := head
    refine (freeRecPtr_refines (W := L + (S + W)) hrep (by rw [hV]; abel)).seq ?_ ?_
    · intro hnone
      rw [ite_eq_right_iff] at hnone
      have hno : r.vals.owned = false := by
        by_contra ho
        cases hnone (by simpa using ho)
      rw [List.all_cons, hno, Bool.false_and, if_neg Bool.false_ne_true]
    · intro _ _ V₁ hsome hV₁
      have ho : r.vals.owned = true := by
        by_contra ho
        rw [if_neg ho] at hsome
        cases hsome
      rw [List.all_cons, ho, Bool.true_and]
      refine (ih (W := L + W) (by rw [hV₁.1]; abel)).mono ?_
      rintro _ _ V₂ ⟨L₂, hlive, hcard, hstale⟩
      refine ⟨L₂ + L, by rw [hlive]; abel, ?_, hstale.trans hV₁.2⟩
      rw [Multiset.card_add, hcard, hrep.card_unfreed, List.map_cons, List.sum_cons, add_comm]

/-! ### The values of the flags -/

def CPtr.texts : CPtr → ℕ
  | .own _ => 1
  | _ => 0

theorem VarRep.card {p : VarPtr} {c : CPtr} {R : Texts} (h : VarRep p c R) :
    Multiset.card R = c.texts := by
  cases h <;> rfl

/-- How many texts a flag overwrites. -/
def overwritten (flag : ℕ) (p : CString) (vals : FlagValues) : ℕ :=
  if flag = MF_CRYPT then vals.keyLoc.texts
  else if flag = MF_VOLDMANAGED ∧ ':' ∈ p then vals.label.texts
  else 0

/-- One token: the values, and how many texts have been overwritten. -/
def valueStep (c : FlagValues × ℕ) (p : CString) : FlagValues × ℕ :=
  match findFlag fsMgrFlagList p with
  | some entry => (setValue entry.2 p c.1, c.2 + overwritten entry.2 p c.1)
  | none => c

/-- How many texts `parse_flags` loses in a column. -/
def overwrittenIn (column : CString) : ℕ :=
  ((flagTokens column).foldl valueStep (.notSpecified, 0)).2

/-- The values are those of `parse_flags`. -/
theorem foldl_valueStep (len : ℕ) (toks : List CString) {st : FlagState} {c : FlagValues × ℕ}
    (h : st.vals = some c.1) :
    (toks.foldl (flagStep fsMgrFlagList len) st).vals = some (toks.foldl valueStep c).1 := by
  induction toks generalizing st c with
  | nil => exact h
  | cons tok toks ih =>
    refine ih ?_
    rw [flagStep, valueStep]
    cases findFlag fsMgrFlagList tok with
    | none => exact h
    | some entry =>
      show st.vals.map (setValue entry.2 tok) = some (setValue entry.2 tok c.1)
      rw [h, Option.map_some]

theorem setValue_keyLoc (flag : ℕ) (p : CString) (vals : FlagValues) :
    (setValue flag p vals).keyLoc =
      if flag = MF_CRYPT then .own (p.dropWhile (· != '=')).tail else vals.keyLoc := by
  unfold setValue
  dsimp only
  split_ifs <;> rfl

theorem setValue_label (flag : ℕ) (p : CString) (vals : FlagValues) :
    (setValue flag p vals).label =
      if flag = MF_VOLDMANAGED ∧ ':' ∈ p then
        .own ((p.dropWhile (· != '=')).tail.takeWhile (· != ':'))
      else vals.label := by
  unfold setValue
  dsimp only
  split_ifs <;> simp_all [MF_CRYPT, MF_LENGTH, MF_VOLDMANAGED]

theorem setValue_bare (flag : ℕ) (p : CString) (vals : FlagValues) :
    (setValue flag p vals).bare = (setValue flag p vals.bare).bare := by
  unfold setValue
  dsimp only
  split_ifs <;> rfl

/-- The pointers stand for the values of `c`, and the texts that were overwritten are live. -/
def FlagsHold (W : Texts) (stale : List FstabObj) (x : FlagPtrs) (c : FlagValues × ℕ)
    (V : View FstabObj) : Prop :=
  ∃ S T, FlagRep x c.1 S ∧ Multiset.card T = c.2 ∧ V.live = S + (T + W) ∧ V.stale = stale

theorem setValuePtr_refines {W : Texts} {stale : List FstabObj} {x : FlagPtrs}
    {c : FlagValues × ℕ} {V : View FstabObj} (h : FlagsHold W stale x c V) (flag : ℕ) (p : CString) :
    Refines V (setValuePtr flag p x) (some (setValue flag p c.1, c.2 + overwritten flag p c.1))
      (FlagsHold W stale) := by
  obtain ⟨_, T, @⟨K, L, hkey, hlabel, hrest⟩, hcard, hlive, hstale⟩ := h
  have hbare : (setValue flag p x.rest).bare = (setValue flag p c.1).bare := by
    rw [setValue_bare, hrest, ← setValue_bare]
  have hkeyLoc := setValue_keyLoc flag p c.1
  have hlab := setValue_label flag p c.1
  unfold setValuePtr overwritten
  dsimp only
  by_cases hcrypt : flag = MF_CRYPT
  · have hvold : ¬ (flag = MF_VOLDMANAGED ∧ ':' ∈ p) := by
      rintro ⟨hflag, -⟩
      rw [hcrypt] at hflag
      exact absurd hflag (by decide)
    rw [if_pos hcrypt] at hkeyLoc ⊢
    rw [if_neg hvold] at hlab
    rw [if_pos hcrypt]
    have hown : ∀ b, VarRep (.own b) (setValue flag p c.1).keyLoc
        {(b, .text (p.dropWhile (· != '=')).tail)} := by
      intro b
      rw [hkeyLoc]
      exact .own
    have hkeep : VarRep x.label (setValue flag p c.1).label L := by rwa [hlab]
    refine refines_strdup fun b =>
      refines_pure ⟨_, K + T, .mk (hown b) hkeep hbare, ?_, ?_, hstale⟩
    · rw [Multiset.card_add, hkey.card, hcard, add_comm]
    · show {(b, _)} + V.live = _
      rw [hlive]
      abel
  · rw [if_neg hcrypt] at hkeyLoc ⊢
    rw [if_neg hcrypt]
    have hkeep : VarRep x.keyLoc (setValue flag p c.1).keyLoc K := by rwa [hkeyLoc]
    by_cases hvold : flag = MF_VOLDMANAGED ∧ ':' ∈ p
    · rw [if_pos hvold] at hlab ⊢
      rw [if_pos hvold]
      have hown : ∀ b, VarRep (.own b) (setValue flag p c.1).label
          {(b, .text ((p.dropWhile (· != '=')).tail.takeWhile (· != ':')))} := by
        intro b
        rw [hlab]
        exact .own
      refine refines_strdup fun b =>
        refines_pure ⟨_, L + T, .mk hkeep (hown b) hbare, ?_, ?_, hstale⟩
      · rw [Multiset.card_add, hlabel.card, hcard, add_comm]
      · show {(b, _)} + V.live = _
        rw [hlive]
        abel
    · rw [if_neg hvold] at hlab ⊢
      rw [if_neg hvold]
      exact refines_pure ⟨K + L, T, .mk hkeep (by rwa [hlab]) hbare, hcard, hlive, hstale⟩

theorem flagStepPtr_refines {W : Texts} {stale : List FstabObj} (x : FlagPtrs) (c : FlagValues × ℕ)
    (V : View FstabObj) (p : CString) (h : FlagsHold W stale x c V) :
    Refines V (flagStepPtr x p) (some (valueStep c p)) (FlagsHold W stale) := by
  unfold flagStepPtr valueStep
  cases findFlag fsMgrFlagList p with
  | none => exact refines_pure h
  | some entry => exact setValuePtr_refines h entry.2 p

theorem flagRep_notSpecified : FlagRep .notSpecified .notSpecified 0 := by
  have h : FlagRep .notSpecified .notSpecified (0 + 0) := .mk .null .null rfl
  simpa using h

/-- **`parse_flags` with its pointers** on the flags at `p`. -/
theorem flagValuesPtr_refines (V : View FstabObj) (buf : List Char) (p : ℕ) :
    Refines V (flagValuesPtr buf p)
      (some ((flagTokens (textAt nul buf p)).foldl valueStep (.notSpecified, 0)))
      (FlagsHold V.live V.stale) := by
  rw [flagValuesPtr, strtokFold_tokens _ _ (Nat.lt_succ_of_le (length_textAt_le buf p))]
  refine Refines.foldl flagStepPtr_refines _ (refines_pure ?_)
  exact ⟨0, 0, flagRep_notSpecified, rfl, by simp, rfl⟩

/-! ### The columns behind the third -/

/-- The pointer stands for the text, which is live beside `W`. -/
def TextHolds (W : Texts) (stale : List FstabObj) (p : Option Ptr) (t : Option CString)
    (V : View FstabObj) : Prop :=
  ∃ S, OptRep p t S ∧ V.live = S + W ∧ V.stale = stale

theorem appendColumnPtr_refines {W : Texts} {stale : List FstabObj} (x : Option Ptr)
    (t : Option CString) (V : View FstabObj) (p : CString) (h : TextHolds W stale x t V) :
    Refines V (appendColumnPtr x p) (some (appendColumn t p)) (TextHolds W stale) := by
  obtain ⟨S, hrep, hlive, hstale⟩ := h
  cases hrep with
  | null =>
    refine refines_strdup fun b => refines_pure ⟨_, .own, ?_, hstale⟩
    show _ + V.live = _
    rw [hlive, zero_add]
    rfl
  | @own old s =>
    refine .load (a := .text s) (by simp [hlive]) ?_
    refine refines_strdup fun b => ?_
    refine .free (b := old) (a := .text s) (R := {(b, .text (s ++ p ++ [' ']))} + W) ?_
      (refines_pure ⟨_, .own, rfl, hstale⟩)
    show _ + V.live = _
    rw [hlive]
    abel

theorem unhandledPtr_refines (V : View FstabObj) (buf : List Char) (save : ℕ) :
    Refines V (unhandledPtr buf save)
      (some ((tokens fieldDelim (textAt nul buf save)).foldl appendColumn none))
      (TextHolds V.live V.stale) := by
  rw [unhandledPtr, strtokFold_tokens _ _ (Nat.lt_succ_of_le (length_textAt_le buf save))]
  refine Refines.foldl appendColumnPtr_refines _ (refines_pure ?_)
  exact ⟨0, .null, (zero_add _).symm, rfl⟩

/-! ### A line -/

/-- The record that a line in TWRP format leaves, complete or not. -/
def twrpBegun (flagVals : FlagValues) : List CString → ReadRec
  | [] => {}
  | [mountPoint] => { mountPoint := some mountPoint }
  | [mountPoint, fsType] => { mountPoint := some mountPoint, fsType := some fsType }
  | mountPoint :: fsType :: blkDevice :: unhandled =>
    twrpRec flagVals mountPoint fsType blkDevice unhandled

def standardBegun : List CString → ReadRec
  | [] => {}
  | [blkDevice] => { blkDevice := some blkDevice }
  | [blkDevice, mountPoint] => { blkDevice := some blkDevice, mountPoint := some mountPoint }
  | [blkDevice, mountPoint, fsType] =>
    { blkDevice := some blkDevice, mountPoint := some mountPoint, fsType := some fsType }
  | [blkDevice, mountPoint, fsType, fsOptions] =>
    { blkDevice := some blkDevice
      mountPoint := some mountPoint
      fsType := some fsType
      fsOptionsUnparsed := some fsOptions
      flags := (mountFlagsOf fsOptions).f
      fsOptions := (mountFlagsOf fsOptions).fsOptions.bind recordOptions }
  | blkDevice :: mountPoint :: fsType :: fsOptions :: fsMgrFlags :: _ =>
    standardRec blkDevice mountPoint fsType fsOptions fsMgrFlags

def begunRec (twrp : Bool) (flagVals : FlagValues) (line : CString) : ReadRec :=
  if twrp then twrpBegun flagVals (columnsOf line) else standardBegun (columnsOf line)

/-- How many texts a line loses. -/
def lineLost (twrp : Bool) (line : CString) : ℕ :=
  if twrp then 0 else ((columnsOf line)[4]?.map overwrittenIn).getD 0

theorem begunRec_complete {twrp : Bool} (flagVals : FlagValues) {line : CString}
    (h : complete twrp line = true) : begunRec twrp flagVals line = lineRec twrp flagVals line := by
  have hlen : minColumns twrp ≤ (columnsOf line).length := of_decide_eq_true h
  unfold begunRec lineRec recOf
  generalize columnsOf line = cols at hlen ⊢
  cases twrp with
  | true =>
    rcases cols with _ | ⟨c1, _ | ⟨c2, _ | ⟨c3, cs⟩⟩⟩
    · exact absurd hlen (by decide)
    · exact absurd hlen (by simp [minColumns])
    · exact absurd hlen (by simp [minColumns])
    · rfl
  | false =>
    rcases cols with _ | ⟨c1, _ | ⟨c2, _ | ⟨c3, _ | ⟨c4, _ | ⟨c5, cs⟩⟩⟩⟩⟩
    · exact absurd hlen (by decide)
    · exact absurd hlen (by simp [minColumns])
    · exact absurd hlen (by simp [minColumns])
    · exact absurd hlen (by simp [minColumns])
    · exact absurd hlen (by simp [minColumns])
    · rfl

/-- A record that is not complete has no values. -/
theorem begunRec_incomplete {twrp : Bool} (flagVals : FlagValues) {line : CString}
    (h : complete twrp line = false) : (begunRec twrp flagVals line).vals.owned = true := by
  have hlen : (columnsOf line).length < minColumns twrp :=
    not_le.mp (of_decide_eq_false h)
  unfold begunRec
  generalize columnsOf line = cols at hlen ⊢
  cases twrp with
  | true =>
    rcases cols with _ | ⟨c1, _ | ⟨c2, _ | ⟨c3, cs⟩⟩⟩
    · rfl
    · rfl
    · rfl
    · exact absurd hlen (by simp [minColumns])
  | false =>
    rcases cols with _ | ⟨c1, _ | ⟨c2, _ | ⟨c3, _ | ⟨c4, _ | ⟨c5, cs⟩⟩⟩⟩⟩
    · rfl
    · rfl
    · rfl
    · rfl
    · rfl
    · exact absurd hlen (by simp [minColumns])

/-- What the local variable `flag_vals` starts with; a pointer is `NULL` or not, and none of ours. -/
structure Uninit where
  keyLoc : Bool
  label : Bool
  rest : FlagValues

def Uninit.ptrs (u : Uninit) : FlagPtrs :=
  ⟨if u.keyLoc then .stray else .null, if u.label then .stray else .null, u.rest⟩

def Uninit.vals (u : Uninit) : FlagValues :=
  { u.rest with
    keyLoc := if u.keyLoc then .stray else .null
    label := if u.label then .stray else .null }

theorem varRep_uninit (b : Bool) :
    VarRep (if b then .stray else .null) (if b then .stray else .null) 0 := by
  cases b with
  | false => exact .null
  | true => exact .stray

/-- The record has its blocks, and the texts it has lost are live, beside `W`. -/
def LineHolds (W : Texts) (stale : List FstabObj) (lost : ℕ) (x : RecPtrs) (r : ReadRec)
    (V : View FstabObj) : Prop :=
  ∃ R T, RecOwns x r R ∧ Multiset.card T = lost ∧ V.live = R + (T + W) ∧ V.stale = stale

theorem readTwrpPtr_refines (u : Uninit) (V : View FstabObj) (buf : List Char) :
    Refines V (readTwrpPtr u.ptrs buf) (some (twrpBegun u.vals (columnsOf (textAt nul buf 0))))
      fun x r V' => x.2 = (if complete true (textAt nul buf 0) then some u.ptrs else none) ∧
        LineHolds V.live V.stale 0 x.1 r V' := by
  unfold complete columnsOf
  cases h1 : tokens fieldDelim (textAt nul buf 0) with
  | nil =>
    rw [readTwrpPtr, strtok_nil h1]
    exact refines_pure ⟨rfl, 0, 0, ⟨0, 0, recRep_zero, rfl⟩, rfl, by simp, rfl⟩
  | cons c1 cs =>
  obtain ⟨p1, buf1, save1, hcall1, rfl, hrest1, -⟩ := strtok_cons h1
  rw [readTwrpPtr, hcall1]
  refine refines_strdup fun b1 => ?_
  cases cs with
  | nil =>
    rw [strtok_nil hrest1]
    refine refines_pure ⟨rfl, _, 0,
      ⟨_, _, .mk .null .own .null .null .null .null .null .null .null rfl, rfl⟩, rfl, ?_, rfl⟩
    dsimp only
    abel
  | cons c2 cs =>
  obtain ⟨p2, buf2, save2, hcall2, rfl, hrest2, -⟩ := strtok_cons hrest1
  rw [hcall2]
  refine refines_strdup fun b2 => ?_
  cases cs with
  | nil =>
    rw [strtok_nil hrest2]
    refine refines_pure ⟨rfl, _, 0,
      ⟨_, _, .mk .null .own .own .null .null .null .null .null .null rfl, rfl⟩, rfl, ?_, rfl⟩
    dsimp only
    abel
  | cons c3 cs =>
  obtain ⟨p3, buf3, save3, hcall3, rfl, hrest3, -⟩ := strtok_cons hrest2
  rw [hcall3]
  refine refines_strdup fun b3 => ?_
  refine (unhandledPtr_refines _ buf3 save3).seq_some ?_
  rintro unhandled V₁ ⟨H, hunhandled, hlive, hstale⟩
  rw [hrest3, foldl_appendColumn] at hunhandled
  refine refines_strdup fun b4 => refines_strdup fun b5 => refines_strdup fun b6 => ?_
  refine refines_pure ⟨?_, _, 0, ⟨_, _, .mk .own .own .own .own (varRep_uninit u.keyLoc)
    (varRep_uninit u.label) .own .own hunhandled rfl, rfl⟩, rfl, ?_, hstale⟩
  · simp [minColumns]
  · dsimp only
    rw [hlive]
    simp only [zero_add, add_zero]
    abel

/-- The values that `parse_flags` leaves are those of the record. -/
theorem flagValues_eq (buf : List Char) (p : ℕ) :
    ((fsMgrFlagsOf (textAt nul buf p)).vals.getD .notSpecified) =
      ((flagTokens (textAt nul buf p)).foldl valueStep (.notSpecified, 0)).1 := by
  have hinit : (FlagState.init true false).vals =
      some ((FlagValues.notSpecified, 0) : FlagValues × ℕ).1 := rfl
  have hvals := foldl_valueStep 0 (flagTokens (textAt nul buf p)) hinit
  rw [fsMgrFlagsOf, ← parseFlagsAt_text fsMgrFlagList true false 0 rfl, parseFlagsAt_eq]
  dsimp only
  rw [hvals, Option.getD_some]

theorem readStandardPtr_refines (V : View FstabObj) (buf : List Char) :
    Refines V (readStandardPtr buf) (some (standardBegun (columnsOf (textAt nul buf 0))))
      fun x r V' => x.2.isSome = complete false (textAt nul buf 0) ∧
        LineHolds V.live V.stale (lineLost false (textAt nul buf 0)) x.1 r V' := by
  unfold complete lineLost columnsOf
  rw [if_neg Bool.false_ne_true]
  cases h1 : tokens fieldDelim (textAt nul buf 0) with
  | nil =>
    rw [readStandardPtr, strtok_nil h1]
    exact refines_pure ⟨rfl, 0, 0, ⟨0, 0, recRep_zero, rfl⟩, rfl, by simp, rfl⟩
  | cons c1 cs =>
  obtain ⟨p1, buf1, save1, hcall1, rfl, hrest1, -⟩ := strtok_cons h1
  rw [readStandardPtr, hcall1]
  refine refines_strdup fun b1 => ?_
  cases cs with
  | nil =>
    rw [strtok_nil hrest1]
    refine refines_pure ⟨rfl, _, 0,
      ⟨_, _, .mk .own .null .null .null .null .null .null .null .null rfl, rfl⟩, rfl, ?_, rfl⟩
    dsimp only
    abel
  | cons c2 cs =>
  obtain ⟨p2, buf2, save2, hcall2, rfl, hrest2, -⟩ := strtok_cons hrest1
  rw [hcall2]
  refine refines_strdup fun b2 => ?_
  cases cs with
  | nil =>
    rw [strtok_nil hrest2]
    refine refines_pure ⟨rfl, _, 0,
      ⟨_, _, .mk .own .own .null .null .null .null .null .null .null rfl, rfl⟩, rfl, ?_, rfl⟩
    dsimp only
    abel
  | cons c3 cs =>
  obtain ⟨p3, buf3, save3, hcall3, rfl, hrest3, -⟩ := strtok_cons hrest2
  rw [hcall3]
  refine refines_strdup fun b3 => ?_
  cases cs with
  | nil =>
    rw [strtok_nil hrest3]
    refine refines_pure ⟨rfl, _, 0,
      ⟨_, _, .mk .own .own .own .null .null .null .null .null .null rfl, rfl⟩, rfl, ?_, rfl⟩
    dsimp only
    abel
  | cons c4 cs =>
  obtain ⟨p4, buf4, save4, hcall4, rfl, hrest4, hle⟩ := strtok_cons hrest3
  have hframe := parseFlagsAt_frame mountFlagList false true FS_OPTIONS_LEN buf4 p4 (m := save4) hle
  have hmount := parseFlagsAt_text mountFlagList false true FS_OPTIONS_LEN
    (rfl : textAt nul buf4 p4 = _)
  rw [← textAt_of_drop hframe le_rfl] at hrest4
  rw [← mountFlagsOf] at hmount
  rw [hcall4]
  refine refines_strdup fun b4 => ?_
  dsimp only
  rw [hmount]
  generalize (parseFlagsAt mountFlagList false true FS_OPTIONS_LEN buf4 p4).2 = buf4' at hrest4 ⊢
  refine refines_strdupOpt fun o O hO => ?_
  cases cs with
  | nil =>
    rw [strtok_nil hrest4]
    refine refines_pure ⟨rfl, _, 0,
      ⟨_, _, .mk .own .own .own hO .null .null .own .null .null rfl, rfl⟩, rfl, ?_, rfl⟩
    dsimp only
    abel
  | cons c5 cs =>
  obtain ⟨p5, buf5, save5, hcall5, rfl, -, -⟩ := strtok_cons hrest4
  have hfsMgr := parseFlagsAt_text fsMgrFlagList true false 0 (rfl : textAt nul buf5 p5 = _)
  rw [← fsMgrFlagsOf] at hfsMgr
  rw [hcall5]
  refine refines_strdup fun b5 => ?_
  refine (flagValuesPtr_refines _ buf5 p5).seq_some ?_
  rintro vals V₁ ⟨_, T, ⟨hkey, hlabel, hrest⟩, hcard, hlive, hstale⟩
  rw [← flagValues_eq] at hkey hlabel hrest
  rw [hfsMgr]
  refine refines_pure ⟨?_, _, T,
    ⟨_, _, .mk .own .own .own hO hkey hlabel .own .own .null ?_, rfl⟩, hcard, ?_, hstale⟩
  · simp [minColumns]
  · simp only [RecPtrs.finish, ReadRec.bare, hrest]
    rfl
  · rw [hlive]
    dsimp only
    abel

/-- **A line.**  In TWRP format the local variable stays as it was. -/
theorem readLinePtr_refines (u : Uninit) (twrp : Bool) {vals : FlagPtrs}
    (hvals : twrp = true → vals = u.ptrs) (V : View FstabObj) (buf : List Char) :
    Refines V (readLinePtr twrp vals buf) (some (begunRec twrp u.vals (textAt nul buf 0)))
      fun x r V' => x.2.isSome = complete twrp (textAt nul buf 0) ∧
        (∀ vals', x.2 = some vals' → twrp = true → vals' = u.ptrs) ∧
        LineHolds V.live V.stale (lineLost twrp (textAt nul buf 0)) x.1 r V' := by
  cases twrp with
  | true =>
    rw [hvals rfl]
    refine (readTwrpPtr_refines u V buf).mono ?_
    rintro ⟨x, vals'⟩ r V' ⟨rfl, hline⟩
    refine ⟨?_, ?_, hline⟩
    · cases complete true (textAt nul buf 0) <;> rfl
    · intro vals' hvals' _
      dsimp only at hvals'
      split_ifs at hvals'
      exact (Option.some.inj hvals').symm
  | false =>
    refine (readStandardPtr_refines V buf).mono ?_
    rintro x r V' ⟨hsome, hline⟩
    exact ⟨hsome, fun _ _ h => Bool.noConfusion h, hline⟩

/-! ### The second pass -/

/-- The lines up to the first that is not complete, and this one. -/
def begunLines (twrp : Bool) : List CString → List CString
  | [] => []
  | line :: lines => if complete twrp line then line :: begunLines twrp lines else [line]

/-- The lines of a pass over `text` that makes records, if there is room for `entries`. -/
def passLines (twrp : Bool) (entries : ℕ) (text : CString) : List CString :=
  begunLines twrp ((entryLines text).take entries)

def begunRecs (twrp : Bool) (flagVals : FlagValues) (lines : List CString) : List ReadRec :=
  lines.map (begunRec twrp flagVals)

def linesLost (twrp : Bool) (lines : List CString) : ℕ := (lines.map (lineLost twrp)).sum

/-- The records have their blocks, and the texts they have lost are live, beside `W`. -/
def RecsHold (W : Texts) (stale : List FstabObj) (lost : ℕ) (xs : List RecPtrs) (rs : List ReadRec)
    (V : View FstabObj) : Prop :=
  ∃ R T, Owned RecOwns xs rs R ∧ Multiset.card T = lost ∧ V.live = R + (T + W) ∧ V.stale = stale

/-- How a pass ends that has made the records `xs`. -/
def passEnd (twrp : Bool) (overrun : Bool) (lines : List CString) (xs : List RecPtrs) : PassPtrs :=
  if lines.all (complete twrp) then .done xs overrun else .err xs

/-- **The second pass with its pointers**, from the records `xs` on. -/
theorem secondPassPtr_refines (u : Uninit) (twrp : Bool) {entries : ℕ} {W : Texts}
    {stale : List FstabObj} (lines : List CString) {vals : FlagPtrs}
    (hvals : twrp = true → vals = u.ptrs) {lost : ℕ} {xs : List RecPtrs} {rs : List ReadRec}
    {V : View FstabObj} (hV : RecsHold W stale lost xs rs V) :
    Refines V (secondPassPtr twrp entries vals xs lines)
      (some (begunLines twrp
        (((lines.map fun raw => textAt nul (lineBuf raw) 0).filter isEntry).take
          (entries - rs.length))))
      fun pass ls V' => ∃ xs',
        pass = passEnd twrp (decide (entries - rs.length <
          ((lines.map fun raw => textAt nul (lineBuf raw) 0).filter isEntry).length)) ls xs' ∧
        RecsHold W stale (lost + linesLost twrp ls) xs' (rs ++ begunRecs twrp u.vals ls) V' := by
  induction lines generalizing vals lost xs rs V with
  | nil =>
    refine refines_pure ⟨xs, ?_, ?_⟩
    · simp [passEnd, begunLines]
    · simpa [linesLost, begunRecs, begunLines] using hV
  | cons raw lines ih =>
    rw [secondPassPtr, isEntryBuf_eq, List.map_cons]
    by_cases hentry : isEntry (textAt nul (lineBuf raw) 0) = true
    · rw [if_pos hentry, List.filter_cons_of_pos hentry]
      obtain ⟨R, T, hown, hcard, hlive, hstale⟩ := hV
      have hlen := hown.length_eq
      by_cases hroom : entries ≤ xs.length
      · rw [if_pos hroom, show entries - rs.length = 0 by omega]
        refine refines_pure ⟨xs, by simp [passEnd, begunLines], R, T, ?_, ?_, hlive, hstale⟩
        · simpa [begunRecs, begunLines] using hown
        · simpa [linesLost, begunLines] using hcard
      · obtain ⟨k, hk⟩ : ∃ k, entries - rs.length = k + 1 := ⟨entries - rs.length - 1, by omega⟩
        rw [if_neg hroom, hk, List.take_succ_cons]
        refine (readLinePtr_refines u twrp hvals V (lineBuf raw)).seq_some ?_
        rintro ⟨x, vals'⟩ V₁ ⟨hsome, hvals', R₁, T₁, hown₁, hcard₁, hlive₁, hstale₁⟩
        have hhold : RecsHold W stale (lost + lineLost twrp (textAt nul (lineBuf raw) 0)) (xs ++ [x])
            (rs ++ [begunRec twrp u.vals (textAt nul (lineBuf raw) 0)]) V₁ := by
          refine ⟨R₁ + R, T + T₁, hown.concat hown₁, ?_, ?_, hstale₁.trans hstale⟩
          · rw [Multiset.card_add, hcard, hcard₁]
          · rw [hlive₁, hlive]
            abel
        cases vals' with
        | none =>
          have hbad : complete twrp (textAt nul (lineBuf raw) 0) = false := hsome.symm
          rw [begunLines, hbad, if_neg Bool.false_ne_true]
          refine refines_pure ⟨xs ++ [x], ?_, ?_⟩
          · simp [passEnd, hbad]
          · simpa [linesLost, begunRecs] using hhold
        | some vals' =>
          have hgood : complete twrp (textAt nul (lineBuf raw) 0) = true := hsome.symm
          rw [begunLines, hgood, if_pos rfl]
          have hrest := ih (hvals' vals' rfl) hhold
          rw [List.length_append, List.length_singleton, show entries - (rs.length + 1) = k by omega]
            at hrest
          refine hrest.imp_some ?_
          rintro pass V' ⟨xs', rfl, hV'⟩
          refine ⟨xs', ?_, ?_⟩
          · simp [passEnd, hgood]
          · simpa [linesLost, begunRecs, add_assoc] using hV'
    · rw [if_neg hentry, List.filter_cons_of_neg hentry]
      exact ih hvals hV

theorem secondPass_begun (twrp : Bool) (flagVals : FlagValues) {entries : ℕ} (lines : List CString)
    {vals : FlagValues} {recs : List ReadRec} (hvals : twrp = true → vals = flagVals)
    {es ls : List CString}
    (hes : es = (lines.map fun raw => textAt nul (lineBuf raw) 0).filter isEntry)
    (hls : ls = begunLines twrp (es.take (entries - recs.length))) :
    secondPass twrp entries vals recs lines =
      if ls.all (complete twrp) then
        .done (recs ++ begunRecs twrp flagVals ls) (decide (entries - recs.length < es.length))
      else .err (recs ++ begunRecs twrp flagVals (ls.takeWhile (complete twrp))) := by
  induction lines generalizing vals recs es ls with
  | nil =>
    subst hls hes
    simp [secondPass, begunLines, begunRecs]
  | cons raw lines ih =>
    rw [secondPass, isEntryBuf_eq]
    rw [List.map_cons] at hes
    by_cases hentry : isEntry (textAt nul (lineBuf raw) 0) = true
    · rw [List.filter_cons_of_pos hentry] at hes
      rw [if_pos hentry]
      by_cases hroom : entries ≤ recs.length
      · rw [Nat.sub_eq_zero_of_le hroom] at hls ⊢
        rw [if_pos hroom, hls, hes]
        simp [begunLines, begunRecs]
      · obtain ⟨k, hk⟩ : ∃ k, entries - recs.length = k + 1 :=
          ⟨entries - recs.length - 1, by omega⟩
        rw [hk, hes, List.take_succ_cons, begunLines] at hls
        rw [if_neg hroom]
        cases hgood : complete twrp (textAt nul (lineBuf raw) 0) with
        | false =>
          rw [hgood, if_neg Bool.false_ne_true] at hls
          rw [readLineBuf_incomplete vals hgood, hls]
          simp [hgood, begunRecs]
        | true =>
          rw [hgood, if_pos rfl] at hls
          obtain ⟨vals', hread, hvals'⟩ := readLineBuf_complete hgood hvals
          have hlen : entries - (recs ++ [lineRec twrp flagVals (textAt nul (lineBuf raw) 0)]).length
              = k := by
            rw [List.length_append, List.length_singleton]
            omega
          have hrest : secondPass twrp entries vals'
              (recs ++ [lineRec twrp flagVals (textAt nul (lineBuf raw) 0)]) lines = _ :=
            ih hvals' rfl rfl
          rw [hlen] at hrest
          rw [hread]
          dsimp only
          rw [hrest, hls, hes, hk, List.all_cons, hgood, Bool.true_and,
            List.takeWhile_cons_of_pos hgood]
          simp [begunRecs, begunRec_complete flagVals hgood]
    · rw [List.filter_cons_of_neg hentry] at hes
      rw [if_neg hentry]
      exact ih hvals hes hls

/-! ### The function -/

theorem all_owned_takeWhile (twrp : Bool) (flagVals : FlagValues) (lines : List CString) :
    ((begunRecs twrp flagVals ((begunLines twrp lines).takeWhile (complete twrp))).all
      fun rec => rec.vals.owned) =
    (begunRecs twrp flagVals (begunLines twrp lines)).all fun rec => rec.vals.owned := by
  induction lines with
  | nil => rfl
  | cons line lines ih =>
    rw [begunLines]
    cases hgood : complete twrp line with
    | false =>
      rw [if_neg Bool.false_ne_true, List.takeWhile_cons_of_neg (by simp [hgood])]
      simp [begunRecs, begunRec_incomplete flagVals hgood]
    | true =>
      rw [if_pos rfl, List.takeWhile_cons_of_pos hgood]
      show (_ && List.all _ _) = (_ && List.all _ _)
      exact congrArg _ ih

/-- The array with the records that no line has filled. -/
def filled (entries : ℕ) (rs : List ReadRec) : List ReadRec :=
  rs ++ List.replicate (entries - rs.length) ({} : ReadRec)

/-- **The reader on values**, also on a file that changes between the passes. -/
theorem doFsMgrReadFstabBuf_begun (flagVals : FlagValues) (twrp : Bool) {first second : CString}
    {n : ℕ} {ls : List CString} (hn : n = (entryLines first).length)
    (hls : ls = passLines twrp n second) :
    doFsMgrReadFstabBuf flagVals twrp first second =
      if n = 0 then .null
      else if ls.all (complete twrp) then
        .fstab n (filled n (begunRecs twrp flagVals ls)) (decide (n < (entryLines second).length))
      else if (begunRecs twrp flagVals ls).all fun rec => rec.vals.owned then .null
      else .crash := by
  have hlines : ((rawLines second).map fun raw => textAt nul (lineBuf raw) 0).filter isEntry =
      entryLines second := by
    rw [map_lineBuf_rawLines, entryLines]
  have hpass : secondPass twrp n flagVals [] (rawLines second) = _ :=
    secondPass_begun twrp flagVals (rawLines second) (fun _ => rfl) hlines.symm hls
  simp only [doFsMgrReadFstabBuf, entries_rawLines, ← hn, hpass]
  by_cases h0 : n = 0
  · rw [if_pos h0, if_pos h0]
  rw [if_neg h0, if_neg h0]
  cases hall : ls.all (complete twrp) with
  | true => rfl
  | false =>
    rw [if_neg Bool.false_ne_true, if_neg Bool.false_ne_true, List.nil_append]
    show (if _ then ReadEnd.null else .crash) = _
    rw [hls, passLines, all_owned_takeWhile]

theorem owned_zeroed {xs : List RecPtrs} {rs : List ReadRec} {R : Texts} (n : ℕ)
    (h : Owned RecOwns xs rs R) : Owned RecOwns (zeroed n xs) (filled n rs) R := by
  have hzero : RecOwns .zero {} 0 := ⟨0, 0, recRep_zero, rfl⟩
  have happend := h.append (.replicate (n - xs.length) hzero)
  rw [add_zero] at happend
  rwa [zeroed, filled, ← h.length_eq]

theorem freeFstabPtr_refines {V : View FstabObj} {x : FstabPtrs} {rs : List ReadRec}
    {path : CString} {R W : Texts} (h : Owned RecOwns x.recs rs R)
    (hV : V.live = R + ({(x.recsBlock, .recs)} + ({(x.fstabFilename, .text path)} +
      ({(x.self, .fstab)} + W)))) :
    Refines V (freeFstabPtr x) (if rs.all fun r => r.vals.owned then some () else none)
      fun _ _ V' => ∃ L, V'.live = L + W ∧ Multiset.card L = (rs.map ReadRec.unfreed).sum ∧
        V'.stale = V.stale := by
  refine (freeRecsPtr_refines h hV).seq (fun hnone => hnone) ?_
  rintro _ _ V₁ hsome ⟨L, hlive, hcard, hstale⟩
  rw [hsome]
  refine .free (b := x.recsBlock) (a := .recs)
    (R := {(x.fstabFilename, .text path)} + ({(x.self, .fstab)} + (L + W)))
    (by rw [hlive]; abel) ?_
  refine .free rfl (.last ?_)
  exact .free rfl (refines_pure ⟨L, rfl, hcard, hstale⟩)

/-- How many texts of a line `fs_mgr_free_fstab` does not look at. -/
def lineUnfreed (twrp : Bool) (line : CString) : ℕ :=
  let n := (columnsOf line).length
  if twrp then (if n < 3 then 0 else if n = 3 then 2 else 3) else min n 5 - 3

theorem unfreed_begunRec (twrp : Bool) (flagVals : FlagValues) (line : CString) :
    (begunRec twrp flagVals line).unfreed = lineUnfreed twrp line := by
  unfold begunRec lineUnfreed
  generalize columnsOf line = cols
  cases twrp with
  | true =>
    rcases cols with _ | ⟨c1, _ | ⟨c2, _ | ⟨c3, _ | ⟨c4, cs⟩⟩⟩⟩
    · rfl
    · rfl
    · rfl
    · rfl
    · simp [twrpBegun, twrpRec, ReadRec.unfreed, joinColumns]
  | false =>
    rcases cols with _ | ⟨c1, _ | ⟨c2, _ | ⟨c3, _ | ⟨c4, _ | ⟨c5, cs⟩⟩⟩⟩⟩
    · rfl
    · rfl
    · rfl
    · rfl
    · rfl
    · simp [standardBegun, standardRec, ReadRec.unfreed]

/-- How many texts are left of the lines when the fstab is freed. -/
def linesLeft (twrp : Bool) (lines : List CString) : ℕ :=
  (lines.map (lineUnfreed twrp)).sum + linesLost twrp lines

theorem sum_unfreed (twrp : Bool) (flagVals : FlagValues) (n : ℕ) (lines : List CString) :
    ((filled n (begunRecs twrp flagVals lines)).map ReadRec.unfreed).sum =
      (lines.map (lineUnfreed twrp)).sum := by
  have hzero : ReadRec.unfreed {} = 0 := rfl
  have hline : ReadRec.unfreed ∘ begunRec twrp flagVals = lineUnfreed twrp :=
    funext fun line => unfreed_begunRec twrp flagVals line
  rw [filled, List.map_append, List.sum_append, List.map_replicate, hzero, List.sum_replicate,
    nsmul_zero, add_zero, begunRecs, List.map_map, hline]

theorem all_owned_filled (twrp : Bool) (flagVals : FlagValues) (n : ℕ) (lines : List CString) :
    ((filled n (begunRecs twrp flagVals lines)).all fun rec => rec.vals.owned) =
      (begunRecs twrp flagVals lines).all fun rec => rec.vals.owned := by
  have hzero : (List.replicate (n - (begunRecs twrp flagVals lines).length) ({} : ReadRec)).all
      (fun rec => rec.vals.owned) = true := by
    rw [List.all_eq_true]
    intro rec hrec
    rw [List.eq_of_mem_replicate hrec]
    rfl
  rw [filled, List.all_append, hzero, Bool.and_true]

/-- What the function returns, if it does. -/
def ReadEnd.returned : ReadEnd → Option ReadEnd
  | .crash => none
  | result => some result

/-- The two results agree.  Beside `W` are the blocks of the fstab and `lost` texts; where there is no
fstab, the `left` ones that are left of it. -/
inductive EndHolds (path : CString) (W : Texts) (marks : List FstabObj) (lost left : ℕ) :
    Option FstabPtrs → ReadEnd → View FstabObj → Prop
  | null {L : Texts} {V : View FstabObj} (live : V.live = L + W) (card : Multiset.card L = left)
      (stale : V.stale = marks) : EndHolds path W marks lost left none .null V
  | fstab {x : FstabPtrs} {n : ℕ} {rs : List ReadRec} {R T : Texts} {V : View FstabObj}
      (recs : Owned RecOwns x.recs rs R) (card : Multiset.card T = lost)
      (live : V.live = R + ({(x.recsBlock, .recs)} + ({(x.fstabFilename, .text path)} +
        ({(x.self, .fstab)} + (T + W)))))
      (stale : V.stale = marks) : EndHolds path W marks lost left (some x) (.fstab n rs x.overrun) V

/-- **`do_fs_mgr_read_fstab` with its pointers** dies where the reader on values does, and otherwise
gives what that one gives. -/
theorem readFstabPtr_refines (u : Uninit) (twrp : Bool) (path first second : CString)
    (V : View FstabObj) {ls : List CString}
    (hls : ls = passLines twrp (entryLines first).length second) :
    Refines V (readFstabPtr u.ptrs twrp path first second)
      (doFsMgrReadFstabBuf u.vals twrp first second).returned
      (EndHolds path V.live V.stale (linesLost twrp ls) (linesLeft twrp ls)) := by
  rw [doFsMgrReadFstabBuf_begun u.vals twrp rfl hls, readFstabPtr]
  dsimp only
  rw [entries_rawLines]
  refine .alloc fun line => ?_
  by_cases h0 : (entryLines first).length = 0
  · rw [if_pos h0, if_pos h0]
    have hnil : ls = [] := by rw [hls, h0, passLines, List.take_zero, begunLines]
    refine .free rfl (refines_pure (.null (zero_add _).symm ?_ rfl))
    rw [hnil]
    rfl
  rw [if_neg h0, if_neg h0]
  refine .alloc fun fstab => refines_strdup fun fstabFilename => .alloc fun recs => ?_
  have hlines : ((rawLines second).map fun raw => textAt nul (lineBuf raw) 0).filter isEntry =
      entryLines second := by
    rw [map_lineBuf_rawLines, entryLines]
  have hstart : RecsHold ({(recs, .recs)} + ({(fstabFilename, .text path)} + ({(fstab, .fstab)} +
      ({(line, .buffer)} + V.live)))) V.stale 0 [] [] ⟨{(recs, .recs)} +
        ({(fstabFilename, .text path)} + ({(fstab, .fstab)} + ({(line, .buffer)} + V.live))),
        V.freed, V.stale⟩ := ⟨0, 0, .nil, rfl, by simp, rfl⟩
  have hpass : Refines _ (secondPassPtr twrp (entryLines first).length u.ptrs [] (rawLines second))
      _ _ := secondPassPtr_refines u twrp (rawLines second) (fun _ => rfl) hstart
  rw [hlines, List.length_nil, Nat.sub_zero, ← passLines, ← hls] at hpass
  refine hpass.seq_some ?_
  rintro pass V₁ ⟨xs, rfl, R, T, hown, hcard, hlive, hstale⟩
  rw [List.nil_append] at hown
  rw [Nat.zero_add] at hcard
  refine .free (b := line) (a := .buffer) (R := R + ({(recs, .recs)} +
    ({(fstabFilename, .text path)} + ({(fstab, .fstab)} + (T + V.live))))) ?_ ?_
  · rw [hlive]
    abel
  rw [passEnd]
  have hzeroed := owned_zeroed (entryLines first).length hown
  cases hall : ls.all (complete twrp) with
  | true => exact refines_pure (.fstab hzeroed hcard rfl hstale)
  | false =>
    rw [if_neg Bool.false_ne_true, if_neg Bool.false_ne_true]
    have hfree := freeFstabPtr_refines (x := ⟨fstab, fstabFilename, recs,
      zeroed (entryLines first).length xs, false⟩) (W := T + V.live) hzeroed
      (V := ⟨R + ({(recs, .recs)} + ({(fstabFilename, .text path)} + ({(fstab, .fstab)} +
        (T + V.live)))), (line, .buffer) :: V₁.freed, V₁.stale⟩) rfl
    rw [all_owned_filled, sum_unfreed] at hfree
    cases howned : (begunRecs twrp u.vals ls).all fun rec => rec.vals.owned with
    | false =>
      rw [howned, if_neg Bool.false_ne_true] at hfree
      exact hfree.seq (fun _ => rfl) fun _ c _ h => absurd h.symm (Option.some_ne_none c)
    | true =>
      rw [howned, if_pos rfl] at hfree
      refine hfree.seq_some ?_
      rintro _ V₂ ⟨L, hlive₂, hcard₂, hstale₂⟩
      refine refines_pure (.null (L := L + T) ?_ ?_ (hstale₂.trans hstale))
      · rw [hlive₂, add_assoc]
      · rw [Multiset.card_add, hcard₂, hcard, linesLeft]

/-! ### Reading and freeing -/

/-- A record has a pointer that was in the local variable before. -/
def keepsStray (u : Uninit) (twrp : Bool) (lines : List CString) : Bool :=
  lines.any fun line => twrp && (u.keyLoc || u.label) && complete twrp line

theorem owned_begunRec (u : Uninit) (twrp : Bool) (line : CString) :
    (begunRec twrp u.vals line).vals.owned =
      !(twrp && (u.keyLoc || u.label) && complete twrp line) := by
  cases hgood : complete twrp line with
  | false => rw [begunRec_incomplete u.vals hgood, Bool.and_false, Bool.not_false]
  | true =>
    rw [begunRec_complete u.vals hgood, Bool.and_true]
    cases twrp with
    | false => exact owned_lineRec_false u.vals line
    | true =>
      show u.vals.owned = !(u.keyLoc || u.label)
      unfold FlagValues.owned Uninit.vals
      cases u.keyLoc <;> cases u.label <;> rfl

theorem all_owned_begunRecs (u : Uninit) (twrp : Bool) (lines : List CString) :
    ((begunRecs twrp u.vals lines).all fun rec => rec.vals.owned) = !keepsStray u twrp lines := by
  induction lines with
  | nil => rfl
  | cons line lines ih =>
    show ((begunRec twrp u.vals line).vals.owned && List.all (begunRecs twrp u.vals lines) _) = _
    rw [ih, owned_begunRec, keepsStray, keepsStray, List.any_cons, Bool.not_or]

def readAndFreePtr (vals : FlagPtrs) (twrp : Bool) (path first second : CString) :
    HeapM FstabObj Unit :=
  readFstabPtr vals twrp path first second >>= fun
    | none => pure ()
    | some fstab => freeFstabPtr fstab

/-- **Reading**: the function with its pointers, on an empty heap, dies where the one on values does.
Otherwise the two give the same, and the heap is the fstab and the texts that have been lost. -/
theorem fstab_read (u : Uninit) (twrp : Bool) (path first second : CString) :
    Option.Rel
      (fun p result => ∃ V, Heap.Holds p.2 V ∧
        EndHolds path 0 [] (linesLost twrp (passLines twrp (entryLines first).length second))
          (linesLeft twrp (passLines twrp (entryLines first).length second)) p.1 result V)
      (readFstabPtr u.ptrs twrp path first second Heap.empty)
      (doFsMgrReadFstabBuf u.vals twrp first second).returned :=
  readFstabPtr_refines u twrp path first second ⟨0, [], []⟩ rfl Heap.empty Heap.holds_empty

theorem readAndFreePtr_refines (u : Uninit) (twrp : Bool) (path first second : CString)
    {ls : List CString} (hls : ls = passLines twrp (entryLines first).length second) :
    Refines ⟨0, [], []⟩ (readAndFreePtr u.ptrs twrp path first second)
      (if keepsStray u twrp ls then none else some ()) fun _ _ V =>
        V.stale = [] ∧ Multiset.card V.live = linesLeft twrp ls := by
  have hread := readFstabPtr_refines u twrp path first second ⟨0, [], []⟩ hls
  have howned := all_owned_begunRecs u twrp ls
  have hneg : (if (!keepsStray u twrp ls) = true then some () else none) =
      if keepsStray u twrp ls then none else some () := by
    cases keepsStray u twrp ls <;> rfl
  rw [doFsMgrReadFstabBuf_begun u.vals twrp rfl hls, howned] at hread
  have hnull : ∀ {x : Option FstabPtrs} {V : View FstabObj}, keepsStray u twrp ls = false →
      EndHolds path 0 [] (linesLost twrp ls) (linesLeft twrp ls) x .null V →
        Refines V (match x with | none => pure () | some fstab => freeFstabPtr fstab)
          (if keepsStray u twrp ls then none else some ()) fun _ _ V =>
            V.stale = [] ∧ Multiset.card V.live = linesLeft twrp ls := by
    intro x V hno hV
    obtain ⟨hlive, hcard, hstale⟩ | _ := hV
    rw [hno, if_neg Bool.false_ne_true]
    refine refines_pure ⟨hstale, ?_⟩
    rw [hlive, add_zero, hcard]
  by_cases h0 : (entryLines first).length = 0
  · rw [if_pos h0] at hread
    have hnil : ls = [] := by rw [hls, h0, passLines, List.take_zero, begunLines]
    exact hread.seq_some fun x V hV => hnull (by rw [hnil]; rfl) hV
  rw [if_neg h0] at hread
  cases hall : ls.all (complete twrp) with
  | true =>
    rw [hall, if_pos rfl] at hread
    refine hread.seq_some ?_
    intro x V hV
    generalize hrs : filled (entryLines first).length (begunRecs twrp u.vals ls) = rs at hV
    generalize decide ((entryLines first).length < (entryLines second).length) = overrun at hV
    obtain _ | ⟨hrecs, hcard, hlive, hstale⟩ := hV
    have hfree := freeFstabPtr_refines hrecs hlive
    rw [← hrs, all_owned_filled, sum_unfreed, howned, hneg] at hfree
    refine hfree.mono ?_
    rintro _ _ V' ⟨L, hlive', hcard', hstale'⟩
    refine ⟨hstale'.trans hstale, ?_⟩
    rw [hlive', Multiset.card_add, Multiset.card_add, hcard', hcard, Multiset.card_zero, add_zero,
      linesLeft]
  | false =>
    rw [hall, if_neg Bool.false_ne_true] at hread
    by_cases hkeeps : keepsStray u twrp ls = true
    · rw [hkeeps] at hread
      rw [if_pos hkeeps]
      exact hread.seq (fun _ => rfl) fun _ c _ h => absurd h.symm (Option.some_ne_none c)
    · rw [Bool.not_eq_true] at hkeeps
      rw [hkeeps] at hread
      exact hread.seq_some fun x V hV => hnull hkeeps hV

/-- **Reading and freeing**: nothing is freed twice or read when it is free, unless a record has a
pointer that is not its own.  What is left are the texts of the lines that nothing frees. -/
theorem fstab_lifetime (u : Uninit) (twrp : Bool) (path first second : CString) :
    Option.Rel
      (fun p _ => p.2.stale = [] ∧
        p.2.size = linesLeft twrp (passLines twrp (entryLines first).length second))
      (readAndFreePtr u.ptrs twrp path first second Heap.empty)
      (if keepsStray u twrp (passLines twrp (entryLines first).length second) then none
        else some ()) := by
  have hrun := readAndFreePtr_refines u twrp path first second rfl Heap.empty Heap.holds_empty
  generalize readAndFreePtr u.ptrs twrp path first second Heap.empty = r at hrun ⊢
  generalize passLines twrp (entryLines first).length second = ls at hrun ⊢
  cases hrun' : (if keepsStray u twrp ls then none else some ()) with
  | none =>
    rw [hrun'] at hrun
    cases hrun
    exact .none
  | some _ =>
    rw [hrun'] at hrun
    obtain ⟨V, hV, hstale, hcard⟩ | _ := hrun
    exact .some ⟨hV.stale.trans hstale, (heap_size hV).trans hcard⟩

/-- Two columns and the first of two keys. -/
example : linesLeft false
    (passLines false 1 "/dev/a /data ext4 ro encryptable=a,encryptable=b".toList) = 3 := by
  decide

end Multiboot
