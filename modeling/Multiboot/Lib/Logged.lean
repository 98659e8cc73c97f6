import Mathlib.Data.List.Basic

/-!
# Computations that log and may stop

`Logged ω α` is a computation with the entries it has logged and, unless it stopped, a result.  A
failed part keeps the log up to its failure.  The rules: what is logged by a sequence (`logs_bind`),
the result without the log (`result_bind`), and parts that always go through.
-/

namespace Multiboot.Lib

structure Logged (ω α : Type) where
  log : List ω
  result : Option α

namespace Logged

variable {ω α β : Type}

instance : Monad (Logged ω) where
  pure a := ⟨[], some a⟩
  bind m f :=
    match m.result with
    | none => ⟨m.log, none⟩
    | some a => ⟨m.log ++ (f a).log, (f a).result⟩

/-- Log one entry. -/
def tell (w : ω) : Logged ω Unit := ⟨[w], some ()⟩

/-- Stop if there is no value. -/
def ofOption (o : Option α) : Logged ω α := ⟨[], o⟩

/-- Stop unless a call has succeeded. -/
def check (ok : Bool) : Logged ω Unit := ofOption (if ok then some () else none)

/-- Go through a part only where a condition holds. -/
def onlyIf (c : Bool) (m : Logged ω Unit) : Logged ω Unit := if c then m else pure ()

/-- Every entry logged satisfies `P`. -/
def Logs (P : ω → Prop) (m : Logged ω α) : Prop := ∀ w ∈ m.log, P w

variable {P : ω → Prop}

@[simp] theorem logs_pure (a : α) : Logs P (pure a : Logged ω α) := by
  intro w hw
  cases hw

@[simp] theorem logs_tell (w : ω) : Logs P (tell w) ↔ P w := by
  simp [Logs, tell]

@[simp] theorem logs_ofOption (o : Option α) : Logs P (ofOption o) := by
  intro w hw
  cases hw

@[simp] theorem logs_check (ok : Bool) : Logs P (check ok) := logs_ofOption _

@[simp] theorem logs_bind (m : Logged ω α) (f : α → Logged ω β) :
    Logs P (m >>= f) ↔ Logs P m ∧ ∀ a, m.result = some a → Logs P (f a) := by
  show Logs P (match m.result with
    | none => ⟨m.log, none⟩
    | some a => ⟨m.log ++ (f a).log, (f a).result⟩) ↔ _
  cases m.result with
  | none => simp [Logs]
  | some a => simp [Logs, or_imp, forall_and]

@[simp] theorem logs_onlyIf (c : Bool) (m : Logged ω Unit) :
    Logs P (onlyIf c m) ↔ (c = true → Logs P m) := by
  cases c <;> simp [onlyIf]

@[simp] theorem result_pure (a : α) : (pure a : Logged ω α).result = some a := rfl

@[simp] theorem result_tell (w : ω) : (tell w).result = some () := rfl

@[simp] theorem result_ofOption (o : Option α) : (ofOption o : Logged ω α).result = o := rfl

@[simp] theorem result_check (ok : Bool) :
    (check ok : Logged ω Unit).result = if ok then some () else none := rfl

@[simp] theorem result_bind (m : Logged ω α) (f : α → Logged ω β) :
    (m >>= f).result = m.result.bind fun a => (f a).result := by
  show (match m.result with
    | none => (⟨m.log, none⟩ : Logged ω β)
    | some a => ⟨m.log ++ (f a).log, (f a).result⟩).result = _
  cases m.result <;> rfl

@[simp] theorem result_onlyIf (c : Bool) (m : Logged ω Unit) :
    (onlyIf c m).result = if c then m.result else some () := by
  cases c <;> rfl

end Logged

end Multiboot.Lib
