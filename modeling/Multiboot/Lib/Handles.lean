import Mathlib.Logic.Function.Basic
import Mathlib.Data.List.Basic

/-!
# Handles that notice a change

A machine that hands out handles on devices to its clients.  A handle remembers what its device held
when it was made; when the handle is closed, and the device shows a change since then, the handle is
noted.  What changes a device and what it means that a change shows are the parameters `effect` and
`shows`.

`AgreeOn P` says that two states are the same as far as the devices in `P` go.  Every use keeps it
(`AgreeOn.next`) and a use that is not `relevant` changes nothing of it (`agreeOn_of_irrelevant`), so
what is noted for the devices in `P` depends on the relevant uses only (`AgreeOn.uses`).
-/

namespace Multiboot.Lib

variable {I K R Dev D O : Type*}

structure Handle (R Dev D : Type*) where
  owner : R
  device : Dev
  before : D

/-- A client of type `I` names its handles in `K`. -/
structure Handles (I K R Dev D : Type*) where
  held : I × K → Option (Handle R Dev D)
  devices : Dev → D
  noted : List (Handle R Dev D)

inductive Use (I K R Dev O : Type*)
  | opened (h : I × K) (owner : R) (dev : Dev)
  | dupped (h h' : I × K)
  | closed (h : I × K)
  /-- The client gives up its handles without a look at their devices. -/
  | gone (i : I)
  | changed (dev : Dev) (o : O)
  deriving DecidableEq

/-- The handle as it would be made now. -/
def Handle.renew (devices : Dev → D) (x : Handle R Dev D) : Handle R Dev D :=
  { x with before := devices x.device }

/-- Nobody holds a handle. -/
def Handles.init (devices : Dev → D) : Handles I K R Dev D := ⟨fun _ => none, devices, []⟩

/-! ### The devices in `P` -/

section Part

variable (P : Dev → Bool)

/-- The handle at `h`, if it is one on a device in `P`. -/
def Handles.heldOn (v : Handles I K R Dev D) (h : I × K) : Option (Handle R Dev D) :=
  (v.held h).filter fun x => P x.device

def Handles.notedOn (v : Handles I K R Dev D) : List (Handle R Dev D) :=
  v.noted.filter fun x => P x.device

structure AgreeOn (v w : Handles I K R Dev D) : Prop where
  held : ∀ h, v.heldOn P h = w.heldOn P h
  devices : ∀ dev, P dev = true → v.devices dev = w.devices dev
  noted : v.notedOn P = w.notedOn P

/-- The use is of a device in `P` or of a handle on one. -/
def relevant (v : Handles I K R Dev D) : Use I K R Dev O → Bool
  | .opened h _ dev => P dev || (v.heldOn P h).isSome
  | .dupped h h' => (v.heldOn P h).isSome || (v.heldOn P h').isSome
  | .closed h => (v.heldOn P h).isSome
  | .gone _ => true
  | .changed dev _ => P dev

variable {P}

theorem AgreeOn.refl (v : Handles I K R Dev D) : AgreeOn P v v :=
  ⟨fun _ => rfl, fun _ _ => rfl, rfl⟩

theorem AgreeOn.trans {u v w : Handles I K R Dev D} (h : AgreeOn P u v) (h' : AgreeOn P v w) :
    AgreeOn P u w :=
  ⟨fun x => (h.held x).trans (h'.held x),
    fun dev hd => (h.devices dev hd).trans (h'.devices dev hd), h.noted.trans h'.noted⟩

theorem AgreeOn.symm {v w : Handles I K R Dev D} (h : AgreeOn P v w) : AgreeOn P w v :=
  ⟨fun x => (h.held x).symm, fun dev hd => (h.devices dev hd).symm, h.noted.symm⟩

theorem filter_new {dev : Dev} (h : P dev = false) (owner : R) (before : D) :
    (some (Handle.mk owner dev before)).filter (fun z => P z.device) = none :=
  Option.filter_some_neg h

/-- The handle at `y` after `h` has been given `x`. -/
theorem Handles.heldOn_update [DecidableEq (I × K)] (v : Handles I K R Dev D) (h y : I × K)
    (x : Option (Handle R Dev D)) :
    (Function.update v.held h x y).filter (fun z => P z.device) =
      if y = h then x.filter fun z => P z.device else v.heldOn P y := by
  by_cases hy : y = h
  · rw [if_pos hy, hy, Function.update_self]
  · rw [if_neg hy, Function.update_of_ne hy]
    rfl

/-- Devices that agree in `P` renew the handles on them to the same. -/
theorem AgreeOn.map_renew {v w : Handles I K R Dev D} (h : AgreeOn P v w) (x : I × K) :
    (v.heldOn P x).map (·.renew v.devices) = (w.heldOn P x).map (·.renew w.devices) := by
  rw [h.held x]
  refine Option.map_congr fun z hz => ?_
  have hP : P z.device = true := (Option.filter_eq_some_iff.mp hz).2
  rw [Handle.renew, Handle.renew, h.devices _ hP]

/-! ### What closing a handle notes -/

variable (shows : D → D → Prop) [DecidableRel shows]

/-- The handles that are noted when `x` is closed. -/
def Handle.close (devices : Dev → D) (x : Handle R Dev D) : List (Handle R Dev D) :=
  if shows x.before (devices x.device) then [x] else []

variable {shows}

/-- Closing a handle notes at most itself. -/
theorem filter_close (devices : Dev → D) (x : Option (Handle R Dev D)) :
    (x.elim [] (·.close shows devices)).filter (fun z => P z.device) =
      (x.filter fun z => P z.device).elim [] (·.close shows devices) := by
  cases x with
  | none => rfl
  | some z =>
    rw [Option.elim_some, Option.filter_some, Handle.close]
    cases hP : P z.device with
    | false =>
      rw [if_neg Bool.false_ne_true, Option.elim_none]
      split_ifs
      · rw [List.filter_cons_of_neg (by simp [hP]), List.filter_nil]
      · rfl
    | true =>
      rw [if_pos rfl, Option.elim_some, Handle.close]
      split_ifs
      · exact List.filter_cons_of_pos hP
      · rfl

theorem AgreeOn.close {v w : Handles I K R Dev D} (h : AgreeOn P v w) (x : I × K) :
    (v.heldOn P x).elim [] (·.close shows v.devices) =
      (w.heldOn P x).elim [] (·.close shows w.devices) := by
  rw [h.held x]
  cases hz : w.heldOn P x with
  | none => rfl
  | some z =>
    have hP : P z.device = true := (Option.filter_eq_some_iff.mp hz).2
    rw [Option.elim_some, Option.elim_some, Handle.close, Handle.close, h.devices _ hP]

end Part

/-! ### The machine -/

section Next

variable [DecidableEq I] [DecidableEq K] [DecidableEq Dev] (effect : O → D → D)
  (shows : D → D → Prop) [DecidableRel shows]

def Handles.next (v : Handles I K R Dev D) : Use I K R Dev O → Handles I K R Dev D
  | .opened h owner dev =>
    { v with held := Function.update v.held h (some ⟨owner, dev, v.devices dev⟩) }
  | .dupped h h' => { v with held := Function.update v.held h' ((v.held h).map (·.renew v.devices)) }
  | .closed h =>
    { v with
      held := Function.update v.held h none
      noted := v.noted ++ (v.held h).elim [] (·.close shows v.devices) }
  | .gone i => { v with held := fun h => if h.1 = i then none else v.held h }
  | .changed dev o => { v with devices := Function.update v.devices dev (effect o (v.devices dev)) }

def Handles.uses (v : Handles I K R Dev D) (us : List (Use I K R Dev O)) : Handles I K R Dev D :=
  us.foldl (Handles.next effect shows) v

/-- The uses that are relevant when they happen. -/
def relevantUses (P : Dev → Bool) : Handles I K R Dev D → List (Use I K R Dev O) → List (Use I K R Dev O)
  | _, [] => []
  | v, u :: us =>
    if relevant P v u then u :: relevantUses P (v.next effect shows u) us
    else relevantUses P (v.next effect shows u) us

variable {effect} {shows} {P : Dev → Bool}

/-- **Step**: the same use keeps two states in agreement. -/
theorem AgreeOn.next {v w : Handles I K R Dev D} (h : AgreeOn P v w) (u : Use I K R Dev O) :
    AgreeOn P (v.next effect shows u) (w.next effect shows u) := by
  cases u with
  | opened x owner dev =>
    refine ⟨fun y => ?_, h.devices, h.noted⟩
    show Option.filter _ (Function.update v.held x _ y) =
      Option.filter _ (Function.update w.held x _ y)
    rw [v.heldOn_update, w.heldOn_update, h.held y]
    cases hP : P dev with
    | false => rw [filter_new hP, filter_new hP]
    | true => rw [h.devices dev hP]
  | dupped x x' =>
    refine ⟨fun y => ?_, h.devices, h.noted⟩
    show Option.filter _ (Function.update v.held x' _ y) =
      Option.filter _ (Function.update w.held x' _ y)
    rw [v.heldOn_update, w.heldOn_update, h.held y, Option.filter_map, Option.filter_map]
    exact congrArg (fun z => if y = x' then z else w.heldOn P y) (h.map_renew x)
  | closed x =>
    refine ⟨fun y => ?_, h.devices, ?_⟩
    · show Option.filter _ (Function.update v.held x _ y) =
        Option.filter _ (Function.update w.held x _ y)
      rw [v.heldOn_update, w.heldOn_update, h.held y]
    · show List.filter _ (v.noted ++ _) = List.filter _ (w.noted ++ _)
      rw [List.filter_append, List.filter_append, filter_close, filter_close]
      exact congrArg₂ (· ++ ·) h.noted (h.close x)
  | gone i =>
    refine ⟨fun y => ?_, h.devices, h.noted⟩
    show Option.filter _ (if y.1 = i then none else v.held y) =
      Option.filter _ (if y.1 = i then none else w.held y)
    split_ifs
    · rfl
    · exact h.held y
  | changed dev o =>
    refine ⟨h.held, fun dev' hP => ?_, h.noted⟩
    show Function.update v.devices dev _ dev' = Function.update w.devices dev _ dev'
    by_cases hd : dev' = dev
    · rw [hd, Function.update_self, Function.update_self, h.devices dev (hd ▸ hP)]
    · rw [Function.update_of_ne hd, Function.update_of_ne hd, h.devices dev' hP]

/-- **Step**: a use that is not relevant changes nothing about the devices in `P`. -/
theorem agreeOn_of_irrelevant {v : Handles I K R Dev D} {u : Use I K R Dev O}
    (hu : relevant P v u = false) : AgreeOn P (v.next effect shows u) v := by
  cases u with
  | opened x owner dev =>
    rw [relevant, Bool.or_eq_false_iff, Option.isSome_eq_false_iff, Option.isNone_iff_eq_none] at hu
    refine ⟨fun y => ?_, fun _ _ => rfl, rfl⟩
    show Option.filter _ (Function.update v.held x _ y) = _
    rw [v.heldOn_update, filter_new hu.1]
    split_ifs with hy
    · rw [hy, hu.2]
    · rfl
  | dupped x x' =>
    rw [relevant, Bool.or_eq_false_iff, Option.isSome_eq_false_iff, Option.isNone_iff_eq_none,
      Option.isSome_eq_false_iff, Option.isNone_iff_eq_none] at hu
    refine ⟨fun y => ?_, fun _ _ => rfl, rfl⟩
    show Option.filter _ (Function.update v.held x' _ y) = _
    rw [v.heldOn_update, Option.filter_map]
    split_ifs with hy
    · rw [hy, hu.2]
      exact congrArg (Option.map _) hu.1
    · rfl
  | closed x =>
    rw [relevant, Option.isSome_eq_false_iff, Option.isNone_iff_eq_none] at hu
    refine ⟨fun y => ?_, fun _ _ => rfl, ?_⟩
    · show Option.filter _ (Function.update v.held x _ y) = _
      rw [v.heldOn_update]
      split_ifs with hy
      · rw [hy, hu]
        rfl
      · rfl
    · show List.filter _ (v.noted ++ _) = _
      have hnone : (v.held x).filter (fun z => P z.device) = none := hu
      rw [List.filter_append, filter_close, hnone]
      exact List.append_nil _
  | gone i => cases hu
  | changed dev o =>
    refine ⟨fun _ => rfl, fun dev' hP => ?_, rfl⟩
    have hne : dev' ≠ dev := by
      rintro rfl
      rw [relevant, hP] at hu
      cases hu
    exact Function.update_of_ne hne _ _

/-- **What happens to some devices depends on the relevant uses only.** -/
theorem AgreeOn.uses (us : List (Use I K R Dev O)) : ∀ {v w : Handles I K R Dev D}, AgreeOn P v w →
    AgreeOn P (v.uses effect shows us)
      (w.uses effect shows (relevantUses effect shows P v us)) := by
  induction us with
  | nil => exact fun h => h
  | cons u us ih =>
    intro v w h
    rw [relevantUses]
    cases hu : relevant P v u with
    | true => exact ih (h.next u)
    | false => exact ih ((agreeOn_of_irrelevant hu).trans h)

/-- Runs with the same relevant uses agree in the end. -/
theorem AgreeOn.uses_of_relevant {v w : Handles I K R Dev D} (h : AgreeOn P v w)
    {us ws : List (Use I K R Dev O)}
    (hu : relevantUses effect shows P v us = relevantUses effect shows P w ws) :
    AgreeOn P (v.uses effect shows us) (w.uses effect shows ws) := by
  have hv : AgreeOn P (v.uses effect shows us) (w.uses effect shows (relevantUses effect shows P v us)) :=
    h.uses us
  rw [hu] at hv
  exact hv.trans (AgreeOn.uses ws (AgreeOn.refl w)).symm

end Next

end Multiboot.Lib
