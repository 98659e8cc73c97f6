import Mathlib.Data.List.Basic
import Mathlib.Data.List.TakeWhile
import Mathlib.Data.Set.Lattice
import Mathlib.Order.CompletePartialOrder

/-!
# Path texts and the places they name

A place is the list of the components from the root to a file.  `parts` splits a path text,
`place` also goes back for `..`; for a text without `..` the two agree (`place_eq_parts`).  The facts
used elsewhere say what `parts` makes of texts that are put together: at a slash
(`parts_append_slash`), and behind a fixed component (`parts_append_of_not_mem`).
-/

namespace Multiboot.Lib

abbrev Place := List (List Char)

def isPart (c : List Char) : Bool := c != [] && c != ['.']

/-- The components of a path text; empty ones and dots lead nowhere. -/
def parts (s : List Char) : Place := (s.splitOn '/').filter isPart

/-- From the place `q`, one component further or back. -/
def walk (q : Place) (c : List Char) : Place := if c = ['.', '.'] then q.dropLast else q ++ [c]

def place (s : List Char) : Place := (parts s).foldl walk []

/-- The text does not go back. -/
def Plain (s : List Char) : Prop := ['.', '.'] ∉ parts s

instance (s : List Char) : Decidable (Plain s) := inferInstanceAs (Decidable (_ ∉ _))

theorem foldl_walk_of_not_mem {l : Place} (h : ['.', '.'] ∉ l) (q : Place) :
    l.foldl walk q = q ++ l := by
  induction l generalizing q with
  | nil => simp
  | cons c l ih =>
    have hc : c ≠ ['.', '.'] := fun hc => h (by simp [hc])
    rw [List.foldl_cons, walk, if_neg hc, ih fun hm => h (List.mem_cons_of_mem _ hm),
      List.append_assoc, List.singleton_append]

theorem place_eq_parts {s : List Char} (h : Plain s) : place s = parts s := by
  rw [place, foldl_walk_of_not_mem h, List.nil_append]

@[simp] theorem parts_nil : parts [] = [] := by
  simp [parts, List.splitOn_nil, isPart]

@[simp] theorem parts_append_slash (a b : List Char) :
    parts (a ++ '/' :: b) = parts a ++ parts b := by
  rw [parts, List.splitOn_append_cons_self, List.filter_append, parts, parts]

@[simp] theorem parts_slash (b : List Char) : parts ('/' :: b) = parts b := by
  have h := parts_append_slash [] b
  rwa [List.nil_append, parts_nil, List.nil_append] at h

theorem parts_of_not_mem {a : List Char} (h : '/' ∉ a) (hpart : isPart a = true) :
    parts a = [a] := by
  rw [parts, List.splitOn_eq_singleton h, List.filter_cons_of_pos hpart, List.filter_nil]

end Multiboot.Lib
