import Mathlib.Data.List.DropRight
import Mathlib.Data.Set.Finite.Basic
import Multiboot.Lib.Paths

/-!
# Trees of files with symbolic links

A `FileTree` says what stands at each place: a directory, a link or another file; what stands in a
directory has a name, and there are finitely many entries in each.  `Leads` resolves a path text
component by component and follows all links, `Names` is the entry a text stands for when the last
one is not followed.  Removing places only takes ways off (`Leads.of_sub`), a way that is left leads
to the same place (`Leads.unique`).

`Wiped` is what emptying a directory has to achieve.  `wiped_remove_iff` says when removing some
places does.
-/

namespace Multiboot.Lib

/-- A name that an entry of a directory can have. -/
structure IsName (c : List Char) : Prop where
  nonempty : c ≠ []
  notDot : c ≠ ['.']
  notDots : c ≠ ['.', '.']
  noSlash : '/' ∉ c

theorem IsName.concat {x : List Char} (hx : IsName x) {c : Char} (hc : c ≠ '/') :
    IsName (x ++ [c]) where
  nonempty := by simp
  notDot h := hx.nonempty (List.append_singleton_inj.mp (show x ++ [c] = [] ++ ['.'] from h)).1
  notDots h := hx.notDot (List.append_singleton_inj.mp (show x ++ [c] = ['.'] ++ ['.'] from h)).1
  noSlash := by simpa [hx.noSlash] using hc.symm

instance (c : List Char) : Decidable (IsName c) :=
  decidable_of_iff (c ≠ [] ∧ c ≠ ['.'] ∧ c ≠ ['.', '.'] ∧ '/' ∉ c)
    ⟨fun ⟨h₁, h₂, h₃, h₄⟩ => ⟨h₁, h₂, h₃, h₄⟩,
      fun h => ⟨h.nonempty, h.notDot, h.notDots, h.noSlash⟩⟩

inductive Inode
  | dir
  | file
  | link (target : List Char)
  deriving DecidableEq, Repr

structure FileTree where
  kind : Place → Option Inode
  root : kind [] = some .dir
  parent : ∀ {q c}, (kind (q ++ [c])).isSome → kind q = some .dir
  named : ∀ {q c}, (kind (q ++ [c])).isSome → IsName c
  finite : ∀ q, {c | (kind (q ++ [c])).isSome}.Finite

namespace FileTree

variable {t t' : FileTree} {q r p D : Place} {c x : List Char} {cs cs' : List (List Char)}

@[ext] theorem ext (h : ∀ q, t.kind q = t'.kind q) : t = t' := by
  cases t
  cases t'
  congr
  exact funext h

/-- What lies above a file is a directory. -/
theorem dir_above (h : (t.kind q).isSome) (hp : p <+: q) (hne : p ≠ q) :
    t.kind p = some .dir := by
  obtain ⟨l, rfl⟩ := hp
  induction l using List.reverseRecOn with
  | nil => simp at hne
  | append_singleton l c ih =>
    rw [← List.append_assoc] at h
    have hdir := t.parent h
    by_cases hl : l = []
    · rwa [hl, List.append_nil] at hdir
    · exact ih (by rw [hdir]; rfl) (by simpa using hl)

theorem isSome_above (h : (t.kind q).isSome) (hp : p <+: q) : (t.kind p).isSome := by
  by_cases hne : p = q
  · rwa [hne]
  · rw [dir_above h hp hne]
    rfl

/-! ### Resolving a path -/

def comps (s : List Char) : List (List Char) := s.splitOn '/'

theorem comps_append_slash (a b : List Char) : comps (a ++ '/' :: b) = comps a ++ comps b :=
  List.splitOn_append_cons_self a b

theorem comps_of_isName (h : IsName c) : comps c = [c] := List.splitOn_eq_singleton h.noSlash

/-- One component from a place: the next place, and what a link puts before the rest of the way. -/
def advance (t : FileTree) (q : Place) (c : List Char) : Option (Place × List (List Char)) :=
  if c = [] ∨ c = ['.'] then if t.kind q = some .dir then some (q, []) else none
  else if c = ['.', '.'] then if t.kind q = some .dir then some (q.dropLast, []) else none
  else
    match t.kind (q ++ [c]) with
    | none => none
    | some (.link target) => some (if target.head? = some '/' then [] else q, comps target)
    | some _ => some (q ++ [c], [])

/-- The components lead from one place to another.  Every link is followed. -/
inductive Leads (t : FileTree) : Place → List (List Char) → Place → Prop
  | done (q : Place) : Leads t q [] q
  | step {q q' r : Place} {c : List Char} {cs cs' : List (List Char)} :
      advance t q c = some (q', cs') → Leads t q' (cs' ++ cs) r → Leads t q (c :: cs) r

theorem Leads.unique (h : Leads t q cs r) {r' : Place} (h' : Leads t q cs r') : r = r' := by
  induction h with
  | done q =>
    cases h'
    rfl
  | step ha _ ih =>
    cases h' with
    | step ha' h' =>
      rw [ha] at ha'
      cases ha'
      exact ih h'

theorem leads_append_iff :
    Leads t q (cs ++ cs') r ↔ ∃ m, Leads t q cs m ∧ Leads t m cs' r := by
  constructor
  · intro h
    generalize hcs : cs ++ cs' = l at h
    induction h generalizing cs with
    | done q =>
      obtain ⟨rfl, rfl⟩ := List.append_eq_nil_iff.mp hcs
      exact ⟨q, .done q, .done q⟩
    | @step q q' r c l' l ha h ih =>
      cases cs with
      | nil =>
        rw [List.nil_append] at hcs
        rw [hcs]
        exact ⟨q, .done q, .step ha h⟩
      | cons c' cs =>
        rw [List.cons_append, List.cons.injEq] at hcs
        obtain ⟨rfl, rfl⟩ := hcs
        obtain ⟨m, hm, hr⟩ := ih (List.append_assoc _ _ _)
        exact ⟨m, .step ha hm, hr⟩
  · rintro ⟨m, hm, hr⟩
    induction hm with
    | done q => exact hr
    | step ha _ ih =>
      rw [List.cons_append]
      refine .step ha ?_
      rw [← List.append_assoc]
      exact ih hr

theorem advance_isSome {q' : Place} (h : advance t q c = some (q', cs)) :
    (t.kind q').isSome := by
  unfold advance at h
  split_ifs at h with hdot hdir hdots hdir
  · cases h
    rw [hdir]
    rfl
  · cases h
    exact isSome_above (by rw [hdir]; rfl) (List.dropLast_prefix q)
  · have hq : (t.kind (q ++ [c])).isSome → t.kind q = some .dir := t.parent
    cases hk : t.kind (q ++ [c]) with
    | none => simp [hk] at h
    | some node =>
      rw [hk] at h hq
      cases node with
      | link target =>
        simp only [Option.some.injEq, Prod.mk.injEq] at h
        rw [← h.1]
        split_ifs
        · rw [t.root]
          rfl
        · rw [hq rfl]
          rfl
      | dir | file =>
        simp only [Option.some.injEq, Prod.mk.injEq] at h
        rw [← h.1, hk]
        rfl

/-- A way ends at something that is there. -/
theorem Leads.isSome (h : Leads t q cs r) (hq : (t.kind q).isSome) : (t.kind r).isSome := by
  induction h with
  | done q => exact hq
  | step ha _ ih => exact ih (advance_isSome ha)

theorem advance_of_isName (h : IsName c) {z : Place × List (List Char)}
    (ha : advance t q c = some z) : (t.kind (q ++ [c])).isSome := by
  unfold advance at ha
  rw [if_neg (not_or.mpr ⟨h.nonempty, h.notDot⟩), if_neg h.notDots] at ha
  cases hk : t.kind (q ++ [c]) with
  | none => simp [hk] at ha
  | some node => rfl

/-- Directories that lie in each other are gone through by their names. -/
theorem leads_of_dirs (hcs : ∀ c ∈ cs, IsName c)
    (h : ∀ l, l ≠ [] → l <+: cs → t.kind (q ++ l) = some .dir) : Leads t q cs (q ++ cs) := by
  induction cs generalizing q with
  | nil => simpa using Leads.done q
  | cons c cs ih =>
    have hc := hcs c List.mem_cons_self
    have hdir := h [c] (by simp) (by simp)
    have ha : advance t q c = some (q ++ [c], []) := by
      unfold advance
      rw [if_neg (not_or.mpr ⟨hc.nonempty, hc.notDot⟩), if_neg hc.notDots, hdir]
    refine .step ha ?_
    have hrest := ih (q := q ++ [c]) (fun c hc => hcs c (List.mem_cons_of_mem _ hc)) fun l hl hp => by
      rw [List.append_assoc]
      exact h (c :: l) (by simp) (List.cons_prefix_cons.mpr ⟨rfl, hp⟩)
    rwa [List.append_assoc, List.singleton_append] at hrest

/-- The text is the way from the root to this directory. -/
def DirAt (t : FileTree) (s : List Char) (D : Place) : Prop :=
  Leads t [] (comps s) D ∧ t.kind D = some .dir

theorem DirAt.unique {s : List Char} {D' : Place} (h : DirAt t s D) (h' : DirAt t s D') : D = D' :=
  h.1.unique h'.1

/-- A text without links, dots and doubled slashes leads to the directory it spells out. -/
theorem dirAt_of_dirs {s : List Char} (hs : comps s = [] :: D) (hD : ∀ c ∈ D, IsName c)
    (h : ∀ l, l <+: D → t.kind l = some .dir) : DirAt t s D := by
  refine ⟨?_, h D (List.prefix_refl D)⟩
  have hroot : t.advance [] [] = some ([], []) := by
    unfold advance
    rw [if_pos (Or.inl rfl), if_pos t.root]
  rw [hs]
  exact .step hroot (leads_of_dirs hD fun l _ hl => h l hl)

/-- The text stands for this entry; if it is a link, for the link. -/
def Names (t : FileTree) (s : List Char) (p : Place) : Prop :=
  ∃ cs x m, comps s = cs ++ [x] ∧ IsName x ∧ Leads t [] cs m ∧ p = m ++ [x] ∧ (t.kind p).isSome

theorem Names.isSome {s : List Char} (h : Names t s p) : (t.kind p).isSome := by
  obtain ⟨_, _, _, -, -, -, -, hk⟩ := h
  exact hk

theorem Names.ne_nil {s : List Char} (h : Names t s p) : p ≠ [] := by
  obtain ⟨_, _, _, -, -, -, rfl, -⟩ := h
  simp

theorem Names.unique {s : List Char} {p' : Place} (h : Names t s p) (h' : Names t s p') :
    p = p' := by
  obtain ⟨cs, x, m, hcs, -, hm, rfl, -⟩ := h
  obtain ⟨cs', x', m', hcs', -, hm', rfl, -⟩ := h'
  obtain ⟨rfl, rfl⟩ := List.append_singleton_inj.mp (hcs.symm.trans hcs')
  rw [hm.unique hm']

/-- A text that begins a way stands for something, if it ends in a name. -/
theorem names_of_leads {s : List Char} (hs : comps s = cs ++ [x]) (hx : IsName x)
    (h : Leads t [] (comps s ++ cs') r) : ∃ p, Names t s p := by
  obtain ⟨m', hm', -⟩ := leads_append_iff.mp h
  have hsplit := hm'
  rw [hs] at hsplit
  obtain ⟨m, hm, hlast⟩ := leads_append_iff.mp hsplit
  cases hlast with
  | step ha _ => exact ⟨m ++ [x], cs, x, m, hs, hx, hm, rfl, advance_of_isName hx ha⟩

/-- Behind the way to a directory a name stands for the entry in it. -/
theorem names_entry_iff {s n : List Char} (hn : IsName n) :
    Names t (s ++ '/' :: n) p ↔ ∃ D, DirAt t s D ∧ p = D ++ [n] ∧ (t.kind p).isSome := by
  have hcomps : comps (s ++ '/' :: n) = comps s ++ [n] := by
    rw [comps_append_slash, comps_of_isName hn]
  constructor
  · rintro ⟨cs, x, m, hcs, -, hm, rfl, hk⟩
    obtain ⟨rfl, rfl⟩ := List.append_singleton_inj.mp (hcomps.symm.trans hcs)
    exact ⟨m, ⟨hm, t.parent hk⟩, rfl, hk⟩
  · rintro ⟨D, hD, rfl, hk⟩
    exact ⟨comps s, n, D, hcomps, hn, hD.1, rfl, hk⟩

/-! ### Ways without links -/

/-- What stands in the one tree stands in the other. -/
def Sub (t' t : FileTree) : Prop := ∀ q node, t'.kind q = some node → t.kind q = some node

theorem Sub.isSome (h : Sub t' t) (hq : (t'.kind q).isSome) : (t.kind q).isSome := by
  obtain ⟨node, hnode⟩ := Option.isSome_iff_exists.mp hq
  rw [h q node hnode]
  rfl

theorem Sub.absent (h : Sub t' t) (hq : t.kind q = none) : t'.kind q = none := by
  rw [← Option.not_isSome_iff_eq_none] at hq ⊢
  exact fun hsome => hq (h.isSome hsome)

theorem Sub.advance (h : Sub t' t) {z : Place × List (List Char)}
    (ha : t'.advance q c = some z) : t.advance q c = some z := by
  unfold FileTree.advance at ha ⊢
  by_cases hdot : c = [] ∨ c = ['.']
  · rw [if_pos hdot] at ha ⊢
    split_ifs at ha with hdir
    rw [if_pos (h _ _ hdir)]
    exact ha
  rw [if_neg hdot] at ha ⊢
  by_cases hdots : c = ['.', '.']
  · rw [if_pos hdots] at ha ⊢
    split_ifs at ha with hdir
    rw [if_pos (h _ _ hdir)]
    exact ha
  rw [if_neg hdots] at ha ⊢
  cases hk : t'.kind (q ++ [c]) with
  | none => simp [hk] at ha
  | some node =>
    rw [hk] at ha
    rw [h _ _ hk]
    exact ha

theorem Leads.of_sub (h : Sub t' t) (hl : Leads t' q cs r) : Leads t q cs r := by
  induction hl with
  | done q => exact .done q
  | step ha _ ih => exact .step (h.advance ha) ih

theorem DirAt.of_sub {s : List Char} (h : Sub t' t) (hd : DirAt t' s D) : DirAt t s D :=
  ⟨hd.1.of_sub h, h _ _ hd.2⟩

theorem Names.of_sub {s : List Char} (h : Sub t' t) (hn : Names t' s p) : Names t s p := by
  obtain ⟨cs, x, m, hcs, hx, hm, rfl, hk⟩ := hn
  exact ⟨cs, x, m, hcs, hx, hm.of_sub h, rfl, h.isSome hk⟩

/-! ### Removing -/

open Classical in
/-- The tree without the places of a set and what lies below them.  The root cannot be removed. -/
noncomputable def remove (t : FileTree) (S : Set Place) : FileTree where
  kind q := if ∃ p ∈ S, p ≠ [] ∧ p <+: q then none else t.kind q
  root := by
    rw [if_neg, t.root]
    rintro ⟨p, -, hne, hp⟩
    exact hne (List.prefix_nil.mp hp)
  parent {q c} h := by
    split_ifs at h with hq
    · cases h
    · rw [if_neg, t.parent h]
      rintro ⟨p, hpS, hne, hp⟩
      exact hq ⟨p, hpS, hne, hp.trans (List.prefix_append q [c])⟩
  named {q c} h := by
    split_ifs at h
    · cases h
    · exact t.named h
  finite q := by
    refine (t.finite q).subset fun c hc => ?_
    simp only [Set.mem_ofPred_eq] at hc ⊢
    split_ifs at hc
    · cases hc
    · exact hc

variable {S U : Set Place}

theorem kind_remove_of_mem (hp : p ∈ S) (hne : p ≠ []) (hq : p <+: q) :
    (t.remove S).kind q = none := if_pos ⟨p, hp, hne, hq⟩

theorem kind_remove_of_not (h : ∀ p ∈ S, p ≠ [] → ¬ p <+: q) : (t.remove S).kind q = t.kind q := by
  refine if_neg ?_
  rintro ⟨p, hp, hne, hq⟩
  exact h p hp hne hq

theorem remove_sub (t : FileTree) (S : Set Place) : Sub (t.remove S) t := by
  intro q node h
  simp only [remove] at h
  split_ifs at h
  exact h

theorem remove_remove (t : FileTree) (S U : Set Place) :
    (t.remove S).remove U = t.remove (S ∪ U) := by
  ext1 q
  by_cases h' : ∃ p ∈ U, p ≠ [] ∧ p <+: q
  · obtain ⟨p, hp, hne, hq⟩ := h'
    rw [kind_remove_of_mem hp hne hq, kind_remove_of_mem (Or.inr hp) hne hq]
  · rw [kind_remove_of_not fun p hp hne hq => h' ⟨p, hp, hne, hq⟩]
    by_cases h : ∃ p ∈ S, p ≠ [] ∧ p <+: q
    · obtain ⟨p, hp, hne, hq⟩ := h
      rw [kind_remove_of_mem hp hne hq, kind_remove_of_mem (Or.inl hp) hne hq]
    · rw [kind_remove_of_not fun p hp hne hq => h ⟨p, hp, hne, hq⟩, kind_remove_of_not]
      rintro p (hp | hp) hne hq
      · exact h ⟨p, hp, hne, hq⟩
      · exact h' ⟨p, hp, hne, hq⟩

theorem remove_sub_of_subset (t : FileTree) (h : S ⊆ U) : Sub (t.remove U) (t.remove S) := by
  have hunion : t.remove U = (t.remove S).remove U := by
    rw [remove_remove, Set.union_eq_self_of_subset_left h]
  rw [hunion]
  exact remove_sub _ _

/-- What is not there need not be removed. -/
theorem remove_of_absent (h : ∀ p ∈ S, t.kind p = none) : t.remove S = t := by
  ext1 q
  by_cases hq : ∃ p ∈ S, p ≠ [] ∧ p <+: q
  · obtain ⟨p, hp, hne, hpq⟩ := hq
    rw [kind_remove_of_mem hp hne hpq]
    by_contra hk
    have hsome := isSome_above (Option.isSome_iff_ne_none.mpr (Ne.symm hk)) hpq
    rw [h p hp] at hsome
    cases hsome
  · exact kind_remove_of_not fun p hp hne hpq => hq ⟨p, hp, hne, hpq⟩

theorem remove_eq_of_subset (h : S ⊆ U) (habsent : ∀ p ∈ U, p ∉ S → t.kind p = none) :
    t.remove U = t.remove S := by
  have hunion : U = (U \ S) ∪ S := (Set.sdiff_union_of_subset h).symm
  rw [hunion, ← remove_remove, remove_of_absent fun p hp => habsent p hp.1 hp.2]

/-! ### Emptying a directory -/

/-- The way to a directory still leads to one, which is empty, and elsewhere nothing has changed. -/
def Wiped (t t' : FileTree) (s : List Char) : Prop :=
  (∃ D, DirAt t' s D ∧ ∀ n, t'.kind (D ++ [n]) = none) ∧
  ∀ q, (∀ D, DirAt t s D → ¬ D <+: q) → t'.kind q = t.kind q

/-- Removing some places empties the directory exactly if the way to it is left, every entry of it is
among them and what else is there of them lies in it. -/
theorem wiped_remove_iff {s : List Char} : Wiped t (t.remove S) s ↔
    ∃ D, DirAt t s D ∧ DirAt (t.remove S) s D ∧
      (∀ n, (t.kind (D ++ [n])).isSome → D ++ [n] ∈ S) ∧
      ∀ p ∈ S, p ≠ [] → (t.kind p).isSome → D <+: p := by
  constructor
  · rintro ⟨⟨D, hD', hempty⟩, hframe⟩
    have hD := hD'.of_sub (remove_sub t S)
    refine ⟨D, hD, hD', fun n hn => ?_, fun p hp hne hk => ?_⟩
    · -- what removes the entry does not remove the directory
      by_contra hmem
      have hkept : (t.remove S).kind (D ++ [n]) = t.kind (D ++ [n]) := by
        refine kind_remove_of_not fun p hp hne hpre => ?_
        rcases List.prefix_concat_iff.mp hpre with rfl | hpre
        · exact hmem hp
        · have hgone := kind_remove_of_mem (t := t) hp hne hpre
          rw [hD'.2] at hgone
          cases hgone
      rw [hempty n] at hkept
      rw [← hkept] at hn
      cases hn
    · by_contra hpre
      have hsame := hframe p fun D₁ hD₁ => by rwa [← hD.unique hD₁]
      rw [kind_remove_of_mem hp hne (List.prefix_refl p)] at hsame
      rw [← hsame] at hk
      cases hk
  · rintro ⟨D, hD, hD', hall, hin⟩
    refine ⟨⟨D, hD', fun n => ?_⟩, fun q hq => ?_⟩
    · by_cases hn : (t.kind (D ++ [n])).isSome
      · exact kind_remove_of_mem (hall n hn) (by simp) (List.prefix_refl _)
      · exact (remove_sub t S).absent (Option.not_isSome_iff_eq_none.mp hn)
    · by_cases hk : (t.kind q).isSome
      · refine kind_remove_of_not fun p hp hne hpq => ?_
        exact hq D hD ((hin p hp hne (isSome_above hk hpq)).trans hpq)
      · have hk' := Option.not_isSome_iff_eq_none.mp hk
        rw [hk', (remove_sub t S).absent hk']

/-! ### `rm -Rf` -/

/-- Slashes at the end of an argument are taken off. -/
def stripSlashes (w : List Char) : List Char := w.rdropWhile (· == '/')

/-- `rm -Rf` of one argument.  It removes entries, not what the last component leads to: a link is not
followed, and an argument that ends in a dot or in two is refused. -/
noncomputable def rm (t : FileTree) (w : List Char) : FileTree :=
  t.remove {p | t.Names (stripSlashes w) p}

/-- `rm -Rf` of the entries `ns` of the directory `w`, one after the other. -/
noncomputable def rmEntries (w : List Char) (ns : List (List Char)) (t : FileTree) : FileTree :=
  ns.foldl (fun t n => t.rm (w ++ '/' :: n)) t

theorem stripSlashes_append_slash (w : List Char) : stripSlashes (w ++ ['/']) = stripSlashes w :=
  List.rdropWhile_concat_pos _ _ _ (by decide)

theorem stripSlashes_split (w : List Char) :
    stripSlashes w = w ∨ ∃ l, w = stripSlashes w ++ '/' :: l := by
  have hsplit := List.rdropWhile_append_rtakeWhile (p := (· == '/')) (l := w)
  cases hl : w.rtakeWhile (· == '/') with
  | nil =>
    rw [hl, List.append_nil] at hsplit
    exact Or.inl hsplit
  | cons c l =>
    have hc : c = '/' := by
      have hmem : c ∈ w.rtakeWhile (· == '/') := by rw [hl]; exact List.mem_cons_self
      simpa using List.mem_rtakeWhile_imp hmem
    rw [hl, hc] at hsplit
    exact Or.inr ⟨l, hsplit.symm⟩

/-- The slashes lead nowhere. -/
theorem parts_stripSlashes (w : List Char) : parts (stripSlashes w) = parts w := by
  have hslashes : ∀ l : List Char, (∀ c ∈ l, c = '/') → parts l = [] := by
    intro l hl
    induction l with
    | nil => exact parts_nil
    | cons c l ih =>
      rw [hl c List.mem_cons_self, parts_slash]
      exact ih fun c hc => hl c (List.mem_cons_of_mem _ hc)
  have hend : ∀ c ∈ w.rtakeWhile (· == '/'), c = '/' := fun c hc => by
    simpa using List.mem_rtakeWhile_imp hc
  have hsplit := List.rdropWhile_append_rtakeWhile (p := (· == '/')) (l := w)
  cases hl : w.rtakeWhile (· == '/') with
  | nil =>
    rw [hl, List.append_nil] at hsplit
    rw [stripSlashes, hsplit]
  | cons c l =>
    rw [hl] at hsplit hend
    obtain rfl := hend c List.mem_cons_self
    conv_rhs => rw [← hsplit, parts_append_slash]
    rw [hslashes l fun c hc => hend c (List.mem_cons_of_mem _ hc), List.append_nil, stripSlashes]

theorem comps_stripSlashes (w : List Char) : ∃ b, comps w = comps (stripSlashes w) ++ b := by
  rcases stripSlashes_split w with h | ⟨l, h⟩
  · exact ⟨[], by rw [h, List.append_nil]⟩
  · refine ⟨comps l, ?_⟩
    rw [← comps_append_slash, ← h]

/-- What an argument that lacks the last character has to do with the whole text. -/
theorem comps_concat_stripSlashes (w : List Char) (c : Char) :
    (∃ b, comps (w ++ [c]) = comps (stripSlashes w) ++ b) ∨
      ∃ c', c' ≠ '/' ∧ w ++ [c] = stripSlashes w ++ [c'] := by
  rcases stripSlashes_split w with h | ⟨l, h⟩
  · by_cases hc : c = '/'
    · refine Or.inl ⟨comps [], ?_⟩
      rw [h, hc, ← comps_append_slash]
    · exact Or.inr ⟨c, hc, by rw [h]⟩
  · refine Or.inl ⟨comps (l ++ [c]), ?_⟩
    rw [← comps_append_slash, ← List.cons_append, ← List.append_assoc, ← h]

theorem rm_sub (t : FileTree) (w : List Char) : Sub (t.rm w) t := remove_sub _ _

theorem rm_of_not_names {w : List Char} (h : ∀ p, ¬ t.Names (stripSlashes w) p) : t.rm w = t :=
  remove_of_absent fun p hp => absurd hp (h p)

theorem stripSlashes_entry (w : List Char) {n : List Char} (hn : IsName n) :
    stripSlashes (w ++ '/' :: n) = w ++ '/' :: n := by
  refine List.rdropWhile_eq_self_iff.mpr fun hne hlast => hn.noSlash ?_
  have hcons : '/' :: n ≠ [] := by simp
  rw [List.getLast_append_of_ne_nil hne hcons, List.getLast_cons hn.nonempty] at hlast
  rw [← beq_iff_eq.mp hlast]
  exact List.getLast_mem hn.nonempty

theorem rm_entry {w n : List Char} (hn : IsName n) (hD : DirAt t w D) :
    t.rm (w ++ '/' :: n) = t.remove {D ++ [n]} := by
  rw [rm, stripSlashes_entry w hn]
  by_cases hk : (t.kind (D ++ [n])).isSome
  · congr 1
    ext p
    rw [Set.mem_ofPred_eq, names_entry_iff hn, Set.mem_singleton_iff]
    constructor
    · rintro ⟨D', hD', rfl, -⟩
      rw [hD.unique hD']
    · rintro rfl
      exact ⟨D, hD, rfl, hk⟩
  · rw [remove_of_absent, remove_of_absent]
    · rintro p rfl
      exact Option.not_isSome_iff_eq_none.mp hk
    · intro p hp
      obtain ⟨D', hD', rfl, hsome⟩ := (names_entry_iff hn).mp hp
      rw [← hD.unique hD'] at hsome
      exact absurd hsome hk

/-- Where the way to the directory is gone, nothing more is removed. -/
theorem rmEntries_of_not_dir {w : List Char} {ns : List (List Char)} (hns : ∀ n ∈ ns, IsName n)
    (h : ∀ D, ¬ DirAt t w D) : rmEntries w ns t = t := by
  induction ns with
  | nil => rfl
  | cons n ns ih =>
    have hn := hns n List.mem_cons_self
    have hrm : t.rm (w ++ '/' :: n) = t := by
      refine rm_of_not_names fun p hp => ?_
      rw [stripSlashes_entry w hn] at hp
      obtain ⟨D, hD, -⟩ := (names_entry_iff hn).mp hp
      exact h D hD
    rw [rmEntries, List.foldl_cons, hrm]
    exact ih fun n hn => hns n (List.mem_cons_of_mem _ hn)

/-- The entries are removed one by one until all are, or until the way to the directory is gone. -/
theorem rmEntries_spec {w : List Char} {ns : List (List Char)} (hns : ∀ n ∈ ns, IsName n)
    (hD : DirAt t w D) :
    ∃ S ⊆ {p | ∃ n ∈ ns, p = D ++ [n]}, rmEntries w ns t = t.remove S ∧
      (DirAt (rmEntries w ns t) w D → S = {p | ∃ n ∈ ns, p = D ++ [n]}) := by
  induction ns generalizing t with
  | nil =>
    refine ⟨∅, Set.empty_subset _, ?_, fun _ => ?_⟩
    · exact (remove_of_absent fun p hp => hp.elim).symm
    · simp
  | cons n ns ih =>
    have hn := hns n List.mem_cons_self
    have hns' : ∀ n ∈ ns, IsName n := fun n hn => hns n (List.mem_cons_of_mem _ hn)
    have hcons : rmEntries w (n :: ns) t = rmEntries w ns (t.remove {D ++ [n]}) := by
      rw [rmEntries, List.foldl_cons, rm_entry hn hD, rmEntries]
    have hhead : {D ++ [n]} ⊆ {p | ∃ m ∈ n :: ns, p = D ++ [m]} := by
      rintro p rfl
      exact ⟨n, List.mem_cons_self, rfl⟩
    by_cases hD' : DirAt (t.remove {D ++ [n]}) w D
    · obtain ⟨S, hS, heq, hall⟩ := ih hns' hD'
      refine ⟨{D ++ [n]} ∪ S, Set.union_subset hhead fun p hp => ?_, ?_, fun hend => ?_⟩
      · obtain ⟨m, hm, rfl⟩ := hS hp
        exact ⟨m, List.mem_cons_of_mem _ hm, rfl⟩
      · rw [hcons, heq, remove_remove]
      · rw [hcons] at hend
        rw [hall hend]
        ext p
        simp
    · have hgone : ∀ D', ¬ DirAt (t.remove {D ++ [n]}) w D' := by
        intro D' h
        have hsame := hD.unique (h.of_sub (remove_sub _ _))
        rw [← hsame] at h
        exact hD' h
      rw [hcons, rmEntries_of_not_dir hns' hgone]
      exact ⟨_, hhead, rfl, fun h => absurd h hD'⟩

theorem rmEntries_sub (w : List Char) (ns : List (List Char)) (t : FileTree) :
    Sub (rmEntries w ns t) t := by
  induction ns generalizing t with
  | nil => exact fun _ _ h => h
  | cons n ns ih => exact fun q node h => rm_sub t _ q node (ih _ q node h)

/-- The tree without the entries of a directory. -/
noncomputable def clear (t : FileTree) (D : Place) : FileTree := t.remove {p | ∃ n, p = D ++ [n]}

/-- Emptying a directory changes only what is deeper than the directory. -/
theorem kind_clear {t : FileTree} {D p : Place} (h : p.length ≤ D.length) :
    (t.clear D).kind p = t.kind p := by
  refine kind_remove_of_not ?_
  rintro _ ⟨n, rfl⟩ - hpre
  have hlen := hpre.length_le
  rw [List.length_append, List.length_singleton] at hlen
  omega

/-- Removing the entries that a pattern finds, those that do not begin with a dot, empties the
directory exactly if there are no others and the way to it does not go through them. -/
theorem wiped_rmEntries_iff {w : List Char} {ns : List (List Char)}
    (hns : ∀ D, DirAt t w D → ∀ n, n ∈ ns ↔ (t.kind (D ++ [n])).isSome ∧ n.head? ≠ some '.') :
    Wiped t (rmEntries w ns t) w ↔
      ∃ D, DirAt t w D ∧ (∀ n, (t.kind (D ++ [n])).isSome → n.head? ≠ some '.') ∧
        DirAt (t.clear D) w D := by
  have hnames : ∀ D, DirAt t w D → ∀ n ∈ ns, IsName n := fun D hD n hn =>
    t.named ((hns D hD n).mp hn).1
  constructor
  · intro h
    obtain ⟨⟨D, hD', -⟩, -⟩ := id h
    have hD := hD'.of_sub (rmEntries_sub w ns t)
    obtain ⟨S, -, heq, hall⟩ := rmEntries_spec (hnames D hD) hD
    rw [heq, hall hD'] at h
    obtain ⟨D₁, hD₁, hleft, hentries, -⟩ := wiped_remove_iff.mp h
    obtain rfl := hD₁.unique hD
    have hvisible : ∀ n, (t.kind (D₁ ++ [n])).isSome → n.head? ≠ some '.' := by
      intro n hn
      obtain ⟨m, hm, heq⟩ := hentries n hn
      rw [(List.append_singleton_inj.mp heq).2]
      exact ((hns D₁ hD m).mp hm).2
    refine ⟨D₁, hD, hvisible, ?_⟩
    have hclear : t.clear D₁ = t.remove {p | ∃ n ∈ ns, p = D₁ ++ [n]} := by
      refine remove_eq_of_subset ?_ ?_
      · rintro p ⟨n, -, rfl⟩
        exact ⟨n, rfl⟩
      · rintro p ⟨n, rfl⟩ hmem
        by_contra hk
        have hn := Option.isSome_iff_ne_none.mpr hk
        exact hmem ⟨n, (hns D₁ hD n).mpr ⟨hn, hvisible n hn⟩, rfl⟩
    rw [hclear]
    exact hleft
  · rintro ⟨D, hD, hvisible, hclear⟩
    obtain ⟨S, hS, heq, hall⟩ := rmEntries_spec (hnames D hD) hD
    have hsub : Sub (t.clear D) (rmEntries w ns t) := by
      rw [heq]
      refine remove_sub_of_subset t fun p hp => ?_
      obtain ⟨n, -, rfl⟩ := hS hp
      exact ⟨n, rfl⟩
    have hend : DirAt (rmEntries w ns t) w D := hclear.of_sub hsub
    have hS' := hall hend
    rw [heq] at hend ⊢
    rw [hS'] at hend ⊢
    refine wiped_remove_iff.mpr ⟨D, hD, hend, fun n hn => ?_, ?_⟩
    · exact ⟨n, (hns D hD n).mpr ⟨hn, hvisible n hn⟩, rfl⟩
    · rintro p ⟨n, -, rfl⟩ - -
      exact List.prefix_append D [n]

/-- A text with one more character goes on in its last component. -/
theorem comps_concat {v : List Char} {c : Char} (hc : c ≠ '/') :
    ∃ cs x, comps v = cs ++ [x] ∧ comps (v ++ [c]) = cs ++ [x ++ [c]] := by
  have hslash : '/' ∉ v.rtakeWhile (· != '/') := fun h => by simpa using List.mem_rtakeWhile_imp h
  have hslash' : '/' ∉ v.rtakeWhile (· != '/') ++ [c] := by simpa [hslash] using hc.symm
  have hsplit := List.rdropWhile_append_rtakeWhile (p := (· != '/')) (l := v)
  by_cases hnil : v.rdropWhile (· != '/') = []
  · rw [hnil, List.nil_append] at hsplit
    rw [hsplit] at hslash hslash'
    exact ⟨[], v, List.splitOn_eq_singleton hslash, List.splitOn_eq_singleton hslash'⟩
  · have hlast := List.rdropWhile_last_not _ _ hnil
    have hend : (v.rdropWhile (· != '/')).getLast hnil = '/' := by simpa using hlast
    have hpre := List.dropLast_append_getLast hnil
    rw [hend] at hpre
    rw [← hpre, List.append_assoc, List.singleton_append] at hsplit
    refine ⟨comps (v.rdropWhile (· != '/')).dropLast, v.rtakeWhile (· != '/'), ?_, ?_⟩
    · conv_lhs => rw [← hsplit]
      rw [comps_append_slash]
      exact congrArg _ (List.splitOn_eq_singleton hslash)
    · conv_lhs => rw [← hsplit]
      rw [List.append_assoc, List.cons_append, comps_append_slash]
      exact congrArg _ (List.splitOn_eq_singleton hslash')

/-- Where the argument begins the way to the directory, removing what it stands for cuts the way. -/
theorem not_wiped_rm_of_begins {w s : List Char} {b : List (List Char)}
    (hs : comps s = comps (stripSlashes w) ++ b) (hp : t.Names (stripSlashes w) p) :
    ¬ Wiped t (t.rm w) s := by
  rintro ⟨⟨D, hD, -⟩, -⟩
  obtain ⟨cs, x, m, hcs, hx, -, -, -⟩ := id hp
  have hway := hD.1
  rw [hs] at hway
  obtain ⟨p', hp'⟩ := names_of_leads hcs hx hway
  have hgone := hp'.isSome
  rw [rm, kind_remove_of_mem (hp'.of_sub (rm_sub t w)) hp'.ne_nil (List.prefix_refl p')] at hgone
  cases hgone

/-- So it does where the argument lacks the last letter of the directory's name: what it stands for is
another entry beside the directory. -/
theorem not_wiped_rm_of_concat {w : List Char} {c : Char} (hc : c ≠ '/')
    (hp : t.Names (stripSlashes w) p) : ¬ Wiped t (t.rm w) (stripSlashes w ++ [c]) := by
  intro h
  obtain ⟨cs, x, hcs, hlong⟩ := comps_concat (v := stripSlashes w) hc
  obtain ⟨cs', x', m, hcs', hx, hm, rfl, hk⟩ := id hp
  obtain ⟨rfl, rfl⟩ := List.append_singleton_inj.mp (hcs.symm.trans hcs')
  obtain ⟨⟨D, hD, hempty⟩, -⟩ := id h
  obtain ⟨D', hD', -, -, hin⟩ := wiped_remove_iff.mp h
  obtain rfl := hD'.unique (hD.of_sub (rm_sub t w))
  have hpre : D' <+: m ++ [x] := hin _ hp (by simp) hk
  -- the directory is still there
  have hne : D' ≠ m ++ [x] := by
    intro heq
    have hgone := hD.2
    rw [heq, rm, kind_remove_of_mem hp (by simp) (List.prefix_refl _)] at hgone
    cases hgone
  have hway := hD.1
  rw [hlong] at hway
  obtain ⟨m', hm', hlast⟩ := leads_append_iff.mp hway
  obtain rfl := hm.unique (hm'.of_sub (rm_sub t w))
  have hthere : ((t.rm w).kind m).isSome := hm'.isSome (by rw [(t.rm w).root]; rfl)
  have hpre' : D' <+: m := (List.prefix_concat_iff.mp hpre).resolve_left hne
  by_cases hD'm : D' = m
  · subst hD'm
    have hname : IsName (x ++ [c]) := hx.concat hc
    cases hlast with
    | step ha _ =>
      have hentry := advance_of_isName hname ha
      rw [hempty] at hentry
      cases hentry
  · obtain ⟨l, rfl⟩ := hpre'
    cases l with
    | nil => simp at hD'm
    | cons n l =>
      have hentry := isSome_above hthere (p := D' ++ [n]) (by simp)
      rw [hempty] at hentry
      cases hentry

/-- An argument that begins the way to the directory or lacks its last letter empties nothing: the
directory has to be empty already and the argument has to stand for nothing. -/
theorem wiped_rm_iff {w s : List Char}
    (hs : (∃ b, comps s = comps (stripSlashes w) ++ b) ∨
      ∃ c, c ≠ '/' ∧ s = stripSlashes w ++ [c]) :
    Wiped t (t.rm w) s ↔
      ∃ D, DirAt t s D ∧ (∀ n, t.kind (D ++ [n]) = none) ∧ ∀ p, ¬ t.Names (stripSlashes w) p := by
  constructor
  · intro h
    have hnone : ∀ p, ¬ t.Names (stripSlashes w) p := by
      intro p hp
      rcases hs with ⟨b, hb⟩ | ⟨c, hc, rfl⟩
      · exact not_wiped_rm_of_begins hb hp h
      · exact not_wiped_rm_of_concat hc hp h
    rw [rm_of_not_names hnone] at h
    obtain ⟨⟨D, hD, hempty⟩, -⟩ := h
    exact ⟨D, hD, hempty, hnone⟩
  · rintro ⟨D, hD, hempty, hnone⟩
    rw [rm_of_not_names hnone]
    exact ⟨⟨D, hD, hempty⟩, fun _ _ => rfl⟩

end FileTree

end Multiboot.Lib
