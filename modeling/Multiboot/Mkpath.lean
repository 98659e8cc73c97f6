import Mathlib.Data.List.DropRight
import Mathlib.Logic.Function.Iterate
import Multiboot.Base

/-!
# Making a directory with its parents

`mkpath` recurses over `dirname` and takes `EEXIST` for success.  `MkdirFs` is what is known of
`mkdir` on a file system; with it `mkpath_eq` unrolls the recursion to one `mkdir` for each component,
and `mkpath_iff` says when the result can be relied on.
-/

namespace Multiboot

/-! ### The source -/

/-- `dirname`. -/
def dirname (path : CString) : CString :=
  if path = [] then ['.']
  else
    let p := path.rdropWhile (· == '/')
    if p = [] then ['/']
    else if '/' ∈ p then
      let dir := (p.rdropWhile (· != '/')).rdropWhile (· == '/')
      if dir = [] then ['/'] else dir
    else ['.']

/-- `strcmp(s, ".") == 0 || strcmp(s, "/") == 0`. -/
def IsTop (path : CString) : Prop := path = ['.'] ∨ path = ['/']

instance (path : CString) : Decidable (IsTop path) := inferInstanceAs (Decidable (_ ∨ _))

def EEXIST : ℕ := 17

/-- A file system in the states `σ`, as far as `mkdir` is concerned: it fails with `EEXIST` on a name
that is there, makes directories, and leaves all other entries as they are. -/
structure MkdirFs (σ : Type) where
  /-- The kind of an entry. -/
  lstat : σ → CString → Option FileKind
  /-- The name leads to a directory. -/
  isDir : σ → CString → Bool
  mkdir : σ → CString → Except ℕ σ
  isDir_root : ∀ s, isDir s ['/'] = true
  isDir_dot : ∀ s, isDir s ['.'] = true
  isSome_of_isDir : ∀ {s p}, isDir s p = true → (lstat s p).isSome
  isDir_dirname : ∀ {s p}, (lstat s p).isSome → isDir s (dirname p) = true
  mkdir_exists : ∀ {s p}, mkdir s p = .error EEXIST ↔ (lstat s p).isSome
  isDir_of_mkdir : ∀ {s s' p}, mkdir s p = .ok s' → isDir s' p = true
  lstat_of_mkdir : ∀ {s s' p q k}, mkdir s p = .ok s' → lstat s q = some k → lstat s' q = some k

section

variable {σ : Type} (fs : MkdirFs σ)

/-- `mkpath`: its result, `errno` and the file system after it, with a bound for the recursion. -/
def mkpath : ℕ → ℕ → σ → CString → Option (ℤ × ℕ × σ)
  | 0, _, _, _ => none
  | fuel + 1, errno, s, path =>
    if IsTop path then some (0, errno, s)
    else
      match mkpath fuel errno s (dirname path) with
      | none => none
      | some (rc, errno, s) =>
        if rc = -1 ∧ errno ≠ EEXIST then some (-1, errno, s)
        else
          match fs.mkdir s path with
          | .ok s => some (0, errno, s)
          | .error e => some (if e ≠ EEXIST then -1 else 0, e, s)

/-! ### The components of a path -/

theorem length_rdropWhile_le (p : Char → Bool) (s : CString) :
    (s.rdropWhile p).length ≤ s.length := (List.rdropWhile_prefix p s).length_le

theorem length_rdropWhile_lt {p : Char → Bool} {s : CString} (hne : s ≠ [])
    (hlast : p (s.getLast hne) = true) : (s.rdropWhile p).length < s.length := by
  refine lt_of_le_of_ne (length_rdropWhile_le p s) fun h => ?_
  have hself : s.rdropWhile p = s := (List.rdropWhile_prefix p s).eq_of_length h
  exact List.rdropWhile_eq_self_iff.mp hself hne hlast

/-- `dirname` shortens a path or leaves one at which the recursion ends. -/
theorem dirname_shorter (path : CString) :
    IsTop (dirname path) ∨ (dirname path).length < path.length := by
  simp only [dirname]
  split_ifs with hnil hp hslash hdir
  · exact Or.inl (Or.inl rfl)
  · exact Or.inl (Or.inr rfl)
  · exact Or.inl (Or.inr rfl)
  · right
    have hlast : ((path.rdropWhile (· == '/')).getLast hp != '/') = true := by
      have hnot := List.rdropWhile_last_not (· == '/') path hp
      simpa using hnot
    calc (((path.rdropWhile (· == '/')).rdropWhile (· != '/')).rdropWhile (· == '/')).length
        ≤ ((path.rdropWhile (· == '/')).rdropWhile (· != '/')).length := length_rdropWhile_le _ _
      _ < (path.rdropWhile (· == '/')).length := length_rdropWhile_lt hp hlast
      _ ≤ path.length := length_rdropWhile_le _ _
  · exact Or.inl (Or.inl rfl)

/-- How deep the recursion goes. -/
def depth (path : CString) : ℕ := if IsTop path then 0 else path.length + 1

theorem depth_dirname_lt {path : CString} (h : ¬ IsTop path) : depth (dirname path) < depth path := by
  rw [depth, depth, if_neg h]
  split_ifs with htop
  · exact Nat.succ_pos _
  · exact Nat.succ_lt_succ ((dirname_shorter path).resolve_left htop)

/-- The path and what is above it, topmost first. -/
def components (path : CString) : List CString :=
  if IsTop path then [] else components (dirname path) ++ [path]
termination_by depth path
decreasing_by exact depth_dirname_lt ‹_›

/-- What is above the path, topmost first. -/
def parents (path : CString) : List CString :=
  if IsTop path then [] else components (dirname path)

theorem components_top {path : CString} (h : IsTop path) : components path = [] := by
  rw [components, if_pos h]

theorem components_eq {path : CString} (h : ¬ IsTop path) :
    components path = parents path ++ [path] := by
  rw [components, parents, if_neg h, if_neg h]

/-! ### One `mkdir` for each component -/

/-- `mkdir` for each name, as long as it is made or there; the error of the first that fails. -/
def makeAll : σ → List CString → σ × Option ℕ
  | s, [] => (s, none)
  | s, p :: ps =>
    match fs.mkdir s p with
    | .ok s => makeAll s ps
    | .error e => if e = EEXIST then makeAll s ps else (s, some e)

/-- The result of `mkpath` for the error of the first failure. -/
def rcOf : Option ℕ → ℤ
  | none => 0
  | some _ => -1

variable {fs}

theorem makeAll_concat (s : σ) (ps : List CString) (p : CString) :
    makeAll fs s (ps ++ [p]) =
      match makeAll fs s ps with
      | (s', none) => makeAll fs s' [p]
      | (s', some e) => (s', some e) := by
  induction ps generalizing s with
  | nil => rfl
  | cons q ps ih =>
    rw [List.cons_append, makeAll, makeAll]
    cases fs.mkdir s q with
    | ok s' => exact ih s'
    | error e =>
      by_cases he : e = EEXIST
      · simp only [if_pos he, ih]
      · simp only [if_neg he]

/-- No entry is removed or changed. -/
theorem lstat_makeAll {s : σ} (ps : List CString) {q : CString} {k : FileKind}
    (h : fs.lstat s q = some k) : fs.lstat (makeAll fs s ps).1 q = some k := by
  induction ps generalizing s with
  | nil => exact h
  | cons p ps ih =>
    rw [makeAll]
    cases hmk : fs.mkdir s p with
    | ok s' => exact ih (fs.lstat_of_mkdir hmk h)
    | error e =>
      by_cases he : e = EEXIST
      · simp only [if_pos he]
        exact ih h
      · simp only [if_neg he]
        exact h

/-- A failure is that of a `mkdir`. -/
theorem makeAll_failed {s : σ} {ps : List CString} {e : ℕ} (h : (makeAll fs s ps).2 = some e) :
    e ≠ EEXIST ∧ ∃ q ∈ ps, fs.mkdir (makeAll fs s ps).1 q = .error e := by
  induction ps generalizing s with
  | nil => cases h
  | cons p ps ih =>
    rw [makeAll] at h ⊢
    cases hmk : fs.mkdir s p with
    | ok s' =>
      simp only [hmk] at h ⊢
      obtain ⟨he, q, hq, hfail⟩ := ih h
      exact ⟨he, q, List.mem_cons_of_mem _ hq, hfail⟩
    | error e' =>
      simp only [hmk] at h ⊢
      by_cases he : e' = EEXIST
      · simp only [if_pos he] at h ⊢
        obtain ⟨he, q, hq, hfail⟩ := ih h
        exact ⟨he, q, List.mem_cons_of_mem _ hq, hfail⟩
      · simp only [if_neg he] at h ⊢
        obtain rfl := Option.some.inj h
        exact ⟨he, p, List.mem_cons_self, hmk⟩

/-- Names that are there already need nothing. -/
theorem makeAll_of_exists {s : σ} {ps : List CString} (h : ∀ q ∈ ps, (fs.lstat s q).isSome) :
    makeAll fs s ps = (s, none) := by
  induction ps with
  | nil => rfl
  | cons p ps ih =>
    simp only [makeAll, fs.mkdir_exists.mpr (h p List.mem_cons_self), if_true]
    exact ih fun q hq => h q (List.mem_cons_of_mem _ hq)

/-- **The recursion ends**, and makes one component after the other. -/
theorem mkpath_eq (s : σ) (path : CString) (errno : ℕ) : ∃ errno',
    (∀ e, (makeAll fs s (components path)).2 = some e → errno' = e) ∧
    ∀ fuel, depth path < fuel → mkpath fs fuel errno s path =
      some (rcOf (makeAll fs s (components path)).2, errno',
        (makeAll fs s (components path)).1) := by
  induction path using components.induct with
  | case1 path htop =>
    rw [components_top htop]
    refine ⟨errno, nofun, fun fuel hfuel => ?_⟩
    obtain ⟨fuel, rfl⟩ := Nat.exists_eq_add_of_lt hfuel
    rw [mkpath, if_pos htop]
    rfl
  | case2 path htop ih =>
    obtain ⟨errno1, herrno1, hrun⟩ := ih
    have hparents : parents path = components (dirname path) := if_neg htop
    rw [components_eq htop, hparents, makeAll_concat]
    have hdepth := depth_dirname_lt htop
    have hstep : ∀ fuel, depth path < fuel → mkpath fs fuel errno s path =
        match makeAll fs s (components (dirname path)) with
        | (s1, some _) => some (-1, errno1, s1)
        | (s1, none) =>
          match fs.mkdir s1 path with
          | .ok s2 => some (0, errno1, s2)
          | .error e => some (if e ≠ EEXIST then -1 else 0, e, s1) := by
      intro fuel hfuel
      obtain ⟨fuel, rfl⟩ : ∃ n, fuel = n + 1 := ⟨fuel - 1, by omega⟩
      rw [mkpath, if_neg htop, hrun fuel (by omega)]
      cases hup : makeAll fs s (components (dirname path)) with
      | mk s1 failed =>
        cases failed with
        | none => simp [rcOf]
        | some e =>
          have hfailed : (makeAll fs s (components (dirname path))).2 = some e := by rw [hup]
          have hne : errno1 ≠ EEXIST := by
            rw [herrno1 e hfailed]
            exact (makeAll_failed hfailed).1
          simp [rcOf, hne]
    cases hup : makeAll fs s (components (dirname path)) with
    | mk s1 failed =>
      rw [hup] at hstep herrno1
      cases failed with
      | some e => exact ⟨errno1, herrno1, hstep⟩
      | none =>
        simp only [makeAll] at hstep ⊢
        cases hmk : fs.mkdir s1 path with
        | ok s2 =>
          simp only [hmk] at hstep
          exact ⟨errno1, nofun, hstep⟩
        | error e =>
          simp only [hmk] at hstep
          by_cases he : e = EEXIST
          · simp only [if_pos he]
            refine ⟨e, nofun, fun fuel hfuel => ?_⟩
            rw [hstep fuel hfuel, if_neg (not_not.mpr he)]
            rfl
          · simp only [if_neg he]
            refine ⟨e, fun _ => Option.some.inj, fun fuel hfuel => ?_⟩
            rw [hstep fuel hfuel, if_pos he]
            rfl

/-! ### What the result says -/

/-- Above a directory there are directories. -/
theorem isDir_iterate {s : σ} {path : CString} (h : fs.isDir s path = true) (k : ℕ) :
    fs.isDir s (dirname^[k] path) = true := by
  induction k with
  | zero => exact h
  | succ k ih =>
    rw [Function.iterate_succ_apply']
    exact fs.isDir_dirname (fs.isSome_of_isDir ih)

theorem isDir_top {s : σ} {path : CString} (h : IsTop path) : fs.isDir s path = true := by
  rcases h with rfl | rfl
  · exact fs.isDir_dot s
  · exact fs.isDir_root s

variable (fs)

/-- The result of `mkpath` is right: 0 for a path of directories, -1 if a component could not be made;
and no entry is removed or changed. -/
structure MakesPath (s : σ) (path : CString) (rc : ℤ) (s' : σ) : Prop where
  zero : rc = 0 → ∀ k, fs.isDir s' (dirname^[k] path) = true
  failed : rc ≠ 0 → rc = -1 ∧ ∃ q ∈ components path, ∃ e, e ≠ EEXIST ∧ fs.mkdir s' q = .error e
  kept : ∀ q k, fs.lstat s q = some k → fs.lstat s' q = some k

/-- With its parents made, the path is free or a directory. -/
def FreeOrDir (s : σ) (path : CString) : Prop :=
  ∀ s', makeAll fs s (parents path) = (s', none) → (fs.lstat s' path).isSome →
    fs.isDir s' path = true

variable {fs}

theorem MakesPath.of_failed {s s' : σ} {path : CString} {e : ℕ}
    (h : makeAll fs s (components path) = (s', some e)) : MakesPath fs s path (-1) s' := by
  refine ⟨nofun, fun _ => ⟨rfl, ?_⟩, fun q k hk => ?_⟩
  · have hfailed : (makeAll fs s (components path)).2 = some e := by rw [h]
    obtain ⟨he, q, hq, hfail⟩ := makeAll_failed hfailed
    rw [h] at hfail
    exact ⟨q, hq, e, he, hfail⟩
  · have hkept := lstat_makeAll (components path) hk
    rwa [h] at hkept

theorem MakesPath.zero_iff {s s' : σ} {path : CString}
    (h : makeAll fs s (components path) = (s', none)) :
    MakesPath fs s path 0 s' ↔ fs.isDir s' path = true := by
  refine ⟨fun hm => hm.zero rfl 0, fun hdir => ⟨fun _ => isDir_iterate hdir, nofun, fun q k hk => ?_⟩⟩
  have hkept := lstat_makeAll (components path) hk
  rwa [h] at hkept

/-- **When `mkpath` can be relied on.**  It always returns; its result is right exactly if the path,
with its parents made, is not the name of something that is no directory. -/
theorem mkpath_iff (fs : MkdirFs σ) (errno : ℕ) (s : σ) (path : CString) : ∃ rc errno' s',
    (∀ fuel, path.length + 2 ≤ fuel → mkpath fs fuel errno s path = some (rc, errno', s')) ∧
    (MakesPath fs s path rc s' ↔ FreeOrDir fs s path) := by
  obtain ⟨errno', -, hrun⟩ := mkpath_eq s path errno
  have hdepth : depth path ≤ path.length + 1 := by
    rw [depth]
    split_ifs <;> omega
  refine ⟨_, errno', _, fun fuel hfuel => hrun fuel (by omega), ?_⟩
  by_cases htop : IsTop path
  · have hcomps : makeAll fs s (components path) = (s, none) := by
      rw [components_top htop]
      rfl
    rw [hcomps]
    refine iff_of_true ((MakesPath.zero_iff hcomps).mpr (isDir_top htop)) fun s' _ _ => ?_
    exact isDir_top htop
  · have hcomps := @makeAll_concat σ fs s (parents path) path
    rw [← components_eq htop] at hcomps
    rw [FreeOrDir]
    cases hup : makeAll fs s (parents path) with
    | mk s1 failed =>
      rw [hup] at hcomps
      cases failed with
      | some e =>
        rw [show makeAll fs s (components path) = (s1, some e) from hcomps]
        exact iff_of_true (.of_failed hcomps) fun s' h => by cases h
      | none =>
        simp only [makeAll] at hcomps
        cases hmk : fs.mkdir s1 path with
        | ok s2 =>
          simp only [hmk] at hcomps
          rw [hcomps]
          refine iff_of_true ((MakesPath.zero_iff hcomps).mpr (fs.isDir_of_mkdir hmk))
            fun s' h hsome => ?_
          obtain rfl := (Prod.mk.inj h).1
          rw [fs.mkdir_exists.mpr hsome] at hmk
          cases hmk
        | error e =>
          simp only [hmk] at hcomps
          by_cases he : e = EEXIST
          · rw [if_pos he] at hcomps
            rw [hcomps]
            have hsome := fs.mkdir_exists.mp (he ▸ hmk)
            refine (MakesPath.zero_iff hcomps).trans ⟨fun hdir s' h _ => ?_, fun h => h s1 rfl hsome⟩
            obtain rfl := (Prod.mk.inj h).1
            exact hdir
          · rw [if_neg he] at hcomps
            rw [hcomps]
            refine iff_of_true (.of_failed hcomps) fun s' h hsome => ?_
            obtain rfl := (Prod.mk.inj h).1
            rw [fs.mkdir_exists.mpr hsome] at hmk
            exact absurd (Except.error.inj hmk).symm he

/-- What stands above an entry is there. -/
theorem isSome_of_mem_components {s : σ} {path : CString} (h : (fs.lstat s path).isSome) :
    ∀ q ∈ components path, (fs.lstat s q).isSome := by
  induction path using components.induct with
  | case1 path htop =>
    rw [components_top htop]
    nofun
  | case2 path htop ih =>
    intro q hq
    rw [components, if_neg htop, List.mem_append, List.mem_singleton] at hq
    rcases hq with hq | rfl
    · exact ih (fs.isSome_of_isDir (fs.isDir_dirname h)) q hq
    · exact h

/-- For a path that is there nothing is made, and `mkpath` is right exactly about a directory. -/
theorem freeOrDir_iff_of_exists {s : σ} {path : CString} (h : (fs.lstat s path).isSome) :
    FreeOrDir fs s path ↔ fs.isDir s path = true := by
  have hparents : makeAll fs s (parents path) = (s, none) := by
    refine makeAll_of_exists fun q hq => ?_
    rw [parents] at hq
    split_ifs at hq
    · cases hq
    · exact isSome_of_mem_components (fs.isSome_of_isDir (fs.isDir_dirname h)) q hq
  rw [FreeOrDir, hparents]
  constructor
  · intro hf
    exact hf s rfl h
  · rintro hdir s' hs' -
    obtain rfl := (Prod.mk.inj hs').1
    exact hdir

end

/-! ### A file system of names -/

/-- Entries by their names, each in a directory. -/
structure NameTree where
  kind : CString → Option FileKind
  root : kind ['/'] = some .dir
  dot : kind ['.'] = some .dir
  closed : ∀ p, (kind p).isSome → kind (dirname p) = some .dir

/-- The tree with one directory more. -/
def NameTree.add (t : NameTree) (p : CString) (h : t.kind (dirname p) = some .dir) : NameTree where
  kind := Function.update t.kind p (some .dir)
  root := by
    rw [Function.update_apply, t.root]
    split_ifs <;> rfl
  dot := by
    rw [Function.update_apply, t.dot]
    split_ifs <;> rfl
  closed q hq := by
    rw [Function.update_apply] at hq ⊢
    by_cases hdir : dirname q = p
    · rw [if_pos hdir]
    · rw [if_neg hdir]
      by_cases hqp : q = p
      · rw [hqp]
        exact h
      · rw [if_neg hqp] at hq
        exact t.closed q hq

/-- `mkdir` of a name; the empty one is in no directory. -/
def NameTree.mkdir (t : NameTree) (p : CString) : Except ℕ NameTree :=
  if (t.kind p).isSome then .error EEXIST
  else if h : p ≠ [] ∧ t.kind (dirname p) = some .dir then .ok (t.add p h.2)
  else .error 2

def nameFs : MkdirFs NameTree where
  lstat t := t.kind
  isDir t p := t.kind p == some .dir
  mkdir := NameTree.mkdir
  isDir_root t := by rw [t.root]; rfl
  isDir_dot t := by rw [t.dot]; rfl
  isSome_of_isDir {t p} h := by rw [eq_of_beq h]; rfl
  isDir_dirname {t p} h := by rw [t.closed p h]; rfl
  mkdir_exists {t p} := by
    rw [NameTree.mkdir]
    split_ifs with h1 h2
    · exact iff_of_true rfl h1
    · exact iff_of_false nofun h1
    · exact iff_of_false (fun h => absurd (Except.error.inj h) (by decide)) h1
  isDir_of_mkdir {t t' p} h := by
    rw [NameTree.mkdir] at h
    split_ifs at h with h1 h2
    obtain rfl := Except.ok.inj h
    simp [NameTree.add]
  lstat_of_mkdir {t t' p q k} h hk := by
    rw [NameTree.mkdir] at h
    split_ifs at h with h1 h2
    obtain rfl := Except.ok.inj h
    have hne : q ≠ p := by
      rintro rfl
      exact h1 (by rw [hk]; rfl)
    show Function.update t.kind p (some .dir) q = some k
    rw [Function.update_of_ne hne, hk]

def FILE : CString := "/f".toList

/-- The root directory holds a regular file. -/
def fileTree : NameTree where
  kind p := if p = ['/'] ∨ p = ['.'] then some .dir else if p = FILE then some .reg else none
  root := rfl
  dot := rfl
  closed p hp := by
    split_ifs at hp with htop hfile
    · rcases htop with rfl | rfl <;> rfl
    · rw [hfile]
      rfl
    · cases hp

/-- A regular file in the place of the directory counts as success. -/
theorem mkpath_of_file :
    (∃ s', mkpath nameFs 4 0 fileTree FILE = some (0, EEXIST, s') ∧
      nameFs.lstat s' FILE = some .reg ∧ nameFs.isDir s' FILE = false) ∧
    ¬ FreeOrDir nameFs fileTree FILE := by
  refine ⟨⟨fileTree, rfl, rfl, rfl⟩, fun h => ?_⟩
  exact absurd ((freeOrDir_iff_of_exists rfl).mp h) (by decide)

end Multiboot
