import Multiboot.Lib.FileTree
import Multiboot.Storage

/-!
# Wiping the directory of a partition

`format_path` pastes its argument behind `rm -Rf` and gives the line to a shell.  `PosixShell` is what
is known of that shell for words without special characters.  `wipe_empties_iff` says when the wipe of
a record leaves its directory empty and everything else as it is: files whose names begin with a dot
stay, and the name of a directory may be too long for the buffers, which cut the pattern off.
-/

namespace Multiboot

open Lib Lib.FileTree

/-! ### The source -/

def PATH_MULTIBOOT_BUSYBOX : CString := "/multiboot/sbin/busybox".toList

/-- The line in front of the path. -/
def RM : CString := PATH_MULTIBOOT_BUSYBOX ++ " rm -Rf ".toList

/-- The arguments `format_path` makes for `do_exec`. -/
def formatPath (path : CString) : List CString :=
  let buf := snprintf (PATH_MAX + 30) (RM ++ path)
  [PATH_MULTIBOOT_BUSYBOX, "sh".toList, "-c".toList, buf]

/-! ### The shell -/

/-- What `sh` does not take as it is inside a word: blanks, quotes, operators, expansions and patterns.
The characters are the tab, the end of a line, the space, `"`, `$`, `&`, `'`, `(`, `)`, `*`, `;`, `<`,
`>`, `?`, `[`, the backslash, the backquote and `|`. -/
def special : List Char :=
  [9, 10, 32, 34, 36, 38, 39, 40, 41, 42, 59, 60, 62, 63, 91, 92, 96, 124].map Char.ofNat

def ordinary (c : Char) : Bool := !special.contains c

/-- An absolute path that the shell takes as it is. -/
structure PlainWord (w : CString) : Prop where
  absolute : w.head? = some '/'
  notRoot : stripSlashes w ≠ []
  plain : w.all ordinary = true

/-- The entry is one that `*` finds. -/
def Visible (t : FileTree) (D : Place) (n : List Char) : Prop :=
  (t.kind (D ++ [n])).isSome ∧ n.head? ≠ some '.'

/-- A program that runs `busybox sh -c` on a tree of files.  Of a plain word behind `rm -Rf` it makes one
argument; of a pattern the entries it finds, in some order, and if there are none the pattern itself,
which is then the name of nothing. -/
structure PosixShell where
  exec : List CString → FileTree → FileTree
  rm_word : ∀ {w}, PlainWord w → ∀ t,
    exec [PATH_MULTIBOOT_BUSYBOX, "sh".toList, "-c".toList, RM ++ w] t = t.rm w
  rm_pattern : ∀ {w}, PlainWord w → ∀ t, ∃ ns : List CString,
    (∀ D, t.DirAt w D → ∀ n, n ∈ ns ↔ Visible t D n) ∧
    exec [PATH_MULTIBOOT_BUSYBOX, "sh".toList, "-c".toList, RM ++ (w ++ "/*".toList)] t =
      rmEntries w ns t

/-! ### The line -/

/-- The directory of a record whose name is too long, as `rm` gets it. -/
def cutName (d : CString) : CString := (d ++ ['/']).take (PATH_MAX - 2)

theorem formatPath_eq (path : CString) : formatPath path =
    [PATH_MULTIBOOT_BUSYBOX, "sh".toList, "-c".toList, RM ++ path.take (PATH_MAX - 2)] := by
  have hlen : RM.length = 31 := by decide
  rw [formatPath, snprintf, List.take_append, hlen, List.take_of_length_le (by rw [hlen]; decide)]
  rfl

theorem formatPath_wipePath {r : FstabRec} {d : CString} (hd : r.replacementDevice = some d) :
    formatPath (wipePath r) = [PATH_MULTIBOOT_BUSYBOX, "sh".toList, "-c".toList,
      RM ++ (d ++ "/*".toList).take (PATH_MAX - 2)] := by
  rw [formatPath_eq, wipePath, hd, snprintf, List.take_take]
  rfl

theorem formatPath_of_short {r : FstabRec} {d : CString} (hd : r.replacementDevice = some d)
    (hlen : d.length + 3 < PATH_MAX) : formatPath (wipePath r) =
      [PATH_MULTIBOOT_BUSYBOX, "sh".toList, "-c".toList, RM ++ (d ++ "/*".toList)] := by
  have hfit : (d ++ "/*".toList).length ≤ PATH_MAX - 2 := by
    have htwo : "/*".toList.length = 2 := by decide
    rw [List.length_append, htwo]
    omega
  rw [formatPath_wipePath hd, List.take_of_length_le hfit]

theorem formatPath_of_long {r : FstabRec} {d : CString} (hd : r.replacementDevice = some d)
    (hlen : PATH_MAX ≤ d.length + 3) : formatPath (wipePath r) =
      [PATH_MULTIBOOT_BUSYBOX, "sh".toList, "-c".toList, RM ++ cutName d] := by
  have hpattern : d ++ "/*".toList = (d ++ ['/']) ++ ['*'] := by simp
  have hcut : PATH_MAX - 2 ≤ (d ++ ['/']).length := by
    rw [List.length_append, List.length_singleton]
    omega
  rw [formatPath_wipePath hd, hpattern, List.take_append_of_le_length hcut, cutName]

/-- The cut name is the name with a slash, the name, or the name without its last character. -/
theorem comps_cutName {d : CString} (hlen : d.length < PATH_MAX) (hlong : PATH_MAX ≤ d.length + 3) :
    (∃ b, comps d = comps (stripSlashes (cutName d)) ++ b) ∨
      ∃ c, c ≠ '/' ∧ d = stripSlashes (cutName d) ++ [c] := by
  by_cases hshort : d.length + 2 ≤ PATH_MAX
  · have hstrip : stripSlashes (cutName d) = stripSlashes d := by
      rw [cutName]
      by_cases hall : (d ++ ['/']).length ≤ PATH_MAX - 2
      · rw [List.take_of_length_le hall, stripSlashes_append_slash]
      · rw [List.length_append, List.length_singleton] at hall
        rw [List.take_append_of_le_length (by omega), List.take_of_length_le (by omega)]
    rw [hstrip]
    exact Or.inl (comps_stripSlashes d)
  · have hne : d ≠ [] := by
      rintro rfl
      simp [PATH_MAX] at hlong
    have hcut : cutName d = d.dropLast := by
      rw [cutName, List.take_append_of_le_length (by omega), List.dropLast_eq_take]
      congr 1
      omega
    have h := comps_concat_stripSlashes d.dropLast (d.getLast hne)
    rwa [List.dropLast_append_getLast hne, ← hcut] at h

/-! ### The directories -/

/-- Where the directories of the records lie. -/
def MNT : CString := "/multiboot/mnt/".toList

theorem bindDir_of_setup {params : BootParams} {env : SetupEnv} {data : ModuleData}
    (h : setup params env = some data) {r : FstabRec} (hr : r ∈ lookupRecs data)
    (hb : r.replacementBind = true) {d : CString} (hd : r.replacementDevice = some d) :
    MNT <+: d ∧ d.length < PATH_MAX := by
  rcases lookupRecs_of_setup h hr with ⟨junk, mountPoint, mp, p, hmp, rfl⟩ | ⟨i, hi⟩
  · have hmount : ∀ text ∈ [PATH_MOUNTPOINT_SOURCE, PATH_MOUNTPOINT_GRUB],
        MNT <+: text ∧ text.length < PATH_MAX := by decide
    obtain rfl : mountPoint = d := Option.some.inj hd
    exact hmount mountPoint hmp
  · have hp := placed_of_setup h hi
    have hbind : r.fsType ∈ bindTypes := by
      by_contra himage
      rw [(hp.image himage).1] at hb
      cases hb
    obtain ⟨-, hdir, -⟩ := hp.bind hbind
    obtain rfl := Option.some.inj (hdir.symm.trans hd)
    have hmnt : MNT <+: dirText data.multibootPath r := by
      have hsource : MNT <+: PATH_MOUNTPOINT_SOURCE := by decide
      rw [dirText, List.append_assoc]
      exact hsource.trans (List.prefix_append _ _)
    have hmax : MNT.length ≤ PATH_MAX - 1 := by decide
    refine ⟨List.prefix_take_iff.mpr ⟨hmnt, hmax⟩, ?_⟩
    have hpos : 0 < PATH_MAX := by decide
    rw [snprintf, List.length_take]
    omega

/-- What begins like the directory of a record is a plain word, if its characters are ordinary. -/
theorem plainWord_of_mnt {w : CString} (hmnt : MNT <+: w) (hord : w.all ordinary = true) :
    PlainWord w := by
  obtain ⟨l, rfl⟩ := hmnt
  refine ⟨rfl, fun hnil => ?_, hord⟩
  have hmem : 'm' ∈ MNT ++ l := List.mem_append_left l (by decide)
  rw [stripSlashes, List.rdropWhile_eq_nil_iff] at hnil
  exact absurd (hnil 'm' hmem) (by decide)

/-! ### The wipe -/

/-- The name of the directory fits, it has no hidden entry, and the way to it does not go through one
of its entries. -/
def Emptied (t : FileTree) (d : CString) : Prop :=
  d.length + 3 < PATH_MAX ∧
    ∃ D, t.DirAt d D ∧ (∀ n, (t.kind (D ++ [n])).isSome → n.head? ≠ some '.') ∧ (t.clear D).DirAt d D

/-- The name of the directory is cut, the cut name stands for nothing, and the directory is empty. -/
def EmptyBefore (t : FileTree) (d : CString) : Prop :=
  PATH_MAX ≤ d.length + 3 ∧
    ∃ D, t.DirAt d D ∧ (∀ n, t.kind (D ++ [n]) = none) ∧ ∀ p, ¬ t.Names (stripSlashes (cutName d)) p

theorem wiped_of_short (sh : PosixShell) (t : FileTree) {r : FstabRec} {d : CString}
    (hd : r.replacementDevice = some d) (hword : PlainWord d) (hlen : d.length + 3 < PATH_MAX) :
    t.Wiped (sh.exec (formatPath (wipePath r)) t) d ↔ Emptied t d := by
  obtain ⟨ns, hns, hexec⟩ := sh.rm_pattern hword t
  rw [formatPath_of_short hd hlen, hexec, wiped_rmEntries_iff hns]
  exact (and_iff_right hlen).symm

theorem wiped_of_long (sh : PosixShell) (t : FileTree) {r : FstabRec} {d : CString}
    (hd : r.replacementDevice = some d) (hword : PlainWord (cutName d)) (hlen : d.length < PATH_MAX)
    (hlong : PATH_MAX ≤ d.length + 3) :
    t.Wiped (sh.exec (formatPath (wipePath r)) t) d ↔ EmptyBefore t d := by
  rw [formatPath_of_long hd hlong, sh.rm_word hword, wiped_rm_iff (comps_cutName hlen hlong)]
  exact (and_iff_right hlong).symm

/-- **When a wipe empties exactly the directory.**  If the name of the directory has only ordinary
characters, the wipe of a bind record leaves it as an empty directory and changes nothing elsewhere
exactly if it fits and has no hidden entry, or it is empty before and its cut name stands for nothing. -/
theorem wipe_empties_iff (params : BootParams) (env : SetupEnv) (data : ModuleData)
    (hsetup : setup params env = some data) (r : FstabRec) (hr : r ∈ lookupRecs data)
    (hb : r.replacementBind = true) (d : CString) (hd : r.replacementDevice = some d)
    (hord : d.all ordinary = true) (sh : PosixShell) (t : FileTree) :
    t.Wiped (sh.exec (formatPath (wipePath r)) t) d ↔ Emptied t d ∨ EmptyBefore t d := by
  obtain ⟨hmnt, hlen⟩ := bindDir_of_setup hsetup hr hb hd
  by_cases hshort : d.length + 3 < PATH_MAX
  · rw [wiped_of_short sh t hd (plainWord_of_mnt hmnt hord) hshort, or_iff_left]
    rintro ⟨hlong, -⟩
    omega
  · rw [Nat.not_lt] at hshort
    have hcut : PlainWord (cutName d) := by
      refine plainWord_of_mnt ?_ (List.all_eq_true.mpr fun c hc => ?_)
      · exact List.prefix_take_iff.mpr ⟨hmnt.trans (List.prefix_append _ _), by decide⟩
      · rcases List.mem_append.mp (List.mem_of_mem_take hc) with hc | hc
        · exact List.all_eq_true.mp hord c hc
        · rw [List.mem_singleton.mp hc]
          decide
    rw [wiped_of_long sh t hd hcut hlen hshort, or_iff_right]
    rintro ⟨hfit, -⟩
    omega

/-! ### The cache partition of a small boot -/

open Classical in
/-- What `*` finds in the directory. -/
noncomputable def globNames (t : FileTree) (w : CString) : List CString :=
  if h : ∃ D, t.DirAt w D then
    (t.finite h.choose).toFinset.toList.filter fun n => n.head? ≠ some '.'
  else []

theorem mem_globNames_iff {t : FileTree} {w : CString} {D : Place} (hD : t.DirAt w D) (n : CString) :
    n ∈ globNames t w ↔ Visible t D n := by
  have h : ∃ D, t.DirAt w D := ⟨D, hD⟩
  have hsame : h.choose = D := h.choose_spec.unique hD
  rw [globNames, dif_pos h, Visible, ← hsame]
  simp

/-- A shell for these two lines. -/
noncomputable def demoShell : PosixShell where
  exec argv t :=
    let arg := (argv.getD 3 []).drop RM.length
    if arg.all ordinary then t.rm arg
    else rmEntries arg.dropLast.dropLast (globNames t arg.dropLast.dropLast) t
  rm_word {w} hw t := by
    simp only [List.getD_cons_succ, List.getD_cons_zero, List.drop_left]
    exact if_pos hw.plain
  rm_pattern {w} hw t := by
    have hdrop : (w ++ "/*".toList).dropLast.dropLast = w := by simp
    refine ⟨globNames t w, fun D hD n => mem_globNames_iff hD n, ?_⟩
    simp only [List.getD_cons_succ, List.getD_cons_zero, List.drop_left]
    rw [if_neg, hdrop]
    intro hall
    exact absurd (List.all_eq_true.mp hall '*' (by simp)) (by decide)

/-- A directory with one file in it. -/
def oneFile (D : Place) (hD : ∀ c ∈ D, IsName c) (n : List Char) (hn : IsName n) : FileTree where
  kind q := if q <+: D then some .dir else if q = D ++ [n] then some .file else none
  root := if_pos D.nil_prefix
  parent {q c} h := by
    refine if_pos ?_
    split_ifs at h with hq hq
    · exact (List.prefix_append q [c]).trans hq
    · rw [(List.append_singleton_inj.mp hq).1]
    · cases h
  named {q c} h := by
    split_ifs at h with hq hq
    · exact hD c (hq.subset (by simp))
    · rwa [(List.append_singleton_inj.mp hq).2]
    · cases h
  finite q := by
    refine (List.finite_toSet (n :: D)).subset fun c hc => ?_
    simp only [Set.mem_ofPred_eq] at hc ⊢
    split_ifs at hc with hq hq
    · exact List.mem_cons_of_mem _ (hq.subset (by simp))
    · rw [(List.append_singleton_inj.mp hq).2]
      exact List.mem_cons_self
    · cases hc

section

variable {D : Place} {hD : ∀ c ∈ D, IsName c} {n : List Char} {hn : IsName n}

theorem oneFile_entry {m : List Char} (h : ((oneFile D hD n hn).kind (D ++ [m])).isSome) : m = n := by
  simp only [oneFile] at h
  split_ifs at h with hq hq
  · have hlen := hq.length_le
    rw [List.length_append, List.length_singleton] at hlen
    omega
  · exact (List.append_singleton_inj.mp hq).2
  · cases h

theorem oneFile_dirAt {s : List Char} (hs : comps s = [] :: D) : (oneFile D hD n hn).DirAt s D :=
  dirAt_of_dirs hs hD fun _ hl => if_pos hl

theorem oneFile_clear_dirAt {s : List Char} (hs : comps s = [] :: D) :
    ((oneFile D hD n hn).clear D).DirAt s D := by
  refine dirAt_of_dirs hs hD fun l hl => ?_
  rw [kind_clear hl.length_le]
  exact if_pos hl

end

def CACHE_DIR : CString := "/multiboot/mnt/source/android/cache".toList

def CACHE_PLACE : Place :=
  ["multiboot".toList, "mnt".toList, "source".toList, "android".toList, "cache".toList]

/-- The directory of the cache partition with one file. -/
def cacheTree (n : List Char) (hn : IsName n) : FileTree := oneFile CACHE_PLACE (by decide) n hn

theorem exists_cacheRec : ∃ r ∈ lookupRecs demoData, r.replacementBind = true ∧
    r.replacementDevice = some CACHE_DIR := by decide

theorem wipe_empties_cache : ∃ r ∈ lookupRecs demoData,
    (cacheTree "journal".toList (by decide)).Wiped
      (demoShell.exec (formatPath (wipePath r)) (cacheTree "journal".toList (by decide)))
      CACHE_DIR := by
  obtain ⟨r, hr, hb, hd⟩ := exists_cacheRec
  refine ⟨r, hr, ?_⟩
  refine (wipe_empties_iff demoParams demoEnv demoData rfl r hr hb CACHE_DIR hd (by decide) demoShell
    (cacheTree "journal".toList (by decide))).mpr (Or.inl ⟨by decide, CACHE_PLACE, ?_, ?_, ?_⟩)
  · exact oneFile_dirAt (by decide)
  · intro n hn
    rw [oneFile_entry hn]
    decide
  · exact oneFile_clear_dirAt (by decide)

/-- A hidden file stays. -/
theorem hidden_file_stays : ∃ r ∈ lookupRecs demoData, r.replacementBind = true ∧
    r.replacementDevice = some CACHE_DIR ∧ CACHE_DIR.all ordinary = true ∧ ∀ sh : PosixShell,
      ¬ (cacheTree ".nomedia".toList (by decide)).Wiped
        (sh.exec (formatPath (wipePath r)) (cacheTree ".nomedia".toList (by decide))) CACHE_DIR := by
  obtain ⟨r, hr, hb, hd⟩ := exists_cacheRec
  have hord : CACHE_DIR.all ordinary = true := by decide
  have hmnt : MNT <+: CACHE_DIR := by decide
  refine ⟨r, hr, hb, hd, hord, fun sh hw => ?_⟩
  have hshort : CACHE_DIR.length + 3 < PATH_MAX := by decide
  obtain ⟨-, D, hD, hvisible, -⟩ :=
    (wiped_of_short sh _ hd (plainWord_of_mnt hmnt hord) hshort).mp hw
  obtain rfl : CACHE_PLACE = D := (oneFile_dirAt (by decide)).unique hD
  have hthere : ((cacheTree ".nomedia".toList (by decide)).kind
      (CACHE_PLACE ++ [".nomedia".toList])).isSome := by decide
  exact hvisible _ hthere (by decide)

end Multiboot
