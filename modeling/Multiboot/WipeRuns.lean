import Multiboot.Wipe
import Multiboot.Format
import Multiboot.Records

/-!
# What a run of the tracer removes

`treeStep` runs the tracer beside a tree of files: a step hands the paths of its wipes to the shell, and
between the steps anybody may change the tree.  `lost_place` says what a run can lose: an entry that is
gone after a step was in reach of the wipe of a record whose device somebody has formatted in that run,
and the step is the close of a descriptor that was opened for writing on the record's partition.
-/

namespace Multiboot

open Lib Lib.FileTree

/-! ### The tracer beside a tree of files -/

/-- A shell that leaves a pattern alone in which `*` finds nothing because there is no such directory:
the pattern itself is then the argument of `rm -Rf`, and no file has that name. -/
structure QuietShell extends PosixShell where
  rm_nothing : ∀ {w}, PlainWord w → ∀ t, (∀ D, ¬ t.DirAt w D) →
    exec [PATH_MULTIBOOT_BUSYBOX, "sh".toList, "-c".toList, RM ++ (w ++ "/*".toList)] t = t

structure TreeSys where
  sys : Sys
  tree : FileTree

inductive TreeAction
  /-- An event the tracer takes part in, or one on the devices. -/
  | event (a : Action)
  /-- Anybody changes files, in whatever way. -/
  | world (t : FileTree)

def TreeAction.event? : TreeAction → Option Action
  | .event a => some a
  | .world _ => none

/-- The wipes one after the other. -/
def wipeAll (sh : PosixShell) (t : FileTree) (ws : List Wipe) : FileTree :=
  ws.foldl (fun t w => sh.exec (formatPath w.path) t) t

def treeStep (data : ModuleData) (sh : PosixShell) (x : TreeSys) : TreeAction → Option TreeSys
  | .event a => (step data x.sys a).map fun s =>
      ⟨s, wipeAll sh x.tree (s.wipes.drop x.sys.wipes.length)⟩
  | .world t => some { x with tree := t }

/-- The tracer goes its way whatever happens to the files. -/
theorem treeStep_projects (data : ModuleData) (sh : PosixShell) :
    Projects (treeStep data sh) (step data) TreeSys.sys TreeAction.event? := by
  intro x a x' h
  cases a with
  | event a =>
    obtain ⟨s, hs, rfl⟩ := Option.map_eq_some_iff.mp h
    exact hs
  | world t =>
    obtain rfl := Option.some.inj h
    rfl

/-- Every run of the tracer is one beside any tree. -/
theorem exists_treeRun {data : ModuleData} (sh : PosixShell) {as : List TreeAction} :
    ∀ {x : TreeSys} {s : Sys}, run (step data) x.sys (as.filterMap TreeAction.event?) = some s →
      ∃ x', run (treeStep data sh) x as = some x' ∧ x'.sys = s := by
  induction as with
  | nil =>
    intro x s h
    exact ⟨x, rfl, Option.some.inj h⟩
  | cons b as ih =>
    intro x s h
    cases b with
    | event a =>
      obtain ⟨u, hu, hrest⟩ := run_cons_iff.mp h
      obtain ⟨x', hx', hs⟩ := ih (x := ⟨u, wipeAll sh x.tree (u.wipes.drop x.sys.wipes.length)⟩) hrest
      refine ⟨x', run_cons_iff.mpr ⟨_, ?_, hx'⟩, hs⟩
      rw [treeStep, hu]
      rfl
    | world t =>
      obtain ⟨x', hx', hs⟩ := ih (x := { x with tree := t }) h
      exact ⟨x', run_cons_iff.mpr ⟨_, rfl, hx'⟩, hs⟩

/-! ### What the line of a record reaches -/

/-- The places that the line for the directory `d` can remove: what `*` finds in the directory, with all
below it; and if the name is too long, what the beginning of it stands for. -/
inductive InReach (t : FileTree) (d : CString) (q : Place) : Prop
  | entry {D l : Place} {n : List Char} (hfit : d.length + 3 < PATH_MAX) (hD : t.DirAt d D)
      (hn : n.head? ≠ some '.') (hq : q = D ++ n :: l)
  | cut {p : Place} (hlong : PATH_MAX ≤ d.length + 3) (hp : t.Names (stripSlashes (cutName d)) p)
      (hq : p <+: q)

/-- The places are gone that the removal has taken away. -/
theorem mem_of_lost {t : FileTree} {S : Set Place} {q : Place} (hq : (t.kind q).isSome)
    (hgone : (t.remove S).kind q = none) : ∃ p ∈ S, p <+: q := by
  by_contra hnot
  rw [kind_remove_of_not fun p hp _ hpq => hnot ⟨p, hp, hpq⟩] at hgone
  rw [hgone] at hq
  cases hq

/-- The directories and stub devices are below this. -/
def TOP : CString := "/multiboot/".toList

theorem plainWord_of_top {w : CString} (htop : TOP <+: w) (hord : w.all ordinary = true) :
    PlainWord w := by
  obtain ⟨l, rfl⟩ := htop
  refine ⟨rfl, fun hnil => ?_, hord⟩
  have hmem : 'm' ∈ TOP ++ l := List.mem_append_left l (by decide)
  rw [stripSlashes, List.rdropWhile_eq_nil_iff] at hnil
  exact absurd (hnil 'm' hmem) (by decide)

/-- **One wipe**: it adds and changes nothing, and what it removes was in reach. -/
theorem wipe_reach (sh : QuietShell) (t : FileTree) {r : FstabRec} {d : CString}
    (hd : r.replacementDevice = some d) (htop : TOP <+: d) (hord : d.all ordinary = true) :
    Sub (sh.exec (formatPath (wipePath r)) t) t ∧ ∀ q, (t.kind q).isSome →
      (sh.exec (formatPath (wipePath r)) t).kind q = none → InReach t d q := by
  by_cases hfit : d.length + 3 < PATH_MAX
  · have hword : PlainWord d := plainWord_of_top htop hord
    rw [formatPath_of_short hd hfit]
    by_cases hdir : ∃ D, t.DirAt d D
    · obtain ⟨D, hD⟩ := hdir
      obtain ⟨ns, hns, hexec⟩ := sh.rm_pattern hword t
      have hnames : ∀ n ∈ ns, IsName n := fun n hn => t.named ((hns D hD n).mp hn).1
      obtain ⟨S, hS, heq, -⟩ := rmEntries_spec hnames hD
      rw [hexec]
      refine ⟨rmEntries_sub d ns t, fun q hq hgone => ?_⟩
      rw [heq] at hgone
      obtain ⟨p, hp, hpq⟩ := mem_of_lost hq hgone
      obtain ⟨n, hn, rfl⟩ := hS hp
      obtain ⟨l, rfl⟩ := hpq
      exact .entry hfit hD ((hns D hD n).mp hn).2 (List.append_assoc D [n] l)
    · rw [sh.rm_nothing hword t fun D hD => hdir ⟨D, hD⟩]
      refine ⟨fun _ _ h => h, fun q hq hgone => ?_⟩
      rw [hgone] at hq
      cases hq
  · rw [Nat.not_lt] at hfit
    have hword : PlainWord (cutName d) := by
      refine plainWord_of_top ?_ (List.all_eq_true.mpr fun c hc => ?_)
      · exact List.prefix_take_iff.mpr ⟨htop.trans (List.prefix_append _ _), by decide⟩
      · rcases List.mem_append.mp (List.mem_of_mem_take hc) with hc | hc
        · exact List.all_eq_true.mp hord c hc
        · rw [List.mem_singleton.mp hc]
          decide
    rw [formatPath_of_long hd hfit, sh.rm_word hword]
    refine ⟨rm_sub t _, fun q hq hgone => ?_⟩
    obtain ⟨p, hp, hpq⟩ := mem_of_lost hq hgone
    exact .cut hfit hp hpq

/-- The directory of every record that is looked up lies there, or its image does. -/
theorem top_of_setup {params : BootParams} {env : SetupEnv} {data : ModuleData}
    (h : setup params env = some data) {r : FstabRec} (hr : r ∈ lookupRecs data) :
    ∃ d, r.replacementDevice = some d ∧ TOP <+: d := by
  rcases lookupRecs_of_setup h hr with ⟨junk, mountPoint, mp, p, hmp, rfl⟩ | ⟨i, hi⟩
  · have hmount : ∀ text ∈ [PATH_MOUNTPOINT_SOURCE, PATH_MOUNTPOINT_GRUB], TOP <+: text := by decide
    exact ⟨mountPoint, rfl, hmount mountPoint hmp⟩
  · have hp := placed_of_setup h hi
    by_cases hb : r.fsType ∈ bindTypes
    · refine ⟨_, (hp.bind hb).2.1, List.prefix_take_iff.mpr ⟨?_, by decide⟩⟩
      have hsource : TOP <+: PATH_MOUNTPOINT_SOURCE := by decide
      rw [dirText, List.append_assoc]
      exact hsource.trans (List.prefix_append _ _)
    · refine ⟨_, (hp.image hb).2, ?_⟩
      have hdev : TOP <+: PATH_MOUNTPOINT_DEV := by decide
      rw [recLoop_eq hp.bound, loopName, List.append_assoc]
      exact hdev.trans (List.prefix_append _ _)

/-! ### The wipes of a run -/

/-- Every wipe has had a format of its device before it. -/
theorem formatted_of_wipe {data : ModuleData} {disks : Disks} {as : List Action} {s : Sys}
    (h : run (step data) (Sys.init disks) as = some s)
    (hC : Along (step data) (soundCalls data) (Sys.init disks) as) {w : Wipe} (hw : w ∈ s.wipes) :
    ∃ b ∈ as, b.formats w.device := by
  by_contra hnot
  have hnone : ∀ b ∈ as, ∀ _ : Sys, ¬ b.formats w.device := fun b hb _ hf => hnot ⟨b, hb, hf⟩
  have hle : s.risk w.device ≤ (Sys.init disks).risk w.device :=
    run_le (fun s a s' hc hs => risk_step hc hs) h (hC.and (along_of_forall hnone _))
  have hzero : (Sys.init disks).risk w.device = 0 := rfl
  have hpos : 0 < s.wipesOn w.device := List.countP_pos_iff.mpr ⟨w, hw, by simp⟩
  have hrisk : s.wipesOn w.device ≤ s.risk w.device := Nat.le_add_right _ _
  omega

/-- The action closes a descriptor that was opened for writing on the partition of `r`. -/
def ClosesOn (s : Sys) (r : FstabRec) : Action → Prop
  | .pre i call args _ =>
    call = .close ∧ ∃ k ∈ s.kids[i]?, ∃ f ∈ k.fds args.a0.toInt, f.record = some r
  | _ => False

theorem not_formats_of_closesOn {s : Sys} {r : FstabRec} {a : Action} (h : ClosesOn s r a)
    (dev : Option CString) : ¬ a.formats dev := by
  cases a with
  | pre => exact id
  | _ => exact h.elim

/-- **The wipes of a step** come from the close of a descriptor, for the record it was opened on. -/
theorem new_wipe {data : ModuleData} {s s' : Sys} {a : Action}
    (ht : EveryKid (Tabled SameRecord) s) (hsteady : steady data s a) (h : step data s a = some s')
    {w : Wipe} (hw : w ∈ s'.wipes.drop s.wipes.length) :
    ∃ r ∈ lookupRecs data, w = ⟨r.stubDevice, wipePath r⟩ ∧ ClosesOn s r a := by
  have hkept : s'.wipes = s.wipes → w ∈ ([] : List Wipe) := by
    intro hsame
    rwa [hsame, List.drop_length] at hw
  cases a with
  | pre i call args io =>
    obtain ⟨k, st, hk, -, -, he, rfl⟩ := step_pre h
    rcases he.table with ⟨-, hwipes, -⟩ | ⟨fdi, was, hcall, hfdi, hwas, -, -, hwipes⟩
    · cases hkept hwipes
    · obtain ⟨f, hf, r, dev, hrec, hstub, hdev, -⟩ := (ht.at hk).held _ (llFind_some_mem hfdi)
      have hwipes' : (s.updated i (k.entered call st) st).wipes = _ := hwipes
      rw [hwipes', show (s.hookSt k args io).wipes = s.wipes from rfl, List.drop_left] at hw
      cases was with
      | false => cases hw
      | true =>
        have hfirst : FirstMatch data io.fs fdi.filename r :=
          hsteady hcall k hk fdi hfdi hwas f hf r hrec
        have hr : getFstabRec data io.fs fdi.filename = some r := getFstabRec_eq_some_iff.mpr hfirst
        rw [hr] at hw
        refine ⟨r, getFstabRec_mem hr, ?_, hcall, k, hk, f, hf, hrec⟩
        rw [hstub, ← hdev]
        simpa using hw
  | post i ret opened io =>
    obtain ⟨k, p, st, -, -, -, he, rfl⟩ := step_post h
    cases hkept he.table.2.1
  | exit i =>
    obtain ⟨k, -, -, -, rfl⟩ := step_exit h
    cases hkept rfl
  | create | mkfs | fsck =>
    obtain rfl := Option.some.inj h
    cases hkept rfl

/-! ### What is lost -/

/-- What is in reach in a smaller tree is in reach. -/
theorem InReach.of_sub {t t' : FileTree} {d : CString} {q : Place} (hsub : Sub t' t)
    (h : InReach t' d q) : InReach t d q := by
  cases h with
  | entry hfit hD hn hq => exact .entry hfit (hD.of_sub hsub) hn hq
  | cut hlong hp hq => exact .cut hlong (hp.of_sub hsub) hq

/-- **Several wipes**: what is lost was in reach of one of them. -/
theorem wipeAll_reach (sh : QuietShell) {R : FstabRec → Prop} {ws : List Wipe}
    (hws : ∀ w ∈ ws, ∃ r, R r ∧ w.path = wipePath r ∧
      ∃ d, r.replacementDevice = some d ∧ TOP <+: d ∧ d.all ordinary = true) (t : FileTree) :
    Sub (wipeAll sh.toPosixShell t ws) t ∧ ∀ q, (t.kind q).isSome →
      (wipeAll sh.toPosixShell t ws).kind q = none →
      ∃ r d, R r ∧ r.replacementDevice = some d ∧ InReach t d q := by
  induction ws generalizing t with
  | nil =>
    refine ⟨fun _ _ h => h, fun q hq hgone => ?_⟩
    rw [show wipeAll sh.toPosixShell t [] = t from rfl] at hgone
    rw [hgone] at hq
    cases hq
  | cons w ws ih =>
    obtain ⟨r, hR, hpath, d, hd, htop, hord⟩ := hws w List.mem_cons_self
    obtain ⟨hsub, hlost⟩ := wipe_reach sh t hd htop hord
    have hcons : wipeAll sh.toPosixShell t (w :: ws) =
        wipeAll sh.toPosixShell (sh.exec (formatPath (wipePath r)) t) ws := by
      rw [wipeAll, List.foldl_cons, hpath]
      rfl
    obtain ⟨hsub', hlost'⟩ := ih (fun w hw => hws w (List.mem_cons_of_mem _ hw))
      (sh.exec (formatPath (wipePath r)) t)
    rw [hcons]
    refine ⟨fun q node h => hsub q node (hsub' q node h), fun q hq hgone => ?_⟩
    by_cases hleft : (sh.exec (formatPath (wipePath r)) t).kind q = none
    · exact ⟨r, d, hR, hd, hlost q hq hleft⟩
    · obtain ⟨r', d', hR', hd', hreach⟩ := hlost' q (Option.isSome_iff_ne_none.mpr hleft) hgone
      exact ⟨r', d', hR', hd', hreach.of_sub hsub⟩

/-- **What a run of the tracer removes.**  In every run in which the names of tracked descriptors keep
their device numbers and the device calls are sound, whatever else happens to the files, a step adds
and changes no entry, and an entry that is gone after it was in reach of the wipe of a record whose
descriptor the step closes and whose device has been formatted in this run. -/
theorem lost_place (params : BootParams) (env : SetupEnv) (data : ModuleData)
    (hsetup : setup params env = some data)
    (hord : ∀ r ∈ lookupRecs data, ∀ d ∈ r.replacementDevice, d.all ordinary = true)
    (sh : QuietShell) (disks : Disks) (t : FileTree) (as : List TreeAction) (a : Action)
    (x x' : TreeSys) (h : run (treeStep data sh.toPosixShell) ⟨Sys.init disks, t⟩ as = some x)
    (hstep : treeStep data sh.toPosixShell x (.event a) = some x')
    (hC : Along (step data) (fun s a => unmoved s a ∧ soundCalls data s a) (Sys.init disks)
      (as.filterMap TreeAction.event? ++ [a])) :
    Sub x'.tree x.tree ∧ ∀ q, (x.tree.kind q).isSome → x'.tree.kind q = none →
      ∃ r d, (r ∈ lookupRecs data ∧ ClosesOn x.sys r a ∧
          ∃ b, .event b ∈ as ∧ b.formats r.stubDevice) ∧
        r.replacementDevice = some d ∧ InReach x.tree d q := by
  have hrun : run (step data) (Sys.init disks) (as.filterMap TreeAction.event?) = some x.sys :=
    run_project (treeStep_projects data sh.toPosixShell) h
  obtain ⟨s', hs', rfl⟩ := Option.map_eq_some_iff.mp hstep
  have hall : run (step data) (Sys.init disks) (as.filterMap TreeAction.event? ++ [a]) = some s' := by
    rw [run_concat, hrun]
    exact hs'
  -- the state in which the step is taken
  have htraced := along_traced (hC.mono fun _ _ h => h.1)
  obtain ⟨⟨ht, hlast, -⟩, -⟩ := (along_append htraced hrun).2
  refine wipeAll_reach sh (fun w hw => ?_) x.tree
  obtain ⟨r, hr, rfl, hcloses⟩ := new_wipe ht hlast.2.2 hs' hw
  obtain ⟨b, hb, hformats⟩ :=
    formatted_of_wipe hall (hC.mono fun _ _ h => h.2) (List.mem_of_mem_drop hw)
  obtain ⟨d, hd, htop⟩ := top_of_setup hsetup hr
  refine ⟨r, ⟨hr, hcloses, b, ?_, hformats⟩, rfl, d, hd, htop, hord r hr d hd⟩
  rcases List.mem_append.mp hb with hb | hb
  · obtain ⟨c, hc, hevent⟩ := List.mem_filterMap.mp hb
    cases c with
    | event b' =>
      obtain rfl := Option.some.inj hevent
      exact hc
    | world t => cases hevent
  · obtain rfl := List.mem_singleton.mp hb
    exact absurd hformats (not_formats_of_closesOn hcloses _)

/-- The shell for the lines of the demo finds nothing where there is no directory. -/
noncomputable def demoQuiet : QuietShell :=
  { demoShell with
    rm_nothing := by
      intro w hw t hnot
      have hdrop : (w ++ "/*".toList).dropLast.dropLast = w := by simp
      have hnames : globNames t w = [] := dif_neg fun ⟨D, hD⟩ => hnot D hD
      simp only [demoShell, List.getD_cons_succ, List.getD_cons_zero, List.drop_left]
      rw [if_neg, hdrop, hnames]
      · rfl
      · intro hall
        exact absurd (List.all_eq_true.mp hall '*' (by simp)) (by decide) }

def journalTree : FileTree := cacheTree "journal".toList (by decide)

/-- Cache is opened, its directory gets a file, and cache is formatted. -/
def journalRun : List TreeAction :=
  (Action.create [] :: openRun 0 1 5).map TreeAction.event ++
    [.world journalTree, .event (.mkfs CACHE_STUB (.mke2fs EXT4 20))]

def journalClose : Action := .pre 0 .close ⟨5, 0, 0, 0, 0, 0, 0⟩ demoIo

theorem lost_place_journal : ∃ x x',
    run (treeStep demoData demoQuiet.toPosixShell) ⟨Sys.init demoDisks, journalTree⟩ journalRun =
      some x ∧
    treeStep demoData demoQuiet.toPosixShell x (.event journalClose) = some x' ∧
    Sub x'.tree x.tree := by
  have hall : ∃ s, run (step demoData) (Sys.init demoDisks)
      ((journalRun ++ [TreeAction.event journalClose]).filterMap TreeAction.event?) = some s := ⟨_, rfl⟩
  obtain ⟨s, hs⟩ := hall
  obtain ⟨x', hx', -⟩ :=
    exists_treeRun demoQuiet.toPosixShell (x := ⟨Sys.init demoDisks, journalTree⟩) hs
  obtain ⟨x, hx, hlast⟩ := run_append.mp hx'
  obtain ⟨x'', hstep, hend⟩ := run_cons_iff.mp hlast
  obtain rfl := Option.some.inj hend
  refine ⟨x, x'', hx, hstep, ?_⟩
  exact (lost_place demoParams demoEnv demoData rfl (by decide) demoQuiet demoDisks
    journalTree journalRun journalClose x x'' hx hstep (by decide)).1

end Multiboot
