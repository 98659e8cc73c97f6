import Multiboot.System
import Mathlib.Algebra.BigOperators.Group.List.Basic
import Mathlib.Algebra.Order.BigOperators.Group.List
import Mathlib.Algebra.Order.Ring.Nat

/-!
# Formats and wipes

An entry of a descriptor table is stale when its snapshot would show a format of its device.  The
`risk` of a device counts its wipes so far and its stale entries: a close turns a stale entry into at
most one wipe, a check of the file system makes no entry stale, and a snapshot that was really read
is not stale.  So only `mkfs` raises the risk of a device (`risk_step`), which gives that no wipe
happens without a format and bounds the wipes one format leads to.
-/

namespace Multiboot

open Lib

/-! ### Stale entries -/

/-- The entry's snapshot would show a format of its device. -/
def FdInfo.stale (disks : Disks) (fdi : FdInfo) : Bool :=
  match fdi.device with
  | some dev => !fdi.current (disks dev)
  | none => true

/-- Entries on `dev` that are stale. -/
def Kid.staleOn (disks : Disks) (dev : Option CString) (k : Kid) : ℕ :=
  k.mbc.files.countP fun e => e.2.device == dev && e.2.stale disks

/-- Entries on `dev`. -/
def Kid.trackedOn (dev : Option CString) (k : Kid) : ℕ :=
  k.mbc.files.countP fun e => e.2.device == dev

def Sys.staleOn (s : Sys) (dev : Option CString) : ℕ := (s.kids.map (Kid.staleOn s.disks dev)).sum

/-- The descriptors tracked on `dev`, over all children. -/
def Sys.trackedOn (s : Sys) (dev : Option CString) : ℕ := (s.kids.map (Kid.trackedOn dev)).sum

/-- The calls of `format_path` made by closes of descriptors on `dev`. -/
def Sys.wipesOn (s : Sys) (dev : Option CString) : ℕ := s.wipes.countP fun w => w.device == dev

def Sys.risk (s : Sys) (dev : Option CString) : ℕ := s.wipesOn dev + s.staleOn dev

theorem Kid.staleOn_le_trackedOn (disks : Disks) (dev : Option CString) (k : Kid) :
    k.staleOn disks dev ≤ k.trackedOn dev := by
  refine List.countP_mono_left fun e _ he => ?_
  rw [Bool.and_eq_true] at he
  exact he.1

theorem Sys.staleOn_le_trackedOn (s : Sys) (dev : Option CString) :
    s.staleOn dev ≤ s.trackedOn dev :=
  List.sum_le_sum fun k _ => k.staleOn_le_trackedOn s.disks dev

/-- If no entry on `dev` becomes stale by a change of the devices, there are no more stale ones. -/
theorem Kid.staleOn_mono {disks disks' : Disks} (dev : Option CString)
    (h : ∀ fdi : FdInfo, fdi.device = dev → fdi.stale disks' = true → fdi.stale disks = true)
    (k : Kid) : k.staleOn disks' dev ≤ k.staleOn disks dev := by
  refine List.countP_mono_left fun e _ he => ?_
  rw [Bool.and_eq_true, beq_iff_eq] at he ⊢
  exact ⟨he.1, h e.2 he.1 he.2⟩

theorem FdInfo.stale_of_checked {disks disks' : Disks} (hc : Checked disks disks') {fdi : FdInfo}
    (h : fdi.stale disks' = true) : fdi.stale disks = true := by
  cases hc with
  | same => exact h
  | fsck dev t =>
    cases hd : fdi.device with
    | none => simp [FdInfo.stale, hd]
    | some dev' =>
      simp only [FdInfo.stale, hd, Bool.not_eq_true'] at h ⊢
      by_contra hcur
      rw [Bool.not_eq_false] at hcur
      by_cases he : dev' = dev
      · subst he
        rw [Function.update_self, FdInfo.current_fsck t hcur] at h
        cases h
      · rw [Function.update_of_ne he, hcur] at h
        cases h

/-- A sound snapshot is not stale. -/
theorem makeFdinfo_not_stale {data : ModuleData} {fs : FsView} {io : DevCalls} {disks : Disks}
    {path : CString} {fdi : FdInfo} (h : makeFdinfo data fs io disks path = some fdi)
    (hs : ∀ r dev, getFstabRec data fs path = some r → r.stubDevice = some dev →
      io.sound (disks dev) = true) : fdi.stale disks = false := by
  obtain ⟨r, dev, hr, hd, -, hdev, -⟩ := makeFdinfo_spec h
  have hcur : fdi.current (disks dev) = true := makeFdinfo_current h hdev (hs r dev hr hd)
  simp [FdInfo.stale, hdev, hcur]

/-- A close that sees a format was of a stale entry. -/
theorem stale_of_fsWasFormat {io : DevCalls} {disks : Disks} {fdi : FdInfo}
    (h : fsWasFormat io disks fdi = some true)
    (hs : ∀ dev, fdi.device = some dev → io.probeSound (disks dev) = true) :
    fdi.stale disks = true := by
  cases hd : fdi.device with
  | none => simp [FdInfo.stale, hd]
  | some dev =>
    by_contra hcur
    have hcur' : fdi.current (disks dev) = true := by simpa [FdInfo.stale, hd] using hcur
    rw [fsWasFormat_of_current hd hcur' (hs dev hd)] at h
    cases h

/-! ### Sums over the children -/

theorem sum_map_set_le {α : Type*} {f g : α → ℕ} (hfg : ∀ a, g a ≤ f a) {l : List α} {i : ℕ} {a : α}
    (h : l[i]? = some a) (b : α) :
    ((l.set i b).map g).sum + f a ≤ (l.map f).sum + g b := by
  obtain ⟨hi, rfl⟩ := List.getElem?_eq_some_iff.mp h
  have h1 := ((List.set_perm_cons_eraseIdx hi b).map g).sum_eq
  have h2 := ((List.getElem_cons_eraseIdx_perm hi).map f).sum_eq
  have h3 : ((l.eraseIdx i).map g).sum ≤ ((l.eraseIdx i).map f).sum :=
    List.sum_le_sum fun a _ => hfg a
  rw [List.map_cons, List.sum_cons] at h1 h2
  omega

/-- One child trades stale entries for wipes, and devices are only checked. -/
theorem risk_set (dev : Option CString) {s : Sys} {i : ℕ} {k : Kid} (k' : Kid) {disks : Disks}
    {wipes : List Wipe} (ws : List Wipe) (hk : s.kids[i]? = some k) (hc : Checked s.disks disks)
    (hw : wipes = s.wipes ++ ws)
    (hle : ws.countP (fun w => w.device == dev) + k'.staleOn disks dev ≤ k.staleOn s.disks dev) :
    Sys.risk ⟨s.kids.set i k', disks, wipes⟩ dev ≤ s.risk dev := by
  have hsum := sum_map_set_le (g := Kid.staleOn disks dev)
    (fun k => k.staleOn_mono dev fun _ _ h => FdInfo.stale_of_checked hc h) hk k'
  simp only [Sys.risk, Sys.wipesOn, Sys.staleOn, hw, List.countP_append]
  omega

/-- The same without a wipe. -/
theorem risk_set_nil (dev : Option CString) {s : Sys} {i : ℕ} {k : Kid} (k' : Kid) {disks : Disks}
    {wipes : List Wipe} (hk : s.kids[i]? = some k) (hc : Checked s.disks disks)
    (hw : wipes = s.wipes) (hle : k'.staleOn disks dev ≤ k.staleOn s.disks dev) :
    Sys.risk ⟨s.kids.set i k', disks, wipes⟩ dev ≤ s.risk dev :=
  risk_set dev k' [] hk hc (hw.trans (List.append_nil _).symm) (by simpa using hle)

/-! ### The risk of a device -/

/-- The conditions on the device calls of a step: a snapshot holds what is on the device, and the
probe of a closed descriptor's device does not miss its type. -/
def soundCalls (data : ModuleData) (s : Sys) : Action → Prop
  | .pre i call args io =>
    call = .close → ∀ k ∈ s.kids[i]?, ∀ fdi ∈ llFind k.mbc.files args.a0.toInt,
      ∀ dev ∈ fdi.device, io.close.probeSound (s.disks dev) = true
  | .post i ret _ io =>
    0 ≤ ret.toInt → ∀ k ∈ s.kids[i]?, ∀ p ∈ k.inside, ∀ path ∈ k.mbc.tmp,
      ∀ r ∈ lookupRecs data, FirstMatch data io.fs path r → ∀ dev ∈ r.stubDevice,
        (madeBy p.call io).sound (s.disks dev) = true
  | _ => True

instance (data : ModuleData) (s : Sys) : ∀ a, Decidable (soundCalls data s a)
  | .pre .. => inferInstanceAs (Decidable (_ → _))
  | .post .. => inferInstanceAs (Decidable (_ → _))
  | .create _ | .exit _ | .mkfs .. | .fsck .. => inferInstanceAs (Decidable True)

/-- The action makes a file system on `dev`. -/
def Action.formats (dev : Option CString) : Action → Prop
  | .mkfs dev' _ => dev = some dev'
  | _ => False

instance (dev : Option CString) : ∀ a : Action, Decidable (a.formats dev)
  | .mkfs .. => inferInstanceAs (Decidable (_ = _))
  | .create _ | .pre .. | .post .. | .exit _ | .fsck .. => inferInstanceAs (Decidable False)

/-- The closed entry leaves the table, and is stale if it was wiped. -/
theorem staleOn_close (dev : Option CString) {k : Kid} {disks : Disks} {fd : ℤ} {fdi : FdInfo}
    {was : Bool} {io : DevCalls} (wiped : Option Wipe)
    (hf : llFind k.mbc.files fd = some fdi) (hw : fsWasFormat io disks fdi = some was)
    (hs : ∀ dev, fdi.device = some dev → io.probeSound (disks dev) = true)
    (hwiped : ∀ w ∈ wiped, w.device = fdi.device) :
    (if was then wiped.toList else []).countP (fun w => w.device == dev) +
      (llDel k.mbc.files fd).countP (fun e => e.2.device == dev && e.2.stale disks) ≤
    k.staleOn disks dev := by
  have hperm := (llDel_perm hf).countP_eq fun e => e.2.device == dev && e.2.stale disks
  rw [List.countP_cons] at hperm
  dsimp only at hperm
  have hcount : (if was then wiped.toList else []).countP (fun w => w.device == dev) ≤
      if (fdi.device == dev && fdi.stale disks) = true then 1 else 0 := by
    cases was with
    | false => simp
    | true =>
      rw [stale_of_fsWasFormat hw hs, Bool.and_true]
      cases wiped with
      | none => simp
      | some w =>
        have hdev : w.device = fdi.device := hwiped w rfl
        simp [hdev]
  unfold Kid.staleOn
  omega

/-- **Risk**: no step but `mkfs` on the device raises its wipes and stale entries together. -/
theorem risk_step {data : ModuleData} {dev : Option CString} {s s' : Sys} {a : Action}
    (hC : soundCalls data s a ∧ ¬ a.formats dev) (h : step data s a = some s') :
    s'.risk dev ≤ s.risk dev := by
  obtain ⟨hsound, hfmt⟩ := hC
  cases a with
  | create inherited =>
    obtain rfl := Option.some.inj h
    have hnew : (Kid.new inherited).staleOn s.disks dev = 0 := rfl
    simp [Sys.risk, Sys.wipesOn, Sys.staleOn, hnew]
  | pre i call args io =>
    obtain ⟨k, st, hk, -, -, he, rfl⟩ := step_pre h
    rcases he.table with ⟨hf, hw, hd, -⟩ | ⟨fdi, was, hcall, hf, hwas, hfiles, hd, hw⟩
    · have hkid : (k.entered call st).staleOn st.disks dev ≤ k.staleOn s.disks dev := by
        have hmono := k.staleOn_mono dev fun _ _ h => FdInfo.stale_of_checked hd h
        unfold Kid.staleOn at hmono ⊢
        rw [Kid.mbc_entered, hf]
        exact hmono
      exact risk_set_nil dev _ hk hd hw hkid
    · have hclose := staleOn_close dev
        ((getFstabRec data io.fs fdi.filename).map fun r => ⟨fdi.device, wipePath r⟩)
        hf hwas (fun dev' hdev => hsound hcall k hk fdi hf dev' hdev) (by simp)
      refine risk_set dev _ _ hk (by rw [hd]; exact .same) hw ?_
      rw [hd, Kid.staleOn, Kid.mbc_entered, hfiles]
      exact hclose
  | post i ret opened io =>
    obtain ⟨k, p, st, hk, -, hp, he, rfl⟩ := step_post h
    obtain ⟨hd, hw, hfiles⟩ := he.table
    have hkid : (k.left p ret.toInt opened st).staleOn st.disks dev ≤ k.staleOn s.disks dev := by
      rw [hd, Kid.staleOn, Kid.mbc_left]
      rcases hfiles with ⟨hf, -, -⟩ | ⟨path, fdi, hadd⟩
      · rw [hf]
        rfl
      · have hfresh : fdi.stale s.disks = false :=
          makeFdinfo_not_stale hadd.made fun r dev' hr hdev =>
            hsound hadd.ret k hk p hp path hadd.tmp r (getFstabRec_mem hr)
              (getFstabRec_eq_some_iff.mp hr) dev' hdev
        rw [hadd.files, llAdd, List.countP_append]
        simp [hfresh, Kid.staleOn, Sys.hookSt]
    exact risk_set_nil dev _ hk (by rw [hd]; exact .same) hw hkid
  | exit i =>
    obtain ⟨k, hk, -, -, rfl⟩ := step_exit h
    exact risk_set_nil dev _ hk .same rfl (Nat.zero_le _)
  | mkfs dev' d =>
    obtain rfl := Option.some.inj h
    have hmono : ∀ k ∈ s.kids, k.staleOn (Function.update s.disks dev' d) dev ≤
        k.staleOn s.disks dev := by
      intro k _
      refine k.staleOn_mono dev fun fdi hdev hst => ?_
      cases hfd : fdi.device with
      | none => simp [FdInfo.stale, hfd]
      | some dev'' =>
        have hne : dev'' ≠ dev' := by
          rintro rfl
          exact hfmt (hdev.symm.trans hfd)
        simpa [FdInfo.stale, hfd, Function.update_of_ne hne] using hst
    exact Nat.add_le_add_left (List.sum_le_sum hmono) _
  | fsck dev' t =>
    obtain rfl := Option.some.inj h
    have hmono : ∀ k ∈ s.kids, k.staleOn (Function.update s.disks dev' ((s.disks dev').fsck t)) dev ≤
        k.staleOn s.disks dev := fun k _ =>
      k.staleOn_mono dev fun _ _ hst => FdInfo.stale_of_checked (.fsck dev' t) hst
    exact Nat.add_le_add_left (List.sum_le_sum hmono) _

/-! ### No wipe without a format -/

/-- No file system is made. -/
def Action.isMkfs : Action → Bool
  | .mkfs .. => true
  | _ => false

theorem Action.not_formats_of_not_isMkfs {a : Action} (h : a.isMkfs = false)
    (dev : Option CString) : ¬ a.formats dev := by
  cases a <;> first | exact id | cases h

/-- **No wipe without a format**: in every run in which nobody makes a file system and the device
calls are sound, no close wipes a directory. -/
theorem no_wipe_without_format (data : ModuleData) (disks : Disks) (as : List Action) (s : Sys)
    (h : run (step data) (Sys.init disks) as = some s)
    (hC : Along (step data) (fun s a => soundCalls data s a ∧ a.isMkfs = false)
      (Sys.init disks) as) : s.wipes = [] := by
  by_contra hne
  obtain ⟨w, hw⟩ := List.exists_mem_of_ne_nil _ hne
  have hle : s.risk w.device ≤ (Sys.init disks).risk w.device :=
    run_le (fun s a s' hc hs => risk_step ⟨hc.1, Action.not_formats_of_not_isMkfs hc.2 _⟩ hs) h hC
  have hzero : (Sys.init disks).risk w.device = 0 := rfl
  have hpos : 0 < s.wipesOn w.device :=
    List.countP_pos_iff.mpr ⟨w, hw, by simp⟩
  have hrisk : s.wipesOn w.device ≤ s.risk w.device := Nat.le_add_right _ _
  omega

/-- The cache partition is opened for writing and closed. -/
def quietRun : List Action := .create [] :: openRun 0 1 5 ++ closeRun 0 5

theorem no_wipe_without_format_quietRun :
    ∃ s, run (step demoData) (Sys.init demoDisks) quietRun = some s ∧ s.wipes = [] := by
  refine ⟨_, rfl, ?_⟩
  exact no_wipe_without_format demoData demoDisks quietRun _ rfl (by decide)

/-- Every call succeeds but the `open` of the device in `ext2_pre`; `malloc` returned memory with an
old time stamp in it. -/
def junkIo : HookCalls :=
  { demoIo with make := { DevCalls.good with opened := .failed, junk := { sLastcheck := 11, sMkfsTime := 10 } } }

def junkRun : List Action :=
  [.create [], .pre 0 .open ⟨1, 2, 0, 0, 0, 0, 0⟩ junkIo, .post 0 5 [] junkIo] ++
    closeRun 0 5

/-- The cache directory is wiped although nobody has made a file system. -/
theorem wipe_without_format : (∀ a ∈ junkRun, a.isMkfs = false) ∧
    ∃ s, run (step demoData) (Sys.init demoDisks) junkRun = some s ∧
      s.wipes = [⟨CACHE_STUB, "/multiboot/mnt/source/android/cache/*".toList⟩] :=
  ⟨by decide, _, rfl, by decide⟩

/-! ### How many wipes a format leads to -/

/-- The calls on devices end as `ok` says. -/
def Action.calls (ok : DevCalls → Bool) : Action → Bool
  | .pre _ _ _ io | .post _ _ _ io => ok io.make && ok io.make2 && ok io.close
  | _ => true

theorem soundCalls_of_succeeds (data : ModuleData) (s : Sys) {a : Action}
    (h : a.calls DevCalls.succeeds = true) : soundCalls data s a := by
  cases a with
  | pre i call args io =>
    simp only [Action.calls, DevCalls.succeeds, Bool.and_eq_true] at h
    intro _ k _ fdi _ dev _
    rw [DevCalls.probeSound, h.2.1.1, Bool.true_or]
  | post i ret opened io =>
    simp only [Action.calls, Bool.and_eq_true] at h
    intro _ k _ p _ path _ r _ _ dev _
    refine DevCalls.sound_of_succeeds ?_ _
    unfold madeBy
    split_ifs
    · exact h.1.1
    · exact h.1.2
  | _ => trivial

/-- **One format, at most one wipe for each descriptor tracked when it happens**: after a `mkfs` and
until the next one on the device, the closes of descriptors on the device wipe at most as often as
there were descriptors tracked on it, whatever is opened, duplicated and closed in between. -/
theorem wipes_le_tracked (data : ModuleData) (dev : CString) (d : Disk) (as : List Action)
    (s s1 s2 : Sys) (hmk : step data s (.mkfs dev d) = some s1)
    (h : run (step data) s1 as = some s2)
    (hC : ∀ a ∈ as, a.calls DevCalls.succeeds = true ∧ ¬ a.formats (some dev)) :
    s2.wipesOn (some dev) ≤ s1.wipesOn (some dev) + s.trackedOn (some dev) := by
  have hle : s2.risk (some dev) ≤ s1.risk (some dev) :=
    run_le (C := fun s a => soundCalls data s a ∧ ¬ a.formats (some dev))
      (fun s a s' hc hs => risk_step hc hs) h
      (along_of_forall (fun a ha s => ⟨soundCalls_of_succeeds data s (hC a ha).1, (hC a ha).2⟩) s1)
  have htracked : s1.trackedOn (some dev) = s.trackedOn (some dev) := by
    obtain rfl := Option.some.inj hmk
    rfl
  have hstale := s1.staleOn_le_trackedOn (some dev)
  have hrisk : s2.wipesOn (some dev) ≤ s2.risk (some dev) := Nat.le_add_right _ _
  unfold Sys.risk at hle hrisk
  omega

/-- Two descriptors of the cache partition. -/
def twoOpens : List Action := .create [] :: openRun 0 1 5 ++ openRun 0 1 6

def twoCloses : List Action := closeRun 0 5 ++ closeRun 0 6

theorem wipes_le_tracked_twoCloses :
    ∃ s s1 s2, run (step demoData) (Sys.init demoDisks) twoOpens = some s ∧
      step demoData s (.mkfs CACHE_STUB (.mke2fs EXT4 20)) = some s1 ∧
      run (step demoData) s1 twoCloses = some s2 ∧
      s2.wipesOn (some CACHE_STUB) ≤ s1.wipesOn (some CACHE_STUB) + 2 := by
  refine ⟨_, _, _, rfl, rfl, rfl, ?_⟩
  exact wipes_le_tracked demoData CACHE_STUB (.mke2fs EXT4 20) twoCloses _ _ _ rfl rfl (by decide)

/-- One format of the cache partition, two wipes of its directory. -/
theorem one_format_two_wipes : (∀ a ∈ twoOpens ++ twoCloses, a.calls DevCalls.succeeds = true ∧ a.isMkfs = false) ∧
    ∃ s, run (step demoData) (Sys.init demoDisks)
        (twoOpens ++ .mkfs CACHE_STUB (.mke2fs EXT4 20) :: twoCloses) = some s ∧
      s.wipes = List.replicate 2 ⟨CACHE_STUB, "/multiboot/mnt/source/android/cache/*".toList⟩ :=
  ⟨by decide, _, rfl, by decide⟩

end Multiboot
