import Multiboot.Records
import Multiboot.Format

/-!
# A format is detected

A child opens a stub device for writing, formats it through the descriptor, and then duplicates,
closes and replaces its descriptors.  The entry made for the descriptor keeps the superblock of the
time of the `open` (`Keeps`); while it is in the table the format is not lost, because the close that
takes it out sees the format and wipes the directory (`watching_step`).
-/

namespace Multiboot

open Lib

/-- Child `i` does not exit with a descriptor tracked on `dev`. -/
def exitsClean (i : ℕ) (dev : CString) (s : Sys) : Action → Prop
  | .exit j => j = i → ∀ k ∈ s.kids[j]?, ∀ e ∈ k.mbc.files, e.2.device ≠ some dev
  | _ => True

instance (i : ℕ) (dev : CString) (s : Sys) : ∀ a, Decidable (exitsClean i dev s a)
  | .exit _ => inferInstanceAs (Decidable (_ → _))
  | .create _ | .pre .. | .post .. | .mkfs .. | .fsck .. => inferInstanceAs (Decidable True)

/-- The conditions under which no format of `dev` by child `i` is lost. -/
def watchful (data : ModuleData) (i : ℕ) (dev : CString) (s : Sys) (a : Action) : Prop :=
  traced data s a ∧ a.calls DevCalls.ok = true ∧ exitsClean i dev s a

instance (data : ModuleData) (i : ℕ) (dev : CString) (s : Sys) (a : Action) :
    Decidable (watchful data i dev s a) := inferInstanceAs (Decidable (_ ∧ _))

/-- Child `i` closes descriptor `fd`. -/
def Action.closes (i : ℕ) (fd : ℤ) : Action → Prop
  | .pre j call args _ => j = i ∧ call = .close ∧ args.a0.toInt = fd
  | _ => False

instance (i : ℕ) (fd : ℤ) : ∀ a : Action, Decidable (a.closes i fd)
  | .pre .. => inferInstanceAs (Decidable (_ ∧ _))
  | .create _ | .post .. | .exit _ | .mkfs .. | .fsck .. => inferInstanceAs (Decidable False)

/-- The entry holds all that a close needs to see a format of `dev`, which held `before`. -/
structure Snapshot (dev : CString) (before : Disk) (fdi : FdInfo) : Prop where
  device : fdi.device = some dev
  type : fdi.fsType = some before.fsName
  buffer : before.fsName = EXT4 → fdi.fsPdata = some before.sb

/-- Child `k` has descriptor `fd` on `dev` with record `r`, and the entry `fdi` for it. -/
structure Keeps (fd : ℤ) (dev : CString) (r : FstabRec) (fdi : FdInfo) (k : Kid) : Prop where
  entry : (fd, fdi) ∈ k.mbc.files
  file : ∃ f, k.fds fd = some f ∧ f.device = dev ∧ f.record = some r

/-- The states in which a step is looked at: the invariants hold and the conditions are met. -/
def Watched (data : ModuleData) (i : ℕ) (dev : CString) (s : Sys) (a : Action) : Prop :=
  (watchful data i dev s a ∧ Followed data s) ∧ EveryKid (Tabled SameRecord) s

theorem along_watched {data : ModuleData} {i : ℕ} {dev : CString} {disks : Disks}
    {as : List Action} (hC : Along (step data) (watchful data i dev) (Sys.init disks) as) :
    Along (step data) (Watched data i dev) (Sys.init disks) as := by
  have htraced := along_followed (hC.mono fun s a h => h.1)
  have htabled := (tabled_invariant (entries_sameRecord data)).along htraced
  exact (hC.and htabled).mono fun s a h => ⟨⟨h.1, h.2.1.2⟩, h.2.2⟩

/-! ### The entry stays until it is closed -/

theorem getElem?_set_of_ne {α : Type*} {l : List α} {i j : ℕ} (h : j ≠ i) (a : α) :
    (l.set j a)[i]? = l[i]? := List.getElem?_set_ne h

theorem getElem?_set_self {α : Type*} {l : List α} {i : ℕ} {b : α} (h : l[i]? = some b) (a : α) :
    (l.set i a)[i]? = some a := by
  rw [List.getElem?_set_self (List.getElem?_eq_some_iff.mp h).1]

/-- Wipes are only added. -/
theorem step_wipes {data : ModuleData} {s s' : Sys} {a : Action} (h : step data s a = some s') :
    ∃ ws, s'.wipes = s.wipes ++ ws := by
  cases a with
  | pre i call args io =>
    obtain ⟨k, st, -, -, -, he, rfl⟩ := step_pre h
    rcases he.table with ⟨-, hw, -⟩ | ⟨fdi, was, -, -, -, -, -, hw⟩
    · exact ⟨[], hw.trans (List.append_nil _).symm⟩
    · exact ⟨_, hw⟩
  | post i ret opened io =>
    obtain ⟨k, p, st, -, -, -, he, rfl⟩ := step_post h
    exact ⟨[], he.table.2.1.trans (List.append_nil _).symm⟩
  | exit i =>
    obtain ⟨k, -, -, -, rfl⟩ := step_exit h
    exact ⟨[], (List.append_nil _).symm⟩
  | _ =>
    obtain rfl := Option.some.inj h
    exact ⟨[], (List.append_nil _).symm⟩

/-- **Step**: the descriptor and its entry stay until the close of the descriptor. -/
theorem keeps_step {data : ModuleData} {i : ℕ} {dev : CString} {fd : ℤ} {r : FstabRec}
    {fdi : FdInfo} {s s' : Sys} {a : Action} {k : Kid} (hdev : fdi.device = some dev)
    (hC : Watched data i dev s a) (hk : s.kids[i]? = some k) (hkeep : Keeps fd dev r fdi k)
    (hclose : ¬ a.closes i fd) (h : step data s a = some s') :
    ∃ k', s'.kids[i]? = some k' ∧ Keeps fd dev r fdi k' := by
  cases a with
  | create inherited =>
    obtain rfl := Option.some.inj h
    refine ⟨k, ?_, hkeep⟩
    rw [List.getElem?_append_left (List.getElem?_eq_some_iff.mp hk).1]
    exact hk
  | pre j call args io =>
    obtain ⟨kj, st, hkj, -, -, he, rfl⟩ := step_pre h
    by_cases hji : j = i
    · subst hji
      obtain rfl := Option.some.inj (hk.symm.trans hkj)
      refine ⟨_, getElem?_set_self hk _, ?_, hkeep.file⟩
      rw [Kid.mbc_entered]
      rcases he.table with ⟨hfiles, -⟩ | ⟨fdi', was, hcall, -, -, hfiles, -, -⟩
      · rw [hfiles]
        exact hkeep.entry
      · rw [hfiles]
        exact mem_llDel_of_ne hkeep.entry fun he => hclose ⟨rfl, hcall, he.symm⟩
    · exact ⟨k, (getElem?_set_of_ne hji _).trans hk, hkeep⟩
  | post j ret opened io =>
    obtain ⟨kj, p, st, hkj, -, hp, he, rfl⟩ := step_post h
    by_cases hji : j = i
    · subst hji
      obtain rfl := Option.some.inj (hk.symm.trans hkj)
      refine ⟨_, getElem?_set_self hk _, ?_, ?_⟩
      · rw [Kid.mbc_left]
        obtain ⟨-, -, ⟨hfiles, -⟩ | ⟨path, fdi', hadd⟩⟩ := he.table
        · rw [hfiles]
          exact hkeep.entry
        · rw [hadd.files]
          exact List.mem_append_left _ hkeep.entry
      · have htraced := hC.1.1.1
        rw [Kid.fds_left, (hC.2.at hk).kernelFds_eq hp (htraced.1 k hk p hp)
          (fun hret => htraced.2.1 hret k hk p hp) opened (mem_ids_of_mem hkeep.entry)]
        exact hkeep.file
    · exact ⟨k, (getElem?_set_of_ne hji _).trans hk, hkeep⟩
  | exit j =>
    obtain ⟨kj, hkj, -, -, rfl⟩ := step_exit h
    by_cases hji : j = i
    · exact absurd hdev (hC.1.1.2.2 hji k (hji ▸ hk) _ hkeep.entry)
    · exact ⟨k, (getElem?_set_of_ne hji _).trans hk, hkeep⟩
  | mkfs dev' d =>
    obtain rfl := Option.some.inj h
    exact ⟨k, hk, hkeep⟩
  | fsck dev' t =>
    obtain rfl := Option.some.inj h
    exact ⟨k, hk, hkeep⟩

/-- The close of the descriptor sees the format and wipes the directory. -/
theorem close_wipes {data : ModuleData} {i : ℕ} {dev : CString} {fd : ℤ} {r : FstabRec}
    {fdi : FdInfo} {s s' : Sys} {a : Action} {k : Kid} {before : Disk}
    (hsnap : Snapshot dev before fdi) (hfmt : before.showsFormat (s.disks dev))
    (hC : Watched data i dev s a) (hk : s.kids[i]? = some k) (hkeep : Keeps fd dev r fdi k)
    (hclose : a.closes i fd) (h : step data s a = some s') :
    s'.wipes = s.wipes ++ [⟨some dev, wipePath r⟩] := by
  cases a with
  | pre j call args io =>
    obtain ⟨rfl, rfl, rfl⟩ := hclose
    obtain ⟨kj, st, hkj, -, -, he, rfl⟩ := step_pre h
    obtain rfl := Option.some.inj (hk.symm.trans hkj)
    have hfind : llFind k.mbc.files args.a0.toInt = some fdi :=
      llFind_of_count_one hkeep.entry (List.nodup_iff_count_le_one.mp (hC.2.at hk).nodup _)
    obtain ⟨f, hf, -, hrec⟩ := hkeep.file
    rcases he.table with ⟨-, -, -, hnone⟩ | ⟨fdi', was, -, hf', hwas, -, -, hw⟩
    · exact absurd (hfind.symm.trans (hnone rfl)) (by simp)
    · obtain rfl := Option.some.inj (hfind.symm.trans hf')
      have hok : io.close.ok = true := by
        have hcalls := hC.1.1.2.1
        simp only [Action.calls, Bool.and_eq_true] at hcalls
        exact hcalls.2
      have htrue : fsWasFormat io.close s.disks fdi = some true :=
        fsWasFormat_of_showsFormat hsnap.device hsnap.type hsnap.buffer hok hfmt
      obtain rfl : true = was := Option.some.inj (htrue.symm.trans hwas)
      have hr : getFstabRec data io.fs fdi.filename = some r :=
        getFstabRec_eq_some_iff.mpr (hC.1.1.1.2.2 rfl k hk fdi hfind htrue f hf r hrec)
      rw [hr, hsnap.device] at hw
      exact hw
  | create _ => exact absurd hclose id
  | post _ _ _ _ => exact absurd hclose id
  | exit _ => exact absurd hclose id
  | mkfs _ _ => exact absurd hclose id
  | fsck _ _ => exact absurd hclose id

/-! ### Before and after the format -/

/-- After the format: the directory has been wiped since, or the descriptor is still tracked. -/
def Watching (i : ℕ) (fd : ℤ) (dev : CString) (r : FstabRec) (fdi : FdInfo) (d : Disk) (n : ℕ)
    (s : Sys) : Prop :=
  n ≤ s.wipes.length ∧ s.disks dev = d ∧
    (⟨some dev, wipePath r⟩ ∈ s.wipes.drop n ∨
      ∃ k, s.kids[i]? = some k ∧ Keeps fd dev r fdi k)

/-- The step leaves the device alone. -/
def leaves (data : ModuleData) (dev : CString) (s : Sys) (a : Action) : Prop :=
  ∀ s' ∈ step data s a, s'.disks dev = s.disks dev

instance (data : ModuleData) (dev : CString) (s : Sys) (a : Action) :
    Decidable (leaves data dev s a) := inferInstanceAs (Decidable (∀ s' ∈ _, _))

theorem watching_step {data : ModuleData} {i : ℕ} {dev : CString} {fd : ℤ} {r : FstabRec}
    {fdi : FdInfo} {before d : Disk} {n : ℕ} {s s' : Sys} {a : Action}
    (hsnap : Snapshot dev before fdi) (hfmt : before.showsFormat d)
    (hI : Watching i fd dev r fdi d n s) (hC : Watched data i dev s a ∧ leaves data dev s a)
    (h : step data s a = some s') : Watching i fd dev r fdi d n s' := by
  obtain ⟨hn, hd, hor⟩ := hI
  obtain ⟨ws, hws⟩ := step_wipes h
  refine ⟨?_, (hC.2 s' h).trans hd, ?_⟩
  · rw [hws, List.length_append]
    omega
  · have hdrop : s'.wipes.drop n = s.wipes.drop n ++ ws := by
      rw [hws, List.drop_append_of_le_length hn]
    rw [hdrop, List.mem_append]
    rcases hor with hw | ⟨k, hk, hkeep⟩
    · exact Or.inl (Or.inl hw)
    · by_cases hclose : a.closes i fd
      · have hwiped := close_wipes hsnap (hd ▸ hfmt) hC.1 hk hkeep hclose h
        obtain rfl := List.append_cancel_left (hws.symm.trans hwiped)
        exact Or.inl (Or.inr (List.mem_singleton_self _))
      · exact Or.inr (keeps_step hsnap.device hC.1 hk hkeep hclose h)

/-- The hook after the `open` makes the entry and its snapshot. -/
theorem open_keeps {data : ModuleData} {i : ℕ} {ret : Long} {opened : CString} {io : HookCalls}
    {s s' : Sys} {k : Kid} {p : Pending} {path dev : CString} {r : FstabRec}
    (hC : Watched data i dev s (.post i ret opened io)) (hk : s.kids[i]? = some k)
    (hp : k.inside = some p) (ho : isOpen p.call = true) (htmp : k.mbc.tmp = some path)
    (hret : 0 ≤ ret.toInt) (hrec : p.record = some r) (hpath : p.path = some dev)
    (h : step data s (.post i ret opened io) = some s') :
    ∃ fdi k', s'.kids[i]? = some k' ∧ Snapshot dev (s.disks dev) fdi ∧
      Keeps ret.toInt dev r fdi k' := by
  obtain ⟨kj, p', st, hkj, -, hp', he, rfl⟩ := step_post h
  obtain rfl := Option.some.inj (hk.symm.trans hkj)
  obtain rfl := Option.some.inj (hp.symm.trans hp')
  obtain ⟨-, r', -, -, hrec', hor⟩ := (hC.1.2.2.at hk).tracked p path hp ho htmp
  obtain rfl : r = r' := Option.some.inj (hrec.symm.trans hrec')
  have hstub : r.stubDevice = some dev := by
    rcases hor with hor | hor
    · rw [hpath] at hor
      cases hor
    · rw [← hor, hpath]
  have hmem := he.mem_ids_of_open hret ho (((hC.1.2.1.at hk).inside p hp).1)
    (show k.mbc.tmp ≠ none by simp [htmp])
  have hfresh : ret.toInt ∉ ids k.mbc.files :=
    (hC.2.at hk).fresh hret (hC.1.1.1.1 k hk p hp) (hC.1.1.1.2.1 hret k hk p hp) (Or.inl ho)
  obtain ⟨-, -, ⟨hfiles, -⟩ | ⟨path', fdi, hadd⟩⟩ := he.table
  · rw [hfiles] at hmem
    exact absurd hmem hfresh
  · obtain rfl : path = path' := Option.some.inj (htmp.symm.trans hadd.tmp)
    have hmade : makeFdinfo data io.fs io.make s.disks path = some fdi := by
      have hmade := hadd.made
      rwa [madeBy, if_pos ho] at hmade
    have hr : getFstabRec data io.fs path = some r :=
      getFstabRec_eq_some_iff.mpr ((hC.1.1.1.2.2 hret k hk p hp path htmp).1 ho r hrec)
    obtain ⟨r', dev', hr', hdev', -, hfdev, -⟩ := makeFdinfo_spec hmade
    obtain rfl : r = r' := Option.some.inj (hr.symm.trans hr')
    obtain rfl : dev = dev' := Option.some.inj (hstub.symm.trans hdev')
    have hok : io.make.ok = true := by
      have hcalls := hC.1.1.2.1
      simp only [Action.calls, Bool.and_eq_true] at hcalls
      exact hcalls.1.1
    obtain ⟨htype, hbuf⟩ := makeFdinfo_of_ok hmade hfdev hok
    refine ⟨fdi, _, getElem?_set_self hk _, ⟨hfdev, htype, hbuf⟩, ?_,
      p.openFile opened, ?_, ?_, hrec⟩
    · rw [Kid.mbc_left, hadd.files]
      exact List.mem_append_right _ (List.mem_singleton_self _)
    · rw [Kid.fds_left, kernelFds_added hret (Or.inl ho), if_pos ho]
    · rw [Pending.openFile, hpath, Option.getD_some]

/-- `mke2fs` at a later time and `make_ext4fs` on a device that has been checked before show a format
if the new type is `ext4` or differs from the old one. -/
theorem showsFormat_of_mkfs {before d : Disk}
    (hfmt : (∃ ty t, d = .mke2fs ty t ∧ before.sb.sMkfsTime < t) ∨
      d = .makeExt4fs ∧ 0 < before.sb.sLastcheck)
    (hty : d.fsName = EXT4 ∨ d.fsName ≠ before.fsName) : before.showsFormat d := by
  rcases hty with hty | hty
  · refine Or.inr ⟨hty, ?_⟩
    rcases hfmt with ⟨ty, t, rfl, ht⟩ | ⟨rfl, ht⟩
    · exact Or.inl ht
    · exact Or.inr ht
  · exact Or.inl hty.symm

/-- **No format is lost.**  Child `i` is inside an `open` of the stub device `dev` for writing, which
returns descriptor `ret` for record `r`; it formats the device while it has the descriptor, and the
device is left alone from then on.  If no `dup2` or `dup3` lands on a tracked number, the child does
not exit with a descriptor tracked on the device, every lookup still finds the record chosen and the
new type is `ext4` or another one than before, then the record's directory has been wiped since the
format in every state in which the child holds no descriptor on the device. -/
theorem format_detected (data : ModuleData) (disks : Disks) (as0 as1 as2 : List Action) (i : ℕ)
    (ret : Long) (opened : CString) (io : HookCalls) (s0 s1 s2 s3 s4 : Sys) (k : Kid) (p : Pending)
    (path dev : CString) (r : FstabRec) (d : Disk)
    (h0 : run (step data) (Sys.init disks) as0 = some s0)
    (hk : s0.kids[i]? = some k) (hp : k.inside = some p) (ho : isOpen p.call = true)
    (htmp : k.mbc.tmp = some path) (hrec : p.record = some r) (hpath : p.path = some dev)
    (hret : 0 ≤ ret.toInt) (h1 : step data s0 (.post i ret opened io) = some s1)
    (h2 : run (step data) s1 as1 = some s2) (hopen : ∀ a ∈ as1, ¬ a.closes i ret.toInt)
    (h3 : step data s2 (.mkfs dev d) = some s3)
    (hfmt : (∃ ty t, d = .mke2fs ty t ∧ (s0.disks dev).sb.sMkfsTime < t) ∨
      d = .makeExt4fs ∧ 0 < (s0.disks dev).sb.sLastcheck)
    (hty : d.fsName = EXT4 ∨ d.fsName ≠ (s0.disks dev).fsName)
    (h4 : run (step data) s3 as2 = some s4) (hleaves : Along (step data) (leaves data dev) s3 as2)
    (hC : Along (step data) (watchful data i dev) (Sys.init disks)
      (as0 ++ .post i ret opened io :: (as1 ++ .mkfs dev d :: as2))) :
    ∀ k ∈ s4.kids[i]?, (∀ fd f, k.fds fd = some f → f.device ≠ dev) →
      ∃ w ∈ s4.wipes.drop s2.wipes.length, w.path = wipePath r := by
  obtain ⟨-, hC1⟩ := along_append (along_watched hC) h0
  obtain ⟨hC2, hC3⟩ := along_append (hC1.2 s1 h1) h2
  -- the entry made at the `open` is there when the device is formatted
  obtain ⟨fdi, k1, hk1, hsnap, hkeep1⟩ := open_keeps hC1.1 hk hp ho htmp hret hrec hpath h1
  have hI : ∃ k2, s2.kids[i]? = some k2 ∧ Keeps ret.toInt dev r fdi k2 :=
    run_invariant (C := fun s a => Watched data i dev s a ∧ ¬ a.closes i ret.toInt)
      (I := fun s => ∃ k, s.kids[i]? = some k ∧ Keeps ret.toInt dev r fdi k)
      (fun s a s' hs hc h => by
        obtain ⟨k', hk', hkeep'⟩ := hs
        exact keeps_step hsnap.device hc.1 hk' hkeep' hc.2 h)
      h2 (hC2.and (along_of_forall (fun a ha _ => hopen a ha) s1)) ⟨k1, hk1, hkeep1⟩
  obtain ⟨k2, hk2, hkeep2⟩ := hI
  have hstart : Watching i ret.toInt dev r fdi d s2.wipes.length s3 := by
    obtain rfl := Option.some.inj h3
    exact ⟨le_rfl, Function.update_self _ _ _, Or.inr ⟨k2, hk2, hkeep2⟩⟩
  -- from then on it is there until the directory is wiped
  obtain ⟨-, -, hend⟩ : Watching i ret.toInt dev r fdi d s2.wipes.length s4 :=
    run_invariant
      (fun s a s' hs hc h => watching_step hsnap (showsFormat_of_mkfs hfmt hty) hs hc h)
      h4 ((hC3.2 s3 h3).and hleaves) hstart
  intro k4 hk4 hnone
  rcases hend with hw | ⟨k', hk', hkeep⟩
  · exact ⟨_, hw, rfl⟩
  · obtain rfl := Option.some.inj (hk4.symm.trans hk')
    obtain ⟨f, hf, hfdev, -⟩ := hkeep.file
    exact absurd hfdev (hnone _ f hf)

/-- Child 0 goes into an `open` of the cache partition for writing. -/
def openingRun : List Action := [.create [], .pre 0 .open ⟨1, 2, 0, 0, 0, 0, 0⟩ demoIo]

/-- It closes its two descriptors after the format and exits. -/
def closingRun : List Action := closeRun 0 6 ++ closeRun 0 5 ++ [.exit 0]

theorem format_detected_closingRun : ∃ s0 s1 s2 s3 s4,
    run (step demoData) (Sys.init demoDisks) openingRun = some s0 ∧
    step demoData s0 (.post 0 5 [] demoIo) = some s1 ∧
    run (step demoData) s1 (dup2Run 0 5 6) = some s2 ∧
    step demoData s2 (.mkfs CACHE_STUB (.mke2fs EXT4 20)) = some s3 ∧
    run (step demoData) s3 closingRun = some s4 ∧
    ∃ w ∈ s4.wipes.drop s2.wipes.length,
      w.path = "/multiboot/mnt/source/android/cache/*".toList := by
  refine ⟨_, _, _, _, _, rfl, rfl, rfl, rfl, rfl, ?_⟩
  refine format_detected demoData demoDisks openingRun (dup2Run 0 5 6) closingRun 0 5 [] demoIo
    _ _ _ _ _ _ _ CACHE CACHE_STUB _ (.mke2fs EXT4 20) rfl rfl rfl rfl rfl rfl rfl (by decide) rfl
    rfl (by decide) rfl (Or.inl ⟨EXT4, 20, rfl, by decide⟩) (Or.inl rfl) rfl (by decide) (by decide)
    _ rfl ?_
  intro fd f hf
  exact absurd (show none = some f from hf) (by simp)

/-- Child 0 has formatted the cache partition through descriptor 5. -/
def formattedRun : List Action := .create [] :: openRun 0 1 5 ++ [.mkfs CACHE_STUB (.mke2fs EXT4 20)]

/-- The child exits, or puts a descriptor of the data partition in the place of descriptor 5: it has
no descriptor of the cache partition any more, and nothing has been wiped. -/
theorem format_lost :
    (∃ s, run (step demoData) (Sys.init demoDisks) (formattedRun ++ [.exit 0]) = some s ∧
      s.wipes = [] ∧ ∀ k ∈ s.kids, ∀ fd, k.fds fd = none) ∧
    ∃ s, run (step demoData) (Sys.init demoDisks)
        (formattedRun ++ openRun 0 2 6 ++ dup2Run 0 6 5) = some s ∧
      s.wipes = [] ∧ ∀ k ∈ s.kids, ∀ fd f, k.fds fd = some f → f.device = DATA_STUB := by
  refine ⟨⟨_, rfl, by decide, fun k hk fd => ?_⟩, _, rfl, by decide, fun k hk fd f hf => ?_⟩
  · obtain rfl := List.mem_singleton.mp hk
    rfl
  · obtain rfl := List.mem_singleton.mp hk
    -- `dup2` has put descriptor 6 in the place of 5
    by_cases h5 : fd = 5
    · subst h5
      obtain rfl := Option.some.inj hf
      rfl
    · by_cases h6 : fd = 6
      · subst h6
        obtain rfl := Option.some.inj hf
        rfl
      · change Function.update (Function.update (Function.update
          (fun _ => none : ℤ → Option OpenFile) 5 _) 6 _) 5 _ fd = some f at hf
        rw [Function.update_of_ne h5, Function.update_of_ne h6, Function.update_of_ne h5] at hf
        cases hf

end Multiboot
