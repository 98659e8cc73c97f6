import Multiboot.Descriptors

/-!
# A tracked descriptor keeps its record

The record of a tracked descriptor is not stored: `make_fdinfo` and `hook_close` look it up again by
the name that was opened.  `sameNumber` says of the file system that at each of these lookups the name
has the device number it had when `hook_open` looked it up.  Then they find the same record
(`steady_of_noted`): every entry describes that record's stub device, a close wipes that record's
directory, and no hook compares a missing type (`keeps_record`).
-/

namespace Multiboot

open Lib

/-- The entry describes the stub device of the record chosen for the descriptor, and has a type. -/
def SameRecord (f : OpenFile) (fdi : FdInfo) : Prop :=
  ∃ r dev, f.record = some r ∧ r.stubDevice = some dev ∧ fdi.device = some dev ∧
    fdi.fsType ≠ none

/-- At every lookup for a tracked name, the record chosen for the descriptor is still the first one
that matches the name. -/
def steady (data : ModuleData) (s : Sys) : Action → Prop
  | .pre i call args io =>
    call = .close → ∀ k ∈ s.kids[i]?, ∀ fdi ∈ llFind k.mbc.files args.a0.toInt,
      fsWasFormat io.close s.disks fdi = some true → ∀ f ∈ k.fds args.a0.toInt, ∀ r ∈ f.record,
        FirstMatch data io.fs fdi.filename r
  | .post i ret _ io =>
    0 ≤ ret.toInt → ∀ k ∈ s.kids[i]?, ∀ p ∈ k.inside, ∀ path ∈ k.mbc.tmp,
      (isOpen p.call = true → ∀ r ∈ p.record, FirstMatch data io.fs path r) ∧
      (hookOf p.call = some .dup → ∀ f ∈ k.fds p.fd, ∀ r ∈ f.record,
        FirstMatch data io.fs path r)
  | _ => True

instance (data : ModuleData) (s : Sys) : ∀ a, Decidable (steady data s a)
  | .pre .. => inferInstanceAs (Decidable (_ → _))
  | .post .. => inferInstanceAs (Decidable (_ → _))
  | .create _ | .exit _ | .mkfs .. | .fsck .. => inferInstanceAs (Decidable True)

/-- The conditions under which descriptors keep their records. -/
def traced (data : ModuleData) (s : Sys) (a : Action) : Prop :=
  kernelStep s a ∧ freshDup s a ∧ steady data s a

instance (data : ModuleData) (s : Sys) (a : Action) : Decidable (traced data s a) :=
  inferInstanceAs (Decidable (_ ∧ _))

/-- What the records rest on. -/
def Followed (data : ModuleData) (s : Sys) : Prop :=
  EveryKid Balanced s ∧ EveryKid (Opening data) s

theorem along_followed {data : ModuleData} {C : Sys → Action → Prop} {disks : Disks}
    {as : List Action} (hC : Along (step data) C (Sys.init disks) as) :
    Along (step data) (fun s a => C s a ∧ Followed data s) (Sys.init disks) as :=
  ((opening_invariant data C).along ((balanced_invariant data C).along hC)).mono
    fun _ _ h => ⟨h.1.1, h.1.2, h.2⟩

/-- What `make_fdinfo` makes of a name whose record is known. -/
theorem sameRecord_of_made {data : ModuleData} {fs : FsView} {make : DevCalls} {disks : Disks}
    {path : CString} {fdi : FdInfo} {f : OpenFile} {r : FstabRec} (hf : f.record = some r)
    (hr : FirstMatch data fs path r) (h : makeFdinfo data fs make disks path = some fdi) :
    SameRecord f fdi := by
  obtain ⟨r', dev, hr', hdev, -, hd, ht, -⟩ := makeFdinfo_spec h
  obtain rfl : r = r' := Option.some.inj ((getFstabRec_eq_some_iff.mpr hr).symm.trans hr')
  refine ⟨r, dev, hf, hdev, hd, ?_⟩
  rw [ht]
  simp

theorem entries_sameRecord (data : ModuleData) :
    Entries data (fun s a => traced data s a ∧ Followed data s) SameRecord where
  kernel h := h.1.1
  fresh h := h.1.2.1
  balanced h := h.2.1
  opened {s i ret opened io k p path fdi} hC hk hp ho htmp hret hm := by
    obtain ⟨-, r, -, -, hrec, -⟩ := (hC.2.2.at hk).tracked p path hp ho htmp
    have hr := (hC.1.2.2 hret k hk p hp path htmp).1 ho r hrec
    have hf : (p.openFile opened).record = some r := hrec
    exact sameRecord_of_made hf hr hm
  dupped {s i ret opened io k p f fdi0 fdi} hC hk hp hd htmp hret hf hE hm := by
    obtain ⟨r, -, hrec, -⟩ := hE
    have hr := (hC.1.2.2 hret k hk p hp fdi0.filename htmp).2 hd f hf r hrec
    exact sameRecord_of_made hrec hr hm

/-- What a step does with records.  A close survives and wipes only the directory of the record
chosen for its descriptor; the hook after an `open` or a duplication survives and leaves entries that
describe the records chosen for their descriptors; an exit finds a type in every entry. -/
def keepsRecord (data : ModuleData) (s : Sys) : Action → Prop
  | .pre i call args io =>
    call = .close → ∀ k ∈ s.kids[i]?, k.inside = none →
      ∃ st, runHook data io call true (s.hookSt k args io) = some (.CONTINUE, st) ∧
        ∀ w ∈ st.wipes.drop s.wipes.length, ∃ f r, k.fds args.a0.toInt = some f ∧
          f.record = some r ∧ w = ⟨r.stubDevice, wipePath r⟩
  | .post i ret opened io =>
    ∀ k ∈ s.kids[i]?, ∀ p ∈ k.inside, isOpen p.call = true ∨ hookOf p.call = some .dup →
      ∃ st, runHook data io p.call false (s.hookSt k { p.args with returnCode := ret } io) =
          some (.CONTINUE, st) ∧
        ∀ e ∈ st.mbc.files, ∃ f, kernelFds k.fds p ret.toInt opened e.1 = some f ∧
          SameRecord f e.2
  | .exit i => ∀ k ∈ s.kids[i]?, (freeFdinfoList k.mbc.files).isSome = true
  | _ => True

theorem keepsRecord_close {data : ModuleData} {s : Sys} {i : ℕ} {args : ScArgs} {io : HookCalls}
    {k : Kid} (hk : s.kids[i]? = some k) (ht : Tabled SameRecord k)
    (hC : steady data s (.pre i .close args io)) :
    ∃ st, runHook data io .close true (s.hookSt k args io) = some (.CONTINUE, st) ∧
      ∀ w ∈ st.wipes.drop s.wipes.length, ∃ f r, k.fds args.a0.toInt = some f ∧
        f.record = some r ∧ w = ⟨r.stubDevice, wipePath r⟩ := by
  have htyped : ∀ fdi, llFind k.mbc.files args.a0.toInt = some fdi → fdi.fsType ≠ none := by
    intro fdi hf
    obtain ⟨f, -, r, dev, -, -, -, hty⟩ := ht.held _ (llFind_some_mem hf)
    exact hty
  obtain ⟨st, hrun⟩ := runHook_close_isSome data io (s.hookSt k args io) htyped
  refine ⟨st, hrun, fun w hw => ?_⟩
  rcases (runHook_pre hrun).table with ⟨-, hwipes, -⟩ | ⟨fdi, was, -, hf, hwas, -, -, hwipes⟩
  · rw [hwipes, show (s.hookSt k args io).wipes = s.wipes from rfl, List.drop_length] at hw
    cases hw
  · obtain ⟨f, hfd, r, dev, hrec, hstub, hdev, -⟩ := ht.held _ (llFind_some_mem hf)
    rw [hwipes, show (s.hookSt k args io).wipes = s.wipes from rfl, List.drop_left] at hw
    cases was with
    | false => cases hw
    | true =>
      have hr := getFstabRec_eq_some_iff.mpr (hC rfl k hk fdi hf hwas f hfd r hrec)
      rw [hr] at hw
      refine ⟨f, r, hfd, hrec, ?_⟩
      rw [hstub, ← hdev]
      simpa using hw

theorem keepsRecord_of_tabled {data : ModuleData} (hprep : Prepared data) {s : Sys} {a : Action}
    (ht : EveryKid (Tabled SameRecord) s) (hC : traced data s a ∧ Followed data s) :
    keepsRecord data s a := by
  cases a with
  | pre i call args io =>
    intro hcall k hk _
    subst hcall
    exact keepsRecord_close hk (ht.at hk) hC.1.2.2
  | post i ret opened io =>
    intro k hk p hp hcall
    have hsurvive : ∀ path, k.mbc.tmp = some path → 0 ≤ ret.toInt →
        ∃ r dev, getFstabRec data io.fs path = some r ∧ r.stubDevice = some dev := by
      intro path htmp hret
      obtain ⟨hopen, hdup⟩ := hC.1.2.2 hret k hk p hp path htmp
      rcases hcall with ho | hd
      · obtain ⟨-, r, hmem, hb, hrec, -⟩ := (hC.2.2.at hk).tracked p path hp ho htmp
        obtain ⟨dev, hdev⟩ := Option.isSome_iff_exists.mp (hprep.stub hmem hb)
        exact ⟨r, dev, getFstabRec_eq_some_iff.mpr (hopen ho r hrec), hdev⟩
      · have hfind : (llFind k.mbc.files p.fd).map FdInfo.filename = some path :=
          ((ht.at hk).dupping p hp hd).symm.trans htmp
        obtain ⟨fdi, hfdi, -⟩ := Option.map_eq_some_iff.mp hfind
        obtain ⟨f, hf, r, dev, hrec, hdev, -⟩ := (ht.at hk).held _ (llFind_some_mem hfdi)
        exact ⟨r, dev, getFstabRec_eq_some_iff.mpr (hdup hd f hf r hrec), hdev⟩
    obtain ⟨st, hrun⟩ := runHook_post_isSome data io p.call
      (s.hookSt k { p.args with returnCode := ret } io) hsurvive
    obtain ⟨-, he⟩ := runHook_post hrun
    exact ⟨st, hrun, ((ht.at hk).left (entries_sameRecord data) hC hk hp he).held⟩
  | exit i =>
    intro k hk
    have hall : k.mbc.files.all (fun e => (freeFdinfo e.2).isSome) = true := by
      rw [List.all_eq_true]
      intro e he
      obtain ⟨f, -, r, dev, -, -, -, hty⟩ := (ht.at hk).held e he
      obtain ⟨t, htype⟩ := Option.ne_none_iff_exists'.mp hty
      simp [freeFdinfo, htype]
    rw [freeFdinfoList, if_pos hall]
    rfl
  | _ => trivial

/-! ### The device number of a name -/

/-- At every lookup for a tracked name, the name has the device number it had when `hook_open` looked
it up, or is missing as it was then. -/
def sameNumber (s : Sys) : Action → Prop
  | .pre i call args io =>
    call = .close → ∀ k ∈ s.kids[i]?, ∀ fdi ∈ llFind k.mbc.files args.a0.toInt,
      fsWasFormat io.close s.disks fdi = some true → ∀ f ∈ k.fds args.a0.toInt,
        io.fs.number fdi.filename = f.number
  | .post i ret _ io =>
    0 ≤ ret.toInt → ∀ k ∈ s.kids[i]?, ∀ p ∈ k.inside, ∀ path ∈ k.mbc.tmp,
      (isOpen p.call = true → io.fs.number path = p.number) ∧
      (hookOf p.call = some .dup → ∀ f ∈ k.fds p.fd, io.fs.number path = f.number)
  | _ => True

instance (s : Sys) : ∀ a, Decidable (sameNumber s a)
  | .pre .. => inferInstanceAs (Decidable (_ → _))
  | .post .. => inferInstanceAs (Decidable (_ → _))
  | .create _ | .exit _ | .mkfs .. | .fsck .. => inferInstanceAs (Decidable True)

/-- The conditions of `keeps_record`. -/
def unmoved (s : Sys) (a : Action) : Prop := kernelStep s a ∧ freshDup s a ∧ sameNumber s a

instance (s : Sys) (a : Action) : Decidable (unmoved s a) := inferInstanceAs (Decidable (_ ∧ _))

/-- The name leads to the record while it has this device number. -/
def FirstAt (data : ModuleData) (path : CString) (number : Option Dev) (r : FstabRec) : Prop :=
  ∃ fs : FsView, fs.number path = number ∧ FirstMatch data fs path r

theorem fstabRecMatches_congr {fs fs' : FsView} {path : CString}
    (h : fs.number path = fs'.number path) (r : FstabRec) :
    fstabRecMatches path r (fs.stat path) = fstabRecMatches path r (fs'.stat path) := by
  unfold FsView.number at h
  cases hs : fs.stat path with
  | error e =>
    cases hs' : fs'.stat path with
    | error e' => rfl
    | ok st' =>
      rw [hs, hs'] at h
      cases h
  | ok st =>
    cases hs' : fs'.stat path with
    | error e' =>
      rw [hs, hs'] at h
      cases h
    | ok st' =>
      rw [hs, hs'] at h
      have hdev : st.rdev = st'.rdev := Option.some.inj h
      simp only [fstabRecMatches, hdev]

/-- What is looked up depends on the file system only through the number. -/
theorem FirstAt.firstMatch {data : ModuleData} {path : CString} {number : Option Dev} {r : FstabRec}
    (h : FirstAt data path number r) {fs : FsView} (hfs : fs.number path = number) :
    FirstMatch data fs path r := by
  obtain ⟨fs', hfs', hmatch, before, after, hrecs, hbefore⟩ := h
  have hcongr := fstabRecMatches_congr (hfs.trans hfs'.symm)
  refine ⟨(hcongr r).trans hmatch, before, after, hrecs, fun r' hr' => ?_⟩
  exact (hcongr r').trans (hbefore r' hr')

/-- The hooks before an `open` note the number of the name with which the record is chosen. -/
theorem PreEffect.firstAt {data : ModuleData} {io : HookCalls} {call : Syscall} {st st' : HookSt}
    (h : PreEffect data io call st st') (ho : isOpen call = true) (hst : st.chosen = none)
    {path : CString} (htmp : st'.mbc.tmp = some path) {r : FstabRec} (hr : st'.chosen = some r) :
    FirstAt data path st'.number r := by
  have hfile := fileaccess_of_isOpen ho
  cases h with
  | quiet e hq => exact absurd hfile hq
  | closed fdi was hcall =>
    subst hcall
    cases ho
  | dupped fdi hcall =>
    rw [hcall] at hfile
    cases hfile
  | mounted e addr text bind hcall =>
    subst hcall
    cases ho
  | file row st1 _ hrow hopen hother hred =>
    have hkeep : st'.chosen = st1.chosen ∧ st'.number = st1.number ∧ st'.mbc.tmp = st1.mbc.tmp := by
      cases hred with
      | unchanged => exact ⟨rfl, rfl, rfl⟩
      | rewritten => exact ⟨rfl, rfl, rfl⟩
    rw [hkeep.1] at hr
    rw [hkeep.2.2] at htmp
    rw [hkeep.2.1]
    cases hopen ho with
    | untracked e =>
      rw [show ({ st with errno := e } : HookSt).chosen = st.chosen from rfl, hst] at hr
      cases hr
    | tracked e path' r' hw hp hr' =>
      obtain rfl := Option.some.inj hr
      obtain rfl := Option.some.inj htmp
      exact ⟨io.fs, rfl, getFstabRec_eq_some_iff.mp hr'⟩

/-- What a child inside an `open` has noted. -/
def Noted (data : ModuleData) (k : Kid) : Prop :=
  ∀ p path, k.inside = some p → isOpen p.call = true → k.mbc.tmp = some path → ∀ r ∈ p.record,
    FirstAt data path p.number r

theorem noted_invariant (data : ModuleData) (C : Sys → Action → Prop) :
    KidInvariant data C (Noted data) where
  new _ p _ hp := by cases hp
  entered {s i call args io k st} _ _ _ he _ p path hp ho htmp r hr := by
    obtain rfl := Option.some.inj hp
    exact he.firstAt ho rfl htmp hr
  left _ _ _ _ _ p _ hp := by cases hp
  gone p _ hp := by cases hp

/-- The entry is that of the record of the descriptor, and its name leads to the record. -/
def Leads (data : ModuleData) (f : OpenFile) (fdi : FdInfo) : Prop :=
  SameRecord f fdi ∧ ∀ r ∈ f.record, FirstAt data fdi.filename f.number r

theorem entries_leads (data : ModuleData) :
    Entries data (fun s a => (unmoved s a ∧ Followed data s) ∧ EveryKid (Noted data) s)
      (Leads data) where
  kernel h := h.1.1.1
  fresh h := h.1.1.2.1
  balanced h := h.1.2.1
  opened {s i ret opened io k p path fdi} hC hk hp ho htmp hret hm := by
    obtain ⟨-, r, -, -, hrec, -⟩ := (hC.1.2.2.at hk).tracked p path hp ho htmp
    have hnumber := (hC.1.1.2.2 hret k hk p hp path htmp).1 ho
    have hat := hC.2.at hk p path hp ho htmp
    have hf : (p.openFile opened).record = some r := hrec
    obtain ⟨-, -, -, -, hname, -⟩ := makeFdinfo_spec hm
    refine ⟨sameRecord_of_made hf ((hat r hrec).firstMatch hnumber) hm, ?_⟩
    rw [hname]
    exact hat
  dupped {s i ret opened io k p f fdi0 fdi} hC hk hp hd htmp hret hf hE hm := by
    obtain ⟨⟨r, -, hrec, -⟩, hat⟩ := hE
    have hnumber := (hC.1.1.2.2 hret k hk p hp fdi0.filename htmp).2 hd f hf
    obtain ⟨-, -, -, -, hname, -⟩ := makeFdinfo_spec hm
    refine ⟨sameRecord_of_made hrec ((hat r hrec).firstMatch hnumber) hm, ?_⟩
    rw [hname]
    exact hat

/-- **The lookups find the record chosen**, while the names keep their numbers. -/
theorem steady_of_noted {data : ModuleData} {s : Sys} {a : Action} (hnumber : sameNumber s a)
    (hnoted : EveryKid (Noted data) s) (ht : EveryKid (Tabled (Leads data)) s) :
    steady data s a := by
  cases a with
  | pre i call args io =>
    intro hcall k hk fdi hfdi hwas f hf r hr
    obtain ⟨f', hf', -, hat⟩ := (ht.at hk).held _ (llFind_some_mem hfdi)
    obtain rfl := Option.some.inj (hf.symm.trans hf')
    exact (hat r hr).firstMatch (hnumber hcall k hk fdi hfdi hwas f hf)
  | post i ret opened io =>
    intro hret k hk p hp path htmp
    obtain ⟨hopen, hdup⟩ := hnumber hret k hk p hp path htmp
    refine ⟨fun ho r hr => ?_, fun hd f hf r hr => ?_⟩
    · exact (hnoted.at hk p path hp ho htmp r hr).firstMatch (hopen ho)
    · have hfind : (llFind k.mbc.files p.fd).map FdInfo.filename = some path :=
        ((ht.at hk).dupping p hp hd).symm.trans htmp
      obtain ⟨fdi, hfdi, rfl⟩ := Option.map_eq_some_iff.mp hfind
      obtain ⟨f', hf', -, hat⟩ := (ht.at hk).held _ (llFind_some_mem hfdi)
      obtain rfl := Option.some.inj (hf.symm.trans hf')
      exact (hat r hr).firstMatch (hdup hd f hf)
  | _ => trivial

theorem Tabled.imp {E E' : OpenFile → FdInfo → Prop} {k : Kid} (h : Tabled E k)
    (hE : ∀ f fdi, E f fdi → E' f fdi) : Tabled E' k where
  nodup := h.nodup
  held e he := by
    obtain ⟨f, hf, hfe⟩ := h.held e he
    exact ⟨f, hf, hE f e.2 hfe⟩
  closing := h.closing
  dupping := h.dupping

/-- While the names keep their numbers, the table describes the records and the lookups find them. -/
theorem along_traced {data : ModuleData} {disks : Disks} {as : List Action}
    (hC : Along (step data) unmoved (Sys.init disks) as) :
    Along (step data) (fun s a => EveryKid (Tabled SameRecord) s ∧ traced data s a ∧ Followed data s)
      (Sys.init disks) as := by
  have hnoted := (noted_invariant data _).along (along_followed hC)
  refine ((tabled_invariant (entries_leads data)).along hnoted).mono fun s a h => ?_
  obtain ⟨⟨⟨⟨hkernel, hfresh, hnumber⟩, hfollowed⟩, hnoted⟩, ht⟩ := h
  have htabled : EveryKid (Tabled SameRecord) s := fun k hk =>
    (ht k hk).imp fun _ _ hE => hE.1
  exact ⟨htabled, ⟨hkernel, hfresh, steady_of_noted hnumber hnoted ht⟩, hfollowed⟩

/-- **A tracked descriptor keeps its record.**  In every run in which the kernel's results are
possible, no `dup2` or `dup3` lands on a tracked number and the names of tracked descriptors keep
their device numbers where they are looked up, every step keeps the records. -/
theorem keeps_record (params : BootParams) (env : SetupEnv) (data : ModuleData)
    (hsetup : setup params env = some data) (disks : Disks) (as : List Action)
    (hC : Along (step data) unmoved (Sys.init disks) as) :
    Along (step data) (keepsRecord data) (Sys.init disks) as :=
  (along_traced hC).mono fun _ _ h => keepsRecord_of_tabled (prepared_of_setup hsetup) h.1 h.2

theorem keeps_record_twoDescriptors :
    Along (step demoData) (keepsRecord demoData) (Sys.init demoDisks) twoDescriptors :=
  keeps_record demoParams demoEnv demoData rfl demoDisks twoDescriptors (by decide)

/-- Somebody has replaced the node of the cache partition by one of the source partition. -/
def movedFs : FsView := { demoFs with stat := fun _ => .ok ⟨.blk, 179, 1⟩ }

/-- A node of the cache partition under another name, while it exists. -/
def nodeIo : HookCalls :=
  { demoIo with
    mem := fun _ => some ("/dev/node".toList ++ [nul])
    fs := { demoFs with stat := fun _ => .ok ⟨.blk, 179, 2⟩ } }

/-- Cache is opened for writing and formatted, and then its node is replaced. -/
def movedRun : List Action :=
  .create [] :: openRun 0 1 5 ++ [.mkfs CACHE_STUB (.mke2fs EXT4 20),
    .pre 0 .close ⟨5, 0, 0, 0, 0, 0, 0⟩ { demoIo with fs := movedFs }]

/-- The close wipes the source partition; and the tracer does not survive an `open` of a node that is
gone when the call returns. -/
theorem moved_name_loses_record :
    (∃ s, run (step demoData) (Sys.init demoDisks) movedRun = some s ∧
      s.wipes = [⟨CACHE_STUB, "/multiboot/mnt/source/*".toList⟩]) ∧
    ∃ s, run (step demoData) (Sys.init demoDisks)
        [.create [], .pre 0 .open ⟨1, 2, 0, 0, 0, 0, 0⟩ nodeIo] = some s ∧
      ∃ k ∈ s.kids, ∃ p ∈ k.inside,
        runHook demoData demoIo p.call false (s.hookSt k { p.args with returnCode := 5 } demoIo) =
          none :=
  ⟨⟨_, rfl, by decide⟩, _, rfl, _, List.mem_singleton_self _, _, rfl, rfl⟩

end Multiboot
