import Multiboot.Detection
import Multiboot.Lib.Handles

/-!
# What the tracer is for

To its children the tracer is a machine that hands out handles on partitions (`Handles`): opening a
redirected partition for writing makes a handle, a duplicate is one of its own, and closing a handle
wipes the partition's directory if the partition shows a format since the handle was made.  `uses`
says which of these a step of the tracer is; it looks at the calls, the kernel's results and the
record that was opened, not at tables, snapshots and names.

`tracer_refines`: a run of the tracer is one of that machine, with the same wipes in the same order.
What the machine does to some partitions depends on the uses of these only, so that goes for the
tracer as well (`wipes_isolated`).
-/

namespace Multiboot

open Lib

instance : DecidableRel Disk.showsFormat := fun _ _ => inferInstanceAs (Decidable (_ ∨ _))

/-- How a device changes. -/
inductive DiskChange
  | made (d : Disk)
  | checked (t : ℕ)
  deriving DecidableEq

def DiskChange.effect : DiskChange → Disk → Disk
  | .made d, _ => d
  | .checked t, d => d.fsck t

/-- A handle is a descriptor of a child, and belongs to the record that was opened. -/
abbrev Partitions := Handles ℕ ℤ FstabRec CString Disk

abbrev PartitionUse := Use ℕ ℤ FstabRec CString DiskChange

/-- The machine after the uses. -/
abbrev Partitions.after (v : Partitions) (us : List PartitionUse) : Partitions :=
  v.uses DiskChange.effect Disk.showsFormat us

/-! ### Steps as uses -/

/-- The stub device of the record `hook_open` has chosen for the call child `i` is inside of. -/
def Sys.chosenDevice (s : Sys) (i : ℕ) : Option CString :=
  ((s.kids[i]?.bind Kid.inside).bind Pending.record).bind FstabRec.stubDevice

/-- The file-system check of the device. -/
def checkUse (io : HookCalls) (device : Option CString) : List PartitionUse :=
  match io.fsck, device with
  | some t, some dev => [.changed dev (.checked t)]
  | _, _ => []

/-- What the kernel has done for child `i`. -/
def Pending.uses (p : Pending) (i : ℕ) (ret : ℤ) : List PartitionUse :=
  if ret < 0 then []
  else if isOpen p.call then
    (p.record.bind fun r => r.stubDevice.map fun dev => Use.opened (i, ret) r dev).toList
  else if isDup p.call then [.dupped (i, p.fd) (i, ret)]
  else []

def uses (s : Sys) (a : Action) (s' : Sys) : List PartitionUse :=
  match a with
  | .create _ => []
  | .pre i call args io =>
    if call = .close then [.closed (i, args.a0.toInt)] else checkUse io (s'.chosenDevice i)
  | .post i ret _ _ => (s.kids[i]?.bind Kid.inside).elim [] fun p => p.uses i ret.toInt
  | .exit i => [.gone i]
  | .mkfs dev d => [.changed dev (.made d)]
  | .fsck dev t => [.changed dev (.checked t)]

/-- The machine after a run of the tracer. -/
def partitions (data : ModuleData) (disks : Disks) (as : List Action) : Partitions :=
  Partitions.after (Handles.init disks) (trace (step data) uses (Sys.init disks) as)

/-! ### The tracer and the machine -/

/-- The entry `fdi` of descriptor `fd` is that of the handle `x`. -/
structure Entered (k : Kid) (fd : ℤ) (fdi : FdInfo) (x : Handle FstabRec CString Disk) : Prop where
  file : ∃ f, k.fds fd = some f ∧ f.record = some x.owner
  stub : x.owner.stubDevice = some x.device
  snapshot : Snapshot x.device x.before fdi

structure Mirrors (s : Sys) (v : Partitions) : Prop where
  disks : s.disks = v.devices
  wipes : s.wipes = v.noted.map fun x => ⟨some x.device, wipePath x.owner⟩
  held : ∀ i k, s.kids[i]? = some k → ∀ fd,
    Option.Rel (Entered k fd) (llFind k.mbc.files fd) (v.held (i, fd))
  absent : ∀ i, s.kids[i]? = none → ∀ fd, v.held (i, fd) = none

theorem Mirrors.init (disks : Disks) : Mirrors (Sys.init disks) (Handles.init disks) :=
  ⟨rfl, rfl, fun _ _ hk => (by cases hk), fun _ _ _ => rfl⟩

/-! ### The record chosen for an open -/

/-- A record is chosen for an `open` with its name stored. -/
def Chosen (k : Kid) : Prop :=
  ∀ p, k.inside = some p → p.record ≠ none → isOpen p.call = true ∧ k.mbc.tmp ≠ none

theorem checkFsNomount_none (io : HookCalls) (disks : Disks) :
    checkFsNomount io none disks = disks := by
  unfold checkFsNomount
  cases io.fsck <;> rfl

/-- The hooks before a call check the device of the record chosen. -/
theorem PreEffect.chosen {data : ModuleData} {io : HookCalls} {call : Syscall} {st st' : HookSt}
    (h : PreEffect data io call st st') (hst : st.chosen = none) :
    st'.disks = checkFsNomount io (st'.chosen.bind FstabRec.stubDevice) st.disks ∧
      (st'.chosen ≠ none → isOpen call = true ∧ st'.mbc.tmp ≠ none) := by
  have same : ∀ st2 : HookSt, st2.chosen = st.chosen → st2.disks = st.disks →
      st2.disks = checkFsNomount io (st2.chosen.bind FstabRec.stubDevice) st.disks ∧
        (st2.chosen ≠ none → isOpen call = true ∧ st2.mbc.tmp ≠ none) := by
    intro st2 hc hd
    rw [hc, hst, hd]
    exact ⟨(checkFsNomount_none io _).symm, fun h => absurd rfl h⟩
  cases h with
  | quiet e => exact same _ rfl rfl
  | file row st1 _ hrow hopen hother hred =>
    have hkeep : st'.chosen = st1.chosen ∧ st'.disks = st1.disks ∧ st'.mbc.tmp = st1.mbc.tmp := by
      cases hred <;> exact ⟨rfl, rfl, rfl⟩
    cases ho : isOpen call with
    | false =>
      obtain rfl := hother ho
      have hsame := same st' hkeep.1 hkeep.2.1
      rw [ho] at hsame
      exact hsame
    | true =>
      rw [hkeep.1, hkeep.2.1, hkeep.2.2]
      cases hopen ho with
      | untracked e =>
        have hsame := same { st with errno := e } rfl rfl
        rw [ho] at hsame
        exact hsame
      | tracked e path r =>
        refine ⟨rfl, fun _ => ⟨rfl, ?_⟩⟩
        show some path ≠ none
        exact Option.some_ne_none _
  | closed => exact same _ rfl rfl
  | dupped => exact same _ rfl rfl
  | mounted => exact same _ rfl rfl

theorem chosen_invariant (data : ModuleData) (C : Sys → Action → Prop) :
    KidInvariant data C Chosen where
  new _ p hp := by cases hp
  entered _ _ _ he _ p hp hrec := by
    obtain rfl := Option.some.inj hp
    exact (he.chosen rfl).2 hrec
  left _ _ _ _ _ p hp := by cases hp
  gone p hp := by cases hp

/-! ### The decision at a close -/

/-- With a full snapshot and no failure, `fs_was_format` is the machine's decision. -/
theorem fsWasFormat_of_ok {io : DevCalls} {disks : Disks} {fdi : FdInfo} {dev : CString}
    {before : Disk} (h : Snapshot dev before fdi) (hio : io.ok = true) :
    fsWasFormat io disks fdi = some (decide (before.showsFormat (disks dev))) := by
  by_cases hf : before.showsFormat (disks dev)
  · rw [decide_eq_true hf]
    exact fsWasFormat_of_showsFormat h.device h.type h.buffer hio hf
  · rw [decide_eq_false hf]
    simp only [DevCalls.ok, Bool.and_eq_true, beq_iff_eq] at hio
    have hs : io.probeSound (disks dev) = true := by simp [DevCalls.probeSound, hio]
    obtain ⟨hname, hcmp⟩ := not_or.mp hf
    rw [not_not] at hname
    simp only [fsWasFormat, h.device, h.type, getFstype_of_sound hs, hname, ne_eq,
      not_true_eq_false, if_false]
    by_cases he : (disks dev).fsName = EXT4
    · have hle : ¬ (before.sb.sMkfsTime < (disks dev).sb.sMkfsTime ∨
          (disks dev).sb.sLastcheck < before.sb.sLastcheck) := fun h => hcmp ⟨he, h⟩
      rw [not_or] at hle
      rw [if_pos he]
      simp only [ext2WasFormat, h.device, h.buffer (hname.trans he), hio.1.2, hio.2, if_neg hle.1,
        decide_eq_false hle.2]
    · rw [if_neg he]

/-! ### One step -/

/-- What the machine follows the tracer under: the names of tracked descriptors keep their device
numbers and no call on a device fails. -/
def undisturbed (s : Sys) (a : Action) : Prop := unmoved s a ∧ a.calls DevCalls.ok = true

instance (s : Sys) (a : Action) : Decidable (undisturbed s a) := inferInstanceAs (Decidable (_ ∧ _))

/-- The states in which a step is looked at. -/
structure Ready (data : ModuleData) (s : Sys) (a : Action) : Prop where
  calm : traced data s a ∧ a.calls DevCalls.ok = true
  followed : Followed data s
  tabled : EveryKid (Tabled SameRecord) s
  chosen : EveryKid Chosen s

theorem along_ready {data : ModuleData} {disks : Disks} {as : List Action}
    (hC : Along (step data) undisturbed (Sys.init disks) as) :
    Along (step data) (Ready data) (Sys.init disks) as := by
  have htraced := along_traced (hC.mono fun s a h => h.1)
  have hchosen := (chosen_invariant data undisturbed).along hC
  refine (htraced.and hchosen).mono fun s a h => ?_
  obtain ⟨⟨htabled, htraced, hfollowed⟩, hcalm, hchosen⟩ := h
  exact ⟨⟨htraced, hcalm.2⟩, hfollowed, htabled, hchosen⟩

/-- Child `i` goes on with `k'`; the other children stay as they are. -/
theorem Mirrors.set {s : Sys} {v w : Partitions} {i : ℕ} {k k' : Kid} {disks : Disks}
    {wipes : List Wipe} (h : Mirrors s v) (hk : s.kids[i]? = some k) (hdisks : disks = w.devices)
    (hwipes : wipes = w.noted.map fun x => ⟨some x.device, wipePath x.owner⟩)
    (hheld : ∀ fd, Option.Rel (Entered k' fd) (llFind k'.mbc.files fd) (w.held (i, fd)))
    (hother : ∀ j fd, j ≠ i → w.held (j, fd) = v.held (j, fd)) :
    Mirrors ⟨s.kids.set i k', disks, wipes⟩ w where
  disks := hdisks
  wipes := hwipes
  held j kj hj fd := by
    by_cases hji : j = i
    · subst hji
      obtain rfl := Option.some.inj ((getElem?_set_self hk k').symm.trans hj)
      exact hheld fd
    · rw [hother j fd hji]
      exact h.held j kj ((getElem?_set_of_ne (Ne.symm hji) k').symm.trans hj) fd
  absent j hj fd := by
    by_cases hji : j = i
    · subst hji
      cases (getElem?_set_self hk k').symm.trans hj
    · rw [hother j fd hji]
      exact h.absent j ((getElem?_set_of_ne (Ne.symm hji) k').symm.trans hj) fd

/-- The handles of a child whose tracked descriptors stay what they are. -/
theorem Mirrors.kept {s : Sys} {v : Partitions} {i : ℕ} {k : Kid} (h : Mirrors s v)
    (hk : s.kids[i]? = some k) (k' : Kid) (hfds : ∀ fd ∈ ids k.mbc.files, k'.fds fd = k.fds fd) (fd : ℤ) :
    Option.Rel (Entered k' fd) (llFind k.mbc.files fd) (v.held (i, fd)) := by
  have hrel := h.held i k hk fd
  generalize v.held (i, fd) = x at hrel
  cases hf : llFind k.mbc.files fd with
  | none =>
    rw [hf] at hrel
    cases hrel
    exact .none
  | some fdi =>
    rw [hf] at hrel
    cases hrel with
    | some hx =>
      have hsame := hfds fd (mem_ids_of_mem (llFind_some_mem hf))
      refine .some ⟨?_, hx.stub, hx.snapshot⟩
      rw [hsame]
      exact hx.file

theorem Mirrors.held_of_find {s : Sys} {v : Partitions} {i : ℕ} {k : Kid} {fd : ℤ} {fdi : FdInfo}
    (h : Mirrors s v) (hk : s.kids[i]? = some k) (hf : llFind k.mbc.files fd = some fdi) :
    ∃ x, v.held (i, fd) = some x ∧ Entered k fd fdi x := by
  have hrel := h.held i k hk fd
  rw [hf] at hrel
  generalize v.held (i, fd) = y at hrel ⊢
  cases hrel with
  | some hx => exact ⟨_, rfl, hx⟩

theorem Mirrors.held_of_none {s : Sys} {v : Partitions} {i : ℕ} {k : Kid} {fd : ℤ}
    (h : Mirrors s v) (hk : s.kids[i]? = some k) (hf : llFind k.mbc.files fd = none) :
    v.held (i, fd) = none := by
  have hrel := h.held i k hk fd
  rw [hf] at hrel
  generalize v.held (i, fd) = y at hrel ⊢
  cases hrel
  rfl

theorem checkUse_next (v : Partitions) (io : HookCalls) (device : Option CString) :
    v.after (checkUse io device) =
      { v with devices := checkFsNomount io device v.devices } := by
  unfold checkUse checkFsNomount
  cases io.fsck with
  | none => rfl
  | some t =>
    cases device with
    | none => rfl
    | some dev => rfl

/-- The step before a call other than `close`. -/
theorem mirrors_pre {data : ModuleData} {s s' : Sys} {v : Partitions} {i : ℕ} {call : Syscall}
    {args : ScArgs} {io : HookCalls} (h : Mirrors s v) (hcall : call ≠ .close)
    (hstep : step data s (.pre i call args io) = some s') :
    Mirrors s' (v.after (checkUse io (s'.chosenDevice i))) := by
  obtain ⟨k, st, hk, -, -, he, rfl⟩ := step_pre hstep
  have hdev : (s.updated i (k.entered call st) st).chosenDevice i =
      st.chosen.bind FstabRec.stubDevice := by
    rw [Sys.chosenDevice, Sys.updated, getElem?_set_self hk]
    rfl
  rw [hdev, checkUse_next]
  rcases he.table with ⟨hfiles, hwipes, -⟩ | ⟨fdi, was, hclose, -⟩
  · refine h.set hk ?_ (hwipes.trans h.wipes) (fun fd => ?_) fun _ _ _ => rfl
    · rw [← h.disks]
      exact (he.chosen rfl).1
    · have hkept : Option.Rel (Entered (k.entered call st) fd) (llFind k.mbc.files fd)
          (v.held (i, fd)) := h.kept hk (k.entered call st) (fun _ _ => rfl) fd
      rw [Kid.mbc_entered, hfiles]
      exact hkept
  · exact absurd hclose hcall

/-- Before a `close` the entry of the descriptor goes, if there is one. -/
theorem PreEffect.find_close {data : ModuleData} {io : HookCalls} {st st' : HookSt}
    (h : PreEffect data io .close st st') (hnd : (ids st.mbc.files).Nodup) (fd : ℤ) :
    llFind st'.mbc.files fd =
      if fd = st.args.a0.toInt then none else llFind st.mbc.files fd := by
  rcases h.table with ⟨hfiles, -, -, hnone⟩ | ⟨fdi, was, -, -, -, hfiles, -⟩
  · rw [hfiles]
    split_ifs with hfd
    · rw [hfd]
      exact hnone rfl
    · rfl
  · rw [hfiles]
    split_ifs with hfd
    · rw [hfd]
      exact llFind_eq_none_iff.mpr (not_mem_ids_llDel hnd _)
    · exact llFind_llDel_of_ne _ hfd

/-- The step before a `close`. -/
theorem mirrors_close {data : ModuleData} {s s' : Sys} {v : Partitions} {i : ℕ} {args : ScArgs}
    {io : HookCalls} (h : Mirrors s v) (hR : Ready data s (.pre i .close args io))
    (hstep : step data s (.pre i .close args io) = some s') :
    Mirrors s' (v.next DiskChange.effect Disk.showsFormat (.closed (i, args.a0.toInt))) := by
  obtain ⟨k, st, hk, -, -, he, rfl⟩ := step_pre hstep
  have hchosen := he.chosen rfl
  have hnot : st.chosen = none := by
    by_contra hc
    cases (hchosen.2 hc).1
  rw [hnot, Option.bind_none, checkFsNomount_none] at hchosen
  refine h.set hk (hchosen.1.trans h.disks) ?_ (fun fd => ?_) fun j fd hji =>
    Function.update_of_ne (fun he => hji (Prod.mk.inj he).1) _ _
  · show _ = List.map _ (v.noted ++ (v.held _).elim [] _)
    rw [List.map_append, ← h.wipes]
    rcases he.table with ⟨-, hwipes, -, hnone⟩ | ⟨fdi, was, -, hfind, hwas, -, -, hwipes⟩
    · -- no entry, no handle
      have hempty : v.held (i, args.a0.toInt) = none := h.held_of_none hk (hnone rfl)
      rw [hempty, Option.elim_none, List.map_nil, List.append_nil]
      exact hwipes
    · replace hfind : llFind k.mbc.files args.a0.toInt = some fdi := hfind
      obtain ⟨x, hx, hentry⟩ := h.held_of_find hk hfind
      have hok : io.close.ok = true := by
        have hcalls := hR.calm.2
        simp only [Action.calls, Bool.and_eq_true] at hcalls
        exact hcalls.2
      have hwas' : fsWasFormat io.close s.disks fdi =
          some (decide (x.before.showsFormat (s.disks x.device))) :=
        fsWasFormat_of_ok hentry.snapshot hok
      obtain rfl := Option.some.inj (hwas.symm.trans hwas')
      rw [hwipes, hx, Option.elim_some, Handle.close, ← h.disks]
      by_cases hf : x.before.showsFormat (s.disks x.device)
      · -- the name still leads to the record that was opened
        rw [decide_eq_true hf] at hwas
        obtain ⟨f, hfd, hrec⟩ := hentry.file
        have hr : getFstabRec data io.fs fdi.filename = some x.owner :=
          getFstabRec_eq_some_iff.mpr (hR.calm.1.2.2 rfl k hk fdi hfind hwas f hfd _ hrec)
        rw [decide_eq_true hf, if_pos rfl, if_pos hf, hr, hentry.snapshot.device]
        rfl
      · rw [decide_eq_false hf, if_neg Bool.false_ne_true, if_neg hf]
        rfl
  · rw [Kid.mbc_entered, he.find_close (hR.tabled.at hk).nodup]
    show Option.Rel (Entered (k.entered .close st) fd)
      (if fd = args.a0.toInt then none else llFind k.mbc.files fd)
      (Function.update v.held (i, args.a0.toInt) none (i, fd))
    by_cases hfd : fd = args.a0.toInt
    · rw [if_pos hfd, hfd, Function.update_self]
      exact .none
    · rw [if_neg hfd, Function.update_of_ne fun he => hfd (Prod.mk.inj he).2]
      exact h.kept hk (k.entered .close st) (fun _ _ => rfl) fd

/-- The hook after a call adds the entry of a new handle. -/
theorem Mirrors.added {s : Sys} {v : Partitions} {i : ℕ} {k k' : Kid} {st : HookSt} {fd : ℤ}
    {fdi : FdInfo} {x : Handle FstabRec CString Disk} (h : Mirrors s v) (hk : s.kids[i]? = some k)
    (hdisks : st.disks = s.disks) (hwipes : st.wipes = s.wipes)
    (hfiles : k'.mbc.files = llAdd k.mbc.files fd fdi) (hnew : fd ∉ ids k.mbc.files)
    (hfds : ∀ fd ∈ ids k.mbc.files, k'.fds fd = k.fds fd) (hx : Entered k' fd fdi x) :
    Mirrors (s.updated i k' st) { v with held := Function.update v.held (i, fd) (some x) } := by
  refine h.set hk (hdisks.trans h.disks) (hwipes.trans h.wipes) (fun fd' => ?_) fun j fd' hji =>
    Function.update_of_ne (fun he => hji (Prod.mk.inj he).1) _ _
  show Option.Rel _ _ (Function.update v.held (i, fd) (some x) (i, fd'))
  rw [hfiles, llFind_llAdd]
  by_cases hfd : fd' = fd
  · subst hfd
    rw [Function.update_self, llFind_eq_none_iff.mpr hnew, if_pos rfl, Option.none_or]
    exact .some hx
  · rw [Function.update_of_ne fun he => hfd (Prod.mk.inj he).2, if_neg (Ne.symm hfd), Option.or_none]
    exact h.kept hk _ hfds fd'

/-- A call that makes no handle is no use of one. -/
theorem uses_of_not_added {data : ModuleData} {s : Sys} {v : Partitions} {i : ℕ} {ret : Long}
    {opened : CString} {io : HookCalls} {k : Kid} {p : Pending} {st : HookSt} (h : Mirrors s v)
    (hR : Ready data s (.post i ret opened io)) (hk : s.kids[i]? = some k) (hp : k.inside = some p)
    (he : PostEffect data io p.call (s.hookSt k { p.args with returnCode := ret } io) st)
    (hfiles : st.mbc.files = k.mbc.files)
    (hdup : hookOf p.call = some .dup → k.mbc.tmp = none ∨ ret.toInt < 0) :
    v.after (p.uses i ret.toInt) = v := by
  have ht := hR.tabled.at hk
  have hker := hR.calm.1.1 k hk p hp
  have hfresh : 0 ≤ ret.toInt → isOpen p.call = true ∨ hookOf p.call = some .dup →
      ret.toInt ∉ ids k.mbc.files := fun hret hcall =>
    ht.fresh hret hker (hR.calm.1.2.1 hret k hk p hp) hcall
  unfold Pending.uses
  split_ifs with hret ho hd
  · rfl
  · -- a record would have been chosen with a name stored, and the entry would be there
    cases hrec : p.record with
    | none => rfl
    | some r =>
      have htmp := (hR.chosen.at hk p hp (by simp [hrec])).2
      have hmem := he.mem_ids_of_open (not_lt.mp hret) ho (((hR.followed.1.at hk).inside p hp).1) htmp
      rw [hfiles] at hmem
      exact absurd hmem (hfresh (not_lt.mp hret) (Or.inl ho))
  · have hcall : hookOf p.call = some .dup := by simpa [isDup] using hd
    have htmp : k.mbc.tmp = none := (hdup hcall).resolve_right hret
    have hnone : llFind k.mbc.files p.fd = none := by
      have hname := ht.dupping p hp hcall
      rw [htmp] at hname
      exact Option.map_eq_none_iff.mp hname.symm
    have hfree := hfresh (not_lt.mp hret) (Or.inr hcall)
    show { v with held := Function.update v.held _ ((v.held _).map _) } = v
    rw [h.held_of_none hk hnone, Option.map_none,
      ← h.held_of_none hk (llFind_eq_none_iff.mpr hfree), Function.update_eq_self]
  · rfl

/-- What the machine does for an `open` with a name stored, and for a duplicate of a handle. -/
theorem uses_of_added {data : ModuleData} {s : Sys} {v : Partitions} {i : ℕ} {ret : Long}
    {opened : CString} {io : HookCalls} {k : Kid} {p : Pending} {st : HookSt} {path : CString}
    {fdi : FdInfo} (h : Mirrors s v) (hR : Ready data s (.post i ret opened io))
    (hk : s.kids[i]? = some k) (hp : k.inside = some p)
    (hadd : Added data io p.call (s.hookSt k { p.args with returnCode := ret } io) st path fdi) :
    ∃ x, Entered (k.left p ret.toInt opened st) ret.toInt fdi x ∧
      v.after (p.uses i ret.toInt) =
        { v with held := Function.update v.held (i, ret.toInt) (some x) } := by
  have hret : 0 ≤ ret.toInt := hadd.ret
  have htmp : k.mbc.tmp = some path := hadd.tmp
  have hmade : makeFdinfo data io.fs (madeBy p.call io) s.disks path = some fdi := hadd.made
  have hok : (madeBy p.call io).ok = true := by
    have hcalls := hR.calm.2
    simp only [Action.calls, Bool.and_eq_true] at hcalls
    unfold madeBy
    split_ifs
    · exact hcalls.1.1
    · exact hcalls.1.2
  have hfds : kernelFds k.fds p ret.toInt opened ret.toInt =
      if isOpen p.call then some (p.openFile opened) else k.fds p.fd :=
    kernelFds_added hret hadd.call opened
  -- the entry is of the record `r`, which the name still leads to
  have hentry : ∀ r f, kernelFds k.fds p ret.toInt opened ret.toInt = some f → f.record = some r →
      FirstMatch data io.fs path r → ∃ dev, r.stubDevice = some dev ∧
        Entered (k.left p ret.toInt opened st) ret.toInt fdi ⟨r, dev, s.disks dev⟩ := by
    intro r f hf hrec hfirst
    obtain ⟨r', dev, hr', hstub, -, hdev, -⟩ := makeFdinfo_spec hmade
    obtain rfl := Option.some.inj ((getFstabRec_eq_some_iff.mpr hfirst).symm.trans hr')
    obtain ⟨htype, hbuf⟩ := makeFdinfo_of_ok hmade hdev hok
    exact ⟨dev, hstub, ⟨f, hf, hrec⟩, hstub, hdev, htype, hbuf⟩
  have hsteady := hR.calm.1.2.2 hret k hk p hp path htmp
  rcases hadd.call with ho | ⟨ho, hd⟩
  · obtain ⟨-, r, -, -, hrec, -⟩ := (hR.followed.2.at hk).tracked p path hp ho htmp
    rw [if_pos ho] at hfds
    obtain ⟨dev, hstub, hx⟩ := hentry r _ hfds hrec (hsteady.1 ho r hrec)
    refine ⟨_, hx, ?_⟩
    rw [Pending.uses, if_neg (not_lt.mpr hret), if_pos ho, hrec, Option.bind_some, hstub, h.disks]
    rfl
  · have hname : (llFind k.mbc.files p.fd).map FdInfo.filename = some path :=
      ((hR.tabled.at hk).dupping p hp hd).symm.trans htmp
    obtain ⟨fdi0, hfind, -⟩ := Option.map_eq_some_iff.mp hname
    obtain ⟨x, hheld, hx0⟩ := h.held_of_find hk hfind
    obtain ⟨f, hf, hrec⟩ := hx0.file
    have hno : ¬ isOpen p.call = true := by simp [ho]
    rw [if_neg hno] at hfds
    obtain ⟨dev, hstub, hx⟩ := hentry x.owner f (hfds.trans hf) hrec (hsteady.2 hd f hf _ hrec)
    obtain rfl : x.device = dev := Option.some.inj (hx0.stub.symm.trans hstub)
    refine ⟨_, hx, ?_⟩
    have hdup : isDup p.call = true := by simp [isDup, hd]
    rw [Pending.uses, if_neg (not_lt.mpr hret), if_neg hno, if_pos hdup, h.disks]
    show { v with held := Function.update v.held _ ((v.held (i, p.fd)).map _) } = _
    rw [hheld]
    rfl

/-- The step after a call. -/
theorem mirrors_post {data : ModuleData} {s s' : Sys} {v : Partitions} {i : ℕ} {ret : Long}
    {opened : CString} {io : HookCalls} (h : Mirrors s v)
    (hR : Ready data s (.post i ret opened io))
    (hstep : step data s (.post i ret opened io) = some s') :
    Mirrors s' (v.after (uses s (.post i ret opened io) s')) := by
  obtain ⟨k, p, st, hk, -, hp, he, rfl⟩ := step_post hstep
  have hu : ∀ t, uses s (.post i ret opened io) t = p.uses i ret.toInt := by
    intro t
    rw [uses, hk, Option.bind_some, hp, Option.elim_some]
  rw [hu]
  have ht := hR.tabled.at hk
  have hker : kernelResult k.fds p ret.toInt := hR.calm.1.1 k hk p hp
  have hdup := fun hret => hR.calm.1.2.1 hret k hk p hp
  have hfds : ∀ fd ∈ ids k.mbc.files, (k.left p ret.toInt opened st).fds fd = k.fds fd :=
    fun fd hfd => ht.kernelFds_eq hp hker hdup opened hfd
  obtain ⟨hdisks, hwipes, ⟨hfiles, -, htmp⟩ | ⟨path, fdi, hadd⟩⟩ := he.table
  · rw [uses_of_not_added h hR hk hp he hfiles htmp]
    refine h.set hk (hdisks.trans h.disks) (hwipes.trans h.wipes) (fun fd => ?_) fun _ _ _ => rfl
    have hkept : Option.Rel (Entered (k.left p ret.toInt opened st) fd) (llFind k.mbc.files fd)
        (v.held (i, fd)) := h.kept hk _ hfds fd
    rw [Kid.mbc_left, hfiles]
    exact hkept
  · obtain ⟨x, hx, hnext⟩ := uses_of_added h hR hk hp hadd
    rw [hnext]
    exact h.added hk hdisks hwipes hadd.files
      (ht.fresh hadd.ret hker (hdup hadd.ret) (hadd.call.imp id And.right)) hfds hx

/-- **Step**: the machine follows the tracer. -/
theorem mirrors_step {data : ModuleData} {s s' : Sys} {a : Action} {v : Partitions}
    (h : Mirrors s v) (hR : Ready data s a) (hstep : step data s a = some s') :
    Mirrors s' (v.after (uses s a s')) := by
  cases a with
  | create inherited =>
    obtain rfl := Option.some.inj hstep
    refine ⟨h.disks, h.wipes, fun i k hk fd => ?_, fun i hi fd => h.absent i ?_ fd⟩
    · by_cases hi : i < s.kids.length
      · exact h.held i k ((List.getElem?_append_left hi).symm.trans hk) fd
      · -- the new child has no entries and no handles
        have hnone : s.kids[i]? = none := List.getElem?_eq_none_iff.mpr (not_lt.mp hi)
        have hmem : k ∈ [Kid.new inherited] := by
          rw [List.getElem?_append_right (not_lt.mp hi)] at hk
          exact List.mem_of_getElem? hk
        obtain rfl := List.mem_singleton.mp hmem
        show Option.Rel _ none (v.held (i, fd))
        rw [h.absent i hnone fd]
        exact .none
    · rw [List.getElem?_eq_none_iff] at hi ⊢
      rw [List.length_append] at hi
      omega
  | pre i call args io =>
    by_cases hcall : call = .close
    · subst hcall
      exact mirrors_close h hR hstep
    · rw [uses, if_neg hcall]
      exact mirrors_pre h hcall hstep
  | post i ret opened io => exact mirrors_post h hR hstep
  | exit i =>
    obtain ⟨k, hk, -, -, rfl⟩ := step_exit hstep
    refine h.set hk h.disks h.wipes (fun fd => ?_) fun j fd hji => ?_
    · show Option.Rel _ none (if i = i then none else v.held (i, fd))
      rw [if_pos rfl]
      exact .none
    · show (if j = i then none else v.held (j, fd)) = _
      rw [if_neg hji]
  | mkfs dev d =>
    obtain rfl := Option.some.inj hstep
    exact ⟨congrArg (Function.update · dev d) h.disks, h.wipes, h.held, h.absent⟩
  | fsck dev t =>
    obtain rfl := Option.some.inj hstep
    refine ⟨?_, h.wipes, h.held, h.absent⟩
    show Function.update s.disks dev ((s.disks dev).fsck t) = _
    rw [h.disks]
    rfl

/-! ### Runs -/

theorem mirrors_of_run {data : ModuleData} {disks : Disks} {as : List Action} {s : Sys}
    (h : run (step data) (Sys.init disks) as = some s)
    (hC : Along (step data) undisturbed (Sys.init disks) as) : Mirrors s (partitions data disks as) :=
  run_trace (C := Ready data) (f := uses) (R := Mirrors)
    (fun _ _ _ _ hm hR hs => mirrors_step hm hR hs) h (along_ready hC) (Mirrors.init disks)

/-- **The tracer refines the machine.**  In every run in which the kernel's results are possible, no
`dup2` or `dup3` lands on a tracked number, the names of tracked descriptors keep their device numbers
and no call on a device fails: the tracer has wiped the directories of the handles the machine has
noted, in their order, and an entry for a descriptor is one for the handle the machine holds there,
with the snapshot that the machine's handle stands for. -/
theorem tracer_refines (data : ModuleData) (disks : Disks) (as : List Action) (s : Sys)
    (h : run (step data) (Sys.init disks) as = some s)
    (hC : Along (step data) undisturbed (Sys.init disks) as) :
    Mirrors s (partitions data disks as) := mirrors_of_run h hC

/-- Child 0 formats the cache partition through one of two descriptors, while child 1 has the data
partition open. -/
def twoChildren : List Action :=
  formattedRun ++ [.create []] ++ openRun 1 2 5 ++ dup2Run 0 5 6 ++ closingRun ++ closeRun 1 5

theorem tracer_refines_twoChildren :
    ∃ s, run (step demoData) (Sys.init demoDisks) twoChildren = some s ∧
      Mirrors s (partitions demoData demoDisks twoChildren) ∧
      s.wipes = [⟨CACHE_STUB, "/multiboot/mnt/source/android/cache/*".toList⟩] :=
  ⟨_, rfl, tracer_refines demoData demoDisks twoChildren _ rfl (by decide), by decide⟩

def Wipe.on (P : CString → Bool) (w : Wipe) : Bool := w.device.any P

/-- **Partitions do not get in each other's way.**  Two runs of the tracer that make the same uses of
the devices in `P` wipe the same directories on their account, in the same order, whatever else is
opened, duplicated, formatted and closed in between. -/
theorem wipes_isolated (P : CString → Bool) (data data' : ModuleData) (disks disks' : Disks)
    (as as' : List Action) (s s' : Sys) (h : run (step data) (Sys.init disks) as = some s)
    (h' : run (step data') (Sys.init disks') as' = some s')
    (hC : Along (step data) undisturbed (Sys.init disks) as)
    (hC' : Along (step data') undisturbed (Sys.init disks') as')
    (hdisks : ∀ dev, P dev = true → disks dev = disks' dev)
    (huses : relevantUses DiskChange.effect Disk.showsFormat P (Handles.init disks)
        (trace (step data) uses (Sys.init disks) as) =
      relevantUses DiskChange.effect Disk.showsFormat P (Handles.init disks')
        (trace (step data') uses (Sys.init disks') as')) :
    s.wipes.filter (Wipe.on P) = s'.wipes.filter (Wipe.on P) := by
  have hinit : AgreeOn P (Handles.init disks : Partitions) (Handles.init disks') :=
    ⟨fun _ => rfl, hdisks, rfl⟩
  have hnoted := (hinit.uses_of_relevant huses).noted
  have hwipes : ∀ {data disks as s}, run (step data) (Sys.init disks) as = some s →
      Along (step data) undisturbed (Sys.init disks) as →
      s.wipes.filter (Wipe.on P) = ((partitions data disks as).notedOn P).map
        fun x => ⟨some x.device, wipePath x.owner⟩ := by
    intro data disks as s h hC
    rw [(mirrors_of_run h hC).wipes, List.filter_map]
    rfl
  rw [hwipes h hC, hwipes h' hC']
  exact congrArg _ hnoted

/-- Child 0 formats the cache partition, and on the way the data partition. -/
def bothFormatted : List Action :=
  .create [] :: openRun 0 1 5 ++ openRun 0 2 6 ++
    [.mkfs DATA_STUB (.mke2fs EXT4 20), .mkfs CACHE_STUB (.mke2fs EXT4 20)] ++ closeRun 0 6 ++
    closeRun 0 5

theorem wipes_isolated_bothFormatted : ∃ s s',
    run (step demoData) (Sys.init demoDisks) (formattedRun ++ closeRun 0 5) = some s ∧
    run (step demoData) (Sys.init demoDisks) bothFormatted = some s' ∧
    s.wipes.filter (Wipe.on (· == CACHE_STUB)) = s'.wipes.filter (Wipe.on (· == CACHE_STUB)) ∧
    s.wipes.length = 1 ∧ s'.wipes.length = 2 := by
  refine ⟨_, _, rfl, rfl, ?_, by decide, by decide⟩
  exact wipes_isolated (· == CACHE_STUB) demoData demoData demoDisks demoDisks
    (formattedRun ++ closeRun 0 5) bothFormatted _ _ rfl rfl (by decide) (by decide)
    (fun _ _ => rfl) (by decide)

end Multiboot
