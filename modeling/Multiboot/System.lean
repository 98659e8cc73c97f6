import Multiboot.HookSpecs
import Multiboot.Lib.Run

/-!
# The tracer, its children and the devices

`Sys` is the state of the whole system: every child with its hook data and its kernel descriptors,
the block devices, and the calls of `format_path` so far.  An `Action` is one event; the children's
system calls are split into the stops before and after the kernel executes them, so runs interleave
children in any order.  A `step` fails when a hook aborts or the tracer does not survive it.

The kernel's side (`kernelFds`) only keeps track of descriptors.  `step` takes any return code;
`kernelResult` says which ones the kernel can give.
-/

namespace Multiboot

open Lib

/-- What a descriptor of a child refers to. -/
structure OpenFile where
  device : CString
  /-- The access mode is not read-only. -/
  writable : Bool
  /-- History: the record `hook_open` chose when the file was opened. -/
  record : Option FstabRec
  /-- History: the device number of the path `hook_open` looked up then. -/
  number : Option Dev
  deriving DecidableEq, Repr

/-- The system call a child is inside of. -/
structure Pending where
  call : Syscall
  args : ScArgs
  /-- The text of the scratch region the path argument points to. -/
  path : Option CString
  /-- History: the record `hook_open` chose before the call. -/
  record : Option FstabRec
  /-- History: the device number of the path it looked up. -/
  number : Option Dev
  deriving DecidableEq, Repr

structure Kid where
  mbc : ChildData
  inside : Option Pending
  fds : ℤ → Option OpenFile
  log : List Touch
  alive : Bool

structure Sys where
  kids : List Kid
  disks : Disks
  wipes : List Wipe

inductive Action
  /-- A child appears, with the descriptors it inherits. -/
  | create (inherited : List (ℤ × OpenFile))
  /-- The stop before a system call. -/
  | pre (i : ℕ) (call : Syscall) (args : ScArgs) (io : HookCalls)
  /-- The stop after it; `opened` is the file an `open` reaches with the child's own path. -/
  | post (i : ℕ) (ret : Long) (opened : CString) (io : HookCalls)
  | exit (i : ℕ)
  | mkfs (dev : CString) (d : Disk)
  | fsck (dev : CString) (t : ℕ)

def isDup (call : Syscall) : Bool := hookOf call == some .dup

/-! ### The kernel's descriptors -/

def Pending.writable (p : Pending) : Bool :=
  match infoOf p.call with
  | some row => forWriting p.args row.argnum
  | none => false

/-- The first argument as a descriptor number. -/
def Pending.fd (p : Pending) : ℤ := p.args.a0.toInt

/-- The descriptor a successful `open` makes. -/
def Pending.openFile (p : Pending) (opened : CString) : OpenFile :=
  ⟨p.path.getD opened, p.writable, p.record, p.number⟩

/-- The descriptors after the kernel has executed `p` and returned `ret`. -/
def kernelFds (fds : ℤ → Option OpenFile) (p : Pending) (ret : ℤ) (opened : CString) :
    ℤ → Option OpenFile :=
  if p.call = .close then Function.update fds p.fd none
  else if ret < 0 then fds
  else if isOpen p.call then Function.update fds ret (some (p.openFile opened))
  else if isDup p.call then Function.update fds ret (fds p.fd)
  else fds

/-- The return codes the kernel can give: a new descriptor is a free one, a duplicate has an
original, and `dup2` and `dup3` return the number they are given. -/
def kernelResult (fds : ℤ → Option OpenFile) (p : Pending) (ret : ℤ) : Prop :=
  ret < 0 ∨
    (isOpen p.call = true → (fds ret).isNone = true) ∧
    (isDup p.call = true → (fds p.fd).isSome = true) ∧
    (p.call = .dup → (fds ret).isNone = true) ∧
    (p.call = .dup2 → ret = p.args.a1.toInt) ∧
    (p.call = .dup3 → ret = p.args.a1.toInt ∧ ret ≠ p.fd)

instance (fds : ℤ → Option OpenFile) (p : Pending) (ret : ℤ) :
    Decidable (kernelResult fds p ret) := inferInstanceAs (Decidable (_ ∨ _))

/-! ### Steps -/

def Kid.new (inherited : List (ℤ × OpenFile)) : Kid :=
  ⟨ChildData.init, none, llFind inherited, [], true⟩

/-- What a hook works on. -/
def Sys.hookSt (s : Sys) (k : Kid) (args : ScArgs) (io : HookCalls) : HookSt :=
  ⟨k.mbc, args, io.errno, s.disks, s.wipes, [], none, none⟩

/-- The text last written to the region `mbc->memory` names. -/
def HookSt.scratchText (st : HookSt) : Option CString :=
  st.mbc.memory.bind fun addr => st.touches.reverse.findSome? fun
    | .write a text => if a = addr then some text else none
    | _ => none

/-- The child goes on into the system call. -/
def Kid.entered (k : Kid) (call : Syscall) (st : HookSt) : Kid :=
  { k with
    mbc := st.mbc
    inside := some ⟨call, st.args, st.scratchText, st.chosen, st.number⟩
    log := k.log ++ .enter call :: st.touches }

/-- The child has returned from the system call. -/
def Kid.left (k : Kid) (p : Pending) (ret : ℤ) (opened : CString) (st : HookSt) : Kid :=
  { k with
    mbc := st.mbc
    inside := none
    fds := kernelFds k.fds p ret opened
    log := k.log ++ .resume p.call :: st.touches ++ [.leave p.call] }

/-- A child that has exited: its data is freed, its descriptors and its memory are gone. -/
def Kid.gone : Kid := { Kid.new [] with alive := false }

section
variable (k : Kid) (call : Syscall) (p : Pending) (ret : ℤ) (opened : CString) (st : HookSt)

@[simp] theorem Kid.mbc_entered : (k.entered call st).mbc = st.mbc := rfl

@[simp] theorem Kid.inside_entered :
    (k.entered call st).inside =
      some ⟨call, st.args, st.scratchText, st.chosen, st.number⟩ := rfl

@[simp] theorem Kid.mbc_left : (k.left p ret opened st).mbc = st.mbc := rfl

@[simp] theorem Kid.fds_left :
    (k.left p ret opened st).fds = kernelFds k.fds p ret opened := rfl

@[simp] theorem Kid.inside_left : (k.left p ret opened st).inside = none := rfl

end

def Sys.init (disks : Disks) : Sys := ⟨[], disks, []⟩

def Sys.updated (s : Sys) (i : ℕ) (k : Kid) (st : HookSt) : Sys :=
  ⟨s.kids.set i k, st.disks, st.wipes⟩

def step (data : ModuleData) (s : Sys) : Action → Option Sys
  | .create inherited => some { s with kids := s.kids ++ [Kid.new inherited] }
  | .pre i call args io =>
    match s.kids[i]? with
    | none => none
    | some k =>
      if k.alive && k.inside.isNone then
        match runHook data io call true (s.hookSt k args io) with
        | some (.CONTINUE, st) => some (s.updated i (k.entered call st) st)
        | _ => none
      else none
  | .post i ret opened io =>
    match s.kids[i]? with
    | none => none
    | some k =>
      match k.alive, k.inside with
      | true, some p =>
        match runHook data io p.call false (s.hookSt k { p.args with returnCode := ret } io) with
        | some (.CONTINUE, st) => some (s.updated i (k.left p ret.toInt opened st) st)
        | _ => none
      | _, _ => none
  | .exit i =>
    match s.kids[i]? with
    | none => none
    | some k =>
      if k.alive && (freeFdinfoList k.mbc.files).isSome then
        some { s with kids := s.kids.set i .gone }
      else none
  | .mkfs dev d => some { s with disks := Function.update s.disks dev d }
  | .fsck dev t => some { s with disks := Function.update s.disks dev ((s.disks dev).fsck t) }

/-! ### What each kind of step does -/

theorem step_pre {data : ModuleData} {s s' : Sys} {i : ℕ} {call : Syscall} {args : ScArgs}
    {io : HookCalls} (h : step data s (.pre i call args io) = some s') :
    ∃ k st, s.kids[i]? = some k ∧ k.alive = true ∧ k.inside = none ∧
      PreEffect data io call (s.hookSt k args io) st ∧
      s' = s.updated i (k.entered call st) st := by
  simp only [step] at h
  cases hk : s.kids[i]? with
  | none => simp only [hk, reduceCtorEq] at h
  | some k =>
    simp only [hk] at h
    by_cases ha : (k.alive && k.inside.isNone) = true
    · rw [if_pos ha] at h
      rw [Bool.and_eq_true, Option.isNone_iff_eq_none] at ha
      rcases hr : runHook data io call true (s.hookSt k args io) with _ | ⟨_ | _, st⟩
      · simp only [hr, reduceCtorEq] at h
      · simp only [hr, Option.some.injEq] at h
        exact ⟨k, st, rfl, ha.1, ha.2, runHook_pre hr, h.symm⟩
      · simp only [hr, reduceCtorEq] at h
    · rw [if_neg ha] at h
      cases h

theorem step_post {data : ModuleData} {s s' : Sys} {i : ℕ} {ret : Long} {opened : CString}
    {io : HookCalls} (h : step data s (.post i ret opened io) = some s') :
    ∃ k p st, s.kids[i]? = some k ∧ k.alive = true ∧ k.inside = some p ∧
      PostEffect data io p.call (s.hookSt k { p.args with returnCode := ret } io) st ∧
      s' = s.updated i (k.left p ret.toInt opened st) st := by
  simp only [step] at h
  cases hk : s.kids[i]? with
  | none => simp only [hk, reduceCtorEq] at h
  | some k =>
    cases ha : k.alive with
    | false => simp only [hk, ha, reduceCtorEq] at h
    | true =>
      cases hp : k.inside with
      | none => simp only [hk, ha, hp, reduceCtorEq] at h
      | some p =>
        simp only [hk, ha, hp] at h
        rcases hr : runHook data io p.call false
            (s.hookSt k { p.args with returnCode := ret } io) with _ | ⟨rc, st⟩
        · simp only [hr, reduceCtorEq] at h
        · obtain ⟨rfl, he⟩ := runHook_post hr
          simp only [hr, Option.some.injEq] at h
          exact ⟨k, p, st, rfl, ha, hp, he, h.symm⟩

theorem step_exit {data : ModuleData} {s s' : Sys} {i : ℕ}
    (h : step data s (.exit i) = some s') :
    ∃ k, s.kids[i]? = some k ∧ k.alive = true ∧ (freeFdinfoList k.mbc.files).isSome = true ∧
      s' = { s with kids := s.kids.set i .gone } := by
  simp only [step] at h
  cases hk : s.kids[i]? with
  | none => simp only [hk, reduceCtorEq] at h
  | some k =>
    simp only [hk] at h
    by_cases ha : (k.alive && (freeFdinfoList k.mbc.files).isSome) = true
    · rw [if_pos ha, Option.some.injEq] at h
      rw [Bool.and_eq_true] at ha
      exact ⟨k, rfl, ha.1, ha.2, h.symm⟩
    · rw [if_neg ha] at h
      cases h

/-! ### Invariants of the children -/

/-- `I` holds of every child. -/
def EveryKid (I : Kid → Prop) (s : Sys) : Prop := ∀ k ∈ s.kids, I k

theorem EveryKid.at {I : Kid → Prop} {s : Sys} (h : EveryKid I s) {i : ℕ} {k : Kid}
    (hk : s.kids[i]? = some k) : I k := h k (List.mem_of_getElem? hk)

theorem EveryKid.set {I : Kid → Prop} {s : Sys} (h : EveryKid I s) {i : ℕ} {k : Kid} (hk : I k)
    (disks : Disks) (wipes : List Wipe) : EveryKid I ⟨s.kids.set i k, disks, wipes⟩ := by
  intro k' hk'
  rcases List.mem_or_eq_of_mem_set hk' with hk' | rfl
  · exact h k' hk'
  · exact hk

/-- What has to be shown of a property of children for every step to preserve it. -/
structure KidInvariant (data : ModuleData) (C : Sys → Action → Prop) (I : Kid → Prop) : Prop where
  new : ∀ {s inherited}, C s (.create inherited) → I (Kid.new inherited)
  entered : ∀ {s i call args io k st}, C s (.pre i call args io) → s.kids[i]? = some k →
    k.inside = none → PreEffect data io call (s.hookSt k args io) st → I k → I (k.entered call st)
  left : ∀ {s i ret opened io k p st}, C s (.post i ret opened io) → s.kids[i]? = some k →
    k.inside = some p →
    PostEffect data io p.call (s.hookSt k { p.args with returnCode := ret } io) st → I k →
    I (k.left p ret.toInt opened st)
  gone : I .gone

/-- **Step rule**: one action preserves an invariant of the children. -/
theorem KidInvariant.step {data : ModuleData} {C : Sys → Action → Prop} {I : Kid → Prop}
    (hI : KidInvariant data C I) {s s' : Sys} {a : Action} (hs : EveryKid I s) (hC : C s a)
    (h : Multiboot.step data s a = some s') : EveryKid I s' := by
  cases a with
  | create inherited =>
    obtain rfl := Option.some.inj h
    intro k hk
    rcases List.mem_append.mp hk with hk | hk
    · exact hs k hk
    · obtain rfl := List.mem_singleton.mp hk
      exact hI.new hC
  | pre i call args io =>
    obtain ⟨k, st, hk, -, hin, he, rfl⟩ := step_pre h
    exact hs.set (hI.entered hC hk hin he (hs.at hk)) _ _
  | post i ret opened io =>
    obtain ⟨k, p, st, hk, -, hin, he, rfl⟩ := step_post h
    exact hs.set (hI.left hC hk hin he (hs.at hk)) _ _
  | exit i =>
    obtain ⟨k, hk, -, -, rfl⟩ := step_exit h
    exact hs.set hI.gone _ _
  | mkfs dev d =>
    obtain rfl := Option.some.inj h
    exact hs
  | fsck dev t =>
    obtain rfl := Option.some.inj h
    exact hs

/-- **Run rule**: an invariant of the children holds of every child in every state of a run. -/
theorem KidInvariant.run {data : ModuleData} {C : Sys → Action → Prop} {I : Kid → Prop}
    (hI : KidInvariant data C I) {disks : Disks} {as : List Action} {s : Sys}
    (h : Lib.run (Multiboot.step data) (Sys.init disks) as = some s)
    (hC : Along (Multiboot.step data) C (Sys.init disks) as) : EveryKid I s :=
  run_invariant (fun _ _ _ hs hc h => hI.step hs hc h) h hC (fun _ hk => by cases hk)

/-- **Layering**: an invariant may be assumed of the children before every step. -/
theorem KidInvariant.along {data : ModuleData} {C : Sys → Action → Prop} {I : Kid → Prop}
    (hI : KidInvariant data C I) {disks : Disks} {as : List Action}
    (hC : Along (Multiboot.step data) C (Sys.init disks) as) :
    Along (Multiboot.step data) (fun s a => C s a ∧ EveryKid I s) (Sys.init disks) as :=
  along_of_invariant (fun _ _ _ hs hc h => hI.step hs hc h) (fun _ _ hs hc => ⟨hc, hs⟩)
    (fun _ hk => by cases hk) hC

/-! ### A small boot

Two bind records and a loop record behind the source partition, as `setup` builds them. -/

def demoEnv : SetupEnv where
  blockInfo :=
    [⟨179, 1, 0, 1, some "mmcblk0p1".toList, none⟩, ⟨179, 2, 0, 2, some "mmcblk0p2".toList, none⟩,
      ⟨179, 3, 0, 3, some "mmcblk0p3".toList, none⟩, ⟨179, 4, 0, 4, some "mmcblk0p4".toList, none⟩]
  partNumbers_lt := by decide
  grubJunk := (0, 0)
  earlyInitOk := true
  mknodOk _ := true
  multibootFstab := some
    [⟨"/dev/block/mmcblk0p2".toList, "/cache".toList, "ext4".toList, none,
        some "multiboot".toList, none, MF_MULTIBOOT⟩,
      ⟨"/dev/block/mmcblk0p3".toList, "/data".toList, "ext4".toList, none,
        some "multiboot".toList, none, MF_MULTIBOOT⟩,
      ⟨"/dev/block/mmcblk0p4".toList, "/boot".toList, "emmc".toList, none,
        some "multiboot".toList, none, MF_MULTIBOOT⟩]
  numEntries_lt := by decide
  targetFstabs := some []
  junk := ⟨default, default, fun _ => default, fun _ _ => default⟩

def demoParams : BootParams where
  bootmode := .RECOVERY
  sndstageEnabled := false
  source := some ⟨0, 1, "/android".toList⟩
  grub := none

def demoData : ModuleData := (setup demoParams demoEnv).get rfl

def CACHE : CString := "/dev/block/mmcblk0p2".toList
def CACHE_STUB : CString := "/multiboot/dev/block/loop255".toList
def DATA : CString := "/dev/block/mmcblk0p3".toList
def DATA_STUB : CString := "/multiboot/dev/block/loop254".toList

/-- A view with the nodes of the cache and data partitions. -/
def demoFs : FsView where
  stat p := if p = CACHE then .ok ⟨.blk, 179, 2⟩ else if p = DATA then .ok ⟨.blk, 179, 3⟩
    else .error .ENOENT
  lstat p := if p = CACHE then .ok ⟨.blk, 179, 2⟩ else if p = DATA then .ok ⟨.blk, 179, 3⟩
    else .error .ENOENT
  realpath p := .ok p

/-- A link to the cache partition. -/
def LINK : CString := "/dev/cache".toList

/-- A file system with the node of the cache partition and a link to it. -/
def linkFs : FileSystem where
  stat p := if p = CACHE ∨ p = LINK then .ok ⟨.blk, 179, 2⟩ else .error .ENOENT
  lstat p := if p = CACHE then .ok ⟨.blk, 179, 2⟩ else if p = LINK then .ok ⟨.lnk, 0⟩
    else .error .ENOENT
  realpath p := if p = CACHE ∨ p = LINK then .ok CACHE else .error .ENOENT
  stat_kind {p s} h := by
    split_ifs at h
    cases h
    decide
  stat_of_lstat {p s} h hk := by
    by_cases hc : p = CACHE
    · rw [if_pos hc] at h
      rw [if_pos (Or.inl hc), h]
    · by_cases hl : p = LINK
      · rw [if_neg hc, if_pos hl] at h
        cases h
        exact absurd rfl hk
      · rw [if_neg hc, if_neg hl] at h
        cases h
  lstat_of_stat {p s} h := by
    by_cases hc : p = CACHE
    · rw [if_pos (Or.inl hc)] at h
      exact Or.inl (by rw [if_pos hc, h])
    · by_cases hl : p = LINK
      · exact Or.inr ⟨_, by rw [if_neg hc, if_pos hl], rfl⟩
      · rw [if_neg (by simp [hc, hl])] at h
        cases h
  realpath_of_stat {p s} h := by
    by_cases hp : p = CACHE ∨ p = LINK
    · rw [if_pos hp] at h
      exact ⟨CACHE, by rw [if_pos hp], by rw [if_pos (Or.inl rfl), h]⟩
    · rw [if_neg hp] at h
      cases h
  rdev_of_not_device {p s} h hd := by
    split_ifs at h
    cases h
    cases hd

/-- Every device call succeeds. -/
def DevCalls.good : DevCalls := ⟨true, .opened, true, ⟨0, 0⟩⟩

/-- Every call succeeds; the child has the name of the cache partition at 1 and of the data partition
at 2. -/
def demoIo : HookCalls where
  errno := none
  mem addr :=
    if addr = 1 then some (CACHE ++ [nul]) else if addr = 2 then some (DATA ++ [nul]) else none
  fs := demoFs
  openPath := ⟨true, true⟩
  path := ⟨true, true⟩
  targetPath := ⟨true, true⟩
  fsck := none
  mmap := some 4096
  writeMem := true
  modifyArgs := true
  make := DevCalls.good
  make2 := DevCalls.good
  close := DevCalls.good

def demoDisks : Disks := fun _ => ⟨some EXT4, ⟨10, 10⟩⟩

/-- Child `i` opens the device named at `addr` for writing, as descriptor `fd`. -/
def openRun (i : ℕ) (addr fd : Long) : List Action :=
  [.pre i .open ⟨addr, 2, 0, 0, 0, 0, 0⟩ demoIo, .post i fd [] demoIo]

/-- Child `i` makes `newfd` a duplicate of `fd`. -/
def dup2Run (i : ℕ) (fd newfd : Long) : List Action :=
  [.pre i .dup2 ⟨fd, newfd, 0, 0, 0, 0, 0⟩ demoIo, .post i newfd [] demoIo]

def closeRun (i : ℕ) (fd : Long) : List Action :=
  [.pre i .close ⟨fd, 0, 0, 0, 0, 0, 0⟩ demoIo, .post i 0 [] demoIo]

end Multiboot
