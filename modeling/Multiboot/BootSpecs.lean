import Multiboot.Boot

/-!
# What has been done when `/init` starts

`World` is what the calls so far amount to: the mount table, the hooks, the command line that was
read, whether there was a fork.  `main_ready` says where and in what state any process calls
`execve` or `tracy_exec` for `/init`, whatever fails on the way; `main_mounts` which file systems are
mounted there, and `main_ends` how a process can end.
-/

namespace Multiboot.Boot

open Lib Lib.Prog

/-! ### The world -/

/-- The mount table without the last mount at a target. -/
def unmount (target : CString) (ms : List Mount) : List Mount := ms.eraseP (·.target == target)

structure MountTable where
  mounts : List Mount
  /-- A `umount` has failed. -/
  stuck : Bool

/-- What is mounted, unless a `umount` has failed. -/
def MountTable.Is (t : MountTable) (ms : List Mount) : Prop := t.stuck = false → t.mounts = ms

def MountTable.mount (t : MountTable) (m : Mount) : MountTable := { t with mounts := m :: t.mounts }

def MountTable.umount (t : MountTable) (target : CString) (ok : Bool) : MountTable :=
  if ok then { t with mounts := unmount target t.mounts } else { t with stuck := true }

/-- The rest of what is kept of the calls. -/
structure Progress where
  recovery : Bool
  file : Option CString
  /-- The values that `rc` started with. -/
  rcs : List ℤ
  hooked : List Syscall
  forked : Option Forked
  /-- How often `/init` has been started. -/
  inits : ℕ

structure World where
  table : MountTable
  progress : Progress

def World.init : World := ⟨⟨[], false⟩, ⟨false, none, [], [], none, 0⟩⟩

def Progress.step (g : Progress) (e : Event Call.Ans) : Progress :=
  match e with
  | ⟨.stat path, ok⟩ => if path = FILE_RECOVERY_BINARY then { g with recovery := ok } else g
  | ⟨.cmdline, file⟩ => { g with file := file }
  | ⟨.rc, rc⟩ => { g with rcs := g.rcs ++ [rc] }
  | ⟨.setHook hook, true⟩ => { g with hooked := g.hooked ++ [hook] }
  | ⟨.fork, pid⟩ => { g with forked := some pid }
  | ⟨.execve path, true⟩ => if path = INIT then { g with inits := g.inits + 1 } else g
  | ⟨.tracyExec _, true⟩ => { g with inits := g.inits + 1 }
  | _ => g

def MountTable.step (t : MountTable) (e : Event Call.Ans) : MountTable :=
  match e with
  | ⟨.mount m, true⟩ => t.mount m
  | ⟨.umount target, ok⟩ => t.umount target ok
  | _ => t

def World.step (w : World) (e : Event Call.Ans) : World := ⟨w.table.step e, w.progress.step e⟩

/-- The tokens of the command line. -/
def Progress.tokens (g : Progress) : List CString := cmdlineTokens (readCmdline g.file)

/-- The parameters, as far as the tokens have been imported (`none`: at `multiboot.ums`). -/
def Progress.nv (g : Progress) : Option NvData := run nvStep .cleared (g.rcs.zip g.tokens)

/-! ### What has to be done -/

/-- The call starts `/init`. -/
def Call.startsInit : Call → Bool
  | .execve path => path == INIT
  | .tracyExec _ => true
  | _ => false

/-- The process runs `/init` itself: multiboot is not enabled, or the line says `multiboot.ums`. -/
structure Plain (g : Progress) : Prop where
  forked : g.forked = none
  hooked : g.hooked = []
  nv : ∀ nv, g.nv = some nv → enabled nv = false

/-- The tracer has set every hook. -/
structure Hooked (g : Progress) : Prop where
  hooked : g.hooked = allHooks
  nv : ∃ nv, g.nv = some nv ∧ enabled nv = true

def Ready (g : Progress) : Call → Prop
  | .tracyExec _ => g.inits = 0 ∧ Hooked g ∧ g.recovery = true ∧ g.forked = none
  | _ => g.inits = 0 ∧ (Plain g ∨ Hooked g ∧ g.recovery = false ∧ g.forked = some .child)

/-- A list of at most one mount. -/
def AtMost (m : Mount) (ms : List Mount) : Prop := ms = [] ∨ ms = [m]

/-- A mount whose type was found out. -/
def Typed (m m' : Mount) : Prop := ∃ type, m' = { m with type := some type }

/-- The mounts of `ep_early_init`, the last first. -/
inductive EarlyMounts (nv : NvData) : List Mount → Prop
  | plain {source : Mount} (hg : nv.grubGiven = false) (hs : Typed (sourceMount nv) source) :
      EarlyMounts nv [source]
  | grub {source grub : Mount} (hg : nv.grubGiven = true) (hs : Typed (sourceMount nv) source)
      (hm : Typed (grubMount nv) grub) : EarlyMounts nv [source, grubBind nv, grub]

/-- The mounts that multiboot makes for the system. -/
inductive InitMounts : Option NvData → List Mount → Prop
  | ums {dev : List Mount} (hdev : AtMost devMount dev) : InitMounts none dev
  | disabled {nv : NvData} {dev proc : List Mount} (h : enabled nv = false)
      (hdev : AtMost devMount dev)
      (hproc : AtMost (kernelMount "proc".toList MULTIBOOT_PROC) proc) :
      InitMounts (some nv) (proc ++ dev)
  | enabled {nv : NvData} {dev early proc : List Mount} (h : enabled nv = true)
      (hdev : AtMost devMount dev) (hearly : EarlyMounts nv early)
      (hproc : AtMost (kernelMount "proc".toList MULTIBOOT_PROC) proc) :
      InitMounts (some nv) (proc ++ early ++ dev)

structure StartOk (w : World) (c : Call) : Prop where
  ready : Ready w.progress c
  mounts : ∃ ms, InitMounts w.progress.nv ms ∧ w.table.Is ms

/-- How a process can end. -/
def EndOk (g : Progress) : End → Prop
  | .init => g.inits = 1
  | .vold => g.inits = 0
  | .failure => g.inits = 0
  | .success => g.hooked = allHooks ∧
    (g.inits = 1 ∧ g.forked = none ∨ g.inits = 0 ∧ (g.forked = some .parent ∨ g.forked = some .failed))

/-- Where a call may be made. -/
def Safe (w : World) (c : Call) : Prop := c.startsInit = true → StartOk w c

theorem safe_of_not {w : World} {c : Call} (h : c.startsInit = false) : Safe w c := by
  intro hs
  rw [h] at hs
  cases hs

abbrev Proves (p : Proc α) (Q : α → World → Prop) (w : World) : Prop := p.wp World.step Safe Q w

/-- A call that does not start anything. -/
theorem proves_ask {c : Call} {f : c.Ans → Proc α} {Q : α → World → Prop} {w : World}
    (hsafe : c.startsInit = false) (h : ∀ x, Proves (f x) Q (w.step ⟨c, x⟩)) :
    Proves (ask c >>= f) Q w := wp_perform (safe_of_not hsafe) h

/-! ### Parts that only use what is there -/

/-- The call leaves the world as it is. -/
def Call.inert : Call → Bool
  | .mount _ | .umount _ | .cmdline | .rc | .setHook _ | .fork | .execve _ | .tracyExec _ => false
  | .stat path => path != FILE_RECOVERY_BINARY
  | _ => true

theorem Call.safe_of_inert {c : Call} (w : World) (h : c.inert = true) : Safe w c := by
  apply safe_of_not
  cases c with
  | execve => cases h
  | tracyExec => cases h
  | _ => rfl

theorem World.step_of_inert (w : World) {c : Call} (x : c.Ans) (h : c.inert = true) :
    w.step ⟨c, x⟩ = w := by
  cases c with
  | mount | umount | cmdline | rc | setHook | fork | execve | tracyExec => cases h
  | stat path =>
    have hne : path ≠ FILE_RECOVERY_BINARY := bne_iff_ne.mp h
    show (⟨w.table, if path = FILE_RECOVERY_BINARY then _ else w.progress⟩ : World) = w
    rw [if_neg hne]
  | _ => rfl

abbrev Inert (p : Proc α) : Prop := p.Only fun c => c.inert = true

theorem Inert.proves {p : Proc α} {Q : α → World → Prop} {w : World} (h : Inert p)
    (hQ : ∀ a, Q a w) : Proves p Q w :=
  wp_of_only h (fun _ hc => Call.safe_of_inert w hc) (fun _ x hc => w.step_of_inert x hc) hQ

/-- A part that leaves the world as it is, with something behind it. -/
theorem Inert.bind {p : Proc α} {f : α → Proc β} {Q : β → World → Prop} {w : World} (h : Inert p)
    (hf : ∀ a, Proves (f a) Q w) : Proves (p >>= f) Q w := wp_bind (h.proves hf)

theorem inert_ask {c : Call} (h : c.inert = true) : Inert (ask c) := only_perform h

theorem inert_onlyIf {c : Bool} {p : Proc Unit} (h : Inert p) : Inert (onlyIf c p) := by
  cases c with
  | false => exact only_pure ()
  | true => exact h

/-- `ask c`, whose answer is not looked at. -/
theorem inert_ignore {c : Call} (h : c.inert = true) :
    Inert (do let _ ← ask c : Proc Unit) := only_bind (inert_ask h) fun _ => only_pure ()

theorem inert_sedReplace (file regex : CString) : Inert (sedReplace file regex) :=
  inert_ignore rfl

theorem inert_utilCopy (source target : CString) (recursive force : Bool) :
    Inert (utilCopy source target recursive force) := inert_ignore rfl

theorem inert_utilChmod (path mode : CString) (recursive : Bool) :
    Inert (utilChmod path mode recursive) := inert_ignore rfl

theorem inert_patchFiles (bootmode : BootMode) (nv : NvData) : Inert (patchFiles bootmode nv) := by
  refine only_bind (inert_onlyIf (inert_sedReplace _ _)) fun _ => ?_
  refine only_bind (inert_onlyIf (inert_utilCopy _ _ _ _)) fun _ => ?_
  refine only_bind (inert_sedReplace _ _) fun _ => ?_
  refine only_bind (inert_ask rfl) fun _ => ?_
  refine only_bind (inert_sedReplace _ _) fun _ => ?_
  exact only_bind (inert_sedReplace _ _) fun _ => inert_ignore rfl

theorem inert_loadLoop (path : Option CString) (recs : List FstabRec) :
    ∀ n done, Inert (loadLoop path n done recs) := by
  induction recs with
  | nil => exact fun n done => only_pure _
  | cons rec recs ih =>
    intro n done
    refine only_bind (inert_ask rfl) fun ok => ?_
    generalize makeLoop [] none ok n = made
    obtain ⟨loopdev | loopdev, n'⟩ := made
    · exact only_pure _
    · exact ih n' _

theorem inert_loadMultibootFstab (nv : NvData) : Inert (loadMultibootFstab nv) := by
  refine only_bind (inert_ask rfl) fun file => ?_
  cases doFsMgrReadFstab false file with
  | none => exact only_pure _
  | some cols => exact only_bind (inert_loadLoop _ _ _ _) fun _ => only_pure _

theorem inert_addFstab (path : CString) (targets : List RomFstab) : Inert (addFstab path targets) := by
  refine only_bind (inert_ask rfl) fun file => ?_
  cases doFsMgrReadFstab false file with
  | some cols => exact only_bind (inert_ask rfl) fun _ => only_pure _
  | none =>
    refine only_bind (inert_ask rfl) fun file => ?_
    cases doFsMgrReadFstab true file with
    | none => exact only_pure _
    | some cols => exact only_bind (inert_ask rfl) fun _ => only_pure _

theorem inert_findLoop (dir : List Dirent) : ∀ targets, Inert (findLoop dir targets) := by
  induction dir with
  | nil => exact fun targets => only_bind (inert_ask rfl) fun _ => only_pure _
  | cons dt dir ih =>
    intro targets
    rw [findLoop]
    split_ifs with hfstab
    · refine only_bind (inert_addFstab _ _) fun added => ?_
      cases added with
      | none => exact only_pure _
      | some added => exact ih added
    · exact ih targets

theorem inert_findInRoot (targets : List RomFstab) : Inert (findInRoot targets) := by
  refine only_bind (inert_ask rfl) fun dir => ?_
  cases dir with
  | none => exact only_pure _
  | some dir => exact inert_findLoop dir targets

theorem inert_findFstab (bootmode : BootMode) : Inert (findFstab bootmode) := by
  cases bootmode with
  | ANDROID => exact inert_findInRoot []
  | RECOVERY =>
    refine only_bind (inert_ask (by decide)) fun found => ?_
    split_ifs
    · refine only_bind (inert_addFstab _ _) fun added => ?_
      cases added with
      | none => exact only_pure _
      | some added => exact inert_findInRoot added
    · exact inert_findInRoot []

theorem inert_fstabInit (data : ModuleData) : Inert (fstabInit data) := by
  refine only_bind (inert_ask rfl) fun env => ?_
  cases fpFstabInit env.junk env.fopenOk data with
  | none => exact only_pure _
  | some files => exact only_bind (inert_ask rfl) fun _ => only_pure _

theorem inert_fstabStages (bootmode : BootMode) (nv : NvData) (info : List SysBlockUevent)
    (grub : Option SysBlockUevent) : Inert (fstabStages bootmode nv info grub) := by
  refine only_bind (inert_loadMultibootFstab nv) fun fstab => ?_
  cases fstab with
  | none => exact only_pure _
  | some fstab =>
    refine only_bind (inert_findFstab bootmode) fun targets => ?_
    cases targets with
    | none => exact only_pure _
    | some targets =>
      refine only_bind (inert_ask rfl) fun junk => ?_
      exact only_bind (inert_fstabInit _) fun _ => only_pure _

theorem inert_findGrub (nv : NvData) (info : List SysBlockUevent) : Inert (findGrub nv info) := by
  rw [findGrub]
  split_ifs
  · exact only_bind (inert_ask rfl) fun _ => only_pure _
  · exact only_pure _

theorem inert_createNodes (nodes : List (CString × Dev)) : Inert (createNodes nodes) := by
  induction nodes with
  | nil => exact only_pure _
  | cons node nodes ih => exact only_bind (inert_ask rfl) fun _ => ih

/-! ### Mounts -/

section Mounts

variable {t : MountTable} {ms : List Mount} {g : Progress}

theorem MountTable.Is.mount (h : t.Is ms) (m : Mount) : (t.mount m).Is (m :: ms) := by
  intro hst
  show m :: t.mounts = m :: ms
  rw [h hst]

theorem MountTable.Is.umount (h : t.Is ms) (target : CString) (ok : Bool) :
    (t.umount target ok).Is (unmount target ms) := by
  intro hst
  cases ok with
  | false => cases hst
  | true =>
    show unmount target t.mounts = unmount target ms
    rw [h hst]

theorem unmount_cons {target : CString} {m : Mount} (h : m.target = target) (ms : List Mount) :
    unmount target (m :: ms) = ms := List.eraseP_cons_of_pos (beq_iff_eq.mpr h)

theorem unmount_cons_of_ne {target : CString} {m : Mount} (h : m.target ≠ target) (ms : List Mount) :
    unmount target (m :: ms) = m :: unmount target ms :=
  List.eraseP_cons_of_neg (by rwa [beq_iff_eq])

/-- `check_fs` mounts and unmounts again. -/
theorem proves_checkFs {dev type target : CString} {Q : Unit → World → Prop} (ht : t.Is ms)
    (hQ : ∀ t', t'.Is ms → Q () ⟨t', g⟩) : Proves (checkFs dev type target) Q ⟨t, g⟩ := by
  rw [checkFs]
  split_ifs with htype
  · refine proves_ask rfl fun mounted => ?_
    cases mounted with
    | false => exact wp_bind (wp_pure ((inert_ignore rfl).proves fun _ => hQ t ht))
    | true =>
      refine wp_bind (proves_ask rfl fun ok => wp_pure ?_)
      refine (inert_ignore rfl).proves fun _ => hQ _ ?_
      have hback := (ht.mount (tmpMount dev type target)).umount target ok
      have htarget : (tmpMount dev type target).target = target := rfl
      rwa [unmount_cons htarget] at hback
  · exact wp_pure (hQ t ht)

/-- What is mounted for `m`: where no type is given and none is needed, it is looked for. -/
def MountedAs (m m' : Mount) : Prop :=
  if m.type.isNone && m.flags &&& MS_BIND == 0 then Typed m m' else m' = m

theorem MountedAs.typed {m m' : Mount} (h : MountedAs m m')
    (hm : (m.type.isNone && m.flags &&& MS_BIND == 0) = true) : Typed m m' := by
  rwa [MountedAs, if_pos hm] at h

theorem MountedAs.eq {m m' : Mount} (h : MountedAs m m')
    (hm : (m.type.isNone && m.flags &&& MS_BIND == 0) = false) : m' = m := by
  rwa [MountedAs, hm, if_neg Bool.false_ne_true] at h

theorem proves_mountAt {m : Mount} {Q : Bool → World → Prop} (ht : t.Is ms)
    (hfail : ∀ t', t'.Is ms → Q false ⟨t', g⟩)
    (hok : ∀ m' t', MountedAs m m' → t'.Is (m' :: ms) → Q true ⟨t', g⟩) :
    Proves (mountAt m) Q ⟨t, g⟩ := by
  -- the mount itself, once the type is known
  have hmount : ∀ type, MountedAs m { m with type := type } →
      Proves (do
        onlyIf (m.flags &&& MS_BIND == 0) (checkFs m.source (type.getD []) m.target)
        ask (.mount { m with type := type })) Q ⟨t, g⟩ := by
    intro type htype
    have hlast : ∀ t', t'.Is ms → Proves (ask (.mount { m with type := type })) Q ⟨t', g⟩ := by
      intro t' ht'
      refine ⟨safe_of_not rfl, fun ok => ?_⟩
      cases ok with
      | false => exact hfail t' ht'
      | true => exact hok _ _ htype (ht'.mount _)
    refine wp_bind ?_
    cases m.flags &&& MS_BIND == 0 with
    | false => exact wp_pure (hlast t ht)
    | true => exact proves_checkFs ht hlast
  rw [mountAt, mountType]
  cases hfind : m.type.isNone && m.flags &&& MS_BIND == 0 with
  | false =>
    refine hmount m.type ?_
    rw [MountedAs, hfind]
    exact rfl
  | true =>
    refine wp_bind (proves_ask rfl fun found => wp_pure (hmount _ ?_))
    rw [MountedAs, hfind]
    exact ⟨_, rfl⟩

/-- **`util_mount`** adds one mount or none. -/
theorem proves_utilMount {m : Mount} {Q : Bool → World → Prop} (ht : t.Is ms)
    (hfail : ∀ t', t'.Is ms → Q false ⟨t', g⟩)
    (hok : ∀ m' t', MountedAs m m' → t'.Is (m' :: ms) → Q true ⟨t', g⟩) :
    Proves (utilMount m) Q ⟨t, g⟩ := by
  refine (inert_ask rfl).bind fun made => ?_
  cases made with
  | false => exact wp_pure (hfail t ht)
  | true => exact proves_mountAt ht hfail hok

/-- **`ep_early_init`**: where it succeeds, grub's file systems and the source are mounted. -/
theorem proves_epEarlyInit {bootmode : BootMode} {nv : NvData} {Q : Bool → World → Prop}
    (ht : t.Is ms) (hfail : ∀ t', Q false ⟨t', g⟩)
    (hok : ∀ t' early, EarlyMounts nv early → t'.Is (early ++ ms) → Q true ⟨t', g⟩) :
    Proves (epEarlyInit bootmode nv) Q ⟨t, g⟩ := by
  have hsource : ∀ t' ms' , t'.Is ms' →
      (∀ t'' source, Typed (sourceMount nv) source → t''.Is (source :: ms') → Q true ⟨t'', g⟩) →
      Proves (mountSource bootmode nv) Q ⟨t', g⟩ := by
    intro t' ms' ht' hok'
    refine (inert_utilCopy _ _ _ _).bind fun _ => ?_
    refine (inert_ask rfl).bind fun _ => ?_
    refine (inert_utilChmod _ _ _).bind fun _ => ?_
    refine (inert_utilChmod _ _ _).bind fun _ => ?_
    refine wp_bind (proves_utilMount ht' (fun t'' _ => ?_) fun source t'' hs ht'' => ?_)
    · exact wp_bind (wp_pure (wp_pure (hfail t'')))
    · exact (inert_onlyIf (inert_patchFiles bootmode nv)).bind fun _ => wp_pure (hok' t'' source (hs.typed (by simp [sourceMount])) ht'')
  rw [epEarlyInit]
  cases hg : nv.grubGiven with
  | false =>
    refine wp_bind (wp_pure (hsource t ms ht fun t' source hs ht' => ?_))
    exact hok t' [source] (.plain hg hs) ht'
  | true =>
    refine wp_bind (wp_bind (proves_utilMount ht (fun t' _ => wp_pure (wp_pure (hfail t'))) ?_))
    intro grub t₁ hgrub ht₁
    refine proves_utilMount ht₁ (fun t' _ => wp_pure (hfail t')) fun bind t₂ hbind ht₂ => ?_
    refine hsource t₂ _ ht₂ fun t₃ source hs ht₃ => ?_
    obtain rfl := hbind.eq (by simp [grubBind, MS_BIND])
    exact hok t₃ [source, grubBind nv, grub] (.grub hg hs (hgrub.typed (by simp [grubMount]))) ht₃

end Mounts

/-! ### `setup` -/

section Setup

variable {t : MountTable} {ms : List Mount} {g : Progress} {bootmode : BootMode} {nv : NvData}

theorem proves_deviceStages {info : List SysBlockUevent} {Q : Option ModuleData → World → Prop}
    (ht : t.Is ms) (hfail : ∀ t', Q none ⟨t', g⟩)
    (hok : ∀ data t' early, EarlyMounts nv early → t'.Is (early ++ ms) → Q (some data) ⟨t', g⟩) :
    Proves (deviceStages bootmode nv info) Q ⟨t, g⟩ := by
  refine (inert_findGrub nv info).bind fun grub => ?_
  cases grub with
  | none => exact wp_pure (hfail t)
  | some grub =>
    refine wp_bind (proves_epEarlyInit ht (fun t' => wp_pure (hfail t')) fun t' early hearly ht' => ?_)
    refine (inert_fstabStages bootmode nv info grub).proves fun data => ?_
    cases data with
    | none => exact hfail t'
    | some data => exact hok data t' early hearly ht'

theorem proves_readDevices {Q : Option ModuleData → World → Prop} (ht : t.Is ms)
    (hfail : ∀ t', Q none ⟨t', g⟩) (hok : ∀ data t' early, EarlyMounts nv early →
      t'.Is (early ++ unmount SYS ms) → Q (some data) ⟨t', g⟩) :
    Proves (readDevices bootmode nv) Q ⟨t, g⟩ := by
  refine (inert_ask rfl).bind fun info => ?_
  cases info with
  | none => exact wp_pure (hfail t)
  | some info =>
    refine proves_ask rfl fun ok => ?_
    refine (inert_ask rfl).bind fun _ => ?_
    refine (inert_createNodes _).bind fun _ => ?_
    exact proves_deviceStages (ht.umount SYS ok) hfail hok

/-- What is mounted at `/sys` is unmounted again before anything else is mounted. -/
theorem proves_sysStages {Q : Option ModuleData → World → Prop} (ht : t.Is ms)
    (hsys : unmount SYS ms = ms) (hfail : ∀ t', Q none ⟨t', g⟩)
    (hok : ∀ data t' early, EarlyMounts nv early → t'.Is (early ++ ms) → Q (some data) ⟨t', g⟩) :
    Proves (sysStages bootmode nv) Q ⟨t, g⟩ := by
  refine (inert_ask rfl).bind fun _ => proves_ask rfl fun ok => ?_
  cases ok with
  | false =>
    refine proves_readDevices ht hfail ?_
    rwa [hsys]
  | true =>
    have htarget : (kernelMount "sysfs".toList SYS).target = SYS := rfl
    refine proves_readDevices (ht.mount _) hfail ?_
    rwa [unmount_cons htarget]

/-- Nothing has been started yet. -/
structure Fresh (g : Progress) : Prop where
  inits : g.inits = 0
  forked : g.forked = none
  hooked : g.hooked = []

theorem proves_runInit {Q : End → World → Prop} (h : StartOk ⟨t, g⟩ (.execve INIT))
    (hQ : ∀ e g', EndOk g' e → Q e ⟨t, g'⟩) : Proves runInit Q ⟨t, g⟩ := by
  have hinits : g.inits = 0 := h.ready.1
  refine wp_perform (fun _ => h) fun replaced => ?_
  cases replaced with
  | false => exact wp_pure (hQ .failure g hinits)
  | true =>
    refine wp_pure (hQ .init { g with inits := g.inits + 1 } ?_)
    show g.inits + 1 = 1
    rw [hinits]

theorem nv_concat {done toks : List CString} {token : CString} {rc : ℤ}
    (htoks : g.tokens = done ++ token :: toks) (hlen : g.rcs.length = done.length) :
    Progress.nv { g with rcs := g.rcs ++ [rc] } = g.nv.bind fun nv => importKernelNv rc token nv := by
  have hcalls : (g.rcs ++ [rc]).zip g.tokens = g.rcs.zip g.tokens ++ [(rc, token)] := by
    have hzip : g.rcs.zip g.tokens = g.rcs.zip done := by
      have happ : (g.rcs ++ []).zip (done ++ token :: toks) =
          g.rcs.zip done ++ [].zip (token :: toks) := List.zip_append hlen
      rwa [List.append_nil, List.zip_nil_left, List.append_nil, ← htoks] at happ
    rw [hzip, htoks, List.zip_append hlen]
    rfl
  show run nvStep .cleared ((g.rcs ++ [rc]).zip g.tokens) = _
  rw [hcalls, run_concat]
  rfl

/-- **The command line**: the tokens are imported one by one; at `multiboot.ums` the process runs
`/init` with nothing but the private `/dev` mounted. -/
theorem proves_importTokens {dev : List Mount} {Q : Except End NvData → World → Prop} (ht : t.Is ms)
    (hdev : AtMost devMount dev) (hproc : unmount PROC ms = dev)
    (herr : ∀ e t' g', EndOk g' e → Q (.error e) ⟨t', g'⟩) (toks : List CString) :
    ∀ {g : Progress} (done : List CString) {data : NvData}, Fresh g → g.tokens = done ++ toks →
      g.rcs.length = done.length → g.nv = some data →
      (∀ g' nv', Fresh g' → g'.recovery = g.recovery → g'.nv = some nv' → Q (.ok nv') ⟨t, g'⟩) →
      Proves (importTokens toks data) Q ⟨t, g⟩ := by
  induction toks with
  | nil => exact fun done _ hfresh _ _ hnv hok => wp_pure (hok _ _ hfresh rfl hnv)
  | cons token toks ih =>
    intro g done data hfresh htoks hlen hnv hok
    refine proves_ask rfl fun rc => ?_
    have hnext : Progress.nv { g with rcs := g.rcs ++ [rc] } = importKernelNv rc token data := by
      rw [nv_concat htoks hlen, hnv]
      rfl
    cases himp : importKernelNv rc token data with
    | some data' =>
      rw [himp] at hnext
      refine ih (done ++ [token]) ⟨hfresh.inits, hfresh.forked, hfresh.hooked⟩ ?_ ?_ hnext hok
      · rw [List.append_assoc]
        exact htoks
      · show (g.rcs ++ [rc]).length = (done ++ [token]).length
        rw [List.length_append, List.length_append, hlen]
        rfl
    | none =>
      rw [himp] at hnext
      refine wp_bind (proves_ask rfl fun ok => ?_)
      refine (inert_ask rfl).bind fun _ => ?_
      refine (inert_ask rfl).bind fun _ => ?_
      refine (inert_sedReplace _ _).bind fun _ => ?_
      have htable := ht.umount PROC ok
      rw [hproc] at htable
      have hstart : StartOk ⟨t.umount PROC ok, { g with rcs := g.rcs ++ [rc] }⟩ (.execve INIT) := by
        refine ⟨⟨hfresh.inits, Or.inl ⟨hfresh.forked, hfresh.hooked, fun nv hnv' => ?_⟩⟩, dev, ?_, htable⟩
        · rw [hnext] at hnv'
          cases hnv'
        · rw [hnext]
          exact .ums hdev
      exact proves_runInit hstart fun e g' hend => wp_pure (herr e _ g' hend)

theorem unmount_append {target : CString} {ms₁ ms₂ : List Mount} (h : ∀ m ∈ ms₁, m.target ≠ target) :
    unmount target (ms₁ ++ ms₂) = ms₁ ++ unmount target ms₂ :=
  List.eraseP_append_right _ fun m hm hp => h m hm (beq_iff_eq.mp hp)

theorem EarlyMounts.target_ne {early : List Mount} (h : EarlyMounts nv early) :
    ∀ m ∈ early, m.target ≠ PROC := by
  have hsource : PATH_MOUNTPOINT_SOURCE ≠ PROC := by decide
  have hgrub : PATH_MOUNTPOINT_GRUB ≠ PROC := by decide
  have hbind : BOOTLOADER ≠ PROC := by decide
  intro m hm
  cases h with
  | plain hg hs =>
    obtain ⟨type, rfl⟩ := hs
    obtain rfl := List.mem_singleton.mp hm
    exact hsource
  | grub hg hs hm' =>
    obtain ⟨type, rfl⟩ := hs
    obtain ⟨type', rfl⟩ := hm'
    rcases List.mem_cons.mp hm with rfl | hm
    · exact hsource
    rcases List.mem_cons.mp hm with rfl | hm
    · exact hbind
    obtain rfl := List.mem_singleton.mp hm
    exact hgrub

/-- procfs is unmounted, and mounted at its private place. -/
theorem proves_leaveProc {Q : Unit → World → Prop} (ht : t.Is ms)
    (hQ : ∀ t' proc, AtMost (kernelMount "proc".toList MULTIBOOT_PROC) proc →
      t'.Is (proc ++ unmount PROC ms) → Q () ⟨t', g⟩) : Proves leaveProc Q ⟨t, g⟩ := by
  refine proves_ask rfl fun ok => (inert_ask rfl).bind fun _ => proves_ask rfl fun mounted => ?_
  have ht₁ := ht.umount PROC ok
  cases mounted with
  | false => exact wp_pure (hQ _ [] (Or.inl rfl) ht₁)
  | true => exact wp_pure (hQ _ [_] (Or.inr rfl) (ht₁.mount _))

/-- What a successful `setup` leaves. -/
structure SetupOk (b : Booted) (w : World) : Prop where
  fresh : Fresh w.progress
  nv : w.progress.nv = some b.nv
  recovery : w.progress.recovery = (b.bootmode == .RECOVERY)
  mounts : ∃ ms, InitMounts (some b.nv) ms ∧ w.table.Is ms

/-- How `setup` ends: the process has ended in it, or it fails, or all is set up. -/
def SetupPost (res : Except End (Option Booted)) (w : World) : Prop :=
  match res with
  | .error e => EndOk w.progress e
  | .ok none => Fresh w.progress
  | .ok (some b) => SetupOk b w

theorem proves_parseCmdline {dev : List Mount} (ht : t.Is ms) (hdev : AtMost devMount dev)
    (hsys : unmount SYS ms = ms) (hproc : unmount PROC ms = dev) (hfresh : Fresh g)
    (hrcs : g.rcs = []) (hrecovery : g.recovery = (bootmode == .RECOVERY)) :
    Proves (parseCmdline bootmode) SetupPost ⟨t, g⟩ := by
  refine proves_ask rfl fun file => ?_
  have hnv : Progress.nv { g with file := file } = some .cleared := by
    rw [Progress.nv, hrcs]
    rfl
  show Proves (_ >>= _) SetupPost ⟨t, { g with file := file }⟩
  refine wp_bind (proves_importTokens ht hdev hproc (fun e t' g' hend => hend)
    (cmdlineTokens (readCmdline file)) [] ⟨hfresh.inits, hfresh.forked, hfresh.hooked⟩ rfl
    (by rw [hrcs]; rfl) hnv ?_)
  intro g' nv hfresh' hrec' hnv'
  have hrecovery' := hrec'.trans hrecovery
  show Proves (setupStages bootmode nv >>= fun booted => leaveProc >>= fun _ => pure (.ok booted))
    SetupPost ⟨t, g'⟩
  rw [setupStages]
  cases hen : enabled nv with
  | false =>
    refine wp_bind (wp_pure (wp_bind (proves_leaveProc ht fun t' proc hp ht' => wp_pure ?_)))
    rw [hproc] at ht'
    exact ⟨hfresh', hnv', hrecovery', _, .disabled hen hdev hp, ht'⟩
  | true =>
    refine wp_bind (wp_bind (proves_sysStages ht hsys (fun t' => ?_) ?_))
    · have hself : t'.Is t'.mounts := fun _ => rfl
      refine wp_pure (wp_bind (proves_leaveProc hself ?_))
      exact fun _ _ _ _ => wp_pure hfresh'
    · intro data t' early hearly ht'
      refine wp_pure (wp_bind (proves_leaveProc ht' fun t'' proc hp ht'' => wp_pure ?_))
      rw [unmount_append hearly.target_ne, hproc, ← List.append_assoc] at ht''
      exact ⟨hfresh', hnv', hrecovery', _, .enabled hen hdev hearly hp, ht''⟩

theorem proves_setupProc {dev : List Mount} (ht : t.Is dev) (hdev : AtMost devMount dev)
    (hfresh : Fresh g) (hrcs : g.rcs = []) (hrecovery : g.recovery = (bootmode == .RECOVERY)) :
    Proves (setupProc bootmode) SetupPost ⟨t, g⟩ := by
  have hsys : unmount SYS dev = dev := by
    rcases hdev with rfl | rfl
    · rfl
    · decide
  have hproc : unmount PROC dev = dev := by
    rcases hdev with rfl | rfl
    · rfl
    · decide
  refine (inert_ask rfl).bind fun _ => proves_ask rfl fun ok => ?_
  cases ok with
  | false => exact proves_parseCmdline ht hdev hsys hproc hfresh hrcs hrecovery
  | true =>
    refine proves_parseCmdline (ht.mount _) hdev ?_ (unmount_cons rfl dev) hfresh hrcs hrecovery
    rw [unmount_cons_of_ne (by decide), hsys]

theorem proves_setup (ht : t.Is []) (hfresh : Fresh g) (hrcs : g.rcs = []) :
    Proves setup SetupPost ⟨t, g⟩ := by
  refine proves_ask rfl fun recovery => ?_
  have hrest : ∀ t' dev, t'.Is dev → AtMost devMount dev → Proves (do
      let made ← ask (.mknod (PATH_MOUNTPOINT_DEV ++ "/zero".toList))
      if made then do
        let made ← ask (.mkpath PATH_MOUNTPOINT_STUBFS)
        if made then setupProc (if recovery then .RECOVERY else .ANDROID) else pure (.ok none)
      else pure (.ok none)) SetupPost ⟨t', { g with recovery := recovery }⟩ := by
    intro t' dev ht' hdev
    have hfresh' : Fresh { g with recovery := recovery } := ⟨hfresh.inits, hfresh.forked, hfresh.hooked⟩
    refine (inert_ask rfl).bind fun made => ?_
    cases made with
    | false => exact wp_pure hfresh'
    | true =>
      refine (inert_ask rfl).bind fun made => ?_
      cases made with
      | false => exact wp_pure hfresh'
      | true =>
        refine proves_setupProc ht' hdev hfresh' hrcs ?_
        cases recovery <;> rfl
  refine wp_bind (proves_utilMount ht (fun t' ht' => hrest t' [] ht' (Or.inl rfl)) ?_)
  intro m t' hm ht'
  obtain rfl := hm.eq rfl
  exact hrest t' _ ht' (Or.inr rfl)

end Setup

/-! ### `main` -/

section Main

variable {t : MountTable} {g : Progress}

/-- Every hook is set, in order, or the loop stops. -/
theorem proves_setHooks {Q : Bool → World → Prop} (hooks : List Syscall) :
    ∀ {g : Progress}, (∀ g', g'.inits = g.inits → Q false ⟨t, g'⟩) →
      Q true ⟨t, { g with hooked := g.hooked ++ hooks }⟩ → Proves (setHooks hooks) Q ⟨t, g⟩ := by
  induction hooks with
  | nil =>
    intro g _ hok
    rw [List.append_nil] at hok
    exact wp_pure hok
  | cons hook hooks ih =>
    intro g hfail hok
    refine proves_ask rfl fun ok => ?_
    cases ok with
    | false => exact wp_pure (hfail g rfl)
    | true =>
      refine ih (g := { g with hooked := g.hooked ++ [hook] }) hfail ?_
      show Q true ⟨t, { g with hooked := (g.hooked ++ [hook]) ++ hooks }⟩
      rw [List.append_assoc]
      exact hok

theorem proves_fsrTracyInit {nv : NvData} {Q : Bool → World → Prop} (hfresh : Fresh g)
    (hfail : ∀ g', g'.inits = 0 → Q false ⟨t, g'⟩)
    (hok : Q true ⟨t, { g with hooked := allHooks }⟩) : Proves (fsrTracyInit nv) Q ⟨t, g⟩ := by
  refine wp_bind (proves_setHooks allHooks (fun g' hg' => ?_) ?_)
  · exact wp_pure (hfail g' (hg'.trans hfresh.inits))
  · rw [hfresh.hooked, List.nil_append]
    refine (inert_ask rfl).bind fun _ => (inert_ask rfl).bind fun _ => wp_pure hok

/-- How `main` ends. -/
def MainPost (e : End) (w : World) : Prop := EndOk w.progress e

theorem proves_mainLoop (h : EndOk g .success) : Proves mainLoop MainPost ⟨t, g⟩ :=
  (inert_ask rfl).bind fun _ => wp_pure h

theorem proves_tracer {b : Booted} (h : SetupOk b ⟨t, g⟩) (hen : enabled b.nv = true) :
    Proves (tracer b) MainPost ⟨t, g⟩ := by
  obtain ⟨hfresh, hnv, hrecovery, ms, hms, ht⟩ := h
  refine wp_bind (proves_fsrTracyInit hfresh (fun g' hg' => wp_pure hg') ?_)
  have hhooked : ∀ forked, Hooked { g with hooked := allHooks, forked := forked } :=
    fun _ => ⟨rfl, b.nv, hnv, hen⟩
  have hmounts : ∃ ms, InitMounts g.nv ms ∧ t.Is ms := ⟨ms, by rwa [show g.nv = some b.nv from hnv], ht⟩
  cases hmode : b.bootmode with
  | RECOVERY =>
    have hrec : g.recovery = true := by
      rw [show g.recovery = _ from hrecovery, hmode]
      rfl
    refine wp_perform (fun _ => ⟨⟨hfresh.inits, hhooked g.forked, hrec, hfresh.forked⟩, hmounts⟩)
      fun ok => ?_
    cases ok with
    | false => exact wp_pure hfresh.inits
    | true =>
      refine proves_mainLoop ⟨rfl, Or.inl ⟨?_, hfresh.forked⟩⟩
      show g.inits + 1 = 1
      rw [show g.inits = 0 from hfresh.inits]
  | ANDROID =>
    have hrec : g.recovery = false := by
      rw [show g.recovery = _ from hrecovery, hmode]
      rfl
    have hparent : ∀ pid, (pid = .parent ∨ pid = .failed) → Proves (do
        let ok ← ask .sigaction
        if ok then mainLoop else pure .failure) MainPost
          ⟨t, { g with hooked := allHooks, forked := some pid }⟩ := by
      intro pid hpid
      refine (inert_ask rfl).bind fun ok => ?_
      cases ok with
      | false => exact wp_pure hfresh.inits
      | true => exact proves_mainLoop ⟨rfl, Or.inr ⟨hfresh.inits, hpid.imp (congrArg some) (congrArg some)⟩⟩
    refine proves_ask rfl fun pid => ?_
    cases pid with
    | child =>
      refine proves_runInit ⟨⟨hfresh.inits, Or.inr ⟨hhooked _, hrec, rfl⟩⟩, hmounts⟩ ?_
      exact fun _ _ hend => hend
    | parent => exact hparent .parent (Or.inl rfl)
    | failed => exact hparent .failed (Or.inr rfl)

theorem proves_runVold {Q : Bool → World → Prop} (hQ : ∀ replaced, Q replaced ⟨t, g⟩) :
    Proves runVold Q ⟨t, g⟩ := by
  refine (inert_ask rfl).bind fun _ => (inert_ask rfl).bind fun _ => ?_
  refine (inert_utilCopy _ _ _ _).bind fun _ => ⟨safe_of_not (by decide), fun replaced => ?_⟩
  cases replaced with
  | false => exact hQ false
  | true =>
    have hstep : (⟨t, g⟩ : World).step ⟨.execve VOLD, true⟩ = ⟨t, g⟩ := by
      show (⟨t, if VOLD = INIT then { g with inits := g.inits + 1 } else g⟩ : World) = ⟨t, g⟩
      rw [if_neg (by decide)]
    rw [hstep]
    exact hQ true

theorem proves_main (voldwrapper : Bool) : Proves (main voldwrapper) MainPost World.init := by
  have hfresh : Fresh World.init.progress := ⟨rfl, rfl, rfl⟩
  have hrest : Proves (do
      let booted ← setup
      match booted with
      | .error e => pure e
      | .ok none => pure .failure
      | .ok (some b) => if enabled b.nv then tracer b else runInit) MainPost World.init := by
    refine wp_bind (wp_mono ?_ (proves_setup (fun _ => rfl) hfresh rfl))
    rintro (e | _ | b) ⟨t, g⟩ hpost
    · exact wp_pure hpost
    · exact wp_pure hpost.inits
    · have hok : SetupOk b ⟨t, g⟩ := hpost
      show Proves (if enabled b.nv = true then tracer b else runInit) MainPost ⟨t, g⟩
      cases hen : enabled b.nv with
      | true => exact proves_tracer hok hen
      | false =>
        obtain ⟨hfresh', hnv, -, ms, hms, ht⟩ := hok
        have hnv' : g.nv = some b.nv := hnv
        have hplain : Plain g := by
          refine ⟨hfresh'.forked, hfresh'.hooked, fun nv h => ?_⟩
          obtain rfl := Option.some.inj (hnv'.symm.trans h)
          exact hen
        refine proves_runInit ⟨⟨hfresh'.inits, Or.inl hplain⟩, ms, by rwa [hnv'], ht⟩ ?_
        exact fun _ _ hend => hend
  cases voldwrapper with
  | false => exact wp_bind (wp_pure hrest)
  | true =>
    refine wp_bind (proves_runVold fun replaced => ?_)
    cases replaced with
    | true => exact wp_pure rfl
    | false => exact hrest

/-- **Who starts `/init`**: at most one call does, and then either the process runs it itself, with no
hook set, because nothing is enabled or for `multiboot.ums`; or multiboot or 2ndstage is enabled and all
hooks are set, and `/init` is traced in recovery and run by the child of a fork otherwise. -/
theorem main_ready (voldwrapper : Bool) : (main voldwrapper).Always fun before c =>
    c.startsInit = true → Ready (before.foldl World.step World.init).progress c :=
  fun es e hrun before ev after hes hstart =>
    (always_of_wp (proves_main voldwrapper) es e hrun before ev after hes hstart).ready

/-- **What is mounted when `/init` starts**, whichever calls fail: unless it is a `umount`, the private
`/dev` and `/proc` at most once each, and where multiboot or 2ndstage is enabled the source and grub's
file systems, each once; `/proc` and `/sys` are not, and no file system is left from a check. -/
theorem main_mounts (voldwrapper : Bool) : (main voldwrapper).Always fun before c =>
    c.startsInit = true → ∃ ms, InitMounts (before.foldl World.step World.init).progress.nv ms ∧
      (before.foldl World.step World.init).table.Is ms :=
  fun es e hrun before ev after hes hstart =>
    (always_of_wp (proves_main voldwrapper) es e hrun before ev after hes hstart).mounts

/-- **How a process ends**: it becomes `/init` once, or the wrapped daemon, or it fails without having
started `/init`, or it has been the tracer, with all hooks set, of an `/init` that it started or of one
that was left to the other side of a fork, even of a fork that failed. -/
theorem main_ends (voldwrapper : Bool) : (main voldwrapper).Ends fun es e =>
    EndOk (es.foldl World.step World.init).progress e := ends_of_wp (proves_main voldwrapper)

/-- Every call succeeds, and every fstab has the cache partition. -/
def demoAnswer (cmdline : CString) (_ : List (Event Call.Ans)) : (c : Call) → c.Ans
  | .probe _ => some EXT4
  | .read _ => some "/dev/block/mmcblk0p2 /cache ext4 rw multiboot\n".toList
  | .cmdline => some cmdline
  | .opendir => some []
  | .rc => 0
  | .junk => default
  | .prepareJunk => ⟨default, default, fun _ => default, fun _ _ => default⟩
  | .blockDevices => some demoEnv.blockInfo
  | .patchEnv => ⟨fun _ _ => default, fun _ => true⟩
  | .initEnv => ⟨fun _ => 0, ⟨none, [⟨none, ⟨true, .finished⟩⟩]⟩, fun _ => none⟩
  | .fork => .parent
  | .stat _ | .mkdir _ | .mkpath _ | .mknod _ | .chmod _ | .unlink _ | .chown _ | .mount _ | .umount _
  | .tool _ | .write _ | .closedir | .realloc | .setHook _ | .execve _ | .tracyExec _
  | .sigaction | .kill | .tracyMain => true

def demoLine : CString := "multiboot.source=(hd0,1)/android\n".toList

/-- A recovery that is traced to its end. -/
example : ∃ es, (main false).Runs es .success := by
  have hend : ((main false).exec (demoAnswer demoLine) []).2 = .success := by decide
  obtain ⟨es, -, hrun⟩ := exec_runs (demoAnswer demoLine) (main false) []
  exact ⟨es, hend ▸ hrun⟩

end Main

end Multiboot.Boot
