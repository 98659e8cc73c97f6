import Multiboot.Lib.Calls
import Multiboot.DeviceNames
import Multiboot.EnvPrepare
import Multiboot.FstabTable
import Multiboot.Hooks
import Multiboot.Patcher
import Multiboot.Startup
import Multiboot.Wipe

/-!
# From `main` to `/init`

`main` of the boot program as a program that makes calls (`Lib.Prog`): what the kernel, the tools and
the files answer comes from outside, call by call, and so do the values of variables that nothing has
assigned.  A fork goes on as the one process or as the other.

The stages themselves are the functions of the other modules, on the answers of their calls.
-/

namespace Multiboot.Boot

open Lib Lib.Prog

/-! ### Calls -/

structure Mount where
  source : CString
  target : CString
  type : Option CString
  flags : Long
  data : Option CString
  deriving DecidableEq, Repr

inductive Forked
  | child | parent | failed
  deriving DecidableEq, Repr

/-- What `ep_fstab_init` finds outside. -/
structure InitEnv where
  blocks : CString → ℕ
  calls : InitCalls
  tree : Tree

/-- What `fp_fstab_init` finds outside. -/
structure PatchEnv where
  junk : ℕ → ℕ → Junk
  fopenOk : ℕ → Bool

inductive Call
  | stat (path : CString)
  | mkdir (path : CString)
  | mkpath (path : CString)
  | mknod (path : CString)
  | chmod (path : CString)
  | unlink (path : CString)
  | chown (path : CString)
  | mount (m : Mount)
  | umount (target : CString)
  /-- `get_fstype`. -/
  | probe (device : CString)
  /-- `do_exec`. -/
  | tool (args : List CString)
  | read (path : CString)
  /-- `/proc/cmdline`. -/
  | cmdline
  | write (path : CString)
  | opendir
  | closedir
  | realloc
  /-- What `rc` of `import_kernel_nv` starts with. -/
  | rc
  | junk
  | prepareJunk
  | blockDevices
  | patchEnv
  | initEnv
  | setHook (call : Syscall)
  | execve (path : CString)
  | tracyExec (path : CString)
  | fork
  | sigaction
  | kill
  | tracyMain

/-- The type of the answers; where it is `Bool`, whether the call succeeds. -/
@[reducible] def Call.Ans : Call → Type
  | .probe _ | .read _ | .cmdline => Option CString
  | .opendir => Option (List Dirent)
  | .rc => ℤ
  | .junk => Junk
  | .prepareJunk => PrepareJunk
  | .blockDevices => Option (List SysBlockUevent)
  | .patchEnv => PatchEnv
  | .initEnv => InitEnv
  | .fork => Forked
  | _ => Bool

abbrev Proc := Prog Call Call.Ans

def ask (c : Call) : Proc c.Ans := perform c

/-- A part that is only gone through where a condition holds. -/
def onlyIf (c : Bool) (p : Proc Unit) : Proc Unit := if c then p else pure ()

/-! ### Mounting -/

def E2FSCK_BIN : CString := "/multiboot/e2fsck".toList
def MS_NOSUID : Long := 2
/-- `MS_NOATIME | MS_NOEXEC | MS_NOSUID`. -/
def TMPMNT_FLAGS : Long := 0x40a

def tmpMount (blkDevice fsType target : CString) : Mount :=
  ⟨blkDevice, target, some fsType, TMPMNT_FLAGS, some "nomblk_io_submit,errors=remount-ro".toList⟩

/-- `check_fs`. -/
def checkFs (blkDevice fsType target : CString) : Proc Unit :=
  if fsType = "ext2".toList ∨ fsType = "ext3".toList ∨ fsType = "ext4".toList then do
    let mounted ← ask (.mount (tmpMount blkDevice fsType target))
    onlyIf mounted (do let _ ← ask (.umount target))
    let _ ← ask (.tool [E2FSCK_BIN, "-y".toList, blkDevice])
  else pure ()

/-- The type `util_mount` uses. -/
def mountType (source : CString) (type : Option CString) (flags : Long) : Proc (Option CString) :=
  if type.isNone && flags &&& MS_BIND == 0 then do
    let found ← ask (.probe source)
    pure (some (found.getD EXT4))
  else pure type

/-- `util_mount` once the directory has been made. -/
def mountAt (m : Mount) : Proc Bool := do
  -- get fstype of source partition
  let type ← mountType m.source m.type m.flags
  onlyIf (m.flags &&& MS_BIND == 0) (checkFs m.source (type.getD []) m.target)
  ask (.mount { m with type := type })

def utilMount (m : Mount) : Proc Bool := do
  let made ← ask (.mkpath m.target)
  if made then mountAt m else pure false

/-! ### Tools -/

def sedReplace (file regex : CString) : Proc Unit := do
  let _ ← ask (.tool [PATH_MULTIBOOT_BUSYBOX, "sed".toList, "-i".toList, regex, file])

def utilCopy (source target : CString) (recursive force : Bool) : Proc Unit := do
  let _ ← ask (.tool ([PATH_MULTIBOOT_BUSYBOX, "cp".toList] ++
    (if recursive then ["-R".toList] else []) ++ (if force then ["-f".toList] else []) ++
    [source, target]))

def utilChmod (path mode : CString) (recursive : Bool) : Proc Unit := do
  let _ ← ask (.tool ([PATH_MULTIBOOT_BUSYBOX, "chmod".toList] ++
    (if recursive then ["-R".toList] else []) ++ [mode, path]))

/-! ### The command line -/

/-- How a process ends. -/
inductive End
  /-- It has become `/init`. -/
  | init
  /-- It has become the daemon that `voldwrapper` wraps. -/
  | vold
  | failure
  /-- `main` has returned behind the event loop. -/
  | success
  deriving DecidableEq, Repr

def PROC : CString := "/proc".toList
def SYS : CString := "/sys".toList
def INIT : CString := "/init".toList
def UMS_SCRIPT : CString := "/sbin/ums.sh".toList

/-- `run_init(NULL)` and what its callers do then. -/
def runInit : Proc End := do
  let replaced ← ask (.execve INIT)
  pure (if replaced then .init else .failure)

/-- The branch of `multiboot.ums`. -/
def runUms : Proc End := do
  let _ ← ask (.umount PROC)
  -- create script
  let _ ← ask (.write UMS_SCRIPT)
  let _ ← ask (.chmod UMS_SCRIPT)
  -- patch init.rc
  sedReplace "/init.rc".toList "s/\\/sbin\\/recovery/\\/sbin\\/ums.sh/g".toList
  -- run init
  runInit

/-- `import_kernel_cmdline(import_kernel_nv)` on the tokens; `error`: the process ends there. -/
def importTokens : List CString → NvData → Proc (Except End NvData)
  | [], data => pure (.ok data)
  | token :: tokens, data => do
    let rc ← ask .rc
    match importKernelNv rc token data with
    | some data => importTokens tokens data
    | none => do
      let e ← runUms
      pure (.error e)

/-! ### `ep_early_init` -/

def BOOTLOADER : CString := "/bootloader".toList

def grubMount (nv : NvData) : Mount :=
  ⟨snprintf PATH_MAX ("/multiboot".toList ++ showS nv.grubDevice.blkDevice),
    PATH_MOUNTPOINT_GRUB, none, 0, none⟩

def grubBind (nv : NvData) : Mount :=
  ⟨snprintf PATH_MAX (PATH_MOUNTPOINT_GRUB ++ ['/'] ++ showS nv.grubPath ++ "/..".toList),
    BOOTLOADER, none, MS_BIND, none⟩

def sourceMount (nv : NvData) : Mount :=
  ⟨snprintf PATH_MAX ("/multiboot".toList ++ showS nv.multibootDevice.blkDevice),
    PATH_MOUNTPOINT_SOURCE, none, 0, none⟩

/-- The mounts of grub's partition and of its directory. -/
def mountGrub (nv : NvData) : Proc Bool := do
  let mounted ← utilMount (grubMount nv)
  -- bind mount subfolder
  if mounted then utilMount (grubBind nv) else pure false

/-- The end of `ep_early_init`: none of its results is looked at. -/
def patchFiles (bootmode : BootMode) (nv : NvData) : Proc Unit := do
  let hw := showS nv.hwName
  -- setup voldwrapper, visual recovery patches
  onlyIf (bootmode != .RECOVERY) (sedReplace "/init.rc".toList
    "s/\\/system\\/bin\\/vold/\\/multiboot\\/sbin\\/init voldwrapper/g".toList)
  onlyIf (bootmode == .RECOVERY && nv.multibootEnabled)
    (utilCopy "/multiboot/res/twrp_curtain.jpg".toList "/res/images/curtain.jpg".toList false false)
  -- dualboot_init
  let buf := snprintf PATH_MAX ("/init.".toList ++ hw ++ ".rc".toList)
  sedReplace buf
    (snprintf PATH_MAX ("s/exec \\/sbin\\/dualboot_init .\\/fstab.".toList ++ hw ++ "//g".toList))
  let _ ← ask (.unlink "/sbin/dualboot_init".toList)
  -- fstab loader
  sedReplace buf (snprintf PATH_MAX ("s/fstab.".toList ++ hw ++ ".patched/fstab.".toList ++ hw ++
    "/g".toList))
  -- syspart_select
  let buf := snprintf PATH_MAX ("/init.recovery.".toList ++ hw ++ ".rc".toList)
  sedReplace buf "s/exec \\/sbin\\/syspart_select auto//g".toList
  let _ ← ask (.unlink "/sbin/syspart_select".toList)

/-- `ep_early_init` behind the mounts of grub. -/
def mountSource (bootmode : BootMode) (nv : NvData) : Proc Bool := do
  -- create local copy of multiboot files
  utilCopy (BOOTLOADER ++ "/multiboot".toList) ['/'] true true
  let _ ← ask (.chmod PATH_MULTIBOOT_BUSYBOX)
  -- update to more secure permissions
  utilChmod "/multiboot/etc".toList "0600".toList true
  utilChmod "/multiboot/sbin".toList "0700".toList true
  -- mount source partition
  let mounted ← utilMount (sourceMount nv)
  onlyIf mounted (patchFiles bootmode nv)
  pure mounted

def epEarlyInit (bootmode : BootMode) (nv : NvData) : Proc Bool := do
  -- mount grub device
  let ok ← if nv.grubGiven then mountGrub nv else pure true
  if ok then mountSource bootmode nv else pure false

/-! ### The fstabs -/

/-- The loop of `load_multiboot_fstab`. -/
def loadLoop (multibootPath : Option CString) :
    ℕ → List FstabRec → List FstabRec → Proc (Option (List FstabRec))
  | _, done, [] => pure (some done)
  | loopsCreated, done, rec :: recs => do
    let ok ← ask (.mknod (loopName (255 - loopsCreated)))
    match makeLoop [] none ok loopsCreated with
    | (none, _) => pure none
    | (some loopdev, loopsCreated) =>
      loadLoop multibootPath loopsCreated (done ++ [replaceRec multibootPath loopdev rec]) recs

def loadMultibootFstab (nv : NvData) : Proc (Option Fstab) := do
  let file ← ask (.read FILE_FSTAB)
  match doFsMgrReadFstab false file with
  | none => pure none
  | some cols => do
    let fstab := RomFstab.toFstab ⟨cols, FILE_FSTAB, false⟩
    let recs ← loadLoop nv.multibootPath 0 [] fstab.recs
    pure (recs.map fun recs => { fstab with recs := recs })

/-- `add_fstab`. -/
def addFstab (path : CString) (targets : List RomFstab) : Proc (Option (List RomFstab)) := do
  let file ← ask (.read path)
  match doFsMgrReadFstab false file with
  | some cols => do
    let ok ← ask .realloc
    pure (if ok then some (targets ++ [⟨cols, path, false⟩]) else none)
  | none => do
    let file ← ask (.read path)
    match doFsMgrReadFstab true file with
    | none => pure none
    | some cols => do
      let ok ← ask .realloc
      pure (if ok then some (targets ++ [⟨cols, path, true⟩]) else none)

/-- The loop of `find_fstab`. -/
def findLoop : List Dirent → List RomFstab → Proc (Option (List RomFstab))
  | [], targets => do
    let ok ← ask .closedir
    pure (if ok then some targets else none)
  | dt :: dir, targets =>
    if isFstab dt then do
      let targets ← addFstab dt.name targets
      match targets with
      | none => pure none
      | some targets => findLoop dir targets
    else findLoop dir targets

def findInRoot (targets : List RomFstab) : Proc (Option (List RomFstab)) := do
  let dir ← ask .opendir
  match dir with
  | none => pure none
  | some dir => findLoop dir targets

/-- `find_fstab(add_fstab)`. -/
def findFstab (bootmode : BootMode) : Proc (Option (List RomFstab)) :=
  match bootmode with
  | .ANDROID => findInRoot []
  | .RECOVERY => do
    let found ← ask (.stat FSTAB_RECOVERY)
    if found then do
      let targets ← addFstab FSTAB_RECOVERY []
      match targets with
      | none => pure none
      | some targets => findInRoot targets
    else findInRoot []

/-! ### `setup` -/

def FILE_RECOVERY_BINARY : CString := "/sbin/recovery".toList
def MULTIBOOT_PROC : CString := "/multiboot/proc".toList

def devMount : Mount :=
  ⟨"tmpfs".toList, PATH_MOUNTPOINT_DEV, some "tmpfs".toList, MS_NOSUID, some "mode=0755".toList⟩

/-- A mount of procfs or sysfs. -/
def kernelMount (source target : CString) : Mount := ⟨source, target, some source, 0, none⟩

/-- `module_data` before `prepare_fstab`. -/
def bootData (bootmode : BootMode) (nv : NvData) (info : List SysBlockUevent)
    (grub : Option SysBlockUevent) (fstab : Fstab) (targets : List RomFstab) : ModuleData :=
  { bootmode := bootmode
    multibootEnabled := nv.multibootEnabled
    sndstageEnabled := nv.sndstageEnabled
    multibootPath := nv.multibootPath
    multibootDevice :=
      { importDevice [] none with
        blkDevice := nv.multibootDevice.blkDevice.getD []
        mountPoint := nv.multibootDevice.mountPoint.getD [] }
    grubPath := nv.grubPath
    grubDevice :=
      { importDevice [] none with
        blkDevice := nv.grubDevice.blkDevice.getD []
        mountPoint := nv.grubDevice.mountPoint.getD [] }
    grubBlockinfo := grub
    multibootFstab := fstab
    targetFstabs := targets.map RomFstab.toFstab
    blockInfo := info }

/-- `modules_call_fstab_init`, in the order the modules are linked in. -/
def fstabInit (data : ModuleData) : Proc Bool := do
  let env ← ask .patchEnv
  match fpFstabInit env.junk env.fopenOk data with
  | none => pure false
  | some _ => do
    let env ← ask .initEnv
    pure (decide ((epFstabInit env.blocks data env.calls env.tree).rc = .done))

/-- From the fstabs on. -/
def fstabStages (bootmode : BootMode) (nv : NvData) (info : List SysBlockUevent)
    (grub : Option SysBlockUevent) : Proc (Option ModuleData) := do
  -- load multiboot fstab
  let fstab ← loadMultibootFstab nv
  match fstab with
  | none => pure none
  | some fstab => do
    -- load target fstabs
    let targets ← findFstab bootmode
    match targets with
    | none => pure none
    | some targets => do
      -- fill fstabs with more info
      let junk ← ask .prepareJunk
      let data := prepareFstab junk (bootData bootmode nv info grub fstab targets)
      let ok ← fstabInit data
      pure (if ok then some data else none)

/-- Grub's partition (`none`: it is given and is not there). -/
def findGrub (nv : NvData) (info : List SysBlockUevent) : Proc (Option (Option SysBlockUevent)) :=
  if nv.grubGiven then do
    let junk ← ask .junk
    pure ((getBlockinfoForPath junk info (nv.grubDevice.blkDevice.getD [])).map some)
  else pure (some none)

/-- From the block devices on. -/
def deviceStages (bootmode : BootMode) (nv : NvData) (info : List SysBlockUevent) :
    Proc (Option ModuleData) := do
  -- get grub blockinfo
  let grub ← findGrub nv info
  match grub with
  | none => pure none
  | some grub => do
    -- early init
    let ok ← epEarlyInit bootmode nv
    if ok then fstabStages bootmode nv info grub else pure none

/-- `uevent_create_nodes`. -/
def createNodes : List (CString × Dev) → Proc Unit
  | [] => pure ()
  | node :: nodes => do
    let _ ← ask (.mknod node.1)
    createNodes nodes

/-- `setup` with sysfs mounted. -/
def readDevices (bootmode : BootMode) (nv : NvData) : Proc (Option ModuleData) := do
  let info ← ask .blockDevices
  match info with
  -- `/sys` stays mounted
  | none => pure none
  | some info => do
    let _ ← ask (.umount SYS)
    let _ ← ask (.mkdir (PATH_MOUNTPOINT_DEV ++ "/block".toList))
    createNodes (ueventCreateNodes info PATH_MOUNTPOINT_DEV)
    deviceStages bootmode nv info

def sysStages (bootmode : BootMode) (nv : NvData) : Proc (Option ModuleData) := do
  -- mount sysfs
  let _ ← ask (.mkdir SYS)
  let _ ← ask (.mount (kernelMount "sysfs".toList SYS))
  readDevices bootmode nv

/-- `module_data.multiboot_enabled || module_data.sndstage_enabled`. -/
def enabled (nv : NvData) : Bool := nv.multibootEnabled || nv.sndstageEnabled

/-- What `main` needs of a successful `setup`. -/
structure Booted where
  bootmode : BootMode
  nv : NvData
  data : Option ModuleData

def setupStages (bootmode : BootMode) (nv : NvData) : Proc (Option Booted) :=
  if enabled nv then do
    let data ← sysStages bootmode nv
    pure (data.map fun data => ⟨bootmode, nv, some data⟩)
  -- we don't need any patching or tracing
  else pure (some ⟨bootmode, nv, none⟩)

/-- `unmount_procfs`, also behind an error. -/
def leaveProc : Proc Unit := do
  let _ ← ask (.umount PROC)
  -- mount private procfs for tracy
  let _ ← ask (.mkdir MULTIBOOT_PROC)
  let _ ← ask (.mount (kernelMount "proc".toList MULTIBOOT_PROC))

/-- `setup` from the command line on. -/
def parseCmdline (bootmode : BootMode) : Proc (Except End (Option Booted)) := do
  let file ← ask .cmdline
  let nv ← importTokens (cmdlineTokens (readCmdline file)) .cleared
  match nv with
  | .error e => pure (.error e)
  | .ok nv => do
    let booted ← setupStages bootmode nv
    leaveProc
    pure (.ok booted)

/-- `setup` from the mount of procfs on. -/
def setupProc (bootmode : BootMode) : Proc (Except End (Option Booted)) := do
  let _ ← ask (.mkdir PROC)
  let _ ← ask (.mount (kernelMount "proc".toList PROC))
  parseCmdline bootmode

/-- `setup` (`error`: the process ends there, `ok none`: it fails). -/
def setup : Proc (Except End (Option Booted)) := do
  -- get system type
  let recovery ← ask (.stat FILE_RECOVERY_BINARY)
  -- mount private dev fs
  let _ ← utilMount devMount
  -- basic /dev nodes
  let made ← ask (.mknod (PATH_MOUNTPOINT_DEV ++ "/zero".toList))
  if made then do
    -- make stubfs dir
    let made ← ask (.mkpath PATH_MOUNTPOINT_STUBFS)
    if made then setupProc (if recovery then .RECOVERY else .ANDROID) else pure (.ok none)
  else pure (.ok none)

/-! ### `main` -/

/-- What `fsr_tracy_init` hooks, in its order. -/
def allHooks : List Syscall :=
  info.map RedirectInfo.syscall ++ [.close, .dup, .dup2, .dup3, .fcntl, .fcntl64, .mount]

def setHooks : List Syscall → Proc Bool
  | [] => pure true
  | hook :: hooks => do
    let ok ← ask (.setHook hook)
    if ok then setHooks hooks else pure false

def fsrTracyInit (nv : NvData) : Proc Bool := do
  let hooked ← setHooks allHooks
  if hooked then do
    -- create android_secure folder
    let dir := snprintf PATH_MAX (PATH_MOUNTPOINT_SOURCE ++ showS nv.multibootPath ++
      "/android_secure".toList)
    let _ ← ask (.mkpath dir)
    let _ ← ask (.chown dir)
    pure true
  else pure false

/-- The event loop and what is left behind it. -/
def mainLoop : Proc End := do
  let _ ← ask .tracyMain
  pure .success

/-- Run and trace `/init`. -/
def runTraced : Proc End := do
  let ok ← ask (.tracyExec INIT)
  if ok then mainLoop else pure .failure

/-- Start `/init` in a child process. -/
def runForked : Proc End := do
  let pid ← ask .fork
  match pid with
  | .child => runInit
  | _ => do
    -- setup "traceme" signal handler
    let ok ← ask .sigaction
    if ok then mainLoop else pure .failure

/-- `main` from `tracy_init` on. -/
def tracer (b : Booted) : Proc End := do
  let hooked ← fsrTracyInit b.nv
  if hooked then
    match b.bootmode with
    | .RECOVERY => runTraced
    | .ANDROID => runForked
  else pure .failure

def VOLD : CString := "/multiboot/bin/vold".toList

/-- The branch of `voldwrapper`; where `execvp` fails `main` goes on. -/
def runVold : Proc Bool := do
  let _ ← ask .kill
  -- create local copy of vold without file context
  let _ ← ask (.mkpath "/multiboot/bin".toList)
  utilCopy "/system/bin/vold".toList VOLD false true
  ask (.execve VOLD)

def main (voldwrapper : Bool) : Proc End := do
  let replaced ← if voldwrapper then runVold else pure false
  if replaced then pure .vold
  else do
    let booted ← setup
    match booted with
    | .error e => pure e
    | .ok none => pure .failure
    | .ok (some b) =>
      -- run /init directly without any patching or tracing
      if enabled b.nv then tracer b else runInit

end Multiboot.Boot
