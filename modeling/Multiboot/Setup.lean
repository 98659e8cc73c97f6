import Multiboot.Uevent
import Multiboot.Fstab

/-!
# Start-up: the records the hooks work with

`setup` builds `ModuleData` from the boot parameters, the block-device table and the fstabs read:
`loadMultibootFstab` gives every record of the multiboot fstab its loop device, `prepareFstab`
translates the device names.  Failures of the environment (`mknod`, mounting) are arguments, and so
are the values of unassigned locals.
-/

namespace Multiboot

inductive BootMode
  | RECOVERY | ANDROID
  deriving DecidableEq, Repr

/-- A value `(hd<device>,<part>)<path>` of the kernel command line. -/
structure MmcParam where
  device : ℕ
  part : ℕ
  path : CString
  deriving DecidableEq, Repr

/-- What `import_kernel_nv` has taken from the kernel command line. -/
structure BootParams where
  bootmode : BootMode
  sndstageEnabled : Bool
  source : Option MmcParam
  grub : Option MmcParam
  deriving DecidableEq, Repr

structure ModuleData where
  bootmode : BootMode
  multibootEnabled : Bool
  sndstageEnabled : Bool
  multibootPath : Option CString
  multibootDevice : FstabRec
  grubPath : Option CString
  grubDevice : FstabRec
  grubBlockinfo : Option SysBlockUevent
  multibootFstab : Fstab
  targetFstabs : List Fstab
  blockInfo : List SysBlockUevent
  deriving DecidableEq, Repr

/-- `"/dev/block/mmcblk%dp%d"` with two `unsigned` arguments. -/
def MmcParam.blkDevice (p : MmcParam) : CString :=
  "/dev/block/mmcblk".toList ++ showD (BitVec.ofNat 32 p.device).toInt ++ ['p'] ++
    showD (BitVec.ofNat 32 p.part).toInt

/-- The record of the source or grub device after `import_kernel_nv`: a device and a mount point, or
the zeroed structure. -/
def importDevice (mountPoint : CString) (p : Option MmcParam) : FstabRec :=
  { blkDevice := (p.map MmcParam.blkDevice).getD []
    mountPoint := if p.isSome then mountPoint else []
    fsType := []
    fsOptionsUnparsed := none
    fsMgrFlagsUnparsed := none
    unhandledColumns := none
    fsMgrFlags := 0 }

/-! ### Loop devices -/

/-- `"/multiboot/dev/block/loop%d"`. -/
def loopName (minor : ℤ) : CString := PATH_MOUNTPOINT_DEV ++ "/block/loop".toList ++ showD minor

/-- `make_loop`: the name it returns and the new value of `loops_created`.  `buf` is what the local
buffer starts with, `mknodOk` whether `mknod` succeeds. -/
def makeLoop (buf : CString) (path : Option CString) (mknodOk : Bool) (loopsCreated : ℕ) :
    Option CString × ℕ :=
  let minor : ℤ := 255 - loopsCreated
  let buf := if path.isSome then buf else snprintf PATH_MAX (loopName minor)
  if mknodOk then (some buf, loopsCreated + 1) else (none, loopsCreated)

/-- The file systems that are redirected to a directory. -/
def bindTypes : List CString :=
  ["ext2".toList, "ext3".toList, "ext4".toList, "f2fs".toList]

instance (fsType : CString) : Decidable (fsType ∈ bindTypes) := inferInstance

/-- One record of the loop of `load_multiboot_fstab`, given its loop device. -/
def replaceRec (multibootPath : Option CString) (loopdev : CString) (rec : FstabRec) : FstabRec :=
  if rec.fsType ∈ bindTypes then
    { rec with
      replacementDevice := some (snprintf PATH_MAX
        (PATH_MOUNTPOINT_SOURCE ++ showS multibootPath ++ rec.mountPoint))
      stubDevice := some loopdev
      replacementBind := true }
  else
    { rec with replacementDevice := some loopdev, replacementBind := false }

/-- The loop of `load_multiboot_fstab`; `mknodOk n` is the outcome of the `n`-th `mknod`. -/
def loadRecs (multibootPath : Option CString) (mknodOk : ℕ → Bool) :
    ℕ → List FstabRec → Option (List FstabRec)
  | _, [] => some []
  | loopsCreated, rec :: recs =>
    match makeLoop [] none (mknodOk loopsCreated) loopsCreated with
    | (none, _) => none
    | (some loopdev, loopsCreated) =>
      (loadRecs multibootPath mknodOk loopsCreated recs).map
        (replaceRec multibootPath loopdev rec :: ·)

def loadMultibootFstab (multibootPath : Option CString) (mknodOk : ℕ → Bool) (fstab : Fstab) :
    Option Fstab :=
  (loadRecs multibootPath mknodOk 0 fstab.recs).map fun recs => { fstab with recs := recs }

/-! ### Translating device names -/

/-- `translate_fstab_rec`; `junk` are the unassigned locals of its two lookups. -/
def translateFstabRec (junk : Junk × Junk) (info : List SysBlockUevent) (rec : FstabRec) :
    FstabRec :=
  let blkDevice := (ueventRealpath junk.1 info rec.blkDevice).getD rec.blkDevice
  match ueventStat junk.2 info blkDevice with
  | none => { rec with blkDevice := blkDevice }
  | some dev => { rec with blkDevice := blkDevice, statbuf := some dev }

def translateFstabPaths (junk : ℕ → Junk × Junk) (info : List SysBlockUevent) (fstab : Fstab) :
    Fstab :=
  { fstab with recs := fstab.recs.mapIdx fun i rec => translateFstabRec (junk i) info rec }

/-- The source or grub device in `prepare_fstab`: translated and redirected to its mount point. -/
def prepareDevice (junk : Junk × Junk) (info : List SysBlockUevent) (mountPoint : CString)
    (rec : FstabRec) : FstabRec :=
  let dev := translateFstabRec junk info rec
  { dev with
    replacementBind := true
    replacementDevice := some mountPoint
    stubDevice := some dev.blkDevice }

/-- The unassigned locals of every lookup `prepare_fstab` makes. -/
structure PrepareJunk where
  source : Junk × Junk
  grub : Junk × Junk
  multiboot : ℕ → Junk × Junk
  target : ℕ → ℕ → Junk × Junk

def prepareFstab (junk : PrepareJunk) (data : ModuleData) : ModuleData :=
  { data with
    multibootDevice :=
      if data.multibootPath.isSome then
        prepareDevice junk.source data.blockInfo PATH_MOUNTPOINT_SOURCE data.multibootDevice
      else data.multibootDevice
    grubDevice :=
      if data.grubPath.isSome then
        prepareDevice junk.grub data.blockInfo PATH_MOUNTPOINT_GRUB data.grubDevice
      else data.grubDevice
    multibootFstab := translateFstabPaths junk.multiboot data.blockInfo data.multibootFstab
    targetFstabs := data.targetFstabs.mapIdx fun i fstab =>
      translateFstabPaths (junk.target i) data.blockInfo fstab }

/-! ### `setup` -/

/-- A ROM fstab as `add_fstab` reads it. -/
structure RomFstab where
  cols : List FstabCols
  fstabFilename : CString
  twrp : Bool
  deriving DecidableEq, Repr

/-- The records of a file that was just read: all other fields are zero. -/
def RomFstab.toFstab (f : RomFstab) : Fstab :=
  { recs := f.cols.map fun c => { toFstabCols := c }
    fstabFilename := f.fstabFilename
    twrp := f.twrp }

/-- What `setup` finds outside the tracer: the table, the columns of the fstabs, and how the calls
that may fail end. -/
structure SetupEnv where
  blockInfo : List SysBlockUevent
  /-- The partition numbers are `unsigned`. -/
  partNumbers_lt : ∀ ev ∈ blockInfo, ev.partMajor < 2 ^ 32 ∧ ev.partMinor < 2 ^ 32
  grubJunk : Junk
  earlyInitOk : Bool
  mknodOk : ℕ → Bool
  multibootFstab : Option (List FstabCols)
  /-- `num_entries` is an `int`. -/
  numEntries_lt : ∀ cols ∈ multibootFstab, cols.length < 2 ^ 31
  targetFstabs : Option (List RomFstab)
  junk : PrepareJunk

/-- The file `load_multiboot_fstab` reads. -/
def FILE_FSTAB : CString := "/bootloader/multiboot/etc/fstab".toList

/-- `setup` from the command line on to the stage before `fstab_init`, when multiboot or 2ndstage is
enabled (`none`: it fails). -/
def setup (params : BootParams) (env : SetupEnv) : Option ModuleData := do
  let grubDevice := importDevice PATH_MOUNTPOINT_GRUB params.grub
  let grubBlockinfo :=
    if params.grub.isSome then getBlockinfoForPath env.grubJunk env.blockInfo grubDevice.blkDevice
    else none
  if params.grub.isSome && grubBlockinfo.isNone then none
  else if !env.earlyInitOk then none
  else do
    let cols ← env.multibootFstab
    let fstab ← loadMultibootFstab (params.source.map MmcParam.path) env.mknodOk
      (RomFstab.toFstab ⟨cols, FILE_FSTAB, false⟩)
    let targets ← env.targetFstabs
    some (prepareFstab env.junk
      { bootmode := params.bootmode
        multibootEnabled := params.source.isSome
        sndstageEnabled := params.sndstageEnabled
        multibootPath := params.source.map MmcParam.path
        multibootDevice := importDevice PATH_MOUNTPOINT_SOURCE params.source
        grubPath := params.grub.map MmcParam.path
        grubDevice := grubDevice
        grubBlockinfo := grubBlockinfo
        multibootFstab := fstab
        targetFstabs := targets.map RomFstab.toFstab
        blockInfo := env.blockInfo })

end Multiboot
