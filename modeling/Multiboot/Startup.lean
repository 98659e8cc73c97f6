import Multiboot.Cmdline
import Multiboot.Patcher
import Multiboot.EnvPrepare
import Multiboot.Lib.Logged

/-!
# The start-up sequence

`startup` goes through the stages of `setup` and `tracy_init` and logs each use of a parameter of the
command line, with whether the field is `NULL` at that moment.  Without the log it is `setup`
(`startup_setup`).  `startup_safe_iff` says which command lines never get a `NULL` used.
-/

namespace Multiboot

open Lib Logged

/-! ### Uses -/

inductive Stage
  | earlyInit | loadMultibootFstab | prepareFstab | patchFstab | fstabInit | tracyInit
  deriving DecidableEq, Repr

/-- The parameters, and the entry of grub's partition that `setup` has looked up. -/
structure StartData extends NvData where
  grubBlockinfo : Option SysBlockUevent

def StartData.isNull (data : StartData) : Param → Bool
  | .multibootPath => data.multibootPath.isNone
  | .multibootBlkDevice => data.multibootDevice.blkDevice.isNone
  | .grubPath => data.grubPath.isNone
  | .grubBlkDevice => data.grubDevice.blkDevice.isNone
  | .grubBlockinfo => data.grubBlockinfo.isNone
  | .hwName => data.hwName.isNone

/-- A stage uses a parameter. -/
structure Use where
  stage : Stage
  param : Param
  null : Bool
  deriving DecidableEq, Repr

def useOf (data : StartData) (stage : Stage) (param : Param) : Logged Use Unit :=
  tell ⟨stage, param, data.isNull param⟩

/-- `data->grub_device.blk_device && data->grub_path`. -/
def NvData.grubGiven (data : NvData) : Bool :=
  data.grubDevice.blkDevice.isSome && data.grubPath.isSome

/-! ### The stages -/

/-- The mounts of `ep_early_init`. -/
structure EarlyCalls where
  grubMount : Bool
  grubBind : Bool
  sourceMount : Bool
  deriving DecidableEq, Repr

def mountGrub (data : StartData) (calls : EarlyCalls) : Logged Use Unit := do
  -- mount grub partition
  useOf data .earlyInit .grubBlkDevice
  check calls.grubMount
  -- bind mount subfolder
  useOf data .earlyInit .grubPath
  check calls.grubBind

def epEarlyInit (data : StartData) (calls : EarlyCalls) : Logged Use Unit := do
  -- mount grub device
  onlyIf data.grubGiven (mountGrub data calls)
  -- mount source partition
  useOf data .earlyInit .multibootBlkDevice
  check calls.sourceMount
  -- dualboot_init: the file and the script
  useOf data .earlyInit .hwName
  useOf data .earlyInit .hwName
  -- fstab loader
  useOf data .earlyInit .hwName
  -- syspart_select
  useOf data .earlyInit .hwName

/-- The loop of `load_multiboot_fstab`. -/
def loadStage (data : StartData) (mknodOk : ℕ → Bool) : ℕ → List FstabRec → Logged Use (List FstabRec)
  | _, [] => pure []
  | loopsCreated, rec :: recs => do
    -- get directory
    onlyIf (decide (rec.fsType ∈ bindTypes)) (useOf data .loadMultibootFstab .multibootPath)
    -- create loop device
    match makeLoop [] none (mknodOk loopsCreated) loopsCreated with
    | (none, _) => ofOption none
    | (some loopdev, loopsCreated) =>
      let recs ← loadStage data mknodOk loopsCreated recs
      pure (replaceRec data.multibootPath loopdev rec :: recs)

def prepareStage (data : StartData) (junk : PrepareJunk) (mod : ModuleData) :
    Logged Use ModuleData := do
  onlyIf data.multibootPath.isSome (useOf data .prepareFstab .multibootBlkDevice)
  onlyIf data.grubPath.isSome (useOf data .prepareFstab .grubBlkDevice)
  pure (prepareFstab junk mod)

/-- The loop of `patch_fstab`. -/
def patchStage (data : StartData) (mod : ModuleData) (twrp : Bool) (junk : ℕ → Junk) :
    ℕ → List FstabRec → Logged Use CString
  | _, [] => pure []
  | i, rec :: recs => do
    onlyIf (data.sndstageEnabled && data.grubGiven &&
        (getBlockinfoForPath (junk i) mod.blockInfo rec.blkDevice).isSome)
      (useOf data .patchFstab .grubBlockinfo)
    let text ← ofOption (patchRec (junk i) mod twrp rec)
    let rest ← patchStage data mod twrp junk (i + 1) recs
    pure (text ++ rest)

/-- The loop of `fp_fstab_init`. -/
def patchStages (data : StartData) (mod : ModuleData) (junk : ℕ → ℕ → Junk) (fopenOk : ℕ → Bool) :
    ℕ → List Fstab → Logged Use (List (CString × CString))
  | _, [] => pure []
  | i, fstab :: fstabs => do
    check (fopenOk i)
    let text ← patchStage data mod fstab.twrp (junk i) 0 fstab.recs
    let files ← patchStages data mod junk fopenOk (i + 1) fstabs
    pure ((fstab.fstabFilename, text) :: files)

/-- What `ep_fstab_init` uses. -/
def initUse (data : StartData) : InitAct → Option Use
  | .use param => some ⟨.fstabInit, param, data.isNull param⟩
  | _ => none

def InitResult.acts (res : InitResult) : List InitAct := res.main ++ res.records.flatMap Prod.snd

def initStage (data : StartData) (blocks : CString → ℕ) (mod : ModuleData) (calls : InitCalls)
    (t : Tree) : Logged Use Unit :=
  let res := epFstabInit blocks mod calls t
  ⟨res.acts.filterMap (initUse data), if res.rc = .done then some () else none⟩

/-- `fsr_tracy_init`; `hooksOk` is the outcome of setting the hooks. -/
def fsrTracyInit (data : StartData) (hooksOk : Bool) : Logged Use Unit := do
  check hooksOk
  -- prepare asec_rec
  useOf data .tracyInit .multibootPath

/-! ### The sequence -/

/-- What the start-up finds outside; `early` takes the place of `earlyInitOk`. -/
structure StartCalls extends SetupEnv where
  bootmode : BootMode
  blockInfoOk : Bool
  early : EarlyCalls
  patchJunk : ℕ → ℕ → Junk
  fopenOk : ℕ → Bool
  blocks : CString → ℕ
  init : InitCalls
  tree : Tree
  hooksOk : Bool

/-- The entry `setup` looks up for grub. -/
def startData (data : NvData) (calls : StartCalls) : StartData :=
  { data with
    grubBlockinfo :=
      if data.grubGiven then
        getBlockinfoForPath calls.grubJunk calls.blockInfo (data.grubDevice.blkDevice.getD [])
      else none }

/-- `module_data` before `prepare_fstab`. -/
def moduleData (data : StartData) (calls : StartCalls) (recs : List FstabRec)
    (targets : List RomFstab) : ModuleData :=
  { bootmode := calls.bootmode
    multibootEnabled := data.multibootEnabled
    sndstageEnabled := data.sndstageEnabled
    multibootPath := data.multibootPath
    multibootDevice :=
      { importDevice [] none with
        blkDevice := data.multibootDevice.blkDevice.getD []
        mountPoint := data.multibootDevice.mountPoint.getD [] }
    grubPath := data.grubPath
    grubDevice :=
      { importDevice [] none with
        blkDevice := data.grubDevice.blkDevice.getD []
        mountPoint := data.grubDevice.mountPoint.getD [] }
    grubBlockinfo := data.grubBlockinfo
    multibootFstab := { recs := recs, fstabFilename := FILE_FSTAB, twrp := false }
    targetFstabs := targets.map RomFstab.toFstab
    blockInfo := calls.blockInfo }

/-- `setup` up to `prepare_fstab`. -/
def setupStages (data : NvData) (calls : StartCalls) : Logged Use ModuleData := do
  -- we don't need any patching or tracing
  check (data.multibootEnabled || data.sndstageEnabled)
  check calls.blockInfoOk
  -- get grub blockinfo
  let boot := startData data calls
  check (!data.grubGiven || boot.grubBlockinfo.isSome)
  epEarlyInit boot calls.early
  -- load multiboot fstab
  let cols ← ofOption calls.multibootFstab
  let recs ← loadStage boot calls.mknodOk 0 (RomFstab.toFstab ⟨cols, FILE_FSTAB, false⟩).recs
  -- load target fstabs
  let targets ← ofOption calls.targetFstabs
  prepareStage boot calls.junk (moduleData boot calls recs targets)

/-- `fp_fstab_init`: recovery is fully ptraced, so there is nothing to patch. -/
def patcherStage (data : StartData) (calls : StartCalls) (mod : ModuleData) :
    Logged Use (List (CString × CString)) :=
  match mod.bootmode with
  | .RECOVERY => pure []
  | .ANDROID => patchStages data mod calls.patchJunk calls.fopenOk 0 mod.targetFstabs

/-- The stages of `fstab_init`, in the order the modules are linked in, and of `tracy_init`. -/
def initStages (data : StartData) (calls : StartCalls) (mod : ModuleData) : Logged Use Unit := do
  let _ ← patcherStage data calls mod
  initStage data calls.blocks mod calls.init calls.tree
  fsrTracyInit data calls.hooksOk

def startup (data : NvData) (calls : StartCalls) : Logged Use Unit := do
  let mod ← setupStages data calls
  initStages (startData data calls) calls mod

/-! ### Without the log -/

theorem loadStage_result (data : StartData) (mknodOk : ℕ → Bool) (recs : List FstabRec) :
    ∀ n, (loadStage data mknodOk n recs).result = loadRecs data.multibootPath mknodOk n recs := by
  induction recs with
  | nil => exact fun n => rfl
  | cons rec recs ih =>
    intro n
    have huse : (onlyIf (decide (rec.fsType ∈ bindTypes))
        (useOf data .loadMultibootFstab .multibootPath)).result = some () := by
      rw [result_onlyIf]
      split_ifs <;> rfl
    rw [loadStage, loadRecs, result_bind, huse, Option.bind_some]
    cases makeLoop [] none (mknodOk n) n with
    | mk loopdev next =>
      cases loopdev with
      | none => rfl
      | some loopdev =>
        simp only [result_bind, ih, result_pure]
        cases loadRecs data.multibootPath mknodOk next recs <;> rfl

theorem patchStage_result (data : StartData) (mod : ModuleData) (twrp : Bool) (junk : ℕ → Junk)
    (recs : List FstabRec) : ∀ i, (patchStage data mod twrp junk i recs).result =
      patchRecs junk mod twrp i recs := by
  induction recs with
  | nil => exact fun i => rfl
  | cons rec recs ih =>
    intro i
    have huse : ∀ c, (onlyIf c (useOf data .patchFstab .grubBlockinfo)).result = some () := by
      intro c
      cases c <;> rfl
    rw [patchStage, patchRecs, result_bind, huse, Option.bind_some]
    simp only [result_bind, result_ofOption, ih, result_pure]
    rfl

theorem patchStages_result (data : StartData) (mod : ModuleData) (junk : ℕ → ℕ → Junk)
    (fopenOk : ℕ → Bool) (fstabs : List Fstab) : ∀ i,
      (patchStages data mod junk fopenOk i fstabs).result =
        patchFstabs junk mod fopenOk i fstabs := by
  induction fstabs with
  | nil => exact fun i => rfl
  | cons fstab fstabs ih =>
    intro i
    rw [patchStages, patchFstabs, patchFstab]
    simp only [result_bind, result_check, patchStage_result, ih, result_pure]
    cases fopenOk i <;> rfl

/-- Without the log the first stage of `fstab_init` is `fp_fstab_init`. -/
theorem patcherStage_result (data : StartData) (calls : StartCalls) (mod : ModuleData) :
    (patcherStage data calls mod).result = fpFstabInit calls.patchJunk calls.fopenOk mod := by
  unfold patcherStage fpFstabInit
  cases mod.bootmode with
  | RECOVERY => rfl
  | ANDROID => exact patchStages_result data mod calls.patchJunk calls.fopenOk mod.targetFstabs 0

/-- What `setup` finds in a start-up that gets past `ep_early_init`. -/
def StartCalls.setupEnv (calls : StartCalls) : SetupEnv :=
  { calls.toSetupEnv with earlyInitOk := true }

/-- The parameters `setup` starts with, in terms of the line. -/
def bootParams (bootmode : BootMode) (line : List NvCall) (data : NvData) : BootParams where
  bootmode := bootmode
  sndstageEnabled := data.sndstageEnabled
  source := (lastAccepted MULTIBOOT_SOURCE line).map Accepted.param
  grub := (lastPassed line).map Accepted.param

/-- On a line whose values of `multiboot.grubdir` are in step, the path is that of the device. -/
theorem Imported.grubPath_eq {line : List NvCall} {data : NvData} (h : Imported line data)
    (hstep : GrubInStep line) : data.grubPath = (lastPassed line).map (·.param.path) := by
  rw [h.grubPath]
  cases ha : lastAccepted MULTIBOOT_GRUBDIR line with
  | none =>
    have hempty : accepted MULTIBOOT_GRUBDIR line = [] := List.getLast?_eq_none_iff.mp ha
    rw [lastPassed, hempty]
    rfl
  | some a =>
    by_cases hfail : snprintfFailed a.rc
    · rw [Option.bind_some, if_pos hfail, lastPassed_eq_none_iff.mpr (hstep a ha hfail).1]
      rfl
    · rw [Option.bind_some, if_neg hfail, lastPassed_of_last ha hfail]
      rfl

/-- A device that was imported is that of `setup`. -/
theorem importDevice_eq (mountPoint : CString) (last : Option Accepted) {dev : NvDevice}
    (h : dev = (last.map fun a => nvDevice mountPoint a.param).getD ⟨none, none⟩) :
    ({ importDevice [] none with
        blkDevice := dev.blkDevice.getD []
        mountPoint := dev.mountPoint.getD [] } : FstabRec) =
      importDevice mountPoint (last.map Accepted.param) := by
  subst h
  cases last <;> rfl

theorem Imported.grubGiven_eq {line : List NvCall} {data : NvData} (h : Imported line data)
    (hstep : GrubInStep line) (bootmode : BootMode) :
    data.grubGiven = (bootParams bootmode line data).grub.isSome := by
  rw [NvData.grubGiven, h.grubDevice, h.grubPath_eq hstep]
  show _ = ((lastPassed line).map Accepted.param).isSome
  cases lastPassed line <;> rfl

theorem startData_grubBlockinfo {line : List NvCall} {data : NvData} (h : Imported line data)
    (hstep : GrubInStep line) (calls : StartCalls) : (startData data calls).grubBlockinfo =
      setupBlockinfo (bootParams calls.bootmode line data) calls.toSetupEnv := by
  have hgrub := importDevice_eq PATH_MOUNTPOINT_GRUB (lastPassed line) h.grubDevice
  have hblk : (importDevice PATH_MOUNTPOINT_GRUB
      (bootParams calls.bootmode line data).grub).blkDevice = data.grubDevice.blkDevice.getD [] :=
    (congrArg (fun r : FstabRec => r.blkDevice) hgrub).symm
  rw [setupBlockinfo, hblk, ← h.grubGiven_eq hstep]
  rfl

/-- The test behind the lookup of grub's partition. -/
theorem grub_of_check {data : NvData} {calls : StartCalls}
    (h : (check (!data.grubGiven || (startData data calls).grubBlockinfo.isSome) :
      Logged Use Unit).result = some ()) (hg : data.grubGiven = true) :
    (startData data calls).grubBlockinfo.isSome = true := by
  rw [result_check, hg, Bool.not_true, Bool.false_or] at h
  by_contra hnone
  rw [if_neg hnone] at h
  cases h

theorem setupStages_grub {data : NvData} {calls : StartCalls} {mod : ModuleData}
    (h : (setupStages data calls).result = some mod) :
    data.grubGiven = true → (startData data calls).grubBlockinfo.isSome = true := by
  simp only [setupStages, result_bind, Option.bind_eq_some_iff] at h
  obtain ⟨_, -, _, -, _, hgrub, -⟩ := h
  exact grub_of_check hgrub

/-- Without the log, and on a line in step, the stages up to `prepare_fstab` are `setup`. -/
theorem startup_setup {line : List NvCall} {data : NvData} (h : Imported line data)
    (hstep : GrubInStep line) {calls : StartCalls} {mod : ModuleData}
    (hmod : (setupStages data calls).result = some mod) :
    setup (bootParams calls.bootmode line data) calls.setupEnv = some mod := by
  have hfound := setupStages_grub hmod
  rw [h.grubGiven_eq hstep calls.bootmode, startData_grubBlockinfo h hstep] at hfound
  simp only [setupStages, result_bind, result_ofOption, Option.bind_eq_some_iff] at hmod
  obtain ⟨_, -, _, -, _, -, _, -, cols, hcols, recs, hrecs, targets, htargets, hprepared⟩ := hmod
  have hpath : data.multibootPath =
      (bootParams calls.bootmode line data).source.map MmcParam.path := by
    rw [h.multibootPath]
    exact (Option.map_map _ _ _).symm
  have hload : loadRecs ((bootParams calls.bootmode line data).source.map MmcParam.path)
      calls.mknodOk 0 (RomFstab.toFstab ⟨cols, FILE_FSTAB, false⟩).recs = some recs := by
    rw [← hpath, ← hrecs, loadStage_result]
    rfl
  have hmodule : prepareFstab calls.junk (moduleData (startData data calls) calls recs targets) =
      mod := by
    have huse : ∀ c param, (onlyIf c (useOf (startData data calls) .prepareFstab param)).result =
        some () := by
      intro c param
      cases c <;> rfl
    simpa only [prepareStage, result_bind, huse, Option.bind_some, result_pure, Option.some.injEq]
      using hprepared
  have hsource := importDevice_eq PATH_MOUNTPOINT_SOURCE (lastAccepted MULTIBOOT_SOURCE line)
    h.multibootDevice
  have hgrub := importDevice_eq PATH_MOUNTPOINT_GRUB (lastPassed line) h.grubDevice
  have henabled : (bootParams calls.bootmode line data).source.isSome = data.multibootEnabled := by
    rw [h.multibootEnabled]
    exact Option.isSome_map
  have hgrubPath : (bootParams calls.bootmode line data).grub.map MmcParam.path =
      data.grubPath := by
    rw [h.grubPath_eq hstep]
    exact Option.map_map _ _ _
  refine setup_eq_some_iff.mpr ⟨hfound, rfl, cols, recs, targets, hcols, hload, htargets, ?_⟩
  rw [← hmodule]
  congr 1
  rw [loadedData, moduleData, ModuleData.mk.injEq]
  exact ⟨rfl, henabled, rfl, hpath.symm, hsource.symm, hgrubPath, hgrub.symm,
    (startData_grubBlockinfo h hstep calls).symm, rfl, rfl, rfl⟩

/-! ### No use of `NULL` -/

def NotNull (use : Use) : Prop := use.null = false

/-- Every parameter a stage may come to is set. -/
structure Given (data : StartData) : Prop where
  multibootPath : data.isNull .multibootPath = false
  multibootBlkDevice : data.isNull .multibootBlkDevice = false
  hwName : data.isNull .hwName = false
  grubPath : data.grubGiven = true → data.isNull .grubPath = false
  grubBlkDevice : data.grubPath.isSome = true → data.isNull .grubBlkDevice = false
  grubBlockinfo : data.grubGiven = true → data.isNull .grubBlockinfo = false

section Given

variable {data : StartData}

@[simp] theorem logs_useOf {stage : Stage} {param : Param} :
    Logs NotNull (useOf data stage param) ↔ data.isNull param = false := by
  rw [useOf, logs_tell, NotNull]

theorem Given.epEarlyInit (h : Given data) (calls : EarlyCalls) :
    Logs NotNull (epEarlyInit data calls) := by
  have hgrub : data.grubGiven = true → Logs NotNull (mountGrub data calls) := by
    intro hg
    have hpath : data.grubPath.isSome = true := (Bool.and_eq_true_iff.mp hg).2
    simp [mountGrub, h.grubPath hg, h.grubBlkDevice hpath]
  simp only [Multiboot.epEarlyInit, logs_bind, logs_onlyIf, logs_useOf, logs_check,
    h.multibootBlkDevice, h.hwName]
  exact ⟨hgrub, by simp⟩

theorem Given.loadStage (h : Given data) (mknodOk : ℕ → Bool) (recs : List FstabRec) :
    ∀ n, Logs NotNull (loadStage data mknodOk n recs) := by
  induction recs with
  | nil => exact fun n => logs_pure _
  | cons rec recs ih =>
    intro n
    rw [Multiboot.loadStage, logs_bind, logs_onlyIf, logs_useOf]
    refine ⟨fun _ => h.multibootPath, fun _ _ => ?_⟩
    cases makeLoop [] none (mknodOk n) n with
    | mk loopdev next =>
      cases loopdev with
      | none => exact logs_ofOption _
      | some loopdev => exact (logs_bind _ _).mpr ⟨ih next, fun _ _ => logs_pure _⟩

theorem Given.prepareStage (h : Given data) (junk : PrepareJunk) (mod : ModuleData) :
    Logs NotNull (prepareStage data junk mod) := by
  simp only [Multiboot.prepareStage, logs_bind, logs_onlyIf, logs_useOf, logs_pure]
  exact ⟨fun _ => h.multibootBlkDevice, fun _ _ => ⟨h.grubBlkDevice, fun _ _ => trivial⟩⟩

theorem Given.patchStage (h : Given data) (mod : ModuleData) (twrp : Bool) (junk : ℕ → Junk)
    (recs : List FstabRec) : ∀ i, Logs NotNull (patchStage data mod twrp junk i recs) := by
  induction recs with
  | nil => exact fun i => logs_pure _
  | cons rec recs ih =>
    intro i
    simp only [Multiboot.patchStage, logs_bind, logs_onlyIf, logs_useOf, logs_ofOption, logs_pure]
    refine ⟨fun hc => h.grubBlockinfo ?_, fun _ _ => ⟨trivial, fun _ _ => ⟨ih _, fun _ _ => trivial⟩⟩⟩
    simp only [Bool.and_eq_true] at hc
    exact hc.1.2

theorem Given.patchStages (h : Given data) (mod : ModuleData) (junk : ℕ → ℕ → Junk)
    (fopenOk : ℕ → Bool) (fstabs : List Fstab) :
    ∀ i, Logs NotNull (patchStages data mod junk fopenOk i fstabs) := by
  induction fstabs with
  | nil => exact fun i => logs_pure _
  | cons fstab fstabs ih =>
    intro i
    simp only [Multiboot.patchStages, logs_bind, logs_check, logs_pure]
    exact ⟨trivial, fun _ _ => ⟨h.patchStage mod fstab.twrp (junk i) fstab.recs 0,
      fun _ _ => ⟨ih _, fun _ _ => trivial⟩⟩⟩

/-- The stage uses the multiboot path only. -/
theorem epFstabInit_uses {blocks : CString → ℕ} {mod : ModuleData} {calls : InitCalls} {t : Tree}
    {param : Param} (h : InitAct.use param ∈ (epFstabInit blocks mod calls t).acts) :
    param = .multibootPath := by
  rcases List.mem_append.mp h with h | h
  · have hmain : (epFstabInit blocks mod calls t).main = [.use .multibootPath, .mkpath
        (snprintf PATH_MAX (PATH_MOUNTPOINT_SOURCE ++ showS mod.multibootPath))] := by
      unfold epFstabInit
      cases calls.mainDir <;> rfl
    rw [hmain] at h
    simpa using h
  · obtain ⟨e, he, hact⟩ := List.mem_flatMap.mp h
    have hlog : ∃ t', e ∈ (epRecords blocks mod.multibootPath mod.multibootFstab.recs calls.records
        t').2.2 := by
      unfold epFstabInit at he
      cases hdir : calls.mainDir with
      | some n =>
        rw [hdir] at he
        cases he
      | none =>
        rw [hdir] at he
        exact ⟨_, he⟩
    obtain ⟨t', hlog⟩ := hlog
    obtain ⟨c, t'', hacts⟩ := epRecords_acts hlog
    rw [hacts] at hact
    cases hb : e.1.replacementBind with
    | true => rcases epRecord_bind_acts hb hact with h | h | ⟨_, h⟩ | h <;> cases h
    | false =>
      rcases epRecord_image_acts hb hact with h | h | ⟨_, h⟩
      · cases h
        rfl
      · cases h
      · cases h

theorem Given.initStage (h : Given data) (blocks : CString → ℕ) (mod : ModuleData)
    (calls : InitCalls) (t : Tree) : Logs NotNull (initStage data blocks mod calls t) := by
  intro use huse
  obtain ⟨act, hact, hlog⟩ := List.mem_filterMap.mp huse
  cases act with
  | use param =>
    obtain rfl := epFstabInit_uses hact
    obtain rfl := Option.some.inj hlog
    exact h.multibootPath
  | mkpath | createRawImage | setLoop | makeExt4fs => cases hlog

theorem Given.patcherStage (h : Given data) (calls : StartCalls) (mod : ModuleData) :
    Logs NotNull (patcherStage data calls mod) := by
  unfold Multiboot.patcherStage
  cases mod.bootmode with
  | RECOVERY => exact logs_pure _
  | ANDROID => exact h.patchStages mod calls.patchJunk calls.fopenOk mod.targetFstabs 0

theorem Given.initStages (h : Given data) (calls : StartCalls) (mod : ModuleData) :
    Logs NotNull (initStages data calls mod) := by
  simp only [Multiboot.initStages, fsrTracyInit, logs_bind, logs_check, logs_useOf]
  exact ⟨h.patcherStage calls mod, fun _ _ => ⟨h.initStage _ _ _ _,
    fun _ _ => ⟨trivial, fun _ _ => h.multibootPath⟩⟩⟩

end Given

/-- The fields the boot parameters leave, once `setup` has found grub's partition. -/
theorem given_of_imported {line : List NvCall} {data : NvData} (h : Imported line data)
    (hsource : lastAccepted MULTIBOOT_SOURCE line ≠ none)
    (hhardware : ∃ call ∈ line, (nvValue ANDROIDBOOT_HARDWARE call.2).isSome = true)
    {calls : StartCalls}
    (hgrub : data.grubGiven = true → (startData data calls).grubBlockinfo.isSome = true) :
    Given (startData data calls) := by
  obtain ⟨a, ha⟩ := Option.ne_none_iff_exists'.mp hsource
  obtain ⟨call, hcall, hvalue⟩ := hhardware
  have hhw : data.hwName.isSome = true := by
    rw [h.hwName]
    exact List.any_eq_true.mpr ⟨call, hcall, hvalue⟩
  refine ⟨?_, ?_, ?_, fun hg => ?_, fun hpath => ?_, fun hg => ?_⟩
  · show data.multibootPath.isNone = false
    rw [h.multibootPath, ha]
    rfl
  · show data.multibootDevice.blkDevice.isNone = false
    rw [h.multibootDevice, ha]
    rfl
  · show data.hwName.isNone = false
    rw [← Option.not_isSome, hhw]
    rfl
  · show data.grubPath.isNone = false
    have hpath : data.grubPath.isSome = true := (Bool.and_eq_true_iff.mp hg).2
    rw [← Option.not_isSome, hpath]
    rfl
  · show data.grubDevice.blkDevice.isNone = false
    rw [← Option.not_isSome, h.grubDevice_of_path hpath]
    rfl
  · show (startData data calls).grubBlockinfo.isNone = false
    rw [← Option.not_isSome, hgrub hg]
    rfl

/-- A line with a source and the hardware never gets a `NULL` used. -/
theorem startup_logs {line : List NvCall} {data : NvData} (h : Imported line data)
    (hsource : lastAccepted MULTIBOOT_SOURCE line ≠ none)
    (hhardware : ∃ call ∈ line, (nvValue ANDROIDBOOT_HARDWARE call.2).isSome = true)
    (calls : StartCalls) : Logs NotNull (startup data calls) := by
  rw [startup, logs_bind]
  constructor
  · simp only [setupStages, logs_bind, logs_check, logs_ofOption, true_and]
    intro _ _ _ _ _ hcheck
    have hgiven := given_of_imported h hsource hhardware (grub_of_check hcheck)
    exact ⟨hgiven.epEarlyInit calls.early, fun _ _ _ _ =>
      ⟨hgiven.loadStage _ _ _, fun _ _ _ _ => hgiven.prepareStage _ _⟩⟩
  · intro mod hmod
    have hgiven := given_of_imported h hsource hhardware (setupStages_grub hmod)
    exact hgiven.initStages calls mod

/-! ### A line that leaves a field unset -/

theorem epEarlyInit_given {data : StartData} (h : Logs NotNull (epEarlyInit data ⟨true, true, true⟩)) :
    data.isNull .multibootBlkDevice = false ∧ data.isNull .hwName = false := by
  have hgrub : (onlyIf data.grubGiven (mountGrub data ⟨true, true, true⟩)).result = some () := by
    rw [result_onlyIf]
    split_ifs <;> rfl
  rw [epEarlyInit, logs_bind] at h
  have hsource := h.2 () hgrub
  rw [logs_bind, logs_useOf] at hsource
  have hmount := hsource.2 () rfl
  rw [logs_bind] at hmount
  have hhardware := hmount.2 () rfl
  rw [logs_bind, logs_useOf] at hhardware
  exact ⟨hsource.1, hhardware.1⟩

/-- The calls of a start-up in which every mount succeeds, with one entry in the table. -/
def reachCalls (x y : ℕ) : StartCalls where
  blockInfo := [⟨0, 0, x % 2 ^ 32, y % 2 ^ 32, none, none⟩]
  partNumbers_lt ev h := by
    obtain rfl := List.mem_singleton.mp h
    exact ⟨Nat.mod_lt _ (by decide), Nat.mod_lt _ (by decide)⟩
  grubJunk := (0, 0)
  earlyInitOk := true
  mknodOk _ := true
  multibootFstab := none
  numEntries_lt cols h := by cases h
  targetFstabs := none
  junk := ⟨default, default, fun _ => default, fun _ _ => default⟩
  bootmode := .ANDROID
  blockInfoOk := true
  early := ⟨true, true, true⟩
  patchJunk _ _ := (0, 0)
  fopenOk _ := true
  blocks _ := 0
  init := ⟨none, []⟩
  tree _ := none
  hooksOk := true

/-- Some start-up comes to `ep_early_init` and past its mounts. -/
theorem reaches_early {line : List NvCall} {data : NvData} (h : Imported line data) :
    ∃ x y, data.grubGiven = true → (startData data (reachCalls x y)).grubBlockinfo.isSome = true := by
  by_cases hg : data.grubGiven = true
  · obtain ⟨hblk, -⟩ := Bool.and_eq_true_iff.mp hg
    cases hp : lastPassed line with
    | none =>
      rw [h.grubDevice, hp] at hblk
      cases hblk
    | some a =>
      refine ⟨a.param.device, a.param.part, fun _ => ?_⟩
      have hdev : data.grubDevice.blkDevice = some a.param.blkDevice := by
        rw [h.grubDevice, hp]
        rfl
      simp only [startData, hg, if_true, hdev, Option.getD_some, getBlockinfoForPath_blkDevice]
      simp [reachCalls, findUevent]
  · exact ⟨0, 0, fun h => absurd h hg⟩

theorem given_of_startup {line : List NvCall} {data : NvData} (h : Imported line data)
    (hon : data.multibootEnabled = true ∨ data.sndstageEnabled = true)
    (hsafe : ∀ calls, Logs NotNull (startup data calls)) :
    lastAccepted MULTIBOOT_SOURCE line ≠ none ∧
      ∃ call ∈ line, (nvValue ANDROIDBOOT_HARDWARE call.2).isSome = true := by
  obtain ⟨x, y, hgrub⟩ := reaches_early h
  have hlog := hsafe (reachCalls x y)
  rw [startup, logs_bind, setupStages] at hlog
  have henabled := (logs_bind _ _).mp hlog.1
  have htable := (logs_bind _ _).mp (henabled.2 () (if_pos (by simpa using hon)))
  have hlookup := (logs_bind _ _).mp (htable.2 () rfl)
  have hfound : (!data.grubGiven || (startData data (reachCalls x y)).grubBlockinfo.isSome) = true := by
    cases hg : data.grubGiven with
    | false => rfl
    | true => exact hgrub hg
  have hearly := (logs_bind _ _).mp (hlookup.2 () (if_pos hfound))
  obtain ⟨hsource, hhardware⟩ := epEarlyInit_given hearly.1
  constructor
  · intro hnone
    have hblk : data.multibootDevice.blkDevice = none := by
      rw [h.multibootDevice, hnone]
      rfl
    have hnull : data.multibootDevice.blkDevice.isNone = false := hsource
    rw [hblk] at hnull
    cases hnull
  · have hnull : data.hwName.isNone = false := hhardware
    have hset : data.hwName.isSome = true := by
      rw [← Option.not_isNone, hnull]
      rfl
    rw [h.hwName] at hset
    exact List.any_eq_true.mp hset

/-- **No stage uses a parameter that was not given exactly if** the line has a source that is accepted
and the name of the hardware. -/
theorem startup_safe_iff (junk : ℕ → ℤ) (file : Option CString) (data : NvData)
    (himport : importKernelCmdline junk file = some data)
    (hon : data.multibootEnabled = true ∨ data.sndstageEnabled = true) :
    (∀ calls, Logs NotNull (startup data calls)) ↔
      lastAccepted MULTIBOOT_SOURCE (nvCalls junk file) ≠ none ∧
        ∃ call ∈ nvCalls junk file, (nvValue ANDROIDBOOT_HARDWARE call.2).isSome = true := by
  have himported := imported_of_run himport
  constructor
  · exact given_of_startup himported hon
  · rintro ⟨hsource, hhardware⟩ calls
    exact startup_logs himported hsource hhardware calls

/-- A line with a source and the hardware. -/
def givenLine : CString := "androidboot.hardware=mako multiboot.source=(hd0,1)/android".toList

def givenData : NvData := (importKernelCmdline (fun _ => 0) (some givenLine)).get rfl

theorem startup_safe_iff_givenLine : (∀ calls, Logs NotNull (startup givenData calls)) ↔
    lastAccepted MULTIBOOT_SOURCE (nvCalls (fun _ => 0) (some givenLine)) ≠ none ∧
      ∃ call ∈ nvCalls (fun _ => 0) (some givenLine),
        (nvValue ANDROIDBOOT_HARDWARE call.2).isSome = true :=
  startup_safe_iff (fun _ => 0) (some givenLine) givenData rfl (Or.inl rfl)

/-- With 2ndstage alone the device of the source is used although there is none, and without the
hardware its name is. -/
theorem unset_fields_used :
    (∃ data, importKernelCmdline (fun _ => 0) (some "multiboot.2ndstage=1".toList) = some data ∧
      data.sndstageEnabled = true ∧
      ⟨.earlyInit, .multibootBlkDevice, true⟩ ∈ (startup data (reachCalls 0 0)).log) ∧
    ∃ data, importKernelCmdline (fun _ => 0) (some "multiboot.source=(hd0,1)/android".toList) =
        some data ∧ data.multibootEnabled = true ∧
      ⟨.earlyInit, .hwName, true⟩ ∈ (startup data (reachCalls 0 0)).log :=
  ⟨⟨_, rfl, rfl, by decide⟩, _, rfl, rfl, by decide⟩

end Multiboot
