import Multiboot.BootSpecs

/-!
# `setup` as a process and as a function

The process of `Boot` asks for what it needs, call by call; `Multiboot.setup` and `Multiboot.startup`
are given the answers beforehand.  `setup_refines` takes a run of the process to the answers that make
the functions come to the same `module_data`.
-/

namespace Multiboot.Boot

open Lib Lib.Prog Logged

/-- What the types of the source make sure of: part numbers are `unsigned`, and the number of records
of an fstab is an `int`. -/
def Plausible (e : Event Call.Ans) : Prop :=
  match e with
  | ⟨.blockDevices, info⟩ => ∀ table ∈ info, ∀ ev ∈ table, ev.partMajor < 2 ^ 32 ∧ ev.partMinor < 2 ^ 32
  | ⟨.read _, file⟩ => ∀ cols ∈ doFsMgrReadFstab false file, cols.length < 2 ^ 31
  | _ => True

/-- Every run with such answers has a result in `Q`. -/
abbrev Results (p : Proc α) (Q : α → Prop) : Prop := p.Gives Plausible Q

/-! ### The stages -/

theorem results_loadLoop (path : Option CString) (recs : List FstabRec) : ∀ n done,
    Results (loadLoop path n done recs) fun res => ∀ out ∈ res,
      ∃ loaded, loadRecs path (fun _ => true) n recs = some loaded ∧ out = done ++ loaded := by
  induction recs with
  | nil =>
    intro n done
    refine gives_pure fun out hout => ⟨[], rfl, ?_⟩
    rw [List.append_nil]
    exact (Option.some.inj hout).symm
  | cons rec recs ih =>
    intro n done
    refine gives_perform fun ok _ => ?_
    cases ok with
    | false => exact gives_pure fun out hout => by cases hout
    | true =>
      refine gives_mono (fun res hres out hout => ?_) (ih (n + 1) _)
      obtain ⟨loaded, hload, rfl⟩ := hres out hout
      refine ⟨replaceRec path (snprintf PATH_MAX (loopName (255 - n))) rec :: loaded, ?_, ?_⟩
      · show (loadRecs path (fun _ => true) (n + 1) recs).map _ = _
        rw [hload]
        rfl
      · exact List.append_assoc done [_] loaded

theorem results_loadMultibootFstab (nv : NvData) :
    Results (loadMultibootFstab nv) fun res => ∀ fstab ∈ res, ∃ cols recs, cols.length < 2 ^ 31 ∧
      loadRecs nv.multibootPath (fun _ => true) 0 (RomFstab.toFstab ⟨cols, FILE_FSTAB, false⟩).recs =
        some recs ∧
      fstab = { recs := recs, fstabFilename := FILE_FSTAB, twrp := false } := by
  refine gives_perform fun file hfile => ?_
  cases hread : doFsMgrReadFstab false file with
  | none => exact gives_pure fun fstab h => by cases h
  | some cols =>
    refine gives_bind (results_loadLoop _ _ 0 []) fun res hres => gives_pure fun fstab hfstab => ?_
    obtain ⟨out, hout, rfl⟩ := Option.map_eq_some_iff.mp hfstab
    obtain ⟨loaded, hload, hcat⟩ := hres out hout
    obtain rfl : out = loaded := hcat
    exact ⟨cols, out, hfile cols hread, hload, rfl⟩

theorem results_fstabInit (data : ModuleData) : Results (fstabInit data) fun ok => ok = true →
    ∃ (patch : PatchEnv) (env : InitEnv), (fpFstabInit patch.junk patch.fopenOk data).isSome = true ∧
      (epFstabInit env.blocks data env.calls env.tree).rc = .done := by
  refine gives_perform fun patch _ => ?_
  cases hpatch : fpFstabInit patch.junk patch.fopenOk data with
  | none => exact gives_pure fun hok => by cases hok
  | some files =>
    refine gives_perform fun env _ => gives_pure fun hok => ?_
    exact ⟨patch, env, by rw [hpatch]; rfl, of_decide_eq_true hok⟩

/-! ### The answers for the functions -/

/-- What the fstabs are loaded with. -/
structure Loaded (bootmode : BootMode) (nv : NvData) (info : List SysBlockUevent)
    (grub : Option SysBlockUevent) (data : ModuleData) where
  cols : List FstabCols
  short : cols.length < 2 ^ 31
  recs : List FstabRec
  load : loadRecs nv.multibootPath (fun _ => true) 0 (RomFstab.toFstab ⟨cols, FILE_FSTAB, false⟩).recs =
    some recs
  targets : List RomFstab
  junk : PrepareJunk
  prepared : prepareFstab junk (bootData bootmode nv info grub
    { recs := recs, fstabFilename := FILE_FSTAB, twrp := false } targets) = data
  patch : PatchEnv
  patched : (fpFstabInit patch.junk patch.fopenOk data).isSome = true
  init : InitEnv
  done : (epFstabInit init.blocks data init.calls init.tree).rc = .done

theorem results_fstabStages (bootmode : BootMode) (nv : NvData) (info : List SysBlockUevent)
    (grub : Option SysBlockUevent) : Results (fstabStages bootmode nv info grub) fun res =>
      ∀ data ∈ res, Nonempty (Loaded bootmode nv info grub data) := by
  refine gives_bind (results_loadMultibootFstab nv) fun fstab hfstab => ?_
  cases fstab with
  | none => exact gives_pure fun data h => by cases h
  | some fstab =>
    obtain ⟨cols, recs, hshort, hload, rfl⟩ := hfstab fstab rfl
    refine gives_skip fun targets => ?_
    cases targets with
    | none => exact gives_pure fun data h => by cases h
    | some targets =>
      refine gives_perform fun junk _ => ?_
      refine gives_bind (results_fstabInit _) fun ok hok => gives_pure fun data hdata => ?_
      cases ok with
      | false => cases hdata
      | true =>
        obtain ⟨patch, init, hpatch, hdone⟩ := hok rfl
        obtain rfl := Option.some.inj hdata
        exact ⟨⟨cols, hshort, recs, hload, targets, junk, rfl, patch, hpatch, init, hdone⟩⟩

/-- Every call succeeds on the way to what was loaded. -/
def Loaded.calls {bootmode : BootMode} {nv : NvData} {info : List SysBlockUevent}
    {grub : Option SysBlockUevent} {data : ModuleData} (l : Loaded bootmode nv info grub data)
    (hinfo : ∀ ev ∈ info, ev.partMajor < 2 ^ 32 ∧ ev.partMinor < 2 ^ 32) (grubJunk : Junk) :
    StartCalls where
  blockInfo := info
  partNumbers_lt := hinfo
  grubJunk := grubJunk
  earlyInitOk := true
  mknodOk _ := true
  multibootFstab := some l.cols
  numEntries_lt _ hcols := Option.some.inj hcols ▸ l.short
  targetFstabs := some l.targets
  junk := l.junk
  bootmode := bootmode
  blockInfoOk := true
  early := ⟨true, true, true⟩
  patchJunk := l.patch.junk
  fopenOk := l.patch.fopenOk
  blocks := l.init.blocks
  init := l.init.calls
  tree := l.init.tree
  hooksOk := true

/-- The functions come to `data` with the answers `calls`, and get through all stages. -/
structure Reached (bootmode : BootMode) (nv : NvData) (data : ModuleData) (calls : StartCalls) :
    Prop where
  bootmode : calls.bootmode = bootmode
  stages : (Multiboot.setupStages nv calls).result = some data
  startup : (startup nv calls).result = some ()

theorem result_epEarlyInit (data : StartData) :
    (Multiboot.epEarlyInit data ⟨true, true, true⟩).result = some () := by
  rw [Multiboot.epEarlyInit, result_bind, result_onlyIf]
  split_ifs <;> rfl

theorem result_prepareStage (data : StartData) (junk : PrepareJunk) (mod : ModuleData) :
    (prepareStage data junk mod).result = some (prepareFstab junk mod) := by
  have huse : ∀ c param, (Logged.onlyIf c (useOf data .prepareFstab param)).result = some () := by
    intro c param
    cases c <;> rfl
  simp only [prepareStage, result_bind, huse, Option.bind_some, result_pure]

theorem Loaded.reached {bootmode : BootMode} {nv : NvData} {info : List SysBlockUevent}
    {grub : Option SysBlockUevent} {data : ModuleData} (l : Loaded bootmode nv info grub data)
    (hinfo : ∀ ev ∈ info, ev.partMajor < 2 ^ 32 ∧ ev.partMinor < 2 ^ 32) (grubJunk : Junk)
    (hen : enabled nv = true) (hgrub : grub = if nv.grubGiven then
      getBlockinfoForPath grubJunk info (nv.grubDevice.blkDevice.getD []) else none)
    (hfound : nv.grubGiven = true → grub.isSome = true) :
    Reached bootmode nv data (l.calls hinfo grubJunk) := by
  have hentry : (startData nv (l.calls hinfo grubJunk)).grubBlockinfo = grub := hgrub.symm
  have hcheck : (!nv.grubGiven || grub.isSome) = true := by
    cases hg : nv.grubGiven with
    | false => rfl
    | true => exact hfound hg
  have hload : (loadStage (startData nv (l.calls hinfo grubJunk)) (fun _ => true) 0
      (RomFstab.toFstab ⟨l.cols, FILE_FSTAB, false⟩).recs).result = some l.recs := by
    rw [loadStage_result]
    exact l.load
  have hmod : moduleData (startData nv (l.calls hinfo grubJunk)) (l.calls hinfo grubJunk) l.recs
      l.targets = bootData bootmode nv info grub
        { recs := l.recs, fstabFilename := FILE_FSTAB, twrp := false } l.targets := by
    rw [moduleData, hentry]
    rfl
  have hprepare : (prepareStage (startData nv (l.calls hinfo grubJunk)) l.junk
      (moduleData (startData nv (l.calls hinfo grubJunk)) (l.calls hinfo grubJunk) l.recs
        l.targets)).result = some data := by
    rw [result_prepareStage, hmod]
    exact congrArg some l.prepared
  have hstages : (Multiboot.setupStages nv (l.calls hinfo grubJunk)).result = some data := by
    have hen' : (nv.multibootEnabled || nv.sndstageEnabled) = true := hen
    simp only [Multiboot.setupStages, result_bind, result_check, hen', hentry, hcheck, if_true,
      Option.bind_some]
    show (((Multiboot.epEarlyInit _ ⟨true, true, true⟩).result).bind _) = some data
    rw [result_epEarlyInit, Option.bind_some]
    show (((ofOption (some l.cols) : Logged Use _).result).bind _) = some data
    rw [result_ofOption, Option.bind_some]
    show ((loadStage _ (fun _ => true) 0 _).result.bind _) = some data
    rw [hload]
    exact hprepare
  refine ⟨rfl, hstages, ?_⟩
  rw [startup, result_bind, hstages, Option.bind_some, initStages, result_bind, patcherStage_result]
  obtain ⟨files, hfiles⟩ := Option.isSome_iff_exists.mp l.patched
  show ((fpFstabInit l.patch.junk l.patch.fopenOk data).bind _) = some ()
  rw [hfiles, Option.bind_some, result_bind]
  show ((if (epFstabInit l.init.blocks data l.init.calls l.init.tree).rc = .done then some () else none :
    Option Unit).bind _) = some ()
  rw [if_pos l.done]
  rfl

theorem results_deviceStages {bootmode : BootMode} {nv : NvData} {info : List SysBlockUevent}
    (hinfo : ∀ ev ∈ info, ev.partMajor < 2 ^ 32 ∧ ev.partMinor < 2 ^ 32) (hen : enabled nv = true) :
    Results (deviceStages bootmode nv info) fun res => ∀ data ∈ res,
      ∃ calls, Reached bootmode nv data calls := by
  have hrest : ∀ grub grubJunk, (grub = if nv.grubGiven then
      getBlockinfoForPath grubJunk info (nv.grubDevice.blkDevice.getD []) else none) →
      (nv.grubGiven = true → grub.isSome = true) → Results (do
        let ok ← epEarlyInit bootmode nv
        if ok then fstabStages bootmode nv info grub else pure none) fun res => ∀ data ∈ res,
          ∃ calls, Reached bootmode nv data calls := by
    intro grub grubJunk hgrub hfound
    refine gives_skip fun ok => ?_
    cases ok with
    | false => exact gives_pure fun data h => by cases h
    | true =>
      refine gives_mono (fun res hres data hdata => ?_) (results_fstabStages bootmode nv info grub)
      obtain ⟨l⟩ := hres data hdata
      exact ⟨_, l.reached hinfo grubJunk hen hgrub hfound⟩
  rw [deviceStages, findGrub]
  cases hg : nv.grubGiven with
  | false =>
    rw [hg] at hrest
    exact hrest none default rfl fun h => by cases h
  | true =>
    rw [hg] at hrest
    have hfind : Results (do
        let junk ← ask .junk
        pure ((getBlockinfoForPath junk info (nv.grubDevice.blkDevice.getD [])).map some)) fun found =>
          ∃ junk, found = (getBlockinfoForPath junk info (nv.grubDevice.blkDevice.getD [])).map some :=
      gives_perform fun junk _ => gives_pure ⟨junk, rfl⟩
    refine gives_bind hfind fun found hfound => ?_
    obtain ⟨junk, rfl⟩ := hfound
    cases hblock : getBlockinfoForPath junk info (nv.grubDevice.blkDevice.getD []) with
    | none => exact gives_pure fun data h => by cases h
    | some block => exact hrest (some block) junk (by rw [if_pos rfl, hblock]) fun _ => rfl

theorem results_sysStages {bootmode : BootMode} {nv : NvData} (hen : enabled nv = true) :
    Results (sysStages bootmode nv) fun res => ∀ data ∈ res,
      ∃ calls, Reached bootmode nv data calls := by
  refine gives_skip fun _ => gives_skip fun _ => gives_perform fun info hinfo => ?_
  cases info with
  | none => exact gives_pure fun data h => by cases h
  | some info =>
    refine gives_skip fun _ => gives_skip fun _ => gives_skip fun _ => ?_
    exact results_deviceStages (hinfo info rfl) hen

/-- What is known of a successful `setup`. -/
def BootedOk (res : Except End (Option Booted)) : Prop :=
  ∀ b data, res = .ok (some b) → b.data = some data → ∃ calls, Reached b.bootmode b.nv data calls

theorem bootedOk_fails : BootedOk (.ok none) := by
  intro b data h
  cases h

theorem results_parseCmdline (bootmode : BootMode) : Results (parseCmdline bootmode) BootedOk := by
  refine gives_skip fun file => gives_skip fun nv => ?_
  cases nv with
  | error e =>
    refine gives_pure fun b data h => ?_
    cases h
  | ok nv =>
    have hstages : Results (setupStages bootmode nv) fun booted => ∀ b ∈ booted, ∀ data ∈ b.data,
        ∃ calls, Reached b.bootmode b.nv data calls := by
      rw [setupStages]
      cases hen : enabled nv with
      | false =>
        refine gives_pure fun b hb data hdata => ?_
        obtain rfl := Option.some.inj hb
        cases hdata
      | true =>
        refine gives_bind (results_sysStages hen) fun data hdata => gives_pure fun b hb => ?_
        obtain ⟨data, rfl, rfl⟩ := Option.map_eq_some_iff.mp hb
        exact fun data' h => hdata data' h
    refine gives_bind hstages fun booted hbooted => gives_skip fun _ => gives_pure ?_
    intro b data hb hdata
    exact hbooted b (Except.ok.inj hb) data hdata

theorem results_setup : Results setup BootedOk := by
  refine gives_skip fun recovery => gives_skip fun _ => gives_skip fun made => ?_
  cases made with
  | false => exact gives_pure bootedOk_fails
  | true =>
    refine gives_skip fun made => ?_
    cases made with
    | false => exact gives_pure bootedOk_fails
    | true => exact gives_skip fun _ => gives_skip fun _ => results_parseCmdline _

/-! ### The refinement -/

/-- The calls of `import_kernel_nv` in a run. -/
def lineOf (es : List (Event Call.Ans)) : List NvCall :=
  let g := (es.foldl World.step World.init).progress
  g.rcs.zip g.tokens

/-- **The process refines the functions.**  In every run of `setup` with plausible answers that ends
well with something enabled, the parameters are those of the calls of `import_kernel_nv`, and there are
answers with which `startup` goes through all stages and its `module_data` is that of the process; on a
line whose values of `multiboot.grubdir` are in step it is also the one that `Multiboot.setup` builds
from the parameters. -/
theorem setup_refines : setup.Ends fun es res => (∀ e ∈ es, Plausible e) →
    ∀ b data, res = .ok (some b) → b.data = some data →
      run nvStep .cleared (lineOf es) = some b.nv ∧ ∃ calls : StartCalls,
        Reached b.bootmode b.nv data calls ∧ (GrubInStep (lineOf es) →
          Multiboot.setup (bootParams b.bootmode (lineOf es) b.nv) calls.setupEnv = some data) := by
  intro es res hrun hplausible b data hb hdata
  have hpost : SetupPost res (es.foldl World.step World.init) :=
    ends_of_wp (proves_setup (fun _ => rfl) ⟨rfl, rfl, rfl⟩ rfl) es res hrun
  subst hb
  have hnv : run nvStep .cleared (lineOf es) = some b.nv := SetupOk.nv hpost
  obtain ⟨calls, hcalls⟩ := ends_of_gives results_setup es _ hrun hplausible b data rfl hdata
  refine ⟨hnv, calls, hcalls, fun hstep => ?_⟩
  have hsetup := startup_setup (imported_of_run hnv) hstep hcalls.stages
  rwa [hcalls.bootmode] at hsetup

theorem demoAnswer_plausible (es : List (Event Call.Ans)) (c : Call) :
    Plausible ⟨c, demoAnswer demoLine es c⟩ := by
  cases c with
  | blockDevices =>
    intro table htable
    obtain rfl := Option.some.inj htable
    decide
  | read path =>
    intro cols hcols
    have hlen : ∀ cols ∈ doFsMgrReadFstab false
        (some "/dev/block/mmcblk0p2 /cache ext4 rw multiboot\n".toList), cols.length = 1 := by decide
    rw [hlen cols hcols]
    decide
  | _ => trivial

/-- The `module_data` that a `setup` has built. -/
def builtData : Except End (Option Booted) → Option ModuleData
  | .ok (some b) => b.data
  | _ => none

/-- The recovery comes to its data, and the functions to the same. -/
theorem setup_refines_recovery : ∃ es b data, setup.Runs es (.ok (some b)) ∧ b.data = some data ∧
    ∃ calls : StartCalls, Reached b.bootmode b.nv data calls ∧
      Multiboot.setup (bootParams b.bootmode (lineOf es) b.nv) calls.setupEnv = some data := by
  obtain ⟨es, hes, hrun⟩ := exec_runs (demoAnswer demoLine) setup []
  rw [List.nil_append] at hes
  have hplausible : ∀ e ∈ es, Plausible e := by
    rw [← hes]
    exact exec_forall demoAnswer_plausible setup [] fun _ h => by cases h
  have hdata : (builtData (setup.exec (demoAnswer demoLine) []).2).isSome = true := by decide
  have hstep : (lastAccepted MULTIBOOT_GRUBDIR (lineOf es)).isNone = true := by
    rw [← hes]
    decide
  generalize (setup.exec (demoAnswer demoLine) []).2 = res at hrun hdata
  rcases res with e | _ | b
  · cases hdata
  · cases hdata
  obtain ⟨data, hb⟩ := Option.isSome_iff_exists.mp hdata
  obtain ⟨-, calls, hcalls, hsetup⟩ := setup_refines es _ hrun hplausible b data rfl hb
  refine ⟨es, b, data, hrun, hb, calls, hcalls, hsetup fun a ha => ?_⟩
  rw [ha] at hstep
  cases hstep

end Multiboot.Boot
