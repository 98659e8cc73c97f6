import Multiboot.Redirect

/-!
# Patching the ROM's fstabs

On an Android boot `patchFstab` rewrites the fstabs of the ROM, by mount point; on a recovery boot
`hookMount` redirects the mounts themselves, by device.  `patched_mount_agrees` says when the two put
a partition in the same place.
-/

namespace Multiboot

/-! ### Writing a record -/

def FS_OPTION_REMOUNT : CString := "remount,".toList

def DEFAULTS : CString := "defaults".toList
def BIND : CString := "bind".toList

/-- The columns of a line. -/
structure FstabLine where
  blkDevice : CString
  mountPoint : CString
  fsType : CString
  fsOptions : CString
  fsMgrFlags : CString
  unhandled : CString
  deriving DecidableEq, Repr

/-- `file_write_fstabrec`: the text of a line. -/
def fileWriteFstabrec (twrp : Bool) (l : FstabLine) : CString :=
  if twrp then
    let fsOptions := if l.fsOptions = DEFAULTS then [] else l.fsOptions
    let fsMgrFlags := if l.fsMgrFlags = DEFAULTS then [] else l.fsMgrFlags
    l.mountPoint ++ [' '] ++ l.fsType ++ [' '] ++ l.blkDevice ++ [' '] ++ fsOptions ++ [' '] ++
      fsMgrFlags ++ [' '] ++ l.unhandled ++ ['\n']
  else
    l.blkDevice ++ [' '] ++ l.mountPoint ++ [' '] ++ l.fsType ++ [' '] ++ l.fsOptions ++ [' '] ++
      l.fsMgrFlags ++ ['\n']

/-- The options of a record, `""` for `NULL`. -/
def FstabRec.fsOptions (rec : FstabRec) : CString := rec.fsOptionsUnparsed.getD []

/-! ### Patching a record -/

/-- The fixup for boot and recovery partitions on 2ndstage devices: the source and the options.  The
grub device has a name exactly if the grub path is set. -/
def sndstageFixup (junk : Junk) (data : ModuleData) (rec : FstabRec) : Option (CString × CString) :=
  if data.sndstageEnabled && data.grubPath.isSome then
    match getBlockinfoForPath junk data.blockInfo rec.blkDevice with
    -- only a warning
    | none => some (rec.blkDevice, rec.fsOptions)
    | some event => data.grubBlockinfo.map fun grub =>
      if event.linuxMajor = grub.linuxMajor ∧ event.linuxMinor = grub.linuxMinor then
        (PATH_MOUNTPOINT_GRUB, BIND)
      else (rec.blkDevice, rec.fsOptions)
  else some (rec.blkDevice, rec.fsOptions)

/-- The multiboot record for a mount point. -/
def multibootRecFor (data : ModuleData) (mountPoint : CString) : Option FstabRec :=
  if data.multibootEnabled then
    (fsMgrGetEntryForMountPoint data.multibootFstab mountPoint).filter fsMgrIsMultiboot
  else none

/-- The new line of a record, and `use_bind`. -/
def patchLine (junk : Junk) (data : ModuleData) (rec : FstabRec) : Option (FstabLine × Bool) :=
  (sndstageFixup junk data rec).map fun (blkDevice, fsOptions) =>
    let line := FstabLine.mk blkDevice rec.mountPoint rec.fsType fsOptions
      (rec.fsMgrFlagsUnparsed.getD []) (rec.unhandledColumns.getD [])
    match multibootRecFor data rec.mountPoint with
    | none => (line, false)
    | some r =>
      -- bind mount
      if r.replacementBind then
        ({ line with blkDevice := showS r.replacementDevice, fsOptions := BIND }, true)
      -- fsimage mount
      else ({ line with blkDevice := showS r.replacementDevice }, false)

/-- What the loop of `patch_fstab` writes for a record. -/
def patchRec (junk : Junk) (data : ModuleData) (twrp : Bool) (rec : FstabRec) : Option CString :=
  match patchLine junk data rec with
  | none => none
  | some (line, useBind) =>
    -- we need a remount for bind mounts to set the flags
    if useBind && rec.mountPoint != "/system".toList then
      -- `strlen` of options that may be `NULL`
      rec.fsOptionsUnparsed.map fun own =>
        fileWriteFstabrec twrp line ++ fileWriteFstabrec twrp
          { line with fsOptions := FS_OPTION_REMOUNT ++ own, fsMgrFlags := "wait".toList }
    else some (fileWriteFstabrec twrp line)

/-- The loop of `patch_fstab`. -/
def patchRecs (junk : ℕ → Junk) (data : ModuleData) (twrp : Bool) :
    ℕ → List FstabRec → Option CString
  | _, [] => some []
  | i, rec :: recs => do
    let text ← patchRec (junk i) data twrp rec
    let rest ← patchRecs junk data twrp (i + 1) recs
    some (text ++ rest)

/-- `patch_fstab`: the new text of the file.  `junk` are the unassigned locals of its lookups. -/
def patchFstab (junk : ℕ → Junk) (data : ModuleData) (fopenOk : Bool) (fstab : Fstab) :
    Option CString :=
  if fopenOk then patchRecs junk data fstab.twrp 0 fstab.recs else none

/-- The loop of `fp_fstab_init`: the files written, with their texts. -/
def patchFstabs (junk : ℕ → ℕ → Junk) (data : ModuleData) (fopenOk : ℕ → Bool) :
    ℕ → List Fstab → Option (List (CString × CString))
  | _, [] => some []
  | i, fstab :: fstabs => do
    let text ← patchFstab (junk i) data (fopenOk i) fstab
    let files ← patchFstabs junk data fopenOk (i + 1) fstabs
    some ((fstab.fstabFilename, text) :: files)

/-- `fp_fstab_init` (`none`: it fails). -/
def fpFstabInit (junk : ℕ → ℕ → Junk) (fopenOk : ℕ → Bool) (data : ModuleData) :
    Option (List (CString × CString)) :=
  match data.bootmode with
  -- recovery is fully ptraced so we don't need any patching
  | .RECOVERY => some []
  | .ANDROID => patchFstabs junk data fopenOk 0 data.targetFstabs

/-! ### The lines of a patched file -/

/-- The line of a record follows the text of the records before it. -/
theorem patchRecs_line {junk : ℕ → Junk} {data : ModuleData} {twrp : Bool} :
    ∀ {recs : List FstabRec} {n i : ℕ} {text : CString} {rec : FstabRec},
      patchRecs junk data twrp n recs = some text → recs[i]? = some rec →
      ∃ line useBind before after, patchLine (junk (n + i)) data rec = some (line, useBind) ∧
        patchRecs junk data twrp n (recs.take i) = some before ∧
        text = before ++ fileWriteFstabrec twrp line ++ after
  | [], n, i, text, rec, _, hrec => by simp at hrec
  | rec0 :: recs, n, i, text, rec, h, hrec => by
    simp only [patchRecs, Option.bind_eq_bind, Option.bind_eq_some_iff] at h
    obtain ⟨piece, hpiece, rest, hrest, htext⟩ := h
    obtain rfl := Option.some.inj htext
    cases i with
    | zero =>
      obtain rfl := Option.some.inj hrec
      unfold patchRec at hpiece
      cases hl : patchLine (junk n) data rec0 with
      | none => simp [hl] at hpiece
      | some lb =>
        obtain ⟨line, useBind⟩ := lb
        simp only [hl] at hpiece
        refine ⟨line, useBind, [], ?_⟩
        split_ifs at hpiece
        · obtain ⟨own, -, rfl⟩ := Option.map_eq_some_iff.mp hpiece
          exact ⟨_, rfl, rfl, by rw [List.nil_append, List.append_assoc]⟩
        · obtain rfl := Option.some.inj hpiece
          exact ⟨rest, rfl, rfl, by rw [List.nil_append]⟩
    | succ i =>
      obtain ⟨line, useBind, before, after, hl, hbefore, rfl⟩ :=
        patchRecs_line hrest (by simpa using hrec)
      refine ⟨line, useBind, piece ++ before, after, ?_, ?_, by simp only [List.append_assoc]⟩
      · rw [← hl, Nat.add_right_comm, Nat.add_assoc]
      · simp [patchRecs, hpiece, hbefore]

theorem patchFstabs_file {junk : ℕ → ℕ → Junk} {data : ModuleData} {fopenOk : ℕ → Bool} :
    ∀ {fstabs : List Fstab} {m n : ℕ} {files : List (CString × CString)} {fstab : Fstab},
      patchFstabs junk data fopenOk m fstabs = some files → fstabs[n]? = some fstab →
      ∃ text, patchRecs (junk (m + n)) data fstab.twrp 0 fstab.recs = some text ∧
        files[n]? = some (fstab.fstabFilename, text)
  | [], m, n, files, fstab, _, hfstab => by simp at hfstab
  | fstab0 :: fstabs, m, n, files, fstab, h, hfstab => by
    simp only [patchFstabs, Option.bind_eq_bind, Option.bind_eq_some_iff] at h
    obtain ⟨text, htext, rest, hrest, hfiles⟩ := h
    obtain rfl := Option.some.inj hfiles
    cases n with
    | zero =>
      obtain rfl := Option.some.inj hfstab
      unfold patchFstab at htext
      split_ifs at htext
      exact ⟨text, htext, rfl⟩
    | succ n =>
      obtain ⟨text', htext', hget⟩ := patchFstabs_file hrest (by simpa using hfstab)
      refine ⟨text', ?_, by simpa using hget⟩
      rw [← htext', Nat.add_right_comm, Nat.add_assoc]

/-! ### Where a partition goes -/

/-- The patched file has a line with this source for record `i` of fstab `n`: a bind mount has the
option `bind`, any other mount keeps the record's options. -/
def PatchesTo (junk : ℕ → ℕ → Junk) (data : ModuleData) (files : List (CString × CString))
    (n i : ℕ) (source : CString) (bind : Bool) : Prop :=
  ∃ fstab rec line before after, data.targetFstabs[n]? = some fstab ∧ fstab.recs[i]? = some rec ∧
    patchLine (junk n i) data rec = some (line, bind) ∧ line.blkDevice = source ∧
    line.fsOptions = (if bind then BIND else rec.fsOptions) ∧
    patchRecs (junk n) data fstab.twrp 0 (fstab.recs.take i) = some before ∧
    files[n]? = some (fstab.fstabFilename, before ++ fileWriteFstabrec fstab.twrp line ++ after)

/-- `hook_mount` goes on with this source: a bind mount gets `MS_BIND`, any other mount keeps the
flags. -/
def MountsTo (data : ModuleData) (io : HookCalls) (st : HookSt) (source : CString) (bind : Bool) :
    Prop :=
  ∃ st' addr, hookMount data io true st = some (.CONTINUE, st') ∧
    st'.touches = st.touches ++ [.mmap addr (PATH_MAX + 1), .write addr source] ∧
    st'.args = mountArgs bind addr st.args

/-- The record `i` of the ROM's fstab `n` has the mount point and the device of a multiboot record, and
a child mounts it: the node of the device is there, with the number of `r`. -/
structure RomCall (android recovery : ModuleData) (n i : ℕ) (io : HookCalls) (st : HookSt)
    (rec r : FstabRec) : Prop where
  rom : ∃ fstab, android.targetFstabs[n]? = some fstab ∧ fstab.recs[i]? = some rec
  multiboot : r ∈ recovery.multibootFstab.recs
  flag : fsMgrIsMultiboot r = true
  mountPoint : r.mountPoint = rec.mountPoint
  blkDevice : r.blkDevice = rec.blkDevice
  source : io.pathAt st.args.a0 = some rec.blkDevice
  target : io.pathAt st.args.a1 = some rec.mountPoint
  errno : st.errno = none
  node : ∃ sb, io.fs.stat rec.blkDevice = .ok sb ∧ r.statbuf = some sb.rdev

/-- No other record comes before `r` for the ROM record, neither by device nor by mount point. -/
structure Undisputed (junk : Junk) (data : ModuleData) (fs : FsView) (rec r : FstabRec) : Prop where
  /-- The device is not the partition of the multiboot source. -/
  source : data.multibootPath.isSome = true →
    ¬ NamesDevice fs (pathName fs true rec.blkDevice) data.multibootDevice
  /-- It is not the partition of grub, neither for the hooks nor in the block-device table. -/
  grub : data.grubPath.isSome = true →
    ¬ NamesDevice fs (pathName fs true rec.blkDevice) data.grubDevice
  table : ∀ event grub, getBlockinfoForPath junk data.blockInfo rec.blkDevice = some event →
    data.grubBlockinfo = some grub →
    ¬ (event.linuxMajor = grub.linuxMajor ∧ event.linuxMinor = grub.linuxMinor)
  /-- No earlier record covers the mount point, and no earlier flagged record is the device. -/
  earlier : ∃ before after, data.multibootFstab.recs = before ++ r :: after ∧
    ∀ r' ∈ before, mountPointCovers r'.mountPoint rec.mountPoint = false ∧
      (fsMgrIsMultiboot r' = true → ¬ NamesDevice fs (pathName fs true rec.blkDevice) r')
  target : pathName fs true rec.mountPoint ≠ ASEC

/-! ### The mount -/

theorem fstabRecMatches_eq_false {data : ModuleData} (hres : AllResolved data) {fs : FileSystem}
    {path : CString} {r : FstabRec} (hr : r ∈ lookupRecs data)
    (h : ¬ NamesDevice fs.toFsView path r) : fstabRecMatches path r (fs.stat path) = false := by
  by_contra hm
  obtain ⟨d, hd, hne⟩ := hres r hr
  exact h (namesDevice_of_resolved fs hd hne (by simpa using hm))

theorem Undisputed.getFstabRec {junk : Junk} {data : ModuleData} (hres : AllResolved data)
    {fs : FileSystem} {rec r : FstabRec} (h : Undisputed junk data fs.toFsView rec r)
    (hflag : fsMgrIsMultiboot r = true)
    (hnode : ∃ sb, fs.stat rec.blkDevice = .ok sb ∧ r.statbuf = some sb.rdev) :
    getFstabRec data fs.toFsView (pathName fs.toFsView true rec.blkDevice) = some r := by
  obtain ⟨before, after, hsplit, hbefore⟩ := h.earlier
  obtain ⟨sb, hsb, hnum⟩ := hnode
  have hrecs : lookupRecs data =
      ((if data.multibootPath.isSome then [data.multibootDevice] else []) ++
        (if data.grubPath.isSome then [data.grubDevice] else []) ++
        before.filter fsMgrIsMultiboot) ++ r :: after.filter fsMgrIsMultiboot := by
    rw [lookupRecs, hsplit, List.filter_append, List.filter_cons_of_pos hflag]
    simp only [List.append_assoc]
  refine getFstabRec_eq_some_iff.mpr ⟨?_, _, _, hrecs, fun r' hr' => ?_⟩
  · refine fstabRecMatches_iff.mpr (Or.inl ⟨sb, pathName_of_stat hsb, ?_⟩)
    rw [FstabRec.stRdev, hnum, Option.getD_some]
  · refine fstabRecMatches_eq_false hres (by rw [hrecs]; exact List.mem_append_left _ hr') ?_
    simp only [List.mem_append, List.mem_filter] at hr'
    rcases hr' with (hr' | hr') | ⟨hr', hf⟩
    · split_ifs at hr' with hs
      · rw [List.mem_singleton.mp hr']
        exact h.source hs
      · cases hr'
    · split_ifs at hr' with hg
      · rw [List.mem_singleton.mp hr']
        exact h.grub hg
      · cases hr'
    · exact (hbefore r' hr').2 hf

/-- A mount whose device belongs to `r` goes to the replacement of `r`. -/
theorem RomCall.mountsTo {android recovery : ModuleData} {n i : ℕ} {fs : FileSystem} {io : HookCalls}
    (hfs : io.fs = fs.toFsView) (htracy : TracyOk io)
    (htarget : io.targetPath.read = true ∧ io.targetPath.resolve = true) {st : HookSt}
    {rec r : FstabRec} (hcall : RomCall android recovery n i io st rec r)
    (hasec : pathName io.fs true rec.mountPoint ≠ ASEC)
    (hr : getFstabRec recovery io.fs (pathName io.fs true rec.blkDevice) = some r) {text : CString}
    (htext : r.replacementDevice = some text) (hlen : text.length ≤ PATH_MAX) :
    MountsTo recovery io st text r.replacementBind := by
  obtain ⟨sb, hsb, -⟩ := hcall.node
  have he : io.fs.statErrno rec.blkDevice st.errno = none := by
    rw [FsView.statErrno, hsb, hcall.errno]
  have hres1 : (true && resolveFails io io.path rec.blkDevice st.errno) = false :=
    not_resolveFails hfs htracy.path.2 fun _ _ _ => hcall.errno
  have hres2 : (true && resolveFails io io.targetPath rec.mountPoint
      (io.fs.statErrno rec.blkDevice st.errno)) = false :=
    not_resolveFails hfs htarget.2 fun _ _ _ => he
  obtain ⟨addr, hm, h0⟩ := htracy.mmap
  have hrun : hookMount recovery io true st = _ :=
    hookMount_eq htracy.path.1 hcall.source hres1 htarget.1 hcall.target hres2 hasec
  simp only [hr, htext, replacePath_succeeds hlen hm h0 htracy.writeMem htracy.modifyArgs] at hrun
  exact ⟨_, addr, hrun, rfl, rfl⟩

/-! ### The patched line -/

theorem mountPointCovers_self (mp : CString) : mountPointCovers mp mp = true := by
  simp [mountPointCovers]

theorem Undisputed.multibootRecFor {junk : Junk} {data : ModuleData} {fs : FsView}
    {rec r : FstabRec} (h : Undisputed junk data fs rec r) (henabled : data.multibootEnabled = true)
    (hflag : fsMgrIsMultiboot r = true) (hmp : r.mountPoint = rec.mountPoint) :
    multibootRecFor data rec.mountPoint = some r := by
  obtain ⟨before, after, hsplit, hbefore⟩ := h.earlier
  have hfind : fsMgrGetEntryForMountPoint data.multibootFstab rec.mountPoint = some r := by
    refine List.find?_eq_some_iff_append.mpr ⟨?_, before, after, hsplit, fun r' hr' => ?_⟩
    · rw [hmp]
      exact mountPointCovers_self _
    · rw [(hbefore r' hr').1]
      rfl
  rw [Multiboot.multibootRecFor, if_pos henabled, hfind]
  simp [Option.filter, hflag]

/-- Where the 2ndstage fixup does not apply, the line has the replacement of the record found. -/
theorem patchLine_spec {junk : Junk} {data : ModuleData} {rec r : FstabRec} {text : CString}
    (htable : ∀ event grub, getBlockinfoForPath junk data.blockInfo rec.blkDevice = some event →
      data.grubBlockinfo = some grub →
      ¬ (event.linuxMajor = grub.linuxMajor ∧ event.linuxMinor = grub.linuxMinor))
    (hr : multibootRecFor data rec.mountPoint = some r) (htext : r.replacementDevice = some text)
    {line : FstabLine} {bind : Bool} (h : patchLine junk data rec = some (line, bind)) :
    line.blkDevice = text ∧ bind = r.replacementBind ∧
      line.fsOptions = if bind then BIND else rec.fsOptions := by
  obtain ⟨⟨blkDevice, fsOptions⟩, hfix, hline⟩ := Option.map_eq_some_iff.mp h
  have hkept : fsOptions = rec.fsOptions := by
    unfold sndstageFixup at hfix
    split_ifs at hfix
    · cases hev : getBlockinfoForPath junk data.blockInfo rec.blkDevice with
      | none =>
        simp only [hev, Option.some.injEq, Prod.mk.injEq] at hfix
        exact hfix.2.symm
      | some event =>
        simp only [hev] at hfix
        obtain ⟨grub, hgrub, hpair⟩ := Option.map_eq_some_iff.mp hfix
        rw [if_neg (htable event grub hev hgrub)] at hpair
        exact (Prod.mk.inj hpair).2.symm
    · exact (Prod.mk.inj (Option.some.inj hfix)).2.symm
  simp only [hr] at hline
  cases hb : r.replacementBind with
  | true =>
    simp only [hb, if_true, Prod.mk.injEq] at hline
    obtain ⟨rfl, rfl⟩ := hline
    exact ⟨by rw [htext]; rfl, rfl, rfl⟩
  | false =>
    simp only [hb, Bool.false_eq_true, if_false, Prod.mk.injEq] at hline
    obtain ⟨rfl, rfl⟩ := hline
    exact ⟨by rw [htext]; rfl, rfl, hkept⟩

/-! ### The two boots -/

/-- The boot mode does not matter to `setup`. -/
theorem setup_bootmode (params : BootParams) (env : SetupEnv) (mode : BootMode) :
    setup { params with bootmode := mode } env =
      (setup params env).map fun data => { data with bootmode := mode } := by
  unfold setup
  dsimp only
  generalize (if params.grub.isSome = true then
    getBlockinfoForPath env.grubJunk env.blockInfo
      (importDevice PATH_MOUNTPOINT_GRUB params.grub).blkDevice else none) = grubBlockinfo
  split_ifs
  · rfl
  · rfl
  · cases env.multibootFstab with
    | none => rfl
    | some cols =>
      simp only [Option.bind_eq_bind, Option.bind_some]
      cases loadMultibootFstab (params.source.map MmcParam.path) env.mknodOk
          (RomFstab.toFstab ⟨cols, FILE_FSTAB, false⟩) with
      | none => rfl
      | some fstab => cases env.targetFstabs <;> rfl

/-- **The two boots agree**: if no other record comes before `r` for a ROM record, the line written for
it on an Android boot has the source that a recovery boot substitutes, and both are bind mounts or
neither is. -/
theorem patched_mount_agrees (params : BootParams) (env : SetupEnv) (android recovery : ModuleData)
    (handroid : setup { params with bootmode := .ANDROID } env = some android)
    (hrecovery : setup { params with bootmode := .RECOVERY } env = some recovery)
    (henabled : recovery.multibootEnabled = true) (hres : AllResolved recovery)
    (junk : ℕ → ℕ → Junk) (fopenOk : ℕ → Bool) (files : List (CString × CString))
    (hfiles : fpFstabInit junk fopenOk android = some files)
    (fs : FileSystem) (io : HookCalls) (hfs : io.fs = fs.toFsView) (htracy : TracyOk io)
    (htarget : io.targetPath.read = true ∧ io.targetPath.resolve = true) (st : HookSt) (n i : ℕ)
    (rec r : FstabRec) (hcall : RomCall android recovery n i io st rec r)
    (h : Undisputed (junk n i) recovery io.fs rec r) :
    ∃ source bind, PatchesTo junk android files n i source bind ∧
      MountsTo recovery io st source bind := by
  obtain ⟨data, hdata, rfl⟩ : ∃ data, setup params env = some data ∧
      { data with bootmode := .ANDROID } = android := by
    rw [setup_bootmode] at handroid
    exact Option.map_eq_some_iff.mp handroid
  obtain rfl : { data with bootmode := .RECOVERY } = recovery := by
    rw [setup_bootmode, hdata] at hrecovery
    exact Option.some.inj hrecovery
  have hr : getFstabRec { data with bootmode := .RECOVERY } io.fs
      (pathName io.fs true rec.blkDevice) = some r := by
    have hnode := hcall.node
    rw [hfs] at h hnode ⊢
    exact h.getFstabRec hres hcall.flag hnode
  obtain ⟨text, htext, hlen⟩ := (prepared_of_setup hrecovery).replacement r (getFstabRec_mem hr)
  refine ⟨text, r.replacementBind, ?_, hcall.mountsTo hfs htracy htarget h.target hr htext hlen⟩
  obtain ⟨fstab, hfstab, hrec⟩ := hcall.rom
  obtain ⟨file, hpatch, hget⟩ := patchFstabs_file hfiles hfstab
  rw [Nat.zero_add] at hpatch
  obtain ⟨line, bind, before, after, hline, hbefore, rfl⟩ := patchRecs_line hpatch hrec
  rw [Nat.zero_add] at hline
  have hmb := h.multibootRecFor henabled hcall.flag hcall.mountPoint
  obtain ⟨hsource, rfl, hopts⟩ := patchLine_spec h.table hmb htext hline
  exact ⟨fstab, rec, line, before, after, hfstab, hrec, hline, hsource, hopts, hbefore, hget⟩

/-! ### A crowded multiboot fstab -/

/-- The columns of a flagged record. -/
def flaggedCols (blkDevice mountPoint fsType : String) : FstabCols :=
  ⟨blkDevice.toList, mountPoint.toList, fsType.toList, some "rw".toList, some "multiboot".toList, none,
    MF_MULTIBOOT⟩

/-- The first record is on the source partition and the last on that of grub, the third is below the
mount point of the second, the fourth on its device, and the fifth is for the special target. -/
def clashCols : List FstabCols :=
  [flaggedCols "/dev/block/mmcblk0p1" "/data" "ext4",
    flaggedCols "/dev/block/mmcblk0p2" "/cache" "ext4",
    flaggedCols "/dev/block/mmcblk0p3" "/cache/deep" "ext4",
    flaggedCols "/dev/block/mmcblk0p2" "/other" "ext4",
    flaggedCols "/dev/block/mmcblk0p4" "/mnt/secure/asec" "ext4",
    flaggedCols "/dev/block/mmcblk0p5" "/boot" "emmc"]

/-- The ROM has the same records as the multiboot fstab. -/
def clashEnv : SetupEnv where
  blockInfo :=
    [⟨179, 1, 0, 1, some "mmcblk0p1".toList, none⟩, ⟨179, 2, 0, 2, some "mmcblk0p2".toList, none⟩,
      ⟨179, 3, 0, 3, some "mmcblk0p3".toList, none⟩, ⟨179, 4, 0, 4, some "mmcblk0p4".toList, none⟩,
      ⟨179, 5, 0, 5, some "mmcblk0p5".toList, none⟩]
  partNumbers_lt := by decide
  grubJunk := (0, 0)
  earlyInitOk := true
  mknodOk _ := true
  multibootFstab := some clashCols
  numEntries_lt := by decide
  targetFstabs := some [⟨clashCols, "/fstab.rom".toList, false⟩]
  junk := ⟨default, default, fun _ => default, fun _ _ => default⟩

def clashParams (mode : BootMode) : BootParams where
  bootmode := mode
  sndstageEnabled := false
  source := some ⟨0, 1, "/android".toList⟩
  grub := some ⟨0, 5, "/boot".toList⟩

def clash (mode : BootMode) : ModuleData := (setup (clashParams mode) clashEnv).get rfl

/-- The numbers of the partitions' nodes. -/
def clashNodes (p : CString) : Option Dev :=
  ["/dev/block/mmcblk0p1", "/dev/block/mmcblk0p2", "/dev/block/mmcblk0p3", "/dev/block/mmcblk0p4",
    "/dev/block/mmcblk0p5"].findIdx? (fun name => name.toList == p) |>.map fun i => ⟨179, i + 1⟩

def clashStat (p : CString) : Stat :=
  match clashNodes p with
  | some dev => ⟨.blk, dev⟩
  | none => ⟨.dir, 0⟩

/-- The nodes of the partitions; everything else is a directory. -/
def clashFs : FileSystem where
  stat p := .ok (clashStat p)
  lstat p := .ok (clashStat p)
  realpath p := .ok p
  stat_kind {p s} h := by
    cases h
    unfold clashStat
    split <;> exact fun hk => by cases hk
  stat_of_lstat h _ := h
  lstat_of_stat h := Or.inl h
  realpath_of_stat {p s} h := ⟨p, rfl, h⟩
  rdev_of_not_device {p s} h := by
    cases h
    unfold clashStat
    split
    · intro hd
      cases hd
    · exact fun _ => rfl

/-- The child mounts the record `c`: its device is at 1, its mount point at 2. -/
def mountIo (c : FstabCols) : HookCalls :=
  { demoIo with
    mem := fun addr => some ((if addr = 1 then c.blkDevice else c.mountPoint) ++ [nul])
    fs := clashFs.toFsView }

theorem mountIo_tracyOk (c : FstabCols) : TracyOk (mountIo c) :=
  ⟨⟨rfl, rfl⟩, ⟨rfl, rfl⟩, ⟨4096, rfl, by decide⟩, rfl, rfl⟩

def clashFiles : List (CString × CString) :=
  (fpFstabInit default (fun _ => true) (clash .ANDROID)).get rfl

/-- The hook of `mount` is entered. -/
def mountHook : HookSt := enterHook ⟨1, 2, 0, 0, 0, 0, 0⟩

/-- The ROM's record of `/cache`, translated. -/
def cacheRec : FstabRec := { toFstabCols := clashCols[1], statbuf := some ⟨179, 2⟩ }

theorem undisputed_cache : Undisputed default (clash .RECOVERY) clashFs.toFsView cacheRec
    (clash .RECOVERY).multibootFstab.recs[1] where
  source _ := by decide
  grub := by decide
  table event grub hevent hgrub := by
    obtain rfl := Option.some.inj hevent
    obtain rfl := Option.some.inj hgrub
    decide
  earlier := ⟨(clash .RECOVERY).multibootFstab.recs.take 1,
    (clash .RECOVERY).multibootFstab.recs.drop 2, rfl, by decide⟩
  target := by decide

theorem patched_mount_agrees_cache : ∃ source bind,
    PatchesTo default (clash .ANDROID) clashFiles 0 1 source bind ∧
      MountsTo (clash .RECOVERY) (mountIo clashCols[1]) mountHook source bind :=
  patched_mount_agrees (clashParams .ANDROID) clashEnv (clash .ANDROID) (clash .RECOVERY) rfl rfl rfl (by decide)
    default (fun _ => true) clashFiles rfl clashFs (mountIo clashCols[1]) rfl (mountIo_tracyOk _)
    ⟨rfl, rfl⟩ mountHook 0 1 cacheRec (clash .RECOVERY).multibootFstab.recs[1]
    ⟨⟨_, rfl, rfl⟩, by decide, by decide, rfl, rfl, rfl, rfl, rfl, _, rfl, rfl⟩ undisputed_cache

/-- The line that is written and the source that is substituted differ. -/
theorem disagree_of_texts {junk : ℕ → ℕ → Junk} {android recovery : ModuleData}
    {files : List (CString × CString)} {n i : ℕ} {io : HookCalls} {st st' : HookSt} {fstab : Fstab}
    {rec : FstabRec} {line : FstabLine} {b : Bool} {addr : Long} {text : CString}
    (hfstab : android.targetFstabs[n]? = some fstab) (hrec : fstab.recs[i]? = some rec)
    (hline : patchLine (junk n i) android rec = some (line, b))
    (hrun : hookMount recovery io true st = some (.CONTINUE, st'))
    (htouch : st'.touches = st.touches ++ [.mmap addr (PATH_MAX + 1), .write addr text])
    (hne : line.blkDevice ≠ text) :
    ¬ ∃ source bind, PatchesTo junk android files n i source bind ∧
      MountsTo recovery io st source bind := by
  rintro ⟨source, bind, ⟨fstab', rec', line', before, after, hf, hr, hl, hs, -⟩, st2, addr2, hrun2, ht, -⟩
  obtain rfl := Option.some.inj (hfstab.symm.trans hf)
  obtain rfl := Option.some.inj (hrec.symm.trans hr)
  obtain rfl := (Prod.mk.inj (Option.some.inj (hline.symm.trans hl))).1
  obtain rfl := (Prod.mk.inj (Option.some.inj (hrun.symm.trans hrun2))).2
  have hwrites := List.append_cancel_left (htouch.symm.trans ht)
  simp only [List.cons.injEq, Touch.write.injEq] at hwrites
  exact hne (hs.trans hwrites.2.1.2.symm)

/-- A record of the ROM that is mounted in a source other than the one its line names. -/
theorem clash_disagrees {i : ℕ} {c : FstabCols} {rec r : FstabRec} {line : FstabLine} {b : Bool}
    {st' : HookSt} {text : CString} (hrec : ∃ fstab, (clash .ANDROID).targetFstabs[0]? = some fstab ∧
      fstab.recs[i]? = some rec)
    (hr : r ∈ (clash .RECOVERY).multibootFstab.recs) (hflag : fsMgrIsMultiboot r = true)
    (hcols : r.mountPoint = rec.mountPoint ∧ r.blkDevice = rec.blkDevice)
    (hread : (mountIo c).pathAt 1 = some rec.blkDevice ∧ (mountIo c).pathAt 2 = some rec.mountPoint)
    (hnode : r.statbuf = some (clashStat rec.blkDevice).rdev)
    (hline : patchLine default (clash .ANDROID) rec = some (line, b))
    (hrun : hookMount (clash .RECOVERY) (mountIo c) true mountHook = some (.CONTINUE, st'))
    (htouch : st'.touches = [.mmap 4096 (PATH_MAX + 1), .write 4096 text])
    (hne : line.blkDevice ≠ text) :
    (∃ rec r, RomCall (clash .ANDROID) (clash .RECOVERY) 0 i (mountIo c) mountHook rec r) ∧
      ¬ ∃ source bind, PatchesTo default (clash .ANDROID) clashFiles 0 i source bind ∧
        MountsTo (clash .RECOVERY) (mountIo c) mountHook source bind := by
  have hcall : RomCall (clash .ANDROID) (clash .RECOVERY) 0 i (mountIo c) mountHook rec r :=
    ⟨hrec, hr, hflag, hcols.1, hcols.2, hread.1, hread.2, rfl, _, rfl, hnode⟩
  obtain ⟨fstab, hfstab, hi⟩ := hrec
  exact ⟨⟨rec, r, hcall⟩, disagree_of_texts hfstab hi hline hrun htouch hne⟩

/-- Each of the other records goes to different places on the two boots. -/
theorem crowded_records_disagree :
    setup (clashParams .ANDROID) clashEnv = some (clash .ANDROID) ∧
    setup (clashParams .RECOVERY) clashEnv = some (clash .RECOVERY) ∧
    (clash .RECOVERY).multibootEnabled = true ∧ AllResolved (clash .RECOVERY) ∧
    fpFstabInit default (fun _ => true) (clash .ANDROID) = some clashFiles ∧
    ∀ ic ∈ [(0, clashCols[0]), (2, clashCols[2]), (3, clashCols[3]), (4, clashCols[4]),
        (5, clashCols[5])], TracyOk (mountIo ic.2) ∧
      (∃ rec r, RomCall (clash .ANDROID) (clash .RECOVERY) 0 ic.1 (mountIo ic.2) mountHook rec r) ∧
      ¬ ∃ source bind, PatchesTo default (clash .ANDROID) clashFiles 0 ic.1 source bind ∧
        MountsTo (clash .RECOVERY) (mountIo ic.2) mountHook source bind := by
  refine ⟨rfl, rfl, rfl, by decide, rfl, fun ic hic => ⟨mountIo_tracyOk _, ?_⟩⟩
  simp only [List.mem_cons, List.not_mem_nil, or_false] at hic
  rcases hic with rfl | rfl | rfl | rfl | rfl
  · exact clash_disagrees (r := (clash .RECOVERY).multibootFstab.recs[0])
      ⟨_, rfl, rfl⟩ (by decide) (by decide) ⟨rfl, rfl⟩ ⟨rfl, rfl⟩ rfl rfl rfl rfl (by decide)
  · exact clash_disagrees (r := (clash .RECOVERY).multibootFstab.recs[2])
      ⟨_, rfl, rfl⟩ (by decide) (by decide) ⟨rfl, rfl⟩ ⟨rfl, rfl⟩ rfl rfl rfl rfl (by decide)
  · exact clash_disagrees (r := (clash .RECOVERY).multibootFstab.recs[3])
      ⟨_, rfl, rfl⟩ (by decide) (by decide) ⟨rfl, rfl⟩ ⟨rfl, rfl⟩ rfl rfl rfl rfl (by decide)
  · exact clash_disagrees (r := (clash .RECOVERY).multibootFstab.recs[4])
      ⟨_, rfl, rfl⟩ (by decide) (by decide) ⟨rfl, rfl⟩ ⟨rfl, rfl⟩ rfl rfl rfl rfl (by decide)
  · exact clash_disagrees (r := (clash .RECOVERY).multibootFstab.recs[5])
      ⟨_, rfl, rfl⟩ (by decide) (by decide) ⟨rfl, rfl⟩ ⟨rfl, rfl⟩ rfl rfl rfl rfl (by decide)

end Multiboot
