import Multiboot.Patcher
import Multiboot.Storage
import Multiboot.Lib.FirstMatch

/-!
# Sources and options of the patched records

`patch_fstab` may rewrite the source of a record twice: the 2ndstage fixup puts the grub mount there,
and the multiboot record found for the mount point puts its replacement there.  `ownStorage_iff` says
when a record gets the storage of its own mount point, `optionsMatch_iff` when its options fit the
source.
-/

namespace Multiboot

open Lib

/-! ### The primary line -/

/-- `line` is what the loop of `patch_fstab` writes first for record `i`, after the text of the records
before it. -/
structure PrimaryLine (junk : ℕ → Junk) (data : ModuleData) (fstab : Fstab) (i : ℕ)
    (rec : FstabRec) (line : FstabLine) : Prop where
  record : fstab.recs[i]? = some rec
  patched : ∃ useBind, patchLine (junk i) data rec = some (line, useBind)
  file : ∀ text, patchFstab junk data true fstab = some text →
    ∃ before after, patchRecs junk data fstab.twrp 0 (fstab.recs.take i) = some before ∧
      text = before ++ fileWriteFstabrec fstab.twrp line ++ after

theorem primaryLine_of_patchLine {junk : ℕ → Junk} {data : ModuleData} {fstab : Fstab} {i : ℕ}
    {rec : FstabRec} {line : FstabLine} {useBind : Bool} (hrec : fstab.recs[i]? = some rec)
    (h : patchLine (junk i) data rec = some (line, useBind)) :
    PrimaryLine junk data fstab i rec line := by
  refine ⟨hrec, ⟨useBind, h⟩, fun text htext => ?_⟩
  obtain ⟨line', useBind', before, after, hline', hbefore, htext'⟩ :=
    patchRecs_line (show patchRecs junk data fstab.twrp 0 fstab.recs = some text from htext) hrec
  rw [Nat.zero_add, h] at hline'
  obtain rfl := (Prod.mk.inj (Option.some.inj hline')).1
  exact ⟨before, after, hbefore, htext'⟩

/-! ### The two rewrites -/

/-- The fixup for 2ndstage devices applies: the block-device table has the numbers of grub's partition
for the record's device. -/
def FixedUp (junk : Junk) (data : ModuleData) (rec : FstabRec) : Prop :=
  data.sndstageEnabled = true ∧ data.grubPath.isSome = true ∧
    ∃ event grub, getBlockinfoForPath junk data.blockInfo rec.blkDevice = some event ∧
      data.grubBlockinfo = some grub ∧
      event.linuxMajor = grub.linuxMajor ∧ event.linuxMinor = grub.linuxMinor

theorem sndstageFixup_of_fixedUp {junk : Junk} {data : ModuleData} {rec : FstabRec}
    (h : FixedUp junk data rec) : sndstageFixup junk data rec = some (PATH_MOUNTPOINT_GRUB, BIND) := by
  obtain ⟨hsnd, hpath, event, grub, hevent, hgrub, hnumbers⟩ := h
  rw [sndstageFixup, if_pos (by rw [hsnd, hpath]; rfl), hevent, hgrub]
  simp only [Option.map_some, if_pos hnumbers]

/-- `setup` leaves the entry of grub's partition whenever the grub path is set. -/
theorem grubBlockinfo_of_setup {params : BootParams} {env : SetupEnv} {data : ModuleData}
    (h : setup params env = some data) (hpath : data.grubPath.isSome = true) :
    data.grubBlockinfo.isSome = true := by
  obtain ⟨hgrub, -, _, _, _, -, -, -, rfl⟩ := setup_eq_some_iff.mp h
  have hparam : params.grub.isSome = true := by
    simpa [prepareFstab, loadedData] using hpath
  exact hgrub hparam

theorem sndstageFixup_of_not_fixedUp {params : BootParams} {env : SetupEnv} {data : ModuleData}
    (hsetup : setup params env = some data) {junk : Junk} {rec : FstabRec}
    (h : ¬ FixedUp junk data rec) :
    sndstageFixup junk data rec = some (rec.blkDevice, rec.fsOptions) := by
  unfold sndstageFixup
  split_ifs with hon
  · obtain ⟨hsnd, hpath⟩ := Bool.and_eq_true_iff.mp hon
    obtain ⟨grub, hgrub⟩ := Option.isSome_iff_exists.mp (grubBlockinfo_of_setup hsetup hpath)
    cases hevent : getBlockinfoForPath junk data.blockInfo rec.blkDevice with
    | none => rfl
    | some event =>
      have hnumbers : ¬ (event.linuxMajor = grub.linuxMajor ∧ event.linuxMinor = grub.linuxMinor) :=
        fun hn => h ⟨hsnd, hpath, event, grub, hevent, hgrub, hn⟩
      simp only [hgrub, Option.map_some, if_neg hnumbers]
  · rfl

/-- The source and the options before a multiboot record is looked for. -/
structure Unredirected (junk : Junk) (data : ModuleData) (rec : FstabRec)
    (source options : CString) : Prop where
  fixup : sndstageFixup junk data rec = some (source, options)
  fixedUp : FixedUp junk data rec → source = PATH_MOUNTPOINT_GRUB ∧ options = BIND
  own : ¬ FixedUp junk data rec → source = rec.blkDevice ∧ options = rec.fsOptions

theorem unredirected_of_setup {params : BootParams} {env : SetupEnv} {data : ModuleData}
    (hsetup : setup params env = some data) (junk : Junk) (rec : FstabRec) :
    ∃ source options, Unredirected junk data rec source options := by
  by_cases h : FixedUp junk data rec
  · exact ⟨_, _, sndstageFixup_of_fixedUp h, fun _ => ⟨rfl, rfl⟩, fun hn => absurd h hn⟩
  · exact ⟨_, _, sndstageFixup_of_not_fixedUp hsetup h, fun hf => absurd hf h, fun _ => ⟨rfl, rfl⟩⟩

/-- The columns of a record with another source and other options. -/
def FstabRec.toLine (rec : FstabRec) (source options : CString) : FstabLine :=
  ⟨source, rec.mountPoint, rec.fsType, options, rec.fsMgrFlagsUnparsed.getD [],
    rec.unhandledColumns.getD []⟩

theorem patchLine_alone {junk : Junk} {data : ModuleData} {rec : FstabRec} {source options : CString}
    (hfix : sndstageFixup junk data rec = some (source, options))
    (hr : multibootRecFor data rec.mountPoint = none) :
    patchLine junk data rec = some (rec.toLine source options, false) := by
  simp only [patchLine, hfix, Option.map_some, hr]
  rfl

theorem patchLine_redirected {junk : Junk} {data : ModuleData} {rec r : FstabRec}
    {source options : CString} (hfix : sndstageFixup junk data rec = some (source, options))
    (hr : multibootRecFor data rec.mountPoint = some r) :
    patchLine junk data rec =
      some (rec.toLine (showS r.replacementDevice) (if r.replacementBind then BIND else options),
        r.replacementBind) := by
  simp only [patchLine, hfix, Option.map_some, hr]
  cases r.replacementBind <;> rfl

theorem primaryLine_exists {params : BootParams} {env : SetupEnv} {data : ModuleData}
    (hsetup : setup params env = some data) (junk : ℕ → Junk) {fstab : Fstab} {i : ℕ}
    {rec : FstabRec} (hrec : fstab.recs[i]? = some rec) :
    ∃ line, PrimaryLine junk data fstab i rec line := by
  obtain ⟨source, options, hun⟩ := unredirected_of_setup hsetup (junk i) rec
  cases hr : multibootRecFor data rec.mountPoint with
  | none => exact ⟨_, primaryLine_of_patchLine hrec (patchLine_alone hun.fixup hr)⟩
  | some r => exact ⟨_, primaryLine_of_patchLine hrec (patchLine_redirected hun.fixup hr)⟩

/-- The source and the options of a line: those of the fixup where no multiboot record is found, else
the replacement of the record found. -/
theorem PrimaryLine.spec {params : BootParams} {env : SetupEnv} {data : ModuleData}
    (hsetup : setup params env = some data) {junk : ℕ → Junk} {fstab : Fstab} {i : ℕ}
    {rec : FstabRec} {line : FstabLine} (h : PrimaryLine junk data fstab i rec line) :
    ∃ source options, Unredirected (junk i) data rec source options ∧
      (multibootRecFor data rec.mountPoint = none →
        line.blkDevice = source ∧ line.fsOptions = options) ∧
      ∀ r, multibootRecFor data rec.mountPoint = some r →
        line.blkDevice = showS r.replacementDevice ∧
          line.fsOptions = if r.replacementBind then BIND else options := by
  obtain ⟨source, options, hun⟩ := unredirected_of_setup hsetup (junk i) rec
  obtain ⟨useBind, hline⟩ := h.patched
  refine ⟨source, options, hun, fun hr => ?_, fun r hr => ?_⟩
  · rw [patchLine_alone hun.fixup hr] at hline
    obtain rfl := (Prod.mk.inj (Option.some.inj hline)).1
    exact ⟨rfl, rfl⟩
  · rw [patchLine_redirected hun.fixup hr] at hline
    obtain rfl := (Prod.mk.inj (Option.some.inj hline)).1
    exact ⟨rfl, rfl⟩

/-! ### Storage of the own mount point -/

/-- A flagged multiboot record with this mount point. -/
def OwnRec (data : ModuleData) (mountPoint : CString) (r : FstabRec) : Prop :=
  r ∈ data.multibootFstab.recs ∧ fsMgrIsMultiboot r = true ∧ r.mountPoint = mountPoint

/-- The source is taken from `r->replacement_device`. -/
def TakenFrom (data : ModuleData) (rec : FstabRec) (line : FstabLine) (r : FstabRec) : Prop :=
  multibootRecFor data rec.mountPoint = some r ∧ line.blkDevice = showS r.replacementDevice

/-- A record is redirected exactly if a flagged multiboot record has its mount point, and then to the
replacement of such a record; else its source is its own, or grub's mount after the fixup. -/
def OwnStorage (junk : Junk) (data : ModuleData) (rec : FstabRec) (line : FstabLine) : Prop :=
  (∃ r, OwnRec data rec.mountPoint r ∧ TakenFrom data rec line r) ∨
  (∀ r, ¬ OwnRec data rec.mountPoint r) ∧ (∀ r, ¬ TakenFrom data rec line r) ∧
    (FixedUp junk data rec → line.blkDevice = PATH_MOUNTPOINT_GRUB) ∧
    (¬ FixedUp junk data rec → line.blkDevice = rec.blkDevice)

/-- `f` is the first multiboot record whose mount point is the path or lies above it. -/
def FirstCovering (recs : List FstabRec) (path : CString) (f : FstabRec) : Prop :=
  First (fun r => mountPointCovers r.mountPoint path) recs f

/-- The first multiboot record at or above the mount point: a flagged one has the mount point itself,
and one that is not flagged hides no flagged record with this mount point. -/
def FirstIsOwn (data : ModuleData) (mountPoint : CString) : Prop :=
  ∀ f, FirstCovering data.multibootFstab.recs mountPoint f →
    (fsMgrIsMultiboot f = true → f.mountPoint = mountPoint) ∧
    (fsMgrIsMultiboot f = false → ∀ r, ¬ OwnRec data mountPoint r)

/-- A flagged record with the mount point is covered by some first record. -/
theorem OwnRec.firstCovering {data : ModuleData} {mountPoint : CString} {r : FstabRec}
    (h : OwnRec data mountPoint r) : ∃ f, FirstCovering data.multibootFstab.recs mountPoint f := by
  obtain ⟨hmem, -, rfl⟩ := h
  exact exists_first hmem (mountPointCovers_self _)

theorem multibootRecFor_eq_some_iff {data : ModuleData} (henabled : data.multibootEnabled = true)
    {mountPoint : CString} {f : FstabRec} :
    multibootRecFor data mountPoint = some f ↔
      FirstCovering data.multibootFstab.recs mountPoint f ∧ fsMgrIsMultiboot f = true := by
  rw [multibootRecFor, if_pos henabled, Option.filter_eq_some_iff, fsMgrGetEntryForMountPoint,
    FirstCovering, first_iff]

theorem PrimaryLine.firstIsOwn {params : BootParams} {env : SetupEnv} {data : ModuleData}
    (hsetup : setup params env = some data) (henabled : data.multibootEnabled = true)
    {junk : ℕ → Junk} {fstab : Fstab} {i : ℕ} {rec : FstabRec} {line : FstabLine}
    (h : PrimaryLine junk data fstab i rec line) (hown : OwnStorage (junk i) data rec line) :
    FirstIsOwn data rec.mountPoint := by
  obtain ⟨source, options, -, -, hredirected⟩ := h.spec hsetup
  intro f hf
  rcases hown with ⟨r, hr, htaken, -⟩ | ⟨hnone, hnot, -⟩
  · have hfirst := (multibootRecFor_eq_some_iff henabled).mp htaken
    obtain rfl := hf.unique hfirst.1
    refine ⟨fun _ => hr.2.2, fun hflag => ?_⟩
    rw [hfirst.2] at hflag
    cases hflag
  · refine ⟨fun hflag => ?_, fun _ => hnone⟩
    have hfound := (multibootRecFor_eq_some_iff henabled).mpr ⟨hf, hflag⟩
    exact absurd ⟨hfound, (hredirected f hfound).1⟩ (hnot f)

theorem PrimaryLine.ownStorage {params : BootParams} {env : SetupEnv} {data : ModuleData}
    (hsetup : setup params env = some data) (henabled : data.multibootEnabled = true)
    {junk : ℕ → Junk} {fstab : Fstab} {i : ℕ} {rec : FstabRec} {line : FstabLine}
    (h : PrimaryLine junk data fstab i rec line) (hfirst : FirstIsOwn data rec.mountPoint) :
    OwnStorage (junk i) data rec line := by
  obtain ⟨source, options, hun, halone, hredirected⟩ := h.spec hsetup
  cases hr : multibootRecFor data rec.mountPoint with
  | some f =>
    obtain ⟨hf, hflag⟩ := (multibootRecFor_eq_some_iff henabled).mp hr
    exact Or.inl ⟨f, ⟨hf.mem, hflag, (hfirst f hf).1 hflag⟩, hr, (hredirected f hr).1⟩
  | none =>
    refine Or.inr ⟨fun r hown => ?_, fun r htaken => ?_, fun hfix => ?_, fun hfix => ?_⟩
    · -- the first record that covers it is not flagged, else it would have been found
      obtain ⟨f, hf⟩ := hown.firstCovering
      refine (hfirst f hf).2 ?_ r hown
      by_contra hflag
      have hfound := (multibootRecFor_eq_some_iff henabled).mpr ⟨hf, by simpa using hflag⟩
      rw [hr] at hfound
      cases hfound
    · have hfound := htaken.1
      rw [hr] at hfound
      cases hfound
    · rw [(halone hr).1, (hun.fixedUp hfix).1]
    · rw [(halone hr).1, (hun.own hfix).1]

/-- **A record gets the storage of its own mount point exactly if** the first multiboot record at or
above it is its own. -/
theorem ownStorage_iff (params : BootParams) (env : SetupEnv) (data : ModuleData)
    (hsetup : setup params env = some data) (henabled : data.multibootEnabled = true)
    (junk : ℕ → Junk) (fstab : Fstab) (i : ℕ) (rec : FstabRec) (hrec : fstab.recs[i]? = some rec) :
    ∃ line, PrimaryLine junk data fstab i rec line ∧
      (OwnStorage (junk i) data rec line ↔ FirstIsOwn data rec.mountPoint) := by
  obtain ⟨line, h⟩ := primaryLine_exists hsetup junk hrec
  exact ⟨line, h, h.firstIsOwn hsetup henabled, h.ownStorage hsetup henabled⟩

/-! ### Records above, and records that are not flagged -/

/-- The multiboot fstab lists `/data`, and `/cache` twice: first without the flag. -/
def nestedCols : List FstabCols :=
  [flaggedCols "/dev/block/mmcblk0p1" "/data" "ext4",
    { flaggedCols "/dev/block/mmcblk0p2" "/cache" "ext4" with fsMgrFlags := 0 },
    flaggedCols "/dev/block/mmcblk0p3" "/cache" "ext4",
    flaggedCols "/dev/block/mmcblk0p4" "/system" "ext4"]

/-- The ROM mounts a partition below `/data`. -/
def nestedEnv : SetupEnv :=
  { clashEnv with
    multibootFstab := some nestedCols
    numEntries_lt := by decide
    targetFstabs := some [⟨[flaggedCols "/dev/block/mmcblk0p2" "/data/x" "ext4",
      flaggedCols "/dev/block/mmcblk0p3" "/cache" "ext4",
      flaggedCols "/dev/block/mmcblk0p4" "/system" "ext4"], "/fstab.rom".toList, false⟩] }

def nested : ModuleData := (setup (clashParams .ANDROID) nestedEnv).get rfl

theorem ownStorage_iff_system : ∃ line,
    PrimaryLine default nested nested.targetFstabs[0] 2 nested.targetFstabs[0].recs[2] line ∧
      (OwnStorage default nested nested.targetFstabs[0].recs[2] line ↔
        FirstIsOwn nested "/system".toList) :=
  ownStorage_iff (clashParams .ANDROID) nestedEnv nested rfl rfl default nested.targetFstabs[0] 2
    nested.targetFstabs[0].recs[2] rfl

/-- The record below `/data` gets the storage of `/data`, and that of `/cache` gets none. -/
theorem nested_record_redirected :
    setup (clashParams .ANDROID) nestedEnv = some nested ∧ nested.multibootEnabled = true ∧
    ∀ i ∈ [0, 1], ∃ rec line,
      PrimaryLine default nested nested.targetFstabs[0] i rec line ∧
        ¬ OwnStorage default nested rec line := by
  refine ⟨rfl, rfl, fun i hi => ?_⟩
  have hnested : setup (clashParams .ANDROID) nestedEnv = some nested := rfl
  have hrefute : ∀ rec, nested.targetFstabs[0].recs[i]? = some rec →
      ¬ FirstIsOwn nested rec.mountPoint → ∃ rec line,
        PrimaryLine default nested nested.targetFstabs[0] i rec line ∧
          ¬ OwnStorage default nested rec line := by
    intro rec hrec hfirst
    obtain ⟨line, hline⟩ := primaryLine_exists hnested default hrec
    exact ⟨rec, line, hline, fun hown => hfirst (hline.firstIsOwn hnested rfl hown)⟩
  simp only [List.mem_cons, List.not_mem_nil, or_false] at hi
  rcases hi with rfl | rfl
  · refine hrefute _ rfl fun hfirst => ?_
    have hdata := (hfirst nested.multibootFstab.recs[0] ⟨[], _, rfl, by decide, by simp⟩).1 (by decide)
    revert hdata
    decide
  · refine hrefute _ rfl fun hfirst => ?_
    refine (hfirst nested.multibootFstab.recs[1] ⟨nested.multibootFstab.recs.take 1, _, rfl,
      by decide, by decide⟩).2 (by decide) nested.multibootFstab.recs[2] ⟨by decide, by decide, ?_⟩
    decide

/-! ### Options that fit the source -/

/-- The source is a directory: grub's mount or a bind replacement. -/
def IsDirectory (data : ModuleData) (source : CString) : Prop :=
  source = PATH_MOUNTPOINT_GRUB ∨ ∃ r ∈ data.multibootFstab.recs,
    r.replacementBind = true ∧ r.replacementDevice = some source

/-- The source is the loop device of an image replacement. -/
def IsLoopDevice (data : ModuleData) (source : CString) : Prop :=
  ∃ r ∈ data.multibootFstab.recs, r.replacementBind = false ∧ r.replacementDevice = some source

/-- A directory is mounted with `bind`, a block device with the options of the record. -/
def OptionsMatch (data : ModuleData) (rec : FstabRec) (line : FstabLine) : Prop :=
  (IsDirectory data line.blkDevice → line.fsOptions = BIND) ∧
    (IsLoopDevice data line.blkDevice → line.fsOptions = rec.fsOptions)

/-- The record is redirected to an image after the fixup, and its own options are not `bind`. -/
def ImageAfterFixup (junk : Junk) (data : ModuleData) (rec : FstabRec) : Prop :=
  FixedUp junk data rec ∧
    (∃ r, multibootRecFor data rec.mountPoint = some r ∧ r.replacementBind = false) ∧
    rec.fsOptions ≠ BIND

/-- The letter at which the names of directories and of loop devices differ. -/
def kindLetter (source : CString) : Option Char := source[11]?

theorem kindLetter_append {text rest : CString} {c : Char} (h : kindLetter text = some c) :
    kindLetter (text ++ rest) = some c := by
  have hlt : 11 < text.length := (List.getElem?_eq_some_iff.mp h).1
  rw [kindLetter, List.getElem?_append_left hlt]
  exact h

theorem kindLetter_snprintf (text : CString) : kindLetter (snprintf PATH_MAX text) = kindLetter text := by
  rw [kindLetter, snprintf, List.getElem?_take_of_lt (by decide), kindLetter]

/-- A bind replacement lies below `/multiboot/mnt`, an image is on a loop device in
`/multiboot/dev`. -/
theorem kindLetter_replacement {params : BootParams} {env : SetupEnv} {data : ModuleData}
    (hsetup : setup params env = some data) {r : FstabRec} (hr : r ∈ data.multibootFstab.recs)
    {text : CString} (htext : r.replacementDevice = some text) :
    kindLetter text = some (if r.replacementBind then 'm' else 'd') := by
  obtain ⟨n, hn⟩ := List.mem_iff_getElem?.mp hr
  have hplaced := placed_of_setup hsetup hn
  by_cases hbind : r.fsType ∈ bindTypes
  · obtain ⟨hb, hdev, -⟩ := hplaced.bind hbind
    rw [hdev] at htext
    obtain rfl := Option.some.inj htext
    rw [hb, kindLetter_snprintf, dirText, List.append_assoc]
    exact kindLetter_append rfl
  · obtain ⟨hb, hdev⟩ := hplaced.image hbind
    rw [hdev] at htext
    obtain rfl := Option.some.inj htext
    rw [hb, recLoop, kindLetter_snprintf, loopName, List.append_assoc]
    exact kindLetter_append rfl

theorem IsDirectory.kindLetter {params : BootParams} {env : SetupEnv} {data : ModuleData}
    (hsetup : setup params env = some data) {source : CString} (h : IsDirectory data source) :
    kindLetter source = some 'm' := by
  rcases h with rfl | ⟨r, hr, hbind, htext⟩
  · rfl
  · rw [kindLetter_replacement hsetup hr htext, hbind]
    rfl

theorem IsLoopDevice.kindLetter {params : BootParams} {env : SetupEnv} {data : ModuleData}
    (hsetup : setup params env = some data) {source : CString} (h : IsLoopDevice data source) :
    kindLetter source = some 'd' := by
  obtain ⟨r, hr, hbind, htext⟩ := h
  rw [kindLetter_replacement hsetup hr htext, hbind]
  rfl

theorem IsDirectory.not_isLoopDevice {params : BootParams} {env : SetupEnv} {data : ModuleData}
    (hsetup : setup params env = some data) {source : CString} (h : IsDirectory data source) :
    ¬ IsLoopDevice data source := by
  intro hloop
  have hletter := (h.kindLetter hsetup).symm.trans (hloop.kindLetter hsetup)
  revert hletter
  decide

/-- Every record that is found has a replacement. -/
theorem replacement_of_found {params : BootParams} {env : SetupEnv} {data : ModuleData}
    (hsetup : setup params env = some data) {mountPoint : CString} {r : FstabRec}
    (hr : multibootRecFor data mountPoint = some r) :
    r ∈ data.multibootFstab.recs ∧ ∃ text, r.replacementDevice = some text := by
  unfold multibootRecFor at hr
  split_ifs at hr with henabled
  obtain ⟨hfound, hflag⟩ := Option.filter_eq_some_iff.mp hr
  have hmem : r ∈ data.multibootFstab.recs := (first_iff.mpr hfound).mem
  have hlookup : r ∈ lookupRecs data :=
    List.mem_append_right _ (List.mem_filter.mpr ⟨hmem, hflag⟩)
  obtain ⟨text, htext, -⟩ := (prepared_of_setup hsetup).replacement r hlookup
  exact ⟨hmem, text, htext⟩

theorem PrimaryLine.not_imageAfterFixup {params : BootParams} {env : SetupEnv} {data : ModuleData}
    (hsetup : setup params env = some data) {junk : ℕ → Junk} {fstab : Fstab} {i : ℕ}
    {rec : FstabRec} {line : FstabLine} (h : PrimaryLine junk data fstab i rec line)
    (hmatch : OptionsMatch data rec line) : ¬ ImageAfterFixup (junk i) data rec := by
  rintro ⟨hfix, ⟨r, hr, himage⟩, hown⟩
  obtain ⟨source, options, hun, -, hredirected⟩ := h.spec hsetup
  obtain ⟨hmem, text, htext⟩ := replacement_of_found hsetup hr
  obtain ⟨hsource, hoptions⟩ := hredirected r hr
  rw [htext] at hsource
  have hloop : IsLoopDevice data line.blkDevice := ⟨r, hmem, himage, by rw [htext, hsource]; rfl⟩
  apply hown
  calc rec.fsOptions = line.fsOptions := (hmatch.2 hloop).symm
    _ = options := by rw [hoptions, himage]; rfl
    _ = BIND := (hun.fixedUp hfix).2

theorem PrimaryLine.optionsMatch {params : BootParams} {env : SetupEnv} {data : ModuleData}
    (hsetup : setup params env = some data) {junk : ℕ → Junk} {fstab : Fstab} {i : ℕ}
    {rec : FstabRec} {line : FstabLine} (h : PrimaryLine junk data fstab i rec line)
    (hrewritten : FixedUp (junk i) data rec ∨ (multibootRecFor data rec.mountPoint).isSome = true)
    (himage : ¬ ImageAfterFixup (junk i) data rec) : OptionsMatch data rec line := by
  obtain ⟨source, options, hun, halone, hredirected⟩ := h.spec hsetup
  have hdirectory : IsDirectory data line.blkDevice → line.fsOptions = BIND →
      OptionsMatch data rec line := fun hdir hopt =>
    ⟨fun _ => hopt, fun hloop => absurd hloop (hdir.not_isLoopDevice hsetup)⟩
  cases hr : multibootRecFor data rec.mountPoint with
  | none =>
    have hfix : FixedUp (junk i) data rec := by simpa [hr] using hrewritten
    obtain ⟨hsource, hoptions⟩ := halone hr
    obtain ⟨hgrub, hbind⟩ := hun.fixedUp hfix
    exact hdirectory (Or.inl (hsource.trans hgrub)) (hoptions.trans hbind)
  | some r =>
    obtain ⟨hmem, text, htext⟩ := replacement_of_found hsetup hr
    obtain ⟨hsource, hoptions⟩ := hredirected r hr
    have hdev : r.replacementDevice = some line.blkDevice := by
      rw [hsource, htext]
      rfl
    cases hb : r.replacementBind with
    | true => exact hdirectory (Or.inr ⟨r, hmem, hb, hdev⟩) (by rw [hoptions, hb]; rfl)
    | false =>
      have hloop : IsLoopDevice data line.blkDevice := ⟨r, hmem, hb, hdev⟩
      refine ⟨fun hdir => absurd hloop (hdir.not_isLoopDevice hsetup), fun _ => ?_⟩
      rw [hoptions, hb]
      show options = rec.fsOptions
      by_cases hfix : FixedUp (junk i) data rec
      · have hown : rec.fsOptions = BIND := by
          by_contra hne
          exact himage ⟨hfix, ⟨r, hr, hb⟩, hne⟩
        rw [(hun.fixedUp hfix).2, hown]
      · exact (hun.own hfix).2

/-- **The options fit the source exactly if** no image replaces the source after the fixup, unless the
record's own options are `bind`. -/
theorem optionsMatch_iff (params : BootParams) (env : SetupEnv) (data : ModuleData)
    (hsetup : setup params env = some data) (junk : ℕ → Junk) (fstab : Fstab) (i : ℕ)
    (rec : FstabRec) (hrec : fstab.recs[i]? = some rec)
    (hrewritten : FixedUp (junk i) data rec ∨ (multibootRecFor data rec.mountPoint).isSome = true) :
    ∃ line, PrimaryLine junk data fstab i rec line ∧
      (OptionsMatch data rec line ↔ ¬ ImageAfterFixup (junk i) data rec) := by
  obtain ⟨line, h⟩ := primaryLine_exists hsetup junk hrec
  exact ⟨line, h, h.not_imageAfterFixup hsetup, h.optionsMatch hsetup hrewritten⟩

/-! ### A boot image on the partition of grub -/

/-- The crowded boot, with the fixup for 2ndstage devices. -/
def sndstageParams : BootParams := { clashParams .ANDROID with sndstageEnabled := true }

def sndstage : ModuleData := (setup sndstageParams clashEnv).get rfl

theorem optionsMatch_iff_cache : ∃ line,
    PrimaryLine default sndstage sndstage.targetFstabs[0] 1 cacheRec line ∧
      (OptionsMatch sndstage cacheRec line ↔ ¬ ImageAfterFixup default sndstage cacheRec) :=
  optionsMatch_iff sndstageParams clashEnv sndstage rfl default sndstage.targetFstabs[0] 1 cacheRec rfl
    (Or.inr rfl)

/-- The ROM's record of `/boot` is on grub's partition and redirected to an image: its loop device gets
the option `bind`. -/
theorem image_mounted_bind :
    setup sndstageParams clashEnv = some sndstage ∧
    ∃ rec line, PrimaryLine default sndstage sndstage.targetFstabs[0] 5 rec line ∧
      (FixedUp default sndstage rec ∨ (multibootRecFor sndstage rec.mountPoint).isSome = true) ∧
      ¬ OptionsMatch sndstage rec line := by
  have hsetup : setup sndstageParams clashEnv = some sndstage := rfl
  obtain ⟨line, h⟩ := primaryLine_exists hsetup default
    (show sndstage.targetFstabs[0].recs[5]? = some sndstage.targetFstabs[0].recs[5] from rfl)
  refine ⟨hsetup, _, line, h, Or.inr rfl, fun hmatch => h.not_imageAfterFixup hsetup hmatch ?_⟩
  exact ⟨⟨rfl, rfl, _, _, rfl, rfl, rfl, rfl⟩, ⟨sndstage.multibootFstab.recs[5], rfl, rfl⟩, by decide⟩

end Multiboot
