import Multiboot.ReadFstab
import Multiboot.Cmdline
import Multiboot.Sources

/-!
# The columns of the records

A column of a record in memory has been cut from a line, translated by `translate_fstab_rec`, or taken
from the replacement of a multiboot record.  None of these has a character that ends a column, so that
each of them is read as one column again.
-/

namespace Multiboot

open Lib

/-! ### Texts without ends of columns -/

/-- No character of the text ends a column. -/
def Unbroken (s : CString) : Prop := ∀ c ∈ s, endsColumn c = false

instance (s : CString) : Decidable (Unbroken s) :=
  decidable_of_iff (s.all fun c => !endsColumn c) (by simp [Unbroken])

theorem Unbroken.append {s t : CString} (hs : Unbroken s) (ht : Unbroken t) : Unbroken (s ++ t) := by
  intro c hc
  rcases List.mem_append.mp hc with hc | hc
  · exact hs c hc
  · exact ht c hc

theorem unbroken_showU (n : ℕ) : Unbroken (showU n) := by
  intro c hc
  have hdigit := isdigit_of_mem_showU hc
  by_contra h
  have hmem := endsColumn_iff.mp (by simpa using h)
  simp only [List.mem_cons, List.not_mem_nil, or_false] at hmem
  rcases hmem with rfl | rfl | rfl | rfl
  all_goals exact absurd hdigit (by decide)

theorem unbroken_showD (x : ℤ) : Unbroken (showD x) := by
  cases x with
  | ofNat n => exact unbroken_showU n
  | negSucc n =>
    have hminus : Unbroken ['-'] := by
      intro c hc
      rw [List.mem_singleton.mp hc]
      decide
    exact hminus.append (unbroken_showU (n + 1))

theorem unbroken_blkName (x y : ℕ) : Unbroken (blkName x y) := by
  have hlit : Unbroken "/dev/block/mmcblk".toList := by decide
  have hp : Unbroken ['p'] := by decide
  exact ((hlit.append (unbroken_showU x)).append hp).append (unbroken_showU y)

/-- A path from the root. -/
structure Rooted (s : CString) : Prop where
  unbroken : Unbroken s
  root : ∃ t, s = '/' :: t

theorem Rooted.column {s : CString} (h : Rooted s) : Column s := by
  obtain ⟨t, ht⟩ := h.root
  exact ⟨by rw [ht]; exact List.cons_ne_nil _ _, h.unbroken⟩

theorem rooted_blkName (x y : ℕ) : Rooted (blkName x y) := ⟨unbroken_blkName x y, _, rfl⟩

theorem rooted_grub : Rooted PATH_MOUNTPOINT_GRUB := by
  exact ⟨by decide, _, rfl⟩

theorem Rooted.snprintf {s : CString} (h : Rooted s) : Rooted (snprintf PATH_MAX s) := by
  obtain ⟨t, ht⟩ := h.root
  refine ⟨fun c hc => h.unbroken c (List.take_subset _ _ hc), t.take (PATH_MAX - 2), ?_⟩
  rw [Multiboot.snprintf, ht]
  rfl

/-! ### The multiboot path -/

theorem subset_of_scanLit {lit s t : CString} (h : scanLit lit s = some t) : t ⊆ s := by
  unfold scanLit at h
  split_ifs at h with hprefix
  rw [← Option.some.inj h]
  exact List.drop_subset _ _

theorem subset_of_scanU {s t : CString} {n : ℕ} (h : scanU s = some (n, t)) : t ⊆ s := by
  unfold scanU at h
  dsimp only at h
  have hsign : ∀ (b : Bool) (u : CString), (if b then u.tail else u) ⊆ u := by
    intro b u
    cases b with
    | true => exact List.tail_subset u
    | false => exact List.Subset.refl u
  split_ifs at h <;>
  · rw [← (Prod.mk.inj (Option.some.inj h)).2]
    refine List.Subset.trans (List.dropWhile_subset _) ?_
    first
      | exact List.Subset.trans (List.tail_subset _) (List.dropWhile_subset _)
      | exact List.dropWhile_subset _

theorem scanS_spec {s word : CString} (h : scanS s = some word) : PlainPath word ∧ word ⊆ s := by
  unfold scanS at h
  dsimp only at h
  split_ifs at h with hne
  obtain rfl := Option.some.inj h
  refine ⟨⟨hne, fun c hc => ?_⟩, ?_⟩
  · have hplain := List.mem_takeWhile_imp hc
    simpa using hplain
  · exact List.Subset.trans (List.takeWhile_subset _) (List.dropWhile_subset _)

/-- The path of a value is a part of it without white space. -/
theorem path_of_scanHd {value : CString} {p : MmcParam} (h : scanHd value = some p) :
    PlainPath p.path ∧ p.path ⊆ value := by
  simp only [scanHd, Option.bind_eq_bind, Option.bind_eq_some_iff] at h
  obtain ⟨s1, h1, ⟨x, s2⟩, h2, s3, h3, ⟨y, s4⟩, h4, s5, h5, path, h6, hp⟩ := h
  obtain rfl := Option.some.inj hp
  obtain ⟨hplain, hsub⟩ := scanS_spec h6
  refine ⟨hplain, ?_⟩
  intro c hc
  have h5' := subset_of_scanLit h5 (hsub hc)
  have h3' := subset_of_scanLit h3 (subset_of_scanU h4 h5')
  exact subset_of_scanLit h1 (subset_of_scanU h2 h3')

theorem subset_of_mem_cmdlineTokens {line : CString} :
    ∀ token ∈ cmdlineTokens line, token ⊆ line := by
  induction line with
  | nil => exact fun token h => absurd h List.not_mem_nil
  | cons c line ih =>
    intro token h
    rw [cmdlineTokens] at h
    have hrest : ∀ t ∈ cmdlineTokens line, t ⊆ c :: line := by
      intro t ht
      exact List.subset_cons_of_subset c (ih t ht)
    split_ifs at h with hc
    · rcases List.mem_cons.mp h with rfl | h
      · exact List.nil_subset _
      · exact hrest token h
    · cases htokens : cmdlineTokens line with
      | nil =>
        rw [htokens] at h
        rw [List.mem_singleton.mp h]
        exact List.cons_subset_cons c (List.nil_subset _)
      | cons first tokens =>
        rw [htokens] at h hrest ih
        rcases List.mem_cons.mp h with rfl | h
        · exact List.cons_subset_cons c (ih first List.mem_cons_self)
        · exact hrest token (List.mem_cons_of_mem _ h)

theorem nul_notMem_readCmdline (file : Option CString) : nul ∉ readCmdline file := by
  intro h
  have hnul := List.mem_takeWhile_imp h
  exact absurd hnul (by decide)

/-- The multiboot source is a value of the kernel command line. -/
def FromCmdline (params : BootParams) : Prop :=
  ∀ p, params.source = some p → ∃ rc cmdline,
    ∃ a ∈ accepted MULTIBOOT_SOURCE (nvCalls rc cmdline), a.param = p

theorem FromCmdline.unbroken {params : BootParams} (h : FromCmdline params) {p : MmcParam}
    (hp : params.source = some p) : Unbroken p.path := by
  obtain ⟨rc, cmdline, a, ha, rfl⟩ := h p hp
  obtain ⟨hplain, hsub⟩ := path_of_scanHd (mem_accepted ha)
  -- the value is a part of the line
  obtain ⟨call, hcall, haccept⟩ := List.mem_filterMap.mp ha
  obtain ⟨value, hvalue, haccepted⟩ := Option.bind_eq_some_iff.mp haccept
  obtain ⟨param, -, rfl⟩ := Option.map_eq_some_iff.mp haccepted
  obtain ⟨i, hi, rfl⟩ := List.mem_mapIdx.mp hcall
  obtain ⟨⟨name, value'⟩, hsplit, hname⟩ := Option.bind_eq_some_iff.mp hvalue
  obtain ⟨-, rfl⟩ : name = MULTIBOOT_SOURCE ∧ value' = value := by simpa using hname
  unfold splitNv at hsplit
  split_ifs at hsplit with heq
  obtain ⟨-, rfl⟩ := Prod.mk.inj (Option.some.inj hsplit)
  intro c hc
  have hline : c ∈ readCmdline cmdline :=
    subset_of_mem_cmdlineTokens _ (List.getElem_mem hi)
      (List.dropWhile_subset _ (List.tail_subset _ (hsub hc)))
  have hspace := hplain.2 c hc
  by_contra hends
  have hmem := endsColumn_iff.mp (by simpa using hends)
  simp only [List.mem_cons, List.not_mem_nil, or_false] at hmem
  rcases hmem with rfl | rfl | rfl | rfl
  · exact absurd hspace (by decide)
  · exact absurd hspace (by decide)
  · exact absurd hspace (by decide)
  · exact nul_notMem_readCmdline cmdline hline

/-! ### Records that were read -/

/-- The columns of a record in standard format. -/
def FstabCols.columns (cols : FstabCols) : List CString :=
  [cols.blkDevice, cols.mountPoint, cols.fsType, cols.fsOptionsUnparsed.getD [],
    cols.fsMgrFlagsUnparsed.getD []]

/-- What is known of a record of a file in standard format. -/
structure StandardCols (cols : FstabCols) : Prop where
  columns : ∀ w ∈ cols.columns, Column w
  options : cols.fsOptionsUnparsed.isSome = true
  flags : cols.fsMgrFlagsUnparsed.isSome = true
  opens : opens cols.columns ≠ some '#'

/-- What is known of a record of a file in TWRP format. -/
structure TwrpCols (cols : FstabCols) : Prop where
  columns : ∀ w ∈ [cols.mountPoint, cols.fsType, cols.blkDevice], Column w
  options : cols.fsOptionsUnparsed = some DEFAULTS
  flags : cols.fsMgrFlagsUnparsed = some DEFAULTS ∧ cols.fsMgrFlags = 0
  unhandled : ∃ ws, (∀ w ∈ ws, Column w) ∧ cols.unhandledColumns = joinColumns ws ∧
    ∃ c, opens ([cols.mountPoint, cols.fsType, cols.blkDevice] ++ ws) = some c ∧ c ≠ '#'

/-- Every record comes from a line. -/
theorem line_of_read {twrp : Bool} {file : Option CString} {recs : List FstabCols}
    (h : doFsMgrReadFstab twrp file = some recs) :
    recs ≠ [] ∧ ∀ cols ∈ recs, ∃ line, isEntry line = true ∧ readRec twrp line = some cols ∧
      ∀ w ∈ tokens fieldDelim line, Column w := by
  obtain ⟨text, -, h⟩ := Option.bind_eq_some_iff.mp h
  dsimp only at h
  split_ifs at h with hany
  refine ⟨ne_nil_of_readLines h hany, ?_⟩
  intro cols hcols
  obtain ⟨_, hline, hentry, hread⟩ := mem_of_readLines h cols hcols
  obtain ⟨line, hmem, rfl⟩ := List.mem_map.mp hline
  refine ⟨lineText line, hentry, hread, ?_⟩
  intro w hw
  exact column_of_mem_tokens (newline_notMem_getLines line hmem) hw

theorem standardCols_of_read {file : Option CString} {recs : List FstabCols}
    (h : doFsMgrReadFstab false file = some recs) : ∀ cols ∈ recs, StandardCols cols := by
  intro cols hcols
  obtain ⟨line, hentry, hread, hcolumn⟩ := (line_of_read h).2 cols hcols
  obtain ⟨c, hopens, hc⟩ := isEntry_iff.mp hentry
  unfold readRec at hread
  split at hread
  · contradiction
  · next blkDevice mountPoint fsType fsOptions fsMgrFlags rest _ htokens =>
    obtain rfl := Option.some.inj hread
    rw [htokens] at hopens hcolumn
    refine ⟨?_, rfl, rfl, ?_⟩
    · intro w hw
      apply hcolumn
      exact List.mem_append_left rest hw
    · intro hcomment
      have hall := opens_of_append rest hcomment
      exact hc (Option.some.inj (hopens.symm.trans hall))
  · cases hread

theorem twrpCols_of_read {file : Option CString} {recs : List FstabCols}
    (h : doFsMgrReadFstab true file = some recs) : ∀ cols ∈ recs, TwrpCols cols := by
  intro cols hcols
  obtain ⟨line, hentry, hread, hcolumn⟩ := (line_of_read h).2 cols hcols
  obtain ⟨c, hopens, hc⟩ := isEntry_iff.mp hentry
  unfold readRec at hread
  split at hread
  · next mountPoint fsType blkDevice rest _ htokens =>
    obtain rfl := Option.some.inj hread
    rw [htokens] at hopens hcolumn
    refine ⟨?_, rfl, ⟨rfl, rfl⟩, rest, ?_, rfl, c, hopens, hc⟩
    · intro w hw
      apply hcolumn
      exact List.mem_append_left rest hw
    · intro w hw
      apply hcolumn
      exact List.mem_append_right [mountPoint, fsType, blkDevice] hw
  · contradiction
  · cases hread

/-! ### Translation -/

/-- Only the device and its number change. -/
theorem translateFstabRec_cases (junk : Junk × Junk) (info : List SysBlockUevent) (r : FstabRec) :
    ∃ blkDevice statbuf, (blkDevice = r.blkDevice ∨ Rooted blkDevice) ∧
      translateFstabRec junk info r = { r with blkDevice := blkDevice, statbuf := statbuf } := by
  have hname : (ueventRealpath junk.1 info r.blkDevice).getD r.blkDevice = r.blkDevice ∨
      Rooted ((ueventRealpath junk.1 info r.blkDevice).getD r.blkDevice) := by
    rw [ueventRealpath]
    cases getBlockinfoForPath junk.1 info r.blkDevice with
    | none => exact Or.inl rfl
    | some bi => exact Or.inr (rooted_blkName bi.partMajor bi.partMinor)
  obtain ⟨statbuf, heq⟩ := translateFstabRec_eq junk info r
  exact ⟨_, statbuf, hname, heq⟩

theorem Rooted.opens {s : CString} (h : Rooted s) (ws : List CString) :
    Multiboot.opens (s :: ws) = some '/' := by
  obtain ⟨t, rfl⟩ := h.root
  exact opens_slash t ws

theorem StandardCols.translate {r : FstabRec} (h : StandardCols r.toFstabCols) (junk : Junk × Junk)
    (info : List SysBlockUevent) : StandardCols (translateFstabRec junk info r).toFstabCols := by
  obtain ⟨blkDevice, statbuf, hname, htranslate⟩ := translateFstabRec_cases junk info r
  rw [htranslate]
  rcases hname with rfl | hroot
  · exact ⟨h.columns, h.options, h.flags, h.opens⟩
  · refine ⟨?_, h.options, h.flags, ?_⟩
    · intro w hw
      rcases List.mem_cons.mp hw with rfl | hw
      · exact hroot.column
      · exact h.columns w (List.mem_cons_of_mem _ hw)
    · show Multiboot.opens (blkDevice :: _) ≠ some '#'
      rw [hroot.opens]
      decide

theorem TwrpCols.translate {r : FstabRec} (h : TwrpCols r.toFstabCols) (junk : Junk × Junk)
    (info : List SysBlockUevent) : TwrpCols (translateFstabRec junk info r).toFstabCols := by
  obtain ⟨blkDevice, statbuf, hname, htranslate⟩ := translateFstabRec_cases junk info r
  rw [htranslate]
  rcases hname with rfl | hroot
  · exact ⟨h.columns, h.options, h.flags, h.unhandled⟩
  · obtain ⟨ws, hws, hjoin, c, hopens, hc⟩ := h.unhandled
    refine ⟨?_, h.options, h.flags, ws, hws, hjoin, ?_⟩
    · intro w hw
      simp only [List.mem_cons, List.not_mem_nil, or_false] at hw
      rcases hw with rfl | rfl | rfl
      · exact h.columns _ (by simp)
      · exact h.columns _ (by simp)
      · exact hroot.column
    · -- the first two columns decide, or the new name does
      have hsplit : ∀ device, opens ([r.mountPoint, r.fsType, device] ++ ws) =
          (opens [r.mountPoint, r.fsType]).or (opens (device :: ws)) := by
        intro device
        exact opens_append [r.mountPoint, r.fsType] (device :: ws)
      show ∃ c, opens ([r.mountPoint, r.fsType, blkDevice] ++ ws) = some c ∧ c ≠ '#'
      rw [hsplit] at hopens ⊢
      cases hfirst : opens [r.mountPoint, r.fsType] with
      | none =>
        rw [Option.none_or, hroot.opens]
        exact ⟨'/', rfl, by decide⟩
      | some d =>
        rw [hfirst, Option.some_or] at hopens
        rw [Option.some_or]
        exact ⟨d, rfl, by rw [Option.some.inj hopens]; exact hc⟩

/-! ### The records of `setup` -/

/-- The fstabs that `setup` works with have been read from files. -/
structure FstabsRead (env : SetupEnv) : Prop where
  multiboot : ∀ recs, env.multibootFstab = some recs →
    ∃ file, doFsMgrReadFstab false file = some recs
  target : ∀ fstabs, env.targetFstabs = some fstabs → ∀ f ∈ fstabs,
    ∃ file, doFsMgrReadFstab f.twrp file = some f.cols

/-- An fstab of the ROM, from the columns that were read. -/
theorem setup_target {params : BootParams} {env : SetupEnv} {data : ModuleData}
    (h : setup params env = some data) {n : ℕ} {fstab : Fstab}
    (hfstab : data.targetFstabs[n]? = some fstab) :
    ∃ fstabs f, env.targetFstabs = some fstabs ∧ f ∈ fstabs ∧ fstab.twrp = f.twrp ∧
      fstab.recs = f.cols.mapIdx fun i cols =>
        translateFstabRec (env.junk.target n i) env.blockInfo { toFstabCols := cols } := by
  obtain ⟨-, -, _, _, targets, -, -, htargets, rfl⟩ := setup_eq_some_iff.mp h
  simp only [prepareFstab, loadedData, List.getElem?_mapIdx, List.getElem?_map, Option.map_eq_some_iff] at hfstab
  obtain ⟨_, ⟨f, hf, rfl⟩, rfl⟩ := hfstab
  refine ⟨targets, f, htargets, List.mem_of_getElem? hf, rfl, ?_⟩
  apply List.ext_getElem?
  intro i
  simp only [translateFstabPaths, RomFstab.toFstab, List.getElem?_mapIdx, List.getElem?_map,
    Option.map_map]
  rfl

/-- The records of the ROM's fstabs have been read and translated. -/
theorem target_cols {params : BootParams} {env : SetupEnv} {data : ModuleData}
    (hsetup : setup params env = some data) (hread : FstabsRead env) {n : ℕ} {fstab : Fstab}
    (hfstab : data.targetFstabs[n]? = some fstab) :
    fstab.recs ≠ [] ∧ ∀ r ∈ fstab.recs, (fstab.twrp = false → StandardCols r.toFstabCols) ∧
      (fstab.twrp = true → TwrpCols r.toFstabCols) := by
  obtain ⟨fstabs, f, hfstabs, hf, htwrp, hrecs⟩ := setup_target hsetup hfstab
  obtain ⟨file, hfile⟩ := hread.target fstabs hfstabs f hf
  refine ⟨?_, ?_⟩
  · rw [hrecs, ne_eq, List.mapIdx_eq_nil_iff]
    exact (line_of_read hfile).1
  · intro r hr
    rw [hrecs] at hr
    obtain ⟨i, hi, rfl⟩ := List.mem_mapIdx.mp hr
    have hmem : f.cols[i] ∈ f.cols := List.getElem_mem hi
    rw [htwrp]
    refine ⟨?_, ?_⟩
    · intro hstandard
      rw [hstandard] at hfile
      exact StandardCols.translate (standardCols_of_read hfile _ hmem) _ _
    · intro htrue
      rw [htrue] at hfile
      exact TwrpCols.translate (twrpCols_of_read hfile _ hmem) _ _

/-! ### Replacements -/

theorem multibootPath_of_setup {params : BootParams} {env : SetupEnv} {data : ModuleData}
    (h : setup params env = some data) : data.multibootPath = params.source.map MmcParam.path := by
  obtain ⟨-, -, _, _, _, -, -, -, rfl⟩ := setup_eq_some_iff.mp h
  rfl

/-- Every replacement is read as one column. -/
theorem replacement_rooted {params : BootParams} {env : SetupEnv} {data : ModuleData}
    (hsetup : setup params env = some data) (hread : FstabsRead env) (hcmdline : FromCmdline params)
    {r : FstabRec} (hr : r ∈ data.multibootFstab.recs) : Rooted (showS r.replacementDevice) := by
  obtain ⟨i, hi⟩ := List.mem_iff_getElem?.mp hr
  have hplaced := placed_of_setup hsetup hi
  by_cases hbind : r.fsType ∈ bindTypes
  · obtain ⟨recs, cols, hrecs, hcols, hr⟩ := setup_recs_of_cols hsetup hi
    obtain ⟨file, hfile⟩ := hread.multiboot recs hrecs
    have hstandard := standardCols_of_read hfile cols (List.mem_of_getElem? hcols)
    have hmount : r.mountPoint = cols.mountPoint := by
      obtain ⟨_, _, -, htranslate⟩ := translateFstabRec_cases (env.junk.multiboot i) env.blockInfo
        (replaceRec data.multibootPath (recLoop i) { toFstabCols := cols })
      rw [hr, htranslate, replaceRec]
      split_ifs <;> rfl
    have hpath : Unbroken (showS data.multibootPath) := by
      rw [multibootPath_of_setup hsetup]
      cases hp : params.source with
      | none => decide
      | some p => exact hcmdline.unbroken hp
    have hsource : Unbroken PATH_MOUNTPOINT_SOURCE := by decide
    have hdir : Rooted (dirText data.multibootPath r) := by
      refine ⟨(hsource.append hpath).append ?_, _, rfl⟩
      rw [hmount]
      exact (hstandard.columns cols.mountPoint (by simp [FstabCols.columns])).2
    rw [(hplaced.bind hbind).2.1]
    exact hdir.snprintf
  · have hloop : Unbroken (PATH_MOUNTPOINT_DEV ++ "/block/loop".toList) := by decide
    rw [(hplaced.image hbind).2]
    have hroot : Rooted (loopName (255 - i)) := ⟨hloop.append (unbroken_showD _), _, rfl⟩
    exact hroot.snprintf

end Multiboot
