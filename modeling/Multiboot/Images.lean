import Multiboot.System
import Multiboot.EnvPrepare

/-!
# Images over many boots

An image is made once and then found again.  `History` is what has survived of the files, and what
`ep_fstab_init` has done for each record, over a run of boots.  `images_whole` says when every image
that is attached has the size of its partition: a copy that is begun has to end with the whole
partition, or with nothing.
-/

namespace Multiboot

open Lib

/-! ### Boots -/

structure Boot where
  data : ModuleData
  calls : InitCalls

structure History where
  tree : Tree
  log : List (FstabRec × List InitAct)

/-- The files a boot finds: those of the source partition, which is mounted before. -/
def reboot (t : Tree) : Tree := fun q =>
  if place PATH_MOUNTPOINT_SOURCE <+: q then t q else none

def bootStep (blocks : CString → ℕ) (h : History) (b : Boot) : Option History :=
  let r := epFstabInit blocks b.data b.calls (reboot h.tree)
  some ⟨r.tree, h.log ++ r.records⟩

/-- What stood at the path of an image when it was attached. -/
def attachedBy (rec : FstabRec) (acts : List InitAct) : List (Option Node) :=
  if rec.replacementBind then []
  else acts.filterMap fun
    | .setLoop _ _ found => some found
    | _ => none

def History.attached (h : History) : List (Option Node) :=
  h.log.flatMap fun e => attachedBy e.1 e.2

/-- The whole partition. -/
def Whole (blocks : CString → ℕ) (found : Option Node) : Prop :=
  ∃ size source, found = some (.image size source) ∧ size = block_size * blocks source

/-- Every image in the tree is whole. -/
def TreeWhole (blocks : CString → ℕ) (t : Tree) : Prop :=
  ∀ q size source, t q = some (.image size source) → size = block_size * blocks source

/-! ### The condition -/

/-- A copy of the partition ends with all of it, or with no file and an error. -/
def EndsWhole (blocks : CString → ℕ) (calls : CopyCalls) (source : CString) : Prop :=
  let wanted := block_size * blocks source
  let count := block_size * getBlknum blocks calls.sizeRead source
  match calls.dd with
  | .notRun => False
  | .unopened | .powerLost none => True
  | .stopped n | .powerLost (some n) => min n count = wanted
  | .finished => count = wanted

/-- The names of a record fit into the arguments of `dd`, and what stands at the path of its image is
an image, or the copy that is begun ends whole. -/
def MakesWhole (blocks : CString → ℕ) (multibootPath : Option CString) (rec : FstabRec)
    (calls : RecordCalls) (t : Tree) : Prop :=
  if rec.replacementBind then ("of=".toList ++ stubText rec).length < PATH_MAX
  else
    ("of=".toList ++ imageText multibootPath rec).length < PATH_MAX ∧
    ("if=".toList ++ ("/multiboot".toList ++ rec.blkDevice)).length < PATH_MAX ∧
    match t (place (imageText multibootPath rec)) with
    | none => EndsWhole blocks calls.copy (partSource rec)
    | some (.image _ _) => True
    | some _ => False

/-- The condition for the records of a boot, in the trees they find. -/
def RecordsMakeWhole (blocks : CString → ℕ) (multibootPath : Option CString) :
    List FstabRec → List RecordCalls → Tree → Prop
  | [], _, _ => True
  | rec :: recs, calls, t =>
    if fsMgrIsMultiboot rec then
      match calls with
      | [] => True
      | c :: calls => MakesWhole blocks multibootPath rec c t ∧
        ((epRecord blocks multibootPath rec c t).1 = .done →
          RecordsMakeWhole blocks multibootPath recs calls
            (epRecord blocks multibootPath rec c t).2.1)
    else RecordsMakeWhole blocks multibootPath recs calls t

/-- The condition for a boot. -/
def bootWhole (blocks : CString → ℕ) (h : History) (b : Boot) : Prop :=
  let buf := snprintf PATH_MAX (PATH_MOUNTPOINT_SOURCE ++ showS b.data.multibootPath)
  RecordsMakeWhole blocks b.data.multibootPath b.data.multibootFstab.recs b.calls.records
    (mkdirs buf (place buf).length (reboot h.tree))

/-! ### Growing trees -/

/-- The tree has only grown, by whole images and other files. -/
structure Grown (blocks : CString → ℕ) (t t' : Tree) : Prop where
  kept : ∀ q node, t q = some node → t' q = some node
  whole : ∀ q size source, t' q = some (.image size source) →
    t q = some (.image size source) ∨ size = block_size * blocks source

section
variable {blocks : CString → ℕ}

theorem Grown.refl (t : Tree) : Grown blocks t t :=
  ⟨fun _ _ h => h, fun _ _ _ h => Or.inl h⟩

theorem Grown.trans {t t' t'' : Tree} (h : Grown blocks t t') (h' : Grown blocks t' t'') :
    Grown blocks t t'' := by
  refine ⟨fun q node hq => h'.kept q node (h.kept q node hq), fun q size source hq => ?_⟩
  rcases h'.whole q size source hq with hq' | hsize
  · exact h.whole q size source hq'
  · exact Or.inr hsize

theorem Grown.treeWhole {t t' : Tree} (h : Grown blocks t t') (ht : TreeWhole blocks t) :
    TreeWhole blocks t' := by
  intro q size source hq
  rcases h.whole q size source hq with hq' | hsize
  · exact ht q size source hq'
  · exact hsize

theorem grown_mkdirs (dir : CString) (n : ℕ) (t : Tree) : Grown blocks t (mkdirs dir n t) := by
  refine ⟨fun q node hq => ?_, fun q size source hq => Or.inl ?_⟩
  · have hne : ¬ (t q = none ∧ q ≠ [] ∧ q <+: (place dir).take n) := by
      rintro ⟨hnone, -⟩
      rw [hnone] at hq
      cases hq
    rw [mkdirs, if_neg hne]
    exact hq
  · unfold mkdirs at hq
    split_ifs at hq
    · cases hq
    · exact hq

/-- A file is made where there was none. -/
theorem grown_update {t : Tree} {q : Place} (hq : t q = none) {node : Node}
    (hnode : ∀ size source, node = .image size source → size = block_size * blocks source) :
    Grown blocks t (Function.update t q (some node)) := by
  refine ⟨fun q' node' hq' => ?_, fun q' size source hq' => ?_⟩
  · have hne : q' ≠ q := by
      rintro rfl
      rw [hq] at hq'
      cases hq'
    rwa [Function.update_of_ne hne]
  · by_cases hqq : q' = q
    · subst hqq
      rw [Function.update_self] at hq'
      exact Or.inr (hnode size source (Option.some.inj hq'))
    · rw [Function.update_of_ne hqq] at hq'
      exact Or.inl hq'

/-! ### One record -/

/-- A file of zeros, or nothing, is made for a directory. -/
theorem ensureImage_zeros (calls : CopyCalls) {buf : CString} (count : ℕ) {t : Tree}
    (hof : ("of=".toList ++ buf).length < PATH_MAX) :
    Grown blocks t (ensureImage blocks calls none buf count t).2.1 := by
  unfold ensureImage
  split_ifs with habsent
  · have hgrown : Grown blocks t (createRawImage blocks calls none buf count t).2 := by
      have hnew : ∀ size, Grown blocks t (Function.update t (place buf) (some (.zeros size))) :=
        fun size => grown_update habsent nofun
      unfold createRawImage
      rw [ddFile_of_lt hof]
      cases calls.dd with
      | notRun => exact .refl t
      | unopened => exact .refl t
      | stopped n => exact hnew _
      | powerLost n =>
        cases n with
        | none => exact .refl t
        | some n => exact hnew _
      | finished => exact hnew _
    split <;> rename_i heq <;> rw [heq] at hgrown <;> exact hgrown
  · exact .refl t

/-- The image of a partition is made whole, or there is an error and no image. -/
theorem createRawImage_whole {calls : CopyCalls} {source buf : CString} (count : ℕ) (t : Tree)
    (hof : ("of=".toList ++ buf).length < PATH_MAX)
    (hif : ("if=".toList ++ source).length < PATH_MAX) (h : EndsWhole blocks calls source) :
    (createRawImage blocks calls (some source) buf count t).2 =
        Function.update t (place buf) (some (.image (block_size * blocks source) source)) ∨
      (createRawImage blocks calls (some source) buf count t).2 = t ∧
        (createRawImage blocks calls (some source) buf count t).1 ≠ some true := by
  unfold EndsWhole at h
  simp only [createRawImage, ddFile_of_lt hof, ddFile_of_lt hif]
  cases hdd : calls.dd with
  | notRun =>
    rw [hdd] at h
    exact h.elim
  | unopened => exact Or.inr ⟨rfl, by simp⟩
  | stopped n =>
    simp only [hdd] at h
    exact Or.inl (by rw [← h])
  | powerLost n =>
    cases n with
    | none => exact Or.inr ⟨rfl, by simp⟩
    | some n =>
      simp only [hdd] at h
      exact Or.inl (by rw [← h])
  | finished =>
    simp only [hdd] at h
    exact Or.inl (by simp only [← h, Nat.min_self])

theorem ensureImage_whole {calls : CopyCalls} {source buf : CString} (count : ℕ) {t : Tree}
    (hof : ("of=".toList ++ buf).length < PATH_MAX)
    (hif : ("if=".toList ++ source).length < PATH_MAX)
    (h : match t (place buf) with
      | none => EndsWhole blocks calls source
      | some (.image _ _) => True
      | some _ => False) :
    Grown blocks t (ensureImage blocks calls (some source) buf count t).2.1 ∧
      ((ensureImage blocks calls (some source) buf count t).1 = .done → TreeWhole blocks t →
        Whole blocks ((ensureImage blocks calls (some source) buf count t).2.1 (place buf))) := by
  unfold ensureImage
  split_ifs with habsent
  · rw [habsent] at h
    have hmade := createRawImage_whole count t hof hif h
    have hgrown : Grown blocks t (createRawImage blocks calls (some source) buf count t).2 := by
      rcases hmade with hm | ⟨hm, -⟩
      · rw [hm]
        refine grown_update habsent fun size s heq => ?_
        cases heq
        rfl
      · rw [hm]
        exact .refl t
    have hdone : (createRawImage blocks calls (some source) buf count t).1 = some true →
        Whole blocks ((createRawImage blocks calls (some source) buf count t).2 (place buf)) := by
      intro hok
      rcases hmade with hm | ⟨-, hne⟩
      · exact ⟨_, source, by rw [hm, Function.update_self], rfl⟩
      · exact absurd hok hne
    rcases hr : createRawImage blocks calls (some source) buf count t with ⟨_ | ok, t'⟩
    · rw [hr] at hgrown
      exact ⟨hgrown, nofun⟩
    · rw [hr] at hgrown hdone
      cases ok with
      | true => exact ⟨hgrown, fun _ _ => hdone rfl⟩
      | false => exact ⟨hgrown, nofun⟩
  · refine ⟨.refl t, fun _ ht => ?_⟩
    rcases hn : t (place buf) with _ | _ | _ | ⟨size, s⟩
    · exact absurd hn habsent
    · rw [hn] at h
      exact h.elim
    · rw [hn] at h
      exact h.elim
    · exact ⟨size, s, hn, ht _ size s hn⟩

/-- **One record**: the tree grows, and an image that is attached is whole. -/
theorem epRecord_whole {path : Option CString} {r : FstabRec} {calls : RecordCalls} {t : Tree}
    (h : MakesWhole blocks path r calls t) :
    Grown blocks t (epRecord blocks path r calls t).2.1 ∧
      (TreeWhole blocks t → ∀ found ∈ attachedBy r (epRecord blocks path r calls t).2.2,
        Whole blocks found) := by
  unfold MakesWhole at h
  cases hb : r.replacementBind with
  | true =>
    refine ⟨?_, fun _ found hf => by simp [attachedBy, hb] at hf⟩
    rw [hb, if_pos rfl] at h
    have hs : snprintf PATH_MAX (stubText r) = stubText r := by
      rw [List.length_append] at h
      exact snprintf_of_lt (by omega)
    unfold epRecord
    rw [if_pos hb]
    cases calls.mkpath with
    | some n => exact grown_mkdirs _ n t
    | none =>
      simp only [hs]
      have hdirs : Grown blocks t (mkdirs (showS r.replacementDevice)
          (place (showS r.replacementDevice)).length t) := grown_mkdirs _ _ t
      have hgrown := hdirs.trans (ensureImage_zeros calls.copy (2048 * 5) h)
      split <;> rename_i heq <;> rw [heq] at hgrown <;> exact hgrown
  | false =>
    rw [hb, if_neg (by simp)] at h
    obtain ⟨hof, hif, hnode⟩ := h
    have hi : snprintf PATH_MAX (imageText path r) = imageText path r := by
      rw [List.length_append] at hof
      exact snprintf_of_lt (by omega)
    have hsource : ("if=".toList ++ partSource r).length < PATH_MAX := by
      rw [List.length_append] at hif
      rwa [partSource, snprintf_of_lt (by omega), List.length_append]
    obtain ⟨hgrown, hattach⟩ := ensureImage_whole 0 hof hsource hnode
    unfold epRecord
    rw [if_neg (by simp [hb])]
    simp only [hi]
    rcases he : ensureImage blocks calls.copy (some (partSource r)) (imageText path r) 0 t
      with ⟨rc, t', acts⟩
    have hnone : acts.filterMap (fun
        | .setLoop _ _ found => some found
        | _ => none) = [] := by
      refine List.filterMap_eq_nil_iff.mpr fun a ha => ?_
      obtain rfl : a = .createRawImage (some (partSource r)) (imageText path r) :=
        ensureImage_acts (by rw [he]; exact ha)
      rfl
    rw [he] at hgrown hattach
    cases rc with
    | done =>
      refine ⟨hgrown, fun ht found hf => ?_⟩
      have hfound : found = t' (place (imageText path r)) := by
        simpa [attachedBy, hb, hnone] using hf
      rw [hfound]
      exact hattach rfl ht
    | failed | powerLost =>
      refine ⟨hgrown, fun ht found hf => ?_⟩
      simp [attachedBy, hb, hnone] at hf

/-! ### Boots -/

theorem epRecords_whole {path : Option CString} :
    ∀ {recs : List FstabRec} {calls : List RecordCalls} {t : Tree},
      RecordsMakeWhole blocks path recs calls t →
      Grown blocks t (epRecords blocks path recs calls t).2.1 ∧
        (TreeWhole blocks t →
          ∀ e ∈ (epRecords blocks path recs calls t).2.2, ∀ found ∈ attachedBy e.1 e.2,
            Whole blocks found)
  | [], calls, t, _ => ⟨.refl t, fun _ e he => by cases he⟩
  | rec :: recs, calls, t, h => by
    unfold RecordsMakeWhole at h
    unfold epRecords
    split_ifs at h ⊢ with hflag
    · cases calls with
      | nil => exact ⟨.refl t, fun _ e he => by cases he⟩
      | cons c calls =>
        obtain ⟨hrec, hrest⟩ := h
        obtain ⟨hgrown, hattach⟩ := epRecord_whole hrec
        rcases he : epRecord blocks path rec c t with ⟨rc, t', acts⟩
        rw [he] at hrest hgrown hattach
        simp only [he]
        have hlast : TreeWhole blocks t → ∀ e ∈ [(rec, acts)], ∀ found ∈ attachedBy e.1 e.2,
            Whole blocks found := by
          intro ht e hmem found hf
          obtain rfl := List.mem_singleton.mp hmem
          exact hattach ht found hf
        cases rc with
        | done =>
          obtain ⟨hgrown', hattach'⟩ := epRecords_whole (hrest rfl)
          refine ⟨hgrown.trans hgrown', fun ht e hmem found hf => ?_⟩
          rcases List.mem_cons.mp hmem with rfl | hmem
          · exact hattach ht found hf
          · exact hattach' (hgrown.treeWhole ht) e hmem found hf
        | failed | powerLost => exact ⟨hgrown, hlast⟩
    · exact epRecords_whole h

/-- What a boot keeps: images of the source partition, and that all are whole. -/
structure Kept (blocks : CString → ℕ) (h h' : History) : Prop where
  images : ∀ q size source, place PATH_MOUNTPOINT_SOURCE <+: q →
    h.tree q = some (.image size source) → h'.tree q = some (.image size source)
  whole : TreeWhole blocks h.tree → TreeWhole blocks h'.tree
  attached : TreeWhole blocks h.tree → (∀ found ∈ h.attached, Whole blocks found) →
    ∀ found ∈ h'.attached, Whole blocks found

theorem Kept.trans {h h' h'' : History} (h1 : Kept blocks h h') (h2 : Kept blocks h' h'') :
    Kept blocks h h'' :=
  ⟨fun q size source hq hn => h2.images q size source hq (h1.images q size source hq hn),
    fun hw => h2.whole (h1.whole hw),
    fun hw ha => h2.attached (h1.whole hw) (h1.attached hw ha)⟩

theorem treeWhole_reboot {t : Tree} (h : TreeWhole blocks t) : TreeWhole blocks (reboot t) := by
  intro q size source hq
  unfold reboot at hq
  split_ifs at hq
  exact h q size source hq

/-- **One boot** keeps the images and attaches whole ones only. -/
theorem bootStep_kept {h h' : History} {b : Boot} (hb : bootWhole blocks h b)
    (hstep : bootStep blocks h b = some h') : Kept blocks h h' := by
  have hgrown : Grown blocks (reboot h.tree)
      (epFstabInit blocks b.data b.calls (reboot h.tree)).tree ∧
      (TreeWhole blocks h.tree →
        ∀ e ∈ (epFstabInit blocks b.data b.calls (reboot h.tree)).records,
          ∀ found ∈ attachedBy e.1 e.2, Whole blocks found) := by
    unfold epFstabInit
    cases b.calls.mainDir with
    | some n => exact ⟨grown_mkdirs _ n _, fun _ e he => by cases he⟩
    | none =>
      obtain ⟨hrest, hattach⟩ := epRecords_whole hb
      have hdirs := @grown_mkdirs blocks
        (snprintf PATH_MAX (PATH_MOUNTPOINT_SOURCE ++ showS b.data.multibootPath))
        (place (snprintf PATH_MAX (PATH_MOUNTPOINT_SOURCE ++ showS b.data.multibootPath))).length
        (reboot h.tree)
      exact ⟨hdirs.trans hrest, fun hw => hattach (hdirs.treeWhole (treeWhole_reboot hw))⟩
  obtain rfl := Option.some.inj hstep
  obtain ⟨hgrown, hattach⟩ := hgrown
  refine ⟨fun q size source hq hn => hgrown.kept q _ ?_,
    fun hw => hgrown.treeWhole (treeWhole_reboot hw), fun hw ha found hf => ?_⟩
  · rw [reboot, if_pos hq]
    exact hn
  · rw [History.attached, List.flatMap_append, List.mem_append] at hf
    rcases hf with hf | hf
    · exact ha found hf
    · obtain ⟨e, he, hfound⟩ := List.mem_flatMap.mp hf
      exact hattach hw e he found hfound

/-- **Images are whole in every run of boots** in which every copy that is begun ends with the whole
partition, or with no file and an error: what is attached as an image is one, of full size, and a
whole image of an earlier boot is there unchanged in every later one. -/
theorem images_whole (blocks : CString → ℕ) (start : Tree) (hstart : TreeWhole blocks start)
    (boots : List Boot) (h : History)
    (hrun : run (bootStep blocks) ⟨start, []⟩ boots = some h)
    (hwhole : Along (bootStep blocks) (bootWhole blocks) ⟨start, []⟩ boots) :
    (∀ found ∈ h.attached, Whole blocks found) ∧
      ∀ before after h0, boots = before ++ after →
        run (bootStep blocks) ⟨start, []⟩ before = some h0 →
        ∀ q size source, place PATH_MOUNTPOINT_SOURCE <+: q →
          h0.tree q = some (.image size source) → h.tree q = some (.image size source) := by
  have hrel : ∀ {as : List Boot} {s s' : History}, run (bootStep blocks) s as = some s' →
      Along (bootStep blocks) (bootWhole blocks) s as → Kept blocks s s' :=
    run_rel (R := Kept blocks) (fun _ => ⟨fun _ _ _ _ hn => hn, fun hw => hw, fun _ ha => ha⟩)
      (fun _ _ _ h1 h2 => h1.trans h2) fun s a s' hc hs => bootStep_kept hc hs
  refine ⟨(hrel hrun hwhole).attached hstart (fun found hf => by cases hf), ?_⟩
  rintro before after h0 rfl hbefore q size source hq hn
  obtain ⟨h1, hrun1, hrun2⟩ := run_append.mp hrun
  obtain rfl : h1 = h0 := Option.some.inj (hrun1.symm.trans hbefore)
  exact (hrel hrun2 (along_append hwhole hbefore).2).images q size source hq hn

end

/-! ### A boot partition -/

/-- One record, with an image of 100 blocks. -/
def bootEnv : SetupEnv :=
  { demoEnv with
    multibootFstab := some
      [⟨"/dev/block/mmcblk0p4".toList, "/boot".toList, "emmc".toList, none,
        some "multiboot".toList, none, MF_MULTIBOOT⟩]
    numEntries_lt := by decide }

def bootData : ModuleData := (setup demoParams bootEnv).get rfl

def BOOT_NODE : CString := "/multiboot/dev/block/mmcblk0p4".toList

/-- A boot whose copy, if one is begun, ends like this. -/
def bootWith (sizeRead : Bool) (dd : DdEnd) : Boot :=
  ⟨bootData, ⟨none, [⟨none, ⟨sizeRead, dd⟩⟩]⟩⟩

def blocks100 : CString → ℕ := fun _ => 100

/-- There are no files yet. -/
def noFiles : Tree := fun _ => none

theorem treeWhole_noFiles : TreeWhole blocks100 noFiles := fun _ _ _ h => by cases h

theorem images_whole_bootData :
    ∃ h, run (bootStep blocks100) ⟨noFiles, []⟩ [bootWith true .finished, bootWith true .finished] =
        some h ∧ h.attached.length = 2 ∧ ∀ found ∈ h.attached, Whole blocks100 found := by
  refine ⟨_, rfl, rfl, ?_⟩
  refine (images_whole blocks100 noFiles treeWhole_noFiles
    [bootWith true .finished, bootWith true .finished] _ rfl ?_).1
  refine ⟨⟨⟨by decide, by decide, rfl⟩, fun _ => trivial⟩, fun s hs => ⟨?_, fun _ _ => trivial⟩⟩
  obtain rfl := Option.some.inj hs
  exact ⟨⟨by decide, by decide, trivial⟩, fun _ => trivial⟩

/-- A copy that is stopped is attached in the next boot, and a copy that has not run or whose size
could not be read in the same one. -/
theorem half_image_attached :
    (run (bootStep blocks100) ⟨noFiles, []⟩
        [bootWith true (.stopped 512), bootWith true .finished]).map History.attached =
      some [some (.image 512 BOOT_NODE)] ∧
    (run (bootStep blocks100) ⟨noFiles, []⟩ [bootWith true .notRun]).map History.attached =
      some [none] ∧
    (run (bootStep blocks100) ⟨noFiles, []⟩ [bootWith false .finished]).map History.attached =
      some [some (.image 0 BOOT_NODE)] ∧
    ¬ ∀ blocks start boots h, TreeWhole blocks start →
      run (bootStep blocks) ⟨start, []⟩ boots = some h →
      ∀ found ∈ h.attached, Whole blocks found := by
  refine ⟨rfl, rfl, rfl, fun hall => ?_⟩
  obtain ⟨size, source, hfound, -⟩ := hall blocks100 noFiles [bootWith true .notRun] _
    treeWhole_noFiles rfl none (List.mem_singleton_self _)
  cases hfound

end Multiboot
