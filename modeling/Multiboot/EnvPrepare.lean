import Multiboot.Setup
import Multiboot.Lib.Paths

/-!
# `ep_fstab_init`: directories, images and loop devices

The stage is a function of the tree of files it finds and of how its calls end.  Its log says which
parameter of the command line it uses and what it makes and attaches; an attached file is logged with
what stands there at that moment.
-/

namespace Multiboot

open Lib

def PATH_MOUNTPOINT_STUBFS : CString := "/multiboot/stubfs".toList

def block_size : ℕ := 512

/-- The fields of `module_data` that come from the kernel command line. -/
inductive Param
  | multibootPath | multibootBlkDevice | grubPath | grubBlkDevice | grubBlockinfo | hwName
  deriving DecidableEq, Repr

/-- A file: a directory, a file of zeros, or bytes copied from a partition. -/
inductive Node
  | dir
  | zeros (size : ℕ)
  | image (size : ℕ) (source : CString)
  deriving DecidableEq, Repr

abbrev Tree := Place → Option Node

inductive InitAct
  | use (p : Param)
  | mkpath (dir : CString)
  | createRawImage (source : Option CString) (target : CString)
  | setLoop (device : Option CString) (file : CString) (found : Option Node)
  | makeExt4fs (device : Option CString)
  deriving DecidableEq, Repr

/-- How `busybox dd` ends. -/
inductive DdEnd
  /-- `fork` or `execve` fails, and the child has exited with 0. -/
  | notRun
  /-- It cannot open its input or its output. -/
  | unopened
  /-- It fails or is killed after so many bytes. -/
  | stopped (written : ℕ)
  /-- The power is lost; `none` if there is no output yet. -/
  | powerLost (written : Option ℕ)
  | finished
  deriving DecidableEq, Repr

/-- The calls of one `createRawImage`; `sizeRead` is the outcome of `BLKGETSIZE`. -/
structure CopyCalls where
  sizeRead : Bool
  dd : DdEnd
  deriving DecidableEq, Repr

/-- The calls for one record; `mkpath = some n` is a failure behind the first `n` components. -/
structure RecordCalls where
  mkpath : Option ℕ
  copy : CopyCalls
  deriving DecidableEq, Repr

/-- How the stage, or a part of it, ends. -/
inductive InitEnd
  | done | failed | powerLost
  deriving DecidableEq, Repr

/-! ### Directories and images -/

/-- `mkpath`, as far as the first `n` components. -/
def mkdirs (dir : CString) (n : ℕ) (t : Tree) : Tree := fun q =>
  if t q = none ∧ q ≠ [] ∧ q <+: (place dir).take n then some .dir else t q

/-- `dd of=<target>`: the argument is put together in a buffer of `PATH_MAX` bytes. -/
def ddFile (key : CString) (name : CString) : CString :=
  (snprintf PATH_MAX (key ++ name)).drop key.length

theorem snprintf_of_lt {text : CString} (h : text.length < PATH_MAX) :
    snprintf PATH_MAX text = text := by
  have hle : text.length ≤ PATH_MAX - 1 := by omega
  exact List.take_of_length_le hle

theorem ddFile_of_lt {key name : CString} (h : (key ++ name).length < PATH_MAX) :
    ddFile key name = name := by
  rw [ddFile, snprintf_of_lt h, List.drop_left]

/-- `get_blknum`, with `blocks` the answers of `BLKGETSIZE`. -/
def getBlknum (blocks : CString → ℕ) (sizeRead : Bool) (path : CString) : ℕ :=
  if sizeRead then blocks path else 0

/-- `createRawImage`: whether it returns 0 (`none` if the power is lost), and the tree after it. -/
def createRawImage (blocks : CString → ℕ) (calls : CopyCalls) (source : Option CString)
    (target : CString) (count : ℕ) (t : Tree) : Option Bool × Tree :=
  let numblocks :=
    match source with
    | some path => getBlknum blocks calls.sizeRead path
    | none => count
  let written (n : ℕ) : Tree :=
    let size := min n (block_size * numblocks)
    Function.update t (place (ddFile "of=".toList target))
      (match source with
      | some path => some (.image size (ddFile "if=".toList path))
      | none => some (.zeros size))
  match calls.dd with
  | .notRun => (some true, t)
  | .unopened => (some false, t)
  | .stopped n => (some false, written n)
  | .powerLost none => (none, t)
  | .powerLost (some n) => (none, written n)
  | .finished => (some true, written (block_size * numblocks))

/-! ### Records -/

/-- The directory of a record before it is cut to the buffer. -/
def dirText (multibootPath : Option CString) (rec : FstabRec) : CString :=
  PATH_MOUNTPOINT_SOURCE ++ showS multibootPath ++ rec.mountPoint

def imageText (multibootPath : Option CString) (rec : FstabRec) : CString :=
  PATH_MOUNTPOINT_SOURCE ++ showS multibootPath ++ rec.mountPoint ++ ".img".toList

def stubText (rec : FstabRec) : CString := PATH_MOUNTPOINT_STUBFS ++ rec.mountPoint ++ ".img".toList

/-- The partition an image is copied from. -/
def partSource (rec : FstabRec) : CString :=
  snprintf PATH_MAX ("/multiboot".toList ++ rec.blkDevice)

/-- Make the file `buf` if there is none. -/
def ensureImage (blocks : CString → ℕ) (calls : CopyCalls) (source : Option CString) (buf : CString)
    (count : ℕ) (t : Tree) : InitEnd × Tree × List InitAct :=
  if t (place buf) = none then
    match createRawImage blocks calls source buf count t with
    | (some true, t) => (.done, t, [.createRawImage source buf])
    | (some false, t) => (.failed, t, [.createRawImage source buf])
    | (none, t) => (.powerLost, t, [.createRawImage source buf])
  else (.done, t, [])

/-- The loop of `ep_fstab_init` for one multiboot record. -/
def epRecord (blocks : CString → ℕ) (multibootPath : Option CString) (rec : FstabRec)
    (calls : RecordCalls) (t : Tree) : InitEnd × Tree × List InitAct :=
  if rec.replacementBind then
    -- create directory
    let dir := showS rec.replacementDevice
    match calls.mkpath with
    | some n => (.failed, mkdirs dir n t, [.mkpath dir])
    | none =>
      let t := mkdirs dir (place dir).length t
      -- create stub filesystem image
      let buf := snprintf PATH_MAX (stubText rec)
      match ensureImage blocks calls.copy none buf (2048 * 5) t with
      | (.done, t, acts) =>
        (.done, t, .mkpath dir :: acts ++
          [.setLoop rec.stubDevice buf (t (place buf)), .makeExt4fs rec.stubDevice])
      | (rc, t, acts) => (rc, t, .mkpath dir :: acts)
  else
    -- create filesystem image
    let buf := snprintf PATH_MAX (imageText multibootPath rec)
    match ensureImage blocks calls.copy (some (partSource rec)) buf 0 t with
    | (.done, t, acts) =>
      (.done, t, .use .multibootPath :: acts ++
        [.setLoop rec.replacementDevice buf (t (place buf))])
    | (rc, t, acts) => (rc, t, .use .multibootPath :: acts)

/-- The loop of `ep_fstab_init`, with what is done for each record.  A boot that ends before a record
has no calls for it. -/
def epRecords (blocks : CString → ℕ) (multibootPath : Option CString) :
    List FstabRec → List RecordCalls → Tree → InitEnd × Tree × List (FstabRec × List InitAct)
  | [], _, t => (.done, t, [])
  | rec :: recs, calls, t =>
    if fsMgrIsMultiboot rec then
      match calls with
      | [] => (.powerLost, t, [])
      | c :: calls =>
        match epRecord blocks multibootPath rec c t with
        | (.done, t, acts) =>
          let rest := epRecords blocks multibootPath recs calls t
          (rest.1, rest.2.1, (rec, acts) :: rest.2.2)
        | (rc, t, acts) => (rc, t, [(rec, acts)])
    else epRecords blocks multibootPath recs calls t

/-- The calls of `ep_fstab_init`; `mainDir` is the outcome of the first `mkpath`. -/
structure InitCalls where
  mainDir : Option ℕ
  records : List RecordCalls
  deriving DecidableEq, Repr

structure InitResult where
  rc : InitEnd
  tree : Tree
  /-- What is done before the loop. -/
  main : List InitAct
  records : List (FstabRec × List InitAct)

def epFstabInit (blocks : CString → ℕ) (data : ModuleData) (calls : InitCalls) (t : Tree) :
    InitResult :=
  -- create main mb directory
  let buf := snprintf PATH_MAX (PATH_MOUNTPOINT_SOURCE ++ showS data.multibootPath)
  let main := [.use .multibootPath, .mkpath buf]
  match calls.mainDir with
  | some n => ⟨.failed, mkdirs buf n t, main, []⟩
  | none =>
    -- setup filesystem
    let rest := epRecords blocks data.multibootPath data.multibootFstab.recs calls.records
      (mkdirs buf (place buf).length t)
    ⟨rest.1, rest.2.1, main, rest.2.2⟩

/-! ### What is done for a record -/

theorem ensureImage_acts {blocks : CString → ℕ} {calls : CopyCalls} {source : Option CString}
    {buf : CString} {count : ℕ} {t : Tree} {act : InitAct}
    (h : act ∈ (ensureImage blocks calls source buf count t).2.2) :
    act = .createRawImage source buf := by
  unfold ensureImage at h
  split_ifs at h
  · split at h <;> exact List.mem_singleton.mp h
  · cases h

/-- What is done for a record with a directory. -/
theorem epRecord_bind_acts {blocks : CString → ℕ} {path : Option CString} {r : FstabRec}
    {calls : RecordCalls} {t : Tree} (hb : r.replacementBind = true) {act : InitAct}
    (h : act ∈ (epRecord blocks path r calls t).2.2) :
    act = .mkpath (showS r.replacementDevice) ∨
      act = .createRawImage none (snprintf PATH_MAX (stubText r)) ∨
      (∃ found, act = .setLoop r.stubDevice (snprintf PATH_MAX (stubText r)) found) ∨
      act = .makeExt4fs r.stubDevice := by
  unfold epRecord at h
  rw [if_pos hb] at h
  cases hm : calls.mkpath with
  | some n =>
    simp only [hm] at h
    exact Or.inl (List.mem_singleton.mp h)
  | none =>
    simp only [hm] at h
    generalize htree : mkdirs (showS r.replacementDevice) _ t = t1 at h
    rcases he : ensureImage blocks calls.copy none (snprintf PATH_MAX (stubText r)) (2048 * 5) t1
      with ⟨rc, t2, acts⟩
    have hacts : ∀ a ∈ acts, a = .createRawImage none (snprintf PATH_MAX (stubText r)) := by
      intro a ha
      exact ensureImage_acts (by rw [he]; exact ha)
    rw [he] at h
    cases rc with
    | done =>
      simp only [List.cons_append, List.mem_cons, List.mem_append, List.not_mem_nil,
        or_false] at h
      rcases h with h | h | h | h
      · exact Or.inl h
      · exact Or.inr (Or.inl (hacts act h))
      · exact Or.inr (Or.inr (Or.inl ⟨_, h⟩))
      · exact Or.inr (Or.inr (Or.inr h))
    | failed | powerLost =>
      rcases List.mem_cons.mp h with h | h
      · exact Or.inl h
      · exact Or.inr (Or.inl (hacts act h))

/-- What is done for another record. -/
theorem epRecord_image_acts {blocks : CString → ℕ} {path : Option CString} {r : FstabRec}
    {calls : RecordCalls} {t : Tree} (hb : r.replacementBind = false) {act : InitAct}
    (h : act ∈ (epRecord blocks path r calls t).2.2) :
    act = .use .multibootPath ∨
      act = .createRawImage (some (partSource r)) (snprintf PATH_MAX (imageText path r)) ∨
      ∃ found, act = .setLoop r.replacementDevice (snprintf PATH_MAX (imageText path r)) found := by
  unfold epRecord at h
  rw [if_neg (by simp [hb])] at h
  rcases he : ensureImage blocks calls.copy (some (partSource r))
    (snprintf PATH_MAX (imageText path r)) 0 t with ⟨rc, t2, acts⟩
  have hacts : ∀ a ∈ acts,
      a = .createRawImage (some (partSource r)) (snprintf PATH_MAX (imageText path r)) := by
    intro a ha
    exact ensureImage_acts (by rw [he]; exact ha)
  simp only [he] at h
  cases rc with
  | done =>
    simp only [List.cons_append, List.mem_cons, List.mem_append, List.not_mem_nil, or_false] at h
    rcases h with h | h | h
    · exact Or.inl h
    · exact Or.inr (Or.inl (hacts act h))
    · exact Or.inr (Or.inr ⟨_, h⟩)
  | failed | powerLost =>
    rcases List.mem_cons.mp h with h | h
    · exact Or.inl h
    · exact Or.inr (Or.inl (hacts act h))

/-- The log of the loop has what is done for a record. -/
theorem epRecords_acts {blocks : CString → ℕ} {path : Option CString} :
    ∀ {recs : List FstabRec} {calls : List RecordCalls} {t : Tree} {e : FstabRec × List InitAct},
      e ∈ (epRecords blocks path recs calls t).2.2 →
        ∃ c t', e.2 = (epRecord blocks path e.1 c t').2.2
  | [], calls, t, e, h => by cases h
  | rec :: recs, calls, t, e, h => by
    unfold epRecords at h
    split_ifs at h with hflag
    · cases calls with
      | nil => cases h
      | cons c calls =>
        rcases he : epRecord blocks path rec c t with ⟨rc, t', acts⟩
        simp only [he] at h
        have hacts : acts = (epRecord blocks path rec c t).2.2 := by rw [he]
        cases rc with
        | done =>
          rcases List.mem_cons.mp h with rfl | h
          · exact ⟨c, t, hacts⟩
          · exact epRecords_acts h
        | failed | powerLost =>
          obtain rfl := List.mem_singleton.mp h
          exact ⟨c, t, hacts⟩
    · exact epRecords_acts h

end Multiboot
