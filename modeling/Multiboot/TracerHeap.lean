import Multiboot.Lib.Heap
import Multiboot.System

/-!
# The hooks with their pointers

The same hooks on the tracer's heap: paths, descriptors and superblock buffers are blocks that are
allocated and freed where the source does it, and `mbc->tmp`, the items of `mbc->files` and
`child->custom` are pointers.  `get_fstype` returns a pointer into the probe it has just freed.

A computation fails where the C code has a `NULL` it cannot take, frees a block twice or writes to a
freed one.  `malloc` does not fail.
-/

namespace Multiboot

open Lib HeapM

/-! ### What the blocks hold -/

/-- `struct fd_info`. -/
structure FdInfoPtrs where
  filename : Option Ptr
  fsType : Option Ptr
  fsPdata : Option Ptr
  device : Option Ptr
  deriving DecidableEq, Repr

/-- `struct multiboot_child_data`; the items of `files` point to a `struct fd_info` each. -/
structure ChildPtrs where
  memory : Option Long
  tmp : Option Ptr
  files : List (ℤ × Ptr)
  handledByOpen : Bool
  deriving DecidableEq, Repr

inductive Obj
  | text (s : CString)
  | pdata (sb : SuperBlock)
  | fdInfo (fdi : FdInfoPtrs)
  | childData (mbc : ChildPtrs)
  /-- A `blkid_probe` that has found this type. -/
  | probe (type : CString)
  deriving DecidableEq, Repr

/-- The text a pointer leads to; a pointer into a probe leads to the type. -/
def loadText (b : Ptr) : HeapM Obj CString :=
  load b >>= fun
    | .text s | .probe s => pure s
    | _ => fail

/-- The text of a pointer that must not be `NULL`. -/
def textOf : Option Ptr → HeapM Obj CString
  | none => fail
  | some b => loadText b

def loadFdi (b : Ptr) : HeapM Obj FdInfoPtrs :=
  load b >>= fun
    | .fdInfo fdi => pure fdi
    | _ => fail

def loadMbc (b : Ptr) : HeapM Obj ChildPtrs :=
  load b >>= fun
    | .childData mbc => pure mbc
    | _ => fail

/-! ### Format detection -/

/-- `get_fstype`: the pointer leads into the probe, which is freed. -/
def getFstypePtr (io : DevCalls) (disks : Disks) (device : Option CString) :
    HeapM Obj (Option Ptr) :=
  match getFstype io disks device with
  | none => pure none
  | some type => do
    let pr ← alloc (.probe type)
    free pr
    pure (some pr)

/-- `fstype ? fstype : "ext4"`, read. -/
def fstypeText : Option Ptr → HeapM Obj CString
  | none => pure EXT4
  | some b => loadText b

/-- `ext2_pre`: the buffer is allocated unless `open` returns descriptor 0. -/
def ext2PrePtr (io : DevCalls) (disks : Disks) (b : Ptr) : HeapM Obj Unit := do
  let fdi ← loadFdi b
  let device ← textOf fdi.device
  match io.sbPre (disks device).sb with
  | none => pure ()
  | some sb => do
    let pdata ← alloc (.pdata sb)
    store b (.fdInfo { fdi with fsPdata := some pdata })

def fsPrePtr (io : DevCalls) (disks : Disks) (b : Ptr) : HeapM Obj Unit := do
  let fdi ← loadFdi b
  let type ← textOf fdi.fsType
  if type = EXT4 then ext2PrePtr io disks b else pure ()

/-- The rest of `make_fdinfo` for a record: the device and its type. -/
def describePtr (io : DevCalls) (disks : Disks) (filename fdi : Ptr) (r : FstabRec) :
    HeapM Obj Unit :=
  match r.stubDevice with
  | none => fail
  | some dev => do
    let device ← alloc (.text dev)
    -- get fstype
    let fstype ← getFstypePtr io disks (some dev)
    let text ← fstypeText fstype
    let fsType ← alloc (.text text)
    store fdi (.fdInfo ⟨some filename, some fsType, none, some device⟩)
    fsPrePtr io disks fdi

/-- `make_fdinfo`; the new descriptor keeps the pointer `filename`. -/
def makeFdinfoPtr (data : ModuleData) (fs : FsView) (io : DevCalls) (disks : Disks)
    (filename : Ptr) : HeapM Obj Ptr := do
  let fdi ← alloc (.fdInfo ⟨some filename, none, none, none⟩)
  -- check if we need to redirect this partition
  let name ← loadText filename
  let _ ← match getFstabRec data fs name with
    | none => fsPrePtr io disks fdi
    | some r => describePtr io disks filename fdi r
  pure fdi

/-- `ext2_was_format`. -/
def ext2WasFormatPtr (io : DevCalls) (disks : Disks) (fdi : FdInfoPtrs) : HeapM Obj Bool :=
  match fdi.fsPdata with
  | none => pure false
  | some b =>
    load b >>= fun
      | .pdata sb => do
        let device ← textOf fdi.device
        pure (ext2WasFormat io disks ⟨[], none, some sb, some device⟩)
      | _ => fail

/-- `fs_was_format`: each `strcmp` reads its texts. -/
def fsWasFormatPtr (io : DevCalls) (disks : Disks) (b : Ptr) : HeapM Obj Bool := do
  let fdi ← loadFdi b
  let device ← textOf fdi.device
  let fstype ← getFstypePtr io disks (some device)
  -- filesystem type has changed
  let type ← textOf fdi.fsType
  let text ← fstypeText fstype
  if type ≠ text then pure true
  else do
    let text ← fstypeText fstype
    if text = EXT4 then ext2WasFormatPtr io disks fdi else pure false

/-- `fs_cleanup`. -/
def fsCleanupPtr (b : Ptr) : HeapM Obj Unit := do
  let fdi ← loadFdi b
  let type ← textOf fdi.fsType
  if type = EXT4 then do
    freeOpt fdi.fsPdata
    store b (.fdInfo { fdi with fsPdata := none })
  else pure ()

/-- `free_fdinfo`: what the descriptor points to is freed, not the descriptor. -/
def freeFdinfoPtr (b : Ptr) : HeapM Obj Unit := do
  fsCleanupPtr b
  let fdi ← loadFdi b
  freeOpt fdi.filename
  freeOpt fdi.fsType
  freeOpt fdi.device
  store b (.fdInfo { fdi with filename := none, fsType := none, device := none })

/-- `free_fdinfo_list`. -/
def freeFdinfoListPtr : List (ℤ × Ptr) → HeapM Obj Unit
  | [] => pure ()
  | (_, b) :: files => do
    freeFdinfoPtr b
    freeFdinfoListPtr files

/-! ### The hooks -/

/-- What a hook works on.  The two fields of `mbc` that hold pointers stand beside `out`, whose own
`tmp` and `files` are not used. -/
structure PtrSt where
  out : HookSt
  tmp : Option Ptr
  files : List (ℤ × Ptr)

def PtrSt.withErrno (ps : PtrSt) (errno : Option Errno) : PtrSt :=
  { ps with out := { ps.out with errno := errno } }

def PtrSt.touch (ps : PtrSt) (t : Touch) : PtrSt := { ps with out := ps.out.touch t }

/-- `mbc->handled_by_open = 0`. -/
def PtrSt.unhandled (ps : PtrSt) : PtrSt :=
  { ps with out := { ps.out with mbc := { ps.out.mbc with handledByOpen := false } } }

/-- `get_patharg`: the path is in a block of its own.  A buffer for `realpath` that is not returned is
freed again. -/
def getPathargPtr (io : HookCalls) (calls : PathCalls) (addr : Long) (real : Bool)
    (errno : Option Errno) : HeapM Obj (Option Ptr × Option Errno) :=
  match getPatharg io calls addr real errno with
  | none => fail
  | some (none, errno) => pure (none, errno)
  | some (some path, errno) => do
    let b ← alloc (.text path)
    pure (some b, errno)

/-- `hook_open` for a path that has been read. -/
def hookOpenPath (data : ModuleData) (io : HookCalls) (path : Ptr) (ps : PtrSt) :
    HeapM Obj (Rc × PtrSt) := do
  let name ← loadText path
  let ps := ps.withErrno (io.fs.statErrno name ps.out.errno)
  match getFstabRec data io.fs name with
  | none => pure (.CONTINUE, ps)
  | some r =>
    -- losetup's can be formatted already
    if !r.replacementBind then pure (.CONTINUE, ps)
    else
      pure (.CONTINUE,
        { ps with
          out :=
            { ps.out.touch (.store name) with
              disks := checkFsNomount io r.stubDevice ps.out.disks
              mbc := { ps.out.mbc with handledByOpen := true }
              chosen := some r
              number := io.fs.number name }
          tmp := some path })

/-- The second half of `hook_open` and `hook_dup` for a stored path, where the call has failed. -/
def dropTmp (path : Ptr) (ps : PtrSt) : HeapM Obj (Rc × PtrSt) := do
  free path
  pure (.CONTINUE, { ps with tmp := none })

def hookOpenPtr (data : ModuleData) (io : HookCalls) (pre : Bool) (argpos : ℕ)
    (resolveSymlinks : Bool) (ps : PtrSt) : HeapM Obj (Rc × PtrSt) :=
  if pre then
    -- we don't need to handle readonly access
    if ps.out.args.nth (argpos + 1) &&& O_ACCMODE = O_RDONLY then pure (.CONTINUE, ps)
    else
      getPathargPtr io io.openPath (ps.out.args.nth argpos) resolveSymlinks ps.out.errno >>= fun
        | (none, errno) => pure (.ABORT, ps.withErrno errno)
        | (some path, errno) => hookOpenPath data io path (ps.withErrno errno)
  else if ps.out.mbc.handledByOpen then
    match ps.tmp with
    | none => pure (.CONTINUE, ps.unhandled)
    | some path => do
      let name ← loadText path
      let ps := (ps.touch (.load name)).unhandled
      let fd := ps.out.args.returnCode.toInt
      if 0 ≤ fd then do
        let fdi ← makeFdinfoPtr data io.fs io.make ps.out.disks path
        pure (.CONTINUE, { ps with tmp := none, files := llAdd ps.files fd fdi })
      else dropTmp path ps
  else pure (.CONTINUE, ps.unhandled)

/-- `redirect_file_access` for a path that has been read: the path is freed at the end. -/
def redirectPath (data : ModuleData) (io : HookCalls) (argpos : ℕ) (resolveSymlinks : Bool)
    (path : Ptr) (ps : PtrSt) : HeapM Obj (Rc × PtrSt) := do
  let name ← loadText path
  let ps := ps.withErrno (io.fs.statErrno name ps.out.errno)
  match getFstabRec data io.fs name with
  | none => do
    free path
    pure (.CONTINUE, ps)
  | some r =>
    -- ignore symlinks for calls which don't resolve them
    if !resolveSymlinks && isLink io.fs name then do
      free path
      pure (.CONTINUE, ps)
    else
      match if r.replacementBind then r.stubDevice else r.replacementDevice with
      | none => fail
      | some replacement => do
        let res := replacePath io replacement (fun addr a => a.setNth argpos addr) ps.out
        free path
        pure (res.1, { ps with out := res.2 })

def redirectPrePtr (data : ModuleData) (io : HookCalls) (argpos : ℕ) (resolveSymlinks : Bool)
    (ps : PtrSt) : HeapM Obj (Rc × PtrSt) :=
  getPathargPtr io io.path (ps.out.args.nth argpos) resolveSymlinks ps.out.errno >>= fun
    | (none, errno) => pure (.ABORT, ps.withErrno errno)
    | (some path, errno) => redirectPath data io argpos resolveSymlinks path (ps.withErrno errno)

def redirectFileAccessPtr (data : ModuleData) (io : HookCalls) (call : Syscall) (pre : Bool)
    (argpos : ℕ) (resolveSymlinks : Bool) (ps : PtrSt) : HeapM Obj (Rc × PtrSt) :=
  let opened :=
    if call = .open ∨ call = .openat then hookOpenPtr data io pre argpos resolveSymlinks ps
    else pure (.CONTINUE, ps)
  opened >>= fun
    | (.ABORT, ps) => pure (.ABORT, ps)
    | (.CONTINUE, ps) =>
      if pre then redirectPrePtr data io argpos resolveSymlinks ps
      else pure (.CONTINUE, { ps with out := freeMemory ps.out })

def hookFileaccessPtr (data : ModuleData) (io : HookCalls) (call : Syscall) (pre : Bool)
    (ps : PtrSt) : HeapM Obj (Rc × PtrSt) :=
  match infoOf call with
  | none => pure (.ABORT, ps)
  | some row =>
    redirectFileAccessPtr data io call pre row.argnum (resolveOf row call ps.out.args) ps

/-- The wipe of `hook_close` for a descriptor whose device was formatted. -/
def wipePtr (data : ModuleData) (io : HookCalls) (b : Ptr) (ps : PtrSt) : HeapM Obj PtrSt := do
  let fdi ← loadFdi b
  let name ← textOf fdi.filename
  let device ← textOf fdi.device
  match getFstabRec data io.fs name with
  | none => pure ps
  | some r => pure { ps with out := ps.out.formatPath (some device) (wipePath r) }

def hookClosePtr (data : ModuleData) (io : HookCalls) (pre : Bool) (ps : PtrSt) :
    HeapM Obj (Rc × PtrSt) :=
  if pre then
    let fd := ps.out.args.a0.toInt
    match llFind ps.files fd with
    | none => pure (.CONTINUE, ps)
    | some b => do
      let wasFormat ← fsWasFormatPtr io.close ps.out.disks b
      let ps ← if wasFormat then wipePtr data io b ps else pure ps
      freeFdinfoPtr b
      pure (.CONTINUE, { ps with files := llDel ps.files fd })
  else pure (.CONTINUE, ps)

def hookDupPtr (data : ModuleData) (io : HookCalls) (pre : Bool) (ps : PtrSt) :
    HeapM Obj (Rc × PtrSt) :=
  if pre then
    match llFind ps.files ps.out.args.a0.toInt with
    | none => pure (.CONTINUE, ps)
    | some b => do
      let fdi ← loadFdi b
      let name ← textOf fdi.filename
      let tmp ← alloc (.text name)
      pure (.CONTINUE, { ps.touch (.store name) with tmp := some tmp })
  else
    match ps.tmp with
    | none => pure (.CONTINUE, ps)
    | some path => do
      let name ← loadText path
      let ps := ps.touch (.load name)
      let fd := ps.out.args.returnCode.toInt
      if 0 ≤ fd then do
        -- the first descriptor is only tested
        let _ ← makeFdinfoPtr data io.fs io.make ps.out.disks path
        let fdi ← makeFdinfoPtr data io.fs io.make2 ps.out.disks path
        pure (.CONTINUE, { ps with tmp := none, files := llAdd ps.files fd fdi })
      else dropTmp path ps

def hookFcntlPtr (pre : Bool) (ps : PtrSt) : HeapM Obj (Rc × PtrSt) :=
  if pre then
    match llFind ps.files ps.out.args.a0.toInt with
    | none => pure (.CONTINUE, ps)
    | some _ => pure (.ABORT, ps)
  else pure (.CONTINUE, ps)

/-- `hook_mount` for a source and a target that have been read: both are freed at the end. -/
def mountPaths (data : ModuleData) (io : HookCalls) (source target : Ptr) (ps : PtrSt) :
    HeapM Obj (Rc × PtrSt) := do
  let devname ← loadText source
  let mountpoint ← loadText target
  let isAsec := mountpoint == ASEC
  let ps := if isAsec then ps else ps.withErrno (io.fs.statErrno devname ps.out.errno)
  match if isAsec then some (asecRec data) else getFstabRec data io.fs devname with
  | none => do
    free source
    free target
    pure (.CONTINUE, ps)
  | some r =>
    match r.replacementDevice with
    | none => fail
    | some replacement => do
      let res := replacePath io replacement (mountArgs r.replacementBind) ps.out
      free source
      free target
      pure (res.1, { ps with out := res.2 })

def hookMountPtr (data : ModuleData) (io : HookCalls) (pre : Bool) (ps : PtrSt) :
    HeapM Obj (Rc × PtrSt) :=
  if pre then
    getPathargPtr io io.path ps.out.args.a0 true ps.out.errno >>= fun
      | (none, errno) => pure (.ABORT, ps.withErrno errno)
      | (some source, errno) =>
        getPathargPtr io io.targetPath ps.out.args.a1 true errno >>= fun
          | (none, errno) => do
            free source
            pure (.ABORT, ps.withErrno errno)
          | (some target, errno) => mountPaths data io source target (ps.withErrno errno)
  else pure (.CONTINUE, { ps with out := freeMemory ps.out })

def runHookPtr (data : ModuleData) (io : HookCalls) (call : Syscall) (pre : Bool) (ps : PtrSt) :
    HeapM Obj (Rc × PtrSt) :=
  match hookOf call with
  | some .fileaccess => hookFileaccessPtr data io call pre ps
  | some .close => hookClosePtr data io pre ps
  | some .dup => hookDupPtr data io pre ps
  | some .fcntl => hookFcntlPtr pre ps
  | some .mount => hookMountPtr data io pre ps
  | none => pure (.CONTINUE, ps)

/-! ### The tracer -/

/-- A child; its hook data are behind `custom`, and the `mbc` of `out` is not used. -/
structure PtrKid where
  custom : Option Ptr
  out : Kid

structure PtrSys where
  kids : List PtrKid
  disks : Disks
  wipes : List Wipe

def ChildPtrs.init : ChildPtrs := ⟨none, none, [], false⟩

/-- `child->custom` as a hook gets it. -/
def PtrSys.enter (s : PtrSys) (mbc : ChildPtrs) (args : ScArgs) (io : HookCalls) : PtrSt where
  out := ⟨⟨mbc.memory, none, [], mbc.handledByOpen⟩, args, io.errno, s.disks, s.wipes, [], none, none⟩
  tmp := mbc.tmp
  files := mbc.files

def PtrSt.childPtrs (ps : PtrSt) : ChildPtrs :=
  ⟨ps.out.mbc.memory, ps.tmp, ps.files, ps.out.mbc.handledByOpen⟩

/-- A child without the data that are on the heap. -/
def Kid.bare (k : Kid) : Kid := { k with mbc := ChildData.init }

/-- One hook of child `i`, in between reading and writing its data. -/
def hookStep (data : ModuleData) (s : PtrSys) (i : ℕ) (k : PtrKid) (call : Syscall) (pre : Bool)
    (args : ScArgs) (io : HookCalls) (next : HookSt → Kid) : HeapM Obj PtrSys :=
  match k.custom with
  | none => fail
  | some c => do
    let mbc ← loadMbc c
    runHookPtr data io call pre (s.enter mbc args io) >>= fun
      | (.ABORT, _) => fail
      | (.CONTINUE, ps) => do
        store c (.childData ps.childPtrs)
        pure ⟨s.kids.set i ⟨some c, (next ps.out).bare⟩, ps.out.disks, ps.out.wipes⟩

/-- `multiboot_child_create`. -/
def createPtr (inherited : List (ℤ × OpenFile)) (s : PtrSys) : HeapM Obj PtrSys := do
  let c ← alloc (.childData .init)
  pure { s with kids := s.kids ++ [⟨some c, Kid.new inherited⟩] }

/-- `multiboot_child_destroy`. -/
def destroyPtr (i : ℕ) (k : PtrKid) (s : PtrSys) : HeapM Obj PtrSys :=
  match k.custom with
  | none => fail
  | some c => do
    let mbc ← loadMbc c
    freeFdinfoListPtr mbc.files
    free c
    pure { s with kids := s.kids.set i ⟨none, .gone⟩ }

def ptrAction (data : ModuleData) (s : PtrSys) : Action → HeapM Obj PtrSys
  | .create inherited => createPtr inherited s
  | .pre i call args io =>
    match s.kids[i]? with
    | none => fail
    | some k =>
      if k.out.alive && k.out.inside.isNone then
        hookStep data s i k call true args io fun st => k.out.entered call st
      else fail
  | .post i ret opened io =>
    match s.kids[i]? with
    | none => fail
    | some k =>
      match k.out.alive, k.out.inside with
      | true, some p =>
        hookStep data s i k p.call false { p.args with returnCode := ret } io fun st =>
          k.out.left p ret.toInt opened st
      | _, _ => fail
  | .exit i =>
    match s.kids[i]? with
    | none => fail
    | some k => if k.out.alive then destroyPtr i k s else fail
  | .mkfs dev d => pure { s with disks := Function.update s.disks dev d }
  | .fsck dev t => pure { s with disks := Function.update s.disks dev ((s.disks dev).fsck t) }

/-- One action of the tracer with its heap. -/
def ptrStep (data : ModuleData) (p : PtrSys × Heap Obj) (a : Action) : Option (PtrSys × Heap Obj) :=
  ptrAction data p.1 a p.2

def PtrSys.init (disks : Disks) : PtrSys × Heap Obj := (⟨[], disks, []⟩, Heap.empty)

/-! ### What the pointers stand for -/

def Heap.peek (h : Heap Obj) (b : Ptr) : Option Obj :=
  match h.slot b with
  | .live a => some a
  | _ => none

def readText (h : Heap Obj) (b : Ptr) : Option CString :=
  match Heap.peek h b with
  | some (.text s) => some s
  | _ => none

/-- The value of a pointer that may be `NULL`. -/
def readOpt {α : Type} (read : Ptr → Option α) : Option Ptr → Option (Option α)
  | none => some none
  | some b => (read b).map some

def readPdata (h : Heap Obj) (b : Ptr) : Option SuperBlock :=
  match Heap.peek h b with
  | some (.pdata sb) => some sb
  | _ => none

def readFdi (h : Heap Obj) (b : Ptr) : Option FdInfo :=
  match Heap.peek h b with
  | some (.fdInfo fdi) => do
    let filename ← fdi.filename.bind (readText h)
    let fsType ← readOpt (readText h) fdi.fsType
    let fsPdata ← readOpt (readPdata h) fdi.fsPdata
    let device ← readOpt (readText h) fdi.device
    some ⟨filename, fsType, fsPdata, device⟩
  | _ => none

def readFiles (h : Heap Obj) : List (ℤ × Ptr) → Option (List (ℤ × FdInfo))
  | [] => some []
  | (fd, b) :: files => do
    let fdi ← readFdi h b
    let files ← readFiles h files
    some ((fd, fdi) :: files)

def readMbc (h : Heap Obj) (c : Ptr) : Option ChildData :=
  match Heap.peek h c with
  | some (.childData mbc) => do
    let tmp ← readOpt (readText h) mbc.tmp
    let files ← readFiles h mbc.files
    some ⟨mbc.memory, tmp, files, mbc.handledByOpen⟩
  | _ => none

def readKid (h : Heap Obj) (k : PtrKid) : Option Kid :=
  match k.custom with
  | none => some k.out
  | some c => (readMbc h c).map fun mbc => { k.out with mbc := mbc }

def readKids (h : Heap Obj) : List PtrKid → Option (List Kid)
  | [] => some []
  | k :: kids => do
    let k ← readKid h k
    let kids ← readKids h kids
    some (k :: kids)

/-- The system that the pointers stand for. -/
def readSys (p : PtrSys × Heap Obj) : Option Sys :=
  (readKids p.2 p.1.kids).map fun kids => ⟨kids, p.1.disks, p.1.wipes⟩

end Multiboot
