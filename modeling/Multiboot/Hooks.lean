import Multiboot.Tracee

/-!
# The hooks of the file-system redirection

Each hook runs before (`pre = true`) and after its system call.  The result is the return code and
the new state, or `none` when the tracer does not survive the call.
-/

namespace Multiboot

open Lib

/-! ### The table of path-taking calls -/

structure RedirectInfo where
  syscall : Syscall
  argnum : ℕ
  resolveSymlinks : Bool
  atflags : Option ℕ
  deriving DecidableEq, Repr

def info : List RedirectInfo :=
  [ ⟨.stat, 0, true, none⟩,
    ⟨.lstat, 0, false, none⟩,
    ⟨.newstat, 0, true, none⟩,
    ⟨.newlstat, 0, false, none⟩,
    ⟨.stat64, 0, true, none⟩,
    ⟨.lstat64, 0, false, none⟩,
    ⟨.chmod, 0, false, none⟩,
    ⟨.open, 0, true, none⟩,
    ⟨.access, 0, false, none⟩,
    ⟨.chown, 0, true, none⟩,
    ⟨.lchown, 0, false, none⟩,
    ⟨.chown16, 0, true, none⟩,
    ⟨.lchown16, 0, false, none⟩,
    ⟨.utime, 0, false, none⟩,
    ⟨.utimes, 0, false, none⟩,
    ⟨.futimesat, 1, false, none⟩,
    ⟨.faccessat, 1, false, some 3⟩,
    ⟨.fchmodat, 1, false, some 3⟩,
    ⟨.fchownat, 1, false, some 4⟩,
    ⟨.openat, 1, false, none⟩,
    ⟨.newfstatat, 1, true, some 3⟩,
    ⟨.fstatat64, 1, true, some 3⟩,
    ⟨.utimensat, 1, false, some 3⟩ ]

/-- The row of a call. -/
def infoOf (call : Syscall) : Option RedirectInfo := info.find? (fun row => row.syscall == call)

/-! ### open, openat -/

/-- `hook_open`: tracks a descriptor if the device needs format detection. -/
def hookOpen (data : ModuleData) (io : HookCalls) (pre : Bool) (argpos : ℕ)
    (resolveSymlinks : Bool) (st : HookSt) : Option (Rc × HookSt) :=
  if pre then
    -- we don't need to handle readonly access
    if st.args.nth (argpos + 1) &&& O_ACCMODE = O_RDONLY then some (.CONTINUE, st)
    else
      match getPatharg io io.openPath (st.args.nth argpos) resolveSymlinks st.errno with
      | none => none
      | some (none, errno) => some (.ABORT, { st with errno := errno })
      | some (some path, errno) =>
        let st := { st with errno := io.fs.statErrno path errno }
        match getFstabRec data io.fs path with
        | none => some (.CONTINUE, st)
        | some r =>
          -- losetup's can be formatted already
          if !r.replacementBind then some (.CONTINUE, st)
          else
            -- check fs now to update the last_checked timestamp, store path for post_syscall
            some (.CONTINUE,
              { st.touch (.store path) with
                disks := checkFsNomount io r.stubDevice st.disks
                mbc := { st.mbc with handledByOpen := true, tmp := some path }
                chosen := some r
                number := io.fs.number path })
  else if st.mbc.handledByOpen then
    match st.mbc.tmp with
    | none => some (.CONTINUE, { st with mbc := { st.mbc with handledByOpen := false } })
    | some path =>
      let fd := st.args.returnCode.toInt
      let st := st.touch (.load path)
      if 0 ≤ fd then
        match makeFdinfo data io.fs io.make st.disks path with
        | none => none
        | some fdi =>
          some (.CONTINUE,
            { st with
              mbc := { st.mbc with
                files := llAdd st.mbc.files fd fdi, tmp := none, handledByOpen := false } })
      -- open failed
      else
        some (.CONTINUE, { st with mbc := { st.mbc with tmp := none, handledByOpen := false } })
  else some (.CONTINUE, { st with mbc := { st.mbc with handledByOpen := false } })

/-! ### Redirecting a path argument -/

/-- The part of `redirect_file_access` and `hook_mount` after the system call. -/
def freeMemory (st : HookSt) : HookSt :=
  match st.mbc.memory with
  | none => st
  | some addr => { freePatharg addr st with mbc := { st.mbc with memory := none } }

/-- Copy a replacement path and let the changed arguments point to it (`setArgs`). -/
def replacePath (io : HookCalls) (replacement : CString) (setArgs : Long → ScArgs → ScArgs)
    (st : HookSt) : Rc × HookSt :=
  match copyPatharg io replacement st with
  | (none, st) => (.ABORT, st)
  | (some devnameNew, st) =>
    if io.modifyArgs then
      (.CONTINUE,
        { st with
          args := setArgs devnameNew st.args
          mbc := { st.mbc with memory := some devnameNew } })
    else (.ABORT, freePatharg devnameNew st)

/-- `!lstat(path, &sb) && S_ISLNK(sb.st_mode)`. -/
def isLink (fs : FsView) (path : CString) : Bool :=
  match fs.lstat path with
  | .ok sb => sb.kind == .lnk
  | .error _ => false

/-- `redirect_file_access` before the system call, behind `hook_open`. -/
def redirectPre (data : ModuleData) (io : HookCalls) (argpos : ℕ) (resolveSymlinks : Bool)
    (st : HookSt) : Option (Rc × HookSt) :=
  match getPatharg io io.path (st.args.nth argpos) resolveSymlinks st.errno with
  | none => none
  | some (none, errno) => some (.ABORT, { st with errno := errno })
  | some (some path, errno) =>
    let st := { st with errno := io.fs.statErrno path errno }
    match getFstabRec data io.fs path with
    | none => some (.CONTINUE, st)
    | some r =>
      -- ignore symlinks for calls which don't resolve them
      if !resolveSymlinks && isLink io.fs path then some (.CONTINUE, st)
      else
        match if r.replacementBind then r.stubDevice else r.replacementDevice with
        | none => none
        | some replacement =>
          some (replacePath io replacement (fun addr a => a.setNth argpos addr) st)

def redirectFileAccess (data : ModuleData) (io : HookCalls) (call : Syscall) (pre : Bool)
    (argpos : ℕ) (resolveSymlinks : Bool) (st : HookSt) : Option (Rc × HookSt) :=
  -- call hook_open
  let opened :=
    if call = .open ∨ call = .openat then hookOpen data io pre argpos resolveSymlinks st
    else some (.CONTINUE, st)
  match opened with
  | none => none
  | some (.ABORT, st) => some (.ABORT, st)
  | some (.CONTINUE, st) =>
    if pre then redirectPre data io argpos resolveSymlinks st
    else some (.CONTINUE, freeMemory st)

/-- Whether `hook_fileaccess` resolves the final symbolic link. -/
def resolveOf (row : RedirectInfo) (call : Syscall) (args : ScArgs) : Bool :=
  let resolveSymlinks :=
    match row.atflags with
    | some pos => args.nth pos &&& AT_SYMLINK_NOFOLLOW == 0
    | none => row.resolveSymlinks
  if call = .open then args.a1 &&& O_NOFOLLOW == 0
  else if call = .openat then args.a3 &&& O_NOFOLLOW == 0
  else resolveSymlinks

def hookFileaccess (data : ModuleData) (io : HookCalls) (call : Syscall) (pre : Bool)
    (st : HookSt) : Option (Rc × HookSt) :=
  match infoOf call with
  | none => some (.ABORT, st)
  | some row => redirectFileAccess data io call pre row.argnum (resolveOf row call st.args) st

/-! ### close, dup, fcntl -/

/-- The argument of `format_path`: `"%s/*"` in a buffer of `PATH_MAX` bytes. -/
def wipePath (r : FstabRec) : CString :=
  snprintf PATH_MAX (showS r.replacementDevice ++ "/*".toList)

def hookClose (data : ModuleData) (io : HookCalls) (pre : Bool) (st : HookSt) :
    Option (Rc × HookSt) :=
  if pre then
    let fd := st.args.a0.toInt
    match llFind st.mbc.files fd with
    | none => some (.CONTINUE, st)
    | some fdi =>
      match fsWasFormat io.close st.disks fdi with
      | none => none
      | some wasFormat =>
        let st :=
          if wasFormat then
            match getFstabRec data io.fs fdi.filename with
            | none => st
            | some r => st.formatPath fdi.device (wipePath r)
          else st
        match freeFdinfo fdi with
        | none => none
        | some _ =>
          some (.CONTINUE, { st with mbc := { st.mbc with files := llDel st.mbc.files fd } })
  else some (.CONTINUE, st)

/-- `hook_dup`, for `dup`, `dup2` and `dup3`. -/
def hookDup (data : ModuleData) (io : HookCalls) (pre : Bool) (st : HookSt) :
    Option (Rc × HookSt) :=
  if pre then
    let fd := st.args.a0.toInt
    match llFind st.mbc.files fd with
    | none => some (.CONTINUE, st)
    | some fdi =>
      some (.CONTINUE,
        { st.touch (.store fdi.filename) with
          mbc := { st.mbc with tmp := some fdi.filename } })
  else
    match st.mbc.tmp with
    | none => some (.CONTINUE, st)
    | some path =>
      let fd := st.args.returnCode.toInt
      let st := st.touch (.load path)
      if 0 ≤ fd then
        -- the first fd_info is only tested, the list gets a second one
        match makeFdinfo data io.fs io.make st.disks path with
        | none => none
        | some _ =>
          match makeFdinfo data io.fs io.make2 st.disks path with
          | none => none
          | some fdi =>
            some (.CONTINUE,
              { st with mbc := { st.mbc with files := llAdd st.mbc.files fd fdi, tmp := none } })
      -- dup failed
      else some (.CONTINUE, { st with mbc := { st.mbc with tmp := none } })

def hookFcntl (pre : Bool) (st : HookSt) : Option (Rc × HookSt) :=
  if pre then
    match llFind st.mbc.files st.args.a0.toInt with
    | none => some (.CONTINUE, st)
    | some _ => some (.ABORT, st)
  else some (.CONTINUE, st)

/-! ### mount -/

def ASEC : CString := "/mnt/secure/asec".toList

/-- `asec_rec` as `fsr_tracy_init` fills it. -/
def asecRec (data : ModuleData) : FstabRec :=
  { blkDevice := []
    mountPoint := []
    fsType := []
    fsOptionsUnparsed := none
    fsMgrFlagsUnparsed := none
    unhandledColumns := none
    fsMgrFlags := 0
    replacementDevice := some (snprintf PATH_MAX
      (PATH_MOUNTPOINT_SOURCE ++ showS data.multibootPath ++ "/android_secure".toList)) }

/-- The arguments of a redirected mount. -/
def mountArgs (bind : Bool) (addr : Long) (a : ScArgs) : ScArgs :=
  if bind then { a with a0 := addr, a2 := 0, a3 := a.a3 ||| MS_BIND } else { a with a0 := addr }

def hookMount (data : ModuleData) (io : HookCalls) (pre : Bool) (st : HookSt) :
    Option (Rc × HookSt) :=
  if pre then
    match getPatharg io io.path st.args.a0 true st.errno with
    | none => none
    | some (none, errno) => some (.ABORT, { st with errno := errno })
    | some (some devname, errno) =>
      match getPatharg io io.targetPath st.args.a1 true errno with
      | none => none
      | some (none, errno) => some (.ABORT, { st with errno := errno })
      | some (some mountpoint, errno) =>
        let isAsec := mountpoint == ASEC
        let st := { st with errno := if isAsec then errno else io.fs.statErrno devname errno }
        match if isAsec then some (asecRec data) else getFstabRec data io.fs devname with
        | none => some (.CONTINUE, st)
        | some r =>
          match r.replacementDevice with
          | none => none
          | some replacement =>
            some (replacePath io replacement (mountArgs r.replacementBind) st)
  else some (.CONTINUE, freeMemory st)

/-! ### Dispatch -/

inductive Hook
  | fileaccess | close | dup | fcntl | mount
  deriving DecidableEq, Repr

/-- The hook `fsr_tracy_init` sets on a call. -/
def hookOf : Syscall → Option Hook
  | .close => some .close
  | .dup | .dup2 | .dup3 => some .dup
  | .fcntl | .fcntl64 => some .fcntl
  | .mount => some .mount
  | .other _ => none
  | _ => some .fileaccess

def runHook (data : ModuleData) (io : HookCalls) (call : Syscall) (pre : Bool) (st : HookSt) :
    Option (Rc × HookSt) :=
  match hookOf call with
  | some .fileaccess => hookFileaccess data io call pre st
  | some .close => hookClose data io pre st
  | some .dup => hookDup data io pre st
  | some .fcntl => hookFcntl pre st
  | some .mount => hookMount data io pre st
  | none => some (.CONTINUE, st)

/-- Every call of the table, and no other, has `hook_fileaccess` set on it. -/
theorem infoOf_isSome_iff (call : Syscall) :
    (infoOf call).isSome ↔ hookOf call = some .fileaccess := by
  cases call <;> simp [infoOf, info, hookOf]

end Multiboot
