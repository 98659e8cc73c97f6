import Multiboot.Detect
import Multiboot.Lib.KeyedList

/-!
# A traced child as a hook sees it

The tracees are 32-bit ARM processes: `long` and `int` are both 32 bits wide.  `HookCalls` collects
how every call one hook invocation makes on its surroundings ends, so that a hook is a function of
it; `HookSt` is what a hook reads and changes.  `Touch` records what is done in the child's address
space and with `mbc->tmp`.
-/

namespace Multiboot

open Lib

abbrev Long := BitVec 32

def O_ACCMODE : Long := 3
def O_RDONLY : Long := 0
def O_NOFOLLOW : Long := 0x8000
def AT_SYMLINK_NOFOLLOW : Long := 0x100
def MS_BIND : Long := 4096

/-- The hooked system calls; `other` are the rest. -/
inductive Syscall
  | stat | lstat | newstat | newlstat | stat64 | lstat64 | chmod | open | access
  | chown | lchown | chown16 | lchown16 | utime | utimes | futimesat | faccessat
  | fchmodat | fchownat | openat | newfstatat | fstatat64 | utimensat
  | close | dup | dup2 | dup3 | fcntl | fcntl64 | mount
  | other (n : ℕ)
  deriving DecidableEq, Repr

/-- `struct tracy_sc_args`. -/
structure ScArgs where
  a0 : Long
  a1 : Long
  a2 : Long
  a3 : Long
  a4 : Long
  a5 : Long
  returnCode : Long
  deriving DecidableEq, Repr

/-- `(&args.a0)[i]`. -/
def ScArgs.nth (a : ScArgs) : ℕ → Long
  | 0 => a.a0
  | 1 => a.a1
  | 2 => a.a2
  | 3 => a.a3
  | 4 => a.a4
  | _ => a.a5

/-- `(&args.a0)[i] = v`. -/
def ScArgs.setNth (a : ScArgs) (i : ℕ) (v : Long) : ScArgs :=
  match i with
  | 0 => { a with a0 := v }
  | 1 => { a with a1 := v }
  | 2 => { a with a2 := v }
  | 3 => { a with a3 := v }
  | 4 => { a with a4 := v }
  | _ => { a with a5 := v }

/-- How one `get_patharg` ends: whether `tracy_read_mem` and `realpath` succeed where they can. -/
structure PathCalls where
  read : Bool
  resolve : Bool
  deriving DecidableEq, Repr

/-- The surroundings of one hook invocation. -/
structure HookCalls where
  /-- `errno` when the hook is entered. -/
  errno : Option Errno
  /-- The bytes at an address of the child, `none` if it is not mapped. -/
  mem : Long → Option (List Char)
  fs : FsView
  /-- `get_patharg` in `hook_open`. -/
  openPath : PathCalls
  /-- The first `get_patharg` of the other hooks. -/
  path : PathCalls
  /-- `get_patharg` of a mount target. -/
  targetPath : PathCalls
  /-- The time `e2fsck` stores in `s_lastcheck`, `none` if it does not run. -/
  fsck : Option ℕ
  /-- The address `tracy_mmap` maps the region at, `none` if it fails. -/
  mmap : Option Long
  writeMem : Bool
  modifyArgs : Bool
  /-- The first and, in `hook_dup`, the second `make_fdinfo`. -/
  make : DevCalls
  make2 : DevCalls
  /-- `fs_was_format`. -/
  close : DevCalls

/-- What a hook does in the child's address space and with `mbc->tmp`, between the stops of the child:
it enters a system call, returns to the hook after it, and leaves it. -/
inductive Touch
  | enter (call : Syscall)
  | resume (call : Syscall)
  | leave (call : Syscall)
  | mmap (addr : Long) (len : ℕ)
  | write (addr : Long) (text : CString)
  | munmap (addr : Long) (len : ℕ)
  | store (path : CString)
  | load (path : CString)
  deriving DecidableEq, Repr

/-- `struct multiboot_child_data`. -/
structure ChildData where
  memory : Option Long
  tmp : Option CString
  files : List (ℤ × FdInfo)
  handledByOpen : Bool
  deriving DecidableEq, Repr

def ChildData.init : ChildData := ⟨none, none, [], false⟩

/-- A call of `format_path`, and the device of the descriptor that was closed. -/
structure Wipe where
  device : Option CString
  path : CString
  deriving DecidableEq, Repr

structure HookSt where
  mbc : ChildData
  args : ScArgs
  errno : Option Errno
  disks : Disks
  wipes : List Wipe
  touches : List Touch
  /-- History: the record `hook_open` selected for the descriptor being opened. -/
  chosen : Option FstabRec
  /-- History: the device number of that path when `hook_open` looked it up. -/
  number : Option Dev

/-- Return codes of a hook. -/
inductive Rc
  | CONTINUE | ABORT
  deriving DecidableEq, Repr

def HookSt.touch (st : HookSt) (t : Touch) : HookSt := { st with touches := st.touches ++ [t] }

/-! ### Path arguments -/

/-- The string in the zeroed buffer of `get_patharg` after `bytes` are read into it; `none` if its
`PATH_MAX` bytes hold no NUL. -/
def cstr (bytes : List Char) : Option CString :=
  let path := bytes.take PATH_MAX
  if path.length < PATH_MAX ∨ nul ∈ path then some (path.takeWhile (· != nul)) else none

/-- `tracy_read_mem(child, path, addr, PATH_MAX)`. -/
def HookCalls.readMem (io : HookCalls) (calls : PathCalls) (addr : Long) : Option (List Char) :=
  if calls.read then io.mem addr else none

/-- `get_patharg`: the path (`none` is `NULL`) and `errno` after it.  It does not survive a path
without a NUL in the buffer. -/
def getPatharg (io : HookCalls) (calls : PathCalls) (addr : Long) (real : Bool)
    (errno : Option Errno) : Option (Option CString × Option Errno) :=
  match io.readMem calls addr with
  | none => some (none, errno)
  | some bytes =>
    match cstr bytes with
    | none => none
    | some path =>
      if real then
        match io.fs.stat path with
        | .error e => some (some path, some e)
        | .ok _ =>
          -- resolve symlinks
          match io.fs.realpath path, calls.resolve with
          | .ok pathReal, true => some (if errno = none then some pathReal else none, errno)
          | .ok _, false => some (none, some .ENOMEM)
          | .error e, _ => some (none, some e)
      else some (some path, errno)

/-- `copy_patharg`: the address of the copy (`none` is `NULL`). -/
def copyPatharg (io : HookCalls) (path : CString) (st : HookSt) : Option Long × HookSt :=
  let len := path.length + 1
  if len > PATH_MAX + 1 then (none, st)
  else
    match io.mmap with
    | none => (none, st)
    | some addr =>
      let st := st.touch (.mmap addr (PATH_MAX + 1))
      -- `!path_new`: a region at address 0 is taken for a failure
      if addr = 0 then (none, st)
      else if io.writeMem then (some addr, st.touch (.write addr path))
      else (none, st.touch (.munmap addr len))

def freePatharg (addr : Long) (st : HookSt) : HookSt := st.touch (.munmap addr (PATH_MAX + 1))

/-! ### Effects on devices -/

/-- `check_fs_nomount`. -/
def checkFsNomount (io : HookCalls) (device : Option CString) (disks : Disks) : Disks :=
  match io.fsck, device with
  | some t, some dev => Function.update disks dev ((disks dev).fsck t)
  | _, _ => disks

/-- `format_path(path)`, reached from the close of a descriptor on `device`. -/
def HookSt.formatPath (st : HookSt) (device : Option CString) (path : CString) : HookSt :=
  { st with wipes := st.wipes ++ [⟨device, path⟩] }

end Multiboot
