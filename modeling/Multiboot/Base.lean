import Mathlib.Algebra.Group.Nat.Defs
import Mathlib.Data.List.Basic
import Mathlib.Data.Int.Notation
import Mathlib.Tactic.Common

/-!
# Texts, numbers and the file system as the tracer sees them

C strings are lists of characters without the final NUL.  `Dev` is a device number (`dev_t`), kept
as the pair `makedev` packs.  `FsView` is what `stat`, `lstat` and `realpath` answer at one moment;
`FileSystem` is a view that obeys the rules of path resolution.
-/

namespace Multiboot

abbrev CString := List Char

def nul : Char := Char.ofNat 0

def PATH_MAX : ℕ := 4096

def PATH_MOUNTPOINT_SOURCE : CString := "/multiboot/mnt/source".toList
def PATH_MOUNTPOINT_GRUB : CString := "/multiboot/mnt/grub".toList
def PATH_MOUNTPOINT_DEV : CString := "/multiboot/dev".toList

/-- `snprintf(buf, size, "%s", text)`: at most `size - 1` characters are stored. -/
def snprintf (size : ℕ) (text : CString) : CString := text.take (size - 1)

/-- `%u`. -/
def showU (n : ℕ) : CString := Nat.toDigits 10 n

/-- `%d`. -/
def showD : ℤ → CString
  | Int.ofNat n => showU n
  | Int.negSucc n => '-' :: showU (n + 1)

/-- `%s` of a pointer that may be `NULL`. -/
def showS (s : Option CString) : CString := s.getD "(null)".toList

/-! ### Device numbers and `stat` -/

/-- The number `makedev(major, minor)`. -/
structure Dev where
  major : ℕ
  minor : ℕ
  deriving DecidableEq, Repr

instance : Zero Dev := ⟨⟨0, 0⟩⟩

inductive Errno
  | ENOENT | EACCES | ENOTDIR | ELOOP | ENAMETOOLONG | EIO | ENOMEM
  deriving DecidableEq, Repr

inductive FileKind
  | reg | dir | lnk | blk | chr | fifo | sock
  deriving DecidableEq, Repr

/-- The fields of `struct stat` that are read: `st_mode` and `st_rdev`. -/
structure Stat where
  kind : FileKind
  rdev : Dev
  deriving DecidableEq, Repr

def Stat.isDevice (s : Stat) : Bool := s.kind == .blk || s.kind == .chr

/-- The answers of the path calls at one moment. -/
structure FsView where
  stat : CString → Except Errno Stat
  lstat : CString → Except Errno Stat
  realpath : CString → Except Errno CString

/-- `errno` after `stat(path)`: a failed call sets it, a successful one leaves it. -/
def FsView.statErrno (fs : FsView) (path : CString) (errno : Option Errno) : Option Errno :=
  match fs.stat path with
  | .ok _ => errno
  | .error e => some e

/-- The device number `stat(path)` finds, `none` if it fails. -/
def FsView.number (fs : FsView) (path : CString) : Option Dev :=
  match fs.stat path with
  | .ok st => some st.rdev
  | .error _ => none

/-- A view that obeys the rules of path resolution: `stat` follows the final symbolic link and
`lstat` does not, `realpath` names the file `stat` describes, and only device nodes have a number. -/
structure FileSystem extends FsView where
  stat_kind : ∀ {p s}, stat p = .ok s → s.kind ≠ .lnk
  stat_of_lstat : ∀ {p s}, lstat p = .ok s → s.kind ≠ .lnk → stat p = .ok s
  lstat_of_stat : ∀ {p s}, stat p = .ok s →
    lstat p = .ok s ∨ ∃ l, lstat p = .ok l ∧ l.kind = .lnk
  realpath_of_stat : ∀ {p s}, stat p = .ok s → ∃ q, realpath p = .ok q ∧ stat q = .ok s
  rdev_of_not_device : ∀ {p s}, stat p = .ok s → s.isDevice = false → s.rdev = 0

theorem FileSystem.isDevice_of_rdev (fs : FileSystem) {p : CString} {s : Stat}
    (h : fs.stat p = .ok s) (hr : s.rdev ≠ 0) : s.isDevice = true := by
  by_contra hd
  exact hr (fs.rdev_of_not_device h (by simpa using hd))

end Multiboot
