import Multiboot.Base

/-!
# fstab records

`FstabCols` is what `do_fs_mgr_read_fstab` takes from one line; a record in memory (`FstabRec`) adds
the fields `calloc` leaves zero and later stages fill in.
-/

namespace Multiboot

def MF_MULTIBOOT : ℕ := 0x400

structure FstabCols where
  blkDevice : CString
  mountPoint : CString
  fsType : CString
  fsOptionsUnparsed : Option CString
  fsMgrFlagsUnparsed : Option CString
  unhandledColumns : Option CString
  fsMgrFlags : ℕ
  deriving DecidableEq, Repr

/-- A record in memory.  `statbuf = none` is the zeroed buffer that `uevent_stat` never filled. -/
structure FstabRec extends FstabCols where
  statbuf : Option Dev := none
  replacementDevice : Option CString := none
  replacementBind : Bool := false
  stubDevice : Option CString := none
  deriving DecidableEq, Repr

/-- `rec->statbuf.st_rdev`. -/
def FstabRec.stRdev (rec : FstabRec) : Dev := rec.statbuf.getD 0

structure Fstab where
  recs : List FstabRec
  fstabFilename : CString
  twrp : Bool
  deriving DecidableEq, Repr

def fsMgrIsMultiboot (rec : FstabRec) : Bool := rec.fsMgrFlags &&& MF_MULTIBOOT != 0

/-- `strncmp(path, mp, strlen(mp)) == 0` and the path ends there or goes on with a slash. -/
def mountPointCovers (mp path : CString) : Bool :=
  mp.isPrefixOf path && ((path.drop mp.length).head? == none || (path.drop mp.length).head? == some '/')

def fsMgrGetEntryForMountPoint (fstab : Fstab) (path : CString) : Option FstabRec :=
  fstab.recs.find? (fun rec => mountPointCovers rec.mountPoint path)

end Multiboot
