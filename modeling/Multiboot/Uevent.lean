import Multiboot.Base

/-!
# The block-device table

`SysBlockUevent` is one entry of the table that is read from `/sys/class/block`.  The lookup goes
by partition name for paths containing `by-name` and by the two numbers of `mmcblk%up%u` otherwise.
`getBlockinfoForPath` leaves its two number variables unassigned on the first way, so it takes what
they start with as an argument.
-/

namespace Multiboot

structure SysBlockUevent where
  linuxMajor : ℕ
  linuxMinor : ℕ
  partMajor : ℕ
  partMinor : ℕ
  devname : Option CString
  partname : Option CString
  deriving DecidableEq, Repr

/-- The values the unassigned `part_major` and `part_minor` start with. -/
abbrev Junk := ℕ × ℕ

/-! ### The C library's text functions -/

def isspace (c : Char) : Bool := c == ' ' || (9 ≤ c.toNat && c.toNat ≤ 13)

def isdigit (c : Char) : Bool := 48 ≤ c.toNat && c.toNat ≤ 57

/-- `strstr(s, pat) != NULL`. -/
def strstr (s pat : CString) : Bool := s.tails.any (fun t => pat.isPrefixOf t)

def basename (path : CString) : CString :=
  let p := path.reverse.dropWhile (· == '/')
  if path = [] then ['.'] else if p = [] then ['/'] else (p.takeWhile (· != '/')).reverse

/-- The value of a decimal numeral. -/
def decimal (ds : CString) : ℕ := ds.foldl (fun v c => 10 * v + (c.toNat - 48)) 0

/-- Ordinary characters of a `scanf` format. -/
def scanLit (lit s : CString) : Option CString :=
  if lit.isPrefixOf s then some (s.drop lit.length) else none

/-- `%u` of `scanf`, with the 32-bit `strtoul` behind it: white space, a sign, at least one digit;
a numeral that does not fit gives `ULONG_MAX`. -/
def scanU (s : CString) : Option (ℕ × CString) :=
  let s := s.dropWhile isspace
  let neg := s.head? == some '-'
  let s := if neg || s.head? == some '+' then s.tail else s
  let ds := s.takeWhile isdigit
  if ds = [] then none
  else
    let v := decimal ds
    let v := if 2 ^ 32 ≤ v then 2 ^ 32 - 1 else if neg then (2 ^ 32 - v) % 2 ^ 32 else v
    some (v, s.dropWhile isdigit)

/-- `sscanf(s, lit "%up%u", ..) == 2`, with the two numbers. -/
def scanMmc (lit s : CString) : Option (ℕ × ℕ) := do
  let s ← scanLit lit s
  let (x, s) ← scanU s
  let s ← scanLit ['p'] s
  let (y, _) ← scanU s
  some (x, y)

/-! ### Lookups -/

/-- The loop of `get_blockinfo_for_path`: the first entry with the partition name (if one is looked
for) or with the two numbers. -/
def findUevent (name : Option CString) (part : ℕ × ℕ) :
    List SysBlockUevent → Option SysBlockUevent
  | [] => none
  | event :: info =>
    if name.isSome && event.partname == name then some event
    else if event.partMajor == part.1 && event.partMinor == part.2 then some event
    else findUevent name part info

def getBlockinfoForPath (junk : Junk) (info : List SysBlockUevent) (path : CString) :
    Option SysBlockUevent :=
  if strstr path "by-name".toList then findUevent (some (basename path)) junk info
  else
    match scanMmc "/dev/block/mmcblk".toList path with
    | none => none
    | some part => findUevent none part info

def ueventRealpath (junk : Junk) (info : List SysBlockUevent) (path : CString) : Option CString :=
  (getBlockinfoForPath junk info path).map fun bi =>
    "/dev/block/mmcblk".toList ++ showU bi.partMajor ++ ['p'] ++ showU bi.partMinor

/-- The number `uevent_stat` stores in `st_rdev` (`none`: it returns `-1`). -/
def ueventStat (junk : Junk) (info : List SysBlockUevent) (path : CString) : Option Dev :=
  (getBlockinfoForPath junk info path).map fun bi => ⟨bi.linuxMajor, bi.linuxMinor⟩

end Multiboot
