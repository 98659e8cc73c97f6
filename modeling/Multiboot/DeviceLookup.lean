import Multiboot.BlockTable
import Multiboot.Lib.FirstMatch

/-!
# Lookups in the table

`get_blockinfo_for_path` searches with the two numbers even where it searches by name, and every
device has two numbers.  `lookups_right_iff` says which devices get in the way of a lookup.
-/

namespace Multiboot

open Lib

/-! ### Searches -/

/-- The test of the loop. -/
def ueventHit (name : Option CString) (part : ℕ × ℕ) (event : SysBlockUevent) : Bool :=
  (name.isSome && event.partname == name) ||
    (event.partMajor == part.1 && event.partMinor == part.2)

theorem findUevent_eq (name : Option CString) (part : ℕ × ℕ) (info : List SysBlockUevent) :
    findUevent name part info = info.find? (ueventHit name part) := by
  induction info with
  | nil => rfl
  | cons event info ih =>
    rw [findUevent, List.find?_cons, ih]
    cases hn : (name.isSome && event.partname == name) with
    | true => simp [ueventHit, hn]
    | false =>
      cases hp : (event.partMajor == part.1 && event.partMinor == part.2) <;>
        simp [ueventHit, hn, hp]

/-- The two numbers of a device are these. -/
def numbersHit (part : ℕ × ℕ) (d : KernelDev) : Bool := d.partNumbers == part

/-- The loop stops at a device: by the name it is stored under or by its numbers. -/
def nameHit (name : CString) (junk : Junk) (d : KernelDev) : Bool :=
  d.partname.map storedName == some name || numbersHit junk d

theorem findUevent_number (part : ℕ × ℕ) (devs : List KernelDev) :
    findUevent none part (devs.map entryOf) = (devs.find? (numbersHit part)).map entryOf := by
  rw [findUevent_eq, List.find?_map]
  rfl

theorem findUevent_name (name : CString) (junk : Junk) (devs : List KernelDev) :
    findUevent (some name) junk (devs.map entryOf) =
      (devs.find? (nameHit name junk)).map entryOf := by
  rw [findUevent_eq, List.find?_map]
  rfl

/-- Different devices have different entries. -/
theorem entryOf_inj {devs : List KernelDev} (hnodup : (devs.map (·.devname)).Nodup)
    {d e : KernelDev} (hd : d ∈ devs) (he : e ∈ devs) (h : entryOf d = entryOf e) : d = e := by
  have hname : d.devname = e.devname := Option.some.inj (congrArg SysBlockUevent.devname h)
  exact List.inj_on_of_nodup_map hnodup hd he hname

theorem map_entryOf_inj {devs : List KernelDev} (hnodup : (devs.map (·.devname)).Nodup)
    {p q : KernelDev → Bool}
    (h : (devs.find? p).map entryOf = (devs.find? q).map entryOf) : devs.find? p = devs.find? q := by
  cases hp : devs.find? p with
  | none =>
    rw [hp, Option.map_none] at h
    exact (Option.map_eq_none_iff.mp h.symm).symm
  | some d =>
    rw [hp] at h
    obtain ⟨e, he, heq⟩ := Option.map_eq_some_iff.mp h.symm
    rw [he, entryOf_inj hnodup (List.mem_of_find?_eq_some he) (List.mem_of_find?_eq_some hp) heq]

/-! ### Lookups by number -/

/-- `DEVNAME` is `mmcblkXpY`. -/
def isMmcPart (x y : ℕ) (d : KernelDev) : Bool := d.devname == mmcName "mmcblk".toList x y

/-- The lookup gives the entry of `mmcblkXpY`, or nothing if there is no such device. -/
def NumberRight (info : List SysBlockUevent) (devs : List KernelDev) (junk : Junk) (x y : ℕ) :
    Prop :=
  getBlockinfoForPath junk info (blkName x y) = (devs.find? (isMmcPart x y)).map entryOf

/-- A device that is no mmc partition and has the number `y` on its disk (0 for a whole disk) stands
before `mmcblk0p<y>`, or there is no `mmcblk0p<y>`. -/
def Shadowed (devs : List KernelDev) (x y : ℕ) : Prop :=
  x = 0 ∧ ∃ before e after, devs = before ++ e :: after ∧
    scanMmc "mmcblk".toList e.devname = none ∧ e.diskNumber = y ∧
    ∀ d ∈ before, isMmcPart 0 y d = false

theorem numbersHit_of_isMmcPart {x y : ℕ} {d : KernelDev} (h : isMmcPart x y d = true) :
    numbersHit (clampU x, clampU y) d = true := by
  have hname : d.devname = mmcName "mmcblk".toList x y := by simpa [isMmcPart] using h
  rw [numbersHit, KernelDev.partNumbers, hname, scanMmc_show]
  exact beq_self_eq_true _

/-- A device with the numbers of `mmcblkXpY` is this partition, or no mmc partition at all. -/
theorem numbersHit_cases {d : KernelDev} (hok : d.Ok) {x y : ℕ}
    (h : numbersHit (clampU x, clampU y) d = true) :
    isMmcPart x y d = true ∨ (x = 0 ∧ scanMmc "mmcblk".toList d.devname = none ∧
      d.diskNumber = y ∧ isMmcPart x y d = false) := by
  have hnumbers : d.partNumbers = (clampU x, clampU y) := by simpa [numbersHit] using h
  cases hscan : scanMmc "mmcblk".toList d.devname with
  | some part =>
    obtain ⟨hx, hy, hname⟩ := hok.canonical part.1 part.2 hscan
    rw [KernelDev.partNumbers, hscan, Option.getD_some] at hnumbers
    have hx' : x = part.1 := eq_of_clampU_lt (by rw [hnumbers]) hx
    have hy' : y = part.2 := eq_of_clampU_lt (by rw [hnumbers]) hy
    left
    rw [isMmcPart, hname, hx', hy']
    exact beq_self_eq_true _
  | none =>
    rw [KernelDev.partNumbers, hscan, Option.getD_none] at hnumbers
    have hx : x = 0 := eq_of_clampU_lt (congrArg Prod.fst hnumbers).symm (by decide)
    have hy : y = d.diskNumber :=
      eq_of_clampU_lt (congrArg Prod.snd hnumbers).symm hok.diskNumber_lt
    refine Or.inr ⟨hx, rfl, hy.symm, ?_⟩
    by_contra hmmc
    have hname : d.devname = mmcName "mmcblk".toList x y := by simpa [isMmcPart] using hmmc
    rw [hname, scanMmc_show] at hscan
    cases hscan

theorem numberRight_iff {devs : List KernelDev} (hok : ∀ d ∈ devs, d.Ok)
    (hnodup : (devs.map (·.devname)).Nodup) (junk : Junk) (x y : ℕ) :
    NumberRight (devs.map entryOf) devs junk x y ↔ ¬ Shadowed devs x y := by
  have hfind : NumberRight (devs.map entryOf) devs junk x y ↔
      devs.find? (numbersHit (clampU x, clampU y)) = devs.find? (isMmcPart x y) := by
    rw [NumberRight, getBlockinfoForPath_blkName, findUevent_number]
    exact ⟨map_entryOf_inj hnodup, fun h => by rw [h]⟩
  rw [hfind, find?_eq_find?_iff fun d _ h => numbersHit_of_isMmcPart h, not_iff_not]
  constructor
  · rintro ⟨before, e, after, hsplit, hhit, hno, hbefore⟩
    have hmem : e ∈ devs := by
      rw [hsplit]
      exact List.mem_append_right _ List.mem_cons_self
    rcases numbersHit_cases (hok e hmem) hhit with h | ⟨rfl, hscan, hy, -⟩
    · rw [hno] at h
      cases h
    · exact ⟨rfl, before, e, after, hsplit, hscan, hy, hbefore⟩
  · rintro ⟨rfl, before, e, after, hsplit, hscan, rfl, hbefore⟩
    have hmem : e ∈ devs := by
      rw [hsplit]
      exact List.mem_append_right _ List.mem_cons_self
    have hnumber := (hok e hmem).diskNumber_lt
    refine ⟨before, e, after, hsplit, ?_, ?_, hbefore⟩
    · rw [numbersHit, KernelDev.partNumbers, hscan, Option.getD_none,
        clampU_of_lt (show 0 < 2 ^ 32 by decide), clampU_of_lt (by omega)]
      exact beq_self_eq_true _
    · by_contra hmmc
      have hname : e.devname = mmcName "mmcblk".toList 0 e.diskNumber := by
        simpa [isMmcPart] using hmmc
      rw [hname, scanMmc_show] at hscan
      cases hscan

/-! ### Lookups by name -/

/-- The lookup gives the entry of a device with this `PARTNAME`, or nothing if no device has it. -/
def NameRight (info : List SysBlockUevent) (devs : List KernelDev) (junk : Junk) (path : CString) :
    Prop :=
  match getBlockinfoForPath junk info path with
  | none => ∀ d ∈ devs, d.partname ≠ some (basename path)
  | some event => ∃ d ∈ devs, event = entryOf d ∧ d.partname = some (basename path)

/-- The first device that is stored under the name or has the numbers the locals start with has this
`PARTNAME`; without such a device none has it. -/
def NameClear (devs : List KernelDev) (junk : Junk) (name : CString) : Prop :=
  (∀ d, First (nameHit name junk) devs d → d.partname = some name) ∧
    ((∀ d ∈ devs, nameHit name junk d = false) → ∀ d ∈ devs, d.partname ≠ some name)

theorem nameRight_iff {devs : List KernelDev} (hnodup : (devs.map (·.devname)).Nodup) (junk : Junk)
    {path : CString} (hname : strstr path "by-name".toList = true) :
    NameRight (devs.map entryOf) devs junk path ↔ NameClear devs junk (basename path) := by
  have hlookup : getBlockinfoForPath junk (devs.map entryOf) path =
      (devs.find? (nameHit (basename path) junk)).map entryOf := by
    rw [getBlockinfoForPath, if_pos hname, findUevent_name]
  rw [NameRight, hlookup]
  cases hfind : devs.find? (nameHit (basename path) junk) with
  | none =>
    have hno : ∀ d ∈ devs, nameHit (basename path) junk d = false := fun d hd => by
      simpa using List.find?_eq_none.mp hfind d hd
    refine ⟨fun h => ⟨fun d hd => ?_, fun _ => h⟩, fun h => h.2 hno⟩
    have hhit := hd.holds
    rw [hno d hd.mem] at hhit
    cases hhit
  | some d0 =>
    have hfirst : First (nameHit (basename path) junk) devs d0 := first_iff.mpr hfind
    show (∃ d ∈ devs, entryOf d0 = entryOf d ∧ d.partname = some (basename path)) ↔ _
    constructor
    · rintro ⟨d, hd, hentry, hpart⟩
      obtain rfl := entryOf_inj hnodup hfirst.mem hd hentry
      refine ⟨fun e he => ?_, fun hno => ?_⟩
      · rw [he.unique hfirst]
        exact hpart
      · have hhit := hfirst.holds
        rw [hno d0 hd] at hhit
        cases hhit
    · rintro ⟨hclear, -⟩
      exact ⟨d0, hfirst.mem, rfl, hclear d0 hfirst⟩

/-- A device of another name that has the numbers the locals start with, or whose name is stored as
this one. -/
def Mistaken (junk : Junk) (name : CString) (e : KernelDev) : Prop :=
  e.partname ≠ some name ∧ (e.partNumbers = junk ∨ e.partname.map storedName = some name)

/-- A device of this name that is not found: the name is stored as another and the numbers are not
those the locals start with. -/
def Missed (junk : Junk) (name : CString) (d : KernelDev) : Prop :=
  d.partname = some name ∧ storedName name ≠ name ∧ d.partNumbers ≠ junk

/-- A mistaken device stands before every device of this name that is found, or every device of this
name is missed and there is no mistaken one. -/
def NameShadowed (devs : List KernelDev) (junk : Junk) (name : CString) : Prop :=
  (∃ before e after, devs = before ++ e :: after ∧ Mistaken junk name e ∧
    ∀ d ∈ before, d.partname = some name → Missed junk name d) ∨
  (∃ d ∈ devs, d.partname = some name) ∧
    ∀ d ∈ devs, ¬ Mistaken junk name d ∧ (d.partname = some name → Missed junk name d)

theorem nameHit_iff (junk : Junk) (name : CString) (d : KernelDev) : nameHit name junk d = true ↔
    Mistaken junk name d ∨ d.partname = some name ∧ ¬ Missed junk name d := by
  rw [nameHit, Bool.or_eq_true, beq_iff_eq, numbersHit, beq_iff_eq, Mistaken, Missed]
  by_cases hname : d.partname = some name
  · rw [hname, Option.map_some, Option.some.injEq]
    by_cases hstored : storedName name = name <;> simp [hstored]
  · simp [hname, or_comm]

theorem nameClear_iff (devs : List KernelDev) (junk : Junk) (name : CString) :
    NameClear devs junk name ↔ ¬ NameShadowed devs junk name := by
  constructor
  · rintro ⟨hfirst, hnone⟩ (⟨before, e, after, rfl, he, hbefore⟩ | ⟨⟨d, hd, hname⟩, hall⟩)
    · -- the first device that is found is not one of the name
      have hhit : nameHit name junk e = true := (nameHit_iff junk name e).mpr (Or.inl he)
      obtain ⟨f, hf⟩ := exists_first (List.mem_append_right before List.mem_cons_self) hhit
      have hfname := hfirst f hf
      rcases List.mem_append.mp (hf.mem_of_append hhit) with hmem | hmem
      · rcases (nameHit_iff junk name f).mp hf.holds with hm | ⟨-, hm⟩
        · exact hm.1 hfname
        · exact hm (hbefore f hmem hfname)
      · obtain rfl := List.mem_singleton.mp hmem
        exact he.1 hfname
    · refine hnone (fun e he => ?_) d hd hname
      by_contra hhit
      rcases (nameHit_iff junk name e).mp (by simpa using hhit) with hm | ⟨hn, hm⟩
      · exact (hall e he).1 hm
      · exact hm ((hall e he).2 hn)
  · intro h
    refine ⟨fun d hd => ?_, fun hnone d hd hname => h (Or.inr ⟨⟨d, hd, hname⟩, fun e he => ?_⟩)⟩
    · by_contra hname
      obtain ⟨before, after, hsplit, hhit, hbefore⟩ := hd
      have hd : Mistaken junk name d :=
        ((nameHit_iff junk name d).mp hhit).resolve_right fun hn => hname hn.1
      refine h (Or.inl ⟨before, d, after, hsplit, hd, fun e he hn => ?_⟩)
      by_contra hm
      have hhit' := (nameHit_iff junk name e).mpr (Or.inr ⟨hn, hm⟩)
      rw [hbefore e he] at hhit'
      cases hhit'
    · have hno : ¬ nameHit name junk e = true := by
        rw [hnone e he]
        decide
      rw [nameHit_iff, not_or, not_and, not_not] at hno
      exact hno

/-- **Lookups are right exactly if** no other device gets in the way: for numbers a device that is no
mmc partition, for names one with the numbers that the locals start with or one whose name is stored as
the one that is looked up, and the name itself is not stored as another. -/
theorem lookups_right_iff (dir : List DirEntry) (devs : List KernelDev)
    (hdir : dir.filter (·.link) = devs.map fun d => ⟨true, some d.text⟩) (hok : ∀ d ∈ devs, d.Ok)
    (hnodup : (devs.map (·.devname)).Nodup) :
    ∃ info, getBlockDevices dir = some info ∧
      (∀ junk x y, NumberRight info devs junk x y ↔ ¬ Shadowed devs x y) ∧
      ∀ junk path, strstr path "by-name".toList = true →
        (NameRight info devs junk path ↔ ¬ NameShadowed devs junk (basename path)) :=
  ⟨devs.map entryOf, getBlockDevices_eq hdir hok, numberRight_iff hok hnodup,
    fun junk _ hname => (nameRight_iff hnodup junk hname).trans (nameClear_iff devs junk _)⟩

/-- A disk with one partition that is listed before the flash memory and its partition. -/
def diskFirst : List KernelDev :=
  [⟨8, 1, "sda1".toList, [], some (1, some "boot".toList)⟩, ⟨179, 0, "mmcblk0".toList, [], none⟩,
    ⟨179, 1, "mmcblk0p1".toList, [], some (1, some "system".toList)⟩]

theorem KernelDev.ok_of_scan {d : KernelDev} {part : ℕ × ℕ}
    (hscan : scanMmc "mmcblk".toList d.devname = some part)
    (hpart : part.1 < 2 ^ 31 ∧ part.2 < 2 ^ 31 ∧ d.devname = mmcName "mmcblk".toList part.1 part.2)
    (x y : ℕ) (h : scanMmc "mmcblk".toList d.devname = some (x, y)) :
    x < 2 ^ 31 ∧ y < 2 ^ 31 ∧ d.devname = mmcName "mmcblk".toList x y := by
  rw [hscan] at h
  cases h
  exact hpart

theorem diskFirst_ok : ∀ d ∈ diskFirst, d.Ok := by
  intro d hd
  simp only [diskFirst, List.mem_cons, List.not_mem_nil, or_false] at hd
  rcases hd with rfl | rfl | rfl
  all_goals
    refine ⟨by decide, by decide, ⟨by decide, by decide, List.all_eq_true.mp (by decide)⟩, ?_, ?_, ?_,
      by decide⟩
  · exact fun x y h => by cases h
  · exact fun p hp => by cases hp; decide
  · exact fun name hname => by cases hname; decide
  · exact fun x y h => by cases h
  · exact fun p hp => by cases hp
  · exact fun name hname => by cases hname
  · exact KernelDev.ok_of_scan rfl (by decide)
  · exact fun p hp => by cases hp; decide
  · exact fun name hname => by cases hname; decide

/-- `/sys/class/block` with these devices. -/
def sysClassBlock (devs : List KernelDev) : List DirEntry := devs.map fun d => ⟨true, some d.text⟩

theorem filter_sysClassBlock (devs : List KernelDev) :
    (sysClassBlock devs).filter (·.link) = devs.map fun d => ⟨true, some d.text⟩ := by
  rw [sysClassBlock, List.filter_eq_self]
  intro dt hdt
  obtain ⟨d, -, rfl⟩ := List.mem_map.mp hdt
  rfl

theorem lookups_right_iff_diskFirst : ∃ info, getBlockDevices (sysClassBlock diskFirst) = some info ∧
    (∀ junk x y, NumberRight info diskFirst junk x y ↔ ¬ Shadowed diskFirst x y) ∧
    ∀ junk path, strstr path "by-name".toList = true →
      (NameRight info diskFirst junk path ↔ ¬ NameShadowed diskFirst junk (basename path)) :=
  lookups_right_iff (sysClassBlock diskFirst) diskFirst (filter_sysClassBlock _) diskFirst_ok
    (by decide)

def byNameSystem : CString := "/dev/block/platform/msm_sdcc.1/by-name/system".toList

/-- `mmcblk0p1` is found as `sda1`, and `by-name/system` as the whole disk if the locals start with
zeros. -/
theorem wrong_partition_found : (∀ d ∈ diskFirst, d.Ok) ∧ (diskFirst.map (·.devname)).Nodup ∧
    ∃ info, getBlockDevices (sysClassBlock diskFirst) = some info ∧
      (getBlockinfoForPath (0, 0) info (blkName 0 1)).bind (·.devname) = some "sda1".toList ∧
      (getBlockinfoForPath (0, 0) info byNameSystem).bind (·.devname) = some "mmcblk0".toList ∧
      ¬ NumberRight info diskFirst (0, 0) 0 1 ∧ ¬ NameRight info diskFirst (0, 0) byNameSystem := by
  refine ⟨diskFirst_ok, by decide, diskFirst.map entryOf,
    getBlockDevices_eq (filter_sysClassBlock _) diskFirst_ok, by decide, by decide, ?_, ?_⟩
  · rw [NumberRight]
    decide
  rintro ⟨d, hd, hentry, hpart⟩
  simp only [diskFirst, List.mem_cons, List.not_mem_nil, or_false] at hd
  rcases hd with rfl | rfl | rfl
  · exact absurd hpart (by decide)
  · exact absurd hpart (by decide)
  · exact absurd hentry (by decide)

end Multiboot
