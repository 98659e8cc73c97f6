import Multiboot.DeviceLookup
import Multiboot.EnvPrepare

/-!
# The names of a device

`translate_fstab_rec` replaces the name in an fstab by `/dev/block/mmcblk%up%u` with the two numbers
of the entry it finds.  `nameKept_iff` says for which devices the new name leads back to the entry, and
to the node that was made for it.
-/

namespace Multiboot

open Lib

/-! ### Nodes -/

/-- `makedev(event->linux_major, event->linux_minor)`. -/
def SysBlockUevent.dev (event : SysBlockUevent) : Dev := ⟨event.linuxMajor, event.linuxMinor⟩

/-- The node for one entry: its path and its device number. -/
def createNode (path : CString) (event : SysBlockUevent) : CString × Dev :=
  (snprintf PATH_MAX (path ++ "/block/".toList ++ showS event.devname), event.dev)

/-- `uevent_create_nodes`: the calls of `mknod`; one for a path that there is already fails. -/
def ueventCreateNodes (info : List SysBlockUevent) (path : CString) : List (CString × Dev) :=
  info.map (createNode path)

theorem length_blkName_le {x y : ℕ} (hx : x < 2 ^ 31) (hy : y < 2 ^ 31) :
    (blkName x y).length ≤ 38 := by
  have hdigits : ∀ n, n < 2 ^ 31 → (showU n).length ≤ 10 := fun n hn => showU_length_le (by omega)
  have hx' := hdigits x hx
  have hy' := hdigits y hy
  simp only [blkName, mmcName, List.length_append, List.length_singleton]
  have hlit : "/dev/block/mmcblk".toList.length = 17 := by decide
  omega

/-- The node of a device is named after `DEVNAME`. -/
theorem createNode_entryOf {d : KernelDev} (h : d.Ok) :
    createNode PATH_MOUNTPOINT_DEV (entryOf d) =
      ("/multiboot/dev/block/".toList ++ d.devname, ⟨d.major, d.minor⟩) := by
  have hlen := h.devname.2.1
  rw [createNode, snprintf_of_lt]
  · rfl
  · show ("/multiboot/dev/block/".toList ++ d.devname).length < PATH_MAX
    rw [List.length_append, show "/multiboot/dev/block/".toList.length = 21 by decide, PATH_MAX]
    omega

theorem multiboot_blkName (x y : ℕ) : "/multiboot".toList ++ blkName x y =
    "/multiboot/dev/block/".toList ++ mmcName "mmcblk".toList x y := by
  simp only [blkName, mmcName, ← List.append_assoc]
  rfl

theorem KernelDev.Ok.partNumbers_lt {d : KernelDev} (h : d.Ok) :
    d.partNumbers.1 < 2 ^ 31 ∧ d.partNumbers.2 < 2 ^ 31 := by
  rw [KernelDev.partNumbers]
  cases hscan : scanMmc "mmcblk".toList d.devname with
  | none => exact ⟨Nat.pos_of_ne_zero (by decide), h.diskNumber_lt⟩
  | some part =>
    obtain ⟨hx, hy, -⟩ := h.canonical part.1 part.2 hscan
    exact ⟨hx, hy⟩

/-- The new name is the name of a device exactly if this is an mmc partition. -/
theorem mmcName_partNumbers_iff {d : KernelDev} (h : d.Ok) :
    mmcName "mmcblk".toList d.partNumbers.1 d.partNumbers.2 = d.devname ↔
      (scanMmc "mmcblk".toList d.devname).isSome = true := by
  constructor
  · intro heq
    rw [← heq, scanMmc_show]
    rfl
  · intro hsome
    obtain ⟨part, hscan⟩ := Option.isSome_iff_exists.mp hsome
    rw [KernelDev.partNumbers, hscan]
    exact (h.canonical part.1 part.2 hscan).2.2.symm

/-- The new name is not cut. -/
theorem partSource_newName {d : KernelDev} (h : d.Ok) {r : FstabRec}
    (hr : r.blkDevice = blkName d.partNumbers.1 d.partNumbers.2) :
    partSource r = "/multiboot".toList ++ blkName d.partNumbers.1 d.partNumbers.2 := by
  obtain ⟨hx, hy⟩ := h.partNumbers_lt
  have hlen := length_blkName_le hx hy
  have hlit : "/multiboot".toList.length = 10 := by decide
  rw [partSource, hr, snprintf_of_lt]
  rw [List.length_append, PATH_MAX]
  omega

/-! ### Lookups by any path -/

/-- The loop of `get_blockinfo_for_path` stops at a device. -/
def pathHit (junk : Junk) (path : CString) (d : KernelDev) : Bool :=
  if strstr path "by-name".toList then nameHit (basename path) junk d
  else (scanMmc "/dev/block/mmcblk".toList path).any fun part => numbersHit part d

theorem getBlockinfoForPath_map (junk : Junk) (devs : List KernelDev) (path : CString) :
    getBlockinfoForPath junk (devs.map entryOf) path =
      (devs.find? (pathHit junk path)).map entryOf := by
  rw [getBlockinfoForPath]
  cases hname : strstr path "by-name".toList with
  | true =>
    have hhit : pathHit junk path = nameHit (basename path) junk := by
      funext d
      rw [pathHit, if_pos hname]
    rw [if_pos rfl, findUevent_name, hhit]
  | false =>
    have hhit : pathHit junk path =
        fun d => (scanMmc "/dev/block/mmcblk".toList path).any fun part => numbersHit part d := by
      funext d
      rw [pathHit, if_neg (by rw [hname]; decide)]
    rw [if_neg (by decide), hhit]
    cases scanMmc "/dev/block/mmcblk".toList path with
    | none => simp
    | some part => exact findUevent_number part devs

/-- A lookup by the new name of a device finds the first one with its two numbers. -/
theorem getBlockinfoForPath_newName {d : KernelDev} (h : d.Ok) (junk : Junk)
    (devs : List KernelDev) :
    getBlockinfoForPath junk (devs.map entryOf) (blkName d.partNumbers.1 d.partNumbers.2) =
      (devs.find? (numbersHit d.partNumbers)).map entryOf := by
  obtain ⟨hx, hy⟩ := h.partNumbers_lt
  rw [getBlockinfoForPath_blkName, clampU_of_lt (by omega), clampU_of_lt (by omega),
    findUevent_number]

/-! ### Translation -/

/-- The name `q` leads to `event` as `path` has done.  `junk` and `junkStat` are the unassigned locals
of `uevent_realpath` and `uevent_stat` on `path`. -/
structure NameKept (info : List SysBlockUevent) (junk junkStat : Junk) (path q : CString)
    (event : SysBlockUevent) : Prop where
  lookup : ∀ j, getBlockinfoForPath j info q = some event
  realpath : ∀ j, ueventRealpath j info q = some q
  stat : ∀ j, ueventStat junkStat info path = ueventStat j info q
  node : First (·.1 == "/multiboot".toList ++ q) (ueventCreateNodes info PATH_MOUNTPOINT_DEV)
    (createNode PATH_MOUNTPOINT_DEV event)
  /-- The name, the number and the node that are used after `translate_fstab_rec`. -/
  translated : ∀ r j, r.blkDevice = path →
    (translateFstabRec (junk, j) info r).blkDevice = q ∧
    (translateFstabRec (junk, j) info r).stRdev = event.dev ∧
    partSource (translateFstabRec (junk, j) info r) = "/multiboot".toList ++ q

/-- `path` leads to an mmc partition with no other device of its two numbers before it, and to a
device of the same number in the call of `uevent_stat`. -/
def Nameable (devs : List KernelDev) (junk junkStat : Junk) (path : CString) : Prop :=
  ∃ d e, First (pathHit junk path) devs d ∧ First (pathHit junkStat path) devs e ∧
    (e.major, e.minor) = (d.major, d.minor) ∧
    (scanMmc "mmcblk".toList d.devname).isSome = true ∧ First (numbersHit d.partNumbers) devs d

theorem translateFstabRec_of_stat {junk : Junk × Junk} {info : List SysBlockUevent} {r : FstabRec}
    {q : CString} {dev : Dev} (hq : ueventRealpath junk.1 info r.blkDevice = some q)
    (hdev : ueventStat junk.2 info q = some dev) :
    translateFstabRec junk info r = { r with blkDevice := q, statbuf := some dev } := by
  simp only [translateFstabRec, hq, Option.getD_some, hdev]

/-- No other device has a node of this name. -/
theorem first_node {devs : List KernelDev} (hok : ∀ d ∈ devs, d.Ok)
    (hnodup : (devs.map (·.devname)).Nodup) {d : KernelDev} (hd : d ∈ devs) :
    First (·.1 == "/multiboot/dev/block/".toList ++ d.devname)
      (ueventCreateNodes (devs.map entryOf) PATH_MOUNTPOINT_DEV)
      (createNode PATH_MOUNTPOINT_DEV (entryOf d)) := by
  obtain ⟨before, after, rfl⟩ := List.append_of_mem hd
  refine ⟨(before.map entryOf).map (createNode PATH_MOUNTPOINT_DEV),
    (after.map entryOf).map (createNode PATH_MOUNTPOINT_DEV), ?_, ?_, ?_⟩
  · rw [ueventCreateNodes, List.map_append, List.map_append, List.map_cons, List.map_cons]
  · rw [createNode_entryOf (hok d hd)]
    exact beq_self_eq_true _
  · intro node hnode
    rw [List.map_map] at hnode
    obtain ⟨e, he, rfl⟩ := List.mem_map.mp hnode
    have hmem : e ∈ before ++ d :: after := List.mem_append_left _ he
    rw [Function.comp_apply, createNode_entryOf (hok e hmem), beq_eq_false_iff_ne]
    intro heq
    have hname : e.devname = d.devname := List.append_cancel_left heq
    obtain rfl := List.inj_on_of_nodup_map hnodup hmem hd hname
    rw [List.map_append, List.map_cons] at hnodup
    exact (List.nodup_middle.mp hnodup).notMem
      (List.mem_append_left _ (List.mem_map_of_mem he))

theorem nameKept_of_nameable {devs : List KernelDev} (hok : ∀ d ∈ devs, d.Ok)
    (hnodup : (devs.map (·.devname)).Nodup) {junk junkStat : Junk} {path : CString}
    {d e : KernelDev} (hd : First (pathHit junk path) devs d)
    (he : First (pathHit junkStat path) devs e) (hnumber : (e.major, e.minor) = (d.major, d.minor))
    (hmmc : (scanMmc "mmcblk".toList d.devname).isSome = true)
    (hfirst : First (numbersHit d.partNumbers) devs d) :
    NameKept (devs.map entryOf) junk junkStat path (blkName d.partNumbers.1 d.partNumbers.2)
      (entryOf d) := by
  have hdok := hok d hd.mem
  have hlookup : ∀ j, getBlockinfoForPath j (devs.map entryOf)
      (blkName d.partNumbers.1 d.partNumbers.2) = some (entryOf d) := by
    intro j
    rw [getBlockinfoForPath_newName hdok, first_iff.mp hfirst, Option.map_some]
  have hpath : ueventRealpath junk (devs.map entryOf) path =
      some (blkName d.partNumbers.1 d.partNumbers.2) := by
    rw [ueventRealpath, getBlockinfoForPath_map, first_iff.mp hd]
    rfl
  have hstat : ∀ j, ueventStat j (devs.map entryOf) (blkName d.partNumbers.1 d.partNumbers.2) =
      some (entryOf d).dev := by
    intro j
    rw [ueventStat, hlookup j]
    rfl
  refine ⟨hlookup, fun j => ?_, fun j => ?_, ?_, ?_⟩
  · rw [ueventRealpath, hlookup j]
    rfl
  · rw [hstat j, ueventStat, getBlockinfoForPath_map, first_iff.mp he]
    obtain ⟨hmajor, hminor⟩ := Prod.mk.inj hnumber
    show some (Dev.mk e.major e.minor) = some ⟨d.major, d.minor⟩
    rw [hmajor, hminor]
  · rw [multiboot_blkName, (mmcName_partNumbers_iff hdok).mpr hmmc]
    exact first_node hok hnodup hd.mem
  · rintro r j rfl
    have htranslate : translateFstabRec (junk, j) (devs.map entryOf) r =
        { r with
          blkDevice := blkName d.partNumbers.1 d.partNumbers.2
          statbuf := some (entryOf d).dev } := translateFstabRec_of_stat hpath (hstat j)
    rw [htranslate]
    exact ⟨rfl, rfl, partSource_newName hdok rfl⟩

theorem nameable_of_nameKept {devs : List KernelDev} (hok : ∀ d ∈ devs, d.Ok)
    (hnodup : (devs.map (·.devname)).Nodup) {junk junkStat : Junk} {path : CString} {d : KernelDev}
    (hd : First (pathHit junk path) devs d)
    (h : NameKept (devs.map entryOf) junk junkStat path (blkName d.partNumbers.1 d.partNumbers.2)
      (entryOf d)) :
    Nameable devs junk junkStat path := by
  have hdok := hok d hd.mem
  have hlookup := h.lookup (0, 0)
  rw [getBlockinfoForPath_newName hdok] at hlookup
  obtain ⟨d', hd', hentry⟩ := Option.map_eq_some_iff.mp hlookup
  have hfirst : First (numbersHit d.partNumbers) devs d' := first_iff.mpr hd'
  obtain rfl := entryOf_inj hnodup hfirst.mem hd.mem hentry
  have hnode := h.node.holds
  rw [createNode_entryOf hdok, multiboot_blkName] at hnode
  have hname := List.append_cancel_left (eq_of_beq hnode)
  have hstat := h.stat (0, 0)
  rw [ueventStat, ueventStat, h.lookup, getBlockinfoForPath_map, Option.map_map,
    Option.map_some] at hstat
  obtain ⟨e, he, hdev⟩ := Option.map_eq_some_iff.mp hstat
  obtain ⟨hmajor, hminor⟩ := Dev.mk.inj hdev
  exact ⟨d', e, hd, first_iff.mpr he, Prod.ext hmajor hminor,
    (mmcName_partNumbers_iff hdok).mp hname.symm, hfirst⟩

/-- **Translating a name keeps the device exactly if** it is an mmc partition and no device before it
has the same two numbers. -/
theorem nameKept_iff (dir : List DirEntry) (devs : List KernelDev)
    (hdir : dir.filter (·.link) = devs.map fun d => ⟨true, some d.text⟩) (hok : ∀ d ∈ devs, d.Ok)
    (hnodup : (devs.map (·.devname)).Nodup) :
    ∃ info, getBlockDevices dir = some info ∧ ∀ junk junkStat path event q,
      getBlockinfoForPath junk info path = some event → ueventRealpath junk info path = some q →
      (NameKept info junk junkStat path q event ↔ Nameable devs junk junkStat path) := by
  refine ⟨devs.map entryOf, getBlockDevices_eq hdir hok, fun junk junkStat path event q hevent hq => ?_⟩
  rw [ueventRealpath, hevent] at hq
  rw [getBlockinfoForPath_map] at hevent
  obtain ⟨d, hd, rfl⟩ := Option.map_eq_some_iff.mp hevent
  have hfirst : First (pathHit junk path) devs d := first_iff.mpr hd
  have hname : q = blkName d.partNumbers.1 d.partNumbers.2 := (Option.some.inj hq).symm
  rw [hname]
  constructor
  · exact nameable_of_nameKept hok hnodup hfirst
  · rintro ⟨d', e, hd', he, hnumber, hmmc, hnumbers⟩
    obtain rfl := hd'.unique hfirst
    exact nameKept_of_nameable hok hnodup hd' he hnumber hmmc hnumbers

theorem nameKept_iff_diskFirst : ∃ info, getBlockDevices (sysClassBlock diskFirst) = some info ∧
    ∀ junk junkStat path event q,
      getBlockinfoForPath junk info path = some event → ueventRealpath junk info path = some q →
      (NameKept info junk junkStat path q event ↔ Nameable diskFirst junk junkStat path) :=
  nameKept_iff (sysClassBlock diskFirst) diskFirst (filter_sysClassBlock _) diskFirst_ok (by decide)

def byNameBoot : CString := "/dev/block/platform/msm_sdcc.1/by-name/boot".toList

/-- `by-name/boot` is `sda1` (8:1), and the node under its new name is that of `mmcblk0p1` (179:1). -/
theorem node_of_other_device : (∀ d ∈ diskFirst, d.Ok) ∧ (diskFirst.map (·.devname)).Nodup ∧
    ∃ info event, getBlockDevices (sysClassBlock diskFirst) = some info ∧
      getBlockinfoForPath (9, 9) info byNameBoot = some event ∧ event.dev = ⟨8, 1⟩ ∧
      ueventRealpath (9, 9) info byNameBoot = some (blkName 0 1) ∧
      (ueventCreateNodes info PATH_MOUNTPOINT_DEV).find? (·.1 == "/multiboot".toList ++ blkName 0 1) =
        some ("/multiboot/dev/block/mmcblk0p1".toList, ⟨179, 1⟩) ∧
      ¬ NameKept info (9, 9) (9, 9) byNameBoot (blkName 0 1) event := by
  refine ⟨diskFirst_ok, by decide, diskFirst.map entryOf, _,
    getBlockDevices_eq (filter_sysClassBlock _) diskFirst_ok, rfl, rfl, by decide, by decide, ?_⟩
  intro h
  exact absurd h.node.holds (by decide)

end Multiboot
