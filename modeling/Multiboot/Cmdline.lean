import Multiboot.Numerals
import Multiboot.Lib.Run
import Mathlib.Data.List.TakeWhile

/-!
# The kernel command line

`importKernelCmdline` cuts the command line into tokens and gives each to `importKernelNv`, which
fills in the boot parameters.  The branch of `multiboot.grubdir` tests a local variable that only the
branch of `multiboot.source` assigns, so a call comes with the value `rc` starts with.
`consistent_iff` says when the parameters stay in step.
-/

namespace Multiboot

open Lib

/-! ### Reading the line -/

/-- The buffer after `read` (`none`: it fails), less a newline at the end; a text ends at a NUL. -/
def readCmdline (file : Option CString) : CString :=
  let cmdline := (file.getD []).take 1023
  let cmdline := if cmdline.getLast? = some '\n' then cmdline.dropLast else cmdline
  cmdline.takeWhile (· != nul)

/-- The tokens of the loop: a token ends at a space, and the end of the line starts none. -/
def cmdlineTokens : CString → List CString
  | [] => []
  | c :: ptr =>
    if c = ' ' then [] :: cmdlineTokens ptr
    else
      match cmdlineTokens ptr with
      | [] => [[c]]
      | token :: tokens =>
        -- a space behind `c` has left an empty token there
        (c :: token) :: tokens

example : cmdlineTokens "a=1  b ".toList = ["a=1".toList, [], "b".toList] := rfl

/-! ### Boot parameters -/

/-- The fields of `multiboot_device` or `grub_device` that are set. -/
structure NvDevice where
  blkDevice : Option CString
  mountPoint : Option CString
  deriving DecidableEq, Repr

/-- The part of `module_data` that `import_kernel_nv` fills in, and the level of the log. -/
structure NvData where
  multibootEnabled : Bool
  sndstageEnabled : Bool
  hwName : Option CString
  multibootPath : Option CString
  multibootDevice : NvDevice
  grubPath : Option CString
  grubDevice : NvDevice
  klogLevel : ℕ
  deriving DecidableEq, Repr

def NvData.cleared : NvData := ⟨false, false, none, none, ⟨none, none⟩, none, ⟨none, none⟩, 5⟩

def MULTIBOOT_SOURCE : CString := "multiboot.source".toList
def MULTIBOOT_GRUBDIR : CString := "multiboot.grubdir".toList
def MULTIBOOT_2NDSTAGE : CString := "multiboot.2ndstage".toList
def MULTIBOOT_DEBUG : CString := "multiboot.debug".toList
def ANDROIDBOOT_HARDWARE : CString := "androidboot.hardware".toList
def MULTIBOOT_UMS : CString := "multiboot.ums".toList

/-- `%s` of `scanf`. -/
def scanS (s : CString) : Option CString :=
  let word := (s.dropWhile isspace).takeWhile (fun c => !isspace c)
  if word = [] then none else some word

/-- `sscanf(value, "(hd%u,%u)%s", ..) == 3`, with what it stores. -/
def scanHd (value : CString) : Option MmcParam := do
  let s ← scanLit "(hd".toList value
  let (mmcDevice, s) ← scanU s
  let s ← scanLit [','] s
  let (mmcPart, s) ← scanU s
  let s ← scanLit [')'] s
  let buf ← scanS s
  some ⟨mmcDevice, mmcPart, buf⟩

/-- `rc < 0 || rc >= (int)sizeof(buf)`. -/
def snprintfFailed (rc : ℤ) : Prop := rc < 0 ∨ (PATH_MAX : ℤ) ≤ rc

instance (rc : ℤ) : Decidable (snprintfFailed rc) := by
  unfold snprintfFailed
  infer_instance

/-- The branch of `multiboot.source`. -/
def importSource (value : CString) (data : NvData) : NvData :=
  match scanHd value with
  | none => data
  | some p =>
    let rc : ℤ := p.blkDevice.length
    if snprintfFailed rc then { data with multibootPath := none }
    else
      { data with
        multibootPath := some p.path
        multibootDevice := ⟨some (snprintf PATH_MAX p.blkDevice), some PATH_MOUNTPOINT_SOURCE⟩
        multibootEnabled := true }

/-- The branch of `multiboot.grubdir`: nothing is assigned to `rc`. -/
def importGrubdir (rc : ℤ) (value : CString) (data : NvData) : NvData :=
  match scanHd value with
  | none => data
  | some p =>
    if snprintfFailed rc then { data with grubPath := none }
    else
      { data with
        grubPath := some p.path
        grubDevice := ⟨some (snprintf PATH_MAX p.blkDevice), some PATH_MOUNTPOINT_GRUB⟩ }

/-- The name and the value of a token, if it has a `=`. -/
def splitNv (token : CString) : Option (CString × CString) :=
  if '=' ∈ token then
    some (token.takeWhile (· != '='), (token.dropWhile (· != '=')).tail)
  else none

/-- `import_kernel_nv`, where `rc` starts with this value (`none`: it runs `/init` itself and never
returns). -/
def importKernelNv (rc : ℤ) (token : CString) (data : NvData) : Option NvData :=
  match splitNv token with
  | none => some data
  | some (name, value) =>
    if name = MULTIBOOT_SOURCE then some (importSource value data)
    else if name = MULTIBOOT_GRUBDIR then some (importGrubdir rc value data)
    else if name = MULTIBOOT_2NDSTAGE then
      match scanU value with
      | none => some data
      | some (val, _) => some { data with sndstageEnabled := val != 0 }
    else if name = MULTIBOOT_DEBUG then
      match scanU value with
      | none => some data
      | some (val, _) => some { data with klogLevel := val }
    else if name = ANDROIDBOOT_HARDWARE then some { data with hwName := some value }
    else if name = MULTIBOOT_UMS then none
    else some data

/-- A call of `import_kernel_nv`: the value `rc` starts with, and the token. -/
abbrev NvCall := ℤ × CString

def nvStep (data : NvData) (call : NvCall) : Option NvData := importKernelNv call.1 call.2 data

/-- The calls for the line read; `junk i` is what `rc` starts with in the `i`-th. -/
def nvCalls (junk : ℕ → ℤ) (file : Option CString) : List NvCall :=
  (cmdlineTokens (readCmdline file)).mapIdx fun i token => (junk i, token)

def importKernelCmdline (junk : ℕ → ℤ) (file : Option CString) : Option NvData :=
  run nvStep .cleared (nvCalls junk file)

/-! ### What one call does -/

/-- The value that a token gives to a name. -/
def nvValue (key token : CString) : Option CString :=
  (splitNv token).bind fun nv => if nv.1 = key then some nv.2 else none

/-- A value that `sscanf` accepts, in a call where `rc` starts with this value. -/
structure Accepted where
  rc : ℤ
  value : CString
  param : MmcParam

def accept (key : CString) (call : NvCall) : Option Accepted :=
  (nvValue key call.2).bind fun value => (scanHd value).map fun param => ⟨call.1, value, param⟩

/-- The device of an accepted value. -/
def nvDevice (mountPoint : CString) (p : MmcParam) : NvDevice := ⟨some p.blkDevice, some mountPoint⟩

/-- What a call makes of the parameters. -/
structure NvStep (data : NvData) (call : NvCall) (data' : NvData) : Prop where
  source : match accept MULTIBOOT_SOURCE call with
    | none => data'.multibootPath = data.multibootPath ∧
        data'.multibootDevice = data.multibootDevice ∧
        data'.multibootEnabled = data.multibootEnabled
    | some a => data'.multibootPath = some a.param.path ∧
        data'.multibootDevice = nvDevice PATH_MOUNTPOINT_SOURCE a.param ∧
        data'.multibootEnabled = true
  grub : match accept MULTIBOOT_GRUBDIR call with
    | none => data'.grubPath = data.grubPath ∧ data'.grubDevice = data.grubDevice
    | some a =>
      if snprintfFailed a.rc then data'.grubPath = none ∧ data'.grubDevice = data.grubDevice
      else data'.grubPath = some a.param.path ∧
        data'.grubDevice = nvDevice PATH_MOUNTPOINT_GRUB a.param
  hardware : data'.hwName = (nvValue ANDROIDBOOT_HARDWARE call.2).or data.hwName

theorem snprintf_blkDevice (p : MmcParam) :
    ¬ snprintfFailed p.blkDevice.length ∧ snprintf PATH_MAX p.blkDevice = p.blkDevice := by
  have hlen := p.blkDevice_length
  have hmax : PATH_MAX = 4096 := rfl
  constructor
  · rintro (h | h) <;> omega
  · exact List.take_of_length_le (by omega)

theorem importSource_of_none {value : CString} {data : NvData} (h : scanHd value = none) :
    importSource value data = data := by
  simp only [importSource, h]

theorem importSource_of_some {value : CString} {p : MmcParam} {data : NvData}
    (h : scanHd value = some p) :
    importSource value data =
      { data with
        multibootPath := some p.path
        multibootDevice := nvDevice PATH_MOUNTPOINT_SOURCE p
        multibootEnabled := true } := by
  obtain ⟨hok, htext⟩ := snprintf_blkDevice p
  simp only [importSource, h, if_neg hok, htext]
  rfl

theorem importGrubdir_of_none {rc : ℤ} {value : CString} {data : NvData} (h : scanHd value = none) :
    importGrubdir rc value data = data := by
  simp only [importGrubdir, h]

theorem importGrubdir_of_some {rc : ℤ} {value : CString} {p : MmcParam} {data : NvData}
    (h : scanHd value = some p) :
    importGrubdir rc value data =
      if snprintfFailed rc then { data with grubPath := none }
      else
        { data with
          grubPath := some p.path
          grubDevice := nvDevice PATH_MOUNTPOINT_GRUB p } := by
  simp only [importGrubdir, h, (snprintf_blkDevice p).2]
  rfl

theorem nvValue_of_split {token name value : CString} (h : splitNv token = some (name, value))
    (key : CString) : nvValue key token = if name = key then some value else none := by
  rw [nvValue, h]
  rfl

/-- A call that belongs to none of the three names leaves their fields. -/
theorem nvStep_other {data data' : NvData} {call : NvCall}
    (hs : nvValue MULTIBOOT_SOURCE call.2 = none) (hg : nvValue MULTIBOOT_GRUBDIR call.2 = none)
    (hh : nvValue ANDROIDBOOT_HARDWARE call.2 = none)
    (h : data'.multibootPath = data.multibootPath ∧ data'.multibootDevice = data.multibootDevice ∧
      data'.multibootEnabled = data.multibootEnabled ∧ data'.grubPath = data.grubPath ∧
      data'.grubDevice = data.grubDevice ∧ data'.hwName = data.hwName) :
    NvStep data call data' := by
  obtain ⟨h1, h2, h3, h4, h5, h6⟩ := h
  refine ⟨?_, ?_, ?_⟩
  · rw [accept, hs]
    exact ⟨h1, h2, h3⟩
  · rw [accept, hg]
    exact ⟨h4, h5⟩
  · rw [hh, h6]
    rfl

theorem nvStep_source {data : NvData} {call : NvCall} {value : CString}
    (h : splitNv call.2 = some (MULTIBOOT_SOURCE, value)) :
    NvStep data call (importSource value data) := by
  have hvalue := nvValue_of_split h
  have hg : nvValue MULTIBOOT_GRUBDIR call.2 = none := by rw [hvalue, if_neg (by decide)]
  have hh : nvValue ANDROIDBOOT_HARDWARE call.2 = none := by rw [hvalue, if_neg (by decide)]
  have hs : accept MULTIBOOT_SOURCE call = (scanHd value).map fun p => ⟨call.1, value, p⟩ := by
    rw [accept, hvalue, if_pos rfl, Option.bind_some]
  cases hp : scanHd value with
  | none =>
    rw [importSource_of_none hp]
    refine ⟨?_, ?_, ?_⟩
    · rw [hs, hp]
      exact ⟨rfl, rfl, rfl⟩
    · rw [accept, hg]
      exact ⟨rfl, rfl⟩
    · rw [hh]
      rfl
  | some p =>
    rw [importSource_of_some hp]
    refine ⟨?_, ?_, ?_⟩
    · rw [hs, hp]
      exact ⟨rfl, rfl, rfl⟩
    · rw [accept, hg]
      exact ⟨rfl, rfl⟩
    · rw [hh]
      rfl

theorem nvStep_grubdir {data : NvData} {call : NvCall} {value : CString}
    (h : splitNv call.2 = some (MULTIBOOT_GRUBDIR, value)) :
    NvStep data call (importGrubdir call.1 value data) := by
  have hvalue := nvValue_of_split h
  have hs : nvValue MULTIBOOT_SOURCE call.2 = none := by rw [hvalue, if_neg (by decide)]
  have hh : nvValue ANDROIDBOOT_HARDWARE call.2 = none := by rw [hvalue, if_neg (by decide)]
  have hg : accept MULTIBOOT_GRUBDIR call = (scanHd value).map fun p => ⟨call.1, value, p⟩ := by
    rw [accept, hvalue, if_pos rfl, Option.bind_some]
  refine ⟨?_, ?_, ?_⟩
  · rw [accept, hs]
    cases hp : scanHd value with
    | none =>
      rw [importGrubdir_of_none hp]
      exact ⟨rfl, rfl, rfl⟩
    | some p =>
      rw [importGrubdir_of_some hp]
      split_ifs <;> exact ⟨rfl, rfl, rfl⟩
  · rw [hg]
    cases hp : scanHd value with
    | none =>
      rw [importGrubdir_of_none hp]
      exact ⟨rfl, rfl⟩
    | some p =>
      rw [importGrubdir_of_some hp]
      by_cases hrc : snprintfFailed call.1
      · simp only [Option.map_some, if_pos hrc, and_self]
      · simp only [Option.map_some, if_neg hrc, and_self]
  · rw [hh]
    cases hp : scanHd value with
    | none =>
      rw [importGrubdir_of_none hp]
      rfl
    | some p =>
      rw [importGrubdir_of_some hp]
      split_ifs <;> rfl

theorem nvStep_spec {data data' : NvData} {call : NvCall} (h : nvStep data call = some data') :
    NvStep data call data' := by
  unfold nvStep importKernelNv at h
  cases hsplit : splitNv call.2 with
  | none =>
    rw [hsplit] at h
    obtain rfl := Option.some.inj h
    have hno : ∀ key, nvValue key call.2 = none := fun key => by rw [nvValue, hsplit]; rfl
    exact nvStep_other (hno _) (hno _) (hno _) ⟨rfl, rfl, rfl, rfl, rfl, rfl⟩
  | some nv =>
    obtain ⟨name, value⟩ := nv
    have hvalue := nvValue_of_split hsplit
    have hother : name ≠ MULTIBOOT_SOURCE → name ≠ MULTIBOOT_GRUBDIR →
        name ≠ ANDROIDBOOT_HARDWARE → ∀ next : NvData, next.multibootPath = data.multibootPath ∧
          next.multibootDevice = data.multibootDevice ∧
          next.multibootEnabled = data.multibootEnabled ∧ next.grubPath = data.grubPath ∧
          next.grubDevice = data.grubDevice ∧ next.hwName = data.hwName → NvStep data call next := by
      intro h1 h2 h3 next hnext
      exact nvStep_other (by rw [hvalue, if_neg h1]) (by rw [hvalue, if_neg h2])
        (by rw [hvalue, if_neg h3]) hnext
    simp only [hsplit] at h
    split_ifs at h with h1 h2 h3 h4 h5
    · -- multiboot.source
      subst h1
      obtain rfl := Option.some.inj h
      exact nvStep_source hsplit
    · -- multiboot.grubdir
      subst h2
      obtain rfl := Option.some.inj h
      exact nvStep_grubdir hsplit
    · -- multiboot.2ndstage
      subst h3
      refine hother (by decide) (by decide) (by decide) data' ?_
      split at h <;> obtain rfl := Option.some.inj h <;> exact ⟨rfl, rfl, rfl, rfl, rfl, rfl⟩
    · -- multiboot.debug
      subst h4
      refine hother (by decide) (by decide) (by decide) data' ?_
      split at h <;> obtain rfl := Option.some.inj h <;> exact ⟨rfl, rfl, rfl, rfl, rfl, rfl⟩
    · -- androidboot.hardware
      subst h5
      obtain rfl := Option.some.inj h
      refine ⟨?_, ?_, ?_⟩
      · rw [accept, hvalue, if_neg (by decide)]
        exact ⟨rfl, rfl, rfl⟩
      · rw [accept, hvalue, if_neg (by decide)]
        exact ⟨rfl, rfl⟩
      · rw [hvalue, if_pos rfl]
        rfl
    · obtain rfl := Option.some.inj h
      exact hother h1 h2 h5 data ⟨rfl, rfl, rfl, rfl, rfl, rfl⟩

/-! ### The parameters after the whole line -/

/-- The values of a name that `sscanf` accepts, in order. -/
def accepted (key : CString) (calls : List NvCall) : List Accepted := calls.filterMap (accept key)

/-- The last of these values. -/
def lastAccepted (key : CString) (calls : List NvCall) : Option Accepted :=
  (accepted key calls).getLast?

/-- The last accepted value of `multiboot.grubdir` whose call passes the test of `rc`. -/
def lastPassed (calls : List NvCall) : Option Accepted :=
  ((accepted MULTIBOOT_GRUBDIR calls).filter fun a => !decide (snprintfFailed a.rc)).getLast?

/-- The parameters in terms of the calls. -/
structure Imported (calls : List NvCall) (data : NvData) : Prop where
  multibootPath : data.multibootPath = (lastAccepted MULTIBOOT_SOURCE calls).map (·.param.path)
  multibootDevice : data.multibootDevice = ((lastAccepted MULTIBOOT_SOURCE calls).map fun a =>
    nvDevice PATH_MOUNTPOINT_SOURCE a.param).getD ⟨none, none⟩
  multibootEnabled : data.multibootEnabled = (lastAccepted MULTIBOOT_SOURCE calls).isSome
  grubPath : data.grubPath = (lastAccepted MULTIBOOT_GRUBDIR calls).bind fun a =>
    if snprintfFailed a.rc then none else some a.param.path
  grubDevice : data.grubDevice = ((lastPassed calls).map fun a =>
    nvDevice PATH_MOUNTPOINT_GRUB a.param).getD ⟨none, none⟩
  hwName : data.hwName.isSome =
    calls.any fun call => (nvValue ANDROIDBOOT_HARDWARE call.2).isSome

theorem accepted_concat (key : CString) (calls : List NvCall) (call : NvCall) :
    accepted key (calls ++ [call]) = accepted key calls ++ (accept key call).toList := by
  rw [accepted, List.filterMap_append]
  cases h : accept key call <;> simp [accepted, h]

theorem Imported.step {calls : List NvCall} {data data' : NvData} {call : NvCall}
    (h : Imported calls data) (hs : NvStep data call data') : Imported (calls ++ [call]) data' := by
  have hsource : data'.multibootPath =
        (lastAccepted MULTIBOOT_SOURCE (calls ++ [call])).map (·.param.path) ∧
      data'.multibootDevice = ((lastAccepted MULTIBOOT_SOURCE (calls ++ [call])).map fun a =>
        nvDevice PATH_MOUNTPOINT_SOURCE a.param).getD ⟨none, none⟩ ∧
      data'.multibootEnabled = (lastAccepted MULTIBOOT_SOURCE (calls ++ [call])).isSome := by
    have hcall := hs.source
    rw [lastAccepted, accepted_concat]
    cases ha : accept MULTIBOOT_SOURCE call with
    | none =>
      rw [ha] at hcall
      obtain ⟨h1, h2, h3⟩ := hcall
      rw [Option.toList_none, List.append_nil, h1, h2, h3]
      exact ⟨h.multibootPath, h.multibootDevice, h.multibootEnabled⟩
    | some a =>
      rw [ha] at hcall
      obtain ⟨h1, h2, h3⟩ := hcall
      rw [Option.toList_some, List.getLast?_concat, h1, h2, h3]
      exact ⟨rfl, rfl, rfl⟩
  have hgrub : data'.grubPath =
        ((lastAccepted MULTIBOOT_GRUBDIR (calls ++ [call])).bind fun a =>
          if snprintfFailed a.rc then none else some a.param.path) ∧
      data'.grubDevice = ((lastPassed (calls ++ [call])).map fun a =>
        nvDevice PATH_MOUNTPOINT_GRUB a.param).getD ⟨none, none⟩ := by
    have hcall := hs.grub
    rw [lastAccepted, lastPassed, accepted_concat]
    cases ha : accept MULTIBOOT_GRUBDIR call with
    | none =>
      rw [ha] at hcall
      obtain ⟨h1, h2⟩ := hcall
      rw [Option.toList_none, List.append_nil, h1, h2]
      exact ⟨h.grubPath, h.grubDevice⟩
    | some a =>
      rw [ha] at hcall
      rw [Option.toList_some, List.getLast?_concat, Option.bind_some, List.filter_append]
      by_cases hrc : snprintfFailed a.rc
      · obtain ⟨h1, h2⟩ : data'.grubPath = none ∧ data'.grubDevice = data.grubDevice := by
          simpa only [if_pos hrc] using hcall
        rw [h1, h2, if_pos hrc, List.filter_cons_of_neg (by simp [hrc]), List.filter_nil,
          List.append_nil]
        exact ⟨rfl, h.grubDevice⟩
      · obtain ⟨h1, h2⟩ : data'.grubPath = some a.param.path ∧
            data'.grubDevice = nvDevice PATH_MOUNTPOINT_GRUB a.param := by
          simpa only [if_neg hrc] using hcall
        rw [h1, h2, if_neg hrc, List.filter_cons_of_pos (by simp [hrc]), List.filter_nil,
          List.getLast?_concat]
        exact ⟨rfl, rfl⟩
  refine ⟨hsource.1, hsource.2.1, hsource.2.2, hgrub.1, hgrub.2, ?_⟩
  rw [hs.hardware, List.any_append, ← h.hwName]
  cases hv : nvValue ANDROIDBOOT_HARDWARE call.2 <;> simp [hv]

theorem imported_of_run {calls : List NvCall} {data : NvData}
    (h : run nvStep .cleared calls = some data) : Imported calls data := by
  induction calls using List.reverseRecOn generalizing data with
  | nil =>
    obtain rfl := Option.some.inj h
    exact ⟨rfl, rfl, rfl, rfl, rfl, rfl⟩
  | append_singleton calls call ih =>
    obtain ⟨before, hbefore, hlast⟩ := run_append.mp h
    obtain ⟨after, hstep, hafter⟩ := run_cons_iff.mp hlast
    obtain rfl : after = data := Option.some.inj hafter
    exact (ih hbefore).step (nvStep_spec hstep)

/-! ### Consistent parameters -/

/-- A path that `%s` takes as a whole. -/
def PlainPath (path : CString) : Prop := path ≠ [] ∧ ∀ c ∈ path, isspace c = false

/-- `"(hdX,Y)P"`. -/
def hdText (x y : ℕ) (path : CString) : CString :=
  "(hd".toList ++ showU x ++ [','] ++ showU y ++ [')'] ++ path

theorem hdText_append (x y : ℕ) (path : CString) : hdText x y path =
    "(hd".toList ++ (showU x ++ ([','] ++ (showU y ++ ([')'] ++ path)))) := by
  show "(hd".toList ++ showU x ++ [','] ++ showU y ++ [')'] ++ path = _
  simp only [List.append_assoc]

theorem scanS_plain {path : CString} (h : PlainPath path) : scanS path = some path := by
  obtain ⟨hne, hplain⟩ := h
  have hskip : path.dropWhile isspace = path := by
    cases path with
    | nil => rfl
    | cons c path => rw [List.dropWhile_cons_of_neg (by simp [hplain c])]
  have hword : path.takeWhile (fun c => !isspace c) = path :=
    List.takeWhile_eq_self_iff.mpr fun c hc => by simp [hplain c hc]
  rw [scanS, hskip, hword]
  exact if_neg hne

theorem scanHd_hdText {x y : ℕ} (hx : x < 2 ^ 31) (hy : y < 2 ^ 31) {path : CString}
    (hpath : PlainPath path) : scanHd (hdText x y path) = some ⟨x, y, path⟩ := by
  have hx' : clampU x = x := clampU_of_lt (by omega)
  have hy' : clampU y = y := clampU_of_lt (by omega)
  have hcomma : EndsNumber ([','] ++ (showU y ++ ([')'] ++ path))) := endsNumber_cons (by decide)
  have hclose : EndsNumber ([')'] ++ path) := endsNumber_cons (by decide)
  simp only [hdText_append, scanHd, scanLit_append, Option.bind_eq_bind,
    Option.bind_some, scanU_showU x hcomma, scanU_showU y hclose, scanS_plain hpath, hx', hy']

theorem showD_ofNat {n : ℕ} (hn : n < 2 ^ 31) : showD (BitVec.ofNat 32 n).toInt = showU n := by
  have hbits : (BitVec.ofNat 32 n).toNat = n := by
    rw [BitVec.toNat_ofNat]
    exact Nat.mod_eq_of_lt (by omega)
  have hint : (BitVec.ofNat 32 n).toInt = (n : ℤ) := by
    rw [BitVec.toInt_eq_toNat_of_lt (by rw [hbits]; omega), hbits]
  rw [hint]
  rfl

/-- Below `2 ^ 31` the `%d` of the name prints what `%u` prints. -/
theorem blkDevice_eq_blkName {x y : ℕ} (hx : x < 2 ^ 31) (hy : y < 2 ^ 31) (path : CString) :
    MmcParam.blkDevice ⟨x, y, path⟩ = blkName x y := by
  rw [MmcParam.blkDevice_def, showD_ofNat hx, showD_ofNat hy, blkName, mmcName, List.append_assoc,
    List.append_assoc]

/-- The value is of the form `(hdX,Y)P`. -/
def IsHd (value : CString) (x y : ℕ) (path : CString) : Prop :=
  x < 2 ^ 31 ∧ y < 2 ^ 31 ∧ PlainPath path ∧ value = hdText x y path

/-- If the last accepted value is `(hdX,Y)P`, the path and the device are its. -/
def FromLast (last : Option Accepted) (path blkDevice : Option CString) : Prop :=
  ∀ a x y p, last = some a → IsHd a.value x y p →
    path = some p ∧ blkDevice = some (blkName x y)

structure Consistent (calls : List NvCall) (data : NvData) : Prop where
  enabled : data.multibootEnabled = true ↔
    data.multibootPath.isSome = true ∧ data.multibootDevice.blkDevice.isSome = true
  grub : data.grubPath.isSome = true ↔ data.grubDevice.blkDevice.isSome = true
  source : FromLast (lastAccepted MULTIBOOT_SOURCE calls) data.multibootPath
    data.multibootDevice.blkDevice
  grubdir : FromLast (lastAccepted MULTIBOOT_GRUBDIR calls) data.grubPath data.grubDevice.blkDevice
  /-- A rejected value changes nothing. -/
  rejected : ∀ call ∈ calls, ∀ key ∈ [MULTIBOOT_SOURCE, MULTIBOOT_GRUBDIR], ∀ value,
    nvValue key call.2 = some value → scanHd value = none → ∀ d, nvStep d call = some d

/-- Where the call for the last accepted value of `multiboot.grubdir` starts with an `rc` that fails
the test, so did all calls before, and the value is not of the form `(hdX,Y)P`. -/
def GrubInStep (calls : List NvCall) : Prop :=
  ∀ a, lastAccepted MULTIBOOT_GRUBDIR calls = some a → snprintfFailed a.rc →
    (∀ b ∈ accepted MULTIBOOT_GRUBDIR calls, snprintfFailed b.rc) ∧ ∀ x y p, ¬ IsHd a.value x y p

theorem mem_accepted {key : CString} {calls : List NvCall} {a : Accepted}
    (h : a ∈ accepted key calls) : scanHd a.value = some a.param := by
  obtain ⟨call, -, hcall⟩ := List.mem_filterMap.mp h
  obtain ⟨value, -, hvalue⟩ := Option.bind_eq_some_iff.mp hcall
  obtain ⟨param, hparam, rfl⟩ := Option.map_eq_some_iff.mp hvalue
  exact hparam

theorem lastAccepted_mem {key : CString} {calls : List NvCall} {a : Accepted}
    (h : lastAccepted key calls = some a) : a ∈ accepted key calls := List.mem_of_getLast? h

/-- The parameter of a value of the form `(hdX,Y)P`. -/
theorem param_of_isHd {key : CString} {calls : List NvCall} {a : Accepted}
    (ha : a ∈ accepted key calls) {x y : ℕ} {path : CString} (h : IsHd a.value x y path) :
    a.param.path = path ∧ a.param.blkDevice = blkName x y := by
  obtain ⟨hx, hy, hpath, htext⟩ := h
  have hparam := mem_accepted ha
  rw [htext, scanHd_hdText hx hy hpath] at hparam
  rw [← Option.some.inj hparam]
  exact ⟨rfl, blkDevice_eq_blkName hx hy path⟩

/-- The last value of `multiboot.grubdir` sets the device if its call passes the test. -/
theorem lastPassed_of_last {calls : List NvCall} {a : Accepted}
    (h : lastAccepted MULTIBOOT_GRUBDIR calls = some a) (hrc : ¬ snprintfFailed a.rc) :
    lastPassed calls = some a := by
  obtain ⟨before, hsplit⟩ := List.getLast?_eq_some_iff.mp h
  rw [lastPassed, hsplit, List.filter_append, List.filter_cons_of_pos (by simp [hrc]),
    List.filter_nil, List.getLast?_concat]

theorem lastPassed_eq_none_iff {calls : List NvCall} :
    lastPassed calls = none ↔ ∀ a ∈ accepted MULTIBOOT_GRUBDIR calls, snprintfFailed a.rc := by
  rw [lastPassed, List.getLast?_eq_none_iff, List.filter_eq_nil_iff]
  simp

section Line

variable {calls : List NvCall} {data : NvData}

theorem Imported.enabled_iff (h : Imported calls data) : data.multibootEnabled = true ↔
    data.multibootPath.isSome = true ∧ data.multibootDevice.blkDevice.isSome = true := by
  rw [h.multibootEnabled, h.multibootPath, h.multibootDevice]
  cases lastAccepted MULTIBOOT_SOURCE calls with
  | none => simp
  | some a => simp [nvDevice]

theorem Imported.source_fromLast (h : Imported calls data) :
    FromLast (lastAccepted MULTIBOOT_SOURCE calls) data.multibootPath
      data.multibootDevice.blkDevice := by
  intro a x y p ha hhd
  obtain ⟨hpath, hblk⟩ := param_of_isHd (lastAccepted_mem ha) hhd
  rw [h.multibootPath, h.multibootDevice, ha, ← hpath, ← hblk]
  exact ⟨rfl, rfl⟩

theorem nvStep_rejected {call : NvCall} {key value : CString}
    (hkey : key ∈ [MULTIBOOT_SOURCE, MULTIBOOT_GRUBDIR]) (hvalue : nvValue key call.2 = some value)
    (hscan : scanHd value = none) (d : NvData) : nvStep d call = some d := by
  obtain ⟨⟨name, value'⟩, hsplit, hname⟩ := Option.bind_eq_some_iff.mp hvalue
  obtain ⟨rfl, rfl⟩ : name = key ∧ value' = value := by simpa using hname
  simp only [nvStep, importKernelNv, hsplit]
  simp only [List.mem_cons, List.not_mem_nil, or_false] at hkey
  rcases hkey with rfl | rfl
  · rw [if_pos rfl, importSource_of_none hscan]
  · rw [if_neg (by decide), if_pos rfl, importGrubdir_of_none hscan]

/-- A set grub path comes with a device. -/
theorem Imported.grubDevice_of_path (h : Imported calls data) (hpath : data.grubPath.isSome = true) :
    data.grubDevice.blkDevice.isSome = true := by
  rw [h.grubPath] at hpath
  obtain ⟨path, hpath⟩ := Option.isSome_iff_exists.mp hpath
  obtain ⟨a, ha, hrc⟩ := Option.bind_eq_some_iff.mp hpath
  split_ifs at hrc with hfail
  rw [h.grubDevice, lastPassed_of_last ha hfail]
  rfl

theorem Imported.grubInStep (h : Imported calls data) (hc : Consistent calls data) :
    GrubInStep calls := by
  intro a ha hfail
  have hnone : data.grubPath = none := by
    rw [h.grubPath, ha, Option.bind_some, if_pos hfail]
  refine ⟨lastPassed_eq_none_iff.mp ?_, fun x y p hhd => ?_⟩
  · by_contra hpassed
    obtain ⟨b, hb⟩ := Option.ne_none_iff_exists'.mp hpassed
    have hset : data.grubPath.isSome = true := by
      refine hc.grub.mpr ?_
      rw [h.grubDevice, hb]
      rfl
    rw [hnone] at hset
    cases hset
  · have hpath := (hc.grubdir a x y p ha hhd).1
    rw [hnone] at hpath
    cases hpath

theorem Imported.consistent (h : Imported calls data) (hstep : GrubInStep calls) :
    Consistent calls data := by
  refine ⟨h.enabled_iff, ⟨h.grubDevice_of_path, fun hset => ?_⟩, h.source_fromLast, ?_, ?_⟩
  · cases ha : lastAccepted MULTIBOOT_GRUBDIR calls with
    | none =>
      have hempty : accepted MULTIBOOT_GRUBDIR calls = [] := List.getLast?_eq_none_iff.mp ha
      rw [h.grubDevice, lastPassed, hempty] at hset
      cases hset
    | some a =>
      by_cases hfail : snprintfFailed a.rc
      · rw [h.grubDevice, lastPassed_eq_none_iff.mpr (hstep a ha hfail).1] at hset
        cases hset
      · rw [h.grubPath, ha, Option.bind_some, if_neg hfail]
        rfl
  · intro a x y p ha hhd
    have hok : ¬ snprintfFailed a.rc := fun hfail => (hstep a ha hfail).2 x y p hhd
    obtain ⟨hpath, hblk⟩ := param_of_isHd (lastAccepted_mem ha) hhd
    rw [h.grubPath, h.grubDevice, ha, lastPassed_of_last ha hok, Option.bind_some, if_neg hok,
      ← hpath, ← hblk]
    exact ⟨rfl, rfl⟩
  · intro call _ key hkey value hvalue hscan d
    exact nvStep_rejected hkey hvalue hscan d

end Line

/-- Without a token of `multiboot.ums` the whole line is imported. -/
theorem run_nvStep {calls : List NvCall} (h : ∀ call ∈ calls, nvValue MULTIBOOT_UMS call.2 = none) :
    ∀ data, ∃ data', run nvStep data calls = some data' := by
  induction calls with
  | nil => exact fun data => ⟨data, rfl⟩
  | cons call calls ih =>
    intro data
    have hstep : ∃ next, nvStep data call = some next := by
      have hums := h call List.mem_cons_self
      unfold nvStep importKernelNv
      cases hsplit : splitNv call.2 with
      | none => exact ⟨data, rfl⟩
      | some nv =>
        rw [nvValue_of_split hsplit] at hums
        have hname : nv.1 ≠ MULTIBOOT_UMS := by
          intro heq
          rw [if_pos heq] at hums
          cases hums
        simp only [if_neg hname]
        split_ifs
        · exact ⟨_, rfl⟩
        · exact ⟨_, rfl⟩
        · split <;> exact ⟨_, rfl⟩
        · split <;> exact ⟨_, rfl⟩
        · exact ⟨_, rfl⟩
        · exact ⟨_, rfl⟩
    obtain ⟨next, hnext⟩ := hstep
    obtain ⟨data', hrun⟩ := ih (fun c hc => h c (List.mem_cons_of_mem _ hc)) next
    exact ⟨data', run_cons_iff.mpr ⟨next, hnext, hrun⟩⟩

/-- **The parameters are in step exactly if** the unassigned `rc` of the last accepted value of
`multiboot.grubdir` passes its test, or no call has set the device and a value of the form
`(hdX,Y)P` is not there. -/
theorem consistent_iff (junk : ℕ → ℤ) (file : Option CString)
    (hums : ∀ token ∈ cmdlineTokens (readCmdline file), nvValue MULTIBOOT_UMS token = none) :
    ∃ data, importKernelCmdline junk file = some data ∧
      (Consistent (nvCalls junk file) data ↔ GrubInStep (nvCalls junk file)) := by
  have hcalls : ∀ call ∈ nvCalls junk file, nvValue MULTIBOOT_UMS call.2 = none := by
    intro call hcall
    obtain ⟨i, hi, rfl⟩ := List.mem_mapIdx.mp hcall
    exact hums _ (List.getElem_mem hi)
  obtain ⟨data, hrun⟩ := run_nvStep hcalls .cleared
  have himported := imported_of_run hrun
  exact ⟨data, hrun, himported.grubInStep, himported.consistent⟩

/-- A line with a source and a grub directory. -/
def cmdline : CString :=
  "console=tty0 multiboot.source=(hd0,1)/android multiboot.grubdir=(hd0,5)/boot".toList

theorem consistent_iff_cmdline : ∃ data, importKernelCmdline (fun _ => 0) (some cmdline) = some data ∧
    (Consistent (nvCalls (fun _ => 0) (some cmdline)) data ↔
      GrubInStep (nvCalls (fun _ => 0) (some cmdline))) :=
  consistent_iff (fun _ => 0) (some cmdline) (by decide)

/-- A second grub directory, whose call starts with an `rc` of `-1`. -/
def grubTwice : CString := "multiboot.grubdir=(hd0,5)/boot multiboot.grubdir=(hd0,6)/boot".toList

def staleRc (i : ℕ) : ℤ := if i = 0 then 0 else -1

/-- The second value frees the path and leaves the device of the first. -/
theorem grub_path_lost :
    grubTwice.length ≤ 1023 ∧
    (∀ token ∈ cmdlineTokens (readCmdline (some grubTwice)), nvValue MULTIBOOT_UMS token = none) ∧
    ∃ data, importKernelCmdline staleRc (some grubTwice) = some data ∧
      data.grubPath = none ∧ data.grubDevice.blkDevice = some "/dev/block/mmcblk0p5".toList ∧
      ¬ Consistent (nvCalls staleRc (some grubTwice)) data := by
  refine ⟨by decide, by decide, _, rfl, rfl, rfl, fun h => ?_⟩
  have hset := h.grub.mpr rfl
  cases hset

end Multiboot
