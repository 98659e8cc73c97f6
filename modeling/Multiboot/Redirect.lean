import Multiboot.System
import Multiboot.Prepared

/-!
# Which calls have their path replaced

`kernelFollows` is the kernel's rule for a final symbolic link, `resolveOf` the tracer's.  With the
same rule, the hook replaces the path exactly if the file the kernel would act on is a redirected
device (`lookup_iff_acts`); `redirects_iff` says when it does so with the rule it has.
-/

namespace Multiboot

open Lib

/-! ### The kernel's side -/

/-- The kernel follows a final symbolic link of the path argument. -/
def kernelFollows (call : Syscall) (args : ScArgs) : Bool :=
  match call with
  | .lstat | .newlstat | .lstat64 | .lchown | .lchown16 => false
  | .open => args.a1 &&& O_NOFOLLOW == 0
  | .openat => args.a2 &&& O_NOFOLLOW == 0
  | .fchownat => args.a4 &&& AT_SYMLINK_NOFOLLOW == 0
  | .newfstatat | .fstatat64 | .utimensat => args.a3 &&& AT_SYMLINK_NOFOLLOW == 0
  | _ => true

/-- The file a path leads to, with or without following a final link, is a redirected device: it has
the number of a record, or it is no link and its name is that of a record. -/
def ActsOnRedirected (data : ModuleData) (fs : FsView) (follow : Bool) (p : CString) : Prop :=
  ∃ r ∈ lookupRecs data,
    (∃ st, (if follow then fs.stat p else fs.lstat p) = .ok st ∧ st.isDevice = true ∧
      r.statbuf = some st.rdev) ∨
    pathName fs follow p = r.blkDevice ∧ (follow = true ∨ isLink fs p = false)

/-! ### The tracer's side -/

theorem pathName_of_stat {fs : FileSystem} {p : CString} {st : Stat} (h : fs.stat p = .ok st) :
    fs.stat (pathName fs.toFsView true p) = .ok st := by
  obtain ⟨q, hq, hst⟩ := fs.realpath_of_stat h
  simp only [pathName, if_true, h, hq]
  exact hst

theorem pathName_of_error {fs : FsView} {p : CString} {e : Errno} (h : fs.stat p = .error e) :
    pathName fs true p = p := by
  simp only [pathName, if_true, h]

@[simp] theorem pathName_false (fs : FsView) (p : CString) : pathName fs false p = p := rfl

/-- What the status of the name a hook works with says of the path. -/
theorem stat_of_stat_pathName {fs : FileSystem} {follow : Bool} {p : CString} {st : Stat}
    (h : fs.stat (pathName fs.toFsView follow p) = .ok st) : fs.stat p = .ok st := by
  cases follow with
  | false => exact h
  | true =>
    cases hs : fs.stat p with
    | error e => rwa [pathName_of_error hs, hs] at h
    | ok st' =>
      rw [pathName_of_stat hs] at h
      exact h

theorem isLink_eq_false_of_lstat {fs : FsView} {p : CString} {st : Stat}
    (h : fs.lstat p = .ok st) (hk : st.kind ≠ .lnk) : isLink fs p = false := by
  simp [isLink, h, hk]

theorem lstat_of_not_link {fs : FileSystem} {p : CString} {st : Stat} (h : fs.stat p = .ok st)
    (hl : isLink fs.toFsView p = false) : fs.lstat p = .ok st := by
  rcases fs.lstat_of_stat h with hs | ⟨l, hs, hk⟩
  · exact hs
  · simp [isLink, hs, hk] at hl

/-- The file has the device number of a record, and that number is zero: every file that is no device
has it, and so does every record that `uevent_stat` has not resolved. -/
def ZeroMatch (data : ModuleData) (fs : FsView) (p : CString) : Prop :=
  ∃ st, fs.stat p = .ok st ∧ st.rdev = 0 ∧ ∃ r ∈ lookupRecs data, r.stRdev = 0

theorem not_zeroMatch_of_resolved {data : ModuleData} (hres : AllResolved data) (fs : FsView)
    (p : CString) : ¬ ZeroMatch data fs p := by
  rintro ⟨st, -, -, r, hr, hzero⟩
  obtain ⟨d, hd, hne⟩ := hres r hr
  rw [FstabRec.stRdev, hd, Option.getD_some] at hzero
  exact hne hzero

/-- **Lookup**: where a final link is followed or there is none, a record is found exactly if the file
is a redirected device or has the number zero of a record. -/
theorem lookup_iff {data : ModuleData} {fs : FileSystem} {follow : Bool} {p : CString}
    (hlink : follow = true ∨ isLink fs.toFsView p = false) :
    (∃ r, getFstabRec data fs.toFsView (pathName fs.toFsView follow p) = some r) ↔
      ActsOnRedirected data fs.toFsView follow p ∨ ZeroMatch data fs.toFsView p := by
  constructor
  · rintro ⟨r, hr⟩
    rcases fstabRecMatches_iff.mp (getFstabRec_matches hr) with ⟨st, hst, hdev⟩ | hname
    · have hp : fs.stat p = .ok st := stat_of_stat_pathName hst
      by_cases hzero : st.rdev = 0
      · exact Or.inr ⟨st, hp, hzero, r, getFstabRec_mem hr, hdev ▸ hzero⟩
      · have hbuf : r.statbuf = some st.rdev := by
          cases hs : r.statbuf with
          | none =>
            rw [FstabRec.stRdev, hs] at hdev
            exact absurd hdev hzero
          | some d => rw [hdev, FstabRec.stRdev, hs, Option.getD_some]
        refine Or.inl ⟨r, getFstabRec_mem hr, Or.inl ⟨st, ?_, fs.isDevice_of_rdev hp hzero, hbuf⟩⟩
        cases follow with
        | true => exact hp
        | false => exact lstat_of_not_link hp (hlink.resolve_left (by simp))
    · exact Or.inl ⟨r, getFstabRec_mem hr, Or.inr ⟨hname, hlink⟩⟩
  · rintro (⟨r, hr, ⟨st, hst, hdev, hbuf⟩ | ⟨hname, -⟩⟩ | ⟨st, hst, hzero, r, hr, hrzero⟩)
    · have hnum : st.rdev = r.stRdev := by rw [FstabRec.stRdev, hbuf, Option.getD_some]
      have hkind : st.kind ≠ .lnk := by
        intro hk
        simp [Stat.isDevice, hk] at hdev
      have hstat : fs.stat (pathName fs.toFsView follow p) = .ok st := by
        cases follow with
        | true => exact pathName_of_stat hst
        | false => exact fs.stat_of_lstat hst hkind
      exact getFstabRec_of_matches _ hr (fstabRecMatches_iff.mpr (Or.inl ⟨st, hstat, hnum⟩))
    · exact getFstabRec_of_matches _ hr (fstabRecMatches_iff.mpr (Or.inr hname))
    · have hstat : fs.stat (pathName fs.toFsView follow p) = .ok st := by
        cases follow with
        | true => exact pathName_of_stat hst
        | false => exact hst
      exact getFstabRec_of_matches _ hr
        (fstabRecMatches_iff.mpr (Or.inl ⟨st, hstat, hzero.trans hrzero.symm⟩))

/-- A link that is not followed is no redirected device. -/
theorem follows_of_acts {data : ModuleData} {fs : FsView} {follow : Bool} {p : CString}
    (h : ActsOnRedirected data fs follow p) : follow = true ∨ isLink fs p = false := by
  obtain ⟨r, -, ⟨st, hst, hdev, -⟩ | ⟨-, hlink⟩⟩ := h
  · cases follow with
    | true => exact Or.inl rfl
    | false =>
      refine Or.inr (isLink_eq_false_of_lstat hst fun hk => ?_)
      simp [Stat.isDevice, hk] at hdev
  · exact hlink

/-- With resolved records and the same rule for a final link, a record is found and not ignored exactly
if the file is a redirected device. -/
theorem lookup_iff_acts {data : ModuleData} (hres : AllResolved data) (fs : FileSystem)
    (follow : Bool) (p : CString) :
    ((∃ r, getFstabRec data fs.toFsView (pathName fs.toFsView follow p) = some r) ∧
      (follow = true ∨ isLink fs.toFsView p = false)) ↔
    ActsOnRedirected data fs.toFsView follow p := by
  have hzero : ¬ ZeroMatch data fs.toFsView p := not_zeroMatch_of_resolved hres _ p
  constructor
  · rintro ⟨hr, hlink⟩
    exact ((lookup_iff hlink).mp hr).resolve_right hzero
  · intro h
    exact ⟨(lookup_iff (follows_of_acts h)).mpr (Or.inl h), follows_of_acts h⟩

/-! ### The hook -/

/-- The path is not one that has to be resolved while `errno` is set. -/
def Resolvable (fs : FsView) (real : Bool) (p : CString) (errno : Option Errno) : Prop :=
  real = true → ∀ st, fs.stat p = .ok st → errno = none

theorem not_resolveFails {fs : FileSystem} {io : HookCalls} (hfs : io.fs = fs.toFsView)
    {calls : PathCalls} (hc : calls.resolve = true) {real : Bool} {p : CString}
    {errno : Option Errno} (h : Resolvable io.fs real p errno) :
    (real && resolveFails io calls p errno) = false := by
  cases real with
  | false => rfl
  | true =>
    rw [Bool.true_and, resolveFails]
    cases hs : io.fs.stat p with
    | error e => rfl
    | ok st =>
      obtain ⟨q, hq, -⟩ := fs.realpath_of_stat (hfs ▸ hs)
      have hq' : io.fs.realpath p = .ok q := by rw [hfs, hq]
      simp [hq', hc, h rfl st hs]

theorem resolveFails_of_stale {fs : FileSystem} {io : HookCalls} (hfs : io.fs = fs.toFsView)
    (calls : PathCalls) {p : CString} {errno : Option Errno}
    (h : ¬ Resolvable io.fs true p errno) : resolveFails io calls p errno = true := by
  simp only [Resolvable, not_forall, forall_true_left] at h
  obtain ⟨st, hs, hne⟩ := h
  obtain ⟨q, hq, -⟩ := fs.realpath_of_stat (hfs ▸ hs)
  have hq' : io.fs.realpath p = .ok q := by rw [hfs, hq]
  simp [resolveFails, hs, hq', Option.isSome_iff_ne_none.mpr hne]

/-- `errno` after a path has been read and looked up. -/
def lookupErrno (fs : FsView) (real : Bool) (p : CString) (errno : Option Errno) : Option Errno :=
  fs.statErrno (pathName fs real p) (if real then fs.statErrno p errno else errno)

/-- Looking the name up leaves the path resolvable. -/
theorem Resolvable.lookup {fs : FileSystem} {real : Bool} {p : CString} {errno : Option Errno}
    (h : Resolvable fs.toFsView real p errno) :
    Resolvable fs.toFsView real p (lookupErrno fs.toFsView real p errno) := by
  intro hreal st hs
  subst hreal
  rw [lookupErrno]
  have h1 : fs.statErrno p errno = errno := by simp [FsView.statErrno, hs]
  rw [if_pos rfl, h1, FsView.statErrno, pathName_of_stat hs]
  exact h rfl st hs

/-- `hook_open` before the call does not stop a resolvable path. -/
theorem hookOpen_continues (data : ModuleData) {fs : FileSystem} {io : HookCalls}
    (hfs : io.fs = fs.toFsView) {argpos : ℕ} {real : Bool} {st : HookSt} {p : CString}
    (hread : io.openPath.read = true) (hp : io.pathAt (st.args.nth argpos) = some p)
    (hclear : Resolvable io.fs real p st.errno)
    (hcalls : forWriting st.args argpos = true →
      (real && resolveFails io io.openPath p st.errno) = false) :
    ∃ st1, hookOpen data io true argpos real st = some (.CONTINUE, st1) ∧
      Resolvable io.fs real p st1.errno := by
  unfold hookOpen
  rw [if_pos rfl]
  by_cases hro : st.args.nth (argpos + 1) &&& O_ACCMODE = O_RDONLY
  · rw [if_pos hro]
    exact ⟨st, rfl, hclear⟩
  · have hw : forWriting st.args argpos = true := by simpa [forWriting] using hro
    rw [if_neg hro, getPatharg_of_resolves hread hp (hcalls hw)]
    have hafter : Resolvable io.fs real p (lookupErrno io.fs real p st.errno) := by
      rw [hfs] at hclear ⊢
      exact hclear.lookup
    cases hr : getFstabRec data io.fs (pathName io.fs real p) with
    | none =>
      simp only [hr]
      exact ⟨_, rfl, hafter⟩
    | some r =>
      cases hb : r.replacementBind with
      | false =>
        simp only [hr, hb, Bool.not_false, if_true]
        exact ⟨_, rfl, hafter⟩
      | true =>
        simp only [hr, hb, Bool.not_true, Bool.false_eq_true, if_false]
        exact ⟨_, rfl, hafter⟩

/-- `redirect_file_access` on a path that can be read and resolved. -/
theorem redirectPre_eq {data : ModuleData} {io : HookCalls} {argpos : ℕ} {real : Bool}
    {st : HookSt} {p : CString} (hread : io.path.read = true)
    (hp : io.pathAt (st.args.nth argpos) = some p)
    (hf : (real && resolveFails io io.path p st.errno) = false) :
    redirectPre data io argpos real st =
      let st := { st with errno := lookupErrno io.fs real p st.errno }
      match getFstabRec data io.fs (pathName io.fs real p) with
      | none => some (.CONTINUE, st)
      | some r =>
        if !real && isLink io.fs (pathName io.fs real p) then some (.CONTINUE, st)
        else
          match if r.replacementBind then r.stubDevice else r.replacementDevice with
          | none => none
          | some text => some (replacePath io text (fun addr a => a.setNth argpos addr) st) := by
  unfold redirectPre
  rw [getPatharg_of_resolves hread hp hf]
  rfl

/-- `hook_mount` on two paths that can be read and resolved. -/
theorem hookMount_eq {data : ModuleData} {io : HookCalls} {st : HookSt} {p q : CString}
    (hread : io.path.read = true) (hp : io.pathAt st.args.a0 = some p)
    (hf : (true && resolveFails io io.path p st.errno) = false)
    (htargetread : io.targetPath.read = true) (hq : io.pathAt st.args.a1 = some q)
    (hf2 : (true && resolveFails io io.targetPath q (io.fs.statErrno p st.errno)) = false)
    (htarget : pathName io.fs true q ≠ ASEC) :
    hookMount data io true st =
      let errno := io.fs.statErrno q (io.fs.statErrno p st.errno)
      let st := { st with errno := io.fs.statErrno (pathName io.fs true p) errno }
      match getFstabRec data io.fs (pathName io.fs true p) with
      | none => some (.CONTINUE, st)
      | some r =>
        match r.replacementDevice with
        | none => none
        | some text => some (replacePath io text (mountArgs r.replacementBind) st) := by
  have hasec : (pathName io.fs true q == ASEC) = false := beq_eq_false_iff_ne.mpr htarget
  have hsource := getPatharg_of_resolves hread hp hf
  have hdir := getPatharg_of_resolves htargetread hq hf2
  unfold hookMount
  cases hrec : getFstabRec data io.fs (pathName io.fs true p) with
  | none =>
    simp only [hsource, hdir, hasec, hrec, if_true, Bool.false_eq_true, if_false]
  | some r =>
    cases hdev : r.replacementDevice with
    | none => simp only [hsource, hdir, hasec, hrec, hdev, if_true, Bool.false_eq_true, if_false]
    | some text =>
      simp only [hsource, hdir, hasec, hrec, hdev, if_true, Bool.false_eq_true, if_false]

/-- A path that has to be resolved while `errno` is set stops the hook. -/
theorem redirectPre_stale {data : ModuleData} {fs : FileSystem} {io : HookCalls}
    (hfs : io.fs = fs.toFsView) {argpos : ℕ} {real : Bool} {st : HookSt} {p : CString}
    (hread : io.path.read = true) (hp : io.pathAt (st.args.nth argpos) = some p)
    (hstale : ¬ Resolvable io.fs real p st.errno) :
    ∃ st', redirectPre data io argpos real st = some (.ABORT, st') := by
  have hreal : real = true := by
    by_contra hr
    exact hstale fun h => absurd h hr
  subst hreal
  obtain ⟨e, he⟩ := getPatharg_of_fails hread hp (resolveFails_of_stale hfs io.path hstale)
  unfold redirectPre
  rw [he]
  exact ⟨_, rfl⟩

theorem replacePath_succeeds {io : HookCalls} {text : CString} (hlen : text.length ≤ PATH_MAX)
    {addr : Long} (hm : io.mmap = some addr) (h0 : addr ≠ 0) (hw : io.writeMem = true)
    (hmod : io.modifyArgs = true) (f : Long → ScArgs → ScArgs) (st : HookSt) :
    replacePath io text f st = (.CONTINUE, st.copied addr text (f addr)) := by
  have hlen' : ¬ text.length + 1 > PATH_MAX + 1 := by omega
  simp only [replacePath, copyPatharg, if_neg hlen', hm, if_neg h0, hw, hmod, if_true]
  simp [HookSt.copied, HookSt.touch]

/-- Every call on the child and on its path arguments succeeds. -/
structure TracyOk (io : HookCalls) : Prop where
  openPath : io.openPath.read = true ∧ io.openPath.resolve = true
  path : io.path.read = true ∧ io.path.resolve = true
  mmap : ∃ addr, io.mmap = some addr ∧ addr ≠ 0
  writeMem : io.writeMem = true
  modifyArgs : io.modifyArgs = true

/-- The hook of a path-taking call, behind the part of `hook_open`. -/
theorem runHook_file {data : ModuleData} {io : HookCalls} {call : Syscall} {row : RedirectInfo}
    (hrow : infoOf call = some row) (st : HookSt) :
    runHook data io call true st =
      match if isOpen call then hookOpen data io true row.argnum (resolveOf row call st.args) st
        else some (.CONTINUE, st) with
      | none => none
      | some (.ABORT, st) => some (.ABORT, st)
      | some (.CONTINUE, st1) =>
        redirectPre data io row.argnum (resolveOf row call st.args) st1 := by
  have hsome : (infoOf call).isSome := by
    rw [hrow]
    rfl
  have hopen : (call = .open ∨ call = .openat) ↔ isOpen call = true := by simp [isOpen]
  have hrun : runHook data io call true st =
      redirectFileAccess data io call true row.argnum (resolveOf row call st.args) st := by
    simp only [runHook, (infoOf_isSome_iff call).mp hsome, hookFileaccess, hrow]
  rewrite [hrun, redirectFileAccess, if_congr hopen rfl rfl]
  rfl

/-- A resolvable path reaches `redirect_file_access`, possibly behind `hook_open`. -/
theorem runHook_resolvable (data : ModuleData) {fs : FileSystem} {io : HookCalls}
    (hfs : io.fs = fs.toFsView) {call : Syscall} {row : RedirectInfo}
    (hrow : infoOf call = some row) {st : HookSt} {p : CString}
    (hread : io.openPath.read = true) (hp : io.pathAt (st.args.nth row.argnum) = some p)
    (hclear : Resolvable io.fs (resolveOf row call st.args) p st.errno)
    (hcalls : isOpen call = true → forWriting st.args row.argnum = true →
      (resolveOf row call st.args && resolveFails io io.openPath p st.errno) = false) :
    ∃ st1, runHook data io call true st =
        redirectPre data io row.argnum (resolveOf row call st.args) st1 ∧
      Resolvable io.fs (resolveOf row call st.args) p st1.errno ∧
      (isOpen call = true → OpenPre data io row.argnum (resolveOf row call st.args) st st1) ∧
      (isOpen call = false → st1 = st) := by
  rw [runHook_file hrow]
  cases ho : isOpen call with
  | false => exact ⟨st, rfl, hclear, nofun, fun _ => rfl⟩
  | true =>
    obtain ⟨st1, h1, hclear1⟩ := hookOpen_continues data hfs hread hp hclear (hcalls ho)
    refine ⟨st1, ?_, hclear1, fun _ => hookOpen_pre h1, nofun⟩
    rw [if_pos rfl, h1]

/-- A path that has to be resolved while `errno` is set stops the call. -/
theorem runHook_stale {data : ModuleData} {fs : FileSystem} {io : HookCalls}
    (hfs : io.fs = fs.toFsView) {call : Syscall} {row : RedirectInfo}
    (hrow : infoOf call = some row) {st : HookSt} {p : CString}
    (hopenread : io.openPath.read = true) (hread : io.path.read = true)
    (hp : io.pathAt (st.args.nth row.argnum) = some p)
    (hstale : ¬ Resolvable io.fs (resolveOf row call st.args) p st.errno) :
    ∃ st', runHook data io call true st = some (.ABORT, st') := by
  rw [runHook_file hrow]
  cases ho : isOpen call with
  | false => exact redirectPre_stale hfs hread hp hstale
  | true =>
    rw [if_pos rfl]
    by_cases hro : st.args.nth (row.argnum + 1) &&& O_ACCMODE = O_RDONLY
    · have hskip : hookOpen data io true row.argnum (resolveOf row call st.args) st =
          some (.CONTINUE, st) := by
        unfold hookOpen
        rw [if_pos rfl, if_pos hro]
      rw [hskip]
      exact redirectPre_stale hfs hread hp hstale
    · have hreal : resolveOf row call st.args = true := by
        by_contra hr
        exact hstale fun h => absurd h hr
      rw [hreal] at hstale ⊢
      obtain ⟨e, he⟩ := getPatharg_of_fails hopenread hp
        (resolveFails_of_stale hfs io.openPath hstale)
      have habort : hookOpen data io true row.argnum true st =
          some (.ABORT, { st with errno := e }) := by
        unfold hookOpen
        rw [if_pos rfl, if_neg hro, he]
      rw [habort]
      exact ⟨_, rfl⟩

/-! ### When the path is replaced -/

/-- The hook goes on with the path argument pointing to a new region. -/
def Replaces (data : ModuleData) (io : HookCalls) (call : Syscall) (row : RedirectInfo)
    (st : HookSt) : Prop :=
  ∃ st' addr, runHook data io call true st = some (.CONTINUE, st') ∧
    st'.mbc.memory = some addr ∧ st'.args = st.args.setNth row.argnum addr

theorem replaces_iff_acts {data : ModuleData} (hprep : Prepared data) (hres : AllResolved data)
    {fs : FileSystem} {io : HookCalls} (hfs : io.fs = fs.toFsView) (htracy : TracyOk io)
    {call : Syscall} {row : RedirectInfo} (hrow : infoOf call = some row) {st : HookSt}
    (hclean : st.mbc.memory = none) {p : CString}
    (hp : io.pathAt (st.args.nth row.argnum) = some p) :
    Replaces data io call row st ↔ Resolvable io.fs (resolveOf row call st.args) p st.errno ∧
      ActsOnRedirected data io.fs (resolveOf row call st.args) p := by
  by_cases hclear : Resolvable io.fs (resolveOf row call st.args) p st.errno
  swap
  · obtain ⟨st', habort⟩ := runHook_stale hfs hrow htracy.openPath.1 htracy.path.1 hp hclear
    refine ⟨fun ⟨st'', addr, h, _⟩ => ?_, fun h => absurd h.1 hclear⟩
    rw [habort] at h
    cases h
  obtain ⟨st1, hrun, hclear1, hopen, hother⟩ := runHook_resolvable data hfs hrow
    htracy.openPath.1 hp hclear fun _ _ => not_resolveFails hfs htracy.openPath.2 hclear
  have hst1 : st1.args = st.args ∧ st1.mbc.memory = none := by
    cases ho : isOpen call with
    | false =>
      obtain rfl := hother ho
      exact ⟨rfl, hclean⟩
    | true => cases hopen ho <;> exact ⟨rfl, hclean⟩
  have hp1 : io.pathAt (st1.args.nth row.argnum) = some p := by rw [hst1.1, hp]
  rw [redirectPre_eq htracy.path.1 hp1 (not_resolveFails hfs htracy.path.2 hclear1)] at hrun
  -- a run that keeps the path keeps `memory`
  have hkeep : ∀ e, runHook data io call true st = some (.CONTINUE, { st1 with errno := e }) →
      ¬ Replaces data io call row st := by
    rintro e hsame ⟨st', addr, h, hmem, -⟩
    obtain rfl := (Prod.mk.inj (Option.some.inj (hsame.symm.trans h))).2
    rw [hst1.2] at hmem
    cases hmem
  have hacts := lookup_iff_acts hres fs (resolveOf row call st.args) p
  rw [← hfs] at hacts
  rw [and_iff_right hclear, ← hacts]
  cases hr : getFstabRec data io.fs (pathName io.fs (resolveOf row call st.args) p) with
  | none =>
    simp only [hr] at hrun
    refine ⟨fun h => absurd h (hkeep _ hrun), fun h => ?_⟩
    obtain ⟨⟨r, hsome⟩, -⟩ := h
    cases hsome
  | some r =>
    simp only [hr] at hrun
    by_cases hl : (!resolveOf row call st.args &&
        isLink io.fs (pathName io.fs (resolveOf row call st.args) p)) = true
    · rw [if_pos hl] at hrun
      refine ⟨fun h => absurd h (hkeep _ hrun), fun h => ?_⟩
      rw [Bool.and_eq_true, Bool.not_eq_true'] at hl
      obtain ⟨hreal, hlink⟩ := hl
      rw [hreal, pathName_false] at hlink
      rcases h.2 with h | h
      · rw [hreal] at h
        cases h
      · rw [hlink] at h
        cases h
    · rw [if_neg hl] at hrun
      obtain ⟨text, ht, hlen⟩ := hprep.target r (getFstabRec_mem hr)
      obtain ⟨addr, hm, h0⟩ := htracy.mmap
      simp only [ht, replacePath_succeeds hlen hm h0 htracy.writeMem htracy.modifyArgs] at hrun
      refine ⟨fun _ => ⟨⟨r, rfl⟩, ?_⟩, fun _ => ⟨_, addr, hrun, rfl, ?_⟩⟩
      · cases hreal : resolveOf row call st.args with
        | true => exact Or.inl rfl
        | false =>
          rw [hreal, pathName_false] at hl
          exact Or.inr (by simpa using hl)
      · rw [← hst1.1]
        rfl

/-- The calls and flags for which the table and the flags read agree with the kernel. -/
def SameRule (call : Syscall) (args : ScArgs) : Prop :=
  match call with
  | .chmod | .access | .utime | .utimes | .futimesat => False
  | .openat => (args.a3 &&& O_NOFOLLOW == 0) = (args.a2 &&& O_NOFOLLOW == 0)
  | .faccessat | .fchmodat => (args.a3 &&& AT_SYMLINK_NOFOLLOW == 0) = true
  | _ => True

theorem resolveOf_eq_iff {call : Syscall} {row : RedirectInfo} (hrow : infoOf call = some row)
    (args : ScArgs) : resolveOf row call args = kernelFollows call args ↔ SameRule call args := by
  cases call <;> first | (cases hrow; done) | skip
  all_goals
    obtain rfl := Option.some.inj hrow
    simp [resolveOf, kernelFollows, SameRule, ScArgs.nth]

/-- **When the path is replaced as it should be.**  With resolved records and successful calls, the
hook replaces the path argument if and only if the kernel would act on a redirected device, exactly
in these cases: where the path is resolvable, the hook's rule for a final link is the kernel's, or
following the link makes no difference; where `errno` is set and the path has to be resolved, the
file is no redirected device. -/
theorem redirects_iff (params : BootParams) (env : SetupEnv) (data : ModuleData)
    (hsetup : setup params env = some data) (hres : AllResolved data) (fs : FileSystem)
    (io : HookCalls) (hfs : io.fs = fs.toFsView) (htracy : TracyOk io) (call : Syscall)
    (row : RedirectInfo) (hrow : infoOf call = some row) (st : HookSt)
    (hclean : st.mbc.memory = none) (p : CString)
    (hp : io.pathAt (st.args.nth row.argnum) = some p) :
    (Replaces data io call row st ↔
      ActsOnRedirected data io.fs (kernelFollows call st.args) p) ↔
    (Resolvable io.fs (resolveOf row call st.args) p st.errno →
      SameRule call st.args ∨
        (ActsOnRedirected data io.fs true p ↔ ActsOnRedirected data io.fs false p)) ∧
    (¬ Resolvable io.fs (resolveOf row call st.args) p st.errno →
      ¬ ActsOnRedirected data io.fs (kernelFollows call st.args) p) := by
  rw [replaces_iff_acts (prepared_of_setup hsetup) hres hfs htracy hrow hclean hp,
    ← resolveOf_eq_iff hrow]
  by_cases hclear : Resolvable io.fs (resolveOf row call st.args) p st.errno
  · simp only [hclear, true_and, true_implies, not_true_eq_false, false_implies, and_true]
    cases resolveOf row call st.args <;> cases kernelFollows call st.args <;>
      simp [Iff.comm]
  · simp [hclear]

/-- The child has the name of the link at every address. -/
def linkIo : HookCalls :=
  { demoIo with mem := fun _ => some (LINK ++ [nul]), fs := linkFs.toFsView }

theorem linkIo_tracyOk : TracyOk linkIo :=
  ⟨⟨rfl, rfl⟩, ⟨rfl, rfl⟩, ⟨4096, rfl, by decide⟩, rfl, rfl⟩

/-- A hook is entered with these arguments. -/
def enterHook (args : ScArgs) : HookSt :=
  ⟨ChildData.init, args, none, demoDisks, [], [], none, none⟩

theorem redirects_iff_stat :
    (Replaces demoData linkIo .stat64 ⟨.stat64, 0, true, none⟩ (enterHook ⟨1, 0, 0, 0, 0, 0, 0⟩) ↔
      ActsOnRedirected demoData linkIo.fs true LINK) :=
  (redirects_iff demoParams demoEnv demoData rfl (by decide) linkFs linkIo rfl linkIo_tracyOk .stat64
    ⟨.stat64, 0, true, none⟩ rfl (enterHook ⟨1, 0, 0, 0, 0, 0, 0⟩) rfl LINK rfl).mpr
    ⟨fun _ => Or.inl trivial, fun h => absurd (fun _ _ _ => rfl) h⟩

/-- `chmod` of a link to the cache partition acts on the partition, and the path is not replaced. -/
theorem chmod_not_redirected :
    ActsOnRedirected demoData linkIo.fs
      (kernelFollows .chmod (enterHook ⟨1, 0, 0, 0, 0, 0, 0⟩).args) LINK ∧
    ¬ Replaces demoData linkIo .chmod ⟨.chmod, 0, false, none⟩
      (enterHook ⟨1, 0, 0, 0, 0, 0, 0⟩) := by
  refine ⟨⟨demoData.multibootFstab.recs[0], by decide, Or.inl ⟨⟨.blk, 179, 2⟩, ?_⟩⟩, ?_⟩
  · exact ⟨rfl, rfl, rfl⟩
  · rintro ⟨st', addr, h, hm, -⟩
    have hrun : runHook demoData linkIo .chmod true (enterHook ⟨1, 0, 0, 0, 0, 0, 0⟩) =
        some (.CONTINUE, enterHook ⟨1, 0, 0, 0, 0, 0, 0⟩) := rfl
    obtain rfl := (Prod.mk.inj (Option.some.inj (hrun.symm.trans h))).2
    cases hm

end Multiboot
