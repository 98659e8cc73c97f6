import Multiboot.Redirect

/-!
# Path arguments and `errno`

`get_patharg` tests `errno` after a `realpath` that may have left it alone, so its answer depends on
whatever failed before, and it works on a buffer that need not end.  `returnsPath_iff` says when it
returns the child's path, `hookGoesOn_iff` when a hook on an existing path goes on after a history of
lookups, and `patharg_iff` puts them together.
-/

namespace Multiboot

open Lib

/-! ### What earlier lookups leave behind -/

/-- `errno` after `get_fstab_rec` has looked up these names, each in the file system as it then was. -/
def errnoAfter (looked : List (FsView × CString)) (errno : Option Errno) : Option Errno :=
  looked.foldl (fun e l => l.1.statErrno l.2 e) errno

/-- `errno` was clear in the beginning and every lookup found its file. -/
def AllFound (looked : List (FsView × CString)) (errno : Option Errno) : Prop :=
  errno = none ∧ ∀ l ∈ looked, ∃ sb, l.1.stat l.2 = .ok sb

theorem statErrno_eq_none_iff (fs : FsView) (p : CString) (errno : Option Errno) :
    fs.statErrno p errno = none ↔ errno = none ∧ ∃ sb, fs.stat p = .ok sb := by
  cases hs : fs.stat p with
  | error e => simp [FsView.statErrno, hs]
  | ok sb => simp [FsView.statErrno, hs]

/-- Nothing clears `errno`: one failed lookup is seen by every later hook. -/
theorem errnoAfter_eq_none_iff (looked : List (FsView × CString)) (errno : Option Errno) :
    errnoAfter looked errno = none ↔ AllFound looked errno := by
  induction looked generalizing errno with
  | nil => simp [errnoAfter, AllFound]
  | cons l looked ih =>
    have hstep : errnoAfter (l :: looked) errno =
        errnoAfter looked (l.1.statErrno l.2 errno) := rfl
    rw [hstep, ih, AllFound, AllFound, statErrno_eq_none_iff, List.forall_mem_cons, and_assoc]

/-! ### One call of `get_patharg` -/

/-- What `get_patharg` returns, without `errno`: `none` if it does not survive, `some none` is
`NULL`. -/
def pathargOf (io : HookCalls) (calls : PathCalls) (addr : Long) (real : Bool)
    (errno : Option Errno) : Option (Option CString) :=
  (getPatharg io calls addr real errno).map Prod.fst

/-- `get_patharg` returns the child's path, resolved where this is asked for and the file exists, and
`NULL` for a buffer without a NUL. -/
def ReturnsPath (io : HookCalls) (calls : PathCalls) (addr : Long) (real : Bool)
    (errno : Option Errno) : Prop :=
  pathargOf io calls addr real errno = some (io.argPath addr real)

theorem pathargOf_unterminated {io : HookCalls} {calls : PathCalls} (hread : calls.read = true)
    {addr : Long} {bytes : List Char} (hm : io.mem addr = some bytes) (hc : cstr bytes = none)
    (real : Bool) (errno : Option Errno) : pathargOf io calls addr real errno = none := by
  simp [pathargOf, getPatharg, HookCalls.readMem, hread, hm, hc]

/-- A path that need not be resolved while `errno` is set is returned. -/
theorem pathargOf_resolvable {fs : FileSystem} {io : HookCalls} (hfs : io.fs = fs.toFsView)
    {calls : PathCalls} (hread : calls.read = true) (hresolve : calls.resolve = true) {addr : Long}
    {real : Bool} {errno : Option Errno} {p : CString} (hp : io.pathAt addr = some p)
    (h : Resolvable io.fs real p errno) :
    pathargOf io calls addr real errno = some (some (pathName io.fs real p)) := by
  rw [pathargOf, getPatharg_of_resolves hread hp (not_resolveFails hfs hresolve h)]
  rfl

/-- A path that has to be resolved while `errno` is set is lost. -/
theorem pathargOf_stale {fs : FileSystem} {io : HookCalls} (hfs : io.fs = fs.toFsView)
    {calls : PathCalls} (hread : calls.read = true) {addr : Long} {real : Bool}
    {errno : Option Errno} {p : CString} (hp : io.pathAt addr = some p)
    (h : ¬ Resolvable io.fs real p errno) : pathargOf io calls addr real errno = some none := by
  have hreal : real = true := by
    by_contra hr
    exact h fun hr' => absurd hr' hr
  subst hreal
  obtain ⟨e, he⟩ := getPatharg_of_fails hread hp (resolveFails_of_stale hfs calls h)
  rw [pathargOf, he]
  rfl

/-- **One call**: the path is returned exactly if it ends within the buffer and need not be resolved
while `errno` is set. -/
theorem returnsPath_iff {fs : FileSystem} {io : HookCalls} (hfs : io.fs = fs.toFsView)
    {calls : PathCalls} (hread : calls.read = true) (hresolve : calls.resolve = true) {addr : Long}
    {bytes : List Char} (hm : io.mem addr = some bytes) (real : Bool) (errno : Option Errno) :
    ReturnsPath io calls addr real errno ↔
      ∃ p, cstr bytes = some p ∧ Resolvable io.fs real p errno := by
  have hpath : io.pathAt addr = cstr bytes := by rw [HookCalls.pathAt, hm, Option.bind_some]
  cases hc : cstr bytes with
  | none =>
    rw [ReturnsPath, pathargOf_unterminated hread hm hc]
    simp
  | some p =>
    have hp : io.pathAt addr = some p := hpath.trans hc
    have harg : io.argPath addr real = some (pathName io.fs real p) := by
      rw [HookCalls.argPath, hp, Option.map_some]
    rw [ReturnsPath, harg]
    by_cases h : Resolvable io.fs real p errno
    · simp [pathargOf_resolvable hfs hread hresolve hp h, h]
    · simp [pathargOf_stale hfs hread hp h, h]

/-- **Two calls**: `errno` makes no difference exactly if no existing path has to be resolved. -/
theorem pathargOf_errno_iff {fs : FileSystem} {io : HookCalls} (hfs : io.fs = fs.toFsView)
    {calls : PathCalls} (hread : calls.read = true) (hresolve : calls.resolve = true) {addr : Long}
    {bytes : List Char} (hm : io.mem addr = some bytes) (real : Bool) :
    (∀ e e', pathargOf io calls addr real e = pathargOf io calls addr real e') ↔
      ∀ p, cstr bytes = some p → real = true → ∀ sb, io.fs.stat p ≠ .ok sb := by
  have hpath : io.pathAt addr = cstr bytes := by rw [HookCalls.pathAt, hm, Option.bind_some]
  constructor
  · intro h p hc hreal sb hs
    have hp : io.pathAt addr = some p := hpath.trans hc
    have hclear : Resolvable io.fs real p none := fun _ _ _ => rfl
    have hset : ¬ Resolvable io.fs real p (some .ENOENT) := fun hr => nomatch hr hreal sb hs
    have heq := h none (some .ENOENT)
    rw [pathargOf_resolvable hfs hread hresolve hp hclear, pathargOf_stale hfs hread hp hset] at heq
    cases heq
  · intro h e e'
    cases hc : cstr bytes with
    | none => rw [pathargOf_unterminated hread hm hc, pathargOf_unterminated hread hm hc]
    | some p =>
      have hp : io.pathAt addr = some p := hpath.trans hc
      have hany : ∀ errno, Resolvable io.fs real p errno := fun _ hreal sb hs =>
        absurd hs (h p hc hreal sb)
      rw [pathargOf_resolvable hfs hread hresolve hp (hany e),
        pathargOf_resolvable hfs hread hresolve hp (hany e')]

/-! ### The hooks -/

/-- The hook goes on if its path argument names an existing file. -/
def HookGoesOn (data : ModuleData) (io : HookCalls) (call : Syscall) (row : RedirectInfo)
    (st : HookSt) : Prop :=
  ∀ p sb, io.pathAt (st.args.nth row.argnum) = some p → io.fs.stat p = .ok sb →
    ∃ st', runHook data io call true st = some (.CONTINUE, st')

/-- A hook on a resolvable path goes on. -/
theorem runHook_goes_on {data : ModuleData} (hprep : Prepared data) {fs : FileSystem}
    {io : HookCalls} (hfs : io.fs = fs.toFsView) (htracy : TracyOk io) {call : Syscall}
    {row : RedirectInfo} (hrow : infoOf call = some row) {st : HookSt} {p : CString}
    (hp : io.pathAt (st.args.nth row.argnum) = some p)
    (hclear : Resolvable io.fs (resolveOf row call st.args) p st.errno) :
    ∃ st', runHook data io call true st = some (.CONTINUE, st') := by
  obtain ⟨st1, hrun, hclear1, hopen, hother⟩ := runHook_resolvable data hfs hrow
    htracy.openPath.1 hp hclear fun _ _ => not_resolveFails hfs htracy.openPath.2 hclear
  have hargs : st1.args = st.args := by
    cases ho : isOpen call with
    | false => rw [hother ho]
    | true => cases hopen ho <;> rfl
  have hp1 : io.pathAt (st1.args.nth row.argnum) = some p := by rw [hargs, hp]
  rw [hrun, redirectPre_eq htracy.path.1 hp1 (not_resolveFails hfs htracy.path.2 hclear1)]
  cases hr : getFstabRec data io.fs (pathName io.fs (resolveOf row call st.args) p) with
  | none => exact ⟨_, rfl⟩
  | some r =>
    by_cases hl : (!resolveOf row call st.args &&
        isLink io.fs (pathName io.fs (resolveOf row call st.args) p)) = true
    · simp only [if_pos hl]
      exact ⟨_, rfl⟩
    · obtain ⟨text, ht, hlen⟩ := hprep.target r (getFstabRec_mem hr)
      obtain ⟨addr, hmap, h0⟩ := htracy.mmap
      simp only [if_neg hl, ht,
        replacePath_succeeds hlen hmap h0 htracy.writeMem htracy.modifyArgs]
      exact ⟨_, rfl⟩

/-- **A hook after a history of lookups**: on an existing path it goes on exactly if the path need
not be resolved or every lookup before found its file. -/
theorem hookGoesOn_iff {data : ModuleData} (hprep : Prepared data) {fs : FileSystem}
    {io : HookCalls} (hfs : io.fs = fs.toFsView) (htracy : TracyOk io) {call : Syscall}
    {row : RedirectInfo} (hrow : infoOf call = some row) {looked : List (FsView × CString)}
    {errno : Option Errno} {st : HookSt} (herrno : st.errno = errnoAfter looked errno) :
    HookGoesOn data io call row st ↔
      ∀ p sb, io.pathAt (st.args.nth row.argnum) = some p → io.fs.stat p = .ok sb →
        resolveOf row call st.args = true → AllFound looked errno := by
  constructor
  · intro h p sb hp hs hreal
    rw [← errnoAfter_eq_none_iff, ← herrno]
    by_contra hset
    have hstale : ¬ Resolvable io.fs (resolveOf row call st.args) p st.errno := fun hr =>
      hset (hr hreal sb hs)
    obtain ⟨st', habort⟩ := runHook_stale hfs hrow htracy.openPath.1 htracy.path.1 hp
      hstale
    obtain ⟨st'', hgo⟩ := h p sb hp hs
    rw [habort] at hgo
    cases hgo
  · intro h p sb hp hs
    refine runHook_goes_on hprep hfs htracy hrow hp fun hreal sb' hs' => ?_
    rw [herrno, errnoAfter_eq_none_iff]
    exact h p sb' hp hs' hreal

/-- **When the child's path is returned.**  A call of `get_patharg` does so exactly if the string ends
within the buffer and either need not be resolved, or names no file, or finds `errno` clear; two calls
that differ in `errno` agree exactly if no existing path has to be resolved; and a hook on an existing
path that has to be resolved goes on exactly if no lookup before it failed. -/
theorem patharg_iff (params : BootParams) (env : SetupEnv) (data : ModuleData)
    (hsetup : setup params env = some data) (fs : FileSystem) (io : HookCalls)
    (hfs : io.fs = fs.toFsView) (htracy : TracyOk io) :
    (∀ addr bytes, io.mem addr = some bytes → ∀ real,
      (∀ errno, ReturnsPath io io.path addr real errno ↔
        ∃ p, cstr bytes = some p ∧
          (real = true → (∃ sb, io.fs.stat p = .ok sb) → errno = none)) ∧
      ((∀ e e', pathargOf io io.path addr real e = pathargOf io io.path addr real e') ↔
        ∀ p, cstr bytes = some p → real = true → ∀ sb, io.fs.stat p ≠ .ok sb)) ∧
    (∀ call row, infoOf call = some row → ∀ looked errno st,
      st.errno = errnoAfter looked errno →
      (HookGoesOn data io call row st ↔
        ∀ p sb, io.pathAt (st.args.nth row.argnum) = some p → io.fs.stat p = .ok sb →
          resolveOf row call st.args = true →
            errno = none ∧ ∀ l ∈ looked, ∃ sb, l.1.stat l.2 = .ok sb)) := by
  refine ⟨fun addr bytes hm real => ⟨fun errno => ?_, ?_⟩, fun call row hrow looked errno st he => ?_⟩
  · simp only [returnsPath_iff hfs htracy.path.1 htracy.path.2 hm, Resolvable, forall_exists_index]
  · exact pathargOf_errno_iff hfs htracy.path.1 htracy.path.2 hm real
  · exact hookGoesOn_iff (prepared_of_setup hsetup) hfs htracy hrow he

/-- A link to the cache partition is resolved after a lookup of the partition itself. -/
theorem patharg_iff_link :
    ReturnsPath linkIo linkIo.path 1 true none ∧
    HookGoesOn demoData linkIo .stat64 ⟨.stat64, 0, true, none⟩
      (enterHook ⟨1, 0, 0, 0, 0, 0, 0⟩) := by
  obtain ⟨hcall, hhook⟩ := patharg_iff demoParams demoEnv demoData rfl linkFs linkIo rfl
    linkIo_tracyOk
  refine ⟨((hcall 1 (LINK ++ [nul]) rfl true).1 none).mpr ⟨LINK, rfl, fun _ _ => rfl⟩, ?_⟩
  refine (hhook .stat64 ⟨.stat64, 0, true, none⟩ rfl [(linkFs.toFsView, CACHE)] none
    (enterHook ⟨1, 0, 0, 0, 0, 0, 0⟩) rfl).mpr fun _ _ _ _ _ => ⟨rfl, fun l hl => ?_⟩
  obtain rfl := List.mem_singleton.mp hl
  exact ⟨⟨.blk, 179, 2⟩, rfl⟩

/-- A name no file has. -/
def MISSING : CString := "/none".toList

/-- A buffer full of letters. -/
def LETTERS : List Char := List.replicate PATH_MAX 'a'

theorem cstr_letters : cstr LETTERS = none := by
  have hmem : nul ∉ LETTERS := fun h => by cases List.eq_of_mem_replicate h
  have hlen : LETTERS.length = PATH_MAX := List.length_replicate
  rw [cstr, List.take_of_length_le hlen.le, if_neg (not_or.mpr ⟨hlen.not_lt, hmem⟩)]

/-- The child's memory is full of letters. -/
def lettersIo : HookCalls := { linkIo with mem := fun _ => some LETTERS }

theorem lettersIo_mem (addr : Long) : lettersIo.mem addr = some LETTERS := rfl

/-- After the lookup of a missing file, `stat` of the link to the cache partition is aborted, and its
path is not returned; and a buffer full of letters is used as if it ended. -/
theorem patharg_after_failure :
    errnoAfter [(linkFs.toFsView, MISSING)] none = some .ENOENT ∧
    linkIo.argPath 1 true = some CACHE ∧
    pathargOf linkIo linkIo.path 1 true (some .ENOENT) = some none ∧
    (∃ st', runHook demoData linkIo .stat64 true
      { enterHook ⟨1, 0, 0, 0, 0, 0, 0⟩ with errno := some .ENOENT } = some (.ABORT, st')) ∧
    lettersIo.argPath 1 true = none ∧
    pathargOf lettersIo lettersIo.path 1 true none = none := by
  refine ⟨rfl, rfl, rfl, ⟨_, rfl⟩, ?_, ?_⟩
  · rw [HookCalls.argPath, HookCalls.pathAt, lettersIo_mem, Option.bind_some, cstr_letters,
      Option.map_none]
  · exact pathargOf_unterminated rfl (lettersIo_mem 1) cstr_letters true none

end Multiboot
