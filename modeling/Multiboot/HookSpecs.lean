import Multiboot.Hooks

/-!
# What one hook invocation can do

`PreEffect` and `PostEffect` list, for a hook that continues, every way the state can have changed
(`runHook_pre`, `runHook_post`).  All invariants over runs are derived from these two relations; no
later proof unfolds a hook.
-/

namespace Multiboot

open Lib

/-! ### Path arguments -/

/-- The name `get_patharg` returns for the path `p`. -/
def pathName (fs : FsView) (real : Bool) (p : CString) : CString :=
  if real then
    match fs.stat p, fs.realpath p with
    | .ok _, .ok q => q
    | _, _ => p
  else p

/-- The path the child has at `addr`, as the kernel reads it. -/
def HookCalls.pathAt (io : HookCalls) (addr : Long) : Option CString := (io.mem addr).bind cstr

/-- The name a hook works with for the path argument at `addr`. -/
def HookCalls.argPath (io : HookCalls) (addr : Long) (real : Bool) : Option CString :=
  (io.pathAt addr).map (pathName io.fs real)

/-- `get_patharg` gives up on a path it should resolve: `realpath` fails, or `errno` was not 0. -/
def resolveFails (io : HookCalls) (calls : PathCalls) (p : CString) (errno : Option Errno) : Bool :=
  match io.fs.stat p, io.fs.realpath p with
  | .error _, _ => false
  | .ok _, .ok _ => !calls.resolve || errno.isSome
  | .ok _, .error _ => true

theorem getPatharg_of_resolves {io : HookCalls} {calls : PathCalls} {addr : Long} {real : Bool}
    {errno : Option Errno} {p : CString} (hr : calls.read = true) (hp : io.pathAt addr = some p)
    (hf : (real && resolveFails io calls p errno) = false) :
    getPatharg io calls addr real errno =
      some (some (pathName io.fs real p), if real then io.fs.statErrno p errno else errno) := by
  obtain ⟨bytes, hm, hc⟩ := Option.bind_eq_some_iff.mp hp
  cases real with
  | false => simp [getPatharg, HookCalls.readMem, hr, hm, hc, pathName]
  | true =>
    rcases hs : io.fs.stat p with e | sb
    · simp [getPatharg, HookCalls.readMem, hr, hm, hc, pathName, hs, FsView.statErrno]
    · rcases hq : io.fs.realpath p with e | q
      · simp [resolveFails, hs, hq] at hf
      · simp only [Bool.true_and, resolveFails, hs, hq, Bool.or_eq_false_iff, Bool.not_eq_false',
          Option.isSome_eq_false_iff, Option.isNone_iff_eq_none] at hf
        simp [getPatharg, HookCalls.readMem, hr, hm, hc, pathName, hs, hq, hf, FsView.statErrno]

theorem getPatharg_of_fails {io : HookCalls} {calls : PathCalls} {addr : Long}
    {errno : Option Errno} {p : CString} (hr : calls.read = true) (hp : io.pathAt addr = some p)
    (hf : resolveFails io calls p errno = true) :
    ∃ e, getPatharg io calls addr true errno = some (none, e) := by
  obtain ⟨bytes, hm, hc⟩ := Option.bind_eq_some_iff.mp hp
  rcases hs : io.fs.stat p with e | sb
  · simp [resolveFails, hs] at hf
  · rcases hq : io.fs.realpath p with e | q
    · exact ⟨some e, by simp [getPatharg, HookCalls.readMem, hr, hm, hc, hs, hq]⟩
    · cases hcr : calls.resolve with
      | false =>
        exact ⟨some .ENOMEM, by simp [getPatharg, HookCalls.readMem, hr, hm, hc, hs, hq, hcr]⟩
      | true =>
        have he : errno ≠ none := by
          simpa [resolveFails, hs, hq, hcr, Option.isSome_iff_ne_none] using hf
        exact ⟨errno, by simp [getPatharg, HookCalls.readMem, hr, hm, hc, hs, hq, hcr, he]⟩

/-- A path that `get_patharg` returns can be read and did not have to be given up. -/
theorem getPatharg_spec {io : HookCalls} {calls : PathCalls} {addr : Long} {real : Bool}
    {errno e : Option Errno} {path : CString}
    (h : getPatharg io calls addr real errno = some (some path, e)) :
    ∃ p, io.pathAt addr = some p ∧ (real && resolveFails io calls p errno) = false ∧
      path = pathName io.fs real p ∧ e = if real then io.fs.statErrno p errno else errno := by
  cases hr : calls.read with
  | false => simp [getPatharg, HookCalls.readMem, hr] at h
  | true =>
    cases hm : io.mem addr with
    | none => simp [getPatharg, HookCalls.readMem, hr, hm] at h
    | some bytes =>
      cases hc : cstr bytes with
      | none => simp [getPatharg, HookCalls.readMem, hr, hm, hc] at h
      | some p =>
        have hp : io.pathAt addr = some p := Option.bind_eq_some_iff.mpr ⟨bytes, hm, hc⟩
        cases hf : real && resolveFails io calls p errno with
        | false =>
          rw [getPatharg_of_resolves hr hp hf] at h
          obtain ⟨hpath, he⟩ := Prod.mk.inj (Option.some.inj h)
          exact ⟨p, hp, hf, (Option.some.inj hpath).symm, he.symm⟩
        | true =>
          rw [Bool.and_eq_true] at hf
          obtain ⟨e', he⟩ := getPatharg_of_fails hr hp hf.2
          rw [hf.1, he] at h
          cases (Prod.mk.inj (Option.some.inj h)).1

theorem getPatharg_some {io : HookCalls} {calls : PathCalls} {addr : Long} {real : Bool}
    {errno e : Option Errno} {path : CString}
    (h : getPatharg io calls addr real errno = some (some path, e)) :
    io.argPath addr real = some path := by
  obtain ⟨p, hp, -, rfl, -⟩ := getPatharg_spec h
  rw [HookCalls.argPath, hp, Option.map_some]

/-! ### The scratch copy of a path -/

/-- `replacePath` has put `text` at `addr` of the child and changed the arguments with `f`. -/
def HookSt.copied (st : HookSt) (addr : Long) (text : CString) (f : ScArgs → ScArgs) : HookSt :=
  { st with
    args := f st.args
    mbc := { st.mbc with memory := some addr }
    touches := st.touches ++ [.mmap addr (PATH_MAX + 1), .write addr text] }

theorem replacePath_continue {io : HookCalls} {text : CString} {f : Long → ScArgs → ScArgs}
    {st st' : HookSt} (h : replacePath io text f st = (.CONTINUE, st')) :
    ∃ addr, io.mmap = some addr ∧ addr ≠ 0 ∧ text.length ≤ PATH_MAX ∧
      st' = st.copied addr text (f addr) := by
  unfold replacePath copyPatharg at h
  by_cases hlen : text.length + 1 > PATH_MAX + 1
  · simp only [if_pos hlen, Prod.mk.injEq, reduceCtorEq, false_and] at h
  · simp only [if_neg hlen] at h
    cases hm : io.mmap with
    | none => simp only [hm, Prod.mk.injEq, reduceCtorEq, false_and] at h
    | some addr =>
      by_cases h0 : addr = 0
      · simp only [hm, if_pos h0, Prod.mk.injEq, reduceCtorEq, false_and] at h
      · simp only [hm, if_neg h0] at h
        refine ⟨addr, rfl, h0, Nat.le_of_succ_le_succ (not_lt.mp hlen), ?_⟩
        cases hw : io.writeMem <;> cases hmod : io.modifyArgs <;>
          simp only [hw, hmod, if_true, Bool.false_eq_true, if_false, Prod.mk.injEq, reduceCtorEq,
            false_and, true_and] at h
        rw [← h]
        simp [HookSt.copied, HookSt.touch]

/-! ### The hook of open, before the call -/

/-- The access mode given to `open` or `openat` is not read-only. -/
def forWriting (args : ScArgs) (argpos : ℕ) : Bool :=
  args.nth (argpos + 1) &&& O_ACCMODE != O_RDONLY

/-- `hook_open` has selected `r` for a descriptor of `path`. -/
def HookSt.tracked (st : HookSt) (io : HookCalls) (path : CString) (r : FstabRec)
    (e : Option Errno) : HookSt :=
  { st with
    errno := e
    touches := st.touches ++ [.store path]
    disks := checkFsNomount io r.stubDevice st.disks
    mbc := { st.mbc with handledByOpen := true, tmp := some path }
    chosen := some r
    number := io.fs.number path }

inductive OpenPre (data : ModuleData) (io : HookCalls) (argpos : ℕ) (real : Bool) (st : HookSt) :
    HookSt → Prop
  | untracked (e : Option Errno)
      (h : forWriting st.args argpos = true → ∀ path r,
        io.argPath (st.args.nth argpos) real = some path →
        getFstabRec data io.fs path = some r → r.replacementBind = false) :
      OpenPre data io argpos real st { st with errno := e }
  | tracked (e : Option Errno) (path : CString) (r : FstabRec)
      (hw : forWriting st.args argpos = true)
      (hp : io.argPath (st.args.nth argpos) real = some path)
      (hr : getFstabRec data io.fs path = some r) (hb : r.replacementBind = true) :
      OpenPre data io argpos real st (st.tracked io path r e)

theorem hookOpen_pre {data : ModuleData} {io : HookCalls} {argpos : ℕ} {real : Bool}
    {st st' : HookSt} (h : hookOpen data io true argpos real st = some (.CONTINUE, st')) :
    OpenPre data io argpos real st st' := by
  unfold hookOpen at h
  rw [if_pos rfl] at h
  by_cases hro : st.args.nth (argpos + 1) &&& O_ACCMODE = O_RDONLY
  · rw [if_pos hro] at h
    obtain rfl : st = st' := by simpa using h
    exact .untracked st.errno (fun hw => by simp [forWriting, hro] at hw)
  · have hw : forWriting st.args argpos = true := by simpa [forWriting] using hro
    rw [if_neg hro] at h
    rcases hg : getPatharg io io.openPath (st.args.nth argpos) real st.errno with _ | ⟨_ | path, e⟩
    · simp [hg] at h
    · simp [hg] at h
    · have hp : io.argPath (st.args.nth argpos) real = some path := getPatharg_some hg
      rw [hg] at h
      cases hr : getFstabRec data io.fs path with
      | none =>
        simp only [hr, Option.some.injEq, Prod.mk.injEq, true_and] at h
        subst h
        refine .untracked _ (fun _ path' r hp' hr' => ?_)
        rw [← Option.some.inj (hp.symm.trans hp'), hr] at hr'
        cases hr'
      | some r =>
        cases hb : r.replacementBind with
        | false =>
          simp only [hr, hb, Bool.not_false, if_true, Option.some.injEq, Prod.mk.injEq,
            true_and] at h
          subst h
          refine .untracked _ (fun _ path' r' hp' hr' => ?_)
          rw [← Option.some.inj (hp.symm.trans hp'), hr] at hr'
          cases hr'
          exact hb
        | true =>
          simp only [hr, hb, Bool.not_true, Bool.false_eq_true, if_false, Option.some.injEq,
            Prod.mk.injEq, true_and] at h
          subst h
          exact .tracked _ path r hw hp hr hb

/-! ### Rewriting the path, before the call -/

inductive RedirectPre (data : ModuleData) (io : HookCalls) (argpos : ℕ) (real : Bool)
    (st : HookSt) : HookSt → Prop
  | unchanged (e : Option Errno)
      (h : ∀ path r, io.argPath (st.args.nth argpos) real = some path →
        getFstabRec data io.fs path = some r → real = false ∧ isLink io.fs path = true) :
      RedirectPre data io argpos real st { st with errno := e }
  | rewritten (e : Option Errno) (addr : Long) (path : CString) (r : FstabRec) (text : CString)
      (hp : io.argPath (st.args.nth argpos) real = some path)
      (hr : getFstabRec data io.fs path = some r)
      (ht : (if r.replacementBind then r.stubDevice else r.replacementDevice) = some text)
      (hlen : text.length ≤ PATH_MAX) :
      RedirectPre data io argpos real st
        ({ st with errno := e }.copied addr text (fun a => a.setNth argpos addr))

theorem redirectPre_spec {data : ModuleData} {io : HookCalls} {argpos : ℕ} {real : Bool}
    {st st' : HookSt} (h : redirectPre data io argpos real st = some (.CONTINUE, st')) :
    RedirectPre data io argpos real st st' := by
  unfold redirectPre at h
  rcases hg : getPatharg io io.path (st.args.nth argpos) real st.errno with _ | ⟨_ | path, e⟩
  · simp [hg] at h
  · simp [hg] at h
  · have hp : io.argPath (st.args.nth argpos) real = some path := getPatharg_some hg
    rw [hg] at h
    cases hr : getFstabRec data io.fs path with
    | none =>
      simp only [hr, Option.some.injEq, Prod.mk.injEq, true_and] at h
      subst h
      refine .unchanged _ fun path' r hp' hr' => ?_
      rw [← Option.some.inj (hp.symm.trans hp'), hr] at hr'
      cases hr'
    | some r =>
      simp only [hr] at h
      by_cases hl : (!real && isLink io.fs path) = true
      · rw [if_pos hl] at h
        obtain rfl := (Prod.mk.inj (Option.some.inj h)).2
        refine .unchanged _ fun path' r' hp' _ => ?_
        rw [← Option.some.inj (hp.symm.trans hp')]
        simpa using hl
      · rw [if_neg hl] at h
        cases ht : (if r.replacementBind then r.stubDevice else r.replacementDevice) with
        | none => simp only [ht, reduceCtorEq] at h
        | some text =>
          simp only [ht, Option.some.injEq] at h
          obtain ⟨addr, -, -, hlen, rfl⟩ := replacePath_continue h
          exact .rewritten _ addr path r text hp hr ht hlen

/-! ### All hooks, before the call -/

def isOpen (call : Syscall) : Bool := call == .open || call == .openat

inductive PreEffect (data : ModuleData) (io : HookCalls) (call : Syscall) (st : HookSt) :
    HookSt → Prop
  | quiet (e : Option Errno) (h : hookOf call ≠ some .fileaccess)
      (hclose : call = .close → llFind st.mbc.files st.args.a0.toInt = none)
      (hdup : hookOf call = some .dup → llFind st.mbc.files st.args.a0.toInt = none) :
      PreEffect data io call st { st with errno := e }
  | file (row : RedirectInfo) (st1 st2 : HookSt) (hrow : infoOf call = some row)
      (hopen : isOpen call = true →
        OpenPre data io row.argnum (resolveOf row call st.args) st st1)
      (hother : isOpen call = false → st1 = st)
      (hred : RedirectPre data io row.argnum (resolveOf row call st.args) st1 st2) :
      PreEffect data io call st st2
  | closed (fdi : FdInfo) (was : Bool) (hcall : call = .close)
      (hf : llFind st.mbc.files st.args.a0.toInt = some fdi)
      (hw : fsWasFormat io.close st.disks fdi = some was) :
      PreEffect data io call st
        { st with
          mbc := { st.mbc with files := llDel st.mbc.files st.args.a0.toInt }
          wipes := st.wipes ++
            if was then
              ((getFstabRec data io.fs fdi.filename).map
                (fun r => Wipe.mk fdi.device (wipePath r))).toList
            else [] }
  | dupped (fdi : FdInfo) (hcall : hookOf call = some .dup)
      (hf : llFind st.mbc.files st.args.a0.toInt = some fdi) :
      PreEffect data io call st
        { st with
          mbc := { st.mbc with tmp := some fdi.filename }
          touches := st.touches ++ [.store fdi.filename] }
  | mounted (e : Option Errno) (addr : Long) (text : CString) (bind : Bool)
      (hcall : call = .mount) (hlen : text.length ≤ PATH_MAX) :
      PreEffect data io call st ({ st with errno := e }.copied addr text (mountArgs bind addr))

theorem hookClose_pre {data : ModuleData} {io : HookCalls} {st st' : HookSt}
    (h : hookClose data io true st = some (.CONTINUE, st')) : PreEffect data io .close st st' := by
  unfold hookClose at h
  rw [if_pos rfl] at h
  cases hf : llFind st.mbc.files st.args.a0.toInt with
  | none =>
    simp only [hf, Option.some.injEq, Prod.mk.injEq, true_and] at h
    subst h
    exact .quiet st.errno (by decide) (fun _ => hf) (fun hd => by cases hd)
  | some fdi =>
    cases hw : fsWasFormat io.close st.disks fdi with
    | none => simp [hf, hw] at h
    | some was =>
      cases hfree : freeFdinfo fdi with
      | none => simp [hf, hw, hfree] at h
      | some u =>
        simp only [hf, hw, hfree, Option.some.injEq, Prod.mk.injEq, true_and] at h
        have key : PreEffect data io .close st _ := .closed fdi was rfl hf hw
        convert key using 1
        rw [← h]
        cases was <;> cases hr : getFstabRec data io.fs fdi.filename <;> simp [HookSt.formatPath]

theorem hookDup_pre {data : ModuleData} {io : HookCalls} {call : Syscall} {st st' : HookSt}
    (hcall : hookOf call = some .dup) (h : hookDup data io true st = some (.CONTINUE, st')) :
    PreEffect data io call st st' := by
  unfold hookDup at h
  rw [if_pos rfl] at h
  cases hf : llFind st.mbc.files st.args.a0.toInt with
  | none =>
    simp only [hf, Option.some.injEq, Prod.mk.injEq, true_and] at h
    subst h
    exact .quiet st.errno (by simp [hcall]) (fun _ => hf) (fun _ => hf)
  | some fdi =>
    simp only [hf, Option.some.injEq, Prod.mk.injEq, true_and] at h
    subst h
    exact .dupped fdi hcall hf

theorem hookMount_pre {data : ModuleData} {io : HookCalls} {st st' : HookSt}
    (h : hookMount data io true st = some (.CONTINUE, st')) : PreEffect data io .mount st st' := by
  have quiet : ∀ e, PreEffect data io .mount st { st with errno := e } := fun e =>
    .quiet e (by decide) (fun hc => by cases hc) (fun hd => by cases hd)
  unfold hookMount at h
  rw [if_pos rfl] at h
  rcases hg : getPatharg io io.path st.args.a0 true st.errno with _ | ⟨_ | dev, e⟩
  · simp [hg] at h
  · simp [hg] at h
  · rcases hg2 : getPatharg io io.targetPath st.args.a1 true e with _ | ⟨_ | target, e2⟩
    · simp [hg, hg2] at h
    · simp [hg, hg2] at h
    · simp only [hg, hg2] at h
      split at h
      · simp only [Option.some.injEq, Prod.mk.injEq, true_and] at h
        subst h
        exact quiet _
      · rename_i r _
        cases ht : r.replacementDevice with
        | none => simp [ht] at h
        | some text =>
          simp only [ht, Option.some.injEq] at h
          obtain ⟨addr, -, -, hlen, rfl⟩ := replacePath_continue h
          exact .mounted _ addr text r.replacementBind rfl hlen

theorem hookFileaccess_pre {data : ModuleData} {io : HookCalls} {call : Syscall} {st st' : HookSt}
    (h : hookFileaccess data io call true st = some (.CONTINUE, st')) :
    PreEffect data io call st st' := by
  unfold hookFileaccess at h
  cases hrow : infoOf call with
  | none => simp [hrow] at h
  | some row =>
    simp only [hrow, redirectFileAccess] at h
    by_cases hc : call = .open ∨ call = .openat
    · have ho : isOpen call = true := by simpa [isOpen] using hc
      rw [if_pos hc] at h
      rcases hk : hookOpen data io true row.argnum (resolveOf row call st.args) st with
        _ | ⟨_ | _, st1⟩
      · simp [hk] at h
      · simp only [hk, if_true] at h
        exact .file row st1 st' hrow (fun _ => hookOpen_pre hk) (fun hn => by simp [ho] at hn)
          (redirectPre_spec h)
      · simp [hk] at h
    · have ho : isOpen call = false := by simpa [isOpen] using hc
      rw [if_neg hc] at h
      exact .file row st st' hrow (fun hn => by simp [ho] at hn) (fun _ => rfl)
        (redirectPre_spec (by simpa using h))

/-- **Before the call**: a hook that continues has one of the listed effects. -/
theorem runHook_pre {data : ModuleData} {io : HookCalls} {call : Syscall} {st st' : HookSt}
    (h : runHook data io call true st = some (.CONTINUE, st')) : PreEffect data io call st st' := by
  unfold runHook at h
  cases hk : hookOf call with
  | none =>
    simp only [hk, Option.some.injEq, Prod.mk.injEq, true_and] at h
    subst h
    exact .quiet st.errno (by simp [hk]) (fun hc => by subst hc; cases hk)
      (fun hd => by rw [hk] at hd; cases hd)
  | some hook =>
    simp only [hk] at h
    cases hook with
    | fileaccess => exact hookFileaccess_pre h
    | close =>
      obtain rfl : call = .close := by cases call <;> first | rfl | cases hk
      exact hookClose_pre h
    | dup => exact hookDup_pre hk h
    | fcntl =>
      unfold hookFcntl at h
      rw [if_pos rfl] at h
      cases hf : llFind st.mbc.files st.args.a0.toInt with
      | some fdi => simp [hf] at h
      | none =>
        simp only [hf, Option.some.injEq, Prod.mk.injEq, true_and] at h
        subst h
        exact .quiet st.errno (by simp [hk]) (fun _ => hf) (fun _ => hf)
    | mount =>
      obtain rfl : call = .mount := by cases call <;> first | rfl | cases hk
      exact hookMount_pre h

/-! ### All hooks, after the call -/

/-- What the post hooks of open and dup do with the path stored before the call. -/
inductive TmpPost (data : ModuleData) (io : HookCalls) (make : DevCalls) (st : HookSt) :
    HookSt → Prop
  | empty (h : st.mbc.tmp = none) : TmpPost data io make st st
  | failed (path : CString) (ht : st.mbc.tmp = some path) (hfd : st.args.returnCode.toInt < 0) :
      TmpPost data io make st
        { st with
          touches := st.touches ++ [.load path]
          mbc := { st.mbc with tmp := none } }
  | added (path : CString) (fdi : FdInfo) (ht : st.mbc.tmp = some path)
      (hfd : 0 ≤ st.args.returnCode.toInt)
      (hm : makeFdinfo data io.fs make st.disks path = some fdi) :
      TmpPost data io make st
        { st with
          touches := st.touches ++ [.load path]
          mbc := { st.mbc with
            files := llAdd st.mbc.files st.args.returnCode.toInt fdi, tmp := none } }

def HookSt.unhandled (st : HookSt) : HookSt :=
  { st with mbc := { st.mbc with handledByOpen := false } }

inductive PostEffect (data : ModuleData) (io : HookCalls) (call : Syscall) (st : HookSt) :
    HookSt → Prop
  | nothing (h : hookOf call ≠ some .fileaccess) (hm : call ≠ .mount)
      (hd : hookOf call ≠ some .dup) : PostEffect data io call st st
  | opened (st1 : HookSt) (hcall : isOpen call = true)
      (ht : st.mbc.handledByOpen = true → TmpPost data io io.make st st1)
      (hn : st.mbc.handledByOpen = false → st1 = st) :
      PostEffect data io call st (freeMemory st1.unhandled)
  | freed (h : hookOf call = some .fileaccess ∨ call = .mount) (ho : isOpen call = false) :
      PostEffect data io call st (freeMemory st)
  | dupped (st1 : HookSt) (hcall : hookOf call = some .dup)
      (ht : TmpPost data io io.make2 st st1) : PostEffect data io call st st1

theorem hookOpen_post {data : ModuleData} {io : HookCalls} {argpos : ℕ} {real : Bool} {rc : Rc}
    {st st' : HookSt} (h : hookOpen data io false argpos real st = some (rc, st')) :
    rc = .CONTINUE ∧ ∃ st1, st' = st1.unhandled ∧
      (st.mbc.handledByOpen = true → TmpPost data io io.make st st1) ∧
      (st.mbc.handledByOpen = false → st1 = st) := by
  unfold hookOpen at h
  rw [if_neg Bool.false_ne_true] at h
  cases hh : st.mbc.handledByOpen with
  | false =>
    simp only [hh, Bool.false_eq_true, if_false, Option.some.injEq, Prod.mk.injEq] at h
    exact ⟨h.1.symm, st, h.2.symm, by simp, fun _ => rfl⟩
  | true =>
    simp only [hh, if_true] at h
    cases ht : st.mbc.tmp with
    | none =>
      simp only [ht] at h
      obtain ⟨rfl, rfl⟩ := Prod.mk.inj (Option.some.inj h)
      exact ⟨rfl, st, by simp [HookSt.unhandled, ht], fun _ => .empty ht, by simp⟩
    | some path =>
      simp only [ht] at h
      by_cases hfd : 0 ≤ st.args.returnCode.toInt
      · rw [if_pos hfd] at h
        cases hm : makeFdinfo data io.fs io.make st.disks path with
        | none =>
          rw [show (st.touch (.load path)).disks = st.disks from rfl, hm] at h
          cases h
        | some fdi =>
          rw [show (st.touch (.load path)).disks = st.disks from rfl, hm] at h
          obtain ⟨rfl, rfl⟩ := Prod.mk.inj (Option.some.inj h)
          exact ⟨rfl, _, rfl, fun _ => .added path fdi ht hfd hm, by simp [hh]⟩
      · rw [if_neg hfd] at h
        obtain ⟨rfl, rfl⟩ := Prod.mk.inj (Option.some.inj h)
        exact ⟨rfl, _, rfl, fun _ => .failed path ht (not_le.mp hfd), by simp [hh]⟩

theorem hookDup_post {data : ModuleData} {io : HookCalls} {rc : Rc} {st st' : HookSt}
    (h : hookDup data io false st = some (rc, st')) :
    rc = .CONTINUE ∧ TmpPost data io io.make2 st st' := by
  unfold hookDup at h
  rw [if_neg Bool.false_ne_true] at h
  cases ht : st.mbc.tmp with
  | none =>
    simp only [ht] at h
    obtain ⟨rfl, rfl⟩ := Prod.mk.inj (Option.some.inj h)
    exact ⟨rfl, .empty ht⟩
  | some path =>
    simp only [ht] at h
    by_cases hfd : 0 ≤ st.args.returnCode.toInt
    · rw [if_pos hfd, show (st.touch (.load path)).disks = st.disks from rfl] at h
      cases hm : makeFdinfo data io.fs io.make st.disks path with
      | none => simp only [hm, reduceCtorEq] at h
      | some _ =>
        cases hm2 : makeFdinfo data io.fs io.make2 st.disks path with
        | none => simp only [hm, hm2, reduceCtorEq] at h
        | some fdi =>
          simp only [hm, hm2] at h
          obtain ⟨rfl, rfl⟩ := Prod.mk.inj (Option.some.inj h)
          exact ⟨rfl, .added path fdi ht hfd hm2⟩
    · rw [if_neg hfd] at h
      obtain ⟨rfl, rfl⟩ := Prod.mk.inj (Option.some.inj h)
      exact ⟨rfl, .failed path ht (not_le.mp hfd)⟩

/-- **After the call**: a hook that survives continues, with one of the listed effects. -/
theorem runHook_post {data : ModuleData} {io : HookCalls} {call : Syscall} {rc : Rc}
    {st st' : HookSt} (h : runHook data io call false st = some (rc, st')) :
    rc = .CONTINUE ∧ PostEffect data io call st st' := by
  have nothing : hookOf call ≠ some .fileaccess → call ≠ .mount → hookOf call ≠ some .dup →
      some (Rc.CONTINUE, st) = some (rc, st') → rc = .CONTINUE ∧ PostEffect data io call st st' := by
    intro h1 h2 h3 h
    obtain ⟨rfl, rfl⟩ := Prod.mk.inj (Option.some.inj h)
    exact ⟨rfl, .nothing h1 h2 h3⟩
  unfold runHook at h
  cases hk : hookOf call with
  | none =>
    simp only [hk] at h
    exact nothing (by simp [hk]) (by rintro rfl; cases hk) (by simp [hk]) h
  | some hook =>
    simp only [hk] at h
    cases hook with
    | fileaccess =>
      simp only [hookFileaccess] at h
      obtain ⟨row, hrow⟩ := Option.isSome_iff_exists.mp ((infoOf_isSome_iff call).mpr hk)
      simp only [hrow, redirectFileAccess] at h
      by_cases hc : call = .open ∨ call = .openat
      · have ho : isOpen call = true := by simpa [isOpen] using hc
        rw [if_pos hc] at h
        rcases ho' : hookOpen data io false row.argnum (resolveOf row call st.args) st with
          _ | ⟨rc', st2⟩
        · simp only [ho', reduceCtorEq] at h
        · obtain ⟨rfl, st1, rfl, ht, hn⟩ := hookOpen_post ho'
          simp only [ho', Bool.false_eq_true, if_false] at h
          obtain ⟨rfl, rfl⟩ := Prod.mk.inj (Option.some.inj h)
          exact ⟨rfl, .opened st1 ho ht hn⟩
      · have ho : isOpen call = false := by simpa [isOpen] using hc
        rw [if_neg hc] at h
        simp only [Bool.false_eq_true, if_false] at h
        obtain ⟨rfl, rfl⟩ := Prod.mk.inj (Option.some.inj h)
        exact ⟨rfl, .freed (Or.inl hk) ho⟩
    | close => exact nothing (by simp [hk]) (by rintro rfl; cases hk) (by simp [hk]) h
    | dup =>
      obtain ⟨rfl, ht⟩ := hookDup_post h
      exact ⟨rfl, .dupped st' hk ht⟩
    | fcntl => exact nothing (by simp [hk]) (by rintro rfl; cases hk) (by simp [hk]) h
    | mount =>
      obtain rfl : call = .mount := by cases call <;> first | rfl | cases hk
      obtain ⟨rfl, rfl⟩ := Prod.mk.inj (Option.some.inj h)
      exact ⟨rfl, .freed (Or.inr rfl) rfl⟩

/-! ### When a hook survives -/

/-- After a call, the tracer survives if the stored path still has a record with a stub device. -/
theorem runHook_post_isSome (data : ModuleData) (io : HookCalls) (call : Syscall) (st : HookSt)
    (h : ∀ path, st.mbc.tmp = some path → 0 ≤ st.args.returnCode.toInt →
      ∃ r dev, getFstabRec data io.fs path = some r ∧ r.stubDevice = some dev) :
    ∃ st', runHook data io call false st = some (.CONTINUE, st') := by
  have hmade : ∀ make path, st.mbc.tmp = some path → 0 ≤ st.args.returnCode.toInt →
      ∃ fdi, makeFdinfo data io.fs make st.disks path = some fdi := fun make path ht hret =>
    Option.isSome_iff_exists.mp (makeFdinfo_isSome_iff.mpr (h path ht hret))
  have hsome : (runHook data io call false st).isSome := by
    unfold runHook
    rcases hk : hookOf call with _ | _ | _ | _ | _ | _
    case none | close | fcntl | mount => rfl
    case fileaccess =>
      obtain ⟨row, hrow⟩ := Option.isSome_iff_exists.mp ((infoOf_isSome_iff call).mpr hk)
      simp only [hookFileaccess, hrow, redirectFileAccess, Bool.false_eq_true, if_false]
      split_ifs
      · cases hh : st.mbc.handledByOpen with
        | false => simp [hookOpen, hh]
        | true =>
          cases ht : st.mbc.tmp with
          | none => simp [hookOpen, hh, ht]
          | some path =>
            by_cases hret : 0 ≤ st.args.returnCode.toInt
            · obtain ⟨fdi, hm⟩ := hmade io.make path ht hret
              simp [hookOpen, hh, ht, hret, HookSt.touch, hm]
            · simp [hookOpen, hh, ht, hret]
      · rfl
    case dup =>
      cases ht : st.mbc.tmp with
      | none => simp [hookDup, ht]
      | some path =>
        by_cases hret : 0 ≤ st.args.returnCode.toInt
        · obtain ⟨fdi, hm⟩ := hmade io.make path ht hret
          obtain ⟨fdi2, hm2⟩ := hmade io.make2 path ht hret
          simp [hookDup, ht, hret, HookSt.touch, hm, hm2]
        · simp [hookDup, ht, hret]
  obtain ⟨⟨rc, st'⟩, hrun⟩ := Option.isSome_iff_exists.mp hsome
  obtain ⟨rfl, -⟩ := runHook_post hrun
  exact ⟨st', hrun⟩

/-- Before a `close`, the tracer survives if the entry of the descriptor has a type. -/
theorem runHook_close_isSome (data : ModuleData) (io : HookCalls) (st : HookSt)
    (h : ∀ fdi, llFind st.mbc.files st.args.a0.toInt = some fdi → fdi.fsType ≠ none) :
    ∃ st', runHook data io .close true st = some (.CONTINUE, st') := by
  change ∃ st', hookClose data io true st = some (.CONTINUE, st')
  unfold hookClose
  rw [if_pos rfl]
  cases hf : llFind st.mbc.files st.args.a0.toInt with
  | none => exact ⟨st, by simp only [hf]⟩
  | some fdi =>
    obtain ⟨t, ht⟩ := Option.ne_none_iff_exists'.mp (h fdi hf)
    have hw : ∃ was, fsWasFormat io.close st.disks fdi = some was := by
      simp only [fsWasFormat, ht]
      split_ifs <;> exact ⟨_, rfl⟩
    obtain ⟨was, hw⟩ := hw
    simp only [hf, hw, freeFdinfo, ht, Option.map_some]
    exact ⟨_, rfl⟩

/-! ### The descriptor table and the devices -/

/-- The outcome of the device calls behind the entry that the hook after `call` adds. -/
def madeBy (call : Syscall) (io : HookCalls) : DevCalls := if isOpen call then io.make else io.make2

/-- One device may have been checked. -/
inductive Checked (disks : Disks) : Disks → Prop
  | same : Checked disks disks
  | fsck (dev : CString) (t : ℕ) :
      Checked disks (Function.update disks dev ((disks dev).fsck t))

theorem checkFsNomount_checked (io : HookCalls) (device : Option CString) (disks : Disks) :
    Checked disks (checkFsNomount io device disks) := by
  unfold checkFsNomount
  split
  · exact .fsck _ _
  · exact .same

theorem RedirectPre.frame {data : ModuleData} {io : HookCalls} {argpos : ℕ} {real : Bool}
    {st st' : HookSt} (h : RedirectPre data io argpos real st st') :
    st'.mbc.files = st.mbc.files ∧ st'.wipes = st.wipes ∧ st'.disks = st.disks := by
  cases h <;> exact ⟨rfl, rfl, rfl⟩

theorem OpenPre.frame {data : ModuleData} {io : HookCalls} {argpos : ℕ} {real : Bool}
    {st st' : HookSt} (h : OpenPre data io argpos real st st') :
    st'.mbc.files = st.mbc.files ∧ st'.wipes = st.wipes ∧ Checked st.disks st'.disks := by
  cases h with
  | untracked e => exact ⟨rfl, rfl, .same⟩
  | tracked e path r => exact ⟨rfl, rfl, checkFsNomount_checked io _ _⟩

/-- **Table, before the call**: only `close` changes it, by dropping the entry whose device it has
looked at. -/
theorem PreEffect.table {data : ModuleData} {io : HookCalls} {call : Syscall} {st st' : HookSt}
    (h : PreEffect data io call st st') :
    (st'.mbc.files = st.mbc.files ∧ st'.wipes = st.wipes ∧ Checked st.disks st'.disks ∧
      (call = .close → llFind st.mbc.files st.args.a0.toInt = none)) ∨
    ∃ fdi was, call = .close ∧ llFind st.mbc.files st.args.a0.toInt = some fdi ∧
      fsWasFormat io.close st.disks fdi = some was ∧
      st'.mbc.files = llDel st.mbc.files st.args.a0.toInt ∧ st'.disks = st.disks ∧
      st'.wipes = st.wipes ++
        if was then
          ((getFstabRec data io.fs fdi.filename).map
            (fun r => Wipe.mk fdi.device (wipePath r))).toList
        else [] := by
  cases h with
  | quiet e _ hclose => exact Or.inl ⟨rfl, rfl, .same, hclose⟩
  | file row st1 _ hrow hopen hother hred =>
    have hne : call ≠ .close := by
      rintro rfl
      cases hrow
    obtain ⟨hf2, hw2, hd2⟩ := hred.frame
    refine Or.inl ?_
    rw [hf2, hw2, hd2]
    cases ho : isOpen call with
    | false =>
      obtain rfl := hother ho
      exact ⟨rfl, rfl, .same, fun hc => absurd hc hne⟩
    | true =>
      obtain ⟨hf1, hw1, hd1⟩ := (hopen ho).frame
      exact ⟨hf1, hw1, hd1, fun hc => absurd hc hne⟩
  | closed fdi was hcall hf hw => exact Or.inr ⟨fdi, was, hcall, hf, hw, rfl, rfl, rfl⟩
  | dupped fdi hcall =>
    refine Or.inl ⟨rfl, rfl, .same, ?_⟩
    rintro rfl
    cases hcall
  | mounted e addr text bind hcall =>
    refine Or.inl ⟨rfl, rfl, .same, ?_⟩
    rintro rfl
    cases hcall

/-- Only the path hooks change the arguments. -/
theorem PreEffect.args_eq {data : ModuleData} {io : HookCalls} {call : Syscall} {st st' : HookSt}
    (h : PreEffect data io call st st') (hf : hookOf call ≠ some .fileaccess)
    (hm : call ≠ .mount) : st'.args = st.args := by
  cases h with
  | quiet => rfl
  | file row st1 _ hrow =>
    have hsome : (infoOf call).isSome := by
      rw [hrow]
      rfl
    exact absurd ((infoOf_isSome_iff call).mp hsome) hf
  | closed => rfl
  | dupped => rfl
  | mounted e addr text bind hcall => exact absurd hcall hm

/-- `hook_dup` stores the name of the entry it finds. -/
theorem PreEffect.dup {data : ModuleData} {io : HookCalls} {call : Syscall} {st st' : HookSt}
    (h : PreEffect data io call st st') (hcall : hookOf call = some .dup)
    (htmp : st.mbc.tmp = none) :
    st'.mbc.tmp = (llFind st'.mbc.files st'.args.a0.toInt).map FdInfo.filename := by
  cases h with
  | quiet e _ _ hdup =>
    rw [hdup hcall]
    exact htmp
  | file row st1 _ hrow =>
    have hsome : (infoOf call).isSome := by
      rw [hrow]
      rfl
    rw [(infoOf_isSome_iff call).mp hsome] at hcall
    cases hcall
  | closed fdi was hclose =>
    subst hclose
    cases hcall
  | dupped fdi _ hf =>
    rw [hf]
    rfl
  | mounted e addr text bind hmount =>
    subst hmount
    cases hcall

/-- The hook after a call has added an entry for the descriptor that the call returned. -/
structure Added (data : ModuleData) (io : HookCalls) (call : Syscall) (st st' : HookSt)
    (path : CString) (fdi : FdInfo) : Prop where
  tmp : st.mbc.tmp = some path
  ret : 0 ≤ st.args.returnCode.toInt
  made : makeFdinfo data io.fs (madeBy call io) st.disks path = some fdi
  files : st'.mbc.files = llAdd st.mbc.files st.args.returnCode.toInt fdi
  call : isOpen call = true ∨ isOpen call = false ∧ hookOf call = some .dup

theorem TmpPost.table {data : ModuleData} {io : HookCalls} {make : DevCalls} {st st' : HookSt}
    (h : TmpPost data io make st st') :
    st'.disks = st.disks ∧ st'.wipes = st.wipes ∧
      (st'.mbc.files = st.mbc.files ∧ (st.mbc.tmp = none ∨ st.args.returnCode.toInt < 0) ∨
        ∃ path fdi, st.mbc.tmp = some path ∧ 0 ≤ st.args.returnCode.toInt ∧
          makeFdinfo data io.fs make st.disks path = some fdi ∧
          st'.mbc.files = llAdd st.mbc.files st.args.returnCode.toInt fdi) := by
  cases h with
  | empty h => exact ⟨rfl, rfl, Or.inl ⟨rfl, Or.inl h⟩⟩
  | failed path ht hfd => exact ⟨rfl, rfl, Or.inl ⟨rfl, Or.inr hfd⟩⟩
  | added path fdi ht hfd hm => exact ⟨rfl, rfl, Or.inr ⟨path, fdi, ht, hfd, hm, rfl⟩⟩

theorem freeMemory_frame (st : HookSt) : (freeMemory st).mbc.files = st.mbc.files ∧
    (freeMemory st).disks = st.disks ∧ (freeMemory st).wipes = st.wipes := by
  unfold freeMemory
  cases st.mbc.memory <;> exact ⟨rfl, rfl, rfl⟩

/-- **Table, after the call**: nothing happens to it, or one entry is added. -/
theorem PostEffect.table {data : ModuleData} {io : HookCalls} {call : Syscall} {st st' : HookSt}
    (h : PostEffect data io call st st') :
    st'.disks = st.disks ∧ st'.wipes = st.wipes ∧
      (st'.mbc.files = st.mbc.files ∧
          (isOpen call = true → st.mbc.handledByOpen = true → st.mbc.tmp = none ∨
            st.args.returnCode.toInt < 0) ∧
          (hookOf call = some .dup → st.mbc.tmp = none ∨ st.args.returnCode.toInt < 0) ∨
        ∃ path fdi, Added data io call st st' path fdi) := by
  have hfile : isOpen call = true → hookOf call = some .fileaccess := by
    intro ho
    cases call <;> first | rfl | cases ho
  cases h with
  | nothing hf _ hd =>
    exact ⟨rfl, rfl, Or.inl ⟨rfl, fun ho => absurd (hfile ho) hf, fun h => absurd h hd⟩⟩
  | opened st1 hcall hpost hskip =>
    obtain ⟨hf, hd, hw⟩ := freeMemory_frame st1.unhandled
    have hnd : hookOf call ≠ some .dup := by
      rw [hfile hcall]
      decide
    rw [hd, hw]
    cases hh : st.mbc.handledByOpen with
    | false =>
      obtain rfl := hskip hh
      exact ⟨rfl, rfl, Or.inl ⟨hf, fun _ h => (by cases h), fun h => absurd h hnd⟩⟩
    | true =>
      obtain ⟨hd1, hw1, hfiles | ⟨path, fdi, ht, hret, hm, hfiles⟩⟩ := (hpost hh).table
      · exact ⟨hd1, hw1, Or.inl ⟨hf.trans hfiles.1, fun _ _ => hfiles.2, fun h => absurd h hnd⟩⟩
      · have hmade : makeFdinfo data io.fs (madeBy call io) st.disks path = some fdi := by
          rwa [madeBy, if_pos hcall]
        exact ⟨hd1, hw1, Or.inr ⟨path, fdi, ht, hret, hmade, hf.trans hfiles, Or.inl hcall⟩⟩
  | freed hor ho =>
    obtain ⟨hf, hd, hw⟩ := freeMemory_frame st
    have hnd : hookOf call ≠ some .dup := by
      rintro h
      rcases hor with hor | rfl
      · rw [h] at hor
        cases hor
      · cases h
    refine ⟨hd, hw, Or.inl ⟨hf, fun h => ?_, fun h => absurd h hnd⟩⟩
    rw [ho] at h
    cases h
  | dupped _ hcall hpost =>
    have ho : isOpen call = false := by cases call <;> first | rfl | cases hcall
    obtain ⟨hd1, hw1, hfiles | ⟨path, fdi, ht, hret, hm, hfiles⟩⟩ := hpost.table
    · refine ⟨hd1, hw1, Or.inl ⟨hfiles.1, fun h => ?_, fun _ => hfiles.2⟩⟩
      rw [ho] at h
      cases h
    · have hmade : makeFdinfo data io.fs (madeBy call io) st.disks path = some fdi := by
        rwa [madeBy, if_neg (by simp [ho])]
      exact ⟨hd1, hw1, Or.inr ⟨path, fdi, ht, hret, hmade, hfiles, Or.inr ⟨ho, hcall⟩⟩⟩

end Multiboot
