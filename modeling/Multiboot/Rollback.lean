import Multiboot.Redirect

/-!
# What an aborting hook leaves behind

A hook that stops a system call should undo what it did.  `Undone` says so for one event;
`undone_iff` says when it is so.  Two things are left behind: pages of a scratch region that is
unmapped with the length of the text, and the note of `hook_open` when the second half of the hook
fails.
-/

namespace Multiboot

open Lib

/-! ### Pages -/

def PAGE_SIZE : ℕ := 4096

/-- The pages of `len` bytes from `addr` on; lengths are rounded up to whole pages. -/
def pagesOf (addr : Long) (len : ℕ) : List ℕ :=
  (List.range ((len + PAGE_SIZE - 1) / PAGE_SIZE)).map fun i => addr.toNat / PAGE_SIZE + i

/-- The pages mapped after one more touch. -/
def pageStep (mapped : List ℕ) : Touch → List ℕ
  | .mmap addr len => pagesOf addr len ++ mapped
  | .munmap addr len => mapped.filter fun p => !(pagesOf addr len).contains p
  | _ => mapped

/-- The pages that `touches` map and leave mapped. -/
def pagesLeft (touches : List Touch) : List ℕ := touches.foldl pageStep []

/-- A scratch region has two pages, and one page is enough for a text below `PATH_MAX`. -/
theorem pagesOf_region (addr : Long) :
    pagesOf addr (PATH_MAX + 1) = [addr.toNat / PAGE_SIZE, addr.toNat / PAGE_SIZE + 1] := rfl

theorem pagesOf_text {len : ℕ} (h0 : 0 < len) (hlen : len ≤ PATH_MAX) (addr : Long) :
    pagesOf addr len = [addr.toNat / PAGE_SIZE] := by
  have hle : len ≤ 4096 := hlen
  have hone : (len + PAGE_SIZE - 1) / PAGE_SIZE = 1 := by
    show (len + 4096 - 1) / 4096 = 1
    omega
  rw [pagesOf, hone]
  rfl

/-- A region unmapped with the length of a text on its first page keeps its second page. -/
theorem pagesLeft_unwritten (addr : Long) (len : ℕ) (h0 : 0 < len) (hlen : len ≤ PATH_MAX) :
    pagesLeft [.mmap addr (PATH_MAX + 1), .munmap addr len] = [addr.toNat / PAGE_SIZE + 1] := by
  simp [pagesLeft, pageStep, pagesOf_region, pagesOf_text h0 hlen]

/-- What an event has done in the child since `st`. -/
def HookSt.since (st' st : HookSt) : List Touch := st'.touches.drop st.touches.length

/-- The event that led from `st` to `st'` is undone: nothing it mapped is left, and the arguments and
the scratch fields are as before. -/
structure Undone (st st' : HookSt) : Prop where
  pages : pagesLeft (st'.since st) = []
  args : st'.args = st.args
  memory : st'.mbc.memory = st.mbc.memory
  tmp : st'.mbc.tmp = st.mbc.tmp
  handled : st'.mbc.handledByOpen = st.mbc.handledByOpen

/-- Whenever the hook before `call` returns another code than `CONTINUE`, it has undone what it did. -/
def AbortUndone (data : ModuleData) (io : HookCalls) (call : Syscall) (st : HookSt) : Prop :=
  ∀ rc st', runHook data io call true st = some (rc, st') → rc ≠ .CONTINUE → Undone st st'

/-! ### Failing copies -/

/-- Copying `text` into the child and changing the arguments fails at some point. -/
def CopyFails (io : HookCalls) (text : CString) : Prop :=
  PATH_MAX < text.length ∨ io.mmap = none ∨ io.mmap = some 0 ∨ io.writeMem = false ∨
    io.modifyArgs = false

/-- The region for `text` is mapped at address 0, or cannot be written and `text` with its NUL fits
on its first page. -/
def CopyLeaks (io : HookCalls) (text : CString) : Prop :=
  text.length ≤ PATH_MAX ∧ (io.mmap = some 0 ∨
    (∃ addr, io.mmap = some addr ∧ addr ≠ 0) ∧ io.writeMem = false ∧ text.length < PATH_MAX)

theorem CopyLeaks.fails {io : HookCalls} {text : CString} (h : CopyLeaks io text) :
    CopyFails io text := by
  rcases h.2 with h0 | ⟨-, hw, -⟩
  · exact Or.inr (Or.inr (Or.inl h0))
  · exact Or.inr (Or.inr (Or.inr (Or.inl hw)))

/-- What a failing copy does in the child. -/
def failedTouches (io : HookCalls) (text : CString) : List Touch :=
  if PATH_MAX < text.length then []
  else
    match io.mmap with
    | none => []
    | some addr =>
      if addr = 0 then [.mmap addr (PATH_MAX + 1)]
      else if io.writeMem then
        [.mmap addr (PATH_MAX + 1), .write addr text, .munmap addr (PATH_MAX + 1)]
      else [.mmap addr (PATH_MAX + 1), .munmap addr (text.length + 1)]

theorem replacePath_abort {io : HookCalls} {text : CString} (hfail : CopyFails io text)
    (f : Long → ScArgs → ScArgs) (st : HookSt) :
    replacePath io text f st =
      (.ABORT, { st with touches := st.touches ++ failedTouches io text }) := by
  unfold replacePath copyPatharg failedTouches
  by_cases hlen : PATH_MAX < text.length
  · have hlen' : text.length + 1 > PATH_MAX + 1 := by omega
    simp [hlen, hlen']
  · have hlen' : ¬ text.length + 1 > PATH_MAX + 1 := by omega
    simp only [if_neg hlen, if_neg hlen']
    cases hm : io.mmap with
    | none => simp
    | some addr =>
      by_cases h0 : addr = 0
      · simp only [if_pos h0]
        rfl
      · simp only [if_neg h0]
        cases hw : io.writeMem with
        | false => simp [HookSt.touch]
        | true =>
          have hne : ¬ some addr = some (0 : Long) := fun h => h0 (Option.some.inj h)
          have hmod : io.modifyArgs = false := by
            simpa only [CopyFails, hlen, hm, hne, hw, reduceCtorEq, false_or, Bool.true_eq_false]
              using hfail
          simp [hmod, HookSt.touch, freePatharg]

theorem replacePath_of_not_fails {io : HookCalls} {text : CString} (h : ¬ CopyFails io text)
    (f : Long → ScArgs → ScArgs) (st : HookSt) :
    ∃ st', replacePath io text f st = (.CONTINUE, st') := by
  simp only [CopyFails, not_or, not_lt, Bool.not_eq_false] at h
  obtain ⟨hlen, hmap, h0, hw, hmod⟩ := h
  obtain ⟨addr, hm⟩ := Option.ne_none_iff_exists'.mp hmap
  have hne : addr ≠ 0 := fun h => h0 (by rw [hm, h])
  exact ⟨_, replacePath_succeeds hlen hm hne hw hmod f st⟩

/-- **The clean-up of a failing copy** leaves pages mapped exactly in the leaking cases. -/
theorem pagesLeft_failedTouches (io : HookCalls) (text : CString) :
    pagesLeft (failedTouches io text) = [] ↔ ¬ CopyLeaks io text := by
  unfold failedTouches CopyLeaks
  by_cases hlen : PATH_MAX < text.length
  · have hlen' : ¬ text.length ≤ PATH_MAX := by omega
    simp [hlen, hlen', pagesLeft]
  · have hlen' : text.length ≤ PATH_MAX := by omega
    simp only [if_neg hlen, hlen', true_and]
    cases hm : io.mmap with
    | none => simp [pagesLeft]
    | some addr =>
      by_cases h0 : addr = 0
      · subst h0
        simp [pagesLeft, pageStep, pagesOf_region]
      · have hne : ¬ some addr = some (0 : Long) := fun h => h0 (Option.some.inj h)
        have hmapped : ∃ a, some addr = some a ∧ a ≠ 0 := ⟨addr, rfl, h0⟩
        simp only [if_neg h0, hne, false_or, hmapped, true_and]
        cases hw : io.writeMem with
        | true => simp [pagesLeft, pageStep, pagesOf_region]
        | false =>
          by_cases hfull : text.length < PATH_MAX
          · have hone := pagesLeft_unwritten addr _ (Nat.succ_pos text.length) hfull
            simp [hfull, hone]
          · have heq : text.length = PATH_MAX := by omega
            simp [heq, pagesLeft, pageStep, pagesOf_region]

/-! ### Reading paths -/

/-- `get_patharg` returns the name of the path `p`, which the child has at `addr`. -/
structure Reads (io : HookCalls) (calls : PathCalls) (addr : Long) (real : Bool)
    (errno : Option Errno) (p : CString) : Prop where
  read : calls.read = true
  path : io.pathAt addr = some p
  resolves : (real && resolveFails io calls p errno) = false

/-- A path that is not returned: the tracer does not survive it, or has no path to work with. -/
theorem getPatharg_unread {io : HookCalls} {calls : PathCalls} {addr : Long} {real : Bool}
    {errno : Option Errno} (h : ∀ p, ¬ Reads io calls addr real errno p) :
    getPatharg io calls addr real errno = none ∨
      ∃ e, getPatharg io calls addr real errno = some (none, e) := by
  rcases hg : getPatharg io calls addr real errno with _ | ⟨_ | path, e⟩
  · exact Or.inl rfl
  · exact Or.inr ⟨e, rfl⟩
  · obtain ⟨p, hp, hres, -, -⟩ := getPatharg_spec hg
    have hread : calls.read = true := by
      by_contra hr
      simp [getPatharg, HookCalls.readMem, hr] at hg
    exact absurd ⟨hread, hp, hres⟩ (h p)

/-- The tracer survives a path it has survived before. -/
theorem getPatharg_again {io : HookCalls} {calls : PathCalls} {addr : Long} {real : Bool}
    {errno : Option Errno} {p : CString} (hp : io.pathAt addr = some p)
    (h : ¬ Reads io calls addr real errno p) :
    ∃ e, getPatharg io calls addr real errno = some (none, e) := by
  obtain ⟨bytes, hm, hc⟩ := Option.bind_eq_some_iff.mp hp
  cases hr : calls.read with
  | false => exact ⟨errno, by simp [getPatharg, HookCalls.readMem, hr]⟩
  | true =>
    cases real with
    | false => exact absurd ⟨hr, hp, rfl⟩ h
    | true =>
      refine getPatharg_of_fails hr hp ?_
      by_contra hf
      exact h ⟨hr, hp, by simpa using hf⟩

/-! ### open, openat -/

/-- `errno` behind `hook_open`. -/
def openErrno (io : HookCalls) (call : Syscall) (argpos : ℕ) (real : Bool) (p : CString)
    (st : HookSt) : Option Errno :=
  if isOpen call && forWriting st.args argpos then lookupErrno io.fs real p st.errno else st.errno

/-- `hook_open` takes note of the path `p`, which leads to the record `r`. -/
structure Notes (data : ModuleData) (io : HookCalls) (call : Syscall) (argpos : ℕ) (real : Bool)
    (st : HookSt) (p : CString) (r : FstabRec) : Prop where
  call : isOpen call = true
  writing : forWriting st.args argpos = true
  reads : Reads io io.openPath (st.args.nth argpos) real st.errno p
  found : getFstabRec data io.fs (pathName io.fs real p) = some r
  bind : r.replacementBind = true

theorem hookOpen_readonly (data : ModuleData) (io : HookCalls) {argpos : ℕ} (real : Bool)
    {st : HookSt} (hw : forWriting st.args argpos = false) :
    hookOpen data io true argpos real st = some (.CONTINUE, st) := by
  have hro : st.args.nth (argpos + 1) &&& O_ACCMODE = O_RDONLY := by simpa [forWriting] using hw
  unfold hookOpen
  rw [if_pos rfl, if_pos hro]

theorem hookOpen_unread (data : ModuleData) {io : HookCalls} {argpos : ℕ} {real : Bool}
    {st : HookSt} (hw : forWriting st.args argpos = true)
    (h : ∀ p, ¬ Reads io io.openPath (st.args.nth argpos) real st.errno p) :
    hookOpen data io true argpos real st = none ∨
      ∃ e, hookOpen data io true argpos real st = some (.ABORT, { st with errno := e }) := by
  have hro : ¬ st.args.nth (argpos + 1) &&& O_ACCMODE = O_RDONLY := by
    simpa [forWriting] using hw
  unfold hookOpen
  rw [if_pos rfl, if_neg hro]
  rcases getPatharg_unread h with hg | ⟨e, hg⟩
  · exact Or.inl (by rw [hg])
  · exact Or.inr ⟨e, by rw [hg]⟩

/-- `hook_open` on a path it can read: the record with a bind replacement is noted. -/
theorem hookOpen_eq {data : ModuleData} {io : HookCalls} {argpos : ℕ} {real : Bool} {st : HookSt}
    {p : CString} (hw : forWriting st.args argpos = true)
    (h : Reads io io.openPath (st.args.nth argpos) real st.errno p) :
    hookOpen data io true argpos real st =
      some (.CONTINUE,
        match getFstabRec data io.fs (pathName io.fs real p) with
        | none => { st with errno := lookupErrno io.fs real p st.errno }
        | some r =>
          if r.replacementBind then
            st.tracked io (pathName io.fs real p) r (lookupErrno io.fs real p st.errno)
          else { st with errno := lookupErrno io.fs real p st.errno }) := by
  have hro : ¬ st.args.nth (argpos + 1) &&& O_ACCMODE = O_RDONLY := by
    simpa [forWriting] using hw
  unfold hookOpen
  rw [if_pos rfl, if_neg hro, getPatharg_of_resolves h.read h.path h.resolves]
  cases hr : getFstabRec data io.fs (pathName io.fs real p) with
  | none =>
    simp only [hr]
    rfl
  | some r =>
    cases hb : r.replacementBind with
    | false =>
      simp only [hr, hb, Bool.not_false, Bool.false_eq_true, if_true, if_false]
      rfl
    | true =>
      simp only [hr, hb, Bool.not_true, Bool.false_eq_true, if_true, if_false]
      rfl

/-- The state behind `hook_open`, if that has read the path `p` or has not read any. -/
def HookSt.opened (data : ModuleData) (io : HookCalls) (call : Syscall) (argpos : ℕ) (real : Bool)
    (p : CString) (st : HookSt) : HookSt :=
  if isOpen call && forWriting st.args argpos then
    match getFstabRec data io.fs (pathName io.fs real p) with
    | none => { st with errno := lookupErrno io.fs real p st.errno }
    | some r =>
      if r.replacementBind then
        st.tracked io (pathName io.fs real p) r (lookupErrno io.fs real p st.errno)
      else { st with errno := lookupErrno io.fs real p st.errno }
  else st

/-- What `hook_open` requires of the path to go on. -/
def OpenReads (io : HookCalls) (call : Syscall) (argpos : ℕ) (real : Bool) (st : HookSt)
    (p : CString) : Prop :=
  isOpen call = true → forWriting st.args argpos = true →
    Reads io io.openPath (st.args.nth argpos) real st.errno p

theorem opened_cases (data : ModuleData) {io : HookCalls} {call : Syscall} {argpos : ℕ}
    {real : Bool} {p : CString} {st : HookSt} (h : OpenReads io call argpos real st p) :
    (∃ r, Notes data io call argpos real st p r ∧
      st.opened data io call argpos real p =
        st.tracked io (pathName io.fs real p) r (openErrno io call argpos real p st)) ∨
    (∀ r, ¬ Notes data io call argpos real st p r) ∧
      st.opened data io call argpos real p =
        { st with errno := openErrno io call argpos real p st } := by
  unfold HookSt.opened openErrno
  by_cases hw : (isOpen call && forWriting st.args argpos) = true
  · rw [if_pos hw, if_pos hw]
    rw [Bool.and_eq_true] at hw
    cases hr : getFstabRec data io.fs (pathName io.fs real p) with
    | none =>
      refine Or.inr ⟨fun r hn => ?_, rfl⟩
      rw [hn.found] at hr
      cases hr
    | some r =>
      cases hb : r.replacementBind with
      | false =>
        refine Or.inr ⟨fun r' hn => ?_, by simp [hb]⟩
        obtain rfl := Option.some.inj (hr.symm.trans hn.found)
        rw [hn.bind] at hb
        cases hb
      | true => exact Or.inl ⟨r, ⟨hw.1, hw.2, h hw.1 hw.2, hr, hb⟩, by simp [hb]⟩
  · rw [if_neg hw, if_neg hw]
    refine Or.inr ⟨fun r hn => hw ?_, rfl⟩
    rw [hn.call, hn.writing]
    rfl

theorem opened_frame (data : ModuleData) {io : HookCalls} {call : Syscall} {argpos : ℕ}
    {real : Bool} {p : CString} {st : HookSt} (h : OpenReads io call argpos real st p) :
    (st.opened data io call argpos real p).args = st.args ∧
      (st.opened data io call argpos real p).errno = openErrno io call argpos real p st := by
  rcases opened_cases data h with ⟨r, -, heq⟩ | ⟨-, heq⟩ <;> rw [heq] <;>
    exact ⟨rfl, rfl⟩

/-- **The note and the pages**: what the second half leaves on top of `hook_open`. -/
theorem undone_opened_iff {data : ModuleData} {io : HookCalls} {call : Syscall} {argpos : ℕ}
    {real : Bool} {p : CString} {st : HookSt} (h : OpenReads io call argpos real st p)
    (e : Option Errno) (more : List Touch) :
    Undone st
      { st.opened data io call argpos real p with
        errno := e
        touches := (st.opened data io call argpos real p).touches ++ more } ↔
    pagesLeft more = [] ∧ ∀ r, Notes data io call argpos real st p r →
      st.mbc.tmp = some (pathName io.fs real p) ∧ st.mbc.handledByOpen = true := by
  rcases opened_cases data h with ⟨r, hn, heq⟩ | ⟨hno, heq⟩
  · have hpages : pagesLeft ([Touch.store (pathName io.fs real p)] ++ more) = pagesLeft more := rfl
    rw [heq]
    constructor
    · intro hu
      refine ⟨?_, fun _ _ => ⟨hu.tmp.symm, hu.handled.symm⟩⟩
      have hpages' := hu.pages
      rwa [HookSt.since, HookSt.tracked, List.append_assoc, List.drop_left, hpages] at hpages'
    · rintro ⟨hleft, hnote⟩
      obtain ⟨ht, hh⟩ := hnote r hn
      refine ⟨?_, rfl, rfl, ht.symm, hh.symm⟩
      rwa [HookSt.since, HookSt.tracked, List.append_assoc, List.drop_left, hpages]
  · rw [heq]
    constructor
    · intro hu
      refine ⟨?_, fun r hn => absurd hn (hno r)⟩
      have hpages' := hu.pages
      rwa [HookSt.since, List.drop_left] at hpages'
    · rintro ⟨hleft, -⟩
      refine ⟨?_, rfl, rfl, rfl, rfl⟩
      rwa [HookSt.since, List.drop_left]

/-! ### Outcomes of an event -/

section
variable {data : ModuleData} {io : HookCalls} {call : Syscall} {st : HookSt}

theorem abortUndone_of_abort {st' : HookSt}
    (h : runHook data io call true st = some (.ABORT, st')) :
    AbortUndone data io call st ↔ Undone st st' := by
  constructor
  · intro hall
    exact hall .ABORT st' h nofun
  · intro hu rc st'' hrun _
    obtain ⟨-, rfl⟩ := Prod.mk.inj (Option.some.inj (h.symm.trans hrun))
    exact hu

theorem abortUndone_of_continue {st' : HookSt}
    (h : runHook data io call true st = some (.CONTINUE, st')) : AbortUndone data io call st := by
  intro rc st'' hrun hrc
  exact absurd (Prod.mk.inj (Option.some.inj (h.symm.trans hrun))).1.symm hrc

theorem abortUndone_of_none (h : runHook data io call true st = none) :
    AbortUndone data io call st := by
  intro rc st' hrun
  rw [h] at hrun
  cases hrun

/-- An event that only changes `errno` is undone. -/
theorem undone_errno (st : HookSt) (e : Option Errno) : Undone st { st with errno := e } :=
  ⟨by simp [HookSt.since, pagesLeft], rfl, rfl, rfl, rfl⟩

theorem abortUndone_of_unread
    (h : runHook data io call true st = none ∨
      ∃ e, runHook data io call true st = some (.ABORT, { st with errno := e })) :
    AbortUndone data io call st := by
  rcases h with h | ⟨e, h⟩
  · exact abortUndone_of_none h
  · exact (abortUndone_of_abort h).mpr (undone_errno st e)

end

/-! ### Path-taking calls -/

/-- The hook of a path-taking call copies `text`, the replacement of the record `r` of the path `p`. -/
structure FileCopies (data : ModuleData) (io : HookCalls) (call : Syscall) (argpos : ℕ)
    (real : Bool) (st : HookSt) (p : CString) (r : FstabRec) (text : CString) : Prop where
  openReads : OpenReads io call argpos real st p
  reads : Reads io io.path (st.args.nth argpos) real (openErrno io call argpos real p st) p
  found : getFstabRec data io.fs (pathName io.fs real p) = some r
  link : real = true ∨ isLink io.fs (pathName io.fs real p) = false
  text : (if r.replacementBind then r.stubDevice else r.replacementDevice) = some text

/-- The second half of the hook stops a call whose path `hook_open` has noted. -/
def StopsNoted (data : ModuleData) (io : HookCalls) (call : Syscall) (argpos : ℕ) (real : Bool)
    (st : HookSt) (p : CString) (r : FstabRec) : Prop :=
  Notes data io call argpos real st p r ∧
    (¬ Reads io io.path (st.args.nth argpos) real (openErrno io call argpos real p st) p ∨
      ∃ text, FileCopies data io call argpos real st p r text ∧ CopyFails io text)

/-- The exact condition for the hook of a path-taking call: no copy leaks, and no note of `hook_open`
is followed by a failure, unless it was there before. -/
structure FileUndoes (data : ModuleData) (io : HookCalls) (call : Syscall) (argpos : ℕ)
    (real : Bool) (st : HookSt) : Prop where
  pages : ∀ p r text, FileCopies data io call argpos real st p r text → ¬ CopyLeaks io text
  note : ∀ p r, StopsNoted data io call argpos real st p r →
    st.mbc.tmp = some (pathName io.fs real p) ∧ st.mbc.handledByOpen = true

theorem runHook_opened (data : ModuleData) {io : HookCalls} {call : Syscall} {row : RedirectInfo}
    (hrow : infoOf call = some row) {st : HookSt} {p : CString}
    (h : OpenReads io call row.argnum (resolveOf row call st.args) st p) :
    runHook data io call true st =
      redirectPre data io row.argnum (resolveOf row call st.args)
        (st.opened data io call row.argnum (resolveOf row call st.args) p) := by
  rw [runHook_file hrow]
  cases ho : isOpen call with
  | false => simp only [HookSt.opened, ho, Bool.false_and, Bool.false_eq_true, if_false]
  | true =>
    cases hw : forWriting st.args row.argnum with
    | false =>
      simp only [if_true, hookOpen_readonly data io _ hw, HookSt.opened, ho, hw, Bool.and_false,
        Bool.false_eq_true, if_false]
    | true =>
      simp only [if_true, hookOpen_eq hw (h ho hw), HookSt.opened, ho, hw, Bool.and_self]

/-- Only the path the child has at the address can be read. -/
theorem Reads.path_eq {io : HookCalls} {calls : PathCalls} {addr : Long} {real : Bool}
    {errno : Option Errno} {p q : CString} (h : Reads io calls addr real errno p)
    (hq : io.pathAt addr = some q) : p = q :=
  Option.some.inj (h.path.symm.trans hq)

theorem redirectPre_unread {data : ModuleData} {io : HookCalls} {argpos : ℕ} {real : Bool}
    {st : HookSt} (h : ∀ p, ¬ Reads io io.path (st.args.nth argpos) real st.errno p) :
    redirectPre data io argpos real st = none ∨
      ∃ e, redirectPre data io argpos real st = some (.ABORT, { st with errno := e }) := by
  unfold redirectPre
  rcases getPatharg_unread h with hg | ⟨e, hg⟩
  · exact Or.inl (by rw [hg])
  · exact Or.inr ⟨e, by rw [hg]⟩

/-- The call is stopped before anything is read: there is nothing to undo. -/
theorem file_undone_unread {data : ModuleData} {io : HookCalls} {call : Syscall}
    {row : RedirectInfo} (hrow : infoOf call = some row) {st : HookSt}
    (h : ∀ p, ¬ (OpenReads io call row.argnum (resolveOf row call st.args) st p ∧
      io.pathAt (st.args.nth row.argnum) = some p)) :
    AbortUndone data io call st ∧
      FileUndoes data io call row.argnum (resolveOf row call st.args) st := by
  refine ⟨?_, fun p r text hc => absurd ⟨hc.openReads, hc.reads.path⟩ (h p), fun p r hs => ?_⟩
  · refine abortUndone_of_unread ?_
    rw [runHook_file hrow]
    have hread : ∀ calls e p, isOpen call = false ∨ forWriting st.args row.argnum = false →
        ¬ Reads io calls (st.args.nth row.argnum) (resolveOf row call st.args) e p := by
      intro calls e p hor hr
      refine h p ⟨fun ho hw => ?_, hr.path⟩
      rcases hor with hor | hor
      · rw [hor] at ho
        cases ho
      · rw [hor] at hw
        cases hw
    cases ho : isOpen call with
    | false => exact redirectPre_unread fun p => hread _ _ p (Or.inl ho)
    | true =>
      cases hw : forWriting st.args row.argnum with
      | false =>
        simp only [if_true, hookOpen_readonly data io _ hw]
        exact redirectPre_unread fun p => hread _ _ p (Or.inr hw)
      | true =>
        have hno : ∀ p, ¬ Reads io io.openPath (st.args.nth row.argnum) (resolveOf row call st.args)
            st.errno p := fun p hr => h p ⟨fun _ _ => hr, hr.path⟩
        rcases hookOpen_unread data hw hno with hk | ⟨e, hk⟩
        · exact Or.inl (by simp only [if_true, hk])
        · exact Or.inr ⟨e, by simp only [if_true, hk]⟩
  · exact absurd ⟨fun _ _ => hs.1.reads, hs.1.reads.path⟩ (h p)

/-- Everything the condition says is about the one path the child has at the address. -/
theorem fileUndoes_iff {data : ModuleData} {io : HookCalls} {call : Syscall} {argpos : ℕ}
    {real : Bool} {st : HookSt} {p : CString} (hp : io.pathAt (st.args.nth argpos) = some p) :
    FileUndoes data io call argpos real st ↔
      (∀ r text, FileCopies data io call argpos real st p r text → ¬ CopyLeaks io text) ∧
      ∀ r, StopsNoted data io call argpos real st p r →
        st.mbc.tmp = some (pathName io.fs real p) ∧ st.mbc.handledByOpen = true := by
  constructor
  · exact fun h => ⟨h.pages p, h.note p⟩
  · rintro ⟨h1, h2⟩
    refine ⟨fun q r text hc => ?_, fun q r hs => ?_⟩
    · obtain rfl := hc.reads.path_eq hp
      exact h1 r text hc
    · obtain rfl := hs.1.reads.path_eq hp
      exact h2 r hs

/-- A path that is read twice and whose copy, if any, does not fail meets the condition. -/
theorem fileUndoes_of_reads {data : ModuleData} {io : HookCalls} {call : Syscall} {argpos : ℕ}
    {real : Bool} {st : HookSt} {p : CString}
    (hread : Reads io io.path (st.args.nth argpos) real (openErrno io call argpos real p st) p)
    (h : ∀ r text, FileCopies data io call argpos real st p r text → ¬ CopyFails io text) :
    FileUndoes data io call argpos real st := by
  rw [fileUndoes_iff hread.path]
  refine ⟨fun r text hc hleak => h r text hc hleak.fails, fun r hs => ?_⟩
  rcases hs.2 with hno | ⟨text, hc, hfail⟩
  · exact absurd hread hno
  · exact absurd hfail (h r text hc)

/-- The path has been read by `hook_open` and cannot be read again. -/
theorem file_undone_again {data : ModuleData} {io : HookCalls} {call : Syscall} {argpos : ℕ}
    {real : Bool} {st : HookSt} {p : CString} (hopen : OpenReads io call argpos real st p)
    (hp : io.pathAt (st.args.nth argpos) = some p)
    (hread : ¬ Reads io io.path (st.args.nth argpos) real (openErrno io call argpos real p st) p)
    (hrun : runHook data io call true st =
      redirectPre data io argpos real (st.opened data io call argpos real p)) :
    AbortUndone data io call st ↔ FileUndoes data io call argpos real st := by
  obtain ⟨hargs, herrno⟩ := opened_frame data hopen
  have hread1 : ¬ Reads io io.path ((st.opened data io call argpos real p).args.nth argpos) real
      (st.opened data io call argpos real p).errno p := by rwa [hargs, herrno]
  obtain ⟨e, he⟩ := getPatharg_again (by rwa [hargs]) hread1
  have habort : runHook data io call true st =
      some (.ABORT, { st.opened data io call argpos real p with
        errno := e
        touches := (st.opened data io call argpos real p).touches ++ [] }) := by
    rw [hrun, redirectPre, he, List.append_nil]
  rw [fileUndoes_iff hp, abortUndone_of_abort habort, undone_opened_iff hopen]
  constructor
  · rintro ⟨-, hnote⟩
    exact ⟨fun r text hc => absurd hc.reads hread, fun r hs => hnote r hs.1⟩
  · rintro ⟨-, hnote⟩
    exact ⟨rfl, fun r hn => hnote r ⟨hn, Or.inl hread⟩⟩

/-- The path has been read as often as the hook needs it. -/
theorem file_undone_read {data : ModuleData} {io : HookCalls} {call : Syscall} {argpos : ℕ}
    {real : Bool} {st : HookSt} {p : CString} (hopen : OpenReads io call argpos real st p)
    (hread : Reads io io.path (st.args.nth argpos) real (openErrno io call argpos real p st) p)
    (hrun : runHook data io call true st =
      redirectPre data io argpos real (st.opened data io call argpos real p)) :
    AbortUndone data io call st ↔ FileUndoes data io call argpos real st := by
  obtain ⟨hargs, herrno⟩ := opened_frame data hopen
  rw [redirectPre_eq hread.read (by rw [hargs]; exact hread.path)
    (by rw [herrno]; exact hread.resolves)] at hrun
  cases hr : getFstabRec data io.fs (pathName io.fs real p) with
  | none =>
    simp only [hr] at hrun
    refine iff_of_true (abortUndone_of_continue hrun) (fileUndoes_of_reads hread ?_)
    intro r text hc
    rw [hc.found] at hr
    cases hr
  | some r =>
    simp only [hr] at hrun
    by_cases hl : (!real && isLink io.fs (pathName io.fs real p)) = true
    · -- a link that is not resolved
      rw [if_pos hl] at hrun
      refine iff_of_true (abortUndone_of_continue hrun) (fileUndoes_of_reads hread ?_)
      intro r' text hc
      rcases hc.link with h | h <;> simp [h] at hl
    · rw [if_neg hl] at hrun
      cases ht : (if r.replacementBind then r.stubDevice else r.replacementDevice) with
      | none =>
        simp only [ht] at hrun
        refine iff_of_true (abortUndone_of_none hrun) (fileUndoes_of_reads hread ?_)
        intro r' text hc
        obtain rfl := Option.some.inj (hr.symm.trans hc.found)
        rw [hc.text] at ht
        cases ht
      | some text =>
        simp only [ht] at hrun
        have htext : ∀ r' text', FileCopies data io call argpos real st p r' text' →
            text' = text := by
          intro r' text' hc
          obtain rfl := Option.some.inj (hr.symm.trans hc.found)
          exact Option.some.inj (hc.text.symm.trans ht)
        by_cases hfail : CopyFails io text
        · have hlink : real = true ∨ isLink io.fs (pathName io.fs real p) = false := by
            cases real with
            | true => exact Or.inl rfl
            | false => exact Or.inr (by simpa using hl)
          have hcopy : FileCopies data io call argpos real st p r text :=
            ⟨hopen, hread, hr, hlink, ht⟩
          rw [replacePath_abort hfail] at hrun
          rw [fileUndoes_iff hread.path, abortUndone_of_abort hrun, undone_opened_iff hopen,
            pagesLeft_failedTouches]
          constructor
          · rintro ⟨hleak, hnote⟩
            refine ⟨fun r' text' hc => ?_, fun r' hs => hnote r' hs.1⟩
            rwa [htext r' text' hc]
          · rintro ⟨hleak, hnote⟩
            refine ⟨hleak r text hcopy, fun r' hn => hnote r' ⟨hn, Or.inr ⟨text, ?_, hfail⟩⟩⟩
            obtain rfl := Option.some.inj (hr.symm.trans hn.found)
            exact hcopy
        · obtain ⟨st', hcont⟩ := replacePath_of_not_fails hfail
            (fun addr a => a.setNth argpos addr)
            { st.opened data io call argpos real p with
              errno := lookupErrno io.fs real p (st.opened data io call argpos real p).errno }
          rw [hcont] at hrun
          refine iff_of_true (abortUndone_of_continue hrun) (fileUndoes_of_reads hread ?_)
          intro r' text' hc
          rwa [htext r' text' hc]

theorem file_undone_iff {data : ModuleData} {io : HookCalls} {call : Syscall}
    {row : RedirectInfo} (hrow : infoOf call = some row) {st : HookSt} :
    AbortUndone data io call st ↔
      FileUndoes data io call row.argnum (resolveOf row call st.args) st := by
  by_cases hreach : ∃ p, OpenReads io call row.argnum (resolveOf row call st.args) st p ∧
      io.pathAt (st.args.nth row.argnum) = some p
  · obtain ⟨p, hopen, hp⟩ := hreach
    by_cases hread : Reads io io.path (st.args.nth row.argnum) (resolveOf row call st.args)
        (openErrno io call row.argnum (resolveOf row call st.args) p st) p
    · exact file_undone_read hopen hread (runHook_opened data hrow hopen)
    · exact file_undone_again hopen hp hread (runHook_opened data hrow hopen)
  · have hno := not_exists.mp hreach
    exact iff_of_true (file_undone_unread hrow hno).1 (file_undone_unread hrow hno).2

/-! ### mount -/

/-- The hook of `mount` copies `text`, the replacement of the record `r`. -/
structure MountCopies (data : ModuleData) (io : HookCalls) (st : HookSt) (p q : CString)
    (r : FstabRec) (text : CString) : Prop where
  reads : Reads io io.path st.args.a0 true st.errno p
  targetReads : Reads io io.targetPath st.args.a1 true (io.fs.statErrno p st.errno) q
  found : (if pathName io.fs true q == ASEC then some (asecRec data)
    else getFstabRec data io.fs (pathName io.fs true p)) = some r
  text : r.replacementDevice = some text

theorem hookMount_unread {data : ModuleData} {io : HookCalls} {st : HookSt}
    (h : ∀ p q, ¬ (Reads io io.path st.args.a0 true st.errno p ∧
      Reads io io.targetPath st.args.a1 true (io.fs.statErrno p st.errno) q)) :
    hookMount data io true st = none ∨
      ∃ e, hookMount data io true st = some (.ABORT, { st with errno := e }) := by
  unfold hookMount
  rw [if_pos rfl]
  by_cases hp : ∃ p, Reads io io.path st.args.a0 true st.errno p
  · obtain ⟨p, hp⟩ := hp
    rw [getPatharg_of_resolves hp.read hp.path hp.resolves, if_pos rfl]
    rcases getPatharg_unread (fun q hq => h p q ⟨hp, hq⟩) with hg | ⟨e, hg⟩
    · exact Or.inl (by simp only [hg])
    · exact Or.inr ⟨e, by simp only [hg]⟩
  · rcases getPatharg_unread (not_exists.mp hp) with hg | ⟨e, hg⟩
    · exact Or.inl (by rw [hg])
    · exact Or.inr ⟨e, by rw [hg]⟩

/-- `hook_mount` on two paths it can read, whatever the target is. -/
theorem hookMount_reads (data : ModuleData) {io : HookCalls} {st : HookSt} {p q : CString}
    (hp : Reads io io.path st.args.a0 true st.errno p)
    (hq : Reads io io.targetPath st.args.a1 true (io.fs.statErrno p st.errno) q) :
    ∃ e, hookMount data io true st =
      match if pathName io.fs true q == ASEC then some (asecRec data)
        else getFstabRec data io.fs (pathName io.fs true p) with
      | none => some (.CONTINUE, { st with errno := e })
      | some r =>
        match r.replacementDevice with
        | none => none
        | some text =>
          some (replacePath io text (mountArgs r.replacementBind) { st with errno := e }) := by
  unfold hookMount
  rw [if_pos rfl, getPatharg_of_resolves hp.read hp.path hp.resolves, if_pos rfl]
  simp only [getPatharg_of_resolves hq.read hq.path hq.resolves, if_true]
  exact ⟨_, rfl⟩

theorem mount_undone_iff {data : ModuleData} {io : HookCalls} {st : HookSt} :
    AbortUndone data io .mount st ↔
      ∀ p q r text, MountCopies data io st p q r text → ¬ CopyLeaks io text := by
  have hhook : runHook data io .mount true st = hookMount data io true st := rfl
  by_cases hreach : ∃ p q, Reads io io.path st.args.a0 true st.errno p ∧
      Reads io io.targetPath st.args.a1 true (io.fs.statErrno p st.errno) q
  swap
  · have hno : ∀ p q, ¬ (Reads io io.path st.args.a0 true st.errno p ∧
        Reads io io.targetPath st.args.a1 true (io.fs.statErrno p st.errno) q) :=
      fun p q h => hreach ⟨p, q, h⟩
    exact iff_of_true (abortUndone_of_unread (hhook ▸ hookMount_unread hno))
      fun p q r text hc => absurd ⟨hc.reads, hc.targetReads⟩ (hno p q)
  obtain ⟨p, q, hp, hq⟩ := hreach
  obtain ⟨e, hrun⟩ := hookMount_reads data hp hq
  rw [← hhook] at hrun
  -- everything is about the paths `p` and `q`
  have honly : ∀ {p' q' r text}, MountCopies data io st p' q' r text →
      (if pathName io.fs true q == ASEC then some (asecRec data)
        else getFstabRec data io.fs (pathName io.fs true p)) = some r := by
    intro p' q' r text hc
    obtain rfl := hc.reads.path_eq hp.path
    obtain rfl := hc.targetReads.path_eq hq.path
    exact hc.found
  cases hr : (if pathName io.fs true q == ASEC then some (asecRec data)
      else getFstabRec data io.fs (pathName io.fs true p)) with
  | none =>
    simp only [hr] at hrun
    refine iff_of_true (abortUndone_of_continue hrun) fun p' q' r text hc => ?_
    rw [honly hc] at hr
    cases hr
  | some r =>
    simp only [hr] at hrun
    cases ht : r.replacementDevice with
    | none =>
      simp only [ht] at hrun
      refine iff_of_true (abortUndone_of_none hrun) fun p' q' r' text hc => ?_
      obtain rfl := Option.some.inj (hr.symm.trans (honly hc))
      rw [hc.text] at ht
      cases ht
    | some text =>
      simp only [ht] at hrun
      have hleak : (∀ p' q' r' text', MountCopies data io st p' q' r' text' →
          ¬ CopyLeaks io text') ↔ ¬ CopyLeaks io text := by
        constructor
        · exact fun h => h p q r text ⟨hp, hq, hr, ht⟩
        · intro h p' q' r' text' hc
          obtain rfl := Option.some.inj (hr.symm.trans (honly hc))
          rwa [Option.some.inj (hc.text.symm.trans ht)]
      rw [hleak]
      by_cases hfail : CopyFails io text
      · rw [replacePath_abort hfail] at hrun
        rw [abortUndone_of_abort hrun, ← pagesLeft_failedTouches]
        constructor
        · intro hu
          have hpages := hu.pages
          rwa [HookSt.since, List.drop_left] at hpages
        · intro hleft
          refine ⟨?_, rfl, rfl, rfl, rfl⟩
          rwa [HookSt.since, List.drop_left]
      · obtain ⟨st', hcont⟩ := replacePath_of_not_fails hfail (mountArgs r.replacementBind)
          { st with errno := e }
        rw [hcont] at hrun
        exact iff_of_true (abortUndone_of_continue hrun) fun h => hfail h.fails

/-! ### All hooks -/

/-- **When an aborting hook has undone what it did**: the other hooks change nothing when they abort,
the path hooks must not leak a region, and `hook_open` must not have taken a new note. -/
def UndoesWhen (data : ModuleData) (io : HookCalls) (call : Syscall) (st : HookSt) : Prop :=
  (∀ row, infoOf call = some row →
    FileUndoes data io call row.argnum (resolveOf row call st.args) st) ∧
  (call = .mount → ∀ p q r text, MountCopies data io st p q r text → ¬ CopyLeaks io text)

theorem runHook_other_abort {data : ModuleData} {io : HookCalls} {call : Syscall} {st st' : HookSt}
    {rc : Rc} (hfile : hookOf call ≠ some .fileaccess) (hmount : call ≠ .mount)
    (h : runHook data io call true st = some (rc, st')) (hrc : rc ≠ .CONTINUE) : st' = st := by
  unfold runHook at h
  rcases hk : hookOf call with _ | _ | _ | _ | _ | _
  case none =>
    rw [hk] at h
    exact absurd (Prod.mk.inj (Option.some.inj h)).1.symm hrc
  case fileaccess => exact absurd hk hfile
  case mount => exact absurd (by cases call <;> first | rfl | cases hk) hmount
  case fcntl =>
    simp only [hk, hookFcntl, if_true] at h
    split at h <;> exact (Prod.mk.inj (Option.some.inj h)).2.symm
  case dup =>
    simp only [hk, hookDup, if_true] at h
    split at h <;> exact absurd (Prod.mk.inj (Option.some.inj h)).1.symm hrc
  case close =>
    simp only [hk, hookClose, if_true] at h
    split at h
    · exact absurd (Prod.mk.inj (Option.some.inj h)).1.symm hrc
    · split at h
      · cases h
      · split at h
        · cases h
        · exact absurd (Prod.mk.inj (Option.some.inj h)).1.symm hrc

/-- **An aborting hook undoes what it did exactly if** no scratch region leaks and no note of
`hook_open` is followed by a failure. -/
theorem undone_iff (data : ModuleData) (io : HookCalls) (call : Syscall) (st : HookSt) :
    AbortUndone data io call st ↔ UndoesWhen data io call st := by
  by_cases hfile : hookOf call = some .fileaccess
  · obtain ⟨row, hrow⟩ := Option.isSome_iff_exists.mp ((infoOf_isSome_iff call).mpr hfile)
    have hne : call ≠ .mount := by
      rintro rfl
      cases hfile
    rw [file_undone_iff hrow, UndoesWhen]
    constructor
    · intro h
      refine ⟨fun row' hrow' => ?_, fun hm => absurd hm hne⟩
      rwa [← Option.some.inj (hrow.symm.trans hrow')]
    · exact fun h => h.1 row hrow
  · have hnone : infoOf call = none := by
      rw [← Option.not_isSome_iff_eq_none, infoOf_isSome_iff]
      exact hfile
    by_cases hm : call = .mount
    · subst hm
      rw [mount_undone_iff, UndoesWhen]
      exact ⟨fun h => ⟨fun row hrow => (by cases hrow), fun _ => h⟩, fun h => h.2 rfl⟩
    · refine iff_of_true (fun rc st' hrun hrc => ?_) ⟨fun row hrow => ?_, fun h => absurd h hm⟩
      · obtain rfl := runHook_other_abort hfile hm hrun hrc
        exact undone_errno st' st'.errno
      · rw [hnone] at hrow
        cases hrow

/-- The replacement of the cache partition cannot be written into the child. -/
def unwritableIo : HookCalls := { demoIo with writeMem := false }

/-- `tracy_modify_syscall_args` fails. -/
def unmodifiableIo : HookCalls := { demoIo with modifyArgs := false }

/-- A failed write leaves the second page of the region mapped, and a failed change of the arguments
leaves the note of `hook_open`. -/
theorem abort_leaves_pages_and_note :
    (∃ st', runHook demoData unwritableIo .stat64 true (enterHook ⟨1, 0, 0, 0, 0, 0, 0⟩) =
        some (.ABORT, st') ∧
      pagesLeft (st'.since (enterHook ⟨1, 0, 0, 0, 0, 0, 0⟩)) = [2]) ∧
    (∃ st', runHook demoData unmodifiableIo .open true (enterHook ⟨1, 2, 0, 0, 0, 0, 0⟩) =
        some (.ABORT, st') ∧
      st'.mbc.tmp = some CACHE ∧ st'.mbc.handledByOpen = true) ∧
    ¬ ∀ data io call st, hookOf call ≠ none → AbortUndone data io call st := by
  have hleaks : ∃ st', runHook demoData unwritableIo .stat64 true
        (enterHook ⟨1, 0, 0, 0, 0, 0, 0⟩) = some (.ABORT, st') ∧
      pagesLeft (st'.since (enterHook ⟨1, 0, 0, 0, 0, 0, 0⟩)) = [2] :=
    ⟨_, rfl, pagesLeft_unwritten 4096 30 (by decide) (by decide)⟩
  refine ⟨hleaks, ⟨_, rfl, rfl, rfl⟩, fun h => ?_⟩
  obtain ⟨st', hrun, hleft⟩ := hleaks
  have hundone : Undone _ st' :=
    h demoData unwritableIo .stat64 _ (by decide) .ABORT st' hrun (by decide)
  rw [hundone.pages] at hleft
  cases hleft

end Multiboot
