import Multiboot.Redirect
import Multiboot.Scratch

/-!
# Calls that do not concern multiboot

`Untouched` says that both hooks of a call let it pass and leave the arguments, the child's memory and
the descriptor table as they were.  What a path names is decided by the kernel for the child, in its
working directory and root, and by the hook for the tracer, in another; so there are two views of the
file system.  `untouched_iff` says exactly when a call is left alone whose path names no redirected
device for the child and whose descriptor is not tracked.
-/

namespace Multiboot

open Lib

/-- What is done in the child's address space. -/
def Touch.inChild : Touch → Bool
  | .mmap .. | .write .. | .munmap .. => true
  | _ => false

/-- The hook continues; the arguments, the child's memory and the descriptor table stay. -/
structure Passes (data : ModuleData) (io : HookCalls) (call : Syscall) (pre : Bool)
    (st st' : HookSt) : Prop where
  run : runHook data io call pre st = some (.CONTINUE, st')
  args : st'.args = st.args
  memory : st'.touches.filter Touch.inChild = st.touches.filter Touch.inChild
  files : st'.mbc.files = st.mbc.files

/-- Both hooks let a call of the child pass, whatever it returns and whatever happens in between. -/
def Untouched (data : ModuleData) (s : Sys) (k : Kid) (call : Syscall) (args : ScArgs)
    (io : HookCalls) : Prop :=
  ∃ st, Passes data io call true (s.hookSt k args io) st ∧
    ∀ (s' : Sys) (ret : Long) (io' : HookCalls), ∃ st', Passes data io' call false
      (s'.hookSt (k.entered call st) { st.args with returnCode := ret } io') st'

/-- The path names no redirected device, the mount target is not the one of `asec_rec`, the descriptor
is not tracked.  `child` is the child's view: what the kernel finds under a path that this call
passes, from the child's working directory or the descriptor of a directory, and from its root. -/
def Unconcerned (data : ModuleData) (child : FsView) (files : List (ℤ × FdInfo)) (call : Syscall)
    (args : ScArgs) (io : HookCalls) : Prop :=
  match hookOf call with
  | some .fileaccess => ∀ row p, infoOf call = some row →
      io.pathAt (args.nth row.argnum) = some p →
      ¬ ActsOnRedirected data child (kernelFollows call args) p
  | some .mount =>
      (∀ p, io.pathAt args.a0 = some p → ¬ ActsOnRedirected data child true p) ∧
        ∀ p, io.pathAt args.a1 = some p → pathName child true p ≠ ASEC
  | _ => args.a0.toInt ∉ ids files

/-! ### When a call passes -/

/-- `get_patharg` does not give up on the path: it is not resolved or does not exist, or `realpath`
succeeds and `errno` was 0. -/
def Resolves (io : HookCalls) (calls : PathCalls) (real : Bool) (p : CString)
    (errno : Option Errno) : Prop :=
  (real && resolveFails io calls p errno) = false

/-- The path `p` of a file access lets the call pass. -/
structure FilePasses (data : ModuleData) (child : FsView) (io : HookCalls) (call : Syscall)
    (args : ScArgs) (row : RedirectInfo) (p : CString) : Prop where
  resolves : Resolves io io.path (resolveOf row call args) p io.errno
  openResolves : isOpen call = true → forWriting args row.argnum = true →
    Resolves io io.openPath (resolveOf row call args) p io.errno
  /-- The tracer, from where it stands and with its rule for a final link, sees a redirected device
  only where the call acts on one. -/
  view : ActsOnRedirected data io.fs (resolveOf row call args) p →
    ActsOnRedirected data child (kernelFollows call args) p
  /-- No record has the number zero of the file. -/
  number : resolveOf row call args = true ∨ isLink io.fs p = false → ¬ ZeroMatch data io.fs p
  /-- `hook_open` follows a link even if the call does not. -/
  link : resolveOf row call args = false → isLink io.fs p = true → isOpen call = true →
    forWriting args row.argnum = true → ∀ r, FirstMatch data io.fs p r → r.replacementBind = false

/-- The source `p` and the target `q` let a mount pass. -/
structure MountPasses (data : ModuleData) (child : FsView) (io : HookCalls) (p q : CString) :
    Prop where
  resolves : Resolves io io.path true p io.errno
  /-- A source that does not exist sets `errno`. -/
  targetResolves : Resolves io io.targetPath true q (io.fs.statErrno p io.errno)
  view : ActsOnRedirected data io.fs true p → ActsOnRedirected data child true p
  targetView : pathName io.fs true q = ASEC → pathName child true q = ASEC
  number : ¬ ZeroMatch data io.fs p

/-- The paths a call takes can be read and let it pass. -/
def PassesWhen (data : ModuleData) (child : FsView) (call : Syscall) (args : ScArgs)
    (io : HookCalls) : Prop :=
  match hookOf call with
  | some .fileaccess => ∃ row p, infoOf call = some row ∧
      io.pathAt (args.nth row.argnum) = some p ∧ FilePasses data child io call args row p
  | some .mount => ∃ p q, io.pathAt args.a0 = some p ∧ io.pathAt args.a1 = some q ∧
      MountPasses data child io p q
  | _ => True

/-! ### Two views of one path -/

/-- The path leads to one file in both views, with and without its final link followed. -/
structure SameView (fs fs' : FsView) (p : CString) : Prop where
  stat : fs.stat p = fs'.stat p
  lstat : fs.lstat p = fs'.lstat p
  realpath : fs.realpath p = fs'.realpath p

theorem actsOnRedirected_congr (data : ModuleData) {fs fs' : FsView} {p : CString}
    (h : SameView fs fs' p) (follow : Bool) :
    ActsOnRedirected data fs follow p ↔ ActsOnRedirected data fs' follow p := by
  have hname : pathName fs follow p = pathName fs' follow p := by
    rw [pathName, pathName, h.stat, h.realpath]
  have hlink : isLink fs p = isLink fs' p := by rw [isLink, isLink, h.lstat]
  rw [ActsOnRedirected, ActsOnRedirected, hname, hlink, h.stat, h.lstat]

/-- Where the tracer sees what the child sees, as for an absolute path in the same root, and follows
the kernel's rule, it takes no other path for a redirected one. -/
theorem view_of_sameView (data : ModuleData) {child : FsView} {io : HookCalls} {call : Syscall}
    {args : ScArgs} {row : RedirectInfo} (hrow : infoOf call = some row) {p : CString}
    (hview : SameView io.fs child p) (hrule : SameRule call args)
    (h : ActsOnRedirected data io.fs (resolveOf row call args) p) :
    ActsOnRedirected data child (kernelFollows call args) p := by
  rw [← (resolveOf_eq_iff hrow args).mpr hrule]
  exact (actsOnRedirected_congr data hview _).mp h

/-! ### The hook after the call -/

theorem PostEffect.clean {data : ModuleData} {io : HookCalls} {call : Syscall} {st st' : HookSt}
    (h : PostEffect data io call st st') (hc : Clean st.mbc) : st' = st := by
  have hfree : freeMemory st = st := by
    unfold freeMemory
    rw [hc.memory]
  cases h with
  | nothing => rfl
  | opened st1 _ _ hn =>
    obtain rfl := hn hc.handled
    have hun : st1.unhandled = st1 := by
      obtain ⟨⟨memory, tmp, files, handled⟩, args, errno, disks, wipes, touches, chosen, number⟩ := st1
      obtain rfl : handled = false := hc.handled
      rfl
    rw [hun, hfree]
  | freed => exact hfree
  | dupped _ _ ht =>
    cases ht with
    | empty => rfl
    | failed path ht =>
      rw [hc.tmp] at ht
      cases ht
    | added path fdi ht =>
      rw [hc.tmp] at ht
      cases ht

/-- With nothing carried over, the hook after a call does nothing. -/
theorem runHook_post_clean (data : ModuleData) (io : HookCalls) (call : Syscall) {st : HookSt}
    (hc : Clean st.mbc) : runHook data io call false st = some (.CONTINUE, st) := by
  obtain ⟨st', h⟩ := runHook_post_isSome data io call st fun path ht => by
    rw [hc.tmp] at ht
    cases ht
  obtain ⟨-, he⟩ := runHook_post h
  rw [h, he.clean hc]

/-- A hook before a call that only sets `errno` makes the call untouched. -/
theorem untouched_of_pre {data : ModuleData} {s : Sys} {k : Kid} (hc : Clean k.mbc)
    {call : Syscall} {args : ScArgs} {io : HookCalls} {e : Option Errno}
    (h : runHook data io call true (s.hookSt k args io) =
      some (.CONTINUE, { s.hookSt k args io with errno := e })) :
    Untouched data s k call args io := by
  exact ⟨_, ⟨h, rfl, rfl, rfl⟩, fun s' ret io' => ⟨_, runHook_post_clean data io' call hc, rfl, rfl, rfl⟩⟩

/-! ### Resolving twice -/

/-- Looking a name up in between makes no difference to whether `get_patharg` gives up. -/
theorem resolves_lookup {fs : FileSystem} {io : HookCalls} (hfs : io.fs = fs.toFsView)
    (calls : PathCalls) (real : Bool) (p : CString) (errno : Option Errno) :
    Resolves io calls real p (lookupErrno io.fs real p errno) ↔ Resolves io calls real p errno := by
  cases real with
  | false => exact Iff.rfl
  | true =>
    cases hs : fs.stat p with
    | error e => simp [Resolves, resolveFails, hfs, hs]
    | ok st =>
      have he : lookupErrno io.fs true p errno = errno := by
        rw [hfs, lookupErrno, if_pos rfl, FsView.statErrno, pathName_of_stat hs]
        simp only [FsView.statErrno, hs]
      rw [he]

theorem Resolves.resolvable {fs : FileSystem} {io : HookCalls} (hfs : io.fs = fs.toFsView)
    {calls : PathCalls} {real : Bool} {p : CString} {errno : Option Errno}
    (h : Resolves io calls real p errno) : Resolvable io.fs real p errno := by
  by_contra hstale
  have hreal : real = true := by
    by_contra hr
    exact hstale fun h => absurd h hr
  subst hreal
  rw [Resolves, resolveFails_of_stale hfs calls hstale] at h
  cases h

/-- What a continuing `hook_open` has found, and `errno` after it. -/
theorem hookOpen_resolves {data : ModuleData} {fs : FileSystem} {io : HookCalls}
    (hfs : io.fs = fs.toFsView) {argpos : ℕ} {real : Bool} {st st1 : HookSt} {p : CString}
    (hp : io.pathAt (st.args.nth argpos) = some p)
    (h : hookOpen data io true argpos real st = some (.CONTINUE, st1)) :
    (forWriting st.args argpos = true → Resolves io io.openPath real p st.errno) ∧
      ∀ calls, Resolves io calls real p st1.errno ↔ Resolves io calls real p st.errno := by
  unfold hookOpen at h
  rw [if_pos rfl] at h
  by_cases hro : st.args.nth (argpos + 1) &&& O_ACCMODE = O_RDONLY
  · rw [if_pos hro] at h
    obtain rfl : st = st1 := by simpa using h
    exact ⟨fun hw => by simp [forWriting, hro] at hw, fun _ => Iff.rfl⟩
  · rw [if_neg hro] at h
    rcases hg : getPatharg io io.openPath (st.args.nth argpos) real st.errno with _ | ⟨_ | path, e⟩
    · simp [hg] at h
    · simp [hg] at h
    · obtain ⟨q, hq, hres, rfl, rfl⟩ := getPatharg_spec hg
      obtain rfl := Option.some.inj (hp.symm.trans hq)
      have he : st1.errno = lookupErrno io.fs real p st.errno := by
        rw [hg] at h
        cases hr : getFstabRec data io.fs (pathName io.fs real p) with
        | none =>
          simp only [hr, Option.some.injEq, Prod.mk.injEq, true_and] at h
          rw [← h]
          rfl
        | some r =>
          cases hb : r.replacementBind <;>
            simp only [hr, hb, Bool.not_true, Bool.not_false, Bool.false_eq_true, if_true, if_false,
              Option.some.injEq, Prod.mk.injEq, true_and] at h <;>
            (rw [← h]; rfl)
      refine ⟨fun _ => hres, fun calls => ?_⟩
      rw [he]
      exact resolves_lookup hfs calls real p st.errno

/-! ### File accesses -/

theorem redirectPre_path {data : ModuleData} {io : HookCalls} {argpos : ℕ} {real : Bool}
    {st st' : HookSt} (h : redirectPre data io argpos real st = some (.CONTINUE, st')) :
    ∃ p, io.pathAt (st.args.nth argpos) = some p ∧ Resolves io io.path real p st.errno := by
  unfold redirectPre at h
  rcases hg : getPatharg io io.path (st.args.nth argpos) real st.errno with _ | ⟨_ | path, e⟩
  · simp [hg] at h
  · simp [hg] at h
  · obtain ⟨p, hp, hres, -, -⟩ := getPatharg_spec hg
    exact ⟨p, hp, hres⟩

/-- The two parts of a continuing hook. -/
theorem runHook_file_continue {data : ModuleData} {io : HookCalls} {call : Syscall}
    {row : RedirectInfo} (hrow : infoOf call = some row) {st st2 : HookSt}
    (h : runHook data io call true st = some (.CONTINUE, st2)) :
    ∃ st1, redirectPre data io row.argnum (resolveOf row call st.args) st1 =
        some (.CONTINUE, st2) ∧
      (isOpen call = true →
        hookOpen data io true row.argnum (resolveOf row call st.args) st = some (.CONTINUE, st1)) ∧
      (isOpen call = false → st1 = st) := by
  rw [runHook_file hrow] at h
  cases ho : isOpen call with
  | false =>
    rw [ho] at h
    exact ⟨st, h, nofun, fun _ => rfl⟩
  | true =>
    rw [ho, if_pos rfl] at h
    rcases hk : hookOpen data io true row.argnum (resolveOf row call st.args) st with
      _ | ⟨_ | _, st1⟩
    · simp [hk] at h
    · rw [hk] at h
      exact ⟨st1, h, fun _ => rfl, nofun⟩
    · simp [hk] at h

theorem filePasses_of_untouched {data : ModuleData} (child : FsView) {fs : FileSystem} {s : Sys}
    {k : Kid} {call : Syscall} {args : ScArgs} {io : HookCalls} (hfs : io.fs = fs.toFsView)
    {row : RedirectInfo} (hrow : infoOf call = some row) (h : Untouched data s k call args io) :
    ∃ p, io.pathAt (args.nth row.argnum) = some p ∧ FilePasses data child io call args row p := by
  obtain ⟨st2, hpass, hafter⟩ := h
  obtain ⟨st1, hred, hopen, hother⟩ := runHook_file_continue hrow hpass.run
  have hst1 : st1.args = args ∧ st1.touches.filter Touch.inChild = [] := by
    cases ho : isOpen call with
    | false =>
      obtain rfl := hother ho
      exact ⟨rfl, rfl⟩
    | true => cases hookOpen_pre (hopen ho) <;> exact ⟨rfl, rfl⟩
  obtain ⟨p, hp, hres⟩ := redirectPre_path hred
  rw [hst1.1] at hp
  have hsame : Resolves io io.path (resolveOf row call args) p io.errno := by
    cases ho : isOpen call with
    | false =>
      obtain rfl := hother ho
      exact hres
    | true => exact ((hookOpen_resolves hfs hp (hopen ho)).2 _).mp hres
  -- a record that is found is ignored
  have hskip : ∀ r, getFstabRec data io.fs (pathName io.fs (resolveOf row call args) p) = some r →
      resolveOf row call args = false ∧ isLink io.fs p = true := by
    intro r hr
    cases redirectPre_spec hred with
    | unchanged e h =>
      have harg : io.argPath (st1.args.nth row.argnum) (resolveOf row call args) =
          some (pathName io.fs (resolveOf row call args) p) := by
        rw [HookCalls.argPath, hst1.1, hp, Option.map_some]
      obtain ⟨hreal, hlink⟩ := h _ r harg hr
      rw [show (s.hookSt k args io).args = args from rfl] at hreal
      rw [hreal, pathName_false] at hlink
      exact ⟨hreal, hlink⟩
    | rewritten e addr path r' text =>
      have hmem := hpass.memory
      simp [HookSt.copied, List.filter_append, hst1.2, Touch.inChild, Sys.hookSt] at hmem
  have hno : resolveOf row call args = true ∨ isLink io.fs p = false →
      ¬ (ActsOnRedirected data io.fs (resolveOf row call args) p ∨ ZeroMatch data io.fs p) := by
    intro hlink hacts
    rw [hfs] at hlink hacts hskip
    obtain ⟨r, hr⟩ := (lookup_iff hlink).mpr hacts
    obtain ⟨hreal, hl⟩ := hskip r hr
    rcases hlink with h | h
    · rw [hreal] at h
      cases h
    · rw [hl] at h
      cases h
  refine ⟨p, hp, hsame, fun ho hw => (hookOpen_resolves hfs hp (hopen ho)).1 hw,
    fun ha => (hno (follows_of_acts ha) (Or.inl ha)).elim, fun hlink hz => hno hlink (Or.inr hz), ?_⟩
  intro hreal _ ho hw r hr
  have hg : getFstabRec data io.fs p = some r := getFstabRec_eq_some_iff.mpr hr
  have hpre := hookOpen_pre (hopen ho)
  rw [show (s.hookSt k args io).args = args from rfl, hreal] at hpre
  cases hpre with
  | untracked e h =>
    refine h hw p r ?_ hg
    rw [HookCalls.argPath, show (s.hookSt k args io).args = args from rfl, hp]
    rfl
  | tracked e path r' =>
    -- the hook after the call adds an entry for descriptor 0
    exfalso
    obtain ⟨st3, hpost⟩ := hafter s 0 io
    obtain ⟨-, he⟩ := runHook_post hpost.run
    have hmbc : st2.mbc.tmp = some path ∧ st2.mbc.handledByOpen = true := by
      cases redirectPre_spec hred <;> exact ⟨rfl, rfl⟩
    obtain ⟨-, -, ⟨-, hdone, -⟩ | ⟨path', fdi, hadd⟩⟩ := he.table
    · rcases hdone ho hmbc.2 with ht | hret
      · rw [show (s.hookSt (k.entered call st2) { st2.args with returnCode := 0 } io).mbc.tmp =
          st2.mbc.tmp from rfl, hmbc.1] at ht
        cases ht
      · exact absurd hret (show ¬ (0 : Long).toInt < 0 by decide)
    · have hfiles := hpost.files
      rw [hadd.files] at hfiles
      have hlen := congrArg List.length hfiles
      simp [llAdd] at hlen

theorem untouched_of_filePasses {data : ModuleData} {child : FsView} {fs : FileSystem} {s : Sys}
    {k : Kid} (hclean : Clean k.mbc) {call : Syscall} {args : ScArgs} {io : HookCalls}
    (hfs : io.fs = fs.toFsView) (hopenread : io.openPath.read = true) (hread : io.path.read = true)
    {row : RedirectInfo} (hrow : infoOf call = some row) {p : CString}
    (hp : io.pathAt (args.nth row.argnum) = some p)
    (hun : ¬ ActsOnRedirected data child (kernelFollows call args) p)
    (h : FilePasses data child io call args row p) : Untouched data s k call args io := by
  have hskip : ∀ r, getFstabRec data io.fs (pathName io.fs (resolveOf row call args) p) = some r →
      resolveOf row call args = false ∧ isLink io.fs p = true := by
    intro r hr
    by_contra hcon
    have hlink : resolveOf row call args = true ∨ isLink io.fs p = false := by
      cases hR : resolveOf row call args with
      | true => exact Or.inl rfl
      | false => exact Or.inr (by simpa [hR] using hcon)
    have hfound : ActsOnRedirected data io.fs (resolveOf row call args) p ∨
        ZeroMatch data io.fs p := by
      rw [hfs] at hlink hr ⊢
      exact (lookup_iff hlink).mp ⟨r, hr⟩
    exact hfound.elim (fun ha => hun (h.view ha)) (h.number hlink)
  -- the part of `hook_open`
  have hopen : ∃ e, (if isOpen call then
        hookOpen data io true row.argnum (resolveOf row call args) (s.hookSt k args io)
      else some (.CONTINUE, s.hookSt k args io)) =
        some (.CONTINUE, { s.hookSt k args io with errno := e }) ∧
      Resolves io io.path (resolveOf row call args) p e := by
    cases ho : isOpen call with
    | false => exact ⟨io.errno, rfl, h.resolves⟩
    | true =>
      obtain ⟨st1, h1, -⟩ : ∃ st1, hookOpen data io true row.argnum (resolveOf row call args)
          (s.hookSt k args io) = some (.CONTINUE, st1) ∧ _ :=
        hookOpen_continues data hfs hopenread hp (h.resolves.resolvable hfs) (h.openResolves ho)
      have hsame := (hookOpen_resolves hfs hp h1).2
      rw [if_pos rfl, h1]
      cases hookOpen_pre h1 with
      | untracked e => exact ⟨e, rfl, (hsame _).mpr h.resolves⟩
      | tracked e path r hw hpath hr hb =>
        exfalso
        rw [HookCalls.argPath, show (s.hookSt k args io).args = args from rfl, hp,
          Option.map_some] at hpath
        obtain rfl := Option.some.inj hpath
        obtain ⟨hreal, hlink⟩ := hskip r hr
        rw [hreal, pathName_false] at hr
        rw [h.link hreal hlink ho hw r (getFstabRec_eq_some_iff.mp hr)] at hb
        cases hb
  obtain ⟨e, hopen, hres⟩ := hopen
  refine untouched_of_pre hclean (e := lookupErrno io.fs (resolveOf row call args) p e) ?_
  have hred : redirectPre data io row.argnum (resolveOf row call args)
      { s.hookSt k args io with errno := e } = _ := redirectPre_eq hread hp hres
  rw [runHook_file hrow, show (s.hookSt k args io).args = args from rfl, hopen]
  refine hred.trans ?_
  cases hr : getFstabRec data io.fs (pathName io.fs (resolveOf row call args) p) with
  | none => rfl
  | some r =>
    obtain ⟨hreal, hlink⟩ := hskip r hr
    simp [hreal, hlink]

/-! ### Mounts -/

/-- A mount that goes on has two paths that resolve; its target is not the one of `asec_rec` and no
record is found, or the source has been replaced. -/
theorem hookMount_continue {data : ModuleData} {io : HookCalls} {st st' : HookSt}
    (h : hookMount data io true st = some (.CONTINUE, st')) :
    ∃ p q, io.pathAt st.args.a0 = some p ∧ io.pathAt st.args.a1 = some q ∧
      Resolves io io.path true p st.errno ∧
      Resolves io io.targetPath true q (io.fs.statErrno p st.errno) ∧
      (pathName io.fs true q ≠ ASEC ∧ getFstabRec data io.fs (pathName io.fs true p) = none ∨
        ∃ addr text bind e,
          st' = ({ st with errno := e } : HookSt).copied addr text (mountArgs bind addr)) := by
  unfold hookMount at h
  rw [if_pos rfl] at h
  rcases hg : getPatharg io io.path st.args.a0 true st.errno with _ | ⟨_ | devname, e⟩
  · simp [hg] at h
  · simp [hg] at h
  · rcases hg2 : getPatharg io io.targetPath st.args.a1 true e with _ | ⟨_ | mountpoint, e2⟩
    · simp [hg, hg2] at h
    · simp [hg, hg2] at h
    · simp only [hg, hg2] at h
      obtain ⟨p, hp, hres, rfl, rfl⟩ := getPatharg_spec hg
      obtain ⟨q, hq, hres2, rfl, -⟩ := getPatharg_spec hg2
      refine ⟨p, q, hp, hq, hres, hres2, ?_⟩
      rcases hr : (if pathName io.fs true q == ASEC then some (asecRec data)
        else getFstabRec data io.fs (pathName io.fs true p)) with _ | r
      · -- nothing to mount in place of the source
        left
        cases hasec : pathName io.fs true q == ASEC with
        | true => simp [hasec] at hr
        | false =>
          refine ⟨beq_eq_false_iff_ne.mp hasec, ?_⟩
          rwa [hasec, if_neg Bool.false_ne_true] at hr
      · right
        cases ht : r.replacementDevice with
        | none => simp only [hr, ht, reduceCtorEq] at h
        | some text =>
          simp only [hr, ht, Option.some.injEq] at h
          obtain ⟨addr, -, -, -, rfl⟩ := replacePath_continue h
          exact ⟨addr, text, r.replacementBind, _, rfl⟩

theorem mountPasses_of_untouched {data : ModuleData} (child : FsView) {fs : FileSystem} {s : Sys}
    {k : Kid} {args : ScArgs} {io : HookCalls} (hfs : io.fs = fs.toFsView)
    (h : Untouched data s k .mount args io) :
    ∃ p q, io.pathAt args.a0 = some p ∧ io.pathAt args.a1 = some q ∧
      MountPasses data child io p q := by
  obtain ⟨st', hpass, -⟩ := h
  have hrun : hookMount data io true (s.hookSt k args io) = some (.CONTINUE, st') := hpass.run
  obtain ⟨p, q, hp, hq, hres, hres2, ⟨htarget, hnone⟩ | ⟨addr, text, bind, e, rfl⟩⟩ :=
    hookMount_continue hrun
  · have hno : ¬ (ActsOnRedirected data io.fs true p ∨ ZeroMatch data io.fs p) := by
      rw [hfs] at hnone ⊢
      intro hacts
      obtain ⟨r, hr⟩ := (lookup_iff (Or.inl rfl)).mpr hacts
      cases hnone.symm.trans hr
    exact ⟨p, q, hp, hq, hres, hres2, fun ha => (hno (Or.inl ha)).elim, fun ha => (htarget ha).elim,
      fun hz => hno (Or.inr hz)⟩
  · -- the new name has been written to the child's memory
    have hmem := hpass.memory
    simp [HookSt.copied, Touch.inChild, Sys.hookSt] at hmem

theorem untouched_of_mountPasses {data : ModuleData} {child : FsView} {fs : FileSystem} {s : Sys}
    {k : Kid} (hclean : Clean k.mbc) {args : ScArgs} {io : HookCalls} (hfs : io.fs = fs.toFsView)
    (hread : io.path.read = true) (htargetread : io.targetPath.read = true) {p q : CString}
    (hp : io.pathAt args.a0 = some p) (hq : io.pathAt args.a1 = some q)
    (hun : ¬ ActsOnRedirected data child true p) (htarget : pathName child true q ≠ ASEC)
    (h : MountPasses data child io p q) : Untouched data s k .mount args io := by
  have hnone : getFstabRec data io.fs (pathName io.fs true p) = none := by
    by_contra hsome
    obtain ⟨r, hr⟩ := Option.ne_none_iff_exists'.mp hsome
    have hfound : ActsOnRedirected data io.fs true p ∨ ZeroMatch data io.fs p := by
      rw [hfs] at hr ⊢
      exact (lookup_iff (Or.inl rfl)).mp ⟨r, hr⟩
    exact hfound.elim (fun ha => hun (h.view ha)) h.number
  have hrun : hookMount data io true (s.hookSt k args io) = _ :=
    hookMount_eq hread hp h.resolves htargetread hq h.targetResolves fun ha =>
      htarget (h.targetView ha)
  rw [hnone] at hrun
  exact untouched_of_pre hclean hrun

/-! ### All calls -/

/-- Every access of the tracer to mapped memory succeeds. -/
structure MemReads (io : HookCalls) : Prop where
  openPath : io.openPath.read = true
  path : io.path.read = true
  targetPath : io.targetPath.read = true

/-- The hook of a descriptor that is not tracked does nothing. -/
theorem runHook_untracked {data : ModuleData} {io : HookCalls} {call : Syscall}
    (hfile : hookOf call ≠ some .fileaccess) (hmount : hookOf call ≠ some .mount) {st : HookSt}
    (h : st.args.a0.toInt ∉ ids st.mbc.files) :
    runHook data io call true st = some (.CONTINUE, st) := by
  have hnone : llFind st.mbc.files st.args.a0.toInt = none := llFind_eq_none_iff.mpr h
  unfold runHook
  rcases hk : hookOf call with _ | _ | _ | _ | _ | _
  case none => rfl
  case fileaccess => exact absurd hk hfile
  case mount => exact absurd hk hmount
  case close => simp [hookClose, hnone]
  case dup => simp [hookDup, hnone]
  case fcntl => simp [hookFcntl, hnone]

/-- **A call that does not concern multiboot is left alone exactly if** its paths can be read,
`get_patharg` does not give up on them, the tracer sees a redirected device under them only where the
call acts on one, and no record has the number zero of the file. -/
theorem untouched_iff (data : ModuleData) (disks : Disks) (as : List Action) (s : Sys)
    (hrun : run (step data) (Sys.init disks) as = some s) (k : Kid) (hk : k ∈ s.kids)
    (hout : k.inside = none) (fs : FileSystem) (io : HookCalls) (hfs : io.fs = fs.toFsView)
    (hread : MemReads io) (child : FsView) (call : Syscall) (args : ScArgs)
    (h : Unconcerned data child k.mbc.files call args io) :
    Untouched data s k call args io ↔ PassesWhen data child call args io := by
  have hclean : Clean k.mbc := ((balanced_of_run hrun k hk).outside hout).1
  unfold Unconcerned at h
  unfold PassesWhen
  cases hh : hookOf call with
  | none =>
    rw [hh] at h
    exact iff_of_true (untouched_of_pre (e := io.errno) hclean
      (runHook_untracked (by rw [hh]; nofun) (by rw [hh]; nofun) h)) trivial
  | some hook =>
    rw [hh] at h
    cases hook with
    | fileaccess =>
      obtain ⟨row, hrow⟩ := Option.isSome_iff_exists.mp ((infoOf_isSome_iff call).mpr hh)
      constructor
      · intro hun
        obtain ⟨p, hp, hf⟩ := filePasses_of_untouched child hfs hrow hun
        exact ⟨row, p, hrow, hp, hf⟩
      · rintro ⟨row', p, hrow', hp, hf⟩
        exact untouched_of_filePasses hclean hfs hread.openPath hread.path hrow' hp
          (h row' p hrow' hp) hf
    | mount =>
      obtain rfl : call = .mount := by cases call <;> first | rfl | cases hh
      constructor
      · exact mountPasses_of_untouched child hfs
      · rintro ⟨p, q, hp, hq, hm⟩
        exact untouched_of_mountPasses hclean hfs hread.path hread.targetPath hp hq (h.1 p hp)
          (h.2 q hq) hm
    | close | dup | fcntl =>
      exact iff_of_true (untouched_of_pre (e := io.errno) hclean
        (runHook_untracked (by rw [hh]; nofun) (by rw [hh]; nofun) h)) trivial

/-- The child has the name of a regular file at every address but `NULL`. -/
def plainIo : HookCalls :=
  { demoIo with
    mem := fun addr => if addr = 0 then none else some ("/init.rc".toList ++ [nul])
    fs := regularFiles.toFsView }

theorem unconcerned_plain (files : List (ℤ × FdInfo)) :
    Unconcerned demoData regularFiles.toFsView files .stat64 ⟨1, 0, 0, 0, 0, 0, 0⟩ plainIo := by
  rintro row p hrow hp ⟨r, hr, ⟨st, hst, hdev, -⟩ | ⟨hname, -⟩⟩
  · cases hst
    cases hdev
  · obtain rfl := Option.some.inj hrow
    obtain rfl := Option.some.inj hp
    exact absurd hname ((by decide : ∀ r ∈ lookupRecs demoData, "/init.rc".toList ≠ r.blkDevice) r hr)

theorem untouched_iff_plain : ∃ s k, run (step demoData) (Sys.init demoDisks) [.create []] = some s ∧
    k ∈ s.kids ∧ Untouched demoData s k .stat64 ⟨1, 0, 0, 0, 0, 0, 0⟩ plainIo := by
  refine ⟨_, _, rfl, List.mem_singleton_self _, ?_⟩
  refine (untouched_iff demoData demoDisks [.create []] _ rfl _ (List.mem_singleton_self _) rfl
    regularFiles plainIo rfl ⟨rfl, rfl, rfl⟩ regularFiles.toFsView .stat64 ⟨1, 0, 0, 0, 0, 0, 0⟩
    (unconcerned_plain _)).mpr ?_
  refine ⟨⟨.stat64, 0, true, none⟩, "/init.rc".toList, rfl, rfl, rfl, nofun,
    view_of_sameView demoData rfl ⟨rfl, rfl, rfl⟩ trivial,
    fun _ => not_zeroMatch_of_resolved (by decide) _ _, nofun⟩

/-- The tracer, in the root directory, finds the node of the cache partition under every path. -/
def cacheNodes : FileSystem where
  stat _ := .ok ⟨.blk, 179, 2⟩
  lstat _ := .ok ⟨.blk, 179, 2⟩
  realpath p := .ok p
  stat_kind h := by cases h; decide
  stat_of_lstat h _ := h
  lstat_of_stat h := Or.inl h
  realpath_of_stat {p s} h := ⟨p, rfl, h⟩
  rdev_of_not_device h hdev := by cases h; cases hdev

/-- A child in `/data`, where nothing has that name, calls with a relative path. -/
def relativeIo : HookCalls :=
  { demoIo with
    mem := fun _ => some ("dev/block/mmcblk0p2".toList ++ [nul])
    fs := cacheNodes.toFsView }

def emptyFs : FsView := ⟨fun _ => .error .ENOENT, fun _ => .error .ENOENT, fun _ => .error .ENOENT⟩

theorem unconcerned_relative (files : List (ℤ × FdInfo)) :
    Unconcerned demoData emptyFs files .stat64 ⟨1, 0, 0, 0, 0, 0, 0⟩ relativeIo := by
  rintro row p hrow hp ⟨r, hr, ⟨st, hst, -⟩ | ⟨hname, -⟩⟩
  · cases hst
  · obtain rfl := Option.some.inj hrow
    obtain rfl := Option.some.inj hp
    exact absurd hname
      ((by decide : ∀ r ∈ lookupRecs demoData, "dev/block/mmcblk0p2".toList ≠ r.blkDevice) r hr)

/-- `futimens(5, NULL)` is `utimensat(5, NULL, NULL, 0)`: it has no path, and the hook aborts.  And a
`stat64` of a relative path that leads nowhere is redirected, because for the tracer it leads to the
cache partition. -/
theorem unconcerned_touched : ∃ s k,
    run (step demoData) (Sys.init demoDisks) [.create []] = some s ∧ k ∈ s.kids ∧ k.inside = none ∧
    (MemReads plainIo ∧
      Unconcerned demoData regularFiles.toFsView k.mbc.files .utimensat ⟨5, 0, 0, 0, 0, 0, 0⟩ plainIo ∧
      ¬ Untouched demoData s k .utimensat ⟨5, 0, 0, 0, 0, 0, 0⟩ plainIo) ∧
    MemReads relativeIo ∧
      Unconcerned demoData emptyFs k.mbc.files .stat64 ⟨1, 0, 0, 0, 0, 0, 0⟩ relativeIo ∧
      ¬ Untouched demoData s k .stat64 ⟨1, 0, 0, 0, 0, 0, 0⟩ relativeIo := by
  refine ⟨_, _, rfl, List.mem_singleton_self _, rfl, ⟨⟨rfl, rfl, rfl⟩, ?_, ?_⟩, ⟨rfl, rfl, rfl⟩,
    unconcerned_relative _, ?_⟩
  · intro row p hrow hp
    obtain rfl := Option.some.inj hrow
    cases hp
  · rintro ⟨st, hpass, -⟩
    have hrun : runHook demoData plainIo .utimensat true
        ((Sys.mk [Kid.new []] demoDisks []).hookSt (Kid.new []) ⟨5, 0, 0, 0, 0, 0, 0⟩ plainIo) =
          some (.ABORT, _) := rfl
    cases hrun.symm.trans hpass.run
  · rintro ⟨st, hpass, -⟩
    have hrun : runHook demoData relativeIo .stat64 true
        ((Sys.mk [Kid.new []] demoDisks []).hookSt (Kid.new []) ⟨1, 0, 0, 0, 0, 0, 0⟩ relativeIo) =
          some (.CONTINUE, _) := rfl
    obtain rfl : _ = st := congrArg Prod.snd (Option.some.inj (hrun.symm.trans hpass.run))
    cases hpass.args

end Multiboot
