import Multiboot.Scratch
import Multiboot.Prepared

/-!
# Descriptors and the descriptor table

Four hooks keep `mbc->files` in step with the descriptors of a child.  `Tabled E` says that every
entry belongs to an open descriptor and is related to it by `E`; it holds in every run in which the
kernel's results are possible and no `dup2` or `dup3` lands on a tracked number (`tabled_invariant`).
Two relations give the results: the table is exact (`table_exact`), and a tracked descriptor keeps
its record (`keeps_record`).
-/

namespace Multiboot

open Lib

/-! ### Conditions on a step -/

/-- The kernel returns what it can return. -/
def kernelStep (s : Sys) : Action → Prop
  | .post i ret _ _ => ∀ k ∈ s.kids[i]?, ∀ p ∈ k.inside, kernelResult k.fds p ret.toInt
  | _ => True

instance (s : Sys) : ∀ a, Decidable (kernelStep s a)
  | .post .. => inferInstanceAs (Decidable (∀ k ∈ _, _))
  | .create _ | .pre .. | .exit _ | .mkfs .. | .fsck .. => inferInstanceAs (Decidable True)

/-- No `dup2` or `dup3` lands on the number of a tracked descriptor. -/
def freshDup (s : Sys) : Action → Prop
  | .post i ret _ _ =>
    0 ≤ ret.toInt → ∀ k ∈ s.kids[i]?, ∀ p ∈ k.inside, p.call = .dup2 ∨ p.call = .dup3 →
      ret.toInt ∉ ids k.mbc.files
  | _ => True

instance (s : Sys) : ∀ a, Decidable (freshDup s a)
  | .post .. => inferInstanceAs (Decidable (_ → _))
  | .create _ | .pre .. | .exit _ | .mkfs .. | .fsck .. => inferInstanceAs (Decidable True)

/-! ### A child inside an open -/

theorem nth_setNth_succ (a : ScArgs) {i : ℕ} (hi : i < 5) (v : Long) :
    (a.setNth i v).nth (i + 1) = a.nth (i + 1) := by
  obtain rfl | rfl | rfl | rfl | rfl : i = 0 ∨ i = 1 ∨ i = 2 ∨ i = 3 ∨ i = 4 := by omega
  all_goals rfl

theorem argnum_lt {call : Syscall} {row : RedirectInfo} (h : infoOf call = some row) :
    row.argnum < 5 := by
  have hmem : row ∈ info := List.mem_of_find?_eq_some h
  have hall : ∀ row ∈ info, row.argnum < 5 := by decide
  exact hall row hmem

theorem fileaccess_of_isOpen {call : Syscall} (h : isOpen call = true) :
    hookOf call = some .fileaccess := by
  cases call <;> first | rfl | cases h

theorem dup_cases {call : Syscall} (h : hookOf call = some .dup) :
    call = .dup ∨ call = .dup2 ∨ call = .dup3 := by
  cases call <;> first
    | exact Or.inl rfl
    | exact Or.inr (Or.inl rfl)
    | exact Or.inr (Or.inr rfl)
    | cases h

@[simp] theorem scratchText_copied (st : HookSt) (addr : Long) (text : CString)
    (f : ScArgs → ScArgs) : (st.copied addr text f).scratchText = some text := by
  simp [HookSt.scratchText, HookSt.copied]

theorem scratchText_of_memory {st : HookSt} (h : st.mbc.memory = none) : st.scratchText = none := by
  rw [HookSt.scratchText, h]
  rfl

/-- The hooks before an `open`: either no descriptor will be tracked, and then the kernel does not
open a stub device for writing because of the hook; or one will be, and the path argument is the stub
device of the record chosen, unless it is a link that is not followed. -/
theorem PreEffect.open {data : ModuleData} {io : HookCalls} {call : Syscall} {st st' : HookSt}
    (h : PreEffect data io call st st') (ho : isOpen call = true) (hc : Clean st.mbc) :
    ∃ row, infoOf call = some row ∧
      forWriting st'.args row.argnum = forWriting st.args row.argnum ∧
      ((st'.mbc.tmp = none ∧ (forWriting st.args row.argnum = false ∨ st'.scratchText = none ∨
          ∃ r ∈ lookupRecs data, r.replacementBind = false ∧
            st'.scratchText = r.replacementDevice)) ∨
        ∃ path r, st'.mbc.tmp = some path ∧ st'.chosen = some r ∧
          forWriting st.args row.argnum = true ∧
          io.argPath (st.args.nth row.argnum) (resolveOf row call st.args) = some path ∧
          getFstabRec data io.fs path = some r ∧ r.replacementBind = true ∧
          (st'.scratchText = r.stubDevice ∨
            st'.scratchText = none ∧ resolveOf row call st.args = false ∧
              isLink io.fs path = true)) := by
  have hfile := fileaccess_of_isOpen ho
  cases h with
  | quiet e hq => exact absurd hfile hq
  | closed fdi was hcall =>
    subst hcall
    cases ho
  | dupped fdi hcall =>
    rw [hcall] at hfile
    cases hfile
  | mounted e addr text bind hcall =>
    subst hcall
    cases ho
  | file row st1 _ hrow hopen hother hred =>
    have hnth : ∀ (a : ScArgs) v, forWriting (a.setNth row.argnum v) row.argnum =
        forWriting a row.argnum := by
      intro a v
      rw [forWriting, forWriting, nth_setNth_succ a (argnum_lt hrow)]
    cases hopen ho with
    | untracked e hun =>
      cases hred with
      | unchanged e' =>
        exact ⟨row, hrow, rfl, Or.inl ⟨hc.tmp, Or.inr (Or.inl (scratchText_of_memory hc.memory))⟩⟩
      | rewritten e' addr path r text hp hr ht =>
        refine ⟨row, hrow, hnth _ _, Or.inl ⟨hc.tmp, ?_⟩⟩
        cases hw : forWriting st.args row.argnum with
        | false => exact Or.inl rfl
        | true =>
          have hb : r.replacementBind = false := hun hw path r hp hr
          refine Or.inr (Or.inr ⟨r, getFstabRec_mem hr, hb, ?_⟩)
          rw [hb] at ht
          rw [scratchText_copied]
          exact ht.symm
    | tracked e path r hw hp hr hb =>
      cases hred with
      | unchanged e' hun =>
        obtain ⟨hreal, hlink⟩ := hun path r hp hr
        exact ⟨row, hrow, rfl, Or.inr ⟨path, r, rfl, rfl, hw, hp, hr, hb,
          Or.inr ⟨scratchText_of_memory hc.memory, hreal, hlink⟩⟩⟩
      | rewritten e' addr path' r' text hp' hr' ht =>
        have hpath : path = path' := Option.some.inj (hp.symm.trans hp')
        subst hpath
        obtain rfl : r = r' := Option.some.inj (hr.symm.trans hr')
        rw [if_pos hb] at ht
        refine ⟨row, hrow, hnth _ _, Or.inr ⟨path, r, rfl, rfl, hw, hp, hr, hb, Or.inl ?_⟩⟩
        rw [scratchText_copied]
        exact ht.symm

/-- What is known of a child inside an `open`. -/
structure Opening (data : ModuleData) (k : Kid) : Prop where
  tracked : ∀ p path, k.inside = some p → isOpen p.call = true → k.mbc.tmp = some path →
    p.writable = true ∧ ∃ r ∈ lookupRecs data, r.replacementBind = true ∧ p.record = some r ∧
      (p.path = none ∨ p.path = r.stubDevice)
  untracked : ∀ p, k.inside = some p → isOpen p.call = true → k.mbc.tmp = none →
    p.writable = false ∨ p.path = none ∨
      ∃ r ∈ lookupRecs data, r.replacementBind = false ∧ p.path = r.replacementDevice

theorem Opening.of_outside {data : ModuleData} {k : Kid} (h : k.inside = none) : Opening data k where
  tracked p _ hp := by
    rw [h] at hp
    cases hp
  untracked p hp := by
    rw [h] at hp
    cases hp

theorem opening_invariant (data : ModuleData) (C : Sys → Action → Prop) :
    KidInvariant data (fun s a => C s a ∧ EveryKid Balanced s) (Opening data) where
  new _ := .of_outside rfl
  entered {s i call args io k st} hC hk hin he _ := by
    have hclean : Clean k.mbc := ((hC.2.at hk).outside hin).1
    refine ⟨fun p path hp ho htmp => ?_, fun p hp ho htmp => ?_⟩
    · obtain rfl := Option.some.inj hp
      obtain ⟨row, hrow, hsame, ⟨hnone, -⟩ | ⟨path', r, ht, hch, hw, -, hr, hb, hpath⟩⟩ :=
        he.open ho hclean
      · rw [Kid.mbc_entered, hnone] at htmp
        cases htmp
      · refine ⟨by simpa [Pending.writable, hrow] using hsame.trans hw, r, getFstabRec_mem hr, hb, hch, ?_⟩
        exact hpath.symm.imp And.left id
    · obtain rfl := Option.some.inj hp
      obtain ⟨row, hrow, hsame, ⟨-, hor⟩ | ⟨path', r, ht, -⟩⟩ := he.open ho hclean
      · exact hor.imp (fun hw => by simpa [Pending.writable, hrow] using hsame.trans hw) id
      · rw [Kid.mbc_entered, ht] at htmp
        cases htmp
  left _ _ _ _ _ := .of_outside rfl
  gone := .of_outside rfl

/-! ### Entries of open descriptors -/

/-- Every entry belongs to an open descriptor, to which `E` relates it, and no two entries have the
same number. -/
structure Tabled (E : OpenFile → FdInfo → Prop) (k : Kid) : Prop where
  nodup : (ids k.mbc.files).Nodup
  held : ∀ e ∈ k.mbc.files, ∃ f, k.fds e.1 = some f ∧ E f e.2
  closing : ∀ p, k.inside = some p → p.call = .close → p.fd ∉ ids k.mbc.files
  dupping : ∀ p, k.inside = some p → hookOf p.call = some .dup →
    k.mbc.tmp = (llFind k.mbc.files p.fd).map FdInfo.filename

section
variable {E : OpenFile → FdInfo → Prop} {k : Kid} {p : Pending} {ret : ℤ}

theorem Tabled.isSome_of_mem (h : Tabled E k) {fd : ℤ} (hfd : fd ∈ ids k.mbc.files) :
    (k.fds fd).isSome = true := by
  obtain ⟨e, he, rfl⟩ := List.mem_map.mp hfd
  obtain ⟨f, hf, -⟩ := h.held e he
  rw [hf]
  rfl

/-- A new descriptor has no entry yet. -/
theorem Tabled.fresh (h : Tabled E k) (hret : 0 ≤ ret) (hker : kernelResult k.fds p ret)
    (hdup : p.call = .dup2 ∨ p.call = .dup3 → ret ∉ ids k.mbc.files)
    (hcall : isOpen p.call = true ∨ hookOf p.call = some .dup) : ret ∉ ids k.mbc.files := by
  obtain ⟨hopen, -, hdup1, -⟩ := hker.resolve_left (not_lt.mpr hret)
  have hfree : (k.fds ret).isNone = true → ret ∉ ids k.mbc.files := by
    intro hnone hmem
    have hsome := h.isSome_of_mem hmem
    rw [Option.isNone_iff_eq_none] at hnone
    rw [hnone] at hsome
    cases hsome
  rcases hcall with ho | hd
  · exact hfree (hopen ho)
  · rcases dup_cases hd with hc | hc | hc
    · exact hfree (hdup1 hc)
    · exact hdup (Or.inl hc)
    · exact hdup (Or.inr hc)

/-- The kernel leaves the tracked descriptors alone. -/
theorem Tabled.kernelFds_eq (h : Tabled E k) (hp : k.inside = some p)
    (hker : kernelResult k.fds p ret)
    (hdup : 0 ≤ ret → p.call = .dup2 ∨ p.call = .dup3 → ret ∉ ids k.mbc.files) (opened : CString)
    {fd : ℤ} (hfd : fd ∈ ids k.mbc.files) : kernelFds k.fds p ret opened fd = k.fds fd := by
  unfold kernelFds
  split_ifs with hc hr ho hd
  · have hne : fd ≠ p.fd := fun he => h.closing p hp hc (he ▸ hfd)
    exact Function.update_of_ne hne _ _
  · rfl
  · have hne : fd ≠ ret := fun he =>
      h.fresh (not_lt.mp hr) hker (hdup (not_lt.mp hr)) (Or.inl ho) (he ▸ hfd)
    exact Function.update_of_ne hne _ _
  · have hcall : hookOf p.call = some .dup := by simpa [isDup] using hd
    have hne : fd ≠ ret := fun he =>
      h.fresh (not_lt.mp hr) hker (hdup (not_lt.mp hr)) (Or.inr hcall) (he ▸ hfd)
    exact Function.update_of_ne hne _ _
  · rfl

end

/-- The descriptor behind the entry that is added. -/
theorem kernelFds_added {fds : ℤ → Option OpenFile} {p : Pending} {ret : ℤ} (hret : 0 ≤ ret)
    (hcall : isOpen p.call = true ∨ isOpen p.call = false ∧ hookOf p.call = some .dup)
    (opened : CString) : kernelFds fds p ret opened ret =
      if isOpen p.call then some (p.openFile opened) else fds p.fd := by
  have hclose : p.call ≠ .close := by
    intro hc
    rw [hc] at hcall
    rcases hcall with h | ⟨-, h⟩ <;> cases h
  unfold kernelFds
  rw [if_neg hclose, if_neg (not_lt.mpr hret)]
  rcases hcall with ho | ⟨ho, hd⟩
  · rw [if_pos ho, if_pos ho, Function.update_self]
  · have hno : ¬ isOpen p.call = true := by simp [ho]
    have hdup : isDup p.call = true := by simp [isDup, hd]
    rw [if_neg hno, if_neg hno, if_pos hdup, Function.update_self]

/-- What a relation between descriptors and entries needs for `Tabled` to be kept: new entries are
related, when made for an `open` and when made for a duplicate of a descriptor with an entry. -/
structure Entries (data : ModuleData) (C : Sys → Action → Prop) (E : OpenFile → FdInfo → Prop) :
    Prop where
  kernel : ∀ {s a}, C s a → kernelStep s a
  fresh : ∀ {s a}, C s a → freshDup s a
  balanced : ∀ {s a}, C s a → EveryKid Balanced s
  opened : ∀ {s i ret opened io k p path fdi}, C s (.post i ret opened io) →
    s.kids[i]? = some k → k.inside = some p → isOpen p.call = true → k.mbc.tmp = some path →
    0 ≤ ret.toInt → makeFdinfo data io.fs io.make s.disks path = some fdi →
    E (p.openFile opened) fdi
  dupped : ∀ {s i ret opened io k p f fdi0 fdi}, C s (.post i ret opened io) →
    s.kids[i]? = some k → k.inside = some p → hookOf p.call = some .dup →
    k.mbc.tmp = some fdi0.filename → 0 ≤ ret.toInt → k.fds p.fd = some f → E f fdi0 →
    makeFdinfo data io.fs io.make2 s.disks fdi0.filename = some fdi → E f fdi

/-- Before a call, an entry at most disappears. -/
theorem Tabled.entered {data : ModuleData} {E : OpenFile → FdInfo → Prop} {s : Sys} {k : Kid}
    {call : Syscall} {args : ScArgs} {io : HookCalls} {st : HookSt}
    (he : PreEffect data io call (s.hookSt k args io) st) (hclean : Clean k.mbc)
    (hk : Tabled E k) : Tabled E (k.entered call st) := by
  have hdupping : ∀ p, (k.entered call st).inside = some p → hookOf p.call = some .dup →
      st.mbc.tmp = (llFind st.mbc.files p.fd).map FdInfo.filename := by
    intro p hp hcall
    obtain rfl := Option.some.inj hp
    exact he.dup hcall hclean.tmp
  rcases he.table with ⟨hf, -, -, hclose⟩ | ⟨fdi, was, hcall, hf, -, hfiles, -, -⟩
  · refine ⟨?_, ?_, fun p hp hcall => ?_, hdupping⟩
    · rw [Kid.mbc_entered, hf]
      exact hk.nodup
    · rw [Kid.mbc_entered, hf]
      exact hk.held
    · obtain rfl := Option.some.inj hp
      have hargs : st.args = args :=
        he.args_eq (by rw [show call = _ from hcall]; decide) (by rw [show call = _ from hcall]; decide)
      rw [Kid.mbc_entered, hf, Pending.fd, hargs]
      exact llFind_eq_none_iff.mp (hclose hcall)
  · have hargs : st.args = args := he.args_eq (by rw [hcall]; decide) (by rw [hcall]; decide)
    refine ⟨?_, fun e hmem => ?_, fun p hp _ => ?_, hdupping⟩
    · rw [Kid.mbc_entered, hfiles]
      exact nodup_llDel hk.nodup _
    · rw [Kid.mbc_entered, hfiles] at hmem
      exact hk.held e (mem_of_mem_llDel hmem)
    · obtain rfl := Option.some.inj hp
      rw [Kid.mbc_entered, hfiles, Pending.fd, hargs]
      exact not_mem_ids_llDel hk.nodup _

/-- After a call, the new descriptor gets its entry. -/
theorem Tabled.left {data : ModuleData} {C : Sys → Action → Prop} {E : OpenFile → FdInfo → Prop}
    (hE : Entries data C E) {s : Sys} {i : ℕ} {ret : Long} {opened : CString} {io : HookCalls}
    {k : Kid} {p : Pending} {st : HookSt} (hC : C s (.post i ret opened io))
    (hk : s.kids[i]? = some k) (hp : k.inside = some p)
    (he : PostEffect data io p.call (s.hookSt k { p.args with returnCode := ret } io) st)
    (ht : Tabled E k) : Tabled E (k.left p ret.toInt opened st) := by
  have hker : kernelResult k.fds p ret.toInt := hE.kernel hC k hk p hp
  have hdup : 0 ≤ ret.toInt → p.call = .dup2 ∨ p.call = .dup3 → ret.toInt ∉ ids k.mbc.files :=
    fun hret => hE.fresh hC hret k hk p hp
  have hold : ∀ e ∈ k.mbc.files, ∃ f, (k.left p ret.toInt opened st).fds e.1 = some f ∧ E f e.2 := by
    intro e hmem
    rw [Kid.fds_left, ht.kernelFds_eq hp hker hdup opened (mem_ids_of_mem hmem)]
    exact ht.held e hmem
  obtain ⟨-, -, ⟨hf, -, -⟩ | ⟨path, fdi, hadd⟩⟩ := he.table
  · refine ⟨?_, ?_, fun q hq => by simp at hq, fun q hq => by simp at hq⟩
    · rw [Kid.mbc_left, hf]
      exact ht.nodup
    · rw [Kid.mbc_left, hf]
      exact hold
  · have hret : 0 ≤ ret.toInt := hadd.ret
    have hfiles : st.mbc.files = llAdd k.mbc.files ret.toInt fdi := hadd.files
    have hnew : ret.toInt ∉ ids k.mbc.files :=
      ht.fresh hret hker (hdup hret) (hadd.call.imp id And.right)
    refine ⟨?_, fun e hmem => ?_, fun q hq => by simp at hq, fun q hq => by simp at hq⟩
    · rw [Kid.mbc_left, hfiles, ids_llAdd, List.nodup_append]
      refine ⟨ht.nodup, List.nodup_singleton _, fun a ha b hb => ?_⟩
      rw [List.mem_singleton.mp hb]
      exact fun hab => hnew (hab ▸ ha)
    · rw [Kid.mbc_left, hfiles] at hmem
      rcases List.mem_append.mp hmem with hmem | hmem
      · exact hold e hmem
      · obtain rfl := List.mem_singleton.mp hmem
        rw [Kid.fds_left, kernelFds_added hret hadd.call]
        have hmade := hadd.made
        rcases hadd.call with ho | ⟨ho, hd⟩
        · rw [madeBy, if_pos ho] at hmade
          rw [if_pos ho]
          exact ⟨_, rfl, hE.opened hC hk hp ho hadd.tmp hret hmade⟩
        · -- the entry found before the call names the descriptor that was duplicated
          rw [madeBy, if_neg (by simp [ho])] at hmade
          rw [if_neg (by simp [ho])]
          have htmp : (llFind k.mbc.files p.fd).map FdInfo.filename = some path :=
            (ht.dupping p hp hd).symm.trans hadd.tmp
          obtain ⟨fdi0, hfind, rfl⟩ := Option.map_eq_some_iff.mp htmp
          obtain ⟨f, hf, hrel⟩ := ht.held _ (llFind_some_mem hfind)
          exact ⟨f, hf, hE.dupped hC hk hp hd hadd.tmp hret hf hrel hmade⟩

/-- **Entries belong to open descriptors**, whatever relation new entries satisfy. -/
theorem tabled_invariant {data : ModuleData} {C : Sys → Action → Prop}
    {E : OpenFile → FdInfo → Prop} (hE : Entries data C E) : KidInvariant data C (Tabled E) where
  new _ := ⟨List.nodup_nil, fun e he => (by cases he), fun p hp => (by cases hp),
    fun p hp => (by cases hp)⟩
  entered {s i call args io k st} hC hk hin he ht :=
    ht.entered he (((hE.balanced hC).at hk).outside hin).1
  left {s i ret opened io k p st} hC hk hp he ht := ht.left hE hC hk hp he
  gone := ⟨List.nodup_nil, fun e he => (by cases he), fun p hp => (by cases hp),
    fun p hp => (by cases hp)⟩

/-! ### The table is exact -/

/-- `dev` is the stub device of a record that is redirected to a directory. -/
def BindStub (data : ModuleData) (dev : CString) : Prop :=
  ∃ r ∈ lookupRecs data, r.replacementBind = true ∧ r.stubDevice = some dev

instance (data : ModuleData) (dev : CString) : Decidable (BindStub data dev) :=
  inferInstanceAs (Decidable (∃ r ∈ _, _))

/-- The descriptors the table is about. -/
def OpenFile.onStub (data : ModuleData) (f : OpenFile) : Prop :=
  f.writable = true ∧ BindStub data f.device

instance (data : ModuleData) (f : OpenFile) : Decidable (f.onStub data) :=
  inferInstanceAs (Decidable (_ ∧ _))

/-- Stub devices are opened for writing only by way of the hooks: no child starts with such a
descriptor, a redirected name is no link that the open does not follow, and the child's own path
does not lead to a stub device. -/
def tidy (data : ModuleData) (s : Sys) : Action → Prop
  | .create inherited => ∀ e ∈ inherited, ¬ e.2.onStub data
  | .pre _ call args io =>
    isOpen call = true → ∀ row ∈ infoOf call, forWriting args row.argnum = true →
      resolveOf row call args = false → ∀ path ∈ io.pathAt (args.nth row.argnum),
        ∀ r ∈ lookupRecs data, FirstMatch data io.fs path r → r.replacementBind = true →
          isLink io.fs path = false
  | .post i ret opened _ =>
    0 ≤ ret.toInt → ∀ k ∈ s.kids[i]?, ∀ p ∈ k.inside, isOpen p.call = true → p.path = none →
      p.writable = true → ¬ BindStub data opened
  | _ => True

instance (data : ModuleData) (s : Sys) : ∀ a, Decidable (tidy data s a)
  | .create _ => inferInstanceAs (Decidable (∀ e ∈ _, _))
  | .pre .. => inferInstanceAs (Decidable (_ → _))
  | .post .. => inferInstanceAs (Decidable (_ → _))
  | .exit _ | .mkfs .. | .fsck .. => inferInstanceAs (Decidable True)

/-- The conditions under which the table is exact. -/
def ordered (data : ModuleData) (s : Sys) (a : Action) : Prop :=
  kernelStep s a ∧ freshDup s a ∧ tidy data s a

instance (data : ModuleData) (s : Sys) (a : Action) : Decidable (ordered data s a) :=
  inferInstanceAs (Decidable (_ ∧ _))

/-- A tracked `open` has its path rewritten. -/
def Rewritten (k : Kid) : Prop :=
  ∀ p, k.inside = some p → isOpen p.call = true → k.mbc.tmp ≠ none → p.path ≠ none

theorem rewritten_invariant {data : ModuleData} (hprep : Prepared data) :
    KidInvariant data (fun s a => ordered data s a ∧ EveryKid Balanced s) Rewritten where
  new _ p hp := by cases hp
  entered {s i call args io k st} hC hk hin he _ p hp ho htmp hnone := by
    obtain rfl := Option.some.inj hp
    have hclean : Clean k.mbc := ((hC.2.at hk).outside hin).1
    obtain ⟨row, hrow, -, ⟨ht, -⟩ | ⟨path, r, -, -, hw, hpa, hr, hb, hpath⟩⟩ := he.open ho hclean
    · exact htmp ht
    · have hmem := getFstabRec_mem hr
      have hpa' : io.argPath (args.nth row.argnum) (resolveOf row call args) = some path := hpa
      rcases hpath with hpath | ⟨-, hreal, hlink⟩
      · have hstub := hprep.stub hmem hb
        rw [← hpath, show st.scratchText = none from hnone] at hstub
        cases hstub
      · have hreal' : resolveOf row call args = false := hreal
        have hraw : io.pathAt (args.nth row.argnum) = some path := by
          rw [hreal', HookCalls.argPath] at hpa'
          simpa [pathName] using hpa'
        rw [hC.1.2.2 ho row hrow hw hreal' path hraw r hmem (getFstabRec_eq_some_iff.mp hr) hb]
          at hlink
        cases hlink
  left _ _ _ _ _ p hp := by simp at hp
  gone p hp := by cases hp

/-- The relation between a descriptor and its entry, as far as the table is concerned. -/
abbrev OnStub (data : ModuleData) (f : OpenFile) (_ : FdInfo) : Prop := f.onStub data

/-- What the table's exactness rests on. -/
def Settled (data : ModuleData) (s : Sys) : Prop :=
  EveryKid Balanced s ∧ EveryKid (Opening data) s ∧ EveryKid Rewritten s

theorem entries_onStub (data : ModuleData) :
    Entries data (fun s a => ordered data s a ∧ Settled data s) (OnStub data) where
  kernel h := h.1.1
  fresh h := h.1.2.1
  balanced h := h.2.1
  opened {s i ret opened io k p path fdi} hC hk hp ho htmp _ _ := by
    obtain ⟨hw, r, hr, hb, -, hpath⟩ := (hC.2.2.1.at hk).tracked p path hp ho htmp
    have hre : p.path ≠ none := (hC.2.2.2.at hk) p hp ho (by rw [htmp]; simp)
    have hstub : p.path = r.stubDevice := hpath.resolve_left hre
    obtain ⟨dev, hdev⟩ := Option.ne_none_iff_exists'.mp hre
    refine ⟨hw, r, hr, hb, ?_⟩
    rw [Pending.openFile, hdev, Option.getD_some, ← hstub, hdev]
  dupped _ _ _ _ _ _ _ h _ := h

/-- Every descriptor the table is about has an entry, up to the one that is being closed. -/
def Complete (data : ModuleData) (k : Kid) : Prop :=
  ∀ fd f, k.fds fd = some f → f.onStub data →
    fd ∈ ids k.mbc.files ∨ ∃ p, k.inside = some p ∧ p.call = .close ∧ p.fd = fd

/-- A call never takes an entry away once the kernel has executed it. -/
theorem PostEffect.mem_ids {data : ModuleData} {io : HookCalls} {call : Syscall} {st st' : HookSt}
    (h : PostEffect data io call st st') {fd : ℤ} (hfd : fd ∈ ids st.mbc.files) :
    fd ∈ ids st'.mbc.files := by
  obtain ⟨-, -, ⟨hf, -⟩ | ⟨path, fdi, hadd⟩⟩ := h.table
  · rwa [hf]
  · rw [hadd.files, ids_llAdd]
    exact List.mem_append_left _ hfd

theorem Added.mem_ids {data : ModuleData} {io : HookCalls} {call : Syscall} {st st' : HookSt}
    {path : CString} {fdi : FdInfo} (h : Added data io call st st' path fdi) :
    st.args.returnCode.toInt ∈ ids st'.mbc.files := by
  rw [h.files, ids_llAdd]
  exact List.mem_append_right _ (List.mem_singleton_self _)

/-- A successful `open` with a path stored adds an entry. -/
theorem PostEffect.mem_ids_of_open {data : ModuleData} {io : HookCalls} {call : Syscall}
    {st st' : HookSt} (h : PostEffect data io call st st') (hret : 0 ≤ st.args.returnCode.toInt)
    (ho : isOpen call = true) (hc : Carried call st.mbc) (htmp : st.mbc.tmp ≠ none) :
    st.args.returnCode.toInt ∈ ids st'.mbc.files := by
  obtain ⟨-, -, ⟨-, hopen, -⟩ | ⟨path, fdi, hadd⟩⟩ := h.table
  · have hhandled : st.mbc.handledByOpen = true := by
      rcases hc.tmp htmp with h | h
      · exact h.2
      · rw [fileaccess_of_isOpen ho] at h
        cases h
    rcases hopen ho hhandled with h | h
    · exact absurd h htmp
    · exact absurd h (not_lt.mpr hret)
  · exact hadd.mem_ids

/-- So does a successful duplication. -/
theorem PostEffect.mem_ids_of_dup {data : ModuleData} {io : HookCalls} {call : Syscall}
    {st st' : HookSt} (h : PostEffect data io call st st') (hret : 0 ≤ st.args.returnCode.toInt)
    (hcall : hookOf call = some .dup) (htmp : st.mbc.tmp ≠ none) :
    st.args.returnCode.toInt ∈ ids st'.mbc.files := by
  obtain ⟨-, -, ⟨-, -, hdup⟩ | ⟨path, fdi, hadd⟩⟩ := h.table
  · rcases hdup hcall with h | h
    · exact absurd h htmp
    · exact absurd h (not_lt.mpr hret)
  · exact hadd.mem_ids

/-- An `open` that reaches a stub device for writing has stored a path. -/
theorem open_tracked {data : ModuleData} (hprep : Prepared data) {k : Kid} (hk : Opening data k)
    {p : Pending} (hp : k.inside = some p) (ho : isOpen p.call = true) {opened : CString}
    (hown : p.path = none → p.writable = true → ¬ BindStub data opened)
    (hon : (p.openFile opened).onStub data) : k.mbc.tmp ≠ none := by
  intro htmp
  obtain ⟨hw, r, hr, hb, hstub⟩ := hon
  rcases hk.untracked p hp ho htmp with h | h | ⟨r', hr', hb', hpath⟩
  · rw [show p.writable = true from hw] at h
    cases h
  · refine hown h hw ⟨r, hr, hb, ?_⟩
    rw [hstub, Pending.openFile, h, Option.getD_none]
  · -- the replacement of a loop record is no stub device
    obtain ⟨dev, hdev, -⟩ := hprep.replacement r' hr'
    refine hprep.separate r hr r' hr' hb hb' ?_
    rw [hstub, Pending.openFile, hpath, hdev, Option.getD_some]

theorem along_settled {data : ModuleData} (hprep : Prepared data) {disks : Disks}
    {as : List Action} (hC : Along (step data) (ordered data) (Sys.init disks) as) :
    Along (step data) (fun s a => ordered data s a ∧ Settled data s) (Sys.init disks) as := by
  have hbal := (balanced_invariant data _).along hC
  have hopen := (opening_invariant data _).along hbal
  have hre := (rewritten_invariant hprep).along hbal
  exact (hopen.and hre).mono fun s a h => ⟨h.1.1.1, h.1.1.2, h.1.2, h.2.2⟩

theorem complete_invariant {data : ModuleData} (hprep : Prepared data) :
    KidInvariant data
      (fun s a => (ordered data s a ∧ Settled data s) ∧ EveryKid (Tabled (OnStub data)) s)
      (Complete data) where
  new {s inherited} hC fd f hf hon := absurd hon (hC.1.1.2.2 _ (llFind_some_mem hf))
  entered {s i call args io k st} hC hk hin he ht fd f hf hon := by
    have hmem : fd ∈ ids k.mbc.files := by
      rcases ht fd f hf hon with h | ⟨p, hp, -⟩
      · exact h
      · rw [hin] at hp
        cases hp
    rcases he.table with ⟨hfiles, -⟩ | ⟨fdi, was, hcall, -, -, hfiles, -, -⟩
    · rw [Kid.mbc_entered, hfiles]
      exact Or.inl hmem
    · rw [Kid.mbc_entered, hfiles]
      by_cases hfd : fd = args.a0.toInt
      · have hargs : st.args = args := he.args_eq (by rw [hcall]; decide) (by rw [hcall]; decide)
        refine Or.inr ⟨_, rfl, hcall, ?_⟩
        rw [Pending.fd, hargs]
        exact hfd.symm
      · exact Or.inl (mem_ids_llDel hmem hfd)
  left {s i ret opened io k p st} hC hk hp he ht fd f hf hon := by
    have hsame : p.call ≠ .close → k.fds fd = some f → fd ∈ ids st.mbc.files := by
      intro hc hold
      rcases ht fd f hold hon with h | ⟨q, hq, hclose, -⟩
      · exact he.mem_ids h
      · obtain rfl := Option.some.inj (hp.symm.trans hq)
        exact absurd hclose hc
    refine Or.inl ?_
    rw [Kid.fds_left] at hf
    rw [Kid.mbc_left]
    unfold kernelFds at hf
    split_ifs at hf with hc hr ho hd
    · by_cases hfd : fd = p.fd
      · rw [hfd, Function.update_self] at hf
        cases hf
      · rw [Function.update_of_ne hfd] at hf
        rcases ht fd f hf hon with h | ⟨q, hq, -, hqfd⟩
        · exact he.mem_ids h
        · obtain rfl := Option.some.inj (hp.symm.trans hq)
          exact absurd hqfd.symm hfd
    · exact hsame hc hf
    · by_cases hfd : fd = ret.toInt
      · rw [hfd, Function.update_self] at hf
        obtain rfl := Option.some.inj hf
        rw [hfd]
        exact he.mem_ids_of_open (not_lt.mp hr) ho (((hC.1.2.1.at hk).inside p hp).1)
          (open_tracked hprep (hC.1.2.2.1.at hk) hp ho (hC.1.1.2.2 (not_lt.mp hr) k hk p hp ho) hon)
      · rw [Function.update_of_ne hfd] at hf
        exact hsame hc hf
    · have hcall : hookOf p.call = some .dup := by simpa [isDup] using hd
      by_cases hfd : fd = ret.toInt
      · rw [hfd, Function.update_self] at hf
        rw [hfd]
        have hmem : p.fd ∈ ids k.mbc.files := by
          rcases ht p.fd f hf hon with h | ⟨q, hq, hclose, -⟩
          · exact h
          · obtain rfl := Option.some.inj (hp.symm.trans hq)
            exact absurd hclose hc
        obtain ⟨fdi, hfind⟩ := Option.isSome_iff_exists.mp (llFind_isSome_iff.mpr hmem)
        have htmp : k.mbc.tmp ≠ none := by
          rw [(hC.2.at hk).dupping p hp hcall, hfind]
          simp
        exact he.mem_ids_of_dup (not_lt.mp hr) hcall htmp
      · rw [Function.update_of_ne hfd] at hf
        exact hsame hc hf
    · exact hsame hc hf
  gone fd f hf := by cases hf

/-- **The table is exact.**  In every run in which the kernel's results are possible, no `dup2` or
`dup3` lands on a tracked number and stub devices are opened for writing only by way of the hooks:
between two calls a child's table has one entry for each descriptor it holds that is open for writing
on the stub device of a bind record, and none for any other number. -/
theorem table_exact (params : BootParams) (env : SetupEnv) (data : ModuleData)
    (hsetup : setup params env = some data) (disks : Disks) (as : List Action) (s : Sys)
    (h : run (step data) (Sys.init disks) as = some s)
    (hC : Along (step data) (ordered data) (Sys.init disks) as) :
    ∀ k ∈ s.kids, k.inside = none → ∀ fd : ℤ,
      (ids k.mbc.files).count fd = if ∃ f ∈ k.fds fd, f.onStub data then 1 else 0 := by
  have hprep : Prepared data := prepared_of_setup hsetup
  have hsettled := along_settled hprep hC
  have htabled := (tabled_invariant (entries_onStub data)).along hsettled
  intro k hk hin fd
  have ht : Tabled (OnStub data) k := (tabled_invariant (entries_onStub data)).run h hsettled k hk
  have hcomplete : Complete data k := (complete_invariant hprep).run h htabled k hk
  split_ifs with hheld
  · obtain ⟨f, hf, hon⟩ := hheld
    refine List.count_eq_one_of_mem ht.nodup ?_
    rcases hcomplete fd f hf hon with hmem | ⟨p, hp, -⟩
    · exact hmem
    · rw [hin] at hp
      cases hp
  · rw [List.count_eq_zero]
    intro hmem
    obtain ⟨e, he, rfl⟩ := List.mem_map.mp hmem
    obtain ⟨f, hf, hon⟩ := ht.held e he
    exact hheld ⟨f, hf, hon⟩

/-- Descriptor 5 is opened on the cache partition and duplicated as 6. -/
def twoDescriptors : List Action := .create [] :: openRun 0 1 5 ++ dup2Run 0 5 6

theorem table_exact_twoDescriptors :
    ∃ s, run (step demoData) (Sys.init demoDisks) twoDescriptors = some s ∧
      ∀ k ∈ s.kids, k.inside = none → ∀ fd : ℤ, (ids k.mbc.files).count fd =
        if ∃ f ∈ k.fds fd, f.onStub demoData then 1 else 0 := by
  refine ⟨_, rfl, ?_⟩
  exact table_exact demoParams demoEnv demoData rfl demoDisks twoDescriptors _ rfl (by decide)

/-- Descriptor 5 is opened on the cache partition and duplicated onto itself. -/
def selfDup : List Action := .create [] :: openRun 0 1 5 ++ dup2Run 0 5 5

/-- The kernel does nothing, and the table has two entries for the one descriptor. -/
theorem selfDup_two_entries : Along (step demoData) kernelStep (Sys.init demoDisks) selfDup ∧
    ∃ s, run (step demoData) (Sys.init demoDisks) selfDup = some s ∧
      s.kids.map (fun k => (k.inside, ids k.mbc.files)) = [(none, [5, 5])] :=
  ⟨by decide, _, rfl, by decide⟩

end Multiboot
