import Multiboot.TracerHeap

/-!
# The hooks with pointers do what the hooks do

`PtrRep p st R` says that the pointers of `p` stand for the values of `st` and own the blocks `R`.
Each hook on the heap refines the hook on the values (`runHookPtr_refines`): it fails only where that
one does, and leaves pointers for the same values.  `After` keeps the account: how many blocks are
left behind that nothing points to, and what was read from blocks that had been freed, which is only
the type `get_fstype` returns.
-/

namespace Multiboot

open Lib HeapM

abbrev Blocks := Multiset (Ptr × Obj)

/-! ### Rules for the loads -/

section Loads

variable {β γ : Type} {V : View Obj} {v : Option γ} {Q : β → γ → View Obj → Prop} {b : Ptr}

theorem refines_loadText {s : CString} {f : CString → HeapM Obj β} (hm : (b, .text s) ∈ V.live)
    (hf : Refines V (f s) v Q) : Refines V (loadText b >>= f) v Q := by
  rw [loadText, bind_assoc]
  exact .load hm hf

theorem refines_textOf {s : CString} {f : CString → HeapM Obj β} (hm : (b, .text s) ∈ V.live)
    (hf : Refines V (f s) v Q) : Refines V (textOf (some b) >>= f) v Q := refines_loadText hm hf

theorem refines_loadFdi {x : FdInfoPtrs} {f : FdInfoPtrs → HeapM Obj β}
    (hm : (b, .fdInfo x) ∈ V.live) (hf : Refines V (f x) v Q) :
    Refines V (loadFdi b >>= f) v Q := by
  rw [loadFdi, bind_assoc]
  exact .load hm hf

theorem refines_loadMbc {x : ChildPtrs} {f : ChildPtrs → HeapM Obj β}
    (hm : (b, .childData x) ∈ V.live) (hf : Refines V (f x) v Q) :
    Refines V (loadMbc b >>= f) v Q := by
  rw [loadMbc, bind_assoc]
  exact .load hm hf

/-- The pointer leads into a probe with this type, or is `NULL`. -/
def FstypeRep (V : View Obj) : Option Ptr → Option CString → Prop
  | none, none => True
  | some b, some type => (b, .probe type) ∈ V.freed
  | _, _ => False

theorem refines_getFstypePtr {io : DevCalls} {disks : Disks} {device : Option CString}
    {f : Option Ptr → HeapM Obj β}
    (hf : ∀ fstype freed, FstypeRep ⟨V.live, freed, V.stale⟩ fstype (getFstype io disks device) →
      Refines ⟨V.live, freed, V.stale⟩ (f fstype) v Q) :
    Refines V (getFstypePtr io disks device >>= f) v Q := by
  rw [getFstypePtr]
  cases ht : getFstype io disks device with
  | none =>
    rw [ht] at hf
    exact hf none V.freed trivial
  | some type =>
    rw [ht] at hf
    simp only [bind_assoc, pure_bind]
    refine .alloc fun pr => .free rfl (hf (some pr) _ ?_)
    exact List.mem_cons_self

/-- Reading the type leaves a mark, unless there is none. -/
theorem refines_fstypeText {fstype : Option Ptr} {type : Option CString}
    {f : CString → HeapM Obj β} (hrep : FstypeRep V fstype type)
    (hf : Refines ⟨V.live, V.freed, V.stale ++ (type.map Obj.probe).toList⟩
      (f (type.getD EXT4)) v Q) :
    Refines V (fstypeText fstype >>= f) v Q := by
  cases fstype with
  | none =>
    cases type with
    | none =>
      rw [Option.map_none, Option.toList_none, List.append_nil] at hf
      exact hf
    | some type => exact hrep.elim
  | some b =>
    cases type with
    | none => exact hrep.elim
    | some type =>
      rw [fstypeText, loadText, bind_assoc]
      exact .loadFreed hrep hf

end Loads

/-! ### What the pointers own -/

/-- The blocks of a descriptor at `fdi`, but for its name. -/
inductive FdCells (name fdi : Ptr) : FdInfo → Blocks → Prop
  | bare {s type dev : CString} {t d : Ptr} :
      FdCells name fdi ⟨s, some type, none, some dev⟩
        ({(fdi, .fdInfo ⟨some name, some t, none, some d⟩)} + ({(t, .text type)} +
          {(d, .text dev)}))
  | loaded {s dev : CString} {sb : SuperBlock} {t p d : Ptr} :
      FdCells name fdi ⟨s, some EXT4, some sb, some dev⟩
        ({(fdi, .fdInfo ⟨some name, some t, some p, some d⟩)} + ({(t, .text EXT4)} +
          ({(d, .text dev)} + {(p, .pdata sb)})))

inductive FdRep (fdi : Ptr) (info : FdInfo) : Blocks → Prop
  | mk {name : Ptr} {R : Blocks} (h : FdCells name fdi info R) :
      FdRep fdi info ({(name, .text info.filename)} + R)

inductive TmpRep : Option Ptr → Option CString → Blocks → Prop
  | none : TmpRep none none 0
  | some {b : Ptr} {s : CString} : TmpRep (some b) (some s) {(b, .text s)}

/-- The state of a hook with these values behind its pointers. -/
def HookSt.withPtrs (st : HookSt) (tmp : Option CString) (files : List (ℤ × FdInfo)) : HookSt :=
  { st with mbc := { st.mbc with tmp := tmp, files := files } }

/-- The pointers of `p` stand for values of a state and own these blocks. -/
inductive PtrRep (p : PtrSt) : HookSt → Blocks → Prop
  | mk {tmp : Option CString} {files : List (ℤ × FdInfo)} {T F : Blocks} (ht : TmpRep p.tmp tmp T)
      (hf : Owned (Keyed FdRep) p.files files F) : PtrRep p (p.out.withPtrs tmp files) (T + F)

/-! ### The account -/

def Obj.isProbe : Obj → Bool
  | .probe _ => true
  | _ => false

/-- From the view `V` with `W` besides, `leak` blocks are left behind and `reads` types are read from
freed probes; what is owned then is `R`. -/
structure After (V : View Obj) (W : Blocks) (leak reads : ℕ) (R : Blocks) (V' : View Obj) :
    Prop where
  live : ∃ L, V'.live = R + (L + W) ∧ Multiset.card L = leak
  stale : ∃ S, V'.stale = V.stale ++ S ∧ S.all Obj.isProbe = true ∧ S.length = reads

theorem After.trans {V V₁ V₂ : View Obj} {W L R₁ : Blocks} {l₁ r r₁ : ℕ}
    (hstale : ∃ S, V₁.stale = V.stale ++ S ∧ S.all Obj.isProbe = true ∧ S.length = r)
    (h₁ : After V₁ (L + W) l₁ r₁ R₁ V₂) : After V W (Multiset.card L + l₁) (r + r₁) R₁ V₂ := by
  obtain ⟨S, hS, hp, rfl⟩ := hstale
  obtain ⟨⟨L₁, hL₁, rfl⟩, S₁, hS₁, hp₁, rfl⟩ := h₁
  refine ⟨⟨L + L₁, ?_, Multiset.card_add _ _⟩, S ++ S₁, ?_, ?_, List.length_append⟩
  · rw [hL₁]
    abel
  · rw [hS₁, hS, List.append_assoc]
  · rw [List.all_append, hp, hp₁]
    rfl

/-! ### Descriptors -/

theorem ext2Pre_eq (io : DevCalls) (disks : Disks) (name : CString) (type : Option CString)
    (dev : CString) : ext2Pre io disks ⟨name, type, none, some dev⟩ =
      ⟨name, type, io.sbPre (disks dev).sb, some dev⟩ := by
  cases ho : io.opened <;> cases hr : io.read <;> simp [ext2Pre, DevCalls.sbPre, ho, hr]

/-- How often the type on a device is read after it has been freed. -/
def typeReads (io : DevCalls) (disks : Disks) (device : Option CString) : ℕ :=
  if (getFstype io disks device).isSome then 1 else 0

theorem length_typeReads (io : DevCalls) (disks : Disks) (device : Option CString) :
    ((getFstype io disks device).map Obj.probe).toList.length = typeReads io disks device := by
  rw [typeReads]
  cases getFstype io disks device <;> rfl

theorem all_isProbe (type : Option CString) :
    (type.map Obj.probe).toList.all Obj.isProbe = true := by
  cases type <;> rfl

/-- What `make_fdinfo` leaves: the descriptor, which shares the name it was given. -/
structure Made (io : DevCalls) (disks : Disks) (V : View Obj) (name fdi : Ptr) (info : FdInfo)
    (V' : View Obj) (R : Blocks) : Prop where
  cells : FdCells name fdi info R
  live : V'.live = R + V.live
  stale : V'.stale = V.stale ++ ((getFstype io disks info.device).map Obj.probe).toList

theorem fsPrePtr_refines {io : DevCalls} {disks : Disks} {V : View Obj} {W : Blocks}
    {name fdi t d : Ptr} {s type dev : CString}
    {Q : Unit → FdInfo → View Obj → Prop}
    (hV : V.live = {(fdi, .fdInfo ⟨some name, some t, none, some d⟩)} + ({(t, .text type)} +
      {(d, .text dev)} + W))
    (hQ : ∀ info R V', FdCells name fdi info R → info.device = some dev → V'.live = R + W →
      V'.stale = V.stale → Q () info V') :
    Refines V (fsPrePtr io disks fdi) (fsPre io disks ⟨s, some type, none, some dev⟩) Q := by
  refine refines_loadFdi (x := ⟨some name, some t, none, some d⟩) (by simp [hV]) ?_
  refine refines_textOf (s := type) (by simp [hV]) ?_
  rw [fsPre]
  by_cases ht : type = EXT4
  · subst ht
    simp only [if_true, ext2Pre_eq]
    refine refines_loadFdi (x := ⟨some name, some t, none, some d⟩) (by simp [hV]) ?_
    refine refines_textOf (s := dev) (by simp [hV]) ?_
    cases io.sbPre (disks dev).sb with
    | none => exact refines_pure (hQ _ _ _ .bare rfl (hV.trans (add_assoc _ _ _).symm) rfl)
    | some sb =>
      refine .alloc fun p => ?_
      have heq : {(p, Obj.pdata sb)} + V.live =
          {(fdi, .fdInfo ⟨some name, some t, none, some d⟩)} +
            ({(t, .text EXT4)} + ({(d, .text dev)} + {(p, .pdata sb)}) + W) := by
        rw [hV]
        abel
      refine .last (.store heq ?_)
      exact refines_pure (hQ _ _ _ .loaded rfl (add_assoc _ _ _).symm rfl)
  · simp only [if_neg ht]
    exact refines_pure (hQ _ _ _ .bare rfl (hV.trans (add_assoc _ _ _).symm) rfl)

/-- The pointer at `fdi` while the descriptor is not described yet. -/
def newFdi (name : Ptr) : Obj := .fdInfo ⟨some name, none, none, none⟩

theorem describePtr_refines {io : DevCalls} {disks : Disks} {V : View Obj} {W : Blocks}
    {name fdi : Ptr} {r : FstabRec} {s dev : CString} (hV : V.live = {(fdi, newFdi name)} + W)
    (hd : r.stubDevice = some dev) :
    Refines V (describePtr io disks name fdi r)
      (fsPre io disks ⟨s, some ((getFstype io disks (some dev)).getD EXT4), none, some dev⟩)
      fun _ info V' => ∃ R, FdCells name fdi info R ∧ V'.live = R + W ∧
        V'.stale = V.stale ++ ((getFstype io disks info.device).map Obj.probe).toList := by
  rw [describePtr, hd]
  refine .alloc fun d => ?_
  refine refines_getFstypePtr fun fstype freed hrep => ?_
  refine refines_fstypeText hrep ?_
  refine .alloc fun t => ?_
  have heq : {(t, Obj.text ((getFstype io disks (some dev)).getD EXT4))} +
      ({(d, .text dev)} + V.live) = {(fdi, newFdi name)} +
        ({(t, .text ((getFstype io disks (some dev)).getD EXT4))} + {(d, .text dev)} + W) := by
    rw [hV]
    abel
  refine .store heq ?_
  refine fsPrePtr_refines rfl fun info R V' hcells hdev hlive hstale => ⟨R, hcells, hlive, ?_⟩
  rw [hdev]
  exact hstale

/-- **A new descriptor**: it has blocks of its own, and shares its name with the caller. -/
theorem makeFdinfoPtr_refines {data : ModuleData} {fs : FsView} {io : DevCalls} {disks : Disks}
    {V : View Obj} {name : Ptr} {s : CString} (hs : (name, .text s) ∈ V.live) :
    Refines V (makeFdinfoPtr data fs io disks name) (makeFdinfo data fs io disks s)
      fun fdi info V' => ∃ R, Made io disks V name fdi info V' R := by
  refine .alloc fun fdi => ?_
  refine refines_loadText (s := s) (Multiset.mem_add.mpr (Or.inr hs)) ?_
  cases hr : getFstabRec data fs s with
  | none =>
    -- the type is `NULL`
    have hvalue : makeFdinfo data fs io disks s = none := by simp [makeFdinfo, hr, fsPre]
    rw [hvalue]
    have hfail : Refines (β := Unit) (γ := FdInfo)
        ⟨{(fdi, newFdi name)} + V.live, V.freed, V.stale⟩
        (fsPrePtr io disks fdi) none fun _ _ _ => False :=
      refines_loadFdi (x := ⟨some name, none, none, none⟩) (by simp [newFdi]) refines_fail
    exact hfail.seq (fun h => h) fun _ _ _ hc => (by cases hc)
  | some r =>
    cases hd : r.stubDevice with
    | none =>
      have hvalue : makeFdinfo data fs io disks s = none := by simp [makeFdinfo, hr, hd]
      rw [hvalue]
      have hfail : Refines (β := Unit) (γ := FdInfo)
          ⟨{(fdi, newFdi name)} + V.live, V.freed, V.stale⟩
          (describePtr io disks name fdi r) none fun _ _ _ => False := by
        rw [describePtr, hd]
        exact refines_fail
      exact hfail.seq (fun h => h) fun _ _ _ hc => (by cases hc)
    | some dev =>
      have hvalue : makeFdinfo data fs io disks s = fsPre io disks
          ⟨s, some ((getFstype io disks (some dev)).getD EXT4), none, some dev⟩ := by
        simp only [makeFdinfo, hr, hd]
      rw [hvalue]
      refine (describePtr_refines (W := V.live) rfl hd).seq (fun h => h) ?_
      rintro - info V' hinfo ⟨R, hcells, hlive, hstale⟩
      rw [hinfo]
      exact refines_pure ⟨R, hcells, hlive, hstale⟩

/-- How often `fs_was_format` reads the type on the device after it has been freed. -/
def formatReads (io : DevCalls) (disks : Disks) (info : FdInfo) : ℕ :=
  match getFstype io disks info.device with
  | none => 0
  | some type => if info.fsType = some type then 2 else 1

/-- The pointers of a descriptor lead to its values. -/
structure Points (R : Blocks) (fdi : Ptr) (info : FdInfo) (ptrs : FdInfoPtrs) (type dev : CString) :
    Prop where
  self : (fdi, .fdInfo ptrs) ∈ R
  filename : ∃ b, ptrs.filename = some b ∧ (b, .text info.filename) ∈ R
  fsType : ∃ b, ptrs.fsType = some b ∧ (b, .text type) ∈ R
  device : ∃ b, ptrs.device = some b ∧ (b, .text dev) ∈ R
  fsPdata : ptrs.fsPdata = none ∧ info.fsPdata = none ∨
    ∃ b sb, ptrs.fsPdata = some b ∧ info.fsPdata = some sb ∧ (b, .pdata sb) ∈ R
  type_eq : info.fsType = some type
  device_eq : info.device = some dev

theorem FdRep.points {fdi : Ptr} {info : FdInfo} {R : Blocks} (h : FdRep fdi info R) :
    ∃ ptrs type dev, Points R fdi info ptrs type dev := by
  obtain @⟨name, R, h⟩ := h
  cases h with
  | @bare s type dev t d =>
    refine ⟨⟨some name, some t, none, some d⟩, type, dev, by simp, ⟨name, rfl, by simp⟩,
      ⟨t, rfl, by simp⟩, ⟨d, rfl, by simp⟩, Or.inl ⟨rfl, rfl⟩, rfl, rfl⟩
  | @loaded s dev sb t p d =>
    refine ⟨⟨some name, some t, some p, some d⟩, EXT4, dev, by simp, ⟨name, rfl, by simp⟩,
      ⟨t, rfl, by simp⟩, ⟨d, rfl, by simp⟩, Or.inr ⟨p, sb, rfl, rfl, by simp⟩, rfl, rfl⟩

theorem FdRep.freeFdinfo {fdi : Ptr} {info : FdInfo} {R : Blocks} (h : FdRep fdi info R) :
    Multiboot.freeFdinfo info = some () := by
  obtain ⟨ptrs, type, dev, hp⟩ := h.points
  rw [Multiboot.freeFdinfo, hp.type_eq]
  rfl

theorem Points.mono {R S : Blocks} {fdi : Ptr} {info : FdInfo} {ptrs : FdInfoPtrs}
    {type dev : CString} (h : Points R fdi info ptrs type dev) (hR : R ≤ S) :
    Points S fdi info ptrs type dev := by
  have hmem : ∀ p, p ∈ R → p ∈ S := fun p hp => Multiset.mem_of_le hR hp
  refine ⟨hmem _ h.self, ?_, ?_, ?_, ?_, h.type_eq, h.device_eq⟩
  · exact h.filename.imp fun b hb => ⟨hb.1, hmem _ hb.2⟩
  · exact h.fsType.imp fun b hb => ⟨hb.1, hmem _ hb.2⟩
  · exact h.device.imp fun b hb => ⟨hb.1, hmem _ hb.2⟩
  · exact h.fsPdata.imp_right fun ⟨b, sb, hp, hi, hm⟩ => ⟨b, sb, hp, hi, hmem _ hm⟩

theorem ext2WasFormatPtr_refines {io : DevCalls} {disks : Disks} {V : View Obj} {fdi : Ptr}
    {info : FdInfo} {ptrs : FdInfoPtrs} {type dev : CString}
    (h : Points V.live fdi info ptrs type dev) :
    Refines V (ext2WasFormatPtr io disks ptrs) (some (ext2WasFormat io disks info))
      fun b c V' => b = c ∧ V' = V := by
  obtain ⟨d, hd, hdev⟩ := h.device
  rw [ext2WasFormatPtr]
  rcases h.fsPdata with ⟨hp, hi⟩ | ⟨p, sb, hp, hi, hm⟩
  · simp only [hp]
    exact refines_pure ⟨by simp [ext2WasFormat, hi], rfl⟩
  · simp only [hp, hd]
    refine .load hm ?_
    refine refines_textOf hdev ?_
    exact refines_pure ⟨by simp [ext2WasFormat, hi, h.device_eq], rfl⟩

/-- **Format detection** reads the type once for each comparison and leaves the heap as it was. -/
theorem fsWasFormatPtr_refines {io : DevCalls} {disks : Disks} {V : View Obj} {R W : Blocks}
    {fdi : Ptr} {info : FdInfo} (h : FdRep fdi info R) (hV : V.live = R + W) :
    Refines V (fsWasFormatPtr io disks fdi) (fsWasFormat io disks info) fun b c V' => b = c ∧
      V'.live = V.live ∧ ∃ S, V'.stale = V.stale ++ S ∧ S.all Obj.isProbe = true ∧
        S.length = formatReads io disks info := by
  obtain ⟨ptrs, type, dev, hpoints⟩ := h.points
  have hp : Points V.live fdi info ptrs type dev := hpoints.mono (by rw [hV]; exact Multiset.le_add_right R W)
  obtain ⟨t, ht, htype⟩ := hp.fsType
  obtain ⟨d, hd, hdev⟩ := hp.device
  refine refines_loadFdi hp.self ?_
  rw [ht, hd]
  refine refines_textOf hdev ?_
  refine refines_getFstypePtr fun fstype freed hrep => ?_
  refine refines_textOf htype ?_
  refine refines_fstypeText hrep ?_
  rw [fsWasFormat, formatReads, hp.type_eq, hp.device_eq]
  by_cases hne : type = (getFstype io disks (some dev)).getD EXT4
  · simp only [← hne, ne_eq, not_true, if_false]
    refine refines_fstypeText hrep ?_
    rw [← hne]
    have hreads : ∀ S : List Obj, S = ((getFstype io disks (some dev)).map Obj.probe).toList →
        (S ++ S).all Obj.isProbe = true ∧ (S ++ S).length =
          match getFstype io disks (some dev) with
          | none => 0
          | some ty => if some type = some ty then 2 else 1 := by
      rintro S rfl
      refine ⟨by rw [List.all_append, all_isProbe, Bool.and_self], ?_⟩
      cases hg : getFstype io disks (some dev) with
      | none => rfl
      | some ty => simp [hne, hg]
    obtain ⟨hall, hlen⟩ := hreads _ rfl
    by_cases hext : type = EXT4
    · simp only [if_pos hext]
      refine Refines.mono (ext2WasFormatPtr_refines (V := ⟨V.live, freed, _⟩) hp) ?_
      rintro b c V' ⟨rfl, rfl⟩
      exact ⟨rfl, rfl, _, List.append_assoc _ _ _, hall, hlen⟩
    · simp only [if_neg hext]
      exact refines_pure ⟨rfl, rfl, _, List.append_assoc _ _ _, hall, hlen⟩
  · simp only [ne_eq, hne, not_false_iff, if_true]
    refine refines_pure ⟨rfl, rfl, _, rfl, all_isProbe _, ?_⟩
    cases hg : getFstype io disks (some dev) with
    | none => rfl
    | some ty =>
      rw [hg] at hne
      have hne' : type ≠ ty := hne
      simp [hne']

/-- `fs_cleanup` frees the superblock buffer if there is one. -/
theorem refines_fsCleanupPtr {β γ : Type} {V : View Obj} {R W : Blocks} {name fdi : Ptr}
    {info : FdInfo} {f : Unit → HeapM Obj β} {v : Option γ} {Q : β → γ → View Obj → Prop}
    (h : FdCells name fdi info R) (hV : V.live = R + W)
    (hf : ∀ t d type dev freed, Refines ⟨{(fdi, .fdInfo ⟨some name, some t, none, some d⟩)} +
      ({(t, .text type)} + ({(d, .text dev)} + W)), freed, V.stale⟩ (f ()) v Q) :
    Refines V (fsCleanupPtr fdi >>= f) v Q := by
  rw [fsCleanupPtr, bind_assoc]
  cases h with
  | @bare s type dev t d =>
    have heq : V.live = {(fdi, .fdInfo ⟨some name, some t, none, some d⟩)} +
        ({(t, .text type)} + ({(d, .text dev)} + W)) := by
      rw [hV]
      abel
    refine refines_loadFdi (x := ⟨some name, some t, none, some d⟩) (by simp [heq]) ?_
    rw [bind_assoc]
    refine refines_textOf (s := type) (by simp [heq]) ?_
    by_cases hext : type = EXT4
    · simp only [if_pos hext, freeOpt, pure_bind]
      exact .store heq (hf t d type dev _)
    · simp only [if_neg hext, pure_bind]
      have hlast := hf t d type dev V.freed
      rw [← heq] at hlast
      exact hlast
  | @loaded s dev sb t p d =>
    have heq : V.live = {(p, .pdata sb)} + ({(fdi, .fdInfo ⟨some name, some t, some p, some d⟩)} +
        ({(t, .text EXT4)} + ({(d, .text dev)} + W))) := by
      rw [hV]
      abel
    refine refines_loadFdi (x := ⟨some name, some t, some p, some d⟩) (by simp [heq]) ?_
    rw [bind_assoc]
    refine refines_textOf (s := EXT4) (by simp [heq]) ?_
    simp only [if_true, freeOpt, bind_assoc]
    exact .free heq (.store rfl (hf t d EXT4 dev _))

/-- **Freeing a descriptor** leaves its own block behind. -/
theorem freeFdinfoPtr_refines {V : View Obj} {R W : Blocks} {fdi : Ptr} {info : FdInfo}
    (h : FdRep fdi info R) (hV : V.live = R + W) :
    Refines V (freeFdinfoPtr fdi) (freeFdinfo info) fun _ _ V' =>
      V'.live = {(fdi, .fdInfo ⟨none, none, none, none⟩)} + W ∧ V'.stale = V.stale := by
  rw [h.freeFdinfo]
  obtain @⟨name, R, h⟩ := h
  have hV' : V.live = R + ({(name, .text info.filename)} + W) := by
    rw [hV]
    abel
  rw [freeFdinfoPtr]
  refine refines_fsCleanupPtr h hV' fun t d type dev freed => ?_
  refine refines_loadFdi (x := ⟨some name, some t, none, some d⟩) (by simp) ?_
  have hname : {(fdi, Obj.fdInfo ⟨some name, some t, none, some d⟩)} + ({(t, .text type)} +
      ({(d, .text dev)} + ({(name, .text info.filename)} + W))) =
      {(name, .text info.filename)} + ({(t, .text type)} + ({(d, .text dev)} +
        ({(fdi, .fdInfo ⟨some name, some t, none, some d⟩)} + W))) := by abel
  refine .free hname ?_
  refine .free rfl ?_
  refine .free rfl ?_
  refine .last (.store rfl ?_)
  exact refines_pure ⟨rfl, rfl⟩

/-- **Freeing the list** leaves one block behind for each item. -/
theorem freeFdinfoListPtr_refines {files : List (ℤ × Ptr)} {infos : List (ℤ × FdInfo)}
    {F : Blocks} (h : Owned (Keyed FdRep) files infos F) :
    ∀ {V : View Obj} {W : Blocks}, V.live = F + W →
      Refines V (freeFdinfoListPtr files) (freeFdinfoList infos) fun _ _ V' =>
        V'.stale = V.stale ∧ ∃ L, V'.live = L + W ∧ Multiset.card L = infos.length := by
  induction h with
  | nil =>
    intro V W hV
    exact refines_pure ⟨rfl, 0, hV, rfl⟩
  | @cons p q R S files infos head tail ih =>
    intro V W hV
    obtain @⟨fd, fdi, info, _, hrep⟩ := head
    rw [add_assoc] at hV
    rw [freeFdinfoListPtr]
    refine (freeFdinfoPtr_refines hrep hV).seq (fun hnone => ?_) ?_
    · rw [hrep.freeFdinfo] at hnone
      cases hnone
    · rintro - - V₁ - ⟨hlive, hstale⟩
      rw [add_left_comm] at hlive
      have hrest : freeFdinfoList ((fd, info) :: infos) = freeFdinfoList infos := by
        simp only [freeFdinfoList, List.all_cons, hrep.freeFdinfo, Option.isSome_some, Bool.true_and]
      rw [hrest]
      refine (ih hlive).mono ?_
      rintro - - V₂ ⟨hstale₂, L, hlive₂, hcard⟩
      refine ⟨hstale₂.trans hstale, L + {(fdi, .fdInfo ⟨none, none, none, none⟩)}, ?_, ?_⟩
      · rw [hlive₂, add_assoc]
      · rw [Multiset.card_add, hcard]
        rfl

/-! ### Hooks -/

/-- The hook has returned the same code, with pointers for the same values. -/
def HookPost (V : View Obj) (W : Blocks) (leak reads : ℕ) (p : Rc × PtrSt) (q : Rc × HookSt)
    (V' : View Obj) : Prop :=
  p.1 = q.1 ∧ ∃ R, PtrRep p.2 q.2 R ∧ After V W leak reads R V'

section Hooks

variable {data : ModuleData} {io : HookCalls} {V : View Obj} {W T F : Blocks} {ps : PtrSt}
  {tmp : Option CString} {files : List (ℤ × FdInfo)}

theorem refines_getPathargPtr {β γ : Type} {calls : PathCalls} {addr : Long} {real : Bool}
    {errno : Option Errno} {f : Option Ptr × Option Errno → HeapM Obj β} {v : Option γ}
    {Q : β → γ → View Obj → Prop} (hfail : getPatharg io calls addr real errno = none → v = none)
    (hnull : ∀ e, getPatharg io calls addr real errno = some (none, e) →
      Refines V (f (none, e)) v Q)
    (hpath : ∀ path e b, getPatharg io calls addr real errno = some (some path, e) →
      Refines ⟨{(b, .text path)} + V.live, V.freed, V.stale⟩ (f (some b, e)) v Q) :
    Refines V (getPathargPtr io calls addr real errno >>= f) v Q := by
  rw [getPathargPtr]
  rcases hg : getPatharg io calls addr real errno with _ | ⟨_ | path, e⟩
  · rw [hfail hg]
    exact fun _ _ => .none
  · exact hnull e hg
  · simp only [bind_assoc, pure_bind]
    exact .alloc fun b => hpath path e b hg

/-- Where the same blocks are live as before. -/
theorem hookPost_same {V' : View Obj} {rc : Rc} {out : HookSt} {t : Option Ptr}
    {ptrs : List (ℤ × Ptr)} {q : Rc × HookSt} (ht : TmpRep t tmp T)
    (hf : Owned (Keyed FdRep) ptrs files F) (hlive : V'.live = T + F + W)
    (hstale : V'.stale = V.stale) (hq : q = (rc, out.withPtrs tmp files)) :
    HookPost V W 0 0 (rc, ⟨out, t, ptrs⟩) q V' := by
  rw [hq]
  exact ⟨rfl, T + F, .mk ht hf, ⟨0, by rw [hlive, zero_add], rfl⟩, [],
    by rw [hstale, List.append_nil], rfl, rfl⟩

/-- How many blocks `hook_open` leaves behind before the call: a path it does not keep, or the path
it kept before. -/
def openLeak (data : ModuleData) (io : HookCalls) (argpos : ℕ) (real : Bool) (st : HookSt) : ℕ :=
  if forWriting st.args argpos then
    match getPatharg io io.openPath (st.args.nth argpos) real st.errno with
    | some (some path, _) =>
      match getFstabRec data io.fs path with
      | some r => if r.replacementBind then (if st.mbc.tmp.isSome then 1 else 0) else 1
      | none => 1
    | _ => 0
  else 0

theorem TmpRep.card {b : Option Ptr} {s : Option CString} (h : TmpRep b s T) :
    Multiset.card T = if s.isSome then 1 else 0 := by
  cases h <;> rfl

theorem hookOpenPtr_pre {argpos : ℕ} {real : Bool} (ht : TmpRep ps.tmp tmp T)
    (hf : Owned (Keyed FdRep) ps.files files F) (hV : V.live = T + F + W) :
    Refines V (hookOpenPtr data io true argpos real ps)
      (hookOpen data io true argpos real (ps.out.withPtrs tmp files))
      (HookPost V W (openLeak data io argpos real (ps.out.withPtrs tmp files)) 0) := by
  have hargs : (ps.out.withPtrs tmp files).args = ps.out.args := rfl
  have herrno : (ps.out.withPtrs tmp files).errno = ps.out.errno := rfl
  rw [hookOpenPtr, hookOpen, if_pos rfl, if_pos rfl, openLeak, hargs, herrno]
  by_cases hro : ps.out.args.nth (argpos + 1) &&& O_ACCMODE = O_RDONLY
  · have hw : forWriting ps.out.args argpos = false := by simp [forWriting, hro]
    rw [if_pos hro, if_pos hro, hw, if_neg (by decide)]
    exact refines_pure (hookPost_same ht hf hV rfl rfl)
  · have hw : forWriting ps.out.args argpos = true := by simpa [forWriting] using hro
    rw [if_neg hro, if_neg hro, hw, if_pos rfl]
    refine refines_getPathargPtr (fun hg => by rw [hg]) (fun e hg => ?_) fun path e b hg => ?_
    · rw [hg]
      exact refines_pure (hookPost_same ht hf hV rfl rfl)
    · rw [hg]
      refine refines_loadText (s := path) (by simp) ?_
      -- the path is in a block that nothing frees
      have hleak : {(b, Obj.text path)} + V.live = T + F + ({(b, .text path)} + W) := by
        rw [hV]
        abel
      cases hr : getFstabRec data io.fs path with
      | none =>
        simp only [hr]
        exact refines_pure ⟨rfl, T + F, .mk (p := (ps.withErrno e).withErrno _) ht hf,
          ⟨_, hleak, rfl⟩, [], (List.append_nil _).symm, rfl, rfl⟩
      | some r =>
        cases hb : r.replacementBind with
        | false =>
          simp only [hr, hb, Bool.not_false, if_true, Bool.false_eq_true, if_false]
          exact refines_pure ⟨rfl, T + F, .mk (p := (ps.withErrno e).withErrno _) ht hf,
            ⟨_, hleak, rfl⟩, [], (List.append_nil _).symm, rfl, rfl⟩
        | true =>
          simp only [hr, hb, Bool.not_true, if_true, Bool.false_eq_true, if_false]
          refine refines_pure ⟨rfl, {(b, .text path)} + F, .mk .some hf, ⟨T, ?_, ht.card⟩, [],
            (List.append_nil _).symm, rfl, rfl⟩
          show {(b, Obj.text path)} + V.live = _
          rw [hV]
          abel

/-- How often the type is read when the stored path gets a descriptor. -/
def addReads (data : ModuleData) (io : HookCalls) (make : DevCalls) (st : HookSt) : ℕ :=
  match st.mbc.tmp with
  | none => 0
  | some path =>
    if 0 ≤ st.args.returnCode.toInt then
      (makeFdinfo data io.fs make st.disks path).elim 0 fun info =>
        typeReads make st.disks info.device
    else 0

theorem makeFdinfo_filename {fs : FsView} {calls : DevCalls} {disks : Disks} {path : CString}
    {info : FdInfo} (h : makeFdinfo data fs calls disks path = some info) :
    info.filename = path := by
  obtain ⟨r, dev, -, -, hname, -⟩ := makeFdinfo_spec h
  exact hname

/-- A descriptor made for the stored path takes the path over. -/
theorem makeFdinfoPtr_added {calls : DevCalls} {disks : Disks} {b : Ptr} {path : CString} {fd : ℤ}
    {out : HookSt} {ptrs : List (ℤ × Ptr)} {v : Option (Rc × HookSt)}
    (hf : Owned (Keyed FdRep) ptrs files F) (hV : V.live = {(b, .text path)} + F + W)
    (hv : v = (makeFdinfo data io.fs calls disks path).map fun info =>
      (.CONTINUE, out.withPtrs none (llAdd files fd info))) :
    Refines V
      (makeFdinfoPtr data io.fs calls disks b >>= fun fdi =>
        pure (.CONTINUE, ⟨out, none, llAdd ptrs fd fdi⟩)) v
      (HookPost V W 0 ((makeFdinfo data io.fs calls disks path).elim 0 fun info =>
        typeReads calls disks info.device)) := by
  refine (makeFdinfoPtr_refines (s := path) (by simp [hV])).seq (fun hnone => ?_) ?_
  · rw [hv, hnone, Option.map_none]
  · rintro fdi info V' hinfo ⟨R, hcells, hlive, hstale⟩
    rw [hv, hinfo, Option.map_some, Option.elim_some]
    rw [← makeFdinfo_filename hinfo] at hV
    have hadd := hf.concat (.mk (k := fd) (.mk hcells))
    refine refines_pure ⟨rfl, _, .mk .none hadd, ⟨0, ?_, rfl⟩, _, hstale, all_isProbe _,
      length_typeReads _ _ _⟩
    rw [hlive, hV]
    abel

/-- A stored path that is not needed is freed. -/
theorem dropTmp_refines {b : Ptr} {path : CString} {out : HookSt} {t : Option Ptr}
    {ptrs : List (ℤ × Ptr)} (hf : Owned (Keyed FdRep) ptrs files F)
    (hV : V.live = {(b, .text path)} + F + W) :
    Refines V (dropTmp b ⟨out, t, ptrs⟩) (some (.CONTINUE, out.withPtrs none files))
      (HookPost V W 0 0) := by
  rw [add_assoc] at hV
  refine .free hV (refines_pure ⟨rfl, 0 + F, .mk .none hf, ⟨0, ?_, rfl⟩, [],
    (List.append_nil _).symm, rfl, rfl⟩)
  show F + W = _
  abel

theorem hookOpenPtr_post {argpos : ℕ} {real : Bool} (ht : TmpRep ps.tmp tmp T)
    (hf : Owned (Keyed FdRep) ps.files files F) (hV : V.live = T + F + W) :
    Refines V (hookOpenPtr data io false argpos real ps)
      (hookOpen data io false argpos real (ps.out.withPtrs tmp files))
      (HookPost V W 0 (if ps.out.mbc.handledByOpen then
        addReads data io io.make (ps.out.withPtrs tmp files) else 0)) := by
  rw [hookOpenPtr, hookOpen, if_neg Bool.false_ne_true, if_neg Bool.false_ne_true]
  have hhandled : (ps.out.withPtrs tmp files).mbc.handledByOpen = ps.out.mbc.handledByOpen := rfl
  rw [hhandled]
  cases hh : ps.out.mbc.handledByOpen with
  | false =>
    simp only [Bool.false_eq_true, if_false]
    exact refines_pure (hookPost_same ht hf hV rfl rfl)
  | true =>
    simp only [if_true]
    obtain ⟨out, b, fs⟩ := ps
    cases ht with
    | none => exact refines_pure (hookPost_same .none hf hV rfl rfl)
    | @some b path =>
      refine refines_loadText (s := path) (by simp [hV]) ?_
      have hf' : Owned (Keyed FdRep) fs files F := hf
      by_cases hfd : 0 ≤ out.args.returnCode.toInt
      · have hreads : addReads data io io.make (out.withPtrs (some path) files) =
            (makeFdinfo data io.fs io.make out.disks path).elim 0 fun info =>
              typeReads io.make out.disks info.device := if_pos hfd
        rw [hreads]
        simp only [HookSt.withPtrs, HookSt.touch, PtrSt.touch, PtrSt.unhandled, hfd, if_true]
        refine makeFdinfoPtr_added hf' hV ?_
        cases makeFdinfo data io.fs io.make out.disks path <;> rfl
      · have hreads : addReads data io io.make (out.withPtrs (some path) files) = 0 := if_neg hfd
        rw [hreads]
        simp only [HookSt.withPtrs, HookSt.touch, PtrSt.touch, PtrSt.unhandled, hfd, if_false]
        exact dropTmp_refines hf' hV

/-! #### Redirecting a path -/

theorem copyPatharg_withPtrs (io : HookCalls) (tmp : Option CString) (files : List (ℤ × FdInfo))
    (text : CString) (out : HookSt) :
    copyPatharg io text (out.withPtrs tmp files) =
      ((copyPatharg io text out).1, (copyPatharg io text out).2.withPtrs tmp files) := by
  unfold copyPatharg
  by_cases hlen : text.length + 1 > PATH_MAX + 1
  · simp only [if_pos hlen]
  · simp only [if_neg hlen]
    cases io.mmap with
    | none => rfl
    | some addr =>
      by_cases h0 : addr = 0
      · simp only [if_pos h0]
        rfl
      · simp only [if_neg h0]
        cases io.writeMem <;> rfl

theorem replacePath_withPtrs (io : HookCalls) (tmp : Option CString) (files : List (ℤ × FdInfo))
    (text : CString) (f : Long → ScArgs → ScArgs) (out : HookSt) :
    replacePath io text f (out.withPtrs tmp files) =
      ((replacePath io text f out).1, (replacePath io text f out).2.withPtrs tmp files) := by
  rw [replacePath, replacePath, copyPatharg_withPtrs]
  obtain ⟨addr, st⟩ := copyPatharg io text out
  cases addr with
  | none => rfl
  | some addr => cases io.modifyArgs <;> rfl

theorem freeMemory_withPtrs (tmp : Option CString) (files : List (ℤ × FdInfo)) (out : HookSt) :
    freeMemory (out.withPtrs tmp files) = (freeMemory out).withPtrs tmp files := by
  have hmem : (out.withPtrs tmp files).mbc.memory = out.mbc.memory := rfl
  rw [freeMemory, freeMemory, hmem]
  cases out.mbc.memory <;> rfl

theorem PtrRep.freeMemory {st : HookSt} {R : Blocks} (h : PtrRep ps st R) :
    PtrRep { ps with out := Multiboot.freeMemory ps.out } (Multiboot.freeMemory st) R := by
  obtain @⟨tmp, files, T, F, ht, hf⟩ := h
  have hrep : PtrRep { ps with out := Multiboot.freeMemory ps.out }
      ((Multiboot.freeMemory ps.out).withPtrs tmp files) (T + F) := .mk ht hf
  rwa [← freeMemory_withPtrs] at hrep

/-- The path argument is freed whatever becomes of the call. -/
theorem redirectPrePtr_refines {argpos : ℕ} {real : Bool} (ht : TmpRep ps.tmp tmp T)
    (hf : Owned (Keyed FdRep) ps.files files F) (hV : V.live = T + F + W) :
    Refines V (redirectPrePtr data io argpos real ps)
      (redirectPre data io argpos real (ps.out.withPtrs tmp files)) (HookPost V W 0 0) := by
  rw [redirectPrePtr, redirectPre]
  have hargs : (ps.out.withPtrs tmp files).args = ps.out.args := rfl
  have herrno : (ps.out.withPtrs tmp files).errno = ps.out.errno := rfl
  rw [hargs, herrno]
  refine refines_getPathargPtr (fun hg => by rw [hg]) (fun e hg => ?_) fun path e b hg => ?_
  · rw [hg]
    exact refines_pure (hookPost_same ht hf hV rfl rfl)
  · rw [hg]
    refine refines_loadText (s := path) (by simp) ?_
    cases hr : getFstabRec data io.fs path with
    | none =>
      simp only [hr]
      refine .free rfl (refines_pure ?_)
      exact hookPost_same ht hf hV rfl rfl
    | some r =>
      simp only [hr]
      by_cases hl : (!real && isLink io.fs path) = true
      · simp only [hl, if_true]
        refine .free rfl (refines_pure ?_)
        exact hookPost_same ht hf hV rfl rfl
      · simp only [hl]
        cases hrep : (if r.replacementBind then r.stubDevice else r.replacementDevice) with
        | none => exact refines_fail
        | some text =>
          refine .free rfl (refines_pure ?_)
          exact hookPost_same ht hf hV rfl (replacePath_withPtrs io tmp files text
            _ ((ps.withErrno e).withErrno (io.fs.statErrno path e)).out)

theorem redirectFileAccessPtr_pre {call : Syscall} {argpos : ℕ} {real : Bool}
    (ht : TmpRep ps.tmp tmp T) (hf : Owned (Keyed FdRep) ps.files files F)
    (hV : V.live = T + F + W) :
    Refines V (redirectFileAccessPtr data io call true argpos real ps)
      (redirectFileAccess data io call true argpos real (ps.out.withPtrs tmp files))
      (HookPost V W (if isOpen call then
        openLeak data io argpos real (ps.out.withPtrs tmp files) else 0) 0) := by
  have hisOpen : isOpen call = true ↔ call = .open ∨ call = .openat := by simp [isOpen]
  rw [redirectFileAccessPtr, redirectFileAccess]
  by_cases hc : call = .open ∨ call = .openat
  · rw [if_pos (hisOpen.mpr hc)]
    simp only [if_pos hc]
    refine (hookOpenPtr_pre ht hf hV).seq (fun hnone => by rw [hnone]) ?_
    rintro ⟨rc, ps₁⟩ ⟨rc', st₁⟩ V₁ hval ⟨hrc, R, hrep, hafter⟩
    obtain rfl : rc = rc' := hrc
    rw [hval]
    cases rc with
    | ABORT => exact refines_pure ⟨rfl, R, hrep, hafter⟩
    | CONTINUE =>
      simp only [if_true]
      obtain @⟨tmp₁, files₁, T₁, F₁, ht₁, hf₁⟩ := hrep
      obtain ⟨⟨L, hL, hcard⟩, hstale⟩ := hafter
      rw [← hcard]
      refine (redirectPrePtr_refines ht₁ hf₁ hL).mono ?_
      rintro p q V₂ ⟨hrc₂, R₂, hrep₂, hafter₂⟩
      exact ⟨hrc₂, R₂, hrep₂, .trans hstale hafter₂⟩
  · have hno : isOpen call ≠ true := fun h => hc (hisOpen.mp h)
    rw [if_neg hno]
    simp only [if_neg hc, pure_bind, if_true]
    exact redirectPrePtr_refines ht hf hV

theorem redirectFileAccessPtr_post {call : Syscall} {argpos : ℕ} {real : Bool}
    (ht : TmpRep ps.tmp tmp T) (hf : Owned (Keyed FdRep) ps.files files F)
    (hV : V.live = T + F + W) :
    Refines V (redirectFileAccessPtr data io call false argpos real ps)
      (redirectFileAccess data io call false argpos real (ps.out.withPtrs tmp files))
      (HookPost V W 0 (if isOpen call && ps.out.mbc.handledByOpen then
        addReads data io io.make (ps.out.withPtrs tmp files) else 0)) := by
  have hisOpen : isOpen call = true ↔ call = .open ∨ call = .openat := by simp [isOpen]
  rw [redirectFileAccessPtr, redirectFileAccess]
  by_cases hc : call = .open ∨ call = .openat
  · rw [hisOpen.mpr hc, Bool.true_and]
    simp only [if_pos hc]
    refine (hookOpenPtr_post ht hf hV).seq (fun hnone => by rw [hnone]) ?_
    rintro ⟨rc, ps₁⟩ ⟨rc', st₁⟩ V₁ hval ⟨hrc, R, hrep, hafter⟩
    obtain rfl : rc = rc' := hrc
    rw [hval]
    cases rc with
    | ABORT => exact refines_pure ⟨rfl, R, hrep, hafter⟩
    | CONTINUE =>
      simp only [Bool.false_eq_true, if_false]
      exact refines_pure ⟨rfl, R, hrep.freeMemory, hafter⟩
  · have hno : isOpen call = false := Bool.eq_false_iff.mpr fun h => hc (hisOpen.mp h)
    rw [hno, Bool.false_and]
    simp only [if_neg hc, pure_bind, Bool.false_eq_true, if_false]
    exact refines_pure (hookPost_same ht hf hV rfl (by rw [freeMemory_withPtrs]))

/-! #### The other hooks -/

theorem wipePtr_refines {b : Ptr} {info : FdInfo} {R : Blocks} {β γ : Type}
    {f : PtrSt → HeapM Obj β} {v : Option γ} {Q : β → γ → View Obj → Prop} (h : FdRep b info R)
    (hV : V.live = R + W)
    (hf : Refines V (f { ps with
      out := (getFstabRec data io.fs info.filename).elim ps.out fun r =>
        ps.out.formatPath info.device (wipePath r) }) v Q) :
    Refines V (wipePtr data io b ps >>= f) v Q := by
  obtain ⟨ptrs, type, dev, hpoints⟩ := h.points
  have hp : Points V.live b info ptrs type dev := hpoints.mono (by rw [hV]; exact Multiset.le_add_right R W)
  obtain ⟨n, hn, hname⟩ := hp.filename
  obtain ⟨d, hd, hdev⟩ := hp.device
  rw [wipePtr, bind_assoc]
  refine refines_loadFdi hp.self ?_
  rw [hn, hd, bind_assoc]
  refine refines_textOf hname ?_
  rw [bind_assoc]
  refine refines_textOf hdev ?_
  rw [hp.device_eq] at hf
  cases hr : getFstabRec data io.fs info.filename with
  | none =>
    rw [hr] at hf
    exact hf
  | some r =>
    rw [hr] at hf
    exact hf

theorem FdCells.card {name fdi : Ptr} {info : FdInfo} {R : Blocks} (h : FdCells name fdi info R) :
    Multiset.card R = if info.fsPdata.isSome then 4 else 3 := by
  cases h <;> rfl

/-- The end of `hook_close`. -/
theorem closeEnd_refines {b : Ptr} {info : FdInfo} {S : Blocks} {out : HookSt} {t : Option Ptr}
    {ptrs : List (ℤ × Ptr)} (hrep : FdRep b info S) (ht : TmpRep t tmp T)
    (hf : Owned (Keyed FdRep) ptrs files F) (hV : V.live = S + (T + F + W)) :
    Refines V (freeFdinfoPtr b >>= fun _ => pure (.CONTINUE, ⟨out, t, ptrs⟩))
      (some (.CONTINUE, out.withPtrs tmp files)) (HookPost V W 1 0) := by
  refine (freeFdinfoPtr_refines hrep hV).seq (fun hnone => ?_) ?_
  · rw [hrep.freeFdinfo] at hnone
    cases hnone
  · rintro - - V₁ - ⟨hlive, hstale⟩
    refine refines_pure ⟨rfl, T + F, .mk ht hf,
      ⟨{(b, .fdInfo ⟨none, none, none, none⟩)}, ?_, rfl⟩, [], ?_, rfl, rfl⟩
    · rw [hlive]
      exact add_left_comm _ _ _
    · rw [hstale, List.append_nil]

/-- **close**: the entry's texts and its buffer are freed, the entry itself is not. -/
theorem hookClosePtr_pre (ht : TmpRep ps.tmp tmp T) (hf : Owned (Keyed FdRep) ps.files files F)
    (hV : V.live = T + F + W) :
    Refines V (hookClosePtr data io true ps) (hookClose data io true (ps.out.withPtrs tmp files))
      (HookPost V W (if (llFind files ps.out.args.a0.toInt).isSome then 1 else 0)
        ((llFind files ps.out.args.a0.toInt).elim 0 (formatReads io.close ps.out.disks))) := by
  rw [hookClosePtr, hookClose, if_pos rfl, if_pos rfl]
  rcases hf.find ps.out.args.a0.toInt with ⟨hp, hv⟩ | ⟨b, info, S, F₁, hp, hv, hrep, rfl, hdel⟩
  · simp only [hp, HookSt.withPtrs, hv]
    exact refines_pure (hookPost_same ht hf hV rfl rfl)
  · simp only [hp, HookSt.withPtrs, hv, hrep.freeFdinfo]
    have hV₁ : V.live = S + (T + F₁ + W) := by
      rw [hV]
      abel
    refine (fsWasFormatPtr_refines hrep hV₁).seq (fun hnone => by rw [hnone]) ?_
    rintro was was' V₁ hwas ⟨rfl, hlive, hstale⟩
    rw [hwas]
    have hend : ∀ out : HookSt, Refines V₁
        (freeFdinfoPtr b >>= fun _ =>
          pure (.CONTINUE, ⟨out, ps.tmp, llDel ps.files ps.out.args.a0.toInt⟩))
        (some (.CONTINUE, out.withPtrs tmp (llDel files ps.out.args.a0.toInt)))
        (HookPost V W 1 (formatReads io.close ps.out.disks info)) := by
      intro out
      refine (closeEnd_refines hrep ht hdel (hlive.trans hV₁)).mono ?_
      rintro p q V₂ ⟨hrc, R, hrep₂, hafter⟩
      refine ⟨hrc, R, hrep₂, ?_⟩
      have htrans : After V W (Multiset.card (0 : Blocks) + 1)
          (formatReads io.close ps.out.disks info + 0) R V₂ := .trans hstale (by rwa [zero_add])
      rwa [Multiset.card_zero, Nat.zero_add, Nat.add_zero] at htrans
    cases was with
    | false =>
      simp only [Bool.false_eq_true, if_false, pure_bind]
      exact hend ps.out
    | true =>
      simp only [if_true]
      refine wipePtr_refines hrep (hlive.trans hV₁) ?_
      cases hr : getFstabRec data io.fs info.filename with
      | none => exact hend ps.out
      | some r => exact hend _

/-- **dup**, before the call: the name of the entry is copied. -/
theorem hookDupPtr_pre (ht : TmpRep ps.tmp tmp T) (hf : Owned (Keyed FdRep) ps.files files F)
    (hV : V.live = T + F + W) :
    Refines V (hookDupPtr data io true ps) (hookDup data io true (ps.out.withPtrs tmp files))
      (HookPost V W (if (llFind files ps.out.args.a0.toInt).isSome && tmp.isSome then 1 else 0)
        0) := by
  rw [hookDupPtr, hookDup, if_pos rfl, if_pos rfl]
  rcases hf.find ps.out.args.a0.toInt with ⟨hp, hv⟩ | ⟨b, info, S, F₁, hp, hv, hrep, hS, -⟩
  · simp only [hp, HookSt.withPtrs, hv]
    exact refines_pure (hookPost_same ht hf hV rfl rfl)
  · simp only [hp, HookSt.withPtrs, hv, Option.isSome_some, Bool.true_and]
    obtain ⟨ptrs, type, dev, hpoints⟩ := hrep.points
    have hle : S ≤ V.live := by
      rw [hV, hS, add_comm T, add_assoc, add_assoc]
      exact Multiset.le_add_right S _
    have hpt := hpoints.mono hle
    obtain ⟨n, hn, hname⟩ := hpt.filename
    refine refines_loadFdi hpt.self ?_
    rw [hn]
    refine refines_textOf hname ?_
    refine .alloc fun b' => ?_
    refine refines_pure ⟨rfl, _, .mk (p := ⟨_, _, _⟩) .some hf, ⟨T, ?_, ht.card⟩, [],
      (List.append_nil _).symm, rfl, rfl⟩
    show {(b', Obj.text info.filename)} + V.live = _
    rw [hV]
    abel

/-- How many blocks the descriptor has that `hook_dup` only tests. -/
def testedLeak (data : ModuleData) (io : HookCalls) (st : HookSt) : ℕ :=
  match st.mbc.tmp with
  | none => 0
  | some path =>
    if 0 ≤ st.args.returnCode.toInt then
      (makeFdinfo data io.fs io.make st.disks path).elim 0 fun info =>
        if info.fsPdata.isSome then 4 else 3
    else 0

/-- **dup**, after the call: the first of two new descriptors is left behind. -/
theorem hookDupPtr_post (ht : TmpRep ps.tmp tmp T) (hf : Owned (Keyed FdRep) ps.files files F)
    (hV : V.live = T + F + W) :
    Refines V (hookDupPtr data io false ps) (hookDup data io false (ps.out.withPtrs tmp files))
      (HookPost V W (testedLeak data io (ps.out.withPtrs tmp files))
        (addReads data io io.make (ps.out.withPtrs tmp files) +
          addReads data io io.make2 (ps.out.withPtrs tmp files))) := by
  rw [hookDupPtr, hookDup, if_neg Bool.false_ne_true, if_neg Bool.false_ne_true]
  obtain ⟨out, b, ptrs⟩ := ps
  have hf' : Owned (Keyed FdRep) ptrs files F := hf
  cases ht with
  | none => exact refines_pure (hookPost_same .none hf hV rfl rfl)
  | @some b path =>
    refine refines_loadText (s := path) (by simp [hV]) ?_
    by_cases hfd : 0 ≤ out.args.returnCode.toInt
    · have hreads : ∀ make, addReads data io make (out.withPtrs (some path) files) =
          (makeFdinfo data io.fs make out.disks path).elim 0 fun info =>
            typeReads make out.disks info.device := fun _ => if_pos hfd
      have hleak : testedLeak data io (out.withPtrs (some path) files) =
          (makeFdinfo data io.fs io.make out.disks path).elim 0 fun info =>
            if info.fsPdata.isSome then 4 else 3 := if_pos hfd
      rw [hreads, hreads, hleak]
      simp only [HookSt.withPtrs, HookSt.touch, PtrSt.touch, hfd, if_true]
      refine (makeFdinfoPtr_refines (s := path) (by simp [hV])).seq (fun hnone => by rw [hnone]) ?_
      rintro fdi₁ info₁ V₁ hinfo₁ ⟨R₁, hcells₁, hlive₁, hstale₁⟩
      rw [hinfo₁, Option.elim_some, Option.elim_some, ← hcells₁.card]
      have hV₁ : V₁.live = {(b, .text path)} + F + (R₁ + W) := by
        rw [hlive₁, hV]
        abel
      refine Refines.mono (makeFdinfoPtr_added hf' hV₁ ?_) ?_
      · cases makeFdinfo data io.fs io.make2 out.disks path <;> rfl
      · rintro p q V₂ ⟨hrc, R, hrep, hafter⟩
        exact ⟨hrc, R, hrep, .trans ⟨_, hstale₁, all_isProbe _, length_typeReads _ _ _⟩ hafter⟩
    · have hreads : ∀ make, addReads data io make (out.withPtrs (some path) files) = 0 :=
        fun _ => if_neg hfd
      have hleak : testedLeak data io (out.withPtrs (some path) files) = 0 := if_neg hfd
      rw [hreads, hreads, hleak]
      simp only [HookSt.withPtrs, HookSt.touch, PtrSt.touch, hfd, if_false]
      exact dropTmp_refines hf' hV

theorem hookFcntlPtr_refines {pre : Bool} (ht : TmpRep ps.tmp tmp T)
    (hf : Owned (Keyed FdRep) ps.files files F) (hV : V.live = T + F + W) :
    Refines V (hookFcntlPtr pre ps) (hookFcntl pre (ps.out.withPtrs tmp files))
      (HookPost V W 0 0) := by
  rw [hookFcntlPtr, hookFcntl]
  cases pre with
  | false =>
    simp only [Bool.false_eq_true, if_false]
    exact refines_pure (hookPost_same ht hf hV rfl rfl)
  | true =>
    simp only [if_true]
    rcases hf.find ps.out.args.a0.toInt with ⟨hp, hv⟩ | ⟨b, info, S, F₁, hp, hv, -⟩
    · simp only [hp, HookSt.withPtrs, hv]
      exact refines_pure (hookPost_same ht hf hV rfl rfl)
    · simp only [hp, HookSt.withPtrs, hv]
      exact refines_pure (hookPost_same ht hf hV rfl rfl)

/-- **mount**: both paths are freed whatever becomes of the call. -/
theorem hookMountPtr_pre (ht : TmpRep ps.tmp tmp T) (hf : Owned (Keyed FdRep) ps.files files F)
    (hV : V.live = T + F + W) :
    Refines V (hookMountPtr data io true ps) (hookMount data io true (ps.out.withPtrs tmp files))
      (HookPost V W 0 0) := by
  have hargs : (ps.out.withPtrs tmp files).args = ps.out.args := rfl
  have herrno : (ps.out.withPtrs tmp files).errno = ps.out.errno := rfl
  rw [hookMountPtr, hookMount, if_pos rfl, if_pos rfl, hargs, herrno]
  refine refines_getPathargPtr (fun hg => by rw [hg]) (fun e hg => ?_) fun devname e b hg => ?_
  · rw [hg]
    exact refines_pure (hookPost_same ht hf hV rfl rfl)
  · rw [hg]
    refine refines_getPathargPtr (fun hg' => by simp only [hg']) (fun e' hg' => ?_)
      fun mountpoint e' b' hg' => ?_
    · simp only [hg']
      exact .free rfl (refines_pure (hookPost_same ht hf hV rfl rfl))
    · simp only [hg']
      refine refines_loadText (s := devname) (by simp) ?_
      refine refines_loadText (s := mountpoint) (by simp) ?_
      have hsource : {(b', Obj.text mountpoint)} + ({(b, .text devname)} + V.live) =
          {(b, .text devname)} + ({(b', .text mountpoint)} + V.live) := add_left_comm _ _ _
      -- both blocks are freed once the call has been rewritten or let through
      have hlast : ∀ (rc : Rc) (out : HookSt) (q : Rc × HookSt), q = (rc, out.withPtrs tmp files) →
          Refines ⟨{(b', .text mountpoint)} + ({(b, .text devname)} + V.live), V.freed, V.stale⟩
            (free b >>= fun _ => free b' >>= fun _ => pure (rc, (⟨out, ps.tmp, ps.files⟩ : PtrSt)))
            (some q) (HookPost V W 0 0) := fun rc out q hq =>
        .free hsource (.free rfl (refines_pure (hookPost_same ht hf hV rfl hq)))
      have hrest : ∀ (r : FstabRec) (out : HookSt), Refines
          ⟨{(b', .text mountpoint)} + ({(b, .text devname)} + V.live), V.freed, V.stale⟩
          (match r.replacementDevice with
            | none => fail
            | some replacement =>
              free b >>= fun _ => free b' >>= fun _ =>
                pure ((replacePath io replacement (mountArgs r.replacementBind) out).1,
                  (⟨(replacePath io replacement (mountArgs r.replacementBind) out).2, ps.tmp,
                    ps.files⟩ : PtrSt)))
          (match r.replacementDevice with
            | none => none
            | some replacement =>
              some (replacePath io replacement (mountArgs r.replacementBind)
                (out.withPtrs tmp files)))
          (HookPost V W 0 0) := by
        intro r out
        cases hrep : r.replacementDevice with
        | none => exact refines_fail
        | some text => exact hlast _ _ _ (replacePath_withPtrs io tmp files text _ out)
      cases hasec : mountpoint == ASEC with
      | true =>
        simp only [if_true]
        exact hrest (asecRec data) (ps.withErrno e').out
      | false =>
        simp only [Bool.false_eq_true, if_false]
        cases hr : getFstabRec data io.fs devname with
        | none => exact hlast .CONTINUE ((ps.withErrno e').withErrno _).out _ rfl
        | some r => exact hrest r ((ps.withErrno e').withErrno _).out

end Hooks

/-! ### All hooks -/

/-- How many blocks a hook leaves behind. -/
def hookLeak (data : ModuleData) (io : HookCalls) (call : Syscall) (pre : Bool) (st : HookSt) : ℕ :=
  match hookOf call, pre with
  | some .fileaccess, true =>
    match infoOf call with
    | none => 0
    | some row =>
      if isOpen call then openLeak data io row.argnum (resolveOf row call st.args) st else 0
  | some .close, true => if (llFind st.mbc.files st.args.a0.toInt).isSome then 1 else 0
  | some .dup, true =>
    if (llFind st.mbc.files st.args.a0.toInt).isSome && st.mbc.tmp.isSome then 1 else 0
  | some .dup, false => testedLeak data io st
  | _, _ => 0

/-- How often a hook reads a type that has been freed. -/
def hookReads (data : ModuleData) (io : HookCalls) (call : Syscall) (pre : Bool) (st : HookSt) : ℕ :=
  match hookOf call, pre with
  | some .fileaccess, false =>
    if isOpen call && st.mbc.handledByOpen then addReads data io io.make st else 0
  | some .close, true =>
    (llFind st.mbc.files st.args.a0.toInt).elim 0 (formatReads io.close st.disks)
  | some .dup, false => addReads data io io.make st + addReads data io io.make2 st
  | _, _ => 0

/-- **Every hook**: on the heap it does what it does on the values, and keeps the account. -/
theorem runHookPtr_refines {data : ModuleData} {io : HookCalls} {call : Syscall} {pre : Bool}
    {V : View Obj} {W R : Blocks} {ps : PtrSt} {st : HookSt} (h : PtrRep ps st R)
    (hV : V.live = R + W) : Refines V (runHookPtr data io call pre ps)
      (runHook data io call pre st)
      (HookPost V W (hookLeak data io call pre st) (hookReads data io call pre st)) := by
  obtain ⟨ht, hf⟩ := h
  cases hh : hookOf call with
  | none =>
    simp only [runHookPtr, runHook, hookLeak, hookReads, hh]
    exact refines_pure (hookPost_same ht hf hV rfl rfl)
  | some hook =>
    cases hook with
    | fileaccess =>
      obtain ⟨row, hrow⟩ := Option.isSome_iff_exists.mp ((infoOf_isSome_iff call).mpr hh)
      cases pre with
      | true =>
        simp only [runHookPtr, runHook, hookLeak, hookReads, hh, hookFileaccessPtr, hookFileaccess, hrow]
        exact redirectFileAccessPtr_pre ht hf hV
      | false =>
        simp only [runHookPtr, runHook, hookLeak, hookReads, hh, hookFileaccessPtr, hookFileaccess, hrow]
        exact redirectFileAccessPtr_post ht hf hV
    | close =>
      cases pre with
      | true =>
        simp only [runHookPtr, runHook, hookLeak, hookReads, hh]
        exact hookClosePtr_pre ht hf hV
      | false =>
        simp only [runHookPtr, runHook, hookLeak, hookReads, hh]
        exact refines_pure (hookPost_same ht hf hV rfl rfl)
    | dup =>
      cases pre with
      | true =>
        simp only [runHookPtr, runHook, hookLeak, hookReads, hh]
        exact hookDupPtr_pre ht hf hV
      | false =>
        simp only [runHookPtr, runHook, hookLeak, hookReads, hh]
        exact hookDupPtr_post ht hf hV
    | fcntl =>
      simp only [runHookPtr, runHook, hookLeak, hookReads, hh]
      exact hookFcntlPtr_refines ht hf hV
    | mount =>
      simp only [runHookPtr, runHook, hookLeak, hookReads, hh]
      cases pre with
      | true => exact hookMountPtr_pre ht hf hV
      | false =>
        exact refines_pure (hookPost_same ht hf hV rfl (by rw [freeMemory_withPtrs]))

end Multiboot
