import Multiboot.Prepared
import Mathlib.Data.List.Infix

/-!
# Reading back what was printed

`sscanf` with `%u` takes back a number that `%u` has printed, so the names of partitions are read
with their numbers (`scanMmc_show`) and looked up by them (`getBlockinfoForPath_blkName`).
-/

namespace Multiboot

/-! ### Digits -/

theorem isdigit_of_mem_showU {n : ℕ} {c : Char} (h : c ∈ showU n) : isdigit c = true := by
  have hdigit : c.isDigit = true :=
    Nat.isDigit_of_mem_toDigits (b := 10) (n := n) (by omega) (by omega) h
  obtain ⟨hlow, hhigh⟩ := Bool.and_eq_true_iff.mp hdigit
  have h48 : 48 ≤ c.toNat := by simpa [UInt32.le_iff_toNat_le] using hlow
  have h57 : c.toNat ≤ 57 := by simpa [UInt32.le_iff_toNat_le] using hhigh
  simp [isdigit, h48, h57]

theorem isspace_of_isdigit {c : Char} (h : isdigit c = true) : isspace c = false := by
  simp only [isdigit, Bool.and_eq_true, decide_eq_true_eq] at h
  have hne : c ≠ ' ' := by
    rintro rfl
    exact absurd h.1 (by decide)
  have hcode : ¬ c.toNat ≤ 13 := by omega
  simp [isspace, hne, hcode]

theorem decimal_showU (n : ℕ) : decimal (showU n) = n := by
  have hread : Nat.ofDigitChars 10 (showU n) 0 = n := Nat.ofDigitChars_ten_toDigits
  rw [Nat.ofDigitChars_eq_foldl] at hread
  exact hread

theorem showU_ne_nil (n : ℕ) : showU n ≠ [] := Nat.toDigits_ne_nil

/-- The text does not go on with a digit. -/
def EndsNumber (rest : CString) : Prop := ∀ c, rest.head? = some c → isdigit c = false

theorem endsNumber_nil : EndsNumber [] := fun c h => by cases h

theorem endsNumber_cons {c : Char} {rest : CString} (h : isdigit c = false) :
    EndsNumber (c :: rest) := by
  intro c' hc
  obtain rfl := Option.some.inj hc
  exact h

theorem takeWhile_showU {n : ℕ} {rest : CString} (h : EndsNumber rest) :
    (showU n ++ rest).takeWhile isdigit = showU n := by
  rw [List.takeWhile_append_of_pos fun c hc => isdigit_of_mem_showU hc]
  cases rest with
  | nil => simp
  | cons c rest => simp [h c rfl]

theorem dropWhile_showU {n : ℕ} {rest : CString} (h : EndsNumber rest) :
    (showU n ++ rest).dropWhile isdigit = rest := by
  rw [List.dropWhile_append_of_pos fun c hc => isdigit_of_mem_showU hc]
  cases rest with
  | nil => rfl
  | cons c rest => simp [h c rfl]

/-! ### `sscanf` -/

theorem scanLit_append (lit rest : CString) : scanLit lit (lit ++ rest) = some rest := by
  rw [scanLit, if_pos (List.isPrefixOf_iff_prefix.mpr (List.prefix_append _ _)), List.drop_left]

/-- What `%u` stores for a numeral: one that does not fit gives `ULONG_MAX`. -/
def clampU (n : ℕ) : ℕ := min n (2 ^ 32 - 1)

theorem clampU_of_lt {n : ℕ} (hn : n < 2 ^ 32) : clampU n = n := by
  rw [clampU]
  omega

theorem eq_of_clampU_lt {n m : ℕ} (h : clampU n = m) (hm : m < 2 ^ 31) : n = m := by
  rw [clampU] at h
  omega

/-- `%u` takes back what `%u` has printed, as far as it fits. -/
theorem scanU_showU (n : ℕ) {rest : CString} (h : EndsNumber rest) :
    scanU (showU n ++ rest) = some (clampU n, rest) := by
  obtain ⟨d, ds, hd⟩ := List.exists_cons_of_ne_nil (showU_ne_nil n)
  have hdigit : isdigit d = true := isdigit_of_mem_showU (n := n) (by rw [hd]; exact List.mem_cons_self)
  have hskip : (showU n ++ rest).dropWhile isspace = showU n ++ rest := by
    rw [hd, List.cons_append, List.dropWhile_cons_of_neg]
    rw [isspace_of_isdigit hdigit]
    decide
  have hsign : ∀ c, isdigit c = false → ((showU n ++ rest).head? == some c) = false := by
    intro c hc
    rw [hd]
    simp only [List.cons_append, List.head?_cons, beq_eq_false_iff_ne, ne_eq, Option.some.injEq]
    rintro rfl
    rw [hc] at hdigit
    cases hdigit
  have hclamp : (if 2 ^ 32 ≤ n then 2 ^ 32 - 1 else n) = clampU n := by
    rw [clampU]
    split_ifs <;> omega
  simp only [scanU, hskip, hsign '-' (by decide), hsign '+' (by decide), Bool.or_self,
    Bool.false_eq_true, if_false, takeWhile_showU h, dropWhile_showU h, decimal_showU,
    if_neg (showU_ne_nil n), hclamp]

/-- A minus sign makes the number wrap around. -/
theorem scanU_minus {n : ℕ} (hn : n < 2 ^ 32) {rest : CString} (h : EndsNumber rest) :
    scanU ('-' :: (showU n ++ rest)) = some ((2 ^ 32 - n) % 2 ^ 32, rest) := by
  have hskip : ('-' :: (showU n ++ rest)).dropWhile isspace = '-' :: (showU n ++ rest) :=
    List.dropWhile_cons_of_neg (by decide)
  simp only [scanU, hskip, List.head?_cons, beq_self_eq_true, Bool.true_or, if_true, List.tail_cons,
    takeWhile_showU h, dropWhile_showU h, decimal_showU, if_neg (showU_ne_nil n),
    if_neg (Nat.not_le.mpr hn)]

/-- `%u` takes back an `unsigned` that `%d` has printed. -/
theorem scanU_showD (n : ℕ) {rest : CString} (h : EndsNumber rest) :
    scanU (showD (BitVec.ofNat 32 n).toInt ++ rest) = some (n % 2 ^ 32, rest) := by
  have hlt : n % 2 ^ 32 < 2 ^ 32 := Nat.mod_lt _ (by decide)
  rw [BitVec.toInt_eq_toNat_cond, BitVec.toNat_ofNat]
  generalize n % 2 ^ 32 = m at hlt
  split_ifs with hsign
  · have hscan := scanU_showU m h
    rwa [clampU_of_lt hlt] at hscan
  · obtain ⟨k, hk⟩ : ∃ k, m + (k + 1) = 2 ^ 32 := ⟨2 ^ 32 - m - 1, by omega⟩
    have hneg : (m : ℤ) - ((2 ^ 32 : ℕ) : ℤ) = Int.negSucc k := by
      rw [Int.negSucc_eq]
      omega
    have hwrap : (2 ^ 32 - (k + 1)) % 2 ^ 32 = m := by omega
    rw [hneg]
    show scanU ('-' :: (showU (k + 1) ++ rest)) = some (m, rest)
    rw [scanU_minus (by omega) h, hwrap]

/-- The name of a partition after a prefix, as `"%up%u"` prints it. -/
def mmcName (lit : CString) (x y : ℕ) : CString := lit ++ showU x ++ ['p'] ++ showU y

theorem scanMmc_show (lit : CString) (x y : ℕ) :
    scanMmc lit (mmcName lit x y) = some (clampU x, clampU y) := by
  have hp : EndsNumber (['p'] ++ showU y) := endsNumber_cons (by decide)
  have hlast : scanU (showU y) = some (clampU y, []) := by
    have hscan := scanU_showU y endsNumber_nil
    rwa [List.append_nil] at hscan
  rw [mmcName, List.append_assoc, List.append_assoc, scanMmc, scanLit_append]
  simp only [Option.bind_eq_bind, Option.bind_some, scanU_showU x hp, scanLit_append, hlast]

theorem MmcParam.blkDevice_def (p : MmcParam) : p.blkDevice =
    "/dev/block/mmcblk".toList ++ (showD (BitVec.ofNat 32 p.device).toInt ++
      (['p'] ++ showD (BitVec.ofNat 32 p.part).toInt)) := by
  show "/dev/block/mmcblk".toList ++ showD (BitVec.ofNat 32 p.device).toInt ++ ['p'] ++
    showD (BitVec.ofNat 32 p.part).toInt = _
  rw [List.append_assoc, List.append_assoc]

theorem endsNumber_showD (x : ℤ) : EndsNumber (['p'] ++ showD x) := endsNumber_cons (by decide)

/-- A parameter of the command line is scanned back from the name of its device. -/
theorem scanMmc_blkDevice (p : MmcParam) : scanMmc "/dev/block/mmcblk".toList p.blkDevice =
    some (p.device % 2 ^ 32, p.part % 2 ^ 32) := by
  have hlast : scanU (showD (BitVec.ofNat 32 p.part).toInt) = some (p.part % 2 ^ 32, []) := by
    have hscan := scanU_showD p.part endsNumber_nil
    rwa [List.append_nil] at hscan
  rw [MmcParam.blkDevice_def, scanMmc, scanLit_append]
  simp only [Option.bind_eq_bind, Option.bind_some, scanU_showD p.device (endsNumber_showD _),
    scanLit_append, hlast]

/-! ### Lookups by number -/

theorem mem_of_strstr {s pat : CString} (h : strstr s pat = true) {c : Char} (hc : c ∈ pat) :
    c ∈ s := by
  obtain ⟨t, ht, hpre⟩ := List.any_eq_true.mp h
  have hsuffix : t <:+ s := (List.mem_tails _ _).mp ht
  exact hsuffix.subset ((List.isPrefixOf_iff_prefix.mp hpre).subset hc)

/-- `"/dev/block/mmcblk%up%u"`. -/
def blkName (x y : ℕ) : CString := mmcName "/dev/block/mmcblk".toList x y

theorem not_byName_blkName (x y : ℕ) : strstr (blkName x y) "by-name".toList = false := by
  by_contra h
  have hminus : '-' ∈ blkName x y := mem_of_strstr (by simpa using h) (by decide)
  simp only [blkName, mmcName, List.mem_append] at hminus
  rcases hminus with ((h | h) | h) | h
  · exact absurd h (by decide)
  · exact absurd (isdigit_of_mem_showU h) (by decide)
  · exact absurd h (by decide)
  · exact absurd (isdigit_of_mem_showU h) (by decide)

theorem not_byName_blkDevice (p : MmcParam) : strstr p.blkDevice "by-name".toList = false := by
  have hshow : ∀ x, 'y' ∉ showD x := by
    intro x h
    cases x with
    | ofNat n => exact absurd (isdigit_of_mem_showU (n := n) h) (by decide)
    | negSucc n =>
      rcases List.mem_cons.mp h with h | h
      · exact absurd h (by decide)
      · exact absurd (isdigit_of_mem_showU h) (by decide)
  by_contra h
  have hy : 'y' ∈ p.blkDevice := mem_of_strstr (by simpa using h) (by decide)
  simp only [MmcParam.blkDevice_def, List.mem_append] at hy
  rcases hy with h | h | h | h
  · exact absurd h (by decide)
  · exact hshow _ h
  · exact absurd h (by decide)
  · exact hshow _ h

theorem getBlockinfoForPath_blkDevice (junk : Junk) (info : List SysBlockUevent) (p : MmcParam) :
    getBlockinfoForPath junk info p.blkDevice =
      findUevent none (p.device % 2 ^ 32, p.part % 2 ^ 32) info := by
  rw [getBlockinfoForPath, if_neg (by rw [not_byName_blkDevice]; decide), scanMmc_blkDevice]

theorem getBlockinfoForPath_blkName (junk : Junk) (info : List SysBlockUevent) (x y : ℕ) :
    getBlockinfoForPath junk info (blkName x y) = findUevent none (clampU x, clampU y) info := by
  rw [getBlockinfoForPath, if_neg (by rw [not_byName_blkName]; decide)]
  rw [show scanMmc "/dev/block/mmcblk".toList (blkName x y) = some (clampU x, clampU y) from
    scanMmc_show _ x y]

end Multiboot
