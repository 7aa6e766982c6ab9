import FpgaCard.Proofs.Usable

/-!
# Arithmetic of machine words

A machine computes addresses and counts with words of 64 bits. Its operations are given here with a result
only where they neither wrap nor divide by zero nor shift all bits out. Main statement: with them the limit
of a transfer is always found, whatever buffer and settings an engine is made for.
-/

namespace FpgaCard

namespace Word

/-! ## Operations -/

def ofNat? (n : Nat) : Option UInt64 := if n < 2 ^ 64 then some (.ofNat n) else none

def add? (a b : UInt64) : Option UInt64 := ofNat? (a.toNat + b.toNat)

def sub? (a b : UInt64) : Option UInt64 := if b ≤ a then some (a - b) else none

def mod? (a b : UInt64) : Option UInt64 := if b = 0 then none else some (a % b)

def shiftLeft? (a count : UInt64) : Option UInt64 := if count < 64 then some (a <<< count) else none

def shiftRight? (a count : UInt64) : Option UInt64 := if count < 64 then some (a >>> count) else none

variable {a b : UInt64}

theorem ofNat?_eq {n : Nat} (h : n < 2 ^ 64) : ∃ w, ofNat? n = some w ∧ w.toNat = n :=
  ⟨.ofNat n, if_pos h, UInt64.toNat_ofNat_of_lt' h⟩

theorem add?_eq (h : a.toNat + b.toNat < 2 ^ 64) :
    ∃ sum, add? a b = some sum ∧ sum.toNat = a.toNat + b.toNat := ofNat?_eq h

theorem add?_none (h : 2 ^ 64 ≤ a.toNat + b.toNat) : add? a b = none := if_neg (Nat.not_lt.2 h)

theorem sub?_eq (h : b.toNat ≤ a.toNat) :
    ∃ rest, sub? a b = some rest ∧ rest.toNat = a.toNat - b.toNat := by
  have hle : b ≤ a := UInt64.le_iff_toNat_le.2 h
  exact ⟨a - b, if_pos hle, UInt64.toNat_sub_of_le _ _ hle⟩

theorem mod?_eq (h : b.toNat ≠ 0) : ∃ rest, mod? a b = some rest ∧ rest.toNat = a.toNat % b.toNat := by
  have hsome : b ≠ 0 := fun hzero => h (by rw [hzero]; rfl)
  exact ⟨a % b, if_neg hsome, UInt64.toNat_mod a b⟩

theorem shiftLeft?_one (count : UInt64) (h : count.toNat < 64) :
    ∃ power, shiftLeft? 1 count = some power ∧ power.toNat = 2 ^ count.toNat := by
  refine ⟨1 <<< count, if_pos (UInt64.lt_iff_toNat_lt.2 h), ?_⟩
  have hpower : 2 ^ count.toNat < 2 ^ 64 := Nat.pow_lt_pow_right (by decide) h
  rw [UInt64.toNat_shiftLeft, Nat.mod_eq_of_lt h]
  change 1 <<< count.toNat % 2 ^ 64 = 2 ^ count.toNat
  rw [Nat.one_shiftLeft, Nat.mod_eq_of_lt hpower]

theorem shiftLeft?_none (count : UInt64) (h : 64 ≤ count.toNat) : shiftLeft? a count = none :=
  if_neg fun hless => Nat.not_lt.2 h (UInt64.lt_iff_toNat_lt.1 hless)

theorem shiftRight?_max (count : UInt64) (h : count.toNat < 64) :
    ∃ greatest, shiftRight? (.ofNat (2 ^ 64 - 1)) count = some greatest ∧
      greatest.toNat = 2 ^ (64 - count.toNat) - 1 := by
  refine ⟨_, if_pos (UInt64.lt_iff_toNat_lt.2 h), ?_⟩
  have hsplit : 2 ^ 64 = 2 ^ count.toNat * 2 ^ (64 - count.toNat) := by
    rw [← Nat.pow_add]
    congr 1
    omega
  have hdiv := Nat.mul_sub_div 0 (2 ^ count.toNat) (2 ^ (64 - count.toNat)) (by rw [← hsplit]; decide)
  rw [← hsplit, Nat.zero_div, Nat.zero_add] at hdiv
  rw [UInt64.toNat_shiftRight, Nat.mod_eq_of_lt h, Nat.shiftRight_eq_div_pow]
  exact hdiv

/-! ## Masks -/

variable {mask : UInt64} {k : Nat}

theorem toNat_and_mask (h : mask.toNat = 2 ^ k - 1) (a : UInt64) : (a &&& mask).toNat = a.toNat % 2 ^ k := by
  rw [UInt64.toNat_and, h, Nat.and_two_pow_sub_one_eq_mod]

theorem toNat_and_not_mask (h : mask.toNat = 2 ^ k - 1) (a : UInt64) :
    (a &&& ~~~mask).toNat = a.toNat - a.toNat % 2 ^ k := by
  have hmask : mask.toNat < 2 ^ 64 := mask.toNat_lt
  have hlow (i : Nat) : mask.toNat.testBit i = decide (i < k) := by rw [h, Nat.testBit_two_pow_sub_one]
  have hmultiple : a.toNat - a.toNat % 2 ^ k = 2 ^ k * (a.toNat / 2 ^ k) := by
    have hdivision := Nat.mod_add_div a.toNat (2 ^ k)
    omega
  rw [hmultiple, UInt64.toNat_and, UInt64.toNat_not]
  apply Nat.eq_of_testBit_eq
  intro i
  change (a.toNat &&& (2 ^ 64 - 1 - mask.toNat)).testBit i = _
  rw [Nat.testBit_and, Nat.sub_sub, Nat.add_comm 1, Nat.testBit_two_pow_sub_succ hmask, hlow,
    Nat.testBit_two_pow_mul, Nat.testBit_div_two_pow]
  rcases Nat.lt_or_ge i k with hbelow | habove
  · simp [hbelow]
  · rcases Nat.lt_or_ge i 64 with hinside | houtside
    · simp [habove, hinside]
    · have hclear : a.toNat.testBit i = false :=
        Nat.testBit_lt_two_pow (Nat.lt_of_lt_of_le a.toNat_lt (Nat.pow_le_pow_right (by decide) houtside))
      simp [habove, hclear]

theorem toNat_min (a b : UInt64) : (min a b).toNat = min a.toNat b.toNat := by
  change (if a ≤ b then a else b).toNat = _
  rw [Nat.min_def]
  simp only [UInt64.le_iff_toNat_le]
  split <;> rfl

theorem eq_zero_iff (a : UInt64) : a = 0 ↔ a.toNat = 0 := UInt64.toNat_inj.symm

end Word

/-! ## The limit of a transfer -/

namespace Engine

/-- The limit of a transfer for an alignment, computed on words: none within if the buffer is not aligned or
nothing would be left. -/
def alignedLimit? (address size alignment : UInt64) : Option (Option UInt64) := do
  let beyond ← Word.mod? address alignment
  let lowMask ← Word.sub? alignment 1
  let limit := min (.ofNat Register.countMax &&& ~~~lowMask) size
  return if beyond ≠ 0 ∨ limit = 0 then none else some limit

/-- The limit of a transfer, computed on words: none within if the buffer or the settings are refused. -/
def limit? (address size : UInt64) (settings : DmaSettings) : Option (Option UInt64) := do
  if isPowerOfTwo size.toNat = false ∨ settings.mask = 0 ∨ 64 < settings.mask then return none
  else
    let width ← Word.sub? 64 settings.mask.toUInt64
    let greatest ← Word.shiftRight? (.ofNat (2 ^ 64 - 1)) width
    let rest ← Word.sub? size 1
    if ((Word.add? address rest).filter (· ≤ greatest)).isNone then return none
    else
      match Word.shiftLeft? 1 settings.shift.toUInt64 with
      | none => return none
      | some alignment => alignedLimit? address size alignment

variable {address size : UInt64} {settings : DmaSettings}

theorem alignedLimit?_eq {alignment : UInt64} {k : Nat} (h : alignment.toNat = 2 ^ k) :
    alignedLimit? address size alignment =
      some (if address.toNat % alignment.toNat ≠ 0 ∨ transferLimit alignment.toNat size.toNat = 0 then none
        else some (.ofNat (transferLimit alignment.toNat size.toNat))) := by
  have hpos : 0 < alignment.toNat := h ▸ Nat.two_pow_pos k
  obtain ⟨beyond, hbeyond, hrest⟩ := Word.mod?_eq (a := address) (Nat.ne_of_gt hpos)
  obtain ⟨lowMask, hlowMask, hmask⟩ := Word.sub?_eq (a := alignment) (b := 1) hpos
  have hlimit : (min (.ofNat Register.countMax &&& ~~~lowMask) size).toNat =
      transferLimit alignment.toNat size.toNat := by
    rw [Word.toNat_min, Word.toNat_and_not_mask (hmask.trans (by rw [h]; rfl)), ← h]
    rfl
  have hword : UInt64.ofNat (transferLimit alignment.toNat size.toNat) =
      min (.ofNat Register.countMax &&& ~~~lowMask) size := by
    rw [← hlimit, UInt64.ofNat_toNat]
  unfold alignedLimit?
  simp only [hbeyond, hlowMask, Option.bind_eq_bind, Option.bind_some, ne_eq, Word.eq_zero_iff, hrest, hlimit,
    hword]
  rfl

theorem reach?_isNone_iff {greatest rest : UInt64} {bits : Nat} (hsize : 0 < size.toNat)
    (hrest : rest.toNat = size.toNat - 1) (hbits : bits ≤ 64) (hgreatest : greatest.toNat = 2 ^ bits - 1) :
    ((Word.add? address rest).filter (· ≤ greatest)).isNone = true ↔
      2 ^ bits < address.toNat + size.toNat := by
  have hpower : 2 ^ bits ≤ 2 ^ 64 := Nat.pow_le_pow_right (by decide) hbits
  have hpos : 0 < 2 ^ bits := Nat.two_pow_pos bits
  rcases Nat.lt_or_ge (address.toNat + rest.toNat) (2 ^ 64) with hless | hmore
  · obtain ⟨last, hlast, hvalue⟩ := Word.add?_eq hless
    rw [hlast, Option.isNone_iff_eq_none, Option.filter_eq_none_iff]
    simp only [Option.some.injEq, forall_eq', decide_eq_true_iff, UInt64.le_iff_toNat_le]
    omega
  · rw [Word.add?_none hmore]
    simp only [Option.filter_none, Option.isNone_none, true_iff]
    omega

theorem greatest?_eq {bits : UInt8} (h : ¬ (bits = 0 ∨ 64 < bits)) :
    ∃ width greatest, Word.sub? 64 bits.toUInt64 = some width ∧
      Word.shiftRight? (.ofNat (2 ^ 64 - 1)) width = some greatest ∧ greatest.toNat = 2 ^ bits.toNat - 1 := by
  rw [not_or, UInt8.lt_iff_toNat_lt, ← UInt8.toNat_inj] at h
  have hsome : bits.toNat ≠ 0 := h.1
  have hmost : bits.toNat ≤ 64 := Nat.le_of_not_lt h.2
  obtain ⟨width, hwidth, hrest⟩ := Word.sub?_eq (a := 64) (b := bits.toUInt64) hmost
  have hvalue : width.toNat = 64 - bits.toNat := hrest
  obtain ⟨greatest, hgreatest, hpower⟩ := Word.shiftRight?_max width (by omega)
  refine ⟨width, greatest, hwidth, hgreatest, ?_⟩
  rw [hpower, hvalue, Nat.sub_sub_self hmost]

theorem limit?_eq (address size : UInt64) (settings : DmaSettings) (timeout : Nat) :
    limit? address size settings =
      some ((configure address size.toNat settings timeout).toOption.map fun e => .ofNat e.maxTransfer) := by
  unfold limit? configure
  by_cases hsize : isPowerOfTwo size.toNat = true
  swap
  · simp [hsize, Except.toOption]
  by_cases hmask : settings.mask = 0 ∨ 64 < settings.mask
  · simp [hsize, hmask, Except.toOption]
  have hpos : 0 < size.toNat := by
    obtain ⟨k, hk⟩ := exists_of_isPowerOfTwo hsize
    rw [hk]
    exact Nat.two_pow_pos k
  obtain ⟨width, greatest, hwidth, hgreatest, hpower⟩ := greatest?_eq hmask
  obtain ⟨rest, hrest, hvalue⟩ := Word.sub?_eq (a := size) (b := 1) hpos
  have hmost : settings.mask.toNat ≤ 64 := by
    rw [not_or, UInt8.lt_iff_toNat_lt] at hmask
    exact Nat.le_of_not_lt hmask.2
  simp only [hsize, hmask, hwidth, hgreatest, hrest, Option.bind_eq_bind, Option.bind_some,
    reach?_isNone_iff hpos hvalue hmost hpower, Nat.one_shiftLeft]
  by_cases hreach : 2 ^ settings.mask.toNat < address.toNat + size.toNat
  · simp [hreach, Except.toOption]
  by_cases hshift : 64 ≤ settings.shift
  · have hnone := Word.shiftLeft?_none (a := 1) settings.shift.toUInt64
      (UInt8.le_iff_toNat_le.1 hshift)
    simp [hreach, hshift, hnone, Except.toOption]
  have hless : settings.shift.toNat < 64 := Nat.lt_of_not_le fun hle => hshift (UInt8.le_iff_toNat_le.2 hle)
  obtain ⟨alignment, halignment, hunit⟩ := Word.shiftLeft?_one settings.shift.toUInt64 hless
  have hsame : alignment.toNat = settings.alignment := hunit.trans (alignment_eq settings).symm
  simp only [hreach, hshift, halignment, alignedLimit?_eq hunit, hsame]
  by_cases haligned : address.toNat % settings.alignment = 0
  · by_cases hlimit : transferLimit settings.alignment size.toNat = 0
    · simp [haligned, hlimit, Except.toOption]
    · simp [haligned, hlimit, Except.toOption]
  · simp [haligned, Except.toOption]

end Engine

end FpgaCard
