import FpgaCard.Checksum
import FpgaCard.LittleEndian
import Mathlib

/-!
# The ones' complement sum

A checksum as a number: the sum of the words of a span, brought down modulo 2^16 - 1. A sum that is not
zero is never brought down to zero. Main statement: up to the length whose words 32 bits can sum, nothing
is lost on the way to a checksum, and a span of whole words followed by its own checksum has checksum zero.
-/

namespace FpgaCard.Checksum

/-! ## Sums of words -/

theorem wordSum_append {xs : List UInt8} (ys : List UInt8) (h : xs.length % 2 = 0) :
    wordSum (xs ++ ys) = wordSum xs + wordSum ys := by
  fun_induction wordSum xs with
  | case1 => simp
  | case2 last => simp at h
  | case3 low high rest ih =>
    simp only [List.length_cons] at h
    rw [List.cons_append, List.cons_append, wordSum, ih (by omega)]
    omega

theorem wordSum_le (bytes : List UInt8) : wordSum bytes ≤ 65535 * ((bytes.length + 1) / 2) := by
  fun_induction wordSum bytes with
  | case1 => simp
  | case2 last =>
    have := last.toNat_lt
    simp only [List.length_singleton]
    omega
  | case3 low high rest ih =>
    have := low.toNat_lt
    have := high.toNat_lt
    simp only [List.length_cons]
    omega

theorem wordSum_encode (n : Nat) (h : n < 65536) : wordSum (LittleEndian.encode 2 n) = n := by
  simp only [LittleEndian.encode, wordSum, UInt8.toNat_ofNat']
  omega

/-- What a byte counts for: it stands in the high half of its word at odd places and at the end. -/
def weight (length i : Nat) : Nat := if i % 2 = 1 ∨ i + 1 = length then 256 else 1

theorem wordSum_set {bytes : List UInt8} {i : Nat} (v : UInt8) (h : i < bytes.length) :
    wordSum (bytes.set i v) + weight bytes.length i * (bytes[i]).toNat =
      wordSum bytes + weight bytes.length i * v.toNat := by
  fun_induction wordSum bytes generalizing i with
  | case1 => simp at h
  | case2 last =>
    obtain rfl : i = 0 := by simpa using h
    have hweight : weight [last].length 0 = 256 := rfl
    rw [hweight]
    simp only [List.set_cons_zero, List.getElem_cons_zero, wordSum]
    omega
  | case3 low high rest ih =>
    match i with
    | 0 =>
      have hweight : weight (low :: high :: rest).length 0 = 1 := if_neg (by simp)
      rw [hweight]
      simp only [List.set_cons_zero, List.getElem_cons_zero, wordSum]
      omega
    | 1 =>
      have hweight : weight (low :: high :: rest).length 1 = 256 := if_pos (.inl rfl)
      rw [hweight]
      simp only [List.set_cons_succ, List.set_cons_zero, List.getElem_cons_succ, List.getElem_cons_zero,
        wordSum]
      omega
    | i + 2 =>
      have hrest : i < rest.length := by simpa using h
      have hweight : weight (low :: high :: rest).length (i + 2) = weight rest.length i := by
        simp only [weight, List.length_cons]
        congr 1
        simp only [eq_iff_iff]
        omega
      have hsum := ih hrest
      rw [hweight]
      simp only [List.set_cons_succ, List.getElem_cons_succ, wordSum]
      omega

theorem toNat_high (b : UInt8) : (b.toUInt32 <<< 8).toNat = b.toNat * 256 := by
  have hb := b.toNat_lt
  simp only [UInt32.toNat_shiftLeft, UInt8.toNat_toUInt32, UInt32.reduceToNat, Nat.shiftLeft_eq,
    Nat.reduceMod, Nat.reducePow]
  omega

theorem toNat_word (low high : UInt8) :
    (low.toUInt32 ||| high.toUInt32 <<< 8).toNat = low.toNat + high.toNat * 256 := by
  have hlow : low.toNat < 2 ^ 8 := low.toNat_lt
  rw [UInt32.toNat_or, toNat_high, UInt8.toNat_toUInt32, Nat.or_comm, Nat.mul_comm,
    ← Nat.two_pow_add_eq_or_of_lt hlow high.toNat]
  omega

theorem toNat_addWords (sum : UInt32) (bytes : List UInt8) :
    (addWords sum bytes).toNat = (sum.toNat + wordSum bytes) % 2 ^ 32 := by
  fun_induction addWords sum bytes with
  | case1 sum =>
    have := sum.toNat_lt
    simp only [wordSum]
    omega
  | case2 sum last => rw [UInt32.toNat_add, toNat_high, wordSum]
  | case3 sum low high rest ih =>
    rw [ih, UInt32.toNat_add, toNat_word, wordSum]
    omega

/-- Up to this length 32 bits hold the sum of the words, whatever they are. -/
theorem wordSum_lt {bytes : List UInt8} (h : bytes.length ≤ 131074) : wordSum bytes < 2 ^ 32 := by
  have hsum := wordSum_le bytes
  omega

theorem toNat_addWords_zero {bytes : List UInt8} (h : bytes.length ≤ 131074) :
    (addWords 0 bytes).toNat = wordSum bytes := by
  rw [toNat_addWords, UInt32.toNat_zero, Nat.zero_add, Nat.mod_eq_of_lt (wordSum_lt h)]

/-! ## Folds -/

theorem toNat_lowHalf (sum : UInt32) : (sum &&& (0xffff : UInt32)).toNat = sum.toNat % 65536 := by
  rw [UInt32.toNat_and]
  exact Nat.and_two_pow_sub_one_eq_mod sum.toNat 16

theorem toNat_highHalf (sum : UInt32) : (sum >>> (16 : UInt32)).toNat = sum.toNat / 65536 := by
  rw [UInt32.toNat_shiftRight]
  exact Nat.shiftRight_eq_div_pow sum.toNat 16

theorem toNat_fold (sum : UInt32) : (fold sum).toNat = sum.toNat % 65536 + sum.toNat / 65536 := by
  have hsum := sum.toNat_lt
  rw [fold, UInt32.toNat_add, toNat_lowHalf, toNat_highHalf]
  omega

/-- The number up to 65535 that stands for `n` modulo 65535, which is zero for zero alone. -/
def residue (n : Nat) : Nat := if n = 0 then 0 else (n - 1) % 65535 + 1

theorem residue_le (n : Nat) : residue n ≤ 65535 := by
  unfold residue
  split <;> omega

/-- A second fold brings every sum down to 16 bits. -/
theorem toNat_fold_fold (sum : UInt32) : (fold (fold sum)).toNat = residue sum.toNat := by
  have hsum := sum.toNat_lt
  rw [toNat_fold, toNat_fold, residue]
  split <;> omega

theorem toNat_checksum {bytes : List UInt8} (h : bytes.length ≤ 131074) :
    (checksum bytes).toNat = 65535 - residue (wordSum bytes) := by
  have hless := residue_le (wordSum bytes)
  have hsize : UInt16.size = 65536 := rfl
  rw [checksum, UInt16.toNat_not, UInt32.toNat_toUInt16, toNat_fold_fold, toNat_addWords_zero h]
  omega

theorem checksum_eq_zero_iff {bytes : List UInt8} (h : bytes.length ≤ 131074) :
    checksum bytes = 0 ↔ 0 < wordSum bytes ∧ wordSum bytes % 65535 = 0 := by
  rw [← UInt16.toNat_inj, toNat_checksum h, UInt16.toNat_zero, residue]
  split <;> omega

theorem checksum_set_ne_zero {bytes : List UInt8} (hlength : bytes.length ≤ 131074)
    (hsum : checksum bytes = 0) {i : Nat} (hi : i < bytes.length) {v : UInt8} (hv : v ≠ bytes[i]) :
    checksum (bytes.set i v) ≠ 0 := by
  intro hchanged
  rw [checksum_eq_zero_iff hlength] at hsum
  rw [checksum_eq_zero_iff (by rwa [List.length_set])] at hchanged
  have hdiffer := wordSum_set v hi
  have hne : v.toNat ≠ (bytes[i]).toNat := fun hsame => hv (UInt8.toNat_inj.1 hsame)
  have hnew := v.toNat_lt
  have hold := (bytes[i]).toNat_lt
  unfold weight at hdiffer
  split at hdiffer <;> omega

/-! ## Trailers -/

theorem checksum_append_checksum {bytes : List UInt8} (heven : bytes.length % 2 = 0)
    (h : bytes.length ≤ 131072) :
    checksum (bytes ++ LittleEndian.encode 2 (checksum bytes).toNat) = 0 := by
  have htrailer := toNat_checksum (by omega : bytes.length ≤ 131074)
  have hless := residue_le (wordSum bytes)
  rw [checksum_eq_zero_iff (by simp; omega), wordSum_append _ heven,
    wordSum_encode _ (by omega), htrailer]
  unfold residue at hless ⊢
  split <;> omega

/-! ## Exactness -/

/-- The sum of two numbers, where 32 bits hold it. -/
def add? (a b : UInt32) : Option UInt32 := if a.toNat + b.toNat < 2 ^ 32 then some (a + b) else none

/-- The words of a span added onto `sum`, with no result if one of the additions overflows. -/
def addWords? (sum : UInt32) : List UInt8 → Option UInt32
  | [] => some sum
  | [last] => add? sum (last.toUInt32 <<< 8)
  | low :: high :: rest =>
    (add? sum (low.toUInt32 ||| high.toUInt32 <<< 8)).bind fun sum => addWords? sum rest

def fold? (sum : UInt32) : Option UInt32 := add? (sum &&& (0xffff : UInt32)) (sum >>> (16 : UInt32))

/-- The checksum, with no result if an addition overflows or the two folds leave more than 16 bits. -/
def checksum? (bytes : List UInt8) : Option UInt16 := do
  let sum ← addWords? 0 bytes
  let folded ← fold? (← fold? sum)
  if folded.toNat < 2 ^ 16 then some (~~~ folded.toUInt16) else none

theorem add?_eq {a b : UInt32} (h : a.toNat + b.toNat < 2 ^ 32) : add? a b = some (a + b) := if_pos h

theorem addWords?_eq {sum : UInt32} {bytes : List UInt8} (h : sum.toNat + wordSum bytes < 2 ^ 32) :
    addWords? sum bytes = some (addWords sum bytes) := by
  fun_induction addWords sum bytes with
  | case1 sum => rfl
  | case2 sum last =>
    rw [wordSum] at h
    exact add?_eq (by rwa [toNat_high])
  | case3 sum low high rest ih =>
    rw [wordSum] at h
    have hfits : sum.toNat + (low.toUInt32 ||| high.toUInt32 <<< 8).toNat < 2 ^ 32 := by
      rw [toNat_word]
      omega
    have hsum : (sum + (low.toUInt32 ||| high.toUInt32 <<< 8)).toNat =
        sum.toNat + (low.toNat + high.toNat * 256) := by
      rw [UInt32.toNat_add, Nat.mod_eq_of_lt hfits, toNat_word]
    rw [addWords?, add?_eq hfits, Option.bind_some]
    exact ih (by omega)

theorem fold?_eq (sum : UInt32) : fold? sum = some (fold sum) := by
  apply add?_eq
  have hsum := sum.toNat_lt
  rw [toNat_lowHalf, toNat_highHalf]
  omega

theorem checksum?_eq {bytes : List UInt8} (h : wordSum bytes < 2 ^ 32) :
    checksum? bytes = some (checksum bytes) := by
  have hsum : addWords? 0 bytes = some (addWords 0 bytes) :=
    addWords?_eq (by rwa [UInt32.toNat_zero, Nat.zero_add])
  have hfolded : (fold (fold (addWords 0 bytes))).toNat < 2 ^ 16 := by
    rw [toNat_fold_fold]
    exact Nat.lt_succ_of_le (residue_le _)
  simp only [checksum?, hsum, fold?_eq, Option.bind_eq_bind, Option.bind_some, if_pos hfolded]
  rfl

/-- `r` is one of the numbers up to 65535 that `n` is modulo 65535, and zero for zero alone. -/
structure Represents (r n : Nat) : Prop where
  le : r ≤ 65535
  mod_eq : r % 65535 = n % 65535
  zero_iff : r = 0 ↔ n = 0

theorem represents_iff {r n : Nat} : Represents r n ↔ r = residue n := by
  unfold residue
  constructor
  · rintro ⟨hle, hmod, hzero⟩
    split <;> omega
  · rintro rfl
    constructor <;> split <;> omega

/-- The sum of the words and this checksum make 65535, modulo 65535. -/
def IsChecksum (bytes : List UInt8) (sum : UInt16) : Prop := Represents (65535 - sum.toNat) (wordSum bytes)

theorem isChecksum_iff {bytes : List UInt8} (h : bytes.length ≤ 131074) {sum : UInt16} :
    IsChecksum bytes sum ↔ checksum bytes = sum := by
  have hless := residue_le (wordSum bytes)
  have hsum := sum.toNat_lt
  rw [IsChecksum, represents_iff, ← UInt16.toNat_inj, toNat_checksum h]
  omega

/-- As long as 32 bits hold the sum of the words, every addition is exact and two folds are enough; the
checksum is told by the sum alone; and a span of whole words is closed by its own checksum. -/
theorem checksum_exact {bytes : List UInt8} (h : bytes.length ≤ 131074) :
    (addWords? 0 bytes).map UInt32.toNat = some (wordSum bytes) ∧
    checksum? bytes = some (checksum bytes) ∧
    (∃ r, (∀ r', Represents r' (wordSum bytes) ↔ r' = r) ∧
      (fold (fold (addWords 0 bytes))).toNat = r ∧ (checksum bytes).toNat = 0xffff - r) ∧
    (checksum bytes = 0 ↔ 0 < wordSum bytes ∧ 65535 ∣ wordSum bytes) ∧
    (bytes.length % 2 = 0 → bytes.length ≤ 131072 →
      checksum (bytes ++ LittleEndian.encode 2 (checksum bytes).toNat) = 0) := by
  have hfits := wordSum_lt h
  refine ⟨?_, checksum?_eq hfits, ⟨residue (wordSum bytes), fun _ => represents_iff, ?_, toNat_checksum h⟩, ?_,
    checksum_append_checksum⟩
  · rw [addWords?_eq (by rwa [UInt32.toNat_zero, Nat.zero_add]), Option.map_some, toNat_addWords_zero h]
  · rw [toNat_fold_fold, toNat_addWords_zero h]
  · rw [checksum_eq_zero_iff h, Nat.dvd_iff_mod_eq_zero]

theorem checksum_exact_carried :
    ([0xff, 0xff, 0xff, 0xff, 0x01, 0x00] : List UInt8).length ≤ 131074 ∧
    (addWords? 0 [0xff, 0xff, 0xff, 0xff, 0x01, 0x00]).map UInt32.toNat = some 131071 ∧
    checksum? [0xff, 0xff, 0xff, 0xff, 0x01, 0x00] = some 0xfffe ∧
    checksum ([0xff, 0xff, 0xff, 0xff, 0x01, 0x00] ++ LittleEndian.encode 2 0xfffe) = 0 := by
  have hlength : ([0xff, 0xff, 0xff, 0xff, 0x01, 0x00] : List UInt8).length ≤ 131074 := by decide
  obtain ⟨hsum, hchecked, -, -, hcloses⟩ := checksum_exact hlength
  exact ⟨hlength, hsum, hchecked, hcloses rfl (by decide)⟩

end FpgaCard.Checksum
