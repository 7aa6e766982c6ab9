import FpgaCard.LittleEndian
import Mathlib

/-!
# Lemmas on little-endian numbers

Reading the low bytes of a number gives the number modulo what they can hold.
-/

namespace FpgaCard.LittleEndian

theorem decode_encode (width n : Nat) : decode (encode width n) = n % 256 ^ width := by
  induction width generalizing n with
  | zero => simp [encode, decode, Nat.mod_one]
  | succ width ih =>
    have hb : (UInt8.ofNat n).toNat = n % 256 := by simp
    rw [encode, decode, ih, hb, Nat.pow_succ', Nat.mod_mul]

theorem getElem_encode {width k : Nat} (n : Nat) (h : k < (encode width n).length) :
    (encode width n)[k] = UInt8.ofNat (n / 256 ^ k) := by
  induction width generalizing n k with
  | zero => simp [encode] at h
  | succ width ih =>
    cases k with
    | zero => simp [encode]
    | succ k =>
      simp only [encode, List.getElem_cons_succ]
      rw [ih, Nat.div_div_eq_div_mul, ← Nat.pow_succ']

theorem decode_lt (bytes : List UInt8) : decode bytes < 256 ^ bytes.length := by
  induction bytes with
  | nil => simp [decode]
  | cons b bytes ih =>
    have hb : b.toNat < 256 := b.toNat_lt
    simp only [decode, List.length_cons, Nat.pow_succ']
    omega

theorem decode_concat (bytes : List UInt8) (b : UInt8) :
    decode (bytes ++ [b]) = decode bytes + 256 ^ bytes.length * b.toNat := by
  induction bytes with
  | nil => simp [decode]
  | cons a bytes ih =>
    rw [List.cons_append, decode, ih, decode, List.length_cons, pow_succ]
    ring

end FpgaCard.LittleEndian
