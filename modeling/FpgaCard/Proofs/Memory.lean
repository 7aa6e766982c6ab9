import FpgaCard.Memory
import Mathlib

/-!
# Spans of memory

What a span reads after a span was written. A span may wrap at the top of memory, but not reach
itself again.
-/

namespace FpgaCard.Memory

/-! ## Addresses -/

theorem toNat_sub_succ {a b : UInt64} (h : a ≠ b) : (b - a).toNat = (b - (a + 1)).toNat + 1 := by
  have hne : a.toNat ≠ b.toNat := fun h' => h (UInt64.toNat_inj.1 h')
  have ha := a.toNat_lt
  have hb := b.toNat_lt
  simp only [UInt64.toNat_sub, UInt64.toNat_add, UInt64.reduceToNat] at *
  omega

theorem toNat_sub_succ_self (a : UInt64) : (a - (a + 1)).toNat = 2 ^ 64 - 1 := by
  have ha := a.toNat_lt
  simp only [UInt64.toNat_sub, UInt64.toNat_add, UInt64.reduceToNat] at *
  omega

theorem toNat_add_sub (a : UInt64) {i : Nat} (h : i < 2 ^ 64) : (a + UInt64.ofNat i - a).toNat = i := by
  have ha := a.toNat_lt
  simp only [UInt64.toNat_sub, UInt64.toNat_add, UInt64.toNat_ofNat'] at *
  omega

theorem add_toNat_sub (a b : UInt64) : a + UInt64.ofNat (b - a).toNat = b := by
  rw [UInt64.ofNat_toNat, UInt64.add_comm, UInt64.sub_add_cancel]

/-! ## Writing -/

theorem byteAt_write (m : Memory) (a b : UInt64) (bytes : List UInt8) (h : bytes.length ≤ 2 ^ 64) :
    (m.write a bytes).byteAt b = bytes.getD (b - a).toNat (m.byteAt b) := by
  induction bytes generalizing m a with
  | nil => simp [write]
  | cons byte bytes ih =>
    simp only [List.length_cons] at h
    rw [write, ih _ _ (by omega), byteAt_set]
    by_cases hab : a = b
    · subst hab
      -- The rest of the span does not come round to its first byte.
      rw [toNat_sub_succ_self, UInt64.sub_self, UInt64.toNat_zero]
      rw [List.getD_eq_getElem?_getD, List.getElem?_eq_none (by omega), if_pos rfl]
      rfl
    · rw [toNat_sub_succ hab]
      simp [hab]

/-! ## Reading -/

theorem take_read (m : Memory) (a : UInt64) (k n : Nat) : (m.read a n).take k = m.read a (min k n) := by
  simp [read, ← List.map_take, List.take_range]

theorem drop_read (m : Memory) (a : UInt64) (k n : Nat) :
    (m.read a n).drop k = m.read (a + UInt64.ofNat k) (n - k) := by
  apply List.ext_getElem
  · simp
  · intro i _ _
    simp [read, UInt64.ofNat_add, UInt64.add_assoc]

theorem read_part {m m' : Memory} {a a' : UInt64} {k j n : Nat} (h : m.read a n = m'.read a' n)
    (hj : j ≤ n - k) : m.read (a + UInt64.ofNat k) j = m'.read (a' + UInt64.ofNat k) j := by
  have hpart := congrArg (fun bytes => (bytes.drop k).take j) h
  simpa only [drop_read, take_read, Nat.min_eq_left hj] using hpart

theorem read_write (m : Memory) (a : UInt64) (bytes : List UInt8) (k n : Nat)
    (hlen : bytes.length ≤ 2 ^ 64) (hin : k + n ≤ bytes.length) :
    (m.write a bytes).read (a + UInt64.ofNat k) n = (bytes.drop k).take n := by
  apply List.ext_getElem
  · simp; omega
  · intro i hi _
    have hn : i < n := by simpa using hi
    have hadd : a + UInt64.ofNat k + UInt64.ofNat i = a + UInt64.ofNat (k + i) := by
      rw [UInt64.ofNat_add, UInt64.add_assoc]
    simp only [read, List.getElem_map, List.getElem_range, List.getElem_take, List.getElem_drop]
    rw [byteAt_write _ _ _ _ hlen, hadd, toNat_add_sub _ (by omega)]
    simp [List.getD_eq_getElem?_getD, List.getElem?_eq_getElem (show k + i < bytes.length by omega)]

theorem read_write_self (m : Memory) (a : UInt64) (bytes : List UInt8) (h : bytes.length ≤ 2 ^ 64) :
    (m.write a bytes).read a bytes.length = bytes := by
  have hread := m.read_write a bytes 0 bytes.length h (by omega)
  simpa using hread

/-! ## Replaced spans -/

/-- `after` holds `data` from the address `start` on, and is `before` everywhere else. -/
def Replaced (before after : Memory) (start : Nat) (data : List UInt8) : Prop :=
  ∀ a : UInt64, after.byteAt a =
    if start ≤ a.toNat then data.getD (a.toNat - start) (before.byteAt a) else before.byteAt a

theorem replaced_nil (m : Memory) (start : Nat) : Replaced m m start [] := by
  intro a
  simp

theorem replaced_write (m : Memory) (start : Nat) (data : List UInt8)
    (h : start + data.length ≤ 2 ^ 64) (hstart : start < 2 ^ 64) :
    Replaced m (m.write (UInt64.ofNat start) data) start data := by
  intro a
  rw [byteAt_write _ _ _ _ (by omega)]
  have ha := a.toNat_lt
  have hs : (UInt64.ofNat start).toNat = start := UInt64.toNat_ofNat_of_lt' hstart
  by_cases hle : start ≤ a.toNat
  · rw [if_pos hle]
    congr 1
    rw [UInt64.toNat_sub_of_le _ _ (UInt64.le_iff_toNat_le.2 (by omega)), hs]
  · rw [if_neg hle, List.getD_eq_getElem?_getD, List.getElem?_eq_none]
    · rfl
    · rw [UInt64.toNat_sub, hs]
      omega

/-! ## Writing round a region -/

/-- The memory with bytes written from `position` on into the `length` bytes from `base`, which are
gone round as often as need be. -/
def writeAround (m : Memory) (base length position : Nat) : List UInt8 → Memory
  | [] => m
  | byte :: bytes =>
    (m.set (UInt64.ofNat (base + position)) byte).writeAround base length ((position + 1) % length) bytes

theorem writeAround_eq_write (m : Memory) (base length position : Nat) (bytes : List UInt8)
    (h : position + bytes.length ≤ length) :
    m.writeAround base length position bytes = m.write (UInt64.ofNat (base + position)) bytes := by
  induction bytes generalizing m position with
  | nil => rfl
  | cons byte bytes ih =>
    rw [List.length_cons] at h
    rw [writeAround, write]
    cases bytes with
    | nil => rfl
    | cons next rest =>
      rw [List.length_cons] at h
      have hnext : UInt64.ofNat (base + (position + 1)) = UInt64.ofNat (base + position) + 1 := by
        rw [← Nat.add_assoc, UInt64.ofNat_add _ 1]
        rfl
      rw [Nat.mod_eq_of_lt (by omega), ih _ _ (by rw [List.length_cons]; omega), hnext]

theorem writeAround_append (m : Memory) (base length position : Nat) (xs ys : List UInt8)
    (h : position < length) :
    m.writeAround base length position (xs ++ ys) =
      (m.writeAround base length position xs).writeAround base length ((position + xs.length) % length)
        ys := by
  induction xs generalizing m position with
  | nil => simp [writeAround, Nat.mod_eq_of_lt h]
  | cons x xs ih =>
    rw [List.cons_append, writeAround, ih _ _ (Nat.mod_lt _ (by omega)), writeAround,
      Nat.mod_add_mod, List.length_cons]
    congr 2
    omega

end FpgaCard.Memory
