import FpgaCard.Engine.Transfer
import FpgaCard.Simulation.Card
import Mathlib

/-!
# Bits of the controller's words

How the card's changes of its status word and the driver's tests of it go together: signals and the
idle bit come and go, error bits stay until a reset.
-/

namespace FpgaCard

open Simulation

/-! ## Masks -/

theorem anySet_eq_false (word mask : UInt32) : anySet word mask = false ↔ word &&& mask = 0 := by
  simp [anySet]

theorem clear_and_of_disjoint (s w m : UInt32) (h : w &&& m = 0) : (s &&& ~~~w) &&& m = s &&& m := by
  rw [← UInt32.toBitVec_inj] at h ⊢
  ext i hi
  have hbit := congrArg (·.getLsbD i) h
  simp only [UInt32.toBitVec_and, BitVec.getLsbD_and] at hbit
  simp only [UInt32.toBitVec_and, UInt32.toBitVec_not, BitVec.getElem_and, BitVec.getElem_not]
  simp only [BitVec.getLsbD_eq_getElem hi] at hbit
  revert hbit
  cases s.toBitVec[i] <;> cases w.toBitVec[i] <;> cases m.toBitVec[i] <;> simp

theorem or_and_of_disjoint (s w m : UInt32) (h : w &&& m = 0) : (s ||| w) &&& m = s &&& m := by
  rw [← UInt32.toBitVec_inj] at h ⊢
  ext i hi
  have hbit := congrArg (·.getLsbD i) h
  simp only [UInt32.toBitVec_and, BitVec.getLsbD_and] at hbit
  simp only [UInt32.toBitVec_and, UInt32.toBitVec_or, BitVec.getElem_and, BitVec.getElem_or]
  simp only [BitVec.getLsbD_eq_getElem hi] at hbit
  revert hbit
  cases s.toBitVec[i] <;> cases w.toBitVec[i] <;> cases m.toBitVec[i] <;> simp

theorem clear_and_self (s m : UInt32) : (s &&& ~~~m) &&& m = 0 := by
  rw [UInt32.and_assoc, UInt32.not_and_self, UInt32.and_zero]

theorem or_and_self (s m : UInt32) : (s ||| m) &&& m = m := by
  rw [← UInt32.toBitVec_inj]
  ext i hi
  simp only [UInt32.toBitVec_and, UInt32.toBitVec_or, BitVec.getElem_and, BitVec.getElem_or]
  cases s.toBitVec[i] <;> cases m.toBitVec[i] <;> rfl

theorem or_and_distrib (s t m : UInt32) : (s ||| t) &&& m = (s &&& m) ||| (t &&& m) := by
  rw [← UInt32.toBitVec_inj]
  ext i hi
  simp only [UInt32.toBitVec_and, UInt32.toBitVec_or, BitVec.getElem_and, BitVec.getElem_or]
  cases s.toBitVec[i] <;> cases t.toBitVec[i] <;> cases m.toBitVec[i] <;> rfl

/-! ## The status word -/

theorem acknowledge_and (s v m : UInt32) (h : Status.interrupts &&& m = 0) :
    (s &&& ~~~(v &&& Status.interrupts)) &&& m = s &&& m := by
  apply clear_and_of_disjoint
  rw [UInt32.and_assoc, h, UInt32.and_zero]

@[simp]
theorem acknowledge_errors (s v : UInt32) :
    (s &&& ~~~(v &&& Status.interrupts)) &&& Status.errors = s &&& Status.errors :=
  acknowledge_and s v _ (by decide)

@[simp]
theorem acknowledge_idle (s v : UInt32) :
    (s &&& ~~~(v &&& Status.interrupts)) &&& Status.idle = s &&& Status.idle :=
  acknowledge_and s v _ (by decide)

@[simp]
theorem busy_errors (s : UInt32) : (s &&& ~~~Status.idle) &&& Status.errors = s &&& Status.errors :=
  clear_and_of_disjoint s _ _ (by decide)

@[simp]
theorem busy_idle (s : UInt32) : (s &&& ~~~Status.idle) &&& Status.idle = 0 := clear_and_self s _

@[simp]
theorem idle_errors (s : UInt32) : (s ||| Status.idle) &&& Status.errors = s &&& Status.errors :=
  or_and_of_disjoint s _ _ (by decide)

@[simp]
theorem idle_idle (s : UInt32) : (s ||| Status.idle) &&& Status.idle = Status.idle := or_and_self s _

@[simp]
theorem latch_idle (s e : UInt32) : Card.latch s e &&& Status.idle = Status.idle := by
  have hinterrupt : Status.interrupt &&& Status.idle = 0 := by decide
  have hsignal : Status.errorInterrupt &&& Status.idle = 0 := by decide
  unfold Card.latch
  split
  · rw [or_and_of_disjoint _ _ _ hinterrupt, idle_idle]
  · rw [or_and_of_disjoint _ _ _ hsignal, UInt32.or_assoc, UInt32.or_comm Status.idle,
      ← UInt32.or_assoc, or_and_self]

@[simp]
theorem latch_errors (s e : UInt32) :
    Card.latch s e &&& Status.errors = (s &&& Status.errors) ||| (e &&& Status.errors) := by
  have hinterrupt : Status.interrupt &&& Status.errors = 0 := by decide
  have hsignal : Status.errorInterrupt &&& Status.errors = 0 := by decide
  unfold Card.latch
  split
  · rename_i he
    rw [or_and_of_disjoint _ _ _ hinterrupt, idle_errors, he]
    simp
  · rw [or_and_of_disjoint _ _ _ hsignal, or_and_distrib, idle_errors]

theorem isReady_iff (s : UInt32) :
    Transfer.isReady s = true ↔ s &&& Status.errors = 0 ∧ s &&& Status.idle ≠ 0 := by
  simp [Transfer.isReady, anySet]

/-! ## The control word -/

theorem enabled_of_both (e : UInt32) :
    anySet Control.bothInterrupts (Card.enableBit e) = true := by
  unfold Card.enableBit
  split <;> decide

theorem not_enabled_of_reset (e : UInt32) : anySet Control.reset (Card.enableBit e) = false := by
  unfold Card.enableBit
  split <;> decide

/-! ## Addresses -/

@[simp]
theorem address_high_low (a : UInt64) : Card.address (Transfer.high a) (Transfer.low a) = a := by
  have ha := a.toNat_lt
  have hhigh : a.toNat / 2 ^ 32 % 2 ^ 32 = a.toNat / 2 ^ 32 := by omega
  apply UInt64.toNat_inj.1
  simp only [Card.address, Transfer.high, Transfer.low, UInt64.toNat_or, UInt64.toNat_shiftLeft,
    UInt32.toNat_toUInt64, UInt64.toNat_toUInt32, UInt64.toNat_shiftRight, UInt64.reduceToNat,
    Nat.shiftRight_eq_div_pow, hhigh, Nat.reduceMod]
  rw [Nat.mod_eq_of_lt (by rw [Nat.shiftLeft_eq]; omega),
    ← Nat.shiftLeft_add_eq_or_of_lt (Nat.mod_lt _ (by decide)), Nat.shiftLeft_eq]
  omega

end FpgaCard
