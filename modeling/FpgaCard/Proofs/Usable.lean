import FpgaCard.Proofs.Plans
import FpgaCard.Proofs.Traffic

/-!
# Engines that can transfer

What the making of an engine leaves for its transfers. The limit of a transfer is rounded to the alignment
before it is cut to the buffer, so that it stays aligned only if the buffer holds an aligned span. Main
statement: an engine whose buffer is no smaller than its alignment takes every aligned transfer, and one
whose buffer is smaller takes none.
-/

namespace FpgaCard

open Simulation

namespace Engine

theorem exists_of_isPowerOfTwo {n : Nat} (h : isPowerOfTwo n = true) : ∃ k, n = 2 ^ k := by
  unfold isPowerOfTwo at h
  rw [decide_eq_true_iff, Nat.one_shiftLeft] at h
  exact ⟨n.log2, h.symm⟩

theorem alignment_eq (s : DmaSettings) : s.alignment = 2 ^ s.shift.toNat := Nat.one_shiftLeft _

/-! ## The limit of a transfer -/

theorem alignment_dvd_transferLimit {s : DmaSettings} {size : Nat} (hsize : isPowerOfTwo size = true)
    (hroom : s.alignment ≤ size) : s.alignment ∣ transferLimit s.alignment size := by
  obtain ⟨k, rfl⟩ := exists_of_isPowerOfTwo hsize
  have hbuffer : s.alignment ∣ 2 ^ k := by
    rw [alignment_eq] at hroom ⊢
    exact Nat.pow_dvd_pow 2 ((Nat.pow_le_pow_iff_right (by decide)).1 hroom)
  have hcount : s.alignment ∣ Register.countMax - Register.countMax % s.alignment :=
    Nat.dvd_sub_mod Register.countMax
  unfold transferLimit
  rcases Nat.le_total (Register.countMax - Register.countMax % s.alignment) (2 ^ k) with h | h
  · rwa [Nat.min_eq_left h]
  · rwa [Nat.min_eq_right h]

theorem alignment_dvd_transferLimit_iff {s : DmaSettings} {size : Nat}
    (hsize : isPowerOfTwo size = true) (hpos : transferLimit s.alignment size ≠ 0) :
    s.alignment ∣ transferLimit s.alignment size ↔ s.alignment ≤ size := by
  constructor
  · intro hdvd
    calc s.alignment ≤ transferLimit s.alignment size := Nat.le_of_dvd (Nat.pos_of_ne_zero hpos) hdvd
      _ ≤ size := Nat.min_le_right _ _
  · exact alignment_dvd_transferLimit hsize

/-! ## Making an engine -/

def candidate (address : UInt64) (size : Nat) (settings : DmaSettings) (resetTimeout : Nat) : Engine :=
  { bufferAddress := address, bufferSize := size, settings, resetTimeout,
    maxTransfer := transferLimit settings.alignment size }

variable {address : UInt64} {size : Nat} {settings : DmaSettings} {timeout : Nat}

theorem configure_cases (address : UInt64) (size : Nat) (settings : DmaSettings) (timeout : Nat) :
    (∃ reason, configure address size settings timeout = .error (.invalidConfig reason)) ∨
    (isPowerOfTwo size = true ∧ address.toNat % settings.alignment = 0 ∧
      transferLimit settings.alignment size ≠ 0 ∧
      configure address size settings timeout = .ok (candidate address size settings timeout)) := by
  unfold configure
  simp only
  split
  · exact .inl ⟨_, rfl⟩
  rename_i hsize
  split
  · exact .inl ⟨_, rfl⟩
  split
  · exact .inl ⟨_, rfl⟩
  split
  · exact .inl ⟨_, rfl⟩
  split
  · exact .inl ⟨_, rfl⟩
  rename_i haligned
  split
  · exact .inl ⟨_, rfl⟩
  rename_i hlimit
  exact .inr ⟨by simpa using hsize, by simpa using haligned, hlimit, rfl⟩

theorem configure_ok {e : Engine} (h : configure address size settings timeout = .ok e) :
    isPowerOfTwo size = true ∧ address.toNat % settings.alignment = 0 ∧
      e = candidate address size settings timeout := by
  obtain ⟨reason, hrefused⟩ | ⟨hsize, haligned, -, hcandidate⟩ :=
    configure_cases address size settings timeout
  · rw [hrefused] at h
    cases h
  · rw [hcandidate] at h
    cases h
    exact ⟨hsize, haligned, rfl⟩

end Engine

/-! ## Starting an engine -/

namespace Channel

variable {σ : Type} [Hardware σ]

theorem awaitReset_engine (c : Channel σ) (tries : Nat) : (c.awaitReset tries).2.engine = c.engine := by
  induction tries generalizing c with
  | zero =>
    unfold awaitReset
    simp only
    split <;> rfl
  | succ tries ih =>
    unfold awaitReset
    simp only
    split
    · exact ih _
    · rfl

theorem reset_engine (c : Channel σ) : c.reset.2.engine = c.engine := by
  have hawait := (c.store Register.control Control.reset).awaitReset_engine c.engine.resetTimeout
  unfold reset
  simp only
  change ((c.store Register.control Control.reset).awaitReset c.engine.resetTimeout).2.engine = c.engine
    at hawait
  split
  · rename_i c' hresult
    change (c.store Register.control Control.reset).awaitReset c.engine.resetTimeout = (true, c') at hresult
    rw [hresult] at hawait
    exact hawait
  · rename_i c' hresult
    change (c.store Register.control Control.reset).awaitReset c.engine.resetTimeout = (false, c') at hresult
    rw [hresult] at hawait
    exact hawait

theorem configure_of_start {hardware hardware' : σ} {address : UInt64} {size : Nat} {settings : DmaSettings}
    {timeout : Nat} {e : Engine}
    (h : start hardware address size settings timeout = (.ok e, hardware')) :
    Engine.configure address size settings timeout = .ok e := by
  unfold start at h
  split at h
  · cases h
  rename_i engine hconfigure
  have hengine := reset_engine ⟨engine, hardware⟩
  have hresult := congrArg Prod.fst h
  cases hreset : (Channel.mk engine hardware).reset.1 with
  | error error =>
    simp only [hreset] at hresult
    cases hresult
  | ok _ =>
    simp only [hreset] at hresult
    cases hresult
    rw [hconfigure, hengine]

end Channel

/-! ## What an engine takes -/

namespace Engine

/-- An engine that refuses whatever it is asked for, for want of alignment. -/
def Useless (e : Engine) : Prop :=
  ∀ t : Transfer, 0 < t.count →
    t.check e = .finished (.error
      (.misaligned t.start e.bufferAddress (min t.count e.maxTransfer) e.alignment))

variable {e : Engine} {t : Transfer}

theorem check_cut (hbuffer : e.bufferAddress.toNat % e.alignment = 0) (hpos : 0 < t.count)
    (hstart : t.start.toNat % e.alignment = 0) (hcut : min t.count e.maxTransfer % e.alignment = 0) :
    t.check e = .going { t with count := min t.count e.maxTransfer, stage := .give } := by
  unfold Transfer.check
  simp only
  rw [if_neg (by omega), if_neg (by simp [hstart, hbuffer, hcut])]

theorem check_aligned (hbuffer : e.bufferAddress.toNat % e.alignment = 0)
    (hlimit : e.alignment ∣ e.maxTransfer) (hpos : 0 < t.count) (hstart : t.start.toNat % e.alignment = 0)
    (hcount : t.count % e.alignment = 0 ∨ e.maxTransfer ≤ t.count) :
    t.check e = .going { t with count := min t.count e.maxTransfer, stage := .give } := by
  apply check_cut hbuffer hpos hstart
  rcases Nat.le_total t.count e.maxTransfer with h | h
  · rw [Nat.min_eq_left h]
    obtain haligned | hbeyond := hcount
    · exact haligned
    · rw [Nat.le_antisymm h hbeyond]
      exact Nat.mod_eq_zero_of_dvd hlimit
  · rw [Nat.min_eq_right h]
    exact Nat.mod_eq_zero_of_dvd hlimit

theorem useless_of_lt (hpos : 0 < e.maxTransfer) (hlimit : e.maxTransfer < e.alignment) : e.Useless := by
  intro t ht
  have hcut : min t.count e.maxTransfer % e.alignment ≠ 0 := by
    have hless : min t.count e.maxTransfer < e.alignment :=
      Nat.lt_of_le_of_lt (Nat.min_le_right _ _) hlimit
    rw [Nat.mod_eq_of_lt hless]
    omega
  unfold Transfer.check
  simp only
  rw [if_neg (by omega), if_pos (.inr (.inr hcut))]

theorem useless_of_misaligned (hbuffer : e.bufferAddress.toNat % e.alignment ≠ 0) : e.Useless := by
  intro t ht
  unfold Transfer.check
  simp only
  rw [if_neg (by omega), if_pos (.inr (.inl hbuffer))]

theorem not_useless (hbuffer : e.bufferAddress.toNat % e.alignment = 0)
    (hlimit : e.alignment ∣ e.maxTransfer) (hpos : 0 < e.maxTransfer) : ¬ e.Useless := by
  intro huseless
  let t : Transfer := { start := 0, count := e.maxTransfer, direction := .toDevice }
  have hgoing := check_aligned (t := t) hbuffer hlimit hpos (Nat.zero_mod _) (.inr (Nat.le_refl _))
  rw [huseless t hpos] at hgoing
  cases hgoing

variable {address : UInt64} {size : Nat} {settings : DmaSettings} {timeout : Nat}

/-- An engine that is started moves something, no more than its buffer, and in whole aligned spans if its
buffer holds one. Then it takes every aligned transfer that is not cut, and every longer one, and settings
that would make it useless are refused; otherwise it is useless. -/
theorem started_usable (address : UInt64) (size : Nat) (settings : DmaSettings) (timeout : Nat) :
    (∀ (σ : Type) [Hardware σ] (hardware hardware' : σ) (e : Engine),
      Channel.start hardware address size settings timeout = (.ok e, hardware') →
      0 < e.maxTransfer ∧ e.maxTransfer ≤ size ∧
      (settings.alignment ∣ e.maxTransfer ↔ settings.alignment ≤ size) ∧
      (settings.alignment ≤ size → ∀ t : Transfer, 0 < t.count → t.start.toNat % settings.alignment = 0 →
        t.count % settings.alignment = 0 ∨ e.maxTransfer ≤ t.count →
        t.check e = .going { t with count := min t.count e.maxTransfer, stage := .give }) ∧
      (size < settings.alignment → e.Useless)) ∧
    (settings.alignment ≤ size → (candidate address size settings timeout).Useless →
      ∃ reason, configure address size settings timeout = .error (.invalidConfig reason)) := by
  refine ⟨?_, ?_⟩
  · intro σ _ hardware hardware' e hstart
    have hmade := Channel.configure_of_start hstart
    obtain ⟨reason, hrefused⟩ | ⟨hsize, haddress, hlimit, hcandidate⟩ :=
      configure_cases address size settings timeout
    · rw [hrefused] at hmade
      cases hmade
    rw [hcandidate] at hmade
    cases hmade
    have hdvd := alignment_dvd_transferLimit_iff hsize hlimit
    refine ⟨Nat.pos_of_ne_zero hlimit, Nat.min_le_right _ _, hdvd, ?_, ?_⟩
    · intro hroom t hpos haligned hcount
      exact check_aligned haddress (hdvd.2 hroom) hpos haligned hcount
    · intro hsmall
      exact useless_of_lt (Nat.pos_of_ne_zero hlimit) (Nat.lt_of_le_of_lt (Nat.min_le_right _ _) hsmall)
  · intro hroom huseless
    obtain hrefused | ⟨hsize, haddress, hlimit, -⟩ := configure_cases address size settings timeout
    · exact hrefused
    · exact absurd huseless (not_useless haddress (alignment_dvd_transferLimit hsize hroom)
        (Nat.pos_of_ne_zero hlimit))

theorem started_usable_small :
    (∃ hardware, Channel.start smallRig 0x1000 4 { shift := 1 } 0 = (.ok smallChannel.engine, hardware)) ∧
    ({ start := 0x80000000, count := 6, direction := .toDevice } : Transfer).check smallChannel.engine =
      .going { start := 0x80000000, count := 4, direction := .toDevice, stage := .give } ∧
    ∃ reason, configure 0x1001 4 { shift := 1 } 0 = .error (.invalidConfig reason) := by
  have hstart : Channel.start smallRig 0x1000 4 { shift := 1 } 0 =
      (.ok smallChannel.engine, (Channel.start smallRig 0x1000 4 { shift := 1 } 0).2) := rfl
  obtain ⟨-, -, -, htakes, -⟩ := (started_usable 0x1000 4 { shift := 1 } 0).1 Rig _ _ _ hstart
  refine ⟨⟨_, hstart⟩, ?_, ?_⟩
  · exact htakes (by decide) _ (by decide) (by decide) (by decide)
  · exact (started_usable 0x1001 4 { shift := 1 } 0).2 (by decide) (useless_of_misaligned (by decide))

/-- A buffer of four bytes is good enough for spans of eight: the engine starts, and moves nothing. -/
theorem starts_useless :
    ∃ e hardware, Channel.start smallRig 0x1000 4 { shift := 3 } 0 = (.ok e, hardware) ∧
      e.maxTransfer % e.alignment ≠ 0 ∧ e.Useless :=
  ⟨_, _, rfl, by decide, useless_of_lt (by decide) (by decide)⟩

end Engine

end FpgaCard
