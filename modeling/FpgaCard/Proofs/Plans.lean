import FpgaCard.Endpoint.Memory
import Mathlib

/-!
# What endpoints ask the engine for

The spans that reads and writes plan lie in the region. A read's span may begin before the position and
end behind what was asked for, but always holds the byte at the position.
-/

namespace FpgaCard

theorem Engine.alignment_pos (e : Engine) : 0 < e.alignment := by
  unfold alignment DmaSettings.alignment
  rw [Nat.one_shiftLeft]
  exact Nat.pow_pos (by decide)

namespace MemoryEndpoint

variable {m : MemoryEndpoint} {e : Engine}

theorem roundDown_le (alignment n : Nat) : roundDown alignment n ≤ n := Nat.sub_le _ _

theorem bounds_ok {offset address finish : Nat} (h : m.bounds offset = .ok (address, finish)) :
    address = m.region.base.toNat + offset ∧ finish = m.region.base.toNat + m.length ∧
      finish < 2 ^ 64 := by
  unfold bounds at h
  split at h
  · cases h
  split at h
  · cases h
  rename_i finish' hfinish
  unfold Region.finish? at hfinish
  split at hfinish
  · rename_i hlt
    cases hfinish
    cases h
    unfold UInt64.size at hlt
    unfold length
    rw [UInt64.toNat_add]
    omega
  · cases hfinish

theorem bounds_eq {offset : Nat} (hfits : m.region.base.toNat + m.length < 2 ^ 64)
    (hinside : offset ≤ m.length) :
    m.bounds offset = .ok (m.region.base.toNat + offset, m.region.base.toNat + m.length) := by
  unfold length at *
  have hfinish : m.region.finish? = some (m.region.base + m.region.length) := by
    unfold Region.finish?
    rw [if_pos (by unfold UInt64.size; omega)]
  unfold bounds
  rw [if_neg (by unfold UInt64.size; omega), hfinish]
  simp only [UInt64.toNat_add, Nat.mod_eq_of_lt hfits]

theorem offset?_eq (h : m.position < m.length) : m.offset? = .ok (some m.position) := by
  unfold offset?
  rw [if_neg (by omega), if_neg (by omega)]

theorem offset?_none (h : m.offset? = .ok none) : m.position = m.length := by
  unfold offset? at h
  split at h
  · assumption
  · split at h <;> cases h

theorem offset?_some {offset : Nat} (h : m.offset? = .ok (some offset)) :
    offset = m.position ∧ m.position < m.length := by
  unfold offset? at h
  split at h
  · cases h
  split at h
  · cases h
  cases h
  exact ⟨rfl, by omega⟩

theorem advance_eq {count : Nat} (h : m.position + count ≤ m.length) : m.advance count =
    { m with position := if m.position + count = m.length then 0 else m.position + count } := by
  unfold advance
  congr 1
  split <;> split <;> omega

theorem advance_inside {count : Nat} (h : m.position + count < m.length) :
    (m.advance count).position = m.position + count := by
  rw [advance_eq (Nat.le_of_lt h)]
  exact if_neg (Nat.ne_of_lt h)

theorem advance_position {count : Nat} (h : m.position + count ≤ m.length) :
    (m.advance count).position = (m.position + count) % m.length := by
  rcases Nat.lt_or_eq_of_le h with hless | heq
  · rw [advance_inside hless, Nat.mod_eq_of_lt hless]
  · rw [advance_eq h, heq, Nat.mod_self]
    exact if_pos rfl

theorem seek_eq {offset : Nat} (h : offset ≤ m.length) :
    m.seek (.start offset) = .ok { m with position := offset } := by
  simp [seek, target?, Option.filter, h]

theorem seek_start {offset : Nat} {m' : MemoryEndpoint} (h : m.seek (.start offset) = .ok m') :
    offset ≤ m.length ∧ m' = { m with position := offset } := by
  unfold seek at h
  split at h
  · rename_i position htarget
    rw [Option.filter_eq_some_iff] at htarget
    obtain ⟨hposition, hle⟩ := htarget
    cases hposition
    cases h
    exact ⟨by simpa using hle, rfl⟩
  · cases h

/-! ## Reads -/

theorem readSpan_ok {alignment room : Nat} {span : Span} (hinside : m.position < m.length)
    (h : m.readSpan alignment m.position room = .ok span) :
    m.region.base.toNat + m.length < 2 ^ 64 ∧ span.skip = m.position % alignment ∧
      span.start + span.skip = m.region.base.toNat + m.position ∧
      span.start + span.count ≤ m.region.base.toNat + m.length := by
  unfold readSpan at h
  simp only [bind, Except.bind] at h
  split at h
  · cases h
  rename_i pair hbounds
  obtain ⟨address, finish⟩ := pair
  obtain ⟨rfl, rfl, hfits⟩ := bounds_ok hbounds
  have hskip := Nat.mod_le m.position alignment
  have hround := roundDown_le alignment
    (m.region.base.toNat + m.length - (m.region.base.toNat + m.position - m.position % alignment))
  -- The span is as wide as wanted, or it ends with the region.
  split at h
  all_goals
    split at h
    · cases h
    cases h
    refine ⟨hfits, rfl, ?_, ?_⟩ <;> simp only <;> omega

theorem planRead_none {room : Nat} (h : m.planRead e room = .ok none) :
    room = 0 ∨ m.position = m.length := by
  unfold planRead at h
  split at h
  · cases h
  simp only [bind, Except.bind] at h
  split at h
  · cases h
  rename_i offset? hoffset
  cases offset? with
  | none => exact .inr (offset?_none hoffset)
  | some offset =>
    simp only at h
    split at h
    · exact .inl (by assumption)
    · split at h <;> cases h

theorem planRead_some {room : Nat} {span : Span} (h : m.planRead e room = .ok (some span)) :
    0 < room ∧ m.position < m.length ∧ m.region.base.toNat + m.length < 2 ^ 64 ∧
      span.skip = m.position % e.alignment ∧
      span.start + span.skip = m.region.base.toNat + m.position ∧
      span.start + span.count ≤ m.region.base.toNat + m.length := by
  unfold planRead at h
  split at h
  · cases h
  simp only [bind, Except.bind] at h
  split at h
  · cases h
  rename_i offset? hoffset
  cases offset? with
  | none => cases h
  | some offset =>
    obtain ⟨rfl, hinside⟩ := offset?_some hoffset
    simp only at h
    split at h
    · cases h
    rename_i hroom
    split at h
    · cases h
    rename_i span' hspan
    cases h
    exact ⟨Nat.pos_of_ne_zero hroom, hinside, readSpan_ok hinside hspan⟩

theorem planWrite_none {count : Nat} (h : m.planWrite e count = .ok none) :
    count = 0 ∨ m.position = m.length := by
  unfold planWrite at h
  split at h
  · cases h
  simp only [bind, Except.bind] at h
  split at h
  · cases h
  rename_i offset? hoffset
  cases offset? with
  | none => exact .inr (offset?_none hoffset)
  | some offset =>
    simp only at h
    split at h
    · exact .inl (by assumption)
    split at h
    · cases h
    · split at h <;> cases h

theorem planWrite_some {count : Nat} {span : Span} (h : m.planWrite e count = .ok (some span)) :
    0 < count ∧ m.position + count ≤ m.length ∧ count ≤ e.bufferSize ∧
      m.region.base.toNat + m.length < 2 ^ 64 ∧
      span = { start := m.region.base.toNat + m.position, count } := by
  unfold planWrite at h
  split at h
  · cases h
  simp only [bind, Except.bind] at h
  split at h
  · cases h
  rename_i offset? hoffset
  cases offset? with
  | none => cases h
  | some offset =>
    obtain ⟨rfl, hinside⟩ := offset?_some hoffset
    simp only at h
    split at h
    · cases h
    rename_i hcount
    split at h
    · cases h
    rename_i hroom
    split at h
    · cases h
    rename_i pair hbounds
    obtain ⟨address, finish⟩ := pair
    obtain ⟨rfl, rfl, hfits⟩ := bounds_ok hbounds
    cases h
    exact ⟨Nat.pos_of_ne_zero hcount, by omega, by omega, hfits, rfl⟩

theorem planWrite_eq {count : Nat} (hwritable : m.region.permissions.canWrite = true)
    (hfits : m.region.base.toNat + m.length < 2 ^ 64) (hcount : 0 < count)
    (hroom : m.position + count ≤ m.length) (hsize : count ≤ e.bufferSize) :
    m.planWrite e count = .ok (some { start := m.region.base.toNat + m.position, count }) := by
  unfold planWrite
  rw [hwritable, offset?_eq (by omega)]
  simp only [Bool.not_true, Bool.false_eq_true, if_false, bind, Except.bind, if_neg (Nat.ne_of_gt hcount),
    bounds_eq hfits (show m.position ≤ m.length by omega)]
  rw [if_neg (by omega)]
  rfl

end MemoryEndpoint

end FpgaCard
