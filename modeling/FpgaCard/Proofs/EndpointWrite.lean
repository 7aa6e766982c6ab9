import FpgaCard.Proofs.EndpointRead

/-!
# Writes store their data or nothing

A write through a memory endpoint, on a card that is in use in any way. Main statement: it puts as much
of its data as one transfer moves at its position and nowhere else, or it leaves card memory and the
position as they were; only of a killed write is it open which of the two happened to card memory.
-/

namespace FpgaCard

open Simulation

namespace MemoryEndpoint

/-- The first `n` bytes of `data` stand at the position of `m`, within its region, and nothing else has
changed in memory. -/
structure Stored (m : MemoryEndpoint) (data : List UInt8) (n : Nat) (before after : Memory) : Prop where
  inside : m.position + n ≤ m.length
  addressable : m.region.base.toNat + m.length < 2 ^ 64
  replaced : before.Replaced after (m.region.base.toNat + m.position) (data.take n)

structure WriteSpec (m : MemoryEndpoint) (data : List UInt8) (most : Nat) (before after : Memory)
    (r : MemoryResult) : Prop where
  moved : ∀ moved, r.result = .ok moved → 0 < moved.count →
    moved.count = min data.length most ∧ m.Stored data moved.count before after ∧
    r.endpoint = { m with position :=
      if m.position + moved.count = m.length then 0 else m.position + moved.count }
  nothing : ∀ moved, r.result = .ok moved → moved.count = 0 →
    (data = [] ∨ m.position = m.length) ∧ after = before ∧ r.endpoint = m
  failed : ∀ error, r.result = .error error → error ≠ .transferKilled → after = before ∧ r.endpoint = m
  killed : r.result = .error .transferKilled →
    r.endpoint = m ∧ (after = before ∨ m.Stored data (min data.length most) before after)

theorem stored_of_planWrite {m : MemoryEndpoint} {e : Engine} {data : List UInt8} {span : Span}
    (h : m.planWrite e data.length = .ok (some span)) {n : Nat} (hn : n ≤ span.count) (memory : Memory) :
    m.Stored data n memory (memory.write (UInt64.ofNat span.start) (data.take n)) := by
  obtain ⟨-, hroom, -, hfits, rfl⟩ := planWrite_some h
  have hlen : (data.take n).length ≤ n := List.length_take_le n data
  simp only at hn ⊢
  refine ⟨by omega, hfits, ?_⟩
  exact Memory.replaced_write _ _ _ (by omega) (by omega)

end MemoryEndpoint

namespace MemoryCall

open MemoryEndpoint

theorem Ended.writeSpec {m : MemoryEndpoint} {data : List UInt8} {e : Engine} {memory memory' : Memory}
    {r : MemoryResult} (h : Ended m (.write data) e memory r memory') :
    m.WriteSpec data e.maxTransfer memory memory' r := by
  cases h with
  | failed error =>
    refine ⟨?_, ?_, fun _ _ _ => ⟨rfl, rfl⟩, fun _ => ⟨rfl, .inl rfl⟩⟩
    · intro moved h
      cases h
    · intro moved h
      cases h
  | nothing hplan =>
    refine ⟨?_, ?_, ?_, ?_⟩
    · intro moved h hpos
      cases h
      exact absurd hpos (Nat.lt_irrefl 0)
    · intro moved h _
      cases h
      refine ⟨?_, rfl, rfl⟩
      obtain hlength | hend := planWrite_none hplan
      · exact .inl (List.eq_nil_of_length_eq_zero hlength)
      · exact .inr hend
    · intro error h
      cases h
    · intro h
      cases h
  | read _ _ _ hrequest => cases hrequest
  | written data' span n hrequest hplan hn hpos =>
    cases hrequest
    have hstored := stored_of_planWrite hplan (by omega : n ≤ span.count) memory
    obtain ⟨-, -, -, -, rfl⟩ := planWrite_some hplan
    refine ⟨?_, ?_, ?_, ?_⟩
    · intro moved h _
      cases h
      exact ⟨hn, hstored, advance_eq hstored.inside⟩
    · intro moved h hzero
      cases h
      exact absurd hpos (Nat.not_lt.2 (Nat.le_of_eq hzero))
    · intro error h
      cases h
    · intro h
      cases h
  | killed data' span n hrequest hplan hn =>
    cases hrequest
    have hstored := stored_of_planWrite hplan (by omega : n ≤ span.count) memory
    obtain ⟨-, -, -, -, rfl⟩ := planWrite_some hplan
    simp only at hn
    refine ⟨?_, ?_, ?_, ?_⟩
    · intro moved h
      cases h
    · intro moved h
      cases h
    · intro error h hother
      cases h
      exact absurd rfl hother
    · intro _
      exact ⟨rfl, .inr (hn ▸ hstored)⟩

end MemoryCall

/-- In every state that an attached card can be in, a write that comes to its end has stored its data
at its position, as much as one transfer moves, or nothing at all, whatever came between its steps. -/
theorem Traffic.Reachable.write_stores {allowed : Event → Bool} {s : Traffic} (hs : s.Reachable allowed)
    {m : MemoryEndpoint} {data : List UInt8} {moves : List Move}
    (hmoves : moves.all Move.sparesMemory = true) {r : MemoryResult} {c' : Channel Rig}
    (h : drive MemoryCall.step moves { endpoint := m, request := .write data } s.channel =
      (.finished r, c')) :
    m.WriteSpec data s.channel.engine.maxTransfer s.channel.card.memory c'.card.memory r :=
  (MemoryCall.drive_call hs.sound.fitted hmoves h).2.2.writeSpec

theorem write_stores_four :
    (∃ c', drive MemoryCall.step callMoves
        { endpoint := { smallEndpoint with position := 4 }, request := .write [1, 2, 3, 4] } smallChannel =
        (.finished ⟨smallEndpoint, .ok { count := 4 }⟩, c') ∧
      MemoryEndpoint.WriteSpec { smallEndpoint with position := 4 } [1, 2, 3, 4] 4
        smallChannel.card.memory c'.card.memory ⟨smallEndpoint, .ok { count := 4 }⟩) ∧
    ∃ c', drive MemoryCall.step (List.replicate 8 .step ++ [.disturb .kill, .step])
        { endpoint := smallEndpoint, request := .write [1, 2, 3, 4] } smallChannel =
        (.finished ⟨smallEndpoint, .error .transferKilled⟩, c') ∧
      MemoryEndpoint.WriteSpec smallEndpoint [1, 2, 3, 4] 4 smallChannel.card.memory c'.card.memory
        ⟨smallEndpoint, .error .transferKilled⟩ := by
  have hreachable := smallChannel_reachable fun _ => true
  have hwritten : (drive MemoryCall.step callMoves
      { endpoint := { smallEndpoint with position := 4 }, request := .write [1, 2, 3, 4] }
      smallChannel).1 = .finished ⟨smallEndpoint, .ok { count := 4 }⟩ := by
    decide +kernel
  have hkilled : (drive MemoryCall.step (List.replicate 8 .step ++ [.disturb .kill, .step])
      { endpoint := smallEndpoint, request := .write [1, 2, 3, 4] } smallChannel).1 =
      .finished ⟨smallEndpoint, .error .transferKilled⟩ := by
    decide +kernel
  exact ⟨⟨_, Prod.ext hwritten rfl, hreachable.write_stores rfl (Prod.ext hwritten rfl)⟩,
    _, Prod.ext hkilled rfl, hreachable.write_stores rfl (Prod.ext hkilled rfl)⟩

end FpgaCard
