import FpgaCard.Proofs.Calls

/-!
# Reads deliver card memory

A read of a memory endpoint, on a card that is in use in any way. Main statement: it gives the caller
exactly the bytes at its position, or leaves everything as it was.
-/

namespace FpgaCard

open Simulation

deriving instance DecidableEq for MemoryResult

def MemoryResult.filled (r : MemoryResult) (buffer : List UInt8) : List UInt8 :=
  match r.result with
  | .error _ => buffer
  | .ok moved => moved.into buffer

namespace MemoryEndpoint

/-- How a read of the endpoint `m` into `buffer` ends, with these bytes in card memory. -/
structure ReadSpec (m : MemoryEndpoint) (buffer : List UInt8) (memory : Memory) (r : MemoryResult) :
    Prop where
  moved : ∀ moved, r.result = .ok moved → 0 < moved.count →
    moved.count ≤ buffer.length ∧ m.position + moved.count ≤ m.length ∧
    m.region.base.toNat + m.length < 2 ^ 64 ∧
    r.filled buffer = memory.read (UInt64.ofNat (m.region.base.toNat + m.position)) moved.count ++
      buffer.drop moved.count ∧
    r.endpoint = { m with position :=
      if m.position + moved.count = m.length then 0 else m.position + moved.count }
  nothing : ∀ moved, r.result = .ok moved → moved.count = 0 →
    (buffer = [] ∨ m.position = m.length) ∧ r.filled buffer = buffer ∧ r.endpoint = m
  failed : ∀ error, r.result = .error error → r.filled buffer = buffer ∧ r.endpoint = m

theorem asked_of_planRead {m : MemoryEndpoint} {e : Engine} {room n : Nat} {span : Span}
    (h : m.planRead e room = .ok (some span)) (hn : n ≤ span.count) (hpos : 0 < n)
    (haligned : n % e.alignment = 0) :
    0 < min room (n - span.skip) ∧ m.position + min room (n - span.skip) ≤ m.length := by
  obtain ⟨hroom, hinside, -, hskip, hstart, hend⟩ := planRead_some h
  -- What is skipped is less than one unit, and what was moved is a unit at least.
  have hunit : e.alignment ≤ n := Nat.le_of_dvd hpos (Nat.dvd_of_mod_eq_zero haligned)
  have hless := Nat.mod_lt m.position e.alignment_pos
  omega

end MemoryEndpoint

namespace MemoryCall

open MemoryEndpoint

theorem Ended.readSpec {m : MemoryEndpoint} {buffer : List UInt8} {e : Engine} {memory memory' : Memory}
    {r : MemoryResult} (h : Ended m (.read buffer.length) e memory r memory') :
    memory' = memory ∧ m.ReadSpec buffer memory r := by
  cases h with
  | failed error =>
    refine ⟨rfl, ?_, ?_, fun _ _ => ⟨rfl, rfl⟩⟩
    · intro moved h
      cases h
    · intro moved h
      cases h
  | nothing hplan =>
    refine ⟨rfl, ?_, ?_, ?_⟩
    · intro moved h hpos
      cases h
      exact absurd hpos (Nat.lt_irrefl 0)
    · intro moved h _
      cases h
      refine ⟨?_, rfl, rfl⟩
      obtain hroom | hend := planRead_none hplan
      · exact .inl (List.eq_nil_of_length_eq_zero hroom)
      · exact .inr hend
    · intro error h
      cases h
  | read room span n hrequest hplan hn hpos haligned =>
    cases hrequest
    obtain ⟨hsome, hwithin⟩ := asked_of_planRead hplan (by omega) hpos haligned
    obtain ⟨-, -, hfits, -, hstart, -⟩ := planRead_some hplan
    refine ⟨rfl, ?_, ?_, ?_⟩
    · intro moved h _
      cases h
      refine ⟨Nat.min_le_left _ _, hwithin, hfits, ?_, advance_eq hwithin⟩
      simp only [MemoryResult.filled, Moved.into, hstart, Memory.length_read]
    · intro moved h hzero
      cases h
      simp only at hzero
      omega
    · intro error h
      cases h
  | written _ _ _ hrequest => cases hrequest
  | killed _ _ _ hrequest => cases hrequest

end MemoryCall

/-- In every state that an attached card can be in, a read that comes to its end has left card memory
alone, whatever came between its steps, and has given the caller the bytes at its position, or none
and an endpoint as it was. -/
theorem Traffic.Reachable.read_delivers {allowed : Event → Bool} {s : Traffic} (hs : s.Reachable allowed)
    {m : MemoryEndpoint} {buffer : List UInt8} {moves : List Move}
    (hmoves : moves.all Move.sparesMemory = true) {r : MemoryResult} {c' : Channel Rig}
    (h : drive MemoryCall.step moves { endpoint := m, request := .read buffer.length } s.channel =
      (.finished r, c')) :
    c'.card.memory = s.channel.card.memory ∧ m.ReadSpec buffer s.channel.card.memory r :=
  (MemoryCall.drive_call hs.sound.fitted hmoves h).2.2.readSpec

def Traffic.filled : Traffic :=
  run { channel := smallChannel }
    [.move (.disturb (.bench (.poke 0x80000000 [1, 2, 3, 4, 5, 6, 7, 8]) rfl))]

theorem read_delivers_two :
    ∃ c', drive MemoryCall.step callMoves
        { endpoint := { smallEndpoint with position := 1 }, request := .read 2 } Traffic.filled.channel =
        (.finished ⟨{ smallEndpoint with position := 3 }, .ok { count := 2, data := [2, 3] }⟩, c') ∧
      c'.card.memory = Traffic.filled.channel.card.memory ∧
      MemoryEndpoint.ReadSpec { smallEndpoint with position := 1 } [0, 0]
        Traffic.filled.channel.card.memory
        ⟨{ smallEndpoint with position := 3 }, .ok { count := 2, data := [2, 3] }⟩ := by
  have hreachable : Traffic.filled.Reachable (fun _ => true) := (smallChannel_reachable _).run _ rfl
  have hread : (drive MemoryCall.step callMoves
      { endpoint := { smallEndpoint with position := 1 }, request := .read [(0 : UInt8), 0].length }
      Traffic.filled.channel).1 =
      .finished ⟨{ smallEndpoint with position := 3 }, .ok { count := 2, data := [2, 3] }⟩ := by
    decide +kernel
  exact ⟨_, Prod.ext hread rfl, hreachable.read_delivers rfl (Prod.ext hread rfl)⟩

end FpgaCard
