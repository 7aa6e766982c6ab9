import FpgaCard.Proofs.Calls

/-!
# Writes of any length to a region

A write to a region goes piece by piece through a memory endpoint, which returns to the region's start
when it reaches the end. Nothing compares the length of the whole with the region. Main statement: a
write that succeeds has put the data where it was asked to if the data fits behind the offset; if it
does not fit, it has gone round the region.
-/

namespace FpgaCard

open Simulation

/-! ## Calls one after the other -/

namespace RegionCall

def step (c : RegionCall) (channel : Channel Rig) : Outcome × Channel Rig :=
  ((c.call.step channel).1.lift (fun call => { c with call }) c.next, (c.call.step channel).2)

theorem drive_next {c : RegionCall} {moves : List Move} {channel channel' : Channel Rig}
    {r : RegionResult} (h : drive step moves c channel = (.finished r, channel')) :
    ∃ before after result between, moves = before ++ after ∧
      drive MemoryCall.step before c.call channel = (.finished result, between) ∧
      (c.next result).drive step after between = (.finished r, channel') := by
  induction moves generalizing c channel with
  | nil => simp [drive] at h
  | cons m moves ih =>
    cases m with
    | disturb d =>
      obtain ⟨before, after, result, between, rfl, hcall, hnext⟩ := ih h
      exact ⟨.disturb d :: before, after, result, between, rfl, hcall, hnext⟩
    | step =>
      rw [drive_step] at h
      cases hp : (c.call.step channel).1 with
      | going call =>
        simp only [step, hp, Progress.lift] at h
        obtain ⟨before, after, result, between, rfl, hcall, hnext⟩ := ih h
        refine ⟨.step :: before, after, result, between, rfl, ?_, hnext⟩
        rw [drive_step, hp]
        exact hcall
      | waiting call =>
        simp only [step, hp, Progress.lift] at h
        obtain ⟨before, after, result, between, rfl, hcall, hnext⟩ := ih h
        refine ⟨.step :: before, after, result, between, rfl, ?_, hnext⟩
        rw [drive_step, hp]
        exact hcall
      | finished result =>
        simp only [step, hp, Progress.lift] at h
        refine ⟨[.step], moves, result, (c.call.step channel).2, rfl, ?_, h⟩
        rw [drive_step, hp]
        rfl

end RegionCall

/-! ## Pieces -/

theorem MemoryCall.Ended.whole {m : MemoryEndpoint} {piece : List UInt8} {e : Engine}
    {memory memory' : Memory} {r : MemoryResult} (h : Ended m (.write piece) e memory r memory')
    {moved : Moved} (hok : r.result = .ok moved) (hwhole : moved.count = piece.length)
    (hpiece : piece ≠ []) :
    m.position + piece.length ≤ m.length ∧ m.region.base.toNat + m.length < 2 ^ 64 ∧
      memory' = memory.write (UInt64.ofNat (m.region.base.toNat + m.position)) piece ∧
      r.endpoint = m.advance piece.length := by
  cases h with
  | failed error => cases hok
  | nothing =>
    cases hok
    exact absurd (List.eq_nil_of_length_eq_zero hwhole.symm) hpiece
  | read _ _ _ hrequest => cases hrequest
  | written data span n hrequest hplan =>
    cases hrequest
    cases hok
    obtain ⟨-, hroom, -, hfits, rfl⟩ := MemoryEndpoint.planWrite_some hplan
    simp only at hwhole
    refine ⟨hroom, hfits, ?_, by rw [hwhole]⟩
    rw [hwhole, List.take_length]
  | killed => cases hok

namespace RegionCall

theorem next_place {size : Nat} {others : List (List UInt8)} {call : MemoryCall} {result : MemoryResult}
    {moves : List Move} {channel channel' : Channel Rig} {out : List UInt8}
    (h : (next ⟨.place size others, call⟩ result).drive step moves channel =
      (.finished (.ok out), channel')) :
    ∃ moved, result.result = .ok moved ∧ moved.count = size ∧
      (place result.endpoint others).drive step moves channel = (.finished (.ok out), channel') := by
  unfold next at h
  cases hresult : result.result with
  | error e => simp [hresult, Progress.drive] at h
  | ok moved =>
    simp only [hresult] at h
    split at h
    · exact ⟨moved, rfl, by assumption, h⟩
    · simp [Progress.drive] at h

/-- Pieces that were all taken have gone round the region from the position on, and have not passed
its end but where a whole piece ended. -/
theorem drive_place {size : Nat} (data : List UInt8) {m : MemoryEndpoint}
    (hm : m.position ≤ m.length) {channel channel' : Channel Rig} (hc : Fitted channel)
    {moves : List Move} (hmoves : moves.all Move.sparesMemory = true) {out : List UInt8}
    (hsize : size ≠ 0)
    (h : (place m (chunks size data)).drive step moves channel = (.finished (.ok out), channel')) :
    channel'.card.memory =
      channel.card.memory.writeAround m.region.base.toNat m.length m.position data ∧
    (data = [] ∨ m.position < m.length ∧ m.region.base.toNat + m.length < 2 ^ 64) ∧
    (m.position + data.length ≤ m.length ∨ size ∣ m.length - m.position) := by
  fun_induction chunks size data generalizing m channel moves with
  | case1 data hnone =>
    obtain rfl : data = [] := List.eq_nil_of_length_eq_zero (by omega)
    simp only [place, Progress.drive, Prod.mk.injEq] at h
    rw [← h.2]
    exact ⟨rfl, .inl rfl, .inl (by simpa using hm)⟩
  | case2 data hsome ih =>
    obtain ⟨before, after, result, between, rfl, hcall, hnext⟩ := drive_next h
    rw [List.all_append, Bool.and_eq_true] at hmoves
    obtain ⟨hbetween, -, hended⟩ := MemoryCall.drive_call hc hmoves.1 hcall
    obtain ⟨moved, hok, hwhole, hrest⟩ := next_place hnext
    have hpiece : data.take size ≠ [] := by
      simp only [ne_eq, List.take_eq_nil_iff, not_or]
      exact ⟨by omega, fun hnil => hsome (.inr (by rw [hnil]; rfl))⟩
    have hpos := List.length_pos_iff.2 hpiece
    obtain ⟨hroom, hfits, hmemory, hendpoint⟩ := hended.whole hok hwhole hpiece
    have hinside : m.position < m.length := by omega
    rw [hendpoint] at hrest
    have hregion : (m.advance (data.take size).length).region = m.region := rfl
    have hlength : (m.advance (data.take size).length).length = m.length := rfl
    have hposition := MemoryEndpoint.advance_position hroom
    have hless := Nat.mod_lt (m.position + (data.take size).length) (show 0 < m.length by omega)
    obtain ⟨hbytes, -, hend⟩ := ih (by rw [hposition, hlength]; omega) hbetween hmoves.2 hrest
    rw [hregion, hlength, hposition] at hbytes
    rw [hlength, hposition] at hend
    refine ⟨?_, .inr ⟨hinside, hfits⟩, ?_⟩
    · rw [hbytes, hmemory, ← Memory.writeAround_eq_write _ _ _ _ _ hroom,
        ← Memory.writeAround_append _ _ _ _ _ _ hinside, List.take_append_drop]
    · rw [List.length_take] at hroom hend
      rw [List.length_drop] at hend
      by_cases hlast : data.length ≤ size
      · left
        omega
      · rw [Nat.min_eq_left (by omega)] at hroom hend
        by_cases hexact : m.position + size = m.length
        · exact .inr ⟨1, by omega⟩
        · rw [Nat.mod_eq_of_lt (by omega)] at hend
          obtain hleft | hdvd := hend
          · left
            omega
          · right
            have hsplit : m.length - m.position = m.length - (m.position + size) + size := by omega
            rw [hsplit]
            exact Nat.dvd_add hdvd (Nat.dvd_refl size)

end RegionCall

/-- A write to a region that is driven to a successful end, in every state that an attached card can be
in. Where the data ends within the region it stands behind the offset, and nothing else has changed.
Otherwise whole pieces end with the region, and the data has gone round it. -/
theorem Traffic.Reachable.write_region {allowed : Event → Bool} {s : Traffic} (hs : s.Reachable allowed)
    {m : MemoryEndpoint} {offset : Nat} {data : List UInt8} {moves : List Move}
    (hmoves : moves.all Move.sparesMemory = true) {out : List UInt8} {c' : Channel Rig}
    (h : (RegionCall.start m s.channel.engine.bufferSize (.write offset data)).drive RegionCall.step moves
      s.channel = (.finished (.ok out), c')) :
    (data = [] ∨ offset + data.length ≤ m.length →
      s.channel.card.memory.Replaced c'.card.memory (m.region.base.toNat + offset) data) ∧
    (data ≠ [] → m.length < offset + data.length →
      offset < m.length ∧ s.channel.engine.bufferSize ∣ m.length - offset ∧
      c'.card.memory =
        s.channel.card.memory.writeAround m.region.base.toNat m.length offset data) := by
  have hfitted := hs.sound.fitted
  have hsize : s.channel.engine.bufferSize ≠ 0 := by
    have := hfitted.engine.pos
    have := hfitted.engine.maxTransfer
    omega
  unfold RegionCall.start at h
  simp only at h
  cases hseek : m.seek (.start offset) with
  | error e => simp [hseek, Progress.drive] at h
  | ok m' =>
    obtain ⟨hoffset, rfl⟩ := MemoryEndpoint.seek_start hseek
    have hlength : MemoryEndpoint.length { m with position := offset } = m.length := rfl
    simp only [hseek] at h
    obtain ⟨hmemory, hinside, hend⟩ := RegionCall.drive_place data hoffset hfitted hmoves hsize h
    rw [hlength] at hmemory hinside hend
    constructor
    · intro hcase
      obtain rfl | ⟨hless, htop⟩ := hinside
      · rw [hmemory]
        exact Memory.replaced_nil _ _
      · have hfits : offset + data.length ≤ m.length := by
          obtain rfl | hfits := hcase
          · exact hoffset
          · exact hfits
        rw [hmemory, Memory.writeAround_eq_write _ _ _ _ _ hfits]
        exact Memory.replaced_write _ _ _ (by omega) (by omega)
    · intro hdata hover
      obtain hnil | ⟨hless, -⟩ := hinside
      · exact absurd hnil hdata
      · obtain hfits | hdvd := hend
        · exact absurd hover (Nat.not_lt.2 hfits)
        · exact ⟨hless, hdvd, hmemory⟩

theorem write_region_small :
    (∃ c', (RegionCall.start smallEndpoint 4 (.write 4 [1, 2, 3, 4])).drive RegionCall.step callMoves
        smallChannel = (.finished (.ok []), c') ∧
      smallChannel.card.memory.Replaced c'.card.memory 0x80000004 [1, 2, 3, 4]) ∧
    ∃ c', (RegionCall.start smallEndpoint 4 (.write 4 [1, 2, 3, 4, 5, 6, 7, 8])).drive RegionCall.step
        (callMoves ++ callMoves) smallChannel = (.finished (.ok []), c') ∧
      c'.card.memory = smallChannel.card.memory.writeAround 0x80000000 8 4 [1, 2, 3, 4, 5, 6, 7, 8] := by
  have hreachable := smallChannel_reachable fun _ => true
  have hfour : ((RegionCall.start smallEndpoint 4 (.write 4 [1, 2, 3, 4])).drive RegionCall.step
      callMoves smallChannel).1 = .finished (.ok []) := by
    decide +kernel
  have height : ((RegionCall.start smallEndpoint 4 (.write 4 [1, 2, 3, 4, 5, 6, 7, 8])).drive
      RegionCall.step (callMoves ++ callMoves) smallChannel).1 = .finished (.ok []) := by
    decide +kernel
  refine ⟨⟨_, Prod.ext hfour rfl, ?_⟩, _, Prod.ext height rfl, ?_⟩
  · exact (hreachable.write_region rfl (Prod.ext hfour rfl)).1 (.inr (by decide))
  · exact ((hreachable.write_region rfl (Prod.ext height rfl)).2 (by decide) (by decide)).2.2

/-- Eight bytes behind the fourth of eight: the write succeeds, and its second half is where the
region starts. -/
theorem write_goes_round :
    ∃ c', (RegionCall.start smallEndpoint 4 (.write 4 [1, 2, 3, 4, 5, 6, 7, 8])).drive RegionCall.step
        (callMoves ++ callMoves) smallChannel = (.finished (.ok []), c') ∧
      Traffic.Reachable (fun _ => true) { channel := smallChannel } ∧
      smallEndpoint.length < 4 + [1, 2, 3, 4, 5, 6, 7, 8].length ∧
      smallChannel.card.memory.read 0x80000000 8 = [0, 0, 0, 0, 0, 0, 0, 0] ∧
      c'.card.memory.read 0x80000000 8 = [5, 6, 7, 8, 1, 2, 3, 4] := by
  refine ⟨_, Prod.ext ?_ rfl, smallChannel_reachable _, ?_, ?_, ?_⟩ <;> decide +kernel

end FpgaCard
