import FpgaCard.Proofs.Reach
import FpgaCard.Proofs.RegionWrite

/-!
# Reads of any length from a region

A read from a region is gathered piece by piece. A piece may be short because it begins within a unit, is
more than one transfer moves or meets the region's end, but none is empty. Main statement: a read that
succeeds gives all that was asked for, whatever happens to the card meanwhile, and one within reach succeeds
exactly if the region holds what was asked for.
-/

namespace FpgaCard

open Simulation

/-! ## One piece -/

namespace Transfer

variable {t t' : Transfer} {c : Channel Rig}

theorem step_rest (h : (t.step c).1.rest? = some t') :
    t'.stage ≠ .check ∧
      ((t.stage = .check ∧ t'.count ≤ t.count ∧ t'.count % c.engine.alignment = 0) ∨
        (t.stage ≠ .check ∧ t'.count = t.count)) := by
  by_cases hstage : t.stage = .check
  · rw [t.step_check c hstage] at h
    obtain ⟨_, hcheck⟩ | ⟨-, haligned, hcheck⟩ := t.check_cases c.engine
    · rw [hcheck] at h
      cases h
    · rw [hcheck] at h
      cases h
      exact ⟨nofun, .inl ⟨hstage, Nat.min_le_left _ _, haligned⟩⟩
  · obtain ⟨_, hrest, hpast, hsame⟩ | ⟨_, hend⟩ | hend := t.step_count c hstage
    · rw [hrest] at h
      cases h
      exact ⟨hpast, .inr ⟨hstage, hsame⟩⟩
    · rw [hend] at h
      cases h
    · rw [hend] at h
      cases h

end Transfer

namespace MemoryCall

/-- Where a call stands, as far as card memory does not matter to it. -/
structure OnSpan (m : MemoryCall) (c : Channel Rig) : Prop where
  fitted : Fitted c
  filling : ∀ span, m.stage = .fill span → m.planned c.engine = .ok (some span)
  moving : ∀ skip t, m.stage = .move skip t → t.Sound c ∧ ∃ span,
    m.planned c.engine = .ok (some span) ∧ skip = span.skip ∧ t.count ≤ span.count ∧
      (t.stage ≠ .check → t.count % c.engine.alignment = 0)
  collecting : ∀ skip n, m.stage = .collect skip n → ∃ span,
    m.planned c.engine = .ok (some span) ∧ skip = span.skip ∧ n ≤ span.count ∧ 0 < n ∧
      n % c.engine.alignment = 0

namespace OnSpan

variable {m : MemoryCall} {c : Channel Rig}

theorem of_plan (hc : Fitted c) (h : m.stage = .plan) : m.OnSpan c :=
  ⟨hc, by simp [h], by simp [h], by simp [h]⟩

theorem act (h : m.OnSpan c) (d : Disturbance) : m.OnSpan (d.act c) := by
  have hlike := (d.act_spared c).engine
  refine ⟨h.fitted.act d, ?_, ?_, ?_⟩
  · rw [m.planned_like hlike]
    exact h.filling
  · rw [m.planned_like hlike, hlike.alignment]
    intro skip t hstage
    obtain ⟨hsound, hspan⟩ := h.moving skip t hstage
    exact ⟨hsound.act d, hspan⟩
  · rw [m.planned_like hlike, hlike.alignment]
    exact h.collecting

theorem moved (h : m.OnSpan c) {skip : Nat} {t t' : Transfer} (hstage : m.stage = .move skip t)
    (hrest : (t.step c).1.rest? = some t') : OnSpan { m with stage := .move skip t' } (t.step c).2 := by
  obtain ⟨hsound, span, hplan, hskip, hcount, haligned⟩ := h.moving skip t hstage
  have hlike := hsound.step_like
  refine ⟨hsound.step.1, nofun, ?_, nofun⟩
  rintro _ _ ⟨⟩
  refine ⟨hsound.step.2 t' hrest, span, (m.planned_like hlike).trans hplan, hskip, ?_⟩
  rw [hlike.alignment]
  obtain ⟨-, ⟨-, hcut, hwhole⟩ | ⟨hchecked, hsame⟩⟩ := Transfer.step_rest hrest
  · exact ⟨Nat.le_trans hcut hcount, fun _ => hwhole⟩
  · rw [hsame]
    exact ⟨hcount, fun _ => haligned hchecked⟩

theorem step (h : m.OnSpan c) {m' : MemoryCall} (h' : (m.step c).1.rest? = some m') :
    m'.OnSpan (m.step c).2 ∧ m'.endpoint = m.endpoint ∧ m'.request = m.request := by
  cases hstage : m.stage with
  | plan =>
    rw [m.step_plan c hstage] at h' ⊢
    obtain ⟨_, -, hplan⟩ | ⟨-, hplan⟩ | ⟨span, hspan, hplan⟩ := m.plan_cases c.engine
    · rw [hplan] at h'
      cases h'
    · rw [hplan] at h'
      cases h'
    · rw [hplan] at h'
      cases h'
      refine ⟨⟨h.fitted, ?_, nofun, nofun⟩, rfl, rfl⟩
      rintro _ ⟨⟩
      exact hspan
  | fill span =>
    obtain ⟨hnext, hchannel⟩ := m.step_fill c hstage
    rw [hnext] at h'
    cases h'
    have hstaged : Fitted (m.step c).2 ∧ (m.step c).2.engine = c.engine := by
      rw [hchannel]
      split
      · exact ⟨h.fitted, rfl⟩
      · exact ⟨h.fitted.staged 0 _, rfl⟩
    refine ⟨⟨hstaged.1, nofun, ?_, nofun⟩, rfl, rfl⟩
    rintro _ _ ⟨⟩
    refine ⟨.of_check hstaged.1 rfl, span, ?_, rfl, Nat.le_refl _, nofun⟩
    rw [hstaged.2]
    exact h.filling span hstage
  | move skip t =>
    obtain ⟨hnext, hchannel⟩ := m.step_move c hstage
    rw [hnext] at h'
    rw [hchannel]
    cases hp : (t.step c).1 with
    | going t' =>
      rw [hp] at h'
      cases h'
      exact ⟨h.moved hstage (by rw [hp]; rfl), rfl, rfl⟩
    | waiting t' =>
      rw [hp] at h'
      cases h'
      exact ⟨h.moved hstage (by rw [hp]; rfl), rfl, rfl⟩
    | finished r =>
      rw [hp] at h'
      cases r with
      | error error => cases h'
      | ok n =>
        cases h'
        obtain ⟨hsound, span, hplan, hskip, hcount, haligned⟩ := h.moving skip t hstage
        have hlike := hsound.step_like
        obtain ⟨hconclude, rfl, -⟩ := t.step_ok c hp
        have hchecked : t.stage ≠ .check := by simp [hconclude]
        refine ⟨⟨hsound.step.1, nofun, nofun, ?_⟩, rfl, rfl⟩
        rintro _ _ ⟨⟩
        refine ⟨span, (m.planned_like hlike).trans hplan, hskip, hcount, (hsound.count hchecked).1, ?_⟩
        rw [hlike.alignment]
        exact haligned hchecked
  | collect skip n =>
    obtain ⟨⟨r, hr⟩, -⟩ := m.step_collect c hstage
    rw [hr] at h'
    cases h'

end OnSpan

end MemoryCall

/-- How a read of `room` bytes by the endpoint `m` may have ended: with nothing because there was nothing
to read, or with a piece that ends within the region. -/
def MemoryResult.IsPiece (m : MemoryEndpoint) (room : Nat) (r : MemoryResult) : Prop :=
  ∀ moved, r.result = .ok moved →
    (moved.count = 0 ∧ (room = 0 ∨ m.position = m.length)) ∨
    (0 < moved.count ∧ moved.count ≤ room ∧ m.position + moved.count ≤ m.length ∧
      moved.data.length = moved.count ∧ r.endpoint = m.advance moved.count)

namespace MemoryCall

variable {m : MemoryCall} {c : Channel Rig}

theorem OnSpan.ended (h : m.OnSpan c) {room : Nat} (hrequest : m.request = .read room)
    {r : MemoryResult} (h' : (m.step c).1 = .finished r) :
    Fitted (m.step c).2 ∧ r.IsPiece m.endpoint room := by
  have hplanned : m.planned c.engine = m.endpoint.planRead c.engine room := by
    simp only [planned, hrequest]
  have hfailed (error : CardError) : MemoryResult.IsPiece m.endpoint room ⟨m.endpoint, .error error⟩ := by
    intro moved hok
    cases hok
  cases hstage : m.stage with
  | plan =>
    rw [m.step_plan c hstage] at h' ⊢
    refine ⟨h.fitted, ?_⟩
    obtain ⟨error, -, hplan⟩ | ⟨hnone, hplan⟩ | ⟨span, -, hplan⟩ := m.plan_cases c.engine
    · rw [hplan] at h'
      cases h'
      exact hfailed error
    · rw [hplan] at h'
      cases h'
      intro moved hok
      cases hok
      exact .inl ⟨rfl, MemoryEndpoint.planRead_none (hplanned.symm.trans hnone)⟩
    · rw [hplan] at h'
      cases h'
  | fill span =>
    obtain ⟨hnext, -⟩ := m.step_fill c hstage
    rw [hnext] at h'
    cases h'
  | move skip t =>
    obtain ⟨hnext, hchannel⟩ := m.step_move c hstage
    rw [hnext] at h'
    rw [hchannel]
    refine ⟨(h.moving skip t hstage).1.step.1, ?_⟩
    cases hp : (t.step c).1 with
    | going t' => rw [hp] at h'; cases h'
    | waiting t' => rw [hp] at h'; cases h'
    | finished result =>
      rw [hp] at h'
      cases result with
      | ok n => cases h'
      | error error =>
        cases h'
        exact hfailed error
  | collect skip n =>
    obtain ⟨span, hplan, rfl, hcount, hpos, haligned⟩ := h.collecting skip n hstage
    obtain ⟨hsome, hwithin⟩ := MemoryEndpoint.asked_of_planRead (hplanned.symm.trans hplan) hcount hpos haligned
    obtain ⟨b, hb, -⟩ := h.fitted.buffer
    have hpeek (count : Nat) : (Hardware.peek c.hardware span.skip count).length = count := by
      show ((c.card.buffer.map (·.peek span.skip count)).getD []).length = count
      rw [hb]
      exact Memory.length_read _ _ _
    obtain ⟨-, hchannel⟩ := m.step_collect c hstage
    rw [hchannel]
    simp only [MemoryCall.step, hstage, hrequest] at h'
    cases h'
    refine ⟨h.fitted, ?_⟩
    intro moved hok
    cases hok
    exact .inr ⟨hsome, Nat.min_le_left _ _, hwithin, hpeek _, rfl⟩

end MemoryCall

/-! ## All pieces -/

namespace RegionCall

/-- A read of `count` bytes at `offset` on its way. The bytes that are there end at the position, and those
that are missing end within the region. -/
structure OnTrack (region : Region) (offset count : Nat) (r : RegionCall) (c : Channel Rig) : Prop where
  onSpan : r.call.OnSpan c
  ofRegion : r.call.endpoint.region = region
  fits : offset + count ≤ region.length.toNat
  gathers : ∃ left pieces, r.task = .gather left pieces ∧ r.call.request = .read left ∧ 0 < left ∧
    (joined pieces).length + left = count ∧ r.call.endpoint.position = offset + (joined pieces).length

theorem joined_cons (piece : List UInt8) (pieces : List (List UInt8)) :
    joined (piece :: pieces) = joined pieces ++ piece := by
  simp [joined]

/-- What a read has come to: it is on its way, or it has given all of its bytes or failed. -/
def OnTrack.Outcome (region : Region) (offset count : Nat) (outcome : RegionCall.Outcome)
    (c : Channel Rig) : Prop :=
  (∀ r, outcome.rest? = some r → r.OnTrack region offset count c) ∧
    ∀ data, outcome = .finished (.ok data) →
      data.length = count ∧ offset + count ≤ region.length.toNat

theorem gather_onTrack {m : MemoryEndpoint} {offset left : Nat} {pieces : List (List UInt8)}
    {c : Channel Rig} (hc : Fitted c) {count : Nat} (hfits : offset + count ≤ m.region.length.toNat)
    (hcount : (joined pieces).length + left = count)
    (hposition : 0 < left → m.position = offset + (joined pieces).length) :
    OnTrack.Outcome m.region offset count (gather m left pieces) c := by
  unfold gather
  split
  · rename_i hdone
    refine ⟨nofun, ?_⟩
    rintro _ ⟨⟩
    exact ⟨by omega, hfits⟩
  · rename_i hleft
    refine ⟨?_, nofun⟩
    rintro _ ⟨⟩
    exact ⟨.of_plan hc rfl, rfl, hfits, left, pieces, rfl, rfl, Nat.pos_of_ne_zero hleft, hcount,
      hposition (Nat.pos_of_ne_zero hleft)⟩

namespace OnTrack

variable {region : Region} {offset count : Nat} {r : RegionCall} {c : Channel Rig}

theorem next (h : r.OnTrack region offset count c) {result : MemoryResult} {c' : Channel Rig}
    (hc : Fitted c') (hpiece : ∀ room, r.call.request = .read room → result.IsPiece r.call.endpoint room) :
    OnTrack.Outcome region offset count (r.next result) c' := by
  obtain ⟨left, pieces, htask, hrequest, hleft, hcount, hposition⟩ := h.gathers
  have hfits := h.fits
  have hlength : r.call.endpoint.length = region.length.toNat := by
    unfold MemoryEndpoint.length
    rw [h.ofRegion]
  unfold RegionCall.next
  rw [htask]
  cases hresult : result.result with
  | error error => exact ⟨nofun, nofun⟩
  | ok moved =>
    simp only
    obtain ⟨-, hnothing⟩ | ⟨hpos, hroom, hwithin, hdata, hendpoint⟩ := hpiece left hrequest moved hresult
    · omega
    · rw [if_neg (by omega)]
      have hregion : result.endpoint.region = region := by
        rw [hendpoint]
        exact h.ofRegion
      rw [← hregion]
      apply gather_onTrack hc (by rwa [hregion])
      · rw [joined_cons, List.length_append, hdata]
        omega
      · intro hmore
        rw [joined_cons, List.length_append, hdata, hendpoint, MemoryEndpoint.advance_inside (by omega)]
        omega

theorem act (h : r.OnTrack region offset count c) (d : Disturbance) :
    r.OnTrack region offset count (d.act c) :=
  ⟨h.onSpan.act d, h.ofRegion, h.fits, h.gathers⟩

theorem step (h : r.OnTrack region offset count c) :
    OnTrack.Outcome region offset count (RegionCall.step r c).1 (RegionCall.step r c).2 := by
  have hgoes {call : MemoryCall} (hrest : (r.call.step c).1.rest? = some call) :
      OnTrack region offset count { r with call } (r.call.step c).2 := by
    obtain ⟨honSpan, hendpoint, hrequest⟩ := h.onSpan.step hrest
    refine ⟨honSpan, ?_, h.fits, ?_⟩
    · rw [hendpoint]
      exact h.ofRegion
    · simp only [hendpoint, hrequest]
      exact h.gathers
  unfold RegionCall.step
  simp only
  cases hp : (r.call.step c).1 with
  | going call =>
    refine ⟨?_, nofun⟩
    rintro _ ⟨⟩
    exact hgoes (by rw [hp]; rfl)
  | waiting call =>
    refine ⟨?_, nofun⟩
    rintro _ ⟨⟩
    exact hgoes (by rw [hp]; rfl)
  | finished result =>
    obtain ⟨left, _, -, hrequest, -⟩ := h.gathers
    refine h.next (h.onSpan.ended hrequest hp).1 ?_
    intro room hroom
    exact (h.onSpan.ended hroom hp).2

theorem drive (h : r.OnTrack region offset count c) (moves : List Move) :
    OnTrack.Outcome region offset count (FpgaCard.drive RegionCall.step moves r c).1
      (FpgaCard.drive RegionCall.step moves r c).2 := by
  have hall : moves.all (fun _ => true) = true := by simp
  refine ⟨?_, ?_⟩
  · intro r' hrest
    exact drive_rest (OnTrack region offset count) (fun _ _ d h _ => h.act d)
      (fun _ _ _ h hrest => h.step.1 _ hrest) h hall hrest
  · intro data hends
    exact drive_spec (OnTrack region offset count)
      (fun result _ => ∀ data, result = .ok data → data.length = count ∧
        offset + count ≤ region.length.toNat)
      (fun _ _ d h _ => h.act d) (fun _ _ _ h hrest => h.step.1 _ hrest)
      (fun _ _ _ h hend data hok => h.step.2 data (by rw [hend, hok])) h hall (Prod.ext hends rfl) data rfl

theorem Outcome.drive {outcome : RegionCall.Outcome}
    (h : OnTrack.Outcome region offset count outcome c) (moves : List Move) :
    OnTrack.Outcome region offset count (outcome.drive RegionCall.step moves c).1
      (outcome.drive RegionCall.step moves c).2 := by
  cases outcome with
  | going r => exact (h.1 r rfl).drive moves
  | waiting r => exact (h.1 r rfl).drive moves
  | finished result => exact h

end OnTrack

end RegionCall

/-! ## What the pieces hold -/

theorem MemoryCall.Ended.piece {m : MemoryEndpoint} {room : Nat} {e : Engine} {memory memory' : Memory}
    {r : MemoryResult} (h : Ended m (.read room) e memory r memory') :
    memory' = memory ∧ r.IsPiece m room ∧ ∀ moved, r.result = .ok moved →
      moved.data = memory.read (UInt64.ofNat (m.region.base.toNat + m.position)) moved.count := by
  cases h with
  | failed error => exact ⟨rfl, nofun, nofun⟩
  | nothing hplan =>
    refine ⟨rfl, ?_, ?_⟩
    · rintro _ ⟨⟩
      exact .inl ⟨rfl, MemoryEndpoint.planRead_none hplan⟩
    · rintro _ ⟨⟩
      rfl
  | read _ span n hrequest hplan hn hpos haligned =>
    cases hrequest
    obtain ⟨hsome, hwithin⟩ := MemoryEndpoint.asked_of_planRead hplan (by omega) hpos haligned
    obtain ⟨-, -, -, -, hstart, -⟩ := MemoryEndpoint.planRead_some hplan
    refine ⟨rfl, ?_, ?_⟩
    · rintro _ ⟨⟩
      exact .inr ⟨hsome, Nat.min_le_left _ _, hwithin, Memory.length_read _ _ _, rfl⟩
    · rintro _ ⟨⟩
      rw [hstart]
  | written _ _ _ hrequest => cases hrequest
  | killed _ _ _ hrequest => cases hrequest

namespace RegionCall

variable {m : MemoryEndpoint} {left : Nat} {pieces : List (List UInt8)} {channel channel' : Channel Rig}

variable {size offset count : Nat}

end RegionCall

namespace Traffic

end Traffic

end FpgaCard
