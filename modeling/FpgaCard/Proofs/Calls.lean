import FpgaCard.Proofs.Movement
import FpgaCard.Proofs.Plans

/-!
# What a call of a memory endpoint moves

A call plans a span, has the engine move it, and takes its own part of it. Main statement: what a call
leaves in card memory and gives to its caller follows from the span that it planned.
-/

namespace FpgaCard

open Simulation

def Span.errand (span : Span) (direction : Direction) (memory view : Memory) : Errand :=
  ⟨UInt64.ofNat span.start, span.count, direction, memory, view⟩

namespace MemoryCall

/-- Where a call stands that was made with the engine `e` and card memory `memory`. -/
inductive At (call : MemoryCall) (e : Engine) (memory : Memory) (c : Channel Rig) : Prop where
  | plan : call.stage = .plan → c.card.memory = memory → call.At e memory c
  | fill (span : Span) : call.stage = .fill span → c.card.memory = memory →
      call.planned e = .ok (some span) → call.At e memory c
  | move (span : Span) (view : Memory) (t : Transfer) : call.stage = .move span.skip t →
      call.planned e = .ok (some span) →
      (∀ data, call.request = .write data → ∃ old : Memory, view = old.write 0 data) →
      (span.errand call.direction memory view).Underway e t c → call.At e memory c
  | collect (span : Span) (view : Memory) (moved : Nat) : call.stage = .collect span.skip moved →
      call.planned e = .ok (some span) →
      (∀ data, call.request = .write data → ∃ old : Memory, view = old.write 0 data) →
      (span.errand call.direction memory view).Done e c (.ok moved) → call.At e memory c

structure Underway (m : MemoryEndpoint) (request : MemoryRequest) (e : Engine) (memory : Memory)
    (call : MemoryCall) (c : Channel Rig) : Prop where
  fitted : Fitted c
  like : e.Like c.engine
  endpoint : call.endpoint = m
  request : call.request = request
  stands : call.At e memory c

theorem planned_like (call : MemoryCall) {e e' : Engine} (h : e.Like e') :
    call.planned e' = call.planned e := by
  obtain ⟨_, _, rfl⟩ := h
  cases hrequest : call.request <;> simp only [planned, hrequest] <;> rfl

namespace Underway

variable {m : MemoryEndpoint} {request : MemoryRequest} {e : Engine} {memory : Memory}
  {call : MemoryCall} {c : Channel Rig}

theorem act (h : Underway m request e memory call c) (d : Disturbance)
    (hspares : (Move.disturb d).sparesMemory = true) :
    Underway m request e memory call (d.act c) := by
  have hspared := d.act_spared c
  have hmemory := d.act_memory c hspares
  refine ⟨h.fitted.act d, h.like.trans hspared.engine, h.endpoint, h.request, ?_⟩
  cases h.stands with
  | plan hstage hm => exact .plan hstage (by rw [hmemory, hm])
  | fill span hstage hm hplan => exact .fill span hstage (by rw [hmemory, hm]) hplan
  | move span view t hstage hplan hview hmove =>
    exact .move span view t hstage hplan hview (hmove.act d hspares)
  | collect span view moved hstage hplan hview hdone =>
    refine .collect span view moved hstage hplan hview ?_
    unfold Errand.Done at hdone ⊢
    rw [hmemory, hspared.buffer]
    exact hdone

theorem step (h : Underway m request e memory call c) {call' : MemoryCall}
    (h' : (call.step c).1.rest? = some call') :
    Underway m request e memory call' (call.step c).2 := by
  cases h.stands with
  | plan hstage hm =>
    rw [call.step_plan c hstage] at h' ⊢
    obtain ⟨_, -, hplan⟩ | ⟨-, hplan⟩ | ⟨span, hspan, hplan⟩ := call.plan_cases c.engine
    · rw [hplan] at h'
      cases h'
    · rw [hplan] at h'
      cases h'
    · rw [hplan] at h'
      cases h'
      rw [call.planned_like h.like] at hspan
      exact ⟨h.fitted, h.like, h.endpoint, h.request, .fill span rfl hm hspan⟩
  | fill span hstage hm hplan =>
    obtain ⟨hnext, hchannel⟩ := call.step_fill c hstage
    rw [hnext] at h'
    cases h'
    obtain ⟨b, hb, -, -⟩ := h.fitted.buffer
    let t : Transfer :=
      { start := UInt64.ofNat span.start, count := span.count, direction := call.direction }
    obtain ⟨room, hrequest⟩ | ⟨data, hrequest⟩ :
        (∃ room, call.request = .read room) ∨ ∃ data, call.request = .write data := by
      cases call.request <;> simp
    · rw [hrequest] at hchannel
      rw [hchannel]
      have hmove := Errand.underway_of_check t h.fitted h.like hb rfl
      rw [hm] at hmove
      exact ⟨h.fitted, h.like, h.endpoint, h.request,
        .move span b.hostView t rfl hplan (fun data hdata => by simp [hrequest] at hdata) hmove⟩
    · rw [hrequest] at hchannel
      rw [hchannel]
      have hfitted := h.fitted.staged 0 data
      have hbuffer : (c.staged 0 data).card.buffer = some (b.poke 0 data) := by
        show c.card.buffer.map _ = _
        rw [hb]
        rfl
      have hmove := Errand.underway_of_check t hfitted h.like hbuffer rfl
      have hm' : (c.staged 0 data).card.memory = memory := hm
      rw [hm'] at hmove
      refine ⟨hfitted, h.like, h.endpoint, h.request,
        .move span (b.poke 0 data).hostView t rfl hplan (fun data' hdata => ?_) hmove⟩
      obtain rfl : data' = data := by rw [hrequest] at hdata; cases hdata; rfl
      exact ⟨b.hostView, rfl⟩
  | move span view t hstage hplan hview hmove =>
    obtain ⟨hnext, hchannel⟩ := call.step_move c hstage
    rw [hnext] at h'
    rw [hchannel]
    have hfitted := hmove.sound.step.1
    have hlike := hmove.like.trans hmove.sound.step_like
    cases hp : (t.step c).1 with
    | going t' =>
      rw [hp] at h'
      cases h'
      exact ⟨hfitted, hlike, h.endpoint, h.request,
        .move span view t' rfl hplan hview (hmove.step (by rw [hp]; rfl))⟩
    | waiting t' =>
      rw [hp] at h'
      cases h'
      exact ⟨hfitted, hlike, h.endpoint, h.request,
        .move span view t' rfl hplan hview (hmove.step (by rw [hp]; rfl))⟩
    | finished r =>
      rw [hp] at h'
      cases r with
      | error error => cases h'
      | ok moved =>
        cases h'
        exact ⟨hfitted, hlike, h.endpoint, h.request,
          .collect span view moved rfl hplan hview (hmove.done hp)⟩
  | collect span view moved hstage hplan hview hdone =>
    obtain ⟨⟨r, hr⟩, -⟩ := call.step_collect c hstage
    rw [hr] at h'
    cases h'

end Underway

/-! ## The end of a call -/

/-- How a call of the endpoint `m` ended that was made with the engine `e` and card memory `memory`. -/
inductive Ended (m : MemoryEndpoint) (request : MemoryRequest) (e : Engine) (memory : Memory) :
    MemoryResult → Memory → Prop where
  | failed (error : CardError) : Ended m request e memory ⟨m, .error error⟩ memory
  | nothing : planned ⟨m, request, .plan⟩ e = .ok none →
      Ended m request e memory ⟨m, .ok { count := 0 }⟩ memory
  | read (room : Nat) (span : Span) (n : Nat) : request = .read room →
      m.planRead e room = .ok (some span) →
      n = min span.count e.maxTransfer → 0 < n → n % e.alignment = 0 →
      Ended m request e memory
        ⟨m.advance (min room (n - span.skip)),
          .ok { count := min room (n - span.skip)
                data := memory.read (UInt64.ofNat (span.start + span.skip)) (min room (n - span.skip)) }⟩
        memory
  | written (data : List UInt8) (span : Span) (n : Nat) : request = .write data →
      m.planWrite e data.length = .ok (some span) → n = min span.count e.maxTransfer → 0 < n →
      Ended m request e memory ⟨m.advance n, .ok { count := n }⟩
        (memory.write (UInt64.ofNat span.start) (data.take n))
  | killed (data : List UInt8) (span : Span) (n : Nat) : request = .write data →
      m.planWrite e data.length = .ok (some span) → n = min span.count e.maxTransfer →
      Ended m request e memory ⟨m, .error .transferKilled⟩
        (memory.write (UInt64.ofNat span.start) (data.take n))

theorem write_of_toDevice (call : MemoryCall) (h : call.direction = .toDevice) :
    ∃ data, call.request = .write data := by
  unfold direction at h
  split at h
  · cases h
  · exact ⟨_, by assumption⟩

theorem staged_read {m : MemoryEndpoint} {e : Engine} (he : e.Sound) {data : List UInt8} {span : Span}
    (h : m.planWrite e data.length = .ok (some span)) {view : Memory}
    (hview : ∃ old : Memory, view = old.write 0 data) {n : Nat} (hn : n ≤ span.count) :
    view.read 0 n = data.take n := by
  obtain ⟨old, rfl⟩ := hview
  obtain ⟨-, -, hsize, -, rfl⟩ := MemoryEndpoint.planWrite_some h
  have hread := old.read_write 0 data 0 n (by have := he.size; omega) (by simpa using hn)
  simpa using hread

namespace Underway

variable {m : MemoryEndpoint} {request : MemoryRequest} {e : Engine} {memory : Memory}
  {call : MemoryCall} {c : Channel Rig}

theorem ended (h : Underway m request e memory call c) {r : MemoryResult}
    (h' : (call.step c).1 = .finished r) :
    Fitted (call.step c).2 ∧ e.Like (call.step c).2.engine ∧
      Ended m request e memory r (call.step c).2.card.memory := by
  obtain ⟨rfl, rfl⟩ := And.intro h.endpoint h.request
  have hplanned : planned ⟨call.endpoint, call.request, .plan⟩ e = call.planned e := rfl
  cases h.stands with
  | plan hstage hm =>
    rw [call.step_plan c hstage] at h' ⊢
    refine ⟨h.fitted, h.like, ?_⟩
    obtain ⟨error, -, hplan⟩ | ⟨hnone, hplan⟩ | ⟨span, -, hplan⟩ := call.plan_cases c.engine
    · rw [hplan] at h'
      cases h'
      simp only [hm]
      exact .failed error
    · rw [hplan] at h'
      cases h'
      simp only [hm]
      rw [call.planned_like h.like] at hnone
      exact .nothing hnone
    · rw [hplan] at h'
      cases h'
  | fill span hstage hm hplan =>
    obtain ⟨hnext, -⟩ := call.step_fill c hstage
    rw [hnext] at h'
    cases h'
  | move span view t hstage hplan hview hmove =>
    obtain ⟨hnext, hchannel⟩ := call.step_move c hstage
    rw [hnext] at h'
    rw [hchannel]
    refine ⟨hmove.sound.step.1, hmove.like.trans hmove.sound.step_like, ?_⟩
    cases hp : (t.step c).1 with
    | going t' => rw [hp] at h'; cases h'
    | waiting t' => rw [hp] at h'; cases h'
    | finished result =>
      rw [hp] at h'
      cases result with
      | ok moved => cases h'
      | error error =>
        cases h'
        obtain hmemory | ⟨rfl, hdirection, hmemory⟩ := hmove.done hp
        · rw [hmemory]
          exact .failed error
        · have he := hmove.sound.fitted.engine.like hmove.like.symm
          obtain ⟨data, hrequest⟩ := call.write_of_toDevice hdirection
          have hplan' : call.endpoint.planWrite e data.length = .ok (some span) := by
            simpa only [planned, hrequest] using hplan
          have hread := staged_read he hplan' (hview data hrequest)
            (Nat.min_le_left span.count e.maxTransfer)
          rw [hmemory]
          simp only [Span.errand, hread]
          exact .killed data span _ hrequest hplan' rfl
  | collect span view moved hstage hplan hview hdone =>
    obtain ⟨hcount, hpos, haligned, hbytes⟩ := hdone
    have he := h.fitted.engine.like h.like.symm
    obtain ⟨room, hrequest⟩ | ⟨data, hrequest⟩ :
        (∃ room, call.request = .read room) ∨ ∃ data, call.request = .write data := by
      cases call.request <;> simp
    · have hplan' : call.endpoint.planRead e room = .ok (some span) := by
        simpa only [planned, hrequest] using hplan
      simp only [Span.errand, direction, hrequest] at hbytes
      obtain ⟨hmemory, b, hb, hread⟩ := hbytes
      have hpart := Memory.read_part hread (Nat.min_le_right room (moved - span.skip))
      have hpeek : Hardware.peek c.hardware span.skip (min room (moved - span.skip)) =
          memory.read (UInt64.ofNat (span.start + span.skip)) (min room (moved - span.skip)) := by
        rw [UInt64.ofNat_add, ← hpart, UInt64.zero_add]
        show (c.card.buffer.map _).getD [] = _
        rw [hb]
        rfl
      simp only [MemoryCall.step, hstage, hrequest, hpeek] at h' ⊢
      cases h'
      rw [hmemory]
      exact ⟨h.fitted, h.like, .read room span moved rfl hplan' hcount hpos haligned⟩
    · have hplan' : call.endpoint.planWrite e data.length = .ok (some span) := by
        simpa only [planned, hrequest] using hplan
      simp only [Span.errand, direction, hrequest] at hbytes
      have hless : moved ≤ span.count := Nat.le_trans (Nat.le_of_eq hcount) (Nat.min_le_left _ _)
      rw [staged_read he hplan' (hview data hrequest) hless] at hbytes
      simp only [MemoryCall.step, hstage, hrequest] at h' ⊢
      cases h'
      rw [hbytes]
      exact ⟨h.fitted, h.like, .written data span moved rfl hplan' hcount hpos⟩

end Underway

/-- A call that is driven to its end leaves an engine that fits, and ends in one of these ways. -/
theorem drive_call {m : MemoryEndpoint} {request : MemoryRequest} {c c' : Channel Rig} (hc : Fitted c)
    {moves : List Move} (hmoves : moves.all Move.sparesMemory = true) {r : MemoryResult}
    (h : drive step moves { endpoint := m, request } c = (.finished r, c')) :
    Fitted c' ∧ c.engine.Like c'.engine ∧ Ended m request c.engine c.card.memory r c'.card.memory := by
  have hstart : Underway m request c.engine c.card.memory { endpoint := m, request } c :=
    ⟨hc, .refl _, rfl, rfl, .plan rfl rfl⟩
  exact drive_spec (Underway m request c.engine c.card.memory)
    (fun r c' => Fitted c' ∧ c.engine.Like c'.engine ∧
      Ended m request c.engine c.card.memory r c'.card.memory)
    (fun _ _ d hinv hspares => hinv.act d hspares) (fun _ _ _ hinv hrest => hinv.step hrest)
    (fun _ _ _ hinv hend => hinv.ended hend) hstart hmoves h

end MemoryCall

end FpgaCard
