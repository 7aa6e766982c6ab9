import FpgaCard.Proofs.EndpointRead
import FpgaCard.Proofs.Undisturbed

/-!
# Clients that share an engine

Any number of memory endpoints of one card, whose calls go on in turn, step by step: a call plans by
itself, and then needs the guard of the buffer and the engine up to its end. Main statement: whatever the
order of the steps, everybody gets what they would get if the calls were made one after another, in the
order in which they took the guard.
-/

namespace FpgaCard

open Simulation

/-! ## Calls in turn -/

structure Turn where
  client : Nat
  request : MemoryRequest
  /-- Whether it had the guard. -/
  guarded : Bool
  result : MemoryResult
  deriving DecidableEq

namespace Turn

def asked (t : Turn) : Nat × MemoryRequest := (t.client, t.request)

def outcome (t : Turn) : Nat × MemoryResult := (t.client, t.result)

end Turn

structure Sharing where
  channel : Channel Rig
  endpoints : Nat → MemoryEndpoint
  /-- The calls that clients have made and that have not ended. -/
  calls : Nat → Option MemoryCall := fun _ => none
  holder : Option Nat := none
  /-- Who took the guard and for what, the last one first. -/
  taken : List (Nat × MemoryRequest) := []
  /-- The calls that have ended, the last one first. -/
  turns : List Turn := []

namespace Sharing

inductive Event where
  /-- A client that has nothing to do makes a call. -/
  | begin (client : Nat) (request : MemoryRequest)
  /-- A client takes a step: one of its call, or one that takes the guard or gives it back. -/
  | step (client : Nat)
  | disturb (d : Disturbance) (h : d.isClean = true)

def calling (s : Sharing) (client : Nat) (call : Option MemoryCall) : Sharing :=
  { s with calls := Function.update s.calls client call }

def ended (s : Sharing) (client : Nat) (request : MemoryRequest) (result : MemoryResult) : Sharing :=
  { s.calling client none with
    endpoints := Function.update s.endpoints client result.endpoint
    turns := ⟨client, request, s.holder = some client, result⟩ :: s.turns }

def stepped (s : Sharing) (client : Nat) (call : MemoryCall) : Sharing :=
  match call.step s.channel with
  | (.finished result, channel) => { s with channel }.ended client call.request result
  | (.going call, channel) | (.waiting call, channel) => { s with channel }.calling client (some call)

def taking (s : Sharing) (client : Nat) (request : MemoryRequest) : Sharing :=
  { s with holder := some client, taken := (client, request) :: s.taken }

def after (s : Sharing) : Event → Sharing
  | .begin client request =>
    if s.calls client = none ∧ s.holder ≠ some client then
      s.calling client (some { endpoint := s.endpoints client, request })
    else s
  | .step client =>
    match s.calls client with
    | none => if s.holder = some client then { s with holder := none } else s
    | some call =>
      if call.stage = .plan ∨ s.holder = some client then s.stepped client call
      else if s.holder = none then s.taking client call.request
      else s
  | .disturb d _ => { s with channel := d.act s.channel }

def run (s : Sharing) (events : List Event) : Sharing := events.foldl after s

/-- What the guard was taken for by the call that has it. -/
def inTurn (s : Sharing) : List (Nat × MemoryRequest) :=
  (s.holder.bind fun client => (s.calls client).map fun call => (client, call.request)).toList

variable {s : Sharing} {client other : Nat} {call : Option MemoryCall}

@[simp]
theorem calling_self : (s.calling client call).calls client = call := Function.update_self ..

theorem calling_of_ne (h : other ≠ client) : (s.calling client call).calls other = s.calls other :=
  Function.update_of_ne h ..

theorem calling_cases {call' : MemoryCall} (h : (s.calling client call).calls other = some call') :
    other = client ∧ call = some call' ∨ other ≠ client ∧ s.calls other = some call' := by
  by_cases hsame : other = client
  · subst hsame
    rw [calling_self] at h
    exact .inl ⟨rfl, h⟩
  · rw [calling_of_ne hsame] at h
    exact .inr ⟨hsame, h⟩

theorem calling_of_holder (hholder : s.holder ≠ some client) (hother : s.holder = some other) :
    (s.calling client call).calls other = s.calls other := by
  apply calling_of_ne
  rintro rfl
  exact hholder hother

theorem inTurn_calling (hholder : s.holder ≠ some client) : (s.calling client call).inTurn = s.inTurn := by
  unfold inTurn
  show (s.holder.bind fun other => ((s.calling client call).calls other).map _).toList = _
  cases hother : s.holder with
  | none => rfl
  | some other => simp only [Option.bind_some, calling_of_holder hholder hother]

theorem inTurn_of_free (h : ∀ client, s.holder = some client → s.calls client = none) : s.inTurn = [] := by
  unfold inTurn
  cases hholder : s.holder with
  | none => rfl
  | some client => simp [h client hholder]

theorem free_of_inTurn (h : s.inTurn = []) (hholder : s.holder = some client) : s.calls client = none := by
  unfold inTurn at h
  rw [hholder, Option.bind_some, Option.toList_eq_nil_iff, Option.map_eq_none_iff] at h
  exact h

theorem inTurn_of_holding (hholder : s.holder = some client) {call : MemoryCall}
    (hcall : s.calls client = some call) : s.inTurn = [(client, call.request)] := by
  simp [inTurn, hholder, hcall]

end Sharing

/-! ## Calls one after another -/

theorem MemoryCall.due_readSpec {c : Channel Rig} (hsober : c.Sober) (hrests : c.Rests) (m : MemoryEndpoint)
    (buffer : List UInt8) : m.ReadSpec buffer c.card.memory
      (due { endpoint := m, request := .read buffer.length } c.engine c.card.memory).1 := by
  obtain ⟨moves, r, c', hmoves, hdrive⟩ := exists_drive m (.read buffer.length) hsober hrests
  have hspares : moves.all Move.sparesMemory = true := by
    rw [List.all_eq_true] at hmoves ⊢
    exact fun move hmove => Move.sparesMemory_of_isClean (hmoves move hmove)
  obtain ⟨-, -, hended⟩ := drive_call hsober.fitted hspares hdrive
  rw [← (drive_alone hsober hrests hmoves hdrive).due]
  exact hended.readSpec.2

structure Serial where
  channel : Channel Rig
  endpoints : Nat → MemoryEndpoint
  outcomes : List (Nat × MemoryResult)

/-- The calls of a list, the last one first, each from its start to its end with no other in between. -/
inductive Serial.Run (c : Channel Rig) (endpoints : Nat → MemoryEndpoint) :
    List (Nat × MemoryRequest) → Serial → Prop where
  | start : Run c endpoints [] ⟨c, endpoints, []⟩
  | call {asked : List (Nat × MemoryRequest)} {s : Serial} (client : Nat) (request : MemoryRequest)
      (moves : List Move) (result : MemoryResult) (channel : Channel Rig) (h : Run c endpoints asked s)
      (hmoves : moves.all Move.isClean = true)
      (hdrive : drive MemoryCall.step moves { endpoint := s.endpoints client, request } s.channel =
        (.finished result, channel)) :
      Run c endpoints ((client, request) :: asked)
        ⟨channel, Function.update s.endpoints client result.endpoint, (client, result) :: s.outcomes⟩

/-- What calls come to that are made one after another. -/
structure Ledger where
  memory : Memory
  endpoints : Nat → MemoryEndpoint
  outcomes : List (Nat × MemoryResult)

namespace Ledger

def due (l : Ledger) (e : Engine) (client : Nat) (request : MemoryRequest) : MemoryResult × Memory :=
  MemoryCall.due { endpoint := l.endpoints client, request } e l.memory

def entered (l : Ledger) (e : Engine) (asked : Nat × MemoryRequest) : Ledger where
  memory := (l.due e asked.1 asked.2).2
  endpoints := Function.update l.endpoints asked.1 (l.due e asked.1 asked.2).1.endpoint
  outcomes := (asked.1, (l.due e asked.1 asked.2).1) :: l.outcomes

def of (c : Channel Rig) (endpoints : Nat → MemoryEndpoint) : List (Nat × MemoryRequest) → Ledger
  | [] => ⟨c.card.memory, endpoints, []⟩
  | asked :: before => (of c endpoints before).entered c.engine asked

variable {c : Channel Rig} {endpoints : Nat → MemoryEndpoint}

theorem due_of_outcomes {later before : List Turn} {turn : Turn}
    (h : (later ++ turn :: before).map Turn.outcome =
      (of c endpoints ((later ++ turn :: before).map Turn.asked)).outcomes) :
    turn.result = ((of c endpoints (before.map Turn.asked)).due c.engine turn.client turn.request).1 := by
  induction later with
  | nil => exact congrArg Prod.snd (List.cons.inj h).1
  | cons turn later ih => exact ih (List.cons.inj h).2

end Ledger

namespace Serial.Run

variable {c : Channel Rig} {endpoints : Nat → MemoryEndpoint} {asked : List (Nat × MemoryRequest)}
  {s : Serial}

structure Stands (c : Channel Rig) (l : Ledger) (s : Serial) : Prop where
  like : c.engine.Like s.channel.engine
  sober : s.channel.Sober
  rests : s.channel.Rests
  memory : s.channel.card.memory = l.memory
  endpoints : s.endpoints = l.endpoints
  outcomes : s.outcomes = l.outcomes

theorem stands (h : Run c endpoints asked s) (hsober : c.Sober) (hrests : c.Rests) :
    Stands c (Ledger.of c endpoints asked) s := by
  induction h with
  | start => exact ⟨.refl _, hsober, hrests, rfl, rfl, rfl⟩
  | call client request moves result channel h hmoves hdrive ih =>
    have hended := MemoryCall.drive_alone ih.sober ih.rests hmoves hdrive
    have hdue := hended.due
    rw [MemoryCall.due_like _ ih.like, ih.memory, ih.endpoints] at hdue
    obtain ⟨hresult, hmemory⟩ := Prod.ext_iff.1 hdue
    simp only at hresult hmemory
    refine ⟨ih.like.trans hended.like, hended.sober, hended.rests, hmemory, ?_, ?_⟩
    · simp only [Ledger.of, Ledger.entered, Ledger.due, ih.endpoints, hresult]
    · simp only [Ledger.of, Ledger.entered, Ledger.due, ih.outcomes, hresult]

theorem exists_run (hsober : c.Sober) (hrests : c.Rests) (asked : List (Nat × MemoryRequest)) :
    ∃ s, Run c endpoints asked s := by
  induction asked with
  | nil => exact ⟨_, .start⟩
  | cons next asked ih =>
    obtain ⟨s, hs⟩ := ih
    have hstands := hs.stands hsober hrests
    obtain ⟨moves, r, c', hmoves, hdrive⟩ := MemoryCall.exists_drive (s.endpoints next.1) next.2
      hstands.sober hstands.rests
    exact ⟨_, .call next.1 next.2 moves r c' hs hmoves hdrive⟩

end Serial.Run

/-! ## The clients in step with the ledger -/

namespace Sharing

/-- The calls that have ended stand in the ledger, and the guard is with the call that is on its way from
there, if with any. -/
structure Sound (c : Channel Rig) (l : Ledger) (s : Sharing) : Prop where
  like : c.engine.Like s.channel.engine
  endpoints : s.endpoints = l.endpoints
  outcomes : s.turns.map Turn.outcome = l.outcomes
  calls : ∀ client call, s.calls client = some call → call.endpoint = s.endpoints client
  planning : ∀ client call, s.calls client = some call → s.holder ≠ some client →
    call.stage = .plan ∨ ∃ span, call.stage = .fill span ∧ call.planned c.engine = .ok (some span)
  resting : (∀ client, s.holder = some client → s.calls client = none) →
    s.channel.Sober ∧ s.channel.Rests ∧ s.channel.card.memory = l.memory
  holding : ∀ client call, s.holder = some client → s.calls client = some call →
    MemoryCall.Alone (s.endpoints client) call.request c.engine l.memory call s.channel
  taken : s.taken = s.inTurn ++ (s.turns.filter (·.guarded)).map Turn.asked

namespace Sound

variable {c : Channel Rig} {l : Ledger} {s : Sharing}

theorem disturb (h : s.Sound c l) {d : Disturbance} (hd : d.isClean = true) :
    Sound c l { s with channel := d.act s.channel } := by
  refine ⟨h.like.trans (d.act_spared s.channel).engine, h.endpoints, h.outcomes, h.calls, h.planning, ?_,
    ?_, h.taken⟩
  · intro hfree
    obtain ⟨hsober, hrests, hmemory⟩ := h.resting hfree
    refine ⟨hsober.act hd, hrests.act hd, ?_⟩
    exact (d.act_memory s.channel (Move.sparesMemory_of_isClean hd)).trans hmemory
  · intro client call hholder hcall
    exact (h.holding client call hholder hcall).act hd

theorem calling (h : s.Sound c l) {client : Nat} (hholder : s.holder ≠ some client) {call : MemoryCall}
    (hendpoint : call.endpoint = s.endpoints client)
    (hplanning : call.stage = .plan ∨
      ∃ span, call.stage = .fill span ∧ call.planned c.engine = .ok (some span)) :
    Sound c l (s.calling client (some call)) := by
  refine ⟨h.like, h.endpoints, h.outcomes, ?_, ?_, ?_, ?_, ?_⟩
  · intro other call' hcall'
    obtain ⟨rfl, ⟨⟩⟩ | ⟨-, hcall'⟩ := calling_cases hcall'
    · exact hendpoint
    · exact h.calls other call' hcall'
  · intro other call' hcall' hnot
    obtain ⟨rfl, ⟨⟩⟩ | ⟨-, hcall'⟩ := calling_cases hcall'
    · exact hplanning
    · exact h.planning other call' hcall' hnot
  · intro hfree
    refine h.resting fun other hhas => ?_
    rw [← calling_of_holder hholder hhas]
    exact hfree other hhas
  · intro other call' hhas hcall'
    rw [calling_of_holder hholder hhas] at hcall'
    exact h.holding other call' hhas hcall'
  · rw [inTurn_calling hholder]
    exact h.taken

theorem release (h : s.Sound c l) {client : Nat} (hidle : s.calls client = none)
    (hholder : s.holder = some client) : Sound c l { s with holder := none } := by
  refine ⟨h.like, h.endpoints, h.outcomes, h.calls, ?_, ?_, ?_, ?_⟩
  · intro other call hcall _
    refine h.planning other call hcall ?_
    rintro hhas
    rw [hholder] at hhas
    cases hhas
    rw [hidle] at hcall
    cases hcall
  · intro _
    refine h.resting fun other hhas => ?_
    rw [hholder] at hhas
    cases hhas
    exact hidle
  · intro other call hhas
    cases hhas
  · have htaken := h.taken
    rw [inTurn_of_free fun other hhas => ?_] at htaken
    · exact htaken
    · rw [hholder] at hhas
      cases hhas
      exact hidle

theorem take (h : s.Sound c l) {client : Nat} {call : MemoryCall} (hcall : s.calls client = some call)
    (hplanned : call.stage ≠ .plan) (hholder : s.holder = none) :
    Sound c l (s.taking client call.request) := by
  obtain ⟨hsober, hrests, hmemory⟩ := h.resting fun other hhas => by rw [hholder] at hhas; cases hhas
  refine ⟨h.like, h.endpoints, h.outcomes, h.calls, ?_, ?_, ?_, ?_⟩
  · intro other call' hcall' _
    exact h.planning other call' hcall' (by simp [hholder])
  · intro hfree
    have hnone : s.calls client = none := hfree client rfl
    rw [hnone] at hcall
    cases hcall
  · rintro other call' ⟨⟩ hcall'
    obtain rfl : call = call' := Option.some.inj (hcall.symm.trans hcall')
    obtain hplan | ⟨span, hfill, hspan⟩ := h.planning client call hcall (by simp [hholder])
    · exact absurd hplan hplanned
    · exact ⟨⟨hsober.fitted, h.like, h.calls client call hcall, rfl, .fill span hfill hmemory hspan⟩,
        .of_fill hsober hrests hspan hfill⟩
  · have htaken := h.taken
    rw [inTurn_of_free fun other hhas => by rw [hholder] at hhas; cases hhas] at htaken
    have hturn : (s.taking client call.request).inTurn = [(client, call.request)] :=
      inTurn_of_holding rfl hcall
    rw [hturn]
    exact congrArg ((client, call.request) :: ·) htaken

theorem ended (h : s.Sound c l) {client : Nat} {call : MemoryCall} (hcall : s.calls client = some call)
    {r : MemoryResult} {channel : Channel Rig} {memory : Memory}
    (hdue : (r, memory) = call.due c.engine l.memory) (hlike : c.engine.Like channel.engine)
    (hresting : (∀ other, s.holder = some other → other = client ∨ s.calls other = none) →
      channel.Sober ∧ channel.Rests ∧ channel.card.memory = memory)
    (hholding : ∀ other call', s.holder = some other → other ≠ client → s.calls other = some call' →
      MemoryCall.Alone (s.endpoints other) call'.request c.engine memory call' channel) :
    Sound c (l.entered c.engine (client, call.request))
      ({ s with channel }.ended client call.request r) := by
  have hentered : l.due c.engine client call.request = (r, memory) := by
    unfold Ledger.due
    rw [hdue, ← h.endpoints, ← h.calls client call hcall]
    rfl
  have hother {other : Nat} {call' : MemoryCall}
      (hcall' : (s.calling client none).calls other = some call') :
      other ≠ client ∧ s.calls other = some call' := by
    obtain ⟨-, ⟨⟩⟩ | hother := calling_cases hcall'
    exact hother
  have hendpoint {other : Nat} (hne : other ≠ client) :
      Function.update s.endpoints client r.endpoint other = s.endpoints other :=
    Function.update_of_ne hne ..
  refine ⟨hlike, ?_, ?_, ?_, ?_, ?_, ?_, ?_⟩
  · show Function.update s.endpoints client r.endpoint = _
    simp only [Ledger.entered, hentered, h.endpoints]
  · show (client, r) :: s.turns.map Turn.outcome = _
    simp only [Ledger.entered, hentered, h.outcomes]
  · intro other call' hcall'
    obtain ⟨hne, hcall'⟩ := hother hcall'
    exact (h.calls other call' hcall').trans (hendpoint hne).symm
  · intro other call' hcall' hnot
    exact h.planning other call' (hother hcall').2 hnot
  · intro hfree
    simp only [Ledger.entered, hentered]
    refine hresting fun other hhas => ?_
    by_cases hsame : other = client
    · exact .inl hsame
    · have hidle : (s.calling client none).calls other = none := hfree other hhas
      rw [calling_of_ne hsame] at hidle
      exact .inr hidle
  · intro other call' hhas hcall'
    obtain ⟨hne, hcall'⟩ := hother hcall'
    have hnext := hholding other call' hhas hne hcall'
    simp only [Ledger.entered, hentered]
    rw [← hendpoint hne] at hnext
    exact hnext
  · by_cases hholder : s.holder = some client
    · have hfree : (s.calling client none).inTurn = [] := inTurn_of_free fun other hhas => by
        rw [show (s.calling client none).holder = some client from hholder] at hhas
        cases hhas
        exact calling_self
      have htaken := h.taken
      rw [inTurn_of_holding hholder hcall] at htaken
      show s.taken = (s.calling client none).inTurn ++ _
      rw [hfree]
      simp only [Sharing.ended, hholder, decide_true, List.filter_cons_of_pos, List.map_cons]
      exact htaken
    · show s.taken = (s.calling client none).inTurn ++ _
      rw [inTurn_calling hholder]
      simp only [Sharing.ended, hholder, decide_false]
      exact h.taken

theorem ended_plan (h : s.Sound c l) {client : Nat} {call : MemoryCall} (hcall : s.calls client = some call)
    (hholder : s.holder ≠ some client) {r : MemoryResult}
    (hdue : (r, l.memory) = call.due c.engine l.memory) :
    Sound c (l.entered c.engine (client, call.request)) (s.ended client call.request r) := by
  refine h.ended hcall hdue h.like (fun hfree => h.resting fun other hhas => ?_)
    (fun other call' hhas _ hcall' => h.holding other call' hhas hcall')
  refine (hfree other hhas).resolve_left ?_
  rintro rfl
  exact hholder hhas

theorem hold (h : s.Sound c l) {client : Nat} {call call' : MemoryCall} {channel : Channel Rig}
    (hcall : s.calls client = some call) (hholder : s.holder = some client)
    (halone : MemoryCall.Alone (s.endpoints client) call.request c.engine l.memory call' channel) :
    Sound c l ({ s with channel }.calling client (some call')) := by
  have hrequest := halone.underway.request
  refine ⟨halone.underway.like, h.endpoints, h.outcomes, ?_, ?_, ?_, ?_, ?_⟩
  · intro other call'' hcall''
    obtain ⟨rfl, ⟨⟩⟩ | ⟨-, hcall''⟩ := calling_cases hcall''
    · exact halone.underway.endpoint
    · exact h.calls other call'' hcall''
  · intro other call'' hcall'' hnot
    obtain ⟨rfl, ⟨⟩⟩ | ⟨-, hcall''⟩ := calling_cases hcall''
    · exact absurd hholder hnot
    · exact h.planning other call'' hcall'' hnot
  · intro hfree
    have hnone := hfree client hholder
    rw [calling_self] at hnone
    cases hnone
  · intro other call'' hhas hcall''
    obtain ⟨rfl, ⟨⟩⟩ | ⟨hne, -⟩ := calling_cases hcall''
    · rw [hrequest]
      exact halone
    · exact absurd (Option.some.inj (hhas.symm.trans hholder)) hne
  · have hturn : ({ s with channel }.calling client (some call')).inTurn =
        [(client, call'.request)] := by
      apply inTurn_of_holding
      · exact hholder
      · exact calling_self
    have htaken := h.taken
    rw [inTurn_of_holding hholder hcall] at htaken
    rw [hturn, hrequest]
    exact htaken

end Sound

def ledger (s : Sharing) (c : Channel Rig) (endpoints : Nat → MemoryEndpoint) : Ledger :=
  Ledger.of c endpoints (s.turns.map Turn.asked)

namespace Sound

variable {c : Channel Rig} {endpoints : Nat → MemoryEndpoint} {s : Sharing}

theorem stepped_plan (h : s.Sound c (s.ledger c endpoints)) {client : Nat} {call : MemoryCall}
    (hcall : s.calls client = some call) (hholder : s.holder ≠ some client)
    (hstage : call.stage = .plan) :
    (s.stepped client call).Sound c ((s.stepped client call).ledger c endpoints) := by
  unfold stepped
  rw [call.step_plan s.channel hstage]
  obtain ⟨error, hplanned, hplan⟩ | ⟨hplanned, hplan⟩ | ⟨span, hplanned, hplan⟩ :=
    call.plan_cases s.channel.engine
  all_goals
    rw [call.planned_like h.like] at hplanned
    rw [hplan]
  · refine h.ended_plan hcall hholder ?_
    simp only [MemoryCall.due, hplanned]
  · refine h.ended_plan hcall hholder ?_
    simp only [MemoryCall.due, hplanned]
  · exact h.calling hholder (h.calls client call hcall) (.inr ⟨span, rfl, hplanned⟩)

theorem stepped_hold (h : s.Sound c (s.ledger c endpoints)) {client : Nat} {call : MemoryCall}
    (hcall : s.calls client = some call) (hholder : s.holder = some client) :
    (s.stepped client call).Sound c ((s.stepped client call).ledger c endpoints) := by
  have halone := h.holding client call hholder hcall
  unfold stepped
  cases hstep : call.step s.channel with
  | mk progress channel =>
    cases progress with
    | finished r =>
      have hended := halone.ended (congrArg Prod.fst hstep)
      rw [hstep, ← h.calls client call hcall] at hended
      refine h.ended hcall hended.due hended.like (fun _ => ⟨hended.sober, hended.rests, rfl⟩) ?_
      intro other call' hhas hne
      exact absurd (Option.some.inj (hhas.symm.trans hholder)) hne
    | going call' =>
      have hgoes := halone.step (show (call.step s.channel).1.rest? = some call' by rw [hstep]; rfl)
      rw [hstep] at hgoes
      exact h.hold hcall hholder hgoes
    | waiting call' =>
      have hgoes := halone.step (show (call.step s.channel).1.rest? = some call' by rw [hstep]; rfl)
      rw [hstep] at hgoes
      exact h.hold hcall hholder hgoes

theorem start (hsober : c.Sober) (hrests : c.Rests) :
    Sound c (ledger { channel := c, endpoints } c endpoints) { channel := c, endpoints } := by
  refine ⟨.refl _, rfl, rfl, ?_, ?_, fun _ => ⟨hsober, hrests, rfl⟩, ?_, rfl⟩
  · rintro _ _ ⟨⟩
  · rintro _ _ ⟨⟩
  · rintro _ _ ⟨⟩

theorem after (h : s.Sound c (s.ledger c endpoints)) (e : Event) :
    (s.after e).Sound c ((s.after e).ledger c endpoints) := by
  cases e with
  | begin client request =>
    simp only [Sharing.after]
    split
    · rename_i hfree
      exact h.calling hfree.2 rfl (.inl rfl)
    · exact h
  | step client =>
    simp only [Sharing.after]
    split
    · rename_i hidle
      split
      · rename_i hholder
        exact h.release hidle hholder
      · exact h
    · rename_i call hcall
      -- The call that has the guard moves the card, any other at most ends with its plan.
      by_cases hholder : s.holder = some client
      · rw [if_pos (.inr hholder)]
        exact h.stepped_hold hcall hholder
      · split
        · rename_i hplan
          exact h.stepped_plan hcall hholder (hplan.resolve_right hholder)
        · rename_i hplanned
          split
          · rename_i hnone
            exact h.take hcall (fun hplan => hplanned (.inl hplan)) hnone
          · exact h
  | disturb d hd => exact h.disturb hd

theorem run (h : s.Sound c (s.ledger c endpoints)) (events : List Event) :
    (s.run events).Sound c ((s.run events).ledger c endpoints) := by
  induction events generalizing s with
  | nil => exact h
  | cons e events ih => exact ih (h.after e)

end Sound

/-- The calls that have ended came to what they come to one after another. -/
structure Serialised (c : Channel Rig) (endpoints : Nat → MemoryEndpoint) (s : Sharing) : Prop where
  order : s.taken = s.inTurn ++ (s.turns.filter (·.guarded)).map Turn.asked
  possible : ∃ t, Serial.Run c endpoints (s.turns.map Turn.asked) t
  same : ∀ t, Serial.Run c endpoints (s.turns.map Turn.asked) t →
    t.outcomes = s.turns.map Turn.outcome ∧ t.endpoints = s.endpoints ∧
    (s.inTurn = [] → t.channel.card.memory = s.channel.card.memory)
  /-- A read delivers what those before it have left in card memory at the client's own position. -/
  own : ∀ later turn before, s.turns = later ++ turn :: before →
    ∀ t, Serial.Run c endpoints (before.map Turn.asked) t →
    ∀ buffer, turn.request = .read buffer.length →
      (t.endpoints turn.client).ReadSpec buffer t.channel.card.memory turn.result

theorem Sound.serialised {c : Channel Rig} {endpoints : Nat → MemoryEndpoint} {s : Sharing}
    (h : s.Sound c (s.ledger c endpoints)) (hsober : c.Sober) (hrests : c.Rests) :
    s.Serialised c endpoints := by
  refine ⟨h.taken, Serial.Run.exists_run hsober hrests _, ?_, ?_⟩
  · intro t ht
    have hstands := ht.stands hsober hrests
    refine ⟨hstands.outcomes.trans h.outcomes.symm, hstands.endpoints.trans h.endpoints.symm, ?_⟩
    intro hturn
    obtain ⟨-, -, hmemory⟩ := h.resting fun client hholder => free_of_inTurn hturn hholder
    exact hstands.memory.trans hmemory.symm
  · intro later turn before hturns t ht buffer hread
    have hstands := ht.stands hsober hrests
    have houtcomes := h.outcomes
    unfold ledger at houtcomes
    rw [hturns] at houtcomes
    have hdue := Ledger.due_of_outcomes houtcomes
    have hspec := MemoryCall.due_readSpec hstands.sober hstands.rests (t.endpoints turn.client) buffer
    rw [MemoryCall.due_like _ hstands.like, hstands.memory, hstands.endpoints, ← hread] at hspec
    rw [hdue, hstands.memory, hstands.endpoints]
    exact hspec

/-- Clients of a card that nobody disturbs get the same from every order of their steps as from their
calls one after another: the same results, the same positions and the same card memory. No interrupt is on
its way to a new engine, as a card raises none before they are led to one. -/
theorem run_serialised {c : Channel Rig} (hattached : Attached c) (hinjected : c.card.injected = 0)
    (hraised : c.hardware.raised = 0) (endpoints : Nat → MemoryEndpoint) (events : List Event) :
    (run { channel := c, endpoints } events).Serialised c endpoints := by
  obtain ⟨hsober, hrests⟩ := Channel.sober_of_attached hattached hinjected hraised
  exact ((Sound.start hsober hrests).run events).serialised hsober hrests

/-- One client writes while another already waits to read the same place. -/
def writerAndReader : List Event :=
  let turn (client : Nat) : List Event :=
    List.flatten [List.replicate 8 (.step client), [.disturb .deliver rfl], List.replicate 5 (.step client)]
  List.flatten [[.begin 0 (.write [1, 2]), .begin 1 (.read 2), .step 1, .step 0, .step 0, .step 1],
    turn 0, turn 1]

theorem run_serialised_two :
    Attached smallChannel ∧ smallChannel.card.injected = 0 ∧ smallChannel.hardware.raised = 0 ∧
    (run { channel := smallChannel, endpoints := fun _ => smallEndpoint } writerAndReader).turns =
      [⟨1, .read 2, true, ⟨{ smallEndpoint with position := 2 }, .ok { count := 2, data := [1, 2] }⟩⟩,
        ⟨0, .write [1, 2], true, ⟨{ smallEndpoint with position := 2 }, .ok { count := 2 }⟩⟩] ∧
    (run { channel := smallChannel, endpoints := fun _ => smallEndpoint } writerAndReader).Serialised
      smallChannel fun _ => smallEndpoint :=
  ⟨smallChannel_attached, rfl, rfl, by decide +kernel,
    run_serialised smallChannel_attached rfl rfl _ writerAndReader⟩

end Sharing

end FpgaCard
