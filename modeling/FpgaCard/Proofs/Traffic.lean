import FpgaCard.Endpoint.Region
import FpgaCard.Proofs.Driver

/-!
# Traffic on a card

Everything that happens to an attached card as one run of events: what its users begin, the steps of
the operation in hand, and what comes between them from the card, from its test bench and from
others who hold the engine. Users share the engine one after the other, so that at most one operation
is in hand. The registers of the controller are written by the driver alone. Main statement: a property
that every event keeps holds in every state that a run leads to.
-/

namespace FpgaCard

open Simulation

namespace Simulation.Probe

def sparesRegisters : Probe → Bool
  | .store .. => false
  | _ => true

theorem wedge_sparesRegisters : wedge.sparesRegisters = true := rfl

def sparesMemory : Probe → Bool
  | .poke .. => false
  | _ => true

def sparesIdle : Probe → Bool
  | .wedge => false
  | _ => true

end Simulation.Probe

/-! ## What comes between -/

/-- What may come between two steps of an operation. -/
inductive Disturbance where
  | kill
  | close
  /-- One interrupt that is on its way reaches the engine. -/
  | deliver
  | raise
  | bench (probe : Probe) (h : probe.sparesRegisters = true)

def Disturbance.act : Disturbance → Channel Rig → Channel Rig
  | .kill, c => c.kill
  | .close, c => c.close
  | .deliver, c => c.deliverOne
  | .raise, c => { c with hardware := c.hardware.raise.2 }
  | .bench probe _, c => { c with hardware := (c.hardware.probe probe).2 }

inductive Move where
  | step
  | disturb (d : Disturbance)

namespace Move

def sparesMemory : Move → Bool
  | .disturb (.bench probe _) => probe.sparesMemory
  | _ => true

def sparesIdle : Move → Bool
  | .disturb (.bench probe _) => probe.sparesIdle
  | _ => true

end Move

def Progress.rest? {α β : Type} : Progress α β → Option α
  | .going a => some a
  | .waiting a => some a
  | .finished _ => none

theorem Progress.of_rest?_finished {α β : Type} {r : β} {P : α → Prop} (a : α)
    (h : (Progress.finished r : Progress α β).rest? = some a) : P a := by
  cases h

/-- Takes an operation on, move by move, until it ends or the moves do. One that waits looks again. -/
def drive {α β : Type} (step : α → Channel Rig → Progress α β × Channel Rig) :
    List Move → α → Channel Rig → Progress α β × Channel Rig
  | [], a, c => (.going a, c)
  | .disturb d :: moves, a, c => drive step moves a (d.act c)
  | .step :: moves, a, c =>
    match (step a c).1 with
    | .finished r => (.finished r, (step a c).2)
    | .going a' => drive step moves a' (step a c).2
    | .waiting a' => drive step moves a' (step a c).2

def Progress.drive {α β : Type} (step : α → Channel Rig → Progress α β × Channel Rig)
    (moves : List Move) : Progress α β → Channel Rig → Progress α β × Channel Rig
  | .finished r, c => (.finished r, c)
  | .going a, c => FpgaCard.drive step moves a c
  | .waiting a, c => FpgaCard.drive step moves a c

theorem drive_step {α β : Type} (step : α → Channel Rig → Progress α β × Channel Rig)
    (moves : List Move) (a : α) (c : Channel Rig) :
    drive step (.step :: moves) a c = (step a c).1.drive step moves (step a c).2 := by
  unfold drive
  cases (step a c).1 <;> rfl

/-- What holds at the start of an operation and outlasts every move holds at its end. -/
theorem drive_spec {α β : Type} {step : α → Channel Rig → Progress α β × Channel Rig}
    {allowed : Move → Bool} (Inv : α → Channel Rig → Prop) (Post : β → Channel Rig → Prop)
    (hact : ∀ a c d, Inv a c → allowed (.disturb d) = true → Inv a (d.act c))
    (hrest : ∀ a c a', Inv a c → (step a c).1.rest? = some a' → Inv a' (step a c).2)
    (hend : ∀ a c r, Inv a c → (step a c).1 = .finished r → Post r (step a c).2)
    {moves : List Move} {a : α} {c c' : Channel Rig} {r : β} (hinv : Inv a c)
    (hallowed : moves.all allowed = true) (h : drive step moves a c = (.finished r, c')) :
    Post r c' := by
  induction moves generalizing a c with
  | nil => simp [drive] at h
  | cons m moves ih =>
    rw [List.all_cons, Bool.and_eq_true] at hallowed
    cases m with
    | disturb d => exact ih (hact a c d hinv hallowed.1) hallowed.2 h
    | step =>
      have hrest := hrest a c
      rw [drive_step] at h
      cases hp : (step a c).1 with
      | finished r' =>
        rw [hp] at h
        cases h
        exact hend a c r hinv hp
      | going a' =>
        rw [hp] at h
        exact ih (hrest a' hinv (by rw [hp]; rfl)) hallowed.2 h
      | waiting a' =>
        rw [hp] at h
        exact ih (hrest a' hinv (by rw [hp]; rfl)) hallowed.2 h

theorem drive_rest {α β : Type} {step : α → Channel Rig → Progress α β × Channel Rig}
    {allowed : Move → Bool} (Inv : α → Channel Rig → Prop)
    (hact : ∀ a c d, Inv a c → allowed (.disturb d) = true → Inv a (d.act c))
    (hrest : ∀ a c a', Inv a c → (step a c).1.rest? = some a' → Inv a' (step a c).2)
    {moves : List Move} {a a' : α} {c : Channel Rig} (hinv : Inv a c)
    (hallowed : moves.all allowed = true) (h : (drive step moves a c).1.rest? = some a') :
    Inv a' (drive step moves a c).2 := by
  induction moves generalizing a c with
  | nil =>
    cases h
    exact hinv
  | cons m moves ih =>
    rw [List.all_cons, Bool.and_eq_true] at hallowed
    cases m with
    | disturb d => exact ih (hact a c d hinv hallowed.1) hallowed.2 h
    | step =>
      have hrest := hrest a c
      rw [drive_step] at h ⊢
      cases hp : (step a c).1 with
      | finished r =>
        rw [hp] at h
        cases h
      | going next =>
        rw [hp] at h
        exact ih (hrest next hinv (by rw [hp]; rfl)) hallowed.2 h
      | waiting next =>
        rw [hp] at h
        exact ih (hrest next hinv (by rw [hp]; rfl)) hallowed.2 h

/-! ## Operations in hand -/

inductive Work where
  | transfer (t : Transfer)
  | call (c : MemoryCall)

namespace Work

def step : Work → Channel Rig → Option Work × Channel Rig
  | .transfer t, c => ((t.step c).1.rest?.map .transfer, (t.step c).2)
  | .call m, c => ((m.step c).1.rest?.map .call, (m.step c).2)

def transfer? : Work → Option Transfer
  | .transfer t => some t
  | .call m =>
    match m.stage with
    | .move _ t => some t
    | _ => none

end Work

def Channel.staged (c : Channel Rig) (offset : Nat) (data : List UInt8) : Channel Rig :=
  { c with hardware := (Hardware.poke offset data c.hardware).2 }

/-! ## Runs -/

/-- What a run has been through, as far as the state of the card does not show it. -/
structure Tally where
  /-- Whether the last reset of the controller ended. -/
  resetEnded : Bool := true
  /-- The interrupts that were on their way when the last transfer armed its signal. -/
  late : Nat := 0
  /-- Whether the card has raised the interrupt of the last transfer. -/
  answered : Bool := false
  deriving DecidableEq, Repr, Inhabited

namespace Tally

def afterStep (n : Tally) (t : Transfer) (c : Channel Rig) : Tally :=
  match t.stage with
  | .inspect =>
    if Transfer.isReady c.card.status then n else { n with resetEnded := c.reset.1.isOk }
  | .arm => { n with late := c.hardware.raised, answered := false }
  | .program => { n with answered := c.hardware.raised < (t.program c).hardware.raised }
  | _ => n

def afterDisturbance (n : Tally) (d : Disturbance) (c : Channel Rig) : Tally :=
  match d with
  | .raise => { n with answered := n.answered || c.card.pending }
  | _ => n

end Tally

/-- A card in use: its channel, the operation in hand and the tally of the run. -/
structure Traffic where
  channel : Channel Rig
  work : Option Work := none
  tally : Tally := {}

inductive Order where
  | transfer (start : UInt64) (count : Nat) (direction : Direction)
  | call (endpoint : MemoryEndpoint) (request : MemoryRequest)

def Order.work : Order → Work
  | .transfer start count direction => .transfer { start, count, direction }
  | .call endpoint request => .call { endpoint, request }

/-- What happens to a card in use. Orders, staging and resets have to wait for a free engine. -/
inductive Event where
  | order (o : Order)
  | stage (offset : Nat) (data : List UInt8)
  | reset
  | move (m : Move)

/-- Whether an event is not one of the bench that takes the idle bit away. -/
def Event.sparesIdle : Event → Bool
  | .move m => m.sparesIdle
  | _ => true

namespace Traffic

def transfer? (s : Traffic) : Option Transfer := s.work.bind Work.transfer?

def after (s : Traffic) : Event → Traffic
  | .order o =>
    match s.work with
    | none => { s with work := some o.work }
    | some _ => s
  | .stage offset data =>
    match s.work with
    | none => { s with channel := s.channel.staged offset data }
    | some _ => s
  | .reset =>
    match s.work with
    | none =>
      { s with channel := s.channel.reset.2,
               tally := { s.tally with resetEnded := s.channel.reset.1.isOk } }
    | some _ => s
  | .move .step =>
    match s.work with
    | none => s
    | some w =>
      { channel := (w.step s.channel).2
        work := (w.step s.channel).1
        tally := match w.transfer? with
          | none => s.tally
          | some t => s.tally.afterStep t s.channel }
  | .move (.disturb d) =>
    { s with channel := d.act s.channel, tally := s.tally.afterDisturbance d s.channel }

def run (s : Traffic) (events : List Event) : Traffic := events.foldl after s

end Traffic

/-- An engine that was made for the card's own buffer, and that the card's interrupts are led to. -/
def Attached (c : Channel Rig) : Prop :=
  ∃ (rig rig' : Rig) (buffer : HostBuffer) (settings : DmaSettings) (timeout : Nat) (engine : Engine),
    rig.card.buffer = some buffer ∧ rig.card.injected &&& Status.errors = rig.card.injected ∧
    Channel.start rig buffer.address buffer.size settings timeout = (.ok engine, rig') ∧
    c = ⟨engine, { rig' with routed := true }⟩

inductive Traffic.Reachable (allowed : Event → Bool) : Traffic → Prop where
  | attached (c : Channel Rig) (h : Attached c) : Reachable allowed { channel := c }
  | after (s : Traffic) (e : Event) (h : Reachable allowed s) (hallowed : allowed e = true) :
      Reachable allowed (s.after e)

theorem Traffic.Reachable.run {allowed : Event → Bool} {s : Traffic} (h : s.Reachable allowed)
    (events : List Event) (hallowed : events.all allowed = true) : (s.run events).Reachable allowed := by
  induction events generalizing s with
  | nil => exact h
  | cons e events ih =>
    rw [List.all_cons, Bool.and_eq_true] at hallowed
    exact ih (.after s e h hallowed.1) hallowed.2

/-! ## What a step can do -/

namespace MemoryCall

variable (m : MemoryCall) (c : Channel Rig)

theorem step_plan (h : m.stage = .plan) : m.step c = (m.plan c.engine, c) := by
  simp only [step, h]

theorem step_fill {span : Span} (h : m.stage = .fill span) :
    (m.step c).1 = .going { m with stage := m.transferOf span } ∧
    (m.step c).2 = match m.request with
      | .read _ => c
      | .write data => c.staged 0 data := by
  cases hrequest : m.request <;> simp [step, h, hrequest, Channel.staged]

theorem step_move {skip : Nat} {t : Transfer} (h : m.stage = .move skip t) :
    (m.step c).1 = (t.step c).1.lift (fun t => { m with stage := .move skip t }) (fun
      | .error e => m.fail e
      | .ok moved => .going { m with stage := .collect skip moved }) ∧
    (m.step c).2 = (t.step c).2 := by
  unfold step
  rw [h]
  exact ⟨rfl, rfl⟩

theorem step_collect {skip moved : Nat} (h : m.stage = .collect skip moved) :
    (∃ r, (m.step c).1 = .finished r) ∧ (m.step c).2 = c := by
  cases hrequest : m.request <;> simp [step, h, hrequest]

def planned (e : Engine) : Except CardError (Option Span) :=
  match m.request with
  | .read room => m.endpoint.planRead e room
  | .write data => m.endpoint.planWrite e data.length

theorem plan_cases (e : Engine) :
    (∃ error, m.planned e = .error error ∧ m.plan e = m.fail error) ∨
    (m.planned e = .ok none ∧ m.plan e = m.nothing) ∨
    ∃ span, m.planned e = .ok (some span) ∧ m.plan e = .going { m with stage := .fill span } := by
  unfold plan
  simp only
  split
  · rename_i error hplanned
    exact .inl ⟨error, hplanned, rfl⟩
  · rename_i hplanned
    exact .inr (.inl ⟨hplanned, rfl⟩)
  · rename_i span hplanned
    exact .inr (.inr ⟨span, hplanned, rfl⟩)

end MemoryCall

namespace Work

theorem step_cases (w : Work) (c : Channel Rig) :
    (∃ t, w.transfer? = some t ∧ (w.step c).2 = (t.step c).2 ∧
      (w.step c).1.bind transfer? = (t.step c).1.rest?) ∨
    (w.transfer? = none ∧ ((w.step c).2 = c ∨ ∃ data, (w.step c).2 = c.staged 0 data) ∧
      ∀ t', (w.step c).1.bind transfer? = some t' → t'.stage = .check) := by
  cases w with
  | transfer t =>
    refine .inl ⟨t, rfl, rfl, ?_⟩
    cases h : (t.step c).1 <;> simp [step, h, Progress.rest?, transfer?]
  | call m =>
    simp only [step]
    cases hstage : m.stage with
    | plan =>
      refine .inr ⟨by simp [transfer?, hstage], .inl (by rw [m.step_plan c hstage]), ?_⟩
      intro t' h
      rw [m.step_plan c hstage] at h
      obtain ⟨_, _, hplan⟩ | ⟨_, hplan⟩ | ⟨_, _, hplan⟩ := m.plan_cases c.engine
      · simp [hplan, MemoryCall.fail, Progress.rest?] at h
      · simp [hplan, MemoryCall.nothing, Progress.rest?] at h
      · simp [hplan, Progress.rest?, transfer?] at h
    | fill span =>
      obtain ⟨hnext, hchannel⟩ := m.step_fill c hstage
      rw [hnext, hchannel]
      refine .inr ⟨by simp [transfer?, hstage], ?_, ?_⟩
      · cases m.request with
        | read _ => exact .inl rfl
        | write data => exact .inr ⟨data, rfl⟩
      · intro t' h
        simp only [Progress.rest?, MemoryCall.transferOf, Option.map_some, Option.bind_some,
          transfer?, Option.some.injEq] at h
        rw [← h]
    | move skip t =>
      obtain ⟨hnext, hchannel⟩ := m.step_move c hstage
      rw [hnext, hchannel]
      refine .inl ⟨t, by simp [transfer?, hstage], rfl, ?_⟩
      cases (t.step c).1 with
      | going t => simp [Progress.lift, Progress.rest?, transfer?]
      | waiting t => simp [Progress.lift, Progress.rest?, transfer?]
      | finished r => cases r <;> simp [Progress.lift, Progress.rest?, transfer?, MemoryCall.fail]
    | collect skip moved =>
      obtain ⟨⟨r, hr⟩, hchannel⟩ := m.step_collect c hstage
      rw [hr, hchannel]
      refine .inr ⟨by simp [transfer?, hstage], .inl rfl, ?_⟩
      intro t' h
      simp [Progress.rest?] at h

end Work

theorem Traffic.after_step {s : Traffic} {t : Transfer} (h : s.transfer? = some t) :
    (s.after (.move .step)).channel = (t.step s.channel).2 ∧
    (s.after (.move .step)).tally = s.tally.afterStep t s.channel ∧
    (s.after (.move .step)).transfer? = (t.step s.channel).1.rest? := by
  cases hwork : s.work with
  | none => simp [transfer?, hwork] at h
  | some w =>
    have hw : w.transfer? = some t := by simpa [transfer?, hwork] using h
    obtain ⟨t', ht', hchannel, hrest⟩ | ⟨hnone, -⟩ := w.step_cases s.channel
    · obtain rfl : t' = t := by simpa [ht'] using hw
      simp only [after, hwork, transfer?]
      exact ⟨hchannel, by rw [hw], hrest⟩
    · simp [hw] at hnone

/-! ## Invariants of runs -/

namespace Traffic

/-- What has to be shown for a property of the channel and its tally, and one of the transfer in hand,
to hold in every reachable state. -/
structure Invariant (allowed : Event → Bool) (Inv : Channel Rig → Tally → Prop)
    (Hand : Transfer → Channel Rig → Tally → Prop) : Prop where
  attached : ∀ c, Attached c → Inv c {}
  staged : ∀ c n offset data, Inv c n → Inv (c.staged offset data) n
  reset : ∀ c n, Inv c n → Inv c.reset.2 { n with resetEnded := c.reset.1.isOk }
  fresh : ∀ t c n, Inv c n → t.stage = .check → Hand t c n
  act : ∀ (s : Traffic) d, s.Reachable allowed → allowed (.move (.disturb d)) = true →
    Inv s.channel s.tally → Inv (d.act s.channel) (s.tally.afterDisturbance d s.channel)
  hand : ∀ (s : Traffic) d t, s.Reachable allowed → allowed (.move (.disturb d)) = true →
    s.transfer? = some t → Hand t s.channel s.tally →
    Hand t (d.act s.channel) (s.tally.afterDisturbance d s.channel)
  step : ∀ (s : Traffic) t, s.Reachable allowed → s.transfer? = some t → Inv s.channel s.tally →
    Hand t s.channel s.tally →
    Inv (t.step s.channel).2 (s.tally.afterStep t s.channel) ∧
    ∀ t', (t.step s.channel).1.rest? = some t' →
      Hand t' (t.step s.channel).2 (s.tally.afterStep t s.channel)

theorem Reachable.invariant {allowed : Event → Bool} {Inv : Channel Rig → Tally → Prop}
    {Hand : Transfer → Channel Rig → Tally → Prop} {s : Traffic} (h : s.Reachable allowed)
    (hinv : Invariant allowed Inv Hand) :
    Inv s.channel s.tally ∧ ∀ t, s.transfer? = some t → Hand t s.channel s.tally := by
  induction h with
  | attached c hc => exact ⟨hinv.attached c hc, fun t ht => by cases ht⟩
  | after s e hs hallowed ih =>
    obtain ⟨hchannel, hhand⟩ := ih
    cases e with
    | order o =>
      cases hwork : s.work with
      | some w => simpa only [Traffic.after, hwork] using And.intro hchannel hhand
      | none =>
        simp only [Traffic.after, hwork]
        refine ⟨hchannel, ?_⟩
        intro t ht
        cases o with
        | transfer start count direction =>
          cases ht
          exact hinv.fresh _ _ _ hchannel rfl
        | call endpoint request => cases ht
    | stage offset data =>
      cases hwork : s.work with
      | some w => simpa only [Traffic.after, hwork] using And.intro hchannel hhand
      | none =>
        simp only [Traffic.after, hwork]
        exact ⟨hinv.staged _ _ _ _ hchannel, fun t ht => by simp [transfer?] at ht⟩
    | reset =>
      cases hwork : s.work with
      | some w => simpa only [Traffic.after, hwork] using And.intro hchannel hhand
      | none =>
        simp only [Traffic.after, hwork]
        exact ⟨hinv.reset _ _ hchannel, fun t ht => by simp [transfer?] at ht⟩
    | move m =>
      cases m with
      | disturb d =>
        exact ⟨hinv.act s d hs hallowed hchannel,
          fun t ht => hinv.hand s d t hs hallowed ht (hhand t ht)⟩
      | step =>
        cases hwork : s.work with
        | none => simpa only [Traffic.after, hwork] using And.intro hchannel hhand
        | some w =>
          obtain ⟨t, ht, hstep, hrest⟩ | ⟨hnone, hstep, hrest⟩ := w.step_cases s.channel
          · have hin : s.transfer? = some t := by simp [transfer?, hwork, ht]
            obtain ⟨hchannel', htally', hrest'⟩ := after_step hin
            rw [hchannel', htally', hrest']
            exact hinv.step s t hs hin hchannel (hhand t hin)
          · simp only [Traffic.after, hwork, hnone]
            have hafter : Inv (w.step s.channel).2 s.tally := by
              obtain hsame | ⟨data, hstaged⟩ := hstep
              · rw [hsame]
                exact hchannel
              · rw [hstaged]
                exact hinv.staged _ _ _ _ hchannel
            exact ⟨hafter, fun t' ht' => hinv.fresh _ _ _ hafter (hrest t' ht')⟩

end Traffic

/-! ## A small card -/

def smallRig : Rig := { card := { buffer := some { address := 0x1000, size := 4 } } }

/-- The small card with its engine, which moves pairs of bytes. -/
def smallChannel : Channel Rig :=
  { engine := { bufferAddress := 0x1000, bufferSize := 4, settings := { shift := 1 }, maxTransfer := 4,
                resetTimeout := 0 }
    hardware := { (Channel.start smallRig 0x1000 4 { shift := 1 } 0).2 with routed := true } }

theorem smallChannel_attached : Attached smallChannel :=
  ⟨smallRig, _, { address := 0x1000, size := 4 }, { shift := 1 }, 0, _, rfl, rfl, rfl, rfl⟩

theorem smallChannel_reachable (allowed : Event → Bool) :
    Traffic.Reachable allowed { channel := smallChannel } :=
  .attached smallChannel smallChannel_attached

def smallEndpoint : MemoryEndpoint :=
  { region := { name := "mem", base := 0x80000000, length := 8, permissions := .readWrite } }

/-- The moves of one call, whose transfer is answered before it waits. -/
def callMoves : List Move :=
  List.flatten [List.replicate 8 .step, [.disturb .deliver], List.replicate 4 .step]

def Traffic.steps (n : Nat) : List Event := List.replicate n (.move .step)

end FpgaCard
