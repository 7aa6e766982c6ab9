import FpgaCard.Proofs.Calls

/-!
# Calls that nothing disturbs

A call of a memory endpoint while nobody kills, closes or tampers with the card: the card answers when it
likes, and somebody may look at it. Main statement: what such a call comes to follows from the endpoint,
the request, card memory and the engine's limits alone, and it does come to an end.
-/

namespace FpgaCard

open Simulation

/-! ## What may come between -/

def Simulation.Probe.isIdle : Probe → Bool
  | .fault .. | .wedge | .stick .. | .poke .. | .store .. => false
  | _ => true

def Disturbance.isClean : Disturbance → Bool
  | .kill | .close => false
  | .deliver | .raise => true
  | .bench p _ => p.isIdle

def Move.isClean : Move → Bool
  | .step => true
  | .disturb d => d.isClean

theorem Move.sparesMemory_of_isClean {m : Move} (h : m.isClean = true) : m.sparesMemory = true := by
  cases m with
  | step => rfl
  | disturb d =>
    cases d with
    | bench p hp => cases p <;> first | rfl | cases h
    | _ => rfl

namespace Simulation.Card

@[simps]
def withMode (c : Card) (mode : CompletionMode) : Card := { c with mode }

theorem probe_idle (c : Card) {p : Probe} (h : p.isIdle = true) :
    ∃ mode w r, (c.probe p).2 = (false, (c.withMode mode).withLog w r) := by
  cases p with
  | mode mode => exact ⟨mode, c.writes, c.reads, rfl⟩
  | clearLog => exact ⟨c.mode, #[], 0, rfl⟩
  | load offset =>
    obtain ⟨r, hload⟩ : ∃ r, (c.load offset).2 = c.withLog c.writes r := by
      unfold load
      split
      · exact ⟨_, rfl⟩
      · exact ⟨c.reads, rfl⟩
    refine ⟨c.mode, c.writes, r, ?_⟩
    simp only [probe]
    rw [hload]
    rfl
  | pending => exact ⟨c.mode, c.writes, c.reads, rfl⟩
  | writes => exact ⟨c.mode, c.writes, c.reads, rfl⟩
  | reads => exact ⟨c.mode, c.writes, c.reads, rfl⟩
  | peek a n => exact ⟨c.mode, c.writes, c.reads, rfl⟩
  | size => exact ⟨c.mode, c.writes, c.reads, rfl⟩
  | summary => exact ⟨c.mode, c.writes, c.reads, rfl⟩
  | _ => cases h

end Simulation.Card

theorem Disturbance.act_clean (d : Disturbance) (c : Channel Rig) (h : d.isClean = true) :
    (∃ mode w r, d.act c = c.withCard ((c.card.withMode mode).withLog w r)) ∨
    (c.card.pending = true ∧ d.act c = (c.withCard c.card.released).answered true) ∨
    ∃ n, c.hardware.raised = n + 1 ∧ d.act c = (c.withRaised n).interrupt := by
  cases d with
  | kill => cases h
  | close => cases h
  | deliver =>
    obtain ⟨-, hact⟩ | ⟨n, hraised, hact⟩ := c.deliverOne_cases
    · exact .inl ⟨c.card.mode, c.card.writes, c.card.reads, hact⟩
    · exact .inr (.inr ⟨n, hraised, hact⟩)
  | raise =>
    obtain ⟨-, hact⟩ | ⟨hpending, hact⟩ := act_raise_cases c
    · exact .inl ⟨c.card.mode, c.card.writes, c.card.reads, hact⟩
    · exact .inr (.inl ⟨hpending, hact⟩)
  | bench p hp =>
    obtain ⟨mode, w, r, hprobe⟩ := c.card.probe_idle h
    refine .inl ⟨mode, w, r, ?_⟩
    simp only [act, Rig.probe]
    rw [hprobe]
    rfl

/-! ## Signals -/

namespace Channel

/-- An open engine on a card that nobody has tampered with. -/
structure Sober (c : Channel Rig) : Prop where
  fitted : Fitted c
  stuck : c.card.stuck = false
  injected : c.card.injected = 0
  control : c.card.control = Control.bothInterrupts
  closed : c.engine.closed = false
  killed : c.engine.completion.killed = false

/-- Where the answer to a transfer is, if there is one, and what the status says. -/
structure Shows (c : Channel Rig) (pending : Bool) (raised done : Nat) (status : UInt32) : Prop where
  pending : c.card.pending = pending
  raised : c.hardware.raised = raised
  done : c.engine.completion.done = done
  status : c.card.status = status

/-- The errors that a transfer shows which nobody tampered with. -/
def Genuine (errors : UInt32) : Prop := errors = 0 ∨ errors = Status.decodeError

/-- No transfer is about. What went wrong with the last one may still show. -/
def Rests (c : Channel Rig) : Prop := ∃ errors, Genuine errors ∧ c.Shows false 0 0 (Status.idle ||| errors)

/-- The answer to a transfer is in the card, on its way or with the engine. -/
def Awaits (c : Channel Rig) (errors : UInt32) : Prop :=
  c.Shows true 0 0 (Card.latch Status.idle errors &&& ~~~Status.idle) ∨
  c.Shows false 1 0 (Card.latch Status.idle errors) ∨
  c.Shows false 0 1 (Status.idle ||| errors)

variable {c : Channel Rig} {d : Disturbance}

theorem sober_of_attached (h : Attached c) (hinjected : c.card.injected = 0)
    (hraised : c.hardware.raised = 0) : c.Sober ∧ c.Rests := by
  obtain ⟨hfitted, hcontrol, hstatus, hpending, hcompletion, hclosed, hstuck⟩ := Fitted.of_attached h
  refine ⟨⟨hfitted, hstuck, hinjected, hcontrol, hclosed, ?_⟩, 0, .inl rfl, ?_⟩
  · rw [hcompletion]
  · refine ⟨hpending, hraised, ?_, hstatus⟩
    rw [hcompletion]

theorem Sober.act (h : c.Sober) (hd : d.isClean = true) : (d.act c).Sober := by
  have hfitted := h.fitted.act d
  obtain ⟨mode, w, r, hact⟩ | ⟨-, hact⟩ | ⟨n, -, hact⟩ := d.act_clean c hd
  · rw [hact] at hfitted ⊢
    exact ⟨hfitted, h.stuck, h.injected, h.control, h.closed, h.killed⟩
  · rw [hact] at hfitted ⊢
    exact ⟨hfitted, h.stuck, h.injected, h.control, h.closed, h.killed⟩
  · rw [hact] at hfitted ⊢
    exact ⟨hfitted, h.stuck, h.injected, h.control, h.closed, h.killed⟩

theorem Shows.act {status : UInt32} (h : c.Shows false 0 0 status) (hd : d.isClean = true) :
    (d.act c).Shows false 0 0 status := by
  obtain ⟨mode, w, r, hact⟩ | ⟨hpending, -⟩ | ⟨n, hraised, -⟩ := d.act_clean c hd
  · rw [hact]
    exact ⟨h.pending, h.raised, h.done, h.status⟩
  · rw [h.pending] at hpending
    cases hpending
  · rw [h.raised] at hraised
    cases hraised

theorem Sober.staged (h : c.Sober) (offset : Nat) (data : List UInt8) : (c.staged offset data).Sober :=
  ⟨h.fitted.staged offset data, h.stuck, h.injected, h.control, h.closed, h.killed⟩

theorem Rests.staged (h : c.Rests) (offset : Nat) (data : List UInt8) : (c.staged offset data).Rests := by
  obtain ⟨errors, hgenuine, hshows⟩ := h
  exact ⟨errors, hgenuine, hshows.pending, hshows.raised, hshows.done, hshows.status⟩

theorem Rests.act (h : c.Rests) (hd : d.isClean = true) : (d.act c).Rests := by
  obtain ⟨errors, hgenuine, hshows⟩ := h
  exact ⟨errors, hgenuine, hshows.act hd⟩

theorem latch_released {errors : UInt32} (h : Genuine errors) :
    Card.latch Status.idle errors &&& ~~~Status.idle ||| Status.idle =
      Card.latch Status.idle errors := by
  rcases h with rfl | rfl <;> decide

theorem latch_acknowledged {errors : UInt32} (h : Genuine errors) :
    Card.latch Status.idle errors &&& ~~~(Card.latch Status.idle errors &&& Status.interrupts) =
      Status.idle ||| errors := by
  rcases h with rfl | rfl <;> decide

theorem shows_released {errors : UInt32} (h : Genuine errors) (hrouted : c.hardware.routed = true)
    (hshows : c.Shows true 0 0 (Card.latch Status.idle errors &&& ~~~Status.idle)) :
    ((c.withCard c.card.released).answered true).Shows false 1 0 (Card.latch Status.idle errors) := by
  refine ⟨rfl, ?_, hshows.done, ?_⟩
  · simp [hrouted, hshows.raised]
  · simp only [answered_card, withCard_card, Card.released_status]
    rw [hshows.status, latch_released h]

theorem shows_interrupt {errors : UInt32} (h : Genuine errors)
    (hshows : c.Shows false 1 0 (Card.latch Status.idle errors)) :
    (c.withRaised 0).interrupt.Shows false 0 1 (Status.idle ||| errors) := by
  obtain ⟨w, r, hinterrupt⟩ := (c.withRaised 0).interrupt_eq
  rw [hinterrupt]
  refine ⟨hshows.pending, rfl, ?_, ?_⟩
  · show min (c.engine.completion.done + 1) Completion.doneMax = 1
    rw [hshows.done]
    decide
  · simp only [signal_card, withCard_card, withRaised_card, Card.withLog_status, Card.withStatus_status]
    rw [hshows.status, latch_acknowledged h]

theorem Awaits.act {errors : UInt32} (h : c.Awaits errors) (hgenuine : Genuine errors)
    (hrouted : c.hardware.routed = true) (hd : d.isClean = true) : (d.act c).Awaits errors := by
  obtain ⟨mode, w, r, hact⟩ | ⟨hpending, hact⟩ | ⟨n, hraised, hact⟩ := d.act_clean c hd
  · rw [hact]
    rcases h with h | h | h
    · exact .inl ⟨h.pending, h.raised, h.done, h.status⟩
    · exact .inr (.inl ⟨h.pending, h.raised, h.done, h.status⟩)
    · exact .inr (.inr ⟨h.pending, h.raised, h.done, h.status⟩)
  · rcases h with h | h | h
    · rw [hact]
      exact .inr (.inl (shows_released hgenuine hrouted h))
    · rw [h.pending] at hpending
      cases hpending
    · rw [h.pending] at hpending
      cases hpending
  · rcases h with h | h | h
    · rw [h.raised] at hraised
      cases hraised
    · rw [h.raised] at hraised
      cases hraised
      rw [hact]
      exact .inr (.inr (shows_interrupt hgenuine h))
    · rw [h.raised] at hraised
      cases hraised

theorem shows_deliver {errors : UInt32} (h : Genuine errors)
    (hshows : c.Shows false 1 0 (Card.latch Status.idle errors) ∨
      c.Shows false 0 1 (Status.idle ||| errors)) :
    (Disturbance.deliver.act c).Shows false 0 1 (Status.idle ||| errors) := by
  simp only [Disturbance.act]
  obtain ⟨hnone, hdeliver⟩ | ⟨n, hraised, hdeliver⟩ := c.deliverOne_cases
  · rw [hdeliver]
    rcases hshows with hshows | hshows
    · rw [hshows.raised] at hnone
      cases hnone
    · exact hshows
  · rw [hdeliver]
    rcases hshows with hshows | hshows
    · rw [hshows.raised] at hraised
      cases hraised
      exact shows_interrupt h hshows
    · rw [hshows.raised] at hraised
      cases hraised

theorem Awaits.answered {errors : UInt32} (h : c.Awaits errors) (hgenuine : Genuine errors)
    (hrouted : c.hardware.routed = true) :
    (Disturbance.deliver.act (Disturbance.raise.act c)).Shows false 0 1 (Status.idle ||| errors) := by
  apply shows_deliver hgenuine
  obtain ⟨hnone, hact⟩ | ⟨hpending, hact⟩ := Disturbance.act_raise_cases c
  · rw [hact]
    rcases h with h | h
    · rw [h.pending] at hnone
      cases hnone
    · exact h
  · rw [hact]
    left
    rcases h with h | h | h
    · exact shows_released hgenuine hrouted h
    · rw [h.pending] at hpending
      cases hpending
    · rw [h.pending] at hpending
      cases hpending

end Channel

/-! ## Transfers -/

/-- What a transfer shows that would move bytes from one place in the buffer to another. -/
def Engine.errorsOf (e : Engine) (start : UInt64) (count : Nat) : UInt32 :=
  if (HostBuffer.offsetOf? { address := e.bufferAddress, size := e.bufferSize } start count).isSome then
    Status.decodeError
  else 0

theorem Engine.errorsOf_genuine (e : Engine) (start : UInt64) (count : Nat) :
    Channel.Genuine (e.errorsOf start count) := by
  unfold errorsOf
  split
  · exact .inr rfl
  · exact .inl rfl

theorem Engine.errorsOf_like {e e' : Engine} (h : e.Like e') (start : UInt64) (count : Nat) :
    e'.errorsOf start count = e.errorsOf start count := by
  obtain ⟨_, _, rfl⟩ := h
  rfl

theorem Fitted.errorsOf_eq {c : Channel Rig} (h : Fitted c) {b : HostBuffer} (hb : c.card.buffer = some b)
    (start : UInt64) (count : Nat) : c.engine.errorsOf start count =
      if (b.offsetOf? start count).isSome then Status.decodeError else 0 := by
  obtain ⟨b₀, hb₀, haddress, hsize⟩ := h.buffer
  obtain rfl : b₀ = b := by rw [hb₀] at hb; cases hb; rfl
  unfold Engine.errorsOf HostBuffer.offsetOf?
  rw [haddress, hsize]

namespace Transfer

def due (asked : Transfer) (e : Engine) : Except CardError Nat :=
  match asked.check e with
  | .finished r => r
  | .going t | .waiting t =>
    if e.errorsOf t.start t.count = 0 then .ok t.count
    else .error (.transferFault (Status.idle ||| e.errorsOf t.start t.count))

theorem due_ne_killed (asked : Transfer) (e : Engine) : asked.due e ≠ .error .transferKilled := by
  intro h
  unfold due at h
  split at h
  · rename_i r hcheck
    unfold check at hcheck
    simp only at hcheck
    split at hcheck
    · cases hcheck
      cases h
    · split at hcheck
      · cases hcheck
        cases h
      · cases hcheck
  · split at h <;> cases h
  · split at h <;> cases h

theorem due_ok {asked : Transfer} {e : Engine} {n : Nat} (h : asked.due e = .ok n) :
    n = min asked.count e.maxTransfer := by
  unfold due at h
  obtain ⟨error, hcheck⟩ | ⟨-, -, hcheck⟩ := asked.check_cases e
  · rw [hcheck] at h
    cases h
  · rw [hcheck] at h
    simp only at h
    split at h
    · cases h
      rfl
    · cases h

/-- The transfer that was asked for, once it has passed its check. -/
def cut (asked : Transfer) (e : Engine) (stage : Stage) : Transfer :=
  { asked with count := min asked.count e.maxTransfer, stage }

theorem check_like {e e' : Engine} (h : e.Like e') (t : Transfer) : t.check e' = t.check e := by
  obtain ⟨_, _, rfl⟩ := h
  rfl

theorem Sound.step_sober {t : Transfer} {c : Channel Rig} (h : t.Sound c) (hsober : c.Sober) :
    (t.step c).2.Sober := by
  have hfitted := h.step.1
  cases hstage : t.stage with
  | check =>
    rw [t.step_check c hstage]
    exact hsober
  | give =>
    rw [t.step_give c hstage] at hfitted ⊢
    exact ⟨hfitted, hsober.stuck, hsober.injected, hsober.control, hsober.closed, hsober.killed⟩
  | inspect =>
    obtain ⟨-, w, r, hstep⟩ | ⟨-, -, w, r, hstep⟩ | ⟨-, hstuck, -⟩ := t.step_inspect c hstage
    · rw [hstep] at hfitted ⊢
      exact ⟨hfitted, hsober.stuck, hsober.injected, hsober.control, hsober.closed, hsober.killed⟩
    · rw [hstep] at hfitted ⊢
      exact ⟨hfitted, hsober.stuck, hsober.injected, rfl, hsober.closed, hsober.killed⟩
    · rw [hsober.stuck] at hstuck
      cases hstuck
  | arm =>
    rw [t.step_arm c hstage] at hfitted ⊢
    exact ⟨hfitted, hsober.stuck, hsober.injected, hsober.control, hsober.closed, hsober.killed⟩
  | enter =>
    rw [t.step_enter c hstage, hsober.closed]
    exact hsober
  | program =>
    rw [t.step_program c hstage] at hfitted ⊢
    obtain ⟨b, errors, memory, buffer, card, -, -, -, -, ⟨w, rfl⟩, hprogram⟩ := h.program_cases hstage
    obtain ⟨-, -, hprogram⟩ | ⟨-, hprogram⟩ := hprogram
    · rw [hprogram] at hfitted ⊢
      exact ⟨hfitted, hsober.stuck, rfl, hsober.control, hsober.closed, hsober.killed⟩
    · rw [hprogram] at hfitted ⊢
      exact ⟨hfitted, hsober.stuck, rfl, hsober.control, hsober.closed, hsober.killed⟩
  | await =>
    obtain ⟨hkilled, -⟩ | ⟨-, -, hstep⟩ | ⟨-, -, hstep⟩ := t.step_await c hstage
    · rw [hsober.killed] at hkilled
      cases hkilled
    · rw [hstep] at hfitted ⊢
      exact ⟨hfitted, hsober.stuck, hsober.injected, hsober.control, hsober.closed, hsober.killed⟩
    · rw [hstep]
      exact hsober
  | take =>
    rw [t.step_take c hstage] at hfitted ⊢
    exact ⟨hfitted, hsober.stuck, hsober.injected, hsober.control, hsober.closed, hsober.killed⟩
  | conclude =>
    obtain ⟨w, hstep⟩ := t.step_conclude c hstage
    rw [hstep] at hfitted ⊢
    exact ⟨hfitted, hsober.stuck, hsober.injected, hsober.control, hsober.closed, hsober.killed⟩

/-- What the signals show at each stage of a transfer with these errors. -/
def Signals (errors : UInt32) (c : Channel Rig) : Stage → Prop
  | .check => c.Rests
  | .give => c.Rests
  | .inspect => c.Rests
  | .arm => c.Shows false 0 0 Status.idle
  | .enter => c.Shows false 0 0 Status.idle
  | .program => c.Shows false 0 0 Status.idle
  | .await => c.Awaits errors
  | .take => c.Shows false 0 0 (Status.idle ||| errors)
  | .conclude => c.Shows false 0 0 (Status.idle ||| errors)

/-- A transfer on its way that was asked for of an engine like `e`. -/
structure Steady (asked t : Transfer) (e : Engine) (c : Channel Rig) : Prop where
  sober : c.Sober
  like : e.Like c.engine
  fresh : t.stage = .check → t = asked
  passed : t.stage ≠ .check → asked.check e = .going (asked.cut e .give) ∧ t = asked.cut e t.stage
  signals : Signals (e.errorsOf t.start t.count) c t.stage

namespace Steady

variable {asked t : Transfer} {e : Engine} {c : Channel Rig}

theorem of_check (hsober : c.Sober) (hlike : e.Like c.engine) (hrests : c.Rests)
    (hstage : asked.stage = .check) : Steady asked asked e c := by
  refine ⟨hsober, hlike, fun _ => rfl, fun hchecked => absurd hstage hchecked, ?_⟩
  rw [hstage]
  exact hrests

theorem act (h : Steady asked t e c) {d : Disturbance} (hd : d.isClean = true) :
    Steady asked t e (d.act c) := by
  refine ⟨h.sober.act hd, h.like.trans (d.act_spared c).engine, h.fresh, h.passed, ?_⟩
  have hsignals := h.signals
  cases hstage : t.stage with
  | await =>
    rw [hstage] at hsignals
    exact Channel.Awaits.act hsignals (e.errorsOf_genuine _ _) h.sober.fitted.routed hd
  | _ =>
    rw [hstage] at hsignals
    exact hsignals.act hd

theorem goto (h : Steady asked t e c) (hchecked : t.stage ≠ .check) {stage : Stage}
    (hstage : stage ≠ .check) {c' : Channel Rig} (hsober : c'.Sober) (hlike : e.Like c'.engine)
    (hsignals : Signals (e.errorsOf t.start t.count) c' stage) :
    Steady asked { t with stage } e c' := by
  obtain ⟨hpassed, hcut⟩ := h.passed hchecked
  refine ⟨hsober, hlike, fun hcheck => absurd hcheck hstage, fun _ => ⟨hpassed, ?_⟩, hsignals⟩
  exact congrArg (fun t : Transfer => { t with stage }) hcut

theorem errors_eq (h : Steady asked t e c) {b b' : HostBuffer} (hb : c.card.buffer = some b)
    {errors : UInt32} {memory : Memory}
    (hcarried : Carried c.card.injected c.card.memory b t.start t.count t.direction errors memory b') :
    errors = e.errorsOf t.start t.count := by
  rw [← Engine.errorsOf_like h.like, h.sober.fitted.errorsOf_eq hb]
  generalize t.direction = direction at hcarried
  cases hcarried with
  | fault _ hfault => exact absurd h.sober.injected hfault
  | inside _ _ hinside => rw [if_pos hinside]
  | toDevice _ houtside =>
    rw [houtside]
    rfl
  | fromDevice _ houtside =>
    rw [houtside]
    rfl

theorem program (h : Steady asked t e c) (hsound : t.Sound c) (hstage : t.stage = .program) :
    (t.program c).Awaits (e.errorsOf t.start t.count) := by
  have hsignals := h.signals
  rw [hstage] at hsignals
  obtain ⟨b, errors, memory, buffer, card, hb, -, -, hcarried, ⟨w, rfl⟩, hprogram⟩ :=
    hsound.program_cases hstage
  obtain rfl := h.errors_eq hb hcarried
  have henabled := enabled_of_both (e.errorsOf t.start t.count)
  rw [← h.sober.control] at henabled
  obtain ⟨-, -, hprogram⟩ | ⟨-, hprogram⟩ := hprogram
  · rw [hprogram]
    refine .inl ⟨rfl, hsignals.raised, hsignals.done, ?_⟩
    simp only [Channel.withCard_card, Card.holding_status]
    rw [hsignals.status]
  · rw [hprogram, henabled]
    refine .inr (.inl ⟨hsignals.pending, ?_, hsignals.done, ?_⟩)
    · simp [h.sober.fitted.routed, hsignals.raised]
    · simp only [Channel.answered_card, Channel.withCard_card, Card.withStatus_status]
      rw [hsignals.status]

theorem step (h : Steady asked t e c) (hsound : t.Sound c) {t' : Transfer}
    (h' : (t.step c).1.rest? = some t') : Steady asked t' e (t.step c).2 := by
  have hlike := h.like.trans hsound.step_like
  have hsober := hsound.step_sober h.sober
  have hsignals := h.signals
  cases hstage : t.stage with
  | check =>
    rw [hstage] at hsignals
    have hfresh := h.fresh hstage
    rw [t.step_check c hstage] at hsober
    rw [t.step_check c hstage, check_like h.like] at h' ⊢
    obtain ⟨error, hcheck⟩ | ⟨-, -, hcheck⟩ := t.check_cases e
    · rw [hcheck] at h'
      cases h'
    · rw [hcheck] at h'
      cases h'
      refine ⟨hsober, h.like, fun hcheck => (by cases hcheck), fun _ => ⟨?_, ?_⟩, hsignals⟩
      · rw [← hfresh]
        exact hcheck
      · rw [← hfresh]
        rfl
  | give =>
    rw [hstage] at hsignals
    rw [t.step_give c hstage] at h' hlike hsober ⊢
    cases h'
    refine h.goto (by simp [hstage]) (by simp) hsober hlike ?_
    obtain ⟨errors, hgenuine, hshows⟩ := hsignals
    exact ⟨errors, hgenuine, hshows.pending, hshows.raised, hshows.done, hshows.status⟩
  | inspect =>
    rw [hstage] at hsignals
    obtain ⟨errors, hgenuine, hshows⟩ := hsignals
    obtain ⟨hready, w, r, hstep⟩ | ⟨-, -, w, r, hstep⟩ | ⟨-, -, w, r, hstep⟩ := t.step_inspect c hstage
    · rw [hstep] at h' hlike hsober ⊢
      cases h'
      refine h.goto (by simp [hstage]) (by simp) hsober hlike ?_
      -- A controller that is well shows no errors.
      have hclean : c.card.status = Status.idle := by
        rw [hshows.status] at hready ⊢
        rcases hgenuine with rfl | rfl
        · rfl
        · cases hready
      exact ⟨hshows.pending, hshows.raised, hshows.done, hclean⟩
    · rw [hstep] at h' hlike hsober ⊢
      cases h'
      refine h.goto (by simp [hstage]) (by simp) hsober hlike ?_
      exact ⟨rfl, hshows.raised, hshows.done, rfl⟩
    · rw [hstep] at h'
      cases h'
  | arm =>
    rw [hstage] at hsignals
    rw [t.step_arm c hstage] at h' hlike hsober ⊢
    cases h'
    refine h.goto (by simp [hstage]) (by simp) hsober hlike ?_
    exact ⟨hsignals.pending, hsignals.raised, rfl, hsignals.status⟩
  | enter =>
    rw [hstage] at hsignals
    rw [t.step_enter c hstage, h.sober.closed] at h' hlike hsober ⊢
    cases h'
    exact h.goto (by simp [hstage]) (by simp) hsober hlike hsignals
  | program =>
    have hawaits := h.program hsound hstage
    rw [t.step_program c hstage] at h' hlike hsober ⊢
    cases h'
    exact h.goto (by simp [hstage]) (by simp) hsober hlike hawaits
  | await =>
    rw [hstage] at hsignals
    obtain ⟨hkilled, -⟩ | ⟨-, hdone, hstep⟩ | ⟨-, -, hstep⟩ := t.step_await c hstage
    · rw [h.sober.killed] at hkilled
      cases hkilled
    · rw [hstep] at h' hlike hsober ⊢
      cases h'
      refine h.goto (by simp [hstage]) (by simp) hsober hlike ?_
      rcases hsignals with hshows | hshows | hshows
      · rw [hshows.done] at hdone
        cases hdone
      · rw [hshows.done] at hdone
        cases hdone
      · refine ⟨hshows.pending, hshows.raised, ?_, hshows.status⟩
        show c.engine.completion.done - 1 = 0
        rw [hshows.done]
    · rw [hstep] at h' ⊢
      cases h'
      exact h
  | take =>
    rw [hstage] at hsignals
    rw [t.step_take c hstage] at h' hlike hsober ⊢
    cases h'
    refine h.goto (by simp [hstage]) (by simp) hsober hlike ?_
    exact ⟨hsignals.pending, hsignals.raised, hsignals.done, hsignals.status⟩
  | conclude =>
    obtain ⟨_, hstep⟩ := t.step_conclude c hstage
    rw [hstep] at h'
    cases h'

theorem ended (h : Steady asked t e c) (hsound : t.Sound c) {r : Except CardError Nat}
    (h' : (t.step c).1 = .finished r) :
    r = asked.due e ∧ (t.step c).2.Sober ∧ (t.step c).2.Rests := by
  have hsober := hsound.step_sober h.sober
  have hsignals := h.signals
  cases hstage : t.stage with
  | check =>
    rw [hstage] at hsignals
    rw [t.step_check c hstage, check_like h.like, h.fresh hstage] at h'
    simp only at h'
    rw [t.step_check c hstage] at hsober ⊢
    refine ⟨?_, hsober, hsignals⟩
    unfold due
    rw [h']
  | give => simp [t.step_give c hstage, Transfer.goto] at h'
  | inspect =>
    obtain ⟨-, w, r, hstep⟩ | ⟨-, -, w, r, hstep⟩ | ⟨-, hstuck, -⟩ := t.step_inspect c hstage
    · simp [hstep, Transfer.goto] at h'
    · simp [hstep, Transfer.goto] at h'
    · rw [h.sober.stuck] at hstuck
      cases hstuck
  | arm => simp [t.step_arm c hstage, Transfer.goto] at h'
  | enter => simp [t.step_enter c hstage, h.sober.closed, Transfer.goto] at h'
  | program => simp [t.step_program c hstage, Transfer.goto] at h'
  | await =>
    obtain ⟨hkilled, -⟩ | ⟨-, -, hstep⟩ | ⟨-, -, hstep⟩ := t.step_await c hstage
    · rw [h.sober.killed] at hkilled
      cases hkilled
    · simp [hstep, Transfer.goto] at h'
    · simp [hstep] at h'
  | take => simp [t.step_take c hstage, Transfer.goto] at h'
  | conclude =>
    rw [hstage] at hsignals
    obtain ⟨hpassed, hcut⟩ := h.passed (by simp [hstage])
    obtain ⟨w, hstep⟩ := t.step_conclude c hstage
    rw [hstep] at h' hsober ⊢
    have hgenuine := e.errorsOf_genuine t.start t.count
    refine ⟨?_, hsober, e.errorsOf t.start t.count, hgenuine, ?_⟩
    · cases h'
      unfold due
      rw [hpassed]
      simp only
      have hsame : e.errorsOf (asked.cut e .give).start (asked.cut e .give).count =
          e.errorsOf t.start t.count := by rw [hcut]; rfl
      have hcount : (asked.cut e .give).count = t.count := by rw [hcut]; rfl
      rw [hsame, hcount, hsignals.status]
      rcases hgenuine with hclean | hfault
      · rw [hclean]
        rfl
      · rw [hfault]
        rfl
    · exact ⟨hsignals.pending, hsignals.raised, hsignals.done, hsignals.status⟩

end Steady

end Transfer

/-! ## Calls -/

namespace MemoryCall

def asked (m : MemoryCall) (span : Span) : Transfer :=
  { start := UInt64.ofNat span.start, count := span.count, direction := m.direction }

def due (m : MemoryCall) (e : Engine) (memory : Memory) : MemoryResult × Memory :=
  match m.planned e with
  | .error error => (⟨m.endpoint, .error error⟩, memory)
  | .ok none => (⟨m.endpoint, .ok { count := 0 }⟩, memory)
  | .ok (some span) =>
    match (m.asked span).due e with
    | .error error => (⟨m.endpoint, .error error⟩, memory)
    | .ok n =>
      match m.request with
      | .read room =>
        let count := min room (n - span.skip)
        let data := memory.read (UInt64.ofNat (span.start + span.skip)) count
        (⟨m.endpoint.advance count, .ok { count, data }⟩, memory)
      | .write data =>
        (⟨m.endpoint.advance n, .ok { count := n }⟩,
          memory.write (UInt64.ofNat span.start) (data.take n))

theorem due_like (m : MemoryCall) {e e' : Engine} (h : e.Like e') (memory : Memory) :
    m.due e' memory = m.due e memory := by
  unfold due
  rw [m.planned_like h]
  obtain ⟨_, _, rfl⟩ := h
  rfl

theorem ok_of_collect {m : MemoryCall} {c : Channel Rig} {skip n : Nat} {r : MemoryResult}
    (hstage : m.stage = .collect skip n) (h : (m.step c).1 = .finished r) :
    ∃ moved, r.result = .ok moved := by
  unfold step at h
  rw [hstage] at h
  simp only at h
  split at h
  · cases h
    exact ⟨_, rfl⟩
  · cases h
    exact ⟨_, rfl⟩

theorem Ended.eq_due {m : MemoryCall} {e : Engine} {memory memory' : Memory} {r : MemoryResult}
    {span : Span} {n : Nat} (h : Ended m.endpoint m.request e memory r memory')
    (hok : ∃ moved, r.result = .ok moved) (hspan : m.planned e = .ok (some span))
    (hdue : (m.asked span).due e = .ok n) : (r, memory') = m.due e memory := by
  obtain ⟨moved, hok⟩ := hok
  have hn := Transfer.due_ok hdue
  unfold due
  simp only [hspan, hdue]
  unfold planned at hspan
  cases h with
  | failed error => cases hok
  | nothing hnone =>
    unfold planned at hnone
    simp only [hspan] at hnone
    cases hnone
  | read room span' n' hrequest hplan hn' =>
    simp only [hrequest, hplan] at hspan ⊢
    cases hspan
    obtain rfl : n' = n := hn'.trans hn.symm
    rfl
  | written data span' n' hrequest hplan hn' =>
    simp only [hrequest, hplan] at hspan ⊢
    cases hspan
    obtain rfl : n' = n := hn'.trans hn.symm
    rfl
  | killed => cases hok

structure Steady (m : MemoryCall) (e : Engine) (c : Channel Rig) : Prop where
  sober : c.Sober
  resting : (∀ skip t, m.stage ≠ .move skip t) → c.Rests
  filling : ∀ span, m.stage = .fill span → m.planned e = .ok (some span)
  moving : ∀ skip t, m.stage = .move skip t →
    ∃ span, m.planned e = .ok (some span) ∧ skip = span.skip ∧ (m.asked span).Steady t e c
  collecting : ∀ skip moved, m.stage = .collect skip moved →
    ∃ span, m.planned e = .ok (some span) ∧ skip = span.skip ∧ (m.asked span).due e = .ok moved

namespace Steady

variable {m : MemoryCall} {e : Engine} {c : Channel Rig}

theorem of_plan (hsober : c.Sober) (hrests : c.Rests) (hstage : m.stage = .plan) : m.Steady e c :=
  ⟨hsober, fun _ => hrests, by simp [hstage], by simp [hstage], by simp [hstage]⟩

theorem of_fill (hsober : c.Sober) (hrests : c.Rests) {span : Span}
    (hspan : m.planned e = .ok (some span)) (hstage : m.stage = .fill span) : m.Steady e c := by
  refine ⟨hsober, fun _ => hrests, ?_, by simp [hstage], by simp [hstage]⟩
  intro span' hfill
  rw [hstage] at hfill
  cases hfill
  exact hspan

theorem act (h : m.Steady e c) {d : Disturbance} (hd : d.isClean = true) : m.Steady e (d.act c) := by
  refine ⟨h.sober.act hd, fun hrest => (h.resting hrest).act hd, h.filling, ?_, h.collecting⟩
  intro skip t hstage
  obtain ⟨span, hspan, hskip, ht⟩ := h.moving skip t hstage
  exact ⟨span, hspan, hskip, ht.act hd⟩

theorem of_moving {span : Span} {t : Transfer} (hspan : m.planned e = .ok (some span))
    (ht : (m.asked span).Steady t e c) : Steady { m with stage := .move span.skip t } e c := by
  refine ⟨ht.sober, fun hmove => absurd rfl (hmove span.skip t), fun _ hstage => (by cases hstage), ?_,
    fun _ _ hstage => (by cases hstage)⟩
  rintro _ _ ⟨⟩
  exact ⟨span, hspan, rfl, ht⟩

theorem step (h : m.Steady e c) (hlike : e.Like c.engine)
    (hsound : ∀ skip t, m.stage = .move skip t → t.Sound c) {m' : MemoryCall}
    (h' : (m.step c).1.rest? = some m') : m'.Steady e (m.step c).2 := by
  cases hstage : m.stage with
  | plan =>
    have hrests := h.resting (by simp [hstage])
    rw [m.step_plan c hstage] at h' ⊢
    obtain ⟨_, -, hplan⟩ | ⟨-, hplan⟩ | ⟨span, hspan, hplan⟩ := m.plan_cases c.engine
    · rw [hplan] at h'
      cases h'
    · rw [hplan] at h'
      cases h'
    · rw [hplan] at h'
      cases h'
      rw [m.planned_like hlike] at hspan
      exact of_fill h.sober hrests hspan rfl
  | fill span =>
    have hrests := h.resting (by simp [hstage])
    obtain ⟨hnext, hchannel⟩ := m.step_fill c hstage
    have hspan := h.filling span hstage
    have hmoving {c' : Channel Rig} (hsober : c'.Sober) (hlike : e.Like c'.engine) (hrests : c'.Rests) :
        Steady { m with stage := m.transferOf span } e c' :=
      of_moving hspan (Transfer.Steady.of_check hsober hlike hrests rfl)
    rw [hnext] at h'
    cases h'
    rw [hchannel]
    split
    · exact hmoving h.sober hlike hrests
    · rename_i data _
      exact hmoving (h.sober.staged 0 data) hlike (hrests.staged 0 data)
  | move skip t =>
    obtain ⟨hnext, hchannel⟩ := m.step_move c hstage
    obtain ⟨span, hspan, rfl, ht⟩ := h.moving skip t hstage
    rw [hnext] at h'
    rw [hchannel]
    cases hp : (t.step c).1 with
    | going t' =>
      rw [hp] at h'
      cases h'
      exact of_moving hspan (ht.step (hsound _ t hstage) (by rw [hp]; rfl))
    | waiting t' =>
      rw [hp] at h'
      cases h'
      exact of_moving hspan (ht.step (hsound _ t hstage) (by rw [hp]; rfl))
    | finished r =>
      obtain ⟨hdue, hsober, hrests⟩ := ht.ended (hsound _ t hstage) hp
      rw [hp] at h'
      cases r with
      | error error => cases h'
      | ok moved =>
        cases h'
        refine ⟨hsober, fun _ => hrests, fun _ hfill => (by cases hfill),
          fun _ _ hmove => (by cases hmove), ?_⟩
        rintro _ _ ⟨⟩
        exact ⟨span, hspan, rfl, hdue.symm⟩
  | collect skip moved =>
    obtain ⟨⟨r, hr⟩, -⟩ := m.step_collect c hstage
    rw [hr] at h'
    cases h'

theorem ended (h : m.Steady e c) {endpoint : MemoryEndpoint} {request : MemoryRequest} {memory : Memory}
    (hunder : Underway endpoint request e memory m c) {r : MemoryResult}
    (h' : (m.step c).1 = .finished r) :
    (r, (m.step c).2.card.memory) = m.due e memory ∧ (m.step c).2.Sober ∧ (m.step c).2.Rests := by
  cases hunder.stands with
  | plan hstage hm =>
    have hrests := h.resting (by simp [hstage])
    rw [m.step_plan c hstage] at h' ⊢
    refine ⟨?_, h.sober, hrests⟩
    unfold due
    rw [← m.planned_like hunder.like]
    obtain ⟨error, hspan, hplan⟩ | ⟨hspan, hplan⟩ | ⟨span, -, hplan⟩ := m.plan_cases c.engine
    · rw [hplan] at h'
      cases h'
      simp only [hspan, hm]
    · rw [hplan] at h'
      cases h'
      simp only [hspan, hm]
    · rw [hplan] at h'
      cases h'
  | fill span hstage =>
    rw [(m.step_fill c hstage).1] at h'
    cases h'
  | move span view t hstage hspan hview hmove =>
    obtain ⟨hnext, hchannel⟩ := m.step_move c hstage
    obtain ⟨span', hspan', -, ht⟩ := h.moving _ t hstage
    obtain rfl : span = span' := by rw [hspan] at hspan'; cases hspan'; rfl
    rw [hnext] at h'
    rw [hchannel]
    cases hp : (t.step c).1 with
    | going t' => rw [hp] at h'; cases h'
    | waiting t' => rw [hp] at h'; cases h'
    | finished result =>
      rw [hp] at h'
      obtain ⟨hdue, hsober, hrests⟩ := ht.ended hmove.sound hp
      cases result with
      | ok moved => cases h'
      | error error =>
        cases h'
        refine ⟨?_, hsober, hrests⟩
        have hmemory : (t.step c).2.card.memory = memory := by
          obtain hmemory | ⟨rfl, -⟩ := hmove.done hp
          · exact hmemory
          · exact absurd hdue.symm ((m.asked span).due_ne_killed e)
        unfold due
        simp only [hspan, ← hdue, hmemory]
  | collect span view moved hstage hspan hview hdone =>
    -- What the call takes of the transfer is known from the ways in which any call can end.
    obtain ⟨span', hspan', -, hdue⟩ := h.collecting _ moved hstage
    obtain rfl : span = span' := by rw [hspan] at hspan'; cases hspan'; rfl
    obtain ⟨-, -, hended⟩ := hunder.ended h'
    rw [(m.step_collect c hstage).2] at hended ⊢
    rw [← hunder.endpoint, ← hunder.request] at hended
    refine ⟨?_, h.sober, h.resting (by simp [hstage])⟩
    exact hended.eq_due (ok_of_collect hstage h') hspan hdue

end Steady

/-- A call on its way that nothing disturbs. -/
structure Alone (endpoint : MemoryEndpoint) (request : MemoryRequest) (e : Engine) (memory : Memory)
    (m : MemoryCall) (c : Channel Rig) : Prop where
  underway : Underway endpoint request e memory m c
  steady : m.Steady e c

namespace Alone

variable {endpoint : MemoryEndpoint} {request : MemoryRequest} {e : Engine} {memory : Memory}
  {m : MemoryCall} {c : Channel Rig}

theorem start (endpoint : MemoryEndpoint) (request : MemoryRequest) (hsober : c.Sober) (hrests : c.Rests) :
    Alone endpoint request c.engine c.card.memory { endpoint, request } c :=
  ⟨⟨hsober.fitted, .refl _, rfl, rfl, .plan rfl rfl⟩, .of_plan hsober hrests rfl⟩

theorem act (h : Alone endpoint request e memory m c) {d : Disturbance} (hd : d.isClean = true) :
    Alone endpoint request e memory m (d.act c) :=
  ⟨h.underway.act d (Move.sparesMemory_of_isClean hd), h.steady.act hd⟩

theorem sound (h : Alone endpoint request e memory m c) {skip : Nat} {t : Transfer}
    (hstage : m.stage = .move skip t) : t.Sound c := by
  cases h.underway.stands with
  | plan hplan =>
    rw [hstage] at hplan
    cases hplan
  | fill span hfill =>
    rw [hstage] at hfill
    cases hfill
  | move span view t' hmove _ _ hsound =>
    rw [hstage] at hmove
    cases hmove
    exact hsound.sound
  | collect span view moved hcollect =>
    rw [hstage] at hcollect
    cases hcollect

theorem step (h : Alone endpoint request e memory m c) {m' : MemoryCall}
    (h' : (m.step c).1.rest? = some m') : Alone endpoint request e memory m' (m.step c).2 :=
  ⟨h.underway.step h', h.steady.step h.underway.like (fun _ _ hstage => h.sound hstage) h'⟩

structure Ended (endpoint : MemoryEndpoint) (request : MemoryRequest) (e : Engine) (memory : Memory)
    (r : MemoryResult) (c : Channel Rig) : Prop where
  due : (r, c.card.memory) = due { endpoint, request } e memory
  like : e.Like c.engine
  sober : c.Sober
  rests : c.Rests

theorem ended (h : Alone endpoint request e memory m c) {r : MemoryResult}
    (h' : (m.step c).1 = .finished r) : Ended endpoint request e memory r (m.step c).2 := by
  obtain ⟨hdue, hsober, hrests⟩ := h.steady.ended h.underway h'
  obtain ⟨-, hlike, -⟩ := h.underway.ended h'
  obtain ⟨rfl, rfl⟩ := And.intro h.underway.endpoint h.underway.request
  exact ⟨hdue, hlike, hsober, hrests⟩

theorem step_cases (m : MemoryCall) (c : Channel Rig)
    (hanswered : ∀ skip t, m.stage = .move skip t → t.stage = .await → 0 < c.engine.completion.done) :
    (∃ r, (m.step c).1 = .finished r) ∨
    ∃ m', (m.step c).1 = .going m' ∧ m'.remaining + 1 = m.remaining := by
  cases hstage : m.stage with
  | plan =>
    rw [m.step_plan c hstage]
    obtain ⟨_, -, hplan⟩ | ⟨-, hplan⟩ | ⟨span, -, hplan⟩ := m.plan_cases c.engine
    · exact .inl ⟨_, hplan⟩
    · exact .inl ⟨_, hplan⟩
    · exact .inr ⟨_, hplan, by simp [remaining, hstage]⟩
  | fill span =>
    refine .inr ⟨_, (m.step_fill c hstage).1, ?_⟩
    simp [remaining, hstage, transferOf, Stage.remaining]
  | move skip t =>
    rw [(m.step_move c hstage).1]
    cases hp : (t.step c).1 with
    | going t' =>
      refine .inr ⟨_, rfl, ?_⟩
      have hnext := (Transfer.step_going hp).1
      simp only [remaining, hstage]
      omega
    | waiting t' =>
      obtain ⟨-, hawait, -⟩ := Transfer.step_waiting hp
      have hpos := hanswered skip t hstage hawait
      obtain ⟨-, _, hstep⟩ | ⟨-, -, hstep⟩ | ⟨-, hnone, -⟩ := t.step_await c hawait
      · rw [hstep] at hp
        cases hp
      · rw [hstep] at hp
        cases hp
      · omega
    | finished r =>
      cases r with
      | error error => exact .inl ⟨_, rfl⟩
      | ok moved =>
        refine .inr ⟨_, rfl, ?_⟩
        obtain ⟨hconclude, -, -⟩ := t.step_ok c hp
        simp [remaining, hstage, hconclude, Stage.remaining]
  | collect skip moved => exact .inl (m.step_collect c hstage).1

end Alone

/-- A call that nothing disturbs ends as is its due. -/
theorem drive_alone {endpoint : MemoryEndpoint} {request : MemoryRequest} {c c' : Channel Rig}
    (hsober : c.Sober) (hrests : c.Rests) {moves : List Move} (hmoves : moves.all Move.isClean = true)
    {r : MemoryResult} (h : drive step moves { endpoint, request } c = (.finished r, c')) :
    Alone.Ended endpoint request c.engine c.card.memory r c' :=
  drive_spec (Alone endpoint request c.engine c.card.memory)
    (Alone.Ended endpoint request c.engine c.card.memory)
    (fun _ _ _ hinv hd => hinv.act hd) (fun _ _ _ hinv hrest => hinv.step hrest)
    (fun _ _ _ hinv hend => hinv.ended hend) (.start endpoint request hsober hrests) hmoves h

/-- The card answers if it has to, the engine takes the answer, and the call goes on. -/
def rounds (n : Nat) : List Move := (List.replicate n [.disturb .raise, .disturb .deliver, .step]).flatten

theorem rounds_isClean (n : Nat) : (rounds n).all Move.isClean = true := by
  unfold rounds
  induction n with
  | zero => rfl
  | succ n ih =>
    rw [List.replicate_succ, List.flatten_cons, List.all_append, ih]
    rfl

theorem drive_rounds (n : Nat) (m : MemoryCall) (c : Channel Rig) :
    drive step (rounds (n + 1)) m c =
      (m.step (Disturbance.deliver.act (Disturbance.raise.act c))).1.drive step (rounds n)
        (m.step (Disturbance.deliver.act (Disturbance.raise.act c))).2 := by
  unfold rounds
  rw [List.replicate_succ, List.flatten_cons]
  exact drive_step step _ m _

/-- A call that nothing disturbs comes to an end. -/
theorem Alone.ends {endpoint : MemoryEndpoint} {request : MemoryRequest} {e : Engine} {memory : Memory}
    {m : MemoryCall} {c : Channel Rig} (h : Alone endpoint request e memory m c) {n : Nat}
    (hn : m.remaining ≤ n) : ∃ r c', drive MemoryCall.step (rounds n) m c = (.finished r, c') := by
  induction n generalizing m c with
  | zero =>
    unfold remaining at hn
    split at hn <;> omega
  | succ n ih =>
    have hready := (h.act (d := .raise) rfl).act (d := .deliver) rfl
    have hround := drive_rounds n m c
    generalize hc' : Disturbance.deliver.act (Disturbance.raise.act c) = c' at hready hround
    have hanswered (skip : Nat) (t : Transfer) (hstage : m.stage = .move skip t)
        (hawait : t.stage = .await) : 0 < c'.engine.completion.done := by
      obtain ⟨span, -, -, ht⟩ := h.steady.moving skip t hstage
      have hsignals := ht.signals
      rw [hawait] at hsignals
      have hshows := Channel.Awaits.answered hsignals (e.errorsOf_genuine _ _) ht.sober.fitted.routed
      rw [hc'] at hshows
      rw [hshows.done]
      exact Nat.one_pos
    obtain ⟨r, hends⟩ | ⟨m', hgoes, hnext⟩ := Alone.step_cases m c' hanswered
    · refine ⟨r, (m.step c').2, ?_⟩
      rw [hround, hends]
      rfl
    · obtain ⟨r, c'', hrest⟩ := ih (hready.step (by rw [hgoes]; rfl)) (by omega)
      refine ⟨r, c'', ?_⟩
      rw [hround, hgoes]
      exact hrest

theorem exists_drive (endpoint : MemoryEndpoint) (request : MemoryRequest) {c : Channel Rig}
    (hsober : c.Sober) (hrests : c.Rests) : ∃ moves r c', moves.all Move.isClean = true ∧
      drive step moves { endpoint, request } c = (.finished r, c') := by
  obtain ⟨r, c', hdrive⟩ := (Alone.start endpoint request hsober hrests).ends (Nat.le_refl _)
  exact ⟨_, r, c', rounds_isClean _, hdrive⟩

end MemoryCall

end FpgaCard
