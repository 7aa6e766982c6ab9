import FpgaCard.Proofs.Traffic

/-!
# Single moves

What one disturbance does to a channel, and one step of a transfer at each stage.
-/

namespace FpgaCard

open Simulation

/-! ## The card and its bench -/

namespace Simulation.Card

@[simps]
def benched (c : Card) (mode : CompletionMode) (injected status : UInt32) (stuck : Bool)
    (memory : Memory) : Card :=
  { c with mode, injected, status, stuck, memory }

@[simps]
def released (c : Card) : Card := { c with pending := false, status := c.status ||| Status.idle }

theorem probe_cases (c : Card) (p : Probe) (h : p.sparesRegisters = true) :
    ∃ mode injected status stuck memory w r,
      (c.probe p).2 = (false, (c.benched mode injected status stuck memory).withLog w r) ∧
      (injected = c.injected ∨ ∃ bits, injected = bits &&& Status.errors) ∧
      (status = c.status ∨ p.sparesIdle = false ∧ status = c.status &&& ~~~Status.idle) ∧
      (p.sparesMemory = true → memory = c.memory) := by
  cases p with
  | mode mode => exact ⟨mode, _, _, _, _, _, _, rfl, .inl rfl, .inl rfl, fun _ => rfl⟩
  | fault bits => exact ⟨_, _, _, _, _, _, _, rfl, .inr ⟨bits, rfl⟩, .inl rfl, fun _ => rfl⟩
  | wedge => exact ⟨_, _, _, _, _, _, _, rfl, .inl rfl, .inr ⟨rfl, rfl⟩, fun _ => rfl⟩
  | stick on => exact ⟨_, _, _, on, _, _, _, rfl, .inl rfl, .inl rfl, fun _ => rfl⟩
  | clearLog => exact ⟨_, _, _, _, _, #[], 0, rfl, .inl rfl, .inl rfl, fun _ => rfl⟩
  | poke a data =>
    exact ⟨_, _, _, _, c.memory.write a data, _, _, rfl, .inl rfl, .inl rfl, fun h => by cases h⟩
  | load offset =>
    obtain ⟨r, hload⟩ : ∃ r, (c.load offset).2 = c.withLog c.writes r := by
      unfold load
      split
      · exact ⟨_, rfl⟩
      · exact ⟨c.reads, rfl⟩
    refine ⟨c.mode, _, _, c.stuck, _, c.writes, r, ?_, .inl rfl, .inl rfl, fun _ => rfl⟩
    simp only [probe]
    rw [hload]
    rfl
  | store offset value => cases h
  | _ => exact ⟨_, _, _, _, _, c.writes, c.reads, rfl, .inl rfl, .inl rfl, fun _ => rfl⟩

theorem raise_cases (c : Card) :
    (c.pending = false ∧ c.raise = (false, c)) ∨ (c.pending = true ∧ c.raise = (true, c.released)) := by
  unfold raise
  cases h : c.pending with
  | false => exact .inl ⟨rfl, by simp⟩
  | true => exact .inr ⟨rfl, by simp [released]⟩

end Simulation.Card

/-! ## Disturbances -/

namespace Channel

def withRaised (c : Channel Rig) (raised : Nat) : Channel Rig :=
  { c with hardware := { c.hardware with raised } }

@[simp]
theorem withRaised_card (c : Channel Rig) (raised : Nat) : (c.withRaised raised).card = c.card := rfl

@[simp]
theorem withRaised_engine (c : Channel Rig) (raised : Nat) :
    (c.withRaised raised).engine = c.engine := rfl

@[simp]
theorem withRaised_raised (c : Channel Rig) (raised : Nat) :
    (c.withRaised raised).hardware.raised = raised := rfl

theorem deliverOne_cases (c : Channel Rig) :
    (c.hardware.raised = 0 ∧ c.deliverOne = c) ∨
    ∃ n, c.hardware.raised = n + 1 ∧ c.deliverOne = (c.withRaised n).interrupt := by
  unfold deliverOne
  cases h : c.hardware.raised with
  | zero => exact .inl ⟨rfl, rfl⟩
  | succ n => exact .inr ⟨n, rfl, rfl⟩

end Channel

namespace Disturbance

theorem act_raise_cases (c : Channel Rig) :
    (c.card.pending = false ∧ raise.act c = c) ∨
    (c.card.pending = true ∧ raise.act c = (c.withCard c.card.released).answered true) := by
  obtain ⟨hpending, h⟩ | ⟨hpending, h⟩ := c.card.raise_cases
  · refine .inl ⟨hpending, ?_⟩
    simp only [act, Rig.raise]
    rw [h]
    rfl
  · refine .inr ⟨hpending, ?_⟩
    simp only [act, Rig.raise]
    rw [h]
    rfl

theorem act_bench_cases (c : Channel Rig) (p : Probe) (h : p.sparesRegisters = true) :
    ∃ mode injected status stuck memory w r,
      (bench p h).act c = c.withCard ((c.card.benched mode injected status stuck memory).withLog w r) ∧
      (injected = c.card.injected ∨ ∃ bits, injected = bits &&& Status.errors) ∧
      (status = c.card.status ∨ p.sparesIdle = false ∧ status = c.card.status &&& ~~~Status.idle) ∧
      (p.sparesMemory = true → memory = c.card.memory) := by
  obtain ⟨mode, injected, status, stuck, memory, w, r, hprobe, hcases⟩ := c.card.probe_cases p h
  refine ⟨mode, injected, status, stuck, memory, w, r, ?_, hcases⟩
  simp only [act, Rig.probe]
  rw [hprobe]
  rfl

end Disturbance

/-- The engine is the same but for its signal and whether it is closed. -/
def Engine.Like (e e' : Engine) : Prop :=
  ∃ completion closed, e' = { e with completion, closed }

namespace Engine.Like

theorem refl (e : Engine) : e.Like e := ⟨_, _, rfl⟩

theorem trans {e e' e'' : Engine} (h : e.Like e') (h' : e'.Like e'') : e.Like e'' := by
  obtain ⟨_, _, rfl⟩ := h
  obtain ⟨completion, closed, rfl⟩ := h'
  exact ⟨completion, closed, rfl⟩

theorem symm {e e' : Engine} (h : e.Like e') : e'.Like e := by
  obtain ⟨_, _, rfl⟩ := h
  exact ⟨e.completion, e.closed, rfl⟩

theorem maxTransfer {e e' : Engine} (h : e.Like e') : e'.maxTransfer = e.maxTransfer := by
  obtain ⟨_, _, rfl⟩ := h
  rfl

theorem bufferSize {e e' : Engine} (h : e.Like e') : e'.bufferSize = e.bufferSize := by
  obtain ⟨_, _, rfl⟩ := h
  rfl

theorem bufferAddress {e e' : Engine} (h : e.Like e') : e'.bufferAddress = e.bufferAddress := by
  obtain ⟨_, _, rfl⟩ := h
  rfl

theorem alignment {e e' : Engine} (h : e.Like e') : e'.alignment = e.alignment := by
  obtain ⟨_, _, rfl⟩ := h
  rfl

end Engine.Like

/-- What comes between the steps of an operation leaves the engine's limits, the control register, the
buffer and the error bits as they were. -/
structure Spared (c c' : Channel Rig) : Prop where
  engine : c.engine.Like c'.engine
  control : c'.card.control = c.card.control
  buffer : c'.card.buffer = c.card.buffer
  errors : c'.card.status &&& Status.errors = c.card.status &&& Status.errors
  routed : c'.hardware.routed = c.hardware.routed

namespace Spared

theorem refl (c : Channel Rig) : Spared c c := ⟨⟨_, _, rfl⟩, rfl, rfl, rfl, rfl⟩

theorem deliver (c : Channel Rig) (n : Nat) : Spared c (c.withRaised n).interrupt := by
  obtain ⟨w, r, h⟩ := (c.withRaised n).interrupt_eq
  rw [h]
  exact ⟨⟨_, _, rfl⟩, rfl, rfl, by simp, rfl⟩

end Spared

namespace Disturbance

theorem act_spared (d : Disturbance) (c : Channel Rig) : Spared c (d.act c) := by
  cases d with
  | kill => exact ⟨⟨_, _, rfl⟩, rfl, rfl, rfl, rfl⟩
  | close => exact ⟨⟨_, _, rfl⟩, rfl, rfl, rfl, rfl⟩
  | deliver =>
    obtain ⟨-, h⟩ | ⟨n, -, h⟩ := c.deliverOne_cases
    · simp only [act, h]
      exact .refl c
    · simp only [act, h]
      exact .deliver c n
  | raise =>
    obtain ⟨-, h⟩ | ⟨-, h⟩ := act_raise_cases c
    · rw [h]
      exact .refl c
    · rw [h]
      exact ⟨⟨_, _, rfl⟩, rfl, rfl, by simp, rfl⟩
  | bench p hp =>
    obtain ⟨_, _, status, _, _, _, _, h, -, hstatus, -⟩ := act_bench_cases c p hp
    rw [h]
    refine ⟨⟨_, _, rfl⟩, rfl, rfl, ?_, rfl⟩
    obtain rfl | ⟨-, rfl⟩ := hstatus <;> simp

theorem act_injected (d : Disturbance) (c : Channel Rig) :
    (d.act c).card.injected = c.card.injected ∨
    ∃ bits, (d.act c).card.injected = bits &&& Status.errors := by
  cases d with
  | kill => exact .inl rfl
  | close => exact .inl rfl
  | deliver =>
    left
    obtain ⟨-, h⟩ | ⟨n, -, h⟩ := c.deliverOne_cases
    · simp only [act, h]
    · simp only [act, h]
      rfl
  | raise =>
    left
    obtain ⟨-, h⟩ | ⟨-, h⟩ := act_raise_cases c
    · rw [h]
    · rw [h]
      rfl
  | bench p hp =>
    obtain ⟨_, injected, _, _, _, _, _, h, hinjected, -⟩ := act_bench_cases c p hp
    rw [h]
    exact hinjected

theorem act_memory (d : Disturbance) (c : Channel Rig) (hspares : (Move.disturb d).sparesMemory = true) :
    (d.act c).card.memory = c.card.memory := by
  cases d with
  | kill => rfl
  | close => rfl
  | deliver =>
    obtain ⟨-, h⟩ | ⟨n, -, h⟩ := c.deliverOne_cases
    · simp only [act, h]
    · simp only [act, h]
      rfl
  | raise =>
    obtain ⟨-, h⟩ | ⟨-, h⟩ := act_raise_cases c
    · rw [h]
    · rw [h]
      rfl
  | bench p hp =>
    obtain ⟨_, _, _, _, memory, _, _, h, -, -, hmemory⟩ := act_bench_cases c p hp
    rw [h]
    exact hmemory hspares

end Disturbance

/-! ## Steps of a transfer -/

namespace Transfer

variable (t : Transfer) (c : Channel Rig)

theorem step_check (h : t.stage = .check) : t.step c = (t.check c.engine, c) := by
  simp only [step, h]

theorem check_cases (e : Engine) :
    (∃ error, t.check e = .finished (.error error)) ∨
    (t.count ≠ 0 ∧ min t.count e.maxTransfer % e.alignment = 0 ∧
      t.check e = .going { t with count := min t.count e.maxTransfer, stage := .give }) := by
  unfold check
  simp only
  split
  · exact .inl ⟨_, rfl⟩
  split
  · exact .inl ⟨_, rfl⟩
  rename_i hzero haligned
  exact .inr ⟨hzero, by omega, rfl⟩

theorem step_give (h : t.stage = .give) :
    t.step c = (t.goto .inspect, c.withCard
      { c.card with buffer := c.card.buffer.map (·.give t.direction) }) := by
  simp only [step, h]
  rfl

theorem step_inspect (h : t.stage = .inspect) :
    (isReady c.card.status = true ∧
      ∃ w r, t.step c = (t.goto .arm, c.withCard (c.card.withLog w r))) ∨
    (isReady c.card.status = false ∧ c.card.stuck = false ∧ ∃ w r, t.step c = (t.goto .arm,
      c.withCard ((c.card.resetTo Control.bothInterrupts).withLog w r))) ∨
    (isReady c.card.status = false ∧ c.card.stuck = true ∧ ∃ w r, t.step c =
      (.finished (.error (.resetTimeout c.engine.resetTimeout)),
        c.withCard ((c.card.resetTo Control.reset).withLog w r))) := by
  obtain ⟨r, hload⟩ := c.load_status
  simp only [step, h]
  rw [hload]
  cases hready : isReady c.card.status with
  | true => exact .inl ⟨rfl, c.card.writes, r, by simp⟩
  | false =>
    right
    obtain ⟨hstuck, w, r', hreset⟩ | ⟨hstuck, w, r', hreset⟩ :=
      (c.withCard (c.card.withLog c.card.writes r)).reset_cases
    · refine .inl ⟨rfl, hstuck, w, r', ?_⟩
      simp only [hreset]
      rfl
    · refine .inr ⟨rfl, hstuck, w, r', ?_⟩
      simp only [hreset]
      rfl

theorem step_arm (h : t.stage = .arm) : t.step c = (t.goto .enter, c.signal .restart) := by
  simp only [step, h]

theorem step_enter (h : t.stage = .enter) :
    t.step c = (if c.engine.closed then .finished (.error .transferKilled) else t.goto .program, c) := by
  simp only [step, h]
  split <;> rfl

theorem step_program (h : t.stage = .program) : t.step c = (t.goto .await, t.program c) := by
  simp only [step, h]

theorem step_await (h : t.stage = .await) :
    (c.engine.completion.killed = true ∧ ∃ completion, t.step c =
      (.finished (.error .transferKilled), c.signal fun _ => completion)) ∨
    (c.engine.completion.killed = false ∧ 0 < c.engine.completion.done ∧ t.step c = (t.goto .take,
      c.signal fun _ => { c.engine.completion with done := c.engine.completion.done - 1 })) ∨
    (c.engine.completion.killed = false ∧ c.engine.completion.done = 0 ∧
      t.step c = (.waiting t, c)) := by
  simp only [step, h]
  rcases c.engine.completion.poll_cases with
    ⟨hkilled, hpoll⟩ | ⟨hkilled, hdone, hpoll⟩ | ⟨hkilled, hdone, hpoll⟩
  · exact .inl ⟨hkilled, _, by rw [hpoll]⟩
  · exact .inr (.inl ⟨hkilled, hdone, by rw [hpoll]⟩)
  · exact .inr (.inr ⟨hkilled, hdone, by rw [hpoll]⟩)

theorem step_take (h : t.stage = .take) :
    t.step c = (t.goto .conclude, c.withCard
      { c.card with buffer := c.card.buffer.map (·.take t.direction) }) := by
  simp only [step, h]
  rfl

theorem step_conclude (h : t.stage = .conclude) :
    ∃ r, t.step c = (.finished (if anySet c.card.status Status.errors then
      .error (.transferFault c.card.status) else .ok t.count),
      c.withCard (c.card.withLog c.card.writes r)) := by
  obtain ⟨r, hload⟩ := c.load_status
  simp only [step, h]
  rw [hload]
  refine ⟨r, ?_⟩
  cases herrors : anySet c.card.status Status.errors <;> simp

theorem step_ok {n : Nat} (h : (t.step c).1 = .finished (.ok n)) :
    t.stage = .conclude ∧ n = t.count ∧ c.card.status &&& Status.errors = 0 := by
  cases hstage : t.stage with
  | check =>
    rw [t.step_check c hstage] at h
    obtain ⟨error, hcheck⟩ | ⟨-, -, hcheck⟩ := t.check_cases c.engine <;> simp [hcheck] at h
  | give => simp [t.step_give c hstage, goto] at h
  | inspect =>
    obtain ⟨-, _, _, hstep⟩ | ⟨-, -, _, _, hstep⟩ | ⟨-, -, _, _, hstep⟩ := t.step_inspect c hstage <;>
      simp [hstep, goto] at h
  | arm => simp [t.step_arm c hstage, goto] at h
  | enter =>
    rw [t.step_enter c hstage] at h
    cases hclosed : c.engine.closed <;> simp [hclosed, goto] at h
  | program => simp [t.step_program c hstage, goto] at h
  | await =>
    obtain ⟨-, _, hstep⟩ | ⟨-, -, hstep⟩ | ⟨-, -, hstep⟩ := t.step_await c hstage <;>
      simp [hstep, goto] at h
  | take => simp [t.step_take c hstage, goto] at h
  | conclude =>
    obtain ⟨r, hstep⟩ := t.step_conclude c hstage
    rw [hstep] at h
    cases herrors : anySet c.card.status Status.errors with
    | true => simp [herrors] at h
    | false =>
      refine ⟨rfl, by simpa [herrors] using h.symm, ?_⟩
      exact (anySet_eq_false _ _).1 herrors

theorem step_count {σ : Type} [Hardware σ] (t : Transfer) (c : Channel σ) (h : t.stage ≠ .check) :
    (∃ t', (t.step c).1.rest? = some t' ∧ t'.stage ≠ .check ∧ t'.count = t.count) ∨
      (∃ e, (t.step c).1 = .finished (.error e)) ∨ (t.step c).1 = .finished (.ok t.count) := by
  unfold step
  cases hstage : t.stage with
  | check => exact absurd hstage h
  | give => exact .inl ⟨_, rfl, nofun, rfl⟩
  | inspect =>
    dsimp only
    split
    · exact .inl ⟨_, rfl, nofun, rfl⟩
    split
    · exact .inl ⟨_, rfl, nofun, rfl⟩
    · exact .inr (.inl ⟨_, rfl⟩)
  | arm => exact .inl ⟨_, rfl, nofun, rfl⟩
  | enter =>
    dsimp only
    split
    · exact .inr (.inl ⟨_, rfl⟩)
    · exact .inl ⟨_, rfl, nofun, rfl⟩
  | program => exact .inl ⟨_, rfl, nofun, rfl⟩
  | await =>
    dsimp only
    split
    · exact .inl ⟨t, rfl, h, rfl⟩
    · exact .inr (.inl ⟨_, rfl⟩)
    · exact .inl ⟨_, rfl, nofun, rfl⟩
  | take => exact .inl ⟨_, rfl, nofun, rfl⟩
  | conclude =>
    dsimp only
    split
    · exact .inr (.inl ⟨_, rfl⟩)
    · exact .inr (.inr rfl)

/-! ## The way of a transfer -/

end Transfer

theorem Stage.behind {a b c : Stage} (hnext : b.remaining + 1 = a.remaining)
    (hbehind : b.remaining < c.remaining) : a.remaining < c.remaining ∨ a = c := by
  by_cases h : a = c
  · exact .inr h
  · left
    have hother : a.remaining ≠ c.remaining := by
      revert h
      cases a <;> cases c <;> simp [remaining]
    omega

namespace Transfer

variable {t : Transfer} {c : Channel Rig}

/-- A step that goes on goes on to the next stage. Only an open engine lets a transfer in, and no transfer
ends its wait with a kill pending. -/
theorem step_going {t' : Transfer} (h : (t.step c).1 = .going t') :
    t'.stage.remaining + 1 = t.stage.remaining ∧ (t.stage = .enter → c.engine.closed = false) ∧
      (t.stage = .await → c.engine.completion.killed = false) := by
  cases hstage : t.stage with
  | check =>
    rw [t.step_check c hstage] at h
    obtain ⟨_, hcheck⟩ | ⟨-, -, hcheck⟩ := t.check_cases c.engine
    · rw [hcheck] at h
      cases h
    · rw [hcheck] at h
      cases h
      exact ⟨rfl, by simp, by simp⟩
  | inspect =>
    obtain ⟨-, _, _, hstep⟩ | ⟨-, -, _, _, hstep⟩ | ⟨-, -, _, _, hstep⟩ := t.step_inspect c hstage
    · rw [hstep] at h
      cases h
      exact ⟨rfl, by simp, by simp⟩
    · rw [hstep] at h
      cases h
      exact ⟨rfl, by simp, by simp⟩
    · rw [hstep] at h
      cases h
  | enter =>
    rw [t.step_enter c hstage] at h
    cases hclosed : c.engine.closed with
    | true =>
      rw [hclosed] at h
      cases h
    | false =>
      rw [hclosed] at h
      cases h
      exact ⟨rfl, by simp, by simp⟩
  | await =>
    obtain ⟨-, _, hstep⟩ | ⟨hkilled, -, hstep⟩ | ⟨-, -, hstep⟩ := t.step_await c hstage
    · rw [hstep] at h
      cases h
    · rw [hstep] at h
      cases h
      exact ⟨rfl, by simp, fun _ => hkilled⟩
    · rw [hstep] at h
      cases h
  | conclude =>
    obtain ⟨_, hstep⟩ := t.step_conclude c hstage
    rw [hstep] at h
    cases h
  | _ =>
    simp only [step, hstage, goto] at h
    cases h
    exact ⟨rfl, by simp, by simp⟩

theorem step_waiting {t' : Transfer} (h : (t.step c).1 = .waiting t') :
    t' = t ∧ t.stage = .await ∧ c.engine.completion.killed = false := by
  cases hstage : t.stage with
  | check =>
    rw [t.step_check c hstage] at h
    obtain ⟨_, hcheck⟩ | ⟨-, -, hcheck⟩ := t.check_cases c.engine <;> simp [hcheck] at h
  | inspect =>
    obtain ⟨-, _, _, hstep⟩ | ⟨-, -, _, _, hstep⟩ | ⟨-, -, _, _, hstep⟩ := t.step_inspect c hstage <;>
      simp [hstep, goto] at h
  | enter =>
    rw [t.step_enter c hstage] at h
    cases hclosed : c.engine.closed <;> simp [hclosed, goto] at h
  | await =>
    obtain ⟨-, _, hstep⟩ | ⟨-, -, hstep⟩ | ⟨hkilled, -, hstep⟩ := t.step_await c hstage
    · simp [hstep] at h
    · simp [hstep, goto] at h
    · rw [hstep] at h
      cases h
      exact ⟨rfl, rfl, hkilled⟩
  | conclude =>
    obtain ⟨_, hstep⟩ := t.step_conclude c hstage
    simp [hstep] at h
  | _ => simp [step, hstage, goto] at h

/-- A step changes the signal alone of the engine, and takes a pending kill away at the wait only. -/
theorem step_engine (t : Transfer) (c : Channel Rig) :
    ∃ completion, (t.step c).2.engine = { c.engine with completion } ∧
      (t.stage ≠ .await → completion.killed = c.engine.completion.killed) := by
  cases hstage : t.stage with
  | check =>
    rw [t.step_check c hstage]
    exact ⟨_, rfl, fun _ => rfl⟩
  | give =>
    rw [t.step_give c hstage]
    exact ⟨_, rfl, fun _ => rfl⟩
  | inspect =>
    obtain ⟨-, _, _, hstep⟩ | ⟨-, -, _, _, hstep⟩ | ⟨-, -, _, _, hstep⟩ := t.step_inspect c hstage <;>
      · rw [hstep]
        exact ⟨_, rfl, fun _ => rfl⟩
  | arm =>
    rw [t.step_arm c hstage]
    exact ⟨_, rfl, fun _ => rfl⟩
  | enter =>
    rw [t.step_enter c hstage]
    exact ⟨_, rfl, fun _ => rfl⟩
  | program =>
    rw [t.step_program c hstage]
    exact ⟨_, rfl, fun _ => rfl⟩
  | await =>
    obtain ⟨-, _, hstep⟩ | ⟨-, -, hstep⟩ | ⟨-, -, hstep⟩ := t.step_await c hstage <;>
      · rw [hstep]
        exact ⟨_, rfl, fun hawait => absurd rfl hawait⟩
  | take =>
    rw [t.step_take c hstage]
    exact ⟨_, rfl, fun _ => rfl⟩
  | conclude =>
    obtain ⟨_, hstep⟩ := t.step_conclude c hstage
    rw [hstep]
    exact ⟨_, rfl, fun _ => rfl⟩

end Transfer

/-! ## The log of writes -/

namespace Simulation.Card

/-- The writes in the log to some of the registers, oldest first. -/
def writesTo (c : Card) (p : Nat → Bool) : List (Nat × UInt32) := c.writes.toList.filter fun w => p w.1

variable {p : Nat → Bool}

theorem applied_writesTo (c : Card) (offset : Nat) (value : UInt32) (h : offset ≠ Register.count) :
    (c.applied offset value).2.writesTo p = c.writesTo p := by
  unfold applied
  repeat' split
  all_goals rfl

theorem store_writesTo (c : Card) (offset : Nat) (value : UInt32) (h : offset ≠ Register.count)
    (hp : p offset = false) : (c.store offset value).2.writesTo p = c.writesTo p := by
  rw [store, applied_writesTo _ _ _ h]
  unfold logged
  split
  · simp [writesTo, hp]
  · rfl

end Simulation.Card

theorem Channel.reset_writesTo {p : Nat → Bool} (c : Channel Rig) (hp : p Register.control = false) :
    c.reset.2.card.writesTo p = c.card.writesTo p := by
  have hstore (c : Channel Rig) (value : UInt32) :
      (c.store Register.control value).card.writesTo p = c.card.writesTo p :=
    c.card.store_writesTo Register.control value (by decide) hp
  obtain ⟨r, hawait⟩ := (c.store Register.control Control.reset).awaitReset_eq c.engine.resetTimeout
  unfold reset
  simp only
  rw [show (c.store Register.control Control.reset).engine.resetTimeout = c.engine.resetTimeout from rfl,
    hawait]
  cases !anySet (c.store Register.control Control.reset).card.control Control.reset with
  | true => exact (hstore _ _).trans (hstore _ _)
  | false => exact hstore _ _

namespace Transfer

theorem step_writesTo {p : Nat → Bool} (t : Transfer) (c : Channel Rig) (h : t.stage ≠ .program)
    (hp : p Register.control = false) : (t.step c).2.card.writesTo p = c.card.writesTo p := by
  cases hstage : t.stage with
  | check => rw [t.step_check c hstage]
  | give => rw [t.step_give c hstage]; rfl
  | inspect =>
    simp only [step, hstage]
    obtain ⟨r, hload⟩ := c.load_status
    rw [hload]
    have hreset := (c.withCard (c.card.withLog c.card.writes r)).reset_writesTo hp
    cases isReady c.card.status with
    | true => rfl
    | false =>
      rcases hresult : (c.withCard (c.card.withLog c.card.writes r)).reset with ⟨_ | _, c'⟩ <;>
        · rw [hresult] at hreset
          exact hreset
  | arm => rw [t.step_arm c hstage]; rfl
  | enter => rw [t.step_enter c hstage]
  | program => exact absurd hstage h
  | await =>
    obtain ⟨-, _, hstep⟩ | ⟨-, -, hstep⟩ | ⟨-, -, hstep⟩ := t.step_await c hstage <;> rw [hstep] <;> rfl
  | take => rw [t.step_take c hstage]; rfl
  | conclude =>
    obtain ⟨_, hstep⟩ := t.step_conclude c hstage
    rw [hstep]
    rfl

end Transfer

end FpgaCard
