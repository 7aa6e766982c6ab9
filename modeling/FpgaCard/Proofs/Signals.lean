import FpgaCard.Proofs.Fitted

/-!
# Signals of the controller

When a transfer starts with the card's signals on. The driver turns them on at the end of a reset, and
decides by the status alone whether to reset; a reset that runs out of time leaves a healthy status
behind, with the signals off. Main statement: a transfer is signalled if and only if the last reset of
the controller ended.
-/

namespace FpgaCard

open Simulation

/-- The control register shows how the last reset went, and an answer that is held back shows as a
busy controller. -/
structure Signalling (c : Channel Rig) (n : Tally) : Prop where
  control : c.card.control = if n.resetEnded then Control.bothInterrupts else Control.reset
  held : c.card.pending = true → c.card.status &&& Status.idle = 0

/-- From the arming of its signal to the write of the count a transfer finds no answer held back. -/
def Transfer.Unanswered (t : Transfer) (c : Channel Rig) : Prop :=
  t.stage = .arm ∨ t.stage = .enter ∨ t.stage = .program → c.card.pending = false

/-! ## Disturbances -/

namespace Disturbance

theorem act_pending (d : Disturbance) (c : Channel Rig) (h : (d.act c).card.pending = true) :
    c.card.pending = true ∧ ((d.act c).card.status &&& Status.idle = c.card.status &&& Status.idle ∨
      (d.act c).card.status &&& Status.idle = 0) := by
  cases d with
  | kill => exact ⟨h, .inl rfl⟩
  | close => exact ⟨h, .inl rfl⟩
  | deliver =>
    obtain ⟨-, hact⟩ | ⟨n, -, hact⟩ := c.deliverOne_cases
    · simp only [act, hact] at h
      exact ⟨h, .inl (by simp only [act, hact])⟩
    · obtain ⟨w, r, hinterrupt⟩ := (c.withRaised n).interrupt_eq
      simp only [act, hact, hinterrupt] at h ⊢
      exact ⟨h, .inl (by simp)⟩
  | raise =>
    obtain ⟨-, hact⟩ | ⟨-, hact⟩ := act_raise_cases c
    · rw [hact] at h ⊢
      exact ⟨h, .inl rfl⟩
    · rw [hact] at h
      cases h
  | bench p hp =>
    obtain ⟨_, _, status, _, _, _, _, hact, -, hstatus, -⟩ := act_bench_cases c p hp
    rw [hact] at h ⊢
    obtain rfl | ⟨-, rfl⟩ := hstatus
    · exact ⟨h, .inl rfl⟩
    · exact ⟨h, .inr (by simp)⟩

end Disturbance

namespace Signalling

variable {c : Channel Rig} {n : Tally} {t : Transfer}

theorem act (h : Signalling c n) (d : Disturbance) :
    Signalling (d.act c) (n.afterDisturbance d c) := by
  have htally : (n.afterDisturbance d c).resetEnded = n.resetEnded := by cases d <;> rfl
  refine ⟨?_, ?_⟩
  · rw [(d.act_spared c).control, htally, h.control]
  · intro hpending
    obtain ⟨hbefore, hidle | hidle⟩ := d.act_pending c hpending
    · rw [hidle, h.held hbefore]
    · exact hidle

theorem same (h : Signalling c n) {c' : Channel Rig} (hcontrol : c'.card.control = c.card.control)
    (hstatus : c'.card.status = c.card.status) (hpending : c'.card.pending = c.card.pending) :
    Signalling c' n := by
  refine ⟨by rw [hcontrol, h.control], ?_⟩
  rw [hpending, hstatus]
  exact h.held

theorem of_reset (c : Channel Rig) (n : Tally) :
    Signalling c.reset.2 { n with resetEnded := c.reset.1.isOk } := by
  obtain ⟨-, w, r, hreset⟩ | ⟨-, w, r, hreset⟩ := c.reset_cases
  all_goals
    rw [hreset]
    exact ⟨rfl, fun hpending => absurd hpending Bool.false_ne_true⟩

/-! ## Steps -/

theorem program (h : Signalling c n) (ht : t.Sound c) (hstage : t.stage = .program)
    (hpending : c.card.pending = false) :
    (t.program c).card.control = c.card.control ∧
    ((t.program c).card.pending = true → (t.program c).card.status &&& Status.idle = 0) ∧
    (c.hardware.raised < (t.program c).hardware.raised ∨ (t.program c).card.pending = true ↔
      n.resetEnded = true) := by
  obtain ⟨b, errors, memory, buffer, card, -, -, -, -, ⟨w, rfl⟩, hprogram⟩ := ht.program_cases hstage
  have henabled : anySet c.card.control (Card.enableBit errors) = n.resetEnded := by
    rw [h.control]
    cases n.resetEnded with
    | true => exact enabled_of_both errors
    | false => exact not_enabled_of_reset errors
  rw [henabled] at hprogram
  obtain ⟨hon, -, hprogram⟩ | ⟨-, hprogram⟩ := hprogram
  · rw [hprogram]
    exact ⟨rfl, fun _ => by simp, by simp [hon]⟩
  · rw [hprogram]
    refine ⟨rfl, fun hheld => ?_, ?_⟩
    · simp [hpending] at hheld
    · cases hended : n.resetEnded <;> simp [hpending, ht.fitted.routed]

theorem step (h : Signalling c n) (ht : t.Sound c) (hfree : t.Unanswered c) :
    Signalling (t.step c).2 (n.afterStep t c) ∧
    ∀ t', (t.step c).1.rest? = some t' → t'.Unanswered (t.step c).2 := by
  cases hstage : t.stage with
  | check =>
    rw [t.step_check c hstage, Tally.afterStep, hstage]
    refine ⟨h, ?_⟩
    obtain ⟨error, hcheck⟩ | ⟨-, -, hcheck⟩ := t.check_cases c.engine
    · rw [hcheck]
      exact Progress.of_rest?_finished
    · rw [hcheck]
      rintro t' ⟨⟩
      simp [Transfer.Unanswered]
  | give =>
    rw [t.step_give c hstage, Tally.afterStep, hstage]
    refine ⟨h.same rfl rfl rfl, ?_⟩
    rintro t' ⟨⟩
    simp [Transfer.Unanswered]
  | inspect =>
    rw [Tally.afterStep, hstage]
    obtain ⟨hready, w, r, hstep⟩ | ⟨hready, hstuck, w, r, hstep⟩ | ⟨hready, hstuck, w, r, hstep⟩ :=
      t.step_inspect c hstage
    · rw [hstep]
      simp only [hready, if_true]
      refine ⟨h.same rfl rfl rfl, ?_⟩
      rintro t' ⟨⟩ -
      -- A controller that looks idle holds no answer back.
      cases hpending : c.card.pending with
      | false => exact hpending
      | true => exact absurd (h.held hpending) ((isReady_iff _).1 hready).2
    · rw [hstep]
      simp only [hready, Bool.false_eq_true, if_false]
      rw [c.reset_isOk, hstuck]
      refine ⟨⟨rfl, fun hpending => absurd hpending Bool.false_ne_true⟩, ?_⟩
      rintro t' ⟨⟩ -
      rfl
    · rw [hstep]
      simp only [hready, Bool.false_eq_true, if_false]
      rw [c.reset_isOk, hstuck]
      exact ⟨⟨rfl, fun hpending => absurd hpending Bool.false_ne_true⟩, Progress.of_rest?_finished⟩
  | arm =>
    rw [t.step_arm c hstage, Tally.afterStep, hstage]
    refine ⟨⟨h.control, h.held⟩, ?_⟩
    rintro t' ⟨⟩ -
    exact hfree (.inl hstage)
  | enter =>
    rw [t.step_enter c hstage, Tally.afterStep, hstage]
    refine ⟨h, ?_⟩
    intro t' ht' _
    exact hfree (.inr (.inl hstage))
  | program =>
    rw [t.step_program c hstage, Tally.afterStep, hstage]
    obtain ⟨hcontrol, hheld, -⟩ := h.program ht hstage (hfree (.inr (.inr hstage)))
    refine ⟨⟨by rw [hcontrol, h.control], hheld⟩, ?_⟩
    rintro t' ⟨⟩
    simp [Transfer.Unanswered]
  | await =>
    rw [Tally.afterStep, hstage]
    obtain ⟨-, completion, hstep⟩ | ⟨-, -, hstep⟩ | ⟨-, -, hstep⟩ := t.step_await c hstage
    · rw [hstep]
      exact ⟨h.same rfl rfl rfl, Progress.of_rest?_finished⟩
    · rw [hstep]
      refine ⟨h.same rfl rfl rfl, ?_⟩
      rintro t' ⟨⟩
      simp [Transfer.Unanswered]
    · rw [hstep]
      refine ⟨h, ?_⟩
      rintro t' ⟨⟩
      exact hfree
  | take =>
    rw [t.step_take c hstage, Tally.afterStep, hstage]
    refine ⟨h.same rfl rfl rfl, ?_⟩
    rintro t' ⟨⟩
    simp [Transfer.Unanswered]
  | conclude =>
    obtain ⟨r, hstep⟩ := t.step_conclude c hstage
    rw [hstep, Tally.afterStep, hstage]
    exact ⟨h.same rfl rfl rfl, Progress.of_rest?_finished⟩

end Signalling

/-! ## Runs -/

namespace Traffic

structure SignalInv (s : Traffic) : Prop where
  signalling : Signalling s.channel s.tally
  unanswered : ∀ t, s.transfer? = some t → t.Unanswered s.channel

theorem Reachable.signalInv {allowed : Event → Bool} {s : Traffic} (h : s.Reachable allowed) :
    s.SignalInv := by
  have hinv : Invariant allowed Signalling (fun t c _ => t.Unanswered c) := {
    attached c hc := by
      obtain ⟨-, hcontrol, -, hpending, -⟩ := Fitted.of_attached hc
      refine ⟨hcontrol, ?_⟩
      simp [hpending]
    staged _ _ _ _ hsignalling := hsignalling.same rfl rfl rfl
    reset c n _ := .of_reset c n
    fresh t c _ _ ht := by simp [Transfer.Unanswered, ht]
    act s d _ _ hsignalling := hsignalling.act d
    hand s d t _ _ _ hfree := by
      intro hstage
      have hbefore := hfree hstage
      cases hpending : (d.act s.channel).card.pending with
      | false => rfl
      | true =>
        rw [(d.act_pending s.channel hpending).1] at hbefore
        cases hbefore
    step s t hs ht hsignalling hfree := hsignalling.step (hs.sound.transfer t ht) hfree }
  obtain ⟨hsignalling, hunanswered⟩ := h.invariant hinv
  exact ⟨hsignalling, hunanswered⟩

/-- At the write of the count both signals are on if and only if the last reset of the controller
ended, and then only does the card answer the transfer, at once or when it is asked to. -/
theorem Reachable.signalled_iff {allowed : Event → Bool} {s : Traffic} (h : s.Reachable allowed)
    {t : Transfer} (ht : s.transfer? = some t) (hstage : t.stage = .program) :
    (s.channel.card.control &&& Control.bothInterrupts = Control.bothInterrupts ↔
      s.tally.resetEnded = true) ∧
    (s.channel.hardware.raised < (t.step s.channel).2.hardware.raised ∨
      (t.step s.channel).2.card.pending = true ↔ s.tally.resetEnded = true) := by
  have hinv := h.signalInv
  constructor
  · rw [hinv.signalling.control]
    cases s.tally.resetEnded <;> decide
  · rw [t.step_program s.channel hstage]
    exact (hinv.signalling.program (h.sound.transfer t ht) hstage
      (hinv.unanswered t ht (.inr (.inr hstage)))).2.2

def aboutToStart : Traffic :=
  run { channel := smallChannel }
    (.order (.transfer 0x80000000 4 .fromDevice) :: steps 5)

theorem aboutToStart_signalled :
    (aboutToStart.channel.card.control &&& Control.bothInterrupts = Control.bothInterrupts ↔
      aboutToStart.tally.resetEnded = true) ∧
    (aboutToStart.channel.hardware.raised <
        (({ start := 0x80000000, count := 4, direction := .fromDevice, stage := .program } :
          Transfer).step aboutToStart.channel).2.hardware.raised ∨
      (({ start := 0x80000000, count := 4, direction := .fromDevice, stage := .program } :
          Transfer).step aboutToStart.channel).2.card.pending = true ↔
      aboutToStart.tally.resetEnded = true) :=
  Reachable.signalled_iff ((smallChannel_reachable fun _ => true).run _ rfl) rfl rfl

/-- A busy controller, a reset that times out, and then a transfer that finds the controller idle. -/
def afterTimeout : Traffic :=
  run { channel := smallChannel }
    (List.flatten
      [[.move (.disturb (.bench .wedge rfl)), .move (.disturb (.bench (.stick true) rfl)),
        .order (.transfer 0x80000000 4 .fromDevice)], steps 3,
        [.move (.disturb (.bench (.stick false) rfl)), .order (.transfer 0x80000000 4 .fromDevice)],
        steps 5])

/-- A transfer that starts with both signals off, and that the card never answers. -/
theorem signals_off_after_timeout :
    ∃ t, afterTimeout.Reachable (fun _ => true) ∧ afterTimeout.transfer? = some t ∧
      t.stage = .program ∧ afterTimeout.channel.card.control &&& Control.bothInterrupts = 0 ∧
      (t.step afterTimeout.channel).2.hardware.raised = 0 ∧
      (t.step afterTimeout.channel).2.card.pending = false :=
  ⟨_, (smallChannel_reachable fun _ => true).run _ rfl, rfl, rfl, rfl, rfl, rfl⟩

end Traffic

end FpgaCard
