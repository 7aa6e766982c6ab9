import FpgaCard.Proofs.Signals

/-!
# Whose interrupt ends a wait

Interrupts carry no name. One that was on its way when a transfer armed its signal may reach the
engine during the wait of that transfer, and ends it. Main statement: a transfer that armed its signal
with no interrupt on its way succeeds only after the card has answered it, and one that did not can
succeed before.
-/

namespace FpgaCard

open Simulation

/-- The completions that the engine has and those that are on their way to it. -/
def Channel.answers (c : Channel Rig) : Nat := c.engine.completion.done + c.hardware.raised

/-- An idle controller owes no answer, and none is owed for a transfer that was answered. -/
structure Owing (c : Channel Rig) (n : Tally) : Prop where
  idle : c.card.pending = false → c.card.status &&& Status.idle ≠ 0
  held : c.card.pending = true → n.answered = false

/-- Until the card answers a transfer, there are no completions but those that came late. -/
structure Transfer.Punctual (t : Transfer) (c : Channel Rig) (n : Tally) : Prop where
  armed : t.stage = .enter ∨ t.stage = .program → c.answers ≤ n.late
  waiting : t.stage = .await → n.answered = false → c.answers ≤ n.late
  woken : t.stage = .take ∨ t.stage = .conclude → n.answered = false → 0 < n.late

theorem Transfer.Punctual.of_unarmed {t : Transfer} (c : Channel Rig) (n : Tally)
    (h : t.stage = .check ∨ t.stage = .give ∨ t.stage = .inspect ∨ t.stage = .arm) :
    t.Punctual c n := by
  obtain h | h | h | h := h <;> exact ⟨by simp [h], by simp [h], by simp [h]⟩

/-! ## Disturbances -/

theorem Disturbance.act_answers (d : Disturbance) (c : Channel Rig) (n : Tally)
    (hspares : (Move.disturb d).sparesIdle = true) :
    ((d.act c).card.pending = c.card.pending ∧
      (d.act c).card.status &&& Status.idle = c.card.status &&& Status.idle ∧
      (d.act c).answers ≤ c.answers ∧ n.afterDisturbance d c = n) ∨
    (c.card.pending = true ∧ (d.act c).card.pending = false ∧
      (d.act c).card.status &&& Status.idle ≠ 0 ∧
      n.afterDisturbance d c = { n with answered := true }) := by
  cases d with
  | kill => exact .inl ⟨rfl, rfl, Nat.le_refl _, rfl⟩
  | close => exact .inl ⟨rfl, rfl, Nat.le_refl _, rfl⟩
  | deliver =>
    left
    obtain ⟨-, hact⟩ | ⟨k, hraised, hact⟩ := c.deliverOne_cases
    · simp only [act, hact]
      exact ⟨trivial, trivial, Nat.le_refl _, rfl⟩
    · obtain ⟨w, r, hinterrupt⟩ := (c.withRaised k).interrupt_eq
      simp only [act, hact, hinterrupt]
      refine ⟨rfl, by simp, ?_, rfl⟩
      -- The interrupt is counted as done, unless the count is full.
      have hdone := Nat.min_le_left (c.engine.completion.done + 1) Completion.doneMax
      unfold Channel.answers
      rw [hraised]
      simp only [Channel.signal, Completion.complete, Channel.withCard_engine, Channel.withRaised_engine,
        Channel.withCard_raised, Channel.withRaised_raised]
      omega
  | raise =>
    obtain ⟨hpending, hact⟩ | ⟨hpending, hact⟩ := act_raise_cases c
    · left
      rw [hact]
      refine ⟨rfl, rfl, Nat.le_refl _, ?_⟩
      simp [Tally.afterDisturbance, hpending]
    · right
      rw [hact]
      refine ⟨hpending, rfl, ?_, ?_⟩
      · simp
        decide
      · simp [Tally.afterDisturbance, hpending]
  | bench p hp =>
    left
    obtain ⟨_, _, status, _, _, _, _, hact, -, hstatus, -⟩ := act_bench_cases c p hp
    rw [hact]
    refine ⟨rfl, ?_, Nat.le_refl _, rfl⟩
    obtain rfl | ⟨hwedge, -⟩ := hstatus
    · rfl
    · rw [Move.sparesIdle, hwedge] at hspares
      cases hspares

namespace Owing

variable {c : Channel Rig} {n : Tally} {t : Transfer}

theorem act (h : Owing c n) (d : Disturbance) (hspares : (Move.disturb d).sparesIdle = true) :
    Owing (d.act c) (n.afterDisturbance d c) := by
  obtain ⟨hpending, hidle, -, htally⟩ | ⟨-, hpending, hidle, htally⟩ := d.act_answers c n hspares
  · rw [htally]
    refine ⟨?_, ?_⟩
    · rw [hpending, hidle]
      exact h.idle
    · rw [hpending]
      exact h.held
  · refine ⟨fun _ => hidle, fun h' => ?_⟩
    rw [hpending] at h'
    cases h'

end Owing

namespace Transfer.Punctual

variable {c : Channel Rig} {n : Tally} {t : Transfer}

theorem act (h : t.Punctual c n) (hfree : t.Unanswered c) (d : Disturbance)
    (hspares : (Move.disturb d).sparesIdle = true) : t.Punctual (d.act c) (n.afterDisturbance d c) := by
  obtain ⟨-, -, hanswers, htally⟩ | ⟨hpending, -, -, htally⟩ := d.act_answers c n hspares
  · rw [htally]
    exact ⟨fun hstage => Nat.le_trans hanswers (h.armed hstage),
      fun hstage hn => Nat.le_trans hanswers (h.waiting hstage hn), h.woken⟩
  · rw [htally]
    refine ⟨?_, ?_, ?_⟩
    · -- Between its arming and its start a transfer is owed no answer.
      intro hstage
      rw [hfree (.inr hstage)] at hpending
      cases hpending
    · exact fun _ hn => absurd hn.symm Bool.false_ne_true
    · exact fun _ hn => absurd hn.symm Bool.false_ne_true

end Transfer.Punctual

/-! ## Steps -/

theorem Owing.step {c : Channel Rig} {n : Tally} {t : Transfer} (h : Owing c n)
    (ht : t.Punctual c n) (hsound : t.Sound c) (hfree : t.Unanswered c) :
    Owing (t.step c).2 (n.afterStep t c) ∧
    ∀ t', (t.step c).1.rest? = some t' → t'.Punctual (t.step c).2 (n.afterStep t c) := by
  cases hstage : t.stage with
  | check =>
    rw [t.step_check c hstage, Tally.afterStep, hstage]
    refine ⟨h, ?_⟩
    obtain ⟨error, hcheck⟩ | ⟨-, -, hcheck⟩ := t.check_cases c.engine
    · rw [hcheck]
      exact Progress.of_rest?_finished
    · rw [hcheck]
      rintro t' ⟨⟩
      exact .of_unarmed _ _ (by simp)
  | give =>
    rw [t.step_give c hstage, Tally.afterStep, hstage]
    refine ⟨⟨h.idle, h.held⟩, ?_⟩
    rintro t' ⟨⟩
    exact .of_unarmed _ _ (by simp)
  | inspect =>
    obtain ⟨hready, w, r, hstep⟩ | ⟨hready, hstuck, w, r, hstep⟩ | ⟨hready, hstuck, w, r, hstep⟩ :=
      t.step_inspect c hstage
    · rw [hstep, Tally.afterStep, hstage]
      simp only [hready, if_true]
      refine ⟨⟨h.idle, h.held⟩, ?_⟩
      rintro t' ⟨⟩
      exact .of_unarmed _ _ (by simp)
    all_goals
      rw [hstep, Tally.afterStep, hstage]
      simp only [hready, Bool.false_eq_true, if_false]
      refine ⟨⟨fun _ => by simp; decide, fun hpending => absurd hpending Bool.false_ne_true⟩, ?_⟩
    · rintro t' ⟨⟩
      exact .of_unarmed _ _ (by simp)
    · exact Progress.of_rest?_finished
  | arm =>
    rw [t.step_arm c hstage, Tally.afterStep, hstage]
    refine ⟨⟨h.idle, fun _ => rfl⟩, ?_⟩
    rintro t' ⟨⟩
    refine ⟨fun _ => ?_, by simp, by simp⟩
    simp [Channel.answers, Channel.signal, Completion.restart]
  | enter =>
    rw [t.step_enter c hstage, Tally.afterStep, hstage]
    refine ⟨h, ?_⟩
    cases hclosed : c.engine.closed with
    | true => exact Progress.of_rest?_finished
    | false =>
      rintro t' ⟨⟩
      exact ⟨fun _ => ht.armed (.inl hstage), by simp, by simp⟩
  | program =>
    have hpending := hfree (.inr (.inr hstage))
    have hanswers := ht.armed (.inr hstage)
    rw [t.step_program c hstage, Tally.afterStep, hstage]
    obtain ⟨_, errors, _, _, card, -, -, -, -, ⟨w, rfl⟩, hprogram⟩ := hsound.program_cases hstage
    obtain ⟨-, -, hprogram⟩ | ⟨-, hprogram⟩ := hprogram
    · simp only [hprogram]
      refine ⟨⟨fun hnone => ?_, fun _ => by simp⟩, ?_⟩
      · simp at hnone
      · rintro t' ⟨⟩
        exact ⟨by simp, fun _ _ => hanswers, by simp⟩
    · simp only [hprogram]
      refine ⟨⟨fun _ => ?_, fun hheld => ?_⟩, ?_⟩
      · simp
        decide
      · simp [hpending] at hheld
      · rintro t' ⟨⟩
        refine ⟨by simp, fun _ hsilent => ?_, by simp⟩
        -- No answer came with the write, so that nothing more is on its way.
        unfold Channel.answers at hanswers ⊢
        simp only [decide_eq_false_iff_not] at hsilent
        simp only [Channel.answered_engine, Channel.withCard_engine]
        omega
  | await =>
    rw [Tally.afterStep, hstage]
    obtain ⟨-, completion, hstep⟩ | ⟨-, hdone, hstep⟩ | ⟨-, -, hstep⟩ := t.step_await c hstage
    · rw [hstep]
      exact ⟨⟨h.idle, h.held⟩, Progress.of_rest?_finished⟩
    · rw [hstep]
      refine ⟨⟨h.idle, h.held⟩, ?_⟩
      rintro t' ⟨⟩
      refine ⟨by simp, by simp, fun _ hn => ?_⟩
      have hlate := ht.waiting hstage hn
      unfold Channel.answers at hlate
      show 0 < n.late
      omega
    · rw [hstep]
      refine ⟨h, ?_⟩
      rintro t' ⟨⟩
      exact ht
  | take =>
    rw [t.step_take c hstage, Tally.afterStep, hstage]
    refine ⟨⟨h.idle, h.held⟩, ?_⟩
    rintro t' ⟨⟩
    exact ⟨by simp, by simp, fun _ => ht.woken (.inl hstage)⟩
  | conclude =>
    obtain ⟨r, hstep⟩ := t.step_conclude c hstage
    rw [hstep, Tally.afterStep, hstage]
    exact ⟨⟨h.idle, h.held⟩, Progress.of_rest?_finished⟩

theorem Transfer.Sound.program_silent {t : Transfer} {c : Channel Rig} (h : t.Sound c)
    (hstage : t.stage = .program) (hmode : c.card.mode = .manual) (hfault : c.card.injected = 0)
    (houtside : ∀ b, c.card.buffer = some b → b.offsetOf? t.start t.count = none) :
    (t.program c).engine = c.engine ∧ (t.program c).hardware.raised = c.hardware.raised ∧
      (t.program c).card.status &&& Status.errors = c.card.status &&& Status.errors := by
  obtain ⟨b, errors, memory, buffer, card, hb, -, -, hcarried, ⟨w, rfl⟩, hprogram⟩ :=
    h.program_cases hstage
  obtain rfl := hcarried.errors_eq_zero hfault (houtside b hb)
  obtain ⟨-, -, hprogram⟩ | ⟨himmediate, hprogram⟩ := hprogram
  · rw [hprogram]
    exact ⟨rfl, rfl, by simp⟩
  · have hsilent : anySet c.card.control (Card.enableBit 0) = false := by
      cases henabled : anySet c.card.control (Card.enableBit 0) with
      | false => rfl
      | true => simp [hmode] at himmediate; simp [himmediate] at henabled
    rw [hsilent] at hprogram
    rw [hprogram]
    exact ⟨rfl, rfl, by simp⟩

/-! ## Runs -/

namespace Traffic

structure AnswerInv (s : Traffic) : Prop where
  owing : Owing s.channel s.tally
  punctual : ∀ t, s.transfer? = some t → t.Punctual s.channel s.tally

theorem Reachable.answerInv {s : Traffic} (h : s.Reachable Event.sparesIdle) : s.AnswerInv := by
  have hinv : Invariant Event.sparesIdle Owing Transfer.Punctual := {
    attached c hc := by
      obtain ⟨-, -, hstatus, hpending, -⟩ := Fitted.of_attached hc
      refine ⟨fun _ => ?_, fun hheld => ?_⟩
      · rw [hstatus]
        decide
      · simp [hpending] at hheld
    staged c n _ _ howing := ⟨howing.idle, howing.held⟩
    reset c n _ := by
      obtain ⟨-, w, r, hreset⟩ | ⟨-, w, r, hreset⟩ := c.reset_cases
      all_goals
        rw [hreset]
        exact ⟨fun _ => by simp; decide, fun hpending => absurd hpending Bool.false_ne_true⟩
    fresh t c n _ ht := .of_unarmed c n (.inl ht)
    act s d _ hspares howing := howing.act d hspares
    hand s d t hs hspares ht hpunctual := hpunctual.act (hs.signalInv.unanswered t ht) d hspares
    step s t hs ht howing hpunctual :=
      howing.step hpunctual (hs.sound.transfer t ht) (hs.signalInv.unanswered t ht) }
  obtain ⟨howing, hpunctual⟩ := h.invariant hinv
  exact ⟨howing, hpunctual⟩

/-- The card has finished the last transfer: it is idle, owes no answer and has given one. -/
def Settled (s : Traffic) : Prop :=
  s.channel.card.status &&& Status.idle ≠ 0 ∧ s.channel.card.pending = false ∧ s.tally.answered = true

/-- The transfer in hand succeeds with its next step, though the card has not answered it. -/
def Hasty (s : Traffic) : Prop :=
  s.tally.answered = false ∧
    ∃ t n, s.transfer? = some t ∧ (t.step s.channel).1 = .finished (.ok n)

theorem Reachable.settled_of_ok {s : Traffic} (h : s.Reachable Event.sparesIdle) {t : Transfer}
    (ht : s.transfer? = some t) {n : Nat} (hok : (t.step s.channel).1 = .finished (.ok n))
    (hlate : s.tally.late = 0) : s.Settled := by
  have hinv := h.answerInv
  obtain ⟨hstage, -, -⟩ := t.step_ok s.channel hok
  have hanswered : s.tally.answered = true := by
    cases hn : s.tally.answered with
    | true => rfl
    | false =>
      have hwoken := (hinv.punctual t ht).woken (.inr hstage) hn
      omega
  have hpending : s.channel.card.pending = false := by
    cases hheld : s.channel.card.pending with
    | false => rfl
    | true => rw [hinv.owing.held hheld] at hanswered; cases hanswered
  exact ⟨hinv.owing.idle hpending, hpending, hanswered⟩

/-! ## A late interrupt -/

structure Misled (s : Traffic) (t : Transfer) : Prop where
  transfer : s.transfer? = some t
  stage : t.stage = .await
  killed : s.channel.engine.completion.killed = false
  raised : s.channel.hardware.raised ≠ 0
  errors : s.channel.card.status &&& Status.errors = 0
  answered : s.tally.answered = false

theorem Misled.hasty {s : Traffic} {t : Transfer} (h : s.Misled t) :
    Hasty (s.run [.move (.disturb .deliver), .move .step, .move .step]) := by
  let s₁ := s.after (.move (.disturb .deliver))
  let s₂ := s₁.after (.move .step)
  let s₃ := s₂.after (.move .step)
  have ht₁ : s₁.transfer? = some t := h.transfer
  have herrors₁ : s₁.channel.card.status &&& Status.errors = 0 := by
    rw [← h.errors]
    exact (Disturbance.deliver.act_spared s.channel).errors
  have hwake : s₁.channel.engine.completion.killed = false ∧ 0 < s₁.channel.engine.completion.done := by
    obtain ⟨hnone, -⟩ | ⟨k, -, hact⟩ := s.channel.deliverOne_cases
    · exact absurd hnone h.raised
    · obtain ⟨w, r, hinterrupt⟩ := (s.channel.withRaised k).interrupt_eq
      rw [hinterrupt] at hact
      have hs₁ : s₁.channel = s.channel.deliverOne := rfl
      rw [hs₁, hact]
      refine ⟨h.killed, ?_⟩
      simp only [Channel.signal, Completion.complete, Completion.doneMax, UInt32.size]
      omega
  obtain ⟨hchannel₂, htally₂, ht₂⟩ := after_step ht₁
  obtain ⟨hkilled, -⟩ | ⟨-, -, hstep₂⟩ | ⟨-, hdone, -⟩ := t.step_await s₁.channel h.stage
  · rw [hwake.1] at hkilled
    cases hkilled
  · rw [hstep₂] at hchannel₂ ht₂
    obtain ⟨hchannel₃, htally₃, ht₃⟩ := after_step ht₂
    rw [Transfer.step_take _ _ rfl] at hchannel₃ ht₃
    refine ⟨?_, _, t.count, ht₃, ?_⟩
    · show s₃.tally.answered = false
      rw [htally₃, htally₂, Tally.afterStep, Tally.afterStep, h.stage]
      exact h.answered
    · show (Transfer.step _ s₃.channel).1 = _
      obtain ⟨r, hstep⟩ := Transfer.step_conclude { t with stage := .conclude } s₃.channel rfl
      have herrors₃ : anySet s₃.channel.card.status Status.errors = false := by
        rw [anySet_eq_false, hchannel₃]
        show s₂.channel.card.status &&& Status.errors = 0
        rw [hchannel₂]
        exact herrors₁
      rw [herrors₃] at hstep
      simpa using congrArg Prod.fst hstep
  · omega

/-- From the arming of its signal to its wait, on a card that holds answers back. -/
theorem Reachable.misled_of_armed {s : Traffic} (h : s.Reachable Event.sparesIdle) {t : Transfer}
    (ht : s.transfer? = some t) (hstage : t.stage = .arm)
    (hraised : s.channel.hardware.raised ≠ 0) (hopen : s.channel.engine.closed = false)
    (hkilled : s.channel.engine.completion.killed = false)
    (hmode : s.channel.card.mode = .manual) (hfault : s.channel.card.injected = 0)
    (houtside : ∀ b, s.channel.card.buffer = some b → b.offsetOf? t.start t.count = none) :
    ∃ t', Misled (s.run [.move .step, .move .step, .move .step]) t' := by
  let s₁ := s.after (.move .step)
  let s₂ := s₁.after (.move .step)
  let s₃ := s₂.after (.move .step)
  obtain ⟨hchannel₁, htally₁, ht₁⟩ := after_step ht
  rw [t.step_arm _ hstage] at hchannel₁ ht₁
  obtain ⟨hchannel₂, htally₂, ht₂⟩ := after_step ht₁
  have hopen₁ : s₁.channel.engine.closed = false := by
    rw [hchannel₁]
    exact hopen
  rw [Transfer.step_enter _ _ rfl, hopen₁] at hchannel₂ ht₂
  obtain ⟨hchannel₃, htally₃, ht₃⟩ := after_step ht₂
  rw [Transfer.step_program _ _ rfl] at hchannel₃ ht₃
  have hchannel : s₂.channel = s.channel.signal .restart := by rw [hchannel₂, hchannel₁]
  have hsound : s₂.Sound := ((h.after _ _ rfl).after _ _ rfl).sound
  obtain ⟨hengine, hsilent, herrors⟩ := (hsound.transfer _ ht₂).program_silent rfl
    (by rw [hchannel]; exact hmode) (by rw [hchannel]; exact hfault)
    (by rw [hchannel]; exact houtside)
  refine ⟨_, ht₃, rfl, ?_, ?_, ?_, ?_⟩
  · show s₃.channel.engine.completion.killed = false
    rw [hchannel₃, hengine, hchannel]
    exact hkilled
  · show s₃.channel.hardware.raised ≠ 0
    rw [hchannel₃, hsilent, hchannel]
    exact hraised
  · show s₃.channel.card.status &&& Status.errors = 0
    rw [hchannel₃, herrors, hchannel]
    exact (h.sound.transfer t ht).healthy (.inl hstage)
  · show s₃.tally.answered = false
    have hanswered : s₃.tally.answered = decide (s₂.channel.hardware.raised <
        (Transfer.program { t with stage := .program } s₂.channel).hardware.raised) := by
      rw [htally₃]
      rfl
    rw [hanswered, hsilent]
    simp

/-- A success means that the card has finished that very transfer, unless an interrupt was on its way
when the transfer armed its signal; and with such an interrupt a transfer that nothing else stops can
succeed before the card has answered it. -/
theorem Reachable.own_answer {s : Traffic} (h : s.Reachable Event.sparesIdle) {t : Transfer}
    (ht : s.transfer? = some t) :
    (∀ n, (t.step s.channel).1 = .finished (.ok n) → s.tally.late = 0 → s.Settled) ∧
    (t.stage = .arm → s.channel.hardware.raised ≠ 0 → s.channel.engine.closed = false →
      s.channel.engine.completion.killed = false →
      (∀ b, s.channel.card.buffer = some b → b.offsetOf? t.start t.count = none) →
      ∃ moves : List Move, moves.all Move.sparesIdle = true ∧ (s.run (moves.map .move)).Hasty) := by
  refine ⟨fun n hok hlate => h.settled_of_ok ht hok hlate, ?_⟩
  intro hstage hraised hopen hkilled houtside
  -- The bench lets the card hold its answers back and takes a fault away.
  let s' := s.run
    [.move (.disturb (.bench (.mode .manual) rfl)), .move (.disturb (.bench (.fault 0) rfl))]
  have h' : s'.Reachable Event.sparesIdle := h.run _ rfl
  obtain ⟨t', hmisled⟩ := h'.misled_of_armed ht hstage hraised hopen hkilled rfl rfl houtside
  exact ⟨[.disturb (.bench (.mode .manual) rfl), .disturb (.bench (.fault 0) rfl), .step, .step, .step,
    .disturb .deliver, .step, .step], rfl, hmisled.hasty⟩

/-- A killed transfer, whose interrupt is on its way when the next one arms its signal. -/
def afterKill : Traffic :=
  run { channel := smallChannel }
    (List.flatten
      [[.move (.disturb (.bench (.mode .manual) rfl)), .order (.transfer 0x80000000 2 .fromDevice)],
        steps 6, [.move (.disturb .kill), .move .step, .move (.disturb .raise),
        .order (.transfer 0x80000000 4 .fromDevice)], steps 3])

def aboutToEnd : Traffic :=
  run { channel := smallChannel }
    (List.flatten [[.order (.transfer 0x80000000 2 .fromDevice)], steps 6,
      [.move (.disturb .deliver)], steps 2])

theorem own_answer_small :
    aboutToEnd.Settled ∧
    ∃ moves : List Move, moves.all Move.sparesIdle = true ∧ (afterKill.run (moves.map .move)).Hasty := by
  have houtside (b : HostBuffer) (hb : afterKill.channel.card.buffer = some b) :
      b.offsetOf? 0x80000000 4 = none := by
    cases hb
    rfl
  have hend : aboutToEnd.Reachable Event.sparesIdle := (smallChannel_reachable _).run _ rfl
  have harmed : afterKill.Reachable Event.sparesIdle := (smallChannel_reachable _).run _ rfl
  have ht : afterKill.transfer? = some
      { start := 0x80000000, count := 4, direction := .fromDevice, stage := .arm } := rfl
  exact ⟨(hend.own_answer rfl).1 2 rfl rfl,
    (harmed.own_answer ht).2 rfl (by decide) rfl rfl houtside⟩

def misled : Traffic :=
  afterKill.run (List.flatten [steps 3, [.move (.disturb .deliver)], steps 2])

/-- The second transfer succeeds on the interrupt of the first, while the card still owes it its own. -/
theorem late_interrupt_completes :
    ∃ t, misled.Reachable Event.sparesIdle ∧ misled.transfer? = some t ∧
      (t.step misled.channel).1 = .finished (.ok 4) ∧ misled.channel.card.pending = true ∧
      misled.channel.card.status &&& Status.idle = 0 ∧ misled.tally.answered = false :=
  ⟨_, ((smallChannel_reachable _).run _ rfl).run _ rfl, rfl, rfl, rfl, rfl, rfl⟩

end Traffic

end FpgaCard
