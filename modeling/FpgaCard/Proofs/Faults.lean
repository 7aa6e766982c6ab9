import FpgaCard.Proofs.Answers
import FpgaCard.Proofs.Movement
import FpgaCard.Proofs.Schedule
import FpgaCard.Proofs.Undisturbed
import FpgaCard.Proofs.Usable

/-!
# Faults and recovery

Whose fault a transfer reports. Error bits stay in the status until a reset, while kills, faults and a
controller that was left busy may come before any transfer. Main statement: a transfer that is not killed
reports a fault if and only if the card met one when its own count was written, which then moved nothing;
and with nothing pending, a transfer on a card that gets out of its resets moves what it was asked to move.
-/

namespace FpgaCard

open Simulation

/-! ## What the card meets -/

namespace Simulation.Carried

variable {injected errors errors' : UInt32} {m m' m'' : Memory} {b b' b'' : HostBuffer} {start : UInt64}
  {n : Nat} {d : Direction}

theorem errors_unique (h : Carried injected m b start n d errors m' b')
    (h' : Carried injected m b start n d errors' m'' b'') : errors = errors' := by
  cases h <;> cases h' <;> simp_all

theorem unmoved (h : Carried injected m b start n d errors m' b') (herrors : errors ≠ 0) :
    m' = m ∧ b' = b := by
  cases h with
  | fault => exact ⟨rfl, rfl⟩
  | inside => exact ⟨rfl, rfl⟩
  | toDevice => exact absurd rfl herrors
  | fromDevice => exact absurd rfl herrors

end Simulation.Carried

namespace Transfer

/-- The error bits that the card meets when the count of the transfer is written. -/
def fault (t : Transfer) (c : Channel Rig) : UInt32 :=
  ((t.addressed c).card.perform ((UInt32.ofNat t.count).toNat % (Register.countMax + 1))).1

variable {t t' : Transfer} {c c' : Channel Rig}

/-- What the card meets is what keeps the bytes from moving, and what the status shows behind it. -/
theorem Sound.program_fault (h : t.Sound c) (hstage : t.stage = .program) :
    ∃ b memory buffer, c.card.buffer = some b ∧
      Carried c.card.injected c.card.memory b t.start t.count t.direction (t.fault c) memory buffer ∧
      (t.program c).card.memory = memory ∧ (t.program c).card.buffer = some buffer ∧
      (t.program c).card.status &&& Status.errors = t.fault c := by
  obtain ⟨b, errors, memory, buffer, card, hb, haddress, hfits, hcarried, ⟨w, rfl⟩, hprogram⟩ :=
    h.program_cases hstage
  obtain ⟨hpos, hmax⟩ := h.count (by simp [hstage])
  have hfault : t.fault c = errors := by
    obtain ⟨w', haddressed⟩ := t.addressed_eq c
    obtain ⟨errors', _, _, hcarried', hperform⟩ := Card.perform_carried
      ((c.card.withAddresses (t.source c.engine) (t.destination c.engine)).withLog w' c.card.reads)
      t c.engine b hb haddress hpos hfits (by simp) (by simp)
    unfold fault
    rw [count_word (Nat.le_trans hmax h.fitted.engine.countMax), haddressed, Channel.withCard_card,
      hperform]
    exact hcarried'.errors_unique hcarried
  rw [← hfault] at hcarried hprogram
  have hhealthy := h.healthy (.inr (.inr hstage))
  have herrors := hcarried.errors_eq h.fitted.injected
  refine ⟨b, memory, buffer, hb, hcarried, ?_⟩
  obtain ⟨-, -, hprogram⟩ | ⟨-, hprogram⟩ := hprogram
  · rw [hprogram]
    exact ⟨rfl, rfl, by simp [hhealthy, herrors]⟩
  · rw [hprogram]
    exact ⟨rfl, rfl, by simp [hhealthy, herrors]⟩

theorem Sound.program_unmoved (h : t.Sound c) (hstage : t.stage = .program) (hfault : t.fault c ≠ 0) :
    (t.step c).2.card.memory = c.card.memory ∧ (t.step c).2.card.buffer = c.card.buffer := by
  obtain ⟨b, memory, buffer, hb, hcarried, hmemory, hbuffer, -⟩ := h.program_fault hstage
  obtain ⟨rfl, rfl⟩ := hcarried.unmoved hfault
  rw [t.step_program c hstage, hmemory, hbuffer, hb]
  exact ⟨rfl, rfl⟩

/-! ## From the count to the end -/

structure Faced (errors : UInt32) (n : Nat) (t : Transfer) (c : Channel Rig) : Prop where
  stage : t.stage = .await ∨ t.stage = .take ∨ t.stage = .conclude
  count : t.count = n
  shown : c.card.status &&& Status.errors = errors

/-- Unless it was killed, a transfer of `n` bytes reports these errors if they are any, and succeeds if
they are none. -/
def Reports (errors : UInt32) (n : Nat) (r : Except CardError Nat) : Prop :=
  r ≠ .error .transferKilled →
    ((∃ status, r = .error (.transferFault status)) ↔ errors ≠ 0) ∧
    (∀ status, r = .error (.transferFault status) → status &&& Status.errors = errors) ∧
    (errors = 0 → r = .ok n)

namespace Faced

variable {errors : UInt32} {n : Nat}

theorem act (h : Faced errors n t c) (d : Disturbance) : Faced errors n t (d.act c) :=
  ⟨h.stage, h.count, (d.act_spared c).errors.trans h.shown⟩

theorem step (h : Faced errors n t c) (h' : (t.step c).1.rest? = some t') :
    Faced errors n t' (t.step c).2 := by
  obtain hstage | hstage | hstage := h.stage
  · obtain ⟨-, _, hstep⟩ | ⟨-, -, hstep⟩ | ⟨-, -, hstep⟩ := t.step_await c hstage
    · rw [hstep] at h'
      cases h'
    · rw [hstep] at h' ⊢
      cases h'
      exact ⟨.inr (.inl rfl), h.count, h.shown⟩
    · rw [hstep] at h' ⊢
      cases h'
      exact h
  · rw [t.step_take c hstage] at h' ⊢
    cases h'
    exact ⟨.inr (.inr rfl), h.count, h.shown⟩
  · obtain ⟨_, hstep⟩ := t.step_conclude c hstage
    rw [hstep] at h'
    cases h'

theorem ended (h : Faced errors n t c) {r : Except CardError Nat} (h' : (t.step c).1 = .finished r) :
    Reports errors n r := by
  obtain hstage | hstage | hstage := h.stage
  · obtain ⟨-, _, hstep⟩ | ⟨-, -, hstep⟩ | ⟨-, -, hstep⟩ := t.step_await c hstage
    · rw [hstep] at h'
      cases h'
      exact fun hkilled => absurd rfl hkilled
    · simp [hstep, goto] at h'
    · simp [hstep] at h'
  · simp [t.step_take c hstage, goto] at h'
  · obtain ⟨_, hstep⟩ := t.step_conclude c hstage
    rw [hstep] at h'
    cases hset : anySet c.card.status Status.errors with
    | true =>
      rw [hset] at h'
      cases h'
      have herrors : errors ≠ 0 := by
        rw [← h.shown, ne_eq, ← anySet_eq_false, hset]
        decide
      refine fun _ => ⟨⟨fun _ => herrors, fun _ => ⟨_, rfl⟩⟩, ?_, fun hnone => absurd hnone herrors⟩
      rintro status ⟨⟩
      exact h.shown
    | false =>
      rw [hset] at h'
      cases h'
      have herrors : errors = 0 := by
        rw [← h.shown]
        exact (anySet_eq_false _ _).1 hset
      refine fun _ => ⟨⟨?_, fun hsome => absurd herrors hsome⟩, ?_, fun _ => by rw [← h.count]; rfl⟩
      · rintro ⟨_, ⟨⟩⟩
      · rintro _ ⟨⟩

theorem drive (h : Faced errors n t c) {moves : List Move} {r : Except CardError Nat}
    (hdrive : drive Transfer.step moves t c = (.finished r, c')) : Reports errors n r := by
  have hany : moves.all (fun _ => true) = true := by simp
  exact drive_spec (Faced errors n) (fun r _ => Reports errors n r)
    (fun _ _ d hinv _ => hinv.act d) (fun _ _ _ hinv hrest => hinv.step hrest)
    (fun _ _ _ hinv hend => hinv.ended hend) h hany hdrive

end Faced

/-! ## From the request to the count -/

/-- The transfer and the channel just before the count is written, if it comes to that. -/
def begun : List Move → Transfer → Channel Rig → Option (Transfer × Channel Rig)
  | [], _, _ => none
  | .disturb d :: moves, t, c => begun moves t (d.act c)
  | .step :: moves, t, c =>
    if t.stage = .program then some (t, c)
    else (t.step c).1.rest?.bind fun t' => begun moves t' (t.step c).2

theorem drive_begun {moves : List Move} {t₁ : Transfer} {c₁ : Channel Rig} (h : t.Sound c)
    (hbegun : begun moves t c = some (t₁, c₁)) : t₁.Sound c₁ ∧ t₁.stage = .program ∧
      ∃ rest, drive step moves t c = drive step rest { t₁ with stage := .await } (t₁.program c₁) := by
  induction moves generalizing t c with
  | nil => cases hbegun
  | cons m moves ih =>
    cases m with
    | disturb d => exact ih (h.act d) hbegun
    | step =>
      have hrest := h.step.2
      rw [begun] at hbegun
      rw [drive_step]
      split at hbegun
      · rename_i hstage
        cases hbegun
        refine ⟨h, hstage, moves, ?_⟩
        rw [t₁.step_program c₁ hstage]
        rfl
      · cases hp : (t.step c).1 with
        | finished r =>
          rw [hp] at hbegun
          cases hbegun
        | going t' =>
          rw [hp] at hbegun
          exact ih (hrest t' (by rw [hp]; rfl)) hbegun
        | waiting t' =>
          rw [hp] at hbegun
          exact ih (hrest t' (by rw [hp]; rfl)) hbegun

/-- An end for other reasons than what the card shows. -/
def Refused (r : Except CardError Nat) : Prop :=
  ∃ error, r = .error error ∧ ∀ status, error ≠ .transferFault status

theorem step_refused (hstage : Stage.program.remaining < t.stage.remaining) {r : Except CardError Nat}
    (h : (t.step c).1 = .finished r) : Refused r := by
  cases ht : t.stage with
  | check =>
    rw [t.step_check c ht] at h
    simp only [check] at h
    split at h
    · cases h
      exact ⟨_, rfl, by simp [zeroLength]⟩
    split at h
    · cases h
      exact ⟨_, rfl, by simp⟩
    · cases h
  | give => simp [t.step_give c ht, goto] at h
  | inspect =>
    obtain ⟨-, _, _, hstep⟩ | ⟨-, -, _, _, hstep⟩ | ⟨-, -, _, _, hstep⟩ := t.step_inspect c ht
    · simp [hstep, goto] at h
    · simp [hstep, goto] at h
    · rw [hstep] at h
      cases h
      exact ⟨_, rfl, by simp⟩
  | arm => simp [t.step_arm c ht, goto] at h
  | enter =>
    rw [t.step_enter c ht] at h
    split at h
    · cases h
      exact ⟨_, rfl, by simp⟩
    · cases h
  | _ =>
    rw [ht] at hstage
    simp [Stage.remaining] at hstage

theorem drive_unbegun {moves : List Move} (hstage : Stage.program.remaining ≤ t.stage.remaining)
    (hbegun : begun moves t c = none) {r : Except CardError Nat}
    (hdrive : drive step moves t c = (.finished r, c')) : Refused r := by
  induction moves generalizing t c with
  | nil => cases hdrive
  | cons m moves ih =>
    cases m with
    | disturb d => exact ih hstage hbegun hdrive
    | step =>
      rw [begun] at hbegun
      rw [drive_step] at hdrive
      split at hbegun
      · cases hbegun
      rename_i hother
      have hbefore : Stage.program.remaining < t.stage.remaining := by
        refine Nat.lt_of_le_of_ne hstage fun heq => hother ?_
        revert heq
        cases t.stage <;> simp [Stage.remaining]
      cases hp : (t.step c).1 with
      | finished r' =>
        rw [hp] at hdrive
        cases hdrive
        exact step_refused hbefore hp
      | going t' =>
        have hnext := (step_going hp).1
        rw [hp] at hbegun hdrive
        exact ih (by omega) hbegun hdrive
      | waiting t' =>
        obtain ⟨-, hawait, -⟩ := step_waiting hp
        rw [hawait] at hbefore
        simp [Stage.remaining] at hbefore

end Transfer

/-! ## Transfers in the clear -/

namespace Channel

theorem deliver_keeps {P : Channel Rig → Prop} (hact : ∀ c, P c → P (Disturbance.deliver.act c))
    {c : Channel Rig} (h : P c) : P c.deliver ∧ c.deliver.hardware.raised = 0 := by
  obtain ⟨engine, hardware⟩ := c
  obtain ⟨card, registers, routed, raised⟩ := hardware
  show P (interrupts raised _) ∧ (interrupts raised ⟨_, _⟩ : Channel Rig).hardware.raised = 0
  induction raised generalizing engine card registers routed with
  | zero => exact ⟨h, rfl⟩
  | succ n ih => exact ih _ _ _ _ (hact _ h)

theorem answers_deliver {c : Channel Rig} (h : 0 < c.answers) :
    0 < (Disturbance.deliver.act c).answers := by
  obtain ⟨-, hact⟩ | ⟨n, -, hact⟩ := c.deliverOne_cases
  · rw [Disturbance.act, hact]
    exact h
  · obtain ⟨w, r, hinterrupt⟩ := (c.withRaised n).interrupt_eq
    rw [Disturbance.act, hact, hinterrupt]
    show 0 < min (c.engine.completion.done + 1) Completion.doneMax + n
    have hmax : 0 < Completion.doneMax := by decide
    omega

theorem mode_deliver (c : Channel Rig) : (Disturbance.deliver.act c).card.mode = c.card.mode := by
  obtain ⟨-, hact⟩ | ⟨n, -, hact⟩ := c.deliverOne_cases
  · rw [Disturbance.act, hact]
  · obtain ⟨w, r, hinterrupt⟩ := (c.withRaised n).interrupt_eq
    rw [Disturbance.act, hact, hinterrupt]
    rfl

end Channel

namespace Transfer

theorem step_going_asked {t t' : Transfer} {c : Channel Rig} (h : (t.step c).1 = .going t') :
    t'.start = t.start ∧
      min t'.count c.engine.maxTransfer = min t.count c.engine.maxTransfer := by
  cases hstage : t.stage with
  | check =>
    rw [t.step_check c hstage] at h
    obtain ⟨_, hcheck⟩ | ⟨-, -, hcheck⟩ := t.check_cases c.engine
    · rw [hcheck] at h
      cases h
    · rw [hcheck] at h
      cases h
      exact ⟨rfl, by simp⟩
  | inspect =>
    obtain ⟨-, _, _, hstep⟩ | ⟨-, -, _, _, hstep⟩ | ⟨-, -, _, _, hstep⟩ := t.step_inspect c hstage
    · rw [hstep] at h
      cases h
      exact ⟨rfl, rfl⟩
    · rw [hstep] at h
      cases h
      exact ⟨rfl, rfl⟩
    · rw [hstep] at h
      cases h
  | enter =>
    rw [t.step_enter c hstage] at h
    split at h
    · cases h
    · cases h
      exact ⟨rfl, rfl⟩
  | await =>
    obtain ⟨-, _, hstep⟩ | ⟨-, -, hstep⟩ | ⟨-, -, hstep⟩ := t.step_await c hstage
    · rw [hstep] at h
      cases h
    · rw [hstep] at h
      cases h
      exact ⟨rfl, rfl⟩
    · rw [hstep] at h
      cases h
  | conclude =>
    obtain ⟨_, hstep⟩ := t.step_conclude c hstage
    rw [hstep] at h
    cases h
  | _ =>
    simp only [step, hstage, goto] at h
    cases h
    exact ⟨rfl, rfl⟩

theorem Sound.step_manner {t : Transfer} {c : Channel Rig} (h : t.Sound c) :
    (t.step c).2.card.mode = c.card.mode ∧ (t.step c).2.card.stuck = c.card.stuck := by
  cases hstage : t.stage with
  | check =>
    rw [t.step_check c hstage]
    exact ⟨rfl, rfl⟩
  | give =>
    rw [t.step_give c hstage]
    exact ⟨rfl, rfl⟩
  | inspect =>
    obtain ⟨-, _, _, hstep⟩ | ⟨-, -, _, _, hstep⟩ | ⟨-, -, _, _, hstep⟩ := t.step_inspect c hstage <;>
      · rw [hstep]
        exact ⟨rfl, rfl⟩
  | arm =>
    rw [t.step_arm c hstage]
    exact ⟨rfl, rfl⟩
  | enter =>
    rw [t.step_enter c hstage]
    exact ⟨rfl, rfl⟩
  | program =>
    rw [t.step_program c hstage]
    obtain ⟨_, _, _, _, _, -, -, -, -, ⟨_, rfl⟩, ⟨-, -, hprogram⟩ | ⟨-, hprogram⟩⟩ :=
      h.program_cases hstage <;>
      · rw [hprogram]
        exact ⟨rfl, rfl⟩
  | await =>
    obtain ⟨-, _, hstep⟩ | ⟨-, -, hstep⟩ | ⟨-, -, hstep⟩ := t.step_await c hstage <;>
      · rw [hstep]
        exact ⟨rfl, rfl⟩
  | take =>
    rw [t.step_take c hstage]
    exact ⟨rfl, rfl⟩
  | conclude =>
    obtain ⟨_, hstep⟩ := t.step_conclude c hstage
    rw [hstep]
    exact ⟨rfl, rfl⟩

/-- A transfer that nothing speaks against, on a card that answers at once. -/
structure Clear (t : Transfer) (c : Channel Rig) : Prop where
  sound : t.Sound c
  sober : c.Sober
  mode : c.card.mode = .immediate
  passes : t.stage = .check → ∃ t', t.check c.engine = .going t'
  outside : c.engine.errorsOf t.start (min t.count c.engine.maxTransfer) = 0
  clean : t.stage.remaining < Stage.program.remaining → c.card.status &&& Status.errors = 0
  answered : t.stage = .await → 0 < c.answers

namespace Clear

variable {t : Transfer} {c : Channel Rig}

theorem deliverOne (h : t.Clear c) : t.Clear (Disturbance.deliver.act c) := by
  have hspared := Disturbance.deliver.act_spared c
  constructor
  case sound => exact h.sound.act _
  case sober => exact h.sober.act rfl
  case mode => rw [c.mode_deliver, h.mode]
  case passes =>
    rw [check_like hspared.engine]
    exact h.passes
  case outside =>
    rw [hspared.engine.maxTransfer, Engine.errorsOf_like hspared.engine]
    exact h.outside
  case clean =>
    rw [hspared.errors]
    exact h.clean
  case answered => exact fun hstage => Channel.answers_deliver (h.answered hstage)

theorem deliver (h : t.Clear c) :
    t.Clear c.deliver ∧ (t.stage = .await → 0 < c.deliver.engine.completion.done) := by
  obtain ⟨hclear, hraised⟩ := Channel.deliver_keeps (P := t.Clear) (fun _ h => h.deliverOne) h
  refine ⟨hclear, fun hstage => ?_⟩
  have hanswers := hclear.answered hstage
  unfold Channel.answers at hanswers
  omega

theorem program (h : t.Clear c) (hstage : t.stage = .program) :
    (t.program c).card.status &&& Status.errors = 0 ∧ 0 < (t.program c).answers := by
  have hcount := (h.sound.count (by simp [hstage])).2
  obtain ⟨b, errors, memory, buffer, card, hb, -, -, hcarried, ⟨w, rfl⟩, hprogram⟩ :=
    h.sound.program_cases hstage
  have houtside := h.outside
  rw [Nat.min_eq_left hcount, h.sound.fitted.errorsOf_eq hb] at houtside
  have hnone : b.offsetOf? t.start t.count = none := by
    rw [← Option.not_isSome_iff_eq_none]
    intro hinside
    rw [if_pos hinside] at houtside
    exact absurd houtside (by decide)
  obtain rfl := hcarried.errors_eq_zero h.sober.injected hnone
  have henabled : anySet c.card.control (Card.enableBit 0) = true := by
    rw [h.sober.control]
    exact enabled_of_both 0
  have hhealthy := h.sound.healthy (.inr (.inr hstage))
  obtain ⟨-, hmanual, -⟩ | ⟨-, hprogram⟩ := hprogram
  · rw [h.mode] at hmanual
    cases hmanual
  · rw [hprogram, henabled]
    refine ⟨by simp [hhealthy], ?_⟩
    simp [Channel.answers, h.sound.fitted.routed]

theorem shown (h : t.Clear c) {t' : Transfer} (hgoes : (t.step c).1 = .going t')
    (hlate : t'.stage.remaining < Stage.program.remaining) :
    (t.step c).2.card.status &&& Status.errors = 0 ∧ (t'.stage = .await → 0 < (t.step c).2.answers) := by
  have hnext := (step_going hgoes).1
  have hbehind : t.stage.remaining ≤ Stage.program.remaining := by omega
  cases hstage : t.stage with
  | program =>
    rw [t.step_program c hstage]
    obtain ⟨hclean, hanswers⟩ := h.program hstage
    exact ⟨hclean, fun _ => hanswers⟩
  | await =>
    have hclean := h.clean (by simp [hstage, Stage.remaining])
    refine ⟨?_, fun hawait => ?_⟩
    · obtain ⟨-, _, hstep⟩ | ⟨-, -, hstep⟩ | ⟨-, -, hstep⟩ := t.step_await c hstage <;> rw [hstep] <;>
        exact hclean
    · rw [hawait, hstage] at hnext
      cases hnext
  | take =>
    have hclean := h.clean (by simp [hstage, Stage.remaining])
    rw [t.step_take c hstage]
    refine ⟨hclean, fun hawait => ?_⟩
    rw [hawait, hstage] at hnext
    cases hnext
  | conclude =>
    obtain ⟨_, hstep⟩ := t.step_conclude c hstage
    rw [hstep] at hgoes
    cases hgoes
  | _ =>
    rw [hstage] at hbehind
    exact absurd hbehind (by decide)

theorem next (h : t.Clear c) {t' : Transfer} (hgoes : (t.step c).1 = .going t') :
    t'.Clear (t.step c).2 := by
  have hlike := h.sound.step_like
  obtain ⟨hstart, hcount⟩ := step_going_asked hgoes
  have hnext := (step_going hgoes).1
  constructor
  case sound => exact h.sound.step.2 t' (by rw [hgoes]; rfl)
  case sober => exact h.sound.step_sober h.sober
  case mode => rw [h.sound.step_manner.1, h.mode]
  case passes =>
    intro hcheck
    rw [hcheck] at hnext
    cases hstage : t.stage <;> simp [hstage, Stage.remaining] at hnext
  case outside =>
    rw [hlike.maxTransfer, Engine.errorsOf_like hlike, hstart, hcount]
    exact h.outside
  case clean => exact fun hlate => (h.shown hgoes hlate).1
  case answered => exact fun hawait => (h.shown hgoes (by rw [hawait]; decide)).2 hawait

/-- A transfer in the clear goes on at every stage, and succeeds at the last. -/
theorem progress (h : t.Clear c) (hdone : t.stage = .await → 0 < c.engine.completion.done) :
    (t.step c).1 = .finished (.ok t.count) ∨ ∃ t', (t.step c).1 = .going t' := by
  cases hstage : t.stage with
  | check =>
    rw [t.step_check c hstage]
    exact .inr (h.passes hstage)
  | inspect =>
    obtain ⟨-, w, r, hstep⟩ | ⟨-, -, w, r, hstep⟩ | ⟨-, hstuck, -⟩ := t.step_inspect c hstage
    · exact .inr ⟨_, congrArg Prod.fst hstep⟩
    · exact .inr ⟨_, congrArg Prod.fst hstep⟩
    · rw [h.sober.stuck] at hstuck
      cases hstuck
  | enter =>
    rw [t.step_enter c hstage, h.sober.closed]
    exact .inr ⟨_, rfl⟩
  | await =>
    obtain ⟨hkilled, -⟩ | ⟨-, -, hstep⟩ | ⟨-, hnone, -⟩ := t.step_await c hstage
    · rw [h.sober.killed] at hkilled
      cases hkilled
    · exact .inr ⟨_, congrArg Prod.fst hstep⟩
    · have hpos := hdone hstage
      omega
  | conclude =>
    have hclean := h.clean (by simp [hstage, Stage.remaining])
    obtain ⟨_, hstep⟩ := t.step_conclude c hstage
    rw [(anySet_eq_false _ _).2 hclean] at hstep
    exact .inl (congrArg Prod.fst hstep)
  | _ =>
    simp only [Transfer.step, hstage]
    exact .inr ⟨_, rfl⟩

theorem resume (h : t.Clear c) : ∃ n c', t.resume c = (.finished (.ok n), c') := by
  rw [Transfer.resume]
  generalize hk : t.stage.remaining = k
  induction k generalizing t c with
  | zero => cases hstage : t.stage <;> simp [hstage, Stage.remaining] at hk
  | succ k ih =>
    obtain ⟨hclear, hdone⟩ := h.deliver
    rw [advance_succ]
    obtain hends | ⟨t', hgoes⟩ := hclear.progress hdone
    · rw [hends]
      exact ⟨_, _, rfl⟩
    · have hnext := (step_going hgoes).1
      rw [hgoes]
      exact ih (hclear.next hgoes) (by omega)

end Clear

end Transfer

/-! ## Runs -/

def Simulation.Probe.sparesReset : Probe → Bool
  | .stick on => !on
  | _ => true

def Event.sparesReset : Event → Bool
  | .move (.disturb (.bench probe _)) => probe.sparesReset
  | _ => true

theorem Simulation.Card.probe_stuck (c : Card) (p : Probe) (hregisters : p.sparesRegisters = true)
    (hreset : p.sparesReset = true) (h : c.stuck = false) : (c.probe p).2.2.stuck = false := by
  cases p with
  | stick on =>
    rw [Probe.sparesReset, Bool.not_eq_true'] at hreset
    exact hreset
  | load offset =>
    simp only [probe, load]
    split <;> exact h
  | store offset value => cases hregisters
  | _ => exact h

theorem Disturbance.act_stuck (d : Disturbance) (c : Channel Rig)
    (hreset : Event.sparesReset (.move (.disturb d)) = true) (h : c.card.stuck = false) :
    (d.act c).card.stuck = false := by
  cases d with
  | kill => exact h
  | close => exact h
  | deliver =>
    obtain ⟨-, hact⟩ | ⟨n, -, hact⟩ := c.deliverOne_cases
    · rw [act, hact, h]
    · obtain ⟨w, r, hinterrupt⟩ := (c.withRaised n).interrupt_eq
      rw [act, hact, hinterrupt]
      exact h
  | raise =>
    obtain ⟨-, hact⟩ | ⟨-, hact⟩ := act_raise_cases c
    · rw [hact, h]
    · rw [hact]
      exact h
  | bench p hp => exact c.card.probe_stuck p hp hreset h

/-- A card that gets out of its resets, with a buffer that its engine can use. -/
structure Responsive (c : Channel Rig) (n : Tally) : Prop where
  stuck : c.card.stuck = false
  ended : n.resetEnded = true
  aligned : c.engine.bufferAddress.toNat % c.engine.alignment = 0

namespace Responsive

variable {c : Channel Rig} {n : Tally}

theorem of_attached (h : Attached c) : Responsive c {} := by
  obtain ⟨-, -, -, -, -, -, hstuck⟩ := Fitted.of_attached h
  obtain ⟨rig, rig', b, settings, timeout, engine, -, -, hstart, rfl⟩ := h
  refine ⟨hstuck, rfl, ?_⟩
  obtain ⟨-, haligned, rfl⟩ := Engine.configure_ok (Channel.configure_of_start hstart)
  exact haligned

theorem like (h : Responsive c n) {c' : Channel Rig} {n' : Tally} (hlike : c.engine.Like c'.engine)
    (hstuck : c'.card.stuck = false) (hended : n'.resetEnded = true) : Responsive c' n' :=
  ⟨hstuck, hended, by rw [hlike.bufferAddress, hlike.alignment, h.aligned]⟩

theorem reset (h : Responsive c n) : Responsive c.reset.2 { n with resetEnded := c.reset.1.isOk } := by
  obtain ⟨-, w, r, hreset⟩ | ⟨hstuck, -⟩ := c.reset_cases
  · rw [hreset]
    exact h.like (.refl _) h.stuck rfl
  · rw [h.stuck] at hstuck
    cases hstuck

theorem step (h : Responsive c n) {t : Transfer} (ht : t.Sound c) :
    Responsive (t.step c).2 (n.afterStep t c) := by
  apply h.like ht.step_like (ht.step_manner.2.trans h.stuck)
  unfold Tally.afterStep
  split
  · split
    · exact h.ended
    · rw [c.reset_isOk, h.stuck]
      rfl
  · exact h.ended
  · exact h.ended
  · exact h.ended

end Responsive

namespace Traffic

theorem Reachable.responsive {s : Traffic} (h : s.Reachable Event.sparesReset) :
    Responsive s.channel s.tally := by
  have hinv : Invariant Event.sparesReset Responsive (fun _ _ _ => True) := {
    attached _ hc := .of_attached hc
    staged _ _ _ _ hresponsive := hresponsive.like (.refl _) hresponsive.stuck hresponsive.ended
    reset _ _ hresponsive := hresponsive.reset
    fresh _ _ _ _ _ := trivial
    act s d _ hreset hresponsive := by
      apply hresponsive.like (d.act_spared s.channel).engine (d.act_stuck _ hreset hresponsive.stuck)
      cases d <;> exact hresponsive.ended
    hand _ _ _ _ _ _ _ := trivial
    step s t hs ht hresponsive _ := ⟨hresponsive.step (hs.sound.transfer t ht), fun _ _ => trivial⟩ }
  exact (h.invariant hinv).1

/-- With the engine open and nothing pending that would end a transfer, the card is as good as new. -/
theorem Reachable.sober {s : Traffic} (h : s.Reachable Event.sparesReset)
    (hopen : s.channel.engine.closed = false) (hkilled : s.channel.engine.completion.killed = false)
    (hfault : s.channel.card.injected = 0) : s.channel.Sober := by
  have hresponsive := h.responsive
  refine ⟨h.sound.fitted, hresponsive.stuck, hfault, ?_, hopen, hkilled⟩
  rw [h.signalInv.signalling.control, hresponsive.ended]
  rfl

/-- A transfer that is not killed reports a fault if and only if the card met an error when its own count
was written, and that error; it then has moved nothing. What ends before that is refused for another reason.
With the engine open, nothing pending and a card that answers at once, a transfer that is aligned and
outside of the buffer's window moves what it was asked to move, whatever came before. -/
theorem Reachable.own_fault {s : Traffic} (h : s.Reachable Event.sparesReset) (start : UInt64) (count : Nat)
    (direction : Direction) :
    (∀ moves t c, Transfer.begun moves { start, count, direction } s.channel = some (t, c) →
      t.fault c ≠ 0 →
      (t.step c).2.card.memory = c.card.memory ∧ (t.step c).2.card.buffer = c.card.buffer) ∧
    (∀ moves r c', drive Transfer.step moves { start, count, direction } s.channel = (.finished r, c') →
      match Transfer.begun moves { start, count, direction } s.channel with
      | none => Transfer.Refused r
      | some (t, c) => Transfer.Reports (t.fault c) t.count r) ∧
    (s.channel.engine.closed = false → s.channel.engine.completion.killed = false →
      s.channel.card.injected = 0 → s.channel.card.mode = .immediate → 0 < count →
      start.toNat % s.channel.engine.alignment = 0 →
      min count s.channel.engine.maxTransfer % s.channel.engine.alignment = 0 →
      ∃ b, s.channel.card.buffer = some b ∧
        (b.offsetOf? start (min count s.channel.engine.maxTransfer) = none →
        ∃ c', Transfer.resume { start, count, direction } s.channel =
            (.finished (.ok (min count s.channel.engine.maxTransfer)), c') ∧
          Errand.Done ⟨start, count, direction, s.channel.card.memory, b.hostView⟩ s.channel.engine c'
            (.ok (min count s.channel.engine.maxTransfer)))) := by
  have hfitted := h.sound.fitted
  have hsound := Transfer.Sound.of_check (t := { start, count, direction }) hfitted rfl
  refine ⟨?_, ?_, ?_⟩
  · intro moves t c hbegun
    obtain ⟨ht, hstage, -⟩ := Transfer.drive_begun hsound hbegun
    exact ht.program_unmoved hstage
  · intro moves r c' hdrive
    split
    · rename_i hbegun
      exact Transfer.drive_unbegun (by simp [Stage.remaining]) hbegun hdrive
    · rename_i t c hbegun
      obtain ⟨ht, hstage, rest, hrest⟩ := Transfer.drive_begun hsound hbegun
      obtain ⟨-, -, -, -, -, -, -, hshown⟩ := ht.program_fault hstage
      rw [hrest] at hdrive
      exact Transfer.Faced.drive (t := { t with stage := .await }) ⟨.inl rfl, rfl, hshown⟩ hdrive
  · intro hopen hkilled hfault hmode hpos hstart hcut
    obtain ⟨b, hb, -⟩ := hfitted.buffer
    refine ⟨b, hb, fun houtside => ?_⟩
    have hclear : Transfer.Clear { start, count, direction } s.channel := by
      constructor
      case sound => exact hsound
      case sober => exact h.sober hopen hkilled hfault
      case mode => exact hmode
      case passes => exact fun _ => ⟨_, Engine.check_cut h.responsive.aligned hpos hstart hcut⟩
      case outside =>
        rw [hfitted.errorsOf_eq hb, houtside]
        rfl
      case clean => exact fun hlate => absurd hlate (by simp [Stage.remaining])
      case answered =>
        intro hawait
        cases hawait
    obtain ⟨n, c', hresume⟩ := hclear.resume
    obtain ⟨moves, hown, hdrive⟩ := Transfer.drive_resume { start, count, direction } s.channel
    have hends := hdrive []
    rw [hresume, List.append_nil] at hends
    have hspares : moves.all Move.sparesMemory = true := List.all_eq_true.2 fun m hm =>
      Move.sparesMemory_of_isOwn (List.all_eq_true.1 hown m hm)
    obtain ⟨-, -, hdone⟩ := drive_transfer hfitted hb hspares hends
    obtain rfl := hdone.1
    exact ⟨c', hresume, hdone⟩

/-- The small card with a busy controller and a transfer that was killed on it, and then one that ran into
a fault: an interrupt is still on its way, and the error bits stand. -/
def battered : Traffic :=
  run { channel := smallChannel }
    (List.flatten
      [[.move (.disturb (.bench .wedge Probe.wedge_sparesRegisters)), .move (.disturb .kill),
        .order (.transfer 0x80000000 2 .toDevice)], steps 7,
        [.move (.disturb (.bench (.fault Status.slaveError) rfl)),
        .order (.transfer 0x80000000 2 .toDevice)], steps 6, [.move (.disturb .deliver)], steps 3])

def faultMoves : List Move :=
  .disturb (.bench (.fault Status.internalError) rfl) :: callMoves

theorem own_fault_small :
    (∃ t c, Transfer.begun faultMoves { start := 0x80000000, count := 2, direction := .toDevice }
        battered.channel = some (t, c) ∧ t.fault c = Status.internalError ∧
      (t.step c).2.card.memory = c.card.memory ∧ (t.step c).2.card.buffer = c.card.buffer) ∧
    ∃ c', Transfer.resume { start := 0x80000000, count := 8, direction := .fromDevice }
      battered.channel = (.finished (.ok 4), c') := by
  have hreachable : battered.Reachable Event.sparesReset := (smallChannel_reachable _).run _ rfl
  constructor
  · have hends : (drive Transfer.step faultMoves { start := 0x80000000, count := 2, direction := .toDevice }
        battered.channel).1 =
        .finished (.error (.transferFault (Status.idle ||| Status.internalError))) := by
      decide +kernel
    obtain ⟨hunmoved, hreports, -⟩ := hreachable.own_fault 0x80000000 2 .toDevice
    have hreport := hreports faultMoves _ _ (Prod.ext hends rfl)
    cases hbegun : Transfer.begun faultMoves { start := 0x80000000, count := 2, direction := .toDevice }
        battered.channel with
    | none =>
      rw [hbegun] at hreport
      obtain ⟨_, hrefused, hother⟩ := hreport
      cases hrefused
      exact absurd rfl (hother _)
    | some begun =>
      obtain ⟨t, c⟩ := begun
      rw [hbegun] at hreport
      obtain ⟨hfaulted, hfault, -⟩ := hreport (by simp)
      exact ⟨t, c, rfl, (hfault _ rfl).symm, hunmoved _ _ _ hbegun (hfaulted.1 ⟨_, rfl⟩)⟩
  · obtain ⟨b, hb, hresumes⟩ := (hreachable.own_fault 0x80000000 8 .fromDevice).2.2 rfl rfl rfl rfl
      (by decide) (by decide) (by decide)
    cases hb
    obtain ⟨c', hresume, -⟩ := hresumes rfl
    exact ⟨c', hresume⟩

end Traffic

end FpgaCard
