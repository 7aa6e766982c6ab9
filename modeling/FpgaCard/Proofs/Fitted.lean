import FpgaCard.Proofs.Steps

/-!
# Engines that fit their card

What the making of an engine checks holds for as long as the engine is used: its buffer is the one
that the card sees, and a transfer never moves more than the buffer and the count register hold.
-/

namespace FpgaCard

open Simulation

/-! ## Engines -/

structure Engine.Sound (e : Engine) : Prop where
  pos : 0 < e.maxTransfer
  maxTransfer : e.maxTransfer ≤ e.bufferSize
  countMax : e.maxTransfer ≤ Register.countMax
  size : e.bufferSize ≤ 2 ^ 64

theorem Engine.Sound.like {e e' : Engine} (h : e.Sound) (hlike : e.Like e') : e'.Sound := by
  obtain ⟨_, _, rfl⟩ := hlike
  exact ⟨h.pos, h.maxTransfer, h.countMax, h.size⟩

theorem Engine.sound_of_configure {address : UInt64} {size : Nat} {settings : DmaSettings}
    {timeout : Nat} {e : Engine} (h : Engine.configure address size settings timeout = .ok e) :
    e.Sound ∧ e.bufferAddress = address ∧ e.bufferSize = size := by
  unfold configure at h
  simp only at h
  split at h
  · cases h
  split at h
  · cases h
  rename_i hmask
  split at h
  · cases h
  rename_i hreach
  split at h
  · cases h
  split at h
  · cases h
  split at h
  · cases h
  rename_i hlimit
  cases h
  have hle : settings.mask.toNat ≤ 64 := by
    have h64 := (not_or.1 hmask).2
    rw [UInt8.lt_iff_toNat_lt] at h64
    exact Nat.le_of_not_lt h64
  have htop : 1 <<< settings.mask.toNat ≤ 2 ^ 64 := by
    rw [Nat.one_shiftLeft]
    exact Nat.pow_le_pow_right (by decide) hle
  refine ⟨⟨Nat.pos_of_ne_zero hlimit, Nat.min_le_right _ _, ?_, ?_⟩, rfl, rfl⟩
  · have hround := Nat.sub_le Register.countMax (Register.countMax % settings.alignment)
    exact Nat.le_trans (Nat.min_le_left _ _) hround
  · simp only
    omega

/-! ## Channels -/

/-- The engine drives the card whose buffer it was made for. -/
structure Fitted (c : Channel Rig) : Prop where
  engine : c.engine.Sound
  buffer : ∃ b, c.card.buffer = some b ∧ b.address = c.engine.bufferAddress ∧
    b.size = c.engine.bufferSize
  injected : c.card.injected &&& Status.errors = c.card.injected
  routed : c.hardware.routed = true

namespace Fitted

theorem of_attached {c : Channel Rig} (h : Attached c) :
    Fitted c ∧ c.card.control = Control.bothInterrupts ∧ c.card.status = Status.idle ∧
      c.card.pending = false ∧ c.engine.completion = {} ∧ c.engine.closed = false ∧
      c.card.stuck = false := by
  obtain ⟨rig, rig', b, settings, timeout, engine, hb, hinjected, hstart, rfl⟩ := h
  unfold Channel.start at hstart
  split at hstart
  · cases hstart
  rename_i e he
  obtain ⟨hsound, haddress, hsize⟩ := Engine.sound_of_configure he
  obtain ⟨hstuck, w, r, hreset⟩ | ⟨-, w, r, hreset⟩ := (Channel.mk e rig).reset_cases
  · rw [hreset] at hstart
    cases hstart
    have hfresh : e.completion = {} ∧ e.closed = false := by
      unfold Engine.configure at he
      simp only at he
      repeat' split at he
      all_goals cases he
      exact ⟨rfl, rfl⟩
    exact ⟨⟨hsound, ⟨b, hb, haddress.symm, hsize.symm⟩, hinjected, rfl⟩, rfl, rfl, rfl, hfresh.1, hfresh.2,
      hstuck⟩
  · rw [hreset] at hstart
    cases hstart

theorem spared {c c' : Channel Rig} (h : Fitted c) (hspared : Spared c c')
    (hinjected : c'.card.injected = c.card.injected ∨ ∃ bits, c'.card.injected = bits &&& Status.errors) :
    Fitted c' := by
  obtain ⟨b, hb, haddress, hsize⟩ := h.buffer
  refine ⟨h.engine.like hspared.engine, ⟨b, ?_, ?_, ?_⟩, ?_, ?_⟩
  · rw [hspared.buffer, hb]
  · rw [hspared.engine.bufferAddress, haddress]
  · rw [hspared.engine.bufferSize, hsize]
  · obtain heq | ⟨bits, heq⟩ := hinjected
    · rw [heq, h.injected]
    · rw [heq, UInt32.and_assoc, UInt32.and_self]
  · rw [hspared.routed, h.routed]

theorem signal {c : Channel Rig} (h : Fitted c) (f : Completion → Completion) : Fitted (c.signal f) :=
  ⟨h.engine.like ⟨_, _, rfl⟩, h.buffer, h.injected, h.routed⟩

theorem withCard {c : Channel Rig} (h : Fitted c) {card : Card} (hbuffer : card.buffer = c.card.buffer)
    (hinjected : card.injected = c.card.injected) : Fitted (c.withCard card) := by
  refine ⟨h.engine, ?_, ?_, h.routed⟩
  · rw [Channel.withCard_card, hbuffer]
    exact h.buffer
  · rw [Channel.withCard_card, hinjected, h.injected]

theorem act {c : Channel Rig} (h : Fitted c) (d : Disturbance) : Fitted (d.act c) :=
  h.spared (d.act_spared c) (d.act_injected c)

theorem mapBuffer {c c' : Channel Rig} (h : Fitted c) (f : HostBuffer → HostBuffer)
    (hf : ∀ b, (f b).address = b.address ∧ (f b).size = b.size)
    (hengine : c'.engine = c.engine) (hbuffer : c'.card.buffer = c.card.buffer.map f)
    (hinjected : c'.card.injected = c.card.injected) (hrouted : c'.hardware.routed = c.hardware.routed) :
    Fitted c' := by
  obtain ⟨b, hb, haddress, hsize⟩ := h.buffer
  refine ⟨hengine ▸ h.engine, ⟨f b, ?_, ?_, ?_⟩, ?_, ?_⟩
  · rw [hbuffer, hb]
    rfl
  · rw [(hf b).1, hengine, haddress]
  · rw [(hf b).2, hengine, hsize]
  · rw [hinjected, h.injected]
  · rw [hrouted, h.routed]

theorem staged {c : Channel Rig} (h : Fitted c) (offset : Nat) (data : List UInt8) :
    Fitted (c.staged offset data) :=
  h.mapBuffer (·.poke offset data) (fun _ => ⟨rfl, rfl⟩) rfl rfl rfl rfl

theorem reset {c : Channel Rig} (h : Fitted c) : Fitted c.reset.2 := by
  obtain ⟨-, w, r, hreset⟩ | ⟨-, w, r, hreset⟩ := c.reset_cases
  all_goals
    rw [hreset]
    exact h.withCard rfl rfl

end Fitted

/-! ## Transfers -/

/-- A transfer that was checked and looks at the controller before it starts it. -/
structure Transfer.Sound (t : Transfer) (c : Channel Rig) : Prop where
  fitted : Fitted c
  count : t.stage ≠ .check → 0 < t.count ∧ t.count ≤ c.engine.maxTransfer
  healthy : t.stage = .arm ∨ t.stage = .enter ∨ t.stage = .program →
    c.card.status &&& Status.errors = 0

namespace Transfer.Sound

variable {t : Transfer} {c : Channel Rig}

theorem of_check (h : Fitted c) (ht : t.stage = .check) : t.Sound c :=
  ⟨h, fun h => absurd ht h, by simp [ht]⟩

theorem act (h : t.Sound c) (d : Disturbance) : t.Sound (d.act c) := by
  have hspared := d.act_spared c
  refine ⟨h.fitted.act d, ?_, ?_⟩
  · rw [hspared.engine.maxTransfer]
    exact h.count
  · rw [hspared.errors]
    exact h.healthy

theorem program_cases (h : t.Sound c) (ht : t.stage = .program) :
    ∃ b errors memory buffer card, c.card.buffer = some b ∧ b.address = c.engine.bufferAddress ∧
      t.count ≤ b.size ∧
      Carried c.card.injected c.card.memory b t.start t.count t.direction errors memory buffer ∧
      (∃ w, card = ((c.card.withAddresses (t.source c.engine) (t.destination c.engine)).withLog w
        c.card.reads).moved memory buffer) ∧
      ((anySet c.card.control (Card.enableBit errors) = true ∧ c.card.mode = .manual ∧
        t.program c = c.withCard
          (card.holding (Card.latch c.card.status errors &&& ~~~Status.idle))) ∨
      ((anySet c.card.control (Card.enableBit errors) = true → c.card.mode = .immediate) ∧
        t.program c = (c.withCard (card.withStatus (Card.latch c.card.status errors))).answered
          (anySet c.card.control (Card.enableBit errors)))) := by
  obtain ⟨b, hb, haddress, hsize⟩ := h.fitted.buffer
  obtain ⟨hpos, hmax⟩ := h.count (by simp [ht])
  have hengine := h.fitted.engine
  have hfits : t.count ≤ b.size := by
    have := hengine.maxTransfer
    omega
  obtain ⟨errors, memory, buffer, card, hcases⟩ := t.program_cases c b hb haddress hpos hfits
    (Nat.le_trans hmax hengine.countMax)
  exact ⟨b, errors, memory, buffer, card, hb, haddress, hfits, hcases⟩

theorem step (h : t.Sound c) :
    Fitted (t.step c).2 ∧ ∀ t', (t.step c).1.rest? = some t' → t'.Sound (t.step c).2 := by
  cases ht : t.stage with
  | check =>
    rw [t.step_check c ht]
    refine ⟨h.fitted, ?_⟩
    obtain ⟨error, hcheck⟩ | ⟨hzero, -, hcheck⟩ := t.check_cases c.engine
    · rw [hcheck]
      exact Progress.of_rest?_finished
    · rw [hcheck]
      rintro t' ⟨⟩
      refine ⟨h.fitted, fun _ => ⟨?_, Nat.min_le_right _ _⟩, by simp⟩
      have := h.fitted.engine.pos
      simp only
      omega
  | give =>
    rw [t.step_give c ht]
    have hfitted : Fitted (c.withCard { c.card with buffer := c.card.buffer.map (·.give t.direction) }) :=
      h.fitted.mapBuffer (·.give t.direction) (fun b => by cases t.direction <;> exact ⟨rfl, rfl⟩)
        rfl rfl rfl rfl
    refine ⟨hfitted, ?_⟩
    rintro t' ⟨⟩
    exact ⟨hfitted, fun _ => h.count (by simp [ht]), by simp⟩
  | inspect =>
    obtain ⟨hready, w, r, hstep⟩ | ⟨-, -, w, r, hstep⟩ | ⟨-, -, w, r, hstep⟩ := t.step_inspect c ht
    · rw [hstep]
      have hfitted : Fitted (c.withCard (c.card.withLog w r)) := h.fitted.withCard rfl rfl
      refine ⟨hfitted, ?_⟩
      rintro t' ⟨⟩
      exact ⟨hfitted, fun _ => h.count (by simp [ht]), fun _ => ((isReady_iff _).1 hready).1⟩
    · rw [hstep]
      have hfitted : Fitted (c.withCard ((c.card.resetTo Control.bothInterrupts).withLog w r)) :=
        h.fitted.withCard rfl rfl
      refine ⟨hfitted, ?_⟩
      rintro t' ⟨⟩
      exact ⟨hfitted, fun _ => h.count (by simp [ht]), fun _ => by simp; decide⟩
    · rw [hstep]
      exact ⟨h.fitted.withCard rfl rfl, Progress.of_rest?_finished⟩
  | arm =>
    rw [t.step_arm c ht]
    refine ⟨h.fitted.signal _, ?_⟩
    rintro t' ⟨⟩
    exact ⟨h.fitted.signal _, fun _ => h.count (by simp [ht]), fun _ => h.healthy (by simp [ht])⟩
  | enter =>
    rw [t.step_enter c ht]
    refine ⟨h.fitted, ?_⟩
    intro t' h'
    cases hclosed : c.engine.closed with
    | true => simp [hclosed, Progress.rest?] at h'
    | false =>
      simp only [hclosed, Bool.false_eq_true, if_false, goto, Progress.rest?, Option.some.injEq] at h'
      subst h'
      exact ⟨h.fitted, fun _ => h.count (by simp [ht]), fun _ => h.healthy (by simp [ht])⟩
  | program =>
    rw [t.step_program c ht]
    obtain ⟨b, errors, memory, buffer, card, hb, haddress, -, hcarried, ⟨w, rfl⟩, hprogram⟩ :=
      h.program_cases ht
    have hsize := hcarried.buffer_eq
    have hfitted : Fitted (t.program c) := by
      obtain ⟨b', hb', haddress', hsize'⟩ := h.fitted.buffer
      obtain rfl : b = b' := by rw [hb] at hb'; cases hb'; rfl
      obtain ⟨-, -, hprogram⟩ | ⟨-, hprogram⟩ := hprogram
      all_goals
        rw [hprogram]
        exact ⟨h.fitted.engine, ⟨buffer, rfl, by simp [hsize, haddress], by simp [hsize, hsize']⟩,
          by simp, h.fitted.routed⟩
    refine ⟨hfitted, ?_⟩
    rintro t' ⟨⟩
    refine ⟨hfitted, fun _ => ?_, by simp⟩
    have hengine : (t.program c).engine = c.engine := by
      obtain ⟨-, -, hprogram⟩ | ⟨-, hprogram⟩ := hprogram
      all_goals
        rw [hprogram]
        rfl
    rw [hengine]
    exact h.count (by simp [ht])
  | await =>
    obtain ⟨-, completion, hstep⟩ | ⟨-, -, hstep⟩ | ⟨-, -, hstep⟩ := t.step_await c ht
    · rw [hstep]
      exact ⟨h.fitted.signal fun _ => completion, Progress.of_rest?_finished⟩
    · have hfitted := h.fitted.signal fun completion => { completion with done := completion.done - 1 }
      rw [hstep]
      refine ⟨hfitted, ?_⟩
      rintro t' ⟨⟩
      exact ⟨hfitted, fun _ => h.count (by simp [ht]), by simp⟩
    · rw [hstep]
      refine ⟨h.fitted, ?_⟩
      rintro t' ⟨⟩
      exact h
  | take =>
    rw [t.step_take c ht]
    have hfitted : Fitted (c.withCard { c.card with buffer := c.card.buffer.map (·.take t.direction) }) :=
      h.fitted.mapBuffer (·.take t.direction) (fun b => by cases t.direction <;> exact ⟨rfl, rfl⟩)
        rfl rfl rfl rfl
    refine ⟨hfitted, ?_⟩
    rintro t' ⟨⟩
    exact ⟨hfitted, fun _ => h.count (by simp [ht]), by simp⟩
  | conclude =>
    obtain ⟨r, hstep⟩ := t.step_conclude c ht
    rw [hstep]
    exact ⟨h.fitted.withCard rfl rfl, Progress.of_rest?_finished⟩

end Transfer.Sound

/-! ## Reachable states -/

namespace Traffic

structure Sound (s : Traffic) : Prop where
  fitted : Fitted s.channel
  transfer : ∀ t, s.transfer? = some t → t.Sound s.channel

theorem Reachable.sound {allowed : Event → Bool} {s : Traffic} (h : s.Reachable allowed) : s.Sound := by
  have hinv : Invariant allowed (fun c _ => Fitted c) (fun t c _ => t.Sound c) := {
    attached c hc := (Fitted.of_attached hc).1
    staged _ _ offset data hfitted := hfitted.staged offset data
    reset _ _ hfitted := hfitted.reset
    fresh _ _ _ hfitted ht := .of_check hfitted ht
    act _ d _ _ hfitted := hfitted.act d
    hand _ d _ _ _ _ hsound := hsound.act d
    step _ _ _ _ _ hsound := hsound.step }
  obtain ⟨hfitted, htransfer⟩ := h.invariant hinv
  exact ⟨hfitted, htransfer⟩

end Traffic

end FpgaCard
