import FpgaCard.Proofs.Faults

/-!
# Calls on a healthy card

A card is healthy while its engine is open, nothing is pending that would end a transfer, and the card
answers at once. What happened before may still show: interrupts on their way, error bits, a controller
that was left busy. Main statement: a call whose span can be moved is taken to its end without a wait, comes
to what is due to it, and leaves the card healthy.
-/

namespace FpgaCard

open Simulation

/-! ## Engines as they are made -/

/-- The limits of an engine as its making sets them. -/
structure Engine.Made (e : Engine) : Prop where
  size : isPowerOfTwo e.bufferSize = true
  aligned : e.bufferAddress.toNat % e.alignment = 0
  limit : e.maxTransfer = transferLimit e.alignment e.bufferSize

namespace Engine.Made

variable {e : Engine}

theorem like (h : e.Made) {e' : Engine} (hlike : e.Like e') : e'.Made := by
  obtain ⟨_, _, rfl⟩ := hlike
  exact ⟨h.size, h.aligned, h.limit⟩

theorem of_configure {address : UInt64} {size : Nat} {settings : DmaSettings} {timeout : Nat}
    (h : Engine.configure address size settings timeout = .ok e) : e.Made := by
  obtain ⟨hsize, haligned, rfl⟩ := Engine.configure_ok h
  exact ⟨hsize, haligned, rfl⟩

theorem dvd_maxTransfer (h : e.Made) (hroom : e.alignment ≤ e.bufferSize) :
    e.alignment ∣ e.maxTransfer := by
  rw [h.limit]
  exact Engine.alignment_dvd_transferLimit h.size hroom

theorem dvd_bufferSize (h : e.Made) (hroom : e.alignment ≤ e.bufferSize) :
    e.alignment ∣ e.bufferSize := by
  obtain ⟨k, hk⟩ := Engine.exists_of_isPowerOfTwo h.size
  have halignment : e.alignment = 2 ^ e.settings.shift.toNat := Engine.alignment_eq e.settings
  rw [hk, halignment] at hroom ⊢
  exact Nat.pow_dvd_pow 2 ((Nat.pow_le_pow_iff_right (by decide)).1 hroom)

end Engine.Made

theorem Traffic.Sound.after_like {s : Traffic} (h : s.Sound) (e : Event) :
    s.channel.engine.Like (s.after e).channel.engine := by
  cases e with
  | order o =>
    simp only [after]
    split <;> exact .refl _
  | stage offset data =>
    simp only [after]
    split <;> exact .refl _
  | reset =>
    simp only [after]
    split
    · rw [s.channel.reset_engine]
      exact .refl _
    · exact .refl _
  | move m =>
    cases m with
    | disturb d => exact (d.act_spared s.channel).engine
    | step =>
      cases hwork : s.work with
      | none =>
        simp only [after, hwork]
        exact .refl _
      | some w =>
        obtain ⟨t, ht, -, -⟩ | ⟨-, hstep, -⟩ := w.step_cases s.channel
        · have hin : s.transfer? = some t := by simp [transfer?, hwork, ht]
          rw [(after_step hin).1]
          exact (h.transfer t hin).step_like
        · simp only [after, hwork]
          obtain hsame | ⟨data, hstaged⟩ := hstep
          · rw [hsame]
            exact .refl _
          · rw [hstaged]
            exact .refl _

/-! ## Healthy cards -/

/-- Nothing on the card or in its engine stands in the way of a transfer. -/
structure Channel.Healthy (c : Channel Rig) : Prop extends Channel.Sober c where
  mode : c.card.mode = .immediate

namespace Channel.Healthy

variable {c : Channel Rig}

theorem deliver (h : c.Healthy) : c.deliver.Healthy :=
  (deliver_keeps (P := Channel.Healthy)
    (fun c h => ⟨h.toSober.act rfl, by rw [c.mode_deliver, h.mode]⟩) h).1

theorem staged (h : c.Healthy) (offset : Nat) (data : List UInt8) : (c.staged offset data).Healthy :=
  ⟨h.toSober.staged offset data, h.mode⟩

end Channel.Healthy

theorem Channel.deliver_like (c : Channel Rig) : c.engine.Like c.deliver.engine :=
  (deliver_keeps (P := fun c' => c.engine.Like c'.engine)
    (fun c' h => h.trans (Disturbance.deliver.act_spared c').engine) (.refl c.engine)).1

namespace Transfer

variable {t : Transfer} {c : Channel Rig}

theorem Clear.of_due (hc : c.Healthy) (hstage : t.stage = .check) {n : Nat}
    (hdue : t.due c.engine = .ok n) : t.Clear c := by
  unfold due at hdue
  obtain ⟨error, hcheck⟩ | ⟨-, -, hcheck⟩ := t.check_cases c.engine
  · rw [hcheck] at hdue
    cases hdue
  · rw [hcheck] at hdue
    simp only at hdue
    split at hdue
    · rename_i houtside
      exact ⟨.of_check hc.fitted hstage, hc.toSober, hc.mode, fun _ => ⟨_, hcheck⟩, houtside,
        by simp [hstage, Stage.remaining], by simp [hstage]⟩
    · cases hdue

theorem Clear.step_healthy (h : t.Clear c) : (t.step c).2.Healthy :=
  ⟨h.sound.step_sober h.sober, by rw [h.sound.step_manner.1, h.mode]⟩

end Transfer

/-! ## Calls in the clear -/

namespace MemoryCall

/-- A call on a healthy card whose transfer is due to succeed, or has. -/
structure Clear (m : MemoryCall) (c : Channel Rig) : Prop where
  healthy : c.Healthy
  planned : m.stage = .plan →
    ∃ span n, m.planned c.engine = .ok (some span) ∧ (m.asked span).due c.engine = .ok n
  filled : ∀ span, m.stage = .fill span → ∃ n, (m.asked span).due c.engine = .ok n
  moving : ∀ skip t, m.stage = .move skip t → t.Clear c

theorem asked_due_like (m : MemoryCall) (span : Span) {e e' : Engine} (h : e.Like e') :
    (m.asked span).due e' = (m.asked span).due e := by
  obtain ⟨_, _, rfl⟩ := h
  rfl

namespace Clear

variable {m : MemoryCall} {c : Channel Rig}

theorem deliver (h : m.Clear c) :
    m.Clear c.deliver ∧
      ∀ skip t, m.stage = .move skip t → t.stage = .await → 0 < c.deliver.engine.completion.done := by
  have hlike := c.deliver_like
  refine ⟨⟨h.healthy.deliver, ?_, ?_, ?_⟩, ?_⟩
  · intro hstage
    obtain ⟨span, n, hspan, hdue⟩ := h.planned hstage
    exact ⟨span, n, by rw [m.planned_like hlike, hspan], by rw [m.asked_due_like span hlike, hdue]⟩
  · intro span hstage
    obtain ⟨n, hdue⟩ := h.filled span hstage
    exact ⟨n, by rw [m.asked_due_like span hlike, hdue]⟩
  · exact fun skip t hstage => (h.moving skip t hstage).deliver.1
  · exact fun skip t hstage => (h.moving skip t hstage).deliver.2

theorem progress (h : m.Clear c)
    (hdone : ∀ skip t, m.stage = .move skip t → t.stage = .await → 0 < c.engine.completion.done) :
    (∃ r moved, (m.step c).1 = .finished r ∧ r.result = .ok moved ∧ (m.step c).2.Healthy) ∨
    ∃ m', (m.step c).1 = .going m' ∧ m'.remaining + 1 = m.remaining ∧ m'.Clear (m.step c).2 := by
  cases hstage : m.stage with
  | plan =>
    obtain ⟨span, n, hspan, hdue⟩ := h.planned hstage
    right
    rw [m.step_plan c hstage]
    obtain ⟨_, hother, -⟩ | ⟨hother, -⟩ | ⟨span', hspan', hplan⟩ := m.plan_cases c.engine
    · rw [hspan] at hother
      cases hother
    · rw [hspan] at hother
      cases hother
    · rw [hspan] at hspan'
      cases hspan'
      refine ⟨_, hplan, by simp [remaining, hstage], h.healthy, by simp, ?_, by simp⟩
      rintro _ ⟨⟩
      exact ⟨n, hdue⟩
  | fill span =>
    obtain ⟨n, hdue⟩ := h.filled span hstage
    obtain ⟨hnext, hchannel⟩ := m.step_fill c hstage
    -- Only a write changes anything here: it puts its bytes into the buffer.
    have hstaged : (m.step c).2.Healthy ∧ (m.step c).2.engine = c.engine := by
      rw [hchannel]
      split
      · exact ⟨h.healthy, rfl⟩
      · rename_i data _
        exact ⟨h.healthy.staged 0 data, rfl⟩
    rw [← hstaged.2] at hdue
    refine .inr ⟨_, hnext, by simp [remaining, hstage, transferOf, Stage.remaining], hstaged.1,
      by simp [transferOf], by simp [transferOf], ?_⟩
    rintro _ _ ⟨⟩
    exact .of_due (t := m.asked span) hstaged.1 rfl hdue
  | move skip t =>
    obtain ⟨hnext, hchannel⟩ := m.step_move c hstage
    have ht := h.moving skip t hstage
    have hhealthy := ht.step_healthy
    rw [hnext, hchannel]
    obtain hends | ⟨t', hgoes⟩ := ht.progress (hdone skip t hstage)
    · obtain ⟨hconclude, -, -⟩ := t.step_ok c hends
      rw [hends]
      exact .inr ⟨_, rfl, by simp [remaining, hstage, hconclude, Stage.remaining], hhealthy,
        by simp, by simp, by simp⟩
    · have hless := (Transfer.step_going hgoes).1
      rw [hgoes]
      refine .inr ⟨_, rfl, ?_, hhealthy, by simp, by simp, ?_⟩
      · simp only [remaining, hstage]
        omega
      · rintro _ _ ⟨⟩
        exact ht.next hgoes
  | collect skip moved =>
    obtain ⟨⟨r, hr⟩, hchannel⟩ := m.step_collect c hstage
    obtain ⟨moved, hok⟩ := ok_of_collect hstage hr
    rw [hchannel]
    exact .inl ⟨r, moved, hr, hok, h.healthy⟩

theorem resume (h : m.Clear c) :
    ∃ r moved c', m.resume c = (.finished r, c') ∧ r.result = .ok moved ∧ c'.Healthy := by
  rw [MemoryCall.resume]
  generalize hk : m.remaining = k
  induction k generalizing m c with
  | zero =>
    unfold remaining at hk
    split at hk <;> omega
  | succ k ih =>
    obtain ⟨hclear, hdone⟩ := h.deliver
    rw [advance_succ]
    obtain ⟨r, moved, hends, hok, hhealthy⟩ | ⟨m', hgoes, hless, hnext⟩ := hclear.progress hdone
    · rw [hends]
      exact ⟨r, moved, _, rfl, hok, hhealthy⟩
    · rw [hgoes]
      exact ih hnext (by omega)

end Clear

theorem resume_due {m : MemoryCall} {c : Channel Rig} (hc : c.Healthy) (hstage : m.stage = .plan)
    {span : Span} {n : Nat} (hspan : m.planned c.engine = .ok (some span))
    (hdue : (m.asked span).due c.engine = .ok n) :
    ∃ c', m.resume c = (.finished (m.due c.engine c.card.memory).1, c') ∧
      c'.card.memory = (m.due c.engine c.card.memory).2 ∧ c'.Healthy ∧ c.engine.Like c'.engine := by
  have hclear : m.Clear c :=
    ⟨hc, fun _ => ⟨span, n, hspan, hdue⟩, by simp [hstage], by simp [hstage]⟩
  obtain ⟨r, moved, c', hresume, hok, hhealthy⟩ := hclear.resume
  obtain ⟨moves, hown, hdrive⟩ := m.drive_resume c
  have hends := hdrive []
  rw [hresume, List.append_nil] at hends
  have hm : m = { endpoint := m.endpoint, request := m.request } := by
    obtain ⟨_, _, _⟩ := m
    cases hstage
    rfl
  rw [hm] at hends
  obtain ⟨-, hlike, hended⟩ := drive_call hc.fitted (Move.all_sparesMemory_of_isOwn hown) hends
  have hsame := hended.eq_due ⟨moved, hok⟩ hspan hdue
  rw [← hsame]
  exact ⟨c', hresume, rfl, hhealthy, hlike⟩

end MemoryCall

end FpgaCard
