import FpgaCard.Proofs.Steps

/-!
# The end of an engine

Transfers of one engine, with everything that may come between their steps. Transfers take turns, so that
at most one is in hand. A close sets its flag, then the kill, and then wakes whoever sleeps; a kill does
the latter two. Main statement: once a close has returned, no transfer that begins starts the controller,
and none that has yet to end its wait succeeds, fails for a fault or hangs.
-/

namespace FpgaCard

open Simulation

/-- The errors of a transfer that ends with its wait, or before. -/
def CardError.isRefusal : CardError → Bool
  | .invalidArgument .. | .misaligned .. | .resetTimeout .. | .transferKilled => true
  | _ => false

def Register.describing : List Nat :=
  [Register.sourceHigh, Register.source, Register.destination, Register.destinationHigh, Register.count]

structure Hand where
  number : Nat
  transfer : Transfer

inductive Killer where
  | kill
  | close

/-- An engine in use, and in the end out of use. -/
structure Teardown where
  channel : Channel Rig
  hand : Option Hand := none
  asleep : Bool := false
  next : Nat := 0
  /-- How transfers ended, the last one first. -/
  ended : List (Nat × Except CardError Nat) := []
  /-- Kills that have set their signal and have yet to wake the sleeper. -/
  killing : Nat := 0
  /-- Closes that have set the flag alone. -/
  shutting : Nat := 0
  /-- Closes that have set the signal, too, and have yet to wake the sleeper. -/
  closing : Nat := 0
  returned : Bool := false

namespace Teardown

inductive Event where
  /-- A transfer begins if the engine is free. -/
  | begin (start : UInt64) (count : Nat) (direction : Direction)
  /-- The transfer in hand takes a step, unless it sleeps. -/
  | step
  /-- The sleeper wakes without a cause. -/
  | stir
  | shut
  /-- A kill, or a close that has set its flag, sets the signal. -/
  | mark (killer : Killer)
  /-- A kill or a close that has set the signal wakes the sleeper and returns. -/
  | rouse (killer : Killer)
  /-- The interrupt is handled, whoever asked for it. -/
  | interrupt
  | outside (d : Disturbance)

def Event.isStep : Event → Bool
  | .step => true
  | _ => false

theorem Event.eq_step {e : Event} (h : e.isStep = true) : e = .step := by
  cases e <;> first | rfl | cases h

end Teardown

namespace Disturbance

def wakes (c : Channel Rig) : Disturbance → Bool
  | .kill => true
  | .close => true
  | .deliver => 0 < c.hardware.raised
  | _ => false

def isClose : Disturbance → Bool
  | .close => true
  | _ => false

end Disturbance

namespace Teardown

def stepped (s : Teardown) (h : Hand) : Teardown :=
  match h.transfer.step s.channel with
  | (.going t, channel) => { s with channel, hand := some { h with transfer := t } }
  | (.waiting t, channel) => { s with channel, hand := some { h with transfer := t }, asleep := true }
  | (.finished r, channel) => { s with channel, hand := none, ended := (h.number, r) :: s.ended }

def after (s : Teardown) : Event → Teardown
  | .begin start count direction =>
    match s.hand with
    | none => { s with hand := some ⟨s.next, { start, count, direction }⟩, next := s.next + 1 }
    | some _ => s
  | .step =>
    match s.hand, s.asleep with
    | some h, false => s.stepped h
    | _, _ => s
  | .stir => { s with asleep := false }
  | .shut =>
    { s with channel := { s.channel with engine := { s.channel.engine with closed := true } },
             shutting := s.shutting + 1 }
  | .mark .kill => { s with channel := s.channel.kill, killing := s.killing + 1 }
  | .mark .close =>
    if 0 < s.shutting then
      { s with channel := s.channel.kill, shutting := s.shutting - 1, closing := s.closing + 1 }
    else s
  | .rouse .kill => if 0 < s.killing then { s with asleep := false, killing := s.killing - 1 } else s
  | .rouse .close =>
    if 0 < s.closing then { s with asleep := false, closing := s.closing - 1, returned := true } else s
  | .interrupt => { s with channel := s.channel.interrupt, asleep := false }
  | .outside d =>
    { s with channel := d.act s.channel, asleep := s.asleep && !d.wakes s.channel,
             returned := s.returned || d.isClose }

def run (s : Teardown) (events : List Event) : Teardown := events.foldl after s

theorem after_close (s : Teardown) :
    s.after (.outside .close) = ((s.after .shut).after (.mark .close)).after (.rouse .close) := by
  simp [after, Disturbance.act, Disturbance.wakes, Disturbance.isClose, Channel.close]

end Teardown

/-! ## What stays -/

structure Channel.Retains (c c' : Channel Rig) : Prop where
  closed : c.engine.closed = true → c'.engine.closed = true
  killed : c.engine.completion.killed = true → c'.engine.completion.killed = true

theorem Disturbance.act_retains (d : Disturbance) (c : Channel Rig) : c.Retains (d.act c) := by
  cases d with
  | kill => exact ⟨id, fun _ => rfl⟩
  | close => exact ⟨fun _ => rfl, fun _ => rfl⟩
  | deliver =>
    obtain ⟨-, h⟩ | ⟨n, -, h⟩ := c.deliverOne_cases <;>
      · simp only [act, h]
        exact ⟨id, id⟩
  | raise => exact ⟨id, id⟩
  | bench => exact ⟨id, id⟩

namespace Transfer

variable {t : Transfer} {c : Channel Rig}

def Entered (t : Transfer) : Prop := t.stage.remaining < Stage.enter.remaining

def Waited (t : Transfer) : Prop := t.stage.remaining < Stage.await.remaining

theorem Waited.entered (h : t.Waited) : t.Entered := Nat.lt_trans h (by decide)

theorem not_entered_of_check (h : t.stage = .check) : ¬ t.Entered := by
  unfold Entered
  rw [h]
  decide

theorem entered_of_await (h : t.stage = .await) : t.Entered := by
  unfold Entered
  rw [h]
  decide

theorem not_waited_of_await (h : t.stage = .await) : ¬ t.Waited := by
  unfold Waited
  rw [h]
  decide

theorem step_closed (h : c.engine.closed = true) : (t.step c).2.engine.closed = true := by
  obtain ⟨completion, hengine, -⟩ := t.step_engine c
  rw [hengine]
  exact h

theorem entered_of_step {t' : Transfer} (h : (t.step c).1 = .going t') (hentered : t'.Entered) :
    t.Entered ∨ c.engine.closed = false := by
  obtain ⟨hstage, hclosed, -⟩ := step_going h
  exact (Stage.behind hstage hentered).imp_right hclosed

theorem waited_of_step {t' : Transfer} (h : (t.step c).1 = .going t') (hwaited : t'.Waited) :
    t.Waited ∨ c.engine.completion.killed = false := by
  obtain ⟨hstage, -, hkilled⟩ := step_going h
  exact (Stage.behind hstage hwaited).imp_right hkilled

theorem check_refusal {e : Engine} {r : Except CardError Nat} (h : t.check e = .finished r) :
    ∃ error, r = .error error ∧ error.isRefusal = true := by
  unfold check at h
  simp only at h
  split at h
  · cases h
    exact ⟨_, rfl, rfl⟩
  · split at h
    · cases h
      exact ⟨_, rfl, rfl⟩
    · cases h

theorem refusal_of_step {r : Except CardError Nat} (h : (t.step c).1 = .finished r)
    (hwaited : ¬ t.Waited) : ∃ error, r = .error error ∧ error.isRefusal = true := by
  cases hstage : t.stage with
  | check =>
    rw [t.step_check c hstage] at h
    exact check_refusal h
  | inspect =>
    obtain ⟨-, _, _, hstep⟩ | ⟨-, -, _, _, hstep⟩ | ⟨-, -, _, _, hstep⟩ := t.step_inspect c hstage
    · rw [hstep] at h
      cases h
    · rw [hstep] at h
      cases h
    · rw [hstep] at h
      cases h
      exact ⟨_, rfl, rfl⟩
  | enter =>
    rw [t.step_enter c hstage] at h
    cases hclosed : c.engine.closed with
    | true =>
      rw [hclosed] at h
      cases h
      exact ⟨_, rfl, rfl⟩
    | false =>
      rw [hclosed] at h
      cases h
  | await =>
    obtain ⟨-, _, hstep⟩ | ⟨-, -, hstep⟩ | ⟨-, -, hstep⟩ := t.step_await c hstage
    · rw [hstep] at h
      cases h
      exact ⟨_, rfl, rfl⟩
    · rw [hstep] at h
      cases h
    · rw [hstep] at h
      cases h
  | conclude =>
    refine absurd ?_ hwaited
    unfold Waited
    rw [hstage]
    decide
  | _ =>
    simp only [step, hstage, goto] at h
    cases h

end Transfer

/-! ## Invariants -/

namespace Teardown

/-- A close that is under way has closed the engine when it sets the signal, and leaves a kill for the
transfer that got in before. -/
structure Sealed (s : Teardown) : Prop where
  closed : 0 < s.shutting ∨ 0 < s.closing ∨ s.returned = true → s.channel.engine.closed = true
  killed : 0 < s.closing ∨ s.returned = true → ∀ h, s.hand = some h → h.transfer.Entered →
    h.transfer.Waited ∨ s.channel.engine.completion.killed = true
  awake : s.returned = true → s.asleep = false

structure Numbered (s : Teardown) : Prop where
  hand : ∀ h, s.hand = some h → h.number < s.next
  ended : ∀ n r, (n, r) ∈ s.ended → n < s.next ∧ ∀ h, s.hand = some h → h.number ≠ n

theorem after_quiet (s : Teardown) {e : Event} (he : e.isStep = false) :
    (s.after e).ended = s.ended ∧
    ((s.after e).hand = s.hand ∧ (s.after e).next = s.next ∨
      s.hand = none ∧ (s.after e).next = s.next + 1 ∧
        ∃ t, t.stage = .check ∧ (s.after e).hand = some ⟨s.next, t⟩) := by
  cases e with
  | begin start count direction =>
    simp only [after]
    split
    · rename_i hnone
      exact ⟨rfl, .inr ⟨hnone, rfl, _, rfl, rfl⟩⟩
    · exact ⟨rfl, .inl ⟨rfl, rfl⟩⟩
  | step => cases he
  | mark killer =>
    cases killer with
    | kill => exact ⟨rfl, .inl ⟨rfl, rfl⟩⟩
    | close =>
      simp only [after]
      split <;> exact ⟨rfl, .inl ⟨rfl, rfl⟩⟩
  | rouse killer =>
    cases killer with
    | kill =>
      simp only [after]
      split <;> exact ⟨rfl, .inl ⟨rfl, rfl⟩⟩
    | close =>
      simp only [after]
      split <;> exact ⟨rfl, .inl ⟨rfl, rfl⟩⟩
  | _ => exact ⟨rfl, .inl ⟨rfl, rfl⟩⟩

theorem stepped_cases (s : Teardown) (h : Hand) :
    (∃ t, (h.transfer.step s.channel).1 = .going t ∧ s.stepped h =
      { s with channel := (h.transfer.step s.channel).2, hand := some { h with transfer := t } }) ∨
    (∃ t, (h.transfer.step s.channel).1 = .waiting t ∧ s.stepped h =
      { s with channel := (h.transfer.step s.channel).2, hand := some { h with transfer := t },
               asleep := true }) ∨
    (∃ r, (h.transfer.step s.channel).1 = .finished r ∧ s.stepped h =
      { s with channel := (h.transfer.step s.channel).2, hand := none,
               ended := (h.number, r) :: s.ended }) := by
  unfold stepped
  rcases h.transfer.step s.channel with ⟨t | t | r, channel⟩
  · exact .inl ⟨t, rfl, rfl⟩
  · exact .inr (.inl ⟨t, rfl, rfl⟩)
  · exact .inr (.inr ⟨r, rfl, rfl⟩)

theorem after_step_cases (s : Teardown) :
    s.after .step = s ∨ ∃ h, s.hand = some h ∧ s.asleep = false ∧ s.after .step = s.stepped h := by
  simp only [after]
  split
  · rename_i h hhand hawake
    exact .inr ⟨h, hhand, hawake, rfl⟩
  · exact .inl rfl

theorem returned_after (s : Teardown) {e : Event} (h : s.returned = true) :
    (s.after e).returned = true := by
  cases e with
  | step =>
    obtain hsame | ⟨hand, -, -, hstep⟩ := s.after_step_cases
    · rw [hsame, h]
    · rw [hstep]
      obtain ⟨_, -, hs'⟩ | ⟨_, -, hs'⟩ | ⟨_, -, hs'⟩ := s.stepped_cases hand <;> rw [hs'] <;> exact h
  | outside d => simp [after, h]
  | mark killer =>
    cases killer <;> simp only [after]
    · exact h
    · split <;> exact h
  | rouse killer =>
    cases killer <;> simp only [after]
    · split <;> exact h
    · split <;> first | rfl | exact h
  | begin =>
    simp only [after]
    split <;> exact h
  | _ => exact h

theorem mem_ended_after (s : Teardown) (e : Event) {x : Nat × Except CardError Nat} (h : x ∈ s.ended) :
    x ∈ (s.after e).ended := by
  cases hstep : e.isStep with
  | false =>
    rw [(s.after_quiet hstep).1]
    exact h
  | true =>
    obtain rfl := Event.eq_step hstep
    obtain hsame | ⟨hand, -, -, hstep⟩ := s.after_step_cases
    · rw [hsame]
      exact h
    · rw [hstep]
      obtain ⟨_, -, hs'⟩ | ⟨_, -, hs'⟩ | ⟨_, -, hs'⟩ := s.stepped_cases hand
      · rw [hs']
        exact h
      · rw [hs']
        exact h
      · rw [hs']
        exact List.mem_cons_of_mem _ h

theorem mem_ended_run (s : Teardown) (events : List Event) {x : Nat × Except CardError Nat}
    (h : x ∈ s.ended) : x ∈ (s.run events).ended := by
  induction events generalizing s with
  | nil => exact h
  | cons e events ih => exact ih (s.after e) (s.mem_ended_after e h)

namespace Sealed

variable {s : Teardown}

theorem stepped (hs : s.Sealed) {h : Hand} (hhand : s.hand = some h) : (s.stepped h).Sealed := by
  have hclosed (hpast : 0 < s.shutting ∨ 0 < s.closing ∨ s.returned = true) :
      (h.transfer.step s.channel).2.engine.closed = true :=
    Transfer.step_closed (hs.closed hpast)
  obtain ⟨t, hstep, hs'⟩ | ⟨t, hstep, hs'⟩ | ⟨r, hstep, hs'⟩ := s.stepped_cases h
  · rw [hs']
    refine ⟨hclosed, ?_, hs.awake⟩
    rintro hpast _ ⟨⟩ hentered
    -- A closed engine lets nobody in, and who is in has its kill pending.
    have hin : h.transfer.Entered := by
      obtain hin | hopen := Transfer.entered_of_step hstep hentered
      · exact hin
      · rw [hs.closed (.inr hpast)] at hopen
        cases hopen
    obtain hwaited | hkilled := hs.killed hpast h hhand hin
    · left
      have hnext := (Transfer.step_going hstep).1
      unfold Transfer.Waited at *
      simp only
      omega
    · by_cases hawait : h.transfer.stage = .await
      · rw [(Transfer.step_going hstep).2.2 hawait] at hkilled
        cases hkilled
      · right
        obtain ⟨completion, hengine, hkeeps⟩ := h.transfer.step_engine s.channel
        simp only [hengine]
        rw [hkeeps hawait, hkilled]
  · obtain ⟨rfl, hawait, hnone⟩ := Transfer.step_waiting hstep
    have hlate (hpast : 0 < s.closing ∨ s.returned = true) : False := by
      obtain hwaited | hkilled := hs.killed hpast h hhand (Transfer.entered_of_await hawait)
      · exact Transfer.not_waited_of_await hawait hwaited
      · rw [hnone] at hkilled
        cases hkilled
    rw [hs']
    exact ⟨hclosed, fun hpast => (hlate hpast).elim, fun hpast => (hlate (.inr hpast)).elim⟩
  · rw [hs']
    exact ⟨hclosed, fun _ _ hnone => (by cases hnone), hs.awake⟩

theorem after (hs : s.Sealed) (e : Event) : (s.after e).Sealed := by
  obtain ⟨hclosed, hkilled, hawake⟩ := hs
  cases e with
  | begin start count direction =>
    simp only [Teardown.after]
    split
    · refine ⟨hclosed, ?_, hawake⟩
      rintro _ _ ⟨⟩ hentered
      exact absurd hentered (Transfer.not_entered_of_check rfl)
    · exact ⟨hclosed, hkilled, hawake⟩
  | step =>
    obtain hsame | ⟨h, hhand, -, hstep⟩ := s.after_step_cases
    · rw [hsame]
      exact ⟨hclosed, hkilled, hawake⟩
    · rw [hstep]
      exact stepped ⟨hclosed, hkilled, hawake⟩ hhand
  | stir => exact ⟨hclosed, hkilled, fun _ => rfl⟩
  | shut => exact ⟨fun _ => rfl, hkilled, hawake⟩
  | mark killer =>
    cases killer with
    | kill => exact ⟨hclosed, fun _ _ _ _ => .inr rfl, hawake⟩
    | close =>
      simp only [Teardown.after]
      split
      · rename_i hpos
        exact ⟨fun _ => hclosed (.inl hpos), fun _ _ _ _ => .inr rfl, hawake⟩
      · exact ⟨hclosed, hkilled, hawake⟩
  | rouse killer =>
    cases killer with
    | kill =>
      simp only [Teardown.after]
      split
      · exact ⟨hclosed, hkilled, fun _ => rfl⟩
      · exact ⟨hclosed, hkilled, hawake⟩
    | close =>
      simp only [Teardown.after]
      split
      · rename_i hpos
        exact ⟨fun _ => hclosed (.inr (.inl hpos)), fun _ => hkilled (.inl hpos), fun _ => rfl⟩
      · exact ⟨hclosed, hkilled, hawake⟩
  | interrupt => exact ⟨hclosed, hkilled, fun _ => rfl⟩
  | outside d =>
    have hretains := d.act_retains s.channel
    cases hclose : d.isClose with
    | true =>
      obtain rfl : d = .close := by cases d <;> first | rfl | cases hclose
      exact ⟨fun _ => rfl, fun _ _ _ _ => .inr rfl, fun _ => by simp [Teardown.after, Disturbance.wakes]⟩
    | false =>
      simp only [Teardown.after, hclose, Bool.or_false]
      refine ⟨fun hpast => hretains.closed (hclosed hpast), ?_, ?_⟩
      · intro hpast h hhand hentered
        exact (hkilled hpast h hhand hentered).imp_right hretains.killed
      · intro hpast
        simp [hawake hpast]

theorem run (hs : s.Sealed) (events : List Event) : (s.run events).Sealed := by
  induction events generalizing s with
  | nil => exact hs
  | cons e events ih => exact ih (hs.after e)

end Sealed

namespace Numbered

variable {s : Teardown}

theorem after (hs : s.Numbered) (e : Event) : (s.after e).Numbered := by
  cases hstep : e.isStep with
  | false =>
    obtain ⟨hended, ⟨hhand, hnext⟩ | ⟨-, hnext, t, -, hhand⟩⟩ := s.after_quiet hstep
    · refine ⟨?_, ?_⟩
      · rw [hhand, hnext]
        exact hs.hand
      · rw [hended, hhand, hnext]
        exact hs.ended
    · refine ⟨?_, ?_⟩
      · rw [hhand, hnext]
        rintro _ ⟨⟩
        exact Nat.lt_succ_self _
      · rw [hended, hhand, hnext]
        intro n r hmem
        have hless := (hs.ended n r hmem).1
        refine ⟨Nat.lt_succ_of_lt hless, ?_⟩
        rintro _ ⟨⟩
        exact Nat.ne_of_gt hless
  | true =>
    obtain rfl := Event.eq_step hstep
    obtain hsame | ⟨h, hhand, -, hstep⟩ := s.after_step_cases
    · rw [hsame]
      exact hs
    · have hless := hs.hand h hhand
      -- A transfer that goes on keeps its number.
      have hgoes {s' : Teardown} {t : Transfer} (hhand' : s'.hand = some { h with transfer := t })
          (hended : s'.ended = s.ended) (hnext : s'.next = s.next) : s'.Numbered := by
        refine ⟨?_, ?_⟩
        · rw [hhand', hnext]
          rintro _ ⟨⟩
          exact hless
        · rw [hhand', hended, hnext]
          intro n r hmem
          obtain ⟨hbefore, hother⟩ := hs.ended n r hmem
          refine ⟨hbefore, ?_⟩
          rintro _ ⟨⟩
          exact hother h hhand
      rw [hstep]
      obtain ⟨t, -, hs'⟩ | ⟨t, -, hs'⟩ | ⟨r, -, hs'⟩ := s.stepped_cases h
      · rw [hs']
        exact hgoes rfl rfl rfl
      · rw [hs']
        exact hgoes rfl rfl rfl
      · rw [hs']
        refine ⟨fun _ hnone => (by cases hnone), ?_⟩
        intro n r' hmem
        refine ⟨?_, fun _ hnone => (by cases hnone)⟩
        rcases List.mem_cons.1 hmem with heq | hmem
        · cases heq
          exact hless
        · exact (hs.ended n r' hmem).1

theorem run (hs : s.Numbered) (events : List Event) : (s.run events).Numbered := by
  induction events generalizing s with
  | nil => exact hs
  | cons e events ih => exact ih (hs.after e)

end Numbered

/-! ## After a close has returned -/

/-- Transfers that have yet to begin, or to end their wait. -/
def Pending (s : Teardown) (n : Nat) : Prop :=
  s.next ≤ n ∨ ∃ h, s.hand = some h ∧ h.number = n ∧ ¬ h.transfer.Waited

structure Outlived (s s' : Teardown) : Prop where
  sealed : s'.Sealed
  returned : s'.returned = true
  waiting : ∀ h, s'.hand = some h → s.Pending h.number → ¬ h.transfer.Waited
  outside : ∀ h, s'.hand = some h → s.next ≤ h.number → ¬ h.transfer.Entered
  refused : ∀ n r, (n, r) ∈ s'.ended → s.Pending n → ∃ error, r = .error error ∧ error.isRefusal = true

namespace Outlived

variable {s s' : Teardown}

theorem refl (hs : s.Sealed) (hnumbered : s.Numbered) (h : s.returned = true) : s.Outlived s := by
  refine ⟨hs, h, ?_, ?_, ?_⟩
  · intro h hhand hpending
    obtain hnew | ⟨h', hhand', -, hwaited⟩ := hpending
    · exact absurd (hnumbered.hand h hhand) (Nat.not_lt.2 hnew)
    · rw [hhand] at hhand'
      cases hhand'
      exact hwaited
  · intro h hhand hnew
    exact absurd (hnumbered.hand h hhand) (Nat.not_lt.2 hnew)
  · intro n r hmem hpending
    obtain ⟨hold, hother⟩ := hnumbered.ended n r hmem
    obtain hnew | ⟨h, hhand, hnumber, -⟩ := hpending
    · exact absurd hold (Nat.not_lt.2 hnew)
    · exact absurd hnumber (hother h hhand)

theorem closed (hs : s.Outlived s') : s'.channel.engine.closed = true :=
  hs.sealed.closed (.inr (.inr hs.returned))

theorem killed (hs : s.Outlived s') {h : Hand} (hhand : s'.hand = some h) (hpending : s.Pending h.number)
    (hin : h.transfer.Entered) : s'.channel.engine.completion.killed = true :=
  (hs.sealed.killed (.inr hs.returned) h hhand hin).resolve_left (hs.waiting h hhand hpending)

theorem step_cases (hs : s.Outlived s') {h : Hand} (hhand : s'.hand = some h)
    (hpending : s.Pending h.number) :
    (∃ error, (h.transfer.step s'.channel).1 = .finished (.error error) ∧ error.isRefusal = true) ∨
    ∃ t, (h.transfer.step s'.channel).1 = .going t ∧ ¬ t.Waited ∧
      (t.Entered → h.transfer.Entered) := by
  have hwaited := hs.waiting h hhand hpending
  have hin_of {t : Transfer} (hstep : (h.transfer.step s'.channel).1 = .going t) (hin : t.Entered) :
      h.transfer.Entered := by
    obtain hentered | hopen := Transfer.entered_of_step hstep hin
    · exact hentered
    · rw [hs.closed] at hopen
      cases hopen
  cases hstep : (h.transfer.step s'.channel).1 with
  | going t =>
    refine .inr ⟨t, rfl, ?_, hin_of hstep⟩
    intro hpast
    obtain hpast' | hnone := Transfer.waited_of_step hstep hpast
    · exact hwaited hpast'
    · rw [hs.killed hhand hpending (hin_of hstep hpast.entered)] at hnone
      cases hnone
  | waiting t =>
    obtain ⟨-, hawait, hnone⟩ := Transfer.step_waiting hstep
    rw [hs.killed hhand hpending (Transfer.entered_of_await hawait)] at hnone
    cases hnone
  | finished r =>
    left
    obtain ⟨error, rfl, herror⟩ := Transfer.refusal_of_step hstep hwaited
    exact ⟨error, rfl, herror⟩

theorem after (hs : s.Outlived s') (e : Event) : s.Outlived (s'.after e) := by
  have hreturned : (s'.after e).returned = true := s'.returned_after hs.returned
  cases hstep : e.isStep with
  | false =>
    obtain ⟨hended, ⟨hhand, -⟩ | ⟨-, -, t, hcheck, hhand⟩⟩ := s'.after_quiet hstep
    · refine ⟨hs.sealed.after e, hreturned, ?_, ?_, ?_⟩
      · rw [hhand]
        exact hs.waiting
      · rw [hhand]
        exact hs.outside
      · rw [hended]
        exact hs.refused
    · have hfresh := Transfer.not_entered_of_check hcheck
      refine ⟨hs.sealed.after e, hreturned, ?_, ?_, ?_⟩
      · rw [hhand]
        rintro _ ⟨⟩ _
        exact fun hwaited => hfresh hwaited.entered
      · rw [hhand]
        rintro _ ⟨⟩ _
        exact hfresh
      · rw [hended]
        exact hs.refused
  | true =>
    obtain rfl := Event.eq_step hstep
    obtain hsame | ⟨h, hhand, -, hafter⟩ := s'.after_step_cases
    · rw [hsame]
      exact hs
    · have hsealed := hs.sealed.after .step
      rw [hafter] at hsealed hreturned ⊢
      obtain ⟨t, hgoes, hs'⟩ | ⟨t, hwaits, hs'⟩ | ⟨r, hends, hs'⟩ := s'.stepped_cases h
      · rw [hs'] at hsealed hreturned ⊢
        -- A transfer that is pending goes on as the step lemma says.
        have hgoes' (hpending : s.Pending h.number) :
            ¬ t.Waited ∧ (t.Entered → h.transfer.Entered) := by
          obtain ⟨_, hends, -⟩ | ⟨t', hstep, hwaited, hentered⟩ := hs.step_cases hhand hpending
          · rw [hgoes] at hends
            cases hends
          · rw [hgoes] at hstep
            cases hstep
            exact ⟨hwaited, hentered⟩
        refine ⟨hsealed, hreturned, ?_, ?_, hs.refused⟩
        · rintro _ ⟨⟩ hpending
          exact (hgoes' hpending).1
        · rintro _ ⟨⟩ hnew hentered
          exact hs.outside h hhand hnew ((hgoes' (.inl hnew)).2 hentered)
      · rw [hs'] at hsealed hreturned ⊢
        obtain ⟨rfl, -, -⟩ := Transfer.step_waiting hwaits
        refine ⟨hsealed, hreturned, ?_, ?_, hs.refused⟩
        · rintro _ ⟨⟩
          exact hs.waiting h hhand
        · rintro _ ⟨⟩
          exact hs.outside h hhand
      · rw [hs'] at hsealed hreturned ⊢
        refine ⟨hsealed, hreturned, fun _ hnone => (by cases hnone), fun _ hnone => (by cases hnone), ?_⟩
        intro n r' hmem hpending
        rcases List.mem_cons.1 hmem with heq | hmem
        · cases heq
          exact Transfer.refusal_of_step hends (hs.waiting h hhand hpending)
        · exact hs.refused n r' hmem hpending

theorem run (hs : s.Outlived s') (events : List Event) : s.Outlived (s'.run events) := by
  induction events generalizing s' with
  | nil => exact hs
  | cons e events ih => exact ih (hs.after e)

theorem asleep (hs : s.Outlived s') : s'.asleep = false := hs.sealed.awake hs.returned

theorem ends (hs : s.Outlived s') {h : Hand} (hhand : s'.hand = some h) (hpending : s.Pending h.number)
    {events : List Event} (hsteps : h.transfer.stage.remaining ≤ events.countP Event.isStep) :
    ∃ r, (h.number, r) ∈ (s'.run events).ended := by
  induction events generalizing s' h with
  | nil =>
    cases hstage : h.transfer.stage <;> simp [hstage, Stage.remaining] at hsteps
  | cons e events ih =>
    rw [List.countP_cons] at hsteps
    cases hstep : e.isStep with
    | false =>
      rw [hstep, if_neg Bool.false_ne_true] at hsteps
      obtain ⟨-, ⟨hsame, -⟩ | ⟨hnone, -⟩⟩ := s'.after_quiet hstep
      · exact ih (hs.after e) (hsame.trans hhand) hpending hsteps
      · rw [hhand] at hnone
        cases hnone
    | true =>
      obtain rfl := Event.eq_step hstep
      have hafter : s'.after .step = s'.stepped h := by simp only [Teardown.after, hhand, hs.asleep]
      rw [hstep, if_pos rfl] at hsteps
      obtain ⟨t, hgoes, hs'⟩ | ⟨t, hwaits, -⟩ | ⟨r, -, hs'⟩ := s'.stepped_cases h
      · have hnext := (Transfer.step_going hgoes).1
        refine ih (h := { h with transfer := t }) (hs.after .step) ?_ hpending ?_
        · rw [hafter, hs']
        · simp only
          omega
      · obtain ⟨_, hends, -⟩ | ⟨_, hgoes, -⟩ := hs.step_cases hhand hpending
        · rw [hwaits] at hends
          cases hends
        · rw [hwaits] at hgoes
          cases hgoes
      · refine ⟨r, (s'.after .step).mem_ended_run events ?_⟩
        rw [hafter, hs']
        exact List.mem_cons_self

end Outlived

/-- What holds in `s'`, to which events lead from `s`, of the transfers that had yet to begin in `s` or
to end their wait. -/
structure Final (s s' : Teardown) : Prop where
  refused : ∀ n r, (n, r) ∈ s'.ended → s.Pending n → ∃ error, r = .error error ∧ error.isRefusal = true
  untouched : ∀ h, s'.hand = some h → s.next ≤ h.number →
    (s'.after .step).channel.card.writesTo (· ∈ Register.describing) =
      s'.channel.card.writesTo (· ∈ Register.describing)
  awake : ∀ h, s'.hand = some h → s.Pending h.number → s'.asleep = false
  killed : ∀ h, s'.hand = some h → s.Pending h.number →
    h.transfer.stage = .enter ∨ h.transfer.stage = .await →
    (h.transfer.step s'.channel).1 = .finished (.error .transferKilled)
  ends : ∀ h, s'.hand = some h → s.Pending h.number → ∀ events,
    h.transfer.stage.remaining ≤ events.countP Event.isStep → ∃ r, (h.number, r) ∈ (s'.run events).ended

/-- Once a close has returned, whatever happens, the engine is at its end. -/
theorem run_final (c : Channel Rig) (events later : List Event)
    (h : (run { channel := c } events).returned = true) :
    Final (run { channel := c } events) ((run { channel := c } events).run later) := by
  have hstart : Sealed { channel := c } ∧ Numbered { channel := c } := by
    refine ⟨⟨?_, fun _ _ hnone => (by cases hnone), fun _ => rfl⟩, fun _ hnone => (by cases hnone), ?_⟩
    · rintro (hpos | hpos | hreturned)
      · exact absurd hpos (Nat.lt_irrefl 0)
      · exact absurd hpos (Nat.lt_irrefl 0)
      · cases hreturned
    · intro n r hmem
      cases hmem
  have hsealed := hstart.1.run events
  have hnumbered := hstart.2.run events
  generalize run { channel := c } events = s at h hsealed hnumbered ⊢
  have hs := (Outlived.refl hsealed hnumbered h).run later
  generalize s.run later = s' at hs ⊢
  refine ⟨hs.refused, ?_, fun _ _ _ => hs.asleep, ?_,
    fun _ hhand hpending _ hsteps => hs.ends hhand hpending hsteps⟩
  · intro h hhand hnew
    have hstage : h.transfer.stage ≠ .program := by
      intro hprogram
      refine hs.outside h hhand hnew ?_
      unfold Transfer.Entered
      rw [hprogram]
      decide
    obtain hsame | ⟨h', hhand', -, hafter⟩ := s'.after_step_cases
    · rw [hsame]
    · rw [hhand] at hhand'
      cases hhand'
      have hwrites := h.transfer.step_writesTo s'.channel hstage
        (p := (· ∈ Register.describing)) (by decide)
      rw [hafter]
      obtain ⟨_, -, hs'⟩ | ⟨_, -, hs'⟩ | ⟨_, -, hs'⟩ := s'.stepped_cases h <;>
        · rw [hs']
          exact hwrites
  · rintro h hhand hpending (henter | hawait)
    · rw [h.transfer.step_enter _ henter, hs.closed]
      rfl
    · have hkilled := hs.killed hhand hpending (Transfer.entered_of_await hawait)
      obtain ⟨-, _, hstep⟩ | ⟨hnone, -⟩ | ⟨hnone, -⟩ := h.transfer.step_await s'.channel hawait
      · rw [hstep]
      · rw [hkilled] at hnone
        cases hnone
      · rw [hkilled] at hnone
        cases hnone

/-- A transfer from card memory sleeps when a close comes, whose kill it takes before it is woken. -/
def closeOverSleeper : List Event :=
  .begin 0x80000000 4 .fromDevice :: List.replicate 7 .step ++
    [.shut, .stir, .mark .close, .step, .rouse .close]

theorem run_final_sleeper :
    (run { channel := smallChannel } closeOverSleeper).returned = true ∧
    Final (run { channel := smallChannel } closeOverSleeper)
      ((run { channel := smallChannel } closeOverSleeper).run
        (.begin 0x80000000 4 .fromDevice :: List.replicate 5 .step)) :=
  ⟨rfl, run_final smallChannel _ _ rfl⟩

/-- The next transfer comes as far as the closed flag. -/
example : (run { channel := smallChannel } (closeOverSleeper ++
    .begin 0x80000000 4 .fromDevice :: List.replicate 5 .step)).ended =
      [(1, .error .transferKilled), (0, .error .transferKilled)] := by
  rfl

end Teardown

end FpgaCard
