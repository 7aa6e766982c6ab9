import FpgaCard.Proofs.Custody

/-!
# Forwarding signals

Signals are added up in a counter, which the thread empties before it calls its handler. They come at any time,
between any two of its steps. Main statement: no signal is left without a later call of the handler while the
thread waits with an empty counter, and once a stop has been waited for the handler is not called again.
-/

namespace FpgaCard.Passthrough

/-! ## Runs -/

inductive Owner where
  | holding
  /-- It asked the thread to stop and waits for its end. -/
  | joining
  | gone
  deriving DecidableEq

inductive ThreadDeed where
  | sent
  | drained
  | handled
  | stopped
  deriving DecidableEq

/-- A thread with its owner and what has happened so far, the newest first. -/
structure Forwarding where
  thread : InterruptThread := {}
  owner : Owner := .holding
  log : List ThreadDeed := []

namespace Forwarding

inductive Event where
  | signal
  /-- A step of the thread, whose wait may be cut short. -/
  | step (cut : Bool)
  /-- The owner stops the thread or drops it. -/
  | stop
  | join
  deriving DecidableEq

def deeds : ThreadStage → List ThreadDeed
  | .drain => [.drained]
  | .handle => [.handled]
  | _ => []

def after (s : Forwarding) : Event → Forwarding
  | .signal => { s with thread := s.thread.signal 1, log := .sent :: s.log }
  | .step cut =>
    { s with thread := s.thread.step (if cut then some interrupted else none)
             log := deeds s.thread.stage ++ s.log }
  | .stop =>
    match s.owner with
    | .holding => { s with thread := s.thread.askToStop, owner := .joining }
    | .joining => s
    | .gone => { s with log := .stopped :: s.log }
  | .join =>
    if s.owner = .joining ∧ s.thread.stage = .ended then { s with owner := .gone, log := .stopped :: s.log }
    else s

def run (s : Forwarding) (events : List Event) : Forwarding := events.foldl after s

/-! ## The log -/

/-- Every signal was followed by a call of the handler. -/
def Answered (log : List ThreadDeed) : Prop :=
  ∀ later earlier, log = later ++ .sent :: earlier → .handled ∈ later

/-- Nothing was drained or handled once a stop had come back. -/
def Quiet (log : List ThreadDeed) : Prop :=
  ∀ later earlier, log = later ++ .stopped :: earlier → .handled ∉ later ∧ .drained ∉ later

section

variable {log : List ThreadDeed} {d : ThreadDeed}

theorem Answered.cons (h : Answered log) (hd : d ≠ .sent) : Answered (d :: log) := by
  intro later earlier heq
  cases later with
  | nil => exact absurd (List.cons.inj heq).1 hd
  | cons d' later => exact List.mem_cons_of_mem _ (h later earlier (List.cons.inj heq).2)

theorem answered_handled : Answered (.handled :: log) := by
  intro later earlier heq
  cases later with
  | nil => cases heq
  | cons d' later =>
    rw [← (List.cons.inj heq).1]
    exact List.mem_cons_self

theorem Quiet.cons (h : Quiet log) (hd : d ≠ .handled ∧ d ≠ .drained) : Quiet (d :: log) := by
  intro later earlier heq
  cases later with
  | nil => exact ⟨List.not_mem_nil, List.not_mem_nil⟩
  | cons d' later =>
    obtain ⟨rfl, hlog⟩ := List.cons.inj heq
    obtain ⟨hhandled, hdrained⟩ := h later earlier hlog
    exact ⟨List.not_mem_cons_of_ne_of_not_mem hd.1.symm hhandled,
      List.not_mem_cons_of_ne_of_not_mem hd.2.symm hdrained⟩

theorem quiet_of_not_mem (h : .stopped ∉ log) : Quiet log := by
  rintro later earlier rfl
  exact absurd (List.mem_append_right _ List.mem_cons_self) h

end

/-! ## Steps of the thread -/

def sees : ThreadStage → Bool
  | .look true _ | .drain => true
  | _ => false

theorem step_cases (t : InterruptThread) (cut : Bool) :
    let t' := t.step (if cut then some interrupted else none)
    (t.stage = .drain ∧ t' = { t with stage := .handle, signals := 0 }) ∨
    (t.stage = .handle ∧ t' = { t with stage := .poll, handled := t.handled + 1 }) ∨
    (t.stage ≠ .handle ∧ deeds t.stage = [] ∧ ∃ stage, t' = { t with stage } ∧ stage ≠ .handle ∧
      (t.stage = .ended → stage = .ended) ∧ (sees stage = true → sees t.stage = true ∨ 0 < t.signals)) := by
  obtain ⟨stage, signals, stops, handled⟩ := t
  cases stage with
  | drain => exact .inl ⟨rfl, rfl⟩
  | handle => exact .inr (.inl ⟨rfl, rfl⟩)
  | ended => exact .inr (.inr ⟨nofun, rfl, .ended, rfl, nofun, id, nofun⟩)
  | poll =>
    cases cut with
    | true => exact .inr (.inr ⟨nofun, rfl, .poll, rfl, nofun, nofun, nofun⟩)
    | false => exact .inr (.inr ⟨nofun, rfl, .wait, rfl, nofun, nofun, nofun⟩)
  | look signalled stopped =>
    cases stopped with
    | true => exact .inr (.inr ⟨nofun, rfl, .ended, rfl, nofun, nofun, nofun⟩)
    | false =>
      cases signalled with
      | true => exact .inr (.inr ⟨nofun, rfl, .drain, rfl, nofun, nofun, fun _ => .inl rfl⟩)
      | false => exact .inr (.inr ⟨nofun, rfl, .poll, rfl, nofun, nofun, nofun⟩)
  | wait =>
    right
    right
    unfold InterruptThread.step
    dsimp only
    split
    · exact ⟨nofun, rfl, .wait, rfl, nofun, nofun, nofun⟩
    · refine ⟨nofun, rfl, _, rfl, nofun, nofun, fun hsees => .inr ?_⟩
      by_contra hnone
      rw [decide_eq_false hnone] at hsees
      cases hsees

/-! ## What every event keeps -/

/-- The log tells what the thread did, and what it did was done in its time. -/
structure Sound (s : Forwarding) : Prop where
  handled : s.log.count .handled = s.thread.handled
  drained : s.log.count .drained = s.thread.handled + if s.thread.stage = .handle then 1 else 0
  sent : s.log.count .drained + s.thread.signals ≤ s.log.count .sent
  ready : sees s.thread.stage = true → 0 < s.thread.signals
  answered : s.thread.stage ≠ .handle → s.thread.signals = 0 → Answered s.log
  ended : s.owner = .gone → s.thread.stage = .ended
  going : s.owner ≠ .gone → .stopped ∉ s.log
  quiet : Quiet s.log

namespace Sound

variable {s : Forwarding}

theorem not_mem (h : Sound s) (hstage : s.thread.stage ≠ .ended) : .stopped ∉ s.log :=
  h.going fun hgone => hstage (h.ended hgone)

theorem drain (h : Sound s) (hstage : s.thread.stage = .drain) :
    Sound { s with thread := { s.thread with stage := .handle, signals := 0 }, log := .drained :: s.log } := by
  have hnone : .stopped ∉ .drained :: s.log :=
    List.not_mem_cons_of_ne_of_not_mem nofun (h.not_mem (by rw [hstage]; nofun))
  have hready := h.ready (by rw [hstage]; rfl)
  have hdrained := h.drained
  rw [hstage] at hdrained
  constructor
  case handled => simpa using h.handled
  case drained => simpa using hdrained
  case sent =>
    have hsent := h.sent
    simp only [List.count_cons_self, List.count_cons_of_ne (by decide : ThreadDeed.drained ≠ .sent)]
    omega
  case ready => exact nofun
  -- The counter is empty, but the call for what was in it is still due.
  case answered => exact fun hnot => absurd rfl hnot
  case ended =>
    intro hgone
    cases hstage.symm.trans (h.ended hgone)
  case going => exact fun _ => hnone
  case quiet => exact quiet_of_not_mem hnone

theorem handle (h : Sound s) (hstage : s.thread.stage = .handle) :
    Sound { s with
      thread := { s.thread with stage := .poll, handled := s.thread.handled + 1 }, log := .handled :: s.log } := by
  have hnone : .stopped ∉ .handled :: s.log :=
    List.not_mem_cons_of_ne_of_not_mem nofun (h.not_mem (by rw [hstage]; nofun))
  have hdrained := h.drained
  rw [hstage] at hdrained
  constructor
  case handled => simpa using h.handled
  case drained => simpa using hdrained
  case sent => simpa using h.sent
  case ready => exact nofun
  case answered => exact fun _ _ => answered_handled
  case ended =>
    intro hgone
    cases hstage.symm.trans (h.ended hgone)
  case going => exact fun _ => hnone
  case quiet => exact quiet_of_not_mem hnone

theorem goto (h : Sound s) {stage : ThreadStage} (hfrom : s.thread.stage ≠ .handle) (hto : stage ≠ .handle)
    (hended : s.thread.stage = .ended → stage = .ended)
    (hsees : sees stage = true → sees s.thread.stage = true ∨ 0 < s.thread.signals) :
    Sound { s with thread := { s.thread with stage } } := by
  have hdrained := h.drained
  rw [if_neg hfrom] at hdrained
  constructor
  case handled => exact h.handled
  case drained => exact hdrained.trans (congrArg _ (if_neg hto).symm)
  case sent => exact h.sent
  case ready => exact fun hnow => (hsees hnow).elim h.ready id
  case answered => exact fun _ => h.answered hfrom
  case ended => exact fun hgone => hended (h.ended hgone)
  case going => exact h.going
  case quiet => exact h.quiet

theorem step (h : Sound s) (cut : Bool) : Sound (s.after (.step cut)) := by
  unfold after
  dsimp only
  rcases step_cases s.thread cut with ⟨hstage, ht⟩ | ⟨hstage, ht⟩ | ⟨hfrom, hdeeds, stage, ht, hto, hrest⟩
  · rw [ht, hstage]
    exact h.drain hstage
  · rw [ht, hstage]
    exact h.handle hstage
  · rw [ht, hdeeds]
    exact h.goto hfrom hto hrest.1 hrest.2

theorem signal (h : Sound s) : Sound (s.after .signal) := by
  constructor
  case handled => simpa [after, InterruptThread.signal] using h.handled
  case drained =>
    show List.count .drained (.sent :: s.log) = _
    rw [List.count_cons_of_ne (by decide)]
    exact h.drained
  case sent =>
    have hsent := h.sent
    simp only [after, InterruptThread.signal, List.count_cons_self,
      List.count_cons_of_ne (by decide : ThreadDeed.sent ≠ .drained)]
    omega
  case ready => exact fun _ => Nat.succ_pos _
  case answered => exact fun _ hnone => absurd hnone (Nat.succ_ne_zero _)
  case ended => exact h.ended
  case going => exact fun hstays => List.not_mem_cons_of_ne_of_not_mem nofun (h.going hstays)
  case quiet => exact h.quiet.cons ⟨nofun, nofun⟩

theorem stopped (h : Sound s) (hstage : s.thread.stage = .ended) :
    Sound { s with owner := .gone, log := .stopped :: s.log } := by
  constructor
  case handled => simpa using h.handled
  case drained => simpa using h.drained
  case sent => simpa using h.sent
  case ready => exact h.ready
  case answered => exact fun hnot hnone => (h.answered hnot hnone).cons nofun
  case ended => exact fun _ => hstage
  case going => exact fun hstays => absurd rfl hstays
  case quiet => exact h.quiet.cons ⟨nofun, nofun⟩

theorem stop (h : Sound s) : Sound (s.after .stop) := by
  unfold after
  dsimp only
  cases howner : s.owner with
  | holding =>
    refine ⟨h.handled, h.drained, h.sent, h.ready, h.answered, nofun, fun _ => h.going ?_, h.quiet⟩
    rw [howner]
    nofun
  | joining => exact h
  | gone => exact h.stopped (h.ended howner)

theorem join (h : Sound s) : Sound (s.after .join) := by
  unfold after
  dsimp only
  split
  · rename_i hjoining
    exact h.stopped hjoining.2
  · exact h

theorem run (h : Sound s) (events : List Event) : Sound (s.run events) := by
  induction events generalizing s with
  | nil => exact h
  | cons e events ih =>
    apply ih
    cases e with
    | signal => exact h.signal
    | step cut => exact h.step cut
    | stop => exact h.stop
    | join => exact h.join

end Sound

/-! ## Stopping -/

theorem after_cases (s : Forwarding) (e : Event) : (∃ cut, e = .step cut) ∨
    ((s.after e).thread.stage = s.thread.stage ∧ s.thread.stops ≤ (s.after e).thread.stops ∧
      ∃ new, (s.after e).log = new ++ s.log ∧ .handled ∉ new ∧ .drained ∉ new) := by
  have hnothing : .handled ∉ ([] : List ThreadDeed) ∧ .drained ∉ ([] : List ThreadDeed) := by simp
  cases e with
  | step cut => exact .inl ⟨cut, rfl⟩
  | signal => exact .inr ⟨rfl, Nat.le_refl _, [.sent], rfl, by decide⟩
  | stop =>
    right
    unfold after
    dsimp only
    split
    · exact ⟨rfl, Nat.le_succ _, [], rfl, hnothing⟩
    · exact ⟨rfl, Nat.le_refl _, [], rfl, hnothing⟩
    · exact ⟨rfl, Nat.le_refl _, [.stopped], rfl, by decide⟩
  | join =>
    right
    unfold after
    dsimp only
    split
    · exact ⟨rfl, Nat.le_refl _, [.stopped], rfl, by decide⟩
    · exact ⟨rfl, Nat.le_refl _, [], rfl, hnothing⟩

theorem stops_le_after (s : Forwarding) (e : Event) : s.thread.stops ≤ (s.after e).thread.stops := by
  rcases s.after_cases e with ⟨cut, rfl⟩ | ⟨-, hstops, -⟩
  · exact Nat.le_of_eq (Recorded.step_stops _ _).symm
  · exact hstops

/-- Whether a thread that was asked to stop does so without another look at its signals. -/
def isLast : ThreadStage → Bool
  | .poll | .wait | .look _ true | .ended => true
  | _ => false

theorem isLast_step {t : InterruptThread} (hasked : 0 < t.stops) (hlast : isLast t.stage = true)
    (failed : Option Nat) : isLast (t.step failed).stage = true ∧ deeds t.stage = [] := by
  obtain ⟨stage, signals, stops, handled⟩ := t
  cases stage with
  | drain | handle => cases hlast
  | ended => exact ⟨rfl, rfl⟩
  | look signalled stopped =>
    cases stopped with
    | true => exact ⟨rfl, rfl⟩
    | false => cases hlast
  | poll =>
    refine ⟨?_, rfl⟩
    unfold InterruptThread.step
    dsimp only
    split
    · rfl
    · split <;> rfl
  | wait =>
    refine ⟨?_, rfl⟩
    unfold InterruptThread.step
    dsimp only
    split
    · rfl
    · show isLast (.look _ (decide (0 < stops))) = true
      rw [decide_eq_true hasked]
      rfl

/-- Where both are ready the stop wins. -/
theorem run_last {s : Forwarding} (hasked : 0 < s.thread.stops) (hlast : isLast s.thread.stage = true)
    (events : List Event) : ∃ new, (s.run events).log = new ++ s.log ∧ .handled ∉ new ∧ .drained ∉ new := by
  induction events generalizing s with
  | nil => exact ⟨[], rfl, List.not_mem_nil, List.not_mem_nil⟩
  | cons e events ih =>
    have hnext : isLast (s.after e).thread.stage = true ∧
        ∃ new, (s.after e).log = new ++ s.log ∧ .handled ∉ new ∧ .drained ∉ new := by
      rcases s.after_cases e with ⟨cut, rfl⟩ | ⟨hstage, -, hnew⟩
      · obtain ⟨hstep, hdeeds⟩ := isLast_step hasked hlast (if cut then some interrupted else none)
        refine ⟨hstep, [], ?_, List.not_mem_nil, List.not_mem_nil⟩
        show deeds s.thread.stage ++ s.log = _
        rw [hdeeds]
      · exact ⟨by rwa [hstage], hnew⟩
    obtain ⟨hlast', new, hlog, hhandled, hdrained⟩ := hnext
    obtain ⟨new', hlog', hhandled', hdrained'⟩ := ih (Nat.lt_of_lt_of_le hasked (s.stops_le_after e)) hlast'
    refine ⟨new' ++ new, ?_, ?_, ?_⟩
    · rw [List.append_assoc, ← hlog]
      exact hlog'
    · simp [hhandled, hhandled']
    · simp [hdrained, hdrained']

theorem step_cut (t : InterruptThread) :
    t.step (some interrupted) = t ∨ t.step (some interrupted) = t.step none := by
  obtain ⟨stage, signals, stops, handled⟩ := t
  cases stage with
  | poll => exact .inl rfl
  | _ => exact .inr rfl

theorem stepsLeft_step {t : InterruptThread} (hasked : 0 < t.stops) :
    Recorded.stepsLeft (t.step none).stage ≤ Recorded.stepsLeft t.stage - 1 := by
  by_cases hended : t.stage = .ended
  · unfold InterruptThread.step
    rw [hended]
    exact Nat.le_of_eq (congrArg _ hended)
  · have hlower := Recorded.step_lowers hasked hended (nofun : none ≠ some interrupted)
    omega

theorem stepsLeft_after {s : Forwarding} (hasked : 0 < s.thread.stops) (e : Event) :
    Recorded.stepsLeft (s.after e).thread.stage ≤
      Recorded.stepsLeft s.thread.stage - [e].count (.step false) := by
  have hwhole := stepsLeft_step hasked
  by_cases he : e = .step false
  · rw [he]
    exact hwhole
  rw [List.count_singleton, if_neg (by simpa using he)]
  rcases s.after_cases e with ⟨_ | _, rfl⟩ | ⟨hstage, -⟩
  · exact absurd rfl he
  · show Recorded.stepsLeft (s.thread.step (some interrupted)).stage ≤ _
    rcases step_cut s.thread with hsame | hstep
    · rw [hsame]
      exact Nat.le_refl _
    · rw [hstep]
      omega
  · rw [hstage]
    exact Nat.le_refl _

theorem run_ended {s : Forwarding} (hasked : 0 < s.thread.stops) {events : List Event}
    (henough : Recorded.stepsLeft s.thread.stage ≤ events.count (.step false)) :
    (s.run events).thread.stage = .ended := by
  induction events generalizing s with
  | nil =>
    by_contra hstage
    have hlower := Recorded.step_lowers hasked hstage (nofun : none ≠ some interrupted)
    rw [List.count_nil] at henough
    exact Nat.not_lt_zero _ (Nat.lt_of_lt_of_le hlower henough)
  | cons e events ih =>
    refine ih (Nat.lt_of_lt_of_le hasked (s.stops_le_after e)) ?_
    have hnext := stepsLeft_after hasked e
    rw [← List.singleton_append, List.count_append] at henough
    omega

/-! ## Pending signals -/

def goesOn : ThreadStage → Bool
  | .look _ true | .ended => false
  | _ => true

/-- The steps after which the handler has been called for what is in the counter now. -/
def stepsDue : ThreadStage → Nat
  | .poll => 5
  | .wait => 4
  | .look true _ => 3
  | .drain => 2
  | _ => 6

theorem goesOn_step {t : InterruptThread} (hcalm : t.stops = 0) (h : goesOn t.stage = true) (cut : Bool) :
    goesOn (t.step (if cut then some interrupted else none)).stage = true := by
  obtain ⟨stage, signals, stops, handled⟩ := t
  cases stage with
  | poll => cases cut <;> rfl
  | wait =>
    unfold InterruptThread.step
    dsimp only at hcalm ⊢
    rw [hcalm]
    split <;> rfl
  | look signalled stopped =>
    cases stopped with
    | true => cases h
    | false => cases signalled <;> rfl
  | drain => rfl
  | handle => rfl
  | ended => cases h

theorem goesOn_run {s : Forwarding} (h : s.thread.stops = 0 → goesOn s.thread.stage = true)
    (events : List Event) :
    (s.run events).thread.stops = 0 → goesOn (s.run events).thread.stage = true := by
  induction events generalizing s with
  | nil => exact h
  | cons e events ih =>
    refine ih fun hcalm => ?_
    have hbefore := Nat.eq_zero_of_le_zero (hcalm ▸ s.stops_le_after e)
    rcases s.after_cases e with ⟨cut, rfl⟩ | ⟨hstage, -⟩
    · exact goesOn_step hbefore (h hbefore) cut
    · rw [hstage]
      exact h hbefore

theorem after_cut {s : Forwarding} (h : s.thread.stage = .poll) : s.after (.step true) = s := by
  obtain ⟨⟨stage, signals, stops, handled⟩, owner, log⟩ := s
  cases h
  rfl

theorem exists_log_after (s : Forwarding) (e : Event) : ∃ new, (s.after e).log = new ++ s.log := by
  rcases s.after_cases e with ⟨cut, rfl⟩ | ⟨-, -, new, hlog, -⟩
  · exact ⟨_, rfl⟩
  · exact ⟨new, hlog⟩

theorem exists_log_run (s : Forwarding) (events : List Event) : ∃ new, (s.run events).log = new ++ s.log := by
  induction events generalizing s with
  | nil => exact ⟨[], rfl⟩
  | cons e events ih =>
    obtain ⟨new, hlog⟩ := s.exists_log_after e
    obtain ⟨new', hlog'⟩ := ih (s.after e)
    exact ⟨new' ++ new, by rw [List.append_assoc, ← hlog]; exact hlog'⟩

theorem log_later {s : Forwarding} {e : Event} {events : List Event} {P : List ThreadDeed → Prop}
    (hmore : ∀ new earlier, P new → P (new ++ earlier))
    (h : ∃ new, ((s.after e).run events).log = new ++ (s.after e).log ∧ P new) :
    ∃ new, (s.run (e :: events)).log = new ++ s.log ∧ P new := by
  obtain ⟨earlier, hearlier⟩ := s.exists_log_after e
  obtain ⟨new, hlog, hnew⟩ := h
  refine ⟨new ++ earlier, ?_, hmore new earlier hnew⟩
  rw [List.append_assoc, ← hearlier]
  exact hlog

theorem run_handled {s : Forwarding} (hstage : s.thread.stage = .handle) {events : List Event}
    (hstep : .step false ∈ events) : ∃ new, (s.run events).log = new ++ s.log ∧ .handled ∈ new := by
  induction events generalizing s with
  | nil => cases hstep
  | cons e events ih =>
    by_cases he : ∃ cut, e = .step cut
    · obtain ⟨cut, rfl⟩ := he
      have hlog : (s.after (.step cut)).log = .handled :: s.log := by
        show deeds s.thread.stage ++ s.log = _
        rw [hstage]
        rfl
      obtain ⟨new, hnew⟩ := (s.after (.step cut)).exists_log_run events
      refine ⟨new ++ [.handled], ?_, by simp⟩
      rw [List.append_assoc, List.singleton_append, ← hlog]
      exact hnew
    · obtain ⟨hsame, -⟩ := (s.after_cases e).resolve_left he
      have hlater : .step false ∈ events := (List.mem_cons.1 hstep).resolve_left fun heq => he ⟨false, heq.symm⟩
      exact log_later (fun _ _ => List.mem_append_left _) (ih (hsame.trans hstage) hlater)

theorem run_drained {s : Forwarding} (hstage : s.thread.stage = .drain) (cut : Bool) {events : List Event}
    (hstep : .step false ∈ events) :
    ∃ new, (s.run (.step cut :: events)).log = new ++ s.log ∧ [.handled, .drained].Sublist new := by
  have hdrained : (s.after (.step cut)).thread.stage = .handle ∧
      (s.after (.step cut)).log = .drained :: s.log := by
    unfold after InterruptThread.step
    dsimp only
    rw [hstage]
    exact ⟨rfl, rfl⟩
  obtain ⟨hhandle, hlog⟩ := hdrained
  obtain ⟨new, hnew, hhandled⟩ := run_handled hhandle hstep
  refine ⟨new ++ [.drained], ?_, ?_⟩
  · rw [List.append_assoc, List.singleton_append, ← hlog]
    exact hnew
  · exact (List.singleton_sublist.2 hhandled).append (List.Sublist.refl [ThreadDeed.drained])

theorem stepsDue_step {t : InterruptThread} (hcalm : t.stops = 0) (hsignal : 0 < t.signals)
    (hgoes : goesOn t.stage = true) (hstage : t.stage ≠ .drain) :
    stepsDue (t.step none).stage + 1 ≤ stepsDue t.stage ∧ (t.step none).signals = t.signals := by
  obtain ⟨stage, signals, stops, handled⟩ := t
  cases stage with
  | poll => exact ⟨Nat.le_refl _, rfl⟩
  | wait =>
    unfold InterruptThread.step InterruptThread.isIdle
    dsimp only at hcalm hsignal ⊢
    rw [if_neg (by simp only [Bool.and_eq_true, decide_eq_true_eq]; omega), decide_eq_true hsignal]
    exact ⟨Nat.le_refl _, rfl⟩
  | look signalled stopped =>
    cases stopped with
    | true => cases hgoes
    | false => cases signalled <;> exact ⟨Nat.le_refl _, rfl⟩
  | drain => exact absurd rfl hstage
  | handle => exact ⟨Nat.le_refl _, rfl⟩
  | ended => cases hgoes

theorem after_other {s : Forwarding} {e : Event} (he : ¬∃ cut, e = .step cut) (hstop : e ≠ .stop) :
    (s.after e).thread.stops = s.thread.stops ∧ s.thread.signals ≤ (s.after e).thread.signals := by
  cases e with
  | signal => exact ⟨rfl, Nat.le_succ _⟩
  | step cut => exact absurd ⟨cut, rfl⟩ he
  | stop => exact absurd rfl hstop
  | join =>
    unfold after
    dsimp only
    split <;> exact ⟨rfl, Nat.le_refl _⟩

theorem after_step_thread (s : Forwarding) (cut : Bool) :
    (s.after (.step cut)).thread = s.thread.step none ∨
      cut = true ∧ (s.after (.step cut)).thread = s.thread := by
  cases cut with
  | false => exact .inl rfl
  | true => exact (step_cut s.thread).elim (fun hsame => .inr ⟨rfl, hsame⟩) .inl

theorem run_pending {s : Forwarding} (hcalm : s.thread.stops = 0) (hgoes : goesOn s.thread.stage = true)
    (hsignal : 0 < s.thread.signals) {events : List Event} (hnever : .stop ∉ events)
    (henough : stepsDue s.thread.stage ≤ events.count (.step false)) :
    ∃ new, (s.run events).log = new ++ s.log ∧ [.handled, .drained].Sublist new := by
  induction events generalizing s with
  | nil =>
    have hpos : 0 < stepsDue s.thread.stage := by
      unfold stepsDue
      split <;> decide
    rw [List.count_nil] at henough
    omega
  | cons e events ih =>
    obtain ⟨hstop, hrest⟩ := not_or.1 (mt List.mem_cons.2 hnever)
    rw [← List.singleton_append, List.count_append, List.count_singleton] at henough
    have hlater (new earlier : List ThreadDeed) (h : [.handled, .drained].Sublist new) :
        [.handled, .drained].Sublist (new ++ earlier) := h.trans (List.sublist_append_left _ _)
    by_cases he : ∃ cut, e = .step cut
    case neg =>
      obtain ⟨hstage, -⟩ := (s.after_cases e).resolve_left he
      obtain ⟨hstops, hsignals⟩ := after_other he (Ne.symm hstop)
      rw [if_neg (by simpa using fun heq => he ⟨false, heq⟩), Nat.zero_add] at henough
      exact log_later hlater (ih (hstops.trans hcalm) (by rwa [hstage]) (by omega) hrest (by rwa [hstage]))
    obtain ⟨cut, rfl⟩ := he
    have hmost : (if Event.step cut == .step false then 1 else 0) ≤ 1 := by split <;> omega
    by_cases hdrain : s.thread.stage = .drain
    · rw [hdrain, stepsDue] at henough
      exact run_drained hdrain cut (List.count_pos_iff.1 (by omega))
    · obtain ⟨hnearer, hsignals⟩ := stepsDue_step hcalm hsignal hgoes hdrain
      have hstops : (s.after (.step cut)).thread.stops = 0 := (Recorded.step_stops _ _).trans hcalm
      have hgoes' : goesOn (s.after (.step cut)).thread.stage = true := goesOn_step hcalm hgoes cut
      rcases s.after_step_thread cut with hthread | ⟨rfl, hthread⟩
      · exact log_later hlater (ih hstops hgoes' (by rw [hthread]; omega) hrest (by rw [hthread]; omega))
      · rw [if_neg (by decide), Nat.zero_add] at henough
        exact log_later hlater (ih hstops hgoes' (by rwa [hthread]) hrest (by rwa [hthread]))

/-- The handler is called once for each time that the counter is emptied, which never happens more often than
signals were sent. While the counter is empty and no call is due, every signal was followed by a call. A thread
that was asked to stop and is at its wait does not call the handler any more, and it ends. Once a stop has come
back the handler is not called again. A wait that is cut short is begun again, and as long as nobody asks for a
stop a pending signal is taken and the handler called for it. -/
theorem run_forwards (events : List Event) : let s := run {} events
    s.log.count .handled = s.thread.handled ∧
    s.log.count .drained = s.thread.handled + (if s.thread.stage = .handle then 1 else 0) ∧
    s.log.count .drained + s.thread.signals ≤ s.log.count .sent ∧
    (s.thread.stage ≠ .handle → s.thread.signals = 0 → Answered s.log) ∧
    (0 < s.thread.stops → s.thread.stage = .poll ∨ s.thread.stage = .wait → ∀ more,
      ∃ new, (s.run more).log = new ++ s.log ∧ .handled ∉ new ∧ .drained ∉ new) ∧
    (0 < s.thread.stops → ∀ more, Recorded.stepsLeft s.thread.stage ≤ more.count (.step false) →
      (s.run more).thread.stage = .ended) ∧
    Quiet s.log ∧
    (s.thread.stage = .poll → s.after (.step true) = s) ∧
    (s.thread.stops = 0 → 0 < s.thread.signals → ∀ more, .stop ∉ more → 6 ≤ more.count (.step false) →
      ∃ new, (s.run more).log = new ++ s.log ∧ [.handled, .drained].Sublist new) := by
  intro s
  have hstart : Sound {} := by
    refine ⟨rfl, rfl, Nat.le_refl _, nofun, fun _ _ => ?_, nofun, fun _ => List.not_mem_nil, ?_⟩
    · rintro (_ | _) _ ⟨⟩
    · exact quiet_of_not_mem List.not_mem_nil
  have h : Sound s := hstart.run events
  refine ⟨h.handled, h.drained, h.sent, h.answered, ?_, fun hasked _ => run_ended hasked, h.quiet, after_cut,
    ?_⟩
  · rintro hasked (hstage | hstage)
    · exact run_last hasked (by rw [hstage]; rfl)
    · exact run_last hasked (by rw [hstage]; rfl)
  · intro hcalm hsignal more hnever henough
    have hgoes : goesOn s.thread.stage = true := goesOn_run (fun _ => rfl) events hcalm
    have hdue : stepsDue s.thread.stage ≤ 6 := by
      unfold stepsDue
      split <;> decide
    exact run_pending hcalm hgoes hsignal hnever (by omega)

/-- Two signals that are handled together, and one that comes when the thread was asked to stop. -/
example : (run {} (List.flatten [[.signal, .signal], List.replicate 5 (.step false), [.stop, .signal],
    List.replicate 3 (.step false), [.join, .stop]])).log =
      [.stopped, .stopped, .sent, .handled, .drained, .sent, .sent] := by
  decide

end Forwarding

end FpgaCard.Passthrough
