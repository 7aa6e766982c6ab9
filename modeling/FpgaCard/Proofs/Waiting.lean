import FpgaCard.Completion

/-!
# Waiting at a completion

Any number of waiters at one completion, and everything that can happen around them in any order. A kill
sets its signal and wakes the sleepers only after it has let go of it, so that others come in between.
Main statement: no signal ends two waits, a pending kill is kept for the next waiter, and nobody sleeps
while there is a signal to take.
-/

namespace FpgaCard

structure Vigil where
  room : WaitRoom := {}
  /-- Kills that have set their signal and have yet to wake the sleepers. -/
  killing : Nat := 0
  /-- How the waits ended, the last one first. -/
  ended : List WaitResult := []
  deriving DecidableEq

namespace Vigil

inductive Event where
  | whole (e : WaitEvent)
  /-- A kill sets its signal. -/
  | mark
  /-- A kill that has set its signal wakes all sleepers. -/
  | rouse
  deriving DecidableEq

namespace Event

def isComplete : Event → Bool
  | .whole .complete => true
  | _ => false

def isKill : Event → Bool
  | .whole .kill => true
  | .mark => true
  | _ => false

def isLook : Event → Bool
  | .whole .wait => true
  | .whole .look => true
  | _ => false

end Event

def roused (v : Vigil) : Vigil :=
  { v with room := { v.room with blocked := 0, woken := v.room.woken + v.room.blocked },
           killing := v.killing - 1 }

def after (v : Vigil) : Event → Vigil
  | .whole e =>
    { v with room := (v.room.step e).2, ended := (v.room.step e).1.toList ++ v.ended }
  | .mark =>
    { v with room := { v.room with completion := v.room.completion.kill }, killing := v.killing + 1 }
  | .rouse => if 0 < v.killing then v.roused else v

def run (v : Vigil) (events : List Event) : Vigil := events.foldl after v

theorem after_kill (v : Vigil) : v.after (.whole .kill) = (v.after .mark).after .rouse := by
  simp [after, roused, WaitRoom.step]

/-! ## What an event does -/

theorem look_cases (r : WaitRoom) :
    (r.completion.killed = true ∧
      r.look = (some .killed, { r with completion := { r.completion with killed := false } })) ∨
    (r.completion.killed = false ∧ 0 < r.completion.done ∧ r.look =
      (some .completed, { r with completion := { r.completion with done := r.completion.done - 1 } })) ∨
    (r.completion.killed = false ∧ r.completion.done = 0 ∧
      r.look = (none, { r with blocked := r.blocked + 1 })) := by
  unfold WaitRoom.look
  rcases r.completion.poll_cases with ⟨hkilled, hpoll⟩ | ⟨hkilled, hdone, hpoll⟩ | ⟨hkilled, hdone, hpoll⟩
  · exact .inl ⟨hkilled, by rw [hpoll]⟩
  · exact .inr (.inl ⟨hkilled, hdone, by rw [hpoll]⟩)
  · exact .inr (.inr ⟨hkilled, hdone, by rw [hpoll]⟩)

def looked (v : Vigil) (room : WaitRoom) : Vigil :=
  { v with room := room.look.2, ended := room.look.1.toList ++ v.ended }

theorem after_rouse (v : Vigil) : v.after .rouse = if 0 < v.killing then v.roused else v := rfl

theorem after_look (v : Vigil) :
    v.after (.whole .look) =
      if 0 < v.room.woken then v.looked { v.room with woken := v.room.woken - 1 } else v := by
  unfold after looked
  simp only [WaitRoom.step]
  split <;> rfl

/-! ## Signals and sleepers -/

/-- With `m` completions and `n` kills so far no more waits have ended than there were signals, what is
pending included; and while somebody sleeps and no kill is under way, every completion that is pending
has its own waiter on the way to it. -/
structure Sound (v : Vigil) (m n : Nat) : Prop where
  completed : v.ended.count .completed + v.room.completion.done ≤ m
  killed : v.ended.count .killed + v.room.completion.killed.toNat ≤ n
  awake : 0 < v.room.blocked → v.killing = 0 →
    v.room.completion.killed = false ∧ v.room.completion.done ≤ v.room.woken

namespace Sound

variable {v : Vigil} {m n : Nat}

theorem looked (h : v.Sound m n) {room : WaitRoom} (hcompletion : room.completion = v.room.completion)
    (hblocked : room.blocked = v.room.blocked) (hwoken : v.room.woken ≤ room.woken + 1) :
    (v.looked room).Sound m n := by
  obtain ⟨hcompleted, hkills, hawake⟩ := h
  rw [← hcompletion] at hcompleted hkills hawake
  rw [← hblocked] at hawake
  unfold Vigil.looked
  rcases look_cases room with ⟨hkilled, hlook⟩ | ⟨hkilled, hdone, hlook⟩ | ⟨hkilled, hdone, hlook⟩
  · rw [hlook]
    refine ⟨by simpa using hcompleted, ?_, ?_⟩
    · simp only [Option.toList_some, List.singleton_append, List.count_cons_self, Bool.toNat_false]
      rw [hkilled, Bool.toNat_true] at hkills
      omega
    · -- Nobody sleeps while a kill is pending that has woken the sleepers.
      intro hsleeps hnone
      have hcalm := (hawake hsleeps hnone).1
      rw [hkilled] at hcalm
      cases hcalm
  · rw [hlook]
    refine ⟨?_, by simpa [hkilled] using hkills, ?_⟩
    · simp only [Option.toList_some, List.singleton_append, List.count_cons_self]
      omega
    · intro hsleeps hnone
      have hless := (hawake hsleeps hnone).2
      refine ⟨hkilled, ?_⟩
      simp only
      omega
  · rw [hlook]
    refine ⟨by simpa using hcompleted, by simpa using hkills, ?_⟩
    intro _ _
    refine ⟨hkilled, ?_⟩
    simp only [hdone]
    omega

theorem after (h : v.Sound m n) (e : Event) :
    (v.after e).Sound (m + e.isComplete.toNat) (n + e.isKill.toNat) := by
  obtain ⟨hcompleted, hkills, hawake⟩ := h
  cases e with
  | whole e =>
    cases e with
    | complete =>
      refine ⟨?_, hkills, ?_⟩
      · have hdone := Nat.min_le_left (v.room.completion.done + 1) Completion.doneMax
        simp only [Vigil.after, WaitRoom.step, Completion.complete, Option.toList_none,
          List.nil_append, Event.isComplete, Bool.toNat_true]
        omega
      · intro hsleeps hnone
        have hdone := Nat.min_le_left (v.room.completion.done + 1) Completion.doneMax
        simp only [Vigil.after, WaitRoom.step, Completion.complete] at hsleeps hnone ⊢
        obtain ⟨hcalm, hless⟩ := hawake (by omega) hnone
        refine ⟨hcalm, ?_⟩
        omega
    | kill =>
      refine ⟨hcompleted, ?_, ?_⟩
      · have hone := Bool.toNat_le v.room.completion.killed
        simp only [Vigil.after, WaitRoom.step, Completion.kill, Option.toList_none, List.nil_append,
          Event.isKill, Bool.toNat_true]
        omega
      · intro hsleeps
        exact absurd hsleeps (Nat.lt_irrefl 0)
    | restart =>
      refine ⟨?_, hkills, ?_⟩
      · simp only [Vigil.after, WaitRoom.step, Completion.restart, Option.toList_none,
          List.nil_append, Event.isComplete, Bool.toNat_false]
        omega
      · intro hsleeps hnone
        exact ⟨(hawake hsleeps hnone).1, Nat.zero_le _⟩
    | wait => exact looked ⟨hcompleted, hkills, hawake⟩ rfl rfl (by omega)
    | look =>
      rw [after_look]
      split
      · exact looked ⟨hcompleted, hkills, hawake⟩ rfl rfl (by simp only; omega)
      · exact ⟨hcompleted, hkills, hawake⟩
    | stir =>
      refine ⟨hcompleted, hkills, ?_⟩
      intro hsleeps hnone
      simp only [Vigil.after, WaitRoom.step] at hsleeps hnone ⊢
      obtain ⟨hcalm, hless⟩ := hawake (by omega) hnone
      exact ⟨hcalm, by omega⟩
  | mark =>
    refine ⟨hcompleted, ?_, ?_⟩
    · have hone := Bool.toNat_le v.room.completion.killed
      simp only [Vigil.after, Completion.kill, Event.isKill, Bool.toNat_true]
      omega
    · intro _ hnone
      exact absurd hnone (Nat.succ_ne_zero _)
  | rouse =>
    rw [after_rouse]
    split
    · refine ⟨hcompleted, hkills, ?_⟩
      intro hsleeps
      exact absurd hsleeps (Nat.lt_irrefl 0)
    · exact ⟨hcompleted, hkills, hawake⟩

theorem run (h : v.Sound m n) (events : List Event) :
    (v.run events).Sound (m + events.countP Event.isComplete) (n + events.countP Event.isKill) := by
  induction events generalizing v m n with
  | nil => exact h
  | cons e events ih =>
    have hcount (p : Event → Bool) (k : Nat) :
        k + (p e).toNat + events.countP p = k + (e :: events).countP p := by
      rw [List.countP_cons]
      cases p e with
      | false => simp
      | true =>
        simp only [Bool.toNat_true, if_true]
        omega
    rw [← hcount, ← hcount]
    exact ih (h.after e)

end Sound

/-! ## A pending kill -/

theorem killed_after {v : Vigil} (h : v.room.completion.killed = true) {e : Event}
    (he : e.isLook = false) : (v.after e).room.completion.killed = true := by
  cases e with
  | whole e =>
    cases e with
    | complete => exact h
    | kill => rfl
    | restart => exact h
    | wait => cases he
    | look => cases he
    | stir => exact h
  | mark => rfl
  | rouse =>
    rw [after_rouse]
    split <;> exact h

theorem killed_run {v : Vigil} (h : v.room.completion.killed = true) {events : List Event}
    (hevents : events.any Event.isLook = false) : (v.run events).room.completion.killed = true := by
  induction events generalizing v with
  | nil => exact h
  | cons e events ih =>
    rw [List.any_cons, Bool.or_eq_false_iff] at hevents
    exact ih (killed_after h hevents.1) hevents.2

/-! ## What a look takes -/

theorem exists_looked {v : Vigil} {e : WaitEvent} (he : e = .wait ∨ e = .look ∧ 0 < v.room.woken) :
    ∃ room, room.completion = v.room.completion ∧ v.after (.whole e) = v.looked room := by
  rcases he with rfl | ⟨rfl, hwoken⟩
  · exact ⟨v.room, rfl, rfl⟩
  · exact ⟨{ v.room with woken := v.room.woken - 1 }, rfl, by rw [after_look, if_pos hwoken]⟩

theorem look_of_killed {v : Vigil} (h : v.room.completion.killed = true) {e : WaitEvent}
    (he : e = .wait ∨ e = .look ∧ 0 < v.room.woken) :
    (v.after (.whole e)).ended = .killed :: v.ended ∧
      (v.after (.whole e)).room.completion = { v.room.completion with killed := false } := by
  obtain ⟨room, hroom, hafter⟩ := exists_looked he
  rw [← hroom] at h ⊢
  rw [hafter, looked]
  rcases look_cases room with ⟨-, hlook⟩ | ⟨hnone, -⟩ | ⟨hnone, -⟩
  · rw [hlook]
    exact ⟨rfl, rfl⟩
  · rw [h] at hnone
    cases hnone
  · rw [h] at hnone
    cases hnone

theorem look_of_done {v : Vigil} (hcalm : v.room.completion.killed = false)
    (hdone : 0 < v.room.completion.done) {e : WaitEvent} (he : e = .wait ∨ e = .look ∧ 0 < v.room.woken) :
    (v.after (.whole e)).ended = .completed :: v.ended ∧
      (v.after (.whole e)).room.completion =
        { v.room.completion with done := v.room.completion.done - 1 } := by
  obtain ⟨room, hroom, hafter⟩ := exists_looked he
  rw [← hroom] at hcalm hdone ⊢
  rw [hafter, looked]
  rcases look_cases room with ⟨hkilled, -⟩ | ⟨-, -, hlook⟩ | ⟨-, hnone, -⟩
  · rw [hcalm] at hkilled
    cases hkilled
  · rw [hlook]
    exact ⟨rfl, rfl⟩
  · omega

/-! ## Runs -/

theorem killing_run (v : Vigil) (events : List Event) :
    (v.run events).killing ≤ v.killing + events.count .mark := by
  induction events generalizing v with
  | nil => exact Nat.le_refl _
  | cons e events ih =>
    apply Nat.le_trans (ih (v.after e))
    rw [List.count_cons]
    cases e with
    | whole e => simp [after]
    | mark =>
      simp only [after, beq_self_eq_true, if_true]
      omega
    | rouse =>
      rw [after_rouse]
      split
      · simp only [roused]
        omega
      · omega

structure Faithful (events : List Event) (v : Vigil) : Prop where
  completed : v.ended.count .completed ≤ events.countP Event.isComplete
  killed : v.ended.count .killed ≤ events.countP Event.isKill
  kept : v.room.completion.killed = true → ∀ more, more.any Event.isLook = false →
    (v.run more).room.completion.killed = true ∧
    ∀ e, (e = .wait ∨ e = .look ∧ 0 < (v.run more).room.woken) →
      ((v.run more).after (.whole e)).ended = .killed :: (v.run more).ended ∧
      ((v.run more).after (.whole e)).room.completion =
        { (v.run more).room.completion with killed := false }
  counted : (v.after (.whole .complete)).room.completion =
    { v.room.completion with done := min (v.room.completion.done + 1) (UInt32.size - 1) }
  taken : v.room.completion.killed = false → 0 < v.room.completion.done →
    ∀ e, (e = .wait ∨ e = .look ∧ 0 < v.room.woken) →
      (v.after (.whole e)).ended = .completed :: v.ended ∧
      (v.after (.whole e)).room.completion = { v.room.completion with done := v.room.completion.done - 1 }
  /-- Nobody sleeps on a signal, unless somebody who will wake the sleepers or look himself has yet to
  run. -/
  awake : 0 < v.room.blocked → v.room.woken = 0 → v.killing = 0 →
    v.room.completion.done = 0 ∧ v.room.completion.killed = false
  underWay : v.killing ≤ events.count .mark

/-- Whatever happens at a completion, it loses no signal and makes none up. -/
theorem run_faithful (events : List Event) : Faithful events (run {} events) := by
  have hstart : Sound {} 0 0 := ⟨Nat.le_refl 0, Nat.le_refl 0, fun hsleeps => absurd hsleeps (by decide)⟩
  have hsound := hstart.run events
  rw [Nat.zero_add, Nat.zero_add] at hsound
  obtain ⟨hcompleted, hkills, hawake⟩ := hsound
  have hunderWay := killing_run {} events
  rw [Nat.zero_add] at hunderWay
  refine ⟨by omega, by omega, ?_, rfl, fun hcalm hdone _ => look_of_done hcalm hdone, ?_, hunderWay⟩
  · intro hkilled more hmore
    have hstill := killed_run hkilled hmore
    exact ⟨hstill, fun e he => look_of_killed hstill he⟩
  · intro hsleeps hwoken hnone
    obtain ⟨hcalm, hless⟩ := hawake hsleeps hnone
    exact ⟨by omega, hcalm⟩

/-- A woken waiter takes the kill and leaves a completion to the other sleeper, whom the kill has yet to
wake. -/
example : (run {} [.whole .wait, .whole .wait, .whole .complete, .mark, .whole .look]) =
    { room := { completion := { done := 1 }, blocked := 1 }, killing := 1, ended := [.killed] } := by
  decide

end Vigil

end FpgaCard
