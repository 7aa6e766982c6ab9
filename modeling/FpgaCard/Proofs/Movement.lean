import FpgaCard.Proofs.Fitted
import FpgaCard.Proofs.Memory

/-!
# What a transfer moves

A transfer between the start of the buffer and card memory, with anything that may come between its
steps but a write to that memory from outside. Main statement: it moves the bytes it was asked for, as
many as one transfer takes, and then succeeds; or it fails, with nothing moved unless it was killed.
-/

namespace FpgaCard

open Simulation

theorem Transfer.Sound.step_like {t : Transfer} {c : Channel Rig} (h : t.Sound c) :
    c.engine.Like (t.step c).2.engine := by
  cases hstage : t.stage with
  | check => rw [t.step_check c hstage]; exact .refl _
  | give => rw [t.step_give c hstage]; exact .refl _
  | inspect =>
    obtain ⟨-, _, _, hstep⟩ | ⟨-, -, _, _, hstep⟩ | ⟨-, -, _, _, hstep⟩ := t.step_inspect c hstage <;>
      rw [hstep] <;> exact .refl _
  | arm => rw [t.step_arm c hstage]; exact ⟨_, _, rfl⟩
  | enter => rw [t.step_enter c hstage]; exact .refl _
  | program =>
    rw [t.step_program c hstage]
    obtain ⟨_, _, _, _, _, -, -, -, -, -, ⟨-, -, hprogram⟩ | ⟨-, hprogram⟩⟩ := h.program_cases hstage <;>
      rw [hprogram] <;> exact .refl _
  | await =>
    obtain ⟨-, _, hstep⟩ | ⟨-, -, hstep⟩ | ⟨-, -, hstep⟩ := t.step_await c hstage <;>
      rw [hstep] <;> exact ⟨_, _, rfl⟩
  | take => rw [t.step_take c hstage]; exact .refl _
  | conclude =>
    obtain ⟨_, hstep⟩ := t.step_conclude c hstage
    rw [hstep]
    exact .refl _

/-! ## A transfer on its way -/

/-- What a transfer was asked for, and what stood in memory and in the host's view of the buffer
before it. -/
structure Errand where
  start : UInt64
  count : Nat
  direction : Direction
  memory : Memory
  view : Memory

structure Errand.Untouched (q : Errand) (c : Card) (b : HostBuffer) : Prop where
  memory : c.memory = q.memory
  view : b.hostView = q.view

/-- The bytes were moved, or the error bits say that they were not. What was read is in `view`. -/
structure Errand.Delivered (q : Errand) (n : Nat) (c : Card) (view : Memory) : Prop where
  written : q.direction = .toDevice → c.memory =
    if c.status &&& Status.errors = 0 then q.memory.write q.start (q.view.read 0 n) else q.memory
  kept : q.direction = .fromDevice → c.memory = q.memory
  filled : q.direction = .fromDevice → c.status &&& Status.errors = 0 →
    view.read 0 n = q.memory.read q.start n

/-- Where the bytes stand before each stage. -/
def Errand.Stands (q : Errand) (n : Nat) (c : Card) (b : HostBuffer) : Stage → Prop
  | .check => q.Untouched c b
  | .give => q.Untouched c b
  | .inspect => q.Untouched c b ∧ (q.direction = .toDevice → b.cardView = q.view)
  | .arm => q.Untouched c b ∧ (q.direction = .toDevice → b.cardView = q.view)
  | .enter => q.Untouched c b ∧ (q.direction = .toDevice → b.cardView = q.view)
  | .program => q.Untouched c b ∧ (q.direction = .toDevice → b.cardView = q.view)
  | .await => q.Delivered n c b.cardView
  | .take => q.Delivered n c b.cardView
  | .conclude => q.Delivered n c b.hostView

/-- A transfer on its way, on an engine that was like `e` when it began. -/
structure Errand.Underway (q : Errand) (e : Engine) (t : Transfer) (c : Channel Rig) : Prop where
  sound : t.Sound c
  like : e.Like c.engine
  start : t.start = q.start
  direction : t.direction = q.direction
  unchecked : t.stage = .check → t.count = q.count
  checked : t.stage ≠ .check → t.count = min q.count e.maxTransfer ∧ t.count % e.alignment = 0
  stands : ∃ b, c.card.buffer = some b ∧ q.Stands t.count c.card b t.stage

namespace Errand

variable {q : Errand} {n : Nat} {c c' : Card} {b : HostBuffer}

theorem Stands.same {stage : Stage} (h : q.Stands n c b stage) (hmemory : c'.memory = c.memory)
    (herrors : c'.status &&& Status.errors = c.status &&& Status.errors) : q.Stands n c' b stage := by
  have huntouched (h : q.Untouched c b) : q.Untouched c' b := ⟨by rw [hmemory, h.memory], h.view⟩
  have hcarried {view : Memory} (h : q.Delivered n c view) : q.Delivered n c' view := by
    refine ⟨?_, ?_, ?_⟩
    · rw [hmemory, herrors]
      exact h.written
    · rw [hmemory]
      exact h.kept
    · rw [herrors]
      exact h.filled
  cases stage with
  | check => exact huntouched h
  | give => exact huntouched h
  | inspect => exact ⟨huntouched h.1, h.2⟩
  | arm => exact ⟨huntouched h.1, h.2⟩
  | enter => exact ⟨huntouched h.1, h.2⟩
  | program => exact ⟨huntouched h.1, h.2⟩
  | await => exact hcarried h
  | take => exact hcarried h
  | conclude => exact hcarried h

end Errand

namespace Errand.Underway

variable {q : Errand} {e : Engine} {t : Transfer} {c : Channel Rig}

theorem act (h : q.Underway e t c) (d : Disturbance) (hspares : (Move.disturb d).sparesMemory = true) :
    q.Underway e t (d.act c) := by
  have hspared := d.act_spared c
  obtain ⟨b, hb, hstands⟩ := h.stands
  refine ⟨h.sound.act d, h.like.trans hspared.engine, h.start, h.direction, h.unchecked, h.checked, b,
    ?_, hstands.same (d.act_memory c hspares) hspared.errors⟩
  rw [hspared.buffer, hb]

theorem goto (h : q.Underway e t c) (hchecked : t.stage ≠ .check) {stage : Stage} {c' : Channel Rig}
    (hstage : stage ≠ .check) (hsound : Transfer.Sound { t with stage } c') (hlike : e.Like c'.engine)
    (hstands : ∃ b, c'.card.buffer = some b ∧ q.Stands t.count c'.card b stage) :
    q.Underway e { t with stage } c' :=
  ⟨hsound, hlike, h.start, h.direction, fun hcheck => absurd hcheck hstage, fun _ => h.checked hchecked,
    hstands⟩

theorem stands_program (h : q.Underway e t c) (hstage : t.stage = .program) :
    ∃ b, (t.program c).card.buffer = some b ∧ q.Stands t.count (t.program c).card b .await := by
  obtain ⟨b₀, errors, memory, buffer, card, hb₀, -, -, hcarried, ⟨w, rfl⟩, hprogram⟩ :=
    h.sound.program_cases hstage
  obtain ⟨b, hb, hstands⟩ := h.stands
  obtain rfl : b₀ = b := by rw [hb₀] at hb; cases hb; rfl
  rw [hstage] at hstands
  obtain ⟨⟨hmemory, -⟩, hgiven⟩ := hstands
  have hhealthy := h.sound.healthy (.inr (.inr hstage))
  have herrors := hcarried.errors_eq h.sound.fitted.injected
  have hcard : (t.program c).card.buffer = some buffer ∧ (t.program c).card.memory = memory ∧
      (t.program c).card.status &&& Status.errors = errors := by
    obtain ⟨-, -, hprogram⟩ | ⟨-, hprogram⟩ := hprogram <;> rw [hprogram] <;>
      exact ⟨rfl, rfl, by simp [hhealthy, herrors]⟩
  obtain ⟨hbuffer, hmemory', hstatus⟩ := hcard
  rw [h.direction, hmemory, h.start] at hcarried
  refine ⟨buffer, hbuffer, ?_, ?_, ?_⟩
  · intro hdirection
    rw [hdirection] at hcarried
    rw [hstatus, hmemory']
    cases hcarried with
    | fault _ hfault => rw [if_neg hfault]
    | inside => rw [if_neg (by decide)]
    | toDevice => rw [if_pos rfl, hgiven hdirection]
  · intro hdirection
    rw [hdirection] at hcarried
    rw [hmemory']
    cases hcarried <;> rfl
  · intro hdirection hclean
    rw [hdirection] at hcarried
    rw [hstatus] at hclean
    cases hcarried with
    | fault _ hfault => exact absurd hclean hfault
    | inside => exact absurd hclean (by decide)
    | fromDevice =>
      have hengine := h.sound.fitted.engine
      have hmax := (h.sound.count (by simp [hstage])).2
      have htop : (q.memory.read q.start t.count).length ≤ 2 ^ 64 := by
        have := hengine.maxTransfer
        have := hengine.size
        simp only [Memory.length_read]
        omega
      have hread := b₀.cardView.read_write_self 0 _ htop
      rwa [Memory.length_read] at hread

theorem step (h : q.Underway e t c) {t' : Transfer} (h' : (t.step c).1.rest? = some t') :
    q.Underway e t' (t.step c).2 := by
  have hsound := h.sound.step.2 t' h'
  have hlike := h.like.trans h.sound.step_like
  obtain ⟨b, hb, hstands⟩ := h.stands
  cases hstage : t.stage with
  | check =>
    rw [hstage] at hstands
    rw [t.step_check c hstage] at h' hsound hlike ⊢
    obtain ⟨error, hcheck⟩ | ⟨-, haligned, hcheck⟩ := t.check_cases c.engine
    · rw [hcheck] at h'
      cases h'
    · rw [hcheck] at h'
      cases h'
      rw [h.unchecked hstage, h.like.alignment, h.like.maxTransfer] at haligned
      refine ⟨hsound, hlike, h.start, h.direction, (fun hcheck => by cases hcheck), fun _ => ?_, b, hb,
        hstands⟩
      rw [h.unchecked hstage, h.like.maxTransfer]
      exact ⟨rfl, haligned⟩
  | give =>
    rw [hstage] at hstands
    rw [t.step_give c hstage] at h' hsound hlike ⊢
    cases h'
    refine h.goto (by simp [hstage]) (by simp) hsound hlike
      ⟨b.give t.direction, by simp [hb], ⟨hstands.memory, ?_⟩, fun hdirection => ?_⟩
    · cases t.direction <;> exact hstands.view
    · rw [h.direction, hdirection]
      exact hstands.view
  | inspect =>
    rw [hstage] at hstands
    obtain ⟨huntouched, hgiven⟩ := hstands
    have hmemory := huntouched.memory
    obtain ⟨-, w, r, hstep⟩ | ⟨-, -, w, r, hstep⟩ | ⟨-, -, w, r, hstep⟩ := t.step_inspect c hstage
    · rw [hstep] at h' hsound hlike ⊢
      cases h'
      exact h.goto (by simp [hstage]) (by simp) hsound hlike ⟨b, hb, ⟨hmemory, huntouched.view⟩, hgiven⟩
    · rw [hstep] at h' hsound hlike ⊢
      cases h'
      exact h.goto (by simp [hstage]) (by simp) hsound hlike ⟨b, hb, ⟨hmemory, huntouched.view⟩, hgiven⟩
    · rw [hstep] at h'
      cases h'
  | arm =>
    rw [hstage] at hstands
    rw [t.step_arm c hstage] at h' hsound hlike ⊢
    cases h'
    exact h.goto (by simp [hstage]) (by simp) hsound hlike ⟨b, hb, hstands⟩
  | enter =>
    rw [hstage] at hstands
    rw [t.step_enter c hstage] at h' hsound hlike ⊢
    cases hclosed : c.engine.closed with
    | true =>
      rw [hclosed] at h'
      cases h'
    | false =>
      rw [hclosed] at h'
      cases h'
      exact h.goto (by simp [hstage]) (by simp) hsound hlike ⟨b, hb, hstands⟩
  | program =>
    rw [t.step_program c hstage] at h' hsound hlike ⊢
    cases h'
    exact h.goto (by simp [hstage]) (by simp) hsound hlike (h.stands_program hstage)
  | await =>
    rw [hstage] at hstands
    obtain ⟨-, _, hstep⟩ | ⟨-, -, hstep⟩ | ⟨-, -, hstep⟩ := t.step_await c hstage
    · rw [hstep] at h'
      cases h'
    · rw [hstep] at h' hsound hlike ⊢
      cases h'
      exact h.goto (by simp [hstage]) (by simp) hsound hlike ⟨b, hb, hstands⟩
    · rw [hstep] at h' ⊢
      cases h'
      exact h
  | take =>
    rw [hstage] at hstands
    rw [t.step_take c hstage] at h' hsound hlike ⊢
    cases h'
    refine h.goto (by simp [hstage]) (by simp) hsound hlike
      ⟨b.take t.direction, by simp [hb], hstands.written, hstands.kept, fun hdirection => ?_⟩
    rw [h.direction, hdirection]
    exact hstands.filled hdirection
  | conclude =>
    obtain ⟨_, hstep⟩ := t.step_conclude c hstage
    rw [hstep] at h'
    cases h'

end Errand.Underway

/-! ## The end of a transfer -/

def Errand.Done (q : Errand) (e : Engine) (c : Channel Rig) : Except CardError Nat → Prop
  | .ok n =>
    n = min q.count e.maxTransfer ∧ 0 < n ∧ n % e.alignment = 0 ∧
    match q.direction with
    | .toDevice => c.card.memory = q.memory.write q.start (q.view.read 0 n)
    | .fromDevice => c.card.memory = q.memory ∧
        ∃ b, c.card.buffer = some b ∧ b.hostView.read 0 n = q.memory.read q.start n
  | .error error =>
    c.card.memory = q.memory ∨ error = .transferKilled ∧ q.direction = .toDevice ∧
      c.card.memory = q.memory.write q.start (q.view.read 0 (min q.count e.maxTransfer))

namespace Errand

variable {q : Errand} {e : Engine} {t : Transfer} {c : Channel Rig}

theorem Underway.done (h : q.Underway e t c) {r : Except CardError Nat}
    (h' : (t.step c).1 = .finished r) : q.Done e (t.step c).2 r := by
  obtain ⟨b, hb, hstands⟩ := h.stands
  cases hstage : t.stage with
  | check =>
    rw [hstage] at hstands
    rw [t.step_check c hstage] at h' ⊢
    obtain ⟨error, hcheck⟩ | ⟨-, -, hcheck⟩ := t.check_cases c.engine
    · rw [hcheck] at h'
      cases h'
      exact .inl hstands.memory
    · rw [hcheck] at h'
      cases h'
  | give => simp [t.step_give c hstage, Transfer.goto] at h'
  | inspect =>
    rw [hstage] at hstands
    obtain ⟨-, w, r, hstep⟩ | ⟨-, -, w, r, hstep⟩ | ⟨-, -, w, r, hstep⟩ := t.step_inspect c hstage
    · simp [hstep, Transfer.goto] at h'
    · simp [hstep, Transfer.goto] at h'
    · rw [hstep] at h' ⊢
      cases h'
      exact .inl hstands.1.memory
  | arm => simp [t.step_arm c hstage, Transfer.goto] at h'
  | enter =>
    rw [hstage] at hstands
    rw [t.step_enter c hstage] at h' ⊢
    cases hclosed : c.engine.closed with
    | true =>
      rw [hclosed] at h'
      cases h'
      exact .inl hstands.1.memory
    | false =>
      rw [hclosed] at h'
      cases h'
  | program => simp [t.step_program c hstage, Transfer.goto] at h'
  | await =>
    rw [hstage] at hstands
    obtain ⟨-, _, hstep⟩ | ⟨-, -, hstep⟩ | ⟨-, -, hstep⟩ := t.step_await c hstage
    · rw [hstep] at h' ⊢
      cases h'
      cases hdirection : q.direction with
      | toDevice =>
        have hwritten := hstands.written hdirection
        rw [(h.checked (by simp [hstage])).1] at hwritten
        split at hwritten
        · exact .inr ⟨rfl, hdirection, hwritten⟩
        · exact .inl hwritten
      | fromDevice => exact .inl (hstands.kept hdirection)
    · simp [hstep, Transfer.goto] at h'
    · simp [hstep] at h'
  | take => simp [t.step_take c hstage, Transfer.goto] at h'
  | conclude =>
    rw [hstage] at hstands
    obtain ⟨hcount, haligned⟩ := h.checked (by simp [hstage])
    have hpos := (h.sound.count (by simp [hstage])).1
    obtain ⟨w, hstep⟩ := t.step_conclude c hstage
    rw [hstep] at h' ⊢
    cases herrors : anySet c.card.status Status.errors with
    | true =>
      rw [herrors] at h'
      cases h'
      have hfault : ¬ c.card.status &&& Status.errors = 0 := by
        rw [← anySet_eq_false, herrors]
        decide
      left
      cases hdirection : q.direction with
      | toDevice =>
        have hwritten := hstands.written hdirection
        rwa [if_neg hfault] at hwritten
      | fromDevice => exact hstands.kept hdirection
    | false =>
      rw [herrors] at h'
      cases h'
      have hclean := (anySet_eq_false _ _).1 herrors
      refine ⟨hcount, hpos, haligned, ?_⟩
      cases hdirection : q.direction with
      | toDevice =>
        have hwritten := hstands.written hdirection
        rwa [if_pos hclean] at hwritten
      | fromDevice => exact ⟨hstands.kept hdirection, b, hb, hstands.filled hdirection hclean⟩

theorem underway_of_check (t : Transfer) (hc : Fitted c) (hlike : e.Like c.engine) {b : HostBuffer}
    (hb : c.card.buffer = some b) (ht : t.stage = .check) :
    Underway ⟨t.start, t.count, t.direction, c.card.memory, b.hostView⟩ e t c := by
  refine ⟨.of_check hc ht, hlike, rfl, rfl, fun _ => rfl, fun hchecked => absurd ht hchecked, b, hb, ?_⟩
  rw [ht]
  exact ⟨rfl, rfl⟩

end Errand

theorem drive_transfer {c c' : Channel Rig} (hc : Fitted c) {b : HostBuffer}
    (hb : c.card.buffer = some b) {start : UInt64} {count : Nat} {direction : Direction}
    {moves : List Move} (hmoves : moves.all Move.sparesMemory = true) {r : Except CardError Nat}
    (h : drive Transfer.step moves { start, count, direction } c = (.finished r, c')) :
    Fitted c' ∧ c.engine.Like c'.engine ∧
      Errand.Done ⟨start, count, direction, c.card.memory, b.hostView⟩ c.engine c' r := by
  let t : Transfer := { start, count, direction }
  let q : Errand := ⟨start, count, direction, c.card.memory, b.hostView⟩
  have hstart : q.Underway c.engine t c := Errand.underway_of_check t hc (.refl _) hb rfl
  exact drive_spec (q.Underway c.engine)
    (fun r c' => Fitted c' ∧ c.engine.Like c'.engine ∧ q.Done c.engine c' r)
    (fun _ _ d hinv hspares => hinv.act d hspares) (fun _ _ _ hinv hrest => hinv.step hrest)
    (fun _ _ _ hinv hend => ⟨hinv.sound.step.1, hinv.like.trans hinv.sound.step_like, hinv.done hend⟩)
    hstart hmoves h

end FpgaCard
