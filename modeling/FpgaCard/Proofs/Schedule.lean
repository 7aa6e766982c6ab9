import FpgaCard.Proofs.Accesses
import FpgaCard.Proofs.Boards
import FpgaCard.Proofs.RegionWrite

/-!
# What the program does by itself

Making a board leaves a card that is attached in the sense of the runs, and an operation that is taken
on until it ends or waits is driven by moves of its own: its steps, and the interrupts that have come.
-/

namespace FpgaCard

open Simulation

/-! ## Making a board -/

/-- What hardware can come to by the actions through which a card is driven. -/
inductive Hardware.Reaches {σ : Type} [Hardware σ] (s : σ) : σ → Prop
  | here : Reaches s s
  | load {s' : σ} (bar : Bar) (offset : Nat) :
      Reaches s s' → Reaches s ((Hardware.load bar offset).run s').2
  | store {s' : σ} (bar : Bar) (offset : Nat) (value : UInt32) :
      Reaches s s' → Reaches s ((Hardware.store bar offset value).run s').2
  | giveBuffer {s' : σ} (direction : Direction) :
      Reaches s s' → Reaches s ((Hardware.giveBuffer direction).run s').2
  | takeBuffer {s' : σ} (direction : Direction) :
      Reaches s s' → Reaches s ((Hardware.takeBuffer direction).run s').2
  | poke {s' : σ} (offset : Nat) (bytes : List UInt8) :
      Reaches s s' → Reaches s ((Hardware.poke offset bytes).run s').2
  | takeInterrupts {s' : σ} : Reaches s s' → Reaches s ((Hardware.takeInterrupts).run s').2

section Reaches

variable {σ : Type} [Hardware σ] {s : σ}

theorem Hardware.Driven.reaches {allowed : Bar → Nat → Prop} {s' : σ} (h : Driven allowed s s') :
    Reaches s s' := by
  induction h with
  | here => exact .here
  | load _ _ ih => exact ih.load _ _
  | store _ value _ ih => exact ih.store _ _ value
  | giveBuffer direction _ ih => exact ih.giveBuffer direction
  | takeBuffer direction _ ih => exact ih.takeBuffer direction
  | poke offset bytes _ ih => exact ih.poke offset bytes
  | takeInterrupts _ ih => exact ih.takeInterrupts

end Reaches

theorem Board.attached_of_attach {parts : Parts} {settings : Settings} {rig rig' : Rig}
    {buffer : HostBuffer} {board : Board} {engine : Engine} (hbuffer : rig.card.buffer = some buffer)
    (hparts : parts.buffer = some { address := buffer.address, size := buffer.size })
    (hfault : rig.card.injected &&& Status.errors = rig.card.injected)
    (h : attach parts settings rig = (.ok (board, some engine), rig')) :
    Attached ⟨engine, { rig' with routed := true }⟩ := by
  let Kept (r : Rig) : Prop :=
    r.card.buffer = some buffer ∧ r.card.injected &&& Status.errors = r.card.injected
  have hload (offset : Nat) (r : Rig) (hr : Kept r) :
      Kept ((Hardware.load .control (Register.tableWindow + offset) : StateM Rig UInt32).run r).2 := by
    show Kept { r with card := (r.card.load _).2 }
    unfold Card.load
    split <;> exact hr
  have hkept : Kept ((survey parts.number parts.registers settings).run rig).2 :=
    Table.load_keeps Kept (fun offset r _ _ => hload offset r) ⟨hbuffer, hfault⟩
  obtain ⟨surveyed, hsurvey, hstart⟩ := start_of_attach hparts h
  rw [hsurvey] at hkept
  exact ⟨surveyed, rig', buffer, board.table.settings, settings.resetTimeout, engine, hkept.1, hkept.2,
    hstart, rfl⟩

/-! ## Moves of its own -/

/-- Whether a move needs nobody but the program and the card. -/
def Move.isOwn : Move → Bool
  | .step => true
  | .disturb .deliver => true
  | _ => false

theorem Move.sparesMemory_of_isOwn {m : Move} (h : m.isOwn = true) : m.sparesMemory = true := by
  cases m with
  | step => rfl
  | disturb d =>
    cases d with
    | bench p hp => cases h
    | _ => rfl

theorem Move.all_sparesMemory_of_isOwn {moves : List Move} (h : moves.all isOwn = true) :
    moves.all sparesMemory = true := by
  rw [List.all_eq_true] at h ⊢
  exact fun m hm => sparesMemory_of_isOwn (h m hm)

theorem drive_deliver {α β : Type} (step : α → Channel Rig → Progress α β × Channel Rig)
    (moves : List Move) (a : α) (c : Channel Rig) :
    drive step (List.replicate c.hardware.raised (.disturb .deliver) ++ moves) a c =
      drive step moves a c.deliver := by
  obtain ⟨engine, hardware⟩ := c
  obtain ⟨card, registers, routed, raised⟩ := hardware
  show _ = drive step moves a (Channel.interrupts raised _)
  induction raised generalizing engine card registers routed with
  | zero => rfl
  | succ n ih =>
    exact ih _ _ _ _

/-- Takes an operation on if it neither waits nor has ended. -/
def Progress.onward {α β : Type} (further : α → Channel Rig → Progress α β × Channel Rig) :
    Progress α β → Channel Rig → Progress α β × Channel Rig
  | .going a, c => further a c
  | .waiting a, c => (.waiting a, c)
  | .finished r, c => (.finished r, c)

theorem drive_of_advance {α β γ δ : Type} (step : α → Channel Rig → Progress α β × Channel Rig)
    (advance : Nat → α → Channel Rig → Progress α β × Channel Rig)
    (hzero : ∀ a c, advance 0 a c = (.going a, c))
    (hsucc : ∀ n a c,
      advance (n + 1) a c = (step a c.deliver).1.onward (advance n) (step a c.deliver).2)
    (outer : γ → Channel Rig → Progress γ δ × Channel Rig) (f : α → γ) (g : β → Progress γ δ)
    (houter : ∀ a c, outer (f a) c = ((step a c).1.lift f g, (step a c).2))
    (n : Nat) (a : α) (c : Channel Rig) :
    ∃ moves, moves.all Move.isOwn = true ∧ ∀ more, drive outer (moves ++ more) (f a) c =
      ((advance n a c).1.lift f g).drive outer more (advance n a c).2 := by
  induction n generalizing a c with
  | zero =>
    refine ⟨[], rfl, fun more => ?_⟩
    rw [hzero]
    rfl
  | succ n ih =>
    have hown (moves : List Move) (h : moves.all Move.isOwn = true) :
        (List.replicate c.hardware.raised (Move.disturb .deliver) ++ .step :: moves).all Move.isOwn =
          true := by
      simp [List.all_append, h, Move.isOwn]
    have hfirst (moves : List Move) :
        drive outer (List.replicate c.hardware.raised (.disturb .deliver) ++ .step :: moves) (f a) c =
          ((step a c.deliver).1.lift f g).drive outer moves (step a c.deliver).2 := by
      rw [drive_deliver, drive_step, houter]
    rw [hsucc]
    rcases hp : step a c.deliver with ⟨outcome, c'⟩
    cases outcome with
    | going a' =>
      obtain ⟨moves, hmoves, hdrive⟩ := ih a' c'
      refine ⟨_, hown moves hmoves, fun more => ?_⟩
      rw [List.append_assoc, List.cons_append, hfirst, hp]
      exact hdrive more
    | waiting a' =>
      refine ⟨_, hown [] rfl, fun more => ?_⟩
      rw [List.append_assoc, List.cons_append, hfirst, hp]
      rfl
    | finished r =>
      refine ⟨_, hown [] rfl, fun more => ?_⟩
      rw [List.append_assoc, List.cons_append, hfirst, hp]
      rfl

theorem Progress.lift_self {α β : Type} (p : Progress α β) : p.lift id .finished = p := by
  cases p <;> rfl

theorem Transfer.advance_succ (n : Nat) (t : Transfer) (c : Channel Rig) :
    advance (n + 1) t c = (step t c.deliver).1.onward (advance n) (step t c.deliver).2 := by
  rw [advance]
  rcases step t c.deliver with ⟨_ | _ | _, _⟩ <;> rfl

theorem Transfer.drive_resume (t : Transfer) (c : Channel Rig) :
    ∃ moves, moves.all Move.isOwn = true ∧ ∀ more,
      drive step (moves ++ more) t c = (t.resume c).1.drive step more (t.resume c).2 := by
  have hdrive := drive_of_advance step advance (fun _ _ => rfl) advance_succ step id .finished
    (fun t c => by rw [Progress.lift_self]; rfl) t.stage.remaining t c
  rwa [Progress.lift_self] at hdrive

theorem MemoryCall.advance_succ (n : Nat) (m : MemoryCall) (c : Channel Rig) :
    advance (n + 1) m c = (step m c.deliver).1.onward (advance n) (step m c.deliver).2 := by
  rw [advance]
  rcases step m c.deliver with ⟨_ | _ | _, _⟩ <;> rfl

theorem MemoryCall.drive_resume (m : MemoryCall) (c : Channel Rig) :
    ∃ moves, moves.all Move.isOwn = true ∧ ∀ more,
      drive step (moves ++ more) m c = (m.resume c).1.drive step more (m.resume c).2 := by
  have hdrive := drive_of_advance step advance (fun _ _ => rfl) advance_succ step id .finished
    (fun m c => by rw [Progress.lift_self]; rfl) m.remaining m c
  rwa [Progress.lift_self] at hdrive

theorem RegionCall.drive_resume (r : RegionCall) (c : Channel Rig) :
    ∃ moves, moves.all Move.isOwn = true ∧ ∀ more,
      drive step (moves ++ more) r c = (r.resume c).1.drive step more (r.resume c).2 := by
  suffices ∀ n (r : RegionCall) (c : Channel Rig), ∃ moves, moves.all Move.isOwn = true ∧ ∀ more,
      drive step (moves ++ more) r c = (advance n r c).1.drive step more (advance n r c).2 from
    this r.remaining r c
  intro n
  induction n with
  | zero => exact fun r c => ⟨[], rfl, fun _ => rfl⟩
  | succ n ih =>
    intro r c
    obtain ⟨moves, hmoves, hdrive⟩ := drive_of_advance MemoryCall.step MemoryCall.advance
      (fun _ _ => rfl) MemoryCall.advance_succ step (fun call => { r with call }) r.next
      (fun _ _ => rfl) r.call.remaining r.call c
    change ∀ more, _ = Progress.drive step more ((r.call.resume c).1.lift _ r.next) (r.call.resume c).2
      at hdrive
    rw [advance]
    simp only
    cases hp : (r.call.resume c).1.lift (fun call => { r with call }) r.next with
    | going r' =>
      obtain ⟨moves', hmoves', hdrive'⟩ := ih r' (r.call.resume c).2
      refine ⟨moves ++ moves', by rw [List.all_append, hmoves, hmoves']; rfl, fun more => ?_⟩
      rw [List.append_assoc, hdrive, hp]
      exact hdrive' more
    | waiting r' => exact ⟨moves, hmoves, fun more => by rw [hdrive, hp]⟩
    | finished result => exact ⟨moves, hmoves, fun more => by rw [hdrive, hp]⟩

end FpgaCard
