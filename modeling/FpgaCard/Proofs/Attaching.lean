import FpgaCard.Proofs.Boards
import FpgaCard.Proofs.Driver
import FpgaCard.Proofs.TableFormat
import FpgaCard.Proofs.TableSources
import FpgaCard.Proofs.Usable

/-!
# What attaching does to a card

A board is attached in steps: the survey of the table, the checks of the buffer, the reset of the
controller. Main statement: only the reset touches the controller, so a card is left alone by every failure
but that of the reset itself, whose one write is all that is added to the log.
-/

namespace FpgaCard

open Simulation

/-! ## The survey -/

theorem Table.isTableError_of_carried {bytes : List UInt8} {e : CardError} (h : carried bytes = .error e) :
    e.isTableError = true := by
  unfold carried at h
  split at h
  · obtain ⟨e', hviolation⟩ | ⟨n, haccepted⟩ := violation_or_accepted (bytes.take windowSize)
    · rw [ofBytes_of_violation hviolation] at h
      cases h
      cases hviolation <;> rfl
    · rw [ofBytes_of_accepted haccepted] at h
      cases h
  · obtain ⟨t, hload, -⟩ := exists_loadBuiltIn
    rw [hload] at h
    cases h

namespace Board

structure Checked (b : Board) (number : Nat) (settings : Settings) (rig : Rig) : Prop where
  table : Table.carried (rig.card.table.getD []) = .ok b.table
  nodes : b.table.nodeCount ≤ settings.maxNodes
  layout : Layout.ofTable b.table number = .ok b.layout

theorem survey_cases (number : Nat) (registers : RegisterSpace) (settings : Settings) (rig : Rig) :
    (∃ e, (survey number registers settings).run rig = (.error e, rig) ∧ e.isTableError = true) ∨
    ∃ b, (survey number registers settings).run rig = (.ok b, rig) ∧ b.Checked number settings rig ∧
      b.hasEngine = b.table.hasRegions := by
  rw [survey_eq]
  cases hcarried : Table.carried (rig.card.table.getD []) with
  | error e => exact .inl ⟨e, rfl, Table.isTableError_of_carried hcarried⟩
  | ok table =>
    obtain ⟨reason, hrefused⟩ | ⟨hfew, layout, hlayout, hmade⟩ :=
      ofTable_cases number registers settings table
    · rw [Except.bind, hrefused]
      exact .inl ⟨_, rfl, rfl⟩
    · rw [Except.bind, hmade]
      exact .inr ⟨_, rfl, ⟨hcarried, hfew, hlayout⟩, rfl⟩

end Board

/-! ## The engine -/

theorem Channel.start_cases (rig : Rig) (address : UInt64) (size : Nat) (settings : DmaSettings)
    (timeout : Nat) :
    (∃ reason, start rig address size settings timeout = (.error (.invalidConfig reason), rig)) ∨
    (∃ rig', start rig address size settings timeout = (.error (.resetTimeout timeout), rig') ∧
      rig'.card.writes = rig.card.writes.push (Register.control, Control.reset)) ∨
    ∃ engine rig', start rig address size settings timeout = (.ok engine, rig') ∧
      rig'.card.writes = (rig.card.writes.push (Register.control, Control.reset)).push
        (Register.control, Control.bothInterrupts) := by
  unfold start
  obtain ⟨reason, hrefused⟩ | ⟨-, -, -, hmade⟩ := Engine.configure_cases address size settings timeout
  · rw [hrefused]
    exact .inl ⟨reason, rfl⟩
  rw [hmade]
  obtain ⟨-, r, hreset⟩ | ⟨-, r, hreset⟩ :=
    (Channel.mk (Engine.candidate address size settings timeout) rig).reset_logged
  · simp only [hreset]
    exact .inr (.inr ⟨_, _, rfl, rfl⟩)
  · simp only [hreset]
    exact .inr (.inl ⟨_, rfl, rfl⟩)

/-! ## Attaching -/

namespace Board

theorem attach_ends (parts : Parts) (settings : Settings) (rig : Rig) :
    (∃ e, attach parts settings rig = (.error e, rig) ∧ ∀ timeout, e ≠ .resetTimeout timeout) ∨
    (∃ timeout rig', attach parts settings rig = (.error (.resetTimeout timeout), rig') ∧
      rig'.card.writes = rig.card.writes.push (Register.control, Control.reset)) ∨
    ∃ b engine rig', attach parts settings rig = (.ok (b, engine), rig') ∧
      b.Checked parts.number settings rig ∧ (b.table.hasRegions = false → rig' = rig) ∧
      (b.table.hasRegions = true →
        rig'.card.writes = (rig.card.writes.push (Register.control, Control.reset)).push
          (Register.control, Control.bothInterrupts)) := by
  obtain ⟨e, surveyed, hsurvey, hattach⟩ | ⟨b, surveyed, hsurvey, hattach⟩ := attach_cases parts settings rig
  · obtain ⟨e', hfailed, htable⟩ | ⟨b, hmade, -⟩ :=
      survey_cases parts.number parts.registers settings rig
    · rw [hfailed] at hsurvey
      cases hsurvey
      refine .inl ⟨e, hattach, ?_⟩
      rintro timeout rfl
      cases htable
    · rw [hmade] at hsurvey
      cases hsurvey
  · obtain ⟨e', hfailed, -⟩ | ⟨b', hmade, hchecked, hengine⟩ :=
      survey_cases parts.number parts.registers settings rig
    · rw [hfailed] at hsurvey
      cases hsurvey
    rw [hmade] at hsurvey
    cases hsurvey
    -- The survey has left the card alone: what is written from here on is written by the start.
    rw [hengine] at hattach
    obtain ⟨hnone, hattach⟩ | ⟨-, -, reason, hattach⟩ | ⟨hsome, buffer, -, started, rig', hstart, hattach⟩ :=
      hattach
    · refine .inr (.inr ⟨b, none, rig, hattach, hchecked, fun _ => rfl, ?_⟩)
      rw [hnone]
      nofun
    · exact .inl ⟨_, hattach, nofun⟩
    · obtain ⟨reason, hend⟩ | ⟨rig'', hend, hwrites⟩ | ⟨engine, rig'', hend, hwrites⟩ :=
        Channel.start_cases rig buffer.address buffer.size b.table.settings settings.resetTimeout
      all_goals
        rw [hend] at hstart
        cases hstart
      · exact .inl ⟨_, hattach, nofun⟩
      · exact .inr (.inl ⟨_, _, hattach, hwrites⟩)
      · refine .inr (.inr ⟨b, some engine, _, hattach, hchecked, ?_, fun _ => hwrites⟩)
        rw [hsome]
        nofun

/-- A failed attach leaves the card as it was, its log of writes and its count of reads included. A reset
that does not end has added its one write; an attach that succeeds has checked the table, and has added the
two writes of a reset if there are regions, and otherwise nothing. -/
theorem attach_untouched (parts : Parts) (settings : Settings) (rig : Rig) :
    (∀ e, (attach parts settings rig).1 = .error e → (∀ timeout, e ≠ .resetTimeout timeout) →
      (attach parts settings rig).2 = rig) ∧
    (∀ timeout, (attach parts settings rig).1 = .error (.resetTimeout timeout) →
      (attach parts settings rig).2.card.writes =
        rig.card.writes.push (Register.control, Control.reset)) ∧
    ∀ b engine, (attach parts settings rig).1 = .ok (b, engine) → b.Checked parts.number settings rig ∧
      (b.table.hasRegions = false → (attach parts settings rig).2 = rig) ∧
      (b.table.hasRegions = true → (attach parts settings rig).2.card.writes =
        (rig.card.writes.push (Register.control, Control.reset)).push
          (Register.control, Control.bothInterrupts)) := by
  obtain ⟨e, hattach, hne⟩ | ⟨timeout, rig', hattach, hwrites⟩ | ⟨b, engine, rig', hattach, hdone⟩ :=
    attach_ends parts settings rig
  · rw [hattach]
    refine ⟨fun _ _ _ => rfl, ?_, nofun⟩
    intro timeout hend
    cases hend
    exact absurd rfl (hne timeout)
  · rw [hattach]
    refine ⟨?_, fun _ _ => hwrites, nofun⟩
    intro e hend hne
    cases hend
    exact absurd rfl (hne timeout)
  · rw [hattach]
    refine ⟨nofun, nofun, ?_⟩
    intro _ _ hend
    cases hend
    exact hdone

/-- The built-in table without a buffer, on a stuck card and on a sound one; and a table of a device alone. -/
theorem attach_untouched_builtIn :
    let parts (buffer : Option BufferSpan) : Parts := { number := 0, registers := ⟨none⟩, buffer }
    let page : BufferSpan := { address := 0x1000, size := 4096 }
    let sound : Rig := {}
    let stuck : Rig := { card := { stuck := true } }
    let bare : Rig :=
      { card := { table := some [0x44, 0x49, 0x41, 0x47, 1, 1, 4, 0x73, 0x69, 0x6d, 0, 0, 3, 0, 8, 0x8e] } }
    ((attach (parts none) {} sound).1 = .error (.invalidArgument "DMA regions need a host buffer") ∧
      (attach (parts none) {} sound).2 = sound) ∧
    ((attach (parts page) {} stuck).1 = .error (.resetTimeout 1000) ∧
      (attach (parts page) {} stuck).2.card.writes = #[(Register.control, Control.reset)]) ∧
    (∃ b engine, (attach (parts page) {} sound).1 = .ok (b, engine) ∧ b.Checked 0 {} sound ∧
      b.table.hasRegions = true ∧ (attach (parts page) {} sound).2.card.writes =
        #[(Register.control, Control.reset), (Register.control, Control.bothInterrupts)]) ∧
    ∃ b engine, (attach (parts none) {} bare).1 = .ok (b, engine) ∧ b.Checked 0 {} bare ∧
      b.table.hasRegions = false ∧ (attach (parts none) {} bare).2 = bare := by
  intro parts page sound stuck bare
  have herror {made : Except CardError (Board × Option Engine)} {e : CardError}
      (h : made.map (·.1.table.hasRegions) = .error e) : made = .error e := by
    cases made <;> cases h
    rfl
  have hlacking : (attach (parts none) {} sound).1 =
      .error (.invalidArgument "DMA regions need a host buffer") := herror (by decide +kernel)
  have hstuck : (attach (parts page) {} stuck).1 = .error (.resetTimeout 1000) :=
    herror (by decide +kernel)
  have hmade : (attach (parts page) {} sound).1.map (·.1.table.hasRegions) = .ok true := by decide +kernel
  obtain ⟨hleft, -, -⟩ := attach_untouched (parts none) {} sound
  obtain ⟨-, hreset, -⟩ := attach_untouched (parts page) {} stuck
  obtain ⟨-, -, hbrought⟩ := attach_untouched (parts page) {} sound
  refine ⟨⟨hlacking, hleft _ hlacking nofun⟩, ⟨hstuck, hreset _ hstuck⟩, ?_, ?_⟩
  · cases hend : (attach (parts page) {} sound).1 with
    | error e =>
      rw [hend] at hmade
      cases hmade
    | ok made =>
      rw [hend] at hmade
      obtain ⟨hchecked, -, hwrites⟩ := hbrought made.1 made.2 hend
      have hregions := Except.ok.inj hmade
      exact ⟨made.1, made.2, rfl, hchecked, hregions, hwrites hregions⟩
  · have hmade : ((Table.carried (bare.card.table.getD [])).bind (ofTable 0 ⟨none⟩ {})).map
        (fun b => (b.hasEngine, b.table.hasRegions)) = .ok (false, false) := by decide +kernel
    have hsurvey := survey_eq 0 ⟨none⟩ {} bare
    cases hboard : (Table.carried (bare.card.table.getD [])).bind (ofTable 0 ⟨none⟩ {}) with
    | error e =>
      rw [hboard] at hmade
      cases hmade
    | ok b =>
      rw [hboard] at hmade hsurvey
      obtain ⟨hengine, hregions⟩ := Prod.mk.inj (Except.ok.inj hmade)
      have hattach : attach (parts none) {} bare = (.ok (b, none), bare) := attach_of_survey hsurvey hengine
      have hok := congrArg Prod.fst hattach
      obtain ⟨hchecked, hsame, -⟩ := (attach_untouched (parts none) {} bare).2.2 b none hok
      exact ⟨b, none, hok, hchecked, hregions, hsame hregions⟩

end Board

end FpgaCard
