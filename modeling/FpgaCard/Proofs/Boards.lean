import FpgaCard.Board
import FpgaCard.Proofs.Nodes

/-!
# How boards are made

A board is surveyed first, which reads a table and lays out its nodes; then, for a table with regions, an
engine is started on the buffer among the parts. What comes of a board that is attached is said here once.
-/

namespace FpgaCard

namespace Board

theorem ofTable_cases (number : Nat) (registers : RegisterSpace) (settings : Settings) (table : Table) :
    (∃ reason, ofTable number registers settings table = .error (.invalidTable reason)) ∨
    (table.nodeCount ≤ settings.maxNodes ∧ ∃ layout, Layout.ofTable table number = .ok layout ∧
      ofTable number registers settings table =
        .ok { number, table, layout, registers, hasEngine := table.hasRegions }) := by
  unfold ofTable
  split
  · exact .inl ⟨_, rfl⟩
  · rename_i hfew
    cases hlayout : Layout.ofTable table number with
    | error e =>
      obtain ⟨reason, rfl⟩ := Layout.invalidTable_of_error hlayout
      exact .inl ⟨reason, rfl⟩
    | ok layout => exact .inr ⟨Nat.le_of_not_lt hfew, layout, rfl, rfl⟩

theorem eq_of_ofTable {number : Nat} {registers : RegisterSpace} {settings : Settings} {table : Table}
    {b : Board} (h : ofTable number registers settings table = .ok b) :
    table.nodeCount ≤ settings.maxNodes ∧ ∃ layout, Layout.ofTable table number = .ok layout ∧
      b = { number, table, layout, registers, hasEngine := table.hasRegions } := by
  obtain ⟨reason, hrefused⟩ | ⟨hfew, layout, hlayout, hmade⟩ := ofTable_cases number registers settings table
  · rw [hrefused] at h
    cases h
  · rw [hmade] at h
    cases h
    exact ⟨hfew, layout, hlayout, rfl⟩

section

variable {σ : Type} [Hardware σ]

theorem ofTable_of_survey {number : Nat} {registers : RegisterSpace} {settings : Settings}
    {hardware hardware' : σ} {b : Board}
    (h : (survey number registers settings).run hardware = (.ok b, hardware')) :
    ∃ table, ofTable number registers settings table = .ok b := by
  have hresult : ((Table.load fun offset => Hardware.load .control (Register.tableWindow + offset)).run
      hardware).1.bind (ofTable number registers settings) = .ok b := congrArg Prod.fst h
  cases htable : ((Table.load fun offset => Hardware.load .control (Register.tableWindow + offset)).run
      hardware).1 with
  | error e =>
    rw [htable] at hresult
    cases hresult
  | ok table =>
    rw [htable] at hresult
    exact ⟨table, hresult⟩

theorem attach_of_survey {parts : Parts} {settings : Settings} {hardware surveyed : σ} {b : Board}
    (h : (survey parts.number parts.registers settings).run hardware = (.ok b, surveyed))
    (hengine : b.hasEngine = false) : attach parts settings hardware = (.ok (b, none), surveyed) := by
  unfold attach
  rw [h]
  simp [hengine]

/-- Attaching fails with its survey, needs no engine, lacks a buffer for one, or ends as its start. -/
theorem attach_cases (parts : Parts) (settings : Settings) (hardware : σ) :
    (∃ e surveyed, (survey parts.number parts.registers settings).run hardware = (.error e, surveyed) ∧
      attach parts settings hardware = (.error e, surveyed)) ∨
    ∃ b surveyed, (survey parts.number parts.registers settings).run hardware = (.ok b, surveyed) ∧
      ((b.hasEngine = false ∧ attach parts settings hardware = (.ok (b, none), surveyed)) ∨
        (b.hasEngine = true ∧ parts.buffer = none ∧
          ∃ reason, attach parts settings hardware = (.error (.invalidArgument reason), surveyed)) ∨
        (b.hasEngine = true ∧ ∃ buffer, parts.buffer = some buffer ∧ ∃ started hardware',
          Channel.start surveyed buffer.address buffer.size b.table.settings settings.resetTimeout =
            (started, hardware') ∧
          attach parts settings hardware = (started.map fun engine => (b, some engine), hardware'))) := by
  unfold attach
  split
  · rename_i e surveyed hsurvey
    exact .inl ⟨e, surveyed, hsurvey, rfl⟩
  · rename_i b surveyed hsurvey
    refine .inr ⟨b, surveyed, hsurvey, ?_⟩
    cases hengine : b.hasEngine with
    | false => exact .inl ⟨rfl, rfl⟩
    | true =>
      right
      cases hbuffer : parts.buffer with
      | none => exact .inl ⟨rfl, rfl, _, rfl⟩
      | some buffer => exact .inr ⟨rfl, buffer, rfl, _, _, rfl, rfl⟩

variable {parts : Parts} {settings : Settings} {hardware hardware' : σ} {b : Board}

theorem survey_of_attach {engine : Option Engine}
    (h : attach parts settings hardware = (.ok (b, engine), hardware')) :
    ∃ surveyed, (survey parts.number parts.registers settings).run hardware = (.ok b, surveyed) ∧
      ((b.hasEngine = false ∧ engine = none ∧ hardware' = surveyed) ∨
        (b.hasEngine = true ∧ ∃ buffer started, parts.buffer = some buffer ∧ engine = some started ∧
          Channel.start surveyed buffer.address buffer.size b.table.settings settings.resetTimeout =
            (.ok started, hardware'))) := by
  obtain ⟨e, surveyed, -, hattach⟩ | ⟨made, surveyed, hsurvey, hattach⟩ :=
    attach_cases parts settings hardware
  · rw [hattach] at h
    cases h
  obtain ⟨hnone, hattach⟩ | ⟨-, -, reason, hattach⟩ |
    ⟨hsome, buffer, hbuffer, started, after, hstart, hattach⟩ := hattach
  · rw [hattach] at h
    cases h
    exact ⟨_, hsurvey, .inl ⟨hnone, rfl, rfl⟩⟩
  · rw [hattach] at h
    cases h
  · rw [hattach] at h
    cases started with
    | error e => cases h
    | ok started =>
      cases h
      exact ⟨surveyed, hsurvey, .inr ⟨hsome, buffer, started, hbuffer, rfl, hstart⟩⟩

theorem ofTable_of_attach {engine : Option Engine}
    (h : attach parts settings hardware = (.ok (b, engine), hardware')) :
    ∃ table, ofTable parts.number parts.registers settings table = .ok b := by
  obtain ⟨surveyed, hsurvey, -⟩ := survey_of_attach h
  exact ofTable_of_survey hsurvey

theorem start_of_attach {engine : Engine} {buffer : BufferSpan} (hbuffer : parts.buffer = some buffer)
    (h : attach parts settings hardware = (.ok (b, some engine), hardware')) :
    ∃ surveyed, (survey parts.number parts.registers settings).run hardware = (.ok b, surveyed) ∧
      Channel.start surveyed buffer.address buffer.size b.table.settings settings.resetTimeout =
        (.ok engine, hardware') := by
  obtain ⟨surveyed, hsurvey, ⟨-, hnone, -⟩ | ⟨-, buffer', started, hbuffer', hengine, hstart⟩⟩ :=
    survey_of_attach h
  · cases hnone
  · rw [hbuffer] at hbuffer'
    cases hbuffer'
    cases hengine
    exact ⟨surveyed, hsurvey, hstart⟩

end

end Board

end FpgaCard
