import FpgaCard.Proofs.Reach
import FpgaCard.Proofs.RegionWrite

/-!
# Writes that are taken whole

A write to a region is cut to the size of the host buffer, and each piece has to be taken whole by one
transfer. A buffer of 2^22 bytes or less is what one transfer moves; a larger one is not, for the count
register ends below 2^23. Main statement: a write within reach succeeds if its pieces are not longer than
the limit of a transfer, and otherwise the first piece comes out short.
-/

namespace FpgaCard

open Simulation

/-! ## Buffers and the limit of a transfer -/

namespace Engine

/-- The exponent of the largest buffer that one transfer moves whole. -/
def wholeShift : Nat := 22

variable {s : DmaSettings} {shift : Nat}

theorem transferLimit_of_le (hroom : s.alignment ≤ 2 ^ shift) (hshift : shift ≤ wholeShift) :
    transferLimit s.alignment (2 ^ shift) = 2 ^ shift := by
  have hsize : 2 ^ shift ≤ 2 ^ wholeShift := Nat.pow_le_pow_right (by decide) hshift
  have hpos : 0 < s.alignment := by
    rw [alignment_eq]
    exact Nat.pow_pos (by decide)
  have hcut := Nat.mod_lt Register.countMax hpos
  unfold transferLimit
  apply Nat.min_eq_right
  unfold wholeShift at hsize
  unfold Register.countMax at *
  omega

theorem transferLimit_lt (hshift : wholeShift < shift) (alignment : Nat) :
    transferLimit alignment (2 ^ shift) < 2 ^ shift := by
  have hsize : 2 ^ (wholeShift + 1) ≤ 2 ^ shift := Nat.pow_le_pow_right (by decide) hshift
  have hcut := Nat.sub_le Register.countMax (Register.countMax % alignment)
  unfold transferLimit
  unfold wholeShift at hsize
  unfold Register.countMax at *
  omega

end Engine

/-! ## Pieces within reach -/

namespace RegionCall

variable {m : MemoryEndpoint} {c : Channel Rig} {size : Nat} {data : List UInt8}

/-- What a write comes to whose pieces are no longer than `size`. -/
def placed (limit size : Nat) (data : List UInt8) : RegionResult :=
  if min size data.length ≤ limit then .ok [] else .error (.short limit (min size data.length))

theorem position_advance {alignment count : Nat} (hposition : alignment ∣ m.position)
    (hcount : alignment ∣ count) (hroom : m.position + count ≤ m.length) :
    alignment ∣ (m.advance count).position ∧
      ∀ rest, m.position + count + rest ≤ m.length → (m.advance count).position + rest ≤ m.length := by
  rw [MemoryEndpoint.advance_eq hroom]
  simp only
  split
  · exact ⟨Nat.dvd_zero _, fun rest hrest => by omega⟩
  · exact ⟨Nat.dvd_add hposition hcount, fun rest hrest => hrest⟩

theorem place_onward (hc : c.Reaches m.region) (hwritable : m.region.permissions.canWrite = true)
    (hsome : ¬ (size = 0 ∨ data.length = 0)) (hpiece : c.engine.alignment ∣ (data.take size).length)
    (hbuffer : size ≤ c.engine.bufferSize) (hposition : c.engine.alignment ∣ m.position)
    (hroom : m.position + data.length ≤ m.length) :
    ∃ c', c'.Reaches m.region ∧ c.engine.Like c'.engine ∧
      (place m (chunks size data)).onward (advance (chunks size data).length) c =
        if min size data.length ≤ c.engine.maxTransfer then
          (place (m.advance (data.take size).length) (chunks size (data.drop size))).onward
            (advance (chunks size (data.drop size)).length) c'
        else (.finished (.error (.short c.engine.maxTransfer (min size data.length))), c') := by
  have hlength : (data.take size).length = min size data.length := List.length_take
  have hne : data.take size ≠ [] := by
    intro hnil
    rw [hnil, List.length_nil] at hlength
    omega
  obtain ⟨c', hresume, hreaches, hlike⟩ :=
    hc.write_resume hwritable hne hposition hpiece (by omega) (by omega)
  refine ⟨c', hreaches, hlike, ?_⟩
  rw [chunks, dif_neg hsome]
  refine (advance_finished hresume _).trans ?_
  unfold next
  simp only
  by_cases hlimit : min size data.length ≤ c.engine.maxTransfer
  · have hcut : min (data.take size).length c.engine.maxTransfer = (data.take size).length := by omega
    rw [if_pos hlimit, hcut, if_pos rfl]
  · have hcut : min (data.take size).length c.engine.maxTransfer = c.engine.maxTransfer := by omega
    rw [if_neg hlimit, hcut, if_neg (by omega), hlength]
    rfl

theorem place_ends (hc : c.Reaches m.region) (hwritable : m.region.permissions.canWrite = true)
    (hunit : c.engine.alignment ∣ size) (hbuffer : size ≤ c.engine.bufferSize)
    (hposition : c.engine.alignment ∣ m.position) (hwhole : c.engine.alignment ∣ data.length)
    (hroom : m.position + data.length ≤ m.length) :
    ∃ c', (place m (chunks size data)).onward (advance (chunks size data).length) c =
        (.finished (placed c.engine.maxTransfer size data), c') ∧ c'.Healthy := by
  fun_induction chunks size data generalizing m c with
  | case1 data hnone =>
    have hplaced : placed c.engine.maxTransfer size data = .ok [] := if_pos (by omega)
    rw [hplaced]
    exact ⟨c, rfl, hc.healthy⟩
  | case2 data hsome ih =>
    have hlength : (data.take size).length = min size data.length := List.length_take
    have hleft : (data.drop size).length = data.length - size := List.length_drop
    have hpiece : c.engine.alignment ∣ (data.take size).length := by
      rcases min_choice size data.length with hmin | hmin <;> rwa [hlength, hmin]
    obtain ⟨c', hreaches, hlike, honward⟩ :=
      place_onward hc hwritable hsome hpiece hbuffer hposition hroom
    rw [chunks, dif_neg hsome] at honward
    by_cases hlimit : min size data.length ≤ c.engine.maxTransfer
    · obtain ⟨haligned, hinside⟩ := position_advance hposition hpiece (by omega)
      have hrest : c.engine.alignment ∣ (data.drop size).length := by
        rw [hleft]
        rcases Nat.le_total size data.length with hle | hle
        · exact Nat.dvd_sub hwhole hunit
        · rw [Nat.sub_eq_zero_of_le hle]
          exact Nat.dvd_zero _
      rw [← hlike.alignment] at hunit haligned hrest
      rw [← hlike.bufferSize] at hbuffer
      obtain ⟨c'', hends, hhealthy⟩ := ih (m := m.advance (data.take size).length) hreaches hwritable
        hunit hbuffer haligned hrest (hinside _ (by omega))
      refine ⟨c'', ?_, hhealthy⟩
      have hfirst : placed c.engine.maxTransfer size data = .ok [] := if_pos hlimit
      have hothers : placed c'.engine.maxTransfer size (data.drop size) = .ok [] :=
        if_pos (by rw [hlike.maxTransfer]; omega)
      rw [hothers] at hends
      rw [honward, if_pos hlimit, hends, hfirst]
    · refine ⟨c', ?_, hreaches.healthy⟩
      have hfirst : placed c.engine.maxTransfer size data =
          .error (.short c.engine.maxTransfer (min size data.length)) := if_neg hlimit
      rw [honward, if_neg hlimit, hfirst]

theorem write_ends (hc : c.Reaches m.region) (hwritable : m.region.permissions.canWrite = true)
    {offset : Nat} (hoffset : c.engine.alignment ∣ offset) (hwhole : c.engine.alignment ∣ data.length)
    (hfits : offset + data.length ≤ m.length) :
    ∃ c', (start m c.engine.bufferSize (.write offset data)).onward resume c =
        (.finished (placed c.engine.maxTransfer c.engine.bufferSize data), c') ∧ c'.Healthy := by
  have hseek : m.seek (.start offset) = .ok { m with position := offset } :=
    MemoryEndpoint.seek_eq (by omega)
  have hstart : start m c.engine.bufferSize (.write offset data) =
      place { m with position := offset } (chunks c.engine.bufferSize data) := by
    unfold start
    simp only [hseek]
  rw [hstart, place_resume]
  exact place_ends (m := { m with position := offset }) hc hwritable (hc.made.dvd_bufferSize hc.room)
    (Nat.le_refl _) hoffset hwhole hfits

end RegionCall

/-! ## Writes that nothing speaks against -/

theorem Settings.blockSize_eq (s : Settings) : s.blockSize = 2 ^ s.blockShift := Nat.one_shiftLeft _

def Settings.buffer (s : Settings) : BufferSpan := { address := s.iovaBase, size := s.blockSize }

/-- A write of whole units, within a writable region of a board whose card is healthy. -/
structure LegalWrite (settings : Settings) (board : Board) (s : Traffic) (m : MemoryEndpoint)
    (offset : Nat) (data : List UInt8) : Prop where
  valid : settings.validate = .ok ()
  inUse : board.InUse settings settings.buffer s
  healthy : s.channel.Healthy
  room : board.table.settings.alignment ≤ settings.blockSize
  holds : board.Holds m.region
  writable : m.region.permissions.canWrite = true
  aligned : board.table.settings.alignment ∣ m.region.base.toNat
  apart : m.region.Apart settings.buffer
  begins : board.table.settings.alignment ∣ offset
  whole : board.table.settings.alignment ∣ data.length
  fits : offset + data.length ≤ m.length

namespace LegalWrite

variable {settings : Settings} {board : Board} {s : Traffic} {m : MemoryEndpoint} {offset : Nat}
  {data : List UInt8}

theorem maxTransfer_eq (h : LegalWrite settings board s m offset data) : s.channel.engine.maxTransfer =
    Engine.transferLimit board.table.settings.alignment settings.blockSize :=
  h.inUse.engine.2.maxTransfer

theorem placed_eq (h : LegalWrite settings board s m offset data) :
    RegionCall.placed s.channel.engine.maxTransfer s.channel.engine.bufferSize data =
      if settings.blockShift ≤ Engine.wholeShift ∨ data.length ≤ s.channel.engine.maxTransfer then .ok []
      else .error (.short s.channel.engine.maxTransfer (min settings.blockSize data.length)) := by
  obtain ⟨-, hlike⟩ := h.inUse.engine
  have hsize : s.channel.engine.bufferSize = settings.blockSize := hlike.bufferSize
  have hlimit := h.maxTransfer_eq
  have hroom := h.room
  unfold RegionCall.placed
  rw [hsize]
  rw [settings.blockSize_eq] at hlimit hroom ⊢
  rcases Nat.lt_or_ge Engine.wholeShift settings.blockShift with hlarge | hsmall
  · have hless := Engine.transferLimit_lt hlarge board.table.settings.alignment
    rw [← hlimit] at hless
    by_cases hdata : data.length ≤ s.channel.engine.maxTransfer
    · rw [if_pos (by omega), if_pos (.inr hdata)]
    · rw [if_neg (by omega), if_neg (by omega)]
  · have hwhole := Engine.transferLimit_of_le hroom hsmall
    rw [if_pos (by omega), if_pos (.inl hsmall)]

theorem write_ends (h : LegalWrite settings board s m offset data) :
    ∃ c', (RegionCall.start m s.channel.engine.bufferSize (.write offset data)).onward RegionCall.resume
        s.channel =
        (.finished (RegionCall.placed s.channel.engine.maxTransfer s.channel.engine.bufferSize data), c') ∧
      c'.Healthy := by
  obtain ⟨-, hlike⟩ := h.inUse.engine
  have hreaches := h.inUse.reaches h.healthy h.room h.holds h.aligned h.apart
  apply RegionCall.write_ends hreaches h.writable
  · rw [hlike.alignment]
    exact h.begins
  · rw [hlike.alignment]
    exact h.whole
  · exact h.fits

end LegalWrite

/-! ## A writable region -/

def writableTable : List UInt8 :=
  Table.magic ++ [Table.version] ++
    [1, 4, 0x73, 0x69, 0x6d, 0] ++
    [2, 15, 0, 0, 0, 0x40, 0, 0, 0, 0, 0, 1, 6, 0x6d, 0x65, 0x6d, 0] ++
    [0, 2, 0xe1, 0x1d]

def writableEndpoint : MemoryEndpoint :=
  { region := { name := "mem", base := 0x40000000, length := 0x1000000, permissions := { bits := 6 } } }

def writableRig (settings : Settings) : Rig :=
  { card := { table := some writableTable
              buffer := some { address := settings.iovaBase, size := settings.blockSize } } }

def writableParts (settings : Settings) : Parts :=
  { number := 0, registers := { size? := none }, buffer := some settings.buffer }

def writableCard? (settings : Settings) : Option (Board × Channel Rig) :=
  match Board.attach (writableParts settings) settings (writableRig settings) with
  | (.ok (board, some engine), rig) => some (board, ⟨engine, { rig with routed := true }⟩)
  | _ => none

def isWritable (board : Board) (c : Channel Rig) : Bool :=
  board.table.settings = {} ∧
  board.layout.nodes.map (·.kind) = [.registers, .memory writableEndpoint.region] ∧
  c.card.injected = 0 ∧ c.hardware.raised = 0 ∧ c.card.mode = .immediate

theorem exists_writable (settings : Settings)
    (h : (writableCard? settings).any (fun card => isWritable card.1 card.2) = true) :
    ∃ board c, writableCard? settings = some (board, c) ∧ isWritable board c = true := by
  cases hcard : writableCard? settings with
  | none =>
    rw [hcard] at h
    cases h
  | some card =>
    rw [hcard] at h
    exact ⟨card.1, card.2, rfl, h⟩

theorem inUse_of_writable {settings : Settings} {board : Board} {c : Channel Rig}
    (h : writableCard? settings = some (board, c)) :
    Attached c ∧ board.InUse settings settings.buffer { channel := c } := by
  rw [writableCard?] at h
  split at h
  · rename_i hattach
    cases h
    have hfault : (writableRig settings).card.injected &&& Status.errors =
        (writableRig settings).card.injected := UInt32.zero_and
    exact ⟨Board.attached_of_attach rfl rfl hfault hattach, .attached _ _ _ _ _ rfl rfl rfl hfault hattach⟩
  · cases h

theorem alignment_of_writable {board : Board} {c : Channel Rig} (h : isWritable board c = true) :
    board.table.settings.alignment = 32 := by
  unfold isWritable at h
  rw [decide_eq_true_iff] at h
  rw [h.1]
  rfl

theorem legal_of_writable {settings : Settings} {board : Board} {c : Channel Rig}
    (hcard : writableCard? settings = some (board, c)) (hwritable : isWritable board c = true)
    (hvalid : settings.validate = .ok ()) (hroom : 32 ≤ settings.blockSize)
    (hapart : writableEndpoint.region.Apart settings.buffer) {offset : Nat} {data : List UInt8}
    (hbegins : 32 ∣ offset) (hwhole : 32 ∣ data.length)
    (hfits : offset + data.length ≤ writableEndpoint.length) :
    LegalWrite settings board { channel := c } writableEndpoint offset data := by
  obtain ⟨hattached, huse⟩ := inUse_of_writable hcard
  have halignment := alignment_of_writable hwritable
  unfold isWritable at hwritable
  rw [decide_eq_true_iff] at hwritable
  obtain ⟨-, hnodes, hinjected, hraised, hmode⟩ := hwritable
  have hholds : board.Holds writableEndpoint.region := by
    apply Board.holds_of_mem
    rw [hnodes]
    exact List.mem_cons_of_mem _ List.mem_cons_self
  refine ⟨hvalid, huse, ?_, ?_, hholds, rfl, ?_, hapart, ?_, ?_, hfits⟩
  · exact ⟨(Channel.sober_of_attached hattached hinjected hraised).1, hmode⟩
  all_goals rw [halignment]
  · exact hroom
  · decide
  · exact hbegins
  · exact hwhole

/-! ## Legal writes -/

namespace LegalWrite

variable {settings : Settings} {board : Board} {s : Traffic} {m : MemoryEndpoint} {offset : Nat}
  {data : List UInt8}

/-- A write that nothing speaks against comes to an end, without a wait. It succeeds unless the host buffer
is larger than what one transfer moves and the data is so as well: then the first piece is cut short. -/
theorem taken (h : LegalWrite settings board s m offset data) :
    ∃ c', (RegionCall.start m s.channel.engine.bufferSize (.write offset data)).onward RegionCall.resume
        s.channel =
        (.finished (if settings.blockShift ≤ Engine.wholeShift ∨
            data.length ≤ s.channel.engine.maxTransfer then .ok []
          else .error (.short s.channel.engine.maxTransfer (min settings.blockSize data.length))), c') ∧
      c'.Healthy := by
  rw [← h.placed_eq]
  exact h.write_ends

theorem taken_two_pages :
    ∃ board c c', LegalWrite { blockShift := 12 } board { channel := c } writableEndpoint 0x1000
        (List.replicate 0x2000 0x11) ∧
      (RegionCall.start writableEndpoint c.engine.bufferSize
        (.write 0x1000 (List.replicate 0x2000 0x11))).onward RegionCall.resume c =
        (.finished (.ok []), c') := by
  obtain ⟨board, c, hcard, hwritable⟩ := exists_writable { blockShift := 12 } (by decide +kernel)
  have hlegal : LegalWrite { blockShift := 12 } board { channel := c } writableEndpoint 0x1000
      (List.replicate 0x2000 0x11) := by
    apply legal_of_writable hcard hwritable rfl (by decide) (.inr (by decide)) (by decide)
    · rw [List.length_replicate]
      decide
    · rw [List.length_replicate]
      decide
  obtain ⟨c', hends, -⟩ := hlegal.taken
  rw [if_pos (.inl (by decide))] at hends
  exact ⟨board, c, c', hlegal, hends⟩

/-- Eight MiB through a buffer of that size, of which one transfer moves 32 bytes less. -/
theorem cut_short :
    ∃ board c c', writableCard? { blockShift := 23 } = some (board, c) ∧
      LegalWrite { blockShift := 23 } board { channel := c } writableEndpoint 0
        (List.replicate 0x800000 0x11) ∧
      (RegionCall.start writableEndpoint c.engine.bufferSize
        (.write 0 (List.replicate 0x800000 0x11))).onward RegionCall.resume c =
        (.finished (.error (.short 0x7fffe0 0x800000)), c') := by
  obtain ⟨board, c, hcard, hwritable⟩ := exists_writable { blockShift := 23 } (by decide +kernel)
  have hlegal : LegalWrite { blockShift := 23 } board { channel := c } writableEndpoint 0
      (List.replicate 0x800000 0x11) := by
    apply legal_of_writable hcard hwritable rfl (by decide) (.inr (by decide)) (by decide)
    · rw [List.length_replicate]
      decide
    · rw [List.length_replicate]
      decide
  obtain ⟨c', hends, -⟩ := hlegal.write_ends
  refine ⟨board, c, c', hcard, hlegal, ?_⟩
  have hlimit : c.engine.maxTransfer = 0x7fffe0 := by
    rw [hlegal.maxTransfer_eq, alignment_of_writable hwritable]
    decide
  rw [hends, hlegal.placed_eq, hlimit, List.length_replicate]
  rfl

end LegalWrite

end FpgaCard
