import FpgaCard.Proofs.EndpointRead
import FpgaCard.Proofs.Healthy
import FpgaCard.Proofs.Tenancy

/-!
# Regions within reach

A region is within reach of an engine that is healthy, has a buffer of one aligned unit at least and does
not find its own buffer in the region. Main statement: a call that stays inside such a region moves as much
as one transfer can, and leaves the region within reach.
-/

namespace FpgaCard

open Simulation

/-! ## Boards in use -/

namespace Board

/-- The states of a card whose board was attached with a host buffer at `span`. -/
inductive InUse (settings : Settings) (span : BufferSpan) (board : Board) : Traffic → Prop where
  | attached (parts : Parts) (rig rig' : Rig) (buffer : HostBuffer) (engine : Engine)
      (hbuffer : rig.card.buffer = some buffer)
      (hspan : span = { address := buffer.address, size := buffer.size })
      (hparts : parts.buffer = some span)
      (hfault : rig.card.injected &&& Status.errors = rig.card.injected)
      (h : attach parts settings rig = (.ok (board, some engine), rig')) :
      InUse settings span board { channel := ⟨engine, { rig' with routed := true }⟩ }
  | after (s : Traffic) (e : Event) (h : InUse settings span board s) :
      InUse settings span board (s.after e)

def Holds (board : Board) (r : Region) : Prop := ∃ node ∈ board.layout.nodes, node.kind = .memory r

theorem holds_of_mem {board : Board} {r : Region}
    (h : NodeKind.memory r ∈ board.layout.nodes.map (·.kind)) : board.Holds r := by
  obtain ⟨node, hnode, hkind⟩ := List.mem_map.1 h
  exact ⟨node, hnode, hkind⟩

theorem configure_of_attach {σ : Type} [Hardware σ] {parts : Parts} {settings : Settings}
    {hardware hardware' : σ} {board : Board} {engine : Engine} {span : BufferSpan}
    (hparts : parts.buffer = some span)
    (h : attach parts settings hardware = (.ok (board, some engine), hardware')) :
    Engine.configure span.address span.size board.table.settings settings.resetTimeout = .ok engine := by
  obtain ⟨surveyed, -, hstart⟩ := start_of_attach hparts h
  exact Channel.configure_of_start hstart

namespace InUse

variable {settings : Settings} {span : BufferSpan} {board : Board} {s : Traffic}

theorem reachable (h : board.InUse settings span s) : s.Reachable fun _ => true := by
  induction h with
  | attached parts rig rig' buffer engine hbuffer hspan hparts hfault h =>
    rw [hspan] at hparts
    exact .attached _ (attached_of_attach hbuffer hparts hfault h)
  | after s e _ ih => exact .after s e ih rfl

theorem engine (h : board.InUse settings span s) :
    s.channel.engine.Made ∧
      (Engine.candidate span.address span.size board.table.settings settings.resetTimeout).Like
        s.channel.engine := by
  induction h with
  | attached parts rig rig' buffer engine _ _ hparts _ h =>
    have hmade := configure_of_attach hparts h
    obtain ⟨-, -, rfl⟩ := Engine.configure_ok hmade
    exact ⟨.of_configure hmade, .refl _⟩
  | after s e h ih =>
    have hlike := h.reachable.sound.after_like e
    exact ⟨ih.1.like hlike, ih.2.trans hlike⟩

theorem fits (h : board.InUse settings span s) {r : Region} (hr : board.Holds r) :
    r.base.toNat + r.length.toNat < 2 ^ 64 := by
  induction h with
  | attached parts rig rig' buffer engine _ _ _ _ h =>
    obtain ⟨number, hlayout⟩ := (new_of_attach h).layout
    obtain ⟨node, hnode, hkind⟩ := hr
    obtain ⟨-, -, -, hends⟩ := Layout.entry_of_memory hlayout hnode hkind
    exact r.finish?_isSome.1 hends
  | after _ _ _ ih => exact ih

end InUse

end Board

/-! ## Regions and buffers -/

def Region.Apart (r : Region) (span : BufferSpan) : Prop :=
  r.base.toNat + r.length.toNat ≤ span.address.toNat ∨ span.address.toNat + span.size ≤ r.base.toNat

theorem Engine.errorsOf_of_apart {e : Engine} {r : Region}
    (h : r.Apart { address := e.bufferAddress, size := e.bufferSize }) {start : UInt64} {count : Nat}
    (hcount : 0 < count) (hbegin : r.base.toNat ≤ start.toNat)
    (hend : start.toNat + count ≤ r.base.toNat + r.length.toNat) : e.errorsOf start count = 0 := by
  unfold errorsOf HostBuffer.offsetOf?
  simp only
  rw [if_neg]
  rw [if_neg]
  · simp
  · rintro ⟨hbehind, hinside⟩
    rw [UInt64.le_iff_toNat_le] at hbehind
    unfold Region.Apart at h
    simp only at h
    omega

/-- A healthy card whose engine takes every aligned span of a region. -/
structure Channel.Reaches (c : Channel Rig) (r : Region) : Prop where
  healthy : c.Healthy
  made : c.engine.Made
  room : c.engine.alignment ≤ c.engine.bufferSize
  fits : r.base.toNat + r.length.toNat < 2 ^ 64
  aligned : c.engine.alignment ∣ r.base.toNat
  apart : r.Apart { address := c.engine.bufferAddress, size := c.engine.bufferSize }

theorem Board.InUse.reaches {settings : Settings} {span : BufferSpan} {board : Board} {s : Traffic}
    (h : board.InUse settings span s) (hhealthy : s.channel.Healthy)
    (hroom : board.table.settings.alignment ≤ span.size) {r : Region} (hr : board.Holds r)
    (haligned : board.table.settings.alignment ∣ r.base.toNat) (hapart : r.Apart span) :
    s.channel.Reaches r := by
  obtain ⟨hmade, hlike⟩ := h.engine
  refine ⟨hhealthy, hmade, ?_, h.fits hr, ?_, ?_⟩
  · rw [hlike.alignment, hlike.bufferSize]
    exact hroom
  · rw [hlike.alignment]
    exact haligned
  · rw [hlike.bufferAddress, hlike.bufferSize]
    exact hapart

namespace Channel.Reaches

variable {c c' : Channel Rig} {r : Region}

theorem like (h : c.Reaches r) (hhealthy : c'.Healthy) (hlike : c.engine.Like c'.engine) :
    c'.Reaches r := by
  refine ⟨hhealthy, h.made.like hlike, ?_, h.fits, ?_, ?_⟩
  · rw [hlike.alignment, hlike.bufferSize]
    exact h.room
  · rw [hlike.alignment]
    exact h.aligned
  · rw [hlike.bufferAddress, hlike.bufferSize]
    exact h.apart

theorem maxTransfer_pos (h : c.Reaches r) : 0 < c.engine.maxTransfer :=
  h.healthy.fitted.engine.pos

theorem due_eq (h : c.Reaches r) {m : MemoryCall} {span : Span} (hcount : 0 < span.count)
    (hstart : c.engine.alignment ∣ span.start) (hwhole : c.engine.alignment ∣ span.count)
    (hbegin : r.base.toNat ≤ span.start)
    (hend : span.start + span.count ≤ r.base.toNat + r.length.toNat) :
    (m.asked span).due c.engine = .ok (min span.count c.engine.maxTransfer) := by
  have hfits := h.fits
  have hpos := h.maxTransfer_pos
  have haddress : (m.asked span).start.toNat = span.start := UInt64.toNat_ofNat_of_lt' (by
    unfold UInt64.size
    omega)
  have hcheck := Engine.check_aligned (t := m.asked span) h.made.aligned (h.made.dvd_maxTransfer h.room)
    hcount (by rw [haddress]; exact Nat.mod_eq_zero_of_dvd hstart)
    (.inl (Nat.mod_eq_zero_of_dvd hwhole))
  have hclean : c.engine.errorsOf (m.asked span).start (min span.count c.engine.maxTransfer) = 0 := by
    apply Engine.errorsOf_of_apart h.apart
    · omega
    · rw [haddress]
      exact hbegin
    · rw [haddress]
      omega
  unfold Transfer.due
  rw [hcheck]
  exact if_pos hclean

/-! ## Calls within reach -/

theorem write_resume {m : MemoryEndpoint} (h : c.Reaches m.region)
    (hwritable : m.region.permissions.canWrite = true) {data : List UInt8} (hdata : data ≠ [])
    (hposition : c.engine.alignment ∣ m.position) (hwhole : c.engine.alignment ∣ data.length)
    (hroom : m.position + data.length ≤ m.length) (hsize : data.length ≤ c.engine.bufferSize) :
    ∃ c', ({ endpoint := m, request := .write data } : MemoryCall).resume c =
        (.finished ⟨m.advance (min data.length c.engine.maxTransfer),
          .ok { count := min data.length c.engine.maxTransfer }⟩, c') ∧
      c'.Reaches m.region ∧ c.engine.Like c'.engine := by
  have hpos := List.length_pos_iff.2 hdata
  have hplan := MemoryEndpoint.planWrite_eq hwritable h.fits hpos hroom hsize
  have hinside : m.region.base.toNat + m.position + data.length ≤
      m.region.base.toNat + m.region.length.toNat := by
    unfold MemoryEndpoint.length at hroom
    omega
  have hdue : (MemoryCall.asked { endpoint := m, request := .write data }
      { start := m.region.base.toNat + m.position, count := data.length }).due c.engine =
      .ok (min data.length c.engine.maxTransfer) :=
    h.due_eq hpos (Nat.dvd_add h.aligned hposition) hwhole (Nat.le_add_right _ _) hinside
  obtain ⟨c', hresume, -, hhealthy, hlike⟩ := MemoryCall.resume_due
    (m := { endpoint := m, request := .write data }) h.healthy rfl hplan hdue
  refine ⟨c', ?_, h.like hhealthy hlike, hlike⟩
  rw [hresume]
  unfold MemoryCall.due MemoryCall.planned
  simp only [hplan, hdue]

end Channel.Reaches

/-! ## Requests by their calls -/

namespace RegionCall

theorem advance_finished {r : RegionCall} {c c' : Channel Rig} {result : MemoryResult}
    (h : r.call.resume c = (.finished result, c')) (n : Nat) :
    advance (n + 1) r c = (r.next result).onward (advance n) c' := by
  rw [advance, h]
  simp only [Progress.lift]
  cases r.next result <;> rfl

theorem place_resume (m : MemoryEndpoint) (pieces : List (List UInt8)) (c : Channel Rig) :
    (place m pieces).onward resume c = (place m pieces).onward (advance pieces.length) c := by
  cases pieces <;> rfl

end RegionCall

end FpgaCard
