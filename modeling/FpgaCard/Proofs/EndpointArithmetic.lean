import FpgaCard.Proofs.Boards
import FpgaCard.Proofs.Fitted
import FpgaCard.Proofs.PlanArithmetic
import FpgaCard.Proofs.Tenancy

/-!
# Endpoint calls on machine words

Calls of endpoints with words that may not wrap and slices of the host buffer that may not leave it. A read
takes the part in front of its position from what was moved, which is possible only because whole units are
moved. Main statement: on a card that is attached no step of a call is out of range, and on words it comes to
the same as on numbers.
-/

namespace FpgaCard

/-! ## Calls -/

def MemoryRequest.size : MemoryRequest → Nat
  | .read room => room
  | .write data => data.length

/-- A count that the engine moves at once: whole units, at least one of them. -/
structure Engine.CanMove (e : Engine) (count : Nat) : Prop where
  pos : 0 < count
  most : count ≤ e.maxTransfer
  whole : count % e.alignment = 0

theorem Transfer.step_canMove {σ : Type} [Hardware σ] {t : Transfer} {c : Channel σ} {most : Nat}
    (hpos : 0 < c.engine.maxTransfer) (hcount : t.count ≤ most)
    (hchecked : t.stage ≠ .check → c.engine.CanMove t.count) :
    (∃ t', (t.step c).1.rest? = some t' ∧ t'.count ≤ most ∧
      (t'.stage ≠ .check → c.engine.CanMove t'.count)) ∨
    (∃ error, (t.step c).1 = .finished (.error error)) ∨
    ∃ moved, (t.step c).1 = .finished (.ok moved) ∧ moved ≤ most ∧ c.engine.CanMove moved := by
  by_cases hstage : t.stage = .check
  · have hstep : t.step c = (t.check c.engine, c) := by simp only [Transfer.step, hstage]
    rw [hstep]
    obtain ⟨error, hcheck⟩ | ⟨hsome, hwhole, hcheck⟩ := t.check_cases c.engine
    · exact .inr (.inl ⟨error, hcheck⟩)
    · refine .inl ⟨_, by rw [hcheck]; rfl, ?_, fun _ => ⟨?_, ?_, hwhole⟩⟩
      · exact Nat.le_trans (Nat.min_le_left _ _) hcount
      · simp only
        omega
      · exact Nat.min_le_right _ _
  · obtain ⟨t', hrest, hpast, hsame⟩ | herror | hok := t.step_count c hstage
    · refine .inl ⟨t', hrest, ?_⟩
      rw [hsame]
      exact ⟨hcount, fun _ => hchecked hstage⟩
    · exact .inr (.inl herror)
    · exact .inr (.inr ⟨_, hok, hcount, hchecked hstage⟩)

namespace MemoryCall

/-- What a call has of its plan at each stage: it fills the buffer for its span, and moves no more of it than
was planned, in whole units. -/
structure Measured (m : MemoryCall) (e : Engine) : Prop where
  filling : ∀ span, m.stage = .fill span → m.planned e = .ok (some span)
  moving : ∀ skip t, m.stage = .move skip t → ∃ span, m.planned e = .ok (some span) ∧ skip = span.skip ∧
    t.count ≤ span.count ∧ (t.stage ≠ .check → e.CanMove t.count)
  collecting : ∀ skip moved, m.stage = .collect skip moved → ∃ span, m.planned e = .ok (some span) ∧
    skip = span.skip ∧ moved ≤ span.count ∧ e.CanMove moved

namespace Measured

variable {m m' : MemoryCall} {e e' : Engine}

theorem begun (e : Engine) (endpoint : MemoryEndpoint) (request : MemoryRequest) :
    Measured { endpoint, request } e := ⟨nofun, nofun, nofun⟩

theorem like (h : m.Measured e) (hlike : e.Like e') : m.Measured e' := by
  have hmoves {count : Nat} (hmove : e.CanMove count) : e'.CanMove count := by
    refine ⟨hmove.pos, ?_, ?_⟩
    · rw [hlike.maxTransfer]
      exact hmove.most
    · rw [hlike.alignment]
      exact hmove.whole
  refine ⟨?_, ?_, ?_⟩
  · rw [m.planned_like hlike]
    exact h.filling
  · rw [m.planned_like hlike]
    intro skip t hstage
    obtain ⟨span, hplan, hskip, hcount, hchecked⟩ := h.moving skip t hstage
    exact ⟨span, hplan, hskip, hcount, fun hpast => hmoves (hchecked hpast)⟩
  · rw [m.planned_like hlike]
    intro skip moved hstage
    obtain ⟨span, hplan, hskip, hcount, hmove⟩ := h.collecting skip moved hstage
    exact ⟨span, hplan, hskip, hcount, hmoves hmove⟩

variable {σ : Type} [Hardware σ] {c : Channel σ}

theorem step (h : m.Measured c.engine) (hpos : 0 < c.engine.maxTransfer)
    (h' : (m.step c).1.rest? = some m') :
    m'.Measured c.engine ∧ m'.endpoint = m.endpoint ∧ m'.request = m.request := by
  unfold MemoryCall.step at h'
  cases hstage : m.stage with
  | plan =>
    simp only [hstage] at h'
    obtain ⟨_, -, hplan⟩ | ⟨-, hplan⟩ | ⟨span, hspan, hplan⟩ := m.plan_cases c.engine
    · rw [hplan] at h'
      cases h'
    · rw [hplan] at h'
      cases h'
    · rw [hplan] at h'
      cases h'
      refine ⟨⟨?_, nofun, nofun⟩, rfl, rfl⟩
      rintro _ ⟨⟩
      exact hspan
  | fill span =>
    have hnext : m' = { m with stage := m.transferOf span } := by
      simp only [hstage] at h'
      cases hrequest : m.request with
      | read room =>
        simp only [hrequest] at h'
        cases h'
        rfl
      | write data =>
        simp only [hrequest] at h'
        cases h'
        rfl
    subst hnext
    refine ⟨⟨nofun, ?_, nofun⟩, rfl, rfl⟩
    rintro _ _ ⟨⟩
    exact ⟨span, h.filling span hstage, rfl, Nat.le_refl _, fun hpast => absurd rfl hpast⟩
  | move skip t =>
    simp only [hstage] at h'
    obtain ⟨span, hplan, hskip, hcount, hchecked⟩ := h.moving skip t hstage
    obtain ⟨t', hrest, hstill⟩ | ⟨error, hend⟩ | ⟨moved, hend, hmoved⟩ :=
      Transfer.step_canMove (c := c) hpos hcount hchecked
    · have hnext : m' = { m with stage := .move skip t' } := by
        cases hgoes : (t.step c).1 <;> rw [hgoes] at h' hrest <;> cases hrest <;> cases h' <;> rfl
      subst hnext
      refine ⟨⟨nofun, ?_, nofun⟩, rfl, rfl⟩
      rintro _ _ ⟨⟩
      exact ⟨span, hplan, hskip, hstill⟩
    · rw [hend] at h'
      cases h'
    · rw [hend] at h'
      cases h'
      refine ⟨⟨nofun, nofun, ?_⟩, rfl, rfl⟩
      rintro _ _ ⟨⟩
      exact ⟨span, hplan, hskip, hmoved⟩
  | collect skip moved =>
    simp only [hstage] at h'
    cases hrequest : m.request with
    | read room =>
      simp only [hrequest] at h'
      cases h'
    | write data =>
      simp only [hrequest] at h'
      cases h'

end Measured

/-- Where a call may be on its way, whatever the card does and others do to the engine's signal. -/
inductive OnWay (e : Engine) (m : MemoryCall) : MemoryCall → Prop
  | begun : OnWay e m m
  | next {σ : Type} [Hardware σ] {m' m'' : MemoryCall} {c : Channel σ} (hlike : e.Like c.engine)
      (h : (m'.step c).1.rest? = some m'') : OnWay e m m' → OnWay e m m''

theorem OnWay.measured {e : Engine} {endpoint : MemoryEndpoint} {request : MemoryRequest} {m : MemoryCall}
    (hpos : 0 < e.maxTransfer) (h : OnWay e { endpoint, request } m) :
    m.Measured e ∧ m.endpoint = endpoint ∧ m.request = request := by
  induction h with
  | begun => exact ⟨.begun e endpoint request, rfl, rfl⟩
  | next hlike hstep _ ih =>
    obtain ⟨hmeasured, hendpoint, hrequest⟩ := ih
    obtain ⟨hnext, hsame, hkept⟩ := (hmeasured.like hlike).step (by rwa [hlike.maxTransfer]) hstep
    exact ⟨hnext.like hlike.symm, hsame.trans hendpoint, hkept.trans hrequest⟩

/-! ## Steps -/

def planned? (m : MemoryCall) (e : Engine) : Option (Except CardError (Option Span)) :=
  match m.request with
  | .read room => m.endpoint.planRead? e room
  | .write data => m.endpoint.planWrite? e data.length

def plan? (m : MemoryCall) (e : Engine) : Option Outcome :=
  (m.planned? e).map fun
    | .error error => m.fail error
    | .ok none => m.nothing
    | .ok (some span) => .going { m with stage := .fill span }

section

variable {σ : Type} [Hardware σ]

/-- A step of a call, with slices that must lie in the host buffer. Past its check a transfer computes nothing. -/
def step? (m : MemoryCall) (c : Channel σ) : Option (Outcome × Channel σ) :=
  match m.stage with
  | .plan => (m.plan? c.engine).map fun outcome => (outcome, c)
  | .fill _ =>
    match m.request with
    | .read _ => some (m.step c)
    | .write data => if data.length ≤ c.engine.bufferSize then some (m.step c) else none
  | .move skip t =>
    if t.stage = .check then do
      let progress ← t.check? c.engine
      let next := progress.lift (fun t => { m with stage := .move skip t }) fun
        | .error e => m.fail e
        | .ok moved => .going { m with stage := .collect skip moved }
      return (next, c)
    else some (m.step c)
  | .collect skip moved =>
    match m.request with
    | .read room => do
      let first ← Word.ofNat? skip
      let left ← Word.sub? (← Word.ofNat? moved) first
      let count := min (← Word.ofNat? room) left
      let behind ← Word.add? first count
      let endpoint ← m.endpoint.advance? count
      if c.engine.bufferSize < behind.toNat then none
      else
        let data := Hardware.peek c.hardware first.toNat count.toNat
        return (.finished ⟨endpoint, .ok { count := count.toNat, data }⟩, c)
    | .write _ => do
      let endpoint ← m.endpoint.advance? (← Word.ofNat? moved)
      return (.finished ⟨endpoint, .ok { count := moved }⟩, c)

variable {m : MemoryCall} {e : Engine}

theorem Measured.front (h : m.Measured e) {skip moved room : Nat} (hstage : m.stage = .collect skip moved)
    (hrequest : m.request = .read room) :
    skip < moved ∧ m.endpoint.position + (moved - skip) ≤ m.endpoint.length := by
  obtain ⟨span, hplan, rfl, hmost, hmove⟩ := h.collecting skip moved hstage
  unfold planned at hplan
  simp only [hrequest] at hplan
  obtain ⟨-, -, -, hskip, hstart, hend⟩ := MemoryEndpoint.planRead_some hplan
  have hless := Nat.mod_lt m.endpoint.position e.alignment_pos
  have hunit : e.alignment ≤ moved := Nat.le_of_dvd hmove.pos (Nat.dvd_of_mod_eq_zero hmove.whole)
  omega

theorem Measured.written (h : m.Measured e) {skip moved : Nat} {data : List UInt8}
    (hstage : m.stage = .collect skip moved) (hrequest : m.request = .write data) :
    m.endpoint.position + moved ≤ m.endpoint.length := by
  obtain ⟨span, hplan, -, hmost, -⟩ := h.collecting skip moved hstage
  unfold planned at hplan
  simp only [hrequest] at hplan
  obtain ⟨-, hroom, -, -, rfl⟩ := MemoryEndpoint.planWrite_some hplan
  exact Nat.le_trans (Nat.add_le_add_left hmost _) hroom

theorem Measured.staged (h : m.Measured e) {span : Span} {data : List UInt8} (hstage : m.stage = .fill span)
    (hrequest : m.request = .write data) : data.length ≤ e.bufferSize := by
  have hplan := h.filling span hstage
  unfold planned at hplan
  simp only [hrequest] at hplan
  obtain ⟨-, -, hsize, -⟩ := MemoryEndpoint.planWrite_some hplan
  exact hsize

theorem plan?_eq (halignment : e.alignment ≤ Register.countMax)
    (hfits : m.endpoint.region.base.toNat + m.endpoint.length < 2 ^ 64) (hsize : m.request.size < 2 ^ 63) :
    m.plan? e = some (m.plan e) := by
  have hplanned : m.planned? e = some (m.planned e) := by
    unfold planned? planned
    cases hrequest : m.request with
    | read room =>
      rw [hrequest] at hsize
      exact MemoryEndpoint.planRead?_eq halignment hfits hsize
    | write data => exact MemoryEndpoint.planWrite?_eq hfits
  unfold plan?
  rw [hplanned]
  obtain ⟨error, hplan, hends⟩ | ⟨hplan, hends⟩ | ⟨span, hplan, hends⟩ := m.plan_cases e
  · rw [hplan, hends]
    rfl
  · rw [hplan, hends]
    rfl
  · rw [hplan, hends]
    rfl

theorem Measured.step?_eq {c : Channel σ} (h : m.Measured c.engine) (hsound : c.engine.Sound)
    (halignment : c.engine.alignment ≤ Register.countMax)
    (hfits : m.endpoint.region.base.toNat + m.endpoint.length < 2 ^ 64) (hsize : m.request.size < 2 ^ 63) :
    m.step? c = some (m.step c) := by
  unfold step?
  cases hstage : m.stage with
  | plan =>
    simp only [plan?_eq halignment hfits hsize, MemoryCall.step, hstage]
    rfl
  | fill span =>
    cases hrequest : m.request with
    | read room => rfl
    | write data => exact if_pos (h.staged hstage hrequest)
  | move skip t =>
    by_cases hcheck : t.stage = .check
    · simp only [hcheck, Transfer.check?_eq halignment hsound.countMax, Option.bind_eq_bind, Option.bind_some,
        MemoryCall.step, Transfer.step, hstage]
      rfl
    · exact if_neg hcheck
  | collect skip moved =>
    have hmost : moved ≤ c.engine.maxTransfer := by
      obtain ⟨span, -, -, -, hmove⟩ := h.collecting skip moved hstage
      exact hmove.most
    have hword : moved < 2 ^ 64 := Nat.lt_of_le_of_lt (Nat.le_trans hmost hsound.countMax) (by decide)
    obtain ⟨whole, hwhole, hcount⟩ := Word.ofNat?_eq hword
    cases hrequest : m.request with
    | read room =>
      rw [hrequest] at hsize
      change room < 2 ^ 63 at hsize
      have hbuffer := hsound.maxTransfer
      obtain ⟨hfront, hinside⟩ := h.front hstage hrequest
      obtain ⟨first, hfirst, hskip⟩ := Word.ofNat?_eq (Nat.lt_trans hfront hword)
      obtain ⟨left, hleft, hrest⟩ := Word.sub?_eq (a := whole) (b := first) (by omega)
      obtain ⟨wanted, hwanted, hroom⟩ := Word.ofNat?_eq (n := room) (by omega)
      have hread : (min wanted left).toNat = min room (moved - skip) := by
        rw [Word.toNat_min, hroom, hrest, hcount, hskip]
      obtain ⟨behind, hbehind, hsum⟩ := Word.add?_eq (a := first) (b := min wanted left) (by omega)
      have hadvance := MemoryEndpoint.advance?_eq (m := m.endpoint) (min wanted left) (by omega)
      have hslice : ¬ c.engine.bufferSize < behind.toNat := by omega
      simp only [hwhole, hfirst, hleft, hwanted, hbehind, hadvance, hslice, hread, hskip, Option.bind_eq_bind,
        Option.bind_some, if_false, MemoryCall.step, hstage, hrequest]
      rfl
    | write data =>
      have hadvance := MemoryEndpoint.advance?_eq whole
        (by rw [hcount]; exact h.written hstage hrequest)
      simp only [hwhole, hadvance, hcount, Option.bind_eq_bind, Option.bind_some, MemoryCall.step, hstage,
        hrequest]
      rfl

end

end MemoryCall

/-! ## Attached cards -/

theorem Engine.alignment_le_countMax {address : UInt64} {size : Nat} {settings : DmaSettings} {timeout : Nat}
    {e : Engine} (h : configure address size settings timeout = .ok e) : e.alignment ≤ Register.countMax := by
  obtain ⟨reason, hrefused⟩ | ⟨-, -, hlimit, hmade⟩ := configure_cases address size settings timeout
  · rw [hrefused] at h
    cases h
  · rw [hmade] at h
    cases h
    by_contra hlarge
    apply hlimit
    change ¬ settings.alignment ≤ Register.countMax at hlarge
    unfold transferLimit
    rw [Nat.mod_eq_of_lt (Nat.not_le.1 hlarge), Nat.sub_self, Nat.zero_min]

/-- No arithmetic is out of range. The limit of a transfer is found for every buffer and all settings. On a card
that is attached every step of a call comes to the same on words, for every endpoint wherever it stands, for
every buffer of a caller and whatever the card does. -/
theorem Board.arithmetic_in_range :
    (∀ (address size : UInt64) (settings : DmaSettings) (timeout : Nat),
      Engine.limit? address size settings = some
        ((Engine.configure address size.toNat settings timeout).toOption.map fun e => .ofNat e.maxTransfer)) ∧
    ∀ {σ τ : Type} [Hardware σ] [Hardware τ] {parts : Parts} {settings : Settings} {hardware hardware' : σ}
      {b : Board} {e : Engine} {node : Node} {region : Region} {deeds : List Deed} {endpoint : MemoryEndpoint}
      {request : MemoryRequest} {m : MemoryCall} {c : Channel τ},
      Board.attach parts settings hardware = (.ok (b, some e), hardware') →
      node ∈ b.layout.nodes → node.kind = .memory region → MemoryEndpoint.Follows region deeds endpoint →
      request.size < 2 ^ 63 → MemoryCall.OnWay e { endpoint, request } m → e.Like c.engine →
      m.step? c = some (m.step c) := by
  refine ⟨Engine.limit?_eq, ?_⟩
  intro σ τ _ _ parts settings hardware hardware' b e node region deeds endpoint request m c hattach hnode
    hregion hfollows hsize hway hlike
  have hplaced := hfollows.placed
  obtain ⟨table, htable⟩ := Board.ofTable_of_attach hattach
  obtain ⟨-, layout, hlayout, rfl⟩ := Board.eq_of_ofTable htable
  obtain ⟨entry, -, -, hfinish⟩ := Layout.entry_of_memory hlayout hnode hregion
  have hfits : endpoint.region.base.toNat + endpoint.length < 2 ^ 64 := by
    rw [← hplaced.region, Region.finish?_isSome] at hfinish
    exact hfinish
  obtain ⟨surveyed, -, ⟨-, hnone, -⟩ | ⟨-, buffer, started, -, hstarted, hstart⟩⟩ :=
    Board.survey_of_attach hattach
  · cases hnone
  cases hstarted
  have hmade := Channel.configure_of_start hstart
  obtain ⟨hsound, -⟩ := Engine.sound_of_configure hmade
  obtain ⟨hmeasured, rfl, rfl⟩ := hway.measured hsound.pos
  refine (hmeasured.like hlike).step?_eq (hsound.like hlike) ?_ hfits hsize
  rw [hlike.alignment]
  exact Engine.alignment_le_countMax hmade

open Simulation

namespace Tenancy

def pageEngine : Engine := pageCard.engine.getD default

/-- The engine of the card with a page of host memory, its signal given once. -/
def signalledPage : Channel Rig := ⟨{ pageEngine with completion := { done := 1 } }, pageCard.hardware⟩

def oddEndpoint : MemoryEndpoint :=
  { region := { name := "ddr1", base := 0x800080000000, length := 0x8000000, permissions := { bits := 4 } },
    position := 33 }

def oddRead (stage : CallStage) : MemoryCall := { endpoint := oddEndpoint, request := .read 2, stage }

def oddMove (stage : Stage) : MemoryCall :=
  oddRead (.move 1 { start := 0x800080000020, count := 32, direction := .fromDevice, stage })

theorem oddRead_onWay : MemoryCall.OnWay pageEngine (oddRead .plan) (oddRead (.collect 1 32)) := by
  have hgo {m m' : MemoryCall} (h : (m.step signalledPage).1.rest? = some m') :
      MemoryCall.OnWay pageEngine (oddRead .plan) m → MemoryCall.OnWay pageEngine (oddRead .plan) m' :=
    .next ⟨_, _, rfl⟩ h
  have hmove (stage next : Stage)
      (h : ((oddMove stage).step signalledPage).1.rest? = some (oddMove next)) :
      MemoryCall.OnWay pageEngine (oddRead .plan) (oddMove stage) →
        MemoryCall.OnWay pageEngine (oddRead .plan) (oddMove next) := hgo h
  have hfill : MemoryCall.OnWay pageEngine (oddRead .plan)
      (oddRead (.fill { start := 0x800080000020, count := 32, skip := 1 })) := hgo (by decide +kernel) .begun
  have hcheck : MemoryCall.OnWay pageEngine (oddRead .plan) (oddMove .check) := hgo (by decide +kernel) hfill
  have hinspect := hmove .give .inspect (by decide +kernel) (hmove .check .give (by decide +kernel) hcheck)
  have henter := hmove .arm .enter (by decide +kernel) (hmove .inspect .arm (by decide +kernel) hinspect)
  have hawait := hmove .program .await (by decide +kernel) (hmove .enter .program (by decide +kernel) henter)
  have hend := hmove .take .conclude (by decide +kernel) (hmove .await .take (by decide +kernel) hawait)
  exact hgo (by decide +kernel) hend

end Tenancy

/-- What was moved for a read at an odd place is cut at both ends. -/
theorem Board.arithmetic_in_range_odd :
    Board.attach Tenancy.pageParts {} Tenancy.pageRig =
      (.ok (Tenancy.pageCard.board, some Tenancy.pageEngine), Tenancy.pageCard.hardware) ∧
    (∃ deeds, MemoryEndpoint.Follows Tenancy.oddEndpoint.region deeds Tenancy.oddEndpoint) ∧
    MemoryCall.OnWay Tenancy.pageEngine (Tenancy.oddRead .plan) (Tenancy.oddRead (.collect 1 32)) ∧
    (Tenancy.oddRead (.collect 1 32)).step? Tenancy.signalledPage =
      some ((Tenancy.oddRead (.collect 1 32)).step Tenancy.signalledPage) := by
  have hengine : Tenancy.pageCard.engine = some Tenancy.pageEngine := by decide +kernel
  have hattach := Tenancy.pageCard_attached
  rw [hengine] at hattach
  have hnode : ⟨2, "amc525_mbf.0.ddr1", .memory Tenancy.oddEndpoint.region⟩ ∈
      Tenancy.pageCard.board.layout.nodes := by
    decide +kernel
  have hfollows : MemoryEndpoint.Follows Tenancy.oddEndpoint.region _ Tenancy.oddEndpoint :=
    .sought_ok .opened (MemoryEndpoint.seek_eq (by decide))
  exact ⟨hattach, ⟨_, hfollows⟩, Tenancy.oddRead_onWay, Board.arithmetic_in_range.2 hattach hnode rfl hfollows
    (by decide) Tenancy.oddRead_onWay ⟨_, _, rfl⟩⟩

end FpgaCard
