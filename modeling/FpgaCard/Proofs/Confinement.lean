import FpgaCard.Proofs.Calls

/-!
# What the controller is told to move

The transfers that calls of memory endpoints start, on a card in use whose controller nobody makes busy
between a transfer's look at it and its start. Main statement: whenever a call writes the count, the
registers name the host buffer and a span of the endpoint's own region, in a direction that the region
permits and with a count that the controller can take, and the controller is idle and without error.
-/

namespace FpgaCard

open Simulation

/-! ## The log of counts -/

namespace Simulation.Card

/-- The counts in the log, oldest first. Each of them started a transfer. -/
def counts (c : Card) : List UInt32 :=
  c.writes.toList.filterMap fun (offset, value) => if offset = Register.count then some value else none

theorem counts_eq (c : Card) : c.counts = (c.writesTo (· = Register.count)).map Prod.snd := by
  unfold counts writesTo
  induction c.writes.toList with
  | nil => rfl
  | cons w writes ih =>
    rw [List.filterMap_cons, List.filter_cons, ih]
    by_cases h : w.1 = Register.count <;> simp [h]

end Simulation.Card

theorem Transfer.step_counts (t : Transfer) (c : Channel Rig) (h : t.stage ≠ .program) :
    (t.step c).2.card.counts = c.card.counts := by
  rw [Card.counts_eq, Card.counts_eq, t.step_writesTo c h (by decide)]

namespace MemoryCall

theorem step_counts (m : MemoryCall) (c : Channel Rig)
    (h : ∀ skip t, m.stage = .move skip t → t.stage ≠ .program) :
    (m.step c).2.card.counts = c.card.counts := by
  cases hstage : m.stage with
  | plan => rw [m.step_plan c hstage]
  | fill span =>
    rw [(m.step_fill c hstage).2]
    cases m.request <;> rfl
  | move skip t =>
    rw [(m.step_move c hstage).2]
    exact t.step_counts c (h skip t hstage)
  | collect skip moved => rw [(m.step_collect c hstage).2]

end MemoryCall

/-! ## Plans -/

def Region.permits (r : Region) : Direction → Bool
  | .toDevice => r.permissions.canWrite
  | .fromDevice => r.permissions.canRead

theorem MemoryCall.inside_of_planned {m : MemoryCall} {e : Engine} {span : Span}
    (h : m.planned e = .ok (some span)) :
    m.endpoint.region.permits m.direction = true ∧
      m.endpoint.region.base.toNat ≤ span.start ∧
      span.start + span.count ≤ m.endpoint.region.base.toNat + m.endpoint.length ∧
      m.endpoint.region.base.toNat + m.endpoint.length < 2 ^ 64 := by
  unfold planned at h
  unfold direction
  cases hrequest : m.request with
  | read room =>
    simp only [hrequest] at h
    obtain ⟨-, -, hfits, hskip, hstart, hend⟩ := MemoryEndpoint.planRead_some h
    have hless := Nat.mod_le m.endpoint.position e.alignment
    refine ⟨?_, by omega, hend, hfits⟩
    unfold MemoryEndpoint.planRead at h
    split at h
    · cases h
    · rename_i hpermitted
      simpa [Region.permits] using hpermitted
  | write data =>
    simp only [hrequest] at h
    obtain ⟨-, hroom, -, hfits, rfl⟩ := MemoryEndpoint.planWrite_some h
    refine ⟨?_, by simp only; omega, by simp only; omega, hfits⟩
    unfold MemoryEndpoint.planWrite at h
    split at h
    · cases h
    · rename_i hpermitted
      simpa [Region.permits] using hpermitted

/-! ## Transfers of a span -/

/-- A transfer that carries out a planned span: it moves no more of it than was planned, and starts an
idle controller. -/
structure Transfer.CarriesOut (t : Transfer) (span : Span) (d : Direction) (c : Channel Rig) : Prop where
  start : t.start = UInt64.ofNat span.start
  direction : t.direction = d
  count : t.count ≤ span.count
  aligned : t.stage ≠ .check → t.count % c.engine.alignment = 0
  idle : t.stage = .arm ∨ t.stage = .enter ∨ t.stage = .program → c.card.status &&& Status.idle ≠ 0

/-- Whether a transfer has looked at the controller and has not started it yet. -/
def Transfer.isCommitted (t : Transfer) : Bool :=
  t.stage = .arm ∨ t.stage = .enter ∨ t.stage = .program

theorem Disturbance.act_idle (d : Disturbance) (c : Channel Rig)
    (hspares : (Move.disturb d).sparesIdle = true) (h : c.card.status &&& Status.idle ≠ 0) :
    (d.act c).card.status &&& Status.idle ≠ 0 := by
  cases d with
  | kill => exact h
  | close => exact h
  | deliver =>
    obtain ⟨-, hact⟩ | ⟨n, -, hact⟩ := c.deliverOne_cases
    · simpa only [act, hact] using h
    · obtain ⟨w, r, hinterrupt⟩ := (c.withRaised n).interrupt_eq
      simp only [act, hact, hinterrupt]
      simpa using h
  | raise =>
    obtain ⟨-, hact⟩ | ⟨-, hact⟩ := act_raise_cases c
    · rwa [hact]
    · rw [hact]
      simp
      decide
  | bench p hp =>
    obtain ⟨_, _, status, _, _, _, _, hact, -, hstatus, -⟩ := act_bench_cases c p hp
    rw [hact]
    obtain rfl | ⟨hwedge, -⟩ := hstatus
    · exact h
    · rw [Move.sparesIdle, hwedge] at hspares
      cases hspares

namespace Transfer.CarriesOut

variable {t : Transfer} {span : Span} {direction : Direction} {c : Channel Rig}

theorem act (h : t.CarriesOut span direction c) (d : Disturbance)
    (hidle : (Move.disturb d).sparesIdle = true ∨ t.isCommitted = false) :
    t.CarriesOut span direction (d.act c) := by
  refine ⟨h.start, h.direction, h.count, ?_, ?_⟩
  · rw [(d.act_spared c).engine.alignment]
    exact h.aligned
  · intro hstage
    obtain hspares | hcommitted := hidle
    · exact d.act_idle c hspares (h.idle hstage)
    · simp [isCommitted, hstage] at hcommitted

theorem goto (h : t.CarriesOut span direction c) (hchecked : t.stage ≠ .check) {stage : Stage}
    {c' : Channel Rig} (hlike : c.engine.Like c'.engine)
    (hidle : stage = .arm ∨ stage = .enter ∨ stage = .program → c'.card.status &&& Status.idle ≠ 0) :
    CarriesOut { t with stage } span direction c' := by
  refine ⟨h.start, h.direction, h.count, fun _ => ?_, hidle⟩
  rw [hlike.alignment]
  exact h.aligned hchecked

theorem step (h : t.CarriesOut span direction c) (hsound : t.Sound c) {t' : Transfer}
    (h' : (t.step c).1.rest? = some t') : t'.CarriesOut span direction (t.step c).2 := by
  have hlike := hsound.step_like
  cases hstage : t.stage with
  | check =>
    rw [t.step_check c hstage] at h' ⊢
    obtain ⟨error, hcheck⟩ | ⟨-, haligned, hcheck⟩ := t.check_cases c.engine
    · rw [hcheck] at h'
      cases h'
    · rw [hcheck] at h'
      cases h'
      exact ⟨h.start, h.direction, Nat.le_trans (Nat.min_le_left _ _) h.count, fun _ => haligned,
        by simp⟩
  | give =>
    rw [t.step_give c hstage] at h' hlike ⊢
    cases h'
    exact h.goto (by simp [hstage]) hlike (by simp)
  | inspect =>
    obtain ⟨hready, w, r, hstep⟩ | ⟨-, -, w, r, hstep⟩ | ⟨-, -, w, r, hstep⟩ := t.step_inspect c hstage
    · rw [hstep] at h' hlike ⊢
      cases h'
      exact h.goto (by simp [hstage]) hlike fun _ => ((isReady_iff _).1 hready).2
    · rw [hstep] at h' hlike ⊢
      cases h'
      exact h.goto (by simp [hstage]) hlike fun _ => by simp; decide
    · rw [hstep] at h'
      cases h'
  | arm =>
    rw [t.step_arm c hstage] at h' hlike ⊢
    cases h'
    exact h.goto (by simp [hstage]) hlike fun _ => h.idle (by simp [hstage])
  | enter =>
    rw [t.step_enter c hstage] at h' hlike ⊢
    cases hclosed : c.engine.closed with
    | true =>
      rw [hclosed] at h'
      cases h'
    | false =>
      rw [hclosed] at h'
      cases h'
      exact h.goto (by simp [hstage]) hlike fun _ => h.idle (by simp [hstage])
  | program =>
    rw [t.step_program c hstage] at h' hlike ⊢
    cases h'
    exact h.goto (by simp [hstage]) hlike (by simp)
  | await =>
    obtain ⟨-, _, hstep⟩ | ⟨-, -, hstep⟩ | ⟨-, -, hstep⟩ := t.step_await c hstage
    · rw [hstep] at h'
      cases h'
    · rw [hstep] at h' hlike ⊢
      cases h'
      exact h.goto (by simp [hstage]) hlike (by simp)
    · rw [hstep] at h' ⊢
      cases h'
      exact h
  | take =>
    rw [t.step_take c hstage] at h' hlike ⊢
    cases h'
    exact h.goto (by simp [hstage]) hlike (by simp)
  | conclude =>
    obtain ⟨_, hstep⟩ := t.step_conclude c hstage
    rw [hstep] at h'
    cases h'

end Transfer.CarriesOut

/-! ## Calls -/

structure MemoryCall.OnCourse (m : MemoryCall) (c : Channel Rig) : Prop where
  filling : ∀ span, m.stage = .fill span → m.planned c.engine = .ok (some span)
  moving : ∀ skip t, m.stage = .move skip t →
    ∃ span, m.planned c.engine = .ok (some span) ∧ t.CarriesOut span m.direction c

namespace MemoryCall.OnCourse

variable {m : MemoryCall} {c : Channel Rig}

theorem act (h : m.OnCourse c) (d : Disturbance)
    (hidle : (Move.disturb d).sparesIdle = true ∨ ∀ skip t, m.stage = .move skip t →
      t.isCommitted = false) : m.OnCourse (d.act c) := by
  have hplanned := m.planned_like (d.act_spared c).engine
  refine ⟨?_, ?_⟩
  · rw [hplanned]
    exact h.filling
  · intro skip t hstage
    rw [hplanned]
    obtain ⟨span, hspan, ht⟩ := h.moving skip t hstage
    exact ⟨span, hspan, ht.act d (hidle.imp_right fun hcommitted => hcommitted skip t hstage)⟩

theorem step (h : m.OnCourse c) (hsound : ∀ skip t, m.stage = .move skip t → t.Sound c)
    {m' : MemoryCall} (h' : (m.step c).1.rest? = some m') : m'.OnCourse (m.step c).2 := by
  cases hstage : m.stage with
  | plan =>
    rw [m.step_plan c hstage] at h' ⊢
    obtain ⟨_, -, hplan⟩ | ⟨-, hplan⟩ | ⟨span, hspan, hplan⟩ := m.plan_cases c.engine
    · rw [hplan] at h'
      cases h'
    · rw [hplan] at h'
      cases h'
    · rw [hplan] at h'
      cases h'
      refine ⟨?_, fun _ _ hmove => by cases hmove⟩
      rintro span' ⟨⟩
      exact hspan
  | fill span =>
    obtain ⟨hnext, hchannel⟩ := m.step_fill c hstage
    rw [hnext] at h'
    cases h'
    have hengine : (m.step c).2.engine = c.engine := by
      rw [hchannel]
      cases m.request <;> rfl
    refine ⟨fun _ hfill => (by cases hfill), ?_⟩
    rintro skip t ⟨⟩
    refine ⟨span, ?_, rfl, rfl, Nat.le_refl _, by simp, by simp⟩
    rw [hengine]
    exact h.filling span hstage
  | move skip t =>
    obtain ⟨hnext, hchannel⟩ := m.step_move c hstage
    obtain ⟨span, hspan, ht⟩ := h.moving skip t hstage
    have hlike := (hsound skip t hstage).step_like
    have hgoes {t' : Transfer} (hrest : (t.step c).1.rest? = some t') :
        OnCourse { m with stage := .move skip t' } (t.step c).2 := by
      refine ⟨fun _ hfill => (by cases hfill), ?_⟩
      rintro _ _ ⟨⟩
      refine ⟨span, ?_, ht.step (hsound skip t hstage) hrest⟩
      exact (m.planned_like hlike).trans hspan
    rw [hnext] at h'
    rw [hchannel]
    cases hp : (t.step c).1 with
    | going t' =>
      rw [hp] at h'
      cases h'
      exact hgoes (by rw [hp]; rfl)
    | waiting t' =>
      rw [hp] at h'
      cases h'
      exact hgoes (by rw [hp]; rfl)
    | finished r =>
      rw [hp] at h'
      cases r with
      | error error => cases h'
      | ok moved =>
        cases h'
        exact ⟨fun _ hfill => (by cases hfill), fun _ _ hmove => by cases hmove⟩
  | collect skip moved =>
    obtain ⟨⟨r, hr⟩, -⟩ := m.step_collect c hstage
    rw [hr] at h'
    cases h'

end MemoryCall.OnCourse

/-! ## Orderly runs -/

namespace Traffic

/-- Whether an event may come now: the controller is not made busy while a transfer that has looked at
it is about to start it. -/
def inOrder (s : Traffic) (e : Event) : Bool :=
  e.sparesIdle || s.transfer?.all fun t => !t.isCommitted

inductive Orderly : Traffic → Prop where
  | attached (c : Channel Rig) (h : Attached c) : Orderly { channel := c }
  | after (s : Traffic) (e : Event) (h : Orderly s) (horder : s.inOrder e = true) : Orderly (s.after e)

def allInOrder (s : Traffic) : List Event → Bool
  | [] => true
  | e :: events => s.inOrder e && (s.after e).allInOrder events

theorem Orderly.run {s : Traffic} (h : s.Orderly) (events : List Event)
    (horder : s.allInOrder events = true) : (s.run events).Orderly := by
  induction events generalizing s with
  | nil => exact h
  | cons e events ih =>
    rw [allInOrder, Bool.and_eq_true] at horder
    exact ih (.after s e h horder.1) horder.2

theorem Orderly.reachable {s : Traffic} (h : s.Orderly) : s.Reachable fun _ => true := by
  induction h with
  | attached c hc => exact .attached c hc
  | after s e _ _ ih => exact .after s e ih rfl

theorem Orderly.onCourse {s : Traffic} (h : s.Orderly) {m : MemoryCall}
    (hwork : s.work = some (.call m)) : m.OnCourse s.channel := by
  induction h generalizing m with
  | attached c hc => cases hwork
  | after s e hs horder ih =>
    -- An event that the run has no room for leaves everything as it is.
    have hsame {w : Work} (hbusy : s.work = some w) (hafter : s.after e = s) :
        m.OnCourse (s.after e).channel := by
      rw [hafter] at hwork ⊢
      exact ih hwork
    cases e with
    | order o =>
      cases hbusy : s.work with
      | some w => exact hsame hbusy (by simp only [Traffic.after, hbusy])
      | none =>
        simp only [Traffic.after, hbusy] at hwork ⊢
        cases o with
        | transfer start count direction => cases hwork
        | call endpoint request =>
          cases hwork
          exact ⟨fun _ hfill => (by cases hfill), fun _ _ hmove => by cases hmove⟩
    | stage offset data =>
      cases hbusy : s.work with
      | some w => exact hsame hbusy (by simp only [Traffic.after, hbusy])
      | none => simp [Traffic.after, hbusy] at hwork
    | reset =>
      cases hbusy : s.work with
      | some w => exact hsame hbusy (by simp only [Traffic.after, hbusy])
      | none => simp [Traffic.after, hbusy] at hwork
    | move move =>
      cases move with
      | disturb d =>
        have hin : s.work = some (.call m) := hwork
        refine (ih hin).act d ?_
        rw [inOrder, Bool.or_eq_true] at horder
        refine horder.imp_right fun hall skip t hstage => ?_
        simpa [transfer?, hin, Work.transfer?, hstage] using hall
      | step =>
        cases hbusy : s.work with
        | none => simp [Traffic.after, hbusy] at hwork
        | some w =>
          simp only [Traffic.after, hbusy] at hwork ⊢
          cases w with
          | transfer t => cases hrest : (t.step s.channel).1.rest? <;> simp [Work.step, hrest] at hwork
          | call m₀ =>
            obtain ⟨m', hrest, heq⟩ := Option.map_eq_some_iff.1 hwork
            cases heq
            refine (ih hbusy).step (fun skip t hstage => ?_) hrest
            exact hs.reachable.sound.transfer t (by simp [transfer?, hbusy, Work.transfer?, hstage])

end Traffic

/-! ## The start of a transfer -/

def Simulation.Card.route (c : Card) : UInt64 × UInt64 :=
  (address c.sourceHigh c.source, address c.destinationHigh c.destination)

def Direction.between : Direction → UInt64 → UInt64 → UInt64 × UInt64
  | .toDevice, host, card => (host, card)
  | .fromDevice, host, card => (card, host)

/-- What the card `c` is asked to do by a write of the count `written` stays within the endpoint `m` and
within what the controller can do. -/
structure MemoryEndpoint.Confines (m : MemoryEndpoint) (d : Direction) (alignment : Nat) (c : Card)
    (written : UInt32) : Prop where
  permitted : m.region.permits d = true
  addresses : ∃ (b : HostBuffer) (a : UInt64), c.buffer = some b ∧
    c.route = d.between b.address a ∧
    m.region.base.toNat ≤ a.toNat ∧ a.toNat + written.toNat ≤ m.region.base.toNat + m.length ∧
    written.toNat ≤ b.size
  addressable : m.region.base.toNat + m.length < 2 ^ 64
  pos : 0 < written.toNat
  aligned : written.toNat % alignment = 0
  countMax : written.toNat ≤ Register.countMax
  idle : c.status &&& Status.idle ≠ 0
  errors : c.status &&& Status.errors = 0

/-- In every orderly run, a step of a call that writes a count starts a transfer within the region that
the call's endpoint has open. -/
theorem Traffic.Orderly.confined {s : Traffic} (hs : s.Orderly) {m : MemoryCall}
    (hwork : s.work = some (.call m))
    (hcounts : (m.step s.channel).2.card.counts ≠ s.channel.card.counts) :
    ∃ skip t, m.stage = .move skip t ∧
      (m.step s.channel).2 =
        (t.addressed s.channel).store Register.count (UInt32.ofNat t.count) ∧
      m.endpoint.Confines m.direction s.channel.engine.alignment (t.addressed s.channel).card
        (UInt32.ofNat t.count) := by
  obtain ⟨skip, t, hmove, hstage⟩ : ∃ skip t, m.stage = .move skip t ∧ t.stage = .program := by
    by_contra hnone
    exact hcounts (m.step_counts s.channel fun skip t hmove hstage => hnone ⟨skip, t, hmove, hstage⟩)
  have hsound : t.Sound s.channel :=
    hs.reachable.sound.transfer t (by simp [transfer?, hwork, Work.transfer?, hmove])
  obtain ⟨span, hspan, ht⟩ := (hs.onCourse hwork).moving skip t hmove
  obtain ⟨hpermitted, hbase, hend, hfits⟩ := MemoryCall.inside_of_planned hspan
  obtain ⟨hpos, hmax⟩ := hsound.count (by simp [hstage])
  obtain ⟨b, hb, haddress, hsize⟩ := hsound.fitted.buffer
  have hengine := hsound.fitted.engine
  have hless := hengine.maxTransfer
  have hcountMax : t.count ≤ Register.countMax := Nat.le_trans hmax hengine.countMax
  have hwritten : (UInt32.ofNat t.count).toNat = t.count := by
    have hword : t.count < 2 ^ 32 := Nat.lt_of_le_of_lt hcountMax (by decide)
    exact UInt32.toNat_ofNat_of_lt' hword
  have hcount := ht.count
  have hstart : t.start.toNat = span.start := by
    have hlong : span.start < 2 ^ 64 := by omega
    rw [ht.start]
    exact UInt64.toNat_ofNat_of_lt' hlong
  obtain ⟨w, haddressed⟩ := t.addressed_eq s.channel
  refine ⟨skip, t, hmove, ?_, ?_⟩
  · rw [(m.step_move s.channel hmove).2, t.step_program s.channel hstage]
    rfl
  · rw [haddressed]
    refine ⟨hpermitted, ⟨b, t.start, hb, ?_, ?_, ?_, ?_⟩, hfits, ?_, ?_, ?_, ?_, ?_⟩
    · rw [haddress, ← ht.direction]
      cases hdirection : t.direction <;>
        simp [Card.route, Direction.between, Transfer.source, Transfer.destination, hdirection]
    · omega
    · omega
    · omega
    · omega
    · rw [hwritten]
      exact ht.aligned (by simp [hstage])
    · omega
    · exact ht.idle (by simp [hstage])
    · exact hsound.healthy (by simp [hstage])

/-- A read of three bytes behind the first, whose transfer has found the controller well. -/
def aboutToRead : MemoryCall :=
  { endpoint := { smallEndpoint with position := 1 }, request := .read 3,
    stage := .move 1 { start := 0x80000000, count := 4, direction := .fromDevice, stage := .program } }

def Traffic.readAhead : Traffic :=
  run { channel := smallChannel }
    (.move (.disturb (.bench .wedge Probe.wedge_sparesRegisters)) ::
      .order (.call aboutToRead.endpoint aboutToRead.request) :: steps 7)

theorem Traffic.readAhead_confined :
    readAhead.work = some (.call aboutToRead) ∧
    (aboutToRead.step readAhead.channel).2.card.counts ≠ readAhead.channel.card.counts ∧
    ∃ skip t, aboutToRead.stage = .move skip t ∧
      (aboutToRead.step readAhead.channel).2 =
        (t.addressed readAhead.channel).store Register.count (UInt32.ofNat t.count) ∧
      aboutToRead.endpoint.Confines aboutToRead.direction readAhead.channel.engine.alignment
        (t.addressed readAhead.channel).card (UInt32.ofNat t.count) := by
  have horderly : readAhead.Orderly :=
    (Orderly.attached smallChannel smallChannel_attached).run _ (by decide +kernel)
  have hwork : readAhead.work = some (.call aboutToRead) := rfl
  have hcounts : (aboutToRead.step readAhead.channel).2.card.counts ≠ readAhead.channel.card.counts := by
    decide +kernel
  exact ⟨hwork, hcounts, horderly.confined hwork hcounts⟩

end FpgaCard
