import FpgaCard.Proofs.Words
import FpgaCard.Simulation.Rig

/-!
# The driver on a simulated card

What each operation of the driver does to the card, the log of accesses apart: one statement for
each, from which everything about runs of them follows.
-/

namespace FpgaCard

open Simulation

namespace Simulation.Card

@[simps]
def withLog (c : Card) (writes : Array (Nat × UInt32)) (reads : Nat) : Card :=
  { c with writes, reads }

@[simps]
def withStatus (c : Card) (status : UInt32) : Card := { c with status }

@[simps]
def resetTo (c : Card) (control : UInt32) : Card :=
  { c with control, status := Status.idle, pending := false }

end Simulation.Card

namespace Channel

abbrev card (c : Channel Rig) : Card := c.hardware.card

def withCard (c : Channel Rig) (card : Card) : Channel Rig :=
  { c with hardware := { c.hardware with card } }

@[simp]
theorem withCard_card (c : Channel Rig) (card : Card) : (c.withCard card).card = card := rfl

@[simp]
theorem withCard_engine (c : Channel Rig) (card : Card) : (c.withCard card).engine = c.engine := rfl

@[simp]
theorem withCard_withCard (c : Channel Rig) (card card' : Card) :
    (c.withCard card).withCard card' = c.withCard card' := rfl

@[simp]
theorem withCard_raised (c : Channel Rig) (card : Card) :
    (c.withCard card).hardware.raised = c.hardware.raised := rfl

@[simp]
theorem withCard_routed (c : Channel Rig) (card : Card) :
    (c.withCard card).hardware.routed = c.hardware.routed := rfl

@[simp]
theorem signal_card (c : Channel Rig) (f : Completion → Completion) : (c.signal f).card = c.card := rfl

/-! ## Reading and resetting -/

theorem load_status (c : Channel Rig) :
    ∃ r, c.load Register.status = (c.card.status, c.withCard (c.card.withLog c.card.writes r)) :=
  ⟨_, rfl⟩

theorem load_control (c : Channel Rig) :
    ∃ r, c.load Register.control = (c.card.control, c.withCard (c.card.withLog c.card.writes r)) :=
  ⟨_, rfl⟩

theorem awaitReset_eq (c : Channel Rig) (tries : Nat) :
    ∃ r, c.awaitReset tries =
      (!anySet c.card.control Control.reset, c.withCard (c.card.withLog c.card.writes r)) := by
  induction tries generalizing c with
  | zero =>
    obtain ⟨r, hr⟩ := load_control c
    refine ⟨r, ?_⟩
    unfold awaitReset
    rw [hr]
    cases anySet c.card.control Control.reset <;> rfl
  | succ tries ih =>
    obtain ⟨r, hr⟩ := load_control c
    unfold awaitReset
    rw [hr]
    cases h : anySet c.card.control Control.reset with
    | false => exact ⟨r, rfl⟩
    | true =>
      obtain ⟨r', hr'⟩ := ih (c.withCard (c.card.withLog c.card.writes r))
      refine ⟨r', ?_⟩
      simp only [if_true]
      rw [hr', withCard_card, Card.withLog_control, h]
      rfl

theorem reset_logged (c : Channel Rig) :
    (c.card.stuck = false ∧ ∃ r, c.reset =
      (.ok (), c.withCard ((c.card.resetTo Control.bothInterrupts).withLog
        ((c.card.writes.push (Register.control, Control.reset)).push
          (Register.control, Control.bothInterrupts)) r))) ∨
    (c.card.stuck = true ∧ ∃ r, c.reset = (.error (.resetTimeout c.engine.resetTimeout),
      c.withCard ((c.card.resetTo Control.reset).withLog
        (c.card.writes.push (Register.control, Control.reset)) r))) := by
  have hstore : c.store Register.control Control.reset = c.withCard
      ((c.card.resetTo (if c.card.stuck then Control.reset else 0)).withLog
        (c.card.writes.push (Register.control, Control.reset)) c.card.reads) := rfl
  obtain ⟨r, hr⟩ := awaitReset_eq (c.store Register.control Control.reset) c.engine.resetTimeout
  rw [hstore, withCard_card, Card.withLog_control, Card.resetTo_control] at hr
  unfold reset
  simp only [hstore, withCard_engine]
  rw [hr]
  cases hstuck : c.card.stuck with
  | false => exact .inl ⟨rfl, r, rfl⟩
  | true => exact .inr ⟨rfl, r, rfl⟩

/-- A reset leaves the controller idle. It ends with both signals on, unless the card is stuck: then
it stays in reset. -/
theorem reset_cases (c : Channel Rig) :
    (c.card.stuck = false ∧ ∃ w r, c.reset =
      (.ok (), c.withCard ((c.card.resetTo Control.bothInterrupts).withLog w r))) ∨
    (c.card.stuck = true ∧ ∃ w r, c.reset = (.error (.resetTimeout c.engine.resetTimeout),
      c.withCard ((c.card.resetTo Control.reset).withLog w r))) := by
  obtain ⟨hstuck, r, h⟩ | ⟨hstuck, r, h⟩ := c.reset_logged
  · exact .inl ⟨hstuck, _, r, h⟩
  · exact .inr ⟨hstuck, _, r, h⟩

theorem reset_isOk (c : Channel Rig) : c.reset.1.isOk = !c.card.stuck := by
  obtain ⟨hstuck, w, r, h⟩ | ⟨hstuck, w, r, h⟩ := c.reset_cases
  · rw [h, hstuck]
    rfl
  · rw [h, hstuck]
    rfl

/-! ## Interrupts -/

theorem interrupt_eq (c : Channel Rig) :
    ∃ w r, c.interrupt = (c.withCard ((c.card.withStatus
      (c.card.status &&& ~~~(c.card.status &&& Status.interrupts))).withLog w r)).signal .complete :=
  ⟨_, _, rfl⟩

def deliverOne (c : Channel Rig) : Channel Rig :=
  match c.hardware.raised with
  | 0 => c
  | n + 1 => { c with hardware := { c.hardware with raised := n } }.interrupt

end Channel

/-! ## Starting a transfer -/

namespace Simulation

namespace HostBuffer

theorem offsetOf_start (b : HostBuffer) (n : Nat) (h : n ≤ b.size) :
    b.offsetOf? b.address n = some 0 := by
  unfold offsetOf?
  rw [if_pos ⟨UInt64.le_refl _, by omega⟩, UInt64.sub_self]

end HostBuffer

/-- What `n` bytes on their way between the buffer and card memory at `start` come to, with the fault
`injected`: the error bits, and memory and the buffer after them. -/
inductive Carried (injected : UInt32) (m : Memory) (b : HostBuffer) (start : UInt64) (n : Nat) :
    Direction → UInt32 → Memory → HostBuffer → Prop where
  | fault (d : Direction) : injected ≠ 0 → Carried injected m b start n d injected m b
  | inside (d : Direction) : injected = 0 → (b.offsetOf? start n).isSome →
      Carried injected m b start n d Status.decodeError m b
  | toDevice : injected = 0 → b.offsetOf? start n = none →
      Carried injected m b start n .toDevice 0 (m.write start (b.cardView.read 0 n)) b
  | fromDevice : injected = 0 → b.offsetOf? start n = none →
      Carried injected m b start n .fromDevice 0 m
        { b with cardView := b.cardView.write 0 (m.read start n) }

theorem Carried.errors_eq {injected : UInt32} {m m' : Memory} {b b' : HostBuffer} {start : UInt64}
    {n : Nat} {d : Direction} {errors : UInt32} (h : Carried injected m b start n d errors m' b')
    (hgenuine : injected &&& Status.errors = injected) : errors &&& Status.errors = errors := by
  cases h with
  | fault => exact hgenuine
  | inside => decide
  | toDevice => decide
  | fromDevice => decide

theorem Carried.errors_eq_zero {injected : UInt32} {m m' : Memory} {b b' : HostBuffer}
    {start : UInt64} {n : Nat} {d : Direction} {errors : UInt32}
    (h : Carried injected m b start n d errors m' b') (hinjected : injected = 0)
    (houtside : b.offsetOf? start n = none) : errors = 0 := by
  cases h with
  | fault _ hfault => exact absurd hinjected hfault
  | inside _ _ hinside => simp [houtside] at hinside
  | toDevice => rfl
  | fromDevice => rfl

theorem Carried.buffer_eq {injected : UInt32} {m m' : Memory} {b b' : HostBuffer} {start : UInt64}
    {n : Nat} {d : Direction} {errors : UInt32} (h : Carried injected m b start n d errors m' b') :
    b'.address = b.address ∧ b'.size = b.size := by
  cases h <;> exact ⟨rfl, rfl⟩

namespace Card

@[simps]
def withAddresses (c : Card) (source destination : UInt64) : Card :=
  { c with source := Transfer.low source, sourceHigh := Transfer.high source,
           destination := Transfer.low destination, destinationHigh := Transfer.high destination }

@[simps]
def moved (c : Card) (memory : Memory) (buffer : HostBuffer) : Card :=
  { c with injected := 0, memory, buffer := some buffer }

@[simps]
def holding (c : Card) (status : UInt32) : Card := { c with status, pending := true }

theorem perform_carried (c : Card) (t : Transfer) (e : Engine) (b : HostBuffer)
    (hb : c.buffer = some b) (haddress : b.address = e.bufferAddress)
    (hpos : 0 < t.count) (hfits : t.count ≤ b.size)
    (hsource : address c.sourceHigh c.source = t.source e)
    (hdestination : address c.destinationHigh c.destination = t.destination e) :
    ∃ errors memory buffer,
      Carried c.injected c.memory b t.start t.count t.direction errors memory buffer ∧
      c.perform t.count = (errors, c.moved memory buffer) := by
  unfold perform
  split
  · rename_i hnone
    have hstay : c = c.moved c.memory b := by
      cases c
      simp_all [moved]
    have hin := b.offsetOf_start t.count hfits
    rw [haddress] at hin
    unfold copy
    rw [hb, hsource, hdestination]
    simp only [if_neg (show t.count ≠ 0 by omega)]
    unfold Transfer.source Transfer.destination
    cases hstart : b.offsetOf? t.start t.count with
    | some offset =>
      refine ⟨Status.decodeError, c.memory, b, .inside _ hnone (by simp [hstart]), ?_⟩
      rw [← hstay]
      cases t.direction <;> simp only [hin, hstart]
    | none =>
      cases t.direction with
      | toDevice =>
        refine ⟨0, _, b, .toDevice hnone hstart, ?_⟩
        simp only [hin, hstart, moved, ← hnone, ← hb]
      | fromDevice =>
        refine ⟨0, c.memory, _, .fromDevice hnone hstart, ?_⟩
        simp only [hin, hstart, moved, ← hnone]
  · rename_i hsome
    refine ⟨c.injected, c.memory, b, .fault _ hsome, ?_⟩
    rw [moved, ← hb]

theorem start_cases (c c' : Card) (written errors : UInt32)
    (h : c.perform (written.toNat % (Register.countMax + 1)) = (errors, c')) :
    (anySet c'.control (enableBit errors) = true ∧ c'.mode = .manual ∧
      c.start written = (false, c'.holding (latch c'.status errors &&& ~~~Status.idle))) ∨
    ((anySet c'.control (enableBit errors) = true → c'.mode = .immediate) ∧
      c.start written =
        (anySet c'.control (enableBit errors), c'.withStatus (latch c'.status errors))) := by
  unfold start
  rw [h]
  cases henabled : anySet c'.control (enableBit errors) with
  | false => exact .inr ⟨by simp, by simp [henabled, withStatus]⟩
  | true =>
    cases hmode : c'.mode with
    | manual => exact .inl ⟨rfl, rfl, by simp [henabled, hmode, holding]⟩
    | immediate => exact .inr ⟨fun _ => rfl, by simp [henabled, hmode, withStatus]⟩

end Card

end Simulation

namespace Channel

def answered (c : Channel Rig) (fires : Bool) : Channel Rig :=
  { c with hardware := { c.hardware with
      raised := if fires && c.hardware.routed then c.hardware.raised + 1 else c.hardware.raised } }

@[simp]
theorem answered_card (c : Channel Rig) (fires : Bool) : (c.answered fires).card = c.card := rfl

@[simp]
theorem answered_engine (c : Channel Rig) (fires : Bool) : (c.answered fires).engine = c.engine := rfl

@[simp]
theorem answered_raised (c : Channel Rig) (fires : Bool) : (c.answered fires).hardware.raised =
    if fires && c.hardware.routed then c.hardware.raised + 1 else c.hardware.raised := rfl

end Channel

namespace Transfer

/-- The channel just before the count is written. -/
def addressed (t : Transfer) (c : Channel Rig) : Channel Rig :=
  (((c.store Register.sourceHigh (high (t.source c.engine))).store
    Register.source (low (t.source c.engine))).store
    Register.destination (low (t.destination c.engine))).store
    Register.destinationHigh (high (t.destination c.engine))

theorem addressed_eq (t : Transfer) (c : Channel Rig) :
    ∃ w, t.addressed c = c.withCard
      ((c.card.withAddresses (t.source c.engine) (t.destination c.engine)).withLog w c.card.reads) := by
  have hsourceHigh (c : Channel Rig) (v : UInt32) : ∃ w, c.store Register.sourceHigh v =
    c.withCard ({ c.card with sourceHigh := v }.withLog w c.card.reads) := ⟨_, rfl⟩
  have hsource (c : Channel Rig) (v : UInt32) : ∃ w, c.store Register.source v =
    c.withCard ({ c.card with source := v }.withLog w c.card.reads) := ⟨_, rfl⟩
  have hdestination (c : Channel Rig) (v : UInt32) : ∃ w, c.store Register.destination v =
    c.withCard ({ c.card with destination := v }.withLog w c.card.reads) := ⟨_, rfl⟩
  have hdestinationHigh (c : Channel Rig) (v : UInt32) : ∃ w, c.store Register.destinationHigh v =
    c.withCard ({ c.card with destinationHigh := v }.withLog w c.card.reads) := ⟨_, rfl⟩
  unfold addressed
  generalize t.source c.engine = source
  generalize t.destination c.engine = destination
  obtain ⟨_, h⟩ := hsourceHigh c (high source)
  rw [h]
  obtain ⟨_, h⟩ := hsource _ (low source)
  rw [h]
  obtain ⟨_, h⟩ := hdestination _ (low destination)
  rw [h]
  obtain ⟨w, h⟩ := hdestinationHigh _ (high destination)
  rw [h]
  refine ⟨w, ?_⟩
  simp only [Channel.withCard_withCard, Channel.withCard_card]
  rfl

theorem program_addressed (t : Transfer) (c : Channel Rig) :
    t.program c = (t.addressed c).store Register.count (UInt32.ofNat t.count) := rfl

theorem program_eq (t : Transfer) (c : Channel Rig) :
    ∃ w, t.program c = ⟨c.engine, c.hardware.signal
      (((c.card.withAddresses (t.source c.engine) (t.destination c.engine)).withLog w
        c.card.reads).start (UInt32.ofNat t.count))⟩ := by
  have hcount (c : Channel Rig) (v : UInt32) : ∃ w, c.store Register.count v =
    ⟨c.engine, c.hardware.signal ((c.card.withLog w c.card.reads).start v)⟩ := ⟨_, rfl⟩
  obtain ⟨_, haddressed⟩ := t.addressed_eq c
  rw [program_addressed, haddressed]
  obtain ⟨w, hstart⟩ := hcount _ (UInt32.ofNat t.count)
  exact ⟨w, hstart⟩

theorem count_word {n : Nat} (h : n ≤ Register.countMax) :
    (UInt32.ofNat n).toNat % (Register.countMax + 1) = n := by
  unfold Register.countMax at *
  rw [UInt32.toNat_ofNat']
  omega

/-- The write of the count runs the transfer. The card answers it at once or holds the answer back,
but gives none if its signals are off. -/
theorem program_cases (t : Transfer) (c : Channel Rig) (b : HostBuffer)
    (hb : c.card.buffer = some b) (haddress : b.address = c.engine.bufferAddress)
    (hpos : 0 < t.count) (hfits : t.count ≤ b.size) (hcount : t.count ≤ Register.countMax) :
    ∃ errors memory buffer card,
      Carried c.card.injected c.card.memory b t.start t.count t.direction errors memory buffer ∧
      (∃ w, card = ((c.card.withAddresses (t.source c.engine) (t.destination c.engine)).withLog w
        c.card.reads).moved memory buffer) ∧
      ((anySet c.card.control (Card.enableBit errors) = true ∧ c.card.mode = .manual ∧
        t.program c = c.withCard
          (card.holding (Card.latch c.card.status errors &&& ~~~Status.idle))) ∨
      ((anySet c.card.control (Card.enableBit errors) = true → c.card.mode = .immediate) ∧
        t.program c = (c.withCard (card.withStatus (Card.latch c.card.status errors))).answered
          (anySet c.card.control (Card.enableBit errors)))) := by
  obtain ⟨w, hw⟩ := t.program_eq c
  have hword := count_word hcount
  obtain ⟨errors, memory, buffer, hcarried, hperform⟩ := Card.perform_carried
    ((c.card.withAddresses (t.source c.engine) (t.destination c.engine)).withLog w c.card.reads)
    t c.engine b hb haddress hpos hfits (by simp) (by simp)
  refine ⟨errors, memory, buffer, _, hcarried, ⟨w, rfl⟩, ?_⟩
  rw [hw]
  rw [← hword] at hperform
  obtain ⟨henabled, hmode, hstart⟩ | ⟨hmode, hstart⟩ := Card.start_cases _ _ _ _ hperform
  · exact .inl ⟨henabled, hmode, by rw [hstart]; rfl⟩
  · exact .inr ⟨hmode, by rw [hstart]; rfl⟩

end Transfer

end FpgaCard
