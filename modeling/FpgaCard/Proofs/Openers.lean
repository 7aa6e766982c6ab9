import FpgaCard.Proofs.Exclusive

/-!
# Openers that have left

The lock of the registers is told how many openers there are, and not which. Its calls take every identity
that was ever given out, that of an opener that has left as well, and it cannot tell the two apart. Main
statement: the lock is for the one opener who is alone as long as nobody who has left is taken for present,
and the first call that does so breaks this.
-/

namespace FpgaCard

/-- The lock with the openers that have not left. -/
structure Roster where
  locking : Locking := {}
  present : List OpenerId := []
  deriving DecidableEq

namespace Roster

inductive Event where
  | enroll
  | acquire (id : OpenerId)
  | release (id : OpenerId)
  | leave (id : OpenerId)
  deriving DecidableEq

def changed (r : Roster) : Except CardError Locking → Except CardError Unit × Roster
  | .ok locking => (.ok (), { r with locking })
  | .error error => (.error error, r)

/-- What a call comes to. Nothing is asked of the identity that it is made with. -/
def step (r : Roster) : Event → Except CardError Unit × Roster
  | .enroll => (.ok (), ⟨r.locking.enroll.2, r.locking.enroll.1 :: r.present⟩)
  | .acquire id => r.changed (r.locking.acquire id)
  | .release id => r.changed (r.locking.release id)
  | .leave id => (.ok (), ⟨r.locking.leave id, r.present.erase id⟩)

def run (r : Roster) (events : List Event) : Roster := events.foldl (fun r e => (r.step e).2) r

/-! ## Harmless calls -/

/-- Whether a call is made by somebody present, or makes no difference: an absent opener is refused the lock
since another has it or two are there, or leaves when nobody is there. -/
def Harmless (r : Roster) : Event → Prop
  | .enroll | .release _ => True
  | .acquire id => id ∈ r.present ∨ r.locking.holder.any (· ≠ id) = true ∨ 1 < r.present.length
  | .leave id => id ∈ r.present ∨ r.present = []

instance (r : Roster) (e : Event) : Decidable (r.Harmless e) :=
  match e with
  | .enroll | .release _ => .isTrue trivial
  | .acquire id => inferInstanceAs
      (Decidable (id ∈ r.present ∨ r.locking.holder.any (· ≠ id) = true ∨ 1 < r.present.length))
  | .leave id => inferInstanceAs (Decidable (id ∈ r.present ∨ r.present = []))

def Clean : Roster → List Event → Prop
  | _, [] => True
  | r, e :: events => r.Harmless e ∧ Clean (r.step e).2 events

instance : (r : Roster) → (events : List Event) → Decidable (r.Clean events)
  | _, [] => .isTrue trivial
  | r, e :: events =>
    have := instDecidableClean (r.step e).2 events
    inferInstanceAs (Decidable (r.Harmless e ∧ Clean (r.step e).2 events))

def Breach (r : Roster) (e : Event) : Prop :=
  ∃ id, e = .acquire id ∧ (r.step e).1.isOk = true ∧ r.present ≠ [id]

/-- The count is that of the openers present, and one of them holds the lock if anybody does. -/
structure Sound (r : Roster) : Prop where
  openers : r.locking.openers = r.present.length
  holder : ∀ id, r.locking.holder = some id → id ∈ r.present

theorem acquire_isOk_iff (r : Roster) (id : OpenerId) : (r.step (.acquire id)).1.isOk = true ↔
    (∀ holder, r.locking.holder = some holder → holder = id) ∧ r.locking.openers ≤ 1 := by
  unfold step
  dsimp only
  rcases r.locking.acquire_cases id with ⟨hlock, hown, hfew⟩ | ⟨⟨error, hlock⟩, hrefused⟩
  · rw [hlock]
    exact ⟨fun _ => ⟨hown, hfew⟩, fun _ => rfl⟩
  · rw [hlock]
    refine ⟨nofun, ?_⟩
    rintro ⟨hown, hfew⟩
    rcases hrefused with ⟨holder, hholder, hother⟩ | hmany
    · exact absurd (hown holder hholder) hother
    · omega

theorem acquire_state (r : Roster) (id : OpenerId) :
    (r.step (.acquire id)).2 = r ∨ (r.step (.acquire id)).1.isOk = true ∧
      (r.step (.acquire id)).2 = { r with locking := { r.locking with holder := some id } } := by
  unfold step
  dsimp only
  rcases r.locking.acquire_cases id with ⟨hlock, -, -⟩ | ⟨⟨error, hlock⟩, -⟩
  · rw [hlock]
    exact .inr ⟨rfl, rfl⟩
  · rw [hlock]
    exact .inl rfl

namespace Sound

variable {r : Roster}

theorem acquire_iff (h : r.Sound) {id : OpenerId} (hin : id ∈ r.present) :
    (r.step (.acquire id)).1.isOk = true ↔ r.present = [id] := by
  rw [r.acquire_isOk_iff, h.openers]
  constructor
  · rintro ⟨-, hfew⟩
    have hsome := List.length_pos_of_mem hin
    obtain ⟨other, hother⟩ := List.length_eq_one_iff.1 (Nat.le_antisymm hfew hsome)
    rw [hother] at hin ⊢
    rw [List.mem_singleton.1 hin]
  · intro halone
    rw [halone]
    refine ⟨fun holder hholder => ?_, Nat.le_refl 1⟩
    have hlive := h.holder holder hholder
    rw [halone] at hlive
    exact List.mem_singleton.1 hlive

theorem harmless_acquire (h : r.Sound) {id : OpenerId} :
    r.Harmless (.acquire id) ↔ id ∈ r.present ∨ (r.step (.acquire id)).1.isOk ≠ true := by
  unfold Harmless
  rw [ne_eq, r.acquire_isOk_iff, h.openers]
  cases hholder : r.locking.holder with
  | none => simp
  | some holder =>
    by_cases hown : holder = id <;> simp [hown]

theorem step (h : r.Sound) {e : Event} (he : r.Harmless e) : (r.step e).2.Sound := by
  cases e with
  | enroll =>
    refine ⟨congrArg (· + 1) h.openers, ?_⟩
    exact fun id hid => List.mem_cons_of_mem _ (h.holder id hid)
  | acquire id =>
    rcases r.acquire_state id with hsame | ⟨hok, hnew⟩
    · rw [hsame]
      exact h
    · rw [hnew]
      refine ⟨h.openers, ?_⟩
      rintro _ ⟨⟩
      rcases h.harmless_acquire.1 he with hin | hrefused
      · exact hin
      · exact absurd hok hrefused
  | release id =>
    unfold Roster.step
    dsimp only
    rcases r.locking.release_cases id with ⟨-, hfree⟩ | ⟨-, hrefused⟩
    · rw [hfree]
      exact ⟨h.openers, nofun⟩
    · rw [hrefused]
      exact h
  | leave id =>
    constructor
    · show r.locking.openers - 1 = (r.present.erase id).length
      rw [h.openers]
      rcases he with hin | hnobody
      · rw [List.length_erase_of_mem hin]
      · rw [hnobody]
        rfl
    · intro other hother
      change (r.locking.leave id).holder = some other at hother
      rcases r.locking.leave_holder id with ⟨-, hgone⟩ | ⟨hholder, hstays⟩
      · rw [hgone] at hother
        cases hother
      · rw [hstays] at hother
        refine (List.mem_erase_of_ne fun heq => hholder ?_).2 (h.holder other hother)
        rw [hother, heq]

theorem run (h : r.Sound) {events : List Event} (hclean : r.Clean events) : (r.run events).Sound := by
  induction events generalizing r with
  | nil => exact h
  | cons e events ih => exact ih (h.step hclean.1) hclean.2

end Sound

/-! ## What harm is done -/

variable {r : Roster}

/-- With the count one short, all but two may leave, and one of the two gets the lock. -/
theorem breach_of_free (hshort : r.locking.openers + 1 = r.present.length)
    (hfree : r.locking.holder = none) (htwo : 2 ≤ r.present.length) :
    ∃ more, r.Clean more ∧ ∃ id ∈ (r.run more).present, (r.run more).Breach (.acquire id) := by
  obtain ⟨locking, present⟩ := r
  induction present generalizing locking with
  | nil => simp at htwo
  | cons id others ih =>
    simp only [List.length_cons] at hshort htwo
    by_cases hpair : others.length = 1
    · refine ⟨[], trivial, id, List.mem_cons_self, id, rfl, ?_, ?_⟩
      · rw [acquire_isOk_iff]
        refine ⟨?_, ?_⟩
        · intro holder hholder
          cases hfree.symm.trans hholder
        · show locking.openers ≤ 1
          omega
      · intro halone
        have hlength := congrArg List.length halone
        simp only [run, List.foldl_nil, List.length_cons, List.length_nil] at hlength
        omega
    · -- One more than the two leaves, so that the count is as short as before.
      have hleft : (Roster.step ⟨locking, id :: others⟩ (.leave id)).2 = ⟨locking.leave id, others⟩ := by
        unfold step
        dsimp only
        rw [List.erase_cons_head]
      have hless : (locking.leave id).openers + 1 = others.length := by
        show locking.openers - 1 + 1 = _
        omega
      have hstill : (locking.leave id).holder = none := by
        unfold Locking.leave
        simp only at hfree
        rw [hfree]
        rfl
      obtain ⟨more, hclean, hbreach⟩ := ih _ hless hstill (by simp only; omega)
      refine ⟨.leave id :: more, ⟨.inl List.mem_cons_self, ?_⟩, ?_⟩
      · rw [hleft]
        exact hclean
      · rw [run, List.foldl_cons, hleft]
        exact hbreach

/-- With the count one short, those who are present can bring it about that one of them gets the lock beside
another. -/
theorem breach_of_short (hshort : r.locking.openers + 1 = r.present.length) :
    ∃ more, r.Clean more ∧ ∃ id ∈ (r.run more).present, (r.run more).Breach (.acquire id) := by
  let joined := (r.step .enroll).2
  have hjoined : joined.locking.openers + 1 = joined.present.length := congrArg (· + 1) hshort
  have htwo : 2 ≤ joined.present.length := by
    show 2 ≤ r.present.length + 1
    omega
  cases hholder : r.locking.holder with
  | none =>
    obtain ⟨more, hclean, hbreach⟩ := breach_of_free hjoined hholder htwo
    exact ⟨.enroll :: more, ⟨trivial, hclean⟩, hbreach⟩
  | some holder =>
    have hreleased : (joined.step (.release holder)).2 =
        { joined with locking := { joined.locking with holder := none } } := by
      unfold step
      dsimp only
      rcases joined.locking.release_cases holder with ⟨-, hfree⟩ | ⟨hother, -⟩
      · rw [hfree]
        rfl
      · exact absurd hholder hother
    obtain ⟨more, hclean, hbreach⟩ := breach_of_free
      (r := (joined.step (.release holder)).2) (by rw [hreleased]; exact hjoined) (by rw [hreleased])
      (by rw [hreleased]; exact htwo)
    exact ⟨.enroll :: .release holder :: more, ⟨trivial, trivial, hclean⟩, hbreach⟩

theorem Sound.breach (h : r.Sound) {e : Event} (he : ¬ r.Harmless e) : r.Breach e ∨
    ∃ more, (r.step e).2.Clean more ∧
      ∃ id ∈ ((r.step e).2.run more).present, ((r.step e).2.run more).Breach (.acquire id) := by
  cases e with
  | enroll => exact absurd trivial he
  | release id => exact absurd trivial he
  | acquire id =>
    left
    rw [h.harmless_acquire, not_or, Decidable.not_not] at he
    refine ⟨id, rfl, he.2, fun halone => he.1 ?_⟩
    rw [halone]
    exact List.mem_singleton.2 rfl
  | leave id =>
    right
    apply breach_of_short
    unfold Harmless at he
    rw [not_or] at he
    show r.locking.openers - 1 + 1 = (r.present.erase id).length
    have hsome := List.length_pos_iff.2 he.2
    rw [List.erase_of_not_mem he.1, h.openers]
    omega

/-- As long as every call was harmless one of those present holds the lock, if anybody does, and it goes only
to an opener who is the only one. The first call that is not harmless gets an absent opener the lock, or lets
two openers be counted as one some calls later. -/
theorem run_sole {events : List Event} (h : Clean {} events) :
    (∀ id, (run {} events).locking.holder = some id → id ∈ (run {} events).present) ∧
    (∀ e, (run {} events).Harmless e → ¬ (run {} events).Breach e) ∧
    (∀ id ∈ (run {} events).present,
      (((run {} events).step (.acquire id)).1.isOk = true ↔ (run {} events).present = [id])) ∧
    ∀ e, ¬ (run {} events).Harmless e → (run {} events).Breach e ∨
      ∃ more, ((run {} events).step e).2.Clean more ∧
        ∃ id ∈ (((run {} events).step e).2.run more).present,
          (((run {} events).step e).2.run more).Breach (.acquire id) := by
  have hstart : Sound {} := ⟨rfl, nofun⟩
  have hsound := hstart.run h
  refine ⟨hsound.holder, ?_, fun _ => hsound.acquire_iff, fun _ => hsound.breach⟩
  rintro _ hharmless ⟨id, rfl, hok, hshared⟩
  rcases hsound.harmless_acquire.1 hharmless with hin | hrefused
  · exact hshared ((hsound.acquire_iff hin).1 hok)
  · exact hrefused hok

/-- Calls of openers that have left: they are refused, or come when nobody is there. -/
def lateCalls : List Event :=
  [.enroll, .leave ⟨0⟩, .leave ⟨0⟩, .enroll, .acquire ⟨1⟩, .acquire ⟨0⟩, .release ⟨0⟩, .enroll]

theorem run_sole_late : Clean {} lateCalls ∧
    (run {} lateCalls).locking.holder = some ⟨1⟩ ∧ (run {} lateCalls).present = [⟨2⟩, ⟨1⟩] ∧
    (∀ id ∈ (run {} lateCalls).present, ((run {} lateCalls).step (.acquire id)).1.isOk ≠ true) ∧
    ¬ (run {} lateCalls).Harmless (.leave ⟨0⟩) ∧
    ∃ more, ((run {} lateCalls).step (.leave ⟨0⟩)).2.Clean more ∧
      ∃ id ∈ (((run {} lateCalls).step (.leave ⟨0⟩)).2.run more).present,
        (((run {} lateCalls).step (.leave ⟨0⟩)).2.run more).Breach (.acquire id) := by
  have hclean : Clean {} lateCalls := by decide
  have hpresent : (run {} lateCalls).present = [⟨2⟩, ⟨1⟩] := rfl
  obtain ⟨-, -, hiff, hbreach⟩ := run_sole hclean
  refine ⟨hclean, rfl, hpresent, ?_, by decide, ?_⟩
  · intro id hin hok
    have halone := (hiff id hin).1 hok
    rw [hpresent] at halone
    cases halone
  · rcases hbreach (.leave ⟨0⟩) (by decide) with ⟨id, hid, -⟩ | hlater
    · cases hid
    · exact hlater

/-- An opener that has left gets the lock while another has the registers open. -/
theorem acquire_after_leave : let r := run {} [.enroll, .enroll, .leave ⟨0⟩]
    r.present = [⟨1⟩] ∧ (r.step (.acquire ⟨0⟩)).1.isOk = true ∧
      (r.step (.acquire ⟨0⟩)).2.locking.holder = some ⟨0⟩ ∧
      ⟨0⟩ ∉ (r.step (.acquire ⟨0⟩)).2.present := by
  decide

end Roster

end FpgaCard
