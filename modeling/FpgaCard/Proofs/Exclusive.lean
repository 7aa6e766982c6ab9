import FpgaCard.Proofs.Tenancy

/-!
# Exclusive use of the registers

Opens, drops, locks and unlocks of one attached card, in any order and by anybody. The lock, the count of
openers and the clients at the gate are kept apart. Main statement: they always agree with the endpoints
that are open, and the lock is for the one opener who is alone with the registers.
-/

namespace FpgaCard

def Endpoint.opener? : Endpoint → Option OpenerId
  | .registers id => some id
  | .memory _ => none

/-! ## Opening a board -/

namespace Board

def entered (b : Board) : Board := { b with gate := { b.gate with clients := b.gate.clients + 1 } }

theorem openNode_cases (b : Board) (minor : Nat) :
    (∃ error, b.openNode minor = (.error error, b)) ∨
    (∃ m, b.openNode minor = (.ok (.memory m), b.entered)) ∨
    b.openNode minor =
      (.ok (.registers b.locking.enroll.1), { b.entered with locking := b.locking.enroll.2 }) := by
  unfold openNode
  obtain ⟨error, hnot⟩ | ⟨node, -, -, hin⟩ := b.enterNode_cases minor
  · rw [hnot]
    exact .inl ⟨error, rfl⟩
  · rw [hin]
    change (∃ error, b.entered.occupy node = _) ∨ (∃ m, b.entered.occupy node = _) ∨
      b.entered.occupy node = _
    unfold occupy
    cases node.kind with
    | registers => exact .inr (.inr rfl)
    | memory region =>
      obtain ⟨-, hregion⟩ | ⟨-, hregion⟩ := b.entered.occupyRegion_cases region
      · simp only [hregion]
        exact .inr (.inl ⟨_, rfl⟩)
      · simp only [hregion]
        exact .inl ⟨_, rfl⟩

theorem openNamed_cases (b : Board) (name : String) :
    (∃ error, b.openNamed name = (.error error, b)) ∨ ∃ minor, b.openNamed name = b.openNode minor := by
  unfold openNamed
  split
  · exact .inl ⟨_, rfl⟩
  · exact .inr ⟨_, rfl⟩

theorem locking_of_attach {σ : Type} [Hardware σ] {parts : Parts} {settings : Settings}
    {hardware hardware' : σ} {b : Board} {engine : Option Engine}
    (h : attach parts settings hardware = (.ok (b, engine), hardware')) : b.locking = {} := by
  obtain ⟨table, hmade⟩ := ofTable_of_attach h
  obtain ⟨-, layout, -, rfl⟩ := eq_of_ofTable hmade
  rfl

end Board

/-! ## The lock -/

namespace Locking

variable {l : Locking} {id : OpenerId}

theorem acquire_cases (l : Locking) (id : OpenerId) :
    (l.acquire id = .ok { l with holder := some id } ∧ (∀ holder, l.holder = some holder → holder = id) ∧
      l.openers ≤ 1) ∨
    ((∃ error, l.acquire id = .error error) ∧
      ((∃ holder, l.holder = some holder ∧ holder ≠ id) ∨ 1 < l.openers)) := by
  unfold acquire
  split
  · rename_i holder hother
    obtain ⟨hholder, hne⟩ := Option.filter_eq_some_iff.1 hother
    exact .inr ⟨⟨_, rfl⟩, .inl ⟨holder, hholder, by simpa using hne⟩⟩
  · rename_i hnone
    have hsame (holder : OpenerId) (hholder : l.holder = some holder) : holder = id := by
      rw [hholder] at hnone
      simpa using hnone
    split
    · rename_i hshared
      exact .inr ⟨⟨_, rfl⟩, .inr hshared⟩
    · rename_i halone
      exact .inl ⟨rfl, hsame, Nat.le_of_not_lt halone⟩

theorem release_cases (l : Locking) (id : OpenerId) :
    (l.holder = some id ∧ l.release id = .ok { l with holder := none }) ∨
    (l.holder ≠ some id ∧ l.release id = .error .notHolder) := by
  unfold release
  split
  · rename_i hholder
    exact .inl ⟨hholder, rfl⟩
  · rename_i hother
    exact .inr ⟨hother, rfl⟩

theorem leave_holder (l : Locking) (id : OpenerId) :
    (l.holder = some id ∧ (l.leave id).holder = none) ∨
    (l.holder ≠ some id ∧ (l.leave id).holder = l.holder) := by
  unfold leave
  cases hholder : l.holder with
  | none => exact .inr ⟨nofun, rfl⟩
  | some holder =>
    by_cases hsame : holder = id
    · subst hsame
      exact .inl ⟨rfl, by simp⟩
    · exact .inr ⟨by simpa using hsame, by simp [hsame]⟩

end Locking

/-! ## Clients -/

/-- A card's board with the endpoints that are open, and every opener that it ever had. -/
structure Clientele where
  board : Board
  live : List Endpoint := []
  issued : List OpenerId := []

namespace Clientele

inductive Event where
  | openMinor (minor : Nat)
  | openName (name : String)
  | drop (e : Endpoint)
  | lock (id : OpenerId)
  | unlock (id : OpenerId)
  /-- A shutdown closes the gate. -/
  | closeGate
  /-- A shutdown gives the engine up, if nobody is inside. -/
  | releaseEngine

/-- The openers of the registers that have not been dropped. -/
def openers (s : Clientele) : List OpenerId := s.live.filterMap Endpoint.opener?

def opened (s : Clientele) : Except CardError Endpoint × Board → Except CardError Unit × Clientele
  | (.ok e, board) => (.ok (), { board, live := e :: s.live, issued := e.opener?.toList ++ s.issued })
  | (.error error, board) => (.error error, { s with board })

def locked (s : Clientele) : Except CardError Locking → Except CardError Unit × Clientele
  | .ok locking => (.ok (), { s with board := { s.board with locking } })
  | .error error => (.error error, s)

def step (s : Clientele) : Event → Except CardError Unit × Clientele
  | .openMinor minor => s.opened (s.board.openNode minor)
  | .openName name => s.opened (s.board.openNamed name)
  | .drop e =>
    if e ∈ s.live then (.ok (), { s with board := s.board.close e, live := s.live.erase e })
    else (.ok (), s)
  | .lock id => if id ∈ s.openers then s.locked (s.board.locking.acquire id) else (.ok (), s)
  | .unlock id => if id ∈ s.openers then s.locked (s.board.locking.release id) else (.ok (), s)
  | .closeGate => (.ok (), { s with board := s.board.closeGate })
  | .releaseEngine => (.ok (), { s with board := s.board.releaseEngine })

def run (s : Clientele) (events : List Event) : Clientele := events.foldl (fun s e => (s.step e).2) s

/-! ## What is counted -/

theorem openers_erase_registers (live : List Endpoint) (id : OpenerId) :
    (live.erase (.registers id)).filterMap Endpoint.opener? =
      (live.filterMap Endpoint.opener?).erase id := by
  induction live with
  | nil => rfl
  | cons e live ih =>
    by_cases hsame : e = .registers id
    · subst hsame
      simp [Endpoint.opener?]
    · rw [List.erase_cons_tail (by simpa using hsame)]
      cases e with
      | registers other =>
        have hother : other ≠ id := fun heq => hsame (by rw [heq])
        simp only [List.filterMap_cons, Endpoint.opener?]
        rw [ih, List.erase_cons_tail (by simpa using hother)]
      | memory m =>
        simp only [List.filterMap_cons, Endpoint.opener?]
        exact ih

theorem openers_erase_memory (live : List Endpoint) (m : MemoryEndpoint) :
    (live.erase (.memory m)).filterMap Endpoint.opener? = live.filterMap Endpoint.opener? := by
  induction live with
  | nil => rfl
  | cons e live ih =>
    by_cases hsame : e = .memory m
    · rw [hsame, List.erase_cons_head]
      rfl
    · rw [List.erase_cons_tail (by simpa using hsame), List.filterMap_cons, List.filterMap_cons, ih]

theorem mem_openers {s : Clientele} {id : OpenerId} : id ∈ s.openers ↔ .registers id ∈ s.live := by
  unfold openers
  rw [List.mem_filterMap]
  constructor
  · rintro ⟨e, hmem, heq⟩
    cases e with
    | registers other =>
      cases heq
      exact hmem
    | memory m => cases heq
  · exact fun hmem => ⟨_, hmem, rfl⟩

structure Sound (s : Clientele) : Prop where
  clients : s.board.clients = s.live.length
  openers : s.board.locking.openers = s.openers.length
  given : s.board.locking.next = s.issued.length
  numbered : ∀ id ∈ s.issued, id.number < s.board.locking.next
  distinct : s.issued.Nodup
  apart : s.openers.Nodup
  known : ∀ id ∈ s.openers, id ∈ s.issued
  holder : ∀ id, s.board.locking.holder = some id → id ∈ s.openers

namespace Sound

variable {s : Clientele}

theorem of_new {b : Board} (hnew : b.New) (hlocking : b.locking = {}) : Sound { board := b } := by
  constructor
  case clients =>
    rw [Board.clients, hnew.gate]
    rfl
  case openers =>
    rw [hlocking]
    rfl
  case given =>
    rw [hlocking]
    rfl
  case numbered => simp
  case distinct => exact List.nodup_nil
  case apart => exact List.nodup_nil
  case known => simp [Clientele.openers]
  case holder =>
    intro id hid
    rw [hlocking] at hid
    cases hid

theorem board (hs : s.Sound) {b : Board} (hclients : b.clients = s.board.clients)
    (hlocking : b.locking = s.board.locking) : Sound { s with board := b } := by
  constructor
  case clients => rw [hclients, hs.clients]
  case openers =>
    rw [hlocking]
    exact hs.openers
  case given =>
    rw [hlocking]
    exact hs.given
  case numbered =>
    rw [hlocking]
    exact hs.numbered
  case distinct => exact hs.distinct
  case apart => exact hs.apart
  case known => exact hs.known
  case holder =>
    rw [hlocking]
    exact hs.holder

theorem withHolder (hs : s.Sound) {holder : Option OpenerId} (h : ∀ id, holder = some id → id ∈ s.openers) :
    Sound { s with board := { s.board with locking := { s.board.locking with holder } } } :=
  ⟨hs.clients, hs.openers, hs.given, hs.numbered, hs.distinct, hs.apart, hs.known, h⟩

theorem openMinor (hs : s.Sound) (minor : Nat) : (s.step (.openMinor minor)).2.Sound := by
  simp only [Clientele.step]
  obtain ⟨error, hopen⟩ | ⟨m, hopen⟩ | hopen := s.board.openNode_cases minor
  · rw [hopen]
    exact hs
  · rw [hopen]
    constructor
    case clients => exact congrArg (· + 1) hs.clients
    case openers => exact hs.openers
    case given => exact hs.given
    case numbered => exact hs.numbered
    case distinct => exact hs.distinct
    case apart => exact hs.apart
    case known => exact hs.known
    case holder => exact hs.holder
  · rw [hopen]
    -- The number of a new opener is beyond all that were given out.
    have hfresh : ⟨s.board.locking.next⟩ ∉ s.issued := fun hmem => Nat.lt_irrefl _ (hs.numbered _ hmem)
    constructor
    case clients => exact congrArg (· + 1) hs.clients
    case openers => exact congrArg (· + 1) hs.openers
    case given => exact congrArg (· + 1) hs.given
    case numbered =>
      intro id hmem
      obtain rfl | hmem := List.mem_cons.1 hmem
      · exact Nat.lt_succ_self _
      · exact Nat.lt_succ_of_lt (hs.numbered id hmem)
    case distinct => exact List.nodup_cons.2 ⟨hfresh, hs.distinct⟩
    case apart => exact List.nodup_cons.2 ⟨fun hmem => hfresh (hs.known _ hmem), hs.apart⟩
    case known =>
      intro id hmem
      obtain rfl | hmem := List.mem_cons.1 hmem
      · exact List.mem_cons_self
      · exact List.mem_cons_of_mem _ (hs.known id hmem)
    case holder => exact fun id hholder => List.mem_cons_of_mem _ (hs.holder id hholder)

theorem openName (hs : s.Sound) (name : String) : (s.step (.openName name)).2.Sound := by
  simp only [Clientele.step]
  obtain ⟨error, hopen⟩ | ⟨minor, hopen⟩ := s.board.openNamed_cases name
  · rw [hopen]
    exact hs
  · rw [hopen]
    exact hs.openMinor minor

theorem dropMemory (hs : s.Sound) {m : MemoryEndpoint} (hlive : .memory m ∈ s.live) :
    Sound { s with board := s.board.close (.memory m), live := s.live.erase (.memory m) } := by
  have hsame := openers_erase_memory s.live m
  change Clientele.openers { s with live := s.live.erase (.memory m) } = s.openers at hsame
  constructor
  case clients =>
    rw [List.length_erase_of_mem hlive, ← hs.clients]
    rfl
  case openers => exact hs.openers.trans (congrArg List.length hsame.symm)
  case given => exact hs.given
  case numbered => exact hs.numbered
  case distinct => exact hs.distinct
  case apart => exact hsame ▸ hs.apart
  case known => exact hsame ▸ hs.known
  case holder => exact hsame ▸ hs.holder

theorem dropRegisters (hs : s.Sound) {id : OpenerId} (hlive : .registers id ∈ s.live) :
    Sound { s with board := s.board.close (.registers id), live := s.live.erase (.registers id) } := by
  have hless : ({ s with board := s.board.close (.registers id),
                         live := s.live.erase (.registers id) } : Clientele).openers =
      s.openers.erase id := openers_erase_registers s.live id
  constructor
  case clients =>
    rw [List.length_erase_of_mem hlive, ← hs.clients]
    rfl
  case openers =>
    rw [hless, List.length_erase_of_mem (mem_openers.2 hlive), ← hs.openers]
    rfl
  case given => exact hs.given
  case numbered => exact hs.numbered
  case distinct => exact hs.distinct
  case apart =>
    rw [hless]
    exact hs.apart.erase id
  case known =>
    rw [hless]
    exact fun other hmem => hs.known other (List.mem_of_mem_erase hmem)
  case holder =>
    rw [hless]
    intro other hother
    change (s.board.locking.leave id).holder = some other at hother
    obtain ⟨-, hgone⟩ | ⟨hholder, hstays⟩ := s.board.locking.leave_holder id
    · rw [hgone] at hother
      cases hother
    · rw [hstays] at hother
      refine (List.mem_erase_of_ne fun heq => hholder ?_).2 (hs.holder other hother)
      rw [hother, heq]

theorem drop (hs : s.Sound) (e : Endpoint) : (s.step (.drop e)).2.Sound := by
  simp only [Clientele.step]
  split
  · rename_i hlive
    cases e with
    | memory m => exact hs.dropMemory hlive
    | registers id => exact hs.dropRegisters hlive
  · exact hs

theorem lock (hs : s.Sound) (id : OpenerId) : (s.step (.lock id)).2.Sound := by
  simp only [Clientele.step]
  split
  · rename_i hin
    obtain ⟨hlock, -, -⟩ | ⟨⟨error, hlock⟩, -⟩ := s.board.locking.acquire_cases id
    · rw [hlock]
      refine hs.withHolder ?_
      rintro _ ⟨⟩
      exact hin
    · rw [hlock]
      exact hs
  · exact hs

theorem unlock (hs : s.Sound) (id : OpenerId) : (s.step (.unlock id)).2.Sound := by
  simp only [Clientele.step]
  split
  · obtain ⟨-, hunlock⟩ | ⟨-, hunlock⟩ := s.board.locking.release_cases id
    · rw [hunlock]
      exact hs.withHolder nofun
    · rw [hunlock]
      exact hs
  · exact hs

theorem step (hs : s.Sound) (e : Event) : (s.step e).2.Sound := by
  cases e with
  | openMinor minor => exact hs.openMinor minor
  | openName name => exact hs.openName name
  | drop e => exact hs.drop e
  | lock id => exact hs.lock id
  | unlock id => exact hs.unlock id
  | closeGate => exact hs.board rfl rfl
  | releaseEngine =>
    apply hs.board
    · unfold Board.releaseEngine
      split <;> rfl
    · unfold Board.releaseEngine
      split <;> rfl

theorem run (hs : s.Sound) (events : List Event) : (s.run events).Sound := by
  induction events generalizing s with
  | nil => exact hs
  | cons e events ih => exact ih (hs.step e)

/-! ## Who gets the lock -/

theorem lock_iff (hs : s.Sound) {id : OpenerId} (hin : id ∈ s.openers) :
    (s.step (.lock id)).1.isOk = true ↔ s.openers = [id] := by
  simp only [Clientele.step, if_pos hin]
  have hcount := hs.openers
  obtain ⟨hlock, -, hone⟩ | ⟨⟨error, hlock⟩, hnot⟩ := s.board.locking.acquire_cases id
  · rw [hlock]
    refine ⟨fun _ => ?_, fun _ => rfl⟩
    obtain ⟨other, hother⟩ := List.length_eq_one_iff.1
      (Nat.le_antisymm (hcount ▸ hone) (List.length_pos_of_mem hin))
    rw [hother] at hin ⊢
    rw [List.mem_singleton.1 hin]
  · rw [hlock]
    refine ⟨nofun, fun halone => ?_⟩
    obtain ⟨holder, hholder, hother⟩ | hshared := hnot
    · have hlive := hs.holder holder hholder
      rw [halone] at hlive
      exact absurd (List.mem_singleton.1 hlive) hother
    · rw [hcount, halone] at hshared
      exact absurd hshared (Nat.lt_irrefl 1)

theorem unlock_iff {id : OpenerId} (hin : id ∈ s.openers) :
    (s.step (.unlock id)).1.isOk = true ↔ s.board.locking.holder = some id := by
  simp only [Clientele.step, if_pos hin]
  obtain ⟨hholder, hunlock⟩ | ⟨hother, hunlock⟩ := s.board.locking.release_cases id
  · rw [hunlock]
    exact ⟨fun _ => hholder, fun _ => rfl⟩
  · rw [hunlock]
    exact ⟨nofun, fun hholder => absurd hholder hother⟩

theorem lock_holder {id : OpenerId} (hin : id ∈ s.openers) (h : (s.step (.lock id)).1.isOk = true) :
    (s.step (.lock id)).2.board.locking.holder = some id := by
  simp only [Clientele.step, if_pos hin] at h ⊢
  obtain ⟨hlock, -, -⟩ | ⟨⟨error, hlock⟩, -⟩ := s.board.locking.acquire_cases id
  · rw [hlock]
    rfl
  · rw [hlock] at h
    cases h

theorem unlock_holder {id : OpenerId} (hin : id ∈ s.openers) (h : (s.step (.unlock id)).1.isOk = true) :
    (s.step (.unlock id)).2.board.locking.holder = none := by
  simp only [Clientele.step, if_pos hin] at h ⊢
  obtain ⟨-, hunlock⟩ | ⟨-, hunlock⟩ := s.board.locking.release_cases id
  · rw [hunlock]
    rfl
  · rw [hunlock] at h
    cases h

theorem drop_holder (hs : s.Sound) {id : OpenerId} (h : s.board.locking.holder = some id) :
    (s.step (.drop (.registers id))).2.board.locking.holder = none := by
  simp only [Clientele.step, if_pos (mem_openers.1 (hs.holder id h))]
  obtain ⟨-, hgone⟩ | ⟨hother, -⟩ := s.board.locking.leave_holder id
  · exact hgone
  · exact absurd h hother

/-- The numbers of the first 2^64 openers are the same in 64 bits. -/
theorem nodup_words (hs : s.Sound) (h : s.issued.length ≤ UInt64.size) :
    (s.issued.map fun id => UInt64.ofNat id.number).Nodup := by
  refine List.pairwise_map.2 (hs.distinct.imp_of_mem fun {id other} hid hother hne heq => hne ?_)
  have hless (id : OpenerId) (hid : id ∈ s.issued) : id.number < UInt64.size :=
    Nat.lt_of_lt_of_le (hs.given ▸ hs.numbered id hid) h
  rw [← UInt64.toNat_inj, UInt64.toNat_ofNat_of_lt' (hless id hid),
    UInt64.toNat_ofNat_of_lt' (hless other hother)] at heq
  cases id
  cases other
  exact congrArg OpenerId.mk heq

end Sound

/-- How the lock changes hands: it is taken, given back, or gone with its holder. -/
inductive Handover (s : Clientele) : Event → Option OpenerId → Prop where
  | taken (id : OpenerId) : id ∈ s.openers → s.openers = [id] → Handover s (.lock id) (some id)
  | returned (id : OpenerId) : s.board.locking.holder = some id → Handover s (.unlock id) none
  | dropped (id : OpenerId) : s.board.locking.holder = some id → Handover s (.drop (.registers id)) none

theorem openMinor_holder (s : Clientele) (minor : Nat) :
    (s.step (.openMinor minor)).2.board.locking.holder = s.board.locking.holder := by
  simp only [step]
  obtain ⟨error, hopen⟩ | ⟨m, hopen⟩ | hopen := s.board.openNode_cases minor
  · rw [hopen]
    rfl
  · rw [hopen]
    rfl
  · rw [hopen]
    rfl

theorem Sound.holder_step {s : Clientele} (hs : s.Sound) (e : Event) :
    (s.step e).2.board.locking.holder = s.board.locking.holder ∨
    (s.step e).1.isOk = true ∧ s.Handover e (s.step e).2.board.locking.holder := by
  cases e with
  | openMinor minor => exact .inl (s.openMinor_holder minor)
  | openName name =>
    left
    obtain ⟨error, hopen⟩ | ⟨minor, hopen⟩ := s.board.openNamed_cases name
    · simp only [Clientele.step]
      rw [hopen]
      rfl
    · simp only [Clientele.step]
      rw [hopen]
      exact s.openMinor_holder minor
  | drop e =>
    simp only [Clientele.step]
    split
    · cases e with
      | memory m => exact .inl rfl
      | registers id =>
        obtain ⟨hholder, hgone⟩ | ⟨-, hstays⟩ := s.board.locking.leave_holder id
        · right
          refine ⟨rfl, ?_⟩
          change s.Handover _ (s.board.locking.leave id).holder
          rw [hgone]
          exact .dropped id hholder
        · exact .inl hstays
    · exact .inl rfl
  | lock id =>
    by_cases hin : id ∈ s.openers
    · have halone := hs.lock_iff hin
      simp only [Clientele.step, if_pos hin] at halone ⊢
      obtain ⟨hlock, -, -⟩ | ⟨⟨error, hlock⟩, -⟩ := s.board.locking.acquire_cases id
      · rw [hlock] at halone ⊢
        exact .inr ⟨rfl, .taken id hin (halone.1 rfl)⟩
      · rw [hlock]
        exact .inl rfl
    · simp only [Clientele.step, if_neg hin]
      exact .inl trivial
  | unlock id =>
    simp only [Clientele.step]
    split
    · obtain ⟨hholder, hunlock⟩ | ⟨-, hunlock⟩ := s.board.locking.release_cases id
      · rw [hunlock]
        exact .inr ⟨rfl, .returned id hholder⟩
      · rw [hunlock]
        exact .inl rfl
    · exact .inl rfl
  | closeGate => exact .inl rfl
  | releaseEngine =>
    left
    simp only [Clientele.step]
    unfold Board.releaseEngine
    split <;> rfl

theorem locked_error {s : Clientele} {result : Except CardError Locking} {error : CardError}
    (h : (s.locked result).1 = .error error) : (s.locked result).2 = s := by
  cases result with
  | ok locking => cases h
  | error error => rfl

theorem openMinor_error {s : Clientele} {minor : Nat} {error : CardError}
    (h : (s.step (.openMinor minor)).1 = .error error) : (s.step (.openMinor minor)).2 = s := by
  simp only [step] at h ⊢
  obtain ⟨error, hopen⟩ | ⟨m, hopen⟩ | hopen := s.board.openNode_cases minor
  · rw [hopen]
    rfl
  · rw [hopen] at h
    cases h
  · rw [hopen] at h
    cases h

theorem step_error {s : Clientele} {e : Event} {error : CardError} (h : (s.step e).1 = .error error) :
    (s.step e).2 = s := by
  cases e with
  | openMinor minor => exact openMinor_error h
  | openName name =>
    simp only [step] at h ⊢
    obtain ⟨error, hopen⟩ | ⟨minor, hopen⟩ := s.board.openNamed_cases name
    · rw [hopen]
      rfl
    · rw [hopen] at h ⊢
      exact openMinor_error h
  | drop e =>
    simp only [step] at h
    split at h <;> cases h
  | lock id =>
    simp only [step] at h ⊢
    split at h
    · rename_i hin
      rw [if_pos hin]
      exact locked_error h
    · cases h
  | unlock id =>
    simp only [step] at h ⊢
    split at h
    · rename_i hin
      rw [if_pos hin]
      exact locked_error h
    · cases h
  | closeGate => cases h
  | releaseEngine => cases h

structure Exclusive (s : Clientele) : Prop where
  distinct : s.issued.Nodup
  apart : s.openers.Nodup
  known : ∀ id ∈ s.openers, id ∈ s.issued
  openers : s.board.locking.openers = s.openers.length
  clients : s.board.clients = s.live.length
  holder : ∀ id, s.board.locking.holder = some id → id ∈ s.openers
  lock : ∀ id ∈ s.openers, ((s.step (.lock id)).1.isOk = true ↔ s.openers = [id])
  unlock : ∀ id ∈ s.openers, ((s.step (.unlock id)).1.isOk = true ↔ s.board.locking.holder = some id)
  locked : ∀ id ∈ s.openers, (s.step (.lock id)).1.isOk = true →
    (s.step (.lock id)).2.board.locking.holder = some id
  unlocked : ∀ id ∈ s.openers, (s.step (.unlock id)).1.isOk = true →
    (s.step (.unlock id)).2.board.locking.holder = none
  dropped : ∀ id, s.board.locking.holder = some id →
    (s.step (.drop (.registers id))).2.board.locking.holder = none
  /-- A counter of 64 bits tells the first 2^64 openers apart, too. -/
  words : s.issued.length ≤ UInt64.size → (s.issued.map fun id => UInt64.ofNat id.number).Nodup
  handover : ∀ e, (s.step e).2.board.locking.holder = s.board.locking.holder ∨
    (s.step e).1.isOk = true ∧ s.Handover e (s.step e).2.board.locking.holder
  failed : ∀ e error, (s.step e).1 = .error error → (s.step e).2 = s

/-- Whoever opens, locks and drops, in every order, the lock is for one who is alone with the registers. -/
theorem run_exclusive {σ : Type} [Hardware σ] {parts : Parts} {settings : Settings}
    {hardware hardware' : σ} {board : Board} {engine : Option Engine}
    (h : Board.attach parts settings hardware = (.ok (board, engine), hardware')) (events : List Event) :
    Exclusive (run { board } events) := by
  have hs : (run { board } events).Sound :=
    (Sound.of_new (Board.new_of_attach h) (Board.locking_of_attach h)).run events
  exact ⟨hs.distinct, hs.apart, hs.known, hs.openers, hs.clients, hs.holder, fun _ => hs.lock_iff,
    fun _ => Sound.unlock_iff, fun _ => Sound.lock_holder, fun _ => Sound.unlock_holder,
    fun _ => hs.drop_holder, hs.nodup_words, hs.holder_step, fun _ _ => step_error⟩

/-- One opener takes the lock alone, and loses it with its endpoint when a second one is there. -/
def twoOpeners : List Event :=
  [.openMinor 0, .openMinor 1, .lock ⟨0⟩, .openMinor 0, .lock ⟨1⟩, .drop (.registers ⟨0⟩), .lock ⟨1⟩]

theorem run_exclusive_two :
    Board.attach Tenancy.pageParts {} Tenancy.pageRig =
      (.ok (Tenancy.pageCard.board, Tenancy.pageCard.engine), Tenancy.pageCard.hardware) ∧
    (run { board := Tenancy.pageCard.board } twoOpeners).issued = [⟨1⟩, ⟨0⟩] ∧
    (run { board := Tenancy.pageCard.board } twoOpeners).board.locking.holder = some ⟨1⟩ ∧
    Exclusive (run { board := Tenancy.pageCard.board } twoOpeners) :=
  ⟨Tenancy.pageCard_attached, by decide +kernel, by decide +kernel,
    run_exclusive Tenancy.pageCard_attached twoOpeners⟩

end Clientele

end FpgaCard
