import FpgaCard.Attachment
import FpgaCard.Proofs.Boards
import FpgaCard.Simulation.Rig

/-!
# Who is inside a card

Opens, drops and shutdowns of one attached card, whose parts come in any order. An open is let in at the
gate before it looks for the engine; a shutdown closes transfers, then the gate, waits until nobody is
inside and gives the engine up. Main statement: the engine stays for everybody who was let in, and a
shutdown that returns leaves nobody inside.
-/

namespace FpgaCard

open Simulation

/-! ## What is attached -/

namespace Board

variable {σ : Type} [Hardware σ]

/-- A board that comes of its table, with its engine, and with nobody inside. -/
structure New (b : Board) : Prop where
  gate : b.gate = {}
  engine : b.hasEngine = b.table.hasRegions
  layout : ∃ number, Layout.ofTable b.table number = .ok b.layout

theorem new_of_ofTable {number : Nat} {registers : RegisterSpace} {settings : Settings} {table : Table}
    {b : Board} (h : ofTable number registers settings table = .ok b) : b.New := by
  obtain ⟨-, layout, hlayout, rfl⟩ := eq_of_ofTable h
  exact ⟨rfl, rfl, number, hlayout⟩

theorem new_of_attach {parts : Parts} {settings : Settings} {hardware hardware' : σ} {b : Board}
    {engine : Option Engine} (h : attach parts settings hardware = (.ok (b, engine), hardware')) :
    b.New := by
  obtain ⟨table, hmade⟩ := ofTable_of_attach h
  exact new_of_ofTable hmade

/-! ## Coming in and going out -/

theorem enterNode_cases (b : Board) (minor : Nat) :
    (∃ error, b.enterNode minor = .error error) ∨
    ∃ node ∈ b.layout.nodes, b.gate.closing = false ∧
      b.enterNode minor = .ok (node, { b with gate := { b.gate with clients := b.gate.clients + 1 } }) := by
  unfold enterNode Layout.get?
  split
  · exact .inl ⟨_, rfl⟩
  · rename_i node hnode
    unfold Gate.enter
    by_cases hclosing : b.gate.closing = true
    · rw [if_pos hclosing]
      exact .inl ⟨_, rfl⟩
    · rw [if_neg hclosing]
      exact .inr ⟨node, List.mem_of_getElem? hnode, Bool.eq_false_iff.2 hclosing, rfl⟩

theorem occupyRegion_cases (b : Board) (region : Region) :
    b.hasEngine = true ∧ b.occupyRegion region = (.ok { region }, b) ∨
    b.hasEngine = false ∧ b.occupyRegion region = (.error .detached, b.leave) := by
  unfold occupyRegion
  by_cases hengine : b.hasEngine = true
  · rw [if_pos hengine]
    exact .inl ⟨hengine, rfl⟩
  · rw [if_neg hengine]
    exact .inr ⟨Bool.eq_false_iff.2 hengine, rfl⟩

theorem occupy_cases (b : Board) (node : Node) :
    (∃ e locking, b.occupy node = (.ok e, { b with locking })) ∨
    ∃ region, node.kind = .memory region ∧ b.hasEngine = false ∧
      b.occupy node = (.error .detached, b.leave) := by
  unfold occupy
  cases node.kind with
  | registers => exact .inl ⟨_, _, rfl⟩
  | memory region =>
    obtain ⟨-, hregion⟩ | ⟨hengine, hregion⟩ := b.occupyRegion_cases region
    · simp only [hregion]
      exact .inl ⟨.memory { region }, b.locking, rfl⟩
    · simp only [hregion]
      exact .inr ⟨region, rfl, hengine, rfl⟩

theorem close_eq (b : Board) (e : Endpoint) : ∃ locking, b.close e = { b.leave with locking } := by
  cases e with
  | registers id => exact ⟨b.locking.leave id, rfl⟩
  | memory m => exact ⟨b.locking, rfl⟩

end Board

/-! ## Opens, drops and shutdowns -/

/-- What somebody inside has. -/
inductive Tenant where
  | opening (node : Node)
  | endpoint (e : Endpoint)

def Tenant.isEndpoint : Tenant → Bool
  | .opening _ => false
  | .endpoint _ => true

inductive Phase where
  | uncalled
  | transfersClosed
  | gateClosed
  /-- It has seen that nobody is inside. -/
  | drained
  | returned
  deriving DecidableEq

structure Tenancy (σ : Type) where
  card : Attachment σ
  /-- Whether a caller has kept the engine. -/
  kept : Bool := false
  /-- Who is inside, each with the number of its ticket. -/
  tenants : List (Nat × Tenant) := []
  next : Nat := 0
  phase : Nat → Phase := fun _ => .uncalled

namespace Tenancy

inductive Event where
  | enter (minor : Nat)
  /-- An open that was let in looks for the engine. -/
  | find (ticket : Nat)
  | drop (ticket : Nat)
  /-- A call of shutdown goes a step further, if it can. -/
  | shutdown (call : Nat)

variable {σ : Type}

def tickets (s : Tenancy σ) : List Nat := s.tenants.map (·.1)

def others (s : Tenancy σ) (ticket : Nat) : List (Nat × Tenant) := s.tenants.eraseP (·.1 = ticket)

def withBoard (s : Tenancy σ) (board : Board) : Tenancy σ := { s with card := { s.card with board } }

/-- The engine given up, whoever is inside. -/
def released (s : Tenancy σ) : Attachment σ :=
  { s.card with board := { s.card.board with hasEngine := false },
                engine := if s.kept then s.card.engine else none }

def goto (s : Tenancy σ) (call : Nat) (phase : Phase) : Tenancy σ :=
  { s with phase := fun other => if other = call then phase else s.phase other }

def after (s : Tenancy σ) : Event → Tenancy σ
  | .enter minor =>
    match s.card.board.enterNode minor with
    | .error _ => s
    | .ok (node, board) =>
      { s.withBoard board with tenants := (s.next, .opening node) :: s.tenants, next := s.next + 1 }
  | .find ticket =>
    match s.tenants.lookup ticket with
    | some (.opening node) =>
      match s.card.board.occupy node with
      | (.ok e, board) => { s.withBoard board with tenants := (ticket, .endpoint e) :: s.others ticket }
      | (.error _, board) => { s.withBoard board with tenants := s.others ticket }
    | _ => s
  | .drop ticket =>
    match s.tenants.lookup ticket with
    | some (.endpoint e) => { s.withBoard (s.card.board.close e) with tenants := s.others ticket }
    | _ => s
  | .shutdown call =>
    match s.phase call with
    | .uncalled => { s with card := s.card.closeTransfers }.goto call .transfersClosed
    | .transfersClosed => (s.withBoard s.card.board.closeGate).goto call .gateClosed
    | .gateClosed => if s.card.board.gate.isEmpty then s.goto call .drained else s
    | .drained => { s with card := s.released }.goto call .returned
    | .returned => s

def run (s : Tenancy σ) (events : List Event) : Tenancy σ := events.foldl after s

theorem after_open (s : Tenancy σ) {minor : Nat} {entered : Node × Board}
    (h : s.card.board.enterNode minor = .ok entered) :
    ((s.after (.enter minor)).after (.find s.next)).card.board = (s.card.board.openNode minor).2 := by
  unfold Board.openNode
  simp only [after, h, withBoard, List.lookup_cons_self]
  rcases entered.2.occupy entered.1 with ⟨_ | e, board⟩ <;> rfl

/-! ## What an event does -/

theorem mem_of_lookup {s : Tenancy σ} {ticket : Nat} {t : Tenant} (h : s.tenants.lookup ticket = some t) :
    (ticket, t) ∈ s.tenants := by
  obtain ⟨before, behind, heq, -⟩ := List.lookup_eq_some_iff.1 h
  rw [heq]
  simp

theorem length_others {s : Tenancy σ} {ticket : Nat} {t : Tenant}
    (h : s.tenants.lookup ticket = some t) : (s.others ticket).length + 1 = s.tenants.length := by
  have hmem := mem_of_lookup h
  have hpos := List.length_pos_of_mem hmem
  have hless := List.length_eraseP_of_mem (p := fun x : Nat × Tenant => x.1 = ticket) hmem (by simp)
  unfold others
  omega

theorem mem_of_others {s : Tenancy σ} {ticket : Nat} {x : Nat × Tenant} (h : x ∈ s.others ticket) :
    x ∈ s.tenants := List.mem_of_mem_eraseP h

/-- The board of a card is what it was attached as, but for its gate, its lock and its engine. -/
structure Sound (s : Tenancy σ) : Prop where
  layout : ∃ number, Layout.ofTable s.card.board.table number = .ok s.card.board.layout
  counted : s.card.board.clients = s.tenants.length
  opening : ∀ ticket node, (ticket, .opening node) ∈ s.tenants → node ∈ s.card.board.layout.nodes
  closing : ∀ call, s.phase call ≠ .uncalled → s.phase call ≠ .transfersClosed →
    s.card.board.gate.closing = true
  empty : ∀ call, s.phase call = .drained ∨ s.phase call = .returned → s.tenants = []
  given : ∀ call, s.phase call = .returned → s.card.board.hasEngine = false
  engine : s.card.board.hasEngine = s.card.board.table.hasRegions ∨
    s.card.board.gate.closing = true ∧ s.tenants = []

theorem closeTransfers_board (a : Attachment σ) : a.closeTransfers.board = a.board := by
  unfold Attachment.closeTransfers Attachment.drive
  split
  · split <;> rfl
  · rfl

theorem hasEngine_after (s : Tenancy σ) (e : Event) :
    (s.after e).card.board.hasEngine = s.card.board.hasEngine ∨
    ∃ call, s.phase call = .drained ∧ (s.after e).card.board.hasEngine = false := by
  cases e with
  | enter minor =>
    left
    obtain ⟨error, hnot⟩ | ⟨node, -, -, hin⟩ := s.card.board.enterNode_cases minor
    · simp only [after, hnot]
    · simp only [after, hin, withBoard]
  | find ticket =>
    left
    simp only [after]
    split
    · rename_i node _
      obtain ⟨e, locking, hoccupy⟩ | ⟨-, -, -, hoccupy⟩ := s.card.board.occupy_cases node
      · rw [hoccupy]
        rfl
      · rw [hoccupy]
        rfl
    · rfl
  | drop ticket =>
    left
    simp only [after]
    split
    · rename_i e _
      obtain ⟨locking, hclose⟩ := s.card.board.close_eq e
      rw [hclose]
      rfl
    · rfl
  | shutdown call =>
    simp only [after]
    split
    · left
      simp only [Tenancy.goto, closeTransfers_board]
    · exact .inl rfl
    · left
      split <;> rfl
    · rename_i hphase
      exact .inr ⟨call, hphase, rfl⟩
    · exact .inl rfl

namespace Sound

variable {s : Tenancy σ}

theorem of_new (h : s.card.board.New) (hempty : s.tenants = [])
    (hphase : ∀ call, s.phase call = .uncalled) : s.Sound := by
  refine ⟨h.layout, ?_, ?_, ?_, fun _ _ => hempty, ?_, .inl h.engine⟩
  · rw [Board.clients, h.gate, hempty]
    rfl
  · intro ticket node hmem
    rw [hempty] at hmem
    cases hmem
  · intro call hcalled
    exact absurd (hphase call) hcalled
  · intro call hreturned
    rw [hphase] at hreturned
    cases hreturned

theorem enter (hs : s.Sound) (minor : Nat) : (s.after (.enter minor)).Sound := by
  obtain ⟨error, hnot⟩ | ⟨node, hnode, hopen, hin⟩ := s.card.board.enterNode_cases minor
  · simp only [Tenancy.after, hnot]
    exact hs
  · simp only [Tenancy.after, hin, withBoard]
    -- The gate is open, so that no shutdown has come to it.
    have hnever {call : Nat} (hpast : s.phase call = .drained ∨ s.phase call = .returned) : False := by
      have hclosing : s.card.board.gate.closing = true := by
        rcases hpast with hphase | hphase <;> exact hs.closing call (by simp [hphase]) (by simp [hphase])
      rw [hopen] at hclosing
      cases hclosing
    refine ⟨hs.layout, ?_, ?_, hs.closing, fun call hpast => (hnever hpast).elim, hs.given, ?_⟩
    · have hcounted := hs.counted
      simp only [Board.clients, List.length_cons] at hcounted ⊢
      omega
    · intro ticket node' hmem
      rcases List.mem_cons.1 hmem with heq | hmem
      · cases heq
        exact hnode
      · exact hs.opening ticket node' hmem
    · left
      obtain hengine | ⟨hclosing, -⟩ := hs.engine
      · exact hengine
      · rw [hopen] at hclosing
        cases hclosing

theorem exchange (hs : s.Sound) {ticket : Nat} {t : Tenant} (ht : s.tenants.lookup ticket = some t)
    {s' : Tenancy σ} (hphase : s'.phase = s.phase)
    (hboard : ∃ locking gate, s'.card.board = { s.card.board with locking, gate } ∧
      gate.closing = s.card.board.gate.closing)
    (hcounted : s'.card.board.clients = s'.tenants.length)
    (htenants : ∀ x ∈ s'.tenants, x ∈ s.tenants ∨ ∃ e, x.2 = .endpoint e) : s'.Sound := by
  have hsome : s.tenants ≠ [] := List.ne_nil_of_mem (mem_of_lookup ht)
  obtain ⟨locking, gate, hboard, hgate⟩ := hboard
  refine ⟨?_, hcounted, ?_, ?_, ?_, ?_, ?_⟩
  · rw [hboard]
    exact hs.layout
  · intro ticket' node hmem
    rw [hboard]
    obtain hold | ⟨e, he⟩ := htenants _ hmem
    · exact hs.opening ticket' node hold
    · cases he
  · rw [hphase, hboard]
    intro call hcalled hclosed
    rw [hgate]
    exact hs.closing call hcalled hclosed
  · rw [hphase]
    intro call hpast
    exact absurd (hs.empty call hpast) hsome
  · rw [hphase, hboard]
    exact hs.given
  · left
    rw [hboard]
    obtain hengine | ⟨-, hempty⟩ := hs.engine
    · exact hengine
    · exact absurd hempty hsome

theorem find (hs : s.Sound) (ticket : Nat) : (s.after (.find ticket)).Sound := by
  simp only [Tenancy.after]
  split
  · rename_i node hnode
    have hlength := length_others hnode
    have hcounted := hs.counted
    obtain ⟨e, locking, hoccupy⟩ | ⟨-, -, -, hoccupy⟩ := s.card.board.occupy_cases node
    · rw [hoccupy]
      refine hs.exchange hnode rfl ⟨locking, _, rfl, rfl⟩ ?_ ?_
      · simp only [withBoard, Board.clients, List.length_cons] at hcounted ⊢
        omega
      · intro x hx
        rcases List.mem_cons.1 hx with rfl | hx
        · exact .inr ⟨e, rfl⟩
        · exact .inl (mem_of_others hx)
    · rw [hoccupy]
      refine hs.exchange hnode rfl ⟨s.card.board.locking, s.card.board.gate.leave, rfl, rfl⟩ ?_ ?_
      · simp only [withBoard, Board.clients, Board.leave, Gate.leave] at hcounted ⊢
        omega
      · intro x hx
        exact .inl (mem_of_others hx)
  · exact hs

theorem drop (hs : s.Sound) (ticket : Nat) : (s.after (.drop ticket)).Sound := by
  simp only [Tenancy.after]
  split
  · rename_i e he
    have hlength := length_others he
    have hcounted := hs.counted
    obtain ⟨locking, hclose⟩ := s.card.board.close_eq e
    rw [hclose]
    refine hs.exchange he rfl ⟨locking, s.card.board.gate.leave, rfl, rfl⟩ ?_ ?_
    · simp only [withBoard, Board.clients, Board.leave, Gate.leave] at hcounted ⊢
      omega
    · intro x hx
      exact .inl (mem_of_others hx)
  · exact hs

theorem goto (hs : s.Sound) {call : Nat} {phase : Phase}
    (hclosing : phase ≠ .transfersClosed → s.card.board.gate.closing = true)
    (hempty : phase = .drained ∨ phase = .returned → s.tenants = [])
    (hgiven : phase = .returned → s.card.board.hasEngine = false) : (s.goto call phase).Sound := by
  refine ⟨hs.layout, hs.counted, hs.opening, ?_, ?_, ?_, hs.engine⟩
  · intro other hcalled hclosed
    by_cases hother : other = call
    · simp only [Tenancy.goto, hother, if_true] at hclosed
      exact hclosing hclosed
    · simp only [Tenancy.goto, if_neg hother] at hcalled hclosed
      exact hs.closing other hcalled hclosed
  · intro other hpast
    by_cases hother : other = call
    · simp only [Tenancy.goto, hother, if_true] at hpast
      exact hempty hpast
    · simp only [Tenancy.goto, if_neg hother] at hpast
      exact hs.empty other hpast
  · intro other hreturned
    by_cases hother : other = call
    · simp only [Tenancy.goto, hother, if_true] at hreturned
      exact hgiven hreturned
    · simp only [Tenancy.goto, if_neg hother] at hreturned
      exact hs.given other hreturned

theorem shutdown (hs : s.Sound) (call : Nat) : (s.after (.shutdown call)).Sound := by
  simp only [Tenancy.after]
  split
  · have hsame : Sound { s with card := s.card.closeTransfers } := by
      have hboard := closeTransfers_board s.card
      refine ⟨?_, ?_, ?_, ?_, hs.empty, ?_, ?_⟩ <;> simp only [hboard]
      · exact hs.layout
      · exact hs.counted
      · exact hs.opening
      · exact hs.closing
      · exact hs.given
      · exact hs.engine
    exact hsame.goto (fun hnot => absurd rfl hnot) (by simp) (by simp)
  · have hclosed : (s.withBoard s.card.board.closeGate).Sound := by
      refine ⟨hs.layout, hs.counted, hs.opening, fun _ _ _ => rfl, hs.empty, hs.given, ?_⟩
      exact hs.engine.imp_right fun hgone => ⟨rfl, hgone.2⟩
    exact hclosed.goto (fun _ => rfl) (by simp) (by simp)
  · rename_i hphase
    split
    · rename_i hnobody
      have hclosing := hs.closing call (by simp [hphase]) (by simp [hphase])
      have hempty : s.tenants = [] := by
        apply List.eq_nil_of_length_eq_zero
        rw [← hs.counted]
        simpa [Gate.isEmpty, Board.clients] using hnobody
      exact hs.goto (fun _ => hclosing) (fun _ => hempty) (by simp)
    · exact hs
  · rename_i hphase
    have hclosing := hs.closing call (by simp [hphase]) (by simp [hphase])
    have hempty := hs.empty call (.inl hphase)
    have hreleased : Sound { s with card := s.released } :=
      ⟨hs.layout, hs.counted, hs.opening, hs.closing, hs.empty, fun _ _ => rfl, .inr ⟨hclosing, hempty⟩⟩
    exact hreleased.goto (fun _ => hclosing) (fun _ => hempty) (fun _ => rfl)
  · exact hs

theorem after (hs : s.Sound) (e : Event) : (s.after e).Sound := by
  cases e with
  | enter minor => exact hs.enter minor
  | find ticket => exact hs.find ticket
  | drop ticket => exact hs.drop ticket
  | shutdown call => exact hs.shutdown call

theorem run (hs : s.Sound) (events : List Event) : (s.run events).Sound := by
  induction events generalizing s with
  | nil => exact hs
  | cons e events ih => exact ih (hs.after e)

theorem released_eq (hs : s.Sound) {call : Nat} (hphase : s.phase call = .drained) :
    s.released = s.card.settleShutdown s.kept := by
  have hclosing := hs.closing call (by simp [hphase]) (by simp [hphase])
  have hcounted := hs.counted
  rw [hs.empty call (.inl hphase)] at hcounted
  have hdrained : s.card.board.isDrained = true := by
    unfold Board.isDrained Gate.isEmpty
    rw [hclosing]
    simpa [Board.clients] using hcounted
  unfold released Attachment.settleShutdown Board.releaseEngine
  simp only [if_pos hdrained, Bool.false_or]

theorem found (hs : s.Sound) {ticket : Nat} {node : Node} (hmem : (ticket, .opening node) ∈ s.tenants) :
    ∃ e, (s.card.board.occupy node).1 = .ok e := by
  obtain ⟨e, _, hoccupy⟩ | ⟨region, hregion, hengine, -⟩ := s.card.board.occupy_cases node
  · exact ⟨e, by rw [hoccupy]⟩
  · obtain ⟨number, hlayout⟩ := hs.layout
    have hregions := Layout.hasRegions_of_memory hlayout (hs.opening ticket node hmem) hregion
    obtain hkept | ⟨-, hempty⟩ := hs.engine
    · rw [hengine, hregions] at hkept
      cases hkept
    · rw [hempty] at hmem
      cases hmem

theorem opened (hs : s.Sound) {ticket : Nat} {node : Node}
    (h : s.tenants.lookup ticket = some (.opening node)) :
    ∃ e, (s.after (.find ticket)).tenants = (ticket, .endpoint e) :: s.others ticket := by
  obtain ⟨e, he⟩ := hs.found (mem_of_lookup h)
  refine ⟨e, ?_⟩
  simp only [Tenancy.after, h]
  rcases hoccupy : s.card.board.occupy node with ⟨_ | e', board⟩
  · rw [hoccupy] at he
    cases he
  · rw [hoccupy] at he
    cases he
    rfl

theorem release (hs : s.Sound) (hengine : s.card.board.hasEngine = true) {e : Event}
    (hafter : (s.after e).card.board.hasEngine = false) :
    s.card.board.gate.closing = true ∧ s.tenants = [] := by
  obtain hsame | ⟨call, hphase, -⟩ := s.hasEngine_after e
  · rw [hafter, hengine] at hsame
    cases hsame
  · exact ⟨hs.closing call (by simp [hphase]) (by simp [hphase]), hs.empty call (.inl hphase)⟩

theorem gone_run (hengine : s.card.board.hasEngine = false) (events : List Event) :
    (s.run events).card.board.hasEngine = false := by
  induction events generalizing s with
  | nil => exact hengine
  | cons e events ih =>
    obtain hsame | ⟨-, -, hgone⟩ := s.hasEngine_after e
    · exact ih (hsame.trans hengine)
    · exact ih hgone

end Sound

/-! ## After the gate has closed -/

/-- Whoever is inside `s'` was let in before, as `s` has it. -/
structure Shut (s s' : Tenancy σ) : Prop where
  closing : s'.card.board.gate.closing = true
  tickets : ∀ ticket ∈ s'.tickets, ticket ∈ s.tickets

namespace Shut

variable {s s' : Tenancy σ}

theorem exchange (hs : s.Shut s') {ticket : Nat} {t : Tenant} (ht : s'.tenants.lookup ticket = some t)
    {s'' : Tenancy σ} (hgate : s''.card.board.gate.closing = s'.card.board.gate.closing)
    (htenants : ∀ x ∈ s''.tenants, x ∈ s'.tenants ∨ x.1 = ticket) : s.Shut s'' := by
  refine ⟨hgate.trans hs.closing, ?_⟩
  intro ticket' hin
  obtain ⟨x, hx, rfl⟩ := List.mem_map.1 hin
  obtain hold | hsame := htenants x hx
  · exact hs.tickets _ (List.mem_map.2 ⟨x, hold, rfl⟩)
  · rw [hsame]
    exact hs.tickets _ (List.mem_map.2 ⟨_, mem_of_lookup ht, rfl⟩)

theorem after (hs : s.Shut s') (e : Event) : s.Shut (s'.after e) := by
  cases e with
  | enter minor =>
    obtain ⟨error, hnot⟩ | ⟨-, -, hopen, -⟩ := s'.card.board.enterNode_cases minor
    · simp only [Tenancy.after, hnot]
      exact hs
    · rw [hs.closing] at hopen
      cases hopen
  | find ticket =>
    simp only [Tenancy.after]
    split
    · rename_i node hnode
      obtain ⟨e, locking, hoccupy⟩ | ⟨-, -, -, hoccupy⟩ := s'.card.board.occupy_cases node
      · rw [hoccupy]
        refine hs.exchange hnode rfl ?_
        intro x hx
        rcases List.mem_cons.1 hx with rfl | hx
        · exact .inr rfl
        · exact .inl (mem_of_others hx)
      · rw [hoccupy]
        exact hs.exchange hnode rfl fun x hx => .inl (mem_of_others hx)
    · exact hs
  | drop ticket =>
    simp only [Tenancy.after]
    split
    · rename_i e he
      obtain ⟨locking, hclose⟩ := s'.card.board.close_eq e
      rw [hclose]
      exact hs.exchange he rfl fun x hx => .inl (mem_of_others hx)
    · exact hs
  | shutdown call =>
    simp only [Tenancy.after]
    split
    · refine ⟨?_, hs.tickets⟩
      simp only [Tenancy.goto, closeTransfers_board]
      exact hs.closing
    · exact ⟨rfl, hs.tickets⟩
    · split
      · exact ⟨hs.closing, hs.tickets⟩
      · exact hs
    · exact ⟨hs.closing, hs.tickets⟩
    · exact hs

theorem run (hs : s.Shut s') (events : List Event) : s.Shut (s'.run events) := by
  induction events generalizing s' with
  | nil => exact hs
  | cons e events ih => exact ih (hs.after e)

theorem refused (hs : s.Shut s') (minor : Nat) :
    ∃ error, s'.card.board.openNode minor = (.error error, s'.card.board) := by
  obtain ⟨error, hnot⟩ | ⟨-, -, hopen, -⟩ := s'.card.board.enterNode_cases minor
  · refine ⟨error, ?_⟩
    unfold Board.openNode
    rw [hnot]
  · rw [hs.closing] at hopen
    cases hopen

end Shut

structure Housed (s : Tenancy σ) : Prop where
  counted : s.card.board.clients = s.tenants.length
  shut : s.card.board.gate.closing = true → ∀ events, s.Shut (s.run events) ∧
    ∀ minor, ∃ error, (s.run events).card.board.openNode minor = (.error error, (s.run events).card.board)
  engine : s.card.board.hasEngine = true → ∀ e, (s.after e).card.board.hasEngine = false →
    s.card.board.gate.closing = true ∧ s.tenants = []
  found : ∀ ticket node, (ticket, .opening node) ∈ s.tenants → ∃ e, (s.card.board.occupy node).1 = .ok e
  /-- An open that was let in before the gate closed gets its endpoint behind it, too. -/
  opened : ∀ ticket node, s.tenants.lookup ticket = some (.opening node) →
    ∃ e, (s.after (.find ticket)).tenants = (ticket, .endpoint e) :: s.others ticket
  ended : ∀ call, s.phase call = .returned → ∀ events,
    (s.run events).tenants = [] ∧ (s.run events).card.board.hasEngine = false

/-- Whoever comes and goes, in every order, the card is safe to shut down. -/
theorem run_housed [Hardware σ] {parts : Parts} {settings : Settings} {hardware : σ} {card : Attachment σ}
    (h : Board.attach parts settings hardware = (.ok (card.board, card.engine), card.hardware))
    (kept : Bool) (events : List Event) : Housed (run { card, kept } events) := by
  have hs : (run { card, kept } events).Sound :=
    (Sound.of_new (Board.new_of_attach h) rfl fun _ => rfl).run events
  generalize run { card, kept } events = s at hs ⊢
  have hshut (hclosing : s.card.board.gate.closing = true) (events : List Event) :
      s.Shut (s.run events) :=
    Shut.run ⟨hclosing, fun _ hmem => hmem⟩ events
  refine ⟨hs.counted, ?_, fun hengine e => hs.release hengine, fun _ _ => hs.found, fun _ _ => hs.opened, ?_⟩
  · intro hclosing events
    exact ⟨hshut hclosing events, (hshut hclosing events).refused⟩
  · intro call hreturned events
    have hclosing := hs.closing call (by simp [hreturned]) (by simp [hreturned])
    refine ⟨?_, Sound.gone_run (hs.given call hreturned) events⟩
    apply List.eq_nil_of_map_eq_nil (f := Prod.fst)
    apply List.eq_nil_iff_forall_not_mem.2
    intro ticket hin
    have hbefore := (hshut hclosing events).tickets ticket hin
    unfold tickets at hbefore
    rw [hs.empty call (.inr hreturned)] at hbefore
    cases hbefore

def pageRig : Rig := { card := { buffer := some { address := 0x1000, size := 4096 } } }

def pageParts : Parts :=
  { number := 0, registers := { size? := none }, buffer := some { address := 0x1000, size := 4096 } }

def pageCard : Attachment Rig :=
  match Board.attach pageParts {} pageRig with
  | (.ok (board, engine), hardware) => ⟨board, engine, hardware⟩
  | (.error _, hardware) => ⟨default, none, hardware⟩

theorem pageCard_attached :
    Board.attach pageParts {} pageRig = (.ok (pageCard.board, pageCard.engine), pageCard.hardware) := by
  have hok : (Board.attach pageParts {} pageRig).1.isOk = true := by decide +kernel
  unfold pageCard
  generalize Board.attach pageParts {} pageRig = result at hok ⊢
  rcases result with ⟨_ | ⟨board, engine⟩, hardware⟩
  · cases hok
  · rfl

/-- A shutdown closes the gate behind an open of a region that was let in, and waits for it. -/
def lastClient : List Event :=
  [.enter 1, .shutdown 0, .shutdown 0, .enter 0, .shutdown 0, .find 0, .drop 0, .shutdown 0, .shutdown 0]

theorem run_housed_lastClient :
    Board.attach pageParts {} pageRig = (.ok (pageCard.board, pageCard.engine), pageCard.hardware) ∧
    (run { card := pageCard } lastClient).phase 0 = .returned ∧
    Housed (run { card := pageCard } lastClient) :=
  ⟨pageCard_attached, by decide +kernel, run_housed pageCard_attached false lastClient⟩

/-- The gate is closing when the open that was let in before gets its endpoint. -/
theorem opened_lastClient :
    Board.attach pageParts {} pageRig = (.ok (pageCard.board, pageCard.engine), pageCard.hardware) ∧
    (run { card := pageCard } (lastClient.take 5)).card.board.gate.closing = true ∧
    (run { card := pageCard } (lastClient.take 5)).tenants.map (·.2.isEndpoint) = [false] ∧
    (run { card := pageCard } (lastClient.take 6)).tenants.map (·.2.isEndpoint) = [true] :=
  ⟨pageCard_attached, by decide +kernel, by decide +kernel, by decide +kernel⟩

end Tenancy

end FpgaCard
