import FpgaCard.Proofs.EndpointRead
import FpgaCard.Proofs.Nodes

/-!
# Where an endpoint stands

Reads, writes and seeks move the position of an endpoint, and every later address is computed from it. Main
statement: whatever comes of the calls, the position stays in the region, and is at its end only after a seek
to the end.
-/

namespace FpgaCard

open Text

/-! ## Calls -/

/-- Whether a call may come to this end. Nothing is known of the engine and the card at each of its steps. -/
inductive MemoryCall.CanEnd : MemoryCall → MemoryResult → Prop
  | last {σ : Type} [Hardware σ] {m : MemoryCall} {c : Channel σ} {r : MemoryResult}
      (h : (m.step c).1 = .finished r) : CanEnd m r
  | next {σ : Type} [Hardware σ] {m m' : MemoryCall} {c : Channel σ} {r : MemoryResult}
      (h : (m.step c).1.rest? = some m') : CanEnd m' r → CanEnd m r

/-- What a call may do to its endpoint: leave it alone when nothing was moved, or move it on by what was. -/
def MemoryEndpoint.Moves (m : MemoryEndpoint) (r : MemoryResult) : Prop :=
  (r.endpoint = m ∧ ∀ moved, r.result = .ok moved → moved.count = 0) ∨
    ∃ moved, r.result = .ok moved ∧ r.endpoint = m.advance moved.count

namespace MemoryCall

variable {m : MemoryCall} {r : MemoryResult}

theorem step_moves {σ : Type} [Hardware σ] (m : MemoryCall) (c : Channel σ) :
    (∃ m', (m.step c).1.rest? = some m' ∧ m'.endpoint = m.endpoint) ∨
      ∃ r, (m.step c).1 = .finished r ∧ m.endpoint.Moves r := by
  have hfail (e : CardError) : ∃ r, m.fail e = .finished r ∧ m.endpoint.Moves r :=
    ⟨_, rfl, .inl ⟨rfl, nofun⟩⟩
  unfold step
  cases m.stage with
  | plan =>
    dsimp only
    rcases m.plan_cases c.engine with ⟨e, -, hplan⟩ | ⟨-, hplan⟩ | ⟨span, -, hplan⟩
    · rw [hplan]
      exact .inr (hfail e)
    · rw [hplan]
      refine .inr ⟨_, rfl, .inl ⟨rfl, ?_⟩⟩
      rintro _ ⟨⟩
      rfl
    · rw [hplan]
      exact .inl ⟨_, rfl, rfl⟩
  | fill span =>
    dsimp only
    split <;> exact .inl ⟨_, rfl, rfl⟩
  | move skip transfer =>
    dsimp only
    cases (transfer.step c).1 with
    | going transfer => exact .inl ⟨_, rfl, rfl⟩
    | waiting transfer => exact .inl ⟨_, rfl, rfl⟩
    | finished result =>
      cases result with
      | error e => exact .inr (hfail e)
      | ok moved => exact .inl ⟨_, rfl, rfl⟩
  | collect skip moved =>
    dsimp only
    split <;> exact .inr ⟨_, rfl, .inr ⟨_, rfl, rfl⟩⟩

theorem CanEnd.moves (h : m.CanEnd r) : m.endpoint.Moves r := by
  induction h with
  | @last _ _ m c r h =>
    rcases m.step_moves c with ⟨m', hrest, -⟩ | ⟨r', hend, hmoves⟩
    · rw [h] at hrest
      cases hrest
    · rw [h] at hend
      cases hend
      exact hmoves
  | @next _ _ m m' c r h _ ih =>
    rcases m.step_moves c with ⟨m'', hrest, hsame⟩ | ⟨r', hend, -⟩
    · rw [h] at hrest
      cases hrest
      rwa [hsame] at ih
    · rw [hend] at h
      cases h

theorem canEnd_of_resume {σ : Type} [Hardware σ] {c : Channel σ}
    (h : (m.resume c).1 = .finished r) : m.CanEnd r := by
  suffices ∀ n (m : MemoryCall) (c : Channel σ), (advance n m c).1 = .finished r → m.CanEnd r from
    this _ _ _ h
  intro n
  induction n with
  | zero => exact nofun
  | succ n ih =>
    intro m c h
    rcases hstep : m.step c.deliver with ⟨outcome, c'⟩
    unfold advance at h
    rw [hstep] at h
    cases outcome with
    | finished r' =>
      cases h
      exact .last (congrArg Prod.fst hstep)
    | going m' =>
      exact .next (by rw [hstep]; rfl) (ih m' c' h)
    | waiting m' => cases h

end MemoryCall

/-! ## Seeks -/

namespace MemoryEndpoint

variable {m : MemoryEndpoint}

def goal (m : MemoryEndpoint) : SeekTarget → Int
  | .start offset => offset
  | .current delta => m.position + delta
  | .finish delta => m.length + delta

theorem length_lt (m : MemoryEndpoint) : m.length < bound64 := m.region.length.toNat_lt

theorem filter_target? (m : MemoryEndpoint) (target : SeekTarget) :
    (m.target? target).filter (· ≤ m.length) =
      if 0 ≤ m.goal target ∧ m.goal target ≤ m.length then some (m.goal target).toNat else none := by
  have hlength := m.length_lt
  -- No sum in the region is beyond 64 bits, so that the first of the two checks refuses none.
  have hshifted (base : Nat) (delta : Int) : (target?.shifted base delta).filter (· ≤ m.length) =
      if 0 ≤ base + delta ∧ base + delta ≤ m.length then some (base + delta).toNat else none := by
    unfold target?.shifted
    by_cases hin : 0 ≤ base + delta ∧ base + delta ≤ m.length
    · rw [if_pos ⟨hin.1, by omega⟩, if_pos hin]
      exact Option.filter_some_pos (decide_eq_true (by omega))
    · rw [if_neg hin]
      split
      · exact Option.filter_some_neg (decide_eq_false (by omega))
      · rfl
  cases target with
  | current delta => exact hshifted _ _
  | finish delta => exact hshifted _ _
  | start offset => simp [target?, goal, Option.filter]

theorem seek_iff (m : MemoryEndpoint) (target : SeekTarget) : m.seek target =
    if 0 ≤ m.goal target ∧ m.goal target ≤ m.length then
      .ok { m with position := (m.goal target).toNat }
    else .error (.invalidArgument ("seek outside region of " ++ hex m.length ++ " bytes")) := by
  unfold seek
  rw [filter_target?]
  by_cases hin : 0 ≤ m.goal target ∧ m.goal target ≤ m.length
  · rw [if_pos hin, if_pos hin]
  · rw [if_neg hin, if_neg hin]

end MemoryEndpoint

/-! ## Runs of an endpoint -/

inductive Deed where
  | sought (target : SeekTarget) (answer : Except CardError Nat)
  | called (request : MemoryRequest) (answer : Except CardError Moved)

/-- Whether a deed puts the endpoint somewhere: a seek that is taken, or a call that moves something. -/
def Deed.puts : Deed → Bool
  | .sought _ answer => answer.isOk
  | .called _ (.ok moved) => 0 < moved.count
  | .called _ (.error _) => false

/-- Where an endpoint of a region may stand after such deeds, the newest first. -/
inductive MemoryEndpoint.Follows (region : Region) : List Deed → MemoryEndpoint → Prop
  | opened : Follows region [] { region }
  | sought {deeds : List Deed} {m : MemoryEndpoint} (target : SeekTarget) : Follows region deeds m →
      Follows region (.sought target ((m.seek target).map (·.position)) :: deeds)
        ((m.seek target).toOption.getD m)
  | called {deeds : List Deed} {m : MemoryEndpoint} (request : MemoryRequest) {r : MemoryResult}
      (hend : MemoryCall.CanEnd { endpoint := m, request } r) : Follows region deeds m →
      Follows region (.called request r.result :: deeds) r.endpoint

namespace MemoryEndpoint

variable {region : Region} {deeds : List Deed} {m : MemoryEndpoint}

/-- The endpoint is in its region, and at the region's end only if the last deed that put it anywhere was a
seek to it. -/
structure Placed (region : Region) (deeds : List Deed) (m : MemoryEndpoint) : Prop where
  region : m.region = region
  inside : m.position ≤ m.length
  sought : m.position = m.length → m.length = 0 ∨
    ∃ target, deeds.find? Deed.puts = some (.sought target (.ok m.length))

theorem Placed.idle (h : Placed region deeds m) {d : Deed} (hd : d.puts = false) :
    Placed region (d :: deeds) m := by
  refine ⟨h.region, h.inside, fun hend => ?_⟩
  rw [List.find?_cons_of_neg (by simp [hd])]
  exact h.sought hend

theorem Placed.advance (h : Placed region deeds m) (count : Nat) (d : Deed) :
    Placed region (d :: deeds) (m.advance count) := by
  refine ⟨h.region, ?_, ?_⟩
  · show ite _ _ _ ≤ m.length
    split <;> omega
  · intro hend
    change ite _ _ _ = m.length at hend
    split at hend
    · exact .inl hend.symm
    · omega

theorem Placed.seek (h : Placed region deeds m) (target : SeekTarget) :
    Placed region (.sought target ((m.seek target).map (·.position)) :: deeds)
      ((m.seek target).toOption.getD m) := by
  rw [m.seek_iff]
  by_cases hin : 0 ≤ m.goal target ∧ m.goal target ≤ m.length
  · rw [if_pos hin]
    refine ⟨h.region, ?_, fun hend => .inr ⟨target, ?_⟩⟩
    · show (m.goal target).toNat ≤ m.length
      omega
    · rw [List.find?_cons_of_pos rfl]
      exact congrArg (fun position => some (Deed.sought target (.ok position))) hend
  · rw [if_neg hin]
    exact h.idle rfl

theorem Placed.call (h : Placed region deeds m) (request : MemoryRequest) {r : MemoryResult}
    (hmoves : m.Moves r) : Placed region (.called request r.result :: deeds) r.endpoint := by
  rcases hmoves with ⟨hsame, hnothing⟩ | ⟨moved, -, hadvance⟩
  · rw [hsame]
    refine h.idle ?_
    unfold Deed.puts
    cases hresult : r.result with
    | error e => rfl
    | ok moved => exact decide_eq_false (by rw [hnothing moved hresult]; omega)
  · rw [hadvance]
    exact h.advance moved.count _

theorem Follows.sought_ok (h : Follows region deeds m) {target : SeekTarget} {m' : MemoryEndpoint}
    (hseek : m.seek target = .ok m') : Follows region (.sought target (.ok m'.position) :: deeds) m' := by
  have hnext := h.sought target
  rwa [hseek] at hnext

theorem Follows.sought_error (h : Follows region deeds m) {target : SeekTarget} {e : CardError}
    (hseek : m.seek target = .error e) : Follows region (.sought target (.error e) :: deeds) m := by
  have hnext := h.sought target
  rwa [hseek] at hnext

theorem Follows.placed (h : Follows region deeds m) : Placed region deeds m := by
  induction h with
  | opened => exact ⟨rfl, Nat.zero_le _, fun hend => .inl hend.symm⟩
  | sought target _ ih => exact ih.seek target
  | called request hend _ ih => exact ih.call request hend.moves

/-- Whatever was done with an endpoint, it is inside its region, and at the region's end only since a seek to
it or if the region is empty. So no access begins behind the end, and every address of a region that a layout
admits is there. A seek is taken just when the place it asks for is in the region. -/
theorem Follows.inside {t : Table} {number : Nat} {l : Layout} {node : Node}
    (h : Follows region deeds m) (hlayout : Layout.ofTable t number = .ok l) (hnode : node ∈ l.nodes)
    (hregion : node.kind = .memory region) :
    m.region = region ∧ m.position ≤ m.length ∧
    (m.position = m.length → m.length = 0 ∨
      ∃ target, deeds.find? Deed.puts = some (.sought target (.ok m.length))) ∧
    m.offset? = .ok (if m.position = m.length then none else some m.position) ∧
    m.bounds m.position = .ok (m.region.base.toNat + m.position, m.region.base.toNat + m.length) ∧
    ∀ target, m.seek target =
      if 0 ≤ m.goal target ∧ m.goal target ≤ m.length then
        .ok { m with position := (m.goal target).toNat }
      else .error (.invalidArgument ("seek outside region of " ++ hex m.length ++ " bytes")) := by
  have hplaced := h.placed
  obtain ⟨entry, -, -, hfinish⟩ := Layout.entry_of_memory hlayout hnode hregion
  have hfits : m.region.base.toNat + m.length < 2 ^ 64 := by
    rw [← hplaced.region, Region.finish?_isSome] at hfinish
    exact hfinish
  refine ⟨hplaced.region, hplaced.inside, hplaced.sought, ?_, bounds_eq hfits hplaced.inside, m.seek_iff⟩
  by_cases hend : m.position = m.length
  · rw [if_pos hend]
    exact if_pos hend
  · rw [if_neg hend]
    exact offset?_eq (Nat.lt_of_le_of_ne hplaced.inside hend)

/-- A write up to the end, which leads back to the start, a seek to the end, a read there, and a seek behind
it, which is refused. -/
theorem inside_small : ∃ deeds,
    let m : MemoryEndpoint := { smallEndpoint with position := 8 }
    Follows smallEndpoint.region deeds m ∧ deeds.length = 5 ∧
      (∃ target, deeds.find? Deed.puts = some (.sought target (.ok 8))) ∧
      m.offset? = .ok none ∧ m.bounds 8 = .ok (0x80000008, 0x80000008) ∧
      m.seek (.finish (-8)) = .ok smallEndpoint ∧ (m.seek (.current 1)).isOk = false := by
  let m : MemoryEndpoint := { smallEndpoint with position := 8 }
  let middle : MemoryEndpoint := { smallEndpoint with position := 4 }
  have hwritten : MemoryCall.CanEnd { endpoint := middle, request := .write [1, 2, 3, 4] }
      ⟨smallEndpoint, .ok { count := 4 }⟩ :=
    MemoryCall.canEnd_of_resume (c := smallChannel) (by decide +kernel)
  have hread : MemoryCall.CanEnd { endpoint := m, request := .read 2 } ⟨m, .ok { count := 0 }⟩ :=
    .last (c := smallChannel) (by decide +kernel)
  have hmiddle : Follows smallEndpoint.region _ middle := .sought_ok .opened (seek_eq (by decide))
  have hend : Follows smallEndpoint.region _ m :=
    (hmiddle.called _ hwritten).sought_ok (seek_iff smallEndpoint (.finish 0))
  have hfollows := (hend.called _ hread).sought_error (seek_iff m (.current 1))
  let placed : List PlacedEntry := [⟨5, .device "sim"⟩, ⟨11, .dma smallEndpoint.region⟩]
  have hlayout : Layout.ofTable { window := [], length := 0, placed, isDefault := false } 0 =
      .ok { nodes := Layout.nodesOf 0 "sim" [smallEndpoint.region] } := rfl
  obtain ⟨-, -, hsought, hoffset, hbounds, hseek⟩ :=
    hfollows.inside hlayout (List.mem_cons_of_mem _ List.mem_cons_self) rfl
  refine ⟨_, hfollows, rfl, ?_, hoffset, hbounds, ?_, ?_⟩
  · exact (hsought rfl).resolve_left (by decide)
  · rw [hseek]
    rfl
  · rw [hseek]
    rfl

end MemoryEndpoint

end FpgaCard
