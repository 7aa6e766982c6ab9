import FpgaCard.Discovery
import Mathlib

/-!
# How boards are numbered

A host lists its functions in any order, and board numbers must not depend on it. Main statement: the boards
are the four cards of the lowest addresses, numbered by address, however the host lists its functions.
-/

namespace FpgaCard

/-- All four identifiers can be read and are those of a card. -/
@[mk_iff]
structure PciFunction.Matches (f : PciFunction) : Prop where
  vendor : f.vendor >>= idOf? = some 0x10ee
  device : f.device >>= idOf? = some 0x7038
  subVendor : f.subVendor >>= idOf? = some 0x10ee
  subDevice : f.subDevice >>= idOf? = some 0x0007

theorem PciFunction.isCard_iff (f : PciFunction) : f.isCard = true ↔ f.Matches := by
  rw [matches_iff]
  -- An identifier that cannot be read counts as zero, and those of a card are not zero.
  have hgetD (read : Option UInt16) {n : UInt16} (hn : n ≠ 0) : read.getD 0 = n ↔ read = some n := by
    cases read with
    | none => simpa using hn.symm
    | some m => simp
  unfold isCard id?
  rw [decide_eq_true_iff]
  cases f.vendor >>= idOf? with
  | none => simp
  | some vendor =>
    cases f.device >>= idOf? with
    | none => simp
    | some device =>
      rw [← hgetD (f.subVendor >>= idOf?) (show (0x10ee : UInt16) ≠ 0 by decide),
        ← hgetD (f.subDevice >>= idOf?) (show (0x0007 : UInt16) ≠ 0 by decide)]
      simp [PciId.card]

namespace Discovery

variable {functions others : List PciFunction} {boards : List CardInfo}

/-! ## Cards by address -/

/-- The cards of a host, the lowest address first. -/
def ranked (functions : List PciFunction) : List PciFunction :=
  (functions.filter (·.isCard)).mergeSort fun f g => !(g.address < f.address)

theorem ranked_perm (functions : List PciFunction) :
    (ranked functions).Perm (functions.filter (·.isCard)) :=
  List.mergeSort_perm _ _

theorem mem_ranked {f : PciFunction} : f ∈ ranked functions ↔ f ∈ functions ∧ f.isCard = true := by
  rw [(ranked_perm functions).mem_iff, List.mem_filter]

theorem ranked_ascending (hnodup : (functions.map (·.address)).Nodup) :
    (ranked functions).Pairwise (·.address < ·.address) := by
  have hle (f g : PciFunction) : (!decide (g.address < f.address)) = true ↔ f.address ≤ g.address := by
    rw [Bool.not_eq_true', decide_eq_false_iff_not, String.not_lt]
  have hsorted : (ranked functions).Pairwise fun f g => f.address ≤ g.address := by
    refine (List.pairwise_mergeSort ?_ ?_ _).imp fun h => (hle _ _).1 h
    · intro f g h
      rw [hle, hle, hle]
      exact String.le_trans
    · intro f g
      rw [Bool.or_eq_true, hle, hle]
      exact String.le_total _ _
  have hdistinct : (ranked functions).Pairwise fun f g => f.address ≠ g.address := by
    have hcards : ((functions.filter (·.isCard)).map (·.address)).Nodup :=
      hnodup.sublist (List.filter_sublist.map _)
    exact List.pairwise_map.1 (((ranked_perm functions).map _).nodup_iff.2 hcards)
  exact hsorted.imp₂ (fun _ _ hle hne => lt_of_le_of_ne hle hne) hdistinct

theorem ranked_eq_of_perm (h : functions.Perm others) (hnodup : (functions.map (·.address)).Nodup) :
    ranked functions = ranked others := by
  have hcards : (ranked functions).Perm (ranked others) :=
    (ranked_perm functions).trans ((h.filter _).trans (ranked_perm others).symm)
  refine hcards.eq_of_pairwise ?_ (ranked_ascending hnodup) (ranked_ascending ?_)
  · intro f g _ _ hless hgreater
    exact absurd hless (lt_asymm hgreater)
  · exact (h.map _).nodup_iff.1 hnodup

/-! ## Boards -/

def addresses (boards : List CardInfo) : List String := boards.map (·.address)

def numbered (index : Nat) (f : PciFunction) : CardInfo := ⟨index, f.address, f.boundDriver?⟩

def boardsOf (functions : List PciFunction) : List CardInfo :=
  ((ranked functions).take maxBoards).mapIdx numbered

theorem cards_eq (functions : List PciFunction) : cards functions =
    if (ranked functions).isEmpty then .error .noDevices else .ok (boardsOf functions) := rfl

theorem addresses_boardsOf (functions : List PciFunction) :
    addresses (boardsOf functions) = ((ranked functions).take maxBoards).map (·.address) := by
  refine List.ext_getElem (by simp [addresses, boardsOf]) fun i _ _ => ?_
  simp [addresses, boardsOf, numbered]

theorem ascending_boardsOf (hnodup : (functions.map (·.address)).Nodup) :
    (addresses (boardsOf functions)).Pairwise (· < ·) := by
  rw [addresses_boardsOf, List.pairwise_map]
  exact (ranked_ascending hnodup).sublist (List.take_sublist _ _)

theorem lowest_boardsOf (hnodup : (functions.map (·.address)).Nodup) {f : PciFunction}
    (hin : f ∈ functions) (hcard : f.isCard = true) (hleft : f.address ∉ addresses (boardsOf functions)) :
    ∀ address ∈ addresses (boardsOf functions), address < f.address := by
  have hranked := ranked_ascending hnodup
  have hf : f ∈ ranked functions := mem_ranked.2 ⟨hin, hcard⟩
  rw [← List.take_append_drop maxBoards (ranked functions)] at hranked hf
  rw [addresses_boardsOf] at hleft ⊢
  have hbehind : f ∈ (ranked functions).drop maxBoards :=
    (List.mem_append.1 hf).resolve_left fun hkept => hleft (List.mem_map_of_mem hkept)
  intro address haddress
  obtain ⟨kept, hkept, rfl⟩ := List.mem_map.1 haddress
  exact (List.pairwise_append.1 hranked).2.2 kept hkept f hbehind

/-! ## Looking boards up -/

theorem card_eq (boards : List CardInfo) (i : Nat) : card boards i =
    if h : i < boards.length then .ok boards[i] else .error (.invalidIndex i boards.length) := by
  unfold card
  split
  · rename_i info hinfo
    obtain ⟨h, rfl⟩ := List.getElem?_eq_some_iff.1 hinfo
    rw [dif_pos h]
  · rename_i hnone
    rw [dif_neg (by simpa using hnone)]

theorem find?_of_ascending (h : (addresses boards).Pairwise (· < ·)) {info : CardInfo}
    (hin : info ∈ boards) : find? boards info.address = some info := by
  unfold find?
  obtain ⟨before, behind, rfl⟩ := List.append_of_mem hin
  rw [addresses, List.pairwise_map, List.pairwise_append] at h
  have hbefore : ∀ other ∈ before, ¬ decide (other.address = info.address) = true := by
    intro other hother hsame
    have hless := h.2.2 other hother info List.mem_cons_self
    rw [of_decide_eq_true hsame] at hless
    exact String.lt_irrefl _ hless
  rw [List.find?_append, List.find?_eq_none.2 hbefore, Option.none_or, List.find?_cons_of_pos (by simp)]

theorem find?_eq_none (boards : List CardInfo) (address : String) :
    find? boards address = none ↔ address ∉ addresses boards := by
  simp [find?, addresses]

/-- The boards of a host: its cards of the four lowest addresses, numbered by address, each found by its
number and by its address. -/
structure Numbered (functions : List PciFunction) (boards : List CardInfo) : Prop where
  count : boards.length = min 4 (functions.countP (·.isCard))
  ofCards : ∀ info ∈ boards, ∃ f ∈ functions, f.isCard = true ∧ info = numbered info.index f
  ascending : (addresses boards).Pairwise (· < ·)
  lowest : ∀ f ∈ functions, f.isCard = true → f.address ∉ addresses boards →
    ∀ address ∈ addresses boards, address < f.address
  card_of_lt : ∀ i (h : i < boards.length), card boards i = .ok boards[i] ∧ boards[i].index = i
  card_of_le : ∀ i, boards.length ≤ i → card boards i = .error (.invalidIndex i boards.length)
  find_of_lt : ∀ i (h : i < boards.length), find? boards boards[i].address = some boards[i]
  find_eq_none : ∀ address, find? boards address = none ↔ address ∉ addresses boards

theorem numbered_boardsOf (hnodup : (functions.map (·.address)).Nodup) :
    Numbered functions (boardsOf functions) where
  count := by
    rw [boardsOf, List.length_mapIdx, List.length_take, (ranked_perm functions).length_eq,
      List.countP_eq_length_filter]
    rfl
  ofCards info hinfo := by
    obtain ⟨i, hi, rfl⟩ := List.mem_mapIdx.1 hinfo
    obtain ⟨hin, hcard⟩ := mem_ranked.1 (List.mem_of_mem_take (List.getElem_mem hi))
    exact ⟨_, hin, hcard, rfl⟩
  ascending := ascending_boardsOf hnodup
  lowest _ := lowest_boardsOf hnodup
  card_of_lt i h := by
    rw [card_eq, dif_pos h]
    refine ⟨rfl, ?_⟩
    simp only [boardsOf, List.getElem_mapIdx]
    rfl
  card_of_le i h := by
    rw [card_eq, dif_neg (Nat.not_lt.2 h)]
  find_of_lt i h := find?_of_ascending (ascending_boardsOf hnodup) (List.getElem_mem h)
  find_eq_none := find?_eq_none _

/-- The boards of a host are the same in whatever order it lists its functions: there are none if no function
is a card, and else its cards of the four lowest addresses, numbered from zero. -/
theorem cards_eq_of_perm (h : functions.Perm others) (hnodup : (functions.map (·.address)).Nodup) :
    cards functions = cards others ∧ (∀ f : PciFunction, f.isCard = true ↔ f.Matches) ∧
    (((∀ f ∈ functions, f.isCard = false) ∧ cards functions = .error .noDevices) ∨
      ((∃ f ∈ functions, f.isCard = true) ∧
        ∃ boards, cards functions = .ok boards ∧ Numbered functions boards)) := by
  refine ⟨?_, PciFunction.isCard_iff, ?_⟩
  · rw [cards_eq, cards_eq, boardsOf, boardsOf, ranked_eq_of_perm h hnodup]
  · rw [cards_eq]
    cases hranked : ranked functions with
    | nil =>
      refine .inl ⟨?_, rfl⟩
      intro f hin
      rw [← Bool.not_eq_true]
      intro hcard
      have hf : f ∈ ranked functions := mem_ranked.2 ⟨hin, hcard⟩
      rw [hranked] at hf
      cases hf
    | cons f rest =>
      have hf : f ∈ ranked functions := hranked ▸ List.mem_cons_self
      exact .inr ⟨⟨f, mem_ranked.1 hf⟩, _, rfl, numbered_boardsOf hnodup⟩

def slots : List PciFunction :=
  let card : PciFunction :=
    { address := "", vendor := some (Text.Utf8.encode "0x10ee\n"), device := some (Text.Utf8.encode "7038"),
      subVendor := some (Text.Utf8.encode "0x10EE"), subDevice := some (Text.Utf8.encode " 0x0007") }
  [{ card with address := "0000:07:00.0" }, { card with address := "0000:01:00.0", subDevice := none },
    { card with address := "0000:06:00.0" }, { card with address := "0000:03:00.0" },
    { card with address := "0000:00:1f.0", vendor := some (Text.Utf8.encode "0x8086\n") },
    { card with address := "0000:05:00.0" }, { card with address := "0000:02:00.0" }]

/-- Five cards among seven functions, of which one has no subsystem and one is of another vendor. -/
theorem cards_eq_of_perm_five : slots.Perm slots.reverse ∧ (slots.map (·.address)).Nodup ∧
    cards slots = cards slots.reverse ∧
    ∃ boards, cards slots = .ok boards ∧ Numbered slots boards ∧ boards.length = 4 := by
  have hperm : slots.Perm slots.reverse := (List.reverse_perm slots).symm
  have hnodup : (slots.map (·.address)).Nodup := by decide
  obtain ⟨hsame, -, ⟨hnone, -⟩ | ⟨-, boards, hboards, hnumbered⟩⟩ := cards_eq_of_perm hperm hnodup
  · have hcard := hnone _ (List.mem_cons_self : _ ∈ slots)
    exact absurd hcard (by decide +kernel)
  · refine ⟨hperm, hnodup, hsame, boards, hboards, hnumbered, ?_⟩
    rw [hnumbered.count]
    decide +kernel

end Discovery

end FpgaCard
