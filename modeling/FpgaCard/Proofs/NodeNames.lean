import FpgaCard.Proofs.Boards
import Mathlib.Data.List.Nodup

/-!
# Opening nodes by name

A name opens the first node that has it. Main statement: names tell all nodes of a layout apart if and
only if the names of its regions are distinct and none is that of the register node, and then every node
is opened by its name.
-/

namespace FpgaCard

def Table.regionNames (t : Table) : List String := t.regions.map (·.name)

namespace Layout

variable {t : Table} {l : Layout} {node : Node}

def names (l : Layout) : List String := l.nodes.map (·.name)

theorem nodeName_injective (device : String) (board : Nat) : (nodeName device board).Injective := by
  intro part other h
  unfold nodeName at h
  exact (String.append_right_inj _).1 h

theorem names_regionNodes (board minor : Nat) (device : String) (regions : List Region) :
    (regionNodes board device minor regions).map (·.name) =
      (regions.map (·.name)).map (nodeName device board) := by
  induction regions generalizing minor with
  | nil => rfl
  | cons region regions ih => simp [regionNodes_cons, ih]

theorem Stands.names_eq {board : Nat} {device : String} {behind : List Entry}
    (h : Stands t board l device behind) :
    l.names = ("reg" :: t.regionNames).map (nodeName device board) := by
  unfold names
  rw [h.nodes, nodesOf, List.map_cons, names_regionNodes]
  rfl

theorem nodup_names_iff {board : Nat} (h : ofTable t board = .ok l) :
    l.names.Nodup ↔ t.regionNames.Nodup ∧ "reg" ∉ t.regionNames := by
  obtain ⟨hnone, hnodes⟩ | ⟨device, behind, hstands⟩ := stands_of_ok h
  · have hregions : t.regionNames = [] := by
      unfold Table.regionNames
      rw [← t.regions_eq, hnone]
      rfl
    simp [names, hnodes, hregions]
  · rw [hstands.names_eq, List.nodup_map_iff (nodeName_injective device board), List.nodup_cons]
    exact and_comm

theorem Mirrors.pairwise_minor (h : l.Mirrors t) : l.nodes.Pairwise (·.minor < ·.minor) := by
  rw [List.pairwise_iff_getElem]
  intro i j hi hj hless
  rw [h.minor i _ (List.getElem?_eq_getElem hi), h.minor j _ (List.getElem?_eq_getElem hj)]
  exact hless

theorem Mirrors.find?_least (h : l.Mirrors t) (hin : node ∈ l.nodes) :
    ∃ first ∈ l.nodes, l.find? node.name = some first ∧ first.name = node.name ∧
      ∀ other ∈ l.nodes, other.name = node.name → first.minor ≤ other.minor := by
  unfold find?
  cases hfind : l.nodes.find? (·.name = node.name) with
  | none =>
    have hnot := List.find?_eq_none.1 hfind node hin
    simp at hnot
  | some first =>
    obtain ⟨hname, before, behind, hsplit, hbefore⟩ := List.find?_eq_some_iff_append.1 hfind
    refine ⟨first, List.mem_of_find?_eq_some hfind, rfl, by simpa using hname, ?_⟩
    intro other hother hsame
    -- The nodes before the match have other names, and those behind it have greater numbers.
    have hsorted := h.pairwise_minor
    rw [hsplit] at hother hsorted
    obtain hother | hother := List.mem_append.1 hother
    · have hnot := hbefore other hother
      simp [hsame] at hnot
    · obtain rfl | hother := List.mem_cons.1 hother
      · exact Nat.le_refl _
      · exact Nat.le_of_lt (List.rel_of_pairwise_cons (List.pairwise_append.1 hsorted).2.1 hother)

theorem Mirrors.find?_of_nodup (h : l.Mirrors t) (hnodup : l.names.Nodup) (hin : node ∈ l.nodes) :
    l.find? node.name = some node := by
  obtain ⟨first, hfirst, hfind, hname, -⟩ := h.find?_least hin
  rw [hfind, List.inj_on_of_nodup_map hnodup hfirst hin hname]

end Layout

namespace Board

open Layout

theorem openNamed_of_find? {b : Board} {name : String} {node : Node}
    (h : b.layout.find? name = some node) : b.openNamed name = b.openNode node.minor := by
  unfold openNamed
  rw [h]

/-- The names of nodes are distinct if those of the regions are and none is that of the register node.
Then every node is found and opened by its name; otherwise the first node of a name stands for all. -/
theorem openNamed_of_ofTable {t : Table} {number : Nat} {l : Layout} (h : Layout.ofTable t number = .ok l) :
    (l.names.Nodup ↔ t.regionNames.Nodup ∧ "reg" ∉ t.regionNames) ∧
    (l.names.Nodup → ∀ node ∈ l.nodes, l.find? node.name = some node ∧
      ∀ b : Board, b.layout = l → b.openNamed node.name = b.openNode node.minor) ∧
    ∀ node ∈ l.nodes, ∃ first ∈ l.nodes, l.find? node.name = some first ∧ first.name = node.name ∧
      (∀ other ∈ l.nodes, other.name = node.name → first.minor ≤ other.minor) ∧
      ∀ b : Board, b.layout = l → b.openNamed node.name = b.openNode first.minor := by
  have hmirrors := mirrors_of_ok h
  have hopen {node first : Node} (hfind : l.find? node.name = some first) (b : Board) (hb : b.layout = l) :
      b.openNamed node.name = b.openNode first.minor := by
    apply openNamed_of_find?
    rw [hb, hfind]
  refine ⟨nodup_names_iff h, ?_, ?_⟩
  · intro hnodup node hin
    have hfind := hmirrors.find?_of_nodup hnodup hin
    exact ⟨hfind, hopen hfind⟩
  · intro node hin
    obtain ⟨first, hfirst, hfind, hname, hleast⟩ := hmirrors.find?_least hin
    exact ⟨first, hfirst, hfind, hname, hleast, hopen hfind⟩

theorem openNamed_of_ofTable_pair :
    let regions : List Region :=
      [⟨"low", 0x40000000, 0x2000, .readWrite⟩, ⟨"high", 0x50000000, 0x2000, .readOnly⟩]
    let placed := ⟨5, .device "sim"⟩ :: regions.map fun region => ⟨11, .dma region⟩
    let t : Table := { window := [], length := 0, placed, isDefault := false }
    let l : Layout := { nodes := nodesOf 0 "sim" regions }
    let b : Board := { number := 0, table := t, layout := l, registers := ⟨none⟩, hasEngine := true }
    Layout.ofTable t 0 = .ok l ∧ l.names.Nodup ∧
      ∀ node ∈ l.nodes, l.find? node.name = some node ∧ b.openNamed node.name = b.openNode node.minor := by
  intro regions placed t l b
  have hok : Layout.ofTable t 0 = .ok l := rfl
  obtain ⟨hiff, hnamed, -⟩ := openNamed_of_ofTable hok
  have hnames : t.regionNames = ["low", "high"] := rfl
  have hnodup : l.names.Nodup := hiff.2 (by rw [hnames]; decide)
  refine ⟨hok, hnodup, fun node hin => ?_⟩
  obtain ⟨hfind, hopen⟩ := hnamed hnodup node hin
  exact ⟨hfind, hopen b rfl⟩

/-- The bytes of a table with two regions of one name. -/
def twinBytes : List UInt8 :=
  [0x44, 0x49, 0x41, 0x47, 1] ++ [1, 4, 0x73, 0x69, 0x6d, 0] ++
    [2, 15, 0, 0, 0, 0x40, 0, 0, 0, 0x20, 0, 0, 6, 0x6d, 0x65, 0x6d, 0] ++
    [2, 15, 0, 0, 0, 0x50, 0, 0, 0, 0x20, 0, 0, 6, 0x6d, 0x65, 0x6d, 0] ++ [0, 3, 0, 0x50, 0xc6]

/-- The second of two regions of one name cannot be opened by it. -/
theorem openNamed_twin : ∃ t b, Table.ofBytes twinBytes = .ok t ∧ ofTable 0 ⟨none⟩ {} t = .ok b ∧
    Layout.ofTable t 0 = .ok b.layout ∧ ¬ b.layout.names.Nodup ∧
    ∃ node ∈ b.layout.nodes, b.layout.find? node.name ≠ some node ∧
      (b.openNamed node.name).1 ≠ (b.openNode node.minor).1 := by
  let low : Region := ⟨"mem", 0x40000000, 0x2000, .readWrite⟩
  let high : Region := ⟨"mem", 0x50000000, 0x2000, .readWrite⟩
  have hmade : ((Table.ofBytes twinBytes).bind (ofTable 0 ⟨none⟩ {})).toOption.map (fun b =>
      (b.layout, (b.openNamed "sim.0.mem").1.toOption, (b.openNode 2).1.toOption)) =
        some ({ nodes := nodesOf 0 "sim" [low, high] }, some (.memory { region := low }),
          some (.memory { region := high })) := by
    decide +kernel
  cases hread : Table.ofBytes twinBytes with
  | error e =>
    rw [hread] at hmade
    cases hmade
  | ok t =>
    cases hboard : ofTable 0 ⟨none⟩ {} t with
    | error e =>
      rw [hread, Except.bind, hboard] at hmade
      cases hmade
    | ok b =>
      rw [hread, Except.bind, hboard] at hmade
      obtain ⟨hlayout, hopened⟩ := Prod.mk.inj (Option.some.inj hmade)
      obtain ⟨hnamed, hnode⟩ := Prod.mk.inj hopened
      obtain ⟨-, layout, hmake, rfl⟩ := eq_of_ofTable hboard
      refine ⟨t, _, rfl, hboard, hmake, ?_, ⟨2, "sim.0.mem", .memory high⟩, ?_, ?_, ?_⟩
      · rw [hlayout]
        decide +kernel
      · rw [hlayout]
        decide +kernel
      · rw [hlayout]
        decide +kernel
      · intro hsame
        rw [hsame, hnode] at hnamed
        exact absurd hnamed (by decide +kernel)

end Board

end FpgaCard
