import FpgaCard.Layout

/-!
# What the nodes of a card mirror

A layout comes of a table whose device is in front of its regions, and holds the node of the device and one
for each region behind it. Main statement: it exists if and only if the entries are so arranged, and then
its nodes answer to the entries one by one.
-/

namespace FpgaCard

theorem Region.finish?_isSome (r : Region) :
    r.finish?.isSome = true ↔ r.base.toNat + r.length.toNat < UInt64.size := by
  unfold finish?
  split <;> simp_all

/-! ## Arranged entries -/

namespace Entry

def isDevice : Entry → Bool
  | .device _ => true
  | _ => false

/-- Masks, alignments and records of unknown tags. -/
def isAside : Entry → Bool
  | .dmaMask _ | .dmaAlign _ | .unknown .. => true
  | _ => false

theorem kinds (e : Entry) :
    (∃ name, e = .device name) ∨ (∃ region, e.region? = some region ∧ e.isDevice = false) ∨
      (e.isAside = true ∧ e.region? = none ∧ e.isDevice = false) := by
  cases e with
  | device name => exact .inl ⟨name, rfl⟩
  | dma region | dmaExtended region => exact .inr (.inl ⟨region, rfl, rfl⟩)
  | dmaMask | dmaAlign | unknown => exact .inr (.inr ⟨rfl, rfl, rfl⟩)

theorem hasNode_of_region? {e : Entry} {region : Region} (h : e.region? = some region) :
    e.hasNode = true := by
  cases e <;> cases h <;> rfl

theorem hasNode_of_isAside {e : Entry} (h : e.isAside = true) : e.hasNode = false := by
  cases e <;> cases h <;> rfl

/-- No two entries are devices, a device is before every region, and every region ends in the address
space. -/
structure Arranged (entries : List Entry) : Prop where
  single : entries.countP isDevice ≤ 1
  behind : ∀ (i : Nat) (region : Region), entries[i]?.bind region? = some region →
    ∃ j < i, ∃ name, entries[j]? = some (device name)
  inside : ∀ entry ∈ entries, ∀ region, entry.region? = some region →
    region.base.toNat + region.length.toNat < UInt64.size

def IsInside (e : Entry) : Prop := ∃ region, e.region? = some region ∧ region.finish?.isSome = true

variable {e : Entry} {entries : List Entry}

theorem arranged_nil : Arranged [] := ⟨Nat.zero_le 1, nofun, nofun⟩

theorem arranged_aside (h : e.isAside = true) : Arranged (e :: entries) ↔ Arranged entries := by
  obtain ⟨name, rfl⟩ | ⟨region, hregion, -⟩ | ⟨-, hregion, hdevice⟩ := e.kinds
  · cases h
  · cases e <;> cases h <;> cases hregion
  constructor
  · intro harranged
    refine ⟨?_, ?_, fun entry hin => harranged.inside entry (List.mem_cons_of_mem e hin)⟩
    · have hsingle := harranged.single
      rwa [List.countP_cons_of_neg (by simp [hdevice])] at hsingle
    · intro i region hsome
      obtain ⟨j, hj, name, hname⟩ := harranged.behind (i + 1) region hsome
      cases j with
      | zero =>
        cases hname
        cases hdevice
      | succ j => exact ⟨j, Nat.lt_of_succ_lt_succ hj, name, hname⟩
  · intro harranged
    constructor
    case single =>
      rw [List.countP_cons_of_neg (by simp [hdevice])]
      exact harranged.single
    case behind =>
      intro i region hsome
      cases i with
      | zero =>
        rw [List.getElem?_cons_zero, Option.bind_some, hregion] at hsome
        cases hsome
      | succ i =>
        obtain ⟨j, hj, name, hname⟩ := harranged.behind i region hsome
        exact ⟨j + 1, Nat.succ_lt_succ hj, name, hname⟩
    case inside =>
      intro entry hin region hsome
      rcases List.mem_cons.1 hin with rfl | hin
      · rw [hregion] at hsome
        cases hsome
      · exact harranged.inside entry hin region hsome

theorem not_arranged_region {region : Region} (h : e.region? = some region) : ¬ Arranged (e :: entries) := by
  intro harranged
  obtain ⟨j, hj, -⟩ := harranged.behind 0 region h
  exact Nat.not_lt_zero j hj

theorem arranged_device {name : String} :
    Arranged (device name :: entries) ↔ ∀ e ∈ entries.filter hasNode, e.IsInside := by
  constructor
  · intro harranged e hin
    obtain ⟨hin, hnode⟩ := List.mem_filter.1 hin
    have hnone : entries.countP isDevice = 0 := by
      have hsingle := harranged.single
      rw [List.countP_cons_of_pos rfl] at hsingle
      omega
    obtain ⟨name', rfl⟩ | ⟨region, hregion, -⟩ | ⟨haside, -⟩ := e.kinds
    · exact absurd rfl (List.countP_eq_zero.1 hnone _ hin)
    · have hfits := harranged.inside e (List.mem_cons_of_mem _ hin) region hregion
      exact ⟨region, hregion, region.finish?_isSome.2 hfits⟩
    · rw [hasNode_of_isAside haside] at hnode
      cases hnode
  · intro hinside
    constructor
    case single =>
      have hnone : entries.countP isDevice = 0 := by
        rw [List.countP_eq_zero]
        intro e hin hdevice
        obtain ⟨name', rfl⟩ | ⟨-, -, hnot⟩ | ⟨-, -, hnot⟩ := e.kinds
        · obtain ⟨region, hregion, -⟩ := hinside _ (List.mem_filter.2 ⟨hin, rfl⟩)
          cases hregion
        all_goals
          rw [hnot] at hdevice
          cases hdevice
      apply Nat.le_of_eq
      rw [List.countP_cons_of_pos rfl, hnone]
    case behind =>
      intro i region hsome
      cases i with
      | zero => cases hsome
      | succ i => exact ⟨0, Nat.succ_pos i, name, rfl⟩
    case inside =>
      intro e hin region hsome
      rcases List.mem_cons.1 hin with rfl | hin
      · cases hsome
      · obtain ⟨region', hregion', hfinish⟩ :=
          hinside e (List.mem_filter.2 ⟨hin, hasNode_of_region? hsome⟩)
        rw [hsome] at hregion'
        cases hregion'
        exact region.finish?_isSome.1 hfinish

theorem arranged_iff (entries : List Entry) :
    Arranged entries ↔ entries.filter hasNode = [] ∨
      ∃ name behind, entries.filter hasNode = device name :: behind ∧ ∀ e ∈ behind, e.IsInside := by
  -- An entry aside changes neither side, so the first other entry decides: a device or a region.
  induction entries with
  | nil => exact iff_of_true arranged_nil (.inl rfl)
  | cons e entries ih =>
    obtain ⟨name, rfl⟩ | ⟨region, hregion, -⟩ | ⟨haside, -⟩ := e.kinds
    · rw [arranged_device, List.filter_cons_of_pos rfl]
      constructor
      · exact fun hinside => .inr ⟨name, _, rfl, hinside⟩
      · rintro (hnil | ⟨name', behind, hcons, hinside⟩)
        · cases hnil
        · cases hcons
          exact hinside
    · rw [List.filter_cons_of_pos (hasNode_of_region? hregion)]
      apply iff_of_false (not_arranged_region hregion)
      rintro (hnil | ⟨name, behind, hcons, -⟩)
      · cases hnil
      · cases hcons
        cases hregion
    · rw [arranged_aside haside, List.filter_cons_of_neg (by simp [hasNode_of_isAside haside])]
      exact ih

end Entry

/-! ## Tables -/

def Table.regions (t : Table) : List Region := t.entries.filterMap Entry.region?

namespace Table

theorem regions_eq (t : Table) : t.nodeEntries.filterMap Entry.region? = t.regions := by
  unfold regions nodeEntries
  rw [List.filterMap_filter]
  congr 1
  funext e
  cases e <;> rfl

theorem length_regions (t : Table) : t.regions.length = t.regionCount :=
  List.length_filterMap_eq_countP

end Table

/-! ## Layouts -/

inductive NodeKind.Of : Entry → NodeKind → Prop where
  | device (name : String) : Of (.device name) .registers
  | dma (region : Region) : Of (.dma region) (.memory region)
  | dmaExtended (region : Region) : Of (.dmaExtended region) (.memory region)

def NodeKind.isMemory : NodeKind → Bool
  | .memory _ => true
  | .registers => false

theorem NodeKind.of_memory_iff {e : Entry} {region : Region} :
    Of e (.memory region) ↔ e.region? = some region := by
  constructor
  · intro h
    cases h <;> rfl
  · intro h
    cases e <;> cases h
    · exact .dma region
    · exact .dmaExtended region

namespace Layout

/-- The nodes of regions, the first of which has the number `minor`. -/
def regionNodes (board : Nat) (device : String) (minor : Nat) (regions : List Region) : List Node :=
  regions.mapIdx fun i region => ⟨minor + i, nodeName device board region.name, .memory region⟩

def nodesOf (board : Nat) (device : String) (regions : List Region) : List Node :=
  ⟨0, nodeName device board "reg", .registers⟩ :: regionNodes board device 1 regions

theorem regionNodes_cons (board : Nat) (device : String) (minor : Nat) (region : Region)
    (regions : List Region) : regionNodes board device minor (region :: regions) =
      ⟨minor, nodeName device board region.name, .memory region⟩ ::
        regionNodes board device (minor + 1) regions := by
  simp [regionNodes, List.mapIdx_cons, Nat.add_assoc, Nat.add_comm 1]

variable {board : Nat} {entry : Entry}

theorem place_region (board minor : Nat) (device : String) {region : Region}
    (hregion : entry.region? = some region) :
    (region.finish?.isSome = true ∧ place board minor (some device) entry =
      .ok (⟨minor, nodeName device board region.name, .memory region⟩, some device)) ∨
    (region.finish?.isSome = false ∧
      ∃ reason, place board minor (some device) entry = .error (.invalidTable reason)) := by
  unfold place
  cases entry <;> cases hregion <;> cases hfinish : region.finish? <;> simp [Entry.region?, hfinish]

theorem place_other (board minor : Nat) (device : String) (hregion : entry.region? = none) :
    ∃ reason, place board minor (some device) entry = .error (.invalidTable reason) := by
  cases entry <;> first | exact ⟨_, rfl⟩ | cases hregion

theorem placeAll_behind (board minor : Nat) (device : String) (entries : List Entry) :
    ((∀ e ∈ entries, e.IsInside) ∧ placeAll board minor (some device) entries =
      .ok (regionNodes board device minor (entries.filterMap Entry.region?))) ∨
    (¬ (∀ e ∈ entries, e.IsInside) ∧
      ∃ reason, placeAll board minor (some device) entries = .error (.invalidTable reason)) := by
  -- The device is known by now, and only the number goes on from entry to entry.
  induction entries generalizing minor with
  | nil => exact .inl ⟨nofun, rfl⟩
  | cons entry entries ih =>
    rw [List.forall_mem_cons, placeAll]
    cases hregion : entry.region? with
    | none =>
      obtain ⟨reason, hplace⟩ := place_other board minor device hregion
      rw [hplace]
      refine .inr ⟨?_, reason, rfl⟩
      rintro ⟨⟨region, hsome, -⟩, -⟩
      rw [hregion] at hsome
      cases hsome
    | some region =>
      have hinside : entry.IsInside ↔ region.finish?.isSome = true := by
        simp [Entry.IsInside, hregion]
      rw [hinside, List.filterMap_cons_some hregion, regionNodes_cons]
      obtain ⟨hfinish, hplace⟩ | ⟨hfinish, reason, hplace⟩ := place_region board minor device hregion
      · rw [hplace]
        obtain ⟨hall, hrest⟩ | ⟨hnot, reason, hrest⟩ := ih (minor + 1)
        · exact .inl ⟨⟨hfinish, hall⟩, by simp only [hrest]; rfl⟩
        · exact .inr ⟨fun h => hnot h.2, reason, by simp only [hrest]; rfl⟩
      · rw [hplace]
        exact .inr ⟨fun h => by simp [hfinish] at h, reason, rfl⟩

/-- A table without devices and regions has no nodes, one with a device in front has the nodes of it and
of its regions, and no other makes a layout. -/
theorem ofTable_cases (table : Table) (board : Nat) :
    (table.nodeEntries = [] ∧ ofTable table board = .ok {}) ∨
    (∃ device behind, table.nodeEntries = .device device :: behind ∧ (∀ e ∈ behind, e.IsInside) ∧
      ofTable table board = .ok { nodes := nodesOf board device (behind.filterMap Entry.region?) }) ∨
    (¬ Entry.Arranged table.entries ∧
      ∃ reason, ofTable table board = .error (.invalidTable reason)) := by
  rw [Entry.arranged_iff]
  unfold ofTable
  change (table.nodeEntries = [] ∧ _) ∨ _ ∨
    (¬ (table.nodeEntries = [] ∨ ∃ name behind, table.nodeEntries = .device name :: behind ∧ _) ∧ _)
  cases hnodes : table.nodeEntries with
  | nil => exact .inl ⟨rfl, rfl⟩
  | cons first behind =>
    right
    obtain ⟨device, rfl⟩ | ⟨region, hregion, -⟩ | ⟨haside, -⟩ := first.kinds
    · have hplaced : placeAll board 0 none (.device device :: behind) =
          (placeAll board 1 (some device) behind).map (⟨0, nodeName device board "reg", .registers⟩ :: ·) :=
        rfl
      rw [hplaced]
      obtain ⟨hinside, hrest⟩ | ⟨hnot, reason, hrest⟩ := placeAll_behind board 1 device behind
      · rw [hrest]
        exact .inl ⟨device, behind, rfl, hinside, rfl⟩
      · rw [hrest]
        exact .inr ⟨by simpa using hnot, reason, rfl⟩
    · refine .inr ⟨?_, ?_⟩
      · rintro (hnil | ⟨name, behind', hcons, -⟩)
        · cases hnil
        · cases hcons
          cases hregion
      · cases first <;> cases hregion <;> exact ⟨_, rfl⟩
    · have hin : first ∈ table.nodeEntries := by
        rw [hnodes]
        exact List.mem_cons_self
      have hnode := (List.mem_filter.1 hin).2
      rw [Entry.hasNode_of_isAside haside] at hnode
      cases hnode

theorem map_region? {entries : List Entry} (h : ∀ e ∈ entries, e.IsInside) :
    entries.map Entry.region? = (entries.filterMap Entry.region?).map some := by
  induction entries with
  | nil => rfl
  | cons entry entries ih =>
    rw [List.forall_mem_cons] at h
    obtain ⟨⟨region, hregion, -⟩, hrest⟩ := h
    rw [List.map_cons, ih hrest, List.filterMap_cons_some hregion, List.map_cons, hregion]

structure Stands (t : Table) (board : Nat) (l : Layout) (device : String) (behind : List Entry) : Prop where
  entries : t.nodeEntries = .device device :: behind
  regions : behind.map Entry.region? = t.regions.map some
  nodes : l.nodes = nodesOf board device t.regions

variable {t : Table} {l : Layout}

theorem arranged_of_ok (h : ofTable t board = .ok l) : Entry.Arranged t.entries := by
  rw [Entry.arranged_iff]
  obtain ⟨hnone, -⟩ | ⟨device, behind, hentries, hinside, -⟩ | ⟨-, reason, hrefused⟩ := ofTable_cases t board
  · exact .inl hnone
  · exact .inr ⟨device, behind, hentries, hinside⟩
  · rw [hrefused] at h
    cases h

theorem invalidTable_of_error {e : CardError} (h : ofTable t board = .error e) :
    ∃ reason, e = .invalidTable reason := by
  obtain ⟨-, hok⟩ | ⟨device, behind, -, -, hok⟩ | ⟨-, reason, hrefused⟩ := ofTable_cases t board
  · rw [hok] at h
    cases h
  · rw [hok] at h
    cases h
  · rw [hrefused] at h
    cases h
    exact ⟨reason, rfl⟩

theorem stands_of_ok (h : ofTable t board = .ok l) :
    (t.nodeEntries = [] ∧ l.nodes = []) ∨ ∃ device behind, Stands t board l device behind := by
  obtain ⟨hnone, hok⟩ | ⟨device, behind, hentries, hinside, hok⟩ | ⟨-, reason, hrefused⟩ :=
    ofTable_cases t board
  · rw [hok] at h
    cases h
    exact .inl ⟨hnone, rfl⟩
  · rw [hok] at h
    cases h
    have hregions : behind.filterMap Entry.region? = t.regions := by
      rw [← t.regions_eq, hentries]
      rfl
    exact .inr ⟨device, behind, hentries, by rw [← hregions, map_region? hinside], by rw [hregions]⟩
  · rw [hrefused] at h
    cases h

theorem getElem?_regionNodes (board minor : Nat) (device : String) (regions : List Region) (k : Nat) :
    (regionNodes board device minor regions)[k]? =
      regions[k]?.map fun region => ⟨minor + k, nodeName device board region.name, .memory region⟩ :=
  List.getElem?_mapIdx

/-- What the nodes of a layout have to do with the entries of its table. -/
structure Mirrors (l : Layout) (t : Table) : Prop where
  length : l.nodes.length = t.nodeCount
  isSome : ∀ k, (l.get? k).isSome = true ↔ k < t.nodeCount
  minor : ∀ k node, l.get? k = some node → node.minor = k
  entry : ∀ k node, l.get? k = some node → ∃ entry, t.nodeEntry? k = some entry ∧ NodeKind.Of entry node.kind
  memories : l.nodes.countP (·.kind.isMemory) = t.regionCount

namespace Stands

variable {behind : List Entry} (h : Stands t board l device behind)

include h

theorem length_eq : l.nodes.length = t.nodeCount := by
  have hbehind := congrArg List.length h.regions
  rw [List.length_map, List.length_map] at hbehind
  unfold Table.nodeCount
  rw [h.nodes, h.entries]
  simp [nodesOf, regionNodes, hbehind]

theorem mirrors : l.Mirrors t where
  length := h.length_eq
  isSome k := by
    rw [← h.length_eq, get?]
    simp
  minor k node hnode := by
    rw [get?, h.nodes] at hnode
    cases k with
    | zero =>
      cases hnode
      rfl
    | succ k =>
      rw [nodesOf, List.getElem?_cons_succ, getElem?_regionNodes, Option.map_eq_some_iff] at hnode
      obtain ⟨region, -, rfl⟩ := hnode
      exact Nat.add_comm 1 k
  entry k node hnode := by
    rw [get?, h.nodes] at hnode
    rw [Table.nodeEntry?, h.entries]
    cases k with
    | zero =>
      cases hnode
      exact ⟨_, rfl, .device device⟩
    | succ k =>
      rw [nodesOf, List.getElem?_cons_succ, getElem?_regionNodes, Option.map_eq_some_iff] at hnode
      obtain ⟨region, hregion, rfl⟩ := hnode
      have hsame : (behind.map Entry.region?)[k]? = some (some region) := by
        rw [h.regions, List.getElem?_map, hregion]
        rfl
      rw [List.getElem?_map, Option.map_eq_some_iff] at hsame
      obtain ⟨entry, hentry, hof⟩ := hsame
      exact ⟨entry, hentry, NodeKind.of_memory_iff.2 hof⟩
  memories := by
    have hall : (regionNodes board device 1 t.regions).countP (·.kind.isMemory) = t.regions.length := by
      rw [List.countP_eq_length.2, regionNodes, List.length_mapIdx]
      intro node hnode
      obtain ⟨i, hi, rfl⟩ := List.mem_mapIdx.1 hnode
      rfl
    rw [h.nodes, nodesOf, List.countP_cons_of_neg (by simp [NodeKind.isMemory]), hall, t.length_regions]

end Stands

theorem mirrors_of_ok (h : ofTable t board = .ok l) : l.Mirrors t := by
  obtain ⟨hnone, hnodes⟩ | ⟨device, behind, hstands⟩ := stands_of_ok h
  · have hcount : t.nodeCount = 0 := congrArg List.length hnone
    have hregions : t.regionCount = 0 := by
      rw [← t.length_regions, ← t.regions_eq, hnone]
      rfl
    have hget (k : Nat) : l.get? k = none := by rw [get?, hnodes]; rfl
    constructor
    case length => rw [hnodes, hcount]; rfl
    case isSome => simp [hget, hcount]
    case minor => simp [hget]
    case entry => simp [hget]
    case memories => rw [hnodes, hregions]; rfl
  · exact hstands.mirrors

theorem entry_of_memory (h : ofTable t board = .ok l) {node : Node} (hmem : node ∈ l.nodes) {region : Region}
    (hnode : node.kind = .memory region) :
    ∃ entry ∈ t.nodeEntries, entry.region? = some region ∧ region.finish?.isSome = true := by
  obtain ⟨k, hk⟩ := List.getElem?_of_mem hmem
  obtain ⟨entry, hentry, hof⟩ := (mirrors_of_ok h).entry k node hk
  rw [hnode, NodeKind.of_memory_iff] at hof
  have hin : entry ∈ t.nodeEntries := List.mem_of_getElem? hentry
  have hfits := (arranged_of_ok h).inside entry (List.mem_filter.1 hin).1 region hof
  exact ⟨entry, hin, hof, region.finish?_isSome.2 hfits⟩

theorem hasRegions_of_memory (h : ofTable t board = .ok l) {node : Node} (hmem : node ∈ l.nodes)
    {region : Region} (hnode : node.kind = .memory region) : t.hasRegions = true := by
  obtain ⟨entry, hin, hregion, -⟩ := entry_of_memory h hmem hnode
  unfold Table.hasRegions Table.regionCount
  rw [decide_eq_true_iff, List.countP_pos_iff]
  exact ⟨entry, (List.mem_filter.1 hin).1, by simp [Entry.isRegion, hregion]⟩

/-- A layout is made of arranged entries and of no others; its nodes answer to the entries that need one,
in their order; and the entries aside could as well be absent. -/
theorem ofTable_mirrors (t : Table) (board : Nat) :
    ((∃ l, ofTable t board = .ok l) ↔ Entry.Arranged t.entries) ∧
    (∀ e, ofTable t board = .error e → ∃ reason, e = .invalidTable reason) ∧
    (∀ l, ofTable t board = .ok l → l.Mirrors t) ∧
    ∀ before aside behind, t.placed = before ++ aside :: behind → aside.entry.isAside = true →
      ofTable { t with placed := before ++ behind } board = ofTable t board := by
  refine ⟨⟨?_, ?_⟩, fun e => invalidTable_of_error, fun l => mirrors_of_ok, ?_⟩
  · rintro ⟨l, h⟩
    exact arranged_of_ok h
  · intro harranged
    obtain ⟨-, hok⟩ | ⟨device, behind, -, -, hok⟩ | ⟨hnot, -⟩ := ofTable_cases t board
    · exact ⟨_, hok⟩
    · exact ⟨_, hok⟩
    · exact absurd harranged hnot
  · intro before aside behind hplaced haside
    have hnode := Entry.hasNode_of_isAside haside
    unfold ofTable
    congr 2
    simp [Table.nodeEntries, Table.entries, hplaced, hnode]

theorem ofTable_mirrors_mask :
    let device : PlacedEntry := ⟨8, .device "sim"⟩
    let mask : PlacedEntry := ⟨13, .dmaMask 40⟩
    let region : PlacedEntry := ⟨16, .dma ⟨"mem", 0x40000000, 0x2000, .readWrite⟩⟩
    let table (placed : List PlacedEntry) : Table := { window := [], length := 0, placed, isDefault := false }
    (∃ l, ofTable (table [device, mask, region]) 0 = .ok l ∧ l.Mirrors (table [device, mask, region]) ∧
      l.nodes.length = 2 ∧ mask.entry.isAside = true ∧ ofTable (table [device, region]) 0 = .ok l) ∧
    ∃ e, ofTable (table [region, device]) 0 = .error e ∧ ∃ reason, e = .invalidTable reason := by
  intro device mask region table
  obtain ⟨-, -, hmirrors, haside⟩ := ofTable_mirrors (table [device, mask, region]) 0
  obtain ⟨-, hrefused, -⟩ := ofTable_mirrors (table [region, device]) 0
  have hok : ofTable (table [device, mask, region]) 0 =
      .ok { nodes := nodesOf 0 "sim" [⟨"mem", 0x40000000, 0x2000, .readWrite⟩] } := rfl
  refine ⟨⟨_, hok, hmirrors _ hok, rfl, rfl, ?_⟩, _, rfl, hrefused _ rfl⟩
  exact (haside [device] mask [region] rfl rfl).trans hok

end Layout

end FpgaCard
