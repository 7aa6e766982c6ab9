import FpgaCard.Proofs.TableFormat

/-!
# The span of a table

A table takes up the front of its window, as far as its end marker. Main statement: nothing behind that is
looked at, so that a window with the same front holds the same table, and no table is the beginning of
another.
-/

namespace FpgaCard.Table

variable {w w' bytes other : List UInt8} {n : Nat}

/-! ## Windows with the same front -/

theorem getD_of_take {length i : Nat} (h : w'.take length = w.take length) (hi : i < length) :
    w'.getD i 0 = w.getD i 0 := by
  rw [List.getD_eq_getElem?_getD, List.getD_eq_getElem?_getD, ← List.getElem?_take_of_lt hi, h,
    List.getElem?_take_of_lt hi]

theorem slice_of_take {length start count : Nat} (h : w'.take length = w.take length)
    (hend : start + count ≤ length) : (w'.drop start).take count = (w.drop start).take count := by
  have hfront (v : List UInt8) :
      (v.drop start).take count = ((v.take length).take (start + count)).drop start := by
    rw [List.take_take, Nat.min_eq_left hend, List.take_drop]
  rw [hfront, hfront, h]

/-- The first `n` records of two windows and the end marker behind them are the same bytes. -/
def SameSpan (w w' : List UInt8) (n : Nat) : Prop :=
  w'.take (place w (n + 1)) = w.take (place w (n + 1))

theorem next_le_place {k : Nat} (hk : k ≤ n) :
    place w k + 2 + (sizeAt w (place w k)).toNat ≤ place w (n + 1) :=
  place_mono w (Nat.succ_le_succ hk)

namespace SameSpan

variable (h : SameSpan w w' n) {k : Nat} (hk : k ≤ n)

include h hk

theorem tagAt_eq : tagAt w' (place w k) = tagAt w (place w k) := by
  have hnext := next_le_place (w := w) hk
  exact getD_of_take h (by omega)

theorem sizeAt_eq : sizeAt w' (place w k) = sizeAt w (place w k) := by
  have hnext := next_le_place (w := w) hk
  exact getD_of_take h (by omega)

theorem payloadAt_eq : payloadAt w' (place w k) = payloadAt w (place w k) := by
  have hnext := next_le_place (w := w) hk
  unfold payloadAt
  rw [h.sizeAt_eq hk]
  exact slice_of_take h hnext

end SameSpan

theorem SameSpan.place_eq (h : SameSpan w w' n) {k : Nat} (hk : k ≤ n + 1) : place w' k = place w k :=
  place_congr (fun _ hj => h.sizeAt_eq hj) hk

theorem SameSpan.recordsOf_eq (h : SameSpan w w' n) : recordsOf w' n = recordsOf w n := by
  unfold recordsOf
  apply List.map_congr_left
  intro k hk
  have hk' : k ≤ n := Nat.le_of_lt (List.mem_range.1 hk)
  rw [h.place_eq (Nat.le_succ_of_le hk'), recordAt, recordAt, h.tagAt_eq hk', h.payloadAt_eq hk']

/-! ## Tables with the same span -/

theorem Accepted.congr (h : Accepted bytes n) (hfits : other.length ≤ windowSize)
    (hspan : SameSpan (padded bytes) (padded other) n) : Accepted other n := by
  have hends : place (padded other) (n + 1) = place (padded bytes) (n + 1) := hspan.place_eq (Nat.le_refl _)
  refine ⟨⟨hfits, ?_⟩, ?_, ?_, ?_⟩
  · have hbehind : 4 < place (padded bytes) (n + 1) :=
      Nat.lt_of_lt_of_le (Nat.lt_succ_self 4) (place_mono (padded bytes) (Nat.zero_le (n + 1)))
    rw [getD_of_take hspan hbehind]
    exact h.readable.version
  · exact h.closes.congr (fun k hk => hspan.sizeAt_eq hk) fun k hk => by rw [hspan.tagAt_eq hk]
  · rw [hends, hspan]
    exact h.checksum
  · intro k hk
    have hk' : k ≤ n := Nat.le_of_lt hk
    unfold WholeAt
    rw [hspan.place_eq (Nat.le_succ_of_le hk'), hspan.tagAt_eq hk', hspan.sizeAt_eq hk']
    exact h.whole k hk

def inWindow (t : Table) (w : List UInt8) : Table := { t with window := w }

theorem SameSpan.ofChain_eq (h : SameSpan w w' n) : ofChain w' n = (ofChain w n).inWindow w' := by
  unfold inWindow ofChain
  rw [h.recordsOf_eq, h.place_eq (Nat.le_refl _)]

/-- What two tables have in common that differ at most in what is behind them. -/
structure Same (t t' : Table) : Prop where
  entries : t'.entries = t.entries
  offsets : t'.placed.map (·.offset) = t.placed.map (·.offset)
  regionCount : t'.regionCount = t.regionCount
  nodeCount : t'.nodeCount = t.nodeCount
  settings : t'.settings = t.settings
  isDefault : t'.isDefault = t.isDefault
  length : t'.length = t.length
  bytes : t'.bytes = t.bytes

theorem same_inWindow {t : Table} (h : w.take t.length = t.bytes) : t.Same (t.inWindow w) :=
  ⟨rfl, rfl, rfl, rfl, rfl, rfl, rfl, h⟩

theorem exists_same {t : Table} (h : ofBytes bytes = .ok t) (hfits : other.length ≤ windowSize)
    (hfront : (padded other).take t.length = t.bytes) : ∃ t', ofBytes other = .ok t' ∧ t.Same t' := by
  obtain ⟨n, haccepted, rfl⟩ := accepted_of_ok h
  have hspan : SameSpan (padded bytes) (padded other) n := hfront
  refine ⟨_, ofBytes_of_accepted (haccepted.congr hfits hspan), ?_⟩
  rw [hspan.ofChain_eq]
  exact same_inWindow hfront

theorem length_of_ok {t : Table} (h : ofBytes bytes = .ok t) :
    t.length < windowSize ∧ t.bytes.length = t.length := by
  obtain ⟨n, haccepted, rfl⟩ := accepted_of_ok h
  have hbelow := haccepted.closes.below
  refine ⟨hbelow, ?_⟩
  show ((padded bytes).take (place (padded bytes) (n + 1))).length = place (padded bytes) (n + 1)
  rw [List.length_take, length_padded haccepted.readable.length]
  omega

theorem exists_same_of_prefix {t : Table} (h : ofBytes bytes = .ok t) (hfits : other.length ≤ windowSize)
    (hbegins : t.bytes <+: other) : ∃ t', ofBytes other = .ok t' ∧ t.Same t' := by
  obtain ⟨-, hlength⟩ := length_of_ok h
  have hinside : t.length ≤ other.length := hlength ▸ hbegins.length_le
  apply exists_same h hfits
  rw [padded, List.take_append_of_le_length hinside, ← hlength]
  exact (List.prefix_iff_eq_take.1 hbegins).symm

/-- A table is determined by its span: all bytes with the same front are the same table, the span alone is
so as well, and the span of one table is never the beginning of another's. -/
theorem ofBytes_span {t : Table} (h : ofBytes bytes = .ok t) :
    (∀ other, other.length ≤ windowSize → (padded other).take t.length = t.bytes →
      ∃ t', ofBytes other = .ok t' ∧ t.Same t') ∧
    (∃ t', ofBytes t.bytes = .ok t' ∧ t.Same t') ∧
    ∀ other t', ofBytes other = .ok t' → t.bytes <+: t'.bytes → t'.bytes = t.bytes := by
  have hfits {bytes : List UInt8} {t : Table} (h : ofBytes bytes = .ok t) : t.bytes.length ≤ windowSize := by
    obtain ⟨hless, hlength⟩ := length_of_ok h
    omega
  refine ⟨fun other => exists_same h, exists_same_of_prefix h (hfits h) List.prefix_rfl, ?_⟩
  intro other t' h' hbegins
  -- The longer span is read once as either table.
  obtain ⟨found, hfound, hsame⟩ := exists_same_of_prefix h (hfits h') hbegins
  obtain ⟨found', hfound', hsame'⟩ := exists_same_of_prefix h' (hfits h') List.prefix_rfl
  rw [hfound] at hfound'
  cases hfound'
  rw [← hsame.bytes, hsame'.bytes]

theorem ofBytes_span_builtIn :
    ofBytes builtIn = .ok (ofChain (padded builtIn) 3) ∧
    (builtIn ++ [9]).length ≤ windowSize ∧
    (padded (builtIn ++ [9])).take (ofChain (padded builtIn) 3).length = (ofChain (padded builtIn) 3).bytes ∧
    ∃ t', ofBytes (builtIn ++ [9]) = .ok t' ∧ (ofChain (padded builtIn) 3).Same t' ∧
      (ofChain (padded builtIn) 3).bytes <+: t'.bytes ∧ t'.bytes = (ofChain (padded builtIn) 3).bytes := by
  have hok := ofBytes_of_accepted accepted_builtIn
  have hfits : (builtIn ++ [9]).length ≤ windowSize := by decide +kernel
  have hfront : (padded (builtIn ++ [9])).take (ofChain (padded builtIn) 3).length =
      (ofChain (padded builtIn) 3).bytes := by decide +kernel
  obtain ⟨hfollowed, -, hnested⟩ := ofBytes_span hok
  obtain ⟨t', hok', hsame⟩ := hfollowed _ hfits hfront
  have hbegins : (ofChain (padded builtIn) 3).bytes <+: t'.bytes := hsame.bytes ▸ List.prefix_rfl
  exact ⟨hok, hfits, hfront, t', hok', hsame, hbegins, hnested _ _ hok' hbegins⟩

end FpgaCard.Table
