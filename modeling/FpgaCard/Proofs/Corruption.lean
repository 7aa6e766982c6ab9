import FpgaCard.Proofs.TableFormat

/-!
# Corrupted tables

One byte of a table is changed, and all records stay where they are. Main statement: what comes of it is
refused, for its version if that was the byte and for its checksum otherwise.
-/

namespace FpgaCard.Table

/-- A change of the byte at `i` into `v` that leaves the first `n` records and the one behind them where
they are: it is no size, and neither makes a tag an end marker nor an end marker another tag. -/
structure InPlace (w : List UInt8) (n i : Nat) (v : UInt8) : Prop where
  size : ∀ k ≤ n, i ≠ place w k + 1
  tag : ∀ k ≤ n, i = place w k → tagAt w i ≠ Tag.finish.byte ∧ v ≠ Tag.finish.byte

variable {w : List UInt8} {n i offset : Nat} {v : UInt8}

theorem getD_set_of_ne (h : i ≠ offset) : (w.set i v).getD offset 0 = w.getD offset 0 := by
  rw [List.getD_eq_getElem?_getD, List.getD_eq_getElem?_getD, List.getElem?_set_ne h]

theorem getD_set_self (h : i < w.length) : (w.set i v).getD i 0 = v := by
  rw [List.getD_eq_getElem?_getD, List.getElem?_set_self h]
  rfl

namespace InPlace

theorem sizeAt_eq (h : InPlace w n i v) {k : Nat} (hk : k ≤ n) :
    sizeAt (w.set i v) (place w k) = sizeAt w (place w k) :=
  getD_set_of_ne (h.size k hk)

theorem place_eq (h : InPlace w n i v) {k : Nat} (hk : k ≤ n + 1) : place (w.set i v) k = place w k :=
  place_congr (fun _ hj => h.sizeAt_eq hj) hk

theorem closes (h : InPlace w n i v) (hi : i < w.length) (hcloses : Closes w n) :
    Closes (w.set i v) n := by
  apply hcloses.congr fun k hk => h.sizeAt_eq hk
  intro k hk
  by_cases hsame : i = place w k
  · obtain ⟨hold, hnew⟩ := h.tag k hk hsame
    rw [← hsame, tagAt, getD_set_self hi]
    exact iff_of_false hnew hold
  · rw [tagAt, getD_set_of_ne hsame]
    rfl

end InPlace

/-- What the reader says of a table of `length` bytes whose byte at `i` is now `v`, in the window `w`. -/
def corruption (w : List UInt8) (length i : Nat) (v : UInt8) : CardError :=
  if i = versionOffset then .unsupportedVersion v version
  else .checksumMismatch (Checksum.checksum ((w.set i v).take length)) length

theorem isTableError_corruption (w : List UInt8) (length i : Nat) (v : UInt8) :
    (corruption w length i v).isTableError = true := by
  unfold corruption
  split <;> rfl

theorem padded_of_length (hw : w.length = windowSize) : padded w = w := by
  rw [padded, hw, Nat.sub_self]
  exact List.append_nil w

theorem checksum_take_set {length : Nat} (hlength : length < windowSize) (hw : w.length = windowSize)
    (hsum : Checksum.checksum (w.take length) = 0) (hi : i < length) (hv : v ≠ w.getD i 0) :
    Checksum.checksum ((w.set i v).take length) ≠ 0 := by
  have htaken : (w.take length).length = length := by
    rw [List.length_take]
    omega
  have hinside : i < (w.take length).length := by rwa [htaken]
  rw [List.take_set]
  apply Checksum.checksum_set_ne_zero _ hsum hinside
  · rwa [List.getElem_take, ← List.getD_eq_getElem _ 0]
  · unfold windowSize at hlength
    omega

theorem violation_of_inPlace {bytes : List UInt8} (h : Accepted bytes n)
    (hplace : InPlace (padded bytes) n i v) (hi : i < place (padded bytes) (n + 1))
    (hv : v ≠ (padded bytes).getD i 0) :
    Violation ((padded bytes).set i v) (corruption (padded bytes) (place (padded bytes) (n + 1)) i v) := by
  have hw := length_padded h.readable.length
  have hbelow := h.closes.below
  have hset : ((padded bytes).set i v).length = 4096 := by rw [List.length_set, hw]
  have hsame := padded_of_length hset
  unfold corruption
  by_cases hversion : i = versionOffset
  · have hfour : i = 4 := hversion
    have hbyte : (padded ((padded bytes).set i v)).getD 4 0 = v := by
      have hinside : i < (padded bytes).length := by omega
      rw [hsame, ← hfour]
      exact getD_set_self hinside
    have hwrong : v ≠ 1 := by
      rw [hfour] at hv
      rwa [h.readable.version] at hv
    have hviolation := Violation.version (Nat.le_of_eq hset) (by rwa [hbyte])
    rw [hbyte] at hviolation
    rwa [if_pos hversion]
  · rw [if_neg hversion]
    have hreadable : Readable ((padded bytes).set i v) := by
      refine ⟨Nat.le_of_eq hset, ?_⟩
      rw [hsame, getD_set_of_ne (show i ≠ 4 from hversion)]
      exact h.readable.version
    have hcloses := hplace.closes (by omega) h.closes
    have hends := hplace.place_eq (Nat.le_refl (n + 1))
    have hsum := checksum_take_set hbelow hw h.checksum_eq_zero hi hv
    rw [← hsame] at hcloses hends hsum
    have hviolation := Violation.checksum n _ hreadable hcloses
      ((isChecksum_take_iff (Nat.le_of_eq hset)).2 rfl) (by rwa [hends])
    rwa [hends, hsame] at hviolation

/-- Every table that the reader accepts is refused once one of its bytes is another, if its records still
stand where they did: every size is as it was, and no tag has become an end marker or been one. -/
theorem ofBytes_corrupted {bytes : List UInt8} {t : Table} (h : ofBytes bytes = .ok t)
    (hi : i < t.length) (hv : v ≠ t.window.getD i 0) (hplace : InPlace t.window t.placed.length i v) :
    ofBytes (t.window.set i v) = .error (corruption t.window t.length i v) ∧
      (corruption t.window t.length i v).isTableError = true := by
  obtain ⟨n, haccepted, rfl⟩ := accepted_of_ok h
  rw [length_placed_ofChain] at hplace
  exact ⟨ofBytes_of_violation (violation_of_inPlace haccepted hplace hi hv), isTableError_corruption _ _ _ _⟩

theorem ofBytes_corrupted_builtIn :
    ofBytes builtIn = .ok (ofChain (padded builtIn) 3) ∧
    InPlace (padded builtIn) 3 firstRecord 9 ∧
    ∃ error, ofBytes ((padded builtIn).set firstRecord 9) = .error error ∧ error.isTableError = true := by
  have hplace : InPlace (padded builtIn) 3 firstRecord 9 := by
    constructor <;> decide +kernel
  have hok := ofBytes_of_accepted accepted_builtIn
  have hinside : firstRecord < (ofChain (padded builtIn) 3).length := by decide +kernel
  have hother : (9 : UInt8) ≠ (padded builtIn).getD firstRecord 0 := by decide +kernel
  have hplaced := hplace
  rw [← length_placed_ofChain (padded builtIn) 3] at hplaced
  have hrefused := ofBytes_corrupted hok hinside hother hplaced
  exact ⟨hok, hplace, _, hrefused⟩

end FpgaCard.Table
