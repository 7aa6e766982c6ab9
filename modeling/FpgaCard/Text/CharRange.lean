/-!
# Ranges of characters

A set of characters as a table of ranges of code points, the lowest first.
-/

namespace FpgaCard.Text

/-- Whether a character lies in one of the ranges. Both ends of a range belong to it. -/
def inRanges (ranges : List (Nat × Nat)) (c : Char) : Bool :=
  ranges.any fun (low, high) => low ≤ c.toNat && c.toNat ≤ high

theorem inRanges_of_mem {ranges : List (Nat × Nat)} {low high : Nat} {c : Char}
    (h : (low, high) ∈ ranges) (hl : low ≤ c.toNat) (hh : c.toNat ≤ high) :
    inRanges ranges c = true :=
  List.any_eq_true.2 ⟨(low, high), h, by simp [hl, hh]⟩

end FpgaCard.Text
