/-!
# Lists in pieces

A list cut into pieces of one size, the last one possibly shorter.
-/

namespace FpgaCard

/-- `items` cut into pieces of `size`. A size of zero gives no pieces. -/
def chunks {α : Type} (size : Nat) (items : List α) : List (List α) :=
  if _h : size = 0 ∨ items.length = 0 then []
  else items.take size :: chunks size (items.drop size)
termination_by items.length
decreasing_by
  simp only [List.length_drop]
  omega

theorem flatten_chunks {α : Type} {size : Nat} (h : size ≠ 0) (items : List α) :
    (chunks size items).flatten = items := by
  fun_induction chunks size items with
  | case1 items hc => simp_all
  | case2 items _ ih => simp [ih, List.take_append_drop]

end FpgaCard
