/-!
# Progress of an operation

An operation that may have to wait is a value that is taken further step by step. A step leaves it
going, waiting for something from outside, or finished with a result.
-/

namespace FpgaCard

/-- Where a step leaves an operation. -/
inductive Progress (α β : Type) where
  | going (operation : α)
  | waiting (operation : α)
  | finished (result : β)
  deriving DecidableEq, Repr, Inhabited

namespace Progress

/-- The progress of an operation that contains this one. -/
def lift {α β γ δ : Type} (f : α → γ) (g : β → Progress γ δ) : Progress α β → Progress γ δ
  | .going operation => .going (f operation)
  | .waiting operation => .waiting (f operation)
  | .finished result => g result

end Progress

end FpgaCard
