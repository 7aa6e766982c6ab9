import FpgaCard.CardError

/-!
# Completions

The signal between the interrupt and a waiting transfer. Completions are counted; a pending kill
outlives a restart of the count and is taken by the next wait before any completion.

The second half is a room of waiters as a condition variable keeps it: some are blocked, some were
woken and have yet to look at the signal.
-/

namespace FpgaCard

inductive WaitResult where
  | completed
  | killed
  deriving DecidableEq, Repr, Inhabited

def WaitResult.toExcept : WaitResult → Except CardError Unit
  | .completed => .ok ()
  | .killed => .error .transferKilled

/-- Completions that nobody waited for yet, and a pending kill. -/
structure Completion where
  done : Nat := 0
  killed : Bool := false
  deriving DecidableEq, Repr, Inhabited

namespace Completion

def doneMax : Nat := UInt32.size - 1

def complete (c : Completion) : Completion := { c with done := min (c.done + 1) doneMax }

/-- Ends the current wait, or the next one. -/
def kill (c : Completion) : Completion := { c with killed := true }

/-- Forgets completions; a pending kill stays. -/
def restart (c : Completion) : Completion := { c with done := 0 }

/-- What a wait finds: its result and the signal after it, or nothing to go on with. -/
def poll (c : Completion) : Option (WaitResult × Completion) :=
  if c.killed then some (.killed, { c with killed := false })
  else if 0 < c.done then some (.completed, { c with done := c.done - 1 })
  else none

def isDone (c : Completion) : Bool := 0 < c.done

theorem poll_cases (c : Completion) :
    (c.killed = true ∧ c.poll = some (.killed, { c with killed := false })) ∨
    (c.killed = false ∧ 0 < c.done ∧ c.poll = some (.completed, { c with done := c.done - 1 })) ∨
    (c.killed = false ∧ c.done = 0 ∧ c.poll = none) := by
  unfold poll
  cases hkilled : c.killed with
  | true => exact .inl ⟨rfl, rfl⟩
  | false =>
    right
    rcases Nat.eq_zero_or_pos c.done with hdone | hdone
    · exact .inr ⟨rfl, hdone, by simp [hdone]⟩
    · exact .inl ⟨rfl, hdone, by simp [hdone]⟩

end Completion

/-! ## Waiters -/

/-- A completion with the waits that have not ended. -/
structure WaitRoom where
  completion : Completion := {}
  /-- Waiters that sleep. -/
  blocked : Nat := 0
  /-- Waiters that were woken and will look at the signal. -/
  woken : Nat := 0
  deriving DecidableEq, Repr, Inhabited

inductive WaitEvent where
  /-- A completion, which wakes one sleeper. -/
  | complete
  /-- A kill, which wakes all. -/
  | kill
  | restart
  | wait
  | look
  /-- A sleeper wakes without a cause. -/
  | stir
  deriving DecidableEq, Repr, Inhabited

namespace WaitRoom

/-- A waiter looks at the signal and sleeps if there is none. -/
def look (r : WaitRoom) : Option WaitResult × WaitRoom :=
  match r.completion.poll with
  | some (result, completion) => (some result, { r with completion })
  | none => (none, { r with blocked := r.blocked + 1 })

def step (r : WaitRoom) : WaitEvent → Option WaitResult × WaitRoom
  | .complete =>
    (none, { completion := r.completion.complete, blocked := r.blocked - 1,
             woken := r.woken + min r.blocked 1 })
  | .kill =>
    (none, { completion := r.completion.kill, blocked := 0, woken := r.woken + r.blocked })
  | .restart => (none, { r with completion := r.completion.restart })
  | .wait => r.look
  | .look => if 0 < r.woken then { r with woken := r.woken - 1 }.look else (none, r)
  | .stir =>
    (none, { r with blocked := r.blocked - 1, woken := r.woken + min r.blocked 1 })

/-- Lets woken waiters look until none is left, `n` of them at most. Gives the results in order. -/
def settle : Nat → WaitRoom → List WaitResult × WaitRoom
  | 0, r => ([], r)
  | n + 1, r =>
    let (result, r) := r.step .look
    let (results, r) := settle n r
    (result.toList ++ results, r)

/-- One event and everything that follows from it at once. -/
def run (r : WaitRoom) (event : WaitEvent) : Option WaitResult × List WaitResult × WaitRoom :=
  let (result, r) := r.step event
  let (released, r) := settle r.woken r
  (result, released, r)

end WaitRoom

end FpgaCard
