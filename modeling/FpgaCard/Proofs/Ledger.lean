import FpgaCard.Passthrough.Card
import Mathlib

/-!
# Requests on record

A host whose requests are written down with their outcome, and what the record has to look like for
everything that was taken from the host to be given back. Main statement: a record in which each resource
is held that was taken and not given back stays in order as long as what is given back is held.
-/

namespace FpgaCard.Passthrough

/-! ## The record -/

structure Entry where
  call : HostCall
  granted : Bool
  deriving DecidableEq

/-- A host with a record of its requests, oldest first. How its waits for events fail is known from the
start. -/
structure Recorded (κ : Type) where
  host : κ
  log : List Entry := []
  failures : List Nat := []

namespace Recorded

variable {κ : Type}

def within {α : Type} (x : StateM κ α) : StateM (Recorded κ) α := fun h =>
  let (a, host) := x.run h.host
  (a, { h with host })

def nextFailure : StateM (Recorded κ) (Option Nat) := fun h =>
  match h.failures with
  | [] => (none, h)
  | number :: failures => (some number, { h with failures })

instance [Host κ] : Host (Recorded κ) where
  call c h :=
    let (result, host) := (Host.call c).run h.host
    (result, { h with host, log := h.log ++ [⟨c, result.isOk⟩] })
  functions h := Host.functions h.host
  hasPath h := Host.hasPath h.host
  readLink h := Host.readLink h.host
  content h := Host.content h.host
  load bar offset := within (Host.load bar offset)
  store bar offset value := within (Host.store bar offset value)
  peek h := Host.peek h.host
  poke memory offset bytes := within (Host.poke memory offset bytes)
  takeSignals event := within (Host.takeSignals event)
  nextPoll := nextFailure
  pollsLeft h := h.failures.length

end Recorded

/-! ## What is taken and given back -/

/-- What a host can be asked for and has to be given back: a mapping of a register space, or a span of
addresses at which a device can reach memory. -/
inductive Resource where
  | bar (bar size : Nat)
  | span (container : FileId) (address : UInt64) (size : Nat)
  deriving DecidableEq

namespace Entry

def taken? : Entry → Option Resource
  | ⟨.mapBar _ bar size, true⟩ => some (.bar bar size)
  | ⟨.share container _ address size, true⟩ => some (.span container address size)
  | _ => none

/-- What a request gives back. It counts as given back even if the host refuses to take it. -/
def returned? : Entry → Option Resource
  | ⟨.unmapBar bar size, _⟩ => some (.bar bar size)
  | ⟨.unshare container address size, _⟩ => some (.span container address size)
  | _ => none

end Entry

def taken (log : List Entry) (r : Resource) : Nat := log.countP fun e => e.taken? = some r

def returned (log : List Entry) (r : Resource) : Nat := log.countP fun e => e.returned? = some r

/-- Whether the time for a request has come, after the record. What is given back is still held, and the
container of a span is still open. Pages are unlocked and freed only if no device was ever given access to
them, or once the host has confirmed that it was taken away. -/
def Entry.Due (log : List Entry) (e : Entry) : Prop :=
  (∀ r, e.returned? = some r → returned log r < taken log r) ∧
  match e.call with
  | .unshare container _ _ => ∀ granted, ⟨.closeFile container, granted⟩ ∉ log
  | .unpin memory _ | .free memory => ∀ container address size,
      ⟨.share container memory address size, true⟩ ∈ log →
        ⟨.unshare container address size, true⟩ ∈ log
  | _ => True

def InOrder (log : List Entry) : Prop := ∀ before e, before ++ [e] <+: log → e.Due before

structure Settled (log : List Entry) : Prop where
  order : InOrder log
  even : ∀ r, taken log r = returned log r

theorem InOrder.concat {log : List Entry} {e : Entry} (h : InOrder log) (he : e.Due log) :
    InOrder (log ++ [e]) := by
  intro before e' hprefix
  obtain heq | hbefore := List.prefix_concat_iff.1 hprefix
  · obtain ⟨rfl, hlast⟩ := List.append_inj' heq rfl
    cases hlast
    exact he
  · exact h before e' hbefore

theorem taken_concat (log : List Entry) (e : Entry) (r : Resource) :
    taken (log ++ [e]) r = taken log r + if e.taken? = some r then 1 else 0 := by
  simp [taken, List.countP_append, List.countP_singleton]

theorem returned_concat (log : List Entry) (e : Entry) (r : Resource) :
    returned (log ++ [e]) r = returned log r + if e.returned? = some r then 1 else 0 := by
  simp [returned, List.countP_append, List.countP_singleton]

/-! ## What is held -/

namespace Entry

/-- Whether a request takes away what shared memory stands on: its own span, or a file. -/
def isParting : Entry → Bool
  | ⟨.closeFile _, _⟩ => true
  | ⟨.unshare .., _⟩ => true
  | _ => false

def isShare : Entry → Bool
  | ⟨.share .., true⟩ => true
  | _ => false

/-- Whether a request neither takes anything that has to be given back nor gives it back. -/
def isIdle : Entry → Bool
  | ⟨.mapBar .., granted⟩ => !granted
  | ⟨.share .., granted⟩ => !granted
  | ⟨.unmapBar .., _⟩ | ⟨.unshare .., _⟩ | ⟨.unpin .., _⟩ | ⟨.free _, _⟩ | ⟨.closeFile _, _⟩ => false
  | _ => true

theorem idle_cases {e : Entry} (h : e.isIdle = true) : e.taken? = none ∧ e.returned? = none ∧
    e.isParting = false ∧ e.isShare = false ∧ ∀ log, e.Due log := by
  obtain ⟨call, granted⟩ := e
  cases call <;> cases granted <;> simp_all [isIdle, taken?, returned?, isParting, isShare, Due]

end Entry

def Fresh (log : List Entry) : Prop := ∀ e ∈ log, e.isParting = false ∧ e.isShare = false

/-- The record of an open card: nothing was closed, and the device has access to this memory alone. -/
structure Entrusted (log : List Entry) (s : SharedMemory) : Prop where
  stays : ∀ e ∈ log, e.isParting = false
  alone : ∀ container memory address size,
    ⟨.share container memory address size, true⟩ ∈ log → s = ⟨container, memory, address, size⟩

def Holding.resource? : Holding → Option Resource
  | .bar m => some (.bar m.bar m.size)
  | .memory s => some (.span s.container s.address s.size)
  | .device _ => none

def Drive.holdings (d : Drive) : List Holding := [.bar d.control, .memory d.buffer]

/-- What an open card has from its host, in the order in which it is given back. -/
def HeldCard.holdings (c : HeldCard) : List Holding :=
  ((c.drive.map (·.holdings)).getD [] ++ barHoldings c.registers) ++ [.device c.device]

/-- The record is in order, and these are the holdings that were taken and not given back. -/
structure Holds (log : List Entry) (held : List Holding) : Prop where
  order : InOrder log
  balance : ∀ r, taken log r = returned log r + held.countP (·.resource? = some r)
  entrusted : ∀ s, .memory s ∈ held → Entrusted log s

def Withdrawn (log : List Entry) (memory : MemoryId) : Prop :=
  ∀ container address size, ⟨.share container memory address size, true⟩ ∈ log →
    ⟨.unshare container address size, true⟩ ∈ log

def Holdless (held : List Holding) : Prop := ∀ s, .memory s ∉ held

/-- Whether holdings can be given back one after the other: no memory is left when other memory or a
device is given back. -/
def Orderly : List Holding → Prop
  | [] => True
  | .bar _ :: held => Orderly held
  | .memory _ :: held | .device _ :: held => Holdless held ∧ Orderly held

variable {log : List Entry} {held held' : List Holding} {e : Entry} {granted : Bool}

@[simp]
theorem holdless_bar {m : Mapping} : Holdless (.bar m :: held) ↔ Holdless held := by simp [Holdless]

@[simp]
theorem holdless_device {d : Device} : Holdless (.device d :: held) ↔ Holdless held := by simp [Holdless]

@[simp]
theorem holdless_bars {registers : Option Mapping} :
    Holdless (barHoldings registers ++ held) ↔ Holdless held := by
  cases registers <;> simp [barHoldings]

@[simp]
theorem orderly_bars {registers : Option Mapping} :
    Orderly (barHoldings registers ++ held) ↔ Orderly held := by
  cases registers <;> simp [barHoldings, Orderly]

theorem Orderly.tail {x : Holding} (h : Orderly (x :: held)) : Orderly held := by
  cases x with
  | bar m => exact h
  | memory s => exact h.2
  | device d => exact h.2

theorem Withdrawn.concat {memory : MemoryId} (h : Withdrawn log memory) (hshare : e.isShare = false) :
    Withdrawn (log ++ [e]) memory := by
  intro container address size hmem
  obtain hold | hnew := List.mem_append.1 hmem
  · exact List.mem_append_left _ (h container address size hold)
  · rw [← List.mem_singleton.1 hnew] at hshare
    cases hshare

theorem Fresh.concat (h : Fresh log) (hidle : e.isParting = false ∧ e.isShare = false) :
    Fresh (log ++ [e]) := by
  intro e' hmem
  obtain hold | hnew := List.mem_append.1 hmem
  · exact h e' hold
  · rw [List.mem_singleton.1 hnew]
    exact hidle

theorem Fresh.unshared (h : Fresh log) (container : FileId) (memory : MemoryId) (address : UInt64)
    (size : Nat) : ⟨.share container memory address size, true⟩ ∉ log := by
  intro hmem
  have hshare := (h _ hmem).2
  cases hshare

theorem Fresh.withdrawn (h : Fresh log) (memory : MemoryId) : Withdrawn log memory :=
  fun container address size hmem => absurd hmem (h.unshared container memory address size)

theorem Entrusted.concat {s : SharedMemory} (h : Entrusted log s) (hparting : e.isParting = false)
    (hshare : e.isShare = false) : Entrusted (log ++ [e]) s := by
  constructor
  · intro e' hmem
    obtain hold | hnew := List.mem_append.1 hmem
    · exact h.stays e' hold
    · rw [List.mem_singleton.1 hnew, hparting]
  · intro container memory address size hmem
    obtain hold | hnew := List.mem_append.1 hmem
    · exact h.alone container memory address size hold
    · rw [← List.mem_singleton.1 hnew] at hshare
      cases hshare

/-- Once the host has confirmed it, nothing has access to the memory any more. -/
theorem Entrusted.withdrawn {s : SharedMemory} (h : Entrusted log s) :
    Withdrawn (log ++ [⟨.unshare s.container s.address s.size, true⟩]) s.memory := by
  obtain ⟨container', memory, address', size'⟩ := s
  intro container address size hmem
  obtain hold | hnew := List.mem_append.1 hmem
  · cases h.alone container memory address size hold
    exact List.mem_append_right _ (List.mem_singleton.2 rfl)
  · cases List.mem_singleton.1 hnew

theorem Fresh.entrust {s : SharedMemory} (h : Fresh log) :
    Entrusted (log ++ [⟨.share s.container s.memory s.address s.size, true⟩]) s := by
  constructor
  · intro e hmem
    obtain hold | hnew := List.mem_append.1 hmem
    · exact (h e hold).1
    · rw [List.mem_singleton.1 hnew]
      rfl
  · intro container memory address size hmem
    obtain hold | hnew := List.mem_append.1 hmem
    · exact absurd hold (h.unshared container memory address size)
    · cases List.mem_singleton.1 hnew
      rfl

namespace Holds

theorem nil : Holds [] [] := by
  constructor
  case order =>
    intro before e hprefix
    simp at hprefix
  case balance => exact fun _ => rfl
  case entrusted => simp

theorem perm (h : Holds log held) (hperm : held.Perm held') : Holds log held' := by
  constructor
  case order => exact h.order
  case balance =>
    intro r
    rw [← hperm.countP_eq]
    exact h.balance r
  case entrusted => exact fun s hmem => h.entrusted s (hperm.mem_iff.2 hmem)

theorem settled (h : Holds log []) : Settled log := ⟨h.order, h.balance⟩

theorem enter (h : Holds log held) (hdue : e.Due log)
    (hbalance : ∀ r, (if e.taken? = some r then 1 else 0) + held.countP (·.resource? = some r) =
      (if e.returned? = some r then 1 else 0) + held'.countP (·.resource? = some r))
    (hentrusted : ∀ s, .memory s ∈ held' → Entrusted (log ++ [e]) s) : Holds (log ++ [e]) held' := by
  constructor
  case order => exact h.order.concat hdue
  case balance =>
    intro r
    have hbefore := h.balance r
    have hnow := hbalance r
    rw [taken_concat, returned_concat]
    omega
  case entrusted => exact hentrusted

theorem idle (h : Holds log held) (hidle : e.isIdle = true) : Holds (log ++ [e]) held := by
  obtain ⟨htaken, hreturned, hparting, hshare, hdue⟩ := Entry.idle_cases hidle
  apply h.enter (hdue log)
  · intro r
    rw [htaken, hreturned]
  · exact fun s hmem => (h.entrusted s hmem).concat hparting hshare

theorem mapBar (h : Holds log held) (device : FileId) (bar size : Nat) :
    Holds (log ++ [⟨.mapBar device bar size, true⟩]) (.bar ⟨bar, size⟩ :: held) := by
  apply h.enter
  · simp [Entry.Due, Entry.returned?]
  · intro r
    rw [List.countP_cons]
    simp [Entry.taken?, Entry.returned?, Holding.resource?, Nat.add_comm]
  · intro s hmem
    simp only [List.mem_cons, reduceCtorEq, false_or] at hmem
    exact (h.entrusted s hmem).concat rfl rfl

theorem returned_lt {x : Holding} (h : Holds log (x :: held)) {r : Resource} (hx : x.resource? = some r) :
    returned log r < taken log r := by
  have hbalance := h.balance r
  rw [List.countP_cons_of_pos (by simpa using hx)] at hbalance
  omega

theorem unmapBar {m : Mapping} (h : Holds log (.bar m :: held)) :
    Holds (log ++ [⟨.unmapBar m.bar m.size, granted⟩]) held := by
  apply h.enter
  · refine ⟨?_, trivial⟩
    rintro r ⟨⟩
    exact h.returned_lt rfl
  · intro r
    rw [List.countP_cons]
    simp [Entry.taken?, Entry.returned?, Holding.resource?, Nat.add_comm]
  · exact fun s hmem => (h.entrusted s (List.mem_cons_of_mem _ hmem)).concat rfl rfl

theorem share (h : Holds log held) (hfresh : Fresh log) (hnone : Holdless held) (s : SharedMemory) :
    Holds (log ++ [⟨.share s.container s.memory s.address s.size, true⟩]) (.memory s :: held) := by
  apply h.enter
  · simp [Entry.Due, Entry.returned?]
  · intro r
    rw [List.countP_cons]
    simp [Entry.taken?, Entry.returned?, Holding.resource?, Nat.add_comm]
  · intro s' hmem
    obtain heq | hold := List.mem_cons.1 hmem
    · cases heq
      exact hfresh.entrust
    · exact absurd hold (hnone s')

theorem unshare {s : SharedMemory} (h : Holds log (.memory s :: held)) (hnone : Holdless held) :
    Holds (log ++ [⟨.unshare s.container s.address s.size, granted⟩]) held := by
  have hentrusted := h.entrusted s List.mem_cons_self
  apply h.enter
  · constructor
    · rintro r ⟨⟩
      exact h.returned_lt rfl
    · intro granted hclosed
      have hstays := hentrusted.stays _ hclosed
      cases hstays
  · intro r
    rw [List.countP_cons]
    simp [Entry.taken?, Entry.returned?, Holding.resource?, Nat.add_comm]
  · exact fun s' hmem => absurd hmem (hnone s')

theorem closeFile (h : Holds log held) (hnone : Holdless held) (file : FileId) :
    Holds (log ++ [⟨.closeFile file, granted⟩]) held := by
  apply h.enter
  · simp [Entry.Due, Entry.returned?]
  · simp [Entry.taken?, Entry.returned?]
  · exact fun s hmem => absurd hmem (hnone s)

theorem unpin (h : Holds log held) {memory : MemoryId} (hfree : Withdrawn log memory) (size : Nat) :
    Holds (log ++ [⟨.unpin memory size, granted⟩]) held := by
  apply h.enter
  · exact ⟨nofun, hfree⟩
  · simp [Entry.taken?, Entry.returned?]
  · exact fun s hmem => (h.entrusted s hmem).concat rfl rfl

theorem free (h : Holds log held) {memory : MemoryId} (hfree : Withdrawn log memory) :
    Holds (log ++ [⟨.free memory, granted⟩]) held := by
  apply h.enter
  · exact ⟨nofun, hfree⟩
  · simp [Entry.taken?, Entry.returned?]
  · exact fun s hmem => (h.entrusted s hmem).concat rfl rfl

end Holds

end FpgaCard.Passthrough
