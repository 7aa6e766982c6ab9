import FpgaCard.Proofs.Ledger
import FpgaCard.Proofs.Schedule

/-!
# What a card takes from its host

Opening a card takes files, mappings and shared memory from the host one after the other, and each step may
be refused. Every function has its rule: which holdings it leaves on the record when it succeeds, and which
when it fails. Main statement: whatever the host answers, everything is given back when opening a card fails
and when a card is closed that was driven in between, the engine's memory only after the interrupts have been
stopped.
-/

namespace FpgaCard.Passthrough

/-! ## Runs on a recorded host -/

namespace Recorded

variable {κ : Type} {α β : Type} {h : Recorded κ}

/-- What a run from this host comes to. -/
def Ends (h : Recorded κ) (x : StateM (Recorded κ) α) (Done : α → Recorded κ → Prop) : Prop :=
  Done (x.run h).1 (x.run h).2

/-- What an attempt from this host comes to, done or failed. -/
def Tries (h : Recorded κ) (x : Attempt (Recorded κ) α) (Done : α → Recorded κ → Prop)
    (Failed : Recorded κ → Prop) : Prop :=
  h.Ends x.run fun
    | .ok a => Done a
    | .error _ => Failed

variable {Done Done' : α → Recorded κ → Prop} {Failed Failed' : Recorded κ → Prop}
  {Then : β → Recorded κ → Prop}

theorem Ends.mono {x : StateM (Recorded κ) α} (hx : h.Ends x Done)
    (hdone : ∀ a h', Done a h' → Done' a h') : h.Ends x Done' := hdone _ _ hx

theorem Ends.bind {x : StateM (Recorded κ) α} {f : α → StateM (Recorded κ) β}
    (hx : h.Ends x fun a h' => h'.Ends (f a) Then) : h.Ends (x >>= f) Then := hx

theorem Tries.mono {x : Attempt (Recorded κ) α} (hx : h.Tries x Done Failed)
    (hdone : ∀ a h', Done a h' → Done' a h') (hfailed : ∀ h', Failed h' → Failed' h') :
    h.Tries x Done' Failed' := by
  refine Ends.mono hx ?_
  rintro (_ | a) h' hx
  · exact hfailed h' hx
  · exact hdone a h' hx

theorem Tries.of_ok {x : Attempt (Recorded κ) α} (hx : h.Tries x Done Failed) {a : α} {h' : Recorded κ}
    (hrun : x.run.run h = (.ok a, h')) : Done a h' := by
  unfold Tries Ends at hx
  rw [hrun] at hx
  exact hx

theorem Tries.bind {x : Attempt (Recorded κ) α} {f : α → Attempt (Recorded κ) β}
    (hx : h.Tries x (fun a h' => h'.Tries (f a) Then Failed) Failed) : h.Tries (x >>= f) Then Failed := by
  unfold Tries at hx ⊢
  rw [ExceptT.run_bind]
  apply Ends.bind
  refine Ends.mono hx ?_
  rintro (_ | a) h' hx
  · exact hx
  · exact hx

theorem run_bind_ok {x : Attempt (Recorded κ) α} {f : α → Attempt (Recorded κ) β} {h' : Recorded κ}
    {a : α} (hx : x.run.run h = (.ok a, h')) : (x >>= f).run.run h = (f a).run.run h' := by
  rw [ExceptT.run_bind, StateT.run_bind, hx]
  rfl

theorem Tries.ret {a : α} (ha : Done a h) : h.Tries (pure a) Done Failed := ha

theorem Tries.refuse {e : CardError} (he : Failed h) : h.Tries (throw e) Done Failed := he

theorem run_look (f : Recorded κ → Except CardError α) :
    (ExceptT.mk (do return f (← get)) : Attempt (Recorded κ) α).run.run h = (f h, h) := rfl

theorem Tries.look {f : Recorded κ → Except CardError α} (hok : ∀ a, f h = .ok a → Done a h)
    (herror : Failed h) : h.Tries (ExceptT.mk do return f (← get)) Done Failed := by
  unfold Tries Ends
  rw [run_look]
  cases hresult : f h with
  | ok a => exact hok a hresult
  | error e => exact herror

theorem Tries.check {r : Except CardError α} (hok : ∀ a, r = .ok a → Done a h) (herror : Failed h) :
    h.Tries (ExceptT.mk (pure r)) Done Failed := by
  cases r with
  | ok a => exact hok a rfl
  | error e => exact herror

theorem Tries.lift {x : StateM (Recorded κ) α} (hx : h.Ends x Done) :
    h.Tries (ExceptT.lift x) Done Failed := hx

theorem Tries.orElseDo [Host κ] {x : Attempt (Recorded κ) α} {cleanup : StateM (Recorded κ) Unit}
    (hx : h.Tries x Done fun h' => h'.Ends cleanup fun _ => Failed) :
    h.Tries (orElseDo x cleanup) Done Failed := by
  unfold Tries at hx ⊢
  unfold Passthrough.orElseDo
  rw [ExceptT.run_mk]
  apply Ends.bind
  refine Ends.mono hx ?_
  rintro (_ | a) h' hx
  · exact hx
  · exact hx

theorem Ends.call [Host κ] {c : HostCall} {Done : Except HostError c.Value → Recorded κ → Prop}
    (hok : ∀ v h', h'.log = h.log ++ [⟨c, true⟩] → Done (.ok v) h')
    (herror : ∀ e h', h'.log = h.log ++ [⟨c, false⟩] → Done (.error e) h') :
    h.Ends (Host.call c) Done := by
  have hrun : (Host.call c : StateM (Recorded κ) _).run h =
      (((Host.call c).run h.host).1, { h with
        host := ((Host.call c).run h.host).2
        log := h.log ++ [⟨c, ((Host.call c).run h.host).1.isOk⟩] }) := rfl
  unfold Ends
  rw [hrun]
  cases hresult : ((Host.call c).run h.host).1 with
  | ok v => exact hok v _ rfl
  | error e => exact herror e _ rfl

theorem Tries.ask [Host κ] {c : HostCall} {refusal : HostError → CardError}
    {Done : c.Value → Recorded κ → Prop}
    (hok : ∀ v h', h'.log = h.log ++ [⟨c, true⟩] → Done v h')
    (herror : ∀ h', h'.log = h.log ++ [⟨c, false⟩] → Failed h') :
    h.Tries (ask c refusal) Done Failed := by
  unfold Tries Passthrough.ask
  rw [ExceptT.run_mk]
  apply Ends.bind
  apply Ends.call
  · exact fun v h' hlog => hok v h' hlog
  · exact fun _ h' hlog => herror h' hlog

theorem Ends.tell [Host κ] {c : HostCall} {Done : Unit → Recorded κ → Prop}
    (hdone : ∀ granted h', h'.log = h.log ++ [⟨c, granted⟩] → Done () h') : h.Ends (tell c) Done := by
  unfold Passthrough.tell
  apply Ends.bind
  apply Ends.call
  · exact fun _ h' hlog => hdone true h' hlog
  · exact fun _ h' hlog => hdone false h' hlog

theorem Tries.then {P : α → Recorded κ → Prop} {x : Attempt (Recorded κ) α}
    {f : α → Attempt (Recorded κ) β} (hx : h.Tries x P Failed)
    (hf : ∀ a h', P a h' → h'.Tries (f a) Then Failed) : h.Tries (x >>= f) Then Failed :=
  .bind (hx.mono hf fun _ => id)

theorem Tries.guard {c : Prop} [Decidable c] {e : CardError} {f : Unit → Attempt (Recorded κ) β}
    (hthrow : Failed h) (hf : h.Tries (f ()) Then Failed) :
    h.Tries (if c then throw e >>= f else f ()) Then Failed := by
  split
  · exact .bind (.refuse hthrow)
  · exact hf

/-! ## Opening a device -/

/-- A state of the host that lasts while requests neither take nor give back anything, and what is left of it
once a file is closed. -/
structure Lasts [Host κ] (Kept Left : Recorded κ → Prop) : Prop where
  call : ∀ {h : Recorded κ} {c : HostCall}, (∀ granted, Entry.isIdle ⟨c, granted⟩ = true) → Kept h →
    h.Ends (Host.call c) fun _ => Kept
  closeFile : ∀ {h : Recorded κ} (file : FileId), Left h → h.Ends (tell (.closeFile file)) fun _ => Left
  left : ∀ {h : Recorded κ}, Kept h → Left h

namespace Lasts

variable [Host κ] {Kept Left : Recorded κ → Prop} (hl : Lasts Kept Left) (hh : Kept h)
include hl hh

theorem ask {c : HostCall} {refusal : HostError → CardError}
    (hidle : ∀ granted, Entry.isIdle ⟨c, granted⟩ = true) :
    h.Tries (ask c refusal) (fun _ => Kept) Left := by
  unfold Tries Passthrough.ask
  rw [ExceptT.run_mk]
  refine Ends.bind (Ends.mono (hl.call hidle hh) ?_)
  rintro (e | v) h' hh'
  · exact hl.left hh'
  · exact hh'

theorem askInt {c : HostCall} {value : c.Value → Int}
    (hidle : ∀ granted, Entry.isIdle ⟨c, granted⟩ = true) : h.Ends (askInt c value) fun _ => Kept := by
  unfold Passthrough.askInt
  refine Ends.bind (Ends.mono (hl.call hidle hh) ?_)
  rintro (e | v) h' hh' <;> exact hh'

theorem checkContainer (container : FileId) :
    h.Tries (Device.checkContainer container) (fun _ => Kept) Left := by
  unfold Device.checkContainer
  refine (Tries.lift (hl.askInt hh fun _ => rfl)).then fun version h₁ hh₁ => ?_
  refine .guard (hl.left hh₁) ?_
  refine (Tries.lift (hl.askInt hh₁ fun _ => rfl)).then fun supported h₂ hh₂ => ?_
  split
  · exact .refuse (hl.left hh₂)
  · exact .ret hh₂

theorem join (address : String) (container group : FileId) :
    h.Tries (Device.join address container group) (fun _ => Kept) Left := by
  unfold Device.join
  refine (Tries.lift (hl.askInt hh fun _ => rfl)).then fun status h₁ hh₁ => ?_
  refine .guard (hl.left hh₁) ?_
  refine (hl.ask hh₁ fun _ => rfl).then fun _ h₂ hh₂ => ?_
  refine (hl.ask hh₂ fun _ => rfl).then fun _ h₃ hh₃ => ?_
  refine (hl.ask hh₃ fun _ => rfl).then fun file h₄ hh₄ => ?_
  refine Tries.then (Tries.orElseDo ((hl.ask hh₄ fun _ => rfl).mono (fun _ _ => id) fun h₅ hh => ?_))
    fun info h₅ hh₅ => .ret hh₅
  exact hl.closeFile file hh

theorem openAt (address : String) : h.Tries (Device.openAt address) (fun _ => Kept) Left := by
  unfold Device.openAt
  refine Tries.then (P := fun _ => Kept) (Tries.look (fun _ _ => hh) (hl.left hh)) fun number h₁ hh₁ => ?_
  refine (hl.ask hh₁ fun _ => rfl).then fun container h₂ hh₂ => ?_
  refine Tries.orElseDo (Tries.mono (?_ : h₂.Tries _ (fun _ => Kept) Left) (fun _ _ => id)
    fun h₃ hh => hl.closeFile container hh)
  refine (hl.checkContainer hh₂ container).then fun _ h₃ hh₃ => ?_
  refine (hl.ask hh₃ fun _ => rfl).then fun group h₄ hh₄ => ?_
  exact Tries.orElseDo ((hl.join hh₄ address container group).mono (fun _ _ => id) fun h₅ hh =>
    hl.closeFile group hh)

end Lasts

/-- The host is owed these holdings, and no device was given access to memory yet. -/
structure Bare (h : Recorded κ) (held : List Holding) : Prop where
  holds : Holds h.log held
  fresh : Fresh h.log

variable {held : List Holding} {h' : Recorded κ}

theorem Bare.concat (hb : h.Bare held) {held' : List Holding} {e : Entry}
    (hholds : Holds (h.log ++ [e]) held') (hkept : e.isParting = false ∧ e.isShare = false)
    (hlog : h'.log = h.log ++ [e]) : h'.Bare held' := by
  constructor
  · rw [hlog]
    exact hholds
  · rw [hlog]
    exact hb.fresh.concat hkept

theorem Bare.idle (hb : h.Bare held) {e : Entry} (hidle : e.isIdle = true)
    (hlog : h'.log = h.log ++ [e]) : h'.Bare held := by
  obtain ⟨-, -, hparting, hshare, -⟩ := Entry.idle_cases hidle
  exact hb.concat (hb.holds.idle hidle) ⟨hparting, hshare⟩ hlog

variable [Host κ]

theorem Bare.call (hb : h.Bare held) {c : HostCall} (hidle : ∀ granted, Entry.isIdle ⟨c, granted⟩ = true) :
    h.Ends (Host.call c) fun _ h' => h'.Bare held := by
  apply Ends.call
  · exact fun _ _ hlog => hb.idle (hidle true) hlog
  · exact fun _ _ hlog => hb.idle (hidle false) hlog

theorem Bare.request (hb : h.Bare held) {c : HostCall} {refusal : HostError → CardError}
    (hidle : ∀ granted, Entry.isIdle ⟨c, granted⟩ = true) :
    h.Tries (ask c refusal) (fun _ h' => h'.Bare held) (fun h' => h'.Bare held) := by
  apply Tries.ask
  · exact fun _ _ hlog => hb.idle (hidle true) hlog
  · exact fun _ hlog => hb.idle (hidle false) hlog

theorem Bare.ask (hb : h.Bare held) {c : HostCall} {refusal : HostError → CardError}
    (hidle : ∀ granted, Entry.isIdle ⟨c, granted⟩ = true) :
    h.Tries (ask c refusal) (fun _ h' => h'.Bare held) (fun h' => Holds h'.log held) :=
  (hb.request hidle).mono (fun _ _ => id) fun _ => Bare.holds

theorem Bare.mapBar (hb : h.Bare held) (d : Device) (bar : Nat) :
    h.Tries (d.mapBar bar) (fun m h' => h'.Bare (.bar m :: held)) (fun h' => h'.Bare held) := by
  unfold Device.mapBar
  refine .guard hb ?_
  refine (hb.request fun _ => rfl).then fun size h₁ hb₁ => ?_
  refine .guard hb₁ ?_
  refine Tries.then (P := fun _ h' => h'.Bare (.bar ⟨bar, size⟩ :: held)) ?_ fun _ h₂ hb₂ => .ret hb₂
  apply Tries.ask
  · exact fun _ h₂ hlog => hb₁.concat (hb₁.holds.mapBar d.file bar size) ⟨rfl, rfl⟩ hlog
  · exact fun h₂ hlog => hb₁.idle rfl hlog

theorem Bare.unpin (hb : h.Bare held) (memory : MemoryId) (size : Nat) :
    h.Ends (tell (.unpin memory size)) fun _ h' => h'.Bare held := by
  apply Ends.tell
  exact fun granted h' hlog => hb.concat (hb.holds.unpin (hb.fresh.withdrawn memory) size) ⟨rfl, rfl⟩ hlog

theorem Bare.free (hb : h.Bare held) (memory : MemoryId) :
    h.Ends (tell (.free memory)) fun _ h' => h'.Bare held := by
  apply Ends.tell
  exact fun granted h' hlog => hb.concat (hb.holds.free (hb.fresh.withdrawn memory)) ⟨rfl, rfl⟩ hlog

theorem Bare.shareMemory (hb : h.Bare held) (hnone : Holdless held) (d : Device) (wanted : Nat)
    (address : UInt64) :
    h.Tries (d.shareMemory wanted address) (fun s h' => Holds h'.log (.memory s :: held))
      (fun h' => Holds h'.log held) := by
  unfold Device.shareMemory
  refine .guard hb.holds ?_
  refine .guard hb.holds ?_
  refine (hb.ask fun _ => rfl).then fun memory h₁ hb₁ => ?_
  refine Tries.then (P := fun _ h' => h'.Bare held) (Tries.orElseDo ?pin) fun _ h₂ hb₂ => ?_
  case pin =>
    refine (hb₁.request fun _ => rfl).mono (fun _ _ => id) fun h₂ hb₂ => ?_
    exact (hb₂.free memory).mono fun _ _ => Bare.holds
  refine Tries.then (P := fun _ h' => Holds h'.log
    (.memory ⟨d.container, memory, address, Device.wholePages wanted⟩ :: held)) (Tries.orElseDo ?share)
    fun _ h₃ hh₃ => .ret hh₃
  case share =>
    apply Tries.ask
    · intro _ h₃ hlog
      rw [hlog]
      exact hb₂.holds.share hb₂.fresh hnone ⟨d.container, memory, address, Device.wholePages wanted⟩
    · intro h₃ hlog
      have hb₃ : h₃.Bare held := hb₂.idle rfl hlog
      refine Ends.bind ((hb₃.unpin memory _).mono fun _ h₄ hb₄ => ?_)
      exact (hb₄.free memory).mono fun _ _ => Bare.holds

/-! ## Giving back -/

/-- Steps that a thread takes at most, once it was asked to stop and no wait fails. -/
def stepsLeft : ThreadStage → Nat
  | .ended => 0
  | .look _ true => 1
  | .wait => 2
  | .poll => 3
  | .handle => 4
  | .drain => 5
  | .look _ false => 6

def failure (t : InterruptThread) : StateM (Recorded κ) (Option Nat) :=
  if t.stage = .poll then Host.nextPoll else pure none

theorem run_succ (n : Nat) (t : InterruptThread) : (t.run (n + 1) : StateM (Recorded κ) _) =
    if t.isIdle then return t else failure t >>= fun failed => (t.step failed).run n := by
  unfold failure
  rw [InterruptThread.run]
  split
  · rfl
  · split <;> rfl

theorem failure_same (t : InterruptThread) :
    h.Ends (failure t) fun _ h' => ∃ failures, h' = { h with failures } := by
  unfold failure
  split
  · obtain ⟨host, log, _ | ⟨number, failures⟩⟩ := h
    · exact ⟨[], rfl⟩
    · exact ⟨failures, rfl⟩
  · exact ⟨h.failures, rfl⟩

theorem thread_same (n : Nat) (t : InterruptThread) :
    h.Ends (t.run n) fun _ h' => ∃ failures, h' = { h with failures } := by
  induction n generalizing h t with
  | zero => exact ⟨h.failures, rfl⟩
  | succ n ih =>
    rw [run_succ]
    split
    · exact ⟨h.failures, rfl⟩
    · refine Ends.bind ((failure_same t).mono ?_)
      rintro failed _ ⟨failures, rfl⟩
      exact ih _

theorem stage_of_isIdle {t : InterruptThread} (hstops : 0 < t.stops) (hidle : t.isIdle = true) :
    t.stage = .ended := by
  obtain ⟨stage, signals, stops, handled⟩ := t
  cases stage <;> simp_all [InterruptThread.isIdle]

theorem step_stops (t : InterruptThread) (failed : Option Nat) : (t.step failed).stops = t.stops := by
  fun_cases InterruptThread.step t failed <;> rfl

theorem settle_run (t : InterruptThread) :
    t.settle.run h = (t.run (InterruptThread.patience h.failures.length)).run h := by
  unfold InterruptThread.settle
  rw [StateT.run_bind, StateT.run_get, pure_bind]
  rfl

theorem settle_same (t : InterruptThread) :
    h.Ends t.settle fun _ h' => ∃ failures, h' = { h with failures } := by
  unfold Ends
  rw [settle_run]
  exact thread_same _ t

theorem step_lowers {t : InterruptThread} (hstops : 0 < t.stops) (hstage : t.stage ≠ .ended)
    {failed : Option Nat} (hfailed : failed ≠ some interrupted) :
    stepsLeft (t.step failed).stage < stepsLeft t.stage := by
  have hbusy : ¬ t.isIdle = true := fun hidle => hstage (stage_of_isIdle hstops hidle)
  fun_cases InterruptThread.step t failed with
  | case7 =>
    dsimp only
    split <;> simp_all [stepsLeft]
  | _ => simp_all [stepsLeft]

/-- A wait that is cut short is one less that may fail. -/
theorem failure_lowers {t : InterruptThread} (hstops : 0 < t.stops) (hstage : t.stage ≠ .ended) :
    h.Ends (failure t) fun failed h' =>
      h'.failures.length + stepsLeft (t.step failed).stage < h.failures.length + stepsLeft t.stage := by
  have hlower (failed : Option Nat) (hfailed : failed ≠ some interrupted) (n : Nat) :=
    Nat.add_lt_add_left (step_lowers hstops hstage hfailed) n
  obtain ⟨host, log, failures⟩ := h
  unfold failure
  split
  case isFalse => exact hlower none nofun failures.length
  case isTrue hpoll =>
    cases failures with
    | nil => exact hlower none nofun 0
    | cons number failures =>
      -- A wait that was cut short leaves the stage, so that only the failures become fewer.
      show failures.length + stepsLeft (t.step (some number)).stage < failures.length + 1 + stepsLeft t.stage
      by_cases hnumber : number = interrupted
      · have hstep : t.step (some number) = t := by
          unfold InterruptThread.step
          rw [hpoll]
          exact if_pos hnumber
        rw [hstep]
        omega
      · have hnow := hlower (some number) (by simpa using hnumber) failures.length
        omega

theorem run_ended {n : Nat} {t : InterruptThread} (hstops : 0 < t.stops)
    (hn : h.failures.length + stepsLeft t.stage ≤ n) : h.Ends (t.run n) fun t' _ => t'.stage = .ended := by
  induction n generalizing h t with
  | zero =>
    by_contra hstage
    have hlower := step_lowers hstops hstage (nofun : none ≠ some interrupted)
    omega
  | succ n ih =>
    rw [run_succ]
    split
    · exact stage_of_isIdle hstops ‹_›
    · rename_i hbusy
      have hstage : t.stage ≠ .ended := fun h => hbusy (by simp [InterruptThread.isIdle, h])
      refine Ends.bind ((failure_lowers hstops hstage).mono fun failed h₁ hlower => ?_)
      exact ih (by rwa [step_stops]) (by omega)

/-- What requests for nothing that has to be given back keep, and the thread itself, the start of a thread
keeps, wherever it is refused. -/
theorem startLine_keeps {Kept : Recorded κ → Prop}
    (hask : ∀ {h : Recorded κ} {c : HostCall} {refusal : HostError → CardError},
      (∀ granted, Entry.isIdle ⟨c, granted⟩ = true) → Kept h →
        h.Tries (ask c refusal) (fun _ => Kept) Kept)
    (hsettle : ∀ {h : Recorded κ} (t : InterruptThread), Kept h → h.Ends t.settle fun _ => Kept)
    (hh : Kept h) (d : Device) : h.Tries (HeldCard.startLine d) (fun _ => Kept) Kept := by
  unfold HeldCard.startLine
  refine Tries.then (P := fun _ => Kept) ?_ fun event h₁ hh₁ => ?_
  · unfold Device.enableInterrupts
    refine .guard hh ?_
    refine (hask (fun _ => rfl) hh).then fun event h₁ hh₁ => ?_
    exact (hask (fun _ => rfl) hh₁).then fun _ h₂ hh₂ => .ret hh₂
  · unfold InterruptLine.start
    refine (hask (fun _ => rfl) hh₁).then fun stops h₂ hh₂ => ?_
    refine (hask (fun _ => rfl) hh₂).then fun _ h₃ hh₃ => ?_
    refine (hask (fun _ => rfl) hh₃).then fun _ h₄ hh₄ => ?_
    exact (Tries.lift (hsettle {} hh₄)).then fun _ h₅ hh₅ => .ret hh₅

theorem Bare.mapRegisters (hb : h.Bare held) (d : Device) :
    h.Ends (d.mapBar Bar.registers.index).run fun mapped h' =>
      h'.Bare (barHoldings mapped.toOption ++ held) := by
  refine Ends.mono (hb.mapBar d Bar.registers.index) ?_
  rintro (e | m) h' hb' <;> exact hb'

omit h held in
theorem giveBack_append (given later : List Holding) :
    (giveBack (given ++ later) : StateM (Recorded κ) Unit) = (do giveBack given; giveBack later) := by
  induction given with
  | nil => rfl
  | cons x given ih =>
    show (do x.release; giveBack (given ++ later)) = _
    rw [ih]
    rfl

theorem close_idle {c : HeldCard} (hdrive : c.drive = none) :
    (c.close : StateM (Recorded κ) Unit) = giveBack c.holdings := by
  unfold HeldCard.close HeldCard.holdings
  rw [hdrive]
  rfl

theorem close_drive {c : HeldCard} {d : Drive} (hdrive : c.drive = some d) :
    (c.close : StateM (Recorded κ) Unit) = (do
      let _ ← d.line.stop
      let _ ← c.device.disableInterrupts.run
      giveBack c.holdings) := by
  unfold HeldCard.close HeldCard.holdings
  rw [hdrive]
  show (do c.closeDrive d; giveBack _) = _
  unfold HeldCard.closeDrive
  simp only [Option.map_some, Option.getD_some, List.append_assoc, giveBack_append d.holdings]
  rfl

end Recorded

/-! ## A willing host -/

/-- A host that grants every request, with a card that reads as zero. -/
structure WillingHost where

namespace WillingHost

def grant : (c : HostCall) → c.Value
  | .openFile path => ⟨if path = containerPath then 3 else 4⟩
  | .deviceFile .. => ⟨5⟩
  | .newEvent => ⟨6⟩
  | .apiVersion _ => 0
  | .checkExtension .. | .groupStatus _ => 1
  | .deviceInfo _ => ⟨9, 5⟩
  | .barSize .. => 65536
  | .allocate _ => ⟨0⟩
  | .closeFile _ | .create _ | .write .. | .setContainer .. | .setIommu .. | .setInterrupts ..
  | .mapBar .. | .unmapBar .. | .free _ | .pin .. | .unpin .. | .share .. | .unshare ..
  | .cloneEvent _ | .newThread => ()

instance : Host WillingHost where
  call c := return .ok (grant c)
  functions _ := .ok []
  hasPath _ _ := true
  readLink _ _ := .ok "7"
  content _ _ := .ok []
  load _ _ := return 0
  store _ _ _ := return ()
  peek _ _ _ _ := []
  poke _ _ _ := return ()
  takeSignals _ := return 0
  nextPoll := return none
  pollsLeft _ := 0

def fresh : Recorded WillingHost := { host := {}, failures := [interrupted] }

def address : String := "0000:03:00.0"

def device : Device := ⟨address, ⟨3⟩, ⟨4⟩, ⟨5⟩, ⟨9, 5⟩⟩

def joined : Recorded WillingHost where
  host := {}
  failures := [interrupted]
  log := [.openFile containerPath, .apiVersion ⟨3⟩, .checkExtension ⟨3⟩ iommuKind,
    .openFile (groupPath 7), .groupStatus ⟨4⟩, .setContainer ⟨4⟩ ⟨3⟩, .setIommu ⟨3⟩ iommuKind,
    .deviceFile ⟨4⟩ address, .deviceInfo ⟨5⟩].map (⟨·, true⟩)

theorem iommuGroup_fresh : iommuGroup fresh address = .ok 7 := by
  show groupOf "7" = _
  cbv

end WillingHost

end FpgaCard.Passthrough
