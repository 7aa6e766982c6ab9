import FpgaCard.Proofs.Custody

/-!
# Accesses of mapped register spaces

A mapped register space is accessed by a pointer into it, which only its offset keeps inside. Main statement:
whatever the host answers and however a card is used, every access is one of an aligned word inside a space
that is mapped at the time, from the attempt to open the card until it has been closed.
-/

namespace FpgaCard.Passthrough

/-! ## Accesses on record -/

/-- A load or a store, with the size of the mapping through which it went. -/
structure Access where
  bar : Nat
  offset : Nat
  mapped : Option Nat
  deriving DecidableEq

def Access.Inside (a : Access) : Prop :=
  a.offset % 4 = 0 ∧ a.offset + 4 < UInt64.size ∧
    ∃ size, a.mapped = some size ∧ (Mapping.mk a.bar size).holds a.offset = true

/-- A host with the sizes of the register spaces that are mapped, and the accesses so far, oldest first. -/
structure Watched (κ : Type) where
  host : κ
  mapped : Nat → Option Nat := fun _ => none
  accesses : List Access := []

namespace Watched

variable {κ : Type} {α : Type}

def within (x : StateM κ α) : StateM (Watched κ) α := fun w =>
  let (a, host) := x.run w.host
  (a, { w with host })

def access (bar offset : Nat) (x : StateM κ α) : StateM (Watched κ) α := fun w =>
  let (a, host) := x.run w.host
  (a, { w with host, accesses := w.accesses ++ [⟨bar, offset, w.mapped bar⟩] })

def remapped (mapped : Nat → Option Nat) : HostCall → Bool → Nat → Option Nat
  | .mapBar _ bar size, true => Function.update mapped bar (some size)
  | .unmapBar bar _, _ => Function.update mapped bar none
  | _, _ => mapped

instance [Host κ] : Host (Watched κ) where
  call c w :=
    let (result, host) := (Host.call c).run w.host
    (result, { w with host, mapped := remapped w.mapped c result.isOk })
  functions w := Host.functions w.host
  hasPath w := Host.hasPath w.host
  readLink w := Host.readLink w.host
  content w := Host.content w.host
  load bar offset := access bar offset (Host.load bar offset)
  store bar offset value := access bar offset (Host.store bar offset value)
  peek w := Host.peek w.host
  poke memory offset bytes := within (Host.poke memory offset bytes)
  takeSignals event := within (Host.takeSignals event)
  nextPoll := within Host.nextPoll
  pollsLeft w := Host.pollsLeft w.host

end Watched

namespace Recorded

variable {κ : Type} {h h' : Recorded (Watched κ)} {mapped : Nat → Option Nat}

def Tidy (h : Recorded (Watched κ)) : Prop := ∀ a ∈ h.host.accesses, a.Inside

structure Maps (h : Recorded (Watched κ)) (mapped : Nat → Option Nat) : Prop where
  mapped : h.host.mapped = mapped
  tidy : h.Tidy

theorem Maps.access (hm : h.Maps mapped) {bar offset : Nat}
    (hinside : Access.Inside ⟨bar, offset, mapped bar⟩) {host : κ} :
    ({ h with host := { h.host with
      host, accesses := h.host.accesses ++ [⟨bar, offset, h.host.mapped bar⟩] } } :
      Recorded (Watched κ)).Maps mapped := by
  refine ⟨hm.mapped, fun a ha => ?_⟩
  rcases List.mem_append.1 ha with hold | hnew
  · exact hm.tidy a hold
  · rw [List.mem_singleton.1 hnew, hm.mapped]
    exact hinside

variable [Host κ]

/-! ## Requests -/

theorem Maps.call (hm : h.Maps mapped) (c : HostCall) :
    h.Ends (Host.call c) fun result h' => h'.Maps (Watched.remapped mapped c result.isOk) := by
  refine ⟨?_, hm.tidy⟩
  rw [← hm.mapped]
  rfl

theorem Maps.ask (hm : h.Maps mapped) {c : HostCall} {refusal : HostError → CardError}
    (hsame : ∀ granted, Watched.remapped mapped c granted = mapped) :
    h.Tries (ask c refusal) (fun _ h' => h'.Maps mapped) fun h' => h'.Maps mapped := by
  unfold Tries Passthrough.ask
  rw [ExceptT.run_mk]
  refine Ends.bind (Ends.mono (hm.call c) ?_)
  rintro (e | v) h' hm'
  · rwa [hsame] at hm'
  · rwa [hsame] at hm'

theorem Maps.tell (hm : h.Maps mapped) {c : HostCall}
    (hsame : ∀ granted, Watched.remapped mapped c granted = mapped) :
    h.Ends (tell c) fun _ h' => h'.Maps mapped := by
  refine Ends.bind (Ends.mono (hm.call c) fun result h' hm' => ?_)
  rwa [hsame] at hm'

theorem remapped_idle {c : HostCall} (hidle : ∀ granted, Entry.isIdle ⟨c, granted⟩ = true) (granted : Bool) :
    Watched.remapped mapped c granted = mapped := by
  have htrue := hidle true
  cases c with
  | mapBar => cases htrue
  | unmapBar => cases htrue
  | _ => rfl

omit h in
theorem lasts_maps : Lasts (fun h : Recorded (Watched κ) => h.Maps mapped) fun h => h.Maps mapped where
  call hidle hm := by
    refine Ends.mono (hm.call _) fun result h' hm' => ?_
    rwa [remapped_idle hidle] at hm'
  closeFile file hm := hm.tell fun _ => rfl
  left hm := hm

theorem Maps.mapBar (hm : h.Maps mapped) (d : Device) (bar : Nat) :
    h.Tries (d.mapBar bar) (fun m h' => m.bar = bar ∧ h'.Maps (Function.update mapped bar (some m.size)))
      fun h' => h'.Maps mapped := by
  unfold Device.mapBar
  refine .guard hm ?_
  refine (hm.ask fun _ => rfl).then fun size h₁ hm₁ => ?_
  refine .guard hm₁ ?_
  refine Tries.then (P := fun _ h' => h'.Maps (Function.update mapped bar (some size))) ?_
    fun _ h₂ hm₂ => .ret ⟨rfl, hm₂⟩
  unfold Tries Passthrough.ask
  rw [ExceptT.run_mk]
  refine Ends.bind (Ends.mono (hm₁.call _) ?_)
  rintro (e | v) h' hm' <;> exact hm'

theorem Maps.shareMemory (hm : h.Maps mapped) (d : Device) (wanted : Nat) (address : UInt64) :
    h.Tries (d.shareMemory wanted address) (fun _ h' => h'.Maps mapped) fun h' => h'.Maps mapped := by
  unfold Device.shareMemory
  refine .guard hm ?_
  refine .guard hm ?_
  refine (hm.ask fun _ => rfl).then fun memory h₁ hm₁ => ?_
  refine Tries.then (P := fun _ h' => h'.Maps mapped) (Tries.orElseDo ?pin) fun _ h₂ hm₂ => ?_
  case pin =>
    refine (hm₁.ask fun _ => rfl).mono (fun _ _ => id) fun h₂ hm₂ => ?_
    exact hm₂.tell fun _ => rfl
  refine Tries.then (P := fun _ h' => h'.Maps mapped) (Tries.orElseDo ?share) fun _ h₃ hm₃ => .ret hm₃
  case share =>
    refine (hm₂.ask fun _ => rfl).mono (fun _ _ => id) fun h₃ hm₃ => ?_
    refine Ends.bind (Ends.mono (hm₃.tell fun _ => rfl) fun _ h₄ hm₄ => ?_)
    exact hm₄.tell fun _ => rfl

theorem Maps.settle (hm : h.Maps mapped) (t : InterruptThread) :
    h.Ends t.settle fun _ h' => h'.Maps mapped := by
  refine (settle_same t).mono ?_
  rintro _ _ ⟨failures, rfl⟩
  exact ⟨hm.mapped, hm.tidy⟩

theorem Maps.startLine (hm : h.Maps mapped) (d : Device) :
    h.Tries (HeldCard.startLine d) (fun _ h' => h'.Maps mapped) fun h' => h'.Maps mapped :=
  startLine_keeps (fun hidle hm => hm.ask (remapped_idle hidle)) (fun t hm => hm.settle t) hm d

/-! ## Giving back -/

/-- What is mapped once a holding was given back. -/
def unmapped (mapped : Nat → Option Nat) : Holding → Nat → Option Nat
  | .bar m => Function.update mapped m.bar none
  | .memory _ | .device _ => mapped

theorem Maps.release (hm : h.Maps mapped) (x : Holding) :
    h.Ends x.release fun _ h' => h'.Maps (unmapped mapped x) := by
  cases x with
  | bar m => exact Ends.bind (Ends.mono (hm.call _) fun _ h₁ hm₁ => hm₁)
  | device d =>
    refine Ends.bind (Ends.mono (hm.tell fun _ => rfl) fun _ h₁ hm₁ => ?_)
    exact Ends.bind (Ends.mono (hm₁.tell fun _ => rfl) fun _ h₂ hm₂ => hm₂.tell fun _ => rfl)
  | memory s =>
    unfold Holding.release SharedMemory.release
    refine Ends.bind (Ends.mono (hm.call _) ?_)
    rintro (e | _) h₁ hm₁
    · exact hm₁
    · exact Ends.bind (Ends.mono (hm₁.tell fun _ => rfl) fun _ h₂ hm₂ => hm₂.tell fun _ => rfl)

theorem Maps.giveBack (hm : h.Maps mapped) (given : List Holding) :
    h.Ends (giveBack given) fun _ h' => h'.Maps (given.foldl unmapped mapped) := by
  induction given generalizing h mapped with
  | nil => exact hm
  | cons x given ih => exact Ends.bind (Ends.mono (hm.release x) fun _ h₁ hm₁ => ih hm₁)

theorem Tidy.giveBack (ht : h.Tidy) (given : List Holding) : h.Ends (giveBack given) fun _ => Tidy :=
  Ends.mono (Maps.giveBack ⟨rfl, ht⟩ given) fun _ _ => Maps.tidy

theorem Tidy.close (ht : h.Tidy) (c : HeldCard) : h.Ends c.close fun _ => Tidy := by
  cases hdrive : c.drive with
  | none =>
    rw [close_idle hdrive]
    exact ht.giveBack _
  | some d =>
    rw [close_drive hdrive]
    have hm : h.Maps h.host.mapped := ⟨rfl, ht⟩
    have hstop : h.Ends d.line.stop fun _ h' => h'.Maps h.host.mapped := hm.settle d.line.thread.askToStop
    refine Ends.bind (hstop.mono fun _ h₁ hm₁ => ?_)
    have hmute : h₁.Ends c.device.disableInterrupts.run fun _ => Tidy := hm₁.tidy
    exact Ends.bind (hmute.mono fun _ h₂ ht₂ => ht₂.giveBack _)

/-! ## Driving -/

theorem Maps.driven {allowed : Bar → Nat → Prop} {p p' : PassedCard (Recorded (Watched κ))}
    (hdriven : Hardware.Driven allowed p p') (hm : p.host.Maps mapped)
    (hallowed : ∀ bar offset, allowed bar offset → Access.Inside ⟨bar.index, offset, mapped bar.index⟩) :
    p'.host.Maps mapped := by
  induction hdriven with
  | here => exact hm
  | load hoffset _ ih => exact ih.access (hallowed _ _ hoffset)
  | store hoffset value _ ih => exact ih.access (hallowed _ _ hoffset)
  | giveBuffer direction _ ih => exact ih
  | takeBuffer direction _ ih => exact ih
  | @poke p₁ offset bytes _ ih =>
    obtain ⟨h₁, _ | memory, line⟩ := p₁
    · exact ih
    · exact ⟨ih.mapped, ih.tidy⟩
  | @takeInterrupts p₁ _ ih =>
    obtain ⟨h₁, buffer, _ | line⟩ := p₁
    · exact ih
    · have hsignals : ((Host.takeSignals line.event).run h₁).2.Maps mapped := ⟨ih.mapped, ih.tidy⟩
      exact hsignals.settle _

def ControlMapped (mapped : Nat → Option Nat) : Prop :=
  ∃ size, mapped Bar.control.index = some size ∧ Register.controlSpan ≤ size

theorem inside_of_isWord (hcontrol : ControlMapped mapped) {bar : Bar} {offset : Nat}
    (hword : Register.IsWord bar offset) : Access.Inside ⟨bar.index, offset, mapped bar.index⟩ := by
  obtain ⟨rfl, haligned, hin⟩ := hword
  obtain ⟨size, hsize, hspan⟩ := hcontrol
  refine ⟨haligned, ?_, size, hsize, decide_eq_true (Nat.le_trans hin hspan)⟩
  unfold Register.controlSpan at hin
  show offset + 4 < 18446744073709551616
  omega

theorem Maps.survey (hm : h.Maps mapped) (hcontrol : ControlMapped mapped) (number : Nat)
    (registers : Option Mapping) (s : Settings) :
    h.Tries (HeldCard.survey number registers s)
      (fun board h' => board.registers.size? = registers.map (·.size) ∧ h'.Maps mapped)
      fun h' => h'.Maps mapped := by
  have hdriven : h.Ends (HeldCard.survey number registers s).run fun _ h' => h'.Maps mapped :=
    Maps.driven (Board.survey_driven number ⟨registers.map (·.size)⟩ s) hm
      fun _ _ hword => inside_of_isWord hcontrol hword
  have hboard : h.Ends (HeldCard.survey number registers s).run fun result _ =>
      ∀ board, result = .ok board → board.registers.size? = registers.map (·.size) := by
    intro board hboard
    obtain ⟨table, htable⟩ := Board.ofTable_of_survey (Prod.ext hboard rfl)
    obtain ⟨-, layout, -, rfl⟩ := Board.eq_of_ofTable htable
    rfl
  have hboth : h.Ends (HeldCard.survey number registers s).run fun result h' =>
      (∀ board, result = .ok board → board.registers.size? = registers.map (·.size)) ∧ h'.Maps mapped :=
    ⟨hboard, hdriven⟩
  refine Ends.mono hboth ?_
  rintro (e | board) h' ⟨hboard, hm'⟩
  · exact hm'
  · exact ⟨hboard board rfl, hm'⟩

theorem Maps.startEngine (hm : h.Maps mapped) (hcontrol : ControlMapped mapped) (board : Board)
    (buffer : SharedMemory) (s : Settings) :
    h.Ends (HeldCard.startEngine board buffer s).run fun _ h' => h'.Maps mapped :=
  Maps.driven (Channel.start_driven _ _ _ _) hm fun _ _ hword => inside_of_isWord hcontrol hword

/-! ## Opening a card -/

/-- The control space is large enough while it is needed, and these registers are mapped. -/
structure Suits (mapped : Nat → Option Nat) (driven : Bool) (registers : Option Nat) : Prop where
  control : driven = true → ControlMapped mapped
  registers : ∀ size, registers = some size → mapped Bar.registers.index = some size

theorem tidy_orElseDo {α : Type} {x : Attempt (Recorded (Watched κ)) α} {given : List Holding}
    {Done : α → Recorded (Watched κ) → Prop} (hx : h.Tries x Done fun h' => h'.Maps mapped) :
    h.Tries (orElseDo x (giveBack given)) Done Tidy :=
  .orElseDo (hx.mono (fun _ _ => id) fun _ hm => hm.tidy.giveBack given)

theorem Maps.mapRegisters (hm : h.Maps mapped) (hcontrol : ControlMapped mapped) (d : Device) :
    h.Ends (d.mapBar Bar.registers.index).run fun result h' =>
      ∃ mapped', Suits mapped' true (result.toOption.map (·.size)) ∧ h'.Maps mapped' := by
  refine Ends.mono (hm.mapBar d Bar.registers.index) ?_
  rintro (e | m) h' hm'
  · exact ⟨mapped, ⟨fun _ => hcontrol, nofun⟩, hm'⟩
  · refine ⟨_, ⟨fun _ => ?_, ?_⟩, hm'.2⟩
    · obtain ⟨size, hsize, hspan⟩ := hcontrol
      exact ⟨size, (Function.update_of_ne (by decide) _ _).trans hsize, hspan⟩
    · rintro _ ⟨⟩
      exact Function.update_self ..

theorem Suits.unmapped {registers : Option Nat} (hs : Suits mapped true registers) (control : Mapping)
    (hbar : control.bar = Bar.control.index) (buffer : SharedMemory) :
    Suits ([.memory buffer, .bar control].foldl unmapped mapped) false registers := by
  refine ⟨nofun, fun size hsize => ?_⟩
  show Function.update mapped control.bar none Bar.registers.index = some size
  rw [hbar]
  exact (Function.update_of_ne (by decide) _ _).trans (hs.registers size hsize)

/-- An open card has mapped what it uses, and no access went astray so far. -/
theorem Maps.openAt (hm : h.Maps fun _ => none) (address : String) (number : Nat) (s : Settings) :
    h.Tries (HeldCard.openAt address number s) (fun c h' =>
      ∃ mapped, Suits mapped c.drive.isSome c.board.registers.size? ∧ h'.Maps mapped) Tidy := by
  unfold HeldCard.openAt
  refine Tries.then (P := fun _ h' => h'.Maps fun _ => none) (Tries.check (fun _ _ => hm) hm.tidy)
    fun _ h₀ hm₀ => ?_
  refine ((lasts_maps.openAt hm₀ address).mono (fun _ _ => id) fun _ => Maps.tidy).then
    fun device h₁ hm₁ => ?_
  refine (tidy_orElseDo (hm₁.mapBar device Bar.control.index)).then ?_
  rintro control h₂ ⟨hbar, hm₂⟩
  generalize hmapped : Function.update (fun _ : Nat => none) Bar.control.index (some control.size) =
    mapped₂ at hm₂
  refine Tries.then (P := fun _ h' => ControlMapped mapped₂ ∧ h'.Maps mapped₂)
    (tidy_orElseDo (Tries.check ?size hm₂)) ?_
  case size =>
    intro _ hsize
    refine ⟨⟨control.size, ?_, ?_⟩, hm₂⟩
    · rw [← hmapped]
      exact Function.update_self ..
    · unfold HeldCard.checkControl at hsize
      split at hsize
      · cases hsize
      · exact Nat.le_of_not_lt ‹_›
  rintro _ h₃ ⟨hcontrol, hm₃⟩
  refine Tries.then (Tries.lift (hm₃.mapRegisters hcontrol device)) ?_
  rintro result h₄ ⟨mapped, hsuits, hm₄⟩
  dsimp only
  generalize result.toOption = registers at hsuits ⊢
  refine (tidy_orElseDo (hm₄.shareMemory device s.blockSize s.iovaBase)).then fun buffer h₅ hm₅ => ?_
  refine (tidy_orElseDo (hm₅.survey (hsuits.control rfl) number registers s)).then ?_
  rintro board h₆ ⟨hregisters, hm₆⟩
  rw [← hregisters] at hsuits
  split
  -- A card without an engine gives the control space back and keeps only its registers.
  · refine Tries.then (Tries.lift (hm₆.giveBack _)) fun _ h₇ hm₇ => .ret ?_
    exact ⟨_, hsuits.unmapped control hbar buffer, hm₇⟩
  · have hstart : h₆.Tries (HeldCard.startEngine board buffer s) (fun _ h' => h'.Maps mapped)
        fun h' => h'.Maps mapped := by
      refine Ends.mono (hm₆.startEngine (hsuits.control rfl) board buffer s) ?_
      rintro (e | engine) h' hm' <;> exact hm'
    refine (tidy_orElseDo hstart).then fun engine h₇ hm₇ => ?_
    refine (tidy_orElseDo (hm₇.startLine device)).then fun line h₈ hm₈ => .ret ?_
    exact ⟨mapped, hsuits, hm₈⟩

/-! ## Using a card -/

omit [Host κ] in
theorem inside_of_hasWord {c : HeldCard} (hs : Suits mapped c.drive.isSome c.board.registers.size?)
    {bar : Bar} {offset : Nat} (hword : (c.attached h).HasWord bar offset) :
    Access.Inside ⟨bar.index, offset, mapped bar.index⟩ := by
  cases bar with
  | control =>
    refine inside_of_isWord (hs.control ?_) hword.2
    have hengine := hword.1
    rwa [HeldCard.attached, Option.isSome_map] at hengine
  | registers =>
    obtain ⟨size, hsize, haligned, hin, hfits⟩ := hword
    exact ⟨haligned, hfits, size, hs.registers size hsize, decide_eq_true hin⟩

/-- Whatever a host answers and however a card is used, every access is one of an aligned word inside a space
that is mapped. A word of the register space is read and written, and any other offset is refused without an
access, never for want of a mapping. -/
theorem openAt_inside (address : String) (number : Nat) (s : Settings) (host : κ) (failures : List Nat) :
    ({ host := { host }, failures } : Recorded (Watched κ)).Tries (HeldCard.openAt address number s)
      (fun c opened => ∀ uses, let a := (c.attached opened).useAll uses
        a.hardware.host.Tidy ∧ a.hardware.host.Ends (c.afterUse a).close fun _ => Tidy)
      Tidy ∧
    ∀ (σ : Type) [Hardware σ] (r : RegisterSpace) (offset : Nat) (value : UInt32) (s : σ),
      (r.IsWord offset ∧
        r.read offset s = (.ok ((Hardware.load .registers offset).run s).1,
          ((Hardware.load .registers offset).run s).2) ∧
        r.write offset value s = (.ok (), ((Hardware.store .registers offset value).run s).2)) ∨
      (¬ r.IsWord offset ∧ ∃ e, r.read offset s = (.error e, s) ∧ r.write offset value s = (.error e, s) ∧
        ∀ detail, e ≠ .hardware detail) := by
  constructor
  · have hstart : Maps ({ host := { host }, failures } : Recorded (Watched κ)) fun _ => none := ⟨rfl, nofun⟩
    refine (hstart.openAt address number s).mono ?_ fun _ => id
    rintro c opened ⟨mapped, hsuits, hm⟩ uses
    have hdriven := ((c.attached opened).useAll_reached uses).driven
    have hused := hm.driven hdriven fun _ _ hword => inside_of_hasWord hsuits hword
    exact ⟨hused.tidy, hused.tidy.close _⟩
  · intro σ _ r offset value s
    rcases r.access_cases offset value s with hword | ⟨hword, hread, hwrite⟩
    · exact .inl hword
    · refine .inr ⟨hword, _, hread, hwrite, fun detail => ?_⟩
      unfold RegisterSpace.refusal
      split <;> exact nofun

end Recorded

/-! ## A willing host -/

namespace WillingHost

def watched : Recorded (Watched WillingHost) := { host := { host := {} }, failures := [interrupted] }

def watchedJoined : Recorded (Watched WillingHost) := { watched with log := joined.log }

theorem device_openAt_watched : (Device.openAt address).run.run watched = (.ok device, watchedJoined) := by
  have hgroup : iommuGroup watched address = .ok 7 := iommuGroup_fresh
  unfold Device.openAt
  rw [Recorded.run_bind_ok ((Recorded.run_look _).trans (congrArg (·, watched) hgroup))]
  rfl

theorem openAt_accesses : ∃ c opened,
    (HeldCard.openAt address 0 {}).run.run watched = (.ok c, opened) ∧ c.drive.isSome = true ∧
      opened.host.accesses = [0x2000, 0, 0, 0].map (⟨2, ·, some 65536⟩) := by
  have hvalid : (ExceptT.mk (pure (Settings.validate {})) :
      Attempt (Recorded (Watched WillingHost)) Unit).run.run watched = (.ok (), watched) := rfl
  have hopen : let run := (HeldCard.openAt address 0 {}).run.run watched
      run.1.toOption.any (·.drive.isSome) = true ∧
        run.2.host.accesses = [0x2000, 0, 0, 0].map (⟨2, ·, some 65536⟩) := by
    unfold HeldCard.openAt
    rw [Recorded.run_bind_ok hvalid, Recorded.run_bind_ok device_openAt_watched]
    decide +kernel
  cases hrun : (HeldCard.openAt address 0 {}).run.run watched with
  | mk result opened =>
    rw [hrun] at hopen
    obtain ⟨hdrive, haccesses⟩ := hopen
    cases result with
    | error e => cases hdrive
    | ok c => exact ⟨c, opened, rfl, hdrive, haccesses⟩

end WillingHost

theorem openAt_inside_willing : ∃ c opened,
    (HeldCard.openAt WillingHost.address 0 {}).run.run WillingHost.watched = (.ok c, opened) ∧
      c.drive.isSome = true ∧ opened.host.accesses.length = 4 ∧
      let a := (c.attached opened).useAll [.deliver, .readRegister 0xfffc, .readRegister 0x10000]
      a.hardware.host.Tidy ∧ a.hardware.host.Ends (c.afterUse a).close fun _ => Recorded.Tidy := by
  obtain ⟨c, opened, hopen, hdrive, haccesses⟩ := WillingHost.openAt_accesses
  refine ⟨c, opened, hopen, hdrive, by rw [haccesses]; rfl, ?_⟩
  exact (Recorded.openAt_inside WillingHost.address 0 {} {} [interrupted]).1.of_ok hopen _

end FpgaCard.Passthrough
