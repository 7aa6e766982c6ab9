import FpgaCard.Attachment

/-!
# Where words are loaded and stored

The driver drives a card by loads and stores of words, and each of its functions does so at offsets that are
known beforehand. Main statement: however an attached card is used, words are loaded and stored at aligned
offsets within the least control space, and inside the register space.
-/

namespace FpgaCard

/-! ## Reading a table -/

namespace Table

variable {σ : Type} (Kept : σ → Prop) {source : Nat → StateM σ UInt32} {s : σ}

theorem readSpan_keeps {start count : Nat}
    (hsource : ∀ offset s, offset % 4 = 0 → offset < start + count → Kept s → Kept ((source offset).run s).2)
    (hs : Kept s) : Kept ((readSpan source start count).run s).2 := by
  fun_induction readSpan source start count generalizing s with
  | case1 start => exact hs
  | case2 start count hcount ih =>
    refine ih (fun offset s haligned hin hs => hsource offset s haligned ?_ hs) (hsource _ _ ?_ ?_ hs) <;> omega

theorem load_run (source : Nat → StateM σ UInt32) (s : σ) :
    (load source).run s =
      if LittleEndian.encode 4 ((source 0).run s).1.toNat = magic then
        ((readSpan source 0 windowSize).run ((source 0).run s).2).map (ofWindow · false) id
      else (loadBuiltIn, ((source 0).run s).2) := by
  unfold load
  rw [StateT.run_bind]
  show StateT.run (ite _ _ _) _ = _
  split <;> rfl

theorem load_keeps
    (hsource : ∀ offset s, offset % 4 = 0 → offset + 4 ≤ windowSize → Kept s → Kept ((source offset).run s).2)
    (hs : Kept s) : Kept ((load source).run s).2 := by
  have hfirst := hsource 0 s rfl (by decide) hs
  rw [load_run]
  split
  · refine readSpan_keeps Kept (fun offset s haligned hin hs => hsource offset s haligned ?_ hs) hfirst
    unfold windowSize at hin ⊢
    omega
  · exact hfirst

end Table

/-! ## The driver's functions -/

/-- What hardware can come to by the actions through which a card is driven, with words loaded and stored
where it is allowed. -/
inductive Hardware.Driven {σ : Type} [Hardware σ] (allowed : Bar → Nat → Prop) (s : σ) : σ → Prop
  | here : Driven allowed s s
  | load {s' : σ} {bar : Bar} {offset : Nat} (hoffset : allowed bar offset) :
      Driven allowed s s' → Driven allowed s ((Hardware.load bar offset).run s').2
  | store {s' : σ} {bar : Bar} {offset : Nat} (hoffset : allowed bar offset) (value : UInt32) :
      Driven allowed s s' → Driven allowed s ((Hardware.store bar offset value).run s').2
  | giveBuffer {s' : σ} (direction : Direction) :
      Driven allowed s s' → Driven allowed s ((Hardware.giveBuffer direction).run s').2
  | takeBuffer {s' : σ} (direction : Direction) :
      Driven allowed s s' → Driven allowed s ((Hardware.takeBuffer direction).run s').2
  | poke {s' : σ} (offset : Nat) (bytes : List UInt8) :
      Driven allowed s s' → Driven allowed s ((Hardware.poke offset bytes).run s').2
  | takeInterrupts {s' : σ} :
      Driven allowed s s' → Driven allowed s ((Hardware.takeInterrupts).run s').2

def Register.IsWord (bar : Bar) (offset : Nat) : Prop :=
  bar = .control ∧ offset % 4 = 0 ∧ offset + 4 ≤ controlSpan

instance (bar : Bar) (offset : Nat) : Decidable (Register.IsWord bar offset) :=
  inferInstanceAs (Decidable (bar = .control ∧ offset % 4 = 0 ∧ offset + 4 ≤ Register.controlSpan))

section Driven

open Hardware (Driven)
open Register (IsWord)

variable {σ : Type} [Hardware σ] {allowed allowed' : Bar → Nat → Prop} {s s' s'' : σ}

theorem Hardware.Driven.trans (h : Driven allowed s s') (h' : Driven allowed s' s'') :
    Driven allowed s s'' := by
  induction h' with
  | here => exact h
  | load hoffset _ ih => exact ih.load hoffset
  | store hoffset value _ ih => exact ih.store hoffset value
  | giveBuffer direction _ ih => exact ih.giveBuffer direction
  | takeBuffer direction _ ih => exact ih.takeBuffer direction
  | poke offset bytes _ ih => exact ih.poke offset bytes
  | takeInterrupts _ ih => exact ih.takeInterrupts

theorem Hardware.Driven.mono (h : Driven allowed s s')
    (hallowed : ∀ bar offset, allowed bar offset → allowed' bar offset) : Driven allowed' s s' := by
  induction h with
  | here => exact .here
  | load hoffset _ ih => exact ih.load (hallowed _ _ hoffset)
  | store hoffset value _ ih => exact ih.store (hallowed _ _ hoffset) value
  | giveBuffer direction _ ih => exact ih.giveBuffer direction
  | takeBuffer direction _ ih => exact ih.takeBuffer direction
  | poke offset bytes _ ih => exact ih.poke offset bytes
  | takeInterrupts _ ih => exact ih.takeInterrupts

variable {c : Channel σ}

theorem Board.survey_driven (number : Nat) (registers : RegisterSpace) (settings : Settings) :
    Driven IsWord s ((survey number registers settings).run s).2 := by
  let words (offset : Nat) : StateM σ UInt32 := Hardware.load .control (Register.tableWindow + offset)
  have hwords (offset : Nat) (s' : σ) (haligned : offset % 4 = 0) (hin : offset + 4 ≤ Table.windowSize)
      (h : Driven IsWord s s') : Driven IsWord s ((words offset).run s').2 := by
    refine h.load ⟨rfl, ?_⟩
    unfold Table.windowSize at hin
    unfold Register.tableWindow Register.controlSpan
    omega
  exact Table.load_keeps _ hwords .here

namespace Channel

theorem awaitReset_driven (hc : Driven IsWord s c.hardware) (tries : Nat) :
    Driven IsWord s (c.awaitReset tries).2.hardware := by
  have hword : IsWord .control Register.control := by decide
  induction tries generalizing c with
  | zero =>
    unfold awaitReset
    dsimp only
    split <;> exact hc.load hword
  | succ tries ih =>
    unfold awaitReset
    dsimp only
    split
    · exact ih (hc.load hword)
    · exact hc.load hword

theorem reset_driven (hc : Driven IsWord s c.hardware) : Driven IsWord s c.reset.2.hardware := by
  have hword : IsWord .control Register.control := by decide
  let started := c.store Register.control Control.reset
  have hawait := started.awaitReset_driven (hc.store hword Control.reset) started.engine.resetTimeout
  unfold reset
  dsimp only
  split
  · rename_i hdone
    rw [hdone] at hawait
    exact hawait.store hword Control.bothInterrupts
  · rename_i hdone
    rw [hdone] at hawait
    exact hawait

theorem start_driven (address : UInt64) (size : Nat) (settings : DmaSettings) (resetTimeout : Nat) :
    Driven IsWord s (start s address size settings resetTimeout).2 := by
  unfold start
  split
  · exact .here
  · exact reset_driven .here

theorem interrupts_driven (hc : Driven IsWord s c.hardware) (n : Nat) :
    Driven IsWord s (c.interrupts n).hardware := by
  have hword : IsWord .control Register.status := by decide
  induction n generalizing c with
  | zero => exact hc
  | succ n ih => exact ih ((hc.load hword).store hword _)

theorem deliver_driven (hc : Driven IsWord s c.hardware) : Driven IsWord s c.deliver.hardware :=
  interrupts_driven hc.takeInterrupts _

end Channel

theorem Transfer.program_driven (hc : Driven IsWord s c.hardware) (t : Transfer) :
    Driven IsWord s (t.program c).hardware := by
  have hsource : Driven IsWord s ((c.store Register.sourceHigh _).store Register.source _).hardware :=
    (hc.store (by decide) (high (t.source c.engine))).store (by decide) (low (t.source c.engine))
  unfold program
  exact ((hsource.store (by decide) _).store (by decide) _).store (by decide) _

theorem Transfer.step_driven (hc : Driven IsWord s c.hardware) (t : Transfer) :
    Driven IsWord s (t.step c).2.hardware := by
  have hstatus : Driven IsWord s (c.load Register.status).2.hardware := hc.load (by decide)
  unfold step
  cases t.stage with
  | check | arm => exact hc
  | give => exact hc.giveBuffer _
  | take => exact hc.takeBuffer _
  | program => exact program_driven hc t
  | enter =>
    dsimp only
    split <;> exact hc
  | await =>
    dsimp only
    split <;> exact hc
  | conclude =>
    dsimp only
    split <;> exact hstatus
  | inspect =>
    have hreset := Channel.reset_driven hstatus
    dsimp only
    split
    · exact hstatus
    split
    · rename_i heq
      rw [heq] at hreset
      exact hreset
    · rename_i heq
      rw [heq] at hreset
      exact hreset

theorem MemoryCall.step_driven (hc : Driven IsWord s c.hardware) (m : MemoryCall) :
    Driven IsWord s (m.step c).2.hardware := by
  unfold step
  split
  · exact hc
  · dsimp only
    split
    · exact hc
    · exact hc.poke _ _
  · exact Transfer.step_driven hc _
  · split <;> exact hc

end Driven

/-! ## The register space -/

namespace RegisterSpace

variable {σ : Type} [Hardware σ] (r : RegisterSpace) (offset : Nat)

/-- An aligned word of a register space that is there, whose end 64 bits hold. -/
def IsWord : Prop :=
  ∃ size, r.size? = some size ∧ offset % 4 = 0 ∧ offset + 4 ≤ size ∧ offset + 4 < UInt64.size

def refusal : CardError :=
  if offset % 4 ≠ 0 then .invalidArgument ("register offset " ++ Text.hex offset ++ " is not word aligned")
  else .outOfRange offset r.size

theorem checkWord_cases : (r.IsWord offset ∧ r.checkWord offset = .ok ()) ∨
    (¬ r.IsWord offset ∧ r.checkWord offset = .error (r.refusal offset)) := by
  unfold checkWord refusal
  split
  · rename_i hoffset
    exact .inr ⟨fun ⟨_, _, haligned, _⟩ => hoffset haligned, rfl⟩
  rename_i haligned
  have hmod : offset % 4 = 0 := by omega
  unfold checkSpan
  split
  · rename_i hin
    cases hsize : r.size? with
    | none =>
      unfold size at hin
      rw [hsize] at hin
      exact absurd hin.1 (by simp)
    | some size =>
      unfold RegisterSpace.size at hin
      rw [hsize] at hin
      exact .inl ⟨⟨size, hsize, hmod, hin⟩, rfl⟩
  · rename_i hout
    refine .inr ⟨?_, rfl⟩
    rintro ⟨size, hsize, -, hin⟩
    unfold RegisterSpace.size at hout
    rw [hsize] at hout
    exact hout hin

theorem access_cases (value : UInt32) (s : σ) :
    (r.IsWord offset ∧
      r.read offset s = (.ok ((Hardware.load .registers offset).run s).1,
        ((Hardware.load .registers offset).run s).2) ∧
      r.write offset value s = (.ok (), ((Hardware.store .registers offset value).run s).2)) ∨
    (¬ r.IsWord offset ∧ r.read offset s = (.error (r.refusal offset), s) ∧
      r.write offset value s = (.error (r.refusal offset), s)) := by
  unfold read write
  rcases r.checkWord_cases offset with ⟨hword, hcheck⟩ | ⟨hword, hcheck⟩
  · rw [hcheck]
    exact .inl ⟨hword, rfl, rfl⟩
  · rw [hcheck]
    exact .inr ⟨hword, rfl, rfl⟩

end RegisterSpace

/-! ## Attached cards -/

namespace Attachment

/-- What can be done with an attached card: one more step of a transfer or a call, wherever it stands, and
whatever needs no more than a step. -/
inductive Use where
  | transfer (t : Transfer)
  | call (m : MemoryCall)
  | reset
  | deliver
  | kill
  | closeTransfers
  | beginShutdown
  | settleShutdown (kept : Bool)
  | readRegister (offset : Nat)
  | writeRegister (offset : Nat) (value : UInt32)
  deriving DecidableEq

variable {σ : Type} [Hardware σ]

def use (a : Attachment σ) : Use → Attachment σ
  | .transfer t => a.drive fun c => (t.step c).2
  | .call m => a.drive fun c => (m.step c).2
  | .reset => a.drive fun c => c.reset.2
  | .deliver => a.deliver
  | .kill => a.kill
  | .closeTransfers => a.closeTransfers
  | .beginShutdown => a.beginShutdown
  | .settleShutdown kept => a.settleShutdown kept
  | .readRegister offset => (a.readRegister offset).2
  | .writeRegister offset value => (a.writeRegister offset value).2

def useAll (a : Attachment σ) (uses : List Use) : Attachment σ := uses.foldl use a

/-- Where an attached card has words: in the control space only for its engine. -/
def HasWord (a : Attachment σ) : Bar → Nat → Prop
  | .control, offset => a.engine.isSome ∧ Register.IsWord .control offset
  | .registers, offset => a.board.registers.IsWord offset

variable (a : Attachment σ)

/-- What a use of a card comes to: it has the words it had or fewer, and was driven there. -/
structure Reached (a' : Attachment σ) : Prop where
  engine : a'.engine.isSome → a.engine.isSome
  registers : a'.board.registers = a.board.registers
  driven : Hardware.Driven a.HasWord a.hardware a'.hardware

variable {a} {a' a'' : Attachment σ}

theorem Reached.refl : a.Reached a := ⟨id, rfl, .here⟩

theorem Reached.trans (h : a.Reached a') (h' : a'.Reached a'') : a.Reached a'' := by
  refine ⟨fun hsome => h.engine (h'.engine hsome), h'.registers.trans h.registers, ?_⟩
  refine h.driven.trans (h'.driven.mono fun bar offset hword => ?_)
  cases bar with
  | control => exact ⟨h.engine hword.1, hword.2⟩
  | registers =>
    unfold HasWord at hword ⊢
    rwa [h.registers] at hword

theorem drive_reached {f : Channel σ → Channel σ}
    (hf : ∀ c, Hardware.Driven Register.IsWord c.hardware (f c).hardware) : a.Reached (a.drive f) := by
  unfold drive channel?
  cases hengine : a.engine with
  | none => exact .refl
  | some engine =>
    refine ⟨fun _ => by rw [hengine]; rfl, rfl, ?_⟩
    refine (hf ⟨engine, a.hardware⟩).mono ?_
    rintro bar offset ⟨rfl, hword⟩
    refine ⟨?_, rfl, hword⟩
    rw [hengine]
    rfl

theorem kill_reached : a.Reached a.kill := by
  unfold kill
  split
  · exact drive_reached fun _ => .here
  · exact .refl

theorem closeTransfers_reached : a.Reached a.closeTransfers := by
  unfold closeTransfers
  split
  · exact drive_reached fun _ => .here
  · exact .refl

theorem deliver_reached : a.Reached a.deliver := by
  have hdrive : a.Reached (a.drive Channel.deliver) :=
    drive_reached fun _ => Channel.deliver_driven .here
  unfold deliver
  unfold drive at hdrive
  split
  · rename_i hchannel
    rwa [hchannel] at hdrive
  · exact ⟨id, rfl, .takeInterrupts .here⟩

theorem settleShutdown_reached (kept : Bool) : a.Reached (a.settleShutdown kept) := by
  refine ⟨fun hsome => ?_, ?_, .here⟩
  · change (ite _ a.engine none).isSome = true at hsome
    split at hsome
    · exact hsome
    · cases hsome
  · show a.board.releaseEngine.registers = a.board.registers
    unfold Board.releaseEngine
    split <;> rfl

theorem readRegister_reached (offset : Nat) : a.Reached (a.readRegister offset).2 := by
  unfold readRegister
  rcases a.board.registers.access_cases offset 0 a.hardware with ⟨hword, hread, -⟩ | ⟨-, hread, -⟩
  · rw [hread]
    exact ⟨id, rfl, .load hword .here⟩
  · rw [hread]
    exact .refl

theorem writeRegister_reached (offset : Nat) (value : UInt32) :
    a.Reached (a.writeRegister offset value).2 := by
  unfold writeRegister
  rcases a.board.registers.access_cases offset value a.hardware with ⟨hword, -, hwrite⟩ | ⟨-, -, hwrite⟩
  · rw [hwrite]
    exact ⟨id, rfl, .store hword value .here⟩
  · rw [hwrite]
    exact .refl

theorem use_reached (u : Use) : a.Reached (a.use u) := by
  cases u with
  | transfer t => exact drive_reached fun _ => Transfer.step_driven .here t
  | call m => exact drive_reached fun _ => MemoryCall.step_driven .here m
  | reset => exact drive_reached fun _ => Channel.reset_driven .here
  | deliver => exact deliver_reached
  | kill => exact kill_reached
  | closeTransfers => exact closeTransfers_reached
  | beginShutdown => exact closeTransfers_reached.trans ⟨id, rfl, .here⟩
  | settleShutdown kept => exact settleShutdown_reached kept
  | readRegister offset => exact readRegister_reached offset
  | writeRegister offset value => exact writeRegister_reached offset value

/-- However an attached card is used, words are loaded and stored only where it has them. -/
theorem useAll_reached (uses : List Use) : a.Reached (a.useAll uses) := by
  induction uses generalizing a with
  | nil => exact .refl
  | cons u uses ih => exact (use_reached u).trans ih

end Attachment

end FpgaCard
