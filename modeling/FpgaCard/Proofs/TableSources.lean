import FpgaCard.LittleEndian.Lemmas
import FpgaCard.Proofs.Schedule
import Mathlib

/-!
# Where a table comes from

A table is loaded a word at a time, from bytes in memory or through the window of a card. Both give the
same bytes, those of the source with zeros behind them, so both give the same table. Main statement: a
source with the magic word is read as its first 4096 bytes are, and any other as the built-in table.
-/

namespace FpgaCard.Table

/-! ## Words and bytes -/

def spread (bytes : List UInt8) (start count : Nat) : List UInt8 :=
  (List.range' start count).map fun i => bytes.getD i 0

theorem spread_add (bytes : List UInt8) (start first rest : Nat) :
    spread bytes start (first + rest) = spread bytes start first ++ spread bytes (start + first) rest := by
  rw [spread, spread, spread, ← List.map_append, List.range'_append_1]

theorem spread_succ (bytes : List UInt8) (start count : Nat) :
    spread bytes start (count + 1) = bytes.getD start 0 :: spread bytes (start + 1) count := rfl

theorem spread_slice (bytes : List UInt8) {start skip count whole : Nat} (h : skip + count ≤ whole) :
    ((spread bytes start whole).drop skip).take count = spread bytes (start + skip) count := by
  obtain ⟨rest, rfl⟩ := Nat.exists_eq_add_of_le h
  have hskip : (spread bytes start skip).length = skip := by simp [spread]
  have hcount : (spread bytes (start + skip) count).length = count := by simp [spread]
  rw [Nat.add_assoc, spread_add, spread_add, List.drop_left' hskip, List.take_left' hcount]

theorem spread_eq_slice {bytes : List UInt8} {start count : Nat} (h : start + count ≤ bytes.length) :
    spread bytes start count = (bytes.drop start).take count := by
  apply List.ext_getElem
  · simp only [spread, List.length_map, List.length_range', List.length_take, List.length_drop]
    omega
  · intro i hi _
    have hin : i < count := by simpa [spread] using hi
    simp only [spread, List.getElem_map, List.getElem_range', Nat.one_mul, List.getElem_take, List.getElem_drop]
    exact List.getD_eq_getElem _ _ (by omega)

theorem decode_take_succ (bytes : List UInt8) (offset count : Nat) :
    LittleEndian.decode ((bytes.drop offset).take (count + 1)) =
      (bytes.getD offset 0).toNat + 256 * LittleEndian.decode ((bytes.drop (offset + 1)).take count) := by
  by_cases hoffset : offset < bytes.length
  · rw [List.drop_eq_getElem_cons hoffset, List.take_succ_cons, LittleEndian.decode,
      List.getD_eq_getElem _ _ hoffset]
  · have hend := Nat.le_of_not_lt hoffset
    rw [List.drop_eq_nil_of_le hend, List.drop_eq_nil_of_le (Nat.le_succ_of_le hend),
      List.getD_eq_default _ _ hend, List.take_nil, List.take_nil]
    rfl

theorem encode_decode_drop (bytes : List UInt8) (offset width : Nat) :
    LittleEndian.encode width (LittleEndian.decode ((bytes.drop offset).take width)) =
      spread bytes offset width := by
  induction width generalizing offset with
  | zero => rfl
  | succ width ih =>
    have hbyte := (bytes.getD offset 0).toNat_lt
    rw [decode_take_succ, LittleEndian.encode, spread_succ, Nat.add_mul_div_left _ _ (by decide),
      Nat.div_eq_of_lt hbyte, Nat.zero_add, ih]
    congr 1
    apply UInt8.toNat_inj.1
    rw [UInt8.toNat_ofNat', Nat.add_mul_mod_self_left, Nat.mod_eq_of_lt hbyte]

theorem encode_wordAt (bytes : List UInt8) (offset : Nat) :
    LittleEndian.encode 4 (wordAt bytes offset).toNat = spread bytes offset 4 := by
  have hlen : ((bytes.drop offset).take 4).length ≤ 4 := List.length_take_le ..
  have hpow : 256 ^ ((bytes.drop offset).take 4).length ≤ 256 ^ 4 :=
    Nat.pow_le_pow_right (by decide) hlen
  have hless : LittleEndian.decode ((bytes.drop offset).take 4) < 2 ^ 32 :=
    Nat.lt_of_lt_of_le (LittleEndian.decode_lt _) hpow
  rw [wordAt, UInt32.toNat_ofNat_of_lt' hless, encode_decode_drop]

theorem spread_eq_magic {bytes : List UInt8} : spread bytes 0 4 = magic ↔ magic <+: bytes := by
  rcases bytes with _ | ⟨a, _ | ⟨b, _ | ⟨c, _ | ⟨d, bytes⟩⟩⟩⟩ <;>
    simp [spread, magic, List.range']
  exact and_congr eq_comm (and_congr eq_comm (and_congr eq_comm eq_comm))

theorem spread_window (bytes : List UInt8) :
    spread bytes 0 windowSize = padded (bytes.take windowSize) := by
  apply List.ext_getElem
  · simp only [spread, padded, List.length_map, List.length_range', List.length_append,
      List.length_take, List.length_replicate]
    omega
  · intro i hi hi'
    have hwindow : i < windowSize := by simpa [spread] using hi
    simp only [spread, padded, List.getElem_map, List.getElem_range', List.getElem_append,
      List.length_take, List.getElem_take, List.getElem_replicate, Nat.zero_add, Nat.one_mul]
    split
    · exact List.getD_eq_getElem _ _ (by omega)
    · exact List.getD_eq_default _ _ (by omega)

/-! ## Sources -/

/-- In the states that are `Kept`, and its own reads keep them, a source has the words of `bytes`. -/
structure Shows {σ : Type} (source : Nat → StateM σ UInt32) (bytes : List UInt8) (Kept : σ → Prop) :
    Prop where
  word {s : σ} {offset : Nat} : Kept s → offset < windowSize →
    ((source offset).run s).1 = wordAt bytes offset
  keeps (offset : Nat) (s : σ) : Kept s → Kept ((source offset).run s).2

namespace Shows

variable {σ : Type} {source : Nat → StateM σ UInt32} {bytes : List UInt8} {Kept : σ → Prop} {s : σ}
  (h : Shows source bytes Kept) (hs : Kept s)

include h hs

theorem readSpan {start count : Nat} (hspan : start + count ≤ windowSize) :
    ((Table.readSpan source start count).run s).1 = spread bytes start count := by
  fun_induction Table.readSpan source start count generalizing s with
  | case1 start => rfl
  | case2 start count hcount ih =>
    -- The piece of the word that `start` is in, and the rest, which begins on a word.
    set take := min (4 - start % 4) count with htake
    have hmod : start % 4 < 4 := Nat.mod_lt _ (by decide)
    have hrest := ih (h.keeps (start - start % 4) s hs) (by omega)
    have hpiece : ((LittleEndian.encode 4 ((source (start - start % 4)).run s).1.toNat).drop
        (start % 4)).take take = spread bytes start take := by
      rw [h.word hs (by omega), encode_wordAt, spread_slice bytes (by omega),
        Nat.sub_add_cancel (Nat.mod_le ..)]
    calc _ = spread bytes start take ++ spread bytes (start + take) (count - take) :=
          congrArg₂ (· ++ ·) hpiece hrest
      _ = spread bytes start count := by rw [← spread_add, Nat.add_sub_cancel' (by omega)]

theorem load :
    ((Table.load source).run s).1 =
      if magic <+: bytes then ofBytes (bytes.take windowSize) else loadBuiltIn := by
  have hfits : ¬windowSize < (bytes.take windowSize).length := by
    rw [List.length_take]
    omega
  rw [load_run, h.word hs (by decide), encode_wordAt]
  simp only [spread_eq_magic]
  split
  · rw [ofBytes, if_neg hfits, ← spread_window]
    exact congrArg (ofWindow · false) (h.readSpan (h.keeps 0 s hs) (Nat.le_refl windowSize))
  · rfl

end Shows

theorem shows_wordsOf (bytes : List UInt8) : Shows (wordsOf bytes) bytes fun _ => True where
  word _ _ := rfl
  keeps _ _ _ := trivial

def windowWords {σ : Type} [Hardware σ] (offset : Nat) : StateM σ UInt32 :=
  Hardware.load .control (Register.tableWindow + offset)

theorem shows_windowWords (bytes : List UInt8) :
    Shows windowWords bytes fun rig : Simulation.Rig => rig.card.table.getD [] = bytes where
  word {rig offset} hcarries hoffset := by
    have hinside : Register.tableWindow ≤ Register.tableWindow + offset ∧
        Register.tableWindow + offset < Register.tableWindow + windowSize := by omega
    show rig.card.wordAt (Register.tableWindow + offset) = _
    rw [Simulation.Card.wordAt, if_pos hinside, hcarries, Nat.add_sub_cancel_left]
  keeps offset rig hcarries := by
    show (rig.card.load (Register.tableWindow + offset)).2.table.getD [] = _
    unfold Simulation.Card.load
    split <;> exact hcarries

theorem windowWords_run (offset : Nat) (rig : Simulation.Rig) :
    ((windowWords offset).run rig).2 = rig := by
  have houtside : ¬ Register.tableWindow + offset < Register.span := by
    unfold Register.tableWindow Register.span
    omega
  show { rig with card := (rig.card.load (Register.tableWindow + offset)).2 } = rig
  rw [Simulation.Card.load, if_neg houtside]

/-! ## Loading -/

theorem exists_loadBuiltIn : ∃ t, loadBuiltIn = .ok t ∧ t.isDefault = true ∧ t.bytes = builtIn := by
  have hbuiltIn : (loadBuiltIn.toOption.map fun t => (t.isDefault, t.bytes)) = some (true, builtIn) := by
    decide +kernel
  cases hload : loadBuiltIn with
  | error e =>
    rw [hload] at hbuiltIn
    cases hbuiltIn
  | ok t =>
    rw [hload] at hbuiltIn
    exact ⟨t, rfl, Prod.mk.inj (Option.some.inj hbuiltIn)⟩

/-- Bytes in memory and a card that carries them give the same table or the same error: that of the
first 4096 bytes behind a magic word, and the built-in table without one. -/
theorem load_agrees (bytes : List UInt8) (rig : Simulation.Rig) :
    let fromBytes := ((load (wordsOf bytes)).run ()).1
    let carrying := { rig with card := { rig.card with table := some bytes } }
    let fromCard := ((load windowWords).run carrying).1
    if magic <+: bytes then
      fromBytes = ofBytes (bytes.take windowSize) ∧ fromCard = ofBytes (bytes.take windowSize)
    else
      ∃ t, loadBuiltIn = .ok t ∧ t.isDefault = true ∧ t.bytes = builtIn ∧
        fromBytes = .ok t ∧ fromCard = .ok t := by
  intro fromBytes carrying fromCard
  have hbytes : fromBytes = _ := (shows_wordsOf bytes).load (s := ()) trivial
  have hcard : fromCard = _ := (shows_windowWords bytes).load (s := carrying) rfl
  split
  · rename_i hmagic
    rw [if_pos hmagic] at hbytes hcard
    exact ⟨hbytes, hcard⟩
  · rename_i hmagic
    rw [if_neg hmagic] at hbytes hcard
    obtain ⟨t, hload, hdefault, htable⟩ := exists_loadBuiltIn
    rw [hload] at hbytes hcard
    exact ⟨t, hload, hdefault, htable, hbytes, hcard⟩

/-- The table of a card that carries `bytes`. -/
def carried (bytes : List UInt8) : Except CardError Table :=
  if magic <+: bytes then ofBytes (bytes.take windowSize) else loadBuiltIn

theorem load_windowWords (rig : Simulation.Rig) :
    (load windowWords).run rig = (carried (rig.card.table.getD []), rig) := by
  apply Prod.ext
  · exact (shows_windowWords (rig.card.table.getD [])).load rfl
  · apply load_keeps (· = rig) _ rfl
    rintro offset _ - - rfl
    exact windowWords_run offset _

end FpgaCard.Table

namespace FpgaCard.Board

/-- A survey makes the board of the table that the card carries, and leaves no trace. -/
theorem survey_eq (number : Nat) (registers : RegisterSpace) (settings : Settings) (rig : Simulation.Rig) :
    (survey number registers settings).run rig =
      ((Table.carried (rig.card.table.getD [])).bind (ofTable number registers settings), rig) :=
  congrArg (fun (loaded, rig) => (loaded.bind (ofTable number registers settings), rig))
    (Table.load_windowWords rig)

end FpgaCard.Board
