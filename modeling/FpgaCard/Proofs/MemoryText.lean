import FpgaCard.LittleEndian.Lemmas
import FpgaCard.Proofs.Numerals
import FpgaCard.Table.Coe

/-!
# Reading memory initialisation text back

Each word of the text is a number, whose bytes are those of the table from the lowest on. Main statement: the
words read back give the table with zeros behind it, so that tables of one length have different texts.
-/

namespace FpgaCard

/-! ## Pieces -/

theorem length_chunks {α : Type} {size : Nat} (h : size ≠ 0) (items : List α) :
    (chunks size items).length = items.length ⌈/⌉ size := by
  fun_induction chunks size items with
  | case1 items hc =>
    obtain rfl | hnone := hc
    · exact absurd rfl h
    · simp [hnone]
  | case2 items hc ih =>
    have hsome : 0 < items.length := by omega
    rw [List.length_cons, ih, List.length_drop, Nat.ceilDiv_eq_add_pred_div, Nat.ceilDiv_eq_add_pred_div]
    rcases Nat.lt_or_ge size items.length with hmore | hlast
    · rw [show items.length + size - 1 = items.length - size + size - 1 + size by omega,
        Nat.add_div_right _ (by omega)]
    · have hone : (items.length + size - 1) / size = 1 :=
        Nat.div_eq_of_lt_le (by omega) (by omega)
      rw [hone, Nat.sub_eq_zero_of_le hlast, Nat.zero_add, Nat.div_eq_of_lt (by omega)]

theorem length_le_of_mem_chunks {α : Type} {size : Nat} {items piece : List α}
    (h : piece ∈ chunks size items) : piece.length ≤ size := by
  fun_induction chunks size items with
  | case1 => cases h
  | case2 items hc ih =>
    obtain rfl | hrest := List.mem_cons.1 h
    · exact List.length_take_le _ _
    · exact ih hrest

namespace Table.Coe

open Text

variable {group : Nat}

theorem length_filled {bytes : List UInt8} (h : bytes.length ≤ group) :
    (filled group bytes).length = group := by
  rw [filled, List.length_append, List.length_replicate]
  omega

theorem flatten_filled (h : group ≠ 0) (bytes : List UInt8) :
    ((chunks group bytes).map (filled group)).flatten =
      bytes ++ List.replicate (group * (chunks group bytes).length - bytes.length) 0 := by
  fun_induction chunks group bytes with
  | case1 bytes hc => simp [List.eq_nil_of_length_eq_zero (hc.resolve_left h)]
  | case2 bytes hc ih =>
    rw [List.map_cons, List.flatten_cons, ih, List.length_drop, List.length_cons, Nat.mul_succ]
    rcases Nat.lt_or_ge group bytes.length with hmore | hlast
    · have hwhole : filled group (bytes.take group) = bytes.take group := by
        simp [filled, Nat.min_eq_left (Nat.le_of_lt hmore)]
      rw [hwhole, ← List.append_assoc, List.take_append_drop]
      congr 2
      omega
    · have hnone : chunks group (bytes.drop group) = [] := by
        rw [chunks, dif_pos (.inr (by rw [List.length_drop, Nat.sub_eq_zero_of_le hlast]))]
      rw [hnone, List.take_of_length_le hlast, List.drop_of_length_le hlast, filled]
      simp [Nat.sub_eq_zero_of_le hlast]

/-! ## One word -/

/-- The bytes of the number that a word is, the lowest first. -/
def readWord (group : Nat) (word : String) : Except NumberError (List UInt8) :=
  (readNumber 16 (256 ^ group) word.toList).map (LittleEndian.encode group)

def halves (b : UInt8) : List Nat := [b.toNat / 16, b.toNat % 16]

theorem areDigits_bytes (bytes : List UInt8) :
    AreDigits 16 (bytes.flatMap byteDigits) (bytes.flatMap halves) := by
  induction bytes with
  | nil => exact .nil
  | cons b bytes ih =>
    have hb := b.toNat_lt
    exact .cons (isDigit_digitChar (by omega)) (.cons (isDigit_digitChar (by omega)) ih)

theorem length_halves (bytes : List UInt8) : (bytes.flatMap halves).length = 2 * bytes.length := by
  induction bytes with
  | nil => rfl
  | cons b bytes ih =>
    rw [List.flatMap_cons, List.length_append, ih, List.length_cons]
    simp only [halves, List.length_cons, List.length_nil]
    omega

theorem placeValue_halves (bytes : List UInt8) :
    placeValue 16 (bytes.flatMap halves) = LittleEndian.decode bytes.reverse := by
  induction bytes with
  | nil => rfl
  | cons b bytes ih =>
    have hpow : 16 ^ (2 * bytes.length) = 256 ^ bytes.length := by
      rw [pow_mul]
      rfl
    have hb : b.toNat = 16 * (b.toNat / 16) + b.toNat % 16 := (Nat.div_add_mod _ _).symm
    calc placeValue 16 ((b :: bytes).flatMap halves)
        = b.toNat / 16 * 16 ^ (2 * bytes.length + 1) +
            (b.toNat % 16 * 16 ^ (2 * bytes.length) + LittleEndian.decode bytes.reverse) := by
          rw [List.flatMap_cons, halves, List.cons_append, List.cons_append, List.nil_append,
            placeValue_cons, placeValue_cons, List.length_cons, length_halves, ih]
      _ = LittleEndian.decode bytes.reverse +
            256 ^ bytes.length * (16 * (b.toNat / 16) + b.toNat % 16) := by
          rw [pow_succ, hpow]
          ring
      _ = LittleEndian.decode (b :: bytes).reverse := by
          rw [← hb, List.reverse_cons, LittleEndian.decode_concat, List.length_reverse]

theorem toList_word (group : Nat) (bytes : List UInt8) :
    (word group bytes).toList = (filled group bytes).reverse.flatMap byteDigits := by
  rw [word, hexBytes, String.toList_ofList]

theorem length_word {bytes : List UInt8} (hlen : bytes.length ≤ group) :
    (word group bytes).length = 2 * group := by
  rw [← String.length_toList, toList_word, (areDigits_bytes _).length_eq, length_halves,
    List.length_reverse, length_filled hlen]

theorem readWord_word (h : group ≠ 0) {bytes : List UInt8} (hlen : bytes.length ≤ group) :
    readWord group (word group bytes) = .ok (filled group bytes) := by
  have hfilled := length_filled hlen
  have hread : readNumber 16 (256 ^ group) (word group bytes).toList =
      .ok (LittleEndian.decode (filled group bytes)) := by
    rw [readNumber_eq_ok_iff (Nat.le_refl 16)]
    refine ⟨⟨[], (word group bytes).toList, (filled group bytes).reverse.flatMap halves, rfl, .inl rfl,
      ?_, ?_, ?_⟩, ?_⟩
    · rw [← List.length_pos_iff, String.length_toList, length_word hlen]
      omega
    · rw [toList_word]
      exact areDigits_bytes _
    · rw [placeValue_halves, List.reverse_reverse]
    · have hless := LittleEndian.decode_lt (filled group bytes)
      rwa [hfilled] at hless
  have hencode := LittleEndian.encode_decode (filled group bytes)
  rw [hfilled] at hencode
  rw [readWord, hread, Except.map, hencode]

def isLowerHex (c : Char) : Bool := ('0' ≤ c && c ≤ '9') || ('a' ≤ c && c ≤ 'f')

theorem isLowerHex_digitChar {value : Nat} (h : value < 16) : isLowerHex value.digitChar = true := by
  interval_cases value <;> decide

theorem isLowerHex_of_mem_word {bytes : List UInt8} {c : Char} (h : c ∈ (word group bytes).toList) :
    isLowerHex c = true := by
  rw [toList_word] at h
  obtain ⟨b, -, hc⟩ := List.mem_flatMap.1 h
  have hb := b.toNat_lt
  obtain rfl | rfl : c = Nat.digitChar (b.toNat / 16) ∨ c = Nat.digitChar (b.toNat % 16) := by
    simpa [byteDigits] using hc
  · exact isLowerHex_digitChar (by omega)
  · exact isLowerHex_digitChar (by omega)

/-! ## The text -/

def readWords (group : Nat) (words : List String) : Except NumberError (List UInt8) :=
  (words.mapM (readWord group)).map List.flatten

/-- The words are a table of these bytes, filled up with zeros. -/
structure Spells (group : Nat) (bytes : List UInt8) (words : List String) : Prop where
  count : words.length = bytes.length ⌈/⌉ group
  width : ∀ word ∈ words, word.length = 2 * group
  digits : ∀ word ∈ words, ∀ c ∈ word.toList, isLowerHex c = true
  bytes : readWords group words =
    .ok (bytes ++ List.replicate (group * (bytes.length ⌈/⌉ group) - bytes.length) 0)

theorem readWords_words (h : group ≠ 0) {pieces : List (List UInt8)}
    (hlen : ∀ piece ∈ pieces, piece.length ≤ group) :
    readWords group (pieces.map (word group)) = .ok (pieces.map (filled group)).flatten := by
  have hread : (pieces.map (word group)).mapM (readWord group) = .ok (pieces.map (filled group)) := by
    induction pieces with
    | nil => rfl
    | cons piece pieces ih =>
      obtain ⟨hpiece, hrest⟩ := List.forall_mem_cons.1 hlen
      rw [List.map_cons, List.mapM_cons, readWord_word h hpiece, ih hrest]
      rfl
  rw [readWords, hread]
  rfl

theorem spells_words (h : group ≠ 0) (bytes : List UInt8) :
    Spells group bytes ((chunks group bytes).map (word group)) where
  count := by rw [List.length_map, length_chunks h]
  width w hw := by
    obtain ⟨piece, hpiece, rfl⟩ := List.mem_map.1 hw
    exact length_word (length_le_of_mem_chunks hpiece)
  digits w hw c hc := by
    obtain ⟨piece, -, rfl⟩ := List.mem_map.1 hw
    exact isLowerHex_of_mem_word hc
  bytes := by
    rw [readWords_words h fun _ hpiece => length_le_of_mem_chunks hpiece, flatten_filled h, length_chunks h]

theorem eq_of_intercalate {α : Type} {mark : List α} {width : Nat} {words others : List (List α)}
    (hcount : words.length = others.length) (hwords : ∀ word ∈ words, word.length = width)
    (hothers : ∀ word ∈ others, word.length = width)
    (h : mark.intercalate words = mark.intercalate others) : words = others := by
  induction words generalizing others with
  | nil => exact (List.eq_nil_of_length_eq_zero hcount.symm).symm
  | cons word words ih =>
    obtain ⟨other, others, rfl⟩ := List.exists_cons_of_length_eq_add_one hcount.symm
    rw [List.forall_mem_cons] at hwords hothers
    rw [List.length_cons, List.length_cons, Nat.add_right_cancel_iff] at hcount
    by_cases hlast : words = []
    · obtain rfl := hlast
      obtain rfl := List.eq_nil_of_length_eq_zero hcount.symm
      simpa using h
    · have hmore : others ≠ [] := by
        rw [← List.length_pos_iff, ← hcount]
        exact List.length_pos_iff.2 hlast
      rw [List.intercalate_cons_of_ne_nil hlast, List.intercalate_cons_of_ne_nil hmore,
        List.append_assoc, List.append_assoc] at h
      obtain ⟨rfl, hrest⟩ := List.append_inj h (hwords.1.trans hothers.1.symm)
      rw [ih hcount hwords.2 hothers.2 (List.append_cancel_left hrest)]

theorem words_of_intercalate {bytes other : List UInt8} {words others : List String}
    (hwords : Spells group bytes words) (hothers : Spells group other others)
    (hlength : bytes.length = other.length) (h : ", ".intercalate words = ", ".intercalate others) :
    words = others := by
  have hwidth {words : List String} (hwidth : ∀ word ∈ words, word.length = 2 * group) :
      ∀ text ∈ words.map String.toList, text.length = 2 * group := by
    intro text htext
    obtain ⟨word, hword, rfl⟩ := List.mem_map.1 htext
    rw [String.length_toList, hwidth word hword]
  have htexts := congrArg String.toList h
  rw [String.toList_intercalate, String.toList_intercalate] at htexts
  have hinjective : Function.Injective String.toList := fun _ _ => String.toList_injective
  refine List.map_injective_iff.2 hinjective
    (eq_of_intercalate ?_ (hwidth hwords.width) (hwidth hothers.width) htexts)
  rw [List.length_map, List.length_map, hwords.count, hothers.count, hlength]

/-- The words of a table read back give its bytes with zeros up to a whole word, and no other table of its
length has the same text. -/
theorem render_spells (h : group ≠ 0) (bytes : List UInt8) :
    ∃ words, render group bytes = .ok ("memory_initialization_radix=16;\nmemory_initialization_vector=\n" ++
        ", ".intercalate words ++ ";\n") ∧
      Spells group bytes words ∧
      ∀ other, other.length = bytes.length → render group other = render group bytes → other = bytes := by
  have hrender (bytes : List UInt8) : render group bytes =
      .ok (header ++ ", ".intercalate ((chunks group bytes).map (word group)) ++ ";\n") := if_neg h
  have hspells := spells_words h bytes
  refine ⟨_, hrender bytes, hspells, ?_⟩
  intro other hlength hsame
  have hother := spells_words h other
  rw [hrender, hrender] at hsame
  have hjoined := (String.append_right_inj _).1 ((String.append_left_inj _).1 (Except.ok.inj hsame))
  have hwords := words_of_intercalate hother hspells hlength hjoined
  have hread := hother.bytes
  rw [hwords, hspells.bytes, hlength] at hread
  exact (List.append_cancel_right (Except.ok.inj hread)).symm

theorem render_spells_five :
    ∃ words, render 4 [0x01, 0x12, 0x23, 0x34, 0x45] =
        .ok ("memory_initialization_radix=16;\nmemory_initialization_vector=\n" ++
          ", ".intercalate words ++ ";\n") ∧
      Spells 4 [0x01, 0x12, 0x23, 0x34, 0x45] words ∧ words.length = 2 ∧
      readWords 4 words = .ok [0x01, 0x12, 0x23, 0x34, 0x45, 0, 0, 0] ∧
      render 4 [0x01, 0x12, 0x23, 0x34, 0] ≠ render 4 [0x01, 0x12, 0x23, 0x34, 0x45] := by
  obtain ⟨words, hrender, hspells, hother⟩ :=
    render_spells (show 4 ≠ 0 by decide) [0x01, 0x12, 0x23, 0x34, 0x45]
  refine ⟨words, hrender, hspells, hspells.count, hspells.bytes, ?_⟩
  intro hsame
  have hbytes := hother [0x01, 0x12, 0x23, 0x34, 0] rfl hsame
  exact absurd hbytes (by decide)

end Table.Coe

end FpgaCard
