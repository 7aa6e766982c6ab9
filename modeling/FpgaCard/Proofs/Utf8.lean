import FpgaCard.Text.Utf8
import Mathlib

/-!
# Characters and their bytes

The lenient reading of UTF-8 gives back every text that was written. Main statements: this, and that a
text cut at its first zero character is what stands in its bytes before the first zero byte.
-/

namespace FpgaCard.Text.Utf8

/-! ## One character -/

def InRange (range : Nat × Nat) (b : UInt8) : Prop := range.1 ≤ b.toNat ∧ b.toNat ≤ range.2

/-- The bits of one more byte, put behind those before it. -/
def shiftIn (value : Nat) (b : UInt8) : Nat := value * 64 + (b.toNat - 0x80)

theorem shiftIn_ofNat (value : Nat) {n : Nat} (h : n < 64) :
    shiftIn value (UInt8.ofNat (n + 128)) = value * 64 + n := by
  have htoNat : (UInt8.ofNat (n + 128)).toNat = n + 128 :=
    UInt8.toNat_ofNat_of_lt' (by show n + 128 < 256; omega)
  unfold shiftIn
  omega

theorem follow_append (value : Nat) {ranges : List (Nat × Nat)} {run : List UInt8} (rest : List UInt8)
    (h : List.Forall₂ InRange ranges run) :
    follow value ranges (run ++ rest) = (some (run.foldl shiftIn value), rest) := by
  induction h generalizing value with
  | nil => rfl
  | @cons range b ranges run hb hrun ih =>
    have hfollow : follow value (range :: ranges) (b :: (run ++ rest)) =
        follow (shiftIn value b) ranges (run ++ rest) := if_pos hb
    rw [List.cons_append, hfollow, ih, List.foldl_cons]

theorem shape?_one {v : Nat} (h : v ≤ 127) : shape? (UInt8.ofNat v) = some (v, []) := by
  have htoNat : (UInt8.ofNat v).toNat = v := UInt8.toNat_ofNat_of_lt' (by show v < 256; omega)
  simp only [shape?, htoNat]
  rw [if_pos (by omega)]

theorem shape?_two {v : Nat} (h1 : ¬v ≤ 127) (h : v ≤ 2047) :
    shape? (UInt8.ofNat (v / 64 % 32 + 192)) = some (v / 64, [(0x80, 0xbf)]) := by
  have htoNat : (UInt8.ofNat (v / 64 % 32 + 192)).toNat = v / 64 + 192 := by
    rw [UInt8.toNat_ofNat']
    omega
  simp only [shape?, htoNat]
  rw [if_neg (by omega), if_neg (by omega), if_pos (by omega), Nat.add_sub_cancel]

theorem shape?_three {v : Nat} (h2 : ¬v ≤ 2047) (h : v ≤ 65535) (hvalid : v < 0xd800 ∨ 0xdfff < v) :
    ∃ low high, shape? (UInt8.ofNat (v / 4096 % 16 + 224)) =
        some (v / 4096, [(low, high), (0x80, 0xbf)]) ∧
      low ≤ v / 64 % 64 + 128 ∧ v / 64 % 64 + 128 ≤ high := by
  have htoNat : (UInt8.ofNat (v / 4096 % 16 + 224)).toNat = v / 4096 + 224 := by
    rw [UInt8.toNat_ofNat']
    omega
  simp only [shape?, htoNat]
  rw [if_neg (by omega), if_neg (by omega), if_neg (by omega)]
  by_cases he0 : v / 4096 = 0
  · exact ⟨0xa0, 0xbf, by rw [if_pos (by omega), he0], by omega, by omega⟩
  by_cases hed : v / 4096 = 0xd
  · refine ⟨0x80, 0x9f, ?_, by omega, by omega⟩
    rw [if_neg (by omega), if_pos (by omega), hed]
  · refine ⟨0x80, 0xbf, ?_, by omega, by omega⟩
    rw [if_neg (by omega), if_neg (by omega), if_pos (by omega), Nat.add_sub_cancel]

theorem shape?_four {v : Nat} (h3 : ¬v ≤ 65535) (h : v < 0x110000) :
    ∃ low high, shape? (UInt8.ofNat (v / 262144 % 8 + 240)) =
        some (v / 262144, [(low, high), (0x80, 0xbf), (0x80, 0xbf)]) ∧
      low ≤ v / 4096 % 64 + 128 ∧ v / 4096 % 64 + 128 ≤ high := by
  have htoNat : (UInt8.ofNat (v / 262144 % 8 + 240)).toNat = v / 262144 + 240 := by
    rw [UInt8.toNat_ofNat']
    omega
  simp only [shape?, htoNat]
  rw [if_neg (by omega), if_neg (by omega), if_neg (by omega), if_neg (by omega), if_neg (by omega),
    if_neg (by omega)]
  by_cases hf0 : v / 262144 = 0
  · exact ⟨0x90, 0xbf, by rw [if_pos (by omega), hf0], by omega, by omega⟩
  by_cases hf4 : v / 262144 = 4
  · refine ⟨0x80, 0x8f, ?_, by omega, by omega⟩
    rw [if_neg (by omega), if_neg (by omega), if_pos (by omega), hf4]
  · refine ⟨0x80, 0xbf, ?_, by omega, by omega⟩
    rw [if_neg (by omega), if_pos (by omega), Nat.add_sub_cancel]

/-- The bytes of a character have the shape that its leading byte tells, and the character is what a walk
along it puts together. -/
theorem exists_shape (c : Char) : ∃ lead tail value ranges, String.utf8EncodeChar c = lead :: tail ∧
    shape? lead = some (value, ranges) ∧ List.Forall₂ InRange ranges tail ∧
    tail.foldl shiftIn value = c.toNat := by
  have hvalid : c.toNat < 0xd800 ∨ 0xdfff < c.toNat ∧ c.toNat < 0x110000 := c.valid
  have hval : c.val.toNat = c.toNat := rfl
  have hrange {low high n : Nat} (hn : n < 256) (hlow : low ≤ n) (hhigh : n ≤ high) :
      InRange (low, high) (UInt8.ofNat n) := by
    have htoNat : (UInt8.ofNat n).toNat = n := UInt8.toNat_ofNat_of_lt' hn
    unfold InRange
    rw [htoNat]
    exact ⟨hlow, hhigh⟩
  rw [String.utf8EncodeChar.eq_1, hval]
  split
  · rename_i h
    exact ⟨_, _, _, _, rfl, shape?_one h, .nil, rfl⟩
  split
  · rename_i h1 h
    have hvalue : [UInt8.ofNat (c.toNat % 64 + 128)].foldl shiftIn (c.toNat / 64) = c.toNat := by
      rw [List.foldl_cons, List.foldl_nil, shiftIn_ofNat _ (by omega)]
      omega
    refine ⟨_, _, _, _, rfl, shape?_two h1 h, .cons ?_ .nil, hvalue⟩
    exact hrange (by omega) (by omega) (by omega)
  split
  · rename_i h1 h2 h
    obtain ⟨low, high, hshape, hlow, hhigh⟩ := shape?_three h2 h (by omega)
    have hvalue : [UInt8.ofNat (c.toNat / 64 % 64 + 128), UInt8.ofNat (c.toNat % 64 + 128)].foldl shiftIn
        (c.toNat / 4096) = c.toNat := by
      rw [List.foldl_cons, List.foldl_cons, List.foldl_nil, shiftIn_ofNat _ (by omega),
        shiftIn_ofNat _ (by omega)]
      omega
    refine ⟨_, _, _, _, rfl, hshape, .cons (hrange (by omega) hlow hhigh) (.cons ?_ .nil), hvalue⟩
    exact hrange (by omega) (by omega) (by omega)
  · rename_i h1 h2 h3
    obtain ⟨low, high, hshape, hlow, hhigh⟩ := shape?_four h3 (by omega)
    have hvalue : [UInt8.ofNat (c.toNat / 4096 % 64 + 128), UInt8.ofNat (c.toNat / 64 % 64 + 128),
        UInt8.ofNat (c.toNat % 64 + 128)].foldl shiftIn (c.toNat / 262144) = c.toNat := by
      rw [List.foldl_cons, List.foldl_cons, List.foldl_cons, List.foldl_nil, shiftIn_ofNat _ (by omega),
        shiftIn_ofNat _ (by omega), shiftIn_ofNat _ (by omega)]
      omega
    refine ⟨_, _, _, _, rfl, hshape, .cons (hrange (by omega) hlow hhigh) (.cons ?_ (.cons ?_ .nil)), hvalue⟩
    · exact hrange (by omega) (by omega) (by omega)
    · exact hrange (by omega) (by omega) (by omega)

theorem scan_cons {lead : UInt8} {value : Nat} {ranges : List (Nat × Nat)} {rest : List UInt8}
    (hshape : shape? lead = some (value, ranges)) :
    scan (lead :: rest) =
      (follow value ranges rest).1.map Char.ofNat :: scan (follow value ranges rest).2 := by
  rw [scan, hshape]

theorem scan_encodeChar (c : Char) (rest : List UInt8) :
    scan (String.utf8EncodeChar c ++ rest) = some c :: scan rest := by
  obtain ⟨lead, tail, value, ranges, hencode, hshape, htail, hvalue⟩ := exists_shape c
  rw [hencode, List.cons_append, scan_cons hshape, follow_append value rest htail, hvalue, Option.map_some,
    Char.ofNat_toNat]

theorem ne_zero_of_mem_encodeChar {c : Char} (hc : c ≠ '\x00') {b : UInt8}
    (hb : b ∈ String.utf8EncodeChar c) : b ≠ 0 := by
  have hpos : c.toNat ≠ 0 := by
    intro hzero
    have hself := Char.ofNat_toNat c
    rw [hzero] at hself
    exact hc hself.symm
  have hval : c.val.toNat = c.toNat := rfl
  rw [String.utf8EncodeChar.eq_1, hval] at hb
  intro hzero
  subst hzero
  have hne {n : Nat} (hpos : 0 < n) (hlt : n < 256) : (0 : UInt8) ≠ UInt8.ofNat n := by
    intro heq
    have htoNat := congrArg UInt8.toNat heq
    rw [UInt8.toNat_ofNat'] at htoNat
    simp at htoNat
    omega
  repeat' split at hb
  all_goals
    simp only [List.mem_cons, List.not_mem_nil, or_false] at hb
  · exact hne (by omega) (by omega) hb
  · obtain hb | hb := hb <;> exact hne (by omega) (by omega) hb
  · obtain hb | hb | hb := hb <;> exact hne (by omega) (by omega) hb
  · obtain hb | hb | hb | hb := hb <;> exact hne (by omega) (by omega) hb

/-! ## Texts -/

theorem encode_eq (text : String) : encode text = text.toList.flatMap String.utf8EncodeChar := by
  show text.toByteArray.data.toList = _
  rw [← String.utf8Encode_toList, List.utf8Encode]
  exact List.toList_data_toByteArray

theorem scan_encode (text : String) : scan (encode text) = text.toList.map some := by
  rw [encode_eq]
  induction text.toList with
  | nil => rw [List.flatMap_nil, scan, List.map_nil]
  | cons c cs ih => rw [List.flatMap_cons, scan_encodeChar, ih, List.map_cons]

theorem decodeLenient_encode (text : String) : decodeLenient (encode text) = text := by
  rw [decodeLenient, scan_encode, List.map_map]
  exact (congrArg String.ofList (List.map_id _)).trans String.ofList_toList

theorem takeWhile_encode (text : String) :
    (encode text ++ [0]).takeWhile (· != 0) =
      encode (String.ofList (text.toList.takeWhile (· ≠ '\x00'))) := by
  rw [encode_eq, encode_eq, String.toList_ofList]
  induction text.toList with
  | nil => rfl
  | cons c cs ih =>
    rw [List.flatMap_cons, List.append_assoc]
    by_cases hc : c = '\x00'
    · subst hc
      rfl
    · have hbytes : ∀ b ∈ String.utf8EncodeChar c, (b != 0) = true := by
        intro b hb
        simpa using ne_zero_of_mem_encodeChar hc hb
      rw [List.takeWhile_append_of_pos hbytes, ih, List.takeWhile_cons_of_pos (by simpa using hc),
        List.flatMap_cons]

end FpgaCard.Text.Utf8
