import FpgaCard.Proofs.LenientText
import FpgaCard.Table.Entry
import FpgaCard.LittleEndian.Lemmas
import Mathlib

/-!
# The payload format

What the payload of each tag holds: numbers with their low bytes first, a byte of permissions, and a name
that ends at the first zero byte. Main statement: an entry is what the record says if and only if it is the
one that is decoded from a payload with the fixed part of its tag.
-/

namespace FpgaCard

/-! ## Tags -/

theorem Tag.ofByte?_eq_some {byte : UInt8} {tag : Tag} : ofByte? byte = some tag ↔ byte = tag.byte := by
  constructor
  · intro h
    unfold ofByte? at h
    split at h <;> cases h <;> rfl
  · rintro rfl
    exact ofByte?_byte tag

theorem Tag.ne_byte {byte : UInt8} (h : ofByte? byte = none) (tag : Tag) : byte ≠ tag.byte := by
  rintro rfl
  rw [ofByte?_byte] at h
  cases h

theorem Tag.byte_cases {motive : UInt8 → Prop} (known : ∀ tag : Tag, motive tag.byte)
    (other : ∀ byte, ofByte? byte = none → motive byte) (byte : UInt8) : motive byte := by
  cases h : ofByte? byte with
  | none => exact other byte h
  | some tag =>
    rw [ofByte?_eq_some] at h
    rw [h]
    exact known tag

/-! ## Fields -/

/-- The number in the `width` bytes from `start`, the first of them the least significant. -/
def numberAt (payload : List UInt8) (start width : Nat) : Nat :=
  ∑ i ∈ Finset.range width, (payload.getD (start + i) 0).toNat * 256 ^ i

/-- The name that stands at the front of `bytes`, up to the first zero byte or to their end. -/
def NameIn (bytes : List UInt8) (name : String) : Prop :=
  ∃ letters, 0 ∉ letters ∧ Text.Utf8.Lenient letters name.toList ∧
    (bytes = letters ∨ ∃ behind, bytes = letters ++ 0 :: behind)

/-- A base, a length, a byte of permissions and a name, one behind the other. -/
structure RegionIn (payload : List UInt8) (baseWidth lengthWidth : Nat) (r : Region) : Prop where
  base : r.base.toNat = numberAt payload 0 baseWidth
  length : r.length.toNat = numberAt payload baseWidth lengthWidth
  permissions : payload[baseWidth + lengthWidth]? = some r.permissions.bits
  name : NameIn (payload.drop (baseWidth + lengthWidth + 1)) r.name

/-- What a record with this tag and this payload says. -/
inductive Says : UInt8 → List UInt8 → Entry → Prop where
  | device {payload : List UInt8} {name : String} : NameIn payload name → Says 1 payload (.device name)
  | dma {payload : List UInt8} {r : Region} : RegionIn payload 6 4 r → Says 2 payload (.dma r)
  | dmaExtended {payload : List UInt8} {r : Region} : RegionIn payload 8 8 r → Says 3 payload (.dmaExtended r)
  | dmaMask (bits : UInt8) (behind : List UInt8) : Says 4 (bits :: behind) (.dmaMask bits)
  | dmaAlign (shift : UInt8) (behind : List UInt8) : Says 5 (shift :: behind) (.dmaAlign shift)
  | unknown {tag : UInt8} (payload : List UInt8) : 5 < tag → Says tag payload (.unknown tag payload)

def leastFor (tag : UInt8) : Nat :=
  if tag = 2 then 11 else if tag = 3 then 17 else if tag = 4 ∨ tag = 5 then 1 else 0

/-! ## Decoding -/

theorem leastPayload_eq (tag : UInt8) : Tag.leastPayload tag = leastFor tag := by
  have hall : ∀ tag : UInt8, Tag.leastPayload tag = leastFor tag := by decide +kernel
  exact hall tag

theorem numberAt_eq (payload : List UInt8) (start width : Nat) :
    numberAt payload start width = LittleEndian.decode ((payload.drop start).take width) := by
  induction width with
  | zero => rfl
  | succ width ih =>
    have hlast : payload.getD (start + width) 0 = (payload.drop start).getD width 0 := by
      rw [List.getD_eq_getElem?_getD, List.getD_eq_getElem?_getD, List.getElem?_drop]
    rw [numberAt, Finset.sum_range_succ, ← numberAt, ih, hlast]
    generalize payload.drop start = bytes
    by_cases hshort : width < bytes.length
    · rw [List.take_add_one, List.getElem?_eq_getElem hshort, Option.toList_some,
        LittleEndian.decode_concat, List.length_take_of_le (Nat.le_of_lt hshort),
        List.getD_eq_getElem _ _ hshort, Nat.mul_comm]
    · rw [List.take_of_length_le (by omega), List.take_of_length_le (by omega),
        List.getD_eq_default _ _ (by omega)]
      simp

theorem numberAt_lt (payload : List UInt8) (start : Nat) {width : Nat} (h : width ≤ 8) :
    numberAt payload start width < 2 ^ 64 := by
  have hwidth : ((payload.drop start).take width).length ≤ 8 := by
    rw [List.length_take]
    omega
  calc numberAt payload start width
      = LittleEndian.decode ((payload.drop start).take width) := numberAt_eq ..
    _ < 256 ^ ((payload.drop start).take width).length := LittleEndian.decode_lt _
    _ ≤ 256 ^ 8 := Nat.pow_le_pow_right (by omega) hwidth

theorem nameIn_iff {bytes : List UInt8} {name : String} : NameIn bytes name ↔ Entry.nameOf bytes = name := by
  have hbefore : ∀ letters : List UInt8, 0 ∉ letters → ∀ b ∈ letters, (b != 0) = true := by
    rintro letters hzero b hb
    exact bne_iff_ne.2 fun h => hzero (h ▸ hb)
  unfold Entry.nameOf
  constructor
  · rintro ⟨letters, hzero, htext, rfl | ⟨behind, rfl⟩⟩
    · rw [List.takeWhile_eq_self_iff.2 (hbefore bytes hzero)]
      exact Text.Utf8.lenient_iff.1 htext
    · rw [List.takeWhile_append_of_pos (hbefore letters hzero), List.takeWhile_cons_of_neg (by simp),
        List.append_nil]
      exact Text.Utf8.lenient_iff.1 htext
  · intro h
    refine ⟨bytes.takeWhile (· != 0), fun hzero => ?_, Text.Utf8.lenient_iff.2 h, ?_⟩
    · simpa using List.mem_takeWhile_imp (p := (· != 0)) hzero
    · have hsplit := List.takeWhile_append_dropWhile (p := (· != 0)) (l := bytes)
      cases hbehind : bytes.dropWhile (· != 0) with
      | nil => exact .inl (by rw [hbehind, List.append_nil] at hsplit; exact hsplit.symm)
      | cons b behind =>
        have hb : b = 0 := by
          have hhead := List.head_dropWhile_not (· != 0) (show bytes.dropWhile (· != 0) ≠ [] by simp [hbehind])
          simpa [hbehind] using hhead
        rw [hbehind, hb] at hsplit
        exact .inr ⟨behind, hsplit.symm⟩

theorem nameIn_encode {name : String} (h : '\x00' ∉ name.toList) (behind : List UInt8) :
    NameIn (Text.Utf8.encode name ++ 0 :: behind) name := by
  refine ⟨_, fun hzero => ?_, Text.Utf8.lenient_iff.2 (Text.Utf8.decodeLenient_encode name), .inr ⟨behind, rfl⟩⟩
  rw [Text.Utf8.encode_eq, List.mem_flatMap] at hzero
  obtain ⟨c, hc, hzero⟩ := hzero
  exact Text.Utf8.ne_zero_of_mem_encodeChar (fun hnul => h (hnul ▸ hc)) hzero rfl

theorem regionIn_iff {payload : List UInt8} {baseWidth lengthWidth : Nat} {r : Region} (hbase : baseWidth ≤ 8)
    (hlength : lengthWidth ≤ 8) (hfixed : baseWidth + lengthWidth < payload.length) :
    RegionIn payload baseWidth lengthWidth r ↔ Entry.regionOf baseWidth lengthWidth payload = r := by
  have hnumber (n : Nat) (hn : n < 2 ^ 64) (word : UInt64) : word.toNat = n ↔ UInt64.ofNat n = word := by
    rw [← UInt64.toNat_inj, UInt64.toNat_ofNat_of_lt' hn, eq_comm]
  have hpermission : payload[baseWidth + lengthWidth]? = some (payload.getD (baseWidth + lengthWidth) 0) := by
    rw [List.getD_eq_getElem _ _ hfixed, List.getElem?_eq_getElem hfixed]
  have hbaseOf := numberAt_eq payload 0 baseWidth
  rw [List.drop_zero] at hbaseOf
  constructor
  · intro h
    have hbits := h.permissions
    rw [hpermission, Option.some.injEq] at hbits
    rw [Entry.regionOf, ← hbaseOf, ← numberAt_eq,
      (hnumber _ (numberAt_lt payload 0 hbase) _).1 h.base,
      (hnumber _ (numberAt_lt payload baseWidth hlength) _).1 h.length, hbits, nameIn_iff.1 h.name]
  · rintro rfl
    constructor
    case base => exact (hnumber _ (numberAt_lt payload 0 hbase) _).2 (by rw [hbaseOf]; rfl)
    case length =>
      exact (hnumber _ (numberAt_lt payload baseWidth hlength) _).2 (by rw [numberAt_eq]; rfl)
    case permissions => exact hpermission
    case name => exact nameIn_iff.2 rfl

theorem Tag.ofByte?_eq_none {byte : UInt8} : ofByte? byte = none ↔ 5 < byte := by
  have hall : ∀ byte : UInt8, ofByte? byte = none ↔ 5 < byte := by decide +kernel
  exact hall byte

/-- An entry is what the record says if and only if it is the one that is decoded. -/
theorem says_iff {tag : UInt8} {payload : List UInt8} {entry : Entry} (htag : tag ≠ 0)
    (hleast : leastFor tag ≤ payload.length) :
    Says tag payload entry ↔ Entry.ofPayload tag payload = entry := by
  constructor
  · intro h
    cases h with
    | device hname => exact congrArg Entry.device (nameIn_iff.1 hname)
    | dma hregion =>
      exact congrArg Entry.dma ((regionIn_iff (by omega) (by omega) hleast).1 hregion)
    | dmaExtended hregion =>
      exact congrArg Entry.dmaExtended ((regionIn_iff (by omega) (by omega) hleast).1 hregion)
    | dmaMask bits behind => rfl
    | dmaAlign shift behind => rfl
    | unknown _ hunknown => rw [Entry.ofPayload, Tag.ofByte?_eq_none.2 hunknown]
  · rintro rfl
    cases tag using Tag.byte_cases with
    | known tag =>
      cases tag with
      | finish => exact absurd rfl htag
      | device => exact .device (nameIn_iff.2 rfl)
      | dma => exact .dma ((regionIn_iff (by omega) (by omega) hleast).2 rfl)
      | dmaExtended => exact .dmaExtended ((regionIn_iff (by omega) (by omega) hleast).2 rfl)
      | dmaMask =>
        obtain ⟨bits, behind, rfl⟩ := List.exists_cons_of_length_pos hleast
        exact .dmaMask bits behind
      | dmaAlign =>
        obtain ⟨shift, behind, rfl⟩ := List.exists_cons_of_length_pos hleast
        exact .dmaAlign shift behind
    | other tag hnone =>
      rw [Entry.ofPayload, hnone]
      exact .unknown payload (Tag.ofByte?_eq_none.1 hnone)

end FpgaCard
