import FpgaCard.LittleEndian.Lemmas
import FpgaCard.Proofs.Checksum
import FpgaCard.Proofs.TableFormat
import FpgaCard.Proofs.Utf8
import FpgaCard.Table.Builder
import Mathlib

/-!
# Tables that were built

What was added to a table and what is read from it. Main statement: a finished table has even length and
checksum zero, and reading it gives an entry for every addition that was taken, in order, unless one of
them has less than its tag calls for.
-/

namespace FpgaCard.Table

open Text

/-! ## What additions stand for -/

/-- A name up to its first zero character. -/
def untilZero (name : String) : String := String.ofList (name.toList.takeWhile (· ≠ '\x00'))

namespace Addition

def entry : Addition → Entry
  | .device name => .device (untilZero name)
  | .region r =>
    if r.base.toNat < 2 ^ 48 ∧ r.length.toNat < 2 ^ 32 then .dma { r with name := untilZero r.name }
    else .dmaExtended { r with name := untilZero r.name }
  | .mask bits => .dmaMask bits
  | .align shift => .dmaAlign shift
  | .raw tag payload => .ofPayload tag payload

/-- Whether an addition has less than its tag calls for. -/
def IsStunted : Addition → Prop
  | .raw tag payload => payload.length < Tag.leastPayload tag
  | _ => False

def bytes (a : Addition) : List UInt8 :=
  a.record.1 :: UInt8.ofNat a.record.2.length :: a.record.2

structure Fits (a : Addition) : Prop where
  tag : a.record.1 ≠ Tag.finish.byte
  length : a.record.2.length ≤ 255

end Addition

/-! ## Payloads -/

theorem nameOf_nameBytes (name : String) : Entry.nameOf (nameBytes name) = untilZero name := by
  rw [Entry.nameOf, nameBytes, Utf8.takeWhile_encode, Utf8.decodeLenient_encode, untilZero]

theorem length_regionBytes (baseWidth lengthWidth : Nat) (r : Region) :
    (regionBytes baseWidth lengthWidth r).length =
      baseWidth + lengthWidth + 1 + (nameBytes r.name).length := by
  simp only [regionBytes, List.length_append, LittleEndian.length_encode, List.length_singleton]

theorem regionOf_regionBytes {baseWidth lengthWidth : Nat} {r : Region}
    (hbase : r.base.toNat < 256 ^ baseWidth) (hlength : r.length.toNat < 256 ^ lengthWidth) :
    Entry.regionOf baseWidth lengthWidth (regionBytes baseWidth lengthWidth r) =
      { r with name := untilZero r.name } := by
  have hsplit : regionBytes baseWidth lengthWidth r =
      LittleEndian.encode baseWidth r.base.toNat ++ (LittleEndian.encode lengthWidth r.length.toNat ++
        r.permissions.bits :: nameBytes r.name) := by
    simp [regionBytes]
  have hskip : (regionBytes baseWidth lengthWidth r).drop (baseWidth + lengthWidth) =
      r.permissions.bits :: nameBytes r.name := by
    rw [← List.drop_drop, hsplit, List.drop_left' (LittleEndian.length_encode _ _),
      List.drop_left' (LittleEndian.length_encode _ _)]
  have hbits : (regionBytes baseWidth lengthWidth r).getD (baseWidth + lengthWidth) 0 =
      r.permissions.bits := by
    rw [List.getD_eq_getElem?_getD, ← List.head?_drop, hskip, List.head?_cons, Option.getD_some]
  have hname : (regionBytes baseWidth lengthWidth r).drop (baseWidth + lengthWidth + 1) =
      nameBytes r.name := by
    rw [← List.drop_drop, hskip, List.drop_one, List.tail_cons]
  rw [Entry.regionOf, hbits, hname, nameOf_nameBytes, hsplit,
    List.take_left' (LittleEndian.length_encode _ _), List.drop_left' (LittleEndian.length_encode _ _),
    List.take_left' (LittleEndian.length_encode _ _), LittleEndian.decode_encode,
    LittleEndian.decode_encode, Nat.mod_eq_of_lt hbase, Nat.mod_eq_of_lt hlength, UInt64.ofNat_toNat,
    UInt64.ofNat_toNat]

theorem isShort_iff (r : Region) :
    isShort r = true ↔ r.base.toNat < 2 ^ 48 ∧ r.length.toNat < 2 ^ 32 := by
  rw [isShort, Bool.and_eq_true, decide_eq_true_iff, decide_eq_true_iff]
  rfl

namespace Addition

theorem ofPayload_record (a : Addition) : Entry.ofPayload a.record.1 a.record.2 = a.entry := by
  cases a with
  | device name => exact congrArg Entry.device (nameOf_nameBytes name)
  | region r =>
    have hbase := r.base.toNat_lt
    have hlength := r.length.toNat_lt
    by_cases hshort : isShort r = true
    · obtain ⟨hbase', hlength'⟩ := (isShort_iff r).1 hshort
      rw [record, entry, if_pos hshort, if_pos ⟨hbase', hlength'⟩]
      exact congrArg Entry.dma (regionOf_regionBytes (by omega) (by omega))
    · rw [record, entry, if_neg hshort, if_neg fun hless => hshort ((isShort_iff r).2 hless)]
      exact congrArg Entry.dmaExtended (regionOf_regionBytes (by omega) (by omega))
  | mask bits => rfl
  | align shift => rfl
  | raw tag payload => rfl

theorem not_isStunted_iff (a : Addition) :
    ¬a.IsStunted ↔ Tag.leastPayload a.record.1 ≤ a.record.2.length := by
  cases a with
  | device name => exact ⟨fun _ => Nat.zero_le _, fun _ => id⟩
  | region r =>
    refine ⟨fun _ => ?_, fun _ => id⟩
    have hdma : Tag.leastPayload Tag.dma.byte = 11 := rfl
    have hextended : Tag.leastPayload Tag.dmaExtended.byte = 17 := rfl
    rw [record]
    split
    · rw [hdma, length_regionBytes]
      omega
    · rw [hextended, length_regionBytes]
      omega
  | mask bits => exact ⟨fun _ => Nat.le_refl 1, fun _ => id⟩
  | align shift => exact ⟨fun _ => Nat.le_refl 1, fun _ => id⟩
  | raw tag payload => exact Nat.not_lt

end Addition

/-! ## The body -/

namespace Builder

/-- The additions that a builder takes; it passes over the others. -/
def taken (b : Builder) : List Addition → List Addition
  | [] => []
  | a :: additions =>
    match b.add a with
    | .ok b' => a :: b'.taken additions
    | .error _ => b.taken additions

theorem add_eq_ok {b b' : Builder} {a : Addition} (h : b.add a = .ok b') :
    a.Fits ∧ b'.body = b.body ++ a.bytes := by
  unfold add addRecord at h
  split at h
  · cases h
  split at h
  · cases h
  · rename_i htag hlong
    cases h
    exact ⟨⟨htag, Nat.le_of_not_lt hlong⟩, rfl⟩

theorem fits_of_mem_taken {b : Builder} {additions : List Addition} :
    ∀ a ∈ b.taken additions, a.Fits := by
  induction additions generalizing b with
  | nil => simp [taken]
  | cons a additions ih =>
    rw [taken]
    cases hadd : b.add a with
    | error e => exact ih
    | ok b' =>
      simp only [List.mem_cons, forall_eq_or_imp]
      exact ⟨(add_eq_ok hadd).1, ih⟩

theorem body_addAll (b : Builder) (additions : List Addition) :
    (b.addAll additions).body = b.body ++ (b.taken additions).flatMap Addition.bytes := by
  induction additions generalizing b with
  | nil => simp [addAll, taken]
  | cons a additions ih =>
    have hstep : b.addAll (a :: additions) = ((b.add a).toOption.getD b).addAll additions := rfl
    rw [hstep, taken]
    cases hadd : b.add a with
    | error e => exact ih b
    | ok b' =>
      rw [show (Except.ok b' : Except CardError Builder).toOption.getD b = b' from rfl, ih,
        (add_eq_ok hadd).2, List.flatMap_cons, List.append_assoc]

/-! ## The seal -/

def markerSize (b : Builder) : UInt8 := if b.body.length % 2 = 0 then 2 else 3

/-- What stands behind the size byte of the end marker: a zero byte if the body is of odd length, and
the checksum. -/
def trailer (b : Builder) : List UInt8 :=
  (if b.body.length % 2 = 0 then [] else [0]) ++
    LittleEndian.encode 2 (Checksum.checksum b.unsealed).toNat

theorem length_trailer (b : Builder) : b.trailer.length = b.markerSize.toNat := by
  rw [trailer, markerSize]
  split <;> simp

theorem sealed_eq (b : Builder) :
    b.sealed = b.body ++ Tag.finish.byte :: b.markerSize :: b.trailer := by
  rw [sealed, unsealed, markerSize, trailer, unsealed]
  split <;> simp

theorem even_length_unsealed (b : Builder) : b.unsealed.length % 2 = 0 := by
  rw [unsealed]
  split <;> simp <;> omega

theorem build_eq_ok {b : Builder} {bytes : List UInt8} (h : b.build = .ok bytes) :
    bytes = b.sealed ∧ b.sealed.length < windowSize := by
  unfold build at h
  split at h
  · cases h
  · rename_i hless
    cases h
    exact ⟨rfl, Nat.lt_of_not_le hless⟩

theorem checksum_sealed {b : Builder} (h : b.sealed.length < windowSize) :
    Checksum.checksum b.sealed = 0 := by
  unfold windowSize at h
  have hlen : b.sealed.length = b.unsealed.length + 2 := by simp [sealed]
  exact Checksum.checksum_append_checksum b.even_length_unsealed (by omega)

end Builder

/-! ## Reading -/

def recordsFrom (offset : Nat) : List Addition → List Record
  | [] => []
  | a :: additions =>
    ⟨offset, a.record.1, a.record.2⟩ :: recordsFrom (Record.next offset a.record.2.length) additions

theorem walk_additions {additions : List Addition} (h : ∀ a ∈ additions, a.Fits) (offset : Nat)
    (rest : List UInt8) :
    walk offset (additions.flatMap Addition.bytes ++ rest) =
      (walk (offset + (additions.flatMap Addition.bytes).length) rest).map fun found =>
        (recordsFrom offset additions ++ found.1, found.2) := by
  induction additions generalizing offset with
  | nil =>
    rw [List.flatMap_nil, List.nil_append, List.length_nil, Nat.add_zero]
    cases walk offset rest <;> rfl
  | cons a additions ih =>
    obtain ⟨htag, hlen⟩ := h a List.mem_cons_self
    have hend : offset + ((a :: additions).flatMap Addition.bytes).length =
        Record.next offset a.record.2.length + (additions.flatMap Addition.bytes).length := by
      simp [Addition.bytes, Record.next]
      omega
    rw [hend, List.flatMap_cons, List.append_assoc, Addition.bytes, List.cons_append, List.cons_append,
      walk_record _ htag hlen, ih fun a' ha' => h a' (List.mem_cons_of_mem a ha')]
    cases walk (Record.next offset a.record.2.length + (additions.flatMap Addition.bytes).length) rest
      <;> rfl

theorem map_recordsFrom {β : Type} (f : UInt8 → List UInt8 → β) (offset : Nat)
    (additions : List Addition) :
    (recordsFrom offset additions).map (fun r => f r.tag r.payload) =
      additions.map fun a => f a.record.1 a.record.2 := by
  induction additions generalizing offset with
  | nil => rfl
  | cons a additions ih => rw [recordsFrom, List.map_cons, List.map_cons, ih]

theorem isWhole_recordsFrom {additions : List Addition} (offset : Nat) :
    (∀ r ∈ recordsFrom offset additions, r.isWhole) ↔ ∀ a ∈ additions, ¬a.IsStunted := by
  induction additions generalizing offset with
  | nil => simp [recordsFrom]
  | cons a additions ih =>
    rw [recordsFrom, List.forall_mem_cons, List.forall_mem_cons, ih, a.not_isStunted_iff]
    rfl

namespace Builder

section

variable {b : Builder} {additions : List Addition}
  (hbody : b.body = magic ++ [version] ++ additions.flatMap Addition.bytes)
  (hfits : ∀ a ∈ additions, a.Fits) (hless : b.sealed.length < windowSize)

include hbody

theorem padded_sealed :
    padded b.sealed = magic ++ [version] ++ (additions.flatMap Addition.bytes ++
      Tag.finish.byte :: b.markerSize ::
        (b.trailer ++ List.replicate (windowSize - b.sealed.length) 0)) := by
  rw [padded]
  conv => lhs; lhs; rw [sealed_eq, hbody]
  simp only [List.append_assoc, List.cons_append]

theorem length_sealed :
    b.sealed.length =
      Record.next (firstRecord + (additions.flatMap Addition.bytes).length) b.markerSize.toNat := by
  rw [sealed_eq, hbody, Record.next]
  simp [length_trailer, magic, firstRecord]
  omega

include hfits hless

theorem walk_sealed :
    walk firstRecord ((padded b.sealed).drop firstRecord) =
      .ok (recordsFrom firstRecord additions, b.sealed.length) := by
  have hsize : b.markerSize = 2 ∨ b.markerSize = 3 := by
    rw [markerSize]
    split
    · exact .inl rfl
    · exact .inr rfl
  have hroom : b.markerSize.toNat <
      (b.trailer ++ List.replicate (windowSize - b.sealed.length) 0).length := by
    rw [List.length_append, length_trailer, List.length_replicate]
    omega
  have hheader : (magic ++ [version]).length = firstRecord := rfl
  rw [padded_sealed hbody, List.drop_left' hheader, walk_additions hfits, walk_marker hsize hroom,
    length_sealed hbody]
  simp [Except.map]

theorem ofBytes_sealed :
    ofBytes b.sealed = (decodeAll (recordsFrom firstRecord additions)).map fun placed =>
      { window := padded b.sealed, length := b.sealed.length, placed, isDefault := false } := by
  have hversion : (padded b.sealed).getD versionOffset 0 = version := by
    rw [padded_sealed hbody]
    rfl
  have hspan : (padded b.sealed).take b.sealed.length = b.sealed := List.take_left
  rw [ofBytes_of_readable ⟨Nat.le_of_lt hless, hversion⟩, walk_sealed hbody hfits hless,
    Except.bind, hspan, if_neg (not_not.2 (checksum_sealed hless))]

end

/-- Reading a finished table gives what was added to it. -/
theorem build_readable {additions : List Addition} {bytes : List UInt8}
    (h : (({} : Builder).addAll additions).build = .ok bytes) :
    bytes.length % 2 = 0 ∧ bytes.length < windowSize ∧ Checksum.checksum bytes = 0 ∧
      ((∃ a ∈ ({} : Builder).taken additions, a.IsStunted) →
        ∃ offset tag reason, ofBytes bytes = .error (.malformedEntry offset tag reason)) ∧
      ((∀ a ∈ ({} : Builder).taken additions, ¬a.IsStunted) →
        ∃ t, ofBytes bytes = .ok t ∧ t.bytes = bytes ∧
          t.entries = (({} : Builder).taken additions).map Addition.entry) := by
  obtain ⟨rfl, hless⟩ := build_eq_ok h
  have hread := ofBytes_sealed (body_addAll {} additions) fits_of_mem_taken hless
  refine ⟨?_, hless, checksum_sealed hless, ?_, ?_⟩
  · rw [sealed, List.length_append, LittleEndian.length_encode, Nat.add_mod_right]
    exact even_length_unsealed _
  · rintro ⟨a, ha, hstunted⟩
    obtain ⟨offset, tag, reason, hdecode⟩ := decodeAll_of_not_whole fun hwhole =>
      (isWhole_recordsFrom firstRecord).1 hwhole a ha hstunted
    rw [hread, hdecode]
    exact ⟨offset, tag, reason, rfl⟩
  · intro hwhole
    rw [hread, decodeAll_of_whole ((isWhole_recordsFrom firstRecord).2 hwhole)]
    refine ⟨_, rfl, List.take_left, ?_⟩
    rw [entries, List.map_map]
    exact (map_recordsFrom Entry.ofPayload firstRecord _).trans
      (List.map_congr_left fun a _ => a.ofPayload_record)

theorem build_readable_four :
    ∃ bytes t, (({} : Builder).addAll [.device "ab", .raw 0 [7],
        .region ⟨"m", 0x1000000000000, 64, .readOnly⟩, .raw 9 [1, 2]]).build = .ok bytes ∧
      ofBytes bytes = .ok t ∧ t.bytes = bytes ∧
      t.entries =
        [.device "ab", .dmaExtended ⟨"m", 0x1000000000000, 64, .readOnly⟩, .unknown 9 [1, 2]] := by
  have hbuild : (({} : Builder).addAll [.device "ab", .raw 0 [7],
      .region ⟨"m", 0x1000000000000, 64, .readOnly⟩, .raw 9 [1, 2]]).build =
        .ok [0x44, 0x49, 0x41, 0x47, 1, 1, 3, 97, 98, 0, 3, 19, 0, 0, 0, 0, 0, 0, 1, 0,
          64, 0, 0, 0, 0, 0, 0, 0, 4, 109, 0, 9, 2, 1, 2, 0, 3, 0, 196, 130] := by decide +kernel
  have htaken : ({} : Builder).taken [.device "ab", .raw 0 [7],
      .region ⟨"m", 0x1000000000000, 64, .readOnly⟩, .raw 9 [1, 2]] =
        [.device "ab", .region ⟨"m", 0x1000000000000, 64, .readOnly⟩, .raw 9 [1, 2]] := by
    decide +kernel
  obtain ⟨-, -, -, -, hread⟩ := build_readable hbuild
  rw [htaken] at hread
  have hwhole : ∀ a ∈ [Addition.device "ab", .region ⟨"m", 0x1000000000000, 64, .readOnly⟩,
      .raw 9 [1, 2]], ¬a.IsStunted := by
    intro a ha
    simp only [List.mem_cons, List.not_mem_nil, or_false] at ha
    obtain rfl | rfl | rfl := ha
    · exact id
    · exact id
    · exact Nat.not_lt_zero 2
  obtain ⟨t, ht, hbytes, hentries⟩ := hread hwhole
  exact ⟨_, t, hbuild, ht, hbytes, by rw [hentries]; decide +kernel⟩

end Builder

end FpgaCard.Table
