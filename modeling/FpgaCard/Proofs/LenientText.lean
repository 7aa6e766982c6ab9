import FpgaCard.Proofs.Utf8
import Mathlib

/-!
# Bytes that are no characters

The lenient reading puts one mark for each longest run that could have begun a character, and one for each
byte that begins none. Main statement: the text it gives is the one that the bytes stand for.
-/

namespace FpgaCard.Text.Utf8

/-! ## Faults -/

/-- Some character's bytes begin with these. -/
def Begins (run : List UInt8) : Prop := ∃ c : Char, run <+: String.utf8EncodeChar c

/-- The text that bytes stand for. A fault is the longest run that begins a character without ending it,
or one byte that begins none. -/
inductive Lenient : List UInt8 → List Char → Prop where
  | nil : Lenient [] []
  | char (c : Char) {rest : List UInt8} {text : List Char} : Lenient rest text →
      Lenient (String.utf8EncodeChar c ++ rest) (c :: text)
  | fault {run rest : List UInt8} {text : List Char} : run ≠ [] → Begins run ∨ run.length = 1 →
      (∀ c, ¬String.utf8EncodeChar c <+: run ++ rest) → (∀ b, [b] <+: rest → ¬Begins (run ++ [b])) →
      Lenient rest text → Lenient (run ++ rest) ('\ufffd' :: text)

theorem Begins.of_prefix {run longer : List UInt8} (h : Begins longer) (hrun : run <+: longer) :
    Begins run :=
  h.imp fun _ hc => hrun.trans hc

theorem utf8EncodeChar_ne_nil (c : Char) : String.utf8EncodeChar c ≠ [] := by
  rw [String.utf8EncodeChar.eq_1]
  repeat' split
  all_goals exact List.cons_ne_nil _ _

theorem utf8EncodeChar_append_inj {c c' : Char} {rest rest' : List UInt8}
    (h : String.utf8EncodeChar c ++ rest = String.utf8EncodeChar c' ++ rest') : c = c' ∧ rest = rest' := by
  have hscan := congrArg scan h
  rw [scan_encodeChar, scan_encodeChar, List.cons.injEq, Option.some.injEq] at hscan
  obtain ⟨rfl, -⟩ := hscan
  exact ⟨rfl, List.append_cancel_left h⟩

/-- Of two runs at the front of the same bytes, one that cannot go on is the longer. -/
theorem length_le_of_ends {run rest run' rest' : List UInt8} (h : run ++ rest = run' ++ rest')
    (hends : ∀ b, [b] <+: rest → ¬Begins (run ++ [b])) (hrun : run ≠ [])
    (hrun' : Begins run' ∨ run'.length = 1) : run'.length ≤ run.length := by
  by_contra hless
  have hpos : 0 < run.length := List.length_pos_of_ne_nil hrun
  have hbegins : Begins run' := hrun'.resolve_right (by omega)
  obtain ⟨more, rfl⟩ : run <+: run' := by
    refine List.prefix_of_prefix_length_le (List.prefix_append run rest) ?_ (by omega)
    rw [h]
    exact List.prefix_append run' rest'
  rw [List.append_assoc, List.append_cancel_left_eq] at h
  cases more with
  | nil => simp at hless
  | cons b more =>
    refine hends b ?_ (hbegins.of_prefix ?_)
    · rw [h]
      exact ⟨more ++ rest', rfl⟩
    · exact ⟨more, by simp⟩

theorem Lenient.unique {bytes bytes' : List UInt8} {text text' : List Char} (h : Lenient bytes text)
    (h' : Lenient bytes' text') (heq : bytes = bytes') : text = text' := by
  induction h generalizing bytes' text' with
  | nil =>
    cases h' with
    | nil => rfl
    | char c' =>
      exact absurd (List.append_eq_nil_iff.1 heq.symm).1 (utf8EncodeChar_ne_nil c')
    | fault hrun' => exact absurd (List.append_eq_nil_iff.1 heq.symm).1 hrun'
  | char c hrest ih =>
    cases h' with
    | nil => exact absurd (List.append_eq_nil_iff.1 heq).1 (utf8EncodeChar_ne_nil c)
    | char c' hrest' =>
      obtain ⟨rfl, hsame⟩ := utf8EncodeChar_append_inj heq
      rw [ih hrest' hsame]
    | fault _ _ hnone' => exact absurd (heq ▸ List.prefix_append _ _) (hnone' c)
  | @fault run rest text hrun hkind hnone hends hrest ih =>
    cases h' with
    | nil => exact absurd (List.append_eq_nil_iff.1 heq).1 hrun
    | char c' => exact absurd (heq ▸ List.prefix_append _ _) (hnone c')
    | fault hrun' hkind' _ hends' hrest' =>
      have hlength := Nat.le_antisymm (length_le_of_ends heq.symm hends' hrun' hkind)
        (length_le_of_ends heq hends hrun hkind')
      rw [ih hrest' (List.append_inj heq hlength).2]

theorem ofNat_eq {n : Nat} {b : UInt8} (h : n = b.toNat) : UInt8.ofNat n = b := by
  rw [h, UInt8.ofNat_toNat]

theorem toNat_val_ofNat {v : Nat} (h : v.isValidChar) : (Char.ofNat v).val.toNat = v := by
  rw [Char.ofNat, dif_pos h]
  rfl

section

variable {lead b₁ b₂ b₃ : UInt8}

theorem exists_two (hlead : 0xc2 ≤ lead.toNat ∧ lead.toNat < 0xe0) (h₁ : InRange (0x80, 0xbf) b₁) :
    ∃ c, String.utf8EncodeChar c = [lead, b₁] := by
  unfold InRange at h₁
  let v := (lead.toNat - 0xc0) * 64 + (b₁.toNat - 0x80)
  have hv : v = (lead.toNat - 0xc0) * 64 + (b₁.toNat - 0x80) := rfl
  refine ⟨Char.ofNat v, ?_⟩
  rw [String.utf8EncodeChar.eq_1, toNat_val_ofNat (.inl (by omega)), if_neg (by omega), if_pos (by omega),
    ofNat_eq (b := lead) (by omega), ofNat_eq (b := b₁) (by omega)]

theorem exists_three (hlead : 0xe0 ≤ lead.toNat ∧ lead.toNat < 0xf0) (h₁ : InRange (0x80, 0xbf) b₁)
    (hlow : lead.toNat = 0xe0 → 0xa0 ≤ b₁.toNat) (hhigh : lead.toNat = 0xed → b₁.toNat ≤ 0x9f)
    (h₂ : InRange (0x80, 0xbf) b₂) : ∃ c, String.utf8EncodeChar c = [lead, b₁, b₂] := by
  unfold InRange at h₁ h₂
  let v := (lead.toNat - 0xe0) * 4096 + (b₁.toNat - 0x80) * 64 + (b₂.toNat - 0x80)
  have hv : v = (lead.toNat - 0xe0) * 4096 + (b₁.toNat - 0x80) * 64 + (b₂.toNat - 0x80) := rfl
  have hvalid : v.isValidChar := by
    show v < 0xd800 ∨ 0xdfff < v ∧ v < 0x110000
    omega
  refine ⟨Char.ofNat v, ?_⟩
  rw [String.utf8EncodeChar.eq_1, toNat_val_ofNat hvalid, if_neg (by omega), if_neg (by omega),
    if_pos (by omega), ofNat_eq (b := lead) (by omega), ofNat_eq (b := b₁) (by omega),
    ofNat_eq (b := b₂) (by omega)]

theorem exists_four (hlead : 0xf0 ≤ lead.toNat ∧ lead.toNat < 0xf5) (h₁ : InRange (0x80, 0xbf) b₁)
    (hlow : lead.toNat = 0xf0 → 0x90 ≤ b₁.toNat) (hhigh : lead.toNat = 0xf4 → b₁.toNat ≤ 0x8f)
    (h₂ : InRange (0x80, 0xbf) b₂) (h₃ : InRange (0x80, 0xbf) b₃) :
    ∃ c, String.utf8EncodeChar c = [lead, b₁, b₂, b₃] := by
  unfold InRange at h₁ h₂ h₃
  let v := (lead.toNat - 0xf0) * 262144 + (b₁.toNat - 0x80) * 4096 + (b₂.toNat - 0x80) * 64 +
    (b₃.toNat - 0x80)
  have hv : v = (lead.toNat - 0xf0) * 262144 + (b₁.toNat - 0x80) * 4096 + (b₂.toNat - 0x80) * 64 +
    (b₃.toNat - 0x80) := rfl
  have hvalid : v.isValidChar := .inr ⟨by omega, by omega⟩
  refine ⟨Char.ofNat v, ?_⟩
  rw [String.utf8EncodeChar.eq_1, toNat_val_ofNat hvalid, if_neg (by omega), if_neg (by omega),
    if_neg (by omega), ofNat_eq (b := lead) (by omega), ofNat_eq (b := b₁) (by omega),
    ofNat_eq (b := b₂) (by omega), ofNat_eq (b := b₃) (by omega)]

end

theorem exists_char {lead : UInt8} {value : Nat} {ranges : List (Nat × Nat)} {tail : List UInt8}
    (hshape : shape? lead = some (value, ranges)) (htail : List.Forall₂ InRange ranges tail) :
    ∃ c, String.utf8EncodeChar c = lead :: tail := by
  have hwide {low high : Nat} {b : UInt8} (h : InRange (low, high) b) (hlow : 0x80 ≤ low)
      (hhigh : high ≤ 0xbf) : InRange (0x80, 0xbf) b := ⟨hlow.trans h.1, h.2.trans hhigh⟩
  unfold shape? at hshape
  simp only at hshape
  split at hshape
  case isTrue h =>
    obtain ⟨-, rfl⟩ := Prod.mk.inj (Option.some.inj hshape)
    cases htail
    refine ⟨Char.ofNat lead.toNat, ?_⟩
    rw [String.utf8EncodeChar.eq_1, toNat_val_ofNat (.inl (by omega)), if_pos (by omega),
      UInt8.ofNat_toNat]
  split at hshape
  case isTrue => cases hshape
  split at hshape
  case isTrue =>
    obtain ⟨-, rfl⟩ := Prod.mk.inj (Option.some.inj hshape)
    obtain - | ⟨h₁, - | _⟩ := htail
    exact exists_two (by omega) h₁
  split at hshape
  case isTrue =>
    obtain ⟨-, rfl⟩ := Prod.mk.inj (Option.some.inj hshape)
    obtain - | ⟨h₁, - | ⟨h₂, - | _⟩⟩ := htail
    exact exists_three (by omega) (hwide h₁ (by omega) (by omega)) (fun _ => h₁.1) (by omega) h₂
  split at hshape
  case isTrue =>
    obtain ⟨-, rfl⟩ := Prod.mk.inj (Option.some.inj hshape)
    obtain - | ⟨h₁, - | ⟨h₂, - | _⟩⟩ := htail
    exact exists_three (by omega) (hwide h₁ (by omega) (by omega)) (by omega) (fun _ => h₁.2) h₂
  split at hshape
  case isTrue =>
    obtain ⟨-, rfl⟩ := Prod.mk.inj (Option.some.inj hshape)
    obtain - | ⟨h₁, - | ⟨h₂, - | _⟩⟩ := htail
    exact exists_three (by omega) h₁ (by omega) (by omega) h₂
  split at hshape
  case isTrue =>
    obtain ⟨-, rfl⟩ := Prod.mk.inj (Option.some.inj hshape)
    obtain - | ⟨h₁, - | ⟨h₂, - | ⟨h₃, - | _⟩⟩⟩ := htail
    exact exists_four (by omega) (hwide h₁ (by omega) (by omega)) (fun _ => h₁.1) (by omega) h₂ h₃
  split at hshape
  case isTrue =>
    obtain ⟨-, rfl⟩ := Prod.mk.inj (Option.some.inj hshape)
    obtain - | ⟨h₁, - | ⟨h₂, - | ⟨h₃, - | _⟩⟩⟩ := htail
    exact exists_four (by omega) h₁ (by omega) (by omega) h₂ h₃
  split at hshape
  case isTrue =>
    obtain ⟨-, rfl⟩ := Prod.mk.inj (Option.some.inj hshape)
    obtain - | ⟨h₁, - | ⟨h₂, - | ⟨h₃, - | _⟩⟩⟩ := htail
    exact exists_four (by omega) (hwide h₁ (by omega) (by omega)) (by omega) (fun _ => h₁.2) h₂ h₃
  case isFalse => cases hshape

theorem exists_inRange {lead : UInt8} {value : Nat} {ranges : List (Nat × Nat)}
    (hshape : shape? lead = some (value, ranges)) :
    ∀ range ∈ ranges, InRange range (UInt8.ofNat range.1) := by
  have hall : ∀ lead : UInt8, ∀ shape ∈ shape? lead, ∀ range ∈ shape.2,
      range.1 ≤ range.2 ∧ range.2 < 256 := by decide +kernel
  intro range hrange
  obtain ⟨hle, hlt⟩ := hall lead _ hshape range hrange
  have htoNat : (UInt8.ofNat range.1).toNat = range.1 :=
    UInt8.toNat_ofNat_of_lt' (by show range.1 < 256; omega)
  unfold InRange
  rw [htoNat]
  exact ⟨Nat.le_refl _, hle⟩

theorem begins_cons {lead : UInt8} {run : List UInt8} :
    Begins (lead :: run) ↔ ∃ value before after, shape? lead = some (value, before ++ after) ∧
      List.Forall₂ InRange before run := by
  constructor
  · rintro ⟨c, hc⟩
    obtain ⟨lead', tail, value, ranges, hencode, hshape, htail, -⟩ := exists_shape c
    rw [hencode, List.cons_prefix_cons] at hc
    obtain ⟨rfl, rest, rfl⟩ := hc
    have hsplit : ranges.take run.length ++ ranges.drop run.length = ranges := List.take_append_drop ..
    exact ⟨value, _, _, hsplit.symm ▸ hshape, List.forall₂_take_append ranges run rest htail⟩
  · rintro ⟨value, before, after, hshape, hrun⟩
    have hafter : List.Forall₂ InRange after (after.map fun range => UInt8.ofNat range.1) := by
      rw [List.forall₂_map_right_iff, List.forall₂_same]
      exact fun range hrange => exists_inRange hshape range (List.mem_append_right _ hrange)
    obtain ⟨c, hc⟩ := exists_char hshape (List.rel_append hrun hafter)
    exact ⟨c, _, hc.symm⟩

theorem follow_cases (value : Nat) (ranges : List (Nat × Nat)) (bytes : List UInt8) :
    (∃ v run rest, bytes = run ++ rest ∧ follow value ranges bytes = (some v, rest) ∧
      List.Forall₂ InRange ranges run) ∨
    ∃ before range after run rest, ranges = before ++ range :: after ∧ bytes = run ++ rest ∧
      follow value ranges bytes = (none, rest) ∧ List.Forall₂ InRange before run ∧
      ∀ b, [b] <+: rest → ¬InRange range b := by
  induction ranges generalizing value bytes with
  | nil => exact .inl ⟨value, [], bytes, rfl, rfl, .nil⟩
  | cons range ranges ih =>
    cases bytes with
    | nil => exact .inr ⟨[], range, ranges, [], [], rfl, rfl, rfl, .nil, fun b hb => by simp at hb⟩
    | cons b bytes =>
      by_cases hb : InRange range b
      · have hfollow : follow value (range :: ranges) (b :: bytes) =
            follow (value * 64 + (b.toNat - 0x80)) ranges bytes := if_pos hb
        rw [hfollow]
        obtain ⟨v, run, rest, rfl, hv, hrun⟩ | ⟨before, range', after, run, rest, rfl, rfl, hv, hrun, hends⟩ :=
          ih (value * 64 + (b.toNat - 0x80)) bytes
        · exact .inl ⟨v, b :: run, rest, rfl, hv, .cons hb hrun⟩
        · exact .inr ⟨range :: before, range', after, b :: run, rest, rfl, rfl, hv, .cons hb hrun, hends⟩
      · have hfollow : follow value (range :: ranges) (b :: bytes) = (none, b :: bytes) := if_neg hb
        refine .inr ⟨[], range, ranges, [], b :: bytes, rfl, rfl, hfollow, .nil, fun b' hb' => ?_⟩
        obtain ⟨rfl, -⟩ := List.cons_prefix_cons.1 hb'
        exact hb

theorem not_begins_concat {lead : UInt8} {value : Nat} {before after : List (Nat × Nat)} {range : Nat × Nat}
    {run : List UInt8} (hshape : shape? lead = some (value, before ++ range :: after))
    (hrun : List.Forall₂ InRange before run) {b : UInt8} (hb : ¬InRange range b) :
    ¬Begins (lead :: run ++ [b]) := by
  intro hbegins
  obtain ⟨value', before', after', hshape', hrun'⟩ :=
    begins_cons.1 (show Begins (lead :: (run ++ [b])) from hbegins)
  rw [hshape, Option.some.injEq, Prod.mk.injEq] at hshape'
  have hlength := hrun.length_eq
  have hlength' := hrun'.length_eq
  rw [List.length_append, List.length_singleton] at hlength'
  -- Both shapes are one, whose range behind the run is the one that `b` is out of.
  have hlast : (before' ++ after')[run.length]? = some range := by
    rw [← hshape'.2, ← hlength]
    simp
  have hin := (List.forall₂_iff_get.1 hrun').2 run.length (by omega) (by simp)
  rw [List.getElem?_append_left (by omega), List.getElem?_eq_getElem (by omega), Option.some.injEq] at hlast
  simp only [List.get_eq_getElem, List.getElem_append_right (Nat.le_refl _), Nat.sub_self,
    List.getElem_cons_zero, hlast] at hin
  exact hb hin

theorem Lenient.stopped {lead : UInt8} {value : Nat} {before after : List (Nat × Nat)} {range : Nat × Nat}
    {run rest : List UInt8} {text : List Char}
    (hshape : shape? lead = some (value, before ++ range :: after))
    (hrun : List.Forall₂ InRange before run) (hends : ∀ b, [b] <+: rest → ¬InRange range b)
    (h : Lenient rest text) : Lenient (lead :: run ++ rest) ('\ufffd' :: text) := by
  have hlonger (b : UInt8) (hb : [b] <+: rest) : ¬Begins (lead :: run ++ [b]) :=
    not_begins_concat hshape hrun (hends b hb)
  refine .fault (List.cons_ne_nil _ _) (.inl (begins_cons.2 ⟨_, _, _, hshape, hrun⟩)) ?_ hlonger h
  -- A character there would be longer than the run, and the run would go on into it.
  rintro c ⟨more, hmore⟩
  obtain ⟨lead', tail, value', ranges, hencode, hshape', htail, -⟩ := exists_shape c
  rw [hencode, List.cons_append, List.cons_append, List.cons.injEq] at hmore
  obtain ⟨rfl, hmore⟩ := hmore
  rw [hshape, Option.some.injEq, Prod.mk.injEq] at hshape'
  obtain ⟨-, rfl⟩ := hshape'
  have hlength := hrun.length_eq
  have hlength' := htail.length_eq
  rw [List.length_append, List.length_cons] at hlength'
  obtain ⟨more', rfl⟩ : run <+: tail :=
    List.prefix_of_prefix_length_le (hmore ▸ List.prefix_append run rest) (List.prefix_append tail more)
      (by omega)
  cases more' with
  | nil => simp at hlength'; omega
  | cons b more' =>
    rw [List.append_assoc, List.append_cancel_left_eq] at hmore
    exact hlonger b ⟨more' ++ more, hmore⟩ ⟨c, more', by simp [hencode]⟩

theorem lenient_scan (bytes : List UInt8) : Lenient bytes ((scan bytes).map (·.getD '\ufffd')) := by
  induction bytes using scan.induct with
  | case1 =>
    rw [scan]
    exact .nil
  | case2 lead rest hshape ih =>
    have hnone : ¬Begins [lead] := by
      intro h
      obtain ⟨value, before, after, hshape', -⟩ := begins_cons.1 h
      rw [hshape] at hshape'
      cases hshape'
    rw [scan, hshape]
    show Lenient ([lead] ++ rest) _
    refine .fault (List.cons_ne_nil _ _) (.inr rfl) (fun c hc => ?_) (fun b _ h => ?_) ih
    · obtain ⟨lead', tail, value, ranges, hencode, hshape', -⟩ := exists_shape c
      rw [hencode, List.singleton_append, List.cons_prefix_cons] at hc
      rw [← hc.1, hshape'] at hshape
      cases hshape
    · exact hnone (h.of_prefix (List.prefix_append _ _))
  | case3 lead rest value ranges hshape ih =>
    rw [scan_cons hshape]
    obtain ⟨v, run, rest', rfl, hfollow, hrun⟩ |
      ⟨before, range, after, run, rest', rfl, rfl, hfollow, hrun, hends⟩ := follow_cases value ranges rest
    · obtain ⟨c, hc⟩ := exists_char hshape hrun
      have hscan := scan_encodeChar c rest'
      rw [hc, List.cons_append, scan_cons hshape] at hscan
      rw [hfollow] at ih hscan ⊢
      rw [hscan, ← List.cons_append, ← hc]
      exact .char c ih
    · rw [hfollow] at ih ⊢
      exact Lenient.stopped hshape hrun hends ih

/-- The lenient reading is the text that bytes stand for. -/
theorem lenient_iff {bytes : List UInt8} {text : String} :
    Lenient bytes text.toList ↔ decodeLenient bytes = text := by
  constructor
  · intro h
    rw [decodeLenient, ← h.unique (lenient_scan bytes) rfl, String.ofList_toList]
  · rintro rfl
    rw [decodeLenient, String.toList_ofList]
    exact lenient_scan bytes

end FpgaCard.Text.Utf8
