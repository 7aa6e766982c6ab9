import FpgaCard.Text.Number
import Mathlib

/-!
# Which texts are numbers

The numerals of a radix, and what reading makes of a text. A digit is one of the sixteen that hexadecimal
has, its letters in either case. Main statement: reading takes a text exactly if it is a numeral whose value
is below the bound, and gives that value.
-/

namespace FpgaCard.Text

/-! ## Digits -/

/-- The character stands for `value` in `radix`. -/
def IsDigit (radix : Nat) (c : Char) (value : Nat) : Prop :=
  value < radix ∧ (c = value.digitChar ∨ c = value.digitChar.toUpper)

variable {radix bound : Nat}

theorem digitValue?_of_isDigit (hradix : radix ≤ 16) {c : Char} {value : Nat} (h : IsDigit radix c value) :
    digitValue? radix c = some value := by
  obtain ⟨hless, hc⟩ := h
  have hsixteen (value : Nat) (h : value < 16) :
      digitValue? 16 value.digitChar = some value ∧ digitValue? 16 value.digitChar.toUpper = some value := by
    interval_cases value <;> decide
  -- A smaller radix only leaves out the digits that are too large for it.
  have hsmaller (h : digitValue? 16 c = some value) : digitValue? radix c = some value := by
    unfold digitValue? at h ⊢
    rw [Option.filter_eq_some_iff] at h ⊢
    exact ⟨h.1, by simpa using hless⟩
  obtain ⟨hlower, hupper⟩ := hsixteen value (by omega)
  obtain rfl | rfl := hc
  · exact hsmaller hlower
  · exact hsmaller hupper

theorem isDigit_of_digitValue? (hradix : radix ≤ 16) {c : Char} {value : Nat}
    (h : digitValue? radix c = some value) : IsDigit radix c value := by
  unfold digitValue? at h
  rw [Option.filter_eq_some_iff, decide_eq_true_iff] at h
  obtain ⟨hvalue, hless⟩ := h
  simp only [Char.le_def, UInt32.le_iff_toNat_le] at hvalue
  change (if 48 ≤ c.toNat ∧ c.toNat ≤ 57 then some (c.toNat - 48)
    else if 97 ≤ c.toNat ∧ c.toNat ≤ 122 then some (c.toNat - 97 + 10)
    else if 65 ≤ c.toNat ∧ c.toNat ≤ 90 then some (c.toNat - 65 + 10) else none) = some value at hvalue
  have hcode : (value < 10 ∧ c.toNat = value + 48) ∨
      (10 ≤ value ∧ (c.toNat = value + 87 ∨ c.toNat = value + 55)) := by
    split at hvalue
    · cases hvalue
      omega
    split at hvalue
    · cases hvalue
      omega
    split at hvalue
    · cases hvalue
      omega
    · cases hvalue
  refine ⟨hless, ?_⟩
  rw [← Char.ofNat_toNat c]
  obtain ⟨hten, hcode⟩ | ⟨hten, hcode | hcode⟩ := hcode
  all_goals
    rw [hcode]
    have hsixteen : value < 16 := Nat.lt_of_lt_of_le hless hradix
    interval_cases value <;> decide

theorem not_isDigit {c : Char} (h : digitValue? 16 c = none) (hradix : radix ≤ 16) (value : Nat) :
    ¬ IsDigit radix c value := by
  intro hdigit
  have hwider : IsDigit 16 c value := ⟨Nat.lt_of_lt_of_le hdigit.1 hradix, hdigit.2⟩
  rw [digitValue?_of_isDigit (Nat.le_refl 16) hwider] at h
  cases h

/-! ## Numerals -/

abbrev AreDigits (radix : Nat) : List Char → List Nat → Prop := List.Forall₂ (IsDigit radix)

/-- The number that digits stand for, the highest first. -/
def placeValue (radix : Nat) (digits : List Nat) : Nat := Nat.ofDigits radix digits.reverse

/-- The text stands for `n`: at least one digit, with or without a plus sign before them. -/
def IsNumeral (radix : Nat) (text : List Char) (n : Nat) : Prop :=
  ∃ sign characters digits, text = sign ++ characters ∧ (sign = [] ∨ sign = ['+']) ∧ characters ≠ [] ∧
    AreDigits radix characters digits ∧ placeValue radix digits = n

theorem placeValue_cons (radix digit : Nat) (digits : List Nat) :
    placeValue radix (digit :: digits) = digit * radix ^ digits.length + placeValue radix digits := by
  unfold placeValue
  rw [List.reverse_cons, Nat.ofDigits_append, Nat.ofDigits_singleton, List.length_reverse]
  ring

theorem exists_areDigits_cons (hradix : radix ≤ 16) {c : Char} {rest : List Char} {digit : Nat}
    (hc : digitValue? radix c = some digit) {P : List Nat → Prop} :
    (∃ digits, AreDigits radix (c :: rest) digits ∧ P digits) ↔
      ∃ digits, AreDigits radix rest digits ∧ P (digit :: digits) := by
  constructor
  · rintro ⟨digits, hdigits, hall⟩
    obtain ⟨other, others, hother, hrest, rfl⟩ := List.forall₂_cons_left_iff.1 hdigits
    rw [digitValue?_of_isDigit hradix hother] at hc
    cases hc
    exact ⟨others, hrest, hall⟩
  · rintro ⟨digits, hrest, hall⟩
    exact ⟨digit :: digits, .cons (isDigit_of_digitValue? hradix hc) hrest, hall⟩

theorem readDigits_eq_ok_iff (hradix : radix ≤ 16) {text : List Char} {value n : Nat} :
    readDigits radix bound value text = .ok n ↔ ∃ digits, AreDigits radix text digits ∧
      value * radix ^ digits.length + placeValue radix digits = n ∧ (text ≠ [] → n < bound) := by
  induction text generalizing value with
  | nil => simp [readDigits, placeValue]
  | cons c rest ih =>
    unfold readDigits
    cases hc : digitValue? radix c with
    | none =>
      refine ⟨nofun, ?_⟩
      rintro ⟨digits, hdigits, -⟩
      obtain ⟨digit, _, hdigit, -, -⟩ := List.forall₂_cons_left_iff.1 hdigits
      rw [digitValue?_of_isDigit hradix hdigit] at hc
      cases hc
    | some digit =>
      have hpos : 0 < radix := Nat.lt_of_le_of_lt (Nat.zero_le _) (isDigit_of_digitValue? hradix hc).1
      have hvalue (others : List Nat) :
          value * radix ^ (digit :: others).length + placeValue radix (digit :: others) =
            (value * radix + digit) * radix ^ others.length + placeValue radix others := by
        rw [placeValue_cons, List.length_cons, pow_succ]
        ring
      rw [exists_areDigits_cons hradix hc]
      simp only [hvalue]
      split
      · rename_i hless
        rw [ih]
        refine exists_congr fun digits => and_congr_right fun hrest => and_congr_right fun hn => ?_
        -- Without further digits the number is the value that has just passed the check.
        refine ⟨fun hbound _ => ?_, fun hbound _ => hbound (List.cons_ne_nil _ _)⟩
        cases rest with
        | nil =>
          obtain rfl := List.forall₂_nil_left_iff.1 hrest
          simpa [placeValue, ← hn] using hless
        | cons => exact hbound (List.cons_ne_nil _ _)
      · rename_i hmore
        refine ⟨nofun, ?_⟩
        rintro ⟨digits, -, rfl, hbound⟩
        have hgrows := Nat.le_mul_of_pos_right (value * radix + digit) (Nat.pow_pos (n := digits.length) hpos)
        have hless := hbound (List.cons_ne_nil _ _)
        omega

theorem isNumeral_plus (hradix : radix ≤ 16) {text : List Char} {n : Nat} :
    IsNumeral radix ('+' :: text) n ↔
      text ≠ [] ∧ ∃ digits, AreDigits radix text digits ∧ placeValue radix digits = n := by
  constructor
  · rintro ⟨sign, characters, digits, htext, rfl | rfl, hsome, hdigits, hn⟩
    · rw [List.nil_append] at htext
      obtain ⟨digit, _, hdigit, -, -⟩ := List.forall₂_cons_left_iff.1 (htext ▸ hdigits)
      exact absurd hdigit (not_isDigit (by decide) hradix digit)
    · cases htext
      exact ⟨hsome, digits, hdigits, hn⟩
  · rintro ⟨hsome, digits, hdigits, hn⟩
    exact ⟨['+'], text, digits, rfl, .inr rfl, hsome, hdigits, hn⟩

theorem isNumeral_bare {text : List Char} (hfirst : text.head? ≠ some '+') {n : Nat} :
    IsNumeral radix text n ↔
      text ≠ [] ∧ ∃ digits, AreDigits radix text digits ∧ placeValue radix digits = n := by
  constructor
  · rintro ⟨sign, _, digits, rfl, rfl | rfl, hsome, hdigits, hn⟩
    · exact ⟨hsome, digits, hdigits, hn⟩
    · exact absurd rfl hfirst
  · rintro ⟨hsome, digits, hdigits, hn⟩
    exact ⟨[], text, digits, rfl, .inl rfl, hsome, hdigits, hn⟩

theorem AreDigits.isDigit_of_mem {text : List Char} {digits : List Nat} (h : AreDigits radix text digits)
    {c : Char} (hc : c ∈ text) : ∃ value, IsDigit radix c value := by
  induction h with
  | nil => cases hc
  | cons hdigit _ ih =>
    obtain rfl | hrest := List.mem_cons.1 hc
    · exact ⟨_, hdigit⟩
    · exact ih hrest

theorem IsNumeral.isDigit_of_mem {text : List Char} {n : Nat} (h : IsNumeral radix text n) {c : Char}
    (hc : c ∈ text) (hsign : c ≠ '+') : ∃ value, IsDigit radix c value := by
  obtain ⟨sign, characters, digits, rfl, hplus, -, hdigits, -⟩ := h
  obtain hfirst | hrest := List.mem_append.1 hc
  · obtain rfl | rfl := hplus
    · cases hfirst
    · exact absurd (List.mem_singleton.1 hfirst) hsign
  · exact hdigits.isDigit_of_mem hrest

theorem readNumber_eq_ok_iff (hradix : radix ≤ 16) {text : List Char} {n : Nat} :
    readNumber radix bound text = .ok n ↔ IsNumeral radix text n ∧ n < bound := by
  have hread {digits : List Char} (hsome : digits ≠ []) : readDigits radix bound 0 digits = .ok n ↔
      (digits ≠ [] ∧ ∃ values, AreDigits radix digits values ∧ placeValue radix values = n) ∧
        n < bound := by
    rw [readDigits_eq_ok_iff hradix]
    simp only [Nat.zero_mul, Nat.zero_add, hsome, ne_eq, not_false_eq_true, true_and, true_implies,
      ← and_assoc, exists_and_right]
  unfold readNumber
  split
  · rw [isNumeral_bare (by simp)]
    simp
  · simp [isNumeral_plus hradix]
  · rename_i digits hmore
    rw [isNumeral_plus hradix, hread]
    rintro rfl
    exact hmore rfl
  · rename_i hsome _ hbare
    rw [isNumeral_bare, hread hsome]
    intro hfirst
    obtain ⟨rest, rfl⟩ := List.head?_eq_some_iff.1 hfirst
    exact hbare rest rfl

/-! ## Written numbers -/

theorem isDigit_digitChar {value : Nat} (h : value < radix) : IsDigit radix value.digitChar value :=
  ⟨h, .inl rfl⟩

theorem isDigit_of_toLower {c : Char} {value : Nat} (h : value < radix) (hc : c.toLower = value.digitChar) :
    IsDigit radix c value := by
  refine ⟨h, ?_⟩
  rw [← hc, Char.toUpper_toLower_eq_toUpper]
  -- A letter is in one of the two cases, and changing to that case leaves it alone.
  by_cases hlower : c.isLower = true
  · refine .inl (Char.toLower_eq_of_not_isUpper ?_).symm
    have hrange : 97 ≤ c.toNat ∧ c.toNat ≤ 122 := by
      simpa [Char.isLower, UInt32.le_iff_toNat_le] using hlower
    simp [Char.isUpper, UInt32.le_iff_toNat_le]
    omega
  · exact .inr (Char.toUpper_eq_of_not_isLower hlower).symm

theorem areDigits_of_toLower {text : List Char} {digits : List Nat} (hless : ∀ digit ∈ digits, digit < radix)
    (htext : text.map Char.toLower = digits.map Nat.digitChar) : AreDigits radix text digits := by
  induction digits generalizing text with
  | nil =>
    rw [List.map_eq_nil_iff.1 htext]
    exact .nil
  | cons digit digits ih =>
    obtain ⟨c, rest, rfl, hc, hrest⟩ := List.map_eq_cons_iff.1 htext
    obtain ⟨hfirst, hothers⟩ := List.forall_mem_cons.1 hless
    exact .cons (isDigit_of_toLower hfirst hc) (ih hothers hrest)

theorem placeValue_concat (radix : Nat) (digits : List Nat) (digit : Nat) :
    placeValue radix (digits ++ [digit]) = radix * placeValue radix digits + digit := by
  unfold placeValue
  rw [List.reverse_append, List.reverse_singleton, List.singleton_append, Nat.ofDigits_cons]
  simp [Nat.add_comm]

theorem placeValue_zeros (radix zeros : Nat) (digits : List Nat) :
    placeValue radix (List.replicate zeros 0 ++ digits) = placeValue radix digits := by
  unfold placeValue
  rw [List.reverse_append, List.reverse_replicate, Nat.ofDigits_append_replicate_zero]

theorem exists_toDigits (hradix : 1 < radix) (n : Nat) :
    ∃ digits, Nat.toDigits radix n = digits.map Nat.digitChar ∧
    (∀ digit ∈ digits, digit < radix) ∧ placeValue radix digits = n := by
  induction n using Nat.strongRecOn with
  | ind n ih =>
    rw [Nat.toDigits_eq_if hradix]
    split
    · rename_i hless
      exact ⟨[n], rfl, by simpa using hless, by simp [placeValue]⟩
    · rename_i hmore
      have hpos : 0 < n := by omega
      obtain ⟨digits, hdigits, hall, hvalue⟩ := ih (n / radix) (Nat.div_lt_self hpos hradix)
      have hlast : n % radix < radix := Nat.mod_lt n (by omega)
      refine ⟨digits ++ [n % radix], by rw [hdigits, List.map_append]; rfl, ?_, ?_⟩
      · intro digit hdigit
        obtain hfirst | rfl := List.mem_append.1 hdigit |>.imp_right List.mem_singleton.1
        · exact hall digit hfirst
        · exact hlast
      · rw [placeValue_concat, hvalue, Nat.div_add_mod]

theorem toLower_toDigits (hone : 1 < radix) (hradix : radix ≤ 16) (n : Nat) :
    (Nat.toDigits radix n).map Char.toLower = Nat.toDigits radix n := by
  obtain ⟨digits, hdigits, hall, -⟩ := exists_toDigits hone n
  rw [hdigits, List.map_map]
  refine List.map_congr_left fun digit hdigit => ?_
  have hsixteen : digit < 16 := Nat.lt_of_lt_of_le (hall digit hdigit) hradix
  interval_cases digit <;> decide

theorem isNumeral_of_toDigits (hradix : 1 < radix) {text : List Char} {zeros n : Nat}
    (h : text.map Char.toLower = List.replicate zeros '0' ++ Nat.toDigits radix n) :
    IsNumeral radix text n := by
  obtain ⟨digits, hdigits, hall, hvalue⟩ := exists_toDigits hradix n
  have hsome : Nat.toDigits radix n ≠ [] := Nat.toDigits_ne_nil
  refine ⟨[], text, List.replicate zeros 0 ++ digits, rfl, .inl rfl, ?_, ?_, ?_⟩
  · rintro rfl
    exact hsome (List.append_eq_nil_iff.1 h.symm).2
  · refine areDigits_of_toLower ?_ ?_
    · intro digit hdigit
      obtain hzero | hdigit := List.mem_append.1 hdigit
      · rw [List.eq_of_mem_replicate hzero]
        omega
      · exact hall digit hdigit
    · rw [h, hdigits, List.map_append, List.map_replicate]
      rfl
  · rw [placeValue_zeros, hvalue]

end FpgaCard.Text
