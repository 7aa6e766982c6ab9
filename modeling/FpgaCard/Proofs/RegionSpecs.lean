import FpgaCard.Command.Argument
import FpgaCard.Proofs.Numerals

/-!
# Which texts specify a region

The form of a region specification, said without its reader: four fields parted by colons, two of them
numbers. Main statement: the reader takes exactly the texts of this form and gives what they say, so that a
region that is written out in any way is read back.
-/

namespace FpgaCard

namespace Text

/-! ## Spaced numbers -/

def IsHexMark (mark : List Char) : Prop := mark = ['0', 'x'] ∨ mark = ['0', 'X']

def withoutSpacers (text : List Char) : List Char := text.filter (· != '_')

/-- The text stands for `n`: in hexadecimal behind a mark, in decimal without one, underscores aside. -/
def IsSpaced (text : List Char) (n : Nat) : Prop :=
  (∃ mark rest, IsHexMark mark ∧ text = mark ++ rest ∧ IsNumeral 16 (withoutSpacers rest) n) ∨
    ((∀ mark, IsHexMark mark → ¬ mark <+: text) ∧ IsNumeral 10 (withoutSpacers text) n)

theorem afterHexMark?_mark {mark : List Char} (h : IsHexMark mark) (rest : List Char) :
    afterHexMark? (mark ++ rest) = some rest := by
  obtain rfl | rfl := h <;> rfl

theorem afterHexMark?_cases (text : List Char) :
    (∃ mark rest, IsHexMark mark ∧ text = mark ++ rest ∧ afterHexMark? text = some rest) ∨
      ((∀ mark, IsHexMark mark → ¬ mark <+: text) ∧ afterHexMark? text = none) := by
  cases hmark : afterHexMark? text with
  | some rest =>
    unfold afterHexMark? at hmark
    split at hmark
    · cases hmark
      exact .inl ⟨_, rest, .inl rfl, rfl, rfl⟩
    · cases hmark
      exact .inl ⟨_, rest, .inr rfl, rfl, rfl⟩
    · cases hmark
  | none =>
    refine .inr ⟨?_, rfl⟩
    rintro mark h ⟨rest, rfl⟩
    rw [afterHexMark?_mark h] at hmark
    cases hmark

theorem readSpaced_eq_ok_iff {text : List Char} {n : Nat} :
    readSpaced text = .ok n ↔ IsSpaced text n ∧ n < 2 ^ 64 := by
  unfold readSpaced
  obtain ⟨mark, rest, hmark, rfl, hafter⟩ | ⟨hbare, hafter⟩ := afterHexMark?_cases text
  · rw [hafter]
    simp only
    rw [readNumber_eq_ok_iff (Nat.le_refl 16)]
    refine and_congr_left fun _ => ⟨fun h => .inl ⟨mark, rest, hmark, rfl, h⟩, ?_⟩
    rintro (⟨mark', rest', hmark', heq, h⟩ | ⟨hbare, -⟩)
    · have hrest := afterHexMark?_mark hmark' rest'
      rw [← heq, hafter] at hrest
      cases hrest
      exact h
    · exact absurd (List.prefix_append mark rest) (hbare mark hmark)
  · rw [hafter]
    simp only
    rw [readNumber_eq_ok_iff (by decide)]
    refine and_congr_left fun _ => ⟨fun h => .inr ⟨hbare, h⟩, ?_⟩
    rintro (⟨mark, rest, hmark, rfl, -⟩ | ⟨-, h⟩)
    · exact absurd (List.prefix_append mark rest) (hbare mark hmark)
    · exact h

/-- A number written out, with any zeros in front and underscores anywhere: in decimal, or behind a mark in
hexadecimal with letters in either case. -/
inductive Writes (n : Nat) : List Char → Prop
  | decimal (zeros : Nat) {text : List Char}
      (h : withoutSpacers text = List.replicate zeros '0' ++ Nat.toDigits 10 n) : Writes n text
  | hexadecimal (zeros : Nat) {mark rest : List Char} (hmark : IsHexMark mark)
      (h : (withoutSpacers rest).map Char.toLower = List.replicate zeros '0' ++ Nat.toDigits 16 n) :
      Writes n (mark ++ rest)

theorem IsNumeral.not_mem_of_spaced {radix n : Nat} (hradix : radix ≤ 16) {text : List Char}
    (h : IsNumeral radix (withoutSpacers text) n) {c : Char} (hc : digitValue? 16 c = none)
    (hsign : c ≠ '+') (hspacer : c ≠ '_') : c ∉ text := by
  intro hin
  have hkept : c ∈ withoutSpacers text := List.mem_filter.2 ⟨hin, by simpa using hspacer⟩
  obtain ⟨value, hdigit⟩ := h.isDigit_of_mem hkept hsign
  exact not_isDigit hc hradix value hdigit

theorem IsSpaced.colon_not_mem {text : List Char} {n : Nat} (h : IsSpaced text n) : ':' ∉ text := by
  obtain ⟨mark, rest, hmark, rfl, hrest⟩ | ⟨-, htext⟩ := h
  · have hfree : ':' ∉ rest := hrest.not_mem_of_spaced (Nat.le_refl 16) (by decide) (by decide) (by decide)
    obtain rfl | rfl := hmark <;> simpa using hfree
  · exact htext.not_mem_of_spaced (by decide) (by decide) (by decide) (by decide)

theorem Writes.isSpaced {n : Nat} {text : List Char} (h : Writes n text) : IsSpaced text n := by
  cases h with
  | decimal zeros h =>
    have hlower : (withoutSpacers text).map Char.toLower = withoutSpacers text := by
      rw [h, List.map_append, List.map_replicate, toLower_toDigits (by decide) (by decide)]
      rfl
    have hnumeral : IsNumeral 10 (withoutSpacers text) n :=
      isNumeral_of_toDigits (by decide) (hlower.trans h)
    refine .inr ⟨?_, hnumeral⟩
    -- The letter of a mark is no digit, so that no decimal number begins with one.
    rintro mark hmark ⟨rest, rfl⟩
    obtain rfl | rfl := hmark
    · have hfree := hnumeral.not_mem_of_spaced (c := 'x') (by decide) (by decide) (by decide) (by decide)
      simp at hfree
    · have hfree := hnumeral.not_mem_of_spaced (c := 'X') (by decide) (by decide) (by decide) (by decide)
      simp at hfree
  | hexadecimal zeros hmark h =>
    exact .inl ⟨_, _, hmark, rfl, isNumeral_of_toDigits (by decide) h⟩

end Text

namespace Command

open Text

/-! ## Fields -/

theorem not_mem_of_mem_splitOn {α : Type} [BEq α] [LawfulBEq α] {mark : α} {items piece : List α}
    (h : piece ∈ items.splitOn mark) : mark ∉ piece := by
  induction items generalizing piece with
  | nil =>
    rw [List.splitOn_nil, List.mem_singleton] at h
    simp [h]
  | cons item items ih =>
    rw [List.splitOn_cons_eq_if_modifyHead] at h
    split at h
    · obtain rfl | hrest := List.mem_cons.1 h
      · exact List.not_mem_nil
      · exact ih hrest
    · rename_i hother
      obtain ⟨first, rest, hsplit⟩ := List.exists_cons_of_ne_nil (List.splitOn_ne_nil mark items)
      rw [hsplit] at ih h
      obtain rfl | hrest := List.mem_cons.1 h
      · rintro (_ | ⟨_, hin⟩)
        · exact hother (beq_self_eq_true _)
        · exact ih List.mem_cons_self hin
      · exact ih (List.mem_cons_of_mem _ hrest)

theorem fields_eq_iff {text : String} {words : List String} (hsome : words ≠ []) :
    fields text = words ↔ (∀ word ∈ words, ':' ∉ word.toList) ∧ text = ":".intercalate words := by
  constructor
  · rintro rfl
    refine ⟨?_, ?_⟩
    · intro word hword
      obtain ⟨piece, hpiece, rfl⟩ := List.mem_map.1 hword
      rw [String.toList_ofList]
      exact not_mem_of_mem_splitOn hpiece
    · apply String.toList_injective
      have hpieces : (fields text).map String.toList = text.toList.splitOn ':' := by
        simp [fields, Function.comp_def]
      rw [String.toList_intercalate, hpieces]
      exact (List.intercalate_splitOn ':').symm
  · rintro ⟨hfree, rfl⟩
    have hpieces : ∀ piece ∈ words.map String.toList, ':' ∉ piece := by
      simpa using hfree
    have hsplit := List.splitOn_intercalate ':' hpieces (by simpa using hsome)
    rw [fields, String.toList_intercalate]
    change (List.splitOn ':' ([':'].intercalate _)).map String.ofList = words
    rw [hsplit]
    simp [Function.comp_def]

/-! ## Specifications -/

def permissionWords : List (String × Permissions) :=
  [("r", .readOnly), ("w", .writeOnly), ("rw", .readWrite), ("wr", .readWrite)]

theorem parsePermissions_eq_ok_iff {text : String} {permissions : Permissions} :
    parsePermissions text = .ok permissions ↔ (text, permissions) ∈ permissionWords := by
  unfold parsePermissions permissionWords
  split_ifs with hread hwrite hboth
  · simp [hread, eq_comm]
  · simp [hwrite, eq_comm]
  · obtain rfl | rfl := hboth <;> simp [eq_comm]
  · rw [not_or] at hboth
    simp [hread, hwrite, hboth.1, hboth.2]

theorem parseNumber_eq_ok_iff {text : String} {n : Nat} :
    parseNumber text = .ok n ↔ IsSpaced text.toList n ∧ n < 2 ^ 64 := by
  rw [← readSpaced_eq_ok_iff, parseNumber]
  cases readSpaced text.toList <;> simp [Except.mapError]

/-- The text has four fields, which say what the region is. -/
def Specifies (text : String) (region : Region) : Prop :=
  ∃ base length permissions, text = region.name ++ ":" ++ base ++ ":" ++ length ++ ":" ++ permissions ∧
    (∀ field ∈ [region.name, base, length, permissions], ':' ∉ field.toList) ∧
    IsSpaced base.toList region.base.toNat ∧ IsSpaced length.toList region.length.toNat ∧
    (permissions, region.permissions) ∈ permissionWords

theorem parsePermissions_colon_not_mem {text : String} {permissions : Permissions}
    (h : (text, permissions) ∈ permissionWords) : ':' ∉ text.toList := by
  have hall : ∀ word ∈ permissionWords, ':' ∉ word.1.toList := by decide
  exact hall _ h

theorem bind_eq_ok {ε α β : Type} {x : Except ε α} {next : α → Except ε β} {result : β} :
    x >>= next = .ok result ↔ ∃ value, x = .ok value ∧ next value = .ok result := by
  cases x with
  | error e => exact ⟨nofun, fun ⟨_, h, _⟩ => nomatch h⟩
  | ok value =>
    refine ⟨fun h => ⟨value, rfl, h⟩, ?_⟩
    rintro ⟨_, ⟨⟩, hnext⟩
    exact hnext

theorem parseRegion_ok {text : String} {region : Region} (h : parseRegion text = .ok region) :
    Specifies text region := by
  unfold parseRegion at h
  split at h
  · rename_i name base length permissions hfields
    obtain ⟨hfree, htext⟩ := (fields_eq_iff (List.cons_ne_nil _ _)).1 hfields
    obtain ⟨access, hpermissions, h⟩ := bind_eq_ok.1 h
    obtain ⟨start, hbase, h⟩ := bind_eq_ok.1 h
    obtain ⟨size, hlength, h⟩ := bind_eq_ok.1 h
    cases h
    obtain ⟨hstart, hstartLess⟩ := parseNumber_eq_ok_iff.1 hbase
    obtain ⟨hsize, hsizeLess⟩ := parseNumber_eq_ok_iff.1 hlength
    refine ⟨base, length, permissions, htext, hfree, ?_, ?_, parsePermissions_eq_ok_iff.1 hpermissions⟩
    · rwa [UInt64.toNat_ofNat_of_lt' hstartLess]
    · rwa [UInt64.toNat_ofNat_of_lt' hsizeLess]
  · cases h

theorem parseRegion_of_specifies {text : String} {region : Region} (h : Specifies text region) :
    parseRegion text = .ok region := by
  obtain ⟨base, length, permissions, rfl, hfree, hbase, hlength, hpermissions⟩ := h
  have hfields : fields (region.name ++ ":" ++ base ++ ":" ++ length ++ ":" ++ permissions) =
      [region.name, base, length, permissions] :=
    (fields_eq_iff (List.cons_ne_nil _ _)).2 ⟨hfree, rfl⟩
  have hstart := parseNumber_eq_ok_iff.2 ⟨hbase, region.base.toNat_lt⟩
  have hsize := parseNumber_eq_ok_iff.2 ⟨hlength, region.length.toNat_lt⟩
  unfold parseRegion
  rw [hfields]
  refine bind_eq_ok.2 ⟨_, parsePermissions_eq_ok_iff.2 hpermissions, bind_eq_ok.2 ⟨_, hstart, ?_⟩⟩
  refine bind_eq_ok.2 ⟨_, hsize, ?_⟩
  rw [UInt64.ofNat_toNat, UInt64.ofNat_toNat]
  rfl

/-- A region is read from the texts that specify it and from no others, and so is one that is written out. -/
theorem parseRegion_eq_ok_iff :
    (∀ text region, parseRegion text = .ok region ↔ Specifies text region) ∧
    ∀ (region : Region) (base length permissions : String), ':' ∉ region.name.toList →
      Writes region.base.toNat base.toList → Writes region.length.toNat length.toList →
      (permissions, region.permissions) ∈ permissionWords →
      parseRegion (region.name ++ ":" ++ base ++ ":" ++ length ++ ":" ++ permissions) = .ok region := by
  refine ⟨fun text region => ⟨parseRegion_ok, parseRegion_of_specifies⟩, ?_⟩
  intro region base length permissions hname hbase hlength hpermissions
  refine parseRegion_of_specifies
    ⟨base, length, permissions, rfl, ?_, hbase.isSpaced, hlength.isSpaced, hpermissions⟩
  simp only [List.forall_mem_cons]
  exact ⟨hname, hbase.isSpaced.colon_not_mem, hlength.isSpaced.colon_not_mem,
    parsePermissions_colon_not_mem hpermissions, nofun⟩

theorem parseRegion_eq_ok_iff_ddr0 :
    ':' ∉ "ddr0".toList ∧ Writes 0xab000000 "0X00_aB00_0000".toList ∧ Writes 4096 "0_4096".toList ∧
      ("wr", Permissions.readWrite) ∈ permissionWords ∧
      parseRegion ("ddr0" ++ ":" ++ "0X00_aB00_0000" ++ ":" ++ "0_4096" ++ ":" ++ "wr") =
        .ok { name := "ddr0", base := 0xab000000, length := 4096, permissions := .readWrite } := by
  have hbase : Writes 0xab000000 (['0', 'X'] ++ "00_aB00_0000".toList) :=
    .hexadecimal 2 (.inr rfl) (by decide +kernel)
  have hlength : Writes 4096 "0_4096".toList := .decimal 1 (by decide +kernel)
  have hword : ("wr", Permissions.readWrite) ∈ permissionWords := by decide
  exact ⟨by decide, hbase, hlength, hword, parseRegion_eq_ok_iff.2
    { name := "ddr0", base := 0xab000000, length := 4096, permissions := .readWrite }
    "0X00_aB00_0000" "0_4096" "wr" (by decide) hbase hlength hword⟩

end Command

end FpgaCard
