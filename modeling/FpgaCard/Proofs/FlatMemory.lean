import FpgaCard.Proofs.Memory

/-!
# Memory without pages

Nothing of the pages shows in what a memory answers. Main statement: after any reads and writes, also over
the top of memory, a byte that is read is the one that the last write over its address put there, and zero
where nothing was written.
-/

namespace FpgaCard.Memory

/-! ## Accesses -/

inductive Access where
  | read (address : UInt64) (count : Nat)
  | write (address : UInt64) (bytes : List UInt8)
  deriving DecidableEq

namespace Access

def size : Access → Nat
  | .read _ count => count
  | .write _ bytes => bytes.length

/-- The access writes `byte` at an address. The addresses of a span wrap at the top of memory. -/
inductive Puts : Access → UInt64 → UInt8 → Prop
  | intro (start : UInt64) (bytes : List UInt8) (i : Nat) (h : i < bytes.length) :
      Puts (.write start bytes) (start + UInt64.ofNat i) bytes[i]

def Covers (access : Access) (address : UInt64) : Prop := ∃ byte, access.Puts address byte

end Access

def access (m : Memory) : Access → List UInt8 × Memory
  | .read address count => (m.read address count, m)
  | .write address bytes => ([], m.write address bytes)

def accessAll (m : Memory) : List Access → List (List UInt8) × Memory
  | [] => ([], m)
  | access :: accesses =>
    let (bytes, m) := m.access access
    let (found, m) := m.accessAll accesses
    (bytes :: found, m)

/-- What a memory has at an address after these accesses: the byte that the last write over the address put
there, or zero without one. -/
def Holds (accesses : List Access) (address : UInt64) (byte : UInt8) : Prop :=
  (∃ before access after, accesses = before ++ access :: after ∧ access.Puts address byte ∧
    ∀ later ∈ after, ¬ later.Covers address) ∨
  (byte = 0 ∧ ∀ access ∈ accesses, ¬ access.Covers address)

/-! ## One access -/

namespace Access

theorem not_covers_read (start : UInt64) (count : Nat) (address : UInt64) :
    ¬ (read start count).Covers address := by
  rintro ⟨_, ⟨⟩⟩

theorem puts_write_iff {start address : UInt64} {bytes : List UInt8} {byte : UInt8} (h : bytes.length ≤ 2 ^ 64) :
    (write start bytes).Puts address byte ↔ bytes[(address - start).toNat]? = some byte := by
  constructor
  · rintro ⟨_, _, i, hi⟩
    rw [toNat_add_sub _ (by omega), List.getElem?_eq_getElem hi]
  · intro hbyte
    obtain ⟨hin, rfl⟩ := List.getElem?_eq_some_iff.1 hbyte
    have hputs := Puts.intro start bytes _ hin
    rwa [add_toNat_sub] at hputs

end Access

theorem byteAt_access (m : Memory) {a : Access} (ha : a.size ≤ 2 ^ 64) (address : UInt64) (byte : UInt8) :
    (m.access a).2.byteAt address = byte ↔
      a.Puts address byte ∨ (¬ a.Covers address ∧ m.byteAt address = byte) := by
  cases a with
  | read start count =>
    have hout := Access.not_covers_read start count address
    have hputs : ¬ (Access.read start count).Puts address byte := fun hputs => hout ⟨byte, hputs⟩
    simp [access, hout, hputs]
  | write start bytes =>
    have hputs (b : UInt8) : (Access.write start bytes).Puts address b ↔
        bytes[(address - start).toNat]? = some b := Access.puts_write_iff ha
    show (m.write start bytes).byteAt address = byte ↔ _
    rw [byteAt_write _ _ _ _ ha, List.getD_eq_getElem?_getD, hputs]
    cases hcell : bytes[(address - start).toNat]? with
    | none =>
      have hout : ¬ (Access.write start bytes).Covers address := by
        rintro ⟨b, hb⟩
        rw [hputs, hcell] at hb
        cases hb
      simp [hout]
    | some b =>
      have hin : (Access.write start bytes).Covers address := ⟨b, (hputs b).2 hcell⟩
      simp [hin]

theorem byteAt_access_of_not_covers (m : Memory) {a : Access} (ha : a.size ≤ 2 ^ 64) {address : UInt64}
    (hout : ¬ a.Covers address) : (m.access a).2.byteAt address = m.byteAt address :=
  (m.byteAt_access ha address _).2 (.inr ⟨hout, rfl⟩)

/-! ## Many accesses -/

theorem accessAll_append (m : Memory) (first rest : List Access) :
    m.accessAll (first ++ rest) =
      ((m.accessAll first).1 ++ ((m.accessAll first).2.accessAll rest).1,
        ((m.accessAll first).2.accessAll rest).2) := by
  induction first generalizing m with
  | nil => rfl
  | cons a first ih => simp only [List.cons_append, accessAll, ih]

theorem length_accessAll (m : Memory) (accesses : List Access) :
    (m.accessAll accesses).1.length = accesses.length := by
  induction accesses generalizing m with
  | nil => rfl
  | cons a accesses ih => simp only [accessAll, List.length_cons, ih]

theorem holds_nil {address : UInt64} {byte : UInt8} : Holds [] address byte ↔ byte = 0 := by
  simp [Holds]

theorem holds_concat {accesses : List Access} {a : Access} {address : UInt64} {byte : UInt8} :
    Holds (accesses ++ [a]) address byte ↔
      a.Puts address byte ∨ (¬ a.Covers address ∧ Holds accesses address byte) := by
  constructor
  · rintro (⟨before, access, after, hsplit, hputs, hlater⟩ | ⟨hzero, hnone⟩)
    · -- The write that decides is the last access, or comes before it.
      rcases List.eq_nil_or_concat after with rfl | ⟨after, last, rfl⟩
      · obtain ⟨-, hlast⟩ := List.append_inj' hsplit rfl
        cases hlast
        exact .inl hputs
      · rw [List.concat_eq_append, ← List.cons_append, ← List.append_assoc] at hsplit
        obtain ⟨hfront, hlast⟩ := List.append_inj' hsplit rfl
        cases hlast
        refine .inr ⟨hlater a (by simp), .inl ⟨before, access, after, hfront, hputs, ?_⟩⟩
        exact fun later hin => hlater later (by simp [hin])
    · exact .inr ⟨hnone a (by simp), .inr ⟨hzero, fun access hin => hnone access (by simp [hin])⟩⟩
  · rintro (hputs | ⟨hout, ⟨before, access, after, rfl, hputs, hlater⟩ | ⟨hzero, hnone⟩⟩)
    · exact .inl ⟨accesses, a, [], rfl, hputs, by simp⟩
    · refine .inl ⟨before, access, after ++ [a], by simp, hputs, ?_⟩
      simpa [or_imp, forall_and] using ⟨hlater, hout⟩
    · refine .inr ⟨hzero, ?_⟩
      simpa [or_imp, forall_and] using ⟨hnone, hout⟩

theorem byteAt_accessAll {accesses : List Access} (h : ∀ a ∈ accesses, a.size < 2 ^ 64) (address : UInt64)
    (byte : UInt8) : (accessAll {} accesses).2.byteAt address = byte ↔ Holds accesses address byte := by
  induction accesses using List.reverseRecOn generalizing byte with
  | nil => rw [holds_nil, accessAll, byteAt_empty, eq_comm]
  | append_singleton accesses a ih =>
    rw [accessAll_append, holds_concat, ← ih fun a hin => h a (by simp [hin])]
    exact byteAt_access _ (Nat.le_of_lt (h a (by simp))) address byte

/-- Every byte that is read is the one that the last write over its address put there, or zero without one,
and no access changes an address that it does not cover. -/
theorem accessAll_flat {accesses : List Access} (h : ∀ a ∈ accesses, a.size < 2 ^ 64) :
    (∀ before start count after, accesses = before ++ Access.read start count :: after →
      ∃ found, (accessAll {} accesses).1[before.length]? = some found ∧ found.length = count ∧
        ∀ (i : Nat) (hi : i < found.length) (byte : UInt8),
          found[i] = byte ↔ Holds before (start + UInt64.ofNat i) byte) ∧
    (∀ before a after, accesses = before ++ a :: after → ∀ address, ¬ a.Covers address →
      (accessAll {} (before ++ [a])).2.byteAt address = (accessAll {} before).2.byteAt address) := by
  constructor
  · rintro before start count after rfl
    have hbefore : ∀ a ∈ before, a.size < 2 ^ 64 := fun a hin => h a (by simp [hin])
    refine ⟨(accessAll {} before).2.read start count, ?_, length_read .., ?_⟩
    · rw [accessAll_append, List.getElem?_append_right (by rw [length_accessAll]), length_accessAll,
        Nat.sub_self]
      rfl
    · intro i hi byte
      rw [← byteAt_accessAll hbefore]
      simp [read]
  · rintro before a after rfl address hout
    rw [accessAll_append]
    exact byteAt_access_of_not_covers _ (Nat.le_of_lt (h a (by simp))) hout

/-- A write over the top of memory, a write of one byte of it again, and a read that goes beyond both. -/
theorem accessAll_flat_wrapped :
    let writes : List Access := [.write (.ofNat (2 ^ 64 - 2)) [1, 2, 3, 4], .write 0 [9]]
    let last : Access := .read (.ofNat (2 ^ 64 - 1)) 4
    (∀ a ∈ writes ++ [last], a.size < 2 ^ 64) ∧
    (accessAll {} (writes ++ [last])).1[2]? = some [2, 9, 4, 0] ∧
    Holds writes (.ofNat (2 ^ 64 - 1) + .ofNat 1) 9 ∧ Holds writes (.ofNat (2 ^ 64 - 1) + .ofNat 3) 0 := by
  intro writes last
  have hsizes : ∀ a ∈ writes ++ [last], a.size < 2 ^ 64 := by decide
  have hread : (accessAll {} (writes ++ [last])).1[2]? = some [2, 9, 4, 0] := by decide +kernel
  obtain ⟨found, hfound, -, hbytes⟩ := (accessAll_flat hsizes).1 writes _ _ [] rfl
  have hsame : [2, 9, 4, 0] = found := Option.some.inj (hread.symm.trans hfound)
  subst hsame
  exact ⟨hsizes, hread, (hbytes 1 (by decide) 9).1 rfl, (hbytes 3 (by decide) 0).1 rfl⟩

end FpgaCard.Memory
