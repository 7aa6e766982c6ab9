import Std.Data.TreeMap

/-!
# Sparse memory

A memory of 2^64 bytes, zero where nothing was written, kept in pages that appear with the first
write to them. Addresses wrap at the top. Main statement: a write of one byte changes that byte and
no other.
-/

namespace FpgaCard

abbrev Page := Vector UInt8 4096

structure Memory where
  pages : Std.TreeMap UInt64 Page := ∅

instance : Inhabited Memory := ⟨{}⟩

namespace Memory

/-- A page that was never written. -/
def blankPage : Page := Vector.replicate 4096 0

def pageOf (address : UInt64) : UInt64 := address / 4096

def placeOf (address : UInt64) : Fin 4096 :=
  ⟨(address % 4096).toNat, by
    rw [UInt64.toNat_mod]
    exact Nat.mod_lt _ (by decide)⟩

def byteAt (m : Memory) (address : UInt64) : UInt8 :=
  match m.pages[pageOf address]? with
  | none => 0
  | some page => page[placeOf address]

def set (m : Memory) (address : UInt64) (byte : UInt8) : Memory :=
  { pages := m.pages.alter (pageOf address) fun page? =>
      some ((page?.getD blankPage).set (placeOf address) byte) }

def read (m : Memory) (address : UInt64) (count : Nat) : List UInt8 :=
  (List.range count).map fun i => m.byteAt (address + UInt64.ofNat i)

def write (m : Memory) (address : UInt64) : List UInt8 → Memory
  | [] => m
  | byte :: bytes => (m.set address byte).write (address + 1) bytes

theorem eq_of_pageOf_placeOf {a b : UInt64} (hpage : pageOf a = pageOf b)
    (hplace : placeOf a = placeOf b) : a = b := by
  have h1 := congrArg UInt64.toNat hpage
  have h2 := congrArg Fin.val hplace
  simp only [pageOf, placeOf, UInt64.toNat_div, UInt64.toNat_mod, UInt64.reduceToNat] at h1 h2
  apply UInt64.toNat_inj.1
  omega

@[simp]
theorem byteAt_empty (a : UInt64) : ({} : Memory).byteAt a = 0 := by
  simp [byteAt]

theorem byteAt_set (m : Memory) (a b : UInt64) (byte : UInt8) :
    (m.set a byte).byteAt b = if a = b then byte else m.byteAt b := by
  simp only [byteAt, set, Std.TreeMap.getElem?_alter, Std.LawfulEqCmp.compare_eq_iff_eq]
  by_cases hpage : pageOf a = pageOf b
  · by_cases hplace : placeOf a = placeOf b
    · simp [eq_of_pageOf_placeOf hpage hplace]
    · have hne : a ≠ b := fun h => hplace (h ▸ rfl)
      have hval : (placeOf a).val ≠ (placeOf b).val := fun h => hplace (Fin.ext h)
      rw [hpage]
      cases hm : m.pages[pageOf b]? with
      | none => simp [hne, hval, blankPage]
      | some page => simp [hne, hval]
  · have hne : a ≠ b := fun h => hpage (h ▸ rfl)
    simp [hpage, hne]

@[simp]
theorem length_read (m : Memory) (a : UInt64) (n : Nat) : (m.read a n).length = n := by
  simp [read]

end Memory

end FpgaCard
