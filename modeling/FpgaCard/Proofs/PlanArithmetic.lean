import FpgaCard.Proofs.Positions
import FpgaCard.Proofs.WordArithmetic

/-!
# Plans on machine words

What reads and writes ask the engine for, and how it checks that, computed with words that may not wrap. The
widening of a read stays within a word because no alignment is beyond what the controller counts to. Main
statement: for an endpoint in its region both plans are found, and are those on numbers.
-/

namespace FpgaCard

/-! ## Alignments -/

theorem Engine.lowMask?_eq {shift : UInt8} (h : 2 ^ shift.toNat ≤ Register.countMax) :
    ∃ alignment lowMask, Word.shiftLeft? 1 shift.toUInt64 = some alignment ∧
      Word.sub? alignment 1 = some lowMask ∧ alignment.toNat = 2 ^ shift.toNat ∧
      lowMask.toNat = 2 ^ shift.toNat - 1 := by
  have hbits : shift.toNat < 64 := by
    by_contra hmany
    have hlarge : 2 ^ 64 ≤ 2 ^ shift.toNat := Nat.pow_le_pow_right (by decide) (Nat.not_lt.1 hmany)
    exact absurd (Nat.le_trans hlarge h) (by decide)
  obtain ⟨alignment, halignment, hunit⟩ := Word.shiftLeft?_one shift.toUInt64 hbits
  change alignment.toNat = 2 ^ shift.toNat at hunit
  have hpos : 0 < alignment.toNat := hunit ▸ Nat.two_pow_pos _
  obtain ⟨lowMask, hlowMask, hmask⟩ := Word.sub?_eq (a := alignment) (b := 1) hpos
  exact ⟨alignment, lowMask, halignment, hlowMask, hunit, by rw [hmask, hunit]; rfl⟩

/-- The check of a transfer, with a mask for its alignment. -/
def Transfer.check? (t : Transfer) (e : Engine) : Option Outcome := do
  if t.count = 0 then return .finished (.error zeroLength)
  else
    let count ← Word.ofNat? (min t.count e.maxTransfer)
    let alignment ← Word.shiftLeft? 1 e.settings.shift.toUInt64
    let lowMask ← Word.sub? alignment 1
    return if t.start &&& lowMask ≠ 0 ∨ e.bufferAddress &&& lowMask ≠ 0 ∨ count &&& lowMask ≠ 0 then
        .finished (.error (.misaligned t.start e.bufferAddress count.toNat alignment.toNat))
      else .going { t with count := count.toNat, stage := .give }

theorem Transfer.check?_eq {t : Transfer} {e : Engine} (halignment : e.alignment ≤ Register.countMax)
    (hmost : e.maxTransfer ≤ Register.countMax) : t.check? e = some (t.check e) := by
  have hunit : e.alignment = 2 ^ e.settings.shift.toNat := Engine.alignment_eq e.settings
  have hcut : min t.count e.maxTransfer < 2 ^ 64 :=
    Nat.lt_of_le_of_lt (Nat.le_trans (Nat.min_le_right _ _) hmost) (by decide)
  obtain ⟨count, hcount, hvalue⟩ := Word.ofNat?_eq hcut
  obtain ⟨alignment, lowMask, hshift, hlowMask, hpower, hmask⟩ := Engine.lowMask?_eq (hunit ▸ halignment)
  unfold check? check
  simp only [hcount, hshift, hlowMask, hvalue, hpower, Option.bind_eq_bind, Option.bind_some, ne_eq,
    Word.eq_zero_iff, Word.toNat_and_mask hmask, ← hunit]
  split <;> rfl

/-! ## Plans -/

namespace MemoryEndpoint

/-- The card address of `offset` and the region's end, where words hold both. -/
def wordBounds? (m : MemoryEndpoint) (offset : UInt64) : Option (UInt64 × UInt64) := do
  let address ← Word.add? m.region.base offset
  let finish ← Word.add? m.region.base m.region.length
  return (address, finish)

def readSpan? (m : MemoryEndpoint) (shift : UInt8) (offset room : UInt64) :
    Option (Except CardError Span) := do
  let alignment ← Word.shiftLeft? 1 shift.toUInt64
  let lowMask ← Word.sub? alignment 1
  let skip := offset &&& lowMask
  match m.wordBounds? offset with
  | none => return .error (.outOfRange offset.toNat m.length)
  | some (address, finish) =>
    let start ← Word.sub? address skip
    let covered ← Word.add? (← Word.add? room skip) lowMask
    let left ← Word.sub? finish start
    let wanted := covered &&& ~~~lowMask
    let count := if left < wanted then left &&& ~~~lowMask else wanted
    return if count = 0 then .error (.outOfRange offset.toNat m.length)
      else .ok { start := start.toNat, count := count.toNat, skip := skip.toNat }

def planRead? (m : MemoryEndpoint) (e : Engine) (room : Nat) : Option (Except CardError (Option Span)) :=
  if !m.region.permissions.canRead then some (.error (.permissionDenied m.region.name .read))
  else
    match m.offset? with
    | .error e => some (.error e)
    | .ok none => some (.ok none)
    | .ok (some offset) =>
      if room = 0 then some (.ok none)
      else do
        let span ← m.readSpan? e.settings.shift (← Word.ofNat? offset) (← Word.ofNat? room)
        return span.map some

def planWrite? (m : MemoryEndpoint) (e : Engine) (count : Nat) : Option (Except CardError (Option Span)) :=
  if !m.region.permissions.canWrite then some (.error (.permissionDenied m.region.name .write))
  else
    match m.offset? with
    | .error e => some (.error e)
    | .ok none => some (.ok none)
    | .ok (some offset) =>
      if count = 0 then some (.ok none)
      else do
        let position ← Word.ofNat? offset
        let left ← Word.sub? m.region.length position
        if left.toNat < count ∨ e.bufferSize < count then return .error (overrun offset count)
        else
          match m.wordBounds? position with
          | none => return .error (.outOfRange offset m.length)
          | some (address, _) => return .ok (some { start := address.toNat, count })

def advance? (m : MemoryEndpoint) (count : UInt64) : Option MemoryEndpoint := do
  let position ← Word.add? (← Word.ofNat? m.position) count
  return { m with position := if m.region.length ≤ position then 0 else position.toNat }

variable {m : MemoryEndpoint} {e : Engine}

theorem wordBounds?_eq (offset : UInt64) (hfits : m.region.base.toNat + m.length < 2 ^ 64)
    (hinside : offset.toNat ≤ m.length) : ∃ address finish, m.wordBounds? offset = some (address, finish) ∧
      address.toNat = m.region.base.toNat + offset.toNat ∧
      finish.toNat = m.region.base.toNat + m.length := by
  obtain ⟨address, haddress, hvalue⟩ := Word.add?_eq (a := m.region.base) (b := offset) (by omega)
  obtain ⟨finish, hfinish, hend⟩ := Word.add?_eq (a := m.region.base) (b := m.region.length) hfits
  refine ⟨address, finish, ?_, hvalue, hend⟩
  unfold wordBounds?
  rw [haddress, hfinish]
  rfl

theorem readSpan?_eq {shift : UInt8} (offset room : UInt64)
    (hshift : 2 ^ shift.toNat ≤ Register.countMax) (hfits : m.region.base.toNat + m.length < 2 ^ 64)
    (hinside : offset.toNat ≤ m.length) (hroom : room.toNat < 2 ^ 63) :
    m.readSpan? shift offset room = some (m.readSpan (2 ^ shift.toNat) offset.toNat room.toNat) := by
  obtain ⟨alignment, lowMask, halignment, hlowMask, -, hmask⟩ := Engine.lowMask?_eq hshift
  have hpos : 0 < 2 ^ shift.toNat := Nat.two_pow_pos _
  unfold Register.countMax at hshift
  have hskip := Word.toNat_and_mask hmask offset
  have hless := Nat.mod_lt offset.toNat hpos
  have hle := Nat.mod_le offset.toNat (2 ^ shift.toNat)
  obtain ⟨address, finish, hbounds, haddress, hfinish⟩ := wordBounds?_eq offset hfits hinside
  obtain ⟨start, hstart, hbegin⟩ := Word.sub?_eq (a := address) (b := offset &&& lowMask) (by omega)
  obtain ⟨wide, hwide, hsum⟩ := Word.add?_eq (a := room) (b := offset &&& lowMask) (by omega)
  obtain ⟨covered, hcovered, htotal⟩ := Word.add?_eq (a := wide) (b := lowMask) (by omega)
  obtain ⟨left, hleft, hrest⟩ := Word.sub?_eq (a := finish) (b := start) (by omega)
  have hcount : (if left < covered &&& ~~~lowMask then left &&& ~~~lowMask
      else covered &&& ~~~lowMask).toNat =
      if left.toNat < roundDown (2 ^ shift.toNat) covered.toNat then roundDown (2 ^ shift.toNat) left.toNat
      else roundDown (2 ^ shift.toNat) covered.toNat := by
    rw [apply_ite UInt64.toNat]
    simp only [UInt64.lt_iff_toNat_lt, Word.toNat_and_not_mask hmask]
    rfl
  unfold readSpan? readSpan
  rw [bounds_eq hfits hinside]
  simp only [halignment, hlowMask, hbounds, hstart, hwide, hcovered, hleft, Option.bind_eq_bind,
    Option.bind_some, Word.eq_zero_iff, hcount]
  rw [hrest, htotal, hsum, hbegin, hskip, haddress, hfinish, hmask]
  rfl

theorem planRead?_eq {room : Nat} (halignment : e.alignment ≤ Register.countMax)
    (hfits : m.region.base.toNat + m.length < 2 ^ 64) (hroom : room < 2 ^ 63) :
    m.planRead? e room = some (m.planRead e room) := by
  rw [show e.alignment = 2 ^ e.settings.shift.toNat from Engine.alignment_eq e.settings] at halignment
  have hlength : m.length < 2 ^ 64 := m.length_lt
  unfold planRead? planRead
  cases hreadable : m.region.permissions.canRead with
  | false => rfl
  | true =>
    cases hoffset : m.offset? with
    | error error => rfl
    | ok offset? =>
      cases offset? with
      | none => rfl
      | some offset =>
        by_cases hzero : room = 0
        · rw [hzero]
          rfl
        obtain ⟨rfl, hinside⟩ := offset?_some hoffset
        obtain ⟨position, hposition, hwhere⟩ := Word.ofNat?_eq (Nat.lt_trans hinside hlength)
        obtain ⟨wanted, hwanted, hsize⟩ := Word.ofNat?_eq (Nat.lt_trans hroom (by decide))
        have hspan := readSpan?_eq position wanted halignment hfits (by omega) (by omega)
        rw [hwhere, hsize, ← Engine.alignment_eq] at hspan
        simp only [hzero, hposition, hwanted, hspan, Option.bind_eq_bind, Option.bind_some]
        change some ((m.readSpan e.alignment m.position room).map some) = some (do
          return some (← m.readSpan e.alignment m.position room))
        cases m.readSpan e.alignment m.position room <;> rfl

theorem planWrite?_eq {count : Nat} (hfits : m.region.base.toNat + m.length < 2 ^ 64) :
    m.planWrite? e count = some (m.planWrite e count) := by
  unfold planWrite? planWrite
  cases hwritable : m.region.permissions.canWrite with
  | false => rfl
  | true =>
    cases hoffset : m.offset? with
    | error error => rfl
    | ok offset? =>
      cases offset? with
      | none => rfl
      | some offset =>
        by_cases hzero : count = 0
        · rw [hzero]
          rfl
        obtain ⟨rfl, hinside⟩ := offset?_some hoffset
        obtain ⟨position, hposition, hwhere⟩ := Word.ofNat?_eq (Nat.lt_trans hinside m.length_lt)
        obtain ⟨left, hleft, hrest⟩ := Word.sub?_eq (a := m.region.length) (b := position)
          (by rw [hwhere]; exact Nat.le_of_lt hinside)
        obtain ⟨address, finish, hbounds, haddress, -⟩ :=
          wordBounds?_eq position hfits (by rw [hwhere]; exact Nat.le_of_lt hinside)
        simp only [hzero, hposition, hleft, hbounds, hrest, haddress, hwhere, Option.bind_eq_bind,
          Option.bind_some, Bool.not_true, Bool.false_eq_true, if_false]
        by_cases hroom : m.length - m.position < count ∨ e.bufferSize < count
        · rw [show m.region.length.toNat = m.length from rfl, if_pos hroom]
          exact congrArg some (if_pos hroom).symm
        · rw [show m.region.length.toNat = m.length from rfl, if_neg hroom]
          refine congrArg some (Eq.trans ?_ (if_neg hroom).symm)
          rw [bounds_eq hfits (Nat.le_of_lt hinside)]
          rfl

theorem advance?_eq (count : UInt64) (h : m.position + count.toNat ≤ m.length) :
    m.advance? count = some (m.advance count.toNat) := by
  have hlength : m.length < 2 ^ 64 := m.length_lt
  obtain ⟨position, hposition, hwhere⟩ := Word.ofNat?_eq (n := m.position) (by omega)
  obtain ⟨sum, hsum, hvalue⟩ := Word.add?_eq (a := position) (b := count) (by omega)
  unfold advance? advance
  simp only [hposition, hsum, Option.bind_eq_bind, Option.bind_some, UInt64.le_iff_toNat_le, hvalue, hwhere]
  rfl

end MemoryEndpoint

end FpgaCard
