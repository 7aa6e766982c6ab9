import FpgaCard.Proofs.Checksum
import FpgaCard.Proofs.PayloadFormat
import FpgaCard.Table.Window
import Mathlib

/-!
# The table format

A window of 4096 bytes as a chain of records, each behind the one before it, up to the first end marker.
Main statement: a table is accepted if and only if its chain is sound, and what it holds is that chain
decoded; otherwise the error names the first thing that is wrong with it.
-/

namespace FpgaCard

namespace Table

/-! ## Chains -/

def tagAt (w : List UInt8) (offset : Nat) : UInt8 := w.getD offset 0

def sizeAt (w : List UInt8) (offset : Nat) : UInt8 := w.getD (offset + 1) 0

def payloadAt (w : List UInt8) (offset : Nat) : List UInt8 :=
  (w.drop (offset + 2)).take (sizeAt w offset).toNat

def recordAt (w : List UInt8) (offset : Nat) : Record :=
  ⟨offset, tagAt w offset, payloadAt w offset⟩

/-- Where record `k` begins, if all records before it are there. -/
def place (w : List UInt8) : Nat → Nat
  | 0 => 5
  | k + 1 => place w k + 2 + (sizeAt w (place w k)).toNat

/-- The first `n` records lie in the window, and none of them is an end marker. -/
def Leads (w : List UInt8) (n : Nat) : Prop :=
  ∀ k < n, tagAt w (place w k) ≠ 0 ∧ place w (k + 1) ≤ 4096

/-- The chain ends with record `n`, a sound end marker that leaves a byte of the window behind it. -/
structure Closes (w : List UInt8) (n : Nat) : Prop where
  leads : Leads w n
  marker : tagAt w (place w n) = 0
  size : sizeAt w (place w n) = 2 ∨ sizeAt w (place w n) = 3
  below : place w (n + 1) < 4096

/-- What is wrong with a record that ends the walk over the chain before its time. -/
inductive Broken (w : List UInt8) (offset : Nat) : String → Prop where
  | header : 4096 < offset + 2 → Broken w offset "PROM end marker not found"
  | payload : offset + 2 ≤ 4096 → 4096 < offset + 2 + (sizeAt w offset).toNat →
      Broken w offset s!"entry of {sizeAt w offset} bytes runs past the end of the table"
  | size : offset + 2 + (sizeAt w offset).toNat ≤ 4096 → tagAt w offset = 0 →
      sizeAt w offset ≠ 2 → sizeAt w offset ≠ 3 →
      Broken w offset s!"end marker of {sizeAt w offset} bytes, expected 2 or 3"
  | full : offset + 2 + (sizeAt w offset).toNat = 4096 → tagAt w offset = 0 →
      sizeAt w offset = 2 ∨ sizeAt w offset = 3 →
      Broken w offset "end marker fills the whole window"

/-! ## The walk -/

def withRecord (record : Record) (found : List Record × Nat) : List Record × Nat :=
  (record :: found.1, found.2)

theorem walk_record {offset : Nat} {tag : UInt8} {payload : List UInt8} (rest : List UInt8)
    (htag : tag ≠ Tag.finish.byte) (hlen : payload.length ≤ 255) :
    walk offset (tag :: UInt8.ofNat payload.length :: (payload ++ rest)) =
      (walk (Record.next offset payload.length) rest).map (withRecord ⟨offset, tag, payload⟩) := by
  have hsize : (UInt8.ofNat payload.length).toNat = payload.length :=
    UInt8.toNat_ofNat_of_lt' (by show payload.length < 256; omega)
  rw [walk, hsize, if_neg (by simp), if_neg htag, List.drop_left, List.take_left]
  cases walk (Record.next offset payload.length) rest <;> rfl

theorem walk_marker {offset : Nat} {size : UInt8} {body : List UInt8} (hsize : size = 2 ∨ size = 3)
    (hbody : size.toNat < body.length) :
    walk offset (Tag.finish.byte :: size :: body) = .ok ([], Record.next offset size.toNat) := by
  rw [walk, if_neg (by omega), if_pos rfl, if_neg, if_neg (by omega)]
  rintro ⟨h2, h3⟩
  obtain h | h := hsize
  · exact h2 h
  · exact h3 h

section

variable {w : List UInt8} {offset : Nat}

theorem drop_record (h : offset + 2 ≤ w.length) :
    w.drop offset = tagAt w offset :: sizeAt w offset :: w.drop (offset + 2) := by
  rw [List.drop_eq_getElem_cons (by omega), List.drop_eq_getElem_cons (by omega), tagAt, sizeAt,
    List.getD_eq_getElem _ _ (by omega), List.getD_eq_getElem _ _ (by omega)]

theorem length_payloadAt (h : offset + 2 + (sizeAt w offset).toNat ≤ w.length) :
    (payloadAt w offset).length = (sizeAt w offset).toNat := by
  rw [payloadAt, List.length_take, List.length_drop]
  omega

theorem walk_of_record (h : offset + 2 + (sizeAt w offset).toNat ≤ w.length)
    (htag : tagAt w offset ≠ 0) :
    walk offset (w.drop offset) =
      (walk (offset + 2 + (sizeAt w offset).toNat) (w.drop (offset + 2 + (sizeAt w offset).toNat))).map
        (withRecord (recordAt w offset)) := by
  have hlen := length_payloadAt h
  have hsize : UInt8.ofNat (payloadAt w offset).length = sizeAt w offset := by
    rw [hlen, UInt8.ofNat_toNat]
  have hrest : w.drop (offset + 2) =
      payloadAt w offset ++ w.drop (offset + 2 + (sizeAt w offset).toNat) := by
    have hdrop : w.drop (offset + 2 + (sizeAt w offset).toNat) =
        (w.drop (offset + 2)).drop (sizeAt w offset).toNat := List.drop_drop.symm
    rw [hdrop, payloadAt, List.take_append_drop]
  have hfits := (sizeAt w offset).toNat_lt
  rw [drop_record (by omega), hrest, ← hsize, walk_record _ htag (by omega), hsize, hlen]
  rfl

theorem walk_of_broken {reason : String} (hw : w.length = 4096) (h : Broken w offset reason) :
    walk offset (w.drop offset) = .error (.truncatedTable offset reason) := by
  cases h with
  | header hshort =>
    have hless : (w.drop offset).length < 2 := by rw [List.length_drop]; omega
    rw [walk]
    intro tag size body hbody
    rw [hbody, List.length_cons, List.length_cons] at hless
    omega
  | payload hheader hlong =>
    rw [drop_record (by omega), walk, if_pos (by rw [List.length_drop]; omega)]
  | size hfits htag h2 h3 =>
    have hmarker : tagAt w offset = Tag.finish.byte := htag
    rw [drop_record (by omega), walk, if_neg (by rw [List.length_drop]; omega), if_pos hmarker,
      if_pos ⟨h2, h3⟩]
  | full hfull htag hsize =>
    have hmarker : tagAt w offset = Tag.finish.byte := htag
    rw [drop_record (by omega), walk, if_neg (by rw [List.length_drop]; omega), if_pos hmarker, if_neg,
      if_pos (by rw [List.length_drop]; omega)]
    rintro ⟨h2, h3⟩
    obtain h | h := hsize
    · exact h2 h
    · exact h3 h

end

variable {w : List UInt8} {n : Nat}

def recordsOf (w : List UInt8) (n : Nat) : List Record :=
  (List.range n).map fun k => recordAt w (place w k)

theorem walk_of_leads (hw : w.length = 4096) (h : Leads w n) :
    walk firstRecord (w.drop firstRecord) =
      (walk (place w n) (w.drop (place w n))).map fun found => (recordsOf w n ++ found.1, found.2) := by
  induction n with
  | zero =>
    rw [show place w 0 = firstRecord from rfl]
    cases walk firstRecord (w.drop firstRecord) <;> rfl
  | succ n ih =>
    obtain ⟨htag, hfits⟩ := h n (Nat.lt_succ_self n)
    rw [ih fun k hk => h k (Nat.lt_succ_of_lt hk), walk_of_record (hw ▸ hfits) htag, place]
    cases walk (place w n + 2 + (sizeAt w (place w n)).toNat)
      (w.drop (place w n + 2 + (sizeAt w (place w n)).toNat)) with
    | error e => rfl
    | ok found => simp [Except.map, withRecord, recordsOf, List.range_succ]

theorem walk_of_closes (hw : w.length = 4096) (h : Closes w n) :
    walk firstRecord (w.drop firstRecord) = .ok (recordsOf w n, place w (n + 1)) := by
  have hbelow := h.below
  have hnext : place w (n + 1) = place w n + 2 + (sizeAt w (place w n)).toNat := rfl
  have hmarker : tagAt w (place w n) = Tag.finish.byte := h.marker
  rw [walk_of_leads hw h.leads, drop_record (by omega), hmarker,
    walk_marker h.size (by rw [List.length_drop]; omega), Record.next]
  simp [Except.map, place]

theorem le_place (w : List UInt8) (n : Nat) : 2 * n ≤ place w n := by
  induction n with
  | zero => exact Nat.zero_le _
  | succ n ih =>
    rw [place]
    omega

theorem place_mono (w : List UInt8) : Monotone (place w) := by
  apply monotone_nat_of_le_succ
  intro n
  rw [place]
  omega

theorem place_congr {w' : List UInt8} (h : ∀ k ≤ n, sizeAt w' (place w k) = sizeAt w (place w k)) {k : Nat}
    (hk : k ≤ n + 1) : place w' k = place w k := by
  induction k with
  | zero => rfl
  | succ k ih => rw [place, place, ih (by omega), h k (by omega)]

theorem Closes.congr {w' : List UInt8} (h : Closes w n)
    (hsize : ∀ k ≤ n, sizeAt w' (place w k) = sizeAt w (place w k))
    (htag : ∀ k ≤ n, tagAt w' (place w k) = 0 ↔ tagAt w (place w k) = 0) :
    Closes w' n := by
  have hplace {k : Nat} (hk : k ≤ n + 1) : place w' k = place w k := place_congr hsize hk
  constructor
  case leads =>
    intro k hk
    rw [hplace (by omega), hplace (by omega), Ne, htag k (by omega)]
    exact h.leads k hk
  case marker =>
    rw [hplace (by omega), htag n (Nat.le_refl n)]
    exact h.marker
  case size =>
    rw [hplace (by omega), hsize n (Nat.le_refl n)]
    exact h.size
  case below =>
    rw [hplace (Nat.le_refl _)]
    exact h.below

/-- Every chain comes to a broken record or to a sound end marker. -/
theorem exists_end (w : List UInt8) :
    ∃ n, (Leads w n ∧ ∃ reason, Broken w (place w n) reason) ∨ Closes w n := by
  let Stops (n : Nat) : Prop := tagAt w (place w n) = 0 ∨ 4096 < place w (n + 1)
  have hstops : ∃ n, Stops n := by
    have hfar := le_place w (4096 + 1)
    exact ⟨4096, .inr (by omega)⟩
  classical
  have hleads : Leads w (Nat.find hstops) := by
    intro k hk
    have hgoes := Nat.find_min hstops hk
    exact ⟨fun htag => hgoes (.inl htag), Nat.le_of_not_lt fun hlong => hgoes (.inr hlong)⟩
  refine ⟨Nat.find hstops, ?_⟩
  by_cases hheader : 4096 < place w (Nat.find hstops) + 2
  · exact .inl ⟨hleads, _, .header hheader⟩
  by_cases hlong : 4096 < place w (Nat.find hstops + 1)
  · exact .inl ⟨hleads, _, .payload (Nat.le_of_not_lt hheader) hlong⟩
  have htag : tagAt w (place w (Nat.find hstops)) = 0 :=
    (Nat.find_spec hstops).resolve_right hlong
  by_cases hsize : sizeAt w (place w (Nat.find hstops)) = 2 ∨ sizeAt w (place w (Nat.find hstops)) = 3
  · by_cases hfull : place w (Nat.find hstops + 1) = 4096
    · exact .inl ⟨hleads, _, .full hfull htag hsize⟩
    · exact .inr ⟨hleads, htag, hsize, by omega⟩
  · rw [not_or] at hsize
    exact .inl ⟨hleads, _, .size (Nat.le_of_not_lt hlong) htag hsize.1 hsize.2⟩

/-! ## Decoding -/

def Record.isWhole (r : Record) : Prop := Tag.leastPayload r.tag ≤ r.payload.length

theorem decodeAll_of_whole {records : List Record} (h : ∀ r ∈ records, r.isWhole) :
    decodeAll records =
      .ok (records.map fun r => ⟨r.offset, Entry.ofPayload r.tag r.payload⟩) := by
  induction records with
  | nil => rfl
  | cons r records ih =>
    have hwhole : Tag.leastPayload r.tag ≤ r.payload.length := h r List.mem_cons_self
    rw [decodeAll, Entry.decode, if_neg (Nat.not_lt.2 hwhole),
      ih fun r' hr' => h r' (List.mem_cons_of_mem r hr')]
    rfl

theorem decodeAll_of_short {records : List Record} {k : Nat} (hk : k < records.length)
    (hbefore : ∀ j (hj : j < k), (records[j]).isWhole) (hshort : ¬(records[k]).isWhole) :
    decodeAll records = .error (.malformedEntry records[k].offset records[k].tag
      s!"payload of {records[k].payload.length} bytes, need at least {Tag.leastPayload records[k].tag}") := by
  induction records generalizing k with
  | nil => simp at hk
  | cons r records ih =>
    cases k with
    | zero =>
      have hless : r.payload.length < Tag.leastPayload r.tag := Nat.lt_of_not_le hshort
      rw [decodeAll, Entry.decode, if_pos hless]
      rfl
    | succ k =>
      have hwhole : Tag.leastPayload r.tag ≤ r.payload.length := hbefore 0 (Nat.succ_pos k)
      have hrest := ih (Nat.lt_of_succ_lt_succ hk) (fun j hj => hbefore (j + 1) (Nat.succ_lt_succ hj))
        hshort
      rw [decodeAll, Entry.decode, if_neg (Nat.not_lt.2 hwhole), hrest]
      rfl

theorem decodeAll_of_not_whole {records : List Record} (h : ¬∀ r ∈ records, r.isWhole) :
    ∃ offset tag reason, decodeAll records = .error (.malformedEntry offset tag reason) := by
  have hshort : ∃ k, ∃ hk : k < records.length, ¬(records[k]).isWhole := by
    simpa only [List.forall_mem_iff_getElem, not_forall] using h
  classical
  obtain ⟨hk, hfirst⟩ := Nat.find_spec hshort
  refine ⟨_, _, _, decodeAll_of_short hk (fun j hj => ?_) hfirst⟩
  by_contra hj'
  exact Nat.find_min hshort hj ⟨Nat.lt_trans hj hk, hj'⟩

/-! ## Acceptance -/

/-- Whether record `k` holds the fixed part of its tag. -/
def WholeAt (w : List UInt8) (k : Nat) : Prop :=
  leastFor (tagAt w (place w k)) ≤ (sizeAt w (place w k)).toNat

/-- What is said of a record that does not hold the fixed part of its tag. -/
def shortReason (w : List UInt8) (offset : Nat) : String :=
  s!"payload of {(sizeAt w offset).toNat} bytes, need at least {leastFor (tagAt w offset)}"

/-- The bytes fit into a window and have the version that is read here. -/
structure Readable (bytes : List UInt8) : Prop where
  length : bytes.length ≤ 4096
  version : (padded bytes).getD 4 0 = 1

/-- The bytes are a table of `n` records. -/
structure Accepted (bytes : List UInt8) (n : Nat) : Prop where
  readable : Readable bytes
  closes : Closes (padded bytes) n
  checksum : Checksum.IsChecksum ((padded bytes).take (place (padded bytes) (n + 1))) 0
  whole : ∀ k < n, WholeAt (padded bytes) k

/-- What is wrong with bytes that are no table, and the error that says so: each thing is looked at only
where all before it is right. -/
inductive Violation (bytes : List UInt8) : CardError → Prop where
  | length : 4096 < bytes.length →
      Violation bytes (.truncatedTable 4096 s!"table of {bytes.length} bytes exceeds {4096}")
  | version : bytes.length ≤ 4096 → (padded bytes).getD 4 0 ≠ 1 →
      Violation bytes (.unsupportedVersion ((padded bytes).getD 4 0) 1)
  | chain (n : Nat) (reason : String) : Readable bytes → Leads (padded bytes) n →
      Broken (padded bytes) (place (padded bytes) n) reason →
      Violation bytes (.truncatedTable (place (padded bytes) n) reason)
  | checksum (n : Nat) (sum : UInt16) : Readable bytes → Closes (padded bytes) n →
      Checksum.IsChecksum ((padded bytes).take (place (padded bytes) (n + 1))) sum → sum ≠ 0 →
      Violation bytes (.checksumMismatch sum (place (padded bytes) (n + 1)))
  | payload (n k : Nat) : Readable bytes → Closes (padded bytes) n →
      Checksum.IsChecksum ((padded bytes).take (place (padded bytes) (n + 1))) 0 →
      k < n → (∀ j < k, WholeAt (padded bytes) j) → ¬WholeAt (padded bytes) k →
      Violation bytes (.malformedEntry (place (padded bytes) k)
        (tagAt (padded bytes) (place (padded bytes) k))
        (shortReason (padded bytes) (place (padded bytes) k)))

/-- What a table of `n` records in the window `w` holds. -/
structure Describes (w : List UInt8) (n : Nat) (t : Table) : Prop where
  window : t.window = w
  isDefault : t.isDefault = false
  length : t.length = place w (n + 1)
  count : t.placed.length = n
  placed : ∀ k (hk : k < t.placed.length), t.placed[k].offset = place w k ∧
    Says (tagAt w (place w k)) (payloadAt w (place w k)) t.placed[k].entry
  regionCount : t.regionCount = (List.range n).countP fun k =>
    tagAt w (place w k) = 2 ∨ tagAt w (place w k) = 3
  nodeCount : t.nodeCount = (List.range n).countP fun k =>
    tagAt w (place w k) = 1 ∨ tagAt w (place w k) = 2 ∨ tagAt w (place w k) = 3
  mask : t.settings.mask = (((List.range n).find? fun k => tagAt w (place w k) = 4).map fun k =>
    (payloadAt w (place w k)).getD 0 0).getD 47
  shift : t.settings.shift = (((List.range n).find? fun k => tagAt w (place w k) = 5).map fun k =>
    (payloadAt w (place w k)).getD 0 0).getD 5

theorem length_padded {bytes : List UInt8} (h : bytes.length ≤ 4096) : (padded bytes).length = 4096 := by
  rw [padded, List.length_append, List.length_replicate, windowSize]
  omega

theorem getD_padded (bytes : List UInt8) (i : Nat) : (padded bytes).getD i 0 = bytes.getD i 0 := by
  rw [padded, List.getD_eq_getElem?_getD, List.getD_eq_getElem?_getD]
  by_cases h : i < bytes.length
  · rw [List.getElem?_append_left h]
  · rw [List.getElem?_append_right (by omega), List.getElem?_eq_none (l := bytes) (by omega),
      List.getElem?_replicate]
    split <;> rfl

theorem isChecksum_take_iff {bytes : List UInt8} (h : bytes.length ≤ 4096) {length : Nat} {sum : UInt16} :
    Checksum.IsChecksum ((padded bytes).take length) sum ↔
      Checksum.checksum ((padded bytes).take length) = sum := by
  apply Checksum.isChecksum_iff
  rw [List.length_take, length_padded h]
  omega

theorem isWhole_recordAt {w : List UInt8} {k : Nat} (h : place w (k + 1) ≤ w.length) :
    (recordAt w (place w k)).isWhole ↔ WholeAt w k := by
  have hlen := length_payloadAt (show Record.next (place w k) _ ≤ w.length from h)
  unfold Record.isWhole WholeAt
  rw [recordAt, hlen, leastPayload_eq]

theorem ofBytes_of_readable {bytes : List UInt8} (h : Readable bytes) :
    ofBytes bytes = (walk firstRecord ((padded bytes).drop firstRecord)).bind fun found =>
      if Checksum.checksum ((padded bytes).take found.2) ≠ 0 then
        .error (.checksumMismatch (Checksum.checksum ((padded bytes).take found.2)) found.2)
      else (decodeAll found.1).map fun placed =>
        { window := padded bytes, length := found.2, placed, isDefault := false } := by
  have hversion : (padded bytes).getD versionOffset 0 = version := h.version
  rw [ofBytes, windowSize, if_neg (Nat.not_lt.2 h.length), ofWindow, if_neg (not_not.2 hversion)]
  cases walk firstRecord ((padded bytes).drop firstRecord) <;> rfl

theorem ofBytes_of_violation {bytes : List UInt8} {e : CardError} (h : Violation bytes e) :
    ofBytes bytes = .error e := by
  cases h with
  | length hlong => rw [ofBytes, windowSize, if_pos hlong]
  | version hfits hversion =>
    have hother : (padded bytes).getD versionOffset 0 ≠ version := hversion
    rw [ofBytes, windowSize, if_neg (Nat.not_lt.2 hfits), ofWindow, if_pos hother]
    rfl
  | chain n reason hreadable hleads hbroken =>
    have hw := length_padded hreadable.length
    rw [ofBytes_of_readable hreadable, walk_of_leads hw hleads, walk_of_broken hw hbroken]
    rfl
  | checksum n sum hreadable hcloses hsum hwrong =>
    rw [isChecksum_take_iff hreadable.length] at hsum
    have hw := length_padded hreadable.length
    rw [ofBytes_of_readable hreadable, walk_of_closes hw hcloses]
    rw [← hsum] at hwrong ⊢
    exact if_pos hwrong
  | payload n k hreadable hcloses hsum hk hbefore hshort =>
    rw [isChecksum_take_iff hreadable.length] at hsum
    have hw := length_padded hreadable.length
    have hfits (j : Nat) (hj : j < n) : place (padded bytes) (j + 1) ≤ (padded bytes).length := by
      rw [hw]
      exact (hcloses.leads j hj).2
    have hlen : k < (recordsOf (padded bytes) n).length := by simpa [recordsOf] using hk
    have hrecord (j : Nat) (hj : j < (recordsOf (padded bytes) n).length) :
        (recordsOf (padded bytes) n)[j] = recordAt (padded bytes) (place (padded bytes) j) := by
      simp [recordsOf]
    have hdecode := decodeAll_of_short hlen
      (fun j hj => by
        rw [hrecord, isWhole_recordAt (hfits j (Nat.lt_trans hj hk))]
        exact hbefore j hj)
      (by
        rw [hrecord, isWhole_recordAt (hfits k hk)]
        exact hshort)
    have hpayload : (recordAt (padded bytes) (place (padded bytes) k)).payload.length =
        (sizeAt (padded bytes) (place (padded bytes) k)).toNat := length_payloadAt (hfits k hk)
    rw [hrecord k hlen, hpayload, leastPayload_eq] at hdecode
    rw [ofBytes_of_readable hreadable, walk_of_closes hw hcloses, Except.bind, if_neg (not_not.2 hsum),
      hdecode]
    rfl

theorem violation_or_accepted (bytes : List UInt8) :
    (∃ e, Violation bytes e) ∨ ∃ n, Accepted bytes n := by
  by_cases hlength : 4096 < bytes.length
  · exact .inl ⟨_, .length hlength⟩
  have hfits := Nat.le_of_not_lt hlength
  by_cases hversion : (padded bytes).getD 4 0 = 1
  case neg => exact .inl ⟨_, .version hfits hversion⟩
  have hreadable : Readable bytes := ⟨hfits, hversion⟩
  obtain ⟨n, ⟨hleads, reason, hbroken⟩ | hcloses⟩ := exists_end (padded bytes)
  · exact .inl ⟨_, .chain n reason hreadable hleads hbroken⟩
  by_cases hsum : Checksum.checksum ((padded bytes).take (place (padded bytes) (n + 1))) = 0
  case neg => exact .inl ⟨_, .checksum n _ hreadable hcloses ((isChecksum_take_iff hfits).2 rfl) hsum⟩
  rw [← isChecksum_take_iff hfits] at hsum
  by_cases hwhole : ∀ k < n, WholeAt (padded bytes) k
  · exact .inr ⟨n, hreadable, hcloses, hsum, hwhole⟩
  · have hshort : ∃ k, k < n ∧ ¬WholeAt (padded bytes) k := by
      simpa only [not_forall, exists_prop] using hwhole
    classical
    obtain ⟨hk, hfirst⟩ := Nat.find_spec hshort
    refine .inl ⟨_, .payload n (Nat.find hshort) hreadable hcloses hsum hk (fun j hj => ?_) hfirst⟩
    by_contra hj'
    exact Nat.find_min hshort hj ⟨Nat.lt_trans hj hk, hj'⟩

end Table

/-! ## What a table holds -/

namespace Entry

def maskOf? : Entry → Option UInt8
  | .dmaMask bits => some bits
  | _ => none

def shiftOf? : Entry → Option UInt8
  | .dmaAlign shift => some shift
  | _ => none

section

variable (tag : UInt8) (payload : List UInt8)

theorem isRegion_ofPayload :
    (ofPayload tag payload).isRegion = decide (tag = Tag.dma.byte ∨ tag = Tag.dmaExtended.byte) := by
  cases tag using Tag.byte_cases with
  | known tag => cases tag <;> rfl
  | other tag h => simp [ofPayload, h, isRegion, region?, Tag.ne_byte h]

theorem hasNode_ofPayload :
    (ofPayload tag payload).hasNode =
      decide (tag = Tag.device.byte ∨ tag = Tag.dma.byte ∨ tag = Tag.dmaExtended.byte) := by
  cases tag using Tag.byte_cases with
  | known tag => cases tag <;> rfl
  | other tag h => simp [ofPayload, h, hasNode, isRegion, region?, Tag.ne_byte h]

theorem maskOf?_ofPayload :
    (ofPayload tag payload).maskOf? =
      if tag = Tag.dmaMask.byte then some (payload.getD 0 0) else none := by
  cases tag using Tag.byte_cases with
  | known tag => cases tag <;> rfl
  | other tag h => simp [ofPayload, h, maskOf?, Tag.ne_byte h]

theorem shiftOf?_ofPayload :
    (ofPayload tag payload).shiftOf? =
      if tag = Tag.dmaAlign.byte then some (payload.getD 0 0) else none := by
  cases tag using Tag.byte_cases with
  | known tag => cases tag <;> rfl
  | other tag h => simp [ofPayload, h, shiftOf?, Tag.ne_byte h]

end

end Entry

namespace Table

theorem findSome?_eq_map_find? {α β : Type} (p : α → Prop) [DecidablePred p] (g : α → β)
    (xs : List α) :
    xs.findSome? (fun x => if p x then some (g x) else none) = (xs.find? fun x => p x).map g := by
  induction xs with
  | nil => rfl
  | cons x xs ih =>
    rw [List.findSome?_cons, List.find?_cons]
    by_cases h : p x
    · simp [h]
    · simp [h, ih]

theorem settings_mask (t : Table) :
    t.settings.mask = (t.entries.findSome? Entry.maskOf?).getD 47 := rfl

theorem settings_shift (t : Table) :
    t.settings.shift = (t.entries.findSome? Entry.shiftOf?).getD 5 := rfl

variable {bytes w : List UInt8} {n : Nat} {t : Table}

/-- The table of the first `n` records of a window and the end marker behind them. -/
def ofChain (w : List UInt8) (n : Nat) : Table where
  window := w
  length := place w (n + 1)
  placed := (recordsOf w n).map fun r => ⟨r.offset, Entry.ofPayload r.tag r.payload⟩
  isDefault := false

theorem entries_ofChain (w : List UInt8) (n : Nat) :
    (ofChain w n).entries = (List.range n).map fun k =>
      Entry.ofPayload (tagAt w (place w k)) (payloadAt w (place w k)) := by
  rw [entries, ofChain, recordsOf, List.map_map, List.map_map]
  rfl

theorem length_placed_ofChain (w : List UInt8) (n : Nat) : (ofChain w n).placed.length = n := by
  rw [ofChain, List.length_map, recordsOf, List.length_map, List.length_range]

theorem getElem_placed_ofChain {k : Nat} (h : k < (ofChain w n).placed.length) :
    (ofChain w n).placed[k] =
      ⟨place w k, Entry.ofPayload (tagAt w (place w k)) (payloadAt w (place w k))⟩ := by
  simp only [ofChain, recordsOf, List.getElem_map, List.getElem_range]
  rfl

theorem says_iff_of_accepted (h : Accepted bytes n) {k : Nat} (hk : k < n) {entry : Entry} :
    Says (tagAt (padded bytes) (place (padded bytes) k)) (payloadAt (padded bytes) (place (padded bytes) k))
      entry ↔ Entry.ofPayload (tagAt (padded bytes) (place (padded bytes) k))
        (payloadAt (padded bytes) (place (padded bytes) k)) = entry := by
  obtain ⟨htag, hfits⟩ := h.closes.leads k hk
  refine says_iff htag ?_
  rw [length_payloadAt (by rw [length_padded h.readable.length]; exact hfits)]
  exact h.whole k hk

theorem describes_ofChain (h : Accepted bytes n) :
    Describes (padded bytes) n (ofChain (padded bytes) n) where
  window := rfl
  isDefault := rfl
  length := rfl
  count := length_placed_ofChain _ n
  placed := by
    intro k hk
    rw [getElem_placed_ofChain hk]
    rw [length_placed_ofChain] at hk
    exact ⟨rfl, (says_iff_of_accepted h hk).2 rfl⟩
  regionCount := by
    rw [regionCount, entries_ofChain, List.countP_map]
    congr 1
    funext k
    exact Entry.isRegion_ofPayload _ _
  nodeCount := by
    rw [nodeCount, nodeEntries, entries_ofChain, ← List.countP_eq_length_filter, List.countP_map]
    congr 1
    funext k
    exact Entry.hasNode_ofPayload _ _
  mask := by
    rw [settings_mask, entries_ofChain, List.findSome?_map, ← findSome?_eq_map_find?]
    congr 2
    funext k
    exact Entry.maskOf?_ofPayload _ _
  shift := by
    rw [settings_shift, entries_ofChain, List.findSome?_map, ← findSome?_eq_map_find?]
    congr 2
    funext k
    exact Entry.shiftOf?_ofPayload _ _

theorem Describes.eq_ofChain (h : Describes (padded bytes) n t) (haccepted : Accepted bytes n) :
    t = ofChain (padded bytes) n := by
  have hplaced : t.placed = (ofChain (padded bytes) n).placed := by
    apply List.ext_getElem (by rw [h.count, length_placed_ofChain])
    intro k hk hk'
    obtain ⟨hoffset, hentry⟩ := h.placed k hk
    rw [h.count] at hk
    rw [getElem_placed_ofChain hk', (says_iff_of_accepted haccepted hk).1 hentry, ← hoffset]
  cases t
  simp only [mk.injEq, ofChain]
  exact ⟨h.window, h.length, hplaced, h.isDefault⟩

theorem Accepted.checksum_eq_zero (h : Accepted bytes n) :
    Checksum.checksum ((padded bytes).take (place (padded bytes) (n + 1))) = 0 :=
  (isChecksum_take_iff h.readable.length).1 h.checksum

theorem ofBytes_of_accepted (h : Accepted bytes n) : ofBytes bytes = .ok (ofChain (padded bytes) n) := by
  have hw := length_padded h.readable.length
  have hwhole : ∀ r ∈ recordsOf (padded bytes) n, r.isWhole := by
    intro r hr
    rw [recordsOf, List.mem_map] at hr
    obtain ⟨k, hk, rfl⟩ := hr
    rw [List.mem_range] at hk
    rw [isWhole_recordAt (hw ▸ (h.closes.leads k hk).2)]
    exact h.whole k hk
  rw [ofBytes_of_readable h.readable, walk_of_closes hw h.closes, Except.bind,
    if_neg (not_not.2 h.checksum_eq_zero), decodeAll_of_whole hwhole]
  rfl

theorem accepted_of_ok (h : ofBytes bytes = .ok t) : ∃ n, Accepted bytes n ∧ t = ofChain (padded bytes) n := by
  obtain ⟨e, he⟩ | ⟨n, hn⟩ := violation_or_accepted bytes
  · rw [ofBytes_of_violation he] at h
    cases h
  · rw [ofBytes_of_accepted hn] at h
    cases h
    exact ⟨n, hn, rfl⟩

theorem accepted_builtIn : Accepted builtIn 3 := by
  have hleads : Leads (padded builtIn) 3 := by
    unfold Leads
    decide +kernel
  have hwhole : ∀ k < 3, WholeAt (padded builtIn) k := by
    unfold WholeAt
    decide +kernel
  have hsum : Checksum.checksum ((padded builtIn).take (place (padded builtIn) 4)) = 0 := by decide +kernel
  refine ⟨⟨?_, ?_⟩, ⟨hleads, ?_, ?_, ?_⟩, (isChecksum_take_iff (by decide)).2 hsum, hwhole⟩ <;>
    decide +kernel

/-- The reader accepts the tables of the format and no other bytes, reads what their chain holds, and
otherwise reports the first thing that is wrong. The window that it reads is the bytes with zeros behind
them. -/
theorem ofBytes_iff (bytes : List UInt8) :
    (bytes.length ≤ 4096 →
      (padded bytes).length = 4096 ∧ ∀ i, (padded bytes).getD i 0 = bytes.getD i 0) ∧
      ((∃ t, ofBytes bytes = .ok t) ↔ ∃ n, Accepted bytes n) ∧
      (∀ t, ofBytes bytes = .ok t ↔ ∃ n, Accepted bytes n ∧ Describes (padded bytes) n t) ∧
      ∀ e, ofBytes bytes = .error e ↔ Violation bytes e := by
  have hok (t : Table) (ht : ofBytes bytes = .ok t) :
      ∃ n, Accepted bytes n ∧ Describes (padded bytes) n t := by
    obtain ⟨e, he⟩ | ⟨n, hn⟩ := violation_or_accepted bytes
    · rw [ofBytes_of_violation he] at ht
      cases ht
    · rw [ofBytes_of_accepted hn] at ht
      cases ht
      exact ⟨n, hn, describes_ofChain hn⟩
  refine ⟨fun hfits => ⟨length_padded hfits, getD_padded bytes⟩, ⟨?_, ?_⟩, fun t => ⟨hok t, ?_⟩,
    fun e => ⟨?_, ofBytes_of_violation⟩⟩
  · rintro ⟨t, ht⟩
    obtain ⟨n, hn, -⟩ := hok t ht
    exact ⟨n, hn⟩
  · rintro ⟨n, hn⟩
    exact ⟨_, ofBytes_of_accepted hn⟩
  · rintro ⟨n, hn, hdesc⟩
    rw [ofBytes_of_accepted hn, hdesc.eq_ofChain hn]
  · intro herror
    obtain ⟨e', he'⟩ | ⟨n, hn⟩ := violation_or_accepted bytes
    · rw [ofBytes_of_violation he'] at herror
      cases herror
      exact he'
    · rw [ofBytes_of_accepted hn] at herror
      cases herror

def builtInEntries : List PlacedEntry :=
  [⟨5, .device "amc525_mbf"⟩,
    ⟨18, .dma ⟨"ddr0", 0x800000000000, 0x80000000, ⟨4⟩⟩⟩,
    ⟨36, .dma ⟨"ddr1", 0x800080000000, 0x8000000, ⟨4⟩⟩⟩]

theorem says_builtIn : ∀ k (hk : k < builtInEntries.length),
    builtInEntries[k].offset = place (padded builtIn) k ∧
      Says (tagAt (padded builtIn) (place (padded builtIn) k))
        (payloadAt (padded builtIn) (place (padded builtIn) k)) builtInEntries[k].entry := by
  have hplace : place (padded builtIn) 0 = 5 ∧ place (padded builtIn) 1 = 18 ∧
      place (padded builtIn) 2 = 36 := by decide +kernel
  have htag : tagAt (padded builtIn) 5 = 1 ∧ tagAt (padded builtIn) 18 = 2 ∧
      tagAt (padded builtIn) 36 = 2 := by decide +kernel
  have hpayload : payloadAt (padded builtIn) 5 = Text.Utf8.encode "amc525_mbf" ++ [0] ∧
      payloadAt (padded builtIn) 18 =
        [0, 0, 0, 0, 0, 0x80, 0, 0, 0, 0x80, 4] ++ (Text.Utf8.encode "ddr0" ++ [0]) ∧
      payloadAt (padded builtIn) 36 =
        [0, 0, 0, 0x80, 0, 0x80, 0, 0, 0, 0x08, 4] ++ (Text.Utf8.encode "ddr1" ++ [0]) := by decide +kernel
  obtain ⟨hplace0, hplace1, hplace2⟩ := hplace
  obtain ⟨htag0, htag1, htag2⟩ := htag
  obtain ⟨hpayload0, hpayload1, hpayload2⟩ := hpayload
  intro k hk
  obtain rfl | rfl | rfl : k = 0 ∨ k = 1 ∨ k = 2 := by
    have hlength : builtInEntries.length = 3 := rfl
    omega
  · rw [hplace0, htag0, hpayload0]
    exact ⟨rfl, .device (nameIn_encode (by decide) [])⟩
  · rw [hplace1, htag1, hpayload1]
    exact ⟨rfl, .dma ⟨by decide +kernel, by decide +kernel, rfl, nameIn_encode (by decide) []⟩⟩
  · rw [hplace2, htag2, hpayload2]
    exact ⟨rfl, .dma ⟨by decide +kernel, by decide +kernel, rfl, nameIn_encode (by decide) []⟩⟩

/-- The built-in table is read as it is written, and bytes without a version are refused for this. -/
theorem ofBytes_iff_builtIn :
    ofBytes builtIn = .ok ⟨padded builtIn, 58, builtInEntries, false⟩ ∧
      ofBytes [] = .error (.unsupportedVersion 0 1) := by
  obtain ⟨-, -, htable, -⟩ := ofBytes_iff builtIn
  obtain ⟨-, -, -, hrefused⟩ := ofBytes_iff []
  refine ⟨(htable _).2 ⟨3, accepted_builtIn, ?_⟩, (hrefused _).2 (.version (by decide) (by decide))⟩
  exact ⟨rfl, rfl, by decide +kernel, rfl, says_builtIn, by decide +kernel, by decide +kernel,
    by decide +kernel, by decide +kernel⟩

end Table

end FpgaCard
