import FpgaCard.Proofs.TableFormat
import FpgaCard.Proofs.TableSources

/-!
# Reading spans of a window

A source has words, and whoever reads it wants bytes, from any place on and as many as there are. Main
statement: a read of a window fills the front of its buffer with just the bytes that were asked for, as far
as the window goes, and asks for each word once that one of them stands in.
-/

namespace FpgaCard.Table

variable {σ : Type} {source : Nat → StateM σ UInt32} {s s' : σ} {word : Nat → UInt32} {start count : Nat}

/-! ## The bytes of words -/

/-- The bytes from `start` on of a source with these words, each of which has its low byte first. -/
def stream (word : Nat → UInt32) (start count : Nat) : List UInt8 :=
  (List.range' start count).map fun i => UInt8.ofNat ((word (i - i % 4)).toNat / 256 ^ (i % 4))

@[simp]
theorem length_stream (word : Nat → UInt32) (start count : Nat) : (stream word start count).length = count := by
  simp [stream]

theorem stream_add (word : Nat → UInt32) (start first rest : Nat) :
    stream word start (first + rest) = stream word start first ++ stream word (start + first) rest := by
  rw [stream, stream, stream, ← List.map_append, List.range'_append_1]

theorem take_drop_encode (word : Nat → UInt32) {take : Nat} (h : take ≤ 4 - start % 4) :
    ((LittleEndian.encode 4 (word (start - start % 4)).toNat).drop (start % 4)).take take =
      stream word start take := by
  apply List.ext_getElem
  · simp only [List.length_take, List.length_drop, LittleEndian.length_encode, length_stream]
    omega
  · intro j hj hj'
    rw [length_stream] at hj'
    have hplace : (start + j) % 4 = start % 4 + j := by omega
    have hword : start + j - (start % 4 + j) = start - start % 4 := by omega
    simp only [stream, List.getElem_take, List.getElem_drop, LittleEndian.getElem_encode, List.getElem_map,
      List.getElem_range', Nat.one_mul, hplace, hword]

/-! ## The words of a span -/

/-- The aligned words in which the bytes of a span stand. -/
def touched (start count : Nat) : List Nat :=
  List.range' (start - start % 4) (if count = 0 then 0 else (start % 4 + count + 3) / 4) 4

theorem nodup_touched (start count : Nat) : (touched start count).Nodup := List.nodup_range' 4

theorem mem_touched {place : Nat} :
    place ∈ touched start count ↔ ∃ i, start ≤ i ∧ i < start + count ∧ place = i - i % 4 := by
  rw [touched, List.mem_range']
  constructor
  · rintro ⟨k, hk, rfl⟩
    split at hk
    · cases hk
    · refine ⟨max start (start - start % 4 + 4 * k), ?_, ?_, ?_⟩ <;> omega
  · rintro ⟨i, hstart, hend, rfl⟩
    rw [if_neg (by omega)]
    refine ⟨(i - i % 4 - (start - start % 4)) / 4, ?_, ?_⟩ <;> omega

theorem touched_eq_cons {take : Nat} (hcount : count ≠ 0) (htake : take = min (4 - start % 4) count) :
    touched start count = (start - start % 4) :: touched (start + take) (count - take) := by
  rw [touched, touched, if_neg hcount]
  by_cases hlast : count ≤ 4 - start % 4
  · rw [if_pos (by omega), show (start % 4 + count + 3) / 4 = 1 by omega]
    rfl
  · have hnext : start + take - (start + take) % 4 = start - start % 4 + 4 := by omega
    have hwords : (start % 4 + count + 3) / 4 = ((start + take) % 4 + (count - take) + 3) / 4 + 1 := by omega
    rw [if_neg (by omega), hnext, hwords, List.range'_succ]

/-! ## Reading a span -/

theorem mapM_cons_run (source : Nat → StateM σ UInt32) (place : Nat) (places : List Nat) (s : σ) :
    ((place :: places).mapM source).run s =
      (((source place).run s).1 :: ((places.mapM source).run ((source place).run s).2).1,
        ((places.mapM source).run ((source place).run s).2).2) := by
  rw [List.mapM_cons]
  rfl

theorem exists_words (source : Nat → StateM σ UInt32) {places : List Nat} (h : places.Nodup) (s : σ) :
    ∃ word s', (places.mapM source).run s = (places.map word, s') := by
  induction places generalizing s with
  | nil => exact ⟨fun _ => 0, s, rfl⟩
  | cons place places ih =>
    obtain ⟨hfresh, hrest⟩ := List.nodup_cons.1 h
    obtain ⟨word, s', hwords⟩ := ih hrest ((source place).run s).2
    refine ⟨Function.update word place ((source place).run s).1, s', ?_⟩
    have hkept : places.map (Function.update word place ((source place).run s).1) = places.map word := by
      apply List.map_congr_left
      intro other hin
      have hother : other ≠ place := by
        rintro rfl
        exact hfresh hin
      exact Function.update_of_ne hother _ _
    rw [mapM_cons_run, hwords, List.map_cons, hkept, Function.update_self]

/-- The bytes of a span are those of its words, and no other word is asked for. -/
theorem readSpan_run (h : ((touched start count).mapM source).run s = ((touched start count).map word, s')) :
    (readSpan source start count).run s = (stream word start count, s') := by
  fun_induction readSpan source start count generalizing s with
  | case1 start => exact congrArg (([], ·)) (Prod.mk.inj h).2
  | case2 start count hcount ih =>
    -- The bytes in the first word, and the span behind them, which begins with the next word.
    set take := min (4 - start % 4) count with htake
    rw [touched_eq_cons hcount htake, mapM_cons_run, List.map_cons, Prod.mk.injEq, List.cons.injEq] at h
    obtain ⟨⟨hfirst, hwords⟩, hstate⟩ := h
    have hrest := ih (Prod.ext hwords hstate)
    have hpiece : ((LittleEndian.encode 4 (word (start - start % 4)).toNat).drop (start % 4)).take take =
        stream word start take := take_drop_encode word (by omega)
    show ((((LittleEndian.encode 4 ((source (start - start % 4)).run s).1.toNat).drop (start % 4)).take take ++
        ((readSpan source (start + take) (count - take)).run ((source (start - start % 4)).run s).2).1),
      ((readSpan source (start + take) (count - take)).run ((source (start - start % 4)).run s).2).2) = _
    rw [hfirst, hpiece, hrest, ← stream_add, Nat.add_sub_cancel' (by omega)]

theorem mapM_pure_run (word : Nat → UInt32) (places : List Nat) (s : σ) :
    (places.mapM fun place => (pure (word place) : StateM σ UInt32)).run s = (places.map word, s) := by
  induction places with
  | nil => rfl
  | cons place places ih =>
    rw [mapM_cons_run]
    exact congrArg (fun (words, s) => (word place :: words, s)) ih

theorem length_readSpan (source : Nat → StateM σ UInt32) (s : σ) (start count : Nat) :
    ((readSpan source start count).run s).1.length = count := by
  obtain ⟨word, s', hwords⟩ := exists_words source (nodup_touched start count) s
  rw [readSpan_run hwords, length_stream]

/-! ## Filling a buffer -/

variable {offset : Nat} {buffer : List UInt8}

theorem fillWindow_beyond (source : Nat → StateM σ UInt32) (buffer : List UInt8) (h : windowSize < offset) :
    fillWindow source offset buffer = pure (.error (.outOfRange offset windowSize), buffer) := if_pos h

theorem fillWindow_within (source : Nat → StateM σ UInt32) (buffer : List UInt8) (s : σ)
    (h : offset ≤ windowSize) :
    (fillWindow source offset buffer).run s =
      ((readSpan source offset (available offset buffer.length)).run s).map
        (fun bytes => (.ok (available offset buffer.length),
          bytes ++ buffer.drop (available offset buffer.length))) id := by
  rw [fillWindow, if_neg (Nat.not_lt.2 h)]
  rfl

theorem fillWindow_run (buffer : List UInt8) (h : offset ≤ windowSize)
    (hwords : ((touched offset (available offset buffer.length)).mapM source).run s =
      ((touched offset (available offset buffer.length)).map word, s')) :
    (fillWindow source offset buffer).run s =
      ((.ok (available offset buffer.length), stream word offset (available offset buffer.length) ++
        buffer.drop (available offset buffer.length)), s') := by
  rw [fillWindow_within source buffer s h, readSpan_run hwords]
  rfl

/-! ## Windows of tables -/

/-- A table that was loaded, from bytes in memory or a word at a time. -/
inductive Loaded (t : Table) : Prop
  | ofBytes {bytes : List UInt8} (h : Table.ofBytes bytes = .ok t)
  | load {σ : Type} {source : Nat → StateM σ UInt32} {s : σ} (h : ((Table.load source).run s).1 = .ok t)

theorem window_of_ok {window : List UInt8} {isDefault : Bool} {t : Table}
    (h : ofWindow window isDefault = .ok t) : t.window = window := by
  unfold ofWindow at h
  split at h
  · cases h
  split at h
  · cases h
  split at h
  · cases h
  rename_i records length _ _
  cases hplaced : decodeAll records with
  | error e =>
    rw [hplaced] at h
    cases h
  | ok placed =>
    rw [hplaced] at h
    cases h
    rfl

theorem Loaded.length_window {t : Table} (h : t.Loaded) : t.window.length = windowSize := by
  cases h with
  | @ofBytes bytes h =>
    unfold Table.ofBytes at h
    split at h
    · cases h
    · rename_i hfits
      rw [window_of_ok h]
      exact length_padded (Nat.le_of_not_lt hfits)
  | @load σ source s h =>
    rw [load_run] at h
    split at h
    · rw [window_of_ok h]
      exact length_readSpan ..
    · have hbuiltIn : ofWindow (padded builtIn) true = .ok t := h
      rw [window_of_ok hbuiltIn]
      exact length_padded (by decide)

theorem stream_wordAt {bytes : List UInt8} (hlength : bytes.length = windowSize)
    (hspan : start + count ≤ windowSize) : stream (wordAt bytes) start count = (bytes.drop start).take count := by
  have hwords : ((touched start count).mapM (wordsOf bytes)).run () = ((touched start count).map (wordAt bytes), ()) :=
    mapM_pure_run ..
  have hread := (shows_wordsOf bytes).readSpan (s := ()) trivial hspan
  rw [readSpan_run hwords] at hread
  rw [← spread_eq_slice (by omega)]
  exact hread

/-! ## Exactness -/

/-- A read that begins behind the window fails and leaves its buffer as it is. Every other read puts the
bytes from the offset on into the front of its buffer, as many as the buffer holds and the window has, and
asks for aligned words of the window, each of them once. Where the words are those of a loaded table, the
bytes are those of its window. -/
theorem fillWindow_exact (offset : Nat) (buffer : List UInt8) :
    let count := min buffer.length (windowSize - offset)
    (∀ place ∈ touched offset count, place % 4 = 0 ∧ place < windowSize) ∧
    (∀ {σ : Type} (source : Nat → StateM σ UInt32) (s : σ),
      (windowSize < offset →
        (fillWindow source offset buffer).run s = ((.error (.outOfRange offset windowSize), buffer), s)) ∧
      (offset ≤ windowSize → ∃ word s',
        ((touched offset count).mapM source).run s = ((touched offset count).map word, s') ∧
        (fillWindow source offset buffer).run s =
          ((.ok count, stream word offset count ++ buffer.drop count), s'))) ∧
    (∀ {σ : Type} (word : Nat → UInt32) (s : σ), offset ≤ windowSize →
      (fillWindow (fun place => pure (word place)) offset buffer).run s =
        ((.ok count, stream word offset count ++ buffer.drop count), s)) ∧
    (∀ t : Table, t.Loaded → t.fillAt offset buffer =
      if windowSize < offset then (.error (.outOfRange offset windowSize), buffer)
      else (.ok count, (t.window.drop offset).take count ++ buffer.drop count)) := by
  intro count
  refine ⟨?_, fun source s => ⟨fun hbeyond => ?_, fun hin => ?_⟩, fun word s hin => ?_, fun t ht => ?_⟩
  · rintro place hplace
    obtain ⟨i, hstart, hend, rfl⟩ := mem_touched.1 hplace
    omega
  · rw [fillWindow_beyond source buffer hbeyond]
    rfl
  · obtain ⟨word, s', hwords⟩ := exists_words source (nodup_touched offset count) s
    exact ⟨word, s', hwords, fillWindow_run buffer hin hwords⟩
  · exact fillWindow_run buffer hin (mapM_pure_run word _ s)
  · unfold fillAt
    split
    · rename_i hbeyond
      rw [fillWindow_beyond _ buffer hbeyond]
      rfl
    · rename_i hin
      have hin' : offset ≤ windowSize := Nat.le_of_not_lt hin
      have hfill := fillWindow_run buffer hin' (mapM_pure_run (wordAt t.window) _ ())
      rw [stream_wordAt ht.length_window (by unfold available; omega)] at hfill
      exact congrArg Prod.fst hfill

/-- Reads that begin inside a word and are cut off by the end of the window. -/
theorem fillWindow_exact_atEnd :
    let buffer : List UInt8 := List.replicate 7 0xee
    let table := ofChain (padded builtIn) 3
    4088 ∈ touched 4091 5 ∧ 4088 % 4 = 0 ∧ 4091 ≤ windowSize ∧ windowSize < 4097 ∧
    (fillWindow (fun place => (pure (.ofNat place) : StateM Unit UInt32)) 4091 buffer).run () =
      ((.ok 5, [0, 0xfc, 0x0f, 0, 0, 0xee, 0xee]), ()) ∧
    (fillWindow (wordsOf builtIn) 4097 buffer).run () = ((.error (.outOfRange 4097 windowSize), buffer), ()) ∧
    ofBytes builtIn = .ok table ∧ table.fillAt 4091 buffer = (.ok 5, [0, 0, 0, 0, 0, 0xee, 0xee]) := by
  intro buffer table
  have hplace : 4088 ∈ touched 4091 5 := by decide
  have hin : 4091 ≤ windowSize := by decide
  have hbeyond : windowSize < 4097 := by decide
  have hok : ofBytes builtIn = .ok table := ofBytes_of_accepted accepted_builtIn
  obtain ⟨haligned, -, hread, htable⟩ := fillWindow_exact 4091 buffer
  obtain ⟨-, hsource, -, -⟩ := fillWindow_exact 4097 buffer
  refine ⟨hplace, (haligned 4088 hplace).1, hin, hbeyond, ?_, (hsource (wordsOf builtIn) ()).1 hbeyond, hok, ?_⟩
  · exact hread (fun place => .ofNat place) () hin
  · rw [htable table (.ofBytes hok)]
    decide +kernel

end FpgaCard.Table
