import OtaMqtt.Http.LineScan
import OtaMqtt.Http.ParserLines

/-! How a line that is being received is ended, wherever it lies in the ring.

`m_end_idx` may stand anywhere: behind `m_start_idx`, before it, or close to the last slots,
which the scan does not walk as the ring does. -/

namespace OtaMqtt.Http.LineEnds

open OtaMqtt.Lib.Execution OtaMqtt.Lib.CText OtaMqtt.Lib.Ring
open OtaMqtt.Http.Buffer OtaMqtt.Http.Parser OtaMqtt.Http.Parser.HttpParser
open OtaMqtt.Http.RingStates (InRange occupied readByEnd_takes)
open OtaMqtt.Http.LineScan (scanLine_goes_on Stops getVal_ok nextIdx_ok line_end_ok)
open OtaMqtt.Http.ParserLines (Holds Quiet absorb parseText_line processLoop_line processLoop_body)

theorem scanLine_skips (ring : HttpBuffer) (narrow : ring.slots < 2 ^ 31) (fuel count : Nat)
    (parser : HttpParser) (below : parser.checkedIdx < ring.capacity)
    (quiet : ∀ offset < count, ¬ Stops ring ((parser.checkedIdx + offset) % ring.capacity)) :
    scanLine ring.endIdx (fuel + count) parser ring = scanLine ring.endIdx fuel
      { parser with checkedIdx := (parser.checkedIdx + count) % ring.capacity } ring := by
  induction count generalizing parser with
  | zero => rw [Nat.add_zero, Nat.add_zero, Nat.mod_eq_of_lt below]
  | succ count ih =>
      have here := quiet 0 (Nat.succ_pos count)
      rw [Nat.add_zero, Nat.mod_eq_of_lt below] at here
      have later := ih { parser with checkedIdx := (parser.checkedIdx + 1) % ring.capacity }
        (Nat.mod_lt _ (by omega)) (by
          intro offset inside
          rw [Nat.mod_add_mod, Nat.add_assoc, Nat.add_comm 1 offset]
          exact quiet (offset + 1) (by omega))
      rw [← Nat.add_assoc, scanLine_goes_on ring parser narrow below _ here, later]
      simp only [Nat.mod_add_mod, Nat.add_assoc, Nat.add_comm 1 count]

theorem scanLine_crlf (ring : HttpBuffer) (narrow : ring.slots < 2 ^ 31) (fuel next : Nat)
    (parser : HttpParser) (below : parser.checkedIdx < ring.capacity)
    (on : parser.checkedIdx ≠ ring.endIdx) (carriage : ring.buffer parser.checkedIdx = 13)
    (following : (parser.checkedIdx + 1) % ring.capacity = next) (more : next ≠ ring.endIdx)
    (feed : ring.buffer next = 10) :
    scanLine ring.endIdx (fuel + 1) parser ring =
      .ok (.ok, { parser with checkedIdx := (next + 1) % ring.capacity }, { ring with
        buffer := Function.update (Function.update ring.buffer parser.checkedIdx 0) next 0 }) := by
  have inNext : next < ring.capacity := following ▸ Nat.mod_lt _ (by omega)
  rw [scanLine, if_neg on, getVal_ok ring _ below, ok_bind, if_pos carriage,
    nextIdx_ok ring _ below narrow, ok_bind, following, if_neg more, getVal_ok ring _ inNext, ok_bind,
    if_pos feed, line_end_ok ring parser narrow _ _ _ below inNext inNext]

theorem readByEnd_window (ring : HttpBuffer) (inside : InRange ring) (last : Nat)
    (held : last < ring.endIdx) (short : last + 1 < ring.slots)
    (behind : ring.startIdx ≤ ring.endIdx → ring.startIdx ≤ last)
    (bound : ring.endIdx < ring.startIdx → ring.slots + (last + 1) < 2 ^ 31) :
    ∃ count, (ring.startIdx + count) % ring.slots = last ∧
      ring.readByEnd (last + 1) =
        .ok (some (window ring.buffer ring.slots ring.startIdx (count + 1)), ring.advanced (count + 1)) := by
  obtain ⟨narrow, start, finish⟩ := inside
  have ends : (ring.slots + (last + 1)) % ring.slots = last + 1 := by
    rw [Nat.add_mod_left, Nat.mod_eq_of_lt short]
  by_cases order : ring.startIdx ≤ ring.endIdx
  · have first := behind order
    have total : ring.startIdx + (last - ring.startIdx + 1) = last + 1 := by omega
    have read := readByEnd_takes ring ⟨narrow, start, finish⟩ (last - ring.startIdx + 1) (by omega)
      (by rw [occupied, if_pos order]; omega) (by omega)
    rw [total, Nat.mod_eq_of_lt short] at read
    refine ⟨last - ring.startIdx, ?_, read⟩
    rw [Nat.add_sub_cancel' first, Nat.mod_eq_of_lt (by omega)]
  · have wide := bound (by omega)
    have total : ring.startIdx + (ring.slots - ring.startIdx + last + 1) = ring.slots + (last + 1) := by
      omega
    have read := readByEnd_takes ring ⟨narrow, start, finish⟩ (ring.slots - ring.startIdx + last + 1)
      (by omega) (by rw [occupied, if_neg order]; omega) (by omega)
    rw [total, ends] at read
    refine ⟨ring.slots - ring.startIdx + last, ?_, read⟩
    rw [← Nat.add_assoc, Nat.add_sub_cancel' (Nat.le_of_lt start), Nat.add_mod_left,
      Nat.mod_eq_of_lt (by omega)]

theorem takeWhile_zero (front rest : List UInt8) :
    (front ++ 0 :: rest).takeWhile (· ≠ 0) = front.takeWhile (· ≠ 0) := by
  induction front with
  | nil => simp
  | cons byte front ih =>
      rw [List.cons_append, List.takeWhile_cons, List.takeWhile_cons, ih]

/-- The text of the line that is being received, in a ring whose data does not wrap: what lies
before the scan, up to the first NUL. -/
def heldLine (parser : HttpParser) (ring : HttpBuffer) : List UInt8 :=
  (window ring.buffer ring.slots ring.startIdx (parser.checkedIdx - ring.startIdx)).takeWhile (· ≠ 0)

theorem window_line (slots marked : Nat → UInt8) (modulus start held count : Nat) (within : held < count)
    (same : ∀ offset < held, marked ((start + offset) % modulus) = slots ((start + offset) % modulus))
    (ended : marked ((start + held) % modulus) = 0) (line rest : List UInt8)
    (split : window marked modulus start count = line ++ 0 :: rest) (clean : 0 ∉ line) :
    line = (window slots modulus start held).takeWhile (· ≠ 0) := by
  obtain ⟨more, rfl⟩ := Nat.exists_eq_add_of_lt within
  have kept : ∀ byte ∈ line, decide (byte ≠ 0) = true := by
    intro byte member
    refine decide_eq_true ?_
    rintro rfl
    exact clean member
  rw [Nat.add_assoc, window_append, window_congr marked slots modulus start held same, window_cons,
    Nat.mod_mod, ended] at split
  rw [← takeWhile_zero _ (window marked modulus (((start + held) % modulus + 1) % modulus) more), split,
    takeWhile_zero, List.takeWhile_eq_self_iff.mpr kept]

/-- A line end is about to be met: the scan stands on its CR, its LF is at `last`, and `tail` is
all that was received behind it. -/
structure Ends (parser : HttpParser) (ring : HttpBuffer) (last : Nat) (tail : List UInt8) : Prop where
  cr : ring.buffer parser.checkedIdx = 13
  following : (parser.checkedIdx + 1) % ring.capacity = last
  lf : ring.buffer last = 10
  outside : parser.checkedIdx < last ∨ ring.endIdx < parser.checkedIdx
  finish : ring.endIdx = last + 1 + tail.length
  fits : ring.endIdx < ring.capacity
  bytes : ∀ offset, offset < tail.length → tail[offset]? = some (ring.buffer (last + 1 + offset))
  behind : ring.startIdx ≤ ring.endIdx → ring.startIdx ≤ last
  bound : ring.endIdx < ring.startIdx → ring.slots + (last + 1) < 2 ^ 31

def marked (ring : HttpBuffer) (carriage last : Nat) : HttpBuffer :=
  { ring with buffer := Function.update (Function.update ring.buffer carriage 0) last 0 }

theorem marked_last (ring : HttpBuffer) (carriage last : Nat) :
    (marked ring carriage last).buffer last = 0 :=
  Function.update_self ..

theorem marked_carriage (ring : HttpBuffer) (carriage last : Nat) :
    (marked ring carriage last).buffer carriage = 0 := by
  by_cases same : carriage = last
  · rw [same]
    exact marked_last ring last last
  · exact (Function.update_of_ne same ..).trans (Function.update_self ..)

theorem marked_other (ring : HttpBuffer) (carriage last slot : Nat) (first : slot ≠ carriage)
    (second : slot ≠ last) : (marked ring carriage last).buffer slot = ring.buffer slot :=
  (Function.update_of_ne second ..).trans (Function.update_of_ne first ..)

theorem marked_inRange {ring : HttpBuffer} (inside : InRange ring) (carriage last : Nat) :
    InRange (marked ring carriage last) :=
  ⟨inside.narrow, inside.start, inside.finish⟩

/-- The text that is read up to the two NULs of a line end. -/
theorem marked_line {parser : HttpParser} {ring : HttpBuffer} {last count : Nat} {line rest : List UInt8}
    (start : ring.startIdx ≤ parser.checkedIdx) (below : parser.checkedIdx < ring.slots)
    (past : parser.checkedIdx < last) (within : parser.checkedIdx - ring.startIdx < count)
    (split : window (marked ring parser.checkedIdx last).buffer ring.slots ring.startIdx count =
      line ++ 0 :: rest) (clean : 0 ∉ line) : line = heldLine parser ring := by
  refine window_line ring.buffer _ ring.slots ring.startIdx _ count within ?_ ?_ line rest split clean
  · intro offset inside
    rw [Nat.mod_eq_of_lt (by omega)]
    exact marked_other ring _ _ _ (by omega) (by omega)
  · rw [Nat.add_sub_cancel' start, Nat.mod_eq_of_lt below]
    exact marked_carriage ring _ _

theorem window_text (slots : Nat → UInt8) (modulus start count : Nat) (inside : start < modulus)
    (ended : slots ((start + count) % modulus) = 0) :
    ∃ line rest, window slots modulus start (count + 1) = line ++ 0 :: rest ∧ 0 ∉ line ∧
      (line = [] ↔ slots start = 0) := by
  have zero : 0 ∈ window slots modulus start (count + 1) :=
    List.mem_map.mpr ⟨count, List.mem_range.mpr (Nat.lt_succ_self count), ended⟩
  obtain ⟨line, rest, split, clean⟩ := List.eq_append_cons_of_mem zero
  refine ⟨line, rest, split, clean, ?_⟩
  have head : (window slots modulus start (count + 1))[0]? = some (slots start) := by
    simp [window, Nat.mod_eq_of_lt inside]
  rw [split] at head
  cases line with
  | nil =>
      have first : (0 : UInt8) = slots start := by simpa using head
      simp [first.symm]
  | cons byte line =>
      have first : byte = slots start := by simpa using head
      simp only [reduceCtorEq, false_iff]
      rintro zero
      exact clean (by rw [first, zero]; exact List.mem_cons_self)

section
variable {parser : HttpParser} {ring : HttpBuffer} {last : Nat} {tail : List UInt8}

theorem Ends.parseLine (ends : Ends parser ring last tail) (inside : InRange ring)
    (below : parser.checkedIdx < ring.capacity) :
    parser.parseLine ring =
      .ok (.ok, { parser with checkedIdx := last + 1 }, marked ring parser.checkedIdx last) := by
  have finish := ends.finish
  have fits := ends.fits
  have outside := ends.outside
  have found := scanLine_crlf ring inside.narrow (ring.capacity + 1) last parser below (by omega)
    ends.cr ends.following (by omega) ends.lf
  rw [Nat.mod_eq_of_lt (by omega)] at found
  exact found

theorem Ends.takeText (ends : Ends parser ring last tail) (inside : InRange ring)
    (below : parser.checkedIdx < ring.capacity) (reading : parser.message.checkState ≠ .content) :
    ∃ line rest next, 0 ∉ line ∧ next.capacity = ring.capacity ∧ Holds next next.buffer (last + 1) tail ∧
      (line = [] ↔
        ring.startIdx = parser.checkedIdx ∨ ring.startIdx = last ∨ ring.buffer ring.startIdx = 0) ∧
      (ring.startIdx ≤ parser.checkedIdx → parser.checkedIdx < last → line = heldLine parser ring) ∧
      HttpParser.takeText { parser with checkedIdx := last + 1 } (marked ring parser.checkedIdx last) =
        .ok (line ++ 0 :: rest, next) := by
  have finish := ends.finish
  have fits := ends.fits
  have outside := ends.outside
  have narrow := inside.narrow
  have slots : ring.slots = ring.capacity + 1 := rfl
  have inside' := marked_inRange inside parser.checkedIdx last
  obtain ⟨count, lastCell, read⟩ := readByEnd_window (marked ring parser.checkedIdx last) inside' last
    (by change last < ring.endIdx; omega) (by change last + 1 < ring.slots; omega) ends.behind ends.bound
  obtain ⟨line, rest, split, clean, blank⟩ := window_text (marked ring parser.checkedIdx last).buffer
    (marked ring parser.checkedIdx last).slots (marked ring parser.checkedIdx last).startIdx count
    inside'.start (by rw [lastCell]; exact marked_last ring parser.checkedIdx last)
  have stopped : ((marked ring parser.checkedIdx last).startIdx + (count + 1)) %
      (marked ring parser.checkedIdx last).slots = last + 1 := by
    rw [← Nat.add_assoc, ← Nat.mod_add_mod, lastCell]
    exact Nat.mod_eq_of_lt (by change last + 1 < ring.slots; omega)
  refine ⟨line, rest, (marked ring parser.checkedIdx last).advanced (count + 1), clean, ?_, ?_, ?_, ?_, ?_⟩
  · rw [HttpBuffer.advanced_capacity]
    rfl
  · refine ⟨?_, ?_, ?_, ?_, ?_, fun _ _ => rfl⟩
    · rw [HttpBuffer.advanced_capacity]
      change ring.capacity < 2 ^ 31
      omega
    · rw [HttpBuffer.advanced_startIdx, stopped]
    · rw [HttpBuffer.advanced_endIdx]
      exact finish
    · rw [HttpBuffer.advanced_capacity, ← finish]
      exact fits
    · intro offset within
      rw [HttpBuffer.advanced_buffer, marked_other ring _ _ _ (by omega) (by omega)]
      exact ends.bytes offset within
  · rw [blank]
    change (marked ring parser.checkedIdx last).buffer ring.startIdx = 0 ↔ _
    by_cases first : ring.startIdx = parser.checkedIdx
    · rw [first, marked_carriage]
      simp
    by_cases second : ring.startIdx = last
    · rw [second, marked_last]
      simp
    · rw [marked_other ring _ _ _ first second]
      simp [first, second]
  · intro start past
    have reached : ring.startIdx + count = last ∨ ring.slots ≤ ring.startIdx + count := by
      by_contra neither
      obtain ⟨other, small⟩ := not_or.mp neither
      change (ring.startIdx + count) % ring.slots = last at lastCell
      rw [Nat.mod_eq_of_lt (by omega)] at lastCell
      exact other lastCell
    exact marked_line start (by omega) past (by omega) split clean
  · rw [HttpParser.takeText, if_neg reading, read, ok_bind, split]

theorem Ends.processLoop (ends : Ends parser ring last tail) (inside : InRange ring)
    (below : parser.checkedIdx < ring.capacity) (reading : parser.message.checkState ≠ .content)
    (fuel : Nat) :
    ∃ line next, next.capacity = ring.capacity ∧ Holds next next.buffer (last + 1) tail ∧
      (line = [] ↔
        ring.startIdx = parser.checkedIdx ∨ ring.startIdx = last ∨ ring.buffer ring.startIdx = 0) ∧
      (ring.startIdx ≤ parser.checkedIdx → parser.checkedIdx < last → line = heldLine parser ring) ∧
      HttpParser.processLoop (fuel + 1) .ok parser ring =
        let done : HttpParser := { parser with
          checkedIdx := last + 1, startLine := last + 1, message := (absorb parser.message line).2 }
        if (absorb parser.message line).1 = .noRequest then
          HttpParser.processLoop fuel .ok done next
        else .ok ((absorb parser.message line).1, done, next) := by
  obtain ⟨line, rest, next, clean, capacity, holds, blank, held, took⟩ := ends.takeText inside below reading
  refine ⟨line, next, capacity, holds, blank, held, ?_⟩
  have parsed := parseText_line { parser with checkedIdx := last + 1 } line rest clean reading
  rw [HttpParser.processLoop, HttpParser.nextStatus, if_neg (by simp [reading]),
    ends.parseLine inside below]
  simp only [ok_bind, took, ne_eq, not_true_eq_false, if_false, parsed, if_neg reading]

end

/-- What the indices say of each other while lines are read: a line begins at a slot that the scan
walks, and a ring whose data wraps has been filled once. -/
structure Tracks (capacity : Nat) (parser : HttpParser) (ring : HttpBuffer) : Prop where
  inside : InRange ring
  same : ring.capacity = capacity
  line : ring.startIdx < capacity
  below : parser.checkedIdx < capacity
  counted : ring.endIdx ≤ parser.readIdx
  laps : ring.endIdx < ring.startIdx → ring.endIdx + ring.slots ≤ parser.readIdx

/-- The free slots behind `m_end_idx` take `len` bytes in one piece, and the scan can walk
them. -/
def Ahead (ring : HttpBuffer) (len : Nat) : Prop :=
  ring.endIdx + len < ring.capacity ∧
    (ring.endIdx < ring.startIdx → ring.endIdx + len < ring.startIdx)

instance (ring : HttpBuffer) (len : Nat) : Decidable (Ahead ring len) :=
  inferInstanceAs (Decidable (_ ∧ _))

def written (ring : HttpBuffer) (chunk : List UInt8) : HttpBuffer :=
  { ring with
    buffer := ring.pasted (fun index => chunk.getD index 0) chunk.length,
    endIdx := ring.endIdx + chunk.length, size := (ring.size + chunk.length) % 2 ^ 64 }

theorem written_old (ring : HttpBuffer) (chunk : List UInt8) (slot : Nat)
    (old : slot < ring.endIdx ∨ ring.endIdx + chunk.length ≤ slot) :
    (written ring chunk).buffer slot = ring.buffer slot :=
  if_neg (by omega)

theorem written_new (ring : HttpBuffer) (chunk : List UInt8) (offset : Nat)
    (new : offset < chunk.length) :
    chunk[offset]? = some ((written ring chunk).buffer (ring.endIdx + offset)) := by
  have cell : (written ring chunk).buffer (ring.endIdx + offset) = chunk.getD offset 0 := by
    refine (if_pos ⟨Nat.le_add_right .., by omega⟩).trans ?_
    rw [Nat.add_sub_cancel_left]
  rw [cell, List.getD_eq_getElem?_getD, List.getElem?_eq_getElem new, Option.getD_some]

theorem write_straight (ring : HttpBuffer) (inside : InRange ring) (chunk : List UInt8)
    (order : ring.startIdx ≤ ring.endIdx) (room : ring.endIdx + chunk.length ≤ ring.slots) :
    ring.write (fun index => chunk.getD index 0) chunk.length = .ok (true, written ring chunk) := by
  have narrow := inside.narrow
  exact HttpBuffer.write_straight ring _ _ order room (by omega) (by omega)

theorem write_ahead (ring : HttpBuffer) (inside : InRange ring) (chunk : List UInt8)
    (ahead : Ahead ring chunk.length) :
    ring.write (fun index => chunk.getD index 0) chunk.length = .ok (true, written ring chunk) := by
  have narrow := inside.narrow
  have slots : ring.slots = ring.capacity + 1 := rfl
  obtain ⟨fits, before⟩ := ahead
  by_cases order : ring.startIdx ≤ ring.endIdx
  · exact write_straight ring inside chunk order (by omega)
  · have room := before (by omega)
    exact HttpBuffer.write_behind ring _ _ (by omega) (by omega) (by omega) narrow

/-- What a chunk that is taken leads to. -/
theorem receive_written {parser : HttpParser} {ring next : HttpBuffer} {chunk : List UInt8}
    (wrote : ring.write (fun index => chunk.getD index 0) chunk.length = .ok (true, next))
    (counts : parser.readIdx + chunk.length < 2 ^ 31) :
    receive parser ring chunk =
      processLoop (next.capacity + 3) .ok { parser with readIdx := parser.readIdx + chunk.length } next := by
  rw [receive, wrote, ok_bind]
  simp only [updateBufferSize]
  rw [toInt_of_lt counts, ok_bind, ok_bind, processRead]

theorem receive_ahead (capacity : Nat) (parser : HttpParser) (ring : HttpBuffer)
    (tracks : Tracks capacity parser ring) (chunk : List UInt8) (ahead : Ahead ring chunk.length)
    (counts : parser.readIdx + chunk.length < 2 ^ 31) :
    receive parser ring chunk =
      processLoop (capacity + 3) .ok { parser with readIdx := parser.readIdx + chunk.length }
        (written ring chunk) := by
  rw [receive_written (write_ahead ring tracks.inside chunk ahead) counts, ← tracks.same]
  rfl

/-- The CR of a line end is the last byte received. -/
def Halfway (parser : HttpParser) (ring : HttpBuffer) : Prop :=
  ring.buffer parser.checkedIdx = 13 ∧ (parser.checkedIdx + 1) % ring.capacity = ring.endIdx

instance (parser : HttpParser) (ring : HttpBuffer) : Decidable (Halfway parser ring) :=
  inferInstanceAs (Decidable (_ ∧ _))

/-- `parse_line` has left with `LINE_OPEN`: the scan stands at `m_end_idx`, or on a CR in front
of it. -/
def Waits (parser : HttpParser) (ring : HttpBuffer) : Prop :=
  parser.checkedIdx = ring.endIdx ∨ Halfway parser ring

instance (parser : HttpParser) (ring : HttpBuffer) : Decidable (Waits parser ring) :=
  inferInstanceAs (Decidable (_ ∨ _))

/-- What ends the line that is being received. -/
def lineEnd (parser : HttpParser) (ring : HttpBuffer) : List UInt8 :=
  if parser.checkedIdx = ring.endIdx then [13, 10] else [10]

/-- The line that is being received will read as an empty one: it starts with its own line end, or
with a NUL. -/
def Blank (parser : HttpParser) (ring : HttpBuffer) : Prop :=
  ring.startIdx = parser.checkedIdx ∨ ring.startIdx = ring.endIdx ∨ ring.buffer ring.startIdx = 0

instance (parser : HttpParser) (ring : HttpBuffer) : Decidable (Blank parser ring) :=
  inferInstanceAs (Decidable (_ ∨ _ ∨ _))

section
variable {capacity : Nat} {parser : HttpParser} {ring : HttpBuffer}
  (tracks : Tracks capacity parser ring) (tail : List UInt8)
include tracks

theorem halfway_position (halfway : Halfway parser ring) :
    parser.checkedIdx + 1 = ring.endIdx ∨ (ring.endIdx = 0 ∧ parser.checkedIdx + 1 = ring.capacity) := by
  have below := tracks.below
  have same := tracks.same
  obtain ⟨-, following⟩ := halfway
  rcases mod_cases (parser.checkedIdx + 1) ring.capacity (by omega) with ⟨_, stays⟩ | ⟨_, turned⟩
  · omega
  · omega

/-- The end of a line that lies in one piece takes the two slots from the scan on. -/
theorem lineEnd_ends (waits : Waits parser ring) (near : parser.checkedIdx + 2 < ring.capacity) :
    ring.endIdx + (lineEnd parser ring).length = parser.checkedIdx + 2 := by
  by_cases here : parser.checkedIdx = ring.endIdx
  · rw [lineEnd, if_pos here, here]
    rfl
  · have position := halfway_position tracks (waits.resolve_left here)
    rw [lineEnd, if_neg here, List.length_singleton]
    omega

/-- A chunk that ends the line at `last` and leaves `tail` behind it: where it lies does not
depend on how much of the line end had come before. -/
theorem ends_written (front : List UInt8) (last readIdx : Nat)
    (ending : ring.endIdx + front.length = last + 1) (nonempty : front ≠ [])
    (ahead : Ahead ring (front ++ tail).length)
    (counts : parser.readIdx + (front ++ tail).length < 2 ^ 31)
    (cr : (written ring (front ++ tail)).buffer parser.checkedIdx = 13)
    (following : (parser.checkedIdx + 1) % ring.capacity = last)
    (lf : (written ring (front ++ tail)).buffer last = 10)
    (outside : parser.checkedIdx < last ∨ ring.endIdx + (front ++ tail).length < parser.checkedIdx) :
    Ends { parser with readIdx := readIdx } (written ring (front ++ tail)) last tail := by
  have length : (front ++ tail).length = front.length + tail.length := List.length_append
  have present := List.length_pos_iff.mpr nonempty
  obtain ⟨fits, before⟩ := ahead
  refine ⟨cr, following, lf, outside, ?_, fits, ?_, ?_, ?_⟩
  · change ring.endIdx + (front ++ tail).length = last + 1 + tail.length
    omega
  · intro offset inside
    have cell := written_new ring (front ++ tail) (front.length + offset) (by omega)
    rw [List.getElem?_append_right (Nat.le_add_right ..), Nat.add_sub_cancel_left, ← Nat.add_assoc,
      ending] at cell
    exact cell
  · intro order
    change ring.startIdx ≤ ring.endIdx + (front ++ tail).length at order
    change ring.startIdx ≤ last
    by_contra past
    have := before (by omega)
    omega
  · intro wrapped
    change ring.endIdx + (front ++ tail).length < ring.startIdx at wrapped
    change ring.slots + (last + 1) < 2 ^ 31
    have laps := tracks.laps (by omega)
    omega

/-- The scan stands at `m_end_idx`: a CR and an LF end the line. -/
theorem ends_open (here : parser.checkedIdx = ring.endIdx) (ahead : Ahead ring ([13, 10] ++ tail).length)
    (counts : parser.readIdx + ([13, 10] ++ tail).length < 2 ^ 31) (readIdx : Nat) :
    Ends { parser with readIdx := readIdx } (written ring ([13, 10] ++ tail)) (ring.endIdx + 1) tail := by
  have length : ([13, 10] ++ tail).length = tail.length + 2 := rfl
  have fits := ahead.1
  have cell (offset : Nat) (new : offset < ([13, 10] ++ tail).length) :=
    written_new ring ([13, 10] ++ tail) offset new
  have first : (13 : UInt8) = (written ring ([13, 10] ++ tail)).buffer (ring.endIdx + 0) :=
    Option.some.inj (cell 0 (by omega))
  have second : (10 : UInt8) = (written ring ([13, 10] ++ tail)).buffer (ring.endIdx + 1) :=
    Option.some.inj (cell 1 (by omega))
  refine ends_written tracks tail [13, 10] (ring.endIdx + 1) readIdx rfl (by simp) ahead counts ?_ ?_
    second.symm (.inl (by omega))
  · rw [here]
    exact first.symm
  · rw [here, Nat.mod_eq_of_lt (by omega)]

/-- The scan stands on the CR: the LF ends the line. -/
theorem ends_halfway (halfway : Halfway parser ring)
    (order : ring.startIdx = 0 → parser.checkedIdx ≤ ring.endIdx)
    (ahead : Ahead ring ([10] ++ tail).length)
    (counts : parser.readIdx + ([10] ++ tail).length < 2 ^ 31) (readIdx : Nat) :
    Ends { parser with readIdx := readIdx } (written ring ([10] ++ tail)) ring.endIdx tail := by
  have length : ([10] ++ tail).length = tail.length + 1 := rfl
  obtain ⟨fits, before⟩ := ahead
  have line := tracks.line
  have same := tracks.same
  have position := halfway_position tracks halfway
  have outside : parser.checkedIdx < ring.endIdx ∨
      ring.endIdx + ([10] ++ tail).length < parser.checkedIdx := by
    by_cases zero : ring.startIdx = 0
    · have met := order zero
      omega
    · omega
  have first : (10 : UInt8) = (written ring ([10] ++ tail)).buffer (ring.endIdx + 0) :=
    Option.some.inj (written_new ring ([10] ++ tail) 0 (by omega))
  refine ends_written tracks tail [10] ring.endIdx readIdx rfl (by simp) ⟨fits, before⟩ counts ?_
    halfway.2 first.symm outside
  rw [written_old ring _ _ (by omega)]
  exact halfway.1

end

section
variable {capacity : Nat} {parser : HttpParser} {ring : HttpBuffer}

theorem blank_open (tail : List UInt8) (here : parser.checkedIdx = ring.endIdx)
    (ahead : Ahead ring ([13, 10] ++ tail).length) :
    (ring.startIdx = parser.checkedIdx ∨ ring.startIdx = ring.endIdx + 1 ∨
      (written ring ([13, 10] ++ tail)).buffer ring.startIdx = 0) ↔ Blank parser ring := by
  have length : ([13, 10] ++ tail).length = tail.length + 2 := rfl
  have before := ahead.2
  by_cases first : ring.startIdx = ring.endIdx
  · simp [Blank, first, here]
  · have apart : ring.startIdx ≠ ring.endIdx + 1 := by omega
    rw [written_old ring _ _ (by omega)]
    simp [Blank, here, first, apart]

theorem blank_halfway (tail : List UInt8) (ahead : Ahead ring ([10] ++ tail).length) :
    (ring.startIdx = parser.checkedIdx ∨ ring.startIdx = ring.endIdx ∨
      (written ring ([10] ++ tail)).buffer ring.startIdx = 0) ↔ Blank parser ring := by
  have length : ([10] ++ tail).length = tail.length + 1 := rfl
  have before := ahead.2
  by_cases first : ring.startIdx = ring.endIdx
  · simp [Blank, first]
  · rw [written_old ring _ _ (by omega)]
    rfl

theorem heldLine_written (readIdx : Nat) (chunk : List UInt8) (inside : InRange ring)
    (met : parser.checkedIdx ≤ ring.endIdx) :
    heldLine { parser with readIdx := readIdx } (written ring chunk) = heldLine parser ring := by
  have start := inside.start
  have finish := inside.finish
  have same : window (written ring chunk).buffer ring.slots ring.startIdx (parser.checkedIdx - ring.startIdx) =
      window ring.buffer ring.slots ring.startIdx (parser.checkedIdx - ring.startIdx) := by
    refine window_congr _ _ _ _ _ fun offset within => ?_
    rw [Nat.mod_eq_of_lt (by omega)]
    exact written_old ring chunk _ (.inl (by omega))
  exact congrArg (List.takeWhile _) same

theorem receive_closes (tracks : Tracks capacity parser ring) (tail : List UInt8)
    (reading : parser.message.checkState ≠ .content)
    (waits : Waits parser ring)
    (order : ring.startIdx = 0 → parser.checkedIdx ≤ ring.endIdx)
    (ahead : Ahead ring (lineEnd parser ring ++ tail).length)
    (counts : parser.readIdx + (lineEnd parser ring ++ tail).length < 2 ^ 31) :
    ∃ line next, next.capacity = capacity ∧
      Holds next next.buffer (ring.endIdx + (lineEnd parser ring).length) tail ∧
      (line = [] ↔ Blank parser ring) ∧
      (ring.startIdx ≤ parser.checkedIdx → parser.checkedIdx ≤ ring.endIdx →
        line = heldLine parser ring) ∧
      receive parser ring (lineEnd parser ring ++ tail) =
        let pos := ring.endIdx + (lineEnd parser ring).length
        let done : HttpParser := { parser with
          readIdx := parser.readIdx + (lineEnd parser ring ++ tail).length
          checkedIdx := pos, startLine := pos, message := (absorb parser.message line).2 }
        if (absorb parser.message line).1 = .noRequest then
          processLoop (capacity + 2) .ok done next
        else .ok ((absorb parser.message line).1, done, next) := by
  rw [receive_ahead capacity parser ring tracks _ ahead counts]
  have same := tracks.same
  have inside : ∀ chunk, Ahead ring chunk.length → InRange (written ring chunk) := by
    intro chunk fits
    refine ⟨tracks.inside.narrow, tracks.inside.start, ?_⟩
    change ring.endIdx + chunk.length ≤ ring.capacity + 1
    exact Nat.le_succ_of_le (Nat.le_of_lt fits.1)
  have below : parser.checkedIdx < ring.capacity := same.symm ▸ tracks.below
  by_cases here : parser.checkedIdx = ring.endIdx
  · have ended : lineEnd parser ring = [13, 10] := if_pos here
    rw [ended] at ahead counts ⊢
    obtain ⟨line, next, kept, holds, blank, held, passed⟩ :=
      (ends_open tracks tail here ahead counts (parser.readIdx + ([13, 10] ++ tail).length)).processLoop
        (inside _ ahead) below reading (capacity + 2)
    refine ⟨line, next, kept.trans same, holds, ?_, ?_, passed⟩
    · rw [blank]
      exact blank_open tail here ahead
    · intro start met
      rw [held start (by change parser.checkedIdx < ring.endIdx + 1; omega)]
      exact heldLine_written _ _ tracks.inside met
  · have ended : lineEnd parser ring = [10] := if_neg here
    rw [ended] at ahead counts ⊢
    obtain ⟨line, next, kept, holds, blank, held, passed⟩ :=
      (ends_halfway tracks tail (waits.resolve_left here) order ahead counts
        (parser.readIdx + ([10] ++ tail).length)).processLoop (inside _ ahead) below reading
          (capacity + 2)
    refine ⟨line, next, kept.trans same, holds, ?_, ?_, passed⟩
    · rw [blank]
      exact blank_halfway tail ahead
    · intro start met
      rw [held start (by change parser.checkedIdx < ring.endIdx; omega)]
      exact heldLine_written _ _ tracks.inside met

end

section
variable {capacity : Nat} {parser : HttpParser} {ring : HttpBuffer}

/-- The line end that is met lies in the last two slots that the scan walks: `m_checked_idx` goes
back to 0, and `read_by_end` takes the slot behind them as well. -/
theorem processLoop_corner (inside : InRange ring) (finish : ring.endIdx = ring.slots)
    (reading : parser.message.checkState ≠ .content) (corner : parser.checkedIdx + 2 = ring.capacity)
    (start : ring.startIdx ≤ parser.checkedIdx) (cr : ring.buffer parser.checkedIdx = 13)
    (lf : ring.buffer (parser.checkedIdx + 1) = 10) (fuel : Nat) :
    processLoop (fuel + 1) .ok parser ring =
      let absorbed := absorb parser.message (heldLine parser ring)
      let done : HttpParser := { parser with checkedIdx := 0, startLine := 0, message := absorbed.2 }
      let next := (marked ring parser.checkedIdx (parser.checkedIdx + 1)).advanced
        (ring.slots - ring.startIdx)
      if absorbed.1 = .noRequest then processLoop fuel .ok done next
      else .ok (absorbed.1, done, next) := by
  have narrow := inside.narrow
  have slots : ring.slots = ring.capacity + 1 := rfl
  have found := scanLine_crlf ring narrow (ring.capacity + 1) (parser.checkedIdx + 1) parser (by omega)
    (by omega) cr (Nat.mod_eq_of_lt (by omega)) (by omega) lf
  rw [show parser.checkedIdx + 1 + 1 = ring.capacity by omega, Nat.mod_self] at found
  change _ = Except.ok (_, _, marked ring parser.checkedIdx (parser.checkedIdx + 1)) at found
  have inside' := marked_inRange inside parser.checkedIdx (parser.checkedIdx + 1)
  have total : ring.startIdx + (ring.slots - ring.startIdx) = ring.slots := by omega
  have held : ring.slots - ring.startIdx ≤ occupied (marked ring parser.checkedIdx (parser.checkedIdx + 1)) := by
    rw [occupied, if_pos (by change ring.startIdx ≤ ring.endIdx; omega)]
    change _ ≤ ring.endIdx - ring.startIdx
    omega
  have read := readByEnd_takes (marked ring parser.checkedIdx (parser.checkedIdx + 1)) inside'
    (ring.slots - ring.startIdx) (by omega) held (by change ring.startIdx + _ < _; omega)
  change HttpBuffer.readByEnd _ ((ring.startIdx + (ring.slots - ring.startIdx)) % ring.slots) = _ at read
  rw [total, Nat.mod_self] at read
  have zero : 0 ∈ window (marked ring parser.checkedIdx (parser.checkedIdx + 1)).buffer ring.slots
      ring.startIdx (ring.slots - ring.startIdx) := by
    refine List.mem_map.mpr ⟨parser.checkedIdx - ring.startIdx, List.mem_range.mpr (by omega), ?_⟩
    rw [Nat.add_sub_cancel' start, Nat.mod_eq_of_lt (by omega)]
    exact marked_carriage ring _ _
  obtain ⟨line, rest, split, clean⟩ := List.eq_append_cons_of_mem zero
  obtain rfl := marked_line start (by omega) (Nat.lt_succ_self _) (by omega) split clean
  have parsed := parseText_line { parser with checkedIdx := 0 } _ rest clean reading
  change HttpBuffer.readByEnd _ 0 = .ok (some (window _ ring.slots ring.startIdx _), _) at read
  rw [split] at read
  rw [processLoop, nextStatus, if_neg (by simp [reading]), parseLine, found]
  simp only [ok_bind, HttpParser.takeText, if_neg reading, read, ne_eq, not_true_eq_false, if_false,
    parsed]

/-- One byte is sent behind such a line end. -/
theorem receive_corner (tracks : Tracks capacity parser ring)
    (reading : parser.message.checkState ≠ .content) (waits : Waits parser ring)
    (corner : parser.checkedIdx + 2 = capacity) (start : ring.startIdx ≤ parser.checkedIdx)
    (met : parser.checkedIdx ≤ ring.endIdx)
    (settles : (absorb parser.message (heldLine parser ring)).1 ≠ .noRequest)
    (counts : parser.readIdx + (lineEnd parser ring).length + 1 < 2 ^ 31) :
    ∃ parser' ring', receive parser ring (lineEnd parser ring ++ [120]) =
      .ok ((absorb parser.message (heldLine parser ring)).1, parser', ring') := by
  have same := tracks.same
  have inside := tracks.inside
  have slots : ring.slots = ring.capacity + 1 := rfl
  have length : (lineEnd parser ring ++ [120]).length = (lineEnd parser ring).length + 1 :=
    List.length_append
  have ended : ring.endIdx + (lineEnd parser ring).length = parser.checkedIdx + 2 ∧
      (written ring (lineEnd parser ring ++ [120])).buffer parser.checkedIdx = 13 ∧
      (written ring (lineEnd parser ring ++ [120])).buffer (parser.checkedIdx + 1) = 10 := by
    by_cases here : parser.checkedIdx = ring.endIdx
    · have whole : lineEnd parser ring = [13, 10] := if_pos here
      have cell := written_new ring ([13, 10] ++ [120])
      rw [whole, here]
      exact ⟨rfl, (Option.some.inj (cell 0 (by decide))).symm, (Option.some.inj (cell 1 (by decide))).symm⟩
    · have halfway := waits.resolve_left here
      have position := halfway_position tracks halfway
      have half : lineEnd parser ring = [10] := if_neg here
      have cell := written_new ring ([10] ++ [120]) 0 (by decide)
      rw [half]
      refine ⟨?_, ?_, ?_⟩
      · change ring.endIdx + 1 = _
        omega
      · rw [written_old ring _ _ (by omega)]
        exact halfway.1
      · rw [show parser.checkedIdx + 1 = ring.endIdx + 0 by omega]
        exact (Option.some.inj cell).symm
  obtain ⟨finish, cr, lf⟩ := ended
  have fits : ring.endIdx + (lineEnd parser ring ++ [120]).length = ring.slots := by omega
  have filled : InRange (written ring (lineEnd parser ring ++ [120])) :=
    ⟨inside.narrow, inside.start, Nat.le_of_eq fits⟩
  have passed := @processLoop_corner { parser with
      readIdx := parser.readIdx + (lineEnd parser ring ++ [120]).length } _ filled fits reading
    (corner.trans same.symm) start cr lf (capacity + 2)
  have line := @heldLine_written parser ring
    (parser.readIdx + (lineEnd parser ring ++ [120]).length) (lineEnd parser ring ++ [120]) inside met
  simp only [line, if_neg settles] at passed
  have received := @receive_written parser _ _ _
    (write_straight ring inside _ (by omega) (Nat.le_of_eq fits)) (by omega)
  rw [received]
  change ∃ _ _, processLoop (ring.capacity + 3) _ _ _ = _
  rw [same]
  exact ⟨_, _, passed⟩

end

theorem parseRequestLine_goes_on (message : Message) (line : List UInt8) :
    (message.parseRequestLine line).1 = .noRequest →
      (message.parseRequestLine line).2.checkState = .header := by
  simp only [Message.parseRequestLine]
  repeat' split
  all_goals simp

theorem absorb_goes_on (message : Message) (line : List UInt8) (reading : message.checkState ≠ .content)
    (more : (absorb message line).1 = .noRequest) :
    ((absorb message line).2.checkState = .header ∧
        (message.checkState = .header ∧ message.contentLength ≠ 0 → line ≠ [])) ∨
      (message.checkState = .header ∧ line = [] ∧ message.contentLength ≠ 0 ∧
        (absorb message line).2 = { message with checkState := .content }) := by
  cases state : message.checkState with
  | requestLine =>
      refine .inl ⟨?_, fun header => by cases header.1⟩
      simp only [absorb, state] at more ⊢
      exact parseRequestLine_goes_on message line more
  | header =>
      simp only [absorb, state] at more ⊢
      by_cases empty : line = []
      · simp only [Message.parseHeaders, if_pos empty] at more ⊢
        by_cases due : message.contentLength ≠ 0
        · simp [due, empty]
        · rw [if_neg due] at more
          cases more
      · refine .inl ⟨?_, fun _ => empty⟩
        rw [Message.parseHeaders, if_neg empty]
        repeat' split
        all_goals exact state
  | content => exact absurd state reading

theorem absorb_contentType (message : Message) (reading : message.checkState ≠ .content) :
    (absorb message (ascii "Content-type:")).1 = .badRequest := by
  rw [absorb]
  cases state : message.checkState with
  | requestLine =>
      have solid : strpbrk (ascii "Content-type:") blanks = none := by decide
      simp only
      rw [Message.parseRequestLine, solid]
  | header =>
      simp only
      rw [Message.parseHeaders, if_neg (by decide), if_neg (by decide), if_neg (by decide),
        if_neg (by decide), if_pos (by decide), if_neg (by decide)]
  | content => exact absurd state reading

/-- A line that is refused, in the request line as among the headers. -/
def refused : List UInt8 := ascii "Content-type:" ++ [13, 10]

/-- The line being received ends the headers, and a body was announced. -/
def BodyDue (parser : HttpParser) (ring : HttpBuffer) : Prop :=
  parser.message.checkState = .header ∧ parser.message.contentLength ≠ 0 ∧ Blank parser ring

instance (parser : HttpParser) (ring : HttpBuffer) : Decidable (BodyDue parser ring) :=
  inferInstanceAs (Decidable (_ ∧ _ ∧ _))

/-- The bytes that lead to an answer: the end of the line, and then the body or a line that is
refused. -/
def closing (parser : HttpParser) (ring : HttpBuffer) : List UInt8 :=
  lineEnd parser ring ++
    if BodyDue parser ring then List.replicate parser.message.contentLength.toNat 97 else refused

section
variable {capacity : Nat} {parser : HttpParser} {ring : HttpBuffer}

theorem answered_of_ne {code : HttpCode} (settled : code ≠ .noRequest) :
    code = .getRequest ∨ code = .badRequest := by
  cases code with
  | noRequest => exact absurd rfl settled
  | getRequest => exact .inl rfl
  | badRequest => exact .inr rfl

theorem answered_by_refused (fuel pos : Nat) (parser : HttpParser) (ring : HttpBuffer)
    (reading : parser.message.checkState ≠ .content) (here : parser.checkedIdx = pos)
    (holds : Holds ring ring.buffer pos refused) :
    ∃ parser' ring', processLoop (fuel + 1) .ok parser ring = .ok (.badRequest, parser', ring') := by
  have silent : Quiet (ascii "Content-type:") := by
    rw [Quiet]
    decide +kernel
  obtain ⟨next, _, _, passed⟩ := processLoop_line ring ring.buffer pos fuel 0 .ok parser
    (ascii "Content-type:") [] reading holds silent (by decide) (Nat.zero_le _) here
  have rejected := absorb_contentType parser.message reading
  simp only [rejected, reduceCtorEq, if_false] at passed
  exact ⟨_, _, passed⟩

theorem answered_by_body (fuel pos : Nat) (parser : HttpParser) (ring : HttpBuffer)
    (content : parser.message.checkState = .content) (here : parser.checkedIdx = pos)
    (positive : 0 < parser.message.contentLength)
    (holds : Holds ring ring.buffer pos (List.replicate parser.message.contentLength.toNat 97))
    (arrived : pos + parser.message.contentLength.toNat ≤ parser.readIdx) :
    ∃ parser' ring', processLoop (fuel + 1) .ok parser ring = .ok (.getRequest, parser', ring') := by
  have clean : (0 : UInt8) ∉ List.replicate parser.message.contentLength.toNat 97 := by
    intro member
    exact absurd (List.eq_of_mem_replicate member) (by decide)
  have passed := processLoop_body ring ring.buffer pos fuel parser _ content holds clean here
    (by rw [List.length_replicate]; omega) (by rw [List.length_replicate]; exact arrived)
  exact ⟨_, _, passed⟩

theorem receive_closing (tracks : Tracks capacity parser ring)
    (reading : parser.message.checkState ≠ .content)
    (waits : Waits parser ring)
    (announced : BodyDue parser ring → 0 < parser.message.contentLength)
    (order : ring.startIdx = 0 → parser.checkedIdx ≤ ring.endIdx)
    (ahead : Ahead ring (closing parser ring).length)
    (counts : parser.readIdx + (closing parser ring).length < 2 ^ 31) :
    ∃ code parser' ring', receive parser ring (closing parser ring) = .ok (code, parser', ring') ∧
      (code = .getRequest ∨ code = .badRequest) := by
  have counted := tracks.counted
  obtain ⟨line, next, kept, holds, blank, _, received⟩ :=
    receive_closes tracks _ reading waits order ahead counts
  rw [closing, received]
  by_cases more : (absorb parser.message line).1 = .noRequest
  · simp only [if_pos more]
    rcases absorb_goes_on parser.message line reading more with ⟨header, full⟩ | ⟨header, empty, due, switched⟩
    · have free : ¬ BodyDue parser ring := fun ⟨state, length, empty⟩ => full ⟨state, length⟩ (blank.mpr empty)
      rw [if_neg free] at holds
      obtain ⟨parser', ring', answered⟩ := answered_by_refused (capacity + 1)
        (ring.endIdx + (lineEnd parser ring).length) { parser with
          readIdx := _, checkedIdx := _, startLine := _, message := (absorb parser.message line).2 }
        next (by rw [header]; decide) rfl holds
      exact ⟨_, _, _, answered, .inr rfl⟩
    · have bodyDue : BodyDue parser ring := ⟨header, due, blank.mp empty⟩
      have positive := announced bodyDue
      rw [if_pos bodyDue] at holds
      rw [switched]
      obtain ⟨parser', ring', taken⟩ := answered_by_body (capacity + 1)
        (ring.endIdx + (lineEnd parser ring).length) { parser with
          readIdx := parser.readIdx + (lineEnd parser ring ++ if BodyDue parser ring then
            List.replicate parser.message.contentLength.toNat 97 else refused).length
          checkedIdx := ring.endIdx + (lineEnd parser ring).length
          startLine := ring.endIdx + (lineEnd parser ring).length
          message := { parser.message with checkState := .content } } next rfl rfl positive holds
        (by
          simp only [if_pos bodyDue, List.length_append, List.length_replicate]
          omega)
      exact ⟨_, _, _, taken, .inl rfl⟩
  · simp only [if_neg more]
    exact ⟨_, _, _, rfl, answered_of_ne more⟩

end

end OtaMqtt.Http.LineEnds
