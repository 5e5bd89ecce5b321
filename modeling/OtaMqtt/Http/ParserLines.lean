import OtaMqtt.Http.Parser

/-! What one pass of the parser does while the ring has not wrapped.

As long as everything received fits below `m_capacity`, the unread bytes lie straight
behind `m_start_idx` and the two moduli of the ring never matter. -/

namespace OtaMqtt.Http.ParserLines

open OtaMqtt.Lib.Execution OtaMqtt.Lib.CText OtaMqtt.Lib.Ring
open OtaMqtt.Http.Buffer OtaMqtt.Http.Parser

/-- The unread bytes are `pending`, laid straight from slot `pos` on; the slots behind
them still hold what the allocator left there. -/
structure Holds (ring : HttpBuffer) (junk : Nat → UInt8) (pos : Nat) (pending : List UInt8) :
    Prop where
  capacity : ring.capacity < 2 ^ 31
  start : ring.startIdx = pos
  finish : ring.endIdx = pos + pending.length
  room : pos + pending.length < ring.capacity
  bytes : ∀ offset, offset < pending.length →
    pending[offset]? = some (ring.buffer (pos + offset))
  beyond : ∀ slot, pos + pending.length ≤ slot → ring.buffer slot = junk slot

theorem fresh_holds (capacity : Nat) (junk : Nat → UInt8) (positive : 0 < capacity)
    (bound : capacity < 2 ^ 31) : Holds (HttpBuffer.fresh capacity junk) junk 0 [] where
  capacity := bound
  start := rfl
  finish := rfl
  room := positive
  bytes := by intro offset inside; cases inside
  beyond := by intro slot _; rfl

def Quiet (line : List UInt8) : Prop := ∀ byte ∈ line, byte ≠ 13 ∧ byte ≠ 10

section
variable {ring : HttpBuffer} {junk : Nat → UInt8} {pos : Nat}

theorem Holds.val (front rest : List UInt8) (byte : UInt8)
    (holds : Holds ring junk pos (front ++ byte :: rest)) :
    ring.buffer (pos + front.length) = byte := by
  have cell := holds.bytes front.length (by simp)
  rw [List.getElem?_append_right (Nat.le_refl _), Nat.sub_self, List.getElem?_cons_zero] at cell
  exact (Option.some.inj cell).symm

theorem Holds.getVal (front rest : List UInt8) (byte : UInt8)
    (holds : Holds ring junk pos (front ++ byte :: rest)) :
    ring.getVal (pos + front.length) = .ok byte := by
  have room := holds.room
  simp only [List.length_append, List.length_cons] at room
  rw [HttpBuffer.getVal, load, if_pos (by unfold HttpBuffer.slots; omega), holds.val front rest byte]

theorem nextIdx_ok (idx : Nat) (inside : idx + 1 < ring.capacity) (bound : ring.capacity < 2 ^ 31) :
    ring.nextIdx idx = .ok (idx + 1) := by
  rw [ring.nextIdx_eq (by omega) (by omega), Nat.mod_eq_of_lt inside]

theorem Holds.next (front rest : List UInt8) (byte : UInt8)
    (holds : Holds ring junk pos (front ++ byte :: rest)) :
    ring.nextIdx (pos + front.length) = .ok (pos + front.length + 1) := by
  have room := holds.room
  simp only [List.length_append, List.length_cons] at room
  exact nextIdx_ok _ (by omega) holds.capacity

theorem Holds.setVal (front rest : List UInt8) (byte value : UInt8)
    (holds : Holds ring junk pos (front ++ byte :: rest)) :
    ∃ next, ring.setVal value (pos + front.length) = .ok next ∧ next.capacity = ring.capacity ∧
      Holds next junk pos (front ++ value :: rest) := by
  have room := holds.room
  have finish := holds.finish
  simp only [List.length_append, List.length_cons] at room finish
  refine ⟨{ ring with buffer := Function.update ring.buffer (pos + front.length) value }, ?_, rfl, ?_⟩
  · rw [HttpBuffer.setVal, store, if_pos (by unfold HttpBuffer.slots; omega), ok_bind]
  · refine ⟨holds.capacity, holds.start, ?_, ?_, ?_, ?_⟩
    · simpa only [List.length_append, List.length_cons] using finish
    · simpa only [List.length_append, List.length_cons] using room
    · intro offset inside
      have cell := holds.bytes offset (by simpa using inside)
      simp only [List.getElem?_append, List.getElem?_cons] at cell ⊢
      by_cases early : offset < front.length
      · rw [if_pos early] at cell ⊢
        rw [Function.update_of_ne (by omega)]
        exact cell
      · rw [if_neg early] at cell ⊢
        by_cases here : offset = front.length
        · subst offset
          simp
        · rw [if_neg (by omega)] at cell ⊢
          rw [Function.update_of_ne (by omega)]
          exact cell
    · intro slot past
      simp only [List.length_append, List.length_cons] at past
      show Function.update ring.buffer (pos + front.length) value slot = junk slot
      rw [Function.update_of_ne (by omega)]
      exact holds.beyond slot (by simpa using past)

theorem Holds.write (pending chunk : List UInt8) (holds : Holds ring junk pos pending)
    (fits : pos + pending.length + chunk.length < ring.capacity) :
    ∃ next, ring.write (fun index => chunk.getD index 0) chunk.length = .ok (true, next) ∧
      next.capacity = ring.capacity ∧ Holds next junk pos (pending ++ chunk) := by
  have capacity := holds.capacity
  have start := holds.start
  have finish := holds.finish
  refine ⟨_, HttpBuffer.write_straight ring _ _ (by omega) (by unfold HttpBuffer.slots; omega)
    (by omega) (by unfold HttpBuffer.slots; omega), rfl, ?_⟩
  refine ⟨capacity, start, ?_, ?_, ?_, ?_⟩
  · simp only [finish, List.length_append, Nat.add_assoc]
  · simpa only [List.length_append, ← Nat.add_assoc] using fits
  · intro offset inside
    rw [List.length_append] at inside
    simp only [HttpBuffer.pasted]
    by_cases old : offset < pending.length
    · rw [List.getElem?_append_left old, if_neg (by omega)]
      exact holds.bytes offset old
    · rw [List.getElem?_append_right (by omega), if_pos (by omega), List.getD_eq_getElem?_getD,
        show pos + offset - ring.endIdx = offset - pending.length by omega,
        List.getElem?_eq_getElem (by omega), Option.getD_some]
  · intro slot past
    rw [List.length_append] at past
    simp only [HttpBuffer.pasted]
    rw [if_neg (by omega)]
    exact holds.beyond slot (by omega)

theorem scanLine_quiet (fuel : Nat) (front quiet rest : List UInt8) (parser : HttpParser)
    (holds : Holds ring junk pos (front ++ (quiet ++ rest))) (silent : Quiet quiet)
    (here : parser.checkedIdx = pos + front.length) :
    HttpParser.scanLine ring.endIdx (fuel + quiet.length) parser ring =
      HttpParser.scanLine ring.endIdx fuel
        { parser with checkedIdx := pos + front.length + quiet.length } ring := by
  induction quiet generalizing front parser with
  | nil =>
      simp only [List.length_nil, Nat.add_zero, ← here]
  | cons byte quiet ih =>
      have loud := silent byte (List.mem_cons_self)
      have finish := holds.finish
      simp only [List.length_append, List.length_cons] at finish
      have byteVal := Holds.getVal front (quiet ++ rest) byte holds
      have advance := Holds.next front (quiet ++ rest) byte holds
      rw [List.length_cons, ← Nat.add_assoc, HttpParser.scanLine, here, if_neg (by omega), byteVal,
        ok_bind, if_neg loud.1, if_neg loud.2, advance, ok_bind]
      have moved := ih (front ++ [byte]) { parser with checkedIdx := pos + front.length + 1 }
        (by simpa using holds) (fun other member => silent other (List.mem_cons_of_mem _ member))
        (by simp [Nat.add_assoc])
      rw [moved]
      simp only [List.length_append, List.length_cons, List.length_nil]
      congr 2
      omega

theorem parseLine_skips (line rest : List UInt8) (scanned : Nat) (parser : HttpParser)
    (holds : Holds ring junk pos (line ++ rest)) (silent : Quiet line)
    (within : scanned ≤ line.length) (here : parser.checkedIdx = pos + scanned) :
    ∃ fuel, parser.parseLine ring =
      HttpParser.scanLine ring.endIdx (fuel + 1) { parser with checkedIdx := pos + line.length } ring := by
  have room := holds.room
  simp only [List.length_append] at room
  have split : line.take scanned ++ (line.drop scanned ++ rest) = line ++ rest := by
    rw [← List.append_assoc, List.take_append_drop]
  have first : (line.take scanned).length = scanned := List.length_take_of_le within
  have left : (line.drop scanned).length = line.length - scanned := List.length_drop
  have skipped := scanLine_quiet (ring.capacity + 1 - (line.length - scanned) + 1)
    (line.take scanned) (line.drop scanned) rest parser (by rw [split]; exact holds)
    (fun byte member => silent byte (List.mem_of_mem_drop member)) (by rw [first, here])
  refine ⟨ring.capacity + 1 - (line.length - scanned), ?_⟩
  rw [first, left] at skipped
  rw [show ring.capacity + 1 - (line.length - scanned) + 1 + (line.length - scanned) =
      ring.capacity + 2 by omega,
    show pos + scanned + (line.length - scanned) = pos + line.length by omega] at skipped
  exact skipped

/-- The scan ends inside a line: it has met no CR, or one whose successor is missing. -/
theorem parseLine_open (line rest : List UInt8) (scanned : Nat) (parser : HttpParser)
    (holds : Holds ring junk pos (line ++ rest)) (silent : Quiet line) (tail : rest = [] ∨ rest = [13])
    (within : scanned ≤ line.length) (here : parser.checkedIdx = pos + scanned) :
    parser.parseLine ring =
      .ok (.open, { parser with checkedIdx := pos + line.length }, ring) := by
  have finish := holds.finish
  obtain ⟨fuel, skipped⟩ := parseLine_skips line rest scanned parser holds silent within here
  rw [skipped, HttpParser.scanLine]
  rcases tail with rfl | rfl
  · rw [if_pos (by simpa using finish.symm)]
  · simp only [List.length_append, List.length_cons, List.length_nil] at finish
    rw [if_neg (by simp only; omega), holds.getVal line [] 13, ok_bind, if_pos rfl,
      holds.next line [] 13, ok_bind, if_pos (by omega)]

theorem parseLine_found (line rest : List UInt8) (scanned : Nat) (parser : HttpParser)
    (holds : Holds ring junk pos (line ++ 13 :: 10 :: rest)) (silent : Quiet line)
    (within : scanned ≤ line.length) (here : parser.checkedIdx = pos + scanned) :
    ∃ next, parser.parseLine ring =
        .ok (.ok, { parser with checkedIdx := pos + line.length + 2 }, next) ∧
      next.capacity = ring.capacity ∧ Holds next junk pos (line ++ 0 :: 0 :: rest) := by
  have room := holds.room
  have finish := holds.finish
  simp only [List.length_append, List.length_cons] at room finish
  obtain ⟨fuel, skipped⟩ := parseLine_skips line _ scanned parser holds silent within here
  have after : Holds ring junk pos ((line ++ [13]) ++ 10 :: rest) := by simpa using holds
  have lineFeed := after.getVal (line ++ [13]) rest 10
  have shift (byte : UInt8) : pos + (line ++ [byte]).length = pos + line.length + 1 := by
    simp [Nat.add_assoc]
  rw [shift] at lineFeed
  obtain ⟨once, set1, capacity1, holds1⟩ := holds.setVal line (10 :: rest) 13 0
  have between : Holds once junk pos ((line ++ [0]) ++ 10 :: rest) := by simpa using holds1
  obtain ⟨twice, set2, capacity2, holds2⟩ := between.setVal (line ++ [0]) rest 10 0
  rw [shift] at set2
  have last : twice.nextIdx (pos + line.length + 1) = .ok (pos + line.length + 2) := by
    apply nextIdx_ok
    · rw [capacity2, capacity1]
      omega
    · exact holds2.capacity
  refine ⟨twice, ?_, by rw [capacity2, capacity1], by simpa using holds2⟩
  rw [skipped, HttpParser.scanLine]
  rw [if_neg (by simp only; omega), holds.getVal line (10 :: rest) 13, ok_bind, if_pos rfl,
    holds.next line (10 :: rest) 13, ok_bind, if_neg (by omega), lineFeed, ok_bind, if_pos rfl,
    set1, ok_bind, set2, ok_bind, last, ok_bind]

theorem Holds.slice (front rest : List UInt8) (holds : Holds ring junk pos (front ++ rest)) :
    (List.range front.length).map (fun index => ring.buffer (pos + index)) = front := by
  apply List.ext_getElem?
  intro index
  by_cases inside : index < front.length
  · have cell := holds.bytes index (by rw [List.length_append]; omega)
    rw [List.getElem?_append_left inside] at cell
    rw [List.getElem?_map, List.getElem?_range inside, cell]
    rfl
  · simp [inside]

theorem Holds.advance (front rest : List UInt8) (holds : Holds ring junk pos (front ++ rest)) :
    Holds (ring.advanced front.length) junk (pos + front.length) rest := by
  have room := holds.room
  have finish := holds.finish
  have start := holds.start
  simp only [List.length_append] at room finish
  refine ⟨?_, ?_, ?_, ?_, ?_, ?_⟩
  · rw [HttpBuffer.advanced_capacity]
    exact holds.capacity
  · rw [HttpBuffer.advanced_startIdx, start]
    exact Nat.mod_eq_of_lt (by unfold HttpBuffer.slots; omega)
  · rw [HttpBuffer.advanced_endIdx, Nat.add_assoc]
    exact finish
  · rw [HttpBuffer.advanced_capacity, Nat.add_assoc]
    exact room
  · intro offset inside
    have cell := holds.bytes (front.length + offset) (by rw [List.length_append]; omega)
    rw [List.getElem?_append_right (by omega), Nat.add_sub_cancel_left] at cell
    rw [cell, Nat.add_assoc, HttpBuffer.advanced_buffer]
  · intro slot past
    rw [HttpBuffer.advanced_buffer]
    exact holds.beyond slot (by rw [List.length_append]; omega)

theorem readByEnd_front (front rest : List UInt8) (nonempty : front ≠ [])
    (holds : Holds ring junk pos (front ++ rest)) :
    ring.readByEnd (pos + front.length) = .ok (some front, ring.advanced front.length) := by
  have room := holds.room
  have finish := holds.finish
  have start := holds.start
  have capacity := holds.capacity
  have positive := List.length_pos_iff.mpr nonempty
  simp only [List.length_append] at room finish
  have size : pos + front.length - 1 - pos + 1 = front.length := by omega
  have copied := copyOut_ok ring.slots ring.buffer pos front.length
    (by unfold HttpBuffer.slots; omega)
  have last : (if pos + front.length = 0 then ring.slots - 1 else pos + front.length - 1) =
      pos + front.length - 1 := if_neg (by omega)
  unfold HttpBuffer.readByEnd
  simp only [last, start]
  rw [if_pos (by omega), if_neg (by omega), size, copied, ok_bind,
    ring.consume_ok _ (by omega), ok_bind, holds.slice front rest]

theorem countToZero_clean (front rest : List UInt8) (fuel size : Nat)
    (holds : Holds ring junk pos (front ++ rest)) (clean : 0 ∉ rest) :
    ring.countToZero (fuel + rest.length + 1) (pos + front.length) size =
      .ok (size + rest.length) := by
  have finish := holds.finish
  have room := holds.room
  simp only [List.length_append] at finish room
  induction rest generalizing front size with
  | nil =>
      rw [HttpBuffer.countToZero, if_pos (by rw [finish]; rfl)]
      rfl
  | cons byte rest ih =>
      rw [List.length_cons] at finish room
      have byteVal := holds.getVal front rest byte
      rw [HttpBuffer.getVal] at byteVal
      have step : (pos + front.length + 1) % ring.slots = pos + (front ++ [byte]).length := by
        rw [Nat.mod_eq_of_lt (by unfold HttpBuffer.slots; omega)]
        simp [Nat.add_assoc]
      have later := ih (front ++ [byte]) (size + 1) (by simpa using holds)
        (fun member => clean (List.mem_cons_of_mem _ member)) (by simp; omega) (by simp; omega)
      rw [List.length_cons, ← Nat.add_assoc, HttpBuffer.countToZero, if_neg (by omega), byteVal,
        ok_bind, if_neg (by rintro rfl; exact clean List.mem_cons_self), step, later]
      congr 1
      omega

theorem copyFrom_rest (front rest : List UInt8) (holds : Holds ring junk pos (front ++ rest)) :
    ring.copyFrom rest.length (pos + front.length) = .ok rest := by
  have room := holds.room
  simp only [List.length_append] at room
  induction rest generalizing front with
  | nil => rfl
  | cons byte rest ih =>
      rw [List.length_cons] at room
      have byteVal := holds.getVal front rest byte
      rw [HttpBuffer.getVal] at byteVal
      have step : (pos + front.length + 1) % ring.slots = pos + (front ++ [byte]).length := by
        rw [Nat.mod_eq_of_lt (by unfold HttpBuffer.slots; omega)]
        simp [Nat.add_assoc]
      have later := ih (front ++ [byte]) (by simpa using holds) (by simp; omega)
      rw [List.length_cons, HttpBuffer.copyFrom, byteVal, ok_bind, step, later, ok_bind]

/-- The ring after `read_by_zero` met no NUL: `m_start_idx` stands one past `m_end_idx`. -/
def drained (ring : HttpBuffer) (size : Nat) : HttpBuffer :=
  { ring with startIdx := ring.startIdx + size + 1, size := subSize ring.size size }

theorem drained_bounds (ring : HttpBuffer) (size : Nat) :
    (drained ring size).startIdx = ring.startIdx + size + 1 ∧
      (drained ring size).endIdx = ring.endIdx ∧ (drained ring size).buffer = ring.buffer ∧
      (drained ring size).capacity = ring.capacity := by
  cases ring
  exact ⟨rfl, rfl, rfl, rfl⟩

theorem readByZero_clean (pending : List UInt8) (holds : Holds ring junk pos pending)
    (clean : 0 ∉ pending) :
    ring.readByZero = .ok (pending ++ [0], drained ring pending.length) := by
  have room := holds.room
  have capacity := holds.capacity
  have counted := countToZero_clean [] pending (ring.slots - pending.length) 0 holds clean
  have copied := copyFrom_rest [] pending holds
  rw [Nat.sub_add_cancel (by unfold HttpBuffer.slots; omega)] at counted
  simp only [List.length_nil, Nat.add_zero, Nat.zero_add] at counted
  rw [List.length_nil, Nat.add_zero] at copied
  rw [HttpBuffer.readByZero, holds.start, counted, ok_bind, copied, ok_bind,
    toInt_of_lt (by omega), ok_bind, drained, holds.start]

end

def absorb (message : Message) (line : List UInt8) : HttpCode × Message :=
  match message.checkState with
  | .requestLine => message.parseRequestLine line
  | _ => message.parseHeaders line

theorem cstring_terminated (line rest : List UInt8) (clean : 0 ∉ line) :
    cstring (line ++ 0 :: rest) = .ok line := by
  have kept : ∀ byte ∈ line, decide (byte ≠ 0) = true := by
    intro byte member
    exact decide_eq_true (fun zero => clean (zero ▸ member))
  rw [cstring, if_pos (by simp), List.takeWhile_append_of_pos kept]
  simp

theorem parseText_line (parser : HttpParser) (line rest : List UInt8) (clean : 0 ∉ line)
    (reading : parser.message.checkState ≠ .content) :
    parser.parseText (line ++ 0 :: rest) =
      .ok ((absorb parser.message line).1, { parser with
        startLine := parser.checkedIdx, message := (absorb parser.message line).2 }) := by
  rw [HttpParser.parseText, cstring_terminated line rest clean, ok_bind]
  obtain ⟨readIdx, checkedIdx, startLine, bufferSize, message⟩ := parser
  obtain ⟨state, method, uri, body, length, alive, host⟩ := message
  cases state with
  | requestLine => rfl
  | header => rfl
  | content => exact absurd rfl reading

/-- One pass over a complete line: the line is parsed and dropped from the ring. -/
theorem processLoop_line (ring : HttpBuffer) (junk : Nat → UInt8) (pos fuel scanned : Nat) (status : LineStatus)
    (parser : HttpParser) (line rest : List UInt8)
    (reading : parser.message.checkState ≠ .content)
    (holds : Holds ring junk pos (line ++ 13 :: 10 :: rest)) (silent : Quiet line) (clean : 0 ∉ line)
    (within : scanned ≤ line.length) (here : parser.checkedIdx = pos + scanned) :
    ∃ next, next.capacity = ring.capacity ∧ Holds next junk (pos + line.length + 2) rest ∧
      HttpParser.processLoop (fuel + 1) status parser ring =
        let done : HttpParser := { parser with
          checkedIdx := pos + line.length + 2, startLine := pos + line.length + 2,
          message := (absorb parser.message line).2 }
        if (absorb parser.message line).1 = .noRequest then
          HttpParser.processLoop fuel .ok done next
        else .ok ((absorb parser.message line).1, done, next) := by
  obtain ⟨marked, found, capacity, terminated⟩ :=
    parseLine_found line rest scanned parser holds silent within here
  have whole : Holds marked junk pos ((line ++ [0, 0]) ++ rest) := by simpa using terminated
  have taken := readByEnd_front (line ++ [0, 0]) rest (by simp) whole
  have advanced := whole.advance (line ++ [0, 0]) rest
  have length : (line ++ [(0 : UInt8), 0]).length = line.length + 2 := by simp
  rw [length, ← Nat.add_assoc] at taken advanced
  refine ⟨_, ?_, advanced, ?_⟩
  · rw [HttpBuffer.advanced_capacity, capacity]
  · rw [HttpParser.processLoop, HttpParser.nextStatus, if_neg (by simp [reading]), found]
    have parsed := parseText_line { parser with checkedIdx := pos + line.length + 2 } line [0]
      clean reading
    simp only [ok_bind, HttpParser.takeText, if_neg reading, taken, ne_eq, not_true_eq_false,
      if_false, parsed]

theorem processLoop_body (ring : HttpBuffer) (junk : Nat → UInt8) (pos fuel : Nat) (parser : HttpParser)
    (body : List UInt8) (content : parser.message.checkState = .content)
    (holds : Holds ring junk pos body) (clean : 0 ∉ body) (here : parser.checkedIdx = pos)
    (length : parser.message.contentLength = body.length)
    (arrived : pos + body.length ≤ parser.readIdx) :
    HttpParser.processLoop (fuel + 1) .ok parser ring =
      .ok (.getRequest, { parser with
        startLine := pos, message := { parser.message with requestBody := body } },
        drained ring body.length) := by
  have room := holds.room
  have capacity := holds.capacity
  have read := readByZero_clean body holds clean
  have text := cstring_terminated body [] clean
  have terminated : (body ++ [(0 : UInt8)]).set body.length 0 = body ++ [0] := by
    rw [List.set_append_right _ _ (Nat.le_refl _), Nat.sub_self]
    rfl
  have parsed : parser.parseText (body ++ [0]) = .ok (.getRequest, { parser with
      startLine := pos, message := { parser.message with requestBody := body } }) := by
    rw [HttpParser.parseText, text, ok_bind]
    simp only [content, HttpParser.parseContent, length, here]
    rw [if_neg (by omega), if_pos (by omega), if_pos (by simp), Int.toNat_natCast, terminated,
      text, ok_bind]
  rw [HttpParser.processLoop, HttpParser.nextStatus, if_pos ⟨content, rfl⟩, ok_bind]
  simp only [ne_eq, not_true_eq_false, if_false, HttpParser.takeText, if_pos content, read, ok_bind,
    parsed]
  rfl

end OtaMqtt.Http.ParserLines
