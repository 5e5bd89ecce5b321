import OtaMqtt.Http.Requests

/-! Calls of the parser on the head of a request that arrives piece by piece. -/

namespace OtaMqtt.Http.ParserRuns

open OtaMqtt.Lib.Execution OtaMqtt.Lib.CText
open OtaMqtt.Http.Buffer OtaMqtt.Http.Parser OtaMqtt.Http.ParserLines OtaMqtt.Http.Requests

theorem encodeLines_cons (line : List UInt8) (lines : List (List UInt8)) :
    encodeLines (line :: lines) = line ++ 13 :: 10 :: encodeLines lines := by
  simp [encodeLines, crlf]

theorem encodeLines_append (front back : List (List UInt8)) :
    encodeLines (front ++ back) = encodeLines front ++ encodeLines back := by
  simp [encodeLines]

theorem encodeLines_room (lines : List (List UInt8)) :
    2 * lines.length ≤ (encodeLines lines).length := by
  induction lines with
  | nil => simp
  | cons line lines ih =>
      rw [encodeLines_cons]
      simp only [List.length_append, List.length_cons]
      omega

theorem encodeLines_inside (lines : List (List UInt8)) (part : List UInt8)
    (begun : part <+: encodeLines lines) (short : part.length < (encodeLines lines).length) :
    ∃ done line left rest, lines = done ++ line :: left ∧ part = encodeLines done ++ rest ∧
      rest <+: line ++ crlf ∧ rest.length < line.length + 2 := by
  induction lines generalizing part with
  | nil => simp [encodeLines] at short
  | cons line lines ih =>
      have unfolded : encodeLines (line :: lines) = (line ++ crlf) ++ encodeLines lines := by
        rw [encodeLines_cons]
        simp [crlf]
      have size : (line ++ crlf).length = line.length + 2 := by simp [crlf]
      rw [unfolded] at begun short
      by_cases within : part.length < line.length + 2
      · exact ⟨[], line, lines, part, rfl, rfl,
          List.prefix_of_prefix_length_le begun (List.prefix_append _ _) (by omega), within⟩
      · obtain ⟨rest, rfl⟩ := List.prefix_of_prefix_length_le (List.prefix_append (line ++ crlf) _)
          begun (by omega)
        rw [List.prefix_append_right_inj] at begun
        simp only [List.length_append] at short
        obtain ⟨done, next, left, tail, split, shape, inside, bound⟩ := ih rest begun (by omega)
        refine ⟨line :: done, next, left, tail, by rw [split]; rfl, ?_, inside, bound⟩
        rw [shape, encodeLines_cons]
        simp [crlf]

/-- A parser that has scanned all it can of the unfinished line `part`. -/
structure Waiting (parser : HttpParser) (ring : HttpBuffer) (junk : Nat → UInt8) (pos : Nat)
    (line part : List UInt8) : Prop where
  holds : Holds ring junk pos part
  begun : part <+: line ++ crlf
  short : part.length < line.length + 2
  checked : parser.checkedIdx = pos + min part.length line.length
  read : parser.readIdx = pos + part.length

section
variable {junk : Nat → UInt8}

theorem processLoop_calm (lines : List (List UInt8)) (rest : List UInt8) (ring : HttpBuffer)
    (parser : HttpParser) (pos fuel scanned : Nat) (status : LineStatus)
    (calm : Calm parser.message lines) (plain : ∀ line ∈ lines, Plain line)
    (holds : Holds ring junk pos (encodeLines lines ++ rest))
    (within : ∀ line ∈ lines.head?, scanned ≤ line.length)
    (here : parser.checkedIdx = pos + scanned) :
    ∃ status' parser' next scanned',
      HttpParser.processLoop (fuel + lines.length) status parser ring =
        HttpParser.processLoop fuel status' parser' next ∧
      next.capacity = ring.capacity ∧ Holds next junk (pos + (encodeLines lines).length) rest ∧
      parser'.message = absorbAll parser.message lines ∧ parser'.readIdx = parser.readIdx ∧
      parser'.checkedIdx = pos + (encodeLines lines).length + scanned' ∧
      (scanned' = 0 ∨ (lines = [] ∧ scanned' = scanned)) := by
  induction lines generalizing ring parser pos scanned status with
  | nil => exact ⟨status, parser, ring, scanned, rfl, rfl, holds, rfl, rfl, here, .inr ⟨rfl, rfl⟩⟩
  | cons line lines ih =>
      obtain ⟨reading, code, later⟩ := calm
      rw [encodeLines_cons, List.append_assoc] at holds
      have lineful := plain line List.mem_cons_self
      obtain ⟨next, capacity, moved, passed⟩ := processLoop_line ring junk pos (fuel + lines.length)
        scanned status parser line (encodeLines lines ++ rest) reading holds lineful.1 lineful.2
        (within line rfl) here
      obtain ⟨status', parser', last, scanned', run, capacity', holds', message, read, checked, zero⟩ :=
        ih next { parser with
            checkedIdx := pos + line.length + 2, startLine := pos + line.length + 2,
            message := (absorb parser.message line).2 }
          (pos + line.length + 2) 0 .ok later
          (fun other member => plain other (List.mem_cons_of_mem _ member)) moved
          (fun _ _ => Nat.zero_le _) rfl
      have size : pos + line.length + 2 + (encodeLines lines).length =
          pos + (encodeLines (line :: lines)).length := by
        rw [encodeLines_cons]
        simp only [List.length_append, List.length_cons]
        omega
      rw [size] at holds' checked
      refine ⟨status', parser', last, scanned', ?_, capacity'.trans capacity, holds', message, read,
        checked, .inl ?_⟩
      · rw [List.length_cons, ← Nat.add_assoc, passed]
        simp only [code, if_pos]
        exact run
      · rcases zero with zero | ⟨_, zero⟩ <;> exact zero

theorem processLoop_open (line part : List UInt8) (ring : HttpBuffer) (parser : HttpParser)
    (pos fuel scanned : Nat) (status : LineStatus)
    (reading : parser.message.checkState ≠ .content) (holds : Holds ring junk pos part)
    (begun : part <+: line ++ crlf) (short : part.length < line.length + 2) (plain : Plain line)
    (within : scanned ≤ line.length) (arrived : scanned ≤ part.length)
    (here : parser.checkedIdx = pos + scanned) :
    HttpParser.processLoop (fuel + 1) status parser ring =
      .ok (.noRequest, { parser with checkedIdx := pos + min part.length line.length }, ring) := by
  have stopped : parser.parseLine ring =
      .ok (.open, { parser with checkedIdx := pos + min part.length line.length }, ring) := by
    by_cases inside : part.length ≤ line.length
    · have front : part <+: line :=
        List.prefix_of_prefix_length_le begun (List.prefix_append _ _) inside
      have opened := parseLine_open part [] scanned parser (by simpa using holds)
        (fun byte member => plain.1 byte (front.mem member)) (.inl rfl) arrived here
      rw [opened, Nat.min_eq_left inside]
    · obtain ⟨rest, rfl⟩ := List.prefix_of_prefix_length_le (List.prefix_append line crlf) begun
        (by omega)
      rw [List.prefix_append_right_inj] at begun
      rw [List.length_append] at short inside
      have single : rest = [13] := by
        have one : rest.length = 1 := by omega
        obtain ⟨byte, rfl⟩ := List.length_eq_one_iff.mp one
        obtain ⟨tail, same⟩ := begun
        simp only [crlf, List.cons_append, List.nil_append, List.cons.injEq] at same
        rw [same.1]
      have opened := parseLine_open line rest scanned parser holds plain.1 (.inr single) within here
      rw [opened, List.length_append, Nat.min_eq_right (by omega)]
  rw [HttpParser.processLoop, HttpParser.nextStatus, if_neg (by simp [reading]), stopped]
  rfl

theorem receive_eq (parser : HttpParser) (ring : HttpBuffer) (pos : Nat) (part chunk : List UInt8)
    (holds : Holds ring junk pos part) (read : parser.readIdx = pos + part.length)
    (fits : pos + part.length + chunk.length < ring.capacity) :
    ∃ next, next.capacity = ring.capacity ∧ Holds next junk pos (part ++ chunk) ∧
      receive parser ring chunk = HttpParser.processLoop (ring.capacity + 3) .ok
        { parser with readIdx := pos + (part ++ chunk).length } next := by
  have bound := holds.capacity
  obtain ⟨next, wrote, capacity, holds'⟩ := holds.write part chunk fits
  refine ⟨next, capacity, holds', ?_⟩
  rw [receive, wrote, ok_bind, HttpParser.updateBufferSize, read, toInt_of_lt (by omega),
    List.length_append, ← Nat.add_assoc]
  simp only [ok_bind, HttpParser.processRead, capacity]

theorem receive_calm (parser : HttpParser) (ring : HttpBuffer) (pos : Nat)
    (line part chunk next rest : List UInt8) (lines done left : List (List UInt8))
    (waiting : Waiting parser ring junk pos line part) (split : line :: lines = done ++ next :: left)
    (quiet : Calm parser.message done) (plain : ∀ other ∈ line :: lines, Plain other)
    (whole : part ++ chunk = encodeLines done ++ rest)
    (fits : pos + part.length + chunk.length < ring.capacity) :
    ∃ fuel status parser' ring' scanned,
      receive parser ring chunk = HttpParser.processLoop (fuel + 2) status parser' ring' ∧
      ring'.capacity = ring.capacity ∧ Holds ring' junk (pos + (encodeLines done).length) rest ∧
      parser'.message = absorbAll parser.message done ∧
      parser'.readIdx = pos + (encodeLines done).length + rest.length ∧
      parser'.checkedIdx = pos + (encodeLines done).length + scanned ∧
      scanned ≤ next.length ∧ scanned ≤ rest.length := by
  obtain ⟨filled, capacity, holds, received⟩ :=
    receive_eq parser ring pos part chunk waiting.holds waiting.read fits
  have room := encodeLines_room done
  have total := congrArg List.length whole
  simp only [List.length_append] at total
  have first : ∀ other ∈ done.head?, min part.length line.length ≤ other.length := by
    intro other member
    cases done with
    | nil => cases member
    | cons head done =>
        obtain rfl : head = other := by simpa using member
        obtain rfl := (List.cons.inj split).1
        omega
  obtain ⟨status, parser', ring', scanned, run, capacity', holds', message, read, checked, reset⟩ :=
    processLoop_calm done rest filled { parser with readIdx := pos + (part ++ chunk).length } pos
      (ring.capacity + 3 - done.length) (min part.length line.length) .ok quiet
      (fun other member => plain other (by rw [split]; exact List.mem_append_left _ member))
      (by rw [← whole]; exact holds) first waiting.checked
  refine ⟨ring.capacity + 1 - done.length, status, parser', ring', scanned, ?_,
    capacity'.trans capacity, holds', message, ?_, checked, ?_⟩
  · have spare : ring.capacity + 1 - done.length + 2 = ring.capacity + 3 - done.length := by omega
    rw [show ring.capacity + 3 - done.length + done.length = ring.capacity + 3 by omega] at run
    rw [received, run, spare]
  · refine read.trans ?_
    show pos + (part ++ chunk).length = _
    rw [whole, List.length_append, Nat.add_assoc]
  · -- before the first complete line the scan goes on where it stopped in the old part
    rcases reset with zero | ⟨rfl, same⟩
    · omega
    · obtain rfl := (List.cons.inj split).1
      have grown : rest = part ++ chunk := by simpa [encodeLines] using whole.symm
      have size := congrArg List.length grown
      rw [List.length_append] at size
      omega

/-- A chunk that leaves the head unfinished: the parser asks for more and waits inside
the line it has reached. -/
theorem receive_open (parser : HttpParser) (ring : HttpBuffer) (pos : Nat)
    (line part chunk last : List UInt8) (lines calm : List (List UInt8))
    (waiting : Waiting parser ring junk pos line part) (shape : line :: lines = calm ++ [last])
    (quiet : Calm parser.message calm) (plain : ∀ other ∈ line :: lines, Plain other)
    (begun : part ++ chunk <+: encodeLines (line :: lines))
    (short : (part ++ chunk).length < (encodeLines (line :: lines)).length)
    (fits : pos + part.length + chunk.length < ring.capacity) :
    ∃ done next left rest parser' ring', line :: lines = done ++ next :: left ∧
      part ++ chunk = encodeLines done ++ rest ∧
      receive parser ring chunk = .ok (.noRequest, parser', ring') ∧
      ring'.capacity = ring.capacity ∧
      Waiting parser' ring' junk (pos + (encodeLines done).length) next rest ∧
      parser'.message = absorbAll parser.message done := by
  obtain ⟨done, next, left, rest, split, whole, inside, unfinished⟩ :=
    encodeLines_inside (line :: lines) (part ++ chunk) begun short
  obtain ⟨after, extended⟩ : done <+: calm := by
    have front : done <+: line :: lines := ⟨next :: left, split.symm⟩
    rw [shape] at front
    apply List.prefix_of_prefix_length_le front (List.prefix_append _ _)
    have lengths := congrArg List.length (shape.symm.trans split)
    simp only [List.length_append, List.length_cons, List.length_nil] at lengths
    omega
  rw [← extended] at quiet
  obtain ⟨quietDone, quietAfter⟩ := quiet.split
  obtain ⟨fuel, status, parser', ring', scanned, received, capacity, holds, message, read, checked,
    inLine, inRest⟩ := receive_calm parser ring pos line part chunk next rest lines done left waiting
      split quietDone plain whole fits
  have stopped := processLoop_open next rest ring' parser' (pos + (encodeLines done).length)
    (fuel + 1) scanned status (by rw [message]; exact quietAfter.reading) holds inside unfinished
    (plain next (by rw [split]; simp)) inLine inRest checked
  exact ⟨done, next, left, rest, _, ring', split, whole, received.trans stopped, capacity,
    ⟨holds, inside, unfinished, rfl, read⟩, message⟩

/-- A chunk that completes the head: its last line is parsed with `rest` left unread. -/
theorem receive_last (parser : HttpParser) (ring : HttpBuffer) (pos : Nat)
    (line part chunk last rest : List UInt8) (lines calm : List (List UInt8))
    (waiting : Waiting parser ring junk pos line part) (shape : line :: lines = calm ++ [last])
    (quiet : Calm parser.message calm) (plain : ∀ other ∈ line :: lines, Plain other)
    (whole : part ++ chunk = encodeLines (line :: lines) ++ rest)
    (fits : pos + part.length + chunk.length < ring.capacity) :
    ∃ fuel done next, next.capacity = ring.capacity ∧
      Holds next junk (pos + (encodeLines (line :: lines)).length) rest ∧
      done.message = (absorb (absorbAll parser.message calm) last).2 ∧
      done.checkedIdx = pos + (encodeLines (line :: lines)).length ∧
      done.readIdx = pos + (encodeLines (line :: lines)).length + rest.length ∧
      receive parser ring chunk =
        if (absorb (absorbAll parser.message calm) last).1 = .noRequest then
          HttpParser.processLoop (fuel + 1) .ok done next
        else .ok ((absorb (absorbAll parser.message calm) last).1, done, next) := by
  have ended : encodeLines (line :: lines) = encodeLines calm ++ (last ++ [13, 10]) := by
    rw [shape, encodeLines_append, encodeLines_cons]
    rfl
  have behind : part ++ chunk = encodeLines calm ++ (last ++ 13 :: 10 :: rest) := by
    rw [whole, ended]
    simp
  obtain ⟨fuel, status, parser', ring', scanned, received, capacity, holds, message, read, checked,
    within, _⟩ := receive_calm parser ring pos line part chunk last _ lines calm [] waiting shape
      quiet plain behind fits
  have lastPlain := plain last (by rw [shape]; simp)
  have reading : parser'.message.checkState ≠ .content := by
    rw [message]
    exact (Calm.split _ calm [] (by simpa using quiet)).2
  obtain ⟨next, capacity', moved, passed⟩ := processLoop_line ring' junk
    (pos + (encodeLines calm).length) (fuel + 1) scanned status parser' last rest reading holds
    lastPlain.1 lastPlain.2 within checked
  have size : pos + (encodeLines calm).length + last.length + 2 =
      pos + (encodeLines (line :: lines)).length := by
    rw [ended]
    simp only [List.length_append, List.length_cons, List.length_nil]
    omega
  rw [size] at moved passed
  rw [message] at passed
  refine ⟨fuel, { parser' with
      checkedIdx := pos + (encodeLines (line :: lines)).length,
      startLine := pos + (encodeLines (line :: lines)).length,
      message := (absorb (absorbAll parser.message calm) last).2 }, next,
    capacity'.trans capacity, moved, rfl, rfl, ?_, received.trans passed⟩
  refine read.trans ?_
  simp only [List.length_append, List.length_cons]
  omega

end

end OtaMqtt.Http.ParserRuns
