import OtaMqtt.Http.ParserRuns
import OtaMqtt.Http.ParserSpent
import OtaMqtt.Lib.Refinement

/-! The parser's reports on a request that the transport cuts into chunks. -/

namespace OtaMqtt.Http.Segments

open OtaMqtt.Lib.Execution OtaMqtt.Lib.CText OtaMqtt.Lib.Refinement
open OtaMqtt.Http.Buffer OtaMqtt.Http.Parser OtaMqtt.Http.ParserLines OtaMqtt.Http.Requests
open OtaMqtt.Http.ParserRuns OtaMqtt.Http.ParserSpent

/-- What the session can ask the parser for after a call of `process_read`. -/
structure Report where
  code : HttpCode
  method : HttpMethod
  uri : List UInt8
  body : List UInt8
  deriving DecidableEq

def report (code : HttpCode) (message : Message) : Report :=
  ⟨code, message.method, message.uri, message.requestBody⟩

abbrev Connection := HttpParser × HttpBuffer

def opened (capacity : Nat) (junk : Nat → UInt8) : Connection :=
  (HttpParser.fresh capacity, HttpBuffer.fresh capacity junk)

def deliver (connection : Connection) (chunk : List UInt8) : Run (Report × Connection) := do
  let (code, parser, ring) ← receive connection.1 connection.2 chunk
  .ok (report code parser.message, parser, ring)

def reports (capacity : Nat) (junk : Nat → UInt8) (chunks : List (List UInt8)) : Run (List Report) :=
  answers deliver (opened capacity junk) chunks

/-- The chunks are reported as the request in one piece is, with nothing before. -/
def Unnoticed (capacity : Nat) (junk : Nat → UInt8) (request : Request)
    (chunks : List (List UInt8)) : Prop :=
  ∃ earlier last, reports capacity junk [request.encode] = .ok [last] ∧
    reports capacity junk chunks = .ok (earlier ++ [last]) ∧
    ∀ answer ∈ earlier, answer.code = .noRequest

/-- Every cut comes before the parser's answer to the head is fixed. -/
def CutBefore (limit : Nat) (chunks : List (List UInt8)) : Prop :=
  ∀ front back, chunks = front ++ back → front ≠ [] → back ≠ [] → front.flatten.length < limit

def answer (request : Request) : Report :=
  if request.verdict.1 = .noRequest then
    report .getRequest { request.verdict.2 with requestBody := request.body }
  else report request.verdict.1 request.verdict.2

theorem token_plain (word : List UInt8) (token : Token word) : Plain word := by
  refine ⟨fun byte member => ?_, fun member => token.2 0 member (by decide)⟩
  have ordinary := token.2 byte member
  constructor <;> rintro rfl <;> exact ordinary (by decide)

theorem lines_plain (request : Request) (formed : Shaped request) :
    ∀ line ∈ request.lines, Plain line := by
  have verb := token_plain _ formed.verb
  have uri := token_plain _ formed.uri
  have version := token_plain _ formed.version
  have first : Plain request.requestLine := by
    constructor
    · intro byte member
      simp only [Request.requestLine, List.mem_append, List.mem_cons] at member
      rcases member with inside | rfl | inside | rfl | inside
      · exact verb.1 byte inside
      · decide
      · exact uri.1 byte inside
      · decide
      · exact version.1 byte inside
    · simp [Request.requestLine, verb.2, uri.2, version.2]
  intro line member
  simp only [Request.lines, List.cons_append, List.mem_cons, List.mem_append, List.not_mem_nil,
    or_false] at member
  rcases member with rfl | inside | rfl
  · exact first
  · exact (formed.headers line inside).2
  · exact ⟨fun _ member => (by cases member), by simp⟩

theorem concat_split {α : Type} (done left calm : List α) (line last : α)
    (same : done ++ line :: left = calm ++ [last]) :
    ∃ later, line :: left = later ++ [last] ∧ calm = done ++ later := by
  rcases List.eq_nil_or_concat (line :: left) with empty | ⟨later, final, shape⟩
  · cases empty
  · rw [List.concat_eq_append] at shape
    rw [shape, ← List.append_assoc] at same
    obtain ⟨front, back⟩ := List.append_inj' same rfl
    cases back
    exact ⟨later, shape, front.symm⟩

/-- The parser has read the lines `done` of the head and `part` of the next one. -/
structure Reading (request : Request) (capacity : Nat) (junk : Nat → UInt8)
    (connection : Connection) (received : List UInt8) (done : List (List UInt8))
    (line : List UInt8) (left : List (List UInt8)) (part : List UInt8) : Prop where
  lines : request.deciding = done ++ line :: left
  bytes : received = encodeLines done ++ part
  waiting : Waiting connection.1 connection.2 junk (encodeLines done).length line part
  message : connection.1.message = absorbAll Message.fresh done
  capacity : connection.2.capacity = capacity

section
variable {request : Request} {capacity : Nat} {junk : Nat → UInt8}
  {connection : Connection} {received : List UInt8} {done : List (List UInt8)}
  {line : List UInt8} {left : List (List UInt8)} {part : List UInt8}

theorem opened_reading (positive : 0 < capacity) (bound : capacity < 2 ^ 31) :
    Reading request capacity junk (opened capacity junk) [] [] request.requestLine
      (if request.supported then decidingHeaders request.headers else []) [] where
  lines := rfl
  bytes := rfl
  waiting := by
    refine ⟨fresh_holds capacity junk positive bound, List.nil_prefix, ?_, ?_, rfl⟩
    · simp
    · simp [opened, HttpParser.fresh, encodeLines]
  message := rfl
  capacity := rfl

theorem decision_le (formed : WellFormed request) (size : request.encode.length < 2 ^ 31) :
    encodeLines request.deciding <+: request.encode := by
  have bound : request.body.length < 2 ^ 31 := by
    rw [Request.encode, List.length_append] at size
    omega
  obtain ⟨_, _, after, _, split, _⟩ := deciding_outcome request formed bound
  refine ⟨encodeLines after ++ request.body, ?_⟩
  rw [Request.encode, split, encodeLines_append, List.append_assoc]

/-- The lines that are still to come: all but the last are taken in silently. -/
theorem Reading.ahead (formed : WellFormed request) (fits : request.encode.length < capacity)
    (bound : capacity < 2 ^ 31)
    (reading : Reading request capacity junk connection received done line left part) :
    ∃ later last, request.deciding = done ++ later ++ [last] ∧ line :: left = later ++ [last] ∧
      Calm connection.1.message later ∧ ∀ other ∈ line :: left, Plain other := by
  have size : request.body.length < 2 ^ 31 := by
    rw [Request.encode, List.length_append] at fits
    omega
  obtain ⟨calm, last, after, shape, split, quiet, _⟩ := deciding_outcome request formed size
  obtain ⟨later, tail, rfl⟩ := concat_split done left calm line last (reading.lines.symm.trans shape)
  refine ⟨later, last, shape, tail, ?_, fun other member => ?_⟩
  · rw [reading.message]
    exact (quiet.split).2
  · apply lines_plain request formed.shaped
    rw [split, reading.lines]
    exact List.mem_append_left _ (List.mem_append_right _ member)

theorem deliver_open (formed : WellFormed request) (fits : request.encode.length < capacity)
    (bound : capacity < 2 ^ 31)
    (reading : Reading request capacity junk connection received done line left part)
    (chunk : List UInt8) (begun : received ++ chunk <+: request.encode)
    (early : (received ++ chunk).length < request.decision) :
    ∃ answer next done line left part, deliver connection chunk = .ok (answer, next) ∧
      answer.code = .noRequest ∧
      Reading request capacity junk next (received ++ chunk) done line left part := by
  obtain ⟨later, last, shape, tail, quiet, plain⟩ := reading.ahead formed fits bound
  have total := begun.length_le
  rw [reading.bytes] at begun early total
  have inside : part ++ chunk <+: encodeLines (line :: left) := by
    have front := List.prefix_of_prefix_length_le begun (decision_le formed (by omega))
      (Nat.le_of_lt early)
    rw [reading.lines, encodeLines_append, List.append_assoc, List.prefix_append_right_inj] at front
    exact front
  have short : (part ++ chunk).length < (encodeLines (line :: left)).length := by
    rw [Request.decision, reading.lines, encodeLines_append] at early
    simp only [List.length_append] at early ⊢
    omega
  simp only [List.length_append] at total
  obtain ⟨read, next, rest, part', parser', ring', again, whole, received', capacity', waiting,
      message⟩ :=
    receive_open connection.1 connection.2 (encodeLines done).length line part chunk last left later
      reading.waiting tail quiet plain inside short
      (by rw [reading.capacity]; omega)
  refine ⟨report .noRequest parser'.message, (parser', ring'), done ++ read, next, rest, part', ?_,
    rfl, ?_, ?_, ?_, ?_, capacity'.trans reading.capacity⟩
  · rw [deliver, received']
    rfl
  · rw [reading.lines, again, List.append_assoc]
  · rw [reading.bytes, encodeLines_append, List.append_assoc, List.append_assoc, whole]
  · rw [encodeLines_append, List.length_append]
    exact waiting
  · rw [message, reading.message]
    simp [absorbAll]

/-- A chunk that reaches the decision: the last line of the head is parsed. -/
theorem deliver_last (formed : WellFormed request) (fits : request.encode.length < capacity)
    (bound : capacity < 2 ^ 31)
    (reading : Reading request capacity junk connection received done line left part)
    (chunk rest : List UInt8) (begun : received ++ chunk <+: request.encode)
    (whole : received ++ chunk = encodeLines request.deciding ++ rest) :
    ∃ fuel parser ring, Holds ring junk request.decision rest ∧
      parser.message = request.verdict.2 ∧ parser.checkedIdx = request.decision ∧
      parser.readIdx = request.decision + rest.length ∧
      receive connection.1 connection.2 chunk =
        if request.verdict.1 = .noRequest then
          HttpParser.processLoop (fuel + 1) .ok parser ring
        else .ok (request.verdict.1, parser, ring) := by
  obtain ⟨later, last, shape, tail, quiet, plain⟩ := reading.ahead formed fits bound
  have total := begun.length_le
  rw [reading.bytes] at whole total
  simp only [List.length_append] at total
  have filled : part ++ chunk = encodeLines (line :: left) ++ rest := by
    rw [reading.lines, encodeLines_append, List.append_assoc, List.append_assoc,
      List.append_cancel_left_eq] at whole
    exact whole
  have verdict : absorb (absorbAll connection.1.message later) last = request.verdict := by
    rw [Request.verdict, shape, List.dropLast_concat, List.getLastD_concat, reading.message]
    simp [absorbAll]
  have decision : (encodeLines done).length + (encodeLines (line :: left)).length =
      request.decision := by
    rw [Request.decision, reading.lines, encodeLines_append, List.length_append]
  obtain ⟨fuel, parser, ring, _, holds, message, checked, read, received'⟩ :=
    receive_last connection.1 connection.2 (encodeLines done).length line part chunk last rest left
      later reading.waiting tail quiet plain filled
      (by rw [reading.capacity]; omega)
  rw [verdict] at message received'
  rw [decision] at holds checked read
  exact ⟨fuel, parser, ring, holds, message, checked, read, received'⟩

theorem deliver_whole (formed : WellFormed request) (fits : request.encode.length < capacity)
    (bound : capacity < 2 ^ 31)
    (reading : Reading request capacity junk connection received done line left part)
    (chunk : List UInt8) (whole : received ++ chunk = request.encode) :
    ∃ next, deliver connection chunk = .ok (answer request, next) := by
  have size : request.body.length < 2 ^ 31 := by
    rw [Request.encode, List.length_append] at fits
    omega
  obtain ⟨_, _, after, _, split, _, outcome⟩ := deciding_outcome request formed size
  have encoded : request.encode = encodeLines request.deciding ++ (encodeLines after ++ request.body) := by
    rw [Request.encode, split, encodeLines_append, List.append_assoc]
  obtain ⟨fuel, parser, ring, holds, message, checked, read, received'⟩ :=
    deliver_last formed fits bound reading chunk _ (by rw [whole]) (whole.trans encoded)
  unfold deliver answer
  rcases outcome with settled | ⟨rfl, _, more, content, length⟩
  · rw [received', if_neg settled, if_neg settled, ← message]
    exact ⟨_, rfl⟩
  · have body : encodeLines [] ++ request.body = request.body := rfl
    rw [body] at holds read
    rw [← message] at content length
    have finished := processLoop_body ring junk request.decision fuel parser request.body content holds
      formed.body checked length (Nat.le_of_eq read.symm)
    rw [received', if_pos more, if_pos more, finished, ← message]
    exact ⟨_, rfl⟩

/-- A chunk that ends inside an announced body, over memory that was zero: a fault, or
silence and a spent ring. -/
theorem deliver_part (formed : WellFormed request) (fits : request.encode.length < capacity)
    (bound : capacity < 2 ^ 31)
    (reading : Reading request capacity (fun _ => 0) connection received done line left part)
    (chunk : List UInt8) (begun : received ++ chunk <+: request.encode)
    (late : request.decision ≤ (received ++ chunk).length)
    (short : (received ++ chunk).length < request.encode.length) (more : request.verdict.1 = .noRequest)
    (answer : Report) (next : Connection) (outcome : deliver connection chunk = .ok (answer, next)) :
    answer.code = .noRequest ∧ next.1.message.checkState = .content ∧
      1 ≤ next.1.message.contentLength ∧ Spent next.2 ∧ next.2.endIdx < next.2.startIdx := by
  have size : request.body.length < 2 ^ 31 := by
    rw [Request.encode, List.length_append] at fits
    omega
  obtain ⟨_, _, after, _, split, _, fate⟩ := deciding_outcome request formed size
  rcases fate with settled | ⟨rfl, nonempty, _, content, length⟩
  · exact absurd more settled
  · rw [List.append_nil] at split
    have encoded : request.encode = encodeLines request.deciding ++ request.body := by
      rw [Request.encode, split]
    obtain ⟨rest, whole⟩ := List.prefix_of_prefix_length_le (decision_le formed (by omega)) begun late
    rw [← whole, encoded, List.length_append, List.length_append] at short
    have inside : rest <+: request.body := by
      rw [← whole, encoded, List.prefix_append_right_inj] at begun
      exact begun
    have clean : 0 ∉ rest := fun member => formed.body (inside.mem member)
    obtain ⟨fuel, parser, ring, holds, message, _, _, received'⟩ :=
      deliver_last formed fits bound reading chunk rest begun whole.symm
    rw [← message] at content length
    rw [if_pos more] at received'
    rw [deliver, received'] at outcome
    obtain ⟨⟨code, parser', ring'⟩, ran, outcome⟩ := (bind_eq_ok _ _ _).mp outcome
    cases outcome
    obtain ⟨silent, kept, spent, strict⟩ := processLoop_part ring ring' request.decision fuel parser
      parser' rest code content holds clean (by omega) ran
    have positive := List.length_pos_iff.mpr nonempty
    exact ⟨silent, by rw [kept]; exact content, by rw [kept, length]; omega, spent, strict⟩

end

theorem spent_answers (chunks : List (List UInt8)) (connection : Connection) (replies : List Report)
    (content : connection.1.message.checkState = .content)
    (length : 1 ≤ connection.1.message.contentLength) (spent : Spent connection.2)
    (strict : connection.2.endIdx < connection.2.startIdx)
    (replied : answers deliver connection chunks = .ok replies) :
    ∀ reply ∈ replies, reply.code = .noRequest := by
  induction chunks generalizing connection replies with
  | nil =>
      cases replied
      simp
  | cons chunk chunks ih =>
      obtain ⟨reply, next, later, delivered, rest, rfl⟩ := (answers_cons _ _ _ _ _).mp replied
      obtain ⟨⟨code, parser, ring⟩, ran, outcome⟩ := (bind_eq_ok _ _ _).mp delivered
      cases outcome
      obtain ⟨silent, kept, spent', strict'⟩ := receive_spent connection.1 parser connection.2 ring
        chunk code spent strict content length ran
      have further := ih (parser, ring) later (by rw [kept]; exact content)
        (by rw [kept]; exact length) spent' strict' rest
      exact List.forall_mem_cons.mpr ⟨silent, further⟩

section
variable {request : Request} {capacity : Nat} {junk : Nat → UInt8}

theorem answers_of_cuts (formed : WellFormed request) (fits : request.encode.length < capacity)
    (bound : capacity < 2 ^ 31) (chunks : List (List UInt8)) (connection : Connection)
    (received : List UInt8) (done : List (List UInt8)) (line : List UInt8)
    (left : List (List UInt8)) (part : List UInt8)
    (reading : Reading request capacity junk connection received done line left part)
    (whole : received ++ chunks.flatten = request.encode) (some : chunks ≠ [])
    (cuts : ∀ front back, chunks = front ++ back → front ≠ [] → back ≠ [] →
      received.length + front.flatten.length < request.decision) :
    ∃ earlier, answers deliver connection chunks = .ok (earlier ++ [answer request]) ∧
      ∀ reply ∈ earlier, reply.code = .noRequest := by
  induction chunks generalizing connection received done line left part with
  | nil => exact absurd rfl some
  | cons chunk chunks ih =>
      rw [List.flatten_cons, ← List.append_assoc] at whole
      by_cases final : chunks = []
      · subst final
        rw [List.flatten_nil, List.append_nil] at whole
        obtain ⟨next, delivered⟩ := deliver_whole formed fits bound reading chunk whole
        refine ⟨[], ?_, by simp⟩
        exact (answers_cons _ _ _ _ _).mpr ⟨_, next, [], delivered, rfl, rfl⟩
      · have early := cuts [chunk] chunks rfl (by simp) final
        rw [List.flatten_cons, List.flatten_nil, List.append_nil, ← List.length_append] at early
        obtain ⟨reply, next, done', line', left', part', delivered, silent, reading'⟩ :=
          deliver_open formed fits bound reading chunk ⟨_, whole⟩ early
        obtain ⟨earlier, replied, silence⟩ := ih next (received ++ chunk) done' line' left' part'
          reading' whole final (by
            intro front back split nonempty some'
            have cut := cuts (chunk :: front) back (by rw [split]; rfl) (by simp) some'
            rw [List.flatten_cons, List.length_append] at cut
            rw [List.length_append]
            omega)
        exact ⟨reply :: earlier, (answers_cons _ _ _ _ _).mpr ⟨reply, next, _, delivered, replied, rfl⟩,
          List.forall_mem_cons.mpr ⟨silent, silence⟩⟩

theorem late_unanswered (formed : WellFormed request) (fits : request.encode.length < capacity)
    (bound : capacity < 2 ^ 31)
    (reading : Reading request capacity (fun _ => 0) connection received done line left part)
    (chunk : List UInt8) (begun : received ++ chunk <+: request.encode)
    (late : request.decision ≤ (received ++ chunk).length)
    (short : (received ++ chunk).length < request.encode.length) {reply : Report} {next : Connection}
    (delivered : deliver connection chunk = .ok (reply, next)) (silent : reply.code = .noRequest)
    (chunks : List (List UInt8)) (earlier : List Report) :
    answers deliver next chunks ≠ .ok (earlier ++ [answer request]) := by
  intro rest
  by_cases more : request.verdict.1 = .noRequest
  · obtain ⟨_, content, length, spent, strict⟩ :=
      deliver_part formed fits bound reading chunk begun late short more reply next delivered
    have last := spent_answers _ next _ content length spent strict rest (answer request) (by simp)
    rw [answer, if_pos more] at last
    cases last
  · obtain ⟨tail, shape⟩ := List.prefix_of_prefix_length_le (decision_le formed (by omega)) begun late
    obtain ⟨fuel, parser, ring, _, _, _, _, received'⟩ :=
      deliver_last formed fits bound reading chunk tail begun shape.symm
    rw [if_neg more] at received'
    rw [deliver, received'] at delivered
    cases delivered
    exact more silent

theorem cuts_of_answers (formed : WellFormed request) (fits : request.encode.length < capacity)
    (bound : capacity < 2 ^ 31) (chunks : List (List UInt8)) (connection : Connection)
    (received : List UInt8) (done : List (List UInt8)) (line : List UInt8)
    (left : List (List UInt8)) (part : List UInt8)
    (reading : Reading request capacity (fun _ => 0) connection received done line left part)
    (whole : received ++ chunks.flatten = request.encode) (filled : ∀ chunk ∈ chunks, chunk ≠ [])
    (earlier : List Report)
    (replied : answers deliver connection chunks = .ok (earlier ++ [answer request]))
    (silence : ∀ reply ∈ earlier, reply.code = .noRequest) (front back : List (List UInt8))
    (split : chunks = front ++ back) (before : front ≠ []) (after : back ≠ []) :
    received.length + front.flatten.length < request.decision := by
  induction chunks generalizing connection received done line left part earlier front with
  | nil =>
      obtain ⟨rfl, _⟩ := List.append_eq_nil_iff.mp split.symm
      exact absurd rfl before
  | cons chunk chunks ih =>
      obtain ⟨first, front, rfl⟩ := List.exists_cons_of_ne_nil before
      rw [List.cons_append] at split
      obtain ⟨rfl, rfl⟩ := List.cons.inj split
      rw [List.flatten_cons, ← List.append_assoc] at whole
      obtain ⟨reply, next, later, delivered, rest, same⟩ := (answers_cons _ _ _ _ _).mp replied
      have more : later ≠ [] := by
        rintro rfl
        obtain ⟨other, others, shape⟩ := List.exists_cons_of_ne_nil
          (show front ++ back ≠ [] by simp [after])
        rw [shape] at rest
        obtain ⟨_, _, _, _, _, impossible⟩ := (answers_cons _ _ _ _ _).mp rest
        cases impossible
      obtain ⟨earlier, rfl⟩ : ∃ tail, earlier = reply :: tail := by
        cases earlier with
        | nil => exact absurd (List.cons.inj same).2.symm more
        | cons head tail => exact ⟨tail, by rw [(List.cons.inj same).1]⟩
      obtain rfl : later = earlier ++ [answer request] := (List.cons.inj same).2.symm
      have silent := silence reply List.mem_cons_self
      by_cases early : (received ++ chunk).length < request.decision
      · obtain ⟨reply', next', done', line', left', part', delivered', _, reading'⟩ :=
          deliver_open formed fits bound reading chunk ⟨_, whole⟩ early
        obtain ⟨rfl, rfl⟩ := Prod.mk.inj (Except.ok.inj (delivered.symm.trans delivered'))
        rw [List.flatten_cons, List.length_append]
        rw [List.length_append] at early
        by_cases final : front = []
        · subst final
          simpa using early
        · have cut := ih next (received ++ chunk) done' line' left' part' reading' whole
            (fun other member => filled other (List.mem_cons_of_mem _ member)) earlier rest
            (fun other member => silence other (List.mem_cons_of_mem _ member)) front rfl final
          rw [List.length_append] at cut
          omega
      · have short : (received ++ chunk).length < request.encode.length := by
          obtain ⟨other, others, rfl⟩ := List.exists_cons_of_ne_nil after
          have positive := List.length_pos_iff.mpr
            (filled other (List.mem_cons_of_mem _ (List.mem_append_right _ List.mem_cons_self)))
          rw [← whole, List.length_append]
          simp only [List.flatten_append, List.flatten_cons, List.length_append]
          omega
        have late : request.decision ≤ (received ++ chunk).length := by omega
        exact absurd rest
          (late_unanswered formed fits bound reading chunk ⟨_, whole⟩ late short delivered silent _ earlier)

/-- The result of parsing does not depend on how the request was cut, exactly when no cut
comes after the line that decides about the head. -/
theorem unnoticed_iff_cut_before_decision (request : Request) (chunks : List (List UInt8))
    (capacity : Nat) (formed : WellFormed request) (fits : request.encode.length < capacity)
    (bound : capacity < 2 ^ 31) (whole : chunks.flatten = request.encode)
    (filled : ∀ chunk ∈ chunks, chunk ≠ []) :
    (∀ junk, Unnoticed capacity junk request chunks) ↔ CutBefore request.decision chunks := by
  have positive : 0 < request.encode.length := by
    simp [Request.encode, Request.lines, encodeLines_cons]
  have some : chunks ≠ [] := by
    rintro rfl
    rw [← whole] at positive
    exact Nat.lt_irrefl 0 positive
  have start (junk : Nat → UInt8) := @opened_reading request capacity junk (Nat.lt_trans positive fits) bound
  have single (junk : Nat → UInt8) : reports capacity junk [request.encode] = .ok [answer request] := by
    obtain ⟨next, delivered⟩ := deliver_whole formed fits bound (start junk) request.encode rfl
    exact (answers_cons _ _ _ _ _).mpr ⟨_, next, [], delivered, rfl, rfl⟩
  constructor
  · intro unnoticed front back split before after
    obtain ⟨earlier, last, once, replied, silence⟩ := unnoticed (fun _ => 0)
    rw [single] at once
    obtain rfl : answer request = last := by simpa using once
    have cut := cuts_of_answers formed fits bound chunks _ _ _ _ _ _ (start _) whole filled earlier
      replied silence front back split before after
    simpa using cut
  · intro cuts junk
    obtain ⟨earlier, replied, silence⟩ := answers_of_cuts formed fits bound chunks _ _ _ _ _ _
      (start junk) whole some (by simpa [CutBefore] using cuts)
    exact ⟨earlier, answer request, single junk, replied, silence⟩

end

/-- A POST of 42 bytes, 39 of them head. -/
def posted : Request :=
  ⟨ascii "POST", ascii "/a", ascii "HTTP/1.1", [ascii "Content-Length: 3"], ascii "abc"⟩

theorem posted_wellFormed : WellFormed posted where
  verb := by decide +kernel
  uri := by decide +kernel
  version := by decide +kernel
  headers := by decide +kernel
  body := by decide +kernel
  length := .inr ⟨ascii "Content-Length: 3", by decide +kernel, [32], [51], [], by decide +kernel,
    by decide +kernel, by decide +kernel, by decide +kernel, by decide +kernel, by decide +kernel⟩

theorem cutBefore_pair (limit : Nat) (first second : List UInt8) (early : first.length < limit) :
    CutBefore limit [first, second] := by
  intro front back split before after
  match front, back with
  | [], _ => exact absurd rfl before
  | _, [] => exact absurd rfl after
  | [one], [two] =>
      obtain ⟨rfl, _⟩ := List.cons.inj split
      simpa using early
  | one :: two :: front, three :: back =>
      have lengths := congrArg List.length split
      simp at lengths
  | [one], two :: three :: back =>
      have lengths := congrArg List.length split
      simp at lengths

theorem posted_cut_in_the_head_unnoticed :
    Unnoticed 64 (fun _ => 7) posted [posted.encode.take 30, posted.encode.drop 30] :=
  (unnoticed_iff_cut_before_decision posted _ 64 posted_wellFormed (by decide) (by decide) (by simp)
    (by decide)).mpr (cutBefore_pair _ _ _ (by decide)) (fun _ => 7)

/-- The body is cut after its first byte: the second call returns `NO_REQUEST`. -/
theorem posted_cut_in_the_body_noticed :
    ¬ ∀ (request : Request) (chunks : List (List UInt8)) (capacity : Nat) (junk : Nat → UInt8),
      WellFormed request → request.encode.length < capacity → chunks.flatten = request.encode →
      (∀ chunk ∈ chunks, chunk ≠ []) → Unnoticed capacity junk request chunks := by
  intro all_unnoticed
  obtain ⟨earlier, last, whole, cut, _⟩ :=
    all_unnoticed posted [posted.encode.take 40, posted.encode.drop 40] 64 (fun _ => 0) posted_wellFormed
      (by decide) (by simp) (by decide)
  have once : reports 64 (fun _ => 0) [posted.encode] =
      .ok [⟨.getRequest, .post, ascii "/a", ascii "abc"⟩] := by
    decide +kernel
  have twice : reports 64 (fun _ => 0) [posted.encode.take 40, posted.encode.drop 40] =
      .ok [⟨.noRequest, .post, ascii "/a", []⟩, ⟨.noRequest, .post, ascii "/a", []⟩] := by
    decide +kernel
  rw [once] at whole
  rw [twice] at cut
  cases whole
  have final := congrArg List.getLast? (Except.ok.inj cut)
  simp at final

end OtaMqtt.Http.Segments
