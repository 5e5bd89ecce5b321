import OtaMqtt.Http.BodyText
import OtaMqtt.Http.LineScan

/-! Where `parse_content` writes its NUL, over every delivery of every byte stream.

The `while` of `process_read` is cut at its two decisions, so that the state in which
`parse_content` is about to run is a state of the machine. -/

namespace OtaMqtt.Http.BodyBounds

open OtaMqtt.Lib.Execution OtaMqtt.Lib.CText OtaMqtt.Lib.Trace
open OtaMqtt.Http.Buffer OtaMqtt.Http.Parser OtaMqtt.Http.Parser.HttpParser
open OtaMqtt.Http.BodyText
open OtaMqtt.Http.LineScan (scanLine_frames Frames)

/-- Where `process_read` stands: between two chunks, before the condition of its `while`, or
in its body. -/
inductive Phase where
  | resting
  | testing (status : LineStatus)
  | taking
  deriving DecidableEq

structure State where
  phase : Phase
  parser : HttpParser
  ring : HttpBuffer

inductive Move where
  | receive (chunk : List UInt8)
  | test
  | take

def State.fresh (capacity bufferSize : Nat) (junk : Nat → UInt8) : State :=
  ⟨.resting, HttpParser.fresh bufferSize, HttpBuffer.fresh capacity junk⟩

def arrive (parser : HttpParser) (ring : HttpBuffer) (chunk : List UInt8) : Run State := do
  let (_, ring) ← ring.write (fun index => chunk.getD index 0) chunk.length
  let parser ← parser.updateBufferSize chunk.length
  .ok ⟨.testing .ok, parser, ring⟩

def test (status : LineStatus) (parser : HttpParser) (ring : HttpBuffer) : Run State := do
  let (status, parser, ring) ← nextStatus status parser ring
  .ok ⟨if status ≠ .ok then .resting else .taking, parser, ring⟩

def take (parser : HttpParser) (ring : HttpBuffer) : Run State := do
  let content := parser.message.checkState = .content
  let (data, ring) ← parser.takeText ring
  let (code, parser) ← parser.parseText data
  .ok ⟨if code = .noRequest then .testing (if content then .open else .ok) else .resting, parser, ring⟩

def step (state : State) : Move → Option State
  | .receive chunk =>
      if state.phase = .resting then (arrive state.parser state.ring chunk).toOption else none
  | .test =>
      match state.phase with
      | .testing status => (test status state.parser state.ring).toOption
      | _ => none
  | .take => if state.phase = .taking then (take state.parser state.ring).toOption else none

theorem toOption_eq_some {α : Type} (outcome : Run α) (value : α) :
    outcome.toOption = some value ↔ outcome = .ok value := by
  cases outcome <;> simp [Except.toOption]

theorem arrive_cases (parser : HttpParser) (ring : HttpBuffer) (chunk : List UInt8) (next : State)
    (arrived : arrive parser ring chunk = .ok next) :
    ∃ accepted written,
      ring.write (fun index => chunk.getD index 0) chunk.length = .ok (accepted, written) ∧
        next = ⟨.testing .ok, { parser with readIdx := parser.readIdx + chunk.length }, written⟩ := by
  rw [arrive, bind_eq_ok] at arrived
  obtain ⟨⟨accepted, written⟩, wrote, arrived⟩ := arrived
  simp only [updateBufferSize, bind_eq_ok] at arrived
  obtain ⟨counter, ⟨readIdx, stored, moved⟩, done⟩ := arrived
  rw [toInt] at stored
  split at stored
  · cases stored
    cases moved
    cases done
    exact ⟨accepted, written, wrote, rfl⟩
  · cases stored

theorem test_frames (status : LineStatus) (parser : HttpParser) (ring : HttpBuffer) (next : State)
    (tested : test status parser ring = .ok next) : Frames parser next.parser ring next.ring := by
  rw [test, bind_eq_ok] at tested
  obtain ⟨⟨decision, scanner, scanned⟩, decided, done⟩ := tested
  cases done
  rw [nextStatus] at decided
  split at decided
  · cases decided
    exact .refl _ _
  · exact scanLine_frames _ _ _ _ _ _ _ decided

theorem take_cases (parser : HttpParser) (ring : HttpBuffer) (next : State)
    (taken : take parser ring = .ok next) :
    ∃ data code, parser.takeText ring = .ok (data, next.ring) ∧
      parser.parseText data = .ok (code, next.parser) := by
  rw [take, bind_eq_ok] at taken
  obtain ⟨⟨data, left⟩, took, taken⟩ := taken
  simp only [bind_eq_ok] at taken
  obtain ⟨⟨code, reader⟩, parsed, done⟩ := taken
  cases done
  exact ⟨data, code, took, parsed⟩

/-- The machine goes through the passes of the `while` and ends where `process_read` does. -/
theorem processLoop_runs (fuel : Nat) (status : LineStatus) (parser parser' : HttpParser)
    (ring ring' : HttpBuffer) (code : HttpCode)
    (processed : processLoop fuel status parser ring = .ok (code, parser', ring')) :
    ∃ moves, run step ⟨.testing status, parser, ring⟩ moves = some ⟨.resting, parser', ring'⟩ := by
  induction fuel generalizing status parser ring with
  | zero => cases processed
  | succ fuel ih =>
      rw [processLoop, bind_eq_ok] at processed
      obtain ⟨⟨tested, scanner, scanned⟩, decided, processed⟩ := processed
      have first : step ⟨.testing status, parser, ring⟩ .test =
          some ⟨if tested ≠ .ok then .resting else .taking, scanner, scanned⟩ := by
        simp only [step, test, decided, ok_bind, Except.toOption]
      simp only at processed
      split at processed
      · rename_i open'
        cases processed
        refine ⟨[.test], ?_⟩
        rw [run_cons, first, if_pos open']
        rfl
      · rename_i whole
        rw [if_neg whole] at first
        rw [bind_eq_ok] at processed
        obtain ⟨⟨data, left⟩, took, processed⟩ := processed
        simp only at processed
        rw [bind_eq_ok] at processed
        obtain ⟨⟨answer, reader⟩, parsed, processed⟩ := processed
        simp only at processed
        have second : step ⟨.taking, scanner, scanned⟩ .take =
            some ⟨if answer = .noRequest then
              .testing (if scanner.message.checkState = .content then .open else .ok)
              else .resting, reader, left⟩ := by
          simp only [step, if_true, take, took, parsed, ok_bind, Except.toOption]
        split at processed
        · rename_i more
          obtain ⟨moves, ran⟩ := ih _ _ _ processed
          rw [if_pos more] at second
          refine ⟨.test :: .take :: moves, ?_⟩
          rw [run_cons, first, Option.bind_some, run_cons, second, Option.bind_some, ran]
        · rename_i answered
          cases processed
          rw [if_neg answered] at second
          refine ⟨[.test, .take], ?_⟩
          rw [run_cons, first, Option.bind_some, run_cons, second, Option.bind_some]
          rfl

theorem receive_runs (parser parser' : HttpParser) (ring ring' : HttpBuffer) (chunk : List UInt8)
    (code : HttpCode) (received : receive parser ring chunk = .ok (code, parser', ring')) :
    ∃ moves, run step ⟨.resting, parser, ring⟩ (.receive chunk :: moves) =
      some ⟨.resting, parser', ring'⟩ := by
  rw [receive, bind_eq_ok] at received
  obtain ⟨⟨accepted, written⟩, wrote, received⟩ := received
  simp only at received
  rw [bind_eq_ok] at received
  obtain ⟨counted, updated, processed⟩ := received
  obtain ⟨moves, ran⟩ := processLoop_runs _ _ _ _ _ _ _ processed
  refine ⟨moves, ?_⟩
  have first : step ⟨.resting, parser, ring⟩ (.receive chunk) = some ⟨.testing .ok, counted, written⟩ := by
    simp only [step, if_true, arrive, wrote, updated, ok_bind, Except.toOption]
  rw [run_cons, first, Option.bind_some, ran]

/-- What `parse_content` compares with `m_read_idx`. -/
def needed (parser : HttpParser) : Int := parser.message.contentLength + parser.checkedIdx

/-- The sum is an `int`, and the NUL is written into the text: its last byte is the
terminator, so it has one byte less of body. -/
structure InBounds (parser : HttpParser) (text : List UInt8) : Prop where
  compared : -2 ^ 31 ≤ needed parser ∧ needed parser < 2 ^ 31
  written : needed parser ≤ parser.readIdx →
    0 ≤ parser.message.contentLength ∧ parser.message.contentLength ≤ (text.length : Int) - 1

/-- `parse_content` is about to run on `text`. -/
def Entered (state : State) (text : List UInt8) : Prop :=
  state.phase = .taking ∧ state.parser.message.checkState = .content ∧
    ∃ rest, state.parser.takeText state.ring = .ok (text, rest)

/-- As many bytes as announced lie between `m_start_idx` and the first NUL or `m_end_idx`. -/
def Covered (parser : HttpParser) (ring : HttpBuffer) : Prop :=
  needed parser < 2 ^ 31 ∧ (needed parser ≤ parser.readIdx →
    0 ≤ parser.message.contentLength ∧
      ∀ count : Nat, (count : Int) < parser.message.contentLength → Inside ring (walk ring count))

theorem cstring_set_ok (text : List UInt8) (index : Nat) (inside : index < text.length) :
    ∃ body, cstring (text.set index 0) = .ok body := by
  have zero : (0 : UInt8) ∈ text.set index 0 := List.mem_set inside 0
  rw [cstring, if_pos zero]
  exact ⟨_, rfl⟩

/-- The bounds are exactly what keeps `parse_content` within defined behaviour. -/
theorem parseContent_ok_iff (parser : HttpParser) (text : List UInt8) :
    (∃ outcome, parser.parseContent text = .ok outcome) ↔ InBounds parser text := by
  have sum : parser.message.contentLength + (parser.checkedIdx : Int) = needed parser := rfl
  simp only [parseContent, sum]
  by_cases overflow : 2 ^ 31 ≤ needed parser ∨ needed parser < -2 ^ 31
  · rw [if_pos overflow]
    constructor
    · rintro ⟨outcome, returned⟩
      cases returned
    · intro bounds
      have compared := bounds.compared
      omega
  · rw [if_neg overflow]
    by_cases arrived : needed parser ≤ parser.readIdx
    · rw [if_pos arrived]
      by_cases inside : 0 ≤ parser.message.contentLength ∧ parser.message.contentLength < text.length
      · obtain ⟨body, ended⟩ := cstring_set_ok text parser.message.contentLength.toNat (by omega)
        rw [if_pos inside, ended, ok_bind]
        exact ⟨fun _ => ⟨by omega, fun _ => by omega⟩, fun _ => ⟨_, rfl⟩⟩
      · rw [if_neg inside]
        constructor
        · rintro ⟨outcome, returned⟩
          cases returned
        · intro bounds
          have written := bounds.written arrived
          omega
    · rw [if_neg arrived]
      exact ⟨fun _ => ⟨by omega, fun enough => absurd enough arrived⟩, fun _ => ⟨_, rfl⟩⟩

/-- `m_content_length` is an `int`. -/
def Representable (state : State) : Prop := -2 ^ 31 ≤ state.parser.message.contentLength

theorem parseRequestLine_contentLength (message : Message) (text : List UInt8) :
    (message.parseRequestLine text).2.contentLength = message.contentLength := by
  simp only [Message.parseRequestLine]
  repeat' split
  all_goals rfl

theorem parseHeaders_contentLength (message : Message) (text : List UInt8)
    (least : -2 ^ 31 ≤ message.contentLength) :
    -2 ^ 31 ≤ (message.parseHeaders text).2.contentLength := by
  have cast (value : Int) : -2 ^ 31 ≤ Int.bmod value (2 ^ 32) := Int.le_bmod (by decide)
  rw [Message.parseHeaders]
  split
  · split <;> exact least
  split
  · exact least
  split
  · change -2 ^ 31 ≤ if _ then (0 : Int) else _
    split
    · decide
    · exact cast _
  repeat' split
  all_goals exact least

theorem parseText_contentLength (parser parser' : HttpParser) (data : List UInt8) (code : HttpCode)
    (least : -2 ^ 31 ≤ parser.message.contentLength)
    (parsed : parser.parseText data = .ok (code, parser')) :
    -2 ^ 31 ≤ parser'.message.contentLength := by
  rw [parseText, bind_eq_ok] at parsed
  obtain ⟨text, _, parsed⟩ := parsed
  simp only at parsed
  split at parsed
  · cases parsed
    rw [parseRequestLine_contentLength]
    exact least
  · cases parsed
    exact parseHeaders_contentLength _ _ least
  · rw [parseContent] at parsed
    split at parsed
    · cases parsed
    · split at parsed
      · split at parsed
        · rw [bind_eq_ok] at parsed
          obtain ⟨body, _, done⟩ := parsed
          cases done
          exact least
        · cases parsed
      · cases parsed
        exact least

theorem representable_step (state : State) (move : Move) (next : State)
    (least : Representable state) (taken : step state move = some next) : Representable next := by
  cases move with
  | receive chunk =>
      simp only [step] at taken
      split at taken
      · rw [toOption_eq_some] at taken
        obtain ⟨_, _, _, rfl⟩ := arrive_cases _ _ _ _ taken
        exact least
      · cases taken
  | test =>
      simp only [step] at taken
      split at taken
      · rw [toOption_eq_some] at taken
        obtain ⟨checkedIdx, bytes, scanned, _, _⟩ := test_frames _ _ _ _ taken
        rw [Representable, scanned]
        exact least
      · cases taken
  | take =>
      simp only [step] at taken
      split at taken
      · rw [toOption_eq_some] at taken
        obtain ⟨_, _, _, parsed⟩ := take_cases _ _ _ taken
        exact parseText_contentLength _ _ _ _ least parsed
      · cases taken

/-- Over every run, whenever `parse_content` is entered, its sum and its write are in bounds
exactly when the announced bytes are in the ring, before the first NUL. -/
theorem body_in_bounds_iff_covered (capacity bufferSize : Nat) (junk : Nat → UInt8)
    (moves : List Move) (state : State) (text : List UInt8)
    (reached : run step (State.fresh capacity bufferSize junk) moves = some state)
    (entered : Entered state text) :
    InBounds state.parser text ↔ Covered state.parser state.ring := by
  have start : Representable (State.fresh capacity bufferSize junk) := by
    change (-2 ^ 31 : Int) ≤ 0
    decide
  have least := run_preserves representable_step moves _ state start reached
  obtain ⟨_, content, rest, took⟩ := entered
  rw [takeText, if_pos content] at took
  obtain ⟨size, length, goesOn, stops, _⟩ := readByZero_cases state.ring rest text took
  have covers : 0 ≤ state.parser.message.contentLength →
      (state.parser.message.contentLength ≤ (text.length : Int) - 1 ↔
        ∀ count : Nat, (count : Int) < state.parser.message.contentLength →
          Inside state.ring (walk state.ring count)) := by
    intro positive
    constructor
    · intro fits count below
      exact goesOn count (by omega)
    · intro all
      by_contra longer
      exact stops (all size (by omega))
  rw [Representable] at least
  have sum : needed state.parser = state.parser.message.contentLength + state.parser.checkedIdx := rfl
  constructor
  · intro bounds
    refine ⟨bounds.compared.2, fun arrived => ?_⟩
    obtain ⟨positive, fits⟩ := bounds.written arrived
    exact ⟨positive, (covers positive).mp fits⟩
  · intro covered
    refine ⟨⟨by omega, covered.1⟩, fun arrived => ?_⟩
    obtain ⟨positive, all⟩ := covered.2 arrived
    exact ⟨positive, (covers positive).mpr all⟩

/-- A request with a two-byte body and the given length field, up to its `parse_content`. -/
def upToBody (length : String) : List Move :=
  [.receive (ascii ("POST / HTTP/1.1\r\nContent-Length: " ++ length ++ "\r\n\r\nok")),
    .test, .take, .test, .take, .test, .take, .test]

structure Glimpse where
  phase : Phase
  checkState : CheckState
  contentLength : Int
  needed : Int
  readIdx : Nat
  text : Option (List UInt8)
  inside : Bool
  deriving DecidableEq

def State.glimpse (state : State) : Glimpse where
  phase := state.phase
  checkState := state.parser.message.checkState
  contentLength := state.parser.message.contentLength
  needed := needed state.parser
  readIdx := state.parser.readIdx
  text := (state.parser.takeText state.ring).toOption.map Prod.fst
  inside := (List.range 2).all fun count =>
    decide (walk state.ring count ≠ state.ring.endIdx ∧ state.ring.buffer (walk state.ring count) ≠ 0)

theorem glimpse_entered (state : State) (text : List UInt8) (phase : state.glimpse.phase = .taking)
    (content : state.glimpse.checkState = .content) (took : state.glimpse.text = some text) :
    Entered state text := by
  obtain ⟨⟨_, rest⟩, returned, rfl⟩ := Option.map_eq_some_iff.mp took
  exact ⟨phase, content, rest, (toOption_eq_some _ _).mp returned⟩

theorem announced_body_in_bounds : ∃ state text,
    run step (State.fresh 64 64 fun _ => 0) (upToBody "2") = some state ∧ Entered state text ∧
      InBounds state.parser text := by
  have seen : (run step (State.fresh 64 64 fun _ => 0) (upToBody "2")).map State.glimpse =
      some ⟨.taking, .content, 2, 40, 40, some [111, 107, 0], true⟩ := by decide +kernel
  obtain ⟨state, reached, view⟩ := Option.map_eq_some_iff.mp seen
  have entered := glimpse_entered state [111, 107, 0] (by rw [view]) (by rw [view]) (by rw [view])
  refine ⟨state, _, reached, entered, ?_⟩
  apply (body_in_bounds_iff_covered 64 64 _ _ state _ reached entered).mpr
  have sum : needed state.parser = 40 := congrArg Glimpse.needed view
  have length : state.parser.message.contentLength = 2 := congrArg Glimpse.contentLength view
  have inside := congrArg Glimpse.inside view
  refine ⟨by omega, fun _ => ⟨by omega, fun count below => ?_⟩⟩
  have member := List.all_eq_true.mp inside count (List.mem_range.mpr (by omega))
  simpa only [Inside, decide_eq_true_eq] using member

/-- `Content-Length: -1` passes the comparison and the NUL goes to `text[-1]`. -/
theorem negative_length_out_of_bounds :
    ¬ ∀ (capacity bufferSize : Nat) (junk : Nat → UInt8) (moves : List Move) (state : State)
      (text : List UInt8), run step (State.fresh capacity bufferSize junk) moves = some state →
      Entered state text → InBounds state.parser text := by
  intro always_inside
  have seen : (run step (State.fresh 64 64 fun _ => 0) (upToBody "-1")).map State.glimpse =
      some ⟨.taking, .content, -1, 38, 41, some [111, 107, 0], true⟩ := by decide +kernel
  obtain ⟨state, reached, view⟩ := Option.map_eq_some_iff.mp seen
  have entered := glimpse_entered state [111, 107, 0] (by rw [view]) (by rw [view]) (by rw [view])
  have sum : needed state.parser = 38 := congrArg Glimpse.needed view
  have read : state.parser.readIdx = 41 := congrArg Glimpse.readIdx view
  have length : state.parser.message.contentLength = -1 := congrArg Glimpse.contentLength view
  have written := (always_inside 64 64 _ _ state _ reached entered).written (by omega)
  omega

end OtaMqtt.Http.BodyBounds
