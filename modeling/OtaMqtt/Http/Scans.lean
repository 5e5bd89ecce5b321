import OtaMqtt.Http.BodyBounds
import OtaMqtt.Http.Refills

/-! Where `parse_line` leaves a connection that is among its lines.

The loop has six ways out. One inversion lemma names them, and what the indices and the line in the
making say in every state follows from it. -/

namespace OtaMqtt.Http.Scans

open OtaMqtt.Lib.Execution OtaMqtt.Lib.Trace OtaMqtt.Lib.Ring
open OtaMqtt.Http.Buffer OtaMqtt.Http.Parser OtaMqtt.Http.Parser.HttpParser
open OtaMqtt.Http.RingStates (InRange fresh_inRange write_spec landing landing_cases room occupied
  readByEnd_reads readByEnd_start advanced_slots advanced_inRange written_inRange)
open OtaMqtt.Http.LineScan
open OtaMqtt.Http.BodyBounds (toOption_eq_some arrive_cases take_cases)
open OtaMqtt.Http.LineEnds

def pre (ring : HttpBuffer) (idx : Nat) : Nat := if idx = 0 then ring.capacity - 1 else idx - 1

theorem pre_below (ring : HttpBuffer) (idx : Nat) (below : idx < ring.capacity) :
    pre ring idx < ring.capacity := by
  rw [pre]
  split <;> omega

theorem preIdx_pre (ring : HttpBuffer) (idx : Nat) (narrow : ring.slots < 2 ^ 31)
    (below : idx < ring.capacity) : ring.preIdx idx = .ok (pre ring idx) :=
  ring.preIdx_eq idx narrow (by omega)

/-- The six ways out of the loop of `parse_line`, at the slot that it has reached. -/
inductive Leaves (parser : HttpParser) (ring : HttpBuffer) (reached : Nat) :
    LineStatus → HttpParser → HttpBuffer → Prop
  | finished (here : reached = ring.endIdx) :
      Leaves parser ring reached .open { parser with checkedIdx := reached } ring
  | halfway (cr : ring.buffer reached = 13) (last : (reached + 1) % ring.capacity = ring.endIdx) :
      Leaves parser ring reached .open { parser with checkedIdx := reached } ring
  | lone (on : reached ≠ ring.endIdx) (cr : ring.buffer reached = 13)
      (more : (reached + 1) % ring.capacity ≠ ring.endIdx)
      (other : ring.buffer ((reached + 1) % ring.capacity) ≠ 10) :
      Leaves parser ring reached .bad { parser with checkedIdx := reached } ring
  | bare (on : reached ≠ ring.endIdx) (lf : ring.buffer reached = 10)
      (before : reached = ring.startIdx ∨ ring.buffer (pre ring reached) ≠ 13) :
      Leaves parser ring reached .bad { parser with checkedIdx := reached } ring
  | whole (next : HttpParser) (marked : HttpBuffer) (on : reached ≠ ring.endIdx)
      (cr : ring.buffer reached = 13) (more : (reached + 1) % ring.capacity ≠ ring.endIdx)
      (lf : ring.buffer ((reached + 1) % ring.capacity) = 10) :
      Leaves parser ring reached .ok next marked
  | late (next : HttpParser) (marked : HttpBuffer) (on : reached ≠ ring.endIdx)
      (lf : ring.buffer reached = 10) (inner : reached ≠ ring.startIdx)
      (cr : ring.buffer (pre ring reached) = 13) : Leaves parser ring reached .ok next marked

theorem Leaves.stops {parser parser' : HttpParser} {ring ring' : HttpBuffer} {reached : Nat}
    {status : LineStatus} (leaves : Leaves parser ring reached status parser' ring') :
    Stops ring reached := by
  cases leaves with
  | finished here => exact .inl here
  | halfway cr | lone _ cr | whole _ _ _ cr => exact .inr (.inl cr)
  | bare _ lf | late _ _ _ lf => exact .inr (.inr lf)

theorem scanLine_leaves (ring : HttpBuffer) (narrow : ring.slots < 2 ^ 31) (fuel : Nat)
    (parser parser' : HttpParser) (ring' : HttpBuffer) (status : LineStatus)
    (below : parser.checkedIdx < ring.capacity)
    (scanned : scanLine ring.endIdx fuel parser ring = .ok (status, parser', ring')) :
    ∃ distance,
      (∀ offset < distance, ¬ Stops ring ((parser.checkedIdx + offset) % ring.capacity)) ∧
        Leaves parser ring ((parser.checkedIdx + distance) % ring.capacity) status parser' ring' := by
  induction fuel generalizing parser with
  | zero => cases scanned
  | succ fuel ih =>
      by_cases here : Stops ring parser.checkedIdx
      · refine ⟨0, fun offset none => absurd none (Nat.not_lt_zero _), ?_⟩
        rw [Nat.add_zero, Nat.mod_eq_of_lt below]
        have inNext : (parser.checkedIdx + 1) % ring.capacity < ring.capacity := Nat.mod_lt _ (by omega)
        rw [scanLine] at scanned
        by_cases finished : parser.checkedIdx = ring.endIdx
        · rw [if_pos finished] at scanned
          cases scanned
          exact .finished finished
        rw [if_neg finished, getVal_ok ring _ below, ok_bind] at scanned
        by_cases cr : ring.buffer parser.checkedIdx = 13
        · rw [if_pos cr, nextIdx_ok ring _ below narrow, ok_bind] at scanned
          split at scanned
          · rename_i last
            cases scanned
            exact .halfway cr last
          rename_i more
          rw [getVal_ok ring _ inNext, ok_bind] at scanned
          split at scanned
          · rename_i lf
            rw [line_end_ok ring parser narrow _ _ _ below inNext inNext] at scanned
            cases scanned
            exact .whole _ _ finished cr more lf
          · rename_i other
            cases scanned
            exact .lone finished cr more other
        · have lf : ring.buffer parser.checkedIdx = 10 := (here.resolve_left finished).resolve_left cr
          have behind := pre_below ring parser.checkedIdx below
          rw [if_neg cr, if_pos lf, preIdx_pre ring _ narrow below, ok_bind] at scanned
          split at scanned
          · rename_i first
            cases scanned
            exact .bare finished lf (.inl first)
          rename_i inner
          rw [getVal_ok ring _ behind, ok_bind] at scanned
          split at scanned
          · rename_i before
            rw [line_end_ok ring parser narrow _ _ _ behind below below] at scanned
            cases scanned
            exact .late _ _ finished lf inner before
          · rename_i before
            cases scanned
            exact .bare finished lf (.inr before)
      · rw [scanLine_goes_on ring parser narrow below _ here] at scanned
        obtain ⟨distance, quiet, leaves⟩ := ih _ (Nat.mod_lt _ (by omega)) scanned
        refine ⟨distance + 1, ?_, ?_⟩
        · intro offset inside
          cases offset with
          | zero =>
              rw [Nat.add_zero, Nat.mod_eq_of_lt below]
              exact here
          | succ offset =>
              have later := quiet offset (by omega)
              rw [Nat.mod_add_mod, Nat.add_assoc, Nat.add_comm 1 offset] at later
              exact later
        · rw [Nat.mod_add_mod, Nat.add_assoc, Nat.add_comm 1 distance] at leaves
          cases leaves with
          | finished here => exact .finished here
          | halfway cr last => exact .halfway cr last
          | lone on cr more other => exact .lone on cr more other
          | bare on lf before => exact .bare on lf before
          | whole _ _ on cr more lf => exact .whole _ _ on cr more lf
          | late _ _ on lf inner cr => exact .late _ _ on lf inner cr

/-- `parse_line` rejects the byte at `m_checked_idx`. -/
def Rejected (parser : HttpParser) (ring : HttpBuffer) : Prop :=
  parser.checkedIdx ≠ ring.endIdx ∧
    ((ring.buffer parser.checkedIdx = 13 ∧ (parser.checkedIdx + 1) % ring.capacity ≠ ring.endIdx ∧
        ring.buffer ((parser.checkedIdx + 1) % ring.capacity) ≠ 10) ∨
      (ring.buffer parser.checkedIdx = 10 ∧
        (parser.checkedIdx = ring.startIdx ∨ ring.buffer (pre ring parser.checkedIdx) ≠ 13)))

theorem Rejected.parseLine {parser : HttpParser} {ring : HttpBuffer} (rejected : Rejected parser ring)
    (narrow : ring.slots < 2 ^ 31) (below : parser.checkedIdx < ring.capacity) :
    parser.parseLine ring = .ok (.bad, parser, ring) := by
  obtain ⟨on, ⟨cr, more, other⟩ | ⟨lf, before⟩⟩ := rejected
  · exact Refills.parseLine_lone narrow below on cr more other
  · have behind := pre_below ring parser.checkedIdx below
    rw [HttpParser.parseLine, scanLine, if_neg on, getVal_ok ring _ below, ok_bind, lf,
      if_neg (by decide), if_pos rfl, preIdx_pre ring _ narrow below, ok_bind]
    by_cases first : parser.checkedIdx = ring.startIdx
    · rw [if_pos first]
    · rw [if_neg first, getVal_ok ring _ behind, ok_bind, if_neg (before.resolve_left first)]

theorem tracks_arrive (capacity : Nat) (parser : HttpParser) (ring : HttpBuffer) (chunk : List UInt8)
    (next : BodyBounds.State) (tracks : Tracks capacity parser ring)
    (arrived : BodyBounds.arrive parser ring chunk = .ok next) :
    Tracks capacity next.parser next.ring := by
  obtain ⟨inside, same, line, below, counted, laps⟩ := tracks
  obtain ⟨accepted, written, wrote, rfl⟩ := arrive_cases _ _ _ _ arrived
  rcases write_spec ring inside _ chunk.length with ⟨_, refused⟩ | ⟨enough, bytes, done⟩
  · rw [refused, Except.ok.injEq, Prod.mk.injEq] at wrote
    rw [← wrote.2]
    refine ⟨inside, same, line, below, Nat.le_add_right_of_le counted, fun wrapped => ?_⟩
    exact Nat.le_add_right_of_le (laps wrapped)
  · rw [done, Except.ok.injEq, Prod.mk.injEq] at wrote
    rw [← wrote.2]
    have lands := landing_cases ring chunk.length
    refine ⟨written_inRange ring inside _ bytes _ enough, same, line, below, ?_, ?_⟩
    · change landing ring chunk.length ≤ parser.readIdx + chunk.length
      omega
    · intro wrapped
      change landing ring chunk.length < ring.startIdx at wrapped
      change landing ring chunk.length + ring.slots ≤ parser.readIdx + chunk.length
      by_cases before : ring.endIdx < ring.startIdx
      · have filled := laps before
        omega
      · omega

theorem parseText_frame (parser parser' : HttpParser) (data : List UInt8) (code : HttpCode)
    (parsed : parser.parseText data = .ok (code, parser')) :
    parser'.checkedIdx = parser.checkedIdx ∧ parser'.readIdx = parser.readIdx ∧
      (parser.message.checkState = .content → parser'.message.checkState = .content) := by
  rw [parseText, bind_eq_ok] at parsed
  obtain ⟨text, _, parsed⟩ := parsed
  simp only at parsed
  split at parsed
  · rename_i state
    cases parsed
    exact ⟨rfl, rfl, fun content => by rw [content] at state; cases state⟩
  · rename_i state
    cases parsed
    exact ⟨rfl, rfl, fun content => by rw [content] at state; cases state⟩
  · rename_i content
    rw [parseContent] at parsed
    split at parsed
    · cases parsed
    split at parsed
    · split at parsed
      · rw [bind_eq_ok] at parsed
        obtain ⟨body, _, done⟩ := parsed
        cases done
        exact ⟨rfl, rfl, fun _ => content⟩
      · cases parsed
    · cases parsed
      exact ⟨rfl, rfl, fun _ => content⟩

/-- A line that is read takes `m_start_idx` to `m_checked_idx`. -/
theorem tracks_take (capacity : Nat) (parser : HttpParser) (ring : HttpBuffer)
    (next : BodyBounds.State) (reading : parser.message.checkState ≠ .content)
    (tracks : Tracks capacity parser ring) (taken : BodyBounds.take parser ring = .ok next) :
    Tracks capacity next.parser next.ring ∧ next.ring.startIdx = next.parser.checkedIdx := by
  obtain ⟨data, code, took, parsed⟩ := take_cases _ _ _ taken
  obtain ⟨checked, read, _⟩ := parseText_frame _ _ _ _ parsed
  rw [takeText, if_neg reading, bind_eq_ok] at took
  obtain ⟨⟨ret, left⟩, ended, took⟩ := took
  obtain ⟨inside, same, line, below, counted, laps⟩ := tracks
  have slots : ring.slots = ring.capacity + 1 := rfl
  have reads := readByEnd_reads ring inside _ _ _ ended
  simp only at took
  split at took
  · cases took
  · have started := readByEnd_start ring left inside _ (by omega) _ ended
    rw [Except.ok.injEq, Prod.mk.injEq] at took
    rw [← took.2]
    refine ⟨?_, started.trans checked.symm⟩
    rcases reads with rfl | ⟨count, held, rfl⟩
    · exact ⟨inside, same, line, checked ▸ below, read ▸ counted, read ▸ laps⟩
    · refine ⟨advanced_inRange ring inside count, ?_, started ▸ below, checked ▸ below, ?_, ?_⟩
      · rw [HttpBuffer.advanced_capacity, same]
      · rw [HttpBuffer.advanced_endIdx, read]
        exact counted
      · rw [HttpBuffer.advanced_endIdx, HttpBuffer.advanced_startIdx, advanced_slots, read]
        intro wrapped
        apply laps
        by_contra straight
        rw [occupied, if_pos (by omega)] at held
        have start := inside.start
        have finish := inside.finish
        rcases mod_cases (ring.startIdx + count) ring.slots (by omega) with ⟨_, same⟩ | ⟨_, turned⟩
        · omega
        · omega

theorem tracks_scan {capacity : Nat} {parser parser' : HttpParser} {ring ring' : HttpBuffer}
    (tracks : Tracks capacity parser ring) (scanned : Frames parser parser' ring ring') :
    Tracks capacity parser' ring' := by
  obtain ⟨checkedIdx, bytes, rfl, rfl, stays⟩ := scanned
  obtain ⟨⟨narrow, start, finish⟩, same, line, below, counted, laps⟩ := tracks
  exact ⟨⟨narrow, start, finish⟩, same, line, same ▸ stays (same.symm ▸ below), counted, laps⟩

/-- A line that begins at slot 0 lies in one piece, and the scan has passed no line end in it. -/
def Clean (parser : HttpParser) (ring : HttpBuffer) : Prop :=
  ring.startIdx = 0 → parser.checkedIdx ≤ ring.endIdx ∧
    ∀ slot < parser.checkedIdx, ring.buffer slot ≠ 13 ∧ ring.buffer slot ≠ 10

/-- The scan of such a line does not go round the ring. -/
theorem clean_reaches {checked distance : Nat} {ring : HttpBuffer} (below : checked < ring.capacity)
    (order : checked ≤ ring.endIdx)
    (silent : ∀ slot < checked, ring.buffer slot ≠ 13 ∧ ring.buffer slot ≠ 10)
    (quiet : ∀ offset < distance, ¬ Stops ring ((checked + offset) % ring.capacity))
    (stops : Stops ring ((checked + distance) % ring.capacity)) :
    checked + distance < ring.capacity ∧ checked + distance ≤ ring.endIdx ∧
      ∀ slot < checked + distance, ring.buffer slot ≠ 13 ∧ ring.buffer slot ≠ 10 := by
  have inside : (checked + distance) % ring.capacity < ring.capacity := Nat.mod_lt _ (by omega)
  have straight : checked + distance < ring.capacity := by
    by_contra round
    by_cases early : (checked + distance) % ring.capacity < checked
    · obtain ⟨first, second⟩ := silent _ early
      rcases stops with finished | cr | lf
      · omega
      · exact first cr
      · exact second lf
    · have passed := quiet ((checked + distance) % ring.capacity - checked) (by omega)
      rw [Nat.add_sub_cancel' (by omega), Nat.mod_eq_of_lt inside] at passed
      exact passed stops
  refine ⟨straight, ?_, ?_⟩
  · by_contra past
    apply quiet (ring.endIdx - checked) (by omega)
    rw [Nat.add_sub_cancel' order, Nat.mod_eq_of_lt (by omega)]
    exact .inl rfl
  · intro slot before
    by_cases early : slot < checked
    · exact silent slot early
    · have passed := quiet (slot - checked) (by omega)
      rw [Nat.add_sub_cancel' (by omega), Nat.mod_eq_of_lt (by omega)] at passed
      exact not_or.mp (not_or.mp passed).2

/-- What the indices and the line in the making say while lines are read. -/
structure Swept (capacity : Nat) (parser : HttpParser) (ring : HttpBuffer) : Prop where
  tracks : Tracks capacity parser ring
  clean : Clean parser ring

theorem parseLine_swept {capacity : Nat} {parser parser' : HttpParser} {ring ring' : HttpBuffer}
    {status : LineStatus} (swept : Swept capacity parser ring)
    (scanned : parser.parseLine ring = .ok (status, parser', ring')) (unfinished : status ≠ .ok) :
    Swept capacity parser' ring' ∧ (Waits parser' ring' ∨ Rejected parser' ring') := by
  obtain ⟨tracks, clean⟩ := swept
  have same := tracks.same
  have tracks' := tracks_scan tracks (scanLine_frames _ _ _ _ _ _ _ scanned)
  obtain ⟨distance, quiet, leaves⟩ := scanLine_leaves ring tracks.inside.narrow _ _ _ _ _
    (same.symm ▸ tracks.below) scanned
  have reaches := leaves.stops
  have swept' : ∀ idx, idx = (parser.checkedIdx + distance) % ring.capacity →
      Clean { parser with checkedIdx := idx } ring := by
    rintro idx rfl zero
    obtain ⟨order, silent⟩ := clean zero
    obtain ⟨straight, before, passed⟩ := clean_reaches (same.symm ▸ tracks.below) order silent
      quiet reaches
    change (parser.checkedIdx + distance) % ring.capacity ≤ ring.endIdx ∧
      ∀ slot < (parser.checkedIdx + distance) % ring.capacity, _
    rw [Nat.mod_eq_of_lt straight]
    exact ⟨before, passed⟩
  cases leaves with
  | finished here => exact ⟨⟨tracks', swept' _ rfl⟩, .inl (.inl here)⟩
  | halfway cr last => exact ⟨⟨tracks', swept' _ rfl⟩, .inl (.inr ⟨cr, last⟩)⟩
  | lone on cr more other => exact ⟨⟨tracks', swept' _ rfl⟩, .inr ⟨on, .inl ⟨cr, more, other⟩⟩⟩
  | bare on lf before => exact ⟨⟨tracks', swept' _ rfl⟩, .inr ⟨on, .inr ⟨lf, before⟩⟩⟩
  | whole | late => exact absurd rfl unfinished

theorem processLoop_swept (capacity fuel : Nat) (status : LineStatus) (parser parser' : HttpParser)
    (ring ring' : HttpBuffer) (code : HttpCode)
    (swept : parser.message.checkState ≠ .content → Swept capacity parser ring)
    (processed : processLoop fuel status parser ring = .ok (code, parser', ring'))
    (reading : parser'.message.checkState ≠ .content) :
    Swept capacity parser' ring' ∧ (code = .noRequest → Waits parser' ring' ∨ Rejected parser' ring') := by
  induction fuel generalizing status parser ring with
  | zero => cases processed
  | succ fuel ih =>
      rw [processLoop, bind_eq_ok] at processed
      obtain ⟨⟨tested, scanner, scanned⟩, decided, processed⟩ := processed
      simp only at processed
      rw [nextStatus] at decided
      split at processed
      · rename_i unfinished
        cases processed
        split at decided
        · cases decided
          exact absurd rfl unfinished
        · have framed := scanLine_frames _ _ _ _ _ _ _ decided
          obtain ⟨checkedIdx, bytes, rfl, rfl, _⟩ := framed
          obtain ⟨kept, ends⟩ := parseLine_swept (swept reading) decided unfinished
          exact ⟨kept, fun _ => ends⟩
      · rw [bind_eq_ok] at processed
        obtain ⟨⟨data, left⟩, took, processed⟩ := processed
        simp only at processed
        rw [bind_eq_ok] at processed
        obtain ⟨⟨answer, reader⟩, parsed, processed⟩ := processed
        simp only at processed
        have after : reader.message.checkState ≠ .content → Swept capacity reader left := by
          intro reading'
          have before : scanner.message.checkState ≠ .content := fun content =>
            reading' ((parseText_frame _ _ _ _ parsed).2.2 content)
          have taken : ∃ phase, BodyBounds.take scanner scanned = .ok ⟨phase, reader, left⟩ := by
            simp only [BodyBounds.take, took, ok_bind, parsed]
            exact ⟨_, rfl⟩
          obtain ⟨phase, taken⟩ := taken
          have tracks : Tracks capacity scanner scanned := by
            split at decided
            · rename_i content
              cases decided
              exact absurd content.1 before
            · have framed := scanLine_frames _ _ _ _ _ _ _ decided
              refine tracks_scan (swept ?_).tracks framed
              obtain ⟨checkedIdx, bytes, rfl, rfl, _⟩ := framed
              exact before
          obtain ⟨tracks', started⟩ := tracks_take capacity _ _ _ before tracks taken
          refine ⟨tracks', fun zero => ?_⟩
          change left.startIdx = reader.checkedIdx at started
          rw [← started, zero]
          exact ⟨Nat.zero_le _, fun slot none => absurd none (Nat.not_lt_zero _)⟩
        split at processed
        · exact ih _ _ _ after processed
        · rename_i answered
          cases processed
          exact ⟨after reading, fun silent => absurd silent answered⟩

/-- A ring whose data begins at slot 0 takes a chunk in one piece or not at all. -/
theorem write_from_zero (ring next : HttpBuffer) (inside : InRange ring) (zero : ring.startIdx = 0)
    (chunk : List UInt8) (accepted : Bool)
    (wrote : ring.write (fun index => chunk.getD index 0) chunk.length = .ok (accepted, next)) :
    next = ring ∨ (ring.endIdx + chunk.length ≤ ring.slots ∧ next = written ring chunk) := by
  have narrow := inside.narrow
  have finish := inside.finish
  have free : room ring = ring.slots - ring.endIdx := by
    rw [room, if_pos (by omega), zero, Nat.zero_add]
  rcases write_spec ring inside (fun index => chunk.getD index 0) chunk.length with
    ⟨_, refused⟩ | ⟨fits, _⟩
  · rw [refused, Except.ok.injEq, Prod.mk.injEq] at wrote
    exact .inl wrote.2.symm
  · rw [write_straight ring inside chunk (by omega) (by omega), Except.ok.injEq, Prod.mk.injEq] at wrote
    exact .inr ⟨by omega, wrote.2.symm⟩

theorem write_start (ring next : HttpBuffer) (inside : InRange ring) (data : Nat → UInt8) (len : Nat)
    (accepted : Bool) (wrote : ring.write data len = .ok (accepted, next)) :
    next.startIdx = ring.startIdx := by
  rcases write_spec ring inside data len with ⟨_, refused⟩ | ⟨_, bytes, done⟩
  · rw [refused, Except.ok.injEq, Prod.mk.injEq] at wrote
    rw [← wrote.2]
  · rw [done, Except.ok.injEq, Prod.mk.injEq] at wrote
    rw [← wrote.2]

theorem arrive_swept (capacity : Nat) (parser : HttpParser) (ring : HttpBuffer) (chunk : List UInt8)
    (next : BodyBounds.State) (swept : Swept capacity parser ring)
    (arrived : BodyBounds.arrive parser ring chunk = .ok next) :
    Swept capacity next.parser next.ring := by
  obtain ⟨tracks, clean⟩ := swept
  refine ⟨tracks_arrive capacity _ _ _ _ tracks arrived, ?_⟩
  obtain ⟨accepted, filled, wrote, rfl⟩ := arrive_cases _ _ _ _ arrived
  intro zero
  change filled.startIdx = 0 at zero
  rw [write_start ring filled tracks.inside _ _ _ wrote] at zero
  obtain ⟨order, silent⟩ := clean zero
  rcases write_from_zero ring filled tracks.inside zero chunk accepted wrote with rfl | ⟨_, rfl⟩
  · exact ⟨order, silent⟩
  · refine ⟨Nat.le_add_right_of_le order, fun slot before => ?_⟩
    change slot < parser.checkedIdx at before
    change (written ring chunk).buffer slot ≠ 13 ∧ (written ring chunk).buffer slot ≠ 10
    rw [written_old ring chunk slot (.inl (by omega))]
    exact silent slot before

/-- A connection, with the last answer of `process_read`. -/
structure State where
  answer : Option HttpCode
  parser : HttpParser
  ring : HttpBuffer

def State.fresh (capacity bufferSize : Nat) (junk : Nat → UInt8) : State :=
  ⟨none, HttpParser.fresh bufferSize, HttpBuffer.fresh capacity junk⟩

/-- A chunk arrives; a call that leaves the defined behaviour of the source has no answer. -/
def step (state : State) (chunk : List UInt8) : Option State :=
  (receive state.parser state.ring chunk).toOption.map fun outcome =>
    ⟨some outcome.1, outcome.2.1, outcome.2.2⟩

theorem receive_cases {parser : HttpParser} {ring : HttpBuffer} {chunk : List UInt8}
    {outcome : HttpCode × HttpParser × HttpBuffer} (received : receive parser ring chunk = .ok outcome) :
    ∃ counted filled, BodyBounds.arrive parser ring chunk = .ok ⟨.testing .ok, counted, filled⟩ ∧
      processLoop (filled.capacity + 3) .ok counted filled = .ok outcome := by
  rw [receive, bind_eq_ok] at received
  obtain ⟨⟨accepted, filled⟩, wrote, received⟩ := received
  simp only at received
  rw [bind_eq_ok] at received
  obtain ⟨counted, updated, processed⟩ := received
  refine ⟨counted, filled, ?_, processed⟩
  rw [BodyBounds.arrive, wrote, ok_bind]
  simp only
  rw [updated, ok_bind]

/-- Every call leaves the indices and the line in order, and a connection that is told to wait does
wait, or holds a rejected byte. -/
theorem receive_swept (capacity : Nat) (parser parser' : HttpParser) (ring ring' : HttpBuffer)
    (chunk : List UInt8) (code : HttpCode)
    (swept : parser.message.checkState ≠ .content → Swept capacity parser ring)
    (received : receive parser ring chunk = .ok (code, parser', ring'))
    (reading : parser'.message.checkState ≠ .content) :
    Swept capacity parser' ring' ∧ (code = .noRequest → Waits parser' ring' ∨ Rejected parser' ring') := by
  obtain ⟨counted, filled, arrived, processed⟩ := receive_cases received
  have kept : counted.message = parser.message := by
    obtain ⟨_, _, _, same⟩ := arrive_cases _ _ _ _ arrived
    cases same
    rfl
  exact processLoop_swept capacity _ _ _ _ _ _ _
    (fun among => arrive_swept capacity _ _ _ _ (swept (kept ▸ among)) arrived) processed reading

def Rests (capacity : Nat) (state : State) : Prop :=
  state.parser.message.checkState ≠ .content → Swept capacity state.parser state.ring ∧
    (state.answer = some .noRequest → Waits state.parser state.ring ∨ Rejected state.parser state.ring)

theorem rests_step (capacity : Nat) (state : State) (chunk : List UInt8) (next : State)
    (rests : Rests capacity state) (taken : step state chunk = some next) : Rests capacity next := by
  obtain ⟨⟨code, parser, ring⟩, received, rfl⟩ := Option.map_eq_some_iff.mp taken
  rw [toOption_eq_some] at received
  intro reading
  obtain ⟨swept, ends⟩ := receive_swept capacity _ _ _ _ _ _ (fun among => (rests among).1) received reading
  exact ⟨swept, fun told => ends (Option.some.inj told)⟩

theorem run_rests (capacity bufferSize : Nat) (positive : 1 ≤ capacity)
    (narrow : capacity + 1 < 2 ^ 31) (junk : Nat → UInt8) (chunks : List (List UInt8)) (state : State)
    (reached : run step (State.fresh capacity bufferSize junk) chunks = some state) :
    Rests capacity state := by
  have start : Rests capacity (State.fresh capacity bufferSize junk) := by
    intro _
    refine ⟨⟨?_, fun _ => ⟨Nat.le_refl 0, ?_⟩⟩, fun told => by cases told⟩
    · exact ⟨fresh_inRange capacity junk narrow, rfl, positive, positive, Nat.le_refl 0,
        fun wrapped => absurd wrapped (Nat.lt_irrefl 0)⟩
    · exact fun slot none => absurd none (Nat.not_lt_zero slot)
  exact run_preserves (rests_step capacity) chunks _ state start reached

end OtaMqtt.Http.Scans
