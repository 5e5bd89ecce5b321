import OtaMqtt.Http.Progress

/-! Which connections that were told to wait are never answered.

A line that begins at slot 0 cannot be discarded, as `write` does not wrap then. Once `parse_line`
rejects a byte of it, or its end has no room in front of the last slots, no continuation helps. -/

namespace OtaMqtt.Http.Wedges

open OtaMqtt.Lib.Execution OtaMqtt.Lib.CText OtaMqtt.Lib.Trace OtaMqtt.Lib.Ring
open OtaMqtt.Http.Buffer OtaMqtt.Http.Parser OtaMqtt.Http.Parser.HttpParser
open OtaMqtt.Http.RingStates (InRange)
open OtaMqtt.Http.LineScan (Stops scanLine_turns scanLine_frames)
open OtaMqtt.Http.ParserLines (absorb)
open OtaMqtt.Http.BodyBounds (toOption_eq_some arrive_cases)
open OtaMqtt.Http.LineEnds OtaMqtt.Http.Scans OtaMqtt.Http.Progress

/-- Data has been added behind what a ring holds from slot 0 on. -/
structure Grown (ring next : HttpBuffer) : Prop where
  capacity : next.capacity = ring.capacity
  start : next.startIdx = ring.startIdx
  finish : ring.endIdx ≤ next.endIdx
  kept : ∀ slot < ring.endIdx, next.buffer slot = ring.buffer slot

theorem arrive_grows (parser : HttpParser) (ring : HttpBuffer) (inside : InRange ring)
    (zero : ring.startIdx = 0) (chunk : List UInt8) (next : BodyBounds.State)
    (arrived : BodyBounds.arrive parser ring chunk = .ok next) :
    Grown ring next.ring ∧ ∃ readIdx, next.parser = { parser with readIdx := readIdx } := by
  obtain ⟨accepted, filled, wrote, rfl⟩ := BodyBounds.arrive_cases _ _ _ _ arrived
  refine ⟨?_, _, rfl⟩
  rcases write_from_zero ring filled inside zero chunk accepted wrote with rfl | ⟨_, rfl⟩
  · exact ⟨rfl, rfl, Nat.le_refl _, fun _ _ => rfl⟩
  · exact ⟨rfl, rfl, Nat.le_add_right .., fun slot before => written_old ring chunk slot (.inl before)⟩

/-- A rejected byte, with all that `parse_line` looks at. -/
structure Stuck (parser : HttpParser) (ring : HttpBuffer) : Prop where
  rejected : Rejected parser ring
  held : parser.checkedIdx < ring.endIdx
  follows : ring.buffer parser.checkedIdx = 13 → (parser.checkedIdx + 1) % ring.capacity < ring.endIdx

theorem Stuck.grows {parser : HttpParser} {ring next : HttpBuffer} (stuck : Stuck parser ring)
    (zero : ring.startIdx = 0) (grown : Grown ring next) (readIdx : Nat) :
    Stuck { parser with readIdx := readIdx } next := by
  obtain ⟨⟨on, cause⟩, held, follows⟩ := stuck
  obtain ⟨capacity, start, finish, kept⟩ := grown
  have here := kept _ held
  have pre' : pre next parser.checkedIdx = pre ring parser.checkedIdx := by rw [pre, capacity, ← pre]
  refine ⟨⟨by change parser.checkedIdx ≠ next.endIdx; omega, ?_⟩, by change parser.checkedIdx < _; omega, ?_⟩
  · change (next.buffer parser.checkedIdx = 13 ∧ (parser.checkedIdx + 1) % next.capacity ≠ next.endIdx ∧
      next.buffer ((parser.checkedIdx + 1) % next.capacity) ≠ 10) ∨ (next.buffer parser.checkedIdx = 10 ∧
        (parser.checkedIdx = next.startIdx ∨ next.buffer (pre next parser.checkedIdx) ≠ 13))
    rw [here, capacity, start, pre']
    rcases cause with ⟨cr, more, other⟩ | ⟨lf, first | before⟩
    · have after := follows cr
      rw [kept _ after]
      exact .inl ⟨cr, by omega, other⟩
    · exact .inr ⟨lf, .inl first⟩
    · refine .inr ⟨lf, ?_⟩
      by_cases first : parser.checkedIdx = ring.startIdx
      · exact .inl first
      · right
        rw [kept _ (by rw [pre, if_neg (by omega)]; omega)]
        exact before
  · intro cr
    change next.buffer parser.checkedIdx = 13 at cr
    rw [here] at cr
    change (parser.checkedIdx + 1) % next.capacity < next.endIdx
    rw [capacity]
    exact Nat.lt_of_lt_of_le (follows cr) finish

/-- The end of the line would reach the last slot that the scan walks. In the last two slots it is
read, and then the scan finds no end. -/
structure Cramped (parser : HttpParser) (ring : HttpBuffer) : Prop where
  waits : Waits parser ring
  near : ring.capacity ≤ parser.checkedIdx + 2
  goesOn : parser.checkedIdx + 2 = ring.capacity →
    (absorb parser.message (heldLine parser ring)).1 = .noRequest ∧
      (absorb parser.message (heldLine parser ring)).2.checkState ≠ .content

theorem heldLine_grows {parser : HttpParser} {ring next : HttpBuffer} (inside : InRange ring)
    (zero : ring.startIdx = 0) (grown : Grown ring next) (order : parser.checkedIdx ≤ ring.endIdx)
    (readIdx : Nat) : heldLine { parser with readIdx := readIdx } next = heldLine parser ring := by
  obtain ⟨capacity, start, finish, kept⟩ := grown
  have last := inside.finish
  have slots : next.slots = ring.slots := congrArg (· + 1) capacity
  rw [heldLine, heldLine, start, slots]
  refine congrArg _ (window_congr _ _ _ _ _ fun offset within => ?_)
  change offset < parser.checkedIdx - ring.startIdx at within
  rw [Nat.mod_eq_of_lt (by omega)]
  exact kept _ (by omega)

/-- More data leaves a cramped line cramped, or has a byte of it rejected, or ends it in the last
two slots. -/
theorem Cramped.grows {capacity : Nat} {parser parser' : HttpParser} {ring next ring' : HttpBuffer}
    {status : LineStatus} (cramped : Cramped parser ring) (swept : Swept capacity parser ring)
    (zero : ring.startIdx = 0) (wide : 3 ≤ capacity) (grown : Grown ring next) (readIdx : Nat)
    (narrow : next.slots < 2 ^ 31)
    (scanned : HttpParser.parseLine { parser with readIdx := readIdx } next = .ok (status, parser', ring')) :
    (status ≠ .ok ∧ (Stuck parser' ring' ∨ Cramped parser' ring')) ∨
      (parser.checkedIdx + 2 = capacity ∧ next.buffer parser.checkedIdx = 13 ∧
        next.buffer (parser.checkedIdx + 1) = 10 ∧ parser.checkedIdx + 1 < next.endIdx) := by
  obtain ⟨waits, near, goesOn⟩ := cramped
  obtain ⟨tracks, clean⟩ := swept
  obtain ⟨order, silent⟩ := clean zero
  have same := tracks.same
  have below := tracks.below
  have capacity' := grown.capacity
  have finish := grown.finish
  obtain ⟨distance, quiet, leaves⟩ := scanLine_leaves next narrow _ _ _ _ _
    (by change parser.checkedIdx < next.capacity; omega) scanned
  change ∀ offset < distance, ¬ Stops next ((parser.checkedIdx + offset) % next.capacity) at quiet
  change Leaves _ next ((parser.checkedIdx + distance) % next.capacity) status parser' ring' at leaves
  obtain ⟨straight, before, passed⟩ := clean_reaches
    (show parser.checkedIdx < next.capacity by omega) (Nat.le_trans order finish)
    (fun slot early => by rw [grown.kept slot (by omega)]; exact silent slot early) quiet leaves.stops
  rw [Nat.mod_eq_of_lt straight] at leaves
  have stays (waits' : Waits { parser with readIdx := readIdx, checkedIdx := parser.checkedIdx + distance }
      next) : Cramped { parser with
        readIdx := readIdx, checkedIdx := parser.checkedIdx + distance } next := by
    refine ⟨waits', ?_, fun corner => ?_⟩
    · change next.capacity ≤ parser.checkedIdx + distance + 2
      omega
    · change parser.checkedIdx + distance + 2 = next.capacity at corner
      obtain rfl : distance = 0 := by omega
      have line := heldLine_grows tracks.inside zero grown order readIdx
      change (absorb parser.message (heldLine { parser with readIdx := readIdx } next)).1 = _ ∧
        (absorb parser.message (heldLine { parser with readIdx := readIdx } next)).2.checkState ≠ _
      rw [line]
      exact goesOn (by omega)
  cases leaves with
  | finished here => exact .inl ⟨by decide, .inr (stays (.inl here))⟩
  | halfway cr last => exact .inl ⟨by decide, .inr (stays (.inr ⟨cr, last⟩))⟩
  | lone on cr more other =>
      refine .inl ⟨by decide, .inl ⟨⟨on, .inl ⟨cr, more, other⟩⟩, ?_, fun _ => ?_⟩⟩
      · change parser.checkedIdx + distance < next.endIdx
        omega
      · change (parser.checkedIdx + distance + 1) % next.capacity < next.endIdx
        rcases mod_cases (parser.checkedIdx + distance + 1) next.capacity (by omega) with
          ⟨_, stays⟩ | ⟨_, wraps⟩
        · omega
        · omega
  | bare on lf behind =>
      refine .inl ⟨by decide, .inl ⟨⟨on, .inr ⟨lf, behind⟩⟩, ?_, fun cr => ?_⟩⟩
      · change parser.checkedIdx + distance < next.endIdx
        omega
      · change next.buffer (parser.checkedIdx + distance) = 13 at cr
        rw [lf] at cr
        exact absurd cr (by decide)
  | whole _ _ on cr more lf =>
      right
      rcases mod_cases (parser.checkedIdx + distance + 1) next.capacity (by omega) with
        ⟨_, stays⟩ | ⟨_, wraps⟩
      · obtain rfl : distance = 0 := by omega
        rw [stays] at lf
        exact ⟨by omega, cr, lf, by omega⟩
      · have first : parser.checkedIdx + distance + 1 - next.capacity = 0 := by omega
        rw [wraps, first] at lf
        exact absurd lf (passed 0 (by omega)).2
  | late _ _ on lf inner cr =>
      have start := grown.start
      have behind : pre next (parser.checkedIdx + distance) = parser.checkedIdx + distance - 1 :=
        if_neg (by omega)
      rw [behind] at cr
      exact absurd cr (passed _ (by omega)).1

/-- No continuation is answered. -/
structure Lost (capacity : Nat) (state : State) : Prop where
  answer : state.answer = some .noRequest
  reading : state.parser.message.checkState ≠ .content
  swept : Swept capacity state.parser state.ring
  zero : state.ring.startIdx = 0
  wide : 3 ≤ capacity
  wedged : Stuck state.parser state.ring ∨ Cramped state.parser state.ring

/-- What a line end in the last two slots leaves in the ring. -/
def passed (parser : HttpParser) (ring : HttpBuffer) : HttpBuffer :=
  (marked ring parser.checkedIdx (parser.checkedIdx + 1)).advanced (ring.slots - ring.startIdx)

section
variable {parser : HttpParser} {ring : HttpBuffer} (inside : InRange ring) (zero : ring.startIdx = 0)
  (reading : parser.message.checkState ≠ .content) (corner : parser.checkedIdx + 2 = ring.capacity)
  (cr : ring.buffer parser.checkedIdx = 13) (lf : ring.buffer (parser.checkedIdx + 1) = 10)
include corner

theorem passed_endless (full : ring.endIdx = ring.slots)
    (silent : ∀ slot < parser.checkedIdx, ring.buffer slot ≠ 13 ∧ ring.buffer slot ≠ 10) :
    ∀ slot < (passed parser ring).capacity, ¬ Stops (passed parser ring) slot := by
  have slots : ring.slots = ring.capacity + 1 := rfl
  intro slot below
  rw [passed, HttpBuffer.advanced_capacity] at below
  change slot < ring.capacity at below
  rw [Stops, passed, HttpBuffer.advanced_endIdx, HttpBuffer.advanced_buffer]
  rintro (finished | ends)
  · change slot = ring.endIdx at finished
    omega
  by_cases first : slot = parser.checkedIdx
  · rw [first, marked_carriage] at ends
    simp at ends
  by_cases second : slot = parser.checkedIdx + 1
  · rw [second, marked_last] at ends
    simp at ends
  · rw [marked_other ring _ _ _ first second] at ends
    have quiet := silent slot (by omega)
    exact ends.elim quiet.1 quiet.2

include inside zero reading cr lf

/-- With a byte behind the line end the next scan goes round for ever. -/
theorem processLoop_full (full : ring.endIdx = ring.slots)
    (silent : ∀ slot < parser.checkedIdx, ring.buffer slot ≠ 13 ∧ ring.buffer slot ≠ 10)
    (more : (absorb parser.message (heldLine parser ring)).1 = .noRequest)
    (among : (absorb parser.message (heldLine parser ring)).2.checkState ≠ .content) (fuel : Nat) :
    processLoop (fuel + 1) .ok parser ring = .error .outOfFuel := by
  have reaches := processLoop_corner inside full reading corner (by omega) cr lf fuel
  simp only [if_pos more] at reaches
  rw [reaches]
  change processLoop fuel .ok _ (passed parser ring) = _
  cases fuel with
  | zero => rfl
  | succ fuel =>
      have narrow : (passed parser ring).slots < 2 ^ 31 := by
        rw [passed, RingStates.advanced_slots]
        exact inside.narrow
      have wide : 0 < (passed parser ring).capacity := by
        rw [passed, HttpBuffer.advanced_capacity]
        change 0 < ring.capacity
        omega
      rw [processLoop, nextStatus, if_neg (by simp [among]), parseLine,
        scanLine_turns (passed parser ring) narrow _ _ wide (passed_endless corner full silent)]
      rfl

/-- With none behind it `read_by_end` gives a null pointer. -/
theorem processLoop_short (held : parser.checkedIdx + 1 < ring.endIdx) (short : ring.endIdx ≠ ring.slots)
    (fuel : Nat) : processLoop (fuel + 1) .ok parser ring = .error .nullPointer := by
  have narrow := inside.narrow
  have finish := inside.finish
  have slots : ring.slots = ring.capacity + 1 := rfl
  have found := scanLine_crlf ring narrow (ring.capacity + 1) (parser.checkedIdx + 1) parser (by omega)
    (by omega) cr (Nat.mod_eq_of_lt (by omega)) (by omega) lf
  rw [show parser.checkedIdx + 1 + 1 = ring.capacity by omega, Nat.mod_self] at found
  change _ = Except.ok (_, _, marked ring parser.checkedIdx (parser.checkedIdx + 1)) at found
  have read : HttpBuffer.readByEnd (marked ring parser.checkedIdx (parser.checkedIdx + 1)) 0 =
      .ok (none, marked ring parser.checkedIdx (parser.checkedIdx + 1)) := by
    rw [HttpBuffer.readByEnd, if_pos (by change ring.startIdx ≤ ring.endIdx; omega)]
    exact if_pos (.inr (by change ring.endIdx ≤ ring.slots - 1; omega))
  rw [processLoop, nextStatus, if_neg (by simp [reading]), parseLine, found]
  simp only [ok_bind, ne_eq, not_true_eq_false, if_false, takeText, if_neg reading, read]
  rfl

/-- A line end in the last two slots leads out of the defined behaviour. -/
theorem processLoop_ends (silent : ∀ slot < parser.checkedIdx, ring.buffer slot ≠ 13 ∧ ring.buffer slot ≠ 10)
    (held : parser.checkedIdx + 1 < ring.endIdx)
    (more : (absorb parser.message (heldLine parser ring)).1 = .noRequest)
    (among : (absorb parser.message (heldLine parser ring)).2.checkState ≠ .content) (fuel : Nat) :
    ∃ fault, processLoop (fuel + 1) .ok parser ring = .error fault := by
  by_cases full : ring.endIdx = ring.slots
  · exact ⟨_, processLoop_full inside zero reading corner cr lf full silent more among fuel⟩
  · exact ⟨_, processLoop_short inside zero reading corner cr lf held full fuel⟩

end

/-- Whatever comes then, the connection is told to wait again. -/
theorem lost_step (capacity : Nat) (state : State) (chunk : List UInt8) (next : State)
    (lost : Lost capacity state) (taken : step state chunk = some next) : Lost capacity next := by
  obtain ⟨answer, reading, swept, zero, wide, wedged⟩ := lost
  obtain ⟨⟨code, parser, ring⟩, received, rfl⟩ := Option.map_eq_some_iff.mp taken
  rw [toOption_eq_some] at received
  obtain ⟨counted, filled, arrived, processed⟩ := receive_cases received
  have swept' := arrive_swept capacity _ _ _ _ swept arrived
  obtain ⟨grown, readIdx, kept⟩ := arrive_grows _ _ swept.tracks.inside zero _ _ arrived
  change Grown state.ring filled at grown
  obtain rfl : counted = { state.parser with readIdx := readIdx } := kept
  change Swept capacity { state.parser with readIdx := readIdx } filled at swept'
  have narrow := swept'.tracks.inside.narrow
  have start := grown.start.trans zero
  have whole := processed
  rw [processLoop, nextStatus, if_neg (by simp [reading]), bind_eq_ok] at processed
  obtain ⟨⟨status, scanner, scanned⟩, parsed, processed⟩ := processed
  have framed := scanLine_frames _ _ _ _ _ _ _ parsed
  have ended : status ≠ .ok ∧ (Stuck scanner scanned ∨ Cramped scanner scanned) := by
    rcases wedged with stuck | cramped
    · have stuck' := stuck.grows zero grown readIdx
      have below : state.parser.checkedIdx < filled.capacity := by
        rw [swept'.tracks.same]
        exact swept.tracks.below
      rw [stuck'.rejected.parseLine narrow below] at parsed
      cases parsed
      exact ⟨by decide, .inl stuck'⟩
    · rcases cramped.grows swept zero wide grown readIdx narrow parsed with settled | ⟨corner, cr, lf, held⟩
      · exact settled
      · have same := swept.tracks.same
        have order := (swept.clean zero).1
        have line := heldLine_grows swept.tracks.inside zero grown order readIdx
        obtain ⟨more, among⟩ := cramped.goesOn (corner.trans same.symm)
        rw [← line] at more among
        obtain ⟨fault, faulted⟩ := @processLoop_ends { state.parser with readIdx := readIdx } filled
          swept'.tracks.inside start reading (corner.trans swept'.tracks.same.symm) cr lf
          (swept'.clean start).2 held more among (filled.capacity + 2)
        rw [faulted] at whole
        cases whole
  obtain ⟨unfinished, wedged'⟩ := ended
  have swept'' := (parseLine_swept swept' parsed unfinished).1
  obtain ⟨checkedIdx, bytes, rfl, rfl, _⟩ := framed
  simp only [if_pos unfinished] at processed
  cases processed
  exact ⟨rfl, reading, swept'', start, wide, wedged'⟩

theorem lost_unanswerable {capacity : Nat} {state : State} (lost : Lost capacity state) :
    ¬ Answerable state := by
  rintro ⟨chunks, last, ran, answered⟩
  have never := (run_preserves (lost_step capacity) chunks state last lost ran).answer
  rw [never] at answered
  simp at answered

theorem heldLine_nil {parser : HttpParser} {ring : HttpBuffer} (inside : InRange ring)
    (begun : ring.startIdx < parser.checkedIdx) (empty : heldLine parser ring = []) :
    ring.buffer ring.startIdx = 0 := by
  obtain ⟨more, held⟩ := Nat.exists_eq_add_of_lt begun
  rw [heldLine, show parser.checkedIdx - ring.startIdx = more + 1 by omega, window_cons,
    Nat.mod_eq_of_lt inside.start, List.takeWhile_cons] at empty
  split at empty
  · cases empty
  · rename_i zero
    simpa using zero

/-- The states of which it is known whether they can still be answered: the connection waits among
its lines, with a ring and a counter that are not at their limits, and no body is due in a line that
has begun at slot 0. -/
structure Charted (state : State) : Prop where
  waiting : state.answer = some .noRequest
  reading : state.parser.message.checkState ≠ .content
  wide : 19 ≤ state.ring.capacity
  counts : state.parser.readIdx + 3 * state.ring.slots + 64 < 2 ^ 31
  bodiless : state.ring.startIdx = 0 → BodyDue state.parser state.ring →
    state.parser.checkedIdx = 0 ∧ state.ring.endIdx = 0

theorem ready_of_unwedged {capacity : Nat} {state : State} (rests : Rests capacity state)
    (charted : Charted state) (unwedged : Unwedged state) : Ready state := by
  obtain ⟨waiting, reading, wide, counts, bodiless⟩ := charted
  obtain ⟨swept, ends⟩ := rests reading
  obtain ⟨formed, answerable⟩ := unwedged waiting
  have same := swept.tracks.same
  have waits : Waits state.parser state.ring := (ends waiting).resolve_right fun rejected =>
    formed ⟨reading, _, _, rejected.parseLine swept.tracks.inside.narrow (same.symm ▸ swept.tracks.below)⟩
  by_contra unready
  have cramped : ¬ Roomy state.parser state.ring := fun roomy => unready ⟨reading, waits, .inr (.inr roomy)⟩
  have zero : state.ring.startIdx = 0 := by
    by_contra positive
    exact cramped ⟨wide, counts, .inl (Nat.pos_of_ne_zero positive)⟩
  have free : ¬ BodyDue state.parser state.ring := fun due =>
    cramped ⟨wide, counts, .inr (.inl (bodiless zero due))⟩
  have near : state.ring.capacity ≤ state.parser.checkedIdx + 2 := by
    by_contra far
    exact cramped ⟨wide, counts, .inr (.inr ⟨free, by omega⟩)⟩
  refine lost_unanswerable ⟨waiting, reading, swept, zero, by omega, .inr ⟨waits, near, fun corner => ?_⟩⟩
    answerable
  have short : (lineEnd state.parser state.ring).length ≤ 2 := by
    rw [lineEnd]
    split <;> simp
  have more : (absorb state.parser.message (heldLine state.parser state.ring)).1 = .noRequest := by
    by_contra settles
    exact unready ⟨reading, waits, .inl ⟨settles, by omega, (swept.clean zero).1, .inr corner, by omega⟩⟩
  refine ⟨more, fun content => ?_⟩
  rcases absorb_goes_on _ _ reading more with ⟨header, _⟩ | ⟨header, empty, due, _⟩
  · rw [content] at header
    cases header
  · exact free ⟨header, due, .inr (.inr (heldLine_nil swept.tracks.inside (by omega) empty))⟩

/-- Over every delivery of every stream, a connection that is told to wait in a ready state can
still be answered; among the charted states there are no others that can. -/
theorem unwedged_iff_ready (capacity bufferSize : Nat) (positive : 1 ≤ capacity)
    (narrow : capacity + 1 < 2 ^ 31) (junk : Nat → UInt8) (chunks : List (List UInt8)) (state : State)
    (reached : run step (State.fresh capacity bufferSize junk) chunks = some state) :
    (Ready state → Unwedged state) ∧ (Charted state → (Unwedged state ↔ Ready state)) := by
  have rests := run_rests capacity bufferSize positive narrow junk chunks state reached
  exact ⟨unwedged_of_ready rests, fun charted =>
    ⟨ready_of_unwedged rests charted, unwedged_of_ready rests⟩⟩

/-- Half of a method has arrived. -/
theorem half_method_unwedged : ∃ state,
    run step (State.fresh 64 64 fun _ => 0) [ascii "GE"] = some state ∧
      state.answer = some .noRequest ∧ Unwedged state := by
  have seen : ∃ state ∈ run step (State.fresh 64 64 fun _ => 0) [ascii "GE"],
      state.answer = some .noRequest ∧ Ready state := by decide +kernel
  obtain ⟨state, reached, waiting, ready⟩ := seen
  exact ⟨state, reached, waiting,
    (unwedged_iff_ready 64 64 (by decide) (by decide) _ _ state reached).1 ready⟩

/-- A stream that starts with a bare LF is never answered. -/
theorem bare_line_feed_wedges :
    ¬ ∀ (capacity bufferSize : Nat) (junk : Nat → UInt8) (chunks : List (List UInt8)) (state : State),
      1 ≤ capacity → capacity + 1 < 2 ^ 31 →
      run step (State.fresh capacity bufferSize junk) chunks = some state → Unwedged state := by
  intro never_wedged
  have seen : ∃ state ∈ run step (State.fresh 64 64 fun _ => 0) [[10]],
      state.answer = some .noRequest ∧ state.parser.message.checkState = .requestLine ∧
        state.parser.checkedIdx = 0 ∧ state.ring.startIdx = 0 ∧ state.ring.endIdx = 1 ∧
        state.ring.buffer 0 = 10 := by decide +kernel
  obtain ⟨state, reached, waiting, line, checked, zero, finish, lf⟩ := seen
  have reading : state.parser.message.checkState ≠ .content := by
    rw [line]
    decide
  obtain ⟨swept, -⟩ := run_rests 64 64 (by decide) (by decide) _ _ state reached reading
  have byte : state.ring.buffer state.parser.checkedIdx = 10 := by rw [checked, lf]
  have stuck : Stuck state.parser state.ring := by
    refine ⟨⟨by omega, .inr ⟨byte, .inl (by omega)⟩⟩, by omega, fun cr => ?_⟩
    rw [byte] at cr
    exact absurd cr (by decide)
  exact lost_unanswerable ⟨waiting, reading, swept, zero, by decide, .inl stuck⟩
    (never_wedged 64 64 _ [[10]] state (by decide) (by decide) reached waiting).2

end OtaMqtt.Http.Wedges
