import OtaMqtt.Http.Scans

/-! How a connection that was told to wait is led to an answer.

`process_read` gives `NO_REQUEST` for a line that is not complete and for a line that `parse_line`
rejects alike. A waiting connection is answered by the end of its line, by a line that is refused or
by the body that was announced; where the ring has no room for that, filling it discards the line. -/

namespace OtaMqtt.Http.Progress

open OtaMqtt.Lib.Execution OtaMqtt.Lib.Trace
open OtaMqtt.Http.Buffer OtaMqtt.Http.Parser OtaMqtt.Http.Parser.HttpParser
open OtaMqtt.Http.RingStates (room)
open OtaMqtt.Http.LineScan (getVal_ok nextIdx_ok)
open OtaMqtt.Http.ParserLines (absorb)
open OtaMqtt.Http.LineEnds OtaMqtt.Http.Refills OtaMqtt.Http.Scans

/-- `parse_line` rejects the line that is being received. -/
def Malformed (state : State) : Prop :=
  state.parser.message.checkState ≠ .content ∧
    ∃ parser ring, state.parser.parseLine state.ring = .ok (.bad, parser, ring)

def Answerable (state : State) : Prop :=
  ∃ chunks last, run step state chunks = some last ∧
    (last.answer = some .getRequest ∨ last.answer = some .badRequest)

/-- A connection that was told to wait has met no rejected line and can still be answered. -/
def Unwedged (state : State) : Prop :=
  state.answer = some .noRequest → ¬ Malformed state ∧ Answerable state

/-- The line in the making is answered as soon as it ends. -/
def Settles (parser : HttpParser) (ring : HttpBuffer) : Prop :=
  (absorb parser.message (heldLine parser ring)).1 ≠ .noRequest

instance (parser : HttpParser) (ring : HttpBuffer) : Decidable (Settles parser ring) :=
  inferInstanceAs (Decidable (_ ≠ _))

/-- The line lies in one piece and is answered as soon as it ends. Its end fits in front of the last
slot that the scan walks, or takes the last two of them. -/
def AtOnce (parser : HttpParser) (ring : HttpBuffer) : Prop :=
  Settles parser ring ∧ ring.startIdx ≤ parser.checkedIdx ∧ parser.checkedIdx ≤ ring.endIdx ∧
    (Ahead ring (lineEnd parser ring).length ∨ parser.checkedIdx + 2 = ring.capacity) ∧
    parser.readIdx + (lineEnd parser ring).length + 1 < 2 ^ 31

instance (parser : HttpParser) (ring : HttpBuffer) : Decidable (AtOnce parser ring) :=
  inferInstanceAs (Decidable (_ ∧ _ ∧ _ ∧ _ ∧ _))

/-- The ring takes the end of the line and, behind it, a line that is refused or the body that is
due. -/
def InOnePiece (parser : HttpParser) (ring : HttpBuffer) : Prop :=
  (BodyDue parser ring → 0 < parser.message.contentLength) ∧ Ahead ring (closing parser ring).length ∧
    parser.readIdx + (closing parser ring).length < 2 ^ 31

instance (parser : HttpParser) (ring : HttpBuffer) : Decidable (InOnePiece parser ring) :=
  inferInstanceAs (Decidable (_ ∧ _ ∧ _))

/-- A line that is refused fits between the ends of the ring, wherever `m_end_idx` will be then. A
line that begins at slot 0 is not discarded, so its end has to fit. -/
def Roomy (parser : HttpParser) (ring : HttpBuffer) : Prop :=
  19 ≤ ring.capacity ∧ parser.readIdx + 3 * ring.slots + 64 < 2 ^ 31 ∧
    (0 < ring.startIdx ∨ (parser.checkedIdx = 0 ∧ ring.endIdx = 0) ∨
      (¬ BodyDue parser ring ∧ parser.checkedIdx + 2 < ring.capacity))

instance (parser : HttpParser) (ring : HttpBuffer) : Decidable (Roomy parser ring) :=
  inferInstanceAs (Decidable (_ ∧ _ ∧ _))

/-- The connection is among its lines, its scan waits, and there is a way to an answer. -/
structure Ready (state : State) : Prop where
  reading : state.parser.message.checkState ≠ .content
  waits : Waits state.parser state.ring
  way : AtOnce state.parser state.ring ∨ InOnePiece state.parser state.ring ∨
    Roomy state.parser state.ring

instance (state : State) : Decidable (Ready state) :=
  decidable_of_iff (_ ∧ _ ∧ _)
    ⟨fun ⟨reading, waits, way⟩ => ⟨reading, waits, way⟩,
      fun ⟨reading, waits, way⟩ => ⟨reading, waits, way⟩⟩

theorem step_of_receive (state : State) (chunk : List UInt8) (code : HttpCode) (parser : HttpParser)
    (ring : HttpBuffer) (received : receive state.parser state.ring chunk = .ok (code, parser, ring)) :
    step state chunk = some ⟨some code, parser, ring⟩ := by
  rw [step, received]
  rfl

theorem Answerable.before {state next : State} (chunk : List UInt8) (taken : step state chunk = some next)
    (answerable : Answerable next) : Answerable state := by
  obtain ⟨chunks, last, ran, answered⟩ := answerable
  refine ⟨chunk :: chunks, last, ?_, answered⟩
  rw [run_cons, taken, Option.bind_some, ran]

theorem answerable_at_once (state : State) (chunk : List UInt8) (code : HttpCode) (parser : HttpParser)
    (ring : HttpBuffer) (received : receive state.parser state.ring chunk = .ok (code, parser, ring))
    (answered : code = .getRequest ∨ code = .badRequest) : Answerable state := by
  apply Answerable.before chunk (step_of_receive _ _ _ _ _ received)
  exact ⟨[], _, rfl, answered.imp (congrArg some) (congrArg some)⟩

/-- The state after a chunk is answerable, and what is known of a state holds of it. -/
theorem answerable_later {capacity : Nat} {state : State} (swept : Swept capacity state.parser state.ring)
    (chunk : List UInt8) (parser : HttpParser) (ring : HttpBuffer)
    (received : receive state.parser state.ring chunk = .ok (.noRequest, parser, ring))
    (reading : parser.message.checkState ≠ .content)
    (onwards : Swept capacity parser ring → Answerable ⟨some .noRequest, parser, ring⟩) :
    Answerable state := by
  have swept' := (receive_swept capacity _ _ _ _ _ _ (fun _ => swept) received reading).1
  exact Answerable.before chunk (step_of_receive _ _ _ _ _ received) (onwards swept')

theorem waits_open (parser : HttpParser) (ring : HttpBuffer) (narrow : ring.slots < 2 ^ 31)
    (below : parser.checkedIdx < ring.capacity) (waits : Waits parser ring) :
    parser.parseLine ring = .ok (.open, parser, ring) := by
  rw [parseLine, scanLine]
  by_cases here : parser.checkedIdx = ring.endIdx
  · rw [if_pos here]
  · obtain ⟨cr, following⟩ := waits.resolve_left here
    rw [if_neg here, getVal_ok ring _ below, ok_bind, if_pos cr, nextIdx_ok ring _ below narrow, ok_bind,
      if_pos following]

section
variable {capacity : Nat} {state : State} (swept : Swept capacity state.parser state.ring)
  (reading : state.parser.message.checkState ≠ .content)
include swept reading

/-- The line ends: it is answered, or the next one is waited for. -/
theorem answerable_by_line (waits : Waits state.parser state.ring)
    (ahead : Ahead state.ring (lineEnd state.parser state.ring).length)
    (counts : state.parser.readIdx + (lineEnd state.parser state.ring).length < 2 ^ 31)
    (free : ¬ BodyDue state.parser state.ring)
    (onwards : ∀ next : State, Swept capacity next.parser next.ring →
      next.parser.message.checkState ≠ .content →
      next.parser.checkedIdx = state.ring.endIdx + (lineEnd state.parser state.ring).length →
      next.ring.startIdx = next.ring.endIdx → next.parser.checkedIdx = next.ring.endIdx →
      next.parser.readIdx = state.parser.readIdx + (lineEnd state.parser state.ring).length →
      Answerable next) : Answerable state := by
  have tracks := swept.tracks
  have whole : lineEnd state.parser state.ring ++ [] = lineEnd state.parser state.ring :=
    List.append_nil _
  rw [← whole] at ahead counts
  obtain ⟨line, next, kept, holds, blank, _, received⟩ :=
    receive_closes tracks [] reading waits (fun zero => (swept.clean zero).1) ahead counts
  simp only [whole] at received
  by_cases more : (absorb state.parser.message line).1 = .noRequest
  · rcases absorb_goes_on _ line reading more with ⟨header, _⟩ | ⟨header, empty, due, _⟩
    · have reading' : (absorb state.parser.message line).2.checkState ≠ .content := by
        rw [header]
        decide
      have narrow : next.slots < 2 ^ 31 := by
        rw [HttpBuffer.slots, kept, ← tracks.same]
        exact tracks.inside.narrow
      have finish : next.endIdx = state.ring.endIdx + (lineEnd state.parser state.ring).length :=
        holds.finish
      have waiting := waits_open { state.parser with
        readIdx := state.parser.readIdx + (lineEnd state.parser state.ring).length,
        checkedIdx := state.ring.endIdx + (lineEnd state.parser state.ring).length,
        startLine := state.ring.endIdx + (lineEnd state.parser state.ring).length,
        message := (absorb state.parser.message line).2 } next narrow holds.room (.inl finish.symm)
      simp only [if_pos more] at received
      rw [HttpParser.processLoop, nextStatus, if_neg (by simp [reading']), waiting] at received
      refine answerable_later swept _ _ _ received reading' fun swept' => ?_
      exact onwards _ swept' reading' rfl (holds.start.trans finish.symm) finish.symm rfl
    · exact absurd ⟨header, due, blank.mp empty⟩ free
  · simp only [if_neg more] at received
    exact answerable_at_once state _ _ _ _ received (answered_of_ne more)

theorem answerable_at_line (waits : Waits state.parser state.ring)
    (once : AtOnce state.parser state.ring) : Answerable state := by
  obtain ⟨settles, start, met, ahead | corner, counts⟩ := once
  · have whole : lineEnd state.parser state.ring ++ [] = lineEnd state.parser state.ring :=
      List.append_nil _
    rw [← whole] at ahead
    obtain ⟨line, next, _, _, _, held, received⟩ :=
      receive_closes swept.tracks [] reading waits (fun _ => met) ahead (by rw [whole]; omega)
    obtain rfl := held start met
    simp only [if_neg settles] at received
    exact answerable_at_once state _ _ _ _ received (answered_of_ne settles)
  · obtain ⟨parser, ring, received⟩ := receive_corner swept.tracks reading waits
      (corner.trans swept.tracks.same) start met settles counts
    exact answerable_at_once state _ _ _ _ received (answered_of_ne settles)

theorem answerable_by_closing (waits : Waits state.parser state.ring)
    (fits : InOnePiece state.parser state.ring) : Answerable state := by
  obtain ⟨announced, ahead, counts⟩ := fits
  obtain ⟨code, parser, ring, received, answered⟩ :=
    receive_closing swept.tracks reading waits announced (fun zero => (swept.clean zero).1) ahead counts
  exact answerable_at_once state _ code parser ring received answered

/-- A scan that waits where a line begins needs no line end first. -/
theorem answerable_by_refused (here : state.parser.checkedIdx = state.ring.endIdx)
    (idle : state.ring.startIdx = state.ring.endIdx)
    (near : state.ring.endIdx + 15 < state.ring.capacity)
    (counts : state.parser.readIdx + 15 < 2 ^ 31) : Answerable state := by
  have tracks := swept.tracks
  have length : refused.length = 15 := rfl
  have ahead : Ahead state.ring refused.length := ⟨by omega, by omega⟩
  have received := receive_ahead capacity state.parser state.ring tracks refused ahead (by omega)
  have holds : ParserLines.Holds (written state.ring refused) (written state.ring refused).buffer
      state.ring.endIdx refused := by
    refine ⟨?_, idle, rfl, ahead.1, written_new state.ring refused, fun _ _ => rfl⟩
    have narrow := tracks.inside.narrow
    exact Nat.lt_of_succ_lt narrow
  obtain ⟨parser, ring, answered⟩ := LineEnds.answered_by_refused (capacity + 2) state.ring.endIdx
    { state.parser with readIdx := state.parser.readIdx + refused.length } _ reading here holds
  exact answerable_at_once state _ _ _ _ (received.trans answered) (.inr rfl)

end

section
variable {capacity : Nat} {state : State} (swept : Swept capacity state.parser state.ring)
  (reading : state.parser.message.checkState ≠ .content) (wide : 19 ≤ capacity)
include swept reading wide

/-- Where the end of the ring is near, plain bytes go round it first. -/
theorem answerable_when_idle (here : state.parser.checkedIdx = state.ring.endIdx)
    (idle : state.ring.startIdx = state.ring.endIdx)
    (counts : state.parser.readIdx + state.ring.slots + 32 < 2 ^ 31) : Answerable state := by
  have same := swept.tracks.same
  have below := swept.tracks.below
  have length : lap state.ring = state.ring.slots - state.ring.endIdx + 1 := rfl
  by_cases near : state.ring.endIdx + 15 < state.ring.capacity
  · exact answerable_by_refused swept reading here idle near (by omega)
  have order := Nat.le_of_eq idle
  have crossing := receive_crosses swept.tracks reading here order (by omega) (by omega)
  refine answerable_later swept _ _ _ crossing reading fun swept' => ?_
  have ended : (lineEnd { state.parser with
      readIdx := state.parser.readIdx + lap state.ring, checkedIdx := 1 } (crossed state.ring)).length = 2 :=
    congrArg List.length (if_pos rfl)
  have free : ¬ BodyDue { state.parser with
      readIdx := state.parser.readIdx + lap state.ring, checkedIdx := 1 } (crossed state.ring) := by
    have byte := crossed_high state.ring order state.ring.startIdx (by omega) swept.tracks.inside.start
    rintro ⟨_, _, first | first | empty⟩
    · change state.ring.startIdx = 1 at first
      omega
    · change state.ring.startIdx = 1 at first
      omega
    · change (crossed state.ring).buffer state.ring.startIdx = 0 at empty
      rw [byte] at empty
      exact absurd empty (by decide)
  refine answerable_by_line swept' reading (.inl rfl) ?_ ?_ free ?_
  · rw [ended]
    change 1 + 2 < state.ring.capacity ∧ (1 < state.ring.startIdx → 1 + 2 < state.ring.startIdx)
    omega
  · rw [ended]
    change state.parser.readIdx + lap state.ring + 2 < 2 ^ 31
    omega
  · intro next swept'' reading' checked idle' here' read
    rw [ended] at checked read
    change next.parser.checkedIdx = 1 + 2 at checked
    change next.parser.readIdx = state.parser.readIdx + lap state.ring + 2 at read
    have same' := swept''.tracks.same
    exact answerable_by_refused swept'' reading' here' idle' (by omega) (by omega)

/-- The ring is filled twice, and the line in the making is gone. -/
theorem answerable_by_refills (waits : Waits state.parser state.ring) (positive : 0 < state.ring.startIdx)
    (counts : state.parser.readIdx + 3 * state.ring.slots + 64 < 2 ^ 31) : Answerable state := by
  have start := swept.tracks.inside.start
  have finish := swept.tracks.inside.finish
  have small : room state.ring ≤ state.ring.slots := by
    rw [room]
    split <;> omega
  obtain ⟨checkedIdx, filled, refilled, received⟩ :=
    receive_refills swept.tracks reading waits positive (by omega)
  refine answerable_later swept _ _ _ received reading fun swept' => ?_
  have slots : filled.slots = state.ring.slots := congrArg (· + 1) refilled.capacity
  have start' := refilled.start
  have finish' := refilled.finish
  obtain ⟨next, renewed, received'⟩ := receive_renews swept'.tracks reading (by omega) (by omega)
    (by rw [slots]; change state.parser.readIdx + room state.ring + _ < _; omega)
  refine answerable_later swept' _ _ _ received' reading fun swept'' => ?_
  have slots' : next.slots = filled.slots := congrArg (· + 1) renewed.capacity
  refine answerable_when_idle swept'' reading wide renewed.finish.symm
    (renewed.start.trans renewed.finish.symm) ?_
  change state.parser.readIdx + room state.ring + filled.slots + next.slots + 32 < 2 ^ 31
  omega

theorem answerable_by_room (waits : Waits state.parser state.ring)
    (roomy : Roomy state.parser state.ring) : Answerable state := by
  obtain ⟨_, counts, way⟩ := roomy
  have same := swept.tracks.same
  by_cases positive : 0 < state.ring.startIdx
  · exact answerable_by_refills swept reading wide waits positive counts
  rcases way.resolve_left positive with ⟨checked, finish⟩ | ⟨free, near⟩
  · exact answerable_by_refused swept reading (by omega) (by omega) (by omega) (by omega)
  · have ended := lineEnd_ends swept.tracks waits near
    have short : (lineEnd state.parser state.ring).length ≤ 2 := by
      rw [lineEnd]
      split <;> simp
    refine answerable_by_line swept reading waits ⟨by omega, by omega⟩ (by omega) free ?_
    intro next swept' reading' checked idle here read
    have slots : next.ring.slots = state.ring.slots :=
      congrArg (· + 1) (swept'.tracks.same.trans same.symm)
    exact answerable_when_idle swept' reading' wide here idle (by omega)

end

theorem unwedged_of_ready {capacity : Nat} {state : State} (rests : Rests capacity state)
    (ready : Ready state) : Unwedged state := by
  intro _
  obtain ⟨reading, waits, way⟩ := ready
  obtain ⟨swept, -⟩ := rests reading
  have same := swept.tracks.same
  constructor
  · rintro ⟨_, parser, ring, rejected⟩
    rw [waits_open _ _ swept.tracks.inside.narrow (same.symm ▸ swept.tracks.below) waits] at rejected
    cases rejected
  · rcases way with once | piece | roomy
    · exact answerable_at_line swept reading waits once
    · exact answerable_by_closing swept reading waits piece
    · exact answerable_by_room swept reading (same ▸ roomy.1) waits roomy

end OtaMqtt.Http.Progress
