import OtaMqtt.Http.Parser
import OtaMqtt.Http.RingStates

/-! When the loop of `parse_line` comes to an end.

The loop leaves at `m_end_idx`, a CR or an LF. Its index is reduced modulo `m_capacity`, so
it visits the slots below `m_capacity` and no other, while `write` can leave `m_end_idx` at
`m_capacity` or behind it. -/

namespace OtaMqtt.Http.LineScan

open OtaMqtt.Lib.Execution OtaMqtt.Lib.Ring OtaMqtt.Lib.Trace
open OtaMqtt.Http.Buffer OtaMqtt.Http.Parser OtaMqtt.Http.Parser.HttpParser
open OtaMqtt.Http.RingStates (InRange step_inRange fresh_inRange)

theorem nextIdx_ok (ring : HttpBuffer) (idx : Nat) (below : idx < ring.capacity)
    (narrow : ring.slots < 2 ^ 31) : ring.nextIdx idx = .ok ((idx + 1) % ring.capacity) := by
  have slots : ring.slots = ring.capacity + 1 := rfl
  exact ring.nextIdx_eq (by omega) (by omega)

theorem nextIdx_below (ring : HttpBuffer) (idx next : Nat) (moved : ring.nextIdx idx = .ok next) :
    next < ring.capacity := by
  rw [HttpBuffer.nextIdx, bind_eq_ok] at moved
  obtain ⟨_, _, rest⟩ := moved
  split at rest
  · cases rest
  · cases rest
    exact Nat.mod_lt _ (by omega)

theorem setVal_cases (ring next : HttpBuffer) (value : UInt8) (idx : Nat)
    (written : ring.setVal value idx = .ok next) :
    next = { ring with buffer := Function.update ring.buffer idx value } := by
  rw [HttpBuffer.setVal, bind_eq_ok] at written
  obtain ⟨bytes, stored, rest⟩ := written
  rw [store] at stored
  split at stored
  · cases stored
    cases rest
    rfl
  · cases stored

/-- A scan moves `m_checked_idx` along the slots below `m_capacity` and changes bytes of the
ring, nothing else. -/
def Frames (parser parser' : HttpParser) (ring ring' : HttpBuffer) : Prop :=
  ∃ checkedIdx bytes, parser' = { parser with checkedIdx := checkedIdx } ∧
    ring' = { ring with buffer := bytes } ∧
    (parser.checkedIdx < ring.capacity → checkedIdx < ring.capacity)

theorem Frames.refl (parser : HttpParser) (ring : HttpBuffer) : Frames parser parser ring ring :=
  ⟨_, _, rfl, rfl, id⟩

theorem line_end_frames (parser parser' : HttpParser) (ring ring' : HttpBuffer)
    (status : LineStatus) (first second from' : Nat)
    (ended : (do
      let ring ← ring.setVal 0 first
      let ring ← ring.setVal 0 second
      let checkedIdx ← ring.nextIdx from'
      .ok (LineStatus.ok, { parser with checkedIdx := checkedIdx }, ring) :
        Run (LineStatus × HttpParser × HttpBuffer)) = .ok (status, parser', ring')) :
    Frames parser parser' ring ring' := by
  rw [bind_eq_ok] at ended
  obtain ⟨once, first, ended⟩ := ended
  rw [bind_eq_ok] at ended
  obtain ⟨twice, second, ended⟩ := ended
  rw [bind_eq_ok] at ended
  obtain ⟨checkedIdx, moved, done⟩ := ended
  have below := nextIdx_below _ _ _ moved
  rw [setVal_cases _ _ _ _ second, setVal_cases _ _ _ _ first] at done below
  cases done
  exact ⟨_, _, rfl, rfl, fun _ => below⟩

theorem scanLine_frames (endIdx fuel : Nat) (parser parser' : HttpParser) (ring ring' : HttpBuffer)
    (status : LineStatus) (scanned : scanLine endIdx fuel parser ring = .ok (status, parser', ring')) :
    Frames parser parser' ring ring' := by
  induction fuel generalizing parser with
  | zero => cases scanned
  | succ fuel ih =>
      rw [scanLine] at scanned
      split at scanned
      · cases scanned
        exact .refl _ _
      rw [bind_eq_ok] at scanned
      obtain ⟨temp, _, scanned⟩ := scanned
      split at scanned
      · rw [bind_eq_ok] at scanned
        obtain ⟨nextIdx, _, scanned⟩ := scanned
        split at scanned
        · cases scanned
          exact .refl _ _
        rw [bind_eq_ok] at scanned
        obtain ⟨following, _, scanned⟩ := scanned
        split at scanned
        · exact line_end_frames parser parser' ring ring' status _ _ _ scanned
        · cases scanned
          exact .refl _ _
      split at scanned
      · rw [bind_eq_ok] at scanned
        obtain ⟨preIdx, _, scanned⟩ := scanned
        split at scanned
        · cases scanned
          exact .refl _ _
        rw [bind_eq_ok] at scanned
        obtain ⟨before, _, scanned⟩ := scanned
        split at scanned
        · exact line_end_frames parser parser' ring ring' status _ _ _ scanned
        · cases scanned
          exact .refl _ _
      · rw [bind_eq_ok] at scanned
        obtain ⟨checkedIdx, moved, scanned⟩ := scanned
        obtain ⟨last, bytes, framed, changed, below⟩ := ih _ scanned
        exact ⟨last, bytes, framed, changed, fun _ => below (nextIdx_below _ _ _ moved)⟩

def Stops (ring : HttpBuffer) (idx : Nat) : Prop :=
  idx = ring.endIdx ∨ ring.buffer idx = 13 ∨ ring.buffer idx = 10

/-- The loop has a last round, whatever number of rounds that takes. -/
def Terminates (parser : HttpParser) (ring : HttpBuffer) : Prop :=
  ∃ fuel outcome, scanLine ring.endIdx fuel parser ring = .ok outcome

theorem getVal_ok (ring : HttpBuffer) (idx : Nat) (below : idx < ring.capacity) :
    ring.getVal idx = .ok (ring.buffer idx) := by
  have inside : idx < ring.slots := Nat.lt_succ_of_lt below
  rw [HttpBuffer.getVal, load, if_pos inside]

theorem setVal_ok (ring : HttpBuffer) (value : UInt8) (idx : Nat) (below : idx < ring.capacity) :
    ring.setVal value idx = .ok { ring with buffer := Function.update ring.buffer idx value } := by
  have inside : idx < ring.slots := Nat.lt_succ_of_lt below
  rw [HttpBuffer.setVal, store, if_pos inside, ok_bind]

theorem preIdx_ok (ring : HttpBuffer) (idx : Nat) (below : idx < ring.capacity)
    (narrow : ring.slots < 2 ^ 31) :
    ∃ before, ring.preIdx idx = .ok before ∧ before < ring.capacity := by
  rw [ring.preIdx_eq idx narrow (by omega)]
  split
  · exact ⟨_, rfl, by omega⟩
  · exact ⟨_, rfl, by omega⟩

theorem line_end_ok (ring : HttpBuffer) (parser : HttpParser) (narrow : ring.slots < 2 ^ 31)
    (first second from' : Nat) (inFirst : first < ring.capacity) (inSecond : second < ring.capacity)
    (inFrom : from' < ring.capacity) :
    (do
      let ring ← ring.setVal 0 first
      let ring ← ring.setVal 0 second
      let checkedIdx ← ring.nextIdx from'
      .ok (LineStatus.ok, { parser with checkedIdx := checkedIdx }, ring) :
        Run (LineStatus × HttpParser × HttpBuffer)) =
      .ok (.ok, { parser with checkedIdx := (from' + 1) % ring.capacity }, { ring with
        buffer := Function.update (Function.update ring.buffer first 0) second 0 }) := by
  have once := setVal_ok ring 0 first inFirst
  have twice := setVal_ok { ring with buffer := Function.update ring.buffer first 0 } 0 second inSecond
  have moved := nextIdx_ok { ring with
    buffer := Function.update (Function.update ring.buffer first 0) second 0 } from' inFrom narrow
  rw [once, ok_bind, twice, ok_bind, moved, ok_bind]

section
variable (ring : HttpBuffer) (parser : HttpParser) (narrow : ring.slots < 2 ^ 31)
  (below : parser.checkedIdx < ring.capacity)
include narrow below

theorem scanLine_goes_on (fuel : Nat) (on : ¬ Stops ring parser.checkedIdx) :
    scanLine ring.endIdx (fuel + 1) parser ring =
      scanLine ring.endIdx fuel
        { parser with checkedIdx := (parser.checkedIdx + 1) % ring.capacity } ring := by
  have quiet := not_or.mp on
  have plain := not_or.mp quiet.2
  rw [scanLine, if_neg quiet.1, getVal_ok ring _ below, ok_bind, if_neg plain.1, if_neg plain.2,
    nextIdx_ok ring _ below narrow, ok_bind]

theorem scanLine_stops (fuel : Nat) (stops : Stops ring parser.checkedIdx) :
    ∃ outcome, scanLine ring.endIdx (fuel + 1) parser ring = .ok outcome := by
  rw [scanLine]
  by_cases finished : parser.checkedIdx = ring.endIdx
  · rw [if_pos finished]
    exact ⟨_, rfl⟩
  rw [if_neg finished, getVal_ok ring _ below, ok_bind]
  have inNext : (parser.checkedIdx + 1) % ring.capacity < ring.capacity := Nat.mod_lt _ (by omega)
  by_cases cr : ring.buffer parser.checkedIdx = 13
  · rw [if_pos cr, nextIdx_ok ring _ below narrow, ok_bind]
    split
    · exact ⟨_, rfl⟩
    · rw [getVal_ok ring _ inNext, ok_bind]
      split
      · exact ⟨_, line_end_ok ring parser narrow _ _ _ below inNext inNext⟩
      · exact ⟨_, rfl⟩
  · have lf : ring.buffer parser.checkedIdx = 10 := (stops.resolve_left finished).resolve_left cr
    obtain ⟨before, stepped, inBefore⟩ := preIdx_ok ring _ below narrow
    rw [if_neg cr, if_pos lf, stepped, ok_bind]
    split
    · exact ⟨_, rfl⟩
    · rw [getVal_ok ring _ inBefore, ok_bind]
      split
      · exact ⟨_, line_end_ok ring parser narrow _ _ _ inBefore below below⟩
      · exact ⟨_, rfl⟩

end

theorem scanLine_reaches (ring : HttpBuffer) (narrow : ring.slots < 2 ^ 31) (distance : Nat)
    (parser : HttpParser) (below : parser.checkedIdx < ring.capacity)
    (stops : Stops ring ((parser.checkedIdx + distance) % ring.capacity)) :
    ∃ outcome, scanLine ring.endIdx (distance + 1) parser ring = .ok outcome := by
  induction distance generalizing parser with
  | zero =>
      rw [Nat.add_zero, Nat.mod_eq_of_lt below] at stops
      exact scanLine_stops ring parser narrow below 0 stops
  | succ distance ih =>
      by_cases here : Stops ring parser.checkedIdx
      · exact scanLine_stops ring parser narrow below (distance + 1) here
      · rw [scanLine_goes_on ring parser narrow below (distance + 1) here]
        apply ih
        · exact Nat.mod_lt _ (by omega)
        · rw [Nat.mod_add_mod, Nat.add_assoc, Nat.add_comm 1 distance]
          exact stops

theorem scanLine_turns (ring : HttpBuffer) (narrow : ring.slots < 2 ^ 31) (fuel : Nat)
    (parser : HttpParser) (below : parser.checkedIdx < ring.capacity)
    (none : ∀ slot < ring.capacity, ¬ Stops ring slot) :
    scanLine ring.endIdx fuel parser ring = .error .outOfFuel := by
  induction fuel generalizing parser with
  | zero => rfl
  | succ fuel ih =>
      rw [scanLine_goes_on ring parser narrow below fuel (none _ below)]
      exact ih _ (Nat.mod_lt _ (by omega))

theorem exists_distance (idx slot modulus : Nat) (inside : idx < modulus) (target : slot < modulus) :
    ∃ distance, (idx + distance) % modulus = slot := by
  refine ⟨slot + modulus - idx, ?_⟩
  rw [show idx + (slot + modulus - idx) = slot + modulus by omega, Nat.add_mod_right,
    Nat.mod_eq_of_lt target]

theorem terminates_iff (ring : HttpBuffer) (narrow : ring.slots < 2 ^ 31) (parser : HttpParser)
    (below : parser.checkedIdx < ring.capacity) :
    Terminates parser ring ↔ ∃ slot < ring.capacity, Stops ring slot := by
  constructor
  · rintro ⟨fuel, outcome, scanned⟩
    by_contra never
    rw [scanLine_turns ring narrow fuel parser below
      (fun slot inside stops => never ⟨slot, inside, stops⟩)] at scanned
    cases scanned
  · rintro ⟨slot, inside, stops⟩
    obtain ⟨distance, reached⟩ := exists_distance parser.checkedIdx slot ring.capacity below inside
    rw [← reached] at stops
    exact ⟨_, scanLine_reaches ring narrow distance parser below stops⟩

/-- What happens to a parser and its ring between two scans. -/
inductive Move where
  | write (data : Nat → UInt8) (len : Nat)
  | readByEnd (idx : Int)
  | parseLine

structure State where
  parser : HttpParser
  ring : HttpBuffer

def State.fresh (capacity bufferSize : Nat) (junk : Nat → UInt8) : State :=
  ⟨HttpParser.fresh bufferSize, HttpBuffer.fresh capacity junk⟩

/-- Only an accepted write counts; a scan counts when it returns. -/
def step (state : State) : Move → Option State
  | .write data len =>
      match state.ring.write data len with
      | .ok (true, ring) => some ⟨state.parser, ring⟩
      | _ => none
  | .readByEnd idx => (RingStates.step state.ring (.readByEnd idx)).map (⟨state.parser, ·⟩)
  | .parseLine =>
      match state.parser.parseLine state.ring with
      | .ok (_, parser, ring) => some ⟨parser, ring⟩
      | .error _ => none

structure Walks (capacity : Nat) (state : State) : Prop where
  inside : InRange state.ring
  same : state.ring.capacity = capacity
  below : state.parser.checkedIdx < capacity

theorem walks_step (capacity : Nat) (state : State) (move : Move) (next : State)
    (walks : Walks capacity state) (taken : step state move = some next) : Walks capacity next := by
  obtain ⟨inside, same, below⟩ := walks
  cases move with
  | write data len =>
      simp only [step] at taken
      split at taken
      · rename_i ring wrote
        cases taken
        have moved : RingStates.step state.ring (.write data len) = some ring := by
          rw [RingStates.step, RingStates.act, wrote]
          rfl
        have kept := step_inRange _ _ _ inside moved
        exact ⟨kept.1, kept.2.trans same, below⟩
      · cases taken
  | readByEnd idx =>
      obtain ⟨ring, moved, rfl⟩ := Option.map_eq_some_iff.mp taken
      have kept := step_inRange _ _ _ inside moved
      exact ⟨kept.1, kept.2.trans same, below⟩
  | parseLine =>
      simp only [step] at taken
      split at taken
      · rename_i status parser ring scanned
        cases taken
        obtain ⟨checkedIdx, bytes, rfl, rfl, stays⟩ := scanLine_frames _ _ _ _ _ _ _ scanned
        refine ⟨⟨inside.narrow, inside.start, inside.finish⟩, same, ?_⟩
        rw [← same] at below ⊢
        exact stays below
      · cases taken

theorem run_walks (capacity bufferSize : Nat) (positive : 1 ≤ capacity)
    (narrow : capacity + 1 < 2 ^ 31) (junk : Nat → UInt8) (moves : List Move) (state : State)
    (reached : run step (State.fresh capacity bufferSize junk) moves = some state) :
    Walks capacity state := by
  have start : Walks capacity (State.fresh capacity bufferSize junk) :=
    ⟨fresh_inRange capacity junk narrow, rfl, positive⟩
  exact run_preserves (walks_step capacity) moves _ state start reached

/-- In every state reached by accepted writes, `read_by_end` calls and earlier scans, the next
scan terminates exactly when `m_end_idx` is below `m_capacity` or one of the slots below
`m_capacity` holds a CR or an LF. -/
theorem scan_terminates_iff (capacity bufferSize : Nat) (positive : 1 ≤ capacity)
    (narrow : capacity + 1 < 2 ^ 31) (junk : Nat → UInt8) (moves : List Move) (state : State)
    (reached : run step (State.fresh capacity bufferSize junk) moves = some state) :
    Terminates state.parser state.ring ↔
      state.ring.endIdx < capacity ∨
        ∃ slot < capacity, state.ring.buffer slot = 13 ∨ state.ring.buffer slot = 10 := by
  obtain ⟨inside, rfl, below⟩ := run_walks capacity bufferSize positive narrow junk moves state reached
  rw [terminates_iff state.ring inside.narrow state.parser below]
  constructor
  · rintro ⟨slot, inside, finish | lineEnd⟩
    · exact .inl (finish ▸ inside)
    · exact .inr ⟨slot, inside, lineEnd⟩
  · rintro (finish | ⟨slot, inside, lineEnd⟩)
    · exact ⟨_, finish, .inl rfl⟩
    · exact ⟨slot, inside, .inr lineEnd⟩

/-- A lone CR in the last slot below the end stops a scan of a full buffer. -/
theorem full_buffer_with_line_end_scanned : ∃ state,
    run step (State.fresh 4 4 fun _ => 0) [.write (fun index => if index = 3 then 13 else 97) 4] =
      some state ∧ Terminates state.parser state.ring := by
  have seen : ((run step (State.fresh 4 4 fun _ => 0)
      [.write (fun index => if index = 3 then 13 else 97) 4]).map fun state => state.ring.buffer 3) =
      some 13 := by decide +kernel
  obtain ⟨state, reached, held⟩ := Option.map_eq_some_iff.mp seen
  refine ⟨state, reached, ?_⟩
  exact (scan_terminates_iff 4 4 (by decide) (by decide) _ _ state reached).mpr
    (.inr ⟨3, by decide, .inl held⟩)

/-- Four bytes `a` into a buffer of capacity four: `m_end_idx` is 4, an index that the scan
does not visit. -/
theorem full_buffer_scanned_for_ever :
    ¬ ∀ (capacity bufferSize : Nat) (junk : Nat → UInt8) (moves : List Move) (state : State),
      1 ≤ capacity → capacity + 1 < 2 ^ 31 →
      run step (State.fresh capacity bufferSize junk) moves = some state →
      Terminates state.parser state.ring := by
  intro always_terminates
  have seen : ((run step (State.fresh 4 4 fun _ => 0) [.write (fun _ => 97) 4]).map fun state =>
      (state.ring.endIdx, (List.range 4).map state.ring.buffer)) =
      some (4, [97, 97, 97, 97]) := by decide +kernel
  obtain ⟨state, reached, held⟩ := Option.map_eq_some_iff.mp seen
  have walks := run_walks 4 4 (by decide) (by decide) _ _ state reached
  have ends := always_terminates 4 4 _ _ state (by decide) (by decide) reached
  rw [terminates_iff state.ring walks.inside.narrow state.parser (walks.same ▸ walks.below),
    walks.same] at ends
  obtain ⟨slot, inside, stops⟩ := ends
  simp only [Prod.mk.injEq, List.range_succ, List.range_zero, List.nil_append, List.map_cons,
    List.cons_append, List.map_nil, List.cons.injEq] at held
  obtain ⟨finish, first, second, third, fourth, _⟩ := held
  rw [Stops, finish] at stops
  interval_cases slot <;> simp [first, second, third, fourth] at stops

end OtaMqtt.Http.LineScan
