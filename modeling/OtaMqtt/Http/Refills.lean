import OtaMqtt.Http.LineEnds

/-! What plain bytes do to a connection that waits.

A ring that is filled up to its last free slot has `m_end_idx` at `m_start_idx` and counts as empty
again. The line in the making is lost then, and the scan gets to `m_start_idx`. -/

namespace OtaMqtt.Http.Refills

open OtaMqtt.Lib.Execution OtaMqtt.Lib.Ring
open OtaMqtt.Http.Buffer OtaMqtt.Http.Parser OtaMqtt.Http.Parser.HttpParser
open OtaMqtt.Http.RingStates (InRange room)
open OtaMqtt.Http.LineScan (Stops getVal_ok nextIdx_ok)
open OtaMqtt.Http.LineEnds

/-- Bytes that end no line. -/
def plain (len : Nat) : List UInt8 := List.replicate len 120

@[simp] theorem plain_length (len : Nat) : (plain len).length = len := List.length_replicate

theorem plain_getD (len index : Nat) (inside : index < len) : (plain len).getD index 0 = 120 := by
  rw [plain, List.getD_eq_getElem?_getD, List.getElem?_replicate, if_pos inside, Option.getD_some]

def Held (ring : HttpBuffer) (slot : Nat) : Prop :=
  if ring.startIdx ≤ ring.endIdx then ring.startIdx ≤ slot ∧ slot < ring.endIdx
  else slot < ring.endIdx ∨ ring.startIdx ≤ slot

/-- Every free slot has got a plain byte. -/
structure Refilled (ring next : HttpBuffer) : Prop where
  capacity : next.capacity = ring.capacity
  start : next.startIdx = ring.startIdx
  finish : next.endIdx = ring.startIdx
  held : ∀ slot, Held ring slot → next.buffer slot = ring.buffer slot
  free : ∀ slot < ring.slots, ¬ Held ring slot → next.buffer slot = 120

theorem write_fills (ring : HttpBuffer) (inside : InRange ring) (positive : 1 ≤ ring.startIdx) :
    ∃ next, ring.write (fun index => (plain (room ring)).getD index 0) (room ring) = .ok (true, next) ∧
      Refilled ring next := by
  obtain ⟨narrow, start, finish⟩ := inside
  by_cases order : ring.startIdx ≤ ring.endIdx
  · have free : room ring = ring.startIdx + (ring.slots - ring.endIdx) := if_pos order
    refine ⟨_, ring.write_wrapping _ _ order start finish (by omega) (by omega) narrow, rfl, rfl, ?_, ?_, ?_⟩
    · change ring.endIdx + room ring - ring.slots = ring.startIdx
      omega
    · intro slot held
      rw [Held, if_pos order] at held
      exact (if_neg (by omega)).trans (if_neg (by omega))
    · intro slot below empty
      rw [Held, if_pos order] at empty
      by_cases early : slot < ring.startIdx
      · exact (if_pos early).trans (plain_getD _ _ (by omega))
      · exact (if_neg early).trans ((if_pos (by omega)).trans (plain_getD _ _ (by omega)))
  · have free : room ring = ring.startIdx - ring.endIdx := if_neg order
    refine ⟨_, ring.write_behind _ _ (by omega) (by omega) (by omega) narrow, rfl, rfl, ?_, ?_, ?_⟩
    · change ring.endIdx + room ring = ring.startIdx
      omega
    · intro slot held
      rw [Held, if_neg order] at held
      exact if_neg (by omega)
    · intro slot below empty
      rw [Held, if_neg order] at empty
      exact (if_pos (by omega)).trans (plain_getD _ _ (by omega))

section
variable {parser : HttpParser} {ring : HttpBuffer} (narrow : ring.slots < 2 ^ 31)
  (below : parser.checkedIdx < ring.capacity)
include narrow below

theorem parseLine_waits (distance : Nat) (short : distance ≤ ring.capacity + 1)
    (quiet : ∀ offset < distance, ¬ Stops ring ((parser.checkedIdx + offset) % ring.capacity))
    (reached : (parser.checkedIdx + distance) % ring.capacity = ring.endIdx) :
    parser.parseLine ring = .ok (.open, { parser with checkedIdx := ring.endIdx }, ring) := by
  have fuel : ring.capacity + 2 = ring.capacity + 1 - distance + 1 + distance := by omega
  rw [parseLine, fuel, scanLine_skips ring narrow _ distance parser below quiet, reached, scanLine,
    if_pos rfl]

theorem parseLine_plain (finish : ring.endIdx < ring.capacity)
    (free : ∀ slot < ring.capacity, ring.buffer slot = 120) :
    parser.parseLine ring = .ok (.open, { parser with checkedIdx := ring.endIdx }, ring) := by
  have quiet : ∀ offset, (parser.checkedIdx + offset) % ring.capacity ≠ ring.endIdx →
      ¬ Stops ring ((parser.checkedIdx + offset) % ring.capacity) := by
    intro offset on
    rw [Stops, free _ (Nat.mod_lt _ (by omega))]
    simp [on]
  by_cases order : parser.checkedIdx ≤ ring.endIdx
  · refine parseLine_waits narrow below (ring.endIdx - parser.checkedIdx) (by omega) ?_ ?_
    · intro offset inside
      apply quiet
      rw [Nat.mod_eq_of_lt (by omega)]
      omega
    · rw [Nat.add_sub_cancel' order, Nat.mod_eq_of_lt finish]
  · refine parseLine_waits narrow below (ring.endIdx + ring.capacity - parser.checkedIdx) (by omega) ?_ ?_
    · intro offset inside
      apply quiet
      rcases mod_cases (parser.checkedIdx + offset) ring.capacity (by omega) with ⟨_, same⟩ | ⟨_, same⟩
      · omega
      · omega
    · rw [show parser.checkedIdx + (ring.endIdx + ring.capacity - parser.checkedIdx) =
        ring.endIdx + ring.capacity by omega, Nat.add_mod_right, Nat.mod_eq_of_lt finish]

theorem parseLine_lone (on : parser.checkedIdx ≠ ring.endIdx) (cr : ring.buffer parser.checkedIdx = 13)
    (more : (parser.checkedIdx + 1) % ring.capacity ≠ ring.endIdx)
    (other : ring.buffer ((parser.checkedIdx + 1) % ring.capacity) ≠ 10) :
    parser.parseLine ring = .ok (.bad, parser, ring) := by
  have inNext : (parser.checkedIdx + 1) % ring.capacity < ring.capacity := Nat.mod_lt _ (by omega)
  rw [parseLine, scanLine, if_neg on, getVal_ok ring _ below, ok_bind, if_pos cr,
    nextIdx_ok ring _ below narrow, ok_bind, if_neg more, getVal_ok ring _ inNext, ok_bind,
    if_neg other]

end

/-- Plain bytes are taken and end no line. -/
theorem receive_plain {parser parser' : HttpParser} {ring next ring' : HttpBuffer} {len : Nat}
    {status : LineStatus} (reading : parser.message.checkState ≠ .content)
    (wrote : ring.write (fun index => (plain len).getD index 0) len = .ok (true, next))
    (counts : parser.readIdx + len < 2 ^ 31)
    (parsed : HttpParser.parseLine { parser with readIdx := parser.readIdx + len } next =
      .ok (status, parser', ring')) (unfinished : status ≠ .ok) :
    receive parser ring (plain len) = .ok (.noRequest, parser', ring') := by
  rw [← plain_length len] at wrote counts parsed
  rw [plain_length len] at wrote
  rw [receive_written (by rw [plain_length]; exact wrote) counts, processLoop, nextStatus,
    if_neg (by simp [reading]), parsed, ok_bind]
  simp only [if_pos unfinished]

section
variable {capacity : Nat} {parser : HttpParser} {ring next : HttpBuffer}
  (tracks : Tracks capacity parser ring) (refilled : Refilled ring next) (readIdx : Nat)
include tracks refilled

theorem refilled_narrow : next.slots < 2 ^ 31 := by
  rw [HttpBuffer.slots, refilled.capacity]
  exact tracks.inside.narrow

theorem refilled_here (here : parser.checkedIdx = ring.startIdx) :
    HttpParser.parseLine { parser with readIdx := readIdx } next =
      .ok (.open, { parser with readIdx := readIdx, checkedIdx := ring.startIdx }, next) := by
  have below := tracks.below
  have same := tracks.same
  have capacity' := refilled.capacity
  have landed := refilled.finish
  rw [← landed]
  refine parseLine_waits (refilled_narrow tracks refilled) (by change parser.checkedIdx < _; omega) 0
    (Nat.zero_le _) (fun offset none => absurd none (Nat.not_lt_zero _)) ?_
  change (parser.checkedIdx + 0) % next.capacity = next.endIdx
  rw [Nat.add_zero, Nat.mod_eq_of_lt (by omega)]
  omega

/-- The scan walks the new bytes only. -/
theorem refilled_open (here : parser.checkedIdx = ring.endIdx) :
    HttpParser.parseLine { parser with readIdx := readIdx } next =
      .ok (.open, { parser with readIdx := readIdx, checkedIdx := ring.startIdx }, next) := by
  have narrow := refilled_narrow tracks refilled
  have line := tracks.line
  have below := tracks.below
  have same := tracks.same
  have capacity' := refilled.capacity
  have landed := refilled.finish
  have slots : ring.slots = ring.capacity + 1 := rfl
  have quiet : ∀ slot < ring.capacity, slot ≠ ring.startIdx → ¬ Held ring slot → ¬ Stops next slot := by
    intro slot inside on empty
    rw [Stops, refilled.free slot (by omega) empty, landed]
    simp [on]
  by_cases first : parser.checkedIdx = ring.startIdx
  · exact refilled_here tracks refilled readIdx first
  rw [← landed]
  by_cases order : ring.startIdx ≤ ring.endIdx
  · refine parseLine_waits narrow (by change parser.checkedIdx < _; omega)
      (ring.startIdx + ring.capacity - ring.endIdx) (by omega) ?_ ?_
    · intro offset inside
      change ¬ Stops next ((parser.checkedIdx + offset) % next.capacity)
      rw [capacity']
      rcases mod_cases (parser.checkedIdx + offset) ring.capacity (by omega) with ⟨_, stays⟩ | ⟨_, wraps⟩
      · exact quiet _ (by omega) (by omega) (by rw [Held, if_pos order]; omega)
      · exact quiet _ (by omega) (by omega) (by rw [Held, if_pos order]; omega)
    · change (parser.checkedIdx + _) % next.capacity = next.endIdx
      rw [show parser.checkedIdx + (ring.startIdx + ring.capacity - ring.endIdx) =
        ring.startIdx + next.capacity by omega, Nat.add_mod_right, Nat.mod_eq_of_lt (by omega)]
      exact landed.symm
  · refine parseLine_waits narrow (by change parser.checkedIdx < _; omega)
      (ring.startIdx - ring.endIdx) (by omega) ?_ ?_
    · intro offset inside
      change ¬ Stops next ((parser.checkedIdx + offset) % next.capacity)
      rw [Nat.mod_eq_of_lt (by omega)]
      exact quiet _ (by omega) (by omega) (by rw [Held, if_neg order]; omega)
    · change (parser.checkedIdx + _) % next.capacity = next.endIdx
      rw [here, Nat.add_sub_cancel' (by omega), Nat.mod_eq_of_lt (by omega)]
      exact landed.symm

/-- The CR in front of `m_end_idx` has lost its LF, or was behind the data and is gone. -/
theorem refilled_halfway (halfway : Halfway parser ring) :
    ∃ status checkedIdx, status ≠ .ok ∧ HttpParser.parseLine { parser with readIdx := readIdx } next =
      .ok (status, { parser with readIdx := readIdx, checkedIdx := checkedIdx }, next) := by
  have narrow := refilled_narrow tracks refilled
  have position := halfway_position tracks halfway
  have start := tracks.inside.start
  have line := tracks.line
  have below := tracks.below
  have same := tracks.same
  have capacity' := refilled.capacity
  have landed := refilled.finish
  have slots : ring.slots = ring.capacity + 1 := rfl
  obtain ⟨cr, following⟩ := halfway
  by_cases first : parser.checkedIdx = ring.startIdx
  · exact ⟨_, _, by decide, refilled_here tracks refilled readIdx first⟩
  by_cases empty : ring.startIdx = ring.endIdx
  · refine ⟨.open, next.endIdx, by decide, ?_⟩
    refine parseLine_plain narrow (by change parser.checkedIdx < _; omega) (by omega) fun slot inside => ?_
    refine refilled.free slot (by omega) ?_
    rw [Held, if_pos (Nat.le_of_eq empty)]
    omega
  · refine ⟨.bad, parser.checkedIdx, by decide, ?_⟩
    have kept : next.buffer parser.checkedIdx = 13 := by
      rw [refilled.held, cr]
      rw [Held]
      split <;> omega
    have lost : next.buffer ring.endIdx = 120 := by
      refine refilled.free _ (by omega) ?_
      rw [Held]
      split <;> omega
    have after : (parser.checkedIdx + 1) % next.capacity = ring.endIdx := by rw [capacity', following]
    refine parseLine_lone narrow (by change parser.checkedIdx < _; omega)
      (by change parser.checkedIdx ≠ _; omega) kept ?_ ?_
    · change (parser.checkedIdx + 1) % next.capacity ≠ next.endIdx
      omega
    · change next.buffer ((parser.checkedIdx + 1) % next.capacity) ≠ 10
      rw [after, lost]
      decide

end

section
variable {capacity : Nat} {parser : HttpParser} {ring : HttpBuffer}
  (tracks : Tracks capacity parser ring) (reading : parser.message.checkState ≠ .content)
include tracks reading

theorem receive_refills (waits : Waits parser ring) (positive : 1 ≤ ring.startIdx)
    (counts : parser.readIdx + room ring < 2 ^ 31) :
    ∃ checkedIdx next, Refilled ring next ∧ receive parser ring (plain (room ring)) =
      .ok (.noRequest, { parser with
        readIdx := parser.readIdx + room ring, checkedIdx := checkedIdx }, next) := by
  obtain ⟨next, wrote, refilled⟩ := write_fills ring tracks.inside positive
  have scanned : ∃ status checkedIdx, status ≠ .ok ∧
      HttpParser.parseLine { parser with readIdx := parser.readIdx + room ring } next =
        .ok (status, { parser with
          readIdx := parser.readIdx + room ring, checkedIdx := checkedIdx }, next) := by
    rcases waits with here | halfway
    · exact ⟨_, _, by decide, refilled_open tracks refilled _ here⟩
    · exact refilled_halfway tracks refilled _ halfway
  obtain ⟨status, checkedIdx, unfinished, parsed⟩ := scanned
  exact ⟨checkedIdx, next, refilled, receive_plain reading wrote counts parsed unfinished⟩

/-- A ring that counts as empty is filled once more: wherever the scan stood, it gets to
`m_start_idx`. -/
theorem receive_renews (positive : 1 ≤ ring.startIdx) (empty : ring.startIdx = ring.endIdx)
    (counts : parser.readIdx + ring.slots < 2 ^ 31) :
    ∃ next, Refilled ring next ∧ receive parser ring (plain ring.slots) =
      .ok (.noRequest, { parser with
        readIdx := parser.readIdx + ring.slots, checkedIdx := ring.startIdx }, next) := by
  obtain ⟨next, wrote, refilled⟩ := write_fills ring tracks.inside positive
  have start := tracks.inside.start
  have line := tracks.line
  have below := tracks.below
  have same := tracks.same
  have slots : ring.slots = ring.capacity + 1 := rfl
  have free : room ring = ring.slots := by
    rw [room, if_pos (Nat.le_of_eq empty)]
    omega
  rw [free] at wrote
  have capacity' := refilled.capacity
  have landed := refilled.finish
  have narrow : next.slots < 2 ^ 31 := by
    rw [HttpBuffer.slots, capacity']
    exact tracks.inside.narrow
  have parsed : HttpParser.parseLine { parser with readIdx := parser.readIdx + ring.slots } next =
      .ok (.open, { parser with
        readIdx := parser.readIdx + ring.slots, checkedIdx := next.endIdx }, next) := by
    refine parseLine_plain narrow (by change parser.checkedIdx < _; omega) (by omega) fun slot inside => ?_
    refine refilled.free slot (by omega) ?_
    rw [Held, if_pos (Nat.le_of_eq empty)]
    omega
  rw [landed] at parsed
  exact ⟨next, refilled, receive_plain reading wrote counts parsed (by decide)⟩

end

/-- The bytes that carry `m_end_idx` past the last slot, to the second one of the ring. -/
def lap (ring : HttpBuffer) : Nat := ring.slots - ring.endIdx + 1

/-- The ring after `lap` plain bytes. -/
def crossed (ring : HttpBuffer) : HttpBuffer :=
  { ring with
    buffer := fun index =>
      if index < ring.startIdx then (plain (lap ring)).getD (ring.slots - ring.endIdx + index) 0
      else ring.pasted (fun index => (plain (lap ring)).getD index 0) (ring.slots - ring.endIdx) index,
    endIdx := 1, size := (ring.size + lap ring) % 2 ^ 64 }

theorem crossed_high (ring : HttpBuffer) (order : ring.startIdx ≤ ring.endIdx) (slot : Nat)
    (first : ring.endIdx ≤ slot) (last : slot < ring.slots) : (crossed ring).buffer slot = 120 := by
  refine (if_neg (by omega)).trans ((if_pos (by omega)).trans ?_)
  exact plain_getD _ _ (by rw [lap]; omega)

theorem crossed_zero (ring : HttpBuffer) (free : 0 < ring.startIdx) : (crossed ring).buffer 0 = 120 :=
  (if_pos free).trans (plain_getD _ _ (by rw [lap]; omega))

section
variable {capacity : Nat} {parser : HttpParser} {ring : HttpBuffer}
  (tracks : Tracks capacity parser ring) (reading : parser.message.checkState ≠ .content)
include tracks

theorem write_crosses (order : ring.startIdx ≤ ring.endIdx) (free : 1 ≤ ring.startIdx) :
    ring.write (fun index => (plain (lap ring)).getD index 0) (lap ring) = .ok (true, crossed ring) := by
  obtain ⟨narrow, start, finish⟩ := tracks.inside
  have length : lap ring = ring.slots - ring.endIdx + 1 := rfl
  have lands : ring.endIdx + lap ring - ring.slots = 1 := by omega
  rw [ring.write_wrapping _ _ order start finish (by omega) (by omega) narrow, lands]
  rfl

theorem parseLine_crossed (here : parser.checkedIdx = ring.endIdx) (order : ring.startIdx ≤ ring.endIdx)
    (free : 1 < ring.startIdx) (readIdx : Nat) :
    HttpParser.parseLine { parser with readIdx := readIdx } (crossed ring) =
      .ok (.open, { parser with readIdx := readIdx, checkedIdx := 1 }, crossed ring) := by
  have below := tracks.below
  have same := tracks.same
  have quiet : ∀ offset < ring.capacity - ring.endIdx + 1,
      ¬ Stops (crossed ring) ((parser.checkedIdx + offset) % ring.capacity) := by
    intro offset inside
    rcases mod_cases (parser.checkedIdx + offset) ring.capacity (by omega) with ⟨_, stays⟩ | ⟨_, wraps⟩
    · have slots : ring.slots = ring.capacity + 1 := rfl
      have on : parser.checkedIdx + offset ≠ (crossed ring).endIdx := by
        change _ ≠ 1
        omega
      rw [stays, Stops, crossed_high ring order _ (by omega) (by omega)]
      simp [on]
    · have on : 0 ≠ (crossed ring).endIdx := by
        change _ ≠ 1
        omega
      rw [wraps, show parser.checkedIdx + offset - ring.capacity = 0 by omega, Stops,
        crossed_zero ring (by omega)]
      simp [on]
  refine @parseLine_waits { parser with readIdx := readIdx } (crossed ring) tracks.inside.narrow
    (by change parser.checkedIdx < ring.capacity; omega) (ring.capacity - ring.endIdx + 1)
    (by change _ ≤ ring.capacity + 1; omega) quiet ?_
  change (parser.checkedIdx + (ring.capacity - ring.endIdx + 1)) % ring.capacity = 1
  rw [show parser.checkedIdx + (ring.capacity - ring.endIdx + 1) = 1 + ring.capacity by omega,
    Nat.add_mod_right, Nat.mod_eq_of_lt (by omega)]

include reading in
theorem receive_crosses (here : parser.checkedIdx = ring.endIdx) (order : ring.startIdx ≤ ring.endIdx)
    (free : 1 < ring.startIdx) (counts : parser.readIdx + lap ring < 2 ^ 31) :
    receive parser ring (plain (lap ring)) = .ok (.noRequest, { parser with
      readIdx := parser.readIdx + lap ring, checkedIdx := 1 }, crossed ring) :=
  receive_plain reading (write_crosses tracks order (by omega)) counts
    (parseLine_crossed tracks here order free _) (by decide)

end

end OtaMqtt.Http.Refills
