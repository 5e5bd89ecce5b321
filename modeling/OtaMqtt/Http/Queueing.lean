import OtaMqtt.Http.RingStates
import OtaMqtt.Http.Session

/-! Whether a response gets into the write buffer of a session (`write_buffer` and the WRITE
branch of `regist_event` in sherry/http/http_session.cc).

A writer tries until `HttpBuffer::write` takes its payload whole, and yields in between. -/

namespace OtaMqtt.Http.Queueing

open OtaMqtt.Lib.Execution OtaMqtt.Lib.Ring OtaMqtt.Lib.Trace
open OtaMqtt.Http.Buffer OtaMqtt.Http.RingStates
open OtaMqtt.Http.Session (Waiting)

/-- The `buffer_size` with which every session makes its buffers. -/
def bufferSize : Nat := 4096

/-- How a turn of the loop of `write_buffer` ends. -/
inductive Turn where
  | returned (queued : Bool)
  | yielded (waiting : Waiting)

/-- The two overloads differ in the way they yield. -/
def writeBuffer (waiting : Waiting) (ring : HttpBuffer) (data : Nat → UInt8) (size : Nat) :
    Run (Turn × HttpBuffer) :=
  if size = 0 then .ok (.returned false, ring)
  else do
    let (accepted, next) ← ring.write data size
    .ok (if accepted then .returned true else .yielded waiting, next)

/-- The sender takes all data. -/
def registWrite (ring : HttpBuffer) : Run HttpBuffer :=
  if ring.getDataSize = 0 then .ok ring
  else (ring.readBySize ring.getDataSize).map Prod.snd

inductive Label where
  | writeBuffer (waiting : Waiting) (data : Nat → UInt8) (size : Nat)
  | registWrite

def act (ring : HttpBuffer) : Label → Run HttpBuffer
  | .writeBuffer waiting data size => (writeBuffer waiting ring data size).map Prod.snd
  | .registWrite => registWrite ring

def step (ring : HttpBuffer) (label : Label) : Option HttpBuffer := (act ring label).toOption

/-- No payload fills the buffer to the last slot of the ring. -/
def Spare (ring : HttpBuffer) : Label → Prop
  | .writeBuffer _ data size => Roomy ring (.write data size)
  | .registWrite => True

/-- Drained of data that ended at the last slot. -/
structure Wedged (ring : HttpBuffer) : Prop where
  start : ring.startIdx = 0
  finish : ring.endIdx = ring.slots
  size : ring.size = 0

section
variable {ring next : HttpBuffer} (waiting : Waiting) (data : Nat → UInt8) {size : Nat}

theorem room_add_occupied (inside : InRange ring) : room ring + occupied ring = ring.slots := by
  obtain ⟨narrow, start, finish⟩ := inside
  rw [room, occupied]
  split <;> omega

theorem writeBuffer_spec (inside : InRange ring) (positive : 1 ≤ size) :
    (room ring < size ∧ writeBuffer waiting ring data size = .ok (.yielded waiting, ring)) ∨
      (size ≤ room ring ∧ ∃ next, writeBuffer waiting ring data size = .ok (.returned true, next)) := by
  rw [writeBuffer, if_neg (by omega)]
  rcases write_spec ring inside data size with ⟨short, refused⟩ | ⟨enough, bytes, accepted⟩
  · rw [refused]
    exact .inl ⟨short, rfl⟩
  · rw [accepted]
    exact .inr ⟨enough, _, rfl⟩

theorem writeBuffer_accepted_iff (inside : InRange ring) (positive : 1 ≤ size) :
    (∃ next, writeBuffer waiting ring data size = .ok (.returned true, next)) ↔
      size + occupied ring ≤ ring.slots := by
  have free := room_add_occupied inside
  rcases writeBuffer_spec waiting data inside positive with ⟨short, yielded⟩ | ⟨enough, accepted⟩
  · constructor
    · rintro ⟨next, accepted⟩
      rw [yielded] at accepted
      cases accepted
    · intro fits
      omega
  · exact ⟨fun _ => by omega, fun _ => accepted⟩

theorem step_calls (label : Label) (taken : step ring label = some next) :
    next = ring ∨ ∃ call, RingStates.step ring call = some next ∧
      (Spare ring label → Roomy ring call) := by
  cases label with
  | writeBuffer waiting data size =>
      by_cases none : size = 0
      · left
        simp only [step, act, writeBuffer, none, if_true, Except.map, Except.toOption] at taken
        exact (Option.some.inj taken).symm
      · refine .inr ⟨.write data size, ?_, id⟩
        simp only [step, act, writeBuffer, none, if_false] at taken
        rw [RingStates.step, RingStates.act]
        cases answer : ring.write data size with
        | error reason =>
            rw [answer] at taken
            cases taken
        | ok pair =>
            rw [answer] at taken
            exact taken
  | registWrite =>
      by_cases none : ring.getDataSize = 0
      · left
        simp only [step, act, registWrite, none, if_true, Except.toOption] at taken
        exact (Option.some.inj taken).symm
      · refine .inr ⟨.readBySize ring.getDataSize, ?_, fun _ => trivial⟩
        simp only [step, act, registWrite, none, if_false] at taken
        exact taken

/-- What every session keeps: the indices are in range, and the capacity is the one it began with. -/
def Held (ring : HttpBuffer) : Prop := InRange ring ∧ ring.capacity = bufferSize

theorem fresh_held (junk : Nat → UInt8) : Held (HttpBuffer.fresh bufferSize junk) :=
  ⟨fresh_inRange bufferSize junk (by decide), rfl⟩

theorem step_held (label : Label) (held : Held ring) (taken : step ring label = some next) :
    Held next := by
  rcases step_calls label taken with rfl | ⟨call, called, -⟩
  · exact held
  · obtain ⟨inside, same⟩ := step_inRange ring call next held.1 called
    exact ⟨inside, same.trans held.2⟩

theorem run_held (junk : Nat → UInt8) (labels : List Label)
    (reached : run step (HttpBuffer.fresh bufferSize junk) labels = some ring) : Held ring :=
  run_preserves (fun _ label _ held taken => step_held label held taken) labels _ ring
    (fresh_held junk) reached

theorem spare_drained (junk : Nat → UInt8) (labels : List Label)
    (reached : run step (HttpBuffer.fresh bufferSize junk) labels = some ring)
    (spare : Guarded step Spare (HttpBuffer.fresh bufferSize junk) labels)
    (drained : ring.getDataSize = 0) : occupied ring = 0 := by
  have preserved : ∀ before label after, Kept before → Spare before label →
      step before label = some after → Kept after := by
    intro before label after kept spare taken
    rcases step_calls label taken with rfl | ⟨call, called, roomy⟩
    · exact kept
    · exact kept_step before call after kept (roomy spare) called
  have kept := run_invariant preserved labels _ ring
    ⟨fresh_inRange bufferSize junk (by decide), fresh_sound bufferSize junk⟩ spare reached
  obtain ⟨-, -, size⟩ := (sound_iff ring).mp kept.2
  rw [← size]
  exact drained

/-- A payload longer than the ring is never taken, whatever the sender does. -/
theorem long_payload_yields (junk : Nat → UInt8) (labels : List Label)
    (reached : run step (HttpBuffer.fresh bufferSize junk) labels = some ring)
    (long : bufferSize + 1 < size) :
    writeBuffer waiting ring data size = .ok (.yielded waiting, ring) := by
  obtain ⟨inside, capacity⟩ := run_held junk labels reached
  have free := room_add_occupied inside
  rw [HttpBuffer.slots, capacity] at free
  have positive : 1 ≤ size := by omega
  rcases writeBuffer_spec waiting data inside positive with ⟨-, yielded⟩ | ⟨enough, -⟩
  · exact yielded
  · omega

theorem wedged_yields (inside : InRange ring) (wedged : Wedged ring) (positive : 1 ≤ size) :
    writeBuffer waiting ring data size = .ok (.yielded waiting, ring) := by
  have full : room ring = 0 := by
    rw [room, wedged.start, wedged.finish, if_pos (Nat.zero_le _), Nat.sub_self]
  rcases writeBuffer_spec waiting data inside positive with ⟨-, yielded⟩ | ⟨enough, -⟩
  · exact yielded
  · omega

/-- From a wedged buffer no step leads anywhere else. -/
theorem wedged_stays (inside : InRange ring) (wedged : Wedged ring) (labels : List Label)
    (reached : run step ring labels = some next) : next = ring := by
  have kept : ∀ before label after, before = ring → step before label = some after → after = ring := by
    rintro before label after rfl taken
    cases label with
    | writeBuffer waiting data size =>
        by_cases none : size = 0
        · simp only [step, act, writeBuffer, none, if_true, Except.map, Except.toOption] at taken
          exact (Option.some.inj taken).symm
        · rw [step, act, wedged_yields waiting data inside wedged (Nat.pos_of_ne_zero none)] at taken
          exact (Option.some.inj taken).symm
    | registWrite =>
        rw [step, act, registWrite, HttpBuffer.getDataSize, if_pos wedged.size] at taken
        exact (Option.some.inj taken).symm
  exact run_preserves kept labels ring next rfl reached

/-- The sender takes data that end at the last slot: the size is zero, and no slot is free. -/
theorem registWrite_wedges (inside : InRange ring) (finish : ring.endIdx = ring.slots)
    (whole : ring.size = occupied ring) : ∃ next, registWrite ring = .ok next ∧ Wedged next := by
  have held : ring.size = ring.slots - ring.startIdx := by
    rw [whole, occupied, finish, if_pos (Nat.le_of_lt inside.start)]
  obtain ⟨narrow, start, -⟩ := inside
  have given : ring.readBySize ring.getDataSize =
      .ok (some ((List.range ring.size).map fun index => ring.buffer (ring.startIdx + index)),
        ring.advanced ring.size) := by
    rw [HttpBuffer.getDataSize, HttpBuffer.readBySize, if_pos (by omega), castInt_of_lt (by omega),
      if_neg (by omega), copyOut_ok _ _ _ _ (by omega), ok_bind,
      HttpBuffer.consume_ok ring _ (by omega), ok_bind]
  refine ⟨ring.advanced ring.size, ?_, ?_, ?_, ?_⟩
  · rw [registWrite, given, if_neg (by rw [HttpBuffer.getDataSize]; omega)]
    rfl
  · rw [HttpBuffer.advanced_startIdx, held, Nat.add_sub_cancel' (Nat.le_of_lt start), Nat.mod_self]
  · rw [HttpBuffer.advanced_endIdx, advanced_slots]
    exact finish
  · exact (subSize_of_le (Nat.le_refl _) (by omega)).trans (Nat.sub_self _)

end

/-- Once the sender has taken everything, a payload is taken at the next try exactly when it fits
beside the slots that the indices still enclose; while the ring was never filled to its last slot
these are none. -/
theorem drained_retry_accepted_iff (waiting : Waiting) (junk : Nat → UInt8) (labels : List Label)
    (ring : HttpBuffer) (data : Nat → UInt8) (size : Nat) (positive : 1 ≤ size)
    (reached : run step (HttpBuffer.fresh bufferSize junk) labels = some ring)
    (drained : ring.getDataSize = 0) :
    ((∃ next, writeBuffer waiting ring data size = .ok (.returned true, next)) ↔
      size + occupied ring ≤ bufferSize + 1) ∧
    (Guarded step Spare (HttpBuffer.fresh bufferSize junk) labels → occupied ring = 0) := by
  obtain ⟨inside, capacity⟩ := run_held junk labels reached
  constructor
  · rw [writeBuffer_accepted_iff waiting data inside positive, HttpBuffer.slots, capacity]
  · intro spare
    exact spare_drained junk labels reached spare drained

theorem first_response_accepted :
    ∃ next, writeBuffer .toHold (HttpBuffer.fresh bufferSize fun _ => 0) (fun _ => 97) 4097 =
      .ok (.returned true, next) :=
  (drained_retry_accepted_iff .toHold (fun _ => 0) [] _ (fun _ => 97) 4097 (by decide) rfl rfl).1.mpr
    (by decide)

theorem long_response_never_queued :
    ¬ ∀ (waiting : Waiting) (junk : Nat → UInt8) (labels : List Label) (ring : HttpBuffer)
      (data : Nat → UInt8) (size : Nat), 1 ≤ size →
      run step (HttpBuffer.fresh bufferSize junk) labels = some ring → ring.getDataSize = 0 →
        ∃ next, writeBuffer waiting ring data size = .ok (.returned true, next) := by
  intro always_queued
  obtain ⟨next, accepted⟩ := always_queued .toReady (fun _ => 0) [] _ (fun _ => 97) 4098 (by decide) rfl rfl
  rw [long_payload_yields .toReady (fun _ => 97) (fun _ => 0) [] rfl (by decide)] at accepted
  cases accepted

end OtaMqtt.Http.Queueing
