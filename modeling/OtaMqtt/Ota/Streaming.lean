import OtaMqtt.Http.Delivery
import OtaMqtt.Ota.Framing

/-! The loop of `send_file` (sherry/ota_manager.cc) when `read` may fail, with the calls of
`response_to_server` that it waits for.

The loop ends at a count of zero only; the count of a failed `read` is handed on as a size. A call
comes back when the write buffer of the session has taken the chunk. -/

namespace OtaMqtt.Ota.Streaming

open OtaMqtt.Lib.Trace
open OtaMqtt.Http
open OtaMqtt.Http.Delivery (Connection CanReturn Spared Returns)
open OtaMqtt.Ota.Framing

/-- What `read` reports; no bytes stand for the end of the file. -/
inductive Reading (bufferSize : Nat) where
  | bytes (chunk : List Char) (fits : chunk.length ≤ bufferSize)
  | error

namespace Reading

variable {bufferSize : Nat}

/-- The value that `read` returns. -/
def count : Reading bufferSize → Int
  | bytes chunk _ => chunk.length
  | error => -1

def chunk : Reading bufferSize → List Char
  | bytes chunk _ => chunk
  | error => []

/-- The buffer after `read`. -/
def fill (buffer : List Char) : Reading bufferSize → List Char
  | bytes chunk _ => chunk ++ buffer.drop chunk.length
  | error => buffer

def ends (result : Reading bufferSize) : Bool := result.count ≤ 0

end Reading

/-- The conversion of an `ssize_t` to a `size_t`. -/
def toSize (count : Int) : Nat := (count % 2 ^ 64).toNat

structure Call where
  buffer : List Char
  size : Nat

def Call.sent (call : Call) : List Char := call.buffer.take call.size

def Call.data (call : Call) (index : Nat) : UInt8 := (call.buffer.map Char.toUInt8).getD index 0

/-- Where the loop stands: at its `read`, in a call, or behind the end of the file. -/
inductive Stage where
  | reading
  | responding (call : Call) (stage : Delivery.Stage)
  | stopped

/-- `results` is what `read` has reported so far. -/
structure State (bufferSize : Nat) where
  results : List (Reading bufferSize)
  buffer : List Char
  calls : List Call
  stage : Stage
  connection : Connection

inductive Label (bufferSize : Nat) where
  | read (result : Reading bufferSize)
  | deliver (label : Delivery.Label)

variable {bufferSize : Nat}

/-- `junk` is in the buffer at first. -/
def start (junk : List Char) (connection : Connection) : State bufferSize :=
  ⟨[], junk, [], .reading, connection⟩

/-- A call that has come back leads to the next `read`. -/
def settle (call : Call) : Delivery.Stage → Stage
  | .returned _ => .reading
  | stage => .responding call stage

/-- A turn of the loop up to the wait in `response_to_server`. -/
def State.take (state : State bufferSize) (result : Reading bufferSize) : State bufferSize :=
  let buffer := result.fill state.buffer
  let results := state.results ++ [result]
  if result.count = 0 then { state with results := results, buffer := buffer, stage := .stopped }
  else
    let call : Call := ⟨buffer, toSize result.count⟩
    { state with
      results := results
      buffer := buffer
      calls := state.calls ++ [call]
      stage := settle call (Delivery.enter state.connection).stage }

/-- The sender goes on while the loop reads, and behind it. -/
def step (state : State bufferSize) : Label bufferSize → Option (State bufferSize)
  | .read result =>
      match state.stage with
      | .reading => some (state.take result)
      | _ => none
  | .deliver label =>
      match state.stage with
      | .responding call stage =>
          (Delivery.step .toHold call.data call.size ⟨stage, state.connection⟩ label).map fun next =>
            { state with stage := settle call next.stage, connection := next.connection }
      | _ =>
          (Delivery.step .toHold (fun _ => 0) 0 ⟨.returned true, state.connection⟩ label).map fun next =>
            { state with connection := next.connection }

/-- The results before the first one that ends the file or fails. -/
def beforeEnd (results : List (Reading bufferSize)) : List (Reading bufferSize) :=
  results.takeWhile fun result => !result.ends

/-- The loop has stopped exactly behind the first result that ends the file or fails, has handed over
what came before, and a call that it is in can come back. -/
structure Faithful (state : State bufferSize) : Prop where
  stops : state.stage = .stopped ↔ ∃ result ∈ state.results, result.ends = true
  lengths : ∀ call ∈ state.calls, 1 ≤ call.size ∧ call.size ≤ bufferSize
  content : state.calls.flatMap Call.sent = (beforeEnd state.results).flatMap Reading.chunk
  returns : ∀ call stage, state.stage = .responding call stage →
    Returns .toHold call.data call.size ⟨stage, state.connection⟩

/-- `read` does not fail, there is room for a chunk when it is handed over, and the sender leaves room
for a chunk that waits. -/
def Unhindered (state : State bufferSize) : Label bufferSize → Prop
  | .read result => state.stage = .reading →
      result ≠ .error ∧ (result.count ≠ 0 →
        CanReturn (Delivery.enter state.connection) result.chunk.length)
  | .deliver label => ∀ call stage, state.stage = .responding call stage →
      Spared ⟨stage, state.connection⟩ call.size label

section
variable {junk : List Char} {state next : State bufferSize}

theorem ends_cases (result : Reading bufferSize) (ended : result.ends = true) :
    result = .error ∨ result.count = 0 := by
  cases result with
  | bytes chunk fits =>
      right
      simpa [Reading.ends, Reading.count] using ended
  | error => exact .inl rfl

theorem ends_of_zero (result : Reading bufferSize) (zero : result.count = 0) : result.ends = true := by
  simp [Reading.ends, zero]

theorem step_responding {call : Call} {stage : Delivery.Stage} {reached : Delivery.State}
    {label : Delivery.Label} (responding : state.stage = .responding call stage)
    (ran : Delivery.step .toHold call.data call.size ⟨stage, state.connection⟩ label = some reached) :
    step state (.deliver label) =
      some { state with stage := settle call reached.stage, connection := reached.connection } := by
  rw [step, responding]
  dsimp only
  rw [ran]
  rfl

theorem bytes_of_going (result : Reading bufferSize) (going : result.ends = false) :
    0 < result.chunk.length ∧ result.chunk.length ≤ bufferSize ∧
      result.count = result.chunk.length ∧
      ∀ buffer, result.fill buffer = result.chunk ++ buffer.drop result.chunk.length := by
  cases result with
  | bytes chunk fits =>
      refine ⟨?_, fits, rfl, fun _ => rfl⟩
      have some : ¬ (chunk.length : Int) ≤ 0 := of_decide_eq_false going
      dsimp only [Reading.chunk]
      omega
  | error => simp [Reading.ends, Reading.count] at going

theorem toSize_length (chunk : List Char) (bound : chunk.length < 2 ^ 63) :
    toSize chunk.length = chunk.length := by
  unfold toSize
  omega

theorem settle_responding {call other : Call} {stage stage' : Delivery.Stage}
    (same : settle call stage = .responding other stage') :
    other = call ∧ stage' = stage ∧ ∀ queued, stage ≠ .returned queued := by
  cases stage with
  | waiting =>
      cases same
      exact ⟨rfl, rfl, nofun⟩
  | yielded awake =>
      cases same
      exact ⟨rfl, rfl, nofun⟩
  | returned queued => cases same

theorem settle_running (call : Call) (stage : Delivery.Stage) : settle call stage ≠ .stopped := by
  cases stage with
  | waiting => nofun
  | yielded awake => nofun
  | returned queued => nofun

theorem beforeEnd_whole {results : List (Reading bufferSize)}
    (going : ¬ ∃ result ∈ results, result.ends = true) : beforeEnd results = results := by
  apply List.takeWhile_eq_self_iff.mpr
  intro earlier member
  by_contra ended
  exact going ⟨earlier, member, by simpa using ended⟩

theorem beforeEnd_append {results : List (Reading bufferSize)}
    (going : ¬ ∃ result ∈ results, result.ends = true) (result : Reading bufferSize) :
    beforeEnd (results ++ [result]) = results ++ if result.ends then [] else [result] := by
  have whole := beforeEnd_whole going
  unfold beforeEnd at whole ⊢
  rw [List.takeWhile_append, if_pos (by rw [whole]), List.takeWhile_cons, List.takeWhile_nil]
  cases result.ends with
  | true => rfl
  | false => rfl

structure Sound (state : State bufferSize) : Prop where
  faithful : Faithful state
  inside : RingStates.InRange state.connection.ring
  running : ∀ call stage, state.stage = .responding call stage → ∀ queued, stage ≠ .returned queued

theorem Sound.canReturn (sound : Sound state) {call : Call} {stage : Delivery.Stage}
    (responding : state.stage = .responding call stage) :
    CanReturn ⟨stage, state.connection⟩ call.size :=
  (Delivery.returns_iff sound.inside).mp (sound.faithful.returns call stage responding)

theorem Sound.going (sound : Sound state) (reading : state.stage = .reading) :
    ¬ ∃ result ∈ state.results, result.ends = true := by
  intro ended
  have stopped := sound.faithful.stops.mpr ended
  rw [reading] at stopped
  cases stopped

theorem sound_start (junk : List Char) (connection : Connection)
    (inside : RingStates.InRange connection.ring) :
    Sound (start junk connection : State bufferSize) := by
  refine ⟨⟨?_, nofun, rfl, nofun⟩, inside, nofun⟩
  refine iff_of_false nofun ?_
  rintro ⟨result, member, -⟩
  cases member

theorem take_end (sound : Sound state) (reading : state.stage = .reading) {result : Reading bufferSize}
    (zero : result.count = 0) : Sound (state.take result) := by
  have ended := ends_of_zero result zero
  rw [State.take, if_pos zero]
  refine ⟨⟨?_, sound.faithful.lengths, ?_, nofun⟩, sound.inside, nofun⟩
  · exact iff_of_true rfl ⟨result, List.mem_append_right _ List.mem_cons_self, ended⟩
  · have going := sound.going reading
    dsimp only
    rw [sound.faithful.content, beforeEnd_whole going, beforeEnd_append going, if_pos ended,
      List.append_nil]

theorem take_chunk (bound : bufferSize < 2 ^ 63) (sound : Sound state) (reading : state.stage = .reading)
    {result : Reading bufferSize} (going : result.ends = false)
    (room : CanReturn (Delivery.enter state.connection) result.chunk.length) :
    Sound (state.take result) := by
  obtain ⟨some, fits, counted, filled⟩ := bytes_of_going result going
  have moves : result.count ≠ 0 := by
    rw [counted]
    omega
  have size : toSize result.count = result.chunk.length := by
    rw [counted]
    exact toSize_length _ (Nat.lt_of_le_of_lt fits bound)
  rw [State.take, if_neg moves]
  refine ⟨⟨?_, ?_, ?_, ?_⟩, sound.inside, ?_⟩
  · refine iff_of_false (settle_running _ _) ?_
    rintro ⟨earlier, member, ended⟩
    rcases List.mem_append.mp member with old | new
    · exact sound.going reading ⟨earlier, old, ended⟩
    · rw [List.mem_singleton.mp new, going] at ended
      cases ended
  · intro call member
    rcases List.mem_append.mp member with old | new
    · exact sound.faithful.lengths call old
    · rw [List.mem_singleton.mp new]
      dsimp only
      rw [size]
      exact ⟨some, fits⟩
  · have none := sound.going reading
    have now : (if result.ends = true then [] else [result]) = [result] := by rw [going]; rfl
    dsimp only
    rw [beforeEnd_append none, now, List.flatMap_append, List.flatMap_append,
      sound.faithful.content, beforeEnd_whole none]
    simp [Call.sent, size, filled]
  · intro call stage responding
    obtain ⟨rfl, rfl, -⟩ := settle_responding responding
    rw [size]
    exact (Delivery.returns_iff sound.inside).mpr room
  · intro call stage responding
    obtain ⟨rfl, rfl, running⟩ := settle_responding responding
    exact running

theorem sent_beside (sound : Sound state) (idle : ∀ call stage, state.stage ≠ .responding call stage)
    (label : Delivery.Label) (taken : step state (.deliver label) = some next) : Sound next := by
  have beside : ∃ reached, Delivery.step .toHold (fun _ => 0) 0 ⟨.returned true, state.connection⟩ label =
      some reached ∧ next = { state with connection := reached.connection } := by
    rw [step] at taken
    cases stage : state.stage with
    | reading =>
        rw [stage] at taken
        obtain ⟨reached, ran, same⟩ := Option.map_eq_some_iff.mp taken
        exact ⟨reached, ran, same.symm⟩
    | stopped =>
        rw [stage] at taken
        obtain ⟨reached, ran, same⟩ := Option.map_eq_some_iff.mp taken
        exact ⟨reached, ran, same.symm⟩
    | responding call inner => exact absurd stage (idle call inner)
  obtain ⟨reached, ran, rfl⟩ := beside
  refine ⟨⟨sound.faithful.stops, sound.faithful.lengths, sound.faithful.content, ?_⟩, ?_, ?_⟩
  · intro call stage responding
    exact absurd responding (idle call stage)
  · exact Delivery.step_inside label sound.inside ran
  · intro call stage responding
    exact absurd responding (idle call stage)

theorem sent_within (sound : Sound state) {call : Call} {stage : Delivery.Stage}
    (responding : state.stage = .responding call stage) (label : Delivery.Label)
    (taken : step state (.deliver label) = some next) :
    (Spared ⟨stage, state.connection⟩ call.size label → Sound next) ∧
      (Faithful next → Spared ⟨stage, state.connection⟩ call.size label) := by
  rw [step, responding] at taken
  obtain ⟨reached, ran, rfl⟩ := Option.map_eq_some_iff.mp taken
  have inside := Delivery.step_inside label sound.inside ran
  have spared := Delivery.canReturn_iff_spared sound.inside label (sound.running call stage responding)
    (sound.canReturn responding) ran
  have returns := @Delivery.returns_iff .toHold call.data call.size reached inside
  rw [← spared, ← returns]
  constructor
  · intro back
    refine ⟨⟨?_, sound.faithful.lengths, sound.faithful.content, ?_⟩, inside, ?_⟩
    · refine iff_of_false (settle_running _ _) fun ended => ?_
      have stopped := sound.faithful.stops.mpr ended
      rw [responding] at stopped
      cases stopped
    · intro other stage' responding'
      obtain ⟨rfl, rfl, -⟩ := settle_responding responding'
      exact back
    · intro other stage' responding'
      obtain ⟨rfl, rfl, running⟩ := settle_responding responding'
      exact running
  · intro later
    cases stage' : reached.stage with
    | waiting => exact later.returns call reached.stage (by rw [stage']; rfl)
    | yielded awake => exact later.returns call reached.stage (by rw [stage']; rfl)
    | returned queued => exact ⟨[], reached, queued, rfl, stage'⟩

theorem step_sound (bound : bufferSize < 2 ^ 63) (label : Label bufferSize) (sound : Sound state)
    (unhindered : Unhindered state label) (taken : step state label = some next) : Sound next := by
  cases label with
  | read result =>
      cases stage : state.stage with
      | reading =>
          rw [step, stage] at taken
          cases taken
          obtain ⟨read, room⟩ := unhindered stage
          cases ended : result.ends with
          | true => exact take_end sound stage ((ends_cases result ended).resolve_left read)
          | false =>
              have moves : result.count ≠ 0 := by
                intro zero
                rw [ends_of_zero result zero] at ended
                cases ended
              exact take_chunk bound sound stage ended (room moves)
      | responding call inner =>
          rw [step, stage] at taken
          cases taken
      | stopped =>
          rw [step, stage] at taken
          cases taken
  | deliver label =>
      cases stage : state.stage with
      | responding call inner =>
          exact (sent_within sound stage label taken).1 (unhindered call inner stage)
      | reading => exact sent_beside sound (by simp [stage]) label taken
      | stopped => exact sent_beside sound (by simp [stage]) label taken

theorem read_hindered (bound : bufferSize < 2 ^ 63) (sound : Sound state)
    (result : Reading bufferSize) (hindered : ¬ Unhindered state (.read result)) :
    ¬ Faithful (state.take result) := by
  intro faithful
  apply hindered
  intro _
  by_cases failed : result = .error
  · subst failed
    have moves : (Reading.error : Reading bufferSize).count ≠ 0 := by
      rw [Reading.count]
      decide
    have stopped := faithful.stops.mpr (by
      rw [State.take, if_neg moves]
      exact ⟨.error, List.mem_append_right _ List.mem_cons_self, rfl⟩)
    rw [State.take, if_neg moves] at stopped
    exact absurd stopped (settle_running _ _)
  · refine ⟨failed, fun moves => ?_⟩
    have going : result.ends = false := by
      rw [Bool.eq_false_iff]
      intro ended
      exact (ends_cases result ended).elim failed moves
    obtain ⟨-, fits, counted, -⟩ := bytes_of_going result going
    have size : toSize result.count = result.chunk.length := by
      rw [counted]
      exact toSize_length _ (Nat.lt_of_le_of_lt fits bound)
    have returns := faithful.returns ⟨result.fill state.buffer, toSize result.count⟩
    rw [State.take, if_neg moves] at returns
    dsimp only at returns
    rw [size] at returns
    cases stage : (Delivery.enter state.connection).stage with
    | waiting =>
        have waits := (Delivery.returns_iff sound.inside).mp (returns .waiting (by rw [stage]; rfl))
        rw [← stage] at waits
        exact waits
    | yielded awake =>
        have waits := (Delivery.returns_iff sound.inside).mp (returns (.yielded awake) (by rw [stage]; rfl))
        rw [← stage] at waits
        exact waits
    | returned queued =>
        rw [CanReturn, stage]
        trivial

theorem hindered_unfaithful (bound : bufferSize < 2 ^ 63) (label : Label bufferSize) (sound : Sound state)
    (hindered : ¬ Unhindered state label) : ∃ next, step state label = some next ∧ ¬ Faithful next := by
  cases label with
  | read result =>
      by_cases reading : state.stage = .reading
      · refine ⟨state.take result, ?_, read_hindered bound sound result hindered⟩
        rw [step, reading]
      · exact absurd (fun stage => absurd stage reading) hindered
  | deliver label =>
      rw [Unhindered] at hindered
      push Not at hindered
      obtain ⟨call, stage, responding, taken⟩ := hindered
      obtain ⟨reached, ran⟩ := @Delivery.step_of_not_spared .toHold call.data call.size
        ⟨stage, state.connection⟩ label taken
      have stepped := step_responding responding ran
      exact ⟨_, stepped, fun faithful => taken ((sent_within sound responding label stepped).2 faithful)⟩

/-- A chunk of more than 4097 bytes is a hindrance, whatever the buffer of the session holds. -/
theorem long_chunk_hinders (held : Queueing.Held state.connection.ring)
    (socket : state.connection.socket = true) (reading : state.stage = .reading) (chunk : List Char)
    (fits : chunk.length ≤ bufferSize) (long : Queueing.bufferSize + 1 < chunk.length) :
    ¬ Unhindered state (.read (.bytes chunk fits)) := by
  intro unhindered
  have room := (unhindered reading).2 (by rw [Reading.count]; omega)
  have bound := Delivery.canReturn_bounded held socket room
  dsimp only [Reading.chunk] at bound
  omega

theorem whole_file_streamed {content : List Char} {chunks : List (List Char)} (positive : 0 < bufferSize)
    (sends : Sends bufferSize content chunks) (faithful : Faithful state)
    (given : (beforeEnd state.results).map Reading.chunk = chunks) :
    state.calls.flatMap Call.sent = content := by
  rw [faithful.content, List.flatMap_def, given]
  exact sends_all positive sends

end

/-- Two bytes and the end of the file. -/
def shortFile : List (Label 4) :=
  [.read (.bytes ['o', 'k'] (by decide)), .deliver .turn, .read (.bytes [] (by decide))]

end OtaMqtt.Ota.Streaming
