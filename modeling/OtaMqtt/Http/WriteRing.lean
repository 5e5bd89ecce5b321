import OtaMqtt.Http.BufferQueue
import OtaMqtt.Http.Queueing
import OtaMqtt.Http.Wire

/-! The send path of a session over its real write buffer, the ring of `HttpBuffer`
(sherry/http/http_session.cc), against the session over a bounded queue.

The queue holds as many bytes as the ring has slots. The two part where the ring takes empty for
full or full for empty. -/

namespace OtaMqtt.Http.WriteRing

open OtaMqtt.Lib.Execution OtaMqtt.Lib.Ring OtaMqtt.Lib.Refinement OtaMqtt.Lib.Trace
open OtaMqtt.Http.Buffer OtaMqtt.Http.BufferQueue OtaMqtt.Http.RingStates OtaMqtt.Http.Queueing
open OtaMqtt.Http.Session OtaMqtt.Http.Wire

/-- `session` is everything but `m_write_buffer`; what it says of that is not read. -/
structure RingSession where
  session : HttpSession
  ring : HttpBuffer

def dressed (session : HttpSession) (ring : HttpBuffer) : HttpSession :=
  { session with capacity := ring.slots, writeBuffer := queued ring }

namespace RingSession

def fresh (junk : Nat → UInt8) : RingSession := ⟨.fresh bufferSize, .fresh bufferSize junk⟩

def queue (state : RingSession) : HttpSession := dressed state.session state.ring

/-- How a writer waits that was refused. -/
def parked (data : List UInt8) : Waiting → Writer
  | .toHold => .held data
  | .toReady => .entered .toReady data

/-- One attempt of the loop that appends to the write buffer. -/
def append (state : RingSession) (writer : Nat) (waiting : Waiting) (data : List UInt8) :
    Run RingSession := do
  let (accepted, ring) ← state.ring.write (data.getD · 0) data.length
  if accepted then
    .ok ⟨{ state.session with writers := state.session.writers.set writer .appended }, ring⟩
  else
    .ok ⟨{ state.session with
      writeFiber := some writer
      writers := state.session.writers.set writer (parked data waiting) }, ring⟩

/-- `regist_event (WRITE)`; a null pointer from `read_by_size` is not followed further. -/
def registWrite (state : RingSession) : Option RingSession :=
  if state.ring.getDataSize = 0 then
    some { state with session := { state.session.wakeWriter with pipeEvent := true } }
  else do
    let (data, ring) ← (state.ring.readBySize state.ring.getDataSize).toOption
    let data ← data
    some ⟨({ state.session with sendFlag := false } : HttpSession).wakeWriter.addWriteEvent (.send data), ring⟩

def act (state : RingSession) : Session.Action → Option RingSession
  | .append writer =>
      match state.session.writers[writer]? with
      | some (.entered waiting data) => (state.append writer waiting data).toOption
      | _ => none
  | .work task =>
      if state.session.tasks[task]? = some .registWrite then
        registWrite { state with session := { state.session with tasks := state.session.tasks.eraseIdx task } }
      else (state.session.step (.work task)).map fun session => { state with session }
  | action => (state.session.step action).map fun session => { state with session }

def step (state : RingSession) : Move → Option RingSession
  | .act action => state.act action
  | .sendFailed task =>
      match state.session.tasks[task]? with
      | some (.transmit _) => some { state with
          session := { state.session with tasks := state.session.tasks.eraseIdx task } }
      | _ => none

end RingSession

/-- The queue is the ring's, and the ring takes what has room behind it, and nothing else. -/
def AsQueue (state : RingSession) (channel : Channel) : Prop :=
  channel.session = state.queue ∧
    ∀ data len, (∃ next, state.ring.write data len = .ok (true, next)) ↔
      channel.session.writeBuffer.length + len ≤ channel.session.capacity

/-- No payload fills a ring whose data begin behind the first slot, and the sender never takes data
that end at the last one. -/
def Untangled (state : RingSession) : Move → Prop
  | .act (.append writer) =>
      match state.session.writers[writer]? with
      | some (.entered _ data) =>
          state.ring.startIdx = 0 ∨ state.ring.size + data.length ≠ state.ring.slots
      | _ => True
  | .act (.work task) =>
      state.session.tasks[task]? = some .registWrite → state.ring.endIdx ≠ state.ring.slots
  | _ => True

/-- The indices and the size agree. A full ring begins at its first slot. -/
structure Straight (ring : HttpBuffer) : Prop where
  capacity : ring.capacity = bufferSize
  start : ring.startIdx < ring.slots
  finish : (ring.endIdx = ring.startIdx + ring.size ∧ ring.endIdx ≤ ring.slots) ∨
    (ring.endIdx + ring.slots = ring.startIdx + ring.size ∧ ring.endIdx < ring.startIdx)

section
variable {ring : HttpBuffer}

theorem fresh_straight (junk : Nat → UInt8) : Straight (.fresh bufferSize junk) :=
  ⟨rfl, Nat.succ_pos _, .inl ⟨rfl, Nat.zero_le _⟩⟩

theorem Straight.slots (straight : Straight ring) : ring.slots = 4097 := by
  rw [HttpBuffer.slots, straight.capacity, bufferSize]

theorem Straight.inRange (straight : Straight ring) : InRange ring := by
  have slots := straight.slots
  have start := straight.start
  refine ⟨by omega, start, ?_⟩
  rcases straight.finish with ⟨-, inside⟩ | ⟨-, before⟩ <;> omega

theorem Straight.occupied (straight : Straight ring) : occupied ring = ring.size := by
  rw [RingStates.occupied]
  rcases straight.finish with ⟨same, -⟩ | ⟨same, before⟩
  · rw [if_pos (by omega)]
    omega
  · rw [if_neg (by omega)]
    omega

theorem Straight.accepts_iff (straight : Straight ring) (data : Nat → UInt8) (len : Nat) :
    (∃ next, ring.write data len = .ok (true, next)) ↔ ring.size + len ≤ ring.slots := by
  have free := room_add_occupied straight.inRange
  rw [straight.occupied] at free
  rw [write_accepted_iff ring straight.inRange]
  omega

theorem Straight.consistent (straight : Straight ring) (spare : ring.size ≤ ring.capacity) :
    Consistent ring := by
  refine ⟨by rw [straight.capacity]; decide, straight.start, spare, ?_⟩
  exact straight.finish.imp id And.left

theorem straight_of_consistent (consistent : Consistent ring) (capacity : ring.capacity = bufferSize) :
    Straight ring := by
  have slots : ring.slots = ring.capacity + 1 := rfl
  have size := consistent.size
  refine ⟨capacity, consistent.start, consistent.finish.imp id fun same => ⟨same, ?_⟩⟩
  omega

theorem listed (data : List UInt8) : (List.range data.length).map (data.getD · 0) = data := by
  apply List.ext_getElem
  · simp
  · intro index _ inside
    simp [List.getD_eq_getElem?_getD, List.getElem?_eq_getElem inside]

theorem write_fills (straight : Straight ring) (data : List UInt8) (front : ring.startIdx = 0)
    (full : ring.size + data.length = ring.slots) :
    ∃ next, ring.write (data.getD · 0) data.length = .ok (true, next) ∧ Straight next ∧
      queued next = queued ring ++ data := by
  have slots := straight.slots
  have same : ring.endIdx = ring.size := by
    rcases straight.finish with ⟨same, -⟩ | ⟨-, before⟩ <;> omega
  have total : (ring.size + data.length) % 2 ^ 64 = ring.size + data.length :=
    Nat.mod_eq_of_lt (by omega)
  refine ⟨_, ring.write_straight (data.getD · 0) data.length (by omega) (by omega) (by omega) (by omega),
    ⟨straight.capacity, straight.start, .inl ⟨?_, ?_⟩⟩, ?_⟩
  · simp only [total]
    omega
  · exact Nat.le_of_eq (by rw [same]; exact full)
  · refine Eq.trans ?_ (congrArg (queued ring ++ ·) (listed data))
    refine queued_append ring _ (data.getD · 0) data.length rfl rfl total ?_ ?_
    · intro offset inside
      rw [Nat.mod_eq_of_lt (show ring.startIdx + offset < ring.slots by omega)]
      exact if_neg (by omega)
    · intro offset inside
      rw [Nat.mod_eq_of_lt (show ring.startIdx + ring.size + offset < ring.slots by omega)]
      exact (if_pos (by omega)).trans (congrArg (data.getD · 0) (by omega))

theorem write_queues (straight : Straight ring) (data : List UInt8)
    (untangled : ring.startIdx = 0 ∨ ring.size + data.length ≠ ring.slots) :
    (ring.size + data.length ≤ ring.slots ∧ ∃ next,
      ring.write (data.getD · 0) data.length = .ok (true, next) ∧ Straight next ∧
        queued next = queued ring ++ data) ∨
    (¬ ring.size + data.length ≤ ring.slots ∧
      ring.write (data.getD · 0) data.length = .ok (false, ring)) := by
  have slots : ring.slots = ring.capacity + 1 := rfl
  by_cases fits : ring.size + data.length ≤ ring.slots
  · refine .inl ⟨fits, ?_⟩
    by_cases full : ring.size + data.length = ring.slots
    · exact write_fills straight data (untangled.resolve_right fun apart => apart full) full
    · obtain ⟨next, wrote, kept, contents⟩ := write_refines ring (straight.consistent (by omega))
        (data.getD · 0) data.length (by omega)
      refine ⟨next, wrote, straight_of_consistent kept ?_, by rw [contents, listed]⟩
      have called : RingStates.step ring (.write (data.getD · 0) data.length) = some next := by
        rw [RingStates.step, RingStates.act, wrote]
        rfl
      exact (step_inRange ring _ next straight.inRange called).2.trans straight.capacity
  · refine .inr ⟨fits, ?_⟩
    have free := room_add_occupied straight.inRange
    rw [straight.occupied] at free
    rcases write_spec ring straight.inRange (data.getD · 0) data.length with ⟨-, refused⟩ | ⟨enough, -⟩
    · exact refused
    · omega

theorem read_queue (straight : Straight ring) (apart : ring.endIdx ≠ ring.slots) :
    ∃ next, ring.readBySize ring.size = .ok (some (queued ring), next) ∧ Straight next ∧
      queued next = [] := by
  have slots := straight.slots
  have capacity : ring.slots = ring.capacity + 1 := rfl
  have spare : ring.size ≤ ring.capacity := by
    rcases straight.finish with ⟨same, inside⟩ | ⟨same, before⟩ <;> omega
  have serves : Serves ring (.readBySize ring.size) :=
    ⟨by omega, fun last _ => absurd last apart, fun _ => Nat.le_refl _⟩
  obtain ⟨next, read, kept, contents⟩ :=
    read_refines ring (straight.consistent spare) ring.size serves (Nat.le_refl _)
  rw [List.take_of_length_le (by rw [queued_length])] at read
  refine ⟨next, read, straight_of_consistent kept ?_, ?_⟩
  · have called : RingStates.step ring (.readBySize ring.size) = some next := by
      rw [RingStates.step, RingStates.act, read]
      rfl
    exact (step_inRange ring _ next straight.inRange called).2.trans straight.capacity
  · rw [contents]
    exact List.drop_of_length_le (by rw [queued_length])

theorem queued_nil_iff (ring : HttpBuffer) : queued ring = [] ↔ ring.getDataSize = 0 := by
  rw [← List.length_eq_zero_iff, queued_length, HttpBuffer.getDataSize]

end

section
variable {session : HttpSession} {ring : HttpBuffer}

theorem wakeWriter_dressed (session : HttpSession) (ring : HttpBuffer) :
    (dressed session ring).wakeWriter = dressed session.wakeWriter ring := by
  rw [HttpSession.wakeWriter, HttpSession.wakeWriter]
  simp only [dressed]
  split
  · rfl
  · split <;> rfl

theorem step_dressed (action : Session.Action) (elsewhere : ∀ writer, action ≠ .append writer)
    (other : ∀ task, action = .work task → session.tasks[task]? ≠ some .registWrite) :
    (dressed session ring).step action = (session.step action).map fun next => dressed next ring := by
  cases action with
  | call waiting data => rfl
  | append writer => exact absurd rfl (elsewhere writer)
  | signal writer =>
      simp only [HttpSession.step, dressed]
      split <;> rfl
  | pipeReadable =>
      rw [HttpSession.step, HttpSession.step, apply_ite (Option.map fun next => dressed next ring)]
      rfl
  | socketWritable =>
      simp only [HttpSession.step, dressed]
      cases session.writeEvent <;> rfl
  | work task =>
      simp only [HttpSession.step, dressed]
      split
      · rfl
      · rfl
      · rename_i found
        exact absurd found (other task rfl)
      · simp only [HttpSession.send, HttpSession.addWriteEvent]
        split <;> rfl
      · rfl
  | sent task len =>
      simp only [HttpSession.step, dressed]
      split
      · rename_i data found
        by_cases taken : len ≤ data.length
        · simp only [if_pos taken, HttpSession.transmitted, HttpSession.send, HttpSession.addWriteEvent]
          split
          · split <;> rfl
          · rfl
        · simp only [if_neg taken]
          rfl
      · rfl

end

/-- A session over its ring goes along with a channel whose queue is the ring's. -/
def Related (state : RingSession) (channel : Channel) : Prop :=
  channel.session = state.queue ∧ Straight state.ring

theorem Related.asQueue {state : RingSession} {channel : Channel} (related : Related state channel) :
    AsQueue state channel := by
  obtain ⟨same, straight⟩ := related
  refine ⟨same, fun data len => ?_⟩
  rw [same, straight.accepts_iff]
  simp only [RingSession.queue, dressed, queued_length]

section
variable {state next : RingSession}

theorem append_simulated (straight : Straight state.ring) (writer : Nat) (waiting : Waiting)
    (data : List UInt8)
    (untangled : state.ring.startIdx = 0 ∨ state.ring.size + data.length ≠ state.ring.slots) :
    ∃ next, state.append writer waiting data = .ok next ∧
      state.queue.append writer waiting data = next.queue ∧ Straight next.ring := by
  have length : state.queue.writeBuffer.length = state.ring.size := queued_length _
  rcases write_queues straight data untangled with ⟨fits, ring, wrote, kept, contents⟩ | ⟨short, refused⟩
  · refine ⟨⟨{ state.session with writers := state.session.writers.set writer .appended }, ring⟩, ?_, ?_,
      kept⟩
    · rw [RingSession.append, wrote]
      rfl
    · unfold HttpSession.append
      rw [if_pos (by rw [length]; exact fits)]
      simp only [RingSession.queue, dressed, contents, kept.slots, straight.slots]
  · refine ⟨⟨{ state.session with
      writeFiber := some writer
      writers := state.session.writers.set writer (RingSession.parked data waiting) }, state.ring⟩, ?_, ?_,
      straight⟩
    · rw [RingSession.append, refused]
      rfl
    · unfold HttpSession.append
      rw [if_neg (by rw [length]; exact short)]
      cases waiting <;> rfl

theorem registWrite_simulated (straight : Straight state.ring)
    (apart : state.ring.endIdx ≠ state.ring.slots) :
    ∃ next, state.registWrite = some next ∧ state.queue.registWrite = next.queue ∧ Straight next.ring := by
  by_cases empty : state.ring.getDataSize = 0
  · refine ⟨_, if_pos empty, ?_, straight⟩
    have nothing : state.queue.writeBuffer = [] := (queued_nil_iff _).mpr empty
    rw [HttpSession.registWrite, if_pos nothing, RingSession.queue, wakeWriter_dressed]
    rfl
  · obtain ⟨ring, read, kept, emptied⟩ := read_queue straight apart
    refine ⟨_, by rw [RingSession.registWrite, if_neg empty, HttpBuffer.getDataSize, read]; rfl, ?_, kept⟩
    have same : { state.queue with writeBuffer := [], sendFlag := false } =
        dressed { state.session with sendFlag := false } ring := by
      simp only [RingSession.queue, dressed, emptied, kept.slots, straight.slots]
    have left : state.queue.writeBuffer ≠ [] := mt (queued_nil_iff _).mp empty
    rw [HttpSession.registWrite, if_neg left]
    dsimp only
    rw [same, wakeWriter_dressed]
    rfl

theorem elsewhere_simulated (straight : Straight state.ring) (action : Session.Action)
    (elsewhere : ∀ writer, action ≠ .append writer)
    (other : ∀ task, action = .work task → state.session.tasks[task]? ≠ some .registWrite)
    (taken : ((state.session.step action).map fun session => { state with session }) = some next) :
    state.queue.step action = some next.queue ∧ Straight next.ring := by
  obtain ⟨session, stepped, rfl⟩ := Option.map_eq_some_iff.mp taken
  rw [RingSession.queue, step_dressed action elsewhere other, stepped]
  exact ⟨rfl, straight⟩

theorem act_simulated (straight : Straight state.ring) (action : Session.Action)
    (untangled : Untangled state (.act action)) (taken : state.act action = some next) :
    state.queue.step action = some next.queue ∧ Straight next.ring := by
  cases action with
  | append writer =>
      rw [RingSession.act] at taken
      split at taken
      · rename_i waiting data found
        simp only [Untangled, found] at untangled
        obtain ⟨after, appended, same, kept⟩ := append_simulated straight writer waiting data untangled
        rw [appended] at taken
        cases taken
        refine ⟨?_, kept⟩
        have there : state.queue.writers[writer]? = some (.entered waiting data) := found
        rw [HttpSession.step, there, ← same]
      · cases taken
  | work task =>
      rw [RingSession.act] at taken
      by_cases found : state.session.tasks[task]? = some .registWrite
      · rw [if_pos found] at taken
        obtain ⟨after, registered, same, kept⟩ := @registWrite_simulated
          { state with session := { state.session with tasks := state.session.tasks.eraseIdx task } }
          straight (untangled found)
        rw [registered] at taken
        cases taken
        refine ⟨?_, kept⟩
        have there : state.queue.tasks[task]? = some .registWrite := found
        rw [HttpSession.step, there, ← same]
        rfl
      · rw [if_neg found] at taken
        exact elsewhere_simulated straight (.work task) (fun _ same => by cases same)
          (fun _ same => by cases same; exact found) taken
  | call waiting data =>
      exact elsewhere_simulated straight (.call waiting data) (fun _ same => by cases same)
        (fun _ same => by cases same) taken
  | signal writer =>
      exact elsewhere_simulated straight (.signal writer) (fun _ same => by cases same)
        (fun _ same => by cases same) taken
  | pipeReadable =>
      exact elsewhere_simulated straight .pipeReadable (fun _ same => by cases same)
        (fun _ same => by cases same) taken
  | socketWritable =>
      exact elsewhere_simulated straight .socketWritable (fun _ same => by cases same)
        (fun _ same => by cases same) taken
  | sent task len =>
      exact elsewhere_simulated straight (.sent task len) (fun _ same => by cases same)
        (fun _ same => by cases same) taken

theorem move_simulated (state : RingSession) (channel : Channel) (move : Move) (next : RingSession)
    (related : Related state channel) (untangled : Untangled state move)
    (taken : state.step move = some next) :
    ∃ there, channel.step move = some there ∧ Related next there := by
  obtain ⟨session, accepted⟩ := channel
  obtain ⟨same, straight⟩ := related
  dsimp only at same
  subst same
  cases move with
  | act action =>
      obtain ⟨stepped, kept⟩ := act_simulated straight action untangled taken
      exact ⟨_, by rw [Channel.step, stepped]; rfl, rfl, kept⟩
  | sendFailed task =>
      rw [RingSession.step] at taken
      split at taken
      · rename_i data found
        cases taken
        have there : state.queue.tasks[task]? = some (.transmit data) := found
        exact ⟨_, by rw [Channel.step, there], rfl, straight⟩
      · cases taken

theorem overfilled_astray (straight : Straight state.ring) (writer : Nat) (waiting : Waiting)
    (data : List UInt8) (behind : state.ring.startIdx ≠ 0)
    (full : state.ring.size + data.length = state.ring.slots) :
    ∃ next, state.append writer waiting data = .ok next ∧ ∀ channel, ¬ AsQueue next channel := by
  have slots := straight.slots
  have start := straight.start
  have free := room_add_occupied straight.inRange
  rw [straight.occupied] at free
  rcases write_spec state.ring straight.inRange (data.getD · 0) data.length with ⟨short, -⟩ | ⟨enough, bytes, wrote⟩
  · omega
  · have appended : state.append writer waiting data =
        .ok ⟨{ state.session with writers := state.session.writers.set writer .appended },
          { state.ring with
            buffer := bytes, endIdx := landing state.ring data.length,
            size := (state.ring.size + data.length) % 2 ^ 64 }⟩ := by
      rw [RingSession.append, wrote]
      rfl
    refine ⟨_, appended, fun channel => ?_⟩
    rintro ⟨same, alike⟩
    have met : landing state.ring data.length = state.ring.startIdx := by
      rw [landing]
      rcases straight.finish with ⟨finish, -⟩ | ⟨finish, before⟩ <;> split <;> omega
    have inside := written_inRange state.ring straight.inRange data.length bytes
      ((state.ring.size + data.length) % 2 ^ 64) enough
    have taken := (alike (fun _ => 0) 1).mp ((write_accepted_iff _ inside _ 1).mpr (by
      rw [room]
      dsimp only
      rw [met, if_pos (Nat.le_refl _), HttpBuffer.slots]
      dsimp only
      rw [HttpBuffer.slots] at slots
      omega))
    rw [same] at taken
    simp only [RingSession.queue, dressed, queued_length, HttpBuffer.slots] at taken slots full
    omega

theorem drained_astray (straight : Straight state.ring) (last : state.ring.endIdx = state.ring.slots) :
    ∃ next, state.registWrite = some next ∧ ∀ channel, ¬ AsQueue next channel := by
  have slots := straight.slots
  have start := straight.start
  have held : state.ring.startIdx + state.ring.size = state.ring.slots := by
    rcases straight.finish with ⟨finish, -⟩ | ⟨-, before⟩ <;> omega
  have read : state.ring.readBySize state.ring.size =
      .ok (some ((List.range state.ring.size).map fun index =>
        state.ring.buffer (state.ring.startIdx + index)), state.ring.advanced state.ring.size) := by
    rw [HttpBuffer.readBySize, if_pos (by omega), castInt_of_lt (by omega), if_neg (by omega),
      copyOut_ok _ _ _ _ (by omega), ok_bind, HttpBuffer.consume_ok _ _ (by omega), ok_bind]
  have nonempty : state.ring.getDataSize ≠ 0 := by
    rw [HttpBuffer.getDataSize]
    omega
  refine ⟨_, by rw [RingSession.registWrite, if_neg nonempty, HttpBuffer.getDataSize, read]; rfl,
    fun channel => ?_⟩
  rintro ⟨same, alike⟩
  have inside := advanced_inRange state.ring straight.inRange state.ring.size
  have spent : (state.ring.advanced state.ring.size).size = 0 :=
    (subSize_of_le (Nat.le_refl _) (by omega)).trans (Nat.sub_self _)
  have refused := (alike (fun _ => 0) 1).mpr (by
    rw [same]
    simp only [RingSession.queue, dressed, queued_length, spent, advanced_slots, slots]
    omega)
  have enough := (write_accepted_iff _ inside _ 1).mp refused
  rw [room, HttpBuffer.advanced_startIdx, HttpBuffer.advanced_endIdx, advanced_slots, held, last, Nat.mod_self,
    if_pos (Nat.zero_le _), Nat.sub_self] at enough
  exact absurd enough (by decide)

theorem tangled_astray (state : RingSession) (channel : Channel) (move : Move)
    (related : Related state channel) (tangled : ¬ Untangled state move) :
    ∃ next, state.step move = some next ∧
      ∀ there, channel.step move = some there → ¬ AsQueue next there := by
  obtain ⟨-, straight⟩ := related
  cases move with
  | sendFailed task => exact absurd trivial tangled
  | act action =>
      cases action with
      | append writer =>
          simp only [Untangled] at tangled
          split at tangled
          · rename_i waiting data found
            obtain ⟨behind, full⟩ := not_or.mp tangled
            obtain ⟨next, appended, apart⟩ :=
              overfilled_astray straight writer waiting data behind (not_not.mp full)
            refine ⟨next, ?_, fun there _ => apart there⟩
            simp only [RingSession.step, RingSession.act, found, appended]
            rfl
          · exact absurd trivial tangled
      | work task =>
          obtain ⟨found, last⟩ := Classical.not_imp.mp tangled
          obtain ⟨next, registered, apart⟩ := @drained_astray
            { state with session := { state.session with tasks := state.session.tasks.eraseIdx task } }
            straight (not_not.mp last)
          refine ⟨next, ?_, fun there _ => apart there⟩
          rw [RingSession.step, RingSession.act, if_pos found, registered]
      | call waiting data => exact absurd trivial tangled
      | signal writer => exact absurd trivial tangled
      | pipeReadable => exact absurd trivial tangled
      | socketWritable => exact absurd trivial tangled
      | sent task len => exact absurd trivial tangled

end

end OtaMqtt.Http.WriteRing
