import OtaMqtt.Http.Session

/-! The order of the bytes on the wire.

At most one callback of the sender is registered or under way at any time, so at most one
chunk is in flight between the write buffer and the socket. -/

namespace OtaMqtt.Http.Wire

open OtaMqtt.Lib.Trace OtaMqtt.Http.Session

/-- The session, with the bytes that the write buffer accepted so far in their order. -/
structure Channel where
  session : HttpSession
  accepted : List UInt8

/-- The steps of the session, and a `send` of the socket that answers -1. -/
inductive Move where
  | act (action : Session.Action)
  | sendFailed (task : Nat)

/-- The bytes that an action adds to the write buffer. -/
def taken (session : HttpSession) : Session.Action → List UInt8
  | .append writer =>
      match session.writers[writer]? with
      | some (.entered _ data) =>
          if session.writeBuffer.length + data.length ≤ session.capacity then data else []
      | _ => []
  | _ => []

namespace Channel

def fresh (capacity : Nat) : Channel := ⟨.fresh capacity, []⟩

/-- The callback of `send` returns at once when the socket answers -1, and its chunk is gone. -/
def step (channel : Channel) : Move → Option Channel
  | .act action =>
      (channel.session.step action).map fun session =>
        ⟨session, channel.accepted ++ taken channel.session action⟩
  | .sendFailed task =>
      match channel.session.tasks[task]? with
      | some (.transmit _) => some { channel with
          session := { channel.session with tasks := channel.session.tasks.eraseIdx task } }
      | _ => none

end Channel

/-- What the socket took is the beginning of what the write buffer accepted. -/
def InOrder (channel : Channel) : Prop := channel.session.wire <+: channel.accepted

def chunk : Task → List UInt8
  | .send data => data
  | .transmit data => data
  | _ => []

/-- The callbacks of the sender that are registered for the socket or under way. -/
def callbacks (session : HttpSession) : List Task := session.writeEvent.toList ++ session.tasks

def flight (session : HttpSession) : List UInt8 := (callbacks session).flatMap chunk

/-- How many turns the sender has: registrations and callbacks. -/
def turns (session : HttpSession) : Nat :=
  session.pipeEvent.toNat + (callbacks session).length

/-- There is one turn at most; and what was accepted is on the wire, in flight or in the
buffer, unless the last chunk was dropped with the last turn. -/
structure Flowing (channel : Channel) : Prop where
  single : turns channel.session ≤ 1
  order : channel.accepted =
      channel.session.wire ++ flight channel.session ++ channel.session.writeBuffer ∨
    turns channel.session = 0 ∧ InOrder channel

theorem flowing_fresh (capacity : Nat) : Flowing (.fresh capacity) :=
  ⟨Nat.le_refl 1, .inl rfl⟩

theorem Flowing.inOrder {channel : Channel} (flowing : Flowing channel) : InOrder channel := by
  rcases flowing.order with all | ⟨-, dropped⟩
  · rw [InOrder, all, List.append_assoc]
    exact List.prefix_append _ _
  · exact dropped

theorem Flowing.sole {channel : Channel} (flowing : Flowing channel) {index : Nat} {task : Task}
    (found : channel.session.tasks[index]? = some task) :
    channel.session.tasks = [task] ∧ index = 0 ∧ channel.session.pipeEvent = false ∧
      channel.session.writeEvent = none ∧
      channel.accepted = channel.session.wire ++ chunk task ++ channel.session.writeBuffer := by
  have bound := (List.getElem?_eq_some_iff.mp found).1
  have single := flowing.single
  simp only [turns, callbacks, List.length_append] at single
  have first : index = 0 := by omega
  have quiet : channel.session.pipeEvent = false := by
    cases registered : channel.session.pipeEvent with
    | false => rfl
    | true =>
        rw [registered, Bool.toNat_true] at single
        omega
  have unarmed : channel.session.writeEvent = none := by
    cases registered : channel.session.writeEvent with
    | none => rfl
    | some other =>
        rw [registered, Option.toList_some, List.length_singleton] at single
        omega
  have alone : channel.session.tasks = [task] := by
    subst first
    have length : channel.session.tasks.length = 1 := by omega
    obtain ⟨only, is_only⟩ := List.length_eq_one_iff.mp length
    rw [is_only] at found ⊢
    cases found
    rfl
  refine ⟨alone, first, quiet, unarmed, ?_⟩
  rcases flowing.order with all | ⟨stopped, -⟩
  · rw [all, flight, callbacks, unarmed, alone]
    simp
  · simp [turns, callbacks, alone] at stopped

theorem wakeWriter_frame (session : HttpSession) :
    session.wakeWriter.pipeEvent = session.pipeEvent ∧
      session.wakeWriter.writeEvent = session.writeEvent ∧
      session.wakeWriter.wire = session.wire := by
  rw [HttpSession.wakeWriter]
  split
  · exact ⟨rfl, rfl, rfl⟩
  · split <;> exact ⟨rfl, rfl, rfl⟩

/-- A session that has no turn yet, which is about to get one. -/
structure Idle (session : HttpSession) : Prop where
  tasks : session.tasks = []
  pipe : session.pipeEvent = false
  write : session.writeEvent = none

theorem Flowing.erased {channel : Channel} (flowing : Flowing channel) {index : Nat} {task : Task}
    (found : channel.session.tasks[index]? = some task) :
    Idle { channel.session with tasks := channel.session.tasks.eraseIdx index } := by
  obtain ⟨alone, first, quiet, unarmed, -⟩ := flowing.sole found
  exact ⟨by simp [alone, first], quiet, unarmed⟩

section
variable {session : HttpSession} {accepted : List UInt8}

theorem flowing_pipe (idle : Idle session)
    (order : accepted = session.wire ++ session.writeBuffer) :
    Flowing ⟨{ session with pipeEvent := true }, accepted⟩ := by
  constructor
  · simp [turns, callbacks, idle.tasks, idle.write]
  · exact .inl (by simp [flight, callbacks, idle.tasks, idle.write, order])

theorem flowing_write (idle : Idle session) (task : Task)
    (order : accepted = session.wire ++ chunk task ++ session.writeBuffer) :
    Flowing ⟨session.addWriteEvent task, accepted⟩ := by
  constructor
  · simp [turns, callbacks, HttpSession.addWriteEvent, idle.tasks, idle.write, idle.pipe]
  · exact .inl (by
      simp [flight, callbacks, HttpSession.addWriteEvent, idle.tasks, idle.write, order])

theorem flowing_end (idle : Idle session) (order : session.wire <+: accepted) :
    Flowing ⟨session, accepted⟩ := by
  have stopped : turns session = 0 := by
    simp [turns, callbacks, idle.tasks, idle.write, idle.pipe]
  exact ⟨by rw [stopped]; exact Nat.zero_le 1, .inr ⟨stopped, order⟩⟩

theorem idle_wakeWriter (idle : Idle session) : Idle session.wakeWriter := by
  obtain ⟨-, -, tasks, -⟩ := wakeWriter_keeps session
  obtain ⟨pipe, write, -⟩ := wakeWriter_frame session
  exact ⟨tasks.trans idle.tasks, pipe.trans idle.pipe, write.trans idle.write⟩

theorem registWrite_flowing (idle : Idle session)
    (order : accepted = session.wire ++ session.writeBuffer) :
    Flowing ⟨session.registWrite, accepted⟩ := by
  rw [HttpSession.registWrite]
  split
  · obtain ⟨buffer, -, -, -⟩ := wakeWriter_keeps session
    obtain ⟨-, -, wire⟩ := wakeWriter_frame session
    apply flowing_pipe (idle_wakeWriter idle)
    rw [buffer, wire, order]
  · have emptied : Idle { session with writeBuffer := [], sendFlag := false } :=
      ⟨idle.tasks, idle.pipe, idle.write⟩
    apply flowing_write (idle_wakeWriter emptied)
    rw [(wakeWriter_keeps _).1, (wakeWriter_frame _).2.2, chunk, List.append_nil, order]

theorem send_flowing (idle : Idle session) (data : List UInt8)
    (order : accepted = session.wire ++ data ++ session.writeBuffer) :
    Flowing ⟨session.send data, accepted⟩ := by
  rw [HttpSession.send]
  split
  · apply flowing_end idle
    rw [order, List.append_assoc]
    exact List.prefix_append _ _
  · exact flowing_write idle (.transmit data) order

theorem transmitted_flowing (idle : Idle session) (data : List UInt8) (len : Nat)
    (order : accepted = session.wire ++ data ++ session.writeBuffer) :
    Flowing ⟨session.transmitted data len, accepted⟩ := by
  have extended : Idle { session with wire := session.wire ++ data.take len } :=
    ⟨idle.tasks, idle.pipe, idle.write⟩
  rw [HttpSession.transmitted]
  split
  · apply send_flowing extended
    rw [List.append_assoc session.wire, List.take_append_drop, order]
  · rename_i whole
    have flagged : Idle { session with wire := session.wire ++ data.take len, sendFlag := true } :=
      ⟨idle.tasks, idle.pipe, idle.write⟩
    apply flowing_pipe flagged
    rw [List.take_of_length_le (Nat.le_of_not_lt whole), order]

end

theorem Flowing.writers {channel next : Channel} (flowing : Flowing channel) (more : List UInt8)
    (pipe : next.session.pipeEvent = channel.session.pipeEvent)
    (write : next.session.writeEvent = channel.session.writeEvent)
    (tasks : next.session.tasks = channel.session.tasks)
    (wire : next.session.wire = channel.session.wire)
    (buffer : next.session.writeBuffer = channel.session.writeBuffer ++ more)
    (accepted : next.accepted = channel.accepted ++ more) : Flowing next := by
  have same : turns next.session = turns channel.session := by
    rw [turns, turns, callbacks, callbacks, pipe, write, tasks]
  constructor
  · rw [same]
    exact flowing.single
  · rcases flowing.order with all | ⟨stopped, order⟩
    · refine .inl ?_
      rw [accepted, all, wire, buffer, flight, flight, callbacks, callbacks, write, tasks]
      simp only [List.append_assoc]
    · refine .inr ⟨by rw [same]; exact stopped, ?_⟩
      rw [InOrder, wire, accepted]
      exact order.trans (List.prefix_append _ _)

theorem Flowing.passes {channel next : Channel} (flowing : Flowing channel)
    (count : turns next.session = turns channel.session)
    (carried : flight next.session = flight channel.session)
    (wire : next.session.wire = channel.session.wire)
    (buffer : next.session.writeBuffer = channel.session.writeBuffer)
    (accepted : next.accepted = channel.accepted) : Flowing next := by
  constructor
  · rw [count]
    exact flowing.single
  · rw [accepted, wire, buffer, carried, count, InOrder, wire, accepted]
    exact flowing.order

theorem append_flowing {channel : Channel} (flowing : Flowing channel) {writer : Nat}
    {waiting : Waiting} {data : List UInt8}
    (found : channel.session.writers[writer]? = some (.entered waiting data)) :
    Flowing ⟨channel.session.append writer waiting data,
      channel.accepted ++ taken channel.session (.append writer)⟩ := by
  by_cases room : channel.session.writeBuffer.length + data.length ≤ channel.session.capacity
  · apply flowing.writers data <;> simp [HttpSession.append, taken, found, room]
  · apply flowing.writers [] <;> simp [HttpSession.append, taken, found, room]

theorem pipeReadable_flowing {channel : Channel} (flowing : Flowing channel)
    (registered : channel.session.pipeEvent = true) :
    Flowing ⟨{ channel.session with
      pipeEvent := false, tasks := channel.session.tasks ++ [.drainPipe] }, channel.accepted⟩ := by
  apply flowing.passes
  · simp [turns, callbacks, registered]
    omega
  · simp [flight, callbacks, chunk]
  · rfl
  · rfl
  · rfl

theorem socketWritable_flowing {channel : Channel} (flowing : Flowing channel) {task : Task}
    (registered : channel.session.writeEvent = some task) :
    Flowing ⟨{ channel.session with
      writeEvent := none, tasks := channel.session.tasks ++ [task] }, channel.accepted⟩ := by
  have single := flowing.single
  simp only [turns, callbacks, registered, Option.toList_some, List.length_append,
    List.length_singleton] at single
  have none_else : channel.session.tasks = [] := List.length_eq_zero_iff.mp (by omega)
  apply flowing.passes
  · simp [turns, callbacks, registered, none_else]
  · simp [flight, callbacks, registered, none_else]
  · rfl
  · rfl
  · rfl

theorem work_flowing {channel : Channel} {session : HttpSession} (flowing : Flowing channel)
    {index : Nat} (stepped : channel.session.step (.work index) = some session) :
    Flowing ⟨session, channel.accepted⟩ := by
  rw [HttpSession.step] at stepped
  split at stepped
  · rename_i found
    obtain ⟨alone, rfl, -, -, -⟩ := flowing.sole found
    cases stepped
    apply flowing.passes <;> simp [turns, flight, callbacks, alone, chunk]
  · rename_i found
    obtain ⟨alone, rfl, -, -, -⟩ := flowing.sole found
    cases stepped
    apply flowing.passes
    · simp [turns, callbacks, alone]
    · cases flag : channel.session.sendFlag <;> simp [flight, callbacks, alone, chunk]
    · rfl
    · rfl
    · rfl
  · rename_i found
    obtain ⟨-, -, -, -, order⟩ := flowing.sole found
    cases stepped
    apply registWrite_flowing (flowing.erased found)
    simpa only [chunk, List.append_nil] using order
  · rename_i data found
    obtain ⟨-, -, -, -, order⟩ := flowing.sole found
    cases stepped
    exact send_flowing (flowing.erased found) data order
  · cases stepped

theorem sent_flowing {channel : Channel} {session : HttpSession} (flowing : Flowing channel)
    {index len : Nat} (stepped : channel.session.step (.sent index len) = some session) :
    Flowing ⟨session, channel.accepted⟩ := by
  rw [HttpSession.step] at stepped
  split at stepped
  · rename_i data found
    obtain ⟨-, -, -, -, order⟩ := flowing.sole found
    obtain ⟨-, ⟨⟩⟩ := Option.ite_none_right_eq_some.mp stepped
    exact transmitted_flowing (flowing.erased found) data len order
  · cases stepped

theorem act_flowing {channel : Channel} {session : HttpSession} (flowing : Flowing channel)
    (action : Session.Action) (stepped : channel.session.step action = some session) :
    Flowing ⟨session, channel.accepted ++ taken channel.session action⟩ := by
  cases action with
  | call waiting data =>
      cases stepped
      apply flowing.writers [] <;> simp [taken]
  | append writer =>
      rw [HttpSession.step] at stepped
      split at stepped
      · rename_i waiting data found
        cases stepped
        exact append_flowing flowing found
      · cases stepped
  | signal writer =>
      rw [HttpSession.step] at stepped
      split at stepped
      · cases stepped
        apply flowing.writers [] <;> simp [taken, HttpSession.signal]
      · cases stepped
  | pipeReadable =>
      obtain ⟨⟨registered, -⟩, ⟨⟩⟩ := Option.ite_none_right_eq_some.mp stepped
      simp only [taken, List.append_nil]
      exact pipeReadable_flowing flowing registered
  | socketWritable =>
      obtain ⟨task, registered, rfl⟩ := Option.map_eq_some_iff.mp stepped
      simp only [taken, List.append_nil]
      exact socketWritable_flowing flowing registered
  | work index =>
      simp only [taken, List.append_nil]
      exact work_flowing flowing stepped
  | sent index len =>
      simp only [taken, List.append_nil]
      exact sent_flowing flowing stepped

theorem step_flowing (channel : Channel) (move : Move) (next : Channel) (flowing : Flowing channel)
    (taken : channel.step move = some next) : Flowing next := by
  cases move with
  | act action =>
      obtain ⟨session, stepped, rfl⟩ := Option.map_eq_some_iff.mp taken
      exact act_flowing flowing action stepped
  | sendFailed index =>
      rw [Channel.step] at taken
      split at taken
      · rename_i data found
        cases taken
        exact flowing_end (flowing.erased found) flowing.inOrder
      · cases taken

/-- In every interleaving of the writers, the sender and the socket's answers, the bytes on
the wire are the first bytes that the write buffer accepted. -/
theorem wire_stays_in_order (capacity : Nat) (moves : List Move) :
    Always Channel.step InOrder (.fresh capacity) moves :=
  preserves_always step_flowing (fun _ flowing => flowing.inOrder) moves _ (flowing_fresh capacity)

/-- Two writers, a partial send and an attempt that the socket refuses. -/
example : (run Channel.step (.fresh 16)
    [.act (.call .toReady [1, 2]), .act (.append 0), .act (.signal 0), .act .pipeReadable,
      .act (.work 0), .act (.work 0), .act (.work 0), .act (.call .toReady [3]), .act (.append 1),
      .act .socketWritable, .act (.work 0), .act .socketWritable, .act (.sent 0 1),
      .act .socketWritable, .sendFailed 0]).map
        (fun channel => (channel.session.wire, channel.accepted)) = some ([1], [1, 2, 3]) := by
  decide +kernel

end OtaMqtt.Http.Wire
