import OtaMqtt.Lib.Trace

/-! The send path of `HttpSession` (sherry/http/http_session.h, http_session.cc).

The write buffer is a bounded FIFO queue. What a function does while it holds `m_mutex` is
one step; `regist_event` looks at the buffer's size and then reads that many bytes, and a
writer that appends in between might as well have appended after it. The sender's callbacks
are tasks that run one step at a time, in any order and between any steps of the writers. -/

namespace OtaMqtt.Http.Session

open OtaMqtt.Lib.Trace

/-- Where a callback of the sender stands. `onPipeReadable` is the first three. -/
inductive Task where
  | drainPipe
  | awaitSendFlag
  | registWrite
  | send (data : List UInt8)
  | transmit (data : List UInt8)
  deriving DecidableEq

/-- The overload of `write_buffer` decides how a writer waits for space. -/
inductive Waiting where
  | toHold
  | toReady
  deriving DecidableEq

inductive Writer where
  | entered (waiting : Waiting) (data : List UInt8)
  | held (data : List UInt8)
  | appended
  | returned
  deriving DecidableEq

/-- `pipeEvent` says that the READ event of the pipe is registered, `writeEvent` is the
callback registered for the WRITE event of the socket. -/
structure HttpSession where
  capacity : Nat
  writeBuffer : List UInt8
  sendFlag : Bool
  pipe : Nat
  pipeEvent : Bool
  writeEvent : Option Task
  writeFiber : Option Nat
  tasks : List Task
  writers : List Writer
  wire : List UInt8

inductive Action where
  | call (waiting : Waiting) (data : List UInt8)
  | append (writer : Nat)
  | signal (writer : Nat)
  | pipeReadable
  | socketWritable
  | work (task : Nat)
  | sent (task len : Nat)

namespace HttpSession

def fresh (capacity : Nat) : HttpSession :=
  ⟨capacity, [], true, 0, true, none, none, [], [], []⟩

/-- The bytes a non-blocking pipe takes before `write` fails, which nobody checks. -/
def pipeCapacity : Nat := 65536

/-- `addEvent` on an event that is already registered is refused. -/
def addWriteEvent (session : HttpSession) (task : Task) : HttpSession :=
  { session with writeEvent := session.writeEvent <|> some task }

/-- `server->schedule (m_write_fiber)`: a writer that yielded to hold runs again. -/
def wakeWriter (session : HttpSession) : HttpSession :=
  match session.writeFiber with
  | none => session
  | some index =>
      match session.writers[index]? with
      | some (.held data) => { session with
          writers := session.writers.set index (.entered .toHold data), writeFiber := none }
      | _ => { session with writeFiber := none }

/-- `regist_event (WRITE)`. -/
def registWrite (session : HttpSession) : HttpSession :=
  if session.writeBuffer = [] then { session.wakeWriter with pipeEvent := true }
  else
    let data := session.writeBuffer
    ({ session with writeBuffer := [], sendFlag := false } : HttpSession).wakeWriter.addWriteEvent
      (.send data)

def send (session : HttpSession) (data : List UInt8) : HttpSession :=
  if data = [] then session else session.addWriteEvent (.transmit data)

/-- The callback of `send` after the socket took `len` bytes. -/
def transmitted (session : HttpSession) (data : List UInt8) (len : Nat) : HttpSession :=
  let session := { session with wire := session.wire ++ data.take len }
  if len < data.length then session.send (data.drop len)
  else { session with sendFlag := true, pipeEvent := true }

/-- One attempt of the loop that appends to the write buffer. -/
def append (session : HttpSession) (writer : Nat) (waiting : Waiting) (data : List UInt8) :
    HttpSession :=
  if session.writeBuffer.length + data.length ≤ session.capacity then { session with
    writeBuffer := session.writeBuffer ++ data
    writers := session.writers.set writer .appended }
  else { session with
    writeFiber := some writer
    writers := session.writers.set writer (match waiting with
      | .toHold => .held data
      | .toReady => .entered .toReady data) }

/-- The end of `write_buffer`, under `m_mutex`. -/
def signal (session : HttpSession) (writer : Nat) : HttpSession :=
  { session with
    pipe := if session.sendFlag then min (session.pipe + 1) pipeCapacity else session.pipe
    writers := session.writers.set writer .returned }

def step (session : HttpSession) : Action → Option HttpSession
  | .call waiting data => some { session with
      writers := session.writers ++ [if data = [] then .returned else .entered waiting data] }
  | .append writer =>
      match session.writers[writer]? with
      | some (.entered waiting data) => some (session.append writer waiting data)
      | _ => none
  | .signal writer =>
      match session.writers[writer]? with
      | some .appended => some (session.signal writer)
      | _ => none
  | .pipeReadable =>
      if session.pipeEvent ∧ 0 < session.pipe then some { session with
        pipeEvent := false
        tasks := session.tasks ++ [.drainPipe] }
      else none
  | .socketWritable =>
      session.writeEvent.map fun task => { session with
        writeEvent := none
        tasks := session.tasks ++ [task] }
  | .work task =>
      match session.tasks[task]? with
      | some .drainPipe => some { session with
          pipe := 0
          tasks := session.tasks.set task .awaitSendFlag }
      | some .awaitSendFlag => some { session with
          tasks := session.tasks.set task (if session.sendFlag then .registWrite else .awaitSendFlag) }
      | some .registWrite =>
          some (registWrite { session with tasks := session.tasks.eraseIdx task })
      | some (.send data) => some (send { session with tasks := session.tasks.eraseIdx task } data)
      | _ => none
  | .sent task len =>
      match session.tasks[task]? with
      | some (.transmit data) =>
          if len ≤ data.length then
            some (transmitted { session with tasks := session.tasks.eraseIdx task } data len)
          else none
      | _ => none

end HttpSession

/-- Nothing is in progress or triggered, and every `write_buffer` call has returned. -/
structure Quiescent (session : HttpSession) : Prop where
  flag : session.sendFlag = true
  idle : session.tasks = []
  unarmed : session.writeEvent = none
  drained : session.pipe = 0
  returned : ∀ writer ∈ session.writers, writer = .returned

/-- No wake-up was lost: data is left behind in no quiescent state. -/
def Awake (session : HttpSession) : Prop := Quiescent session → session.writeBuffer = []

/-- A writer reaches the test of `m_send_flag` with the flag set, or with its data already
taken. -/
def Noticed (session : HttpSession) : Action → Prop
  | .signal _ => session.sendFlag = true ∨ session.writeBuffer = []
  | _ => True

instance (session : HttpSession) : (action : Action) → Decidable (Noticed session action)
  | .signal _ => inferInstanceAs (Decidable (session.sendFlag = true ∨ session.writeBuffer = []))
  | .call _ _ => .isTrue trivial
  | .append _ => .isTrue trivial
  | .pipeReadable => .isTrue trivial
  | .socketWritable => .isTrue trivial
  | .work _ => .isTrue trivial
  | .sent _ _ => .isTrue trivial

/-- A task of `onPipeReadable`, which will look at the write buffer. -/
def Task.pending : Task → Bool
  | .drainPipe => true
  | .awaitSendFlag => true
  | .registWrite => true
  | .send _ => false
  | .transmit _ => false

/-- Buffered data is announced: by a byte in the pipe, by a writer that has yet to test the
flag, or by a task that will look at the buffer. -/
def Announced (session : HttpSession) : Prop :=
  session.writeBuffer ≠ [] →
    0 < session.pipe ∨ .appended ∈ session.writers ∨ ∃ task ∈ session.tasks, task.pending = true

theorem awake_of_announced (session : HttpSession) (announced : Announced session) :
    Awake session := by
  intro quiescent
  by_contra buffered
  rcases announced buffered with signalled | waiting | ⟨task, running, _⟩
  · rw [quiescent.drained] at signalled
    exact Nat.lt_irrefl 0 signalled
  · cases quiescent.returned _ waiting
  · rw [quiescent.idle] at running
    cases running

theorem mem_set_of_other {α : Type} (items : List α) (index : Nat) (item replaced value : α)
    (member : item ∈ items) (there : items[index]? = some replaced) (other : replaced ≠ item) :
    item ∈ items.set index value := by
  obtain ⟨position, found⟩ := List.mem_iff_getElem?.mp member
  have apart : index ≠ position := by
    rintro rfl
    rw [there] at found
    exact other (Option.some.inj found)
  refine List.mem_iff_getElem?.mpr ⟨position, ?_⟩
  rw [List.getElem?_set_ne apart, found]

theorem mem_set_self {α : Type} (items : List α) (index : Nat) (replaced value : α)
    (there : items[index]? = some replaced) : value ∈ items.set index value := by
  obtain ⟨inside, _⟩ := List.getElem?_eq_some_iff.mp there
  exact List.mem_set inside value

theorem wakeWriter_keeps (session : HttpSession) :
    session.wakeWriter.writeBuffer = session.writeBuffer ∧ session.wakeWriter.pipe = session.pipe ∧
      session.wakeWriter.tasks = session.tasks ∧
      (.appended ∈ session.writers → .appended ∈ session.wakeWriter.writers) := by
  unfold HttpSession.wakeWriter
  split
  · exact ⟨rfl, rfl, rfl, id⟩
  · split
    · rename_i held
      exact ⟨rfl, rfl, rfl, fun member => mem_set_of_other _ _ _ _ _ member held (by simp)⟩
    · exact ⟨rfl, rfl, rfl, id⟩

theorem registWrite_buffer (session : HttpSession) : session.registWrite.writeBuffer = [] := by
  unfold HttpSession.registWrite
  split
  · rename_i empty
    exact (wakeWriter_keeps session).1.trans empty
  · exact (wakeWriter_keeps _).1

theorem append_announced (session : HttpSession) (writer : Nat) (waiting : Waiting)
    (data : List UInt8) (announced : Announced session)
    (there : session.writers[writer]? = some (.entered waiting data)) :
    Announced (session.append writer waiting data) := by
  unfold HttpSession.append
  split
  · intro _
    exact .inr (.inl (mem_set_self _ _ _ _ there))
  · intro buffered
    rcases announced buffered with signalled | appended | running
    · exact .inl signalled
    · exact .inr (.inl (mem_set_of_other _ _ _ _ _ appended there (by simp)))
    · exact .inr (.inr running)

theorem signal_announced (session : HttpSession) (writer : Nat)
    (noticed : session.sendFlag = true ∨ session.writeBuffer = []) :
    Announced (session.signal writer) := by
  intro buffered
  rcases noticed with flag | empty
  · left
    simp only [HttpSession.signal, flag, if_true, HttpSession.pipeCapacity]
    omega
  · exact absurd empty buffered

theorem eraseIdx_announced (session : HttpSession) (index : Nat) (task : Task)
    (there : session.tasks[index]? = some task) (apart : task.pending = false)
    (announced : Announced session) :
    Announced { session with tasks := session.tasks.eraseIdx index } := by
  intro buffered
  rcases announced buffered with signalled | appended | ⟨other, running, pending⟩
  · exact .inl signalled
  · exact .inr (.inl appended)
  · refine .inr (.inr ⟨other, ?_, pending⟩)
    obtain ⟨position, found⟩ := List.mem_iff_getElem?.mp running
    refine List.mem_eraseIdx_iff_getElem?.mpr ⟨position, ?_, found⟩
    rintro rfl
    rw [there] at found
    cases found
    rw [apart] at pending
    cases pending

theorem work_announced (session : HttpSession) (index : Nat) (next : HttpSession)
    (announced : Announced session) (taken : session.step (.work index) = some next) :
    Announced next := by
  rw [HttpSession.step] at taken
  split at taken
  · rename_i there
    cases taken
    intro _
    exact .inr (.inr ⟨.awaitSendFlag, mem_set_self _ _ _ _ there, rfl⟩)
  · rename_i there
    cases taken
    intro _
    refine .inr (.inr ⟨_, mem_set_self _ _ _ _ there, ?_⟩)
    split <;> rfl
  · cases taken
    intro buffered
    exact absurd (registWrite_buffer _) buffered
  · rename_i data there
    cases taken
    have kept := eraseIdx_announced session index _ there rfl announced
    unfold HttpSession.send
    split <;> exact kept
  · cases taken

theorem sent_announced (session : HttpSession) (index len : Nat) (next : HttpSession)
    (announced : Announced session) (taken : session.step (.sent index len) = some next) :
    Announced next := by
  rw [HttpSession.step] at taken
  split at taken
  · rename_i data there
    split at taken
    · cases taken
      have kept := eraseIdx_announced session index _ there rfl announced
      unfold HttpSession.transmitted HttpSession.send
      dsimp only
      split
      · split <;> exact kept
      · exact kept
    · cases taken
  · cases taken

theorem step_announced (session : HttpSession) (action : Action) (next : HttpSession)
    (announced : Announced session) (noticed : Noticed session action)
    (taken : session.step action = some next) : Announced next := by
  cases action with
  | call waiting data =>
      cases taken
      intro buffered
      rcases announced buffered with signalled | appended | running
      · exact .inl signalled
      · exact .inr (.inl (List.mem_append_left _ appended))
      · exact .inr (.inr running)
  | append writer =>
      rw [HttpSession.step] at taken
      split at taken
      · rename_i waiting data there
        cases taken
        exact append_announced session writer waiting data announced there
      · cases taken
  | signal writer =>
      rw [HttpSession.step] at taken
      split at taken
      · cases taken
        exact signal_announced session writer noticed
      · cases taken
  | pipeReadable =>
      rw [HttpSession.step] at taken
      split at taken
      · rename_i ready
        cases taken
        intro _
        exact .inl ready.2
      · cases taken
  | socketWritable =>
      obtain ⟨task, _, rfl⟩ := Option.map_eq_some_iff.mp taken
      intro buffered
      rcases announced buffered with signalled | appended | ⟨other, running, pending⟩
      · exact .inl signalled
      · exact .inr (.inl appended)
      · exact .inr (.inr ⟨other, List.mem_append_left _ running, pending⟩)
  | work index => exact work_announced session index next announced taken
  | sent index len => exact sent_announced session index len next announced taken

theorem fresh_announced (capacity : Nat) : Announced (HttpSession.fresh capacity) := by
  intro buffered
  exact absurd rfl buffered

/-- In every interleaving in which each writer tests the flag while it is set, or after its
data was taken, no wake-up is lost. -/
theorem noticed_runs_stay_awake (capacity : Nat) (actions : List Action)
    (noticed : Guarded HttpSession.step Noticed (HttpSession.fresh capacity) actions) :
    Always HttpSession.step Awake (HttpSession.fresh capacity) actions :=
  guarded_always step_announced awake_of_announced actions _ (fresh_announced capacity) noticed

/-- A writer's byte goes through the pipe, is taken and sent. -/
def delivery : List Action :=
  [.call .toReady [1], .append 0, .signal 0, .pipeReadable, .work 0, .work 0, .work 0,
    .socketWritable, .work 0, .socketWritable, .sent 0 1]

theorem delivery_stays_awake :
    Always HttpSession.step Awake (HttpSession.fresh 4096) delivery :=
  noticed_runs_stay_awake 4096 delivery (by decide +kernel)

/-- A second writer appends and tests the flag while the first one's byte is being sent. -/
def overtaken : List Action :=
  [.call .toReady [1], .append 0, .signal 0, .pipeReadable, .work 0, .work 0, .work 0,
    .call .toReady [2], .append 1, .signal 1,
    .socketWritable, .work 0, .socketWritable, .sent 0 1]

/-- Its byte stays in the buffer and nothing is left that would look there. -/
theorem second_writer_stranded :
    ¬ ∀ (capacity : Nat) (actions : List Action),
      Always HttpSession.step Awake (HttpSession.fresh capacity) actions := by
  intro always_awake
  have awake := always_awake 4096 overtaken overtaken [] _ (by simp) rfl
  have empty := awake ⟨rfl, rfl, rfl, rfl, by decide +kernel⟩
  revert empty
  decide +kernel

end OtaMqtt.Http.Session
