import OtaMqtt.Http.WriteRing

/-! `HttpServer::response` (sherry/http/http_server.cc) and the `write_buffer` behind it, beside the
sender of the session.

The call waits until no WRITE event is registered for the descriptor, without giving up its thread,
and then tries until the write buffer takes its payload, and yields in between. -/

namespace OtaMqtt.Http.Delivery

open OtaMqtt.Lib.Execution OtaMqtt.Lib.Trace
open OtaMqtt.Http.Buffer OtaMqtt.Http.Queueing
open OtaMqtt.Http.RingStates (InRange occupied room consume_cases map_snd_eq_ok step_inRange)
open OtaMqtt.Http.Session (Waiting)
open OtaMqtt.Http.WriteRing (Straight queued_nil_iff read_queue)

/-- What the server holds for a descriptor: whether its socket is there, whether a WRITE event is
registered, whether another thread serves events meanwhile, and the write buffer of its session. -/
structure Connection where
  socket : Bool
  writing : Bool
  others : Bool
  ring : HttpBuffer

/-- As `accept` leaves it, in a server with several threads. -/
def Connection.fresh (junk : Nat → UInt8) : Connection := ⟨true, false, true, .fresh bufferSize junk⟩

/-- A fiber that yielded to hold is not `awake` until the sender schedules it. -/
inductive Stage where
  | waiting
  | yielded (awake : Bool)
  | returned (queued : Bool)
  deriving DecidableEq

structure State where
  stage : Stage
  connection : Connection

/-- A turn of the fiber that responds, the callback of the WRITE event, which may register the next
one, and `regist_event (WRITE)`. -/
inductive Label where
  | turn
  | written (more : Bool)
  | registWrite

/-- The sender takes all data of the ring, and registers a WRITE event for it. -/
def Connection.drainedTo (connection : Connection) (ring : HttpBuffer) : Connection :=
  { connection with
    writing := connection.writing || connection.ring.getDataSize ≠ 0
    ring := ring }

/-- A null socket is logged, and nothing else is done. -/
def enter (connection : Connection) : State :=
  ⟨if connection.socket then .waiting else .returned false, connection⟩

section
variable (waiting : Waiting) (data : Nat → UInt8) (size : Nat)

/-- One turn of the loop of `write_buffer`. -/
def attempt (connection : Connection) : Option State :=
  match writeBuffer waiting connection.ring data size with
  | .ok (.returned queued, ring) => some ⟨.returned queued, { connection with ring := ring }⟩
  | .ok (.yielded waiting, ring) =>
      some ⟨.yielded (waiting = .toReady), { connection with ring := ring }⟩
  | .error _ => none

def turn (state : State) : Option State :=
  match state.stage with
  | .waiting =>
      if state.connection.writing then some state else attempt waiting data size state.connection
  | .yielded true => attempt waiting data size state.connection
  | .yielded false => none
  | .returned _ => none

/-- Whether the sender can run: a fiber that waits for the WRITE event keeps its thread busy. -/
def Stage.free (others : Bool) : Stage → Bool
  | .waiting => others
  | _ => true

def Stage.wake : Stage → Stage
  | .yielded _ => .yielded true
  | stage => stage

def step (state : State) : Label → Option State
  | .turn => turn waiting data size state
  | .written more =>
      if state.stage.free state.connection.others && state.connection.writing then
        some { state with connection.writing := more }
      else none
  | .registWrite =>
      if state.stage.free state.connection.others then
        (registWrite state.connection.ring).toOption.map fun ring =>
          ⟨state.stage.wake, state.connection.drainedTo ring⟩
      else none

end

/-- The payload fits beside the slots that the indices enclose. -/
def Fits (ring : HttpBuffer) (size : Nat) : Prop := size + occupied ring ≤ ring.slots

instance (ring : HttpBuffer) (size : Nat) : Decidable (Fits ring size) :=
  inferInstanceAs (Decidable (_ ≤ _))

def FitsDrained (ring : HttpBuffer) (size : Nat) : Prop :=
  match registWrite ring with
  | .ok next => Fits next size
  | .error _ => False

instance (ring : HttpBuffer) (size : Nat) : Decidable (FitsDrained ring size) :=
  match drained : registWrite ring with
  | .ok next => decidable_of_iff (Fits next size) (by rw [FitsDrained, drained])
  | .error _ => .isFalse (by rw [FitsDrained, drained]; exact id)

/-- The call can still come back. -/
def CanReturn (state : State) (size : Nat) : Prop :=
  match state.stage with
  | .waiting => (state.connection.writing = true → state.connection.others = true) ∧
      (Fits state.connection.ring size ∨ FitsDrained state.connection.ring size)
  | .yielded awake => (awake = true ∧ Fits state.connection.ring size) ∨
      FitsDrained state.connection.ring size
  | .returned _ => True

theorem subSize_self (value : Nat) : subSize value value = 0 := by
  unfold subSize
  omega

section
variable {ring next : HttpBuffer} {size : Nat}

theorem readBySize_spent {ret : Option (List UInt8)}
    (read : ring.readBySize ring.size = .ok (ret, next)) : next = ring ∨ next.size = 0 := by
  have spent : ∀ taken, ring.consume ring.size = .ok taken → taken.size = 0 := by
    intro taken consumed
    rw [consume_cases ring taken _ consumed]
    exact subSize_self ring.size
  simp only [HttpBuffer.readBySize] at read
  split at read
  · split at read
    · cases read
      exact .inl rfl
    · obtain ⟨bytes, -, read⟩ := (bind_eq_ok ..).mp read
      obtain ⟨taken, consumed, read⟩ := (bind_eq_ok ..).mp read
      cases read
      exact .inr (spent _ consumed)
  · split at read
    · cases read
      exact .inl rfl
    · split at read
      · cases read
      · obtain ⟨right, -, read⟩ := (bind_eq_ok ..).mp read
        obtain ⟨left, -, read⟩ := (bind_eq_ok ..).mp read
        obtain ⟨taken, consumed, read⟩ := (bind_eq_ok ..).mp read
        cases read
        exact .inr (spent _ consumed)

theorem registWrite_again (taken : registWrite ring = .ok next) : registWrite next = .ok next := by
  have first := taken
  simp only [registWrite] at taken
  split at taken
  · cases taken
    exact first
  · obtain ⟨ret, read⟩ := map_snd_eq_ok _ _ taken
    rcases readBySize_spent read with rfl | spent
    · exact first
    · rw [registWrite, HttpBuffer.getDataSize, if_pos spent]

theorem registWrite_inRange (inside : InRange ring) (taken : registWrite ring = .ok next) :
    InRange next := by
  have stepped : Queueing.step ring .registWrite = some next := by
    rw [Queueing.step, act, taken]
    rfl
  rcases step_calls _ stepped with rfl | ⟨call, called, -⟩
  · exact inside
  · exact (step_inRange ring call next inside called).1

theorem writeBuffer_inRange {waiting : Waiting} {data : Nat → UInt8} {turn : Turn}
    (inside : InRange ring) (taken : writeBuffer waiting ring data size = .ok (turn, next)) :
    InRange next := by
  have stepped : Queueing.step ring (.writeBuffer waiting data size) = some next := by
    rw [Queueing.step, act, taken]
    rfl
  rcases step_calls _ stepped with rfl | ⟨call, called, -⟩
  · exact inside
  · exact (step_inRange ring call next inside called).1

theorem fitsDrained_ok (taken : registWrite ring = .ok next) : FitsDrained ring size ↔ Fits next size := by
  rw [FitsDrained, taken]

theorem fitsDrained_again (taken : registWrite ring = .ok next) :
    FitsDrained next size ↔ FitsDrained ring size := by
  rw [fitsDrained_ok taken, fitsDrained_ok (registWrite_again taken)]

end

section
variable {waiting : Waiting} {data : Nat → UInt8} {size : Nat} {state next : State}

theorem attempt_fits (waiting : Waiting) (data : Nat → UInt8) {connection : Connection} (inside : InRange connection.ring)
    (fits : Fits connection.ring size) :
    ∃ ring, InRange ring ∧ attempt waiting data size connection =
      some ⟨.returned (decide (1 ≤ size)), { connection with ring := ring }⟩ := by
  by_cases none : size = 0
  · refine ⟨connection.ring, inside, ?_⟩
    rw [attempt, writeBuffer, if_pos none, none]
    rfl
  · have positive : 1 ≤ size := Nat.pos_of_ne_zero none
    obtain ⟨ring, taken⟩ := (writeBuffer_accepted_iff waiting data inside positive).mpr fits
    refine ⟨ring, writeBuffer_inRange inside taken, ?_⟩
    rw [attempt, taken, decide_eq_true positive]

theorem attempt_refused {connection : Connection} (inside : InRange connection.ring)
    (full : ¬ Fits connection.ring size) :
    attempt waiting data size connection = some ⟨.yielded (waiting = .toReady), connection⟩ := by
  have free := room_add_occupied inside
  have short : room connection.ring < size := by
    rw [Fits] at full
    omega
  have positive : 1 ≤ size := by omega
  rcases writeBuffer_spec waiting data inside positive with ⟨-, yielded⟩ | ⟨enough, -⟩
  · rw [attempt, yielded]
  · omega

theorem step_registWrite (state : State) {ring : HttpBuffer}
    (free : state.stage.free state.connection.others = true)
    (drained : registWrite state.connection.ring = .ok ring) :
    step waiting data size state .registWrite =
      some ⟨state.stage.wake, state.connection.drainedTo ring⟩ := by
  rw [step, if_pos free, drained]
  rfl

theorem step_cases (inside : InRange state.connection.ring) (label : Label)
    (taken : step waiting data size state label = some next) :
    (∃ ring, next = ⟨.returned (decide (1 ≤ size)), { state.connection with ring := ring }⟩ ∧
        InRange ring ∧ Fits state.connection.ring size ∧
        ((state.stage = .waiting ∧ state.connection.writing = false) ∨ state.stage = .yielded true)) ∨
      (∃ awake, next = ⟨.yielded awake, state.connection⟩ ∧ ¬ Fits state.connection.ring size ∧
        ((state.stage = .waiting ∧ state.connection.writing = false) ∨ state.stage = .yielded true)) ∨
      (∃ more, next = { state with connection.writing := more } ∧
        (more = state.connection.writing ∨ state.stage.free state.connection.others = true)) ∨
      (label = .registWrite ∧ ∃ ring, registWrite state.connection.ring = .ok ring ∧
        next = ⟨state.stage.wake, state.connection.drainedTo ring⟩ ∧
        state.stage.free state.connection.others = true) := by
  have attempted : ∀ reached, attempt waiting data size state.connection = some reached →
      (∃ ring, reached = ⟨.returned (decide (1 ≤ size)), { state.connection with ring := ring }⟩ ∧
        InRange ring ∧ Fits state.connection.ring size) ∨
      (∃ awake, reached = ⟨.yielded awake, state.connection⟩ ∧ ¬ Fits state.connection.ring size) := by
    intro reached tried
    by_cases fits : Fits state.connection.ring size
    · obtain ⟨ring, kept, done⟩ := attempt_fits waiting data inside fits
      rw [done] at tried
      exact .inl ⟨ring, (Option.some.inj tried).symm, kept, fits⟩
    · rw [attempt_refused inside fits] at tried
      exact .inr ⟨_, (Option.some.inj tried).symm, fits⟩
  cases label with
  | turn =>
      rw [step, turn] at taken
      split at taken
      · rename_i stage
        split at taken
        · cases taken
          exact .inr (.inr (.inl ⟨_, rfl, .inl rfl⟩))
        · rename_i idle
          have idle : state.connection.writing = false := Bool.eq_false_iff.mpr idle
          rcases attempted next taken with ⟨ring, done, kept, fits⟩ | ⟨awake, done, full⟩
          · exact .inl ⟨ring, done, kept, fits, .inl ⟨stage, idle⟩⟩
          · exact .inr (.inl ⟨awake, done, full, .inl ⟨stage, idle⟩⟩)
      · rename_i stage
        rcases attempted next taken with ⟨ring, done, kept, fits⟩ | ⟨awake, done, full⟩
        · exact .inl ⟨ring, done, kept, fits, .inr stage⟩
        · exact .inr (.inl ⟨awake, done, full, .inr stage⟩)
      · cases taken
      · cases taken
  | written more =>
      rw [step] at taken
      split at taken
      · rename_i enabled
        cases taken
        exact .inr (.inr (.inl ⟨more, rfl, .inr (Bool.and_eq_true_iff.mp enabled).1⟩))
      · cases taken
  | registWrite =>
      rw [step] at taken
      split at taken
      · rename_i enabled
        obtain ⟨ring, drained, rfl⟩ := Option.map_eq_some_iff.mp taken
        cases registered : registWrite state.connection.ring with
        | error reason =>
            rw [registered] at drained
            cases drained
        | ok ring' =>
            rw [registered] at drained
            cases drained
            exact .inr (.inr (.inr ⟨rfl, ring, rfl, rfl, enabled⟩))
      · cases taken

theorem step_inside (label : Label) (inside : InRange state.connection.ring)
    (taken : step waiting data size state label = some next) : InRange next.connection.ring := by
  rcases step_cases inside label taken with
    ⟨ring, rfl, kept, -⟩ | ⟨awake, rfl, -, -⟩ | ⟨more, rfl, -⟩ | ⟨-, ring, drained, rfl, -⟩
  · exact kept
  · exact inside
  · exact inside
  · exact registWrite_inRange inside drained

theorem canReturn_back (inside : InRange state.connection.ring) (label : Label)
    (taken : step waiting data size state label = some next) (later : CanReturn next size) :
    CanReturn state size := by
  rcases step_cases inside label taken with
    ⟨ring, rfl, -, fits, ⟨stage, idle⟩ | stage⟩ | ⟨awake, rfl, full, ⟨stage, idle⟩ | stage⟩ |
      ⟨more, rfl, same | free⟩ | ⟨-, ring, drained, rfl, free⟩
  · rw [CanReturn, stage]
    exact ⟨fun busy => absurd busy (by simp [idle]), .inl fits⟩
  · rw [CanReturn, stage]
    exact .inl ⟨rfl, fits⟩
  · rw [CanReturn] at later ⊢
    rw [stage]
    exact ⟨fun busy => absurd busy (by simp [idle]), .inr (later.resolve_left fun fits => full fits.2)⟩
  · rw [CanReturn] at later ⊢
    rw [stage]
    exact .inr (later.resolve_left fun fits => full fits.2)
  · rw [same] at later
    exact later
  · rw [CanReturn] at later ⊢
    cases stage : state.stage with
    | waiting =>
        rw [stage] at later free
        exact ⟨fun _ => free, later.2⟩
    | yielded awake =>
        rw [stage] at later
        exact later
    | returned queued => trivial
  · rw [CanReturn] at later ⊢
    cases stage : state.stage with
    | waiting =>
        rw [stage] at later free
        refine ⟨fun _ => free, .inr ?_⟩
        rcases later.2 with fits | fits
        · exact (fitsDrained_ok drained).mpr fits
        · exact (fitsDrained_again drained).mp fits
    | yielded awake =>
        rw [stage] at later
        rcases later with ⟨-, fits⟩ | fits
        · exact .inr ((fitsDrained_ok drained).mpr fits)
        · exact .inr ((fitsDrained_again drained).mp fits)
    | returned queued => trivial

instance (state : State) (size : Nat) : Decidable (CanReturn state size) :=
  match found : state.stage with
  | .waiting => decidable_of_iff ((state.connection.writing = true → state.connection.others = true) ∧
      (Fits state.connection.ring size ∨ FitsDrained state.connection.ring size))
      (by rw [CanReturn, found])
  | .yielded awake => decidable_of_iff ((awake = true ∧ Fits state.connection.ring size) ∨
      FitsDrained state.connection.ring size) (by rw [CanReturn, found])
  | .returned _ => .isTrue (by rw [CanReturn, found]; trivial)

/-- The sender does not take data that leave no room for the payload behind them. -/
def Spared (state : State) (size : Nat) : Label → Prop
  | .registWrite => ∀ ring, registWrite state.connection.ring = .ok ring →
      state.stage.free state.connection.others = true → Fits ring size
  | _ => True

/-- A call that can come back stays so exactly in the steps that spare it. -/
theorem canReturn_iff_spared (inside : InRange state.connection.ring) (label : Label)
    (running : ∀ queued, state.stage ≠ .returned queued) (can : CanReturn state size)
    (taken : step waiting data size state label = some next) :
    CanReturn next size ↔ Spared state size label := by
  by_cases drains : label = .registWrite
  · subst drains
    rw [step] at taken
    split at taken
    · rename_i free
      obtain ⟨ring, drained, rfl⟩ := Option.map_eq_some_iff.mp taken
      cases registered : registWrite state.connection.ring with
      | error reason =>
          rw [registered] at drained
          cases drained
      | ok ring' =>
          rw [registered] at drained
          cases drained
          have later : CanReturn ⟨state.stage.wake, state.connection.drainedTo ring⟩ size ↔
              Fits ring size := by
            have again := @fitsDrained_ok _ _ size (registWrite_again registered)
            rw [CanReturn]
            cases stage : state.stage with
            | waiting =>
                rw [stage] at free
                simp only [Stage.wake, Connection.drainedTo, again, or_self]
                exact and_iff_right fun _ => free
            | yielded awake => simp [Stage.wake, Connection.drainedTo, again]
            | returned queued => exact absurd stage (running queued)
          rw [later, Spared]
          constructor
          · intro fits other same _
            rw [registered] at same
            cases same
            exact fits
          · intro spared
            exact spared ring registered free
    · cases taken
  · have quiet : Spared state size label := by
      cases label with
      | turn => trivial
      | written more => trivial
      | registWrite => exact absurd rfl drains
    refine iff_of_true ?_ quiet
    rcases step_cases inside label taken with
      ⟨ring, rfl, -, -⟩ | ⟨awake, rfl, full, before⟩ | ⟨more, rfl, same⟩ | ⟨registers, -⟩
    · trivial
    · rw [CanReturn] at can ⊢
      rcases before with ⟨stage, -⟩ | stage
      · rw [stage] at can
        exact .inr (can.2.resolve_left full)
      · rw [stage] at can
        exact .inr (can.resolve_left fun fits => full fits.2)
    · rw [CanReturn] at can ⊢
      cases stage : state.stage with
      | waiting =>
          rw [stage] at can same
          refine ⟨fun busy => ?_, can.2⟩
          rcases same with rfl | free
          · exact can.1 busy
          · exact free
      | yielded awake =>
          rw [stage] at can
          exact can
      | returned queued => trivial
    · exact absurd registers drains

theorem step_of_not_spared (label : Label) (taken : ¬ Spared state size label) :
    ∃ next, step waiting data size state label = some next := by
  cases label with
  | turn => exact absurd trivial taken
  | written more => exact absurd trivial taken
  | registWrite =>
      rw [Spared] at taken
      push Not at taken
      obtain ⟨ring, drained, free, -⟩ := taken
      exact ⟨_, step_registWrite state free drained⟩

def Returns (waiting : Waiting) (data : Nat → UInt8) (size : Nat) (state : State) : Prop :=
  ∃ labels last queued, run (step waiting data size) state labels = some last ∧
    last.stage = .returned queued

theorem Returns.before (label : Label) (next : State)
    (taken : step waiting data size state label = some next)
    (returns : Returns waiting data size next) : Returns waiting data size state := by
  obtain ⟨labels, last, queued, ran, done⟩ := returns
  exact ⟨label :: labels, last, queued, by rw [run_cons, taken, Option.bind_some, ran], done⟩

theorem returns_by_attempt (waiting : Waiting) (data : Nat → UInt8) (connection : Connection)
    (inside : InRange connection.ring) (fits : Fits connection.ring size) :
    ∃ last, attempt waiting data size connection = some last ∧ Returns waiting data size last := by
  obtain ⟨ring, -, done⟩ := attempt_fits waiting data inside fits
  exact ⟨_, done, [], _, _, rfl, rfl⟩

/-- A fiber that yielded comes back once the sender has made room. -/
theorem returns_drained (connection : Connection) (awake : Bool) (inside : InRange connection.ring)
    (fits : FitsDrained connection.ring size) :
    Returns waiting data size ⟨.yielded awake, connection⟩ := by
  cases drained : registWrite connection.ring with
  | error reason =>
      rw [FitsDrained, drained] at fits
      exact fits.elim
  | ok ring =>
      rw [fitsDrained_ok drained] at fits
      have taken : step waiting data size _ _ = _ := step_registWrite ⟨.yielded awake, connection⟩ rfl drained
      obtain ⟨last, tried, returns⟩ := returns_by_attempt waiting data (connection.drainedTo ring)
        (registWrite_inRange inside drained) fits
      have turns : Returns waiting data size ⟨.yielded true, connection.drainedTo ring⟩ :=
        returns.before .turn last tried
      exact turns.before .registWrite _ taken

theorem returns_idle (connection : Connection) (inside : InRange connection.ring)
    (idle : connection.writing = false)
    (fits : Fits connection.ring size ∨ FitsDrained connection.ring size) :
    Returns waiting data size ⟨.waiting, connection⟩ := by
  have turns : step waiting data size ⟨.waiting, connection⟩ .turn =
      attempt waiting data size connection := by
    rw [step, turn]
    exact if_neg (Bool.eq_false_iff.mp idle)
  by_cases now : Fits connection.ring size
  · obtain ⟨last, tried, returns⟩ :=
      returns_by_attempt waiting data connection inside now
    exact returns.before .turn _ (turns.trans tried)
  · apply Returns.before .turn _ (turns.trans (attempt_refused inside now))
    exact returns_drained connection _ inside (fits.resolve_left now)

/-- A call can come back exactly when there is room for its payload, now or once the sender has
taken what is queued, and nothing keeps it from trying. -/
theorem returns_iff (inside : InRange state.connection.ring) :
    Returns waiting data size state ↔ CanReturn state size := by
  constructor
  · rintro ⟨labels, last, queued, ran, done⟩
    induction labels generalizing state with
    | nil =>
        cases ran
        rw [CanReturn, done]
        trivial
    | cons label labels ih =>
        rw [run_cons] at ran
        obtain ⟨next, taken, rest⟩ := Option.bind_eq_some_iff.mp ran
        exact canReturn_back inside label taken (ih (step_inside label inside taken) rest)
  · intro can
    obtain ⟨stage, connection⟩ := state
    cases stage with
    | waiting =>
        obtain ⟨free, fits⟩ := can
        cases idle : connection.writing with
        | false => exact returns_idle connection inside idle fits
        | true =>
            apply Returns.before (.written false) ⟨.waiting, { connection with writing := false }⟩
            · have others : connection.others = true := free idle
              simp [step, Stage.free, others, idle]
            · exact returns_idle _ inside rfl fits
    | yielded awake =>
        rcases can with ⟨rfl, fits⟩ | fits
        · obtain ⟨last, tried, returns⟩ :=
            returns_by_attempt waiting data connection inside fits
          exact returns.before .turn _ tried
        · exact returns_drained connection awake inside fits
    | returned queued => exact ⟨[], _, queued, rfl, rfl⟩

theorem stage_queued (inside : InRange state.connection.ring) (positive : 1 ≤ size) (label : Label)
    (taken : step waiting data size state label = some next) (early : state.stage ≠ .returned false) :
    next.stage ≠ .returned false := by
  rcases step_cases inside label taken with
    ⟨ring, rfl, -, -⟩ | ⟨awake, rfl, -, -⟩ | ⟨more, rfl, -⟩ | ⟨-, ring, -, rfl, -⟩
  · simp [positive]
  · simp
  · exact early
  · cases stage : state.stage with
    | waiting => simp [Stage.wake]
    | yielded awake => simp [Stage.wake]
    | returned queued =>
        rw [stage] at early
        exact early

theorem stage_unqueued (inside : InRange state.connection.ring) (label : Label)
    (taken : step waiting data 0 state label = some next) (early : state.stage ≠ .returned true) :
    next.stage ≠ .returned true := by
  rcases step_cases inside label taken with
    ⟨ring, rfl, -, -⟩ | ⟨awake, rfl, -, -⟩ | ⟨more, rfl, -⟩ | ⟨-, ring, -, rfl, -⟩
  · simp
  · simp
  · exact early
  · cases stage : state.stage with
    | waiting => simp [Stage.wake]
    | yielded awake => simp [Stage.wake]
    | returned queued =>
        rw [stage] at early
        exact early

def Queues (waiting : Waiting) (data : Nat → UInt8) (size : Nat) (state : State) : Prop :=
  ∃ labels last, run (step waiting data size) state labels = some last ∧
    last.stage = .returned true

theorem queues_of_returns (inside : InRange state.connection.ring) (positive : 1 ≤ size)
    (early : state.stage ≠ .returned false) (returns : Returns waiting data size state) :
    Queues waiting data size state := by
  obtain ⟨labels, last, queued, ran, done⟩ := returns
  have kept : ∀ before label after, InRange before.connection.ring ∧ before.stage ≠ .returned false →
      step waiting data size before label = some after →
        InRange after.connection.ring ∧ after.stage ≠ .returned false :=
    fun before label after both taken =>
      ⟨step_inside label both.1 taken, stage_queued both.1 positive label taken both.2⟩
  have late := (run_preserves kept labels state last ⟨inside, early⟩ ran).2
  refine ⟨labels, last, ran, ?_⟩
  cases queued with
  | true => exact done
  | false => exact absurd done late

/-- Whatever the sender does, the payload is queued in the end. -/
def Delivered (waiting : Waiting) (data : Nat → UInt8) (size : Nat) (connection : Connection) : Prop :=
  ∀ labels state, run (step waiting data size) (enter connection) labels = some state →
    Queues waiting data size state

def drained (ring : HttpBuffer) : HttpBuffer :=
  match registWrite ring with
  | .ok next => next
  | .error _ => ring

theorem drained_ok {ring next : HttpBuffer} (taken : registWrite ring = .ok next) : drained ring = next := by
  rw [drained, taken]

/-- There is a socket, something to send, and room for it: once the sender has taken what is queued
where it may come first, and at the first try or after that where the thread is kept. -/
def Room (connection : Connection) (size : Nat) : Prop :=
  connection.socket = true ∧ 1 ≤ size ∧
    if connection.others then Fits (drained connection.ring) size
    else connection.writing = false ∧ (Fits connection.ring size ∨ FitsDrained connection.ring size)

instance (connection : Connection) (size : Nat) : Decidable (Room connection size) :=
  inferInstanceAs (Decidable (_ ∧ _ ∧ _))

def Secure (size : Nat) (state : State) : Prop :=
  match state.stage with
  | .waiting => Room state.connection size
  | .yielded _ => FitsDrained state.connection.ring size
  | .returned queued => queued = true

theorem room_others {connection : Connection} {ring : HttpBuffer} (others : connection.others = true)
    (taken : registWrite connection.ring = .ok ring) :
    Room connection size ↔ connection.socket = true ∧ 1 ≤ size ∧ Fits ring size := by
  rw [Room, if_pos others, drained_ok taken]

theorem room_drained {connection : Connection} (roomy : Room connection size) :
    Fits connection.ring size ∨ FitsDrained connection.ring size := by
  obtain ⟨-, -, room⟩ := roomy
  split at room
  · cases taken : registWrite connection.ring with
    | ok next =>
        rw [drained_ok taken] at room
        exact .inr ((fitsDrained_ok taken).mpr room)
    | error reason =>
        rw [drained, taken] at room
        exact .inl room
  · exact room.2

theorem secure_step (positive : 1 ≤ size) (inside : InRange state.connection.ring) (label : Label)
    (secure : Secure size state) (taken : step waiting data size state label = some next) :
    Secure size next := by
  rcases step_cases inside label taken with
    ⟨ring, rfl, -, -⟩ | ⟨awake, rfl, full, before⟩ | ⟨more, rfl, same | free⟩ |
      ⟨-, ring, drained, rfl, free⟩
  · exact decide_eq_true positive
  · rw [Secure] at secure ⊢
    rcases before with ⟨stage, idle⟩ | stage
    · rw [stage] at secure
      exact (room_drained secure).resolve_left full
    · rw [stage] at secure
      exact secure
  · rw [same]
    exact secure
  · rw [Secure] at secure ⊢
    cases stage : state.stage with
    | waiting =>
        rw [stage] at secure free
        have others : state.connection.others = true := free
        simp only [Room, others, if_true] at secure ⊢
        exact secure
    | yielded awake =>
        rw [stage] at secure
        exact secure
    | returned queued =>
        rw [stage] at secure
        exact secure
  · rw [Secure] at secure ⊢
    cases stage : state.stage with
    | waiting =>
        rw [stage] at secure free
        have again := registWrite_again drained
        exact (@room_others size (state.connection.drainedTo ring) ring free again).mpr
          ((room_others free drained).mp secure)
    | yielded awake =>
        rw [stage] at secure
        exact (fitsDrained_again drained).mpr secure
    | returned queued =>
        rw [stage] at secure
        exact secure

theorem secure_queues (positive : 1 ≤ size) (inside : InRange state.connection.ring)
    (secure : Secure size state) : Queues waiting data size state := by
  rw [Secure] at secure
  apply queues_of_returns inside positive
  · intro stage
    rw [stage] at secure
    cases secure
  · rw [returns_iff inside, CanReturn]
    cases stage : state.stage with
    | waiting =>
        rw [stage] at secure
        cases others : state.connection.others with
        | true => exact ⟨fun _ => rfl, room_drained secure⟩
        | false =>
            have idle : state.connection.writing = false := by
              have room := secure.2.2
              rw [others] at room
              exact room.1
            exact ⟨fun busy => absurd busy (by simp [idle]), room_drained secure⟩
    | yielded awake =>
        rw [stage] at secure
        exact .inr secure
    | returned queued => trivial

theorem delivered_positive {connection : Connection} (inside : InRange connection.ring)
    (delivered : Delivered waiting data size connection) : connection.socket = true ∧ 1 ≤ size := by
  obtain ⟨labels, last, ran, done⟩ := delivered [] _ rfl
  constructor
  · by_contra missing
    have entered : (enter connection).stage = .returned false := if_neg missing
    have kept : ∀ before label after, before.stage = .returned false →
        step waiting data size before label = some after → after.stage = .returned false := by
      intro before label after stage taken
      cases label with
      | turn =>
          rw [step, turn, stage] at taken
          cases taken
      | written more =>
          rw [step] at taken
          split at taken
          · cases taken
            exact stage
          · cases taken
      | registWrite =>
          rw [step] at taken
          split at taken
          · obtain ⟨ring, -, rfl⟩ := Option.map_eq_some_iff.mp taken
            rw [stage]
            rfl
          · cases taken
    rw [run_preserves kept labels _ last entered ran] at done
    cases done
  · by_contra none
    obtain rfl : size = 0 := by omega
    have kept : ∀ before label after, InRange before.connection.ring ∧ before.stage ≠ .returned true →
        step waiting data 0 before label = some after →
          InRange after.connection.ring ∧ after.stage ≠ .returned true :=
      fun before label after both taken =>
        ⟨step_inside label both.1 taken, stage_unqueued both.1 label taken both.2⟩
    have entered : (enter connection).stage ≠ .returned true := by
      rw [enter]
      split
      · simp
      · simp
    exact (run_preserves kept labels _ last ⟨inside, entered⟩ ran).2 done

/-- A payload is queued, whatever the sender does, exactly when there is room for it. -/
theorem delivered_iff_room {connection : Connection} (inside : InRange connection.ring) :
    Delivered waiting data size connection ↔ Room connection size := by
  constructor
  · intro delivered
    obtain ⟨socket, positive⟩ := delivered_positive inside delivered
    have entered : enter connection = ⟨.waiting, connection⟩ := by rw [enter, if_pos socket]
    have can : ∀ labels state, run (step waiting data size) (enter connection) labels = some state →
        InRange state.connection.ring → CanReturn state size := by
      intro labels state reached kept
      obtain ⟨more, last, ran, done⟩ := delivered labels state reached
      exact (returns_iff kept).mp ⟨more, last, true, ran, done⟩
    have first := can [] _ rfl inside
    rw [entered] at first
    refine ⟨socket, positive, ?_⟩
    cases others : connection.others with
    | false =>
        obtain ⟨free, fits⟩ := first
        rw [if_neg Bool.false_ne_true]
        refine ⟨Bool.eq_false_iff.mpr fun busy => ?_, fits⟩
        have never := free busy
        rw [others] at never
        cases never
    | true =>
        rw [if_pos rfl]
        cases taken : registWrite connection.ring with
        | error reason =>
            rw [drained, taken]
            refine first.2.resolve_right fun never => ?_
            rw [FitsDrained, taken] at never
            exact never
        | ok next =>
            rw [drained_ok taken]
            have kept := registWrite_inRange inside taken
            have later := can [.registWrite] ⟨.waiting, connection.drainedTo next⟩ (by
              rw [entered, run_cons, step_registWrite ⟨.waiting, connection⟩ others taken]
              rfl) kept
            rcases later.2 with fits | fits
            · exact fits
            · exact (fitsDrained_ok (registWrite_again taken)).mp fits
  · intro roomy labels state reached
    have entered : Secure size (enter connection) := by
      rw [enter, if_pos roomy.1]
      exact roomy
    have kept : ∀ before label after, InRange before.connection.ring ∧ Secure size before →
        step waiting data size before label = some after →
          InRange after.connection.ring ∧ Secure size after :=
      fun before label after both taken =>
        ⟨step_inside label both.1 taken, secure_step roomy.2.1 both.1 label both.2 taken⟩
    obtain ⟨inside', secure⟩ := run_preserves kept labels _ state ⟨inside, entered⟩ reached
    exact secure_queues roomy.2.1 inside' secure

theorem drained_straight {ring : HttpBuffer} (straight : Straight ring) (apart : ring.endIdx ≠ ring.slots) :
    FitsDrained ring size ↔ size ≤ bufferSize + 1 := by
  have bare : ∀ next : HttpBuffer, Straight next → next.size = 0 → (Fits next size ↔ size ≤ bufferSize + 1) := by
    intro next kept spent
    rw [Fits, kept.occupied, spent, kept.slots, Nat.add_zero]
    rfl
  by_cases none : ring.getDataSize = 0
  · rw [fitsDrained_ok (if_pos none)]
    exact bare ring straight none
  · obtain ⟨next, read, kept, taken⟩ := read_queue straight apart
    have drained : registWrite ring = .ok next := by
      rw [registWrite, if_neg none, HttpBuffer.getDataSize, read]
      rfl
    rw [fitsDrained_ok drained]
    exact bare next kept ((queued_nil_iff next).mp taken)

/-- In a ring whose data do not end at its last slot there is room for every payload of up to 4097
bytes, however full it is. -/
theorem room_straight {connection : Connection} (straight : Straight connection.ring)
    (apart : connection.ring.endIdx ≠ connection.ring.slots) (socket : connection.socket = true)
    (free : connection.others = true ∨ connection.writing = false) :
    Room connection size ↔ 1 ≤ size ∧ size ≤ bufferSize + 1 := by
  have short : Fits connection.ring size → size ≤ bufferSize + 1 := by
    intro fits
    rw [Fits, straight.slots] at fits
    rw [bufferSize]
    omega
  constructor
  · intro roomy
    exact ⟨roomy.2.1, (room_drained roomy).elim short (drained_straight straight apart).mp⟩
  · rintro ⟨positive, bound⟩
    have fits := (drained_straight straight apart).mpr bound
    refine ⟨socket, positive, ?_⟩
    split
    · cases taken : registWrite connection.ring with
      | ok next =>
          rw [drained_ok taken]
          exact (fitsDrained_ok taken).mp fits
      | error reason =>
          rw [FitsDrained, taken] at fits
          exact fits.elim
    · rename_i alone
      exact ⟨free.resolve_left alone, .inr fits⟩

/-- No payload of more than 4097 bytes ever fits. -/
theorem fits_bounded {ring : HttpBuffer} (held : Held ring)
    (fits : Fits ring size ∨ FitsDrained ring size) : size ≤ bufferSize + 1 := by
  have short : ∀ ring, Held ring → Fits ring size → size ≤ bufferSize + 1 := by
    intro ring held fits
    rw [Fits, HttpBuffer.slots, held.2] at fits
    omega
  rcases fits with fits | fits
  · exact short _ held fits
  · cases taken : registWrite ring with
    | error reason =>
        rw [FitsDrained, taken] at fits
        exact fits.elim
    | ok next =>
        refine short next ?_ ((fitsDrained_ok taken).mp fits)
        apply step_held .registWrite held
        rw [Queueing.step, act, taken]
        rfl

theorem room_bounded {connection : Connection} (held : Held connection.ring)
    (roomy : Room connection size) : size ≤ bufferSize + 1 :=
  fits_bounded held (room_drained roomy)

theorem canReturn_bounded {connection : Connection} (held : Held connection.ring)
    (socket : connection.socket = true) (can : CanReturn (enter connection) size) :
    size ≤ bufferSize + 1 := by
  rw [enter, if_pos socket] at can
  exact fits_bounded held can.2

end

end OtaMqtt.Http.Delivery
