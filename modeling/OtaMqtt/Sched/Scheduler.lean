import OtaMqtt.Sched.Fiber

/-! `Scheduler` (sherry/scheduler.h, scheduler.cc) with any number of threads in `run`.

A turn of the loop is cut wherever another thread can come between: the scan of the queue under
`m_mutex`, every call of `tickle`, `swapIn`, the return from the fiber, the decrement of
`m_activeThreadCount` and what is done with the fiber after it. What a fiber does while it runs is
left open: it may call `schedule` and it returns in any of the ways a fiber can. Fibers are
known by their ids, and `s_fiber_id` is the last one given out. -/

namespace OtaMqtt.Sched

/-- An entry of `m_fibers`. The thread `-1` is `none`. -/
structure FiberAndThread (Cb : Type) where
  task : Task Cb Nat
  thread : Option Nat

inductive IdleStep (Idle : Type) where
  | stay (idle : Idle)
  | swapOut
  | finish

/-- An override of the virtual `tickle` and `idle`, with the state it keeps for them. `tickle`
reads the idle count; a step of `idle` may read whether the queue is empty and the active count,
and `schedules` tells where it may call `schedule`. -/
structure Derived where
  Env : Type
  Idle : Type
  Event : Type
  start : Env
  enter : Idle
  tickle : Nat → Env → Env
  idle : Bool → Nat → Env → Idle → Event → Option (Env × IdleStep Idle)
  schedules : Idle → Bool

/-- Where a thread is in `run`. A `scanned` thread has left the lock; `own` tells the callback
fiber of the thread from a fiber of the queue. -/
inductive Phase (Cb Idle : Type) where
  | scanning
  | scanned (found : Option (FiberAndThread Cb))
  | running (fiber : Nat) (own : Bool)
  | returned (fiber : Nat) (own : Bool)
  | settling (fiber : Nat) (own : Bool)
  | idling (idle : Idle)
  | idled
  | left

/-- A thread that `tickles` has to call `tickle` before anything else. -/
structure Worker (Cb Idle : Type) where
  phase : Phase Cb Idle
  tickles : Bool
  cbFiber : Option Nat
  idleTerm : Bool

/-- `callers` counts the calls of `schedule` from outside that still have to call `tickle`. -/
structure Scheduler (D : Derived) (Cb : Type) where
  threadCount : Nat
  fibers : List (FiberAndThread Cb)
  states : Nat → FiberState
  fiberId : Nat
  workers : Nat → Worker Cb D.Idle
  activeThreadCount : Nat
  idleThreadCount : Nat
  callers : Nat
  env : D.Env

inductive Assertion where
  | swapIn
  | reset
  deriving DecidableEq

/-- The two overloads of `schedule`; a null fiber or callback is `none`. -/
inductive Call (Cb : Type) where
  | one (fc : Option (Task Cb Nat)) (thread : Option Nat)
  | range (fcs : List (Option (Task Cb Nat)))

/-- `YieldToReady`, `YieldToHold` and the two ends of `MainFunc`. -/
inductive Return where
  | yieldToReady
  | yieldToHold
  | terminate
  | throw

inductive Act (Cb Event : Type) where
  | tickle
  | scan
  | proceed
  | schedule (call : Call Cb)
  | swapOut (how : Return)
  | release
  | settle
  | idle (event : Event)
  | resume

inductive Transition (Cb Event : Type) where
  | worker (thread : Nat) (act : Act Cb Event)
  | schedule (call : Call Cb)
  | tickle
  | newFiber

variable {Cb Idle : Type} {D : Derived}

def Task.fiberId : Task Cb Nat → Option Nat
  | .callback _ => none
  | .fiber id => some id

def Return.state : Return → FiberState
  | .yieldToReady => .ready
  | .yieldToHold => .hold
  | .terminate => .term
  | .throw => .except

def FiberState.ended (state : FiberState) : Bool := state == .term || state == .except

/-- `Fiber::swapIn`, up to the switch of the context. -/
def swapIn (states : Nat → FiberState) (fiber : Nat) : Except Assertion (Nat → FiberState) :=
  if states fiber = .exec then .error .swapIn else .ok (Function.update states fiber .exec)

def resetFiber (states : Nat → FiberState) (fiber : Nat) : Except Assertion (Nat → FiberState) :=
  if states fiber = .term ∨ states fiber = .init ∨ states fiber = .except then
    .ok (Function.update states fiber .init)
  else .error .reset

/-- Whether `tickle` is needed, and the queue. -/
def scheduleNoLock (fibers : List (FiberAndThread Cb)) (fc : Option (Task Cb Nat))
    (thread : Option Nat) : Bool × List (FiberAndThread Cb) :=
  (fibers.isEmpty, fibers ++ (fc.map fun task => ⟨task, thread⟩).toList)

/-- The locked part of `schedule`. -/
def Call.push (call : Call Cb) (fibers : List (FiberAndThread Cb)) :
    Bool × List (FiberAndThread Cb) :=
  match call with
  | .one fc thread => scheduleNoLock fibers fc thread
  | .range fcs => fcs.foldl
      (fun (need, fibers) fc =>
        let (empty, fibers) := scheduleNoLock fibers fc none
        (empty || need, fibers)) (false, fibers)

def Call.tasks : Call Cb → List (Task Cb Nat)
  | .one fc _ => fc.toList
  | .range fcs => fcs.filterMap id

def Call.thread : Call Cb → Option Nat
  | .one _ thread => thread
  | .range _ => none

def Call.fibers (call : Call Cb) : List Nat := call.tasks.filterMap Task.fiberId

/-- The scan of the queue in `run`: the entry taken, the queue left and `tickle_me`. -/
def scan (thread : Nat) (states : Nat → FiberState) :
    List (FiberAndThread Cb) → Option (FiberAndThread Cb) × List (FiberAndThread Cb) × Bool
  | [] => (none, [], false)
  | entry :: rest =>
      if entry.thread.isSome ∧ entry.thread ≠ some thread then
        let (found, fibers, _) := scan thread states rest
        (found, entry :: fibers, true)
      else if entry.task.fiberId.map states = some .exec then
        let (found, fibers, tickleMe) := scan thread states rest
        (found, entry :: fibers, tickleMe)
      else (some entry, rest, false)

/-- `Scheduler` itself: `tickle` only writes to the log, and `idle` yields until `stopping`. The
state tells whether a stop was requested. -/
def base : Derived where
  Env := Bool
  Idle := Unit
  Event := Unit
  start := false
  enter := ()
  tickle := fun _ stop => stop
  idle := fun empty active stop _ _ =>
    some (stop, if stop && empty && active == 0 then .finish else .swapOut)
  schedules := fun _ => false

namespace Scheduler

def fresh (threadCount : Nat) : Scheduler D Cb where
  threadCount := threadCount
  fibers := []
  states := fun _ => .init
  fiberId := 0
  workers := fun _ => ⟨.scanning, false, none, false⟩
  activeThreadCount := 0
  idleThreadCount := 0
  callers := 0
  env := D.start

def setWorker (scheduler : Scheduler D Cb) (thread : Nat) (worker : Worker Cb D.Idle) :
    Scheduler D Cb :=
  { scheduler with workers := Function.update scheduler.workers thread worker }

/-- A pointer to a fiber is a pointer to one that was made. -/
def known (scheduler : Scheduler D Cb) (call : Call Cb) : Bool :=
  call.fibers.all fun fiber => decide (0 < fiber ∧ fiber ≤ scheduler.fiberId)

def scanQueue (scheduler : Scheduler D Cb) (thread : Nat) (worker : Worker Cb D.Idle) :
    Scheduler D Cb :=
  let (found, fibers, tickleMe) := scan thread scheduler.states scheduler.fibers
  { scheduler.setWorker thread { worker with phase := .scanned found, tickles := tickleMe } with
    fibers := fibers
    activeThreadCount := scheduler.activeThreadCount + if found.isSome then 1 else 0 }

def callbackFiber (scheduler : Scheduler D Cb) (worker : Worker Cb D.Idle) :
    Except Assertion (Nat × Nat × (Nat → FiberState)) :=
  match worker.cbFiber with
  | some fiber => do
      let states ← resetFiber scheduler.states fiber
      .ok (fiber, scheduler.fiberId, states)
  | none => .ok (scheduler.fiberId + 1, scheduler.fiberId + 1,
      Function.update scheduler.states (scheduler.fiberId + 1) .init)

/-- What `run` does with the entry it took, up to the switch into a fiber. -/
def proceed (scheduler : Scheduler D Cb) (thread : Nat) (worker : Worker Cb D.Idle) :
    Option (FiberAndThread Cb) → Except Assertion (Scheduler D Cb)
  | some ⟨.fiber fiber, _⟩ =>
      if (scheduler.states fiber).ended then
        .ok { scheduler.setWorker thread { worker with phase := .scanning } with
          activeThreadCount := scheduler.activeThreadCount - 1 }
      else do
        let states ← swapIn scheduler.states fiber
        .ok { scheduler.setWorker thread { worker with phase := .running fiber false } with
          states := states }
  | some ⟨.callback _, _⟩ => do
      let (fiber, fiberId, made) ← scheduler.callbackFiber worker
      let states ← swapIn made fiber
      .ok { scheduler.setWorker thread
          { worker with phase := .running fiber true, cbFiber := some fiber } with
        states := states
        fiberId := fiberId }
  | none =>
      if worker.idleTerm then .ok (scheduler.setWorker thread { worker with phase := .left })
      else .ok { scheduler.setWorker thread { worker with phase := .idling D.enter } with
        idleThreadCount := scheduler.idleThreadCount + 1 }

/-- A call of `schedule` on the thread of a worker, up to `tickle`. -/
def scheduleOn (scheduler : Scheduler D Cb) (thread : Nat) (worker : Worker Cb D.Idle)
    (call : Call Cb) : Scheduler D Cb :=
  let (need, fibers) := call.push scheduler.fibers
  { scheduler.setWorker thread { worker with tickles := need } with fibers := fibers }

/-- What `run` does with a fiber that has returned. -/
def settle (scheduler : Scheduler D Cb) (thread : Nat) (worker : Worker Cb D.Idle) (fiber : Nat)
    (own : Bool) : Scheduler D Cb :=
  let worker := { worker with phase := .scanning }
  if scheduler.states fiber = .ready then
    scheduler.scheduleOn thread
      { worker with cbFiber := if own then none else worker.cbFiber } (.one (some (.fiber fiber)) none)
  else if (scheduler.states fiber).ended then
    { scheduler.setWorker thread worker with
      states := if own then Function.update scheduler.states fiber .init else scheduler.states }
  else
    { scheduler.setWorker thread
        { worker with cbFiber := if own then none else worker.cbFiber } with
      states := Function.update scheduler.states fiber .hold }

def idleStep (scheduler : Scheduler D Cb) (thread : Nat) (worker : Worker Cb D.Idle) :
    D.Env × IdleStep D.Idle → Scheduler D Cb
  | (env, .stay idle) =>
      { scheduler.setWorker thread { worker with phase := .idling idle } with env := env }
  | (env, .swapOut) => { scheduler.setWorker thread { worker with phase := .idled } with env := env }
  | (env, .finish) =>
      { scheduler.setWorker thread { worker with phase := .idled, idleTerm := true } with env := env }

/-- A step of a thread that has no call of `tickle` to make. -/
def advance (scheduler : Scheduler D Cb) (thread : Nat) (worker : Worker Cb D.Idle) :
    Phase Cb D.Idle → Act Cb D.Event → Option (Except Assertion (Scheduler D Cb))
  | .scanning, .scan => some (.ok (scheduler.scanQueue thread worker))
  | .scanned found, .proceed => some (scheduler.proceed thread worker found)
  | .running _ _, .schedule call =>
      if scheduler.known call then some (.ok (scheduler.scheduleOn thread worker call)) else none
  | .running fiber own, .swapOut how =>
      some (.ok { scheduler.setWorker thread { worker with phase := .returned fiber own } with
        states := Function.update scheduler.states fiber how.state })
  | .returned fiber own, .release =>
      some (.ok { scheduler.setWorker thread { worker with phase := .settling fiber own } with
        activeThreadCount := scheduler.activeThreadCount - 1 })
  | .settling fiber own, .settle => some (.ok (scheduler.settle thread worker fiber own))
  | .idling idle, .schedule call =>
      if D.schedules idle ∧ scheduler.known call then
        some (.ok (scheduler.scheduleOn thread worker call))
      else none
  | .idling idle, .idle event =>
      (D.idle scheduler.fibers.isEmpty scheduler.activeThreadCount scheduler.env idle event).map
        fun result => .ok (scheduler.idleStep thread worker result)
  | .idled, .resume =>
      some (.ok { scheduler.setWorker thread { worker with phase := .scanning } with
        idleThreadCount := scheduler.idleThreadCount - 1 })
  | _, _ => none

def turn (scheduler : Scheduler D Cb) (thread : Nat) (act : Act Cb D.Event) :
    Option (Except Assertion (Scheduler D Cb)) :=
  let worker := scheduler.workers thread
  match worker.tickles, act with
  | true, .tickle => some (.ok { scheduler.setWorker thread { worker with tickles := false } with
      env := D.tickle scheduler.idleThreadCount scheduler.env })
  | true, _ => none
  | false, act => scheduler.advance thread worker worker.phase act

def step (scheduler : Scheduler D Cb) : Transition Cb D.Event →
    Option (Except Assertion (Scheduler D Cb))
  | .worker thread act => if thread < scheduler.threadCount then scheduler.turn thread act else none
  | .schedule call =>
      if scheduler.known call then
        let (need, fibers) := call.push scheduler.fibers
        some (.ok { scheduler with
          fibers := fibers, callers := scheduler.callers + if need then 1 else 0 })
      else none
  | .tickle =>
      if 0 < scheduler.callers then
        some (.ok { scheduler with
          callers := scheduler.callers - 1
          env := D.tickle scheduler.idleThreadCount scheduler.env })
      else none
  | .newFiber =>
      some (.ok { scheduler with
        fiberId := scheduler.fiberId + 1
        states := Function.update scheduler.states (scheduler.fiberId + 1) .init })

/-- The steps of the whole program; a failed assertion ends it. -/
def machine : Except Assertion (Scheduler D Cb) → Transition Cb D.Event →
    Option (Except Assertion (Scheduler D Cb))
  | .ok scheduler, label => scheduler.step label
  | .error _, _ => none

end Scheduler

end OtaMqtt.Sched
