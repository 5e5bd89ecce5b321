import OtaMqtt.Lib.Tally
import OtaMqtt.Sched.WakeUps

/-! The shutdown of `Scheduler` (sherry/scheduler.cc).

`stopping` takes no lock: between its reads of the flags, of the queue and of the active count
another thread may take a task, queue one or give its count back. A thread that has found all
three as it wishes still looks at the queue once more before it leaves `run`. -/

namespace OtaMqtt.Sched.Shutdown

open OtaMqtt.Lib.Tally OtaMqtt.Lib.Trace
open OtaMqtt.Sched.Scheduler
open OtaMqtt.Sched.WakeUps (Free free_push free_scan)

/-- What `stopping` reads next. -/
inductive Reading where
  | flags
  | fibers
  | activeThreadCount

/-- `Scheduler::idle` from one `swapIn` to the next `swapOut`, one read of `stopping` at a time. The
flags `m_autoStop` and `m_stopping` are set once, in this order, and are read as one. -/
def idle (empty : Bool) (activeThreadCount : Nat) (stop : Bool) : Reading → IdleStep Reading
  | .flags => if stop then .stay .fibers else .swapOut
  | .fibers => if empty then .stay .activeThreadCount else .swapOut
  | .activeThreadCount => if activeThreadCount = 0 then .finish else .swapOut

/-- `Scheduler` itself; the state tells whether a stop was requested. -/
abbrev stoppable : Derived where
  Env := Bool
  Idle := Reading
  Event := Unit
  start := false
  enter := .flags
  tickle := fun _ stop => stop
  idle := fun empty active stop reading _ => some (stop, idle empty active stop reading)
  schedules := fun _ => false

variable {Cb : Type}

abbrev Pool (Cb : Type) := Scheduler stoppable Cb

abbrev Step (Cb : Type) := Transition Cb stoppable.Event

def stopped (pool : Pool Cb) : Bool := pool.env

def callbacks (tasks : List (Task Cb Nat)) : List Cb :=
  tasks.filterMap fun
    | .callback cb => some cb
    | .fiber _ => none

def queued (fibers : List (FiberAndThread Cb)) : List Cb := callbacks (fibers.map (·.task))

def held : Phase Cb Reading → List Cb
  | .scanned found => queued found.toList
  | _ => []

def called : Step Cb → List Cb
  | .schedule call => callbacks call.tasks
  | .worker _ (.schedule call) => callbacks call.tasks
  | _ => []

def begun (phase : Phase Cb Reading) : Act Cb Unit → List Cb
  | .proceed => held phase
  | _ => []

def began (pool : Pool Cb) : Step Cb → List Cb
  | .worker thread act => begun (pool.workers thread).phase act
  | _ => []

/-- A scheduler, with the callbacks ever scheduled and those ever started. -/
structure World (Cb : Type) where
  pool : Pool Cb
  scheduled : List Cb
  started : List Cb

inductive Move (Cb : Type) where
  | step (label : Step Cb)
  | stop

namespace World

def fresh (threadCount : Nat) : World Cb := ⟨.fresh threadCount, [], []⟩

def step (world : World Cb) : Move Cb → Option (Except Assertion (World Cb))
  | .step label => (world.pool.step label).map fun result => result.map fun pool =>
      ⟨pool, world.scheduled ++ called label, world.started ++ began world.pool label⟩
  | .stop => some (.ok { world with pool := { world.pool with env := true } })

def machine : Except Assertion (World Cb) → Move Cb → Option (Except Assertion (World Cb))
  | .ok world, move => world.step move
  | .error _, _ => none

end World

/-- Tasks schedule unpinned, and nobody else schedules once the stop is requested. -/
def Allowed : Except Assertion (World Cb) → Move Cb → Prop
  | .ok world, .step (.schedule _) => stopped world.pool = false
  | .ok _, .step (.worker _ (.schedule call)) => call.thread = none
  | _, _ => True

/-- Once all threads have left `run`, the queue is empty and every callback that was scheduled
was started, as often as it was scheduled. -/
def Complete : Except Assertion (World Cb) → Prop
  | .ok world => (∀ thread < world.pool.threadCount, (world.pool.workers thread).phase = .left) →
      world.pool.fibers = [] ∧ world.scheduled.Perm world.started
  | .error _ => True

/-- The thread goes on with `run` whatever it finds, and holds no task. -/
def working : Phase Cb Reading → Bool
  | .scanning => true
  | .running _ _ => true
  | .returned _ _ => true
  | .settling _ _ => true
  | .idled => true
  | _ => false

inductive Progress (pool : Pool Cb) (thread : Nat) : Phase Cb Reading → Bool → Act Cb Unit →
    Phase Cb Reading → Bool → List (FiberAndThread Cb) → Prop
  | scan (idleTerm : Bool) :
      Progress pool thread .scanning idleTerm .scan
        (.scanned (scan thread pool.states pool.fibers).1) idleTerm
        (scan thread pool.states pool.fibers).2.1
  | take (entry : FiberAndThread Cb) (phase : Phase Cb Reading) (idleTerm : Bool)
      (works : working phase = true) :
      Progress pool thread (.scanned (some entry)) idleTerm .proceed phase idleTerm pool.fibers
  | leave : Progress pool thread (.scanned none) true .proceed .left true pool.fibers
  | enter : Progress pool thread (.scanned none) false .proceed (.idling .flags) false pool.fibers
  | schedule (fiber : Nat) (own idleTerm : Bool) (call : Call Cb) :
      Progress pool thread (.running fiber own) idleTerm (.schedule call) (.running fiber own)
        idleTerm (call.push pool.fibers).2
  | requeue (fiber : Nat) (own idleTerm : Bool) :
      Progress pool thread (.settling fiber own) idleTerm .settle .scanning idleTerm
        ((Call.one (some (.fiber fiber)) none).push pool.fibers).2
  | work (before after : Phase Cb Reading) (idleTerm : Bool) (act : Act Cb Unit)
      (light : held before = []) (works : working after = true)
      (silent : called (.worker thread act) = []) :
      Progress pool thread before idleTerm act after idleTerm pool.fibers
  | warn (idleTerm : Bool) (requested : stopped pool = true) :
      Progress pool thread (.idling .flags) idleTerm (.idle ()) (.idling .fibers) idleTerm
        pool.fibers
  | clear (idleTerm : Bool) (empty : pool.fibers = []) :
      Progress pool thread (.idling .fibers) idleTerm (.idle ()) (.idling .activeThreadCount)
        idleTerm pool.fibers
  | finish (idleTerm : Bool) :
      Progress pool thread (.idling .activeThreadCount) idleTerm (.idle ()) .idled true pool.fibers

inductive Moves (pool : Pool Cb) : Step Cb → Pool Cb → Prop
  | still (label : Step Cb) (next : Pool Cb) (count : next.threadCount = pool.threadCount)
      (env : next.env = pool.env) (fibers : next.fibers = pool.fibers)
      (workers : ∀ thread, (next.workers thread).phase = (pool.workers thread).phase ∧
        (next.workers thread).idleTerm = (pool.workers thread).idleTerm)
      (silent : called label = []) (idle : began pool label = []) : Moves pool label next
  | outside (call : Call Cb) (next : Pool Cb) (count : next.threadCount = pool.threadCount)
      (env : next.env = pool.env) (fibers : next.fibers = (call.push pool.fibers).2)
      (workers : next.workers = pool.workers) : Moves pool (.schedule call) next
  | inside (thread : Nat) (act : Act Cb Unit) (worker : Worker Cb Reading) (next : Pool Cb)
      (inside : thread < pool.threadCount) (count : next.threadCount = pool.threadCount)
      (env : next.env = pool.env) (workers : next.workers = Function.update pool.workers thread worker)
      (progress : Progress pool thread (pool.workers thread).phase (pool.workers thread).idleTerm act
        worker.phase worker.idleTerm next.fibers) : Moves pool (.worker thread act) next

section
variable {pool next : Pool Cb} {thread : Nat}

theorem moves_from {before : Phase Cb Reading} {act : Act Cb Unit} (inside : thread < pool.threadCount)
    (phase : (pool.workers thread).phase = before) (worker : Worker Cb Reading)
    (count : next.threadCount = pool.threadCount) (env : next.env = pool.env)
    (workers : next.workers = Function.update pool.workers thread worker)
    (progress : Progress pool thread before (pool.workers thread).idleTerm act worker.phase
      worker.idleTerm next.fibers) : Moves pool (.worker thread act) next := by
  subst phase
  exact .inside thread act worker next inside count env workers progress

theorem proceed_moves {found : Option (FiberAndThread Cb)} (inside : thread < pool.threadCount)
    (phase : (pool.workers thread).phase = .scanned found)
    (taken : pool.proceed thread (pool.workers thread) found = .ok next) :
    Moves pool (.worker thread .proceed) next := by
  cases found with
  | none =>
      simp only [proceed] at taken
      split at taken
      next gone =>
        cases taken
        refine .inside thread _ _ _ inside rfl rfl rfl ?_
        rw [phase, gone]
        exact .leave
      next stays =>
        cases taken
        refine .inside thread _ _ _ inside rfl rfl rfl ?_
        rw [phase, Bool.eq_false_iff.mpr stays]
        exact .enter
  | some entry =>
      cases proceed_ok taken with
      | ended fiber pin finished =>
          exact moves_from inside phase _ rfl rfl rfl (.take _ _ _ rfl)
      | fiber fiber pin idle =>
          exact moves_from inside phase _ rfl rfl rfl (.take _ _ _ rfl)
      | callback cb pin fiber fiberId given =>
          exact moves_from inside phase _ rfl rfl rfl (.take _ _ _ rfl)

theorem settle_moves {fiber : Nat} {own : Bool} (inside : thread < pool.threadCount)
    (phase : (pool.workers thread).phase = .settling fiber own) :
    Moves pool (.worker thread .settle) (pool.settle thread (pool.workers thread) fiber own) := by
  unfold settle
  split
  next =>
    exact moves_from inside phase _ rfl rfl rfl (.requeue fiber own _)
  next =>
    split
    next =>
      exact moves_from inside phase _ rfl rfl rfl (.work _ _ _ _ rfl rfl rfl)
    next =>
      exact moves_from inside phase _ rfl rfl rfl (.work _ _ _ _ rfl rfl rfl)

theorem idle_moves {reading : Reading} {event : Unit} (inside : thread < pool.threadCount)
    (phase : (pool.workers thread).phase = .idling reading) :
    Moves pool (.worker thread (.idle event)) (pool.idleStep thread (pool.workers thread)
      (pool.env, idle pool.fibers.isEmpty pool.activeThreadCount pool.env reading)) := by
  have swapOut : Moves pool (.worker thread (.idle event))
      (pool.idleStep thread (pool.workers thread) (pool.env, .swapOut)) := by
    exact moves_from inside phase _ rfl rfl rfl (.work _ _ _ _ rfl rfl rfl)
  cases reading with
  | flags =>
      simp only [idle]
      split
      next requested =>
        exact moves_from inside phase _ rfl rfl rfl (.warn _ requested)
      next => exact swapOut
  | fibers =>
      simp only [idle]
      split
      next empty =>
        exact moves_from inside phase _ rfl rfl rfl (.clear _ (List.isEmpty_iff.mp empty))
      next => exact swapOut
  | activeThreadCount =>
      simp only [idle]
      split
      next =>
        exact moves_from inside phase _ rfl rfl rfl (.finish _)
      next => exact swapOut

theorem turn_moves {act : Act Cb Unit} (inside : thread < pool.threadCount)
    (turn : Turn pool thread (pool.workers thread) (pool.workers thread).phase act (.ok next)) :
    Moves pool (.worker thread act) next := by
  generalize phase : (pool.workers thread).phase = before at turn
  generalize reached : Except.ok next = result at turn
  cases turn with
  | scan =>
      cases reached
      exact moves_from inside phase _ rfl rfl rfl (.scan _)
  | proceed found => exact proceed_moves inside phase reached.symm
  | schedule before call busy known =>
      cases reached
      refine .inside thread _ _ _ inside rfl rfl rfl ?_
      cases before with
      | running fiber own =>
          rw [phase]
          exact .schedule fiber own _ call
      | idling reading => cases busy
      | scanning => exact busy.elim
      | scanned found => exact busy.elim
      | returned fiber own => exact busy.elim
      | settling fiber own => exact busy.elim
      | idled => exact busy.elim
      | left => exact busy.elim
  | swapOut fiber own how =>
      cases reached
      exact moves_from inside phase _ rfl rfl rfl (.work _ _ _ _ rfl rfl rfl)
  | release fiber own =>
      cases reached
      exact moves_from inside phase _ rfl rfl rfl (.work _ _ _ _ rfl rfl rfl)
  | settle fiber own =>
      cases reached
      exact settle_moves inside phase
  | idle reading event result taken =>
      cases reached
      cases taken
      exact idle_moves inside phase
  | resume =>
      cases reached
      exact moves_from inside phase _ rfl rfl rfl (.work _ _ _ _ rfl rfl rfl)

theorem step_moves {label : Transition Cb stoppable.Event} (taken : pool.step label = some (.ok next)) :
    Moves pool label next := by
  generalize reached : Except.ok next = result at taken
  cases step_rule taken with
  | tickled thread inside =>
      cases reached
      have keeps {Part : Type} (part : Worker Cb Reading → Part) :=
        setWorker_keeps part pool thread { pool.workers thread with tickles := false }
      exact .still _ _ rfl rfl rfl (fun other => ⟨keeps (·.phase) rfl other, keeps (·.idleTerm) rfl other⟩)
        rfl rfl
  | turn thread act result inside turn =>
      subst reached
      exact turn_moves inside turn
  | schedule call known =>
      cases reached
      exact .outside call _ rfl rfl rfl rfl
  | tickle pending =>
      cases reached
      exact .still _ _ rfl rfl rfl (fun _ => ⟨rfl, rfl⟩) rfl rfl
  | newFiber =>
      cases reached
      exact .still _ _ rfl rfl rfl (fun _ => ⟨rfl, rfl⟩) rfl rfl

end

def warned (phase : Phase Cb Reading) (idleTerm : Bool) : Bool :=
  idleTerm || match phase with
    | .idling .fibers => true
    | .idling .activeThreadCount => true
    | _ => false

/-- The thread has also seen the queue empty. -/
def cleared (phase : Phase Cb Reading) (idleTerm : Bool) : Bool :=
  idleTerm || match phase with
    | .idling .activeThreadCount => true
    | _ => false

/-- The thread looks at the queue again before it leaves `run`. -/
def returns (phase : Phase Cb Reading) (idleTerm : Bool) : Bool :=
  match phase with
  | .scanned none => !idleTerm
  | .left => false
  | _ => true

/-- A thread is warned only after the request, once it is cleared nothing in the queue is pinned, and
it leaves only with its idle fiber ended. -/
structure Fits (stop : Bool) (fibers : List (FiberAndThread Cb)) (worker : Worker Cb Reading) :
    Prop where
  requested : warned worker.phase worker.idleTerm = true → stop = true
  free : cleared worker.phase worker.idleTerm = true → Free fibers
  ended : worker.phase = .left → worker.idleTerm = true

def Orderly (pool : Pool Cb) : Prop :=
  ∀ thread, Fits (stopped pool) pool.fibers (pool.workers thread)

/-- Somebody looks at the queue again. -/
def Attended (pool : Pool Cb) : Prop :=
  pool.fibers ≠ [] → ∃ thread < pool.threadCount,
    returns (pool.workers thread).phase (pool.workers thread).idleTerm = true

def pending (pool : Pool Cb) : Multiset Cb :=
  queued pool.fibers + ∑ thread ∈ Finset.range pool.threadCount,
    (held (pool.workers thread).phase : Multiset Cb)

section
variable {pool next : Pool Cb} {thread : Nat} {before after : Phase Cb Reading}
  {idleTerm idleTerm' : Bool} {act : Act Cb Unit} {fibers : List (FiberAndThread Cb)}

theorem working_spec (works : working after = true) :
    held after = [] ∧ returns after idleTerm = true ∧ warned after idleTerm = idleTerm := by
  cases after with
  | idling reading => cases works
  | scanned found => cases works
  | left => cases works
  | scanning => exact ⟨rfl, rfl, Bool.or_false _⟩
  | running fiber own => exact ⟨rfl, rfl, Bool.or_false _⟩
  | returned fiber own => exact ⟨rfl, rfl, Bool.or_false _⟩
  | settling fiber own => exact ⟨rfl, rfl, Bool.or_false _⟩
  | idled => exact ⟨rfl, rfl, Bool.or_false _⟩

theorem working_held (works : working after = true) : held after = [] :=
  (@working_spec _ after false works).1

theorem working_warned (works : working after = true) (seen : warned after idleTerm = true) :
    idleTerm = true := by
  rw [(working_spec works).2.2] at seen
  exact seen

theorem cleared_warned (seen : cleared after idleTerm = true) : warned after idleTerm = true := by
  unfold cleared at seen
  unfold warned
  rcases Bool.or_eq_true_iff.mp seen with ended | reading
  · rw [ended]
    rfl
  · split at reading
    next => exact Bool.or_true _
    next => cases reading

theorem ended_cleared (ended : idleTerm = true) : cleared before idleTerm = true := by
  rw [ended]
  rfl

theorem progress_warned (progress : Progress pool thread before idleTerm act after idleTerm' fibers)
    (seen : warned after idleTerm' = true) :
    warned before idleTerm = true ∨ stopped pool = true := by
  cases progress with
  | scan => exact .inl (by simpa [warned] using seen)
  | take entry phase idleTerm works =>
      exact .inl (cleared_warned (ended_cleared (working_warned works seen)))
  | leave => exact .inl rfl
  | enter => cases seen
  | schedule fiber own idleTerm call => exact .inl (by simpa [warned] using seen)
  | requeue fiber own idleTerm => exact .inl (by simpa [warned] using seen)
  | work before after idleTerm act light works silent =>
      exact .inl (cleared_warned (ended_cleared (working_warned works seen)))
  | warn idleTerm requested => exact .inr requested
  | clear idleTerm empty => exact .inl (Bool.or_true _)
  | finish idleTerm => exact .inl (Bool.or_true _)

theorem progress_cleared (progress : Progress pool thread before idleTerm act after idleTerm' fibers)
    (seen : cleared after idleTerm' = true) : cleared before idleTerm = true ∨ fibers = [] := by
  cases progress with
  | scan => exact .inl (by simpa [cleared] using seen)
  | take entry phase idleTerm works =>
      exact .inl (ended_cleared (working_warned works (cleared_warned seen)))
  | leave => exact .inl rfl
  | enter => cases seen
  | schedule fiber own idleTerm call => exact .inl (by simpa [cleared] using seen)
  | requeue fiber own idleTerm => exact .inl (by simpa [cleared] using seen)
  | work before after idleTerm act light works silent =>
      exact .inl (ended_cleared (working_warned works (cleared_warned seen)))
  | warn idleTerm requested => exact .inl (by simpa [cleared] using seen)
  | clear idleTerm empty => exact .inr empty
  | finish idleTerm => exact .inl (Bool.or_true _)

theorem progress_ended (progress : Progress pool thread before idleTerm act after idleTerm' fibers)
    (gone : after = .left) : idleTerm' = true := by
  cases progress with
  | scan => cases gone
  | take entry phase idleTerm works =>
      subst gone
      cases works
  | leave => rfl
  | enter => cases gone
  | schedule fiber own idleTerm call => cases gone
  | requeue fiber own idleTerm => cases gone
  | work before after idleTerm act light works silent =>
      subst gone
      cases works
  | warn idleTerm requested => cases gone
  | clear idleTerm empty => cases gone
  | finish idleTerm => cases gone

theorem progress_free (progress : Progress pool thread before idleTerm act after idleTerm' fibers)
    (unpinned : ∀ call, act = .schedule call → call.thread = none) (free : Free pool.fibers) :
    Free fibers := by
  cases progress with
  | scan => exact free_scan free thread pool.states
  | schedule fiber own idleTerm call => exact free_push free call (unpinned call rfl)
  | requeue fiber own idleTerm => exact free_push free _ rfl
  | take entry phase idleTerm works => exact free
  | leave => exact free
  | enter => exact free
  | work before after idleTerm act light works silent => exact free
  | warn idleTerm requested => exact free
  | clear idleTerm empty => exact free
  | finish idleTerm => exact free

theorem progress_returns (progress : Progress pool thread before idleTerm act after idleTerm' fibers) :
    returns after idleTerm' = true ∨
      (before = .scanning ∧ idleTerm = true ∧ (scan thread pool.states pool.fibers).1 = none ∧
        fibers = (scan thread pool.states pool.fibers).2.1) ∨
      (returns before idleTerm = false ∧ fibers = pool.fibers) := by
  cases progress with
  | scan =>
      cases found : (scan thread pool.states pool.fibers).1 with
      | some entry => exact .inl rfl
      | none =>
          cases idleTerm with
          | false => exact .inl rfl
          | true => exact .inr (.inl ⟨rfl, rfl, rfl, rfl⟩)
  | take entry phase idleTerm works => exact .inl (working_spec works).2.1
  | leave => exact .inr (.inr ⟨rfl, rfl⟩)
  | enter => exact .inl rfl
  | schedule fiber own idleTerm call => exact .inl rfl
  | requeue fiber own idleTerm => exact .inl rfl
  | work before after idleTerm act light works silent => exact .inl (working_spec works).2.1
  | warn idleTerm requested => exact .inl rfl
  | clear idleTerm empty => exact .inl rfl
  | finish idleTerm => exact .inl rfl

theorem callbacks_append (front back : List (Task Cb Nat)) :
    callbacks (front ++ back) = callbacks front ++ callbacks back :=
  List.filterMap_append

theorem queued_push (call : Call Cb) (fibers : List (FiberAndThread Cb)) :
    queued (call.push fibers).2 = queued fibers ++ callbacks call.tasks := by
  rw [queued, push_queue, List.map_append, List.map_map, callbacks_append]
  congr 2
  exact List.map_id' _

theorem queued_scan (thread : Nat) (states : Nat → FiberState) (fibers : List (FiberAndThread Cb)) :
    (queued (scan thread states fibers).1.toList ++ queued (scan thread states fibers).2.1).Perm
      (queued fibers) := by
  rw [queued, queued, ← callbacks_append, ← List.map_append]
  exact ((scan_perm thread states fibers).map _).filterMap _

theorem begun_light (light : held before = []) (act : Act Cb Unit) : begun before act = [] := by
  cases act with
  | proceed => exact light
  | _ => rfl

theorem progress_pending (progress : Progress pool thread before idleTerm act after idleTerm' fibers) :
    (called (.worker thread act) : Multiset Cb) + (queued pool.fibers + held before) =
      begun before act + (queued fibers + held after) := by
  cases progress with
  | scan =>
      have sorted := Multiset.coe_eq_coe.mpr (queued_scan thread pool.states pool.fibers)
      rw [← Multiset.coe_add, add_comm] at sorted
      simp only [called, begun, held, Multiset.coe_nil, zero_add, add_zero]
      exact sorted.symm
  | take entry phase idleTerm works =>
      rw [working_held works]
      simp only [called, begun, Multiset.coe_nil, zero_add, add_zero]
      exact add_comm _ _
  | schedule fiber own idleTerm call =>
      rw [queued_push, ← Multiset.coe_add]
      simp only [called, begun, held, Multiset.coe_nil, zero_add, add_zero]
      exact add_comm _ _
  | requeue fiber own idleTerm =>
      rw [queued_push]
      simp only [called, begun, held, Multiset.coe_nil, zero_add, add_zero]
      exact congrArg _ (List.append_nil _).symm
  | work before after idleTerm act light works silent =>
      rw [silent, light, begun_light light, working_held works]
  | leave => rfl
  | enter => rfl
  | warn idleTerm requested => rfl
  | clear idleTerm empty => rfl
  | finish idleTerm => rfl

end

section
variable {pool next : Pool Cb} {thread : Nat} {label : Step Cb}

/-- The calls of `schedule` that a shutdown allows. -/
structure Heeds (pool : Pool Cb) (label : Step Cb) : Prop where
  outside : ∀ call, label = .schedule call → stopped pool = false
  inside : ∀ thread call, label = .worker thread (.schedule call) → call.thread = none

theorem orderly_step (orderly : Orderly pool) (heeds : Heeds pool label)
    (moves : Moves pool label next) : Orderly next := by
  intro thread
  cases moves with
  | still label next count env fibers workers silent idle =>
      obtain ⟨requested, free, ended⟩ := orderly thread
      rw [← (workers thread).1, ← (workers thread).2] at requested free ended
      rw [stopped, env, fibers]
      exact ⟨requested, free, ended⟩
  | outside call next count env fibers workers =>
      obtain ⟨requested, free, ended⟩ := orderly thread
      rw [stopped, env, fibers, workers]
      refine ⟨requested, fun seen => ?_, ended⟩
      have stop := requested (cleared_warned seen)
      rw [heeds.outside call rfl] at stop
      cases stop
  | inside mover act worker next inside count env workers progress =>
      have unpinned : ∀ call, act = .schedule call → call.thread = none := by
        rintro call rfl
        exact heeds.inside mover call rfl
      rw [stopped, env, workers]
      by_cases same : thread = mover
      · subst same
        rw [Function.update_self]
        refine ⟨fun seen => ?_, fun seen => ?_, progress_ended progress⟩
        · rcases progress_warned progress seen with before | stop
          · exact (orderly thread).requested before
          · exact stop
        · rcases progress_cleared progress seen with before | empty
          · exact progress_free progress unpinned ((orderly thread).free before)
          · rw [empty]
            exact fun _ member => (List.not_mem_nil member).elim
      · rw [Function.update_of_ne same]
        obtain ⟨requested, free, ended⟩ := orderly thread
        exact ⟨requested, fun seen => progress_free progress unpinned (free seen), ended⟩

theorem returns_of_executes {phase : Phase Cb Reading} {fiber : Nat} {idleTerm : Bool}
    (running : executes phase = some fiber) : returns phase idleTerm = true := by
  obtain ⟨own, rfl⟩ := executes_running running
  rfl

theorem Fits.returns {fibers : List (FiberAndThread Cb)} {worker : Worker Cb Reading}
    (fits : Fits false fibers worker) : returns worker.phase worker.idleTerm = true := by
  have runs : worker.idleTerm = false := by
    by_contra ended
    exact Bool.false_ne_true (fits.requested (by simp [warned, ended]))
  rw [runs]
  cases phase : worker.phase with
  | scanned found =>
      cases found with
      | none => rfl
      | some entry => rfl
  | left =>
      have ended := fits.ended phase
      rw [runs] at ended
      cases ended
  | scanning => rfl
  | running fiber own => rfl
  | returned fiber own => rfl
  | settling fiber own => rfl
  | idling reading => rfl
  | idled => rfl

theorem attended_missed (runs : Runs pool) (free : Free pool.fibers)
    (phase : (pool.workers thread).phase = .scanning)
    (missed : (scan thread pool.states pool.fibers).1 = none)
    (waiting : (scan thread pool.states pool.fibers).2.1 ≠ []) :
    ∃ other < pool.threadCount, other ≠ thread ∧
      returns (pool.workers other).phase (pool.workers other).idleTerm = true := by
  have sorted := scan_perm thread pool.states pool.fibers
  rw [missed] at sorted
  have before : pool.fibers ≠ [] := fun empty => waiting (sorted.trans (.of_eq empty)).eq_nil
  obtain ⟨fiber, running⟩ := scan_missed missed free before
  obtain ⟨other, within, executing⟩ := runs fiber running
  refine ⟨other, within, ?_, returns_of_executes executing⟩
  rintro rfl
  rw [phase] at executing
  cases executing

theorem attended_step (some : 0 < pool.threadCount) (runs : Runs pool) (orderly : Orderly pool)
    (attended : Attended pool) (heeds : Heeds pool label) (moves : Moves pool label next) :
    Attended next := by
  intro waiting
  cases moves with
  | still label next count env fibers workers silent idle =>
      rw [fibers] at waiting
      obtain ⟨thread, within, again⟩ := attended waiting
      refine ⟨thread, count ▸ within, ?_⟩
      rw [(workers thread).1, (workers thread).2]
      exact again
  | outside call next count env fibers workers =>
      have fits := orderly 0
      rw [heeds.outside call rfl] at fits
      refine ⟨0, count ▸ some, ?_⟩
      rw [workers]
      exact fits.returns
  | inside thread act worker next inside count env workers progress =>
      have elsewhere {other : Nat} (within : other < pool.threadCount) (different : other ≠ thread)
          (again : returns (pool.workers other).phase (pool.workers other).idleTerm = true) :
          ∃ thread < next.threadCount,
            returns (next.workers thread).phase (next.workers thread).idleTerm = true := by
        refine ⟨other, count ▸ within, ?_⟩
        rw [workers, Function.update_of_ne different]
        exact again
      rcases progress_returns progress with here | ⟨phase, ended, missed, rest⟩ | ⟨gone, same⟩
      · refine ⟨thread, count ▸ inside, ?_⟩
        rw [workers, Function.update_self]
        exact here
      · rw [rest] at waiting
        obtain ⟨other, within, different, again⟩ := attended_missed runs
          ((orderly thread).free (ended_cleared ended)) phase missed waiting
        exact elsewhere within different again
      · rw [same] at waiting
        obtain ⟨other, within, again⟩ := attended waiting
        refine elsewhere within ?_ again
        rintro rfl
        rw [gone] at again
        cases again

theorem pending_none (empty : pool.fibers = [])
    (light : ∀ thread < pool.threadCount, held (pool.workers thread).phase = []) :
    pending pool = 0 := by
  rw [pending, empty, Finset.sum_eq_zero]
  · rfl
  · intro thread member
    rw [light thread (Finset.mem_range.mp member)]
    rfl

theorem pending_step (moves : Moves pool label next) :
    (called label : Multiset Cb) + pending pool = began pool label + pending next := by
  cases moves with
  | still label next count env fibers workers silent idle =>
      rw [silent, idle, pending, pending, fibers, count]
      congr 2
      apply Finset.sum_congr rfl
      intro thread _
      rw [(workers thread).1]
  | outside call next count env fibers workers =>
      rw [pending, pending, fibers, count, workers, queued_push, ← Multiset.coe_add]
      simp only [called, began, Multiset.coe_nil, zero_add]
      rw [← add_assoc, add_comm (callbacks call.tasks : Multiset Cb)]
  | inside thread act worker next inside count env workers progress =>
      have elsewhere (other : Nat) (different : other ≠ thread) :
          (held (Function.update pool.workers thread worker other).phase : Multiset Cb) =
            held (pool.workers other).phase := by
        rw [Function.update_of_ne different]
      obtain ⟨rest, before, after⟩ := sum_parts thread inside elsewhere
      rw [Function.update_self] at after
      have balance := progress_pending progress
      rw [pending, pending, count, workers, before, after, began]
      calc (called (.worker thread act) : Multiset Cb) +
            (queued pool.fibers + (held (pool.workers thread).phase + rest))
          = called (.worker thread act) + (queued pool.fibers + held (pool.workers thread).phase) +
              rest := by rw [add_assoc, add_assoc]
        _ = begun (pool.workers thread).phase act + (queued next.fibers + held worker.phase) + rest := by
              rw [balance]
        _ = begun (pool.workers thread).phase act + (queued next.fibers + (held worker.phase + rest)) := by
              rw [add_assoc, add_assoc]

end

structure Accounted (world : World Cb) : Prop where
  some : 0 < world.pool.threadCount
  runs : Runs world.pool
  orderly : Orderly world.pool
  attended : Attended world.pool
  ledger : (world.scheduled : Multiset Cb) = world.started + pending world.pool

def Kept : Except Assertion (World Cb) → Prop
  | .ok world => Accounted world
  | .error _ => True

theorem moves_count {pool next : Pool Cb} {label : Step Cb} (moves : Moves pool label next) :
    next.threadCount = pool.threadCount := by
  cases moves with
  | still label next count env fibers workers silent idle => exact count
  | outside call next count env fibers workers => exact count
  | inside thread act worker next inside count env workers progress => exact count

theorem accounted_step {world : World Cb} {next : Pool Cb} {label : Step Cb}
    (accounted : Accounted world) (heeds : Heeds world.pool label)
    (taken : world.pool.step label = some (.ok next)) :
    Accounted ⟨next, world.scheduled ++ called label, world.started ++ began world.pool label⟩ := by
  have moves := step_moves taken
  refine ⟨?_, runs_step accounted.runs taken, orderly_step accounted.orderly heeds moves,
    attended_step accounted.some accounted.runs accounted.orderly accounted.attended heeds moves, ?_⟩
  · rw [moves_count moves]
    exact accounted.some
  · rw [← Multiset.coe_add, ← Multiset.coe_add, accounted.ledger, add_assoc, add_assoc,
      ← pending_step moves, add_comm (pending world.pool)]

theorem accounted_stop {world : World Cb} (accounted : Accounted world) :
    Accounted { world with pool := { world.pool with env := true } } where
  some := accounted.some
  runs := accounted.runs
  orderly := fun thread =>
    ⟨fun _ => rfl, (accounted.orderly thread).free, (accounted.orderly thread).ended⟩
  attended := accounted.attended
  ledger := accounted.ledger

theorem heeds_of_allowed {world : World Cb} {label : Step Cb}
    (allowed : Allowed (.ok world) (.step label)) : Heeds world.pool label where
  outside := by
    rintro call rfl
    exact allowed
  inside := by
    rintro thread call rfl
    exact allowed

theorem kept_step (state : Except Assertion (World Cb)) (move : Move Cb)
    (next : Except Assertion (World Cb)) (kept : Kept state) (allowed : Allowed state move)
    (taken : World.machine state move = some next) : Kept next := by
  cases state with
  | error reason => cases taken
  | ok world =>
      cases move with
      | stop =>
          cases taken
          exact accounted_stop kept
      | step label =>
          obtain ⟨result, stepped, rfl⟩ := Option.map_eq_some_iff.mp taken
          cases result with
          | error reason => trivial
          | ok pool => exact accounted_step kept (heeds_of_allowed allowed) stepped

theorem kept_sound (state : Except Assertion (World Cb)) (kept : Kept state) : Complete state := by
  cases state with
  | error reason => trivial
  | ok world =>
      intro gone
      have empty : world.pool.fibers = [] := by
        by_contra waiting
        obtain ⟨thread, within, again⟩ := kept.attended waiting
        rw [gone thread within] at again
        cases again
      refine ⟨empty, Multiset.coe_eq_coe.mp ?_⟩
      have light : ∀ thread < world.pool.threadCount, held (world.pool.workers thread).phase = [] := by
        intro thread within
        rw [gone thread within]
        rfl
      rw [kept.ledger, pending_none empty light, add_zero]

theorem kept_fresh (threadCount : Nat) (some : 0 < threadCount) :
    Kept (.ok (World.fresh threadCount) : Except Assertion (World Cb)) where
  some := some
  runs := runs_fresh threadCount
  orderly := fun _ => ⟨nofun, nofun, nofun⟩
  attended := fun waiting => absurd rfl waiting
  ledger := by
    have nothing : pending (World.fresh threadCount : World Cb).pool = 0 :=
      pending_none rfl fun _ _ => rfl
    rw [nothing]
    rfl

/-- Of any number of threads, for every interleaving: when nobody but the tasks schedules after the
stop is requested, and these unpinned, no task is lost and none is started twice. -/
theorem shutdown_loses_no_task (threadCount : Nat) (some : 0 < threadCount) (moves : List (Move Cb))
    (allowed : Guarded World.machine Allowed
      (.ok (World.fresh threadCount) : Except Assertion (World Cb)) moves) :
    Always World.machine Complete (.ok (World.fresh threadCount) : Except Assertion (World Cb))
      moves :=
  guarded_always kept_step kept_sound moves _ (kept_fresh threadCount some) allowed

instance : ∀ (state : Except Assertion (World Cb)) (move : Move Cb), Decidable (Allowed state move)
  | .ok world, .step (.schedule _) => inferInstanceAs (Decidable (stopped world.pool = false))
  | .ok _, .step (.worker _ (.schedule call)) => inferInstanceAs (Decidable (call.thread = none))
  | .ok _, .step (.worker _ .tickle) => .isTrue trivial
  | .ok _, .step (.worker _ .scan) => .isTrue trivial
  | .ok _, .step (.worker _ .proceed) => .isTrue trivial
  | .ok _, .step (.worker _ (.swapOut _)) => .isTrue trivial
  | .ok _, .step (.worker _ .release) => .isTrue trivial
  | .ok _, .step (.worker _ .settle) => .isTrue trivial
  | .ok _, .step (.worker _ (.idle _)) => .isTrue trivial
  | .ok _, .step (.worker _ .resume) => .isTrue trivial
  | .ok _, .step .tickle => .isTrue trivial
  | .ok _, .step .newFiber => .isTrue trivial
  | .ok _, .stop => .isTrue trivial
  | .error _, _ => .isTrue trivial

def turns (thread : Nat) (acts : List (Act Bool Unit)) : List (Move Bool) :=
  acts.map fun act => .step (.worker thread act)

/-- A thread that finds no task, goes through `stopping` and leaves. -/
def leaves : List (Act Bool Unit) :=
  [.scan, .proceed, .idle (), .idle (), .idle (), .resume, .scan, .proceed]

/-- The first thread yields a task that has scheduled another one, and gives its count back. The
second thread runs the other one, finds the queue empty and nobody active, and leaves, all before
the yielded task is queued again. -/
def overtaken : List (Move Bool) :=
  List.flatten
    [[.step (.schedule (.one (some (.callback true)) none)), .step .tickle],
      turns 0 [.scan, .proceed, .schedule (.one (some (.callback false)) none), .tickle,
        .swapOut .yieldToReady, .release],
      [.stop],
      turns 1 [.scan, .proceed, .swapOut .terminate, .release, .settle],
      turns 1 leaves,
      turns 0 [.settle, .tickle, .scan, .proceed, .swapOut .terminate, .release, .settle],
      turns 0 leaves]

/-- All threads have left `run`. -/
def allLeft : Except Assertion (World Cb) → Bool
  | .ok world => (List.range world.pool.threadCount).all fun thread =>
      match (world.pool.workers thread).phase with
      | .left => true
      | _ => false
  | .error _ => false

theorem allLeft_ok (state : Except Assertion (World Cb)) (all : allLeft state = true) :
    ∃ world, state = .ok world ∧
      ∀ thread < world.pool.threadCount, (world.pool.workers thread).phase = .left := by
  cases state with
  | error reason => cases all
  | ok world =>
      refine ⟨world, rfl, fun thread within => ?_⟩
      have gone := List.all_eq_true.mp all thread (List.mem_range.mpr within)
      split at gone
      next left => exact left
      next => cases gone

theorem overtaken_loses_no_task :
    ∃ world, run World.machine (.ok (World.fresh 2)) overtaken = some (.ok world) ∧
      (∀ thread < world.pool.threadCount, (world.pool.workers thread).phase = .left) ∧
      world.pool.fibers = [] ∧ world.scheduled.Perm world.started := by
  have always := shutdown_loses_no_task 2 (by decide) overtaken (by decide +kernel)
  have ended : (run World.machine (.ok (World.fresh 2)) overtaken).any allLeft = true := by
    decide +kernel
  obtain ⟨state, ran, all⟩ := (Option.any_eq_true _ _).mp ended
  obtain ⟨world, rfl, gone⟩ := allLeft_ok state all
  exact ⟨world, ran, gone, always overtaken [] _ (List.append_nil _) ran gone⟩

end OtaMqtt.Sched.Shutdown
