import OtaMqtt.Lib.Trace
import OtaMqtt.Sched.Turns

/-! The wake-ups of the threads of `IOManager` (sherry/iomanager.cc).

A thread without a task counts itself idle and waits in `epoll_wait` for a byte in the pipe or for
a ready descriptor. The timeout of `epoll_wait` is not taken, and the manager is not being
stopped. -/

namespace OtaMqtt.Sched.WakeUps

open OtaMqtt.Lib.Trace
open OtaMqtt.Sched.Scheduler

/-- Where a thread is in `IOManager::idle`; `awake true` has the pipe still to read. -/
inductive Idle where
  | entered
  | blocked
  | awake (byte : Bool)

inductive Event where
  | block
  | wake (byte : Bool)
  | drain
  | swapOut

/-- `IOManager::tickle`; the pipe is the number of its bytes. -/
def tickle (idleThreadCount pipe : Nat) : Nat := if 0 < idleThreadCount then pipe else pipe + 1

/-- `IOManager::idle` from one `swapIn` to the next `swapOut`. The expired timers and the ready
descriptors are calls of `schedule` while the thread is awake. -/
def idle (pipe : Nat) : Idle → Event → Option (Nat × IdleStep Idle)
  | .entered, .block => some (pipe, .stay .blocked)
  | .blocked, .wake true => if 0 < pipe then some (pipe, .stay (.awake true)) else none
  | .blocked, .wake false => some (pipe, .stay (.awake false))
  | .awake true, .drain => some (0, .stay (.awake false))
  | .awake false, .swapOut => some (pipe, .swapOut)
  | _, _ => none

abbrev ioManager : Derived where
  Env := Nat
  Idle := Idle
  Event := Event
  start := 0
  enter := .entered
  tickle := tickle
  idle := fun _ _ => idle
  schedules
    | .awake _ => true
    | _ => false

variable {Cb : Type}

abbrev Manager (Cb : Type) := Scheduler ioManager Cb

def pipe (manager : Manager Cb) : Nat := manager.env

def rescans : Phase Cb Idle → Bool
  | .scanned none => false
  | .idling .entered => false
  | .idling .blocked => false
  | .left => false
  | _ => true

def Watched (manager : Manager Cb) : Prop :=
  ∃ thread < manager.threadCount, rescans (manager.workers thread).phase = true

/-- A task is queued, every thread waits, the pipe is empty and every call of `schedule` has
returned. -/
def Stranded : Except Assertion (Manager Cb) → Prop
  | .ok manager => manager.callers = 0 ∧ manager.fibers ≠ [] ∧
      (∀ thread < manager.threadCount, (manager.workers thread).phase = .idling Idle.blocked) ∧
      pipe manager = 0
  | .error _ => False

def Unpinned : Transition Cb Event → Prop
  | .schedule call => call.thread = none
  | .worker _ (.schedule call) => call.thread = none
  | _ => True

/-- A call of `schedule` that comes to `tickle` finds no thread counted idle, or the queue empty
again, or a byte in the pipe, or another call before its `tickle`, or a thread that comes back to
the queue. -/
def Heeded : Except Assertion (Manager Cb) → Transition Cb Event → Prop
  | .ok manager, .tickle => manager.idleThreadCount = 0 ∨ manager.fibers.isEmpty = true ∨
      0 < pipe manager ∨ 1 < manager.callers ∨ Watched manager
  | _, _ => True

def Attended (manager : Manager Cb) : Prop :=
  manager.fibers = [] ∨ 0 < pipe manager ∨ 0 < manager.callers ∨ Watched manager

def Free (fibers : List (FiberAndThread Cb)) : Prop := ∀ entry ∈ fibers, entry.thread = none

structure Served (manager : Manager Cb) : Prop where
  runs : Runs manager
  free : Free manager.fibers
  attended : Attended manager

section
variable {manager next : Manager Cb} {thread : Nat}

theorem watched_here (inside : thread < manager.threadCount) (worker : Worker Cb Idle)
    (count : next.threadCount = manager.threadCount)
    (workers : next.workers = Function.update manager.workers thread worker)
    (again : rescans worker.phase = true) : Attended next := by
  refine .inr (.inr (.inr ⟨thread, count ▸ inside, ?_⟩))
  rw [workers, Function.update_self]
  exact again

theorem watched_elsewhere {other : Nat} (inside : other < manager.threadCount)
    (different : other ≠ thread) (again : rescans (manager.workers other).phase = true)
    (worker : Worker Cb Idle) (count : next.threadCount = manager.threadCount)
    (workers : next.workers = Function.update manager.workers thread worker) : Watched next := by
  refine ⟨other, count ▸ inside, ?_⟩
  rw [workers, Function.update_of_ne different]
  exact again

theorem attended_waiting (worker : Worker Cb Idle) (attended : Attended manager)
    (waits : rescans (manager.workers thread).phase = false)
    (count : next.threadCount = manager.threadCount)
    (workers : next.workers = Function.update manager.workers thread worker)
    (fibers : next.fibers = manager.fibers) (callers : next.callers = manager.callers)
    (bytes : pipe next = pipe manager) : Attended next := by
  rcases attended with empty | byte | calling | ⟨other, inside, again⟩
  · exact .inl (fibers.trans empty)
  · exact .inr (.inl (bytes ▸ byte))
  · exact .inr (.inr (.inl (callers ▸ calling)))
  · have different : other ≠ thread := by
      intro same
      subst same
      rw [waits] at again
      cases again
    exact .inr (.inr (.inr (watched_elsewhere inside different again worker count workers)))

theorem executes_rescans {phase : Phase Cb Idle} {fiber : Nat}
    (running : executes phase = some fiber) : rescans phase = true := by
  obtain ⟨own, rfl⟩ := executes_running running
  rfl

theorem attended_scan (inside : thread < manager.threadCount) (served : Served manager)
    (phase : (manager.workers thread).phase = .scanning) :
    Attended (manager.scanQueue thread (manager.workers thread)) := by
  have sorted := scan_perm thread manager.states manager.fibers
  cases found : (scan thread manager.states manager.fibers).1 with
  | some entry =>
      refine watched_here inside _ rfl rfl ?_
      rw [found]
      rfl
  | none =>
      rw [found] at sorted
      by_cases empty : manager.fibers = []
      · exact .inl (sorted.trans (.of_eq empty)).eq_nil
      · obtain ⟨fiber, running⟩ := scan_missed found served.free empty
        obtain ⟨other, within, executing⟩ := served.runs fiber running
        have different : other ≠ thread := by
          intro same
          subst same
          rw [phase] at executing
          cases executing
        exact .inr (.inr (.inr (watched_elsewhere within different
          (executes_rescans executing) _ rfl rfl)))

theorem attended_proceeded (inside : thread < manager.threadCount) (attended : Attended manager)
    {found : Option (FiberAndThread Cb)}
    (phase : (manager.workers thread).phase = .scanned found)
    (proceeded : Proceeded manager thread (manager.workers thread) found next) : Attended next := by
  cases proceeded with
  | ended fiber pin finished => exact watched_here inside _ rfl rfl rfl
  | fiber fiber pin idle => exact watched_here inside _ rfl rfl rfl
  | callback cb pin fiber fiberId given => exact watched_here inside _ rfl rfl rfl
  | left => exact attended_waiting _ attended (by rw [phase]; rfl) rfl rfl rfl rfl rfl
  | idle => exact attended_waiting _ attended (by rw [phase]; rfl) rfl rfl rfl rfl rfl

theorem attended_settle (inside : thread < manager.threadCount) (fiber : Nat) (own : Bool) :
    Attended (manager.settle thread (manager.workers thread) fiber own) := by
  unfold settle
  split
  next => exact watched_here inside _ rfl rfl rfl
  next =>
    split
    next => exact watched_here inside _ rfl rfl rfl
    next => exact watched_here inside _ rfl rfl rfl

theorem attended_idle (inside : thread < manager.threadCount) (attended : Attended manager)
    {phase : Idle} {event : Event} {result : Nat × IdleStep Idle}
    (found : (manager.workers thread).phase = .idling phase)
    (taken : idle (pipe manager) phase event = some result) :
    Attended (manager.idleStep thread (manager.workers thread) result) := by
  unfold idle at taken
  split at taken
  next =>
    cases taken
    exact attended_waiting _ attended (by rw [found]; rfl) rfl rfl rfl rfl rfl
  next =>
    split at taken
    next =>
      cases taken
      exact watched_here inside _ rfl rfl rfl
    next => cases taken
  next =>
    cases taken
    exact watched_here inside _ rfl rfl rfl
  next =>
    cases taken
    exact watched_here inside _ rfl rfl rfl
  next =>
    cases taken
    exact watched_here inside _ rfl rfl rfl
  next => cases taken

theorem busy_rescans {phase : Phase Cb Idle} (busy : @Busy Cb ioManager phase) :
    rescans phase = true := by
  cases phase with
  | running fiber own => rfl
  | idling idle =>
      cases idle with
      | awake byte => rfl
      | entered => cases busy
      | blocked => cases busy
  | scanning => exact busy.elim
  | scanned found => exact busy.elim
  | returned fiber own => exact busy.elim
  | settling fiber own => exact busy.elim
  | idled => exact busy.elim
  | left => exact busy.elim

theorem attended_turn {act : Act Cb Event} (inside : thread < manager.threadCount)
    (served : Served manager)
    (turn : Turn manager thread (manager.workers thread) (manager.workers thread).phase act
      (.ok next)) : Attended next := by
  generalize found : (manager.workers thread).phase = phase at turn
  generalize reached : Except.ok next = result at turn
  cases turn with
  | scan =>
      cases reached
      exact attended_scan inside served found
  | proceed taken => exact attended_proceeded inside served.attended found (proceed_ok reached.symm)
  | schedule phase call busy known =>
      cases reached
      exact watched_here inside _ rfl rfl (found ▸ busy_rescans busy)
  | swapOut fiber own how =>
      cases reached
      exact watched_here inside _ rfl rfl rfl
  | release fiber own =>
      cases reached
      exact watched_here inside _ rfl rfl rfl
  | settle fiber own =>
      cases reached
      exact attended_settle inside fiber own
  | idle idle event result taken =>
      cases reached
      exact attended_idle inside served.attended found taken
  | resume =>
      cases reached
      exact watched_here inside _ rfl rfl rfl

theorem tickle_le (idleThreadCount bytes : Nat) : bytes ≤ tickle idleThreadCount bytes := by
  unfold tickle
  split
  next => exact le_refl _
  next => exact Nat.le_succ _

/-- A call that comes to `tickle`: when no thread is counted idle a byte is written. -/
theorem attended_tickle (attended : Heeded (.ok manager) .tickle) :
    Attended ({ manager with
      callers := manager.callers - 1
      env := tickle manager.idleThreadCount manager.env } : Manager Cb) := by
  rcases attended with working | empty | byte | calling | watched
  · refine .inr (.inl ?_)
    simp only [pipe, tickle, working, lt_irrefl, if_false]
    exact Nat.succ_pos _
  · exact .inl (List.isEmpty_iff.mp empty)
  · exact .inr (.inl (byte.trans_le (tickle_le _ _)))
  · exact .inr (.inr (.inl (Nat.sub_pos_of_lt calling)))
  · exact .inr (.inr (.inr watched))

theorem attended_schedule (attended : Attended manager) (call : Call Cb) :
    Attended ({ manager with
      fibers := (call.push manager.fibers).2
      callers := manager.callers + if (call.push manager.fibers).1 then 1 else 0 } :
        Manager Cb) := by
  cases need : (call.push manager.fibers).1 with
  | true => exact .inr (.inr (.inl (Nat.succ_pos _)))
  | false =>
      by_cases none : (call.push manager.fibers).2 = []
      · exact .inl none
      · rcases attended with empty | later
        · exact absurd empty (push_need need none)
        · exact .inr later

theorem attended_tickled (attended : Attended manager) (thread : Nat) :
    Attended ({ manager.setWorker thread { manager.workers thread with tickles := false } with
      env := tickle manager.idleThreadCount manager.env } : Manager Cb) := by
  rcases attended with empty | byte | calling | ⟨other, inside, again⟩
  · exact .inl empty
  · exact .inr (.inl (byte.trans_le (tickle_le _ _)))
  · exact .inr (.inr (.inl calling))
  · have kept := setWorker_keeps (fun worker => rescans worker.phase) manager thread
      { manager.workers thread with tickles := false } rfl other
    exact .inr (.inr (.inr ⟨other, inside, kept.trans again⟩))

theorem attended_step {label : Transition Cb ioManager.Event} (served : Served manager)
    (heeded : Heeded (.ok manager) label) (taken : manager.step label = some (.ok next)) :
    Attended next := by
  generalize reached : Except.ok next = result at taken
  cases step_rule taken with
  | tickled thread inside =>
      cases reached
      exact attended_tickled served.attended thread
  | turn thread act result inside turn =>
      subst reached
      exact attended_turn inside served turn
  | schedule call known =>
      cases reached
      exact attended_schedule served.attended call
  | tickle pending =>
      cases reached
      exact attended_tickle heeded
  | newFiber =>
      cases reached
      exact served.attended

theorem free_push {fibers : List (FiberAndThread Cb)} (free : Free fibers) (call : Call Cb)
    (unpinned : call.thread = none) : Free (call.push fibers).2 := by
  intro entry member
  rw [push_queue, List.mem_append] at member
  rcases member with old | new
  · exact free entry old
  · obtain ⟨task, -, rfl⟩ := List.mem_map.mp new
    exact unpinned

theorem free_scan {fibers : List (FiberAndThread Cb)} (free : Free fibers) (thread : Nat)
    (states : Nat → FiberState) : Free (scan thread states fibers).2.1 := by
  intro entry member
  apply free entry
  exact (scan_perm thread states fibers).mem_iff.mp (List.mem_append_right _ member)

theorem free_step {label : Transition Cb ioManager.Event} (free : Free manager.fibers)
    (unpinned : Unpinned label) (taken : manager.step label = some (.ok next)) :
    Free next.fibers := by
  have refilled := (step_frame taken).2
  generalize next.fibers = fibers at refilled
  cases refilled with
  | same => exact free
  | scanned thread => exact free_scan free thread manager.states
  | pushed call whose =>
      rcases whose with rfl | ⟨thread, rfl⟩ | own
      · exact free_push free call unpinned
      · exact free_push free call unpinned
      · exact free_push free call own

def Kept : Except Assertion (Manager Cb) → Prop
  | .ok manager => Served manager
  | .error _ => True

theorem kept_step (state : Except Assertion (Manager Cb)) (label : Transition Cb ioManager.Event)
    (next : Except Assertion (Manager Cb)) (kept : Kept state)
    (both : Unpinned label ∧ Heeded state label) (taken : machine state label = some next) :
    Kept next := by
  cases state with
  | error reason => cases taken
  | ok manager =>
      cases next with
      | error reason => trivial
      | ok next => exact ⟨runs_step kept.runs taken, free_step kept.free both.1 taken,
          attended_step kept both.2 taken⟩

theorem kept_sound (state : Except Assertion (Manager Cb)) (kept : Kept state) :
    ¬ Stranded state := by
  cases state with
  | error reason => exact id
  | ok manager =>
      rintro ⟨returned, queued, blocked, drained⟩
      rcases kept.attended with empty | byte | calling | ⟨thread, inside, again⟩
      · exact queued empty
      · exact absurd drained byte.ne'
      · exact absurd returned calling.ne'
      · rw [blocked thread inside] at again
        cases again

theorem kept_fresh (threadCount : Nat) : Kept (.ok (fresh threadCount) : Except Assertion (Manager Cb)) :=
  ⟨runs_fresh threadCount, fun _ member => (List.not_mem_nil member).elim, .inl rfl⟩

/-- Of any number of threads, for every interleaving with calls of `schedule`: when every call is
heeded, no task is left in the queue while all threads wait. -/
theorem heeded_calls_leave_no_task (threadCount : Nat) (labels : List (Transition Cb ioManager.Event))
    (unpinned : ∀ label ∈ labels, Unpinned label)
    (heeded : Guarded machine Heeded (.ok (fresh threadCount) : Except Assertion (Manager Cb))
      labels) :
    Always machine (fun state : Except Assertion (Manager Cb) => ¬ Stranded state)
      (.ok (fresh threadCount)) labels := by
  have within : Guarded machine (fun _ label => Unpinned label)
      (.ok (fresh threadCount) : Except Assertion (Manager Cb)) labels :=
    guarded_of_forall labels _ fun _ => unpinned
  exact guarded_always kept_step kept_sound labels _ (kept_fresh threadCount)
    (guarded_both within heeded)

end

/-- The only thread waits for something to do when the call comes. -/
def missedWakeUp : List (Transition Unit ioManager.Event) :=
  [.worker 0 .scan, .worker 0 .proceed, .worker 0 (.idle .block),
    .schedule (.one (some (.callback ())) none), .tickle]

theorem blocked_thread_not_woken :
    ¬ Always machine (fun state : Except Assertion (Manager Unit) => ¬ Stranded state)
      (.ok (fresh 1)) missedWakeUp := by
  intro always
  refine always missedWakeUp [] _ (List.append_nil _) rfl ⟨rfl, List.cons_ne_nil _ _, ?_, rfl⟩
  intro thread inside
  obtain rfl : thread = 0 := Nat.lt_one_iff.mp inside
  rfl

instance (manager : Manager Cb) : Decidable (Watched manager) :=
  inferInstanceAs (Decidable (∃ thread < _, _))

instance : ∀ (state : Except Assertion (Manager Cb)) (label : Transition Cb Event),
    Decidable (Heeded state label)
  | .ok _, .tickle => inferInstanceAs (Decidable (_ ∨ _))
  | .ok _, .worker _ _ => .isTrue trivial
  | .ok _, .schedule _ => .isTrue trivial
  | .ok _, .newFiber => .isTrue trivial
  | .error _, _ => .isTrue trivial

/-- The call comes while one thread runs a task and the other waits. -/
def heededWakeUp : List (Transition Unit ioManager.Event) :=
  [.worker 0 .scan, .worker 0 .proceed, .worker 0 (.idle .block),
    .schedule (.one (some (.callback ())) none), .worker 1 .scan, .tickle, .worker 1 .proceed,
    .schedule (.one (some (.callback ())) none), .tickle]

theorem heededWakeUp_leaves_no_task :
    (run machine (.ok (fresh 2) : Except Assertion (Manager Unit)) heededWakeUp).isSome = true ∧
      Always machine (fun state : Except Assertion (Manager Unit) => ¬ Stranded state)
        (.ok (fresh 2)) heededWakeUp := by
  refine ⟨rfl, ?_⟩
  apply heeded_calls_leave_no_task
  · intro label member
    simp only [heededWakeUp, List.mem_cons, List.not_mem_nil, or_false] at member
    rcases member with rfl | rfl | rfl | rfl | rfl | rfl | rfl | rfl | rfl <;> trivial
  · decide +kernel

end OtaMqtt.Sched.WakeUps
