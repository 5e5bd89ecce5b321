import OtaMqtt.Sched.Scheduler

/-! The rules by which a scheduler moves, and the threads that run a fiber. -/

namespace OtaMqtt.Sched.Scheduler

open OtaMqtt.Lib.Execution (bind_eq_ok)

variable {Cb : Type} {D : Derived}

/-- The phases in which a thread may call `schedule`. -/
def Busy : Phase Cb D.Idle → Prop
  | .running _ _ => True
  | .idling idle => D.schedules idle = true
  | _ => False

inductive Turn (scheduler : Scheduler D Cb) (thread : Nat) (worker : Worker Cb D.Idle) :
    Phase Cb D.Idle → Act Cb D.Event → Except Assertion (Scheduler D Cb) → Prop
  | scan : Turn scheduler thread worker .scanning .scan (.ok (scheduler.scanQueue thread worker))
  | proceed (found : Option (FiberAndThread Cb)) :
      Turn scheduler thread worker (.scanned found) .proceed (scheduler.proceed thread worker found)
  | schedule (phase : Phase Cb D.Idle) (call : Call Cb) (busy : Busy phase)
      (known : scheduler.known call = true) :
      Turn scheduler thread worker phase (.schedule call)
        (.ok (scheduler.scheduleOn thread worker call))
  | swapOut (fiber : Nat) (own : Bool) (how : Return) :
      Turn scheduler thread worker (.running fiber own) (.swapOut how)
        (.ok { scheduler.setWorker thread { worker with phase := .returned fiber own } with
          states := Function.update scheduler.states fiber how.state })
  | release (fiber : Nat) (own : Bool) :
      Turn scheduler thread worker (.returned fiber own) .release
        (.ok { scheduler.setWorker thread { worker with phase := .settling fiber own } with
          activeThreadCount := scheduler.activeThreadCount - 1 })
  | settle (fiber : Nat) (own : Bool) :
      Turn scheduler thread worker (.settling fiber own) .settle
        (.ok (scheduler.settle thread worker fiber own))
  | idle (idle : D.Idle) (event : D.Event) (result : D.Env × IdleStep D.Idle)
      (taken : D.idle scheduler.fibers.isEmpty scheduler.activeThreadCount scheduler.env idle event =
        some result) :
      Turn scheduler thread worker (.idling idle) (.idle event)
        (.ok (scheduler.idleStep thread worker result))
  | resume :
      Turn scheduler thread worker .idled .resume
        (.ok { scheduler.setWorker thread { worker with phase := .scanning } with
          idleThreadCount := scheduler.idleThreadCount - 1 })

theorem advance_turn {scheduler : Scheduler D Cb} {thread : Nat} {worker : Worker Cb D.Idle}
    {phase : Phase Cb D.Idle} {act : Act Cb D.Event} {result : Except Assertion (Scheduler D Cb)}
    (taken : scheduler.advance thread worker phase act = some result) :
    Turn scheduler thread worker phase act result := by
  unfold advance at taken
  split at taken
  · cases taken
    exact .scan
  · cases taken
    exact .proceed _
  · split at taken
    next known =>
      cases taken
      exact .schedule _ _ trivial known
    next => cases taken
  · cases taken
    exact .swapOut _ _ _
  · cases taken
    exact .release _ _
  · cases taken
    exact .settle _ _
  · split at taken
    next both =>
      cases taken
      exact .schedule _ _ both.1 both.2
    next => cases taken
  · obtain ⟨result, found, rfl⟩ := Option.map_eq_some_iff.mp taken
    exact .idle _ _ _ found
  · cases taken
    exact .resume
  · cases taken

inductive Rule (scheduler : Scheduler D Cb) :
    Transition Cb D.Event → Except Assertion (Scheduler D Cb) → Prop
  | tickled (thread : Nat) (inside : thread < scheduler.threadCount) :
      Rule scheduler (.worker thread .tickle)
        (.ok { scheduler.setWorker thread { scheduler.workers thread with tickles := false } with
          env := D.tickle scheduler.idleThreadCount scheduler.env })
  | turn (thread : Nat) (act : Act Cb D.Event) (result : Except Assertion (Scheduler D Cb))
      (inside : thread < scheduler.threadCount)
      (turn : Turn scheduler thread (scheduler.workers thread) (scheduler.workers thread).phase act
        result) :
      Rule scheduler (.worker thread act) result
  | schedule (call : Call Cb) (known : scheduler.known call = true) :
      Rule scheduler (.schedule call)
        (.ok { scheduler with
          fibers := (call.push scheduler.fibers).2
          callers := scheduler.callers + if (call.push scheduler.fibers).1 then 1 else 0 })
  | tickle (pending : 0 < scheduler.callers) :
      Rule scheduler .tickle
        (.ok { scheduler with
          callers := scheduler.callers - 1
          env := D.tickle scheduler.idleThreadCount scheduler.env })
  | newFiber :
      Rule scheduler .newFiber
        (.ok { scheduler with
          fiberId := scheduler.fiberId + 1
          states := Function.update scheduler.states (scheduler.fiberId + 1) .init })

theorem step_rule {scheduler : Scheduler D Cb} {label : Transition Cb D.Event}
    {result : Except Assertion (Scheduler D Cb)} (taken : scheduler.step label = some result) :
    Rule scheduler label result := by
  cases label with
  | worker thread act =>
      simp only [step] at taken
      split at taken
      next inside =>
        simp only [turn] at taken
        split at taken
        · cases taken
          exact .tickled thread inside
        · cases taken
        · exact .turn thread _ result inside (advance_turn taken)
      next => cases taken
  | schedule call =>
      simp only [step] at taken
      split at taken
      next known =>
        cases taken
        exact .schedule call known
      next => cases taken
  | tickle =>
      simp only [step] at taken
      split at taken
      next pending =>
        cases taken
        exact .tickle pending
      next => cases taken
  | newFiber =>
      cases taken
      exact .newFiber

@[simp] theorem setWorker_fibers (scheduler : Scheduler D Cb) (thread : Nat)
    (worker : Worker Cb D.Idle) : (scheduler.setWorker thread worker).fibers = scheduler.fibers := rfl

theorem setWorker_keeps {Part : Type} (part : Worker Cb D.Idle → Part) (scheduler : Scheduler D Cb)
    (thread : Nat) (worker : Worker Cb D.Idle) (same : part worker = part (scheduler.workers thread))
    (other : Nat) :
    part ((scheduler.setWorker thread worker).workers other) = part (scheduler.workers other) := by
  simp only [setWorker]
  by_cases here : other = thread
  · subst here
    rw [Function.update_self]
    exact same
  · rw [Function.update_of_ne here]

def executes {Idle : Type} : Phase Cb Idle → Option Nat
  | .running fiber _ => some fiber
  | _ => none

theorem executes_running {Idle : Type} {phase : Phase Cb Idle} {fiber : Nat}
    (executing : executes phase = some fiber) : ∃ own, phase = .running fiber own := by
  cases phase with
  | running other own =>
      obtain rfl : other = fiber := Option.some.inj executing
      exact ⟨own, rfl⟩
  | scanning => cases executing
  | scanned found => cases executing
  | returned other own => cases executing
  | settling other own => cases executing
  | idling idle => cases executing
  | idled => cases executing
  | left => cases executing

/-- A fiber in the state `EXEC` runs on some thread. -/
def Runs (scheduler : Scheduler D Cb) : Prop :=
  ∀ fiber, scheduler.states fiber = .exec →
    ∃ thread < scheduler.threadCount, executes (scheduler.workers thread).phase = some fiber

section
variable {scheduler next : Scheduler D Cb} {thread : Nat}

theorem runs_moved (inside : thread < scheduler.threadCount) (worker : Worker Cb D.Idle)
    (runs : Runs scheduler) (count : next.threadCount = scheduler.threadCount)
    (workers : next.workers = Function.update scheduler.workers thread worker)
    (exec : ∀ fiber, next.states fiber = .exec → executes worker.phase = some fiber ∨
      (scheduler.states fiber = .exec ∧ executes (scheduler.workers thread).phase ≠ some fiber)) :
    Runs next := by
  intro fiber running
  rcases exec fiber running with here | ⟨before, elsewhere⟩
  · refine ⟨thread, count ▸ inside, ?_⟩
    rw [workers, Function.update_self]
    exact here
  · obtain ⟨other, within, found⟩ := runs fiber before
    have different : other ≠ thread := by
      intro same
      subst same
      exact elsewhere found
    refine ⟨other, count ▸ within, ?_⟩
    rw [workers, Function.update_of_ne different]
    exact found

theorem update_exec {states : Nat → FiberState} {state : FiberState} {changed fiber : Nat}
    (idle : state ≠ .exec) (running : Function.update states changed state fiber = .exec) :
    fiber ≠ changed ∧ states fiber = .exec := by
  by_cases same : fiber = changed
  · subst same
    rw [Function.update_self] at running
    exact absurd running idle
  · rw [Function.update_of_ne same] at running
    exact ⟨same, running⟩

theorem swapIn_ok {states after : Nat → FiberState} {fiber : Nat}
    (switched : swapIn states fiber = .ok after) :
    states fiber ≠ .exec ∧ after = Function.update states fiber .exec := by
  unfold swapIn at switched
  split at switched
  next => cases switched
  next idle =>
    cases switched
    exact ⟨idle, rfl⟩

/-- The callback fiber is the one the thread has kept, or a new one; it does not run. -/
theorem callbackFiber_ok {worker : Worker Cb D.Idle} {fiber fiberId : Nat}
    {states : Nat → FiberState}
    (given : scheduler.callbackFiber worker = .ok (fiber, fiberId, states)) :
    states = Function.update scheduler.states fiber .init ∧
      ((worker.cbFiber = some fiber ∧ fiberId = scheduler.fiberId) ∨
        (worker.cbFiber = none ∧ fiber = scheduler.fiberId + 1 ∧
          fiberId = scheduler.fiberId + 1)) := by
  unfold callbackFiber at given
  split at given
  next kept found =>
    obtain ⟨after, reset, rest⟩ := (bind_eq_ok _ _ _).mp given
    cases rest
    unfold resetFiber at reset
    split at reset
    next =>
      cases reset
      exact ⟨rfl, .inl ⟨found, rfl⟩⟩
    next => cases reset
  next found =>
    cases given
    exact ⟨rfl, .inr ⟨found, rfl, rfl⟩⟩

/-- What `run` can do with what it took. -/
inductive Proceeded (scheduler : Scheduler D Cb) (thread : Nat) (worker : Worker Cb D.Idle) :
    Option (FiberAndThread Cb) → Scheduler D Cb → Prop
  | ended (fiber : Nat) (pin : Option Nat) (finished : (scheduler.states fiber).ended = true) :
      Proceeded scheduler thread worker (some ⟨.fiber fiber, pin⟩)
        { scheduler.setWorker thread { worker with phase := .scanning } with
          activeThreadCount := scheduler.activeThreadCount - 1 }
  | fiber (fiber : Nat) (pin : Option Nat) (idle : scheduler.states fiber ≠ .exec) :
      Proceeded scheduler thread worker (some ⟨.fiber fiber, pin⟩)
        { scheduler.setWorker thread { worker with phase := .running fiber false } with
          states := Function.update scheduler.states fiber .exec }
  | callback (cb : Cb) (pin : Option Nat) (fiber fiberId : Nat)
      (given : (worker.cbFiber = some fiber ∧ fiberId = scheduler.fiberId) ∨
        (worker.cbFiber = none ∧ fiber = scheduler.fiberId + 1 ∧ fiberId = scheduler.fiberId + 1)) :
      Proceeded scheduler thread worker (some ⟨.callback cb, pin⟩)
        { scheduler.setWorker thread
            { worker with phase := .running fiber true, cbFiber := some fiber } with
          states := Function.update scheduler.states fiber .exec
          fiberId := fiberId }
  | left : Proceeded scheduler thread worker none
      (scheduler.setWorker thread { worker with phase := .left })
  | idle : Proceeded scheduler thread worker none
      { scheduler.setWorker thread { worker with phase := .idling D.enter } with
        idleThreadCount := scheduler.idleThreadCount + 1 }

theorem proceed_ok {worker : Worker Cb D.Idle} {found : Option (FiberAndThread Cb)}
    (taken : scheduler.proceed thread worker found = .ok next) :
    Proceeded scheduler thread worker found next := by
  unfold proceed at taken
  split at taken
  next fiber pin =>
    split at taken
    next finished =>
      cases taken
      exact .ended fiber pin finished
    next =>
      obtain ⟨states, switched, rest⟩ := (bind_eq_ok _ _ _).mp taken
      obtain ⟨idle, rfl⟩ := swapIn_ok switched
      cases rest
      exact .fiber fiber pin idle
  next cb pin =>
    obtain ⟨⟨fiber, fiberId, made⟩, given, rest⟩ := (bind_eq_ok _ _ _).mp taken
    obtain ⟨states, switched, rest⟩ := (bind_eq_ok _ _ _).mp rest
    obtain ⟨rfl, kept⟩ := callbackFiber_ok given
    obtain ⟨-, rfl⟩ := swapIn_ok switched
    cases rest
    rw [Function.update_idem]
    exact .callback cb pin fiber fiberId kept
  next =>
    split at taken
    next =>
      cases taken
      exact .left
    next =>
      cases taken
      exact .idle

theorem runs_from (inside : thread < scheduler.threadCount) (worker : Worker Cb D.Idle)
    (runs : Runs scheduler) (free : executes (scheduler.workers thread).phase = none)
    (count : next.threadCount = scheduler.threadCount)
    (workers : next.workers = Function.update scheduler.workers thread worker)
    (exec : ∀ fiber, next.states fiber = .exec →
      executes worker.phase = some fiber ∨ scheduler.states fiber = .exec) : Runs next := by
  apply runs_moved inside worker runs count workers
  intro fiber running
  rcases exec fiber running with here | before
  · exact .inl here
  · refine .inr ⟨before, ?_⟩
    rw [free]
    exact Option.some_ne_none fiber |>.symm

theorem swapped_exec {states : Nat → FiberState} {switched fiber : Nat}
    (running : Function.update states switched .exec fiber = .exec) :
    some switched = some fiber ∨ states fiber = .exec := by
  by_cases same : fiber = switched
  · exact .inl (congrArg some same.symm)
  · rw [Function.update_of_ne same] at running
    exact .inr running

theorem runs_proceeded {found : Option (FiberAndThread Cb)}
    (inside : thread < scheduler.threadCount) (runs : Runs scheduler)
    (phase : (scheduler.workers thread).phase = .scanned found)
    (proceeded : Proceeded scheduler thread (scheduler.workers thread) found next) : Runs next := by
  have free : executes (scheduler.workers thread).phase = none := by rw [phase]; rfl
  cases proceeded with
  | ended fiber pin finished => exact runs_from inside _ runs free rfl rfl fun _ => .inr
  | fiber fiber pin idle => exact runs_from inside _ runs free rfl rfl fun _ => swapped_exec
  | callback cb pin fiber fiberId given =>
      exact runs_from inside _ runs free rfl rfl fun _ => swapped_exec
  | left => exact runs_from inside _ runs free rfl rfl fun _ => .inr
  | idle => exact runs_from inside _ runs free rfl rfl fun _ => .inr

theorem return_idle (how : Return) : how.state ≠ .exec := by
  cases how with
  | yieldToReady => decide
  | yieldToHold => decide
  | terminate => decide
  | throw => decide

theorem runs_settle (inside : thread < scheduler.threadCount) (runs : Runs scheduler) {fiber : Nat}
    {own : Bool} (phase : (scheduler.workers thread).phase = .settling fiber own) :
    Runs (scheduler.settle thread (scheduler.workers thread) fiber own) := by
  have free : executes (scheduler.workers thread).phase = none := by rw [phase]; rfl
  unfold settle
  split
  next => exact runs_from inside _ runs free rfl rfl fun _ => .inr
  next =>
    split
    next =>
      refine runs_from inside _ runs free rfl rfl fun other running => ?_
      cases own with
      | true => exact .inr (update_exec (by decide) running).2
      | false => exact .inr running
    next =>
      refine runs_from inside _ runs free rfl rfl fun other running => ?_
      exact .inr (update_exec (by decide) running).2

theorem runs_idleStep (inside : thread < scheduler.threadCount) (runs : Runs scheduler)
    {idle : D.Idle} (phase : (scheduler.workers thread).phase = .idling idle)
    (result : D.Env × IdleStep D.Idle) :
    Runs (scheduler.idleStep thread (scheduler.workers thread) result) := by
  have free : executes (scheduler.workers thread).phase = none := by rw [phase]; rfl
  obtain ⟨env, idleStep⟩ := result
  cases idleStep with
  | stay idle => exact runs_from inside _ runs free rfl rfl fun _ => .inr
  | swapOut => exact runs_from inside _ runs free rfl rfl fun _ => .inr
  | finish => exact runs_from inside _ runs free rfl rfl fun _ => .inr

theorem runs_kept (inside : thread < scheduler.threadCount) (worker : Worker Cb D.Idle)
    (runs : Runs scheduler) (count : next.threadCount = scheduler.threadCount)
    (workers : next.workers = Function.update scheduler.workers thread worker)
    (states : next.states = scheduler.states)
    (phase : worker.phase = (scheduler.workers thread).phase) : Runs next := by
  apply runs_moved inside worker runs count workers
  intro fiber running
  rw [states] at running
  by_cases here : executes (scheduler.workers thread).phase = some fiber
  · exact .inl (phase ▸ here)
  · exact .inr ⟨running, here⟩

theorem runs_turn {act : Act Cb D.Event} (inside : thread < scheduler.threadCount)
    (runs : Runs scheduler)
    (turn : Turn scheduler thread (scheduler.workers thread) (scheduler.workers thread).phase act
      (.ok next)) : Runs next := by
  generalize found : (scheduler.workers thread).phase = phase at turn
  generalize reached : Except.ok next = result at turn
  cases turn with
  | scan =>
      cases reached
      exact runs_from inside _ runs (by rw [found]; rfl) rfl rfl fun _ => .inr
  | proceed taken => exact runs_proceeded inside runs found (proceed_ok reached.symm)
  | schedule phase call busy known =>
      cases reached
      exact runs_kept inside _ runs rfl rfl rfl rfl
  | swapOut fiber own how =>
      cases reached
      refine runs_moved inside _ runs rfl rfl fun other running => ?_
      obtain ⟨different, before⟩ := update_exec (return_idle how) running
      refine .inr ⟨before, fun here => different ?_⟩
      rw [found] at here
      exact (Option.some.inj here).symm
  | release fiber own =>
      cases reached
      exact runs_from inside _ runs (by rw [found]; rfl) rfl rfl fun _ => .inr
  | settle fiber own =>
      cases reached
      exact runs_settle inside runs found
  | idle idle event result taken =>
      cases reached
      exact runs_idleStep inside runs found result
  | resume =>
      cases reached
      exact runs_from inside _ runs (by rw [found]; rfl) rfl rfl fun _ => .inr

theorem runs_step {label : Transition Cb D.Event} (runs : Runs scheduler)
    (taken : scheduler.step label = some (.ok next)) : Runs next := by
  generalize reached : Except.ok next = result at taken
  cases step_rule taken with
  | tickled thread inside =>
      cases reached
      exact runs_kept inside _ runs rfl rfl rfl rfl
  | turn thread act result inside turn =>
      subst reached
      exact runs_turn inside runs turn
  | schedule call known =>
      cases reached
      exact runs
  | tickle pending =>
      cases reached
      exact runs
  | newFiber =>
      cases reached
      exact fun fiber running => runs fiber (update_exec (by decide) running).2

theorem runs_fresh (threadCount : Nat) : Runs (fresh threadCount : Scheduler D Cb) := by
  intro fiber running
  cases running

end

section
variable {fibers : List (FiberAndThread Cb)} {call : Call Cb}

theorem range_push (fcs : List (Option (Task Cb Nat))) (need : Bool)
    (fibers : List (FiberAndThread Cb)) :
    (fcs.foldl (fun (need, fibers) fc =>
        let (empty, fibers) := scheduleNoLock fibers fc none
        (empty || need, fibers)) (need, fibers)).2 =
      fibers ++ (fcs.filterMap id).map fun task => ⟨task, none⟩ := by
  induction fcs generalizing need fibers with
  | nil => exact (List.append_nil fibers).symm
  | cons fc fcs ih =>
      rw [List.foldl_cons, ih]
      cases fc with
      | none => simp [scheduleNoLock]
      | some task => simp [scheduleNoLock]

/-- The queue after a call: its tasks come last, in their order. -/
theorem push_queue (call : Call Cb) (fibers : List (FiberAndThread Cb)) :
    (call.push fibers).2 = fibers ++ call.tasks.map fun task => ⟨task, call.thread⟩ := by
  cases call with
  | one fc thread =>
      cases fc with
      | none => rfl
      | some task => rfl
  | range fcs => exact range_push fcs false fibers

theorem range_need (fcs : List (Option (Task Cb Nat))) (need : Bool)
    (fibers : List (FiberAndThread Cb))
    (silent : (fcs.foldl (fun (need, fibers) fc =>
        let (empty, fibers) := scheduleNoLock fibers fc none
        (empty || need, fibers)) (need, fibers)).1 = false) :
    need = false ∧ (fcs = [] ∨ fibers ≠ []) := by
  induction fcs generalizing need fibers with
  | nil => exact ⟨silent, .inl rfl⟩
  | cons fc fcs ih =>
      have later := (ih _ _ silent).1
      rw [Bool.or_eq_false_iff] at later
      refine ⟨later.2, .inr fun empty => ?_⟩
      subst empty
      cases later.1

theorem push_need (silent : (call.push fibers).1 = false) (some : (call.push fibers).2 ≠ []) :
    fibers ≠ [] := by
  cases call with
  | one fc thread =>
      intro empty
      subst empty
      cases silent
  | range fcs =>
      rcases (range_need fcs false fibers silent).2 with nothing | before
      · subst nothing
        exact some
      · exact before

theorem scan_perm (thread : Nat) (states : Nat → FiberState) (fibers : List (FiberAndThread Cb)) :
    ((scan thread states fibers).1.toList ++ (scan thread states fibers).2.1).Perm fibers := by
  induction fibers with
  | nil => exact .refl _
  | cons first fibers ih =>
      unfold scan
      split
      next => exact (List.perm_middle).trans (ih.cons first)
      next =>
        split
        next => exact (List.perm_middle).trans (ih.cons first)
        next => exact .refl _

theorem scan_missed {thread : Nat} {states : Nat → FiberState}
    (missed : (scan thread states fibers).1 = none) (free : ∀ entry ∈ fibers, entry.thread = none)
    (waiting : fibers ≠ []) : ∃ fiber, states fiber = .exec := by
  cases fibers with
  | nil => exact absurd rfl waiting
  | cons first fibers =>
      unfold scan at missed
      rw [free first List.mem_cons_self] at missed
      split at missed
      next pinned => exact absurd pinned.1 Bool.false_ne_true
      next =>
        split at missed
        next running =>
          obtain ⟨fiber, -, found⟩ := Option.map_eq_some_iff.mp running
          exact ⟨fiber, found⟩
        next => cases missed

end

/-- What a step leaves in the queue: as it was, without the entry that a scan took, or with the
tasks of a call of `schedule`, the call of `run` for a fiber that yielded included. -/
inductive Refilled (scheduler : Scheduler D Cb) (label : Transition Cb D.Event) :
    List (FiberAndThread Cb) → Prop
  | same : Refilled scheduler label scheduler.fibers
  | scanned (thread : Nat) :
      Refilled scheduler label (scan thread scheduler.states scheduler.fibers).2.1
  | pushed (call : Call Cb) (whose : label = .schedule call ∨
      (∃ thread, label = .worker thread (.schedule call)) ∨ call.thread = none) :
      Refilled scheduler label (call.push scheduler.fibers).2

/-- The frame of a step: no thread comes or goes, and the queue changes in one of three ways. -/
theorem step_frame {scheduler next : Scheduler D Cb} {label : Transition Cb D.Event}
    (moved : scheduler.step label = some (.ok next)) :
    next.threadCount = scheduler.threadCount ∧ Refilled scheduler label next.fibers := by
  generalize reached : Except.ok next = result at moved
  cases step_rule moved with
  | tickled thread inside =>
      cases reached
      exact ⟨rfl, .same⟩
  | turn thread act result inside turn =>
      generalize (scheduler.workers thread).phase = phase at turn
      cases turn with
      | scan =>
          cases reached
          exact ⟨rfl, .scanned thread⟩
      | proceed found =>
          cases proceed_ok reached.symm with
          | ended fiber pin finished => exact ⟨rfl, .same⟩
          | fiber fiber pin idle => exact ⟨rfl, .same⟩
          | callback cb pin fiber fiberId given => exact ⟨rfl, .same⟩
          | left => exact ⟨rfl, .same⟩
          | idle => exact ⟨rfl, .same⟩
      | schedule phase call busy known =>
          cases reached
          exact ⟨rfl, .pushed call (.inr (.inl ⟨thread, rfl⟩))⟩
      | swapOut fiber own how =>
          cases reached
          exact ⟨rfl, .same⟩
      | release fiber own =>
          cases reached
          exact ⟨rfl, .same⟩
      | settle fiber own =>
          cases reached
          unfold settle
          split
          next => exact ⟨rfl, .pushed (.one (some (.fiber fiber)) none) (.inr (.inr rfl))⟩
          next =>
            split
            next => exact ⟨rfl, .same⟩
            next => exact ⟨rfl, .same⟩
      | idle idle event result taken =>
          cases reached
          obtain ⟨env, idleStep⟩ := result
          cases idleStep with
          | stay idle => exact ⟨rfl, .same⟩
          | swapOut => exact ⟨rfl, .same⟩
          | finish => exact ⟨rfl, .same⟩
      | resume =>
          cases reached
          exact ⟨rfl, .same⟩
  | schedule call known =>
      cases reached
      exact ⟨rfl, .pushed call (.inl rfl)⟩
  | tickle pending =>
      cases reached
      exact ⟨rfl, .same⟩
  | newFiber =>
      cases reached
      exact ⟨rfl, .same⟩

end OtaMqtt.Sched.Scheduler
