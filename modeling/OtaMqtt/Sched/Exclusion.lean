import OtaMqtt.Lib.Tally
import OtaMqtt.Lib.Trace
import OtaMqtt.Sched.Turns

/-! No fiber on two threads of a `Scheduler`, whatever overrides `tickle` and `idle`. -/

namespace OtaMqtt.Sched.Exclusion

open OtaMqtt.Lib.Execution (ok_bind)
open OtaMqtt.Lib.Tally OtaMqtt.Lib.Trace
open OtaMqtt.Sched.Scheduler

variable {Cb Idle : Type} {D : Derived}

def current : Phase Cb Idle → Option Nat
  | .scanned found => found.bind fun entry => entry.task.fiberId
  | .running fiber _ => some fiber
  | .returned fiber _ => some fiber
  | .settling fiber _ => some fiber
  | _ => none

/-- No two threads have the same fiber as their current task, and `swapIn` was never called on a
fiber that runs. -/
def Apart : Except Assertion (Scheduler D Cb) → Prop
  | .ok scheduler => ∀ first < scheduler.threadCount, ∀ second < scheduler.threadCount, ∀ fiber,
      current (scheduler.workers first).phase = some fiber →
        current (scheduler.workers second).phase = some fiber → first = second
  | .error reason => reason ≠ .swapIn

def queued (fibers : List (FiberAndThread Cb)) : List Nat := fibers.filterMap fun entry => entry.task.fiberId

def Has (worker : Worker Cb Idle) (fiber : Nat) : Prop :=
  current worker.phase = some fiber ∨ worker.cbFiber = some fiber

/-- The fibers of a call are different, not in the queue and not with a thread. -/
def Unclaimed (scheduler : Scheduler D Cb) (call : Call Cb) : Prop :=
  call.fibers.Nodup ∧ ∀ fiber ∈ call.fibers, fiber ∉ queued scheduler.fibers ∧
    ∀ thread < scheduler.threadCount, ¬ Has (scheduler.workers thread) fiber

def Single : Except Assertion (Scheduler D Cb) → Transition Cb D.Event → Prop
  | .ok scheduler, .schedule call => Unclaimed scheduler call
  | .ok scheduler, .worker _ (.schedule call) => Unclaimed scheduler call
  | _, _ => True

def taken : Phase Cb Idle → Option Nat
  | .scanned found => found.bind fun entry => entry.task.fiberId
  | .running fiber false => some fiber
  | .returned fiber false => some fiber
  | .settling fiber false => some fiber
  | _ => none

/-- The callback fiber, while it is the current task. -/
def lent : Phase Cb Idle → Option Nat
  | .running fiber true => some fiber
  | .returned fiber true => some fiber
  | .settling fiber true => some fiber
  | _ => none

def owned (worker : Worker Cb Idle) : List Nat := (taken worker.phase).toList ++ worker.cbFiber.toList

def places (scheduler : Scheduler D Cb) (fiber : Nat) : Nat :=
  (queued scheduler.fibers).count fiber +
    tally scheduler.threadCount fun thread => (owned (scheduler.workers thread)).count fiber

/-- What a thread's callback fiber is: its current task, or one that has not been started. -/
structure Tidy (states : Nat → FiberState) (worker : Worker Cb Idle) : Prop where
  lent : ∀ fiber, lent worker.phase = some fiber → worker.cbFiber = some fiber
  rests : ∀ fiber, worker.cbFiber = some fiber → Exclusion.lent worker.phase = none →
    states fiber = .init

structure Sole (scheduler : Scheduler D Cb) : Prop where
  single : ∀ fiber, places scheduler fiber ≤ 1
  made : ∀ fiber, scheduler.fiberId < fiber → places scheduler fiber = 0
  runs : Runs scheduler
  tidy : ∀ thread < scheduler.threadCount, Tidy scheduler.states (scheduler.workers thread)

section
variable {worker : Worker Cb Idle} {fiber : Nat}

theorem current_taken {phase : Phase Cb Idle} (held : current phase = some fiber) :
    taken phase = some fiber ∨ lent phase = some fiber := by
  cases phase with
  | scanned found => exact .inl held
  | running other own =>
      cases own with
      | true => exact .inr held
      | false => exact .inl held
  | returned other own =>
      cases own with
      | true => exact .inr held
      | false => exact .inl held
  | settling other own =>
      cases own with
      | true => exact .inr held
      | false => exact .inl held
  | scanning => cases held
  | idling idle => cases held
  | idled => cases held
  | left => cases held

theorem taken_current {phase : Phase Cb Idle} (held : taken phase = some fiber) :
    current phase = some fiber := by
  cases phase with
  | scanned found => exact held
  | running other own =>
      cases own with
      | true => cases held
      | false => exact held
  | returned other own =>
      cases own with
      | true => cases held
      | false => exact held
  | settling other own =>
      cases own with
      | true => cases held
      | false => exact held
  | scanning => cases held
  | idling idle => cases held
  | idled => cases held
  | left => cases held

theorem executes_current {phase : Phase Cb Idle} (running : executes phase = some fiber) :
    current phase = some fiber := by
  obtain ⟨own, rfl⟩ := executes_running running
  rfl

theorem mem_owned : fiber ∈ owned worker ↔
    taken worker.phase = some fiber ∨ worker.cbFiber = some fiber := by
  unfold owned
  rw [List.mem_append, Option.mem_toList, Option.mem_toList]

theorem owned_has (member : fiber ∈ owned worker) : Has worker fiber := by
  rcases mem_owned.mp member with held | kept
  · exact .inl (taken_current held)
  · exact .inr kept

theorem tidy_unlent {states : Nat → FiberState} (unlent : lent worker.phase = none)
    (rests : ∀ fiber, worker.cbFiber = some fiber → states fiber = .init) : Tidy states worker := by
  refine ⟨fun fiber borrowed => ?_, fun fiber kept _ => rests fiber kept⟩
  rw [unlent] at borrowed
  cases borrowed

theorem tidy_lent {states : Nat → FiberState} (borrowed : lent worker.phase = some fiber)
    (kept : worker.cbFiber = some fiber) : Tidy states worker := by
  refine ⟨fun other held => ?_, fun other _ unlent => ?_⟩
  · rw [kept, ← borrowed]
    exact held
  · rw [borrowed] at unlent
    cases unlent

theorem current_owned {states : Nat → FiberState} (tidy : Tidy states worker)
    (held : current worker.phase = some fiber) : fiber ∈ owned worker := by
  rcases current_taken held with mine | callback
  · exact mem_owned.mpr (.inl mine)
  · exact mem_owned.mpr (.inr (tidy.lent fiber callback))

end

section
variable {scheduler : Scheduler D Cb} {thread fiber : Nat}

theorem owned_places (inside : thread < scheduler.threadCount)
    (member : fiber ∈ owned (scheduler.workers thread)) : places scheduler fiber ≠ 0 := by
  have counted := List.count_pos_iff.mpr member
  have within := @le_tally scheduler.threadCount
    (fun thread => (owned (scheduler.workers thread)).count fiber) thread inside
  unfold places
  omega

theorem owned_once (single : places scheduler fiber ≤ 1) {first second : Nat}
    (inside : first < scheduler.threadCount) (inside' : second < scheduler.threadCount)
    (here : fiber ∈ owned (scheduler.workers first))
    (there : fiber ∈ owned (scheduler.workers second)) : first = second := by
  by_contra different
  have counted := List.count_pos_iff.mpr here
  have counted' := List.count_pos_iff.mpr there
  have both := @pair_le_tally scheduler.threadCount
    (fun thread => (owned (scheduler.workers thread)).count fiber) first second inside inside' different
  unfold places at single
  omega

theorem places_zero (absent : fiber ∉ queued scheduler.fibers)
    (free : ∀ thread < scheduler.threadCount, ¬ Has (scheduler.workers thread) fiber) :
    places scheduler fiber = 0 := by
  have nobody : (tally scheduler.threadCount fun thread =>
      (owned (scheduler.workers thread)).count fiber) = 0 := by
    apply tally_zero
    intro thread inside
    exact List.count_eq_zero.mpr fun member => free thread inside (owned_has member)
  unfold places
  rw [List.count_eq_zero.mpr absent, nobody]

end

section
variable {scheduler next : Scheduler D Cb} {thread : Nat}

theorem places_moved (inside : thread < scheduler.threadCount) (worker : Worker Cb D.Idle)
    (count : next.threadCount = scheduler.threadCount)
    (workers : next.workers = Function.update scheduler.workers thread worker) (fiber : Nat) :
    places next fiber +
        ((queued scheduler.fibers).count fiber + (owned (scheduler.workers thread)).count fiber) =
      places scheduler fiber + ((queued next.fibers).count fiber + (owned worker).count fiber) := by
  have change := @tally_change scheduler.threadCount
    (fun thread => (owned (scheduler.workers thread)).count fiber)
    (fun thread => (owned (next.workers thread)).count fiber) thread inside (by
      intro other different
      simp only [workers, Function.update_of_ne different])
  rw [workers, Function.update_self] at change
  unfold places
  rw [count, workers]
  omega

theorem sole_moved (inside : thread < scheduler.threadCount) (worker : Worker Cb D.Idle)
    (sole : Sole scheduler) (count : next.threadCount = scheduler.threadCount)
    (workers : next.workers = Function.update scheduler.workers thread worker)
    (order : scheduler.fiberId ≤ next.fiberId) (runs : Runs next) (tidy : Tidy next.states worker)
    (changed : ∀ fiber, next.states fiber ≠ scheduler.states fiber →
      fiber ∈ owned (scheduler.workers thread) ∨ scheduler.fiberId < fiber)
    (kept : ∀ fiber, (queued next.fibers).count fiber + (owned worker).count fiber ≤
        (queued scheduler.fibers).count fiber + (owned (scheduler.workers thread)).count fiber ∨
      (places scheduler fiber = 0 ∧ fiber ≤ next.fiberId ∧
        (queued next.fibers).count fiber + (owned worker).count fiber ≤ 1)) : Sole next := by
  have moved := places_moved inside worker count workers
  refine ⟨fun fiber => ?_, fun fiber beyond => ?_, runs, fun other within => ?_⟩
  · have before := sole.single fiber
    have balance := moved fiber
    rcases kept fiber with fewer | ⟨none, -, one⟩
    · omega
    · omega
  · have before := sole.made fiber (order.trans_lt beyond)
    have balance := moved fiber
    rcases kept fiber with fewer | ⟨-, old, -⟩
    · omega
    · omega
  · rw [workers]
    by_cases same : other = thread
    · subst same
      rw [Function.update_self]
      exact tidy
    · rw [Function.update_of_ne same]
      rw [count] at within
      have old := sole.tidy other within
      refine ⟨old.lent, fun fiber held resting => ?_⟩
      have mine : fiber ∈ owned (scheduler.workers other) := mem_owned.mpr (.inr held)
      by_contra different
      have rests := old.rests fiber held resting
      rcases changed fiber (by rw [rests]; exact different) with theirs | new
      · exact same (owned_once (sole.single fiber) within inside mine theirs)
      · exact owned_places within mine (sole.made fiber new)

theorem sole_phase (inside : thread < scheduler.threadCount) (worker : Worker Cb D.Idle)
    (sole : Sole scheduler) (count : next.threadCount = scheduler.threadCount)
    (workers : next.workers = Function.update scheduler.workers thread worker)
    (fibers : next.fibers = scheduler.fibers) (fiberId : next.fiberId = scheduler.fiberId)
    (states : next.states = scheduler.states) (runs : Runs next)
    (callback : worker.cbFiber = (scheduler.workers thread).cbFiber)
    (borrowed : lent worker.phase = lent (scheduler.workers thread).phase)
    (held : taken worker.phase = taken (scheduler.workers thread).phase) : Sole next := by
  have old := sole.tidy thread inside
  refine sole_moved inside worker sole count workers fiberId.ge runs ⟨?_, ?_⟩ ?_ ?_
  · rw [borrowed, callback]
    exact old.lent
  · rw [borrowed, callback, states]
    exact old.rests
  · intro fiber different
    exact absurd (congrFun states fiber) different
  · intro fiber
    unfold owned
    rw [fibers, callback, held]
    exact .inl le_rfl

end

theorem queued_append (front back : List (FiberAndThread Cb)) :
    queued (front ++ back) = queued front ++ queued back := List.filterMap_append

theorem queued_push (call : Call Cb) (fibers : List (FiberAndThread Cb)) :
    queued (call.push fibers).2 = queued fibers ++ call.fibers := by
  rw [push_queue, queued_append]
  congr 1
  exact List.filterMap_map

theorem queued_found (found : Option (FiberAndThread Cb)) :
    queued found.toList = (found.bind fun entry => entry.task.fiberId).toList := by
  cases found with
  | none => rfl
  | some entry =>
      unfold queued
      cases here : entry.task.fiberId with
      | none => simp [here]
      | some fiber => simp [here]

theorem queued_scan (thread : Nat) (states : Nat → FiberState) (fibers : List (FiberAndThread Cb))
    (fiber : Nat) :
    ((scan thread states fibers).1.bind fun entry => entry.task.fiberId).toList.count fiber +
      (queued (scan thread states fibers).2.1).count fiber = (queued fibers).count fiber := by
  rw [← List.count_append, ← queued_found, ← queued_append]
  exact ((scan_perm thread states fibers).filterMap _).count_eq fiber

theorem taken_other {worker : Worker Cb Idle} {fiber : Nat} (once : (owned worker).count fiber ≤ 1)
    (held : taken worker.phase = some fiber) : worker.cbFiber ≠ some fiber := by
  intro kept
  unfold owned at once
  rw [held, kept] at once
  simp at once

section
variable {scheduler next : Scheduler D Cb} {thread : Nat}

theorem owned_single (sole : Sole scheduler) (inside : thread < scheduler.threadCount)
    (fiber : Nat) : (owned (scheduler.workers thread)).count fiber ≤ 1 := by
  have all := sole.single fiber
  have within := @le_tally scheduler.threadCount
    (fun thread => (owned (scheduler.workers thread)).count fiber) thread inside
  unfold places at all
  omega

theorem sole_scan (inside : thread < scheduler.threadCount) (sole : Sole scheduler)
    (phase : (scheduler.workers thread).phase = .scanning)
    (runs : Runs (scheduler.scanQueue thread (scheduler.workers thread))) :
    Sole (scheduler.scanQueue thread (scheduler.workers thread)) := by
  have old := sole.tidy thread inside
  refine sole_moved inside
    { scheduler.workers thread with
      phase := .scanned (scan thread scheduler.states scheduler.fibers).1
      tickles := (scan thread scheduler.states scheduler.fibers).2.2 }
    sole rfl rfl le_rfl runs ⟨?_, ?_⟩ ?_ ?_
  · intro fiber held
    cases held
  · intro fiber held _
    exact old.rests fiber held (by rw [phase]; rfl)
  · intro fiber different
    exact absurd rfl different
  · intro fiber
    have balance := queued_scan thread scheduler.states scheduler.fibers fiber
    have fewer : (scheduler.scanQueue thread (scheduler.workers thread)).fibers =
      (scan thread scheduler.states scheduler.fibers).2.1 := rfl
    rw [fewer]
    simp only [owned, phase, taken, List.count_append, Option.toList_none, List.count_nil]
    left
    omega

theorem unclaimed_count {call : Call Cb} (unclaimed : Unclaimed scheduler call)
    (known : scheduler.known call = true) (fiber : Nat) :
    call.fibers.count fiber = 0 ∨
      (places scheduler fiber = 0 ∧ fiber ≤ scheduler.fiberId ∧ call.fibers.count fiber ≤ 1) := by
  by_cases member : fiber ∈ call.fibers
  · obtain ⟨absent, free⟩ := unclaimed.2 fiber member
    have old := of_decide_eq_true (List.all_eq_true.mp known fiber member)
    exact .inr ⟨places_zero absent free, old.2, List.nodup_iff_count_le_one.mp unclaimed.1 fiber⟩
  · exact .inl (List.count_eq_zero.mpr member)

theorem places_parts (inside : thread < scheduler.threadCount) (fiber : Nat) :
    (queued scheduler.fibers).count fiber + (owned (scheduler.workers thread)).count fiber ≤
      places scheduler fiber := by
  have within := @le_tally scheduler.threadCount
    (fun thread => (owned (scheduler.workers thread)).count fiber) thread inside
  unfold places
  omega

theorem created_count (inside : thread < scheduler.threadCount) (sole : Sole scheduler) (fiber : Nat) :
    (queued scheduler.fibers).count fiber + [scheduler.fiberId + 1].count fiber ≤
        (queued scheduler.fibers).count fiber ∨
      (places scheduler fiber = 0 ∧ fiber ≤ scheduler.fiberId + 1 ∧
        (queued scheduler.fibers).count fiber + [scheduler.fiberId + 1].count fiber ≤ 1) := by
  by_cases same : fiber = scheduler.fiberId + 1
  · subst same
    have nowhere := sole.made (scheduler.fiberId + 1) (Nat.lt_succ_self _)
    have parts := places_parts inside (scheduler.fiberId + 1)
    refine .inr ⟨nowhere, le_rfl, ?_⟩
    rw [List.count_singleton_self]
    omega
  · refine .inl ?_
    rw [List.count_singleton]
    simp only [beq_iff_eq, Ne.symm same, if_false]
    exact le_rfl

theorem sole_scheduleOn (inside : thread < scheduler.threadCount) (sole : Sole scheduler)
    {call : Call Cb} (unclaimed : Unclaimed scheduler call) (known : scheduler.known call = true)
    (runs : Runs (scheduler.scheduleOn thread (scheduler.workers thread) call)) :
    Sole (scheduler.scheduleOn thread (scheduler.workers thread) call) := by
  have old := sole.tidy thread inside
  refine sole_moved inside
    { scheduler.workers thread with tickles := (call.push scheduler.fibers).1 }
    sole rfl rfl le_rfl runs ⟨old.lent, old.rests⟩ (fun _ different => absurd rfl different) ?_
  intro fiber
  have longer : (scheduler.scheduleOn thread (scheduler.workers thread) call).fibers =
    (call.push scheduler.fibers).2 := rfl
  have parts := places_parts inside fiber
  rw [longer, queued_push, List.count_append]
  simp only [owned] at parts ⊢
  rcases unclaimed_count unclaimed known fiber with none | ⟨nowhere, made, one⟩
  · exact .inl (by omega)
  · exact .inr ⟨nowhere, made, by omega⟩

theorem rests_update {worker : Worker Cb Idle} {states : Nat → FiberState} {state : FiberState}
    {changed : Nat} (once : (owned worker).count changed ≤ 1)
    (held : taken worker.phase = some changed)
    (rests : ∀ fiber, worker.cbFiber = some fiber → states fiber = .init) (fiber : Nat)
    (kept : worker.cbFiber = some fiber) : Function.update states changed state fiber = .init := by
  have different : fiber ≠ changed := by
    intro same
    subst same
    exact taken_other once held kept
  rw [Function.update_of_ne different]
  exact rests fiber kept

theorem update_changed {states : Nat → FiberState} {state : FiberState} {changed fiber : Nat}
    (different : Function.update states changed state fiber ≠ states fiber) : fiber = changed := by
  by_contra other
  exact different (Function.update_of_ne other _ _)

theorem sole_proceeded (inside : thread < scheduler.threadCount) (sole : Sole scheduler)
    {found : Option (FiberAndThread Cb)}
    (phase : (scheduler.workers thread).phase = .scanned found) (runs : Runs next)
    (proceeded : Proceeded scheduler thread (scheduler.workers thread) found next) : Sole next := by
  have old := sole.tidy thread inside
  have resting : ∀ fiber, (scheduler.workers thread).cbFiber = some fiber →
      scheduler.states fiber = .init := fun fiber held => old.rests fiber held (by rw [phase]; rfl)
  cases proceeded with
  | ended fiber pin finished =>
      refine sole_moved inside { scheduler.workers thread with phase := .scanning }
        sole rfl rfl le_rfl runs (tidy_unlent rfl resting)
        (fun _ different => absurd rfl different) ?_
      intro other
      simp only [owned, phase, taken, setWorker_fibers, List.count_append, Option.toList_none,
        List.count_nil]
      exact .inl (by omega)
  | fiber fiber pin idle =>
      have held : taken (scheduler.workers thread).phase = some fiber := by rw [phase]; rfl
      refine sole_moved inside { scheduler.workers thread with phase := .running fiber false }
        sole rfl rfl le_rfl runs (tidy_unlent rfl ?_) ?_ ?_
      · exact fun other kept =>
          rests_update (owned_single sole inside fiber) held resting other kept
      · intro other different
        rw [update_changed different]
        exact .inl (mem_owned.mpr (.inl held))
      · intro other
        simp only [owned, phase, taken]
        exact .inl le_rfl
  | callback cb pin fiber fiberId given =>
      rcases given with ⟨kept, rfl⟩ | ⟨none, rfl, rfl⟩
      · refine sole_moved inside
          { scheduler.workers thread with phase := .running fiber true, cbFiber := some fiber }
          sole rfl rfl le_rfl runs (tidy_lent rfl rfl) ?_ ?_
        · intro other different
          rw [update_changed different]
          exact .inl (mem_owned.mpr (.inr kept))
        · intro other
          simp only [owned, phase, taken, kept]
          exact .inl le_rfl
      · refine sole_moved inside
          { scheduler.workers thread with
            phase := .running (scheduler.fiberId + 1) true, cbFiber := some (scheduler.fiberId + 1) }
          sole rfl rfl (Nat.le_succ _) runs (tidy_lent rfl rfl) ?_ ?_
        · intro other different
          rw [update_changed different]
          exact .inr (Nat.lt_succ_self _)
        · intro other
          simp only [owned, phase, taken, none, setWorker_fibers, Option.toList_none,
            Option.toList_some, List.nil_append]
          rcases created_count inside sole other with fewer | fresh
          · exact .inl (fewer.trans (Nat.le_add_right _ _))
          · exact .inr fresh
  | left =>
      exact sole_phase inside { scheduler.workers thread with phase := .left } sole rfl rfl rfl rfl rfl
        runs rfl (by rw [phase]; rfl) (by rw [phase]; rfl)
  | idle =>
      exact sole_phase inside { scheduler.workers thread with phase := .idling D.enter } sole rfl rfl
        rfl rfl rfl runs rfl (by rw [phase]; rfl) (by rw [phase]; rfl)

theorem sole_swapOut (inside : thread < scheduler.threadCount) (sole : Sole scheduler) {fiber : Nat}
    {own : Bool} (phase : (scheduler.workers thread).phase = .running fiber own)
    (count : next.threadCount = scheduler.threadCount)
    (workers : next.workers = Function.update scheduler.workers thread
      { scheduler.workers thread with phase := .returned fiber own })
    (fibers : next.fibers = scheduler.fibers) (fiberId : next.fiberId = scheduler.fiberId)
    (state : FiberState) (states : next.states = Function.update scheduler.states fiber state)
    (runs : Runs next) : Sole next := by
  have old := sole.tidy thread inside
  have mine : fiber ∈ owned (scheduler.workers thread) := current_owned old (by rw [phase]; rfl)
  refine sole_moved inside _ sole count workers fiberId.ge runs ?_ ?_ ?_
  · cases own with
    | true => exact tidy_lent rfl (old.lent fiber (by rw [phase]; rfl))
    | false =>
        have held : taken (scheduler.workers thread).phase = some fiber := by rw [phase]; rfl
        have resting : ∀ fiber, (scheduler.workers thread).cbFiber = some fiber →
            scheduler.states fiber = .init := fun fiber kept => old.rests fiber kept (by rw [phase]; rfl)
        rw [states]
        exact tidy_unlent rfl fun other kept =>
          rests_update (owned_single sole inside fiber) held resting other kept
  · intro other different
    rw [states] at different
    rw [update_changed different]
    exact .inl mine
  · intro other
    rw [fibers]
    cases own with
    | true =>
        simp only [owned, phase, taken]
        exact .inl le_rfl
    | false =>
        simp only [owned, phase, taken]
        exact .inl le_rfl

theorem owned_count (worker : Worker Cb Idle) (fiber : Nat) :
    (owned worker).count fiber =
      (taken worker.phase).toList.count fiber + worker.cbFiber.toList.count fiber :=
  List.count_append

theorem requeued_count (fiber : Nat) (fibers : List (FiberAndThread Cb)) (other : Nat) :
    (queued ((Call.one (some (.fiber fiber)) none : Call Cb).push fibers).2).count other =
      (queued fibers).count other + (some fiber).toList.count other := by
  rw [queued_push, List.count_append]
  rfl

theorem sole_settle_taken (inside : thread < scheduler.threadCount) (sole : Sole scheduler)
    {fiber : Nat} (phase : (scheduler.workers thread).phase = .settling fiber false)
    (runs : Runs (scheduler.settle thread (scheduler.workers thread) fiber false)) :
    Sole (scheduler.settle thread (scheduler.workers thread) fiber false) := by
  have old := sole.tidy thread inside
  have held : taken (scheduler.workers thread).phase = some fiber := by rw [phase]; rfl
  have resting : ∀ fiber, (scheduler.workers thread).cbFiber = some fiber →
      scheduler.states fiber = .init := fun fiber kept => old.rests fiber kept (by rw [phase]; rfl)
  have before := fun other => owned_count (scheduler.workers thread) other
  rw [held] at before
  simp only [settle, Bool.false_eq_true, if_false] at runs ⊢
  split
  next ready =>
    rw [if_pos ready] at runs
    refine sole_moved inside _ sole rfl rfl le_rfl runs (tidy_unlent rfl resting)
      (fun _ different => absurd rfl different) fun other => ?_
    simp only [scheduleOn, requeued_count, before, owned_count, taken, Option.toList_none,
      List.count_nil]
    exact .inl (by omega)
  next running =>
    rw [if_neg running] at runs
    split
    next finished =>
      rw [if_pos finished] at runs
      refine sole_moved inside _ sole rfl rfl le_rfl runs (tidy_unlent rfl resting)
        (fun _ different => absurd rfl different) fun other => ?_
      simp only [before, owned_count, taken, setWorker_fibers, Option.toList_none, List.count_nil]
      exact .inl (by omega)
    next alive =>
      rw [if_neg alive] at runs
      refine sole_moved inside _ sole rfl rfl le_rfl runs (tidy_unlent rfl fun other kept =>
        rests_update (owned_single sole inside fiber) held resting other kept) ?_ fun other => ?_
      · intro other different
        rw [update_changed different]
        exact .inl (mem_owned.mpr (.inl held))
      · simp only [before, owned_count, taken, setWorker_fibers, Option.toList_none, List.count_nil]
        exact .inl (by omega)

theorem sole_settle_lent (inside : thread < scheduler.threadCount) (sole : Sole scheduler)
    {fiber : Nat} (phase : (scheduler.workers thread).phase = .settling fiber true)
    (runs : Runs (scheduler.settle thread (scheduler.workers thread) fiber true)) :
    Sole (scheduler.settle thread (scheduler.workers thread) fiber true) := by
  have kept := (sole.tidy thread inside).lent fiber (by rw [phase]; rfl)
  have held : taken (scheduler.workers thread).phase = none := by rw [phase]; rfl
  have before := fun other => owned_count (scheduler.workers thread) other
  rw [held, kept] at before
  have mine : fiber ∈ owned (scheduler.workers thread) := mem_owned.mpr (.inr kept)
  simp only [settle, if_true] at runs ⊢
  split
  next ready =>
    rw [if_pos ready] at runs
    refine sole_moved inside _ sole rfl rfl le_rfl runs
      (tidy_unlent rfl fun _ held => nomatch held)
      (fun _ different => absurd rfl different) fun other => ?_
    simp only [scheduleOn, requeued_count, before, owned_count, taken, Option.toList_none,
      List.count_nil]
    exact .inl (by omega)
  next running =>
    rw [if_neg running] at runs
    split
    next finished =>
      rw [if_pos finished] at runs
      refine sole_moved inside _ sole rfl rfl le_rfl runs (tidy_unlent rfl ?_) ?_ fun other => ?_
      · intro other same
        have equal := Option.some.inj (same.symm.trans kept)
        subst equal
        exact Function.update_self _ _ _
      · intro other different
        rw [update_changed different]
        exact .inl mine
      · simp only [before, owned_count, taken, kept, setWorker_fibers]
        exact .inl le_rfl
    next alive =>
      rw [if_neg alive] at runs
      refine sole_moved inside _ sole rfl rfl le_rfl runs
        (tidy_unlent rfl fun _ held => nomatch held) ?_ fun other => ?_
      · intro other different
        rw [update_changed different]
        exact .inl mine
      · simp only [before, owned_count, taken, setWorker_fibers, Option.toList_none, List.count_nil]
        exact .inl (by omega)

theorem sole_turn {act : Act Cb D.Event} (inside : thread < scheduler.threadCount)
    (sole : Sole scheduler) (single : Single (.ok scheduler) (.worker thread act))
    (turn : Turn scheduler thread (scheduler.workers thread) (scheduler.workers thread).phase act
      (.ok next)) : Sole next := by
  have runs := runs_turn inside sole.runs turn
  generalize found : (scheduler.workers thread).phase = phase at turn
  generalize reached : Except.ok next = result at turn
  cases turn with
  | scan =>
      cases reached
      exact sole_scan inside sole found runs
  | proceed taken => exact sole_proceeded inside sole found runs (proceed_ok reached.symm)
  | schedule phase call busy known =>
      cases reached
      exact sole_scheduleOn inside sole single known runs
  | swapOut fiber own how =>
      cases reached
      exact sole_swapOut inside sole found rfl rfl rfl rfl how.state rfl runs
  | release fiber own =>
      cases reached
      refine sole_phase inside _ sole rfl rfl rfl rfl rfl runs rfl ?_ ?_
      · rw [found]
        cases own with
        | true => rfl
        | false => rfl
      · rw [found]
        cases own with
        | true => rfl
        | false => rfl
  | settle fiber own =>
      cases reached
      cases own with
      | true => exact sole_settle_lent inside sole found runs
      | false => exact sole_settle_taken inside sole found runs
  | idle idle event result taken =>
      cases reached
      obtain ⟨env, idleStep⟩ := result
      cases idleStep with
      | stay idle =>
          exact sole_phase inside _ sole rfl rfl rfl rfl rfl runs rfl (by rw [found]; rfl)
            (by rw [found]; rfl)
      | swapOut =>
          exact sole_phase inside _ sole rfl rfl rfl rfl rfl runs rfl (by rw [found]; rfl)
            (by rw [found]; rfl)
      | finish =>
          exact sole_phase inside _ sole rfl rfl rfl rfl rfl runs rfl (by rw [found]; rfl)
            (by rw [found]; rfl)
  | resume =>
      cases reached
      exact sole_phase inside _ sole rfl rfl rfl rfl rfl runs rfl (by rw [found]; rfl)
        (by rw [found]; rfl)

theorem sole_schedule {call : Call Cb} (sole : Sole scheduler)
    (unclaimed : Unclaimed scheduler call) (known : scheduler.known call = true) (callers : Nat) :
    Sole { scheduler with fibers := (call.push scheduler.fibers).2, callers := callers } := by
  refine ⟨fun fiber => ?_, fun fiber beyond => ?_, sole.runs, sole.tidy⟩
  · have before := sole.single fiber
    have new := unclaimed_count unclaimed known fiber
    simp only [places, queued_push, List.count_append] at before new ⊢
    omega
  · have before := sole.made fiber beyond
    have new := unclaimed_count unclaimed known fiber
    simp only [places, queued_push, List.count_append] at beyond before new ⊢
    omega

theorem sole_newFiber (sole : Sole scheduler) :
    Sole { scheduler with
      fiberId := scheduler.fiberId + 1
      states := Function.update scheduler.states (scheduler.fiberId + 1) .init } := by
  refine ⟨sole.single, fun fiber beyond => ?_, ?_, fun thread inside => ?_⟩
  · exact sole.made fiber (Nat.lt_of_succ_lt beyond)
  · exact fun fiber running => sole.runs fiber (update_exec (by decide) running).2
  · have old := sole.tidy thread inside
    refine ⟨old.lent, fun fiber kept unlent => ?_⟩
    by_cases same : fiber = scheduler.fiberId + 1
    · subst same
      exact Function.update_self _ _ _
    · exact (Function.update_of_ne same _ _).trans (old.rests fiber kept unlent)

theorem sole_step {label : Transition Cb D.Event} (sole : Sole scheduler)
    (single : Single (.ok scheduler) label) (taken : scheduler.step label = some (.ok next)) :
    Sole next := by
  have runs := runs_step sole.runs taken
  generalize reached : Except.ok next = result at taken
  cases step_rule taken with
  | tickled thread inside =>
      cases reached
      exact sole_phase inside _ sole rfl rfl rfl rfl rfl runs rfl rfl rfl
  | turn thread act result inside turn =>
      subst reached
      exact sole_turn inside sole single turn
  | schedule call known =>
      cases reached
      exact sole_schedule sole single known _
  | tickle pending =>
      cases reached
      exact ⟨sole.single, sole.made, sole.runs, sole.tidy⟩
  | newFiber =>
      cases reached
      exact sole_newFiber sole

theorem proceed_fails {worker : Worker Cb D.Idle} {found : Option (FiberAndThread Cb)}
    (failed : scheduler.proceed thread worker found = .error .swapIn) :
    ∃ fiber pin, found = some ⟨.fiber fiber, pin⟩ ∧ scheduler.states fiber = .exec := by
  unfold proceed at failed
  split at failed
  next fiber pin =>
    refine ⟨fiber, pin, rfl, ?_⟩
    split at failed
    next => cases failed
    next =>
      by_contra idle
      rw [swapIn, if_neg idle] at failed
      cases failed
  next cb pin =>
    exfalso
    cases given : scheduler.callbackFiber worker with
    | error reason =>
        rw [given] at failed
        unfold callbackFiber resetFiber at given
        split at given
        next =>
          split at given
          next => cases given
          next =>
            cases given
            cases failed
        next => cases given
    | ok result =>
        obtain ⟨fiber, fiberId, made⟩ := result
        rw [given, ok_bind] at failed
        obtain ⟨rfl, -⟩ := callbackFiber_ok given
        have idle : Function.update scheduler.states fiber .init fiber ≠ .exec := by
          rw [Function.update_self]
          decide
        simp only [swapIn, if_neg idle] at failed
        cases failed
  next =>
    split at failed
    next => cases failed
    next => cases failed

/-- When `swapIn` fails, another thread runs the fiber. -/
theorem step_fails {label : Transition Cb D.Event} (runs : Runs scheduler)
    (failed : scheduler.step label = some (.error .swapIn)) :
    ∃ first < scheduler.threadCount, ∃ second < scheduler.threadCount, ∃ fiber, first ≠ second ∧
      taken (scheduler.workers first).phase = some fiber ∧
      current (scheduler.workers second).phase = some fiber := by
  generalize reached : (Except.error .swapIn : Except Assertion (Scheduler D Cb)) = result at failed
  cases step_rule failed with
  | turn thread act result inside turn =>
      generalize found : (scheduler.workers thread).phase = phase at turn
      cases turn with
      | proceed entry =>
          obtain ⟨fiber, pin, rfl, running⟩ := proceed_fails reached.symm
          obtain ⟨other, within, executing⟩ := runs fiber running
          refine ⟨thread, inside, other, within, fiber, ?_, by rw [found]; rfl, ?_⟩
          · intro same
            subst same
            rw [found] at executing
            cases executing
          · exact executes_current executing
      | scan => cases reached
      | schedule phase call busy known => cases reached
      | swapOut fiber own how => cases reached
      | release fiber own => cases reached
      | settle fiber own => cases reached
      | idle idle event result taken => cases reached
      | resume => cases reached
  | tickled thread inside => cases reached
  | schedule call known => cases reached
  | tickle pending => cases reached
  | newFiber => cases reached

def Kept : Except Assertion (Scheduler D Cb) → Prop
  | .ok scheduler => Sole scheduler
  | .error reason => reason ≠ .swapIn

theorem sole_apart (sole : Sole scheduler) : Apart (.ok scheduler) := by
  intro first inside second inside' fiber here there
  exact owned_once (sole.single fiber) inside inside' (current_owned (sole.tidy first inside) here)
    (current_owned (sole.tidy second inside') there)

theorem kept_step (state : Except Assertion (Scheduler D Cb)) (label : Transition Cb D.Event)
    (next : Except Assertion (Scheduler D Cb)) (kept : Kept state) (single : Single state label)
    (moved : machine state label = some next) : Kept next := by
  cases state with
  | error reason => cases moved
  | ok scheduler =>
      cases next with
      | ok next => exact sole_step kept single moved
      | error reason =>
          intro same
          subst same
          obtain ⟨first, inside, second, inside', fiber, different, here, there⟩ :=
            step_fails kept.runs moved
          exact different (sole_apart kept first inside second inside' fiber (taken_current here) there)

theorem sole_fresh (threadCount : Nat) : Sole (fresh threadCount : Scheduler D Cb) := by
  have nowhere : ∀ fiber, places (fresh threadCount : Scheduler D Cb) fiber = 0 := fun fiber =>
    places_zero List.not_mem_nil fun thread _ held => held.elim nofun nofun
  refine ⟨fun fiber => ?_, fun fiber _ => nowhere fiber, runs_fresh threadCount, fun thread _ => ?_⟩
  · rw [nowhere]
    exact Nat.zero_le 1
  · exact tidy_unlent rfl fun _ kept => nomatch kept

def Alone : Except Assertion (Scheduler D Cb) → Prop
  | .ok scheduler => Runs scheduler ∧ scheduler.threadCount ≤ 1
  | .error reason => reason ≠ .swapIn

theorem alone_step (state : Except Assertion (Scheduler D Cb)) (label : Transition Cb D.Event)
    (next : Except Assertion (Scheduler D Cb)) (alone : Alone state)
    (moved : machine state label = some next) : Alone next := by
  cases state with
  | error reason => cases moved
  | ok scheduler =>
      cases next with
      | ok next =>
          refine ⟨runs_step alone.1 moved, ?_⟩
          rw [(step_frame moved).1]
          exact alone.2
      | error reason =>
          intro same
          subst same
          obtain ⟨first, inside, second, inside', fiber, different, -⟩ := step_fails alone.1 moved
          have few := alone.2
          omega

theorem alone_apart (state : Except Assertion (Scheduler D Cb)) (alone : Alone state) :
    Apart state := by
  cases state with
  | error reason => exact alone
  | ok scheduler =>
      intro first inside second inside' fiber _ _
      have few := alone.2
      omega

/-- With any number of threads and for every interleaving: no two threads have one fiber, when
there is one thread only or every fiber that is given to `schedule` is at that moment neither in
the queue nor with a thread. -/
theorem unclaimed_fibers_stay_apart (threadCount : Nat) (labels : List (Transition Cb D.Event))
    (condition : threadCount ≤ 1 ∨
      Guarded machine Single (.ok (fresh threadCount) : Except Assertion (Scheduler D Cb)) labels) :
    Always machine (Apart : Except Assertion (Scheduler D Cb) → Prop) (.ok (fresh threadCount))
      labels := by
  rcases condition with few | single
  · exact preserves_always alone_step alone_apart labels _ ⟨runs_fresh threadCount, few⟩
  · refine guarded_always kept_step (fun state kept => ?_) labels _ (sole_fresh threadCount) single
    cases state with
    | ok scheduler => exact sole_apart kept
    | error reason => exact kept

end

/-- A fiber that is scheduled twice, before either of two threads has switched into it. -/
def twiceScheduled : List (Transition Unit base.Event) :=
  [.newFiber, .schedule (.one (some (.fiber 1)) none), .tickle,
    .schedule (.one (some (.fiber 1)) none), .worker 0 .scan, .worker 1 .scan, .worker 0 .proceed,
    .worker 1 .proceed]

theorem twiceScheduled_meets :
    ¬ Always machine (Apart : Except Assertion (Scheduler base Unit) → Prop) (.ok (fresh 2))
        twiceScheduled ∧
      run machine (.ok (fresh 2) : Except Assertion (Scheduler base Unit)) twiceScheduled =
        some (.error .swapIn) := by
  refine ⟨fun always => ?_, rfl⟩
  have apart := always (twiceScheduled.take 6) (twiceScheduled.drop 6) _
    (List.take_append_drop 6 _) rfl
  have same := apart 0 (by decide) 1 (by decide) 1 rfl rfl
  cases same

/-- A fiber that yields and is taken again by the other thread. -/
def handedOver : List (Transition Unit base.Event) :=
  [.newFiber, .schedule (.one (some (.fiber 1)) none), .tickle, .worker 0 .scan, .worker 0 .proceed,
    .worker 0 (.swapOut .yieldToReady), .worker 0 .release, .worker 0 .settle, .worker 1 .scan,
    .worker 1 .proceed]

instance (worker : Worker Cb Idle) (fiber : Nat) : Decidable (Has worker fiber) :=
  inferInstanceAs (Decidable (_ ∨ _))

instance (scheduler : Scheduler D Cb) (call : Call Cb) : Decidable (Unclaimed scheduler call) :=
  inferInstanceAs (Decidable (_ ∧ _))

instance : ∀ (state : Except Assertion (Scheduler D Cb)) (label : Transition Cb D.Event),
    Decidable (Single state label)
  | .ok _, .schedule _ => inferInstanceAs (Decidable (Unclaimed _ _))
  | .ok _, .worker _ (.schedule _) => inferInstanceAs (Decidable (Unclaimed _ _))
  | .ok _, .worker _ .tickle => .isTrue trivial
  | .ok _, .worker _ .scan => .isTrue trivial
  | .ok _, .worker _ .proceed => .isTrue trivial
  | .ok _, .worker _ (.swapOut _) => .isTrue trivial
  | .ok _, .worker _ .release => .isTrue trivial
  | .ok _, .worker _ .settle => .isTrue trivial
  | .ok _, .worker _ (.idle _) => .isTrue trivial
  | .ok _, .worker _ .resume => .isTrue trivial
  | .ok _, .tickle => .isTrue trivial
  | .ok _, .newFiber => .isTrue trivial
  | .error _, _ => .isTrue trivial

theorem handedOver_stays_apart :
    (run machine (.ok (fresh 2) : Except Assertion (Scheduler base Unit)) handedOver).isSome = true ∧
      Always machine (Apart : Except Assertion (Scheduler base Unit) → Prop) (.ok (fresh 2))
        handedOver := by
  refine ⟨rfl, unclaimed_fibers_stay_apart 2 handedOver (.inr ?_)⟩
  decide +kernel

end OtaMqtt.Sched.Exclusion
