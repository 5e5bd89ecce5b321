import OtaMqtt.Lib.Trace
import OtaMqtt.Sched.Turns

/-! Tasks that are scheduled for one thread (`Scheduler::run` in sherry/scheduler.cc).

The thread is kept in the entry of the queue, which is gone when the task is picked. Beside the
scheduler, `pins` says for every entry which thread its task was scheduled for by its caller, and
`carried` says it for the task that a thread has picked. -/

namespace OtaMqtt.Sched.Pinning

open OtaMqtt.Lib.Trace OtaMqtt.Sched.Scheduler

variable {Cb : Type} {D : Derived}

structure World (D : Derived) (Cb : Type) where
  scheduler : Scheduler D Cb
  pins : List (Option Nat)
  carried : Nat → Option Nat

def World.fresh (threadCount : Nat) : World D Cb := ⟨.fresh threadCount, [], fun _ => none⟩

/-- The pin of the entry that `scan` takes, and the pins of the others. -/
def scanPins (thread : Nat) (states : Nat → FiberState) :
    List (FiberAndThread Cb) → List (Option Nat) → Option Nat × List (Option Nat)
  | entry :: rest, pin :: pins =>
      if (entry.thread.isSome ∧ entry.thread ≠ some thread) ∨
          entry.task.fiberId.map states = some .exec then
        let (found, left) := scanPins thread states rest pins
        (found, pin :: left)
      else (pin, pins)
  | _, pins => (none, pins)

/-- A task keeps its pin until it ends or a caller schedules it anew; what `run` itself puts back
is the task it had picked. -/
def follow (world : World D Cb) : Transition Cb D.Event → List (Option Nat) × (Nat → Option Nat)
  | .worker thread .scan =>
      let (pin, pins) := scanPins thread world.scheduler.states world.scheduler.fibers world.pins
      (pins, Function.update world.carried thread pin)
  | .worker _ (.schedule call) => (world.pins ++ call.tasks.map fun _ => call.thread, world.carried)
  | .worker thread .settle =>
      match (world.scheduler.workers thread).phase with
      | .settling fiber _ =>
          if world.scheduler.states fiber = .ready then
            (world.pins ++ [world.carried thread], world.carried)
          else (world.pins, world.carried)
      | _ => (world.pins, world.carried)
  | .schedule call => (world.pins ++ call.tasks.map fun _ => call.thread, world.carried)
  | _ => (world.pins, world.carried)

def machine : Except Assertion (World D Cb) → Transition Cb D.Event →
    Option (Except Assertion (World D Cb))
  | .ok world, label => (world.scheduler.step label).map fun outcome => outcome.map fun next =>
      ⟨next, (follow world label).1, (follow world label).2⟩
  | .error _, _ => none

/-- A thread runs only tasks that are scheduled for it or for no thread. -/
def Honoured : Except Assertion (World D Cb) → Prop
  | .ok world => ∀ thread fiber own pin, (world.scheduler.workers thread).phase = .running fiber own →
      world.carried thread = some pin → pin = thread
  | .error _ => True

/-- Among several threads, no task that is scheduled for one of them yields to ready. -/
def Settled : Except Assertion (World D Cb) → Transition Cb D.Event → Prop
  | .ok world, .worker thread .settle =>
      match (world.scheduler.workers thread).phase with
      | .settling fiber _ => world.scheduler.states fiber = .ready →
          world.scheduler.threadCount ≤ 1 ∨ world.carried thread = none
      | _ => True
  | _, _ => True

def Bound (threadCount : Nat) (entry : FiberAndThread Cb) (pin : Option Nat) : Prop :=
  ∀ thread, pin = some thread → entry.thread = some thread ∨ (threadCount ≤ 1 ∧ thread = 0)

structure Sound (world : World D Cb) : Prop where
  bound : List.Forall₂ (Bound world.scheduler.threadCount) world.scheduler.fibers world.pins
  carried : ∀ thread pin, world.carried thread = some pin → pin = thread

section
variable {threadCount thread : Nat} {fibers : List (FiberAndThread Cb)} {pins : List (Option Nat)}

theorem scan_bound (states : Nat → FiberState) (inside : thread < threadCount)
    (bound : List.Forall₂ (Bound threadCount) fibers pins) :
    List.Forall₂ (Bound threadCount) (scan thread states fibers).2.1
        (scanPins thread states fibers pins).2 ∧
      ∀ pin, (scanPins thread states fibers pins).1 = some pin → pin = thread := by
  induction bound with
  | nil =>
      refine ⟨.nil, fun pin found => ?_⟩
      cases found
  | @cons entry pin fibers pins first rest ih =>
      unfold scan scanPins
      by_cases other : entry.thread.isSome ∧ entry.thread ≠ some thread
      · rw [if_pos other, if_pos (.inl other)]
        exact ⟨.cons first ih.1, ih.2⟩
      · rw [if_neg other]
        by_cases busy : entry.task.fiberId.map states = some .exec
        · rw [if_pos busy, if_pos (.inr busy)]
          exact ⟨.cons first ih.1, ih.2⟩
        · rw [if_neg busy, if_neg (not_or.mpr ⟨other, busy⟩)]
          refine ⟨rest, fun found same => ?_⟩
          rcases first found same with named | ⟨alone, zero⟩
          · by_contra apart
            apply other
            rw [named]
            exact ⟨rfl, fun eq => apart (Option.some.inj eq)⟩
          · omega

theorem push_bound (call : Call Cb) (bound : List.Forall₂ (Bound threadCount) fibers pins) :
    List.Forall₂ (Bound threadCount) (call.push fibers).2
      (pins ++ call.tasks.map fun _ => call.thread) := by
  rw [push_queue]
  apply List.rel_append bound
  rw [List.forall₂_map_left_iff, List.forall₂_map_right_iff, List.forall₂_same]
  intro task _ pinned same
  exact .inl same

end

section
variable {world : World D Cb} {next : Scheduler D Cb} {label : Transition Cb D.Event}

theorem sound_same (sound : Sound world) (threads : next.threadCount = world.scheduler.threadCount)
    (fibers : next.fibers = world.scheduler.fibers) :
    Sound (⟨next, world.pins, world.carried⟩ : World D Cb) := by
  refine ⟨?_, sound.carried⟩
  dsimp only
  rw [threads, fibers]
  exact sound.bound

theorem settle_sound (sound : Sound world) (thread fiber : Nat) (own : Bool)
    (phase : (world.scheduler.workers thread).phase = .settling fiber own)
    (inside : thread < world.scheduler.threadCount)
    (settled : Settled (.ok world) (.worker thread .settle)) :
    Sound (⟨world.scheduler.settle thread (world.scheduler.workers thread) fiber own,
      (follow world (.worker thread .settle)).1, (follow world (.worker thread .settle)).2⟩ : World D Cb) := by
  simp only [Settled, phase] at settled
  simp only [follow, phase, settle]
  by_cases ready : world.scheduler.states fiber = .ready
  · simp only [if_pos ready]
    refine ⟨?_, sound.carried⟩
    apply List.rel_append sound.bound
    refine .cons (fun pin pinned => ?_) .nil
    rcases settled ready with alone | free
    · have same := sound.carried thread pin pinned
      exact .inr ⟨alone, by omega⟩
    · rw [free] at pinned
      cases pinned
  · simp only [if_neg ready]
    split
    · exact sound_same sound rfl rfl
    · exact sound_same sound rfl rfl

theorem step_sound (sound : Sound world) (settled : Settled (.ok world) label)
    (moved : world.scheduler.step label = some (.ok next)) :
    Sound (⟨next, (follow world label).1, (follow world label).2⟩ : World D Cb) := by
  generalize reached : Except.ok next = result at moved
  cases step_rule moved with
  | tickled thread inside =>
      cases reached
      exact sound_same sound rfl rfl
  | turn thread act result inside turn =>
      generalize phase : (world.scheduler.workers thread).phase = stand at turn
      cases turn with
      | scan =>
          cases reached
          obtain ⟨bound, taken⟩ := scan_bound world.scheduler.states inside sound.bound
          refine ⟨bound, fun worker pin found => ?_⟩
          by_cases same : worker = thread
          · rw [same] at found ⊢
            dsimp only [follow] at found
            rw [Function.update_self] at found
            exact taken pin found
          · dsimp only [follow] at found
            rw [Function.update_of_ne same] at found
            exact sound.carried worker pin found
      | proceed found =>
          cases proceed_ok reached.symm with
          | ended fiber pin finished => exact sound_same sound rfl rfl
          | fiber fiber pin idle => exact sound_same sound rfl rfl
          | callback cb pin fiber fiberId given => exact sound_same sound rfl rfl
          | left => exact sound_same sound rfl rfl
          | idle => exact sound_same sound rfl rfl
      | schedule _ call busy known =>
          cases reached
          exact ⟨push_bound call sound.bound, sound.carried⟩
      | swapOut fiber own how =>
          cases reached
          exact sound_same sound rfl rfl
      | release fiber own =>
          cases reached
          exact sound_same sound rfl rfl
      | settle fiber own =>
          cases reached
          exact settle_sound sound thread fiber own phase inside settled
      | idle idle event result taken =>
          cases reached
          obtain ⟨env, idleStep⟩ := result
          cases idleStep with
          | stay idle => exact sound_same sound rfl rfl
          | swapOut => exact sound_same sound rfl rfl
          | finish => exact sound_same sound rfl rfl
      | resume =>
          cases reached
          exact sound_same sound rfl rfl
  | schedule call known =>
      cases reached
      exact ⟨push_bound call sound.bound, sound.carried⟩
  | tickle pending =>
      cases reached
      exact sound_same sound rfl rfl
  | newFiber =>
      cases reached
      exact sound_same sound rfl rfl

def Kept : Except Assertion (World D Cb) → Prop
  | .ok world => Sound world
  | .error _ => True

theorem kept_step (state : Except Assertion (World D Cb)) (label : Transition Cb D.Event)
    (next : Except Assertion (World D Cb)) (kept : Kept state) (settled : Settled state label)
    (moved : machine state label = some next) : Kept next := by
  cases state with
  | error reason => cases moved
  | ok world =>
      obtain ⟨outcome, stepped, rfl⟩ := Option.map_eq_some_iff.mp moved
      cases outcome with
      | error reason => trivial
      | ok scheduler => exact step_sound kept settled stepped

theorem kept_honoured (state : Except Assertion (World D Cb)) (kept : Kept state) : Honoured state := by
  cases state with
  | error reason => trivial
  | ok world => exact fun thread fiber own pin _ pinned => kept.carried thread pin pinned

/-- A task that is scheduled for one thread is run by that thread only, in every run in which no
such task yields to ready, and with one thread in every run. -/
theorem pins_honoured (threadCount : Nat) (labels : List (Transition Cb D.Event))
    (settled : Guarded machine Settled (.ok (.fresh threadCount) : Except Assertion (World D Cb)) labels) :
    Always machine (Honoured : Except Assertion (World D Cb) → Prop) (.ok (.fresh threadCount)) labels := by
  have start : Kept (.ok (.fresh threadCount) : Except Assertion (World D Cb)) := by
    refine ⟨.nil, fun thread pin pinned => ?_⟩
    cases pinned
  exact guarded_always kept_step kept_honoured labels _ start settled

end

def pinnedCallback : List (Transition Unit base.Event) :=
  [.schedule (.one (some (.callback ())) (some 1)), .tickle, .worker 1 .scan, .worker 1 .proceed,
    .worker 1 (.swapOut .terminate), .worker 1 .release, .worker 1 .settle]

instance decideSettled : ∀ (state : Except Assertion (World D Cb)) (label : Transition Cb D.Event),
    Decidable (Settled state label)
  | .ok world, .worker thread .settle =>
      match phase : (world.scheduler.workers thread).phase with
      | .settling fiber own => decidable_of_iff (world.scheduler.states fiber = .ready →
          world.scheduler.threadCount ≤ 1 ∨ world.carried thread = none) (by simp only [Settled, phase])
      | .scanning => .isTrue (by simp only [Settled, phase])
      | .scanned _ => .isTrue (by simp only [Settled, phase])
      | .running _ _ => .isTrue (by simp only [Settled, phase])
      | .returned _ _ => .isTrue (by simp only [Settled, phase])
      | .idling _ => .isTrue (by simp only [Settled, phase])
      | .idled => .isTrue (by simp only [Settled, phase])
      | .left => .isTrue (by simp only [Settled, phase])
  | .ok _, .worker _ (.schedule _) => .isTrue trivial
  | .ok _, .worker _ .tickle => .isTrue trivial
  | .ok _, .worker _ .scan => .isTrue trivial
  | .ok _, .worker _ .proceed => .isTrue trivial
  | .ok _, .worker _ (.swapOut _) => .isTrue trivial
  | .ok _, .worker _ .release => .isTrue trivial
  | .ok _, .worker _ (.idle _) => .isTrue trivial
  | .ok _, .worker _ .resume => .isTrue trivial
  | .ok _, .schedule _ => .isTrue trivial
  | .ok _, .tickle => .isTrue trivial
  | .ok _, .newFiber => .isTrue trivial
  | .error _, _ => .isTrue trivial

theorem pinnedCallback_honoured :
    (run machine (.ok (.fresh 2) : Except Assertion (World base Unit)) pinnedCallback).isSome = true ∧
      Always machine (Honoured : Except Assertion (World base Unit) → Prop) (.ok (.fresh 2))
        pinnedCallback := by
  refine ⟨rfl, pins_honoured 2 pinnedCallback ?_⟩
  decide +kernel

/-- A fiber for thread 0 that yields and is taken by thread 1. -/
def strayFiber : List (Transition Unit base.Event) :=
  [.newFiber, .schedule (.one (some (.fiber 1)) (some 0)), .tickle, .worker 0 .scan, .worker 0 .proceed,
    .worker 0 (.swapOut .yieldToReady), .worker 0 .release, .worker 0 .settle, .worker 1 .scan,
    .worker 1 .proceed]

theorem stray_fiber_resumed_elsewhere :
    ¬ ∀ (threadCount : Nat) (labels : List (Transition Unit base.Event)),
      Always machine (Honoured : Except Assertion (World base Unit) → Prop) (.ok (.fresh threadCount))
        labels := by
  intro always_honoured
  have honoured := always_honoured 2 strayFiber strayFiber [] _ (List.append_nil _) rfl
  have same := honoured 1 1 false 0 rfl rfl
  cases same

end OtaMqtt.Sched.Pinning
