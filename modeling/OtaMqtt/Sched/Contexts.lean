import OtaMqtt.Lib.Trace
import OtaMqtt.Sched.Scheduler

/-! The contexts of fibers (sherry/fiber.cc) on any number of threads.

`swapcontext` stores the registers in one fiber and loads them from another. The state of the
fiber is set before, so other threads can come between. What the code on a stack does is left open:
it goes on in stretches, which are numbered from the last `makecontext` on. The lifetime of the
fiber objects is not followed; a fiber that was not made yet looks as its constructor leaves it. -/

namespace OtaMqtt.Sched.Contexts

open OtaMqtt.Lib.Trace

/-- A stack, and the fiber that stands for it: that of a thread, or one that was allocated. -/
inductive Stack where
  | thread (thread : Nat)
  | made (fiber : Nat)
  deriving DecidableEq

/-- What the registers say: the stack, the `makecontext` that the code began with, and the number
of stretches behind it. `caller` tells `CallerMainFunc` from `MainFunc`, and `ended` that only the
assertion behind the last switch is left. -/
structure Point where
  stack : Stack
  generation : Nat
  place : Nat
  caller : Bool
  ended : Bool

structure Fiber where
  state : FiberState
  ctx : Point
  generation : Nat

/-- A thread is in the code of its stack, or about to call `swapcontext`. -/
inductive Phase where
  | running
  | switching (save load : Option Stack)

/-- `t_fiber` and `t_threadFiber` of fiber.cc, and `t_fiber` of scheduler.cc. -/
structure Thread where
  fiber : Option Stack
  threadFiber : Option Stack
  mainFiber : Option Stack
  cpu : Point
  phase : Phase

/-- `log` lists the stretches that were run. -/
structure World where
  fibers : Stack → Fiber
  threads : Nat → Thread
  log : List (Stack × Nat × Nat)

/-- What ends the process: an assertion, or the context of a null fiber. -/
inductive Failure where
  | swapIn
  | reset
  | neverReach
  | nullFiber
  deriving DecidableEq

/-- `useCaller` is the constructor of a `Scheduler` that makes its root fiber, `run` the beginning
of `Scheduler::run`, and `settle` what it does with a fiber that came back. -/
inductive Act where
  | getThis
  | useCaller (fiber : Nat)
  | run
  | work
  | yield (ready : Bool)
  | finish (threw : Bool)
  | swapIn (fiber : Stack)
  | call (fiber : Stack)
  | reset (fiber : Stack)
  | settle (fiber : Stack)
  | switch

namespace World

/-- `callers` tells which fibers are made with `use_caller`. -/
def fresh (callers : Nat → Bool) : World where
  fibers
    | .thread thread => ⟨.exec, ⟨.thread thread, 0, 0, false, false⟩, 0⟩
    | .made fiber => ⟨.init, ⟨.made fiber, 0, 0, callers fiber, false⟩, 0⟩
  threads thread := ⟨none, none, none, ⟨.thread thread, 0, 0, false, false⟩, .running⟩
  log := []

def cpu (world : World) (thread : Nat) : Point := (world.threads thread).cpu

def setThread (world : World) (thread : Nat) (changed : Thread) : World :=
  { world with threads := Function.update world.threads thread changed }

def setFiber (world : World) (fiber : Stack) (changed : Fiber) : World :=
  { world with fibers := Function.update world.fibers fiber changed }

def setState (world : World) (fiber : Stack) (state : FiberState) : World :=
  world.setFiber fiber { world.fibers fiber with state }

/-- What `GetThis` answers. -/
def current (world : World) (thread : Nat) : Stack :=
  (world.threads thread).fiber.getD (.thread thread)

/-- A thread without a fiber makes the one of its own stack. -/
def getThis (world : World) (thread : Nat) : World :=
  match (world.threads thread).fiber with
  | some _ => world
  | none =>
      (world.setFiber (.thread thread)
        { world.fibers (.thread thread) with state := .exec, ctx := world.cpu thread }).setThread thread
          { world.threads thread with fiber := some (.thread thread), threadFiber := some (.thread thread) }

def setMain (world : World) (thread : Nat) (fiber : Stack) : World :=
  world.setThread thread { world.threads thread with mainFiber := some fiber }

/-- The thread goes to `swapcontext`. -/
def depart (world : World) (thread : Nat) (save load : Option Stack) : World :=
  world.setThread thread { world.threads thread with phase := .switching save load }

def work (world : World) (thread : Nat) : World :=
  let cpu := world.cpu thread
  { world.setThread thread { world.threads thread with cpu := { cpu with place := cpu.place + 1 } } with
    log := world.log ++ [(cpu.stack, cpu.generation, cpu.place)] }

/-- `YieldToReady` and `YieldToHold`. -/
def yield (world : World) (thread : Nat) (ready : Bool) : World :=
  let current := world.current thread
  let world := world.getThis thread
  (world.setState current (if ready then .ready else .hold)).depart thread (some current) (world.threads thread).mainFiber

/-- The end of `MainFunc` and `CallerMainFunc`, which hold the fiber that they began as. -/
def finish (world : World) (thread : Nat) (threw : Bool) : World :=
  let old := world.threads thread
  (world.setState old.cpu.stack (if threw then .except else .term)).setThread thread
    { old with
      cpu := { old.cpu with ended := true }
      phase := .switching (some old.cpu.stack) (if old.cpu.caller then old.threadFiber else old.mainFiber) }

/-- `swapIn` and `call`, up to `swapcontext`. -/
def enter (world : World) (thread : Nat) (save : Option Stack) (fiber : Stack) : World :=
  (world.setState fiber .exec).depart thread save (some fiber)

/-- `getcontext` and `makecontext`, for `MainFunc` whatever the fiber began with. -/
def reset (world : World) (fiber : Stack) : World :=
  let generation := (world.fibers fiber).generation + 1
  world.setFiber fiber ⟨.init, ⟨fiber, generation, 0, false, false⟩, generation⟩

def settle (world : World) (fiber : Stack) : World :=
  let state := (world.fibers fiber).state
  if state = .ready ∨ state = .term ∨ state = .except then world else world.setState fiber .hold

def store (world : World) (thread : Nat) (save : Stack) : World :=
  world.setFiber save { world.fibers save with ctx := world.cpu thread }

def restore (world : World) (thread : Nat) (load : Stack) : World :=
  world.setThread thread
    { world.threads thread with fiber := some load, cpu := (world.fibers load).ctx, phase := .running }

/-- `SetThis` and `swapcontext`. -/
def switch (world : World) (thread : Nat) : Option Stack → Option Stack → Except Failure World
  | some save, some load => .ok ((world.store thread save).restore thread load)
  | _, _ => .error .nullFiber

def Stacked : Stack → Bool
  | .made _ => true
  | .thread _ => false

def Over (state : FiberState) : Prop := state = .term ∨ state = .init ∨ state = .except

instance (state : FiberState) : Decidable (Over state) := inferInstanceAs (Decidable (_ ∨ _ ∨ _))

/-- What the code of a thread does; only a switch is left to a thread that is about to switch. -/
def act (world : World) (thread : Nat) : Act → Option (Except Failure World)
  | .getThis => some (.ok (world.getThis thread))
  | .useCaller fiber => some (.ok (world.setMain thread (.made fiber)))
  | .run => some (.ok ((world.getThis thread).setMain thread (world.current thread)))
  | .work => some (if (world.cpu thread).ended then .error .neverReach else .ok (world.work thread))
  | .yield ready => some (.ok (world.yield thread ready))
  | .finish threw =>
      if Stacked (world.cpu thread).stack then some (.ok (world.finish thread threw)) else none
  | .swapIn fiber =>
      some (if (world.fibers fiber).state = .exec then .error .swapIn
        else .ok (world.enter thread (world.threads thread).mainFiber fiber))
  | .call fiber => some (.ok (world.enter thread (world.threads thread).threadFiber fiber))
  | .reset fiber =>
      some (if Stacked fiber ∧ Over (world.fibers fiber).state then .ok (world.reset fiber)
        else .error .reset)
  | .settle fiber => some (.ok (world.settle fiber))
  | .switch => none

def step (world : World) (label : Nat × Act) : Option (Except Failure World) :=
  match (world.threads label.1).phase, label.2 with
  | .running, act => world.act label.1 act
  | .switching save load, .switch => some (world.switch label.1 save load)
  | .switching _ _, _ => none

end World

def step : Except Failure World → Nat × Act → Option (Except Failure World)
  | .ok world, label => world.step label
  | .error _, _ => none

def places (log : List (Stack × Nat × Nat)) (stack : Stack) (generation : Nat) : List Nat :=
  (log.filter fun entry => entry.1 = stack ∧ entry.2.1 = generation).map fun entry => entry.2.2

/-- A thread in the code of a stack has that stack's fiber as its current one; no stack is under
two threads; each context is one of its own stack; the code on a stack is the one that its fiber was
last given; and of every piece of code the stretches have been run in order, each once. -/
structure Faithful (world : World) : Prop where
  running : ∀ thread, (world.threads thread).phase = .running →
    (world.cpu thread).ended = false ∧ world.current thread = (world.cpu thread).stack
  apart : ∀ thread other, (world.cpu thread).stack = (world.cpu other).stack → thread = other
  own : ∀ fiber, (world.fibers fiber).ctx.stack = fiber
  newest : ∀ thread, (world.cpu thread).generation = (world.fibers (world.cpu thread).stack).generation
  ordered : ∀ stack generation, ∃ count, places world.log stack generation = List.range count

def Good : Except Failure World → Prop
  | .ok world => Faithful world
  | .error _ => False

def World.Off (world : World) (fiber : Stack) : Prop := ∀ thread, (world.cpu thread).stack ≠ fiber

def World.loaded (world : World) (thread : Nat) (load : Stack) : Point :=
  if load = (world.cpu thread).stack then world.cpu thread else (world.fibers load).ctx

/-- A switch stores the registers in the fiber whose stack they are on, and loads a context whose
stack no other thread is on, not even on its way out, and that has not come to its end. A fiber that
runs is not resumed, and one is only reset when its code has ended and nobody is on its stack. -/
def World.Legal (world : World) (thread : Nat) : Phase → Act → Prop
  | .running, .swapIn fiber => (world.fibers fiber).state ≠ .exec
  | .running, .reset fiber =>
      (World.Stacked fiber ∧ World.Over (world.fibers fiber).state) ∧ world.Off fiber
  | .switching save load, .switch =>
      save = some (world.cpu thread).stack ∧ ∃ fiber, load = some fiber ∧
        (∀ other, other ≠ thread → (world.cpu other).stack ≠ fiber) ∧
        (world.loaded thread fiber).ended = false
  | _, _ => True

def Legal : Except Failure World → Nat × Act → Prop
  | .ok world, (thread, act) => world.Legal thread (world.threads thread).phase act
  | .error _, _ => True

structure Kept (world : World) : Prop where
  faithful : Faithful world
  live : ∀ thread, places world.log (world.cpu thread).stack (world.cpu thread).generation =
    List.range (world.cpu thread).place
  saved : ∀ fiber, world.Off fiber →
    (world.fibers fiber).ctx.generation = (world.fibers fiber).generation ∧
      places world.log fiber (world.fibers fiber).generation = List.range (world.fibers fiber).ctx.place
  future : ∀ fiber generation, (world.fibers fiber).generation < generation →
    places world.log fiber generation = []

theorem kept_fresh (callers : Nat → Bool) : Kept (.fresh callers) := by
  refine ⟨⟨fun thread _ => ⟨rfl, rfl⟩, fun thread other same => ?_, fun fiber => ?_, fun thread => rfl,
    fun stack generation => ⟨0, rfl⟩⟩, fun thread => rfl, fun fiber off => ?_, fun _ _ _ => rfl⟩
  · exact Stack.thread.inj same
  · cases fiber <;> rfl
  · cases fiber with
    | thread thread => exact absurd rfl (off thread)
    | made fiber => exact ⟨rfl, rfl⟩

/-- The same code has been run and is where it was; a context may have been stored by a thread that
is still on its stack. -/
structure Alike (world next : World) : Prop where
  log : next.log = world.log
  stack : ∀ thread, (next.cpu thread).stack = (world.cpu thread).stack
  code : ∀ thread, (next.cpu thread).generation = (world.cpu thread).generation ∧
    (next.cpu thread).place = (world.cpu thread).place
  generation : ∀ fiber, (next.fibers fiber).generation = (world.fibers fiber).generation
  ctx : ∀ fiber, (next.fibers fiber).ctx = (world.fibers fiber).ctx ∨
    ∃ thread, (next.fibers fiber).ctx = world.cpu thread ∧ (world.cpu thread).stack = fiber

section
variable {world next last : World} {thread : Nat}

theorem alike_refl (world : World) : Alike world world :=
  ⟨rfl, fun _ => rfl, fun _ => ⟨rfl, rfl⟩, fun _ => rfl, fun _ => .inl rfl⟩

theorem kept_alike (kept : Kept world) (alike : Alike world next)
    (running : ∀ thread, (next.threads thread).phase = .running →
      (next.cpu thread).ended = false ∧ next.current thread = (next.cpu thread).stack) :
    Kept next := by
  refine ⟨⟨running, fun thread other same => ?_, fun fiber => ?_, fun thread => ?_, ?_⟩, fun thread => ?_,
    fun fiber off => ?_, fun fiber generation above => ?_⟩
  · rw [alike.stack, alike.stack] at same
    exact kept.faithful.apart thread other same
  · rcases alike.ctx fiber with same | ⟨thread, stored, own⟩
    · rw [same]
      exact kept.faithful.own fiber
    · rw [stored]
      exact own
  · rw [(alike.code thread).1, alike.stack, alike.generation]
    exact kept.faithful.newest thread
  · rw [alike.log]
    exact kept.faithful.ordered
  · rw [alike.log, alike.stack, (alike.code thread).1, (alike.code thread).2]
    exact kept.live thread
  · have off' : world.Off fiber := fun thread same => off thread ((alike.stack thread).trans same)
    rcases alike.ctx fiber with same | ⟨thread, -, own⟩
    · rw [alike.generation, alike.log, same]
      exact kept.saved fiber off'
    · exact absurd own (off' thread)
  · rw [alike.generation] at above
    rw [alike.log]
    exact kept.future fiber generation above

theorem setThread_self (changed : Thread) : (world.setThread thread changed).threads thread = changed :=
  Function.update_self ..

theorem setThread_other (changed : Thread) {other : Nat} (apart : other ≠ thread) :
    (world.setThread thread changed).threads other = world.threads other :=
  Function.update_of_ne apart ..

theorem setFiber_self (fiber : Stack) (changed : Fiber) :
    (world.setFiber fiber changed).fibers fiber = changed :=
  Function.update_self ..

theorem setFiber_other {fiber other : Stack} (changed : Fiber) (apart : other ≠ fiber) :
    (world.setFiber fiber changed).fibers other = world.fibers other :=
  Function.update_of_ne apart ..

theorem alike_setThread {changed : Thread} (stack : changed.cpu.stack = (world.cpu thread).stack)
    (code : changed.cpu.generation = (world.cpu thread).generation ∧
      changed.cpu.place = (world.cpu thread).place) : Alike world (world.setThread thread changed) := by
  refine ⟨rfl, fun other => ?_, fun other => ?_, fun _ => rfl, fun _ => .inl rfl⟩
  all_goals
    rw [World.cpu]
    by_cases same : other = thread
  · rw [same, setThread_self]
    exact stack
  · rw [setThread_other _ same]
    rfl
  · rw [same, setThread_self]
    exact code
  · rw [setThread_other _ same]
    exact ⟨rfl, rfl⟩

theorem alike_setFiber {fiber : Stack} {changed : Fiber}
    (generation : changed.generation = (world.fibers fiber).generation)
    (ctx : changed.ctx = (world.fibers fiber).ctx ∨
      ∃ thread, changed.ctx = world.cpu thread ∧ (world.cpu thread).stack = fiber) :
    Alike world (world.setFiber fiber changed) := by
  refine ⟨rfl, fun _ => rfl, fun _ => ⟨rfl, rfl⟩, fun other => ?_, fun other => ?_⟩
  all_goals by_cases same : other = fiber
  · rw [same, setFiber_self]
    exact generation
  · rw [setFiber_other _ same]
  · rw [same, setFiber_self]
    exact ctx
  · rw [setFiber_other _ same]
    exact .inl rfl

theorem Alike.trans (first : Alike world next) (second : Alike next last)
    (same : ∀ thread, next.cpu thread = world.cpu thread) : Alike world last := by
  refine ⟨second.log.trans first.log, fun thread => (second.stack thread).trans (first.stack thread),
    fun thread => ?_, fun fiber => (second.generation fiber).trans (first.generation fiber),
    fun fiber => ?_⟩
  · obtain ⟨generation, place⟩ := second.code thread
    exact ⟨generation.trans (first.code thread).1, place.trans (first.code thread).2⟩
  · rcases second.ctx fiber with kept | ⟨thread, stored, own⟩
    · rw [kept]
      exact first.ctx fiber
    · rw [same] at stored own
      exact .inr ⟨thread, stored, own⟩

/-- What `Faithful` asks of one thread. -/
def World.Placed (world : World) (thread : Nat) : Prop :=
  (world.threads thread).phase = .running →
    (world.cpu thread).ended = false ∧ world.current thread = (world.cpu thread).stack

/-- A step of one thread; the others are not touched. -/
theorem kept_step (kept : Kept world) (alike : Alike world next)
    (others : ∀ other, other ≠ thread → next.threads other = world.threads other)
    (placed : next.Placed thread) : Kept next := by
  apply kept_alike kept alike
  intro other
  by_cases same : other = thread
  · rw [same]
    exact placed
  · unfold World.cpu World.current
    rw [others other same]
    exact kept.faithful.running other

theorem getThis_alike (kept : Kept world) (running : (world.threads thread).phase = .running) :
    Alike world (world.getThis thread) ∧ ∀ other, (world.getThis thread).cpu other = world.cpu other := by
  have own := (kept.faithful.running thread running).2
  unfold World.getThis
  unfold World.current at own
  split
  · exact ⟨alike_refl world, fun _ => rfl⟩
  · rename_i bare
    rw [bare, Option.getD_none] at own
    have first : Alike world (world.setFiber (.thread thread)
        { world.fibers (.thread thread) with state := .exec, ctx := world.cpu thread }) :=
      alike_setFiber rfl (.inr ⟨thread, rfl, own.symm⟩)
    refine ⟨first.trans (alike_setThread rfl ⟨rfl, rfl⟩) fun _ => rfl, fun other => ?_⟩
    rw [World.cpu]
    by_cases same : other = thread
    · rw [same, setThread_self]
      rfl
    · rw [setThread_other _ same]
      rfl

theorem getThis_other {other : Nat} (apart : other ≠ thread) :
    (world.getThis thread).threads other = world.threads other := by
  unfold World.getThis
  split
  · rfl
  · exact setThread_other _ apart

theorem getThis_self : (world.getThis thread).current thread = world.current thread ∧
    ((world.getThis thread).threads thread).phase = (world.threads thread).phase := by
  unfold World.getThis
  split
  · exact ⟨rfl, rfl⟩
  · rename_i bare
    unfold World.current
    rw [setThread_self, bare]
    exact ⟨rfl, rfl⟩

theorem getThis_kept (kept : Kept world) (running : (world.threads thread).phase = .running) :
    Kept (world.getThis thread) := by
  obtain ⟨alike, same⟩ := getThis_alike kept running
  apply kept_step kept alike (fun other apart => getThis_other apart)
  intro still
  rw [same, getThis_self.1]
  exact kept.faithful.running thread running

theorem setMain_kept (kept : Kept world) (fiber : Stack) : Kept (world.setMain thread fiber) := by
  have alike : Alike world (world.setMain thread fiber) := alike_setThread rfl ⟨rfl, rfl⟩
  apply kept_step kept alike (fun other apart => setThread_other _ apart)
  intro running
  unfold World.setMain at running
  rw [setThread_self] at running
  have placed := kept.faithful.running thread running
  unfold World.current World.cpu World.setMain
  rw [setThread_self]
  exact placed

theorem setState_kept (kept : Kept world) (fiber : Stack) (state : FiberState) :
    Kept (world.setState fiber state) :=
  kept_alike kept (alike_setFiber rfl (.inl rfl)) kept.faithful.running

theorem switching_kept (kept : Kept world) {changed : Thread} {save load : Option Stack}
    (switching : changed.phase = .switching save load)
    (stack : changed.cpu.stack = (world.cpu thread).stack)
    (code : changed.cpu.generation = (world.cpu thread).generation ∧
      changed.cpu.place = (world.cpu thread).place) : Kept (world.setThread thread changed) := by
  apply kept_step kept (alike_setThread stack code) (fun other apart => setThread_other _ apart)
  intro running
  rw [setThread_self, switching] at running
  cases running

end

section
variable {world : World} {thread : Nat}

theorem places_append (log : List (Stack × Nat × Nat)) (entry : Stack × Nat × Nat) (stack : Stack)
    (generation : Nat) :
    places (log ++ [entry]) stack generation =
      if entry.1 = stack ∧ entry.2.1 = generation then places log stack generation ++ [entry.2.2]
      else places log stack generation := by
  unfold places
  rw [List.filter_append, List.map_append]
  by_cases mine : entry.1 = stack ∧ entry.2.1 = generation
  · rw [if_pos mine, List.filter_cons_of_pos (by simpa using mine)]
    rfl
  · rw [if_neg mine, List.filter_cons_of_neg (by simpa using mine)]
    exact List.append_nil _

theorem work_cpu : (world.work thread).cpu thread =
    { world.cpu thread with place := (world.cpu thread).place + 1 } := by
  unfold World.work World.cpu
  dsimp only
  rw [setThread_self]

theorem work_other {other : Nat} (apart : other ≠ thread) :
    (world.work thread).cpu other = world.cpu other := by
  unfold World.work World.cpu
  dsimp only
  rw [setThread_other _ apart]

theorem work_stack (other : Nat) : ((world.work thread).cpu other).stack = (world.cpu other).stack ∧
    ((world.work thread).cpu other).generation = (world.cpu other).generation := by
  by_cases same : other = thread
  · rw [same, work_cpu]
    exact ⟨rfl, rfl⟩
  · rw [work_other same]
    exact ⟨rfl, rfl⟩

theorem work_places (stack : Stack) (generation : Nat) :
    places (world.work thread).log stack generation =
      if (world.cpu thread).stack = stack ∧ (world.cpu thread).generation = generation then
        places world.log stack generation ++ [(world.cpu thread).place]
      else places world.log stack generation :=
  places_append world.log _ stack generation

theorem work_kept (kept : Kept world) (running : (world.threads thread).phase = .running) :
    Kept (world.work thread) := by
  have live := kept.live thread
  refine ⟨⟨fun other still => ?_, fun other next same => ?_, kept.faithful.own, fun other => ?_,
    fun stack generation => ?_⟩, fun other => ?_, fun fiber off => ?_, fun fiber generation above => ?_⟩
  · by_cases same : other = thread
    · subst same
      obtain ⟨going, own⟩ := kept.faithful.running other running
      rw [work_cpu]
      refine ⟨going, ?_⟩
      unfold World.current World.work
      dsimp only
      rw [setThread_self]
      exact own
    · unfold World.current
      rw [work_other same]
      unfold World.work at still ⊢
      dsimp only at still ⊢
      rw [setThread_other _ same] at still ⊢
      exact kept.faithful.running other still
  · rw [(work_stack other).1, (work_stack next).1] at same
    exact kept.faithful.apart other next same
  · rw [(work_stack other).1, (work_stack other).2]
    exact kept.faithful.newest other
  · rw [work_places]
    split
    · rename_i mine
      obtain ⟨rfl, rfl⟩ := mine
      exact ⟨_, by rw [live, ← List.range_succ]⟩
    · exact kept.faithful.ordered stack generation
  · rw [(work_stack other).1, (work_stack other).2, work_places]
    by_cases same : other = thread
    · subst same
      rw [if_pos ⟨rfl, rfl⟩, live, work_cpu, List.range_succ]
    · rw [if_neg fun mine => same (kept.faithful.apart thread other mine.1).symm, work_other same]
      exact kept.live other
  · have off' : world.Off fiber := fun other same => off other ((work_stack other).1.trans same)
    rw [work_places, if_neg fun mine => off' thread mine.1]
    exact kept.saved fiber off'
  · rw [work_places, if_neg]
    · exact kept.future fiber generation above
    · rintro ⟨rfl, rfl⟩
      exact absurd (kept.faithful.newest thread) above.ne'

theorem reset_kept (kept : Kept world) {fiber : Stack} (off : world.Off fiber) :
    Kept (world.reset fiber) := by
  have self : ∀ changed, (world.setFiber fiber changed).fibers fiber = changed :=
    setFiber_self fiber
  refine ⟨⟨kept.faithful.running, kept.faithful.apart, fun other => ?_, fun thread => ?_,
    kept.faithful.ordered⟩, kept.live, fun other away => ?_, fun other generation above => ?_⟩
  · unfold World.reset
    by_cases same : other = fiber
    · rw [same, self]
    · rw [setFiber_other _ same]
      exact kept.faithful.own other
  · unfold World.reset
    change _ = ((world.setFiber fiber _).fibers (world.cpu thread).stack).generation
    rw [setFiber_other _ (off thread)]
    exact kept.faithful.newest thread
  · unfold World.reset
    by_cases same : other = fiber
    · rw [same, self]
      exact ⟨rfl, kept.future fiber _ (Nat.lt_succ_self _)⟩
    · rw [setFiber_other _ same]
      exact kept.saved other away
  · unfold World.reset at above
    by_cases same : other = fiber
    · rw [same, self] at above
      rw [same]
      exact kept.future fiber generation (Nat.lt_of_succ_lt above)
    · rw [setFiber_other _ same] at above
      exact kept.future other generation above

end

section
variable {world : World} {thread : Nat} {load : Stack}

theorem restore_cpu : (world.restore thread load).cpu thread = (world.fibers load).ctx := by
  unfold World.restore World.cpu
  rw [setThread_self]

theorem restore_other {other : Nat} (apart : other ≠ thread) :
    (world.restore thread load).threads other = world.threads other :=
  setThread_other _ apart

/-- The thread leaves its stack, where the registers are stored, for one that nobody else is on. -/
theorem restore_kept (kept : Kept world)
    (stored : (world.fibers (world.cpu thread).stack).ctx = world.cpu thread)
    (alone : ∀ other, other ≠ thread → (world.cpu other).stack ≠ load)
    (going : (world.fibers load).ctx.ended = false) : Kept (world.restore thread load) := by
  have own := kept.faithful.own load
  have settled : (world.fibers load).ctx.generation = (world.fibers load).generation ∧
      places world.log load (world.fibers load).generation =
        List.range (world.fibers load).ctx.place := by
    by_cases here : (world.cpu thread).stack = load
    · subst here
      rw [stored, ← kept.faithful.newest thread]
      exact ⟨rfl, kept.live thread⟩
    · apply kept.saved load
      intro other
      by_cases same : other = thread
      · rw [same]
        exact here
      · exact alone other same
  have cpu : ∀ other, other ≠ thread → (world.restore thread load).cpu other = world.cpu other := by
    intro other apart
    rw [World.cpu, restore_other apart]
    rfl
  refine ⟨⟨fun other running => ?_, fun other next same => ?_, kept.faithful.own, fun other => ?_,
    kept.faithful.ordered⟩, fun other => ?_, fun fiber off => ?_, kept.future⟩
  · by_cases same : other = thread
    · rw [same, restore_cpu]
      refine ⟨going, ?_⟩
      unfold World.current World.restore
      rw [setThread_self]
      exact own.symm
    · unfold World.current World.cpu
      rw [restore_other same] at running ⊢
      exact kept.faithful.running other running
  · by_cases first : other = thread
    · by_cases second : next = thread
      · exact first.trans second.symm
      · rw [first, restore_cpu, cpu next second, own] at same
        exact absurd same.symm (alone next second)
    · by_cases second : next = thread
      · rw [second, restore_cpu, cpu other first, own] at same
        exact absurd same (alone other first)
      · rw [cpu other first, cpu next second] at same
        exact kept.faithful.apart other next same
  · by_cases same : other = thread
    · rw [same, restore_cpu, own]
      exact settled.1
    · rw [cpu other same]
      exact kept.faithful.newest other
  · by_cases same : other = thread
    · rw [same, restore_cpu, own, settled.1]
      exact settled.2
    · rw [cpu other same]
      exact kept.live other
  · by_cases left : (world.cpu thread).stack = fiber
    · subst left
      change (world.fibers _).ctx.generation = (world.fibers _).generation ∧
        places world.log _ (world.fibers _).generation = List.range (world.fibers _).ctx.place
      rw [stored, ← kept.faithful.newest thread]
      exact ⟨rfl, kept.live thread⟩
    · apply kept.saved fiber
      intro other
      by_cases same : other = thread
      · rw [same]
        exact left
      · rw [← cpu other same]
        exact off other

theorem store_kept (kept : Kept world) : Kept (world.store thread (world.cpu thread).stack) :=
  kept_alike kept (alike_setFiber rfl (.inr ⟨thread, rfl, rfl⟩)) kept.faithful.running

theorem store_loaded : ((world.store thread (world.cpu thread).stack).fibers load).ctx =
    world.loaded thread load := by
  unfold World.store World.loaded
  split
  · rename_i same
    rw [same, setFiber_self]
  · rename_i apart
    rw [setFiber_other _ apart]

theorem switch_kept (kept : Kept world) {save target : Option Stack}
    (legal : save = some (world.cpu thread).stack ∧ ∃ fiber, target = some fiber ∧
      (∀ other, other ≠ thread → (world.cpu other).stack ≠ fiber) ∧
      (world.loaded thread fiber).ended = false) :
    ∃ next, world.switch thread save target = .ok next ∧ Kept next := by
  obtain ⟨rfl, fiber, rfl, alone, going⟩ := legal
  refine ⟨_, rfl, restore_kept (store_kept kept) ?_ alone ?_⟩
  · exact congrArg Fiber.ctx (setFiber_self ..)
  · rw [store_loaded]
    exact going

end

theorem act_kept {world : World} {thread : Nat} (kept : Kept world)
    (running : (world.threads thread).phase = .running) (act : Act)
    (legal : world.Legal thread .running act) {next : Except Failure World}
    (taken : world.act thread act = some next) : ∃ last, next = .ok last ∧ Kept last := by
  cases act with
  | getThis =>
      cases taken
      exact ⟨_, rfl, getThis_kept kept running⟩
  | useCaller fiber =>
      cases taken
      exact ⟨_, rfl, setMain_kept kept _⟩
  | run =>
      cases taken
      exact ⟨_, rfl, setMain_kept (getThis_kept kept running) _⟩
  | work =>
      rw [World.act, if_neg (by simp [(kept.faithful.running thread running).1])] at taken
      cases taken
      exact ⟨_, rfl, work_kept kept running⟩
  | yield ready =>
      cases taken
      exact ⟨_, rfl, switching_kept (setState_kept (getThis_kept kept running) _ _) rfl rfl ⟨rfl, rfl⟩⟩
  | finish threw =>
      obtain ⟨-, ⟨⟩⟩ := Option.ite_none_right_eq_some.mp taken
      exact ⟨_, rfl, switching_kept (setState_kept kept _ _) rfl rfl ⟨rfl, rfl⟩⟩
  | swapIn fiber =>
      rw [World.act, if_neg legal] at taken
      cases taken
      exact ⟨_, rfl, switching_kept (setState_kept kept _ _) rfl rfl ⟨rfl, rfl⟩⟩
  | call fiber =>
      cases taken
      exact ⟨_, rfl, switching_kept (setState_kept kept _ _) rfl rfl ⟨rfl, rfl⟩⟩
  | reset fiber =>
      rw [World.act, if_pos legal.1] at taken
      cases taken
      exact ⟨_, rfl, reset_kept kept legal.2⟩
  | settle fiber =>
      cases taken
      refine ⟨_, rfl, ?_⟩
      unfold World.settle
      dsimp only
      split
      · exact kept
      · exact setState_kept kept _ _
  | switch => cases taken

def Holds : Except Failure World → Prop
  | .ok world => Kept world
  | .error _ => False

theorem step_holds (state : Except Failure World) (label : Nat × Act) (next : Except Failure World)
    (holds : Holds state) (legal : Legal state label) (taken : step state label = some next) :
    Holds next := by
  obtain ⟨thread, act⟩ := label
  cases state with
  | error failure => cases taken
  | ok world =>
      change world.step (thread, act) = some next at taken
      unfold World.step at taken
      cases phase : (world.threads thread).phase with
      | running =>
          simp only [phase] at taken
          rw [Legal, phase] at legal
          obtain ⟨last, rfl, kept⟩ := act_kept holds phase act legal taken
          exact kept
      | switching save load =>
          rw [Legal, phase] at legal
          cases act <;> simp only [phase] at taken <;> cases taken
          obtain ⟨last, switched, kept⟩ := switch_kept holds legal
          rw [switched]
          exact kept

theorem reset_under {world : World} {fiber : Stack} (kept : Kept world) (on : ¬ world.Off fiber) :
    ¬ Faithful (world.reset fiber) := by
  intro faithful
  simp only [World.Off, not_forall, not_not] at on
  obtain ⟨thread, rfl⟩ := on
  have newest := faithful.newest thread
  change (world.cpu thread).generation =
    ((world.reset (world.cpu thread).stack).fibers (world.cpu thread).stack).generation at newest
  unfold World.reset at newest
  rw [setFiber_self] at newest
  dsimp only at newest
  rw [kept.faithful.newest thread] at newest
  exact absurd newest (Nat.lt_succ_self _).ne

theorem switch_astray {world : World} {thread : Nat} (save load : Option Stack)
    (illegal : ¬ (save = some (world.cpu thread).stack ∧ ∃ fiber, load = some fiber ∧
      (∀ other, other ≠ thread → (world.cpu other).stack ≠ fiber) ∧
      (world.loaded thread fiber).ended = false)) : ¬ Good (world.switch thread save load) := by
  intro good
  cases save with
  | none => exact good
  | some save =>
  cases load with
  | none => exact good
  | some load =>
      have faithful : Faithful ((world.store thread save).restore thread load) := good
      have saved : save = (world.cpu thread).stack := by
        have own := faithful.own save
        change ((world.store thread save).fibers save).ctx.stack = save at own
        unfold World.store at own
        rw [setFiber_self] at own
        exact own.symm
      subst saved
      refine illegal ⟨rfl, load, rfl, fun other apart same => ?_, ?_⟩
      · have shared := faithful.apart other thread
        rw [restore_cpu, World.cpu, restore_other apart] at shared
        have own := faithful.own load
        exact apart (shared (same.trans own.symm))
      · rw [← store_loaded]
        have running := faithful.running thread (by
          unfold World.restore
          rw [setThread_self])
        rw [restore_cpu] at running
        exact running.1

theorem illegal_ends (state : Except Failure World) (label : Nat × Act) (holds : Holds state)
    (illegal : ¬ Legal state label) : ∃ next, step state label = some next ∧ ¬ Good next := by
  obtain ⟨thread, act⟩ := label
  cases state with
  | error failure => exact absurd trivial illegal
  | ok world =>
      change ∃ next, world.step (thread, act) = some next ∧ ¬ Good next
      unfold World.step
      rw [Legal] at illegal
      cases phase : (world.threads thread).phase with
      | running =>
          rw [phase] at illegal
          cases act with
          | swapIn fiber =>
              refine ⟨_, rfl, ?_⟩
              rw [if_pos (not_not.mp illegal)]
              exact id
          | reset fiber =>
              refine ⟨_, rfl, ?_⟩
              split
              · rename_i done
                exact reset_under holds fun off => illegal ⟨done, off⟩
              · exact id
          | _ => exact absurd trivial illegal
      | switching save load =>
          cases act with
          | switch =>
              rw [phase] at illegal
              exact ⟨_, rfl, switch_astray save load illegal⟩
          | _ =>
              rw [phase] at illegal
              exact absurd trivial illegal

/-- Fibers are where they left off, on one thread at a time, and run each stretch once, exactly in
the runs in which every switch and every reset is legal. -/
theorem faithful_iff_legal (callers : Nat → Bool) (labels : List (Nat × Act)) :
    Always step Good (.ok (.fresh callers)) labels ↔ Guarded step Legal (.ok (.fresh callers)) labels := by
  refine always_iff_guarded step_holds (fun state holds => ?_) illegal_ends labels _ (kept_fresh callers)
  cases state with
  | ok world => exact holds.faithful
  | error failure => exact holds

end OtaMqtt.Sched.Contexts
