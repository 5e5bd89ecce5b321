import OtaMqtt.Http.Server
import OtaMqtt.Sched.Fiber

/-! The event table of `IOManager` (sherry/iomanager.h, iomanager.cc).

Every operation holds the context's mutex from its first look at the context to its last
change, so an operation is one step, and so is each result of `epoll_wait` in `idle`. Whether
`epoll_ctl` succeeds is an input, and so is every epoll result. The callers of `addEvent`
run on a worker thread, whose scheduler is not null. -/

namespace OtaMqtt.Sched

open OtaMqtt.Lib.Execution
open OtaMqtt.Http.Server (Event EpollEvents)

structure EventContext (Sched Cb Fib : Type) where
  scheduler : Option Sched
  fiber : Option Fib
  cb : Option Cb

/-- `slot .read` and `slot .write` are the members `read` and `write`. -/
structure FdContext (Sched Cb Fib : Type) where
  slot : Event → EventContext Sched Cb Fib
  events : Event → Bool

/-- `scheduled` lists the tasks handed to a scheduler, the newest first. -/
structure IOManager (Sched Cb Fib : Type) where
  size : Nat
  contexts : Nat → FdContext Sched Cb Fib
  pendingEventCount : Nat
  scheduled : List (Sched × Task Cb Fib)

variable {Sched Cb Fib : Type}

namespace EventContext

def empty : EventContext Sched Cb Fib := ⟨none, none, none⟩

/-- The assertion of `addEvent`. -/
def vacant (ctx : EventContext Sched Cb Fib) : Bool :=
  ctx.scheduler.isNone && ctx.fiber.isNone && ctx.cb.isNone

/-- What `schedule(&ctx.cb)` or `schedule(&ctx.fiber)` takes out of the context. -/
def taken (ctx : EventContext Sched Cb Fib) : Option (Task Cb Fib) :=
  match ctx.cb with
  | some cb => some (.callback cb)
  | none => ctx.fiber.map .fiber

def left (ctx : EventContext Sched Cb Fib) : EventContext Sched Cb Fib :=
  match ctx.cb with
  | some _ => { ctx with scheduler := none, cb := none }
  | none => { ctx with scheduler := none, fiber := none }

end EventContext

namespace FdContext

def fresh : FdContext Sched Cb Fib := ⟨fun _ => .empty, fun _ => false⟩

def triggerEvent (ctx : FdContext Sched Cb Fib) (event : Event) :
    Run (List (Sched × Task Cb Fib) × FdContext Sched Cb Fib) :=
  if ctx.events event then
    match (ctx.slot event).scheduler with
    | none => .error .nullPointer
    | some scheduler => .ok ((ctx.slot event).taken.toList.map (scheduler, ·),
        { slot := Function.update ctx.slot event (ctx.slot event).left
          events := Function.update ctx.events event false })
  else .error .assertion

/-- What a successful `addEvent` stores. -/
def register (ctx : FdContext Sched Cb Fib) (event : Event) (scheduler : Sched) (cb : Option Cb)
    (caller : Fib) : FdContext Sched Cb Fib where
  slot := Function.update ctx.slot event (match cb with
    | some cb => { ctx.slot event with scheduler := some scheduler, cb := some cb }
    | none => { ctx.slot event with scheduler := some scheduler, fiber := some caller })
  events := Function.update ctx.events event true

/-- What a successful `delEvent` leaves, `resetContext` included. -/
def unregister (ctx : FdContext Sched Cb Fib) (event : Event) : FdContext Sched Cb Fib where
  slot := Function.update ctx.slot event .empty
  events := Function.update ctx.events event false

end FdContext

namespace IOManager

def fresh : IOManager Sched Cb Fib := ⟨32, fun _ => .fresh, 0, []⟩

/-- The slots between the old and the new size get new contexts. -/
def contextResize (manager : IOManager Sched Cb Fib) (size : Nat) : IOManager Sched Cb Fib :=
  { manager with size := size }

/-- One context, the counter and the tasks after an operation on `fd`. -/
def edit (manager : IOManager Sched Cb Fib) (fd : Nat) (ctx : FdContext Sched Cb Fib) (count : Nat)
    (tasks : List (Sched × Task Cb Fib)) : IOManager Sched Cb Fib :=
  { manager with
    contexts := Function.update manager.contexts fd ctx
    pendingEventCount := count
    scheduled := tasks ++ manager.scheduled }

/-- `caller` is the running fiber and `state` its state. -/
def addEvent (manager : IOManager Sched Cb Fib) (fd : Nat) (event : Event) (scheduler : Sched)
    (cb : Option Cb) (caller : Fib) (state : FiberState) (ctl : Bool) :
    Run (Int × IOManager Sched Cb Fib) :=
  let manager := if fd < manager.size then manager else manager.contextResize (fd * 3 / 2)
  let ctx := manager.contexts fd
  if ctx.events event then .error .assertion
  else if !ctl then .ok (-1, manager)
  else if !(ctx.slot event).vacant then .error .assertion
  else if cb.isNone && state != .exec then .error .assertion
  else .ok (0, manager.edit fd (ctx.register event scheduler cb caller)
    ((manager.pendingEventCount + 1) % 2 ^ 64) [])

def delEvent (manager : IOManager Sched Cb Fib) (fd : Nat) (event : Event) (ctl : Bool) :
    Bool × IOManager Sched Cb Fib :=
  let ctx := manager.contexts fd
  if manager.size ≤ fd then (false, manager)
  else if !ctx.events event then (false, manager)
  else if ctl then
    (true, manager.edit fd (ctx.unregister event) (subSize manager.pendingEventCount 1) [])
  else (false, manager)

/-- `triggerEvent` followed by `--m_pendingEventCount`. -/
def fire (manager : IOManager Sched Cb Fib) (fd : Nat) (event : Event) :
    Run (IOManager Sched Cb Fib) := do
  let (tasks, ctx) ← (manager.contexts fd).triggerEvent event
  .ok (manager.edit fd ctx (subSize manager.pendingEventCount 1) tasks)

def fireIf (manager : IOManager Sched Cb Fib) (fd : Nat) (event : Event) (wanted : Bool) :
    Run (IOManager Sched Cb Fib) :=
  if wanted then manager.fire fd event else .ok manager

def cancelEvent (manager : IOManager Sched Cb Fib) (fd : Nat) (event : Event) (ctl : Bool) :
    Run (Bool × IOManager Sched Cb Fib) :=
  if manager.size ≤ fd then .ok (false, manager)
  else if !(manager.contexts fd).events event then .ok (false, manager)
  else if ctl then do
    let manager ← manager.fire fd event
    .ok (true, manager)
  else .ok (false, manager)

/-- Both blocks at the end of `cancelAll`, and its assertion. -/
def cancelBoth (manager : IOManager Sched Cb Fib) (fd : Nat) : Run (IOManager Sched Cb Fib) := do
  let manager ← manager.fireIf fd .read ((manager.contexts fd).events .read)
  let manager ← manager.fireIf fd .write ((manager.contexts fd).events .write)
  if (manager.contexts fd).events .read || (manager.contexts fd).events .write then
    .error .assertion
  else .ok manager

def cancelAll (manager : IOManager Sched Cb Fib) (fd : Nat) (ctl : Bool) :
    Run (Bool × IOManager Sched Cb Fib) :=
  let ctx := manager.contexts fd
  if manager.size ≤ fd then .ok (false, manager)
  else if !ctx.events .read && !ctx.events .write then .ok (false, manager)
  else if ctl then do
    let manager ← manager.cancelBoth fd
    .ok (true, manager)
  else .ok (false, manager)

/-- The reported events, widened by `EPOLLERR` and `EPOLLHUP`, pass the two checks of `idle`. -/
def passes (manager : IOManager Sched Cb Fib) (fd : Nat) (revents : EpollEvents) (ctl : Bool) : Bool :=
  let ctx := manager.contexts fd
  (ctx.events .read && revents.real .read || ctx.events .write && revents.real .write) && ctl

/-- The body of the loop of `idle` over the results of `epoll_wait`. -/
def dispatch (manager : IOManager Sched Cb Fib) (fd : Nat) (revents : EpollEvents) (ctl : Bool) :
    Run (IOManager Sched Cb Fib) :=
  if manager.passes fd revents ctl then do
    let manager ← manager.fireIf fd .read (revents.real .read)
    manager.fireIf fd .write (revents.real .write)
  else .ok manager

end IOManager

inductive Label (Sched Cb Fib : Type) where
  | addEvent (fd : Nat) (event : Event) (scheduler : Sched) (cb : Option Cb) (caller : Fib)
      (state : FiberState) (ctl : Bool)
  | delEvent (fd : Nat) (event : Event) (ctl : Bool)
  | cancelEvent (fd : Nat) (event : Event) (ctl : Bool)
  | cancelAll (fd : Nat) (ctl : Bool)
  | dispatch (fd : Nat) (revents : EpollEvents) (ctl : Bool)

def IOManager.operate (manager : IOManager Sched Cb Fib) : Label Sched Cb Fib →
    Run (IOManager Sched Cb Fib)
  | .addEvent fd event scheduler cb caller state ctl => do
      let (_, manager) ← manager.addEvent fd event scheduler cb caller state ctl
      .ok manager
  | .delEvent fd event ctl => .ok (manager.delEvent fd event ctl).2
  | .cancelEvent fd event ctl => do
      let (_, manager) ← manager.cancelEvent fd event ctl
      .ok manager
  | .cancelAll fd ctl => do
      let (_, manager) ← manager.cancelAll fd ctl
      .ok manager
  | .dispatch fd revents ctl => manager.dispatch fd revents ctl

end OtaMqtt.Sched
