import OtaMqtt.Lib.Execution
import OtaMqtt.Lib.Trace

/-! The event table of `HttpServer` (sherry/http/http_server.h, http_server.cc).

Every operation holds the context's mutex from its first look at the context to its last
change, so an operation is one step; `idle` takes one step per epoll result and one per
queued reset. Whether `epoll_ctl` succeeds is an input, and so is every epoll result: the
interest list that `op` and `left_events` describe to the kernel is not modelled. Nor is
the scheduler on which a task runs. -/

namespace OtaMqtt.Http.Server

open OtaMqtt.Lib.Execution OtaMqtt.Lib.Trace

inductive Event where
  | read
  | write
  deriving DecidableEq, Repr

instance : Fintype Event := ⟨{.read, .write}, fun event => by cases event <;> decide⟩

section
variable (events : Event → Bool)

theorem events_le : (events .read).toNat + (events .write).toNat ≤ 2 := by
  have first := Bool.toNat_le (events .read)
  have second := Bool.toNat_le (events .write)
  omega

theorem events_clear (event : Event) (set : events event = true) :
    (Function.update events event false .read).toNat +
        (Function.update events event false .write).toNat + 1 =
      (events .read).toNat + (events .write).toNat := by
  cases event with
  | read =>
      rw [Function.update_self, Function.update_of_ne (by decide), set]
      simp only [Bool.toNat_false, Bool.toNat_true]
      omega
  | write =>
      rw [Function.update_self, Function.update_of_ne (by decide), set]
      simp only [Bool.toNat_false, Bool.toNat_true]

end

structure EventContext (Cb Fib : Type) where
  fiber : Option Fib
  cb : Option Cb
  persistent : Bool

/-- `slot .read` and `slot .write` are the members `read` and `write`. -/
structure FdContext (Cb Fib Sock : Type) where
  sock : Option Sock
  slot : Event → EventContext Cb Fib
  events : Event → Bool

inductive Task (Cb Fib : Type) where
  | callback (cb : Cb)
  | fiber (fiber : Fib)
  deriving DecidableEq

/-- What `addEvent` registers: the callback, or the calling fiber when there is none. -/
def Task.supplied {Cb Fib : Type} (cb : Option Cb) (caller : Fib) : Task Cb Fib :=
  match cb with
  | some cb => .callback cb
  | none => .fiber caller

inductive Entry (Cb Fib : Type) where
  | registered (fd : Nat) (event : Event) (task : Task Cb Fib) (persistent : Bool)
  | scheduled (fd : Nat) (event : Event) (task : Task Cb Fib)
  deriving DecidableEq

/-- `size` is the length of `m_fdContexts`; `history` lists the successful registrations
and the tasks handed to the scheduler, the newest first. -/
structure HttpServer (Cb Fib Sock : Type) where
  size : Nat
  contexts : Nat → FdContext Cb Fib Sock
  pendingEventCount : Nat
  history : List (Entry Cb Fib)

structure EpollEvents where
  input : Bool
  output : Bool
  error : Bool
  hangUp : Bool
  deriving DecidableEq

variable {Cb Fib Sock : Type}

namespace FdContext

/-- `new FdContext` leaves the `persistent` flags indeterminate. -/
def fresh (junk : Event → Bool) : FdContext Cb Fib Sock :=
  ⟨none, fun event => ⟨none, none, junk event⟩, fun _ => false⟩

def resetContext (ctx : FdContext Cb Fib Sock) (event : Event) : FdContext Cb Fib Sock :=
  { ctx with slot := Function.update ctx.slot event { ctx.slot event with fiber := none, cb := none } }

def reset (ctx : FdContext Cb Fib Sock) : FdContext Cb Fib Sock :=
  { (ctx.resetContext .read).resetContext .write with sock := none, events := fun _ => false }

def setPersistent (ctx : FdContext Cb Fib Sock) (event : Event) (persistent : Bool) :
    FdContext Cb Fib Sock :=
  { ctx with slot := Function.update ctx.slot event { ctx.slot event with persistent := persistent } }

/-- `schedule (ctx.cb)` copies the callback, `schedule (&ctx.fiber)` takes the fiber away. -/
def triggerEvent (ctx : FdContext Cb Fib Sock) (event : Event) :
    Option (Task Cb Fib) × FdContext Cb Fib Sock :=
  if ctx.events event then
    let events :=
      if (ctx.slot event).persistent then ctx.events else Function.update ctx.events event false
    match (ctx.slot event).cb with
    | some cb => (some (.callback cb), { ctx with events := events })
    | none => ((ctx.slot event).fiber.map .fiber, { ctx with
        events := events,
        slot := Function.update ctx.slot event { ctx.slot event with fiber := none } })
  else (none, ctx)

theorem triggerEvent_other (ctx : FdContext Cb Fib Sock) (event other : Event)
    (different : other ≠ event) :
    (ctx.triggerEvent event).2.events other = ctx.events other ∧
      (ctx.triggerEvent event).2.slot other = ctx.slot other := by
  unfold triggerEvent
  cases ctx.events event <;> cases (ctx.slot event).cb <;> cases (ctx.slot event).persistent <;>
    simp [Function.update_of_ne different]

/-- What a successful `addEvent` stores; a slot that the call does not set keeps its value. -/
def register (ctx : FdContext Cb Fib Sock) (event : Event) (sock : Option Sock) (cb : Option Cb)
    (caller : Fib) (persistent : Bool) : FdContext Cb Fib Sock where
  sock := sock
  slot := Function.update ctx.slot event (match cb with
    | some cb => { ctx.slot event with persistent := persistent, cb := some cb }
    | none => { ctx.slot event with persistent := persistent, fiber := some caller })
  events := Function.update ctx.events event true

/-- What a successful `delEvent` leaves. -/
def unregister (ctx : FdContext Cb Fib Sock) (event : Event) : FdContext Cb Fib Sock :=
  resetContext { ctx.setPersistent event false with events := Function.update ctx.events event false }
    event

end FdContext

namespace HttpServer

def fresh (junk : Nat → Event → Bool) : HttpServer Cb Fib Sock :=
  ⟨32, fun fd => FdContext.fresh (junk fd), 0, []⟩

/-- The slots between the old and the new size get new contexts. -/
def contextResize (server : HttpServer Cb Fib Sock) (size : Nat) : HttpServer Cb Fib Sock :=
  { server with size := size }

/-- One context, the counter and the history after an operation on `fd`. -/
def edit (server : HttpServer Cb Fib Sock) (fd : Nat) (ctx : FdContext Cb Fib Sock) (count : Nat)
    (entries : List (Entry Cb Fib)) : HttpServer Cb Fib Sock :=
  { server with
    contexts := Function.update server.contexts fd ctx
    pendingEventCount := count
    history := entries ++ server.history }

/-- `caller` is the running fiber, registered when there is no callback. The result is 0,
or -1 for an event that is already registered or a failed `epoll_ctl`. -/
def addEvent (server : HttpServer Cb Fib Sock) (fd : Nat) (event : Event) (sock : Option Sock)
    (cb : Option Cb) (caller : Fib) (persistent ctl : Bool) : Int × HttpServer Cb Fib Sock :=
  let server := if fd < server.size then server else server.contextResize (fd * 3 / 2)
  let ctx := server.contexts fd
  if ctx.events event then (-1, server)
  else if ctl then
    (0, server.edit fd (ctx.register event sock cb caller persistent)
      ((server.pendingEventCount + 1) % 2 ^ 64)
      [.registered fd event (.supplied cb caller) persistent])
  else (-1, server)

/-- The table, grown when `fd` lies outside, is all that an unsuccessful call leaves; a
successful one found the event clear and edits one context of it. -/
theorem addEvent_cases (server : HttpServer Cb Fib Sock) (fd : Nat) (event : Event)
    (sock : Option Sock) (cb : Option Cb) (caller : Fib) (persistent ctl : Bool) :
    ∃ table : HttpServer Cb Fib Sock,
      table = (if fd < server.size then server else server.contextResize (fd * 3 / 2)) ∧
      table.contexts = server.contexts ∧ table.history = server.history ∧
      ((server.addEvent fd event sock cb caller persistent ctl).2 = table ∨
        (server.contexts fd).events event = false ∧ ctl = true ∧
          (server.addEvent fd event sock cb caller persistent ctl).2 =
            table.edit fd ((table.contexts fd).register event sock cb caller persistent)
              ((table.pendingEventCount + 1) % 2 ^ 64)
              [.registered fd event (.supplied cb caller) persistent]) := by
  have grown : ∃ table, (if fd < server.size then server else server.contextResize (fd * 3 / 2)) =
      table ∧ table.contexts = server.contexts ∧ table.history = server.history := by
    by_cases inside : fd < server.size
    · exact ⟨server, if_pos inside, rfl, rfl⟩
    · exact ⟨_, if_neg inside, rfl, rfl⟩
  obtain ⟨table, same, contexts, history⟩ := grown
  refine ⟨table, same.symm, contexts, history, ?_⟩
  unfold addEvent
  simp only [same]
  split
  · exact .inl rfl
  · rename_i unset
    split
    · rename_i done
      exact .inr ⟨by rw [← contexts]; simpa using unset, done, rfl⟩
    · exact .inl rfl

def delEvent (server : HttpServer Cb Fib Sock) (fd : Nat) (event : Event) (ctl : Bool) :
    Bool × HttpServer Cb Fib Sock :=
  let ctx := server.contexts fd
  if server.size ≤ fd then (false, server)
  else if !ctx.events event then (false, server)
  else if ctl then
    (true, server.edit fd (ctx.unregister event) (subSize server.pendingEventCount 1) [])
  else (false, server)

/-- `triggerEvent` followed by `--m_pendingEventCount`. -/
def fire (server : HttpServer Cb Fib Sock) (fd : Nat) (event : Event) : HttpServer Cb Fib Sock :=
  let (task, ctx) := (server.contexts fd).triggerEvent event
  server.edit fd ctx (subSize server.pendingEventCount 1) (task.toList.map (.scheduled fd event))

theorem fire_eq (server : HttpServer Cb Fib Sock) (fd : Nat) (event : Event) :
    server.fire fd event = server.edit fd ((server.contexts fd).triggerEvent event).2
      (subSize server.pendingEventCount 1)
      (((server.contexts fd).triggerEvent event).1.toList.map (.scheduled fd event)) := rfl

def setPersistent (server : HttpServer Cb Fib Sock) (fd : Nat) (event : Event) :
    HttpServer Cb Fib Sock :=
  server.edit fd ((server.contexts fd).setPersistent event false) server.pendingEventCount []

def cancelEvent (server : HttpServer Cb Fib Sock) (fd : Nat) (event : Event) (ctl : Bool) :
    Bool × HttpServer Cb Fib Sock :=
  if server.size ≤ fd then (false, server)
  else if !(server.contexts fd).events event then (false, server)
  else if ctl then (true, (server.setPersistent fd event).fire fd event)
  else (false, server)

/-- One of the two blocks at the end of `cancelAll`. -/
def cancelOne (server : HttpServer Cb Fib Sock) (fd : Nat) (event : Event) :
    HttpServer Cb Fib Sock :=
  if (server.contexts fd).events event then (server.setPersistent fd event).fire fd event else server

def cancelAll (server : HttpServer Cb Fib Sock) (fd : Nat) (ctl : Bool) :
    Bool × HttpServer Cb Fib Sock :=
  let ctx := server.contexts fd
  if server.size ≤ fd then (false, server)
  else if !ctx.events .read && !ctx.events .write then (false, server)
  else if ctl then (true, (server.cancelOne fd .read).cancelOne fd .write)
  else (false, server)

end HttpServer

/-- `real_events`, after `EPOLLERR` and `EPOLLHUP` have widened the mask. -/
def EpollEvents.real (revents : EpollEvents) : Event → Bool
  | .read => revents.input || revents.error || revents.hangUp
  | .write => revents.output || revents.error || revents.hangUp

namespace HttpServer

/-- The reported events pass the two checks of `idle` and are triggered. -/
def passes (server : HttpServer Cb Fib Sock) (fd : Nat) (revents : EpollEvents) (ctl : Bool) : Bool :=
  let ctx := server.contexts fd
  (ctx.events .read && revents.real .read || ctx.events .write && revents.real .write) && ctl

/-- The body of the loop of `idle` over the results of `epoll_wait`. -/
def dispatch (server : HttpServer Cb Fib Sock) (fd : Nat) (revents : EpollEvents) (ctl : Bool) :
    HttpServer Cb Fib Sock :=
  if server.passes fd revents ctl then
    let server := if revents.real .read then server.fire fd .read else server
    if revents.real .write then server.fire fd .write else server
  else server

def resetFd (server : HttpServer Cb Fib Sock) (fd : Nat) : HttpServer Cb Fib Sock :=
  server.edit fd (server.contexts fd).reset server.pendingEventCount []

/-- `timeout` is `getNextTimer`, `drained` the base class's own condition. -/
def stopping (server : HttpServer Cb Fib Sock) (timeout : Nat) (drained : Bool) : Bool :=
  timeout == 2 ^ 64 - 1 && server.pendingEventCount == 0 && drained

end HttpServer

inductive Label (Cb Fib Sock : Type) where
  | addEvent (fd : Nat) (event : Event) (sock : Option Sock) (cb : Option Cb) (caller : Fib)
      (persistent ctl : Bool)
  | delEvent (fd : Nat) (event : Event) (ctl : Bool)
  | cancelEvent (fd : Nat) (event : Event) (ctl : Bool)
  | cancelAll (fd : Nat) (ctl : Bool)
  | dispatch (fd : Nat) (revents : EpollEvents) (ctl : Bool)
  | reset (fd : Nat)

/-- A descriptor is an `int`; epoll and the reset queue name contexts of the table only. -/
def HttpServer.step (server : HttpServer Cb Fib Sock) : Label Cb Fib Sock →
    Option (HttpServer Cb Fib Sock)
  | .addEvent fd event sock cb caller persistent ctl =>
      if fd < 2 ^ 31 then some (server.addEvent fd event sock cb caller persistent ctl).2 else none
  | .delEvent fd event ctl => some (server.delEvent fd event ctl).2
  | .cancelEvent fd event ctl => some (server.cancelEvent fd event ctl).2
  | .cancelAll fd ctl => some (server.cancelAll fd ctl).2
  | .dispatch fd revents ctl => if fd < server.size then some (server.dispatch fd revents ctl) else none
  | .reset fd => if fd < server.size then some (server.resetFd fd) else none

end OtaMqtt.Http.Server
