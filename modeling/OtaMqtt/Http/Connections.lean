import OtaMqtt.Lib.Execution

/-! Sockets and sessions of `HttpServer` under descriptor numbers that are used again
(sherry/http/http_server.cc, http_session.cc).

Connections are numbered in the order of their `accept`. Of an `FdContext` only `sock` is kept;
whether the `addEvent` that sets it succeeds is an input. `response` waits until no WRITE event
is registered, which changes nothing here. -/

namespace OtaMqtt.Http

open OtaMqtt.Lib.Execution

/-- The READ callback of a session that sees its peer gone closes the socket first and marks
the session and queues the reset afterwards. -/
inductive Phase where
  | alive
  | closing
  | closed
  deriving DecidableEq

/-- `holder` is the kernel's view of the open descriptors, sockets and read ends of pipes, and
`latest` the last connection that was accepted under a number. -/
structure Connections where
  accepted : Nat
  socket : Nat → Nat
  phase : Nat → Phase
  holder : Nat → Option Nat
  latest : Nat → Option Nat
  sock : Nat → Option Nat
  sessions : Nat → Option Nat
  resetQueue : List Nat

inductive Action where
  | handleClient (fd pipe : Nat) (ctl : Bool)
  | registEvent (fd : Nat) (ctl : Bool)
  | close (connection : Nat)
  | retire (connection : Nat)
  | reset
  | sweep (fd : Nat)

namespace Connections

def fresh : Connections :=
  ⟨0, fun _ => 0, fun _ => .alive, fun _ => none, fun _ => none, fun _ => none, fun _ => none, []⟩

/-- `fd_ctx->sock` after an `addEvent` of the connection that holds `fd`. -/
def watch (server : Connections) (fd connection : Nat) (ctl : Bool) : Connections :=
  if ctl then { server with sock := Function.update server.sock fd (some connection) } else server

/-- `handleClient` up to the map of the sessions; the constructor of the session watches the
pipe. -/
def handleClient (server : Connections) (fd pipe : Nat) (ctl : Bool) : Connections :=
  let connection := server.accepted
  let server := { server with
    accepted := connection + 1
    socket := Function.update server.socket connection fd
    phase := Function.update server.phase connection .alive
    holder := Function.update (Function.update server.holder fd (some connection)) pipe (some connection)
    latest := Function.update server.latest fd (some connection)
    sessions := Function.update server.sessions fd (some connection) }
  server.watch pipe connection ctl

def step (server : Connections) : Action → Option Connections
  | .handleClient fd pipe ctl =>
      if server.holder fd = none ∧ server.holder pipe = none ∧ fd ≠ pipe then
        some (server.handleClient fd pipe ctl)
      else none
  | .registEvent fd ctl => (server.holder fd).map fun connection => server.watch fd connection ctl
  | .close connection =>
      if connection < server.accepted ∧ server.phase connection = .alive then
        some { server with
          holder := Function.update server.holder (server.socket connection) none
          phase := Function.update server.phase connection .closing }
      else none
  | .retire connection =>
      if server.phase connection = .closing then
        some { server with
          phase := Function.update server.phase connection .closed
          resetQueue := server.resetQueue ++ [server.socket connection] }
      else none
  | .reset =>
      match server.resetQueue with
      | [] => none
      | fd :: queue => some { server with
          sock := Function.update server.sock fd none
          resetQueue := queue }
  | .sweep fd =>
      if (server.sessions fd).any fun connection => server.phase connection = .closed then
        some { server with sessions := Function.update server.sessions fd none }
      else none

/-- The connection in whose session `response` writes, if it writes at all. -/
def response (server : Connections) (fd : Nat) : Run (Option Nat) :=
  match server.sock fd, server.sessions fd with
  | none, _ => .ok none
  | some _, none => .error .nullPointer
  | some _, some connection => .ok (some connection)

end Connections

end OtaMqtt.Http
