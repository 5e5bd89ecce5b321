import OtaMqtt.Http.Parser

/-! The READ handler of a session (`regist_event` in sherry/http/http_session.cc) and what it
does with each result of `Socket::recv` (sherry/socket.cc).

The result is stored in a `size_t`. The handler is followed up to the call of `process_read`. -/

namespace OtaMqtt.Http.Receiving

open OtaMqtt.Lib.Execution OtaMqtt.Http.Buffer
open OtaMqtt.Http.Parser (HttpParser Message HttpCode receive)

/-- A connected socket has a descriptor. -/
structure Socket where
  sock : Int
  isConnected : Bool
  opened : isConnected = true → 0 ≤ sock

def Socket.close (socket : Socket) : Socket :=
  if socket.isConnected = false ∧ socket.sock = -1 then socket
  else ⟨-1, false, fun connected => by cases connected⟩

/-- `EWOULDBLOCK` is `EAGAIN`, or another number. -/
inductive Errno where
  | again
  | wouldBlock
  | other (code : Nat)
  deriving DecidableEq

/-- What `recv` returns: a count that an `int` holds, zero, or -1 with its `errno`. -/
inductive Received where
  | data (chunk : List UInt8) (some : chunk ≠ []) (narrow : chunk.length < 2 ^ 31)
  | nothing
  | failed (errno : Errno)

namespace Received

def count : Received → Int
  | data chunk _ _ => chunk.length
  | nothing => 0
  | failed _ => -1

def chunk : Received → List UInt8
  | data chunk _ _ => chunk
  | nothing => []
  | failed _ => []

def errno : Received → Option Errno
  | failed errno => some errno
  | _ => none

end Received

/-- `Socket::recv`; a socket that is not connected leaves `errno` as it was. -/
def Socket.recv (socket : Socket) (errno : Errno) (answer : Received) : Received :=
  if socket.isConnected then answer else .failed errno

/-- The parser with `m_read_idx` as the `int` that it is. -/
structure Parser where
  readIdx : Int32
  checkedIdx : Nat
  startLine : Nat
  bufferSize : Nat
  message : Message

/-- `m_read_idx += len` is computed in a `size_t`. -/
def Parser.updateBufferSize (parser : Parser) (len : Nat) : Parser :=
  { parser with readIdx := Int32.ofInt (parser.readIdx.toInt + len) }

/-- The queue holds the descriptors of the contexts to be reset. -/
structure Session where
  socket : Socket
  isClose : Bool
  parser : Parser
  readBuffer : HttpBuffer
  resetQueue : List Int

/-- `parses` says that `process_read` is called next. -/
structure Outcome where
  socket : Socket
  isClose : Bool
  parser : Parser
  readBuffer : Run HttpBuffer
  resetQueue : List Int
  parses : Bool

namespace Session

variable (session : Session)

def leave : Outcome :=
  ⟨session.socket, session.isClose, session.parser, .ok session.readBuffer, session.resetQueue, false⟩

/-- The body of the two branches that close. -/
def shut : Outcome :=
  let fd := session.socket.sock
  if fd < 0 then { session.leave with socket := session.socket.close }
  else { session.leave with
    socket := session.socket.close
    isClose := true
    resetQueue := session.resetQueue ++ [fd] }

def pass (chunk : List UInt8) (len : Nat) : Outcome :=
  { session.leave with
    readBuffer := (session.readBuffer.write (fun index => chunk.getD index 0) len).map Prod.snd
    parser := session.parser.updateBufferSize len
    parses := true }

/-- The READ handler; `len` is a `size_t`, so that it is never negative. -/
def onRead (received : Received) : Outcome :=
  let len : Nat := (received.count % 2 ^ 64).toNat
  if len = 0 then session.shut
  else if (len : Int) < 0 then
    if received.errno = some .again ∨ received.errno = some .wouldBlock then session.leave
    else session.shut
  else session.pass received.chunk len

end Session

structure Untouched (session : Session) (outcome : Outcome) : Prop where
  parser : outcome.parser = session.parser
  readBuffer : outcome.readBuffer = .ok session.readBuffer
  parses : outcome.parses = false

structure Closed (session : Session) (outcome : Outcome) : Prop where
  sock : outcome.socket.sock = -1
  isConnected : outcome.socket.isConnected = false
  isClose : outcome.isClose = true
  resetQueue : outcome.resetQueue = session.resetQueue ++ [session.socket.sock]

/-- What each result of `recv` is to do. -/
def Proper (session : Session) (received : Received) (outcome : Outcome) : Prop :=
  match received with
  | .failed .again => Untouched session outcome ∧ outcome.isClose = session.isClose
  | .failed .wouldBlock => Untouched session outcome ∧ outcome.isClose = session.isClose
  | .failed (.other _) => Untouched session outcome ∧ Closed session outcome
  | .nothing => Untouched session outcome ∧ Closed session outcome
  | .data chunk _ _ => outcome.parses = true ∧
      outcome.parser.readIdx.toInt = session.parser.readIdx.toInt + chunk.length ∧
      outcome.parser = { session.parser with readIdx := outcome.parser.readIdx }

/-- `recv` does not fail, and `m_read_idx` has room for what it got. -/
def Counted (session : Session) : Received → Prop
  | .failed _ => False
  | .nothing => True
  | .data chunk _ _ => session.parser.readIdx.toInt + chunk.length < 2 ^ 31

section
variable {session : Session}

theorem failed_passes (errno : Errno) :
    session.onRead (.failed errno) = session.pass [] (2 ^ 64 - 1) := by
  have len : ((Received.failed errno).count % 2 ^ 64).toNat = 2 ^ 64 - 1 := by
    rw [Received.count]
    decide
  rw [Session.onRead, len, if_neg (by decide), if_neg (by decide)]
  rfl

theorem nothing_shuts : session.onRead .nothing = session.shut := rfl

theorem data_passes (chunk : List UInt8) (some : chunk ≠ []) (narrow : chunk.length < 2 ^ 31) :
    session.onRead (.data chunk some narrow) = session.pass chunk chunk.length := by
  have positive := List.length_pos_of_ne_nil some
  have len : ((Received.data chunk some narrow).count % 2 ^ 64).toNat = chunk.length := by
    rw [Received.count]
    omega
  rw [Session.onRead, len, if_neg (by omega), if_neg (by omega)]
  rfl

theorem shut_closes (opened : 0 ≤ session.socket.sock) :
    Untouched session session.shut ∧ Closed session session.shut := by
  have open' : ¬ session.socket.sock < 0 := by omega
  have away : ¬ (session.socket.isConnected = false ∧ session.socket.sock = -1) := by omega
  rw [Session.shut, if_neg open']
  refine ⟨⟨rfl, rfl, rfl⟩, ?_, ?_, rfl, rfl⟩
  · dsimp only
    rw [Socket.close, if_neg away]
  · dsimp only
    rw [Socket.close, if_neg away]

theorem updated_exactly_iff (parser : Parser) (len : Nat) (narrow : len < 2 ^ 31) :
    (parser.updateBufferSize len).readIdx.toInt = parser.readIdx.toInt + len ↔
      parser.readIdx.toInt + len < 2 ^ 31 := by
  have low := parser.readIdx.le_toInt
  rw [Parser.updateBufferSize]
  constructor
  · intro same
    rw [← same]
    exact Int32.toInt_lt _
  · intro room
    exact Int32.toInt_ofInt_of_le (by omega) room

def Parser.plain (parser : Parser) : HttpParser :=
  ⟨parser.readIdx.toInt.toNat, parser.checkedIdx, parser.startLine, parser.bufferSize, parser.message⟩

/-- On received data the handler and the `process_read` behind it are `receive`. -/
theorem onRead_receives (chunk : List UInt8) (some : chunk ≠ []) (narrow : chunk.length < 2 ^ 31)
    (begun : 0 ≤ session.parser.readIdx.toInt)
    (room : session.parser.readIdx.toInt + chunk.length < 2 ^ 31) :
    (do
      let ring ← (session.onRead (.data chunk some narrow)).readBuffer
      (session.onRead (.data chunk some narrow)).parser.plain.processRead ring) =
      receive session.parser.plain session.readBuffer chunk := by
  have advanced := (updated_exactly_iff session.parser chunk.length narrow).mpr room
  have counted : session.parser.plain.updateBufferSize chunk.length =
      .ok (session.parser.updateBufferSize chunk.length).plain := by
    have narrow : session.parser.readIdx.toInt.toNat + chunk.length < 2 ^ 31 := by omega
    have total : (session.parser.readIdx.toInt + chunk.length).toNat =
        session.parser.readIdx.toInt.toNat + chunk.length := by omega
    simp only [HttpParser.updateBufferSize, Parser.plain, toInt_of_lt narrow, ok_bind, advanced, total]
    rfl
  rw [data_passes, receive, counted]
  dsimp only [Session.pass]
  cases session.readBuffer.write (fun index => chunk.getD index 0) chunk.length with
  | error reason => rfl
  | ok pair => rfl

end

/-- Every result of `recv` is handled as it should be, exactly when it is no failure and the counter
of the parser has room for it. -/
theorem proper_iff_counted (session : Session) (errno : Errno) (answer : Received) :
    Proper session (session.socket.recv errno answer)
        (session.onRead (session.socket.recv errno answer)) ↔
      Counted session (session.socket.recv errno answer) := by
  have unparsed : ∀ errno, ¬ Untouched session (session.onRead (.failed errno)) := by
    intro errno untouched
    have parses := untouched.parses
    rw [failed_passes] at parses
    cases parses
  cases result : session.socket.recv errno answer with
  | data chunk some narrow =>
      rw [data_passes]
      constructor
      · intro proper
        exact (updated_exactly_iff session.parser chunk.length narrow).mp proper.2.1
      · intro room
        exact ⟨rfl, (updated_exactly_iff session.parser chunk.length narrow).mpr room, rfl⟩
  | nothing =>
      have connected : session.socket.isConnected = true := by
        by_contra closed
        rw [Socket.recv, if_neg closed] at result
        cases result
      rw [nothing_shuts]
      exact ⟨fun _ => trivial, fun _ => shut_closes (session.socket.opened connected)⟩
  | failed errno =>
      cases errno with
      | again => exact ⟨fun proper => unparsed _ proper.1, False.elim⟩
      | wouldBlock => exact ⟨fun proper => unparsed _ proper.1, False.elim⟩
      | other code => exact ⟨fun proper => unparsed _ proper.1, False.elim⟩

def waitingSession : Session where
  socket := ⟨7, true, fun _ => by decide⟩
  isClose := false
  parser := ⟨0, 0, 0, 4096, .fresh⟩
  readBuffer := .fresh 4096 fun _ => 0
  resetQueue := []

theorem failed_recv_reaches_processing :
    ¬ ∀ (session : Session) (errno : Errno) (answer : Received),
      Proper session (session.socket.recv errno answer)
        (session.onRead (session.socket.recv errno answer)) := by
  intro always_proper
  have unchanged := (always_proper waitingSession .again (.failed .again)).1.parser
  have counter : (waitingSession.onRead (.failed .again)).parser.readIdx = -1 := by
    rw [failed_passes]
    decide
  have same := congrArg Parser.readIdx unchanged
  rw [show waitingSession.socket.recv .again (.failed .again) = .failed .again from rfl, counter] at same
  revert same
  decide

end OtaMqtt.Http.Receiving
