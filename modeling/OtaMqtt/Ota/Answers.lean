import OtaMqtt.Http.Connections
import OtaMqtt.Lib.Trace
import OtaMqtt.Ota.Query

/-! The responses that the callbacks of `ota_query` send. -/

namespace OtaMqtt.Ota.Answers

open OtaMqtt.Lib OtaMqtt.Lib.Execution OtaMqtt.Lib.Trace
open OtaMqtt.Http OtaMqtt.Ota

structure Pending where
  number : Nat
  issuer : Nat
  query : OTAQuery

structure Sent where
  number : Nat
  issuer : Nat
  recipient : Nat
  deriving DecidableEq

structure World where
  server : Connections
  callbackMgr : OTAClientCallbackManager Pending
  issued : Nat
  sent : List Sent

inductive Label where
  | http (action : Action)
  | query (connection : Nat) (deviceType : UInt16) (deviceNo : UInt32) (action : String)
  | message (topic payload : String)

namespace World

def fresh : World := ⟨.fresh, .fresh, 0, []⟩

/-- The connect id of a request is the descriptor of its session's socket. -/
def otaQuery (world : World) (connection : Nat) (deviceType : UInt16) (deviceNo : UInt32)
    (action : String) : World :=
  let query : OTAQuery := ⟨deviceType, deviceNo, action, world.server.socket connection⟩
  { world with
    callbackMgr := world.callbackMgr.registCallback query.subTopic ⟨world.issued, connection, query⟩
    issued := world.issued + 1 }

/-- The pending query whose callback calls `response_to_server` for a message. -/
def answered (parse : String → Option Json) (world : World) (topic payload : String) :
    Option Pending :=
  (world.callbackMgr.onMessage topic).filter fun pending =>
    (pending.query.callback parse payload).isSome

def onMessage (parse : String → Option Json) (world : World) (topic payload : String) : Run World :=
  match world.answered parse topic payload with
  | none => .ok world
  | some pending => do
      let recipient ← world.server.response pending.query.connectId
      .ok { world with
        sent := (recipient.map fun recipient => ⟨pending.number, pending.issuer, recipient⟩).toList ++
          world.sent }

def operate (parse : String → Option Json) (world : World) : Label → Option (Run World)
  | .http action => (world.server.step action).map fun server => .ok { world with server := server }
  | .query connection deviceType deviceNo action =>
      if connection < world.server.accepted ∧ world.server.phase connection = .alive then
        some (.ok (world.otaQuery connection deviceType deviceNo action))
      else none
  | .message topic payload => some (world.onMessage parse topic payload)

def step (parse : String → Option Json) : Run World → Label → Option (Run World)
  | .ok world, label => world.operate parse label
  | .error _, _ => none

end World

/-- Every response has gone to the connection that asked, and no query got two. -/
def Proper : Run World → Prop
  | .ok world => (∀ sent ∈ world.sent, sent.recipient = sent.issuer) ∧
      (world.sent.map Sent.number).Nodup
  | .error _ => True

/-- A message that the registered query takes for its answer arrives before the query was
answered and before another connection was accepted under the same descriptor. A descriptor
without a socket or a session sends nothing. -/
def Timely (parse : String → Option Json) : Run World → Label → Prop
  | .ok world, .message topic payload => ∀ pending ∈ world.answered parse topic payload,
      world.server.sock pending.query.connectId ≠ none →
      world.server.sessions pending.query.connectId ≠ none →
        pending.number ∉ world.sent.map Sent.number ∧
          world.server.latest pending.query.connectId = some pending.issuer
  | _, _ => True

instance (parse : String → Option Json) : ∀ (state : Run World) (label : Label),
    Decidable (Timely parse state label)
  | .ok world, .message topic payload =>
      match found : world.answered parse topic payload with
      | none => .isTrue fun pending member => by
          rw [found] at member
          cases member
      | some pending =>
          decidable_of_iff (world.server.sock pending.query.connectId ≠ none →
            world.server.sessions pending.query.connectId ≠ none →
              pending.number ∉ world.sent.map Sent.number ∧
                world.server.latest pending.query.connectId = some pending.issuer) (by
            rw [Timely, found]
            simp)
  | .ok _, .http _ => .isTrue trivial
  | .ok _, .query _ _ _ _ => .isTrue trivial
  | .error _, _ => .isTrue trivial

def Current (server : Connections) : Prop :=
  ∀ fd connection, server.sessions fd = some connection → server.latest fd = some connection

def Sound : Run World → Prop
  | .ok world => Proper (.ok world) ∧ Current world.server
  | .error _ => True

theorem watch_current (server : Connections) (fd connection : Nat) (ctl : Bool)
    (current : Current server) : Current (server.watch fd connection ctl) := by
  unfold Connections.watch
  split
  · exact current
  · exact current

theorem handleClient_current (server : Connections) (fd pipe : Nat) (ctl : Bool)
    (current : Current server) : Current (server.handleClient fd pipe ctl) := by
  apply watch_current
  intro other connection found
  dsimp only at found ⊢
  by_cases same : other = fd
  · rw [same, Function.update_self] at found ⊢
    exact found
  · rw [Function.update_of_ne same] at found ⊢
    exact current other connection found

theorem step_current (server next : Connections) (action : Action) (current : Current server)
    (taken : server.step action = some next) : Current next := by
  cases action with
  | handleClient fd pipe ctl =>
      obtain ⟨-, is⟩ := Option.ite_none_right_eq_some.mp taken
      cases is
      exact handleClient_current server fd pipe ctl current
  | registEvent fd ctl =>
      obtain ⟨connection, -, rfl⟩ := Option.map_eq_some_iff.mp taken
      exact watch_current server fd connection ctl current
  | close connection =>
      obtain ⟨-, is⟩ := Option.ite_none_right_eq_some.mp taken
      cases is
      exact current
  | retire connection =>
      obtain ⟨-, is⟩ := Option.ite_none_right_eq_some.mp taken
      cases is
      exact current
  | reset =>
      rw [Connections.step] at taken
      split at taken
      · cases taken
      · cases taken
        exact current
  | sweep fd =>
      obtain ⟨-, is⟩ := Option.ite_none_right_eq_some.mp taken
      cases is
      intro other connection found
      dsimp only at found ⊢
      by_cases same : other = fd
      · rw [same, Function.update_self] at found
        cases found
      · rw [Function.update_of_ne same] at found
        exact current other connection found

section
variable {parse : String → Option Json} {world : World}

theorem onMessage_cases (topic payload : String) :
    (world.onMessage parse topic payload = .ok world) ∨
    (world.onMessage parse topic payload = .error .nullPointer ∧
      ∃ pending ∈ world.answered parse topic payload,
        world.server.sessions pending.query.connectId = none) ∨
    ∃ pending ∈ world.answered parse topic payload, ∃ recipient,
      world.server.sock pending.query.connectId ≠ none ∧
      world.server.sessions pending.query.connectId = some recipient ∧
      world.onMessage parse topic payload = .ok { world with
        sent := ⟨pending.number, pending.issuer, recipient⟩ :: world.sent } := by
  unfold World.onMessage
  cases world.answered parse topic payload with
  | none => exact .inl rfl
  | some pending =>
      dsimp only
      unfold Connections.response
      cases sock : world.server.sock pending.query.connectId with
      | none => exact .inl rfl
      | some holder =>
          cases session : world.server.sessions pending.query.connectId with
          | none => exact .inr (.inl ⟨rfl, pending, rfl, session⟩)
          | some recipient =>
              refine .inr (.inr ⟨pending, rfl, recipient, ?_, session, rfl⟩)
              rw [sock]
              exact Option.some_ne_none holder

theorem message_sound (topic payload : String) (sound : Sound (.ok world))
    (timely : Timely parse (.ok world) (.message topic payload)) :
    Sound (world.onMessage parse topic payload) := by
  rcases @onMessage_cases parse world topic payload with
    same | ⟨failed, -⟩ | ⟨pending, answered, recipient, sock, session, sent⟩
  · rw [same]
    exact sound
  · rw [failed]
    trivial
  · obtain ⟨⟨own, once⟩, current⟩ := sound
    have there : world.server.sessions pending.query.connectId ≠ none := by
      rw [session]
      exact Option.some_ne_none recipient
    obtain ⟨first, latest⟩ := timely pending answered sock there
    have recipient_eq := (current _ recipient session).symm.trans latest
    rw [sent]
    refine ⟨⟨fun response member => ?_, List.nodup_cons.mpr ⟨first, once⟩⟩, current⟩
    rcases List.mem_cons.mp member with rfl | old
    · exact Option.some.inj recipient_eq
    · exact own response old

theorem untimely_improper (topic payload : String) (sound : Sound (.ok world))
    (untimely : ¬ Timely parse (.ok world) (.message topic payload)) :
    ¬ Proper (world.onMessage parse topic payload) := by
  simp only [Timely, not_forall] at untimely
  obtain ⟨pending, answered, sock, session, late⟩ := untimely
  obtain ⟨recipient, session⟩ := Option.ne_none_iff_exists'.mp session
  obtain ⟨holder, sock⟩ := Option.ne_none_iff_exists'.mp sock
  have found : world.answered parse topic payload = some pending := answered
  have sent : world.onMessage parse topic payload = .ok { world with
      sent := ⟨pending.number, pending.issuer, recipient⟩ :: world.sent } := by
    rw [World.onMessage, found]
    dsimp only
    rw [Connections.response, sock, session]
    rfl
  rw [sent]
  rintro ⟨own, once⟩
  apply late
  refine ⟨(List.nodup_cons.mp once).1, ?_⟩
  have mine : recipient = pending.issuer := own _ List.mem_cons_self
  rw [sound.2 _ recipient session, mine]

end

theorem step_sound (parse : String → Option Json) (state : Run World) (label : Label)
    (next : Run World) (sound : Sound state) (timely : Timely parse state label)
    (taken : World.step parse state label = some next) : Sound next := by
  cases state with
  | error fault => cases taken
  | ok world =>
      cases label with
      | http action =>
          obtain ⟨server, stepped, rfl⟩ := Option.map_eq_some_iff.mp taken
          exact ⟨sound.1, step_current world.server server action sound.2 stepped⟩
      | query connection deviceType deviceNo action =>
          obtain ⟨-, is⟩ := Option.ite_none_right_eq_some.mp taken
          cases is
          exact sound
      | message topic payload =>
          cases taken
          exact message_sound topic payload sound timely

theorem sound_proper (state : Run World) (sound : Sound state) : Proper state := by
  cases state with
  | error fault => trivial
  | ok world => exact sound.1

theorem untimely_step (parse : String → Option Json) (state : Run World) (label : Label)
    (sound : Sound state) (untimely : ¬ Timely parse state label) :
    ∃ next, World.step parse state label = some next ∧ ¬ Proper next := by
  cases state with
  | error fault => exact absurd trivial untimely
  | ok world =>
      cases label with
      | http action => exact absurd trivial untimely
      | query connection deviceType deviceNo action => exact absurd trivial untimely
      | message topic payload =>
          exact ⟨_, rfl, untimely_improper topic payload sound untimely⟩

theorem fresh_sound : Sound (.ok .fresh) := by
  refine ⟨⟨fun sent member => ?_, List.nodup_nil⟩, fun fd connection found => ?_⟩
  · cases member
  · cases found

def answerText : String :=
  "\x7b\"device_no\":2,\"device_type\":1,\"query_details\":\x7b\"action\":\"version\"\x7d\x7d"

def parseAnswer (payload : String) : Option Json :=
  if payload = answerText then some (.object [("device_no", .integer 2), ("device_type", .integer 1),
    ("query_details", .object [("action", .string "version")])])
  else none

/-- A connection asks and goes away, and the next one gets its descriptor. -/
def descriptorTaken : List Label :=
  [.http (.handleClient 7 8 true), .http (.registEvent 7 true), .query 0 1 2 "version",
    .http (.close 0), .http (.retire 0), .http .reset, .http (.handleClient 7 9 true),
    .http (.registEvent 7 true), .message "/ota/1/2/responder" answerText]

end OtaMqtt.Ota.Answers
