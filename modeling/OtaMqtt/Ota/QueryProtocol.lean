import OtaMqtt.Lib.PubSub
import OtaMqtt.Lib.Trace
import OtaMqtt.Ota.Query

/-! One `ota_query` between the manager, the broker and a device (sherry/ota_manager.cc,
ota_query_responder.cc, mqtt_client.cc).

The manager is connected throughout. `publish` and `subscribe` of its client only hand a
packet to the connection. -/

namespace OtaMqtt.Ota.QueryProtocol

open OtaMqtt.Lib.PubSub OtaMqtt.Lib.Trace OtaMqtt.Ota

inductive Party where
  | manager
  | device
  deriving DecidableEq

/-- Where `ota_query` stands. -/
inductive Stage where
  | called
  | registered
  | published
  | subscribed
  deriving DecidableEq

/-- `invoked` lists the payloads with which the callback was called. -/
structure State where
  stage : Stage
  callbackMgr : OTAClientCallbackManager OTAQuery
  broker : Broker Party
  answered : Bool
  invoked : List String

inductive Label where
  | manager
  | managerReceives
  | broker (party : Party)
  | deviceSubscribes
  | deviceReceives

def fresh : State := ⟨.called, .fresh, .fresh, false, []⟩

/-- The topic of `publish_query`. -/
def queryTopic (query : OTAQuery) : String := formatOtaPrex query.deviceType query.deviceNo ++ "/query/"

section
variable (query : OTAQuery) (request answer : String)

/-- The next statement of `ota_query`; `request` is the text that `format_payload` makes. -/
def otaQuery (state : State) : Option State :=
  match state.stage with
  | .called => some { state with
      stage := .registered
      callbackMgr := state.callbackMgr.registCallback query.subTopic query }
  | .registered => some { state with
      stage := .published
      broker := state.broker.send .manager (.publish (queryTopic query) request true) }
  | .published => some { state with
      stage := .subscribed
      broker := state.broker.send .manager (.subscribe query.subTopic) }
  | .subscribed => none

/-- `subscribe_on_success` of a connected client. -/
def subscribeOnSuccess (broker : Broker Party) (pubTopic subTopic : String) : Broker Party :=
  (broker.send .manager (.unsubscribe subTopic)).send .manager (.publish pubTopic "" false)

/-- `on_message` and the callback of the query. -/
def onMessage (state : State) (message : Message) : State :=
  match state.callbackMgr.onMessage message.topic with
  | none => state
  | some query => { state with
      broker := subscribeOnSuccess state.broker query.pubTopic message.topic
      invoked := message.payload :: state.invoked }

def deviceReceives (state : State) (message : Message) : State :=
  if message.topic = queryTopic query ∧ state.answered = false then
    { state with
      answered := true
      broker := state.broker.send .device (.publish query.subTopic answer false) }
  else state

def step (state : State) : Label → Option State
  | .manager => otaQuery query request state
  | .managerReceives => (state.broker.receive .manager).map fun (message, broker) =>
      onMessage { state with broker := broker } message
  | .broker party => (state.broker.take party).map fun broker => { state with broker := broker }
  | .deviceSubscribes => some { state with
      broker := state.broker.send .device (.subscribe (queryTopic query)) }
  | .deviceReceives => (state.broker.receive .device).map fun (message, broker) =>
      deviceReceives query answer { state with broker := broker } message

/-- When the broker takes a publication on the responder topic from the device, the
subscription of the manager is in force. -/
def InForce (state : State) : Label → Prop
  | .broker .device => ∀ packet ∈ (state.broker.up .device).head?,
      (∃ payload retain, packet = .publish query.subTopic payload retain) →
        query.subTopic ∈ state.broker.subscriptions .manager
  | _ => True

def answerPacket : Packet := .publish query.subTopic answer false

/-- No message on the responder topic is on its way to the manager. -/
def Quiet (state : State) : Prop :=
  ∀ payload, Message.mk query.subTopic payload ∉ state.broker.down .manager

inductive Place where
  | unsent
  | sent
  | delivered
  | taken
  | lost

def At (state : State) : Place → Prop
  | .unsent => state.answered = false ∧
      (state.broker.up .device).count (answerPacket query answer) = 0 ∧ Quiet query state ∧
      state.invoked = []
  | .sent => state.answered = true ∧
      (state.broker.up .device).count (answerPacket query answer) = 1 ∧ Quiet query state ∧
      state.invoked = []
  | .delivered => state.answered = true ∧
      (state.broker.up .device).count (answerPacket query answer) = 0 ∧
      Message.mk query.subTopic answer ∈ state.broker.down .manager
  | .taken => state.answered = true ∧
      (state.broker.up .device).count (answerPacket query answer) = 0 ∧ answer ∈ state.invoked
  | .lost => state.answered = true ∧
      (state.broker.up .device).count (answerPacket query answer) = 0 ∧ Quiet query state ∧
      state.invoked = []

/-- Before the query is published nothing has happened but subscriptions of the device. -/
structure Early (state : State) : Prop where
  answered : state.answered = false
  up : state.broker.up .manager = []
  retained : ∀ topic, state.broker.retained topic = none
  down : ∀ party, state.broker.down party = []

structure Ready (state : State) : Prop where
  early : state.stage = .called ∨ state.stage = .registered → Early state
  known : state.stage ≠ .called → state.callbackMgr.onMessage query.subTopic = some query
  callbacks : ∀ topic found, state.callbackMgr.onMessage topic = some found →
    topic = query.subTopic ∧ found = query
  managerPackets : ∀ payload retain,
    Packet.publish query.subTopic payload retain ∉ state.broker.up .manager
  devicePackets : ∀ packet ∈ state.broker.up .device,
    packet = .subscribe (queryTopic query) ∨ packet = answerPacket query answer
  retained : state.broker.retained query.subTopic = none
  messages : ∀ payload, Message.mk query.subTopic payload ∈ state.broker.down .manager →
    payload = answer

structure Calm (state next : State) : Prop where
  answered : next.answered = state.answered
  invoked : next.invoked = state.invoked
  count : (next.broker.up .device).count (answerPacket query answer) =
    (state.broker.up .device).count (answerPacket query answer)
  down : ∀ payload, Message.mk query.subTopic payload ∈ next.broker.down .manager ↔
    Message.mk query.subTopic payload ∈ state.broker.down .manager

end

theorem queryTopic_ne (query : OTAQuery) : queryTopic query ≠ query.subTopic := by
  intro same
  have chars := congrArg String.toList same
  rw [queryTopic, OTAQuery.subTopic, String.toList_append, String.toList_append] at chars
  exact absurd (List.append_cancel_left chars) (by decide)

theorem pubTopic_ne (query : OTAQuery) : query.pubTopic ≠ query.subTopic := by
  intro same
  have chars := congrArg String.toList same
  rw [OTAQuery.pubTopic, OTAQuery.subTopic, String.toList_append, String.toList_append] at chars
  exact absurd (List.append_cancel_left chars) (by decide)

section
variable {query : OTAQuery} {request answer : String} {state next : State}

theorem calm_at (calm : Calm query answer state next) (place : Place)
    (here : At query answer state place) : At query answer next place := by
  have quiet : Quiet query state → Quiet query next := fun quiet payload member =>
    quiet payload ((calm.down payload).mp member)
  cases place with
  | unsent => exact ⟨calm.answered.trans here.1, calm.count.trans here.2.1, quiet here.2.2.1,
      calm.invoked.trans here.2.2.2⟩
  | sent => exact ⟨calm.answered.trans here.1, calm.count.trans here.2.1, quiet here.2.2.1,
      calm.invoked.trans here.2.2.2⟩
  | delivered => exact ⟨calm.answered.trans here.1, calm.count.trans here.2.1,
      (calm.down answer).mpr here.2.2⟩
  | taken => exact ⟨calm.answered.trans here.1, calm.count.trans here.2.1, calm.invoked ▸ here.2.2⟩
  | lost => exact ⟨calm.answered.trans here.1, calm.count.trans here.2.1, quiet here.2.2.1,
      calm.invoked.trans here.2.2.2⟩

theorem device_ne_manager : Party.device ≠ Party.manager := by decide

theorem send_manager_ready (stage : Stage) (packet : Packet) (ready : Ready query answer state)
    (begun : state.stage ≠ .called) (late : ¬ (stage = .called ∨ stage = .registered))
    (other : ∀ payload retain, packet ≠ .publish query.subTopic payload retain) :
    Ready query answer { state with stage := stage, broker := state.broker.send .manager packet } ∧
      Calm query answer state
        { state with stage := stage, broker := state.broker.send .manager packet } := by
  refine ⟨⟨fun early => absurd early late, fun _ => ready.known begun, ready.callbacks,
    fun payload retain member => ?_, fun packet member => ?_, ready.retained, ready.messages⟩, rfl, rfl,
    ?_, fun _ => Iff.rfl⟩
  · rcases (mem_send packet _ Party.manager).mp member with old | ⟨-, new⟩
    · exact ready.managerPackets payload retain old
    · exact other payload retain new.symm
  · apply ready.devicePackets packet
    rwa [send_other _ _ device_ne_manager] at member
  · dsimp only
    rw [send_other _ _ device_ne_manager]

theorem manager_step (ready : Ready query answer state)
    (taken : otaQuery query request state = some next) :
    Ready query answer next ∧ Calm query answer state next := by
  unfold otaQuery at taken
  split at taken
  · rename_i stage
    cases taken
    refine ⟨⟨fun _ => ?_, fun _ => AList.lookup_insert _, fun topic found looked => ?_,
      ready.managerPackets, ready.devicePackets, ready.retained, ready.messages⟩, rfl, rfl, rfl,
      fun _ => Iff.rfl⟩
    · obtain ⟨answered, up, retained, down⟩ := ready.early (.inl stage)
      exact ⟨answered, up, retained, down⟩
    · by_cases same : topic = query.subTopic
      · rw [same] at looked ⊢
        exact ⟨rfl, (Option.some.inj ((AList.lookup_insert _).symm.trans looked)).symm⟩
      · exact ready.callbacks topic found ((AList.lookup_insert_ne same).symm.trans looked)
  · rename_i stage
    cases taken
    apply send_manager_ready _ _ ready
    · rw [stage]
      decide
    · simp
    · intro payload retain same
      exact queryTopic_ne query (Packet.publish.inj same).1
  · rename_i stage
    cases taken
    apply send_manager_ready _ _ ready
    · rw [stage]
      decide
    · simp
    · intro payload retain same
      cases same
  · cases taken

theorem deviceSubscribes_step (ready : Ready query answer state) :
    Ready query answer { state with
        broker := state.broker.send .device (.subscribe (queryTopic query)) } ∧
      Calm query answer state { state with
        broker := state.broker.send .device (.subscribe (queryTopic query)) } := by
  refine ⟨⟨fun early => ?_, ready.known, ready.callbacks, fun payload retain member => ?_,
    fun packet member => ?_, ready.retained, ready.messages⟩, rfl, rfl, ?_, fun _ => Iff.rfl⟩
  · obtain ⟨answered, up, retained, down⟩ := ready.early early
    exact ⟨answered, (send_other _ _ device_ne_manager.symm).trans up, retained, down⟩
  · dsimp only at member
    rw [send_other _ _ device_ne_manager.symm] at member
    exact ready.managerPackets payload retain member
  · rcases (mem_send _ packet Party.device).mp member with old | ⟨-, new⟩
    · exact ready.devicePackets packet old
    · exact .inl new
  · dsimp only [Broker.send]
    rw [Function.update_self, List.count_append]
    rfl

theorem broker_manager_step (broker : Broker Party) (ready : Ready query answer state)
    (taken : state.broker.take .manager = some broker) :
    Ready query answer { state with broker := broker } ∧
      Calm query answer state { state with broker := broker } := by
  obtain ⟨packet, packets, queue, up, down, retained⟩ := take_cases taken
  have other : ∀ payload retain, packet ≠ .publish query.subTopic payload retain := by
    rintro payload retain rfl
    apply ready.managerPackets payload retain
    rw [queue]
    exact List.mem_cons_self
  have upDevice : broker.up .device = state.broker.up .device := by
    rw [up, Function.update_of_ne device_ne_manager]
  have upManager : broker.up .manager = packets := by
    rw [up, Function.update_self]
  have same : ∀ payload, Message.mk query.subTopic payload ∈ broker.down .manager ↔
      Message.mk query.subTopic payload ∈ state.broker.down .manager := by
    intro payload
    rw [down]
    constructor
    · rintro (old | ⟨retain, published, -⟩ | ⟨-, -, kept⟩)
      · exact old
      · exact absurd published (other payload retain)
      · rw [ready.retained] at kept
        cases kept
    · exact .inl
  refine ⟨⟨fun early => ?_, ready.known, ready.callbacks, fun payload retain member => ?_,
    fun packet member => ?_, ?_, fun payload member => ?_⟩, rfl, rfl, ?_, same⟩
  · rw [(ready.early early).up] at queue
    cases queue
  · apply ready.managerPackets payload retain
    rw [queue]
    dsimp only at member
    rw [upManager] at member
    exact List.mem_cons_of_mem _ member
  · apply ready.devicePackets packet
    dsimp only at member
    rwa [upDevice] at member
  · exact (retained query.subTopic fun payload => other payload true).trans ready.retained
  · exact ready.messages payload ((same payload).mp member)
  · dsimp only
    rw [upDevice]

theorem unsent_of_unanswered (place : Place) (here : At query answer state place)
    (unanswered : state.answered = false) : At query answer state .unsent := by
  have never : state.answered ≠ true := by
    rw [unanswered]
    decide
  cases place with
  | unsent => exact here
  | sent => exact absurd here.1 never
  | delivered => exact absurd here.1 never
  | taken => exact absurd here.1 never
  | lost => exact absurd here.1 never

theorem sent_of_packet (place : Place) (here : At query answer state place)
    (waiting : answerPacket query answer ∈ state.broker.up .device) : At query answer state .sent := by
  have some := List.count_pos_iff.mpr waiting
  cases place with
  | unsent => exact absurd here.2.1 (Nat.pos_iff_ne_zero.mp some)
  | sent => exact here
  | delivered => exact absurd here.2.1 (Nat.pos_iff_ne_zero.mp some)
  | taken => exact absurd here.2.1 (Nat.pos_iff_ne_zero.mp some)
  | lost => exact absurd here.2.1 (Nat.pos_iff_ne_zero.mp some)

theorem broker_device_ready (broker : Broker Party) (place : Place) (ready : Ready query answer state)
    (here : At query answer state place) (taken : state.broker.take .device = some broker) :
    Ready query answer { state with broker := broker } := by
  obtain ⟨packet, packets, queue, up, down, retained⟩ := take_cases taken
  have head : packet ∈ state.broker.up .device := by
    rw [queue]
    exact List.mem_cons_self
  have upDevice : broker.up .device = packets := by
    rw [up, Function.update_self]
  have upManager : broker.up .manager = state.broker.up .manager := by
    rw [up, Function.update_of_ne device_ne_manager.symm]
  have unretained : ∀ topic payload, packet ≠ .publish topic payload true := by
    rintro topic payload rfl
    rcases ready.devicePackets _ head with is | is
    · cases is
    · cases is
  refine ⟨fun early => ?_, ready.known, ready.callbacks, fun payload retain member => ?_,
    fun other member => ?_, ?_, fun payload member => ?_⟩
  · obtain ⟨unanswered, silent, forgotten, idle⟩ := ready.early early
    refine ⟨unanswered, upManager.trans silent, fun topic => ?_, fun party => ?_⟩
    · exact (retained topic (unretained topic)).trans (forgotten topic)
    · apply List.eq_nil_iff_forall_not_mem.mpr
      intro message member
      rcases (down message party).mp member with old | ⟨retain, published, -⟩ | ⟨-, -, kept⟩
      · rw [idle party] at old
        cases old
      · rcases ready.devicePackets _ head with is | is
        · rw [is] at published
          cases published
        · have answered := (sent_of_packet place here (is ▸ head)).1
          rw [unanswered] at answered
          cases answered
      · rw [forgotten] at kept
        cases kept
  · dsimp only at member
    rw [upManager] at member
    exact ready.managerPackets payload retain member
  · apply ready.devicePackets other
    dsimp only at member
    rw [upDevice] at member
    rw [queue]
    exact List.mem_cons_of_mem _ member
  · exact (retained _ (unretained _)).trans ready.retained
  · rcases (down _ _).mp member with old | ⟨retain, published, -⟩ | ⟨-, -, kept⟩
    · exact ready.messages payload old
    · rcases ready.devicePackets _ head with is | is
      · rw [is] at published
        cases published
      · rw [is] at published
        cases published
        rfl
    · rw [ready.retained] at kept
      cases kept

theorem broker_device_other (broker : Broker Party) (ready : Ready query answer state)
    (taken : state.broker.take .device = some broker)
    (other : ∀ packet ∈ (state.broker.up .device).head?, packet ≠ answerPacket query answer) :
    Calm query answer state { state with broker := broker } := by
  obtain ⟨packet, packets, queue, up, down, -⟩ := take_cases taken
  rw [queue] at other
  have apart := other packet rfl
  have subscribing : packet = .subscribe (queryTopic query) :=
    (ready.devicePackets packet (by rw [queue]; exact List.mem_cons_self)).resolve_right apart
  refine ⟨rfl, rfl, ?_, fun payload => ?_⟩
  · dsimp only
    rw [up, Function.update_self, queue, List.count_cons_of_ne apart]
  · dsimp only
    rw [down]
    constructor
    · rintro (old | ⟨retain, published, -⟩ | ⟨-, same, -⟩)
      · exact old
      · rw [subscribing] at published
        cases published
      · cases same
    · exact .inl

/-- The broker takes the answer: it passes it on to a subscriber, and else forgets it. -/
theorem broker_device_answer (broker : Broker Party) (place : Place)
    (here : At query answer state place) (taken : state.broker.take .device = some broker)
    (first : (state.broker.up .device).head? = some (answerPacket query answer)) :
    (query.subTopic ∈ state.broker.subscriptions .manager →
      At query answer { state with broker := broker } .delivered) ∧
    (query.subTopic ∉ state.broker.subscriptions .manager →
      At query answer { state with broker := broker } .lost) := by
  obtain ⟨packet, packets, queue, up, down, -⟩ := take_cases taken
  rw [queue] at first
  cases first
  obtain ⟨answered, count, quiet, idle⟩ := sent_of_packet place here (by
    rw [queue]
    exact List.mem_cons_self)
  have gone : (broker.up .device).count (answerPacket query answer) = 0 := by
    rw [queue, List.count_cons_self] at count
    rw [up, Function.update_self]
    omega
  constructor
  · intro subscribed
    refine ⟨answered, gone, ?_⟩
    exact (down _ _).mpr (.inr (.inl ⟨false, rfl, subscribed⟩))
  · intro missing
    refine ⟨answered, gone, fun payload member => ?_, idle⟩
    rcases (down _ _).mp member with old | ⟨-, -, subscribed⟩ | ⟨is, -⟩
    · exact quiet payload old
    · exact missing subscribed
    · cases is

theorem receive_ready (party : Party) (message : Message) (broker : Broker Party)
    (ready : Ready query answer state) (received : state.broker.receive party = some (message, broker)) :
    Ready query answer { state with broker := broker } := by
  obtain ⟨messages, queue, rfl⟩ := receive_cases received
  refine ⟨fun early => ?_, ready.known, ready.callbacks, ready.managerPackets, ready.devicePackets,
    ready.retained, fun payload member => ?_⟩
  · have idle := (ready.early early).down party
    rw [queue] at idle
    cases idle
  · apply ready.messages payload
    dsimp only at member
    by_cases same : Party.manager = party
    · rw [same, Function.update_self] at member
      rw [same, queue]
      exact List.mem_cons_of_mem _ member
    · rwa [Function.update_of_ne same] at member

theorem receive_calm (party : Party) (message : Message) (broker : Broker Party)
    (received : state.broker.receive party = some (message, broker))
    (other : party = .manager → message.topic ≠ query.subTopic) :
    Calm query answer state { state with broker := broker } := by
  obtain ⟨messages, queue, rfl⟩ := receive_cases received
  refine ⟨rfl, rfl, rfl, fun payload => ?_⟩
  dsimp only
  by_cases same : Party.manager = party
  · rw [same, Function.update_self, queue, List.mem_cons]
    constructor
    · exact .inr
    · rintro (first | later)
      · exact absurd (congrArg Message.topic first).symm (other same.symm)
      · exact later
  · rw [Function.update_of_ne same]

theorem taken_of_message (place : Place) (payload : String) (here : At query answer state place)
    (waiting : Message.mk query.subTopic payload ∈ state.broker.down .manager) :
    state.answered = true ∧ (state.broker.up .device).count (answerPacket query answer) = 0 := by
  cases place with
  | unsent => exact absurd waiting (here.2.2.1 payload)
  | sent => exact absurd waiting (here.2.2.1 payload)
  | delivered => exact ⟨here.1, here.2.1⟩
  | taken => exact ⟨here.1, here.2.1⟩
  | lost => exact absurd waiting (here.2.2.1 payload)

/-- The manager gets a message: the answer, with which the callback is called, or another. -/
theorem managerReceives_step (message : Message) (broker : Broker Party) (place : Place)
    (ready : Ready query answer state) (here : At query answer state place)
    (received : state.broker.receive .manager = some (message, broker)) :
    Ready query answer (onMessage { state with broker := broker } message) ∧
      (At query answer (onMessage { state with broker := broker } message) place ∨
        ¬ Quiet query state ∧
          At query answer (onMessage { state with broker := broker } message) .taken) := by
  have popped := receive_ready .manager message broker ready received
  obtain ⟨messages, queue, rest⟩ := receive_cases received
  have first : message ∈ state.broker.down .manager := by
    rw [queue]
    exact List.mem_cons_self
  have late : ¬ (state.stage = .called ∨ state.stage = .registered) := by
    intro early
    rw [(ready.early early).down] at first
    cases first
  have begun : state.stage ≠ .called := fun is => late (.inl is)
  unfold onMessage
  split
  · rename_i missing
    have other : message.topic ≠ query.subTopic := by
      intro same
      rw [same, ready.known begun] at missing
      cases missing
    exact ⟨popped, .inl (calm_at (receive_calm .manager message broker received fun _ => other) place
      here)⟩
  · rename_i found looked
    obtain ⟨topic, rfl⟩ := ready.callbacks message.topic found looked
    obtain ⟨topic', payload⟩ := message
    cases topic
    have payload_eq := ready.messages payload first
    obtain ⟨once, -⟩ := send_manager_ready state.stage (.unsubscribe found.subTopic) popped begun late
      fun _ _ same => by cases same
    obtain ⟨twice, -⟩ := send_manager_ready state.stage (.publish found.pubTopic "" false) once begun late
      fun _ _ same => pubTopic_ne found (Packet.publish.inj same).1
    obtain ⟨answered, count⟩ := taken_of_message place payload here first
    refine ⟨⟨fun early => absurd early late, twice.known, twice.callbacks, twice.managerPackets,
      twice.devicePackets, twice.retained, twice.messages⟩, .inr ⟨fun quiet => quiet payload first,
      answered, ?_, ?_⟩⟩
    · dsimp only [subscribeOnSuccess]
      rw [send_other _ _ device_ne_manager, send_other _ _ device_ne_manager, rest]
      exact count
    · rw [payload_eq]
      exact List.mem_cons_self

theorem deviceReceives_step (message : Message) (broker : Broker Party) (place : Place)
    (ready : Ready query answer state) (here : At query answer state place)
    (received : state.broker.receive .device = some (message, broker)) :
    Ready query answer (deviceReceives query answer { state with broker := broker } message) ∧
      (At query answer (deviceReceives query answer { state with broker := broker } message) place ∨
        state.answered = false ∧
          At query answer (deviceReceives query answer { state with broker := broker } message) .sent) := by
  have popped := receive_ready .device message broker ready received
  have calm : Calm query answer state { state with broker := broker } :=
    receive_calm .device message broker received fun is => by cases is
  unfold deviceReceives
  split
  · rename_i asked
    have unanswered : state.answered = false := asked.2
    obtain ⟨-, count, quiet, idle⟩ := unsent_of_unanswered place (calm_at calm place here) unanswered
    refine ⟨⟨fun early => ?_, popped.known, popped.callbacks, fun payload retain member => ?_,
      fun packet member => ?_, popped.retained, popped.messages⟩, .inr ⟨unanswered, rfl, ?_, quiet, idle⟩⟩
    · obtain ⟨messages, queue, -⟩ := receive_cases received
      have silent := (ready.early early).down .device
      rw [queue] at silent
      cases silent
    · dsimp only at member
      rw [send_other _ _ device_ne_manager.symm] at member
      exact popped.managerPackets payload retain member
    · rcases (mem_send _ packet Party.device).mp member with old | ⟨-, new⟩
      · exact popped.devicePackets packet old
      · exact .inr new
    · dsimp only [Broker.send] at count ⊢
      rw [Function.update_self, List.count_append, count, ← answerPacket, List.count_singleton_self]
  · exact ⟨popped, .inl (calm_at calm place here)⟩

theorem broker_device_step (broker : Broker Party) (place : Place) (ready : Ready query answer state)
    (here : At query answer state place) (taken : state.broker.take .device = some broker) :
    (InForce query state (.broker .device) ∧ ∃ place', (place' = .lost ↔ place = .lost) ∧
        At query answer { state with broker := broker } place') ∨
      (¬ InForce query state (.broker .device) ∧ place ≠ .lost ∧
        At query answer { state with broker := broker } .lost) := by
  by_cases first : (state.broker.up .device).head? = some (answerPacket query answer)
  · have sent := sent_of_packet place here (List.mem_of_head? first)
    have alive : place ≠ .lost := by
      rintro rfl
      exact absurd (here.2.1.symm.trans sent.2.1) (by decide)
    obtain ⟨delivered, lost⟩ := broker_device_answer broker place here taken first
    by_cases subscribed : query.subTopic ∈ state.broker.subscriptions .manager
    · refine .inl ⟨fun _ _ _ => subscribed, .delivered, ?_, delivered subscribed⟩
      simp only [reduceCtorEq, alive]
    · refine .inr ⟨fun inForce => ?_, alive, lost subscribed⟩
      exact subscribed (inForce _ first ⟨answer, false, rfl⟩)
  · have other : ∀ packet ∈ (state.broker.up .device).head?, packet ≠ answerPacket query answer := by
      rintro packet head rfl
      exact first head
    refine .inl ⟨?_, place, Iff.rfl, calm_at (broker_device_other broker ready taken other) place here⟩
    rintro packet head ⟨payload, retain, rfl⟩
    rcases ready.devicePackets _ (List.mem_of_head? head) with is | is
    · cases is
    · exact absurd is (other _ head)

theorem step_place (label : Label) (place : Place) (ready : Ready query answer state)
    (here : At query answer state place) (taken : step query request answer state label = some next) :
    Ready query answer next ∧
      ((InForce query state label ∧ ∃ place', (place' = .lost ↔ place = .lost) ∧
          At query answer next place') ∨
        (¬ InForce query state label ∧ place ≠ .lost ∧ At query answer next .lost)) := by
  cases label with
  | manager =>
      obtain ⟨ready', calm⟩ := manager_step ready taken
      exact ⟨ready', .inl ⟨trivial, place, Iff.rfl, calm_at calm place here⟩⟩
  | managerReceives =>
      obtain ⟨⟨message, broker⟩, received, rfl⟩ := Option.map_eq_some_iff.mp taken
      obtain ⟨ready', same | ⟨loud, there⟩⟩ := managerReceives_step message broker place ready here received
      · exact ⟨ready', .inl ⟨trivial, place, Iff.rfl, same⟩⟩
      · have alive : place ≠ .lost := by
          rintro rfl
          exact loud here.2.2.1
        exact ⟨ready', .inl ⟨trivial, .taken, by simp only [reduceCtorEq, alive], there⟩⟩
  | broker party =>
      obtain ⟨broker, took, rfl⟩ := Option.map_eq_some_iff.mp taken
      cases party with
      | manager =>
          obtain ⟨ready', calm⟩ := broker_manager_step broker ready took
          exact ⟨ready', .inl ⟨trivial, place, Iff.rfl, calm_at calm place here⟩⟩
      | device =>
          exact ⟨broker_device_ready broker place ready here took,
            broker_device_step broker place ready here took⟩
  | deviceSubscribes =>
      cases taken
      obtain ⟨ready', calm⟩ := deviceSubscribes_step ready
      exact ⟨ready', .inl ⟨trivial, place, Iff.rfl, calm_at calm place here⟩⟩
  | deviceReceives =>
      obtain ⟨⟨message, broker⟩, received, rfl⟩ := Option.map_eq_some_iff.mp taken
      obtain ⟨ready', same | ⟨unanswered, there⟩⟩ :=
        deviceReceives_step message broker place ready here received
      · exact ⟨ready', .inl ⟨trivial, place, Iff.rfl, same⟩⟩
      · have alive : place ≠ .lost := by
          rintro rfl
          rw [here.1] at unanswered
          cases unanswered
        exact ⟨ready', .inl ⟨trivial, .sent, by simp only [reduceCtorEq, alive], there⟩⟩

theorem fresh_ready : Ready query answer fresh ∧ At query answer fresh .unsent := by
  refine ⟨⟨fun _ => ⟨rfl, rfl, fun _ => rfl, fun _ => rfl⟩, fun begun => absurd rfl begun,
    fun topic found looked => ?_, fun payload retain member => ?_, fun packet member => ?_, rfl,
    fun payload member => ?_⟩, rfl, rfl, fun payload member => ?_, rfl⟩
  · cases looked
  · cases member
  · cases member
  · cases member
  · cases member

theorem settled_invoked (place : Place) (here : At query answer state place)
    (answered : state.answered = true) (idle : state.broker.Idle) (alive : place ≠ .lost) :
    answer ∈ state.invoked := by
  cases place with
  | unsent =>
      rw [here.1] at answered
      cases answered
  | sent =>
      have count := here.2.1
      rw [(idle .device).1] at count
      cases count
  | delivered =>
      have member := here.2.2
      rw [(idle .manager).2] at member
      cases member
  | taken => exact here.2.2
  | lost => exact absurd rfl alive

end

/-- When the device has answered and everything is delivered, the callback has been called with
the answer exactly when the broker had the manager's subscription before it took the answer. -/
theorem invoked_iff_inForce (query : OTAQuery) (request answer : String) (labels : List Label)
    (final : State) (ran : run (step query request answer) fresh labels = some final)
    (answered : final.answered = true) (idle : final.broker.Idle) :
    answer ∈ final.invoked ↔ Guarded (step query request answer) (InForce query) fresh labels := by
  rcases @run_dichotomy State Label (step query request answer) (InForce query)
      (fun state => Ready query answer state ∧ ∃ place, place ≠ .lost ∧ At query answer state place)
      (fun state => Ready query answer state ∧ At query answer state .lost)
      (fun state label next ⟨ready, place, alive, here⟩ inForce taken => by
        obtain ⟨ready', ⟨-, place', same, there⟩ | ⟨refused, -⟩⟩ := step_place label place ready here taken
        · exact ⟨ready', place', fun lost => alive (same.mp lost), there⟩
        · exact absurd inForce refused)
      (fun state label next ⟨ready, place, alive, here⟩ refused taken => by
        obtain ⟨ready', ⟨inForce, -⟩ | ⟨-, -, there⟩⟩ := step_place label place ready here taken
        · exact absurd inForce refused
        · exact ⟨ready', there⟩)
      (fun state label next ⟨ready, here⟩ taken => by
        obtain ⟨ready', ⟨-, place', same, there⟩ | ⟨-, alive, -⟩⟩ := step_place label .lost ready here taken
        · exact ⟨ready', same.mpr rfl ▸ there⟩
        · exact absurd rfl alive)
      labels fresh final ⟨fresh_ready.1, .unsent, Place.noConfusion, fresh_ready.2⟩ ran with
    ⟨guarded, -, place, alive, here⟩ | ⟨refused, -, here⟩
  · exact ⟨fun _ => guarded, fun _ => settled_invoked place here answered idle alive⟩
  · refine ⟨fun member => ?_, fun guarded => absurd guarded refused⟩
    rw [here.2.2.2] at member
    cases member

/-- The device listens and answers while the manager has not subscribed yet. -/
def fastDevice : List Label :=
  [.deviceSubscribes, .broker .device, .manager, .manager, .broker .manager, .deviceReceives,
    .broker .device, .manager, .broker .manager]

/-- The device listens only after the manager has subscribed, and gets the retained query. -/
def slowDevice : List Label :=
  [.manager, .manager, .manager, .broker .manager, .broker .manager, .deviceSubscribes,
    .broker .device, .deviceReceives, .broker .device, .managerReceives, .broker .manager,
    .broker .manager]

theorem fast_device_missed :
    ¬ ∀ (query : OTAQuery) (request answer : String) (labels : List Label) (final : State),
      run (step query request answer) fresh labels = some final → final.stage = .subscribed →
        final.answered = true → final.broker.Idle → answer ∈ final.invoked := by
  intro always_invoked
  have invoked := always_invoked ⟨1, 2, "version", 10⟩ "ask" "reply" fastDevice _ rfl rfl rfl
    (fun party => by cases party <;> exact ⟨rfl, rfl⟩)
  cases invoked

theorem slow_device_heard :
    ∃ final, run (step ⟨1, 2, "version", 10⟩ "ask" "reply") fresh slowDevice = some final ∧
      ("reply" ∈ final.invoked ↔
        Guarded (step ⟨1, 2, "version", 10⟩ "ask" "reply") (InForce ⟨1, 2, "version", 10⟩) fresh
          slowDevice) :=
  ⟨_, rfl, invoked_iff_inForce _ _ _ slowDevice _ rfl rfl fun party => by
    cases party <;> exact ⟨rfl, rfl⟩⟩

end OtaMqtt.Ota.QueryProtocol
