import OtaMqtt.Ota.QueryProtocol

/-! What the payloads on the responder topic do to a pending `ota_query` (sherry/ota_manager.cc,
ota_query_responder.cc).

The query is published and its subscription is in force. Anyone may publish on the responder
topic, and the broker keeps the session of a manager that has lost its connection. A response is
sent when it is handed to `response_to_server`; its way from there on is in `Http.Delivery`. -/

namespace OtaMqtt.Ota.Rejections

open OtaMqtt.Lib OtaMqtt.Lib.PubSub OtaMqtt.Lib.Trace
open OtaMqtt.Ota OtaMqtt.Ota.QueryProtocol

/-- How `subscribe_on_success` finds the client; `restored` is a connect that succeeds. -/
inductive Connection where
  | connected
  | restored
  | lost
  deriving DecidableEq

/-- `published` lists the payloads on the responder topic and `received` those with which the
callback was called, the last one first; `responses` are the values for `response_to_server`. -/
structure World where
  callbackMgr : OTAClientCallbackManager OTAQuery
  broker : Broker Party
  published : List String
  received : List String
  responses : List Json

inductive Label where
  | publish (payload : String) (retain : Bool)
  | broker (party : Party)
  | receive (connection : Connection)

def subscribeOnSuccess (broker : Broker Party) (connection : Connection)
    (pubTopic subTopic : String) : Broker Party :=
  match connection with
  | .connected => QueryProtocol.subscribeOnSuccess broker pubTopic subTopic
  | .restored => broker.send .manager (.publish pubTopic "" false)
  | .lost => broker

section
variable (parse : String → Option Json) (query : OTAQuery) (request : String)

/-- `ota_query` has returned, and the broker has taken its two packets. -/
def pending : World where
  callbackMgr := OTAClientCallbackManager.fresh.registCallback query.subTopic query
  broker := (Broker.fresh.handle Party.manager (.publish (queryTopic query) request true)).handle
    .manager (.subscribe query.subTopic)
  published := []
  received := []
  responses := []

/-- `on_message` and the callback, which cleans up before it looks at the payload. -/
def onMessage (world : World) (connection : Connection) (message : Message) : World :=
  match world.callbackMgr.onMessage message.topic with
  | none => world
  | some query => { world with
      broker := subscribeOnSuccess world.broker connection query.pubTopic message.topic
      received := message.payload :: world.received
      responses := (query.callback parse message.payload).toList ++ world.responses }

def step (world : World) : Label → Option World
  | .publish payload retain => some { world with
      broker := world.broker.send .device (.publish query.subTopic payload retain)
      published := payload :: world.published }
  | .broker party => (world.broker.take party).map fun broker => { world with broker := broker }
  | .receive connection => (world.broker.receive .manager).map fun (message, broker) =>
      onMessage parse { world with broker := broker } connection message

def Valid (payload : String) : Prop := (query.callback parse payload).isSome = true

/-- The callback has got nothing but payloads that it rejects. -/
def Waiting (world : World) : Prop := ∀ payload ∈ world.received, ¬ Valid parse query payload

/-- The subscription and the query stand, and nothing on its way will end them. -/
structure InPlace (world : World) : Prop where
  subscribed : query.subTopic ∈ world.broker.subscriptions .manager
  kept : .unsubscribe query.subTopic ∉ world.broker.up .manager
  published : world.broker.retained (queryTopic query) =
    (pending query request).broker.retained (queryTopic query)
  uncleared : ∀ payload, .publish (queryTopic query) payload true ∉ world.broker.up .manager

/-- Rejected payloads leave the query in place, the first that is valid makes the response, and
when nothing is on its way a response was sent if and only if a valid payload was published. -/
structure Proper (world : World) : Prop where
  inPlace : Waiting parse query world → InPlace query request world
  first : world.responses.getLast? = world.received.reverse.findSome? (query.callback parse)
  answered : world.broker.Idle →
    (world.responses ≠ [] ↔ ∃ payload ∈ world.published, Valid parse query payload)

/-- While the query waits, a connected client gets no payload that its callback rejects. -/
def Accepted (world : World) : Label → Prop
  | .receive .connected => Waiting parse query world →
      ∀ message ∈ (world.broker.down .manager).head?, Valid parse query message.payload
  | _ => True

structure Sound (world : World) : Prop where
  inPlace : Waiting parse query world → InPlace query request world
  first : world.responses.getLast? = world.received.reverse.findSome? (query.callback parse)
  callbacks : world.callbackMgr = (pending query request).callbackMgr
  topics : ∀ topic ∈ world.broker.subscriptions .manager, topic = query.subTopic
  devicePackets : ∀ packet ∈ world.broker.up .device, ∃ payload ∈ world.published, ∃ retain,
    packet = .publish query.subTopic payload retain
  managerPackets : ∀ packet ∈ world.broker.up .manager,
    packet = .unsubscribe query.subTopic ∨ packet = .publish query.pubTopic "" false
  messages : ∀ message ∈ world.broker.down .manager,
    message.topic = query.subTopic ∧ message.payload ∈ world.published
  received : ∀ payload ∈ world.received, payload ∈ world.published
  arriving : Waiting parse query world → ∀ payload ∈ world.published,
    (∃ retain, .publish query.subTopic payload retain ∈ world.broker.up .device) ∨
      ⟨query.subTopic, payload⟩ ∈ world.broker.down .manager ∨ payload ∈ world.received

end

section
variable {parse : String → Option Json} {query : OTAQuery} {request : String} {world : World}

theorem pending_sound : Sound parse query request (pending query request) := by
  have subscriptions : (pending query request).broker.subscriptions .manager = [query.subTopic] := rfl
  have up : ∀ party, (pending query request).broker.up party = [] := fun party => rfl
  have down : (pending query request).broker.down .manager = [] := by
    have kept : (Broker.fresh.handle Party.manager
        (.publish (queryTopic query) request true)).retained query.subTopic = none := by
      rw [handle_retained]
      · rfl
      · intro payload same
        exact queryTopic_ne query (Packet.publish.inj same).1
    change [] ++ ((Broker.retained _ query.subTopic).map (Message.mk query.subTopic)).toList = []
    rw [kept]
    rfl
  constructor
  · intro _
    refine ⟨?_, ?_, rfl, ?_⟩
    · rw [subscriptions]
      exact List.mem_singleton_self _
    · rw [up]
      exact List.not_mem_nil
    · intro payload
      rw [up]
      exact List.not_mem_nil
  · rfl
  · rfl
  · intro topic member
    rw [subscriptions] at member
    exact List.mem_singleton.mp member
  · intro packet member
    rw [up] at member
    cases member
  · intro packet member
    rw [up] at member
    cases member
  · intro message member
    rw [down] at member
    cases member
  · intro payload member
    cases member
  · intro _ payload member
    cases member

theorem InPlace.kept_by {next : World} (place : InPlace query request world)
    (subscribed : query.subTopic ∈ next.broker.subscriptions .manager)
    (fewer : ∀ packet ∈ next.broker.up .manager, packet ∈ world.broker.up .manager)
    (retained : next.broker.retained (queryTopic query) =
      world.broker.retained (queryTopic query)) : InPlace query request next where
  subscribed := subscribed
  kept := fun member => place.kept (fewer _ member)
  published := retained.trans place.published
  uncleared := fun payload member => place.uncleared payload (fewer _ member)

theorem publish_sound (payload : String) (retain : Bool) (sound : Sound parse query request world) :
    Sound parse query request { world with
      broker := world.broker.send .device (.publish query.subTopic payload retain)
      published := payload :: world.published } := by
  have manager : (world.broker.send Party.device (.publish query.subTopic payload retain)).up .manager =
      world.broker.up .manager := send_other _ _ device_ne_manager.symm
  constructor
  · intro waiting
    have place := sound.inPlace waiting
    exact place.kept_by place.subscribed (fun packet member => manager ▸ member) rfl
  · exact sound.first
  · exact sound.callbacks
  · exact sound.topics
  · intro packet member
    rcases (mem_send _ packet Party.device).mp member with old | ⟨-, new⟩
    · obtain ⟨other, published, sent⟩ := sound.devicePackets packet old
      exact ⟨other, List.mem_cons_of_mem _ published, sent⟩
    · exact ⟨payload, List.mem_cons_self, retain, new⟩
  · intro packet member
    rw [manager] at member
    exact sound.managerPackets packet member
  · intro message member
    obtain ⟨topic, published⟩ := sound.messages message member
    exact ⟨topic, List.mem_cons_of_mem _ published⟩
  · intro other member
    exact List.mem_cons_of_mem _ (sound.received other member)
  · intro waiting other member
    rcases List.mem_cons.mp member with rfl | old
    · exact .inl ⟨retain, (mem_send _ _ Party.device).mpr (.inr ⟨rfl, rfl⟩)⟩
    · rcases sound.arriving waiting other old with ⟨kind, sent⟩ | rest
      · exact .inl ⟨kind, (mem_send _ _ Party.device).mpr (.inl sent)⟩
      · exact .inr rest

theorem device_sound (broker : Broker Party) (sound : Sound parse query request world)
    (taken : world.broker.take .device = some broker) :
    Sound parse query request { world with broker := broker } := by
  obtain ⟨packet, packets, queue, up, down, retained⟩ := take_cases taken
  have subscriptions := take_subscriptions queue taken
  obtain ⟨payload, published, retain, rfl⟩ := sound.devicePackets packet (by
    rw [queue]
    exact List.mem_cons_self)
  have manager : broker.up .manager = world.broker.up .manager := by
    rw [up, Function.update_of_ne device_ne_manager.symm]
  have device : broker.up .device = packets := by
    rw [up, Function.update_self]
  have same : ∀ topic, topic ∈ broker.subscriptions .manager ↔
      topic ∈ world.broker.subscriptions .manager := by
    intro topic
    rw [subscriptions]
    simp
  constructor
  · intro waiting
    have place := sound.inPlace waiting
    apply place.kept_by ((same _).mpr place.subscribed) (fun packet member => manager ▸ member)
    apply retained
    intro other same
    exact queryTopic_ne query (Packet.publish.inj same).1.symm
  · exact sound.first
  · exact sound.callbacks
  · intro topic member
    exact sound.topics topic ((same topic).mp member)
  · intro packet member
    rw [device] at member
    apply sound.devicePackets packet
    rw [queue]
    exact List.mem_cons_of_mem _ member
  · intro packet member
    rw [manager] at member
    exact sound.managerPackets packet member
  · intro message member
    rcases (down message Party.manager).mp member with old | ⟨kind, sent, -⟩ | ⟨never, -⟩
    · exact sound.messages message old
    · obtain ⟨topic, text, -⟩ := Packet.publish.inj sent
      exact ⟨topic.symm, text ▸ published⟩
    · cases never
  · exact sound.received
  · intro waiting other member
    rcases sound.arriving waiting other member with ⟨kind, sent⟩ | arrived | received
    · rw [queue] at sent
      rcases List.mem_cons.mp sent with first | later
      · refine .inr (.inl ((down _ Party.manager).mpr (.inr (.inl ⟨retain, ?_, ?_⟩))))
        · rw [(Packet.publish.inj first).2.1]
        · exact (sound.inPlace waiting).subscribed
      · exact .inl ⟨kind, device ▸ later⟩
    · exact .inr (.inl ((down _ Party.manager).mpr (.inl arrived)))
    · exact .inr (.inr received)

theorem manager_silent (sound : Sound parse query request world) {packet : Packet}
    (present : packet ∈ world.broker.up .manager) (message : Message) :
    ¬ ((∃ retain, packet = .publish message.topic message.payload retain ∧
        message.topic ∈ world.broker.subscriptions .manager) ∨
      (packet = .subscribe message.topic ∧ Party.manager = Party.manager ∧
        world.broker.retained message.topic = some message.payload)) := by
  rintro (⟨retain, sent, subscribed⟩ | ⟨sent, -⟩)
  · rcases sound.managerPackets packet present with rfl | rfl
    · cases sent
    · have topic := (Packet.publish.inj sent).1
      rw [← topic] at subscribed
      exact pubTopic_ne query (sound.topics _ subscribed)
  · rcases sound.managerPackets packet present with rfl | rfl
    · cases sent
    · cases sent

theorem manager_sound (broker : Broker Party) (sound : Sound parse query request world)
    (taken : world.broker.take .manager = some broker) :
    Sound parse query request { world with broker := broker } := by
  obtain ⟨packet, packets, queue, up, down, retained⟩ := take_cases taken
  have subscriptions := take_subscriptions queue taken
  have present : packet ∈ world.broker.up .manager := by
    rw [queue]
    exact List.mem_cons_self
  have manager : broker.up .manager = packets := by
    rw [up, Function.update_self]
  have device : broker.up .device = world.broker.up .device := by
    rw [up, Function.update_of_ne device_ne_manager]
  have fewer : ∀ other ∈ broker.up .manager, other ∈ world.broker.up .manager := by
    intro other member
    rw [queue]
    rw [manager] at member
    exact List.mem_cons_of_mem _ member
  have silent : ∀ message, message ∈ broker.down .manager ↔ message ∈ world.broker.down .manager := by
    intro message
    rw [down]
    exact or_iff_left (manager_silent sound present message)
  constructor
  · intro waiting
    have place := sound.inPlace waiting
    apply place.kept_by _ fewer
    · apply retained
      rintro payload rfl
      exact place.uncleared payload present
    · refine (subscriptions _ _).mpr (.inr ⟨place.subscribed, ?_⟩)
      rintro ⟨-, rfl⟩
      exact place.kept present
  · exact sound.first
  · exact sound.callbacks
  · intro topic member
    rcases (subscriptions _ _).mp member with ⟨-, rfl⟩ | ⟨old, -⟩
    · rcases sound.managerPackets _ present with never | never
      · cases never
      · cases never
    · exact sound.topics topic old
  · intro packet member
    rw [device] at member
    exact sound.devicePackets packet member
  · intro packet member
    exact sound.managerPackets packet (fewer packet member)
  · intro message member
    exact sound.messages message ((silent message).mp member)
  · exact sound.received
  · intro waiting payload member
    rw [silent, device]
    exact sound.arriving waiting payload member

theorem mem_subscribeOnSuccess (broker : Broker Party) (connection : Connection)
    (pubTopic subTopic : String) (packet : Packet) (owner : Party) :
    packet ∈ (subscribeOnSuccess broker connection pubTopic subTopic).up owner ↔
      packet ∈ broker.up owner ∨ owner = .manager ∧
        (connection = .connected ∧ packet = .unsubscribe subTopic ∨
          connection ≠ .lost ∧ packet = .publish pubTopic "" false) := by
  cases connection with
  | connected =>
      rw [subscribeOnSuccess, QueryProtocol.subscribeOnSuccess, mem_send, mem_send]
      simp [or_assoc, and_or_left]
  | restored =>
      rw [subscribeOnSuccess, mem_send]
      simp
  | lost => simp [subscribeOnSuccess]

theorem subscribeOnSuccess_kept (broker : Broker Party) (connection : Connection)
    (pubTopic subTopic : String) :
    (subscribeOnSuccess broker connection pubTopic subTopic).subscriptions = broker.subscriptions ∧
      (subscribeOnSuccess broker connection pubTopic subTopic).retained = broker.retained ∧
      (subscribeOnSuccess broker connection pubTopic subTopic).down = broker.down := by
  cases connection with
  | connected => exact ⟨rfl, rfl, rfl⟩
  | restored => exact ⟨rfl, rfl, rfl⟩
  | lost => exact ⟨rfl, rfl, rfl⟩

theorem receive_eq (connection : Connection) (next : World) (sound : Sound parse query request world)
    (taken : step parse query world (.receive connection) = some next) :
    ∃ payload messages broker, world.broker.down .manager = ⟨query.subTopic, payload⟩ :: messages ∧
      broker.subscriptions = world.broker.subscriptions ∧
      broker.retained = world.broker.retained ∧ broker.up = world.broker.up ∧
      broker.down .manager = messages ∧
      next = { world with
        broker := subscribeOnSuccess broker connection query.pubTopic query.subTopic
        received := payload :: world.received
        responses := (query.callback parse payload).toList ++ world.responses } := by
  obtain ⟨⟨message, broker⟩, received, rfl⟩ := Option.map_eq_some_iff.mp taken
  obtain ⟨messages, queue, left⟩ := receive_cases received
  obtain ⟨topic, payload⟩ := message
  have own : topic = query.subTopic := (sound.messages ⟨topic, payload⟩ (by
    rw [queue]
    exact List.mem_cons_self)).1
  subst own
  have found : world.callbackMgr.onMessage query.subTopic = some query := by
    rw [sound.callbacks]
    exact AList.lookup_insert _
  refine ⟨payload, messages, broker, queue, ?_, ?_, ?_, ?_, ?_⟩
  · rw [left]
  · rw [left]
  · rw [left]
  · rw [left]
    simp only [Function.update_self]
  · simp only [onMessage, found]

theorem first_receive (payload : String) (first : world.responses.getLast? =
      world.received.reverse.findSome? (query.callback parse)) :
    ((query.callback parse payload).toList ++ world.responses).getLast? =
      (payload :: world.received).reverse.findSome? (query.callback parse) := by
  rw [List.reverse_cons, List.findSome?_append, ← first, List.getLast?_append]
  cases found : query.callback parse payload with
  | none => simp [found]
  | some json =>
      cases world.responses.getLast? with
      | none => simp [found]
      | some last => simp

theorem inPlace_subscribeOnSuccess {broker : Broker Party} {next : World} (connection : Connection)
    (elsewhere : connection ≠ .connected) (place : InPlace query request world)
    (subscriptions : broker.subscriptions = world.broker.subscriptions)
    (retained : broker.retained = world.broker.retained) (up : broker.up = world.broker.up)
    (moved : next.broker = subscribeOnSuccess broker connection query.pubTopic query.subTopic) :
    InPlace query request next := by
  have packets := mem_subscribeOnSuccess broker connection query.pubTopic query.subTopic
  rw [up, ← moved] at packets
  obtain ⟨same, sameRetained, -⟩ := subscribeOnSuccess_kept broker connection query.pubTopic
    query.subTopic
  rw [← moved] at same sameRetained
  refine ⟨?_, ?_, ?_, ?_⟩
  · rw [same, subscriptions]
    exact place.subscribed
  · intro member
    rcases (packets _ _).mp member with old | ⟨-, ⟨now, -⟩ | ⟨-, never⟩⟩
    · exact place.kept old
    · exact elsewhere now
    · cases never
  · rw [sameRetained, retained]
    exact place.published
  · intro text member
    rcases (packets _ _).mp member with old | ⟨-, ⟨-, never⟩ | ⟨-, never⟩⟩
    · exact place.uncleared text old
    · cases never
    · exact absurd (Packet.publish.inj never).2.2 (by decide)

theorem receive_sound (connection : Connection) (next : World)
    (sound : Sound parse query request world)
    (accepted : Accepted parse query world (.receive connection))
    (taken : step parse query world (.receive connection) = some next) :
    Sound parse query request next := by
  obtain ⟨payload, messages, broker, queue, same, sameRetained, sameUp, left, rfl⟩ :=
    receive_eq connection next sound taken
  have packets := mem_subscribeOnSuccess broker connection query.pubTopic query.subTopic
  rw [sameUp] at packets
  obtain ⟨subscriptions, -, down⟩ := subscribeOnSuccess_kept broker connection query.pubTopic
    query.subTopic
  rw [same] at subscriptions
  have published : payload ∈ world.published := (sound.messages ⟨query.subTopic, payload⟩ (by
    rw [queue]
    exact List.mem_cons_self)).2
  have still : ∀ {received : List String}, (∀ text ∈ payload :: received, ¬ Valid parse query text) →
      ¬ Valid parse query payload ∧ ∀ text ∈ received, ¬ Valid parse query text :=
    fun waiting => List.forall_mem_cons.mp waiting
  constructor
  · intro waiting
    obtain ⟨invalid, before⟩ := still waiting
    have elsewhere : connection ≠ .connected := by
      rintro rfl
      apply invalid
      apply accepted before ⟨query.subTopic, payload⟩
      rw [queue]
      rfl
    exact inPlace_subscribeOnSuccess connection elsewhere (sound.inPlace before) same sameRetained
      sameUp rfl
  · exact first_receive payload sound.first
  · exact sound.callbacks
  · intro topic member
    dsimp only at member
    rw [subscriptions] at member
    exact sound.topics topic member
  · intro packet member
    rcases (packets _ _).mp member with old | ⟨never, -⟩
    · exact sound.devicePackets packet old
    · cases never
  · intro packet member
    rcases (packets _ _).mp member with old | ⟨-, ⟨-, same⟩ | ⟨-, same⟩⟩
    · exact sound.managerPackets packet old
    · exact .inl same
    · exact .inr same
  · intro message member
    dsimp only at member
    rw [down, left] at member
    apply sound.messages message
    rw [queue]
    exact List.mem_cons_of_mem _ member
  · intro text member
    rcases List.mem_cons.mp member with rfl | old
    · exact published
    · exact sound.received text old
  · intro waiting text member
    rcases sound.arriving (still waiting).2 text member with ⟨retain, sent⟩ | arrived | received
    · exact .inl ⟨retain, (packets _ _).mpr (.inl sent)⟩
    · rw [queue] at arrived
      rcases List.mem_cons.mp arrived with same | later
      · exact .inr (.inr (List.mem_cons.mpr (.inl (Message.mk.inj same).2)))
      · refine .inr (.inl ?_)
        dsimp only
        rw [down, left]
        exact later
    · exact .inr (.inr (List.mem_cons_of_mem _ received))

theorem step_sound (world : World) (label : Label) (next : World)
    (sound : Sound parse query request world) (accepted : Accepted parse query world label)
    (taken : step parse query world label = some next) : Sound parse query request next := by
  cases label with
  | publish payload retain =>
      cases taken
      exact publish_sound payload retain sound
  | broker party =>
      obtain ⟨broker, handled, rfl⟩ := Option.map_eq_some_iff.mp taken
      cases party with
      | manager => exact manager_sound broker sound handled
      | device => exact device_sound broker sound handled
  | receive connection => exact receive_sound connection next sound accepted taken

theorem responses_nil_iff (sound : Sound parse query request world) :
    world.responses = [] ↔ Waiting parse query world := by
  rw [← List.getLast?_eq_none_iff, sound.first, List.findSome?_eq_none_iff]
  simp only [List.mem_reverse, Waiting, Valid, Option.not_isSome_iff_eq_none]

theorem sound_proper (world : World) (sound : Sound parse query request world) :
    Proper parse query request world := by
  refine ⟨sound.inPlace, sound.first, ?_⟩
  intro idle
  by_cases waiting : Waiting parse query world
  · refine iff_of_false (fun some => some ((responses_nil_iff sound).mpr waiting)) ?_
    rintro ⟨payload, published, valid⟩
    rcases sound.arriving waiting payload published with ⟨retain, sent⟩ | arrived | received
    · rw [(idle .device).1] at sent
      cases sent
    · rw [(idle .manager).2] at arrived
      cases arrived
    · exact waiting payload received valid
  · refine iff_of_true (fun none => waiting ((responses_nil_iff sound).mp none)) ?_
    simp only [Waiting, not_forall, not_not] at waiting
    obtain ⟨payload, received, valid⟩ := waiting
    exact ⟨payload, sound.received payload received, valid⟩

theorem rejected_step (world : World) (label : Label) (sound : Sound parse query request world)
    (rejected : ¬ Accepted parse query world label) :
    ∃ next, step parse query world label = some next ∧ ¬ Proper parse query request next := by
  cases label with
  | publish payload retain => exact absurd trivial rejected
  | broker party => exact absurd trivial rejected
  | receive connection =>
      cases connection with
      | restored => exact absurd trivial rejected
      | lost => exact absurd trivial rejected
      | connected =>
          simp only [Accepted, not_forall] at rejected
          obtain ⟨waiting, message, head, invalid⟩ := rejected
          obtain ⟨messages, queue⟩ := List.head?_eq_some_iff.mp head
          have taken : ∃ next, step parse query world (.receive .connected) = some next := by
            rw [step, Broker.receive, queue]
            exact ⟨_, rfl⟩
          obtain ⟨next, taken⟩ := taken
          refine ⟨next, taken, ?_⟩
          obtain ⟨payload, rest, broker, queue', -, -, -, -, rfl⟩ :=
            receive_eq .connected next sound taken
          rw [queue] at queue'
          obtain ⟨same, -⟩ := List.cons.inj queue'
          rw [same] at invalid
          intro proper
          apply (proper.inPlace (List.forall_mem_cons.mpr ⟨invalid, waiting⟩)).kept
          exact (mem_subscribeOnSuccess _ _ _ _ _ _).mpr (.inr ⟨rfl, .inl ⟨rfl, rfl⟩⟩)

end

/-- In a run every rejected payload leaves the query in place, and a response is sent if and only
if a valid payload was published, exactly when a connected client gets no payload that it
rejects before one that it accepts. -/
theorem proper_iff_accepted (parse : String → Option Json) (query : OTAQuery) (request : String)
    (labels : List Label) :
    Always (step parse query) (Proper parse query request) (pending query request) labels ↔
      Guarded (step parse query) (Accepted parse query) (pending query request) labels :=
  always_iff_guarded step_sound sound_proper rejected_step labels _ pending_sound

def sampleText : String :=
  "\x7b\"device_type\":1,\"device_no\":1,\"query_details\":\x7b\"action\":\"getVersion\"\x7d\x7d"

def sampleParse (payload : String) : Option Json :=
  if payload = sampleText then some (.object [("device_no", .integer 1), ("device_type", .integer 1),
    ("query_details", .object [("action", .string "getVersion")])])
  else none

def sampleQuery : OTAQuery := ⟨1, 1, "getVersion", 7⟩

/-- A text that is not JSON comes before the answer. -/
def answerTooLate : List Label :=
  [.publish "idle" false, .broker .device, .receive .connected, .broker .manager, .broker .manager,
    .publish sampleText false, .broker .device]

theorem late_answer_lost :
    ¬ ∀ (parse : String → Option Json) (query : OTAQuery) (request : String) (labels : List Label),
      Always (step parse query) (Proper parse query request) (pending query request) labels := by
  intro always_proper
  have ran : ∃ reached, run (step sampleParse sampleQuery) (pending sampleQuery "\x7b\x7d")
        answerTooLate = some reached ∧ reached.responses.isEmpty = true ∧
      (∀ party : Party, reached.broker.up party = [] ∧ reached.broker.down party = []) ∧
      sampleText ∈ reached.published := by
    refine ⟨_, rfl, by decide +kernel, ?_, by decide +kernel⟩
    intro party
    cases party with
    | manager => exact ⟨by decide +kernel, by decide +kernel⟩
    | device => exact ⟨by decide +kernel, by decide +kernel⟩
  obtain ⟨reached, ran, silent, idle, published⟩ := ran
  have proper := always_proper sampleParse sampleQuery _ answerTooLate answerTooLate [] reached
    (List.append_nil _) ran
  have valid : (sampleQuery.callback sampleParse sampleText).isSome = true := by
    decide +kernel
  exact (proper.answered idle).mpr ⟨sampleText, published, valid⟩ (List.isEmpty_iff.mp silent)

end OtaMqtt.Ota.Rejections
