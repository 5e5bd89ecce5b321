import OtaMqtt.Ota.QueryProtocol
import OtaMqtt.Ota.Submit

/-! What stays retained of an answered query (sherry/ota_query_responder.cc, ota_manager.cc).

`publish_query` publishes with the retain flag on a topic that ends in a slash. The publication
of `subscribe_on_success` has neither the slash nor the flag. -/

namespace OtaMqtt.Ota.Retention

open OtaMqtt.Lib OtaMqtt.Lib.PubSub OtaMqtt.Lib.Trace OtaMqtt.Ota OtaMqtt.Ota.QueryProtocol

def Cleared (request : String) (state : State) : Prop :=
  ∀ topic, state.broker.retained topic ≠ some request

/-- The query is the only publication on its topic, and the only one to be retained. -/
structure Kept (query : OTAQuery) (request : String) (state : State) : Prop where
  packets : ∀ party topic payload retain,
    Packet.publish topic payload retain ∈ state.broker.up party →
      (topic = queryTopic query ∧ payload = request ∧ retain = true) ∨
        (topic ≠ queryTopic query ∧ retain = false)
  content : ∀ payload, state.broker.retained (queryTopic query) = some payload → payload = request
  heard : ∀ party payload, Message.mk (queryTopic query) payload ∈ state.broker.down party →
    state.broker.retained (queryTopic query) = some request
  answered : state.answered = true → state.broker.retained (queryTopic query) = some request

theorem pubTopic_ne_queryTopic (found query : OTAQuery) : found.pubTopic ≠ queryTopic query := by
  intro same
  have chars := congrArg String.toList same
  rw [OTAQuery.pubTopic, queryTopic, String.toList_append, String.toList_append] at chars
  have last := congrArg List.getLast? chars
  rw [List.getLast?_append, List.getLast?_append] at last
  simp at last

section
variable {query : OTAQuery} {request answer : String} {state next : State}

theorem send_kept (stage : Stage) (callbackMgr : OTAClientCallbackManager OTAQuery)
    (invoked : List String) (party : Party) (packet : Packet) (kept : Kept query request state)
    (allowed : ∀ topic payload retain, packet = .publish topic payload retain →
      (topic = queryTopic query ∧ payload = request ∧ retain = true) ∨
        (topic ≠ queryTopic query ∧ retain = false)) :
    Kept query request
      ⟨stage, callbackMgr, state.broker.send party packet, state.answered, invoked⟩ := by
  refine ⟨fun owner topic payload retain member => ?_, kept.content, kept.heard, kept.answered⟩
  rcases (mem_send packet _ owner).mp member with old | ⟨-, new⟩
  · exact kept.packets owner topic payload retain old
  · exact allowed topic payload retain new.symm

theorem manager_kept (kept : Kept query request state)
    (taken : otaQuery query request state = some next) : Kept query request next := by
  unfold otaQuery at taken
  split at taken
  · cases taken
    exact ⟨kept.packets, kept.content, kept.heard, kept.answered⟩
  · cases taken
    apply send_kept _ _ _ _ _ kept
    intro topic payload retain same
    cases same
    exact .inl ⟨rfl, rfl, rfl⟩
  · cases taken
    apply send_kept _ _ _ _ _ kept
    intro topic payload retain same
    cases same
  · cases taken

theorem receive_kept (party : Party) (message : Message) (broker : Broker Party)
    (kept : Kept query request state)
    (received : state.broker.receive party = some (message, broker)) :
    Kept query request { state with broker := broker } := by
  obtain ⟨messages, queue, rfl⟩ := receive_cases received
  refine ⟨kept.packets, kept.content, fun owner payload member => ?_, kept.answered⟩
  apply kept.heard owner payload
  dsimp only at member
  by_cases same : owner = party
  · rw [same, Function.update_self] at member
    rw [same, queue]
    exact List.mem_cons_of_mem _ member
  · rwa [Function.update_of_ne same] at member

theorem managerReceives_kept (message : Message) (broker : Broker Party)
    (kept : Kept query request state)
    (received : state.broker.receive .manager = some (message, broker)) :
    Kept query request (onMessage { state with broker := broker } message) := by
  have popped := receive_kept .manager message broker kept received
  unfold onMessage
  split
  · exact popped
  · rename_i found looked
    have once := send_kept state.stage state.callbackMgr state.invoked .manager
      (.unsubscribe message.topic) popped fun _ _ _ same => by cases same
    apply send_kept _ _ _ _ _ once
    intro topic payload retain same
    cases same
    exact .inr ⟨pubTopic_ne_queryTopic found query, rfl⟩

theorem deviceReceives_kept (message : Message) (broker : Broker Party)
    (kept : Kept query request state)
    (received : state.broker.receive .device = some (message, broker)) :
    Kept query request (deviceReceives query answer { state with broker := broker } message) := by
  have popped := receive_kept .device message broker kept received
  unfold deviceReceives
  split
  · rename_i asked
    obtain ⟨messages, queue, rest⟩ := receive_cases received
    have retained : state.broker.retained (queryTopic query) = some request := by
      apply kept.heard .device message.payload
      rw [queue, ← asked.1]
      exact List.mem_cons_self
    have sent := send_kept state.stage state.callbackMgr state.invoked .device
      (.publish query.subTopic answer false) popped fun _ _ _ same => by
        cases same
        exact .inr ⟨(queryTopic_ne query).symm, rfl⟩
    refine ⟨sent.packets, sent.content, sent.heard, fun _ => ?_⟩
    dsimp only [Broker.send]
    rw [rest]
    exact retained
  · exact popped

theorem broker_kept (party : Party) (broker : Broker Party) (printed : request ≠ "")
    (kept : Kept query request state) (taken : state.broker.take party = some broker) :
    Kept query request { state with broker := broker } := by
  obtain ⟨packet, packets, queue, up, down, retained⟩ := take_cases taken
  have head : packet ∈ state.broker.up party := by
    rw [queue]
    exact List.mem_cons_self
  have later : ∀ owner other, other ∈ broker.up owner → other ∈ state.broker.up owner := by
    intro owner other member
    rw [up] at member
    by_cases same : owner = party
    · rw [same, Function.update_self] at member
      rw [same, queue]
      exact List.mem_cons_of_mem _ member
    · rwa [Function.update_of_ne same] at member
  by_cases asks : packet = .publish (queryTopic query) request true
  · have now : broker.retained (queryTopic query) = some request :=
      take_retained printed (asks ▸ queue) taken
    refine ⟨fun owner topic payload retain member => kept.packets owner topic payload retain
      (later owner _ member), fun payload same => ?_, fun _ _ _ => now, fun _ => now⟩
    exact Option.some.inj (same.symm.trans now)
  · have other : ∀ payload retain, packet ≠ .publish (queryTopic query) payload retain := by
      intro payload retain same
      rcases kept.packets party _ payload retain (same ▸ head) with ⟨-, rfl, rfl⟩ | ⟨apart, -⟩
      · exact asks same
      · exact apart rfl
    have unchanged := retained (queryTopic query) fun payload => other payload true
    refine ⟨fun owner topic payload retain member => kept.packets owner topic payload retain
      (later owner _ member), fun payload same => kept.content payload (unchanged ▸ same),
      fun owner payload member => ?_, fun answered => unchanged.trans (kept.answered answered)⟩
    apply unchanged.trans
    rcases (down _ owner).mp member with old | ⟨retain, published, -⟩ | ⟨-, -, stored⟩
    · exact kept.heard owner payload old
    · exact absurd published (other payload retain)
    · rw [stored, kept.content payload stored]

theorem step_kept (label : Label) (printed : request ≠ "") (kept : Kept query request state)
    (taken : step query request answer state label = some next) : Kept query request next := by
  cases label with
  | manager => exact manager_kept kept taken
  | managerReceives =>
      obtain ⟨⟨message, broker⟩, received, rfl⟩ := Option.map_eq_some_iff.mp taken
      exact managerReceives_kept message broker kept received
  | broker party =>
      obtain ⟨broker, took, rfl⟩ := Option.map_eq_some_iff.mp taken
      exact broker_kept party broker printed kept took
  | deviceSubscribes =>
      cases taken
      apply send_kept _ _ _ _ _ kept
      intro topic payload retain same
      cases same
  | deviceReceives =>
      obtain ⟨⟨message, broker⟩, received, rfl⟩ := Option.map_eq_some_iff.mp taken
      exact deviceReceives_kept message broker kept received

theorem fresh_kept : Kept query request fresh := by
  refine ⟨fun party topic payload retain member => ?_, fun payload retained => ?_,
    fun party payload member => ?_, fun answered => ?_⟩
  · cases member
  · cases retained
  · cases member
  · cases answered

theorem invoked_retained (labels : List Label) (printed : request ≠ "")
    (ran : run (step query request answer) fresh labels = some state) (invoked : state.invoked ≠ []) :
    state.broker.retained (queryTopic query) = some request := by
  obtain ⟨kept, ready, place, here⟩ := @run_preserves State Label (step query request answer)
    (fun state => Kept query request state ∧ Ready query answer state ∧
      ∃ place, At query answer state place)
    (fun state label next ⟨kept, ready, place, here⟩ taken => by
      obtain ⟨ready', ⟨-, place', -, there⟩ | ⟨-, -, there⟩⟩ := step_place label place ready here taken
      · exact ⟨step_kept label printed kept taken, ready', place', there⟩
      · exact ⟨step_kept label printed kept taken, ready', .lost, there⟩)
    labels fresh state ⟨fresh_kept, fresh_ready.1, .unsent, fresh_ready.2⟩ ran
  apply kept.answered
  cases place with
  | unsent => exact absurd here.2.2.2 invoked
  | sent => exact absurd here.2.2.2 invoked
  | delivered => exact here.1
  | taken => exact here.1
  | lost => exact absurd here.2.2.2 invoked

/-- The device listens only after the manager has subscribed: the callback runs. -/
theorem slowDevice_invoked (query : OTAQuery) (request answer : String) (printed : request ≠ "") :
    ∃ final, run (step query request answer) fresh slowDevice = some final ∧
      final.invoked ≠ [] ∧ final.broker.Idle := by
  have apart := queryTopic_ne query
  simp [slowDevice, run, step, otaQuery, fresh, Broker.fresh, Broker.send, Broker.take, Broker.handle,
    Broker.receive, deviceReceives, onMessage, subscribeOnSuccess, Function.update, printed, apart.symm,
    OTAClientCallbackManager.onMessage, OTAClientCallbackManager.registCallback, Broker.Idle]
  intro client
  cases client with
  | manager => simp
  | device => simp [apart.symm, pubTopic_ne_queryTopic query query]

end

/-- For every query there are runs in which it is answered, and in all of them it is retained from
the callback on. -/
theorem answered_query_never_cleared (env : Environment) (query : OTAQuery) (request answer : String)
    (prints : ∀ json text, env.builder.dump json = some text → text ≠ "")
    (payload : OTAManager.formatPayload env query.action = some request) :
    (∃ labels final, run (step query request answer) fresh labels = some final ∧
      final.invoked ≠ [] ∧ final.broker.Idle) ∧
    ∀ labels reached, run (step query request answer) fresh labels = some reached →
      reached.invoked ≠ [] → ¬ Cleared request reached := by
  have printed := prints _ request payload
  constructor
  · exact ⟨slowDevice, slowDevice_invoked query request answer printed⟩
  · intro labels reached ran invoked cleared
    exact cleared (queryTopic query) (invoked_retained labels printed ran invoked)

def plainServer : Environment where
  builder := {
    httpVersion := "1.1"
    dump := fun json => match json with
      | .object fields => some ("\x7b" ++ ",".intercalate (fields.map fun field =>
          "\"" ++ field.1 ++ "\":\"" ++ (match field.2 with | .string text => text | _ => "") ++ "\"") ++
            "\x7d")
      | _ => some "null" }
  parse := fun _ => none
  openFile := fun _ => none
  filePrevPath := "/tmp/"
  currentTime := "2025-01-01 00:00:00"
  now := 0

theorem plainServer_prints (json : Json) (text : String)
    (printed : plainServer.builder.dump json = some text) : text ≠ "" := by
  intro empty
  rw [empty] at printed
  cases json <;> simp [plainServer] at printed

theorem version_query_never_cleared :
    ∃ request, OTAManager.formatPayload plainServer "version" = some request ∧
      ∀ labels reached, run (step ⟨1, 2, "version", 10⟩ request "reply") fresh labels = some reached →
        reached.invoked ≠ [] → ¬ Cleared request reached :=
  ⟨_, rfl, (answered_query_never_cleared plainServer ⟨1, 2, "version", 10⟩ _ "reply" plainServer_prints
    rfl).2⟩

theorem version_query_retained :
    ¬ ∀ (env : Environment) (query : OTAQuery) (request answer : String) (labels : List Label)
      (final : State), OTAManager.formatPayload env query.action = some request →
      run (step query request answer) fresh labels = some final → final.invoked ≠ [] →
        final.broker.Idle → Cleared request final := by
  intro always_cleared
  have cleared := always_cleared plainServer ⟨1, 2, "version", 10⟩ _ "reply" slowDevice _ rfl rfl
    (List.cons_ne_nil _ _) (fun party => by cases party <;> exact ⟨rfl, rfl⟩)
  exact cleared (queryTopic ⟨1, 2, "version", 10⟩) rfl

end OtaMqtt.Ota.Retention
