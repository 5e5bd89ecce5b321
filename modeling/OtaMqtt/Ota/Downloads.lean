import OtaMqtt.Lib.Refinement
import OtaMqtt.Ota.Outstanding
import OtaMqtt.Ota.Submit

/-! The download details that devices report (`ota_query_download` of sherry/ota_manager.cc,
ota_subscribe_download.h, ota_subscribe_download.cc, ota_client_callback.cc).

The callbacks of `ota_query` and of `ota_query_download` share one map from topics. Whether the
client of a device type is connected, after the attempt to connect it, is an input of a
request. -/

namespace OtaMqtt.Ota.Downloads

open OtaMqtt.Lib OtaMqtt.Lib.Delimited OtaMqtt.Lib.Refinement OtaMqtt.Ota OtaMqtt.Ota.OTAManager

structure Target where
  deviceType : UInt16
  deviceNo : UInt32
  name : String
  deriving DecidableEq

/-- What the callback of `ota_query_download` captures. -/
structure OTADownload where
  target : Target
  connectId : Int
  deriving DecidableEq

namespace Target

variable (target : Target)

def topic : String :=
  "/ota/" ++ toString target.deviceType.toNat ++ "/" ++ toString target.deviceNo.toNat ++ "/" ++
    target.name ++ "/query_download"

/-- The checks of the callback, in their order. -/
def satisfied (response : Json) : Bool :=
  if !response.contains "name" || !response.contains "device_type" ||
      !response.contains "device_no" then false
  else if !(response.get "name").isText target.name then false
  else if !(response.get "device_type").isNumber target.deviceType.toNat then false
  else if !(response.get "device_no").isNumber target.deviceNo.toNat then false
  else true

/-- The value that the callback hands to `response_to_server`, if it gets that far. -/
def callback (parse : String → Option Json) (payload : String) : Option Json :=
  match parse payload with
  | none => none
  | some response => if target.satisfied response then some response else none

end Target

inductive Callback where
  | query (query : OTAQuery)
  | download (download : OTADownload)
  deriving DecidableEq

/-- `m_topic` stays that of the first request for the device. -/
structure OTASubscribeDownload where
  topic : String
  deviceType : UInt16
  deviceNo : UInt32
  deriving DecidableEq

/-- A call of `response_to_server`. -/
structure Sent where
  connectId : Int
  success : Bool
  type : String
  body : Json

/-- `subscriptions` are the topics that the client of a type was told to subscribe to, the last
one first. -/
structure World where
  manager : OTAManager
  callbackMgr : OTAClientCallbackManager Callback
  subscribeDownloadMap : AList fun _ : UInt16 => AList fun _ : UInt32 => OTASubscribeDownload
  subscriptions : List (UInt16 × String)

inductive Call where
  | addDevice (deviceType : UInt16) (deviceNo : UInt32)
  | removeDevice (deviceType : UInt16) (deviceNo : UInt32)
  | query (query : OTAQuery)
  | queryDownload (download : OTADownload) (connected : Bool)
  | message (topic payload : String)

namespace World

def fresh (now : UInt64) : World := ⟨OTAManager.fresh now, .fresh, ∅, []⟩

/-- `m_ota_subscribe_download_map[device_type][device_no]`, if it is there. -/
def subscriber (world : World) (deviceType : UInt16) (deviceNo : UInt32) :
    Option OTASubscribeDownload :=
  (world.subscribeDownloadMap.lookup deviceType).bind (AList.lookup deviceNo)

def store (world : World) (deviceType : UInt16) (deviceNo : UInt32)
    (subscriber : OTASubscribeDownload) : World :=
  { world with
    subscribeDownloadMap := world.subscribeDownloadMap.insert deviceType
      (((world.subscribeDownloadMap.lookup deviceType).getD ∅).insert deviceNo subscriber) }

/-- Without a connection the subscription is given up. -/
def subscribeDownload (world : World) (subscriber : OTASubscribeDownload) (topic : String)
    (connected : Bool) : World :=
  if connected then
    { world with subscriptions := (subscriber.deviceType, topic) :: world.subscriptions }
  else world

def otaQuery (world : World) (query : OTAQuery) : World :=
  { world with callbackMgr := world.callbackMgr.registCallback query.subTopic (.query query) }

def otaQueryDownload (world : World) (download : OTADownload) (connected : Bool) :
    List Sent × World :=
  let deviceType := download.target.deviceType
  let deviceNo := download.target.deviceNo
  if !world.manager.checkDevice deviceType deviceNo then
    ([⟨download.connectId, false, "query_download", unregistered deviceType⟩], world)
  else
    let topic := download.target.topic
    let world := { world with
      callbackMgr := world.callbackMgr.registCallback topic (.download download) }
    match world.subscriber deviceType deviceNo with
    | some subscriber => ([], world.subscribeDownload subscriber topic connected)
    | none =>
        let subscriber : OTASubscribeDownload := ⟨topic, deviceType, deviceNo⟩
        ([], (world.store deviceType deviceNo subscriber).subscribeDownload subscriber topic connected)

/-- `on_message` and what the callback sends. -/
def onMessage (parse : String → Option Json) (world : World) (topic payload : String) : List Sent :=
  match world.callbackMgr.onMessage topic with
  | none => []
  | some (.query query) =>
      ((query.callback parse payload).map fun response =>
        ⟨query.connectId, true, "query", response⟩).toList
  | some (.download download) =>
      ((download.target.callback parse payload).map fun response =>
        ⟨download.connectId, true, "query_download", response⟩).toList

def call (parse : String → Option Json) (world : World) : Call → List Sent × World
  | .addDevice deviceType deviceNo =>
      ([], { world with manager := (world.manager.addDevice deviceType deviceNo).2 })
  | .removeDevice deviceType deviceNo =>
      ([], { world with manager := (world.manager.removeDevice deviceType deviceNo).2 })
  | .query query => ([], world.otaQuery query)
  | .queryDownload download connected => world.otaQueryDownload download connected
  | .message topic payload => (world.onMessage parse topic payload, world)

end World

/-- What the manager is for, without topics: the last query for a device and the connection that
last asked for a download's details. -/
structure Watchers where
  manager : OTAManager
  queries : UInt16 × UInt32 → Option OTAQuery
  downloads : Target → Option Int
  subscriptions : List Target

def responder (device : UInt16 × UInt32) : String := formatOtaPrex device.1 device.2 ++ "/responder"

namespace Watchers

def fresh (now : UInt64) : Watchers := ⟨OTAManager.fresh now, fun _ => none, fun _ => none, []⟩

def otaQueryDownload (watchers : Watchers) (download : OTADownload) (connected : Bool) :
    List Sent × Watchers :=
  if watchers.manager.checkDevice download.target.deviceType download.target.deviceNo then
    ([], { watchers with
      downloads := Function.update watchers.downloads download.target (some download.connectId)
      subscriptions := if connected then download.target :: watchers.subscriptions
        else watchers.subscriptions })
  else
    ([⟨download.connectId, false, "query_download", unregistered download.target.deviceType⟩], watchers)

/-- A message on the topic of a download or of a device's answers. -/
noncomputable def onMessage (parse : String → Option Json) (watchers : Watchers)
    (topic payload : String) : List Sent :=
  match Function.partialInv Target.topic topic with
  | some target => ((watchers.downloads target).bind fun connectId =>
      (target.callback parse payload).map fun response =>
        (⟨connectId, true, "query_download", response⟩ : Sent)).toList
  | none =>
      match Function.partialInv responder topic with
      | some device => ((watchers.queries device).bind fun query =>
          (query.callback parse payload).map fun response =>
            (⟨query.connectId, true, "query", response⟩ : Sent)).toList
      | none => []

noncomputable def call (parse : String → Option Json) (watchers : Watchers) : Call → List Sent × Watchers
  | .addDevice deviceType deviceNo =>
      ([], { watchers with manager := (watchers.manager.addDevice deviceType deviceNo).2 })
  | .removeDevice deviceType deviceNo =>
      ([], { watchers with manager := (watchers.manager.removeDevice deviceType deviceNo).2 })
  | .query query => ([], { watchers with
      queries := Function.update watchers.queries (query.deviceType, query.deviceNo) (some query) })
  | .queryDownload download connected => watchers.otaQueryDownload download connected
  | .message topic payload => (watchers.onMessage parse topic payload, watchers)

end Watchers

theorem topic_chars (target : Target) : target.topic.toList = "/ota/".toList ++
    (Nat.toDigits 10 target.deviceType.toNat ++ '/' :: (Nat.toDigits 10 target.deviceNo.toNat ++
      '/' :: (target.name.toList ++ "/query_download".toList))) := by
  simp [Target.topic, Nat.toList_repr]

/-- A topic names one download, whatever its name is. -/
theorem topic_injective : Function.Injective Target.topic := by
  intro first second same
  have chars := congrArg String.toList same
  rw [topic_chars, topic_chars] at chars
  obtain ⟨types, rests⟩ := split_first (not_digit _ (by decide)) (not_digit _ (by decide))
    (List.append_cancel_left chars)
  obtain ⟨numbers, names⟩ := split_first (not_digit _ (by decide)) (not_digit _ (by decide)) rests
  cases first
  cases second
  rw [Target.mk.injEq]
  exact ⟨UInt16.toNat_inj.mp (digits_injective types), UInt32.toNat_inj.mp (digits_injective numbers),
    String.toList_inj.mp (List.append_cancel_right names)⟩

theorem subTopic_responder (query : OTAQuery) :
    query.subTopic = responder (query.deviceType, query.deviceNo) := rfl

theorem responder_injective : Function.Injective responder := by
  rintro ⟨deviceType, deviceNo⟩ ⟨deviceType', deviceNo'⟩ same
  obtain ⟨types, numbers⟩ := Outstanding.subTopic_device ⟨deviceType, deviceNo, "", 0⟩
    ⟨deviceType', deviceNo', "", 0⟩ same
  exact Prod.ext types numbers

theorem topic_ne_responder (target : Target) (device : UInt16 × UInt32) :
    target.topic ≠ responder device := by
  intro same
  have chars := congrArg (fun text => text.toList.getLast?) same
  rw [topic_chars, responder, String.toList_append] at chars
  simp only [← List.append_assoc, ← List.cons_append] at chars
  rw [List.getLast?_append_of_ne_nil _ (by decide), List.getLast?_append_of_ne_nil _ (by decide)] at chars
  revert chars
  decide

/-- The map holds the callbacks of the last requests, each under its own topic, and no others. -/
structure Related (world : World) (watchers : Watchers) : Prop where
  manager : world.manager = watchers.manager
  downloads : ∀ target, world.callbackMgr.onMessage target.topic =
    (watchers.downloads target).map fun connectId => .download ⟨target, connectId⟩
  queries : ∀ device, world.callbackMgr.onMessage (responder device) =
    (watchers.queries device).map .query
  others : ∀ topic, (∀ target, topic ≠ Target.topic target) → (∀ device, topic ≠ responder device) →
    world.callbackMgr.onMessage topic = none
  holders : ∀ deviceType deviceNo subscriber,
    world.subscriber deviceType deviceNo = some subscriber → subscriber.deviceType = deviceType
  subscriptions : world.subscriptions =
    watchers.subscriptions.map fun target => (target.deviceType, target.topic)

theorem related_fresh (now : UInt64) : Related (.fresh now) (.fresh now) where
  manager := rfl
  downloads := fun _ => rfl
  queries := fun _ => rfl
  others := fun _ _ _ => rfl
  holders := fun _ _ _ found => nomatch found
  subscriptions := rfl

section
variable {Callback : Type} (manager : OTAClientCallbackManager Callback) (callback : Callback)

theorem registCallback_self (topic : String) :
    (manager.registCallback topic callback).onMessage topic = some callback :=
  AList.lookup_insert _

theorem registCallback_other {topic other : String} (apart : other ≠ topic) :
    (manager.registCallback topic callback).onMessage other = manager.onMessage other :=
  AList.lookup_insert_ne apart

end

section
variable {parse : String → Option Json} {world : World} {watchers : Watchers}

theorem related_download (related : Related world watchers) (download : OTADownload) :
    Related
      { world with
        callbackMgr := world.callbackMgr.registCallback download.target.topic (.download download) }
      { watchers with
        downloads := Function.update watchers.downloads download.target (some download.connectId) } where
  manager := related.manager
  downloads := by
    intro target
    dsimp only
    by_cases same : target = download.target
    · rw [same, registCallback_self, Function.update_self, Option.map_some]
    · rw [registCallback_other _ _ fun topics => same (topic_injective topics),
        Function.update_of_ne same]
      exact related.downloads target
  queries := by
    intro device
    rw [registCallback_other _ _ (topic_ne_responder _ device).symm]
    exact related.queries device
  others := by
    intro topic strange strange'
    rw [registCallback_other _ _ (strange download.target)]
    exact related.others topic strange strange'
  holders := related.holders
  subscriptions := related.subscriptions

theorem related_query (related : Related world watchers) (query : OTAQuery) :
    Related (world.otaQuery query)
      { watchers with
        queries := Function.update watchers.queries (query.deviceType, query.deviceNo)
          (some query) } where
  manager := related.manager
  downloads := by
    intro target
    rw [World.otaQuery, subTopic_responder,
      registCallback_other _ _ (topic_ne_responder target _)]
    exact related.downloads target
  queries := by
    intro device
    rw [World.otaQuery, subTopic_responder]
    dsimp only
    by_cases same : device = (query.deviceType, query.deviceNo)
    · rw [same, registCallback_self, Function.update_self, Option.map_some]
    · rw [registCallback_other _ _ fun topics => same (responder_injective topics),
        Function.update_of_ne same]
      exact related.queries device
  others := by
    intro topic strange strange'
    rw [World.otaQuery, subTopic_responder, registCallback_other _ _ (strange' _)]
    exact related.others topic strange strange'
  holders := related.holders
  subscriptions := related.subscriptions

theorem related_manager (related : Related world watchers) (manager : OTAManager) :
    Related { world with manager := manager } { watchers with manager := manager } :=
  ⟨rfl, related.downloads, related.queries, related.others, related.holders, related.subscriptions⟩

theorem store_subscriber (deviceType deviceType' : UInt16) (deviceNo deviceNo' : UInt32)
    (subscriber found : OTASubscribeDownload)
    (stored : (world.store deviceType deviceNo subscriber).subscriber deviceType' deviceNo' =
      some found) :
    (deviceType' = deviceType ∧ found = subscriber) ∨
      world.subscriber deviceType' deviceNo' = some found := by
  unfold World.subscriber World.store at stored
  by_cases same : deviceType' = deviceType
  · subst same
    dsimp only at stored
    rw [AList.lookup_insert, Option.bind_some] at stored
    by_cases same' : deviceNo' = deviceNo
    · subst same'
      rw [AList.lookup_insert] at stored
      exact .inl ⟨rfl, (Option.some.inj stored).symm⟩
    · rw [AList.lookup_insert_ne same'] at stored
      refine .inr ?_
      unfold World.subscriber
      cases looked : world.subscribeDownloadMap.lookup deviceType' with
      | none =>
          rw [looked] at stored
          cases stored
      | some numbers =>
          rw [looked] at stored
          exact stored
  · dsimp only at stored
    rw [AList.lookup_insert_ne same] at stored
    exact .inr stored

theorem related_store (related : Related world watchers) (deviceType : UInt16) (deviceNo : UInt32)
    (subscriber : OTASubscribeDownload) (typed : subscriber.deviceType = deviceType) :
    Related (world.store deviceType deviceNo subscriber) watchers := by
  refine ⟨related.manager, related.downloads, related.queries, related.others, ?_,
    related.subscriptions⟩
  intro deviceType' deviceNo' found stored
  rcases store_subscriber _ _ _ _ _ _ stored with ⟨same, is⟩ | old
  · rw [is, same, typed]
  · exact related.holders deviceType' deviceNo' found old

theorem related_subscribe (related : Related world watchers) (subscriber : OTASubscribeDownload)
    (target : Target) (connected : Bool) (typed : subscriber.deviceType = target.deviceType) :
    Related (world.subscribeDownload subscriber target.topic connected)
      { watchers with
        subscriptions := if connected then target :: watchers.subscriptions
          else watchers.subscriptions } := by
  cases connected with
  | false => exact related
  | true =>
      refine ⟨related.manager, related.downloads, related.queries, related.others, related.holders, ?_⟩
      rw [World.subscribeDownload, if_pos rfl, if_pos rfl, List.map_cons, typed]
      exact congrArg _ related.subscriptions

theorem otaQueryDownload_simulated (related : Related world watchers) (download : OTADownload)
    (connected : Bool) :
    (world.otaQueryDownload download connected).1 = (watchers.otaQueryDownload download connected).1 ∧
      Related (world.otaQueryDownload download connected).2
        (watchers.otaQueryDownload download connected).2 := by
  have checked := congrArg (fun manager : OTAManager =>
    manager.checkDevice download.target.deviceType download.target.deviceNo) related.manager
  unfold World.otaQueryDownload Watchers.otaQueryDownload
  rw [← checked]
  dsimp only
  cases world.manager.checkDevice download.target.deviceType download.target.deviceNo with
  | false => exact ⟨rfl, related⟩
  | true =>
      have registered := related_download related download
      rw [if_neg (by decide), if_pos rfl]
      split
      · rename_i subscriber found
        exact ⟨rfl, related_subscribe registered subscriber download.target connected
          (related.holders _ _ subscriber found)⟩
      · have stored := related_store registered download.target.deviceType download.target.deviceNo
          ⟨download.target.topic, download.target.deviceType, download.target.deviceNo⟩ rfl
        exact ⟨rfl, related_subscribe stored _ download.target connected rfl⟩

theorem message_simulated (related : Related world watchers) (topic payload : String) :
    world.onMessage parse topic payload = watchers.onMessage parse topic payload := by
  unfold World.onMessage Watchers.onMessage
  cases named : Function.partialInv Target.topic topic with
  | some target =>
      have is := (Function.Injective.isPartialInv topic_injective target topic).mp named
      subst is
      rw [related.downloads target]
      dsimp only
      cases watchers.downloads target with
      | none => rfl
      | some connectId => rfl
  | none =>
      have strange : ∀ target, topic ≠ Target.topic target := by
        rintro target rfl
        rw [Function.partialInv_left topic_injective] at named
        cases named
      cases responds : Function.partialInv responder topic with
      | some device =>
          have is := (Function.Injective.isPartialInv responder_injective device topic).mp responds
          subst is
          rw [related.queries device]
          dsimp only
          cases watchers.queries device with
          | none => rfl
          | some query => rfl
      | none =>
          have strange' : ∀ device, topic ≠ responder device := by
            rintro device rfl
            rw [Function.partialInv_left responder_injective] at responds
            cases responds
          rw [related.others topic strange strange']

theorem call_simulated (call : Call) (related : Related world watchers) :
    (world.call parse call).1 = (watchers.call parse call).1 ∧
      Related (world.call parse call).2 (watchers.call parse call).2 := by
  cases call with
  | addDevice deviceType deviceNo =>
      refine ⟨rfl, ?_⟩
      rw [World.call, related.manager]
      exact related_manager related _
  | removeDevice deviceType deviceNo =>
      refine ⟨rfl, ?_⟩
      rw [World.call, related.manager]
      exact related_manager related _
  | query query => exact ⟨rfl, related_query related query⟩
  | queryDownload download connected => exact otaQueryDownload_simulated related download connected
  | message topic payload => exact ⟨message_simulated related topic payload, related⟩

end

end OtaMqtt.Ota.Downloads
