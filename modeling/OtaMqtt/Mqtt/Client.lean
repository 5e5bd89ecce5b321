import OtaMqtt.Lib.Execution

/-! `MqttClient` and its callers (sherry/mqtt_client.cc, mqtt_listener.h, ota_notifier.cc,
ota_query_responder.cc, ota_subscribe_download.cc).

Topics and payloads are left out. A client is never null: `get_client` makes one for every
device type. Whether a connect, a subscribe or a disconnect of the library succeeds or throws
is an input. -/

namespace OtaMqtt.Mqtt

open OtaMqtt.Lib.Execution

/-- The callbacks that `subscribe` stores in the listener of the client: the one of
`subscribe_responder` writes to the log, the one of `subscribe_download` subscribes again after a
failure. -/
inductive Callback where
  | log
  | resubscribe
  deriving DecidableEq

/-- `connected` is the library's `is_connected()` and `isconnected` the member `m_isconnected`;
`tokens` counts the subscriptions in flight that report to the listener. -/
structure MqttClient where
  connected : Bool
  isconnected : Bool
  listener : Option Callback
  tokens : Nat
  deriving DecidableEq

namespace MqttClient

def fresh : MqttClient := ⟨false, false, none, 0⟩

def connect (client : MqttClient) (succeeds : Bool) : Run MqttClient :=
  if client.connected then .error .assertion
  else if succeeds then .ok { client with connected := true, isconnected := true }
  else .ok client

def subscribe (client : MqttClient) (callback : Option Callback) (accepted : Bool) : Run MqttClient :=
  if client.connected && client.isconnected then
    match callback, accepted with
    | some callback, true =>
        .ok { client with listener := some callback, tokens := client.tokens + 1 }
    | _, _ => .ok client
  else .error .assertion

def publish (client : MqttClient) : Run MqttClient :=
  if client.connected && client.isconnected then .ok client else .error .assertion

/-- No callback of the library reports an explicit disconnect. -/
def disconnect (client : MqttClient) (accepted : Bool) : MqttClient :=
  if client.connected && accepted then { client with connected := false } else client

def connectionLost (client : MqttClient) : MqttClient :=
  { client with connected := false, isconnected := false }

/-- The callback `connected`, after an automatic reconnect. -/
def reconnected (client : MqttClient) : MqttClient :=
  { client with connected := true, isconnected := true }

/-- A subscription ends; the listener calls whatever callback was stored last. -/
def tokenDone (client : MqttClient) (success accepted : Bool) : Run MqttClient :=
  if client.tokens = 0 then .ok client
  else
    let client := { client with tokens := client.tokens - 1 }
    if !success && client.listener = some .resubscribe then client.subscribe none accepted
    else .ok client

/-- The check that most callers begin with. -/
def ensure (client : MqttClient) (succeeds : Bool) : Run MqttClient :=
  if client.isconnected then .ok client else client.connect succeeds

/-- `publish_once` does not look at the outcome of its connect. -/
def publishOnce (client : MqttClient) (succeeds : Bool) : Run MqttClient := do
  let client ← client.ensure succeeds
  client.publish

def publishQuery (client : MqttClient) (succeeds : Bool) : Run MqttClient := do
  let client ← client.ensure succeeds
  if client.isconnected then client.publish else .ok client

def subscribeResponder (client : MqttClient) (succeeds accepted : Bool) : Run MqttClient := do
  let client ← client.ensure succeeds
  if client.isconnected then client.subscribe (some .log) accepted else .ok client

/-- A connected client unsubscribes first, which changes nothing here. -/
def subscribeOnSuccess (client : MqttClient) (succeeds : Bool) : Run MqttClient :=
  if client.isconnected then client.publish
  else do
    let client ← client.connect succeeds
    if client.isconnected then client.publish else .ok client

def subscribeDownload (client : MqttClient) (succeeds accepted : Bool) : Run MqttClient := do
  let client ← client.ensure succeeds
  if client.isconnected then client.subscribe (some .resubscribe) accepted else .ok client

end MqttClient

inductive Event where
  | connectionLost
  | reconnected
  | disconnect (accepted : Bool)
  | tokenDone (success accepted : Bool)
  | publishOnce (succeeds : Bool)
  | publishQuery (succeeds : Bool)
  | subscribeResponder (succeeds accepted : Bool)
  | subscribeOnSuccess (succeeds : Bool)
  | subscribeDownload (succeeds accepted : Bool)

def MqttClient.operate (client : MqttClient) : Event → Run MqttClient
  | .connectionLost => .ok client.connectionLost
  | .reconnected => .ok client.reconnected
  | .disconnect accepted => .ok (client.disconnect accepted)
  | .tokenDone success accepted => client.tokenDone success accepted
  | .publishOnce succeeds => client.publishOnce succeeds
  | .publishQuery succeeds => client.publishQuery succeeds
  | .subscribeResponder succeeds accepted => client.subscribeResponder succeeds accepted
  | .subscribeOnSuccess succeeds => client.subscribeOnSuccess succeeds
  | .subscribeDownload succeeds accepted => client.subscribeDownload succeeds accepted

end OtaMqtt.Mqtt
