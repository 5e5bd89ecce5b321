import Mathlib.Data.List.AList
import OtaMqtt.Lib.Json

/-! Queries to a device and the callbacks that wait for its answer (sherry/ota_manager.cc,
ota_client_callback.cc, util.cc).

A text is the sequence of its bytes, one character a byte. The parser of the JSON library is
a parameter: `none` stands for the exception that it throws. What the callback sends to the
broker is not modelled here. -/

namespace OtaMqtt.Ota

open OtaMqtt.Lib

def formatOtaPrex (deviceType : UInt16) (deviceNo : UInt32) : String :=
  "/ota/" ++ toString deviceType.toNat ++ if deviceNo ≠ 0 then "/" ++ toString deviceNo.toNat else ""

structure OTAClientCallbackManager (Callback : Type) where
  callbacks : AList fun _ : String => Callback

namespace OTAClientCallbackManager

variable {Callback : Type}

def fresh : OTAClientCallbackManager Callback := ⟨∅⟩

def registCallback (manager : OTAClientCallbackManager Callback) (topic : String)
    (callback : Callback) : OTAClientCallbackManager Callback :=
  ⟨manager.callbacks.insert topic callback⟩

/-- The callback that `on_message` copies and calls; it stays in the map. -/
def onMessage (manager : OTAClientCallbackManager Callback) (topic : String) : Option Callback :=
  manager.callbacks.lookup topic

end OTAClientCallbackManager

/-- What the callback of `ota_query` captures. -/
structure OTAQuery where
  deviceType : UInt16
  deviceNo : UInt32
  action : String
  connectId : Nat
  deriving DecidableEq

namespace OTAQuery

def pubTopic (query : OTAQuery) : String := formatOtaPrex query.deviceType query.deviceNo ++ "/query"

def subTopic (query : OTAQuery) : String := formatOtaPrex query.deviceType query.deviceNo ++ "/responder"

/-- The checks of the callback, in their order. -/
def satisfied (query : OTAQuery) (response : Json) : Bool :=
  if !response.contains "query_details" || !response.contains "device_type" ||
      !response.contains "device_no" then false
  else if !(response.get "query_details").contains "action" ||
      !((response.get "query_details").get "action").isText query.action then false
  else if !(response.get "device_type").isNumber query.deviceType.toNat then false
  else if !(response.get "device_no").isNumber query.deviceNo.toNat then false
  else true

/-- The value that the callback hands to `response_to_server`, if it gets that far. -/
def callback (parse : String → Option Json) (query : OTAQuery) (payload : String) : Option Json :=
  match parse payload with
  | none => none
  | some response => if query.satisfied response then some response else none

end OTAQuery

end OtaMqtt.Ota
