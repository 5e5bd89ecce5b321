import OtaMqtt.Timers.TimerManager
import Mathlib.Data.List.AList

/-! The device registry and the notifiers of `OTAManager` (sherry/ota_manager.cc,
ota_notifier.h, ota_notifier.cc).

The MQTT client that a notifier publishes through and the log are left out; what is handed to
`response_to_server` is the result of a request. A notifier is in the map under its own
topic and is never taken out, so the topic names the object that a callback holds. -/

namespace OtaMqtt.Ota

open OtaMqtt.Lib.Execution OtaMqtt.Timers

structure OTAMessage where
  name : String := ""
  version : String := ""
  time : String := ""
  fileName : String := ""
  fileSize : UInt64 := 0
  urlPath : String := ""
  md5Value : String := ""
  launchMode : Int := 0
  upgradeMode : Int := 1

structure OTANotifier where
  deviceType : Int
  timer : Option Nat
  topic : String
  msg : OTAMessage
  intervalMs : UInt64

namespace OTANotifier

def create (deviceType : Int) (topic : String) (intervalMs : UInt64) : OTANotifier :=
  ⟨deviceType, none, topic, {}, intervalMs⟩

def setMessage (notifier : OTANotifier) (msg : OTAMessage) : OTANotifier :=
  { notifier with msg := msg }

/-- The timer that `m_timer` held is neither cancelled nor looked at. -/
def start (notifier : OTANotifier) (timers : TimerManager String) (now : UInt64) :
    OTANotifier × TimerManager String :=
  let (id, timers) := timers.addTimer now notifier.intervalMs notifier.topic true
  ({ notifier with timer := some id }, timers)

def stop (notifier : OTANotifier) (timers : TimerManager String) :
    Run (OTANotifier × TimerManager String) :=
  match notifier.timer with
  | none => .ok (notifier, timers)
  | some id => do
      let (_, timers) ← timers.cancel id
      .ok ({ notifier with timer := none }, timers)

end OTANotifier

structure Response where
  fd : Int
  success : Bool
  type : String
  msg : String
  deriving DecidableEq

structure OTAManager where
  timers : TimerManager String
  deviceTypesCounts : UInt16
  deviceCounts : UInt64
  deviceTypeNums : AList fun _ : UInt16 => Finset UInt32
  otaNotifierMap : AList fun _ : String => OTANotifier

namespace OTAManager

def fresh (now : UInt64) : OTAManager := ⟨TimerManager.fresh now, 0, 0, ∅, ∅⟩

def addDevice (manager : OTAManager) (deviceType : UInt16) (deviceNo : UInt32) :
    Bool × OTAManager :=
  match manager.deviceTypeNums.lookup deviceType with
  | none => (true, { manager with
      deviceTypesCounts := manager.deviceTypesCounts + 1
      deviceCounts := manager.deviceCounts + 1
      deviceTypeNums := manager.deviceTypeNums.insert deviceType {deviceNo} })
  | some numbers =>
      if deviceNo ∈ numbers then (false, manager)
      else (true, { manager with
        deviceCounts := manager.deviceCounts + 1
        deviceTypeNums := manager.deviceTypeNums.insert deviceType (insert deviceNo numbers) })

/-- A number that is not there is inserted, and counted, before the call fails. -/
def removeDevice (manager : OTAManager) (deviceType : UInt16) (deviceNo : UInt32) :
    Bool × OTAManager :=
  match manager.deviceTypeNums.lookup deviceType with
  | none => (false, manager)
  | some numbers =>
      if deviceNo ∈ numbers then
        let rest := numbers.erase deviceNo
        if rest.card = 0 then (true, { manager with
          deviceTypesCounts := manager.deviceTypesCounts - 1
          deviceCounts := manager.deviceCounts - 1
          deviceTypeNums := manager.deviceTypeNums.erase deviceType })
        else (true, { manager with
          deviceCounts := manager.deviceCounts - 1
          deviceTypeNums := manager.deviceTypeNums.insert deviceType rest })
      else (false, { manager with
        deviceCounts := manager.deviceCounts + 1
        deviceTypeNums := manager.deviceTypeNums.insert deviceType (insert deviceNo numbers) })

def checkDevice (manager : OTAManager) (deviceType : UInt16) (deviceNo : UInt32) : Bool :=
  match manager.deviceTypeNums.lookup deviceType with
  | none => false
  | some numbers => decide (deviceNo ∈ numbers)

def notifyTopic (deviceType : UInt16) (name version : String) : String :=
  "/ota/" ++ toString deviceType.toNat ++ "/" ++ name ++ "/" ++ version ++ "/notify"

/-- The notifier that a topic gets, or has already, with the new message. -/
def notifierFor (manager : OTAManager) (deviceType : UInt16) (topic : String) (msg : OTAMessage) :
    OTANotifier :=
  match manager.otaNotifierMap.lookup topic with
  | some notifier => notifier.setMessage msg
  | none => (OTANotifier.create deviceType.toNat topic 1000).setMessage msg

def startNotifier (manager : OTAManager) (topic : String) (notifier : OTANotifier) (now : UInt64) :
    OTAManager :=
  let (notifier, timers) := notifier.start manager.timers now
  { manager with
    timers := timers
    otaNotifierMap := manager.otaNotifierMap.insert topic notifier }

def otaNotify (manager : OTAManager) (deviceType : UInt16) (msg : OTAMessage) (connectId : Int)
    (now : UInt64) : Response × OTAManager :=
  match manager.deviceTypeNums.lookup deviceType with
  | none => (⟨connectId, false, "notify",
      "device type = " ++ toString deviceType.toNat ++ " has not been registed."⟩, manager)
  | some numbers =>
      if numbers.card = 0 then (⟨connectId, false, "notify",
        "device type = " ++ toString deviceType.toNat ++ " device nums = 0."⟩, manager)
      else
        let topic := notifyTopic deviceType msg.name msg.version
        (⟨connectId, true, "notify", "notify task submitted."⟩,
          manager.startNotifier topic (manager.notifierFor deviceType topic msg) now)

/-- `ss.clear()` resets the flags of the stream and keeps its text, so the answer begins with
the topic. -/
def otaStopNotify (manager : OTAManager) (deviceType : UInt16) (name version : String)
    (connectId : Int) : Run (Response × OTAManager) :=
  let topic := notifyTopic deviceType name version
  match manager.otaNotifierMap.lookup topic with
  | none => .ok (⟨connectId, false, "stop_notify",
      "device_type = " ++ toString deviceType.toNat ++ " notifier has not existed."⟩, manager)
  | some notifier => do
      let (notifier, timers) ← notifier.stop manager.timers
      .ok (⟨connectId, true, "stop_notify", topic ++ "device_type = " ++ toString deviceType.toNat ++
          ", name = " ++ name ++ ", version = " ++ version ++ " notifier has been stopped."⟩,
        { manager with
          timers := timers
          otaNotifierMap := manager.otaNotifierMap.insert topic notifier })

end OTAManager

end OtaMqtt.Ota
