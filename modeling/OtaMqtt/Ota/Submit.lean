import OtaMqtt.Ota.Manager
import OtaMqtt.Ota.Query
import OtaMqtt.Ota.ResponseBuilder

/-! `OTAManager::submit` and the commands behind it (sherry/ota_manager.cc).

A command ends at its calls of `HttpServer::response`, which are recorded; `Http.Delivery` has what
such a call waits for. What a command does through MQTT after it has registered its callback is not
modelled, but for the payload of a query, which may throw. The body of a downloaded file, which
follows the response head, is in `Ota.Streaming`. -/

namespace OtaMqtt.Ota

open OtaMqtt.Lib OtaMqtt.Lib.Execution

/-- The world outside: `openFile` gives the size that `fstat` reports for a path, or `none` when
`open` or `fstat` fails. -/
structure Environment where
  builder : OTAHttpResBuilder
  parse : String → Option Json
  openFile : String → Option Nat
  filePrevPath : String
  currentTime : String
  now : UInt64

/-- `respond` is the call of `HttpServer::response`, whether it comes back or not; `register` is
`regist_callback`. -/
inductive Effect where
  | respond (fd : Int) (text : String)
  | register (topic : String) (connectId : Int)
  deriving DecidableEq

/-- `returned` is `none` after an exception; a call of `HttpServer::response` throws none. -/
structure Outcome where
  returned : Option Bool
  effects : List Effect
  manager : OTAManager

namespace OTAManager

/-- `response_to_server`; `failed` and `done` are the states after an exception and without one. -/
def responseToServer (env : Environment) (fd : Int) (success : Bool) (type : String) (json : Json)
    (failed done : OTAManager) : Outcome :=
  match env.builder.buildHttpResponse success json type with
  | none => ⟨none, [], failed⟩
  | some text => ⟨some true, [.respond fd text], done⟩

def message (text : String) : Json := .object [("msg", .string text)]

/-- The constants of `get_notify_message`, which never fails. -/
def getNotifyMessage (env : Environment) (name version : String) : OTAMessage where
  name := name
  version := version
  time := env.currentTime
  fileName := "agsspds_20241110.zip"
  fileSize := 6773120
  urlPath := "http://127.0.0.1:18882/download/ota/agsspds"
  md5Value := "ed076287532e86365e841e92bfc50d8c"
  launchMode := 0
  upgradeMode := 1

def notify (manager : OTAManager) (env : Environment) (deviceType : UInt16) (name version : String)
    (clientId : Int) : Outcome :=
  let (response, next) :=
    manager.otaNotify deviceType (getNotifyMessage env name version) clientId env.now
  responseToServer env clientId response.success response.type (message response.msg) manager next

def stopNotify (manager : OTAManager) (env : Environment) (deviceType : UInt16)
    (name version : String) (clientId : Int) : Run Outcome := do
  let (response, next) ← manager.otaStopNotify deviceType name version clientId
  .ok (responseToServer env clientId response.success response.type (message response.msg) next next)

/-- `format_payload` of `publish_query`. -/
def formatPayload (env : Environment) (action : String) : Option String :=
  env.builder.dump (.object [("action", .string action), ("time", .string env.currentTime)])

/-- The payload is printed after the callback has been registered. -/
def query (manager : OTAManager) (env : Environment) (deviceType : UInt16) (deviceNo : UInt32)
    (action : String) (clientId : Int) : Outcome :=
  ⟨(formatPayload env action).map fun _ => true,
    [.register (formatOtaPrex deviceType deviceNo ++ "/responder") clientId], manager⟩

def unregistered (deviceType : UInt16) : Json :=
  message ("device type = " ++ toString deviceType.toNat ++ " has not been registed.")

def otaQueryDownload (manager : OTAManager) (env : Environment) (deviceType : UInt16)
    (deviceNo : UInt32) (name : String) (connectId : Int) : Outcome :=
  if !manager.checkDevice deviceType deviceNo then
    responseToServer env connectId false "query_download" (unregistered deviceType) manager manager
  else
    ⟨some true, [.register ("/ota/" ++ toString deviceType.toNat ++ "/" ++ toString deviceNo.toNat ++
      "/" ++ name ++ "/query_download") connectId], manager⟩

/-- The path that `open` sees: it ends at the first NUL. -/
def filePath (env : Environment) (deviceType : UInt16) (name version : String) : String :=
  String.ofList ((env.filePrevPath ++ "ota_" ++ toString deviceType.toNat ++ "_" ++ version ++ "_" ++
    name ++ ".jpg").toList.takeWhile (· ≠ '\x00'))

/-- A file that cannot be opened is only logged. -/
def otaFileDownload (manager : OTAManager) (env : Environment) (deviceType : UInt16)
    (name version : String) (connectId : Int) : Outcome :=
  if (manager.deviceTypeNums.lookup deviceType).isNone then
    responseToServer env connectId false "file_download" (unregistered deviceType) manager manager
  else
    match env.openFile (filePath env deviceType name version) with
    | none => ⟨some true, [], manager⟩
    | some size =>
        responseToServer env connectId true "file_download" (.object [("file_size", .integer size)])
          manager manager

/-- `detail` is the map of the texts that a command needs; one that is missing reads as empty. -/
def submit (manager : OTAManager) (env : Environment) (deviceType : UInt16) (deviceNo : UInt32)
    (command : String) (clientId : Int) (detail : String → String) : Run Outcome :=
  match command with
  | "OPTIONS" => .ok (responseToServer env clientId true command .null manager manager)
  | "notify" => .ok (manager.notify env deviceType (detail "name") (detail "version") clientId)
  | "query" => .ok (manager.query env deviceType deviceNo (detail "action") clientId)
  | "stop_notify" => manager.stopNotify env deviceType (detail "name") (detail "version") clientId
  | "query_download" =>
      .ok (manager.otaQueryDownload env deviceType deviceNo (detail "name") clientId)
  | "file_download" =>
      .ok (manager.otaFileDownload env deviceType (detail "name") (detail "version") clientId)
  | _ => .ok (responseToServer env clientId false command (message "command is error.") manager manager)

end OTAManager

end OtaMqtt.Ota
