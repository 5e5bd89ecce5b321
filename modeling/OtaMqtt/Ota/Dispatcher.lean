import OtaMqtt.Http.Parser
import OtaMqtt.Lib.Stream
import OtaMqtt.Ota.Submit

/-! From a complete request to a command (sherry/ota_http_command_dispatcher.cc and
`update_buffer_size` of http/http_session.cc).

A text is the sequence of its bytes, one character a byte. -/

namespace OtaMqtt.Ota

open OtaMqtt.Lib OtaMqtt.Lib.Execution OtaMqtt.Lib.Stream
open OtaMqtt.Http.Parser (HttpMethod Message)

/-- How `get_element` ends. -/
inductive Element (α : Type) where
  | missing
  | thrown
  | found (value : α)

namespace Dispatcher

/-- `get_element` for the two numbers of a request; `cast` is the conversion to their type. -/
def getNumber {α : Type} (cast : Int → α) (key : String) (json : Json) : Element α :=
  match json.find key with
  | none => .missing
  | some (.integer value) => .found (cast value)
  | some (.string text) =>
      match stoul text with
      | none => .thrown
      | some value => .found (cast value.toNat)
  | some _ => .missing

def getDeviceType (json : Json) : Element UInt16 := getNumber UInt16.ofInt "device_type" json

def getDeviceNo (json : Json) : Element UInt32 := getNumber UInt32.ofInt "device_no" json

/-- `get_element` for a text: the conversion of another value throws. -/
def getText (key : String) (json : Json) : Element String :=
  match json.find key with
  | none => .missing
  | some (.string text) => .found text
  | some _ => .thrown

variable (env : Environment) (manager : OTAManager) (connectId : Int)

def refused : Run Outcome := .ok ⟨some false, [], manager⟩

def thrown : Run Outcome := .ok ⟨none, [], manager⟩

/-- A `submit` goes on when it has got an element. -/
def withElement {α : Type} (element : Element α) (next : α → Run Outcome) : Run Outcome :=
  match element with
  | .missing => refused manager
  | .thrown => thrown manager
  | .found value => next value

def detail (entries : List (String × String)) (key : String) : String :=
  (entries.lookup key).getD ""

/-- The requests that need a type, a version and a name. -/
def versionReq (command : String) (json : Json) : Run Outcome :=
  withElement manager (getDeviceType json) fun deviceType =>
    withElement manager (getText "version" json) fun version =>
      withElement manager (getText "name" json) fun name =>
        manager.submit env deviceType (-1) command connectId
          (detail [("version", version), ("name", name)])

/-- The requests that need a type, a number and one more text. -/
def deviceReq (command key : String) (json : Json) : Run Outcome :=
  withElement manager (getDeviceType json) fun deviceType =>
    withElement manager (getDeviceNo json) fun deviceNo =>
      withElement manager (getText key json) fun text =>
        manager.submit env deviceType deviceNo command connectId (detail [(key, text)])

def notifyReq (json : Json) : Run Outcome := versionReq env manager connectId "notify" json

def stopNotifyReq (json : Json) : Run Outcome := versionReq env manager connectId "stop_notify" json

def fileDownloadReq (json : Json) : Run Outcome := versionReq env manager connectId "file_download" json

def queryReq (json : Json) : Run Outcome := deviceReq env manager connectId "query" "action" json

def queryDownloadReq (json : Json) : Run Outcome :=
  deviceReq env manager connectId "query_download" "name" json

def optionsReq : Run Outcome := manager.submit env (-1) (-1) "OPTIONS" connectId (detail [])

/-- The lookup in `m_command_dispatchers` and the call. -/
def dispatch (command : String) (json : Json) : Run Outcome :=
  match command with
  | "notify" => notifyReq env manager connectId json
  | "query" => queryReq env manager connectId json
  | "stop_notify" => stopNotifyReq env manager connectId json
  | "query_download" => queryDownloadReq env manager connectId json
  | "file_download" => fileDownloadReq env manager connectId json
  | "OPTIONS" => optionsReq env manager connectId
  | _ => refused manager

/-- `check_uri` of a POST; the three calls of `getline` skip the parts of the beginning. -/
def checkUri (uri : String) : Option String :=
  if "/api/ota/".toList.isPrefixOf uri.toList then
    let rest := (getline '/' (getline '/' (getline '/' uri.toList).2).2).2
    some (extract rest)
  else none

/-- `check_uri` of a GET. -/
def checkDownloadUri (uri : String) : Option (UInt16 × String × String × String) :=
  if "/download/ota/".toList.isPrefixOf uri.toList then
    let rest := (getline '/' (getline '/' (getline '/' uri.toList).2).2).2
    let (tmp, rest) := getline '/' rest
    match stoul tmp with
    | none => none
    | some value =>
        let (name, rest) := getline '/' rest
        let (version, rest) := getline '/' rest
        some (value.toUInt16, name, version, extract rest)
  else none

/-- The value that `handle_request` builds for a GET. -/
def downloadJson (deviceType : UInt16) (name version : String) : Json :=
  .object [("device_type", .integer deviceType.toNat), ("name", .string name),
    ("version", .string version)]

def handleRequest (cmd uri body : String) : Run Outcome :=
  if cmd = "POST" then
    match checkUri uri with
    | none => refused manager
    | some command =>
        match env.parse body with
        | none => thrown manager
        | some json => dispatch env manager connectId command json
  else if cmd = "GET" then
    match checkDownloadUri uri with
    | none => refused manager
    | some (deviceType, name, version, command) =>
        dispatch env manager connectId command (downloadJson deviceType name version)
  else if cmd = "OPTIONS" then optionsReq env manager connectId
  else refused manager

end Dispatcher

def getMethod : HttpMethod → String
  | .post => "POST"
  | .get => "GET"
  | .options => "OPTIONS"
  | .none => ""

def ofBytes (bytes : List UInt8) : String := String.ofList (bytes.map fun byte => Char.ofNat byte.toNat)

/-- What `HttpSession::update_buffer_size` does with a complete request. -/
def onGetRequest (env : Environment) (manager : OTAManager) (connectId : Int) (request : Message) :
    Run Outcome :=
  Dispatcher.handleRequest env manager connectId (getMethod request.method) (ofBytes request.uri)
    (ofBytes request.requestBody)

end OtaMqtt.Ota
