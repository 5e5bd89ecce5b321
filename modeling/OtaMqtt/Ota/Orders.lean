import OtaMqtt.Http.KeepAlive
import OtaMqtt.Ota.FilePaths

/-! A command on its whole way: the request that a client sends, in whatever pieces the transport
delivers it, through the parser and the dispatcher to the manager. -/

namespace OtaMqtt.Ota.Orders

open OtaMqtt.Lib OtaMqtt.Lib.CText OtaMqtt.Lib.Execution OtaMqtt.Lib.Stream
open OtaMqtt.Http.Requests OtaMqtt.Http.Segments OtaMqtt.Http.KeepAlive
open OtaMqtt.Ota OtaMqtt.Ota.Dispatcher OtaMqtt.Ota.Routing
open OtaMqtt.Ota.FilePaths (Slashless asks_downloads downloadUri get_asks)

inductive Order where
  | notify (deviceType : UInt16) (name version : String)
  | stopNotify (deviceType : UInt16) (name version : String)
  | query (deviceType : UInt16) (deviceNo : UInt32) (action : String)
  | queryDownload (deviceType : UInt16) (deviceNo : UInt32) (name : String)
  | fileDownload (deviceType : UInt16) (name version : String)

namespace Order

def command : Order → String
  | notify .. => "notify"
  | stopNotify .. => "stop_notify"
  | query .. => "query"
  | queryDownload .. => "query_download"
  | fileDownload .. => "file_download"

def deviceType : Order → UInt16
  | notify deviceType _ _ => deviceType
  | stopNotify deviceType _ _ => deviceType
  | query deviceType _ _ => deviceType
  | queryDownload deviceType _ _ => deviceType
  | fileDownload deviceType _ _ => deviceType

def deviceNo : Order → Option UInt32
  | query _ deviceNo _ => some deviceNo
  | queryDownload _ deviceNo _ => some deviceNo
  | _ => none

def texts : Order → List (String × String)
  | notify _ name version => [("version", version), ("name", name)]
  | stopNotify _ name version => [("version", version), ("name", name)]
  | query _ _ action => [("action", action)]
  | queryDownload _ _ name => [("name", name)]
  | fileDownload _ name version => [("version", version), ("name", name)]

def carriedOut (env : Environment) (manager : OTAManager) (connectId : Int) : Order → Run Outcome
  | notify deviceType name version => .ok (manager.notify env deviceType name version connectId)
  | stopNotify deviceType name version => manager.stopNotify env deviceType name version connectId
  | query deviceType deviceNo action => .ok (manager.query env deviceType deviceNo action connectId)
  | queryDownload deviceType deviceNo name =>
      .ok (manager.otaQueryDownload env deviceType deviceNo name connectId)
  | fileDownload deviceType name version =>
      .ok (manager.otaFileDownload env deviceType name version connectId)

end Order

/-- The members of the JSON value say what the order says; a number may be written as a text, and
there may be other members. -/
structure Written (order : Order) (json : Json) : Prop where
  deviceType : Names (json.find "device_type") order.deviceType.toNat
  deviceNo : ∀ number ∈ order.deviceNo, Names (json.find "device_no") number.toNat
  texts : ∀ entry ∈ order.texts, json.find entry.1 = some (.string entry.2)

structure Posted (parse : String → Option Json) (order : Order) (request : Request) : Prop where
  method : method request = .post
  uri : ofBytes request.uri = "/api/ota/" ++ order.command
  body : ∃ json, parse (ofBytes request.body) = some json ∧ Written order json

/-- A download may also be asked for by its uri, where a slash would end the name. -/
def Fetched (request : Request) : Order → Prop
  | .fileDownload deviceType name version =>
      method request = .get ∧ ofBytes request.uri = downloadUri ⟨deviceType, name, version⟩ ∧
        Slashless ⟨deviceType, name, version⟩
  | _ => False

def CarriedBy (parse : String → Option Json) (order : Order) (request : Request) : Prop :=
  Posted parse order request ∨ Fetched request order

/-- What the session does with a complete request. -/
def handled (env : Environment) (manager : OTAManager) (connectId : Int) (report : Report) :
    Run Outcome :=
  handleRequest env manager connectId (getMethod report.method) (ofBytes report.uri) (ofBytes report.body)

section
variable {json : Json} {order : Order}

theorem Written.readType (written : Written order json) :
    getDeviceType json = .found order.deviceType := by
  have bound : order.deviceType.toNat < 2 ^ 64 := lt_trans order.deviceType.toNat_lt (by decide)
  rw [getDeviceType, getNumber_named _ _ _ _ written.deviceType bound]
  exact congrArg Element.found (UInt16.toNat_inj.mp (uint16_keeps _ order.deviceType.toNat_lt))

theorem Written.readNo (written : Written order json) {number : UInt32} (needed : number ∈ order.deviceNo) :
    getDeviceNo json = .found number := by
  have bound : number.toNat < 2 ^ 64 := lt_trans number.toNat_lt (by decide)
  rw [getDeviceNo, getNumber_named _ _ _ _ (written.deviceNo number needed) bound]
  exact congrArg Element.found (UInt32.toNat_inj.mp (uint32_keeps _ number.toNat_lt))

theorem Written.readText (written : Written order json) {key text : String}
    (needed : (key, text) ∈ order.texts) : getText key json = .found text := by
  rw [getText, written.texts (key, text) needed]

variable (env : Environment) (manager : OTAManager) (connectId : Int)

theorem versionReq_written {deviceType : UInt16} {name version : String} (command : String)
    (typed : getDeviceType json = .found deviceType)
    (versioned : getText "version" json = .found version) (named : getText "name" json = .found name) :
    versionReq env manager connectId command json =
      manager.submit env deviceType (-1) command connectId
        (detail [("version", version), ("name", name)]) := by
  rw [versionReq, typed, withElement, versioned, withElement, named, withElement]

theorem deviceReq_written {deviceType : UInt16} {deviceNo : UInt32} {text : String} (command key : String)
    (typed : getDeviceType json = .found deviceType) (counted : getDeviceNo json = .found deviceNo)
    (found : getText key json = .found text) :
    deviceReq env manager connectId command key json =
      manager.submit env deviceType deviceNo command connectId (detail [(key, text)]) := by
  rw [deviceReq, typed, withElement, counted, withElement, found, withElement]

theorem dispatch_written (written : Written order json) :
    dispatch env manager connectId order.command json = order.carriedOut env manager connectId := by
  have typed := written.readType
  cases order with
  | notify deviceType name version =>
      exact versionReq_written env manager connectId "notify" typed
        (written.readText (List.mem_cons_self)) (written.readText (List.mem_of_mem_tail List.mem_cons_self))
  | stopNotify deviceType name version =>
      exact versionReq_written env manager connectId "stop_notify" typed
        (written.readText (List.mem_cons_self)) (written.readText (List.mem_of_mem_tail List.mem_cons_self))
  | query deviceType deviceNo action =>
      exact deviceReq_written env manager connectId "query" "action" typed (written.readNo rfl)
        (written.readText List.mem_cons_self)
  | queryDownload deviceType deviceNo name =>
      exact deviceReq_written env manager connectId "query_download" "name" typed (written.readNo rfl)
        (written.readText List.mem_cons_self)
  | fileDownload deviceType name version =>
      exact versionReq_written env manager connectId "file_download" typed
        (written.readText (List.mem_cons_self)) (written.readText (List.mem_of_mem_tail List.mem_cons_self))

theorem checkUri_order (order : Order) : checkUri ("/api/ota/" ++ order.command) = some order.command := by
  have known : order.command ∈ deviceCommands := by
    cases order <;> simp [Order.command, deviceCommands]
  rcases mem_deviceCommands known with is | is | is | is | is <;> rw [is] <;> decide +kernel

theorem handled_carried {request : Request} (order : Order) (carried : CarriedBy env.parse order request) :
    handled env manager connectId (expected request) = order.carriedOut env manager connectId := by
  change handleRequest env manager connectId (getMethod (method request)) (ofBytes request.uri)
    (ofBytes request.body) = _
  rcases carried with ⟨posted, uri, json, parsed, written⟩ | fetched
  · rw [posted, uri, getMethod, handleRequest, if_pos rfl, checkUri_order order]
    dsimp only
    rw [parsed]
    exact dispatch_written env manager connectId written
  · cases order with
    | fileDownload deviceType name version =>
        obtain ⟨got, uri, slashless⟩ := fetched
        rw [got, uri]
        exact asks_downloads env manager connectId ⟨"GET", _, _⟩ ⟨deviceType, name, version⟩
          (get_asks env.parse _ _ slashless)
    | notify deviceType name version => exact fetched.elim
    | stopNotify deviceType name version => exact fetched.elim
    | query deviceType deviceNo action => exact fetched.elim
    | queryDownload deviceType deviceNo name => exact fetched.elim

end

theorem answer_understood {request : Request} {capacity : Nat} (ordinary : Ordinary request)
    (understood : Understood request) (fits : request.encode.length < capacity) (bound : capacity < 2 ^ 31) :
    answer request = expected request := by
  have positive : 0 < capacity := Nat.zero_lt_of_lt fits
  have inside : 0 + request.encode.length < (opened capacity fun _ => 0).2.capacity := by
    rw [Nat.zero_add]
    exact fits
  obtain ⟨next, whole⟩ := deliver_whole ordinary.toWellFormed fits bound
    (opened_reading positive bound : Reading request capacity (fun _ => 0) _ _ _ _ _ _) request.encode rfl
  obtain ⟨other, accepted, -⟩ := deliver_accepted ordinary (opened_idle capacity _ positive bound)
    (begun_fresh request ordinary.shaped ordinary.named ordinary.current) inside understood.accepted
  obtain ⟨same, -⟩ := Prod.mk.inj (Except.ok.inj (whole.symm.trans accepted))
  have body : (if request.headers.any legible then request.body else []) = request.body := by
    by_cases empty : request.body = []
    · rw [empty, ite_self]
    · rw [if_pos (understood.sized empty)]
  rw [same, body]
  rfl

/-- However an order's request is cut before its head is decided, the parser reports it once, at its
last byte, and the manager carries out the order. -/
theorem order_carried_out (env : Environment) (manager : OTAManager) (connectId : Int) (order : Order)
    (request : Request) (chunks : List (List UInt8)) (capacity : Nat) (junk : Nat → UInt8)
    (ordinary : Ordinary request) (understood : Understood request)
    (carried : CarriedBy env.parse order request) (fits : request.encode.length < capacity)
    (bound : capacity < 2 ^ 31) (whole : chunks.flatten = request.encode)
    (cuts : CutBefore request.decision chunks) :
    ∃ earlier last, reports capacity junk chunks = .ok (earlier ++ [last]) ∧
      (∀ report ∈ earlier, report.code = .noRequest) ∧ last.code = .getRequest ∧
      handled env manager connectId last = order.carriedOut env manager connectId := by
  have positive : 0 < request.encode.length := by
    simp [Request.encode, Request.lines, OtaMqtt.Http.ParserRuns.encodeLines_cons]
  have some : chunks ≠ [] := by
    rintro rfl
    rw [← whole] at positive
    exact Nat.lt_irrefl 0 positive
  obtain ⟨earlier, reported, silent⟩ := answers_of_cuts ordinary.toWellFormed fits bound chunks _ _ _ _ _ _
    (opened_reading (Nat.lt_trans positive fits) bound : Reading request capacity junk _ _ _ _ _ _) whole some
    (by simpa [CutBefore] using cuts)
  refine ⟨earlier, answer request, reported, silent, ?_, ?_⟩
  · rw [answer_understood ordinary understood fits bound]
    rfl
  · rw [answer_understood ordinary understood fits bound]
    exact handled_carried env manager connectId order carried

def queryText : String := "\x7b\"device_type\":1,\"device_no\":101,\"action\":\"version\"\x7d"

/-- A POST that asks device 101 of type 1 for its version. -/
def queried : Request :=
  ⟨ascii "POST", ascii "/api/ota/query", ascii "HTTP/1.1",
    [ascii "Content-type: application/json", ascii "Content-Length: 52"], ascii queryText⟩

def queryJson : Json :=
  .object [("device_type", .integer 1), ("device_no", .integer 101), ("action", .string "version")]

def queryServer : Environment where
  builder := { httpVersion := "1.1", dump := fun _ => none }
  parse text := if text = queryText then some queryJson else none
  openFile := fun _ => none
  filePrevPath := "./file/"
  currentTime := "2025-06-01 12:00:00"
  now := 0

theorem queried_ordinary : Ordinary queried where
  verb := by
    show Token (ascii "POST")
    decide +kernel
  uri := by
    show Token (ascii "/api/ota/query")
    decide +kernel
  version := by
    show Token (ascii "HTTP/1.1")
    decide +kernel
  headers := by decide +kernel
  body := by decide +kernel
  length := .inr ⟨ascii "Content-Length: 52", by decide +kernel, [32], ascii "52", [], by decide +kernel,
    by decide +kernel, by decide +kernel, by decide +kernel, by decide +kernel, by decide +kernel⟩
  named := by decide +kernel
  current := rfl

theorem queried_carries : CarriedBy queryServer.parse (.query 1 101 "version") queried := by
  have read : ofBytes queried.body = queryText := by decide +kernel
  refine .inl ⟨by decide +kernel, by decide +kernel, queryJson, ?_, ?_, ?_, ?_⟩
  · rw [read]
    show (if queryText = queryText then some queryJson else none) = some queryJson
    exact if_pos rfl
  · rfl
  · intro number needed
    cases needed
    rfl
  · intro entry needed
    cases List.mem_singleton.mp needed
    rfl

/-- The request comes in two pieces, cut in its head. -/
theorem queried_in_pieces :
    ∃ earlier last, reports 4096 (fun _ => 7) [queried.encode.take 30, queried.encode.drop 30] =
        .ok (earlier ++ [last]) ∧
      (∀ report ∈ earlier, report.code = .noRequest) ∧ last.code = .getRequest ∧
      handled queryServer (.fresh 0) 5 last =
        (Order.query 1 101 "version").carriedOut queryServer (.fresh 0) 5 :=
  order_carried_out queryServer (.fresh 0) 5 (.query 1 101 "version") queried _ 4096 (fun _ => 7)
    queried_ordinary ⟨by decide +kernel, fun _ => by decide +kernel⟩ queried_carries (by decide +kernel)
    (by decide) (by simp) (cutBefore_pair _ _ _ (by decide +kernel))

end OtaMqtt.Ota.Orders
