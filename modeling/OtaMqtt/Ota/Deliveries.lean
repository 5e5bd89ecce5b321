import OtaMqtt.Http.Delivery
import OtaMqtt.Lib.JsonText
import OtaMqtt.Ota.Replies
import OtaMqtt.Ota.Routing

/-! Which complete requests get an answer on their connection: the text that a command hands to
`response_to_server` must also get into the write buffer of the session. -/

namespace OtaMqtt.Ota.Deliveries

open OtaMqtt.Lib OtaMqtt.Lib.Execution OtaMqtt.Lib.Trace OtaMqtt.Lib.Utf8
open OtaMqtt.Ota OtaMqtt.Ota.Dispatcher OtaMqtt.Ota.Replies OtaMqtt.Ota.Routing
open OtaMqtt.Http
open OtaMqtt.Http.Delivery (Connection Delivered Room delivered_iff_room)
open OtaMqtt.Http.Buffer (HttpBuffer)
open OtaMqtt.Http.Parser (HttpMethod Message)

section
variable (floats : Rat → String)

mutual

theorem dump_printable (json : Json) : (json.dump floats).isSome = true ↔ Printable json := by
  cases json with
  | null => exact iff_of_true rfl .null
  | boolean value => exact iff_of_true rfl (.boolean value)
  | integer value => exact iff_of_true rfl (.integer value)
  | float value => exact iff_of_true rfl (.float value)
  | string text =>
      rw [Json.dump, Json.quote_isSome]
      refine ⟨.string text, fun printed => ?_⟩
      cases printed with
      | string _ valid => exact valid
  | array elements =>
      rw [Json.dump, Option.isSome_map, dumpElements_printable elements]
      refine ⟨.array elements, fun printed => ?_⟩
      cases printed with
      | array _ all => exact all
  | object members =>
      rw [Json.dump, Option.isSome_map, dumpMembers_printable members]
      refine ⟨fun both => .object members (fun entry member => (both entry member).1)
        fun entry member => (both entry member).2, fun printed => ?_⟩
      cases printed with
      | object _ keys values => exact fun entry member => ⟨keys entry member, values entry member⟩

theorem dumpElements_printable (elements : List Json) :
    (Json.dumpElements floats elements).isSome = true ↔ ∀ element ∈ elements, Printable element := by
  cases elements with
  | nil => simp [Json.dumpElements]
  | cons element elements =>
      have first := dump_printable element
      have rest := dumpElements_printable elements
      rw [Json.dumpElements, List.forall_mem_cons, ← first, ← rest]
      cases element.dump floats with
      | none => simp
      | some text =>
          cases Json.dumpElements floats elements with
          | none => simp
          | some texts => simp

theorem dumpMembers_printable (members : List (String × Json)) :
    (Json.dumpMembers floats members).isSome = true ↔
      ∀ entry ∈ members, utf8 entry.1 = true ∧ Printable entry.2 := by
  cases members with
  | nil => simp [Json.dumpMembers]
  | cons entry members =>
      obtain ⟨key, value⟩ := entry
      have first := dump_printable value
      have rest := dumpMembers_printable members
      rw [Json.dumpMembers, List.forall_mem_cons, ← first, ← rest, ← Json.quote_isSome]
      cases Json.quote key with
      | none => simp
      | some name =>
          cases value.dump floats with
          | none => simp
          | some text =>
              cases Json.dumpMembers floats members with
              | none => simp
              | some texts => simp

end

end

def messageLength (builder : OTAHttpResBuilder) (success : Bool) (text : String) : Nat :=
  let body := 22 + (Json.escaped text).length + if success then 2 else 5
  (builder.statusLine success).length + 71 + (toString body).length + body

def fileHeadLength (builder : OTAHttpResBuilder) (success : Bool) (size : String) : Nat :=
  (builder.statusLine success).length + 141 + size.length

def optionsLength (builder : OTAHttpResBuilder) : Nat := (builder.statusLine true).length + 194

section
variable (env : Environment) (manager : OTAManager)

def notifyLength (deviceType : UInt16) : Nat :=
  match manager.deviceTypeNums.lookup deviceType with
  | none => messageLength env.builder false
      ("device type = " ++ toString deviceType.toNat ++ " has not been registed.")
  | some numbers =>
      if numbers.card = 0 then messageLength env.builder false
        ("device type = " ++ toString deviceType.toNat ++ " device nums = 0.")
      else messageLength env.builder true "notify task submitted."

/-- The answer to a stopped notifier holds its name and its version twice. -/
def stopNotifyLength (deviceType : UInt16) (name version : String) : Nat :=
  let topic := OTAManager.notifyTopic deviceType name version
  if manager.otaNotifierMap.lookup topic = none then messageLength env.builder false
    ("device_type = " ++ toString deviceType.toNat ++ " notifier has not existed.")
  else messageLength env.builder true
    (topic ++ "device_type = " ++ toString deviceType.toNat ++ ", name = " ++ name ++ ", version = " ++
      version ++ " notifier has been stopped.")

def queryDownloadLength (deviceType : UInt16) (deviceNo : UInt32) : Option Nat :=
  if manager.checkDevice deviceType deviceNo then none
  else some (messageLength env.builder false
    ("device type = " ++ toString deviceType.toNat ++ " has not been registed."))

def fileDownloadLength (deviceType : UInt16) (name version : String) : Option Nat :=
  if manager.deviceTypeNums.lookup deviceType = none then
    some (fileHeadLength env.builder false "null")
  else (env.openFile (OTAManager.filePath env deviceType name version)).map fun size =>
    fileHeadLength env.builder true (toString size)

/-- The length of the text that a command hands to `response_to_server`, if it hands over one. -/
def answerLength : Route → Option Nat
  | .submitted deviceType deviceNo command detail =>
      match command with
      | "OPTIONS" => some (optionsLength env.builder)
      | "notify" => some (notifyLength env manager deviceType)
      | "query" => none
      | "stop_notify" => some (stopNotifyLength env manager deviceType (detail "name") (detail "version"))
      | "query_download" => queryDownloadLength env manager deviceType deviceNo
      | "file_download" => fileDownloadLength env manager deviceType (detail "name") (detail "version")
      | _ => some 0
  | _ => none

end

/-- What a command has handed over, unless the printer has thrown before. -/
def Hands (outcome : Outcome) (connectId : Int) : Option Nat → Prop
  | none => ∀ fd text, .respond fd text ∉ outcome.effects
  | some length => (outcome.returned = none ∧ outcome.effects = []) ∨
      ∃ text, outcome.returned = some true ∧ outcome.effects = [.respond connectId text] ∧
        text.length = length

section
variable {env : Environment} {manager : OTAManager} {connectId : Int} {floats : Rat → String}

theorem jsonRes_length (success : Bool) (text response : String)
    (printer : env.builder.dump = Json.dump floats)
    (built : env.builder.jsonRes success (OTAManager.message text) "close\r\n" = some response) :
    response.length = messageLength env.builder success text := by
  have valid : utf8 text = true := by
    have printed : (env.builder.dump (OTAHttpResBuilder.withStatus success
        (OTAManager.message text))).isSome = true := by
      cases dumped : env.builder.dump (OTAHttpResBuilder.withStatus success (OTAManager.message text)) with
      | none =>
          rw [OTAHttpResBuilder.jsonRes, dumped] at built
          cases built
      | some body => rfl
    rw [printer, dump_printable, printable_status] at printed
    exact printed
  have status : utf8 (if success then "ok" else "error") = true := by
    cases success with
    | false => exact utf8_ascii "error" (by decide)
    | true => exact utf8_ascii "ok" (by decide)
  have body := Json.dump_texts floats (utf8_ascii "msg" (by decide)) (utf8_ascii "status" (by decide)) valid
    status
  have sized : ("\x7b\"" ++ Json.escaped "msg" ++ "\":\"" ++ Json.escaped text ++ "\",\"" ++
      Json.escaped "status" ++ "\":\"" ++ Json.escaped (if success then "ok" else "error") ++
      "\"\x7d").length = 22 + (Json.escaped text).length + if success then 2 else 5 := by
    have plain : Json.escaped "msg" = "msg" ∧ Json.escaped "status" = "status" ∧
        Json.escaped "ok" = "ok" ∧ Json.escaped "error" = "error" := by decide
    have sizes : "\x7b\"".length = 2 ∧ "msg".length = 3 ∧ "\":\"".length = 3 ∧ "\",\"".length = 3 ∧
        "status".length = 6 ∧ "\"\x7d".length = 2 ∧ "ok".length = 2 ∧ "error".length = 5 :=
      ⟨rfl, rfl, rfl, rfl, rfl, rfl, rfl, rfl⟩
    cases success with
    | false =>
        simp only [String.length_append, plain, Bool.false_eq_true, if_false]
        omega
    | true =>
        simp only [String.length_append, plain, if_true]
        omega
  have sizes : "Content-Type: application/json".length = 30 ∧ "\r\nContent-Length: ".length = 18 ∧
      "\r\nConnection: ".length = 14 ∧ "close\r\n".length = 7 ∧ "\r\n".length = 2 :=
    ⟨rfl, rfl, rfl, rfl, rfl⟩
  rw [OTAHttpResBuilder.jsonRes, message_status, printer, body] at built
  cases built
  simp only [String.length_append, sized]
  rw [messageLength]
  omega

theorem responded_hands (success : Bool) (type : String) (json : Json) (failed done : OTAManager)
    (length : Nat) (sized : ∀ text, env.builder.buildHttpResponse success json type = some text →
      text.length = length) :
    Hands (OTAManager.responseToServer env connectId success type json failed done) connectId
      (some length) := by
  rw [OTAManager.responseToServer]
  cases built : env.builder.buildHttpResponse success json type with
  | none => exact .inl ⟨rfl, rfl⟩
  | some text => exact .inr ⟨text, rfl, rfl, sized text built⟩

section
variable (printer : env.builder.dump = Json.dump floats)
include printer

theorem message_hands (success : Bool) (type text : String) (failed done : OTAManager)
    (known : type = "notify" ∨ type = "stop_notify" ∨ (type = "query_download" ∧ success = false)) :
    Hands (OTAManager.responseToServer env connectId success type (OTAManager.message text) failed done)
      connectId (some (messageLength env.builder success text)) := by
  apply responded_hands
  intro response built
  rcases known with rfl | rfl | ⟨rfl, rfl⟩
  · exact jsonRes_length success text response printer built
  · exact jsonRes_length success text response printer built
  · exact jsonRes_length false text response printer built

theorem notify_hands (deviceType : UInt16) (name version : String) :
    Hands (manager.notify env deviceType name version connectId) connectId
      (some (notifyLength env manager deviceType)) := by
  unfold OTAManager.notify OTAManager.otaNotify notifyLength
  cases manager.deviceTypeNums.lookup deviceType with
  | none => exact message_hands printer _ _ _ _ _ (.inl rfl)
  | some numbers =>
      dsimp only
      split
      · exact message_hands printer _ _ _ _ _ (.inl rfl)
      · exact message_hands printer _ _ _ _ _ (.inl rfl)

theorem stopNotify_hands (deviceType : UInt16) (name version : String)
    (sound : Timers.TimerSet.Sound manager.timers) :
    ∃ outcome, manager.stopNotify env deviceType name version connectId = .ok outcome ∧
      Hands outcome connectId (some (stopNotifyLength env manager deviceType name version)) := by
  unfold OTAManager.stopNotify OTAManager.otaStopNotify stopNotifyLength
  dsimp only
  cases looked : manager.otaNotifierMap.lookup (OTAManager.notifyTopic deviceType name version) with
  | none => exact ⟨_, rfl, message_hands printer _ _ _ _ _ (.inr (.inl rfl))⟩
  | some notifier =>
      obtain ⟨⟨notifier', timers⟩, stopped⟩ := stop_runs notifier sound
      dsimp only
      rw [stopped, ok_bind, if_neg nofun]
      exact ⟨_, rfl, message_hands printer _ _ _ _ _ (.inr (.inl rfl))⟩

theorem queryDownload_hands (deviceType : UInt16) (deviceNo : UInt32) (name : String) :
    Hands (manager.otaQueryDownload env deviceType deviceNo name connectId) connectId
      (queryDownloadLength env manager deviceType deviceNo) := by
  unfold OTAManager.otaQueryDownload queryDownloadLength
  cases manager.checkDevice deviceType deviceNo with
  | false => exact message_hands printer _ _ _ _ _ (.inr (.inr ⟨rfl, rfl⟩))
  | true =>
      intro fd text member
      simp at member

theorem fileHead_length (success : Bool) (json : Json) (size text : String)
    (printed : Json.dump floats ((if success then json else json.set "status" (.string "error")).get
      "file_size") = some size)
    (built : env.builder.buildHttpResponse success json "file_download" = some text) :
    text.length = fileHeadLength env.builder success size := by
  change env.builder.fileDownloadRes success json = some text at built
  rw [OTAHttpResBuilder.fileDownloadRes, printer] at built
  obtain ⟨body, -, built⟩ := Option.bind_eq_some_iff.mp built
  rw [printed] at built
  cases built
  have sizes : "Content-Type: application/octet-stream".length = 38 ∧ "\r\nContent-Length: ".length = 18 ∧
      "\r\nContent-Disposition: attachment; filename=".length = 44 ∧ "your_file_name.jpg".length = 18 ∧
      "\r\nConnection: ".length = 14 ∧ "close\r\n".length = 7 ∧ "\r\n".length = 2 :=
    ⟨rfl, rfl, rfl, rfl, rfl, rfl, rfl⟩
  simp only [String.length_append]
  rw [fileHeadLength]
  omega

theorem fileDownload_hands (deviceType : UInt16) (name version : String) :
    Hands (manager.otaFileDownload env deviceType name version connectId) connectId
      (fileDownloadLength env manager deviceType name version) := by
  unfold OTAManager.otaFileDownload fileDownloadLength
  cases manager.deviceTypeNums.lookup deviceType with
  | none =>
      apply responded_hands
      intro text built
      exact fileHead_length printer false _ "null" text rfl built
  | some numbers =>
      rw [if_neg nofun, if_neg nofun]
      cases env.openFile (OTAManager.filePath env deviceType name version) with
      | none =>
          intro fd text member
          simp at member
      | some size =>
          apply responded_hands
          intro text built
          exact fileHead_length printer true _ (toString size) text rfl built

end

theorem options_length (text : String) (json : Json)
    (built : env.builder.buildHttpResponse true json "OPTIONS" = some text) :
    text.length = optionsLength env.builder := by
  change env.builder.optionsRes true = some text at built
  rw [OTAHttpResBuilder.optionsRes] at built
  cases built
  have sizes : "Access-Control-Allow-Origin: *\r\n".length = 32 ∧
      "Access-Control-Allow-Methods: GET, POST, OPTIONS\r\n".length = 50 ∧
      "Access-Control-Allow-Headers: Content-Type\r\n".length = 44 ∧
      "Content-Type: text/plain\r\n".length = 26 ∧ "Content-Length: ".length = 16 ∧
      (toString "OK".length).length = 1 ∧ "\r\n".length = 2 ∧ "Connection: close\r\n\r\n".length = 21 ∧
      "OK".length = 2 := ⟨rfl, rfl, rfl, rfl, rfl, by decide, rfl, rfl, rfl⟩
  simp only [String.length_append]
  rw [optionsLength]
  omega

theorem answerLength_other {command : String} {deviceType : UInt16} {deviceNo : UInt32}
    {detail : String → String}
    (other : command ∉ ["notify", "query", "stop_notify", "query_download", "file_download", "OPTIONS"]) :
    answerLength env manager (.submitted deviceType deviceNo command detail) = some 0 := by
  unfold answerLength
  dsimp only
  split
  · exact absurd (by decide) other
  · exact absurd (by decide) other
  · exact absurd (by decide) other
  · exact absurd (by decide) other
  · exact absurd (by decide) other
  · exact absurd (by decide) other
  · rfl

theorem other_length (text command : String) (success : Bool) (json : Json)
    (other : command ∉ ["notify", "query", "stop_notify", "query_download", "file_download", "OPTIONS"])
    (built : env.builder.buildHttpResponse success json command = some text) : text.length = 0 := by
  unfold OTAHttpResBuilder.buildHttpResponse at built
  split at built
  · exact absurd (by decide) other
  · exact absurd (by decide) other
  · exact absurd (by decide) other
  · exact absurd (by decide) other
  · exact absurd (by decide) other
  · exact absurd (by decide) other
  · cases built
    rfl

section
variable (printer : env.builder.dump = Json.dump floats) (sound : Timers.TimerSet.Sound manager.timers)
include printer sound

theorem submit_hands (deviceType : UInt16) (deviceNo : UInt32) (command : String)
    (detail : String → String) :
    ∃ outcome, manager.submit env deviceType deviceNo command connectId detail = .ok outcome ∧
      Hands outcome connectId
        (answerLength env manager (.submitted deviceType deviceNo command detail)) := by
  unfold OTAManager.submit
  split
  · exact ⟨_, rfl, responded_hands _ _ _ _ _ _ fun text built => options_length text _ built⟩
  · exact ⟨_, rfl, notify_hands printer _ _ _⟩
  · refine ⟨_, rfl, fun fd text member => ?_⟩
    simp [OTAManager.query] at member
  · exact stopNotify_hands printer _ _ _ sound
  · exact ⟨_, rfl, queryDownload_hands printer _ _ _⟩
  · exact ⟨_, rfl, fileDownload_hands printer _ _ _⟩
  · rename_i options notify query stopNotify queryDownload fileDownload
    have other : command ∉
        ["notify", "query", "stop_notify", "query_download", "file_download", "OPTIONS"] := by
      simp only [List.mem_cons, List.not_mem_nil, or_false, not_or]
      exact ⟨notify, query, stopNotify, queryDownload, fileDownload, options⟩
    rw [answerLength_other other]
    exact ⟨_, rfl, responded_hands _ _ _ _ _ _ fun text built => other_length text _ _ _ other built⟩

theorem handleRequest_hands (cmd uri body : String) :
    ∃ outcome, handleRequest env manager connectId cmd uri body = .ok outcome ∧
      Hands outcome connectId (answerLength env manager (route env.parse cmd uri body)) := by
  rw [handleRequest_route]
  cases route env.parse cmd uri body with
  | refused => exact ⟨_, rfl, fun fd text member => nomatch member⟩
  | thrown => exact ⟨_, rfl, fun fd text member => nomatch member⟩
  | submitted deviceType deviceNo command detail =>
      exact submit_hands printer sound deviceType deviceNo command detail

end

end

def memory (text : String) (index : Nat) : UInt8 := (text.toList.map Char.toUInt8).getD index 0

/-- A response head gets into the write buffer of the connection, whatever its sender does, or a
callback that holds the connection was registered. -/
def Answered (connection : Connection) (outcome : Outcome) (connectId : Int) : Prop :=
  (∃ text, .respond connectId text ∈ outcome.effects ∧
      Delivered .toReady (memory text) text.length connection) ∨
    ∃ topic, .register topic connectId ∈ outcome.effects

/-- The request is answerable, and there is room on its connection for the text that it is answered
with. -/
def Deliverable (env : Environment) (manager : OTAManager) (connection : Connection)
    (request : Message) : Prop :=
  Answerable env manager request ∧
    ∀ length, answerLength env manager (route env.parse (getMethod request.method)
      (ofBytes request.uri) (ofBytes request.requestBody)) = some length → Room connection length

theorem answered_by_hands {connection : Connection} {outcome : Outcome} {connectId : Int}
    {length : Option Nat} (inside : RingStates.InRange connection.ring)
    (hands : Hands outcome connectId length) :
    Answered connection outcome connectId ↔
      Replies.Answered outcome connectId ∧ ∀ size, length = some size → Room connection size := by
  constructor
  · rintro (⟨text, member, delivered⟩ | ⟨topic, member⟩)
    · have roomy := (delivered_iff_room inside).mp delivered
      cases length with
      | none => exact absurd member (hands connectId text)
      | some size =>
          rcases hands with ⟨-, nothing⟩ | ⟨text', -, only, sized⟩
          · rw [nothing] at member
            cases member
          · rw [only, List.mem_singleton] at member
            cases member
            refine ⟨.inl ⟨text, by rw [only]; exact List.mem_cons_self, nonempty_text roomy.2.1⟩, ?_⟩
            intro other same
            cases same
            rw [← sized]
            exact roomy
    · refine ⟨.inr ⟨topic, member⟩, fun size same => ?_⟩
      cases same
      rcases hands with ⟨-, nothing⟩ | ⟨text', -, only, sized⟩
      · rw [nothing] at member
        cases member
      · rw [only, List.mem_singleton] at member
        cases member
  · rintro ⟨⟨text, member, -⟩ | ⟨topic, member⟩, roomy⟩
    · cases length with
      | none => exact absurd member (hands connectId text)
      | some size =>
          rcases hands with ⟨-, nothing⟩ | ⟨text', -, only, sized⟩
          · rw [nothing] at member
            cases member
          · rw [only, List.mem_singleton] at member
            cases member
            refine .inl ⟨text, by rw [only]; exact List.mem_cons_self, ?_⟩
            rw [delivered_iff_room inside, sized]
            exact roomy size rfl
    · exact .inr ⟨topic, member⟩

/-- The name of a notifier that is stopped comes back twice, so from a length of 2049 on there is
never room for the answer. -/
theorem long_name_unanswered (env : Environment) (manager : OTAManager) (connection : Connection)
    (deviceType : UInt16) (name version : String) (long : 2049 ≤ name.length)
    (made : manager.otaNotifierMap.lookup (OTAManager.notifyTopic deviceType name version) ≠ none)
    (junk : Nat → UInt8) (labels : List Queueing.Label)
    (reached : run Queueing.step (HttpBuffer.fresh Queueing.bufferSize junk) labels =
      some connection.ring) :
    ¬ Room connection (stopNotifyLength env manager deviceType name version) := by
  intro roomy
  have bound := Delivery.room_bounded (Queueing.run_held junk labels reached) roomy
  rw [stopNotifyLength, if_neg made, messageLength, Queueing.bufferSize] at bound
  have kept := Json.escaped_longer (OTAManager.notifyTopic deviceType name version ++ "device_type = " ++
    toString deviceType.toNat ++ ", name = " ++ name ++ ", version = " ++ version ++
    " notifier has been stopped.")
  have twice : 2 * name.length ≤ (OTAManager.notifyTopic deviceType name version ++ "device_type = " ++
      toString deviceType.toNat ++ ", name = " ++ name ++ ", version = " ++ version ++
      " notifier has been stopped.").length := by
    simp only [OTAManager.notifyTopic, String.length_append]
    omega
  omega

def bareServer (parse : String → Option Json) : Environment where
  builder := ⟨"1.1", Json.dump fun _ => "0.0"⟩
  parse := parse
  openFile := fun _ => none
  filePrevPath := "/file/"
  currentTime := "2025-06-01 12:00:00"
  now := 0

def request (method : HttpMethod) (uri body : String) : Message where
  checkState := .header
  method := method
  uri := OtaMqtt.Lib.CText.ascii uri
  requestBody := OtaMqtt.Lib.CText.ascii body
  contentLength := 0
  keepAlive := false
  host := []

end OtaMqtt.Ota.Deliveries
