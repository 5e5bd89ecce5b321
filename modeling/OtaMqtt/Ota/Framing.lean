import OtaMqtt.Lib.Framing
import OtaMqtt.Ota.Replies

/-! How the responses of the builder and a downloaded file are framed (`send_file` of
sherry/ota_manager.cc streams the file behind its head). -/

namespace OtaMqtt.Ota.Framing

open OtaMqtt.Lib OtaMqtt.Lib.Execution OtaMqtt.Lib.Framing OtaMqtt.Lib.Utf8
open OtaMqtt.Ota OtaMqtt.Ota.Replies

/-- The loop of `send_file` over the rest of a file, with the chunks that it sends. A call of
`read` gives as many bytes as it likes of those that fit, and none at the end. -/
inductive Sends (bufferSize : Nat) : List Char → List (List Char) → Prop where
  | finished (content : List Char) (nothing : min bufferSize content.length = 0) :
      Sends bufferSize content []
  | chunk (content : List Char) (chunks : List (List Char)) (count : Nat) (positive : 0 < count)
      (fits : count ≤ min bufferSize content.length)
      (rest : Sends bufferSize (content.drop count) chunks) :
      Sends bufferSize content (content.take count :: chunks)

theorem sends_ends (bufferSize : Nat) (content : List Char) :
    ∃ chunks, Sends bufferSize content chunks := by
  induction size : content.length using Nat.strong_induction_on generalizing content with
  | _ length ih =>
      by_cases nothing : min bufferSize content.length = 0
      · exact ⟨[], .finished content nothing⟩
      · have shorter : (content.drop (min bufferSize content.length)).length < length := by
          rw [List.length_drop]
          omega
        obtain ⟨chunks, rest⟩ := ih _ shorter _ rfl
        exact ⟨_, .chunk content chunks _ (Nat.pos_of_ne_zero nothing) (Nat.le_refl _) rest⟩

theorem sends_all {bufferSize : Nat} {content : List Char} {chunks : List (List Char)}
    (positive : 0 < bufferSize) (sends : Sends bufferSize content chunks) :
    chunks.flatten = content := by
  induction sends with
  | finished content nothing =>
      have empty : content.length = 0 := by omega
      rw [List.length_eq_zero_iff.mp empty]
      rfl
  | chunk content chunks count some fits rest ih =>
      rw [List.flatten_cons, ih, List.take_append_drop]

/-- The arguments of the calls of `response_to_server`, with what is streamed behind the response.
All but the last two may have any value. -/
inductive Passes : String → Bool → Json → List Char → Prop where
  | other (type : String) (success : Bool) (json : Json)
      (known : type ∈ ["notify", "query", "stop_notify", "query_download", "OPTIONS"]) :
      Passes type success json []
  | unregistered (deviceType : UInt16) :
      Passes "file_download" false (OTAManager.unregistered deviceType) []
  | file (content : List Char) :
      Passes "file_download" true (.object [("file_size", .integer content.length)]) content

variable (builder : OTAHttpResBuilder)

def status (success : Bool) : List Char :=
  ("HTTP/" ++ builder.httpVersion ++ if success then " 200 OK" else " 400 Bad Request").toList

/-- The body that a client is to get. -/
def expected (type : String) (success : Bool) (json : Json) (file : List Char) : Option (List Char) :=
  if type = "OPTIONS" then some "OK".toList
  else if type = "file_download" ∧ success = true then some file
  else (builder.dump (OTAHttpResBuilder.withStatus success json)).map String.toList

/-- The response is framed with the chunks behind it, and a client that goes by its length header
gets the body, whatever follows on the connection. -/
def Recovered (type : String) (success : Bool) (json : Json) (file : List Char)
    (sent : List Char) : Prop :=
  ∃ headers body, expected builder type success json file = some body ∧
    Framed sent (status builder success) headers body ∧
    ∀ following, receive (sent ++ following) = some ⟨status builder success, headers, body, following⟩

def WellFramed (bufferSize : Nat) (type : String) (success : Bool) (json : Json)
    (file : List Char) : Prop :=
  (∃ chunks, Sends bufferSize file chunks) ∧
    ∀ chunks text, Sends bufferSize file chunks →
      builder.buildHttpResponse success json type = some text →
        Recovered builder type success json file (text.toList ++ chunks.flatten)

section
variable {builder : OTAHttpResBuilder} {success : Bool}

theorem recovered_of_framed {type : String} {json : Json} {file sent body : List Char}
    {headers : List (List Char)} (same : expected builder type success json file = some body)
    (framed : Framed sent (status builder success) headers body) :
    Recovered builder type success json file sent :=
  ⟨headers, body, same, framed, receive_framed framed⟩

theorem plain_status (version : Plain builder.httpVersion.toList) :
    Plain (status builder success) := by
  rw [status, String.toList_append, String.toList_append]
  apply plain_append
  · exact plain_append _ _ (by decide) version
  · cases success with
    | false => decide
    | true => decide

theorem statusLine_eq : (builder.statusLine success).toList = status builder success ++ crlf := by
  cases success with
  | false =>
      have line : " 400 Bad Request\r\n".toList = " 400 Bad Request".toList ++ crlf := rfl
      simp only [OTAHttpResBuilder.statusLine, status, String.toList_append, Bool.false_eq_true,
        if_false, line, List.append_assoc]
  | true =>
      have line : " 200 OK\r\n".toList = " 200 OK".toList ++ crlf := rfl
      simp only [OTAHttpResBuilder.statusLine, status, String.toList_append, if_true, line,
        List.append_assoc]

theorem lineEnd_eq : "\r\n".toList = crlf := rfl

theorem lengthStart_eq : "\r\nContent-Length: ".toList = crlf ++ lengthName := rfl

theorem connectionStart_eq : "\r\nConnection: ".toList = crlf ++ "Connection: ".toList := by
  simp [crlf]

def jsonHeaders (body word : String) : List (List Char) :=
  ["Content-Type: application/json".toList, lengthName ++ (toString body.length).toList,
    "Connection: ".toList ++ word.toList]

theorem plain_length (number : Nat) :
    lengthName ++ (toString number).toList ≠ [] ∧ Plain (lengthName ++ (toString number).toList) :=
  ⟨List.append_ne_nil_of_left_ne_nil (by decide) _,
    plain_append _ _ (by decide) (plain_number number)⟩

theorem jsonRes_framed (json : Json) (word text : String)
    (version : Plain builder.httpVersion.toList) (known : word = "close" ∨ word = "keep-alive")
    (built : builder.jsonRes success json (word ++ "\r\n") = some text) :
    ∃ body, builder.dump (OTAHttpResBuilder.withStatus success json) = some body ∧
      Framed text.toList (status builder success) (jsonHeaders body word) body.toList := by
  obtain ⟨body, dumped, built⟩ := Option.bind_eq_some_iff.mp built
  have connection : "Connection: ".toList ++ word.toList ≠ [] ∧
      Plain ("Connection: ".toList ++ word.toList) ∧
      lengthName.isPrefixOf ("Connection: ".toList ++ word.toList) = false := by
    rcases known with rfl | rfl
    · decide
    · decide
  refine ⟨body, dumped, ?_, plain_status version, ?_, ?_⟩
  · rw [← Option.some.inj built]
    simp only [-String.reduceToList, String.toList_append, statusLine_eq, lengthStart_eq,
      connectionStart_eq, lineEnd_eq, write, jsonHeaders, List.flatMap_cons, List.flatMap_nil,
      List.append_assoc, List.append_nil]
  · intro header member
    simp only [jsonHeaders, List.mem_cons, List.not_mem_nil, or_false] at member
    rcases member with rfl | rfl | rfl
    · decide
    · exact plain_length body.length
    · exact ⟨connection.1, connection.2.1⟩
  · rw [jsonHeaders, lengthValues_other _ _ (by decide), lengthValues_length,
      lengthValues_other _ _ connection.2.2, String.length_toList]
    rfl

theorem json_recovered {type : String} (json : Json) (word text : String) (file : List Char)
    (version : Plain builder.httpVersion.toList) (known : word = "close" ∨ word = "keep-alive")
    (same : expected builder type success json file =
      (builder.dump (OTAHttpResBuilder.withStatus success json)).map String.toList)
    (built : builder.jsonRes success json (word ++ "\r\n") = some text) :
    Recovered builder type success json file text.toList := by
  obtain ⟨body, dumped, framed⟩ := jsonRes_framed json word text version known built
  rw [dumped] at same
  exact recovered_of_framed same framed

def optionsHeaders : List (List Char) :=
  ["Access-Control-Allow-Origin: *".toList, "Access-Control-Allow-Methods: GET, POST, OPTIONS".toList,
    "Access-Control-Allow-Headers: Content-Type".toList, "Content-Type: text/plain".toList,
    lengthName ++ (toString "OK".length).toList, "Connection: close".toList]

theorem options_recovered (json : Json) (text : String) (file : List Char)
    (version : Plain builder.httpVersion.toList) (built : builder.optionsRes success = some text) :
    Recovered builder "OPTIONS" success json file text.toList := by
  have written : text.toList = write (status builder success) optionsHeaders "OK".toList := by
    have origin : "Access-Control-Allow-Origin: *\r\n".toList =
        "Access-Control-Allow-Origin: *".toList ++ crlf := by simp [crlf]
    have methods : "Access-Control-Allow-Methods: GET, POST, OPTIONS\r\n".toList =
        "Access-Control-Allow-Methods: GET, POST, OPTIONS".toList ++ crlf := by simp [crlf]
    have fields : "Access-Control-Allow-Headers: Content-Type\r\n".toList =
        "Access-Control-Allow-Headers: Content-Type".toList ++ crlf := by simp [crlf]
    have kind : "Content-Type: text/plain\r\n".toList = "Content-Type: text/plain".toList ++ crlf := by
      simp [crlf]
    have length : "Content-Length: ".toList = lengthName := rfl
    have connection : "Connection: close\r\n\r\n".toList = "Connection: close".toList ++ crlf ++ crlf := by
      simp [crlf]
    rw [← Option.some.inj built]
    simp only [-String.reduceToList, String.toList_append, statusLine_eq, origin, methods, fields, kind,
      length, connection, lineEnd_eq, write, optionsHeaders, List.flatMap_cons, List.flatMap_nil,
      List.append_assoc, List.append_nil]
  exact recovered_of_framed rfl ⟨written, plain_status version, by decide +kernel, by decide +kernel⟩

def fileHeaders (size : List Char) : List (List Char) :=
  ["Content-Type: application/octet-stream".toList, lengthName ++ size,
    "Content-Disposition: attachment; filename=".toList ++ "your_file_name.jpg".toList,
    "Connection: ".toList ++ "close".toList]

theorem fileHeaders_lines (size : List Char) (plain : Plain size) :
    ∀ header ∈ fileHeaders size, header ≠ [] ∧ Plain header := by
  intro header member
  simp only [fileHeaders, List.mem_cons, List.not_mem_nil, or_false] at member
  rcases member with rfl | rfl | rfl | rfl
  · decide
  · exact ⟨List.append_ne_nil_of_left_ne_nil (by decide) _, plain_append _ _ (by decide) plain⟩
  · decide +kernel
  · decide

theorem fileHeaders_length (size : List Char) : lengthValues (fileHeaders size) = [size] := by
  rw [fileHeaders, lengthValues_other _ _ (by decide), lengthValues_length,
    lengthValues_other _ _ (by decide), lengthValues_other _ _ (by decide)]
  rfl

/-- The head of a download; `size` is the text of its member `file_size`. -/
theorem fileDownloadRes_written {json : Json} {size text : String}
    (printed : builder.dump ((if success then json else json.set "status" (.string "error")).get
      "file_size") = some size)
    (built : builder.fileDownloadRes success json = some text) :
    text.toList = write (status builder success) (fileHeaders size.toList) [] := by
  obtain ⟨body, -, built⟩ := Option.bind_eq_some_iff.mp built
  rw [printed] at built
  have disposition : "\r\nContent-Disposition: attachment; filename=".toList =
      crlf ++ "Content-Disposition: attachment; filename=".toList := by simp [crlf]
  have last : "close\r\n".toList = "close".toList ++ crlf := by simp [crlf]
  rw [← Option.some.inj built]
  simp only [-String.reduceToList, String.toList_append, statusLine_eq, lengthStart_eq, disposition,
    connectionStart_eq, last, lineEnd_eq, write, fileHeaders, List.flatMap_cons, List.flatMap_nil,
    List.append_assoc, List.append_nil]

theorem file_recovered (text : String) (file : List Char) (version : Plain builder.httpVersion.toList)
    (integers : ∀ number : Nat, builder.dump (.integer number) = some (toString number))
    (built : builder.fileDownloadRes true (.object [("file_size", .integer file.length)]) =
      some text) :
    Recovered builder "file_download" true (.object [("file_size", .integer file.length)]) file
      (text.toList ++ file) := by
  have head := fileDownloadRes_written (integers file.length) built
  apply recovered_of_framed rfl
  refine ⟨?_, plain_status version, fileHeaders_lines _ (plain_number file.length), ?_⟩
  · rw [head]
    simp only [write, List.append_assoc, List.append_nil]
  · exact fileHeaders_length _

theorem unregistered_unframed (deviceType : UInt16) (text : String) (file : List Char)
    (version : Plain builder.httpVersion.toList) (null : builder.dump .null = some "null")
    (built : builder.fileDownloadRes false (OTAManager.unregistered deviceType) = some text) :
    ¬ Recovered builder "file_download" false (OTAManager.unregistered deviceType) file
      text.toList := by
  intro recovered
  obtain ⟨headers, body, -, -, read⟩ := recovered
  have head := fileDownloadRes_written null built
  have lines := fileHeaders_lines "null".toList (by decide)
  have unread := receive_write (status builder false) _ [] (plain_status version) lines
  have missing : contentLength (fileHeaders "null".toList) = none := by
    rw [contentLength, fileHeaders_length]
    decide
  rw [← head, missing, Option.bind_none] at unread
  have read := read []
  rw [List.append_nil, unread] at read
  exact absurd read (Option.some_ne_none _).symm

theorem unregistered_built (deviceType : UInt16)
    (printable : ∀ json, (builder.dump json).isSome = true ↔ Printable json)
    (null : builder.dump .null = some "null") :
    ∃ text, builder.fileDownloadRes false (OTAManager.unregistered deviceType) = some text := by
  have valid := (printable_status false _).mpr (unregistered_text deviceType)
  obtain ⟨body, dumped⟩ := Option.isSome_iff_exists.mp ((printable _).mpr valid)
  have size : builder.dump (((OTAManager.unregistered deviceType).set "status"
      (.string "error")).get "file_size") = some "null" := null
  have printed : builder.dump ((OTAManager.unregistered deviceType).set "status"
      (.string "error")) = some body := dumped
  simp only [OTAHttpResBuilder.fileDownloadRes, Bool.false_eq_true, if_false, printed, size,
    Option.bind_eq_bind, Option.bind_some]
  exact ⟨_, rfl⟩

theorem other_recovered (type : String) (json : Json) (text : String)
    (version : Plain builder.httpVersion.toList)
    (known : type ∈ ["notify", "query", "stop_notify", "query_download", "OPTIONS"])
    (built : builder.buildHttpResponse success json type = some text) :
    Recovered builder type success json [] text.toList := by
  simp only [List.mem_cons, List.not_mem_nil, or_false] at known
  rcases known with rfl | rfl | rfl | rfl | rfl
  · exact json_recovered json "close" text [] version (.inl rfl) rfl built
  · exact json_recovered json "close" text [] version (.inl rfl) rfl built
  · exact json_recovered json "close" text [] version (.inl rfl) rfl built
  · change builder.queryDownloadRes success json = some text at built
    unfold OTAHttpResBuilder.queryDownloadRes at built
    split at built
    · exact json_recovered json "keep-alive" text [] version (.inr rfl) rfl built
    · exact json_recovered json "close" text [] version (.inl rfl) rfl built
  · exact options_recovered json text [] version built

end

section
variable {env : Environment} {manager : OTAManager} {connectId fd : Int} {text : String}

theorem responded_built {success : Bool} {type : String} {json : Json} {failed done : OTAManager}
    (responded : .respond fd text ∈ (OTAManager.responseToServer env connectId success type json
      failed done).effects) :
    env.builder.buildHttpResponse success json type = some text := by
  unfold OTAManager.responseToServer at responded
  split at responded
  · cases responded
  · rename_i built
    rw [built]
    rw [List.mem_singleton] at responded
    cases responded
    rfl

theorem otaNotify_type (deviceType : UInt16) (msg : OTAMessage) (now : UInt64) :
    (manager.otaNotify deviceType msg connectId now).1.type = "notify" := by
  unfold OTAManager.otaNotify
  split
  · rfl
  · split
    · rfl
    · rfl

theorem otaStopNotify_type (deviceType : UInt16) (name version : String) (response : Response)
    (next : OTAManager)
    (stopped : manager.otaStopNotify deviceType name version connectId = .ok (response, next)) :
    response.type = "stop_notify" := by
  unfold OTAManager.otaStopNotify at stopped
  dsimp only at stopped
  split at stopped
  · cases stopped
    rfl
  · obtain ⟨⟨notifier, timers⟩, -, rest⟩ := (bind_eq_ok _ _ _).mp stopped
    cases rest
    rfl

section
variable {contents : String → Option (List Char)}
  (sizes : ∀ path, env.openFile path = (contents path).map List.length)
include sizes

theorem fileDownload_passes (deviceType : UInt16) (name version : String)
    (responded : .respond fd text ∈
      (manager.otaFileDownload env deviceType name version connectId).effects) :
    ∃ success json file, Passes "file_download" success json file ∧
      env.builder.buildHttpResponse success json "file_download" = some text ∧
      (success = true → contents (OTAManager.filePath env deviceType name version) = some file) := by
  unfold OTAManager.otaFileDownload at responded
  split at responded
  · exact ⟨false, _, [], .unregistered deviceType, responded_built responded,
      fun never => absurd never Bool.false_ne_true⟩
  · split at responded
    · cases responded
    · rename_i size opened
      rw [sizes] at opened
      obtain ⟨file, held, same⟩ := Option.map_eq_some_iff.mp opened
      subst same
      exact ⟨true, _, file, .file file, responded_built responded, fun _ => held⟩

theorem submit_passes (deviceType : UInt16) (deviceNo : UInt32) (command : String)
    (detail : String → String) (outcome : Outcome)
    (known : command ∈
      ["notify", "query", "stop_notify", "query_download", "file_download", "OPTIONS"])
    (submitted : manager.submit env deviceType deviceNo command connectId detail = .ok outcome)
    (responded : .respond fd text ∈ outcome.effects) :
    ∃ success json file, Passes command success json file ∧
      env.builder.buildHttpResponse success json command = some text := by
  simp only [List.mem_cons, List.not_mem_nil, or_false] at known
  rcases known with rfl | rfl | rfl | rfl | rfl | rfl
  · cases submitted
    have typed := @otaNotify_type manager connectId deviceType
      (OTAManager.getNotifyMessage env (detail "name") (detail "version")) env.now
    unfold OTAManager.notify at responded
    generalize manager.otaNotify deviceType _ connectId env.now = notified at typed responded
    have built := responded_built responded
    rw [typed] at built
    exact ⟨_, _, [], .other _ _ _ (by decide), built⟩
  · cases submitted
    rw [OTAManager.query, List.mem_singleton] at responded
    cases responded
  · obtain ⟨⟨response, next⟩, stopped, rest⟩ := (bind_eq_ok _ _ _).mp submitted
    cases rest
    have built := responded_built responded
    rw [otaStopNotify_type deviceType _ _ response next stopped] at built
    exact ⟨_, _, [], .other _ _ _ (by decide), built⟩
  · cases submitted
    unfold OTAManager.otaQueryDownload at responded
    split at responded
    · exact ⟨_, _, [], .other _ _ _ (by decide), responded_built responded⟩
    · rw [List.mem_singleton] at responded
      cases responded
  · cases submitted
    obtain ⟨success, json, file, passed, built, -⟩ :=
      fileDownload_passes sizes deviceType _ _ responded
    exact ⟨success, json, file, passed, built⟩
  · cases submitted
    exact ⟨_, _, [], .other _ _ _ (by decide), responded_built responded⟩

end

end

/-- Every response is framed and can be recovered but that of a failed download. -/
theorem wellFramed_iff (builder : OTAHttpResBuilder) (bufferSize : Nat) (positive : 0 < bufferSize)
    (version : Plain builder.httpVersion.toList)
    (printable : ∀ json, (builder.dump json).isSome = true ↔ Printable json)
    (integers : ∀ number : Nat, builder.dump (.integer number) = some (toString number))
    (null : builder.dump .null = some "null") (type : String) (success : Bool) (json : Json)
    (file : List Char) (passed : Passes type success json file) :
    WellFramed builder bufferSize type success json file ↔
      ¬ (type = "file_download" ∧ success = false) := by
  cases passed with
  | other type success json known =>
      constructor
      · rintro - ⟨rfl, -⟩
        exact absurd known (by decide)
      · intro _
        refine ⟨sends_ends bufferSize [], ?_⟩
        intro chunks text sends built
        rw [sends_all positive sends, List.append_nil]
        exact other_recovered type json text version known built
  | unregistered deviceType =>
      refine iff_of_false ?_ fun failed => failed ⟨rfl, rfl⟩
      intro framed
      obtain ⟨text, built⟩ := unregistered_built deviceType printable null
      have recovered := framed.2 [] text (.finished [] (Nat.min_zero _)) built
      rw [List.flatten_nil, List.append_nil] at recovered
      exact unregistered_unframed deviceType text [] version null built recovered
  | file =>
      constructor
      · rintro - ⟨-, success⟩
        cases success
      · intro _
        refine ⟨sends_ends bufferSize file, ?_⟩
        intro chunks text sends built
        rw [sends_all positive sends]
        exact file_recovered text file version integers built

/-- A printer with the texts of numbers, of `null` and of the answer to type 1, which is not
registered. -/
noncomputable def printer : OTAHttpResBuilder where
  httpVersion := "1.1"
  dump := fun json => open Classical in if Printable json then
    match json with
    | .null => some "null"
    | .integer value => some (toString value)
    | _ => some "\x7b\"msg\":\"device type = 1 has not been registed.\",\"status\":\"error\"\x7d"
    else none

theorem printer_printable (json : Json) : (printer.dump json).isSome = true ↔ Printable json := by
  dsimp only [printer]
  split
  · rename_i valid
    refine iff_of_true ?_ valid
    cases json with
    | null => rfl
    | boolean value => rfl
    | integer value => rfl
    | float value => rfl
    | string text => rfl
    | array elements => rfl
    | object members => rfl
  · rename_i invalid
    exact iff_of_false Bool.false_ne_true invalid

theorem printer_integers (number : Nat) : printer.dump (.integer number) = some (toString number) := by
  dsimp only [printer]
  rw [if_pos (Printable.integer number)]
  rfl

theorem printer_null : printer.dump .null = some "null" := by
  dsimp only [printer]
  rw [if_pos Printable.null]

/-- A download for type 1, which is not registered. -/
theorem failed_download_unframed :
    ¬ ∀ (builder : OTAHttpResBuilder) (bufferSize : Nat), 0 < bufferSize →
      Plain builder.httpVersion.toList →
      (∀ json, (builder.dump json).isSome = true ↔ Printable json) →
      (∀ number : Nat, builder.dump (.integer number) = some (toString number)) →
      builder.dump .null = some "null" →
      ∀ type success json file, Passes type success json file →
        WellFramed builder bufferSize type success json file := by
  intro all_framed
  have framed := all_framed printer 1024 (by decide) (by decide) printer_printable printer_integers
    printer_null _ _ _ _ (.unregistered 1)
  obtain ⟨text, built⟩ := unregistered_built 1 printer_printable printer_null
  have recovered := framed.2 [] text (.finished [] (Nat.min_zero _)) built
  rw [List.flatten_nil, List.append_nil] at recovered
  exact unregistered_unframed 1 text [] (by decide) printer_null built recovered

theorem unregistered_notify_framed :
    WellFramed printer 1024 "notify" false (OTAManager.unregistered 1) [] :=
  (wellFramed_iff printer 1024 (by decide) (by decide) printer_printable printer_integers printer_null
    "notify" false _ [] (.other _ _ _ (by decide))).mpr (by decide)

end OtaMqtt.Ota.Framing
