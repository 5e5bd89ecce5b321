import OtaMqtt.Lib.Utf8
import OtaMqtt.Ota.Dispatcher
import OtaMqtt.Timers.TimerSet

/-! For which complete requests something is handed over: a text to `response_to_server`, or the
connection to a callback. -/

namespace OtaMqtt.Ota.Replies

open OtaMqtt.Lib OtaMqtt.Lib.Execution OtaMqtt.Lib.Utf8
open OtaMqtt.Ota OtaMqtt.Ota.Dispatcher
open OtaMqtt.Http.Parser (HttpMethod Message)

/-- The values that `dump` prints: every text in them is UTF-8. -/
inductive Printable : Json → Prop where
  | null : Printable .null
  | boolean (value : Bool) : Printable (.boolean value)
  | integer (value : Int) : Printable (.integer value)
  | float (value : Rat) : Printable (.float value)
  | string (text : String) (valid : utf8 text = true) : Printable (.string text)
  | array (elements : List Json) (all : ∀ element ∈ elements, Printable element) :
      Printable (.array elements)
  | object (members : List (String × Json)) (keys : ∀ entry ∈ members, utf8 entry.1 = true)
      (values : ∀ entry ∈ members, Printable entry.2) : Printable (.object members)

/-- A response head was handed over for the connection, or a callback that holds it was registered. -/
def Answered (outcome : Outcome) (connectId : Int) : Prop :=
  (∃ text, .respond connectId text ∈ outcome.effects ∧ text ≠ "") ∨
    ∃ topic, .register topic connectId ∈ outcome.effects

def Versioned (json : Json) (deviceType : UInt16) (version name : String) : Prop :=
  getDeviceType json = .found deviceType ∧ getText "version" json = .found version ∧
    getText "name" json = .found name

def Addressed (json : Json) (key : String) : Prop :=
  ∃ deviceType deviceNo text, getDeviceType json = .found deviceType ∧
    getDeviceNo json = .found deviceNo ∧ getText key json = .found text

/-- The command is known and has its fields, a notifier that is stopped has a name and a
version that can be printed, and a file that is asked for is there. -/
def Feasible (env : Environment) (manager : OTAManager) (command : String) (json : Json) : Prop :=
  match command with
  | "notify" => ∃ deviceType version name, Versioned json deviceType version name
  | "query" => Addressed json "action"
  | "stop_notify" => ∃ deviceType version name, Versioned json deviceType version name ∧
      (manager.otaNotifierMap.lookup (OTAManager.notifyTopic deviceType name version) ≠ none →
        utf8 name = true ∧ utf8 version = true)
  | "query_download" => Addressed json "name"
  | "file_download" => ∃ deviceType version name, Versioned json deviceType version name ∧
      (manager.deviceTypeNums.lookup deviceType ≠ none →
        env.openFile (OTAManager.filePath env deviceType name version) ≠ none)
  | "OPTIONS" => True
  | _ => False

def Answerable (env : Environment) (manager : OTAManager) (request : Message) : Prop :=
  match request.method with
  | .post => ∃ command json, checkUri (ofBytes request.uri) = some command ∧
      env.parse (ofBytes request.requestBody) = some json ∧ Feasible env manager command json
  | .get => ∃ deviceType name version command,
      checkDownloadUri (ofBytes request.uri) = some (deviceType, name, version, command) ∧
        Feasible env manager command (downloadJson deviceType name version)
  | .options => True
  | .none => False

/-- A call returns or throws, and answers exactly under a condition. -/
def Decides (result : Run Outcome) (connectId : Int) (condition : Prop) : Prop :=
  ∃ outcome, result = .ok outcome ∧ (Answered outcome connectId ↔ condition)

section
variable {env : Environment} {manager : OTAManager} {connectId : Int}

theorem ascii_append (left right : String) (first : Ascii left) (second : Ascii right) :
    Ascii (left ++ right) := by
  intro character member
  rw [String.toList_append, List.mem_append] at member
  exact member.elim (first character) (second character)

theorem ascii_number (number : Nat) : Ascii (toString number) := by
  intro character member
  rw [Nat.toString_eq_repr, Nat.toList_repr] at member
  have digit := Nat.isDigit_of_mem_toDigits (by decide) (by decide) member
  simp only [Char.isDigit, Bool.and_eq_true, decide_eq_true_eq] at digit
  have small : character.val ≤ 57 := digit.2
  have bound : character.val.toNat ≤ 57 := by exact_mod_cast UInt32.le_iff_toNat_le.mp small
  show character.val.toNat < 128
  omega

theorem utf8_number (front back : String) (number : Nat) (first : Ascii front) (last : Ascii back) :
    utf8 (front ++ toString number ++ back) = true := by
  apply utf8_ascii
  exact ascii_append _ _ (ascii_append _ _ first (ascii_number number)) last

theorem unregistered_text (deviceType : UInt16) :
    utf8 ("device type = " ++ toString deviceType.toNat ++ " has not been registed.") = true := by
  exact utf8_number "device type = " _ _ (by decide) (by decide)

theorem stopped_text (deviceType : UInt16) (name version : String) :
    utf8 (OTAManager.notifyTopic deviceType name version ++ "device_type = " ++
      toString deviceType.toNat ++ ", name = " ++ name ++ ", version = " ++ version ++
      " notifier has been stopped.") = (utf8 name && utf8 version) := by
  have number := ascii_number deviceType.toNat
  unfold OTAManager.notifyTopic
  simp only [String.append_assoc]
  rw [utf8_append "/ota/" _ (by decide), utf8_append _ _ number, utf8_append "/" _ (by decide),
    utf8_split name "/" _ (by decide) (by decide), utf8_split version "/notify" _ (by decide) (by decide),
    utf8_append "device_type = " _ (by decide), utf8_append _ _ number,
    utf8_append ", name = " _ (by decide), utf8_split name ", version = " _ (by decide) (by decide),
    utf8_before version _ (by decide)]
  cases utf8 name with
  | false => rfl
  | true => simp only [Bool.true_and, Bool.and_self]

theorem statusLine_length (builder : OTAHttpResBuilder) (success : Bool) :
    0 < (builder.statusLine success).length := by
  unfold OTAHttpResBuilder.statusLine
  rw [String.length_append, String.length_append]
  have five : "HTTP/".length = 5 := rfl
  omega

theorem nonempty_text {text : String} (long : 0 < text.length) : text ≠ "" := by
  intro empty
  rw [empty] at long
  cases long

theorem message_status (success : Bool) (text : String) :
    OTAHttpResBuilder.withStatus success (OTAManager.message text) =
      .object [("msg", .string text), ("status", .string (if success then "ok" else "error"))] := by
  simp [OTAHttpResBuilder.withStatus, OTAManager.message, Json.set]

theorem printable_pair {first second left right : String} (firstKey : utf8 first = true)
    (secondKey : utf8 second = true) (leftText : utf8 left = true) (rightText : utf8 right = true) :
    Printable (.object [(first, .string left), (second, .string right)]) := by
  apply Printable.object
  · intro entry member
    simp only [List.mem_cons, List.not_mem_nil, or_false] at member
    rcases member with rfl | rfl
    · exact firstKey
    · exact secondKey
  · intro entry member
    simp only [List.mem_cons, List.not_mem_nil, or_false] at member
    rcases member with rfl | rfl
    · exact .string left leftText
    · exact .string right rightText

theorem printable_status (success : Bool) (text : String) :
    Printable (OTAHttpResBuilder.withStatus success (OTAManager.message text)) ↔ utf8 text = true := by
  rw [message_status]
  constructor
  · intro all
    cases all with
    | object _ keys values =>
        have first := values ("msg", .string text) List.mem_cons_self
        cases first with
        | string _ valid => exact valid
  · intro valid
    have status : utf8 (if success then "ok" else "error") = true := by
      cases success with
      | false => exact utf8_ascii "error" (by decide)
      | true => exact utf8_ascii "ok" (by decide)
    exact printable_pair (utf8_ascii "msg" (by decide)) (utf8_ascii "status" (by decide)) valid status

theorem responded_iff (success : Bool) (type : String) (json : Json) (failed done : OTAManager) :
    Answered (OTAManager.responseToServer env connectId success type json failed done) connectId ↔
      ∃ text, env.builder.buildHttpResponse success json type = some text ∧ text ≠ "" := by
  unfold OTAManager.responseToServer Answered
  cases env.builder.buildHttpResponse success json type with
  | none => simp
  | some text => simp

theorem jsonRes_iff (success : Bool) (response : Json) (connection : String) :
    (∃ text, env.builder.jsonRes success response connection = some text ∧ text ≠ "") ↔
      (env.builder.dump (OTAHttpResBuilder.withStatus success response)).isSome = true := by
  unfold OTAHttpResBuilder.jsonRes
  cases env.builder.dump (OTAHttpResBuilder.withStatus success response) with
  | none => simp
  | some body =>
      have head := statusLine_length env.builder success
      simp only [Option.bind_eq_bind, Option.bind_some, Option.some.injEq, exists_eq_left', ne_eq,
        Option.isSome_some, iff_true]
      apply nonempty_text
      simp only [String.length_append]
      omega

section
variable (printable : ∀ json, (env.builder.dump json).isSome = true ↔ Printable json)
include printable

theorem message_answered (success : Bool) (type text : String) (failed done : OTAManager)
    (known : type = "notify" ∨ type = "stop_notify" ∨ type = "query_download") :
    Answered (OTAManager.responseToServer env connectId success type (OTAManager.message text) failed
      done) connectId ↔ utf8 text = true := by
  rw [responded_iff, ← printable_status success text, ← printable]
  rcases known with rfl | rfl | rfl
  · exact jsonRes_iff success _ _
  · exact jsonRes_iff success _ _
  · exact jsonRes_iff success _ _

theorem fileDownload_answered (success : Bool) (json : Json) (failed done : OTAManager)
    (whole : Printable (if success then json else json.set "status" (.string "error")))
    (size : Printable ((if success then json else json.set "status" (.string "error")).get
      "file_size")) :
    Answered (OTAManager.responseToServer env connectId success "file_download" json failed done)
      connectId := by
  rw [responded_iff]
  obtain ⟨body, printed⟩ := Option.isSome_iff_exists.mp ((printable _).mpr whole)
  obtain ⟨fileSize, sized⟩ := Option.isSome_iff_exists.mp ((printable _).mpr size)
  have head := statusLine_length env.builder success
  change ∃ text, env.builder.fileDownloadRes success json = some text ∧ text ≠ ""
  simp only [OTAHttpResBuilder.fileDownloadRes, Option.bind_eq_bind, printed, sized, Option.bind_some,
    Option.some.injEq, exists_eq_left', ne_eq]
  apply nonempty_text
  simp only [String.length_append]
  omega

theorem notify_answered (deviceType : UInt16) (name version : String) :
    Answered (manager.notify env deviceType name version connectId) connectId := by
  unfold OTAManager.notify OTAManager.otaNotify
  cases manager.deviceTypeNums.lookup deviceType with
  | none =>
      apply (message_answered printable _ _ _ _ _ (.inl rfl)).mpr
      exact utf8_number "device type = " _ _ (by decide) (by decide)
  | some numbers =>
      dsimp only
      split
      · apply (message_answered printable _ _ _ _ _ (.inl rfl)).mpr
        exact utf8_number "device type = " _ _ (by decide) (by decide)
      · apply (message_answered printable _ _ _ _ _ (.inl rfl)).mpr
        exact utf8_ascii "notify task submitted." (by decide)

omit printable in
theorem stop_runs (notifier : OTANotifier) (sound : Timers.TimerSet.Sound manager.timers) :
    ∃ next, notifier.stop manager.timers = .ok next := by
  unfold OTANotifier.stop
  cases notifier.timer with
  | none => exact ⟨_, rfl⟩
  | some id =>
      obtain ⟨canceled, next, done, -⟩ := Timers.TimerSet.cancel_sound id sound
      dsimp only
      rw [done, ok_bind]
      exact ⟨_, rfl⟩

omit printable in
theorem stopNotify_response (deviceType : UInt16) (name version : String)
    (sound : Timers.TimerSet.Sound manager.timers) :
    ∃ success text next, manager.stopNotify env deviceType name version connectId =
        .ok (OTAManager.responseToServer env connectId success "stop_notify"
          (OTAManager.message text) next next) ∧
      (utf8 text = true ↔
        (manager.otaNotifierMap.lookup (OTAManager.notifyTopic deviceType name version) ≠ none →
          utf8 name = true ∧ utf8 version = true)) := by
  unfold OTAManager.stopNotify OTAManager.otaStopNotify
  dsimp only
  cases looked : manager.otaNotifierMap.lookup (OTAManager.notifyTopic deviceType name version) with
  | none =>
      refine ⟨_, _, _, rfl, ?_⟩
      simp only [ne_eq, not_true_eq_false, false_implies, iff_true]
      exact utf8_number "device_type = " _ _ (by decide) (by decide)
  | some notifier =>
      obtain ⟨⟨notifier', timers⟩, stopped⟩ := stop_runs notifier sound
      dsimp only
      rw [stopped, ok_bind]
      refine ⟨_, _, _, rfl, ?_⟩
      rw [stopped_text, Bool.and_eq_true]
      simp only [ne_eq, reduceCtorEq, not_false_eq_true, true_implies]

theorem stopNotify_decides (deviceType : UInt16) (name version : String)
    (sound : Timers.TimerSet.Sound manager.timers) :
    Decides (manager.stopNotify env deviceType name version connectId) connectId
      (manager.otaNotifierMap.lookup (OTAManager.notifyTopic deviceType name version) ≠ none →
        utf8 name = true ∧ utf8 version = true) := by
  obtain ⟨success, text, next, done, valid⟩ :=
    @stopNotify_response env manager connectId deviceType name version sound
  refine ⟨_, done, ?_⟩
  rw [message_answered printable _ _ _ _ _ (.inr (.inl rfl)), valid]

theorem queryDownload_answered (deviceType : UInt16) (deviceNo : UInt32) (name : String) :
    Answered (manager.otaQueryDownload env deviceType deviceNo name connectId) connectId := by
  unfold OTAManager.otaQueryDownload
  split
  · apply (message_answered printable _ _ _ _ _ (.inr (.inr rfl))).mpr
    exact unregistered_text deviceType
  · exact .inr ⟨_, List.mem_cons_self⟩

theorem fileDownload_iff (deviceType : UInt16) (name version : String) :
    Answered (manager.otaFileDownload env deviceType name version connectId) connectId ↔
      (manager.deviceTypeNums.lookup deviceType ≠ none →
        env.openFile (OTAManager.filePath env deviceType name version) ≠ none) := by
  unfold OTAManager.otaFileDownload
  cases manager.deviceTypeNums.lookup deviceType with
  | none =>
      simp only [Option.isNone_none, if_true, ne_eq, not_true_eq_false, false_implies, iff_true]
      apply fileDownload_answered printable
      · have valid := (printable_status false _).mpr (unregistered_text deviceType)
        exact valid
      · exact .null
  | some numbers =>
      simp only [Option.isNone_some, Bool.false_eq_true, if_false, ne_eq, reduceCtorEq,
        not_false_eq_true, true_implies]
      cases env.openFile (OTAManager.filePath env deviceType name version) with
      | none => simp [Answered]
      | some size =>
          simp only [reduceCtorEq, not_false_eq_true, iff_true]
          apply fileDownload_answered printable
          · apply Printable.object
            · intro entry member
              rw [List.mem_singleton.mp member]
              exact utf8_ascii "file_size" (by decide)
            · intro entry member
              rw [List.mem_singleton.mp member]
              exact .integer size
          · exact .integer size

end

theorem silent_decides (returned : Option Bool) :
    Decides (.ok ⟨returned, [], manager⟩) connectId False := by
  refine ⟨_, rfl, ?_⟩
  simp [Answered]

theorem withElement_decides {α : Type} (element : Element α) (next : α → Run Outcome)
    (condition : α → Prop) (each : ∀ value, Decides (next value) connectId (condition value)) :
    Decides (withElement manager element next) connectId
      (∃ value, element = .found value ∧ condition value) := by
  cases element with
  | missing =>
      obtain ⟨outcome, done, silent⟩ := @silent_decides manager connectId (some false)
      refine ⟨outcome, done, ?_⟩
      simp [silent]
  | thrown =>
      obtain ⟨outcome, done, silent⟩ := @silent_decides manager connectId none
      refine ⟨outcome, done, ?_⟩
      simp [silent]
  | found value =>
      obtain ⟨outcome, done, answered⟩ := each value
      refine ⟨outcome, done, ?_⟩
      simp [answered]

theorem Decides.congr {result : Run Outcome} {condition other : Prop}
    (decides : Decides result connectId condition) (same : condition ↔ other) :
    Decides result connectId other := by
  obtain ⟨outcome, done, answered⟩ := decides
  exact ⟨outcome, done, answered.trans same⟩

theorem versionReq_decides (command : String) (json : Json) (condition : UInt16 → String → String → Prop)
    (each : ∀ deviceType version name, Decides (manager.submit env deviceType (-1) command connectId
      (detail [("version", version), ("name", name)])) connectId (condition deviceType version name)) :
    Decides (versionReq env manager connectId command json) connectId
      (∃ deviceType version name, Versioned json deviceType version name ∧
        condition deviceType version name) := by
  apply Decides.congr (withElement_decides (getDeviceType json) _ _ fun deviceType =>
    withElement_decides (getText "version" json) _ _ fun version =>
      withElement_decides (getText "name" json) _ _ fun name => each deviceType version name)
  simp only [Versioned, ← exists_and_left, and_assoc]

theorem deviceReq_decides (command key : String) (json : Json)
    (each : ∀ deviceType deviceNo text, Decides (manager.submit env deviceType deviceNo command
      connectId (detail [(key, text)])) connectId True) :
    Decides (deviceReq env manager connectId command key json) connectId (Addressed json key) := by
  apply Decides.congr (withElement_decides (getDeviceType json) _ _ fun deviceType =>
    withElement_decides (getDeviceNo json) _ _ fun deviceNo =>
      withElement_decides (getText key json) _ _ fun text => each deviceType deviceNo text)
  simp only [Addressed, ← exists_and_left, and_true]

theorem options_decides : Decides (optionsReq env manager connectId) connectId True := by
  refine ⟨_, rfl, ?_⟩
  rw [iff_true, responded_iff]
  have head := statusLine_length env.builder true
  change ∃ text, env.builder.optionsRes true = some text ∧ text ≠ ""
  simp only [OTAHttpResBuilder.optionsRes, Option.some.injEq, exists_eq_left', ne_eq]
  intro empty
  have length := congrArg String.length empty
  simp only [String.length_append, String.length_empty] at length
  omega

section
variable (printable : ∀ json, (env.builder.dump json).isSome = true ↔ Printable json)
  (sound : Timers.TimerSet.Sound manager.timers)
include printable sound

theorem dispatch_decides (command : String) (json : Json) :
    Decides (dispatch env manager connectId command json) connectId
      (Feasible env manager command json) := by
  unfold dispatch
  split
  · apply Decides.congr (versionReq_decides "notify" json (fun _ _ _ => True)
      fun deviceType version name =>
        ⟨_, rfl, iff_of_true (notify_answered printable deviceType name version) trivial⟩)
    simp only [Feasible, and_true]
  · exact deviceReq_decides "query" "action" json fun deviceType deviceNo text =>
      ⟨_, rfl, iff_of_true (.inr ⟨_, List.mem_cons_self⟩) trivial⟩
  · exact versionReq_decides "stop_notify" json _ fun deviceType version name =>
      stopNotify_decides printable deviceType name version sound
  · exact deviceReq_decides "query_download" "name" json fun deviceType deviceNo text =>
      ⟨_, rfl, iff_of_true (queryDownload_answered printable deviceType deviceNo text) trivial⟩
  · exact versionReq_decides "file_download" json _ fun deviceType version name =>
      ⟨_, rfl, fileDownload_iff printable deviceType name version⟩
  · exact options_decides
  · apply Decides.congr (silent_decides (some false))
    rw [Feasible]
    · assumption
    · assumption
    · assumption
    · assumption
    · assumption
    · assumption

end

end

theorem handed_iff_answerable (env : Environment) (manager : OTAManager) (connectId : Int)
    (request : Message) (printable : ∀ json, (env.builder.dump json).isSome = true ↔ Printable json)
    (sound : Timers.TimerSet.Sound manager.timers) :
    ∃ outcome, onGetRequest env manager connectId request = .ok outcome ∧
      (Answered outcome connectId ↔ Answerable env manager request) := by
  have each := fun command json =>
    @dispatch_decides env manager connectId printable sound command json
  unfold onGetRequest Answerable
  cases request.method with
  | post =>
      rw [getMethod, handleRequest, if_pos rfl]
      cases checkUri (ofBytes request.uri) with
      | none =>
          apply Decides.congr (silent_decides (some false))
          simp
      | some command =>
          cases env.parse (ofBytes request.requestBody) with
          | none =>
              apply Decides.congr (silent_decides none)
              simp
          | some json =>
              apply Decides.congr (each command json)
              simp
  | get =>
      rw [getMethod, handleRequest, if_neg (by decide), if_pos rfl]
      cases checkDownloadUri (ofBytes request.uri) with
      | none =>
          apply Decides.congr (silent_decides (some false))
          simp
      | some fields =>
          obtain ⟨deviceType, name, version, command⟩ := fields
          apply Decides.congr (each command (downloadJson deviceType name version))
          simp
  | options =>
      rw [getMethod, handleRequest, if_neg (by decide), if_neg (by decide), if_pos rfl]
      exact options_decides
  | none =>
      rw [getMethod, handleRequest, if_neg (by decide), if_neg (by decide), if_neg (by decide)]
      exact silent_decides (some false)

end OtaMqtt.Ota.Replies
