import OtaMqtt.Ota.Replies
import OtaMqtt.Ota.Routing

/-! The requests whose exceptions leave `handle_request`. -/

namespace OtaMqtt.Ota.Escapes

open OtaMqtt.Lib OtaMqtt.Lib.Execution OtaMqtt.Lib.Stream OtaMqtt.Lib.Utf8
open OtaMqtt.Ota OtaMqtt.Ota.Dispatcher OtaMqtt.Ota.Replies OtaMqtt.Ota.Routing
open OtaMqtt.Http.Parser (HttpCode HttpMethod Message)

def Returns (result : Run Outcome) : Prop := ∃ outcome, result = .ok outcome ∧ outcome.returned ≠ none

/-- No exception is met: the body of a POST is JSON without a malformed field before a missing
one, and the notifier that a GET stops has a name and a version in UTF-8. -/
def Orderly (parse : String → Option Json) (manager : OTAManager) (cmd uri body : String) : Prop :=
  if cmd = "POST" then
    ∀ command, checkUri uri = some command → ∃ json, parse body = some json ∧
      (command ∈ deviceCommands → ¬ Meets Field.Malformed (required json command))
  else if cmd = "GET" then
    "/download/ota/".toList.isPrefixOf uri.toList = true → downloadCommand uri = "stop_notify" →
      ∀ value, stoul (typeSegment uri) = some value →
        manager.otaNotifierMap.lookup (OTAManager.notifyTopic value.toUInt16 (downloadName uri)
          (downloadVersion uri)) ≠ none →
        utf8 (downloadName uri) = true ∧ utf8 (downloadVersion uri) = true
  else True

section
variable {env : Environment} {manager : OTAManager} {connectId : Int}

theorem ok_returns (outcome : Outcome) : Returns (.ok outcome) ↔ outcome.returned ≠ none := by
  constructor
  · intro returns
    obtain ⟨other, same, returned⟩ := returns
    cases same
    exact returned
  · intro returned
    exact ⟨outcome, rfl, returned⟩

theorem response_returns (success : Bool) (type : String) (json : Json) (failed done : OTAManager) :
    Returns (.ok (OTAManager.responseToServer env connectId success type json failed done)) ↔
      (env.builder.buildHttpResponse success json type).isSome = true := by
  rw [ok_returns, OTAManager.responseToServer]
  cases env.builder.buildHttpResponse success json type with
  | none => simp
  | some text => simp

theorem answered_returns (success : Bool) (type : String) (json : Json) (failed done : OTAManager)
    (answered : Answered (OTAManager.responseToServer env connectId success type json failed done)
      connectId) :
    Returns (.ok (OTAManager.responseToServer env connectId success type json failed done)) := by
  rw [response_returns]
  obtain ⟨text, built, -⟩ := (responded_iff success type json failed done).mp answered
  rw [built]
  rfl

theorem options_returns : Returns (optionsReq env manager connectId) := by
  rw [optionsReq, OTAManager.submit, response_returns]
  rfl

section
variable (printable : ∀ json, (env.builder.dump json).isSome = true ↔ Printable json)
include printable

theorem notify_returns (deviceType : UInt16) (name version : String) :
    Returns (.ok (manager.notify env deviceType name version connectId)) :=
  answered_returns _ _ _ _ _ (notify_answered printable deviceType name version)

theorem stopNotify_returns (deviceType : UInt16) (name version : String)
    (sound : Timers.TimerSet.Sound manager.timers) :
    Returns (manager.stopNotify env deviceType name version connectId) ↔
      (manager.otaNotifierMap.lookup (OTAManager.notifyTopic deviceType name version) ≠ none →
        utf8 name = true ∧ utf8 version = true) := by
  obtain ⟨success, text, next, done, valid⟩ :=
    @stopNotify_response env manager connectId deviceType name version sound
  have built : (env.builder.buildHttpResponse success (OTAManager.message text) "stop_notify").isSome =
      (env.builder.dump (OTAHttpResBuilder.withStatus success (OTAManager.message text))).isSome := by
    change (env.builder.jsonRes success _ _).isSome = _
    rw [OTAHttpResBuilder.jsonRes]
    cases env.builder.dump (OTAHttpResBuilder.withStatus success (OTAManager.message text)) with
    | none => rfl
    | some body => rfl
  rw [done, response_returns, built, printable, printable_status, valid]

theorem query_returns (deviceType : UInt16) (deviceNo : UInt32) (action : String)
    (time : utf8 env.currentTime = true) (valid : utf8 action = true) :
    Returns (.ok (manager.query env deviceType deviceNo action connectId)) := by
  have printed : Printable
      (.object [("action", .string action), ("time", .string env.currentTime)]) :=
    printable_pair (utf8_ascii "action" (by decide)) (utf8_ascii "time" (by decide)) valid time
  obtain ⟨payload, dumped⟩ := Option.isSome_iff_exists.mp ((printable _).mpr printed)
  rw [ok_returns, OTAManager.query, OTAManager.formatPayload, dumped]
  exact Option.some_ne_none true

theorem queryDownload_returns (deviceType : UInt16) (deviceNo : UInt32) (name : String) :
    Returns (.ok (manager.otaQueryDownload env deviceType deviceNo name connectId)) := by
  have answered := @queryDownload_answered env manager connectId printable deviceType deviceNo name
  unfold OTAManager.otaQueryDownload at answered ⊢
  cases registered : manager.checkDevice deviceType deviceNo with
  | false =>
      rw [registered] at answered
      exact answered_returns _ _ _ _ _ answered
  | true => exact (ok_returns _).mpr (Option.some_ne_none true)

theorem fileDownload_returns (deviceType : UInt16) (name version : String) :
    Returns (.ok (manager.otaFileDownload env deviceType name version connectId)) := by
  have answered := @fileDownload_iff env manager connectId printable deviceType name version
  unfold OTAManager.otaFileDownload at answered ⊢
  cases looked : manager.deviceTypeNums.lookup deviceType with
  | none =>
      rw [looked] at answered
      exact answered_returns _ _ _ _ _ (answered.mpr fun registered => absurd rfl registered)
  | some numbers =>
      rw [looked] at answered
      cases opened : env.openFile (OTAManager.filePath env deviceType name version) with
      | none => exact (ok_returns _).mpr (Option.some_ne_none true)
      | some size =>
          rw [opened] at answered
          exact answered_returns _ _ _ _ _ (answered.mpr fun _ => Option.some_ne_none size)

/-- How far a request gets through its fields, and what it does behind them. -/
def Proceeds (result : Run Outcome) (fields : List Field) (rest : Prop) : Prop :=
  Returns result ↔ ¬ Meets Field.Malformed fields ∧ rest

omit printable in
theorem require_proceeds {α : Type} {element : Element α} {field : Field} {next : α → Route}
    {fields : List Field} {rest : α → Prop} (describes : Describes element field)
    (each : ∀ value, element = .found value →
      Proceeds (perform env manager connectId (next value)) fields (rest value)) :
    Proceeds (perform env manager connectId (require element next)) (field :: fields)
      (∀ value, element = .found value → rest value) := by
  obtain ⟨-, malformed, readable⟩ := describes
  rw [Proceeds, Meets, ← malformed, ← readable]
  cases element with
  | missing =>
      have returns : Returns (refused manager) := (ok_returns _).mpr (Option.some_ne_none false)
      simpa [require, perform] using returns
  | thrown =>
      have escapes : ¬ Returns (thrown manager) := by
        rw [thrown, ok_returns]
        exact fun returned => returned rfl
      simpa [require, perform] using escapes
  | found value =>
      have rest := each value rfl
      rw [Proceeds] at rest
      simpa [require] using rest

omit printable in
theorem submitted_proceeds {deviceType : UInt16} {deviceNo : UInt32} {command : String}
    {detail : String → String} {rest : Prop}
    (returns : Returns (manager.submit env deviceType deviceNo command connectId detail) ↔ rest) :
    Proceeds (perform env manager connectId (.submitted deviceType deviceNo command detail)) []
      rest := by
  rw [Proceeds, perform, returns]
  simp [Meets]

omit printable in
theorem versionRoute_proceeds (command : String) (json : Json)
    {rest : UInt16 → String → String → Prop}
    (each : ∀ deviceType version name, Returns (manager.submit env deviceType (-1) command connectId
      (detail [("version", version), ("name", name)])) ↔ rest deviceType version name) :
    Proceeds (perform env manager connectId (versionRoute command json))
      [.number (json.find "device_type"), .text (json.find "version"), .text (json.find "name")]
      (∀ deviceType, getDeviceType json = .found deviceType → ∀ version,
        getText "version" json = .found version → ∀ name, getText "name" json = .found name →
          rest deviceType version name) := by
  apply require_proceeds (getNumber_describes UInt16.ofInt "device_type" json)
  intro deviceType typed
  apply require_proceeds (getText_describes "version" json)
  intro version versioned
  apply require_proceeds (getText_describes "name" json)
  intro name named
  exact submitted_proceeds (each deviceType version name)

omit printable in
theorem deviceRoute_proceeds (command key : String) (json : Json)
    (each : ∀ deviceType deviceNo text, getText key json = .found text →
      Returns (manager.submit env deviceType deviceNo command connectId (detail [(key, text)]))) :
    Proceeds (perform env manager connectId (deviceRoute command key json))
      [.number (json.find "device_type"), .number (json.find "device_no"), .text (json.find key)]
      (∀ deviceType, getDeviceType json = .found deviceType → ∀ deviceNo,
        getDeviceNo json = .found deviceNo → ∀ text, getText key json = .found text → True) := by
  apply require_proceeds (getNumber_describes UInt16.ofInt "device_type" json)
  intro deviceType typed
  apply require_proceeds (getNumber_describes UInt32.ofInt "device_no" json)
  intro deviceNo counted
  apply require_proceeds (getText_describes key json)
  intro text found
  exact submitted_proceeds (iff_true_intro (each deviceType deviceNo text found))

theorem dispatchRoute_returns (command : String) (json : Json) (known : command ∈ deviceCommands)
    (sound : Timers.TimerSet.Sound manager.timers) (time : utf8 env.currentTime = true)
    (valid : ∀ text, getText "action" json = .found text → utf8 text = true) :
    Returns (perform env manager connectId (dispatchRoute command json)) ↔
      ¬ Meets Field.Malformed (required json command) ∧ (command = "stop_notify" →
        ∀ deviceType, getDeviceType json = .found deviceType → ∀ version,
          getText "version" json = .found version → ∀ name, getText "name" json = .found name →
            manager.otaNotifierMap.lookup (OTAManager.notifyTopic deviceType name version) ≠ none →
              utf8 name = true ∧ utf8 version = true) := by
  rcases mem_deviceCommands known with rfl | rfl | rfl | rfl | rfl
  · apply (versionRoute_proceeds "notify" json fun deviceType version name =>
      iff_true_intro (notify_returns printable deviceType name version)).trans
    simp [required]
  · apply (deviceRoute_proceeds "query" "action" json fun deviceType deviceNo action found =>
      query_returns printable deviceType deviceNo action time (valid action found)).trans
    simp [required]
  · apply (versionRoute_proceeds "stop_notify" json fun deviceType version name =>
      stopNotify_returns printable deviceType name version sound).trans
    simp [required]
  · apply (deviceRoute_proceeds "query_download" "name" json fun deviceType deviceNo name found =>
      queryDownload_returns printable deviceType deviceNo name).trans
    simp [required]
  · apply (versionRoute_proceeds "file_download" json fun deviceType version name =>
      iff_true_intro (fileDownload_returns printable deviceType name version)).trans
    simp [required]

omit printable in
theorem other_returns (command : String) (json : Json) (other : command ∉ deviceCommands) :
    Returns (perform env manager connectId (dispatchRoute command json)) := by
  unfold dispatchRoute
  split
  · exact absurd (by decide) other
  · exact absurd (by decide) other
  · exact absurd (by decide) other
  · exact absurd (by decide) other
  · exact absurd (by decide) other
  · exact options_returns
  · exact (ok_returns _).mpr (Option.some_ne_none false)

omit printable in
theorem getText_utf8 {key text : String} {json : Json} (valid : Printable json)
    (found : getText key json = .found text) : utf8 text = true := by
  unfold getText at found
  split at found
  · cases found
  · rename_i member
    cases found
    cases valid with
    | object members keys values =>
        obtain ⟨front, back, split, -⟩ := List.lookup_eq_some_iff.mp member
        have printed := values (key, .string text) (by simp [split])
        cases printed with
        | string _ valid => exact valid
    | null => cases member
    | boolean value => cases member
    | integer value => cases member
    | float value => cases member
    | string value valid => cases member
    | array elements all => cases member
  · cases found

section
variable (sound : Timers.TimerSet.Sound manager.timers) (time : utf8 env.currentTime = true)
include sound time

theorem post_returns (command : String) (json : Json) (valid : Printable json) :
    Returns (perform env manager connectId (dispatchRoute command json)) ↔
      (command ∈ deviceCommands → ¬ Meets Field.Malformed (required json command)) := by
  by_cases known : command ∈ deviceCommands
  · rw [dispatchRoute_returns printable command json known sound time
      fun text found => getText_utf8 valid found]
    constructor
    · intro both _
      exact both.1
    · intro well
      refine ⟨well known, ?_⟩
      intro _ deviceType _ version versioned name named _
      exact ⟨getText_utf8 valid named, getText_utf8 valid versioned⟩
  · exact iff_of_true (other_returns command json known) fun member => absurd member known

theorem segment_returns (segment name version command : String) :
    Returns (perform env manager connectId (segmentRoute segment name version command)) ↔
      (command = "stop_notify" → ∀ value, stoul segment = some value →
        manager.otaNotifierMap.lookup (OTAManager.notifyTopic value.toUInt16 name version) ≠ none →
          utf8 name = true ∧ utf8 version = true) := by
  unfold segmentRoute
  cases stoul segment with
  | none =>
      refine iff_of_true ((ok_returns _).mpr (Option.some_ne_none false)) ?_
      intro _ value read
      cases read
  | some value =>
      by_cases known : command ∈ deviceCommands
      · have noAction : ∀ text, getText "action" (downloadJson value.toUInt16 name version) =
            .found text → utf8 text = true := by
          intro text found
          cases found
        have named : getText "name" (downloadJson value.toUInt16 name version) = .found name := rfl
        have versioned : getText "version" (downloadJson value.toUInt16 name version) =
            .found version := rfl
        dsimp only
        rw [dispatchRoute_returns printable command _ known sound time noAction, download_type, named,
          versioned]
        simp [download_well_formed command value.toUInt16 name version known]
      · refine iff_of_true (other_returns command _ known) ?_
        intro stop
        rw [stop] at known
        exact absurd (by decide) known

variable (parsed : ∀ text json, env.parse text = some json → Printable json)
include parsed

theorem handleRequest_returns (cmd uri body : String) :
    Returns (handleRequest env manager connectId cmd uri body) ↔
      Orderly env.parse manager cmd uri body := by
  have refused_returns : Returns (perform env manager connectId .refused) :=
    (ok_returns _).mpr (Option.some_ne_none false)
  have thrown_escapes : ¬ Returns (perform env manager connectId .thrown) :=
    fun returns => (ok_returns _).mp returns rfl
  rw [handleRequest_route, Orderly]
  by_cases post : cmd = "POST"
  · rw [if_pos post, route, if_pos post]
    cases checkUri uri with
    | none => simpa using refused_returns
    | some command =>
        dsimp only
        cases read : env.parse body with
        | none => simpa using thrown_escapes
        | some json =>
            dsimp only
            rw [post_returns printable sound time command json (parsed body json read)]
            simp
  · rw [if_neg post]
    by_cases get : cmd = "GET"
    · rw [if_pos get, get]
      cases start : "/download/ota/".toList.isPrefixOf uri.toList with
      | true =>
          rw [download_route env.parse uri body start, segment_returns printable sound time]
          simp
      | false =>
          have missed : checkDownloadUri uri = none := by
            rw [checkDownloadUri, start, if_neg Bool.false_ne_true]
          rw [route, if_neg (by decide), if_pos rfl, missed]
          simpa using refused_returns
    · rw [if_neg get, route, if_neg post, if_neg get, iff_true]
      split
      · exact options_returns
      · exact refused_returns

end

end

end

end OtaMqtt.Ota.Escapes
