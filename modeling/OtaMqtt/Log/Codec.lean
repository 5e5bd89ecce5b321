import OtaMqtt.Lib.Execution
import OtaMqtt.Lib.Yaml
import OtaMqtt.Log.Define

/-! The text of the log configuration.

`encode` and `decode` are the two specialisations of `LexicalCast` for the set of
definitions. The library between the trees and the texts is a parameter. -/

namespace OtaMqtt.Log

open OtaMqtt.Lib OtaMqtt.Lib.Execution

/-- The two calls of the YAML library: `operator<<` of a node, and `YAML::Load`. -/
structure YamlText where
  emit : Yaml → String
  load : String → Except Yaml.Error Yaml

/-- The node of one appender of `define`. -/
def encodeAppender (define : LogDefine) (appender : LogAppenderDefine) : Yaml :=
  let typed :=
    if appender.type = 1 then
      (Yaml.null.set "type" (.scalar "FileLogAppender")).set "file" (.scalar appender.file)
    else if appender.type = 2 then Yaml.null.set "type" (.scalar "StdoutLogAppender")
    else Yaml.null
  let levelled :=
    if define.level ≠ .unknow then typed.set "level" (.scalar appender.level.toText) else typed
  if appender.formatter ≠ "" then levelled.set "formatter" (.scalar appender.formatter) else levelled

def encodeDefine (define : LogDefine) : Yaml :=
  let named := Yaml.null.set "name" (.scalar define.name)
  let levelled :=
    if define.level ≠ .unknow then named.set "level" (.scalar define.level.toText) else named
  let formatted :=
    if define.formatter = "" then levelled.set "formatter" (.scalar define.formatter) else levelled
  (define.appenders.map (encodeAppender define)).foldl
    (fun node appender => node.pushField "appenders" appender) formatted

def encode (defines : LogDefines) : Yaml :=
  (defines.elements.map encodeDefine).foldl Yaml.push .null

/-- The text of a field, or what the source takes when the field is not defined. -/
def textOr (default : String) : Option Yaml → Except Yaml.Error String
  | none => .ok default
  | some node => node.asText

/-- One appender; `none` when the entry is passed over. -/
def readAppender (node : Option Yaml) : Except Yaml.Error (Option LogAppenderDefine) := do
  match ← Yaml.field node "type" with
  | none => return none
  | some kind =>
      let type ← kind.asText
      if type = "FileLogAppender" then
        match ← Yaml.field node "file" with
        | none => return none
        | some file =>
            let name ← file.asText
            let formatter ← textOr "" (← Yaml.field node "formatter")
            return some ⟨1, .unknow, formatter, name⟩
      else if type = "StdoutLogAppender" then return some ⟨2, .unknow, "", ""⟩
      else return none

def readAppenders (node : Yaml) : Except Yaml.Error (List LogAppenderDefine) :=
  node.forEach (fun found entry => do
    match ← readAppender entry with
    | none => return found
    | some appender => return found ++ [appender]) []

/-- One logger; `none` when the entry is passed over, or has no `appenders`. -/
def readDefine (node : Option Yaml) : Except Yaml.Error (Option LogDefine) := do
  match ← Yaml.field node "name" with
  | none => return none
  | some text =>
      let name ← text.asText
      let level ← textOr "" (← Yaml.field node "level")
      let formatter ← textOr "" (← Yaml.field node "formatter")
      match ← Yaml.field node "appenders" with
      | none => return none
      | some list =>
          let appenders ← readAppenders list
          return some ⟨name, .fromString level, formatter, appenders⟩

def decode (node : Yaml) : Except Yaml.Error LogDefines :=
  node.forEach (fun defines entry => do
    match ← readDefine entry with
    | none => return defines
    | some define => return defines.insert define) .empty

/-- `LexicalCast<std::set<LogDefine>, std::string>`. -/
def toText (yaml : YamlText) (defines : LogDefines) : String := yaml.emit (encode defines)

/-- `LexicalCast<std::string, std::set<LogDefine>>`. -/
def fromText (yaml : YamlText) (text : String) : Except Yaml.Error LogDefines := do
  decode (← yaml.load text)

/-- An appender of one of the two types; only a file appender has a file. -/
def LogAppenderDefine.Typed (appender : LogAppenderDefine) : Prop :=
  appender.type = 1 ∨ appender.type = 2 ∧ appender.file = ""

/-- What is left of an appender behind the two casts. -/
def LogAppenderDefine.recovered (appender : LogAppenderDefine) : LogAppenderDefine :=
  if appender.type = 1 then { appender with level := .unknow } else ⟨2, .unknow, "", ""⟩

def LogDefine.recovered (define : LogDefine) : Option LogDefine :=
  if define.appenders = [] then none
  else some { define with
    formatter := "", appenders := define.appenders.map LogAppenderDefine.recovered }

def typeNode (appender : LogAppenderDefine) : Yaml :=
  if appender.type = 1 then
    (Yaml.null.set "type" (.scalar "FileLogAppender")).set "file" (.scalar appender.file)
  else if appender.type = 2 then Yaml.null.set "type" (.scalar "StdoutLogAppender")
  else Yaml.null

theorem typeNode_assignable (appender : LogAppenderDefine) : (typeNode appender).Assignable := by
  rw [typeNode]
  split
  · trivial
  · split <;> trivial

theorem field_encodeAppender (define : LogDefine) (appender : LogAppenderDefine) (key : String) :
    Yaml.field (some (encodeAppender define appender)) key =
      if appender.formatter ≠ "" ∧ key = "formatter" then .ok (some (.scalar appender.formatter))
      else if define.level ≠ .unknow ∧ key = "level" then
        .ok (some (.scalar appender.level.toText))
      else Yaml.field (some (typeNode appender)) key := by
  have base := typeNode_assignable appender
  rw [← Yaml.field_set_if base, ← Yaml.field_set_if (Yaml.set_if_assignable base _ _ _)]
  rfl

theorem readAppender_encode (define : LogDefine) {appender : LogAppenderDefine}
    (typed : appender.Typed) :
    readAppender (some (encodeAppender define appender)) = .ok (some appender.recovered) := by
  have kind : Yaml.field (some (encodeAppender define appender)) "type" =
      Yaml.field (some (typeNode appender)) "type" := by
    rw [field_encodeAppender, if_neg (by simp), if_neg (by simp)]
  rcases typed with first | ⟨second, -⟩
  · have file : Yaml.field (some (encodeAppender define appender)) "file" =
        Yaml.field (some (typeNode appender)) "file" := by
      rw [field_encodeAppender, if_neg (by simp), if_neg (by simp)]
    have formatter : (do textOr "" (← Yaml.field (some (encodeAppender define appender)) "formatter")) =
        .ok appender.formatter := by
      rw [field_encodeAppender, typeNode, if_pos first]
      by_cases empty : appender.formatter = ""
      · rw [if_neg (by simp [empty]), if_neg (by simp), empty]
        rfl
      · rw [if_pos ⟨empty, rfl⟩]
        rfl
    rw [typeNode, if_pos first] at kind file
    have read := congrArg (· >>= fun formatter => pure
      (some (⟨1, .unknow, formatter, appender.file⟩ : LogAppenderDefine))) formatter
    simp only [bind_assoc] at read
    simp only [readAppender, kind, file, LogAppenderDefine.recovered, first]
    exact read
  · have other : appender.type ≠ 1 := by omega
    rw [typeNode, if_neg other, if_pos second] at kind
    simp only [readAppender, kind, LogAppenderDefine.recovered, if_neg other]
    rfl

theorem readAppenders_encode (define : LogDefine) (appenders : List LogAppenderDefine)
    (typed : ∀ appender ∈ appenders, appender.Typed) :
    readAppenders (.sequence (appenders.map (encodeAppender define))) =
      .ok (appenders.map LogAppenderDefine.recovered) := by
  have visited : ∀ found : List LogAppenderDefine,
      appenders.foldlM (fun found appender => do
          match ← readAppender (some (encodeAppender define appender)) with
          | none => return found
          | some read => return found ++ [read]) found =
        (.ok (found ++ appenders.map LogAppenderDefine.recovered) : Except Yaml.Error _) := by
    induction appenders with
    | nil => simp [pure, Except.pure]
    | cons head tail ih =>
        intro found
        rw [List.foldlM_cons, readAppender_encode define (typed head List.mem_cons_self)]
        have rest := ih (fun appender member => typed appender (List.mem_cons_of_mem _ member))
          (found ++ [head.recovered])
        rw [List.append_assoc, List.singleton_append, ← List.map_cons] at rest
        exact rest
  rw [readAppenders, Yaml.forEach_sequence, List.foldlM_map]
  exact visited []

def LogDefine.header (define : LogDefine) : List (String × Yaml) :=
  ("name", .scalar define.name) ::
    (if define.level ≠ .unknow then [("level", .scalar define.level.toText)] else []) ++
    (if define.formatter = "" then [("formatter", .scalar define.formatter)] else [])

theorem encodeDefine_fields (define : LogDefine) :
    encodeDefine define = .mapping (define.header ++
      if define.appenders = [] then []
      else [("appenders", .sequence (define.appenders.map (encodeAppender define)))]) := by
  have fresh : define.header.lookup "appenders" = none := by
    rw [LogDefine.header]
    split <;> split <;> simp [List.lookup_cons]
  have front : (let named := Yaml.null.set "name" (.scalar define.name)
      let levelled :=
        if define.level ≠ .unknow then named.set "level" (.scalar define.level.toText) else named
      if define.formatter = "" then levelled.set "formatter" (.scalar define.formatter)
      else levelled) = .mapping define.header := by
    rw [LogDefine.header]
    split <;> split <;> simp [Yaml.set, Yaml.store]
  rw [encodeDefine, front, Yaml.foldl_pushField_fresh _ fresh]
  simp only [List.map_eq_nil_iff]

theorem readDefine_encode (define : LogDefine)
    (typed : ∀ appender ∈ define.appenders, appender.Typed) :
    readDefine (some (encodeDefine define)) = .ok define.recovered := by
  have level : LogLevel.fromString "" = .unknow := by decide
  rw [encodeDefine_fields, LogDefine.recovered]
  by_cases bare : define.appenders = []
  · rw [if_pos bare, if_pos bare, LogDefine.header]
    split <;> split <;>
      simp [readDefine, Yaml.field, Yaml.asText, textOr, List.lookup_cons, pure, Except.pure]
  · rw [if_neg bare, if_neg bare, LogDefine.header]
    split <;> split <;>
      simp_all [readDefine, Yaml.field, Yaml.asText, textOr, List.lookup_cons, pure, Except.pure,
        readAppenders_encode define define.appenders typed, fromString_toText]

theorem recovered_name {define left : LogDefine} (kept : define.recovered = some left) :
    left.name = define.name := by
  rw [LogDefine.recovered] at kept
  split at kept
  · cases kept
  · cases kept
    rfl

/-- The loop of the decoder: what was read so far stands in front of what is left, so each
logger goes to the end of the set. -/
theorem decode_loop (rest : List LogDefine) (found : LogDefines)
    (typed : ∀ define ∈ rest, ∀ appender ∈ define.appenders, appender.Typed)
    (ordered : OrderedSet.Ordered LogDefine.less rest)
    (front : ∀ earlier ∈ found.elements, ∀ define ∈ rest, LogDefine.less earlier define) :
    ∃ result : LogDefines,
      rest.foldlM (fun defines define => do
        match ← readDefine (some (encodeDefine define)) with
        | none => return defines
        | some read => return defines.insert read) found = Except.ok result ∧
      result.elements = found.elements ++ rest.filterMap LogDefine.recovered := by
  induction rest generalizing found with
  | nil => exact ⟨found, rfl, by simp⟩
  | cons head tail ih =>
      obtain ⟨first, sorted⟩ := List.pairwise_cons.mp ordered
      have later : ∀ define ∈ tail, ∀ appender ∈ define.appenders, appender.Typed :=
        fun define member => typed define (List.mem_cons_of_mem _ member)
      rw [List.foldlM_cons, readDefine_encode head (typed head List.mem_cons_self), List.filterMap_cons]
      cases kept : head.recovered with
      | none =>
          exact ih found later sorted fun earlier before define member =>
            front earlier before define (List.mem_cons_of_mem _ member)
      | some left =>
          have name := recovered_name kept
          have behind : ∀ earlier ∈ found.elements, OrderedSet.byKey LogDefine.name earlier left := by
            intro earlier before
            have below := front earlier before head List.mem_cons_self
            simpa [LogDefine.less, OrderedSet.byKey, name] using below
          have inserted : (found.insert left).elements = found.elements ++ [left] :=
            OrderedSet.insert_last behind
          have front' : ∀ earlier ∈ (found.insert left).elements, ∀ define ∈ tail,
              LogDefine.less earlier define := by
            intro earlier before define member
            rw [inserted, List.mem_append, List.mem_singleton] at before
            rcases before with before | rfl
            · exact front earlier before define (List.mem_cons_of_mem _ member)
            · simpa [LogDefine.less, OrderedSet.byKey, name] using first define member
          obtain ⟨result, ran, elements⟩ := ih (found.insert left) later sorted front'
          refine ⟨result, ran, ?_⟩
          rw [elements, inserted, List.append_assoc, List.singleton_append]

theorem decode_encode (defines : LogDefines)
    (typed : ∀ define ∈ defines.elements, ∀ appender ∈ define.appenders, appender.Typed) :
    ∃ result : LogDefines, decode (encode defines) = .ok result ∧
      result.elements = defines.elements.filterMap LogDefine.recovered := by
  obtain ⟨result, ran, elements⟩ := decode_loop defines.elements .empty typed defines.ordered
    fun earlier before => nomatch before
  refine ⟨result, ?_, elements⟩
  rw [← ran, encode, decode]
  cases defines.elements with
  | nil => rfl
  | cons head tail =>
      rw [List.map_cons, List.foldl_cons, Yaml.push, Yaml.foldl_push, Yaml.forEach_sequence,
        List.singleton_append, ← List.map_cons, List.foldlM_map]

theorem filterMap_eq_self {α : Type} (change : α → Option α) (items : List α) :
    items.filterMap change = items ↔ ∀ item ∈ items, change item = some item := by
  constructor
  · intro same
    induction items with
    | nil => exact fun item member => nomatch member
    | cons head tail ih =>
        have short := List.length_filterMap_le change tail
        cases changed : change head with
        | none =>
            rw [List.filterMap_cons_none changed] at same
            rw [same] at short
            simp at short
        | some next =>
            rw [List.filterMap_cons_some changed] at same
            obtain ⟨rfl, rest⟩ := List.cons.inj same
            exact List.forall_mem_cons.mpr ⟨changed, ih rest⟩
  · intro kept
    calc
      items.filterMap change = items.filterMap some := List.filterMap_congr kept
      _ = items := List.filterMap_some

/-- The loggers that the two casts give back as they were. -/
def LogDefine.Stable (define : LogDefine) : Prop :=
  define.formatter = "" ∧ define.appenders ≠ [] ∧
    ∀ appender ∈ define.appenders, appender.level = .unknow ∧ (appender.type = 2 → appender.formatter = "")

theorem appender_recovered_iff {appender : LogAppenderDefine} (typed : appender.Typed) :
    appender.recovered = appender ↔
      appender.level = .unknow ∧ (appender.type = 2 → appender.formatter = "") := by
  obtain ⟨type, level, formatter, file⟩ := appender
  rcases typed with first | ⟨second, bare⟩
  · simp only at first
    subst first
    simp [LogAppenderDefine.recovered, eq_comm]
  · simp only at second bare
    subst second
    subst bare
    simp [LogAppenderDefine.recovered, eq_comm]

theorem define_recovered_iff {define : LogDefine}
    (typed : ∀ appender ∈ define.appenders, appender.Typed) :
    define.recovered = some define ↔ define.Stable := by
  obtain ⟨name, level, formatter, appenders⟩ := define
  have mapped : appenders.map LogAppenderDefine.recovered = appenders ↔
      ∀ appender ∈ appenders, appender.level = .unknow ∧
        (appender.type = 2 → appender.formatter = "") := by
    nth_rewrite 2 [← List.map_id appenders]
    rw [List.map_inj_left]
    exact forall₂_congr fun appender member => appender_recovered_iff (typed appender member)
  by_cases bare : appenders = []
  · simp [LogDefine.recovered, LogDefine.Stable, bare]
  · simp [LogDefine.recovered, LogDefine.Stable, bare, mapped, @eq_comm _ "" formatter]

/-- The casts give a set back exactly when each of its loggers is stable: the formatter of
a logger is written only when it is empty, a logger without appenders is not read, the level
of an appender is never read, and its formatter only for a file. -/
theorem fromText_toText_iff (yaml : YamlText) (defines : LogDefines)
    (typed : ∀ define ∈ defines.elements, ∀ appender ∈ define.appenders, appender.Typed)
    (parsed : yaml.load (yaml.emit (encode defines)) = .ok (encode defines)) :
    fromText yaml (toText yaml defines) = .ok defines ↔
      ∀ define ∈ defines.elements, define.Stable := by
  obtain ⟨result, decoded, elements⟩ := decode_encode defines typed
  have read : fromText yaml (toText yaml defines) = .ok result := by
    rw [fromText, toText, parsed, ok_bind, decoded]
  have same : result = defines ↔ result.elements = defines.elements := by
    constructor
    · exact fun equal => congrArg LogDefines.elements equal
    · intro equal
      cases result
      cases defines
      cases equal
      rfl
  rw [read, Except.ok.injEq, same, elements, filterMap_eq_self]
  exact forall₂_congr fun define member => define_recovered_iff (typed define member)

/-- The library on one document: `text` is how it writes `node`. -/
def YamlText.onDocument (node : Yaml) (text : String) : YamlText :=
  ⟨fun _ => text, fun _ => .ok node⟩

def fileLogger : LogDefines :=
  ⟨[⟨"root", .info, "", [⟨1, .unknow, "%m%n", "root.txt"⟩]⟩], List.pairwise_singleton _ _⟩

def fileLoggerText : String :=
  "- name: root\n  level: INFO\n  formatter: \"\"\n  appenders:\n    - type: FileLogAppender\n" ++
    "      file: root.txt\n      level: UNKNOW\n      formatter: \"%m%n\""

theorem fileLogger_round_trip :
    fromText (.onDocument (encode fileLogger) fileLoggerText)
      (toText (.onDocument (encode fileLogger) fileLoggerText) fileLogger) = .ok fileLogger :=
  (fromText_toText_iff (.onDocument (encode fileLogger) fileLoggerText) fileLogger
    (by simp [fileLogger, LogAppenderDefine.Typed]) rfl).mpr
    (by simp [fileLogger, LogDefine.Stable])

def formattedLogger : LogDefines :=
  ⟨[⟨"root", .info, "%m%n", [⟨2, .unknow, "", ""⟩]⟩], List.pairwise_singleton _ _⟩

def formattedLoggerText : String :=
  "- name: root\n  level: INFO\n  appenders:\n    - type: StdoutLogAppender\n      level: UNKNOW"

/-- The formatter of the logger is lost. -/
theorem formattedLogger_changed :
    let yaml := YamlText.onDocument (encode formattedLogger) formattedLoggerText
    (∀ define ∈ formattedLogger.elements, ∀ appender ∈ define.appenders, appender.Typed) ∧
      yaml.load (yaml.emit (encode formattedLogger)) = .ok (encode formattedLogger) ∧
      fromText yaml (toText yaml formattedLogger) ≠ .ok formattedLogger := by
  refine ⟨by simp [formattedLogger, LogAppenderDefine.Typed], rfl, ?_⟩
  decide

end OtaMqtt.Log
