import OtaMqtt.Ota.Dispatcher

/-! What a request comes to before the manager acts, and which device it acts on. -/

namespace OtaMqtt.Ota.Routing

open OtaMqtt.Lib OtaMqtt.Lib.Execution OtaMqtt.Lib.Stream
open OtaMqtt.Ota OtaMqtt.Ota.Dispatcher

/-- `submitted` holds the arguments of `OTAManager::submit`. -/
inductive Route where
  | refused
  | thrown
  | submitted (deviceType : UInt16) (deviceNo : UInt32) (command : String)
      (detail : String → String)

def require {α : Type} (element : Element α) (next : α → Route) : Route :=
  match element with
  | .missing => .refused
  | .thrown => .thrown
  | .found value => next value

def versionRoute (command : String) (json : Json) : Route :=
  require (getDeviceType json) fun deviceType =>
    require (getText "version" json) fun version =>
      require (getText "name" json) fun name =>
        .submitted deviceType (-1) command (detail [("version", version), ("name", name)])

def deviceRoute (command key : String) (json : Json) : Route :=
  require (getDeviceType json) fun deviceType =>
    require (getDeviceNo json) fun deviceNo =>
      require (getText key json) fun text =>
        .submitted deviceType deviceNo command (detail [(key, text)])

def optionsRoute : Route := .submitted (-1) (-1) "OPTIONS" (detail [])

def dispatchRoute (command : String) (json : Json) : Route :=
  match command with
  | "notify" => versionRoute "notify" json
  | "query" => deviceRoute "query" "action" json
  | "stop_notify" => versionRoute "stop_notify" json
  | "query_download" => deviceRoute "query_download" "name" json
  | "file_download" => versionRoute "file_download" json
  | "OPTIONS" => optionsRoute
  | _ => .refused

def route (parse : String → Option Json) (cmd uri body : String) : Route :=
  if cmd = "POST" then
    match checkUri uri with
    | none => .refused
    | some command =>
        match parse body with
        | none => .thrown
        | some json => dispatchRoute command json
  else if cmd = "GET" then
    match checkDownloadUri uri with
    | none => .refused
    | some (deviceType, name, version, command) =>
        dispatchRoute command (downloadJson deviceType name version)
  else if cmd = "OPTIONS" then optionsRoute
  else .refused

section
variable (env : Environment) (manager : OTAManager) (connectId : Int)

def perform : Route → Run Outcome
  | .refused => refused manager
  | .thrown => thrown manager
  | .submitted deviceType deviceNo command detail =>
      manager.submit env deviceType deviceNo command connectId detail

theorem withElement_perform {α : Type} (element : Element α) (run : α → Run Outcome)
    (next : α → Route) (same : ∀ value, run value = perform env manager connectId (next value)) :
    withElement manager element run = perform env manager connectId (require element next) := by
  cases element with
  | missing => rfl
  | thrown => rfl
  | found value => exact same value

theorem versionReq_route (command : String) (json : Json) :
    versionReq env manager connectId command json =
      perform env manager connectId (versionRoute command json) := by
  apply withElement_perform
  intro deviceType
  apply withElement_perform
  intro version
  apply withElement_perform
  intro name
  rfl

theorem deviceReq_route (command key : String) (json : Json) :
    deviceReq env manager connectId command key json =
      perform env manager connectId (deviceRoute command key json) := by
  apply withElement_perform
  intro deviceType
  apply withElement_perform
  intro deviceNo
  apply withElement_perform
  intro text
  rfl

theorem dispatch_route (command : String) (json : Json) :
    dispatch env manager connectId command json =
      perform env manager connectId (dispatchRoute command json) := by
  unfold dispatch
  split
  · exact versionReq_route env manager connectId "notify" json
  · exact deviceReq_route env manager connectId "query" "action" json
  · exact versionReq_route env manager connectId "stop_notify" json
  · exact deviceReq_route env manager connectId "query_download" "name" json
  · exact versionReq_route env manager connectId "file_download" json
  · rfl
  · rw [dispatchRoute]
    · rfl
    · assumption
    · assumption
    · assumption
    · assumption
    · assumption
    · assumption

/-- A request does nothing but what its route says. -/
theorem handleRequest_route (cmd uri body : String) :
    handleRequest env manager connectId cmd uri body =
      perform env manager connectId (route env.parse cmd uri body) := by
  unfold handleRequest route
  split
  · cases checkUri uri with
    | none => rfl
    | some command =>
        dsimp only
        cases env.parse body with
        | none => rfl
        | some json => exact dispatch_route env manager connectId command json
  · split
    · cases checkDownloadUri uri with
      | none => rfl
      | some fields => exact dispatch_route env manager connectId _ _
    · split
      · rfl
      · rfl

end

/-- A member that `get_element` reads, as a number or as a text. -/
inductive Field where
  | number (value : Option Json)
  | text (value : Option Json)

namespace Field

/-- It is missing, or of a kind for which `get_element` returns false. -/
@[simp] def Absent : Field → Prop
  | number (some (.integer _)) => False
  | number (some (.string _)) => False
  | number _ => True
  | text value => value = none

/-- `std::stoul` or the conversion to a text throws. -/
@[simp] def Malformed : Field → Prop
  | number (some (.string digits)) => stoul digits = none
  | number _ => False
  | text none => False
  | text (some (.string _)) => False
  | text (some _) => True

@[simp] def Readable : Field → Prop
  | number (some (.integer _)) => True
  | number (some (.string digits)) => stoul digits ≠ none
  | number _ => False
  | text (some (.string _)) => True
  | text _ => False

end Field

/-- A field of a kind is met, and every field before it can be read. -/
def Meets (kind : Field → Prop) : List Field → Prop
  | [] => False
  | field :: fields => kind field ∨ (field.Readable ∧ Meets kind fields)

/-- The members that a command needs, in the order in which they are read. -/
def required (json : Json) (command : String) : List Field :=
  match command with
  | "query" => [.number (json.find "device_type"), .number (json.find "device_no"),
      .text (json.find "action")]
  | "query_download" => [.number (json.find "device_type"), .number (json.find "device_no"),
      .text (json.find "name")]
  | _ => [.number (json.find "device_type"), .text (json.find "version"), .text (json.find "name")]

/-- The commands that act on a device, and those of them that need its number. -/
def deviceCommands : List String := ["notify", "query", "stop_notify", "query_download", "file_download"]

def numbered : List String := ["query", "query_download"]

def Describes {α : Type} (element : Element α) (field : Field) : Prop :=
  (element = .missing ↔ field.Absent) ∧ (element = .thrown ↔ field.Malformed) ∧
    ((∃ value, element = .found value) ↔ field.Readable)

theorem getNumber_describes {α : Type} (cast : Int → α) (key : String) (json : Json) :
    Describes (getNumber cast key json) (.number (json.find key)) := by
  unfold getNumber Describes
  cases json.find key with
  | none => simp
  | some value =>
      cases value with
      | string text =>
          dsimp only
          cases read : stoul text with
          | none => simp [read]
          | some number => simp [read]
      | null => simp
      | boolean value => simp
      | integer value => simp
      | float value => simp
      | array elements => simp
      | object members => simp

theorem getText_describes (key : String) (json : Json) :
    Describes (getText key json) (.text (json.find key)) := by
  unfold getText Describes
  cases json.find key with
  | none => simp
  | some value =>
      cases value with
      | string text => simp
      | null => simp
      | boolean value => simp
      | integer value => simp
      | float value => simp
      | array elements => simp
      | object members => simp

structure Ends (route : Route) (fields : List Field) : Prop where
  refused : route = .refused ↔ Meets Field.Absent fields
  thrown : route = .thrown ↔ Meets Field.Malformed fields

theorem require_ends {α : Type} {element : Element α} {field : Field} {next : α → Route}
    {fields : List Field} (describes : Describes element field)
    (each : ∀ value, Ends (next value) fields) : Ends (require element next) (field :: fields) := by
  obtain ⟨absent, malformed, readable⟩ := describes
  constructor
  · rw [Meets, ← absent, ← readable]
    cases element with
    | missing => simp [require]
    | thrown => simp [require]
    | found value => simp [require, (each value).refused]
  · rw [Meets, ← malformed, ← readable]
    cases element with
    | missing => simp [require]
    | thrown => simp [require]
    | found value => simp [require, (each value).thrown]

theorem submitted_ends (deviceType : UInt16) (deviceNo : UInt32) (command : String)
    (detail : String → String) : Ends (.submitted deviceType deviceNo command detail) [] := by
  constructor
  · simp [Meets]
  · simp [Meets]

theorem versionRoute_ends (command : String) (json : Json) :
    Ends (versionRoute command json) [.number (json.find "device_type"),
      .text (json.find "version"), .text (json.find "name")] := by
  apply require_ends (getNumber_describes UInt16.ofInt "device_type" json)
  intro deviceType
  apply require_ends (getText_describes "version" json)
  intro version
  apply require_ends (getText_describes "name" json)
  intro name
  exact submitted_ends deviceType (-1) command _

theorem deviceRoute_ends (command key : String) (json : Json) :
    Ends (deviceRoute command key json) [.number (json.find "device_type"),
      .number (json.find "device_no"), .text (json.find key)] := by
  apply require_ends (getNumber_describes UInt16.ofInt "device_type" json)
  intro deviceType
  apply require_ends (getNumber_describes UInt32.ofInt "device_no" json)
  intro deviceNo
  apply require_ends (getText_describes key json)
  intro text
  exact submitted_ends deviceType deviceNo command _

theorem mem_deviceCommands {command : String} (known : command ∈ deviceCommands) :
    command = "notify" ∨ command = "query" ∨ command = "stop_notify" ∨ command = "query_download" ∨
      command = "file_download" := by
  simpa only [deviceCommands, List.mem_cons, List.not_mem_nil, or_false] using known

theorem dispatchRoute_ends (command : String) (json : Json) (known : command ∈ deviceCommands) :
    Ends (dispatchRoute command json) (required json command) := by
  rcases mem_deviceCommands known with rfl | rfl | rfl | rfl | rfl
  · exact versionRoute_ends "notify" json
  · exact deviceRoute_ends "query" "action" json
  · exact versionRoute_ends "stop_notify" json
  · exact deviceRoute_ends "query_download" "name" json
  · exact versionRoute_ends "file_download" json

/-- The number that a value denotes: an integer, or a text of nothing but decimal digits. -/
def denoted : Json → Option Nat
  | .integer value => if 0 ≤ value then some value.toNat else none
  | .string text =>
      if text.toList ≠ [] ∧ text.toList.all Char.isDigit = true then
        some (Nat.ofDigitChars 10 text.toList 0)
      else none
  | _ => none

def Names (field : Option Json) (value : Nat) : Prop := field.bind denoted = some value

def Exact (limit : Nat) (field : Option Json) : Prop := ∃ value < limit, Names field value

structure Addressee where
  command : String
  deviceType : Option Json
  deviceNo : Option Json

def Addressee.Exact (addressee : Addressee) : Prop :=
  Routing.Exact (2 ^ 16) addressee.deviceType ∧
    (addressee.command ∈ numbered → Routing.Exact (2 ^ 32) addressee.deviceNo)

/-- The manager gets the device that is named, and a request that names none is refused. -/
structure Obeys (addressee : Addressee) (route : Route) : Prop where
  same : ∀ deviceType deviceNo command detail, route = .submitted deviceType deviceNo command detail →
    Names addressee.deviceType deviceType.toNat ∧
      (addressee.command ∈ numbered → Names addressee.deviceNo deviceNo.toNat)
  refused : ¬ addressee.Exact → route = .refused

def downloadRest (uri : String) : List Char :=
  (getline '/' (getline '/' (getline '/' uri.toList).2).2).2

def typeSegment (uri : String) : String := (getline '/' (downloadRest uri)).1

def downloadName (uri : String) : String := (getline '/' (getline '/' (downloadRest uri)).2).1

def downloadVersion (uri : String) : String :=
  (getline '/' (getline '/' (getline '/' (downloadRest uri)).2).2).1

def downloadCommand (uri : String) : String :=
  extract (getline '/' (getline '/' (getline '/' (downloadRest uri)).2).2).2

def addressee (parse : String → Option Json) (cmd uri body : String) : Option Addressee :=
  if cmd = "POST" then do
    let command ← checkUri uri
    let json ← parse body
    some ⟨command, json.find "device_type", json.find "device_no"⟩
  else if cmd = "GET" ∧ "/download/ota/".toList.isPrefixOf uri.toList then
    some ⟨downloadCommand uri, some (.string (typeSegment uri)), none⟩
  else none

/-- A command for a device is submitted for the device that its request names, or refused. -/
def ActsAsNamed (parse : String → Option Json) (cmd uri body : String) : Prop :=
  ∀ device ∈ addressee parse cmd uri body, device.command ∈ deviceCommands →
    Obeys device (route parse cmd uri body)

/-- The request names its device exactly, or it is refused for a field that is missing. -/
def Faultless (parse : String → Option Json) (cmd uri body : String) : Prop :=
  ∀ device ∈ addressee parse cmd uri body, device.command ∈ deviceCommands →
    device.Exact ∨
      (cmd = "POST" ∧ ∃ json ∈ parse body, Meets Field.Absent (required json device.command)) ∨
      (cmd = "GET" ∧ (stoul (typeSegment uri) = none ∨ device.command ∈ numbered))

theorem obeys_iff (addressee : Addressee) (route : Route)
    (same : addressee.Exact → ∀ deviceType deviceNo command detail,
      route = .submitted deviceType deviceNo command detail →
        Names addressee.deviceType deviceType.toNat ∧
          (addressee.command ∈ numbered → Names addressee.deviceNo deviceNo.toNat)) :
    Obeys addressee route ↔ addressee.Exact ∨ route = .refused := by
  constructor
  · intro obeys
    by_cases exactly : addressee.Exact
    · exact .inl exactly
    · exact .inr (obeys.refused exactly)
  · intro either
    rcases either with exactly | refused
    · exact ⟨same exactly, fun inexact => absurd exactly inexact⟩
    · constructor
      · intro deviceType deviceNo command detail submitted
        rw [refused] at submitted
        cases submitted
      · intro
        exact refused

theorem denoted_text {text : String} {value : Nat} (denotes : denoted (.string text) = some value)
    (bound : value < 2 ^ 64) : stoul text = some (UInt64.ofNat value) := by
  rw [denoted] at denotes
  split at denotes
  · rename_i digits
    cases denotes
    exact stoul_digits text digits.1 (List.all_eq_true.mp digits.2) bound
  · cases denotes

theorem getNumber_named {α : Type} (cast : Int → α) (key : String) (json : Json) (value : Nat)
    (named : Names (json.find key) value) (bound : value < 2 ^ 64) :
    getNumber cast key json = .found (cast value) := by
  obtain ⟨field, present, denotes⟩ := Option.bind_eq_some_iff.mp named
  rw [getNumber, present]
  cases field with
  | integer number =>
      rw [denoted] at denotes
      split at denotes
      · rename_i natural
        have same : (value : Int) = number := by
          rw [← Option.some.inj denotes, Int.toNat_of_nonneg natural]
        rw [same]
      · cases denotes
  | string text =>
      dsimp only
      rw [denoted_text denotes bound]
      dsimp only
      rw [UInt64.toNat_ofNat', Nat.mod_eq_of_lt bound]
  | null => cases denotes
  | boolean value => cases denotes
  | float value => cases denotes
  | array elements => cases denotes
  | object members => cases denotes

theorem found_named {α : Type} (cast : Int → α) (toNat : α → Nat) (limit : Nat) (key : String)
    (json : Json) (value : α) (wide : limit ≤ 2 ^ 64)
    (keeps : ∀ number < limit, toNat (cast (number : Int)) = number)
    (exactly : Exact limit (json.find key)) (found : getNumber cast key json = .found value) :
    Names (json.find key) (toNat value) := by
  obtain ⟨number, bound, named⟩ := exactly
  rw [getNumber_named cast key json number named (lt_of_lt_of_le bound wide)] at found
  cases found
  rw [keeps number bound]
  exact named

theorem uint16_keeps (number : Nat) (bound : number < 2 ^ 16) :
    (UInt16.ofInt (number : Int)).toNat = number := by
  rw [UInt16.ofInt, UInt16.toNat_ofNat']
  omega

theorem uint32_keeps (number : Nat) (bound : number < 2 ^ 32) :
    (UInt32.ofInt (number : Int)).toNat = number := by
  rw [UInt32.ofInt, UInt32.toNat_ofNat']
  omega

theorem require_submitted {α : Type} {element : Element α} {next : α → Route} {deviceType : UInt16}
    {deviceNo : UInt32} {command : String} {detail : String → String}
    (submitted : require element next = .submitted deviceType deviceNo command detail) :
    ∃ value, element = .found value ∧ next value = .submitted deviceType deviceNo command detail := by
  cases element with
  | missing => cases submitted
  | thrown => cases submitted
  | found value => exact ⟨value, rfl, submitted⟩

theorem versionRoute_submitted {command sent : String} {json : Json} {deviceType : UInt16}
    {deviceNo : UInt32} {texts : String → String}
    (submitted : versionRoute command json = .submitted deviceType deviceNo sent texts) :
    sent = command ∧ getDeviceType json = .found deviceType ∧
      getText "version" json = .found (texts "version") ∧ getText "name" json = .found (texts "name") := by
  obtain ⟨kind, typed, submitted⟩ := require_submitted submitted
  obtain ⟨version, versioned, submitted⟩ := require_submitted submitted
  obtain ⟨name, named, submitted⟩ := require_submitted submitted
  cases submitted
  exact ⟨rfl, typed, versioned, named⟩

theorem deviceRoute_submitted {command key sent : String} {json : Json} {deviceType : UInt16}
    {deviceNo : UInt32} {texts : String → String}
    (submitted : deviceRoute command key json = .submitted deviceType deviceNo sent texts) :
    sent = command ∧ getDeviceType json = .found deviceType ∧ getDeviceNo json = .found deviceNo := by
  obtain ⟨kind, typed, submitted⟩ := require_submitted submitted
  obtain ⟨number, counted, submitted⟩ := require_submitted submitted
  obtain ⟨text, -, submitted⟩ := require_submitted submitted
  cases submitted
  exact ⟨rfl, typed, counted⟩

theorem dispatchRoute_submitted {command sent : String} {json : Json} {deviceType : UInt16}
    {deviceNo : UInt32} {detail : String → String} (known : command ∈ deviceCommands)
    (submitted : dispatchRoute command json = .submitted deviceType deviceNo sent detail) :
    getDeviceType json = .found deviceType ∧
      (command ∈ numbered → getDeviceNo json = .found deviceNo) := by
  rcases mem_deviceCommands known with rfl | rfl | rfl | rfl | rfl
  · obtain ⟨-, typed, -⟩ := @versionRoute_submitted "notify" _ _ _ _ _ submitted
    exact ⟨typed, fun needed => absurd needed (by decide)⟩
  · obtain ⟨-, typed, counted⟩ := @deviceRoute_submitted "query" "action" _ _ _ _ _ submitted
    exact ⟨typed, fun _ => counted⟩
  · obtain ⟨-, typed, -⟩ := @versionRoute_submitted "stop_notify" _ _ _ _ _ submitted
    exact ⟨typed, fun needed => absurd needed (by decide)⟩
  · obtain ⟨-, typed, counted⟩ := @deviceRoute_submitted "query_download" "name" _ _ _ _ _ submitted
    exact ⟨typed, fun _ => counted⟩
  · obtain ⟨-, typed, -⟩ := @versionRoute_submitted "file_download" _ _ _ _ _ submitted
    exact ⟨typed, fun needed => absurd needed (by decide)⟩

theorem post_obeys_iff (command : String) (json : Json) (known : command ∈ deviceCommands) :
    Obeys ⟨command, json.find "device_type", json.find "device_no"⟩ (dispatchRoute command json) ↔
      Addressee.Exact ⟨command, json.find "device_type", json.find "device_no"⟩ ∨
        Meets Field.Absent (required json command) := by
  rw [← (dispatchRoute_ends command json known).refused]
  apply obeys_iff
  rintro ⟨typed, counted⟩ deviceType deviceNo sent detail submitted
  obtain ⟨kind, number⟩ := dispatchRoute_submitted known submitted
  constructor
  · exact found_named UInt16.ofInt UInt16.toNat _ _ _ _ (by decide) uint16_keeps typed kind
  · intro needed
    exact found_named UInt32.ofInt UInt32.toNat _ _ _ _ (by decide) uint32_keeps (counted needed)
      (number needed)

theorem checkDownloadUri_eq (uri : String)
    (start : "/download/ota/".toList.isPrefixOf uri.toList = true) :
    checkDownloadUri uri = (stoul (typeSegment uri)).map fun value =>
      (value.toUInt16, downloadName uri, downloadVersion uri, downloadCommand uri) := by
  rw [checkDownloadUri, if_pos start, typeSegment, downloadName, downloadVersion, downloadCommand,
    downloadRest]
  generalize (getline '/' (getline '/' (getline '/' uri.toList).2).2).2 = rest
  dsimp only
  cases getline '/' rest with
  | mk segment rest =>
      dsimp only
      cases stoul segment with
      | none => rfl
      | some value => rfl

theorem download_type (deviceType : UInt16) (name version : String) :
    getDeviceType (downloadJson deviceType name version) = .found deviceType := by
  have kept := uint16_keeps deviceType.toNat deviceType.toNat_lt
  change Element.found (UInt16.ofInt deviceType.toNat) = _
  rw [UInt16.toNat_inj.mp kept]

theorem download_fields (deviceType : UInt16) (name version : String) :
    (downloadJson deviceType name version).find "device_type" = some (.integer deviceType.toNat) ∧
    (downloadJson deviceType name version).find "device_no" = none ∧
    (downloadJson deviceType name version).find "name" = some (.string name) ∧
    (downloadJson deviceType name version).find "version" = some (.string version) :=
  ⟨rfl, rfl, rfl, rfl⟩

theorem download_refused_iff (command : String) (deviceType : UInt16) (name version : String)
    (known : command ∈ deviceCommands) :
    dispatchRoute command (downloadJson deviceType name version) = .refused ↔ command ∈ numbered := by
  obtain ⟨typed, unnumbered, named, versioned⟩ := download_fields deviceType name version
  rw [(dispatchRoute_ends command _ known).refused]
  rcases mem_deviceCommands known with rfl | rfl | rfl | rfl | rfl
  · simp [required, numbered, typed, named, versioned, Meets]
  · simp [required, numbered, typed, unnumbered, Meets]
  · simp [required, numbered, typed, named, versioned, Meets]
  · simp [required, numbered, typed, unnumbered, Meets]
  · simp [required, numbered, typed, named, versioned, Meets]

theorem download_well_formed (command : String) (deviceType : UInt16) (name version : String)
    (known : command ∈ deviceCommands) :
    ¬ Meets Field.Malformed (required (downloadJson deviceType name version) command) := by
  obtain ⟨typed, unnumbered, named, versioned⟩ := download_fields deviceType name version
  rcases mem_deviceCommands known with rfl | rfl | rfl | rfl | rfl
  · simp [required, typed, named, versioned, Meets]
  · simp [required, typed, unnumbered, Meets]
  · simp [required, typed, named, versioned, Meets]
  · simp [required, typed, unnumbered, Meets]
  · simp [required, typed, named, versioned, Meets]

def segmentRoute (segment name version command : String) : Route :=
  match stoul segment with
  | none => .refused
  | some value => dispatchRoute command (downloadJson value.toUInt16 name version)

theorem download_route (parse : String → Option Json) (uri body : String)
    (start : "/download/ota/".toList.isPrefixOf uri.toList = true) :
    route parse "GET" uri body = segmentRoute (typeSegment uri) (downloadName uri)
      (downloadVersion uri) (downloadCommand uri) := by
  rw [route, if_neg (by decide), if_pos rfl, checkDownloadUri_eq uri start, segmentRoute]
  cases stoul (typeSegment uri) with
  | none => rfl
  | some value => rfl

theorem segment_keeps (number : Nat) (bound : number < 2 ^ 16) :
    (UInt64.ofNat number).toUInt16.toNat = number := by
  have wide : number < 2 ^ 64 := lt_trans bound (by decide)
  rw [UInt64.toNat_toUInt16, UInt64.toNat_ofNat', Nat.mod_eq_of_lt wide, Nat.mod_eq_of_lt bound]

theorem segment_obeys_iff (segment name version command : String)
    (known : command ∈ deviceCommands) :
    Obeys ⟨command, some (.string segment), none⟩ (segmentRoute segment name version command) ↔
      Addressee.Exact ⟨command, some (.string segment), none⟩ ∨
        stoul segment = none ∨ command ∈ numbered := by
  have refused : segmentRoute segment name version command = .refused ↔
      stoul segment = none ∨ command ∈ numbered := by
    unfold segmentRoute
    cases stoul segment with
    | none => simp
    | some value => simp [download_refused_iff command value.toUInt16 name version known]
  rw [← refused]
  apply obeys_iff
  rintro ⟨⟨number, bound, named⟩, counted⟩ deviceType deviceNo sent detail submitted
  rw [segmentRoute, denoted_text named (lt_trans bound (by decide))] at submitted
  obtain ⟨typed, -⟩ := dispatchRoute_submitted known submitted
  rw [download_type] at typed
  have same : (UInt64.ofNat number).toUInt16 = deviceType := Element.found.inj typed
  constructor
  · rw [← same, segment_keeps number bound]
    exact named
  · intro needed
    obtain ⟨number, -, nothing⟩ := counted needed
    cases nothing

/-- A request acts on the device that it names exactly when it names one in full or is refused
for a field that is missing. -/
theorem acts_as_named_iff (parse : String → Option Json) (cmd uri body : String) :
    ActsAsNamed parse cmd uri body ↔ Faultless parse cmd uri body := by
  unfold ActsAsNamed Faultless
  apply forall_congr'
  intro device
  apply forall_congr'
  intro addressed
  apply forall_congr'
  intro known
  rw [addressee] at addressed
  split at addressed
  · rename_i post
    subst post
    obtain ⟨command, checked, addressed⟩ := Option.bind_eq_some_iff.mp addressed
    obtain ⟨json, parsed, addressed⟩ := Option.bind_eq_some_iff.mp addressed
    cases addressed
    have routed : route parse "POST" uri body = dispatchRoute command json := by
      rw [route, if_pos rfl, checked]
      dsimp only
      rw [parsed]
    rw [routed, post_obeys_iff command json known]
    simp [parsed]
  · split at addressed
    · rename_i get
      obtain ⟨get, start⟩ := get
      subst get
      have same := Option.some.inj addressed
      rw [← same] at known ⊢
      rw [download_route parse uri body start, segment_obeys_iff _ _ _ _ known]
      simp
    · cases addressed

/-- Type 65537 is taken for type 1. -/
theorem wrapped_type_misaddressed :
    ¬ ∀ (parse : String → Option Json) (cmd uri body : String), ActsAsNamed parse cmd uri body := by
  intro all_obeyed
  have start : "/download/ota/".toList.isPrefixOf "/download/ota/65537/fw/2/notify".toList = true := by
    decide +kernel
  have segment : typeSegment "/download/ota/65537/fw/2/notify" = "65537" := by decide +kernel
  have command : downloadCommand "/download/ota/65537/fw/2/notify" = "notify" := by decide +kernel
  have addressed : addressee (fun _ => none) "GET" "/download/ota/65537/fw/2/notify" "" =
      some ⟨"notify", some (.string "65537"), none⟩ := by
    rw [addressee, if_neg (by decide), if_pos ⟨rfl, start⟩, segment, command]
  have obeys := all_obeyed _ _ _ _ _ addressed (by decide)
  rw [download_route _ _ _ start, segment, command, segment_obeys_iff _ _ _ _ (by decide)] at obeys
  rcases obeys with ⟨⟨value, bound, named⟩, -⟩ | unread | numbered
  · have same : denoted (.string "65537") = some 65537 := by decide +kernel
    have equal : some 65537 = some value := same.symm.trans named
    cases equal
    exact absurd bound (by decide)
  · exact absurd unread (by decide +kernel)
  · exact absurd numbered (by decide)

end OtaMqtt.Ota.Routing
