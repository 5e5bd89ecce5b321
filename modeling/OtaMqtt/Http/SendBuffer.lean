import Mathlib.Data.List.AList
import OtaMqtt.Lib.Delimited
import OtaMqtt.Lib.Execution
import OtaMqtt.Lib.JsonPath

/-! The store of device details behind a connection (sherry/http/http_send_buffer.h,
http_send_buffer.cc).

The parser of the JSON library is a parameter: `none` stands for the exception that it throws.
An answer is kept as a JSON value; its text is the printer's. -/

namespace OtaMqtt.Http.SendBuffer

open OtaMqtt.Lib OtaMqtt.Lib.Delimited OtaMqtt.Lib.Execution

structure DeviceInstance where
  downloadDetails : Json := .null
  queryDetails : Json := .null

structure OTAData where
  managerInfo : String
  devices : AList fun _ : Int32 => AList fun _ : Int32 => AList fun _ : String => DeviceInstance

abbrev Key := Int32 × Int32 × String

def truncate (value : Rat) : Int := if 0 ≤ value then value.floor else value.ceil

/-- The conversion to an `int`: another value than a number or a truth value throws, and a number
with a fraction must be in range. -/
def getInt : Json → Run (Option Int32)
  | .integer value => .ok (some (Int32.ofInt value))
  | .boolean value => .ok (some (if value then 1 else 0))
  | .float value =>
      if -2 ^ 31 ≤ truncate value ∧ truncate value < 2 ^ 31 then
        .ok (some (Int32.ofInt (truncate value)))
      else .error .intOverflow
  | _ => .ok none

def getText : Json → Option String
  | .string text => some text
  | _ => none

/-- `int member = j.at(key)`. -/
def atInt (json : Json) (key : String) : Run (Option Int32) :=
  match json.find key with
  | none => .ok none
  | some member => getInt member

/-- What a message is about; `none` stands for the exception that `mergeFromJson` catches. -/
def readKey (json : Json) : Run (Option Key) := do
  match ← atInt json "device_type" with
  | none => .ok none
  | some deviceType =>
      match ← atInt json "device_no" with
      | none => .ok none
      | some deviceNo =>
          .ok (((json.find "name").bind getText).map fun name => (deviceType, deviceNo, name))

def read (parse : String → Option Json) (text : String) : Run (Option (Key × Json)) :=
  match parse text with
  | none => .ok none
  | some json => do
      let key ← readKey json
      .ok (key.map fun key => (key, json))

namespace DeviceInstance

def merge (instance_ : DeviceInstance) (json : Json) : DeviceInstance where
  downloadDetails :=
    if json.contains "download_details" then json.get "download_details"
    else instance_.downloadDetails
  queryDetails :=
    if json.contains "query_details" then json.get "query_details" else instance_.queryDetails

def toJson (instance_ : DeviceInstance) : Json :=
  .object [("download_details", instance_.downloadDetails), ("query_details", instance_.queryDetails)]

end DeviceInstance

namespace OTAData

def empty : OTAData := ⟨"", ∅⟩

def find (data : OTAData) (key : Key) : Option DeviceInstance :=
  ((data.devices.lookup key.1).bind (AList.lookup key.2.1)).bind (AList.lookup key.2.2)

/-- Assignment to `devices[device_type][device_no][name]`. -/
def put (data : OTAData) (key : Key) (instance_ : DeviceInstance) : OTAData :=
  let numbers := (data.devices.lookup key.1).getD ∅
  let names := (numbers.lookup key.2.1).getD ∅
  { data with
    devices := data.devices.insert key.1 (numbers.insert key.2.1 (names.insert key.2.2 instance_)) }

def mergeFromJson (parse : String → Option Json) (data : OTAData) (text : String) : Run OTAData := do
  match ← read parse text with
  | none => .ok data
  | some (key, json) => .ok (data.put key (((data.find key).getD {}).merge json))

def path (key : Key) : List String :=
  ["devices", toString key.1.toInt, toString key.2.1.toInt, key.2.2]

/-- The assignments of the three loops, in the order in which the maps are walked. -/
def entries (data : OTAData) : List (List String × Json) :=
  data.devices.entries.flatMap fun numbers =>
    numbers.2.entries.flatMap fun names =>
      names.2.entries.map fun entry => (path (numbers.1, names.1, entry.1), entry.2.toJson)

def toJson (data : OTAData) : Json :=
  Json.assignAll data.entries (Json.null.set "manager_info" (.string data.managerInfo))

end OTAData

/-- `m_server`, which the default constructor leaves as it is. -/
inductive Server where
  | uninitialised
  | null
  | running
  deriving DecidableEq

/-- `m_mp` and `m_server`; a socket's buffer is its data behind a mutex. -/
structure HttpSendBuffer where
  mp : AList fun _ : Int32 => OTAData
  server : Server

/-- A call of `addData`, and how many contexts the server has when it is made. -/
structure Call where
  key : Int32
  text : String
  contexts : Nat

/-- The call of `addEvent (WRITE)` for `fd`, whose callback sends the text of `data`. -/
structure Notice where
  fd : Int32
  data : Json

namespace HttpSendBuffer

def fresh (server : Server) : HttpSendBuffer := ⟨∅, server⟩

def getData (buffer : HttpSendBuffer) (key : Int32) : Option Json :=
  (buffer.mp.lookup key).map OTAData.toJson

/-- `m_fdContexts[key]` is read without a look at its size. -/
def announce (buffer : HttpSendBuffer) (call : Call) (data : OTAData) : Run (Option Notice) :=
  match buffer.server with
  | .uninitialised => .error .uninitialised
  | .null => .ok none
  | .running =>
      if 0 ≤ call.key.toInt ∧ call.key.toInt < call.contexts then .ok (some ⟨call.key, data.toJson⟩)
      else .error .outOfBounds

def addData (parse : String → Option Json) (buffer : HttpSendBuffer) (call : Call) :
    Run (HttpSendBuffer × Option Notice) := do
  let data ← ((buffer.mp.lookup call.key).getD .empty).mergeFromJson parse call.text
  let notice ← buffer.announce call data
  .ok ({ buffer with mp := buffer.mp.insert call.key data }, notice)

def addAll (parse : String → Option Json) :
    HttpSendBuffer → List Call → Run (HttpSendBuffer × List Notice)
  | buffer, [] => .ok (buffer, [])
  | buffer, call :: calls => do
      let (next, notice) ← buffer.addData parse call
      let (last, notices) ← addAll parse next calls
      .ok (last, notice.toList ++ notices)

end HttpSendBuffer

/-- The messages for one connection that have been read, the oldest first. -/
def messages (parse : String → Option Json) (calls : List Call) (connection : Int32) :
    List (Key × Json) :=
  (calls.filter fun call => call.key = connection).filterMap fun call =>
    match read parse call.text with
    | .ok found => found
    | .error _ => none

def newest (member : String) (values : List Json) : Json :=
  ((values.filterMap fun json => json.find member).getLast?).getD .null

/-- What is known of a device's package: the newest details of either kind, from the messages
that name it. -/
def known (messages : List (Key × Json)) (key : Key) : Option DeviceInstance :=
  let own := (messages.filter fun message => message.1 = key).map Prod.snd
  if own = [] then none else some ⟨newest "download_details" own, newest "query_details" own⟩

/-- The value has what is known under the path of each key, and nothing under other paths. -/
structure Tells (json : Json) (messages : List (Key × Json)) : Prop where
  found : ∀ key, Json.descend (OTAData.path key) json = (known messages key).map DeviceInstance.toJson
  only : ∀ deviceType deviceNo name value,
    Json.descend ["devices", deviceType, deviceNo, name] json = some value →
    ∃ key, OTAData.path key = ["devices", deviceType, deviceNo, name]

theorem newest_append (member : String) (values : List Json) (json : Json) :
    newest member (values ++ [json]) =
      if json.contains member then json.get member else newest member values := by
  unfold newest Json.contains Json.get
  rw [List.filterMap_append]
  cases found : json.find member with
  | none => simp [found]
  | some value => simp [found]

theorem known_append (messages : List (Key × Json)) (message : Key × Json) (key : Key) :
    known (messages ++ [message]) key =
      if key = message.1 then some (((known messages key).getD {}).merge message.2)
      else known messages key := by
  unfold known
  rw [List.filter_append]
  by_cases same : key = message.1
  · subst same
    rw [if_pos rfl, List.filter_cons_of_pos (by simp), List.filter_nil, List.map_append,
      List.map_singleton]
    dsimp only
    rw [if_neg (by simp), newest_append, newest_append]
    generalize (messages.filter fun other => other.1 = message.1).map Prod.snd = own
    by_cases first : own = []
    · rw [if_pos first, first]
      rfl
    · rw [if_neg first]
      rfl
  · rw [if_neg same, List.filter_cons_of_neg (by simpa using Ne.symm same), List.filter_nil,
      List.append_nil]

section
variable {data : OTAData}

theorem find_put (key other : Key) (instance_ : DeviceInstance) :
    (data.put key instance_).find other = if other = key then some instance_ else data.find other := by
  obtain ⟨deviceType, deviceNo, name⟩ := key
  obtain ⟨deviceType', deviceNo', name'⟩ := other
  unfold OTAData.put OTAData.find
  dsimp only
  by_cases types : deviceType' = deviceType
  · subst types
    rw [AList.lookup_insert, Option.bind_some]
    by_cases numbers : deviceNo' = deviceNo
    · subst numbers
      rw [AList.lookup_insert, Option.bind_some]
      by_cases names : name' = name
      · subst names
        rw [AList.lookup_insert, if_pos rfl]
      · rw [AList.lookup_insert_ne names, if_neg (by simp [names])]
        cases data.devices.lookup deviceType' with
        | none => rfl
        | some found =>
            dsimp only [Option.getD_some, Option.bind_some]
            cases found.lookup deviceNo' with
            | none => rfl
            | some found => rfl
    · rw [AList.lookup_insert_ne numbers, if_neg (by simp [numbers])]
      cases data.devices.lookup deviceType' with
      | none => rfl
      | some found => rfl
  · rw [AList.lookup_insert_ne types, if_neg (by simp [types])]

theorem mem_entries (entry : List String × Json) : entry ∈ data.entries ↔
    ∃ key instance_, data.find key = some instance_ ∧
      entry = (OTAData.path key, DeviceInstance.toJson instance_) := by
  unfold OTAData.entries OTAData.find
  simp only [List.mem_flatMap, List.mem_map]
  constructor
  · rintro ⟨⟨deviceType, numbers⟩, inside, ⟨deviceNo, names⟩, inside', ⟨name, instance_⟩, inside'', rfl⟩
    refine ⟨(deviceType, deviceNo, name), instance_, ?_, rfl⟩
    rw [Option.mem_def.mp (AList.mem_lookup_iff.mpr inside), Option.bind_some,
      Option.mem_def.mp (AList.mem_lookup_iff.mpr inside'), Option.bind_some]
    exact AList.mem_lookup_iff.mpr inside''
  · rintro ⟨⟨deviceType, deviceNo, name⟩, instance_, found, rfl⟩
    obtain ⟨names, found', found''⟩ := Option.bind_eq_some_iff.mp found
    obtain ⟨numbers, found, found'⟩ := Option.bind_eq_some_iff.mp found'
    exact ⟨⟨deviceType, numbers⟩, AList.mem_lookup_iff.mp found, ⟨deviceNo, names⟩,
      AList.mem_lookup_iff.mp found', ⟨name, instance_⟩, AList.mem_lookup_iff.mp found'', rfl⟩

theorem path_injective : Function.Injective OTAData.path := by
  rintro ⟨deviceType, deviceNo, name⟩ ⟨deviceType', deviceNo', name'⟩ same
  simp only [OTAData.path, List.cons.injEq, true_and, and_true] at same
  obtain ⟨types, numbers, names⟩ := same
  rw [Prod.mk.injEq, Prod.mk.injEq]
  exact ⟨Int32.toInt_inj.mp (int_text_injective types),
    Int32.toInt_inj.mp (int_text_injective numbers), names⟩

def base (data : OTAData) : Json := Json.null.set "manager_info" (.string data.managerInfo)

theorem base_devices (rest : List String) : Json.descend ("devices" :: rest) (base data) = none := by
  have missing : (base data).find "devices" = none := by
    unfold base
    rw [Json.find_set_other (by decide)]
    rfl
  rw [Json.descend, missing, Option.bind_none]

theorem base_roomy (rest : List String) : Json.Roomy ("devices" :: rest) (base data) := by
  refine ⟨trivial, ?_⟩
  have missing : (base data).get "devices" = .null := by
    unfold base
    rw [Json.get_set_other (by decide)]
    rfl
  rw [missing]
  exact Json.roomy_null rest

theorem entries_even (entry : List String × Json) (member : entry ∈ data.entries) :
    entry.1.length = 4 := by
  obtain ⟨key, instance_, -, rfl⟩ := (mem_entries entry).mp member
  rfl

theorem entries_roomy (path : List String) (member : path ∈ data.entries.map Prod.fst) :
    Json.Roomy path (base data) := by
  obtain ⟨entry, inside, rfl⟩ := List.mem_map.mp member
  obtain ⟨key, instance_, -, rfl⟩ := (mem_entries entry).mp inside
  exact base_roomy _

theorem entries_agree (one : List String × Json) (member : one ∈ data.entries)
    (other : List String × Json) (member' : other ∈ data.entries) (same : one.1 = other.1) :
    one.2 = other.2 := by
  obtain ⟨key, instance_, found, rfl⟩ := (mem_entries one).mp member
  obtain ⟨key', instance', found', rfl⟩ := (mem_entries other).mp member'
  cases path_injective same
  cases found.symm.trans found'
  rfl

theorem toJson_other (deviceType deviceNo name : String)
    (missing : ["devices", deviceType, deviceNo, name] ∉ data.entries.map Prod.fst) :
    Json.descend ["devices", deviceType, deviceNo, name] data.toJson = none :=
  (Json.descend_assignAll_other entries_even entries_roomy rfl missing).trans (base_devices _)

theorem toJson_path (key : Key) :
    Json.descend (OTAData.path key) data.toJson = (data.find key).map DeviceInstance.toJson := by
  cases found : data.find key with
  | some instance_ =>
      have member : (OTAData.path key, instance_.toJson) ∈ data.entries :=
        (mem_entries _).mpr ⟨key, instance_, found, rfl⟩
      exact Json.descend_assignAll_self entries_even entries_roomy entries_agree member
  | none =>
      apply toJson_other
      intro member
      obtain ⟨entry, inside, same⟩ := List.mem_map.mp member
      obtain ⟨key', instance_, found', rfl⟩ := (mem_entries entry).mp inside
      cases path_injective same
      cases found.symm.trans found'

theorem toJson_tells {messages : List (Key × Json)}
    (holds : ∀ key, data.find key = known messages key) : Tells data.toJson messages := by
  refine ⟨fun key => ?_, fun deviceType deviceNo name value found => ?_⟩
  · rw [toJson_path, holds]
  · by_contra strange
    rw [toJson_other deviceType deviceNo name] at found
    · cases found
    · intro member
      obtain ⟨entry, inside, same⟩ := List.mem_map.mp member
      obtain ⟨key, instance_, -, rfl⟩ := (mem_entries entry).mp inside
      exact strange ⟨key, same⟩

end

/-- The data of a connection holds what its messages say; without a call there is none. -/
def Holds (parse : String → Option Json) (calls : List Call) (buffer : HttpSendBuffer) :
    Prop :=
  ∀ connection, match buffer.mp.lookup connection with
    | none => ∀ call ∈ calls, call.key ≠ connection
    | some data => (∃ call ∈ calls, call.key = connection) ∧
        ∀ key, data.find key = known (messages parse calls connection) key

section
variable {parse : String → Option Json}

theorem merge_known {data next : OTAData} {earlier : List (Key × Json)} {text : String}
    (holds : ∀ key, data.find key = known earlier key)
    (merged : data.mergeFromJson parse text = .ok next) :
    ∃ found, read parse text = .ok found ∧
      ∀ key, next.find key = known (earlier ++ found.toList) key := by
  obtain ⟨found, ran, done⟩ := (bind_eq_ok ..).mp merged
  refine ⟨found, ran, fun key => ?_⟩
  cases found with
  | none =>
      cases done
      rw [Option.toList_none, List.append_nil]
      exact holds key
  | some message =>
      cases done
      rw [find_put, Option.toList_some, known_append, holds, holds]
      by_cases same : key = message.1
      · rw [if_pos same, if_pos same, same]
      · rw [if_neg same, if_neg same]

theorem messages_append (calls : List Call) (call : Call)
    (connection : Int32) : messages parse (calls ++ [call]) connection =
      messages parse calls connection ++
        if call.key = connection then
          (match read parse call.text with
            | .ok found => found
            | .error _ => none).toList
        else [] := by
  unfold messages
  rw [List.filter_append, List.filterMap_append]
  congr 1
  split
  · rename_i same
    rw [List.filter_cons_of_pos (by simpa using same), List.filter_nil]
    rw [List.filterMap_cons]
    cases read parse call.text with
    | error reason => rfl
    | ok found =>
        cases found with
        | none => rfl
        | some message => rfl
  · rename_i apart
    rw [List.filter_cons_of_neg (by simpa using apart)]
    rfl

theorem holds_fresh (server : Server) : Holds parse [] (.fresh server) :=
  fun _ _ member => nomatch member

theorem holds_found {calls : List Call} {buffer : HttpSendBuffer}
    (holds : Holds parse calls buffer) (connection : Int32) (key : Key) :
    ((buffer.mp.lookup connection).getD .empty).find key =
      known (messages parse calls connection) key := by
  have own := holds connection
  cases looked : buffer.mp.lookup connection with
  | none =>
      rw [looked] at own
      have none_ : messages parse calls connection = [] := by
        unfold messages
        rw [List.filter_eq_nil_iff.mpr fun call member => by simpa using own call member]
        rfl
      rw [none_]
      rfl
  | some data =>
      rw [looked] at own
      exact own.2 key

theorem addData_holds {calls : List Call} {buffer next : HttpSendBuffer}
    {call : Call} (holds : Holds parse calls buffer)
    {notice : Option Notice} (added : buffer.addData parse call = .ok (next, notice)) :
    Holds parse (calls ++ [call]) next := by
  obtain ⟨data, merged, rest⟩ := (bind_eq_ok ..).mp added
  obtain ⟨notice', announced, done⟩ := (bind_eq_ok ..).mp rest
  cases done
  obtain ⟨found, ran, knows⟩ := merge_known (holds_found holds call.key) merged
  intro connection
  dsimp only
  by_cases same : connection = call.key
  · subst same
    rw [AList.lookup_insert]
    refine ⟨⟨call, List.mem_append_right _ List.mem_cons_self, rfl⟩, fun key => ?_⟩
    rw [knows, messages_append, if_pos rfl, ran]
  · rw [AList.lookup_insert_ne same]
    have own := holds connection
    have quiet : messages parse (calls ++ [call]) connection = messages parse calls connection := by
      rw [messages_append, if_neg (Ne.symm same), List.append_nil]
    split
    · rename_i missing
      rw [missing] at own
      intro other member
      rcases List.mem_append.mp member with old | new
      · exact own other old
      · rw [List.mem_singleton.mp new]
        exact Ne.symm same
    · rename_i data' looked
      rw [looked] at own
      obtain ⟨⟨other, old, is⟩, tells⟩ := own
      refine ⟨⟨other, List.mem_append_left _ old, is⟩, fun key => ?_⟩
      rw [quiet]
      exact tells key

/-- The event of a call hands over what its messages say so far. -/
structure Told (parse : String → Option Json) (calls : List Call) (notice : Notice) : Prop where
  fd : (calls.getLast?).map Call.key = some notice.fd
  tells : Tells notice.data (messages parse calls notice.fd)

/-- What the calls behind some others have announced: without a server nothing, else each its own. -/
def Announced (parse : String → Option Json) (server : Server) (earlier : List Call) :
    List Call → List Notice → Prop
  | [], notices => notices = []
  | call :: calls, notices =>
      match server with
      | .uninitialised => False
      | .null => notices = []
      | .running => ∃ notice rest, notices = notice :: rest ∧
          Told parse (earlier ++ [call]) notice ∧ Announced parse server (earlier ++ [call]) calls rest

theorem addData_told {calls : List Call} {buffer next : HttpSendBuffer} {call : Call}
    (holds : Holds parse calls buffer) {notice : Option Notice}
    (added : buffer.addData parse call = .ok (next, notice)) :
    next.server = buffer.server ∧ match buffer.server with
      | .uninitialised => False
      | .null => notice = none
      | .running => ∃ told, notice = some told ∧ Told parse (calls ++ [call]) told := by
  have kept := addData_holds holds added
  obtain ⟨data, merged, rest⟩ := (bind_eq_ok ..).mp added
  obtain ⟨notice', announced, done⟩ := (bind_eq_ok ..).mp rest
  cases done
  refine ⟨rfl, ?_⟩
  rw [HttpSendBuffer.announce] at announced
  cases server : buffer.server with
  | uninitialised =>
      rw [server] at announced
      cases announced
  | null =>
      rw [server] at announced
      cases announced
      rfl
  | running =>
      rw [server] at announced
      dsimp only at announced
      split at announced
      · cases announced
        refine ⟨_, rfl, by simp, ?_⟩
        have own := kept call.key
        dsimp only at own
        rw [AList.lookup_insert] at own
        exact toJson_tells own.2
      · cases announced

theorem addAll_holds (calls earlier : List Call) (buffer last : HttpSendBuffer) (notices : List Notice)
    (holds : Holds parse earlier buffer) (ran : buffer.addAll parse calls = .ok (last, notices)) :
    Holds parse (earlier ++ calls) last ∧ Announced parse buffer.server earlier calls notices := by
  induction calls generalizing earlier buffer notices with
  | nil =>
      cases ran
      rw [List.append_nil]
      exact ⟨holds, rfl⟩
  | cons call calls ih =>
      obtain ⟨⟨next, notice⟩, added, rest⟩ := (bind_eq_ok ..).mp ran
      obtain ⟨⟨final, later⟩, ran', done⟩ := (bind_eq_ok ..).mp rest
      cases done
      obtain ⟨server, told⟩ := addData_told holds added
      obtain ⟨kept, announced⟩ := ih _ _ _ (addData_holds holds added) ran'
      rw [List.append_assoc] at kept
      refine ⟨kept, ?_⟩
      rw [server] at announced
      cases same : buffer.server with
      | uninitialised =>
          rw [same] at told
          exact told.elim
      | null =>
          rw [same] at told announced
          dsimp only at told
          rw [told, Option.toList_none, List.nil_append]
          cases calls with
          | nil => exact announced
          | cons call calls => exact announced
      | running =>
          rw [same] at told announced
          obtain ⟨own, rfl, tells⟩ := told
          exact ⟨own, later, rfl, tells, announced⟩

end

/-- Two messages about one package, the second without download details. -/
def sampleParse (text : String) : Option Json :=
  if text = "first" then
    some (.object [("device_type", .integer 1), ("device_no", .integer 101),
      ("name", .string "main_board"), ("download_details", .string "1.0.0")])
  else if text = "second" then
    some (.object [("device_type", .integer 1), ("device_no", .integer 101),
      ("name", .string "main_board"), ("query_details", .string "idle")])
  else none

def sampleCalls : List Call := [⟨1, "first", 64⟩, ⟨1, "broken", 64⟩, ⟨1, "second", 64⟩]

end OtaMqtt.Http.SendBuffer
