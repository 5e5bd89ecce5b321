import OtaMqtt.Lib.Delimited
import OtaMqtt.Lib.Trace
import OtaMqtt.Ota.Query

/-! Queries of several connections that wait at the same time. A query is answered when its callback
hands the answer to `response_to_server`; what becomes of it there is in `Http.Delivery`. -/

namespace OtaMqtt.Ota.Outstanding

open OtaMqtt.Lib OtaMqtt.Lib.Delimited OtaMqtt.Lib.Trace OtaMqtt.Ota

/-- `outstanding` holds the queries whose connection still waits. -/
structure World where
  callbackMgr : OTAClientCallbackManager OTAQuery
  outstanding : List OTAQuery

inductive Label where
  | query (query : OTAQuery)
  | message (topic payload : String)

namespace World

def fresh : World := ⟨.fresh, []⟩

/-- The query whose callback calls `response_to_server` for a message. -/
def answered (parse : String → Option Json) (world : World) (topic payload : String) :
    Option OTAQuery :=
  match world.callbackMgr.onMessage topic with
  | none => none
  | some query => (query.callback parse payload).map fun _ => query

def step (parse : String → Option Json) (world : World) : Label → Option World
  | .query query =>
      some ⟨world.callbackMgr.registCallback query.subTopic query, query :: world.outstanding⟩
  | .message topic payload =>
      some { world with
        outstanding := match world.answered parse topic payload with
          | none => world.outstanding
          | some query => world.outstanding.filter (· ≠ query) }

end World

/-- A device's answer to a query: it names the device and the action. -/
structure Matches (query : OTAQuery) (response : Json) : Prop where
  action : ∃ details, response.find "query_details" = some details ∧
    ∃ action, details.find "action" = some action ∧ action.isText query.action = true
  deviceType : ∃ deviceType, response.find "device_type" = some deviceType ∧
    deviceType.isNumber query.deviceType.toNat = true
  deviceNo : ∃ deviceNo, response.find "device_no" = some deviceNo ∧
    deviceNo.isNumber query.deviceNo.toNat = true

/-- Whenever a matching answer arrives, a response for the connection that waits for it is handed
over. -/
def Served (parse : String → Option Json) (world : World) : Prop :=
  ∀ query ∈ world.outstanding, ∀ payload response, parse payload = some response →
    Matches query response →
      (world.answered parse query.subTopic payload).map OTAQuery.connectId = some query.connectId

/-- A query is issued while no other query of its device waits. -/
def Lone (world : World) : Label → Prop
  | .query query => ∀ other ∈ world.outstanding, other.deviceType = query.deviceType →
      other.deviceNo = query.deviceNo → other = query
  | .message _ _ => True

instance : ∀ (world : World) (label : Label), Decidable (Lone world label)
  | _, .query _ => inferInstanceAs (Decidable (∀ _ ∈ _, _ → _ → _))
  | _, .message _ _ => .isTrue trivial

def Registered (world : World) : Prop :=
  ∀ query ∈ world.outstanding, world.callbackMgr.onMessage query.subTopic = some query

def rest (deviceNo : UInt32) : List Char :=
  if deviceNo ≠ 0 then Nat.toDigits 10 deviceNo.toNat ++ '/' :: "responder".toList
  else "responder".toList

theorem subTopic_chars (query : OTAQuery) :
    query.subTopic.toList =
      "/ota/".toList ++ (Nat.toDigits 10 query.deviceType.toNat ++ '/' :: rest query.deviceNo) := by
  unfold OTAQuery.subTopic formatOtaPrex rest
  split
  · simp [String.toList_append, Nat.toList_repr]
  · simp [String.toList_append, Nat.toList_repr]

theorem rest_injective (first second : UInt32) (same : rest first = rest second) : first = second := by
  have digits : ∀ number : UInt32, '/' ∉ Nat.toDigits 10 number.toNat :=
    fun number => not_digit number.toNat (by decide)
  have delimited : ∀ number : UInt32, '/' ∈ Nat.toDigits 10 number.toNat ++ '/' :: "responder".toList :=
    fun number => List.mem_append_right _ List.mem_cons_self
  unfold rest at same
  split at same
  · split at same
    · obtain ⟨numbers, -⟩ := split_first (digits first) (digits second) same
      exact UInt32.toNat_inj.mp (digits_injective numbers)
    · have delimiter := delimited first
      rw [same] at delimiter
      exact absurd delimiter (by decide)
  · rename_i zero
    split at same
    · have delimiter := delimited second
      rw [← same] at delimiter
      exact absurd delimiter (by decide)
    · rename_i zero'
      rw [ne_eq, not_not] at zero zero'
      rw [zero, zero']

theorem subTopic_device (first second : OTAQuery) (same : first.subTopic = second.subTopic) :
    first.deviceType = second.deviceType ∧ first.deviceNo = second.deviceNo := by
  have chars := congrArg String.toList same
  rw [subTopic_chars, subTopic_chars] at chars
  obtain ⟨types, rests⟩ := split_first (not_digit _ (by decide)) (not_digit _ (by decide))
    (List.append_cancel_left chars)
  exact ⟨UInt16.toNat_inj.mp (digits_injective types), rest_injective _ _ rests⟩

theorem satisfied_of_matches (query : OTAQuery) (response : Json) (matching : Matches query response) :
    query.satisfied response = true := by
  obtain ⟨⟨details, found, action, named, equal⟩, ⟨deviceType, found', equal'⟩,
    ⟨deviceNo, found'', equal''⟩⟩ := matching
  simp [OTAQuery.satisfied, Json.contains, Json.get, found, found', found'', named, equal, equal',
    equal'']

section
variable {parse : String → Option Json} {world : World}

theorem answered_registered (query : OTAQuery) (payload : String) (response : Json)
    (parsed : parse payload = some response) (matching : Matches query response)
    (registered : world.callbackMgr.onMessage query.subTopic = some query) :
    world.answered parse query.subTopic payload = some query := by
  have called : query.callback parse payload = some response := by
    rw [OTAQuery.callback, parsed]
    exact if_pos (satisfied_of_matches query response matching)
  rw [World.answered, registered]
  dsimp only
  rw [called, Option.map_some]

theorem registered_served (registered : Registered world) : Served parse world := by
  intro query waiting payload response parsed matching
  rw [answered_registered query payload response parsed matching (registered query waiting),
    Option.map_some]

theorem query_registered (query : OTAQuery) (registered : Registered world)
    (lone : Lone world (.query query)) :
    Registered ⟨world.callbackMgr.registCallback query.subTopic query, query :: world.outstanding⟩ := by
  intro other waiting
  by_cases same : other.subTopic = query.subTopic
  · have equal : other = query := by
      rcases List.mem_cons.mp waiting with new | old
      · exact new
      · obtain ⟨deviceType, deviceNo⟩ := subTopic_device other query same
        exact lone other old deviceType deviceNo
    rw [equal]
    exact AList.lookup_insert _
  · have old : other ∈ world.outstanding := by
      rcases List.mem_cons.mp waiting with new | old
      · exact absurd (congrArg OTAQuery.subTopic new) same
      · exact old
    exact (AList.lookup_insert_ne same).trans (registered other old)

theorem step_registered (label : Label) (next : World) (registered : Registered world)
    (lone : Lone world label) (taken : world.step parse label = some next) : Registered next := by
  cases label with
  | query query =>
      cases taken
      exact query_registered query registered lone
  | message topic payload =>
      cases taken
      intro other waiting
      dsimp only at waiting ⊢
      split at waiting
      · exact registered other waiting
      · exact registered other (List.mem_filter.mp waiting).1

end

/-- In every run in which a query is issued only while no other query of its device waits,
every answer that matches a waiting query reaches its connection. -/
theorem lone_queries_served (parse : String → Option Json) (labels : List Label)
    (lone : Guarded (World.step parse) Lone .fresh labels) :
    Always (World.step parse) (Served parse) .fresh labels := by
  have start : Registered .fresh := by
    intro query waiting
    cases waiting
  exact guarded_always (fun _ => step_registered) (fun _ registered => registered_served registered)
    labels .fresh start lone

def versionAnswer : String :=
  "\x7b\"device_no\":2,\"device_type\":1,\"query_details\":\x7b\"action\":\"version\"\x7d\x7d"

def versionResponse : Json := .object [("device_no", .integer 2), ("device_type", .integer 1),
  ("query_details", .object [("action", .string "version")])]

def parseVersion (payload : String) : Option Json :=
  if payload = versionAnswer then some versionResponse else none

theorem version_matches (connectId : Nat) : Matches ⟨1, 2, "version", connectId⟩ versionResponse where
  action := ⟨_, rfl, _, rfl, rfl⟩
  deviceType := ⟨_, rfl, rfl⟩
  deviceNo := ⟨_, rfl, rfl⟩

theorem later_query_overwrites :
    ¬ ∀ (parse : String → Option Json) (labels : List Label),
      Always (World.step parse) (Served parse) .fresh labels := by
  intro always_served
  let labels : List Label := [.query ⟨1, 2, "version", 10⟩, .query ⟨1, 2, "version", 11⟩]
  have served := always_served parseVersion labels labels [] _ (List.append_nil _) rfl
  have answered := served ⟨1, 2, "version", 10⟩ (by decide) versionAnswer versionResponse
    (if_pos rfl) (version_matches 10)
  revert answered
  decide +kernel

theorem two_devices_served :
    Always (World.step parseVersion) (Served parseVersion) .fresh
      [.query ⟨1, 2, "version", 10⟩, .query ⟨1, 3, "version", 11⟩,
        .message "/ota/1/2/responder" versionAnswer, .query ⟨1, 2, "version", 11⟩] :=
  lone_queries_served parseVersion _ (by decide +kernel)

end OtaMqtt.Ota.Outstanding
