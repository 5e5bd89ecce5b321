import OtaMqtt.Lib.Trace

/-! The listener that the operations of a client share (sherry/mqtt_client.cc, mqtt_listener.h).

A call of `subscribe` or `publish` is taken apart where the library's thread can come in
between: the library returns a token, the topic and the callback are stored in the listener,
and the listener is attached to the token. What `set_action_callback` does on a token that has
completed already is up to the library: it reports the result then, or never. -/

namespace OtaMqtt.Mqtt.Listener

open OtaMqtt.Lib.Trace

variable {Cb : Type}

structure MqttActionListener (Cb : Type) where
  topic : String
  callback : Option Cb
  deriving DecidableEq, Repr

/-- A call of a callback: the topic and the result code. -/
structure Invocation (Cb : Type) where
  callback : Cb
  topic : String
  code : Int
  deriving DecidableEq, Repr

def resultCode (success : Bool) : Int := if success then 0 else -1

/-- `on_success` and `on_failure`. -/
def MqttActionListener.onResult (listener : MqttActionListener Cb) (success : Bool) :
    List (Invocation Cb) :=
  match listener.callback with
  | none => []
  | some callback => [⟨callback, listener.topic, resultCode success⟩]

/-- The token of an operation, with the arguments of the call. -/
structure Token (Cb : Type) where
  topic : String
  callback : Option Cb
  stored : Bool
  attached : Bool
  result : Option Bool
  deriving DecidableEq, Repr

/-- What an operation with that topic and callback reported, and to whom. -/
structure Report (Cb : Type) where
  topic : String
  callback : Option Cb
  success : Bool
  calls : List (Invocation Cb)
  deriving DecidableEq, Repr

/-- `entered` lists the operations in the order in which they went through the listener. -/
structure Client (Cb : Type) where
  listener : MqttActionListener Cb
  tokens : List (Token Cb)
  entered : List Nat
  reports : List (Report Cb)

inductive Event (Cb : Type) where
  | issue (topic : String) (callback : Option Cb)
  | store (operation : Nat)
  | attach (operation : Nat)
  | complete (operation : Nat) (success : Bool)
  | publishThrows (topic : String) (callback : Option Cb)

namespace Client

def fresh : Client Cb := ⟨⟨"", none⟩, [], [], []⟩

def issue (client : Client Cb) (topic : String) (callback : Option Cb) : Client Cb :=
  { client with tokens := client.tokens ++ [⟨topic, callback, false, false, none⟩] }

/-- `m_listener.set_topic_cb(topic, callback)`, for a call with a callback. -/
def store (client : Client Cb) (operation : Nat) (token : Token Cb) : Client Cb :=
  { client with
    listener := ⟨token.topic, token.callback⟩,
    tokens := client.tokens.set operation { token with stored := true },
    entered := client.entered ++ [operation] }

def report (client : Client Cb) (token : Token Cb) (success : Bool) (calls : List (Invocation Cb)) :
    Client Cb :=
  { client with reports := client.reports ++ [⟨token.topic, token.callback, success, calls⟩] }

/-- `token->set_action_callback(m_listener)`. -/
def attach (late : Bool) (client : Client Cb) (operation : Nat) (token : Token Cb) : Client Cb :=
  let attached :=
    { client with tokens := client.tokens.set operation { token with attached := true } }
  match late, token.result with
  | true, some success => attached.report token success (client.listener.onResult success)
  | _, _ => attached

def complete (late : Bool) (client : Client Cb) (operation : Nat) (token : Token Cb)
    (success : Bool) : Client Cb :=
  let completed :=
    { client with tokens := client.tokens.set operation { token with result := some success } }
  if token.attached then completed.report token success (client.listener.onResult success)
  else if late && token.callback.isSome then completed
  else completed.report token success []

/-- `publish` catches the exception of the library and calls the callback itself. -/
def publishThrows (client : Client Cb) (topic : String) (callback : Option Cb) : Client Cb :=
  client.report ⟨topic, callback, false, false, none⟩ false
    ((MqttActionListener.mk topic callback).onResult false)

def step (late : Bool) (client : Client Cb) : Event Cb → Option (Client Cb)
  | .issue topic callback => some (client.issue topic callback)
  | .store operation =>
      client.tokens[operation]?.bind fun token =>
        if token.callback.isSome && !token.stored then some (client.store operation token) else none
  | .attach operation =>
      client.tokens[operation]?.bind fun token =>
        if token.stored && !token.attached then some (client.attach late operation token) else none
  | .complete operation success =>
      client.tokens[operation]?.bind fun token =>
        if token.result.isNone then some (client.complete late operation token success) else none
  | .publishThrows topic callback => some (client.publishThrows topic callback)

end Client

/-- The report went to the callback of the operation and to no other, with its topic and
result. -/
def Report.Own (report : Report Cb) : Prop :=
  report.calls = (MqttActionListener.mk report.topic report.callback).onResult report.success

def Proper (client : Client Cb) : Prop := ∀ report ∈ client.reports, report.Own

/-- The operation that went through the listener last has the topic and callback of `token`. -/
def Latest (client : Client Cb) (token : Token Cb) : Prop :=
  ∃ operation other, client.entered.getLast? = some operation ∧
    client.tokens[operation]? = some other ∧
    other.topic = token.topic ∧ other.callback = token.callback

/-- A token with a callback is reported only while nothing else has gone through the listener
behind its operation. -/
def Undisturbed (late : Bool) (client : Client Cb) : Event Cb → Prop
  | .attach operation => ∀ token, client.tokens[operation]? = some token →
      token.stored → token.attached = false → late → token.result.isSome → Latest client token
  | .complete operation _ => ∀ token, client.tokens[operation]? = some token →
      token.result = none → token.callback.isSome →
      if token.attached then Latest client token else late = true
  | _ => True

structure Sound (client : Client Cb) : Prop where
  proper : Proper client
  holds : ∀ operation, client.entered.getLast? = some operation → ∃ token,
    client.tokens[operation]? = some token ∧ client.listener = ⟨token.topic, token.callback⟩ ∧
    token.callback.isSome
  entered : ∀ (operation : Nat) (token : Token Cb), client.tokens[operation]? = some token → token.stored →
    token.callback.isSome ∧ client.entered ≠ []
  attached : ∀ (operation : Nat) (token : Token Cb), client.tokens[operation]? = some token → token.attached →
    token.stored

theorem sound_fresh : Sound (.fresh : Client Cb) where
  proper := fun _ member => nomatch member
  holds := fun _ found => nomatch found
  entered := fun _ _ found => nomatch found
  attached := fun _ _ found => nomatch found

section
variable {client : Client Cb} {operation : Nat} {token : Token Cb}

theorem Sound.stored (sound : Sound client) (found : client.tokens[operation]? = some token)
    (stored : token.stored) : ∃ last other, client.entered.getLast? = some last ∧
      client.tokens[last]? = some other ∧ client.listener = ⟨other.topic, other.callback⟩ ∧
      other.callback.isSome := by
  obtain ⟨-, some_entered⟩ := sound.entered operation token found stored
  obtain ⟨last, is_last⟩ := Option.isSome_iff_exists.mp (List.getLast?_isSome.mpr some_entered)
  obtain ⟨other, there, holds, given⟩ := sound.holds last is_last
  exact ⟨last, other, is_last, there, holds, given⟩

theorem onResult_own_iff (sound : Sound client) (found : client.tokens[operation]? = some token)
    (stored : token.stored) (success : Bool) :
    client.listener.onResult success =
        (MqttActionListener.mk token.topic token.callback).onResult success ↔
      Latest client token := by
  obtain ⟨last, other, is_last, there, holds, given⟩ := sound.stored found stored
  obtain ⟨given', -⟩ := sound.entered operation token found stored
  obtain ⟨callback, is_callback⟩ := Option.isSome_iff_exists.mp given
  obtain ⟨own, is_own⟩ := Option.isSome_iff_exists.mp given'
  have latest : Latest client token ↔ other.topic = token.topic ∧ other.callback = token.callback := by
    constructor
    · rintro ⟨position, entry, is_position, is_entry, same⟩
      rw [is_last] at is_position
      cases is_position
      rw [there] at is_entry
      cases is_entry
      exact same
    · exact fun same => ⟨last, other, is_last, there, same⟩
  rw [latest, holds, is_callback, is_own]
  simp [MqttActionListener.onResult, and_comm]

theorem Sound.update (sound : Sound client) (found : client.tokens[operation]? = some token)
    {changed : Token Cb} (topic : changed.topic = token.topic)
    (callback : changed.callback = token.callback) (stored : changed.stored = token.stored)
    (attached : changed.attached → token.stored) :
    Sound { client with tokens := client.tokens.set operation changed } := by
  have bound : operation < client.tokens.length := (List.getElem?_eq_some_iff.mp found).1
  have at_operation : (client.tokens.set operation changed)[operation]? = some changed := by
    simp [bound]
  have elsewhere : ∀ other, other ≠ operation →
      (client.tokens.set operation changed)[other]? = client.tokens[other]? := by
    intro other away
    exact List.getElem?_set_ne away.symm
  constructor
  · exact sound.proper
  · intro last is_last
    obtain ⟨other, there, holds, given⟩ := sound.holds last is_last
    by_cases same : last = operation
    · subst same
      rw [found] at there
      cases there
      exact ⟨changed, at_operation, by rw [topic, callback]; exact holds, by rw [callback]; exact given⟩
    · exact ⟨other, by rw [elsewhere last same]; exact there, holds, given⟩
  · intro other entry is_entry is_stored
    by_cases same : other = operation
    · subst same
      rw [at_operation] at is_entry
      cases is_entry
      rw [callback]
      rw [stored] at is_stored
      exact sound.entered other token found is_stored
    · rw [elsewhere other same] at is_entry
      exact sound.entered other entry is_entry is_stored
  · intro other entry is_entry is_attached
    by_cases same : other = operation
    · subst same
      rw [at_operation] at is_entry
      cases is_entry
      rw [stored]
      exact attached is_attached
    · rw [elsewhere other same] at is_entry
      exact sound.attached other entry is_entry is_attached

theorem Sound.report (sound : Sound client) {success : Bool} {calls : List (Invocation Cb)}
    (own : calls = (MqttActionListener.mk token.topic token.callback).onResult success) :
    Sound (client.report token success calls) := by
  refine ⟨?_, sound.holds, sound.entered, sound.attached⟩
  intro report member
  rcases List.mem_append.mp member with earlier | last
  · exact sound.proper report earlier
  · rw [List.mem_singleton.mp last]
    exact own

theorem Sound.issue (sound : Sound client) (topic : String) (callback : Option Cb) :
    Sound (client.issue topic callback) := by
  have older : ∀ other, other < client.tokens.length →
      (client.issue topic callback).tokens[other]? = client.tokens[other]? :=
    fun other bound => List.getElem?_append_left bound
  have split : ∀ (other : Nat) (entry : Token Cb), (client.issue topic callback).tokens[other]? = some entry →
      client.tokens[other]? = some entry ∨ entry = ⟨topic, callback, false, false, none⟩ := by
    intro other entry is_entry
    by_cases bound : other < client.tokens.length
    · exact .inl (by rw [← older other bound]; exact is_entry)
    · rw [Client.issue, List.getElem?_append_right (Nat.le_of_not_lt bound)] at is_entry
      exact .inr (List.mem_singleton.mp (List.mem_of_getElem? is_entry))
  constructor
  · exact sound.proper
  · intro last is_last
    obtain ⟨other, there, rest⟩ := sound.holds last is_last
    refine ⟨other, ?_, rest⟩
    rw [older last (List.getElem?_eq_some_iff.mp there).1]
    exact there
  · intro other entry is_entry is_stored
    rcases split other entry is_entry with earlier | rfl
    · exact sound.entered other entry earlier is_stored
    · cases is_stored
  · intro other entry is_entry is_attached
    rcases split other entry is_entry with earlier | rfl
    · exact sound.attached other entry earlier is_attached
    · cases is_attached

theorem Sound.store (sound : Sound client) (found : client.tokens[operation]? = some token)
    (given : token.callback.isSome) : Sound (client.store operation token) := by
  have bound : operation < client.tokens.length := (List.getElem?_eq_some_iff.mp found).1
  have at_operation : (client.store operation token).tokens[operation]? =
      some { token with stored := true } := by
    simp [Client.store, bound]
  have elsewhere : ∀ other, other ≠ operation →
      (client.store operation token).tokens[other]? = client.tokens[other]? :=
    fun other away => List.getElem?_set_ne away.symm
  constructor
  · exact sound.proper
  · intro last is_last
    simp only [Client.store, List.getLast?_concat, Option.some.injEq] at is_last
    subst is_last
    exact ⟨_, at_operation, rfl, given⟩
  · intro other entry is_entry is_stored
    refine ⟨?_, by simp [Client.store]⟩
    by_cases same : other = operation
    · subst same
      rw [at_operation] at is_entry
      cases is_entry
      exact given
    · rw [elsewhere other same] at is_entry
      exact (sound.entered other entry is_entry is_stored).1
  · intro other entry is_entry is_attached
    by_cases same : other = operation
    · subst same
      rw [at_operation] at is_entry
      cases is_entry
      rfl
    · rw [elsewhere other same] at is_entry
      exact sound.attached other entry is_entry is_attached

theorem attach_late {success : Bool} (result : token.result = some success) :
    client.attach true operation token =
      Client.report { client with tokens := client.tokens.set operation { token with attached := true } }
        token success (client.listener.onResult success) := by
  simp only [Client.attach, result]

theorem attach_open (open_ : token.result = none) :
    client.attach true operation token =
      { client with tokens := client.tokens.set operation { token with attached := true } } := by
  simp only [Client.attach, open_]

theorem Sound.attach (late : Bool) (sound : Sound client)
    (found : client.tokens[operation]? = some token) (stored : token.stored)
    (latest : late → token.result.isSome → Latest client token) :
    Sound (client.attach late operation token) := by
  have updated : Sound { client with
      tokens := client.tokens.set operation { token with attached := true } } :=
    sound.update found rfl rfl rfl fun _ => stored
  cases late with
  | false => exact updated
  | true =>
      rcases done : token.result with _ | success
      · rw [attach_open done]
        exact updated
      · rw [attach_late done]
        apply updated.report
        exact (onResult_own_iff sound found stored success).mpr (latest rfl (by rw [done]; rfl))

theorem Sound.complete (late : Bool) (sound : Sound client)
    (found : client.tokens[operation]? = some token) (success : Bool)
    (latest : token.callback.isSome → if token.attached then Latest client token else late = true) :
    Sound (client.complete late operation token success) := by
  have updated : Sound { client with
      tokens := client.tokens.set operation { token with result := some success } } :=
    sound.update found rfl rfl rfl fun attached => sound.attached operation token found attached
  rw [Client.complete]
  by_cases attached : token.attached
  · have stored := sound.attached operation token found attached
    have undisturbed := latest (sound.entered operation token found stored).1
    rw [if_pos attached] at undisturbed ⊢
    apply updated.report
    exact (onResult_own_iff sound found stored success).mpr undisturbed
  · rw [if_neg attached]
    by_cases given : token.callback.isSome
    · have reports := latest given
      rw [if_neg attached] at reports
      rw [if_pos (by rw [reports, given]; rfl)]
      exact updated
    · rw [if_neg (by simp [given])]
      apply updated.report
      rw [Option.not_isSome_iff_eq_none.mp given]
      rfl

end

theorem step_sound (late : Bool) (client : Client Cb) (event : Event Cb) (next : Client Cb)
    (sound : Sound client) (undisturbed : Undisturbed late client event)
    (taken : client.step late event = some next) : Sound next := by
  cases event with
  | issue topic callback =>
      cases taken
      exact sound.issue topic callback
  | store operation =>
      obtain ⟨token, found, enabled⟩ := Option.bind_eq_some_iff.mp taken
      obtain ⟨able, ⟨⟩⟩ := Option.ite_none_right_eq_some.mp enabled
      exact sound.store found (Bool.and_eq_true_iff.mp able).1
  | attach operation =>
      obtain ⟨token, found, enabled⟩ := Option.bind_eq_some_iff.mp taken
      obtain ⟨able, ⟨⟩⟩ := Option.ite_none_right_eq_some.mp enabled
      obtain ⟨stored, unattached⟩ := Bool.and_eq_true_iff.mp able
      exact sound.attach late found stored
        (undisturbed token found stored (Bool.not_eq_true' _ ▸ unattached))
  | complete operation success =>
      obtain ⟨token, found, enabled⟩ := Option.bind_eq_some_iff.mp taken
      obtain ⟨open_, ⟨⟩⟩ := Option.ite_none_right_eq_some.mp enabled
      exact sound.complete late found success
        (undisturbed token found (Option.isNone_iff_eq_none.mp open_))
  | publishThrows topic callback =>
      cases taken
      exact sound.report rfl

theorem report_not_proper (client : Client Cb) {token : Token Cb} {success : Bool}
    {calls : List (Invocation Cb)}
    (strange : calls ≠ (MqttActionListener.mk token.topic token.callback).onResult success) :
    ¬ Proper (client.report token success calls) := by
  intro proper
  exact strange (proper ⟨token.topic, token.callback, success, calls⟩
    (List.mem_append_right _ (List.mem_singleton.mpr rfl)))

theorem disturbed_not_proper (late : Bool) (client : Client Cb) (event : Event Cb)
    (sound : Sound client) (disturbed : ¬ Undisturbed late client event) :
    ∃ next, client.step late event = some next ∧ ¬ Proper next := by
  cases event with
  | issue topic callback => exact absurd trivial disturbed
  | store operation => exact absurd trivial disturbed
  | publishThrows topic callback => exact absurd trivial disturbed
  | attach operation =>
      simp only [Undisturbed, not_forall] at disturbed
      obtain ⟨token, found, stored, unattached, rfl, completed, overtaken⟩ := disturbed
      obtain ⟨success, result⟩ := Option.isSome_iff_exists.mp completed
      refine ⟨client.attach true operation token, ?_, ?_⟩
      · simp [Client.step, found, stored, unattached]
      · rw [attach_late result]
        apply report_not_proper
        exact fun own => overtaken ((onResult_own_iff sound found stored success).mp own)
  | complete operation success =>
      simp only [Undisturbed, not_forall] at disturbed
      obtain ⟨token, found, open_, given, overtaken⟩ := disturbed
      refine ⟨client.complete late operation token success, ?_, ?_⟩
      · simp [Client.step, found, open_]
      · rw [Client.complete]
        by_cases attached : token.attached
        · have stored := sound.attached operation token found attached
          rw [if_pos attached] at overtaken ⊢
          apply report_not_proper
          exact fun own => overtaken ((onResult_own_iff sound found stored success).mp own)
        · rw [if_neg attached] at overtaken ⊢
          rw [if_neg (by simp [overtaken])]
          apply report_not_proper
          obtain ⟨callback, is_callback⟩ := Option.isSome_iff_exists.mp given
          rw [is_callback]
          exact fun own => nomatch own

/-- Every result goes to the callback of its operation exactly when each is reported while
that operation is the last that went through the listener. -/
theorem proper_iff_undisturbed (late : Bool) (events : List (Event Cb)) :
    Always (Client.step late) Proper (.fresh : Client Cb) events ↔
      Guarded (Client.step late) (Undisturbed late) .fresh events :=
  always_iff_guarded (step_sound late) (fun _ sound => sound.proper) (disturbed_not_proper late) events _
    sound_fresh

/-- Two operations are in flight, and the first to complete reports to the callback of the
second. -/
theorem overlapping_not_proper :
    ¬ Always (Client.step true) Proper (.fresh : Client Bool)
      [.issue "ota/responder" (some false), .store 0, .attach 0,
        .issue "ota/download" (some true), .store 1, .attach 1, .complete 0 true] := by
  intro always
  have proper := always _ [] _ (List.append_nil _) rfl
  have own := proper ⟨"ota/responder", some false, true, [⟨true, "ota/download", 0⟩]⟩ (by decide)
  simp [Report.Own, MqttActionListener.onResult] at own

end OtaMqtt.Mqtt.Listener
