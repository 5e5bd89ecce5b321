import OtaMqtt.Lib.Trace
import OtaMqtt.Mqtt.Client

/-! The assertions of `MqttClient` under outages of the broker. -/

namespace OtaMqtt.Mqtt.Outage

open OtaMqtt.Lib.Execution OtaMqtt.Lib.Trace
open OtaMqtt.Mqtt

def Survives (state : Run MqttClient) : Prop := state ≠ .error .assertion

/-- The member `m_isconnected` is not left over from a connection that was closed. -/
def Fresh (client : MqttClient) : Prop := client.isconnected = true → client.connected = true

/-- A caller finds a fresh flag, `publish_once` also a broker that accepts it, and the listener
subscribes again only over a connection. -/
def Lucky : Run MqttClient → Event → Prop
  | .ok client, .publishOnce succeeds =>
      Fresh client ∧ (client.isconnected = false → succeeds = true)
  | .ok client, .publishQuery _ => Fresh client
  | .ok client, .subscribeResponder _ _ => Fresh client
  | .ok client, .subscribeOnSuccess _ => Fresh client
  | .ok client, .subscribeDownload _ _ => Fresh client
  | .ok client, .tokenDone success _ =>
      success = false → client.tokens ≠ 0 → client.listener = some .resubscribe →
        client.connected = true
  | _, _ => True

instance : ∀ (state : Run MqttClient) (event : Event), Decidable (Lucky state event)
  | .ok _, .publishOnce _ => inferInstanceAs (Decidable ((_ → _) ∧ (_ → _)))
  | .ok _, .publishQuery _ => inferInstanceAs (Decidable (_ → _))
  | .ok _, .subscribeResponder _ _ => inferInstanceAs (Decidable (_ → _))
  | .ok _, .subscribeOnSuccess _ => inferInstanceAs (Decidable (_ → _))
  | .ok _, .subscribeDownload _ _ => inferInstanceAs (Decidable (_ → _))
  | .ok _, .tokenDone _ _ => inferInstanceAs (Decidable (_ → _ → _ → _))
  | .ok _, .connectionLost => .isTrue trivial
  | .ok _, .reconnected => .isTrue trivial
  | .ok _, .disconnect _ => .isTrue trivial
  | .error _, _ => .isTrue trivial

def Known (client : MqttClient) : Prop := client.connected = true → client.isconnected = true

def Alive : Run MqttClient → Prop
  | .ok client => Known client
  | .error _ => False

section
variable {client : MqttClient}

theorem ensure_fresh (succeeds : Bool) (known : Known client) (fresh : Fresh client) :
    ∃ next, client.ensure succeeds = .ok next ∧ Known next ∧ Fresh next ∧
      (client.isconnected = false → succeeds = true → next.isconnected = true) ∧
      (client.isconnected = true → next = client) := by
  unfold MqttClient.ensure
  cases flag : client.isconnected with
  | true =>
      refine ⟨client, rfl, known, fresh, fun off => ?_, fun _ => rfl⟩
      cases off
  | false =>
      have down : client.connected = false := by
        cases link : client.connected with
        | false => rfl
        | true => exact absurd (known link) (by rw [flag]; decide)
      rw [if_neg Bool.false_ne_true, MqttClient.connect, down, if_neg Bool.false_ne_true]
      cases succeeds with
      | true => exact ⟨_, rfl, fun _ => rfl, fun _ => rfl, fun _ _ => rfl, fun on => by cases on⟩
      | false =>
          refine ⟨client, rfl, known, fresh, fun _ on => ?_, fun on => ?_⟩
          · cases on
          · cases on

theorem publish_connected (link : client.connected = true) (flag : client.isconnected = true) :
    client.publish = .ok client := by
  rw [MqttClient.publish, link, flag]
  rfl

theorem publish_fails (down : client.connected = false) : client.publish = .error .assertion := by
  rw [MqttClient.publish, down]
  rfl

theorem subscribe_connected (callback : Option Callback) (accepted : Bool)
    (link : client.connected = true) (flag : client.isconnected = true) :
    ∃ next, client.subscribe callback accepted = .ok next ∧ Known next := by
  unfold MqttClient.subscribe
  rw [link, flag]
  cases callback with
  | none => exact ⟨client, rfl, fun _ => flag⟩
  | some callback =>
      cases accepted with
      | true => exact ⟨_, rfl, fun _ => rfl⟩
      | false => exact ⟨client, rfl, fun _ => flag⟩

theorem subscribe_fails (callback : Option Callback) (accepted : Bool)
    (down : client.connected = false) : client.subscribe callback accepted = .error .assertion := by
  unfold MqttClient.subscribe
  rw [down]
  rfl

theorem caller_known (succeeds : Bool) (use : MqttClient → Run MqttClient)
    (uses : ∀ client : MqttClient, client.connected = true → client.isconnected = true →
      ∃ next, use client = .ok next ∧ Known next)
    (known : Known client) (fresh : Fresh client) :
    ∃ next, (do
      let client ← client.ensure succeeds
      if client.isconnected then use client else .ok client) = .ok next ∧ Known next := by
  obtain ⟨ensured, done, known', fresh', -⟩ := ensure_fresh succeeds known fresh
  rw [done, ok_bind]
  cases flag : ensured.isconnected with
  | false => exact ⟨ensured, rfl, known'⟩
  | true =>
      rw [if_pos rfl]
      exact uses ensured (fresh' flag) flag

theorem caller_fails (succeeds : Bool) (use : MqttClient → Run MqttClient)
    (fails : use client = .error .assertion) (flag : client.isconnected = true) :
    (do
      let client ← client.ensure succeeds
      if client.isconnected then use client else .ok client) = .error .assertion := by
  rw [MqttClient.ensure, if_pos flag, ok_bind, if_pos flag, fails]

theorem publishes (client : MqttClient) (link : client.connected = true)
    (flag : client.isconnected = true) : ∃ next, client.publish = .ok next ∧ Known next :=
  ⟨client, publish_connected link flag, fun _ => flag⟩

theorem subscribeOnSuccess_eq (succeeds : Bool) :
    client.subscribeOnSuccess succeeds = client.publishQuery succeeds := by
  unfold MqttClient.subscribeOnSuccess MqttClient.publishQuery MqttClient.ensure
  cases flag : client.isconnected with
  | false => rfl
  | true => rw [if_pos rfl, if_pos rfl, ok_bind, if_pos flag]

/-- What is left of a fresh flag that is refused. -/
theorem stale (unlucky : ¬ Fresh client) : client.isconnected = true ∧ client.connected = false := by
  simp only [Fresh, Classical.not_imp] at unlucky
  exact ⟨unlucky.1, by simpa using unlucky.2⟩

theorem publishOnce_known (succeeds : Bool) (known : Known client) (fresh : Fresh client)
    (reached : client.isconnected = false → succeeds = true) :
    ∃ next, client.publishOnce succeeds = .ok next ∧ Known next := by
  obtain ⟨ensured, done, -, fresh', raised, same⟩ := ensure_fresh succeeds known fresh
  have flag : ensured.isconnected = true := by
    cases before : client.isconnected with
    | true => rw [same before, before]
    | false => exact raised before (reached before)
  rw [MqttClient.publishOnce, done, ok_bind]
  exact publishes ensured (fresh' flag) flag

theorem publishOnce_fails (succeeds : Bool) (known : Known client)
    (unlucky : ¬ (Fresh client ∧ (client.isconnected = false → succeeds = true))) :
    client.publishOnce succeeds = .error .assertion := by
  unfold MqttClient.publishOnce MqttClient.ensure
  cases flag : client.isconnected with
  | true =>
      have down : client.connected = false := by
        cases link : client.connected with
        | false => rfl
        | true => exact absurd ⟨fun _ => link, fun off => by rw [flag] at off; cases off⟩ unlucky
      rw [if_pos rfl, ok_bind, publish_fails down]
  | false =>
      have down : client.connected = false := by
        cases link : client.connected with
        | false => rfl
        | true => exact absurd (known link) (by rw [flag]; decide)
      have refused : succeeds = false := by
        cases outcome : succeeds with
        | false => rfl
        | true =>
            refine absurd ⟨fun on => ?_, fun _ => outcome⟩ unlucky
            rw [flag] at on
            cases on
      rw [if_neg Bool.false_ne_true, MqttClient.connect, down, if_neg Bool.false_ne_true, refused,
        if_neg Bool.false_ne_true, ok_bind, publish_fails down]

theorem tokenDone_known (success accepted : Bool) (known : Known client)
    (lucky : Lucky (.ok client) (.tokenDone success accepted)) :
    ∃ next, client.tokenDone success accepted = .ok next ∧ Known next := by
  unfold MqttClient.tokenDone
  split
  · exact ⟨client, rfl, known⟩
  · rename_i some
    dsimp only
    split
    · rename_i failed
      simp only [Bool.and_eq_true, Bool.not_eq_true', decide_eq_true_eq] at failed
      have link := lucky failed.1 some failed.2
      exact subscribe_connected none accepted link (known link)
    · exact ⟨_, rfl, known⟩

theorem tokenDone_fails (success accepted : Bool)
    (unlucky : ¬ Lucky (.ok client) (.tokenDone success accepted)) :
    client.tokenDone success accepted = .error .assertion := by
  simp only [Lucky, Classical.not_imp] at unlucky
  obtain ⟨failed, some, stored, down⟩ := unlucky
  unfold MqttClient.tokenDone
  rw [if_neg some]
  dsimp only
  rw [failed, stored]
  exact subscribe_fails none accepted (by simpa using down)

theorem operate_known (event : Event) (known : Known client) (lucky : Lucky (.ok client) event) :
    ∃ next, client.operate event = .ok next ∧ Known next := by
  cases event with
  | connectionLost => exact ⟨_, rfl, fun on => by cases on⟩
  | reconnected => exact ⟨_, rfl, fun _ => rfl⟩
  | disconnect accepted =>
      refine ⟨_, rfl, ?_⟩
      unfold MqttClient.disconnect
      split
      · exact fun on => by cases on
      · exact known
  | tokenDone success accepted => exact tokenDone_known success accepted known lucky
  | publishOnce succeeds => exact publishOnce_known succeeds known lucky.1 lucky.2
  | publishQuery succeeds => exact caller_known succeeds _ publishes known lucky
  | subscribeResponder succeeds accepted =>
      exact caller_known succeeds _ (fun _ => subscribe_connected _ accepted) known lucky
  | subscribeOnSuccess succeeds =>
      rw [MqttClient.operate, subscribeOnSuccess_eq]
      exact caller_known succeeds _ publishes known lucky
  | subscribeDownload succeeds accepted =>
      exact caller_known succeeds _ (fun _ => subscribe_connected _ accepted) known lucky

theorem operate_fails (event : Event) (known : Known client) (unlucky : ¬ Lucky (.ok client) event) :
    client.operate event = .error .assertion := by
  cases event with
  | connectionLost => exact absurd trivial unlucky
  | reconnected => exact absurd trivial unlucky
  | disconnect accepted => exact absurd trivial unlucky
  | tokenDone success accepted => exact tokenDone_fails success accepted unlucky
  | publishOnce succeeds => exact publishOnce_fails succeeds known unlucky
  | publishQuery succeeds =>
      obtain ⟨flag, down⟩ := stale unlucky
      exact caller_fails succeeds _ (publish_fails down) flag
  | subscribeResponder succeeds accepted =>
      obtain ⟨flag, down⟩ := stale unlucky
      exact caller_fails succeeds _ (subscribe_fails _ accepted down) flag
  | subscribeOnSuccess succeeds =>
      obtain ⟨flag, down⟩ := stale unlucky
      rw [MqttClient.operate, subscribeOnSuccess_eq]
      exact caller_fails succeeds _ (publish_fails down) flag
  | subscribeDownload succeeds accepted =>
      obtain ⟨flag, down⟩ := stale unlucky
      exact caller_fails succeeds _ (subscribe_fails _ accepted down) flag

end

theorem step_alive (state : Run MqttClient) (event : Event) (next : Run MqttClient)
    (alive : Alive state) (lucky : Lucky state event)
    (taken : faulting MqttClient.operate state event = some next) : Alive next := by
  cases state with
  | error fault => exact alive.elim
  | ok client =>
      obtain ⟨after, operated, known⟩ := operate_known event alive lucky
      cases taken
      rw [operated]
      exact known

theorem alive_survives (state : Run MqttClient) (alive : Alive state) : Survives state := by
  cases state with
  | error fault => exact alive.elim
  | ok client => exact fun is => by cases is

theorem unlucky_fails (state : Run MqttClient) (event : Event) (alive : Alive state)
    (unlucky : ¬ Lucky state event) :
    ∃ next, faulting MqttClient.operate state event = some next ∧ ¬ Survives next := by
  cases state with
  | error fault => exact alive.elim
  | ok client =>
      refine ⟨.error .assertion, ?_, fun survives => survives rfl⟩
      rw [faulting, operate_fails event alive unlucky]

/-- In a run no assertion of the client fails exactly when every call is lucky. -/
theorem survives_iff_lucky (events : List Event) :
    Always (faulting MqttClient.operate) Survives (.ok .fresh) events ↔
      Guarded (faulting MqttClient.operate) Lucky (.ok .fresh) events :=
  always_iff_guarded step_alive alive_survives unlucky_fails events _ fun on => by cases on

/-- The notifier's timer fires while the broker is down. -/
theorem outage_aborts_notifier :
    ¬ ∀ events : List Event,
      Always (faulting MqttClient.operate) Survives (.ok .fresh) events := by
  intro always_survives
  exact always_survives [.publishOnce true, .connectionLost, .publishOnce false] _ [] (.error .assertion)
    (List.append_nil _) rfl rfl

theorem reconnect_survives :
    Always (faulting MqttClient.operate) Survives (.ok .fresh)
      [.publishOnce true, .connectionLost, .publishQuery false, .reconnected, .publishOnce false,
        .subscribeDownload false true, .tokenDone false true] :=
  (survives_iff_lucky _).mpr (by decide)

end OtaMqtt.Mqtt.Outage
