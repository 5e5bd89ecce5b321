import Mathlib.Tactic

/-! A publish-subscribe broker and its connections.

A client talks to the broker over one ordered connection, so the packets it sends and the
messages it gets are two queues. The broker handles the packets of one client in their
order and may take the clients in any order. -/

namespace OtaMqtt.Lib.PubSub

inductive Packet where
  | publish (topic payload : String) (retain : Bool)
  | subscribe (topic : String)
  | unsubscribe (topic : String)
  deriving DecidableEq

structure Message where
  topic : String
  payload : String
  deriving DecidableEq

structure Broker (Client : Type) where
  subscriptions : Client → List String
  retained : String → Option String
  up : Client → List Packet
  down : Client → List Message

variable {Client : Type} [DecidableEq Client]

namespace Broker

def fresh : Broker Client := ⟨fun _ => [], fun _ => none, fun _ => [], fun _ => []⟩

def send (broker : Broker Client) (client : Client) (packet : Packet) : Broker Client :=
  { broker with up := Function.update broker.up client (broker.up client ++ [packet]) }

/-- A publication goes to the clients that are subscribed by now; a retained one is kept for
later subscribers, or forgotten when its payload is empty. -/
def handle (broker : Broker Client) (client : Client) : Packet → Broker Client
  | .publish topic payload retain => { broker with
      retained := if retain then
          Function.update broker.retained topic (if payload.isEmpty then none else some payload)
        else broker.retained
      down := fun other => broker.down other ++
        if topic ∈ broker.subscriptions other then [⟨topic, payload⟩] else [] }
  | .subscribe topic => { broker with
      subscriptions := Function.update broker.subscriptions client
        (topic :: broker.subscriptions client)
      down := Function.update broker.down client
        (broker.down client ++ ((broker.retained topic).map (Message.mk topic)).toList) }
  | .unsubscribe topic => { broker with
      subscriptions := Function.update broker.subscriptions client
        ((broker.subscriptions client).filter (· ≠ topic)) }

def take (broker : Broker Client) (client : Client) : Option (Broker Client) :=
  match broker.up client with
  | [] => none
  | packet :: packets =>
      some (handle { broker with up := Function.update broker.up client packets } client packet)

def receive (broker : Broker Client) (client : Client) : Option (Message × Broker Client) :=
  match broker.down client with
  | [] => none
  | message :: messages =>
      some (message, { broker with down := Function.update broker.down client messages })

def Idle (broker : Broker Client) : Prop := ∀ client, broker.up client = [] ∧ broker.down client = []

end Broker

section
variable {broker next : Broker Client} {client : Client}

theorem mem_send (packet other : Packet) (owner : Client) :
    other ∈ (broker.send client packet).up owner ↔
      other ∈ broker.up owner ∨ owner = client ∧ other = packet := by
  unfold Broker.send
  dsimp only
  by_cases same : owner = client
  · rw [same, Function.update_self, List.mem_append, List.mem_singleton]
    simp only [true_and]
  · rw [Function.update_of_ne same]
    simp only [same, false_and, or_false]

theorem send_other (packet : Packet) (owner : Client) (apart : owner ≠ client) :
    (broker.send client packet).up owner = broker.up owner :=
  Function.update_of_ne apart _ _

theorem handle_up (packet : Packet) (owner : Client) :
    (broker.handle client packet).up owner = broker.up owner := by
  cases packet with
  | publish topic payload retain => rfl
  | subscribe topic => rfl
  | unsubscribe topic => rfl

/-- What the broker sends on a packet: a publication to a subscriber, or a retained one to a new
subscriber. -/
theorem mem_handle (packet : Packet) (message : Message) (receiver : Client) :
    message ∈ (broker.handle client packet).down receiver ↔ message ∈ broker.down receiver ∨
      (∃ retain, packet = .publish message.topic message.payload retain ∧
        message.topic ∈ broker.subscriptions receiver) ∨
      (packet = .subscribe message.topic ∧ receiver = client ∧
        broker.retained message.topic = some message.payload) := by
  obtain ⟨topic', payload'⟩ := message
  cases packet with
  | publish topic payload retain =>
      simp only [Broker.handle, List.mem_append, Packet.publish.injEq, reduceCtorEq, false_and, or_false]
      apply or_congr_right
      split
      · rename_i subscribed
        rw [List.mem_singleton, Message.mk.injEq]
        constructor
        · rintro ⟨rfl, rfl⟩
          exact ⟨retain, ⟨rfl, rfl, rfl⟩, subscribed⟩
        · rintro ⟨_, ⟨rfl, rfl, -⟩, -⟩
          exact ⟨rfl, rfl⟩
      · rename_i missing
        constructor
        · intro none
          cases none
        · rintro ⟨_, ⟨rfl, -, -⟩, subscribed⟩
          exact absurd subscribed missing
  | subscribe topic =>
      simp only [Broker.handle, reduceCtorEq, false_and, exists_false, false_or, Packet.subscribe.injEq]
      by_cases same : receiver = client
      · rw [same, Function.update_self, List.mem_append]
        apply or_congr_right
        simp only [Option.mem_toList, Option.map_eq_some_iff, Message.mk.injEq]
        constructor
        · rintro ⟨_, kept, rfl, rfl⟩
          exact ⟨rfl, trivial, kept⟩
        · rintro ⟨rfl, -, kept⟩
          exact ⟨payload', kept, rfl, rfl⟩
      · rw [Function.update_of_ne same]
        simp only [same, false_and, and_false, or_false]
  | unsubscribe topic =>
      simp only [Broker.handle, reduceCtorEq, false_and, exists_false, or_false]

theorem handle_retained (packet : Packet) (topic : String)
    (other : ∀ payload, packet ≠ .publish topic payload true) :
    (broker.handle client packet).retained topic = broker.retained topic := by
  cases packet with
  | publish topic' payload retain =>
      cases retain with
      | false => rfl
      | true =>
          have apart : topic ≠ topic' := fun same => other payload (by rw [same])
          exact Function.update_of_ne apart _ _
  | subscribe topic' => rfl
  | unsubscribe topic' => rfl

theorem take_cases (taken : broker.take client = some next) :
    ∃ packet packets, broker.up client = packet :: packets ∧
      next.up = Function.update broker.up client packets ∧
      (∀ message receiver, message ∈ next.down receiver ↔ message ∈ broker.down receiver ∨
        (∃ retain, packet = .publish message.topic message.payload retain ∧
          message.topic ∈ broker.subscriptions receiver) ∨
        (packet = .subscribe message.topic ∧ receiver = client ∧
          broker.retained message.topic = some message.payload)) ∧
      (∀ topic, (∀ payload, packet ≠ .publish topic payload true) →
        next.retained topic = broker.retained topic) := by
  unfold Broker.take at taken
  split at taken
  · cases taken
  · rename_i packet packets queue
    cases taken
    refine ⟨packet, packets, queue, ?_, fun message receiver => ?_, fun topic other => ?_⟩
    · funext owner
      rw [handle_up]
    · exact mem_handle packet message receiver
    · exact handle_retained packet topic other

theorem take_subscriptions {packet : Packet} {packets : List Packet}
    (queue : broker.up client = packet :: packets) (taken : broker.take client = some next)
    (owner : Client) (topic : String) :
    topic ∈ next.subscriptions owner ↔ owner = client ∧ packet = .subscribe topic ∨
      topic ∈ broker.subscriptions owner ∧ ¬ (owner = client ∧ packet = .unsubscribe topic) := by
  unfold Broker.take at taken
  rw [queue] at taken
  cases taken
  cases packet with
  | publish topic' payload retain => simp [Broker.handle]
  | subscribe topic' =>
      dsimp only [Broker.handle]
      by_cases same : owner = client
      · rw [same, Function.update_self, List.mem_cons]
        simp only [true_and, Packet.subscribe.injEq, reduceCtorEq, not_false_eq_true, and_true]
        exact or_congr_left eq_comm
      · rw [Function.update_of_ne same]
        simp [same]
  | unsubscribe topic' =>
      dsimp only [Broker.handle]
      by_cases same : owner = client
      · rw [same, Function.update_self, List.mem_filter, decide_eq_true_eq]
        simp only [true_and, reduceCtorEq, false_or, Packet.unsubscribe.injEq]
        exact and_congr_right' ne_comm
      · rw [Function.update_of_ne same]
        simp [same]

theorem take_retained {topic payload : String} {packets : List Packet} (filled : payload ≠ "")
    (queue : broker.up client = .publish topic payload true :: packets)
    (taken : broker.take client = some next) : next.retained topic = some payload := by
  unfold Broker.take at taken
  rw [queue] at taken
  cases taken
  have shown : payload.isEmpty = false := by
    rw [Bool.eq_false_iff]
    exact fun empty => filled (String.isEmpty_iff.mp empty)
  simp only [Broker.handle, if_true, Function.update_self, shown, Bool.false_eq_true, if_false]

theorem receive_cases {message : Message} (received : broker.receive client = some (message, next)) :
    ∃ messages, broker.down client = message :: messages ∧
      next = { broker with down := Function.update broker.down client messages } := by
  unfold Broker.receive at received
  split at received
  · cases received
  · rename_i first messages queue
    cases received
    exact ⟨messages, queue, rfl⟩

end

end OtaMqtt.Lib.PubSub
