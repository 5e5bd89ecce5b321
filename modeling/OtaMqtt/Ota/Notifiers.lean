import OtaMqtt.Lib.Trace
import OtaMqtt.Ota.Manager

/-! The notifiers behind the publish timers (`ota_notify` and `ota_stop_notify` of
sherry/ota_manager.cc, ota_notifier.cc).

A timer's callback holds the address of its notifier and does not keep it alive; only the map
does. `ota_notify` looks for the notifier under the read lock and makes one under the write lock
later, without another look. A notifier and a timer are the numbers of their making; the
requests are those that pass the check of the device type. -/

namespace OtaMqtt.Ota.Notifiers

open OtaMqtt.Lib.Trace OtaMqtt.Ota OtaMqtt.Ota.OTAManager

/-- What `publish_once` hands to the client, and the message of the last request for the topic at
that time. -/
structure Publication where
  topic : String
  msg : OTAMessage
  newest : Option OTAMessage

/-- `timers` pairs the recurring timers with the notifiers that their callbacks hold, `due` lists
the callbacks that wait in the scheduler, and `creating` the callers between the two locks. -/
structure World where
  notifiers : Nat → OTANotifier
  made : Nat
  otaNotifierMap : AList fun _ : String => Nat
  timers : List (Nat × Nat)
  started : Nat
  due : List Nat
  creating : Nat → Option (UInt16 × OTAMessage)
  newest : String → Option OTAMessage
  published : List Publication

inductive Label where
  | look (caller : Nat) (deviceType : UInt16) (msg : OTAMessage)
  | create (caller : Nat)
  | stop (deviceType : UInt16) (name version : String)
  | expire (timer notifier : Nat)
  | publish (notifier : Nat)

def messageTopic (deviceType : UInt16) (msg : OTAMessage) : String :=
  notifyTopic deviceType msg.name msg.version

namespace World

def fresh : World where
  notifiers := fun _ => .create 0 "" 0
  made := 0
  otaNotifierMap := ∅
  timers := []
  started := 0
  due := []
  creating := fun _ => none
  newest := fun _ => none
  published := []

/-- `set_message` and `start`; the timer that `m_timer` held is not cancelled. -/
def start (world : World) (notifier : Nat) (topic : String) (msg : OTAMessage) : World :=
  { world with
    notifiers := Function.update world.notifiers notifier
      { (world.notifiers notifier).setMessage msg with timer := some world.started }
    timers := (world.started, notifier) :: world.timers
    started := world.started + 1
    newest := Function.update world.newest topic (some msg) }

/-- The section under the read lock. -/
def look (world : World) (caller : Nat) (deviceType : UInt16) (msg : OTAMessage) : World :=
  match world.otaNotifierMap.lookup (messageTopic deviceType msg) with
  | some notifier => world.start notifier (messageTopic deviceType msg) msg
  | none => { world with creating := Function.update world.creating caller (some (deviceType, msg)) }

/-- The new notifier in the map; the one that was there is deleted. -/
def install (world : World) (deviceType : UInt16) (topic : String) : World :=
  { world with
    notifiers := Function.update world.notifiers world.made (.create deviceType.toNat topic 1000)
    made := world.made + 1
    otaNotifierMap := world.otaNotifierMap.insert topic world.made }

/-- The section under the write lock. -/
def create (world : World) (caller : Nat) (deviceType : UInt16) (msg : OTAMessage) : World :=
  let topic := messageTopic deviceType msg
  let world := { world with creating := Function.update world.creating caller none }
  (world.install deviceType topic).start world.made topic msg

def stop (world : World) (notifier : Nat) : World :=
  match (world.notifiers notifier).timer with
  | none => world
  | some timer => { world with
      notifiers := Function.update world.notifiers notifier
        { world.notifiers notifier with timer := none }
      timers := world.timers.filter (·.1 ≠ timer) }

def publishOnce (world : World) (notifier : Nat) : World :=
  let object := world.notifiers notifier
  { world with
    due := world.due.erase notifier
    published := ⟨object.topic, object.msg, world.newest object.topic⟩ :: world.published }

/-- A timer and its notifier are compared as a pair. -/
local instance pairs : LawfulBEq (Nat × Nat) := inferInstance

def step (world : World) : Label → Option World
  | .look caller deviceType msg =>
      if (world.creating caller).isNone then some (world.look caller deviceType msg) else none
  | .create caller => (world.creating caller).map fun request => world.create caller request.1 request.2
  | .stop deviceType name version =>
      match world.otaNotifierMap.lookup (notifyTopic deviceType name version) with
      | none => some world
      | some notifier => some (world.stop notifier)
  | .expire timer notifier =>
      if (timer, notifier) ∈ world.timers then some { world with due := notifier :: world.due }
      else none
  | .publish notifier => if notifier ∈ world.due then some (world.publishOnce notifier) else none

def Awaited (world : World) (notifier : Nat) : Prop :=
  notifier ∈ world.due ∨ notifier ∈ world.timers.map Prod.snd

def Alive (world : World) (notifier : Nat) : Prop :=
  ∃ topic, world.otaNotifierMap.lookup topic = some notifier

end World

/-- No timer's callback reads a notifier that is gone, and what has been published was the message
of the last request for its topic and named the topic's own package. -/
structure Faithful (world : World) : Prop where
  alive : ∀ notifier, world.Awaited notifier → world.Alive notifier
  published : ∀ publication ∈ world.published, publication.newest = some publication.msg ∧
    ∃ deviceType, publication.topic = messageTopic deviceType publication.msg

/-- A notifier is made only while the one that it replaces, if any, has no timer set or due. -/
def Clear (world : World) : Label → Prop
  | .create caller => ∀ request ∈ world.creating caller,
      ∀ notifier ∈ world.otaNotifierMap.lookup (messageTopic request.1 request.2),
        ¬ world.Awaited notifier
  | _ => True

structure Placed (world : World) : Prop where
  faithful : Faithful world
  made : ∀ topic notifier, world.otaNotifierMap.lookup topic = some notifier → notifier < world.made
  topics : ∀ topic notifier, world.otaNotifierMap.lookup topic = some notifier →
    (world.notifiers notifier).topic = topic

/-- The notifier has the message of the last request for the topic, and the topic names its
package. -/
def Current (world : World) (topic : String) (notifier : Nat) : Prop :=
  world.newest topic = some (world.notifiers notifier).msg ∧
    ∃ deviceType, topic = messageTopic deviceType (world.notifiers notifier).msg

structure Kept (world : World) : Prop where
  placed : Placed world
  current : ∀ topic notifier, world.otaNotifierMap.lookup topic = some notifier →
    Current world topic notifier

theorem kept_fresh : Kept .fresh := by
  refine ⟨⟨⟨?_, ?_⟩, ?_, ?_⟩, ?_⟩
  · rintro notifier (due | set)
    · cases due
    · cases set
  · intro publication member
    cases member
  · intro topic notifier found
    cases found
  · intro topic notifier found
    cases found
  · intro topic notifier found
    cases found

section
variable {world : World}

theorem start_kept (placed : Placed world) {notifier : Nat} {deviceType : UInt16} {msg : OTAMessage}
    (found : world.otaNotifierMap.lookup (messageTopic deviceType msg) = some notifier)
    (others : ∀ topic other, world.otaNotifierMap.lookup topic = some other → other ≠ notifier →
      Current world topic other) :
    Kept (world.start notifier (messageTopic deviceType msg) msg) := by
  refine ⟨⟨⟨fun other awaited => ?_, placed.faithful.published⟩, placed.made,
    fun topic other looked => ?_⟩, fun topic other looked => ?_⟩
  · rcases awaited with due | set
    · exact placed.faithful.alive other (.inl due)
    · rcases List.mem_cons.mp set with rfl | old
      · exact ⟨_, found⟩
      · exact placed.faithful.alive other (.inr old)
  · have own := placed.topics topic other looked
    unfold World.start
    dsimp only
    by_cases same : other = notifier
    · subst same
      rw [Function.update_self]
      exact own
    · rw [Function.update_of_ne same]
      exact own
  · unfold World.start Current
    dsimp only
    by_cases same : other = notifier
    · subst same
      have topics : topic = messageTopic deviceType msg :=
        (placed.topics topic other looked).symm.trans (placed.topics _ other found)
      rw [topics, Function.update_self, Function.update_self]
      exact ⟨rfl, deviceType, rfl⟩
    · have apart : topic ≠ messageTopic deviceType msg := by
        rintro rfl
        exact same (Option.some.inj (looked.symm.trans found))
      rw [Function.update_of_ne apart, Function.update_of_ne same]
      exact others topic other looked same

theorem install_lookup (deviceType : UInt16) {topic other : String} {notifier : Nat}
    (looked : (world.install deviceType topic).otaNotifierMap.lookup other = some notifier) :
    (other = topic ∧ notifier = world.made) ∨
      (other ≠ topic ∧ world.otaNotifierMap.lookup other = some notifier) := by
  unfold World.install at looked
  by_cases same : other = topic
  · rw [same, AList.lookup_insert] at looked
    exact .inl ⟨same, (Option.some.inj looked).symm⟩
  · rw [AList.lookup_insert_ne same] at looked
    exact .inr ⟨same, looked⟩

/-- The notifier that is deleted has no timer, so every awaited one stays in the map. -/
theorem install_placed (kept : Kept world) (deviceType : UInt16) (topic : String)
    (clear : ∀ notifier ∈ world.otaNotifierMap.lookup topic, ¬ world.Awaited notifier) :
    Placed (world.install deviceType topic) := by
  obtain ⟨⟨faithful, made, topics⟩, -⟩ := kept
  refine ⟨⟨fun notifier awaited => ?_, faithful.published⟩, fun other notifier looked => ?_,
    fun other notifier looked => ?_⟩
  · obtain ⟨other, found⟩ := faithful.alive notifier awaited
    have apart : other ≠ topic := by
      rintro rfl
      exact clear notifier found awaited
    exact ⟨other, (AList.lookup_insert_ne apart).trans found⟩
  · show notifier < world.made + 1
    rcases install_lookup _ looked with ⟨-, rfl⟩ | ⟨-, old⟩
    · exact Nat.lt_succ_self _
    · exact Nat.lt_succ_of_lt (made other notifier old)
  · unfold World.install
    dsimp only
    rcases install_lookup _ looked with ⟨rfl, rfl⟩ | ⟨-, old⟩
    · rw [Function.update_self]
      rfl
    · rw [Function.update_of_ne (made other notifier old).ne]
      exact topics other notifier old

theorem create_kept (kept : Kept world) (caller : Nat) (deviceType : UInt16) (msg : OTAMessage)
    (clear : ∀ notifier ∈ world.otaNotifierMap.lookup (messageTopic deviceType msg),
      ¬ world.Awaited notifier) :
    Kept (world.create caller deviceType msg) := by
  unfold World.create
  dsimp only
  have same : Kept { world with creating := Function.update world.creating caller none } :=
    ⟨⟨⟨kept.placed.faithful.alive, kept.placed.faithful.published⟩, kept.placed.made, kept.placed.topics⟩,
      kept.current⟩
  refine start_kept (install_placed same deviceType _ clear) (AList.lookup_insert _) ?_
  intro topic other looked apart
  rcases install_lookup _ looked with ⟨-, is⟩ | ⟨-, old⟩
  · exact absurd is apart
  · have current := same.current topic other old
    unfold World.install Current
    dsimp only
    rw [Function.update_of_ne apart]
    exact current

theorem untimed (notifiers : Nat → OTANotifier) (notifier other : Nat) :
    (Function.update notifiers notifier { notifiers notifier with timer := none } other).topic =
        (notifiers other).topic ∧
      (Function.update notifiers notifier { notifiers notifier with timer := none } other).msg =
        (notifiers other).msg := by
  by_cases same : other = notifier
  · subst same
    rw [Function.update_self]
    exact ⟨rfl, rfl⟩
  · rw [Function.update_of_ne same]
    exact ⟨rfl, rfl⟩

theorem stop_kept (kept : Kept world) (notifier : Nat) : Kept (world.stop notifier) := by
  unfold World.stop
  split
  · exact kept
  · refine ⟨⟨⟨fun other awaited => ?_, kept.placed.faithful.published⟩, kept.placed.made,
      fun topic other looked => ?_⟩, fun topic other looked => ?_⟩
    · apply kept.placed.faithful.alive
      rcases awaited with due | set
      · exact .inl due
      · exact .inr (List.map_subset Prod.snd (List.filter_subset_self _) set)
    · exact (untimed ..).1.trans (kept.placed.topics topic other looked)
    · have current := kept.current topic other looked
      unfold Current at current ⊢
      dsimp only
      rw [(untimed ..).2]
      exact current

theorem expire_kept (kept : Kept world) {timer notifier : Nat}
    (set : (timer, notifier) ∈ world.timers) :
    Kept { world with due := notifier :: world.due } := by
  refine ⟨⟨⟨fun other awaited => ?_, kept.placed.faithful.published⟩, kept.placed.made,
    kept.placed.topics⟩, kept.current⟩
  apply kept.placed.faithful.alive
  rcases awaited with due | set'
  · rcases List.mem_cons.mp due with rfl | old
    · exact .inr (List.mem_map_of_mem set)
    · exact .inl old
  · exact .inr set'

theorem publish_kept (kept : Kept world) {notifier : Nat} (due : notifier ∈ world.due) :
    Kept (world.publishOnce notifier) := by
  obtain ⟨topic, found⟩ := kept.placed.faithful.alive notifier (.inl due)
  have own := kept.placed.topics topic notifier found
  obtain ⟨newest, named⟩ := kept.current topic notifier found
  refine ⟨⟨⟨fun other awaited => ?_, fun publication member => ?_⟩, kept.placed.made,
    kept.placed.topics⟩, kept.current⟩
  · apply kept.placed.faithful.alive
    rcases awaited with due' | set
    · exact .inl (List.mem_of_mem_erase due')
    · exact .inr set
  · rcases List.mem_cons.mp member with rfl | old
    · rw [← own] at newest named
      exact ⟨newest, named⟩
    · exact kept.placed.faithful.published publication old

end

theorem step_kept (world : World) (label : Label) (next : World) (kept : Kept world)
    (clear : Clear world label) (taken : world.step label = some next) : Kept next := by
  cases label with
  | look caller deviceType msg =>
      obtain ⟨-, ⟨⟩⟩ := Option.ite_none_right_eq_some.mp taken
      unfold World.look
      split
      · rename_i notifier found
        exact start_kept kept.placed found fun topic other looked _ => kept.current topic other looked
      · exact ⟨⟨⟨kept.placed.faithful.alive, kept.placed.faithful.published⟩, kept.placed.made,
          kept.placed.topics⟩, kept.current⟩
  | create caller =>
      obtain ⟨request, pending, rfl⟩ := Option.map_eq_some_iff.mp taken
      exact create_kept kept caller request.1 request.2 (clear request pending)
  | stop deviceType name version =>
      rw [World.step] at taken
      split at taken
      · cases taken
        exact kept
      · cases taken
        exact stop_kept kept _
  | expire timer notifier =>
      obtain ⟨set, ⟨⟩⟩ := Option.ite_none_right_eq_some.mp taken
      exact expire_kept kept set
  | publish notifier =>
      obtain ⟨due, ⟨⟩⟩ := Option.ite_none_right_eq_some.mp taken
      exact publish_kept kept due

/-- The notifier that a second one replaces is gone while a timer still holds it. -/
theorem replaced_dangles (world : World) (label : Label) (kept : Kept world)
    (unclear : ¬ Clear world label) :
    ∃ next, world.step label = some next ∧ ¬ Faithful next := by
  cases label with
  | create caller =>
      simp only [Clear, not_forall, not_not] at unclear
      obtain ⟨⟨deviceType, msg⟩, pending, notifier, found, awaited⟩ := unclear
      refine ⟨world.create caller deviceType msg, Option.map_eq_some_iff.mpr ⟨_, pending, rfl⟩, ?_⟩
      intro faithful
      have awaited' : (world.create caller deviceType msg).Awaited notifier := by
        rcases awaited with due | set
        · exact .inl due
        · exact .inr (List.mem_cons_of_mem _ set)
      obtain ⟨topic, looked⟩ := faithful.alive notifier awaited'
      have old := kept.placed.made _ notifier found
      rcases install_lookup deviceType looked with ⟨-, is⟩ | ⟨apart, looked'⟩
      · exact old.ne is
      · have own := kept.placed.topics topic notifier looked'
        exact apart (own.symm.trans (kept.placed.topics _ notifier found))
  | look caller deviceType msg => exact absurd trivial unclear
  | stop deviceType name version => exact absurd trivial unclear
  | expire timer notifier => exact absurd trivial unclear
  | publish notifier => exact absurd trivial unclear

end OtaMqtt.Ota.Notifiers
