import Mathlib.Data.List.AList
import OtaMqtt.Lib.Framing
import OtaMqtt.Lib.Trace

/-! Concurrent calls of `MqttClientManager::get_client` (sherry/mqtt_client.cc, mqtt_client.h).

A caller looks for the client under the read lock, and one that found none makes it under the
write lock later, without another look. A client is the number of its making. -/

namespace OtaMqtt.Mqtt.Clients

open OtaMqtt.Lib.Trace OtaMqtt.Lib.Framing

/-- The counters are `int`s. -/
structure MqttClientManager where
  clients : AList fun _ : Int32 => Nat
  clientNum : Int32
  clientId : Int32

namespace MqttClientManager

def fresh : MqttClientManager := ⟨∅, 0, 0⟩

/-- The section under the read lock; no entry of the map is null. -/
def findClient (manager : MqttClientManager) (deviceType : Int32) : Option Nat :=
  manager.clients.lookup deviceType

/-- The section under the write lock. -/
def makeClient (manager : MqttClientManager) (deviceType : Int32) (client : Nat) : MqttClientManager :=
  ⟨manager.clients.insert deviceType client, manager.clientNum + 1, manager.clientId + 1⟩

/-- `std::to_string(m_client_id)`. -/
def nextName (manager : MqttClientManager) : String := toString manager.clientId.toInt

end MqttClientManager

/-- `created` holds the client ids in the order of their making, `missed` the callers that have
found no client, and `returned` what the calls gave back. -/
structure World where
  manager : MqttClientManager
  created : List String
  missed : List Int32
  returned : List (Int32 × Nat)

def fresh : World := ⟨.fresh, [], [], []⟩

inductive Label where
  | find (deviceType : Int32)
  | make (deviceType : Int32)
  deriving DecidableEq

def step (world : World) : Label → Option World
  | .find deviceType =>
      if deviceType < 0 then some world
      else match world.manager.findClient deviceType with
        | some client => some { world with returned := (deviceType, client) :: world.returned }
        | none => some { world with missed := deviceType :: world.missed }
  | .make deviceType =>
      if deviceType ∈ world.missed then
        let client := world.created.length
        some {
          manager := world.manager.makeClient deviceType client
          created := world.created ++ [world.manager.nextName]
          missed := world.missed.erase deviceType
          returned := (deviceType, client) :: world.returned }
      else none

/-- One client for a device type, a count of the entries, and client ids that are all different. -/
structure Exact (world : World) : Prop where
  same : ∀ deviceType first second, (deviceType, first) ∈ world.returned →
    (deviceType, second) ∈ world.returned → first = second
  counted : world.manager.clientNum.toInt = world.manager.clients.keys.length
  distinct : world.created.Nodup

/-- A client is made only while its type has none, and the counter is not at its end. -/
def Unmade (world : World) : Label → Prop
  | .find _ => True
  | .make deviceType => deviceType ∈ world.missed →
      world.manager.findClient deviceType = none ∧ world.manager.clientNum ≠ Int32.maxValue

instance (world : World) (label : Label) : Decidable (Unmade world label) :=
  match label with
  | .find _ => inferInstanceAs (Decidable True)
  | .make _ => inferInstanceAs (Decidable (_ → _))

structure Sound (world : World) : Prop where
  returned : ∀ deviceType client, (deviceType, client) ∈ world.returned →
    world.manager.clients.lookup deviceType = some client
  counted : world.manager.clientNum.toInt = world.manager.clients.keys.length
  made : world.manager.clientId = world.manager.clientNum
  names : world.created = (List.range world.manager.clients.keys.length).map toString

section
variable {world next : World} {deviceType : Int32}

theorem toString_injective : Function.Injective (toString : Nat → String) := by
  intro first second same
  have digits := congrArg (fun text => decimal text.toList) same
  simp only [decimal_number] at digits
  exact Option.some.inj digits

theorem keys_insert_new (clients : AList fun _ : Int32 => Nat) (client : Nat)
    (missing : clients.lookup deviceType = none) :
    (clients.insert deviceType client).keys.length = clients.keys.length + 1 := by
  have outside : deviceType ∉ clients.keys := AList.lookup_eq_none.mp missing
  rw [AList.keys_insert, List.length_cons, List.erase_of_not_mem outside]

theorem keys_insert_old (clients : AList fun _ : Int32 => Nat) (client old : Nat)
    (found : clients.lookup deviceType = some old) :
    (clients.insert deviceType client).keys.length = clients.keys.length := by
  have inside : deviceType ∈ clients.keys := by
    by_contra outside
    rw [AList.lookup_eq_none.mpr outside] at found
    cases found
  have some := List.length_pos_of_mem inside
  rw [AList.keys_insert, List.length_cons, List.length_erase_of_mem inside]
  omega

theorem succ_toInt (number : Int32) (room : number ≠ Int32.maxValue) :
    (number + 1).toInt = number.toInt + 1 := by
  have low := number.le_toInt
  have high := number.toInt_lt
  have below : number.toInt ≠ 2 ^ 31 - 1 := fun full => room (Int32.toInt_inj.mp full)
  rw [Int32.toInt_add, show (1 : Int32).toInt = 1 from rfl]
  apply Int.bmod_eq_of_le
  · omega
  · omega

theorem succ_toInt_ne (number : Int32) : (number + 1).toInt ≠ number.toInt := by
  by_cases full : number = Int32.maxValue
  · rw [full]
    decide
  · rw [succ_toInt number full]
    omega

theorem find_sound (sound : Sound world) (taken : step world (.find deviceType) = some next) :
    Sound next := by
  simp only [step] at taken
  split at taken
  · cases taken
    exact sound
  · split at taken
    · rename_i client found
      cases taken
      refine ⟨fun other object member => ?_, sound.counted, sound.made, sound.names⟩
      rcases List.mem_cons.mp member with new | old
      · cases new
        exact found
      · exact sound.returned other object old
    · cases taken
      exact ⟨sound.returned, sound.counted, sound.made, sound.names⟩

theorem make_sound (sound : Sound world) (unmade : Unmade world (.make deviceType))
    (taken : step world (.make deviceType) = some next) : Sound next := by
  by_cases waits : deviceType ∈ world.missed
  · obtain ⟨missing, room⟩ := unmade waits
    simp only [step, if_pos waits] at taken
    cases taken
    have longer := keys_insert_new world.manager.clients world.created.length missing
    refine ⟨fun other client member => ?_, ?_, ?_, ?_⟩
    · rcases List.mem_cons.mp member with new | old
      · cases new
        exact AList.lookup_insert _
      · have found := sound.returned other client old
        have apart : other ≠ deviceType := by
          rintro rfl
          rw [MqttClientManager.findClient, found] at missing
          cases missing
        exact (AList.lookup_insert_ne apart).trans found
    · dsimp only [MqttClientManager.makeClient]
      rw [longer, succ_toInt _ room, sound.counted]
      omega
    · dsimp only [MqttClientManager.makeClient]
      rw [sound.made]
    · dsimp only [MqttClientManager.makeClient, MqttClientManager.nextName]
      rw [longer, List.range_succ, List.map_append, ← sound.names, sound.made, sound.counted]
      rfl
  · simp only [step, if_neg waits] at taken
    cases taken

theorem step_sound (label : Label) (sound : Sound world) (unmade : Unmade world label)
    (taken : step world label = some next) : Sound next := by
  cases label with
  | find deviceType => exact find_sound sound taken
  | make deviceType => exact make_sound sound unmade taken

theorem sound_exact (sound : Sound world) : Exact world := by
  refine ⟨fun deviceType first second member member' => ?_, sound.counted, ?_⟩
  · have found := sound.returned deviceType first member
    rw [sound.returned deviceType second member'] at found
    exact (Option.some.inj found).symm
  · rw [sound.names]
    exact List.nodup_range.map toString_injective

theorem second_client_miscounts (label : Label) (sound : Sound world) (made : ¬ Unmade world label) :
    ∃ next, step world label = some next ∧ ¬ Exact next := by
  cases label with
  | find deviceType => exact absurd trivial made
  | make deviceType =>
      simp only [Unmade, Classical.not_imp] at made
      obtain ⟨waits, made⟩ := made
      refine ⟨_, if_pos waits, fun exact => ?_⟩
      have total := exact.counted
      dsimp only [MqttClientManager.makeClient] at total
      cases found : world.manager.clients.lookup deviceType with
      | some old =>
          rw [keys_insert_old _ _ old found, ← sound.counted] at total
          exact succ_toInt_ne _ total
      | none =>
          have full : world.manager.clientNum = Int32.maxValue := by
            by_contra room
            exact made ⟨found, room⟩
          have entries := sound.counted
          rw [keys_insert_new _ _ found, full] at total
          rw [full] at entries
          have last : (Int32.maxValue + 1).toInt = -2 ^ 31 := by decide
          rw [last] at total
          omega

theorem fresh_sound : Sound fresh := by
  refine ⟨fun deviceType client member => ?_, rfl, rfl, rfl⟩
  cases member

end

/-- In every interleaving each type has one client, the count is that of the entries and the ids are
all different, exactly when no caller makes a client for a type that has got one since it looked, and
not all 2 ^ 31 types get one. -/
theorem one_client_iff_unmade (labels : List Label) :
    Always step Exact fresh labels ↔ Guarded step Unmade fresh labels :=
  always_iff_guarded (fun _ label _ sound unmade taken => step_sound label sound unmade taken)
    (fun _ sound => sound_exact sound)
    (fun _ label sound made => second_client_miscounts label sound made) labels fresh fresh_sound

/-- Two callers look for the client of type 3 before either has made it. -/
def twoCallers : List Label := [.find 3, .find 3, .make 3, .make 3]

theorem two_callers_two_clients : ¬ ∀ labels, Always step Exact fresh labels := by
  intro always_exact
  have exact := always_exact twoCallers twoCallers [] _ (List.append_nil _) rfl
  have same := exact.same 3 0 1 (by decide) (by decide)
  cases same

end OtaMqtt.Mqtt.Clients
