import OtaMqtt.Mqtt.Clients

/-! Who holds the clients of `MqttClientManager` (sherry/mqtt_client.cc), and when `delete_client`
lets one go.

Calls come one after another. A client lives as long as a `shared_ptr` to it: the entry of the map,
those that `get_client` has given to callers, and the locals of a running call. -/

namespace OtaMqtt.Mqtt.Holders

open OtaMqtt.Lib.Trace OtaMqtt.Mqtt.Clients

/-- `holders` names a client once for every pointer that a caller holds. -/
structure World where
  manager : MqttClientManager
  created : List String
  holders : List Nat

def fresh : World := ⟨.fresh, [], []⟩

/-- `use_count()`: the entries of the map, the pointers of the callers and the local ones. -/
def useCount (world : World) (locals : List Nat) (client : Nat) : Nat :=
  (world.manager.clients.entries.map Sigma.snd).count client + world.holders.count client +
    locals.count client

def getClient (world : World) (deviceType : Int32) : World :=
  if deviceType < 0 then world
  else match world.manager.findClient deviceType with
    | some client => { world with holders := client :: world.holders }
    | none => {
        manager := world.manager.makeClient deviceType world.created.length
        created := world.created ++ [world.manager.nextName]
        holders := world.created.length :: world.holders }

def dropEntry (manager : MqttClientManager) (deviceType : Int32) : MqttClientManager :=
  { manager with
    clients := manager.clients.erase deviceType
    clientNum := manager.clientNum - 1 }

/-- `cli` is a copy of the entry. -/
def deleteClient (world : World) (deviceType : Int32) : World :=
  match world.manager.findClient deviceType with
  | none => world
  | some cli =>
      if 1 < useCount world [cli] cli then world
      else { world with manager := dropEntry world.manager deviceType }

inductive Label where
  | get (deviceType : Int32)
  | delete (deviceType : Int32)
  | drop (client : Nat)
  deriving DecidableEq

def step (world : World) : Label → Option World
  | .get deviceType => some (getClient world deviceType)
  | .delete deviceType => some (deleteClient world deviceType)
  | .drop client =>
      if client ∈ world.holders then some { world with holders := world.holders.erase client } else none

def Unused (world : World) (deviceType : Int32) : Prop :=
  ∃ client, world.manager.findClient deviceType = some client ∧ client ∉ world.holders

/-- `delete_client` drops an unused client and does nothing else; `get_client` makes a client of a
new id for a type that has none. -/
def Proper (world : World) : Label → Prop
  | .get deviceType => 0 ≤ deviceType → world.manager.findClient deviceType = none →
      ∃ name, name ∉ world.created ∧ (getClient world deviceType).created = world.created ++ [name]
  | .delete deviceType =>
      (Unused world deviceType → deleteClient world deviceType =
        { world with manager := dropEntry world.manager deviceType }) ∧
      (¬ Unused world deviceType → deleteClient world deviceType = world)
  | .drop _ => True

/-- Nobody asks for an unused client to be deleted. -/
def Held (world : World) : Label → Prop
  | .get _ => True
  | .delete deviceType => ¬ Unused world deviceType
  | .drop _ => True

structure Sound (world : World) : Prop where
  natural : ∀ deviceType ∈ world.manager.clients.keys, 0 ≤ deviceType
  made : world.manager.clientId = Int32.ofNat world.manager.clients.keys.length
  names : world.created = (List.range world.manager.clients.keys.length).map toString

section
variable {world next : World} {deviceType : Int32}

/-- The entry and the local copy are two already: nothing is ever deleted. -/
theorem deleteClient_unchanged : deleteClient world deviceType = world := by
  unfold deleteClient
  split
  · rfl
  · rename_i client found
    have entry : client ∈ world.manager.clients.entries.map Sigma.snd := by
      have member := AList.mem_lookup_iff.mp (Option.mem_def.mpr found)
      exact List.mem_map_of_mem member
    have counted := List.count_pos_iff.mpr entry
    have copied : [client].count client = 1 := List.count_singleton_self
    rw [if_pos]
    unfold useCount
    omega

theorem delete_proper_iff_held : Proper world (.delete deviceType) ↔ Held world (.delete deviceType) := by
  constructor
  · intro proper unused
    have same := proper.1 unused
    obtain ⟨client, found, -⟩ := unused
    rw [deleteClient_unchanged] at same
    have gone := congrArg (fun world : World => world.manager.clients.lookup deviceType) same
    dsimp only [dropEntry] at gone
    rw [AList.lookup_erase, ← MqttClientManager.findClient, found] at gone
    cases gone
  · intro held
    exact ⟨fun unused => absurd unused held, fun _ => deleteClient_unchanged⟩

theorem keys_bound (keys : List Int32) (distinct : keys.Nodup) (natural : ∀ key ∈ keys, 0 ≤ key) :
    keys.length ≤ 2 ^ 31 := by
  have injective : ∀ first ∈ keys, ∀ second ∈ keys, first.toInt.toNat = second.toInt.toNat →
      first = second := by
    intro first member second member' same
    have low := Int32.le_iff_toInt_le.mp (natural first member)
    have low' := Int32.le_iff_toInt_le.mp (natural second member')
    rw [show (0 : Int32).toInt = 0 from rfl] at low low'
    exact Int32.toInt_inj.mp (by omega)
  have inside : (keys.map fun key => key.toInt.toNat).toFinset ⊆ Finset.range (2 ^ 31) := by
    intro number member
    obtain ⟨key, -, rfl⟩ := List.mem_map.mp (List.mem_toFinset.mp member)
    have high := key.toInt_lt
    exact Finset.mem_range.mpr (by omega)
  have nodup : (keys.map fun key => key.toInt.toNat).Nodup := distinct.map_on injective
  calc keys.length = (keys.map fun key => key.toInt.toNat).toFinset.card := by
        rw [List.toFinset_card_of_nodup nodup, List.length_map]
    _ ≤ (Finset.range (2 ^ 31)).card := Finset.card_le_card inside
    _ = 2 ^ 31 := Finset.card_range _

theorem nextName_eq (sound : Sound world) (natural : 0 ≤ deviceType)
    (missing : world.manager.findClient deviceType = none) :
    world.manager.nextName = toString world.manager.clients.keys.length := by
  have outside : deviceType ∉ world.manager.clients.keys := AList.lookup_eq_none.mp missing
  have bound := keys_bound (deviceType :: world.manager.clients.keys)
    (List.nodup_cons.mpr ⟨outside, world.manager.clients.keys_nodup⟩) (by
      intro key member
      rcases List.mem_cons.mp member with rfl | old
      · exact natural
      · exact sound.natural key old)
  rw [List.length_cons] at bound
  rw [MqttClientManager.nextName, sound.made, Int32.toInt_ofNat_of_lt (by omega)]
  rfl

theorem get_proper (sound : Sound world) : Proper world (.get deviceType) := by
  intro natural missing
  refine ⟨toString world.manager.clients.keys.length, ?_, ?_⟩
  · rw [sound.names]
    intro member
    obtain ⟨number, earlier, same⟩ := List.mem_map.mp member
    have below := List.mem_range.mp earlier
    rw [toString_injective same] at below
    exact Nat.lt_irrefl _ below
  · rw [getClient, if_neg (Int32.not_lt.mpr natural), missing, ← nextName_eq sound natural missing]

theorem get_sound (sound : Sound world) : Sound (getClient world deviceType) := by
  unfold getClient
  split
  · exact sound
  · rename_i natural
    split
    · exact ⟨sound.natural, sound.made, sound.names⟩
    · rename_i missing
      have longer := keys_insert_new world.manager.clients world.created.length missing
      refine ⟨fun key member => ?_, ?_, ?_⟩
      · dsimp only [MqttClientManager.makeClient] at member
        rw [AList.keys_insert] at member
        rcases List.mem_cons.mp member with rfl | old
        · exact Int32.not_lt.mp natural
        · exact sound.natural key (List.mem_of_mem_erase old)
      · dsimp only [MqttClientManager.makeClient]
        rw [longer, sound.made, Int32.ofNat_add]
        rfl
      · dsimp only [MqttClientManager.makeClient]
        rw [longer, List.range_succ, List.map_append, ← sound.names,
          nextName_eq sound (Int32.not_lt.mp natural) missing]
        rfl

theorem step_sound (label : Label) (sound : Sound world) (taken : step world label = some next) :
    Sound next := by
  cases label with
  | get deviceType =>
      cases taken
      exact get_sound sound
  | delete deviceType =>
      cases taken
      rw [deleteClient_unchanged]
      exact sound
  | drop client =>
      simp only [step] at taken
      split at taken
      · cases taken
        exact ⟨sound.natural, sound.made, sound.names⟩
      · cases taken

theorem proper_iff_held (label : Label) (sound : Sound world) :
    Proper world label ↔ Held world label := by
  cases label with
  | get deviceType => exact ⟨fun _ => trivial, fun _ => get_proper sound⟩
  | delete deviceType => exact delete_proper_iff_held
  | drop client => exact Iff.rfl

theorem fresh_sound : Sound fresh := by
  refine ⟨fun deviceType member => ?_, rfl, rfl⟩
  cases member

end

/-- A run deletes what it should, and only that, exactly when no call asks to delete a client that
nobody holds. -/
theorem deletions_proper_iff_held (labels : List Label) :
    Guarded step Proper fresh labels ↔ Guarded step Held fresh labels :=
  guarded_congr (fun _ label _ sound taken => step_sound label sound taken)
    (fun _ label sound => proper_iff_held label sound) labels fresh fresh_sound

/-- A client is made for type 3, given back by its only caller, and then to be deleted. -/
def unusedClient : List Label := [.get 3, .drop 0, .delete 3]

theorem unused_client_kept : ¬ ∀ labels, Guarded step Proper fresh labels := by
  intro always_proper
  have proper := ((always_proper unusedClient).2 _ rfl).2 _ rfl
  have deleted := proper.1.1 ⟨0, rfl, by decide⟩
  have emptied := congrArg (fun world : World => world.manager.clients.keys) deleted
  revert emptied
  decide

end OtaMqtt.Mqtt.Holders
