import OtaMqtt.Ota.Registry

/-! Concurrent calls of `add_device` and `remove_device` (sherry/ota_manager.cc).

`add_device` is one section under the write lock. `remove_device` looks under the read lock and
erases under the write lock later; any other section may come in between. -/

namespace OtaMqtt.Ota.Removals

open OtaMqtt.Lib.Trace OtaMqtt.Ota OtaMqtt.Ota.Registry

abbrev Device := UInt16 × UInt32

/-- What the first section of `remove_device` ends with. -/
inductive Found where
  | missing
  | inserted
  | registered
  deriving DecidableEq

/-- The section under the read lock; it inserts a number that it does not find. -/
def findDevice (manager : OTAManager) (deviceType : UInt16) (deviceNo : UInt32) :
    Found × OTAManager :=
  match manager.deviceTypeNums.lookup deviceType with
  | none => (.missing, manager)
  | some numbers =>
      if deviceNo ∈ numbers then (.registered, manager)
      else (.inserted, { manager with
        deviceCounts := manager.deviceCounts + 1
        deviceTypeNums := manager.deviceTypeNums.insert deviceType (insert deviceNo numbers) })

/-- The section under the write lock; `operator[]` makes a type that is missing. -/
def eraseDevice (manager : OTAManager) (deviceType : UInt16) (deviceNo : UInt32) : OTAManager :=
  let rest := ((manager.deviceTypeNums.lookup deviceType).getD ∅).erase deviceNo
  if rest.card = 0 then { manager with
    deviceTypesCounts := manager.deviceTypesCounts - 1
    deviceCounts := manager.deviceCounts - 1
    deviceTypeNums := manager.deviceTypeNums.erase deviceType }
  else { manager with
    deviceCounts := manager.deviceCounts - 1
    deviceTypeNums := manager.deviceTypeNums.insert deviceType rest }

/-- `pending` holds the devices that a caller has found and not erased yet, `added` and `removed`
count the calls that returned true, and `strays` are the devices that a failed `remove_device` has
inserted. -/
structure World where
  manager : OTAManager
  pending : List Device
  strays : Finset Device
  added : Device → Nat
  removed : Device → Nat

def World.fresh (now : UInt64) : World := ⟨.fresh now, [], ∅, fun _ => 0, fun _ => 0⟩

inductive Label where
  | add (device : Device)
  | find (device : Device)
  | erase (device : Device)
  deriving DecidableEq

def count (counts : Device → Nat) (device : Device) : Device → Nat :=
  Function.update counts device (counts device + 1)

def step (world : World) : Label → Option World
  | .add device =>
      let (answer, manager) := world.manager.addDevice device.1 device.2
      some { world with
        manager := manager
        added := if answer then count world.added device else world.added }
  | .find device =>
      match findDevice world.manager device.1 device.2 with
      | (.missing, _) => some world
      | (.inserted, manager) => some { world with
          manager := manager, strays := insert device world.strays }
      | (.registered, _) => some { world with pending := device :: world.pending }
  | .erase device =>
      if device ∈ world.pending then some { world with
        manager := eraseDevice world.manager device.1 device.2
        pending := world.pending.erase device
        strays := world.strays.erase device
        removed := count world.removed device }
      else none

def registered (world : World) (device : Device) : Bool :=
  world.manager.checkDevice device.1 device.2

/-- The counters are right, and no device was removed more often than it was added. -/
structure Exact (world : World) : Prop where
  devices : world.manager.deviceCounts.toNat = (devices world.manager).ncard
  types : world.manager.deviceTypesCounts.toNat = (types world.manager).ncard
  once : ∀ device, world.removed device ≤ world.added device

/-- A device that is erased is registered still, and by `add_device`; and there are not all 65536
types at once. -/
def Timely (world : World) : Label → Prop
  | .add device => world.manager.deviceTypeNums.lookup device.1 = none →
      world.manager.deviceTypesCounts ≠ 65535
  | .find _ => True
  | .erase device => device ∈ world.pending → registered world device = true ∧ device ∉ world.strays

instance (world : World) (label : Label) : Decidable (Timely world label) :=
  match label with
  | .add _ => inferInstanceAs (Decidable (_ → _))
  | .find _ => inferInstanceAs (Decidable True)
  | .erase _ => inferInstanceAs (Decidable (_ → _))

structure Sound (world : World) : Prop where
  counted : Counted world.manager
  present : ∀ device, registered world device = true → device ∉ world.strays →
    world.added device = world.removed device + 1
  absent : ∀ device, registered world device = false ∨ device ∈ world.strays →
    world.added device = world.removed device
  strays : ∀ device ∈ world.strays, registered world device = true

theorem removeDevice_sections (manager : OTAManager) (deviceType : UInt16) (deviceNo : UInt32) :
    manager.removeDevice deviceType deviceNo =
      match findDevice manager deviceType deviceNo with
      | (.missing, found) => (false, found)
      | (.inserted, found) => (false, found)
      | (.registered, found) => (true, eraseDevice found deviceType deviceNo) := by
  unfold OTAManager.removeDevice findDevice
  cases looked : manager.deviceTypeNums.lookup deviceType with
  | none => rfl
  | some numbers =>
      by_cases member : deviceNo ∈ numbers
      · simp only [if_pos member, eraseDevice, looked, Option.getD_some]
        split
        · rfl
        · rfl
      · simp only [if_neg member]

section
variable {manager : OTAManager} {deviceType : UInt16} {deviceNo : UInt32}

theorem findDevice_cases :
    (manager.checkDevice deviceType deviceNo = true ∧
      findDevice manager deviceType deviceNo = (.registered, manager)) ∨
    (manager.checkDevice deviceType deviceNo = false ∧
      findDevice manager deviceType deviceNo = (.missing, manager)) ∨
    (manager.deviceTypeNums.lookup deviceType ≠ none ∧
      manager.checkDevice deviceType deviceNo = false ∧ ∃ next,
        findDevice manager deviceType deviceNo = (.inserted, next) ∧
          manager.addDevice deviceType deviceNo = (true, next)) := by
  unfold findDevice OTAManager.checkDevice OTAManager.addDevice
  cases manager.deviceTypeNums.lookup deviceType with
  | none => exact .inr (.inl ⟨rfl, rfl⟩)
  | some numbers =>
      by_cases member : deviceNo ∈ numbers
      · simp [member]
      · simp [member]

theorem eraseDevice_removed (counted : Counted manager)
    (present : manager.checkDevice deviceType deviceNo = true) :
    Removed manager (eraseDevice manager deviceType deviceNo) deviceType deviceNo := by
  obtain ⟨numbers, looked, -⟩ := (checkDevice_iff deviceType deviceNo).mp present
  simp only [eraseDevice, looked, Option.getD_some]
  by_cases last : (numbers.erase deviceNo).card = 0
  · rw [if_pos last]
    exact removed_last counted looked last
  · rw [if_neg last]
    exact removed_other counted looked last

theorem devices_congr {next : OTAManager}
    (same : ∀ other, next.deviceTypeNums.lookup other = manager.deviceTypeNums.lookup other) :
    devices next = devices manager := by
  ext ⟨other, number⟩
  rw [devices, devices, Set.mem_ofPred_eq, Set.mem_ofPred_eq, OTAManager.checkDevice,
    OTAManager.checkDevice, same]

theorem eraseDevice_absent (counted : Counted manager)
    (absent : manager.checkDevice deviceType deviceNo = false) :
    devices (eraseDevice manager deviceType deviceNo) = devices manager ∧
      (eraseDevice manager deviceType deviceNo).deviceCounts = manager.deviceCounts - 1 := by
  cases looked : manager.deviceTypeNums.lookup deviceType with
  | none =>
      simp only [eraseDevice, looked, Option.getD_none, Finset.erase_empty, Finset.card_empty, if_true,
        and_true]
      apply devices_congr
      intro other
      by_cases same : other = deviceType
      · rw [same, looked]
        exact AList.lookup_erase _ _
      · exact AList.lookup_erase_ne same
  | some numbers =>
      have outside : deviceNo ∉ numbers := by
        intro member
        rw [(checkDevice_iff deviceType deviceNo).mpr ⟨numbers, looked, member⟩] at absent
        cases absent
      have some : ¬ numbers.card = 0 := fun none =>
        (counted.inhabited deviceType numbers looked).ne_empty (Finset.card_eq_zero.mp none)
      simp only [eraseDevice, looked, Option.getD_some, Finset.erase_eq_of_notMem outside, some, if_false,
        and_true]
      apply devices_congr
      intro other
      by_cases same : other = deviceType
      · rw [same, looked]
        exact AList.lookup_insert _
      · exact AList.lookup_insert_ne same

theorem added_counted_room {next : OTAManager} (counted : Counted manager)
    (room : manager.deviceTypeNums.lookup deviceType = none → manager.deviceTypesCounts ≠ 65535)
    (absent : manager.checkDevice deviceType deviceNo = false)
    (added : Added manager next deviceType deviceNo) : Counted next := by
  have below := manager.deviceTypesCounts.toNat_lt
  have total := counted.typeTotal
  have listed : (Set.toFinite (types manager)).toFinset.card = (types manager).ncard :=
    (Set.ncard_eq_toFinset_card _ _).symm
  have named : types manager ⊆ (insert deviceType (Set.toFinite (types manager)).toFinset : Finset UInt16) := by
    intro other member
    exact Finset.mem_coe.mpr (Finset.mem_insert_of_mem ((Set.Finite.mem_toFinset _).mpr member))
  have small : (insert deviceType (Set.toFinite (types manager)).toFinset).card < 2 ^ 16 := by
    by_cases known : deviceType ∈ types manager
    · rw [Finset.insert_eq_of_mem ((Set.Finite.mem_toFinset _).mpr known), listed]
      omega
    · have missing : manager.deviceTypeNums.lookup deviceType = none := by
        by_contra found
        exact known ((types_mem counted.inhabited deviceType).mpr found)
      have spare : manager.deviceTypesCounts.toNat ≠ 65535 := fun full =>
        room missing (UInt16.toNat_inj.mp full)
      have bound := Finset.card_insert_le deviceType (Set.toFinite (types manager)).toFinset
      omega
  exact (added_counted deviceType deviceNo counted named (Finset.mem_insert_self _ _) small absent
    added).1

end

section
variable {world next : World} {device : Device}

theorem registered_added (manager : OTAManager) (added : Added world.manager manager device.1 device.2)
    (other : Device) (apart : other ≠ device) :
    manager.checkDevice other.1 other.2 = registered world other := by
  have member := Set.ext_iff.mp added.devices other
  rw [Set.mem_insert_iff, or_iff_right apart] at member
  exact Bool.eq_iff_iff.mpr member

theorem registered_removed (manager : OTAManager)
    (removed : Removed world.manager manager device.1 device.2) (other : Device) (apart : other ≠ device) :
    manager.checkDevice other.1 other.2 = registered world other := by
  have member := Set.ext_iff.mp removed.devices other
  rw [Set.mem_sdiff, Set.mem_singleton_iff, and_iff_left apart] at member
  exact Bool.eq_iff_iff.mpr member

theorem sound_of_change (device : Device) (sound : Sound world) (counted : Counted next.manager)
    (others : ∀ other, other ≠ device → registered next other = registered world other ∧
      (other ∈ next.strays ↔ other ∈ world.strays) ∧ next.added other = world.added other ∧
      next.removed other = world.removed other)
    (present : registered next device = true → device ∉ next.strays →
      next.added device = next.removed device + 1)
    (absent : registered next device = false ∨ device ∈ next.strays →
      next.added device = next.removed device)
    (stray : device ∈ next.strays → registered next device = true) : Sound next := by
  refine ⟨counted, fun other => ?_, fun other => ?_, fun other => ?_⟩
  · by_cases same : other = device
    · rw [same]
      exact present
    · obtain ⟨here, strays, added, removed⟩ := others other same
      rw [here, strays, added, removed]
      exact sound.present other
  · by_cases same : other = device
    · rw [same]
      exact absent
    · obtain ⟨here, strays, added, removed⟩ := others other same
      rw [here, strays, added, removed]
      exact sound.absent other
  · by_cases same : other = device
    · rw [same]
      exact stray
    · obtain ⟨here, strays, -, -⟩ := others other same
      rw [here, strays]
      exact sound.strays other

theorem count_self (counts : Device → Nat) : count counts device device = counts device + 1 :=
  Function.update_self _ _ _

theorem count_other (counts : Device → Nat) (other : Device) (apart : other ≠ device) :
    count counts device other = counts other :=
  Function.update_of_ne apart _ _

theorem add_sound (sound : Sound world) (timely : Timely world (.add device))
    (taken : step world (.add device) = some next) : Sound next := by
  rcases addDevice_cases device.1 device.2 sound.counted with ⟨-, refused⟩ | ⟨absent, manager, done, added⟩
  · simp only [step, refused] at taken
    cases taken
    exact sound
  · simp only [step, done, if_true] at taken
    cases taken
    have new : device ∉ world.strays := fun stray => by
      have here := sound.strays device stray
      rw [registered, absent] at here
      cases here
    have there : manager.checkDevice device.1 device.2 = true :=
      (Set.ext_iff.mp added.devices device).mpr (Set.mem_insert _ _)
    have even := sound.absent device (.inl absent)
    apply sound_of_change device sound
    · exact added_counted_room sound.counted timely absent added
    · intro other apart
      exact ⟨registered_added manager added other apart, Iff.rfl, count_other _ other apart, rfl⟩
    · intro _ _
      dsimp only
      rw [count_self, even]
    · intro gone
      rcases gone with gone | stray
      · rw [registered, there] at gone
        cases gone
      · exact absurd stray new
    · intro stray
      exact absurd stray new

theorem find_sound (sound : Sound world) (taken : step world (.find device) = some next) : Sound next := by
  rcases @findDevice_cases world.manager device.1 device.2 with
    ⟨-, found⟩ | ⟨-, found⟩ | ⟨known, absent, manager, found, done⟩
  · simp only [step, found] at taken
    cases taken
    exact ⟨sound.counted, sound.present, sound.absent, sound.strays⟩
  · simp only [step, found] at taken
    cases taken
    exact sound
  · simp only [step, found] at taken
    cases taken
    rcases addDevice_cases device.1 device.2 sound.counted with ⟨-, refused⟩ | ⟨-, other, done', added⟩
    · rw [refused] at done
      cases done
    · rw [done] at done'
      cases done'
      have there : manager.checkDevice device.1 device.2 = true :=
        (Set.ext_iff.mp added.devices device).mpr (Set.mem_insert _ _)
      apply sound_of_change device sound
      · exact added_counted_room sound.counted (fun missing => absurd missing known) absent added
      · intro other apart
        refine ⟨registered_added manager added other apart, ?_, rfl, rfl⟩
        rw [Finset.mem_insert, or_iff_right apart]
      · intro _ outside
        exact absurd (Finset.mem_insert_self _ _) outside
      · intro _
        exact sound.absent device (.inl absent)
      · intro _
        exact there

theorem erase_sound (sound : Sound world) (timely : Timely world (.erase device))
    (taken : step world (.erase device) = some next) : Sound next := by
  by_cases waits : device ∈ world.pending
  · obtain ⟨here, own⟩ := timely waits
    simp only [step, if_pos waits] at taken
    cases taken
    have removed := eraseDevice_removed sound.counted here
    have gone : (eraseDevice world.manager device.1 device.2).checkDevice device.1 device.2 = false := by
      rw [Bool.eq_false_iff]
      intro still
      exact ((Set.ext_iff.mp removed.devices device).mp still).2 rfl
    have once := sound.present device here own
    apply sound_of_change device sound
    · exact (removed_counted device.1 device.2 sound.counted here removed).1
    · intro other apart
      refine ⟨registered_removed _ removed other apart, ?_, rfl, count_other _ other apart⟩
      rw [Finset.mem_erase, and_iff_right apart]
    · intro still _
      rw [registered, gone] at still
      cases still
    · intro _
      dsimp only
      rw [count_self, once]
    · intro stray
      exact absurd rfl (Finset.ne_of_mem_erase stray)
  · simp only [step, if_neg waits] at taken
    cases taken

theorem step_sound (label : Label) (sound : Sound world) (timely : Timely world label)
    (taken : step world label = some next) : Sound next := by
  cases label with
  | add device => exact add_sound sound timely taken
  | find device => exact find_sound sound taken
  | erase device => exact erase_sound sound timely taken

theorem sound_exact (sound : Sound world) : Exact world := by
  refine ⟨sound.counted.deviceTotal, sound.counted.typeTotal, fun device => ?_⟩
  by_cases here : registered world device = true ∧ device ∉ world.strays
  · rw [sound.present device here.1 here.2]
    exact Nat.le_succ _
  · apply Nat.le_of_eq
    symm
    apply sound.absent device
    by_contra neither
    rw [not_or, Bool.not_eq_false] at neither
    exact here neither

/-- The 65536th type brings the counter of the types back to zero. -/
theorem crowded_add_wraps (sound : Sound world) (late : ¬ Timely world (.add device)) :
    ∃ next, step world (.add device) = some next ∧ ¬ Exact next := by
  simp only [Timely, Classical.not_imp, not_not] at late
  obtain ⟨missing, full⟩ := late
  rcases addDevice_cases device.1 device.2 sound.counted with ⟨present, -⟩ | ⟨-, manager, done, added⟩
  · rw [OTAManager.checkDevice, missing] at present
    cases present
  · have taken : step world (.add device) = some { world with
        manager := manager, added := count world.added device } := by
      simp only [step, done, if_true]
    refine ⟨_, taken, fun exact => ?_⟩
    have total := exact.types
    dsimp only at total
    rw [added.typeCounts, if_pos missing, full] at total
    have there : manager.checkDevice device.1 device.2 = true :=
      (Set.ext_iff.mp added.devices device).mpr (Set.mem_insert _ _)
    have none := (Set.ncard_eq_zero (Set.toFinite _)).mp total.symm
    have member : device.1 ∈ types manager := ⟨device.2, there⟩
    rw [none] at member
    exact member

/-- A second remover counts down once more than there are devices, and one that erases a stray
device returns true for a device that nobody added. -/
theorem late_erase_miscounts (sound : Sound world) (late : ¬ Timely world (.erase device)) :
    ∃ next, step world (.erase device) = some next ∧ ¬ Exact next := by
  simp only [Timely, Classical.not_imp] at late
  obtain ⟨waits, late⟩ := late
  refine ⟨_, if_pos waits, fun exact => ?_⟩
  by_cases here : registered world device = true
  · have stray : device ∈ world.strays := by
      by_contra own
      exact late ⟨here, own⟩
    have once := exact.once device
    dsimp only at once
    rw [count_self, sound.absent device (.inr stray)] at once
    omega
  · obtain ⟨same, fewer⟩ := eraseDevice_absent sound.counted (Bool.eq_false_iff.mpr here)
    have total := exact.devices
    dsimp only at total
    have bound := world.manager.deviceCounts.toNat_lt
    rw [same, fewer, ← sound.counted.deviceTotal, UInt64.toNat_sub, UInt64.toNat_one] at total
    omega

theorem late_breaks (label : Label) (sound : Sound world) (late : ¬ Timely world label) :
    ∃ next, step world label = some next ∧ ¬ Exact next := by
  cases label with
  | add device => exact crowded_add_wraps sound late
  | find device => exact absurd trivial late
  | erase device => exact late_erase_miscounts sound late

end

theorem fresh_sound (now : UInt64) : Sound (.fresh now) := by
  have none : ∀ device, registered (.fresh now) device = false := by
    intro device
    simp [registered, World.fresh, OTAManager.checkDevice, OTAManager.fresh]
  refine ⟨fresh_counted now, fun device here _ => ?_, fun device _ => rfl, fun device stray => ?_⟩
  · rw [none] at here
    cases here
  · exact absurd stray (Finset.notMem_empty device)

/-- The counters are right in every state, and no device is removed more often than it was added,
exactly when every caller of `remove_device` erases a device that is registered still, by
`add_device`, and the types never get to 65536. -/
theorem exact_iff_timely (now : UInt64) (labels : List Label) :
    Always step Exact (.fresh now) labels ↔ Guarded step Timely (.fresh now) labels :=
  always_iff_guarded (fun _ label _ sound timely taken => step_sound label sound timely taken)
    (fun _ sound => sound_exact sound) (fun _ label sound late => late_breaks label sound late) labels _
    (fresh_sound now)

/-- Two callers find the only device, and both erase it. -/
def twoRemovers : List Label :=
  [.add (1, 1), .find (1, 1), .find (1, 1), .erase (1, 1), .erase (1, 1)]

theorem two_removers_wrap :
    ¬ ∀ (now : UInt64) (labels : List Label), Always step Exact (.fresh now) labels := by
  intro always_exact
  have exact := always_exact 0 twoRemovers twoRemovers [] _ (List.append_nil _) rfl
  have once := exact.once (1, 1)
  revert once
  decide

end OtaMqtt.Ota.Removals
