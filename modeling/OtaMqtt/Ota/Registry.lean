import Mathlib.Data.FinEnum
import Mathlib.Data.Set.Card
import OtaMqtt.Lib.Trace
import OtaMqtt.Ota.Manager

/-! The device registry over whole runs of `add_device` and `remove_device`. -/

namespace OtaMqtt.Ota.Registry

open OtaMqtt.Lib.Trace OtaMqtt.Ota

inductive Kind where
  | add
  | remove
  deriving DecidableEq

structure Call where
  kind : Kind
  deviceType : UInt16
  deviceNo : UInt32
  deriving DecidableEq

def perform (manager : OTAManager) (call : Call) : Bool × OTAManager :=
  match call.kind with
  | .add => manager.addDevice call.deviceType call.deviceNo
  | .remove => manager.removeDevice call.deviceType call.deviceNo

structure Record where
  before : OTAManager
  call : Call
  answer : Bool
  after : OTAManager

/-- `log` has the newest call first. -/
structure World where
  manager : OTAManager
  log : List Record

def World.fresh (now : UInt64) : World := ⟨.fresh now, []⟩

def step (world : World) (call : Call) : Option World :=
  let (answer, manager) := perform world.manager call
  some ⟨manager, ⟨world.manager, call, answer, manager⟩ :: world.log⟩

def lastSuccess (log : List Record) (deviceType : UInt16) (deviceNo : UInt32) : Option Kind :=
  match log with
  | [] => none
  | record :: log =>
      if record.answer = true ∧ record.call.deviceType = deviceType ∧ record.call.deviceNo = deviceNo then
        some record.call.kind
      else lastSuccess log deviceType deviceNo

def devices (manager : OTAManager) : Set (UInt16 × UInt32) :=
  { device | manager.checkDevice device.1 device.2 = true }

def types (manager : OTAManager) : Set UInt16 :=
  { deviceType | ∃ deviceNo, manager.checkDevice deviceType deviceNo = true }

def Due (manager : OTAManager) (call : Call) : Prop :=
  match call.kind with
  | .add => manager.checkDevice call.deviceType call.deviceNo = false
  | .remove => manager.checkDevice call.deviceType call.deviceNo = true

structure Honest (record : Record) : Prop where
  answered : record.answer = true ↔ Due record.before record.call
  unchanged : record.answer = false → record.after = record.before

structure Counted (manager : OTAManager) : Prop where
  deviceTotal : manager.deviceCounts.toNat = (devices manager).ncard
  typeTotal : manager.deviceTypesCounts.toNat = (types manager).ncard
  inhabited : ∀ deviceType numbers, manager.deviceTypeNums.lookup deviceType = some numbers →
    numbers.Nonempty

structure Exact (world : World) : Prop extends Counted world.manager where
  checked : ∀ deviceType deviceNo, world.manager.checkDevice deviceType deviceNo = true ↔
    lastSuccess world.log deviceType deviceNo = some .add
  honest : ∀ record ∈ world.log, Honest record

/-- `remove_device` names a registered number, or one of a type that has no devices. -/
def Known (world : World) (call : Call) : Prop :=
  call.kind = .remove → world.manager.deviceTypeNums.lookup call.deviceType ≠ none →
    world.manager.checkDevice call.deviceType call.deviceNo = true

instance (world : World) (call : Call) : Decidable (Known world call) :=
  inferInstanceAs (Decidable (_ → _ → _))

structure Within (few : Finset UInt16) (world : World) : Prop extends Exact world where
  named : types world.manager ⊆ few

section
variable {manager : OTAManager}

theorem checkDevice_iff (deviceType : UInt16) (deviceNo : UInt32) :
    manager.checkDevice deviceType deviceNo = true ↔
      ∃ numbers, manager.deviceTypeNums.lookup deviceType = some numbers ∧ deviceNo ∈ numbers := by
  unfold OTAManager.checkDevice
  cases manager.deviceTypeNums.lookup deviceType with
  | none => simp
  | some numbers => simp

theorem types_mem (inhabited : ∀ deviceType numbers,
    manager.deviceTypeNums.lookup deviceType = some numbers → numbers.Nonempty) (deviceType : UInt16) :
    deviceType ∈ types manager ↔ manager.deviceTypeNums.lookup deviceType ≠ none := by
  constructor
  · rintro ⟨deviceNo, registered⟩ missing
    obtain ⟨numbers, found, -⟩ := (checkDevice_iff deviceType deviceNo).mp registered
    rw [missing] at found
    cases found
  · intro known
    obtain ⟨numbers, found⟩ := Option.ne_none_iff_exists'.mp known
    obtain ⟨deviceNo, member⟩ := inhabited deviceType numbers found
    exact ⟨deviceNo, (checkDevice_iff deviceType deviceNo).mpr ⟨numbers, found, member⟩⟩

theorem checkDevice_insert (deviceType : UInt16) (numbers : Finset UInt32) (next : OTAManager)
    (replaced : next.deviceTypeNums = manager.deviceTypeNums.insert deviceType numbers)
    (other : UInt16) (deviceNo : UInt32) :
    next.checkDevice other deviceNo = true ↔
      if other = deviceType then deviceNo ∈ numbers else manager.checkDevice other deviceNo = true := by
  unfold OTAManager.checkDevice
  rw [replaced]
  by_cases same : other = deviceType
  · rw [if_pos same, same, AList.lookup_insert, decide_eq_true_iff]
  · rw [if_neg same, AList.lookup_insert_ne same]

theorem devices_bound : (devices manager).ncard ≤ 2 ^ 48 := by
  have types : Nat.card UInt16 = 2 ^ 16 := by
    rw [Nat.card_congr ⟨UInt16.toFin, UInt16.ofFin, fun _ => rfl, fun _ => rfl⟩, Nat.card_fin]
    rfl
  have numbers : Nat.card UInt32 = 2 ^ 32 := by
    rw [Nat.card_congr ⟨UInt32.toFin, UInt32.ofFin, fun _ => rfl, fun _ => rfl⟩, Nat.card_fin]
    rfl
  calc (devices manager).ncard ≤ (Set.univ : Set (UInt16 × UInt32)).ncard :=
        Set.ncard_le_ncard (Set.subset_univ _) (Set.toFinite _)
    _ = Nat.card UInt16 * Nat.card UInt32 := by rw [Set.ncard_univ, Nat.card_prod]
    _ ≤ 2 ^ 48 := by
      rw [types, numbers]
      norm_num

theorem counts_succ (count : UInt64) (total : Nat) (is : count.toNat = total) (small : total ≤ 2 ^ 48) :
    (count + 1).toNat = total + 1 := by
  rw [UInt64.toNat_add, UInt64.toNat_one]
  omega

theorem counts_pred (count : UInt64) (total : Nat) (is : count.toNat = total + 1) :
    (count - 1).toNat = total := by
  have small := count.toNat_lt
  rw [UInt64.toNat_sub, UInt64.toNat_one]
  omega

theorem typeCounts_succ (count : UInt16) (total : Nat) (is : count.toNat = total)
    (small : total + 1 < 2 ^ 16) : (count + 1).toNat = total + 1 := by
  rw [UInt16.toNat_add, UInt16.toNat_one]
  omega

theorem typeCounts_pred (count : UInt16) (total : Nat) (is : count.toNat = total + 1) :
    (count - 1).toNat = total := by
  have small := count.toNat_lt
  rw [UInt16.toNat_sub, UInt16.toNat_one]
  omega

structure Added (manager next : OTAManager) (deviceType : UInt16) (deviceNo : UInt32) : Prop where
  devices : devices next = insert (deviceType, deviceNo) (devices manager)
  counts : next.deviceCounts = manager.deviceCounts + 1
  typeCounts : next.deviceTypesCounts = if manager.deviceTypeNums.lookup deviceType = none then
    manager.deviceTypesCounts + 1 else manager.deviceTypesCounts
  inhabited : ∀ other numbers, next.deviceTypeNums.lookup other = some numbers → numbers.Nonempty

structure Removed (manager next : OTAManager) (deviceType : UInt16) (deviceNo : UInt32) : Prop where
  devices : devices next = devices manager \ {(deviceType, deviceNo)}
  counts : next.deviceCounts = manager.deviceCounts - 1
  typeCounts : next.deviceTypesCounts = if next.deviceTypeNums.lookup deviceType = none then
    manager.deviceTypesCounts - 1 else manager.deviceTypesCounts
  inhabited : ∀ other numbers, next.deviceTypeNums.lookup other = some numbers → numbers.Nonempty

theorem inhabited_insert (counted : Counted manager) (deviceType : UInt16) (numbers : Finset UInt32)
    (some : numbers.Nonempty) (other : UInt16) (found : Finset UInt32)
    (looked : (manager.deviceTypeNums.insert deviceType numbers).lookup other = .some found) :
    found.Nonempty := by
  by_cases same : other = deviceType
  · rw [same, AList.lookup_insert] at looked
    cases looked
    exact some
  · rw [AList.lookup_insert_ne same] at looked
    exact counted.inhabited other found looked

theorem checkDevice_known {deviceType : UInt16} {numbers : Finset UInt32}
    (looked : manager.deviceTypeNums.lookup deviceType = some numbers) (number : UInt32) :
    manager.checkDevice deviceType number = decide (number ∈ numbers) := by
  rw [OTAManager.checkDevice, looked]

theorem addDevice_cases (deviceType : UInt16) (deviceNo : UInt32) (counted : Counted manager) :
    (manager.checkDevice deviceType deviceNo = true ∧
      manager.addDevice deviceType deviceNo = (false, manager)) ∨
    (manager.checkDevice deviceType deviceNo = false ∧ ∃ next,
      manager.addDevice deviceType deviceNo = (true, next) ∧
        Added manager next deviceType deviceNo) := by
  unfold OTAManager.addDevice
  cases looked : manager.deviceTypeNums.lookup deviceType with
  | none =>
      right
      have absent : ∀ number, manager.checkDevice deviceType number = false := by
        intro number
        rw [OTAManager.checkDevice, looked]
      refine ⟨absent deviceNo, _, rfl, ?_, rfl, by rw [if_pos looked],
        inhabited_insert counted deviceType _ (Finset.singleton_nonempty deviceNo)⟩
      ext ⟨other, number⟩
      rw [devices, Set.mem_ofPred_eq, checkDevice_insert deviceType {deviceNo} _ rfl, Set.mem_insert_iff,
        Prod.mk.injEq]
      by_cases same : other = deviceType
      · simp [same, devices, absent]
      · simp [same, devices]
  | some numbers =>
      dsimp only
      by_cases member : deviceNo ∈ numbers
      · left
        rw [if_pos member]
        exact ⟨(checkDevice_iff deviceType deviceNo).mpr ⟨numbers, looked, member⟩, rfl⟩
      · right
        have here := checkDevice_known looked
        rw [if_neg member]
        refine ⟨by rw [here, decide_eq_false member], _, rfl, ?_, rfl,
          by rw [looked, if_neg (Option.some_ne_none _)],
          inhabited_insert counted deviceType _ (Finset.insert_nonempty deviceNo numbers)⟩
        ext ⟨other, number⟩
        rw [devices, Set.mem_ofPred_eq, checkDevice_insert deviceType (insert deviceNo numbers) _ rfl,
          Set.mem_insert_iff, Prod.mk.injEq]
        by_cases same : other = deviceType
        · simp [same, devices, here]
        · simp [same, devices]

section
variable {deviceType : UInt16} {deviceNo : UInt32} {numbers : Finset UInt32}

theorem removed_last (counted : Counted manager)
    (looked : manager.deviceTypeNums.lookup deviceType = some numbers)
    (last : (numbers.erase deviceNo).card = 0) :
    Removed manager { manager with
      deviceTypesCounts := manager.deviceTypesCounts - 1
      deviceCounts := manager.deviceCounts - 1
      deviceTypeNums := manager.deviceTypeNums.erase deviceType } deviceType deviceNo := by
  have here := checkDevice_known looked
  have alone : ∀ number ∈ numbers, number = deviceNo := by
    intro number other
    by_contra apart
    have left := Finset.mem_erase.mpr ⟨apart, other⟩
    rw [Finset.card_eq_zero.mp last] at left
    exact Finset.notMem_empty number left
  refine ⟨?_, rfl, ?_, fun other found looked' => ?_⟩
  · ext ⟨other, number⟩
    simp only [devices, Set.mem_ofPred_eq, Set.mem_sdiff, Set.mem_singleton_iff, Prod.mk.injEq]
    by_cases same : other = deviceType
    · rw [same, here, OTAManager.checkDevice, AList.lookup_erase]
      simp only [Bool.false_eq_true, decide_eq_true_eq, true_and, false_iff, not_and, not_not]
      exact alone number
    · rw [OTAManager.checkDevice, AList.lookup_erase_ne same]
      simp [same, OTAManager.checkDevice]
  · rw [if_pos]
    exact AList.lookup_erase _ _
  · dsimp only at looked'
    by_cases same : other = deviceType
    · rw [same, AList.lookup_erase] at looked'
      cases looked'
    · rw [AList.lookup_erase_ne same] at looked'
      exact counted.inhabited other found looked'

theorem removed_other (counted : Counted manager)
    (looked : manager.deviceTypeNums.lookup deviceType = some numbers)
    (more : (numbers.erase deviceNo).card ≠ 0) :
    Removed manager { manager with
      deviceCounts := manager.deviceCounts - 1
      deviceTypeNums := manager.deviceTypeNums.insert deviceType (numbers.erase deviceNo) }
      deviceType deviceNo := by
  have here := checkDevice_known looked
  have some : (numbers.erase deviceNo).Nonempty := Finset.card_pos.mp (Nat.pos_of_ne_zero more)
  refine ⟨?_, rfl, ?_, inhabited_insert counted deviceType _ some⟩
  · ext ⟨other, number⟩
    rw [devices, Set.mem_ofPred_eq, checkDevice_insert deviceType (numbers.erase deviceNo) _ rfl,
      Set.mem_sdiff, Set.mem_singleton_iff, Prod.mk.injEq]
    by_cases same : other = deviceType
    · simp [same, devices, here, and_comm]
    · simp [same, devices]
  · rw [if_neg]
    dsimp only
    rw [AList.lookup_insert]
    exact Option.some_ne_none _

end

theorem removeDevice_cases (deviceType : UInt16) (deviceNo : UInt32) (counted : Counted manager) :
    (manager.deviceTypeNums.lookup deviceType = none ∧
      manager.checkDevice deviceType deviceNo = false ∧
      manager.removeDevice deviceType deviceNo = (false, manager)) ∨
    (manager.checkDevice deviceType deviceNo = true ∧ ∃ next,
      manager.removeDevice deviceType deviceNo = (true, next) ∧
        Removed manager next deviceType deviceNo) ∨
    (manager.deviceTypeNums.lookup deviceType ≠ none ∧
      manager.checkDevice deviceType deviceNo = false ∧ ∃ next,
      manager.removeDevice deviceType deviceNo = (false, next) ∧
        next.checkDevice deviceType deviceNo = true) := by
  unfold OTAManager.removeDevice
  cases looked : manager.deviceTypeNums.lookup deviceType with
  | none =>
      left
      refine ⟨rfl, ?_, rfl⟩
      rw [OTAManager.checkDevice, looked]
  | some numbers =>
      right
      have here := checkDevice_known looked
      dsimp only
      by_cases member : deviceNo ∈ numbers
      · left
        rw [if_pos member]
        refine ⟨by rw [here, decide_eq_true member], ?_⟩
        by_cases last : (numbers.erase deviceNo).card = 0
        · rw [if_pos last]
          exact ⟨_, rfl, removed_last counted looked last⟩
        · rw [if_neg last]
          exact ⟨_, rfl, removed_other counted looked last⟩
      · right
        rw [if_neg member]
        refine ⟨Option.some_ne_none _, by rw [here, decide_eq_false member], _, rfl, ?_⟩
        rw [checkDevice_insert deviceType (insert deviceNo numbers) _ rfl, if_pos rfl]
        exact Finset.mem_insert_self deviceNo numbers

theorem added_counted {next : OTAManager} {few : Finset UInt16} (deviceType : UInt16)
    (deviceNo : UInt32) (counted : Counted manager) (named : types manager ⊆ few)
    (inside : deviceType ∈ few) (small : few.card < 2 ^ 16)
    (absent : manager.checkDevice deviceType deviceNo = false)
    (added : Added manager next deviceType deviceNo) : Counted next ∧ types next ⊆ few := by
  have outside : (deviceType, deviceNo) ∉ devices manager := by
    intro member
    rw [devices, Set.mem_ofPred_eq, absent] at member
    cases member
  have grown : types next = insert deviceType (types manager) := by
    ext other
    have device : ∀ number, next.checkDevice other number = true ↔
        (other = deviceType ∧ number = deviceNo) ∨ manager.checkDevice other number = true := by
      intro number
      have member := Set.ext_iff.mp added.devices (other, number)
      rwa [Set.mem_insert_iff, Prod.mk.injEq] at member
    simp only [types, Set.mem_ofPred_eq, Set.mem_insert_iff, device, exists_or, exists_and_left,
      exists_eq, and_true]
  have named' : types next ⊆ few := by
    rw [grown]
    exact Set.insert_subset inside named
  refine ⟨⟨?_, ?_, added.inhabited⟩, named'⟩
  · rw [added.devices, Set.ncard_insert_of_notMem outside (Set.toFinite _), added.counts]
    exact counts_succ _ _ counted.deviceTotal devices_bound
  · have room : (types next).ncard ≤ few.card := by
      rw [← Set.ncard_coe_finset few]
      exact Set.ncard_le_ncard named' (Set.toFinite _)
    rw [added.typeCounts]
    split
    · rename_i missing
      have new : deviceType ∉ types manager := fun member =>
        (types_mem counted.inhabited deviceType).mp member missing
      have one := Set.ncard_insert_of_notMem new (Set.toFinite _)
      rw [grown, one] at room ⊢
      exact typeCounts_succ _ _ counted.typeTotal (by omega)
    · rename_i known
      rw [grown, Set.insert_eq_of_mem ((types_mem counted.inhabited deviceType).mpr known),
        counted.typeTotal]

theorem removed_counted {next : OTAManager} (deviceType : UInt16) (deviceNo : UInt32)
    (counted : Counted manager) (present : manager.checkDevice deviceType deviceNo = true)
    (removed : Removed manager next deviceType deviceNo) :
    Counted next ∧ types next ⊆ types manager := by
  have device : ∀ other number, next.checkDevice other number = true ↔
      manager.checkDevice other number = true ∧ ¬ (other = deviceType ∧ number = deviceNo) := by
    intro other number
    have member := Set.ext_iff.mp removed.devices (other, number)
    rwa [Set.mem_sdiff, Set.mem_singleton_iff, Prod.mk.injEq] at member
  have shrunk : types next ⊆ types manager := by
    rintro other ⟨number, registered⟩
    exact ⟨number, ((device other number).mp registered).1⟩
  have others : ∀ other, other ≠ deviceType → other ∈ types manager → other ∈ types next := by
    rintro other apart ⟨number, registered⟩
    exact ⟨number, (device other number).mpr ⟨registered, fun same => apart same.1⟩⟩
  have known : deviceType ∈ types manager := ⟨deviceNo, present⟩
  refine ⟨⟨?_, ?_, removed.inhabited⟩, shrunk⟩
  · have one := Set.ncard_sdiff_singleton_add_one (show (deviceType, deviceNo) ∈ devices manager from
      present) (Set.toFinite _)
    rw [removed.devices, removed.counts]
    exact counts_pred _ _ (counted.deviceTotal.trans one.symm)
  · rw [removed.typeCounts]
    split
    · rename_i missing
      have rest : types next = types manager \ {deviceType} := by
        ext other
        rw [Set.mem_sdiff, Set.mem_singleton_iff]
        constructor
        · intro member
          refine ⟨shrunk member, fun same => ?_⟩
          exact (types_mem removed.inhabited deviceType).mp (same ▸ member) missing
        · exact fun both => others other both.2 both.1
      have one := Set.ncard_sdiff_singleton_add_one known (Set.toFinite _)
      rw [rest]
      exact typeCounts_pred _ _ (counted.typeTotal.trans one.symm)
    · rename_i left
      have rest : types next = types manager := by
        apply Set.Subset.antisymm shrunk
        intro other member
        by_cases same : other = deviceType
        · rw [same]
          exact (types_mem removed.inhabited deviceType).mpr left
        · exact others other same member
      rw [rest, counted.typeTotal]

end

theorem fresh_counted (now : UInt64) : Counted (.fresh now) := by
  have none : devices (.fresh now) = ∅ := by
    ext device
    simp [devices, OTAManager.checkDevice, OTAManager.fresh]
  have none' : types (.fresh now) = ∅ := by
    ext deviceType
    simp [types, OTAManager.checkDevice, OTAManager.fresh]
  refine ⟨?_, ?_, fun deviceType numbers looked => ?_⟩
  · rw [none, Set.ncard_empty]
    rfl
  · rw [none', Set.ncard_empty]
    rfl
  · simp [OTAManager.fresh] at looked

theorem fresh_within (now : UInt64) (few : Finset UInt16) : Within few (.fresh now) where
  toCounted := fresh_counted now
  checked := by
    intro deviceType deviceNo
    simp [World.fresh, lastSuccess, OTAManager.checkDevice, OTAManager.fresh]
  honest := by
    intro record member
    cases member
  named := by
    rintro deviceType ⟨deviceNo, registered⟩
    simp [World.fresh, OTAManager.checkDevice, OTAManager.fresh] at registered

section
variable {world : World} {few : Finset UInt16} (call : Call)

theorem lastSuccess_failed (next : OTAManager) (deviceType : UInt16) (deviceNo : UInt32) :
    lastSuccess (⟨world.manager, call, false, next⟩ :: world.log) deviceType deviceNo =
      lastSuccess world.log deviceType deviceNo := by
  rw [lastSuccess, if_neg]
  exact fun success => Bool.false_ne_true success.1

theorem lastSuccess_done (next : OTAManager) (deviceType : UInt16) (deviceNo : UInt32) :
    lastSuccess (⟨world.manager, call, true, next⟩ :: world.log) deviceType deviceNo =
      if call.deviceType = deviceType ∧ call.deviceNo = deviceNo then some call.kind
      else lastSuccess world.log deviceType deviceNo := by
  rw [lastSuccess]
  simp only [true_and]

theorem honest_cons (record : Record) (within : Within few world) (honest : Honest record) :
    ∀ other ∈ record :: world.log, Honest other := by
  intro other member
  rcases List.mem_cons.mp member with rfl | old
  · exact honest
  · exact within.honest other old

theorem failed_within (within : Within few world) (refused : ¬ Due world.manager call) :
    Within few ⟨world.manager, ⟨world.manager, call, false, world.manager⟩ :: world.log⟩ where
  toCounted := within.toCounted
  checked := by
    intro deviceType deviceNo
    dsimp only
    rw [lastSuccess_failed, within.checked]
  honest := by
    apply honest_cons _ within
    refine ⟨⟨fun answered => ?_, fun due => absurd due refused⟩, fun _ => rfl⟩
    cases answered
  named := within.named

theorem added_within (next : OTAManager) (within : Within few world) (kind : call.kind = .add)
    (inside : call.deviceType ∈ few) (small : few.card < 2 ^ 16)
    (absent : world.manager.checkDevice call.deviceType call.deviceNo = false)
    (added : Added world.manager next call.deviceType call.deviceNo) :
    Within few ⟨next, ⟨world.manager, call, true, next⟩ :: world.log⟩ := by
  obtain ⟨counted, named⟩ := added_counted call.deviceType call.deviceNo within.toCounted within.named
    inside small absent added
  refine ⟨⟨counted, fun deviceType deviceNo => ?_, honest_cons _ within ⟨?_, fun failed => ?_⟩⟩, named⟩
  · have member := Set.ext_iff.mp added.devices (deviceType, deviceNo)
    have old := within.checked deviceType deviceNo
    simp only [devices, Set.mem_ofPred_eq, Set.mem_insert_iff, Prod.mk.injEq] at member
    dsimp only
    rw [lastSuccess_done, member, kind, @eq_comm _ deviceType, @eq_comm _ deviceNo]
    split
    · rename_i same
      exact ⟨fun _ => rfl, fun _ => .inl same⟩
    · rename_i apart
      rw [or_iff_right apart, old]
  · refine ⟨fun _ => ?_, fun _ => rfl⟩
    rw [Due, kind]
    exact absent
  · cases failed

theorem removed_within (next : OTAManager) (within : Within few world) (kind : call.kind = .remove)
    (present : world.manager.checkDevice call.deviceType call.deviceNo = true)
    (removed : Removed world.manager next call.deviceType call.deviceNo) :
    Within few ⟨next, ⟨world.manager, call, true, next⟩ :: world.log⟩ := by
  obtain ⟨counted, fewer⟩ := removed_counted call.deviceType call.deviceNo within.toCounted present
    removed
  refine ⟨⟨counted, fun deviceType deviceNo => ?_, honest_cons _ within ⟨?_, fun failed => ?_⟩⟩,
    fewer.trans within.named⟩
  · have member := Set.ext_iff.mp removed.devices (deviceType, deviceNo)
    have old := within.checked deviceType deviceNo
    simp only [devices, Set.mem_ofPred_eq, Set.mem_sdiff, Set.mem_singleton_iff, Prod.mk.injEq] at member
    dsimp only
    rw [lastSuccess_done, member, kind, @eq_comm _ deviceType, @eq_comm _ deviceNo]
    split
    · rename_i same
      exact ⟨fun both => absurd same both.2, fun is => by cases is⟩
    · rename_i apart
      rw [and_iff_left apart, old]
  · refine ⟨fun _ => ?_, fun _ => rfl⟩
    rw [Due, kind]
    exact present
  · cases failed

theorem step_within (next : World) (within : Within few world) (small : few.card < 2 ^ 16)
    (inside : call.deviceType ∈ few) (known : Known world call) (taken : step world call = some next) :
    Within few next := by
  unfold step perform at taken
  cases kind : call.kind with
  | add =>
      rw [kind] at taken
      rcases addDevice_cases call.deviceType call.deviceNo within.toCounted with
        ⟨present, failed⟩ | ⟨absent, after, done, added⟩
      · rw [failed] at taken
        cases taken
        apply failed_within call within
        rw [Due, kind, present]
        exact Bool.noConfusion
      · rw [done] at taken
        cases taken
        exact added_within call after within kind inside small absent added
  | remove =>
      rw [kind] at taken
      rcases removeDevice_cases call.deviceType call.deviceNo within.toCounted with
        ⟨-, absent, failed⟩ | ⟨present, after, done, removed⟩ | ⟨registered, absent, -⟩
      · rw [failed] at taken
        cases taken
        apply failed_within call within
        rw [Due, kind, absent]
        exact Bool.noConfusion
      · rw [done] at taken
        cases taken
        exact removed_within call after within kind present removed
      · have present := known kind registered
        rw [absent] at present
        cases present

theorem unknown_changes (within : Within few world) (unknown : ¬ Known world call) :
    ∃ next, step world call = some next ∧ ¬ Exact next := by
  simp only [Known, Classical.not_imp] at unknown
  obtain ⟨kind, registered, absent⟩ := unknown
  refine ⟨_, rfl, fun exact => ?_⟩
  have honest := exact.honest _ List.mem_cons_self
  rw [kind] at honest
  rcases removeDevice_cases call.deviceType call.deviceNo within.toCounted with
    ⟨missing, -⟩ | ⟨present, -⟩ | ⟨-, -, after, failed, inserted⟩
  · exact registered missing
  · exact absent present
  · have unchanged := honest.unchanged
    simp only [failed] at unchanged
    rw [unchanged trivial] at inserted
    exact absent inserted

end

/-- In a run over fewer than 65536 types the registry is exact throughout exactly when every
`remove_device` names a registered number or a type without devices. -/
theorem exact_iff_known (now : UInt64) (calls : List Call)
    (few : (calls.map Call.deviceType).toFinset.card < 65536) :
    Always step Exact (.fresh now) calls ↔ Guarded step Known (.fresh now) calls := by
  have within : Guarded step
      (fun _ call => call.deviceType ∈ (calls.map Call.deviceType).toFinset) (.fresh now) calls :=
    guarded_of_forall calls (World.fresh now) fun _ call member =>
      List.mem_toFinset.mpr (List.mem_map_of_mem member)
  exact always_iff_guarded_within
    (fun _ call next holds inside known taken => step_within call next holds few inside known taken)
    (fun _ holds => holds.toExact) (fun _ call holds _ unknown => unknown_changes call holds unknown)
    calls (.fresh now) (fresh_within now _) within

def strayRemoval : List Call := [⟨.add, 1, 1⟩, ⟨.remove, 1, 2⟩]

theorem stray_removal_registers :
    ¬ ∀ (now : UInt64) (calls : List Call), (calls.map Call.deviceType).toFinset.card < 65536 →
      Always step Exact (.fresh now) calls := by
  intro always_exact
  have exact := always_exact 0 strayRemoval (by decide) strayRemoval [] _ (List.append_nil _) rfl
  have unchanged := (exact.honest _ List.mem_cons_self).unchanged rfl
  have counted := congrArg OTAManager.deviceCounts unchanged
  revert counted
  decide

def twoDevices : List Call :=
  [⟨.add, 1, 1⟩, ⟨.add, 1, 2⟩, ⟨.add, 1, 2⟩, ⟨.remove, 1, 1⟩, ⟨.remove, 7, 1⟩, ⟨.remove, 1, 2⟩,
    ⟨.add, 1, 1⟩]

theorem two_devices_exact : Always step Exact (.fresh 0) twoDevices :=
  (exact_iff_known 0 twoDevices (by decide)).mpr (by decide)

end OtaMqtt.Ota.Registry
