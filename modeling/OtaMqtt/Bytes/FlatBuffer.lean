import OtaMqtt.Bytes.ByteArray
import OtaMqtt.Lib.Refinement

/-! `ByteArray` against a flat byte array with a cursor. -/

namespace OtaMqtt.Bytes.FlatBuffer

open OtaMqtt.Lib.Execution OtaMqtt.Lib.Ring OtaMqtt.Lib.Refinement
open OtaMqtt.Bytes

/-- A flat array of `capacity` cells. The block size is left in one place only: the
capacity grows by multiples of it. -/
structure Flat where
  contents : Nat → Cell
  position : Nat
  size : Nat
  capacity : Nat

namespace Flat

def fresh (baseSize : Nat) : Flat := ⟨fun _ => none, 0, 0, baseSize⟩

def grow (baseSize : Nat) (flat : Flat) (count : Nat) : Flat :=
  let free := flat.capacity - flat.position
  if count ≤ free then flat
  else { flat with
    capacity := flat.capacity + (count - free + baseSize - 1) / baseSize * baseSize
    contents := fun index => if index < flat.capacity then flat.contents index else none }

/-- Overwrites `[position, position + n)`, extends the size and advances. -/
def write (baseSize : Nat) (flat : Flat) (data : List UInt8) : Flat :=
  let flat := flat.grow baseSize data.length
  { flat with
    contents := fun index =>
      if flat.position ≤ index ∧ index < flat.position + data.length then data[index - flat.position]?
      else flat.contents index
    position := flat.position + data.length
    size := max flat.size (flat.position + data.length) }

/-- Returns `[position, position + n)` and advances, when that lies within the size. -/
def read (flat : Flat) (count : Nat) : Option (List Cell × Flat) :=
  if flat.position + count ≤ flat.size then
    some ((List.range count).map fun index => flat.contents (flat.position + index),
      { flat with position := flat.position + count })
  else none

/-- The cursor may be put anywhere within the capacity; the size follows it. -/
def setPosition (flat : Flat) (v : Nat) : Option Flat :=
  if v ≤ flat.capacity then some { flat with position := v, size := max flat.size v } else none

def clear (baseSize : Nat) (flat : Flat) : Flat :=
  { flat with position := 0, size := 0, capacity := baseSize }

end Flat

inductive Call where
  | write (data : List UInt8)
  | read (size : Nat)
  | setPosition (v : Nat)
  | clear

inductive Reply where
  | done
  | bytes (cells : List Cell)
  | thrown
  deriving DecidableEq

/-- The reply to a call, and what the getters say after it. -/
structure Seen where
  reply : Reply
  position : Nat
  size : Nat
  readSize : Nat
  deriving DecidableEq

def seen (reply : Reply) (array : ByteArray) : Seen :=
  ⟨reply, array.getPosition, array.getSize, array.getReadSize⟩

/-- A caught `std::out_of_range` leaves the object as it was. -/
def call (array : ByteArray) : Call → Run (Seen × ByteArray)
  | .write data => do
      let next ← array.write data
      .ok (seen .done next, next)
  | .read size =>
      match array.read size with
      | .ok (cells, next) => .ok (seen (.bytes cells) next, next)
      | .error .outOfRange => .ok (seen .thrown array, array)
      | .error fault => .error fault
  | .setPosition v =>
      match array.setPosition v with
      | .ok next => .ok (seen .done next, next)
      | .error .outOfRange => .ok (seen .thrown array, array)
      | .error fault => .error fault
  | .clear => .ok (seen .done array.clear, array.clear)

def flatSeen (reply : Reply) (flat : Flat) : Seen :=
  ⟨reply, flat.position, flat.size, flat.size - flat.position⟩

def flatCall (baseSize : Nat) (flat : Flat) : Call → Seen × Flat
  | .write data => (flatSeen .done (flat.write baseSize data), flat.write baseSize data)
  | .read size =>
      match flat.read size with
      | some (cells, next) => (flatSeen (.bytes cells) next, next)
      | none => (flatSeen .thrown flat, flat)
  | .setPosition v =>
      match flat.setPosition v with
      | some next => (flatSeen .done next, next)
      | none => (flatSeen .thrown flat, flat)
  | .clear => (flatSeen .done (flat.clear baseSize), flat.clear baseSize)

def blockOf (array : ByteArray) (position : Nat) : Option Nat :=
  if position = array.capacity then none else some (position / array.baseSize)

/-- What every operation maintains. -/
structure Placed (array : ByteArray) : Prop where
  base : 0 < array.baseSize
  blocks : array.capacity = array.nodes * array.baseSize
  some : 0 < array.nodes
  size : array.size ≤ array.capacity
  position : array.position ≤ array.size
  cur : array.cur = blockOf array array.position

def cell (array : ByteArray) (position : Nat) : Cell :=
  array.memory (position / array.baseSize) (position % array.baseSize)

structure Mirrors (array : ByteArray) (flat : Flat) : Prop where
  position : flat.position = array.position
  size : flat.size = array.size
  capacity : flat.capacity = array.capacity
  contents : ∀ index, index < array.capacity → flat.contents index = cell array index

def Related (baseSize : Nat) (array : ByteArray) (flat : Flat) : Prop :=
  array.baseSize = baseSize ∧ Placed array ∧ Mirrors array flat

section
variable (base node offset : Nat)

theorem block_div (inside : offset < base) : (node * base + offset) / base = node := by
  rw [Nat.mul_comm, Nat.mul_add_div (by omega), Nat.div_eq_of_lt inside, Nat.add_zero]

theorem block_mod (inside : offset < base) : (node * base + offset) % base = offset := by
  rw [Nat.mul_comm, Nat.mul_add_mod, Nat.mod_eq_of_lt inside]

theorem block_stretch (position count : Nat) (positive : 0 < base) (fits : offset + count ≤ base) :
    (position / base = node ∧ offset ≤ position % base ∧ position % base < offset + count) ↔
      node * base + offset ≤ position ∧ position < node * base + offset + count := by
  have split := Nat.div_add_mod position base
  have small := Nat.mod_lt position positive
  constructor
  · rintro ⟨rfl, low, high⟩
    rw [Nat.mul_comm] at split
    omega
  · rintro ⟨low, high⟩
    have here : position / base = node := by
      obtain ⟨rest, rfl⟩ := Nat.exists_eq_add_of_le low
      rw [Nat.add_assoc]
      exact block_div base node (offset + rest) (by omega)
    rw [here, Nat.mul_comm] at split
    refine ⟨here, ?_, ?_⟩ <;> omega

end

section
variable {array : ByteArray}

theorem next_eq (blocks : array.capacity = array.nodes * array.baseSize) (base : 0 < array.baseSize)
    (node : Nat) (inside : node < array.nodes) :
    array.next node = blockOf array ((node + 1) * array.baseSize) := by
  unfold ByteArray.next blockOf
  rw [blocks, Nat.mul_div_cancel _ base]
  by_cases last : node + 1 = array.nodes
  · rw [if_neg (by omega), if_pos (by rw [last])]
  · have apart : (node + 1) * array.baseSize ≠ array.nodes * array.baseSize :=
      fun same => last (Nat.eq_of_mul_eq_mul_right base same)
    rw [if_pos (by omega), if_neg apart]

theorem blockOf_inside (node offset : Nat) (inside : offset < array.baseSize)
    (before : node * array.baseSize + offset < array.capacity) :
    blockOf array (node * array.baseSize + offset) = some node := by
  rw [blockOf, if_neg (by omega), block_div array.baseSize node offset inside]

/-- The cells after `data` was stored at one position. -/
def Stored (before after : ByteArray) (position : Nat) (data : List UInt8) : Prop :=
  ∀ index, cell after index =
    if position ≤ index ∧ index < position + data.length then data[index - position]?
    else cell before index

/-- The fields that the loops leave alone. -/
structure SameShape (before after : ByteArray) : Prop where
  baseSize : after.baseSize = before.baseSize
  capacity : after.capacity = before.capacity
  size : after.size = before.size
  nodes : after.nodes = before.nodes

theorem SameShape.trans {first second third : ByteArray} (left : SameShape first second)
    (right : SameShape second third) : SameShape first third :=
  ⟨right.baseSize.trans left.baseSize, right.capacity.trans left.capacity,
    right.size.trans left.size, right.nodes.trans left.nodes⟩

theorem SameShape.blockOf {before after : ByteArray} (shape : SameShape before after)
    (position : Nat) : blockOf after position = blockOf before position := by
  unfold FlatBuffer.blockOf
  rw [shape.capacity, shape.baseSize]

theorem storeNode_ok (node npos : Nat) (data : List UInt8) (cur : Option Nat)
    (base : 0 < array.baseSize) (here : array.position = node * array.baseSize + npos)
    (fits : npos + data.length ≤ array.baseSize) :
    ∃ next, array.storeNode node npos data cur = .ok next ∧ SameShape array next ∧
      next.position = array.position + data.length ∧ next.cur = cur ∧
      Stored array next array.position data := by
  rw [ByteArray.storeNode, copyIn_ok _ _ _ _ _ fits, ok_bind]
  refine ⟨_, rfl, ⟨rfl, rfl, rfl, rfl⟩, rfl, rfl, ?_⟩
  intro index
  have stretch := block_stretch array.baseSize node npos index data.length base fits
  rw [← here] at stretch
  unfold cell
  dsimp only
  by_cases same : index / array.baseSize = node
  · rw [same, Function.update_self]
    by_cases within : npos ≤ index % array.baseSize ∧ index % array.baseSize < npos + data.length
    · have split := Nat.div_add_mod index array.baseSize
      rw [same, Nat.mul_comm] at split
      rw [if_pos within, if_pos (stretch.mp ⟨same, within⟩),
        show index - array.position = index % array.baseSize - npos by omega]
    · rw [if_neg within, if_neg (fun inside => within (stretch.mpr inside).2)]
  · rw [Function.update_of_ne same, if_neg (fun inside => same (stretch.mpr inside).1)]

theorem Stored.append {first second third : ByteArray} (position : Nat) (front back : List UInt8)
    (left : Stored first second position front)
    (right : Stored second third (position + front.length) back) :
    Stored first third position (front ++ back) := by
  intro index
  rw [right index, left index, List.length_append]
  by_cases early : index < position + front.length
  · rw [if_neg (by omega)]
    by_cases inside : position ≤ index
    · rw [if_pos ⟨inside, early⟩, if_pos (by omega), List.getElem?_append_left (by omega)]
    · rw [if_neg (by omega), if_neg (by omega)]
  · rw [if_neg (by omega : ¬ (position ≤ index ∧ index < position + front.length))]
    by_cases inside : index < position + front.length + back.length
    · rw [if_pos (by omega), if_pos (by omega), List.getElem?_append_right (by omega)]
      congr 1
      omega
    · rw [if_neg (by omega), if_neg (by omega)]

theorem blockOf_end (blocks : array.capacity = array.nodes * array.baseSize)
    (base : 0 < array.baseSize) (node offset : Nat) (inside : node < array.nodes)
    (fits : offset ≤ array.baseSize) :
    (if array.baseSize = offset then array.next node else some node) =
      blockOf array (node * array.baseSize + offset) := by
  by_cases full : array.baseSize = offset
  · rw [if_pos full, next_eq blocks base node inside, ← full, Nat.add_mul, Nat.one_mul]
  · have room : (node + 1) * array.baseSize ≤ array.nodes * array.baseSize :=
      Nat.mul_le_mul_right _ inside
    rw [Nat.add_mul, Nat.one_mul, ← blocks] at room
    rw [if_neg full, blockOf_inside node offset (by omega) (by omega)]

theorem block_lt (blocks : array.capacity = array.nodes * array.baseSize) (node offset : Nat)
    (before : node * array.baseSize + offset < array.capacity) : node < array.nodes := by
  by_contra past
  have least : array.nodes * array.baseSize ≤ node * array.baseSize :=
    Nat.mul_le_mul_right _ (by omega)
  omega

theorem writeLoop_ok (fuel node npos : Nat) (data : List UInt8) (base : 0 < array.baseSize)
    (blocks : array.capacity = array.nodes * array.baseSize) (offset : npos < array.baseSize)
    (here : array.position = node * array.baseSize + npos) (cur : array.cur = some node)
    (fits : array.position + data.length ≤ array.capacity) (before : array.position < array.capacity)
    (enough : data.length < fuel) :
    ∃ next, ByteArray.writeLoop fuel array npos (array.baseSize - npos) data = .ok next ∧
      SameShape array next ∧ next.position = array.position + data.length ∧
      next.cur = blockOf array (array.position + data.length) ∧
      Stored array next array.position data := by
  induction fuel generalizing array node npos data with
  | zero => omega
  | succ fuel ih =>
      have inside := block_lt blocks node npos (by omega)
      rw [ByteArray.writeLoop]
      by_cases empty : data = []
      · subst empty
        rw [if_pos rfl]
        refine ⟨array, rfl, ⟨rfl, rfl, rfl, rfl⟩, rfl, ?_, ?_⟩
        · rw [cur, here]
          exact (blockOf_inside node npos offset (by omega)).symm
        · intro index
          rw [if_neg (by simp only [List.length_nil]; omega)]
      · rw [if_neg empty, cur]
        dsimp only
        by_cases last : data.length ≤ array.baseSize - npos
        · obtain ⟨next, stored, shape, position, cur', cells⟩ := storeNode_ok node npos data
            (if array.baseSize = npos + data.length then array.next node else some node) base here
            (by omega)
          rw [if_pos last]
          refine ⟨next, stored, shape, position, ?_, cells⟩
          rw [cur', here, blockOf_end blocks base node (npos + data.length) inside (by omega),
            Nat.add_assoc]
        · have positive := List.length_pos_iff.mpr empty
          have taken : (data.take (array.baseSize - npos)).length = array.baseSize - npos :=
            List.length_take_of_le (by omega)
          obtain ⟨next, stored, shape, position, cur', cells⟩ := storeNode_ok node npos
            (data.take (array.baseSize - npos)) (array.next node) base here (by omega)
          have ended : next.position = (node + 1) * next.baseSize + 0 := by
            rw [position, taken, here, shape.baseSize, Nat.add_mul, Nat.one_mul]
            omega
          have following : next.cur = some (node + 1) := by
            have later : (node + 1) * array.baseSize + 0 < array.capacity := by
              rw [shape.baseSize] at ended
              omega
            rw [cur', next_eq blocks base node inside]
            exact blockOf_inside (node + 1) 0 base later
          have dropped : (data.drop (array.baseSize - npos)).length =
              data.length - (array.baseSize - npos) := List.length_drop
          rw [if_neg last, stored, ok_bind, following]
          dsimp only
          have baseNext : 0 < next.baseSize := by rw [shape.baseSize]; exact base
          obtain ⟨final, ran, shape', position', cur'', cells'⟩ := ih (node + 1) 0
            (data.drop (array.baseSize - npos)) baseNext
            (by rw [shape.capacity, shape.nodes, shape.baseSize]; exact blocks) baseNext ended following
            (by rw [shape.capacity]; omega) (by rw [shape.capacity]; omega) (by omega)
          rw [Nat.sub_zero] at ran
          refine ⟨final, ran, shape.trans shape', by omega, ?_, ?_⟩
          · rw [cur'', shape.blockOf, position, taken, dropped]
            congr 1
            omega
          · have joined := Stored.append array.position (data.take (array.baseSize - npos))
              (data.drop (array.baseSize - npos)) cells (by rw [← position]; exact cells')
            rw [List.take_append_drop] at joined
            exact joined

theorem node_lt_iff (base : 0 < array.baseSize)
    (blocks : array.capacity = array.nodes * array.baseSize) (index : Nat) :
    index / array.baseSize < array.nodes ↔ index < array.capacity := by
  rw [Nat.div_lt_iff_lt_mul base, ← blocks]

theorem blocks_cover (base need : Nat) (positive : 0 < base) :
    need ≤ (need + base - 1) / base * base := by
  have split := Nat.div_add_mod (need + base - 1) base
  have small := Nat.mod_lt (need + base - 1) positive
  rw [Nat.mul_comm] at split
  omega

end

section
variable {baseSize : Nat} {array : ByteArray} {flat : Flat}

theorem addCapacity_refines (count : Nat) (related : Related baseSize array flat)
    (positive : 0 < count) :
    Related baseSize
        { array.addCapacity count with cur := blockOf (array.addCapacity count) array.position }
        (flat.grow baseSize count) ∧
      (array.addCapacity count).cur = blockOf (array.addCapacity count) array.position ∧
      (array.addCapacity count).position = array.position ∧
      array.position + count ≤ (array.addCapacity count).capacity := by
  obtain ⟨rfl, placed, mirrors⟩ := related
  have base := placed.base
  have blocks := placed.blocks
  have size := placed.size
  have position := placed.position
  unfold ByteArray.addCapacity Flat.grow
  rw [mirrors.capacity, mirrors.position]
  by_cases room : count ≤ array.capacity - array.position
  · have enough : count = 0 ∨ count ≤ array.getCapacity := .inr room
    rw [if_pos enough]
    simp only [if_pos room]
    exact ⟨⟨rfl, ⟨base, blocks, placed.some, size, position, rfl⟩,
      ⟨mirrors.position, mirrors.size, mirrors.capacity, mirrors.contents⟩⟩, placed.cur, trivial,
      by omega⟩
  · have short : ¬ (count = 0 ∨ count ≤ array.getCapacity) := by
      rintro (zero | enough)
      · omega
      · exact room enough
    have cover := blocks_cover array.baseSize (count - (array.capacity - array.position)) base
    have grown : array.capacity +
        (count - (array.capacity - array.position) + array.baseSize - 1) / array.baseSize *
          array.baseSize =
        (array.nodes +
          (count - (array.capacity - array.position) + array.baseSize - 1) / array.baseSize) *
          array.baseSize := by
      rw [Nat.add_mul, blocks]
    rw [if_neg short]
    simp only [if_neg room]
    refine ⟨⟨rfl, ⟨base, grown, Nat.lt_of_lt_of_le placed.some (Nat.le_add_right _ _),
      Nat.le_trans size (Nat.le_add_right _ _), position, rfl⟩,
      ⟨rfl, mirrors.size, rfl, ?_⟩⟩, ?_, trivial, ?_⟩
    · intro index _
      unfold cell
      dsimp only
      by_cases old : index < array.capacity
      · rw [if_pos old, if_pos ((node_lt_iff base blocks index).mpr old)]
        exact mirrors.contents index old
      · rw [if_neg old, if_neg (mt (node_lt_iff base blocks index).mp old)]
    · unfold blockOf ByteArray.getCapacity
      dsimp only
      rw [if_neg (by omega : ¬ array.position = array.capacity + _)]
      by_cases full : array.position = array.capacity
      · rw [if_pos (by omega), full, blocks, Nat.mul_div_cancel _ base]
      · rw [if_neg (by omega), placed.cur, blockOf, if_neg full]
    · show array.position + count ≤ array.capacity + _
      unfold ByteArray.getCapacity
      omega

theorem write_nothing (related : Related baseSize array flat) :
    Related baseSize array (flat.write baseSize []) := by
  obtain ⟨shape, placed, mirrors⟩ := related
  have fits := placed.position
  simp only [Flat.write, Flat.grow, List.length_nil, Nat.zero_le, if_true, Nat.add_zero]
  refine ⟨shape, placed, mirrors.position, ?_, mirrors.capacity, ?_⟩
  · dsimp only
    rw [mirrors.position, mirrors.size]
    omega
  · intro index inside
    dsimp only
    rw [if_neg (by omega)]
    exact mirrors.contents index inside

theorem placed_behind {next : ByteArray} {count : Nat} (placed : Placed array)
    (same : SameShape array next) (position : next.position = array.position + count)
    (cur : next.cur = blockOf array (array.position + count))
    (room : array.position + count ≤ array.capacity) :
    Placed { next with size := max next.size next.position } where
  base := same.baseSize.symm ▸ placed.base
  blocks := by
    show next.capacity = next.nodes * next.baseSize
    rw [same.capacity, same.nodes, same.baseSize]
    exact placed.blocks
  some := same.nodes.symm ▸ placed.some
  size := by
    have size := placed.size
    show max next.size next.position ≤ next.capacity
    rw [same.size, same.capacity]
    omega
  position := Nat.le_max_right _ _
  cur := by
    show next.cur = blockOf next next.position
    rw [cur, same.blockOf, position]

theorem mirrors_behind {next : ByteArray} {data : List UInt8} (mirrors : Mirrors array flat)
    (same : SameShape array next) (position : next.position = array.position + data.length)
    (cells : Stored array next array.position data) :
    Mirrors { next with size := max next.size next.position }
      { flat with
        contents := fun index =>
          if flat.position ≤ index ∧ index < flat.position + data.length then
            data[index - flat.position]?
          else flat.contents index
        position := flat.position + data.length
        size := max flat.size (flat.position + data.length) } where
  position := by rw [mirrors.position, position]
  size := by
    show max flat.size (flat.position + data.length) = max next.size next.position
    rw [same.size, position, mirrors.position, mirrors.size]
  capacity := mirrors.capacity.trans same.capacity.symm
  contents := by
    intro index inside
    have old := mirrors.contents index (same.capacity ▸ inside)
    show (if flat.position ≤ index ∧ index < flat.position + data.length then
      data[index - flat.position]? else flat.contents index) = cell next index
    rw [cells index, mirrors.position, old]

/-- `write` on the blocks is `write` on the flat array. -/
theorem write_refines (data : List UInt8) (related : Related baseSize array flat) :
    ∃ next, array.write data = .ok next ∧ Related baseSize next (flat.write baseSize data) := by
  unfold ByteArray.write
  by_cases empty : data = []
  · subst empty
    rw [if_pos rfl]
    exact ⟨array, rfl, write_nothing related⟩
  · have positive := List.length_pos_iff.mpr empty
    obtain ⟨⟨shape, placed, mirrors⟩, cur, position, room⟩ :=
      addCapacity_refines data.length related positive
    generalize array.addCapacity data.length = grown at *
    rw [← position] at cur room placed mirrors
    rw [← cur] at placed mirrors
    have placed : Placed grown := placed
    have here : grown.position = grown.position / grown.baseSize * grown.baseSize +
        grown.position % grown.baseSize := by
      rw [Nat.mul_comm]
      exact (Nat.div_add_mod _ _).symm
    have started : grown.cur = some (grown.position / grown.baseSize) := by
      rw [cur, blockOf, if_neg (by omega)]
    obtain ⟨next, ran, same, position', cur', cells⟩ := writeLoop_ok (data.length + 1)
      (grown.position / grown.baseSize) (grown.position % grown.baseSize) data placed.base
      placed.blocks (Nat.mod_lt _ placed.base) here started room (by omega) (Nat.lt_succ_self _)
    rw [if_neg empty]
    simp only [started, ran, ok_bind]
    exact ⟨_, rfl, same.baseSize.trans shape, placed_behind placed same position' cur' room,
      mirrors_behind mirrors same position' cells⟩

def stretch (array : ByteArray) (position count : Nat) : List Cell :=
  (List.range count).map fun index => cell array (position + index)

theorem stretch_append (position first second : Nat) :
    stretch array position (first + second) =
      stretch array position first ++ stretch array (position + first) second := by
  unfold stretch
  rw [List.range_add, List.map_append, List.map_map]
  congr 1
  apply List.map_congr_left
  intro index _
  rw [Function.comp_apply, Nat.add_assoc]

theorem copyOut_stretch (node npos count : Nat)
    (here : array.position = node * array.baseSize + npos) (fits : npos + count ≤ array.baseSize) :
    copyOut array.baseSize (array.memory node) npos count =
      .ok (stretch array array.position count) := by
  rw [copyOut_ok _ _ _ _ fits]
  congr 1
  apply List.map_congr_left
  intro index member
  have inside := List.mem_range.mp member
  have moved : array.position + index = node * array.baseSize + (npos + index) := by omega
  rw [cell, moved, block_div _ _ _ (by omega), block_mod _ _ _ (by omega)]

theorem readLoop_ok (fuel node npos size : Nat) (base : 0 < array.baseSize)
    (blocks : array.capacity = array.nodes * array.baseSize) (offset : npos < array.baseSize)
    (here : array.position = node * array.baseSize + npos) (cur : array.cur = some node)
    (fits : array.position + size ≤ array.capacity) (before : array.position < array.capacity)
    (enough : size < fuel) :
    ByteArray.readLoop fuel array npos (array.baseSize - npos) size =
      .ok (stretch array array.position size, { array with
        position := array.position + size, cur := blockOf array (array.position + size) }) := by
  induction fuel generalizing array node npos size with
  | zero => omega
  | succ fuel ih =>
      have inside := block_lt blocks node npos (by omega)
      rw [ByteArray.readLoop]
      by_cases empty : size = 0
      · subst empty
        have stays : blockOf array (array.position + 0) = array.cur := by
          rw [cur, Nat.add_zero, here]
          exact blockOf_inside node npos offset (by omega)
        rw [if_pos rfl, stays]
        rfl
      · rw [if_neg empty, cur]
        dsimp only
        by_cases last : size ≤ array.baseSize - npos
        · rw [if_pos last, copyOut_stretch node npos size here (by omega), ok_bind,
            blockOf_end blocks base node (npos + size) inside (by omega), ← Nat.add_assoc, ← here]
        · have ended : array.position + (array.baseSize - npos) = (node + 1) * array.baseSize + 0 := by
            rw [here, Nat.add_mul, Nat.one_mul]
            omega
          have following : array.next node = some (node + 1) := by
            rw [next_eq blocks base node inside]
            exact blockOf_inside (node + 1) 0 base (by omega)
          rw [if_neg last, copyOut_stretch node npos (array.baseSize - npos) here (by omega), ok_bind,
            following]
          have later := @ih { array with
              position := array.position + (array.baseSize - npos), cur := some (node + 1) }
            (node + 1) 0 (size - (array.baseSize - npos)) base blocks base ended rfl
            (by dsimp only; omega) (by dsimp only; omega) (by omega)
          rw [Nat.sub_zero] at later
          dsimp only at later ⊢
          rw [later, ok_bind]
          have total : array.position + (array.baseSize - npos) + (size - (array.baseSize - npos)) =
              array.position + size := by
            omega
          have parts : size = (array.baseSize - npos) + (size - (array.baseSize - npos)) := by omega
          rw [total]
          conv_rhs => rw [parts, stretch_append]
          rw [← parts]
          rfl

/-- `read` on the blocks is `read` on the flat array. -/
theorem read_refines (size : Nat) (related : Related baseSize array flat) (positive : 0 < size) :
    match flat.read size with
    | some (cells, later) =>
        ∃ next, array.read size = .ok (cells, next) ∧ Related baseSize next later
    | none => array.read size = .error .outOfRange := by
  obtain ⟨rfl, placed, mirrors⟩ := related
  have base := placed.base
  have bound := placed.size
  have order := placed.position
  unfold Flat.read ByteArray.read
  rw [mirrors.position, mirrors.size]
  by_cases enough : array.position + size ≤ array.size
  · have started : array.cur = some (array.position / array.baseSize) := by
      rw [placed.cur, blockOf, if_neg (by omega)]
    have here : array.position = array.position / array.baseSize * array.baseSize +
        array.position % array.baseSize := by
      rw [Nat.mul_comm]
      exact (Nat.div_add_mod _ _).symm
    have ran := readLoop_ok (size + 1) (array.position / array.baseSize)
      (array.position % array.baseSize) size base placed.blocks (Nat.mod_lt _ base) here started
      (by omega) (by omega) (Nat.lt_succ_self _)
    have same : (List.range size).map (fun index => flat.contents (array.position + index)) =
        stretch array array.position size := by
      apply List.map_congr_left
      intro index member
      have inside := List.mem_range.mp member
      exact mirrors.contents _ (by omega)
    rw [if_pos enough, if_neg (by unfold ByteArray.getReadSize; omega)]
    simp only [started, ran, same]
    refine ⟨_, rfl, rfl, ⟨base, placed.blocks, placed.some, bound, enough, rfl⟩, ?_⟩
    exact ⟨rfl, rfl, mirrors.capacity, mirrors.contents⟩
  · rw [if_neg enough, if_pos (by unfold ByteArray.getReadSize; omega)]

theorem read_none (related : Related baseSize array flat) :
    array.read 0 = if flat.position = flat.capacity then .error .nullPointer else .ok ([], array) := by
  have cur := related.2.1.cur
  rw [related.2.2.position, related.2.2.capacity, ByteArray.read, if_neg (Nat.not_lt_zero _), cur,
    blockOf]
  by_cases last : array.position = array.capacity
  · rw [if_pos last, if_pos last]
  · rw [if_neg last, if_neg last]
    rfl

theorem seek_ok (fuel node v : Nat) (base : 0 < array.baseSize)
    (blocks : array.capacity = array.nodes * array.baseSize) (inside : node < array.nodes)
    (fits : node * array.baseSize + v ≤ array.capacity) (enough : array.nodes < fuel + node) :
    array.seek fuel (some node) v = .ok (blockOf array (node * array.baseSize + v)) := by
  induction fuel generalizing node v with
  | zero => omega
  | succ fuel ih =>
      rw [ByteArray.seek]
      by_cases beyond : array.baseSize < v
      · have moved : node * array.baseSize + v =
            (node + 1) * array.baseSize + (v - array.baseSize) := by
          rw [Nat.add_mul, Nat.one_mul]
          omega
        have further : node + 1 < array.nodes :=
          block_lt blocks (node + 1) 0 (by rw [Nat.add_mul, Nat.one_mul]; omega)
        have following : array.next node = some (node + 1) := if_pos further
        rw [if_pos beyond, following, ih (node + 1) (v - array.baseSize) further (by omega) (by omega),
          moved]
      · rw [if_neg beyond, ← blockOf_end blocks base node v inside (by omega)]
        by_cases full : v = array.baseSize
        · rw [if_pos full, if_pos full.symm]
        · rw [if_neg full, if_neg (fun same => full same.symm)]

/-- `setPosition` on the blocks is `setPosition` on the flat array. -/
theorem setPosition_refines (v : Nat) (related : Related baseSize array flat) :
    match flat.setPosition v with
    | some later => ∃ next, array.setPosition v = .ok next ∧ Related baseSize next later
    | none => array.setPosition v = .error .outOfRange := by
  obtain ⟨rfl, placed, mirrors⟩ := related
  have bound := placed.size
  unfold Flat.setPosition ByteArray.setPosition
  rw [mirrors.capacity]
  by_cases within : v ≤ array.capacity
  · have found := seek_ok (array.nodes + 1) 0 v placed.base placed.blocks placed.some
      (by rw [Nat.zero_mul]; omega) (by omega)
    rw [Nat.zero_mul, Nat.zero_add] at found
    rw [if_pos within, if_neg (by omega), found, ok_bind]
    refine ⟨_, rfl, rfl, ⟨placed.base, placed.blocks, placed.some, ?_, Nat.le_max_right _ _, rfl⟩, ?_⟩
    · exact Nat.max_le.mpr ⟨bound, within⟩
    · refine ⟨rfl, ?_, rfl, mirrors.contents⟩
      dsimp only
      rw [mirrors.size]
  · rw [if_neg within, if_pos (by omega)]

theorem clear_refines (related : Related baseSize array flat) :
    Related baseSize array.clear (flat.clear baseSize) := by
  obtain ⟨rfl, placed, mirrors⟩ := related
  have base := placed.base
  have blocks := placed.blocks
  have covered : array.baseSize ≤ array.capacity := by
    rw [blocks]
    exact Nat.le_mul_of_pos_left _ placed.some
  refine ⟨rfl, ⟨base, (Nat.one_mul _).symm, Nat.one_pos, Nat.zero_le _, Nat.le_refl _, ?_⟩, ?_⟩
  · show some 0 = if 0 = array.baseSize then none else some (0 / array.baseSize)
    rw [if_neg (by omega), Nat.zero_div]
  · exact ⟨rfl, rfl, rfl, fun index inside => mirrors.contents index (Nat.lt_of_lt_of_le inside covered)⟩

theorem seen_eq (reply : Reply) (related : Related baseSize array flat) :
    seen reply array = flatSeen reply flat := by
  obtain ⟨_, _, mirrors⟩ := related
  unfold seen flatSeen ByteArray.getPosition ByteArray.getSize ByteArray.getReadSize
  rw [mirrors.position, mirrors.size]

end

def Asks : Call → Prop
  | .read size => 0 < size
  | _ => True

instance : (first : Call) → Decidable (Asks first)
  | .read size => inferInstanceAs (Decidable (0 < size))
  | .write _ => .isTrue trivial
  | .setPosition _ => .isTrue trivial
  | .clear => .isTrue trivial

theorem call_refines (baseSize : Nat) (array : ByteArray) (flat : Flat) (first : Call)
    (related : Related baseSize array flat) (asks : Asks first) :
    ∃ next, call array first = .ok ((flatCall baseSize flat first).1, next) ∧
      Related baseSize next (flatCall baseSize flat first).2 := by
  cases first with
  | write data =>
      obtain ⟨next, written, kept⟩ := write_refines data related
      refine ⟨next, ?_, kept⟩
      simp only [call, flatCall, written, ok_bind, seen_eq .done kept]
  | read size =>
      have answered := read_refines size related asks
      cases found : flat.read size with
      | none =>
          simp only [found] at answered
          refine ⟨array, ?_, ?_⟩
          · simp only [call, flatCall, answered, found, seen_eq .thrown related]
          · simp only [flatCall, found]
            exact related
      | some outcome =>
          simp only [found] at answered
          obtain ⟨next, answered, kept⟩ := answered
          refine ⟨next, ?_, ?_⟩
          · simp only [call, flatCall, answered, found, seen_eq _ kept]
          · simp only [flatCall, found]
            exact kept
  | setPosition v =>
      have answered := setPosition_refines v related
      cases found : flat.setPosition v with
      | none =>
          simp only [found] at answered
          refine ⟨array, ?_, ?_⟩
          · simp only [call, flatCall, answered, found, seen_eq .thrown related]
          · simp only [flatCall, found]
            exact related
      | some later =>
          simp only [found] at answered
          obtain ⟨next, answered, kept⟩ := answered
          refine ⟨next, ?_, ?_⟩
          · simp only [call, flatCall, answered, found, seen_eq .done kept]
          · simp only [flatCall, found]
            exact kept
  | clear =>
      have kept := clear_refines related
      exact ⟨array.clear, by simp only [call, flatCall, seen_eq .done kept], kept⟩

theorem fresh_related (baseSize : Nat) (positive : 0 < baseSize) :
    Related baseSize (ByteArray.fresh baseSize) (Flat.fresh baseSize) := by
  refine ⟨rfl, ⟨positive, (Nat.one_mul _).symm, Nat.one_pos, Nat.zero_le _, Nat.le_refl _, ?_⟩,
    ⟨rfl, rfl, rfl, fun _ _ => rfl⟩⟩
  show some 0 = if 0 = baseSize then none else some (0 / baseSize)
  rw [if_neg (by omega), Nat.zero_div]

/-- Every sequence of calls on a fresh `ByteArray` is answered as by a flat array, whatever
the block size, and ends with the cursor's block in step with the cursor. -/
theorem calls_refine_flat (baseSize : Nat) (positive : 0 < baseSize) (calls : List Call)
    (asks : ∀ first ∈ calls, Asks first) :
    ∃ last, exec call (ByteArray.fresh baseSize) calls =
        .ok ((execSpec (flatCall baseSize) (Flat.fresh baseSize) calls).1, last) ∧
      last.baseSize = baseSize ∧ Placed last := by
  obtain ⟨last, ran, shape, placed, _⟩ := exec_refines (call_refines baseSize) calls _ _
    (fresh_related baseSize positive) (issued_of_forall call Asks _ calls asks)
  exact ⟨last, ran, shape, placed⟩

/-- Three bytes over blocks of two, read back across the boundary, and a read past the end. -/
def acrossBlocks : List Call :=
  [.write [1, 2, 3], .setPosition 1, .read 2, .read 2, .setPosition 5, .setPosition 4, .clear]

theorem across_blocks_refine_flat :
    ∃ last, exec call (ByteArray.fresh 2) acrossBlocks =
        .ok ((execSpec (flatCall 2) (Flat.fresh 2) acrossBlocks).1, last) ∧
      last.baseSize = 2 ∧ Placed last :=
  calls_refine_flat 2 (by decide) acrossBlocks (by decide)

end OtaMqtt.Bytes.FlatBuffer
