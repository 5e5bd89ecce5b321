import OtaMqtt.Lib.Ring

/-! The block list behind `ByteArray` (sherry/bytearray.h, bytearray.cc).

The nodes of the list are numbered from `m_root` on; every node has `m_baseSize` bytes, and
the successor of the last one is null. A cell is `none` until something is stored in it. -/

namespace OtaMqtt.Bytes

open OtaMqtt.Lib.Execution OtaMqtt.Lib.Ring

abbrev Cell := Option UInt8

structure ByteArray where
  baseSize : Nat
  position : Nat
  capacity : Nat
  size : Nat
  nodes : Nat
  memory : Nat → Nat → Cell
  cur : Option Nat

namespace ByteArray

def fresh (baseSize : Nat) : ByteArray :=
  ⟨baseSize, 0, baseSize, 0, 1, fun _ _ => none, some 0⟩

def next (array : ByteArray) (node : Nat) : Option Nat :=
  if node + 1 < array.nodes then some (node + 1) else none

def getPosition (array : ByteArray) : Nat := array.position

def getSize (array : ByteArray) : Nat := array.size

def getReadSize (array : ByteArray) : Nat := array.size - array.position

def getCapacity (array : ByteArray) : Nat := array.capacity - array.position

/-- `ceil` is taken as exact. The new nodes are appended behind the last one. -/
def addCapacity (array : ByteArray) (size : Nat) : ByteArray :=
  if size = 0 ∨ size ≤ array.getCapacity then array
  else
    let count := (size - array.getCapacity + array.baseSize - 1) / array.baseSize
    { array with
      capacity := array.capacity + count * array.baseSize
      nodes := array.nodes + count
      memory := fun node => if node < array.nodes then array.memory node else fun _ => none
      cur := if array.getCapacity = 0 then some array.nodes else array.cur }

/-- One `memcpy` into the current node, and the steps of `m_position` and `m_cur` behind it. -/
def storeNode (array : ByteArray) (node npos : Nat) (data : List UInt8) (cur : Option Nat) :
    Run ByteArray := do
  let bytes ← copyIn array.baseSize (array.memory node) npos (fun index => data[index]?) data.length
  .ok { array with
    memory := Function.update array.memory node bytes
    position := array.position + data.length
    cur := cur }

/-- The loop of `write`; `m_cur->size` is read again after every node. -/
def writeLoop : Nat → ByteArray → Nat → Nat → List UInt8 → Run ByteArray
  | 0, _, _, _, _ => .error .outOfFuel
  | fuel + 1, array, npos, ncap, data =>
      if data = [] then .ok array
      else
        match array.cur with
        | none => .error .nullPointer
        | some node =>
            if data.length ≤ ncap then
              array.storeNode node npos data
                (if array.baseSize = npos + data.length then array.next node else some node)
            else do
              let array ← array.storeNode node npos (data.take ncap) (array.next node)
              match array.cur with
              | none => .error .nullPointer
              | some _ => writeLoop fuel array 0 array.baseSize (data.drop ncap)

def write (array : ByteArray) (data : List UInt8) : Run ByteArray :=
  if data = [] then .ok array
  else
    let array := array.addCapacity data.length
    let npos := array.position % array.baseSize
    match array.cur with
    | none => .error .nullPointer
    | some _ => do
        let array ← writeLoop (data.length + 1) array npos (array.baseSize - npos) data
        .ok { array with size := max array.size array.position }

/-- The loop of `read`. -/
def readLoop : Nat → ByteArray → Nat → Nat → Nat → Run (List Cell × ByteArray)
  | 0, _, _, _, _ => .error .outOfFuel
  | fuel + 1, array, npos, ncap, size =>
      if size = 0 then .ok ([], array)
      else
        match array.cur with
        | none => .error .nullPointer
        | some node =>
            if size ≤ ncap then do
              let cells ← copyOut array.baseSize (array.memory node) npos size
              .ok (cells, { array with
                position := array.position + size
                cur := if array.baseSize = npos + size then array.next node else some node })
            else do
              let cells ← copyOut array.baseSize (array.memory node) npos ncap
              match array.next node with
              | none => .error .nullPointer
              | some following => do
                  let (rest, array) ← readLoop fuel
                    { array with position := array.position + ncap, cur := some following }
                    0 array.baseSize (size - ncap)
                  .ok (cells ++ rest, array)

/-- `std::out_of_range` is thrown before anything has changed. -/
def read (array : ByteArray) (size : Nat) : Run (List Cell × ByteArray) :=
  if array.getReadSize < size then .error .outOfRange
  else
    let npos := array.position % array.baseSize
    match array.cur with
    | none => .error .nullPointer
    | some _ => readLoop (size + 1) array npos (array.baseSize - npos) size

/-- The loop of `setPosition` from a node on, and the test behind it. -/
def seek (array : ByteArray) : Nat → Option Nat → Nat → Run (Option Nat)
  | 0, _, _ => .error .outOfFuel
  | _ + 1, none, _ => .error .nullPointer
  | fuel + 1, some node, v =>
      if array.baseSize < v then seek array fuel (array.next node) (v - array.baseSize)
      else if v = array.baseSize then .ok (array.next node)
      else .ok (some node)

def setPosition (array : ByteArray) (v : Nat) : Run ByteArray :=
  if array.capacity < v then .error .outOfRange
  else do
    let cur ← array.seek (array.nodes + 1) (some 0) v
    .ok { array with position := v, size := max array.size v, cur := cur }

/-- Every node but the root is deleted; the root keeps its bytes. -/
def clear (array : ByteArray) : ByteArray :=
  { array with position := 0, size := 0, capacity := array.baseSize, nodes := 1, cur := some 0 }

end ByteArray

end OtaMqtt.Bytes
