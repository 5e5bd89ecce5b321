import OtaMqtt.Lib.Ring

/-! The ring behind `HttpBuffer` (sherry/http/http_buffer.h, http_buffer.cc).

`buffer` is the array `new char[capacity + 1]`: its slots are `0 .. capacity` and its
initial bytes are whatever the allocator left there. Indices are `int`s, `size` is a
`size_t`. Every function runs under the buffer's own mutex, so a call is one step. -/

namespace OtaMqtt.Http.Buffer

open OtaMqtt.Lib.Execution OtaMqtt.Lib.Ring

structure HttpBuffer where
  capacity : Nat
  size : Nat
  startIdx : Nat
  endIdx : Nat
  buffer : Nat → UInt8

namespace HttpBuffer

def fresh (capacity : Nat) (junk : Nat → UInt8) : HttpBuffer :=
  ⟨capacity, 0, 0, 0, junk⟩

/-- The number of slots, `m_capacity + 1`. -/
def slots (ring : HttpBuffer) : Nat := ring.capacity + 1

def empty (ring : HttpBuffer) : Bool := ring.startIdx == ring.endIdx

/-- `data` is the memory at the caller's pointer; the wrapping branch copies
`m_start_idx` bytes from behind the first part whatever `len` is. -/
def write (ring : HttpBuffer) (data : Nat → UInt8) (len : Nat) : Run (Bool × HttpBuffer) :=
  if ring.startIdx ≤ ring.endIdx then
    let leftAvailableSize := ring.startIdx
    let rightAvailableSize := subSize ring.slots ring.endIdx
    if leftAvailableSize + rightAvailableSize < len then .ok (false, ring)
    else if len ≤ rightAvailableSize then do
      let bytes ← copyIn ring.slots ring.buffer ring.endIdx data len
      let endIdx ← toInt (ring.endIdx + len)
      .ok (true, { ring with
        buffer := bytes, endIdx := endIdx, size := (ring.size + len) % 2 ^ 64 })
    else do
      let bytes ← copyIn ring.slots ring.buffer ring.endIdx data rightAvailableSize
      let bytes ← copyIn ring.slots bytes 0 (fun index => data (rightAvailableSize + index))
        leftAvailableSize
      let endIdx ← toInt ((ring.endIdx + len) % ring.slots)
      .ok (true, { ring with
        buffer := bytes, endIdx := endIdx, size := (ring.size + len) % 2 ^ 64 })
  else
    let availableSize := ring.startIdx - ring.endIdx
    if availableSize < len then .ok (false, ring)
    else do
      let bytes ← copyIn ring.slots ring.buffer ring.endIdx data len
      let endIdx ← toInt (ring.endIdx + len)
      .ok (true, { ring with
        buffer := bytes, endIdx := endIdx, size := (ring.size + len) % 2 ^ 64 })

/-- The tail shared by the readers: `m_start_idx += size; m_start_idx %= m_capacity + 1;
m_size -= size`. -/
def consume (ring : HttpBuffer) (count : Nat) : Run HttpBuffer := do
  let startIdx ← toInt (ring.startIdx + count)
  .ok { ring with startIdx := startIdx % ring.slots, size := subSize ring.size count }

/-- `none` is the null pointer. In the second regime both parts of the ring are copied
whole into an array of `size` bytes. -/
def readBySize (ring : HttpBuffer) (size : Nat) : Run (Option (List UInt8) × HttpBuffer) :=
  if ring.startIdx ≤ ring.endIdx then
    if (ring.endIdx : Int) - ring.startIdx < castInt size then .ok (none, ring)
    else do
      let ret ← copyOut ring.slots ring.buffer ring.startIdx size
      let next ← ring.consume size
      .ok (some ret, next)
  else
    let leftSize := ring.endIdx
    let rightSize := subSize ring.slots ring.startIdx
    let curSize := leftSize + rightSize
    if curSize < size then .ok (none, ring)
    else if size < curSize then .error .outOfBounds
    else do
      let right ← copyOut ring.slots ring.buffer ring.startIdx rightSize
      let left ← copyOut ring.slots ring.buffer 0 leftSize
      let next ← ring.consume size
      .ok (some (right ++ left), next)

def readByEnd (ring : HttpBuffer) (idx : Nat) : Run (Option (List UInt8) × HttpBuffer) :=
  let idx := if idx = 0 then ring.slots - 1 else idx - 1
  if ring.startIdx ≤ ring.endIdx then
    if idx < ring.startIdx ∨ ring.endIdx ≤ idx then .ok (none, ring)
    else do
      let size := idx - ring.startIdx + 1
      let ret ← copyOut ring.slots ring.buffer ring.startIdx size
      let next ← ring.consume size
      .ok (some ret, next)
  else if ring.endIdx ≤ idx ∧ idx < ring.startIdx then .ok (none, ring)
  else if ring.startIdx ≤ idx then do
    let size := idx - ring.startIdx + 1
    let ret ← copyOut ring.slots ring.buffer ring.startIdx size
    let next ← ring.consume size
    .ok (some ret, next)
  else do
    let rightSize := subSize ring.slots ring.startIdx
    let leftSize := idx + 1
    let right ← copyOut ring.slots ring.buffer ring.startIdx rightSize
    let left ← copyOut ring.slots ring.buffer 0 leftSize
    let next ← ring.consume (rightSize + leftSize)
    .ok (some (right ++ left), next)

/-- The counting loop of `read_by_zero`: bytes before the first NUL, or before `m_end_idx`. -/
def countToZero (ring : HttpBuffer) : Nat → Nat → Nat → Run Nat
  | 0, _, _ => .error .outOfFuel
  | fuel + 1, idx, size =>
      if idx = ring.endIdx then .ok size
      else do
        let byte ← load ring.slots ring.buffer idx
        if byte = 0 then .ok size
        else countToZero ring fuel ((idx + 1) % ring.slots) (size + 1)

/-- The copying loop of `read_by_zero`. -/
def copyFrom (ring : HttpBuffer) : Nat → Nat → Run (List UInt8)
  | 0, _ => .ok []
  | count + 1, idx => do
      let byte ← load ring.slots ring.buffer idx
      let rest ← copyFrom ring count ((idx + 1) % ring.slots)
      .ok (byte :: rest)

/-- `m_start_idx` moves past the terminator without being reduced modulo the ring. The
counting loop sees each slot at most once before it repeats itself. -/
def readByZero (ring : HttpBuffer) : Run (List UInt8 × HttpBuffer) := do
  let size ← ring.countToZero (ring.slots + 1) ring.startIdx 0
  let bytes ← ring.copyFrom size ring.startIdx
  let startIdx ← toInt (ring.startIdx + size + 1)
  .ok (bytes ++ [0], { ring with startIdx := startIdx, size := subSize ring.size size })

/-- The indices the parser walks are reduced modulo `m_capacity`, not modulo the ring. -/
def nextIdx (ring : HttpBuffer) (idx : Nat) : Run Nat := do
  let next ← toInt (idx + 1)
  if ring.capacity = 0 then .error .divisionByZero else .ok (next % ring.capacity)

def preIdx (ring : HttpBuffer) (idx : Nat) : Run Nat :=
  if idx = 0 then toInt (subSize ring.capacity 1) else .ok (idx - 1)

theorem nextIdx_eq (ring : HttpBuffer) {idx : Nat} (narrow : idx + 1 < 2 ^ 31)
    (positive : 1 ≤ ring.capacity) : ring.nextIdx idx = .ok ((idx + 1) % ring.capacity) := by
  rw [nextIdx, toInt_of_lt narrow, ok_bind, if_neg (by omega)]

theorem preIdx_eq (ring : HttpBuffer) (idx : Nat) (narrow : ring.slots < 2 ^ 31)
    (positive : 1 ≤ ring.capacity) :
    ring.preIdx idx = .ok (if idx = 0 then ring.capacity - 1 else idx - 1) := by
  have slots : ring.slots = ring.capacity + 1 := rfl
  rw [preIdx]
  split
  · rw [subSize_of_le positive (by omega), toInt_of_lt (by omega)]
  · rfl

def getVal (ring : HttpBuffer) (idx : Nat) : Run UInt8 := load ring.slots ring.buffer idx

def setVal (ring : HttpBuffer) (value : UInt8) (idx : Nat) : Run HttpBuffer := do
  let bytes ← store ring.slots ring.buffer idx value
  .ok { ring with buffer := bytes }

def getAvailableSize (ring : HttpBuffer) : Nat :=
  if ring.startIdx ≤ ring.endIdx then subSize ring.slots ring.startIdx + ring.endIdx
  else ring.startIdx - ring.endIdx

def getDataSize (ring : HttpBuffer) : Nat := ring.size

def advanced (ring : HttpBuffer) (count : Nat) : HttpBuffer :=
  { ring with
    startIdx := (ring.startIdx + count) % ring.slots, size := subSize ring.size count }

@[simp] theorem advanced_capacity (ring : HttpBuffer) (count : Nat) :
    (ring.advanced count).capacity = ring.capacity := by
  cases ring; rfl

@[simp] theorem advanced_endIdx (ring : HttpBuffer) (count : Nat) :
    (ring.advanced count).endIdx = ring.endIdx := by
  cases ring; rfl

@[simp] theorem advanced_buffer (ring : HttpBuffer) (count : Nat) :
    (ring.advanced count).buffer = ring.buffer := by
  cases ring; rfl

theorem advanced_startIdx (ring : HttpBuffer) (count : Nat) :
    (ring.advanced count).startIdx = (ring.startIdx + count) % ring.slots := by
  cases ring; rfl

theorem consume_ok (ring : HttpBuffer) (count : Nat) (bound : ring.startIdx + count < 2 ^ 31) :
    ring.consume count = .ok (ring.advanced count) := by
  rw [consume, toInt_of_lt bound, ok_bind]
  rfl

/-- The slots after `len` bytes of `data` were laid down from `m_end_idx` on. -/
def pasted (ring : HttpBuffer) (data : Nat → UInt8) (len : Nat) : Nat → UInt8 :=
  fun index =>
    if ring.endIdx ≤ index ∧ index < ring.endIdx + len then data (index - ring.endIdx)
    else ring.buffer index

theorem write_straight (ring : HttpBuffer) (data : Nat → UInt8) (len : Nat)
    (order : ring.startIdx ≤ ring.endIdx) (room : ring.endIdx + len ≤ ring.slots)
    (bound : ring.endIdx + len < 2 ^ 31) (wide : ring.slots < 2 ^ 64) :
    ring.write data len = .ok (true, { ring with
      buffer := ring.pasted data len, endIdx := ring.endIdx + len,
      size := (ring.size + len) % 2 ^ 64 }) := by
  have right : subSize ring.slots ring.endIdx = ring.slots - ring.endIdx :=
    subSize_of_le (by omega) (by omega)
  rw [write, if_pos order, right]
  rw [if_neg (by omega), if_pos (by omega), copyIn_ok _ _ _ _ _ room, ok_bind,
    toInt_of_lt (by omega)]
  rfl

theorem write_wrapping (ring : HttpBuffer) (data : Nat → UInt8) (len : Nat)
    (order : ring.startIdx ≤ ring.endIdx) (start : ring.startIdx < ring.slots)
    (inside : ring.endIdx ≤ ring.slots) (past : ring.slots < ring.endIdx + len)
    (room : len ≤ ring.startIdx + (ring.slots - ring.endIdx)) (bound : ring.slots < 2 ^ 31) :
    ring.write data len = .ok (true, { ring with
      buffer := fun index =>
        if index < ring.startIdx then data (ring.slots - ring.endIdx + index)
        else ring.pasted data (ring.slots - ring.endIdx) index,
      endIdx := ring.endIdx + len - ring.slots,
      size := (ring.size + len) % 2 ^ 64 }) := by
  have right : subSize ring.slots ring.endIdx = ring.slots - ring.endIdx :=
    subSize_of_le inside (by omega)
  have reduced : (ring.endIdx + len) % ring.slots = ring.endIdx + len - ring.slots := by
    rcases mod_cases (ring.endIdx + len) ring.slots (by omega) with ⟨small, _⟩ | ⟨_, wrapped⟩
    · omega
    · exact wrapped
  rw [write, if_pos order, right]
  rw [if_neg (by omega), if_neg (by omega), copyIn_ok _ _ _ _ _ (by omega), ok_bind,
    copyIn_ok _ _ _ _ _ (by omega), ok_bind, reduced, toInt_of_lt (by omega)]
  simp only [ok_bind, Nat.zero_le, true_and, Nat.zero_add, Nat.sub_zero]
  rfl

theorem write_behind (ring : HttpBuffer) (data : Nat → UInt8) (len : Nat)
    (order : ring.endIdx < ring.startIdx) (room : ring.endIdx + len ≤ ring.startIdx)
    (inside : ring.endIdx + len ≤ ring.slots) (bound : ring.slots < 2 ^ 31) :
    ring.write data len = .ok (true, { ring with
      buffer := ring.pasted data len, endIdx := ring.endIdx + len,
      size := (ring.size + len) % 2 ^ 64 }) := by
  rw [write, if_neg (by omega)]
  rw [if_neg (by omega), copyIn_ok _ _ _ _ _ inside, ok_bind, toInt_of_lt (by omega)]
  rfl

end HttpBuffer

end OtaMqtt.Http.Buffer
