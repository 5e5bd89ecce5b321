import OtaMqtt.Http.Buffer
import OtaMqtt.Lib.Refinement

/-! `HttpBuffer` against a bounded FIFO queue of bytes. -/

namespace OtaMqtt.Http.BufferQueue

open OtaMqtt.Lib.Execution OtaMqtt.Lib.Ring OtaMqtt.Lib.Refinement
open OtaMqtt.Http.Buffer

inductive Call where
  | write (data : Nat → UInt8) (len : Nat)
  | readBySize (size : Nat)

inductive Reply where
  | wrote (accepted : Bool)
  | bytes (ret : Option (List UInt8))
  deriving DecidableEq

/-- A call together with the `get_data_size` seen right after it. -/
def HttpBuffer.call (ring : HttpBuffer) : Call → Run ((Reply × Nat) × HttpBuffer)
  | .write data len => do
      let (accepted, next) ← ring.write data len
      .ok ((.wrote accepted, next.getDataSize), next)
  | .readBySize size => do
      let (ret, next) ← ring.readBySize size
      .ok ((.bytes ret, next.getDataSize), next)

def queueCall (queue : List UInt8) : Call → (Reply × Nat) × List UInt8
  | .write data len =>
      let next := queue ++ (List.range len).map data
      ((.wrote true, next.length), next)
  | .readBySize size =>
      if size ≤ queue.length then
        ((.bytes (some (queue.take size)), (queue.drop size).length), queue.drop size)
      else ((.bytes none, queue.length), queue)

/-- The caller's side of the contract: a write is issued only when it fits. -/
def Fits (ring : HttpBuffer) : Call → Prop
  | .write _ len => len ≤ ring.capacity - ring.getDataSize
  | .readBySize _ => True

/-- The reads the ring serves: an argument that an `int` holds; not one that takes the
last byte while `m_end_idx` stands behind the last slot; and, when the data wraps, not
one that leaves bytes behind. -/
def Serves (ring : HttpBuffer) : Call → Prop
  | .write _ _ => True
  | .readBySize size =>
      size < 2 ^ 31 ∧
      (ring.endIdx = ring.slots → size = ring.getDataSize → size = 0) ∧
      (ring.endIdx < ring.startIdx → ring.getDataSize ≤ size)

instance (ring : HttpBuffer) : (call : Call) → Decidable (Fits ring call)
  | .write _ len => inferInstanceAs (Decidable (len ≤ ring.capacity - ring.getDataSize))
  | .readBySize _ => inferInstanceAs (Decidable True)

instance (ring : HttpBuffer) : (call : Call) → Decidable (Serves ring call)
  | .write _ _ => inferInstanceAs (Decidable True)
  | .readBySize size => inferInstanceAs (Decidable
      (size < 2 ^ 31 ∧ (ring.endIdx = ring.slots → size = ring.getDataSize → size = 0) ∧
        (ring.endIdx < ring.startIdx → ring.getDataSize ≤ size)))

/-- Indices and `m_size` agree on how many bytes are queued. -/
structure Consistent (ring : HttpBuffer) : Prop where
  capacity : ring.capacity < 2 ^ 30
  start : ring.startIdx < ring.slots
  size : ring.size ≤ ring.capacity
  finish : (ring.endIdx = ring.startIdx + ring.size ∧ ring.endIdx ≤ ring.slots) ∨
    ring.endIdx + ring.slots = ring.startIdx + ring.size

def queued (ring : HttpBuffer) : List UInt8 :=
  window ring.buffer ring.slots ring.startIdx ring.size

@[simp] theorem queued_length (ring : HttpBuffer) : (queued ring).length = ring.size := by
  simp [queued]

theorem fresh_consistent (capacity : Nat) (junk : Nat → UInt8) (bound : capacity < 2 ^ 30) :
    Consistent (HttpBuffer.fresh capacity junk) where
  capacity := bound
  start := by simp [HttpBuffer.fresh, HttpBuffer.slots]
  size := Nat.zero_le _
  finish := .inl ⟨rfl, Nat.zero_le _⟩

theorem queued_append (ring next : HttpBuffer) (data : Nat → UInt8) (len : Nat)
    (slots : next.slots = ring.slots) (start : next.startIdx = ring.startIdx)
    (size : next.size = ring.size + len)
    (old : ∀ offset, offset < ring.size →
      next.buffer ((ring.startIdx + offset) % ring.slots) =
        ring.buffer ((ring.startIdx + offset) % ring.slots))
    (new : ∀ offset, offset < len →
      next.buffer ((ring.startIdx + ring.size + offset) % ring.slots) = data offset) :
    queued next = queued ring ++ (List.range len).map data := by
  unfold queued
  rw [slots, start, size, window_append, window_mod_start]
  congr 1
  · exact window_congr _ _ _ _ _ old
  · apply List.map_congr_left
    intro offset member
    exact new offset (List.mem_range.mp member)

theorem write_refines (ring : HttpBuffer) (consistent : Consistent ring)
    (data : Nat → UInt8) (len : Nat) (fits : len ≤ ring.capacity - ring.size) :
    ∃ next, ring.write data len = .ok (true, next) ∧ Consistent next ∧
      queued next = queued ring ++ (List.range len).map data := by
  obtain ⟨capacity, start, size, finish⟩ := consistent
  have slots : ring.slots = ring.capacity + 1 := rfl
  have total : (ring.size + len) % 2 ^ 64 = ring.size + len := Nat.mod_eq_of_lt (by omega)
  by_cases order : ring.startIdx ≤ ring.endIdx
  · have straight : ring.endIdx = ring.startIdx + ring.size ∧ ring.endIdx ≤ ring.slots := by omega
    by_cases contiguous : ring.endIdx + len ≤ ring.slots
    · refine ⟨_, ring.write_straight data len order contiguous (by omega) (by omega), ?_, ?_⟩
      · refine ⟨capacity, start, ?_, .inl ?_⟩
        · simp only [total]
          omega
        · simp only [total, HttpBuffer.slots] at *
          omega
      · refine queued_append ring _ data len rfl rfl total ?_ ?_
        · intro offset inside
          rw [Nat.mod_eq_of_lt (show ring.startIdx + offset < ring.slots by omega)]
          exact if_neg (by omega)
        · intro offset inside
          rw [Nat.mod_eq_of_lt (show ring.startIdx + ring.size + offset < ring.slots by omega)]
          exact (if_pos (by omega)).trans (congrArg data (by omega))
    · refine ⟨_, ring.write_wrapping data len order start straight.2 (by omega) (by omega) (by omega),
        ?_, ?_⟩
      · refine ⟨capacity, start, ?_, .inr ?_⟩
        · simp only [total]
          omega
        · simp only [total, HttpBuffer.slots] at *
          omega
      · refine queued_append ring _ data len rfl rfl total ?_ ?_
        · intro offset inside
          rw [Nat.mod_eq_of_lt (show ring.startIdx + offset < ring.slots by omega)]
          exact (if_neg (by omega)).trans (if_neg (by omega))
        · intro offset inside
          rcases mod_cases (ring.startIdx + ring.size + offset) ring.slots (by omega) with
            ⟨small, same⟩ | ⟨large, same⟩
          · rw [same]
            exact ((if_neg (by omega)).trans (if_pos (by omega))).trans (congrArg data (by omega))
          · rw [same]
            exact (if_pos (by omega)).trans (congrArg data (by omega))
  · have wrapped : ring.endIdx + ring.slots = ring.startIdx + ring.size := by omega
    refine ⟨_, ring.write_behind data len (by omega) (by omega) (by omega) (by omega), ?_, ?_⟩
    · refine ⟨capacity, start, ?_, .inr ?_⟩
      · simp only [total]
        omega
      · simp only [total, HttpBuffer.slots] at *
        omega
    · refine queued_append ring _ data len rfl rfl total ?_ ?_
      · intro offset inside
        rcases mod_cases (ring.startIdx + offset) ring.slots (by omega) with
          ⟨small, same⟩ | ⟨large, same⟩ <;> rw [same] <;> exact if_neg (by omega)
      · intro offset inside
        rcases mod_cases (ring.startIdx + ring.size + offset) ring.slots (by omega) with
          ⟨small, same⟩ | ⟨large, same⟩
        · omega
        · rw [same]
          exact (if_pos (by omega)).trans (congrArg data (by omega))

theorem queued_advanced (ring : HttpBuffer) (size : Nat) (bound : size ≤ ring.size)
    (left : subSize ring.size size = ring.size - size) :
    queued (ring.advanced size) = (queued ring).drop size := by
  rw [queued, queued, window_drop _ _ _ _ _ bound]
  simp only [HttpBuffer.advanced, HttpBuffer.slots, left]

theorem queued_wrapped (ring : HttpBuffer) (inside : ring.startIdx ≤ ring.slots)
    (finish : ring.endIdx + ring.slots = ring.startIdx + ring.size)
    (order : ring.endIdx ≤ ring.slots) :
    queued ring =
      (List.range (ring.slots - ring.startIdx)).map (fun index => ring.buffer (ring.startIdx + index)) ++
        (List.range ring.endIdx).map (fun index => ring.buffer (0 + index)) := by
  unfold queued
  have split : ring.size = (ring.slots - ring.startIdx) + ring.endIdx := by omega
  have turned : (ring.startIdx + (ring.slots - ring.startIdx)) % ring.slots = 0 := by
    rw [Nat.add_sub_cancel' inside, Nat.mod_self]
  rw [split, window_append, turned, window_straight _ _ _ _ (by omega),
    window_straight _ _ _ _ (by omega)]

theorem read_refines (ring : HttpBuffer) (consistent : Consistent ring) (size : Nat)
    (serves : Serves ring (.readBySize size)) (bound : size ≤ ring.size) :
    ∃ next, ring.readBySize size = .ok (some ((queued ring).take size), next) ∧
      Consistent next ∧ queued next = (queued ring).drop size := by
  obtain ⟨capacity, start, full, finish⟩ := consistent
  obtain ⟨narrow, boundary, whole⟩ := serves
  simp only [HttpBuffer.getDataSize] at boundary whole
  have slots : ring.slots = ring.capacity + 1 := rfl
  have left : subSize ring.size size = ring.size - size := subSize_of_le bound (by omega)
  have advance := ring.consume_ok size (by omega)
  by_cases order : ring.startIdx ≤ ring.endIdx
  · have straight : ring.endIdx = ring.startIdx + ring.size ∧ ring.endIdx ≤ ring.slots := by omega
    have enough : ¬ (ring.endIdx : Int) - ring.startIdx < castInt size := by
      rw [castInt_of_lt narrow]
      omega
    have inside : ring.startIdx + size < ring.slots := by
      by_contra outside
      have none := boundary (by omega) (by omega)
      omega
    have copied := copyOut_ok ring.slots ring.buffer ring.startIdx size (by omega)
    refine ⟨ring.advanced size, ?_, ?_, queued_advanced ring size bound left⟩
    · rw [HttpBuffer.readBySize, if_pos order, if_neg enough, copied, ok_bind, advance, ok_bind]
      rw [queued, window_take _ _ _ _ _ bound, window_straight _ _ _ _ (by omega)]
    · rw [HttpBuffer.advanced, left, Nat.mod_eq_of_lt inside]
      refine ⟨capacity, inside, ?_, .inl ⟨?_, straight.2⟩⟩
      · exact (Nat.sub_le ..).trans full
      · change ring.endIdx = ring.startIdx + size + (ring.size - size)
        omega
  · have wrapped : ring.endIdx + ring.slots = ring.startIdx + ring.size := by omega
    have all : size = ring.size := le_antisymm bound (whole (by omega))
    subst size
    have right : subSize ring.slots ring.startIdx = ring.slots - ring.startIdx :=
      subSize_of_le (by omega) (by omega)
    have turned : (ring.startIdx + ring.size) % ring.slots = ring.endIdx := by
      rw [← wrapped, Nat.add_mod_right, Nat.mod_eq_of_lt (by omega)]
    have copiedRight := copyOut_ok ring.slots ring.buffer ring.startIdx
      (ring.slots - ring.startIdx) (by omega)
    have copiedLeft := copyOut_ok ring.slots ring.buffer 0 ring.endIdx (by omega)
    refine ⟨ring.advanced ring.size, ?_, ?_, queued_advanced ring ring.size bound left⟩
    · rw [HttpBuffer.readBySize, if_neg order, right]
      rw [if_neg (by omega), if_neg (by omega), copiedRight, ok_bind, copiedLeft, ok_bind,
        advance, ok_bind, ← queued_wrapped ring (by omega) wrapped (by omega)]
      rw [List.take_of_length_le (by rw [queued_length])]
    · rw [HttpBuffer.advanced, left, turned, Nat.sub_self]
      refine ⟨capacity, ?_, Nat.zero_le _, .inl ⟨rfl, ?_⟩⟩
      · change ring.endIdx < ring.slots
        omega
      · change ring.endIdx ≤ ring.slots
        omega

theorem read_refuses (ring : HttpBuffer) (consistent : Consistent ring) (size : Nat)
    (narrow : size < 2 ^ 31) (short : ring.size < size) :
    ring.readBySize size = .ok (none, ring) := by
  obtain ⟨capacity, start, full, finish⟩ := consistent
  have slots : ring.slots = ring.capacity + 1 := rfl
  by_cases order : ring.startIdx ≤ ring.endIdx
  · rw [HttpBuffer.readBySize, if_pos order, castInt_of_lt narrow, if_pos (by omega)]
  · have right : subSize ring.slots ring.startIdx = ring.slots - ring.startIdx :=
      subSize_of_le (by omega) (by omega)
    rw [HttpBuffer.readBySize, if_neg order, right]
    rw [if_pos (by omega)]

def Related (ring : HttpBuffer) (queue : List UInt8) : Prop :=
  Consistent ring ∧ queued ring = queue

theorem call_refines (ring : HttpBuffer) (queue : List UInt8) (call : Call)
    (related : Related ring queue) (issued : Fits ring call ∧ Serves ring call) :
    ∃ next, HttpBuffer.call ring call = .ok ((queueCall queue call).1, next) ∧
      Related next (queueCall queue call).2 := by
  obtain ⟨consistent, rfl⟩ := related
  cases call with
  | write data len =>
      obtain ⟨next, wrote, kept, contents⟩ := write_refines ring consistent data len issued.1
      refine ⟨next, ?_, kept, contents⟩
      simp only [HttpBuffer.call, wrote, ok_bind, queueCall, ← contents, queued_length,
        HttpBuffer.getDataSize]
  | readBySize size =>
      by_cases bound : size ≤ ring.size
      · obtain ⟨next, read, kept, contents⟩ := read_refines ring consistent size issued.2 bound
        have enough : size ≤ (queued ring).length := by rwa [queued_length]
        simp only [HttpBuffer.call, queueCall, if_pos enough, read, ok_bind]
        exact ⟨next, by rw [← contents, queued_length, HttpBuffer.getDataSize], kept, contents⟩
      · have refused := read_refuses ring consistent size issued.2.1 (by omega)
        have short : ¬ size ≤ (queued ring).length := by rwa [queued_length]
        simp only [HttpBuffer.call, queueCall, if_neg short, refused, ok_bind]
        exact ⟨ring, by rw [queued_length, HttpBuffer.getDataSize], consistent, rfl⟩

/-- Sequences of fitting writes and served reads on a fresh buffer are answered as by a
bounded FIFO queue, with `get_data_size` equal to its length after every call. -/
theorem served_calls_refine_queue (capacity : Nat) (bound : capacity < 2 ^ 30)
    (junk : Nat → UInt8) (calls : List Call)
    (issued : Issued HttpBuffer.call (fun ring call => Fits ring call ∧ Serves ring call)
      (HttpBuffer.fresh capacity junk) calls) :
    answers HttpBuffer.call (HttpBuffer.fresh capacity junk) calls =
      .ok (execSpec queueCall [] calls).1 := by
  have start : Related (HttpBuffer.fresh capacity junk) [] :=
    ⟨fresh_consistent capacity junk bound, rfl⟩
  exact answers_refine call_refines calls _ _ start issued

/-- Five slots: the second write wraps, the third read takes everything and the last one
asks an empty buffer. -/
def wrappingCalls : List Call :=
  [.write (fun index => 97 + index.toUInt8) 3, .readBySize 2,
    .write (fun index => 100 + index.toUInt8) 3, .readBySize 4, .readBySize 1]

theorem wrapping_calls_served :
    answers HttpBuffer.call (HttpBuffer.fresh 4 fun _ => 0) wrappingCalls =
      .ok (execSpec queueCall [] wrappingCalls).1 :=
  served_calls_refine_queue 4 (by decide) (fun _ => 0) wrappingCalls (by decide +kernel)

/-- One-byte writes and reads on a one-byte buffer. The second write ends exactly behind
the last slot, the second read then empties the ring, and the third write is refused. -/
def boundaryCalls : List Call :=
  [.write (fun _ => 97) 1, .readBySize 1, .write (fun _ => 98) 1, .readBySize 1,
    .write (fun _ => 99) 1]

theorem boundary_write_refused :
    ¬ ∀ (capacity : Nat) (junk : Nat → UInt8) (calls : List Call), 1 ≤ capacity →
      Issued HttpBuffer.call Fits (HttpBuffer.fresh capacity junk) calls →
      answers HttpBuffer.call (HttpBuffer.fresh capacity junk) calls =
        .ok (execSpec queueCall [] calls).1 := by
  intro always_answered
  have answered := always_answered 1 (fun _ => 0) boundaryCalls (by decide) (by decide +kernel)
  exact absurd answered (by decide +kernel)

end OtaMqtt.Http.BufferQueue
