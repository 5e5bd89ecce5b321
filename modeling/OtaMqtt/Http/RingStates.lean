import OtaMqtt.Http.Buffer
import OtaMqtt.Lib.Trace

/-! The states `HttpBuffer` goes through under any sequence of calls: what its indices and
its size say, which bytes its `memcpy` calls touch, and what it advertises as free. -/

namespace OtaMqtt.Http.RingStates

open OtaMqtt.Lib.Execution OtaMqtt.Lib.Ring OtaMqtt.Lib.Trace
open OtaMqtt.Http.Buffer

inductive Call where
  | write (data : Nat → UInt8) (len : Nat)
  | readBySize (size : Nat)
  | readByEnd (idx : Int)

/-- The ring after a call. An argument of `read_by_end` that is not positive stands for the
last slot; `INT_MIN` cannot be decremented. -/
def act (ring : HttpBuffer) : Call → Run HttpBuffer
  | .write data len => (ring.write data len).map Prod.snd
  | .readBySize size => (ring.readBySize size).map Prod.snd
  | .readByEnd idx =>
      if idx ≤ -2 ^ 31 then .error .intOverflow else (ring.readByEnd idx.toNat).map Prod.snd

/-- A call that leaves the defined behaviour of the source reaches no state. -/
def step (ring : HttpBuffer) (call : Call) : Option HttpBuffer := (act ring call).toOption

structure InRange (ring : HttpBuffer) : Prop where
  narrow : ring.slots < 2 ^ 31
  start : ring.startIdx < ring.slots
  finish : ring.endIdx ≤ ring.slots

/-- The slots that `write` takes to be free. -/
def room (ring : HttpBuffer) : Nat :=
  if ring.startIdx ≤ ring.endIdx then ring.startIdx + (ring.slots - ring.endIdx)
  else ring.startIdx - ring.endIdx

/-- The slots from `m_start_idx` up to `m_end_idx`. -/
def occupied (ring : HttpBuffer) : Nat :=
  if ring.startIdx ≤ ring.endIdx then ring.endIdx - ring.startIdx
  else ring.endIdx + ring.slots - ring.startIdx

/-- Where `m_end_idx` stands after an accepted write. -/
def landing (ring : HttpBuffer) (len : Nat) : Nat :=
  if ring.endIdx + len ≤ ring.slots then ring.endIdx + len else ring.endIdx + len - ring.slots

theorem fresh_inRange (capacity : Nat) (junk : Nat → UInt8) (narrow : capacity + 1 < 2 ^ 31) :
    InRange (HttpBuffer.fresh capacity junk) where
  narrow := narrow
  start := Nat.succ_pos capacity
  finish := Nat.zero_le _

theorem right_size (ring : HttpBuffer) (inside : InRange ring) :
    subSize ring.slots ring.endIdx = ring.slots - ring.endIdx :=
  subSize_of_le inside.finish (by have := inside.narrow; omega)

theorem write_spec (ring : HttpBuffer) (inside : InRange ring) (data : Nat → UInt8) (len : Nat) :
    (room ring < len ∧ ring.write data len = .ok (false, ring)) ∨
      (len ≤ room ring ∧ ∃ bytes, ring.write data len = .ok (true, { ring with
        buffer := bytes, endIdx := landing ring len, size := (ring.size + len) % 2 ^ 64 })) := by
  have right := right_size ring inside
  obtain ⟨narrow, start, finish⟩ := inside
  by_cases order : ring.startIdx ≤ ring.endIdx
  · have free : room ring = ring.startIdx + (ring.slots - ring.endIdx) := if_pos order
    rw [HttpBuffer.write, if_pos order, right, free]
    by_cases refused : ring.startIdx + (ring.slots - ring.endIdx) < len
    · exact .inl ⟨refused, if_pos refused⟩
    · refine .inr ⟨by omega, ?_⟩
      rw [if_neg refused]
      by_cases contiguous : len ≤ ring.slots - ring.endIdx
      · have lands : landing ring len = ring.endIdx + len := if_pos (by omega)
        rw [if_pos contiguous, copyIn_ok _ _ _ _ _ (by omega), ok_bind,
          toInt_of_lt (by omega), lands]
        exact ⟨_, rfl⟩
      · have lands : landing ring len = ring.endIdx + len - ring.slots := if_neg (by omega)
        have reduced : (ring.endIdx + len) % ring.slots = ring.endIdx + len - ring.slots := by
          rcases mod_cases (ring.endIdx + len) ring.slots (by omega) with ⟨_, _⟩ | ⟨_, wrapped⟩
          · omega
          · exact wrapped
        rw [if_neg contiguous, copyIn_ok _ _ _ _ _ (by omega), ok_bind,
          copyIn_ok _ _ _ _ _ (by omega), ok_bind, reduced, toInt_of_lt (by omega), lands]
        exact ⟨_, rfl⟩
  · have free : room ring = ring.startIdx - ring.endIdx := if_neg order
    rw [HttpBuffer.write, if_neg order, free]
    by_cases refused : ring.startIdx - ring.endIdx < len
    · exact .inl ⟨refused, if_pos refused⟩
    · have lands : landing ring len = ring.endIdx + len := if_pos (by omega)
      refine .inr ⟨by omega, ?_⟩
      rw [if_neg refused, copyIn_ok _ _ _ _ _ (by omega), ok_bind, toInt_of_lt (by omega), lands]
      exact ⟨_, rfl⟩

theorem write_accepted_iff (ring : HttpBuffer) (inside : InRange ring) (data : Nat → UInt8)
    (len : Nat) : (∃ next, ring.write data len = .ok (true, next)) ↔ len ≤ room ring := by
  rcases write_spec ring inside data len with ⟨short, refused⟩ | ⟨enough, bytes, accepted⟩
  · constructor
    · rintro ⟨next, accepted⟩
      rw [refused] at accepted
      cases accepted
    · intro enough
      omega
  · exact ⟨fun _ => enough, fun _ => ⟨_, accepted⟩⟩

theorem consume_cases (ring next : HttpBuffer) (count : Nat) (taken : ring.consume count = .ok next) :
    next = ring.advanced count := by
  rw [HttpBuffer.consume, bind_eq_ok] at taken
  obtain ⟨startIdx, stored, rest⟩ := taken
  rw [toInt] at stored
  split at stored
  · cases stored
    cases rest
    rfl
  · cases stored

theorem copyOut_cases {limit offset count : Nat} {slots : Nat → UInt8} {ret : List UInt8}
    (copied : copyOut limit slots offset count = .ok ret) : offset + count ≤ limit := by
  rw [copyOut] at copied
  split at copied
  · assumption
  · cases copied

def Reads (ring next : HttpBuffer) : Prop :=
  next = ring ∨ ∃ count, count ≤ occupied ring ∧ next = ring.advanced count

theorem straight_reads (ring next : HttpBuffer) (ret : Option (List UInt8)) (size : Nat)
    (bound : ring.startIdx + size ≤ ring.slots → size ≤ occupied ring)
    (read : (do
      let ret ← copyOut ring.slots ring.buffer ring.startIdx size
      let next ← ring.consume size
      .ok (some ret, next)) = (Except.ok (ret, next) : Run (Option (List UInt8) × HttpBuffer))) : Reads ring next := by
  rw [bind_eq_ok] at read
  obtain ⟨bytes, copied, rest⟩ := read
  rw [bind_eq_ok] at rest
  obtain ⟨after, taken, done⟩ := rest
  cases done
  exact .inr ⟨size, bound (copyOut_cases copied), consume_cases ring _ size taken⟩

theorem wrapped_reads (ring next : HttpBuffer) (ret : Option (List UInt8)) (right left size : Nat)
    (bound : size ≤ occupied ring)
    (read : (do
      let first ← copyOut ring.slots ring.buffer ring.startIdx right
      let second ← copyOut ring.slots ring.buffer 0 left
      let next ← ring.consume size
      .ok (some (first ++ second), next)) = (Except.ok (ret, next) : Run (Option (List UInt8) × HttpBuffer))) :
    Reads ring next := by
  rw [bind_eq_ok] at read
  obtain ⟨first, _, rest⟩ := read
  rw [bind_eq_ok] at rest
  obtain ⟨second, _, rest⟩ := rest
  rw [bind_eq_ok] at rest
  obtain ⟨after, taken, done⟩ := rest
  cases done
  exact .inr ⟨size, bound, consume_cases ring _ size taken⟩

theorem readBySize_reads (ring : HttpBuffer) (inside : InRange ring) (size : Nat)
    (ret : Option (List UInt8)) (next : HttpBuffer) (read : ring.readBySize size = .ok (ret, next)) :
    Reads ring next := by
  obtain ⟨narrow, start, finish⟩ := inside
  by_cases order : ring.startIdx ≤ ring.endIdx
  · have held : occupied ring = ring.endIdx - ring.startIdx := if_pos order
    rw [HttpBuffer.readBySize, if_pos order] at read
    by_cases short : (ring.endIdx : Int) - ring.startIdx < castInt size
    · rw [if_pos short] at read
      cases read
      exact .inl rfl
    · rw [if_neg short] at read
      apply straight_reads ring next ret size _ read
      intro copied
      rw [castInt_of_lt (by omega)] at short
      omega
  · have held : occupied ring = ring.endIdx + ring.slots - ring.startIdx := if_neg order
    have right : subSize ring.slots ring.startIdx = ring.slots - ring.startIdx :=
      subSize_of_le (by omega) (by omega)
    rw [HttpBuffer.readBySize, if_neg order, right] at read
    by_cases short : ring.endIdx + (ring.slots - ring.startIdx) < size
    · rw [if_pos short] at read
      cases read
      exact .inl rfl
    · rw [if_neg short] at read
      by_cases part : size < ring.endIdx + (ring.slots - ring.startIdx)
      · rw [if_pos part] at read
        cases read
      · rw [if_neg part] at read
        exact wrapped_reads ring next ret _ _ size (by omega) read

theorem readByEnd_reads (ring : HttpBuffer) (inside : InRange ring) (idx : Nat)
    (ret : Option (List UInt8)) (next : HttpBuffer) (read : ring.readByEnd idx = .ok (ret, next)) :
    Reads ring next := by
  obtain ⟨narrow, start, finish⟩ := inside
  rw [HttpBuffer.readByEnd] at read
  generalize (if idx = 0 then ring.slots - 1 else idx - 1) = last at read
  by_cases order : ring.startIdx ≤ ring.endIdx
  · have held : occupied ring = ring.endIdx - ring.startIdx := if_pos order
    simp only [if_pos order] at read
    by_cases refused : last < ring.startIdx ∨ ring.endIdx ≤ last
    · rw [if_pos refused] at read
      cases read
      exact .inl rfl
    · rw [if_neg refused] at read
      exact straight_reads ring next ret _ (fun _ => by omega) read
  · have held : occupied ring = ring.endIdx + ring.slots - ring.startIdx := if_neg order
    simp only [if_neg order] at read
    by_cases refused : ring.endIdx ≤ last ∧ last < ring.startIdx
    · rw [if_pos refused] at read
      cases read
      exact .inl rfl
    · rw [if_neg refused] at read
      by_cases behind : ring.startIdx ≤ last
      · rw [if_pos behind] at read
        exact straight_reads ring next ret _ (fun copied => by omega) read
      · have right : subSize ring.slots ring.startIdx = ring.slots - ring.startIdx :=
          subSize_of_le (by omega) (by omega)
        rw [if_neg behind, right] at read
        exact wrapped_reads ring next ret _ _ _ (by omega) read

/-- `read_by_end` leaves `m_start_idx` at the index that it was given. -/
theorem readByEnd_start (ring next : HttpBuffer) (inside : InRange ring) (idx : Nat)
    (below : idx < ring.slots) (data : List UInt8)
    (read : ring.readByEnd idx = .ok (some data, next)) : next.startIdx = idx := by
  obtain ⟨narrow, start, finish⟩ := inside
  have after : ((if idx = 0 then ring.slots - 1 else idx - 1) + 1) % ring.slots = idx := by
    split
    · rw [Nat.sub_add_cancel (by omega), Nat.mod_self]
      omega
    · rw [Nat.sub_add_cancel (by omega), Nat.mod_eq_of_lt below]
  rw [HttpBuffer.readByEnd] at read
  generalize (if idx = 0 then ring.slots - 1 else idx - 1) = last at read after
  have straight : ∀ size, ring.startIdx + size = last + 1 → (do
      let ret ← copyOut ring.slots ring.buffer ring.startIdx size
      let next ← ring.consume size
      .ok (some ret, next)) = (Except.ok (some data, next) : Run (Option (List UInt8) × HttpBuffer)) →
      next.startIdx = idx := by
    intro size total read
    rw [bind_eq_ok] at read
    obtain ⟨bytes, _, read⟩ := read
    rw [bind_eq_ok] at read
    obtain ⟨taken, consumed, done⟩ := read
    cases done
    rw [consume_cases ring _ size consumed, HttpBuffer.advanced_startIdx, total, after]
  by_cases order : ring.startIdx ≤ ring.endIdx
  · simp only [if_pos order] at read
    split at read
    · cases read
    · exact straight _ (by omega) read
  · simp only [if_neg order] at read
    split at read
    · cases read
    split at read
    · exact straight _ (by omega) read
    · have right : subSize ring.slots ring.startIdx = ring.slots - ring.startIdx :=
        subSize_of_le (by omega) (by omega)
      rw [right, bind_eq_ok] at read
      obtain ⟨first, _, read⟩ := read
      rw [bind_eq_ok] at read
      obtain ⟨second, _, read⟩ := read
      rw [bind_eq_ok] at read
      obtain ⟨taken, consumed, done⟩ := read
      cases done
      rw [consume_cases ring _ _ consumed, HttpBuffer.advanced_startIdx,
        show ring.startIdx + (ring.slots - ring.startIdx + (last + 1)) = ring.slots + (last + 1) by omega,
        Nat.add_mod_left, after]

theorem readByEnd_takes (ring : HttpBuffer) (inside : InRange ring) (count : Nat) (some' : 1 ≤ count)
    (held : count ≤ occupied ring) (bound : ring.startIdx + count < 2 ^ 31) :
    ring.readByEnd ((ring.startIdx + count) % ring.slots) =
      .ok (some (window ring.buffer ring.slots ring.startIdx count), ring.advanced count) := by
  obtain ⟨narrow, start, finish⟩ := inside
  have consumed := ring.consume_ok count bound
  have within : count ≤ ring.slots := by
    rw [occupied] at held
    split at held <;> omega
  rw [HttpBuffer.readByEnd]
  by_cases piece : ring.startIdx + count ≤ ring.slots
  · have behind : (if (ring.startIdx + count) % ring.slots = 0 then ring.slots - 1
        else (ring.startIdx + count) % ring.slots - 1) = ring.startIdx + count - 1 := by
      rcases mod_cases (ring.startIdx + count) ring.slots (by omega) with ⟨_, same⟩ | ⟨_, same⟩
      · rw [same, if_neg (by omega)]
      · rw [same, if_pos (by omega)]
        omega
    have all : ring.startIdx + count - 1 - ring.startIdx + 1 = count := by omega
    simp only [behind]
    by_cases order : ring.startIdx ≤ ring.endIdx
    · rw [occupied, if_pos order] at held
      rw [if_pos order, if_neg (by omega), all, copyOut_ok _ _ _ _ piece, ok_bind, consumed, ok_bind,
        window_straight _ _ _ _ piece]
    · rw [if_neg order, if_neg (by omega), if_pos (by omega), all, copyOut_ok _ _ _ _ piece, ok_bind,
        consumed, ok_bind, window_straight _ _ _ _ piece]
  · have order : ¬ ring.startIdx ≤ ring.endIdx := by
      intro order
      rw [occupied, if_pos order] at held
      omega
    rw [occupied, if_neg order] at held
    have right : subSize ring.slots ring.startIdx = ring.slots - ring.startIdx :=
      subSize_of_le (by omega) (by omega)
    have behind : (if (ring.startIdx + count) % ring.slots = 0 then ring.slots - 1
        else (ring.startIdx + count) % ring.slots - 1) = ring.startIdx + count - ring.slots - 1 := by
      rcases mod_cases (ring.startIdx + count) ring.slots (by omega) with ⟨_, same⟩ | ⟨_, same⟩
      · omega
      · rw [same, if_neg (by omega)]
    have front : ring.startIdx + count - ring.slots - 1 + 1 = ring.startIdx + count - ring.slots := by
      omega
    have all : ring.slots - ring.startIdx + (ring.startIdx + count - ring.slots) = count := by omega
    have turned : (ring.startIdx + (ring.slots - ring.startIdx)) % ring.slots = 0 := by
      rw [Nat.add_sub_cancel' (by omega), Nat.mod_self]
    have parts := window_append ring.buffer ring.slots ring.startIdx (ring.slots - ring.startIdx)
      (ring.startIdx + count - ring.slots)
    rw [all, turned, window_straight _ _ _ (ring.slots - ring.startIdx) (by omega),
      window_straight _ _ 0 _ (by omega)] at parts
    simp only [behind, front]
    rw [if_neg order, if_neg (by omega), if_neg (by omega), right, all,
      copyOut_ok _ _ _ _ (by omega), ok_bind, copyOut_ok _ _ _ _ (by omega), ok_bind, consumed,
      ok_bind, ← parts]

theorem map_snd_eq_ok {α β : Type} (outcome : Run (α × β)) (next : β)
    (mapped : outcome.map Prod.snd = .ok next) : ∃ reply, outcome = .ok (reply, next) := by
  cases outcome with
  | error reason => cases mapped
  | ok pair =>
      cases mapped
      exact ⟨pair.1, rfl⟩

theorem step_cases (ring next : HttpBuffer) (inside : InRange ring) (call : Call)
    (taken : step ring call = some next) :
    (∃ data len bytes, call = .write data len ∧ len ≤ room ring ∧ next = { ring with
      buffer := bytes, endIdx := landing ring len, size := (ring.size + len) % 2 ^ 64 }) ∨
    (∃ data len, call = .write data len ∧ room ring < len ∧ next = ring) ∨
    ((∀ data len, call ≠ .write data len) ∧ Reads ring next) := by
  have acted : act ring call = .ok next := by
    cases answer : act ring call with
    | error reason => simp [step, answer, Except.toOption] at taken
    | ok reached =>
        simp only [step, answer, Except.toOption, Option.some.injEq] at taken
        rw [taken]
  cases call with
  | write data len =>
      obtain ⟨accepted, wrote⟩ := map_snd_eq_ok _ _ acted
      rcases write_spec ring inside data len with ⟨short, refused⟩ | ⟨enough, bytes, done⟩
      · rw [refused] at wrote
        cases wrote
        exact .inr (.inl ⟨data, len, rfl, short, rfl⟩)
      · rw [done, Except.ok.injEq, Prod.mk.injEq] at wrote
        exact .inl ⟨data, len, bytes, rfl, enough, wrote.2.symm⟩
  | readBySize size =>
      obtain ⟨ret, read⟩ := map_snd_eq_ok _ _ acted
      exact .inr (.inr ⟨nofun, readBySize_reads ring inside size ret next read⟩)
  | readByEnd idx =>
      rw [act] at acted
      split at acted
      · cases acted
      · obtain ⟨ret, read⟩ := map_snd_eq_ok _ _ acted
        exact .inr (.inr ⟨nofun, readByEnd_reads ring inside _ ret next read⟩)

theorem advanced_slots (ring : HttpBuffer) (count : Nat) :
    (ring.advanced count).slots = ring.slots := by
  rw [HttpBuffer.slots, HttpBuffer.advanced_capacity, HttpBuffer.slots]

theorem landing_cases (ring : HttpBuffer) (len : Nat) :
    (ring.endIdx + len ≤ ring.slots ∧ landing ring len = ring.endIdx + len) ∨
      (ring.slots < ring.endIdx + len ∧ landing ring len = ring.endIdx + len - ring.slots) := by
  rw [landing]
  split <;> omega

theorem landing_inside (ring : HttpBuffer) (inside : InRange ring) (len : Nat)
    (enough : len ≤ room ring) : landing ring len ≤ ring.slots := by
  obtain ⟨narrow, start, finish⟩ := inside
  rw [landing]
  split
  · assumption
  · rw [room] at enough
    split at enough <;> omega

theorem written_inRange (ring : HttpBuffer) (inside : InRange ring) (len : Nat)
    (bytes : Nat → UInt8) (size : Nat) (enough : len ≤ room ring) :
    InRange { ring with buffer := bytes, endIdx := landing ring len, size := size } where
  narrow := inside.narrow
  start := inside.start
  finish := landing_inside ring inside len enough

theorem advanced_inRange (ring : HttpBuffer) (inside : InRange ring) (count : Nat) :
    InRange (ring.advanced count) where
  narrow := by
    rw [advanced_slots]
    exact inside.narrow
  start := by
    rw [advanced_slots, HttpBuffer.advanced_startIdx]
    exact Nat.mod_lt _ (Nat.succ_pos ring.capacity)
  finish := by
    rw [advanced_slots, HttpBuffer.advanced_endIdx]
    exact inside.finish

/-- Whatever is called, with whatever arguments, the indices stay in the array or right
behind it. -/
theorem step_inRange (ring : HttpBuffer) (call : Call) (next : HttpBuffer) (inside : InRange ring)
    (taken : step ring call = some next) : InRange next ∧ next.capacity = ring.capacity := by
  rcases step_cases ring next inside call taken with
    ⟨data, len, bytes, _, enough, rfl⟩ | ⟨_, _, _, _, rfl⟩ | ⟨_, rfl | ⟨count, _, rfl⟩⟩
  · exact ⟨written_inRange ring inside len bytes _ enough, rfl⟩
  · exact ⟨inside, rfl⟩
  · exact ⟨inside, rfl⟩
  · exact ⟨advanced_inRange ring inside count, ring.advanced_capacity count⟩

theorem run_inRange (capacity : Nat) (narrow : capacity + 1 < 2 ^ 31) (junk : Nat → UInt8)
    (calls : List Call) (ring : HttpBuffer)
    (reached : run step (HttpBuffer.fresh capacity junk) calls = some ring) :
    InRange ring ∧ ring.capacity = capacity := by
  have kept : ∀ before call after, InRange before ∧ before.capacity = capacity →
      step before call = some after → InRange after ∧ after.capacity = capacity := by
    intro before call after holds taken
    have next := step_inRange before call after holds.1 taken
    exact ⟨next.1, next.2.trans holds.2⟩
  exact run_preserves kept calls _ ring ⟨fresh_inRange capacity junk narrow, rfl⟩ reached

/-- One `memcpy`: `count` bytes from the offset `source` of one array to the offset `target`
of the other. -/
structure Copy where
  target : Nat
  source : Nat
  count : Nat
  deriving DecidableEq

def total (copies : List Copy) : Nat := (copies.map Copy.count).sum

/-- The `memcpy` calls of `write`, from the caller's data into the ring; `none` when the
request is refused. -/
def writeCopies (ring : HttpBuffer) (len : Nat) : Option (List Copy) :=
  if ring.startIdx ≤ ring.endIdx then
    let leftAvailableSize := ring.startIdx
    let rightAvailableSize := subSize ring.slots ring.endIdx
    if leftAvailableSize + rightAvailableSize < len then none
    else if len ≤ rightAvailableSize then some [⟨ring.endIdx, 0, len⟩]
    else some [⟨ring.endIdx, 0, rightAvailableSize⟩, ⟨0, rightAvailableSize, leftAvailableSize⟩]
  else if ring.startIdx - ring.endIdx < len then none
  else some [⟨ring.endIdx, 0, len⟩]

/-- The `memcpy` calls of `read_by_size`, from the ring into an array of `size` bytes. -/
def readBySizeCopies (ring : HttpBuffer) (size : Nat) : Option (List Copy) :=
  if ring.startIdx ≤ ring.endIdx then
    if (ring.endIdx : Int) - ring.startIdx < castInt size then none
    else some [⟨0, ring.startIdx, size⟩]
  else
    let leftSize := ring.endIdx
    let rightSize := subSize ring.slots ring.startIdx
    if leftSize + rightSize < size then none
    else some [⟨0, ring.startIdx, rightSize⟩, ⟨rightSize, 0, leftSize⟩]

/-- The `memcpy` calls of `read_by_end`, with the size of the array it allocates for them. -/
def readByEndCopies (ring : HttpBuffer) (idx : Nat) : Option (Nat × List Copy) :=
  let idx := if idx = 0 then ring.slots - 1 else idx - 1
  if ring.startIdx ≤ ring.endIdx then
    if idx < ring.startIdx ∨ ring.endIdx ≤ idx then none
    else
      let size := idx - ring.startIdx + 1
      some (size, [⟨0, ring.startIdx, size⟩])
  else if ring.endIdx ≤ idx ∧ idx < ring.startIdx then none
  else if ring.startIdx ≤ idx then
    let size := idx - ring.startIdx + 1
    some (size, [⟨0, ring.startIdx, size⟩])
  else
    let rightSize := subSize ring.slots ring.startIdx
    let leftSize := idx + 1
    some (rightSize + leftSize, [⟨0, ring.startIdx, rightSize⟩, ⟨rightSize, 0, leftSize⟩])

def copyAll (limit : Nat) (data : Nat → UInt8) : List Copy → (Nat → UInt8) → Run (Nat → UInt8)
  | [], slots => .ok slots
  | copy :: copies, slots => do
      let slots ← copyIn limit slots copy.target (fun index => data (copy.source + index)) copy.count
      copyAll limit data copies slots

def gather (ring : HttpBuffer) : List Copy → Run (List UInt8)
  | [] => .ok []
  | copy :: copies => do
      let first ← copyOut ring.slots ring.buffer copy.source copy.count
      let rest ← gather ring copies
      .ok (first ++ rest)

/-- A read of `allocated` bytes whose copies lie end to end in the allocated array. -/
def serve (ring : HttpBuffer) (allocated : Nat) (copies : List Copy) :
    Run (Option (List UInt8) × HttpBuffer) :=
  if allocated < total copies then .error .outOfBounds
  else do
    let ret ← gather ring copies
    let next ← ring.consume allocated
    .ok (some ret, next)

theorem write_eq_copies (ring : HttpBuffer) (data : Nat → UInt8) (len : Nat) :
    ring.write data len =
      (match writeCopies ring len with
      | none => .ok (false, ring)
      | some copies => do
          let bytes ← copyAll ring.slots data copies ring.buffer
          let endIdx ← toInt (if copies.length = 1 then ring.endIdx + len
            else (ring.endIdx + len) % ring.slots)
          .ok (true, { ring with
            buffer := bytes, endIdx := endIdx, size := (ring.size + len) % 2 ^ 64 })) := by
  unfold HttpBuffer.write writeCopies
  by_cases order : ring.startIdx ≤ ring.endIdx
  · simp only [if_pos order]
    by_cases refused : ring.startIdx + subSize ring.slots ring.endIdx < len
    · simp only [if_pos refused]
    · simp only [if_neg refused]
      by_cases contiguous : len ≤ subSize ring.slots ring.endIdx
      · simp [if_pos contiguous, copyAll]
      · simp [if_neg contiguous, copyAll]
  · simp only [if_neg order]
    by_cases refused : ring.startIdx - ring.endIdx < len
    · simp only [if_pos refused]
    · simp [if_neg refused, copyAll]

@[simp] theorem total_one (target source count : Nat) : total [⟨target, source, count⟩] = count := by
  simp [total]

@[simp] theorem total_two (target source count target' source' count' : Nat) :
    total [⟨target, source, count⟩, ⟨target', source', count'⟩] = count + count' := by
  simp [total]

theorem serve_one (ring : HttpBuffer) (target size : Nat) :
    serve ring size [⟨target, ring.startIdx, size⟩] = (do
      let ret ← copyOut ring.slots ring.buffer ring.startIdx size
      let next ← ring.consume size
      .ok (some ret, next)) := by
  rw [serve, total_one, if_neg (Nat.lt_irrefl size)]
  cases copied : copyOut ring.slots ring.buffer ring.startIdx size with
  | error reason => simp only [gather, copied, error_bind]
  | ok ret => simp only [gather, copied, ok_bind, List.append_nil]

theorem serve_two (ring : HttpBuffer) (target right left size : Nat) (fits : right + left ≤ size) :
    serve ring size [⟨0, ring.startIdx, right⟩, ⟨target, 0, left⟩] = (do
      let first ← copyOut ring.slots ring.buffer ring.startIdx right
      let second ← copyOut ring.slots ring.buffer 0 left
      let next ← ring.consume size
      .ok (some (first ++ second), next)) := by
  rw [serve, total_two, if_neg (by omega)]
  cases front : copyOut ring.slots ring.buffer ring.startIdx right with
  | error reason => simp only [gather, front, error_bind]
  | ok first =>
      cases back : copyOut ring.slots ring.buffer 0 left with
      | error reason => simp only [gather, front, back, ok_bind, error_bind]
      | ok second => simp only [gather, front, back, ok_bind, List.append_nil]

theorem readBySize_eq_copies (ring : HttpBuffer) (size : Nat) :
    ring.readBySize size =
      (match readBySizeCopies ring size with
      | none => .ok (none, ring)
      | some copies => serve ring size copies) := by
  unfold HttpBuffer.readBySize readBySizeCopies
  by_cases order : ring.startIdx ≤ ring.endIdx
  · simp only [if_pos order]
    by_cases short : (ring.endIdx : Int) - ring.startIdx < castInt size
    · simp only [if_pos short]
    · simp only [if_neg short, serve_one]
  · simp only [if_neg order]
    by_cases short : ring.endIdx + subSize ring.slots ring.startIdx < size
    · simp only [if_pos short]
    · simp only [if_neg short]
      by_cases part : size < ring.endIdx + subSize ring.slots ring.startIdx
      · rw [if_pos part, serve, total_two, if_pos (by omega)]
      · rw [if_neg part, serve_two _ _ _ _ _ (by omega)]

theorem readByEnd_eq_copies (ring : HttpBuffer) (idx : Nat) :
    ring.readByEnd idx =
      (match readByEndCopies ring idx with
      | none => .ok (none, ring)
      | some (allocated, copies) => serve ring allocated copies) := by
  unfold HttpBuffer.readByEnd readByEndCopies
  generalize (if idx = 0 then ring.slots - 1 else idx - 1) = last
  by_cases order : ring.startIdx ≤ ring.endIdx
  · simp only [if_pos order]
    by_cases refused : last < ring.startIdx ∨ ring.endIdx ≤ last
    · simp only [if_pos refused]
    · simp only [if_neg refused, serve_one]
  · simp only [if_neg order]
    by_cases refused : ring.endIdx ≤ last ∧ last < ring.startIdx
    · simp only [if_pos refused]
    · simp only [if_neg refused]
      by_cases behind : ring.startIdx ≤ last
      · simp only [if_pos behind, serve_one]
      · simp only [if_neg behind]
        rw [serve_two _ _ _ _ _ (Nat.le_refl _)]

/-- A call copies what was asked for: a write takes only the caller's `len` bytes and stores
all of them, a read fills exactly the array it returns. -/
def Exact (ring : HttpBuffer) : Call → Prop
  | .write _ len => ∀ copies, writeCopies ring len = some copies →
      (∀ copy ∈ copies, ∀ index < copy.count, copy.source + index < len) ∧ total copies = len
  | .readBySize size => ∀ copies, readBySizeCopies ring size = some copies → total copies = size
  | .readByEnd idx => ∀ allocated copies,
      readByEndCopies ring idx.toNat = some (allocated, copies) → total copies = allocated

/-- The calls whose second `memcpy` is as long as the request: no write that goes past the
last slot without filling every free slot, and, while the data wraps, no `read_by_size` for
less than all of it. -/
def Whole (ring : HttpBuffer) : Call → Prop
  | .write _ len => ¬ (ring.startIdx ≤ ring.endIdx ∧ ring.slots < ring.endIdx + len ∧
      ring.endIdx + len < ring.startIdx + ring.slots)
  | .readBySize size =>
      ¬ (ring.endIdx < ring.startIdx ∧ ring.startIdx + size < ring.endIdx + ring.slots)
  | .readByEnd _ => True

theorem write_exact_iff (ring : HttpBuffer) (inside : InRange ring) (data : Nat → UInt8) (len : Nat) :
    Exact ring (.write data len) ↔ Whole ring (.write data len) := by
  have right := right_size ring inside
  obtain ⟨narrow, start, finish⟩ := inside
  simp only [Exact, Whole, writeCopies, right]
  by_cases order : ring.startIdx ≤ ring.endIdx
  · simp only [if_pos order]
    by_cases refused : ring.startIdx + (ring.slots - ring.endIdx) < len
    · simp only [if_pos refused]
      exact ⟨fun _ => by omega, nofun⟩
    · simp only [if_neg refused]
      by_cases contiguous : len ≤ ring.slots - ring.endIdx
      · simp only [if_pos contiguous, Option.some.injEq, forall_eq', total_one]
        simp
        omega
      · simp only [if_neg contiguous, Option.some.injEq, forall_eq']
        constructor
        · intro exact
          have sum := exact.2
          rw [total_two] at sum
          omega
        · intro whole
          have sum : ring.slots - ring.endIdx + ring.startIdx = len := by omega
          refine ⟨?_, by rw [total_two, sum]⟩
          intro copy member index inside
          rcases List.mem_pair.mp member with rfl | rfl
          · simp only at inside ⊢
            omega
          · simp only at inside ⊢
            omega
  · simp only [if_neg order]
    by_cases refused : ring.startIdx - ring.endIdx < len
    · simp [if_pos refused, order]
    · simp [if_neg refused, order]

theorem readBySize_exact_iff (ring : HttpBuffer) (inside : InRange ring) (size : Nat) :
    Exact ring (.readBySize size) ↔ Whole ring (.readBySize size) := by
  obtain ⟨narrow, start, finish⟩ := inside
  have right : subSize ring.slots ring.startIdx = ring.slots - ring.startIdx :=
    subSize_of_le (by omega) (by omega)
  simp only [Exact, Whole, readBySizeCopies, right]
  by_cases order : ring.startIdx ≤ ring.endIdx
  · simp only [if_pos order]
    by_cases short : (ring.endIdx : Int) - ring.startIdx < castInt size
    · simp [if_pos short]
      omega
    · simp [if_neg short]
      omega
  · simp only [if_neg order]
    by_cases short : ring.endIdx + (ring.slots - ring.startIdx) < size
    · simp [if_pos short]
      omega
    · simp [if_neg short]
      omega

theorem readByEnd_exact (ring : HttpBuffer) (idx : Int) : Exact ring (.readByEnd idx) := by
  intro allocated copies copied
  simp only [readByEndCopies] at copied
  generalize (if idx.toNat = 0 then ring.slots - 1 else idx.toNat - 1) = last at copied
  split at copied
  · split at copied
    · cases copied
    · cases copied
      exact total_one _ _ _
  · split at copied
    · cases copied
    · split at copied
      · cases copied
        exact total_one _ _ _
      · cases copied
        exact total_two _ _ _ _ _ _

/-- In every state that calls can bring about, and for every argument, the copies of a call
add up to the request exactly when the call is one of `Whole`. -/
theorem copies_exact_iff (capacity : Nat) (narrow : capacity + 1 < 2 ^ 31) (junk : Nat → UInt8)
    (calls : List Call) (ring : HttpBuffer)
    (reached : run step (HttpBuffer.fresh capacity junk) calls = some ring) (call : Call) :
    Exact ring call ↔ Whole ring call := by
  have inside := (run_inRange capacity narrow junk calls ring reached).1
  cases call with
  | write data len => exact write_exact_iff ring inside data len
  | readBySize size => exact readBySize_exact_iff ring inside size
  | readByEnd idx => exact ⟨fun _ => trivial, fun _ => readByEnd_exact ring idx⟩

/-- Five slots, one of them still queued: `m_start_idx` is 2 and `m_end_idx` is 3. -/
def nearTheEnd : List Call := [.write (fun _ => 97) 3, .readBySize 2]

def figures (ring : HttpBuffer) : Nat × Nat × Nat × Nat :=
  (ring.capacity, ring.startIdx, ring.endIdx, ring.size)

theorem near_the_end : ∃ ring, run step (HttpBuffer.fresh 4 fun _ => 0) nearTheEnd = some ring ∧
    figures ring = (4, 2, 3, 1) := by
  have seen : (run step (HttpBuffer.fresh 4 fun _ => 0) nearTheEnd).map figures =
    some (4, 2, 3, 1) := by decide +kernel
  exact Option.map_eq_some_iff.mp seen

theorem filling_write_exact : ∃ ring,
    run step (HttpBuffer.fresh 4 fun _ => 0) nearTheEnd = some ring ∧
      Exact ring (.write (fun _ => 98) 4) := by
  obtain ⟨ring, reached, seen⟩ := near_the_end
  refine ⟨ring, reached, ?_⟩
  apply (copies_exact_iff 4 (by decide) _ nearTheEnd ring reached _).mpr
  cases ring
  cases seen
  simp [Whole, HttpBuffer.slots]

/-- Three bytes into two slots at the end and two at the front: the second `memcpy` takes a
byte from behind the caller's data. -/
theorem short_wrapping_write_overreads :
    ¬ ∀ (capacity : Nat) (junk : Nat → UInt8) (calls : List Call) (ring : HttpBuffer),
      capacity + 1 < 2 ^ 31 → run step (HttpBuffer.fresh capacity junk) calls = some ring →
      ∀ call, Exact ring call := by
  intro always_exact
  obtain ⟨ring, reached, seen⟩ := near_the_end
  have exact := always_exact 4 _ nearTheEnd ring (by decide) reached (.write (fun _ => 98) 3)
  have inside := (run_inRange 4 (by decide) _ nearTheEnd ring reached).1
  have whole := (write_exact_iff ring inside _ 3).mp exact
  cases ring
  cases seen
  exact whole (by simp [HttpBuffer.slots])

/-- The indices and the size tell full from empty. -/
structure Sound (ring : HttpBuffer) : Prop where
  start : ring.startIdx ≤ ring.capacity
  finish : ring.endIdx ≤ ring.capacity
  size : (ring.size : Int) = ((ring.endIdx : Int) - ring.startIdx) % (ring.capacity + 1)
  full : ring.size ≤ ring.capacity
  empty : ring.empty = true ↔ ring.size = 0

/-- A write is accepted exactly when the unused slot stays unused. -/
def Answered (ring : HttpBuffer) : Call → Prop
  | .write data len =>
      (∃ next, ring.write data len = .ok (true, next)) ↔ len ≤ ring.capacity - ring.size
  | .readBySize _ => True
  | .readByEnd _ => True

/-- No write fills the last free slot, and none ends right behind the last slot. -/
def Roomy (ring : HttpBuffer) : Call → Prop
  | .write _ len => ring.size + len ≠ ring.capacity + 1 ∧
      ¬ (ring.startIdx ≤ ring.endIdx ∧ ring.endIdx + len = ring.capacity + 1)
  | .readBySize _ => True
  | .readByEnd _ => True

theorem size_eq_occupied (ring : HttpBuffer) (start : ring.startIdx ≤ ring.capacity)
    (finish : ring.endIdx ≤ ring.capacity) :
    ((occupied ring : Nat) : Int) = ((ring.endIdx : Int) - ring.startIdx) % (ring.capacity + 1) := by
  have slots : ring.slots = ring.capacity + 1 := rfl
  rw [occupied]
  split
  · rw [Int.emod_eq_of_lt (by omega) (by omega)]
    omega
  · rw [← Int.add_emod_right, Int.emod_eq_of_lt (by omega) (by omega)]
    omega

theorem sound_iff (ring : HttpBuffer) :
    Sound ring ↔ ring.startIdx ≤ ring.capacity ∧ ring.endIdx ≤ ring.capacity ∧
      ring.size = occupied ring := by
  constructor
  · intro sound
    have same := size_eq_occupied ring sound.start sound.finish
    rw [← sound.size] at same
    exact ⟨sound.start, sound.finish, by omega⟩
  · rintro ⟨start, finish, size⟩
    have same := size_eq_occupied ring start finish
    have slots : ring.slots = ring.capacity + 1 := rfl
    refine ⟨start, finish, by rw [size, same], ?_, ?_⟩
    · rw [size, occupied]
      split <;> omega
    · rw [size, HttpBuffer.empty, beq_iff_eq, occupied]
      split <;> omega

theorem sound_room (ring : HttpBuffer) (sound : Sound ring) :
    room ring + ring.size = ring.capacity + 1 := by
  obtain ⟨start, finish, size⟩ := (sound_iff ring).mp sound
  have slots : ring.slots = ring.capacity + 1 := rfl
  rw [size, room, occupied]
  split <;> omega

theorem sound_advanced (ring : HttpBuffer) (inside : InRange ring) (sound : Sound ring) (count : Nat)
    (bound : count ≤ occupied ring) : Sound (ring.advanced count) := by
  obtain ⟨start, finish, size⟩ := (sound_iff ring).mp sound
  have slots : ring.slots = ring.capacity + 1 := rfl
  have narrow := inside.narrow
  have full := sound.full
  have left : (ring.advanced count).size = ring.size - count :=
    subSize_of_le (by omega) (by omega)
  have turned := ring.advanced_startIdx count
  rw [sound_iff, occupied, advanced_slots, left, turned, HttpBuffer.advanced_endIdx,
    HttpBuffer.advanced_capacity]
  rw [← size] at bound
  rw [occupied] at size
  rcases mod_cases (ring.startIdx + count) ring.slots (by omega) with
    ⟨small, same⟩ | ⟨large, same⟩
  · rw [same]
    split at size <;> split <;> omega
  · rw [same]
    split at size <;> split <;> omega

theorem sound_written (ring : HttpBuffer) (inside : InRange ring) (sound : Sound ring)
    (bytes : Nat → UInt8) (len : Nat) (enough : len ≤ room ring) :
    Sound { ring with
      buffer := bytes, endIdx := landing ring len, size := (ring.size + len) % 2 ^ 64 } ↔
      ring.size + len ≠ ring.capacity + 1 ∧
        ¬ (ring.startIdx ≤ ring.endIdx ∧ ring.endIdx + len = ring.capacity + 1) := by
  have free := sound_room ring sound
  obtain ⟨start, finish, size⟩ := (sound_iff ring).mp sound
  have slots : ring.slots = ring.capacity + 1 := rfl
  have narrow := inside.narrow
  have wide : (ring.size + len) % 2 ^ 64 = ring.size + len := Nat.mod_eq_of_lt (by omega)
  have lands := landing_cases ring len
  rw [sound_iff, wide]
  generalize landing ring len = last at lands
  simp only [occupied, HttpBuffer.slots] at size ⊢
  split at size <;> split <;> omega

theorem fresh_sound (capacity : Nat) (junk : Nat → UInt8) : Sound (HttpBuffer.fresh capacity junk) :=
  (sound_iff _).mpr ⟨Nat.zero_le _, Nat.zero_le _, rfl⟩

def Kept (ring : HttpBuffer) : Prop := InRange ring ∧ Sound ring

theorem kept_step (ring : HttpBuffer) (call : Call) (next : HttpBuffer) (kept : Kept ring)
    (roomy : Roomy ring call) (taken : step ring call = some next) : Kept next := by
  refine ⟨(step_inRange ring call next kept.1 taken).1, ?_⟩
  rcases step_cases ring next kept.1 call taken with
    ⟨data, len, bytes, rfl, enough, rfl⟩ | ⟨_, _, _, _, rfl⟩ | ⟨_, rfl | ⟨count, bound, rfl⟩⟩
  · exact (sound_written ring kept.1 kept.2 bytes len enough).mpr roomy
  · exact kept.2
  · exact kept.2
  · exact sound_advanced ring kept.1 kept.2 count bound

theorem kept_answered (ring : HttpBuffer) (call : Call) (kept : Kept ring)
    (roomy : Roomy ring call) : Answered ring call := by
  cases call with
  | write data len =>
      have free := sound_room ring kept.2
      rw [Answered, write_accepted_iff ring kept.1]
      have spare := roomy.1
      omega
  | readBySize size => trivial
  | readByEnd idx => trivial

theorem crowded_write_unsound (ring : HttpBuffer) (call : Call) (kept : Kept ring)
    (crowded : ¬ Roomy ring call) : ∃ next, step ring call = some next ∧ ¬ Sound next := by
  cases call with
  | write data len =>
      have free := sound_room ring kept.2
      have slots : ring.slots = ring.capacity + 1 := rfl
      have enough : len ≤ room ring := by
        by_contra short
        apply crowded
        refine ⟨by omega, ?_⟩
        rintro ⟨order, last⟩
        rw [RingStates.room, if_pos order] at short
        omega
      rcases write_spec ring kept.1 data len with ⟨short, _⟩ | ⟨_, bytes, accepted⟩
      · omega
      · refine ⟨_, ?_, fun sound => crowded ((sound_written ring kept.1 kept.2 bytes len enough).mp sound)⟩
        rw [step, act, accepted]
        simp only [Except.map, Except.toOption]
  | readBySize size => exact absurd trivial crowded
  | readByEnd idx => exact absurd trivial crowded

/-- A run of calls keeps full and empty apart in all its states, and answers every write by
the space that is left, exactly when all its writes are `Roomy`. -/
theorem full_and_empty_told_apart_iff (capacity : Nat) (narrow : capacity + 1 < 2 ^ 31)
    (junk : Nat → UInt8) (calls : List Call) :
    (Always step Sound (HttpBuffer.fresh capacity junk) calls ∧
      Guarded step Answered (HttpBuffer.fresh capacity junk) calls) ↔
      Guarded step Roomy (HttpBuffer.fresh capacity junk) calls := by
  have start : Kept (HttpBuffer.fresh capacity junk) :=
    ⟨fresh_inRange capacity junk narrow, fresh_sound capacity junk⟩
  have always := always_iff_guarded kept_step (fun _ kept => kept.2) crowded_write_unsound calls _ start
  constructor
  · intro both
    exact always.mp both.1
  · intro roomy
    exact ⟨always.mpr roomy, guarded_implies kept_step kept_answered calls _ start roomy⟩

/-- Two bytes stay queued across the end of the ring. -/
def spareCalls : List Call :=
  [.write (fun _ => 97) 3, .readBySize 2, .write (fun _ => 98) 3, .readByEnd 5, .readBySize 1]

instance (ring : HttpBuffer) : (call : Call) → Decidable (Roomy ring call)
  | .write _ len => inferInstanceAs (Decidable (ring.size + len ≠ ring.capacity + 1 ∧
      ¬ (ring.startIdx ≤ ring.endIdx ∧ ring.endIdx + len = ring.capacity + 1)))
  | .readBySize _ => inferInstanceAs (Decidable True)
  | .readByEnd _ => inferInstanceAs (Decidable True)

theorem spare_calls_told_apart :
    Always step Sound (HttpBuffer.fresh 4 fun _ => 0) spareCalls ∧
      Guarded step Answered (HttpBuffer.fresh 4 fun _ => 0) spareCalls :=
  (full_and_empty_told_apart_iff 4 (by decide) (fun _ => 0) spareCalls).mpr (by decide +kernel)

/-- Five bytes into five slots: the write is accepted and `m_end_idx` stands behind the ring. -/
theorem filling_write_confuses :
    ¬ ∀ (capacity : Nat) (junk : Nat → UInt8) (calls : List Call), capacity + 1 < 2 ^ 31 →
      Always step Sound (HttpBuffer.fresh capacity junk) calls ∧
        Guarded step Answered (HttpBuffer.fresh capacity junk) calls := by
  intro always_sound
  have sound := (always_sound 4 (fun _ => 0) [.write (fun _ => 97) 5] (by decide)).1
  have seen : (run step (HttpBuffer.fresh 4 fun _ => 0) [.write (fun _ => 97) 5]).map figures =
    some (4, 0, 5, 5) := by decide +kernel
  obtain ⟨ring, reached, figured⟩ := Option.map_eq_some_iff.mp seen
  have full := (sound _ [] ring (List.append_nil _) reached).full
  simp only [figures, Prod.mk.injEq] at figured
  omega

/-- The free space that a state advertises is the free space of the fresh buffer less what is
queued, and a write of at most that many bytes is accepted. -/
def Advertised (fresh ring : HttpBuffer) : Prop :=
  ring.getAvailableSize + ring.getDataSize = fresh.getAvailableSize + fresh.getDataSize ∧
    ∀ data len, len ≤ ring.getAvailableSize → ∃ next, ring.write data len = .ok (true, next)

/-- The states where `get_available_size` is right: an empty buffer, and one whose data wraps. -/
def Wraps (ring : HttpBuffer) : Prop :=
  (ring.startIdx = ring.endIdx ∧ ring.size = 0) ∨
    (ring.endIdx < ring.startIdx ∧ ring.startIdx + ring.size = ring.endIdx + ring.slots)

theorem availableSize_eq (ring : HttpBuffer) (inside : InRange ring) :
    ring.getAvailableSize = if ring.startIdx ≤ ring.endIdx then
      ring.slots - ring.startIdx + ring.endIdx else ring.startIdx - ring.endIdx := by
  obtain ⟨narrow, start, finish⟩ := inside
  rw [HttpBuffer.getAvailableSize, subSize_of_le (by omega) (by omega)]

/-- In every state reached with its indices in range, the advertised space is the real one
exactly when the buffer is empty or its data wraps. -/
theorem advertised_iff_wraps (capacity : Nat) (narrow : capacity + 1 < 2 ^ 31)
    (junk : Nat → UInt8) (calls : List Call) (ring : HttpBuffer)
    (reached : run step (HttpBuffer.fresh capacity junk) calls = some ring)
    (finish : ring.endIdx ≤ ring.capacity) :
    Advertised (HttpBuffer.fresh capacity junk) ring ↔ Wraps ring := by
  obtain ⟨inside, same⟩ := run_inRange capacity narrow junk calls ring reached
  have slots : ring.slots = capacity + 1 := by rw [HttpBuffer.slots, same]
  have empty : (HttpBuffer.fresh capacity junk).getAvailableSize = capacity + 1 := by
    rw [availableSize_eq _ (fresh_inRange capacity junk narrow)]
    rfl
  have start := inside.start
  rw [Advertised, Wraps, availableSize_eq ring inside, empty]
  simp only [write_accepted_iff ring inside, HttpBuffer.getDataSize]
  have none : (HttpBuffer.fresh capacity junk).size = 0 := rfl
  rw [none, room]
  constructor
  · rintro ⟨constant, accepted⟩
    have whole := accepted (fun _ => 0) _ (Nat.le_refl _)
    split at constant <;> rename_i order
    · rw [if_pos order, if_pos order] at whole
      omega
    · omega
  · rintro (⟨order, nothing⟩ | ⟨order, wrapped⟩)
    · refine ⟨?_, fun _ len bound => ?_⟩
      · rw [if_pos (by omega)]
        omega
      · rw [if_pos (by omega)] at bound ⊢
        omega
    · refine ⟨?_, fun _ len bound => ?_⟩
      · rw [if_neg (by omega)]
        omega
      · rw [if_neg (by omega)] at bound ⊢
        omega

/-- Four bytes across the end of five slots. -/
def acrossTheEnd : List Call := [.write (fun _ => 97) 3, .readBySize 2, .write (fun _ => 98) 3]

theorem across_the_end_advertised : ∃ ring,
    run step (HttpBuffer.fresh 4 fun _ => 0) acrossTheEnd = some ring ∧
      Advertised (HttpBuffer.fresh 4 fun _ => 0) ring := by
  have seen : (run step (HttpBuffer.fresh 4 fun _ => 0) acrossTheEnd).map figures =
    some (4, 2, 1, 4) := by decide +kernel
  obtain ⟨ring, reached, figured⟩ := Option.map_eq_some_iff.mp seen
  simp only [figures, Prod.mk.injEq] at figured
  have slots : ring.slots = ring.capacity + 1 := rfl
  refine ⟨ring, reached, ?_⟩
  apply (advertised_iff_wraps 4 (by decide) _ acrossTheEnd ring reached (by omega)).mpr
  exact .inr (by omega)

/-- One queued byte of four makes the advertised space grow to six. -/
theorem queued_byte_advertised_as_free :
    ¬ ∀ (capacity : Nat) (junk : Nat → UInt8) (calls : List Call) (ring : HttpBuffer),
      capacity + 1 < 2 ^ 31 → run step (HttpBuffer.fresh capacity junk) calls = some ring →
      ring.startIdx ≤ ring.capacity → ring.endIdx ≤ ring.capacity →
      Advertised (HttpBuffer.fresh capacity junk) ring := by
  intro always_advertised
  have seen : (run step (HttpBuffer.fresh 4 fun _ => 0) [.write (fun _ => 97) 1]).map figures =
    some (4, 0, 1, 1) := by decide +kernel
  obtain ⟨ring, reached, figured⟩ := Option.map_eq_some_iff.mp seen
  simp only [figures, Prod.mk.injEq] at figured
  have told := always_advertised 4 _ _ ring (by decide) reached (by omega) (by omega)
  have inside := (run_inRange 4 (by decide) _ _ ring reached).1
  have slots : ring.slots = ring.capacity + 1 := rfl
  have free : ring.getAvailableSize = 6 := by
    rw [availableSize_eq ring inside, if_pos (by omega)]
    omega
  have fresh : (HttpBuffer.fresh 4 fun _ => 0).getAvailableSize = 5 := by decide +kernel
  have constant := told.1
  rw [free, fresh, HttpBuffer.getDataSize, HttpBuffer.getDataSize] at constant
  change 6 + ring.size = 5 + 0 at constant
  omega

end OtaMqtt.Http.RingStates
