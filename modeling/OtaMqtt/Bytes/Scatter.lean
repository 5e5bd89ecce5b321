import OtaMqtt.Bytes.Positional

/-! The scatter lists of `ByteArray` (sherry/bytearray.cc): both overloads of `getReadBuffers`,
and `getWriteBuffers`, against the flat contents and against `read` and `write`. -/

namespace OtaMqtt.Bytes.Scatter

open OtaMqtt.Lib.Execution OtaMqtt.Lib.Ring OtaMqtt.Lib.Refinement
open OtaMqtt.Bytes OtaMqtt.Bytes.FlatBuffer OtaMqtt.Bytes.Positional

/-- `struct iovec`: `iov_base` points `npos` bytes into a node. -/
structure Iovec where
  node : Nat
  npos : Nat
  len : Nat
  deriving DecidableEq

/-- The loop that the three functions share, along its local `cur`. -/
def buffersLoop (array : ByteArray) : Nat → Option Nat → Nat → Nat → Nat → Run (List Iovec)
  | 0, _, _, _, _ => .error .outOfFuel
  | fuel + 1, cur, npos, ncap, len =>
      if len = 0 then .ok []
      else
        match cur with
        | none => .error .nullPointer
        | some node =>
            if len ≤ ncap then .ok [⟨node, npos, len⟩]
            else
              match array.next node with
              | none => .error .nullPointer
              | some following => do
                  let rest ← buffersLoop array fuel (some following) 0 array.baseSize (len - ncap)
                  .ok (⟨node, npos, ncap⟩ :: rest)

/-- What stands before the loop: `cur->size` is read, whatever `cur` is. -/
def buffersFrom (array : ByteArray) (cur : Option Nat) (npos len : Nat) : Run (List Iovec) :=
  match cur with
  | none => .error .nullPointer
  | some node => buffersLoop array (len + 1) (some node) npos (array.baseSize - npos) len

/-- The buffers that are appended, and the length returned. -/
def getReadBuffers (array : ByteArray) (len : Nat) : Run (List Iovec × Nat) :=
  let len := if array.getReadSize < len then array.getReadSize else len
  if len = 0 then .ok ([], 0)
  else do
    let buffers ← buffersFrom array array.cur (array.position % array.baseSize) len
    .ok (buffers, len)

/-- The walk from `m_root` to the node of a position. -/
def walk (array : ByteArray) : Nat → Option Nat → Run (Option Nat)
  | 0, cur => .ok cur
  | _ + 1, none => .error .nullPointer
  | count + 1, some node => walk array count (array.next node)

/-- The overload with a position. It clamps `len` by what is left behind the cursor. -/
def getReadBuffersAt (array : ByteArray) (len position : Nat) : Run (List Iovec × Nat) :=
  let len := if array.getReadSize < len then array.getReadSize else len
  if len = 0 then .ok ([], 0)
  else do
    let cur ← walk array (position / array.baseSize) (some 0)
    let buffers ← buffersFrom array cur (position % array.baseSize) len
    .ok (buffers, len)

def getWriteBuffers (array : ByteArray) (len : Nat) : Run (List Iovec × Nat × ByteArray) :=
  if len = 0 then .ok ([], 0, array)
  else
    let array := array.addCapacity len
    do
      let buffers ← buffersFrom array array.cur (array.position % array.baseSize) len
      .ok (buffers, len, array)

/-- What a reader of the buffers finds in them, one behind the other. -/
def gather (array : ByteArray) : List Iovec → Run (List Cell)
  | [] => .ok []
  | iov :: rest => do
      let cells ← copyOut array.baseSize (array.memory iov.node) iov.npos iov.len
      let others ← gather array rest
      .ok (cells ++ others)

/-- Data stored through the buffers, as `readv` does. -/
def fill (array : ByteArray) : List Iovec → List UInt8 → Run ByteArray
  | [], _ => .ok array
  | iov :: rest, data => do
      let bytes ← copyIn array.baseSize (array.memory iov.node) iov.npos
        (fun index => (data.take iov.len)[index]?) iov.len
      fill { array with memory := Function.update array.memory iov.node bytes } rest
        (data.drop iov.len)

/-- The arrays that calls bring about, buffers handed out and stored through included. -/
inductive Reached (baseSize : Nat) : ByteArray → Prop where
  | fresh (positive : 0 < baseSize) : Reached baseSize (ByteArray.fresh baseSize)
  | called (array next : ByteArray) (first : Call) (reply : Seen) (before : Reached baseSize array)
      (answered : call array first = .ok (reply, next)) : Reached baseSize next
  | exposed (array next : ByteArray) (len size : Nat) (buffers : List Iovec)
      (before : Reached baseSize array)
      (answered : getWriteBuffers array len = .ok (buffers, size, next)) : Reached baseSize next
  | filled (array next : ByteArray) (buffers : List Iovec) (data : List UInt8)
      (before : Reached baseSize array) (stored : fill array buffers data = .ok next) :
      Reached baseSize next

def Iovec.slots (baseSize : Nat) (iov : Iovec) : List Nat :=
  List.range' (iov.node * baseSize + iov.npos) iov.len

/-- Every buffer lies inside a node, and together they are the positions from `position` on,
`count` of them, in their order. -/
structure Exposes (array : ByteArray) (buffers : List Iovec) (position count : Nat) : Prop where
  inside : ∀ iov ∈ buffers, iov.node < array.nodes ∧ iov.npos + iov.len ≤ array.baseSize
  slots : buffers.flatMap (Iovec.slots array.baseSize) = List.range' position count

section
variable {array : ByteArray}

theorem stretch_slots (position count : Nat) :
    stretch array position count = (List.range' position count).map (cell array) := by
  rw [stretch, List.range'_eq_map_range, List.map_map]
  rfl

theorem gather_slots (buffers : List Iovec)
    (inside : ∀ iov ∈ buffers, iov.npos + iov.len ≤ array.baseSize) :
    gather array buffers =
      .ok ((buffers.flatMap (Iovec.slots array.baseSize)).map (cell array)) := by
  induction buffers with
  | nil => rfl
  | cons iov rest ih =>
      have here := inside iov List.mem_cons_self
      have later := ih fun other member => inside other (List.mem_cons_of_mem _ member)
      rw [gather, copyOut_node _ _ _ here, ok_bind, later, ok_bind, List.flatMap_cons, List.map_append,
        stretch_slots]
      rfl

theorem Exposes.gather {buffers : List Iovec} {position count : Nat}
    (exposes : Exposes array buffers position count) :
    gather array buffers = .ok (stretch array position count) := by
  rw [gather_slots buffers fun iov member => (exposes.inside iov member).2, exposes.slots,
    stretch_slots]

theorem exposes_nothing (position : Nat) : Exposes array [] position 0 :=
  ⟨by simp, rfl⟩

theorem exposes_one (node npos len : Nat) (inside : node < array.nodes)
    (fits : npos + len ≤ array.baseSize) :
    Exposes array [⟨node, npos, len⟩] (node * array.baseSize + npos) len := by
  refine ⟨?_, ?_⟩
  · intro iov member
    rw [List.mem_singleton] at member
    subst member
    exact ⟨inside, fits⟩
  · rw [List.flatMap_cons, List.flatMap_nil, List.append_nil]
    rfl

theorem Exposes.append {front back : List Iovec} {position first second : Nat}
    (left : Exposes array front position first)
    (right : Exposes array back (position + first) second) :
    Exposes array (front ++ back) position (first + second) := by
  refine ⟨?_, ?_⟩
  · intro iov member
    rcases List.mem_append.mp member with early | late
    · exact left.inside iov early
    · exact right.inside iov late
  · rw [List.flatMap_append, left.slots, right.slots, List.range'_append_1]

theorem buffersLoop_ok (fuel node npos len : Nat) (base : 0 < array.baseSize)
    (blocks : array.capacity = array.nodes * array.baseSize) (offset : npos < array.baseSize)
    (inside : node < array.nodes) (fits : node * array.baseSize + npos + len ≤ array.capacity)
    (enough : len < fuel) :
    ∃ buffers, buffersLoop array fuel (some node) npos (array.baseSize - npos) len = .ok buffers ∧
      Exposes array buffers (node * array.baseSize + npos) len := by
  induction fuel generalizing node npos len with
  | zero => omega
  | succ fuel ih =>
      rw [buffersLoop]
      by_cases empty : len = 0
      · subst empty
        exact ⟨[], if_pos rfl, exposes_nothing _⟩
      · rw [if_neg empty]
        by_cases last : len ≤ array.baseSize - npos
        · exact ⟨_, if_pos last, exposes_one node npos len inside (by omega)⟩
        · have ended : node * array.baseSize + npos + (array.baseSize - npos) =
              (node + 1) * array.baseSize + 0 := by
            rw [Nat.add_mul, Nat.one_mul]
            omega
          have further : node + 1 < array.nodes := block_lt blocks (node + 1) 0 (by omega)
          have following : array.next node = some (node + 1) := if_pos further
          obtain ⟨rest, ran, exposes⟩ := ih (node + 1) 0 (len - (array.baseSize - npos)) base further
            (by omega) (by omega)
          rw [Nat.sub_zero] at ran
          rw [← ended] at exposes
          have parts : len = (array.baseSize - npos) + (len - (array.baseSize - npos)) := by omega
          have front := exposes_one node npos (array.baseSize - npos) inside (by omega)
          have joined := front.append exposes
          rw [← parts] at joined
          rw [if_neg last, following]
          dsimp only
          rw [ran]
          exact ⟨_, rfl, joined⟩

theorem buffersFrom_ok (placed : Placed array) (position len : Nat) (some' : 0 < len)
    (fits : position + len ≤ array.capacity) :
    ∃ buffers, buffersFrom array (blockOf array position) (position % array.baseSize) len =
        .ok buffers ∧ Exposes array buffers position len := by
  have here : position / array.baseSize * array.baseSize + position % array.baseSize = position := by
    rw [Nat.mul_comm]
    exact Nat.div_add_mod _ _
  have inside : position / array.baseSize < array.nodes := by
    rw [Nat.div_lt_iff_lt_mul placed.base, ← placed.blocks]
    omega
  have ran := buffersLoop_ok (len + 1) (position / array.baseSize) (position % array.baseSize) len
    placed.base placed.blocks (Nat.mod_lt _ placed.base) inside (by omega) (Nat.lt_succ_self _)
  rw [here] at ran
  rw [blockOf, if_neg (by omega)]
  exact ran

theorem walk_ok (count node : Nat) (inside : node + count < array.nodes) :
    walk array count (some node) = .ok (some (node + count)) := by
  induction count generalizing node with
  | zero => rfl
  | succ count ih =>
      have following : array.next node = some (node + 1) := if_pos (by omega)
      rw [walk, following, ih (node + 1) (by omega), Nat.add_assoc, Nat.add_comm 1]

end

theorem related_of_placed {array : ByteArray} (placed : Placed array) :
    Related array.baseSize array ⟨cell array, array.position, array.size, array.capacity⟩ :=
  ⟨rfl, placed, ⟨rfl, rfl, rfl, fun _ _ => rfl⟩⟩

theorem addCapacity_placed {array : ByteArray} (placed : Placed array) (len : Nat)
    (some' : 0 < len) :
    Placed (array.addCapacity len) ∧ (array.addCapacity len).baseSize = array.baseSize ∧
      (array.addCapacity len).position = array.position ∧
      array.position + len ≤ (array.addCapacity len).capacity := by
  obtain ⟨⟨base, grown, _⟩, cur, position, room⟩ :=
    addCapacity_refines len (related_of_placed placed) some'
  rw [← cur] at grown
  exact ⟨grown, base, position, room⟩

theorem fill_placed {array next : ByteArray} (buffers : List Iovec) (data : List UInt8)
    (placed : Placed array) (stored : fill array buffers data = .ok next) :
    next.baseSize = array.baseSize ∧ Placed next := by
  induction buffers generalizing array data with
  | nil =>
      rw [fill, Except.ok.injEq] at stored
      subst stored
      exact ⟨rfl, placed⟩
  | cons iov rest ih =>
      rw [fill, bind_eq_ok] at stored
      obtain ⟨bytes, _, later⟩ := stored
      exact @ih { array with memory := Function.update array.memory iov.node bytes } _
        ⟨placed.base, placed.blocks, placed.some, placed.size, placed.position, placed.cur⟩ later

theorem getWriteBuffers_placed {array next : ByteArray} (len size : Nat) (buffers : List Iovec)
    (placed : Placed array) (answered : getWriteBuffers array len = .ok (buffers, size, next)) :
    next.baseSize = array.baseSize ∧ Placed next := by
  rw [getWriteBuffers] at answered
  by_cases nothing : len = 0
  · rw [if_pos nothing, Except.ok.injEq, Prod.mk.injEq, Prod.mk.injEq] at answered
    rw [← answered.2.2]
    exact ⟨rfl, placed⟩
  · rw [if_neg nothing, bind_eq_ok] at answered
    obtain ⟨found, _, returned⟩ := answered
    rw [Except.ok.injEq, Prod.mk.injEq, Prod.mk.injEq] at returned
    obtain ⟨grown, base, _⟩ := addCapacity_placed placed len (Nat.pos_of_ne_zero nothing)
    rw [← returned.2.2]
    exact ⟨base, grown⟩

theorem Reached.placed {baseSize : Nat} {array : ByteArray} (reached : Reached baseSize array) :
    array.baseSize = baseSize ∧ Placed array := by
  induction reached with
  | fresh positive =>
      have related := fresh_related baseSize positive
      exact ⟨related.1, related.2.1⟩
  | called array next first reply before answered ih =>
      have related := related_of_placed ih.2
      rw [ih.1] at related
      obtain ⟨later, base, placed, _⟩ := call_related first reply related answered
      exact ⟨base, placed⟩
  | exposed array next len size buffers before answered ih =>
      have kept := getWriteBuffers_placed len size buffers ih.2 answered
      exact ⟨kept.1.trans ih.1, kept.2⟩
  | filled array next buffers data before stored ih =>
      have kept := fill_placed buffers data ih.2 stored
      exact ⟨kept.1.trans ih.1, kept.2⟩

theorem reached_of_calls {baseSize : Nat} (calls : List Call) (array last : ByteArray)
    (replies : List Seen) (before : Reached baseSize array)
    (ran : exec call array calls = .ok (replies, last)) : Reached baseSize last := by
  induction calls generalizing array replies with
  | nil =>
      rw [exec, Except.ok.injEq, Prod.mk.injEq] at ran
      rw [← ran.2]
      exact before
  | cons first rest ih =>
      rw [exec, bind_eq_ok] at ran
      obtain ⟨⟨reply, next⟩, answered, ran⟩ := ran
      dsimp only at ran
      rw [bind_eq_ok] at ran
      obtain ⟨⟨later, final⟩, ran, done⟩ := ran
      rw [Except.ok.injEq, Prod.mk.injEq] at done
      have same : final = last := done.2
      rw [same] at ran
      exact ih next later (.called array next first reply before answered) ran

/-! ### The overload with a position -/

/-- The buffers are the flat contents from `position` on, clamped by the size, wherever the
cursor stands. -/
def ExposedAt (array : ByteArray) (len position : Nat) : Prop :=
  ∃ buffers, getReadBuffersAt array len position =
      .ok (buffers, min len (array.getSize - position)) ∧
    Exposes array buffers position (min len (array.getSize - position)) ∧
    gather array buffers = .ok (stretch array position (min len (array.getSize - position)))

theorem getReadBuffersAt_returned {array : ByteArray} {buffers : List Iovec} {returned : Nat}
    (len position : Nat) (answered : getReadBuffersAt array len position = .ok (buffers, returned)) :
    returned = min len array.getReadSize := by
  have clamp : (if array.getReadSize < len then array.getReadSize else len) =
      min len array.getReadSize := by
    split <;> omega
  rw [getReadBuffersAt] at answered
  rw [clamp] at answered
  by_cases nothing : min len array.getReadSize = 0
  · rw [if_pos nothing, Except.ok.injEq, Prod.mk.injEq] at answered
    rw [nothing, answered.2]
  · rw [if_neg nothing, bind_eq_ok] at answered
    obtain ⟨cur, _, answered⟩ := answered
    rw [bind_eq_ok] at answered
    obtain ⟨found, _, answered⟩ := answered
    rw [Except.ok.injEq, Prod.mk.injEq] at answered
    exact answered.2.symm

theorem getReadBuffersAt_ok {array : ByteArray} (placed : Placed array) (len position count : Nat)
    (clamp : min len array.getReadSize = count) (fits : position + count ≤ array.capacity) :
    ∃ buffers, getReadBuffersAt array len position = .ok (buffers, count) ∧
      Exposes array buffers position count := by
  have clamped : (if array.getReadSize < len then array.getReadSize else len) = count := by
    split <;> omega
  rw [getReadBuffersAt]
  rw [clamped]
  by_cases nothing : count = 0
  · subst nothing
    exact ⟨[], if_pos rfl, exposes_nothing position⟩
  · obtain ⟨buffers, found, exposes⟩ :=
      buffersFrom_ok placed position count (Nat.pos_of_ne_zero nothing) fits
    have inside : position / array.baseSize < array.nodes := by
      rw [Nat.div_lt_iff_lt_mul placed.base, ← placed.blocks]
      omega
    have block : blockOf array position = some (position / array.baseSize) := by
      rw [blockOf, if_neg (by omega)]
    rw [block] at found
    rw [if_neg nothing, walk_ok _ 0 (by omega), ok_bind, Nat.zero_add, found]
    exact ⟨buffers, rfl, exposes⟩

/-- For every array that calls can bring about, every length and every position up to the
size, the buffers are the flat contents exactly when the position is the cursor's or the
length is covered from both. -/
theorem positional_buffers_iff (baseSize : Nat) (array : ByteArray) (reached : Reached baseSize array)
    (len position : Nat) (within : position ≤ array.getSize) :
    ExposedAt array len position ↔
      position = array.getPosition ∨ len ≤ array.getSize - max position array.getPosition := by
  have placed := reached.placed.2
  have order := placed.position
  have bound := placed.size
  rw [ByteArray.getSize] at within
  rw [ExposedAt, ByteArray.getSize, ByteArray.getPosition]
  have clamps : position = array.position ∨ len ≤ array.size - max position array.position ↔
      min len array.getReadSize = min len (array.size - position) := by
    rw [ByteArray.getReadSize]
    omega
  rw [clamps]
  constructor
  · rintro ⟨buffers, answered, _, _⟩
    exact (getReadBuffersAt_returned len position answered).symm
  · intro same
    obtain ⟨buffers, answered, exposes⟩ := getReadBuffersAt_ok placed len position _ same (by omega)
    exact ⟨buffers, answered, exposes, exposes.gather⟩

structure Layout where
  size : Nat
  position : Nat
  capacity : Nat
  returned : Option Nat
  deriving DecidableEq

def layout (array : ByteArray) : Layout :=
  ⟨array.size, array.position, array.capacity, (getReadBuffersAt array 2 2).toOption.map Prod.snd⟩

theorem calls_reach (calls : List Call) (baseSize : Nat) (view : Layout) (positive : 0 < baseSize)
    (seen : (exec call (ByteArray.fresh baseSize) calls).map (fun outcome => layout outcome.2) =
      .ok view) :
    ∃ array, Reached baseSize array ∧ layout array = view := by
  cases ran : exec call (ByteArray.fresh baseSize) calls with
  | error reason =>
      rw [ran] at seen
      cases seen
  | ok outcome =>
      rw [ran] at seen
      exact ⟨outcome.2, reached_of_calls calls _ _ outcome.1 (.fresh positive) ran, Except.ok.inj seen⟩

theorem three_bytes_reached :
    ∃ array, Reached 4 array ∧ layout array = ⟨3, 0, 4, some 2⟩ :=
  calls_reach threeBytes 4 _ (by decide) (by decide +kernel)

theorem one_byte_exposed :
    ∃ array, Reached 4 array ∧ 2 ≤ array.getSize ∧ ExposedAt array 1 2 := by
  obtain ⟨array, reached, view⟩ := three_bytes_reached
  obtain ⟨size, position, _, _⟩ := Layout.mk.inj view
  have within : 2 ≤ array.getSize := by
    rw [ByteArray.getSize]
    omega
  refine ⟨array, reached, within, ?_⟩
  apply (positional_buffers_iff 4 array reached 1 2 within).mpr
  rw [ByteArray.getSize, ByteArray.getPosition]
  omega

/-- One byte is left behind position 2; with the cursor at the front two are exposed. -/
theorem byte_beyond_size_exposed :
    ¬ ∀ (baseSize : Nat) (array : ByteArray), Reached baseSize array →
      ∀ len position, position ≤ array.getSize → ExposedAt array len position := by
  intro all_exposed
  obtain ⟨array, reached, view⟩ := three_bytes_reached
  obtain ⟨size, _, _, returned⟩ := Layout.mk.inj view
  obtain ⟨buffers, answered, _⟩ := all_exposed 4 array reached 2 2 (by rw [ByteArray.getSize]; omega)
  rw [answered, ByteArray.getSize, size] at returned
  have one : min 2 (3 - 2) = 2 := Option.some.inj returned
  exact absurd one (by decide)

/-! ### Against `read` and `write` -/

theorem writeLoop_fill (shape : ByteArray) (fuel npos ncap : Nat) (data : List UInt8)
    (array exposed next : ByteArray) (nodes : array.nodes = shape.nodes)
    (base : array.baseSize = shape.baseSize) (base' : exposed.baseSize = array.baseSize)
    (memory : exposed.memory = array.memory)
    (ran : ByteArray.writeLoop fuel array npos ncap data = .ok next) :
    ∃ buffers, buffersLoop shape fuel array.cur npos ncap data.length = .ok buffers ∧
      fill exposed buffers data = .ok { exposed with memory := next.memory } := by
  induction fuel generalizing npos ncap data array exposed with
  | zero => cases ran
  | succ fuel ih =>
      rw [ByteArray.writeLoop] at ran
      rw [buffersLoop.eq_def]
      dsimp only
      by_cases empty : data = []
      · rw [if_pos empty, Except.ok.injEq] at ran
        subst ran
        refine ⟨[], if_pos (by rw [empty]; rfl), ?_⟩
        rw [fill, ← memory]
      · have positive := List.length_pos_iff.mpr empty
        rw [if_neg empty] at ran
        rw [if_neg (by omega)]
        cases cur : array.cur with
        | none =>
            rw [cur] at ran
            cases ran
        | some node =>
            rw [cur] at ran
            dsimp only at ran ⊢
            by_cases last : data.length ≤ ncap
            · rw [if_pos last, ByteArray.storeNode, bind_eq_ok] at ran
              obtain ⟨bytes, copied, stored⟩ := ran
              rw [Except.ok.injEq] at stored
              refine ⟨_, if_pos last, ?_⟩
              rw [fill]
              dsimp only
              rw [List.take_length, base', memory, copied, ok_bind, fill, ← stored]
            · have taken : (data.take ncap).length = ncap := List.length_take_of_le (by omega)
              rw [if_neg last, bind_eq_ok] at ran
              obtain ⟨between, stored, ran⟩ := ran
              rw [ByteArray.storeNode, taken, bind_eq_ok] at stored
              obtain ⟨bytes, copied, stored⟩ := stored
              rw [Except.ok.injEq] at stored
              subst stored
              have same : shape.next node = array.next node := by
                rw [ByteArray.next, ByteArray.next, nodes]
              rw [if_neg last, same]
              dsimp only at ran
              cases following : array.next node with
              | none =>
                  rw [following] at ran
                  cases ran
              | some other =>
                  simp only [following] at ran
                  obtain ⟨rest, walked, filled⟩ := ih 0 array.baseSize (data.drop ncap)
                    { array with
                      position := array.position + ncap
                      memory := Function.update array.memory node bytes
                      cur := some other }
                    { exposed with memory := Function.update exposed.memory node bytes } nodes base
                    base' (by rw [memory]) ran
                  rw [List.length_drop, base] at walked
                  dsimp only at walked ⊢
                  rw [walked]
                  refine ⟨_, rfl, ?_⟩
                  rw [← base', ← memory] at copied
                  rw [fill]
                  dsimp only
                  rw [copied, ok_bind]
                  exact filled

/-- The buffers for reading hold what a `read` of the clamped length returns. -/
def ReadsAlike (array : ByteArray) (len : Nat) : Prop :=
  ∃ buffers cells next,
    getReadBuffers array len = .ok (buffers, min len array.getReadSize) ∧
      gather array buffers = .ok cells ∧ array.read (min len array.getReadSize) = .ok (cells, next)

/-- Data put through the buffers for writing, and the cursor moved behind it, is a `write`. -/
def WritesAlike (array : ByteArray) (len : Nat) : Prop :=
  0 < len → ∀ data : List UInt8, data.length = len →
    ∃ buffers exposed filled stored, getWriteBuffers array len = .ok (buffers, len, exposed) ∧
      fill exposed buffers data = .ok filled ∧
      filled.setPosition (array.getPosition + len) = .ok stored ∧ array.write data = .ok stored

theorem getReadBuffers_ok {array : ByteArray} (placed : Placed array) (len : Nat) :
    ∃ buffers, getReadBuffers array len = .ok (buffers, min len array.getReadSize) ∧
      Exposes array buffers array.position (min len array.getReadSize) := by
  have clamped : (if array.getReadSize < len then array.getReadSize else len) =
      min len array.getReadSize := by
    split <;> omega
  have bound := placed.size
  have order := placed.position
  rw [getReadBuffers, clamped]
  by_cases nothing : min len array.getReadSize = 0
  · rw [nothing]
    exact ⟨[], if_pos rfl, exposes_nothing _⟩
  · obtain ⟨buffers, found, exposes⟩ := buffersFrom_ok placed array.position
      (min len array.getReadSize) (Nat.pos_of_ne_zero nothing) (by unfold ByteArray.getReadSize; omega)
    rw [if_neg nothing, placed.cur, found]
    exact ⟨buffers, rfl, exposes⟩

/-- The whole of `read`: what it refuses, where it follows the null pointer, and what it
returns and leaves behind. -/
theorem read_eq {array : ByteArray} (placed : Placed array) (size : Nat) :
    array.read size =
      if array.getReadSize < size then .error .outOfRange
      else if array.position = array.capacity then .error .nullPointer
      else .ok (stretch array array.position size, { array with
        position := array.position + size, cur := blockOf array (array.position + size) }) := by
  have base := placed.base
  have bound := placed.size
  have order := placed.position
  rw [ByteArray.read, placed.cur, blockOf]
  by_cases short : array.getReadSize < size
  · rw [if_pos short, if_pos short]
  · rw [if_neg short, if_neg short]
    by_cases last : array.position = array.capacity
    · rw [if_pos last, if_pos last]
    · have here : array.position = array.position / array.baseSize * array.baseSize +
          array.position % array.baseSize := by
        rw [Nat.mul_comm]
        exact (Nat.div_add_mod _ _).symm
      have started : array.cur = some (array.position / array.baseSize) := by
        rw [placed.cur, blockOf, if_neg last]
      rw [ByteArray.getReadSize] at short
      rw [if_neg last, if_neg last]
      exact readLoop_ok (size + 1) (array.position / array.baseSize)
        (array.position % array.baseSize) size base placed.blocks (Nat.mod_lt _ base) here started
        (by omega) (by omega) (Nat.lt_succ_self _)

theorem reads_alike_iff {array : ByteArray} (placed : Placed array) (len : Nat) :
    ReadsAlike array len ↔ array.position ≠ array.capacity := by
  have bound := placed.size
  have order := placed.position
  constructor
  · rintro ⟨_, cells, next, _, _, answered⟩ last
    have empty : min len array.getReadSize = 0 := by
      rw [ByteArray.getReadSize]
      omega
    rw [empty, read_eq placed, if_neg (Nat.not_lt_zero _), if_pos last] at answered
    cases answered
  · intro before
    obtain ⟨buffers, found, exposes⟩ := getReadBuffers_ok placed len
    have answered := read_eq placed (min len array.getReadSize)
    rw [if_neg (by omega), if_neg before] at answered
    exact ⟨buffers, _, _, found, exposes.gather, answered⟩

theorem setPosition_ok {array : ByteArray} (placed : Placed array) (v : Nat)
    (within : v ≤ array.capacity) :
    array.setPosition v =
      .ok { array with position := v, size := max array.size v, cur := blockOf array v } := by
  have found := seek_ok (array.nodes + 1) 0 v placed.base placed.blocks placed.some
    (by rw [Nat.zero_mul]; omega) (by omega)
  rw [Nat.zero_mul, Nat.zero_add] at found
  rw [ByteArray.setPosition, if_neg (by omega), found, ok_bind]

theorem writes_alike {array : ByteArray} (placed : Placed array) (len : Nat) :
    WritesAlike array len := by
  intro some' data whole
  obtain ⟨larger, base, position, room⟩ := addCapacity_placed placed len some'
  have nonempty : data ≠ [] := List.length_pos_iff.mp (by omega)
  rw [getWriteBuffers, if_neg (by omega), ByteArray.write, if_neg nonempty, whole,
    ByteArray.getPosition, ← position]
  generalize array.addCapacity len = grown at *
  have started : grown.cur = some (grown.position / grown.baseSize) := by
    rw [larger.cur, blockOf, if_neg (by omega)]
  have here : grown.position =
      grown.position / grown.baseSize * grown.baseSize + grown.position % grown.baseSize := by
    rw [Nat.mul_comm]
    exact (Nat.div_add_mod _ _).symm
  obtain ⟨looped, ran, shape, moved, cur, _⟩ := writeLoop_ok (len + 1)
    (grown.position / grown.baseSize) (grown.position % grown.baseSize) data larger.base
    larger.blocks (Nat.mod_lt _ larger.base) here started (by omega) (by omega) (by omega)
  obtain ⟨buffers, walked, filled⟩ := writeLoop_fill grown (len + 1) _ _ data grown grown looped rfl
    rfl rfl rfl ran
  rw [whole] at walked moved cur
  have same : { looped with size := max looped.size looped.position } =
      { grown with
        memory := looped.memory
        position := grown.position + len
        size := max grown.size (grown.position + len)
        cur := blockOf grown (grown.position + len) } := by
    rw [moved, shape.size, cur, ← shape.baseSize, ← shape.capacity, ← shape.nodes]
  refine ⟨buffers, grown, _, _, ?_, filled, setPosition_ok (fill_placed _ _ larger filled).2 _ ?_, ?_⟩
  · rw [started] at walked
    dsimp only
    rw [started, buffersFrom, walked, ok_bind]
  · show grown.position + len ≤ grown.capacity
    omega
  · simp only [ran, ok_bind, same, started]
    rfl

/-- For every array that calls can bring about and every length, scatter lists agree with
`read` and `write` exactly when the cursor is not at the end of the last node. -/
theorem scatter_agrees_iff (baseSize : Nat) (array : ByteArray) (reached : Reached baseSize array)
    (len : Nat) :
    (ReadsAlike array len ∧ WritesAlike array len) ↔ array.position ≠ array.capacity := by
  have placed := reached.placed.2
  rw [reads_alike_iff placed]
  exact ⟨fun alike => alike.1, fun before => ⟨before, writes_alike placed len⟩⟩

theorem three_bytes_agree :
    ∃ array, Reached 4 array ∧ ReadsAlike array 2 ∧ WritesAlike array 2 := by
  obtain ⟨array, reached, view⟩ := three_bytes_reached
  obtain ⟨_, position, capacity, _⟩ := Layout.mk.inj view
  exact ⟨array, reached, (scatter_agrees_iff 4 array reached 2).mpr (by omega)⟩

/-- Four bytes fill the node. There is nothing to read, and a `read` of nothing follows the
null pointer behind the last node. -/
theorem full_node_read_faults :
    ¬ ∀ (baseSize : Nat) (array : ByteArray), Reached baseSize array →
      ∀ len, ReadsAlike array len ∧ WritesAlike array len := by
  intro all_alike
  obtain ⟨array, reached, view⟩ : ∃ array, Reached 4 array ∧ layout array = ⟨4, 4, 4, some 0⟩ :=
    calls_reach [.write [1, 2, 3, 4]] 4 _ (by decide) (by decide +kernel)
  obtain ⟨size, position, capacity, _⟩ := Layout.mk.inj view
  obtain ⟨_, cells, next, _, _, answered⟩ := (all_alike 4 array reached 0).1
  rw [Nat.zero_min, read_eq reached.placed.2, if_neg (Nat.not_lt_zero _),
    if_pos (show array.position = array.capacity by omega)] at answered
  cases answered

end OtaMqtt.Bytes.Scatter
