import OtaMqtt.Bytes.RoundTrip
import OtaMqtt.Bytes.Scatter

/-! `writeToFile`, `readFromFile` and `toString` of `ByteArray` (sherry/bytearray.cc).

The file can be opened; what `writeToFile` passes to the stream is given as the places its
bytes come from. -/

namespace OtaMqtt.Bytes.Files

open OtaMqtt.Lib.Execution OtaMqtt.Lib.Ring OtaMqtt.Lib.Refinement
open OtaMqtt.Bytes OtaMqtt.Bytes.FlatBuffer OtaMqtt.Bytes.Positional OtaMqtt.Bytes.RoundTrip
open OtaMqtt.Bytes.Scatter

/-- A result of signed 64-bit arithmetic. -/
def toInt64 (value : Int) : Run Int :=
  if -2 ^ 63 ≤ value ∧ value < 2 ^ 63 then .ok value else .error .intOverflow

/-- `int diff = pos % m_baseSize`: `pos` is converted to `size_t`, the remainder to `int`. -/
def diffOf (array : ByteArray) (pos : Int) : Int :=
  castInt ((pos % 2 ^ 64).toNat % array.baseSize)

/-- `int64_t len = (read_size > (int64_t)m_baseSize ? m_baseSize : read_size) - diff`, an
unsigned difference converted back. -/
def lenOf (array : ByteArray) (readSize diff : Int) : Int :=
  Int.bmod ((if Int.bmod array.baseSize (2 ^ 64) < readSize then (array.baseSize : Int) else readSize) -
    diff) (2 ^ 64)

/-- The loop of `writeToFile`; each round passes one stretch of the local `cur` to the stream. -/
def writeFileLoop (array : ByteArray) : Nat → Option Nat → Int → Int → Run (List Iovec)
  | 0, _, _, _ => .error .outOfFuel
  | fuel + 1, cur, pos, readSize =>
      if 0 < readSize then
        let diff := diffOf array pos
        let len := lenOf array readSize diff
        match cur with
        | none => .error .nullPointer
        | some node =>
            if diff < 0 ∨ len < 0 ∨ array.baseSize < diff + len then .error .outOfBounds
            else do
              let pos ← toInt64 (pos + len)
              let readSize ← toInt64 (readSize - len)
              let rest ← writeFileLoop array fuel (array.next node) pos readSize
              .ok (⟨node, diff.toNat, len.toNat⟩ :: rest)
      else .ok []

def writeToFile (array : ByteArray) : Run (List Iovec) :=
  writeFileLoop array (array.nodes + 1) array.cur (Int.bmod array.position (2 ^ 64))
    (Int.bmod array.getReadSize (2 ^ 64))

/-- The loop of `readFromFile`: a read of less than `m_baseSize` bytes has met the end. -/
def readFileLoop : Nat → ByteArray → List UInt8 → Run ByteArray
  | 0, _, _ => .error .outOfFuel
  | fuel + 1, array, file => do
      let next ← array.write (file.take array.baseSize)
      if file.length < array.baseSize then .ok next
      else readFileLoop fuel next (file.drop array.baseSize)

def readFromFile (array : ByteArray) (file : List UInt8) : Run ByteArray :=
  readFileLoop (file.length + 1) array file

def toString (array : ByteArray) : Run (List Cell) :=
  if array.getReadSize = 0 then .ok [] else readAt array array.getReadSize array.position

/-- Exactly the unread positions are written, each piece inside its node. -/
def Saves (array : ByteArray) : Prop :=
  ∃ pieces, writeToFile array = .ok pieces ∧
    Exposes array pieces array.getPosition array.getReadSize ∧
    gather array pieces = .ok (stretch array array.getPosition array.getReadSize)

/-- The file, read into a fresh array of any block size, gives the same text again. -/
def Restores (array : ByteArray) : Prop :=
  ∀ (junk : Nat → Nat → UInt8) (other : Nat), 0 < other →
    ∃ pieces file restored rewound,
      writeToFile (holding array junk) = .ok pieces ∧
      gather (holding array junk) pieces = .ok (file.map some) ∧
      readFromFile (ByteArray.fresh other) file = .ok restored ∧
      restored.setPosition 0 = .ok rewound ∧
      toString (holding array junk) = .ok (file.map some) ∧
      toString rewound = .ok (file.map some)

/-- When a save comes out right: nothing is unread, or the offset inside the first block is an
`int` and either zero or a whole block is unread. -/
def Savable (array : ByteArray) : Prop :=
  array.getReadSize = 0 ∨
    (array.position % array.baseSize < 2 ^ 31 ∧
      (array.position % array.baseSize = 0 ∨ array.baseSize ≤ array.getReadSize))

instance (array : ByteArray) : Decidable (Savable array) :=
  inferInstanceAs (Decidable (_ ∨ _))

section
variable {array : ByteArray}

theorem toInt64_ok {value : Int} (low : -2 ^ 63 ≤ value) (high : value < 2 ^ 63) :
    toInt64 value = .ok value :=
  if_pos ⟨low, high⟩

theorem toInt64_eq {value result : Int} (kept : toInt64 value = .ok result) : result = value := by
  rw [toInt64] at kept
  split at kept
  · rw [Except.ok.injEq] at kept
    exact kept.symm
  · cases kept

theorem bmod_small (value : Int) (low : -2 ^ 63 ≤ value) (high : value < 2 ^ 63) :
    Int.bmod value (2 ^ 64) = value := by
  rw [Int.bmod_eq_of_le] <;> omega

theorem diffOf_nat (position : Nat) (bound : position < 2 ^ 63) :
    diffOf array position = castInt (position % array.baseSize) := by
  have same : ((position : Int) % 2 ^ 64).toNat = position := by omega
  rw [diffOf, same]

theorem lenOf_eq (readSize diff : Int) (base : array.baseSize < 2 ^ 63)
    (low : -2 ^ 63 ≤ min (array.baseSize : Int) readSize - diff)
    (high : min (array.baseSize : Int) readSize - diff < 2 ^ 63) :
    lenOf array readSize diff = min (array.baseSize : Int) readSize - diff := by
  have least : (if (array.baseSize : Int) < readSize then (array.baseSize : Int) else readSize) =
      min (array.baseSize : Int) readSize := by
    split <;> omega
  rw [lenOf, bmod_small (array.baseSize : Int) (by omega) (by omega), least, bmod_small _ low high]

theorem castInt_range (value : Nat) : -2 ^ 31 ≤ castInt value ∧ castInt value < 2 ^ 31 := by
  unfold castInt
  have low : -((2 ^ 32 : Nat) / 2 : Int) ≤ Int.bmod value (2 ^ 32) := Int.le_bmod (by decide)
  have high : Int.bmod value (2 ^ 32) < ((2 ^ 32 : Nat) + 1) / 2 := Int.bmod_lt (by decide)
  constructor <;> omega

theorem round_ok (fuel node position readSize offset len : Nat) (base : array.baseSize < 2 ^ 63)
    (bound : position + readSize < 2 ^ 63) (some' : 0 < readSize)
    (here : position % array.baseSize = offset) (small : offset < 2 ^ 31)
    (length : offset + len = min array.baseSize readSize) :
    writeFileLoop array (fuel + 1) (some node) position readSize =
      (writeFileLoop array fuel (array.next node) (position + len : Nat) (readSize - len : Nat)).map
        (⟨node, offset, len⟩ :: ·) := by
  have diff : diffOf array position = offset := by
    rw [diffOf_nat position (by omega), here, castInt_of_lt small]
  have size : lenOf array readSize offset = len := by
    rw [lenOf_eq _ _ base (by omega) (by omega)]
    omega
  have moved : (position : Int) + len = (position + len : Nat) := by omega
  have left : (readSize : Int) - len = (readSize - len : Nat) := by omega
  rw [writeFileLoop, if_pos (by omega)]
  dsimp only
  rw [diff, size, if_neg (by omega), moved, left, toInt64_ok (by omega) (by omega), ok_bind,
    toInt64_ok (by omega) (by omega), ok_bind, Int.toNat_natCast, Int.toNat_natCast]
  cases writeFileLoop array fuel (array.next node) (position + len : Nat) (readSize - len : Nat) with
  | error reason => rfl
  | ok rest => rfl

theorem aligned_ok (placed : Placed array) (narrow : array.capacity < 2 ^ 63) (fuel node readSize : Nat)
    (fits : node * array.baseSize + readSize ≤ array.capacity) (enough : array.nodes < fuel + node) :
    ∃ pieces, writeFileLoop array fuel (blockOf array (node * array.baseSize))
        (node * array.baseSize : Nat) readSize = .ok pieces ∧
      Exposes array pieces (node * array.baseSize) readSize := by
  have base := placed.base
  have covered : array.baseSize ≤ array.capacity := by
    rw [placed.blocks]
    exact Nat.le_mul_of_pos_left _ placed.some
  induction fuel generalizing node readSize with
  | zero =>
      have past : (array.nodes + 1) * array.baseSize ≤ node * array.baseSize :=
        Nat.mul_le_mul_right _ (by omega)
      rw [Nat.add_mul, Nat.one_mul, ← placed.blocks] at past
      omega
  | succ fuel ih =>
      by_cases nothing : readSize = 0
      · subst nothing
        rw [writeFileLoop, if_neg (by omega)]
        exact ⟨[], rfl, exposes_nothing _⟩
      · have inside := block_lt placed.blocks node 0 (by omega)
        have block : blockOf array (node * array.baseSize) = some node :=
          blockOf_inside node 0 base (by omega)
        have ended : node * array.baseSize + array.baseSize = (node + 1) * array.baseSize := by
          rw [Nat.add_mul, Nat.one_mul]
        rw [block, round_ok fuel node _ readSize 0 (min array.baseSize readSize) (by omega) (by omega)
          (by omega) (Nat.mul_mod_left _ _) (by omega) (by omega)]
        have front := exposes_one node 0 (min array.baseSize readSize) inside (by omega)
        by_cases last : readSize ≤ array.baseSize
        · have whole : readSize - min array.baseSize readSize = 0 := by omega
          have least : min array.baseSize readSize = readSize := by omega
          rw [least] at front
          rw [whole, least]
          cases fuel with
          | zero => omega
          | succ fuel =>
              rw [writeFileLoop, if_neg (by omega)]
              exact ⟨_, rfl, front⟩
        · have least : min array.baseSize readSize = array.baseSize := by omega
          obtain ⟨rest, ran, exposes⟩ := ih (node + 1) (readSize - array.baseSize) (by omega) (by omega)
          rw [least] at front ⊢
          rw [← ended] at ran exposes
          rw [next_eq placed.blocks base node inside, ← ended, ran]
          have joined := front.append exposes
          rw [Nat.add_sub_cancel' (by omega)] at joined
          exact ⟨_, rfl, joined⟩

theorem round_cases (fuel : Nat) (cur : Option Nat) (pos readSize : Int) (pieces : List Iovec)
    (some' : 0 < readSize) (ran : writeFileLoop array (fuel + 1) cur pos readSize = .ok pieces) :
    ∃ node rest, cur = some node ∧ 0 ≤ diffOf array pos ∧
      0 ≤ lenOf array readSize (diffOf array pos) ∧
      writeFileLoop array fuel (array.next node) (pos + lenOf array readSize (diffOf array pos))
        (readSize - lenOf array readSize (diffOf array pos)) = .ok rest ∧
      pieces = ⟨node, (diffOf array pos).toNat, (lenOf array readSize (diffOf array pos)).toNat⟩ :: rest := by
  cases cur with
  | none =>
      rw [writeFileLoop, if_pos some'] at ran
      cases ran
  | some node =>
      rw [writeFileLoop, if_pos some'] at ran
      dsimp only at ran
      split at ran
      · cases ran
      · rename_i inside
        rw [bind_eq_ok] at ran
        obtain ⟨pos', moved, ran⟩ := ran
        rw [bind_eq_ok] at ran
        obtain ⟨readSize', left, ran⟩ := ran
        rw [bind_eq_ok] at ran
        obtain ⟨rest, ran, done⟩ := ran
        rw [Except.ok.injEq] at done
        rw [toInt64_eq moved, toInt64_eq left] at ran
        exact ⟨node, rest, rfl, by omega, by omega, ran, done.symm⟩

theorem stuck (fuel : Nat) (cur : Option Nat) (pos readSize : Int) (pieces : List Iovec)
    (some' : 0 < readSize) (zero : lenOf array readSize (diffOf array pos) = 0) :
    writeFileLoop array fuel cur pos readSize ≠ .ok pieces := by
  induction fuel generalizing cur pieces with
  | zero =>
      intro ran
      cases ran
  | succ fuel ih =>
      intro ran
      obtain ⟨node, rest, _, _, _, ran, _⟩ := round_cases fuel cur pos readSize pieces some' ran
      rw [zero, add_zero, sub_zero] at ran
      exact ih _ _ ran

theorem first_slot (fuel : Nat) (cur : Option Nat) (pos readSize : Int) (pieces : List Iovec)
    (some' : 0 < readSize) (ran : writeFileLoop array (fuel + 1) cur pos readSize = .ok pieces) :
    ∃ node rest, cur = some node ∧ 0 ≤ diffOf array pos ∧
      pieces.flatMap (Iovec.slots array.baseSize) =
        (node * array.baseSize + (diffOf array pos).toNat) :: rest := by
  obtain ⟨node, later, found, low, length, _, rfl⟩ := round_cases fuel cur pos readSize pieces some' ran
  have positive : lenOf array readSize (diffOf array pos) ≠ 0 :=
    fun zero => stuck (fuel + 1) cur pos readSize _ some' zero ran
  obtain ⟨count, counted⟩ :
      ∃ count, (lenOf array readSize (diffOf array pos)).toNat = count + 1 :=
    Nat.exists_eq_succ_of_ne_zero (by omega)
  refine ⟨node, List.range' (node * array.baseSize + (diffOf array pos).toNat + 1) count ++
    later.flatMap (Iovec.slots array.baseSize), found, low, ?_⟩
  rw [List.flatMap_cons, Iovec.slots]
  dsimp only
  rw [counted, List.range'_succ, List.cons_append]

theorem writeToFile_eq (placed : Placed array) (narrow : array.capacity < 2 ^ 63) :
    writeToFile array = writeFileLoop array (array.nodes + 1) (blockOf array array.position)
      array.position array.getReadSize := by
  have bound := placed.size
  have order := placed.position
  have left : array.getReadSize ≤ array.capacity := by
    rw [ByteArray.getReadSize]
    omega
  rw [writeToFile, placed.cur, bmod_small _ (by omega) (by omega), bmod_small _ (by omega) (by omega)]

/-- A savable array is saved: the first round ends at the end of its node. -/
theorem savable_saves (placed : Placed array) (narrow : array.capacity < 2 ^ 63)
    (savable : Savable array) : Saves array := by
  have base := placed.base
  have bound := placed.size
  have order := placed.position
  have split : array.position / array.baseSize * array.baseSize +
      array.position % array.baseSize = array.position := by
    rw [Nat.mul_comm]
    exact Nat.div_add_mod _ _
  have covered : array.position + array.getReadSize ≤ array.capacity := by
    rw [ByteArray.getReadSize]
    omega
  have found : ∃ pieces, writeToFile array = .ok pieces ∧
      Exposes array pieces array.position array.getReadSize := by
    rw [writeToFile_eq placed narrow]
    rcases savable with nothing | ⟨small, aligned | whole⟩
    · rw [nothing, writeFileLoop, if_neg (by omega)]
      exact ⟨[], rfl, exposes_nothing _⟩
    · rw [aligned, Nat.add_zero] at split
      have ran := aligned_ok placed narrow (array.nodes + 1) (array.position / array.baseSize)
        array.getReadSize (by omega) (Nat.lt_of_lt_of_le (Nat.lt_succ_self _) (Nat.le_add_right _ _))
      rw [split] at ran
      exact ran
    · have offset := Nat.mod_lt array.position base
      have inside : array.position / array.baseSize < array.nodes := by
        rw [Nat.div_lt_iff_lt_mul base, ← placed.blocks]
        omega
      have ended : array.position + (array.baseSize - array.position % array.baseSize) =
          (array.position / array.baseSize + 1) * array.baseSize := by
        rw [Nat.add_mul, Nat.one_mul]
        omega
      have block : blockOf array array.position = some (array.position / array.baseSize) := by
        rw [blockOf, if_neg (by omega)]
      rw [block, round_ok array.nodes _ array.position array.getReadSize _
        (array.baseSize - array.position % array.baseSize) (by omega) (by omega) (by omega) rfl small
        (by omega), ended, next_eq placed.blocks base _ inside]
      obtain ⟨rest, ran, exposes⟩ := aligned_ok placed narrow array.nodes
        (array.position / array.baseSize + 1)
        (array.getReadSize - (array.baseSize - array.position % array.baseSize)) (by omega)
        (Nat.lt_add_of_pos_right (Nat.succ_pos _))
      have front := exposes_one (array.position / array.baseSize) (array.position % array.baseSize)
        (array.baseSize - array.position % array.baseSize) inside (by omega)
      rw [split] at front
      rw [← ended] at exposes
      have joined := front.append exposes
      rw [Nat.add_sub_cancel' (by omega)] at joined
      rw [ran]
      exact ⟨_, rfl, joined⟩
  obtain ⟨pieces, ran, exposes⟩ := found
  exact ⟨pieces, ran, exposes, exposes.gather⟩

theorem first_offset (placed : Placed array) (narrow : array.capacity < 2 ^ 63)
    (pieces : List Iovec) (some' : 0 < array.getReadSize) (ran : writeToFile array = .ok pieces)
    (exposes : Exposes array pieces array.position array.getReadSize) :
    array.position % array.baseSize < 2 ^ 31 := by
  have bound := placed.size
  have order := placed.position
  have within : array.position + array.getReadSize ≤ array.capacity := by
    rw [ByteArray.getReadSize]
    omega
  have split : array.position / array.baseSize * array.baseSize +
      array.position % array.baseSize = array.position := by
    rw [Nat.mul_comm]
    exact Nat.div_add_mod _ _
  obtain ⟨count, counted⟩ := Nat.exists_eq_succ_of_ne_zero (Nat.ne_of_gt some')
  rw [writeToFile_eq placed narrow, blockOf, if_neg (by omega)] at ran
  obtain ⟨node, rest, found, low, slots⟩ := first_slot _ _ _ _ pieces (by omega) ran
  rw [Option.some.injEq] at found
  subst found
  rw [exposes.slots, counted, List.range'_succ, List.cons.injEq] at slots
  have first := slots.1
  rw [diffOf_nat _ (by omega)] at first low
  have range := castInt_range (array.position % array.baseSize)
  omega

/-- A run that starts inside a block and goes through has a whole block to write: else the
second round would stand behind the bytes that are due. -/
theorem first_block (placed : Placed array) (narrow : array.capacity < 2 ^ 63)
    (pieces : List Iovec) (some' : 0 < array.getReadSize) (ran : writeToFile array = .ok pieces)
    (exposes : Exposes array pieces array.position array.getReadSize)
    (small : array.position % array.baseSize < 2 ^ 31) (offset : array.position % array.baseSize ≠ 0) :
    array.baseSize ≤ array.getReadSize := by
  by_contra short
  have bound := placed.size
  have order := placed.position
  have within : array.position + array.getReadSize ≤ array.capacity := by
    rw [ByteArray.getReadSize]
    omega
  have split : array.position / array.baseSize * array.baseSize +
      array.position % array.baseSize = array.position := by
    rw [Nat.mul_comm]
    exact Nat.div_add_mod _ _
  have covered : array.baseSize ≤ array.capacity := by
    rw [placed.blocks]
    exact Nat.le_mul_of_pos_left _ placed.some
  rw [writeToFile_eq placed narrow, blockOf, if_neg (by omega)] at ran
  obtain ⟨node, rest, found, low, length, later, rfl⟩ :=
    round_cases _ _ _ _ pieces (by omega) ran
  rw [Option.some.injEq] at found
  subst found
  have diff : diffOf array array.position = (array.position % array.baseSize : Nat) := by
    rw [diffOf_nat _ (by omega), castInt_of_lt small]
  have size : lenOf array array.getReadSize (array.position % array.baseSize : Nat) =
      (array.getReadSize : Int) - (array.position % array.baseSize : Nat) := by
    rw [lenOf_eq _ _ (by omega) (by omega) (by omega)]
    omega
  rw [diff, size] at later length
  obtain ⟨fuel, fuelled⟩ := Nat.exists_eq_succ_of_ne_zero (Nat.ne_of_gt placed.some)
  rw [fuelled] at later
  obtain ⟨second, others, next, _, slots⟩ := first_slot fuel _ _ _ rest (by omega) later
  have following : second = array.position / array.baseSize + 1 := by
    rw [ByteArray.next] at next
    split at next
    · exact (Option.some.inj next).symm
    · cases next
  subst following
  obtain ⟨front, taken⟩ := Nat.exists_eq_add_of_le (show array.position % array.baseSize ≤ array.getReadSize by omega)
  obtain ⟨count, counted⟩ := Nat.exists_eq_succ_of_ne_zero offset
  have cells := exposes.slots
  have firstLen : (lenOf array array.getReadSize (diffOf array array.position)).toNat = front := by
    rw [diff, size]
    omega
  rw [List.flatMap_cons, slots, Iovec.slots] at cells
  dsimp only at cells
  rw [firstLen, diff, Int.toNat_natCast, split, taken, Nat.add_comm (array.position % array.baseSize),
    ← List.range'_append_1] at cells
  have tail := List.append_cancel_left cells
  rw [counted, List.range'_succ, List.cons.injEq] at tail
  have position := tail.1
  rw [Nat.add_mul, Nat.one_mul] at position
  linarith

theorem saves_iff (placed : Placed array) (narrow : array.capacity < 2 ^ 63) :
    Saves array ↔ Savable array := by
  constructor
  · rintro ⟨pieces, ran, exposes, _⟩
    by_cases nothing : array.getReadSize = 0
    · exact .inl nothing
    · have some' := Nat.pos_of_ne_zero nothing
      have small := first_offset placed narrow pieces some' ran exposes
      by_cases aligned : array.position % array.baseSize = 0
      · exact .inr ⟨small, .inl aligned⟩
      · exact .inr ⟨small, .inr (first_block placed narrow pieces some' ran exposes small aligned)⟩
  · exact savable_saves placed narrow

theorem holding_stretch (junk : Nat → Nat → UInt8) (position count : Nat) :
    ∃ file : List UInt8, file.length = count ∧
      stretch (holding array junk) position count = file.map some := by
  refine ⟨(List.range count).map fun index =>
    (cell array (position + index)).getD (junk ((position + index) / array.baseSize)
      ((position + index) % array.baseSize)), by simp, ?_⟩
  rw [stretch, List.map_map]
  rfl

theorem toString_ok (placed : Placed array) (bounded : array.size < 2 ^ 64) :
    toString array = .ok (stretch array array.position array.getReadSize) := by
  have bound := placed.size
  have order := placed.position
  have within : array.position + array.getReadSize ≤ array.size := by
    rw [ByteArray.getReadSize]
    omega
  rw [toString]
  by_cases nothing : array.getReadSize = 0
  · rw [if_pos nothing, nothing]
    rfl
  · rw [if_neg nothing, readAt_within array placed _ _ bounded within, if_neg (by omega),
      mistaken_same_block _ rfl, if_pos (.inr (by omega))]

theorem stretch_laid {baseSize : Nat} {flat : Flat} (bytes : List UInt8)
    (related : Related baseSize array flat) (laid : Laid flat bytes) :
    stretch array array.position bytes.length = bytes.map some := by
  have inside := laid.inside
  have bound := related.2.1.size
  rw [related.2.2.position, related.2.2.size] at inside
  apply List.ext_getElem?
  intro index
  rw [stretch]
  by_cases early : index < bytes.length
  · have here := laid.bytes index early
    rw [related.2.2.position, related.2.2.contents _ (by omega)] at here
    rw [List.getElem?_map, List.getElem?_range early, List.getElem?_map, Option.map_some, here,
      List.getElem?_eq_getElem early]
    rfl
  · simp [early]

theorem readFileLoop_ok {baseSize : Nat} {flat : Flat} (fuel : Nat) (before file : List UInt8)
    (related : Related baseSize array flat) (holds : Holds flat before) (enough : file.length < fuel) :
    ∃ next later, readFileLoop fuel array file = .ok next ∧ Related baseSize next later ∧
      Holds later (before ++ file) := by
  induction fuel generalizing array flat before file with
  | zero => omega
  | succ fuel ih =>
      have base := related.2.1.base
      obtain ⟨next, wrote, kept⟩ := write_refines (file.take array.baseSize) related
      have holds' := holds.write baseSize (file.take array.baseSize) (related_bound kept)
      rw [readFileLoop, wrote, ok_bind]
      by_cases last : file.length < array.baseSize
      · rw [List.take_of_length_le (by omega)] at kept holds'
        exact ⟨next, _, if_pos last, kept, holds'⟩
      · rw [if_neg last]
        obtain ⟨final, later, ran, related', held⟩ :=
          ih (before ++ file.take array.baseSize) (file.drop array.baseSize) kept holds'
            (by rw [List.length_drop]; omega)
        rw [List.append_assoc, List.take_append_drop] at held
        exact ⟨final, later, ran, related', held⟩

theorem readFromFile_ok (other : Nat) (positive : 0 < other) (file : List UInt8)
    (bounded : file.length < 2 ^ 64) :
    ∃ restored rewound, readFromFile (ByteArray.fresh other) file = .ok restored ∧
      restored.setPosition 0 = .ok rewound ∧ toString rewound = .ok (file.map some) := by
  obtain ⟨restored, flat, ran, related, holds⟩ := readFileLoop_ok (file.length + 1) [] file
    (fresh_related other positive) (fresh_holds other) (Nat.lt_succ_self _)
  rw [List.nil_append] at holds
  obtain ⟨rewound, moved, kept, laid⟩ := rewind_laid related holds
  have size : rewound.size = file.length := kept.2.2.size.symm.trans holds.size
  have front : rewound.position = 0 := kept.2.2.position.symm
  have left : rewound.getReadSize = file.length := by
    rw [ByteArray.getReadSize, size, front, Nat.sub_zero]
  refine ⟨restored, rewound, ran, moved, ?_⟩
  rw [toString_ok kept.2.1 (by omega), left, stretch_laid file kept laid]

theorem saves_restores (placed : Placed array) (narrow : array.capacity < 2 ^ 63)
    (savable : Savable array) : Restores array := by
  intro junk other positive
  have placed' := holding_placed placed junk
  have bound := placed.size
  obtain ⟨pieces, ran, _, gathered⟩ := savable_saves placed' narrow savable
  obtain ⟨file, length, text⟩ := @holding_stretch array junk array.position array.getReadSize
  have short : file.length ≤ array.size := by
    rw [length, ByteArray.getReadSize]
    omega
  obtain ⟨restored, rewound, read, moved, again⟩ := readFromFile_ok other positive file (by omega)
  refine ⟨pieces, file, restored, rewound, ran, gathered.trans (congrArg _ text), read, moved, ?_, again⟩
  rw [toString_ok placed' (Nat.lt_of_le_of_lt bound (by omega)), ← text]
  rfl

end

/-- For every array that calls can bring about, `writeToFile` writes exactly the unread bytes,
and they are read back as the same text, exactly when the array is savable. The nodes are
memory of the machine, so that their sizes add up to less than `2 ^ 63`. -/
theorem file_round_trip_iff (baseSize : Nat) (array : ByteArray) (reached : Reached baseSize array)
    (narrow : array.capacity < 2 ^ 63) :
    (Saves array ∧ Restores array) ↔ Savable array := by
  have placed := reached.placed.2
  rw [saves_iff placed narrow]
  exact ⟨fun both => both.1, fun savable => ⟨savable, saves_restores placed narrow savable⟩⟩

theorem front_saved : ∃ array, Reached 4 array ∧ array.getReadSize = 3 ∧ Saves array ∧ Restores array := by
  obtain ⟨array, reached, view⟩ := three_bytes_reached
  obtain ⟨size, position, capacity, _⟩ := Layout.mk.inj view
  have savable : Savable array := by
    refine .inr ⟨?_, .inl ?_⟩
    · rw [position, Nat.zero_mod]
      decide
    · rw [position, Nat.zero_mod]
  refine ⟨array, reached, ?_, (file_round_trip_iff 4 array reached (by omega)).mpr savable⟩
  rw [ByteArray.getReadSize]
  omega

/-- Three bytes in a block of four, saved from the second one on: the last byte is left out,
and the second round starts behind the block. -/
theorem second_byte_not_saved :
    ¬ ∀ (baseSize : Nat) (array : ByteArray), Reached baseSize array → array.capacity < 2 ^ 63 →
      Saves array ∧ Restores array := by
  intro all_restored
  obtain ⟨array, reached, view⟩ : ∃ array, Reached 4 array ∧ layout array = ⟨3, 1, 4, some 2⟩ :=
    calls_reach [.write [1, 2, 3], .setPosition 1] 4 _ (by decide) (by decide +kernel)
  obtain ⟨size, position, capacity, _⟩ := Layout.mk.inj view
  have base := reached.placed.1
  have savable := (saves_iff reached.placed.2 (by omega)).mp (all_restored 4 array reached (by omega)).1
  rw [Savable, ByteArray.getReadSize, base, size, position] at savable
  exact absurd savable (by decide)

end OtaMqtt.Bytes.Files
