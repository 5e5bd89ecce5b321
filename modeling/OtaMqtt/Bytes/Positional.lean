import OtaMqtt.Bytes.FlatBuffer

/-! The const overload `read (buf, size, position)` of `ByteArray` (sherry/bytearray.cc),
against the flat contents at `position`.

Its offset inside a node comes from `position`, the node it starts in is the cursor's. -/

namespace OtaMqtt.Bytes.Positional

open OtaMqtt.Lib.Execution OtaMqtt.Lib.Ring OtaMqtt.Lib.Refinement
open OtaMqtt.Bytes OtaMqtt.Bytes.FlatBuffer

/-- The loop of the overload, along its local `cur`. -/
def readAtLoop (array : ByteArray) : Nat → Option Nat → Nat → Nat → Nat → Run (List Cell)
  | 0, _, _, _, _ => .error .outOfFuel
  | fuel + 1, cur, npos, ncap, size =>
      if size = 0 then .ok []
      else
        match cur with
        | none => .error .nullPointer
        | some node =>
            if size ≤ ncap then copyOut array.baseSize (array.memory node) npos size
            else do
              let cells ← copyOut array.baseSize (array.memory node) npos ncap
              match array.next node with
              | none => .error .nullPointer
              | some following => do
                  let rest ← readAtLoop array fuel (some following) 0 array.baseSize (size - ncap)
                  .ok (cells ++ rest)

/-- `m_size - position` is a `size_t`. -/
def readAt (array : ByteArray) (size position : Nat) : Run (List Cell) :=
  if subSize array.size position < size then .error .outOfRange
  else
    let npos := position % array.baseSize
    match array.cur with
    | none => .error .nullPointer
    | some node => readAtLoop array (size + 1) (some node) npos (array.baseSize - npos) size

/-- The array on a machine where a byte that was never stored holds what `junk` says. -/
def holding (array : ByteArray) (junk : Nat → Nat → UInt8) : ByteArray :=
  { array with memory := fun node offset => some ((array.memory node offset).getD (junk node offset)) }

/-- The answer does not depend on the cursor: what is not there is refused, everything else
is the flat contents, whatever the bytes hold that were never stored. -/
def Positioned (array : ByteArray) (size position : Nat) : Prop :=
  ∀ junk, readAt (holding array junk) size position =
    if array.getSize < position ∨ array.getSize - position < size then .error .outOfRange
    else .ok (stretch (holding array junk) position size)

/-- Where the overload really starts: in the cursor's node. -/
def mistaken (array : ByteArray) (position : Nat) : Nat :=
  array.position / array.baseSize * array.baseSize + position % array.baseSize

/-- From the offset of `position` on, the cursor's node and those behind it store the bytes that the
node of `position` and those behind it store, with no byte among them that was never stored. -/
def Repeats (array : ByteArray) (size position : Nat) : Prop :=
  ∀ index < size,
    let node := (position % array.baseSize + index) / array.baseSize
    let offset := (position % array.baseSize + index) % array.baseSize
    ∃ byte, array.memory (array.position / array.baseSize + node) offset = some byte ∧
      array.memory (position / array.baseSize + node) offset = some byte

/-- The calls that come out right. Behind the end the unsigned difference has to be exceeded
too; up to the end the cursor must stand before the end of the last node, and either in the node of
`position` or in one from which on enough nodes repeat the bytes. -/
def Agrees (array : ByteArray) (size position : Nat) : Prop :=
  if array.size < position then array.size + 2 ^ 64 < position + size
  else array.size - position < size ∨
    (array.position < array.capacity ∧ (size = 0 ∨
      array.position / array.baseSize = position / array.baseSize ∨
      (mistaken array position + size ≤ array.capacity ∧ Repeats array size position)))

section
variable {array : ByteArray}

theorem copyOut_node (node npos count : Nat) (fits : npos + count ≤ array.baseSize) :
    copyOut array.baseSize (array.memory node) npos count =
      .ok (stretch array (node * array.baseSize + npos) count) := by
  have same := @copyOut_stretch { array with position := node * array.baseSize + npos } node npos count
    rfl fits
  exact same

theorem mistaken_same_block (position : Nat)
    (same : array.position / array.baseSize = position / array.baseSize) :
    mistaken array position = position := by
  rw [mistaken, same, Nat.div_add_mod']

theorem holding_placed (placed : Placed array) (junk : Nat → Nat → UInt8) :
    Placed (holding array junk) :=
  ⟨placed.base, placed.blocks, placed.some, placed.size, placed.position, placed.cur⟩

theorem byte_ne_succ (byte : UInt8) : byte + 1 ≠ byte := by
  intro same
  simp at same

theorem holding_same_iff {first second offset : Nat} (apart : first ≠ second) :
    (∀ junk, (holding array junk).memory first offset = (holding array junk).memory second offset) ↔
      ∃ byte, array.memory first offset = some byte ∧ array.memory second offset = some byte := by
  constructor
  · intro same
    have filled : ∀ junk : Nat → Nat → UInt8, (array.memory first offset).getD (junk first offset) =
        (array.memory second offset).getD (junk second offset) := fun junk => Option.some.inj (same junk)
    cases stored : array.memory first offset with
    | none =>
        rw [stored] at filled
        cases stored' : array.memory second offset with
        | none =>
            rw [stored'] at filled
            have differ := filled fun node _ => if node = first then 1 else 0
            simp [apart.symm] at differ
        | some byte =>
            rw [stored'] at filled
            exact absurd (filled fun _ _ => byte + 1) (byte_ne_succ byte)
    | some byte =>
        rw [stored] at filled
        cases stored' : array.memory second offset with
        | none =>
            rw [stored'] at filled
            exact absurd (filled fun _ _ => byte + 1).symm (byte_ne_succ byte)
        | some other =>
            rw [stored'] at filled
            exact ⟨byte, rfl, congrArg some (filled fun _ _ => 0).symm⟩
  · rintro ⟨byte, stored, stored'⟩ junk
    change some ((array.memory first offset).getD _) = some ((array.memory second offset).getD _)
    rw [stored, stored']
    rfl

theorem cell_node (base : 0 < array.baseSize) (node index : Nat) :
    cell array (node * array.baseSize + index) =
      array.memory (node + index / array.baseSize) (index % array.baseSize) := by
  rw [cell, Nat.add_comm, Nat.add_mul_div_right _ _ base, Nat.add_mul_mod_self_right, Nat.add_comm]

theorem stretches_same_iff (base : 0 < array.baseSize) (size position : Nat)
    (apart : array.position / array.baseSize ≠ position / array.baseSize) :
    (∀ junk, stretch (holding array junk) (mistaken array position) size =
        stretch (holding array junk) position size) ↔ Repeats array size position := by
  have cells : ∀ junk index,
      cell (holding array junk) (mistaken array position + index) =
          (holding array junk).memory (array.position / array.baseSize +
            (position % array.baseSize + index) / array.baseSize)
            ((position % array.baseSize + index) % array.baseSize) ∧
        cell (holding array junk) (position + index) =
          (holding array junk).memory (position / array.baseSize +
            (position % array.baseSize + index) / array.baseSize)
            ((position % array.baseSize + index) % array.baseSize) := by
    intro junk index
    have split : position + index =
        position / array.baseSize * array.baseSize + (position % array.baseSize + index) := by
      rw [← Nat.add_assoc, Nat.div_add_mod']
    rw [mistaken, Nat.add_assoc, split]
    exact ⟨@cell_node (holding array junk) base _ _, @cell_node (holding array junk) base _ _⟩
  have listed : (∀ junk, stretch (holding array junk) (mistaken array position) size =
      stretch (holding array junk) position size) ↔ ∀ index < size, ∀ junk,
        cell (holding array junk) (mistaken array position + index) =
          cell (holding array junk) (position + index) := by
    simp only [stretch, List.map_inj_left, List.mem_range]
    exact ⟨fun all index bound junk => all junk index bound, fun all junk index bound => all index bound junk⟩
  rw [listed, Repeats]
  refine forall₂_congr fun index _ => ?_
  have nodes : array.position / array.baseSize + (position % array.baseSize + index) / array.baseSize ≠
      position / array.baseSize + (position % array.baseSize + index) / array.baseSize := by omega
  rw [← holding_same_iff nodes]
  exact forall_congr' fun junk => by rw [(cells junk index).1, (cells junk index).2]

theorem readAtLoop_not_refused (fuel npos ncap size : Nat) (cur : Option Nat) :
    readAtLoop array fuel cur npos ncap size ≠ .error .outOfRange := by
  have copies (node offset count : Nat) :
      copyOut array.baseSize (array.memory node) offset count ≠ .error .outOfRange := by
    rw [copyOut]
    split <;> intro refused <;> cases refused
  induction fuel generalizing npos ncap size cur with
  | zero =>
      intro refused
      cases refused
  | succ fuel ih =>
      intro refused
      rw [readAtLoop.eq_def] at refused
      dsimp only at refused
      split at refused
      · cases refused
      · split at refused
        · cases refused
        · rename_i node
          split at refused
          · exact copies _ _ _ refused
          · cases copied : copyOut array.baseSize (array.memory node) npos ncap with
            | error reason =>
                rw [copied, error_bind] at refused
                exact copies _ _ _ (copied.trans refused)
            | ok cells =>
                rw [copied, ok_bind] at refused
                split at refused
                · cases refused
                · rename_i following _
                  cases later : readAtLoop array fuel (some following) 0 array.baseSize (size - ncap) with
                  | error reason =>
                      rw [later, error_bind] at refused
                      exact ih _ _ _ _ (later.trans refused)
                  | ok rest =>
                      rw [later, ok_bind] at refused
                      cases refused

theorem readAtLoop_eq (fuel node npos size : Nat) (base : 0 < array.baseSize)
    (blocks : array.capacity = array.nodes * array.baseSize) (offset : npos < array.baseSize)
    (inside : node < array.nodes) (enough : size < fuel) (some' : 0 < size) :
    readAtLoop array fuel (some node) npos (array.baseSize - npos) size =
      if node * array.baseSize + npos + size ≤ array.capacity then
        .ok (stretch array (node * array.baseSize + npos) size)
      else .error .nullPointer := by
  induction fuel generalizing node npos size with
  | zero => omega
  | succ fuel ih =>
      have room : (node + 1) * array.baseSize ≤ array.nodes * array.baseSize :=
        Nat.mul_le_mul_right _ inside
      rw [Nat.add_mul, Nat.one_mul, ← blocks] at room
      rw [readAtLoop, if_neg (by omega)]
      by_cases last : size ≤ array.baseSize - npos
      · rw [if_pos last, if_pos (by omega), copyOut_node node npos size (by omega)]
      · have ended : node * array.baseSize + npos + (array.baseSize - npos) =
            (node + 1) * array.baseSize + 0 := by
          rw [Nat.add_mul, Nat.one_mul]
          omega
        rw [if_neg last, copyOut_node node npos (array.baseSize - npos) (by omega), ok_bind]
        by_cases further : node + 1 < array.nodes
        · have following : array.next node = some (node + 1) := if_pos further
          have later := ih (node + 1) 0 (size - (array.baseSize - npos)) base further (by omega) (by omega)
          rw [Nat.sub_zero, ← ended] at later
          rw [following]
          dsimp only
          rw [later]
          by_cases fits : node * array.baseSize + npos + size ≤ array.capacity
          · have parts : size = (array.baseSize - npos) + (size - (array.baseSize - npos)) := by omega
            rw [if_pos (by omega), if_pos fits, ok_bind]
            conv_rhs => rw [parts, stretch_append]
          · rw [if_neg (by omega), if_neg fits]
            rfl
        · have final : array.next node = none := if_neg further
          have one : node + 1 = array.nodes := by omega
          rw [final, if_neg]
          rw [one, ← blocks] at ended
          omega

end

theorem call_related {baseSize : Nat} {array next : ByteArray} {flat : Flat} (first : Call)
    (reply : Seen) (related : Related baseSize array flat)
    (answered : call array first = .ok (reply, next)) : ∃ later, Related baseSize next later := by
  by_cases asks : Asks first
  · obtain ⟨reached, returned, kept⟩ := call_refines baseSize array flat first related asks
    rw [answered] at returned
    cases returned
    exact ⟨_, kept⟩
  · cases first with
    | read size =>
        have zero : size = 0 := Nat.eq_zero_of_not_pos asks
        subst zero
        rw [call, read_none related] at answered
        by_cases last : flat.position = flat.capacity
        · rw [if_pos last] at answered
          cases answered
        · rw [if_neg last] at answered
          cases answered
          exact ⟨flat, related⟩
    | write data => exact absurd trivial asks
    | setPosition v => exact absurd trivial asks
    | clear => exact absurd trivial asks

theorem exec_related {baseSize : Nat} {last : ByteArray} (calls : List Call) (array : ByteArray)
    (flat : Flat) (replies : List Seen) (related : Related baseSize array flat)
    (reached : exec call array calls = .ok (replies, last)) : ∃ later, Related baseSize last later := by
  induction calls generalizing array flat replies with
  | nil =>
      cases reached
      exact ⟨flat, related⟩
  | cons first rest ih =>
      rw [exec, bind_eq_ok] at reached
      obtain ⟨⟨reply, next⟩, answered, reached⟩ := reached
      dsimp only at reached
      rw [bind_eq_ok] at reached
      obtain ⟨⟨later, final⟩, ran, done⟩ := reached
      cases done
      obtain ⟨between, kept⟩ := call_related first reply related answered
      exact ih next between later kept ran

theorem readAt_within (array : ByteArray) (placed : Placed array) (size position : Nat)
    (bounded : array.size < 2 ^ 64) (within : position + size ≤ array.size) :
    readAt array size position =
      if array.position = array.capacity then .error .nullPointer
      else if size = 0 ∨ mistaken array position + size ≤ array.capacity then
        .ok (stretch array (mistaken array position) size)
      else .error .nullPointer := by
  have base := placed.base
  have most : array.position ≤ array.capacity := Nat.le_trans placed.position placed.size
  rw [readAt, subSize_of_le (by omega) bounded, if_neg (by omega), placed.cur, blockOf]
  by_cases last : array.position = array.capacity
  · rw [if_pos last, if_pos last]
  · rw [if_neg last, if_neg last]
    dsimp only
    have inside : array.position / array.baseSize < array.nodes := by
      rw [Nat.div_lt_iff_lt_mul base, ← placed.blocks]
      omega
    by_cases nothing : size = 0
    · subst nothing
      rw [if_pos (.inl rfl)]
      rfl
    · rw [readAtLoop_eq _ _ _ _ base placed.blocks (Nat.mod_lt _ base) inside (Nat.lt_succ_self _)
        (Nat.pos_of_ne_zero nothing)]
      simp only [nothing, false_or]
      rfl

theorem readAt_behind (array : ByteArray) (size position : Nat) (behind : array.size < position)
    (narrow : position < 2 ^ 64) :
    readAt array size position = .error .outOfRange ↔ array.size + 2 ^ 64 < position + size := by
  rw [readAt, subSize_of_lt behind narrow]
  split
  · exact iff_of_true rfl (by omega)
  · refine iff_of_false (fun refused => ?_) (by omega)
    split at refused
    · cases refused
    · exact readAtLoop_not_refused _ _ _ _ _ refused

theorem positioned_missing {size position : Nat}
    (missing : array.size < position ∨ array.size - position < size) :
    Positioned array size position ↔
      ∀ junk, readAt (holding array junk) size position = .error .outOfRange :=
  forall_congr' fun junk => by rw [ByteArray.getSize, if_pos missing]

theorem positioned_there {size position : Nat}
    (there : ¬ (array.size < position ∨ array.size - position < size)) :
    Positioned array size position ↔ ∀ junk, readAt (holding array junk) size position =
      .ok (stretch (holding array junk) position size) :=
  forall_congr' fun junk => by rw [ByteArray.getSize, if_neg there]

theorem positioned_within (placed : Placed array) (size position : Nat) (bounded : array.size < 2 ^ 64)
    (within : position + size ≤ array.size) :
    Positioned array size position ↔ array.position < array.capacity ∧ (size = 0 ∨
      array.position / array.baseSize = position / array.baseSize ∨
      (mistaken array position + size ≤ array.capacity ∧ Repeats array size position)) := by
  have most : array.position ≤ array.capacity := Nat.le_trans placed.position placed.size
  have read : ∀ junk, readAt (holding array junk) size position =
      if array.position = array.capacity then .error .nullPointer
      else if size = 0 ∨ mistaken array position + size ≤ array.capacity then
        .ok (stretch (holding array junk) (mistaken array position) size)
      else .error .nullPointer :=
    fun junk => readAt_within (holding array junk) (holding_placed placed junk) size position bounded within
  simp only [@positioned_there array size position (by omega), read]
  by_cases last : array.position = array.capacity
  · simp only [if_pos last]
    refine iff_of_false (fun all => ?_) (by omega)
    cases all fun _ _ => 0
  · simp only [if_neg last]
    have before : array.position < array.capacity := by omega
    by_cases nothing : size = 0
    · subst nothing
      exact iff_of_true (fun junk => rfl) ⟨before, .inl rfl⟩
    · by_cases same : array.position / array.baseSize = position / array.baseSize
      · have start := mistaken_same_block position same
        have room : size = 0 ∨ mistaken array position + size ≤ array.capacity := by
          rw [start]
          exact .inr (Nat.le_trans within placed.size)
        refine iff_of_true (fun junk => ?_) ⟨before, .inr (.inl same)⟩
        rw [if_pos room, start]
      · rw [← stretches_same_iff placed.base size position same]
        simp only [nothing, same, false_or, before, true_and]
        by_cases room : mistaken array position + size ≤ array.capacity
        · simp only [room, if_true, Except.ok.injEq, true_and]
        · simp only [room, if_false, false_and, iff_false]
          intro all
          cases all fun _ _ => 0

/-- For every array that calls can bring about, every position and every size, the overload
answers by the flat contents exactly when the call is one of `Agrees`. -/
theorem positional_read_iff (baseSize : Nat) (positive : 0 < baseSize) (calls : List Call)
    (replies : List Seen) (array : ByteArray)
    (reached : exec call (ByteArray.fresh baseSize) calls = .ok (replies, array))
    (bounded : array.size < 2 ^ 64) (size position : Nat) (narrow : position < 2 ^ 64) :
    Positioned array size position ↔ Agrees array size position := by
  obtain ⟨flat, _, placed, _⟩ := exec_related calls _ _ replies (fresh_related baseSize positive) reached
  rw [Agrees]
  by_cases behind : array.size < position
  · rw [if_pos behind]
    rw [positioned_missing (.inl behind)]
    have refused := fun junk => readAt_behind (holding array junk) size position behind narrow
    exact ⟨fun all => (refused fun _ _ => 0).mp (all _), fun far junk => (refused junk).mpr far⟩
  · rw [if_neg behind]
    by_cases short : array.size - position < size
    · rw [positioned_missing (.inr short)]
      refine iff_of_true (fun junk => ?_) (.inl short)
      have sized : (holding array junk).size = array.size := rfl
      rw [readAt, sized, subSize_of_le (by omega) bounded, if_pos short]
    · rw [positioned_within placed size position bounded (by omega)]
      exact (or_iff_right short).symm

/-- Three bytes over blocks of two, the cursor back at the front. -/
def threeBytes : List Call := [.write [1, 2, 3], .setPosition 0]

structure Glimpse where
  size : Nat
  position : Nat
  capacity : Nat
  baseSize : Nat
  returned : List Cell
  there : List Cell
  deriving DecidableEq

def glimpse (array : ByteArray) : Glimpse :=
  ⟨array.size, array.position, array.capacity, array.baseSize,
    (readAt (holding array fun _ _ => 0) 1 2).toOption.getD [],
    stretch (holding array fun _ _ => 0) 2 1⟩

theorem three_bytes : ∃ replies array,
    exec call (ByteArray.fresh 2) threeBytes = .ok (replies, array) ∧
      glimpse array = ⟨3, 0, 4, 2, [some 1], [some 3]⟩ := by
  have seen : (exec call (ByteArray.fresh 2) threeBytes).map (fun outcome => glimpse outcome.2) =
      .ok ⟨3, 0, 4, 2, [some 1], [some 3]⟩ := by decide +kernel
  cases reached : exec call (ByteArray.fresh 2) threeBytes with
  | error reason =>
      rw [reached] at seen
      cases seen
  | ok outcome =>
      rw [reached] at seen
      exact ⟨outcome.1, outcome.2, rfl, Except.ok.inj seen⟩

theorem same_block_agrees : ∃ replies array,
    exec call (ByteArray.fresh 2) threeBytes = .ok (replies, array) ∧ Positioned array 2 1 := by
  obtain ⟨replies, array, reached, view⟩ := three_bytes
  obtain ⟨size, position, capacity, base, _, _⟩ := Glimpse.mk.inj view
  refine ⟨replies, array, reached, ?_⟩
  apply (positional_read_iff 2 (by decide) threeBytes replies array reached (by omega) 2 1 (by decide)).mpr
  rw [Agrees, if_neg (by omega)]
  exact .inr ⟨by omega, .inr (.inl (by rw [position, base]))⟩

/-- Position 2 lies in the second block; the byte returned is the first of the array. -/
theorem other_block_misread :
    ¬ ∀ (baseSize : Nat) (calls : List Call) (replies : List Seen) (array : ByteArray), 0 < baseSize →
      exec call (ByteArray.fresh baseSize) calls = .ok (replies, array) → array.size < 2 ^ 64 →
      ∀ size position, position < 2 ^ 64 → Positioned array size position := by
  intro always_positioned
  obtain ⟨replies, array, reached, view⟩ := three_bytes
  obtain ⟨size, _, _, _, first, third⟩ := Glimpse.mk.inj view
  have answered := always_positioned 2 threeBytes replies array (by decide) reached (by omega) 1 2
    (by decide) fun _ _ => 0
  rw [ByteArray.getSize, if_neg (by omega), third] at answered
  rw [answered] at first
  exact absurd first (by decide)

end OtaMqtt.Bytes.Positional
