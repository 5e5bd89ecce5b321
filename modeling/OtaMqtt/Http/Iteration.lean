import OtaMqtt.Http.BufferQueue
import OtaMqtt.Http.LineScan
import OtaMqtt.Http.ParserLines

/-! The indices that `next_idx` and `pre_idx` give, against the slots of the ring.

The parser walks the ring with these two, which reduce modulo `m_capacity`; `write` and the
readers reduce modulo `m_capacity + 1`. -/

namespace OtaMqtt.Http.Iteration

open OtaMqtt.Lib.Execution OtaMqtt.Lib.Ring OtaMqtt.Lib.Trace
open OtaMqtt.Http.Buffer OtaMqtt.Http.Parser OtaMqtt.Http.Parser.HttpParser
open OtaMqtt.Http.BufferQueue (queued queued_length)
open OtaMqtt.Http.ParserLines (Quiet)
open OtaMqtt.Http.RingStates (InRange occupied readByEnd_takes)

/-- The indices are in range and `m_size` bytes lie between them, up to a full ring. -/
structure Holding (ring : HttpBuffer) : Prop where
  start : ring.startIdx ≤ ring.capacity
  finish : ring.endIdx ≤ ring.capacity
  fits : ring.size ≤ ring.slots
  size : (ring.startIdx + ring.size) % ring.slots = ring.endIdx

/-- The slot of the byte that has `count` queued bytes before it. -/
def queuedSlot (ring : HttpBuffer) (count : Nat) : Nat := (ring.startIdx + count) % ring.slots

/-- `next_idx` applied so many times, from `m_start_idx` on. -/
def advance (ring : HttpBuffer) : Nat → Run Nat
  | 0 => .ok ring.startIdx
  | count + 1 => do
      let idx ← advance ring count
      ring.nextIdx idx

/-- What `get_val` gives at the indices of the walk. -/
def seen (ring : HttpBuffer) : Nat → Run (List UInt8)
  | 0 => .ok []
  | count + 1 => do
      let bytes ← seen ring count
      let idx ← advance ring count
      let byte ← ring.getVal idx
      .ok (bytes ++ [byte])

/-- The walk goes along the queue, the two steps undo each other at the slot, and what is seen
on the walk is what `parse_line` scans and the readers return. -/
structure Follows (ring : HttpBuffer) (slot : Nat) : Prop where
  visits : ∀ count < ring.size, advance ring count = .ok (queuedSlot ring count)
  ends : advance ring ring.size = .ok ring.endIdx
  back : ring.nextIdx slot >>= ring.preIdx = .ok slot
  forth : ring.preIdx slot >>= ring.nextIdx = .ok slot
  scans : ∀ count ≤ ring.size, ∃ bytes idx, seen ring count = .ok bytes ∧
    advance ring count = .ok idx ∧ (Quiet bytes → ∀ fuel parser, parser.checkedIdx = ring.startIdx →
      scanLine ring.endIdx (fuel + count) parser ring =
        scanLine ring.endIdx fuel { parser with checkedIdx := idx } ring)
  byEnd : ∀ count, 1 ≤ count → count ≤ ring.size → ∃ bytes idx next, seen ring count = .ok bytes ∧
    advance ring count = .ok idx ∧ ring.readByEnd idx = .ok (some bytes, next)
  byZero : ∃ bytes next, seen ring ring.size = .ok bytes ∧
    ring.readByZero = .ok (bytes.takeWhile (· ≠ 0) ++ [0], next)

/-- The queued bytes and `m_end_idx` lie in one piece before the last slot. With two slots the
step from the last one is right by chance. -/
def Clear (ring : HttpBuffer) : Prop :=
  ring.size = 0 ∨ ring.startIdx + ring.size < ring.capacity ∨
    (ring.capacity = 1 ∧ ring.startIdx = 1 ∧ ring.size = 1)

section
variable {ring : HttpBuffer} (narrow : ring.slots < 2 ^ 31) (positive : 1 ≤ ring.capacity)
include narrow positive

theorem nextIdx_inside {idx : Nat} (inside : idx ≤ ring.capacity) :
    ring.nextIdx idx = .ok ((idx + 1) % ring.capacity) := by
  have slots : ring.slots = ring.capacity + 1 := rfl
  exact ring.nextIdx_eq (by omega) positive

theorem nextIdx_follows_iff {idx : Nat} (inside : idx ≤ ring.capacity) :
    ring.nextIdx idx = .ok ((idx + 1) % ring.slots) ↔
      idx + 1 < ring.capacity ∨ (ring.capacity = 1 ∧ idx = 1) := by
  have slots : ring.slots = ring.capacity + 1 := rfl
  rw [nextIdx_inside narrow positive inside, Except.ok.injEq]
  by_cases before : idx + 1 < ring.capacity
  · rw [Nat.mod_eq_of_lt before, Nat.mod_eq_of_lt (by omega)]
    exact iff_of_true rfl (.inl before)
  · by_cases last : idx = ring.capacity
    · have turned : (idx + 1) % ring.slots = 0 := by rw [last, ← slots, Nat.mod_self]
      rw [turned, last, Nat.add_mod_left]
      by_cases one : ring.capacity = 1
      · rw [one]
        exact iff_of_true (Nat.mod_self 1) (.inr ⟨rfl, rfl⟩)
      · rw [Nat.mod_eq_of_lt (by omega)]
        exact iff_of_false Nat.one_ne_zero (by omega)
    · have same : idx + 1 = ring.capacity := by omega
      rw [same, Nat.mod_self, Nat.mod_eq_of_lt (by omega)]
      exact iff_of_false (by omega) (by omega)

theorem back_iff {slot : Nat} (inside : slot ≤ ring.capacity) :
    ring.nextIdx slot >>= ring.preIdx = .ok slot ↔ slot < ring.capacity := by
  rw [nextIdx_inside narrow positive inside, ok_bind, ring.preIdx_eq _ narrow positive, Except.ok.injEq]
  by_cases before : slot + 1 < ring.capacity
  · rw [Nat.mod_eq_of_lt before, if_neg (Nat.succ_ne_zero slot)]
    exact iff_of_true rfl (by omega)
  · by_cases last : slot = ring.capacity
    · rw [last, Nat.add_mod_left]
      by_cases one : ring.capacity = 1
      · rw [one]
        exact iff_of_false (by decide) (by decide)
      · rw [Nat.mod_eq_of_lt (by omega), if_neg Nat.one_ne_zero]
        exact iff_of_false (by omega) (Nat.lt_irrefl _)
    · have same : slot + 1 = ring.capacity := by omega
      rw [same, Nat.mod_self, if_pos rfl]
      exact iff_of_true (by omega) (by omega)

theorem forth_of_lt {slot : Nat} (before : slot < ring.capacity) :
    ring.preIdx slot >>= ring.nextIdx = .ok slot := by
  rw [ring.preIdx_eq _ narrow positive, ok_bind]
  by_cases first : slot = 0
  · rw [if_pos first, nextIdx_inside narrow positive (Nat.sub_le ..), Nat.sub_add_cancel positive,
      Nat.mod_self, first]
  · rw [if_neg first, nextIdx_inside narrow positive (by omega), Nat.sub_add_cancel (by omega),
      Nat.mod_eq_of_lt before]

end

theorem queuedSlot_inside (ring : HttpBuffer) (count : Nat) : queuedSlot ring count ≤ ring.capacity :=
  Nat.le_of_lt_succ (Nat.mod_lt _ (Nat.succ_pos ring.capacity))

theorem queuedSlot_succ (ring : HttpBuffer) (count : Nat) :
    queuedSlot ring (count + 1) = (queuedSlot ring count + 1) % ring.slots := by
  rw [queuedSlot, queuedSlot, Nat.mod_add_mod, Nat.add_assoc]

section
variable {ring : HttpBuffer} (holding : Holding ring)
include holding

theorem queuedSlot_zero : queuedSlot ring 0 = ring.startIdx :=
  Nat.mod_eq_of_lt (Nat.lt_succ_of_le holding.start)

theorem queuedSlot_size : queuedSlot ring ring.size = ring.endIdx := holding.size

theorem advance_iff (narrow : ring.slots < 2 ^ 31) (positive : 1 ≤ ring.capacity) (total : Nat) :
    (∀ count ≤ total, advance ring count = .ok (queuedSlot ring count)) ↔
      ∀ count < total, queuedSlot ring count + 1 < ring.capacity ∨
        (ring.capacity = 1 ∧ queuedSlot ring count = 1) := by
  constructor
  · intro walked count below
    rw [← nextIdx_follows_iff narrow positive (queuedSlot_inside ring count), ← queuedSlot_succ,
      ← walked (count + 1) below, advance, walked count (Nat.le_of_lt below), ok_bind]
  · intro steps count atMost
    induction count with
    | zero => rw [advance, queuedSlot_zero holding]
    | succ count ih =>
        rw [advance, ih (Nat.le_of_lt atMost), ok_bind, queuedSlot_succ]
        exact (nextIdx_follows_iff narrow positive (queuedSlot_inside ring count)).mpr (steps count atMost)

theorem clear_iff (positive : 1 ≤ ring.capacity) :
    Clear ring ↔ ∀ count < ring.size, queuedSlot ring count + 1 < ring.capacity ∨
      (ring.capacity = 1 ∧ queuedSlot ring count = 1) := by
  have slots : ring.slots = ring.capacity + 1 := rfl
  have start := holding.start
  constructor
  · rintro (none | straight | ⟨two, last, single⟩) count below
    · omega
    · rw [queuedSlot, Nat.mod_eq_of_lt (by omega)]
      exact .inl (by omega)
    · have first : count = 0 := by omega
      rw [first, queuedSlot_zero holding]
      exact .inr ⟨two, last⟩
  · intro steps
    by_cases none : ring.size = 0
    · exact .inl none
    · have first := steps 0 (by omega)
      rw [queuedSlot_zero holding] at first
      rcases first with early | ⟨two, last⟩
      · refine .inr (.inl ?_)
        by_contra far
        -- The byte before the last slot but one is queued.
        have late := steps (ring.capacity - 1 - ring.startIdx) (by omega)
        rw [queuedSlot, Nat.add_sub_cancel' (by omega), Nat.mod_eq_of_lt (by omega)] at late
        omega
      · refine .inr (.inr ⟨two, last, ?_⟩)
        by_contra more
        have turned := steps 1 (by omega)
        have front : queuedSlot ring 1 = 0 := by rw [queuedSlot, last, slots, two]
        omega

theorem visits_iff_clear (narrow : ring.slots < 2 ^ 31) (positive : 1 ≤ ring.capacity) :
    ((∀ count < ring.size, advance ring count = .ok (queuedSlot ring count)) ∧
      advance ring ring.size = .ok ring.endIdx) ↔ Clear ring := by
  rw [clear_iff holding positive, ← advance_iff holding narrow positive, ← queuedSlot_size holding]
  constructor
  · rintro ⟨visits, ends⟩ count atMost
    rcases Nat.lt_or_eq_of_le atMost with below | rfl
    · exact visits count below
    · exact ends
  · intro walked
    exact ⟨fun count below => walked count (Nat.le_of_lt below), walked ring.size le_rfl⟩

theorem queuedSlot_ne {count : Nat} (spare : ring.size ≤ ring.capacity) (below : count < ring.size) :
    queuedSlot ring count ≠ ring.endIdx := by
  have start := holding.start
  have slots : ring.slots = ring.capacity + 1 := rfl
  rw [← queuedSlot_size holding, queuedSlot, queuedSlot]
  rcases mod_cases (ring.startIdx + count) ring.slots (by omega) with ⟨_, same⟩ | ⟨_, same⟩ <;>
    rcases mod_cases (ring.startIdx + ring.size) ring.slots (by omega) with
      ⟨_, same'⟩ | ⟨_, same'⟩ <;> omega

end

/-! ### What the walk sees -/

section
variable {ring : HttpBuffer} {total : Nat}
  (walked : ∀ count ≤ total, advance ring count = .ok (queuedSlot ring count))
include walked

theorem seen_eq (count : Nat) (atMost : count ≤ total) :
    seen ring count = .ok (window ring.buffer ring.slots ring.startIdx count) := by
  induction count with
  | zero => rfl
  | succ count ih =>
      have inside : queuedSlot ring count < ring.slots := Nat.mod_lt _ (Nat.succ_pos ring.capacity)
      rw [seen, ih (Nat.le_of_lt atMost), ok_bind, walked count (Nat.le_of_lt atMost), ok_bind,
        HttpBuffer.getVal, load, if_pos inside, ok_bind, window_concat, queuedSlot]

theorem scanLine_walks (holding : Holding ring) (whole : total = ring.size)
    (spare : ring.size ≤ ring.capacity) (count : Nat) (atMost : count ≤ total)
    (quiet : Quiet (window ring.buffer ring.slots ring.startIdx count)) (fuel : Nat)
    (parser : HttpParser) (start : parser.checkedIdx = ring.startIdx) :
    scanLine ring.endIdx (fuel + count) parser ring =
      scanLine ring.endIdx fuel { parser with checkedIdx := queuedSlot ring count } ring := by
  induction count generalizing fuel with
  | zero =>
      rw [queuedSlot_zero holding, ← start]
      rfl
  | succ count ih =>
      have inside : queuedSlot ring count < ring.slots := Nat.mod_lt _ (Nat.succ_pos ring.capacity)
      rw [window_concat] at quiet
      have earlier : Quiet (window ring.buffer ring.slots ring.startIdx count) :=
        fun byte member => quiet byte (List.mem_append_left _ member)
      have plain : ring.buffer (queuedSlot ring count) ≠ 13 ∧ ring.buffer (queuedSlot ring count) ≠ 10 :=
        quiet _ (List.mem_append_right _ (List.mem_singleton_self _))
      have step := walked (count + 1) atMost
      rw [advance, walked count (Nat.le_of_lt atMost), ok_bind] at step
      rw [Nat.add_comm count 1, ← Nat.add_assoc, ih (Nat.le_of_lt atMost) earlier, scanLine,
        if_neg (queuedSlot_ne holding spare (by omega)), HttpBuffer.getVal, load, if_pos inside, ok_bind,
        if_neg plain.1, if_neg plain.2, step, ok_bind, Nat.add_comm 1 count]

end

/-! ### What the readers return -/

theorem countToZero_window (ring : HttpBuffer) (rest idx passed fuel : Nat) (inside : idx < ring.slots)
    (finish : (idx + rest) % ring.slots = ring.endIdx)
    (apart : ∀ offset < rest, (idx + offset) % ring.slots ≠ ring.endIdx) :
    ring.countToZero (fuel + rest + 1) idx passed =
      .ok (passed + ((window ring.buffer ring.slots idx rest).takeWhile (· ≠ 0)).length) := by
  induction rest generalizing idx passed with
  | zero =>
      rw [Nat.add_zero, Nat.mod_eq_of_lt inside] at finish
      rw [HttpBuffer.countToZero, if_pos finish]
      rfl
  | succ rest ih =>
      have here := apart 0 (Nat.succ_pos rest)
      rw [Nat.add_zero, Nat.mod_eq_of_lt inside] at here
      rw [HttpBuffer.countToZero, if_neg here, load, if_pos inside, ok_bind, window_cons,
        Nat.mod_eq_of_lt inside]
      by_cases zero : ring.buffer idx = 0
      · rw [if_pos zero, List.takeWhile_cons_of_neg (by simpa using zero)]
        rfl
      · have later := ih ((idx + 1) % ring.slots) (passed + 1)
          (Nat.mod_lt _ (Nat.succ_pos ring.capacity)) (by
            rw [Nat.mod_add_mod, Nat.add_assoc, Nat.add_comm 1 rest, finish]) (by
            intro offset below
            rw [Nat.mod_add_mod, Nat.add_assoc, Nat.add_comm 1 offset]
            exact apart (offset + 1) (Nat.succ_lt_succ below))
        rw [if_neg zero, ← Nat.add_assoc, later, List.takeWhile_cons_of_pos (by simpa using zero),
          List.length_cons, Nat.add_assoc, Nat.add_comm 1]

theorem copyFrom_window (ring : HttpBuffer) (count idx : Nat) (inside : idx < ring.slots) :
    ring.copyFrom count idx = .ok (window ring.buffer ring.slots idx count) := by
  induction count generalizing idx with
  | zero => rfl
  | succ count ih =>
      rw [HttpBuffer.copyFrom, load, if_pos inside, ok_bind,
        ih _ (Nat.mod_lt _ (Nat.succ_pos ring.capacity)), ok_bind, window_cons, Nat.mod_eq_of_lt inside]

section
variable {ring : HttpBuffer} (holding : Holding ring) (spare : ring.size ≤ ring.capacity)
include holding spare

theorem size_occupied : ring.size = occupied ring := by
  obtain ⟨start, finish, -, size⟩ := holding
  have slots : ring.slots = ring.capacity + 1 := rfl
  rw [occupied]
  rcases mod_cases (ring.startIdx + ring.size) ring.slots (by omega) with ⟨_, same⟩ | ⟨_, same⟩
  · rw [if_pos (by omega)]
    omega
  · rw [if_neg (by omega)]
    omega

theorem readByEnd_queued (narrow : ring.slots < 2 ^ 31) (count : Nat) (some' : 1 ≤ count)
    (atMost : count ≤ ring.size) (bound : ring.startIdx + count < 2 ^ 31) :
    ring.readByEnd (queuedSlot ring count) =
      .ok (some (window ring.buffer ring.slots ring.startIdx count), ring.advanced count) := by
  have inside : InRange ring :=
    ⟨narrow, Nat.lt_succ_of_le holding.start, Nat.le_succ_of_le holding.finish⟩
  apply readByEnd_takes ring inside count some' _ bound
  rw [← size_occupied holding spare]
  exact atMost

theorem readByZero_takes (bound : ring.startIdx + ring.size + 1 < 2 ^ 31) :
    ∃ next, ring.readByZero = .ok ((queued ring).takeWhile (· ≠ 0) ++ [0], next) := by
  have inside : ring.startIdx < ring.slots := Nat.lt_succ_of_le holding.start
  have slots : ring.slots = ring.capacity + 1 := rfl
  have counted := countToZero_window ring ring.size ring.startIdx 0 (ring.slots - ring.size) inside
    holding.size fun count below => queuedSlot_ne holding spare below
  rw [Nat.sub_add_cancel holding.fits, Nat.zero_add, ← queued] at counted
  have front : (queued ring).takeWhile (· ≠ 0) <+: queued ring := List.takeWhile_prefix _
  have short := front.length_le
  rw [queued_length] at short
  have copied := copyFrom_window ring ((queued ring).takeWhile (· ≠ 0)).length ring.startIdx inside
  rw [← window_take _ _ _ _ _ short, ← queued, ← List.prefix_iff_eq_take.mp front] at copied
  rw [HttpBuffer.readByZero, counted, ok_bind, copied, ok_bind, toInt_of_lt (by omega), ok_bind]
  exact ⟨_, rfl⟩

end

theorem clear_spare {ring : HttpBuffer} (clear : Clear ring) : ring.size ≤ ring.capacity := by
  rcases clear with none | straight | ⟨two, -, single⟩
  · omega
  · omega
  · omega

theorem clear_bound {ring : HttpBuffer} (clear : Clear ring) (holding : Holding ring)
    (narrow : ring.slots < 2 ^ 31) : ring.startIdx + ring.size + 1 < 2 ^ 31 := by
  have start := holding.start
  have slots : ring.slots = ring.capacity + 1 := rfl
  rcases clear with none | straight | ⟨two, last, single⟩
  · omega
  · omega
  · omega

theorem follows_of_clear {ring : HttpBuffer} {slot : Nat} (holding : Holding ring)
    (narrow : ring.slots < 2 ^ 31) (positive : 1 ≤ ring.capacity) (clear : Clear ring)
    (before : slot < ring.capacity) : Follows ring slot := by
  have spare := clear_spare clear
  have bound := clear_bound clear holding narrow
  have walked := (advance_iff holding narrow positive ring.size).mpr ((clear_iff holding positive).mp clear)
  obtain ⟨visits, ends⟩ := (visits_iff_clear holding narrow positive).mpr clear
  refine ⟨visits, ends, (back_iff narrow positive (Nat.le_of_lt before)).mpr before,
    forth_of_lt narrow positive before, ?_, ?_, ?_⟩
  · intro count atMost
    refine ⟨_, _, seen_eq walked count atMost, walked count atMost, fun quiet fuel parser start => ?_⟩
    exact scanLine_walks walked holding rfl spare count atMost quiet fuel parser start
  · intro count some' atMost
    exact ⟨_, _, _, seen_eq walked count atMost, walked count atMost,
      readByEnd_queued holding spare narrow count some' atMost (by omega)⟩
  · obtain ⟨next, read⟩ := readByZero_takes holding spare bound
    exact ⟨_, next, seen_eq walked ring.size le_rfl, read⟩

/-- The indices of the parser follow the ring exactly while the queue lies before the last
slot, and at every slot but that one. -/
theorem follows_iff_clear (ring : HttpBuffer) (slot : Nat) (narrow : ring.slots < 2 ^ 31)
    (positive : 1 ≤ ring.capacity) (holding : Holding ring) (inside : slot ≤ ring.capacity) :
    Follows ring slot ↔ Clear ring ∧ slot < ring.capacity := by
  constructor
  · intro follows
    exact ⟨(visits_iff_clear holding narrow positive).mp ⟨follows.visits, follows.ends⟩,
      (back_iff narrow positive inside).mp follows.back⟩
  · rintro ⟨clear, before⟩
    exact follows_of_clear holding narrow positive clear before

theorem reached_holding (capacity : Nat) (narrow : capacity + 1 < 2 ^ 31) (junk : Nat → UInt8)
    (calls : List RingStates.Call) (ring : HttpBuffer)
    (roomy : Guarded RingStates.step RingStates.Roomy (HttpBuffer.fresh capacity junk) calls)
    (reached : run RingStates.step (HttpBuffer.fresh capacity junk) calls = some ring) :
    Holding ring := by
  have start : RingStates.Kept (HttpBuffer.fresh capacity junk) :=
    ⟨RingStates.fresh_inRange capacity junk narrow, RingStates.fresh_sound capacity junk⟩
  obtain ⟨-, sound⟩ := run_invariant RingStates.kept_step calls _ ring start roomy reached
  obtain ⟨first, last, size⟩ := (RingStates.sound_iff ring).mp sound
  have slots : ring.slots = ring.capacity + 1 := rfl
  have spare := sound.full
  refine ⟨first, last, by omega, ?_⟩
  rw [RingStates.occupied] at size
  rcases mod_cases (ring.startIdx + ring.size) ring.slots (by omega) with ⟨_, same⟩ | ⟨_, same⟩
  · rw [same]
    split at size <;> omega
  · rw [same]
    split at size <;> omega

def twoBytes : HttpBuffer := ⟨4, 2, 1, 3, fun _ => 97⟩

theorem twoBytes_followed : Follows twoBytes 3 :=
  (follows_iff_clear twoBytes 3 (by decide) (by decide) ⟨by decide, by decide, by decide, by decide⟩
    (by decide)).mpr ⟨.inr (.inl (by decide)), by decide⟩

def fourBytes : HttpBuffer := ⟨4, 4, 0, 4, fun index => if index < 4 then 97 else 0⟩

theorem fourBytes_written :
    (HttpBuffer.fresh 4 fun _ => 0).write (fun _ => 97) 4 = .ok (true, fourBytes) := by
  rw [HttpBuffer.write_straight _ _ _ (by decide) (by decide) (by decide) (by decide)]
  have bytes : (HttpBuffer.fresh 4 fun _ => 0).pasted (fun _ => 97) 4 = fourBytes.buffer := by
    funext index
    simp [HttpBuffer.pasted, HttpBuffer.fresh, fourBytes]
  rw [bytes]
  rfl

/-- The walk turns before it comes to `m_end_idx`. -/
theorem fourBytes_not_followed :
    ¬ ∀ (ring : HttpBuffer) (slot : Nat), ring.slots < 2 ^ 31 → 1 ≤ ring.capacity → Holding ring →
      slot ≤ ring.capacity → Follows ring slot := by
  intro all_followed
  have follows := all_followed fourBytes 0 (by decide) (by decide)
    ⟨by decide, by decide, by decide, by decide⟩ (by decide)
  exact absurd follows.ends (by decide +kernel)

end OtaMqtt.Http.Iteration
