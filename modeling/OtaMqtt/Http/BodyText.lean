import Mathlib.Data.List.TakeWhile
import OtaMqtt.Http.BufferQueue
import OtaMqtt.Http.RingStates

/-! The text that `read_by_zero` takes out of the ring, against one NUL-terminated field of
the queue. -/

namespace OtaMqtt.Http.BodyText

open OtaMqtt.Lib.Execution OtaMqtt.Lib.Ring OtaMqtt.Lib.Refinement
open OtaMqtt.Http.Buffer
open OtaMqtt.Http.BufferQueue (Call queueCall queued)
open OtaMqtt.Http.RingStates (Sound sound_iff occupied)

/-- The index of the counting loop after `count` rounds. -/
def walk (ring : HttpBuffer) : Nat → Nat
  | 0 => ring.startIdx
  | count + 1 => (walk ring count + 1) % ring.slots

def Inside (ring : HttpBuffer) (idx : Nat) : Prop := idx ≠ ring.endIdx ∧ ring.buffer idx ≠ 0

theorem countToZero_stops (ring : HttpBuffer) (fuel passed size : Nat)
    (counted : ring.countToZero fuel (walk ring passed) passed = .ok size) :
    passed ≤ size ∧ (∀ count, passed ≤ count → count < size → Inside ring (walk ring count)) ∧
      ¬ Inside ring (walk ring size) := by
  induction fuel generalizing passed with
  | zero => cases counted
  | succ fuel ih =>
      rw [HttpBuffer.countToZero] at counted
      by_cases finished : walk ring passed = ring.endIdx
      · rw [if_pos finished] at counted
        cases counted
        exact ⟨Nat.le_refl _, fun count least below => by omega, fun inside => inside.1 finished⟩
      · rw [if_neg finished, bind_eq_ok] at counted
        obtain ⟨byte, loaded, rest⟩ := counted
        rw [load] at loaded
        split at loaded
        · cases loaded
          by_cases zero : ring.buffer (walk ring passed) = 0
          · rw [if_pos zero] at rest
            cases rest
            exact ⟨Nat.le_refl _, fun count least below => by omega, fun inside => inside.2 zero⟩
          · rw [if_neg zero] at rest
            obtain ⟨least, goesOn, stops⟩ := ih (passed + 1) rest
            refine ⟨by omega, ?_, stops⟩
            intro count from' below
            rcases Nat.eq_or_lt_of_le from' with same | later
            · subst same
              exact ⟨finished, zero⟩
            · exact goesOn count later below
        · cases loaded

theorem copyFrom_length (ring : HttpBuffer) (count idx : Nat) (bytes : List UInt8)
    (copied : ring.copyFrom count idx = .ok bytes) : bytes.length = count := by
  induction count generalizing idx bytes with
  | zero =>
      cases copied
      rfl
  | succ count ih =>
      rw [HttpBuffer.copyFrom, bind_eq_ok] at copied
      obtain ⟨byte, _, copied⟩ := copied
      rw [bind_eq_ok] at copied
      obtain ⟨rest, later, done⟩ := copied
      cases done
      rw [List.length_cons, ih _ _ later]

/-- The text has `size` bytes and a NUL; `m_start_idx` moves past all of them, `m_size` only
past the first `size`. -/
theorem readByZero_cases (ring next : HttpBuffer) (ret : List UInt8)
    (read : ring.readByZero = .ok (ret, next)) :
    ∃ size, ret.length = size + 1 ∧
      (∀ count < size, Inside ring (walk ring count)) ∧ ¬ Inside ring (walk ring size) ∧
      next = { ring with startIdx := ring.startIdx + size + 1, size := subSize ring.size size } := by
  rw [HttpBuffer.readByZero, bind_eq_ok] at read
  obtain ⟨size, counted, read⟩ := read
  rw [bind_eq_ok] at read
  obtain ⟨bytes, copied, read⟩ := read
  rw [bind_eq_ok] at read
  obtain ⟨startIdx, moved, done⟩ := read
  have stored : startIdx = ring.startIdx + size + 1 := by
    rw [toInt] at moved
    split at moved
    · cases moved
      rfl
    · cases moved
  obtain ⟨_, goesOn, stops⟩ := countToZero_stops ring _ 0 size counted
  rw [Except.ok.injEq, Prod.mk.injEq] at done
  refine ⟨size, ?_, fun count below => goesOn count (Nat.zero_le _) below, stops, ?_⟩
  · rw [← done.1, List.length_append, copyFrom_length ring size _ bytes copied]
    rfl
  · rw [← done.2, stored]

/-- What is left of a queue behind its first NUL-terminated field. -/
def behindField (queue : List UInt8) : List UInt8 := (queue.dropWhile (· ≠ 0)).drop 1

/-- One field is taken off the queue, and nothing else happens to it. -/
structure TakesField (ring : HttpBuffer) (queue ret : List UInt8) (next : HttpBuffer) : Prop where
  field : ret = queue.takeWhile (· ≠ 0) ++ [0]
  rest : 0 ∈ queue → queued next = behindField queue
  emptied : 0 ∉ queue → next.empty = true
  start : next.startIdx ≤ next.capacity
  finish : next.endIdx ≤ next.capacity
  size : next.size = (behindField queue).length
  following : ∀ data len size, len ≤ ring.capacity - (behindField queue).length →
    answers BufferQueue.HttpBuffer.call next [.write data len, .readBySize size] =
      .ok (execSpec queueCall (behindField queue) [.write data len, .readBySize size]).1

/-- Whatever is queued, `read_by_zero` does not take one field off: it moves one slot further
than `m_size` tells, and past `m_end_idx` when there is no NUL. -/
theorem read_by_zero_never_takes_field (ring : HttpBuffer) (narrow : ring.capacity < 2 ^ 64)
    (sound : Sound ring) :
    ¬ ∃ ret next, ring.readByZero = .ok (ret, next) ∧ TakesField ring (queued ring) ret next := by
  rintro ⟨ret, next, read, takes⟩
  obtain ⟨size, length, _, _, rfl⟩ := readByZero_cases ring next ret read
  obtain ⟨start, finish, held⟩ := (sound_iff ring).mp sound
  have full := sound.full
  have slots : ring.slots = ring.capacity + 1 := rfl
  have split : ((queued ring).takeWhile (· ≠ 0)).length + ((queued ring).dropWhile (· ≠ 0)).length =
      ring.size := by
    rw [← List.length_append, List.takeWhile_append_dropWhile, BufferQueue.queued_length]
  have counted : size = ((queued ring).takeWhile (· ≠ 0)).length := by
    rw [takes.field, List.length_append] at length
    simpa using length.symm
  have left : subSize ring.size size = ring.size - size := subSize_of_le (by omega) (by omega)
  by_cases zero : 0 ∈ queued ring
  · have some : 0 < ((queued ring).dropWhile (· ≠ 0)).length := by
      rw [List.length_pos_iff, Ne, List.dropWhile_eq_nil_iff]
      intro all
      simpa using all 0 zero
    have size := takes.size
    rw [behindField, List.length_drop] at size
    simp only [left] at size
    omega
  · have none : ((queued ring).dropWhile (· ≠ 0)).length = 0 := by
      rw [List.length_eq_zero_iff, List.dropWhile_eq_nil_iff]
      intro byte member
      simp only [ne_eq, decide_eq_true_eq]
      rintro rfl
      exact zero member
    have emptied := takes.emptied zero
    simp only [HttpBuffer.empty, beq_iff_eq] at emptied
    rw [occupied] at held
    split at held <;> omega

/-- Four slots of data and a spare one; the queue is `a`, NUL. -/
def oneField : HttpBuffer := ⟨4, 2, 0, 2, fun index => if index = 0 then 97 else 0⟩

theorem oneField_sound : Sound oneField := (sound_iff oneField).mpr ⟨by decide, by decide, by decide⟩

theorem one_field_not_taken :
    ¬ ∃ ret next, oneField.readByZero = .ok (ret, next) ∧
      TakesField oneField (queued oneField) ret next :=
  read_by_zero_never_takes_field oneField (by decide) oneField_sound

/-- `a` is returned and nothing is queued any more, but `m_size` is still 1. -/
theorem terminator_left_in_size :
    ¬ ∀ ring : HttpBuffer, ring.capacity < 2 ^ 64 → Sound ring →
      ∃ ret next, ring.readByZero = .ok (ret, next) ∧ TakesField ring (queued ring) ret next := by
  intro always_takes
  obtain ⟨ret, next, read, takes⟩ := always_takes oneField (by decide) oneField_sound
  have seen : (oneField.readByZero.map fun answer => answer.2.size) = .ok 1 := by decide +kernel
  have left : (behindField (queued oneField)).length = 0 := by decide +kernel
  rw [read] at seen
  have size := takes.size
  rw [left] at size
  simp only [Except.map, size] at seen
  cases seen

end OtaMqtt.Http.BodyText
