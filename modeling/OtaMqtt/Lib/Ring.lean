import OtaMqtt.Lib.Execution

/-! Byte arrays addressed by index, and the circular windows of a ring of slots. -/

namespace OtaMqtt.Lib.Ring

open OtaMqtt.Lib.Execution

variable {α : Type}

/-- `memcpy` of `count` cells into an array of `limit` cells. -/
def copyIn (limit : Nat) (slots : Nat → α) (offset : Nat) (source : Nat → α) (count : Nat) :
    Run (Nat → α) :=
  if offset + count ≤ limit then
    .ok fun index =>
      if offset ≤ index ∧ index < offset + count then source (index - offset) else slots index
  else .error .outOfBounds

/-- `memcpy` of `count` cells out of an array of `limit` cells. -/
def copyOut (limit : Nat) (slots : Nat → α) (offset count : Nat) : Run (List α) :=
  if offset + count ≤ limit then .ok ((List.range count).map fun index => slots (offset + index))
  else .error .outOfBounds

def load (limit : Nat) (slots : Nat → α) (index : Nat) : Run α :=
  if index < limit then .ok (slots index) else .error .outOfBounds

def store (limit : Nat) (slots : Nat → α) (index : Nat) (value : α) : Run (Nat → α) :=
  if index < limit then .ok (Function.update slots index value) else .error .outOfBounds

theorem mod_cases (index modulus : Nat) (bound : index < 2 * modulus) :
    (index < modulus ∧ index % modulus = index) ∨
      (modulus ≤ index ∧ index % modulus = index - modulus) := by
  by_cases small : index < modulus
  · exact .inl ⟨small, Nat.mod_eq_of_lt small⟩
  · refine .inr ⟨by omega, ?_⟩
    rw [Nat.mod_eq_sub_mod (by omega), Nat.mod_eq_of_lt (by omega)]

theorem copyIn_ok (limit : Nat) (slots : Nat → α) (offset : Nat) (source : Nat → α) (count : Nat)
    (bound : offset + count ≤ limit) :
    copyIn limit slots offset source count = .ok fun index =>
      if offset ≤ index ∧ index < offset + count then source (index - offset) else slots index := by
  rw [copyIn, if_pos bound]

theorem copyOut_ok (limit : Nat) (slots : Nat → α) (offset count : Nat)
    (bound : offset + count ≤ limit) :
    copyOut limit slots offset count = .ok ((List.range count).map fun index => slots (offset + index)) := by
  rw [copyOut, if_pos bound]

/-- The `count` cells met from `start` on when indices wrap at `modulus`. -/
def window (slots : Nat → α) (modulus start count : Nat) : List α :=
  (List.range count).map fun offset => slots ((start + offset) % modulus)

@[simp] theorem window_length (slots : Nat → α) (modulus start count : Nat) :
    (window slots modulus start count).length = count := by
  simp [window]

theorem window_append (slots : Nat → α) (modulus start first second : Nat) :
    window slots modulus start (first + second) =
      window slots modulus start first ++ window slots modulus ((start + first) % modulus) second := by
  unfold window
  rw [List.range_add, List.map_append, List.map_map]
  congr 1
  apply List.map_congr_left
  intro offset _
  simp only [Function.comp_apply, Nat.mod_add_mod, Nat.add_assoc]

theorem window_concat (slots : Nat → α) (modulus start count : Nat) :
    window slots modulus start (count + 1) =
      window slots modulus start count ++ [slots ((start + count) % modulus)] := by
  rw [window, List.range_succ, List.map_append, List.map_singleton, window]

theorem window_cons (slots : Nat → α) (modulus start count : Nat) :
    window slots modulus start (count + 1) =
      slots (start % modulus) :: window slots modulus ((start + 1) % modulus) count := by
  rw [Nat.add_comm count 1, window_append]
  rfl

theorem window_take (slots : Nat → α) (modulus start count taken : Nat) (bound : taken ≤ count) :
    (window slots modulus start count).take taken = window slots modulus start taken := by
  obtain ⟨rest, rfl⟩ := Nat.exists_eq_add_of_le bound
  rw [window_append, List.take_left' (window_length ..)]

theorem window_drop (slots : Nat → α) (modulus start count taken : Nat) (bound : taken ≤ count) :
    (window slots modulus start count).drop taken =
      window slots modulus ((start + taken) % modulus) (count - taken) := by
  obtain ⟨rest, rfl⟩ := Nat.exists_eq_add_of_le bound
  rw [window_append, List.drop_left' (window_length ..), Nat.add_sub_cancel_left]

theorem window_congr (slots other : Nat → α) (modulus start count : Nat)
    (agree : ∀ offset, offset < count →
      slots ((start + offset) % modulus) = other ((start + offset) % modulus)) :
    window slots modulus start count = window other modulus start count := by
  apply List.map_congr_left
  intro offset member
  exact agree offset (List.mem_range.mp member)

theorem window_straight (slots : Nat → α) (modulus start count : Nat)
    (bound : start + count ≤ modulus) :
    window slots modulus start count = (List.range count).map fun offset => slots (start + offset) := by
  apply List.map_congr_left
  intro offset member
  have inside := List.mem_range.mp member
  rw [Nat.mod_eq_of_lt (by omega)]

theorem window_mod_start (slots : Nat → α) (modulus start count : Nat) :
    window slots modulus (start % modulus) count = window slots modulus start count := by
  apply List.map_congr_left
  intro offset _
  rw [Nat.mod_add_mod]

end OtaMqtt.Lib.Ring
