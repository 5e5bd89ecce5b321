import Mathlib.Tactic

/-! Executions of C++ code that may leave its defined behaviour.

A modelled function returns `Run`; an `error` says that the source would read or
write outside an object, follow a null pointer, store a value that its `int`
cannot hold, divide by zero, use a value that was never stored, fail an assertion, or that
it throws `std::out_of_range`; or that the fuel of a loop was spent. -/

namespace OtaMqtt.Lib.Execution

inductive Fault where
  | outOfBounds
  | nullPointer
  | intOverflow
  | divisionByZero
  | outOfFuel
  | uninitialised
  | outOfRange
  | assertion
  deriving DecidableEq, Repr

abbrev Run := Except Fault

section
variable {ε α β : Type}

@[simp] theorem ok_bind (value : α) (next : α → Except ε β) :
    (Except.ok value >>= next) = next value := rfl

@[simp] theorem error_bind (reason : ε) (next : α → Except ε β) :
    ((Except.error reason : Except ε α) >>= next) = Except.error reason := rfl

theorem bind_eq_ok (first : Except ε α) (next : α → Except ε β) (result : β) :
    (first >>= next) = Except.ok result ↔
      ∃ value, first = Except.ok value ∧ next value = Except.ok result := by
  cases first with
  | error reason => simp
  | ok value => simp

end

/-- Storing into an `int`: the value is kept when it is representable. -/
def toInt (value : Nat) : Run Nat :=
  if value < 2 ^ 31 then .ok value else .error .intOverflow

theorem toInt_of_lt {value : Nat} (bound : value < 2 ^ 31) : toInt value = .ok value := by
  rw [toInt, if_pos bound]

/-- The value of a `size_t` converted to `int`, with the usual two's-complement wrap. -/
def castInt (value : Nat) : Int := Int.bmod value (2 ^ 32)

theorem castInt_of_lt {value : Nat} (bound : value < 2 ^ 31) : castInt value = value := by
  unfold castInt
  rw [Int.bmod_eq_of_le] <;> omega

/-- Subtraction of `size_t` values, modulo `2 ^ 64`. -/
@[irreducible] def subSize (left right : Nat) : Nat := (left + 2 ^ 64 - right) % 2 ^ 64

theorem subSize_of_le {left right : Nat} (order : right ≤ left) (bound : left < 2 ^ 64) :
    subSize left right = left - right := by
  unfold subSize
  omega

theorem subSize_of_lt {left right : Nat} (order : left < right) (bound : right < 2 ^ 64) :
    subSize left right = left + 2 ^ 64 - right := by
  unfold subSize
  omega

end OtaMqtt.Lib.Execution
