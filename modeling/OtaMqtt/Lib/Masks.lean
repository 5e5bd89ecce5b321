import Mathlib.Tactic

/-! Leading-ones masks over bit vectors of any width.

`leading w len` selects the first `len` bits. A value is split into the part under the mask
and the part under its complement; both parts are below the value in the bitwise order, and so
in the order of numbers too. -/

namespace OtaMqtt.Lib.Masks

section
variable {w : Nat}

def leading (w len : Nat) : BitVec w := BitVec.allOnes w <<< (w - len)

/-- The values agree on their first `len` bits. -/
def Agree (len : Nat) (left right : BitVec w) : Prop :=
  ∀ bit < len, left.getMsbD bit = right.getMsbD bit

theorem getLsbD_leading (len : Nat) {bit : Nat} (bound : bit < w) :
    (leading w len).getLsbD bit = !decide (bit < w - len) := by
  have inside : bit - (w - len) < w := by omega
  simp only [leading, BitVec.getLsbD_shiftLeft, BitVec.getLsbD_allOnes, bound, inside, decide_true,
    Bool.true_and, Bool.and_true]

theorem not_leading (len : Nat) : ~~~leading w len = BitVec.ofNat w (2 ^ (w - len) - 1) := by
  apply BitVec.eq_of_getLsbD_eq
  intro bit bound
  rw [BitVec.getLsbD_not, getLsbD_leading len bound, BitVec.getLsbD_ofNat,
    Nat.testBit_two_pow_sub_one, Bool.not_not]

theorem and_le (value mask : BitVec w) : value &&& mask ≤ value := by
  rw [BitVec.le_def, BitVec.toNat_and]
  exact Nat.and_le_left

theorem le_or (value mask : BitVec w) : value ≤ value ||| mask := by
  rw [BitVec.le_def, BitVec.toNat_or]
  exact Nat.left_le_or

theorem and_not_eq_and_iff (value mask : BitVec w) :
    value &&& ~~~mask = value &&& mask ↔ value = 0 := by
  constructor
  · intro equal
    apply BitVec.eq_of_getLsbD_eq
    intro bit bound
    have here := congrArg (fun part => part.getLsbD bit) equal
    simp only [BitVec.getLsbD_and, BitVec.getLsbD_not, bound, decide_true, Bool.true_and] at here
    cases set : value.getLsbD bit with
    | false => simp
    | true => cases masked : mask.getLsbD bit <;> simp [set, masked] at here
  · rintro rfl
    simp

end

end OtaMqtt.Lib.Masks
