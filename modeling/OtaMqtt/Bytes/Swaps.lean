import OtaMqtt.Bytes.RoundTrip

/-! The byte swap, bit by bit: every bit keeps its place in its octet, and the octets change
ends. The bitwise operators act on each bit alone, so the swap passes through them. -/

namespace OtaMqtt.Bytes.Swaps

open OtaMqtt.Bytes.Codec OtaMqtt.Bytes.RoundTrip

theorem number_testBit (bytes : List UInt8) (bit : Nat) :
    (number bytes).testBit bit = (bytes.getD (bit / 8) 0).toNat.testBit (bit % 8) := by
  induction bytes generalizing bit with
  | nil => simp [number]
  | cons byte bytes ih =>
      have small : byte.toNat < 2 ^ 8 := byte.toNat_lt
      rw [number, Nat.add_comm, show 256 = 2 ^ 8 from rfl, Nat.testBit_two_pow_mul_add _ small]
      by_cases first : bit < 8
      · rw [if_pos first, Nat.div_eq_of_lt first, Nat.mod_eq_of_lt first, List.getD_cons_zero]
      · rw [if_neg first, ih, show bit / 8 = (bit - 8) / 8 + 1 by omega,
          show bit % 8 = (bit - 8) % 8 by omega, List.getD_cons_succ]

section
variable {count : Nat}

theorem getLsbD_ofImage (bytes : List UInt8) {bit : Nat} (bound : bit < 8 * count) :
    (ofImage count bytes).getLsbD bit = (bytes.getD (bit / 8) 0).toNat.testBit (bit % 8) := by
  rw [ofImage, BitVec.getLsbD_ofNat, number_testBit]
  simp [bound]

/-- The bit of the value that the swap puts at `bit`. -/
def origin (count bit : Nat) : Nat := 8 * (count - 1 - bit / 8) + bit % 8

theorem origin_lt {bit : Nat} (bound : bit < 8 * count) : origin count bit < 8 * count := by
  unfold origin
  omega

theorem origin_div (bit : Nat) : origin count bit / 8 = count - 1 - bit / 8 := by
  unfold origin
  omega

theorem origin_mod (bit : Nat) : origin count bit % 8 = bit % 8 := by
  unfold origin
  omega

theorem getLsbD_byteswap (value : BitVec (8 * count)) {bit : Nat} (bound : bit < 8 * count) :
    (byteswap count value).getLsbD bit = value.getLsbD (origin count bit) := by
  have inside : bit / 8 < (image count value).length := by
    rw [image_length]
    omega
  have reversed : (image count value).reverse.getD (bit / 8) 0 =
      (image count value).getD (origin count bit / 8) 0 := by
    rw [List.getD_eq_getElem?_getD, List.getElem?_reverse inside, image_length, ← origin_div bit,
      List.getD_eq_getElem?_getD]
  calc (byteswap count value).getLsbD bit
      = ((image count value).getD (origin count bit / 8) 0).toNat.testBit (bit % 8) := by
        rw [byteswap, getLsbD_ofImage _ bound, reversed]
    _ = (ofImage count (image count value)).getLsbD (origin count bit) := by
        rw [getLsbD_ofImage _ (origin_lt bound), origin_mod]
    _ = value.getLsbD (origin count bit) := by rw [ofImage_image]

@[simp] theorem byteswap_and (left right : BitVec (8 * count)) :
    byteswap count (left &&& right) = byteswap count left &&& byteswap count right := by
  apply BitVec.eq_of_getLsbD_eq
  intro bit bound
  simp only [BitVec.getLsbD_and, getLsbD_byteswap _ bound]

@[simp] theorem byteswap_or (left right : BitVec (8 * count)) :
    byteswap count (left ||| right) = byteswap count left ||| byteswap count right := by
  apply BitVec.eq_of_getLsbD_eq
  intro bit bound
  simp only [BitVec.getLsbD_or, getLsbD_byteswap _ bound]

@[simp] theorem byteswap_not (value : BitVec (8 * count)) :
    byteswap count (~~~value) = ~~~byteswap count value := by
  apply BitVec.eq_of_getLsbD_eq
  intro bit bound
  simp only [BitVec.getLsbD_not, getLsbD_byteswap _ bound, bound, origin_lt bound]

end

end OtaMqtt.Bytes.Swaps
