import OtaMqtt.Net.Subnets

/-! The subnet arithmetic of `IPv6Address`, octet by octet.

The octet in which the prefix ends is handled apart from the octets before it and behind it. A
prefix of the whole length ends in no octet: the index is then sixteen. -/

namespace OtaMqtt.Net.Subnets6

open OtaMqtt.Lib.Execution OtaMqtt.Lib.Masks OtaMqtt.Bytes.Codec OtaMqtt.Bytes.Swaps
open OtaMqtt.Net.Address OtaMqtt.Net.Address.IPv6Address OtaMqtt.Net.Subnets

def octetBit (index bit : Nat) : Nat := 8 * (15 - index) + bit

theorem eq_iff_octets (left right : BitVec 128) :
    left = right ↔ ∀ index < 16, ∀ bit < 8,
      left.getLsbD (octetBit index bit) = right.getLsbD (octetBit index bit) := by
  constructor
  · intro same index _ bit _
    rw [same]
  · intro same
    apply BitVec.eq_of_getLsbD_eq
    intro place bound
    have here := same (15 - place / 8) (by omega) (place % 8) (by omega)
    have split : octetBit (15 - place / 8) (place % 8) = place := by
      unfold octetBit
      omega
    rwa [split] at here

theorem ofImage_octet (octets : List UInt8) (size : octets.length = 16) {index bit : Nat}
    (inside : index < 16) (small : bit < 8) :
    (ofImage 16 octets.reverse).getLsbD (octetBit index bit) =
      (octets.getD index 0).toNat.testBit bit := by
  have bound : octetBit index bit < 8 * 16 := by
    unfold octetBit
    omega
  have place : octetBit index bit / 8 = 15 - index := by
    unfold octetBit
    omega
  have rest : octetBit index bit % 8 = bit := by
    unfold octetBit
    omega
  have back : octets.length - 1 - (15 - index) = index := by omega
  rw [getLsbD_ofImage _ bound, place, rest, List.getD_eq_getElem?_getD,
    List.getElem?_reverse (by omega), back, List.getD_eq_getElem?_getD]

theorem leading_octet (len : Nat) {index bit : Nat} (inside : index < 16) (small : bit < 8) :
    (leading 128 len).getLsbD (octetBit index bit) = decide (8 * index + (7 - bit) < len) := by
  rw [getLsbD_leading len (by unfold octetBit; omega), ← decide_not]
  unfold octetBit
  rw [decide_eq_decide]
  omega

theorem testBit_not (byte : UInt8) {bit : Nat} (small : bit < 8) :
    (~~~byte).toNat.testBit bit = !byte.toNat.testBit bit := by
  have flipped := @BitVec.getLsbD_not 8 bit byte.toBitVec
  rwa [decide_eq_true small, Bool.true_and] at flipped

theorem testBit_full {bit : Nat} (small : bit < 8) : (0xff : UInt8).toNat.testBit bit = true := by
  rw [show (0xff : UInt8).toNat = 2 ^ 8 - 1 from rfl, Nat.testBit_two_pow_sub_one]
  exact decide_eq_true small

section
variable (prefixLen : BitVec 32)

def hostMask : UInt8 := UInt8.ofNat (2 ^ (8 - prefixLen.toNat % 8) - 1)

theorem createMask_octet :
    ∃ mask, createMask 1 (prefixLen % 8) = .ok mask ∧ UInt8.ofBitVec mask = hostMask prefixLen := by
  have rest : (prefixLen % 8).toNat = prefixLen.toNat % 8 := by
    rw [BitVec.toNat_umod]
    rfl
  have shift : subSize (1 * 8) (prefixLen % 8).toNat = 8 - prefixLen.toNat % 8 := by
    rw [rest]
    exact subSize_of_le (by omega) (by norm_num)
  have defined : 8 - prefixLen.toNat % 8 < 31 := by omega
  have small : 2 ^ (8 - prefixLen.toNat % 8) ≤ 2 ^ 8 := Nat.pow_le_pow_right (by decide) (by omega)
  rw [createMask, shift, if_pos defined, one_shiftLeft_sub_one defined]
  refine ⟨_, rfl, ?_⟩
  apply UInt8.toNat_inj.mp
  rw [UInt8.toNat_ofBitVec, BitVec.toNat_setWidth, BitVec.toNat_ofNat, hostMask, UInt8.toNat_ofNat']
  omega

theorem hostMask_testBit (bit : Nat) :
    (hostMask prefixLen).toNat.testBit bit = decide (bit < 8 - prefixLen.toNat % 8) := by
  have low : 2 ^ (8 - prefixLen.toNat % 8) ≤ 2 ^ 8 := Nat.pow_le_pow_right (by decide) (by omega)
  rw [hostMask, UInt8.toNat_ofNat', Nat.mod_eq_of_lt (by omega), Nat.testBit_two_pow_sub_one]

end

section
variable (addr : In6Addr)

def octet (index : Nat) : UInt8 := addr.octets.getD index 0

theorem octet_zero (index : Nat) : octet .zero index = 0 := by
  rw [octet, In6Addr.zero, List.getD_eq_getElem?_getD, List.getElem?_replicate]
  split
  · rfl
  · rfl

theorem modify_spec (change : UInt8 → UInt8) {index : Nat} (inside : index < 16) :
    ∃ next, addr.modify index change = .ok next ∧
      ∀ other, octet next other = if other = index then change (octet addr other) else octet addr other := by
  rw [In6Addr.modify, if_pos inside]
  refine ⟨_, rfl, fun other => ?_⟩
  have size := addr.size
  simp only [octet, List.getD_eq_getElem?_getD]
  by_cases same : other = index
  · subst same
    rw [if_pos rfl, List.getElem?_modify_eq, List.getElem?_eq_getElem (by omega)]
    rfl
  · rw [if_neg same, List.getElem?_modify_ne _ _ (Ne.symm same)]

theorem store_spec (value : UInt8) (count index : Nat) (inside : index + count ≤ 16) :
    ∃ next, addr.store value index count = .ok next ∧
      ∀ other, octet next other =
        if index ≤ other ∧ other < index + count then value else octet addr other := by
  induction count generalizing addr index with
  | zero =>
      refine ⟨addr, rfl, fun other => ?_⟩
      rw [if_neg (by omega)]
  | succ count ih =>
      obtain ⟨first, changed, octets⟩ := modify_spec addr (fun _ => value) (show index < 16 by omega)
      obtain ⟨next, stored, rest⟩ := ih first (index + 1) (by omega)
      refine ⟨next, ?_, fun other => ?_⟩
      · rw [In6Addr.store, changed, ok_bind, stored]
      · rw [rest, octets]
        by_cases here : other = index
        · rw [if_neg (by omega), if_pos here, if_pos (by omega)]
        · rw [if_neg here]
          by_cases later : index + 1 ≤ other ∧ other < index + 1 + count
          · rw [if_pos later, if_pos (by omega)]
          · rw [if_neg later, if_neg (by omega)]

end

/-- The three functions give what their names say; none of them reaches past the last octet. -/
structure Placed (prefixLen : BitVec 32) (here : IPv6Address) : Prop where
  subnet : (here.subnetMask prefixLen).map host = .ok (leading 128 prefixLen.toNat)
  network : (here.networkAddress prefixLen).map host =
    .ok (here.host &&& leading 128 prefixLen.toNat)
  broadcast : (here.broadcastAddress prefixLen).map host =
    .ok (here.host ||| ~~~leading 128 prefixLen.toNat)

def Bare (prefixLen : BitVec 32) (here : IPv6Address) : Prop :=
  ∀ index < 16, prefixLen.toNat / 8 ≤ index → octet here.addr.sin6Addr index = 0

section
variable {prefixLen : BitVec 32} (here : IPv6Address)

theorem host_octet {index bit : Nat} (inside : index < 16) (small : bit < 8) :
    here.host.getLsbD (octetBit index bit) = (octet here.addr.sin6Addr index).toNat.testBit bit :=
  ofImage_octet here.addr.sin6Addr.octets here.addr.sin6Addr.size inside small

theorem subnetMask_host (inside : prefixLen.toNat < 128) :
    (here.subnetMask prefixLen).map host = .ok (leading 128 prefixLen.toNat) := by
  obtain ⟨mask, made, low⟩ := createMask_octet prefixLen
  obtain ⟨ended, changed, octets⟩ := modify_spec .zero (fun _ => ~~~UInt8.ofBitVec mask)
    (show prefixLen.toNat / 8 < 16 by omega)
  obtain ⟨whole, stored, rest⟩ := store_spec ended 0xff (prefixLen.toNat / 8) 0 (by omega)
  rw [subnetMask, made, ok_bind, changed, ok_bind, stored, ok_bind, Except.map, Except.ok.injEq]
  apply (eq_iff_octets _ _).mpr
  intro index bound bit small
  rw [host_octet _ bound small, leading_octet _ bound small]
  dsimp only
  rw [rest, octets, low]
  by_cases before : index < prefixLen.toNat / 8
  · rw [if_pos (by omega), testBit_full small, eq_comm, decide_eq_true_iff]
    omega
  · rw [if_neg (by omega)]
    by_cases here : index = prefixLen.toNat / 8
    · rw [if_pos here, testBit_not _ small, hostMask_testBit, ← decide_not, decide_eq_decide]
      omega
    · rw [if_neg here, octet_zero, UInt8.toNat_zero, Nat.zero_testBit, eq_comm]
      apply decide_eq_false
      omega

theorem broadcastAddress_host (inside : prefixLen.toNat < 128) :
    (here.broadcastAddress prefixLen).map host =
      .ok (here.host ||| ~~~leading 128 prefixLen.toNat) := by
  obtain ⟨mask, made, low⟩ := createMask_octet prefixLen
  obtain ⟨ended, changed, octets⟩ := modify_spec here.addr.sin6Addr (· ||| UInt8.ofBitVec mask)
    (show prefixLen.toNat / 8 < 16 by omega)
  obtain ⟨whole, stored, rest⟩ := store_spec ended 0xff (16 - (prefixLen.toNat / 8 + 1))
    (prefixLen.toNat / 8 + 1) (by omega)
  rw [broadcastAddress, made, ok_bind, changed, ok_bind, stored, ok_bind, Except.map, Except.ok.injEq]
  apply (eq_iff_octets _ _).mpr
  intro index bound bit small
  have place : octetBit index bit < 128 := by
    unfold octetBit
    omega
  rw [host_octet _ bound small, BitVec.getLsbD_or, BitVec.getLsbD_not, host_octet _ bound small,
    leading_octet _ bound small, decide_eq_true place, Bool.true_and, ← decide_not]
  dsimp only
  rw [rest, octets, low]
  by_cases behind : prefixLen.toNat / 8 < index
  · rw [if_pos (by omega), testBit_full small, decide_eq_true (by omega), Bool.or_true]
  · rw [if_neg (by omega)]
    by_cases last : index = prefixLen.toNat / 8
    · rw [if_pos last, UInt8.toNat_or, Nat.testBit_or, hostMask_testBit]
      congr 1
      rw [decide_eq_decide]
      omega
    · rw [if_neg last, decide_eq_false (by omega), Bool.or_false]

theorem octet_eq_zero_iff (addr : In6Addr) (index : Nat) :
    octet addr index = 0 ↔ ∀ bit < 8, (octet addr index).toNat.testBit bit = false := by
  constructor
  · intro zero bit _
    rw [zero, UInt8.toNat_zero, Nat.zero_testBit]
  · intro clear
    apply UInt8.toNat_inj.mp
    apply Nat.eq_of_testBit_eq
    intro bit
    rw [UInt8.toNat_zero, Nat.zero_testBit]
    by_cases small : bit < 8
    · exact clear bit small
    · apply Nat.testBit_lt_two_pow
      have value := (octet addr index).toNat_lt
      have power : 2 ^ 8 ≤ 2 ^ bit := Nat.pow_le_pow_right (by decide) (by omega)
      omega

theorem kept_bit_iff (octet : UInt8) {index bit : Nat} (small : bit < 8) :
    (if index = prefixLen.toNat / 8 then octet &&& hostMask prefixLen else octet).toNat.testBit bit =
        (octet.toNat.testBit bit && decide (8 * index + (7 - bit) < prefixLen.toNat)) ↔
      (prefixLen.toNat / 8 ≤ index → octet.toNat.testBit bit = false) := by
  by_cases last : index = prefixLen.toNat / 8
  · rw [if_pos last, UInt8.toNat_and, Nat.testBit_and, hostMask_testBit]
    have other : decide (8 * index + (7 - bit) < prefixLen.toNat) =
        !decide (bit < 8 - prefixLen.toNat % 8) := by
      rw [← decide_not, decide_eq_decide]
      omega
    rw [other]
    cases octet.toNat.testBit bit <;>
      cases decide (bit < 8 - prefixLen.toNat % 8) <;> simp [last]
  · rw [if_neg last]
    by_cases before : index < prefixLen.toNat / 8
    · rw [decide_eq_true (by omega), Bool.and_true]
      exact ⟨fun _ after => absurd after (by omega), fun _ => rfl⟩
    · rw [decide_eq_false (by omega), Bool.and_false]
      exact ⟨fun clear _ => clear, fun clear => clear (by omega)⟩

theorem networkAddress_host_iff (inside : prefixLen.toNat < 128) :
    (here.networkAddress prefixLen).map host = .ok (here.host &&& leading 128 prefixLen.toNat) ↔
      Bare prefixLen here := by
  obtain ⟨mask, made, low⟩ := createMask_octet prefixLen
  obtain ⟨ended, changed, octets⟩ := modify_spec here.addr.sin6Addr (· &&& UInt8.ofBitVec mask)
    (show prefixLen.toNat / 8 < 16 by omega)
  rw [networkAddress, made, ok_bind, changed, ok_bind, Except.map, Except.ok.injEq, eq_iff_octets]
  apply forall₂_congr
  intro index bound
  calc
    _ ↔ ∀ bit < 8, prefixLen.toNat / 8 ≤ index →
        (octet here.addr.sin6Addr index).toNat.testBit bit = false := by
      apply forall₂_congr
      intro bit small
      rw [host_octet _ bound small, BitVec.getLsbD_and, host_octet _ bound small,
        leading_octet _ bound small, ← kept_bit_iff _ small, ← low, ← octets]
    _ ↔ (prefixLen.toNat / 8 ≤ index → octet here.addr.sin6Addr index = 0) := by
      rw [octet_eq_zero_iff]
      exact ⟨fun clear after bit small => clear bit small after,
        fun clear bit small after => clear after bit small⟩

theorem subnetMask_outside (whole : 128 ≤ prefixLen.toNat) :
    here.subnetMask prefixLen = .error .outOfBounds := by
  obtain ⟨mask, made, -⟩ := createMask_octet prefixLen
  rw [subnetMask, made, ok_bind, In6Addr.modify, if_neg (by omega), error_bind]

end

/-- The three functions are right exactly while the prefix ends in an octet, and no bit is set in
that octet and behind it. -/
theorem placed_iff_bare (prefixLen : BitVec 32) (here : IPv6Address) (high : prefixLen.toNat ≤ 128) :
    Placed prefixLen here ↔ prefixLen.toNat < 128 ∧ Bare prefixLen here := by
  constructor
  · intro placed
    have inside : prefixLen.toNat < 128 := by
      by_contra whole
      have subnet := placed.subnet
      rw [subnetMask_outside here (by omega)] at subnet
      cases subnet
    exact ⟨inside, (networkAddress_host_iff here inside).mp placed.network⟩
  · rintro ⟨inside, bare⟩
    exact ⟨subnetMask_host here inside, (networkAddress_host_iff here inside).mpr bare,
      broadcastAddress_host here inside⟩

/-- 2001:db8:: -/
def documentation : IPv6Address :=
  .ofOctets ⟨[0x20, 0x01, 0x0d, 0xb8, 0, 0, 0, 0, 0, 0, 0, 0, 0, 0, 0, 0], rfl⟩ 0

theorem documentation_placed : Placed 32#32 documentation :=
  (placed_iff_bare 32#32 documentation (by decide)).mpr ⟨by decide, by
    unfold Bare
    decide⟩

/-- fe80::1 -/
def linkLocal : IPv6Address :=
  .ofOctets ⟨[0xfe, 0x80, 0, 0, 0, 0, 0, 0, 0, 0, 0, 0, 0, 0, 0, 1], rfl⟩ 0

/-- The network of fe80::1/64 is fe80::1. -/
theorem network_keeps_interface :
    linkLocal.networkAddress 64#32 = .ok linkLocal ∧ ¬Placed 64#32 linkLocal := by
  constructor
  · decide +kernel
  · intro placed
    have bare := (networkAddress_host_iff linkLocal (by decide)).mp placed.network 15 (by decide)
      (by decide)
    revert bare
    decide

end OtaMqtt.Net.Subnets6
