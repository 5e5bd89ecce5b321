import OtaMqtt.Bytes.Swaps
import OtaMqtt.Lib.Masks
import OtaMqtt.Net.Address

/-! The subnet arithmetic of `IPv4Address`, in host order.

`CreateMask` makes the mask of the host bits. `subnetMask` complements it and
`broadcastAddress` sets its bits, as they should; `networkAddress` keeps its bits, where it
should clear them. -/

namespace OtaMqtt.Net.Subnets

open OtaMqtt.Lib.Execution OtaMqtt.Lib.Masks
open OtaMqtt.Bytes.Codec OtaMqtt.Bytes.RoundTrip OtaMqtt.Bytes.Swaps
open OtaMqtt.Net.Address OtaMqtt.Net.Address.IPv4Address

section
variable {prefixLen : BitVec 32}

theorem one_shiftLeft_sub_one {shift : Nat} (bound : shift < 31) :
    (1#32 <<< shift) - 1#32 = BitVec.ofNat 32 (2 ^ shift - 1) := by
  have positive : 0 < 2 ^ shift := Nat.two_pow_pos shift
  have small : 2 ^ shift < 2 ^ 31 := Nat.pow_lt_pow_right (by decide) bound
  apply BitVec.eq_of_toNat_eq
  rw [BitVec.toNat_sub, BitVec.toNat_shiftLeft, BitVec.toNat_ofNat, BitVec.toNat_ofNat,
    Nat.shiftLeft_eq]
  omega

theorem createMask_eq (low : 2 ≤ prefixLen.toNat) (high : prefixLen.toNat ≤ 32) :
    createMask 4 prefixLen = .ok (~~~leading 32 prefixLen.toNat) := by
  have shift : subSize (4 * 8) prefixLen.toNat = 32 - prefixLen.toNat :=
    subSize_of_le high (by norm_num)
  have defined : 32 - prefixLen.toNat < 31 := by omega
  rw [createMask, shift, if_pos defined, one_shiftLeft_sub_one defined, not_leading]
  rfl

theorem createMask_undefined (low : prefixLen.toNat < 2) :
    createMask 4 prefixLen = .error .intOverflow := by
  have shift : subSize (4 * 8) prefixLen.toNat = 32 - prefixLen.toNat :=
    subSize_of_le (by omega) (by norm_num)
  rw [createMask, shift, if_neg (by omega)]

end

theorem host_ofAddress (address port : BitVec 32) : (ofAddress address port).host = address :=
  byteswap_byteswap 4 address

/-- The object with its bits under the host-order `mask` kept. -/
def kept (address : IPv4Address) (mask : BitVec 32) : IPv4Address :=
  ⟨{ address.addr with sAddr := address.addr.sAddr &&& byteswapOnLittleEndian 4 mask }⟩

/-- The object with its bits under the host-order `mask` set. -/
def filled (address : IPv4Address) (mask : BitVec 32) : IPv4Address :=
  ⟨{ address.addr with sAddr := address.addr.sAddr ||| byteswapOnLittleEndian 4 mask }⟩

@[simp] theorem host_kept (address : IPv4Address) (mask : BitVec 32) :
    (kept address mask).host = address.host &&& mask := by
  simp only [host, kept, byteswapOnLittleEndian]
  rw [@byteswap_and 4, byteswap_byteswap 4]

@[simp] theorem host_filled (address : IPv4Address) (mask : BitVec 32) :
    (filled address mask).host = address.host ||| mask := by
  simp only [host, filled, byteswapOnLittleEndian]
  rw [@byteswap_or 4, byteswap_byteswap 4]

theorem kept_kept (address : IPv4Address) (mask : BitVec 32) :
    kept (kept address mask) mask = kept address mask := by
  simp only [kept, BitVec.and_assoc, BitVec.and_self]

/-- What a call returns, as `insert` would print it. -/
def printed (outcome : Run (Option IPv4Address)) : Run (Option (BitVec 32)) :=
  outcome.map fun address => address.map host

section
variable {prefixLen : BitVec 32} (address : IPv4Address)

theorem networkAddress_eq (low : 2 ≤ prefixLen.toNat) (high : prefixLen.toNat ≤ 32) :
    address.networkAddress prefixLen =
      .ok (some (kept address (~~~leading 32 prefixLen.toNat))) := by
  rw [networkAddress, if_neg (by omega), createMask_eq low high]
  rfl

theorem broadcastAddress_eq (low : 2 ≤ prefixLen.toNat) (high : prefixLen.toNat ≤ 32) :
    address.broadcastAddress prefixLen =
      .ok (some (filled address (~~~leading 32 prefixLen.toNat))) := by
  rw [broadcastAddress, if_neg (by omega), createMask_eq low high]
  rfl

theorem subnetMask_printed (low : 2 ≤ prefixLen.toNat) (high : prefixLen.toNat ≤ 32) :
    printed (address.subnetMask prefixLen) = .ok (some (leading 32 prefixLen.toNat)) := by
  rw [subnetMask, createMask_eq low high]
  simp only [ok_bind, printed, Except.map, Option.map_some, host, byteswapOnLittleEndian]
  rw [@byteswap_not 4, byteswap_byteswap 4, BitVec.not_not]

theorem subnetMask_undefined (low : prefixLen.toNat < 2) :
    address.subnetMask prefixLen = .error .intOverflow := by
  rw [subnetMask, createMask_undefined low, error_bind]

end

/-- One address and its subnet: the three functions give what their names say, the network of
the network is itself, and the address lies between its network and its broadcast address. -/
structure Placed (prefixLen : BitVec 32) (here : IPv4Address) : Prop where
  subnet : printed (here.subnetMask prefixLen) = .ok (some (leading 32 prefixLen.toNat))
  network : printed (here.networkAddress prefixLen) =
    .ok (some (here.host &&& leading 32 prefixLen.toNat))
  broadcast : printed (here.broadcastAddress prefixLen) =
    .ok (some (here.host ||| ~~~leading 32 prefixLen.toNat))
  idempotent : ∀ network, here.networkAddress prefixLen = .ok (some network) →
    network.networkAddress prefixLen = .ok (some network)
  above : ∀ network, here.networkAddress prefixLen = .ok (some network) → network.host ≤ here.host
  below : ∀ broadcast, here.broadcastAddress prefixLen = .ok (some broadcast) →
    here.host ≤ broadcast.host

/-- Two addresses: they are in one network when they agree on the bits of the prefix. -/
structure Coherent (prefixLen : BitVec 32) (here there : IPv4Address) : Prop where
  left : Placed prefixLen here
  right : Placed prefixLen there
  told : printed (here.networkAddress prefixLen) = printed (there.networkAddress prefixLen) ↔
    Agree prefixLen.toNat here.host there.host

section
variable {prefixLen : BitVec 32} {here there : IPv4Address}

theorem network_printed_iff (low : 2 ≤ prefixLen.toNat) (high : prefixLen.toNat ≤ 32) :
    printed (here.networkAddress prefixLen) =
      .ok (some (here.host &&& leading 32 prefixLen.toNat)) ↔ here.host = 0 := by
  rw [networkAddress_eq here low high]
  simp only [printed, Except.map, Option.map_some, host_kept, Except.ok.injEq, Option.some.injEq]
  exact and_not_eq_and_iff here.host (leading 32 prefixLen.toNat)

theorem placed_iff (high : prefixLen.toNat ≤ 32) :
    Placed prefixLen here ↔ 2 ≤ prefixLen.toNat ∧ here.host = 0 := by
  constructor
  · intro placed
    have low : 2 ≤ prefixLen.toNat := by
      by_contra less
      have subnet := placed.subnet
      rw [subnetMask_undefined here (by omega)] at subnet
      cases subnet
    exact ⟨low, (network_printed_iff low high).mp placed.network⟩
  · rintro ⟨low, zero⟩
    refine ⟨subnetMask_printed here low high, (network_printed_iff low high).mpr zero, ?_, ?_, ?_, ?_⟩
    · rw [broadcastAddress_eq here low high]
      simp only [printed, Except.map, Option.map_some, host_filled]
    · intro network found
      rw [networkAddress_eq here low high] at found
      cases found
      rw [networkAddress_eq _ low high, kept_kept]
    · intro network found
      rw [networkAddress_eq here low high] at found
      cases found
      rw [host_kept]
      exact and_le _ _
    · intro broadcast found
      rw [broadcastAddress_eq here low high] at found
      cases found
      rw [host_filled]
      exact le_or _ _

end

/-- The mask is defined from the prefix length 2 on, and the bits that `networkAddress` keeps
are those of the network only when there are none. -/
theorem coherent_iff_unspecified (prefixLen : BitVec 32) (here there : IPv4Address)
    (high : prefixLen.toNat ≤ 32) :
    Coherent prefixLen here there ↔ 2 ≤ prefixLen.toNat ∧ here.host = 0 ∧ there.host = 0 := by
  constructor
  · intro coherent
    obtain ⟨low, left⟩ := (placed_iff high).mp coherent.left
    exact ⟨low, left, ((placed_iff high).mp coherent.right).2⟩
  · rintro ⟨low, left, right⟩
    have first := (placed_iff high).mpr ⟨low, left⟩
    have second := (placed_iff high).mpr ⟨low, right⟩
    refine ⟨first, second, ?_⟩
    rw [first.network, second.network, left, right]
    simp only [Agree, implies_true]

theorem unspecified_coherent :
    Coherent 24#32 (ofAddress 0#32 80#32) (ofAddress 0#32 443#32) :=
  (coherent_iff_unspecified 24#32 _ _ (by decide)).mpr
    ⟨by decide, host_ofAddress 0#32 80#32, host_ofAddress 0#32 443#32⟩

/-- The network of 192.168.1.10/24 is 0.0.0.10. -/
theorem network_keeps_host_bits :
    printed ((ofAddress 0xC0A8010A#32 80#32).networkAddress 24#32) = .ok (some 0x0000000A#32) ∧
      ¬Coherent 24#32 (ofAddress 0xC0A8010A#32 80#32) (ofAddress 0xC0A8010A#32 80#32) := by
  have zero : (ofAddress 0xC0A8010A#32 80#32).host ≠ 0 := by
    rw [host_ofAddress]
    decide
  constructor
  · rw [networkAddress_eq _ (by decide) (by decide)]
    simp only [printed, Except.map, Option.map_some, host_kept, host_ofAddress]
    decide
  · intro coherent
    exact zero ((placed_iff (by decide)).mp coherent.left).2

end OtaMqtt.Net.Subnets
