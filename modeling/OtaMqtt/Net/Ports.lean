import OtaMqtt.Bytes.Swaps
import OtaMqtt.Net.Address

/-! The port of an address, by the constructors and by the setter.

The constructors swap the port as a `uint32_t` and keep the low half of the result, where only
the high half of the port arrives. -/

namespace OtaMqtt.Net.Ports

open OtaMqtt.Bytes.Codec OtaMqtt.Bytes.Swaps OtaMqtt.Net.Address

section
variable {Address : Type}

/-- A route to an address takes the port as its getter and its setter understand it. -/
def Kept (getPort : Address → BitVec 32) (setPort : Address → BitVec 16 → Address)
    (route : BitVec 32 → Option Address) (port : BitVec 32) : Prop :=
  ∃ address plain, route port = some address ∧ route 0 = some plain ∧ getPort address = port ∧
    address = setPort plain (BitVec.setWidth 16 port)

theorem kept_iff_zero {getPort : Address → BitVec 32} {setPort : Address → BitVec 16 → Address}
    {route : BitVec 32 → Option Address} {port : BitVec 32} {plain : Address}
    (lost : route port = some plain) (zero : route 0 = some plain) (reads : getPort plain = 0)
    (stays : setPort plain 0 = plain) : Kept getPort setPort route port ↔ port = 0 := by
  constructor
  · rintro ⟨address, plain', made, -, got, -⟩
    rw [lost, Option.some.injEq] at made
    rw [← got, ← made, reads]
  · rintro rfl
    exact ⟨plain, plain, zero, zero, reads, stays.symm⟩

end

/-- The four routes, to an address that is given as such and to one that is given as a text. -/
structure PortsAgree (inetPton : String → Option (BitVec 32)) (inetPton6 : String → Option In6Addr)
    (address : BitVec 32) (text : String) (octets : In6Addr) (text6 : String) (port : BitVec 32) :
    Prop where
  ipv4 : Kept IPv4Address.getPort IPv4Address.setPort
    (fun port => some (IPv4Address.ofAddress address port)) port
  ipv4Text : Kept IPv4Address.getPort IPv4Address.setPort (IPv4Address.create inetPton text) port
  ipv6 : Kept IPv6Address.getPort IPv6Address.setPort
    (fun port => some (IPv6Address.ofOctets octets port)) port
  ipv6Text : Kept IPv6Address.getPort IPv6Address.setPort (IPv6Address.create inetPton6 text6) port

theorem swapped_port (port : BitVec 32) (bound : port.toNat < 2 ^ 16) :
    BitVec.setWidth 16 (byteswapOnLittleEndian 4 port) = 0 := by
  apply BitVec.eq_of_getLsbD_eq
  intro bit small
  have high : 16 ≤ origin 4 bit := by
    unfold origin
    omega
  have swapped := @getLsbD_byteswap 4 port bit (by omega)
  rw [BitVec.getLsbD_setWidth, byteswapOnLittleEndian, swapped, BitVec.getLsbD]
  have clear : port.toNat.testBit (origin 4 bit) = false :=
    Nat.testBit_lt_two_pow (Nat.lt_of_lt_of_le bound (Nat.pow_le_pow_right (by decide) high))
  rw [clear, Bool.and_false]
  exact (BitVec.getLsbD_zero ..).symm

theorem swapped_zero : byteswapOnLittleEndian 2 0 = 0 := by decide

theorem ofAddress_port (address port : BitVec 32) (bound : port.toNat < 2 ^ 16) :
    IPv4Address.ofAddress address port = IPv4Address.ofAddress address 0 := by
  simp only [IPv4Address.ofAddress, swapped_port port bound, swapped_port 0 (by decide)]

theorem create_port (inetPton : String → Option (BitVec 32)) (text : String) (port : BitVec 32)
    (bound : port.toNat < 2 ^ 16) :
    IPv4Address.create inetPton text port = IPv4Address.create inetPton text 0 := by
  simp only [IPv4Address.create, swapped_port port bound, swapped_port 0 (by decide)]

theorem ofOctets_port (octets : In6Addr) (port : BitVec 32) (bound : port.toNat < 2 ^ 16) :
    IPv6Address.ofOctets octets port = IPv6Address.ofOctets octets 0 := by
  simp only [IPv6Address.ofOctets, swapped_port port bound, swapped_port 0 (by decide)]

theorem create6_port (inetPton : String → Option In6Addr) (text : String) (port : BitVec 32)
    (bound : port.toNat < 2 ^ 16) :
    IPv6Address.create inetPton text port = IPv6Address.create inetPton text 0 := by
  simp only [IPv6Address.create, swapped_port port bound, swapped_port 0 (by decide)]

theorem unported (plain : IPv4Address) (zero : plain.addr.sinPort = 0) :
    plain.getPort = 0 ∧ plain.setPort 0 = plain := by
  constructor
  · rw [IPv4Address.getPort, zero, swapped_zero]
    rfl
  · rw [IPv4Address.setPort, swapped_zero, ← zero]

theorem unported6 (plain : IPv6Address) (zero : plain.addr.sin6Port = 0) :
    plain.getPort = 0 ∧ plain.setPort 0 = plain := by
  constructor
  · rw [IPv6Address.getPort, zero, swapped_zero]
    rfl
  · rw [IPv6Address.setPort, swapped_zero, ← zero]

section
variable {port : BitVec 32} (bound : port.toNat < 2 ^ 16)
include bound

theorem kept_ofAddress (address : BitVec 32) :
    Kept IPv4Address.getPort IPv4Address.setPort
      (fun port => some (IPv4Address.ofAddress address port)) port ↔ port = 0 := by
  have plain := unported (IPv4Address.ofAddress address 0) (swapped_port 0 (by decide))
  refine kept_iff_zero ?_ ?_ plain.1 plain.2
  · rw [ofAddress_port address port bound]
  · rfl

theorem kept_create (inetPton : String → Option (BitVec 32)) (text : String) (sAddr : BitVec 32)
    (parsed : inetPton text = some sAddr) :
    Kept IPv4Address.getPort IPv4Address.setPort (IPv4Address.create inetPton text) port ↔
      port = 0 := by
  have made : IPv4Address.create inetPton text 0 = some ⟨{ (IPv4Address.ofAddress 0 0).addr with
      sinPort := 0
      sAddr := sAddr }⟩ := by
    rw [IPv4Address.create, parsed, swapped_port 0 (by decide)]
    rfl
  have plain := unported ⟨{ (IPv4Address.ofAddress 0 0).addr with sinPort := 0, sAddr := sAddr }⟩ rfl
  exact kept_iff_zero ((create_port inetPton text port bound).trans made) made plain.1 plain.2

theorem kept_ofOctets (octets : In6Addr) :
    Kept IPv6Address.getPort IPv6Address.setPort
      (fun port => some (IPv6Address.ofOctets octets port)) port ↔ port = 0 := by
  have plain := unported6 (IPv6Address.ofOctets octets 0) (swapped_port 0 (by decide))
  refine kept_iff_zero ?_ ?_ plain.1 plain.2
  · rw [ofOctets_port octets port bound]
  · rfl

theorem kept_create6 (inetPton : String → Option In6Addr) (text : String) (octets : In6Addr)
    (parsed : inetPton text = some octets) :
    Kept IPv6Address.getPort IPv6Address.setPort (IPv6Address.create inetPton text) port ↔
      port = 0 := by
  have made : IPv6Address.create inetPton text 0 = some (IPv6Address.ofOctets octets 0) := by
    rw [IPv6Address.create, parsed]
    rfl
  have plain := unported6 (IPv6Address.ofOctets octets 0) (swapped_port 0 (by decide))
  exact kept_iff_zero ((create6_port inetPton text port bound).trans made) made plain.1 plain.2

end

/-- The four routes keep port 0, and lose every other port below 65536. -/
theorem ports_agree_iff_zero (inetPton : String → Option (BitVec 32))
    (inetPton6 : String → Option In6Addr) (address : BitVec 32) (text : String) (octets : In6Addr)
    (text6 : String) (port : BitVec 32)
    (parsed : inetPton text = some (byteswapOnLittleEndian 4 address))
    (parsed6 : inetPton6 text6 = some octets) (bound : port.toNat < 2 ^ 16) :
    PortsAgree inetPton inetPton6 address text octets text6 port ↔ port = 0 := by
  constructor
  · intro agree
    exact (kept_ofAddress bound address).mp agree.ipv4
  · intro zero
    refine ⟨?_, ?_, ?_, ?_⟩
    · exact (kept_ofAddress bound address).mpr zero
    · exact (kept_create bound inetPton text _ parsed).mpr zero
    · exact (kept_ofOctets bound octets).mpr zero
    · exact (kept_create6 bound inetPton6 text6 octets parsed6).mpr zero

/-- An `inet_pton` that knows one text. -/
def loopback4 (text : String) : Option (BitVec 32) :=
  if text = "127.0.0.1" then some 0x0100007F#32 else none

def loopback6 (text : String) : Option In6Addr :=
  if text = "::" then some .zero else none

theorem port_zero_agrees :
    PortsAgree loopback4 loopback6 0x7F000001#32 "127.0.0.1" .zero "::" 0#32 :=
  (ports_agree_iff_zero loopback4 loopback6 0x7F000001#32 "127.0.0.1" .zero "::" 0#32
    (by decide +kernel) (by decide +kernel) (by decide)).mpr rfl

/-- The constructor stores nothing of port 8080. -/
theorem port_lost :
    (IPv4Address.ofAddress 0x7F000001#32 8080#32).getPort = 0 ∧
      ¬PortsAgree loopback4 loopback6 0x7F000001#32 "127.0.0.1" .zero "::" 8080#32 := by
  have lost : (IPv4Address.ofAddress 0x7F000001#32 8080#32).getPort = 0 := by decide +kernel
  refine ⟨lost, fun agree => ?_⟩
  obtain ⟨address, plain, made, -, got, -⟩ := agree.ipv4
  rw [← Option.some.inj made, lost] at got
  revert got
  decide

end OtaMqtt.Net.Ports
