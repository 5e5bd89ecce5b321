import OtaMqtt.Bytes.Codec

/-! IPv4 and IPv6 addresses (sherry/address.cc, endian.h).

The fields of a `sockaddr_in` and a `sockaddr_in6` are in network order. `SYLAR_BYTE_ORDER` is never
`SYLAR_BIG_ENDIAN`, since the branch for such hosts defines another name, so
`byteswapOnLittleEndian` always swaps. -/

namespace OtaMqtt.Net.Address

open OtaMqtt.Lib.Execution OtaMqtt.Bytes.Codec

def byteswapOnLittleEndian (count : Nat) (value : BitVec (8 * count)) : BitVec (8 * count) :=
  byteswap count value

/-- `CreateMask<T>` for a `T` of `count` bytes. The shifted `1` is an `int`: past its width the
shift is undefined, and from `1 << 31`, which is `INT_MIN`, nothing can be subtracted. -/
def createMask (count : Nat) (bits : BitVec 32) : Run (BitVec (8 * count)) :=
  let shift := subSize (count * 8) bits.toNat
  if shift < 31 then .ok (BitVec.setWidth (8 * count) ((1#32 <<< shift) - 1#32))
  else .error .intOverflow

structure SockaddrIn where
  sinFamily : BitVec 16
  sinPort : BitVec 16
  sAddr : BitVec 32
  sinZero : BitVec 64
  deriving DecidableEq

def afInet : BitVec 16 := 2

structure IPv4Address where
  addr : SockaddrIn
  deriving DecidableEq

namespace IPv4Address

/-- `IPv4Address(uint32_t address, uint32_t port)`: the port is swapped as a `uint32_t`, and
`sin_port` keeps the low half. -/
def ofAddress (address port : BitVec 32) : IPv4Address :=
  { addr :=
      { sinFamily := afInet
        sinPort := BitVec.setWidth 16 (byteswapOnLittleEndian 4 port)
        sAddr := byteswapOnLittleEndian 4 address
        sinZero := 0 } }

/-- `IPv4Address::Create`; `inetPton` gives the address in network order. -/
def create (inetPton : String → Option (BitVec 32)) (address : String) (port : BitVec 32) :
    Option IPv4Address :=
  let rt := ofAddress 0 0
  (inetPton address).map fun sAddr =>
    { addr := { rt.addr with
        sinPort := BitVec.setWidth 16 (byteswapOnLittleEndian 4 port)
        sAddr := sAddr } }

def getPort (address : IPv4Address) : BitVec 32 :=
  BitVec.setWidth 32 (byteswapOnLittleEndian 2 address.addr.sinPort)

def setPort (address : IPv4Address) (v : BitVec 16) : IPv4Address :=
  ⟨{ address.addr with sinPort := byteswapOnLittleEndian 2 v }⟩

/-- The address that `insert` prints. -/
def host (address : IPv4Address) : BitVec 32 := byteswapOnLittleEndian 4 address.addr.sAddr

def broadcastAddress (address : IPv4Address) (prefixLen : BitVec 32) : Run (Option IPv4Address) := do
  if 32 < prefixLen.toNat then .ok none
  else
    let mask ← createMask 4 prefixLen
    let baddr := { address.addr with sAddr := address.addr.sAddr ||| byteswapOnLittleEndian 4 mask }
    .ok (some ⟨baddr⟩)

def networkAddress (address : IPv4Address) (prefixLen : BitVec 32) : Run (Option IPv4Address) := do
  if 32 < prefixLen.toNat then .ok none
  else
    let mask ← createMask 4 prefixLen
    let baddr := { address.addr with sAddr := address.addr.sAddr &&& byteswapOnLittleEndian 4 mask }
    .ok (some ⟨baddr⟩)

/-- The object's own address is not looked at, and the length is not checked. -/
def subnetMask (_ : IPv4Address) (prefixLen : BitVec 32) : Run (Option IPv4Address) := do
  let mask ← createMask 4 prefixLen
  let subnet : SockaddrIn :=
    { sinFamily := afInet, sinPort := 0, sAddr := ~~~byteswapOnLittleEndian 4 mask, sinZero := 0 }
  .ok (some ⟨subnet⟩)

end IPv4Address

/-- `s6_addr`: sixteen octets, the first one the most significant. -/
structure In6Addr where
  octets : List UInt8
  size : octets.length = 16
  deriving DecidableEq

namespace In6Addr

def zero : In6Addr := ⟨List.replicate 16 0, List.length_replicate⟩

def modify (addr : In6Addr) (index : Nat) (change : UInt8 → UInt8) : Run In6Addr :=
  if index < 16 then .ok ⟨addr.octets.modify index change, (List.length_modify ..).trans addr.size⟩
  else .error .outOfBounds

/-- A loop that stores `value` into `count` octets from `index` on. -/
def store (addr : In6Addr) (value : UInt8) (index : Nat) : Nat → Run In6Addr
  | 0 => .ok addr
  | count + 1 => do
      let addr ← addr.modify index fun _ => value
      addr.store value (index + 1) count

/-- `addr[index]`, where `addr` points to the octets as `uint16_t`s. -/
def word (addr : In6Addr) (index : Nat) : BitVec 16 :=
  ofImage 2 ((addr.octets.drop (2 * index)).take 2)

/-- A turn of the loop of `insert`: the text so far, and `used_zeros`. -/
def insertWord (addr : In6Addr) (state : List Char × Bool) (index : Nat) : List Char × Bool :=
  if addr.word index = 0 ∧ state.2 = false then state
  else
    let closes := index ≠ 0 ∧ addr.word (index - 1) = 0 ∧ state.2 = false
    let colon := if closes then [':'] else []
    let delimiter := if index ≠ 0 then [':'] else []
    (state.1 ++ colon ++ delimiter ++
      Nat.toDigits 16 (byteswapOnLittleEndian 2 (addr.word index)).toNat, state.2 || closes)

end In6Addr

structure SockaddrIn6 where
  sin6Family : BitVec 16
  sin6Port : BitVec 16
  sin6Flowinfo : BitVec 32
  sin6Addr : In6Addr
  sin6ScopeId : BitVec 32
  deriving DecidableEq

def afInet6 : BitVec 16 := 10

structure IPv6Address where
  addr : SockaddrIn6
  deriving DecidableEq

namespace IPv6Address

/-- `IPv6Address()`. -/
def unspecified : IPv6Address := ⟨⟨afInet6, 0, 0, .zero, 0⟩⟩

/-- `IPv6Address(const uint8_t address[16], uint32_t port)`. -/
def ofOctets (address : In6Addr) (port : BitVec 32) : IPv6Address :=
  { addr :=
      { sin6Family := afInet6
        sin6Port := BitVec.setWidth 16 (byteswapOnLittleEndian 4 port)
        sin6Flowinfo := 0
        sin6Addr := address
        sin6ScopeId := 0 } }

def create (inetPton : String → Option In6Addr) (address : String) (port : BitVec 32) :
    Option IPv6Address :=
  (inetPton address).map fun octets =>
    { addr := { unspecified.addr with
        sin6Port := BitVec.setWidth 16 (byteswapOnLittleEndian 4 port)
        sin6Addr := octets } }

def getPort (address : IPv6Address) : BitVec 32 :=
  BitVec.setWidth 32 (byteswapOnLittleEndian 2 address.addr.sin6Port)

def setPort (address : IPv6Address) (v : BitVec 16) : IPv6Address :=
  ⟨{ address.addr with sin6Port := byteswapOnLittleEndian 2 v }⟩

def host (address : IPv6Address) : BitVec 128 := ofImage 16 address.addr.sin6Addr.octets.reverse

def insert (address : IPv6Address) : List Char :=
  let addr := address.addr.sin6Addr
  let (text, usedZeros) := (List.range 8).foldl addr.insertWord ([], false)
  let text := if usedZeros = false ∧ addr.word 7 = 0 then text ++ [':', ':'] else text
  '[' :: text ++ ']' :: ':' :: Nat.toDigits 10 (byteswapOnLittleEndian 2 address.addr.sin6Port).toNat

def broadcastAddress (address : IPv6Address) (prefixLen : BitVec 32) : Run IPv6Address := do
  let index := prefixLen.toNat / 8
  let mask ← createMask 1 (prefixLen % 8)
  let octets ← address.addr.sin6Addr.modify index (· ||| UInt8.ofBitVec mask)
  let octets ← octets.store 0xff (index + 1) (16 - (index + 1))
  .ok ⟨{ address.addr with sin6Addr := octets }⟩

def networkAddress (address : IPv6Address) (prefixLen : BitVec 32) : Run IPv6Address := do
  let index := prefixLen.toNat / 8
  let mask ← createMask 1 (prefixLen % 8)
  let octets ← address.addr.sin6Addr.modify index (· &&& UInt8.ofBitVec mask)
  .ok ⟨{ address.addr with sin6Addr := octets }⟩

/-- The object's own address is copied and then cleared. -/
def subnetMask (_ : IPv6Address) (prefixLen : BitVec 32) : Run IPv6Address := do
  let index := prefixLen.toNat / 8
  let mask ← createMask 1 (prefixLen % 8)
  let octets ← In6Addr.zero.modify index fun _ => ~~~UInt8.ofBitVec mask
  let octets ← octets.store 0xff 0 index
  .ok ⟨⟨afInet6, 0, 0, octets, 0⟩⟩

end IPv6Address

end OtaMqtt.Net.Address
