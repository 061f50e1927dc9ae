import Vole.Common.Endian
import Vole.Common.Utf8
import Vole.Model.IoError
import Vole.Model.Session

/-!
# Addresses on the wire

The two ways an address is written: port first (`outbound::address`, for XUDP),
and the one of SOCKS5 (`socks5`), which Trojan and sing-mux share. Decoding
returns how many bytes it used.
-/

namespace Vole

/-- An error that a peer's bytes give. -/
def invalidData (text : String) : IoError := ⟨.invalidData, text⟩

/-- An error that a caller's arguments give. -/
def invalidInput (text : String) : IoError := ⟨.invalidInput, text⟩

/-- `u16::to_be_bytes`. -/
def portBytes (port : UInt16) : Bytes := toBe 2 port.toNat

/-- `u16::from_be_bytes` of the two bytes at this offset. -/
def portAt (bytes : Bytes) (offset : ℕ) : UInt16 := UInt16.ofNat (ofBe ((bytes.drop offset).take 2))

/-- `Ipv4Addr::octets` and `Ipv6Addr::octets`. -/
def IpAddr.wire : IpAddr → Bytes
  | .v4 bits => toBe 4 bits.toNat
  | .v6 bits => toBe 16 bits.toNat

/-- The IPv4 address of the four bytes at this offset. -/
def ipv4At (bytes : Bytes) (offset : ℕ) : IpAddr :=
  .v4 (BitVec.ofNat 32 (ofBe ((bytes.drop offset).take 4)))

/-- The IPv6 address of the sixteen bytes at this offset. -/
def ipv6At (bytes : Bytes) (offset : ℕ) : IpAddr :=
  .v6 (BitVec.ofNat 128 (ofBe ((bytes.drop offset).take 16)))

/-! ## Port first -/

/-- `encode_port_first`. -/
def encodePortFirst (destination : Destination) : Except IoError Bytes :=
  match destination with
  | .ip ⟨.v4 bits, port⟩ => .ok (portBytes port ++ 1 :: (IpAddr.v4 bits).wire)
  | .ip ⟨.v6 bits, port⟩ => .ok (portBytes port ++ 3 :: (IpAddr.v6 bits).wire)
  | .domain host port =>
    if 255 < host.length then .error (invalidInput "proxy domain is too long")
    else .ok (portBytes port ++ 2 :: UInt8.ofNat host.length :: host)

/-- The address after a port, by its kind. -/
def decodePortFirstKind (port : UInt16) (kind : UInt8) (input : Bytes) :
    Except IoError (Destination × ℕ) :=
  if kind = 1 then
    if input.length < 7 then .error (invalidData "truncated IPv4 destination")
    else .ok (.ip ⟨ipv4At input 3, port⟩, 7)
  else if kind = 2 then
    match input[3]? with
    | none => .error (invalidData "truncated domain destination")
    | some length =>
      if input.length < 4 + length.toNat then .error (invalidData "truncated domain destination")
      else
        let host := (input.drop 4).take length.toNat
        if !Utf8.isUtf8 host then .error (invalidData "non-UTF-8 domain")
        else
          match Destination.ofDomain host port with
          | none => .error (invalidInput "invalid domain destination")
          | some destination => .ok (destination, 4 + length.toNat)
  else if kind = 3 then
    if input.length < 19 then .error (invalidData "truncated IPv6 destination")
    else .ok (.ip ⟨ipv6At input 3, port⟩, 19)
  else .error (invalidData "unknown XUDP address type")

/-- `decode_port_first`. -/
def decodePortFirst (input : Bytes) : Except IoError (Destination × ℕ) :=
  match input[2]? with
  | none => .error (invalidData "truncated XUDP destination")
  | some kind =>
    let port := portAt input 0
    if port = 0 then .error (invalidData "proxy destination port is zero")
    else decodePortFirstKind port kind input

/-! ## SOCKS5 -/

/-- `socks5::Socks5CodecError`. -/
inductive Socks5CodecError where
  | truncated
  | nonZeroReserved
  | fragmented
  | unsupportedAddress
  | invalidDomain
  | zeroPort
  | oversize
  deriving DecidableEq, Repr

/-- `socks5::encode_address`. -/
def encodeAddress (destination : Destination) : Except IoError Bytes :=
  match destination with
  | .ip ⟨.v4 bits, port⟩ => .ok (1 :: (IpAddr.v4 bits).wire ++ portBytes port)
  | .ip ⟨.v6 bits, port⟩ => .ok (4 :: (IpAddr.v6 bits).wire ++ portBytes port)
  | .domain host port =>
    if 255 < host.length then .error (invalidInput "SOCKS5 domain is too long")
    else if host = [] then .error (invalidInput "empty SOCKS5 domain")
    else .ok (3 :: UInt8.ofNat host.length :: host ++ portBytes port)

/-- An IP address of so many bytes, for `decode_address`. -/
def decodeIp (size : ℕ) (ipAt : Bytes → ℕ → IpAddr) (packet : Bytes) :
    Except Socks5CodecError (Destination × ℕ) :=
  if packet.length < 1 + size + 2 then .error .truncated
  else if portAt packet (1 + size) = 0 then .error .zeroPort
  else .ok (.ip ⟨ipAt packet 1, portAt packet (1 + size)⟩, 1 + size + 2)

/-- The checks of a domain, for `decode_address`. -/
def checkDomain (domain : Bytes) (port : UInt16) (size : ℕ) :
    Except Socks5CodecError (Destination × ℕ) :=
  if !Utf8.isUtf8 domain then .error .invalidDomain
  else if port = 0 then .error .zeroPort
  else
    match Destination.ofDomain domain port with
    | none => .error .invalidDomain
    | some destination => .ok (destination, size)

/-- A domain of this length, for `decode_address`. -/
def decodeDomain (length : ℕ) (packet : Bytes) : Except Socks5CodecError (Destination × ℕ) :=
  if length = 0 then .error .invalidDomain
  else if packet.length < length + 4 then .error .truncated
  else checkDomain ((packet.drop 2).take length) (portAt packet (2 + length)) (length + 4)

/-- An address of this kind. -/
def decodeKind (kind : UInt8) (packet : Bytes) : Except Socks5CodecError (Destination × ℕ) :=
  if kind = 1 then decodeIp 4 ipv4At packet
  else if kind = 4 then decodeIp 16 ipv6At packet
  else if kind = 3 then
    match packet[1]? with
    | none => .error .truncated
    | some length => decodeDomain length.toNat packet
  else .error .unsupportedAddress

/-- `socks5::decode_address`. -/
def decodeAddress (packet : Bytes) : Except Socks5CodecError (Destination × ℕ) :=
  match packet[0]? with
  | none => .error .truncated
  | some kind => decodeKind kind packet

end Vole
