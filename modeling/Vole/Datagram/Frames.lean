import Vole.Common.Outbox
import Vole.Common.PrefixCode
import Vole.Common.Runs
import Vole.Datagram.Model.Address

/-!
# Datagrams as words of a code

UoT, Trojan and sing-mux write a datagram as its address, the length of its
payload, perhaps a separator, and the payload. The addresses differ only in the
bytes that tell their kinds. Either way the datagrams form a prefix code
(`frame_code`), and `decode_address` reads an address back whatever follows it.
-/

namespace Vole.UdpStream

open List Nat IpAddr

/-! ## Numbers and addresses -/

theorem take_toBe {length value : ℕ} (rest : Bytes) :
    (toBe length value ++ rest).take length = toBe length value := by
  rw [take_append_of_le_length (le_of_eq (length_toBe _ _).symm)]
  exact take_of_length_le (le_of_eq (length_toBe _ _))

variable {bytes : Bytes}

/-- A part of the bytes stays where it is. -/
theorem take_drop_more {offset count : ℕ} (h : offset + count ≤ bytes.length) (more : Bytes) :
    ((bytes ++ more).drop offset).take count = (bytes.drop offset).take count := by
  rw [drop_append_of_le_length (by omega), take_append_of_le_length]
  rw [length_drop]
  omega

theorem drop_split (wire : Bytes) (offset count : ℕ) :
    wire.drop offset = (wire.drop offset).take count ++ wire.drop (offset + count) := by
  have hsplit := take_append_drop count (wire.drop offset)
  rw [drop_drop] at hsplit
  exact hsplit.symm

/-- A port is read where it is. -/
theorem portAt_append (before : Bytes) (port : UInt16) (rest : Bytes) :
    portAt (before ++ (portBytes port ++ rest)) before.length = port := by
  unfold portAt portBytes
  rw [drop_left, take_toBe, ofBe_toBe (by exact port.toNat_lt)]
  exact UInt16.ofNat_toNat

theorem ipv4At_append (before : Bytes) (bits : BitVec 32) (rest : Bytes) :
    ipv4At (before ++ ((v4 bits).wire ++ rest)) before.length = .v4 bits := by
  unfold ipv4At wire
  rw [drop_left, take_toBe, ofBe_toBe (by exact bits.isLt), BitVec.ofNat_toNat,
    BitVec.setWidth_eq]

theorem ipv6At_append (before : Bytes) (bits : BitVec 128) (rest : Bytes) :
    ipv6At (before ++ ((v6 bits).wire ++ rest)) before.length = .v6 bits := by
  unfold ipv6At wire
  rw [drop_left, take_toBe, ofBe_toBe (by exact bits.isLt), BitVec.ofNat_toNat,
    BitVec.setWidth_eq]

/-! Bytes are their number written out. -/

variable {item : Bytes}

theorem wire_v4_ofBe (h : item.length = 4) :
    (v4 (BitVec.ofNat 32 (ofBe item))).wire = item := by
  have hlt := ofBe_lt item
  have hback := toBe_ofBe item
  rw [h] at hlt hback
  rw [wire, BitVec.toNat_ofNat, mod_eq_of_lt (show _ < 2 ^ 32 from hlt), hback]

theorem wire_v6_ofBe (h : item.length = 16) :
    (v6 (BitVec.ofNat 128 (ofBe item))).wire = item := by
  have hlt := ofBe_lt item
  have hback := toBe_ofBe item
  rw [h] at hlt hback
  rw [wire, BitVec.toNat_ofNat, mod_eq_of_lt (show _ < 2 ^ 128 from hlt), hback]

theorem portBytes_ofBe (h : item.length = 2) : portBytes (UInt16.ofNat (ofBe item)) = item := by
  have hlt := ofBe_lt item
  have hback := toBe_ofBe item
  rw [h] at hlt hback
  rw [portBytes, UInt16.toNat_ofNat_of_lt' hlt, hback]

variable {offset : ℕ}

theorem length_part {count : ℕ} (h : offset + count ≤ bytes.length) :
    ((bytes.drop offset).take count).length = count := by
  rw [length_take, length_drop]
  omega

/-- The port of these two bytes. -/
theorem portBytes_portAt (h : offset + 2 ≤ bytes.length) :
    portBytes (portAt bytes offset) = (bytes.drop offset).take 2 :=
  portBytes_ofBe (length_part h)

/-! ## Destinations -/

/-- **A destination that can be sent to**: it has a port, and a domain is one that
`Destination::domain` makes. -/
def Sendable : Destination → Prop
  | .ip address => address.port ≠ 0
  | .domain host port => Destination.ofDomain host port = some (.domain host port) ∧
    Utf8.isUtf8 host = true

variable {destination : Destination}

theorem ofDomain_eq_some {host : Bytes} {port : UInt16}
    (h : Destination.ofDomain host port = some destination) :
    destination = .domain host port ∧ host ≠ [] ∧ host.length ≤ 255 ∧ port ≠ 0 := by
  unfold Destination.ofDomain at h
  split_ifs at h with hbad
  refine ⟨(Option.some.inj h).symm, ?_⟩
  simp only [Bool.or_eq_true, List.isEmpty_iff, decide_eq_true_eq, beq_iff_eq, not_or] at hbad
  exact ⟨hbad.1.1.1, not_lt.mp hbad.1.1.2, hbad.1.2⟩

theorem Sendable.port_ne_zero (h : Sendable destination) : destination.port ≠ 0 := by
  cases destination with
  | ip address => exact h
  | domain host port => exact (ofDomain_eq_some h.1).2.2.2

/-- The bytes that tell the kind of an address. -/
structure Kinds where
  ipv4 : UInt8
  ipv6 : UInt8
  name : UInt8
  distinct : ipv4 ≠ ipv6 ∧ ipv4 ≠ name ∧ ipv6 ≠ name

/-- The kinds of SOCKS5. -/
def socksKinds : Kinds := ⟨1, 4, 3, by decide⟩

/-- The kinds of UoT. -/
def uotKinds : Kinds := ⟨0, 1, 2, by decide⟩

def Kinds.of (kinds : Kinds) : Destination → UInt8
  | .ip ⟨.v4 _, _⟩ => kinds.ipv4
  | .ip ⟨.v6 _, _⟩ => kinds.ipv6
  | .domain _ _ => kinds.name

/-- An address without its kind. -/
def bare : Destination → Bytes
  | .ip ⟨ip, port⟩ => ip.wire ++ portBytes port
  | .domain host port => UInt8.ofNat host.length :: (host ++ portBytes port)

/-- **An address on the wire.** -/
def addressForm (kinds : Kinds) (destination : Destination) : Bytes :=
  kinds.of destination :: bare destination

/-- How long an address is. -/
theorem length_addressForm (kinds : Kinds) (destination : Destination) :
    (addressForm kinds destination).length =
      match destination with
      | .ip ⟨.v4 _, _⟩ => 7
      | .ip ⟨.v6 _, _⟩ => 19
      | .domain host _ => host.length + 4 := by
  rcases destination with ⟨_ | _, port⟩ | ⟨host, port⟩ <;>
    simp [addressForm, bare, wire, portBytes]

/-- The kinds of one code tell what those of the other tell. -/
theorem of_eq_of {kinds : Kinds} (other : Kinds) {x y : Destination} (h : kinds.of x = kinds.of y) :
    other.of x = other.of y := by
  obtain ⟨h46, h4n, h6n⟩ := kinds.distinct
  rcases x with ⟨_ | _, _⟩ | ⟨_, _⟩ <;> rcases y with ⟨_ | _, _⟩ | ⟨_, _⟩
  · rfl
  · exact absurd h h46
  · exact absurd h h4n
  · exact absurd h.symm h46
  · rfl
  · exact absurd h h6n
  · exact absurd h.symm h4n
  · exact absurd h.symm h6n
  · rfl

theorem encodeAddress_domain (host : Bytes) (port : UInt16) :
    encodeAddress (.domain host port) =
      if 255 < host.length then .error (invalidInput "SOCKS5 domain is too long")
      else if host = [] then .error (invalidInput "empty SOCKS5 domain")
      else .ok (addressForm socksKinds (.domain host port)) := rfl

theorem encodeAddress_sendable (h : Sendable destination) :
    encodeAddress destination = .ok (addressForm socksKinds destination) := by
  rcases destination with ⟨_ | _, port⟩ | ⟨host, port⟩
  · rfl
  · rfl
  obtain ⟨-, hne, hshort, -⟩ := ofDomain_eq_some h.1
  rw [encodeAddress_domain, if_neg (not_lt.mpr hshort), if_neg hne]

/-! ## Reading an address back -/

variable {ipAt : Bytes → ℕ → IpAddr}

theorem decodeIp_form {size : ℕ} (kind : UInt8) {ip : IpAddr}
    {port : UInt16} (rest : Bytes) (hsize : ip.wire.length = size) (hport : port ≠ 0)
    (hip : ∀ before more, ipAt (before ++ (ip.wire ++ more)) before.length = ip) :
    decodeIp size ipAt (kind :: (bare (.ip ⟨ip, port⟩) ++ rest)) =
      .ok (.ip ⟨ip, port⟩, (kind :: bare (.ip ⟨ip, port⟩)).length) := by
  have hlength : (kind :: bare (.ip ⟨ip, port⟩)).length = 1 + size + 2 := by
    simp only [bare, length_cons, length_append, hsize, portBytes, length_toBe]
    omega
  have hpacket : kind :: (bare (.ip ⟨ip, port⟩) ++ rest) =
      kind :: (ip.wire ++ (portBytes port ++ rest)) := by
    rw [bare, append_assoc]
  have hread : portAt (kind :: (ip.wire ++ (portBytes port ++ rest))) (1 + size) = port := by
    have hread := portAt_append (kind :: ip.wire) port rest
    rwa [length_cons, hsize, add_comm] at hread
  have hlong : ¬ (kind :: (ip.wire ++ (portBytes port ++ rest))).length < 1 + size + 2 := by
    simp only [length_cons, length_append, hsize, portBytes, length_toBe]
    omega
  unfold decodeIp
  rw [hpacket, if_neg hlong, hread, if_neg hport, hlength]
  exact congrArg (fun ip => Except.ok (Destination.ip ⟨ip, port⟩, 1 + size + 2)) (hip [kind] _)

theorem decodeDomain_form (kind length : UInt8) {host : Bytes} {port : UInt16} (rest : Bytes)
    (hdomain : Destination.ofDomain host port = some (.domain host port))
    (hutf8 : Utf8.isUtf8 host = true) :
    decodeDomain host.length (kind :: length :: (host ++ (portBytes port ++ rest))) =
      .ok (.domain host port, host.length + 4) := by
  obtain ⟨-, hne, -, hzero⟩ := ofDomain_eq_some hdomain
  have hpos : 0 < host.length := length_pos_iff.mpr hne
  have hread : portAt (kind :: length :: (host ++ (portBytes port ++ rest))) (2 + host.length) =
      port := by
    have hread := portAt_append (kind :: length :: host) port rest
    rwa [length_cons, length_cons, add_assoc, add_comm] at hread
  have hlong : ¬ (kind :: length :: (host ++ (portBytes port ++ rest))).length <
      host.length + 4 := by
    simp only [length_cons, length_append, portBytes, length_toBe]
    omega
  have hhost : ((kind :: length :: (host ++ (portBytes port ++ rest))).drop 2).take host.length =
      host := take_left
  unfold decodeDomain checkDomain
  rw [if_neg (ne_of_gt hpos), if_neg hlong, hhost, hutf8, hread, if_neg (by decide),
    if_neg hzero, hdomain]

theorem length_wire_v4 (bits : BitVec 32) : (v4 bits).wire.length = 4 := length_toBe _ _

theorem length_wire_v6 (bits : BitVec 128) : (v6 bits).wire.length = 16 := length_toBe _ _

/-- **An address is read back, whatever follows.** -/
theorem decodeAddress_form (h : Sendable destination) (rest : Bytes) :
    decodeAddress (addressForm socksKinds destination ++ rest) =
      .ok (destination, (addressForm socksKinds destination).length) := by
  rcases destination with ⟨bits | bits, port⟩ | ⟨host, port⟩
  · change decodeIp 4 ipv4At (1 :: (bare (.ip ⟨.v4 bits, port⟩) ++ rest)) = _
    exact decodeIp_form 1 rest (length_wire_v4 bits) h fun before => ipv4At_append before bits
  · change decodeKind 4 (4 :: (bare (.ip ⟨.v6 bits, port⟩) ++ rest)) = _
    rw [decodeKind, if_neg (by decide), if_pos rfl]
    exact decodeIp_form 4 rest (length_wire_v6 bits) h fun before => ipv6At_append before bits
  · obtain ⟨hdomain, hutf8⟩ := h
    obtain ⟨-, -, hshort, -⟩ := ofDomain_eq_some hdomain
    have hsize : (UInt8.ofNat host.length).toNat = host.length :=
      UInt8.toNat_ofNat_of_lt' (lt_succ_of_le hshort)
    have hpacket : addressForm socksKinds (.domain host port) ++ rest =
        3 :: UInt8.ofNat host.length :: (host ++ (portBytes port ++ rest)) := by
      simp only [addressForm, bare, cons_append, append_assoc]
      rfl
    rw [hpacket]
    change decodeKind 3 (3 :: UInt8.ofNat host.length :: _) = _
    unfold decodeKind
    change decodeDomain (UInt8.ofNat host.length).toNat _ = _
    rw [hsize, decodeDomain_form 3 _ rest hdomain hutf8, length_addressForm]

/-! ## What is read is an address -/

/-- The bytes before an offset, in two parts. -/
theorem take_cons_add (kind : UInt8) (rest : Bytes) (size : ℕ) :
    (kind :: rest).take (1 + size + 2) =
      kind :: (((kind :: rest).drop 1).take size ++ ((kind :: rest).drop (1 + size)).take 2) := by
  rw [take_add, add_comm 1 size, take_succ_cons, drop_succ_cons]
  rfl

theorem decodeIp_ok {size n : ℕ} {kind : UInt8} {rest : Bytes}
    (hwire : ∀ {bytes offset}, offset + size ≤ bytes.length →
      (ipAt bytes offset).wire = (bytes.drop offset).take size)
    (h : decodeIp size ipAt (kind :: rest) = .ok (destination, n)) :
    Sendable destination ∧ n ≤ (kind :: rest).length ∧
      (kind :: rest).take n = kind :: bare destination ∧
      destination = .ip ⟨ipAt (kind :: rest) 1, portAt (kind :: rest) (1 + size)⟩ := by
  unfold decodeIp at h
  split_ifs at h with hshort hzero
  cases h
  have hlong := not_lt.mp hshort
  refine ⟨hzero, hlong, ?_, rfl⟩
  rw [take_cons_add, bare, hwire (by omega), portBytes_portAt (by omega)]

theorem decodeDomain_ok {n : ℕ} {kind length : UInt8} {rest : Bytes}
    (h : decodeDomain length.toNat (kind :: length :: rest) = .ok (destination, n)) :
    Sendable destination ∧ n ≤ (kind :: length :: rest).length ∧
      (kind :: length :: rest).take n = kind :: bare destination ∧
      ∃ host port, destination = .domain host port := by
  unfold decodeDomain checkDomain at h
  split_ifs at h with hzero hshort hutf8 hport
  have hlong := not_lt.mp hshort
  rcases hdomain : Destination.ofDomain (((kind :: length :: rest).drop 2).take length.toNat)
    (portAt (kind :: length :: rest) (2 + length.toNat)) with _ | made
  · rw [hdomain] at h
    cases h
  rw [hdomain] at h
  cases h
  obtain ⟨hmade, -, -, -⟩ := ofDomain_eq_some hdomain
  subst hmade
  have hhost : (((kind :: length :: rest).drop 2).take length.toNat).length = length.toNat :=
    length_part (by omega)
  refine ⟨⟨hdomain, by simpa using hutf8⟩, hlong, ?_, _, _, rfl⟩
  have hbyte : UInt8.ofNat length.toNat = length := UInt8.ofNat_toNat
  rw [bare, hhost, hbyte, portBytes_portAt (by omega)]
  have hsplit : length.toNat + 4 = length.toNat + 2 + 2 := rfl
  rw [hsplit, take_add, add_comm length.toNat 2, take_add]
  rfl

/-- **What is read is an address**, and no more. -/
theorem decodeAddress_ok {n : ℕ} (h : decodeAddress bytes = .ok (destination, n)) :
    Sendable destination ∧ n ≤ bytes.length ∧ bytes.take n = addressForm socksKinds destination := by
  cases bytes with
  | nil => cases h
  | cons kind rest =>
    change decodeKind kind (kind :: rest) = _ at h
    unfold decodeKind at h
    split_ifs at h with hipv4 hipv6 hname
    · obtain ⟨hsendable, hle, htake, hip⟩ := decodeIp_ok (wire_v4_ofBe <| length_part ·) h
      refine ⟨hsendable, hle, htake.trans ?_⟩
      rw [hip, hipv4]
      rfl
    · obtain ⟨hsendable, hle, htake, hip⟩ := decodeIp_ok (wire_v6_ofBe <| length_part ·) h
      refine ⟨hsendable, hle, htake.trans ?_⟩
      rw [hip, hipv6]
      rfl
    · cases rest with
      | nil => cases h
      | cons length rest =>
        obtain ⟨hsendable, hle, htake, host, port, hdomain⟩ := decodeDomain_ok h
        refine ⟨hsendable, hle, htake.trans ?_⟩
        rw [hdomain, hname]
        rfl

/-- The port stays where it is. -/
theorem portAt_more (h : offset + 2 ≤ bytes.length) (more : Bytes) :
    portAt (bytes ++ more) offset = portAt bytes offset := by
  unfold portAt
  rw [take_drop_more h]

variable {error : Socks5CodecError}

theorem decodeIp_error {size : ℕ} {packet : Bytes} (h : decodeIp size ipAt packet = .error error)
    (hfinal : error ≠ .truncated) (more : Bytes) :
    decodeIp size ipAt (packet ++ more) = .error error := by
  unfold decodeIp at h ⊢
  split_ifs at h with hshort hzero
  · exact absurd (Except.error.inj h).symm hfinal
  · rw [if_neg (by rw [length_append]; omega), portAt_more (by omega), if_pos hzero]
    exact h

theorem decodeDomain_error {length : ℕ} {packet : Bytes}
    (h : decodeDomain length packet = .error error) (hfinal : error ≠ .truncated) (more : Bytes) :
    decodeDomain length (packet ++ more) = .error error := by
  unfold decodeDomain at h ⊢
  split_ifs at h with hzero hshort
  · rw [if_pos hzero]
    exact h
  · exact absurd (Except.error.inj h).symm hfinal
  rw [if_neg hzero, if_neg (by rw [length_append]; omega), portAt_more (by omega),
    take_drop_more (by omega)]
  exact h

/-- **What is refused is refused, whatever follows.** -/
theorem decodeAddress_error
    (h : decodeAddress bytes = .error error) (hfinal : error ≠ .truncated) (more : Bytes) :
    decodeAddress (bytes ++ more) = .error error := by
  cases bytes with
  | nil => exact absurd (Except.error.inj h).symm hfinal
  | cons kind rest =>
    change decodeKind kind (kind :: rest) = _ at h
    change decodeKind kind (kind :: rest ++ more) = _
    unfold decodeKind at h ⊢
    split_ifs at h ⊢
    · exact decodeIp_error h hfinal more
    · exact decodeIp_error h hfinal more
    · cases rest with
      | nil => exact absurd (Except.error.inj h).symm hfinal
      | cons length rest => exact decodeDomain_error h hfinal more
    · exact h

/-! ## Frames -/

/-- **How a carrier writes datagrams**: the kinds of its addresses, what stands
between the length and the payload, and how long that may be. -/
structure Format where
  kinds : Kinds
  separator : Bytes
  shortest : ℕ
  longest : ℕ
  fits : longest ≤ 65535

/-- As long as two bytes can tell. -/
theorem Format.widest : 65535 ≤ 65535 := le_refl _

/-- A destination and a payload. -/
abbrev Packet := Destination × Bytes

namespace Format

/-- **A datagram on the wire.** -/
def frame (format : Format) (packet : Packet) : Bytes :=
  addressForm format.kinds packet.1 ++
    (toBe 2 packet.2.length ++ (format.separator ++ packet.2))

theorem frame_ne_nil (format : Format) (packet : Packet) : format.frame packet ≠ [] := nofun

/-- A datagram that can be sent. -/
def Valid (format : Format) (packet : Packet) : Prop :=
  Sendable packet.1 ∧ format.shortest ≤ packet.2.length ∧ packet.2.length ≤ format.longest

end Format

/-- An address is not the start of another. -/
theorem addressForm_cancel {kinds : Kinds} {x y : Destination} {r r' : Bytes} (hx : Sendable x)
    (hy : Sendable y) (h : addressForm kinds x ++ r = addressForm kinds y ++ r') : x = y := by
  obtain ⟨hkind, hbare⟩ := cons.inj h
  have hsocks : addressForm socksKinds x ++ r = addressForm socksKinds y ++ r' := by
    rw [addressForm, addressForm, of_eq_of socksKinds hkind]
    exact congrArg (cons _) hbare
  have hdecode := decodeAddress_form hx r
  rw [hsocks, decodeAddress_form hy r'] at hdecode
  exact (Prod.mk.inj (Except.ok.inj hdecode)).1.symm

theorem toBe_cancel {a b : ℕ} {r r' : Bytes} (ha : a ≤ 65535) (hb : b ≤ 65535)
    (h : toBe 2 a ++ r = toBe 2 b ++ r') : a = b ∧ r = r' := by
  have hparts := append_inj h (by rw [length_toBe, length_toBe])
  have hnumber := congrArg ofBe hparts.1
  rw [ofBe_toBe (by omega), ofBe_toBe (by omega)] at hnumber
  exact ⟨hnumber, hparts.2⟩

/-- **The datagrams of a carrier form a prefix code.** -/
theorem frame_code (format : Format) : PrefixCode format.Valid format.frame where
  ne_nil := fun _ => format.frame_ne_nil _
  cancel := by
    rintro ⟨x, p⟩ ⟨y, q⟩ r r' ⟨hx, -, hp⟩ ⟨hy, -, hq⟩ h
    have hfits := format.fits
    simp only [Format.frame, append_assoc] at h
    obtain rfl : x = y := addressForm_cancel hx hy h
    change p.length ≤ format.longest at hp
    change q.length ≤ format.longest at hq
    obtain ⟨hlength, hpayload⟩ := toBe_cancel (by omega) (by omega) (append_cancel_left h)
    have hsame := append_inj (append_cancel_left hpayload) hlength
    exact Prod.ext rfl hsame.1

/-! ## Senders and receivers -/

section

variable {format : Format} {limit : ℕ} {consumed rest : Bytes} {returned sends : List Packet}

/-- **A receiver has taken a stream apart**: it has consumed these bytes, returned
the datagrams in them that are within its limit, and is left with the rest. -/
def TakenApart (format : Format) (limit : ℕ) (consumed : Bytes) (returned : List Packet)
    (rest : Bytes) : Prop :=
  ∃ frames, (∀ packet ∈ frames, format.Valid packet) ∧
    consumed = codeStream format.frame frames ++ rest ∧
    returned = frames.filter fun packet => packet.2.length ≤ limit

section

variable (h : TakenApart format limit consumed returned rest)

include h

/-- **A part of what was sent**: the first datagrams come. -/
theorem TakenApart.part (hsends : ∀ packet ∈ sends, format.Valid packet)
    (hconsumed : consumed <+: codeStream format.frame sends) :
    returned <+: sends.filter fun packet => packet.2.length ≤ limit := by
  obtain ⟨frames, hvalid, hsplit, hreturned⟩ := h
  rw [hsplit] at hconsumed
  rw [hreturned]
  exact ((frame_code format).read_part hvalid hsends hconsumed).filter _

/-- **All that was sent**: all datagrams come. -/
theorem TakenApart.all (hsends : ∀ packet ∈ sends, format.Valid packet)
    (hconsumed : consumed = codeStream format.frame sends)
    (hrest : Unfinished format.Valid format.frame rest) :
    returned = sends.filter fun packet => packet.2.length ≤ limit := by
  obtain ⟨frames, hvalid, hsplit, hreturned⟩ := h
  rw [hsplit] at hconsumed
  rw [hreturned, (frame_code format).read_all hvalid hsends hrest hconsumed]

/-- One more datagram is taken off the rest. -/
theorem TakenApart.next {packet : Packet} {left : Bytes} (hvalid : format.Valid packet)
    (hrest : rest = format.frame packet ++ left) :
    TakenApart format limit consumed
      (if packet.2.length ≤ limit then returned ++ [packet] else returned) left := by
  obtain ⟨frames, hframes, hsplit, hreturned⟩ := h
  refine ⟨frames ++ [packet], forall_mem_concat.mpr ⟨hframes, hvalid⟩, ?_, ?_⟩
  · rw [hsplit, hrest, codeStream_concat, append_assoc]
  · rw [filter_append, ← hreturned]
    split_ifs with hsmall <;> simp [hsmall]

/-- More arrives. -/
theorem TakenApart.read (got : Bytes) :
    TakenApart format limit (consumed ++ got) returned (rest ++ got) := by
  obtain ⟨frames, hframes, hsplit, hreturned⟩ := h
  exact ⟨frames, hframes, by rw [hsplit, append_assoc], hreturned⟩

end

theorem TakenApart.start (format : Format) (limit : ℕ) : TakenApart format limit [] [] [] :=
  ⟨[], nofun, rfl, rfl⟩

/-- One more datagram is begun. -/
theorem frames_start {outbox : Outbox} (h : outbox.frames = sends.map format.frame)
    (packet : Packet) :
    (outbox.start (format.frame packet)).frames = (sends ++ [packet]).map format.frame := by
  rw [map_append, ← h]
  rfl

end

/-! ## Addresses of SOCKS5 -/

/-- An encoded address has the form of its destination. -/
theorem encodeAddress_ok (h : encodeAddress destination = .ok bytes) :
    bytes = addressForm socksKinds destination := by
  rcases destination with ⟨_ | _, port⟩ | ⟨host, port⟩
  · exact (Except.ok.inj h).symm
  · exact (Except.ok.inj h).symm
  · rw [encodeAddress_domain] at h
    split_ifs at h
    exact (Except.ok.inj h).symm

theorem length_addressForm_le (kinds : Kinds)
    (h : Sendable destination) : (addressForm kinds destination).length ≤ 259 := by
  rw [length_addressForm]
  rcases destination with ⟨bits | bits, port⟩ | ⟨host, port⟩
  · exact le_of_ble_eq_true rfl
  · exact le_of_ble_eq_true rfl
  · obtain ⟨-, -, hshort, -⟩ := ofDomain_eq_some h.1
    exact Nat.add_le_add_right hshort 4

/-- An address that is not there yet is short. -/
theorem length_of_truncated (h : decodeAddress bytes = .error .truncated) : bytes.length < 259 := by
  cases bytes with
  | nil => exact succ_pos _
  | cons kind rest =>
    change decodeKind kind (kind :: rest) = _ at h
    unfold decodeKind at h
    have hip : ∀ {size : ℕ} {ipAt : Bytes → ℕ → IpAddr}, size ≤ 16 →
        decodeIp size ipAt (kind :: rest) = .error .truncated → (kind :: rest).length < 259 := by
      intro size ipAt hsize hdecode
      unfold decodeIp at hdecode
      split_ifs at hdecode with hshort hzero
      · omega
      · cases hdecode
    split_ifs at h
    · exact hip (by decide) h
    · exact hip (by decide) h
    · cases rest with
      | nil => exact Nat.lt_of_lt_of_le Nat.one_lt_two (by decide)
      | cons length rest =>
        change decodeDomain length.toNat (kind :: length :: rest) = _ at h
        have hbyte := length.toNat_lt
        unfold decodeDomain checkDomain at h
        split_ifs at h with hzero hshort hutf8 hport
        · cases h
        · omega
        · cases h
        · cases h
        · split at h <;> cases h
    · cases h

end Vole.UdpStream
