import Vole.Datagram.Frames
import Vole.Datagram.Model.Uot

/-!
# The items of a UoT datagram

`Seen` is what the task has read of the current datagram when it comes to an item.
An item leads to the next one, or ends the datagram (`Seen.take`); and whatever
becomes a datagram has the item that is read next, and passes its checks
(`Seen.complete`).
-/

namespace Vole.Uot

open UdpStream List Nat Except

/-- How UoT writes datagrams. -/
def format : Format := ⟨uotKinds, [], 0, 65535, Format.widest⟩

/-! ## Encoding -/

theorem encodeUotAddress_ok {destination : Destination} {bytes : Bytes}
    (h : encodeUotAddress destination = .ok bytes) : bytes = addressForm uotKinds destination := by
  rcases destination with ⟨bits | bits, port⟩ | ⟨host, port⟩
  all_goals
    rw [encodeUotAddress] at h
    split_ifs at h
    exact (ok.inj h).symm

theorem encodeUotAddress_sendable {destination : Destination} (h : Sendable destination) :
    encodeUotAddress destination = .ok (addressForm uotKinds destination) := by
  rcases destination with ⟨bits | bits, port⟩ | ⟨host, port⟩
  · exact if_neg h
  · exact if_neg h
  obtain ⟨hdomain, -⟩ := h
  unfold Destination.ofDomain at hdomain
  split_ifs at hdomain with hbad
  simp only [Bool.or_eq_true, List.isEmpty_iff, decide_eq_true_eq, beq_iff_eq, not_or] at hbad
  obtain ⟨⟨⟨hne, hshort⟩, hzero⟩, hcontrol⟩ := hbad
  have hgood : ¬ (host = [] ∨ port = 0 ∨ host.any Bytes.isControl = true) := by
    rintro (hnil | hport | hany)
    · exact hne hnil
    · exact hzero hport
    · exact hcontrol hany
  rw [encodeUotAddress, if_neg hshort, if_neg hgood]
  rfl

theorem encodeDatagram_ok {datagram : Datagram} {bytes : Bytes}
    (h : encodeDatagram datagram = .ok bytes) :
    bytes = format.frame (datagram.remote, datagram.payload) ∧ datagram.payload.length ≤ 65535 := by
  unfold encodeDatagram at h
  split_ifs at h with hlong
  cases haddress : encodeUotAddress datagram.remote with
  | error error =>
    rw [haddress] at h
    cases h
  | ok address =>
    rw [haddress] at h
    rw [encodeUotAddress_ok haddress] at h
    exact ⟨(ok.inj h).symm, not_lt.mp hlong⟩

theorem encodeDatagram_valid {remote : Destination} {payload : Bytes}
    (h : format.Valid (remote, payload)) :
    encodeDatagram ⟨remote, payload, none⟩ = .ok (format.frame (remote, payload)) := by
  have hfits : ¬ 65535 < payload.length := not_lt.mpr h.2.2
  unfold encodeDatagram
  rw [if_neg hfits, encodeUotAddress_sendable h.1]
  rfl

/-- The request before the first datagram. -/
def request : List Packet → Bytes
  | [] => []
  | packet :: _ => 0 :: addressForm socksKinds packet.1

theorem encodeFirstPacket_ok {datagram : Datagram} {bytes : Bytes}
    (h : encodeFirstPacket datagram = .ok bytes) :
    bytes = request [(datagram.remote, datagram.payload)] ++
      format.frame (datagram.remote, datagram.payload) ∧ datagram.payload.length ≤ 65535 := by
  unfold encodeFirstPacket encodeRequest at h
  cases haddress : encodeAddress datagram.remote with
  | error error =>
    rw [haddress] at h
    cases h
  | ok address =>
    rw [haddress] at h
    cases hpacket : encodeDatagram datagram with
    | error error =>
      rw [hpacket] at h
      cases h
    | ok packet =>
      rw [hpacket] at h
      obtain ⟨hframe, hshort⟩ := encodeDatagram_ok hpacket
      refine ⟨?_, hshort⟩
      rw [← ok.inj h, hframe, encodeAddress_ok haddress]
      rfl

/-! ## Items -/

theorem ofBe_portBytes (port : UInt16) : UInt16.ofNat (ofBe (portBytes port)) = port := by
  rw [portBytes, ofBe_toBe (by exact port.toNat_lt)]
  exact UInt16.ofNat_toNat

theorem ofBe_singleton (byte : UInt8) : ofBe [byte] = byte.toNat := by
  simp [ofBe, ofLe]

/-- **What was read of a datagram** at this item. -/
inductive Seen (max : ℕ) : Stage → Bytes → Prop
  | kind : Seen max .kind []
  | ipv4 : Seen max .ipv4 [0]
  | ipv4Port (ip : BitVec 32) : Seen max (.ipv4Port ip) (0 :: (IpAddr.v4 ip).wire)
  | ipv6 : Seen max .ipv6 [1]
  | ipv6Port (ip : BitVec 128) : Seen max (.ipv6Port ip) (1 :: (IpAddr.v6 ip).wire)
  | domainLength : Seen max .domainLength [2]
  | host {length : ℕ} (hsome : length ≠ 0) (hfits : length ≤ 255) :
    Seen max (.host length) [2, UInt8.ofNat length]
  | domainPort {host : Bytes} (hfits : host.length ≤ 255) (hutf8 : Utf8.isUtf8 host = true) :
    Seen max (.domainPort host) (2 :: UInt8.ofNat host.length :: host)
  | payloadLength {remote : Destination} (hremote : Sendable remote) :
    Seen max (.payloadLength remote) (addressForm uotKinds remote)
  | payload {remote : Destination} {length : ℕ} (hremote : Sendable remote) (hsome : length ≠ 0)
    (hfits : length ≤ max) (hsmall : length ≤ 65535) :
    Seen max (.payload remote length) (addressForm uotKinds remote ++ toBe 2 length)
  | drain {remote : Destination} {part : Bytes} {remaining : ℕ} (hremote : Sendable remote)
    (hsome : remaining ≠ 0) (hlong : max < part.length + remaining)
    (hsmall : part.length + remaining ≤ 65535) :
    Seen max (.drain remaining)
      (addressForm uotKinds remote ++ (toBe 2 (part.length + remaining) ++ part))

/-- What these bytes of a datagram lead to. -/
def Leads (max : ℕ) (bytes : Bytes) : Next → Prop
  | .goes stage => Seen max stage bytes
  | .gives datagram => format.Valid (datagram.remote, datagram.payload) ∧
    bytes = format.frame (datagram.remote, datagram.payload) ∧ datagram.payload.length ≤ max
  | .skips => ∃ packet, format.Valid packet ∧ bytes = format.frame packet ∧ max < packet.2.length

section

variable {max : ℕ} {stage : Stage} {seen item rest : Bytes} {next : Next} {packet : Packet}

theorem frame_eq (remote : Destination) (payload : Bytes) :
    format.frame (remote, payload) =
      addressForm uotKinds remote ++ (toBe 2 payload.length ++ payload) := by
  rfl

theorem leads_afterKind {kind : UInt8} (h : afterKind kind = .ok next) : Leads max [kind] next := by
  unfold afterKind at h
  split_ifs at h with h4 h6 hname
  · rw [← ok.inj h, h4]
    exact .ipv4
  · rw [← ok.inj h, h6]
    exact .ipv6
  · rw [← ok.inj h, hname]
    exact .domainLength

theorem leads_afterLength {remote : Destination} (hremote : Sendable remote)
    (hitem : item.length = 2) (h : afterLength max remote (ofBe item) = .ok next) :
    Leads max (addressForm uotKinds remote ++ item) next := by
  have hlt := ofBe_lt item
  have hback := toBe_ofBe item
  rw [hitem] at hlt hback
  unfold afterLength at h
  split_ifs at h with hlong hempty
  · rw [← ok.inj h]
    have hpart : ([] : Bytes).length + ofBe item = ofBe item := zero_add _
    have hseen : Seen max (.drain (ofBe item))
        (addressForm uotKinds remote ++ (toBe 2 (([] : Bytes).length + ofBe item) ++ [])) :=
      .drain hremote (by omega) (by omega) (by omega)
    rwa [hpart, append_nil, hback] at hseen
  · rw [← ok.inj h]
    refine ⟨⟨hremote, zero_le _, zero_le _⟩, ?_, zero_le _⟩
    rw [frame_eq, append_nil, length_nil, ← hempty, hback]
  · rw [← ok.inj h]
    have hseen : Seen max (.payload remote (ofBe item))
        (addressForm uotKinds remote ++ toBe 2 (ofBe item)) :=
      .payload hremote hempty (not_lt.mp hlong) (by omega)
    rwa [hback] at hseen

/-- **An item leads to the next one**, or ends the datagram. -/
theorem Seen.take (h : Seen max stage seen) (hitem : item.length = stage.need)
    (hnext : take max stage item = .ok next) : Leads max (seen ++ item) next := by
  cases h with
  | kind =>
    obtain ⟨byte, rfl⟩ := length_eq_one_iff.mp hitem
    exact leads_afterKind hnext
  | ipv4 =>
    rw [← ok.inj hnext]
    have hseen : Seen max (.ipv4Port _) _ := .ipv4Port (BitVec.ofNat 32 (ofBe item))
    rwa [wire_v4_ofBe hitem] at hseen
  | ipv4Port ip | ipv6Port ip =>
    rw [Uot.take, afterIp] at hnext
    split_ifs at hnext with hzero
    have hremote : Sendable (.ip _) := hzero
    have hseen : Seen max _ _ := .payloadLength hremote
    rw [addressForm, bare, portBytes_ofBe hitem] at hseen
    rw [← ok.inj hnext]
    exact hseen
  | ipv6 =>
    rw [← ok.inj hnext]
    have hseen : Seen max (.ipv6Port _) _ := .ipv6Port (BitVec.ofNat 128 (ofBe item))
    rwa [wire_v6_ofBe hitem] at hseen
  | domainLength =>
    obtain ⟨byte, rfl⟩ := length_eq_one_iff.mp hitem
    rw [Uot.take, ofBe_singleton] at hnext
    split_ifs at hnext with hzero
    rw [← ok.inj hnext]
    have hbyte : UInt8.ofNat byte.toNat = byte := UInt8.ofNat_toNat
    have hseen : Seen max (.host _) _ := .host hzero (le_of_lt_succ byte.toNat_lt)
    rwa [hbyte] at hseen
  | host hsome hfits =>
    rw [Uot.take] at hnext
    split_ifs at hnext with hutf8
    rw [← ok.inj hnext]
    subst hitem
    exact .domainPort hfits hutf8
  | @domainPort host hfits hutf8 =>
    rw [Uot.take] at hnext
    cases hdomain : Destination.ofDomain host (UInt16.ofNat (ofBe item)) with
    | none =>
      rw [hdomain] at hnext
      cases hnext
    | some destination =>
      rw [hdomain] at hnext
      obtain ⟨rfl, -⟩ := ofDomain_eq_some hdomain
      rw [← ok.inj hnext]
      have hremote : Sendable (.domain host (UInt16.ofNat (ofBe item))) := ⟨hdomain, hutf8⟩
      have hseen : Seen max (.payloadLength _) _ := .payloadLength hremote
      rwa [addressForm, bare, portBytes_ofBe hitem] at hseen
  | payloadLength hremote => exact leads_afterLength hremote hitem hnext
  | @payload remote length hremote hsome hfits hsmall =>
    rw [← ok.inj hnext]
    subst hitem
    refine ⟨⟨hremote, zero_le _, hsmall⟩, ?_, hfits⟩
    rw [frame_eq, append_assoc]
  | @drain remote part remaining hremote hsome hlong hsmall =>
    change item.length = min remaining drainBufferSize at hitem
    rw [Uot.take] at hnext
    have hsplit : part.length + remaining = (part ++ item).length + (remaining - item.length) := by
      rw [length_append]
      omega
    rw [append_assoc, append_assoc, hsplit]
    rw [hsplit] at hlong hsmall
    split_ifs at hnext with hlast
    · rw [← ok.inj hnext]
      have hzero : remaining - item.length = 0 := by omega
      rw [hzero, add_zero] at hlong hsmall ⊢
      exact ⟨(remote, part ++ item), ⟨hremote, zero_le _, hsmall⟩, (frame_eq _ _).symm, hlong⟩
    · rw [← ok.inj hnext]
      have hleft : remaining - item.length ≠ 0 := by omega
      exact .drain hremote hleft hlong hsmall

/-! ## What becomes a datagram -/

theorem frame_cons (packet : Packet) (tail : Bytes) :
    format.frame packet ++ tail = uotKinds.of packet.1 ::
      (bare packet.1 ++ (toBe 2 packet.2.length ++ (packet.2 ++ tail))) := by
  simp only [Format.frame, addressForm, append_assoc, cons_append]
  rfl

variable {destination : Destination} {tail : Bytes}

theorem of_cons_v4 (h : uotKinds.of destination :: (bare destination ++ tail) = 0 :: rest) :
    ∃ bits port, destination = .ip ⟨.v4 bits, port⟩ ∧
      (IpAddr.v4 bits).wire ++ (portBytes port ++ tail) = rest := by
  rcases destination with ⟨bits | bits, port⟩ | ⟨host, port⟩ <;>
    simp_all [Kinds.of, uotKinds, bare]

theorem of_cons_v6 (h : uotKinds.of destination :: (bare destination ++ tail) = 1 :: rest) :
    ∃ bits port, destination = .ip ⟨.v6 bits, port⟩ ∧
      (IpAddr.v6 bits).wire ++ (portBytes port ++ tail) = rest := by
  rcases destination with ⟨bits | bits, port⟩ | ⟨host, port⟩ <;>
    simp_all [Kinds.of, uotKinds, bare]

theorem of_cons_name (h : uotKinds.of destination :: (bare destination ++ tail) = 2 :: rest) :
    ∃ host port, destination = .domain host port ∧
      UInt8.ofNat host.length :: (host ++ (portBytes port ++ tail)) = rest := by
  rcases destination with ⟨bits | bits, port⟩ | ⟨host, port⟩ <;>
    simp_all [Kinds.of, uotKinds, bare]

/-- An item that is there, and passes its checks. -/
def Ready (max : ℕ) (stage : Stage) (rest : Bytes) : Prop :=
  stage.need ≤ rest.length ∧ ∃ next, take max stage (rest.take stage.need) = .ok next

theorem length_portBytes (port : UInt16) : (portBytes port).length = 2 := length_toBe _ _

theorem take_portBytes (port : UInt16) (tail : Bytes) :
    (portBytes port ++ tail).take 2 = portBytes port := take_toBe _

theorem ready_port {ip : IpAddr} {port : UInt16} (hport : port ≠ 0) (tail : Bytes)
    (hneed : stage.need = 2)
    (htake : ∀ item, take max stage item = afterIp ⟨ip, UInt16.ofNat (ofBe item)⟩) :
    Ready max stage (portBytes port ++ tail) := by
  refine ⟨?_, .goes (.payloadLength (.ip ⟨ip, port⟩)), ?_⟩
  · rw [hneed, length_append, length_portBytes]
    exact le_add_right _ _
  · rw [htake, hneed, take_portBytes, ofBe_portBytes, afterIp, if_neg hport]

/-- A name and what comes after it. -/
theorem name_inj {host later other : Bytes} {port : UInt16} {length : ℕ}
    (h : Sendable (.domain host port)) (hfits : length ≤ 255)
    (hsame : UInt8.ofNat host.length :: later = UInt8.ofNat length :: other) :
    host.length = length ∧ later = other := by
  obtain ⟨-, -, hshort, -⟩ := ofDomain_eq_some h.1
  obtain ⟨hbytes, hrest⟩ := cons.inj hsame
  refine ⟨?_, hrest⟩
  have hnat := congrArg UInt8.toNat hbytes
  rwa [UInt8.toNat_ofNat_of_lt' (lt_succ_of_le hshort),
    UInt8.toNat_ofNat_of_lt' (lt_succ_of_le hfits)] at hnat

variable (h : Seen max stage seen)

include h

/-- **What becomes a datagram has the next item**, and that passes its checks. -/
theorem Seen.complete (hvalid : format.Valid packet)
    (hframe : format.frame packet <+: seen ++ rest) : Ready max stage rest := by
  obtain ⟨tail, htail⟩ := hframe
  obtain ⟨remote, payload⟩ := packet
  obtain ⟨hremote, -, hsmall⟩ := hvalid
  change payload.length ≤ 65535 at hsmall
  rw [frame_cons] at htail
  simp only at htail
  have hwhole : addressForm uotKinds remote ++ (toBe 2 payload.length ++ (payload ++ tail)) =
      seen ++ rest := htail
  cases h with
  | kind =>
    rw [← show _ = rest from htail]
    refine ⟨succ_le_succ (zero_le _), ?_⟩
    rcases remote with ⟨bits | bits, port⟩ | ⟨host, port⟩ <;> exact ⟨_, rfl⟩
  | ipv4 =>
    obtain ⟨bits, port, rfl, rfl⟩ := of_cons_v4 htail
    refine ⟨?_, _, rfl⟩
    rw [length_append, length_wire_v4]
    exact le_add_right _ _
  | ipv4Port ip =>
    obtain ⟨bits, port, rfl, hrest⟩ := of_cons_v4 htail
    obtain ⟨-, rfl⟩ := append_inj hrest (by rw [length_wire_v4, length_wire_v4])
    exact ready_port hremote _ rfl fun _ => rfl
  | ipv6 =>
    obtain ⟨bits, port, rfl, rfl⟩ := of_cons_v6 htail
    refine ⟨?_, _, rfl⟩
    rw [length_append, length_wire_v6]
    exact le_add_right _ _
  | ipv6Port ip =>
    obtain ⟨bits, port, rfl, hrest⟩ := of_cons_v6 htail
    obtain ⟨-, rfl⟩ := append_inj hrest (by rw [length_wire_v6, length_wire_v6])
    exact ready_port hremote _ rfl fun _ => rfl
  | domainLength =>
    obtain ⟨host, port, rfl, rfl⟩ := of_cons_name htail
    obtain ⟨-, hne, hshort, -⟩ := ofDomain_eq_some hremote.1
    have hbyte : (UInt8.ofNat host.length).toNat = host.length :=
      UInt8.toNat_ofNat_of_lt' (lt_succ_of_le hshort)
    refine ⟨succ_le_succ (zero_le _), .goes (.host host.length), ?_⟩
    change Uot.take max .domainLength [UInt8.ofNat host.length] = _
    rw [Uot.take, ofBe_singleton, hbyte,
      if_neg fun hzero => hne (length_eq_zero_iff.mp hzero)]
  | host hsome hfits =>
    obtain ⟨host, port, rfl, hrest⟩ := of_cons_name htail
    obtain ⟨rfl, rfl⟩ := name_inj hremote hfits hrest
    refine ⟨?_, .goes (.domainPort host), ?_⟩
    · rw [length_append]
      exact le_add_right _ _
    · rw [Stage.need, take_left, Uot.take, if_pos hremote.2]
  | @domainPort name hfits hutf8 =>
    obtain ⟨host, port, rfl, hrest⟩ := of_cons_name htail
    obtain ⟨hlength, hafter⟩ := name_inj hremote hfits hrest
    obtain ⟨rfl, rfl⟩ := append_inj hafter hlength
    refine ⟨?_, .goes (.payloadLength (.domain host port)), ?_⟩
    · rw [length_append, length_portBytes]
      exact le_add_right _ _
    · rw [Stage.need, take_portBytes, Uot.take, ofBe_portBytes, hremote.1]
  | payloadLength hother =>
    obtain rfl := addressForm_cancel hremote hother hwhole
    obtain rfl := append_cancel_left hwhole
    refine ⟨?_, ?_⟩
    · rw [length_append, length_toBe]
      exact le_add_right _ _
    · rw [Uot.take, afterLength]
      split_ifs <;> exact ⟨_, rfl⟩
  | payload hother hsome hfits hlong =>
    rw [append_assoc] at hwhole
    obtain rfl := addressForm_cancel hremote hother hwhole
    obtain ⟨rfl, rfl⟩ := toBe_cancel hsmall hlong (append_cancel_left hwhole)
    refine ⟨?_, _, rfl⟩
    rw [length_append]
    exact le_add_right _ _
  | @drain other part remaining hother hsome hlong hmost =>
    rw [append_assoc, append_assoc] at hwhole
    obtain rfl := addressForm_cancel hremote hother hwhole
    obtain ⟨hlength, hrest⟩ := toBe_cancel hsmall hmost (append_cancel_left hwhole)
    refine ⟨?_, by rw [Uot.take]; split_ifs <;> exact ⟨_, rfl⟩⟩
    have hcount := congrArg length hrest
    rw [length_append, length_append] at hcount
    change min remaining drainBufferSize ≤ rest.length
    omega

/-- Every item has a byte. -/
theorem Seen.need_pos : 0 < stage.need := by
  cases h with
  | host hsome _ => exact Nat.pos_of_ne_zero hsome
  | payload _ hsome _ _ => exact Nat.pos_of_ne_zero hsome
  | drain _ hsome _ _ =>
    simp only [Stage.need, drainBufferSize]
    omega
  | _ => exact succ_pos _

/-- **A part of an item ends no datagram.** -/
theorem Seen.unfinished (hshort : item.length < stage.need) :
    Unfinished format.Valid format.frame (seen ++ item) := by
  intro packet hvalid hframe
  have hready := (h.complete hvalid hframe).1
  omega

/-- **An item that is refused ends all hope.** -/
theorem Seen.hopeless (hitem : item.length = stage.need)
    {error : IoError} (herror : Uot.take max stage item = .error error) :
    Hopeless format.Valid format.frame (seen ++ item) := by
  intro later packet hvalid hframe
  rw [append_assoc] at hframe
  obtain ⟨-, next, hnext⟩ := h.complete hvalid hframe
  rw [← hitem, take_left, herror] at hnext
  cases hnext

end

end Vole.Uot
