import Vole.Datagram.Faithful
import Vole.Datagram.Model.SingMux

/-!
# A sing-mux association

`next` passes through its stages while the buffer fills (`Passes`), and what is in
the buffer tells where it is: a future that was dropped is started over and comes to
the same stage. It never reads past a datagram, so the buffer is one to its end when
`next` gives it (`Passes.frame`).
-/

namespace Vole.SingMux

open UdpStream DatagramIo List Option Nat

/-- How sing-mux writes datagrams. An empty one cannot be told from an end. -/
def format : Format := ⟨socksKinds, [], 1, 65535, Format.widest⟩

/-! ## The stages of `next` -/

/-- **`next` passes to this stage** on what is in the buffer. -/
inductive Passes (input : Bytes) : Stage → Prop
  | kind : Passes input .kind
  | header {size : ℕ} (hkind : 2 ≤ input.length) (hsize : addressLen input = some size) :
    Passes input (.header size)
  | payload {size used length : ℕ} {remote : Destination} (hkind : 2 ≤ input.length)
    (hsize : addressLen input = some size) (hheader : size + 2 ≤ input.length)
    (haddress : decodeAddress (input.take size) = .ok (remote, used))
    (hlength : ofBe ((input.drop size).take 2) = length) (hsome : length ≠ 0) :
    Passes input (.payload size remote length)

section

variable {input later : Bytes} {stage : Stage} {size : ℕ} {packet : Packet}

theorem addressLen_more (h : 2 ≤ input.length) (later : Bytes) :
    addressLen (input ++ later) = addressLen input := by
  match input, h with
  | _ :: _ :: _, _ => rfl

theorem addressLen_le (h : addressLen input = some size) : size ≤ 259 := by
  unfold addressLen at h
  split at h
  · next kind length _ =>
    have hbyte := length.toNat_lt
    split_ifs at h <;> (cases h; omega)
  · cases h

theorem bare_ne_nil (destination : Destination) (rest : Bytes) : bare destination ++ rest ≠ [] := by
  rcases destination with ⟨_ | _, port⟩ | ⟨host, port⟩ <;> simp [bare, IpAddr.wire, portBytes, toBe]

/-- The first two bytes of an address tell how long it is. -/
theorem addressLen_form {destination : Destination} (h : Sendable destination) (rest : Bytes) :
    addressLen (addressForm socksKinds destination ++ rest) =
      some (addressForm socksKinds destination).length := by
  rw [length_addressForm]
  rcases destination with ⟨bits | bits, port⟩ | ⟨host, port⟩
  · obtain ⟨first, tail, htail⟩ := exists_cons_of_ne_nil (bare_ne_nil (.ip ⟨.v4 bits, port⟩) rest)
    change addressLen (1 :: (bare (.ip ⟨.v4 bits, port⟩) ++ rest)) = _
    rw [htail, addressLen, if_pos rfl]
  · obtain ⟨first, tail, htail⟩ := exists_cons_of_ne_nil (bare_ne_nil (.ip ⟨.v6 bits, port⟩) rest)
    change addressLen (4 :: (bare (.ip ⟨.v6 bits, port⟩) ++ rest)) = _
    rw [htail, addressLen, if_neg (by decide), if_pos rfl]
  · obtain ⟨-, -, hshort, -⟩ := ofDomain_eq_some h.1
    have hbyte : (UInt8.ofNat host.length).toNat = host.length :=
      UInt8.toNat_ofNat_of_lt' (lt_succ_of_le hshort)
    change addressLen (3 :: UInt8.ofNat host.length :: (host ++ portBytes port ++ rest)) = _
    rw [addressLen, if_neg (by decide), if_neg (by decide), if_pos rfl, hbyte]

theorem ofBe_two_le (bytes : Bytes) : ofBe (bytes.take 2) ≤ 65535 := by
  have hlt := ofBe_lt (bytes.take 2)
  have hpower : 256 ^ (bytes.take 2).length ≤ 256 ^ 2 :=
    Nat.pow_le_pow_right (by decide) (length_take_le _ _)
  omega

section

variable (h : Passes input stage)

include h

/-- More in the buffer does not change that. -/
theorem Passes.more (later : Bytes) : Passes (input ++ later) stage := by
  have hlonger : input.length ≤ (input ++ later).length := by
    rw [length_append]
    exact le_add_right _ _
  cases h with
  | kind => exact .kind
  | header hkind hsize =>
    exact .header (hkind.trans hlonger) (by rw [addressLen_more hkind, hsize])
  | payload hkind hsize hheader haddress hlength hsome =>
    exact .payload (hkind.trans hlonger) (by rw [addressLen_more hkind, hsize])
      (hheader.trans hlonger) (by rw [take_append_of_le_length (by omega), haddress])
      (by rw [take_drop_more hheader, hlength]) hsome

/-- No stage needs more than the longest frame. -/
theorem Passes.need_le : stage.need ≤ maxFill := by
  cases h with
  | kind => decide
  | header _ hsize =>
    have hle := addressLen_le hsize
    simp only [Stage.need, maxFill]
    omega
  | @payload size used length remote _ hsize _ _ hlength _ =>
    have hle := addressLen_le hsize
    have hlength' := ofBe_two_le (input.drop size)
    simp only [Stage.need, maxFill]
    omega

theorem fill_full {after : Except IoError Progress}
    (hfull : stage.need ≤ input.length) : fill stage input after = after := by
  unfold fill
  rw [if_neg (not_lt.mpr h.need_le), if_neg (not_lt.mpr hfull)]

theorem fill_short {after : Except IoError Progress}
    (hshort : input.length < stage.need) : fill stage input after = .ok (.waits stage) := by
  unfold fill
  rw [if_neg (not_lt.mpr h.need_le), if_pos hshort]

/-- **To go on from a stage is to start over.** -/
theorem Passes.resume_eq : resume stage input = next input := by
  cases h with
  | kind => rfl
  | header hkind hsize =>
    rw [next, resume, resume, fill_full .kind hkind, afterKind, hsize]
  | payload hkind hsize hheader haddress hlength hsome =>
    subst hlength
    have hpasses : Passes input (.header _) := .header hkind hsize
    rw [next, resume, resume, fill_full .kind hkind, afterKind, hsize]
    change _ = fill (.header _) input (afterHeader _ input)
    rw [fill_full hpasses hheader, afterHeader, haddress]
    simp only [if_neg hsome]

end

/-- **Where `next` comes**: it waits, it gives all of the buffer but its head, or what
is there is no datagram. -/
inductive Comes (input : Bytes) : Except IoError Progress → Prop
  | waits {stage : Stage} (hpasses : Passes input stage) (hshort : input.length < stage.need) :
    Comes input (.ok (.waits stage))
  | gives {size length : ℕ} {remote : Destination}
    (hpasses : Passes input (.payload size remote length))
    (hfull : size + 2 + length ≤ input.length) :
    Comes input (.ok (.gives ⟨remote, input.drop (size + 2), none⟩))
  | unknown {error : IoError} (hkind : 2 ≤ input.length) (hsize : addressLen input = none) :
    Comes input (.error error)
  | invalid {size : ℕ} {reason : Socks5CodecError} {error : IoError} (hkind : 2 ≤ input.length)
    (hsize : addressLen input = some size) (hheader : size + 2 ≤ input.length)
    (haddress : decodeAddress (input.take size) = .error reason) : Comes input (.error error)
  | empty {size : ℕ} {error : IoError} (hkind : 2 ≤ input.length)
    (hsize : addressLen input = some size) (hheader : size + 2 ≤ input.length)
    (hlength : ofBe ((input.drop size).take 2) = 0) : Comes input (.error error)

variable {remote : Destination}

theorem comes_short {after : Except IoError Progress} (h : Passes input stage)
    (hneed : ¬ stage.need ≤ input.length) : Comes input (fill stage input after) := by
  have hshort := not_le.mp hneed
  rw [fill_short h hshort]
  exact .waits h hshort

theorem comes_payload {length : ℕ} (h : Passes input (.payload size remote length)) :
    Comes input (resume (.payload size remote length) input) := by
  by_cases hfull : size + 2 + length ≤ input.length
  · rw [resume, fill_full h hfull]
    exact .gives h hfull
  · exact comes_short h hfull

theorem comes_header (hkind : 2 ≤ input.length) (hsize : addressLen input = some size) :
    Comes input (resume (.header size) input) := by
  have h : Passes input (.header size) := .header hkind hsize
  by_cases hheader : size + 2 ≤ input.length
  · rw [resume, fill_full h hheader, afterHeader]
    cases haddress : decodeAddress (input.take size) with
    | error reason => exact .invalid hkind hsize hheader haddress
    | ok address =>
      split_ifs with hempty
      · exact .empty hkind hsize hheader hempty
      · exact comes_payload (.payload hkind hsize hheader haddress rfl hempty)
  · exact comes_short h hheader

theorem comes_next (input : Bytes) : Comes input (next input) := by
  by_cases hkind : 2 ≤ input.length
  · rw [next, resume, fill_full .kind hkind, afterKind]
    cases hsize : addressLen input with
    | none => exact .unknown hkind hsize
    | some size => exact comes_header hkind hsize
  · exact comes_short .kind hkind

theorem passes_of_waits (h : next input = .ok (.waits stage)) :
    Passes input stage ∧ input.length < stage.need := by
  have hcomes := comes_next input
  rw [h] at hcomes
  cases hcomes with
  | waits hpasses hshort => exact ⟨hpasses, hshort⟩

/-! ## Datagrams -/

theorem frame_append (packet : Packet) (rest : Bytes) :
    format.frame packet ++ rest = addressForm socksKinds packet.1 ++
      (toBe 2 packet.2.length ++ (packet.2 ++ rest)) := by
  simp only [Format.frame, append_assoc]
  rfl

theorem length_frame (packet : Packet) :
    (format.frame packet).length =
      (addressForm socksKinds packet.1).length + 2 + packet.2.length := by
  simp only [Format.frame, format, length_append, length_toBe, length_nil]
  omega

/-- **What is given is a datagram**, if the buffer ends with it. -/
theorem Passes.frame {length : ℕ}
    (h : Passes input (.payload size remote length)) (hlength : input.length = size + 2 + length) :
    format.Valid (remote, input.drop (size + 2)) ∧
      input = format.frame (remote, input.drop (size + 2)) := by
  cases h with
  | payload hkind hsize hheader haddress hcount hsome =>
    obtain ⟨hsendable, hused, hform⟩ := decodeAddress_ok haddress
    -- the address is as long as its first bytes tell
    have hfirst : addressForm socksKinds remote <+: input := by
      rw [← hform]
      exact (List.take_prefix _ _).trans (List.take_prefix _ _)
    obtain ⟨tail, htail⟩ := hfirst
    have hlen : size = (addressForm socksKinds remote).length := by
      have hlen := addressLen_form hsendable tail
      rw [htail, hsize] at hlen
      exact some.inj hlen
    have haddr : input.take size = addressForm socksKinds remote := by
      rw [← htail, hlen, take_left]
    have htwo : ((input.drop size).take 2).length = 2 := by
      rw [length_take, length_drop]
      omega
    have hnumber := toBe_ofBe ((input.drop size).take 2)
    rw [htwo, hcount] at hnumber
    have hpayload : (input.drop (size + 2)).length = length := by
      rw [length_drop]
      omega
    have hmost := ofBe_two_le (input.drop size)
    refine ⟨⟨hsendable, ?_, ?_⟩, ?_⟩
    · change 1 ≤ (input.drop (size + 2)).length
      omega
    · change (input.drop (size + 2)).length ≤ 65535
      omega
    · rw [← append_nil (format.frame _), frame_append, hpayload, hnumber, ← haddr,
        append_nil, ← drop_split, take_append_drop]

/-- **A buffer that can become a datagram** tells its address, and its length. -/
theorem of_frame (hvalid : format.Valid packet) (h : format.frame packet <+: input ++ later) :
    (2 ≤ input.length → addressLen input = some (addressForm socksKinds packet.1).length) ∧
      ((addressForm socksKinds packet.1).length + 2 ≤ input.length →
        input.take (addressForm socksKinds packet.1).length = addressForm socksKinds packet.1 ∧
        ofBe ((input.drop (addressForm socksKinds packet.1).length).take 2) =
          packet.2.length) := by
  obtain ⟨rest, hrest⟩ := h
  rw [frame_append] at hrest
  constructor
  · intro hkind
    rw [← addressLen_more hkind later, ← hrest, addressLen_form hvalid.1]
  intro hheader
  have hsmall : packet.2.length < 256 ^ 2 := lt_succ_of_le hvalid.2.2
  constructor
  · have hsame : (input ++ later).take (addressForm socksKinds packet.1).length =
        input.take (addressForm socksKinds packet.1).length :=
      take_append_of_le_length (by omega)
    rw [← hsame, ← hrest, take_left]
  · rw [← take_drop_more hheader later, ← hrest, drop_left, take_toBe, ofBe_toBe hsmall]

/-- A stage of such a buffer needs no more than the datagram. -/
theorem Passes.need_le_frame (hvalid : format.Valid packet)
    (hframe : format.frame packet <+: input ++ later) (h : Passes input stage) :
    stage.need ≤ (format.frame packet).length := by
  obtain ⟨hlen, hheader⟩ := of_frame hvalid hframe
  have hlength := length_frame packet
  have hlong : 2 ≤ (format.frame packet).length := by omega
  cases h with
  | kind => exact hlong
  | header hkind hsize =>
    have hsame := some.inj (hsize.symm.trans (hlen hkind))
    simp only [Stage.need]
    omega
  | payload hkind hsize hfull haddress hcount hsome =>
    have hsame := some.inj (hsize.symm.trans (hlen hkind))
    subst hsame
    simp only [Stage.need]
    omega

/-- **A stage that waits has no datagram before it.** -/
theorem unfinished_of_waits (h : next input = .ok (.waits stage)) :
    Unfinished format.Valid format.frame input := by
  intro packet hvalid hframe
  obtain ⟨hpasses, hshort⟩ := passes_of_waits h
  have hmore : format.frame packet <+: input ++ [] := by rwa [append_nil]
  have hneed := hpasses.need_le_frame hvalid hmore
  have hle := hframe.length_le
  omega

/-- **What is refused can become no datagram.** -/
theorem hopeless_of_error {error : IoError} (h : next input = .error error) :
    Hopeless format.Valid format.frame input := by
  intro later packet hvalid hframe
  obtain ⟨hlen, hheader⟩ := of_frame hvalid hframe
  have hcomes := comes_next input
  rw [h] at hcomes
  cases hcomes with
  | unknown hkind hsize => exact absurd (hsize.symm.trans (hlen hkind)) nofun
  | invalid hkind hsize hfull haddress =>
    cases hsize.symm.trans (hlen hkind)
    have hdecode := decodeAddress_form hvalid.1 []
    rw [append_nil, ← (hheader hfull).1, haddress] at hdecode
    cases hdecode
  | empty hkind hsize hfull hlength =>
    cases hsize.symm.trans (hlen hkind)
    have hsome : 1 ≤ packet.2.length := hvalid.2.1
    omega

/-- An earlier stage needs less. -/
theorem Passes.need_le_payload {length : ℕ} (h : Passes input stage)
    (hpayload : Passes input (.payload size remote length)) : stage.need ≤ size + 2 + length := by
  cases hpayload with
  | payload _ hsize' _ _ hlength' _ =>
    cases h with
    | kind =>
      change 2 ≤ _
      omega
    | header _ hsize =>
      have hsame := some.inj (hsize.symm.trans hsize')
      change _ + 2 ≤ _
      omega
    | payload _ hsize _ _ hlength _ =>
      cases hsize.symm.trans hsize'
      change _ + 2 + _ ≤ _
      omega

end

/-! ## Steps -/

/-- A send ends well with this event. -/
def Event.finishes : Event → Bool
  | .flush (.ready ()) => true
  | _ => false

/-- The stream ends or fails, or the caller wants no more. -/
def Event.ends : Event → Bool
  | .cancel | .close | .read (.failed _) | .read (.ready []) => true
  | _ => false

/-- **What a step can do.** -/
inductive Turn (s : DatagramIo) : Event → DatagramIo → Prop
  | rests {e : Event} : Turn s e s
  | cancels : Turn s .cancel { s with cancelled := true }
  /-- a call is refused or fails, or its future is dropped -/
  | reports {e : Event} (failures : List Failure) (hfinishes : e.finishes = false) :
    Turn s e { s with failures := failures, call := none }
  | receives {e : Event} (hcall : s.call = none ∨ s.call = some .again) :
    Turn s e (s.settle (next s.input))
  | reads {answer : Answer IoError Bytes} {stage : Stage} {got : Bytes}
    (hcall : s.call = some (.receive stage)) (hgot : got.length ≤ s.request stage) :
    Turn s (.read answer)
      ({ s with input := s.input ++ got, consumed := s.consumed ++ got }.settle
        (resume stage (s.input ++ got)))
  | fails {e : Event} (error : IoError) (hcall : s.call ≠ some .write)
    (hcause : s.cancelled = true ∨ e.ends = true ∨
      ∃ stage, s.call = some (.receive stage) ∧ s.request stage = 0) :
    Turn s e (s.failReceive error)
  | resolving {datagram : Datagram} (hcall : s.call = none) (hport : datagram.remote.port ≠ 0)
    (hsome : datagram.payload ≠ []) (hfits : datagram.payload.length ≤ s.transmit) :
    Turn s (.send datagram) { s with call := some (.resolve datagram) }
  | sends {answer : Except DispatchError SocketAddr} {datagram : Datagram} {peer : SocketAddr}
    {address : Bytes} (hcall : s.call = some (.resolve datagram)) (hio : s.io = true)
    (hpeer : resolves datagram.remote peer = true)
    (haddress : encodeAddress (.ip peer) = .ok address) :
    Turn s (.resolved answer)
      { s with
        io := false
        outbox := s.outbox.start (encodePacket address datagram.payload)
        sends := s.sends ++ [(datagram.remote, peer, datagram.payload)]
        call := some .write }
  | writes {answer : Answer IoError ℕ} {count : ℕ} (hcall : s.call = some .write) :
    Turn s (.write answer) { s with outbox := s.outbox.took count }
  | sent (hcall : s.call = some .write) (hrest : s.outbox.rest = []) :
    Turn s (.flush (.ready ())) { s with first := false, io := true, call := none }
  | closes (hcall : s.call = none) : Turn s .close s.close

section

variable {s t : DatagramIo} {e : Event}

theorem turn_startReceive (hcall : s.call = none ∨ s.call = some .again) :
    Turn s e s.startReceive := by
  unfold startReceive
  split_ifs with hcancelled
  · refine .fails _ ?_ (.inl hcancelled)
    rcases hcall with hcall | hcall <;> (rw [hcall]; exact nofun)
  · exact .receives hcall

theorem turn_startSend (hcall : s.call = none) (datagram : Datagram) :
    Turn s (.send datagram) (s.startSend datagram) := by
  unfold startSend
  by_cases hbad : datagram.remote.port = 0 ∨ datagram.payload = [] ∨
      s.transmit < datagram.payload.length
  · rw [if_pos hbad]
    exact .reports _ rfl
  split_ifs with hcancelled
  · exact .reports _ rfl
  rw [not_or, not_or, not_lt] at hbad
  exact .resolving hcall hbad.1 hbad.2.1 hbad.2.2

theorem turn_read {stage : Stage} (hcall : s.call = some (.receive stage))
    (answer : Answer IoError Bytes) : Turn s (.read answer) (s.resumeReceive stage answer) := by
  have hother : s.call ≠ some .write := by
    rw [hcall]
    exact nofun
  cases answer with
  | pending => exact .rests
  | failed _ => exact .fails _ hother (.inr (.inl rfl))
  | ready bytes =>
    rw [resumeReceive]
    split_ifs with hnone
    · refine .fails _ hother (.inr ?_)
      rcases take_eq_nil_iff.mp hnone with hzero | rfl
      · exact .inr ⟨stage, hcall, hzero⟩
      · exact .inl rfl
    · exact .reads hcall (length_take_le _ _)

theorem turn_resolved {datagram : Datagram} (hcall : s.call = some (.resolve datagram))
    {answer : Except DispatchError SocketAddr} (hanswer : answers datagram answer = true) :
    Turn s (.resolved answer) (s.resumeResolve datagram answer) := by
  cases answer with
  | error _ => exact .reports _ rfl
  | ok peer =>
    change Turn s _ (s.startWrite datagram peer)
    unfold startWrite
    cases haddress : encodeAddress (.ip peer) with
    | error _ => exact .reports _ rfl
    | ok address =>
      split_ifs with hio
      · exact .sends hcall hio hanswer haddress
      · exact .reports _ rfl

theorem turn_abort (call : Call) (hcall : s.call = some call) (hcancelled : s.cancelled = true) :
    Turn s .abort (s.abort call) := by
  cases call with
  | receive _ | again =>
    refine .fails _ ?_ (.inl hcancelled)
    rw [hcall]
    exact nofun
  | resolve _ | write => exact .reports _ rfl

/-- **The inversion of a step.** -/
theorem Turn.of_step (h : s.step e = some t) : Turn s e t := by
  -- one case for each that the step function tells apart
  unfold step at h
  split at h
  next =>
    cases h
    exact .cancels
  next datagram hcall =>
    cases h
    exact turn_startSend hcall datagram
  next hcall =>
    cases h
    exact turn_startReceive (.inl hcall)
  next hcall =>
    cases h
    exact .closes hcall
  next call hcall =>
    obtain ⟨hcancelled, rfl⟩ := ite_some_none_eq_some.mp h
    exact turn_abort call hcall hcancelled
  next hcall =>
    obtain ⟨-, rfl⟩ := ite_some_none_eq_some.mp h
    exact .reports _ rfl
  next answer stage hcall =>
    cases h
    exact turn_read hcall answer
  next hcall =>
    cases h
    exact turn_startReceive (.inr hcall)
  next answer datagram hcall =>
    obtain ⟨hanswer, rfl⟩ := ite_some_none_eq_some.mp h
    exact turn_resolved hcall hanswer
  next answer hcall =>
    simp only [ite_none_left_eq_some, some.injEq] at h
    obtain ⟨-, rfl⟩ := h
    cases answer with
    | pending => exact .rests
    | failed _ => exact .reports _ rfl
    | ready count =>
      rw [resumeWrite]
      split_ifs with hzero
      · exact .reports _ rfl
      · exact .writes hcall
  next answer hcall =>
    obtain ⟨hrest, rfl⟩ := ite_some_none_eq_some.mp h
    cases answer with
    | pending => exact .rests
    | failed _ => exact .reports _ rfl
    | ready done => exact .sent hcall hrest
  next =>
    cases h
    exact .reports _ rfl
  next => cases h

end

/-! ## Receiving -/

variable {limit : ℕ} {s t : DatagramIo} {e : Event}

/-- **An association that was not closed**: it has returned what is before its
buffer. -/
structure Open (limit : ℕ) (s : DatagramIo) : Prop where
  budget : s.receive = limit
  apart : TakenApart format limit s.consumed s.returned s.input
  sound : s.malformed = false

/-- Its buffer has no datagram, and a future that waits is where one would come that
starts over. -/
def Stands (s : DatagramIo) : Prop :=
  ∃ stage, next s.input = .ok (.waits stage) ∧
    ∀ other, s.call = some (.receive other) → other = stage

/-- **An association that was closed.** -/
structure Over (limit : ℕ) (s : DatagramIo) : Prop where
  io : s.io = false
  input : s.input = []
  call : s.call = none ∨ ∃ datagram, s.call = some (.resolve datagram)
  apart : ∃ rest, TakenApart format limit s.consumed s.returned rest ∧
    (s.malformed = true → Hopeless format.Valid format.frame rest)

def Receiver (limit : ℕ) (s : DatagramIo) : Prop := Open limit s ∧ Stands s ∨ Over limit s

/-- The association is closed. -/
theorem Open.over (h : Open limit s) (failures : List Failure) :
    Over limit { s with io := false, input := [], failures := failures, call := none } where
  io := rfl
  input := rfl
  call := .inl rfl
  apart := ⟨s.input, h.apart, fun hmalformed => absurd (h.sound.symm.trans hmalformed) nofun⟩

theorem Over.closes (h : Over limit s) (failures : List Failure) :
    Over limit { s with io := false, input := [], failures := failures, call := none } :=
  { h with io := rfl, input := rfl, call := .inl rfl }

theorem stands_nil (hinput : s.input = []) (hcall : ∀ stage, s.call ≠ some (.receive stage)) :
    Stands s := by
  refine ⟨.kind, ?_, fun other hother => absurd hother (hcall other)⟩
  rw [hinput]
  rfl

/-- **What `receive` makes of where `next` came**, if the buffer has no more than one
datagram. -/
theorem Open.settle (h : Open limit s)
    (hfits : ∀ {size remote length}, Passes s.input (.payload size remote length) →
      s.input.length ≤ size + 2 + length) : Receiver limit (s.settle (next s.input)) := by
  have hcomes := comes_next s.input
  cases hnext : next s.input with
  | error error =>
    have hover := h.over (s.failures ++ [.inr error])
    refine .inr { hover with apart := ⟨s.input, h.apart, fun _ => hopeless_of_error hnext⟩ }
  | ok progress =>
    rw [hnext] at hcomes
    cases hcomes with
    | @waits stage hpasses hshort =>
      rw [DatagramIo.settle]
      split_ifs with hio
      · exact .inl ⟨{ h with }, stage, hnext, fun other hother => by cases hother; rfl⟩
      · exact .inr (h.over _)
    | @gives size length remote hpasses hfull =>
      obtain ⟨hvalid, hframe⟩ := hpasses.frame (le_antisymm (hfits hpasses) hfull)
      have hwhole : s.input = format.frame (remote, s.input.drop (size + 2)) ++ [] := by
        rw [append_nil]
        exact hframe
      have hapart := h.apart.next hvalid hwhole
      rw [← h.budget] at hapart
      rw [DatagramIo.settle]
      split_ifs at hapart ⊢ <;>
        exact .inl ⟨{ h with apart := h.budget ▸ hapart }, stands_nil rfl nofun⟩

/-- A buffer that stands has no datagram. -/
theorem Stands.fits (h : Stands s) {size length : ℕ} {remote : Destination}
    (hpasses : Passes s.input (.payload size remote length)) :
    s.input.length ≤ size + 2 + length := by
  obtain ⟨stage, hnext, -⟩ := h
  obtain ⟨hstage, hshort⟩ := passes_of_waits hnext
  have hneed := hstage.need_le_payload hpasses
  omega

theorem Stands.passes (h : Stands s) {stage : Stage} (hcall : s.call = some (.receive stage)) :
    Passes s.input stage ∧ s.input.length < stage.need := by
  obtain ⟨other, hnext, hsame⟩ := h
  obtain rfl := hsame stage hcall
  exact passes_of_waits hnext

/-- The answer to a read: no more comes than the stage needs. -/
theorem Open.reads {stage : Stage} {got : Bytes} (h : Open limit s) (hstands : Stands s)
    (hcall : s.call = some (.receive stage)) (hgot : got.length ≤ s.request stage) :
    Receiver limit
      ({ s with input := s.input ++ got, consumed := s.consumed ++ got }.settle
        (resume stage (s.input ++ got))) := by
  obtain ⟨hpasses, hshort⟩ := hstands.passes hcall
  rw [(hpasses.more got).resume_eq]
  have hread : Open limit { s with input := s.input ++ got, consumed := s.consumed ++ got } :=
    { h with apart := h.apart.read got }
  refine hread.settle fun hpayload => ?_
  have hneed := (hpasses.more got).need_le_payload hpayload
  unfold request at hgot
  rw [length_append]
  omega

theorem Over.no_receive (h : Over limit s) (stage : Stage) : s.call ≠ some (.receive stage) := by
  rcases h.call with hidle | ⟨_, hidle⟩ <;> (rw [hidle]; exact nofun)

/-- `receive` on a closed association fails. -/
theorem Over.settle (h : Over limit s) : Receiver limit (s.settle (next s.input)) := by
  have hnext : next s.input = .ok (.waits .kind) := by
    rw [h.input]
    rfl
  rw [hnext, DatagramIo.settle, if_neg (by rw [h.io]; decide)]
  exact .inr (h.closes _)

/-- **What a step does to the receiver.** -/
theorem Receiver.turn (h : Receiver limit s) (hturn : Turn s e t) : Receiver limit t := by
  rcases h with ⟨hopen, hstands⟩ | hover
  · have ⟨stage, hnext, _⟩ := hstands
    cases hturn with
    | rests => exact .inl ⟨hopen, hstands⟩
    | cancels | writes => exact .inl ⟨{ hopen with }, hstands⟩
    | reports | resolving | sends | sent => exact .inl ⟨{ hopen with }, stage, hnext, nofun⟩
    | receives => exact hopen.settle fun hpasses => hstands.fits hpasses
    | reads hcall hgot => exact hopen.reads hstands hcall hgot
    | fails => exact .inr (hopen.over _)
    | closes hcall =>
      have hover := hopen.over s.failures
      exact .inr { hover with call := .inl hcall }
  · cases hturn with
    | rests => exact .inr hover
    | cancels => exact .inr { hover with }
    | reports => exact .inr { hover with call := .inl rfl }
    | receives => exact hover.settle
    | reads hcall => exact absurd hcall (hover.no_receive _)
    | fails => exact .inr (hover.closes _)
    | @resolving datagram => exact .inr { hover with call := .inr ⟨datagram, rfl⟩ }
    | sends _ hio => cases hover.io.symm.trans hio
    | writes hcall | sent hcall =>
      rcases hover.call with hidle | ⟨_, hidle⟩ <;> cases hidle.symm.trans hcall
    | closes => exact .inr { hover with io := rfl, input := rfl }

/-! ## Sending -/

/-- A datagram as the caller gave it. -/
def asked (sent : Destination × SocketAddr × Bytes) : Packet := (sent.1, sent.2.2)

/-- And as it goes onto the stream. -/
def addressed (sent : Destination × SocketAddr × Bytes) : Packet := (.ip sent.2.1, sent.2.2)

/-- **What is written are the datagrams**, the last one perhaps not to its end; then
the stream is gone. -/
structure Sender (transmit : ℕ) (s : DatagramIo) : Prop where
  budget : s.transmit = transmit
  outbox : s.outbox.Sound
  frames : s.outbox.frames = (s.sends.map addressed).map format.frame
  peers : ∀ sent ∈ s.sends, resolves sent.1 sent.2.1 = true ∧ sent.2.2 ≠ [] ∧
    sent.2.2.length ≤ transmit
  resolving : ∀ datagram, s.call = some (.resolve datagram) →
    datagram.payload ≠ [] ∧ datagram.payload.length ≤ transmit
  clean : s.io = true → s.outbox.rest = []
  busy : s.call = some .write → s.io = false

/-- A send was given up, or the association is closed. -/
def GivenUp (s : DatagramIo) : Prop := s.io = false ∧ s.call ≠ some .write

/-- What `receive` leaves as it is. -/
structure SameSender (s t : DatagramIo) : Prop where
  transmit : t.transmit = s.transmit
  outbox : t.outbox = s.outbox
  sends : t.sends = s.sends
  consumed : t.consumed = s.consumed
  io : t.io = true → s.io = true
  call : t.call ≠ some .write ∧ ∀ datagram, t.call ≠ some (.resolve datagram)

theorem sameSender_settle (s : DatagramIo) (outcome : Except IoError Progress) :
    SameSender s (s.settle outcome) := by
  cases outcome with
  | error error => exact ⟨rfl, rfl, rfl, rfl, nofun, nofun, nofun⟩
  | ok progress =>
    cases progress with
    | waits stage =>
      rw [settle]
      split_ifs with hio
      · exact ⟨rfl, rfl, rfl, rfl, id, nofun, nofun⟩
      · exact ⟨rfl, rfl, rfl, rfl, nofun, nofun, nofun⟩
    | gives datagram =>
      rw [settle]
      split_ifs <;> exact ⟨rfl, rfl, rfl, rfl, id, nofun, nofun⟩

variable {transmit : ℕ}

theorem Sender.same (h : Sender transmit s) (hsame : SameSender s t) : Sender transmit t := by
  refine ⟨hsame.transmit.trans h.budget, ?_, ?_, ?_,
    fun datagram hcall => absurd hcall (hsame.call.2 datagram), fun hio => ?_,
    fun hcall => absurd hcall hsame.call.1⟩
  · rw [hsame.outbox]
    exact h.outbox
  · rw [hsame.outbox, hsame.sends]
    exact h.frames
  · rw [hsame.sends]
    exact h.peers
  · rw [hsame.outbox]
    exact h.clean (hsame.io hio)

/-- **What a step does to the sender.** -/
theorem Sender.turn (h : Sender transmit s) (hturn : Turn s e t) : Sender transmit t := by
  cases hturn with
  | rests => exact h
  | cancels => exact { h with }
  | reports failures hfinishes => exact { h with resolving := nofun, busy := nofun }
  | receives hcall => exact h.same (sameSender_settle _ _)
  | @reads answer stage got hcall hgot =>
    have hread : Sender transmit { s with input := s.input ++ got, consumed := s.consumed ++ got } :=
      { h with }
    exact hread.same (sameSender_settle _ _)
  | fails error hcall hcause => exact { h with resolving := nofun, clean := nofun, busy := nofun }
  | @resolving datagram hcall hport hsome hfits =>
    refine { h with resolving := fun other hother => ?_, busy := nofun }
    cases hother
    exact ⟨hsome, h.budget ▸ hfits⟩
  | @sends answer datagram peer address hcall hio hpeer haddress =>
    have hframe : encodePacket address datagram.payload =
        format.frame (.ip peer, datagram.payload) := by
      rw [encodeAddress_ok haddress]
      rfl
    refine ⟨h.budget, h.outbox.start (h.clean hio), ?_, ?_, nofun, nofun, fun _ => rfl⟩
    · change (s.outbox.start (encodePacket address datagram.payload)).frames =
        ((s.sends ++ [(datagram.remote, peer, datagram.payload)]).map addressed).map format.frame
      have hmap : (s.sends ++ [(datagram.remote, peer, datagram.payload)]).map addressed =
          s.sends.map addressed ++ [(.ip peer, datagram.payload)] := map_append
      rw [hframe, hmap]
      exact frames_start h.frames _
    · exact forall_mem_concat.mpr ⟨h.peers, hpeer, h.resolving datagram hcall⟩
  | writes hcall =>
    refine { h with outbox := h.outbox.took _, clean := fun hio => ?_ }
    exact absurd ((h.busy hcall).symm.trans hio) nofun
  | sent hcall hrest =>
    exact { h with resolving := nofun, clean := fun _ => hrest, busy := nofun }
  | closes hcall => exact { h with clean := nofun, busy := fun _ => rfl }

/-- **Nothing is written once a send was given up.** -/
theorem GivenUp.turn (h : GivenUp s) (hturn : Turn s e t) : GivenUp t ∧ t.outbox = s.outbox := by
  obtain ⟨hgone, hidle⟩ := h
  have hsettled : ∀ {u v : DatagramIo}, SameSender u v → u.io = false →
      GivenUp v ∧ v.outbox = u.outbox := by
    intro u v hsame hio
    refine ⟨⟨?_, hsame.call.1⟩, hsame.outbox⟩
    cases hv : v.io with
    | false => rfl
    | true => exact absurd (hio.symm.trans (hsame.io hv)) nofun
  cases hturn with
  | rests | cancels => exact ⟨⟨hgone, hidle⟩, rfl⟩
  | reports | resolving => exact ⟨⟨hgone, nofun⟩, rfl⟩
  | receives hcall => exact hsettled (sameSender_settle _ _) hgone
  | @reads answer stage got hcall hgot =>
    have hsame := sameSender_settle
      { s with input := s.input ++ got, consumed := s.consumed ++ got }
      (resume stage (s.input ++ got))
    have hdone := hsettled hsame hgone
    exact hdone
  | fails => exact ⟨⟨rfl, nofun⟩, rfl⟩
  | sends _ hio => cases hgone.symm.trans hio
  | writes hcall | sent hcall => exact absurd hcall hidle
  | closes => exact ⟨⟨rfl, hidle⟩, rfl⟩

/-! ## Runs -/

namespace DatagramIo

/-- `receive` waits for the stream. -/
def waiting (s : DatagramIo) : Bool :=
  match s.call with
  | some (.receive _) => true
  | _ => false

def observe (s : DatagramIo) : Observed where
  written := s.outbox.wire
  left := s.outbox.rest
  asked := s.sends.map asked
  sends := s.sends.map addressed
  consumed := s.consumed
  returned := s.returned
  queued := []
  ready := decide (s.call = none) && s.io && !s.cancelled
  sending := decide (s.call = some .write)
  waiting := s.waiting
  rejected := s.malformed

end DatagramIo

/-- The peer that a datagram for a destination goes to. -/
def Reaches (destination peer : Destination) : Prop :=
  ∃ address, peer = .ip address ∧ resolves destination address = true

/-- **A sing-mux association**, as one over a stream. -/
def association : Association DatagramIo Event where
  format := format
  transmit := UInt16.toNat
  receive := UInt16.toNat
  reaches := Reaches
  request := fun _ => []
  start := .new
  step := step
  observe := observe
  finishes := Event.finishes
  read := fun bytes => .read (.ready bytes)
  ends := Event.ends

variable {budget budget' : UInt16} {history : List (DatagramIo × Event)}

/-- **What a run keeps.** -/
theorem runs (h : association.Runs (.new budget budget') history s) :
    Receiver budget'.toNat s ∧ Sender budget.toNat s := by
  refine h.invariant (I := fun s => Receiver budget'.toNat s ∧ Sender budget.toNat s) ⟨?_, ?_⟩ ?_
  · exact .inl ⟨⟨rfl, .start _ _, rfl⟩, stands_nil rfl nofun⟩
  · exact ⟨rfl, .new, rfl, nofun, nofun, fun _ => rfl, nofun⟩
  · intro t e u ⟨hreceiver, hsender⟩ hstep
    have hturn := Turn.of_step hstep
    exact ⟨hreceiver.turn hturn, hsender.turn hturn⟩

theorem GivenUp.run (h : GivenUp s) (hrun : association.Runs s history t) : t.outbox = s.outbox :=
  hrun.kept h fun _ _ _ hu hstep => hu.turn (Turn.of_step hstep)

/-- A send was given up if its call is gone and it has not ended well. -/
theorem givenUp_of_turn (hsender : Sender transmit s) (hcall : s.call = some .write)
    (hturn : Turn s e t) (hgone : t.call ≠ some .write) (hfinishes : e.finishes = false) :
    GivenUp t ∧ t.outbox = s.outbox := by
  have hio := hsender.busy hcall
  cases hturn with
  | rests | cancels | writes => exact absurd hcall hgone
  | reports => exact ⟨⟨hio, nofun⟩, rfl⟩
  | receives hidle =>
    rcases hidle with hidle | hidle <;> cases hidle.symm.trans hcall
  | reads hother | sends hother => cases hother.symm.trans hcall
  | fails _ hother => exact absurd hcall hother
  | resolving hidle | closes hidle => cases hidle.symm.trans hcall
  | sent => exact absurd hfinishes nofun

/-- **An association that goes on**: it has its stream, or a send has it. -/
def Going (s : DatagramIo) : Prop :=
  s.malformed = true ∨ (s.io = true ∨ s.call = some .write) ∧ s.cancelled = false

theorem going_settle (h : Going s) (hcall : s.call ≠ some .write)
    (outcome : Except IoError Progress) : Going (s.settle outcome) := by
  rcases outcome with _ | _ | datagram
  · exact .inl rfl
  · rw [settle]
    split_ifs with hio
    · exact h.imp_right fun hgoes => ⟨.inl hio, hgoes.2⟩
    · exact h.imp_right fun hgoes => absurd (hgoes.1.resolve_right hcall) hio
  · rw [settle]
    split_ifs <;> exact h.imp_right fun hgoes => ⟨.inl (hgoes.1.resolve_right hcall), hgoes.2⟩

/-- **It goes on until it is cut.** -/
theorem Going.step (h : Going s) (hreceiver : Receiver limit s) (hstep : s.step e = some t)
    (huncut : ¬ association.Cuts (s, e)) : Going t := by
  cases Turn.of_step hstep with
  | rests => exact h
  | cancels | closes => exact absurd (.inl rfl) huncut
  | reports failures hfinishes =>
    refine h.imp_right fun hgoes => ⟨.inl (hgoes.1.resolve_right fun hcall => huncut ?_), hgoes.2⟩
    exact .inr ⟨decide_eq_true hcall, hfinishes, _, hstep, rfl⟩
  | receives hcall =>
    refine going_settle h ?_ _
    rcases hcall with hcall | hcall <;> (rw [hcall]; exact nofun)
  | @reads _ _ got hcall _ =>
    have hread : Going { s with input := s.input ++ got, consumed := s.consumed ++ got } := h
    exact going_settle hread (by simp [hcall]) _
  | fails error hcall hcause =>
    refine h.imp_right fun hgoes => ?_
    rcases hcause with hcancelled | hends | ⟨stage, hstage, hzero⟩
    · cases hgoes.2.symm.trans hcancelled
    · exact absurd (.inl hends) huncut
    rcases hreceiver with ⟨-, hstands⟩ | hover
    · have hshort := (hstands.passes hstage).2
      unfold request at hzero
      omega
    · exact absurd hstage (hover.no_receive _)
  | resolving hcall =>
    exact h.imp_right fun hgoes => ⟨.inl (hgoes.1.resolve_right (by simp [hcall])), hgoes.2⟩
  | sends => exact h.imp_right fun hgoes => ⟨.inr rfl, hgoes.2⟩
  | writes hcall => exact h.imp_right fun hgoes => ⟨.inr hcall, hgoes.2⟩
  | sent => exact h.imp_right fun hgoes => ⟨.inl rfl, hgoes.2⟩

/-- It comes to wait. -/
theorem exec_receive (hio : s.io = true) (hlive : s.cancelled = false) (hstands : Stands s) :
    ∃ events t, exec step s events = some t ∧ t.consumed = s.consumed ∧ t.waiting = true := by
  obtain ⟨stage, hnext, -⟩ := hstands
  have hreceive : step { s with call := none } .receive =
      some { s with call := some (.receive stage) } := by
    simp [step, startReceive, hlive, hnext, settle, hio]
  cases hcall : s.call with
  | none =>
    rw [show s = { s with call := none } by rw [← hcall]]
    exact ⟨[.receive], _, exec_cons hreceive, rfl, rfl⟩
  | some call =>
    have hdrop : s.step .drop = some { s with call := none } := by simp [step, hcall]
    exact ⟨[.drop, .receive], _, (exec_cons hdrop).trans (exec_cons hreceive), rfl, rfl⟩

theorem step_send (hcall : s.call = none) (hlive : s.cancelled = false) {packet : Packet}
    (hvalid : format.Valid packet) (hfits : packet.2.length ≤ s.transmit) :
    s.step (.send ⟨packet.1, packet.2, none⟩) =
      some { s with call := some (.resolve ⟨packet.1, packet.2, none⟩) } := by
  have hgood : ¬ (packet.1.port = 0 ∨ packet.2 = [] ∨ s.transmit < packet.2.length) := by
    have hsome : 1 ≤ packet.2.length := hvalid.2.1
    rintro (hzero | hnil | hlong)
    · exact hvalid.1.port_ne_zero hzero
    · rw [hnil] at hsome
      exact absurd hsome (by decide)
    · omega
  have hstep : s.step (.send ⟨packet.1, packet.2, none⟩) =
      some (s.startSend ⟨packet.1, packet.2, none⟩) := by
    unfold step
    rw [hcall]
  rw [hstep, startSend, if_neg hgood, hlive]
  rfl

theorem step_resolved (datagram : Datagram) {address : SocketAddr}
    (hcall : s.call = some (.resolve datagram)) (hio : s.io = true)
    (hresolves : resolves datagram.remote address = true) :
    s.step (.resolved (.ok address)) =
      some { s with
        io := false
        outbox := s.outbox.start (format.frame (.ip address, datagram.payload))
        sends := s.sends ++ [(datagram.remote, address, datagram.payload)]
        call := some .write } := by
  have hstep : s.step (.resolved (.ok address)) = some (s.startWrite datagram address) := by
    unfold step
    rw [hcall]
    exact if_pos hresolves
  have haddress : encodeAddress (.ip address) = .ok (addressForm socksKinds (.ip address)) := by
    rcases address with ⟨_ | _, port⟩ <;> rfl
  rw [hstep, startWrite, haddress]
  simp only [if_pos hio]
  rfl

theorem step_flush (hcall : s.call = some .write) (answer : Answer IoError Unit) :
    s.step (.flush answer) =
      if s.outbox.rest = [] then some (s.resumeFlush answer) else none := by
  unfold step
  rw [hcall]

/-- The stream takes the rest of a frame. -/
theorem exec_drain (hcall : s.call = some .write) (hrest : s.outbox.rest ≠ []) :
    exec step s [.write (.ready s.outbox.rest.length), .flush (.ready ())] =
      some (resumeFlush { s with outbox := s.outbox.took s.outbox.rest.length } (.ready ())) := by
  have hsome : s.outbox.rest.length ≠ 0 := mt length_eq_zero_iff.mp hrest
  have hwrite : s.step (.write (.ready s.outbox.rest.length)) =
      some { s with outbox := s.outbox.took s.outbox.rest.length } := by
    unfold step
    rw [hcall]
    refine (if_neg hrest).trans ?_
    rw [resumeWrite, min_self, if_neg hsome, hcall]
  refine (exec_cons hwrite).trans (exec_cons ?_)
  rw [step_flush (by exact hcall), if_pos s.outbox.rest_took_all]

/-- A valid datagram is sent where the stream takes it. -/
theorem send_accepted (hready : s.observe.ready = true) {packet : Packet} {peer : Destination}
    (hvalid : format.Valid packet) (hfits : packet.2.length ≤ s.transmit)
    (hpeer : Reaches packet.1 peer) :
    ∃ events t, exec step s events = some t ∧
      t.observe.sends = s.observe.sends ++ [(peer, packet.2)] ∧ t.observe.left = [] ∧
      t.observe.ready = true := by
  simp only [observe, Bool.and_eq_true, decide_eq_true_eq, Bool.not_eq_true'] at hready
  obtain ⟨⟨hcall, hio⟩, hlive⟩ := hready
  obtain ⟨address, rfl, hresolves⟩ := hpeer
  have hresolve := step_resolved (s := { s with call := some (.resolve ⟨packet.1, packet.2, none⟩) })
    _ rfl hio hresolves
  refine ⟨[.send ⟨packet.1, packet.2, none⟩, .resolved (.ok address),
    .write (.ready (format.frame (.ip address, packet.2)).length), .flush (.ready ())], _,
    (exec_cons (step_send hcall hlive hvalid hfits)).trans ((exec_cons hresolve).trans
      (exec_drain rfl (format.frame_ne_nil _))), ?_, Outbox.rest_took_all _, ?_⟩
  · change (s.sends ++ [(packet.1, address, packet.2)]).map addressed = _
    rw [map_append]
    rfl
  · change (true && true && !s.cancelled) = true
    rw [hlive]
    rfl

theorem port_of_resolves {destination : Destination} {address : SocketAddr}
    (h : resolves destination address = true) : address.port = destination.port := by
  cases destination with
  | ip other =>
    rw [show address = other from of_decide_eq_true h]
    rfl
  | domain host port => exact of_decide_eq_true h

/-- **A sing-mux association is faithful.** -/
theorem faithful : association.Faithful where
  received := by
    intro _ _ _ s hrun
    obtain ⟨hreceiver, -⟩ := runs hrun
    change ∃ rest, TakenApart format _ s.consumed (s.returned ++ []) rest ∧ _
    rw [append_nil]
    rcases hreceiver with ⟨hopen, stage, hnext, -⟩ | hover
    · refine ⟨s.input, hopen.apart, fun _ => ⟨rfl, unfinished_of_waits hnext⟩, fun hrejected => ?_⟩
      cases hopen.sound.symm.trans hrejected
    obtain ⟨rest, hrest, hhopeless⟩ := hover.apart
    refine ⟨rest, hrest, fun hwaiting => ?_, hhopeless⟩
    change s.waiting = true at hwaiting
    unfold waiting at hwaiting
    split at hwaiting
    · exact absurd ‹_› (hover.no_receive _)
    · cases hwaiting
  takes := by
    intro _ _ _ s hrun hwaiting bytes hbytes
    obtain ⟨hreceiver, -⟩ := runs hrun
    change s.waiting = true at hwaiting
    unfold waiting at hwaiting
    split at hwaiting
    · next stage hcall =>
      have hroom : s.request stage ≠ 0 := by
        rcases hreceiver with ⟨-, hstands⟩ | hover
        · have hshort := (hstands.passes hcall).2
          unfold request
          omega
        · exact absurd hcall (hover.no_receive _)
      have hgot : bytes.take (s.request stage) ≠ [] := by simp [take_eq_nil_iff, hroom, hbytes]
      refine ⟨_, s.resumeReceive stage (.ready bytes), hgot, take_prefix _ _, ?_, ?_⟩
      · change s.step (.read (.ready bytes)) = _
        simp [step, hcall]
      · rw [resumeReceive, if_neg hgot]
        exact (sameSender_settle _ _).consumed
    · cases hwaiting
  settles := by
    intro _ _ _ s hrun hsending
    have hidle : s.call ≠ some .write := of_decide_eq_false hsending
    have hgoes := hrun.until_cut (I := Going) (.inr ⟨.inl rfl, rfl⟩)
      fun hpast hu hstep huncut => hu.step (runs hpast).1 hstep huncut
    rcases hgoes with (hmalformed | ⟨hio, hlive⟩) | hcut
    · exact .inr ⟨[], s, rfl, rfl, .inr hmalformed⟩
    · have hopen := hio.resolve_right hidle
      rcases (runs hrun).1 with ⟨-, hstands⟩ | hover
      · obtain ⟨events, t, hexec, hconsumed, hwaits⟩ := exec_receive hopen hlive hstands
        exact .inr ⟨events, t, hexec, hconsumed, .inl hwaits⟩
      · cases hover.io.symm.trans hopen
    · exact .inl hcut
  accepted := fun hrun hready packet peer hvalid hfits hpeer => by
    obtain ⟨-, hsender⟩ := runs hrun
    exact send_accepted hready hvalid (hsender.budget ▸ hfits) hpeer
  written := fun hrun => by
    obtain ⟨-, hsender⟩ := runs hrun
    have hall := hsender.outbox.all
    rw [hsender.frames] at hall
    exact hall
  addressed := by
    intro _ _ _ s hrun
    obtain ⟨-, hsender⟩ := runs hrun
    change List.Forall₂ _ (s.sends.map asked) (s.sends.map addressed)
    rw [forall₂_map_left_iff, forall₂_map_right_iff]
    refine forall₂_same.mpr fun sent hmem => ⟨⟨sent.2.1, rfl, ?_⟩, rfl⟩
    exact (hsender.peers sent hmem).1
  valid := by
    intro transmit _ _ s hrun hasked packet hmem
    obtain ⟨-, hsender⟩ := runs hrun
    obtain ⟨sent, hsent, rfl⟩ := mem_map.mp hmem
    obtain ⟨hresolves, hsome, hfits⟩ := hsender.peers sent hsent
    have hport := (hasked (asked sent) (mem_map_of_mem hsent)).port_ne_zero
    refine ⟨?_, length_pos_iff.mpr hsome, hfits.trans (le_of_lt_succ transmit.toNat_lt)⟩
    change sent.2.1.port ≠ 0
    rw [port_of_resolves hresolves]
    exact hport
  finished := by
    intro _ _ _ s t e hrun hsending hstep hfinishes
    have hcall : s.call = some .write := of_decide_eq_true hsending
    match e, hfinishes with
    | .flush (.ready ()), _ =>
      obtain ⟨hrest, rfl⟩ := ite_some_none_eq_some.mp ((step_flush hcall _).symm.trans hstep)
      exact hrest
  stopped := fun hrun hsending hstep hgone hfinishes hlater => by
    obtain ⟨-, hsender⟩ := runs hrun
    obtain ⟨hgiven, hsame⟩ := givenUp_of_turn hsender (of_decide_eq_true hsending)
      (Turn.of_step hstep) (of_decide_eq_false hgone) hfinishes
    exact congrArg Outbox.wire ((hgiven.run hlater).trans hsame)

end Vole.SingMux
