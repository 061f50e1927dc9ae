import Vole.Datagram.Faithful
import Vole.Datagram.Model.Trojan

/-!
# A Trojan association

`packet` takes a datagram off the buffer if one is there, however much came after
it (`packet_frame`), takes nothing else (`packet_some`), and refuses only what can
never become one (`packet_error`). So `receive` takes the stream apart, wherever it
was dropped, and its buffer has room for every datagram.
-/

namespace Vole.Trojan

open UdpStream Transport List Option

/-- How Trojan writes datagrams. -/
def format : Format := ⟨socksKinds, [13, 10], 0, maxDatagramPayload, by decide⟩

/-! ## One datagram -/

variable {wire : Bytes} {error : IoError} {payload : Bytes}

/-- What follows an address. -/
def sized (payload rest : Bytes) : Bytes :=
  toBe 2 payload.length ++ ([13, 10] ++ (payload ++ rest))

theorem afterAddress_form (remote : Destination) (address : Bytes) (rest : Bytes)
    (hpayload : payload.length ≤ maxDatagramPayload) :
    afterAddress remote address.length (address ++ sized payload rest) =
      .ok (some (⟨remote, payload, none⟩, rest)) := by
  have hsmall : payload.length < 256 ^ 2 := by
    unfold maxDatagramPayload at hpayload
    omega
  have hlength : (toBe 2 payload.length).length = 2 := length_toBe _ _
  have hheader : (address ++ sized payload rest).drop address.length = sized payload rest :=
    drop_left
  have hnumber : ofBe ((sized payload rest).take 2) = payload.length := by
    rw [sized, take_toBe, ofBe_toBe hsmall]
  have hmark : (address ++ sized payload rest).drop (address.length + 2) =
      [13, 10] ++ (payload ++ rest) := by
    rw [← drop_drop, hheader, sized, drop_append_of_le_length (Nat.le_of_eq hlength.symm),
      drop_of_length_le (Nat.le_of_eq hlength), nil_append]
  have hafter : (address ++ sized payload rest).drop (address.length + 4) = payload ++ rest := by
    rw [show address.length + 4 = address.length + 2 + 2 from rfl, ← drop_drop, hmark]
    rfl
  have hlong : (address ++ sized payload rest).length =
      address.length + 4 + payload.length + rest.length := by
    simp only [sized, length_append, hlength, length_cons, length_nil]
    omega
  unfold afterAddress
  rw [hlong, hheader, hnumber, hmark, hafter, if_neg (by omega), if_neg, if_neg (by omega),
    take_left, ← drop_drop, hafter, drop_left]
  rintro (hover | hother)
  · exact Nat.not_lt.mpr hpayload hover
  · exact hother rfl

theorem frame_append (destination : Destination) (payload rest : Bytes) :
    format.frame (destination, payload) ++ rest =
      addressForm socksKinds destination ++ sized payload rest := by
  simp only [Format.frame, append_assoc]
  rfl

/-- **A datagram that is there is taken**, whatever follows. -/
theorem packet_frame {destination : Destination}
    (h : format.Valid (destination, payload)) (rest : Bytes) :
    packet (format.frame (destination, payload) ++ rest) =
      .ok (some (⟨destination, payload, none⟩, rest)) := by
  rw [frame_append]
  unfold packet
  rw [decodeAddress_form h.1]
  exact afterAddress_form destination _ rest h.2.2

/-- **What is taken is a datagram.** -/
theorem packet_some {wire rest : Bytes} {datagram : Datagram}
    (h : packet wire = .ok (some (datagram, rest))) :
    format.Valid (datagram.remote, datagram.payload) ∧
      wire = format.frame (datagram.remote, datagram.payload) ++ rest := by
  unfold packet at h
  rcases haddress : decodeAddress wire with error | ⟨remote, size⟩
  · rw [haddress] at h
    cases error <;> cases h
  rw [haddress] at h
  obtain ⟨hsendable, hsize, hform⟩ := decodeAddress_ok haddress
  change afterAddress remote size wire = _ at h
  unfold afterAddress at h
  split_ifs at h with hheader hbad hshort
  · cases h
  · cases h
  obtain ⟨hdatagram, hrest⟩ := Prod.mk.inj (some.inj (Except.ok.inj h))
  subst hdatagram hrest
  rw [not_or, not_not, Nat.not_lt] at hbad
  have hnumber : ((wire.drop size).take 2).length = 2 := by
    rw [length_take, length_drop]
    omega
  have hback := toBe_ofBe ((wire.drop size).take 2)
  rw [hnumber] at hback
  generalize hcount : ofBe ((wire.drop size).take 2) = count at *
  have hpayload : ((wire.drop (size + 4)).take count).length = count := by
    rw [length_take, length_drop]
    omega
  refine ⟨⟨hsendable, Nat.zero_le _, ?_⟩, ?_⟩
  · change ((wire.drop (size + 4)).take count).length ≤ maxDatagramPayload
    rw [hpayload]
    exact hbad.1
  rw [frame_append, sized, hpayload, hback, ← hform, ← hbad.2]
  -- the wire, part by part
  calc wire = wire.take size ++ wire.drop size := (take_append_drop _ _).symm
    _ = wire.take size ++ ((wire.drop size).take 2 ++ wire.drop (size + 2)) :=
      congrArg _ (drop_split wire size 2)
    _ = wire.take size ++ ((wire.drop size).take 2 ++ ((wire.drop (size + 2)).take 2 ++
        wire.drop (size + 4))) :=
      congrArg _ (congrArg _ (drop_split wire (size + 2) 2))
    _ = _ := congrArg _ (congrArg _ (congrArg _ (drop_split wire (size + 4) count)))

/-- **What is refused is refused, whatever follows.** -/
theorem packet_error (h : packet wire = .error error)
    (more : Bytes) : packet (wire ++ more) = .error error := by
  unfold packet at h ⊢
  rcases haddress : decodeAddress wire with reason | ⟨remote, size⟩
  · rw [haddress] at h
    cases reason with
    | truncated => cases h
    | _ =>
      rw [decodeAddress_error haddress nofun]
      exact h
  · rw [haddress] at h
    obtain ⟨hsendable, hsize, hform⟩ := decodeAddress_ok haddress
    have hmore : decodeAddress (wire ++ more) = .ok (remote, size) := by
      have hlength : size = (addressForm socksKinds remote).length := by
        rw [← hform, length_take]
        omega
      obtain ⟨rest, hrest⟩ : addressForm socksKinds remote <+: wire ++ more := by
        rw [← hform]
        exact (List.take_prefix _ _).trans (prefix_append _ _)
      rw [← hrest, decodeAddress_form hsendable, ← hlength]
    rw [hmore]
    simp only [afterAddress] at h ⊢
    split_ifs at h with hheader hbad hshort
    rw [if_neg (by rw [length_append]; omega), take_drop_more (by omega),
      take_drop_more (by omega), if_pos hbad]
    exact h

theorem hopeless_of_error (h : packet wire = .error error) :
    Hopeless format.Valid format.frame wire := by
  rintro more ⟨destination, payload⟩ hvalid ⟨rest, hrest⟩
  have hpacket := packet_error h more
  rw [← hrest, packet_frame hvalid] at hpacket
  cases hpacket

theorem unfinished_of_none (h : packet wire = .ok none) :
    Unfinished format.Valid format.frame wire := by
  rintro ⟨destination, payload⟩ hvalid ⟨rest, hrest⟩
  rw [← hrest, packet_frame hvalid] at h
  cases h

/-- **A datagram that is not there yet has room in the buffer.** -/
theorem length_of_none (h : packet wire = .ok none) : wire.length < maxFrameBytes := by
  unfold packet at h
  rcases haddress : decodeAddress wire with error | ⟨remote, size⟩
  · rw [haddress] at h
    cases error with
    | truncated =>
      have hlength := length_of_truncated haddress
      unfold maxFrameBytes maxDatagramPayload
      omega
    | _ =>
      cases h
  · rw [haddress] at h
    obtain ⟨hsendable, hsize, hform⟩ := decodeAddress_ok haddress
    have hlength := length_addressForm_le socksKinds hsendable
    rw [← hform, length_take] at hlength
    change afterAddress remote size wire = _ at h
    unfold afterAddress at h
    unfold maxFrameBytes
    split_ifs at h with hheader hbad hshort
    · omega
    · rw [not_or, Nat.not_lt] at hbad
      omega
    · cases h

/-! ## Steps -/

/-- A send ends well with this event. -/
def Event.finishes : Event → Bool
  | .flush (.ready ()) => true
  | _ => false

/-- The stream ends or fails with this event, or the caller closes. -/
def Event.ends : Event → Bool
  | .close | .read (.failed _) | .read (.ready []) => true
  | _ => false

/-- **What a step can do.** -/
inductive Turn (s : Transport) : Event → Transport → Prop
  /-- a call is refused, or the stream is not ready -/
  | rests {e : Event} (failures : List IoError) : Turn s e { s with failures := failures }
  /-- a call finds that a send was given up -/
  | refuses {e : Event} (failures : List IoError) (hcall : s.call = none)
    (hgiven : s.sendIncomplete = true) : Turn s e { s with stream := false, failures := failures }
  | receives {e : Event}
    (hidle : s.call = none ∧ s.stream = true ∧ s.sendIncomplete = false ∨
      s.call = some .yielded) : Turn s e (receiveLoop ioPollBudget s)
  | reads {answer : Answer IoError Bytes} {left : ℕ} {got : Bytes}
    (hcall : s.call = some (.receive left)) (hgot : got.length ≤ s.remaining) :
    Turn s (.read answer)
      (receiveLoop left { s with wire := s.wire ++ got, consumed := s.consumed ++ got })
  | fails {answer : Answer IoError Bytes} {left : ℕ} (error : IoError)
    (hcall : s.call = some (.receive left)) (hends : (Event.read answer).ends = true) :
    Turn s (.read answer) (s.failReceive error)
  | sends {datagram : Datagram} {address : Bytes} (hopen : s.stream = true)
    (hclean : s.sendIncomplete = false) (hcall : s.call = none)
    (hsize : datagram.payload.length ≤ s.transmit) (hport : datagram.remote.port ≠ 0)
    (haddress : encodeAddress datagram.remote = .ok address) :
    Turn s (.send datagram)
      { s with
        sendIncomplete := true
        outbox := s.outbox.start (encodePacket address datagram.payload)
        sends := s.sends ++ [(datagram.remote, datagram.payload)]
        call := some .send }
  | writes {answer : Answer IoError ℕ} {count : ℕ} (hcall : s.call = some .send) :
    Turn s (.write answer) { s with outbox := s.outbox.took count }
  /-- a call fails, or its future is dropped -/
  | stops {e : Event} (failures : List IoError) (hcall : s.call ≠ none)
    (hfinishes : e.finishes = false) : Turn s e { s with failures := failures, call := none }
  | sent (hcall : s.call = some .send) (hrest : s.outbox.rest = []) :
    Turn s (.flush (.ready ())) { s with sendIncomplete := false, call := none }
  | closes (hcall : s.call = none) : Turn s .close s.close

section

variable {s t : Transport} {e : Event}

theorem checkOpen_given (h : s.sendIncomplete = true) :
    s.checkOpen = (false, { s with stream := false }) := by
  unfold checkOpen
  rw [if_pos h]

theorem checkOpen_clean (h : s.sendIncomplete = false) : s.checkOpen = (s.stream, s) := by
  unfold checkOpen
  rw [if_neg (by rw [h]; decide)]

theorem turn_startSend (hcall : s.call = none) (datagram : Datagram) :
    Turn s (.send datagram) (s.startSend datagram) := by
  unfold startSend
  by_cases hgiven : s.sendIncomplete = true
  · rw [checkOpen_given hgiven]
    exact .refuses _ hcall hgiven
  have hclean := Bool.not_eq_true _ ▸ hgiven
  rw [checkOpen_clean hclean]
  cases hopen : s.stream with
  | false => exact .rests _
  | true =>
    dsimp only
    split_ifs with hbad
    · exact .rests _
    rw [not_or, Nat.not_lt] at hbad
    cases haddress : encodeAddress datagram.remote with
    | error _ => exact .rests _
    | ok address => exact .sends hopen hclean hcall hbad.1 hbad.2 haddress

theorem turn_startReceive (hcall : s.call = none) : Turn s .receive s.startReceive := by
  unfold startReceive
  by_cases hgiven : s.sendIncomplete = true
  · rw [checkOpen_given hgiven]
    exact .refuses _ hcall hgiven
  have hclean := Bool.not_eq_true _ ▸ hgiven
  rw [checkOpen_clean hclean]
  cases hopen : s.stream with
  | false => exact .rests _
  | true => exact .receives (.inl ⟨hcall, hopen, hclean⟩)

theorem turn_read {left : ℕ} (hcall : s.call = some (.receive left))
    (hroom : 0 < s.remaining) (answer : Answer IoError Bytes) :
    Turn s (.read answer) (s.resumeReceive left answer) := by
  cases answer with
  | pending => exact .rests _
  | failed _ => exact .fails _ hcall rfl
  | ready bytes =>
    rw [resumeReceive]
    split_ifs with hnone
    · rcases take_eq_nil_iff.mp hnone with hzero | rfl
      · omega
      · exact .fails _ hcall rfl
    · exact .reads hcall (length_take_le _ _)

/-- **The inversion of a step**, where a receiver that waits has room. -/
theorem Turn.of_step (hroom : ∀ left, s.call = some (.receive left) → 0 < s.remaining)
    (h : s.step e = some t) : Turn s e t := by
  unfold Transport.step at h
  split at h
  next datagram hcall =>
    cases h
    exact turn_startSend hcall datagram
  next hcall =>
    cases h
    exact turn_startReceive hcall
  next hcall =>
    cases h
    exact .closes hcall
  next answer left hcall =>
    cases h
    exact turn_read hcall (hroom left hcall) answer
  next hcall =>
    cases h
    exact .receives (.inr hcall)
  next answer hcall =>
    simp only [ite_none_left_eq_some, some.injEq] at h
    obtain ⟨-, rfl⟩ := h
    cases answer with
    | pending => exact .rests _
    | failed _ => exact .stops _ (by simp [hcall]) rfl
    | ready count =>
      rw [resumeWrite]
      split_ifs with hzero
      · exact .stops _ (by simp [hcall]) rfl
      · exact .writes hcall
  next answer hcall =>
    obtain ⟨hrest, rfl⟩ := ite_some_none_eq_some.mp h
    cases answer with
    | pending => exact .rests _
    | failed _ => exact .stops _ (by simp [hcall]) rfl
    | ready done => exact .sent hcall hrest
  next hcall =>
    cases h
    exact .stops _ (by simp [hcall]) rfl
  next => cases h

end

/-! ## Receiving -/

variable {limit : ℕ} {s t : Transport} {e : Event}

/-- **An open association**: it has returned what is before its buffer. -/
structure Open (limit : ℕ) (s : Transport) : Prop where
  stream : s.stream = true
  budget : s.receive = limit
  apart : TakenApart format limit s.consumed s.returned s.wire
  small : s.wire.length ≤ maxFrameBytes
  sound : s.malformed = false

/-- `receive` waits for the stream. -/
def Transport.waiting (s : Transport) : Bool :=
  match s.call with
  | some (.receive _) => true
  | _ => false

/-- It waits only for a datagram that is not there. -/
def Waits (s : Transport) : Prop := ∀ left, s.call = some (.receive left) → packet s.wire = .ok none

/-- **An association that is over.** -/
structure Over (limit : ℕ) (s : Transport) : Prop where
  stream : s.stream = false
  call : s.call = none
  apart : ∃ rest, TakenApart format limit s.consumed s.returned rest ∧
    (s.malformed = true → Hopeless format.Valid format.frame rest)
  small : s.wire.length ≤ maxFrameBytes

def Receiver (limit : ℕ) (s : Transport) : Prop := Open limit s ∧ Waits s ∨ Over limit s

/-- **A receiver that waits has room**: the difference does not underflow. -/
theorem Receiver.room (h : Receiver limit s) {left : ℕ} (hcall : s.call = some (.receive left)) :
    0 < s.remaining := by
  rcases h with ⟨-, hwaits⟩ | hover
  · have hshort := length_of_none (hwaits left hcall)
    unfold remaining
    omega
  · rw [hover.call] at hcall
    cases hcall

theorem Receiver.waits (h : Receiver limit s) (hwaiting : s.waiting = true) : 0 < s.remaining := by
  unfold Transport.waiting at hwaiting
  split at hwaiting
  · exact h.room ‹_›
  · cases hwaiting

/-- **The loop of `receive`**: it stops only for what is no datagram. A round that does
not wait takes something off the buffer. -/
theorem Open.receiveLoop (h : Open limit s) (left : ℕ) :
    (Open limit (receiveLoop left s) ∧ Waits (receiveLoop left s) ∧
        ((receiveLoop left s).waiting = true ∨ (receiveLoop left s).wire.length ≤ s.wire.length ∧
          (left ≠ 0 → (receiveLoop left s).wire.length < s.wire.length))) ∨
      Over limit (receiveLoop left s) ∧ (receiveLoop left s).malformed = true := by
  induction left generalizing s with
  | zero => exact .inl ⟨{ h with }, nofun, .inr ⟨Nat.le_refl _, fun hzero => absurd rfl hzero⟩⟩
  | succ left ih =>
    unfold Trojan.Transport.receiveLoop
    cases hpacket : packet s.wire with
    | error error =>
      exact .inr ⟨⟨rfl, rfl, ⟨s.wire, h.apart, fun _ => hopeless_of_error hpacket⟩, h.small⟩, rfl⟩
    | ok taken =>
      cases taken with
      | none =>
        have hshort := length_of_none hpacket
        have hroom : s.remaining ≠ 0 := by
          unfold remaining
          omega
        simp only [if_neg hroom]
        exact .inl ⟨{ h with }, fun _ _ => hpacket, .inl rfl⟩
      | some taken =>
        obtain ⟨datagram, rest⟩ := taken
        obtain ⟨hvalid, hwire⟩ := packet_some hpacket
        have hnext := h.apart.next hvalid hwire
        have hless : rest.length < s.wire.length := by
          have hlength := congrArg List.length hwire
          have hsome := length_pos_iff.mpr (format.frame_ne_nil (datagram.remote, datagram.payload))
          rw [length_append] at hlength
          omega
        have hshorter := (Nat.le_of_lt hless).trans h.small
        rw [← h.budget] at hnext
        dsimp only
        split_ifs at hnext ⊢
        · exact .inl ⟨⟨h.stream, h.budget, h.budget ▸ hnext, hshorter, h.sound⟩, nofun,
            .inr ⟨Nat.le_of_lt hless, fun _ => hless⟩⟩
        · have hrest : Open limit { s with wire := rest } :=
            ⟨h.stream, h.budget, h.budget ▸ hnext, hshorter, h.sound⟩
          refine (ih hrest).imp_left ?_
          refine And.imp_right (And.imp_right (Or.imp_right fun hle => ?_))
          exact ⟨hle.1.trans (Nat.le_of_lt hless), fun _ => hle.1.trans_lt hless⟩

/-- The stream goes, and with it the association. -/
theorem Open.over (h : Open limit s) (wire : Bytes) (hwire : wire.length ≤ maxFrameBytes) :
    Over limit { s with stream := false, wire := wire, call := none } where
  stream := rfl
  call := rfl
  apart := ⟨s.wire, h.apart, fun hmalformed => absurd (h.sound.symm.trans hmalformed) nofun⟩
  small := hwire

theorem Open.loops (h : Open limit s) (left : ℕ) : Receiver limit (Transport.receiveLoop left s) :=
  (h.receiveLoop left).imp (fun hopen => ⟨hopen.1, hopen.2.1⟩) fun hover => hover.1

/-- No more is read than there is room for. -/
theorem Open.read {left : ℕ} {got : Bytes} (h : Open limit s) (hwaits : Waits s)
    (hcall : s.call = some (.receive left)) (hgot : got.length ≤ s.remaining) :
    Open limit { s with wire := s.wire ++ got, consumed := s.consumed ++ got } := by
  refine { h with apart := h.apart.read got, small := ?_ }
  have hshort := length_of_none (hwaits left hcall)
  unfold remaining at hgot
  rw [length_append]
  omega

/-- **What a step does to the receiver.** -/
theorem Receiver.turn (h : Receiver limit s) (hturn : Turn s e t) : Receiver limit t := by
  rcases h with ⟨hopen, hwaits⟩ | hover
  · cases hturn with
    | rests | writes => exact .inl ⟨{ hopen with }, hwaits⟩
    | refuses _ hcall _ => exact .inr { hopen.over s.wire hopen.small with call := hcall }
    | receives => exact hopen.loops _
    | reads hcall hgot => exact (hopen.read hwaits hcall hgot).loops _
    | fails => exact .inr { hopen.over s.wire hopen.small with }
    | sends | stops | sent => exact .inl ⟨{ hopen with }, nofun⟩
    | closes hcall => exact .inr { hopen.over [] (Nat.zero_le _) with call := hcall }
  · cases hturn with
    | rests | writes => exact .inr { hover with }
    | refuses => exact .inr { hover with stream := rfl }
    | receives hidle =>
      rcases hidle with ⟨-, hstream, -⟩ | hcall
      · cases hover.stream.symm.trans hstream
      · cases hover.call.symm.trans hcall
    | reads hcall | fails _ hcall | sent hcall => cases hover.call.symm.trans hcall
    | sends hstream => cases hover.stream.symm.trans hstream
    | stops _ hcall => exact absurd hover.call hcall
    | closes => exact .inr { hover with stream := rfl, small := Nat.zero_le _ }

/-! ## Sending -/

/-- **What is written are the datagrams**, the last one perhaps not to its end; that
is remembered. -/
structure Sender (transmit : ℕ) (s : Transport) : Prop where
  budget : s.transmit = transmit
  outbox : s.outbox.Sound
  frames : s.outbox.frames = s.sends.map format.frame
  fits : ∀ packet ∈ s.sends, packet.2.length ≤ transmit
  clean : s.sendIncomplete = false → s.outbox.rest = []
  busy : s.call = some .send → s.sendIncomplete = true

/-- A send was given up. -/
def GivenUp (s : Transport) : Prop := s.sendIncomplete = true ∧ s.call = none

/-- What `receive` leaves as it is. -/
structure SameSender (s t : Transport) : Prop where
  transmit : t.transmit = s.transmit
  outbox : t.outbox = s.outbox
  sends : t.sends = s.sends
  consumed : t.consumed = s.consumed
  given : t.sendIncomplete = s.sendIncomplete
  call : t.call ≠ some .send

theorem sameSender_receiveLoop (left : ℕ) (s : Transport) : SameSender s (receiveLoop left s) := by
  induction left generalizing s with
  | zero => exact ⟨rfl, rfl, rfl, rfl, rfl, nofun⟩
  | succ left ih =>
    unfold receiveLoop
    cases packet s.wire with
    | error error => exact ⟨rfl, rfl, rfl, rfl, rfl, nofun⟩
    | ok taken =>
      cases taken with
      | none =>
        split_ifs <;> exact ⟨rfl, rfl, rfl, rfl, rfl, nofun⟩
      | some taken =>
        dsimp only
        split_ifs
        · exact ⟨rfl, rfl, rfl, rfl, rfl, nofun⟩
        · exact { ih { s with wire := taken.2 } with }

variable {transmit : ℕ}

theorem Sender.same (h : Sender transmit s) (hsame : SameSender s t) : Sender transmit t := by
  refine ⟨hsame.transmit.trans h.budget, ?_, ?_, ?_, ?_, fun hsend => absurd hsend hsame.call⟩
  · rw [hsame.outbox]
    exact h.outbox
  · rw [hsame.outbox, hsame.sends]
    exact h.frames
  · rw [hsame.sends]
    exact h.fits
  · rw [hsame.outbox, hsame.given]
    exact h.clean

/-- **What a step does to the sender.** -/
theorem Sender.turn (h : Sender transmit s) (hturn : Turn s e t) : Sender transmit t := by
  cases hturn with
  | rests failures | refuses failures hcall hgiven | closes hcall => exact { h with }
  | receives hidle => exact h.same (sameSender_receiveLoop _ _)
  | @reads answer left got hcall hgot =>
    have hread : Sender transmit { s with wire := s.wire ++ got, consumed := s.consumed ++ got } :=
      { h with }
    exact hread.same (sameSender_receiveLoop _ _)
  | fails error hcall hends | stops failures hcall hfinishes => exact { h with busy := nofun }
  | @sends datagram address hopen hclean hcall hsize hport haddress =>
    have hframe : encodePacket address datagram.payload =
        format.frame (datagram.remote, datagram.payload) := by
      rw [encodeAddress_ok haddress]
      rfl
    refine ⟨h.budget, h.outbox.start (h.clean hclean), ?_, ?_, nofun, fun _ => rfl⟩
    · change (s.outbox.start (encodePacket address datagram.payload)).frames = _
      rw [hframe]
      exact frames_start h.frames _
    · exact forall_mem_concat.mpr ⟨h.fits, h.budget ▸ hsize⟩
  | writes hcall =>
    refine ⟨h.budget, h.outbox.took _, h.frames, h.fits, fun hclean => ?_, h.busy⟩
    exact absurd ((h.busy hcall).symm.trans hclean) nofun
  | sent hcall hrest => exact { h with clean := fun _ => hrest, busy := nofun }

/-- **Nothing is written once a send was given up.** -/
theorem GivenUp.turn (h : GivenUp s) (hturn : Turn s e t) : GivenUp t ∧ t.outbox = s.outbox := by
  obtain ⟨hgiven, hidle⟩ := h
  cases hturn with
  | rests | refuses | closes => exact ⟨⟨hgiven, hidle⟩, rfl⟩
  | receives hcall =>
    rcases hcall with ⟨-, -, hclean⟩ | hcall
    · cases hgiven.symm.trans hclean
    · cases hidle.symm.trans hcall
  | reads hcall | fails _ hcall | writes hcall | sent hcall =>
    cases hidle.symm.trans hcall
  | sends _ hclean => cases hgiven.symm.trans hclean
  | stops _ hcall => exact absurd hidle hcall

/-! ## Runs -/

def Transport.observe (s : Transport) : Observed where
  written := s.outbox.wire
  left := s.outbox.rest
  asked := s.sends
  sends := s.sends
  consumed := s.consumed
  returned := s.returned
  queued := []
  ready := decide (s.call = none) && s.stream && !s.sendIncomplete
  sending := decide (s.call = some .send)
  waiting := s.waiting
  rejected := s.malformed

/-- **A Trojan association**, as one over a stream. -/
def association : Association Transport Event where
  format := format
  transmit := fun budget => min budget.toNat maxDatagramPayload
  receive := fun budget => min budget.toNat maxDatagramPayload
  reaches := Eq
  request := fun _ => []
  start := .new
  step := Transport.step
  observe := Transport.observe
  finishes := Event.finishes
  read := fun bytes => .read (.ready bytes)
  ends := Event.ends

variable {budget budget' : UInt16} {history : List (Transport × Event)}

/-- **What a run keeps.** -/
theorem runs (h : association.Runs (.new budget budget') history s) :
    Receiver (association.receive budget') s ∧ Sender (association.transmit budget) s := by
  induction h with
  | start =>
    refine ⟨.inl ⟨⟨rfl, rfl, .start _ _, Nat.zero_le _, rfl⟩, nofun⟩, ?_⟩
    exact ⟨rfl, .new, rfl, nofun, fun _ => rfl, nofun⟩
  | next hrun hstep ih =>
    have hturn := Turn.of_step (fun _ hcall => ih.1.room hcall) hstep
    exact ⟨ih.1.turn hturn, ih.2.turn hturn⟩

/-- **An association that goes on**: it has its stream, and no send was given up. -/
def Going (s : Transport) : Prop :=
  s.malformed = true ∨ s.stream = true ∧ (s.sendIncomplete = false ∨ s.call = some .send)

theorem Open.going (h : Open limit s) (hclean : s.sendIncomplete = false) (left : ℕ) :
    Going (Transport.receiveLoop left s) := by
  rcases h.receiveLoop left with ⟨hopen, -⟩ | ⟨-, hmalformed⟩
  · exact .inr ⟨hopen.stream, .inl ((sameSender_receiveLoop left s).given.trans hclean)⟩
  · exact .inl hmalformed

theorem Open.goes (h : Open limit s) (hgoes : Going s) :
    s.sendIncomplete = false ∨ s.call = some .send :=
  (hgoes.resolve_left (by rw [h.sound]; exact nofun)).2

/-- **It goes on until it is cut.** -/
theorem Going.step (h : Going s) (hreceiver : Receiver limit s) (hstep : s.step e = some t)
    (huncut : ¬ association.Cuts (s, e)) : Going t := by
  cases Turn.of_step (fun _ hcall => hreceiver.room hcall) hstep with
  | rests => exact h
  | refuses _ hcall hgiven =>
    refine h.imp_right fun hgoes => ?_
    rcases hgoes.2 with hclean | hsend
    · cases hgiven.symm.trans hclean
    · cases hcall.symm.trans hsend
  | receives hidle =>
    rcases hreceiver with ⟨hopen, -⟩ | hover
    · refine hopen.going ((hopen.goes h).resolve_right ?_) _
      rcases hidle with ⟨hidle, -⟩ | hidle <;> (rw [hidle]; exact nofun)
    · rcases hidle with ⟨-, hstream, -⟩ | hcall
      · cases hover.stream.symm.trans hstream
      · cases hover.call.symm.trans hcall
  | reads hcall hgot =>
    rcases hreceiver with ⟨hopen, hwaits⟩ | hover
    · exact (hopen.read hwaits hcall hgot).going ((hopen.goes h).resolve_right (by simp [hcall])) _
    · cases hover.call.symm.trans hcall
  | fails _ _ hends => exact absurd (.inl hends) huncut
  | closes => exact absurd (.inl rfl) huncut
  | sends => exact h.imp_right fun hgoes => ⟨hgoes.1, .inr rfl⟩
  | writes hcall => exact h.imp_right fun hgoes => ⟨hgoes.1, .inr hcall⟩
  | sent => exact h.imp_right fun hgoes => ⟨hgoes.1, .inl rfl⟩
  | stops _ _ hfinishes =>
    refine h.imp_right fun hgoes => ⟨hgoes.1, .inl (hgoes.2.resolve_right fun hsend => huncut ?_)⟩
    exact .inr ⟨decide_eq_true hsend, hfinishes, _, hstep, rfl⟩

/-- What can come after a call was dropped can come. -/
theorem exec_dropped {p : Transport → Prop}
    (h : ∃ events t, exec Transport.step { s with call := none } events = some t ∧ p t) :
    ∃ events t, exec Transport.step s events = some t ∧ p t := by
  cases hcall : s.call with
  | none => rwa [show { s with call := none } = s by rw [← hcall]] at h
  | some call =>
    obtain ⟨events, t, hexec, hp⟩ := h
    have hdrop : s.step .drop = some { s with call := none } := by simp [Transport.step, hcall]
    exact ⟨.drop :: events, t, (exec_cons hdrop).trans hexec, hp⟩

/-- **It can come to wait**: what its buffer has is fetched. -/
theorem exec_receive {n : ℕ} (h : Open limit s) (hclean : s.sendIncomplete = false)
    (hlength : s.wire.length < n) :
    ∃ events t, exec Transport.step s events = some t ∧ t.consumed = s.consumed ∧
      (t.waiting = true ∨ t.malformed = true) := by
  -- each call that returns takes something off the buffer
  induction n generalizing s with
  | zero => omega
  | succ n ih =>
    have hopen : Open limit { s with call := none } := { h with }
    have hsame := sameSender_receiveLoop ioPollBudget { s with call := none }
    have hloop := hopen.receiveLoop ioPollBudget
    have hreceive : step { s with call := none } .receive =
        some (receiveLoop ioPollBudget { s with call := none }) := by
      simp [Transport.step, startReceive, checkOpen, hclean, h.stream]
    generalize receiveLoop ioPollBudget { s with call := none } = t at hsame hloop hreceive
    refine exec_dropped ?_
    rcases hloop with ⟨hnext, -, hwaits | ⟨-, hless⟩⟩ | ⟨-, hmalformed⟩
    · exact ⟨[.receive], t, exec_cons hreceive, hsame.consumed, .inl hwaits⟩
    · have hshort := Nat.lt_of_lt_of_le (hless (by decide)) (Nat.le_of_lt_succ hlength)
      obtain ⟨events, u, hexec, hconsumed, hdone⟩ := ih hnext (hsame.given.trans hclean) hshort
      exact ⟨.receive :: events, u, (exec_cons hreceive).trans hexec,
        hconsumed.trans hsame.consumed, hdone⟩
    · exact ⟨[.receive], t, exec_cons hreceive, hsame.consumed, .inr hmalformed⟩

/-- A send was given up if its call is gone and it has not ended well. -/
theorem givenUp_of_turn (hsender : Sender (association.transmit budget) s)
    (hcall : s.call = some .send) (hturn : Turn s e t) (hgone : t.call ≠ some .send)
    (hfinishes : e.finishes = false) : GivenUp t ∧ t.outbox = s.outbox := by
  have hgiven := hsender.busy hcall
  cases hturn with
  | rests | writes => exact absurd hcall hgone
  | refuses _ hidle | sends _ _ hidle | closes hidle => cases hidle.symm.trans hcall
  | receives hidle =>
    rcases hidle with ⟨hidle, -, -⟩ | hidle <;> cases hidle.symm.trans hcall
  | reads hother | fails _ hother => cases hother.symm.trans hcall
  | stops => exact ⟨⟨hgiven, rfl⟩, rfl⟩
  | sent => exact absurd hfinishes nofun

theorem GivenUp.run (h : GivenUp s) (hrun : association.Runs s history t) : t.outbox = s.outbox :=
  hrun.kept h fun u e v hu hstep => by
    have hroom : ∀ left, u.call = some (.receive left) → 0 < u.remaining :=
      fun left hcall => absurd (hu.2.symm.trans hcall) nofun
    exact hu.turn (Turn.of_step hroom hstep)

theorem step_send (hcall : s.call = none) (hopen : s.stream = true)
    (hclean : s.sendIncomplete = false) {remote : Destination}
    (hremote : Sendable remote) (hfits : payload.length ≤ s.transmit) :
    s.step (.send ⟨remote, payload, none⟩) =
      some { s with
        sendIncomplete := true
        outbox := s.outbox.start (format.frame (remote, payload))
        sends := s.sends ++ [(remote, payload)]
        call := some .send } := by
  have hgood : ¬ (s.transmit < payload.length ∨ remote.port = 0) := by
    rintro (hlong | hzero)
    · exact Nat.not_lt.mpr hfits hlong
    · exact hremote.port_ne_zero hzero
  have hcheck : s.checkOpen = (true, s) := by rw [checkOpen_clean hclean, hopen]
  have hstep : s.step (.send ⟨remote, payload, none⟩) =
      some (s.startSend ⟨remote, payload, none⟩) := by
    unfold Transport.step
    rw [hcall]
  rw [hstep, startSend, hcheck]
  simp only [if_neg hgood, encodeAddress_sendable hremote]
  rfl

theorem step_flush (hcall : s.call = some .send) (answer : Answer IoError Unit) :
    s.step (.flush answer) =
      if s.outbox.rest = [] then some (s.resumeFlush answer) else none := by
  unfold Transport.step
  rw [hcall]

/-- The stream takes the rest of a frame. -/
theorem exec_drain (hcall : s.call = some .send) (hrest : s.outbox.rest ≠ []) :
    exec Transport.step s [.write (.ready s.outbox.rest.length), .flush (.ready ())] =
      some (resumeFlush { s with outbox := s.outbox.took s.outbox.rest.length } (.ready ())) := by
  have hsome : s.outbox.rest.length ≠ 0 := mt length_eq_zero_iff.mp hrest
  have hwrite : s.step (.write (.ready s.outbox.rest.length)) =
      some { s with outbox := s.outbox.took s.outbox.rest.length } := by
    unfold Transport.step
    rw [hcall]
    refine (if_neg hrest).trans ?_
    rw [resumeWrite, Nat.min_self, if_neg hsome, hcall]
  refine (exec_cons hwrite).trans (exec_cons ?_)
  rw [step_flush (by exact hcall), if_pos s.outbox.rest_took_all]

/-- A valid datagram is sent where the stream takes it. -/
theorem send_accepted (hready : s.observe.ready = true) {packet : Packet}
    (hvalid : format.Valid packet) (hfits : packet.2.length ≤ s.transmit) :
    ∃ events t, exec Transport.step s events = some t ∧ t.sends = s.sends ++ [packet] ∧
      t.outbox.rest = [] ∧ t.observe.ready = true := by
  simp only [Transport.observe, Bool.and_eq_true, decide_eq_true_eq, Bool.not_eq_true'] at hready
  obtain ⟨⟨hcall, hopen⟩, hclean⟩ := hready
  refine ⟨[.send ⟨packet.1, packet.2, none⟩, .write (.ready (format.frame packet).length),
    .flush (.ready ())], _, (exec_cons (step_send hcall hopen hclean hvalid.1 hfits)).trans
    (exec_drain rfl (format.frame_ne_nil _)), rfl, Outbox.rest_took_all _, ?_⟩
  change (true && s.stream && true) = true
  rw [hopen]
  rfl

/-- **A Trojan association is faithful.** -/
theorem faithful : association.Faithful where
  received := by
    intro _ _ _ s hrun
    obtain ⟨hreceiver, -⟩ := runs hrun
    change ∃ rest, TakenApart format _ s.consumed (s.returned ++ []) rest ∧ _
    rw [append_nil]
    rcases hreceiver with ⟨hopen, hwaits⟩ | hover
    · refine ⟨s.wire, hopen.apart, fun hwaiting => ⟨rfl, ?_⟩, fun hrejected => ?_⟩
      · change s.waiting = true at hwaiting
        unfold Transport.waiting at hwaiting
        split at hwaiting
        · exact unfinished_of_none (hwaits _ ‹_›)
        · cases hwaiting
      · cases hopen.sound.symm.trans hrejected
    · obtain ⟨rest, hrest, hhopeless⟩ := hover.apart
      refine ⟨rest, hrest, fun hwaiting => ?_, hhopeless⟩
      change s.waiting = true at hwaiting
      rw [Transport.waiting, hover.call] at hwaiting
      cases hwaiting
  takes := by
    intro _ _ _ s hrun hwaiting bytes hbytes
    have hroom := (runs hrun).1.waits hwaiting
    change s.waiting = true at hwaiting
    unfold Transport.waiting at hwaiting
    split at hwaiting
    · next left hcall =>
      have hgot : bytes.take s.remaining ≠ [] := by
        simp [take_eq_nil_iff, Nat.ne_of_gt hroom, hbytes]
      refine ⟨_, s.resumeReceive left (.ready bytes), hgot, take_prefix _ _, ?_, ?_⟩
      · change s.step (.read (.ready bytes)) = _
        simp [Transport.step, hcall]
      · rw [resumeReceive, if_neg hgot]
        exact (sameSender_receiveLoop _ _).consumed
    · cases hwaiting
  settles := by
    intro _ _ _ s hrun hsending
    have hidle : s.call ≠ some .send := of_decide_eq_false hsending
    have hgoes := hrun.until_cut (I := Going) (.inr ⟨rfl, .inl rfl⟩)
      fun hpast hu hstep huncut => hu.step (runs hpast).1 hstep huncut
    rcases hgoes with (hmalformed | ⟨hstream, hclean⟩) | hcut
    · exact .inr ⟨[], s, rfl, rfl, .inr hmalformed⟩
    · rcases (runs hrun).1 with ⟨hopen, -⟩ | hover
      · exact .inr (exec_receive hopen (hclean.resolve_right hidle) (Nat.lt_succ_self _))
      · cases hover.stream.symm.trans hstream
    · exact .inl hcut
  accepted := fun hrun hready packet peer hvalid hfits hpeer => by
    obtain ⟨-, hsender⟩ := runs hrun
    have hsame : packet.1 = peer := hpeer
    subst hsame
    exact send_accepted hready hvalid (hsender.budget ▸ hfits)
  written := fun hrun => by
    obtain ⟨-, hsender⟩ := runs hrun
    have hall := hsender.outbox.all
    rw [hsender.frames] at hall
    exact hall
  addressed := fun hrun => by
    exact forall₂_same.mpr fun _ _ => ⟨rfl, rfl⟩
  valid := fun hrun hasked packet hmem => by
    obtain ⟨-, hsender⟩ := runs hrun
    exact ⟨hasked packet hmem, Nat.zero_le _,
      (hsender.fits packet hmem).trans (Nat.min_le_right _ _)⟩
  finished := by
    intro _ _ _ s t e hrun hsending hstep hfinishes
    have hcall : s.call = some .send := of_decide_eq_true hsending
    match e, hfinishes with
    | .flush (.ready ()), _ =>
      obtain ⟨hrest, rfl⟩ := ite_some_none_eq_some.mp ((step_flush hcall _).symm.trans hstep)
      exact hrest
  stopped := fun hrun hsending hstep hgone hfinishes hlater => by
    obtain ⟨hreceiver, hsender⟩ := runs hrun
    have hturn := Turn.of_step (fun _ hcall => hreceiver.room hcall) hstep
    obtain ⟨hgiven, hsame⟩ := givenUp_of_turn hsender (of_decide_eq_true hsending) hturn
      (of_decide_eq_false hgone) hfinishes
    exact congrArg Outbox.wire ((hgiven.run hlater).trans hsame)

/-- **The buffer has room for every datagram.** It does not outgrow a frame, and a
receiver that waits can read. -/
theorem bounded (h : association.Runs (.new budget budget') history s) :
    s.wire.length ≤ maxFrameBytes ∧ (s.waiting = true → 0 < s.remaining) := by
  obtain ⟨hreceiver, -⟩ := runs h
  refine ⟨?_, fun hwaiting => hreceiver.waits hwaiting⟩
  rcases hreceiver with ⟨hopen, -⟩ | hover
  · exact hopen.small
  · exact hover.small

end Vole.Trojan
