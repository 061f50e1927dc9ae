import Vole.Common.Bytes
import Vole.Common.Endian
import Vole.Common.Poll
import Vole.Model.IoError

/-!
# The VMess body stream

`BodyCodec` seals chunks into frames and opens them, and `VmessStream` carries
the frames over a byte stream that is polled. Ciphers, the key derivation and
the SHAKE stream are parameters (`Crypto`). Every function has the stream to
itself, so a run is a sequence of calls; each comes with what the carrier
answers during it.
-/

namespace Vole.Vmess

/-! ## Options -/

/-- `vmess::BodyCipher`. -/
inductive BodyCipher where
  | auto
  | aes128Gcm
  | chacha20Poly1305
  | none
  deriving DecidableEq, Repr

/-- `BodyCipher::with_aes_hardware`. -/
def BodyCipher.withAesHardware (accelerated : Bool) : BodyCipher → BodyCipher
  | .auto => if accelerated then .aes128Gcm else .chacha20Poly1305
  | other => other

/-- `vmess::BodyOptions`. `new` alone makes one. -/
structure BodyOptions where
  cipher : BodyCipher
  padding : Bool
  authenticatedLength : Bool
  plain : cipher = .none → padding = false ∧ authenticatedLength = false

/-- `BodyOptions::new`, on a machine with or without AES instructions. -/
def BodyOptions.new (accelerated : Bool) (cipher : BodyCipher)
    (padding authenticatedLength : Bool) : Except IoError BodyOptions :=
  if h : cipher = .none ∧ (padding || authenticatedLength) = true then
    .error ⟨.invalidInput, "VMess none cannot enable padding or authenticated length"⟩
  else
    .ok {
      cipher := cipher.withAesHardware accelerated
      padding
      authenticatedLength
      plain := by
        intro hnone
        have hcipher : cipher = .none := by
          cases cipher with
          | auto => cases accelerated <;> cases hnone
          | _ => exact hnone
        exact Bool.or_eq_false_iff.mp (eq_false_of_ne_true fun htrue => h ⟨hcipher, htrue⟩) }

/-- `vmess::Command`. -/
inductive Command where
  | tcp
  | udp
  | mux
  deriving DecidableEq, Repr

/-! ## The codec -/

/-- What the cryptographic crates do. A seal adds a tag of 16 bytes, and what
was sealed opens under the same key and nonce. -/
structure Crypto (K : Type) where
  aeadKey : BodyCipher → Bytes → K
  kdf : Bytes → List Bytes → Bytes
  aeadSeal : K → Bytes → Bytes → Bytes
  aeadOpen : K → Bytes → Bytes → Option Bytes
  shake : Bytes → ℕ → UInt8
  length_aeadSeal : ∀ key nonce plain, (aeadSeal key nonce plain).length = plain.length + 16
  aeadOpen_aeadSeal : ∀ key nonce plain, aeadOpen key nonce (aeadSeal key nonce plain) = some plain

/-- `stream::MAX_BODY_WIRE`. -/
def maxBodyWire : ℕ := 16 * 1024

/-- `stream::WRITE_CHUNK`. -/
def writeChunk : ℕ := 4 * 1024

/-- `stream::MAX_PACKET_BYTES`. -/
def maxPacketBytes : ℕ := 15000

/-- `crypto::error`. -/
def invalid : IoError := ⟨.invalidData, "invalid VMess authentication"⟩

/-- Which of its keys a codec seals with. -/
inductive KeyName where
  | body
  | length
  deriving DecidableEq, Repr

/-- `stream::BodyCodec`. `mask` is how much of the SHAKE stream of the IV was
read. No function reads `seals`, the keys and nonces that were used to seal. -/
structure BodyCodec (K : Type) where
  options : BodyOptions
  iv : Bytes
  lengthIv : Bytes
  body : K
  length : K
  mask : ℕ
  counter : ℕ
  framed : Bool
  writeLimit : ℕ
  seals : List (KeyName × Bytes)

variable {K : Type}

namespace BodyCodec

variable (crypto : Crypto K) (self : BodyCodec K)

/-- `BodyCodec::new`. -/
def new (options : BodyOptions) (command : Command) (key iv requestKey requestIv : Bytes) :
    BodyCodec K where
  options
  iv
  lengthIv := requestIv
  body := crypto.aeadKey options.cipher key
  length := crypto.aeadKey options.cipher
    ((crypto.kdf requestKey [Bytes.ofString "auth_len"]).take 16)
  mask := 0
  counter := 0
  framed := options.cipher != .none || command == .udp
  writeLimit := if command = .udp then maxPacketBytes else writeChunk
  seals := []

/-- `BodyCodec::overhead`. -/
def overhead : ℕ := if self.options.cipher = .none then 0 else 16

/-- `BodyCodec::length_size`. -/
def lengthSize : ℕ := if self.options.authenticatedLength then 18 else 2

/-- The nonce of a counter: its two bytes, and the IV from there. -/
def nonceAt (iv : Bytes) (counter : ℕ) : Bytes := be16 counter ++ (iv.take 12).drop 2

/-- `BodyCodec::nonce`. -/
def nonce (iv : Bytes) : Except IoError Bytes :=
  if self.counter < 65536 then .ok (nonceAt iv self.counter)
  else .error ⟨.other, "VMess nonce sequence exhausted"⟩

/-- `BodyCodec::next_mask`. -/
def nextMask : Proc (BodyCodec K) IoError ℕ := fun self =>
  (.ok (ofBe16 (crypto.shake self.iv self.mask) (crypto.shake self.iv (self.mask + 1))),
    { self with mask := self.mask + 2 })

/-- `BodyCodec::padding`. -/
def padding : Proc (BodyCodec K) IoError ℕ := fun self =>
  if self.options.padding then (do return (← nextMask crypto) % 64 : Proc _ _ _) self
  else (.ok 0, self)

/-- `crypto::seal` under one of the keys, with the nonce of the counter. -/
def sealWith (name : KeyName) (plain : Bytes) : Proc (BodyCodec K) IoError Bytes := fun self =>
  let (key, iv) := match name with
    | .body => (self.body, self.iv)
    | .length => (self.length, self.lengthIv)
  match self.nonce iv with
  | .error error => (.error error, self)
  | .ok nonce =>
    (.ok (crypto.aeadSeal key nonce plain), { self with seals := self.seals ++ [(name, nonce)] })

/-- `crypto::open` under one of the keys, with the nonce of the counter. -/
def openWith (name : KeyName) (wire : Bytes) : Proc (BodyCodec K) IoError Bytes := fun self =>
  let (key, iv) := match name with
    | .body => (self.body, self.iv)
    | .length => (self.length, self.lengthIv)
  match self.nonce iv with
  | .error error => (.error error, self)
  | .ok nonce => ((crypto.aeadOpen key nonce wire).elim (.error invalid) .ok, self)

/-- The counter after a frame. -/
def advance : Proc (BodyCodec K) IoError Unit :=
  Proc.update fun self => { self with counter := self.counter + 1 }

/-- The head of a frame whose body and padding have this length. -/
def encodeLength (length : ℕ) : Proc (BodyCodec K) IoError Bytes := fun self =>
  if self.options.authenticatedLength then
    sealWith crypto .length (be16 ((length + 65536 - 16) % 65536)) self
  else if self.options.cipher ≠ .none then
    (do return be16 (length ^^^ (← nextMask crypto)) : Proc _ _ _) self
  else (.ok (be16 length), self)

/-- The body of a frame. -/
def sealBody (plain : Bytes) : Proc (BodyCodec K) IoError Bytes := fun self =>
  if self.overhead ≠ 0 then sealWith crypto .body plain self else (.ok plain, self)

/-- The frame of a chunk, with `random` for its padding. -/
def encodeFrame (plain : Bytes) (random : Option (ℕ → UInt8)) :
    Proc (BodyCodec K) IoError Bytes := do
  let padding ← padding crypto
  let body ← sealBody crypto plain
  let head ← encodeLength crypto ((body.length + padding) % 65536)
  match random with
  | none => Proc.fail ⟨.other, "VMess entropy unavailable"⟩
  | some random =>
    advance
    return head ++ body ++ (List.range padding).map random

/-- `BodyCodec::encode`. -/
def encode (plain : Bytes) (random : Option (ℕ → UInt8)) : Proc (BodyCodec K) IoError Bytes :=
  fun self =>
    if plain.length > self.writeLimit then
      (.error ⟨.invalidInput, "VMess chunk exceeds limit"⟩, self)
    else if !self.framed then (.ok plain, self)
    else encodeFrame crypto plain random self

/-- The length that the head of a frame tells. -/
def readLength (wire : Bytes) : Proc (BodyCodec K) IoError ℕ := fun self =>
  if self.options.authenticatedLength then
    (do
      match ← openWith crypto .length wire with
      | [high, low] => return ofBe16 high low + 16
      | _ => Proc.fail invalid : Proc _ _ _) self
  else
    match wire with
    | [high, low] =>
      if self.options.cipher ≠ .none then
        (do return ofBe16 high low ^^^ (← nextMask crypto) : Proc _ _ _) self
      else (.ok (ofBe16 high low), self)
    | _ => (.error invalid, self)

/-- `BodyCodec::decode_length`: the length of the rest, and of its padding. -/
def decodeLength (wire : Bytes) : Proc (BodyCodec K) IoError (ℕ × ℕ) := do
  let padding ← padding crypto
  let length ← readLength crypto wire
  let overhead ← Proc.read overhead
  if length < padding + overhead ∨ length > maxBodyWire then Proc.fail invalid
  else return (length, padding)

/-- The chunk in the body of a frame. -/
def openBody (body : Bytes) : Proc (BodyCodec K) IoError Bytes := fun self =>
  if self.overhead ≠ 0 then openWith crypto .body body self else (.ok body, self)

/-- `BodyCodec::decode_body`. -/
def decodeBody (wire : Bytes) (padding : ℕ) : Proc (BodyCodec K) IoError Bytes := do
  -- `checked_sub`
  if wire.length < padding then Proc.fail invalid
  else
    let plain ← openBody crypto (wire.take (wire.length - padding))
    advance
    return plain

end BodyCodec

/-! ## The handshake -/

/-- `header::ClientHandshake`, as far as it is kept for the response. -/
structure ClientHandshake where
  key : Bytes
  iv : Bytes
  responseKey : Bytes
  responseIv : Bytes
  responseTag : UInt8
  options : BodyOptions
  command : Command

namespace ClientHandshake

variable (crypto : Crypto K) (self : ClientHandshake)

/-- `ClientHandshake::open_response`. -/
def openResponse (keySalt ivSalt : String) (data : Bytes) : Except IoError Bytes :=
  let key := crypto.kdf self.responseKey [Bytes.ofString keySalt]
  let iv := crypto.kdf self.responseIv [Bytes.ofString ivSalt]
  (crypto.aeadOpen (crypto.aeadKey .aes128Gcm (key.take 16)) (iv.take 12) data).elim
    (.error invalid) .ok

/-- `ClientHandshake::response_length`. -/
def responseLength (wire : Bytes) : Except IoError ℕ := do
  match ← self.openResponse crypto "AEAD Resp Header Len Key" "AEAD Resp Header Len IV" wire with
  | [high, low] =>
    let length := ofBe16 high low
    if 4 ≤ length ∧ length ≤ 259 then return length + 16 else throw invalid
  | _ => throw invalid

/-- `ClientHandshake::authenticate_response`. -/
def authenticateResponse (wire : Bytes) : Except IoError Unit := do
  if ¬ (20 ≤ wire.length ∧ wire.length ≤ 275) then throw invalid
  match ← self.openResponse crypto "AEAD Resp Header Key" "AEAD Resp Header IV" wire with
  | tag :: _ :: _ :: size :: rest =>
    if tag ≠ self.responseTag ∨ rest.length ≠ size.toNat then throw invalid
  | _ => throw invalid

end ClientHandshake

/-! ## The stream -/

/-- `stream::ReadStage`. -/
inductive ReadStage where
  | responseLength
  | response (length : ℕ)
  | length
  | body (length padding : ℕ)
  | eof
  deriving DecidableEq, Repr

/-- `stream::VmessStream`. `io` is whether it still has the carrier. No
function reads the last four fields: the chunks that were encoded, each with its
frame, the end of the stream where it was encoded, what `poll_read` returned, and
the chunks that were decoded. -/
structure VmessStream (K : Type) where
  carrier : Carrier IoError
  io : Bool
  handshake : Option ClientHandshake
  read : BodyCodec K
  write : BodyCodec K
  stage : ReadStage
  input : Bytes
  plain : Bytes
  output : Bytes
  shutdown : Bool
  wholeClose : Bool
  closed : Bool
  frames : List (Bytes × Bytes)
  last : Option Bytes
  returned : Bytes
  decoded : List Bytes

abbrev Poll (K α : Type) : Type := Proc (VmessStream K) (Stop IoError) α

namespace VmessStream

variable (crypto : Crypto K)

/-- `VmessStream::new`. -/
def new (carrier : Carrier IoError) (handshake : ClientHandshake) : VmessStream K where
  carrier
  io := true
  handshake := some handshake
  read := .new crypto handshake.options handshake.command handshake.responseKey
    handshake.responseIv handshake.key handshake.iv
  write := .new crypto handshake.options handshake.command handshake.key handshake.iv
    handshake.key handshake.iv
  stage := .responseLength
  input := []
  plain := []
  output := []
  shutdown := false
  wholeClose := false
  closed := false
  frames := []
  last := none
  returned := []
  decoded := []

/-- `VmessStream::with_whole_close`. -/
def withWholeClose (self : VmessStream K) : VmessStream K := { self with wholeClose := true }

/-- A poll of the carrier. -/
def onCarrier {α : Type} (x : Proc (Carrier IoError) (Stop IoError) α) : Poll K α :=
  Proc.within carrier (fun self carrier => { self with carrier }) x

/-- A function of one of the codecs. -/
def onRead {α : Type} (x : Proc (BodyCodec K) IoError α) : Poll K α := fun self =>
  ((x self.read).1.mapError .failed, { self with read := (x self.read).2 })

def onWrite {α : Type} (x : Proc (BodyCodec K) IoError α) : Poll K α := fun self =>
  ((x self.write).1.mapError .failed, { self with write := (x self.write).2 })

/-- An error of this kind, with the text that belongs to it. -/
def failKind {α : Type} (kind : ErrorKind) : Poll K α := Proc.fail (.failed ⟨kind, ""⟩)

/-- `VmessStream::check`. `expired` is whether the deadline has passed. -/
def check (expired : Bool) : Poll K Unit := fun self =>
  if !self.io then failKind .brokenPipe self
  else if self.handshake.isSome && expired then
    (.error (.failed ⟨.timedOut, "VMess response deadline"⟩), { self with io := false })
  else (.ok (), self)

/-- `VmessStream::fail`. -/
def fail {α : Type} (x : Poll K α) : Poll K α := x.onFail fun self => { self with io := false }

/-- `VmessStream::fill`. -/
def fill (length : ℕ) (eofAllowed : Bool) : Poll K Bool := fun self =>
  (go (self.carrier.reads.length + 1)) self
where
  go : ℕ → Poll K Bool
    | 0 => Proc.fail .pending
    | rounds + 1 => fun self =>
      if self.input.length < length then
        if !self.io then failKind .brokenPipe self
        else (do
          let got ← onCarrier (Carrier.pollRead (min (length - self.input.length) 2048))
          if got = [] then
            if eofAllowed && self.input = [] then return false else failKind .unexpectedEof
          else
            Proc.update fun self => { self with input := self.input ++ got }
            go rounds : Poll K Bool) self
      else (.ok true, self)

/-- The stage of a body. -/
def pollBody (length padding : ℕ) : Poll K (Option Bytes) := do
  let _ ← fill length false
  let input ← Proc.read input
  Proc.update fun self => { self with input := [] }
  let data ← onRead (BodyCodec.decodeBody crypto input padding)
  if data = [] then
    Proc.update fun self => { self with stage := .eof }
    return none
  else
    Proc.update fun self => { self with stage := .length, decoded := self.decoded ++ [data] }
    return some data

/-- The stage of a length, and what follows. -/
def pollLength : Poll K (Option Bytes) := fun self =>
  if !self.read.framed then
    (do
      let got ← onCarrier (Carrier.pollRead writeChunk)
      if got = [] then
        Proc.update fun self => { self with stage := .eof }
        return none
      else
        Proc.update fun self => { self with decoded := self.decoded ++ [got] }
        return some got : Poll K (Option Bytes)) self
  else
    (do
      if !(← fill self.read.lengthSize true) then
        Proc.update fun self => { self with stage := .eof }
        return none
      else
        let input ← Proc.read input
        let (length, padding) ← onRead (BodyCodec.decodeLength crypto input)
        Proc.update fun self => { self with input := [], stage := .body length padding }
        pollBody crypto length padding : Poll K (Option Bytes)) self

/-- The stage of the response, and what follows. -/
def pollResponse (length : ℕ) : Poll K (Option Bytes) := do
  let _ ← fill length false
  let self ← Proc.read id
  match self.handshake.elim (.error invalid) (·.authenticateResponse crypto self.input) with
  | .error error => Proc.fail (.failed error)
  | .ok () =>
    Proc.update fun self => { self with handshake := none, input := [], stage := .length }
    pollLength crypto

/-- The first stage, and what follows. -/
def pollResponseLength : Poll K (Option Bytes) := do
  let _ ← fill 18 false
  let self ← Proc.read id
  match self.handshake.elim (.error invalid) (·.responseLength crypto self.input) with
  | .error error => Proc.fail (.failed error)
  | .ok length =>
    Proc.update fun self => { self with input := [], stage := .response length }
    pollResponse crypto length

/-- `VmessStream::poll_packet_inner`. The loop of the source goes through the
stages in this order, and returns after a body. -/
def pollPacketInner (expired : Bool) : Poll K (Option Bytes) := do
  if ← Proc.read closed then return none
  else
    check expired
    match ← Proc.read stage with
    | .responseLength => pollResponseLength crypto
    | .response length => pollResponse crypto length
    | .length => pollLength crypto
    | .body length padding => pollBody crypto length padding
    | .eof => return none

/-- `VmessStream::poll_packet`. -/
def pollPacket (expired : Bool) : Poll K (Option Bytes) := fail (pollPacketInner crypto expired)

/-- Whether `poll_read` has something to return, after a packet if it has to
wait for one. -/
def refill (expired : Bool) : Poll K Bool := do
  if (← Proc.read plain) = [] then
    match ← pollPacket crypto expired with
    | some data =>
      Proc.update fun self => { self with plain := data }
      return true
    | none => return false
  else return true

/-- `VmessStream::poll_read` into a buffer of this size. -/
def pollRead (size : ℕ) (expired : Bool) : Poll K Bytes := do
  if size = 0 then return []
  else
    if ← refill crypto expired then
      let got ← Proc.read fun self => self.plain.take size
      Proc.update fun self =>
        { self with plain := self.plain.drop size, returned := self.returned ++ got }
      return got
    else return []

/-- `VmessStream::drain`. -/
def drain (expired : Bool) : Poll K Unit := do
  check expired
  let rounds ← Proc.read fun self => self.carrier.writes.length + 1
  Proc.repeatWhile (fun self => self.output ≠ []) (do
    let output ← Proc.read output
    let count ← onCarrier (Carrier.pollWrite output)
    if count = 0 then failKind .writeZero
    else Proc.update fun self => { self with output := output.drop count }) rounds

/-- A chunk goes to the output. -/
def encodeChunk (chunk : Bytes) (random : Option (ℕ → UInt8)) : Poll K Unit := do
  let frame ← onWrite (BodyCodec.encode crypto chunk random)
  Proc.update fun self =>
    { self with output := frame, frames := self.frames ++ [(chunk, frame)] }

/-- The end of the stream goes to the output. -/
def encodeEnd (random : Option (ℕ → UInt8)) : Poll K Unit := do
  let frame ← onWrite (BodyCodec.encode crypto [] random)
  Proc.update fun self => { self with output := frame, last := some frame }

/-- `VmessStream::poll_write`. -/
def pollWrite (data : Bytes) (expired : Bool) (random : Option (ℕ → UInt8)) : Poll K ℕ := do
  fail (drain expired)
  if ← Proc.read shutdown then failKind .brokenPipe
  else if data = [] then return 0
  else
    let chunk := data.take writeChunk
    fail (encodeChunk crypto chunk random)
    return chunk.length

/-- `VmessStream::poll_flush`. -/
def pollFlush (expired : Bool) : Poll K Unit := do
  fail (drain expired)
  fail (onCarrier Carrier.pollFlush)

/-- `VmessStream::poll_shutdown`. -/
def pollShutdown (expired : Bool) (random : Option (ℕ → UInt8)) : Poll K Unit := do
  let self ← Proc.read id
  if self.closed then return ()
  else if self.wholeClose then
    pollFlush expired
    Proc.update fun self =>
      { self with
        shutdown := true, closed := true, io := false, handshake := none, plain := [], input := [] }
  else
    fail (drain expired)
    if !(← Proc.read shutdown) then
      Proc.update fun self => { self with shutdown := true }
      fail (encodeEnd crypto random)
    pollFlush expired
    fail (onCarrier Carrier.pollShutdown)

/-- A future is polled as long as the carrier has answers, and is dropped
then. -/
def await {α : Type} (x : Poll K α) : ℕ → Poll K α
  | 0 => Proc.fail .pending
  | polls + 1 => fun self =>
    match x self with
    | (.error .pending, self) => await x polls self
    | outcome => outcome

/-- `VmessStream::send_packet`. -/
def sendPacket (payload : Bytes) (expired : Bool) (random : Option (ℕ → UInt8)) (polls : ℕ) :
    Poll K Unit := do
  let self ← Proc.read id
  if self.shutdown then failKind .brokenPipe
  else if payload = [] ∨ payload.length > self.write.writeLimit then failKind .invalidInput
  else
    await (pollFlush expired) polls
    encodeChunk crypto payload random
    await (pollFlush expired) polls

/-- The end of `VmessDatagram::send`: a packet that was not sent takes the
stream with it. -/
def datagramSend (packet : Bytes) (expired : Bool) (random : Option (ℕ → UInt8)) (polls : ℕ) :
    Poll K Unit := fun self =>
  match sendPacket crypto packet expired random polls self with
  | (.error stop, self) => (.error stop, { self with io := false })
  | outcome => outcome

end VmessStream

/-! ## Calls -/

/-- A call of the stream. -/
inductive Call where
  | read (size : ℕ)
  | write (data : Bytes)
  | flush
  | shutdown
  | send (packet : Bytes) (polls : ℕ)

/-- What a call accepts with this answer: the bytes that `poll_write` counts, and
the packet that is sent. -/
def Call.accepts : Call → ℕ → Bytes
  | .write data, count => data.take count
  | .send packet _, _ => packet
  | _, _ => []

/-- What the carrier, the clock and the entropy source do during a call. -/
structure Surroundings where
  reads : List (Answer IoError (List UInt8))
  writes : List (Answer IoError ℕ)
  flushes : List (Answer IoError Unit)
  shutdowns : List (Answer IoError Unit)
  expired : Bool
  random : Option (ℕ → UInt8)

namespace VmessStream

variable (crypto : Crypto K)

/-- **A call**, and how many bytes it read or wrote. -/
def call : Call → Surroundings → Poll K ℕ
  | .read size, around => do return (← pollRead crypto size around.expired).length
  | .write data, around => pollWrite crypto data around.expired around.random
  | .flush, around => do
    pollFlush around.expired
    return 0
  | .shutdown, around => do
    pollShutdown crypto around.expired around.random
    return 0
  | .send packet polls, around => do
    datagramSend crypto packet around.expired around.random polls
    return packet.length

/-- The stream with these answers to come. -/
def around (self : VmessStream K) (surroundings : Surroundings) : VmessStream K :=
  { self with
    carrier := { self.carrier with
      reads := surroundings.reads
      writes := surroundings.writes
      flushes := surroundings.flushes
      shutdowns := surroundings.shutdowns } }

/-- What a call answers. -/
def answer (self : VmessStream K) (taken : Call × Surroundings) : Except (Stop IoError) ℕ :=
  (call crypto taken.1 taken.2 (self.around taken.2)).1

/-- The stream after a call. -/
def after (self : VmessStream K) (taken : Call × Surroundings) : VmessStream K :=
  (call crypto taken.1 taken.2 (self.around taken.2)).2

/-- **What a call has accepted**, by its answer. -/
def took (self : VmessStream K) (taken : Call × Surroundings) : Bytes :=
  match self.answer crypto taken with
  | .ok count => taken.1.accepts count
  | .error _ => []

/-- The stream after calls, and what they accepted. -/
def run (start : VmessStream K) (calls : List (Call × Surroundings)) : VmessStream K × Bytes :=
  calls.foldl (fun reached taken =>
    (reached.1.after crypto taken, reached.2 ++ reached.1.took crypto taken)) (start, [])

end VmessStream

end Vole.Vmess
