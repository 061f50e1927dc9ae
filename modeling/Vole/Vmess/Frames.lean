import Vole.Common.Framing
import Vole.Vmess.Codec

/-!
# VMess frames

A stream of frames is read part by part (`framing`): the length of a frame, and
its body. What `encodeFrame` makes is a frame for a codec that agrees
(`isFrame_encodeFrame`); a frame is read to its end, and one that is cut off is
waited for (`IsFrame.torn`).
-/

namespace Vole.Vmess

open BodyCodec

/-- Which part of a frame is next. -/
inductive Part where
  | length
  | body (length padding : ℕ)

/-- Why no chunk follows. -/
inductive Reason where
  | ended
  | failed (error : IoError)

variable {K : Type}

theorem lengthSize_pos (r : BodyCodec K) : 0 < r.lengthSize := by
  unfold lengthSize
  split_ifs <;> decide

/-- **The frames of a stream.** One without data ends it. -/
def framing (crypto : Crypto K) : Framing (BodyCodec K × Part) UInt8 Bytes Reason where
  need
    | (codec, .length) => codec.lengthSize
    | (_, .body length _) => length
  take
    | (codec, .length), wire =>
      match decodeLength crypto wire codec with
      | (.ok (length, padding), codec) => .ok ((codec, .body length padding), none)
      | (.error error, _) => .error (.failed error)
    | (codec, .body _ padding), wire =>
      match decodeBody crypto wire padding codec with
      | (.ok data, codec) =>
        if data = [] then .error .ended else .ok ((codec, .length), some data)
      | (.error error, _) => .error (.failed error)
  rank
    | (_, .length) => 0
    | (_, .body ..) => 1
  rank_lt := by
    intro s t out hneed htake
    rcases s with ⟨codec, _ | ⟨length, padding⟩⟩
    · exact absurd hneed (Nat.ne_of_gt (lengthSize_pos codec))
    -- after a body comes a length
    simp only at htake
    split at htake
    · split_ifs at htake
      obtain ⟨rfl, -⟩ := Prod.mk.inj (Except.ok.inj htake)
      exact Nat.zero_lt_one
    · cases htake

variable {crypto : Crypto K} {c c' r r' : BodyCodec K} {plain frame : Bytes}

variable {length padding : ℕ} {wire : Bytes}

theorem take_length (h : decodeLength crypto wire r = (.ok (length, padding), r')) :
    (framing crypto).take (r, .length) wire = .ok ((r', .body length padding), none) := by
  simp only [framing, h]

theorem take_body (hne : plain ≠ [])
    (h : decodeBody crypto wire padding r = (.ok plain, r')) :
    (framing crypto).take (r, .body length padding) wire = .ok ((r', .length), some plain) := by
  simp only [framing, h, if_neg hne]

theorem take_end (h : decodeBody crypto wire padding r = (.ok [], r')) :
    (framing crypto).take (r, .body length padding) wire = .error .ended := by
  simp only [framing, h, if_true]

theorem take_length_error {error : IoError}
    (h : decodeLength crypto wire r = (.error error, r')) :
    (framing crypto).take (r, .length) wire = .error (.failed error) := by
  simp only [framing, h]

theorem take_body_error {error : IoError}
    (h : decodeBody crypto wire padding r = (.error error, r')) :
    (framing crypto).take (r, .body length padding) wire = .error (.failed error) := by
  simp only [framing, h]

/-- **A frame**, for the codec that reads it: what it holds, and the codec
after it. -/
def IsFrame (crypto : Crypto K) (r : BodyCodec K) (plain frame : Bytes) (r' : BodyCodec K) : Prop :=
  ∃ head rest r₁ padding, frame = head ++ rest ∧ head.length = r.lengthSize ∧
    decodeLength crypto head r = (.ok (rest.length, padding), r₁) ∧
    decodeBody crypto rest padding r₁ = (.ok plain, r')

/-- What one codec encodes is a frame for another one that agrees. -/
theorem isFrame_encodeFrame {random : Option (ℕ → UInt8)} (hagrees : BodyCodec.Agrees c r)
    (hplain : plain.length ≤ maxPacketBytes)
    (h : encodeFrame crypto plain random c = (.ok frame, c')) :
    ∃ r', IsFrame crypto r plain frame r' ∧ BodyCodec.Agrees c' r' := by
  obtain ⟨head, rest, r₁, r₂, hframe, hhead, -, -, hlength, hbody, hagrees'⟩ :=
    decodes_encodeFrame hagrees hplain h
  exact ⟨r₂, ⟨head, rest, r₁, _, hframe, hhead.trans hagrees.lengthSize.symm, hlength, hbody⟩,
    hagrees'⟩

namespace IsFrame

/-- The length of a frame is read first. -/
theorem reads_head {head : Bytes} {length padding : ℕ} {r₁ : BodyCodec K}
    (hhead : head.length = r.lengthSize)
    (h : decodeLength crypto head r = (.ok (length, padding), r₁)) :
    (framing crypto).Reads (r, .length) head [] (r₁, .body length padding) [] :=
  ((Framing.Reads.start (m := framing crypto) (r, .length)).read head).complete hhead
    (take_length h)

/-- **A chunk is read.** -/
theorem reads (h : IsFrame crypto r plain frame r') (hne : plain ≠ []) :
    (framing crypto).Reads (r, .length) frame [plain] (r', .length) [] := by
  obtain ⟨head, rest, r₁, padding, rfl, hhead, hlength, hbody⟩ := h
  exact ((reads_head hhead hlength).read rest).complete rfl (take_body hne hbody)

/-- **The last frame ends the stream.** -/
theorem ended (h : IsFrame crypto r [] frame r') :
    (framing crypto).parse (r, .length) frame = ([], .failed .ended) := by
  obtain ⟨head, rest, r₁, padding, rfl, hhead, hlength, hbody⟩ := h
  exact ((reads_head hhead hlength).read rest).stopped rfl (take_end hbody)

/-- **A frame that is cut off** is waited for: in its length or in its body. -/
theorem torn (h : IsFrame crypto r plain frame r') {part : Bytes} (hpart : part <+: frame)
    (hne : part ≠ frame) :
    ∃ s held, (framing crypto).parse (r, .length) part = ([], .waiting s held) ∧
      (s.2 = .length → held = part) := by
  obtain ⟨head, rest, r₁, padding, rfl, hhead, hlength, -⟩ := h
  rcases (reads_head hhead hlength).torn hhead rfl hpart hne with hfirst | ⟨held, hsecond⟩
  · exact ⟨_, _, hfirst, fun _ => rfl⟩
  · exact ⟨_, _, hsecond, nofun⟩

end IsFrame

end Vole.Vmess
