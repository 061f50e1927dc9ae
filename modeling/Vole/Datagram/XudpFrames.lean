import Vole.Common.Resume
import Vole.Datagram.Model.Xudp

/-!
# Reading an XUDP frame

`read_frame` goes through the stages of a frame while its bytes come into the
buffer. What it has found there by a stage is all that its local variables hold
(`Standing`), so a future that is started over does what the one before would have
done (`readFrame_eq_resume`), and comes to what the stream says (`Comes`).
-/

namespace Vole.Xudp

open List Nat

/-! ## The frames of a stream -/

/-- What is next of a frame. `told` is its destination where it tells one; a frame
without `remote` is passed over. -/
inductive Part where
  | length
  | metadata (size : ℕ)
  | payloadLength (remote : Option (Option Destination))
  | payload (remote : Option (Option Destination)) (size : ℕ)

/-- What follows the metadata. -/
def partAfter (metadata : Bytes) : Except IoError Part :=
  match checkMetadata metadata with
  | .error error => .error error
  | .ok (_, false) => .ok .length
  | .ok (status, true) =>
    if status = statusKeepAlive then .ok (.payloadLength none)
    else (toldRemote metadata).map fun told => .payloadLength (some told)

/-- **The frames of a stream**: the destination a data frame tells, and its
payload. -/
def framing (maxResponse : UInt16) : Framing Part UInt8 (Option Destination × Bytes) IoError where
  need
    | .length => 2
    | .metadata size => size
    | .payloadLength _ => 2
    | .payload _ size => size
  take
    | .length, bytes =>
      if ¬ (4 ≤ ofBe bytes ∧ ofBe bytes ≤ maxMetadataLength) then
        .error (invalidData "invalid XUDP metadata length")
      else .ok (.metadata (ofBe bytes), none)
    | .metadata _, bytes => (partAfter bytes).map (·, none)
    | .payloadLength remote, bytes =>
      if maxResponse.toNat < ofBe bytes then .error (ceilingError (ofBe bytes) maxResponse)
      else .ok (.payload remote (ofBe bytes), none)
    | .payload remote _, bytes => .ok (.length, remote.map (·, bytes))
  rank
    | .payload _ _ => 1
    | _ => 0
  rank_lt := by
    -- metadata of no bytes is refused, and after a payload comes a length
    rintro (_ | size | remote | ⟨remote, size⟩) t out hneed htake
    · cases hneed
    · cases htake
    · cases hneed
    · obtain ⟨rfl, -⟩ := Prod.mk.inj (Except.ok.inj htake)
      exact Nat.one_pos

/-- The destination of a frame that tells this one. -/
def Resolves (lastRemote : Option Destination) :
    Option (Option Destination) → Option Destination → Prop
  | none, remote => remote = none
  | some told, remote => remote ≠ none ∧ remote = told.or lastRemote

theorem Resolves.unique {lastRemote : Option Destination} {told : Option (Option Destination)}
    {remote other : Option Destination} (h : Resolves lastRemote told remote)
    (hother : Resolves lastRemote told other) : remote = other := by
  cases told with
  | none => exact h.trans hother.symm
  | some told => exact h.2.trans hother.2.symm

/-- **What the metadata come to**, for a stream and for a transport: the same,
unless the destination is left out before any request. -/
inductive Metadata (lastRemote : Option Destination) :
    Except IoError Part → Except IoError (Option (Option Destination)) → Prop
  | refused (error : IoError) : Metadata lastRemote (.error error) (.error error)
  | nothing : Metadata lastRemote (.ok .length) (.ok none)
  | data (told : Option (Option Destination)) (remote : Option Destination)
    (hremote : Resolves lastRemote told remote) :
    Metadata lastRemote (.ok (.payloadLength told)) (.ok (some remote))
  | omitted (error : IoError) (hlast : lastRemote = none) :
    Metadata lastRemote (.ok (.payloadLength (some none))) (.error error)

theorem readMetadata_agrees (metadata : Bytes) (lastRemote : Option Destination) :
    Metadata lastRemote (partAfter metadata) (readMetadata metadata lastRemote) := by
  unfold partAfter readMetadata
  rcases checkMetadata metadata with error | ⟨status, data⟩
  · exact .refused error
  cases data with
  | false => exact .nothing
  | true =>
    dsimp only
    split_ifs
    · exact .data none none rfl
    unfold remoteOf
    rcases toldRemote metadata with error | _ | told
    · exact .refused error
    · cases lastRemote with
      | none => exact .omitted _ rfl
      | some last => exact .data (some none) (some last) ⟨nofun, rfl⟩
    · exact .data (some (some told)) (some told) ⟨nofun, rfl⟩

/-- **What a future has found in the buffer**, by the stage it is at. -/
inductive Standing (v : View) : Stage → Part → Prop
  | length : Standing v .length .length
  | metadata {size : ℕ} (hlength : 2 ≤ v.buffer.length) (hsize : ofBe (v.buffer.take 2) = size)
    (hrange : 4 ≤ size ∧ size ≤ maxMetadataLength) : Standing v (.metadata size) (.metadata size)
  | payloadLength {size : ℕ} {told : Option (Option Destination)} {remote : Option Destination}
    (hbefore : Standing v (.metadata size) (.metadata size)) (hlength : 2 + size ≤ v.buffer.length)
    (hpart : partAfter ((v.buffer.drop 2).take size) = .ok (.payloadLength told))
    (hremote : Resolves v.lastRemote told remote) :
    Standing v (.payloadLength size remote) (.payloadLength told)
  | payload {size payloadSize : ℕ} {told : Option (Option Destination)}
    {remote : Option Destination}
    (hbefore : Standing v (.payloadLength size remote) (.payloadLength told))
    (hlength : 2 + size + 2 ≤ v.buffer.length)
    (hpayload : ofBe ((v.buffer.drop (2 + size)).take 2) = payloadSize)
    (hceiling : payloadSize ≤ v.maxResponse.toNat) :
    Standing v (.payload size remote payloadSize) (.payload told payloadSize)

/-- Where the part of a stage starts. -/
def Stage.offset : Stage → ℕ
  | .length => 0
  | .metadata _ => 2
  | .payloadLength size _ => 2 + size
  | .payload size _ _ => 2 + size + 2

variable {v : View} {size payloadSize : ℕ} {remote : Option Destination}
variable {told : Option (Option Destination)} {stage : Stage} {part : Part}

namespace Standing

variable (h : Standing v stage part)

include h

/-- **It is where the frame is parsed to.** -/
theorem resumes :
    (framing v.maxResponse).Resumes .length v.buffer part stage.offset ∧
      stage.required = stage.offset + (framing v.maxResponse).need part := by
  induction h with
  | length => exact ⟨.start _ _ _, rfl⟩
  | @metadata size hlength hsize hrange =>
    refine ⟨?_, rfl⟩
    have hstart := Framing.Resumes.start (framing v.maxResponse) .length v.buffer
    refine hstart.next hlength ?_
    change (if ¬ (4 ≤ ofBe (v.buffer.take 2) ∧ ofBe (v.buffer.take 2) ≤ maxMetadataLength) then
      Except.error (invalidData "invalid XUDP metadata length")
      else .ok (Part.metadata (ofBe (v.buffer.take 2)), none)) = _
    rw [hsize, if_neg (not_not.mpr hrange)]
  | @payloadLength size told remote hbefore hlength hpart hremote ih =>
    refine ⟨ih.1.next hlength ?_, rfl⟩
    change (partAfter ((v.buffer.drop 2).take size)).map (·, none) = _
    rw [hpart]
    rfl
  | @payload size payloadSize told remote hbefore hlength hpayload hceiling ih =>
    refine ⟨ih.1.next hlength ?_, rfl⟩
    change (if v.maxResponse.toNat < ofBe ((v.buffer.drop (2 + size)).take 2) then
      Except.error (ceilingError (ofBe ((v.buffer.drop (2 + size)).take 2)) v.maxResponse)
      else .ok (Part.payload told (ofBe ((v.buffer.drop (2 + size)).take 2)), none)) = _
    rw [hpayload, if_neg (Nat.not_lt.mpr hceiling)]

/-- The stage it is at bounds the buffer. -/
theorem required_le : stage.required ≤ 2 + maxMetadataLength + 2 + v.maxResponse.toNat := by
  have hmetadata : ∀ {size}, Standing v (.metadata size) (.metadata size) →
      size ≤ maxMetadataLength := by
    intro size h
    cases h with
    | metadata _ _ hrange => exact hrange.2
  cases h with
  | length => exact le_add_right_of_le (by decide)
  | metadata _ _ hrange =>
    simp only [Stage.required]
    omega
  | payloadLength hbefore =>
    have hle := hmetadata hbefore
    simp only [Stage.required]
    omega
  | payload hbefore _ _ hceiling =>
    cases hbefore with
    | payloadLength hbefore =>
      have hle := hmetadata hbefore
      simp only [Stage.required]
      omega

/-- More arrives. -/
theorem read (got : Bytes) : Standing { v with buffer := v.buffer ++ got } stage part := by
  have hlonger : ∀ {n}, n ≤ v.buffer.length → n ≤ (v.buffer ++ got).length := by
    intro n hle
    rw [length_append]
    omega
  induction h with
  | length => exact .length
  | metadata hlength hsize hrange =>
    refine .metadata (hlonger hlength) ?_ hrange
    rw [take_append_of_le_length hlength, hsize]
  | @payloadLength size told remote _ hlength hpart hremote ih =>
    refine .payloadLength ih (hlonger hlength) ?_ hremote
    have htwo : 2 ≤ v.buffer.length := by omega
    have hheld : size ≤ (v.buffer.drop 2).length := by
      rw [length_drop]
      omega
    rw [drop_append_of_le_length htwo, take_append_of_le_length hheld, hpart]
  | @payload size payloadSize told remote _ hlength hpayload hceiling ih =>
    refine .payload ih (hlonger hlength) ?_ hceiling
    have hmetadata : 2 + size ≤ v.buffer.length := by omega
    have hheld : 2 ≤ (v.buffer.drop (2 + size)).length := by
      rw [length_drop]
      omega
    rw [drop_append_of_le_length hmetadata, take_append_of_le_length hheld, hpayload]

/-- **After a request a future is started over with its destination**, and comes
to the same place. -/
theorem renew (last : Destination) :
    ∃ again, Standing { v with lastRemote := some last } again part ∧
      again.required = stage.required := by
  have hresolves : ∀ told, ∃ remote, Resolves (some last) told remote := by
    rintro (_ | told)
    · exact ⟨none, rfl⟩
    · cases told with
      | none => exact ⟨some last, nofun, rfl⟩
      | some told => exact ⟨some told, nofun, rfl⟩
  have hmetadata : ∀ {size}, Standing v (.metadata size) (.metadata size) →
      Standing { v with lastRemote := some last } (.metadata size) (.metadata size) := by
    intro size h
    cases h with
    | metadata hlength hsize hrange => exact .metadata hlength hsize hrange
  have hpayloadLength : ∀ {size remote told},
      Standing v (.payloadLength size remote) (.payloadLength told) →
      ∃ remote, Standing { v with lastRemote := some last } (.payloadLength size remote)
        (.payloadLength told) := by
    intro size remote told h
    cases h with
    | payloadLength hbefore hlength hpart _ =>
      obtain ⟨remote, hremote⟩ := hresolves told
      exact ⟨remote, .payloadLength (hmetadata hbefore) hlength hpart hremote⟩
  cases h with
  | length => exact ⟨.length, .length, rfl⟩
  | metadata hlength hsize hrange => exact ⟨_, .metadata hlength hsize hrange, rfl⟩
  | payloadLength hbefore hlength hpart hremote =>
    obtain ⟨remote, hagain⟩ := hpayloadLength (.payloadLength hbefore hlength hpart hremote)
    exact ⟨_, hagain, rfl⟩
  | payload hbefore hlength hpayload hceiling =>
    obtain ⟨remote, hagain⟩ := hpayloadLength hbefore
    exact ⟨_, .payload hagain hlength hpayload hceiling, rfl⟩

end Standing

/-! ## Reading a frame -/

/-- What a future comes to. It is at most as far as its stage needs the buffer. -/
def Comes (v : View) : Except IoError Progress → Prop
  | .error error =>
    (framing v.maxResponse).parse .length v.buffer = ([], .failed error) ∨
      v.lastRemote = none ∧ ∃ held, (framing v.maxResponse).parse .length v.buffer =
        ([], .waiting (.payloadLength (some none)) held)
  | .ok (.waits stage) => (∃ part, Standing v stage part) ∧ v.buffer.length < stage.required
  | .ok .clears => (framing v.maxResponse).Reads .length v.buffer [] .length []
  | .ok (.gives datagram) => ∃ told,
    (framing v.maxResponse).Reads .length v.buffer [(told, datagram.payload)] .length [] ∧
      some datagram.remote = told.or v.lastRemote

/-- The buffer of a transport. -/
def View.Bounded (v : View) : Prop :=
  v.maxBuffer = 2 + maxMetadataLength + 2 + v.maxResponse.toNat

section

variable (hbounded : v.Bounded)
include hbounded

/-- **The buffer is filled**, or the future waits. -/
theorem fill_comes {next : Except IoError Progress} (h : Standing v stage part)
    (hnext : stage.required ≤ v.buffer.length → Comes v next) : Comes v (v.fill stage next) := by
  have hfits := h.required_le
  unfold View.fill
  rw [if_neg (by rw [hbounded]; exact Nat.not_lt.mpr hfits)]
  split_ifs with hshort
  · exact ⟨⟨part, h⟩, hshort⟩
  · exact hnext (Nat.not_lt.mp hshort)

/-- The payload. -/
theorem afterPayloadLength_comes
    (h : Standing v (.payload size remote payloadSize) (.payload told payloadSize))
    (hmost : v.buffer.length ≤ 2 + size + 2 + payloadSize) :
    Comes v (v.afterPayloadLength size remote payloadSize) := by
  refine fill_comes hbounded h fun hfull => ?_
  have hall : 2 + size + 2 + payloadSize = v.buffer.length := Nat.le_antisymm hfull hmost
  have hdone : (framing v.maxResponse).Reads .length v.buffer
      (told.map (·, (v.buffer.drop (2 + size + 2)).take payloadSize)).toList .length [] :=
    h.resumes.1.done hall rfl
  cases h with
  | payload hbefore =>
    cases hbefore with
    | payloadLength _ _ _ hremote =>
      cases told with
      | none =>
        obtain rfl : remote = none := hremote
        exact hdone
      | some told =>
        obtain ⟨hsome, hresolved⟩ := hremote
        cases remote with
        | none => exact absurd rfl hsome
        | some remote => exact ⟨told, hdone, hresolved⟩

/-- The length of the payload. -/
theorem afterMetadata_comes (h : Standing v (.payloadLength size remote) (.payloadLength told))
    (hmost : v.buffer.length ≤ 2 + size + 2) : Comes v (v.afterMetadata size remote) := by
  refine fill_comes hbounded h fun hfull => ?_
  dsimp only
  split_ifs with hceiling
  · exact .inl (h.resumes.1.failed hfull (if_pos hceiling))
  · exact afterPayloadLength_comes hbounded (.payload h hfull rfl (Nat.not_lt.mp hceiling))
      (le_add_right_of_le hmost)

/-- The metadata. -/
theorem afterLength_comes (h : Standing v (.metadata size) (.metadata size))
    (hmost : v.buffer.length ≤ 2 + size) : Comes v (v.afterLength size) := by
  refine fill_comes hbounded h fun hfull => ?_
  have hall : 2 + size = v.buffer.length := Nat.le_antisymm hfull hmost
  have htake : (framing v.maxResponse).take (.metadata size) ((v.buffer.drop 2).take size) =
      (partAfter ((v.buffer.drop 2).take size)).map (·, none) := rfl
  have hagrees := readMetadata_agrees ((v.buffer.drop 2).take size) v.lastRemote
  generalize readMetadata ((v.buffer.drop 2).take size) v.lastRemote = answer at hagrees
  generalize hpart : partAfter ((v.buffer.drop 2).take size) = next at hagrees htake
  cases hagrees with
  | refused error => exact .inl (h.resumes.1.failed hfull htake)
  | nothing => exact h.resumes.1.done hall htake
  | data told remote hremote =>
    exact afterMetadata_comes hbounded (.payloadLength h hfull hpart hremote)
      (le_add_right_of_le hmost)
  | omitted error hlast =>
    -- the frame is refused, and the rest of it is not there yet
    refine .inr ⟨hlast, v.buffer.drop (2 + size), ?_⟩
    refine (h.resumes.1.next hfull htake).waiting ?_
    change v.buffer.length < 2 + size + 2
    omega

/-- **A frame, from its beginning.** -/
theorem readFrame_comes (hmost : v.buffer.length ≤ 2) : Comes v v.readFrame := by
  refine fill_comes hbounded .length fun hfull => ?_
  dsimp only
  split_ifs with hrange
  · exact afterLength_comes hbounded (.metadata hfull rfl hrange) (le_add_right_of_le hmost)
  · exact .inl ((Standing.length (v := v)).resumes.1.failed hfull (if_pos hrange))

variable (h : Standing v stage part)

include h

/-- **A future goes on.** -/
theorem resume_comes (hmost : v.buffer.length ≤ stage.required) : Comes v (v.resume stage) := by
  cases h with
  | length => exact readFrame_comes hbounded hmost
  | metadata hlength hsize hrange =>
    exact afterLength_comes hbounded (.metadata hlength hsize hrange) hmost
  | payloadLength hbefore hlength hpart hremote =>
    exact afterMetadata_comes hbounded (.payloadLength hbefore hlength hpart hremote) hmost
  | payload hbefore hlength hpayload hceiling =>
    exact afterPayloadLength_comes hbounded (.payload hbefore hlength hpayload hceiling) hmost

/-- The buffer has what the stage needs. -/
theorem fill_full {next : Except IoError Progress} (hfull : stage.required ≤ v.buffer.length) :
    v.fill stage next = next := by
  have hfits := h.required_le
  unfold View.fill
  rw [if_neg (by rw [hbounded]; exact Nat.not_lt.mpr hfits), if_neg (Nat.not_lt.mpr hfull)]

/-- **To start over is to go on.** -/
theorem readFrame_eq_resume : v.readFrame = v.resume stage := by
  induction h with
  | length => rfl
  | metadata hlength hsize hrange =>
    unfold View.readFrame
    rw [fill_full hbounded .length hlength, hsize, if_neg (not_not.mpr hrange)]
    rfl
  | @payloadLength size told remote hbefore hlength hpart hremote ih =>
    rw [ih]
    change v.afterLength size = v.afterMetadata size remote
    unfold View.afterLength
    rw [fill_full hbounded hbefore hlength]
    have hagrees := readMetadata_agrees ((v.buffer.drop 2).take size) v.lastRemote
    rw [hpart] at hagrees
    generalize readMetadata ((v.buffer.drop 2).take size) v.lastRemote = answer at hagrees
    cases hagrees with
    | data _ other hother => rw [hremote.unique hother]
    | omitted error hlast =>
      obtain ⟨hsome, hresolved⟩ := hremote
      rw [hlast] at hresolved
      exact absurd hresolved hsome
  | payload hbefore hlength hpayload hceiling ih =>
    rw [ih]
    change v.afterMetadata _ _ = v.afterPayloadLength _ _ _
    unfold View.afterMetadata
    rw [fill_full hbounded hbefore hlength, hpayload, if_neg (Nat.not_lt.mpr hceiling)]

/-- A future that is started over waits where the one before did. -/
theorem readFrame_waits (hshort : v.buffer.length < stage.required) :
    v.readFrame = .ok (.waits stage) := by
  have hfits := h.required_le
  have hfill : ∀ next, v.fill stage next = .ok (.waits stage) := by
    intro next
    unfold View.fill
    rw [if_neg (by rw [hbounded]; exact Nat.not_lt.mpr hfits), if_pos hshort]
  rw [readFrame_eq_resume hbounded h]
  cases h with
  | _ => exact hfill _

end

end Vole.Xudp
