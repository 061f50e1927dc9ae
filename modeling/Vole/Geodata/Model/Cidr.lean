import Mathlib.Data.BitVec
import Vole.Common.Endian
import Vole.Geodata.Model.Wire
import Vole.Routing.Model.Rules

/-!
# GeoIP categories

The second pass over a GeoIP category: CIDR records, the compaction of
each family's vector in place, and the lookup that inspects one
candidate. The source has each function twice, for `u32` and for `u128`;
here the width of the address is a parameter, and an instance at 32 or at
128 carries the source's name.
-/

namespace Vole.Geodata

open Cursor

/-! ## Blocks of addresses -/

/-- Keeps the first bits of an address. -/
def mask {w : ℕ} (address : BitVec w) (prefixLen : ℕ) : BitVec w :=
  if prefixLen = 0 then 0 else address &&& (BitVec.allOnes w <<< (w - prefixLen))

/-- `mask_v4`. -/
def maskV4 (address : BitVec 32) (prefixLen : ℕ) : BitVec 32 := mask address prefixLen

/-- `mask_v6`. -/
def maskV6 (address : BitVec 128) (prefixLen : ℕ) : BitVec 128 := mask address prefixLen

/-- A mask set twice is set once. -/
theorem mask_mask {w : ℕ} (address : BitVec w) (prefixLen : ℕ) :
    mask (mask address prefixLen) prefixLen = mask address prefixLen := by
  unfold mask
  split_ifs with h
  · rfl
  · rw [BitVec.and_assoc, BitVec.and_self]

/-- A block of addresses. The bytes of the network are the number they
make, and no host bit of it is set: every value of the source is masked
when it is built. -/
structure Cidr (w : ℕ) where
  network : BitVec w
  prefixLen : ℕ
  within : prefixLen ≤ w
  masked : mask network prefixLen = network
  deriving DecidableEq

/-- `Cidr4`. -/
abbrev Cidr4 := Cidr 32

/-- `Cidr6`. -/
abbrev Cidr6 := Cidr 128

namespace Cidr

variable {w : ℕ}

/-- `contains`. -/
def contains (cidr : Cidr w) (address : BitVec w) : Bool :=
  mask address cidr.prefixLen == cidr.network

/-- `sibling_v4` and `sibling_v6`. -/
def sibling (left right : Cidr w) : Bool :=
  if left.prefixLen = 0 ∨ left.prefixLen ≠ right.prefixLen then false
  else
    left.network == mask left.network (left.prefixLen - 1) &&
      right.network == (mask left.network (left.prefixLen - 1) ||| 1#w <<< (w - left.prefixLen))

theorem sibling_masked {left right : Cidr w} (h : sibling left right = true) :
    mask left.network (left.prefixLen - 1) = left.network := by
  unfold sibling at h
  split_ifs at h
  rw [Bool.and_eq_true, beq_iff_eq] at h
  exact h.1.symm

/-- The parent of `left`, with one bit less. -/
def parent (left : Cidr w) (h : mask left.network (left.prefixLen - 1) = left.network) :
    Cidr w where
  network := left.network
  prefixLen := left.prefixLen - 1
  within := Nat.le_trans (Nat.sub_le _ _) left.within
  masked := h

/-- The order of the sort. Blocks that compare equal are equal, so there
is one sorted vector. -/
def le (left right : Cidr w) : Bool :=
  decide (left.network < right.network) ||
    left.network == right.network && decide (left.prefixLen ≤ right.prefixLen)

end Cidr

/-- `sibling_v4`. -/
def siblingV4 (left right : Cidr4) : Bool := left.sibling right

/-- `sibling_v6`. -/
def siblingV6 (left right : Cidr6) : Bool := left.sibling right

/-! ## Compaction in place -/

variable {w : ℕ}

/-- `while write >= 2 && sibling(values[write - 2], values[write - 1])`.
Both indices are below `write`, so the last case is a panic that does not
happen. -/
def mergeLoop (values : List (Cidr w)) : ℕ → List (Cidr w) × ℕ
  | write + 2 =>
    match values[write]?, values[write + 1]? with
    | some left, some right =>
      if h : left.sibling right = true then
        mergeLoop (values.set write (left.parent (Cidr.sibling_masked h))) (write + 1)
      else (values, write + 2)
    | _, _ => (values, write + 2)
  | write => (values, write)

/-- One round of `for read in 0..values.len()`. -/
def compactStep (state : List (Cidr w) × ℕ) (read : ℕ) : List (Cidr w) × ℕ :=
  match state.1[read]? with
  | none => state
  | some value =>
    if state.2 ≠ 0 ∧ (state.1[state.2 - 1]?.any fun top => top.contains value.network) then state
    else mergeLoop (state.1.set state.2 value) (state.2 + 1)

/-- The loop, over a sorted vector. -/
def compactLoop (values : List (Cidr w)) : List (Cidr w) × ℕ :=
  (List.range values.length).foldl compactStep (values, 0)

/-- Sorts, runs the loop, and truncates. -/
def compact (values : List (Cidr w)) : List (Cidr w) :=
  (compactLoop (values.mergeSort Cidr.le)).1.take (compactLoop (values.mergeSort Cidr.le)).2

/-- `compact_v4`. -/
def compactV4 (values : List Cidr4) : List Cidr4 := compact values

/-- `compact_v6`. -/
def compactV6 (values : List Cidr6) : List Cidr6 := compact values

/-! ## Categories -/

/-- `IpCategory`. -/
structure IpCategory where
  code : Code
  v4 : List Cidr4
  v6 : List Cidr6
  selectors : List Bytes

/-- `slice::partition_point`, of a slice that the predicate parts. -/
def partitionPoint {α : Type} (p : α → Bool) (values : List α) : ℕ := (values.takeWhile p).length

/-- One family of `IpCategory::matches`. -/
def lookup (values : List (Cidr w)) (address : BitVec w) : Bool :=
  match partitionPoint (fun cidr => decide (cidr.network ≤ address)) values with
  | 0 => false
  | candidate + 1 => values[candidate]?.any fun cidr => cidr.contains address

/-- `IpCategory::matches`. -/
def IpCategory.matches (category : IpCategory) : IpAddr → Bool
  | .v4 address => lookup category.v4 address
  | .v6 address => lookup category.v6 address

/-! ## The second pass -/

/-- What `parse_cidr_record` has read of a record. -/
structure CidrFields where
  ip : Option Bytes
  prefixLen : ℕ
  seenPrefix : Bool

/-- One field of a record. -/
def cidrField (code : Code) (stop : ℕ) (fields : CidrFields) : Reading CidrFields := do
  let key ← readKey .geoIp stop
  if key.field = 1 then do
    requireWire .geoIp key.wire 2 "CIDR.ip"
    if fields.ip.isSome then fail (.invalidCidr code.bytes .ipTwice)
    else do
      let len ← readLength .geoIp stop
      if len ≠ 4 ∧ len ≠ 16 then fail (.invalidCidr code.bytes .ipLength)
      else do
        let ip ← readBytes .geoIp stop len
        pure { fields with ip := some ip }
  else if key.field = 2 then do
    requireWire .geoIp key.wire 0 "CIDR.prefix"
    if fields.seenPrefix then fail (.invalidCidr code.bytes .prefixTwice)
    else do
      let prefixLen ← readVarint .geoIp stop
      pure { fields with prefixLen, seenPrefix := true }
  else do
    skipFieldPayload .geoIp stop key.wire
    pure fields

/-- The two vectors of a category that is being read. -/
structure Families where
  v4 : List Cidr4
  v6 : List Cidr6

/-- The end of `parse_cidr_record`: the record is pushed to the vector of
its family. -/
def pushCidr (code : Code) (fields : CidrFields) (families : Families) :
    Except GeoDataError Families :=
  match fields.ip with
  | none => .error (.invalidCidr code.bytes .ipMissing)
  | some ip =>
    if ip.length = 4 then
      if h : fields.prefixLen ≤ 32 then
        .ok { families with
          v4 := families.v4 ++ [⟨maskV4 (BitVec.ofNat 32 (ofBe ip)) fields.prefixLen,
            fields.prefixLen, h, mask_mask _ _⟩] }
      else .error (.invalidCidr code.bytes .prefixWidth)
    else if ip.length = 16 then
      if h : fields.prefixLen ≤ 128 then
        .ok { families with
          v6 := families.v6 ++ [⟨maskV6 (BitVec.ofNat 128 (ofBe ip)) fields.prefixLen,
            fields.prefixLen, h, mask_mask _ _⟩] }
      else .error (.invalidCidr code.bytes .prefixWidth)
    else .error (.invalidCidr code.bytes .ipMissing)

/-- `parse_cidr_record`. -/
def parseCidrRecord (stop : ℕ) (code : Code) (families : Families) : Reading Families := do
  let fields ← loop stop (cidrField code stop) ⟨none, 0, false⟩
  lift (pushCidr code fields families)

/-- What `parse_ip_category` has read of a category. -/
structure IpProgress where
  seenCode : Bool
  remainingRecords : ℕ
  families : Families

/-- One field of a category. -/
def ipField (range : SelectedRange) (stop : ℕ) (progress : IpProgress) : Reading IpProgress := do
  let key ← readKey .geoIp stop
  if key.field = 1 then do
    requireWire .geoIp key.wire 2 "GeoIP code"
    if progress.seenCode then malformed .geoIp .containsCodeTwice
    else do
      let code ← readCode .geoIp stop
      if code ≠ range.code then malformed .geoIp .codeChanged
      else pure { progress with seenCode := true }
  else if key.field = 2 then do
    requireWire .geoIp key.wire 2 "CIDR"
    if progress.remainingRecords = 0 then malformed .geoIp .recordCountChanged
    else do
      let len ← readLength .geoIp stop
      let start ← position
      let recordEnd ← lift (checkedEnd .geoIp start len stop)
      let families ← parseCidrRecord recordEnd range.code progress.families
      seek recordEnd
      pure { progress with
        remainingRecords := progress.remainingRecords - 1, families := families }
  else if key.field = 3 then do
    requireWire .geoIp key.wire 0 "GeoIP.reverse_match"
    let _ ← readVarint .geoIp stop
    pure progress
  else do
    skipFieldPayload .geoIp stop key.wire
    pure progress

/-- The end of `parse_ip_category`. -/
def finishIp (range : SelectedRange) (progress : IpProgress) : Except GeoDataError IpCategory :=
  if !progress.seenCode then .error (.malformed .geoIp .missingCode)
  else if progress.remainingRecords ≠ 0 then .error (.malformed .geoIp .recordCountChanged)
  else .ok ⟨range.code, compactV4 progress.families.v4, compactV6 progress.families.v6, []⟩

/-- `parse_ip_category`. -/
def parseIpCategory (range : SelectedRange) : Reading IpCategory := do
  let stop ← lift (checkedEnd .geoIp range.offset range.len (2 ^ 64 - 1))
  seek range.offset
  let progress ← loop stop (ipField range stop) ⟨false, range.recordCount, ⟨[], []⟩⟩
  lift (finishIp range progress)

end Vole.Geodata
