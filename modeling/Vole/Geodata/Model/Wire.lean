import Mathlib.Algebra.Group.Nat.Defs
import Vole.Common.Bytes
import Vole.Common.Cursor
import Vole.Common.Utf8

/-!
# GeoData files: wire framing and the first pass

The helpers of `geodata/mod.rs` that read protobuf framing through a file
position, and the pass that indexes the categories of a file without
decoding their records. The file is the list of its bytes and is the
same in both passes; the capacity ledger, and allocations that fail, are
left out.
-/

namespace Vole.Geodata

open Cursor

/-- The two supported Xray GeoData assets. -/
inductive GeoDataKind where
  | geoSite
  | geoIp
  deriving DecidableEq, Repr

def GeoDataKind.fileName : GeoDataKind → String
  | geoSite => "geosite.dat"
  | geoIp => "geoip.dat"

/-! ## Errors -/

/-- What `GeoDataError::Malformed` reports. -/
inductive Detail where
  | topLevel
  | categoryCodeTwice
  | recordCountOverflow
  | categoryCodeMissing
  | containsCodeTwice
  | codeChanged
  | recordCountChanged
  | missingCode
  | wire (field : String) (actual expected : ℕ)
  | fieldNumber
  | varintTruncated
  | varintOverflow
  | varintTooLong
  | lengthOverflow
  | lengthExceeds
  | wireType
  | notUtf8
  | insideUtf8
  | rangeOverflow
  deriving DecidableEq, Repr

/-- What `GeoDataError::InvalidDomain` reports. -/
inductive DomainDetail where
  | typeTwice
  | valueTwice
  | valueMissing
  | notUtf8
  | substr
  | empty
  | regexOffset
  | regexLength
  | unsupported (domainType : ℕ)
  deriving DecidableEq, Repr

/-- What `GeoDataError::InvalidCidr` reports. -/
inductive CidrDetail where
  | ipTwice
  | ipLength
  | prefixTwice
  | prefixWidth
  | ipMissing
  deriving DecidableEq, Repr

/-- `GeoDataError`, as far as reading a file that is open can report it.
The only I/O error of a file that does not change is its end. -/
inductive GeoDataError where
  | endOfFile (path : String)
  | invalidCode (kind : GeoDataKind) (code : Bytes)
  | duplicateCode (kind : GeoDataKind) (code : Bytes)
  | missingCode (kind : GeoDataKind) (code : Bytes)
  | malformed (kind : GeoDataKind) (detail : Detail)
  | invalidDomain (code : Bytes) (detail : DomainDetail)
  | invalidRegex (code : Bytes) (detail : String)
  | invalidCidr (code : Bytes) (detail : CidrDetail)
  | resourceLimit (resource : String) (actual maximum : ℕ)
  deriving DecidableEq, Repr

/-- A reading of a GeoData file. -/
abbrev Reading := Cursor GeoDataError

/-- `malformed`. -/
def malformed {α : Type} (kind : GeoDataKind) (detail : Detail) : Reading α :=
  fail (.malformed kind detail)

/-! ## Codes -/

/-- `MAX_CODE_BYTES`. -/
def maxCodeBytes : ℕ := 64

/-- The bytes a code has after its first one. -/
def codeByte (byte : UInt8) : Bool :=
  Bytes.isAlphanumeric byte || [46, 95, 43, 33, 45].contains byte

/-- `Code`: the source pads the bytes with zeros, which no code contains. -/
structure Code where
  bytes : Bytes
  deriving DecidableEq, Repr

namespace Code

/-- `Code::parse`. -/
def parse (kind : GeoDataKind) (raw : Bytes) : Except GeoDataError Code :=
  match raw with
  | [] => .error (.invalidCode kind raw)
  | first :: rest =>
    if raw.length > maxCodeBytes || !Bytes.isAlphanumeric first || !rest.all codeByte then
      .error (.invalidCode kind raw)
    else .ok ⟨Bytes.toAsciiLowercase raw⟩

/-- The order of codes. -/
def le (left right : Code) : Bool := decide (left.bytes ≤ right.bytes)

end Code

/-! ## Framing -/

/-- `checked_end`. -/
def checkedEnd (kind : GeoDataKind) (start len outerEnd : ℕ) : Except GeoDataError ℕ :=
  if 2 ^ 64 ≤ start + len then .error (.malformed kind .lengthOverflow)
  else if outerEnd < start + len then .error (.malformed kind .lengthExceeds)
  else .ok (start + len)

/-- The rounds of `read_varint` that are left, and the value so far. -/
def readVarintFrom (kind : GeoDataKind) (stop : ℕ) : ℕ → ℕ → Reading ℕ
  | 0, _ => malformed kind .varintTooLong
  | left + 1, value => do
    let start ← position
    if stop ≤ start then malformed kind .varintTruncated
    else do
      let bytes ← readExact (.endOfFile kind.fileName) 1
      let byte := (bytes.headD 0).toNat
      if left = 0 ∧ 1 < byte then malformed kind .varintOverflow
      else if byte < 128 then pure (value ||| (byte % 128) <<< ((9 - left) * 7))
      else readVarintFrom kind stop left (value ||| (byte % 128) <<< ((9 - left) * 7))

/-- `read_varint`: ten rounds. -/
def readVarint (kind : GeoDataKind) (stop : ℕ) : Reading ℕ := readVarintFrom kind stop 10 0

/-- A protobuf key. -/
structure Key where
  field : ℕ
  wire : ℕ
  deriving DecidableEq, Repr

section

variable (kind : GeoDataKind) (stop : ℕ)

/-- `read_key`. -/
def readKey : Reading Key := do
  let key ← readVarint kind stop
  if key / 8 = 0 ∨ 2 ^ 32 ≤ key / 8 then malformed kind .fieldNumber
  else pure ⟨key / 8, key % 8⟩

/-- `read_length`. -/
def readLength : Reading ℕ := do
  let len ← readVarint kind stop
  let start ← position
  let _ ← lift (checkedEnd kind start len stop)
  pure len

/-- `read_exact`. -/
def readBytes (stop len : ℕ) : Reading Bytes := do
  let start ← position
  let _ ← lift (checkedEnd kind start len stop)
  readExact (.endOfFile kind.fileName) len

/-- `skip_bytes`. -/
def skipBytes (stop len : ℕ) : Reading Unit := do
  let start ← position
  let target ← lift (checkedEnd kind start len stop)
  seek target

/-- `skip_field_payload`. -/
def skipFieldPayload (stop wire : ℕ) : Reading Unit :=
  if wire = 0 then do
    let _ ← readVarint kind stop
    pure ()
  else if wire = 1 then skipBytes kind stop 8
  else if wire = 2 then do
    let len ← readLength kind stop
    skipBytes kind stop len
  else if wire = 5 then skipBytes kind stop 4
  else malformed kind .wireType

/-- `require_wire`. -/
def requireWire (actual expected : ℕ) (field : String) : Reading Unit :=
  if actual ≠ expected then malformed kind (.wire field actual expected) else pure ()

/-- `read_code`, which `scan_category_header` spells out. -/
def readCode : Reading Code := do
  let len ← readLength kind stop
  if maxCodeBytes < len then
    fail (.invalidCode kind (Bytes.ofString "<more than 64 bytes>"))
  else do
    let raw ← readBytes kind stop len
    lift (Code.parse kind raw)

/-! ## The first pass -/

/-- What `scan_category_header` has seen. -/
structure Header where
  code : Option Code
  recordCount : ℕ
  deriving DecidableEq, Repr

/-- One field of a category. -/
def scanField (header : Header) : Reading Header := do
  let key ← readKey kind stop
  if key.field = 1 then do
    requireWire kind key.wire 2 "category code"
    if header.code.isSome then malformed kind .categoryCodeTwice
    else do
      let code ← readCode kind stop
      pure { header with code := some code }
  else if key.field = 2 then do
    requireWire kind key.wire 2 "category record"
    skipFieldPayload kind stop key.wire
    if 2 ^ 64 ≤ header.recordCount + 1 then malformed kind .recordCountOverflow
    else pure { header with recordCount := header.recordCount + 1 }
  else if key.field = 3 ∧ kind = .geoIp then do
    requireWire kind key.wire 0 "reverse_match"
    let _ ← readVarint kind stop
    pure header
  else do
    skipFieldPayload kind stop key.wire
    pure header

/-- `scan_category_header`. -/
def scanCategoryHeader : Reading (Code × ℕ) := do
  let header ← loop stop (scanField kind stop) ⟨none, 0⟩
  match header.code with
  | none => malformed kind .categoryCodeMissing
  | some code => pure (code, header.recordCount)

end

/-- `IndexEntry` and `SelectedRange`, which have the same fields. -/
structure SelectedRange where
  code : Code
  offset : ℕ
  len : ℕ
  recordCount : ℕ
  deriving DecidableEq, Repr

/-- One entry of the file. -/
def indexEntry (kind : GeoDataKind) (fileLen : ℕ) (index : List SelectedRange) :
    Reading (List SelectedRange) := do
  let key ← readKey kind fileLen
  if key.field ≠ 1 ∨ key.wire ≠ 2 then malformed kind .topLevel
  else do
    let entryLen ← readLength kind fileLen
    let offset ← position
    let stop ← lift (checkedEnd kind offset entryLen fileLen)
    let header ← scanCategoryHeader kind stop
    seek stop
    pure (index ++ [⟨header.1, offset, entryLen, header.2⟩])

/-- The first code that stands twice in a sorted index. -/
def duplicateCode : List SelectedRange → Option Code
  | left :: right :: rest =>
    if left.code = right.code then some left.code else duplicateCode (right :: rest)
  | _ => none

/-- Looks every requested code up in a sorted index. -/
def selectRanges (kind : GeoDataKind) (index : List SelectedRange) :
    List Code → Except GeoDataError (List SelectedRange)
  | [] => .ok []
  | code :: rest =>
    match index.find? fun entry => entry.code = code with
    | none => .error (.missingCode kind code.bytes)
    | some entry =>
      match selectRanges kind index rest with
      | .error e => .error e
      | .ok selected => .ok (entry :: selected)

/-- The end of `index_selected`. -/
def selectCodes (kind : GeoDataKind) (requested : List Code) (index : List SelectedRange) :
    Except GeoDataError (List SelectedRange) :=
  match duplicateCode (index.mergeSort fun left right => left.code.le right.code) with
  | some code => .error (.duplicateCode kind code.bytes)
  | none => selectRanges kind (index.mergeSort fun left right => left.code.le right.code) requested

/-- `index_selected`. -/
def indexSelected (kind : GeoDataKind) (fileLen : ℕ) (requested : List Code) :
    Reading (List SelectedRange) := do
  seek 0
  let index ← loop fileLen (indexEntry kind fileLen) []
  lift (selectCodes kind requested index)

end Vole.Geodata
