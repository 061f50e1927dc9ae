import Mathlib.Data.List.Dedup
import Vole.Geodata.Model.Wire

/-!
# GeoSite categories

The second pass over a GeoSite category: every record is decoded at most
once into an arena that all requested selectors share, with sorted
indexes for the whole category and for each attribute filter. Code
outside the repository is a field of `Libraries`.
-/

namespace Vole.Geodata

open Cursor

/-! ## Selectors -/

/-- `selectors::positive_selector`. -/
def positiveSelector (raw : Bytes) : Bytes := if raw.head? = some 33 then raw.tail else raw

/-- `selectors::selector_attributes`. -/
def selectorAttributes (raw : Bytes) : Bytes := ((positiveSelector raw).dropWhile (· ≠ 64)).tail

/-! ## Categories -/

/-- `SitePatternKind`, in its order. -/
inductive SitePatternKind where
  | substr
  | domain
  | full
  deriving DecidableEq, Repr

/-- The derived order. -/
def SitePatternKind.rank : SitePatternKind → ℕ
  | substr => 0
  | domain => 1
  | full => 2

/-- `SitePattern`: a value of the arena. -/
structure SitePattern where
  kind : SitePatternKind
  start : ℕ
  len : ℕ
  deriving DecidableEq, Repr

/-- `SitePattern::value`. -/
def SitePattern.value (pattern : SitePattern) (values : Bytes) : Bytes :=
  (values.drop pattern.start).take pattern.len

/-- `SiteFilter`. -/
structure SiteFilter where
  attributes : Bytes
  allRecords : Bool
  patterns : List SitePattern
  regexIndices : List ℕ
  deriving DecidableEq, Repr

/-- `SiteCategory`, with compiled expressions `ρ`. -/
structure SiteCategory (ρ : Type) where
  code : Code
  patterns : List SitePattern
  values : Bytes
  regexes : List ρ
  selectors : List Bytes
  filters : List SiteFilter

/-- What the source takes from the `idna`, `regex` and `regex-syntax`
crates and from the standard library's Unicode tables. -/
structure Libraries (ρ : Type) where
  domainToAscii : Bytes → Option Bytes
  toLowercase : Bytes → Bytes
  foldAttribute : Bytes → Bytes
  compile : Bytes → Except String ρ
  isMatch : ρ → Bytes → Bool

/-- The order of patterns. -/
def patternLe (values : Bytes) (left right : SitePattern) : Bool :=
  decide (left.kind.rank < right.kind.rank) ||
    left.kind == right.kind && decide (left.value values ≤ right.value values)

/-! ## Strings of a record -/

/-- What the byte scanner of `validate_utf8_bytes` expects. -/
structure Utf8Scan where
  continuation : ℕ
  firstMin : UInt8
  firstMax : UInt8
  deriving DecidableEq, Repr

/-- Between two characters. -/
def Utf8Scan.start : Utf8Scan := ⟨0, 0x80, 0xbf⟩

/-- One byte. -/
def Utf8Scan.step (scan : Utf8Scan) (byte : UInt8) : Option Utf8Scan :=
  if scan.continuation ≠ 0 then
    if byte < scan.firstMin ∨ scan.firstMax < byte then none
    else some ⟨scan.continuation - 1, 0x80, 0xbf⟩
  else if byte ≤ 0x7f then some scan
  else if 0xc2 ≤ byte ∧ byte ≤ 0xdf then some { scan with continuation := 1 }
  else if byte = 0xe0 then some { scan with continuation := 2, firstMin := 0xa0 }
  else if byte = 0xed then some { scan with continuation := 2, firstMax := 0x9f }
  else if 0xe1 ≤ byte ∧ byte ≤ 0xef then some { scan with continuation := 2 }
  else if byte = 0xf0 then some { scan with continuation := 3, firstMin := 0x90 }
  else if 0xf1 ≤ byte ∧ byte ≤ 0xf3 then some { scan with continuation := 3 }
  else if byte = 0xf4 then some { scan with continuation := 3, firstMax := 0x8f }
  else none

/-- One chunk, of 256 bytes or of what is left. -/
def utf8Chunk (kind : GeoDataKind) (stop : ℕ) (scan : Utf8Scan) : Reading Utf8Scan := do
  let start ← position
  let bytes ← readExact (.endOfFile kind.fileName) (min (stop - start) 256)
  match bytes.foldlM Utf8Scan.step scan with
  | none => malformed kind .notUtf8
  | some scan => pure scan

/-- `validate_utf8_bytes`. -/
def validateUtf8Bytes (kind : GeoDataKind) (len stop : ℕ) : Reading Unit := do
  let start ← position
  let last ← lift (checkedEnd kind start len stop)
  let scan ← loop last (utf8Chunk kind last) .start
  if scan.continuation ≠ 0 then malformed kind .insideUtf8 else pure ()

/-- `read_scratch`. -/
def readScratch (kind : GeoDataKind) (offset len : ℕ) : Reading Bytes := do
  seek offset
  if 2 ^ 64 ≤ offset + len then malformed kind .rangeOverflow
  else readBytes kind (offset + len) len

/-! ## The wire of a record -/

/-- One field of an attribute: the last key counts. -/
def attributeField (stop : ℕ) (key : Option (ℕ × ℕ)) : Reading (Option (ℕ × ℕ)) := do
  let field ← readKey .geoSite stop
  if field.field = 1 then do
    requireWire .geoSite field.wire 2 "Attribute.key"
    let len ← readLength .geoSite stop
    let start ← position
    validateUtf8Bytes .geoSite len stop
    pure (some (start, len))
  else if field.field = 2 ∨ field.field = 3 then do
    requireWire .geoSite field.wire 0 "Attribute value"
    let _ ← readVarint .geoSite stop
    pure key
  else do
    skipFieldPayload .geoSite stop field.wire
    pure key

/-- `validate_attribute`, and the inner loop of `scan_domain_attributes`. -/
def readAttribute (stop : ℕ) : Reading (Option (ℕ × ℕ)) := loop stop (attributeField stop) none

/-- One field of a record, for its attributes: the keys so far. -/
def scanAttributeField (stop : ℕ) (keys : List Bytes) : Reading (List Bytes) := do
  let field ← readKey .geoSite stop
  if field.field ≠ 3 then do
    skipFieldPayload .geoSite stop field.wire
    pure keys
  else do
    requireWire .geoSite field.wire 2 "Domain.attribute"
    let len ← readLength .geoSite stop
    let start ← position
    let attributeEnd ← lift (checkedEnd .geoSite start len stop)
    let range ← readAttribute attributeEnd
    match range with
    | none => do
      seek attributeEnd
      pure keys
    | some (offset, len) => do
      let key ← readScratch .geoSite offset len
      seek attributeEnd
      pure (keys ++ [key])

/-- `scan_domain_attributes`: the keys that it compares. -/
def scanDomainAttributes (stop : ℕ) : Reading (List Bytes) := loop stop (scanAttributeField stop) []

/-- What `parse_domain_record` has read of a record. -/
structure DomainFields where
  domainType : ℕ
  seenType : Bool
  value : Option (ℕ × ℕ)
  deriving DecidableEq, Repr

/-- One field of a record. -/
def domainField (code : Code) (stop : ℕ) (fields : DomainFields) : Reading DomainFields := do
  let key ← readKey .geoSite stop
  if key.field = 1 then do
    requireWire .geoSite key.wire 0 "Domain.type"
    if fields.seenType then fail (.invalidDomain code.bytes .typeTwice)
    else do
      let domainType ← readVarint .geoSite stop
      pure { fields with domainType, seenType := true }
  else if key.field = 2 then do
    requireWire .geoSite key.wire 2 "Domain.value"
    if fields.value.isSome then fail (.invalidDomain code.bytes .valueTwice)
    else do
      let len ← readLength .geoSite stop
      let start ← position
      let valueEnd ← lift (checkedEnd .geoSite start len stop)
      seek valueEnd
      pure { fields with value := some (start, len) }
  else if key.field = 3 then do
    requireWire .geoSite key.wire 2 "Domain.attribute"
    let len ← readLength .geoSite stop
    let start ← position
    let attributeEnd ← lift (checkedEnd .geoSite start len stop)
    let _ ← readAttribute attributeEnd
    seek attributeEnd
    pure fields
  else do
    skipFieldPayload .geoSite stop key.wire
    pure fields

/-- The first half of `parse_domain_record`: the type and the bytes. -/
def readDomainRecord (stop : ℕ) (code : Code) : Reading (ℕ × Bytes) := do
  let fields ← loop stop (domainField code stop) ⟨0, false, none⟩
  match fields.value with
  | none => fail (.invalidDomain code.bytes .valueMissing)
  | some (offset, len) => do
    let raw ← readScratch .geoSite offset len
    pure (fields.domainType, raw)

/-! ## The arena -/

/-- What the records of a category are decoded into. -/
structure Arena where
  patterns : List SitePattern
  values : Bytes
  regexBytes : Bytes
  regexRanges : List (ℕ × ℕ)
  deriving DecidableEq, Repr

/-- `append_site_value`. -/
def appendSiteValue (kind : SitePatternKind) (value : Bytes) (arena : Arena) :
    Except GeoDataError Arena :=
  if 2 ^ 32 ≤ arena.values.length then
    .error (.resourceLimit "GeoSite compact value offset" arena.values.length (2 ^ 32 - 1))
  else if 2 ^ 32 ≤ value.length then
    .error (.resourceLimit "GeoSite compact value length" value.length (2 ^ 32 - 1))
  else
    .ok { arena with
      values := arena.values ++ value
      patterns := arena.patterns ++ [⟨kind, arena.values.length, value.length⟩] }

/-- The flags after `(?`: `u`, `x` or `R`, past `i`, `m`, `s`, `U` and `-`. -/
def badFlag : Bytes → Bool
  | [] => false
  | byte :: rest =>
    if [117, 120, 82].contains byte then true
    else if [105, 109, 115, 85, 45].contains byte then badFlag rest
    else false

/-- `has_unsupported_inline_regex_flag`. -/
def hasUnsupportedInlineRegexFlag (escaped inClass : Bool) : Bytes → Bool
  | [] => false
  | byte :: rest =>
    if escaped then hasUnsupportedInlineRegexFlag false inClass rest
    else if byte = 92 then hasUnsupportedInlineRegexFlag true inClass rest
    else if byte = 91 ∧ !inClass then hasUnsupportedInlineRegexFlag false true rest
    else if byte = 93 ∧ inClass then hasUnsupportedInlineRegexFlag false false rest
    else if byte = 40 ∧ !inClass ∧ rest.head? = some 63 ∧ badFlag rest.tail then true
    else hasUnsupportedInlineRegexFlag false inClass rest

/-- `validate_regex_source`: what is wrong with a source. -/
def regexSourceFault (pattern : Bytes) : Option String :=
  if !Bytes.isAscii pattern then some "the Vole Regex subset only accepts ASCII source"
  else if hasUnsupportedInlineRegexFlag false false pattern then
    some "inline `u`, `x`, and `R` flags are outside the supported Go/Rust subset"
  else none

variable {ρ : Type} (libraries : Libraries ρ)

/-- A literal of type `Domain` or `Full`, without its last dot. -/
def normalizeLiteral (raw : Bytes) : Bytes :=
  if Bytes.isAscii raw then Bytes.toAsciiLowercase raw
  else
    ((libraries.domainToAscii raw).filter fun value => !value.isEmpty).getD
      (libraries.toLowercase raw)

/-- The second half of `parse_domain_record`. -/
def appendDomain (code : Code) (domainType : ℕ) (raw : Bytes)
    (arena : Arena) : Except GeoDataError Arena :=
  if !Utf8.isUtf8 raw then .error (.invalidDomain code.bytes .notUtf8)
  else if domainType = 0 then
    if raw.isEmpty || !Bytes.isAscii raw then .error (.invalidDomain code.bytes .substr)
    else appendSiteValue .substr (Bytes.toAsciiLowercase raw) arena
  else if domainType = 1 then
    match regexSourceFault raw with
    | some detail => .error (.invalidRegex code.bytes detail)
    | none =>
      if 2 ^ 32 ≤ arena.regexBytes.length then .error (.invalidDomain code.bytes .regexOffset)
      else if 2 ^ 32 ≤ raw.length then .error (.invalidDomain code.bytes .regexLength)
      else
        .ok { arena with
          regexBytes := arena.regexBytes ++ raw
          regexRanges := arena.regexRanges ++ [(arena.regexBytes.length, raw.length)] }
  else if domainType = 2 ∨ domainType = 3 then
    if (Bytes.dropFinal 46 raw).isEmpty then .error (.invalidDomain code.bytes .empty)
    else
      appendSiteValue (if domainType = 2 then .domain else .full)
        (normalizeLiteral libraries (Bytes.dropFinal 46 raw)) arena
  else .error (.invalidDomain code.bytes (.unsupported domainType))

/-- `compile_regex_set`. -/
def compileRegexSet (code : Code) (bytes : Bytes) : List (ℕ × ℕ) → Except GeoDataError (List ρ)
  | [] => .ok []
  | (start, len) :: rest =>
    match libraries.compile ((bytes.drop start).take len) with
    | .error detail => .error (.invalidRegex code.bytes detail)
    | .ok regex =>
      match compileRegexSet code bytes rest with
      | .error e => .error e
      | .ok regexes => .ok (regex :: regexes)

/-! ## The second pass -/

/-- The filters of the requested selectors, one for each list of
attributes. -/
def requestedFilters (selectors : List Bytes) : List SiteFilter :=
  let attributes := ((selectors.map selectorAttributes).filter (· ≠ [])).reverse.dedup.reverse
  let all := decide (attributes.length = 1) && !selectors.any (selectorAttributes · = [])
  attributes.map fun attributes => ⟨attributes, all, [], []⟩

/-- A wanted attribute is the key of a record, by simple folding. -/
def attributeIs (wanted key : Bytes) : Bool :=
  if Bytes.isAscii key then Bytes.eqIgnoreAsciiCase wanted key
  else wanted == libraries.foldAttribute key

/-- A record with these keys has all attributes of a filter. The bitmap
of the source has a bit for each attribute of any filter. -/
def filterMatches (keys : List Bytes) (filter : SiteFilter) : Bool :=
  (filter.attributes.splitOn 64).all fun wanted => keys.any (attributeIs libraries wanted)

/-- A filter after a record was decoded. -/
def SiteFilter.add (before after : Arena) (matched : Bool) (filter : SiteFilter) : SiteFilter :=
  if !matched || filter.allRecords then filter
  else
    { filter with
      patterns := filter.patterns ++ after.patterns[before.patterns.length]?.toList
      regexIndices := filter.regexIndices ++
        if before.regexRanges.length < after.regexRanges.length then [before.regexRanges.length]
        else [] }

/-- What the records of a category have become. -/
structure Decoded where
  arena : Arena
  filters : List SiteFilter
  deriving DecidableEq, Repr

/-- A record that some requested selector may need is decoded. -/
def Decoded.add (code : Code) (decoded : Decoded)
    (keys : List Bytes) (domainType : ℕ) (raw : Bytes) : Except GeoDataError Decoded :=
  match appendDomain libraries code domainType raw decoded.arena with
  | .error e => .error e
  | .ok arena =>
    .ok ⟨arena, decoded.filters.map fun filter =>
      filter.add decoded.arena arena (filterMatches libraries keys filter)⟩

/-- Some requested selector has no attributes, or has all of its
attributes among these keys. -/
def wanted (selectors : List Bytes) (keys : List Bytes) (filters : List SiteFilter) : Bool :=
  selectors.any (selectorAttributes · = []) || filters.any (filterMatches libraries keys)

/-- What `parse_site_category` has read of a category. -/
structure SiteProgress where
  seenCode : Bool
  remainingRecords : ℕ
  decoded : Decoded
  deriving DecidableEq, Repr

/-- The keys of a record, where some filter asks for them. -/
def recordKeys (recordEnd : ℕ) (filters : List SiteFilter) : Reading (List Bytes) :=
  if filters.isEmpty then pure []
  else do
    let start ← position
    let keys ← scanDomainAttributes recordEnd
    seek start
    pure keys

/-- One record. -/
def siteRecord (selectors : List Bytes) (code : Code) (recordEnd : ℕ) (decoded : Decoded) :
    Reading Decoded := do
  let keys ← recordKeys recordEnd decoded.filters
  if wanted libraries selectors keys decoded.filters then do
    let record ← readDomainRecord recordEnd code
    lift (decoded.add libraries code keys record.1 record.2)
  else pure decoded

/-- One field of a category. -/
def siteField (selectors : List Bytes) (range : SelectedRange) (stop : ℕ)
    (progress : SiteProgress) : Reading SiteProgress := do
  let key ← readKey .geoSite stop
  if key.field = 1 then do
    requireWire .geoSite key.wire 2 "GeoSite code"
    if progress.seenCode then malformed .geoSite .containsCodeTwice
    else do
      let code ← readCode .geoSite stop
      if code ≠ range.code then malformed .geoSite .codeChanged
      else pure { progress with seenCode := true }
  else if key.field = 2 then do
    requireWire .geoSite key.wire 2 "Domain"
    if progress.remainingRecords = 0 then malformed .geoSite .recordCountChanged
    else do
      let len ← readLength .geoSite stop
      let start ← position
      let recordEnd ← lift (checkedEnd .geoSite start len stop)
      let decoded ← siteRecord libraries selectors range.code recordEnd progress.decoded
      seek recordEnd
      pure { progress with
        remainingRecords := progress.remainingRecords - 1, decoded := decoded }
  else do
    skipFieldPayload .geoSite stop key.wire
    pure progress

/-- The category of what was decoded: its indexes are sorted. -/
def finishDecoded (selectors : List Bytes) (code : Code) (decoded : Decoded) :
    Except GeoDataError (SiteCategory ρ) :=
  match compileRegexSet libraries code decoded.arena.regexBytes decoded.arena.regexRanges with
  | .error e => .error e
  | .ok regexes =>
    .ok ⟨code, decoded.arena.patterns.mergeSort (patternLe decoded.arena.values),
      decoded.arena.values, regexes, selectors,
      decoded.filters.map fun filter =>
        { filter with patterns := filter.patterns.mergeSort (patternLe decoded.arena.values) }⟩

/-- The end of `parse_site_category`. -/
def finishSite (selectors : List Bytes) (range : SelectedRange) (progress : SiteProgress) :
    Except GeoDataError (SiteCategory ρ) :=
  if !progress.seenCode then .error (.malformed .geoSite .missingCode)
  else if progress.remainingRecords ≠ 0 then .error (.malformed .geoSite .recordCountChanged)
  else finishDecoded libraries selectors range.code progress.decoded

/-- `parse_site_category`. -/
def parseSiteCategory (range : SelectedRange) (selectors : List Bytes) :
    Reading (SiteCategory ρ) := do
  let stop ← lift (checkedEnd .geoSite range.offset range.len (2 ^ 64 - 1))
  seek range.offset
  let progress ← loop stop (siteField libraries selectors range stop)
    ⟨false, range.recordCount, ⟨⟨[], [], [], []⟩, requestedFilters selectors⟩⟩
  lift (finishSite libraries selectors range progress)

end Vole.Geodata
