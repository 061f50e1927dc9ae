import Vole.Common.Bytes

/-!
# Routing rules

The ordered rule set: `RuleSet::compile`, which normalises the textual
values once, and the two evaluation loops. `evaluateWithGeo` runs from
the top and may stop before an IP rule to ask for a lazy DNS lookup;
`evaluateWithResolvedIps` continues from that rule with the addresses the
lookup returned. Code outside the repository is a field of `TextTables`.
-/

namespace Vole

/-- `std::net::IpAddr`. -/
inductive IpAddr where
  | v4 (bits : BitVec 32)
  | v6 (bits : BitVec 128)
  deriving DecidableEq, Repr

namespace IpAddr

/-- `IpAddr::is_ipv4`. -/
def isIpv4 : IpAddr → Bool
  | v4 _ => true
  | v6 _ => false

/-- `IpAddr::is_ipv6`. -/
def isIpv6 : IpAddr → Bool
  | v4 _ => false
  | v6 _ => true

end IpAddr

/-- `config::Network`. -/
inductive Network where
  | tcp
  | udp
  deriving DecidableEq, Repr

/-- `config::RouteTargetId`: a concrete proxy or a select group, by index. -/
inductive RouteTargetId where
  | proxy (index : ℕ)
  | group (index : ℕ)
  deriving DecidableEq, Repr

/-- `config::RuleAction`. -/
inductive RuleAction where
  | route (target : RouteTargetId)
  | direct
  | reject
  deriving DecidableEq, Repr

/-- `config::IpCidr`. -/
structure IpCidr where
  network : IpAddr
  prefixLen : UInt8
  deriving DecidableEq, Repr

/-- `config::PortRange`, both ends inclusive. -/
structure PortRange where
  start : UInt16
  stop : UInt16
  deriving DecidableEq, Repr

namespace Routing

/-- `config::RuleKind`. -/
inductive RuleKind where
  | domain (value : Bytes)
  | domainSuffix (value : Bytes)
  | domainKeyword (value : Bytes)
  | geoSite (selector : Bytes)
  | geoIp (selector : Bytes)
  | ipCidr (cidr : IpCidr)
  | dstPorts (ranges : List PortRange)
  | network (network : Network)
  | matchAll
  deriving DecidableEq, Repr

/-- `config::RuleSpec`. -/
structure RuleSpec where
  kind : RuleKind
  action : RuleAction
  noResolve : Bool
  deriving DecidableEq, Repr

/-- `routing::RoutingContext`. -/
structure RoutingContext where
  network : Network
  destinationPort : UInt16
  normalizedDomain : Option Bytes
  destinationIp : Option IpAddr
  pinnedIp : Option IpAddr
  ipResolutionUnavailable : Bool
  deriving DecidableEq, Repr

namespace RoutingContext

/-- An address selected by runtime DNS, or the literal destination. -/
def effectiveIp (ctx : RoutingContext) : Option IpAddr := ctx.pinnedIp.or ctx.destinationIp

/-- Pins the address a lazy DNS decision chose. -/
def pinIp (ctx : RoutingContext) (address : IpAddr) : RoutingContext :=
  { ctx with pinnedIp := some address, ipResolutionUnavailable := false }

def shouldRequestIpResolution (ctx : RoutingContext) : Bool :=
  ctx.destinationIp.isNone && ctx.pinnedIp.isNone && !ctx.ipResolutionUnavailable

end RoutingContext

/-- One immutable `GeoMatcher` view, as a routing decision reads it. -/
structure GeoMatcher where
  geositeAvailable : Bytes → Bool
  geoipAvailable : Bytes → Bool
  matchesGeosite : Bytes → Bytes → Bool
  matchesGeoip : Bytes → IpAddr → Bool

/-- `routing::EmptyGeoMatcher`. -/
def emptyGeoMatcher : GeoMatcher where
  geositeAvailable _ := false
  geoipAvailable _ := false
  matchesGeosite _ _ := false
  matchesGeoip _ _ := false

/-! ## Text normalisation -/

/-- `routing::DomainNameError`. -/
inductive DomainNameError where
  | empty
  | invalidIdna
  deriving DecidableEq, Repr

/-- What becomes of one `@attribute` of a GeoData selector. -/
inductive Attribute where
  /-- It holds a control, a space, `@` or `,`. -/
  | invalid
  /-- It is blank and skipped. -/
  | blank
  /-- Its lower-cased and case-folded key. -/
  | key (text : Bytes)
  deriving DecidableEq, Repr

/-- The Unicode tables of the `idna` and `regex-syntax` crates and of the
standard library, which the repository calls and does not contain. -/
structure TextTables where
  /-- `idna::domain_to_ascii_strict`. -/
  domainToAsciiStrict : Bytes → Option Bytes
  /-- The Unicode trimming, character test, lower-casing and simple
  folding `normalize_selector` applies to one attribute. -/
  foldAttribute : Bytes → Attribute

/-- `routing::valid_opaque_ascii_dns_name`. -/
def validOpaqueAsciiDnsName (value : Bytes) : Bool :=
  Bytes.isAscii value && decide (value.length ≤ 253) &&
    (value.splitOn 46).all fun label =>
      !label.isEmpty && decide (label.length ≤ 63) && label.head? != some 45 &&
        label.getLast? != some 45 && label.all fun b => Bytes.isAlphanumeric b || b == 45

/-- `routing::normalize_domain_name`. -/
def normalizeDomainName (tables : TextTables) (value : Bytes) : Except DomainNameError Bytes :=
  if value.isEmpty then .error .empty
  else
    let value := Bytes.dropFinal 46 value
    if value.isEmpty then .error .empty
    else
      match tables.domainToAsciiStrict value with
      | some ascii => .ok (Bytes.toAsciiLowercase ascii)
      | none =>
        if validOpaqueAsciiDnsName value then .ok (Bytes.toAsciiLowercase value)
        else .error .invalidIdna

/-- `geodata::GeoDataKind`. -/
inductive GeoDataKind where
  | geoSite
  | geoIp
  deriving DecidableEq, Repr

/-- `geodata::MAX_CODE_BYTES`. -/
def maxCodeBytes : ℕ := 64

/-- `geodata::Code::parse`, with the code as its lower-cased text. -/
def parseCode (raw : Bytes) : Option Bytes :=
  if raw.isEmpty || decide (maxCodeBytes < raw.length) || !(raw.head?.any Bytes.isAlphanumeric) ||
      !((raw.drop 1).all fun b =>
        Bytes.isAlphanumeric b || b == 46 || b == 95 || b == 43 || b == 33 || b == 45)
  then none else some (Bytes.toAsciiLowercase raw)

/-- The attribute loop of `normalize_selector`. -/
def selectorAttributes (tables : TextTables) (kind : GeoDataKind) :
    List Bytes → Option (List Bytes)
  | [] => some []
  | part :: rest =>
    if kind = .geoIp then none
    else
      match tables.foldAttribute part with
      | .invalid => none
      | .blank => selectorAttributes tables kind rest
      | .key text => (selectorAttributes tables kind rest).map (text :: ·)

/-- `geodata::normalize_selector`: `!code@attribute@attribute`, the
attributes sorted and without repetition. -/
def normalizeSelector (tables : TextTables) (kind : GeoDataKind) (raw : Bytes) : Option Bytes := do
  let reversed := raw.head? == some 33
  let positive := if reversed then raw.drop 1 else raw
  let parts := positive.splitOn 64
  let code ← parseCode (parts.headD [])
  let attributes ← selectorAttributes tables kind parts.tail
  let sorted := (attributes.mergeSort fun a b => decide (a ≤ b)).eraseReps
  return (if reversed then [33] else []) ++ code ++ sorted.flatMap fun a => 64 :: a

/-! ## Compilation -/

/-- `config::MAX_RULES`. -/
def maxRoutingRules : ℕ := 1024

/-- `config::MAX_RULES_TOTAL_BYTES`. -/
def maxRuleTextBytes : ℕ := 128 * 1024

/-- `routing::RuleSetError`. -/
inductive RuleSetError where
  | empty
  | tooManyRules (count maximum : ℕ)
  | tooMuchText (bytes maximum : ℕ)
  | invalidDomain (ruleIndex : ℕ) (source : DomainNameError)
  | invalidKeyword (ruleIndex : ℕ)
  | invalidGeoCode (ruleIndex : ℕ)
  | invalidCidr (ruleIndex : ℕ)
  | invalidPortRange (ruleIndex : ℕ)
  | matchNotFinal (ruleIndex : ℕ)
  | missingFinalMatch
  deriving DecidableEq, Repr

/-- An immutable ordered rule set: it ends in the rule that matches
everything. -/
structure RuleSet where
  rules : List RuleSpec
  usesDomainRouting : Bool
  ends_in_match : rules.getLast?.map RuleSpec.kind = some .matchAll

/-- `routing::checked_text_bytes`; a sum past `usize::MAX` is past the
maximum too. -/
def checkedTextBytes (current additional : ℕ) : Except RuleSetError ℕ :=
  if maxRuleTextBytes < current + additional then
    .error (.tooMuchText (current + additional) maxRuleTextBytes)
  else .ok (current + additional)

/-- `routing::valid_cidr`. -/
def validCidr (cidr : IpCidr) : Bool :=
  match cidr.network with
  | .v4 _ => cidr.prefixLen ≤ 32
  | .v6 _ => cidr.prefixLen ≤ 128

/-- The rule kinds a sniffed or DNS-derived domain can help. -/
def RuleKind.usesDomain : RuleKind → Bool
  | .domain _ | .domainSuffix _ | .domainKeyword _ | .geoSite _ => true
  | _ => false

/-- One turn of the loop of `RuleSet::compile`: the normalised kind and
the text bytes used so far. -/
def compileKind (tables : TextTables) (index finalIndex textBytes : ℕ) :
    RuleKind → Except RuleSetError (RuleKind × ℕ)
  | .domain value =>
    match normalizeDomainName tables value with
    | .error source => .error (.invalidDomain index source)
    | .ok value => (checkedTextBytes textBytes value.length).map (RuleKind.domain value, ·)
  | .domainSuffix value =>
    match normalizeDomainName tables value with
    | .error source => .error (.invalidDomain index source)
    | .ok value => (checkedTextBytes textBytes value.length).map (RuleKind.domainSuffix value, ·)
  | .domainKeyword value =>
    if value.isEmpty || !Bytes.isAscii value then .error (.invalidKeyword index)
    else (checkedTextBytes textBytes value.length).map
      (RuleKind.domainKeyword (Bytes.toAsciiLowercase value), ·)
  | .geoSite selector =>
    match normalizeSelector tables .geoSite selector with
    | none => .error (.invalidGeoCode index)
    | some selector =>
      (checkedTextBytes textBytes selector.length).map (RuleKind.geoSite selector, ·)
  | .geoIp selector =>
    match normalizeSelector tables .geoIp selector with
    | none => .error (.invalidGeoCode index)
    | some selector => (checkedTextBytes textBytes selector.length).map (RuleKind.geoIp selector, ·)
  | .ipCidr cidr =>
    if validCidr cidr then .ok (.ipCidr cidr, textBytes) else .error (.invalidCidr index)
  | .dstPorts ranges =>
    if ranges.isEmpty || ranges.any fun range => range.start == 0 || range.stop < range.start
    then .error (.invalidPortRange index) else .ok (.dstPorts ranges, textBytes)
  | .network network => .ok (.network network, textBytes)
  | .matchAll =>
    if index ≠ finalIndex then .error (.matchNotFinal index) else .ok (.matchAll, textBytes)

/-- The loop of `RuleSet::compile` from rule `index` on. -/
def compileFrom (tables : TextTables) (finalIndex : ℕ) :
    ℕ → ℕ → List RuleSpec → Except RuleSetError (List RuleSpec)
  | _, _, [] => .ok []
  | index, textBytes, rule :: rest =>
    match compileKind tables index finalIndex textBytes rule.kind with
    | .error e => .error e
    | .ok (kind, textBytes) =>
      (compileFrom tables finalIndex (index + 1) textBytes rest).map ({ rule with kind } :: ·)

/-- `RuleSet::compile`. -/
def RuleSet.compile (tables : TextTables) (rules : List RuleSpec) : Except RuleSetError RuleSet :=
  if rules.isEmpty then .error .empty
  else if maxRoutingRules < rules.length then
    .error (.tooManyRules rules.length maxRoutingRules)
  else
    match compileFrom tables (rules.length - 1) 0 0 rules with
    | .error e => .error e
    | .ok compiled =>
      if h : compiled.getLast?.map RuleSpec.kind = some .matchAll then
        .ok ⟨compiled, rules.any fun rule => rule.kind.usesDomain, h⟩
      else .error .missingFinalMatch

/-! ## Evaluation -/

/-- `routing::RuleMatch`. -/
structure RuleMatch where
  action : RuleAction
  ruleIndex : ℕ
  deriving DecidableEq, Repr

/-- `routing::RuleEvaluation`. -/
inductive RuleEvaluation where
  | matched (rule : RuleMatch)
  | needsIpResolution (ruleIndex : ℕ)
  | noMatch
  deriving DecidableEq, Repr

/-- The network mask of `cidr_contains`; the shift is in range because
`validCidr` bounds the prefix. -/
def networkMask (width prefixLen : ℕ) : BitVec width :=
  if prefixLen = 0 then 0 else BitVec.allOnes width <<< (width - prefixLen)

/-- `routing::cidr_contains`. -/
def cidrContains (cidr : IpCidr) (address : IpAddr) : Bool :=
  match cidr.network, address with
  | .v4 network, .v4 address =>
    let mask := networkMask 32 cidr.prefixLen.toNat
    network &&& mask == address &&& mask
  | .v6 network, .v6 address =>
    let mask := networkMask 128 cidr.prefixLen.toNat
    network &&& mask == address &&& mask
  | _, _ => false

/-- `routing::domain_suffix_matches`. -/
def domainSuffixMatches (domain suffix : Bytes) : Bool :=
  domain == suffix ||
    (decide (suffix.length < domain.length) && suffix.isSuffixOf domain &&
      domain[domain.length - suffix.length - 1]? == some 46)

/-- `routing::preferred_addresses`: A addresses in response order before
AAAA addresses. -/
def preferredAddresses (addresses : List IpAddr) : List IpAddr :=
  addresses.filter IpAddr.isIpv4 ++ addresses.filter IpAddr.isIpv6

/-- What one turn of `evaluate_with_geo` decides about its rule. -/
inductive Turn where
  | decided (matched : Bool)
  | pause
  deriving DecidableEq, Repr

/-- The body of the loop of `RuleSet::evaluate_with_geo`. -/
def turnWithGeo (ctx : RoutingContext) (geo : GeoMatcher) (rule : RuleSpec) : Turn :=
  match rule.kind with
  | .domain expected => .decided (ctx.normalizedDomain == some expected)
  | .domainSuffix suffix =>
    .decided (ctx.normalizedDomain.any fun domain => domainSuffixMatches domain suffix)
  | .domainKeyword keyword =>
    .decided (ctx.normalizedDomain.any fun domain => Bytes.contains domain keyword)
  | .geoSite code =>
    .decided (geo.geositeAvailable code &&
      ctx.normalizedDomain.any fun domain => geo.matchesGeosite code domain)
  | .geoIp code =>
    if !geo.geoipAvailable code then .decided false
    else
      match ctx.effectiveIp with
      | some address => .decided (geo.matchesGeoip code address)
      | none =>
        if !rule.noResolve && ctx.shouldRequestIpResolution then .pause else .decided false
  | .ipCidr cidr =>
    match ctx.effectiveIp with
    | some address => .decided (cidrContains cidr address)
    | none =>
      if !rule.noResolve && ctx.shouldRequestIpResolution then .pause else .decided false
  | .dstPorts ranges =>
    .decided (ranges.any fun range =>
      range.start ≤ ctx.destinationPort && ctx.destinationPort ≤ range.stop)
  | .network network => .decided (network == ctx.network)
  | .matchAll => .decided true

/-- The loop of `RuleSet::evaluate_with_geo` from rule `index` on. -/
def evaluateFrom (ctx : RoutingContext) (geo : GeoMatcher) : ℕ → List RuleSpec → RuleEvaluation
  | _, [] => .noMatch
  | index, rule :: rest =>
    match turnWithGeo ctx geo rule with
    | .pause => .needsIpResolution index
    | .decided true => .matched ⟨rule.action, index⟩
    | .decided false => evaluateFrom ctx geo (index + 1) rest

/-- `RuleSet::evaluate_with_geo`. -/
def RuleSet.evaluateWithGeo (set : RuleSet) (ctx : RoutingContext) (geo : GeoMatcher) :
    RuleEvaluation :=
  evaluateFrom ctx geo 0 set.rules

/-- The body of the loop of `RuleSet::evaluate_with_resolved_ips`: whether
the rule matched, and the address it selected. -/
def turnWithResolvedIps (ctx : RoutingContext) (geo : GeoMatcher) (addresses : List IpAddr)
    (rule : RuleSpec) : Bool × Option IpAddr :=
  match rule.kind with
  | .domain expected => (ctx.normalizedDomain == some expected, none)
  | .domainSuffix suffix =>
    (ctx.normalizedDomain.any fun domain => domainSuffixMatches domain suffix, none)
  | .domainKeyword keyword =>
    (ctx.normalizedDomain.any fun domain => Bytes.contains domain keyword, none)
  | .geoSite code =>
    (geo.geositeAvailable code &&
      ctx.normalizedDomain.any fun domain => geo.matchesGeosite code domain, none)
  | .geoIp code =>
    if !geo.geoipAvailable code then (false, none)
    else
      match ctx.effectiveIp with
      | some address => (geo.matchesGeoip code address, none)
      | none =>
        let selected := (preferredAddresses addresses).find? fun a => geo.matchesGeoip code a
        (selected.isSome, selected)
  | .ipCidr cidr =>
    match ctx.effectiveIp with
    | some address => (cidrContains cidr address, none)
    | none =>
      let selected := (preferredAddresses addresses).find? fun a => cidrContains cidr a
      (selected.isSome, selected)
  | .dstPorts ranges =>
    (ranges.any fun range =>
      range.start ≤ ctx.destinationPort && ctx.destinationPort ≤ range.stop, none)
  | .network network => (network == ctx.network, none)
  | .matchAll => (true, none)

/-- The loop of `RuleSet::evaluate_with_resolved_ips` from rule `index`
on, with the context it leaves. -/
def resolveFrom (ctx : RoutingContext) (geo : GeoMatcher) (addresses : List IpAddr) :
    ℕ → List RuleSpec → RuleEvaluation × RoutingContext
  | _, [] => (.noMatch, ctx)
  | index, rule :: rest =>
    match turnWithResolvedIps ctx geo addresses rule with
    | (true, selected) =>
      (.matched ⟨rule.action, index⟩, selected.elim ctx ctx.pinIp)
    | (false, _) => resolveFrom ctx geo addresses (index + 1) rest

/-- `RuleSet::evaluate_with_resolved_ips`. -/
def RuleSet.evaluateWithResolvedIps (set : RuleSet) (ctx : RoutingContext) (geo : GeoMatcher)
    (resolutionRuleIndex : ℕ) (addresses : List IpAddr) : RuleEvaluation × RoutingContext :=
  resolveFrom ctx geo addresses resolutionRuleIndex (set.rules.drop resolutionRuleIndex)

/-- The two phases as the asynchronous router runs them: the first
evaluation, and where it pauses the second one over the addresses the
lookup returned. -/
def RuleSet.evaluate (set : RuleSet) (ctx : RoutingContext) (geo : GeoMatcher)
    (addresses : List IpAddr) : RuleEvaluation × RoutingContext :=
  match set.evaluateWithGeo ctx geo with
  | .needsIpResolution index => set.evaluateWithResolvedIps ctx geo index addresses
  | evaluation => (evaluation, ctx)

end Routing

end Vole
