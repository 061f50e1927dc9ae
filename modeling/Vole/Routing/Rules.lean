import Vole.Common.Scan
import Vole.Routing.Model.Rules
import Mathlib.Data.List.Infix

/-!
# First-match semantics of the two evaluation phases

`evaluateWithGeo` and `evaluateWithResolvedIps` are two separately
written loops. Over a domain destination they compose to one first-match
rule: `Holds` says of a rule by itself whether it holds, given the index
the first phase paused at, and the two phases together stop at the least
rule that does (`evaluate_first_match`). Both loops are scans, so what is
left to compare is one turn of each with `Holds`.
-/

namespace Vole.Routing

open List Bool

/-! ## What a rule asks -/

/-- The kinds that look at an address. -/
def RuleKind.isIp : RuleKind → Bool
  | .geoIp _ | .ipCidr _ => true
  | _ => false

section

variable (ctx : RoutingContext) (geo : GeoMatcher)

/-- The predicate of a kind that looks at no address. -/
def PlainHolds : RuleKind → Prop
  | .domain value => ctx.normalizedDomain = some value
  | .domainSuffix suffix =>
    ∃ domain, ctx.normalizedDomain = some domain ∧
      (domain = suffix ∨ ∃ label, domain = label ++ 46 :: suffix)
  | .domainKeyword keyword => ∃ domain, ctx.normalizedDomain = some domain ∧ keyword <:+: domain
  | .geoSite code =>
    geo.geositeAvailable code = true ∧
      ∃ domain, ctx.normalizedDomain = some domain ∧ geo.matchesGeosite code domain = true
  | .dstPorts ranges =>
    ∃ range ∈ ranges, range.start ≤ ctx.destinationPort ∧ ctx.destinationPort ≤ range.stop
  | .network network => network = ctx.network
  | .matchAll => True
  | .geoIp _ | .ipCidr _ => False

/-- The GeoIP category of an address rule is loaded; a CIDR always is. -/
def IpAvailable : RuleKind → Bool
  | .geoIp code => geo.geoipAvailable code
  | _ => true

/-- An address lies in an address rule. -/
def IpInside (address : IpAddr) : RuleKind → Bool
  | .geoIp code => geo.matchesGeoip code address
  | .ipCidr cidr => cidrContains cidr address
  | _ => false

/-- The first IPv4 address inside a rule, and the first IPv6 one where no
IPv4 address is. -/
def firstInside (kind : RuleKind) (addresses : List IpAddr) : Option IpAddr :=
  (addresses.find? fun a => a.isIpv4 && IpInside geo a kind).or
    (addresses.find? fun a => a.isIpv6 && IpInside geo a kind)

/-- The index the first phase pauses at. -/
def pauseIndex (set : RuleSet) (ctx : RoutingContext) (geo : GeoMatcher) : Option ℕ :=
  match set.evaluateWithGeo ctx geo with
  | .needsIpResolution index => some index
  | _ => none

/-- **When rule `j` holds.** A rule that looks at no address holds by its
own predicate. An address rule holds only from the pause on, where its
category is loaded and some resolved address lies in it. -/
def Holds (addresses : List IpAddr) (pause : Option ℕ) (j : ℕ) (rule : RuleSpec) : Prop :=
  if rule.kind.isIp then
    (∃ i, pause = some i ∧ i ≤ j) ∧ IpAvailable geo rule.kind = true ∧
      ∃ a ∈ addresses, IpInside geo a rule.kind = true
  else PlainHolds ctx geo rule.kind

end

variable {ctx : RoutingContext} {geo : GeoMatcher} {addresses : List IpAddr} {rule : RuleSpec}
variable {pause : Option ℕ} {j : ℕ}

theorem holds_of_isIp (h : rule.kind.isIp = true) :
    Holds ctx geo addresses pause j rule ↔
      (∃ i, pause = some i ∧ i ≤ j) ∧ IpAvailable geo rule.kind = true ∧
        ∃ a ∈ addresses, IpInside geo a rule.kind = true := by
  rw [Holds, if_pos h]

theorem holds_of_not_isIp (h : rule.kind.isIp = false) :
    Holds ctx geo addresses pause j rule ↔ PlainHolds ctx geo rule.kind := by
  rw [Holds, if_neg (by simp [h])]

/-! ## The text predicates -/

/-- A suffix matches whole labels: the domain is the suffix, or ends in a
dot and the suffix. -/
theorem domainSuffixMatches_iff {domain suffix : Bytes} :
    domainSuffixMatches domain suffix = true ↔
      domain = suffix ∨ ∃ label, domain = label ++ 46 :: suffix := by
  simp only [domainSuffixMatches, or_eq_true, and_eq_true, beq_iff_eq, decide_eq_true_eq,
    isSuffixOf_iff_suffix]
  refine or_congr_right ⟨?_, ?_⟩
  · rintro ⟨⟨hlt, front, rfl⟩, hdot⟩
    -- the byte before the suffix is the last one of what precedes it
    have hne : front ≠ [] := by
      rintro rfl
      simp at hlt
    obtain ⟨label, last, rfl⟩ := (eq_nil_or_concat' front).resolve_left hne
    have hlen : (label ++ [last] ++ suffix).length - suffix.length - 1 = label.length := by
      simp
      omega
    rw [hlen] at hdot
    have hlast : last = 46 := by simpa using hdot
    exact ⟨label, by simp [hlast]⟩
  · rintro ⟨label, rfl⟩
    refine ⟨⟨by simp; omega, label ++ [46], by simp⟩, ?_⟩
    have hlen : (label ++ 46 :: suffix).length - suffix.length - 1 = label.length := by
      simp
      omega
    rw [hlen]
    simp

/-- `str::contains` finds the pattern as an infix. -/
theorem contains_iff {s pattern : Bytes} : Bytes.contains s pattern = true ↔ pattern <:+: s := by
  simp only [Bytes.contains, any_eq_true, mem_tails, isPrefixOf_iff_prefix]
  constructor
  · rintro ⟨t, ⟨front, rfl⟩, back, rfl⟩
    exact ⟨front, back, by simp⟩
  · rintro ⟨front, back, rfl⟩
    exact ⟨pattern ++ back, ⟨front, by simp⟩, prefix_append _ _⟩

/-! ## One turn of each loop -/

/-- The two loops ask a rule that looks at no address the same question,
and it is the rule's own predicate. -/
theorem turn_of_not_isIp (ctx : RoutingContext) (geo : GeoMatcher) (addresses : List IpAddr)
    (h : rule.kind.isIp = false) :
    ∃ b, turnWithGeo ctx geo rule = .decided b ∧
      turnWithResolvedIps ctx geo addresses rule = (b, none) ∧
      (b = true ↔ PlainHolds ctx geo rule.kind) := by
  unfold turnWithGeo turnWithResolvedIps
  cases hk : rule.kind with
  | domain value | dstPorts ranges | network network | matchAll =>
    exact ⟨_, rfl, rfl, by simp [PlainHolds]⟩
  | domainSuffix suffix =>
    exact ⟨_, rfl, rfl, by simp [PlainHolds, Option.any_eq_true, domainSuffixMatches_iff]⟩
  | domainKeyword keyword =>
    exact ⟨_, rfl, rfl, by simp [PlainHolds, Option.any_eq_true, contains_iff]⟩
  | geoSite code => exact ⟨_, rfl, rfl, by simp [PlainHolds, Option.any_eq_true]⟩
  | geoIp code | ipCidr cidr => rw [hk] at h; cases h

/-- Searching the preferred order is searching the IPv4 addresses first. -/
theorem find_preferredAddresses (p : IpAddr → Bool) :
    (preferredAddresses addresses).find? p =
      (addresses.find? fun a => a.isIpv4 && p a).or (addresses.find? fun a => a.isIpv6 && p a) := by
  simp only [preferredAddresses, find?_append, find?_filter, decide_and,
    decide_eq_true]

/-- Some address is inside a rule exactly where a first one is. -/
theorem firstInside_isSome {kind : RuleKind} :
    (firstInside geo kind addresses).isSome ↔ ∃ a ∈ addresses, IpInside geo a kind = true := by
  simp only [firstInside, Option.isSome_or, or_eq_true, find?_isSome, and_eq_true]
  constructor
  · rintro (⟨a, ha, -, hin⟩ | ⟨a, ha, -, hin⟩) <;> exact ⟨a, ha, hin⟩
  · rintro ⟨a, ha, hin⟩
    cases a with
    | v4 bits => exact Or.inl ⟨_, ha, rfl, hin⟩
    | v6 bits => exact Or.inr ⟨_, ha, rfl, hin⟩

section Domain

variable (hdest : ctx.destinationIp = none) (hpin : ctx.pinnedIp = none)

include hdest hpin

theorem effectiveIp_eq_none : ctx.effectiveIp = none := by
  rw [RoutingContext.effectiveIp, hdest, hpin]
  rfl

/-- On a domain destination the first loop pauses at an address rule or
passes it by. -/
theorem turnWithGeo_of_isIp (h : rule.kind.isIp = true) :
    turnWithGeo ctx geo rule =
      if IpAvailable geo rule.kind && !rule.noResolve && !ctx.ipResolutionUnavailable
      then .pause else .decided false := by
  have hnone := effectiveIp_eq_none hdest hpin
  have hask : ctx.shouldRequestIpResolution = !ctx.ipResolutionUnavailable := by
    simp [RoutingContext.shouldRequestIpResolution, hdest, hpin]
  unfold turnWithGeo
  cases hk : rule.kind with
  | geoIp code =>
    by_cases hg : geo.geoipAvailable code = true <;> simp [hnone, hask, IpAvailable, hg]
  | ipCidr cidr => simp only [hnone, hask, IpAvailable, Bool.true_and]
  | _ => rw [hk] at h; cases h

/-- And the second loop matches one on the first address inside it. -/
theorem turnWithResolvedIps_of_isIp (h : rule.kind.isIp = true) :
    turnWithResolvedIps ctx geo addresses rule =
      if IpAvailable geo rule.kind then
        ((firstInside geo rule.kind addresses).isSome, firstInside geo rule.kind addresses)
      else (false, none) := by
  have hnone := effectiveIp_eq_none hdest hpin
  unfold turnWithResolvedIps
  cases hk : rule.kind with
  | geoIp code =>
    simp only [hnone, IpAvailable, find_preferredAddresses, firstInside, IpInside]
    by_cases hg : geo.geoipAvailable code = true <;> simp [hg]
  | ipCidr cidr =>
    simp only [hnone, IpAvailable, find_preferredAddresses, firstInside, IpInside, if_true]
  | _ => rw [hk] at h; cases h

end Domain

/-! ## The loops as scans -/

/-- What the first loop stops at: a match or a pause. -/
def geoAnswer (ctx : RoutingContext) (geo : GeoMatcher) (rule : RuleSpec) : Option Turn :=
  match turnWithGeo ctx geo rule with
  | .decided false => none
  | turn => some turn

/-- What the second loop stops at: a match, with the address it selected. -/
def resolvedAnswer (ctx : RoutingContext) (geo : GeoMatcher) (addresses : List IpAddr)
    (rule : RuleSpec) : Option (Option IpAddr) :=
  match turnWithResolvedIps ctx geo addresses rule with
  | (true, selected) => some selected
  | (false, _) => none

theorem evaluateFrom_eq (n : ℕ) (rules : List RuleSpec) :
    evaluateFrom ctx geo n rules =
      match firstAnswer (geoAnswer ctx geo) n rules with
      | none => .noMatch
      | some (i, _, .pause) => .needsIpResolution i
      | some (i, r, .decided _) => .matched ⟨r.action, i⟩ := by
  induction rules generalizing n with
  | nil => rfl
  | cons r rest ih =>
    rw [evaluateFrom, firstAnswer, geoAnswer]
    cases turnWithGeo ctx geo r with
    | pause => rfl
    | decided b =>
      cases b with
      | false => exact ih (n + 1)
      | true => rfl

theorem resolveFrom_eq (n : ℕ) (rules : List RuleSpec) :
    resolveFrom ctx geo addresses n rules =
      match firstAnswer (resolvedAnswer ctx geo addresses) n rules with
      | none => (.noMatch, ctx)
      | some (i, r, selected) => (.matched ⟨r.action, i⟩, selected.elim ctx ctx.pinIp) := by
  induction rules generalizing n with
  | nil => rfl
  | cons r rest ih =>
    rw [resolveFrom, firstAnswer, resolvedAnswer]
    rcases turnWithResolvedIps ctx geo addresses r with ⟨b, selected⟩
    cases b with
    | false => exact ih (n + 1)
    | true => rfl

/-- The rule that ends a set answers both loops. -/
theorem answers_of_matchAll (addresses : List IpAddr) (h : rule.kind = .matchAll) :
    (geoAnswer ctx geo rule).isSome ∧ (resolvedAnswer ctx geo addresses rule).isSome := by
  simp [geoAnswer, resolvedAnswer, turnWithGeo, turnWithResolvedIps, h]

section Domain

variable (hdest : ctx.destinationIp = none) (hpin : ctx.pinnedIp = none)

include hdest hpin

/-- Where the first loop has no answer the rule does not hold, as long as
no pause lies at or before it; and an address rule it passed by is
`no-resolve` or not loaded. -/
theorem not_holds_of_geoAnswer (addresses : List IpAddr) (pause : Option ℕ) (j : ℕ)
    (h : geoAnswer ctx geo rule = none) (hj : ∀ i, pause = some i → j < i) :
    ¬ Holds ctx geo addresses pause j rule ∧
      (ctx.ipResolutionUnavailable = false → rule.kind.isIp = true →
        rule.noResolve = true ∨ IpAvailable geo rule.kind = false) := by
  cases hip : rule.kind.isIp with
  | true =>
    refine ⟨fun hh => ?_, fun hflag _ => ?_⟩
    · obtain ⟨⟨i, hi, hij⟩, -⟩ := (holds_of_isIp hip).mp hh
      exact absurd (hj i hi) (by omega)
    rw [geoAnswer, turnWithGeo_of_isIp hdest hpin hip, hflag] at h
    cases hav : IpAvailable geo rule.kind with
    | false => exact Or.inr rfl
    | true =>
      rw [hav] at h
      cases hno : rule.noResolve with
      | true => exact Or.inl rfl
      | false => simp [hno] at h
  | false =>
    obtain ⟨b, hb, -, hiff⟩ := turn_of_not_isIp ctx geo [] hip
    refine ⟨fun hh => ?_, fun _ h' => by cases h'⟩
    rw [geoAnswer, hb, hiff.mpr ((holds_of_not_isIp hip).mp hh)] at h
    cases h

/-- The second loop answers exactly on the rules that hold from the pause
on, and selects the first address inside an address rule. -/
theorem resolvedAnswer_eq (geo : GeoMatcher) (addresses : List IpAddr) (rule : RuleSpec) {i : ℕ}
    (hpause : pause = some i) (hij : i ≤ j) :
    (resolvedAnswer ctx geo addresses rule = none → ¬ Holds ctx geo addresses pause j rule) ∧
      ∀ selected, resolvedAnswer ctx geo addresses rule = some selected →
        Holds ctx geo addresses pause j rule ∧
          selected = if rule.kind.isIp then firstInside geo rule.kind addresses else none := by
  cases hip : rule.kind.isIp with
  | true =>
    rw [resolvedAnswer, turnWithResolvedIps_of_isIp hdest hpin hip, holds_of_isIp hip,
      ← firstInside_isSome]
    cases hav : IpAvailable geo rule.kind with
    | false => simp
    | true =>
      cases hin : firstInside geo rule.kind addresses with
      | none => simp
      | some a => simp [hpause, hij]
  | false =>
    obtain ⟨b, -, hb, hiff⟩ :=
      turn_of_not_isIp ctx geo addresses hip
    rw [resolvedAnswer, hb, holds_of_not_isIp hip, ← hiff]
    cases b <;> simp

/-- The first phase stops, at a match or at a pause, and nothing before
the stop answers. -/
theorem evaluateWithGeo_cases (geo : GeoMatcher) (set : RuleSet) :
    ∃ i rule, set.rules[i]? = some rule ∧
      (∀ k r, k < i → set.rules[k]? = some r → geoAnswer ctx geo r = none) ∧
      ((set.evaluateWithGeo ctx geo = .needsIpResolution i ∧ rule.kind.isIp = true) ∨
        (set.evaluateWithGeo ctx geo = .matched ⟨rule.action, i⟩ ∧ rule.kind.isIp = false ∧
          PlainHolds ctx geo rule.kind)) := by
  obtain ⟨last, hlast, hkind⟩ := Option.map_eq_some_iff.mp set.ends_in_match
  obtain ⟨⟨i, rule, turn⟩, hscan⟩ := firstAnswer_isSome (f := geoAnswer ctx geo) (n := 0) hlast
    (answers_of_matchAll [] hkind).1
  obtain ⟨k, hik, hk, hturn, hbefore⟩ := firstAnswer_eq_some hscan
  have hik' : i = k := by omega
  subst hik'
  refine ⟨i, rule, hk, hbefore, ?_⟩
  rw [RuleSet.evaluateWithGeo, evaluateFrom_eq, hscan]
  cases hip : rule.kind.isIp with
  | true =>
    refine Or.inl ⟨?_, rfl⟩
    rw [geoAnswer, turnWithGeo_of_isIp hdest hpin hip] at hturn
    split_ifs at hturn
    obtain rfl : Turn.pause = turn := by simpa using hturn
    rfl
  | false =>
    obtain ⟨b, hb, -, hiff⟩ := turn_of_not_isIp ctx geo [] hip
    rw [geoAnswer, hb] at hturn
    cases b with
    | false => cases hturn
    | true =>
      obtain rfl : Turn.decided true = turn := by simpa using hturn
      exact Or.inr ⟨rfl, rfl, hiff.mp rfl⟩

/-- The second phase, run from a pause, stops at a rule that holds; no
rule from the pause up to it does. -/
theorem evaluateWithResolvedIps_spec (geo : GeoMatcher) (addresses : List IpAddr)
    (set : RuleSet) {i : ℕ} (hi : i < set.rules.length) (hpause : pause = some i) :
    ∃ j rule, i ≤ j ∧ set.rules[j]? = some rule ∧
      Holds ctx geo addresses pause j rule ∧
      (∀ k r, i ≤ k → k < j → set.rules[k]? = some r → ¬ Holds ctx geo addresses pause k r) ∧
      set.evaluateWithResolvedIps ctx geo i addresses =
        (.matched ⟨rule.action, j⟩,
          (if rule.kind.isIp then firstInside geo rule.kind addresses else none).elim
            ctx ctx.pinIp) := by
  obtain ⟨last, hlast, hkind⟩ := Option.map_eq_some_iff.mp set.ends_in_match
  have hdrop : (set.rules.drop i).getLast? = some last := by
    rw [getLast?_drop, if_neg (by omega), hlast]
  obtain ⟨⟨j, rule, selected⟩, hscan⟩ :=
    firstAnswer_isSome (f := resolvedAnswer ctx geo addresses) (n := i) hdrop
      (answers_of_matchAll addresses hkind).2
  obtain ⟨k, hjk, hk, hsel, hbefore⟩ := firstAnswer_eq_some hscan
  have hspec :=
    (resolvedAnswer_eq hdest hpin geo addresses rule hpause (hjk ▸ Nat.le_add_right i k)).2
    selected hsel
  refine ⟨j, rule, by omega, ?_, hspec.1, fun k' r hik' hk' hr => ?_, ?_⟩
  · rw [getElem?_drop] at hk
    rw [hjk]
    exact hk
  · refine (resolvedAnswer_eq hdest hpin geo addresses r hpause hik').1
      (hbefore (k' - i) r (by omega) ?_)
    rw [getElem?_drop, Nat.add_sub_cancel' hik']
    exact hr
  · rw [RuleSet.evaluateWithResolvedIps, resolveFrom_eq, hscan, hspec.2]

end Domain

/-- **Two-phase evaluation is first match.** For every compiled rule list
and every domain destination, the two phases match at the least rule that
holds, pin the first preferred address inside it where it is an address
rule and leave the context alone where it is not; and the address rules
the first phase passed by are `no-resolve` or not loaded. -/
theorem evaluate_first_match (tables : TextTables) (specs : List RuleSpec) (set : RuleSet)
    (ctx : RoutingContext) (geo : GeoMatcher) (addresses : List IpAddr) :
    RuleSet.compile tables specs = .ok set → ctx.destinationIp = none → ctx.pinnedIp = none →
    ∃ j rule, set.rules[j]? = some rule ∧
      IsLeast {k | ∃ r, set.rules[k]? = some r ∧
        Holds ctx geo addresses (pauseIndex set ctx geo) k r} j ∧
      (set.evaluate ctx geo addresses).1 = .matched ⟨rule.action, j⟩ ∧
      (rule.kind.isIp = true → ∃ a, firstInside geo rule.kind addresses = some a ∧
        (set.evaluate ctx geo addresses).2 = ctx.pinIp a) ∧
      (rule.kind.isIp = false → (set.evaluate ctx geo addresses).2 = ctx) ∧
      (ctx.ipResolutionUnavailable = false →
        ∀ k r, k < (pauseIndex set ctx geo).getD j → set.rules[k]? = some r →
          r.kind.isIp = true → r.noResolve = true ∨ IpAvailable geo r.kind = false) := by
  intro _ hdest hpin
  obtain ⟨i, stop, hstop, hbefore, hcase⟩ :=
    evaluateWithGeo_cases hdest hpin geo set
  rcases hcase with ⟨heval, -⟩ | ⟨heval, hip, hplain⟩
  · -- the first phase paused: the second one finds the rule
    have hpause : pauseIndex set ctx geo = some i := by rw [pauseIndex, heval]
    have hi : i < set.rules.length := (List.getElem?_eq_some_iff.mp hstop).1
    obtain ⟨j, rule, hij, hj, hholds, hbetween, hres⟩ :=
      evaluateWithResolvedIps_spec hdest hpin geo addresses set hi hpause
    have heq :
        set.evaluate ctx geo addresses = set.evaluateWithResolvedIps ctx geo i addresses := by
      rw [RuleSet.evaluate, heval]
    have hpass := fun k r (hk : k < i) (hr : set.rules[k]? = some r) =>
      not_holds_of_geoAnswer hdest hpin addresses (pauseIndex set ctx geo) k (hbefore k r hk hr)
        (fun i' hi' => by rw [hpause] at hi'; cases hi'; exact hk)
    refine ⟨j, rule, hj, isLeast_index hj hholds fun k r hk hr => ?_, by rw [heq, hres], ?_, ?_, ?_⟩
    · rcases Nat.lt_or_ge k i with hlt | hge
      · exact (hpass k r hlt hr).1
      · exact hbetween k r hge hk hr
    · intro hip
      have hsome := ((holds_of_isIp hip).mp hholds).2.2
      obtain ⟨a, ha⟩ := Option.isSome_iff_exists.mp (firstInside_isSome.mpr hsome)
      exact ⟨a, ha, by rw [heq, hres, if_pos hip, ha]; rfl⟩
    · intro hip
      rw [heq, hres, if_neg (by simp [hip])]
      rfl
    · intro hflag k r hk hr
      rw [hpause] at hk
      exact (hpass k r hk hr).2 hflag
  · -- it matched: no address rule came into it
    have hpause : pauseIndex set ctx geo = none := by rw [pauseIndex, heval]
    have heq : set.evaluate ctx geo addresses = (.matched ⟨stop.action, i⟩, ctx) := by
      rw [RuleSet.evaluate, heval]
    have hpass := fun k r (hk : k < i) (hr : set.rules[k]? = some r) =>
      not_holds_of_geoAnswer hdest hpin addresses (pauseIndex set ctx geo) k (hbefore k r hk hr)
        (fun i' hi' => by rw [hpause] at hi'; cases hi')
    refine ⟨i, stop, hstop, isLeast_index hstop ((holds_of_not_isIp hip).mpr hplain)
      fun k r hk hr => (hpass k r hk hr).1, by rw [heq], ?_, fun _ => by rw [heq], ?_⟩
    · intro hip'
      rw [hip] at hip'
      cases hip'
    · intro hflag k r hk hr
      rw [hpause] at hk
      exact (hpass k r hk hr).2 hflag

/-! A domain rule, a resolvable CIDR, a later `no-resolve` CIDR and the
final match, on lower-case ASCII names. -/

def sampleTables : TextTables where
  domainToAsciiStrict value := some value
  foldAttribute text := .key (Bytes.toAsciiLowercase text)

def sampleSpecs : List RuleSpec :=
  [⟨.domainSuffix (Bytes.ofString "example.com."), .direct, false⟩,
    ⟨.ipCidr ⟨.v4 0xC0000200, 24⟩, .direct, false⟩,
    ⟨.ipCidr ⟨.v4 0x0A000000, 8⟩, .reject, true⟩,
    ⟨.matchAll, .route (.proxy 0), false⟩]

def sampleSet : RuleSet where
  rules :=
    [⟨.domainSuffix (Bytes.ofString "example.com"), .direct, false⟩,
      ⟨.ipCidr ⟨.v4 0xC0000200, 24⟩, .direct, false⟩,
      ⟨.ipCidr ⟨.v4 0x0A000000, 8⟩, .reject, true⟩,
      ⟨.matchAll, .route (.proxy 0), false⟩]
  usesDomainRouting := true
  ends_in_match := rfl

def sampleContext : RoutingContext where
  network := .tcp
  destinationPort := 443
  normalizedDomain := some (Bytes.ofString "badexample.com")
  destinationIp := none
  pinnedIp := none
  ipResolutionUnavailable := false

/-- The later `no-resolve` rule consumes the address the earlier rule
asked for. -/
theorem evaluate_first_match_sample :
    sampleSet.evaluate sampleContext emptyGeoMatcher [.v6 1, .v4 0x0A000007] =
        (.matched ⟨.reject, 2⟩, sampleContext.pinIp (.v4 0x0A000007)) ∧
      ∃ j rule, sampleSet.rules[j]? = some rule ∧
        IsLeast {k | ∃ r, sampleSet.rules[k]? = some r ∧
          Holds sampleContext emptyGeoMatcher [.v6 1, .v4 0x0A000007]
            (pauseIndex sampleSet sampleContext emptyGeoMatcher) k r} j ∧
        (sampleSet.evaluate sampleContext emptyGeoMatcher [.v6 1, .v4 0x0A000007]).1 =
          .matched ⟨rule.action, j⟩ := by
  refine ⟨by decide, ?_⟩
  obtain ⟨j, rule, hj, hleast, hmatch, -⟩ :=
    evaluate_first_match sampleTables sampleSpecs sampleSet sampleContext emptyGeoMatcher
      [.v6 1, .v4 0x0A000007] rfl rfl rfl
  exact ⟨j, rule, hj, hleast, hmatch⟩

end Vole.Routing
