import Mathlib.Data.List.Destutter
import Mathlib.Data.Prod.Lex
import Vole.Geodata.Cidr

/-!
# The routes of the local network

The VPN takes the halves of each physical subnet as routes and cuts the exclusions out
of them: a route that meets an exclusion and is not inside it is halved, again and
again. Two blocks that share an address agree in the bits of the shorter prefix, so
one is inside the other, and what is left are blocks of exactly the other addresses.
-/

namespace Vole.Windows

open Geodata List

section Bits

def width : IpAddr → ℕ
  | .v4 _ => 32
  | .v6 _ => 128

/-- The bits of an address, the first one first. -/
def bit : IpAddr → ℕ → Bool
  | .v4 bits => bits.getMsbD
  | .v6 bits => bits.getMsbD

def masked (address : IpAddr) (prefixLen : ℕ) : IpAddr :=
  match address with
  | .v4 bits => .v4 (mask bits prefixLen)
  | .v6 bits => .v6 (mask bits prefixLen)

/-- What `children` sets in the second network. -/
def setBit (address : IpAddr) (prefixLen : ℕ) : IpAddr :=
  match address with
  | .v4 bits => .v4 (bits ||| 1#32 <<< (32 - prefixLen))
  | .v6 bits => .v6 (bits ||| 1#128 <<< (128 - prefixLen))

variable {a b : IpAddr} {p : ℕ}

theorem ext_bit (hwidth : width a = width b) (h : ∀ i, bit a i = bit b i) : a = b := by
  match a, b with
  | .v4 a, .v4 b | .v6 a, .v6 b => exact congrArg _ (BitVec.eq_of_getMsbD_eq fun i _ => h i)
  | .v4 a, .v6 b | .v6 a, .v4 b => cases hwidth

theorem width_masked : width (masked a p) = width a := by cases a <;> rfl

theorem bit_masked (h : p ≤ width a) (i : ℕ) :
    bit (masked a p) i = (decide (i < p) && bit a i) := by
  cases a <;> exact Cidr.getMsbD_mask h _ i

theorem width_setBit : width (setBit a p) = width a := by cases a <;> rfl

theorem bit_setBit (h : p < width a) (i : ℕ) :
    bit (setBit a (p + 1)) i = (bit a i || decide (i = p)) := by
  cases a <;> simp [setBit, bit, width] at * <;> grind

end Bits

/-- `WindowsVpnCidr`. The source masks a network when it builds one. -/
structure WindowsVpnCidr where
  network : IpAddr
  prefixLen : ℕ
  within : prefixLen ≤ width network
  host : ∀ i, prefixLen ≤ i → bit network i = false

namespace WindowsVpnCidr

/-- `WindowsVpnCidr::from_address`. -/
def fromAddress (address : IpAddr) (prefixLen : ℕ) : Option WindowsVpnCidr :=
  if h : prefixLen ≤ width address then
    some ⟨masked address prefixLen, prefixLen, h.trans_eq width_masked.symm, fun i hi => by
      simp [bit_masked h, Nat.not_lt.2 hi]⟩
  else none

/-- `WindowsVpnCidr::contains`. -/
def contains (self : WindowsVpnCidr) (address : IpAddr) : Bool :=
  (fromAddress address self.prefixLen).any fun cidr => cidr.network == self.network

instance : Membership IpAddr WindowsVpnCidr := ⟨fun self address => self.contains address = true⟩

/-- `WindowsVpnCidr::contains_cidr`. -/
def containsCidr (self other : WindowsVpnCidr) : Bool :=
  self.prefixLen ≤ other.prefixLen && self.contains other.network

/-- `WindowsVpnCidr::overlaps`. -/
def overlaps (self other : WindowsVpnCidr) : Bool :=
  self.containsCidr other || other.containsCidr self

/-- `WindowsVpnCidr::children`. -/
def children (self : WindowsVpnCidr) : Option (WindowsVpnCidr × WindowsVpnCidr) :=
  if h : self.prefixLen + 1 ≤ width self.network then
    some (⟨self.network, self.prefixLen + 1, h, fun i hi => self.host i (by omega)⟩,
      ⟨setBit self.network (self.prefixLen + 1), self.prefixLen + 1, h.trans_eq width_setBit.symm,
        fun i hi => by simp [bit_setBit h, self.host i (by omega)]; omega⟩)
  else none

variable {self other first second : WindowsVpnCidr} {address : IpAddr}

theorem mem_iff : address ∈ self ↔ width address = width self.network ∧
    ∀ i < self.prefixLen, bit address i = bit self.network i := by
  show self.contains address = true ↔ _
  have hwithin := self.within
  simp only [contains, fromAddress]
  constructor
  · intro h
    split at h
    next hin =>
      have heq : masked address self.prefixLen = self.network := by simpa using h
      rw [← heq]
      refine ⟨width_masked.symm, fun i hi => ?_⟩
      simp [bit_masked hin, hi]
    · cases h
  · rintro ⟨hwidth, hbits⟩
    rw [dif_pos (hwidth ▸ hwithin)]
    simp
    refine ext_bit (width_masked.trans hwidth) fun i => ?_
    rw [bit_masked (hwidth ▸ hwithin)]
    by_cases hi : i < self.prefixLen
    · simp [hi, hbits i hi]
    · simp [hi, self.host i (Nat.not_lt.1 hi)]

theorem network_mem (self : WindowsVpnCidr) : self.network ∈ self :=
  mem_iff.2 ⟨rfl, fun _ _ => rfl⟩

theorem containsCidr_iff : self.containsCidr other = true ↔
    self.prefixLen ≤ other.prefixLen ∧ other.network ∈ self := by
  rw [containsCidr, Bool.and_eq_true, decide_eq_true_eq]
  rfl

/-- A block that meets one at least as large is inside it. -/
theorem mem_of_mem (hle : self.prefixLen ≤ other.prefixLen) (hself : address ∈ self)
    (hother : address ∈ other) {a : IpAddr} (ha : a ∈ other) : a ∈ self := by
  rw [mem_iff] at *
  refine ⟨ha.1.trans (hother.1.symm.trans hself.1), fun i hi => ?_⟩
  have hi' := Nat.lt_of_lt_of_le hi hle
  rw [ha.2 i hi', ← hother.2 i hi', hself.2 i hi]

theorem containsCidr_of_le (hle : self.prefixLen ≤ other.prefixLen) (hself : address ∈ self)
    (hother : address ∈ other) : self.containsCidr other = true :=
  containsCidr_iff.2 ⟨hle, mem_of_mem hle hself hother other.network_mem⟩

/-- **Blocks overlap where they share an address.** -/
theorem overlaps_iff : self.overlaps other = true ↔ ∃ address, address ∈ self ∧ address ∈ other := by
  rw [overlaps, Bool.or_eq_true]
  constructor
  · rintro (h | h)
    · exact ⟨_, (containsCidr_iff.1 h).2, other.network_mem⟩
    · exact ⟨_, self.network_mem, (containsCidr_iff.1 h).2⟩
  · rintro ⟨address, hself, hother⟩
    exact (Nat.le_total ..).imp (containsCidr_of_le · hself hother)
      (containsCidr_of_le · hother hself)

theorem children_spec (h : self.children = some (first, second)) :
    (∀ address, address ∈ self ↔ address ∈ first ∨ address ∈ second) ∧ self.prefixLen < 128 ∧
      first.prefixLen = self.prefixLen + 1 ∧ second.prefixLen = self.prefixLen + 1 := by
  unfold children at h
  split at h
  next hin =>
    cases h
    have hwide : width self.network ≤ 128 := by cases self.network <;> simp [width]
    refine ⟨fun address => ?_, by omega, rfl, rfl⟩
    simp only [mem_iff, width_setBit, bit_setBit hin, Nat.lt_succ_iff_lt_or_eq, ← and_or_left]
    refine and_congr_right fun _ => ?_
    have := self.host self.prefixLen le_rfl
    grind
  · cases h

theorem children_of_lt (h : self.prefixLen < width self.network) :
    ∃ first second, self.children = some (first, second) :=
  ⟨_, _, dif_pos h⟩

/-- What the derived order compares: the network, and then the prefix. -/
def key (self : WindowsVpnCidr) : Bool ×ₗ ℕ ×ₗ ℕ :=
  toLex (self.network.isIpv6, toLex (match self.network with
    | .v4 bits => bits.toNat
    | .v6 bits => bits.toNat, self.prefixLen))

theorem key_injective : Function.Injective key := by
  rintro ⟨a | a, p, _, _⟩ ⟨b | b, q, _, _⟩ h <;>
    simp_all [key, IpAddr.isIpv6, BitVec.toNat_inj]

instance : LinearOrder WindowsVpnCidr := .lift' key key_injective

end WindowsVpnCidr

open WindowsVpnCidr

/-! ## The routes -/

/-- `subtract_exclusion`: what it pushes. -/
def subtractExclusion (route exclusion : WindowsVpnCidr) : List WindowsVpnCidr :=
  if !route.overlaps exclusion then [route]
  else if exclusion.containsCidr route then []
  else
    match _h : route.children with
    | some (first, second) => subtractExclusion first exclusion ++ subtractExclusion second exclusion
    | none => []
termination_by 128 - route.prefixLen
decreasing_by all_goals have := children_spec _h; omega

/-- `PhysicalNetwork`, as far as the routes depend on it. -/
structure PhysicalNetwork where
  ipv4Subnets : List WindowsVpnCidr
  ipv6Subnets : List WindowsVpnCidr

/-- The subnets of the families that are enabled. -/
def PhysicalNetwork.subnets (physical : PhysicalNetwork) (ipv6 : Bool) : List WindowsVpnCidr :=
  physical.ipv4Subnets ++ physical.ipv6Subnets.filter fun _ => ipv6

/-- The routes that a subnet adds. -/
def halves (subnet : WindowsVpnCidr) : List WindowsVpnCidr :=
  subnet.children.elim [] fun (first, second) => [first, second]

/-- The loop over the exclusions. -/
def remaining (excluded routes : List WindowsVpnCidr) : List WindowsVpnCidr :=
  excluded.foldl (fun routes exclusion => routes.flatMap (subtractExclusion · exclusion)) routes

/-- `local_inclusion_routes`, with the exclusions of the policy. -/
def localInclusionRoutes (ipv6 : Bool) (excluded : List WindowsVpnCidr)
    (physical : PhysicalNetwork) : List WindowsVpnCidr :=
  ((remaining excluded ((physical.subnets ipv6).flatMap halves)).mergeSort (· ≤ ·)).destutter
    (· ≠ ·)

/-- The address has a route. -/
def Covers (routes : List WindowsVpnCidr) (address : IpAddr) : Prop :=
  ∃ route ∈ routes, address ∈ route

theorem covers_flatMap {α : Type} {l : List α} {f : α → List WindowsVpnCidr} {address : IpAddr} :
    Covers (l.flatMap f) address ↔ ∃ a ∈ l, Covers (f a) address := by
  simp only [Covers, mem_flatMap]
  grind

/-- What is left of a route are its addresses outside the exclusion, in blocks no
larger than it. -/
theorem subtractExclusion_spec (route exclusion : WindowsVpnCidr) :
    (∀ address, Covers (subtractExclusion route exclusion) address ↔
      address ∈ route ∧ address ∉ exclusion) ∧
    ∀ part ∈ subtractExclusion route exclusion, route.prefixLen ≤ part.prefixLen := by
  fun_induction subtractExclusion route exclusion with
  | case1 route hover =>
    have hnone : ¬∃ address, address ∈ route ∧ address ∈ exclusion := by
      simpa [← overlaps_iff] using hover
    refine ⟨fun address => ?_, by simp⟩
    simp only [Covers, mem_singleton, exists_eq_left, iff_self_and]
    exact fun h hin => hnone ⟨address, h, hin⟩
  | case2 route hover hinside =>
    obtain ⟨hle, hnetwork⟩ := containsCidr_iff.1 hinside
    refine ⟨fun address => ?_, by simp⟩
    simpa [Covers] using mem_of_mem hle hnetwork route.network_mem
  | case3 route hover hinside first second hchildren ih₁ ih₂ =>
    obtain ⟨hmem, -, hfirst, hsecond⟩ := children_spec hchildren
    refine ⟨fun address => ?_, fun part hpart => ?_⟩
    · rw [hmem, or_and_right, ← ih₁.1, ← ih₂.1]
      simp only [Covers, mem_append, or_and_right, exists_or]
    · rcases mem_append.1 hpart with h | h
      · have := ih₁.2 part h
        omega
      · have := ih₂.2 part h
        omega
  | case4 route hover hinside hchildren =>
    -- a block that meets the exclusion and is not inside it is larger
    obtain ⟨address, hroute, hexclusion⟩ := overlaps_iff.1 (by simpa using hover)
    have hfamily := (mem_iff.1 hexclusion).1.symm.trans (mem_iff.1 hroute).1
    have hlarger : ¬exclusion.prefixLen ≤ route.prefixLen := fun h =>
      hinside (containsCidr_of_le h hexclusion hroute)
    have := exclusion.within
    have hlt : route.prefixLen < width route.network := by omega
    obtain ⟨first, second, h⟩ := children_of_lt hlt
    cases hchildren.symm.trans h

/-- One exclusion after the other. -/
theorem remaining_spec (excluded routes : List WindowsVpnCidr) :
    (∀ address, Covers (remaining excluded routes) address ↔
      Covers routes address ∧ ∀ exclusion ∈ excluded, address ∉ exclusion) ∧
    ∀ part ∈ remaining excluded routes, ∃ route ∈ routes,
      route.prefixLen ≤ part.prefixLen ∧ part.network ∈ route := by
  induction excluded generalizing routes with
  | nil => exact ⟨by simp [remaining], fun part hpart => ⟨part, hpart, le_rfl, part.network_mem⟩⟩
  | cons exclusion excluded ih =>
    have hspec := fun route => subtractExclusion_spec route exclusion
    obtain ⟨hcover, hfrom⟩ := ih (routes.flatMap (subtractExclusion · exclusion))
    refine ⟨fun address => ?_, fun part hpart => ?_⟩
    · rw [remaining, foldl_cons, ← remaining, hcover, covers_flatMap, forall_mem_cons, ← and_assoc]
      simp only [(hspec _).1]
      simp only [← and_assoc, exists_and_right, Covers]
    · obtain ⟨middle, hmiddle, hle, hin⟩ := hfrom part hpart
      obtain ⟨route, hroute, hpart⟩ := mem_flatMap.1 hmiddle
      exact ⟨route, hroute, ((hspec route).2 _ hpart).trans hle,
        (((hspec route).1 _).1 ⟨middle, hpart, hin⟩).1⟩

/-- **The routes are the subnets without the exclusions.** -/
theorem localInclusionRoutes_exact (ipv6 : Bool) (excluded : List WindowsVpnCidr)
    (physical : PhysicalNetwork)
    (hhost : ∀ subnet ∈ physical.subnets ipv6, subnet.prefixLen < width subnet.network) :
    let routes := localInclusionRoutes ipv6 excluded physical
    (∀ address, Covers routes address ↔
      Covers (physical.subnets ipv6) address ∧ ∀ exclusion ∈ excluded, address ∉ exclusion) ∧
    (∀ route ∈ routes, (∀ i, route.prefixLen ≤ i → bit route.network i = false) ∧
      (∀ exclusion ∈ excluded, route.overlaps exclusion = false) ∧
      ∃ subnet ∈ physical.subnets ipv6,
        subnet.containsCidr route = true ∧ subnet.prefixLen < route.prefixLen) ∧
    routes.Pairwise (· < ·) := by
  have hopened (subnet) (hsubnet : subnet ∈ physical.subnets ipv6) :
      (∀ address, Covers (halves subnet) address ↔ address ∈ subnet) ∧
      ∀ part ∈ halves subnet, part.prefixLen = subnet.prefixLen + 1 := by
    obtain ⟨first, second, h⟩ := children_of_lt (hhost subnet hsubnet)
    obtain ⟨hmem, -, hfirst, hsecond⟩ := children_spec h
    simp [halves, h, hmem, hfirst, hsecond, Covers]
  obtain ⟨hcover, hfrom⟩ := remaining_spec excluded ((physical.subnets ipv6).flatMap halves)
  generalize hleft : remaining excluded _ = left at hcover hfrom
  have hsorted := pairwise_mergeSort' (· ≤ ·) left
  have hroutes : localInclusionRoutes ipv6 excluded physical = (left.mergeSort (· ≤ ·)).dedup := by
    rw [localInclusionRoutes, hleft, hsorted.destutter_eq_dedup]
  have hroute (route) : route ∈ localInclusionRoutes ipv6 excluded physical ↔ route ∈ left := by
    rw [hroutes, mem_dedup, mem_mergeSort]
  simp only [Covers, hroute] at *
  refine ⟨fun address => ?_, fun route hin => ⟨route.host, ?_, ?_⟩, ?_⟩
  · rw [hcover]
    grind
  · intro exclusion hexclusion
    rw [← Bool.not_eq_true, overlaps_iff]
    rintro ⟨address, hroute, hexcluded⟩
    exact ((hcover address).1 ⟨route, hin, hroute⟩).2 exclusion hexclusion hexcluded
  · obtain ⟨half, hhalf, hle, hnetwork⟩ := hfrom route hin
    obtain ⟨subnet, hsubnet, hpart⟩ := mem_flatMap.1 hhalf
    obtain ⟨hmem, hprefix⟩ := hopened subnet hsubnet
    have hlonger := hprefix half hpart
    exact ⟨subnet, hsubnet, containsCidr_iff.2 ⟨by omega, (hmem _).1 ⟨half, hpart, hnetwork⟩⟩,
      by omega⟩
  · rw [hroutes]
    exact (hsorted.sublist (dedup_sublist _)).imp₂ (fun _ _ => lt_of_le_of_ne) (nodup_dedup _)

theorem localInclusionRoutes_exact_sample :
    let excluded := (fromAddress (.v4 0xC0A80180) 25).toList
    let physical : PhysicalNetwork := ⟨(fromAddress (.v4 0xC0A80000) 16).toList, []⟩
    ∀ address, Covers (localInclusionRoutes false excluded physical) address ↔
      Covers (physical.subnets false) address ∧ ∀ exclusion ∈ excluded, address ∉ exclusion :=
  (localInclusionRoutes_exact false _ _ (by decide)).1

end Vole.Windows
