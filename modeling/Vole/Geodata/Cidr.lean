import Vole.Common.Dyadic
import Vole.Geodata.Model.Cidr

/-!
# GeoIP matching and the compaction of CIDR vectors

A block of addresses is a dyadic block (`Cidr.block`), and the vector
that `compact` works on in place holds, below the write index, the stack
of the dyadic compaction (`compact_blocks`). So the compacted vector
covers what the records cover, and depends on nothing else.
-/

namespace Vole.Geodata

open DyadicSet List Nat Option

variable {w : ℕ}

/-! ## Addresses as numbers -/

/-- **The mask cuts the low bits off.** -/
theorem mask_eq_shift (address : BitVec w) {prefixLen : ℕ} (h : prefixLen ≤ w) :
    mask address prefixLen = (address >>> (w - prefixLen)) <<< (w - prefixLen) := by
  apply BitVec.eq_of_getLsbD_eq
  intro i hi
  unfold mask
  split_ifs with h0
  · subst h0
    simp
  simp only [BitVec.getLsbD_and, BitVec.getLsbD_shiftLeft, BitVec.getLsbD_allOnes,
    BitVec.getLsbD_ushiftRight]
  by_cases hlow : i < w - prefixLen
  · simp [hlow]
  · have hback : w - prefixLen + (i - (w - prefixLen)) = i := by omega
    have hin : i - (w - prefixLen) < w := by omega
    simp [hlow, hback, hin, hi]

theorem toNat_mask (address : BitVec w) {prefixLen : ℕ} (h : prefixLen ≤ w) :
    (mask address prefixLen).toNat =
      address.toNat / 2 ^ (w - prefixLen) * 2 ^ (w - prefixLen) := by
  have hle : address.toNat / 2 ^ (w - prefixLen) * 2 ^ (w - prefixLen) ≤ address.toNat :=
    div_mul_le_self _ _
  rw [mask_eq_shift address h, BitVec.toNat_shiftLeft, BitVec.toNat_ushiftRight,
    shiftRight_eq_div_pow, shiftLeft_eq, mod_eq_of_lt (by omega)]

namespace Cidr

/-- The numbers of a block of addresses. -/
def block (cidr : Cidr w) : Block where
  start := cidr.network.toNat
  level := w - cidr.prefixLen
  aligned := by
    rw [← cidr.masked, toNat_mask _ cidr.within]
    exact dvd_mul_left _ _

variable {cidr left right : Cidr w} {address : BitVec w}

theorem block_injective : Function.Injective (block : Cidr w → Block) := by
  intro c d h
  obtain ⟨n, p, hp, hm⟩ := c
  obtain ⟨n', p', hp', hm'⟩ := d
  have hn : n = n' := BitVec.eq_of_toNat_eq (congrArg Block.start h)
  have hlevel : w - p = w - p' := congrArg Block.level h
  obtain rfl : p = p' := by omega
  subst hn
  rfl

/-- `contains` is membership. -/
theorem contains_iff : cidr.contains address = true ↔ address.toNat ∈ cidr.block := by
  have hpos : 0 < 2 ^ (w - cidr.prefixLen) := Nat.two_pow_pos _
  have hstart := cidr.block.aligned
  rw [Block.mem_iff_div]
  show (mask address cidr.prefixLen == cidr.network) = true ↔
    address.toNat / 2 ^ (w - cidr.prefixLen) = cidr.network.toNat / 2 ^ (w - cidr.prefixLen)
  rw [beq_iff_eq, ← BitVec.toNat_inj, toNat_mask _ cidr.within]
  constructor
  · intro h
    rw [← h, Nat.mul_div_cancel _ hpos]
  · intro h
    rw [h]
    exact Nat.div_mul_cancel hstart

/-- Every number of a block is an address. -/
theorem lt_of_mem_block {n : ℕ} (h : n ∈ cidr.block) : n < 2 ^ w := by
  obtain ⟨q, hq⟩ := cidr.block.aligned
  have hin := cidr.within
  have hspace : 2 ^ w = 2 ^ (w - cidr.prefixLen) * 2 ^ cidr.prefixLen := by
    rw [← pow_add]
    congr 1
    omega
  have hstart : 2 ^ (w - cidr.prefixLen) * q < 2 ^ (w - cidr.prefixLen) * 2 ^ cidr.prefixLen := by
    rw [← hspace]
    exact hq ▸ cidr.network.isLt
  have hlast : 2 ^ (w - cidr.prefixLen) * (q + 1) ≤ 2 ^ w := by
    rw [hspace]
    exact Nat.mul_le_mul_left _ (Nat.lt_of_mul_lt_mul_left hstart)
  have hend := h.2
  rw [hq] at hend
  exact lt_of_lt_of_le hend hlast

theorem getMsbD_mask {prefixLen : ℕ} (h : prefixLen ≤ w) (x : BitVec w) (i : ℕ) :
    (mask x prefixLen).getMsbD i = (decide (i < prefixLen) && x.getMsbD i) := by
  unfold mask
  split_ifs with h0
  · subst h0
    simp
  · have hkeep : (BitVec.allOnes w).getMsbD (i + (w - prefixLen)) = decide (i < prefixLen) := by
      rw [BitVec.getMsbD_allOnes, decide_eq_decide]
      omega
    rw [BitVec.getMsbD_and, BitVec.getMsbD_shiftLeft, hkeep, Bool.and_comm]

/-- The block of an address is of the addresses with its first bits. -/
theorem contains_mask {network : BitVec w} {prefixLen : ℕ} (h : prefixLen ≤ w) :
    (Cidr.mk (mask network prefixLen) prefixLen h (mask_mask _ _)).contains address = true ↔
      ∀ i < prefixLen, address.getMsbD i = network.getMsbD i := by
  show (mask address prefixLen == mask network prefixLen) = true ↔ _
  rw [beq_iff_eq]
  constructor
  · intro heq i hi
    have hi' := congrArg (fun x => BitVec.getMsbD x i) heq
    simpa [getMsbD_mask h, hi] using hi'
  intro hbits
  apply BitVec.eq_of_getMsbD_eq
  intro i _
  rw [getMsbD_mask h, getMsbD_mask h]
  by_cases hi : i < prefixLen
  · rw [hbits i hi]
  · simp [hi]

/-- Setting the bit below an aligned number adds it. -/
theorem toNat_or_half {n : BitVec w} {k : ℕ} (hk : k < w) (haligned : 2 ^ (k + 1) ∣ n.toNat) :
    (n ||| 1#w <<< k).toNat = n.toNat + 2 ^ k := by
  obtain ⟨q, hq⟩ := haligned
  have hpow : 2 ^ k < 2 ^ w := Nat.pow_lt_pow_right (by omega) hk
  have hbit : (1#w <<< k).toNat = 2 ^ k := by
    rw [BitVec.toNat_shiftLeft, BitVec.toNat_ofNat, shiftLeft_eq,
      Nat.mod_eq_of_lt (Nat.one_lt_two_pow (by omega)), Nat.one_mul, Nat.mod_eq_of_lt hpow]
  rw [BitVec.toNat_or, hbit, hq,
    ← Nat.two_pow_add_eq_or_of_lt (Nat.pow_lt_pow_right (by omega) (Nat.lt_succ_self k))]

/-- A mask of one bit less leaves a number unchanged exactly when the
number starts a block of twice the size. -/
theorem mask_pred_iff (hne : left.prefixLen ≠ 0) :
    left.network = mask left.network (left.prefixLen - 1) ↔
      2 ^ (w - left.prefixLen + 1) ∣ left.network.toNat := by
  have hin := left.within
  have hlevel : w - (left.prefixLen - 1) = w - left.prefixLen + 1 := by omega
  rw [← BitVec.toNat_inj, toNat_mask _ (by omega), hlevel]
  constructor
  · intro h
    rw [h]
    exact dvd_mul_left _ _
  · intro h
    exact (Nat.div_mul_cancel h).symm

/-- `sibling` finds the two halves of a block. -/
theorem sibling_iff : left.sibling right = true ↔ left.block.Sibling right.block := by
  have hl := left.within
  have hr := right.within
  unfold sibling
  split_ifs with h
  · -- one bit short of the whole space there is no second half
    refine ⟨fun hf => absurd hf (by decide), fun hs => ?_⟩
    have hlevel : w - right.prefixLen = w - left.prefixLen := hs.level
    have hstart : right.network.toNat = left.network.toNat + 2 ^ (w - left.prefixLen) := hs.start
    rcases h with h | h
    · rw [h, Nat.sub_zero] at hstart
      omega
    · omega
  · obtain ⟨hne, heq⟩ := not_or.1 h
    rw [Bool.and_eq_true, beq_iff_eq, beq_iff_eq, mask_pred_iff hne]
    have hk : w - left.prefixLen < w := by omega
    constructor
    · rintro ⟨haligned, hright⟩
      refine ⟨by show w - _ = w - _; omega, haligned, ?_⟩
      rw [← (mask_pred_iff hne).2 haligned] at hright
      show right.network.toNat = _
      rw [hright, toNat_or_half hk haligned]
      rfl
    · intro hs
      have haligned : 2 ^ (w - left.prefixLen + 1) ∣ left.network.toNat := hs.aligned
      refine ⟨haligned, BitVec.eq_of_toNat_eq ?_⟩
      rw [← (mask_pred_iff hne).2 haligned, toNat_or_half hk haligned]
      exact hs.start

theorem block_parent (h : left.sibling right = true) (hs : left.block.Sibling right.block) :
    (left.parent (sibling_masked h)).block = left.block.parent hs.aligned := by
  have hne : left.prefixLen ≠ 0 := by
    intro h0
    rw [sibling, if_pos (.inl h0)] at h
    cases h
  have hin := left.within
  refine Block.ext rfl ?_
  show w - (left.prefixLen - 1) = w - left.prefixLen + 1
  omega

/-! ## The order of the sort -/

theorem follows_of_le (h : left.le right = true) : left.block.Follows right.block := by
  rw [le, Bool.or_eq_true, decide_eq_true_eq, Bool.and_eq_true, beq_iff_eq,
    decide_eq_true_eq] at h
  rcases h with hlt | ⟨heq, hle⟩
  · exact .inl hlt
  · refine .inr ⟨congrArg BitVec.toNat heq, ?_⟩
    show w - right.prefixLen ≤ w - left.prefixLen
    omega

theorem le_trans_bool (a b c : Cidr w) (hab : a.le b = true) (hbc : b.le c = true) :
    a.le c = true := by
  simp only [le, Bool.or_eq_true, decide_eq_true_eq, Bool.and_eq_true, beq_iff_eq,
    BitVec.lt_def, ← BitVec.toNat_inj] at *
  omega

theorem le_total_bool (a b : Cidr w) : (a.le b || b.le a) = true := by
  simp only [le, Bool.or_eq_true, decide_eq_true_eq, Bool.and_eq_true, beq_iff_eq,
    BitVec.lt_def, ← BitVec.toNat_inj]
  omega

end Cidr

open Cidr

variable {values : List (Cidr w)} {address : BitVec w}

theorem sorted_blocks (values : List (Cidr w)) :
    ((values.mergeSort Cidr.le).map block).Pairwise Block.Follows := by
  rw [pairwise_map]
  exact (pairwise_mergeSort le_trans_bool le_total_bool values).imp follows_of_le

/-! ## The vector holds the stack -/

/-- The blocks below the write index, the last one on top. -/
def stackOf (state : List (Cidr w) × ℕ) : List Block :=
  (state.1.take state.2).reverse.map block

theorem stackOf_succ {n : ℕ} {cidr : Cidr w} (h : values[n]? = some cidr) :
    stackOf (values, n + 1) = cidr.block :: stackOf (values, n) := by
  have htake : values.take (n + 1) = values.take n ++ [cidr] := by
    rw [take_add_one, h]
    rfl
  simp only [stackOf]
  rw [htake, reverse_append]
  rfl

/-- A step of the loop that reads up to `next` has changed nothing from
there on, and its write index is no further. -/
structure Behind (next : ℕ) (before : List (Cidr w)) (after : List (Cidr w) × ℕ) : Prop where
  length : after.1.length = before.length
  drop : after.1.drop next = before.drop next
  write : after.2 ≤ next

/-- **The inner loop settles the top.** By induction on the write index:
each merge moves it down by one. -/
theorem mergeLoop_spec (n : ℕ) : ∀ (values : List (Cidr w)) (top : Cidr w),
    values[n]? = some top →
    Behind (n + 1) values (mergeLoop values (n + 1)) ∧
    stackOf (mergeLoop values (n + 1)) = settle top.block (stackOf (values, n)) := by
  induction n with
  | zero =>
    intro values top htop
    refine ⟨⟨rfl, rfl, le_refl _⟩, ?_⟩
    show stackOf (values, 0 + 1) = _
    rw [stackOf_succ htop]
    rfl
  | succ n ih =>
    intro values right hright
    have hlength : n + 1 < values.length := (List.getElem?_eq_some_iff.1 hright).1
    obtain ⟨left, hleft⟩ : ∃ left, values[n]? = some left :=
      ⟨_, getElem?_eq_getElem (lt_of_succ_lt hlength)⟩
    rw [stackOf_succ hleft, settle, mergeLoop]
    simp only [hleft, hright]
    by_cases hs : left.sibling right = true
    · have hblocks := sibling_iff.1 hs
      rw [dif_pos hs, dif_pos hblocks, ← block_parent hs hblocks]
      obtain ⟨hbehind, hstack⟩ := ih (values.set n (left.parent (sibling_masked hs)))
        (left.parent (sibling_masked hs)) (getElem?_set_self (lt_of_succ_lt hlength))
      refine ⟨⟨?_, ?_, le_succ_of_le hbehind.write⟩, ?_⟩
      · rw [hbehind.length, length_set]
      · -- one value further, past the parent that was set
        have hmore := congrArg (drop 1) hbehind.drop
        rw [drop_drop, drop_drop, drop_set_of_lt (by omega)] at hmore
        exact hmore
      · rw [hstack]
        simp only [stackOf, take_set_of_le (le_refl n)]
    · have hblocks : ¬ left.block.Sibling right.block := fun h => hs (sibling_iff.2 h)
      rw [dif_neg hs, dif_neg hblocks]
      refine ⟨⟨rfl, rfl, le_refl _⟩, ?_⟩
      rw [stackOf_succ hright, stackOf_succ hleft]

/-- **One value read.** It is added to the stack. -/
theorem compactStep_spec {state : List (Cidr w) × ℕ} {read : ℕ} {value : Cidr w}
    (hwrite : state.2 ≤ read) (hvalue : state.1[read]? = some value) :
    Behind (read + 1) state.1 (compactStep state read) ∧
    stackOf (compactStep state read) = add value.block (stackOf state) := by
  obtain ⟨values, write⟩ := state
  simp only at hwrite hvalue
  have hread : read < values.length := (List.getElem?_eq_some_iff.1 hvalue).1
  have hpush : Behind (read + 1) values (mergeLoop (values.set write value) (write + 1)) ∧
      stackOf (mergeLoop (values.set write value) (write + 1)) =
        settle value.block (stackOf (values, write)) := by
    obtain ⟨hbehind, hstack⟩ := mergeLoop_spec write (values.set write value) value
      (getElem?_set_self (by omega))
    refine ⟨⟨?_, ?_, le_trans hbehind.write (by omega)⟩, ?_⟩
    · rw [hbehind.length, length_set]
    · have hmore := congrArg (drop (read - write)) hbehind.drop
      rw [drop_drop, drop_drop, drop_set_of_lt (by omega)] at hmore
      have hindex : write + 1 + (read - write) = read + 1 := by omega
      rwa [hindex] at hmore
    · rw [hstack]
      simp only [stackOf, take_set_of_le (le_refl write)]
  rw [compactStep]
  simp only [hvalue]
  cases write with
  | zero =>
    exact hpush
  | succ n =>
    obtain ⟨top, htop⟩ : ∃ top, values[n]? = some top :=
      ⟨_, getElem?_eq_getElem (by omega)⟩
    have hcond : (n + 1 ≠ 0 ∧
        (values[n + 1 - 1]?.any fun top => top.contains value.network) = true) ↔
        value.block.start ∈ top.block := by
      rw [Nat.add_sub_cancel, htop, any_some, contains_iff]
      exact ⟨fun h => h.2, fun h => ⟨succ_ne_zero n, h⟩⟩
    rw [stackOf_succ htop] at hpush ⊢
    rw [add]
    by_cases hin : value.block.start ∈ top.block
    · rw [if_pos (hcond.2 hin), if_pos hin]
      exact ⟨⟨rfl, rfl, le_succ_of_le hwrite⟩, stackOf_succ htop⟩
    · rw [if_neg fun h => hin (hcond.1 h), if_neg hin]
      exact hpush

/-- **The loop.** After `n` rounds the vector below the write index is the
stack of the first `n` values, and the values from `n` on are untouched. -/
theorem compactLoop_spec (sorted : List (Cidr w)) (n : ℕ) : n ≤ sorted.length →
    Behind n sorted ((List.range n).foldl compactStep (sorted, 0)) ∧
    stackOf ((List.range n).foldl compactStep (sorted, 0)) =
      DyadicSet.compact ((sorted.take n).map block) := by
  induction n with
  | zero =>
    intro _
    exact ⟨⟨rfl, rfl, le_refl _⟩, rfl⟩
  | succ n ih =>
    intro hn
    obtain ⟨hbehind, hstack⟩ := ih (by omega)
    obtain ⟨value, hvalue⟩ : ∃ value, sorted[n]? = some value :=
      ⟨_, getElem?_eq_getElem hn⟩
    have hnext : ((List.range n).foldl compactStep (sorted, 0)).1[n]? = some value := by
      rw [← add_zero n, ← getElem?_drop, add_zero, hbehind.drop, getElem?_drop,
        add_zero, hvalue]
    obtain ⟨hstep, hadd⟩ := compactStep_spec hbehind.write hnext
    rw [range_succ, foldl_append, foldl_cons, foldl_nil]
    refine ⟨⟨hstep.length.trans hbehind.length, ?_, hstep.write⟩, ?_⟩
    · have hmore := congrArg (drop 1) hbehind.drop
      rw [drop_drop, drop_drop] at hmore
      exact hstep.drop.trans hmore
    have htake : sorted.take (n + 1) = sorted.take n ++ [value] := by
      rw [take_add_one, hvalue]
      rfl
    rw [hadd, hstack, htake, map_append, DyadicSet.compact, DyadicSet.compact,
      foldl_append]
    rfl

/-- **Compaction in place is dyadic compaction.** -/
theorem compact_blocks (values : List (Cidr w)) :
    (compact values).reverse.map block =
      DyadicSet.compact ((values.mergeSort Cidr.le).map block) := by
  obtain ⟨-, hstack⟩ := compactLoop_spec (values.mergeSort Cidr.le) _ (le_refl _)
  rw [take_length] at hstack
  exact hstack

/-! ## What the compacted vector covers -/

/-- Some block of the vector contains the address. -/
def Covers (values : List (Cidr w)) (address : BitVec w) : Prop :=
  ∃ cidr ∈ values, cidr.contains address = true

theorem covers_iff_blocks :
    Covers values address ↔ DyadicSet.Covers (values.map block) address.toNat := by
  constructor
  · rintro ⟨cidr, hmem, hin⟩
    exact ⟨cidr.block, mem_map_of_mem hmem, contains_iff.1 hin⟩
  · rintro ⟨b, hmem, hin⟩
    obtain ⟨cidr, hcidr, rfl⟩ := mem_map.1 hmem
    exact ⟨cidr, hcidr, contains_iff.2 hin⟩

theorem compact_apart (values : List (Cidr w)) :
    ((compact values).reverse.map block).Pairwise Apart := by
  rw [compact_blocks]
  exact DyadicSet.compact_apart (sorted_blocks values)

theorem compact_before (values : List (Cidr w)) :
    ((compact values).map block).Pairwise Block.Before := by
  have h := compact_apart values
  rw [map_reverse, pairwise_reverse] at h
  exact h.imp Apart.before

theorem covers_reverse (blocks : List Block) (n : ℕ) :
    DyadicSet.Covers blocks.reverse n ↔ DyadicSet.Covers blocks n := by
  simp only [DyadicSet.Covers, mem_reverse]

/-- **Compaction keeps what is covered.** -/
theorem compact_covers : Covers (compact values) address ↔ Covers values address := by
  have hsorted : Covers (values.mergeSort Cidr.le) address ↔ Covers values address := by
    simp only [Covers, mem_mergeSort]
  rw [← hsorted, covers_iff_blocks, covers_iff_blocks,
    ← DyadicSet.compact_covers (sorted_blocks values), ← compact_blocks, map_reverse,
    covers_reverse]

/-- The value below the partition point is the last one that passes. -/
theorem lookup_eq (values : List (Cidr w)) (address : BitVec w) :
    lookup values address =
      ((values.takeWhile fun cidr => decide (cidr.network ≤ address)).getLast?.any fun cidr =>
        cidr.contains address) := by
  have hsplit := takeWhile_append_dropWhile (p := fun cidr : Cidr w =>
    decide (cidr.network ≤ address)) (l := values)
  rw [lookup, partitionPoint, getLast?_eq_getElem?]
  cases hlength : (values.takeWhile fun cidr => decide (cidr.network ≤ address)).length with
  | zero =>
    have hnil := length_eq_zero_iff.1 hlength
    rw [hnil]
    rfl
  | succ n =>
    have hsame : values[n]? =
        (values.takeWhile fun cidr => decide (cidr.network ≤ address))[n]? := by
      conv_lhs => rw [← hsplit]
      exact getElem?_append_left (by omega)
    simp only [hsame, Nat.add_sub_cancel]

/-- **The candidate of the lookup is enough.** -/
theorem lookup_iff (h : (values.map block).Pairwise Block.Before) :
    lookup values address = true ↔ Covers values address := by
  have hsearch : ((values.map block).takeWhile fun b => b.start ≤ address.toNat) =
      (values.takeWhile fun cidr => decide (cidr.network ≤ address)).map block := by
    rw [takeWhile_map]
    rfl
  rw [covers_iff_blocks, covers_iff_last h, hsearch, getLast?_map, lookup_eq,
    Option.any_eq_true]
  constructor
  · rintro ⟨cidr, hlast, hin⟩
    exact ⟨cidr.block, by rw [hlast]; rfl, contains_iff.1 hin⟩
  · rintro ⟨b, hlast, hin⟩
    obtain ⟨cidr, hcidr, rfl⟩ := Option.map_eq_some_iff.1 hlast
    exact ⟨cidr, hcidr, contains_iff.2 hin⟩

/-! ## Records -/

/-- The plain meaning of a record: the address is of its family and has
the first bits of its network. -/
def CidrFields.Covers (fields : CidrFields) : IpAddr → Prop
  | .v4 address => ∃ ip, fields.ip = some ip ∧ ip.length = 4 ∧
      ∀ i < fields.prefixLen, address.getMsbD i = (BitVec.ofNat 32 (ofBe ip)).getMsbD i
  | .v6 address => ∃ ip, fields.ip = some ip ∧ ip.length = 16 ∧
      ∀ i < fields.prefixLen, address.getMsbD i = (BitVec.ofNat 128 (ofBe ip)).getMsbD i

/-- Some block of the address's family contains it. -/
def Families.Covers (families : Families) : IpAddr → Prop
  | .v4 address => Geodata.Covers families.v4 address
  | .v6 address => Geodata.Covers families.v6 address

theorem covers_concat (values : List (Cidr w)) (cidr : Cidr w) :
    Covers (values ++ [cidr]) address ↔ Covers values address ∨ cidr.contains address = true := by
  simp only [Covers, mem_append, mem_singleton]
  constructor
  · rintro ⟨c, hmem | rfl, hin⟩
    · exact .inl ⟨c, hmem, hin⟩
    · exact .inr hin
  · rintro (⟨c, hmem, hin⟩ | hin)
    · exact ⟨c, .inl hmem, hin⟩
    · exact ⟨cidr, .inr rfl, hin⟩

/-- **An accepted record adds what it means.** -/
theorem pushCidr_covers {code : Code} {fields : CidrFields} {families families' : Families}
    (h : pushCidr code fields families = .ok families') (address : IpAddr) :
    families'.Covers address ↔ families.Covers address ∨ fields.Covers address := by
  unfold pushCidr at h
  cases hip : fields.ip with
  | none =>
    rw [hip] at h
    cases h
  | some ip =>
    rw [hip] at h
    simp only at h
    split_ifs at h with h4 hlen h16 hlen
    · cases h
      cases address with
      | v4 address =>
        simp only [Families.Covers, CidrFields.Covers, covers_concat, maskV4, contains_mask, hip,
          some.injEq, exists_eq_left', h4, true_and]
      | v6 address => simp [Families.Covers, CidrFields.Covers, hip, h4]
    · cases h
      cases address with
      | v4 address => simp [Families.Covers, CidrFields.Covers, hip, h4]
      | v6 address =>
        simp only [Families.Covers, CidrFields.Covers, covers_concat, maskV6, contains_mask, hip,
          some.injEq, exists_eq_left', h16, true_and]

/-- The records of a category are accepted one after another. -/
def pushRecords (code : Code) : List CidrFields → Families → Except GeoDataError Families
  | [], families => .ok families
  | fields :: rest, families =>
    match pushCidr code fields families with
    | .error e => .error e
    | .ok families => pushRecords code rest families

theorem pushRecords_covers {code : Code} {records : List CidrFields} {families families' : Families}
    (h : pushRecords code records families = .ok families') (address : IpAddr) :
    families'.Covers address ↔
      families.Covers address ∨ ∃ fields ∈ records, fields.Covers address := by
  induction records generalizing families with
  | nil =>
    cases h
    simp
  | cons fields rest ih =>
    rw [pushRecords] at h
    cases hpush : pushCidr code fields families with
    | error e =>
      rw [hpush] at h
      cases h
    | ok next =>
      rw [hpush] at h
      rw [ih h, pushCidr_covers hpush, exists_mem_cons_iff]
      tauto

/-- **GeoIP matching is the plain union of the records.** Whatever the
records of a category are, the lookup in the compacted vectors finds an
address exactly when a record of its family contains it. -/
theorem matches_iff_record (code : Code) (records : List CidrFields) (families : Families)
    (selectors : List Bytes) (h : pushRecords code records ⟨[], []⟩ = .ok families)
    (address : IpAddr) :
    IpCategory.matches ⟨code, compactV4 families.v4, compactV6 families.v6, selectors⟩ address
      = true ↔ ∃ fields ∈ records, fields.Covers address := by
  have hrecords := pushRecords_covers h address
  have hnone : ¬ (⟨[], []⟩ : Families).Covers address := by
    cases address <;> rintro ⟨cidr, hmem, -⟩ <;> cases hmem
  rw [or_iff_right hnone] at hrecords
  rw [← hrecords]
  cases address with
  | v4 address | v6 address => exact (lookup_iff (compact_before _)).trans compact_covers

/-- The two halves of `10.0.0.0/8`, the same block with host bits set, and
the whole of IPv6. -/
theorem matches_iff_record_sample : ∃ families,
    pushRecords ⟨[99, 110]⟩ [⟨some [10, 128, 0, 0], 9, true⟩, ⟨some [10, 0, 0, 0], 9, true⟩,
      ⟨some [10, 1, 2, 3], 8, true⟩, ⟨some (replicate 16 1), 0, false⟩] ⟨[], []⟩ = .ok families ∧
    ∀ address, IpCategory.matches
      ⟨⟨[99, 110]⟩, compactV4 families.v4, compactV6 families.v6, []⟩ address = true ↔
      ∃ fields ∈ [⟨some [10, 128, 0, 0], 9, true⟩, ⟨some [10, 0, 0, 0], 9, true⟩,
        ⟨some [10, 1, 2, 3], 8, true⟩, ⟨some (replicate 16 1), 0, false⟩],
        CidrFields.Covers fields address :=
  ⟨_, rfl, matches_iff_record _ _ _ _ rfl⟩

/-! ## The canonical form -/

/-- `compact` takes lists to a form that depends on what they cover. -/
structure CanonicalForm (sibling : Cidr w → Cidr w → Bool)
    (compact : List (Cidr w) → List (Cidr w)) : Prop where
  /-- The form covers what the list covers. -/
  covers : ∀ xs address, Covers (compact xs) address ↔ Covers xs address
  /-- Lists that cover the same addresses have the same form. -/
  equal : ∀ xs ys, (∀ address, Covers xs address ↔ Covers ys address) → compact xs = compact ys
  /-- The form is strictly sorted by network. -/
  sorted : ∀ xs, (compact xs).Pairwise fun left right => left.network < right.network
  /-- Its blocks are pairwise disjoint. -/
  disjoint : ∀ xs, (compact xs).Pairwise fun left right =>
    ∀ address, ¬ (left.contains address = true ∧ right.contains address = true)
  /-- No two of its blocks are siblings. -/
  no_siblings : ∀ xs, ∀ left ∈ compact xs, ∀ right ∈ compact xs, sibling left right = false
  /-- The form of the form is the form. -/
  idempotent : ∀ xs, compact (compact xs) = compact xs

theorem compact_equal {xs ys : List (Cidr w)}
    (h : ∀ address, Covers xs address ↔ Covers ys address) : compact xs = compact ys := by
  have hcovers : ∀ n, DyadicSet.Covers ((compact xs).reverse.map block) n ↔
      DyadicSet.Covers ((compact ys).reverse.map block) n := by
    intro n
    rw [map_reverse, map_reverse, covers_reverse, covers_reverse]
    by_cases hn : n < 2 ^ w
    · have hsame : Covers (compact xs) (BitVec.ofNat w n) ↔ Covers (compact ys) (BitVec.ofNat w n) :=
        compact_covers.trans ((h _).trans compact_covers.symm)
      rwa [covers_iff_blocks, covers_iff_blocks, BitVec.toNat_ofNat, mod_eq_of_lt hn] at hsame
    -- no block reaches past the last address
    have hpast : ∀ values : List (Cidr w), ¬ DyadicSet.Covers (values.map block) n := by
      rintro values ⟨b, hmem, hin⟩
      obtain ⟨cidr, -, rfl⟩ := mem_map.1 hmem
      exact hn (lt_of_mem_block hin)
    exact iff_of_false (hpast _) (hpast _)
  have hblocks := eq_of_covers (compact_apart xs) (compact_apart ys) hcovers
  exact reverse_injective (block_injective.list_map hblocks)

theorem canonicalForm :
    CanonicalForm Cidr.sibling (compact : List (Cidr w) → List (Cidr w)) where
  covers _ _ := compact_covers
  equal _ _ h := compact_equal h
  sorted xs := by
    have h := compact_before xs
    rw [pairwise_map] at h
    exact h.imp fun hbefore => hbefore.start_lt
  disjoint xs := by
    have h := compact_before xs
    rw [pairwise_map] at h
    refine h.imp fun hbefore address hboth => ?_
    exact hbefore.disjoint (contains_iff.1 hboth.1) (contains_iff.1 hboth.2)
  no_siblings xs left hleft right hright := by
    rw [← Bool.not_eq_true, sibling_iff]
    refine not_sibling (compact_apart xs) ?_ ?_
    · exact mem_map_of_mem (mem_reverse.2 hleft)
    · exact mem_map_of_mem (mem_reverse.2 hright)
  idempotent _ := compact_equal fun _ => compact_covers

/-- **Compaction is a canonical form**, for both families. -/
theorem compact_canonical :
    CanonicalForm siblingV4 compactV4 ∧ CanonicalForm siblingV6 compactV6 :=
  ⟨canonicalForm, canonicalForm⟩

/-- `10.1.0.0/16` is in `10.0.0.0/9`, whose sibling is there too. -/
example :
    (compactV4 [⟨0x0A000000, 9, by decide, by decide⟩, ⟨0x0A010000, 16, by decide, by decide⟩,
      ⟨0x0A800000, 9, by decide, by decide⟩]).map (fun cidr => (cidr.network, cidr.prefixLen)) =
      [(0x0A000000#32, 8)] := by
  rw [compactV4, compact, mergeSort_of_pairwise (by decide)]
  decide +kernel

end Vole.Geodata
