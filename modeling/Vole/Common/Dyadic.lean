import Mathlib.Data.List.Sort
import Mathlib.Tactic.Ring

/-!
# Sets of numbers as dyadic blocks

A dyadic block is `2 ^ level` consecutive numbers whose first is a
multiple of `2 ^ level`. Two blocks are nested or disjoint
(`Block.subset_of_mem`), and two halves of one block join into it
(`mem_parent`). `compact` reads blocks in the order of their starts,
larger ones first, and keeps a stack: a block inside the top is dropped,
and a block that completes the top's parent is merged with it, again and
again. What is left is the set of maximal blocks of the union, so it
depends on the union alone (`eq_of_covers`).
-/

namespace Vole.DyadicSet

open List Nat

/-- `2 ^ level` numbers from `start`, aligned. -/
@[ext] structure Block where
  start : ℕ
  level : ℕ
  aligned : 2 ^ level ∣ start
  deriving DecidableEq

namespace Block

instance : Membership ℕ Block :=
  ⟨fun b a => b.start ≤ a ∧ a < b.start + 2 ^ b.level⟩

variable {a : ℕ} {b c d : Block}

theorem mem_iff : a ∈ b ↔ b.start ≤ a ∧ a < b.start + 2 ^ b.level := Iff.rfl

instance : Decidable (a ∈ b) := decidable_of_iff _ mem_iff.symm

theorem start_mem (b : Block) : b.start ∈ b :=
  ⟨Nat.le_refl _, Nat.lt_add_of_pos_right (Nat.two_pow_pos _)⟩

/-- A block's numbers are those with its start's quotient. -/
theorem mem_iff_div : a ∈ b ↔ a / 2 ^ b.level = b.start / 2 ^ b.level := by
  obtain ⟨q, hq⟩ := b.aligned
  have hpos : 0 < 2 ^ b.level := Nat.two_pow_pos _
  rw [mem_iff, hq, Nat.mul_div_cancel_left _ hpos]
  constructor
  · rintro ⟨hle, hlt⟩
    exact Nat.div_eq_of_lt_le (by rw [Nat.mul_comm]; exact hle)
      (by rw [succ_mul, mul_comm]; exact hlt)
  · intro h
    have hdiv := div_add_mod a (2 ^ b.level)
    rw [h] at hdiv
    omega

/-- **Blocks are laminar.** A block that meets a block at least as large
lies inside it. -/
theorem subset_of_mem (hlevel : b.level ≤ c.level) (hb : a ∈ b) (hc : a ∈ c) : ∀ x ∈ b, x ∈ c := by
  intro x hx
  rw [mem_iff_div] at *
  have hsplit : 2 ^ c.level = 2 ^ b.level * 2 ^ (c.level - b.level) := by
    rw [← pow_add]
    congr 1
    omega
  rw [← hc, hsplit, ← Nat.div_div_eq_div_mul, ← Nat.div_div_eq_div_mul, hx, hb]

/-- Blocks with the same numbers are equal. -/
theorem eq_of_subset (hbc : ∀ x ∈ b, x ∈ c) (hcb : ∀ x ∈ c, x ∈ b) : b = c := by
  have hb := hbc _ b.start_mem
  have hc := hcb _ c.start_mem
  have hstart : b.start = c.start := le_antisymm hc.1 hb.1
  have hb' : b.start + (2 ^ b.level - 1) ∈ c :=
    hbc _ ⟨by omega, by have := Nat.two_pow_pos b.level; omega⟩
  have hc' : c.start + (2 ^ c.level - 1) ∈ b :=
    hcb _ ⟨by omega, by have := Nat.two_pow_pos c.level; omega⟩
  have hsize : 2 ^ b.level = 2 ^ c.level := by
    have := hb'.2
    have := hc'.2
    omega
  exact Block.ext hstart (Nat.pow_right_injective (Nat.le_refl 2) hsize)

/-! ## Halves -/

/-- `left` and `right` are the two halves of one block. -/
structure Sibling (left right : Block) : Prop where
  level : right.level = left.level
  aligned : 2 ^ (left.level + 1) ∣ left.start
  start : right.start = left.start + 2 ^ left.level

instance (left right : Block) : Decidable (Sibling left right) :=
  decidable_of_iff (right.level = left.level ∧ 2 ^ (left.level + 1) ∣ left.start ∧
    right.start = left.start + 2 ^ left.level)
    ⟨fun h => ⟨h.1, h.2.1, h.2.2⟩, fun h => ⟨h.level, h.aligned, h.start⟩⟩

/-- The block whose first half is `left`. -/
def parent (left : Block) (h : 2 ^ (left.level + 1) ∣ left.start) : Block :=
  ⟨left.start, left.level + 1, h⟩

theorem mem_parent (h : Sibling b c) : a ∈ b.parent h.aligned ↔ a ∈ b ∨ a ∈ c := by
  have hlevel := h.level
  have hstart := h.start
  simp only [mem_iff, parent, hlevel, hstart, pow_succ]
  omega

/-- The lower half of a block. -/
def lower (b : Block) (k : ℕ) (h : b.level = k + 1) : Block :=
  ⟨b.start, k, (pow_dvd_pow 2 (by omega)).trans b.aligned⟩

/-- The upper half of a block. -/
def upper (b : Block) (k : ℕ) (h : b.level = k + 1) : Block :=
  ⟨b.start + 2 ^ k, k,
    Nat.dvd_add ((pow_dvd_pow 2 (by omega)).trans b.aligned) (Nat.dvd_refl _)⟩

theorem halves_sibling {k : ℕ} (h : b.level = k + 1) : Sibling (b.lower k h) (b.upper k h) :=
  ⟨rfl, by rw [show (b.lower k h).level + 1 = b.level from h.symm]; exact b.aligned, rfl⟩

theorem mem_halves {k : ℕ} (h : b.level = k + 1) : a ∈ b ↔ a ∈ b.lower k h ∨ a ∈ b.upper k h := by
  rw [← mem_parent (halves_sibling h)]
  simp only [mem_iff, parent, lower, h]

/-- A block around a half of `b` is that half or is around the whole. -/
theorem around_half {half : Block} (hlevel : half.level + 1 = b.level) (hin : half.start ∈ b)
    (hsub : ∀ x ∈ half, x ∈ c) : c = half ∨ ∀ x ∈ b, x ∈ c := by
  have hmeet : half.start ∈ c := hsub _ half.start_mem
  rcases lt_or_ge c.level b.level with hlt | hge
  · exact .inl (eq_of_subset (subset_of_mem (by omega) hmeet half.start_mem) hsub)
  · exact .inr (subset_of_mem hge hin hmeet)

/-! ## Order -/

/-- `b` ends before `c` starts. -/
def Before (b c : Block) : Prop := b.start + 2 ^ b.level ≤ c.start

theorem Before.start_lt (h : Before b c) : b.start < c.start := by
  have := Nat.two_pow_pos b.level
  unfold Before at h
  omega

theorem Before.disjoint (h : Before b c) (hb : a ∈ b) : a ∉ c := by
  intro hc
  have := hb.2
  have := hc.1
  unfold Before at h
  omega

theorem Before.trans (hbc : Before b c) (hcd : Before c d) : Before b d := by
  have := hcd.start_lt
  unfold Before at *
  omega

/-- A start past the start of `b` and outside `b` is past all of `b`. -/
theorem before_of_not_mem (hle : b.start ≤ c.start) (hnot : c.start ∉ b) : Before b c := by
  rw [mem_iff] at hnot
  unfold Before
  omega

theorem Before.parent (h : Sibling c d) (hbc : Before b c) : Before b (c.parent h.aligned) := hbc

/-- Nothing lies between two siblings. -/
theorem not_sibling_of_between (hbc : Before b c) (hcd : Before c d) : ¬ Sibling b d := by
  intro h
  have := hcd.start_lt
  have := h.start
  unfold Before at hbc
  omega

theorem not_sibling_of_after (h : Before b c) : ¬ Sibling c b := by
  intro hs
  have := h.start_lt
  have := hs.start
  have := Nat.two_pow_pos c.level
  omega

/-- `v` may be read after `t`: it starts later, or at the same number
and is no larger. -/
def Follows (t v : Block) : Prop :=
  t.start < v.start ∨ t.start = v.start ∧ v.level ≤ t.level

theorem Follows.start_le (h : Follows b c) : b.start ≤ c.start := by
  rcases h with h | h <;> omega

/-- A block read later that starts inside `t` lies inside `t`. -/
theorem Follows.subset (h : Follows b c) (hin : c.start ∈ b) : ∀ x ∈ c, x ∈ b := by
  rcases h with hlt | ⟨-, hlevel⟩
  · rcases le_total c.level b.level with hle | hge
    · exact subset_of_mem hle c.start_mem hin
    · -- a larger block through `c.start` would have to start before `b`
      have := (subset_of_mem hge hin c.start_mem _ b.start_mem).1
      omega
  · exact subset_of_mem hlevel c.start_mem hin

end Block

open Block

/-! ## Compaction -/

/-- Some block of the list holds `a`. -/
def Covers (blocks : List Block) (a : ℕ) : Prop := ∃ b ∈ blocks, a ∈ b

@[simp] theorem covers_nil {a : ℕ} : ¬ Covers [] a := by simp [Covers]

@[simp] theorem covers_cons {a : ℕ} {b : Block} {blocks : List Block} :
    Covers (b :: blocks) a ↔ a ∈ b ∨ Covers blocks a := by simp [Covers]

/-- Merges the new top with the blocks under it as long as the two are
halves of one block. -/
def settle (top : Block) : List Block → List Block
  | [] => [top]
  | left :: rest =>
    if h : Sibling left top then settle (left.parent h.aligned) rest else top :: left :: rest

/-- Reads one block: nothing to do if its start is inside the top. -/
def add (v : Block) : List Block → List Block
  | [] => [v]
  | top :: rest => if v.start ∈ top then top :: rest else settle v (top :: rest)

/-- The stack after the blocks of the list are read in turn, last on top. -/
def compact (blocks : List Block) : List Block := blocks.foldl (fun stack v => add v stack) []

/-- Of two blocks of a stack the lower one ends before the upper one
starts, and they are not halves of one block. -/
structure Apart (upper lower : Block) : Prop where
  before : Before lower upper
  not_sibling : ¬ Sibling lower upper

variable {a : ℕ} {top v : Block} {stack rest blocks xs ys : List Block}

theorem settle_apart : (∀ b ∈ rest, Before b top) → rest.Pairwise Apart →
    (settle top rest).Pairwise Apart := by
  induction rest generalizing top with
  | nil =>
    intro _ _
    exact pairwise_singleton _ _
  | cons left rest ih =>
    intro hbefore happart
    obtain ⟨hleft, hrest⟩ := pairwise_cons.1 happart
    have hunder : ∀ b ∈ rest, Before b left := fun b hb => (hleft b hb).before
    rw [settle]
    split_ifs with h
    · exact ih (fun b hb => (hunder b hb).parent h) hrest
    · have hfirst : Before left top := hbefore left mem_cons_self
      refine pairwise_cons.2 ⟨forall_mem_cons.2 ⟨⟨hfirst, h⟩, fun b hb => ?_⟩, happart⟩
      exact ⟨(hunder b hb).trans hfirst, not_sibling_of_between (hunder b hb) hfirst⟩

theorem settle_covers : Covers (settle top rest) a ↔ a ∈ top ∨ Covers rest a := by
  induction rest generalizing top with
  | nil => simp [settle]
  | cons left rest ih =>
    rw [settle]
    split_ifs with h
    · rw [ih, mem_parent h, covers_cons]
      tauto
    · rw [covers_cons]

theorem settle_follows : (∀ t ∈ top :: rest, Follows t v) → ∀ t ∈ settle top rest, Follows t v := by
  induction rest generalizing top with
  | nil =>
    intro h t ht
    exact h t ht
  | cons left rest ih =>
    intro h t ht
    rw [settle] at ht
    split_ifs at ht with hs
    · have hleft : Follows left v := h left (by simp)
      have hparent : Follows (left.parent hs.aligned) v := by
        rcases hleft with hlt | ⟨heq, hle⟩
        · exact .inl hlt
        · exact .inr ⟨heq, le_succ_of_le hle⟩
      exact ih (forall_mem_cons.2 ⟨hparent, fun u hu => h u (by simp [hu])⟩) t ht
    · exact h t ht

/-- What a stack has kept of the blocks read, when the blocks of
`pending` are still to come. -/
structure Reading (stack pending : List Block) : Prop where
  apart : stack.Pairwise Apart
  sorted : pending.Pairwise Follows
  follows : ∀ t ∈ stack, ∀ v ∈ pending, Follows t v

/-- **One block read.** The stack stays a stack, and covers what the
block adds. -/
theorem Reading.add (h : Reading stack (v :: rest)) :
    Reading (add v stack) rest ∧ ∀ a, Covers (add v stack) a ↔ Covers stack a ∨ a ∈ v := by
  obtain ⟨hnext, hsorted⟩ := pairwise_cons.1 h.sorted
  have hold : ∀ t ∈ stack, ∀ u ∈ rest, Follows t u :=
    fun t ht u hu => h.follows t ht u (mem_cons_of_mem _ hu)
  cases stack with
  | nil =>
    refine ⟨⟨pairwise_singleton _ _, hsorted, ?_⟩, fun a => by simp [DyadicSet.add]⟩
    intro t ht u hu
    rw [DyadicSet.add, mem_singleton] at ht
    exact ht ▸ hnext u hu
  | cons top under =>
    have htop : Follows top v := h.follows top mem_cons_self v mem_cons_self
    rw [DyadicSet.add]
    split_ifs with hin
    · refine ⟨⟨h.apart, hsorted, hold⟩, fun a => ?_⟩
      have hsub := htop.subset hin a
      tauto
    have hafter : Before top v := before_of_not_mem htop.start_le hin
    have hall : ∀ b ∈ top :: under, Before b v := forall_mem_cons.2
      ⟨hafter, fun b hb => ((pairwise_cons.1 h.apart).1 b hb).before.trans hafter⟩
    refine ⟨⟨settle_apart hall h.apart, hsorted, fun t ht u hu => ?_⟩, fun a => ?_⟩
    · exact settle_follows (forall_mem_cons.2 ⟨hnext u hu, fun s hs => hold s hs u hu⟩) t ht
    · rw [settle_covers]
      tauto

/-- **All blocks read**, from any stack. -/
theorem Reading.all : Reading stack blocks →
    (blocks.foldl (fun s v => DyadicSet.add v s) stack).Pairwise Apart ∧
    ∀ a, Covers (blocks.foldl (fun s v => DyadicSet.add v s) stack) a ↔
      Covers stack a ∨ Covers blocks a := by
  induction blocks generalizing stack with
  | nil =>
    intro h
    exact ⟨h.apart, fun a => by simp⟩
  | cons v rest ih =>
    intro h
    obtain ⟨hstep, hcover⟩ := h.add
    obtain ⟨hapart, hrest⟩ := ih hstep
    refine ⟨hapart, fun a => ?_⟩
    rw [foldl_cons, hrest a, hcover a, covers_cons]
    tauto

section

variable (h : blocks.Pairwise Follows)

include h

theorem reading_nil : Reading [] blocks :=
  ⟨List.Pairwise.nil, h, fun _ ht => absurd ht not_mem_nil⟩

theorem compact_apart : (compact blocks).Pairwise Apart :=
  (reading_nil h).all.1

theorem compact_covers :
    Covers (compact blocks) a ↔ Covers blocks a := by
  rw [compact, (reading_nil h).all.2 a]
  simp

end

/-! ## A canonical form -/

/-- Two blocks of a stack that meet are equal. -/
theorem eq_of_meet (h : xs.Pairwise Apart) {b c : Block} (hb : b ∈ xs) (hc : c ∈ xs)
    (hab : a ∈ b) (hac : a ∈ c) : b = c := by
  have hdown : xs.Pairwise fun x y => x = y ∨ ∀ n ∈ x, n ∉ y :=
    h.imp fun hxy => .inr fun n hx hy => hxy.before.disjoint hy hx
  have hup : xs.Pairwise (flip fun x y => x = y ∨ ∀ n ∈ x, n ∉ y) :=
    h.imp fun hxy => .inr fun n hy hx => hxy.before.disjoint hy hx
  rcases List.Pairwise.forall_of_forall_of_flip (fun x _ => .inl rfl) hdown hup hb hc
    with heq | hdisj
  · exact heq
  · exact absurd hac (hdisj a hab)

/-- No two blocks of a stack are halves of one block. -/
theorem not_sibling (h : xs.Pairwise Apart) {b c : Block} (hb : b ∈ xs) (hc : c ∈ xs) :
    ¬ Sibling b c := by
  have hself : ∀ x ∈ xs, ¬ Sibling x x := by
    intro x _ hs
    have := hs.start
    have := Nat.two_pow_pos x.level
    omega
  have hdown : xs.Pairwise fun x y => ¬ Sibling x y :=
    h.imp fun hxy => not_sibling_of_after hxy.before
  have hup : xs.Pairwise (flip fun x y => ¬ Sibling x y) := h.imp fun hxy => hxy.not_sibling
  exact List.Pairwise.forall_of_forall_of_flip hself hdown hup hb hc

/-- **Every block inside the union is inside one block of the stack.** By
induction on the size: two halves that lie in two different blocks of
the stack would be those blocks, and siblings. -/
theorem inside_one (h : xs.Pairwise Apart) (k : ℕ) :
    ∀ d : Block, d.level = k → (∀ n ∈ d, Covers xs n) → ∃ b ∈ xs, ∀ n ∈ d, n ∈ b := by
  induction k with
  | zero =>
    intro d hlevel hcover
    obtain ⟨b, hb, hin⟩ := hcover _ d.start_mem
    exact ⟨b, hb, subset_of_mem (by omega) d.start_mem hin⟩
  | succ k ih =>
    intro d hlevel hcover
    obtain ⟨b, hb, hlow⟩ := ih (d.lower k hlevel) rfl
      fun n hn => hcover n ((mem_halves hlevel).2 (.inl hn))
    obtain ⟨c, hc, hup⟩ := ih (d.upper k hlevel) rfl
      fun n hn => hcover n ((mem_halves hlevel).2 (.inr hn))
    have hlower := (mem_halves hlevel).2 (.inl (d.lower k hlevel).start_mem)
    have hupper := (mem_halves hlevel).2 (.inr (d.upper k hlevel).start_mem)
    rcases around_half hlevel.symm hlower hlow with hbl | hall
    · rcases around_half hlevel.symm hupper hup with hcu | hall
      · exact absurd (hbl ▸ hcu ▸ halves_sibling hlevel) (not_sibling h hb hc)
      · exact ⟨c, hc, hall⟩
    · exact ⟨b, hb, hall⟩

theorem mem_of_covers (hx : xs.Pairwise Apart) (hy : ys.Pairwise Apart)
    (h : ∀ n, Covers xs n ↔ Covers ys n) {b : Block} (hb : b ∈ xs) : b ∈ ys := by
  obtain ⟨c, hc, hbc⟩ := inside_one hy b.level b rfl fun n hn => (h n).1 ⟨b, hb, hn⟩
  obtain ⟨d, hd, hcd⟩ := inside_one hx c.level c rfl fun n hn => (h n).2 ⟨c, hc, hn⟩
  have hbd : b = d := eq_of_meet hx hb hd b.start_mem (hcd _ (hbc _ b.start_mem))
  have hcb : ∀ n ∈ c, n ∈ b := hbd ▸ hcd
  exact eq_of_subset hbc hcb ▸ hc

/-- **A stack is determined by what it covers.** -/
theorem eq_of_covers (hx : xs.Pairwise Apart) (hy : ys.Pairwise Apart)
    (h : ∀ n, Covers xs n ↔ Covers ys n) : xs = ys := by
  have hdesc : ∀ {l : List Block}, l.Pairwise Apart → l.Pairwise fun u v => v.start < u.start :=
    fun hl => hl.imp fun huv => huv.before.start_lt
  have hnodup : ∀ {l : List Block}, l.Pairwise Apart → l.Nodup :=
    fun hl => (hdesc hl).imp fun huv heq => by subst heq; exact lt_irrefl _ huv
  have hperm : xs.Perm ys := (perm_ext_iff_of_nodup (hnodup hx) (hnodup hy)).2 fun b =>
    ⟨mem_of_covers hx hy h, mem_of_covers hy hx fun n => (h n).symm⟩
  refine hperm.eq_of_pairwise (fun u v _ _ huv hvu => ?_) (hdesc hx) (hdesc hy)
  omega

/-! ## Looking a number up -/

/-- **One candidate is enough.** In a list of blocks that follow one
another, a number is covered exactly when the last block that starts at
or before it holds it. -/
theorem covers_iff_last (h : blocks.Pairwise Before) :
    Covers blocks a ↔
      ∃ b, (blocks.takeWhile fun b => b.start ≤ a).getLast? = some b ∧ a ∈ b := by
  constructor
  · rintro ⟨b, hb, hab⟩
    obtain ⟨front, back, rfl⟩ := append_of_mem hb
    obtain ⟨-, htail, hfront⟩ := pairwise_append.1 h
    have hpass : ∀ c ∈ front, decide (c.start ≤ a) = true := by
      intro c hc
      have := (hfront c hc b mem_cons_self).start_lt
      have := hab.1
      exact decide_eq_true (by omega)
    -- a block after `b` starts past `a`, so the search stops at `b`
    have hstop : back.takeWhile (fun c => c.start ≤ a) = [] := by
      cases back with
      | nil => rfl
      | cons c back =>
        have hbc : Before b c := (pairwise_cons.1 htail).1 c mem_cons_self
        have hlt := hab.2
        unfold Before at hbc
        rw [takeWhile_cons_of_neg (by rw [decide_eq_true_eq]; omega)]
    refine ⟨b, ?_, hab⟩
    have hkeep : (b :: back).takeWhile (fun c => c.start ≤ a) = [b] := by
      rw [takeWhile_cons, if_pos (decide_eq_true hab.1), hstop]
    rw [takeWhile_append_of_pos hpass, hkeep, getLast?_concat]
  · rintro ⟨b, hlast, hab⟩
    exact ⟨b, (takeWhile_subset _) (mem_of_getLast? hlast), hab⟩

end Vole.DyadicSet
