import Mathlib.Data.List.Induction
import Mathlib.Data.List.Nodup
import Mathlib.Data.List.Perm.Subperm
import Mathlib.Logic.Relation
import Mathlib.Order.Bounds.Basic
import Vole.Dns.Model.Answers

/-!
# The CNAME chain of a response

The CNAME answers are a graph on names, and the loop walks from the
question until a name owns none. Each name it leaves owns an answer and
none is visited twice, so 64 iterations reach the end of every chain of
64 answers.
-/

namespace Vole.Dns

open List Relation

/-- A CNAME answer of `a` for `b`. -/
def Link (answers : List DnsRecord) (a b : Bytes) : Prop :=
  ∃ r ∈ answers, r.name = a ∧ r.data = .cname b

/-- The names that CNAME answers lead to. -/
abbrev Reaches (answers : List DnsRecord) : Bytes → Bytes → Prop :=
  ReflTransGen (Link answers)

/-- Some name reachable from the question has two targets, or lies on a cycle. -/
def Broken (answers : List DnsRecord) (question : Bytes) : Prop :=
  ∃ n, Reaches answers question n ∧
    ((∃ b c, Link answers n b ∧ Link answers n c ∧ b ≠ c) ∨ TransGen (Link answers) n n)

/-- The TTLs of the answers with `p`. -/
def Ttls (p : DnsRecord → Prop) (answers : List DnsRecord) : Set ℕ :=
  {ttl | ∃ r ∈ answers, p r ∧ r.ttl = ttl}

/-- The minimum of a set, if it has elements. -/
def Lowest (ttl : Option ℕ) (s : Set ℕ) : Prop :=
  ttl.elim (s = ∅) (IsLeast s)

/-- The address in an answer, if `terminal` owns it and its type is the question's. -/
def addressOf (queryType : QueryType) (terminal : Bytes) (r : DnsRecord) : Option IpAddr :=
  if r.name = terminal then answerAddress queryType r.data else none

/-- A CNAME answer of `current`. -/
def IsLink (current : Bytes) (r : DnsRecord) : Prop :=
  r.name = current ∧ ∃ b, r.data = .cname b

variable {answers : List DnsRecord} {question current : Bytes} {r : DnsRecord}

theorem lowest_union {ttl : Option ℕ} {value : ℕ} {s t : Set ℕ} (hs : Lowest ttl s)
    (ht : IsLeast t value) : Lowest (lower ttl value) (s ∪ t) := by
  cases ttl with
  | none =>
    obtain rfl : s = ∅ := hs
    rwa [Set.empty_union]
  | some least => exact IsLeast.union hs ht

theorem ttls_concat_of {p : DnsRecord → Prop} (hp : p r) :
    Ttls p (answers ++ [r]) = Ttls p answers ∪ {r.ttl} := by
  ext ttl
  simp only [Ttls, mem_append, Set.mem_union, Set.mem_singleton_iff, Set.mem_ofPred_eq]
  grind

theorem ttls_concat_not {p : DnsRecord → Prop} (hp : ¬ p r) :
    Ttls p (answers ++ [r]) = Ttls p answers := by
  ext ttl
  simp only [Ttls, mem_append, Set.mem_ofPred_eq]
  grind

theorem ttls_or (p q : DnsRecord → Prop) :
    Ttls (fun r => p r ∨ q r) answers = Ttls p answers ∪ Ttls q answers := by
  ext ttl
  simp only [Ttls, Set.mem_union, Set.mem_ofPred_eq]
  grind

theorem link_concat {a b : Bytes} :
    Link (answers ++ [r]) a b ↔ Link answers a b ∨ r.name = a ∧ r.data = .cname b := by
  simp only [Link, mem_append, mem_singleton]
  grind

/-! ## The link from a name -/

/-- What the inner loop finds. -/
def Scanned (answers : List DnsRecord) (current : Bytes) :
    Except DnsError (Option (Bytes × ℕ)) → Prop
  | .error error => error = .invalidCnameChain ∧
      ∃ b c, Link answers current b ∧ Link answers current c ∧ b ≠ c
  | .ok link => (∀ c, Link answers current c ↔ link.map (·.1) = some c) ∧
      Lowest (link.map (·.2)) (Ttls (IsLink current) answers)

theorem scanned_step {link : Option (Bytes × ℕ)} (h : Scanned answers current (.ok link)) :
    Scanned (answers ++ [r]) current (linkStep current link r) := by
  obtain ⟨hlink, hlowest⟩ := h
  have hskip (hr : ¬ IsLink current r) : Scanned (answers ++ [r]) current (.ok link) := by
    refine ⟨fun c => ?_, by rwa [ttls_concat_not hr]⟩
    rw [link_concat, ← hlink]
    exact or_iff_left fun h => hr ⟨h.1, c, h.2⟩
  unfold linkStep
  split
  · next hname => exact hskip fun h => hname h.1
  next hname =>
  have hname : r.name = current := not_not.1 hname
  split
  · next candidate hdata =>
    have hnew : Link (answers ++ [r]) current candidate := link_concat.2 (.inr ⟨hname, hdata⟩)
    split
    · next hother =>
      obtain ⟨⟨existing, ttl⟩, rfl, hne⟩ : ∃ l, link = some l ∧ l.1 ≠ candidate := by
        simpa [Option.any_eq_true] using hother
      have hold := (hlink existing).2 rfl
      exact ⟨rfl, existing, candidate, link_concat.2 (.inl hold), hnew, hne⟩
    · next hsame =>
      refine ⟨fun c => ?_, ?_⟩
      · rw [link_concat, hlink]
        cases link <;> grind [lower]
      · rw [ttls_concat_of ⟨hname, candidate, hdata⟩]
        exact lowest_union hlowest isLeast_singleton
  · next hdata => exact hskip fun ⟨_, b, h⟩ => hdata b h

/-- **The inner loop finds the only target, or two.** -/
theorem scanned (answers : List DnsRecord) (current : Bytes) :
    Scanned answers current (answers.foldlM (linkStep current) none) := by
  induction answers using reverseRecOn with
  | nil => exact ⟨by simp [Link], by simp [Lowest, Ttls]⟩
  | append_singleton answers r ih =>
    rw [foldlM_append]
    cases h : answers.foldlM (linkStep current) none with
    | error error =>
      rw [h] at ih
      obtain ⟨herror, b, c, hb, hc, hne⟩ := ih
      exact ⟨herror, b, c, link_concat.2 (.inl hb), link_concat.2 (.inl hc), hne⟩
    | ok link =>
      rw [h] at ih
      change Scanned _ current (linkStep current link r >>= pure)
      rw [bind_pure]
      exact scanned_step ih

/-! ## The walk -/

/-- The walk has come from the question to `current` through `visited`. -/
structure Followed (answers : List DnsRecord) (question current : Bytes) (visited : List Bytes)
    (ttl : Option ℕ) : Prop where
  nodup : visited.Nodup
  first : question ∈ visited
  last : current ∈ visited
  reached : ∀ n ∈ visited, Reaches answers question n
  leads : ∀ n ∈ visited, Reaches answers n current
  next : ∀ n ∈ visited, n ≠ current → ∃ b ∈ visited, ∀ c, Link answers n c ↔ c = b
  ttl : Lowest ttl (Ttls (fun r => ∃ n ∈ visited, n ≠ current ∧ IsLink n r) answers)

theorem followed_start (answers : List DnsRecord) (question : Bytes) :
    Followed answers question question [question] none where
  nodup := nodup_singleton _
  first := mem_singleton_self _
  last := mem_singleton_self _
  reached n hn := by rw [mem_singleton.1 hn]
  leads n hn := by rw [mem_singleton.1 hn]
  next n hn hne := absurd (mem_singleton.1 hn) hne
  ttl := by simp [Lowest, Ttls]

variable {visited : List Bytes} {ttl : Option ℕ}

theorem Followed.step (h : Followed answers question current visited ttl) {next : Bytes}
    {linkTtl : ℕ} (hlink : Scanned answers current (.ok (some (next, linkTtl))))
    (hnew : next ∉ visited) :
    Followed answers question next (visited ++ [next]) (lower ttl linkTtl) := by
  have hnext : Link answers current next := (hlink.1 next).2 rfl
  have hne (n) (hn : n ∈ visited) : n ≠ next := fun heq => hnew (heq ▸ hn)
  have hmem (n) : n ∈ visited ++ [next] ↔ n ∈ visited ∨ n = next := by simp
  refine ⟨?_, (hmem _).2 (.inl h.first), (hmem _).2 (.inr rfl), fun n hn => ?_, fun n hn => ?_,
    fun n hn hlast => ?_, ?_⟩
  · exact nodup_append.2 ⟨h.nodup, nodup_singleton _, by simpa using hne⟩
  · rcases (hmem n).1 hn with hn | rfl
    · exact h.reached n hn
    · exact (h.reached current h.last).tail hnext
  · rcases (hmem n).1 hn with hn | rfl
    · exact (h.leads n hn).tail hnext
    · exact .refl
  · have hn := ((hmem n).1 hn).resolve_right hlast
    by_cases heq : n = current
    · subst heq
      refine ⟨next, (hmem _).2 (.inr rfl), fun c => (hlink.1 c).trans ?_⟩
      exact Option.some_inj.trans eq_comm
    · obtain ⟨b, hb, hunique⟩ := h.next n hn heq
      exact ⟨b, (hmem _).2 (.inl hb), hunique⟩
  · have hsplit : Ttls (fun r => ∃ n ∈ visited ++ [next], n ≠ next ∧ IsLink n r) answers =
        Ttls (fun r => ∃ n ∈ visited, n ≠ current ∧ IsLink n r) answers ∪
          Ttls (IsLink current) answers := by
      ext ttl
      have hlast := h.last
      simp only [Ttls, Set.mem_union, Set.mem_ofPred_eq]
      grind
    rw [hsplit]
    exact lowest_union h.ttl hlink.2

/-- A cycle is never left, so a walk that ends has met none. -/
theorem acyclic {α : Type} {R : α → α → Prop} {a b : α} (hab : ReflTransGen R a b)
    (hunique : ∀ {n c d}, ReflTransGen R a n → R n c → R n d → c = d) (hend : ∀ c, ¬ R b c) :
    ¬ TransGen R a a := by
  intro hcycle
  have hkept : TransGen R b b := by
    clear hend
    induction hab with
    | refl => exact hcycle
    | tail hn hstep ih =>
      obtain ⟨d, hd, hback⟩ := TransGen.head'_iff.1 ih
      obtain rfl := hunique hn hd hstep
      exact TransGen.tail' hback hstep
  obtain ⟨c, hc, _⟩ := TransGen.head'_iff.1 hkept
  exact hend c hc

/-- How the walk ends. -/
def Walked (answers : List DnsRecord) (question : Bytes) : Except DnsError (Bytes × Option ℕ) → Prop
  | .error error => error = .invalidCnameChain ∧ Broken answers question
  | .ok (terminal, ttl) => (∃ visited, Followed answers question terminal visited ttl) ∧
      ∀ b, ¬ Link answers terminal b

/-- Every name that was left owns an answer of its own. -/
theorem Followed.length_le (h : Followed answers question current visited ttl) {next : Bytes}
    (hlink : Link answers current next) : visited.length ≤ answers.length := by
  have hsub : visited ⊆ answers.map (·.name) := by
    intro n hn
    obtain ⟨b, hb⟩ : ∃ b, Link answers n b := by
      by_cases heq : n = current
      · exact ⟨next, heq ▸ hlink⟩
      · obtain ⟨b, -, hunique⟩ := h.next n hn heq
        exact ⟨b, (hunique b).2 rfl⟩
    obtain ⟨r, hr, rfl, -⟩ := hb
    exact mem_map_of_mem hr
  simpa using (h.nodup.subperm hsub).length_le

/-- **The walk is never cut short.** -/
theorem walked (left : ℕ) (hleft : answers.length < visited.length + left)
    (h : Followed answers question current visited ttl) :
    Walked answers question (follow answers left current visited ttl) := by
  -- The names visited and the iterations left are together one more than the answers may be.
  induction left generalizing current visited ttl with
  | zero =>
    refine ⟨⟨visited, h⟩, fun next hlink => ?_⟩
    have := h.length_le hlink
    omega
  | succ left ih =>
    have hscan := scanned answers current
    unfold follow
    split
    · next error herror =>
      rw [herror] at hscan
      exact ⟨hscan.1, current, h.reached current h.last, .inl hscan.2⟩
    · next hnone =>
      rw [hnone] at hscan
      exact ⟨⟨visited, h⟩, fun b hb => nomatch (hscan.1 b).1 hb⟩
    next next linkTtl hsome =>
    rw [hsome] at hscan
    split
    · next hold =>
      have hnext : Link answers current next := (hscan.1 next).2 rfl
      have hcycle := TransGen.tail'_iff.2 ⟨current, h.leads next hold, hnext⟩
      exact ⟨rfl, next, h.reached next hold, .inr hcycle⟩
    · next hnew =>
      refine ih ?_ (h.step hscan hnew)
      rw [length_append, length_singleton]
      omega

variable (h : Followed answers question current visited ttl)
  (hend : ∀ b, ¬ Link answers current b)
include h hend

/-- From a walk that has ended nothing else can be reached, and no cycle. -/
theorem Followed.reachable {n : Bytes} (hn : Reaches answers question n) : n ∈ visited := by
  induction hn with
  | refl => exact h.first
  | @tail m b _ hb ih =>
    obtain ⟨c, hc, hunique⟩ := h.next m ih fun heq => hend b (heq ▸ hb)
    rwa [(hunique b).1 hb]

theorem Followed.not_broken : ¬ Broken answers question := by
  have hunique {n c d} (hn : Reaches answers question n) (hc : Link answers n c)
      (hd : Link answers n d) : c = d := by
    obtain ⟨b, -, hb⟩ := h.next n (h.reachable hend hn) fun heq => hend c (heq ▸ hc)
    rw [(hb c).1 hc, (hb d).1 hd]
  rintro ⟨n, hn, ⟨c, d, hc, hd, hne⟩ | hcycle⟩
  · exact hne (hunique hn hc hd)
  · have hleads := h.leads n (h.reachable hend hn)
    exact acyclic hleads (fun hm => hunique (hn.trans hm)) hend hcycle

theorem Followed.lowest :
    Lowest ttl (Ttls (fun r => ∃ n, Reaches answers question n ∧ IsLink n r) answers) := by
  convert h.ttl using 1
  ext ttl
  have hlink {n r} (hr : r ∈ answers) (hn : IsLink n r) : n ≠ current := by
    rintro rfl
    obtain ⟨b, hb⟩ := hn.2
    exact hend b ⟨r, hr, hn.1, hb⟩
  have hmem {n} : Reaches answers question n ↔ n ∈ visited :=
    ⟨h.reachable hend, h.reached n⟩
  simp only [Ttls, hmem, Set.mem_ofPred_eq]
  grind

omit h hend

/-! ## The addresses -/

theorem take_eraseDups_concat {α : Type} [DecidableEq α] (n : ℕ) (xs : List α) (a : α) :
    (xs ++ [a]).eraseDups.take n =
      if (xs.eraseDups.take n).length < n ∧ a ∉ xs.eraseDups.take n then
        xs.eraseDups.take n ++ [a]
      else xs.eraseDups.take n := by
  rw [eraseDups_append]
  by_cases hshort : xs.eraseDups.length < n
  · rw [take_of_length_le hshort.le]
    by_cases hmem : a ∈ xs
    · simp [removeAll, hmem, take_of_length_le hshort.le]
    · have hfits : (xs.eraseDups ++ [a]).length ≤ n := by
        rw [length_append, length_singleton]
        omega
      simpa [removeAll, hmem, hshort, eraseDups_cons] using take_of_length_le hfits
  · rw [take_append_of_le_length (by omega), if_neg]
    rw [length_take]
    omega

/-- **The loop over the addresses** keeps the first ones and the least TTL of all. -/
theorem collected (answers : List DnsRecord) (queryType : QueryType) (current : Bytes)
    {s : Set ℕ} (hs : Lowest ttl s) :
    let set := answers.foldl (collectStep queryType current) ⟨[], ttl⟩
    set.addresses = (answers.filterMap (addressOf queryType current)).eraseDups.take maxAnswers ∧
      Lowest set.ttl (s ∪ Ttls (addressOf queryType current · ≠ none) answers) := by
  induction answers using reverseRecOn with
  | nil => exact ⟨rfl, by simpa [Ttls] using hs⟩
  | append_singleton answers r ih =>
    rw [foldl_append, filterMap_append]
    generalize answers.foldl (collectStep queryType current) ⟨[], ttl⟩ = set at ih ⊢
    obtain ⟨haddresses, hlowest⟩ := ih
    cases hr : addressOf queryType current r with
    | none =>
      have hskip : collectStep queryType current set r = set := by
        grind [collectStep, addressOf]
      rw [ttls_concat_not (by simp [hr])]
      simpa [hskip, hr] using ⟨haddresses, hlowest⟩
    | some address =>
      have hstep : collectStep queryType current set r =
          ⟨if set.addresses.length < maxAnswers ∧ address ∉ set.addresses then
            set.addresses ++ [address] else set.addresses, lower set.ttl r.ttl⟩ := by
        grind [collectStep, addressOf]
      rw [ttls_concat_of (by simp [hr]), ← Set.union_assoc]
      refine ⟨?_, ?_⟩
      · simp [hstep, hr, take_eraseDups_concat, haddresses]
      · simpa [hstep] using lowest_union hlowest isLeast_singleton

/-- **The answers of a question.** The search fails exactly on a chain that forks or
comes back. Every other chain is followed to its end, and from there come the addresses. -/
theorem matching_exact (response : DnsMessage) (hcount : response.answerCount ≤ maxResponseRecords)
    (hlen : response.answers.length ≤ maxResponseRecords) :
    (matchingAnswerSet response = .error .invalidCnameChain ↔
      Broken response.answers response.question.name) ∧
    (¬ Broken response.answers response.question.name → ∃ terminal ttl,
      Reaches response.answers response.question.name terminal ∧
      (∀ b, ¬ Link response.answers terminal b) ∧
      matchingAnswerSet response = .ok ⟨(response.answers.filterMap
        (addressOf response.question.queryType terminal)).eraseDups.take maxAnswers, ttl⟩ ∧
      Lowest ttl (Ttls (fun r =>
        (∃ n, Reaches response.answers response.question.name n ∧ IsLink n r) ∨
          addressOf response.question.queryType terminal r ≠ none) response.answers)) := by
  have hwalk := walked maxResponseRecords (by rw [length_singleton]; omega)
    (followed_start response.answers response.question.name)
  have hfits : ¬ (response.answerCount > maxResponseRecords ∨
      response.answers.length > maxResponseRecords) := by omega
  unfold matchingAnswerSet
  rw [if_neg hfits]
  split
  · next error herror =>
    rw [herror] at hwalk
    obtain ⟨rfl, hbroken⟩ := hwalk
    exact ⟨iff_of_true rfl hbroken, absurd hbroken⟩
  · next terminal ttl hok =>
    rw [hok] at hwalk
    obtain ⟨⟨visited, h⟩, hend⟩ := hwalk
    obtain ⟨haddresses, hlowest⟩ :=
      collected response.answers response.question.queryType terminal (h.lowest hend)
    refine ⟨iff_of_false nofun (h.not_broken hend), fun _ => ?_⟩
    exact ⟨terminal, _, h.reached terminal h.last, hend, by rw [← haddresses],
      by rwa [ttls_or]⟩

/-- A link to a name with one address, and an address of another name. -/
def sampleResponse : DnsMessage where
  question := ⟨[97], .a⟩
  answers := [⟨[98], 60, .a 1⟩, ⟨[97], 300, .cname [98]⟩, ⟨[97], 5, .a 2⟩]
  answerCount := 3

theorem matching_exact_sample : ¬ Broken sampleResponse.answers [97] ∧
    matchingAnswerSet sampleResponse = .ok ⟨[.v4 1], some 60⟩ := by
  refine ⟨fun h => ?_, by decide⟩
  exact absurd ((matching_exact sampleResponse (by decide) (by decide)).1.2 h) (by decide)

end Vole.Dns
