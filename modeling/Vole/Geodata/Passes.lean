import Mathlib.Data.List.Lemmas
import Vole.Geodata.Model.Cidr
import Vole.Geodata.Model.Site

/-!
# The two passes over a GeoData file

The second pass decodes what the first pass skipped, with code of its
own. Every reading below is given one specification: it moves the
position forward and stays within the message it is called for. The
second pass over a category then follows the first one field by field.
-/

namespace Vole.Geodata

open Cursor List Nat

/-- The reports of a second pass that found another category than the
first one did. -/
def Detail.disagrees : Detail → Bool
  | containsCodeTwice | codeChanged | recordCountChanged | missingCode => true
  | _ => false

/-- Every other error. -/
def Agreeing : GeoDataError → Prop
  | .malformed _ detail => detail.disagrees = false
  | _ => True

variable {content : Bytes} {kind : GeoDataKind} {lo hi p stop : ℕ}

/-! ## Framing -/

theorem checkedEnd_meets {start len : ℕ} :
    Meets content lo hi (lift (checkedEnd kind start len stop)) p
      (fun last q => q = p ∧ last = start + len ∧ last ≤ stop ∧ last < 2 ^ 64) Agreeing := by
  unfold checkedEnd
  split_ifs with h₁ h₂
  · exact .fail rfl
  · exact .fail rfl
  · exact .pure ⟨rfl, rfl, by omega, by omega⟩

theorem requireWire_meets {actual expected : ℕ} {field : String} :
    Meets content lo hi (requireWire kind actual expected field) p
      (fun _ q => q = p ∧ actual = expected) Agreeing := by
  unfold requireWire
  split_ifs with h
  · exact .fail rfl
  · exact .pure ⟨rfl, not_not.1 h⟩

theorem requireWire_returns {actual expected q : ℕ} {field : String} {u : Unit}
    (h : Returns content (requireWire kind actual expected field) p u q) :
    q = p ∧ actual = expected :=
  Meets.of_returns (requireWire_meets : Meets content 0 0 _ p _ _) h

section Framing

variable (hlo : lo ≤ p) (hhi : stop ≤ hi)

include hhi in
theorem readVarintFrom_meets : ∀ left value p, lo ≤ p →
    Meets content lo hi (readVarintFrom kind stop left value) p (fun _ q => p < q ∧ q ≤ stop)
      Agreeing := by
  intro left
  induction left with
  | zero => exact fun value p _ => .fail rfl
  | succ left ih =>
    intro value p hlo
    refine .bind (.position ?_)
    split_ifs with hstop
    · exact .fail rfl
    refine .bind (.readExact hlo (by omega) trivial fun bytes _ => ?_)
    dsimp only
    split
    · exact .fail rfl
    split
    · exact .pure ⟨by omega, by omega⟩
    · exact (ih _ _ (by omega)).mono le_rfl le_rfl (fun _ q _ h => ⟨by omega, h.2⟩) fun _ h => h

include hlo hhi

theorem readVarint_meets :
    Meets content lo hi (readVarint kind stop) p (fun _ q => p < q ∧ q ≤ stop) Agreeing :=
  readVarintFrom_meets hhi 10 0 p hlo

theorem readKey_meets :
    Meets content lo hi (readKey kind stop) p (fun _ q => p < q ∧ q ≤ stop) Agreeing := by
  refine (readVarint_meets hlo hhi).andThen fun key q hq => ?_
  split_ifs
  · exact .fail rfl
  · exact .pure hq

theorem readLength_meets :
    Meets content lo hi (readLength kind stop) p (fun len q => p < q ∧ q + len ≤ stop)
      Agreeing := by
  refine (readVarint_meets hlo hhi).andThen fun len q hq => .bind (.position ?_)
  refine checkedEnd_meets.andThen fun last r hr => .pure ?_
  omega

theorem readBytes_meets {len : ℕ} :
    Meets content lo hi (readBytes kind stop len) p (fun _ q => q = p + len ∧ q ≤ stop)
      Agreeing := by
  refine .bind (.position (checkedEnd_meets.andThen fun last r hr => ?_))
  obtain ⟨rfl, rfl, hlast, -⟩ := hr
  exact .readExact hlo (by omega) trivial fun bytes _ => ⟨rfl, hlast⟩

omit hlo hhi in
theorem skipBytes_meets {len : ℕ} :
    Meets content lo hi (skipBytes kind stop len) p (fun _ q => q = p + len ∧ q ≤ stop)
      Agreeing := by
  refine .bind (.position (checkedEnd_meets.andThen fun last r hr => .seek ?_))
  omega

theorem skipFieldPayload_meets {wire : ℕ} :
    Meets content lo hi (skipFieldPayload kind stop wire) p (fun _ q => p ≤ q) Agreeing := by
  unfold skipFieldPayload
  split_ifs
  · exact (readVarint_meets hlo hhi).andThen fun _ q hq => .pure (by omega)
  · exact skipBytes_meets.mono le_rfl le_rfl (fun _ q _ hq => by omega) fun _ h => h
  · refine (readLength_meets hlo hhi).andThen fun len q hq => ?_
    exact skipBytes_meets.mono le_rfl le_rfl (fun _ r _ hr => by omega) fun _ h => h
  · exact skipBytes_meets.mono le_rfl le_rfl (fun _ q _ hq => by omega) fun _ h => h
  · exact .fail rfl

theorem readCode_meets :
    Meets content lo hi (readCode kind stop) p (fun _ q => p < q) Agreeing := by
  refine (readLength_meets hlo hhi).andThen fun len q hq => ?_
  split
  · exact .fail trivial
  refine (readBytes_meets (by omega) hhi).andThen fun raw r hr => ?_
  refine .lift (fun _ _ => by omega) fun e he => ?_
  unfold Code.parse at he
  split at he
  · cases he
    trivial
  · split_ifs at he
    cases he
    trivial

/-- An unknown field, or one whose payload is not looked at. -/
theorem skipped_meets {α : Type} {a : α} {wire start : ℕ} (hstart : start < p) :
    Meets content lo hi (do skipFieldPayload kind stop wire; pure a) p
      (fun _ q => start < q) Agreeing :=
  (skipFieldPayload_meets hlo hhi).andThen fun _ q hq => .pure (by omega)

end Framing

/-- A loop over the fields of a message ends, and reads the message. -/
theorem fields_meets {β : Type} {body : β → Reading β} {b : β} {I : β → Prop} (hlo : lo ≤ p)
    (hbody : ∀ b p, lo ≤ p → I b →
      Meets content lo hi (body b) p (fun b' q => p < q ∧ I b') Agreeing) (hb : I b) :
    Meets content lo hi (loop stop body b) p (fun b' _ => I b') Agreeing := by
  refine (Meets.loop (I := fun b p => lo ≤ p ∧ I b) (fun b p _ h => ?_) ⟨hlo, hb⟩).mono le_rfl
    le_rfl (fun _ _ _ h => h.1.2) fun _ h => h
  exact (hbody b p h.1 h.2).mono le_rfl le_rfl (fun _ q _ hq => ⟨⟨by omega, hq.2⟩, hq.1⟩) fun _ h => h

/-! ## The records of a GeoIP category -/

variable {code : Code}

theorem pushCidr_agreeing {fields : CidrFields} {families : Families}
    {e : GeoDataError} (h : pushCidr code fields families = .error e) : Agreeing e := by
  unfold pushCidr at h
  split at h
  · cases h
    trivial
  · split_ifs at h <;> (cases h; trivial)

theorem cidrField_meets {fields : CidrFields} (hlo : lo ≤ p) (hhi : stop ≤ hi) :
    Meets content lo hi (cidrField code stop fields) p (fun _ q => p < q ∧ True) Agreeing := by
  refine (readKey_meets hlo hhi).andThen fun key q hq => ?_
  simp only [and_true]
  split
  · refine requireWire_meets.andThen fun _ r hr => ?_
    split
    · exact .fail trivial
    · refine (readLength_meets (by omega) hhi).andThen fun len s hs => ?_
      split
      · exact .fail trivial
      · exact (readBytes_meets (by omega) hhi).andThen fun ip t ht => .pure (by omega)
  split
  · refine requireWire_meets.andThen fun _ r hr => ?_
    split
    · exact .fail trivial
    · exact (readVarint_meets (by omega) hhi).andThen fun _ s hs => .pure (by omega)
  · exact skipped_meets (by omega) hhi hq.1

theorem parseCidrRecord_meets {families : Families} (hlo : lo ≤ p) (hhi : stop ≤ hi) :
    Meets content lo hi (parseCidrRecord stop code families) p (fun _ _ => True) Agreeing :=
  (fields_meets (I := fun _ => True) hlo (fun _ _ h _ => cidrField_meets h hhi) trivial).andThen
    fun _ _ _ => .lift (fun _ _ => trivial) fun _ => pushCidr_agreeing

/-! ## The records of a GeoSite category -/

section Site

variable (hlo : lo ≤ p) (hhi : stop ≤ hi)

include hlo hhi

theorem validateUtf8Bytes_meets {len : ℕ} :
    Meets content lo hi (validateUtf8Bytes kind len stop) p
      (fun _ q => p ≤ q ∧ p + len ≤ stop) Agreeing := by
  refine .bind (.position (checkedEnd_meets.andThen fun last q hlast => ?_))
  obtain ⟨rfl, rfl, hlast, -⟩ := hlast
  refine (Meets.loop (I := fun _ r => q ≤ r) (fun scan r hr hI => ?_) (le_refl q)).andThen
    fun scan r hr => ?_
  · refine .bind (.position (.bind (.readExact (by omega) (by omega) trivial fun bytes _ => ?_)))
    split
    · exact .fail rfl
    · exact .pure ⟨by omega, by omega⟩
  · split_ifs
    · exact .fail rfl
    · exact .pure ⟨hr.1, hlast⟩

omit hlo hhi in
theorem readScratch_meets {offset len : ℕ} (hlo : lo ≤ offset) (hhi : offset + len ≤ hi) :
    Meets content lo hi (readScratch kind offset len) p (fun _ _ => True) Agreeing := by
  refine .bind (.seek ?_)
  split_ifs
  · exact .fail rfl
  · exact (readBytes_meets hlo hhi).mono le_rfl le_rfl (fun _ _ _ _ => trivial) fun _ h => h

/-- A span that was noted lies in the message. -/
def Inside (lo hi : ℕ) (span : Option (ℕ × ℕ)) : Prop :=
  ∀ offset len, span = some (offset, len) → lo ≤ offset ∧ offset + len ≤ hi

theorem attributeField_meets {key : Option (ℕ × ℕ)} (hkey : Inside lo hi key) :
    Meets content lo hi (attributeField stop key) p (fun key q => p < q ∧ Inside lo hi key)
      Agreeing := by
  refine (readKey_meets hlo hhi).andThen fun field q hq => ?_
  split
  · refine requireWire_meets.andThen fun _ r hr => ?_
    refine (readLength_meets (by omega) hhi).andThen fun len s hs => .bind (.position ?_)
    refine (validateUtf8Bytes_meets (by omega) hhi).andThen fun _ t ht => .pure ⟨by omega, ?_⟩
    rintro _ _ ⟨⟩
    omega
  split
  · refine requireWire_meets.andThen fun _ r hr => ?_
    exact (readVarint_meets (by omega) hhi).andThen fun _ s hs => .pure ⟨by omega, hkey⟩
  · exact (skipFieldPayload_meets (by omega) hhi).andThen fun _ r hr => .pure ⟨by omega, hkey⟩

theorem readAttribute_meets :
    Meets content lo hi (readAttribute stop) p (fun key _ => Inside lo hi key) Agreeing :=
  fields_meets hlo (fun _ _ h hkey => attributeField_meets h hhi hkey) (by rintro _ _ ⟨⟩)

theorem scanAttributeField_meets {keys : List Bytes} :
    Meets content lo hi (scanAttributeField stop keys) p (fun _ q => p < q ∧ True) Agreeing := by
  refine (readKey_meets hlo hhi).andThen fun field q hq => ?_
  simp only [and_true]
  split
  · exact skipped_meets (by omega) hhi hq.1
  refine requireWire_meets.andThen fun _ r hr => ?_
  refine (readLength_meets (by omega) hhi).andThen fun len s hs => .bind (.position ?_)
  refine checkedEnd_meets.andThen fun last t ht => ?_
  refine (readAttribute_meets (by omega) (by omega)).andThen fun range u hrange => ?_
  split
  · exact .bind (.seek (.pure (by omega)))
  · obtain ⟨hfrom, hto⟩ := hrange _ _ rfl
    exact (readScratch_meets hfrom hto).andThen fun _ _ _ => .bind (.seek (.pure (by omega)))

theorem domainField_meets {code : Code} {fields : DomainFields}
    (hvalue : Inside lo hi fields.value) :
    Meets content lo hi (domainField code stop fields) p
      (fun fields q => p < q ∧ Inside lo hi fields.value) Agreeing := by
  refine (readKey_meets hlo hhi).andThen fun key q hq => ?_
  split
  · refine requireWire_meets.andThen fun _ r hr => ?_
    split
    · exact .fail trivial
    · exact (readVarint_meets (by omega) hhi).andThen fun _ s hs => .pure ⟨by omega, hvalue⟩
  split
  · refine requireWire_meets.andThen fun _ r hr => ?_
    split
    · exact .fail trivial
    · refine (readLength_meets (by omega) hhi).andThen fun len s hs => .bind (.position ?_)
      refine checkedEnd_meets.andThen fun last t ht => .bind (.seek (.pure ⟨by omega, ?_⟩))
      rintro _ _ ⟨⟩
      omega
  split
  · refine requireWire_meets.andThen fun _ r hr => ?_
    refine (readLength_meets (by omega) hhi).andThen fun len s hs => .bind (.position ?_)
    refine checkedEnd_meets.andThen fun last t ht => ?_
    refine (readAttribute_meets (by omega) (by omega)).andThen fun range u hrange => ?_
    exact .bind (.seek (.pure ⟨by omega, hvalue⟩))
  · exact (skipFieldPayload_meets (by omega) hhi).andThen fun _ r hr => .pure ⟨by omega, hvalue⟩

theorem readDomainRecord_meets {code : Code} :
    Meets content lo hi (readDomainRecord stop code) p (fun _ _ => True) Agreeing := by
  refine (fields_meets (I := fun fields => Inside lo hi fields.value) hlo
    (fun _ _ h hvalue => domainField_meets h hhi hvalue) (by rintro _ _ ⟨⟩)).andThen
    fun fields q hvalue => ?_
  split
  · exact .fail trivial
  · rename_i offset len hsome
    obtain ⟨hfrom, hto⟩ := hvalue offset len hsome
    exact (readScratch_meets hfrom hto).andThen fun _ _ _ => .pure trivial

end Site

variable {ρ : Type} {libraries : Libraries ρ}

theorem add_agreeing {decoded : Decoded} {keys : List Bytes} {domainType : ℕ}
    {raw : Bytes} {e : GeoDataError}
    (h : decoded.add libraries code keys domainType raw = .error e) : Agreeing e := by
  unfold Decoded.add at h
  split at h
  · rename_i e' happend
    cases h
    unfold appendDomain appendSiteValue at happend
    repeat' split at happend
    all_goals first | cases happend; done | (cases happend; trivial)
  · cases h

theorem compileRegexSet_agreeing {bytes : Bytes} : ∀ {ranges : List (ℕ × ℕ)}
    {e : GeoDataError}, compileRegexSet libraries code bytes ranges = .error e → Agreeing e := by
  intro ranges
  induction ranges with
  | nil => rintro e ⟨⟩
  | cons range rest ih =>
    intro e h
    unfold compileRegexSet at h
    split at h
    · cases h
      trivial
    · split at h
      · rename_i hrest
        cases h
        exact ih hrest
      · cases h

theorem siteRecord_meets {selectors : List Bytes} {decoded : Decoded} (hlo : lo ≤ p)
    (hhi : stop ≤ hi) :
    Meets content lo hi (siteRecord libraries selectors code stop decoded) p (fun _ _ => True)
      Agreeing := by
  have hkeys : Meets content lo hi (recordKeys stop decoded.filters) p (fun _ q => q = p)
      Agreeing := by
    unfold recordKeys
    split
    · exact .pure rfl
    · refine .bind (.position ?_)
      refine (fields_meets (I := fun _ => True) hlo (fun _ _ h _ => scanAttributeField_meets h hhi)
        trivial).andThen fun keys q _ => ?_
      exact .bind (.seek (.pure rfl))
  refine hkeys.andThen fun keys q hq => ?_
  subst hq
  split
  · refine (readDomainRecord_meets hlo hhi).andThen fun record r _ => ?_
    exact .lift (fun _ _ => trivial) fun _ => add_agreeing
  · exact .pure trivial

/-! ## The first pass -/

theorem scanField_meets {header : Header} (hlo : lo ≤ p) (hhi : stop ≤ hi) :
    Meets content lo hi (scanField kind stop header) p (fun _ q => p < q ∧ True) Agreeing := by
  refine (readKey_meets hlo hhi).andThen fun key q hq => ?_
  simp only [and_true]
  split
  · refine requireWire_meets.andThen fun _ r hr => ?_
    split
    · exact .fail rfl
    · exact (readCode_meets (by omega) hhi).andThen fun _ s hs => .pure (by omega)
  split
  · refine requireWire_meets.andThen fun _ r hr => ?_
    refine (skipFieldPayload_meets (by omega) hhi).andThen fun _ s hs => ?_
    split
    · exact .fail rfl
    · exact .pure (by omega)
  split
  · refine requireWire_meets.andThen fun _ r hr => ?_
    exact (readVarint_meets (by omega) hhi).andThen fun _ s hs => .pure (by omega)
  · exact skipped_meets (by omega) hhi hq.1

/-- What the first pass knows of an entry of its index: it scanned the
header to its end. -/
def Scanned (content : Bytes) (kind : GeoDataKind) (entry : SelectedRange) : Prop :=
  entry.offset + entry.len < 2 ^ 64 ∧
    ∃ q, Returns content (loop (entry.offset + entry.len)
      (scanField kind (entry.offset + entry.len)) ⟨none, 0⟩) entry.offset
      ⟨some entry.code, entry.recordCount⟩ q

theorem indexEntry_meets {fileLen : ℕ} {index : List SelectedRange}
    (hindex : ∀ entry ∈ index, Scanned content kind entry) :
    Meets content 0 fileLen (indexEntry kind fileLen index) p
      (fun index q => p < q ∧ ∀ entry ∈ index, Scanned content kind entry) Agreeing := by
  refine (readKey_meets (zero_le p) le_rfl).andThen fun key q hq => ?_
  split_ifs
  · exact .fail rfl
  refine (readLength_meets (zero_le q) le_rfl).andThen fun len r hr => .bind (.position ?_)
  refine checkedEnd_meets.andThen fun last s hs => ?_
  obtain ⟨rfl, rfl, hlast, hfits⟩ := hs
  refine .bind (.bind ?_)
  refine (fields_meets (I := fun _ => True) (zero_le s)
    (fun _ _ h _ => scanField_meets h hlast) trivial).mono le_rfl le_rfl
    (fun header t hscan _ => ?_) fun _ h => h
  obtain ⟨_ | code, count⟩ := header
  · exact .fail rfl
  · refine .pure (.bind (.seek (.pure ⟨by omega, forall_mem_append.2 ⟨hindex, ?_⟩⟩)))
    exact forall_mem_singleton.2 ⟨hfits, t, hscan⟩

theorem selectRanges_subset {index : List SelectedRange} : ∀ {requested : List Code}
    {ranges : List SelectedRange}, selectRanges kind index requested = .ok ranges →
    ranges ⊆ index := by
  intro requested
  induction requested with
  | nil => rintro ranges ⟨⟩ range hrange; cases hrange
  | cons code rest ih =>
    intro ranges h
    unfold selectRanges at h
    split at h
    · cases h
    rename_i entry hfind
    split at h
    · cases h
    · rename_i selected hselected
      cases h
      exact cons_subset.2 ⟨mem_of_find?_eq_some hfind, ih hselected⟩

theorem selectCodes_subset {requested : List Code} {index ranges : List SelectedRange}
    (h : selectCodes kind requested index = .ok ranges) : ranges ⊆ index := by
  unfold selectCodes at h
  split at h
  · cases h
  · exact fun range hrange => mem_mergeSort.1 (selectRanges_subset h hrange)

/-- The first pass ends, and has scanned what it selects. -/
theorem indexSelected_meets {fileLen : ℕ} {requested : List Code} :
    Meets content 0 fileLen (indexSelected kind fileLen requested) p
      (fun ranges _ => ∀ range ∈ ranges, Scanned content kind range) fun _ => True := by
  refine .bind (.seek (.bind ?_))
  refine (fields_meets (I := fun index => ∀ entry ∈ index, Scanned content kind entry) le_rfl
    (fun _ _ _ h => indexEntry_meets h) (by rintro _ ⟨⟩)).mono le_rfl le_rfl
    (fun index q _ hindex => ?_) fun _ _ => trivial
  exact .lift (fun ranges h range hrange => hindex range (selectCodes_subset h hrange))
    fun _ _ => trivial

/-! ## The second pass follows -/

/-- A header on the way to the one of a range. -/
def Before (range : SelectedRange) (header : Header) : Prop :=
  (∀ code, header.code = some code → code = range.code) ∧ header.recordCount ≤ range.recordCount

/-- The second pass has seen what the first one had. -/
def Tracks (range : SelectedRange) (header : Header) (seenCode : Bool) (remaining : ℕ) : Prop :=
  seenCode = header.code.isSome ∧ header.recordCount + remaining = range.recordCount

/-- The fields that neither pass counts, in the first one. -/
def scanRest (kind : GeoDataKind) (stop : ℕ) (header : Header) (key : Key) : Reading Header :=
  if key.field = 3 ∧ kind = .geoIp then do
    requireWire kind key.wire 0 "reverse_match"
    let _ ← readVarint kind stop
    pure header
  else do
    skipFieldPayload kind stop key.wire
    pure header

/-- One field of a category in the second pass, of either kind: the code,
a record that is decoded by `record`, or another field. -/
def walkField {σ τ : Type} (kind : GeoDataKind) (codeName recordName : String)
    (range : SelectedRange) (stop : ℕ) (seen : Bool) (remaining : ℕ) (onCode : σ)
    (record : ℕ → Reading τ) (onRecord : τ → σ) (other : Key → Reading σ) : Reading σ := do
  let key ← readKey kind stop
  if key.field = 1 then do
    requireWire kind key.wire 2 codeName
    if seen then malformed kind .containsCodeTwice
    else do
      let code ← readCode kind stop
      if code ≠ range.code then malformed kind .codeChanged else pure onCode
  else if key.field = 2 then do
    requireWire kind key.wire 2 recordName
    if remaining = 0 then malformed kind .recordCountChanged
    else do
      let len ← readLength kind stop
      let start ← position
      let recordEnd ← lift (checkedEnd kind start len stop)
      let result ← record recordEnd
      seek recordEnd
      pure (onRecord result)
  else other key

variable {range : SelectedRange} {header header' : Header} {q : ℕ}

theorem scanField_before (h : Returns content (scanField kind stop header) p header' q)
    (hbefore : Before range header') : Before range header := by
  obtain ⟨key, _, -, h⟩ := returns_bind_iff.1 h
  split at h
  · obtain ⟨_, _, -, h⟩ := returns_bind_iff.1 h
    split_ifs at h with hcode
    · exact absurd h not_returns_fail
    · obtain ⟨code, _, -, h⟩ := returns_bind_iff.1 h
      obtain ⟨rfl, -⟩ := returns_pure_iff.1 h
      exact ⟨fun code' hcode' => absurd (by rw [hcode']; rfl) hcode, hbefore.2⟩
  split at h
  · obtain ⟨_, _, -, h⟩ := returns_bind_iff.1 h
    obtain ⟨_, _, -, h⟩ := returns_bind_iff.1 h
    split at h
    · exact absurd h not_returns_fail
    · obtain ⟨rfl, -⟩ := returns_pure_iff.1 h
      exact ⟨hbefore.1, le_of_succ_le hbefore.2⟩
  split at h
  · obtain ⟨_, _, -, h⟩ := returns_bind_iff.1 h
    obtain ⟨_, _, -, h⟩ := returns_bind_iff.1 h
    obtain ⟨rfl, -⟩ := returns_pure_iff.1 h
    exact hbefore
  · obtain ⟨_, _, -, h⟩ := returns_bind_iff.1 h
    obtain ⟨rfl, -⟩ := returns_pure_iff.1 h
    exact hbefore

/-- **One field, in both passes.** Where the first pass went over a field
on its way to the range, the second pass goes over it to the same
position and reports no disagreement. -/
theorem walkField_meets {σ τ : Type} {codeName recordName : String} {seen : Bool}
    {remaining : ℕ} {onCode : σ} {record : ℕ → Reading τ} {onRecord : τ → σ}
    {other : Key → Reading σ} {R : Header → σ → Prop} (hlo : lo ≤ p) (hhi : stop ≤ hi)
    (hscan : Returns content (scanField kind stop header) p header' q)
    (htracks : Tracks range header seen remaining) (hbefore : Before range header')
    (hcode : Tracks range header' true remaining → R header' onCode)
    (hrecord : ∀ result, Tracks range header' seen (remaining - 1) → R header' (onRecord result))
    (hdecode : ∀ last start, lo ≤ start → last ≤ hi →
      Meets content lo hi (record last) start (fun _ _ => True) Agreeing)
    (hother : ∀ key q r, lo ≤ q → Returns content (scanRest kind stop header key) q header' r →
      Meets content lo hi (other key) q (fun b r' => r' = r ∧ q ≤ r ∧ R header' b) Agreeing) :
    Meets content lo hi (walkField kind codeName recordName range stop seen remaining onCode record
      onRecord other) p (fun b r => r = q ∧ p < q ∧ R header' b) Agreeing := by
  obtain ⟨key, q₁, hkey, hscan⟩ := returns_bind_iff.1 hscan
  refine ((readKey_meets hlo hhi).returning hkey).andThen ?_
  rintro key q₁ ⟨rfl, rfl, hq₁⟩
  by_cases h₁ : key.field = 1
  · rw [if_pos h₁] at hscan ⊢
    obtain ⟨_, q₂, hwire, hread⟩ := returns_bind_iff.1 hscan
    obtain ⟨rfl, -⟩ := requireWire_returns hwire
    refine requireWire_meets.andThen fun _ r hr => ?_
    obtain ⟨rfl, -⟩ := hr
    split_ifs at hread with hsome
    · exact absurd hread not_returns_fail
    obtain ⟨code, q₃, hcodeRead, hdone⟩ := returns_bind_iff.1 hread
    obtain ⟨rfl, rfl⟩ := returns_pure_iff.1 hdone
    have hseen : seen = false := by rw [htracks.1]; exact Bool.not_eq_true _ ▸ hsome
    rw [if_neg (by simp [hseen])]
    refine ((readCode_meets (by omega) hhi).returning hcodeRead).andThen ?_
    rintro code q₃ ⟨rfl, rfl, hq₃⟩
    rw [if_neg (not_not.2 (hbefore.1 _ rfl))]
    exact .pure ⟨rfl, by omega, hcode ⟨rfl, htracks.2⟩⟩
  rw [if_neg h₁] at hscan ⊢
  by_cases h₂ : key.field = 2
  · rw [if_pos h₂] at hscan ⊢
    obtain ⟨_, q₂, hwire, hrest⟩ := returns_bind_iff.1 hscan
    obtain ⟨rfl, htwo⟩ := requireWire_returns hwire
    obtain ⟨_, q₃, hskip, hdone⟩ := returns_bind_iff.1 hrest
    split_ifs at hdone
    · exact absurd hdone not_returns_fail
    obtain ⟨rfl, rfl⟩ := returns_pure_iff.1 hdone
    refine requireWire_meets.andThen fun _ r hr => ?_
    obtain ⟨rfl, -⟩ := hr
    have hcount := htracks.2
    have hleft := hbefore.2
    dsimp only at hleft
    rw [if_neg (by omega)]
    rw [htwo] at hskip
    obtain ⟨len, q₄, hlen, hskip⟩ := returns_bind_iff.1 hskip
    have hend := Meets.of_returns (skipBytes_meets : Meets content lo hi _ _ _ _) hskip
    refine ((readLength_meets (by omega) hhi).returning hlen).andThen ?_
    rintro len q₄ ⟨rfl, rfl, hq₄⟩
    refine .bind (.position (checkedEnd_meets.andThen fun last s hs => ?_))
    refine (hdecode last s (by omega) (by omega)).andThen fun result t _ => ?_
    refine .bind (.seek (.pure ⟨by omega, by omega, hrecord result ⟨htracks.1, ?_⟩⟩))
    dsimp only
    omega
  · rw [if_neg h₂] at hscan ⊢
    exact (hother key _ q (by omega) hscan).mono le_rfl le_rfl
      (fun b r _ h => ⟨h.1, by omega, h.2.2⟩) fun _ h => h

/-- **A category, in both passes.** -/
theorem category_meets {σ ω : Type} {field : ℕ → σ → Reading σ} {start : σ}
    {finish : σ → Except GeoDataError ω} (seen : σ → Bool) (remaining : σ → ℕ)
    (hscanned : Scanned content kind range) (hseen : seen start = false)
    (hremaining : remaining start = range.recordCount)
    (hfield : ∀ lo stop header header' b p q, lo ≤ p →
      Returns content (scanField kind stop header) p header' q →
      Tracks range header (seen b) (remaining b) → Before range header' →
      Meets content lo stop (field stop b) p
        (fun b' r => r = q ∧ p < q ∧ Tracks range header' (seen b') (remaining b')) Agreeing)
    (hfinish : ∀ b e, seen b = true → remaining b = 0 → finish b = .error e → Agreeing e) :
    Meets content range.offset (range.offset + range.len) (do
      let stop ← lift (checkedEnd kind range.offset range.len (2 ^ 64 - 1))
      seek range.offset
      let b ← loop stop (field stop) start
      lift (finish b)) p (fun _ _ => True) Agreeing := by
  obtain ⟨hfits, q, hscan⟩ := hscanned
  refine checkedEnd_meets.andThen fun stop r hstop => .bind (.seek ?_)
  obtain ⟨-, rfl, -, -⟩ := hstop
  have hloop := Meets.lockstep (P := Before range)
    (R := fun header b p => range.offset ≤ p ∧ Tracks range header (seen b) (remaining b))
    (fun _ _ _ _ h hafter => scanField_before h hafter)
    (fun header b p header' q _ hR hafter h =>
      (hfield range.offset _ header header' b p q hR.1 h hR.2 hafter).mono le_rfl le_rfl
        (fun b' r _ hb => ⟨hb.1, hb.2.1, by have := hR.1; omega, hb.2.2⟩) fun _ h => h)
    hscan ⟨fun code hcode => (Option.some.inj hcode).symm, le_rfl⟩
    ⟨le_rfl, hseen, by rw [hremaining, zero_add]⟩
  refine hloop.andThen fun b s hb => .lift (fun _ _ => trivial) fun e he => ?_
  obtain ⟨-, -, hcode, hcount⟩ := hb
  exact hfinish b e hcode (by dsimp only at hcount; omega) he

/-- The fields that no pass counts end at the same position in both. -/
theorem rest_meets {σ : Type} (b : σ) (name : String) {key : Key} {r : ℕ} (hlo : lo ≤ p)
    (hhi : stop ≤ hi) (hscan : Returns content (scanRest kind stop header key) p header' r) :
    Meets content lo hi (if key.field = 3 ∧ kind = .geoIp then do
        requireWire kind key.wire 0 name
        let _ ← readVarint kind stop
        pure b
      else do
        skipFieldPayload kind stop key.wire
        pure b) p (fun b' r' => r' = r ∧ p ≤ r ∧ header' = header ∧ b' = b) Agreeing := by
  unfold scanRest at hscan
  split_ifs at hscan ⊢
  · obtain ⟨_, q, hwire, hrest⟩ := returns_bind_iff.1 hscan
    obtain ⟨rfl, -⟩ := requireWire_returns hwire
    obtain ⟨value, s, hread, hdone⟩ := returns_bind_iff.1 hrest
    obtain ⟨rfl, rfl⟩ := returns_pure_iff.1 hdone
    refine requireWire_meets.andThen fun _ t ht => ?_
    obtain ⟨rfl, -⟩ := ht
    refine ((readVarint_meets hlo hhi).returning hread).andThen fun _ t ht => ?_
    exact .pure ⟨ht.2.1, by omega, rfl, rfl⟩
  · obtain ⟨_, q, hskip, hdone⟩ := returns_bind_iff.1 hscan
    obtain ⟨rfl, rfl⟩ := returns_pure_iff.1 hdone
    refine ((skipFieldPayload_meets hlo hhi).returning hskip).andThen fun _ t ht => ?_
    exact .pure ⟨ht.2.1, by omega, rfl, rfl⟩

theorem parseIpCategory_meets (hscanned : Scanned content .geoIp range) :
    Meets content range.offset (range.offset + range.len) (parseIpCategory range) p
      (fun _ _ => True) Agreeing := by
  refine category_meets IpProgress.seenCode IpProgress.remainingRecords hscanned rfl rfl
    (fun lo stop header header' b p q hlo hscan htracks hbefore => ?_)
    fun b e hseen hnone he => ?_
  · refine walkField_meets (R := fun header (b : IpProgress) =>
        Tracks range header b.seenCode b.remainingRecords)
      hlo le_rfl hscan htracks hbefore id (fun _ => id)
      (fun last start hlo hhi => parseCidrRecord_meets hlo hhi) fun key q r hlo hrest => ?_
    refine Meets.congr ?_ ((rest_meets b "GeoIP.reverse_match" hlo le_rfl
      hrest).mono le_rfl le_rfl (fun b' r' _ h => ⟨h.1, h.2.1, h.2.2.1 ▸ h.2.2.2 ▸ htracks⟩)
      fun _ h => h)
    simp only [and_true]
  · unfold finishIp at he
    simp [hseen, hnone] at he

theorem parseSiteCategory_meets {selectors : List Bytes} (hscanned : Scanned content .geoSite range) :
    Meets content range.offset (range.offset + range.len)
      (parseSiteCategory libraries range selectors) p (fun _ _ => True) Agreeing := by
  refine category_meets SiteProgress.seenCode SiteProgress.remainingRecords hscanned rfl rfl
    (fun lo stop header header' b p q hlo hscan htracks hbefore => ?_)
    fun b e hseen hnone he => ?_
  · refine walkField_meets (R := fun header (b : SiteProgress) =>
        Tracks range header b.seenCode b.remainingRecords)
      hlo le_rfl hscan htracks hbefore id (fun _ => id)
      (fun last start hlo hhi => siteRecord_meets hlo hhi) fun key q r hlo hrest => ?_
    refine Meets.congr ?_ ((rest_meets b "" hlo le_rfl
      hrest).mono le_rfl le_rfl (fun b' r' _ h => ⟨h.1, h.2.1, h.2.2.1 ▸ h.2.2.2 ▸ htracks⟩)
      fun _ h => h)
    simp
  · unfold finishSite finishDecoded at he
    simp only [hseen, hnone, Bool.not_true, Bool.false_eq_true, ↓reduceIte, ne_eq,
      not_true_eq_false] at he
    split at he
    · rename_i e' hcompile
      cases he
      exact compileRegexSet_agreeing hcompile
    · cases he

/-- **The two passes agree.** -/
theorem passes_agree (libraries : Libraries ρ) (content : Bytes) (kind : GeoDataKind)
    (requested : List Code) (p : ℕ) :
    (indexSelected kind content.length requested content p).exit ≠ .unfinished ∧
    ∀ ranges q, Returns content (indexSelected kind content.length requested) p ranges q →
      ∀ range ∈ ranges, ∀ start,
        (kind = .geoIp → Meets content range.offset (range.offset + range.len)
          (parseIpCategory range) start (fun _ _ => True) Agreeing) ∧
        (kind = .geoSite → ∀ selectors, Meets content range.offset (range.offset + range.len)
          (parseSiteCategory libraries range selectors) start (fun _ _ => True) Agreeing) := by
  refine ⟨indexSelected_meets.finished, fun ranges q hret range hrange start => ?_⟩
  have hscanned := indexSelected_meets.of_returns hret range hrange
  constructor
  · rintro rfl
    exact parseIpCategory_meets hscanned
  · rintro rfl selectors
    exact parseSiteCategory_meets hscanned

/-- A file with the category `a`, of one record: both passes go over its
five bytes. -/
theorem passes_agree_sample :
    Returns [10, 5, 10, 1, 97, 18, 0] (indexSelected .geoIp 7 [⟨[97]⟩]) 0 [⟨⟨[97]⟩, 2, 5, 1⟩] 7 ∧
      Meets [10, 5, 10, 1, 97, 18, 0] 2 7 (parseIpCategory ⟨⟨[97]⟩, 2, 5, 1⟩) 0 (fun _ _ => True)
        Agreeing := by
  have hselect : selectCodes .geoIp [⟨[97]⟩] [⟨⟨[97]⟩, 2, 5, 1⟩] = .ok [⟨⟨[97]⟩, 2, 5, 1⟩] := by
    simp [selectCodes, duplicateCode, selectRanges]
  have hindex : Returns [10, 5, 10, 1, 97, 18, 0] (indexSelected .geoIp 7 [⟨[97]⟩]) 0
      [⟨⟨[97]⟩, 2, 5, 1⟩] 7 := by
    refine returns_bind_iff.2 ⟨(), 0, ⟨rfl, rfl⟩, returns_bind_iff.2
      ⟨[⟨⟨[97]⟩, 2, 5, 1⟩], 7, ⟨rfl, rfl⟩, ?_⟩⟩
    rw [hselect]
    exact returns_pure
  have libraries : Libraries Unit := ⟨fun _ => none, id, id, fun _ => .ok (), fun _ _ => false⟩
  exact ⟨hindex, ((passes_agree libraries _ _ _ _).2 _ _ hindex _ mem_cons_self 0).1 rfl⟩

end Vole.Geodata
