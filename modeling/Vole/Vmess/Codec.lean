import Mathlib.Data.List.Nodup
import Vole.Vmess.Model.Stream

/-!
# The VMess body codec

A frame that one codec encodes another one decodes, if the two agree on the
options, the keys, the mask and the counter; and they agree again after it
(`decodes_encodeFrame`). The counter goes up with every frame, so no nonce is
used twice under one key (`Fresh`).
-/

namespace Vole.Vmess

open List Nat

variable {K : Type} {crypto : Crypto K}

namespace BodyCodec

variable {c c' r : BodyCodec K}

/-! ## Agreement -/

/-- **Two codecs agree**, that of a writer and that of the reader. -/
structure Agrees (c r : BodyCodec K) : Prop where
  options : r.options = c.options
  iv : r.iv = c.iv
  lengthIv : r.lengthIv = c.lengthIv
  body : r.body = c.body
  length : r.length = c.length
  mask : r.mask = c.mask
  counter : r.counter = c.counter
  framed : r.framed = c.framed

namespace Agrees

theorem lengthSize (h : Agrees c r) : r.lengthSize = c.lengthSize := by
  rw [BodyCodec.lengthSize, BodyCodec.lengthSize, h.options]

end Agrees

/-! ## The steps of a frame -/

/-- How much padding is next. -/
def padLength (crypto : Crypto K) (c : BodyCodec K) : ℕ :=
  if c.options.padding then
    ofBe16 (crypto.shake c.iv c.mask) (crypto.shake c.iv (c.mask + 1)) % 64
  else 0

/-- The codec after it has drawn the padding. -/
def padded (c : BodyCodec K) : BodyCodec K :=
  if c.options.padding then { c with mask := c.mask + 2 } else c

theorem padding_apply (c : BodyCodec K) :
    padding crypto c = (.ok (padLength crypto c), padded c) := by
  unfold padding padLength padded
  split_ifs <;> rfl

theorem padLength_lt (crypto : Crypto K) (c : BodyCodec K) : padLength crypto c < 64 := by
  unfold padLength
  split_ifs
  · exact mod_lt _ (by decide)
  · decide

theorem padded_fields (c : BodyCodec K) :
    (padded c).options = c.options ∧ (padded c).iv = c.iv ∧ (padded c).lengthIv = c.lengthIv ∧
      (padded c).body = c.body ∧ (padded c).length = c.length ∧
      (padded c).counter = c.counter ∧ (padded c).framed = c.framed ∧
      (padded c).seals = c.seals ∧ (padded c).writeLimit = c.writeLimit := by
  unfold padded
  split_ifs <;> simp

theorem Agrees.padded (h : Agrees c r) : Agrees (padded c) (padded r) := by
  unfold BodyCodec.padded
  by_cases hpadding : c.options.padding = true
  · rw [if_pos hpadding, if_pos (h.options ▸ hpadding)]
    exact { h with mask := congrArg (· + 2) h.mask }
  · rw [if_neg hpadding, if_neg (h.options ▸ hpadding)]
    exact h

theorem Agrees.padLength (h : Agrees c r) : padLength crypto r = padLength crypto c := by
  unfold BodyCodec.padLength
  rw [h.options, h.iv, h.mask]

/-- Another seal is on record. -/
def sealed (c : BodyCodec K) (name : KeyName) (nonce : Bytes) : BodyCodec K :=
  { c with seals := c.seals ++ [(name, nonce)] }

/-- The IV of a key. -/
def ivOf (c : BodyCodec K) : KeyName → Bytes
  | .body => c.iv
  | .length => c.lengthIv

def keyOf (c : BodyCodec K) : KeyName → K
  | .body => c.body
  | .length => c.length

theorem sealWith_ok {name : KeyName} {plain wire : Bytes}
    (h : sealWith crypto name plain c = (.ok wire, c')) :
    c.counter < 65536 ∧
      wire = crypto.aeadSeal (c.keyOf name) (nonceAt (c.ivOf name) c.counter) plain ∧
      c' = c.sealed name (nonceAt (c.ivOf name) c.counter) := by
  cases name <;>
  · simp only [sealWith, nonce] at h
    split_ifs at h with hcounter
    · obtain ⟨hwire, rfl⟩ := Prod.mk.inj h
      exact ⟨hcounter, (Except.ok.inj hwire).symm, rfl⟩
    · cases (Prod.mk.inj h).1

theorem openWith_sealed (name : KeyName) (plain : Bytes) (hkey : r.keyOf name = c.keyOf name)
    (hiv : r.ivOf name = c.ivOf name) (hsame : r.counter = c.counter)
    (hcounter : c.counter < 65536) :
    openWith crypto name
      (crypto.aeadSeal (c.keyOf name) (nonceAt (c.ivOf name) c.counter) plain) r =
        (.ok plain, r) := by
  have hr : r.counter < 65536 := hsame ▸ hcounter
  have hopens : openWith crypto name
      (crypto.aeadSeal (c.keyOf name) (nonceAt (c.ivOf name) c.counter) plain) r =
        ((crypto.aeadOpen (r.keyOf name) (nonceAt (r.ivOf name) r.counter)
          (crypto.aeadSeal (c.keyOf name) (nonceAt (c.ivOf name) c.counter) plain)).elim
            (.error invalid) .ok, r) := by
    cases name <;> simp only [openWith, nonce, if_pos hr, keyOf, ivOf]
  rw [hopens, hkey, hiv, hsame, crypto.aeadOpen_aeadSeal]
  rfl

/-- The codec after the head of a frame. -/
def headed (c : BodyCodec K) : BodyCodec K :=
  if c.options.authenticatedLength then c.sealed .length (nonceAt c.lengthIv c.counter)
  else if c.options.cipher ≠ .none then { c with mask := c.mask + 2 }
  else c

theorem headed_fields (c : BodyCodec K) :
    (headed c).options = c.options ∧ (headed c).iv = c.iv ∧ (headed c).body = c.body ∧
      (headed c).counter = c.counter := by
  unfold headed sealed
  split_ifs <;> exact ⟨rfl, rfl, rfl, rfl⟩

/-- The head that is written is the head that is read. -/
theorem readLength_encodeLength {length : ℕ} {head : Bytes} (hagrees : Agrees c r)
    (hsmall : length < 65536) (hlarge : c.options.authenticatedLength = true → 16 ≤ length)
    (h : encodeLength crypto length c = (.ok head, c')) :
    head.length = c.lengthSize ∧ c' = headed c ∧
      (c.options.authenticatedLength = true → c.counter < 65536) ∧
      ∃ r', readLength crypto head r = (.ok length, r') ∧ Agrees c' r' := by
  unfold encodeLength at h
  by_cases hauth : c.options.authenticatedLength = true
  · rw [if_pos hauth] at h
    obtain ⟨hcounter, rfl, rfl⟩ := sealWith_ok h
    refine ⟨?_, ?_, fun _ => hcounter, r, ?_, { hagrees with }⟩
    · rw [crypto.length_aeadSeal, lengthSize, if_pos hauth]
      rfl
    · rw [headed, if_pos hauth]
      rfl
    have hlength : (length + 65536 - 16) % 65536 = length - 16 := by
      have := hlarge hauth
      omega
    rw [hlength]
    unfold readLength
    rw [hagrees.options, if_pos hauth,
      Proc.bind_of_ok (openWith_sealed .length (be16 (length - 16)) hagrees.length hagrees.lengthIv
        hagrees.counter hcounter)]
    change ((.ok (ofBe16 _ _ + 16), r) : Except IoError ℕ × BodyCodec K) = _
    rw [ofBe16_be16 (by omega), Nat.sub_add_cancel (hlarge hauth)]
  · rw [if_neg hauth] at h
    split_ifs at h with hcipher
    · obtain ⟨hhead, rfl⟩ := Prod.mk.inj h
      cases hhead
      refine ⟨?_, ?_, fun htrue => absurd htrue hauth, { r with mask := r.mask + 2 }, ?_, ?_⟩
      · rw [lengthSize, if_neg hauth]
        rfl
      · rw [headed, if_neg hauth, if_pos hcipher]
      · have hmask := ofBe16_lt (crypto.shake c.iv c.mask) (crypto.shake c.iv (c.mask + 1))
        have hsame : ofBe16 (crypto.shake r.iv r.mask) (crypto.shake r.iv (r.mask + 1)) =
            ofBe16 (crypto.shake c.iv c.mask) (crypto.shake c.iv (c.mask + 1)) := by
          rw [hagrees.iv, hagrees.mask]
        unfold readLength
        rw [if_neg (hagrees.options ▸ hauth)]
        simp only [be16]
        rw [if_pos (hagrees.options ▸ hcipher)]
        generalize ofBe16 (crypto.shake c.iv c.mask) (crypto.shake c.iv (c.mask + 1)) = mask at *
        have hxor : length ^^^ mask < 65536 := xor_lt_two_pow (n := 16) hsmall hmask
        refine congrArg (fun n => ((.ok n : Except IoError ℕ), { r with mask := r.mask + 2 })) ?_
        rw [ofBe16_be16 hxor]
        rw [hsame, Nat.xor_assoc, Nat.xor_self, Nat.xor_zero]
      · exact { hagrees with mask := congrArg (· + 2) hagrees.mask }
    · obtain ⟨hhead, rfl⟩ := Prod.mk.inj h
      cases hhead
      refine ⟨?_, ?_, fun htrue => absurd htrue hauth, r, ?_, hagrees⟩
      · rw [lengthSize, if_neg hauth]
        rfl
      · rw [headed, if_neg hauth, if_neg hcipher]
      · unfold readLength
        rw [hagrees.options, if_neg hauth]
        simp only [be16]
        rw [if_neg hcipher, ofBe16_be16 hsmall]

/-- The parts of a frame. -/
theorem encodeFrame_ok {plain frame : Bytes} {random : Option (ℕ → UInt8)}
    (h : encodeFrame crypto plain random c = (.ok frame, c')) :
    ∃ body head tail c₁ c₂, sealBody crypto plain (padded c) = (.ok body, c₁) ∧
      encodeLength crypto ((body.length + padLength crypto c) % 65536) c₁ = (.ok head, c₂) ∧
      tail.length = padLength crypto c ∧ frame = head ++ (body ++ tail) ∧
      c' = { c₂ with counter := c₂.counter + 1 } := by
  unfold encodeFrame at h
  rw [Proc.bind_of_ok (padding_apply c)] at h
  obtain ⟨body, c₁, hbody, h⟩ := Proc.bind_eq_ok h
  obtain ⟨head, c₂, hhead, h⟩ := Proc.bind_eq_ok h
  cases random with
  | none => cases h
  | some random =>
    obtain ⟨hframe, rfl⟩ := Prod.mk.inj h
    cases hframe
    refine ⟨body, head, (List.range (padLength crypto c)).map random, c₁, c₂, hbody, hhead, ?_,
      append_assoc _ _ _, rfl⟩
    rw [length_map, length_range]

theorem sealBody_ok {plain body : Bytes} (h : sealBody crypto plain c = (.ok body, c')) :
    body.length = plain.length + c.overhead ∧
      (c.overhead ≠ 0 → c.counter < 65536 ∧ c' = c.sealed .body (nonceAt c.iv c.counter)) ∧
      (c.overhead = 0 → c' = c) ∧
      ∀ r : BodyCodec K, r.overhead = c.overhead → r.body = c.body → r.iv = c.iv →
        r.counter = c.counter → openBody crypto body r = (.ok plain, r) := by
  unfold sealBody at h
  split_ifs at h with hoverhead
  · obtain ⟨hcounter, rfl, rfl⟩ := sealWith_ok h
    have htag : c.overhead = 16 := by
      unfold overhead at hoverhead ⊢
      split_ifs at hoverhead ⊢
      · exact absurd rfl hoverhead
      · rfl
    refine ⟨?_, fun _ => ⟨hcounter, rfl⟩, fun hzero => absurd hzero hoverhead,
      fun r htag' hkey hiv hsame => ?_⟩
    · rw [crypto.length_aeadSeal, htag]
    · unfold openBody
      rw [if_pos (htag' ▸ hoverhead)]
      exact openWith_sealed .body plain hkey hiv hsame hcounter
  · obtain ⟨hbody, rfl⟩ := Prod.mk.inj h
    cases hbody
    have hzero : c.overhead = 0 := not_not.mp hoverhead
    refine ⟨by rw [hzero]; rfl, fun hne => absurd hzero hne, fun _ => rfl,
      fun r htag _ _ _ => ?_⟩
    unfold openBody
    rw [if_neg (htag ▸ hoverhead)]

/-- The overhead is there where a length is authenticated. -/
theorem overhead_of_authenticated (h : c.options.authenticatedLength = true) : c.overhead = 16 := by
  unfold overhead
  rw [if_neg]
  intro hnone
  rw [(c.options.plain hnone).2] at h
  cases h

/-- **The two parts of a frame and what they decode to.** No length of a frame
under- or overflows. -/
theorem decodes_encodeFrame {plain frame : Bytes} {random : Option (ℕ → UInt8)}
    (hagrees : Agrees c r) (hplain : plain.length ≤ maxPacketBytes)
    (h : encodeFrame crypto plain random c = (.ok frame, c')) :
    ∃ head rest r₁ r₂, frame = head ++ rest ∧ head.length = c.lengthSize ∧
      c.overhead + padLength crypto c ≤ rest.length ∧ rest.length < 65536 ∧
      decodeLength crypto head r = (.ok (rest.length, padLength crypto c), r₁) ∧
      decodeBody crypto rest (padLength crypto c) r₁ = (.ok plain, r₂) ∧ Agrees c' r₂ := by
  obtain ⟨body, head, tail, c₁, c₂, hbody, hhead, htail, rfl, rfl⟩ := encodeFrame_ok h
  obtain ⟨hbodyLength, hsealed, hplainBody, hopens⟩ := sealBody_ok hbody
  obtain ⟨hoptions, hiv, -, -, -, hcounter, -⟩ := padded_fields c
  have hoverhead : (padded c).overhead = c.overhead := by
    rw [overhead, overhead, hoptions]
  have hpad := padLength_lt crypto c
  have hsmallOverhead : c.overhead ≤ 16 := by
    unfold overhead
    split_ifs <;> omega
  have hmax : plain.length ≤ 15000 := hplain
  have hrest : (body ++ tail).length = body.length + padLength crypto c := by
    rw [length_append, htail]
  have hmod : (body.length + padLength crypto c) % 65536 = (body ++ tail).length := by
    rw [hrest]
    exact mod_eq_of_lt (by omega)
  have hc₁ : Agrees c₁ (padded r) := by
    by_cases hzero : (padded c).overhead = 0
    · rw [hplainBody hzero]
      exact hagrees.padded
    · rw [(hsealed hzero).2]
      exact { hagrees.padded with }
  have hoptions₁ : c₁.options = c.options := by
    rw [← hc₁.options, (padded_fields r).1, hagrees.options]
  rw [hmod] at hhead
  obtain ⟨hheadLength, rfl, -, r', hread, hagrees'⟩ :=
    readLength_encodeLength hc₁ (by omega) (fun hauth => by
      have := overhead_of_authenticated (c := c) (hoptions₁ ▸ hauth)
      omega) hhead
  obtain ⟨hoptions₂, hiv₂, hkey₂, hcounter₂⟩ := headed_fields c₁
  have hr' : r'.overhead = c.overhead := by
    rw [overhead, overhead, hagrees'.options, hoptions₂, hoptions₁]
  have hwire : maxBodyWire = 16384 := rfl
  refine ⟨head, body ++ tail, r', { r' with counter := r'.counter + 1 }, rfl, ?_, by omega,
    by omega, ?_, ?_, ?_⟩
  · rw [hheadLength, lengthSize, lengthSize, hoptions₁]
  · unfold decodeLength
    rw [Proc.bind_of_ok (padding_apply r), hagrees.padLength, Proc.bind_of_ok hread,
      Proc.bind_of_ok (Proc.read_apply _ _), hr', if_neg (by omega)]
    rfl
  · have htaken : (body ++ tail).take ((body ++ tail).length - padLength crypto c) = body := by
      rw [hrest, Nat.add_sub_cancel, take_left]
    have hopen : openBody crypto body r' = (.ok plain, r') := by
      refine hopens r' (hr'.trans hoverhead.symm) ?_ ?_ ?_
      · rw [hagrees'.body, hkey₂, ← hc₁.body, hagrees.padded.body]
      · rw [hagrees'.iv, hiv₂, ← hc₁.iv, hagrees.padded.iv]
      · rw [hagrees'.counter, hcounter₂, ← hc₁.counter, hagrees.padded.counter]
    unfold decodeBody
    rw [if_neg (by omega), htaken, Proc.bind_of_ok hopen]
    rfl
  · exact { hagrees' with counter := congrArg (· + 1) hagrees'.counter }

/-! ## Nonces -/

/-- Nonces of different counters differ. -/
theorem nonceAt_inj {iv : Bytes} {m n : ℕ} (hm : m < 65536) (hn : n < 65536)
    (h : nonceAt iv m = nonceAt iv n) : m = n := by
  have hhead : be16 m = be16 n := (append_inj h rfl).1
  simp only [be16, List.cons.injEq, and_true] at hhead
  rw [← ofBe16_be16 hm, ← ofBe16_be16 hn, hhead.1, hhead.2]

/-- **Every nonce on record is of an earlier counter**, and none is there
twice. -/
structure Fresh (c : BodyCodec K) : Prop where
  nodup : c.seals.Nodup
  earlier : ∀ s ∈ c.seals, ∃ n < c.counter, n < 65536 ∧ s.2 = nonceAt (c.ivOf s.1) n

/-- From one codec to another, these keys were used with the nonce of the
counter. -/
structure Used (c : BodyCodec K) (names : List KeyName) (c' : BodyCodec K) : Prop where
  options : c'.options = c.options
  framed : c'.framed = c.framed
  writeLimit : c'.writeLimit = c.writeLimit
  keyOf : c'.keyOf = c.keyOf
  ivOf : c'.ivOf = c.ivOf
  counter : c'.counter = c.counter
  seals : c'.seals = c.seals ++ names.map fun name => (name, nonceAt (c.ivOf name) c.counter)
  small : names ≠ [] → c.counter < 65536

namespace Used

variable {names : List KeyName}

/-- No nonce is used twice before the counter goes up. -/
theorem nodup (h : Used c names c') (hfresh : Fresh c) (hnames : names.Nodup) : c'.seals.Nodup := by
  rw [h.seals]
  refine nodup_append.mpr ⟨hfresh.nodup, ?_, ?_⟩
  · exact List.Nodup.map (fun _ _ hsame => congrArg Prod.fst hsame) hnames
  intro earlier hearlier later hlater hsame
  obtain ⟨name, hname, rfl⟩ := mem_map.mp hlater
  obtain ⟨n, hn, hsmall, hnonce⟩ := hfresh.earlier _ hearlier
  rw [hsame] at hnonce
  have := nonceAt_inj (h.small (ne_nil_of_mem hname)) hsmall hnonce
  omega

/-- And when it has gone up, they are all of earlier counters. -/
theorem fresh (h : Used c names c') (hfresh : Fresh c) (hnames : names.Nodup) :
    Fresh { c' with counter := c'.counter + 1 } where
  nodup := h.nodup hfresh hnames
  earlier s hs := by
    have hiv : BodyCodec.ivOf { c' with counter := c'.counter + 1 } = BodyCodec.ivOf c := h.ivOf
    have hcounter : c'.counter = c.counter := h.counter
    rw [hiv]
    rw [h.seals] at hs
    rcases mem_append.mp hs with hs | hs
    · obtain ⟨n, hn, hsmall, hnonce⟩ := hfresh.earlier s hs
      exact ⟨n, by simp only [hcounter]; omega, hsmall, hnonce⟩
    · obtain ⟨name, hname, rfl⟩ := mem_map.mp hs
      have hsmall := h.small (ne_nil_of_mem hname)
      exact ⟨c.counter, by simp only [hcounter]; omega, hsmall, rfl⟩

end Used

section

variable (crypto)

/-- A seal uses a key, or the counter is exhausted. -/
theorem sealWith_used {c₀ : BodyCodec K} {names : List KeyName} (name : KeyName) (plain : Bytes) :
    Proc.Ensures (Used c₀ names) (sealWith crypto name plain) (fun _ => Used c₀ (names ++ [name]))
      (Used c₀ names) := by
  intro c hc
  refine ⟨fun wire hwire => ?_, fun error herror => ?_⟩
  · obtain ⟨hcounter, -, hc'⟩ := sealWith_ok (Prod.ext hwire rfl :
      sealWith crypto name plain c = (.ok wire, (sealWith crypto name plain c).2))
    rw [hc']
    refine { hc with seals := ?_, small := fun _ => hc.counter ▸ hcounter }
    change c.seals ++ _ = _
    rw [hc.seals, hc.ivOf, hc.counter, map_append, append_assoc]
    rfl
  · -- a seal that fails has used nothing
    cases name <;>
    · simp only [sealWith, nonce] at herror ⊢
      split_ifs at herror ⊢
      exact hc

theorem encodeFrame_used (plain : Bytes) (random : Option (ℕ → UInt8)) :
    Proc.Ensures (fun s => s = c) (encodeFrame crypto plain random)
      (fun _ c' => ∃ names c₁, names.Nodup ∧ Used c names c₁ ∧
        c' = { c₁ with counter := c₁.counter + 1 })
      (fun c' => ∃ names, names.Nodup ∧ Used c names c') := by
  refine .bind (M := fun _ => Used c []) ?_ fun padding => ?_
  · intro c₀ hc₀
    obtain ⟨hoptions, hiv, hlengthIv, hbody, hlength, hcounter, hframed, hseals, hlimit⟩ :=
      padded_fields c
    rw [hc₀, padding_apply]
    refine ⟨fun _ _ => ⟨hoptions, hframed, hlimit, ?_, ?_, hcounter, ?_, ?_⟩, nofun⟩
    · exact funext fun | .body => hbody | .length => hlength
    · exact funext fun | .body => hiv | .length => hlengthIv
    · exact hseals.trans (append_nil _).symm
    · exact fun h => absurd rfl h
  refine .bind (M := fun _ c' => ∃ names, names.Sublist [.body] ∧ Used c names c') ?_
    fun body => ?_
  · intro c' hc'
    unfold sealBody
    split_ifs
    · obtain ⟨hok, herror⟩ := sealWith_used crypto .body plain c' hc'
      exact ⟨fun wire hwire => ⟨_, List.Sublist.refl _, hok wire hwire⟩,
        fun error hfailed => ⟨[], nodup_nil, herror error hfailed⟩⟩
    · exact ⟨fun _ _ => ⟨[], nil_sublist _, hc'⟩, nofun⟩
  refine .bind (M := fun _ c' => ∃ names, names.Sublist [.body, .length] ∧ Used c names c') ?_
    fun head => ?_
  · rintro c' ⟨names, hnames, hc'⟩
    have hnodup : names.Nodup := hnames.nodup (by decide)
    have hearlier : names.Sublist [.body, .length] := hnames.trans (by decide)
    unfold encodeLength
    split_ifs
    · obtain ⟨hok, herror⟩ := sealWith_used crypto .length
        (be16 (((body.length + padding) % 65536 + 65536 - 16) % 65536)) c' hc'
      exact ⟨fun wire hwire => ⟨_, hnames.append_right [.length], hok wire hwire⟩,
        fun error hfailed => ⟨names, hnodup, herror error hfailed⟩⟩
    · exact ⟨fun _ _ => ⟨names, hearlier, { hc' with }⟩, nofun⟩
    · exact ⟨fun _ _ => ⟨names, hearlier, hc'⟩, nofun⟩
  cases random with
  | none => exact .fail fun c' ⟨names, hnames, hc'⟩ => ⟨names, hnames.nodup (by decide), hc'⟩
  | some random =>
    exact .bind (M := fun _ c' => ∃ names c₁, names.Nodup ∧ Used c names c₁ ∧
        c' = { c₁ with counter := c₁.counter + 1 })
      (.update fun c' ⟨names, hnames, hc'⟩ => ⟨names, c', hnames.nodup (by decide), hc', rfl⟩)
      fun _ => .pure fun _ h => h

/-- The lengths of a frame fit: with its length there is room for a tag, and
two bytes hold it. -/
def Sized (c : BodyCodec K) (frame : Bytes) : Prop :=
  ∃ head rest, frame = head ++ rest ∧ head.length = c.lengthSize ∧ c.overhead ≤ rest.length ∧
    rest.length < 65536

/-- A codec does not change what it was made with. -/
structure Kin (c c' : BodyCodec K) : Prop where
  options : c'.options = c.options
  framed : c'.framed = c.framed
  writeLimit : c'.writeLimit = c.writeLimit
  keyOf : c'.keyOf = c.keyOf

/-- **Encoding**: what it does where it succeeds, and where it fails. -/
theorem encode_spec (hfresh : Fresh c) (plain : Bytes)
    (random : Option (ℕ → UInt8)) :
    Proc.Ensures (fun s => s = c) (encode crypto plain random)
      (fun frame c' => Kin c c' ∧ Fresh c' ∧ plain.length ≤ c.writeLimit ∧
        (c.framed = false → frame = plain) ∧
        (c.framed = true → encodeFrame crypto plain random c = (.ok frame, c')))
      (fun c' => Kin c c' ∧ c'.seals.Nodup) := by
  intro s hs
  subst hs
  unfold encode
  split_ifs with hlong hframed
  · exact ⟨nofun, fun _ _ => ⟨⟨rfl, rfl, rfl, rfl⟩, hfresh.nodup⟩⟩
  · refine ⟨fun frame hframe => ?_, nofun⟩
    cases hframe
    refine ⟨⟨rfl, rfl, rfl, rfl⟩, hfresh, Nat.not_lt.mp hlong, fun _ => rfl, fun htrue => ?_⟩
    rw [htrue] at hframed
    cases hframed
  obtain ⟨hok, herror⟩ := encodeFrame_used crypto plain random s rfl
  refine ⟨fun frame hframe => ?_, fun error hfailed => ?_⟩
  · obtain ⟨names, c₁, hnames, hused, hc'⟩ := hok frame hframe
    rw [hc']
    refine ⟨⟨hused.options, hused.framed, hused.writeLimit, hused.keyOf⟩,
      hused.fresh hfresh hnames, Nat.not_lt.mp hlong, fun hfalse => ?_, fun _ => ?_⟩
    · exact absurd (by rw [hfalse]; rfl) hframed
    · exact hc' ▸ Prod.ext hframe rfl
  · obtain ⟨names, hnames, hused⟩ := herror error hfailed
    exact ⟨⟨hused.options, hused.framed, hused.writeLimit, hused.keyOf⟩,
      hused.nodup hfresh hnames⟩

/-! ## Decoding -/

/-- Decoding does not change whether there are frames. -/
theorem decodeBody_framed (c : BodyCodec K) (wire : Bytes) (padding : ℕ) :
    (decodeBody crypto wire padding c).2.framed = c.framed := by
  have hopen : ∀ body, Proc.Preserves (fun r => r.framed = c.framed) (openBody crypto body) := by
    intro body r hr
    unfold openBody openWith nonce
    split_ifs <;> exact ⟨fun _ _ => hr, fun _ _ => hr⟩
  have hbody : Proc.Preserves (fun r => r.framed = c.framed) (decodeBody crypto wire padding) := by
    unfold decodeBody
    split_ifs
    · exact .fail _
    · exact (hopen _).bind fun _ => (Proc.Preserves.update fun _ hr => hr).bind fun _ => .pure _
  exact hbody.always rfl

theorem decodeLength_framed (c : BodyCodec K) (wire : Bytes) :
    (decodeLength crypto wire c).2.framed = c.framed := by
  have hpadding : Proc.Preserves (fun r => r.framed = c.framed) (padding crypto) := by
    intro r hr
    rw [padding_apply]
    exact ⟨fun _ _ => (padded_fields r).2.2.2.2.2.2.1.trans hr, nofun⟩
  have hread : Proc.Preserves (fun r => r.framed = c.framed) (readLength crypto wire) := by
    intro r hr
    unfold readLength
    split_ifs
    · refine Proc.Preserves.bind (I := fun r : BodyCodec K => r.framed = c.framed) ?_
        (fun plain => ?_) r hr
      · intro r hr
        unfold openWith nonce
        split_ifs <;> exact ⟨fun _ _ => hr, fun _ _ => hr⟩
      · split
        · exact .pure _
        · exact .fail _
    · split
      · exact ⟨fun _ _ => hr, fun _ _ => hr⟩
      · exact ⟨nofun, fun _ _ => hr⟩
    · split
      · exact ⟨fun _ _ => hr, nofun⟩
      · exact ⟨nofun, fun _ _ => hr⟩
  have hlength : Proc.Preserves (fun r => r.framed = c.framed) (decodeLength crypto wire) := by
    refine hpadding.bind fun padding => hread.bind fun length =>
      (Proc.Preserves.read _).bind fun overhead => ?_
    split_ifs
    · exact .fail _
    · exact .pure _
  exact hlength.always rfl

end

/-- A length that is accepted has room for its padding and the tag. -/
theorem decodeLength_room {wire : Bytes} {length padding : ℕ}
    (h : decodeLength crypto wire c = (.ok (length, padding), c')) :
    padding + c'.overhead ≤ length ∧ length ≤ maxBodyWire := by
  obtain ⟨drawn, c₁, -, h⟩ := Proc.bind_eq_ok h
  obtain ⟨read, c₂, -, h⟩ := Proc.bind_eq_ok h
  obtain ⟨overhead, c₃, hoverhead, h⟩ := Proc.bind_eq_ok h
  obtain ⟨hvalue, rfl⟩ := Prod.mk.inj hoverhead
  cases hvalue
  split_ifs at h with hroom
  · cases (Prod.mk.inj h).1
  · obtain ⟨hsizes, rfl⟩ := Prod.mk.inj h
    cases hsizes
    omega

end BodyCodec

end Vole.Vmess
