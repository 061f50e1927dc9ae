import Vole.Geodata.Passes

/-!
# The scan for UTF-8

`validate_utf8_bytes` reads a string in chunks and keeps three numbers
from one to the next. They are the state of the machine that decides
UTF-8, so the cuts make no difference, and the keys that are read again
later are texts.
-/

namespace Vole.Geodata

open Cursor Utf8 List

/-- The three numbers of a state. -/
def scanOf : State → Utf8Scan
  | .start => ⟨0, 0x80, 0xbf⟩
  | .tail more => ⟨more + 1, 0x80, 0xbf⟩
  | .afterE0 => ⟨2, 0xa0, 0xbf⟩
  | .afterED => ⟨2, 0x80, 0x9f⟩
  | .afterF0 => ⟨3, 0x90, 0xbf⟩
  | .afterF4 => ⟨3, 0x80, 0x8f⟩

theorem scanOf_step (q : State) (byte : UInt8) :
    (scanOf q).step byte = (Utf8.step q byte).map scanOf := by
  cases q with
  | start =>
    have hall : ∀ n < 256, (scanOf .start).step (.ofNat n) = (first (.ofNat n)).map scanOf := by
      decide +kernel
    have hbyte := hall byte.toNat byte.toNat_lt
    rwa [UInt8.ofNat_toNat] at hbyte
  | tail more =>
    cases more <;> simp only [scanOf, Utf8Scan.step, Utf8.step, proceed] <;> grind [scanOf]
  | _ =>
    simp only [scanOf, Utf8Scan.step, Utf8.step, proceed]
    grind [scanOf]

theorem scanOf_run (bytes : Bytes) : ∀ q,
    bytes.foldlM Utf8Scan.step (scanOf q) = (Utf8.run q bytes).map scanOf := by
  induction bytes with
  | nil => exact fun q => rfl
  | cons byte rest ih =>
    intro q
    rw [foldlM_cons, scanOf_step, Utf8.run]
    cases Utf8.step q byte with
    | none => rfl
    | some next => exact ih next

/-- The scan ends between two characters exactly on UTF-8. -/
theorem wellFormed_iff_scan (bytes : Bytes) : WellFormed bytes ↔
    ∃ scan, bytes.foldlM Utf8Scan.step .start = some scan ∧ scan.continuation = 0 := by
  have hscan : bytes.foldlM Utf8Scan.step .start = (Utf8.run .start bytes).map scanOf :=
    scanOf_run bytes .start
  rw [← isUtf8_iff, isUtf8, beq_iff_eq, hscan]
  constructor
  · intro h
    exact ⟨_, by rw [h]; rfl, rfl⟩
  · rintro ⟨_, h, hzero⟩
    obtain ⟨q, hq, rfl⟩ := Option.map_eq_some_iff.1 h
    cases q with
    | start => exact hq
    | _ => cases hzero

variable {content : Bytes} {kind : GeoDataKind} {stop p len : ℕ}

/-- The string lies in the message and in the file. -/
def Available (content : Bytes) (stop p len : ℕ) : Prop :=
  p + len ≤ stop ∧ p + len < 2 ^ 64 ∧ p + len ≤ content.length

theorem validateUtf8Bytes_spec :
    Meets content p (p + len) (validateUtf8Bytes kind len stop) p
      (fun _ q => q = p + len ∧ WellFormed ((content.drop p).take len))
      (fun _ => Available content stop p len → ¬ WellFormed ((content.drop p).take len)) := by
  refine .bind (.position ?_)
  unfold checkedEnd
  split_ifs with hover hend
  · exact .fail fun h => absurd h.2.1 (by omega)
  · exact .fail fun h => absurd h.1 (by omega)
  refine .bind (.pure ?_)
  refine (Meets.loop (I := fun scan r => p ≤ r ∧ r ≤ p + len ∧
    ((content.drop p).take (r - p)).foldlM Utf8Scan.step .start = some scan)
    (fun scan r hr hI => ?_) ⟨le_rfl, by omega, by simp⟩).andThen fun scan r hr => ?_
  · obtain ⟨hfrom, -, hscan⟩ := hI
    refine .bind (.position ?_)
    generalize hn : min (p + len - r) 256 = n
    have hspan : ∀ span ∈ [(r, n)], p ≤ span.1 ∧ span.1 + span.2 ≤ p + len := by
      rintro _ (_ | ⟨_, ⟨⟩⟩)
      exact ⟨hfrom, by omega⟩
    by_cases hfits : r + n ≤ content.length
    · -- what the scan has seen of the string after this chunk
      have hseen : ((content.drop p).take (r + n - p)).foldlM Utf8Scan.step .start =
          ((content.drop r).take n).foldlM Utf8Scan.step scan := by
        rw [show r + n - p = r - p + n by omega, take_add, drop_drop,
          show p + (r - p) = r by omega, foldlM_append, hscan]
        rfl
      refine .bind (.of_run (if_pos hfits) hspan ?_)
      dsimp only
      split
      next hnone =>
        refine .fail fun _ hwell => ?_
        obtain ⟨last, hlast, -⟩ := (wellFormed_iff_scan _).1 hwell
        rw [show len = r + n - p + (p + len - (r + n)) by omega, take_add, foldlM_append,
          hseen, hnone] at hlast
        cases hlast
      next later hsome => exact .pure ⟨⟨by omega, by omega, hseen.trans hsome⟩, by omega⟩
    · exact .bind (.of_run (if_neg hfits) hspan fun h => absurd h.2.2 (by omega))
  · obtain ⟨⟨-, hr, hscan⟩, hle⟩ := hr
    obtain rfl : r = p + len := by omega
    rw [Nat.add_sub_cancel_left] at hscan
    split_ifs with hinside
    · refine .fail fun _ hwell => hinside ?_
      obtain ⟨scan', hscan', hzero⟩ := (wellFormed_iff_scan _).1 hwell
      rw [hscan] at hscan'
      cases hscan'
      exact hzero
    · exact .pure ⟨rfl, (wellFormed_iff_scan _).2 ⟨scan, hscan, not_not.1 hinside⟩⟩

/-- A key that was noted is a text. -/
def Readable (content : Bytes) (key : Option (ℕ × ℕ)) : Prop :=
  ∀ offset len, key = some (offset, len) → WellFormed ((content.drop offset).take len)

theorem attributeField_readable {key key' : Option (ℕ × ℕ)} {q : ℕ}
    (h : Returns content (attributeField stop key) p key' q) (hkey : Readable content key) :
    Readable content key' := by
  obtain ⟨field, r, -, h⟩ := returns_bind_iff.1 h
  split_ifs at h
  · obtain ⟨_, s, -, h⟩ := returns_bind_iff.1 h
    obtain ⟨len, t, -, h⟩ := returns_bind_iff.1 h
    obtain ⟨start, u, hstart, h⟩ := returns_bind_iff.1 h
    obtain ⟨_, v, hutf, h⟩ := returns_bind_iff.1 h
    cases (returns_pure_iff.1 h).1
    rintro _ _ ⟨⟩
    cases hstart.1
    cases hstart.2
    exact (validateUtf8Bytes_spec.of_returns hutf).2
  · obtain ⟨_, s, -, h⟩ := returns_bind_iff.1 h
    obtain ⟨_, t, -, h⟩ := returns_bind_iff.1 h
    cases (returns_pure_iff.1 h).1
    exact hkey
  · obtain ⟨_, s, -, h⟩ := returns_bind_iff.1 h
    cases (returns_pure_iff.1 h).1
    exact hkey

theorem readScratch_eq {offset q r : ℕ} {key : Bytes}
    (h : Returns content (readScratch kind offset len) q key r) :
    key = (content.drop offset).take len := by
  have hmeets : Meets content 0 (offset + len) (readScratch kind offset len) q
      (fun key _ => key = (content.drop offset).take len) Agreeing := by
    refine .bind (.seek ?_)
    split_ifs
    · exact .fail rfl
    refine .bind (.position (checkedEnd_meets.andThen fun _ t ht => ?_))
    obtain ⟨rfl, -⟩ := ht
    refine .readExact (Nat.zero_le _) le_rfl trivial fun bytes hread => ?_
    unfold Returns readExact at hread
    split_ifs at hread
    · exact (Exit.done.inj hread.1).symm
    · cases hread.1
  exact hmeets.of_returns h

/-- **UTF-8 in GeoSite records.** Wherever the chunks fall:

* `validate_utf8_bytes` accepts a string exactly where it is well-formed;
* the key that `scan_domain_attributes` reads again passes
  `str::from_utf8`, so its `expect` does not panic. -/
theorem utf8_exact (content : Bytes) (kind : GeoDataKind) (stop p : ℕ) :
    (∀ len, Available content stop p len →
      ((validateUtf8Bytes kind len stop content p).exit = .done () ↔
        WellFormed ((content.drop p).take len))) ∧
    ∀ offset len q r key, Returns content (readAttribute stop) p (some (offset, len)) q →
      Returns content (readScratch .geoSite offset len) q key r → isUtf8 key = true := by
  refine ⟨fun len havailable => ?_, fun offset len q r key hrange hkey => ?_⟩
  · have hspec : Meets content p (p + len) (validateUtf8Bytes kind len stop) p _ _ :=
      validateUtf8Bytes_spec
    constructor
    · exact fun hdone => (hspec.done () hdone).2
    · intro hwell
      cases hexit : (validateUtf8Bytes kind len stop content p).exit with
      | done => rfl
      | failed e => exact absurd hwell (hspec.failed e hexit havailable)
      | unfinished => exact absurd hexit hspec.finished
  · have hreadable : Readable content (some (offset, len)) := by
      -- a key that is no text would have been none before every field
      by_contra hnot
      exact back_rounds (P := fun key => ¬ Readable content key)
        (fun _ _ _ _ h hnot hkey => hnot (attributeField_readable h hkey)) hnot _ none p hrange nofun
    rw [readScratch_eq hkey, isUtf8_iff]
    exact hreadable offset len rfl

/-- An attribute whose key ends with a character of two bytes. The first of them is
the last byte of its chunk. -/
def cutAttribute : Bytes := [10, 129, 2] ++ replicate 255 97 ++ [195, 169]

theorem utf8_exact_sample :
    (validateUtf8Bytes .geoSite 257 260 cutAttribute 3).exit = .done () ∧
      Returns cutAttribute (readAttribute 260) 0 (some (3, 257)) 260 ∧
      isUtf8 (cutAttribute.drop 3) = true := by
  have hkey : Returns cutAttribute (readAttribute 260) 0 (some (3, 257)) 260 := by decide +kernel
  have hscratch : Returns cutAttribute (readScratch .geoSite 3 257) 260 (cutAttribute.drop 3) 260 :=
    by decide +kernel
  refine ⟨((utf8_exact cutAttribute .geoSite 260 3).1 257 ⟨le_rfl, by decide, by decide +kernel⟩).2
    ⟨replicate 255 [97] ++ [[195, 169]], ?_, by decide +kernel⟩, hkey,
    (utf8_exact cutAttribute .geoSite 260 0).2 3 257 260 260 _ hkey hscratch⟩
  intro character hmem
  rcases mem_append.1 hmem with hmem | hmem
  · rw [eq_of_mem_replicate hmem]
    simp [Character]
  · rw [mem_singleton.1 hmem]
    simp [Character, Continues]

end Vole.Geodata
