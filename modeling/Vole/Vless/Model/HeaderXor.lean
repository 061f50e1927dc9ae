import Vole.Common.Bytes
import Vole.Common.Endian

/-!
# The masking of VLESS Encryption headers

After Vision has switched to direct copying, the headers of the TLS records that
pass are masked with the CTR stream, and their bodies are left as they are.
-/

namespace Vole.Vless

/-- `crypto::Ctr`: a stream of bytes, and how much of it was used. -/
structure Ctr where
  stream : ℕ → UInt8
  position : ℕ

namespace Ctr

/-- `Ctr::apply`. -/
def apply (data : Bytes) (self : Ctr) : Bytes × Ctr :=
  (data.mapIdx fun i byte => byte ^^^ self.stream (self.position + i),
    { self with position := self.position + data.length })

end Ctr

/-- `header_xor::HeaderXor`. `header` is the part of it that is filled. -/
structure HeaderXor where
  header : Bytes
  remaining : ℕ
  short : header.length < 5

namespace HeaderXor

/-- `HeaderXor::default`. -/
def default : HeaderXor := ⟨[], 0, by decide⟩

/-- The state after a header is complete. -/
def ofHeader : Bytes → HeaderXor
  | [23, 3, 3, high, low] => ⟨[], ofBe16 high low, by decide⟩
  | _ => default

/-- `HeaderXor::apply`. -/
def apply (self : HeaderXor) (ctr : Ctr) (bytes : Bytes) (decrypt : Bool) :
    Bytes × HeaderXor × Ctr :=
  if _h : bytes = [] then ([], self, ctr)
  else if self.remaining ≠ 0 then
    let count := min self.remaining bytes.length
    let (rest, last, ctr) :=
      apply { self with remaining := self.remaining - count } ctr (bytes.drop count) decrypt
    (bytes.take count ++ rest, last, ctr)
  else
    let count := min (5 - self.header.length) bytes.length
    let (part, ctr) := ctr.apply (bytes.take count)
    let header := self.header ++ if decrypt then part else bytes.take count
    let next := if short : header.length < 5 then ⟨header, 0, short⟩ else ofHeader header
    let (rest, last, ctr) := apply next ctr (bytes.drop count) decrypt
    (part ++ rest, last, ctr)
termination_by bytes.length
decreasing_by
  · have hpos : 0 < bytes.length := List.length_pos_iff.mpr _h
    rw [List.length_drop]
    omega
  · have hpos : 0 < bytes.length := List.length_pos_iff.mpr _h
    have hshort := self.short
    rw [List.length_drop]
    omega

end HeaderXor

end Vole.Vless
