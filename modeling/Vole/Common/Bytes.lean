import Mathlib.Data.List.Basic

/-!
# Byte strings

A Rust `str` or `[u8]` is the list of its bytes. The operations here are
the ones of the standard library the development reads: they act on
bytes, and on a `str` they agree with the character operations of the
same name because every byte they look for is ASCII.
-/

namespace Vole

/-- The bytes of a Rust `str` or byte slice. -/
abbrev Bytes := List UInt8

namespace Bytes

/-- The bytes of a string literal. -/
def ofString (s : String) : Bytes := s.toUTF8.data.toList

/-- `u8::is_ascii`. -/
def isAsciiByte (b : UInt8) : Bool := b < 128

/-- `u8::is_ascii_digit`. -/
def isDigit (b : UInt8) : Bool := 48 ≤ b && b ≤ 57

/-- `u8::is_ascii_alphabetic`. -/
def isAlpha (b : UInt8) : Bool := (65 ≤ b && b ≤ 90) || (97 ≤ b && b ≤ 122)

/-- `u8::is_ascii_alphanumeric`. -/
def isAlphanumeric (b : UInt8) : Bool := isDigit b || isAlpha b

/-- `u8::is_ascii_control`. -/
def isControl (b : UInt8) : Bool := b < 32 || b == 127

/-- `u8::to_ascii_lowercase`. -/
def lowerByte (b : UInt8) : UInt8 := if 65 ≤ b && b ≤ 90 then b + 32 else b

/-- `str::to_ascii_lowercase` and `str::make_ascii_lowercase`. -/
def toAsciiLowercase (s : Bytes) : Bytes := s.map lowerByte

/-- `str::is_ascii`. -/
def isAscii (s : Bytes) : Bool := s.all isAsciiByte

/-- `str::eq_ignore_ascii_case`. -/
def eqIgnoreAsciiCase (s t : Bytes) : Bool := toAsciiLowercase s == toAsciiLowercase t

/-- `str::contains` for a string pattern. -/
def contains (s pattern : Bytes) : Bool := s.tails.any fun t => pattern.isPrefixOf t

/-- `str::strip_suffix` for one byte, the string itself where it does not
end in it: `s.strip_suffix(c).unwrap_or(s)`. -/
def dropFinal (c : UInt8) (s : Bytes) : Bytes := if s.getLast? = some c then s.dropLast else s

end Bytes

end Vole
