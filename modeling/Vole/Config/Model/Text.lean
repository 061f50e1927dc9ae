import Vole.Common.Bytes
import Vole.Common.Utf8

/-!
# Texts of the configuration

`RawRealitySettings::normalize` reads the short id of REALITY pair by
pair, and `reject_yaml_anchors_and_aliases` is a lexical pass over the
whole file before it is parsed. Both work on the bytes of a text.
-/

namespace Vole.Config

/-! ## The short id -/

/-- `char::to_digit(16)`. -/
def hexDigit (byte : UInt8) : Option ℕ :=
  if 0x30 ≤ byte ∧ byte ≤ 0x39 then some (byte.toNat - 0x30)
  else if 0x61 ≤ byte ∧ byte ≤ 0x66 then some (byte.toNat - 0x57)
  else if 0x41 ≤ byte ∧ byte ≤ 0x46 then some (byte.toNat - 0x37)
  else none

/-- The digits of a `u8`. -/
def hexDigits (digits : Bytes) : Option ℕ :=
  digits.foldlM (fun value byte => (hexDigit byte).bind fun digit =>
    if 16 * value + digit < 256 then some (16 * value + digit) else none) 0

/-- `u8::from_str_radix(src, 16)`: one plus sign may stand first. -/
def fromStrRadix : Bytes → Option ℕ
  | [] => none
  | [0x2b] => none
  | [0x2d] => none
  | 0x2b :: digits => hexDigits digits
  | src => hexDigits src

/-- `as_chunks::<2>().0`. -/
def pairs : Bytes → List Bytes
  | first :: second :: rest => [first, second] :: pairs rest
  | _ => []

/-- How `normalize` ends besides with a configuration: with an error, or
with the panic of an `expect`. -/
inductive RealityFault where
  | invalidConfig (message : String)
  | panicked (message : String)
  deriving DecidableEq, Repr

/-- The loop over the pairs. -/
def readShortId : List Bytes → Except RealityFault Bytes
  | [] => .ok []
  | pair :: rest =>
    if !Utf8.isUtf8 pair then .error (.panicked "hex input is UTF-8")
    else match fromStrRadix pair with
      | none => .error (.invalidConfig "invalid REALITY short-id")
      | some byte => (readShortId rest).map (UInt8.ofNat byte :: ·)

/-- `config::RawRealitySettings`. -/
structure RawRealitySettings where
  publicKey : Bytes
  shortId : Bytes
  supportX25519mlkem768 : Bool

/-- `config::RealityConfig`, as `normalize` fills it. -/
structure RealityConfig where
  supportX25519mlkem768 : Bool
  serverName : Bytes
  publicKey : Bytes
  shortId : Bytes
  alpn : List Bytes
  deriving DecidableEq, Repr

/-- `URL_SAFE_NO_PAD`. -/
structure Base64 where
  decode : Bytes → Option Bytes
  encode : Bytes → Bytes

def RawRealitySettings.normalize (base64 : Base64) (self : RawRealitySettings)
    (serverName : Bytes) : Except RealityFault RealityConfig :=
  match base64.decode self.publicKey with
  | none => .error (.invalidConfig "invalid REALITY public-key")
  | some publicKey =>
    if publicKey.length ≠ 32 then .error (.invalidConfig "invalid REALITY public-key length")
    else if base64.encode publicKey ≠ self.publicKey then
      .error (.invalidConfig "REALITY public-key must use canonical unpadded base64url")
    else if 16 < self.shortId.length ∨ self.shortId.length % 2 ≠ 0 then
      .error (.invalidConfig
        "REALITY short-id must be at most 16 even-numbered hex characters")
    else (readShortId (pairs self.shortId)).map fun shortId =>
      ⟨self.supportX25519mlkem768, serverName, publicKey, shortId, [[0x68, 0x32]]⟩

/-! ## Anchors and aliases -/

/-- `u8::is_ascii_whitespace`. -/
def isAsciiWhitespace (byte : UInt8) : Bool := byte ∈ [0x20, 0x09, 0x0a, 0x0c, 0x0d]

/-- The three flags of the pass, of which one at most is set. -/
inductive YamlMode where
  | plain
  | comment
  | singleQuoted
  | doubleQuoted
  deriving DecidableEq, Repr

/-- Whitespace, or one of `[{,:?-`. -/
def endsNode (byte : UInt8) : Bool :=
  isAsciiWhitespace byte || byte ∈ [0x5b, 0x7b, 0x2c, 0x3a, 0x3f, 0x2d]

/-- `is_yaml_node_boundary`, of the byte before an indicator and of what
comes after it: nothing that begins with one of `[]{}:,#`. -/
def isYamlNodeBoundary (previous : Option UInt8) (rest : Bytes) : Bool :=
  previous.all endsNode && rest.head?.any fun next =>
    !isAsciiWhitespace next && next ∉ [0x5b, 0x5d, 0x7b, 0x7d, 0x3a, 0x2c, 0x23]

end Vole.Config
