import Mathlib

/-!
# The text of a fingerprint

`base64_decode` and `hex_colon_decode` of `engine_impl.hpp`, and the order in which
`process_remote_sdp` tries them. The hexadecimal text of a digest is what
`compute_local_fingerprint` puts into a description.
-/

namespace NimRtc

namespace Fingerprint

/-- The value of a digit. -/
def base64Index (c : Char) : Option ℕ :=
  if 'A' ≤ c ∧ c ≤ 'Z' then some (c.toNat - 'A'.toNat)
  else if 'a' ≤ c ∧ c ≤ 'z' then some (26 + (c.toNat - 'a'.toNat))
  else if '0' ≤ c ∧ c ≤ '9' then some (52 + (c.toNat - '0'.toNat))
  else if c = '+' then some 62
  else if c = '/' then some 63
  else none

/-- The loop of `base64_decode`, with its accumulator `val` of 32 bits and the number of bits that
are not written yet. -/
def base64Loop : List Char → ℕ → ℕ → List UInt8
  | [], _, _ => []
  | c :: cs, val, bits =>
    if c = '=' then []
    else
      match base64Index c with
      | none => base64Loop cs val bits
      | some idx =>
        let val := (val * 64 + idx) % 2 ^ 32
        let bits := bits + 6
        if 8 ≤ bits then
          UInt8.ofNat (val / 2 ^ (bits - 8) % 256) :: base64Loop cs val (bits - 8)
        else base64Loop cs val bits

/-- `base64_decode` -/
def base64Decode (s : String) : List UInt8 := base64Loop s.toList 0 0

/-- The value of a digit, in either case. -/
def hexDigit (c : Char) : Option ℕ :=
  if '0' ≤ c ∧ c ≤ '9' then some (c.toNat - '0'.toNat)
  else if 'A' ≤ c ∧ c ≤ 'F' then some (10 + (c.toNat - 'A'.toNat))
  else if 'a' ≤ c ∧ c ≤ 'f' then some (10 + (c.toNat - 'a'.toNat))
  else none

/-- The loop of `hex_colon_decode`, `hi` being the digit that waits for its second. The text is
malformed if there is no result. -/
def hexColonLoop : List Char → Option ℕ → Option (List UInt8)
  | [], none => some []
  | [], some _ => none
  | c :: cs, hi =>
    if c = ':' ∨ c = ' ' ∨ c = '\t' then
      match hi with
      | none => hexColonLoop cs none
      | some _ => none
    else
      match hexDigit c, hi with
      | none, _ => none
      | some v, none => hexColonLoop cs (some v)
      | some v, some h => (UInt8.ofNat (h * 16 + v) :: ·) <$> hexColonLoop cs none

/-- `hex_colon_decode`, which is empty for a malformed text. -/
def hexColonDecode (s : String) : List UInt8 := (hexColonLoop s.toList none).getD []

/-- The value `process_remote_sdp` gives to `set_peer_fingerprint`. -/
def decode (s : String) : List UInt8 :=
  match hexColonDecode s with
  | [] => base64Decode s
  | bytes => bytes

/-- A digit, in upper case. -/
def hexChar (n : ℕ) : Char :=
  if n < 10 then Char.ofNat ('0'.toNat + n) else Char.ofNat ('A'.toNat + (n - 10))

/-- The two digits of a byte. -/
def hexByte (b : UInt8) : List Char := [hexChar (b.toNat / 16), hexChar (b.toNat % 16)]

/-- The characters of `hex_colon`: two upper-case digits a byte, with a colon between bytes. -/
def hexColonChars : List UInt8 → List Char
  | [] => []
  | [b] => hexByte b
  | b :: bs => hexByte b ++ ':' :: hexColonChars bs

/-- `hex_colon` -/
def hexColon (bytes : List UInt8) : String := String.ofList (hexColonChars bytes)

end Fingerprint

end NimRtc
