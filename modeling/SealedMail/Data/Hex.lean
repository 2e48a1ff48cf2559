import SealedMail.Data.Text

/-!
# Hexadecimal text

`encode` writes two lowercase digits an octet; `decode` reads digits of either case from the octets
of a text. An odd number of digits is reported before a character that is no digit.
-/

namespace SealedMail.Hex

def digit (n : Nat) : Char := "0123456789abcdef".toList.getD n '0'

/-- The digits of one octet, high half first. -/
def octetDigits (b : UInt8) : List Char := [digit (b.toNat / 16), digit (b.toNat % 16)]

def encode (bs : Bytes) : String := String.ofList (bs.flatMap octetDigits)

/-- The value of an ASCII hexadecimal digit. -/
def value? (c : UInt8) : Option Nat :=
  if 48 ≤ c ∧ c ≤ 57 then some (c.toNat - 48)
  else if 97 ≤ c ∧ c ≤ 102 then some (c.toNat - 87)
  else if 65 ≤ c ∧ c ≤ 70 then some (c.toNat - 55)
  else none

def charValue? (c : Char) : Option Nat :=
  if c.toNat < 128 then value? c.toUInt8 else none

inductive Error where
  | oddLength
  | invalidDigit (octet : UInt8) (position : Nat)
  deriving DecidableEq, Repr

/-- Read digits in pairs; `i` is the position of the first. -/
def decodePairs (i : Nat) : Bytes → Except Error Bytes
  | hi :: lo :: rest =>
    match value? hi, value? lo with
    | none, _ => .error (.invalidDigit hi i)
    | _, none => .error (.invalidDigit lo (i + 1))
    | some h, some l => (decodePairs (i + 2) rest).map (UInt8.ofNat (16 * h + l) :: ·)
  | _ => .ok []

def decode (text : Bytes) : Except Error Bytes :=
  if text.length % 2 = 1 then .error .oddLength else decodePairs 0 text

/-- Lowercase hexadecimal digits of a number without leading zeros. -/
def ofNat (n : Nat) : String := String.ofList (Nat.toDigits 16 n)

/-- A quoted character as it is shown in messages: control characters, blanks other than the space,
the soft hyphen, the single quote and the backslash are escaped. Covers the first 256 characters. -/
def quoted (octet : UInt8) : String :=
  let n := octet.toNat
  let shown :=
    if n = 0 then "\\0"
    else if n = 9 then "\\t"
    else if n = 10 then "\\n"
    else if n = 13 then "\\r"
    else if n = 39 then "\\'"
    else if n = 92 then "\\\\"
    else if n < 32 ∨ (127 ≤ n ∧ n ≤ 160) ∨ n = 173 then "\\u\x7b" ++ ofNat n ++ "\x7d"
    else String.singleton (Char.ofNat n)
  "'" ++ shown ++ "'"

def Error.message : Error → String
  | .oddLength => "Odd number of digits"
  | .invalidDigit octet position => s!"Invalid character {quoted octet} at position {position}"

end SealedMail.Hex
