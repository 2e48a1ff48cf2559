import SealedMail.Json.Basic
import SealedMail.Data.Hex

/-!
# Texts between quotes

`escape` writes octets so that they may stand between quotes: quotes, backslashes and control
characters are escaped, all else stands for itself. Reading has three strengths. `text?` asks for
well-formed text, `octets?` also takes control characters and lone surrogates, and `isSkippable`
only asks that escapes are complete and that no control character stands bare.
-/

namespace SealedMail.Json

def backslash : UInt8 := '\\'.toUInt8

/-- Escapes of one letter: the letter and the octet it stands for. -/
def shortEscapes : List (UInt8 × UInt8) :=
  [('"', 34), ('\\', 92), ('b', 8), ('f', 12), ('n', 10), ('r', 13), ('t', 9)].map
    fun e => (Char.toUInt8 e.1, e.2)

/-- The written form of one octet. -/
def escapeOctet (b : UInt8) : Bytes :=
  match shortEscapes.find? fun e => e.2 = b with
  | some e => [backslash, e.1]
  | none =>
    if b < 0x20 then
      [backslash] ++ ascii ['u', '0', '0', Hex.digit (b.toNat / 16), Hex.digit (b.toNat % 16)]
    else [b]

def escape (bs : Bytes) : Bytes := bs.flatMap escapeOctet

/-! ## Escapes -/

/-- What a text is made of: octets, and UTF-16 code units written as escapes. -/
inductive Piece where
  | octet (b : UInt8)
  | unit (n : Nat)
  deriving DecidableEq, Repr

/-- The octet that an escape of one letter stands for; a slash may be escaped too. -/
def shortEscape? (letter : UInt8) : Option UInt8 :=
  if letter = '/'.toUInt8 then some letter
  else (shortEscapes.find? fun e => e.1 = letter).map (·.2)

/-- The code unit of four hexadecimal digits. -/
def unit? (a b c d : UInt8) : Option Nat :=
  match Hex.value? a, Hex.value? b, Hex.value? c, Hex.value? d with
  | some a, some b, some c, some d => some (((a * 16 + b) * 16 + c) * 16 + d)
  | _, _, _, _ => none

/-- Undo escapes, unless one is incomplete or unknown. -/
def textPieces? : Bytes → Option (List Piece)
  | [] => some []
  | b :: bs =>
    if b ≠ backslash then (textPieces? bs).map (.octet b :: ·)
    else match bs with
      | [] => none
      | letter :: bs =>
        if letter = 'u'.toUInt8 then match bs with
          | a :: b :: c :: d :: bs =>
            (unit? a b c d).bind fun n => (textPieces? bs).map (.unit n :: ·)
          | _ => none
        else (shortEscape? letter).bind fun b => (textPieces? bs).map (.octet b :: ·)

/-- The octets of a code point, a surrogate written like any other. -/
def codePoint (n : Nat) : Bytes :=
  let tail (k : Nat) : UInt8 := UInt8.ofNat (0x80 + n / k % 64)
  if n < 0x80 then [UInt8.ofNat n]
  else if n < 0x800 then [UInt8.ofNat (0xC0 + n / 64), tail 1]
  else if n < 0x10000 then [UInt8.ofNat (0xE0 + n / 4096), tail 64, tail 1]
  else [UInt8.ofNat (0xF0 + n / 262144), tail 4096, tail 64, tail 1]

def isLeading (n : Nat) : Bool := 0xD800 ≤ n && n < 0xDC00

def isTrailing (n : Nat) : Bool := 0xDC00 ≤ n && n < 0xE000

/-- The octets of a code unit on its own; `lone` decides about surrogates. -/
def singleUnit (lone : Nat → Option Bytes) (n : Nat) : Option Bytes :=
  if isLeading n || isTrailing n then lone n else some (codePoint n)

/-- The code point of a leading and a trailing surrogate. -/
def surrogatePair (n m : Nat) : Nat := 0x10000 + (n - 0xD800) * 0x400 + (m - 0xDC00)

/-- A leading and a trailing surrogate in a row are one code point. -/
def joinPieces (lone : Nat → Option Bytes) : List Piece → Option Bytes
  | [] => some []
  | .octet b :: ps => (joinPieces lone ps).map (b :: ·)
  | .unit n :: .unit m :: ps =>
    if isLeading n && isTrailing m then
      (joinPieces lone ps).map (codePoint (surrogatePair n m) ++ ·)
    else (singleUnit lone n).bind fun bs => (joinPieces lone (.unit m :: ps)).map (bs ++ ·)
  | .unit n :: ps => (singleUnit lone n).bind fun bs => (joinPieces lone ps).map (bs ++ ·)

/-! ## Reading -/

def hasBareControl (raw : Bytes) : Bool := raw.any (· < 0x20)

/-- The text between quotes. -/
def text? (raw : Bytes) : Option String :=
  if hasBareControl raw then none
  else ((textPieces? raw).bind (joinPieces fun _ => none)).bind ofUtf8?

/-- The octets between quotes, well-formed text or not. -/
def octets? (raw : Bytes) : Option Bytes :=
  (textPieces? raw).bind (joinPieces fun n => some (codePoint n))

/-- What may stand between quotes where nobody looks. -/
def isRawSkippable (raw : Bytes) : Bool := !hasBareControl raw && (textPieces? raw).isSome

def ofString (s : String) : Json := .text (escape (utf8 s))

def toString? : Json → Option String
  | .text raw => text? raw
  | _ => none

mutual

/-- Whether all texts inside a value, keys included, may stand where nobody looks. -/
def isSkippable : Json → Bool
  | .text raw => isRawSkippable raw
  | .array items => areSkippable items
  | .object members => areMembersSkippable members
  | _ => true

def areSkippable : List Json → Bool
  | [] => true
  | item :: items => item.isSkippable && areSkippable items

def areMembersSkippable : List (Bytes × Json) → Bool
  | [] => true
  | (key, value) :: members =>
    isRawSkippable key && value.isSkippable && areMembersSkippable members

end

end SealedMail.Json
