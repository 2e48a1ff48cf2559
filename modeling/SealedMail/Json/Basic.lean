import SealedMail.Data.Decimal
import SealedMail.Data.Text

/-!
# JSON values

A `Json` value keeps numbers and texts as they are written: a number is its numeral and a text is
the octets between its quotes, escapes included. So a value that nobody looks at is never
interpreted, and `Json.render` writes every value back without blanks.
-/

namespace SealedMail

inductive Json where
  | null
  | bool (b : Bool)
  | number (numeral : Bytes)
  | text (raw : Bytes)
  | array (items : List Json)
  | object (members : List (Bytes × Json))
  deriving Repr, Inhabited

/-- The octets of ASCII characters. -/
def ascii (cs : List Char) : Bytes := cs.map Char.toUInt8

namespace Json

def ofNat (n : Nat) : Json := .number (Decimal.octets n)

/-- The number that a numeral without sign, fraction and exponent stands for. -/
def toNat? : Json → Option Nat
  | .number numeral => Decimal.ofOctets? numeral
  | _ => none

@[simp] theorem toNat?_ofNat (n : Nat) : (ofNat n).toNat? = some n := Decimal.ofOctets?_octets n

/-! ## Rendering -/

def quote : UInt8 := '"'.toUInt8

def quotation (raw : Bytes) : Bytes := quote :: raw ++ [quote]

mutual

def render : Json → Bytes
  | .null => ascii ['n', 'u', 'l', 'l']
  | .bool true => ascii ['t', 'r', 'u', 'e']
  | .bool false => ascii ['f', 'a', 'l', 's', 'e']
  | .number numeral => numeral
  | .text raw => quotation raw
  | .array [] => ascii ['[', ']']
  | .array (item :: items) => ascii ['['] ++ item.render ++ renderItems items
  | .object [] => ascii ['{', '}']
  | .object ((key, value) :: members) =>
    ascii ['{'] ++ quotation key ++ ascii [':'] ++ value.render ++ renderMembers members

/-- The items after the first, each behind a comma, and the closing bracket. -/
def renderItems : List Json → Bytes
  | [] => ascii [']']
  | item :: items => ascii [','] ++ item.render ++ renderItems items

/-- The members after the first, each behind a comma, and the closing brace. -/
def renderMembers : List (Bytes × Json) → Bytes
  | [] => ascii ['}']
  | (key, value) :: members =>
    ascii [','] ++ quotation key ++ ascii [':'] ++ value.render ++ renderMembers members

end

end Json

end SealedMail
