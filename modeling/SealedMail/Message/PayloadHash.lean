import SealedMail.Data.Hex

/-!
# Payload hashes

The content address of a payload, written as 64 hexadecimal digits.
-/

namespace SealedMail

abbrev PayloadHash := Octets 32

instance : KeyOrder PayloadHash := inferInstanceAs (KeyOrder (Octets 32))

/-- Why a text is no payload hash. -/
inductive HashError where
  | invalidHex (reason : String)
  | invalidLength (octets : Nat)
  deriving DecidableEq, Repr

def HashError.message : HashError → String
  | .invalidHex reason => s!"Invalid hex: {reason}"
  | .invalidLength octets => s!"Invalid hash length: expected 32, got {octets}"

namespace PayloadHash

def ofText (text : String) : Except HashError PayloadHash :=
  match Hex.decode (utf8 text) with
  | .error e => .error (.invalidHex e.message)
  | .ok bs =>
    match Octets.ofList? bs with
    | some hash => .ok hash
    | none => .error (.invalidLength bs.length)

def toText (hash : PayloadHash) : String := Hex.encode hash.toList

/-- The first four octets name a hash in messages. -/
def describe (hash : PayloadHash) : String := s!"PayloadHash({Hex.encode (hash.toList.take 4)}..)"

end PayloadHash

end SealedMail
