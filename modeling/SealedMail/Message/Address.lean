import SealedMail.Codec.Record
import SealedMail.Crypto.Suite

/-!
# Node addresses

An address is written `host:port` and read at its last colon, so a host name may hold colons itself.
A port is decimal and may have one leading plus sign.
-/

namespace SealedMail

structure Address where
  host : String
  port : UInt16
  deriving DecidableEq, Repr

/-- Why a text is no address. -/
inductive AddressError where
  | missingPort (text : String)
  | emptyHost (text : String)
  | invalidPort (text : String)
  deriving DecidableEq, Repr

def AddressError.message : AddressError → String
  | .missingPort text => s!"Missing port in address: {text}"
  | .emptyHost text => s!"Empty host name in address: {text}"
  | .invalidPort text => s!"Invalid port in address: {text}"

namespace Address

instance : Codec Address :=
  .record (.field "host_name" <| .field "port" .nil) (fun a => (a.host, a.port, ()))
    fun (h, p, _) => ⟨h, p⟩

def chars (a : Address) : List Char := a.host.toList ++ ':' :: Decimal.chars a.port.toNat

def toText (a : Address) : String := String.ofList a.chars

/-- The parts before and after the last `sep`. -/
def splitLast? (sep : Char) : List Char → Option (List Char × List Char)
  | [] => none
  | c :: cs =>
    match splitLast? sep cs with
    | some (before, after) => some (c :: before, after)
    | none => if c = sep then some ([], cs) else none

def dropPlus : List Char → List Char
  | '+' :: cs => cs
  | cs => cs

def port? (cs : List Char) : Option UInt16 :=
  (Decimal.value? (dropPlus cs)).bind fun n => if n < 65536 then some (UInt16.ofNat n) else none

def ofText (text : String) : Except AddressError Address :=
  match splitLast? ':' text.toList with
  | none => .error (.missingPort text)
  | some ([], _) => .error (.emptyHost text)
  | some (host, port) =>
    match port? port with
    | some port => .ok ⟨String.ofList host, port⟩
    | none => .error (.invalidPort text)

/-- The digest of the first two characters, by which a recipient can tell early that a message is
not for it. -/
def prefixHash [Suite] (a : Address) : Octets 32 := digest (utf8 (String.ofList (a.chars.take 2)))

end Address

end SealedMail
