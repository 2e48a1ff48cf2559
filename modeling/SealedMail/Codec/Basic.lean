import SealedMail.Data.SortedMap
import SealedMail.Json.Reader

/-!
# Codecs

A `Codec` writes a value in two ways: as octets that say themselves where they end, so that `get`
may be followed by anything, and as a JSON value. `fits` holds of the values whose lengths the octet
form can count.
-/

namespace SealedMail

class Codec (α : Type) where
  put : α → Bytes
  get : Bytes → Option (α × Bytes)
  toJson : α → Json
  ofJson? : Json → Option α
  /-- What a member that is left out of an object stands for. -/
  absent : Option α := none
  fits : α → Prop := fun _ => True

namespace Codec

variable {α β : Type}

/-- The value in front; what follows it is ignored. -/
def ofOctets? [Codec α] (bs : Bytes) : Option α := (get bs).map (·.1)

def toText [Codec α] (a : α) : Bytes := (toJson a).render

def ofText? [Codec α] (bs : Bytes) : Option α := (Json.parse? bs).bind ofJson?

/-- Values written like those of another type, to which they correspond one to one. -/
@[reducible] def via (c : Codec β) (view : α → β) (make : β → α) : Codec α where
  put a := c.put (view a)
  get bs := (c.get bs).map fun (b, rest) => (make b, rest)
  toJson a := c.toJson (view a)
  ofJson? j := (c.ofJson? j).map make
  absent := c.absent.map make
  fits a := c.fits (view a)

/-! ## Numbers and truth values -/

/-- Numbers that fit into `w` octets, with the least significant first. -/
@[reducible] def number (w : Nat) (toNat : α → Nat) (ofNat : Nat → α) : Codec α where
  put a := littleEndian w (toNat a)
  get bs := if w ≤ bs.length then some (ofNat (ofLittleEndian (bs.take w)), bs.drop w) else none
  toJson a := .ofNat (toNat a)
  ofJson? j := j.toNat?.bind fun n => if n < octetRange w then some (ofNat n) else none

instance : Codec UInt8 := number 1 UInt8.toNat UInt8.ofNat
instance : Codec UInt16 := number 2 UInt16.toNat UInt16.ofNat
instance : Codec UInt32 := number 4 UInt32.toNat UInt32.ofNat
instance : Codec UInt64 := number 8 UInt64.toNat UInt64.ofNat

/-- A tag of one octet. -/
def getFlag : Bytes → Option (Bool × Bytes)
  | b :: bs => if b = 0 then some (false, bs) else if b = 1 then some (true, bs) else none
  | [] => none

instance : Codec Bool where
  put b := [if b then 1 else 0]
  get := getFlag
  toJson b := .bool b
  ofJson? | .bool b => some b | _ => none

/-! ## Octets and texts -/

def maxLength : Nat := octetRange 8

def putCount (n : Nat) : Bytes := littleEndian 8 n

def getCount (bs : Bytes) : Option (Nat × Bytes) :=
  if 8 ≤ bs.length then some (ofLittleEndian (bs.take 8), bs.drop 8) else none

/-- Octets behind their number. -/
def putCounted (bs : Bytes) : Bytes := putCount bs.length ++ bs

def getCounted (bs : Bytes) : Option (Bytes × Bytes) := do
  let (n, bs) ← getCount bs
  if n ≤ bs.length then some (bs.take n, bs.drop n) else none

instance : Codec String where
  put s := putCounted (utf8 s)
  get bs := do
    let (raw, rest) ← getCounted bs
    some (← ofUtf8? raw, rest)
  toJson := .ofString
  ofJson? := Json.toString?
  fits s := (utf8 s).length < maxLength

def octetsToJson (bs : Bytes) : Json := .array (bs.map fun b => .ofNat b.toNat)

def octetsOfJson? : Json → Option Bytes
  | .array items => items.mapM (ofJson? (α := UInt8))
  | _ => none

instance : Codec Bytes where
  put := putCounted
  get := getCounted
  toJson := octetsToJson
  ofJson? := octetsOfJson?
  fits bs := bs.length < maxLength

/-- Octets of a known number need no count. -/
instance (n : Nat) : Codec (Octets n) where
  put a := a.toList
  get := Octets.take?
  toJson a := octetsToJson a.toList
  ofJson? j := (octetsOfJson? j).bind Octets.ofList?

/-- Octets of a known number that are counted all the same, and that JSON may also give as a
text. -/
@[reducible] def countedOctets (n : Nat) : Codec (Octets n) where
  put a := putCounted a.toList
  get bs := do
    let (raw, rest) ← getCounted bs
    some (← Octets.ofList? raw, rest)
  toJson a := octetsToJson a.toList
  ofJson?
    | .text raw => (Json.octets? raw).bind Octets.ofList?
    | j => (octetsOfJson? j).bind Octets.ofList?
  fits _ := n < maxLength

/-! ## Values that may be missing, lists and sorted collections -/

instance [c : Codec α] : Codec (Option α) where
  put
    | none => [0]
    | some a => 1 :: c.put a
  get bs := do
    let (present, rest) ← getFlag bs
    if present then (c.get rest).map fun (a, rest) => (some a, rest) else some (none, rest)
  toJson
    | none => .null
    | some a => c.toJson a
  ofJson?
    | .null => some none
    | j => (c.ofJson? j).map some
  absent := some none
  fits a := ∀ x ∈ a, c.fits x

/-- The next `n` values. -/
def getMany (get : Bytes → Option (α × Bytes)) : Nat → Bytes → Option (List α × Bytes)
  | 0, bs => some ([], bs)
  | n + 1, bs => do
    let (a, rest) ← get bs
    let (as, rest) ← getMany get n rest
    some (a :: as, rest)

def putList [Codec α] (as : List α) : Bytes := putCount as.length ++ as.flatMap put

def getList [Codec α] (bs : Bytes) : Option (List α × Bytes) := do
  let (n, rest) ← getCount bs
  getMany get n rest

/-- Values behind their number. Octets are counted the same way by an instance of their own. -/
@[reducible] def list [c : Codec α] : Codec (List α) where
  put := putList
  get := getList
  toJson as := .array (as.map c.toJson)
  ofJson?
    | .array items => items.mapM c.ofJson?
    | _ => none
  fits as := as.length < maxLength ∧ ∀ a ∈ as, c.fits a

section Sorted

variable {κ ν : Type} [LT κ] [DecidableEq κ] [DecidableLT κ] [KeyOrder κ]

/-- A set is written like the list of its members in order; reading takes any order, and
repetitions. -/
@[reducible] def sortedSet [Codec κ] : Codec (SortedSet κ) :=
  via list SortedMap.keys fun ks => SortedMap.ofList (ks.map (·, ()))

end Sorted

def pair [a : Codec α] [b : Codec β] (bs : Bytes) : Option ((α × β) × Bytes) := do
  let (x, rest) ← a.get bs
  let (y, rest) ← b.get rest
  some ((x, y), rest)

/-- Bindings of texts in order; JSON writes them as an object. The last binding of a text counts. -/
@[reducible] def textMap [c : Codec α] : Codec (SortedMap String α) where
  put m := putCount m.size ++ m.entries.flatMap fun (k, a) => put k ++ c.put a
  get bs := do
    let (n, rest) ← getCount bs
    let (es, rest) ← getMany pair n rest
    some (.ofList es, rest)
  toJson m := .object (m.entries.map fun (k, a) => (Json.escape (utf8 k), c.toJson a))
  ofJson?
    | .object members =>
      (members.mapM fun (raw, j) => do some (← Json.text? raw, ← c.ofJson? j)).map .ofList
    | _ => none
  fits m := m.size < maxLength ∧ ∀ e ∈ m.entries, Codec.fits e.1 ∧ c.fits e.2

end Codec

end SealedMail
