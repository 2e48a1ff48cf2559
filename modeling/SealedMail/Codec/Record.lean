import SealedMail.Codec.Basic

/-!
# Records and alternatives

Records are put member by member. As JSON they are written as objects and read from objects or from
arrays of their members in order; an object may hold other members, which are skipped, but none of
its own twice. An alternative is a tag of four octets, and in JSON a name, alone or with its
content.
-/

namespace SealedMail.Codec

/-- The members of a record in order, with their names. -/
structure Fields (ρ : Type) where
  names : List String
  put : ρ → Bytes
  get : Bytes → Option (ρ × Bytes)
  toMembers : ρ → List (String × Json)
  ofMembers? : List (String × Json) → Option ρ
  ofItems? : List Json → Option ρ
  fits : ρ → Prop

namespace Fields

def nil : Fields Unit where
  names := []
  put _ := []
  get bs := some ((), bs)
  toMembers _ := []
  ofMembers? _ := some ()
  ofItems? items := if items.isEmpty then some () else none
  fits _ := True

/-- A member in front. Left out of an object it is `missing`, past the end of an array it is
`beyond`. -/
def cons {α ρ : Type} (name : String) (c : Codec α) (missing beyond : Option α) (fs : Fields ρ) :
    Fields (α × ρ) where
  names := name :: fs.names
  put r := c.put r.1 ++ fs.put r.2
  get bs := do
    let (a, rest) ← c.get bs
    let (r, rest) ← fs.get rest
    some ((a, r), rest)
  toMembers r := (name, c.toJson r.1) :: fs.toMembers r.2
  ofMembers? members := do
    let a ← match members.find? (·.1 = name) with
      | some (_, j) => c.ofJson? j
      | none => missing
    let r ← fs.ofMembers? members
    some (a, r)
  ofItems?
    | [] => do
      let a ← beyond
      let r ← fs.ofItems? []
      some (a, r)
    | j :: js => do
      let a ← c.ofJson? j
      let r ← fs.ofItems? js
      some (a, r)
  fits r := c.fits r.1 ∧ fs.fits r.2

/-- A member that has to be there, unless its type says what leaving it out means. -/
def field {α ρ : Type} (name : String) [c : Codec α] (fs : Fields ρ) : Fields (α × ρ) :=
  cons name c c.absent none fs

/-- A member that may be left out. -/
def fieldOr {α ρ : Type} (name : String) (default : α) [c : Codec α] (fs : Fields ρ) :
    Fields (α × ρ) :=
  cons name c (some default) (some default) fs

variable {ρ : Type}

/-- Members whose names are read; other members may be anything that can be skipped. -/
def admits (fs : Fields ρ) (members : List (String × Json)) : Bool :=
  members.all (fun m => m.1 ∈ fs.names || m.2.isSkippable) &&
    fs.names.all fun name => members.countP (·.1 = name) ≤ 1

def toJson (fs : Fields ρ) (r : ρ) : Json :=
  .object ((fs.toMembers r).map fun (name, j) => (Json.escape (utf8 name), j))

def ofJson? (fs : Fields ρ) : Json → Option ρ
  | .object members => do
    let members ← members.mapM fun (raw, j) => do some (← Json.text? raw, j)
    if fs.admits members then fs.ofMembers? members else none
  | .array items => fs.ofItems? items
  | _ => none

end Fields

@[reducible] def record {α ρ : Type} (fs : Fields ρ) (view : α → ρ) (make : ρ → α) : Codec α where
  put a := fs.put (view a)
  get bs := (fs.get bs).map fun (r, rest) => (make r, rest)
  toJson a := fs.toJson (view a)
  ofJson? j := (fs.ofJson? j).map make
  fits a := fs.fits (view a)

/-! ## Alternatives -/

def putTag (n : Nat) : Bytes := littleEndian 4 n

def getTag (bs : Bytes) : Option (Nat × Bytes) :=
  if 4 ≤ bs.length then some (ofLittleEndian (bs.take 4), bs.drop 4) else none

/-- The name and the content of an alternative; a name alone has no content. -/
def alternative? : Json → Option (String × Option Json)
  | .text raw => (Json.text? raw).map (·, none)
  | .object [(raw, j)] => (Json.text? raw).map (·, some j)
  | _ => none

def alternative (name : String) (content : Json) : Json :=
  .object [(Json.escape (utf8 name), content)]

/-- One of finitely many named values, tagged by its place among them. -/
@[reducible] def enumeration {α : Type} [DecidableEq α] (all : List α) (name : α → String) :
    Codec α where
  put a := putTag (all.idxOf a)
  get bs := do
    let (n, rest) ← getTag bs
    some (← all[n]?, rest)
  toJson a := .ofString (name a)
  ofJson? j :=
    match alternative? j with
    | some (s, none) | some (s, some .null) => all.find? (name · = s)
    | _ => none

/-- A value of one of two types, tagged 0 or 1. -/
@[reducible] def either {α β : Type} (left : String) (a : Codec α) (right : String) (b : Codec β) :
    Codec (α ⊕ β) where
  put
    | .inl x => putTag 0 ++ a.put x
    | .inr y => putTag 1 ++ b.put y
  get bs := do
    let (n, rest) ← getTag bs
    if n = 0 then (a.get rest).map fun (x, rest) => (.inl x, rest)
    else if n = 1 then (b.get rest).map fun (y, rest) => (.inr y, rest)
    else none
  toJson
    | .inl x => alternative left (a.toJson x)
    | .inr y => alternative right (b.toJson y)
  ofJson? j :=
    match alternative? j with
    | some (name, some content) =>
      if name = left then (a.ofJson? content).map .inl
      else if name = right then (b.ofJson? content).map .inr
      else none
    | _ => none
  fits
    | .inl x => a.fits x
    | .inr y => b.fits y

end SealedMail.Codec
