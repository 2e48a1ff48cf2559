import SealedMail.Toml.Scalar
import SealedMail.Toml.Table

/-!
# TOML documents

A document is a sequence of lines: comments, headers, and keys with values. `Toml.parse?` reads it
as one JSON object. Values may be nested, and keys dotted, fewer than eighty deep.
-/

namespace SealedMail.Toml

def depthLimit : Nat := 80

def skipBlanks (cs : List Char) : List Char := cs.dropWhile isBlank

def skipComment : List Char → List Char
  | '#' :: cs => cs.dropWhile isPlain
  | cs => cs

/-- Blanks, line ends and comments. -/
def skipLines : (inComment : Bool) → List Char → List Char
  | _, '\n' :: cs => skipLines false cs
  | true, c :: cs => if isPlain c then skipLines true cs else c :: cs
  | false, c :: cs =>
    if isBlank c then skipLines false cs
    else if c = '#' then skipLines true cs
    else c :: cs
  | _, [] => []

/-- What follows the character `c`, blanks before it skipped. -/
def expect? (c : Char) (cs : List Char) : Option (List Char) :=
  match skipBlanks cs with
  | d :: cs => if d = c then some cs else none
  | [] => none

/-- The rest of a line: blanks, a comment, the line end. -/
def endLine? (cs : List Char) : Option (List Char) :=
  match skipComment (skipBlanks cs) with
  | [] => some []
  | '\n' :: cs => some cs
  | _ => none

/-! ## Keys -/

def isBare (c : Char) : Bool := c.isAlphanum || c = '-' || c = '_'

def simpleKey? (cs : List Char) : Option (String × List Char) :=
  match skipBlanks cs with
  | '"' :: cs => (basic? cs).map fun (key, rest) => (String.ofList key, rest)
  | '\'' :: cs => (literal? cs).map fun (key, rest) => (String.ofList key, rest)
  | cs =>
    let key := cs.takeWhile isBare
    if key.isEmpty then none else some (String.ofList key, cs.drop key.length)

/-- Keys between points; `fuel` exceeds the number of characters. -/
def dottedKey? : (fuel : Nat) → List Char → Option (List String × List Char)
  | 0, _ => none
  | fuel + 1, cs => do
    let (key, rest) ← simpleKey? cs
    match expect? '.' rest with
    | none => some ([key], rest)
    | some rest => do
      let (keys, rest) ← dottedKey? fuel rest
      some (key :: keys, rest)

def key? (cs : List Char) : Option (List String × List Char) :=
  (dottedKey? (cs.length + 1) cs).filter fun (keys, _) => keys.length < depthLimit

/-! ## Values -/

/-- A date or time is no text and no number: an object with a member of its own. -/
def Scalar.toJson : Scalar → Json
  | .bool b => .bool b
  | .integer n =>
    .number (if n < 0 then ascii ['-'] ++ Decimal.octets n.natAbs else Decimal.octets n.natAbs)
  | .float text => .number (ascii text)
  | .moment => .object [(ascii "moment".toList, .null)]

def startsString (cs : List Char) : Bool := cs.head? = some '"' || cs.head? = some '\''

mutual

/-- The value at the start of the input, with at most `depth` arrays and tables inside one
another. -/
def value? : (fuel depth : Nat) → List Char → Option (Json × List Char)
  | 0, _, _ => none
  | fuel + 1, depth, cs =>
    if startsString cs then
      (string? cs).map fun (text, rest) => (.ofString (String.ofList text), rest)
    else match cs, depth with
      | '[' :: cs, depth + 1 => (items? fuel depth cs).map fun (items, rest) => (.array items, rest)
      | '{' :: cs, depth + 1 =>
        match expect? '}' cs with
        | some rest => some (.object [], rest)
        | none => (pairs? fuel depth [] cs).map fun (members, rest) =>
          (.object (membersToJson members), rest)
      | cs, _ => (scalar? cs).map fun (s, rest) => (s.toJson, rest)

/-- The items up to the closing bracket; a comma may follow the last one. -/
def items? : (fuel depth : Nat) → List Char → Option (List Json × List Char)
  | 0, _, _ => none
  | fuel + 1, depth, cs =>
    match skipLines false cs with
    | ']' :: rest => some ([], rest)
    | cs => do
      let (item, rest) ← value? fuel depth cs
      match skipLines false rest with
      | ']' :: rest => some ([item], rest)
      | ',' :: rest => do
        let (items, rest) ← items? fuel depth rest
        some (item :: items, rest)
      | _ => none

/-- The keys and values up to the closing brace, on top of those read before. -/
def pairs? : (fuel depth : Nat) → Members → List Char → Option (Members × List Char)
  | 0, _, _, _ => none
  | fuel + 1, depth, members, cs => do
    let (keys, rest) ← key? cs
    let (v, rest) ← value? fuel depth (skipBlanks (← expect? '=' rest))
    let last ← keys.getLast?
    let members ← assign last v true keys.dropLast members
    match skipBlanks rest with
    | '}' :: rest => some (members, rest)
    | ',' :: rest => pairs? fuel depth members rest
    | _ => none

end

/-! ## Lines -/

structure Progress where
  root : Members := []
  current : List String := []

def header? (p : Progress) (cs : List Char) : Option (Progress × List Char) :=
  match cs with
  | '[' :: cs => do
    let (keys, rest) ← key? cs
    match ← expect? ']' rest with
    | ']' :: rest => some ({ root := ← openSeries keys p.root, current := keys }, rest)
    | _ => none
  | cs => do
    let (keys, rest) ← key? cs
    let rest ← expect? ']' rest
    some ({ root := ← openTable keys p.root, current := keys }, rest)

def pair? (p : Progress) (cs : List Char) : Option (Progress × List Char) := do
  let (keys, rest) ← key? cs
  let (v, rest) ← value? (cs.length + 1) (depthLimit - 1) (skipBlanks (← expect? '=' rest))
  let last ← keys.getLast?
  some ({ p with root := ← within (assign last v true keys.dropLast) p.current p.root }, rest)

/-- The remaining lines; `fuel` exceeds the number of characters. -/
def lines? : (fuel : Nat) → Progress → List Char → Option Members
  | 0, _, _ => none
  | fuel + 1, p, cs =>
    match skipBlanks cs with
    | [] => some p.root
    | '\n' :: cs => lines? fuel p cs
    | '#' :: cs => do lines? fuel p (← endLine? ('#' :: cs))
    | '[' :: cs => do
      let (p, rest) ← header? p cs
      lines? fuel p (← endLine? rest)
    | cs => do
      let (p, rest) ← pair? p cs
      lines? fuel p (← endLine? rest)

/-- A line may end with a carriage return. -/
def unifyLineEnds : List Char → List Char
  | '\r' :: '\n' :: cs => '\n' :: unifyLineEnds cs
  | c :: cs => c :: unifyLineEnds cs
  | [] => []

def dropMark : List Char → List Char
  | '\uFEFF' :: cs => cs
  | cs => cs

/-- A document as a JSON object. -/
def parse? (text : String) : Option Json :=
  let cs := unifyLineEnds (dropMark text.toList)
  (lines? (cs.length + 1) {} cs).map fun members => .object (membersToJson members)

end SealedMail.Toml
