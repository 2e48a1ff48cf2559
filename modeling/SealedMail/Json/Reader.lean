import SealedMail.Json.Quoted

/-!
# Reading JSON

`Json.parse?` reads one value with blanks around it and nothing after it. Numerals follow the JSON
grammar; texts run to the next quote that no backslash precedes and are looked at when they are
used.
-/

namespace SealedMail.Json

def isBlank (b : UInt8) : Bool := b = 0x20 || b = 0x0A || b = 0x0D || b = 0x09

def skipBlanks (bs : Bytes) : Bytes := bs.dropWhile isBlank

def expect? (b : UInt8) (bs : Bytes) : Option Bytes :=
  match skipBlanks bs with
  | c :: bs => if c = b then some bs else none
  | [] => none

/-- The octets up to the closing quote, and what follows it. -/
def rawText? : Bytes → Option (Bytes × Bytes)
  | [] => none
  | b :: bs =>
    if b = quote then some ([], bs)
    else if b = backslash then match bs with
      | [] => none
      | c :: bs => (rawText? bs).map fun (raw, rest) => (b :: c :: raw, rest)
    else (rawText? bs).map fun (raw, rest) => (b :: raw, rest)

/-! ## Numerals -/

def isDigit (b : UInt8) : Bool := 0x30 ≤ b && b ≤ 0x39

def digits (bs : Bytes) : Bytes × Bytes := (bs.takeWhile isDigit, bs.dropWhile isDigit)

/-- A whole part: a zero, or digits that do not start with one. -/
def wholePart? (bs : Bytes) : Option (Bytes × Bytes) :=
  match digits bs with
  | ([], _) => none
  | (ds, rest) => if ds.head? = some 0x30 && ds.length ≠ 1 then none else some (ds, rest)

/-- A point and digits, or nothing. -/
def fraction? : Bytes → Option (Bytes × Bytes)
  | b :: bs =>
    if b = '.'.toUInt8 then
      let (ds, rest) := digits bs
      if ds.isEmpty then none else some (b :: ds, rest)
    else some ([], b :: bs)
  | [] => some ([], [])

def isSign (b : UInt8) : Bool := b = '+'.toUInt8 || b = '-'.toUInt8

/-- A letter, a sign or none, and digits; or nothing. -/
def exponent? : Bytes → Option (Bytes × Bytes)
  | b :: bs =>
    if b = 'e'.toUInt8 || b = 'E'.toUInt8 then
      let sign := (bs.head?.filter isSign).toList
      let (ds, rest) := digits (bs.drop sign.length)
      if ds.isEmpty then none else some (b :: sign ++ ds, rest)
    else some ([], b :: bs)
  | [] => some ([], [])

def numeral? (bs : Bytes) : Option (Bytes × Bytes) := do
  let sign := (bs.head?.filter (· = '-'.toUInt8)).toList
  let (whole, rest) ← wholePart? (bs.drop sign.length)
  let (fraction, rest) ← fraction? rest
  let (exponent, rest) ← exponent? rest
  some (sign ++ whole ++ fraction ++ exponent, rest)

/-! ## Values -/

/-- What follows `word`, if the input starts with it. -/
def afterWord? (word bs : Bytes) : Option Bytes :=
  if word.isPrefixOf bs then some (bs.drop word.length) else none

mutual

/-- The value at the start of the input; `fuel` exceeds the number of octets. -/
def value? : (fuel : Nat) → Bytes → Option (Json × Bytes)
  | 0, _ => none
  | fuel + 1, bs =>
    match skipBlanks bs with
    | [] => none
    | b :: bs =>
      if b = quote then (rawText? bs).map fun (raw, rest) => (.text raw, rest)
      else if b = '['.toUInt8 then
        match expect? ']'.toUInt8 bs with
        | some rest => some (.array [], rest)
        | none => do
          let (item, rest) ← value? fuel bs
          let (items, rest) ← items? fuel rest
          some (.array (item :: items), rest)
      else if b = '{'.toUInt8 then
        match expect? '}'.toUInt8 bs with
        | some rest => some (.object [], rest)
        | none => do
          let (member, rest) ← member? fuel bs
          let (members, rest) ← members? fuel rest
          some (.object (member :: members), rest)
      else if b = 'n'.toUInt8 then (afterWord? (ascii ['u', 'l', 'l']) bs).map (.null, ·)
      else if b = 't'.toUInt8 then (afterWord? (ascii ['r', 'u', 'e']) bs).map (.bool true, ·)
      else if b = 'f'.toUInt8 then (afterWord? (ascii ['a', 'l', 's', 'e']) bs).map (.bool false, ·)
      else (numeral? (b :: bs)).map fun (numeral, rest) => (.number numeral, rest)

/-- The items after the first, up to the closing bracket. -/
def items? : (fuel : Nat) → Bytes → Option (List Json × Bytes)
  | 0, _ => none
  | fuel + 1, bs =>
    match expect? ','.toUInt8 bs with
    | some bs => do
      let (item, rest) ← value? fuel bs
      let (items, rest) ← items? fuel rest
      some (item :: items, rest)
    | none => (expect? ']'.toUInt8 bs).map ([], ·)

def member? : (fuel : Nat) → Bytes → Option ((Bytes × Json) × Bytes)
  | 0, _ => none
  | fuel + 1, bs => do
    let (key, rest) ← rawText? (← expect? quote bs)
    let (value, rest) ← value? fuel (← expect? ':'.toUInt8 rest)
    some ((key, value), rest)

/-- The members after the first, up to the closing brace. -/
def members? : (fuel : Nat) → Bytes → Option (List (Bytes × Json) × Bytes)
  | 0, _ => none
  | fuel + 1, bs =>
    match expect? ','.toUInt8 bs with
    | some bs => do
      let (member, rest) ← member? fuel bs
      let (members, rest) ← members? fuel rest
      some (member :: members, rest)
    | none => (expect? '}'.toUInt8 bs).map ([], ·)

end

def parse? (bs : Bytes) : Option Json :=
  match value? (2 * bs.length + 2) bs with
  | some (value, rest) => if (skipBlanks rest).isEmpty then some value else none
  | none => none

end SealedMail.Json
