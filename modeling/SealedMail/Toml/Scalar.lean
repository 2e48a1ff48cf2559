import SealedMail.Toml.Quoted

/-!
# TOML numbers, dates and truth values

Scalars that are not strings. Integers have 64 bits and a sign. A float has to stay below infinity
and keeps its text; what a date or time says is checked and then forgotten.
-/

namespace SealedMail.Toml

inductive Scalar where
  | bool (b : Bool)
  | integer (n : Int)
  | float (text : List Char)
  | moment
  deriving DecidableEq, Repr

/-- What follows `word`, if the input starts with it. -/
def afterWord? (word cs : List Char) : Option (List Char) :=
  if word.isPrefixOf cs then some (cs.drop word.length) else none

def digitValue? (base : Nat) (c : Char) : Option Nat := (Hex.charValue? c).filter (· < base)

def isDigitOf (base : Nat) (c : Char) : Bool := (digitValue? base c).isSome

/-- Digits after a digit: single underscores may stand between digits. -/
def moreDigits (base : Nat) : List Char → List Char × List Char
  | '_' :: c :: cs =>
    if isDigitOf base c then
      let (ds, rest) := moreDigits base cs
      (c :: ds, rest)
    else ([], '_' :: c :: cs)
  | c :: cs =>
    if isDigitOf base c then
      let (ds, rest) := moreDigits base cs
      (c :: ds, rest)
    else ([], c :: cs)
  | [] => ([], [])

/-- One digit or more, underscores left out. -/
def digits? (base : Nat) : List Char → Option (List Char × List Char)
  | c :: cs =>
    if isDigitOf base c then
      let (ds, rest) := moreDigits base cs
      some (c :: ds, rest)
    else none
  | [] => none

def valueOf (base : Nat) (ds : List Char) : Nat :=
  ds.foldl (fun n d => n * base + (digitValue? base d).getD 0) 0

def sign : List Char → List Char × List Char
  | '+' :: cs => (['+'], cs)
  | '-' :: cs => (['-'], cs)
  | cs => ([], cs)

/-- The digits before the point: a zero stands alone. -/
def wholePart? : List Char → Option (List Char × List Char)
  | '0' :: cs => some (['0'], cs)
  | cs => digits? 10 cs

/-! ## Integers -/

def inRange (n : Int) : Bool := -9223372036854775808 ≤ n && n ≤ 9223372036854775807

def radix? (cs : List Char) : Option (Nat × List Char) :=
  match cs with
  | '0' :: 'x' :: cs => some (16, cs)
  | '0' :: 'o' :: cs => some (8, cs)
  | '0' :: 'b' :: cs => some (2, cs)
  | _ => none

def integer? (cs : List Char) : Option (Scalar × List Char) := do
  let (n, rest) ← match radix? cs with
    | some (base, cs) => (digits? base cs).map fun (ds, rest) => ((valueOf base ds : Int), rest)
    | none => do
      let (s, cs) := sign cs
      let (ds, rest) ← wholePart? cs
      let n : Int := valueOf 10 ds
      some (if s = ['-'] then -n else n, rest)
  if inRange n then some (.integer n, rest) else none

/-! ## Floats -/

def fraction? : List Char → Option (List Char × List Char)
  | '.' :: cs => digits? 10 cs
  | _ => none

/-- A letter, a sign or none, and digits. -/
def exponent? : List Char → Option ((List Char × List Char) × List Char)
  | c :: cs =>
    if c = 'e' || c = 'E' then
      let (s, cs) := sign cs
      (digits? 10 cs).map fun (ds, rest) => ((s, ds), rest)
    else none
  | [] => none

/-- Half way between the largest finite float and the next power of two: from here on a number is
infinite. -/
def infiniteFrom : Nat := Nat.pow 2 1024 - Nat.pow 2 970

/-- Whether `m * 10 ^ e` is below infinity. Exponents far from the limit are decided by counting
digits. -/
def isFinite (m : Nat) (e : Int) : Bool :=
  let size := (Decimal.chars m).length + e
  m = 0 || size < 300 ||
    (size < 400 &&
      (if 0 ≤ e then m * Nat.pow 10 e.toNat < infiniteFrom
        else m < infiniteFrom * Nat.pow 10 (-e).toNat))

/-- A decimal number with a fraction, an exponent or both. Large negative numbers are let
through. -/
def decimal? (cs : List Char) : Option (Scalar × List Char) := do
  let (s, cs) := sign cs
  let (whole, cs) ← wholePart? cs
  let fraction := fraction? cs
  let (fractionDigits, cs) := fraction.getD ([], cs)
  let exponent := exponent? cs
  let ((es, exponentDigits), cs) := exponent.getD (([], []), cs)
  if fraction.isNone && exponent.isNone then none
  let magnitude : Int := valueOf 10 exponentDigits
  let e := (if es = ['-'] then -magnitude else magnitude) - fractionDigits.length
  if s = ['-'] || isFinite (valueOf 10 (whole ++ fractionDigits)) e then
    some (.float (s ++ whole ++ ['.'] ++ fractionDigits ++ ['e'] ++ es ++ exponentDigits), cs)
  else none

def special? (cs : List Char) : Option (Scalar × List Char) :=
  let (s, cs) := sign cs
  match afterWord? ['i', 'n', 'f'] cs with
  | some rest => some (.float (s ++ ['i', 'n', 'f']), rest)
  | none => (afterWord? ['n', 'a', 'n'] cs).map fun rest => (.float (s ++ ['n', 'a', 'n']), rest)

/-! ## Dates and times -/

/-- A number of exactly `w` digits between `lo` and `hi`. -/
def field? (w lo hi : Nat) (cs : List Char) : Option (Nat × List Char) :=
  let ds := cs.take w
  let n := valueOf 10 ds
  if ds.length = w && ds.all (isDigitOf 10) && lo ≤ n && n ≤ hi then some (n, cs.drop w) else none

def isLeapYear (y : Nat) : Bool := y % 4 = 0 && (y % 100 ≠ 0 || y % 400 = 0)

def daysIn (year month : Nat) : Nat :=
  if month = 2 then (if isLeapYear year then 29 else 28)
  else if month = 4 || month = 6 || month = 9 || month = 11 then 30
  else 31

/-- The rest after a date. -/
def date? (cs : List Char) : Option (List Char) := do
  let (year, cs) ← field? 4 0 9999 cs
  let (month, cs) ← field? 2 1 12 (← afterWord? ['-'] cs)
  let (_, cs) ← field? 2 1 (daysIn year month) (← afterWord? ['-'] cs)
  some cs

/-- The rest after a time of day, with or without parts of a second. -/
def time? (cs : List Char) : Option (List Char) := do
  let (_, cs) ← field? 2 0 23 cs
  let (_, cs) ← field? 2 0 59 (← afterWord? [':'] cs)
  let (_, cs) ← field? 2 0 60 (← afterWord? [':'] cs)
  match cs with
  | '.' :: rest =>
    if (rest.head?.any (isDigitOf 10)) then some (rest.dropWhile (isDigitOf 10)) else none
  | _ => some cs

/-- The rest after an offset from universal time; an offset may be left out. -/
def offset? (cs : List Char) : Option (List Char) :=
  match cs with
  | 'Z' :: rest | 'z' :: rest => some rest
  | '+' :: rest | '-' :: rest => do
    let (_, rest) ← field? 2 0 23 rest
    let (_, rest) ← field? 2 0 59 (← afterWord? [':'] rest)
    some rest
  | _ => some cs

def isTimeMark (c : Char) : Bool := c = 'T' || c = 't' || c = ' '

/-- A date, a time, or both. A blank after a date is part of it only if a time follows. -/
def moment? (cs : List Char) : Option (Scalar × List Char) :=
  match date? cs with
  | none => (time? cs).map (.moment, ·)
  | some rest =>
    match rest with
    | [] => some (.moment, [])
    | c :: after =>
      if isTimeMark c then
        match time? after with
        | some rest => (offset? rest).map (.moment, ·)
        | none => some (.moment, rest)
      else some (.moment, rest)

def bool? (cs : List Char) : Option (Scalar × List Char) :=
  match afterWord? ['t', 'r', 'u', 'e'] cs with
  | some rest => some (.bool true, rest)
  | none => (afterWord? ['f', 'a', 'l', 's', 'e'] cs).map fun rest => (.bool false, rest)

/-- The scalar at the start of the input: what reads the most comes first. -/
def scalar? (cs : List Char) : Option (Scalar × List Char) :=
  moment? cs <|> decimal? cs <|> special? cs <|> integer? cs <|> bool? cs

end SealedMail.Toml
