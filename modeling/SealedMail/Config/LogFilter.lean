import SealedMail.Config.Pattern

/-!
# Log filters

A filter is a list of directives between commas: a level, a target, a span in brackets with or
without a field in braces, and `=` with a level after a target or span. `LogFilter.isValid` says
whether a text is one.

A directive is laid out without the blanks around it (`layout?`), but its parts are cut from the
text with the blanks, at the same distances from the start (`cut?`). Blanks before it therefore
shift what is read as a value or a level.
-/

namespace SealedMail.LogFilter

/-! ## Levels and values -/

def levels : List String := ["error", "warn", "info", "debug", "trace", "off"]

def lower (cs : List Char) : String := String.ofList (cs.map Char.toLower)

def isDigits (cs : List Char) : Bool := !cs.isEmpty && cs.all Char.isDigit

/-- A level is a name in any case, a number up to 5, or nothing. -/
def isLevel (cs : List Char) : Bool :=
  let digits := match cs with
    | '+' :: cs => cs
    | cs => cs
  cs.isEmpty || (isDigits digits && Nat.ofDigitChars 10 digits 0 ≤ 5) || levels.contains (lower cs)

def unsigned : List Char → List Char
  | '+' :: cs => cs
  | '-' :: cs => cs
  | cs => cs

/-- Nothing, or a power of ten. -/
def isExponent : List Char → Bool
  | [] => true
  | c :: cs => (c = 'e' || c = 'E') && isDigits (unsigned cs)

/-- A number with or without sign, point and power of ten, or the name of one that is not finite. -/
def isNumber (cs : List Char) : Bool :=
  let cs := unsigned cs
  let (whole, rest) := cs.span Char.isDigit
  let (fraction, rest) := match rest with
    | '.' :: rest => rest.span Char.isDigit
    | rest => ([], rest)
  (!(whole.isEmpty && fraction.isEmpty) && isExponent rest) ||
    ["inf", "infinity", "nan"].contains (lower cs)

/-- A name, and after `=` a number or a pattern; what follows another `=` does not count. -/
def isField (cs : List Char) : Bool :=
  match cs.dropWhile (· ≠ '=') with
  | [] => true
  | _ :: cs =>
    let value := cs.takeWhile (· ≠ '=')
    isNumber value || Pattern.isValid value

/-! ## Directives -/

/-- A part of a directive, from one distance in octets to another. A level goes on to the end. -/
inductive Part where
  | name (start stop : Nat)
  | field (start stop : Nat)
  | level (start : Nat)

def octets (cs : List Char) : Nat := cs.foldl (fun n c => n + c.utf8Size) 0

/-- Without the first `n` octets, which are whole characters. -/
def drop? (n : Nat) : List Char → Option (List Char)
  | [] => if n = 0 then some [] else none
  | c :: cs =>
    if n = 0 then some (c :: cs)
    else if c.utf8Size ≤ n then drop? (n - c.utf8Size) cs
    else none

/-- The first `n` octets, which are whole characters. -/
def take? (n : Nat) : List Char → Option (List Char)
  | [] => if n = 0 then some [] else none
  | c :: cs =>
    if n = 0 then some []
    else if c.utf8Size ≤ n then (take? (n - c.utf8Size) cs).map (c :: ·)
    else none

def cut? (text : List Char) (start stop : Nat) : Option (List Char) :=
  (drop? start text).bind (take? (stop - start))

def Part.isValid (text : List Char) : Part → Bool
  | .name start stop => (cut? text start stop).isSome
  | .field start stop => (cut? text start stop).any isField
  | .level start => (drop? start text).any isLevel

/-- What may follow a span at octet `i`: nothing, or a level. -/
def afterSpan? (i : Nat) : List Char → Option (List Part)
  | [] => some []
  | '=' :: _ => some [.level (i + 1)]
  | _ => none

/-- A span after its opening bracket: a name and, in braces, one field. -/
def span? (i : Nat) (cs : List Char) : Option (List Part) :=
  let (name, rest) := cs.span fun c => c ≠ ']' && c ≠ '\x7b'
  let j := i + octets name
  match rest with
  | ']' :: rest => (afterSpan? (j + 1) rest).map (.name i j :: ·)
  | '\x7b' :: rest =>
    let (field, rest) := rest.span (· ≠ '\x7d')
    let k := j + 1 + octets field
    match rest with
    | '\x7d' :: ']' :: rest =>
      if field.isEmpty then none
      else (afterSpan? (k + 2) rest).map fun parts => .name i j :: .field (j + 1) k :: parts
    | _ => none
  | _ => none

/-- Letters, numbers and three signs may start a target. -/
def startsTarget (c : Char) : Bool :=
  CharClass.isLetter c || CharClass.isNumber c || ['-', ':', '_'].contains c

/-- The parts of a directive that has no blanks around it. A target or level alone is all of the
text. -/
def layout? (cs : List Char) : Option (List Part) :=
  match cs with
  | [] => none
  | '[' :: rest => span? 1 rest
  | c :: _ =>
    if startsTarget c then
      let (target, rest) := cs.span fun c => c ≠ '=' && c ≠ '['
      let i := octets target
      match rest with
      | '=' :: _ => some [.name 0 i, .level (i + 1)]
      | '[' :: rest => (span? (i + 1) rest).map (.name 0 i :: ·)
      | _ => some []
    else none

def strip (cs : List Char) : List Char :=
  ((cs.dropWhile CharClass.isBlank).reverse.dropWhile CharClass.isBlank).reverse

def isDirective (cs : List Char) : Bool :=
  (layout? (strip cs)).any fun parts => parts.all (Part.isValid cs)

/-- The texts between commas. -/
def pieces : List Char → List (List Char)
  | [] => [[]]
  | c :: cs =>
    if c = ',' then [] :: pieces cs
    else match pieces cs with
      | [] => [[c]]
      | p :: ps => (c :: p) :: ps

def isValid (text : String) : Bool := (pieces text.toList).all fun p => p.isEmpty || isDirective p

end SealedMail.LogFilter
