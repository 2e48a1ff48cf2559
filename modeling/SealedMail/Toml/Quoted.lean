import SealedMail.Json.Quoted

/-!
# TOML strings

Four kinds: basic and literal strings on one line, and both over several lines between triple
quotes. Basic strings have escapes; in long ones a backslash at the end of a line joins it with the
next text. Line ends are single `\n` characters here.
-/

namespace SealedMail.Toml

/-- Characters that may stand bare in a string or comment: no control characters but the tab. -/
def isPlain (c : Char) : Bool := (0x20 ≤ c.toNat && c.toNat ≠ 0x7F) || c = '\t'

def isBlank (c : Char) : Bool := c = ' ' || c = '\t'

/-- The character that hexadecimal digits give the number of. -/
def charOfHex? (cs : List Char) : Option Char := do
  let ds ← cs.mapM Hex.charValue?
  let n := ds.foldl (fun n d => n * 16 + d) 0
  if n.isValidChar then some (Char.ofNat n) else none

/-- The character after a backslash that stands for another one. -/
def shortEscape? : Char → Option Char
  | 'b' => some '\x08'
  | 't' => some '\t'
  | 'n' => some '\n'
  | 'f' => some '\x0c'
  | 'r' => some '\r'
  | '"' => some '"'
  | '\\' => some '\\'
  | _ => none

/-- What stands before a closing quote and what follows it. -/
abbrev Reading := Option (List Char × List Char)

def Reading.cons (c : Char) (r : Reading) : Reading := r.map fun (cs, rest) => (c :: cs, rest)

def basic? : List Char → Reading
  | [] => none
  | '"' :: rest => some ([], rest)
  | '\\' :: 'u' :: a :: b :: c :: d :: rest =>
    (charOfHex? [a, b, c, d]).bind fun x => (basic? rest).cons x
  | '\\' :: 'U' :: a :: b :: c :: d :: e :: f :: g :: h :: rest =>
    (charOfHex? [a, b, c, d, e, f, g, h]).bind fun x => (basic? rest).cons x
  | '\\' :: c :: rest => (shortEscape? c).bind fun x => (basic? rest).cons x
  | c :: rest => if isPlain c && c ≠ '\\' then (basic? rest).cons c else none

def literal? : List Char → Reading
  | [] => none
  | '\'' :: rest => some ([], rest)
  | c :: rest => if isPlain c then (literal? rest).cons c else none

/-- Where a long basic string is: in text, between a backslash and the end of its line, or in the
blanks after such a line end. -/
inductive Joining where
  | text
  | lineEnd
  | margin
  deriving DecidableEq, Repr

/-- A long basic string after its opening quotes. Up to two quotes may precede the closing three. -/
def longBasic? : Joining → List Char → Reading
  | .lineEnd, c :: rest =>
    if isBlank c then longBasic? .lineEnd rest
    else if c = '\n' then longBasic? .margin rest
    else none
  | _, '"' :: '"' :: '"' :: '"' :: '"' :: rest => some (['"', '"'], rest)
  | _, '"' :: '"' :: '"' :: '"' :: rest => some (['"'], rest)
  | _, '"' :: '"' :: '"' :: rest => some ([], rest)
  | _, '\\' :: 'u' :: a :: b :: c :: d :: rest =>
    (charOfHex? [a, b, c, d]).bind fun x => (longBasic? .text rest).cons x
  | _, '\\' :: 'U' :: a :: b :: c :: d :: e :: f :: g :: h :: rest =>
    (charOfHex? [a, b, c, d, e, f, g, h]).bind fun x => (longBasic? .text rest).cons x
  | _, '\\' :: c :: rest =>
    match shortEscape? c with
    | some x => (longBasic? .text rest).cons x
    | none =>
      if c = '\n' then longBasic? .margin rest
      else if isBlank c then longBasic? .lineEnd rest
      else none
  | j, c :: rest =>
    if j = .margin && (isBlank c || c = '\n') then longBasic? .margin rest
    else if (isPlain c && c ≠ '\\') || c = '\n' then (longBasic? .text rest).cons c
    else none
  | _, [] => none

def longLiteral? : List Char → Reading
  | '\'' :: '\'' :: '\'' :: '\'' :: '\'' :: rest => some (['\'', '\''], rest)
  | '\'' :: '\'' :: '\'' :: '\'' :: rest => some (['\''], rest)
  | '\'' :: '\'' :: '\'' :: rest => some ([], rest)
  | c :: rest => if isPlain c || c = '\n' then (longLiteral? rest).cons c else none
  | [] => none

/-- A line end right after the opening quotes is not part of the string. -/
def dropLineEnd : List Char → List Char
  | '\n' :: cs => cs
  | cs => cs

def string? : List Char → Reading
  | '"' :: '"' :: '"' :: rest => longBasic? .text (dropLineEnd rest)
  | '\'' :: '\'' :: '\'' :: rest => longLiteral? (dropLineEnd rest)
  | '"' :: rest => basic? rest
  | '\'' :: rest => literal? rest
  | _ => none

end SealedMail.Toml
