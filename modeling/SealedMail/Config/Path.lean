/-!
# File paths

A path is absolute or relative and has parts between slashes; empty parts and single dots between
parts say nothing, so different texts may name one path. `joinText` puts a relative text below
another and keeps both as they are.
-/

namespace SealedMail

structure Path where
  isAbsolute : Bool
  parts : List String
  deriving DecidableEq, Repr

namespace Path

/-- An absolute second text replaces the first. -/
def joinText (base text : String) : String :=
  if text.startsWith "/" then text
  else if base = "" || base.endsWith "/" then base ++ text
  else base ++ "/" ++ text

def dot : List Char := ['.']

/-- The parts between slashes, where a dot counts only as the very first part. -/
def splitParts : (isFirst : Bool) → (part : List Char) → List Char → List (List Char)
  | isFirst, part, [] => if part = [] ∨ (part = dot ∧ !isFirst) then [] else [part]
  | isFirst, part, c :: cs =>
    if c = '/' then
      (if part = [] ∨ (part = dot ∧ !isFirst) then [] else [part]) ++ splitParts false [] cs
    else splitParts isFirst (part ++ [c]) cs

def ofText (text : String) : Path :=
  ⟨text.startsWith "/", (splitParts true [] text.toList).map String.ofList⟩

/-- The last part, unless it leads upwards or stays in place. -/
def fileName? (p : Path) : Option String :=
  p.parts.getLast?.filter fun part => part ≠ ".." ∧ part ≠ "."

/-- The path with another last part, or with a new part if it has no file name. -/
def withFileName (p : Path) (name : String) : Path :=
  { p with parts := (if p.fileName?.isSome then p.parts.dropLast else p.parts) ++ [name] }

/-- Where a file is written before it takes its place. -/
def temporary (p : Path) : Path := p.withFileName (p.fileName?.getD "" ++ ".tmp")

end Path

end SealedMail
