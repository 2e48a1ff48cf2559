import SealedMail.Codec.Basic

/-!
# Values in files

A `Drawer` is the place of one file and its temporary sibling. A value is written as JSON to the
sibling, which then takes the place of the file, so that whatever goes wrong on the way leaves the
file as it was.
-/

namespace SealedMail

/-- What stands at the path of a file. -/
inductive Place where
  | vacant
  | file (content : Bytes)
  | directory
  deriving DecidableEq, Repr

structure Drawer where
  place : Place := .vacant
  /-- The temporary sibling, if it is there. -/
  sibling : Option Bytes := none
  deriving DecidableEq, Repr

inductive StorageError where
  | io (reason : String)
  | serialization (reason : String)
  deriving DecidableEq, Repr

def StorageError.message : StorageError → String
  | .io reason => s!"I/O error: {reason}"
  | .serialization reason => s!"Serialization error: {reason}"

/-- Where a write may break off. -/
inductive Mishap where
  | directory
  /-- Only a part of the sibling is written. -/
  | sibling (written : Option Bytes)
  | rename
  deriving DecidableEq, Repr

namespace Drawer

variable {α : Type} [Codec α]

/-- A file that is not there holds nothing. -/
def read (d : Drawer) : Except StorageError (Option α) :=
  match d.place with
  | .vacant => .ok none
  | .file content =>
    match Codec.ofText? content with
    | some a => .ok (some a)
    | none => .error (.serialization "not a value of this kind")
  | .directory => .error (.io "is a directory")

/-- Put the sibling in the place of the file; a directory does not give way. -/
def rename (d : Drawer) (content : Bytes) : Drawer × Except StorageError Unit :=
  match d.place with
  | .directory => ({ d with sibling := some content }, .error (.io "is a directory"))
  | _ => ({ place := .file content, sibling := none }, .ok ())

def write (d : Drawer) (a : α) (mishap : Option Mishap := none) :
    Drawer × Except StorageError Unit :=
  match mishap with
  | some .directory => (d, .error (.io "no directory"))
  | some (.sibling written) => ({ d with sibling := written }, .error (.io "no space"))
  | some .rename => ({ d with sibling := some (Codec.toText a) }, .error (.io "not permitted"))
  | none => d.rename (Codec.toText a)

omit [Codec α] in
/-- Write the file itself. -/
def overwrite (d : Drawer) (content : Bytes) : Drawer :=
  match d.place with
  | .directory => d
  | _ => { d with place := .file content }

omit [Codec α] in
def content? (d : Drawer) : Option Bytes :=
  match d.place with
  | .file content => some content
  | _ => none

omit [Codec α] in
/-- The names in the directory of the file called `name`. -/
def names (d : Drawer) (name : String) : List String :=
  (if d.place = .vacant then [] else [name]) ++ (if d.sibling.isSome then [name ++ ".tmp"] else [])

end Drawer

end SealedMail
