import SealedMail.Json.Quoted

/-!
# TOML tables

Tables come about by a header, as the parent of another table, or by a dotted key, and that decides
what may still be added to them. `assign`, `openTable` and `openSeries` say no where a table or key
would be defined twice. A finished table is read as a JSON object.
-/

namespace SealedMail.Toml

inductive Origin where
  | header
  /-- Stands above a table with a header. -/
  | implied
  | dotted
  deriving DecidableEq, Repr

inductive Item where
  | value (v : Json)
  | table (origin : Origin) (members : List (String × Item))
  /-- An array of tables, each with a header of its own. -/
  | series (tables : List (List (String × Item)))

abbrev Members := List (String × Item)

/-- Change what stands under a key, if `f` allows it. -/
def alter (key : String) (f : Option Item → Option Item) : Members → Option Members
  | [] => (f none).map fun item => [(key, item)]
  | (k, item) :: ms =>
    if k = key then (f (some item)).map fun item => (k, item) :: ms
    else (alter key f ms).map ((k, item) :: ·)

/-- Change the last table of a series. -/
def alterLast (f : Members → Option Members) (tables : List Members) : Option Item :=
  match tables.getLast? with
  | none => none
  | some last => (f last).map fun last => .series (tables.dropLast ++ [last])

/-- Put a value under a dotted key. Tables on the way must not have a header, and the table of the
last part must come from dotted keys itself, as far as `mayExtend` does not say that it may be added
to. -/
def assign (last : String) (v : Json) : (mayExtend : Bool) → List String → Members → Option Members
  | mayExtend, [], ms =>
    if mayExtend then alter last (fun
      | none => some (.value v)
      | some _ => none) ms
    else none
  | _, key :: keys, ms =>
    alter key (fun
      | none => (assign last v true keys []).map (.table .dotted)
      | some (.table .header _) => none
      | some (.table origin inner) =>
        (assign last v (origin = .dotted) keys inner).map (.table origin)
      | some (.series tables) => alterLast (assign last v false keys) tables
      | some (.value _) => none) ms

/-- Change the table that a header opened. -/
def within (f : Members → Option Members) : List String → Members → Option Members
  | [], ms => f ms
  | key :: keys, ms =>
    alter key (fun
      | some (.table origin inner) => (within f keys inner).map (.table origin)
      | some (.series tables) => alterLast (within f keys) tables
      | _ => none) ms

/-- Change what stands under a header's last key; the tables above it are made where they are
missing. -/
def underHeader (f : Option Item → Option Item) : List String → Members → Option Members
  | [], _ => none
  | [key], ms => alter key f ms
  | key :: keys, ms =>
    alter key (fun
      | none => (underHeader f keys []).map (.table .implied)
      | some (.table origin inner) => (underHeader f keys inner).map (.table origin)
      | some (.series tables) => alterLast (underHeader f keys) tables
      | some (.value _) => none) ms

/-- A table may be opened once. -/
def openTable : List String → Members → Option Members :=
  underHeader fun
    | none => some (.table .header [])
    | some (.table .implied members) => some (.table .header members)
    | some _ => none

/-- Add a table to a series. -/
def openSeries : List String → Members → Option Members :=
  underHeader fun
    | none => some (.series [[]])
    | some (.series tables) => some (.series (tables ++ [[]]))
    | some _ => none

mutual

def Item.toJson : Item → Json
  | .value v => v
  | .table _ members => .object (membersToJson members)
  | .series tables => .array (seriesToJson tables)

def membersToJson : List (String × Item) → List (Bytes × Json)
  | [] => []
  | (key, item) :: ms => (Json.escape (utf8 key), item.toJson) :: membersToJson ms

def seriesToJson : List (List (String × Item)) → List Json
  | [] => []
  | ms :: tables => .object (membersToJson ms) :: seriesToJson tables

end

end SealedMail.Toml
