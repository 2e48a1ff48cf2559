import SealedMail.Message.Entry

/-!
# The index of received items

Items in the order of their arrival, with their payload hashes and, for each uid, the items under it
kept beside the list for look-up. A payload is held once; a uid may have several items, of which the
first is the one that is shown.
-/

namespace SealedMail

structure Index where
  items : List Item := []
  byUid : SortedMap String (List Item) := {}
  hashes : SortedSet PayloadHash := {}
  deriving DecidableEq, Repr, Inhabited

namespace Index

def size (x : Index) : Nat := x.items.length

def isEmpty (x : Index) : Bool := x.items.isEmpty

def contains (x : Index) (hash : PayloadHash) : Bool := x.hashes.contains hash

def under (x : Index) (uid : String) : List Item := (x.byUid.get? uid).getD []

variable [Suite]

/-- Append an item, unless its payload is held already. -/
def insert (x : Index) (item : Item) : Index :=
  if x.contains item.hash then x
  else
    { items := x.items ++ [item]
      byUid := x.byUid.insert item.uid (x.under item.uid ++ [item])
      hashes := x.hashes.insert item.hash () }

/-- Insert an item, and tell whether it was appended. -/
def add (x : Index) (item : Item) : Index × Bool := (x.insert item, !x.contains item.hash)

/-- Drop all items under a uid, and return them. -/
def removeUid (x : Index) (uid : String) : Index × List Item :=
  match x.byUid.get? uid with
  | none => (x, [])
  | some removed =>
    ({ items := x.items.filter fun item => item.uid ≠ uid
       byUid := x.byUid.erase uid
       hashes := removed.foldl (fun hs item => hs.erase item.hash) x.hashes }, removed)

/-- The items of a list that have not outlived `ttl` milliseconds. -/
def ofList (items : List Item) (now : Timestamp) (ttl : UInt64) : Index :=
  (items.filter fun item => !item.entry.isExpired now ttl).foldl insert {}

/-- How many items of a list have outlived `ttl` milliseconds. -/
def countExpired (items : List Item) (now : Timestamp) (ttl : UInt64) : Nat :=
  items.countP fun item => item.entry.isExpired now ttl

omit [Suite] in
/-- The items whose uid none before them has. -/
def firstPerUid : List String → List Item → List Item
  | _, [] => []
  | seen, item :: items =>
    if item.uid ∈ seen then firstPerUid seen items
    else item :: firstPerUid (item.uid :: seen) items

/-- What the first item under each uid opened to, in the order of arrival. -/
def firstMessages (x : Index) : List Opened := (firstPerUid [] x.items).map (·.opened)

end Index

end SealedMail
