import SealedMail.Overlay.Feed

/-!
# The replicated store

Entries under their content address, and for each address the highest sequence number that was
accepted, which outlives the entry. An addition is signed by the sender of its payload, a removal by
sender or receiver, and both need a number above the recorded one. Every change of the entries is
published on the feed.
-/

namespace SealedMail

inductive Broadcast where
  | sufficient (completed : Nat)
  | insufficient (completed failed : Nat)
  deriving DecidableEq, Repr

inductive OverlayError where
  | duplicateEntry
  | invalidSignature
  deriving DecidableEq, Repr

def OverlayError.message : OverlayError → String
  | .duplicateEntry => "Duplicate entry"
  | .invalidSignature => "Invalid entry signature"

structure Store where
  entries : SortedMap PayloadHash StoredEntry := {}
  sequences : SortedMap PayloadHash UInt32 := {}
  feed : Feed := { capacity := 1024 }
  broadcast : Broadcast := .sufficient 1
  deriving DecidableEq, Repr

namespace Store

/-- What is stored, in the order of addresses. -/
def snapshot (s : Store) : List StoredEntry := s.entries.values

def size (s : Store) : Nat := s.entries.size

def contains (s : Store) (hash : PayloadHash) : Bool := s.entries.contains hash

/-- Mailbox entries with a uid outside the envelope. -/
def withUid (s : Store) (uid : String) : List Entry :=
  s.snapshot.filterMap fun e => e.mailbox?.filter (·.uid = uid)

/-- The number after the recorded one, as far as 32 bits go. -/
def nextSequence (s : Store) (hash : PayloadHash) : UInt32 :=
  match s.sequences.get? hash with
  | none => 1
  | some n => if n = 0xFFFFFFFF then n else n + 1

variable [Suite]

/-- An entry for `payload` with the next number, signed by `ring`. -/
def mint (s : Store) (payload : Payload) (ring : KeyRing) (receiverKey : SignatureKey)
    (now : Timestamp) : Entry :=
  let sequence := s.nextSequence payload.hash
  { payload, sequence, receiverKey
    ownerKey := ring.signatureKey
    signature := ring.sign (Entry.signedOctets payload.hash sequence)
    created := now }

/-- Whether `sequence` has not been reached under `hash`. -/
def isFresh (s : Store) (hash : PayloadHash) (sequence : UInt32) : Bool :=
  match s.sequences.get? hash with
  | some n => n < sequence
  | none => true

def add (s : Store) (e : Entry) : Except OverlayError Store :=
  if e.ownerKey ≠ e.payload.senderKey then .error .invalidSignature
  else if !e.isSigned then .error .invalidSignature
  else if !s.isFresh e.hash e.sequence then .error .duplicateEntry
  else .ok { s with
    entries := s.entries.insert e.hash (.mailbox e)
    sequences := s.sequences.insert e.hash e.sequence
    feed := s.feed.publish { added := [.mailbox e] } }

/-- Whether `e` is signed by the sender or the receiver of its payload. -/
def mayRemove (e : Entry) : Bool :=
  e.isSigned && (e.ownerKey = e.payload.ownerKey || e.ownerKey = e.payload.senderKey)

/-- Take an entry out, and whether there was one. A removal that passes the checks is recorded even
if there was nothing to remove; where nothing is recorded yet, number 0 is stale. -/
def remove (s : Store) (e : Entry) : Store × Bool :=
  if !mayRemove e then (s, false)
  else if e.sequence ≤ (s.sequences.get? e.hash).getD 0 then (s, false)
  else
    let sequences := s.sequences.insert e.hash e.sequence
    match s.entries.get? e.hash with
    | none => ({ s with sequences }, false)
    | some stored =>
      ({ s with
        sequences
        entries := s.entries.erase e.hash
        feed := s.feed.publish { removed := [stored] } }, true)

/-- Store data of another kind; no check applies. -/
def addGeneric (s : Store) (e : GenericEntry) : Store :=
  { s with
    entries := s.entries.insert e.hash (.generic e)
    feed := s.feed.publish { added := [.generic e] } }

end Store

end SealedMail
