import SealedMail.Overlay.Access
import SealedMail.Simulation.Draft

/-!
# A store to act on

A `Board` is a store with a clock that is set by hand and entries that are called by name. Each
action on it has an answer.
-/

namespace SealedMail

structure Board [Suite] where
  store : Store := {}
  clock : Timestamp := ⟨1000⟩
  /-- Changes made by hand are not published. -/
  isSilent : Bool := false
  entries : SortedMap String (Entry × Opened) := {}
  draws : Draws

namespace Board

inductive Action where
  | put (entry : String)
  | take (entry : String)
  /-- Mint an entry for the payload of another one, under a new name. -/
  | sign (entry : String) (signer : KeySource) (name : String) (receiver : Option Party)
  | containsEntry (entry : String)
  | contains (hash : PayloadHash)
  | snapshot
  | withUid (uid : String)
  | putGeneric (entry : GenericEntry)
  | report (broadcast : Broadcast)
  | setTime (t : Timestamp)
  | addTime (millis : UInt64)
  | time
  deriving DecidableEq, Repr

inductive Answer where
  | done
  | unknownName
  | yes (b : Bool)
  | time (t : Timestamp)
  | broadcast (b : Broadcast)
  | refused (e : OverlayError)
  | entry (e : StoredEntry)
  | entries (es : List StoredEntry)
  deriving DecidableEq, Repr

variable [Suite]

def access (b : Board) : Access := { isSilent := b.isSilent }

/-- Make an entry and give it a name. -/
def addDraft (b : Board) (name : Option String) (d : Draft) : Board × Entry × Opened :=
  let (entry, opened, draws) := d.make b.draws
  let entries := match name with
    | some name => b.entries.insert name (entry, opened)
    | none => b.entries
  ({ b with entries, draws }, entry, opened)

/-- Act on the entry of a name. -/
def withEntry (b : Board) (name : String) (act : Entry → Opened → Board × Answer) :
    Board × Answer :=
  match b.entries.get? name with
  | some (entry, opened) => act entry opened
  | none => (b, .unknownName)

def put (b : Board) (e : Entry) : Board × Answer :=
  match b.access.add b.store e with
  | .ok store => ({ b with store }, .broadcast b.store.broadcast)
  | .error error => (b, .refused error)

def act (b : Board) : Action → Board × Answer
  | .put name => b.withEntry name fun e _ => b.put e
  | .take name => b.withEntry name fun e _ =>
    let (store, removed) := b.access.remove b.store e
    ({ b with store }, .yes removed)
  | .sign name signer as receiver => b.withEntry name fun e opened =>
    let (ring, draws) := signer.ring b.draws
    let (receiver, draws) := Party.meetOr receiver ⟨e.receiverKey, none⟩ draws
    let minted := b.store.mint e.payload ring receiver.signatureKey b.clock
    ({ b with draws, entries := b.entries.insert as (minted, opened) }, .entry (.mailbox minted))
  | .containsEntry name => b.withEntry name fun e _ => (b, .yes (b.store.contains e.hash))
  | .contains hash => (b, .yes (b.store.contains hash))
  | .snapshot => (b, .entries b.store.snapshot)
  | .withUid uid => (b, .entries ((b.store.withUid uid).map .mailbox))
  | .putGeneric e =>
    ({ b with store := b.access.publishing b.store (b.store.addGeneric e) }, .done)
  | .report broadcast => ({ b with store := { b.store with broadcast } }, .done)
  | .setTime clock => ({ b with clock }, .time clock)
  | .addTime millis =>
    let clock : Timestamp := ⟨b.clock.millis + millis⟩
    ({ b with clock }, .time clock)
  | .time => (b, .time b.clock)

/-- The changes that were published after a place in the feed. -/
def changesSince (b : Board) (place : Nat) : List Change := b.store.feed.history.drop place

end Board

end SealedMail
