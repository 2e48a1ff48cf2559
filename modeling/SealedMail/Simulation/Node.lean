import SealedMail.Mailbox.Loop
import SealedMail.Mailbox.Handles
import SealedMail.Sending.Course
import SealedMail.Storage.Drawer
import SealedMail.Simulation.Draft

/-!
# A node in a simulation

A node is a mailbox with commands that wait for it, the doubles of what surrounds it, and tallies of
what it did. What it has written survives a restart.
-/

namespace SealedMail

structure NodePlan where
  name : String
  keys : KeySource
  /-- Its own address, if it knows it from the start. -/
  address : Option Address
  retryDelaySecs : UInt64 := 30
  maxBatches : UInt64 := 1
  ttlSecs : UInt64 := 1296000
  /-- Names of the entries whose items an earlier run wrote. -/
  items : Option (List String) := none
  ledger : Option Ledger := none
  /-- Items and ledger are kept in files. -/
  files : Option (Drawer × Drawer) := none
  readFails : Bool := false
  deriving DecidableEq, Repr

structure Saved where
  items : Option (List Item) := none
  ledger : Option Ledger := none
  files : Option (Drawer × Drawer) := none
  deriving DecidableEq, Repr

namespace Saved

/-- What a file holds, or nothing if it cannot be read. -/
def readFile {α : Type} [Codec α] (d : Drawer) : Option α :=
  match (d.read : Except StorageError (Option α)) with
  | .ok a => a
  | .error _ => none

def readItems (s : Saved) : Option (List Item) :=
  match s.files with
  | some (d, _) => (readFile d).map ItemList.items
  | none => s.items

def readLedger (s : Saved) : Option Ledger :=
  match s.files with
  | some (_, d) => readFile d
  | none => s.ledger

def writeItems (s : Saved) (items : List Item) : Saved :=
  { s with
    items := some items
    files := s.files.map fun (d, e) => ((d.write (ItemList.mk items)).1, e) }

def writeLedger (s : Saved) (ledger : Ledger) : Saved :=
  { s with ledger := some ledger, files := s.files.map fun (d, e) => (d, (e.write ledger).1) }

end Saved

/-- How often a node did what, since it started. -/
structure Tally where
  opened : Nat := 0
  sealed : Nat := 0
  adds : Nat := 0
  removals : Nat := 0
  itemWrites : Nat := 0
  ledgerWrites : Nat := 0
  requests : Nat := 0
  deriving DecidableEq, Repr

/-- What a send attempt does to a node's surroundings before anything else. -/
structure Disturbance where
  losesAddress : Bool := false
  connections : Option Nat := none
  deriving DecidableEq, Repr

structure Node [Suite] where
  plan : NodePlan
  setup : Setup
  mailbox : Mailbox
  commands : List Command := []
  saved : Saved
  handles : Handles := {}
  nextListener : Nat := 1
  listenerNames : List (Nat × String) := []
  address : Option Address
  connections : Nat := 1
  online : List Address := []
  capabilities : List (Address × Capabilities) := []
  seeds : List Address := []
  writeFails : Bool := false
  sealFails : Bool := false
  openFails : Bool := false
  disturbance : Disturbance := {}
  sent : List (Address × Parcel) := []
  tally : Tally := {}

namespace Node

variable [Suite]

def name (n : Node) : String := n.plan.name

def surroundings (n : Node) (faults : Access) (now : Timestamp) (seconds : Nat) : Surroundings where
  address := n.address
  seeds := n.seeds
  now
  seconds
  access := faults
  openingFails := n.openFails
  canWriteItems := !n.writeFails
  canWriteLedger := !n.writeFails

def outlook (n : Node) : Outlook where
  running := !n.mailbox.stopped
  bootstrapped := n.mailbox.bootstrapped
  address := n.address
  connections := n.connections
  capabilities peer := (n.capabilities.find? (·.1 = peer)).map (·.2)

def sealer (n : Node) : Sealer := fun recipient envelope draws =>
  if n.sealFails then (.error (.encryptionFailed "fault"), draws)
  else n.setup.ring.sealEnvelope recipient envelope draws

def transport (n : Node) : Transport := fun peer _ =>
  if peer ∈ n.online then .ok () else .error (.peerUnreachable peer.toText)

def order (n : Node) (c : Command) : Node :=
  if n.mailbox.stopped then n else { n with commands := n.commands ++ [c] }

/-- Have the listeners deregistered whose handles are given up between `n.handles` and `handles`. -/
def orderReleases (n : Node) (handles : Handles) : Node :=
  (handles.released.drop n.handles.released.length).foldl
    (fun n id => n.order (.removeListener id.toNat)) { n with handles }

def listen (n : Node) (name : String) : Node × Nat :=
  let id := n.nextListener
  let n := { n with nextListener := id + 1, listenerNames := n.listenerNames ++ [(id, name)] }
  let n := n.order (.addListener id)
  (n.orderReleases (n.handles.hold name (UInt64.ofNat id)), id)

def unlisten (n : Node) (name : String) : Node := n.orderReleases (n.handles.release name)

def observe (n : Node) : Effect → Node
  | .handed es => { n with tally := { n.tally with opened := n.tally.opened + es.length } }
  | .lost es => { n with tally := { n.tally with opened := n.tally.opened - es.length } }
  | .removed _ => { n with tally := { n.tally with removals := n.tally.removals + 1 } }
  | .wroteItems items =>
    { n with
      saved := n.saved.writeItems items
      tally := { n.tally with itemWrites := n.tally.itemWrites + 1 } }
  | .wroteLedger ledger =>
    { n with
      saved := n.saved.writeLedger ledger
      tally := { n.tally with ledgerWrites := n.tally.ledgerWrites + 1 } }
  | _ => n

def observeLog (n : Node) : Node :=
  n.mailbox.log.foldl observe { n with mailbox := { n.mailbox with log := [] } }

def start (plan : NodePlan) (saved : Saved) (faults : Access) (now : Timestamp) (seconds : Nat)
    (store : Store) (draws : Draws) : Node × Draws :=
  let (ring, draws) := plan.keys.ring draws
  let setup : Setup :=
    { ring
      retryDelay := plan.retryDelaySecs.toNat
      maxBatches := plan.maxBatches.toNat
      ttl := millisOfSeconds plan.ttlSecs }
  let env : Surroundings := { address := plan.address, now, seconds, access := faults }
  let items := if plan.readFails then none else saved.readItems
  let ledger := if plan.readFails then none else saved.readLedger
  let mailbox := Mailbox.restore setup env store (items.getD []) (ledger.getD {})
  (observeLog { plan, setup, mailbox, saved, address := plan.address }, draws)

def isReady (n : Node) (store : Store) : Bool :=
  !n.mailbox.stopped &&
    (!n.commands.isEmpty || (n.mailbox.place.bind fun p => store.feed.read? p).isSome)

/-- How many of the open batches stay open while the mailbox handles an event. -/
def keptBatches (n : Node) : Event → Nat
  | .batch _ => n.mailbox.running.length - 1
  | _ => n.mailbox.running.length

/-- How many of the removals that wait go on waiting while the mailbox handles an event. -/
def keptRetries (n : Node) : Event → Nat
  | .retry _ => n.mailbox.retries.length - 1
  | _ => n.mailbox.retries.length

def isSubscribed (n : Node) : Bool := !n.mailbox.stopped && n.mailbox.place.isSome

end Node

end SealedMail
