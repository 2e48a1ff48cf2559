import SealedMail.Mailbox.Index
import SealedMail.Mailbox.Ledger
import SealedMail.Overlay.Access

/-!
# The event loop of a mailbox

A `Mailbox` handles one event at a time (`Mailbox.step`): a command, the next notice of the feed, a
batch of entries that has been opened, or a removal whose time has come. Fresh entries are opened
one by one or in batches; an entry that opens to a message is indexed, reported to the listeners and
removed from the store. After each event what changed is written once. The log records all that a
mailbox does to its surroundings.
-/

namespace SealedMail

structure Setup [Suite] where
  ring : KeyRing
  /-- Seconds until a removal that came too early is tried again. -/
  retryDelay : Nat
  /-- Batches that may be open at a time; 0 counts as 1. -/
  maxBatches : Nat
  ttl : UInt64

structure Surroundings where
  address : Option Address
  seeds : List Address := []
  now : Timestamp
  /-- The clock of the removals that wait. -/
  seconds : Nat := 0
  access : Access := {}
  openingFails : Bool := false
  canWriteItems : Bool := true
  canWriteLedger : Bool := true
  panics : Nat → Opened → Bool := fun _ _ => false

inductive Command where
  | bootstrap
  | addListener (id : Nat)
  | removeListener (id : Nat)
  | remove (opened : Opened)
  | query (id : Nat)
  | shutdown
  deriving DecidableEq, Repr

inductive Effect where
  | subscribed (place : Nat)
  | handed (entries : List Entry)
  /-- The entries were handed over, but opening them broke off. -/
  | lost (entries : List Entry)
  | notified (listener : Nat) (hash : PayloadHash) (opened : Opened) (sender : Address)
  | panicked (listener : Nat)
  | removed (removal : Entry)
  | answered (query : Nat) (messages : List Opened)
  | wroteItems (items : List Item)
  | wroteLedger (ledger : Ledger)
  deriving DecidableEq, Repr

inductive Opening where
  | received (item : Item)
  | notForUs (uid : String) (created : Timestamp)
  | malformed (uid : String) (reason : String)
  deriving DecidableEq, Repr

/-- A removal that waits for the mailbox to be bootstrapped. -/
structure Retry where
  opened : Opened
  due : Nat
  deriving DecidableEq, Repr

structure Mailbox where
  index : Index := {}
  ledger : Ledger := {}
  listeners : SortedSet Nat := {}
  bootstrapped : Bool := false
  /-- The place in the feed, while subscribed. -/
  place : Option Nat := none
  queued : List (List Entry) := []
  running : List (List Entry) := []
  retries : List Retry := []
  itemsChanged : Bool := false
  ledgerChanged : Bool := false
  stopped : Bool := false
  store : Store
  log : List Effect := []
  deriving Repr

inductive Event where
  | command (c : Command)
  | notice
  | batch (i : Nat)
  | retry (i : Nat)
  deriving DecidableEq, Repr

def Entry.opening [Suite] (e : Entry) (ring : KeyRing) : Opening :=
  match ring.openEnvelope e.payload.parcel.sealed with
  | .error (.notForUs _) => .notForUs e.uid e.created
  | .error (.malformed reason) => .malformed e.uid reason
  | .ok opened =>
    match Item.ofOpened? e opened with
    | some item => .received item
    | none => .malformed e.uid "envelope is not a mailbox message"

namespace Mailbox

def logging (m : Mailbox) (effects : List Effect) : Mailbox := { m with log := m.log ++ effects }

variable [Suite]

/-! ## Removal from the store -/

/-- Ask the store to drop an entry, signed by us. Nothing is asked if the store does not hold it or
the own address is unknown; only signing can fail. -/
def removeFromStore (setup : Setup) (env : Surroundings) (m : Mailbox) (e : Entry) :
    Except CryptoError Mailbox :=
  if !m.store.contains e.hash then .ok m
  else if env.address.isNone then .ok m
  else
    (env.access.mint m.store e.payload setup.ring e.receiverKey env.now).map fun removal =>
      { m with store := (env.access.remove m.store removal).1 }.logging [.removed removal]

/-- Drop an item that has left the index from the store, and take it back if no removal can be
signed. -/
def removeItem (setup : Setup) (env : Surroundings) (m : Mailbox) (item : Item) : Mailbox :=
  match removeFromStore setup env m item.entry with
  | .ok m => m
  | .error _ => { m with index := m.index.insert item }

/-- Drop all items under the uid of a message. Before bootstrap the request waits. -/
def remove (setup : Setup) (env : Surroundings) (m : Mailbox) (opened : Opened) : Mailbox :=
  if !m.bootstrapped then
    { m with retries := m.retries ++ [⟨opened, env.seconds + setup.retryDelay⟩] }
  else match opened.message? with
    | none => m
    | some message =>
      let (index, items) := m.index.removeUid message.uid
      if items.isEmpty then m
      else
        { items.foldl (removeItem setup env) { m with index } with itemsChanged := true }

/-! ## Admission -/

/-- What telling a listener of an item comes to. A panic is caught, so that the others are told all
the same. -/
def tell (env : Surroundings) (item : Item) (sender : Address) (id : Nat) : List Effect :=
  .notified id item.hash item.opened sender ::
    if env.panics id item.opened then [.panicked id] else []

def receive (setup : Setup) (env : Surroundings) (m : Mailbox) (item : Item) : Mailbox :=
  match item.message? with
  | none => m
  | some message =>
    if m.index.contains item.hash then m
    else
      let m := { m with index := m.index.insert item, itemsChanged := true }.logging
        (m.listeners.keys.flatMap (tell env item message.sender))
      if m.bootstrapped then
        match removeFromStore setup env m item.entry with
        | .ok m => m
        | .error _ => m
      else m

def apply (setup : Setup) (env : Surroundings) (m : Mailbox) : Opening → Mailbox
  | .received item => receive setup env m item
  | .notForUs uid created =>
    if m.ledger.contains uid then m
    else { m with ledger := m.ledger.ignore uid created, ledgerChanged := true }
  | .malformed _ _ => m

def isNew (m : Mailbox) (e : Entry) : Bool :=
  !m.ledger.contains e.uid && !m.index.contains e.hash

/-- The batches handed over to `slots` free slots, and the batches that go on waiting. What is not
new any more is left out; a batch of which nothing is left takes no slot. -/
def hand (isNew : Entry → Bool) : (slots : Nat) → List (List Entry) →
    List (List Entry) × List (List Entry)
  | _, [] => ([], [])
  | 0, queue => ([], queue)
  | n + 1, batch :: queue =>
    match batch.filter isNew with
    | [] => hand isNew (n + 1) queue
    | rest =>
      let (handed, queue) := hand isNew n queue
      (rest :: handed, queue)

def dispatch (setup : Setup) (m : Mailbox) : Mailbox :=
  let (handed, queued) := hand m.isNew (max setup.maxBatches 1 - m.running.length) m.queued
  { m with queued, running := m.running ++ handed }.logging (handed.map .handed)

/-- The entries that satisfy `isNew`, each payload once. -/
def distinct (isNew : Entry → Bool) : List PayloadHash → List Entry → List Entry
  | _, [] => []
  | seen, e :: es =>
    if isNew e && e.hash ∉ seen then e :: distinct isNew (e.hash :: seen) es
    else distinct isNew seen es

/-- Take in what the overlay shows: a single fresh entry is opened at once, several as a batch.
Nothing is taken in while the own address is unknown, and nothing by seed nodes. -/
def takeIn (setup : Setup) (env : Surroundings) (m : Mailbox) (es : List StoredEntry) : Mailbox :=
  match env.address with
  | none => m
  | some own =>
    if own ∈ env.seeds then m
    else match distinct m.isNew [] (es.filterMap StoredEntry.mailbox?) with
      | [] => m
      | [e] =>
        if env.openingFails then { m with stopped := true }
        else (m.logging [.handed [e]]).apply setup env (e.opening setup.ring)
      | batch => dispatch setup { m with queued := m.queued ++ [batch] }

/-! ## Events -/

def bootstrap (setup : Setup) (env : Surroundings) (m : Mailbox) : Mailbox :=
  if m.bootstrapped then m
  else
    let place := m.store.feed.position
    let m := { m with bootstrapped := true, place := some place }.logging [.subscribed place]
    m.takeIn setup env (env.access.snapshot m.store)

def handleCommand (setup : Setup) (env : Surroundings) (m : Mailbox) : Command → Mailbox
  | .bootstrap => m.bootstrap setup env
  | .addListener id => { m with listeners := m.listeners.insert id () }
  | .removeListener id => { m with listeners := m.listeners.erase id }
  | .remove opened => m.remove setup env opened
  | .query id => m.logging [.answered id m.index.firstMessages]
  | .shutdown => { m with stopped := true }

def handleNotice (setup : Setup) (env : Surroundings) (m : Mailbox) : Notice → Mailbox
  | .change c => m.takeIn setup env c.added
  | .lagged => m.takeIn setup env (env.access.snapshot m.store)
  | .closed => { m with place := none }

def notice? (m : Mailbox) : Option (Notice × Mailbox) := do
  let place ← m.place
  let (notice, place) ← m.store.feed.read? place
  some (notice, { m with place := some place })

def handleBatch (setup : Setup) (env : Surroundings) (m : Mailbox) (i : Nat) : Mailbox :=
  match m.running[i]? with
  | none => m
  | some batch =>
    let m := { m with running := m.running.eraseIdx i }
    let m :=
      if env.openingFails then m.logging [.lost batch]
      else batch.foldl (fun m e => m.apply setup env (e.opening setup.ring)) m
    dispatch setup m

def handle (setup : Setup) (env : Surroundings) (m : Mailbox) : Event → Mailbox
  | .command c => m.handleCommand setup env c
  | .notice =>
    match m.notice? with
    | none => m
    | some (notice, m) => m.handleNotice setup env notice
  | .batch i => m.handleBatch setup env i
  | .retry i =>
    match m.retries[i]? with
    | none => m
    | some retry => { m with retries := m.retries.eraseIdx i }.remove setup env retry.opened

omit [Suite] in
def writes (env : Surroundings) (m : Mailbox) : List Effect :=
  (if m.itemsChanged && env.canWriteItems then [.wroteItems m.index.items] else []) ++
    if m.ledgerChanged && env.canWriteLedger then [.wroteLedger m.ledger] else []

omit [Suite] in
/-- Write what changed. A write that fails is not repeated before the next change. -/
def flush (env : Surroundings) (m : Mailbox) : Mailbox :=
  { m with itemsChanged := false, ledgerChanged := false }.logging (m.writes env)

def step (setup : Setup) (env : Surroundings) (m : Mailbox) (e : Event) : Mailbox :=
  if m.stopped then m
  else
    let m := m.handle setup env e
    if m.stopped then m else m.flush env

/-- Start from what was written before, without what has outlived its time. -/
def restore (setup : Setup) (env : Surroundings) (store : Store) (items : List Item)
    (ledger : Ledger) : Mailbox :=
  let kept := ledger.prune env.now setup.ttl
  flush env
    { store
      index := Index.ofList items env.now setup.ttl
      ledger := kept
      itemsChanged := 0 < Index.countExpired items env.now setup.ttl
      ledgerChanged := kept.size < ledger.size }

end Mailbox

end SealedMail
