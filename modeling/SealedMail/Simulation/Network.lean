import SealedMail.Simulation.Board
import SealedMail.Simulation.Node

/-!
# A network of nodes

Nodes share one store and one clock and run one after the other: what is left to do waits in line,
and `Network.settle` works it off. Deliveries and turns of mailboxes wait in the order in which they
came about; of mailboxes that one change makes ready, the one that has been at rest longest comes
first. Batches are opened when nothing else is left to do, in the order in which they were handed
over.
-/

namespace SealedMail

inductive Task where
  | turn (node : String)
  | deliver (ticket : Nat) (node : String) (d : Delivery)
  deriving DecidableEq, Repr

structure Notification where
  node : String
  listener : String
  sender : Address
  opened : Opened
  deriving DecidableEq, Repr

structure Network [Suite] where
  board : Board
  faults : Access := {}
  seconds : Nat := 0
  nodes : List Node := []
  tasks : List Task := []
  /-- Nodes in the order in which their mailboxes came to rest. -/
  resting : List String := []
  /-- The node of each open batch, the oldest batch first. -/
  opening : List String := []
  /-- The node of each removal that waits, the oldest request first. -/
  deferred : List String := []
  tickets : List (Nat × Ticket) := []
  answers : List (Nat × List Opened) := []
  notifications : List Notification := []
  next : Nat := 0

namespace Network

inductive Recipient where
  | node (name : String)
  | keys (source : KeySource)
  | nobody
  deriving DecidableEq, Repr

inductive Fault where
  | signing
  | addDuplicate
  | addInvalid
  | removal
  | snapshotTwice
  deriving DecidableEq, Repr

inductive NodeFault where
  | writing
  | sealing
  | opening
  deriving DecidableEq, Repr

inductive NodeAction where
  | bootstrap (seedsAnswer : Bool)
  | dataUpdated
  /-- A signal that changes nothing. -/
  | signal
  | send (whom : Recipient) (peer : Option Address) (message : Message)
  | remove (opened : Opened)
  | query
  | listen (listener : String)
  | unlisten (listener : String)
  | setAddress (address : Option Address)
  | setConnections (n : Nat)
  | setOnline (peer : Address) (online : Bool)
  | setCapabilities (peer : Address) (capabilities : Capabilities)
  | addSeed (address : Address)
  | disturb (d : Disturbance)
  | setFault (fault : NodeFault) (on : Bool)
  | showSent
  | showSaved
  | shutdown
  deriving DecidableEq, Repr

inductive Announced where
  | named (entry : String)
  | generic (entry : GenericEntry)
  deriving DecidableEq, Repr

inductive Action where
  | board (a : Board.Action)
  | node (name : String) (a : NodeAction)
  | setFault (fault : Fault) (on : Bool)
  | advance (seconds : Nat)
  | start (plan : NodePlan)
  | restart (name : String)
  /-- Publish a change that is not one of the store. -/
  | announce (added removed : List Announced)
  | closeFeed
  deriving DecidableEq, Repr

inductive Answer where
  | done
  | unknownName
  | board (a : Board.Answer)
  | yes (b : Bool)
  | feedClosed
  | listener (id : Nat)
  | noSuchListener
  | refused (e : SendError)
  | outcome (o : SendOutcome)
  | messages (ms : List Opened)
  | sent (parcels : List (Address × Parcel))
  | saved (s : Saved)
  | ticket (n : Nat)
  | query (n : Nat)
  deriving DecidableEq, Repr

variable [Suite]

/-! ## Turns -/

def find? (net : Network) (name : String) : Option Node := net.nodes.find? fun n => n.name = name

def setNode (net : Network) (n : Node) : Network :=
  { net with nodes := net.nodes.map fun m => if m.name = n.name then n else m }

def withNode (net : Network) (name : String) (act : Node → Network × Answer) : Network × Answer :=
  match net.find? name with
  | some n => act n
  | none => (net, .unknownName)

def isReady (net : Network) (name : String) : Bool :=
  (net.find? name).any fun n => n.isReady net.board.store

def wake (net : Network) : Network :=
  let ready := net.resting.filter fun name => net.isReady name && !net.tasks.contains (.turn name)
  { net with tasks := net.tasks ++ ready.map .turn }

/-- A mailbox that has had a turn goes on at once while it is ready, and then comes to rest. -/
def goOn (net : Network) (name : String) : Network :=
  if net.isReady name then { net with tasks := .turn name :: net.tasks.filter (· ≠ .turn name) }
  else { net with resting := net.resting.filter (· ≠ name) ++ [name] }

def report (net : Network) (n : Node) : Effect → Network
  | .notified id _ opened sender =>
    let listener := ((n.listenerNames.find? (·.1 = id)).map (·.2)).getD ""
    { net with notifications := net.notifications ++ [⟨n.name, listener, sender, opened⟩] }
  | .answered query messages => { net with answers := net.answers ++ [(query, messages)] }
  | _ => net

def turn (net : Network) (n : Node) (e : Event) : Network :=
  let env := n.surroundings net.faults net.board.clock net.seconds
  let mailbox := { n.mailbox with store := net.board.store }.step n.setup env e
  let log := mailbox.log
  let handed := (mailbox.running.drop (n.keptBatches e)).map fun _ => n.name
  let delayed := (mailbox.retries.drop (n.keptRetries e)).map fun _ => n.name
  let n := { n with mailbox }.observeLog
  let net :=
    { net with
      board := { net.board with store := mailbox.store }
      opening := net.opening ++ handed
      deferred := net.deferred ++ delayed }
  log.foldl (fun net effect => net.report n effect) (net.setNode n)

/-- Let a mailbox handle the next thing that waits for it: commands come before notices. -/
def runMailbox (net : Network) (n : Node) : Network :=
  match n.commands with
  | c :: commands => net.turn { n with commands } (.command c)
  | [] => net.turn n .notice

def deliver (net : Network) (n : Node) (d : Delivery) : Network × SendOutcome :=
  let n :=
    { n with
      address := if n.disturbance.losesAddress then none else n.address
      connections := n.disturbance.connections.getD n.connections }
  let ((outcome, store), errands) :=
    d.run n.transport n.setup.ring n.outlook net.faults net.board.clock net.board.store []
  let n :=
    { n with
      sent := n.sent ++ errands.filterMap Errand.carried?
      tally := { n.tally with adds := n.tally.adds + errands.countP Errand.isAdd } }
  ({ net.setNode n with board := { net.board with store } }, outcome)

def settleTicket (net : Network) (ticket : Nat) (outcome : SendOutcome) : Network :=
  { net with
    tickets := net.tickets.map fun (k, t) => if k = ticket then (k, .settled outcome) else (k, t) }

def perform (net : Network) : Task → Network
  | .turn name =>
    match net.find? name with
    | none => net
    | some n => (net.runMailbox n).goOn name
  | .deliver ticket name d =>
    match net.find? name with
    | none => net
    | some n =>
      let (net, outcome) := net.deliver n d
      net.settleTicket ticket outcome

/-- Work off what waits in line, at most `fuel` tasks; batches stay open. -/
def drain : (fuel : Nat) → Network → Network
  | 0, net => net
  | fuel + 1, net =>
    match net.tasks with
    | task :: tasks => drain fuel (perform { net with tasks } task).wake
    | [] => net

/-- Work off what waits, at most `fuel` tasks and batches. -/
def settle : (fuel : Nat) → Network → Network
  | 0, net => net
  | fuel + 1, net =>
    match net.tasks with
    | task :: tasks => settle fuel (perform { net with tasks } task).wake
    | [] =>
      match net.opening with
      | [] => net
      | name :: opening =>
        let net := { net with opening }
        match (net.find? name).filter fun n => !n.mailbox.stopped with
        | some n => settle fuel ((net.turn n (.batch 0)).goOn name).wake
        | none => settle fuel net

def settleFuel : Nat := 1000000

/-! ## Time -/

structure Deferred where
  node : Node
  /-- Its position among those of its node. -/
  index : Nat
  /-- Its position among all. -/
  place : Nat
  due : Nat

def deferred? (net : Network) (place : Nat) : Option Deferred := do
  let name ← net.deferred[place]?
  let node ← (net.find? name).filter fun n => !n.mailbox.stopped
  let index := (net.deferred.take place).count name
  let retry ← node.mailbox.retries[index]?
  some { node, index, place, due := retry.due }

/-- The waiting removal that is due first, by `limit` at the latest; of several the oldest. -/
def firstDue (net : Network) (limit : Nat) : Option Deferred :=
  let waiting := (List.range net.deferred.length).filterMap net.deferred?
  (waiting.filter (·.due ≤ limit)).foldl (fun best d =>
    match best with
    | none => some d
    | some b => if d.due < b.due then some d else some b) none

def advanceTo (limit : Nat) : (fuel : Nat) → Network → Network
  | 0, net => { net with seconds := limit }
  | fuel + 1, net =>
    match net.firstDue limit with
    | none => { net with seconds := limit }
    | some d =>
      let net :=
        { net with seconds := max net.seconds d.due, deferred := net.deferred.eraseIdx d.place }
      let net := (net.turn d.node (.retry d.index)).goOn d.node.name
      advanceTo limit fuel (settle settleFuel net.wake)

/-! ## Actions -/

def start (net : Network) (plan : NodePlan) (saved : Saved) : Network :=
  let (n, draws) :=
    Node.start plan saved net.faults net.board.clock net.seconds net.board.store net.board.draws
  let others := (· ≠ plan.name)
  let net :=
    { net with
      board := { net.board with draws }
      resting := net.resting.filter others ++ [plan.name]
      opening := net.opening.filter others
      deferred := net.deferred.filter others }
  if (net.find? plan.name).isSome then net.setNode n else { net with nodes := net.nodes ++ [n] }

/-- Stop a node after the commands that wait for it, and start it again from what it has written. -/
def restart (net : Network) (n : Node) : Network :=
  let net := drain settleFuel (net.setNode (n.order .shutdown)).wake
  match net.find? n.name with
  | some n => net.start n.plan n.saved
  | none => net

def initialSaved (net : Network) (plan : NodePlan) : Saved where
  items := plan.items.map fun names => names.filterMap fun name =>
    (net.board.entries.get? name).bind fun (entry, opened) => Item.ofOpened? entry opened
  ledger := plan.ledger
  files := plan.files

def address? (net : Network) : Recipient → Option Address
  | .node name => (net.find? name).bind fun n => n.plan.address
  | _ => none

def ring? (net : Network) : Recipient → Draws → Option PublicRing × Draws
  | .node name, draws => ((net.find? name).map fun n => n.setup.ring.publicRing, draws)
  | .keys source, draws =>
    let (ring, draws) := source.ring draws
    (some ring.publicRing, draws)
  | .nobody, draws => (none, draws)

def send (net : Network) (n : Node) (whom : Recipient) (peer : Option Address) (message : Message) :
    Network × Answer :=
  let peer := (peer <|> net.address? whom).getD ⟨"", 0⟩
  let (recipient, draws) := net.ring? whom net.board.draws
  let o := n.outlook
  let ((prepared, draws), errands) :=
    request n.setup.ring n.sealer o peer recipient message draws []
  let sealed := if n.sealFails then 0 else errands.countP Errand.isSeal
  let n := { n with tally := { n.tally with sealed := n.tally.sealed + sealed } }
  let net := { net with board := { net.board with draws } }.setNode n
  match prepared with
  | .refused error => (net, .refused error)
  | .failed error => (net, .outcome (.fault error))
  | .ready d =>
    ({ net with
      next := net.next + 1
      tickets := net.tickets ++ [(net.next, .waiting)]
      tasks := net.tasks ++ [.deliver net.next n.name d] }, .ticket net.next)

def setNodeFault (n : Node) (on : Bool) : NodeFault → Node
  | .writing => { n with writeFails := on }
  | .sealing => { n with sealFails := on }
  | .opening => { n with openFails := on }

def nodeAct (net : Network) (n : Node) : NodeAction → Network × Answer
  | .bootstrap seedsAnswer =>
    let n := { n with tally := { n.tally with requests := n.tally.requests + 1 } }
    (net.setNode (if seedsAnswer then n else n.order .bootstrap), .done)
  | .dataUpdated => (net.setNode (n.order .bootstrap), .done)
  | .signal => (net, .done)
  | .send whom peer message => net.send n whom peer message
  | .remove opened => (net.setNode (n.order (.remove opened)), .done)
  | .query =>
    ({ net.setNode (n.order (.query net.next)) with next := net.next + 1 }, .query net.next)
  | .listen name =>
    let (n, id) := n.listen name
    (net.setNode n, .listener id)
  | .unlisten name =>
    if n.handles.holds name then (net.setNode (n.unlisten name), .done) else (net, .noSuchListener)
  | .setAddress address => (net.setNode { n with address }, .done)
  | .setConnections connections => (net.setNode { n with connections }, .done)
  | .setOnline peer online =>
    let others := n.online.filter (· ≠ peer)
    (net.setNode { n with online := if online then others ++ [peer] else others }, .done)
  | .setCapabilities peer capabilities =>
    let others := n.capabilities.filter (·.1 ≠ peer)
    (net.setNode { n with capabilities := others ++ [(peer, capabilities)] }, .done)
  | .addSeed address => (net.setNode { n with seeds := n.seeds ++ [address] }, .done)
  | .disturb disturbance => (net.setNode { n with disturbance }, .done)
  | .setFault fault on => (net.setNode (setNodeFault n on fault), .done)
  | .showSent => (net, .sent n.sent)
  | .showSaved => (net, .saved n.saved)
  | .shutdown => (net.setNode (n.order .shutdown), .done)

def setFault (faults : Access) (on : Bool) : Fault → Access
  | .signing => { faults with signingFails := fun _ => on }
  | .addDuplicate => { faults with addFails := if on then some .duplicateEntry else none }
  | .addInvalid => { faults with addFails := if on then some .invalidSignature else none }
  | .removal => { faults with refusesRemoval := on }
  | .snapshotTwice => { faults with repeatsSnapshot := on }

def announced (net : Network) (es : List Announced) : List StoredEntry :=
  es.filterMap fun
    | .named name => (net.board.entries.get? name).map fun e => .mailbox e.1
    | .generic e => some (.generic e)

def act (net : Network) : Action → Network × Answer
  | .board a =>
    let (board, answer) := net.board.act a
    ({ net with board }, .board answer)
  | .node name a => net.withNode name fun n => net.nodeAct n a
  | .setFault fault on => ({ net with faults := setFault net.faults on fault }, .done)
  | .advance seconds => (advanceTo (net.seconds + seconds) settleFuel net, .done)
  | .start plan => (net.start plan (net.initialSaved plan), .done)
  | .restart name => net.withNode name fun n => (net.restart n, .done)
  | .announce added removed =>
    let feed := net.board.store.feed
    if feed.closed then (net, .feedClosed)
    else
      let change : Change := ⟨net.announced added, net.announced removed⟩
      let store := { net.board.store with feed := feed.publish change }
      ({ net with board := { net.board with store } }, .yes (net.nodes.any Node.isSubscribed))
  | .closeFeed =>
    let store := { net.board.store with feed := net.board.store.feed.close }
    ({ net with board := { net.board with store } }, .done)

def resolve (net : Network) : Answer → Answer
  | .ticket k =>
    match ((net.tickets.find? (·.1 = k)).map (·.2)).bind Ticket.outcome? with
    | some outcome => .outcome outcome
    | none => .ticket k
  | .query k => .messages (((net.answers.find? (·.1 = k)).map (·.2)).getD [])
  | answer => answer

/-- Act several times in a row, then let everything settle. -/
def step (net : Network) (actions : List Action) : Network × List Answer :=
  let net := { net with notifications := [], answers := [], tickets := [] }
  let (net, answers) := actions.foldl (fun (net, answers) a =>
    let (net, answer) := net.act a
    (net.wake, answers ++ [answer])) (net, [])
  let net := settle settleFuel net
  (net, answers.map net.resolve)

/-- A network whose nodes read a feed of their own instead of the store's. -/
def detached (net : Network) (capacity : Nat) : Network :=
  let feed : Feed := { capacity := capacity.nextPowerOfTwo }
  { net with
    board := { net.board with store := { net.board.store with feed }, isSilent := true }
    faults := { net.faults with isSilent := true } }

end Network

end SealedMail
