import SealedMail.Overlay.Access
import SealedMail.Sending.Outcome

/-!
# Sending

A send is prepared in the call: gates are passed in a fixed order and the message is sealed
(`prepare`). What is prepared is handed to the transport; if the peer cannot be reached it is stored
in the overlay (`Delivery.publish`).
-/

namespace SealedMail

structure Outlook where
  running : Bool
  bootstrapped : Bool
  address : Option Address
  connections : Nat
  /-- What a peer announced; `none` if nothing is known. -/
  capabilities : Address → Option Capabilities

namespace Outlook

def obstacle? (o : Outlook) : Option SendError :=
  if !o.bootstrapped then some (.notReady "not bootstrapped yet")
  else if o.connections = 0 then some (.notReady "no P2P network nodes connected")
  else none

/-- Whether the peer announced all that the message needs; a peer that announced nothing supports
only messages that need nothing. -/
def supports (o : Outlook) (peer : Address) (message : Message) : Bool :=
  match message.required with
  | none => true
  | some required =>
    match o.capabilities peer with
    | some present => present.includes required
    | none => false

/-- The hash by which the peer can sort out messages, empty if it does not need one. -/
def prefixHash [Suite] (o : Outlook) (peer : Address) : Bytes :=
  if ((o.capabilities peer).getD {}).contains .noAddressPrefix then [] else peer.prefixHash.toList

end Outlook

structure Delivery where
  peer : Address
  receiverKey : SignatureKey
  ttl : UInt64
  parcel : Parcel
  deriving DecidableEq, Repr

/-- What the call of a send comes to: it fails itself (`refused`), its outcome is known at once
(`failed`), or there is something to deliver. -/
inductive Prepared where
  | refused (error : SendError)
  | failed (error : SendError)
  | ready (delivery : Delivery)
  deriving DecidableEq, Repr

variable [Suite]

/-- The gates of a send in order: what the first one that is closed comes to, or else the
recipient's ring and the own address. -/
def gates (ring : KeyRing) (o : Outlook) (peer : Address) (recipient : Option PublicRing)
    (message : Message) : Except Prepared (PublicRing × Address) :=
  if !o.running then .error (.refused .serviceStopped)
  else match recipient with
    | none => .error (.failed .missingRing)
    | some recipient =>
      match o.address with
      | none => .error (.refused .ownAddressUnknown)
      | some own =>
        if recipient = ring.publicRing then .error (.refused .selfSend)
        else match o.obstacle? with
          | some error => .error (.failed error)
          | none =>
            if !o.supports peer message then .error (.failed (.unsupported peer.toText))
            else .ok (recipient, own)

abbrev Sealer := PublicRing → Envelope → Draws → Except CryptoError Sealed × Draws

def prepare (ring : KeyRing) (sealer : Sealer) (o : Outlook) (peer : Address)
    (recipient : Option PublicRing) (message : Message) (draws : Draws) : Prepared × Draws :=
  match gates ring o peer recipient message with
  | .error prepared => (prepared, draws)
  | .ok (recipient, own) =>
    match sealer recipient (.mailbox message) draws with
    | (.error error, draws) => (.failed (.cryptoFailure error.message), draws)
    | (.ok sealed, draws) =>
      (.ready
        { peer
          receiverKey := recipient.signatureKey
          ttl := message.ttl
          parcel := ⟨own, sealed, o.prefixHash peer, message.uid⟩ }, draws)

namespace Delivery

def payload (d : Delivery) (ring : KeyRing) : Payload :=
  ⟨d.parcel, ring.signatureKey, d.receiverKey, d.ttl⟩

def entry (d : Delivery) (ring : KeyRing) (o : Outlook) (access : Access) (now : Timestamp)
    (store : Store) : Except SendError Entry :=
  match o.obstacle?, o.address with
  | some error, _ => .error error
  | none, none => .error .ownAddressUnknown
  | none, some _ =>
    (access.mint store (d.payload ring) ring d.receiverKey now).mapError
      fun error => .cryptoFailure error.message

omit [Suite] in
def outcome : Broadcast → SendOutcome
  | .sufficient _ => .stored
  | .insufficient completed failed => .fault (.broadcastInsufficient completed failed)

omit [Suite] in
def refusal : OverlayError → SendError
  | .duplicateEntry => .duplicateEntry
  | .invalidSignature => .cryptoFailure "overlay rejected entry signature"

def put (access : Access) (store : Store) (entry : Entry) : SendOutcome × Store :=
  match access.add store entry with
  | .error error => (.fault (refusal error), store)
  | .ok stored => (outcome store.broadcast, stored)

/-- Store a delivery that the transport could not make. What the node knows may have changed
meanwhile. -/
def publish (d : Delivery) (ring : KeyRing) (o : Outlook) (access : Access) (now : Timestamp)
    (store : Store) : SendOutcome × Store :=
  match d.entry ring o access now store with
  | .error error => (.fault error, store)
  | .ok entry => put access store entry

end Delivery

end SealedMail
