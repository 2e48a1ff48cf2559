import SealedMail.Sending.Delivery

/-!
# The course of a send

A send has its surroundings run errands: seal the message, carry the parcel to the peer, add an
entry to the store. Each is noted in the order in which it is asked for. The call itself asks for
the sealing (`request`); a task asks for the rest (`Delivery.run`). `Passage.send` is the whole.
-/

namespace SealedMail

inductive Errand where
  | sealTo (recipient : PublicRing) (envelope : Envelope)
  | carry (peer : Address) (parcel : Parcel)
  | add (entry : Entry)
  deriving DecidableEq, Repr

namespace Errand

def isSeal : Errand → Bool
  | sealTo _ _ => true
  | _ => false

def isAdd : Errand → Bool
  | add _ => true
  | _ => false

def carried? : Errand → Option (Address × Parcel)
  | carry peer parcel => some (peer, parcel)
  | _ => none

end Errand

/-- Note an errand and take what comes of it. -/
def ask {α : Type} (errand : Errand) (answer : α) : StateM (List Errand) α := fun errands =>
  (answer, errands ++ [errand])

variable [Suite]

def request (ring : KeyRing) (sealer : Sealer) (o : Outlook) (peer : Address)
    (recipient : Option PublicRing) (message : Message) (draws : Draws) :
    StateM (List Errand) (Prepared × Draws) :=
  match gates ring o peer recipient message with
  | .error prepared => pure (prepared, draws)
  | .ok (recipient, own) => do
    match ← ask (.sealTo recipient (.mailbox message))
        (sealer recipient (.mailbox message) draws) with
    | (.error error, draws) => pure (.failed (.cryptoFailure error.message), draws)
    | (.ok sealed, draws) =>
      pure (.ready
        { peer
          receiverKey := recipient.signatureKey
          ttl := message.ttl
          parcel := ⟨own, sealed, o.prefixHash peer, message.uid⟩ }, draws)

abbrev Transport := Address → Parcel → Except TransportError Unit

/-- Have a parcel carried, and store what does not arrive. What the node knows by then is `o`. -/
def Delivery.run (d : Delivery) (transport : Transport) (ring : KeyRing) (o : Outlook)
    (access : Access) (now : Timestamp) (store : Store) :
    StateM (List Errand) (SendOutcome × Store) := do
  match ← ask (.carry d.peer d.parcel) (transport d.peer d.parcel) with
  | .ok _ => pure (.arrived, store)
  | .error _ =>
    match d.entry ring o access now store with
    | .error error => pure (.fault error, store)
    | .ok entry => ask (.add entry) (put access store entry)

/-- What a send meets on its way; the node knows `before` at the call and `after` once the transport
has answered. -/
structure Passage where
  before : Outlook
  sealer : Sealer
  draws : Draws
  transport : Transport
  /-- What others do to the store before the transport has answered. -/
  meanwhile : Store → Store
  after : Outlook
  access : Access
  now : Timestamp

structure Sending where
  /-- The answer of the call, or else the outcome. -/
  result : Except SendError SendOutcome
  store : Store
  errands : List Errand

def Passage.send (p : Passage) (ring : KeyRing) (peer : Address) (recipient : Option PublicRing)
    (message : Message) (store : Store) : Sending :=
  match request ring p.sealer p.before peer recipient message p.draws [] with
  | ((.refused error, _), errands) => ⟨.error error, store, errands⟩
  | ((.failed error, _), errands) => ⟨.ok (.fault error), store, errands⟩
  | ((.ready d, _), errands) =>
    match d.run p.transport ring p.after p.access p.now (p.meanwhile store) errands with
    | ((outcome, store), errands) => ⟨.ok outcome, store, errands⟩

end SealedMail
