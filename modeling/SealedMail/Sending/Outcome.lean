/-!
# Outcomes of a send

A send is refused by the call, or it ends in a `SendOutcome`. A `Ticket` stands for the outcome
until it is known; if the sender goes away, the service has stopped.
-/

namespace SealedMail

inductive SendError where
  | notReady (reason : String)
  | missingRing
  | unsupported (peer : String)
  | cryptoFailure (reason : String)
  | broadcastInsufficient (completed failed : Nat)
  | duplicateEntry
  | ownAddressUnknown
  | selfSend
  | serviceStopped
  deriving DecidableEq, Repr

def SendError.message : SendError → String
  | .notReady reason => s!"Network not ready: {reason}"
  | .missingRing => "Recipient public key ring is missing"
  | .unsupported peer => s!"Peer {peer} does not support the required capabilities"
  | .cryptoFailure reason => s!"Crypto failure: {reason}"
  | .broadcastInsufficient completed failed =>
    s!"Message was not sufficiently broadcast: {completed} completed, {failed} failed"
  | .duplicateEntry => "Data already exists in the overlay"
  | .ownAddressUnknown => "Own node address is not known"
  | .selfSend => "Refusing to send a mailbox message to our own key ring"
  | .serviceStopped => "Mailbox service stopped"

inductive SendOutcome where
  /-- The peer was online and has the message. -/
  | arrived
  /-- The message waits in the overlay. -/
  | stored
  | fault (error : SendError)
  deriving DecidableEq, Repr

inductive Ticket where
  | waiting
  | settled (outcome : SendOutcome)
  /-- The sender went away without an outcome. -/
  | abandoned
  deriving DecidableEq, Repr

/-- The outcome as far as it is known. -/
def Ticket.outcome? : Ticket → Option SendOutcome
  | .waiting => none
  | .settled outcome => some outcome
  | .abandoned => some (.fault .serviceStopped)

/-- Why the transport did not deliver. -/
inductive TransportError where
  | peerUnreachable (peer : String)
  | connectionClosed (peer : String)
  deriving DecidableEq, Repr

def TransportError.message : TransportError → String
  | .peerUnreachable peer => s!"Peer unreachable: {peer}"
  | .connectionClosed peer => s!"Connection closed: {peer}"

end SealedMail
