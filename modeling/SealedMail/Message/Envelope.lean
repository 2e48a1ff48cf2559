import SealedMail.Crypto.Sealed
import SealedMail.Message.Address
import SealedMail.Message.Capability
import SealedMail.Message.Time

/-!
# Messages and envelopes

An envelope holds a mailbox message, which is kept until its recipient comes online, or a direct
one, which is not. An envelope is sealed in its octet form; `Opened` is an envelope with the key
that signed it.
-/

namespace SealedMail

structure Message where
  uid : String
  sender : Address
  kind : String
  body : Bytes
  ttl : UInt64 := defaultTtlMillis
  /-- What the recipient has to understand; `none` asks for nothing. -/
  required : Option Capabilities := none
  deriving DecidableEq, Repr

instance : Codec Message :=
  .record
    (.field "uid" <| .field "sender_node_address" <| .field "message_type" <| .field "body" <|
      .field "ttl_millis" <| .field "required_capabilities" .nil)
    (fun m => (m.uid, m.sender, m.kind, m.body, m.ttl, m.required, ()))
    fun (uid, sender, kind, body, ttl, required, _) => ⟨uid, sender, kind, body, ttl, required⟩

inductive Envelope where
  | mailbox (message : Message)
  | direct (kind : String) (body : Bytes)
  deriving DecidableEq, Repr

namespace Envelope

def message? : Envelope → Option Message
  | mailbox message => some message
  | direct .. => none

/-- A direct envelope's kind and body. -/
@[reducible] def directContent : Codec (String × Bytes) :=
  .record (.field "message_type" <| .field "body" .nil) (fun (k, b) => (k, b, ())) fun (k, b, _) =>
    (k, b)

def toSum : Envelope → Message ⊕ (String × Bytes)
  | mailbox message => .inl message
  | direct kind body => .inr (kind, body)

def ofSum : Message ⊕ (String × Bytes) → Envelope
  | .inl message => mailbox message
  | .inr (kind, body) => direct kind body

instance : Codec Envelope :=
  .via (.either "Mailbox" inferInstance "Direct" directContent) toSum ofSum

end Envelope

structure Opened where
  envelope : Envelope
  signatureKey : SignatureKey
  deriving DecidableEq, Repr

namespace Opened

instance : Codec Opened :=
  .record (.field "network_envelope" <| .field "signature_pub_key" .nil)
    (fun o => (o.envelope, o.signatureKey, ())) fun (e, k, _) => ⟨e, k⟩

def message? (o : Opened) : Option Message := o.envelope.message?

end Opened

/-- Why a sealed envelope could not be opened. -/
inductive OpenError where
  | notForUs (reason : String)
  | malformed (reason : String)
  deriving DecidableEq, Repr

def OpenError.message : OpenError → String
  | .notForUs reason => s!"Envelope not addressed to us: {reason}"
  | .malformed reason => s!"Malformed envelope: {reason}"

namespace KeyRing

variable [Suite]

def sealEnvelope (ring : KeyRing) (recipient : PublicRing) (envelope : Envelope) (draws : Draws) :
    Except CryptoError Sealed × Draws :=
  ring.sealTo recipient.encryptionKey (Codec.put envelope) draws

/-- Octets that are no envelope are malformed; whatever follows an envelope is ignored. -/
def openEnvelope (ring : KeyRing) (sealed : Sealed) : Except OpenError Opened :=
  match ring.reveal sealed with
  | .error e => .error (.notForUs e.message)
  | .ok (plain, key) =>
    match Codec.ofOctets? plain with
    | some envelope => .ok ⟨envelope, key⟩
    | none => .error (.malformed "not an envelope")

end KeyRing

end SealedMail
