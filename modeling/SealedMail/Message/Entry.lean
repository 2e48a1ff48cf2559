import SealedMail.Message.Envelope
import SealedMail.Message.PayloadHash

/-!
# What the overlay stores

A `Parcel` is a sealed envelope with its routing hints in clear; a `Payload` adds the keys that may
store and remove it, and is stored under the digest of its `preimage`. An `Entry` is a signed,
numbered payload. Other data is stored next to mailbox entries; an `Item` is an entry together with
what it opened to.
-/

namespace SealedMail

structure Parcel where
  sender : Address
  sealed : Sealed
  /-- Empty for recipients that do not need it. -/
  prefixHash : Bytes
  /-- The uid of the message inside, in clear. -/
  uid : String
  deriving DecidableEq, Repr

instance : Codec Parcel :=
  .record
    (.field "sender_node_address" <| .field "sealed_and_signed" <| .field "address_prefix_hash" <|
      .field "uid" .nil)
    (fun p => (p.sender, p.sealed, p.prefixHash, p.uid, ()))
    fun (sender, sealed, prefixHash, uid, _) => ⟨sender, sealed, prefixHash, uid⟩

structure Payload where
  parcel : Parcel
  /-- Signs the addition. -/
  senderKey : SignatureKey
  /-- The receiver's key, which may sign the removal. -/
  ownerKey : SignatureKey
  ttl : UInt64
  deriving DecidableEq, Repr

namespace Payload

instance : Codec Payload :=
  .record
    (.field "prefixed_sealed_and_signed_message" <| .field "sender_pub_key_for_add_operation" <|
      .field "owner_pub_key" <| .field "ttl_millis" .nil)
    (fun p => (p.parcel, p.senderKey, p.ownerKey, p.ttl, ()))
    fun (parcel, senderKey, ownerKey, ttl, _) => ⟨parcel, senderKey, ownerKey, ttl⟩

def uid (p : Payload) : String := p.parcel.uid

/-- Octets behind their number modulo `2 ^ 32`. -/
def measured (bs : Bytes) : Bytes := bigEndian 4 bs.length ++ bs

/-- The octets whose digest is the content address: fields of any length are measured. -/
def preimage (p : Payload) : Bytes :=
  measured (utf8 p.parcel.sender.toText) ++ p.parcel.sealed.ephemeralKey.octets.toList ++
    p.parcel.sealed.nonce.toList ++ measured p.parcel.sealed.ciphertext ++
    measured p.parcel.prefixHash ++ measured (utf8 p.uid) ++ p.senderKey.octets.toList ++
    p.ownerKey.octets.toList ++ bigEndian 8 p.ttl.toNat

/-- The content address. -/
def hash [Suite] (p : Payload) : PayloadHash := digest p.preimage

end Payload

structure Entry where
  payload : Payload
  /-- The key that signed this entry. -/
  ownerKey : SignatureKey
  sequence : UInt32
  signature : Octets 64
  created : Timestamp
  receiverKey : SignatureKey
  deriving DecidableEq, Repr

namespace Entry

instance : Codec Entry :=
  .record
    (.field "payload" <| .field "owner_pub_key" <| .field "sequence_number" <|
      .field "signature" (c := .countedOctets 64) <| .field "creation_time_stamp" <|
      .field "receivers_pub_key" .nil)
    (fun e => (e.payload, e.ownerKey, e.sequence, e.signature, e.created, e.receiverKey, ()))
    fun (payload, ownerKey, sequence, signature, created, receiverKey, _) =>
      ⟨payload, ownerKey, sequence, signature, created, receiverKey⟩

def uid (e : Entry) : String := e.payload.uid

/-- What the owner of an entry signs. -/
def signedOctets (hash : PayloadHash) (sequence : UInt32) : Bytes :=
  hash.toList ++ bigEndian 4 sequence.toNat

def isExpired (e : Entry) (now : Timestamp) (ttl : UInt64) : Bool := e.created.isExpired now ttl

variable [Suite]

def hash (e : Entry) : PayloadHash := e.payload.hash

/-- Whether the owner's key verifies the signature. -/
def isSigned (e : Entry) : Bool := e.ownerKey.verifies (signedOctets e.hash e.sequence) e.signature

end Entry

/-- Data of other kinds, stored under a given address. -/
structure GenericEntry where
  hash : PayloadHash
  data : Bytes
  created : Timestamp
  deriving DecidableEq, Repr

instance : Codec GenericEntry :=
  .record (.field "payload_hash" <| .field "data" <| .field "creation_time_stamp" .nil)
    (fun e => (e.hash, e.data, e.created, ())) fun (hash, data, created, _) => ⟨hash, data, created⟩

inductive StoredEntry where
  | mailbox (entry : Entry)
  | generic (entry : GenericEntry)
  deriving DecidableEq, Repr

namespace StoredEntry

def toSum : StoredEntry → Entry ⊕ GenericEntry
  | mailbox entry => .inl entry
  | generic entry => .inr entry

def ofSum : Entry ⊕ GenericEntry → StoredEntry
  | .inl entry => mailbox entry
  | .inr entry => generic entry

instance : Codec StoredEntry :=
  .via (.either "Mailbox" inferInstance "Generic" inferInstance) toSum ofSum

def hash [Suite] : StoredEntry → PayloadHash
  | mailbox entry => entry.hash
  | generic entry => entry.hash

def mailbox? : StoredEntry → Option Entry
  | mailbox entry => some entry
  | generic _ => none

end StoredEntry

/-- One notice from the overlay. -/
structure Change where
  added : List StoredEntry := []
  removed : List StoredEntry := []
  deriving DecidableEq, Repr

structure Item where
  entry : Entry
  opened : Opened
  deriving DecidableEq, Repr

namespace Item

instance : Codec Item :=
  .record (.field "protected_mailbox_storage_entry" <| .field "decrypted_message_with_pub_key" .nil)
    (fun i => (i.entry, i.opened, ())) fun (e, o, _) => ⟨e, o⟩

/-- Pairs an entry with what it opened to, if that is a mailbox message. -/
def ofOpened? (entry : Entry) (opened : Opened) : Option Item :=
  opened.message?.map fun _ => ⟨entry, opened⟩

def message? (i : Item) : Option Message := i.opened.message?

/-- The uid inside the envelope, or else the one outside. -/
def uid (i : Item) : String :=
  match i.message? with
  | some message => message.uid
  | none => i.entry.uid

def hash [Suite] (i : Item) : PayloadHash := i.entry.hash

end Item

/-- Items in the order of their arrival, as they are kept. -/
structure ItemList where
  items : List Item := []
  deriving DecidableEq, Repr, Inhabited

instance : Codec ItemList :=
  .record (.field "items" (c := .list) .nil) (fun l => (l.items, ())) fun (items, _) => ⟨items⟩

end SealedMail
