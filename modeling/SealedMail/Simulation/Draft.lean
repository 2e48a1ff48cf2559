import SealedMail.Message.Entry

/-!
# Drafts of entries

A `Draft` says how an entry is made, honestly or not: any part may be given instead of derived, and
octets may be flipped after sealing and after signing. Making one seals at most once.
-/

namespace SealedMail

inductive KeySource where
  | secrets (signatureSeed encryptionSecret : Octets 32)
  | generated
  deriving DecidableEq, Repr

def KeySource.ring [Suite] (k : KeySource) (draws : Draws) : KeyRing × Draws :=
  match k with
  | .secrets seed secret => (.ofSecrets seed secret, draws)
  | .generated => KeyRing.generate draws

/-- Someone with a key ring, or of whom only a signature key is known. -/
inductive Party where
  | ring (source : KeySource)
  | key (key : SignatureKey)
  deriving DecidableEq, Repr

structure Known [Suite] where
  signatureKey : SignatureKey
  ring? : Option KeyRing

def Party.meet [Suite] (p : Party) (draws : Draws) : Known × Draws :=
  match p with
  | .ring source =>
    let (keys, draws) := source.ring draws
    (⟨keys.signatureKey, some keys⟩, draws)
  | .key signatureKey => (⟨signatureKey, none⟩, draws)

/-- Meet a party, if one is given, or else take the one that stands in for it. -/
def Party.meetOr [Suite] (p : Option Party) (other : Known) (draws : Draws) : Known × Draws :=
  match p with
  | some p => p.meet draws
  | none => (other, draws)

inductive Flip where
  | ciphertext (i : Nat) (mask : UInt8)
  | ephemeral (i : Nat) (mask : UInt8)
  | nonce (i : Nat) (mask : UInt8)
  /-- Keep only the first octets of the ciphertext. -/
  | cut (n : Nat)
  | signature (i : Nat) (mask : UInt8)
  deriving DecidableEq, Repr

namespace Flip

def inBytes (i : Nat) (mask : UInt8) (bs : Bytes) : Bytes := bs.modify i (· ^^^ mask)

def inOctets {n : Nat} (i : Nat) (mask : UInt8) (a : Octets n) : Octets n :=
  ⟨inBytes i mask a.toList, by simp [inBytes]⟩

def inSealed (s : Sealed) : Flip → Sealed
  | ciphertext i mask => { s with ciphertext := inBytes i mask s.ciphertext }
  | ephemeral i mask => { s with ephemeralKey := ⟨inOctets i mask s.ephemeralKey.octets⟩ }
  | nonce i mask => { s with nonce := inOctets i mask s.nonce }
  | cut n => { s with ciphertext := s.ciphertext.take n }
  | signature .. => s

def inSignature (a : Octets 64) : Flip → Octets 64
  | signature i mask => inOctets i mask a
  | _ => a

end Flip

inductive Contents where
  | given (sealed : Sealed)
  | plain (bytes : Bytes)
  | envelope
  deriving DecidableEq, Repr

structure Draft where
  sender : Party
  receiver : Party
  address : Address
  envelope : Envelope
  contents : Contents := .envelope
  flips : List Flip := []
  uid : String
  prefixHash : Bytes := []
  addKey : Option Party := none
  owner : Option Party := none
  ttl : UInt64 := defaultTtlMillis
  sequence : UInt32 := 1
  created : Timestamp := ⟨0⟩
  signature : Option (Octets 64) := none
  signer : Option Party := none
  signedAs : Option Party := none
  receiverKey : Option Party := none
  /-- What the entry is said to open to, and the key it is said to be signed with. -/
  openedTo : Envelope
  openedBy : Option Party := none
  deriving DecidableEq, Repr

variable [Suite]

/-- Seal what a draft puts into its parcel; nothing can be sealed without rings. -/
def Draft.sealed (d : Draft) (sender receiver : Known) (draws : Draws) : Sealed × Draws :=
  let hollow : Sealed := ⟨⟨.replicate 32 0⟩, .replicate 24 0, []⟩
  let closing (plain : Bytes) : Sealed × Draws :=
    match sender.ring?, receiver.ring? with
    | some s, some r =>
      let (result, draws) := s.sealTo r.encryptionKey plain draws
      (result.toOption.getD hollow, draws)
    | _, _ => (hollow, draws)
  let (sealed, draws) := match d.contents with
    | .given sealed => (sealed, draws)
    | .plain bytes => closing bytes
    | .envelope => closing (Codec.put d.envelope)
  (d.flips.foldl Flip.inSealed sealed, draws)

/-- The entry of a draft, and what it is said to open to. -/
def Draft.make (d : Draft) (draws : Draws) : Entry × Opened × Draws :=
  let (sender, draws) := d.sender.meet draws
  let (receiver, draws) := d.receiver.meet draws
  let (sealed, draws) := d.sealed sender receiver draws
  let (addKey, draws) := Party.meetOr d.addKey sender draws
  let (owner, draws) := Party.meetOr d.owner receiver draws
  let (signer, draws) := Party.meetOr d.signer sender draws
  let (signedAs, draws) := Party.meetOr d.signedAs signer draws
  let (receiverKey, draws) := Party.meetOr d.receiverKey receiver draws
  let (openedBy, draws) := Party.meetOr d.openedBy sender draws
  let payload : Payload :=
    ⟨⟨d.address, sealed, d.prefixHash, d.uid⟩, addKey.signatureKey, owner.signatureKey, d.ttl⟩
  let signed := match d.signature, signer.ring? with
    | some signature, _ => signature
    | none, some ring => ring.sign (Entry.signedOctets payload.hash d.sequence)
    | none, none => .replicate 64 0
  ({ payload
     ownerKey := signedAs.signatureKey
     sequence := d.sequence
     signature := d.flips.foldl Flip.inSignature signed
     created := d.created
     receiverKey := receiverKey.signatureKey },
   ⟨d.openedTo, openedBy.signatureKey⟩, draws)

end SealedMail
