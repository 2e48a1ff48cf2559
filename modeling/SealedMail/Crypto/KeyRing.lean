import SealedMail.Codec.Record
import SealedMail.Crypto.Suite

/-!
# Key rings

A node owns a signature seed and an encryption secret; their public halves are what other nodes
address it by. Public keys are any 32 octets until they are used.
-/

namespace SealedMail

/-- The hexadecimal digits of the first two octets. -/
def Octets.abbreviated {n : Nat} (a : Octets n) : String := Hex.encode (a.toList.take 2) ++ ".."

/-- Verifies what its owner signs. -/
structure SignatureKey where
  octets : Octets 32
  deriving DecidableEq, Repr

namespace SignatureKey

instance : Codec SignatureKey := .via inferInstance octets mk

variable [Suite]

/-- Refuses octets that are no key. -/
def ofOctets (octets : Octets 32) : Except CryptoError SignatureKey :=
  if Suite.validKey octets then .ok ⟨octets⟩ else .error .invalidPublicKey

/-- An invalid key verifies nothing, and says so. -/
def check (key : SignatureKey) (message : Bytes) (signature : Octets 64) :
    Except CryptoError Unit :=
  if !Suite.validKey key.octets then .error .invalidPublicKey
  else if Suite.verifies key.octets message signature then .ok ()
  else .error .signatureMismatch

def verifies (key : SignatureKey) (message : Bytes) (signature : Octets 64) : Bool :=
  (key.check message signature).isOk

def describe (key : SignatureKey) : String := s!"Ed25519PublicKey({key.octets.abbreviated})"

end SignatureKey

/-- What its owner's secret agrees with. -/
structure EncryptionKey where
  octets : Octets 32
  deriving DecidableEq, Repr

namespace EncryptionKey

instance : Codec EncryptionKey := .via inferInstance octets mk

def ofBytes (bs : Bytes) : Except CryptoError EncryptionKey :=
  match Octets.ofList? bs with
  | some octets => .ok ⟨octets⟩
  | none => .error (.invalidKeyLength 32 bs.length)

def describe (key : EncryptionKey) : String := s!"X25519PublicKey({key.octets.abbreviated})"

end EncryptionKey

structure PublicRing where
  signatureKey : SignatureKey
  encryptionKey : EncryptionKey
  deriving DecidableEq, Repr

instance : Codec PublicRing :=
  .record (.field "signature_pub_key" <| .field "encryption_pub_key" .nil)
    (fun r => (r.signatureKey, r.encryptionKey, ())) fun (s, e, _) => ⟨s, e⟩

/-- The public halves of a seed and a secret. -/
def PublicRing.ofSecrets [Suite] (signatureSeed encryptionSecret : Octets 32) : PublicRing :=
  ⟨⟨Suite.signatureKey signatureSeed⟩, ⟨Suite.encryptionKey encryptionSecret⟩⟩

structure KeyRing [Suite] where
  signatureSeed : Octets 32
  encryptionSecret : Octets 32
  publicRing : PublicRing
  publicRing_eq : publicRing = .ofSecrets signatureSeed encryptionSecret

namespace KeyRing

variable [Suite]

def ofSecrets (signatureSeed encryptionSecret : Octets 32) : KeyRing :=
  ⟨signatureSeed, encryptionSecret, .ofSecrets signatureSeed encryptionSecret, rfl⟩

def generate (draws : Draws) : KeyRing × Draws :=
  let (seed, draws) := draws.take 32
  let (secret, draws) := draws.take 32
  (ofSecrets seed secret, draws)

abbrev signatureKey (ring : KeyRing) : SignatureKey := ring.publicRing.signatureKey

abbrev encryptionKey (ring : KeyRing) : EncryptionKey := ring.publicRing.encryptionKey

def sign (ring : KeyRing) (message : Bytes) : Octets 64 := Suite.sign ring.signatureSeed message

/-- Secrets are not shown. -/
def describe (ring : KeyRing) : String :=
  "KeyRing \x7b pub_key_ring: PubKeyRing \x7b " ++
    s!"signature_pub_key: {ring.signatureKey.describe}, " ++
    s!"encryption_pub_key: {ring.encryptionKey.describe} \x7d, .. \x7d"

end KeyRing

end SealedMail
