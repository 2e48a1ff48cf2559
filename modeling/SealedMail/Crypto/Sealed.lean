import SealedMail.Crypto.KeyRing

/-!
# Sealed texts

A text is sealed to an encryption key: the sender signs it together with that key, and the sender's
key, the signature and the text are encrypted under a key that only a fresh secret and the
recipient's secret agree on. `KeyRing.sealTo` seals and `KeyRing.reveal` opens what was sealed to
the ring.
-/

namespace SealedMail

structure Sealed where
  ephemeralKey : EncryptionKey
  nonce : Octets 24
  ciphertext : Bytes
  deriving DecidableEq, Repr

namespace Sealed

instance : Codec Sealed :=
  .record (.field "ephemeral_pub_key" <| .field "nonce" <| .field "ciphertext" .nil)
    (fun s => (s.ephemeralKey, s.nonce, s.ciphertext, ())) fun (e, n, c, _) => ⟨e, n, c⟩

def keyDomain : Bytes := ascii "P2P-MAILBOX-SEAL-v1".toList

def signatureDomain : Bytes := ascii "P2P-MAILBOX-SIGN-v1".toList

/-- What the sender of a text signs. -/
def signedOctets (recipient : EncryptionKey) (plain : Bytes) : Bytes :=
  signatureDomain ++ recipient.octets.toList ++ plain

def secretKey [Suite] (shared : Octets 32) (ephemeral recipient : EncryptionKey) : Octets 32 :=
  digest (keyDomain ++ shared.toList ++ ephemeral.octets.toList ++ recipient.octets.toList)

/-- What is encrypted: the sender's key, a signature and the text. -/
def inner (sender : SignatureKey) (signature : Octets 64) (plain : Bytes) : Bytes :=
  sender.octets.toList ++ signature.toList ++ plain

def inner? (bs : Bytes) : Option (Octets 32 × Octets 64 × Bytes) := do
  let (sender, rest) ← Octets.take? bs
  let (signature, plain) ← Octets.take? rest
  some (sender, signature, plain)

end Sealed

namespace KeyRing

variable [Suite]

/-- Seal with a given fresh secret and nonce. -/
def sealWith (ring : KeyRing) (recipient : EncryptionKey) (plain : Bytes) (secret : Octets 32)
    (nonce : Octets 24) : Except CryptoError Sealed :=
  let ephemeral : EncryptionKey := ⟨Suite.encryptionKey secret⟩
  let shared := Suite.agree secret recipient.octets
  let signature := ring.sign (Sealed.signedOctets recipient plain)
  let inner := Sealed.inner ring.signatureKey signature plain
  (Suite.encryptText (Sealed.secretKey shared ephemeral recipient) nonce inner).map
    fun ciphertext => ⟨ephemeral, nonce, ciphertext⟩

/-- Seal with the next 32 octets as fresh secret and the 24 after them as nonce. -/
def sealTo (ring : KeyRing) (recipient : EncryptionKey) (plain : Bytes) (draws : Draws) :
    Except CryptoError Sealed × Draws :=
  let (secret, draws) := draws.take 32
  let (nonce, draws) := draws.take 24
  (ring.sealWith recipient plain secret nonce, draws)

/-- The text sealed to this ring and the key of its sender. -/
def reveal (ring : KeyRing) (sealed : Sealed) : Except CryptoError (Bytes × SignatureKey) := do
  let shared := Suite.agree ring.encryptionSecret sealed.ephemeralKey.octets
  let secret := Sealed.secretKey shared sealed.ephemeralKey ring.encryptionKey
  let inner ← Suite.decryptText secret sealed.nonce sealed.ciphertext
  match Sealed.inner? inner with
  | none => throw (.decryptionFailed "truncated envelope")
  | some (key, signature, plain) =>
    let sender ← SignatureKey.ofOctets key
    sender.check (Sealed.signedOctets ring.encryptionKey plain) signature
    return (plain, sender)

end KeyRing

end SealedMail
