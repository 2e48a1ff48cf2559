import SealedMail.Mailbox.Loop
import SealedMail.Proofs.Crypto.Sealing

/-!
# Transparent primitives

`Suite.transparent` hides nothing and has all of `Suite.Laws`: a digest is a checksum, a signature
shows the seed and the digest of the message, and a text is encrypted by putting the key in front of
it. So the laws do not contradict each other, and whole histories can be computed. The rings,
entries and surroundings below are there for that.
-/

namespace SealedMail.Suite

/-- A checksum modulo `2 ^ 256`. -/
def checksum (bs : Bytes) : Octets 32 :=
  .ofNat 32 (bs.foldl (fun n b => (257 * n + b.toNat + 1) % Nat.pow 2 256) 0)

def seedAndChecksum (seed : Octets 32) (message : Bytes) : Octets 64 :=
  ⟨seed.toList ++ (checksum message).toList, by simp⟩

@[reducible] def transparent : Suite where
  digest := checksum
  encryptionKey := id
  agree a b := .ofNat 32 (a.toNat + b.toNat)
  signatureKey := id
  sign := seedAndChecksum
  validKey _ := true
  verifies key message signature := signature = seedAndChecksum key message
  encrypt key _ plain := if plain.length < Codec.maxLength then some (key.toList ++ plain) else none
  decrypt key _ text := do
    let (tag, plain) ← Octets.take? text
    if tag = key then some plain else none

theorem transparent_laws : @Laws transparent :=
  letI := transparent
  { agree_comm := fun a b => congrArg (Octets.ofNat 32) (Nat.add_comm a.toNat b.toNat)
    validKey := fun _ => rfl
    verifies := fun seed message => decide_eq_true (Eq.refl (seedAndChecksum seed message))
    decrypt_encrypt := fun key nonce plain text h => by
      simp only [Suite.encrypt, Option.ite_none_right_eq_some, Option.some.injEq] at h
      obtain ⟨-, rfl⟩ := h
      simp [Suite.decrypt]
    length_lt_of_encrypt := fun key nonce plain text h => by
      simp only [Suite.encrypt, Option.ite_none_right_eq_some] at h
      exact h.1 }

end SealedMail.Suite

namespace SealedMail.Transparent

attribute [local instance] Suite.transparent

/-- The ring whose secrets repeat an octet. -/
def ring (b : UInt8) : KeyRing := .ofSecrets (.replicate 32 b) (.replicate 32 b)

/-- Draws that are all zero. -/
def zeros : Draws := { block := fun _ => .replicate 32 0 }

def letter (uid : String) : Message :=
  { uid, sender := ⟨"a.onion", 1⟩, kind := "note", body := [1] }

/-- What one ring seals to another, always with the same draws. -/
def payload (sender recipient : KeyRing) (message : Message) : Payload :=
  match sender.sealWith recipient.encryptionKey (Codec.put (.mailbox message : Envelope))
    (.replicate 32 0) (.replicate 24 0) with
  | .ok sealed =>
    ⟨⟨message.sender, sealed, [], message.uid⟩, sender.signatureKey, recipient.signatureKey,
      message.ttl⟩
  | .error _ =>
    ⟨⟨message.sender, ⟨sender.encryptionKey, .replicate 24 0, []⟩, [], message.uid⟩,
      sender.signatureKey, recipient.signatureKey, message.ttl⟩

/-- Any key and signature with a text, encrypted for a ring. -/
def enclosed (recipient : KeyRing) (key : SignatureKey) (signature : Octets 64) (plain : Bytes) :
    Sealed :=
  let ephemeral : EncryptionKey := ⟨Suite.encryptionKey (.replicate 32 0)⟩
  let shared := Suite.agree (.replicate 32 0) recipient.encryptionKey.octets
  let text :=
    Suite.encrypt (Sealed.secretKey shared ephemeral recipient.encryptionKey) (.replicate 24 0)
      (Sealed.inner key signature plain)
  ⟨ephemeral, .replicate 24 0, text.getD []⟩

/-- The entry by which the sender adds it, with a number. -/
def entry (sender recipient : KeyRing) (message : Message) (sequence : UInt32) : Entry :=
  let payload := payload sender recipient message
  { payload, sequence
    ownerKey := sender.signatureKey
    receiverKey := recipient.signatureKey
    signature := sender.sign (Entry.signedOctets payload.hash sequence)
    created := ⟨0⟩ }

/-- The mailbox of the second ring. -/
def setup : Setup where
  ring := ring 2
  retryDelay := 1
  maxBatches := 1
  ttl := 1000

def online (now : UInt64) : Surroundings where
  address := some ⟨"b.onion", 2⟩
  now := ⟨now⟩

end SealedMail.Transparent
