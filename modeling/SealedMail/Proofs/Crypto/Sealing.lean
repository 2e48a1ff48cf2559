import SealedMail.Crypto.Sealed
import SealedMail.Proofs.Codec.RoundTrip

/-!
# Opening what was sealed

`Suite.Laws` is what sealing asks of the primitives. Under these laws a ring opens what was sealed
to it, and finds the text and the sender's key (`reveal_sealWith`); a sealed envelope opens to that
envelope.
-/

namespace SealedMail

/-- Both sides agree on a secret, what a ring signs verifies under its key, and what was encrypted
is decrypted. Only texts whose octets can be counted are encrypted. -/
structure Suite.Laws [Suite] : Prop where
  agree_comm : ∀ a b, Suite.agree a (Suite.encryptionKey b) = Suite.agree b (Suite.encryptionKey a)
  validKey : ∀ seed, Suite.validKey (Suite.signatureKey seed) = true
  verifies : ∀ seed message,
    Suite.verifies (Suite.signatureKey seed) message (Suite.sign seed message) = true
  decrypt_encrypt : ∀ key nonce plain text, Suite.encrypt key nonce plain = some text →
    Suite.decrypt key nonce text = some plain
  length_lt_of_encrypt : ∀ key nonce plain text, Suite.encrypt key nonce plain = some text →
    plain.length < Codec.maxLength

variable [Suite]

theorem Suite.encryptText_eq_ok_iff {key : Octets 32} {nonce : Octets 24} {plain text : Bytes} :
    Suite.encryptText key nonce plain = .ok text ↔ Suite.encrypt key nonce plain = some text := by
  unfold Suite.encryptText
  cases Suite.encrypt key nonce plain <;> simp

omit [Suite] in
theorem Sealed.inner?_inner (sender : SignatureKey) (signature : Octets 64) (plain : Bytes) :
    Sealed.inner? (Sealed.inner sender signature plain) =
      some (sender.octets, signature, plain) := by
  simp [Sealed.inner?, Sealed.inner, List.append_assoc]

/-- `sealed` was encrypted for `recipient` with this secret and nonce, and holds the key, the
signature and the text. -/
structure Sealed.Encloses (sealed : Sealed) (recipient : EncryptionKey) (secret : Octets 32)
    (nonce : Octets 24) (sender : SignatureKey) (signature : Octets 64) (plain : Bytes) : Prop where
  ephemeralKey : sealed.ephemeralKey = ⟨Suite.encryptionKey secret⟩
  nonce_eq : sealed.nonce = nonce
  ciphertext : Suite.encrypt
    (Sealed.secretKey (Suite.agree secret recipient.octets) ⟨Suite.encryptionKey secret⟩ recipient)
    nonce (Sealed.inner sender signature plain) = some sealed.ciphertext

namespace KeyRing

/-- Whatever a ring seals holds its key, its signature on the recipient's key and the text, and
the text. -/
theorem sealWith_eq_ok_iff {ring : KeyRing} {recipient : EncryptionKey} {plain : Bytes}
    {secret : Octets 32} {nonce : Octets 24} {sealed : Sealed} :
    ring.sealWith recipient plain secret nonce = .ok sealed ↔
      sealed.Encloses recipient secret nonce ring.signatureKey
        (ring.sign (Sealed.signedOctets recipient plain)) plain := by
  unfold sealWith
  constructor
  · intro h
    simp only [Except.map] at h
    split at h
    · cases h
    · next text htext =>
      cases h
      exact ⟨rfl, rfl, Suite.encryptText_eq_ok_iff.1 htext⟩
  · rintro ⟨hephemeral, hnonce, hencrypt⟩
    obtain ⟨ephemeral, nonce', text⟩ := sealed
    obtain rfl : ephemeral = _ := hephemeral
    obtain rfl : nonce' = nonce := hnonce
    simp only [Suite.encryptText_eq_ok_iff.2 hencrypt, Except.map]

theorem signatureKey_eq (ring : KeyRing) :
    ring.signatureKey = ⟨Suite.signatureKey ring.signatureSeed⟩ := by
  rw [signatureKey, ring.publicRing_eq]
  rfl

theorem encryptionKey_eq (ring : KeyRing) :
    ring.encryptionKey = ⟨Suite.encryptionKey ring.encryptionSecret⟩ := by
  rw [encryptionKey, ring.publicRing_eq]
  rfl

theorem check_sign (laws : Suite.Laws) (ring : KeyRing) (message : Bytes) :
    ring.signatureKey.check message (ring.sign message) = .ok () := by
  have hv := laws.validKey ring.signatureSeed
  have hs := laws.verifies ring.signatureSeed message
  rw [signatureKey_eq]
  simp [SignatureKey.check, sign, hv, hs]

theorem verifies_sign (laws : Suite.Laws) (ring : KeyRing) (message : Bytes) :
    ring.signatureKey.verifies message (ring.sign message) = true := by
  rw [SignatureKey.verifies, check_sign laws]
  rfl

/-- What was sealed to a ring is revealed to it, with the key of the sender. -/
theorem reveal_sealWith (laws : Suite.Laws) {sender recipient : KeyRing} {plain : Bytes}
    {secret : Octets 32} {nonce : Octets 24} {sealed : Sealed}
    (h : sender.sealWith recipient.encryptionKey plain secret nonce = .ok sealed) :
    recipient.reveal sealed = .ok (plain, sender.signatureKey) ∧
    plain.length < Codec.maxLength := by
  obtain ⟨hephemeral, hnonce, hencrypt⟩ := sealWith_eq_ok_iff.1 h
  have hlength := laws.length_lt_of_encrypt _ _ _ _ hencrypt
  have hplain := laws.decrypt_encrypt _ _ _ _ hencrypt
  refine ⟨?_, ?_⟩
  · have hshared : Suite.agree recipient.encryptionSecret (Suite.encryptionKey secret) =
        Suite.agree secret recipient.encryptionKey.octets := by
      rw [laws.agree_comm, encryptionKey_eq]
    have hvalid : SignatureKey.ofOctets sender.signatureKey.octets = .ok sender.signatureKey := by
      rw [signatureKey_eq, SignatureKey.ofOctets, laws.validKey, if_pos rfl]
    simp only [reveal, hephemeral, hnonce, hshared, Suite.decryptText, hplain, bind, Except.bind,
      Sealed.inner?_inner, hvalid, check_sign laws]
    rfl
  · simp only [Sealed.inner, List.length_append] at hlength
    omega

theorem openEnvelope_sealEnvelope (laws : Suite.Laws) {sender recipient : KeyRing}
    {envelope : Envelope} {draws draws' : Draws} {sealed : Sealed}
    (h : sender.sealEnvelope recipient.publicRing envelope draws = (.ok sealed, draws')) :
    recipient.openEnvelope sealed = .ok ⟨envelope, sender.signatureKey⟩ := by
  have hs := congrArg Prod.fst h
  obtain ⟨hreveal, hlen⟩ : recipient.reveal sealed = .ok (Codec.put envelope, sender.signatureKey) ∧
      (Codec.put envelope).length < Codec.maxLength := reveal_sealWith laws hs
  have hget : Codec.ofOctets? (Codec.put envelope) = some envelope :=
    Codec.lawful_envelope.ofOctets?_put hlen
  rw [openEnvelope, hreveal]
  simp only [hget]

end KeyRing

end SealedMail
