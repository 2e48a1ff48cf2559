import SealedMail.Crypto.Standard
import SealedMail.Proofs.Crypto.Encryption
import SealedMail.Proofs.Crypto.Transparent

/-!
# Envelopes between rings

Of the primitives only the curves are taken on trust here (`Suite.CurveLaws`); encryption is the
standard one (`Suite.EncryptsByChaCha`). Then sealing succeeds for everything that is not too long
to be encrypted, and what was sealed to a ring opens to what it was, with the key of the sender
(`KeyRing.sealed_opens`).
-/

namespace SealedMail

namespace Suite

/-- Both sides of an exchange agree on a secret, and what a seed signs verifies under its key. -/
structure CurveLaws [Suite] : Prop where
  agree_comm : ∀ a b, agree a (encryptionKey b) = agree b (encryptionKey a)
  validKey : ∀ seed, validKey (signatureKey seed) = true
  verifies : ∀ seed message, verifies (signatureKey seed) message (sign seed message) = true

structure EncryptsByChaCha [Suite] : Prop where
  encrypt_eq : ∀ key nonce plain, encrypt key nonce plain = ChaCha.encrypt key nonce plain
  decrypt_eq : ∀ key nonce text, decrypt key nonce text = ChaCha.decrypt key nonce text

theorem standard_encryptsByChaCha : @EncryptsByChaCha standard :=
  letI := standard
  ⟨fun _ _ _ => rfl, fun _ _ _ => rfl⟩

theorem limit_lt_maxLength : ChaCha.limit < Codec.maxLength := by decide +kernel

variable [Suite]

theorem EncryptsByChaCha.exists_encrypt (cipher : EncryptsByChaCha) {plain : Bytes}
    (h : plain.length < ChaCha.limit) (key : Octets 32) (nonce : Octets 24) :
    ∃ text, encrypt key nonce plain = some text ∧ text.length = plain.length + 16 := by
  obtain ⟨text, htext, hlength, -⟩ := (ChaCha.exists_encrypt_iff key nonce plain).1 h
  exact ⟨text, cipher.encrypt_eq key nonce plain ▸ htext, hlength⟩

/-- The laws of sealing need no more than those of the curves. -/
theorem CurveLaws.laws (curves : CurveLaws) (cipher : EncryptsByChaCha) : Laws := by
  have hboxed {key nonce plain text} (h : encrypt key nonce plain = some text) :
      decrypt key nonce text = some plain ∧ plain.length < ChaCha.limit := by
    rw [cipher.encrypt_eq] at h
    have hlimit : plain.length < ChaCha.limit := by
      rw [ChaCha.encrypt_eq] at h
      exact (Option.ite_none_right_eq_some.1 h).1
    obtain ⟨text', htext', -, hplain⟩ := (ChaCha.exists_encrypt_iff key nonce plain).1 hlimit
    obtain rfl : text' = text := Option.some.inj (htext'.symm.trans h)
    exact ⟨(cipher.decrypt_eq _ _ _).trans hplain, hlimit⟩
  exact
    { agree_comm := curves.agree_comm
      validKey := curves.validKey
      verifies := curves.verifies
      decrypt_encrypt := fun _ _ _ _ h => (hboxed h).1
      length_lt_of_encrypt := fun _ _ _ _ h => Nat.lt_trans (hboxed h).2 limit_lt_maxLength }

end Suite

namespace KeyRing

variable [Suite]

/-- Behind the key and the signature there is room for any text of 96 octets less. -/
theorem exists_sealWith (cipher : Suite.EncryptsByChaCha) {plain : Bytes}
    (h : plain.length + 96 < ChaCha.limit) (ring : KeyRing) (recipient : EncryptionKey)
    (secret : Octets 32) (nonce : Octets 24) :
    ∃ sealed, ring.sealWith recipient plain secret nonce = .ok sealed ∧
      sealed.ciphertext.length = plain.length + 112 := by
  let signature := ring.sign (Sealed.signedOctets recipient plain)
  let key :=
    Sealed.secretKey (Suite.agree secret recipient.octets) ⟨Suite.encryptionKey secret⟩ recipient
  have hinner : (Sealed.inner ring.signatureKey signature plain).length = plain.length + 96 := by
    simp only [Sealed.inner, List.length_append, Octets.length_toList]
    omega
  obtain ⟨text, htext, hlength⟩ := cipher.exists_encrypt (hinner.symm ▸ h) key nonce
  exact ⟨⟨⟨Suite.encryptionKey secret⟩, nonce, text⟩, sealWith_eq_ok_iff.2 ⟨rfl, rfl, htext⟩,
    by rw [hlength, hinner]⟩

/-- Whatever one ring seals to another, with whatever draws: an envelope is sealed, and opens to
that envelope and the sender's key; and a text is sealed in 112 octets more, and is revealed with
the sender's key. Both have to stay below the limit of encryption, with a key and a signature in
front. -/
theorem sealed_opens (curves : Suite.CurveLaws) (cipher : Suite.EncryptsByChaCha)
    (sender recipient : KeyRing) (draws : Draws) :
    (∀ envelope : Envelope, (Codec.put envelope).length + 96 < ChaCha.limit →
      ∃ sealed, (sender.sealEnvelope recipient.publicRing envelope draws).1 = .ok sealed ∧
        recipient.openEnvelope sealed = .ok ⟨envelope, sender.signatureKey⟩) ∧
    ∀ plain : Bytes, plain.length + 96 < ChaCha.limit →
      ∃ sealed, (sender.sealTo recipient.encryptionKey plain draws).1 = .ok sealed ∧
        recipient.reveal sealed = .ok (plain, sender.signatureKey) ∧
        sealed.ciphertext.length = plain.length + 112 := by
  have laws := curves.laws cipher
  refine ⟨fun envelope h => ?_, fun plain h => ?_⟩
  · obtain ⟨sealed, hsealed, -⟩ := exists_sealWith cipher h sender recipient.encryptionKey _ _
    exact ⟨sealed, hsealed, openEnvelope_sealEnvelope laws (Prod.ext hsealed rfl)⟩
  · obtain ⟨sealed, hsealed, hlength⟩ := exists_sealWith cipher h sender recipient.encryptionKey _ _
    exact ⟨sealed, hsealed, (reveal_sealWith laws hsealed).1, hlength⟩

end KeyRing

namespace Suite

/-- Transparent curves with the standard digest and encryption. -/
@[reducible] def transparentCurves : Suite :=
  { transparent with digest := sha256, encrypt := ChaCha.encrypt, decrypt := ChaCha.decrypt }

theorem transparentCurves_laws : @CurveLaws transparentCurves :=
  letI := transparentCurves
  { agree_comm := @Laws.agree_comm transparent transparent_laws
    validKey := @Laws.validKey transparent transparent_laws
    verifies := @Laws.verifies transparent transparent_laws }

end Suite

/-- A letter and an empty text between two rings. -/
theorem letter_sealed_and_opened :
    letI := Suite.transparentCurves
    let sender := KeyRing.ofSecrets (.replicate 32 1) (.replicate 32 2)
    let recipient := KeyRing.ofSecrets (.replicate 32 3) (.replicate 32 4)
    let draws : Draws := ⟨.ofNat 32, 5⟩
    let letter : Envelope := .mailbox (Transparent.letter "ü")
    Suite.CurveLaws ∧ Suite.EncryptsByChaCha ∧
      (∃ sealed, (sender.sealEnvelope recipient.publicRing letter draws).1 = .ok sealed ∧
        recipient.openEnvelope sealed = .ok ⟨letter, sender.signatureKey⟩) ∧
      ∃ sealed, (sender.sealTo recipient.encryptionKey [] draws).1 = .ok sealed ∧
        recipient.reveal sealed = .ok ([], sender.signatureKey) ∧
        sealed.ciphertext.length = 112 := by
  let _ := Suite.transparentCurves
  intro sender recipient draws letter
  have curves : Suite.CurveLaws := Suite.transparentCurves_laws
  have cipher : Suite.EncryptsByChaCha := ⟨fun _ _ _ => rfl, fun _ _ _ => rfl⟩
  obtain ⟨henvelope, hplain⟩ := KeyRing.sealed_opens curves cipher sender recipient draws
  exact ⟨curves, cipher, henvelope letter (by decide +kernel), hplain [] (by decide +kernel)⟩

end SealedMail
