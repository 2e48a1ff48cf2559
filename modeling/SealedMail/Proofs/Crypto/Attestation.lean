import SealedMail.Proofs.Crypto.Sealing
import SealedMail.Proofs.Mailbox.Opening

/-!
# What an opened entry rests on

A text is revealed exactly if what the ring decrypts is a sender's key, a signature and that text,
the key is valid, and it verifies the signature for this recipient and this text
(`reveal_eq_ok_iff`). An entry is received exactly with the message and the key that it attests to
(`opening_eq_received_iff`). Nothing is assumed of the primitives.
-/

namespace SealedMail

/-- What is decrypted falls apart in one way only. -/
theorem Sealed.inner?_eq_some_iff {bs : Bytes} {key : Octets 32} {signature : Octets 64}
    {plain : Bytes} :
    Sealed.inner? bs = some (key, signature, plain) ↔
      bs = key.toList ++ signature.toList ++ plain := by
  constructor
  · intro h
    simp only [Sealed.inner?, Octets.take?, Option.bind_eq_bind, Option.bind_eq_some_iff,
      Option.dite_none_right_eq_some, Option.some.injEq, Prod.mk.injEq, Prod.exists] at h
    obtain ⟨_, _, ⟨-, rfl, rfl⟩, _, _, ⟨-, rfl, rfl⟩, rfl, rfl, rfl⟩ := h
    rw [List.append_assoc, List.take_append_drop, List.take_append_drop]
  · rintro rfl
    exact Sealed.inner?_inner ⟨key⟩ signature plain

variable [Suite]

namespace SignatureKey

theorem ofOctets_eq_ok_iff {octets : Octets 32} {key : SignatureKey} :
    ofOctets octets = .ok key ↔ Suite.validKey octets = true ∧ key.octets = octets := by
  obtain ⟨other⟩ := key
  cases hv : Suite.validKey octets <;> simp [ofOctets, hv, eq_comm]

theorem check_eq_ok_iff {key : SignatureKey} {message : Bytes} {signature : Octets 64} :
    key.check message signature = .ok () ↔
      Suite.validKey key.octets = true ∧ Suite.verifies key.octets message signature = true := by
  cases hk : Suite.validKey key.octets <;> cases hv :
    Suite.verifies key.octets message signature <;>
    simp [check, hk, hv]

end SignatureKey

namespace KeyRing

/-- What a ring decrypts, before anything is checked. -/
def decrypted? (ring : KeyRing) (sealed : Sealed) : Option Bytes :=
  let shared := Suite.agree ring.encryptionSecret sealed.ephemeralKey.octets
  Suite.decrypt (Sealed.secretKey shared sealed.ephemeralKey ring.encryptionKey) sealed.nonce
    sealed.ciphertext

theorem reveal_eq_ok_iff {ring : KeyRing} {sealed : Sealed} {plain : Bytes}
    {sender : SignatureKey} :
    ring.reveal sealed = .ok (plain, sender) ↔ ∃ signature : Octets 64,
      ring.decrypted? sealed = some (sender.octets.toList ++ signature.toList ++ plain) ∧
      Suite.validKey sender.octets = true ∧
      Suite.verifies sender.octets (Sealed.signedOctets ring.encryptionKey plain) signature =
        true := by
  simp only [reveal, decrypted?, Suite.decryptText]
  cases Suite.decrypt _ _ _ with
  | none =>
    constructor
    · intro h
      cases h
    · rintro ⟨_, h, -⟩
      cases h
  | some inner =>
    simp only [bind, Except.bind, Option.some.injEq, ← Sealed.inner?_eq_some_iff]
    cases hi : Sealed.inner? inner with
    | none =>
      constructor
      · intro h
        cases h
      · rintro ⟨_, h, -⟩
        cases h
    | some parts =>
      obtain ⟨key, signature, text⟩ := parts
      constructor
      · intro h
        simp only [] at h
        split at h
        · cases h
        · next sender' hkey =>
          split at h
          · cases h
          · next hcheck =>
            cases h
            obtain ⟨-, rfl⟩ := SignatureKey.ofOctets_eq_ok_iff.1 hkey
            exact ⟨signature, rfl, SignatureKey.check_eq_ok_iff.1 hcheck⟩
      · rintro ⟨_, h, hchecked⟩
        cases h
        simp only [SignatureKey.ofOctets_eq_ok_iff.2 ⟨hchecked.1, rfl⟩,
          SignatureKey.check_eq_ok_iff.2 hchecked]
        rfl

theorem openEnvelope_eq_ok_iff {ring : KeyRing} {sealed : Sealed} {opened : Opened} :
    ring.openEnvelope sealed = .ok opened ↔ ∃ plain,
      ring.reveal sealed = .ok (plain, opened.signatureKey) ∧
      Codec.ofOctets? plain = some opened.envelope := by
  unfold openEnvelope
  constructor
  · intro h
    split at h
    · cases h
    · next plain key hr =>
      split at h
      · next envelope he =>
        cases h
        exact ⟨plain, hr, he⟩
      · cases h
  · rintro ⟨plain, hr, he⟩
    simp only [hr, he]

end KeyRing

/-- What an entry attests to: the ring decrypts its text to the key, a signature and the octets of a
mailbox message, the key is valid, and it verifies the signature for this ring and these octets. -/
def Entry.Attests (ring : KeyRing) (e : Entry) (opened : Opened) : Prop :=
  ∃ (signature : Octets 64) (plain : Bytes) (message : Message),
    ring.decrypted? e.payload.parcel.sealed =
      some (opened.signatureKey.octets.toList ++ signature.toList ++ plain) ∧
    Suite.validKey opened.signatureKey.octets = true ∧
    Suite.verifies opened.signatureKey.octets (Sealed.signedOctets ring.encryptionKey plain)
      signature = true ∧
    Codec.ofOctets? plain = some (Envelope.mailbox message) ∧
    opened.envelope = .mailbox message

theorem Entry.attests_iff {ring : KeyRing} {e : Entry} {opened : Opened} : e.Attests ring opened ↔
    ring.openEnvelope e.payload.parcel.sealed = .ok opened ∧ opened.message?.isSome = true := by
  simp only [KeyRing.openEnvelope_eq_ok_iff, KeyRing.reveal_eq_ok_iff]
  constructor
  · rintro ⟨signature, plain, message, hd, hk, hv, hm, he⟩
    exact ⟨⟨plain, ⟨signature, hd, hk, hv⟩, he ▸ hm⟩, by simp [Opened.message?, he,
      Envelope.message?]⟩
  · rintro ⟨⟨plain, ⟨signature, hd, hk, hv⟩, hm⟩, hsome⟩
    cases he : opened.envelope with
    | mailbox message => exact ⟨signature, plain, message, hd, hk, hv, he ▸ hm, he⟩
    | direct kind body => simp [Opened.message?, he, Envelope.message?] at hsome

/-- An entry is received with what it attests to, and with nothing else. -/
theorem opening_eq_received_iff {ring : KeyRing} {e : Entry} {item : Item} :
    e.opening ring = .received item ↔ item.entry = e ∧ e.Attests ring item.opened := by
  rw [Entry.attests_iff]
  constructor
  · intro h
    obtain ⟨rfl, hm, ho⟩ := opening_of_received h
    exact ⟨rfl, ho, hm⟩
  · rintro ⟨rfl, ho, hm⟩
    obtain ⟨message, hm⟩ := Option.isSome_iff_exists.1 hm
    simp only [Entry.opening, ho, Item.ofOpened?, hm, Option.map_some]

end SealedMail
