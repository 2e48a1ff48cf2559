import SealedMail.Crypto.Standard
import SealedMail.Message.Entry
import SealedMail.Proofs.Message.Address

/-!
# Preimages of content addresses

The octets whose digest is the content address of a payload determine the payload, as long as the
fields that are measured have lengths that four octets can hold (`Payload.eq_of_preimage_eq`). Every
other field has a fixed length, so the fields are read off one after the other. An address is read
off its text at the last colon. So two payloads under one content address are a collision of the
digest (`Payload.content_address_separates`).
-/

namespace SealedMail

/-! ## Fields -/

theorem Octets.append_inj {n : Nat} {a b : Octets n} {r s : Bytes}
    (h : a.toList ++ r = b.toList ++ s) : a = b ∧ r = s := by
  obtain ⟨hab, hrs⟩ := List.append_inj h (by simp)
  exact ⟨Octets.ext hab, hrs⟩

theorem bigEndian_append_inj {w k l : Nat} {r s : Bytes} (hk : k < octetRange w)
    (hl : l < octetRange w) (h : bigEndian w k ++ r = bigEndian w l ++ s) : k = l ∧ r = s := by
  obtain ⟨hkl, hrs⟩ := List.append_inj h (by simp)
  have hnumber := congrArg ofBigEndian hkl
  rw [ofBigEndian_bigEndian, ofBigEndian_bigEndian, Nat.mod_eq_of_lt hk, Nat.mod_eq_of_lt hl]
    at hnumber
  exact ⟨hnumber, hrs⟩

namespace Payload

theorem measured_append_inj {as bs r s : Bytes} (ha : as.length < octetRange 4)
    (hb : bs.length < octetRange 4) (h : measured as ++ r = measured bs ++ s) :
    as = bs ∧ r = s := by
  rw [measured, measured, List.append_assoc, List.append_assoc] at h
  obtain ⟨hlength, h⟩ := bigEndian_append_inj ha hb h
  exact List.append_inj h hlength

/-- The lengths of the measured fields fit into four octets. -/
structure Bounded (p : Payload) : Prop where
  sender : (utf8 p.parcel.sender.toText).length < octetRange 4
  ciphertext : p.parcel.sealed.ciphertext.length < octetRange 4
  prefixHash : p.parcel.prefixHash.length < octetRange 4
  uid : (utf8 p.uid).length < octetRange 4

instance (p : Payload) : Decidable p.Bounded :=
  decidable_of_iff
    ((utf8 p.parcel.sender.toText).length < octetRange 4 ∧
      p.parcel.sealed.ciphertext.length < octetRange 4 ∧
      p.parcel.prefixHash.length < octetRange 4 ∧ (utf8 p.uid).length < octetRange 4)
    ⟨fun ⟨h₁, h₂, h₃, h₄⟩ => ⟨h₁, h₂, h₃, h₄⟩,
      fun h => ⟨h.sender, h.ciphertext, h.prefixHash, h.uid⟩⟩

theorem eq_of_preimage_eq {p q : Payload} (hp : p.Bounded) (hq : q.Bounded)
    (h : p.preimage = q.preimage) : p = q := by
  simp only [preimage, List.append_assoc] at h
  obtain ⟨hsender, h⟩ := measured_append_inj hp.sender hq.sender h
  obtain ⟨hephemeral, h⟩ := Octets.append_inj h
  obtain ⟨hnonce, h⟩ := Octets.append_inj h
  obtain ⟨hciphertext, h⟩ := measured_append_inj hp.ciphertext hq.ciphertext h
  obtain ⟨hpre, h⟩ := measured_append_inj hp.prefixHash hq.prefixHash h
  obtain ⟨huid, h⟩ := measured_append_inj hp.uid hq.uid h
  obtain ⟨hsenderKey, h⟩ := Octets.append_inj h
  obtain ⟨hownerKey, h⟩ := Octets.append_inj h
  obtain ⟨httl, -⟩ := bigEndian_append_inj p.ttl.toNat_lt q.ttl.toNat_lt (congrArg (· ++ []) h)
  obtain ⟨⟨_, ⟨⟨_⟩, _, _⟩, _, _⟩, ⟨_⟩, ⟨_⟩, _⟩ := p
  obtain ⟨⟨_, ⟨⟨_⟩, _, _⟩, _, _⟩, ⟨_⟩, ⟨_⟩, _⟩ := q
  cases Address.toText_injective (utf8_injective hsender)
  cases utf8_injective huid
  cases UInt64.toNat_inj.1 httl
  subst hephemeral hnonce hciphertext hpre hsenderKey hownerKey
  rfl

/-! ## Content addresses -/

/-- Different octets with one digest. -/
def Collision [Suite] (as bs : Bytes) : Prop := as ≠ bs ∧ digest as = digest bs

/-- The octets that are digested are the same only for the same payload, host and port of the sender
included, and a content address is shared only by a collision of the digest. -/
theorem content_address_separates [Suite] {p q : Payload} (hp : p.Bounded) (hq : q.Bounded) :
    (p.preimage = q.preimage ↔ p = q) ∧
      (p.hash = q.hash ↔ p = q ∨ Collision p.preimage q.preimage) := by
  have hpreimage : p.preimage = q.preimage ↔ p = q := ⟨eq_of_preimage_eq hp hq, congrArg preimage⟩
  refine ⟨hpreimage, fun hhash => ?_, ?_⟩
  · by_cases heq : p = q
    · exact .inl heq
    · exact .inr ⟨mt hpreimage.1 heq, hhash⟩
  · rintro (rfl | ⟨-, hdigest⟩)
    · rfl
    · exact hdigest

/-- A payload whose sender has colons in its host name. -/
def ofHints (prefixHash : Bytes) (uid : String) : Payload where
  parcel := ⟨⟨"[::1]:80", 443⟩, ⟨⟨.replicate 32 1⟩, .replicate 24 2, [3]⟩, prefixHash, uid⟩
  senderKey := ⟨.replicate 32 4⟩
  ownerKey := ⟨.replicate 32 5⟩
  ttl := 6

/-- An octet that moves from one field to the next changes what is digested. -/
theorem moved_octet_separated :
    letI := Suite.standard
    let p := ofHints [97] ""
    let q := ofHints [] "a"
    p.Bounded ∧ q.Bounded ∧ p.preimage.length = q.preimage.length ∧ p.preimage ≠ q.preimage ∧
      (p.hash = q.hash ↔ p = q ∨ Collision p.preimage q.preimage) := by
  let _ := Suite.standard
  intro p q
  have hp : p.Bounded := by decide +kernel
  have hq : q.Bounded := by decide +kernel
  have hne : p ≠ q := by decide +kernel
  obtain ⟨hpreimage, hhash⟩ := content_address_separates hp hq
  exact ⟨hp, hq, by decide +kernel, mt hpreimage.1 hne, hhash⟩

end Payload

end SealedMail
