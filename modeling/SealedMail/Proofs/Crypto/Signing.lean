import SealedMail.Proofs.Crypto.Attestation
import SealedMail.Proofs.Message.Preimage
import SealedMail.Proofs.Overlay.Acceptance

/-!
# What a ring has signed

A ring signs in two places with one key: it seals texts and it mints entries. Each time it signs the
octets that `Deed.signs` lists, and it is that signature which goes out (`Deed.issues_signs`). These
octets never coincide: those for an entry are shorter than those for any sealed text, and either
determine what they were signed for. So wherever a signature of the ring verifies, it was made for
just that, provided that nobody forges signatures and that the digests of payloads do not collide
(`Unforged`, `Separated`).
-/

namespace SealedMail

/-! ## Signed octets -/

theorem Entry.signedOctets_inj {h h' : PayloadHash} {n n' : UInt32}
    (heq : signedOctets h n = signedOctets h' n') : h = h' ∧ n = n' := by
  obtain ⟨hhash, hn⟩ := Octets.append_inj heq
  obtain ⟨hn, -⟩ := bigEndian_append_inj n.toNat_lt n'.toNat_lt (congrArg (· ++ []) hn)
  exact ⟨hhash, UInt32.toNat_inj.1 hn⟩

theorem Sealed.signedOctets_inj {k k' : EncryptionKey} {plain plain' : Bytes}
    (heq : signedOctets k plain = signedOctets k' plain') : k = k' ∧ plain = plain' := by
  rw [signedOctets, signedOctets, List.append_assoc, List.append_assoc] at heq
  obtain ⟨hkey, hplain⟩ := Octets.append_inj (List.append_cancel_left heq)
  obtain ⟨k⟩ := k
  obtain ⟨k'⟩ := k'
  exact ⟨congrArg EncryptionKey.mk hkey, hplain⟩

/-- 36 octets are signed for an entry, and at least 51 for a sealed text. -/
theorem signedOctets_ne (h : PayloadHash) (n : UInt32) (k : EncryptionKey) (plain : Bytes) :
    Entry.signedOctets h n ≠ Sealed.signedOctets k plain := by
  intro heq
  have hlength := congrArg List.length heq
  have hdomain : Sealed.signatureDomain.length = 19 := rfl
  simp only [Entry.signedOctets, Sealed.signedOctets, List.length_append, Octets.length_toList,
    length_bigEndian, hdomain] at hlength
  omega

variable [Suite]

/-! ## Deeds -/

/-- What may happen around a ring: the ring seals or mints, and anyone asks the store or reveals a
sealed text. -/
inductive Deed where
  | seals (recipient : EncryptionKey) (plain : Bytes) (draws : Draws)
  | mints (payload : Payload) (receiverKey : SignatureKey) (now : Timestamp)
  | asks (r : Store.Request)
  | reveals (recipient : KeyRing) (sealed : Sealed)

structure Check where
  key : SignatureKey
  octets : Bytes
  signature : Octets 64

namespace Deed

/-- The octets that the ring signs. -/
def signs (ring : KeyRing) (store : Store) : Deed → List Bytes
  | seals recipient plain _ => [Sealed.signedOctets recipient plain]
  | mints payload receiverKey now =>
    let e := store.mint payload ring receiverKey now
    [Entry.signedOctets e.hash e.sequence]
  | _ => []

/-- `signed` is what the ring signs in a deed. A text that it seals holds its signature on the one
text that it signed, and so does an entry that it mints; in other deeds it signs nothing. -/
def Issues (ring : KeyRing) (store : Store) (signed : List Bytes) : Deed → Prop
  | seals recipient plain draws => ∃ octets secret nonce, signed = [octets] ∧
      (ring.sealTo recipient plain draws).1 = ring.sealWith recipient plain secret nonce ∧
      ∀ sealed, ring.sealWith recipient plain secret nonce = .ok sealed ↔
        sealed.Encloses recipient secret nonce ring.signatureKey (ring.sign octets) plain
  | mints payload receiverKey now => ∃ octets, signed = [octets] ∧
      (store.mint payload ring receiverKey now).signature = ring.sign octets
  | _ => signed = []

theorem issues_signs (ring : KeyRing) (store : Store) (d : Deed) :
    d.Issues ring store (d.signs ring store) := by
  cases d with
  | seals => exact ⟨_, _, _, rfl, rfl, fun _ => KeyRing.sealWith_eq_ok_iff⟩
  | mints => exact ⟨_, rfl, rfl⟩
  | asks => rfl
  | reveals => rfl

theorem mints_of_mem_signs {ring : KeyRing} {store : Store} {d : Deed} {hash : PayloadHash}
    {n : UInt32} (h : Entry.signedOctets hash n ∈ d.signs ring store) : ∃ payload receiverKey now,
      d = mints payload receiverKey now ∧ payload.hash = hash ∧
        (store.mint payload ring receiverKey now).sequence = n := by
  cases d with
  | seals recipient plain draws =>
    exact absurd (List.mem_singleton.1 h) (signedOctets_ne hash n recipient plain)
  | mints payload receiverKey now =>
    obtain ⟨rfl, rfl⟩ := Entry.signedOctets_inj (List.mem_singleton.1 h)
    exact ⟨payload, receiverKey, now, rfl, rfl, rfl⟩
  | asks => cases h
  | reveals => cases h

theorem seals_of_mem_signs {ring : KeyRing} {store : Store} {d : Deed} {recipient : EncryptionKey}
    {plain : Bytes} (h : Sealed.signedOctets recipient plain ∈ d.signs ring store) :
    ∃ draws, d = seals recipient plain draws := by
  cases d with
  | seals recipient' plain' draws =>
    obtain ⟨rfl, rfl⟩ := Sealed.signedOctets_inj (List.mem_singleton.1 h)
    exact ⟨draws, rfl⟩
  | mints payload receiverKey now =>
    exact absurd (List.mem_singleton.1 h).symm (signedOctets_ne _ _ recipient plain)
  | asks => cases h
  | reveals => cases h

def checks : Deed → List Check
  | asks (.add e) => [⟨e.ownerKey, Entry.signedOctets e.hash e.sequence, e.signature⟩]
  | asks (.remove e) => [⟨e.ownerKey, Entry.signedOctets e.hash e.sequence, e.signature⟩]
  | reveals recipient sealed =>
    match (recipient.decrypted? sealed).bind Sealed.inner? with
    | some (key, signature, plain) =>
      [⟨⟨key⟩, Sealed.signedOctets recipient.encryptionKey plain, signature⟩]
    | none => []
  | _ => []

def payload? : Deed → Option Payload
  | mints payload _ _ => some payload
  | asks (.add e) => some e.payload
  | asks (.remove e) => some e.payload
  | _ => none

end Deed

structure World where
  store : Store
  /-- The octets that the ring has signed. -/
  signed : List Bytes := []
  deriving DecidableEq

namespace World

def start (store : Store) : World := { store }

def act (ring : KeyRing) (w : World) (d : Deed) : World where
  store :=
    match d with
    | .asks r => w.store.serve r
    | _ => w.store
  signed := w.signed ++ d.signs ring w.store

def run (ring : KeyRing) (w : World) (deeds : List Deed) : World := deeds.foldl (act ring) w

/-- Whatever verifies under the ring's key when it is checked is something that the ring has signed
before. -/
def Unforged (ring : KeyRing) : World → List Deed → Prop
  | _, [] => True
  | w, d :: deeds =>
    (∀ c ∈ d.checks, c.key = ring.signatureKey → c.key.verifies c.octets c.signature = true →
      c.octets ∈ w.signed) ∧ Unforged ring (w.act ring d) deeds

instance decidableUnforged (ring : KeyRing) : ∀ w deeds, Decidable (Unforged ring w deeds)
  | _, [] => .isTrue trivial
  | w, d :: deeds =>
    have := decidableUnforged ring (w.act ring d) deeds
    inferInstanceAs (Decidable (_ ∧ _))

end World

/-- The payloads that turn up can be measured, and the digests of their preimages do not collide. -/
def Separated (deeds : List Deed) : Prop :=
  ∀ p ∈ deeds.filterMap Deed.payload?, p.Bounded ∧
    ∀ q ∈ deeds.filterMap Deed.payload?, p.hash = q.hash → p.preimage = q.preimage

instance (deeds : List Deed) : Decidable (Separated deeds) :=
  inferInstanceAs (Decidable (∀ p ∈ deeds.filterMap Deed.payload?, _))

namespace World

variable {ring : KeyRing} {w : World} {d : Deed} {deeds before after : List Deed} {octets : Bytes}

/-- Whatever the ring has signed it has signed in some deed. -/
theorem mem_signed_run (h : octets ∈ (w.run ring deeds).signed) : octets ∈ w.signed ∨
    ∃ before d after, deeds = before ++ d :: after ∧
      octets ∈ d.signs ring (w.run ring before).store := by
  induction deeds generalizing w with
  | nil => exact .inl h
  | cons d deeds ih =>
    rcases ih h with h | ⟨before, d', after, rfl, hd⟩
    · exact (List.mem_append.1 h).imp_right fun h => ⟨[], d, deeds, rfl, h⟩
    · exact .inr ⟨d :: before, d', after, rfl, hd⟩

theorem Unforged.mem_signed (h : Unforged ring w (before ++ d :: after)) {c : Check}
    (hc : c ∈ d.checks) (hkey : c.key = ring.signatureKey)
    (hv : c.key.verifies c.octets c.signature = true) :
    c.octets ∈ (w.run ring before).signed := by
  induction before generalizing w with
  | nil => exact h.1 c hc hkey hv
  | cons first before ih => exact ih h.2

theorem Unforged.exists_signs {store : Store}
    (h : Unforged ring (start store) (before ++ d :: after)) {c : Check} (hc : c ∈ d.checks)
    (hkey : c.key = ring.signatureKey) (hv : c.key.verifies c.octets c.signature = true) :
    ∃ b d' a, before = b ++ d' :: a ∧ c.octets ∈ d'.signs ring ((start store).run ring b).store :=
  (mem_signed_run (h.mem_signed hc hkey hv)).resolve_left List.not_mem_nil

end World

theorem Separated.eq_of_hash {deeds : List Deed} (h : Separated deeds) {p q : Payload}
    (hp : p ∈ deeds.filterMap Deed.payload?) (hq : q ∈ deeds.filterMap Deed.payload?)
    (heq : p.hash = q.hash) : p = q :=
  Payload.eq_of_preimage_eq (h p hp).1 (h q hq).1 ((h p hp).2 q hq heq)

/-! ## Accepted requests and revealed texts -/

theorem check_of_accepted? {s : Store} {r : Store.Request} {e : Entry}
    (h : s.accepted? r = some e) : (Deed.asks r).payload? = some e.payload ∧ e.isSigned = true ∧
      ⟨e.ownerKey, Entry.signedOctets e.hash e.sequence, e.signature⟩ ∈ (Deed.asks r).checks := by
  rcases Store.eq_of_accepted? h with rfl | rfl
  · exact ⟨rfl, (Store.accepted?_add.1 h).2.1, List.mem_singleton_self _⟩
  · have hmay := (Store.accepted?_remove.1 h).1
    simp only [Store.mayRemove, Bool.and_eq_true] at hmay
    exact ⟨rfl, hmay.1, List.mem_singleton_self _⟩

theorem check_of_reveal {recipient : KeyRing} {sealed : Sealed} {plain : Bytes}
    {sender : SignatureKey} (h : recipient.reveal sealed = .ok (plain, sender)) : ∃ signature,
      sender.verifies (Sealed.signedOctets recipient.encryptionKey plain) signature = true ∧
      ⟨sender, Sealed.signedOctets recipient.encryptionKey plain, signature⟩ ∈
        (Deed.reveals recipient sealed).checks := by
  obtain ⟨signature, hd, hchecked⟩ := KeyRing.reveal_eq_ok_iff.1 h
  refine ⟨signature, ?_, ?_⟩
  · rw [SignatureKey.verifies, SignatureKey.check_eq_ok_iff.2 hchecked]
    rfl
  · simp only [Deed.checks, hd, Option.bind_some, Sealed.inner?_eq_some_iff.2 rfl]
    exact List.mem_singleton_self _

/-- Over any deeds around a ring: what the ring seals or mints goes out with its signature on the
octets that it signs in that deed. As long as nobody forges its signatures and the payloads that
turn up can be told apart by their digests, every addition or removal that the store accepts under
the ring's key is for a payload and a number for which the ring has minted an entry before, and
every text that is revealed to any recipient as signed by the ring is one that the ring has sealed
before for the encryption key of this recipient. -/
theorem signatures_bound_to_purpose (ring : KeyRing) (store : Store) (deeds : List Deed)
    (hunforged : World.Unforged ring (.start store) deeds) (hseparated : Separated deeds)
    (before after : List Deed) (d : Deed) (hsplit : deeds = before ++ d :: after) :
    let w := (World.start store).run ring before
    d.Issues ring w.store (d.signs ring w.store) ∧
    (∀ r e, d = .asks r → w.store.accepted? r = some e → e.ownerKey = ring.signatureKey →
      ∃ b receiverKey now a, before = b ++ .mints e.payload receiverKey now :: a ∧
        (((World.start store).run ring b).store.mint e.payload ring receiverKey now).sequence =
          e.sequence) ∧
    ∀ recipient sealed plain, d = .reveals recipient sealed →
      recipient.reveal sealed = .ok (plain, ring.signatureKey) →
      ∃ b draws a, before = b ++ .seals recipient.encryptionKey plain draws :: a := by
  intro w
  subst hsplit
  refine ⟨d.issues_signs ring w.store, ?_, ?_⟩
  · rintro r e rfl hr hkey
    obtain ⟨hpayload, hsigned, hcheck⟩ := check_of_accepted? hr
    obtain ⟨b, d', a, rfl, hsigns⟩ := hunforged.exists_signs hcheck hkey hsigned
    obtain ⟨payload, receiverKey, now, rfl, hhash, hsequence⟩ := Deed.mints_of_mem_signs hsigns
    have heq : payload = e.payload := hseparated.eq_of_hash
      (List.mem_filterMap.2 ⟨.mints payload receiverKey now, by simp, rfl⟩)
      (List.mem_filterMap.2 ⟨.asks r, by simp, hpayload⟩) hhash
    exact ⟨b, receiverKey, now, a, by rw [heq], by rw [← heq, hsequence]⟩
  · rintro recipient sealed plain rfl hreveal
    obtain ⟨signature, hv, hcheck⟩ := check_of_reveal hreveal
    obtain ⟨b, d', a, rfl, hsigns⟩ := hunforged.exists_signs hcheck rfl hv
    obtain ⟨draws, rfl⟩ := Deed.seals_of_mem_signs hsigns
    exact ⟨b, draws, a, rfl⟩

end SealedMail

namespace SealedMail

attribute [local instance] Suite.transparent

open Transparent World

/-- The entry that the first ring mints for a letter to the second. -/
def minted : Entry :=
  (Store.ofCapacity 8 (.sufficient 1)).mint (payload (ring 1) (ring 2) (letter "u")) (ring 1)
    (ring 2).signatureKey ⟨0⟩

def letterText : Bytes := Codec.put (.mailbox (letter "u") : Envelope)

/-- The first ring seals a letter and mints its entry. The entry is added and the letter is
revealed. -/
def honestDeeds : List Deed :=
  [.seals (ring 2).encryptionKey letterText zeros, .mints minted.payload (ring 2).signatureKey ⟨0⟩,
    .asks (.add minted), .reveals (ring 2) minted.payload.parcel.sealed]

/-- The signature that the second ring finds in the letter. -/
def letterSignature : Octets 64 :=
  (((ring 2).decrypted? minted.payload.parcel.sealed).bind Sealed.inner?).elim (.replicate 64 0)
    fun (_, signature, _) => signature

/-- The signatures are tried elsewhere: that of the entry for another number and for another
payload, that of the letter for an entry, and for a letter to the third ring. -/
def thievishDeeds : List Deed :=
  [.asks (.add { minted with sequence := 2 }),
    .asks (.add { minted with payload := payload (ring 1) (ring 3) (letter "u") }),
    .asks (.remove { minted with sequence := 2, signature := letterSignature }),
    .reveals (ring 3) (enclosed (ring 3) (ring 1).signatureKey letterSignature letterText)]

/-- The letter is sealed and its entry minted by the first ring, with its signatures. All that is
tried with these elsewhere is refused. -/
theorem moved_signatures_refused :
    let deeds := honestDeeds ++ thievishDeeds
    let sealed := minted.payload.parcel.sealed
    Unforged (ring 1) (start {}) deeds ∧ Separated deeds ∧
      ((ring 1).sealTo (ring 2).encryptionKey letterText zeros).1 = .ok sealed ∧
      (ring 1).sealWith (ring 2).encryptionKey letterText (.replicate 32 0) (.replicate 24 0) =
        .ok sealed ∧
      letterSignature = (ring 1).sign (Sealed.signedOctets (ring 2).encryptionKey letterText) ∧
      (∃ octets secret nonce,
        (Deed.seals (ring 2).encryptionKey letterText zeros).signs (ring 1) {} = [octets] ∧
        sealed.Encloses (ring 2).encryptionKey secret nonce (ring 1).signatureKey
          ((ring 1).sign octets) letterText) ∧
      ((start {}).run (ring 1) (honestDeeds.take 2)).store.accepted? (.add minted) = some minted ∧
      (∃ b receiverKey now a, honestDeeds.take 2 = b ++ .mints minted.payload receiverKey now :: a ∧
        (((start {}).run (ring 1) b).store.mint minted.payload (ring 1) receiverKey now).sequence =
          minted.sequence) ∧
      (ring 2).reveal sealed = .ok (letterText, (ring 1).signatureKey) ∧
      (∃ b draws a, honestDeeds.take 3 = b ++ .seals (ring 2).encryptionKey letterText draws :: a) ∧
      (start {}).run (ring 1) deeds = (start {}).run (ring 1) honestDeeds ∧
      (ring 3).reveal (enclosed (ring 3) (ring 1).signatureKey letterSignature letterText) =
        .error .signatureMismatch := by
  intro deeds sealed
  obtain ⟨hunforged, hseparated, hsealed, hsealedWith, hsignature, haccepted⟩ :
      Unforged (ring 1) (start {}) deeds ∧ Separated deeds ∧
        ((ring 1).sealTo (ring 2).encryptionKey letterText zeros).1 = .ok sealed ∧
        (ring 1).sealWith (ring 2).encryptionKey letterText (.replicate 32 0) (.replicate 24 0) =
          .ok sealed ∧
        letterSignature = (ring 1).sign (Sealed.signedOctets (ring 2).encryptionKey letterText) ∧
        ((start {}).run (ring 1) (honestDeeds.take 2)).store.accepted? (.add minted) =
          some minted := by
    decide +kernel
  obtain ⟨hrevealed, hrun, hmoved⟩ :
      (ring 2).reveal sealed = .ok (letterText, (ring 1).signatureKey) ∧
        (start {}).run (ring 1) deeds = (start {}).run (ring 1) honestDeeds ∧
        (ring 3).reveal (enclosed (ring 3) (ring 1).signatureKey letterSignature letterText) =
          .error .signatureMismatch := by
    decide +kernel
  have hbound := signatures_bound_to_purpose (ring 1) {} deeds hunforged hseparated
  obtain ⟨octets, secret, nonce, hsigns, hseals, hencloses⟩ :=
    (hbound [] (honestDeeds.drop 1 ++ thievishDeeds) _ rfl).1
  have hminted := (hbound (honestDeeds.take 2) (honestDeeds.drop 3 ++ thievishDeeds)
    (.asks (.add minted)) rfl).2.1 _ minted rfl haccepted rfl
  have hletter := (hbound (honestDeeds.take 3) thievishDeeds _ rfl).2.2 (ring 2) _ letterText rfl
    hrevealed
  exact ⟨hunforged, hseparated, hsealed, hsealedWith, hsignature,
    ⟨octets, secret, nonce, hsigns, (hencloses sealed).1 (hseals ▸ hsealed)⟩, haccepted, hminted,
    hrevealed, hletter, hrun, hmoved⟩

end SealedMail
