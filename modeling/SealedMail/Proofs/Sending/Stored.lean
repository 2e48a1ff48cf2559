import SealedMail.Mailbox.Loop
import SealedMail.Proofs.Crypto.Sealing
import SealedMail.Proofs.Overlay.Request
import SealedMail.Sending.Delivery

/-!
# Messages that end in the store

`Sent` says that a send came through all its gates with some payload, and `Stores` that the store
then took it. Such a payload opens to the message and the sender's key, which it also shows in
clear. A send that ends in the store adds one entry.
-/

namespace SealedMail

variable [Suite]

/-- A send is prepared with this payload. -/
def Sent (sender : KeyRing) (recipient : PublicRing) (message : Message) (payload : Payload) :
    Prop :=
  ∃ (before : Outlook) (peer : Address) (draws rest : Draws) (delivery : Delivery),
    prepare sender sender.sealEnvelope before peer (some recipient) message draws =
      (.ready delivery, rest) ∧
    delivery.payload sender = payload

/-- A send is prepared, and what the transport could not deliver is stored as `payload`. What the
sender knows may have changed in between. A whole send whose outcome is that the message was stored
comes to this (`stores_of_send`). -/
def Stores (sender : KeyRing) (recipient : PublicRing) (message : Message) (payload : Payload)
    (s s' : Store) : Prop :=
  ∃ (before after : Outlook) (peer : Address) (draws rest : Draws) (delivery : Delivery)
    (now : Timestamp),
    prepare sender sender.sealEnvelope before peer (some recipient) message draws =
      (.ready delivery, rest) ∧
    delivery.payload sender = payload ∧
    delivery.publish sender after .full now s = (.stored, s')

variable {sender ring : KeyRing} {recipient : PublicRing} {message : Message} {payload : Payload}
  {s s' : Store} {o : Outlook} {peer : Address} {draws rest : Draws}
  {delivery : Delivery} {e : Entry}

theorem recipient_of_gates {expected : Option PublicRing} {own : Address}
    (h : gates ring o peer expected message = .ok (recipient, own)) :
    expected = some recipient := by
  unfold gates at h
  split at h
  · cases h
  · split at h
    · cases h
    · split at h
      · cases h
      · split at h
        · cases h
        · split at h
          · cases h
          · split at h <;> cases h
            rfl

theorem prepare_ready {sealer : Sealer}
    (h : prepare ring sealer o peer (some recipient) message draws = (.ready delivery, rest)) :
    (∃ sealed, sealer recipient (.mailbox message) draws = (.ok sealed, rest) ∧
      delivery.parcel.sealed = sealed) ∧
    delivery.receiverKey = recipient.signatureKey ∧ delivery.parcel.uid = message.uid := by
  unfold prepare at h
  split at h
  · next prepared hg =>
    obtain ⟨rfl, -⟩ := Prod.mk.inj h
    unfold gates at hg
    repeat' split at hg
    all_goals cases hg
  · next r own hg =>
    cases recipient_of_gates hg
    split at h
    · cases h
    · next sealed draws' hs =>
      cases h
      exact ⟨⟨sealed, hs, rfl⟩, rfl, rfl⟩

theorem add_of_publish {now : Timestamp} (h : delivery.publish ring o .full now s = (.stored, s')) :
    s.add (s.mint (delivery.payload ring) ring delivery.receiverKey now) = .ok s' := by
  unfold Delivery.publish at h
  split at h
  · cases h
  · next e he =>
    have hmint : e = s.mint (delivery.payload ring) ring delivery.receiverKey now := by
      unfold Delivery.entry at he
      split at he
      · cases he
      · cases he
      · cases he
        rfl
    subst hmint
    unfold Delivery.put Access.add at h
    cases ha : s.add (s.mint (delivery.payload ring) ring delivery.receiverKey now) with
    | error => simp [Access.full, ha, Except.map] at h
    | ok stored =>
      simp only [Access.full, ha, Except.map, Access.publishing, Bool.false_eq_true, if_false,
        Prod.mk.injEq] at h
      rw [h.2]

/-- A send that ends in the store adds an entry of its payload. -/
theorem Stores.add (h : Stores sender recipient message payload s s') :
    ∃ now, s.add (s.mint payload sender recipient.signatureKey now) = .ok s' := by
  obtain ⟨before, after, peer, draws, rest, delivery, now, hprepared, rfl, hstored⟩ := h
  rw [← (prepare_ready hprepared).2.1]
  exact ⟨now, add_of_publish hstored⟩

/-! ## What was sent -/

theorem Stores.sent (h : Stores sender recipient message payload s s') :
    Sent sender recipient message payload := by
  obtain ⟨before, -, peer, draws, rest, delivery, -, hprepared, hpayload, -⟩ := h
  exact ⟨before, peer, draws, rest, delivery, hprepared, hpayload⟩

theorem Sent.uid (h : Sent sender recipient message payload) : payload.uid = message.uid := by
  obtain ⟨before, peer, draws, rest, delivery, hprepared, rfl⟩ := h
  exact (prepare_ready hprepared).2.2

theorem Sent.ownerKey (h : Sent sender recipient message payload) :
    payload.ownerKey = recipient.signatureKey := by
  obtain ⟨before, peer, draws, rest, delivery, hprepared, rfl⟩ := h
  exact (prepare_ready hprepared).2.1

theorem Sent.senderKey (h : Sent sender recipient message payload) :
    payload.senderKey = sender.signatureKey := by
  obtain ⟨before, peer, draws, rest, delivery, hprepared, rfl⟩ := h
  rfl

/-- The recipient opens the message, signed by the sender. -/
theorem Sent.opening (laws : Suite.Laws) (h : Sent sender ring.publicRing message payload)
    (he : e.payload = payload) :
    e.opening ring = .received ⟨e, ⟨.mailbox message, sender.signatureKey⟩⟩ := by
  obtain ⟨before, peer, draws, rest, delivery, hprepared, rfl⟩ := h
  obtain ⟨⟨sealed, hseal, rfl⟩, -, -⟩ := prepare_ready hprepared
  have hopen := KeyRing.openEnvelope_sealEnvelope laws hseal
  have hsealed : e.payload.parcel.sealed = delivery.parcel.sealed := by rw [he]; rfl
  unfold Entry.opening
  rw [hsealed, hopen]
  rfl

theorem Stores.uid (h : Stores sender recipient message payload s s') : payload.uid = message.uid :=
  h.sent.uid

theorem Stores.ownerKey (h : Stores sender recipient message payload s s') :
    payload.ownerKey = recipient.signatureKey := h.sent.ownerKey

theorem Stores.opening (laws : Suite.Laws) (h : Stores sender ring.publicRing message payload s s')
    (he : e.payload = payload) :
    e.opening ring = .received ⟨e, ⟨.mailbox message, sender.signatureKey⟩⟩ :=
  h.sent.opening laws he

end SealedMail
