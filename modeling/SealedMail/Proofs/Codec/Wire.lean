import SealedMail.Mailbox.Ledger
import SealedMail.Message.Entry
import SealedMail.Proofs.Codec.RoundTrip

/-!
# What is exchanged and stored

Every type whose values are exchanged between nodes or stored has a lawful codec (`Wire.lawful`). So
the octets of a value say where they end, and no other value of the type has octets that start with
them (`Wire.octets_unambiguous`).
-/

namespace SealedMail

/-- The types of what is exchanged or stored. -/
inductive Wire where
  | envelope
  | message
  | capabilities
  | sealedText
  | parcel
  | payload
  | entry
  | storedEntry
  | opened
  | item
  | itemList
  | ledger
  | publicRing
  deriving DecidableEq, Repr

namespace Wire

@[reducible] def Value : Wire → Type
  | envelope => Envelope
  | message => Message
  | capabilities => Capabilities
  | sealedText => Sealed
  | parcel => Parcel
  | payload => Payload
  | entry => Entry
  | storedEntry => StoredEntry
  | opened => Opened
  | item => Item
  | itemList => ItemList
  | ledger => Ledger
  | publicRing => PublicRing

instance codec : (w : Wire) → Codec w.Value
  | envelope => inferInstanceAs (Codec Envelope)
  | message => inferInstanceAs (Codec Message)
  | capabilities => inferInstanceAs (Codec Capabilities)
  | sealedText => inferInstanceAs (Codec Sealed)
  | parcel => inferInstanceAs (Codec Parcel)
  | payload => inferInstanceAs (Codec Payload)
  | entry => inferInstanceAs (Codec Entry)
  | storedEntry => inferInstanceAs (Codec StoredEntry)
  | opened => inferInstanceAs (Codec Opened)
  | item => inferInstanceAs (Codec Item)
  | itemList => inferInstanceAs (Codec ItemList)
  | ledger => inferInstanceAs (Codec Ledger)
  | publicRing => inferInstanceAs (Codec PublicRing)

end Wire

namespace Codec

/-! ## Keys and times -/

theorem lawful_signatureKey : (of SignatureKey).Lawful := by
  delta of SignatureKey.instCodec
  exact (lawful_octets 32).via fun _ => rfl

theorem lawful_encryptionKey : (of EncryptionKey).Lawful := by
  delta of EncryptionKey.instCodec
  exact (lawful_octets 32).via fun _ => rfl

theorem lawful_timestamp : (of Timestamp).Lawful := by
  delta of Timestamp.instCodec
  exact lawful_uint64.via fun _ => rfl

theorem lawful_publicRing : (of PublicRing).Lawful := by
  delta of instCodecPublicRing
  exact ((Fields.lawful_nil.field "encryption_pub_key" lawful_encryptionKey).field
    "signature_pub_key" lawful_signatureKey).record fun _ => rfl

/-! ## Entries -/

theorem lawful_sealed : (of Sealed).Lawful := by
  delta of Sealed.instCodec
  exact (((Fields.lawful_nil.field "ciphertext" lawful_bytes).field
    "nonce" (lawful_octets 24)).field
    "ephemeral_pub_key" lawful_encryptionKey).record fun _ => rfl

theorem lawful_parcel : (of Parcel).Lawful := by
  delta of instCodecParcel
  exact ((((Fields.lawful_nil.field "uid" lawful_string).field
    "address_prefix_hash" lawful_bytes).field
    "sealed_and_signed" lawful_sealed).field
    "sender_node_address" lawful_address).record fun _ => rfl

theorem lawful_payload : (of Payload).Lawful := by
  delta of Payload.instCodec
  exact ((((Fields.lawful_nil.field "ttl_millis" lawful_uint64).field
    "owner_pub_key" lawful_signatureKey).field
    "sender_pub_key_for_add_operation" lawful_signatureKey).field
    "prefixed_sealed_and_signed_message" lawful_parcel).record fun _ => rfl

theorem lawful_entry : (of Entry).Lawful := by
  delta of Entry.instCodec
  exact ((((((Fields.lawful_nil.field "receivers_pub_key" lawful_signatureKey).field
    "creation_time_stamp" lawful_timestamp).field
    "signature" (lawful_countedOctets 64)).field
    "sequence_number" lawful_uint32).field
    "owner_pub_key" lawful_signatureKey).field
    "payload" lawful_payload).record fun _ => rfl

theorem lawful_genericEntry : (of GenericEntry).Lawful := by
  delta of instCodecGenericEntry
  exact (((Fields.lawful_nil.field "creation_time_stamp" lawful_timestamp).field
    "data" lawful_bytes).field
    "payload_hash" (lawful_octets 32)).record fun _ => rfl

theorem lawful_storedEntry : (of StoredEntry).Lawful := by
  delta of StoredEntry.instCodec
  exact (lawful_entry.either lawful_genericEntry "Mailbox" "Generic").via fun e => by
    cases e <;> rfl

/-! ## Items and the ledger -/

theorem lawful_opened : (of Opened).Lawful := by
  delta of Opened.instCodec
  exact ((Fields.lawful_nil.field "signature_pub_key" lawful_signatureKey).field "network_envelope"
    lawful_envelope).record fun _ => rfl

theorem lawful_item : (of Item).Lawful := by
  delta of Item.instCodec
  exact ((Fields.lawful_nil.field "decrypted_message_with_pub_key" lawful_opened).field
    "protected_mailbox_storage_entry" lawful_entry).record fun _ => rfl

/-- An item ends with a key. -/
theorem length_put_item_pos (i : Item) : 0 < ((of Item).put i).length := by
  change 0 < ((of Entry).put i.entry ++ ((of Envelope).put i.opened.envelope ++
    (i.opened.signatureKey.octets.toList ++ []) ++ [])).length
  simp only [List.length_append, Octets.length_toList]
  omega

theorem lawful_itemList : (of ItemList).Lawful := by
  delta of instCodecItemList
  exact (Fields.lawful_nil.field "items" (lawful_item.list length_put_item_pos)).record fun _ => rfl

theorem lawful_ledger : (of Ledger).Lawful := by
  delta of Ledger.instCodec
  exact (Fields.lawful_nil.field "data" lawful_timestamp.textMap).record fun _ => rfl

end Codec

namespace Wire

open Codec

theorem lawful : (w : Wire) → (of w.Value).Lawful
  | envelope => lawful_envelope
  | message => lawful_message
  | capabilities => lawful_capabilities
  | sealedText => lawful_sealed
  | parcel => lawful_parcel
  | payload => lawful_payload
  | entry => lawful_entry
  | storedEntry => lawful_storedEntry
  | opened => lawful_opened
  | item => lawful_item
  | itemList => lawful_itemList
  | ledger => lawful_ledger
  | publicRing => lawful_publicRing

/-- Of two values whose lengths can be counted, of any type that is exchanged or stored: reading the
octets of the one, whatever follows them, gives that value and leaves what follows; and these octets
are those of the other, or only start them, exactly if the values are equal. -/
theorem octets_unambiguous (w : Wire) {v u : w.Value} (hv : fits v) (hu : fits u) :
    (∀ rest, get (put v ++ rest) = some (v, rest) ∧ ofOctets? (put v ++ rest) = some v) ∧
      (put v = put u ↔ v = u) ∧ (put v <+: put u ↔ v = u) := by
  have hstart : put v <+: put u → v = u := w.lawful.eq_of_isPrefix hv hu
  refine ⟨fun rest => ?_, ⟨fun h => ?_, fun h => ?_⟩, hstart, fun h => ?_⟩
  · have hread : get (put v ++ rest) = some (v, rest) := w.lawful.get_put v rest hv
    exact ⟨hread, by rw [ofOctets?, hread, Option.map_some]⟩
  · exact hstart (h ▸ List.prefix_rfl)
  · exact congrArg put h
  · exact h ▸ List.prefix_rfl

/-- An item whose message asks for something, or for nothing. -/
def note (required : Option Capabilities) : Item where
  entry :=
    { payload := ⟨⟨⟨"a.onion", 1⟩, ⟨⟨.replicate 32 1⟩, .replicate 24 2, [3, 4]⟩, [], "ü"⟩,
        ⟨.replicate 32 5⟩, ⟨.replicate 32 6⟩, 7⟩
      ownerKey := ⟨.replicate 32 5⟩
      sequence := 8
      signature := .replicate 64 9
      created := ⟨10⟩
      receiverKey := ⟨.replicate 32 6⟩ }
  opened := ⟨.mailbox ⟨"ü", ⟨"a.onion", 1⟩, "note", [], 7, required⟩, ⟨.replicate 32 5⟩⟩

/-- The octets of a list of one item do not start those of a list of two. -/
theorem longer_list_told_apart :
    let one : Value itemList := ⟨[note (some (.ofList [.mediation, .ackMessage]))]⟩
    let two : Value itemList := ⟨[note (some (.ofList [.mediation, .ackMessage])), note none]⟩
    fits one ∧ fits two ∧ get (put one ++ [11]) = some (one, [11]) ∧
    ofOctets? (put one ++ [11]) = some one ∧ one ≠ two ∧ ¬ put one <+: put two := by
  intro one two
  have hone : fits one := lawful_itemList.fits_of_length one (by decide +kernel)
  have htwo : fits two := lawful_itemList.fits_of_length two (by decide +kernel)
  have hne : one ≠ two := fun h => absurd (congrArg (·.items.length) h) (by decide)
  obtain ⟨hread, -, hstart⟩ := octets_unambiguous itemList hone htwo
  exact ⟨hone, htwo, (hread [11]).1, (hread [11]).2, hne, mt hstart.1 hne⟩

end Wire

end SealedMail
