import SealedMail.Mailbox.Ledger
import SealedMail.Message.Entry
import SealedMail.Proofs.Codec.RoundTrip
import SealedMail.Proofs.Json.Reading

/-!
# Round trips of JSON forms

A codec is `Faithful` if the JSON value of every value can be rendered and read, and stands for that
value. The ways to build codecs keep this, as long as the members of a record and the alternatives
of a choice have different names. So it holds of all that is kept in files: their texts are read
back as what they were written for (`Faithful.ofText?_toText`).
-/

namespace SealedMail.Codec

variable {α β : Type}

structure Faithful (c : Codec α) : Prop where
  written : ∀ a, (c.toJson a).Written
  ofJson?_toJson : ∀ a, c.ofJson? (c.toJson a) = some a

theorem Faithful.ofText?_toText [c : Codec α] (h : c.Faithful) (a : α) :
    ofText? (toText a) = some a := by
  rw [ofText?, toText, Json.parse?_render (h.written a), Option.bind_some, h.ofJson?_toJson]

theorem Faithful.via {c : Codec β} (h : c.Faithful) {view : α → β} {make : β → α}
    (hv : ∀ a, make (view a) = a) : (via c view make).Faithful where
  written a := h.written (view a)
  ofJson?_toJson a := by
    change (c.ofJson? (c.toJson (view a))).map make = some a
    rw [h.ofJson?_toJson, Option.map_some, hv]

/-- What is read one by one is read as a list. -/
theorem mapM_map_eq_some {γ : Type} {f : γ → β} {g : β → Option α} {view : γ → α} {cs : List γ}
    (h : ∀ c ∈ cs, g (f c) = some (view c)) : (cs.map f).mapM g = some (cs.map view) := by
  induction cs with
  | nil => rfl
  | cons c cs ih =>
    obtain ⟨hc, hcs⟩ := List.forall_mem_cons.1 h
    rw [List.map_cons, List.mapM_cons, hc, ih hcs]
    rfl

/-! ## Numbers, octets and texts -/

theorem faithful_number {w : Nat} {toNat : α → Nat} {ofNat : Nat → α}
    (hlt : ∀ a, toNat a < octetRange w)
    (h : ∀ a, ofNat (toNat a) = a) : (number w toNat ofNat).Faithful where
  written a := .number (toNat a)
  ofJson?_toJson a := by
    change (Json.ofNat (toNat a)).toNat?.bind _ = some a
    rw [Json.toNat?_ofNat, Option.bind_some, if_pos (hlt a), h]

theorem faithful_uint8 : (of UInt8).Faithful :=
  faithful_number (fun a => a.toNat_lt) fun _ => UInt8.ofNat_toNat

theorem faithful_uint16 : (of UInt16).Faithful :=
  faithful_number (fun a => a.toNat_lt) fun _ => UInt16.ofNat_toNat

theorem faithful_uint32 : (of UInt32).Faithful :=
  faithful_number (fun a => a.toNat_lt) fun _ => UInt32.ofNat_toNat

theorem faithful_uint64 : (of UInt64).Faithful :=
  faithful_number (fun a => a.toNat_lt) fun _ => UInt64.ofNat_toNat

theorem faithful_string : (of String).Faithful where
  written s := .text (utf8 s)
  ofJson?_toJson s := Json.text?_escape s

theorem written_octetsToJson (bs : Bytes) : (octetsToJson bs).Written := by
  refine .array fun item hitem => ?_
  obtain ⟨b, -, rfl⟩ := List.mem_map.1 hitem
  exact .number b.toNat

theorem octetsOfJson?_octetsToJson (bs : Bytes) : octetsOfJson? (octetsToJson bs) = some bs := by
  have hread :
      (bs.map fun b => Json.ofNat b.toNat).mapM (ofJson? (α := UInt8)) = some (bs.map id) :=
    mapM_map_eq_some fun b _ => faithful_uint8.ofJson?_toJson b
  rwa [List.map_id] at hread

theorem faithful_bytes : (of Bytes).Faithful := ⟨written_octetsToJson, octetsOfJson?_octetsToJson⟩

theorem faithful_octets (n : Nat) : (of (Octets n)).Faithful where
  written a := written_octetsToJson a.toList
  ofJson?_toJson a := by
    change (octetsOfJson? (octetsToJson a.toList)).bind Octets.ofList? = some a
    rw [octetsOfJson?_octetsToJson, Option.bind_some, Octets.ofList?_toList]

theorem faithful_countedOctets (n : Nat) : (countedOctets n).Faithful where
  written a := written_octetsToJson a.toList
  ofJson?_toJson := (faithful_octets n).ofJson?_toJson

/-! ## Values that may be missing, lists and sorted collections -/

theorem ofJson?_option [c : Codec α] {j : Json} (h : j ≠ .null) :
    (of (Option α)).ofJson? j = (c.ofJson? j).map some := by
  cases j with
  | null => exact absurd rfl h
  | _ => rfl

theorem Faithful.option {c : Codec α} (h : c.Faithful) (hnull : ∀ a, c.toJson a ≠ .null) :
    (of (Option α)).Faithful where
  written a := by
    cases a with
    | none => exact .null
    | some a => exact h.written a
  ofJson?_toJson a := by
    cases a with
    | none => rfl
    | some a =>
      have hread : (of (Option α)).ofJson? (c.toJson a) = (c.ofJson? (c.toJson a)).map some :=
        ofJson?_option (hnull a)
      exact hread.trans (congrArg _ (h.ofJson?_toJson a))

theorem Faithful.list {c : Codec α} (h : c.Faithful) : (list : Codec (List α)).Faithful where
  written as := by
    refine .array fun item hitem => ?_
    obtain ⟨a, -, rfl⟩ := List.mem_map.1 hitem
    exact h.written a
  ofJson?_toJson as := by
    have hread : (as.map c.toJson).mapM c.ofJson? = some (as.map id) :=
      mapM_map_eq_some fun a _ => h.ofJson?_toJson a
    rwa [List.map_id] at hread

section Sorted

variable {κ : Type} [LT κ] [DecidableEq κ] [DecidableLT κ] [KeyOrder κ]

theorem Faithful.sortedSet {c : Codec κ} (h : c.Faithful) :
    (sortedSet : Codec (SortedSet κ)).Faithful :=
  h.list.via SortedMap.ofList_keys

end Sorted

theorem Faithful.textMap {c : Codec α} (h : c.Faithful) : (textMap (c := c)).Faithful where
  written m := by
    refine .object (fun member hmember => ?_) fun member hmember => ?_ <;>
      obtain ⟨⟨k, a⟩, -, rfl⟩ := List.mem_map.1 hmember
    · exact ⟨utf8 k, rfl⟩
    · exact h.written a
  ofJson?_toJson m := by
    have hread : (m.entries.map fun e => (Json.escape (utf8 e.1), c.toJson e.2)).mapM
        (fun member => do some (← Json.text? member.1, ← c.ofJson? member.2)) =
            some (m.entries.map id) :=
      mapM_map_eq_some fun e _ => by simp [Json.text?_escape, h.ofJson?_toJson]
    rw [List.map_id] at hread
    change Option.map SortedMap.ofList
      ((m.entries.map fun e => (Json.escape (utf8 e.1), c.toJson e.2)).mapM
      fun member => do some (← Json.text? member.1, ← c.ofJson? member.2)) = some m
    rw [hread, Option.map_some, SortedMap.ofList_entries]

/-! ## Records -/

/-- Members that are read from any object in which they are found, if their names differ. -/
structure Fields.Faithful {ρ : Type} (fs : Fields ρ) : Prop where
  names_toMembers : ∀ r, (fs.toMembers r).map (·.1) = fs.names
  written : ∀ r, ∀ m ∈ fs.toMembers r, m.2.Written
  ofMembers?_eq_some : fs.names.Nodup → ∀ r members,
    (∀ name ∈ fs.names, members.find? (·.1 = name) = (fs.toMembers r).find? (·.1 = name)) →
      fs.ofMembers? members = some r

theorem Fields.faithful_nil : Fields.nil.Faithful where
  names_toMembers _ := rfl
  written _ _ h := nomatch h
  ofMembers?_eq_some _ _ _ _ := rfl

theorem Fields.Faithful.field {ρ : Type} {fs : Fields ρ} (h : fs.Faithful) (name : String)
    {c : Codec α} (hc : c.Faithful) : (Fields.field name fs (c := c)).Faithful where
  names_toMembers r := congrArg (name :: ·) (h.names_toMembers r.2)
  written r := List.forall_mem_cons.2 ⟨hc.written r.1, h.written r.2⟩
  ofMembers?_eq_some hnames r members hfind := by
    obtain ⟨hname, hothers⟩ := List.nodup_cons.1 hnames
    have hfirst : members.find? (·.1 = name) = some (name, c.toJson r.1) := by
      rw [hfind name List.mem_cons_self]
      exact List.find?_cons_of_pos (decide_eq_true rfl)
    have hrest : fs.ofMembers? members = some r.2 := by
      refine h.ofMembers?_eq_some hothers r.2 members fun other hother => ?_
      have hne : name ≠ other := fun he => hname (he ▸ hother)
      rw [hfind other (List.mem_cons_of_mem _ hother)]
      exact List.find?_cons_of_neg (by simpa using hne)
    simp [Fields.field, Fields.cons, hfirst, hrest, hc.ofJson?_toJson]

theorem Fields.Faithful.admits {ρ : Type} {fs : Fields ρ} (h : fs.Faithful)
    (hnodup : fs.names.Nodup) (r : ρ) : fs.admits (fs.toMembers r) = true := by
  have hnames := h.names_toMembers r
  rw [Fields.admits, Bool.and_eq_true, List.all_eq_true, List.all_eq_true]
  refine ⟨fun m hm => ?_, fun name _ => ?_⟩
  · have hmem : m.1 ∈ fs.names := hnames ▸ List.mem_map_of_mem hm
    simp [hmem]
  · have hcount : fs.names.count name ≤ 1 := List.nodup_iff_count.1 hnodup name
    rw [← hnames, List.count, List.countP_map] at hcount
    simpa only [Function.comp_def, Bool.beq_eq_decide_eq, decide_eq_true_eq] using hcount

theorem Fields.Faithful.record {ρ : Type} {fs : Fields ρ} (h : fs.Faithful) {view : α → ρ}
    {make : ρ → α} (hnames : fs.names.Nodup) (hv : ∀ a, make (view a) = a) :
    (record fs view make).Faithful where
  written a := by
    refine .object (fun member hmember => ?_) fun member hmember => ?_ <;>
      obtain ⟨⟨name, j⟩, hm, rfl⟩ := List.mem_map.1 hmember
    · exact ⟨utf8 name, rfl⟩
    · exact h.written (view a) _ hm
  ofJson?_toJson a := by
    have hread : ((fs.toMembers (view a)).map fun m => (Json.escape (utf8 m.1), m.2)).mapM
        (fun member => do some (← Json.text? member.1, member.2)) =
            some ((fs.toMembers (view a)).map id) :=
      mapM_map_eq_some fun m _ => by simp [Json.text?_escape]
    rw [List.map_id] at hread
    have hmembers := h.ofMembers?_eq_some hnames (view a) _ fun _ _ => rfl
    change Option.map make
      (((fs.toMembers (view a)).map fun m => (Json.escape (utf8 m.1), m.2)).mapM
      (fun member => do some (← Json.text? member.1, member.2)) >>= fun members =>
        if fs.admits members then fs.ofMembers? members else none) = some a
    rw [hread]
    simp [h.admits hnames, hmembers, hv]

/-! ## Alternatives -/

theorem faithful_enumeration [DecidableEq α] {all : List α} {name : α → String}
    (hall : ∀ a, a ∈ all)
    (hname : ∀ a b, name a = name b → a = b) : (enumeration all name).Faithful where
  written a := .text (utf8 (name a))
  ofJson?_toJson a := by
    have hread : alternative? (.ofString (name a)) = some (name a, none) := by
      change (Json.text? (Json.escape (utf8 (name a)))).map (·, none) = _
      rw [Json.text?_escape, Option.map_some]
    have hfind : all.find? (name · = name a) = some a := by
      cases hb : all.find? (name · = name a) with
      | none => exact absurd (List.find?_eq_none.1 hb a (hall a)) (by simp)
      | some b => rw [hname b a (by simpa using List.find?_some hb)]
    delta Codec.enumeration
    simp only [hread, hfind]

theorem alternative?_alternative (name : String) (content : Json) :
    alternative? (alternative name content) = some (name, some content) := by
  change (Json.text? (Json.escape (utf8 name))).map (·, some content) = _
  rw [Json.text?_escape, Option.map_some]

theorem written_alternative (name : String) {content : Json} (h : content.Written) :
    (alternative name content).Written := by
  refine .object (fun member hmember => ?_) fun member hmember => ?_ <;>
    obtain rfl := List.mem_singleton.1 hmember
  · exact ⟨utf8 name, rfl⟩
  · exact h

theorem Faithful.either {a : Codec α} {b : Codec β} (ha : a.Faithful) (hb : b.Faithful)
    {left right : String} (hne : right ≠ left) : (Codec.either left a right b).Faithful where
  written v := by
    cases v with
    | inl x => exact written_alternative left (ha.written x)
    | inr y => exact written_alternative right (hb.written y)
  ofJson?_toJson v := by
    delta Codec.either
    cases v with
    | inl x => simp [alternative?_alternative, ha.ofJson?_toJson]
    | inr y => simp [alternative?_alternative, hne, hb.ofJson?_toJson]

/-! ## What is kept in files -/

theorem faithful_signatureKey : (of SignatureKey).Faithful := by
  delta of SignatureKey.instCodec
  exact (faithful_octets 32).via fun _ => rfl

theorem faithful_encryptionKey : (of EncryptionKey).Faithful := by
  delta of EncryptionKey.instCodec
  exact (faithful_octets 32).via fun _ => rfl

theorem faithful_timestamp : (of Timestamp).Faithful := by
  delta of Timestamp.instCodec
  exact faithful_uint64.via fun _ => rfl

theorem faithful_address : (of Address).Faithful := by
  delta of Address.instCodec
  exact ((Fields.faithful_nil.field "port" faithful_uint16).field
    "host_name" faithful_string).record (by decide) fun _ => rfl

theorem faithful_capabilities : (of Capabilities).Faithful :=
  (faithful_enumeration (fun a => by cases a <;> decide)
    (fun a b => by cases a <;> cases b <;> decide)).sortedSet

theorem faithful_message : (of Message).Faithful := by
  delta of instCodecMessage
  have hrequired : (of (Option Capabilities)).Faithful :=
    faithful_capabilities.option fun _ => Json.noConfusion
  exact ((((((Fields.faithful_nil.field "required_capabilities" hrequired).field
    "ttl_millis" faithful_uint64).field
    "body" faithful_bytes).field
    "message_type" faithful_string).field
    "sender_node_address" faithful_address).field
    "uid" faithful_string).record (by decide) fun _ => rfl

theorem faithful_directContent : Envelope.directContent.Faithful := by
  delta Envelope.directContent
  exact ((Fields.faithful_nil.field "body" faithful_bytes).field
    "message_type" faithful_string).record (by decide) fun _ => rfl

theorem faithful_envelope : (of Envelope).Faithful := by
  delta of Envelope.instCodec
  exact (faithful_message.either faithful_directContent (by decide)).via fun v => by cases v <;> rfl

theorem faithful_sealed : (of Sealed).Faithful := by
  delta of Sealed.instCodec
  exact (((Fields.faithful_nil.field "ciphertext" faithful_bytes).field
    "nonce" (faithful_octets 24)).field
    "ephemeral_pub_key" faithful_encryptionKey).record (by decide) fun _ => rfl

theorem faithful_parcel : (of Parcel).Faithful := by
  delta of instCodecParcel
  exact ((((Fields.faithful_nil.field "uid" faithful_string).field
    "address_prefix_hash" faithful_bytes).field
    "sealed_and_signed" faithful_sealed).field
    "sender_node_address" faithful_address).record (by decide) fun _ => rfl

theorem faithful_payload : (of Payload).Faithful := by
  delta of Payload.instCodec
  exact ((((Fields.faithful_nil.field "ttl_millis" faithful_uint64).field
    "owner_pub_key" faithful_signatureKey).field
    "sender_pub_key_for_add_operation" faithful_signatureKey).field
    "prefixed_sealed_and_signed_message" faithful_parcel).record (by decide) fun _ => rfl

theorem faithful_entry : (of Entry).Faithful := by
  delta of Entry.instCodec
  exact ((((((Fields.faithful_nil.field "receivers_pub_key" faithful_signatureKey).field
    "creation_time_stamp" faithful_timestamp).field
    "signature" (faithful_countedOctets 64)).field
    "sequence_number" faithful_uint32).field
    "owner_pub_key" faithful_signatureKey).field
    "payload" faithful_payload).record (by decide) fun _ => rfl

theorem faithful_opened : (of Opened).Faithful := by
  delta of Opened.instCodec
  exact ((Fields.faithful_nil.field "signature_pub_key" faithful_signatureKey).field
    "network_envelope" faithful_envelope).record (by decide) fun _ => rfl

theorem faithful_item : (of Item).Faithful := by
  delta of Item.instCodec
  exact ((Fields.faithful_nil.field "decrypted_message_with_pub_key" faithful_opened).field
    "protected_mailbox_storage_entry" faithful_entry).record (by decide) fun _ => rfl

theorem faithful_itemList : (of ItemList).Faithful := by
  delta of instCodecItemList
  exact (Fields.faithful_nil.field "items" faithful_item.list).record (by decide) fun _ => rfl

theorem faithful_ledger : (of Ledger).Faithful := by
  delta of Ledger.instCodec
  exact (Fields.faithful_nil.field "data" faithful_timestamp.textMap).record (by decide) fun _ =>
    rfl

end SealedMail.Codec
