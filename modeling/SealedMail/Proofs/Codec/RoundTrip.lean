import SealedMail.Codec.Record
import SealedMail.Message.Envelope
import SealedMail.Proofs.Data.SortedMap

/-!
# Round trips of codecs

A codec is `Lawful` if a value that fits is read back from its octets, whatever follows them, and if
every value fits whose octets can be counted. The ways to build codecs keep this, so it holds of all
that is exchanged.
-/

namespace SealedMail.Codec

variable {α β : Type}

structure Lawful (c : Codec α) : Prop where
  get_put : ∀ a rest, c.fits a → c.get (c.put a ++ rest) = some (a, rest)
  fits_of_length : ∀ a, (c.put a).length < maxLength → c.fits a

/-- The codec that is at hand for a type. -/
abbrev of (α : Type) [c : Codec α] : Codec α := c

theorem Lawful.ofOctets?_put [Codec α] (h : (of α).Lawful) {a : α}
    (ha : (put a).length < maxLength) : ofOctets? (put a) = some a := by
  have hg := h.get_put a [] (h.fits_of_length a ha)
  rw [List.append_nil] at hg
  rw [ofOctets?, hg]
  rfl

/-- A value whose octets start the octets of another is that other value. -/
theorem Lawful.eq_of_isPrefix {c : Codec α} (h : c.Lawful) {a b : α} (ha : c.fits a) (hb : c.fits b)
    (h : c.put a <+: c.put b) : a = b := by
  obtain ⟨rest, hrest⟩ := h
  have hread : c.get (c.put b) = some (a, rest) := hrest ▸ h.get_put a rest ha
  have hwhole := h.get_put b [] hb
  rw [List.append_nil, hread] at hwhole
  exact congrArg Prod.fst (Option.some.inj hwhole)

theorem Lawful.via {c : Codec β} (h : c.Lawful) {view : α → β} {make : β → α}
    (hv : ∀ a, make (view a) = a) : (via c view make).Lawful where
  get_put a rest ha := by
    change (c.get (c.put (view a) ++ rest)).map _ = _
    rw [h.get_put (view a) rest ha]
    exact congrArg (fun a => some (a, rest)) (hv a)
  fits_of_length a ha := h.fits_of_length (view a) ha

/-! ## Numbers, octets and texts -/

theorem lawful_number {w : Nat} {toNat : α → Nat} {ofNat : Nat → α}
    (h : ∀ a, ofNat (toNat a % octetRange w) = a) : (number w toNat ofNat).Lawful where
  get_put a rest _ := by
    change (if w ≤ (littleEndian w (toNat a) ++ rest).length then
      some (ofNat (ofLittleEndian ((littleEndian w (toNat a) ++ rest).take w)),
        (littleEndian w (toNat a) ++ rest).drop w) else none) = _
    simp [ofLittleEndian_littleEndian, h]
  fits_of_length _ _ := trivial

theorem lawful_uint16 : (of UInt16).Lawful :=
  lawful_number fun a => by
    rw [Nat.mod_eq_of_lt (a := a.toNat) (by simpa [octetRange] using a.toNat_lt)]
    exact UInt16.ofNat_toNat

theorem lawful_uint32 : (of UInt32).Lawful :=
  lawful_number fun a => by
    rw [Nat.mod_eq_of_lt (a := a.toNat) (by simpa [octetRange] using a.toNat_lt)]
    exact UInt32.ofNat_toNat

theorem lawful_uint64 : (of UInt64).Lawful :=
  lawful_number fun a => by
    rw [Nat.mod_eq_of_lt (a := a.toNat) (by simpa [octetRange] using a.toNat_lt)]
    exact UInt64.ofNat_toNat

theorem getCount_putCount {n : Nat} (h : n < maxLength) (rest : Bytes) :
    getCount (putCount n ++ rest) = some (n, rest) := by
  have hm : n % octetRange 8 = n := Nat.mod_eq_of_lt h
  simp [getCount, putCount, ofLittleEndian_littleEndian, hm]

theorem getCounted_putCounted {bs : Bytes} (h : bs.length < maxLength) (rest : Bytes) :
    getCounted (putCounted bs ++ rest) = some (bs, rest) := by
  simp [getCounted, putCounted, List.append_assoc, getCount_putCount h]

theorem length_putCounted (bs : Bytes) : (putCounted bs).length = 8 + bs.length := by
  simp [putCounted, putCount]

theorem lawful_bytes : (of Bytes).Lawful where
  get_put bs rest h := getCounted_putCounted h rest
  fits_of_length bs h := by
    have := length_putCounted bs
    exact Nat.lt_of_le_of_lt (by omega) (this ▸ h)

theorem lawful_string : (of String).Lawful where
  get_put s rest h := by
    change getCounted (putCounted (utf8 s) ++ rest) >>= _ = _
    simp [getCounted_putCounted h]
  fits_of_length s h := lawful_bytes.fits_of_length (utf8 s) h

theorem lawful_octets (n : Nat) : (of (Octets n)).Lawful where
  get_put a rest _ := Octets.take?_append a rest
  fits_of_length _ _ := trivial

theorem lawful_countedOctets (n : Nat) : (countedOctets n).Lawful where
  get_put a rest h := by
    have hlen : a.toList.length < maxLength := by rw [a.length_toList]; exact h
    change getCounted (putCounted a.toList ++ rest) >>= _ = _
    simp [getCounted_putCounted hlen]
  fits_of_length a h := by
    have hlen : a.toList.length < maxLength := lawful_bytes.fits_of_length a.toList h
    rwa [a.length_toList] at hlen

/-! ## Values that may be missing and lists -/

theorem Lawful.option {c : Codec α} (h : c.Lawful) : (of (Option α)).Lawful where
  get_put a rest ha := by
    cases a with
    | none => rfl
    | some a =>
      have hg := h.get_put a rest (ha a rfl)
      change (c.get (c.put a ++ rest)).map _ = _
      rw [hg, Option.map_some]
  fits_of_length a ha x hx := by
    cases hx
    refine h.fits_of_length x (Nat.lt_of_le_of_lt ?_ ha)
    exact Nat.le_add_right _ 1

theorem getMany_flatMap {get : Bytes → Option (α × Bytes)} {put : α → Bytes} (as : List α)
    (h : ∀ a ∈ as, ∀ rest, get (put a ++ rest) = some (a, rest)) (rest : Bytes) :
    getMany get as.length (as.flatMap put ++ rest) = some (as, rest) := by
  induction as with
  | nil => rfl
  | cons a as ih =>
    obtain ⟨ha, has⟩ := List.forall_mem_cons.1 h
    simp [getMany, List.append_assoc, ha, ih has]

theorem length_le_length_flatMap {f : α → Bytes} (hpos : ∀ a, 0 < (f a).length) (as : List α) :
    as.length ≤ (as.flatMap f).length := by
  induction as with
  | nil => exact Nat.le_refl 0
  | cons a as ih =>
    have := hpos a
    rw [List.flatMap_cons, List.length_append, List.length_cons]
    omega

theorem length_le_length_flatMap_of_mem (f : α → Bytes) {a : α} {as : List α} (h : a ∈ as) :
    (f a).length ≤ (as.flatMap f).length := by
  obtain ⟨before, after, rfl⟩ := List.append_of_mem h
  simp only [List.flatMap_append, List.flatMap_cons, List.length_append]
  omega

theorem Lawful.list {c : Codec α} (h : c.Lawful) (hpos : ∀ a, 0 < (c.put a).length) :
    (list : Codec (List α)).Lawful where
  get_put as rest ha := by
    change getList (putList as ++ rest) = _
    simp only [getList, putList, List.append_assoc, getCount_putCount ha.1]
    exact getMany_flatMap as (fun a hmem rest => h.get_put a rest (ha.2 a hmem)) rest
  fits_of_length as hlen := by
    have hput : (putList as).length = 8 + (as.flatMap c.put).length := by
      simp [putList, putCount]
    have hone : as.length ≤ (as.flatMap c.put).length := length_le_length_flatMap hpos as
    refine ⟨by change (putList as).length < _ at hlen; omega, fun a ha => h.fits_of_length a ?_⟩
    have ha := length_le_length_flatMap_of_mem c.put ha
    change (putList as).length < _ at hlen
    omega

section Sorted

variable {κ : Type} [LT κ] [DecidableEq κ] [DecidableLT κ] [KeyOrder κ]

theorem Lawful.sortedSet {c : Codec κ} (h : c.Lawful) (hpos : ∀ a, 0 < (c.put a).length) :
    (sortedSet : Codec (SortedSet κ)).Lawful :=
  (h.list hpos).via SortedMap.ofList_keys

end Sorted

/-- A text with a value. -/
def putPair (c : Codec α) (e : String × α) : Bytes := (of String).put e.1 ++ c.put e.2

theorem pair_putPair {c : Codec α} (h : c.Lawful) {e : String × α} (hkey : (of String).fits e.1)
    (hvalue : c.fits e.2) (rest : Bytes) : pair (putPair c e ++ rest) = some (e, rest) := by
  simp [pair, putPair, List.append_assoc, lawful_string.get_put e.1 _ hkey, h.get_put e.2 _ hvalue]

theorem Lawful.textMap {c : Codec α} (h : c.Lawful) : (textMap (c := c)).Lawful where
  get_put m rest hm := by
    have hsize : m.entries.length < maxLength := hm.1
    have hmany :
        getMany pair m.entries.length (m.entries.flatMap (putPair c) ++ rest) =
          some (m.entries, rest) :=
      getMany_flatMap m.entries (fun e he => pair_putPair h (hm.2 e he).1 (hm.2 e he).2) rest
    change getCount (putCount m.entries.length ++ m.entries.flatMap (putPair c) ++ rest) >>= _ = _
    rw [List.append_assoc, getCount_putCount hsize]
    simp [hmany, SortedMap.ofList_entries]
  fits_of_length m hm := by
    change (putCount m.entries.length ++ m.entries.flatMap (putPair c)).length < _ at hm
    rw [List.length_append] at hm
    have hpos (e : String × α) : 0 < (putPair c e).length := by
      change 0 < (putCounted (utf8 e.1) ++ c.put e.2).length
      rw [List.length_append, length_putCounted]
      omega
    have hsize := length_le_length_flatMap hpos m.entries
    refine ⟨by rw [SortedMap.size]; omega, fun e he => ?_⟩
    have hentry := length_le_length_flatMap_of_mem (putPair c) he
    rw [putPair, List.length_append] at hentry
    exact ⟨lawful_string.fits_of_length e.1 (by omega), h.fits_of_length e.2 (by omega)⟩

/-! ## Records and alternatives -/

structure Fields.Lawful {ρ : Type} (fs : Fields ρ) : Prop where
  get_put : ∀ r rest, fs.fits r → fs.get (fs.put r ++ rest) = some (r, rest)
  fits_of_length : ∀ r, (fs.put r).length < maxLength → fs.fits r

theorem Fields.lawful_nil : Fields.nil.Lawful := ⟨fun _ _ _ => rfl, fun _ _ => trivial⟩

theorem Fields.Lawful.field {ρ : Type} {fs : Fields ρ} (h : fs.Lawful) (name : String) {c : Codec α}
    (hc : c.Lawful) : (Fields.field name fs (c := c)).Lawful where
  get_put r rest hr := by
    change c.get (c.put r.1 ++ fs.put r.2 ++ rest) >>= _ = _
    rw [List.append_assoc, hc.get_put _ _ hr.1]
    simp [h.get_put r.2 rest hr.2]
  fits_of_length r hr := by
    change (c.put r.1 ++ fs.put r.2).length < _ at hr
    rw [List.length_append] at hr
    exact ⟨hc.fits_of_length r.1 (by omega), h.fits_of_length r.2 (by omega)⟩

theorem Fields.Lawful.record {ρ : Type} {fs : Fields ρ} (h : fs.Lawful) {view : α → ρ}
    {make : ρ → α} (hv : ∀ a, make (view a) = a) : (record fs view make).Lawful where
  get_put a rest ha := by
    change (fs.get (fs.put (view a) ++ rest)).map _ = _
    rw [h.get_put (view a) rest ha]
    exact congrArg (fun a => some (a, rest)) (hv a)
  fits_of_length a ha := h.fits_of_length (view a) ha

theorem getTag_putTag {n : Nat} (h : n < octetRange 4) (rest : Bytes) :
    getTag (putTag n ++ rest) = some (n, rest) := by
  simp [getTag, putTag, ofLittleEndian_littleEndian, Nat.mod_eq_of_lt h]

theorem lawful_enumeration [DecidableEq α] {all : List α} {name : α → String} (hall : ∀ a, a ∈ all)
    (hlen : all.length ≤ octetRange 4) : (enumeration all name).Lawful where
  get_put a rest _ := by
    have hlt := List.idxOf_lt_length_of_mem (hall a)
    change getTag (putTag (all.idxOf a) ++ rest) >>= _ = _
    rw [getTag_putTag (Nat.lt_of_lt_of_le hlt hlen)]
    simp [hlt]
  fits_of_length _ _ := trivial

theorem Lawful.either {a : Codec α} {b : Codec β} (ha : a.Lawful) (hb : b.Lawful)
    (left right : String) : (Codec.either left a right b).Lawful where
  get_put v rest hv := by
    cases v with
    | inl x =>
      change getTag (putTag 0 ++ a.put x ++ rest) >>= _ = _
      rw [List.append_assoc, getTag_putTag (by decide)]
      simp [ha.get_put x rest hv]
    | inr y =>
      change getTag (putTag 1 ++ b.put y ++ rest) >>= _ = _
      rw [List.append_assoc, getTag_putTag (by decide)]
      simp [hb.get_put y rest hv]
  fits_of_length v hv := by
    cases v with
    | inl x =>
      change (putTag 0 ++ a.put x).length < _ at hv
      rw [List.length_append] at hv
      exact ha.fits_of_length x (by omega)
    | inr y =>
      change (putTag 1 ++ b.put y).length < _ at hv
      rw [List.length_append] at hv
      exact hb.fits_of_length y (by omega)

/-! ## Envelopes -/

theorem lawful_address : (of Address).Lawful := by
  delta of Address.instCodec
  exact ((Fields.lawful_nil.field "port" lawful_uint16).field "host_name" lawful_string).record
    fun _ => rfl

theorem lawful_capabilities : (of Capabilities).Lawful :=
  (lawful_enumeration (fun a => by cases a <;> decide) (by decide)).sortedSet fun _ => by
    change 0 < (putTag _).length
    simp [putTag]

theorem lawful_message : (of Message).Lawful := by
  delta of instCodecMessage
  exact (((((Fields.lawful_nil.field "required_capabilities" lawful_capabilities.option).field
    "ttl_millis" lawful_uint64).field "body" lawful_bytes).field "message_type" lawful_string).field
      "sender_node_address" lawful_address).field "uid" lawful_string |>.record fun _ => rfl

theorem lawful_directContent : Envelope.directContent.Lawful := by
  delta Envelope.directContent
  exact ((Fields.lawful_nil.field "body" lawful_bytes).field "message_type" lawful_string).record
    fun _ => rfl

theorem lawful_envelope : (of Envelope).Lawful := by
  delta of Envelope.instCodec
  exact (lawful_message.either lawful_directContent "Mailbox" "Direct").via fun v => by
    cases v <;> rfl

end SealedMail.Codec
