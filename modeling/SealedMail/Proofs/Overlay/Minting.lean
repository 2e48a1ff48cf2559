import SealedMail.Proofs.Overlay.Authority

/-!
# Minted entries

A minted entry has the number after the recorded one, so the store takes it from whoever may sign
it, with one exception: numbers have 32 bits, and after the last of them there is no other. A
payload is `Exhausted` when that number is recorded for it. Anyone who may add or remove a payload
can exhaust it, and nobody can add or remove it from then on.
-/

namespace SealedMail.Store

/-- The last number there is. -/
def lastSequence : UInt32 := 0xFFFFFFFF

/-- The last number is recorded for a payload. -/
def Exhausted (s : Store) (hash : PayloadHash) : Prop := s.sequences.get? hash = some lastSequence

instance (s : Store) (hash : PayloadHash) : Decidable (s.Exhausted hash) :=
  inferInstanceAs (Decidable (s.sequences.get? hash = some lastSequence))

variable {s : Store} {hash : PayloadHash} {n : UInt32}

/-! ## Numbers -/

theorem le_lastSequence (n : UInt32) : n ≤ lastSequence := by
  have : n.toNat < 2 ^ 32 := n.toNat_lt
  rw [UInt32.le_iff_toNat_le]
  change n.toNat ≤ 4294967295
  omega

theorem lt_succ_of_ne_last (h : n ≠ lastSequence) : n < n + 1 := by
  have hle : n.toNat ≤ 4294967295 := UInt32.le_iff_toNat_le.1 (le_lastSequence n)
  have hne : n.toNat ≠ 4294967295 := fun hn => h (UInt32.toNat_inj.1 hn)
  rw [UInt32.lt_iff_toNat_lt, UInt32.toNat_add, UInt32.toNat_one]
  omega

/-- The next number is above the recorded one unless the payload is exhausted. -/
theorem getD_lt_nextSequence_iff : (s.sequences.get? hash).getD 0 < s.nextSequence hash ↔
    ¬ s.Exhausted hash := by
  unfold nextSequence Exhausted
  cases s.sequences.get? hash with
  | none => simp
  | some n =>
    by_cases hn : n = lastSequence
    · subst hn
      simp [lastSequence]
    · have hlt := lt_succ_of_ne_last hn
      have hne : n ≠ 0xFFFFFFFF := hn
      simp [hn, hne, hlt]

/-- The same for the check of additions, which passes whenever nothing is recorded. -/
theorem isFresh_nextSequence_iff : s.isFresh hash (s.nextSequence hash) = true ↔
    ¬ s.Exhausted hash := by
  rw [← getD_lt_nextSequence_iff, isFresh_iff]
  cases hn : s.sequences.get? hash with
  | none => simp [nextSequence, hn]
  | some n => simp

variable [Suite] {r : Request} {e f : Entry}

/-! ## Minted requests -/

theorem eq_none_of_accepted?_ne (ha : s.accepted? r ≠ some e) (hr : r = .add e ∨ r = .remove e) :
    s.accepted? r = none := by
  cases hf : s.accepted? r with
  | none => rfl
  | some f =>
    have heq : f = e := by
      rcases hr with rfl | rfl <;> rcases eq_of_accepted? hf with h | h <;> cases h <;> rfl
    exact absurd (heq ▸ hf) ha

theorem exists_add_iff : (∃ s', s.add e = .ok s') ↔ s.accepted? (.add e) = some e := by
  simp only [accepted?, Option.ite_none_right_eq_some, and_true]
  cases s.add e <;> simp [Except.isOk, Except.toBool]

/-- What is stored is taken out by a removal that is accepted, -/
theorem remove_of_stored (ha : s.accepted? (.remove e) = some e)
    (hstored : s.contains e.hash = true) :
    (s.remove e).2 = true ∧ (s.remove e).1.contains e.hash = false := by
  obtain ⟨hmay, hlt⟩ := accepted?_remove.1 ha
  obtain ⟨x, hx⟩ := SortedMap.contains_iff.1 hstored
  have hgone : (s.remove e).1.entries.get? e.hash = none :=
    (get?_serve_remove ha e.hash).trans (if_pos rfl)
  refine ⟨?_, SortedMap.get?_eq_none_iff.1 hgone⟩
  simp only [remove, hmay, Bool.not_true, Bool.false_eq_true, if_false, UInt32.not_le.2 hlt, hx]

/-- and by no other. -/
theorem gone_iff (hstored : s.contains e.hash = true) :
    (s.remove e).1.contains e.hash = false ↔ s.accepted? (.remove e) = some e := by
  refine ⟨fun hgone => Classical.byContradiction fun ha => ?_,
    fun ha => (remove_of_stored ha hstored).2⟩
  rw [remove_of_refused (eq_none_of_accepted?_ne ha (.inr rfl)), hstored] at hgone
  cases hgone

section Minted

variable {ring : KeyRing} {payload : Payload} {receiverKey : SignatureKey} {now : Timestamp}
  (hring : ∀ message, ring.signatureKey.verifies message (ring.sign message) = true)

include hring

theorem accepted?_add_mint_iff :
    s.accepted? (.add (s.mint payload ring receiverKey now)) =
      some (s.mint payload ring receiverKey now) ↔
      ring.signatureKey = payload.senderKey ∧ ¬ s.Exhausted payload.hash := by
  have hsigned : (s.mint payload ring receiverKey now).isSigned = true := hring _
  rw [accepted?_add, ← isFresh_iff, ← isFresh_nextSequence_iff]
  exact ⟨fun ⟨hkey, _, hfresh⟩ => ⟨hkey, hfresh⟩, fun ⟨hkey, hfresh⟩ => ⟨hkey, hsigned, hfresh⟩⟩

theorem accepted?_remove_mint_iff :
    s.accepted? (.remove (s.mint payload ring receiverKey now)) =
      some (s.mint payload ring receiverKey now) ↔
      (ring.signatureKey = payload.ownerKey ∨ ring.signatureKey = payload.senderKey) ∧
        ¬ s.Exhausted payload.hash := by
  have hsigned : (s.mint payload ring receiverKey now).isSigned = true := hring _
  have hmay : mayRemove (s.mint payload ring receiverKey now) = true ↔
      ring.signatureKey = payload.ownerKey ∨ ring.signatureKey = payload.senderKey := by
    rw [mayRemove, hsigned, Bool.true_and, Bool.or_eq_true, decide_eq_true_eq, decide_eq_true_eq]
    rfl
  rw [accepted?_remove, hmay, ← getD_lt_nextSequence_iff]
  rfl

theorem exists_add_mint_iff :
    (∃ s', s.add (s.mint payload ring receiverKey now) = .ok s') ↔
      ring.signatureKey = payload.senderKey ∧ ¬ s.Exhausted payload.hash :=
  exists_add_iff.trans (accepted?_add_mint_iff hring)

theorem gone_mint_iff (hstored : s.contains payload.hash = true) :
    (s.remove (s.mint payload ring receiverKey now)).1.contains payload.hash = false ↔
      (ring.signatureKey = payload.ownerKey ∨ ring.signatureKey = payload.senderKey) ∧
        ¬ s.Exhausted payload.hash :=
  (gone_iff (e := s.mint payload ring receiverKey now) hstored).trans
    (accepted?_remove_mint_iff hring)

theorem removed_mint_iff (hstored : s.contains payload.hash = true) :
    ((s.remove (s.mint payload ring receiverKey now)).2 = true ∧
      (s.remove (s.mint payload ring receiverKey now)).1.contains payload.hash = false) ↔
      (ring.signatureKey = payload.ownerKey ∨ ring.signatureKey = payload.senderKey) ∧
        ¬ s.Exhausted payload.hash :=
  ⟨fun h => (gone_mint_iff hring hstored).1 h.2,
    fun h => remove_of_stored ((accepted?_remove_mint_iff hring).2 h) hstored⟩

end Minted

/-! ## Exhausted payloads -/

/-- Nothing is accepted for an exhausted payload. -/
theorem Exhausted.accepted?_ne (h : s.Exhausted e.hash) (r : Request) : s.accepted? r ≠ some e :=
  fun ha =>
  UInt32.not_lt.2 (le_lastSequence e.sequence) (lt_of_accepted? ha ⟨_, h, UInt32.le_refl _⟩)

theorem Exhausted.refused (h : s.Exhausted e.hash) :
    s.remove e = (s, false) ∧ ∃ error, s.add e = .error error := by
  have hnone {r : Request} (hr : r = .add e ∨ r = .remove e) :=
    eq_none_of_accepted?_ne (h.accepted?_ne r) hr
  exact ⟨remove_of_refused (hnone (.inr rfl)), add_of_refused (hnone (.inl rfl))⟩

/-- A payload is exhausted by an entry that is accepted with the last number, and stays so. -/
theorem exhausted_serve_iff : (s.serve r).Exhausted hash ↔
    s.Exhausted hash ∨ ∃ f, s.accepted? r = some f ∧ f.hash = hash ∧ f.sequence = lastSequence := by
  unfold Exhausted
  rw [sequences_serve]
  cases ha : s.accepted? r with
  | none => simp
  | some f =>
    simp only [SortedMap.get?_insert, Option.some.injEq, exists_eq_left']
    split
    · next hh =>
      subst hh
      have hnot : ¬ s.sequences.get? f.hash = some lastSequence :=
        fun h => Exhausted.accepted?_ne h r ha
      simp [hnot]
    · next hh => simp [Ne.symm hh]

theorem exhausted_foldl_serve_iff {requests : List Request} :
    (requests.foldl serve s).Exhausted hash ↔
    s.Exhausted hash ∨ ∃ f ∈ s.accepted requests, f.hash = hash ∧ f.sequence = lastSequence := by
  induction requests generalizing s with
  | nil => simp [accepted]
  | cons r requests ih =>
    rw [List.foldl_cons, ih, exhausted_serve_iff]
    simp only [accepted, List.mem_append, Option.mem_toList, or_and_right, exists_or, or_assoc]

/-- What is stored under an exhausted hash stays there, until other data is stored in its place. -/
theorem Exhausted.get?_foldl_serve (h : s.Exhausted hash) {requests : List Request}
    (hgeneric : ∀ g, .addGeneric g ∈ requests → g.hash ≠ hash) :
    (requests.foldl serve s).entries.get? hash = s.entries.get? hash := by
  induction requests generalizing s with
  | nil => rfl
  | cons r requests ih =>
    rw [List.foldl_cons, ih (exhausted_serve_iff.2 (.inl h)) fun g hg => hgeneric g (.tail _ hg)]
    rcases s.serve_at r hash
      with ⟨hentry, -⟩ | ⟨f, -, rfl, ha, -⟩ | ⟨f, -, rfl, ha, -⟩ | ⟨g, rfl, hh, -⟩
    · exact hentry
    · exact absurd ha (h.accepted?_ne _)
    · exact absurd ha (h.accepted?_ne _)
    · exact absurd hh (hgeneric g List.mem_cons_self)

/-- Whatever a store has served, an entry that is minted for a payload is added exactly if the ring
is the sender's and no entry for the payload has been accepted with the last number. If the payload
is stored, it is taken out exactly if the ring is the receiver's or the sender's, on the same
condition. After an entry with the last number nobody can do either: what is stored stays, whatever
else is added or removed. -/
theorem minted_entry_accepted_iff (ring : KeyRing)
    (hring : ∀ message, ring.signatureKey.verifies message (ring.sign message) = true)
    (capacity : Nat) (broadcast : Broadcast) (requests : List Request) (payload : Payload)
    (receiverKey : SignatureKey) (now : Timestamp) :
    let start := ofCapacity capacity broadcast
    let s := requests.foldl serve start
    let e := s.mint payload ring receiverKey now
    let spent := ∃ f ∈ start.accepted requests, f.hash = payload.hash ∧ f.sequence = 0xFFFFFFFF
    ((∃ s', s.add e = .ok s') ↔ ring.signatureKey = payload.senderKey ∧ ¬ spent) ∧
    (s.contains payload.hash = true →
      ((s.remove e).2 = true ∧ (s.remove e).1.contains payload.hash = false ↔
        (ring.signatureKey = payload.ownerKey ∨ ring.signatureKey = payload.senderKey) ∧ ¬ spent)) ∧
    (spent →
      (∀ f, f.hash = payload.hash → s.remove f = (s, false) ∧ ∃ error, s.add f = .error error) ∧
      ∀ later : List Request, (∀ g, .addGeneric g ∈ later → g.hash ≠ payload.hash) →
        (later.foldl serve s).entries.get? payload.hash = s.entries.get? payload.hash) := by
  intro start s e spent
  have hspent : s.Exhausted payload.hash ↔ spent := by
    refine exhausted_foldl_serve_iff.trans (or_iff_right ?_)
    exact fun h => nomatch h
  refine ⟨?_, fun hstored => ?_, fun h => ⟨fun f hf => Exhausted.refused ?_, fun later => ?_⟩⟩
  · exact (exists_add_mint_iff hring).trans (and_congr_right' (not_congr hspent))
  · exact (removed_mint_iff hring hstored).trans (and_congr_right' (not_congr hspent))
  · exact hf ▸ hspent.2 h
  · exact (hspent.2 h).get?_foldl_serve

end SealedMail.Store

namespace SealedMail.Store

attribute [local instance] Suite.transparent

open Transparent

/-- A letter is stored with the last number but one. Its receiver can still take it out, and its
sender replace it. -/
theorem nearly_exhausted_letter_removed :
    let requests : List Request := [.add (signedLetter (ring 1) 0xFFFFFFFE)]
    let s := requests.foldl serve (.ofCapacity 8 (.sufficient 1))
    let payload := (signedLetter (ring 1) 0xFFFFFFFE).payload
    let removal := s.mint payload (ring 2) (ring 2).signatureKey ⟨0⟩
    let addition := s.mint payload (ring 1) (ring 2).signatureKey ⟨0⟩
    s.contains payload.hash = true ∧
      (s.remove removal).2 = true ∧ (s.remove removal).1.contains payload.hash = false ∧
      ∃ s', s.add addition = .ok s' := by
  have hreceiver := minted_entry_accepted_iff (ring 2)
    (KeyRing.verifies_sign Suite.transparent_laws _) 8 (.sufficient 1)
    [.add (signedLetter (ring 1) 0xFFFFFFFE)] (signedLetter (ring 1) 0xFFFFFFFE).payload
    (ring 2).signatureKey ⟨0⟩
  have hsender := minted_entry_accepted_iff (ring 1)
    (KeyRing.verifies_sign Suite.transparent_laws _) 8 (.sufficient 1)
    [.add (signedLetter (ring 1) 0xFFFFFFFE)] (signedLetter (ring 1) 0xFFFFFFFE).payload
    (ring 2).signatureKey ⟨0⟩
  have hremoved := (hreceiver.2.1 (by decide +kernel)).2 (by decide +kernel)
  exact ⟨by decide +kernel, hremoved.1, hremoved.2, hsender.1.2 (by decide +kernel)⟩

/-- A sender stores a letter with the last number there is. Its receiver may remove it and cannot,
and the sender can neither replace it nor remove it. -/
theorem exhausted_letter_stays :
    let requests : List Request := [.add (signedLetter (ring 1) 0xFFFFFFFF)]
    let s := requests.foldl serve (.ofCapacity 8 (.sufficient 1))
    let payload := (signedLetter (ring 1) 0xFFFFFFFF).payload
    let minted (ring : KeyRing) := s.mint payload ring (Transparent.ring 2).signatureKey ⟨0⟩
    s.contains payload.hash = true ∧
      (ring 2).signatureKey = payload.ownerKey ∧ (minted (ring 2)).isSigned = true ∧
      s.remove (minted (ring 2)) = (s, false) ∧
      (ring 1).signatureKey = payload.senderKey ∧ (minted (ring 1)).isSigned = true ∧
      s.remove (minted (ring 1)) = (s, false) ∧ (s.add (minted (ring 1))).isOk = false := by
  decide +kernel

end SealedMail.Store
