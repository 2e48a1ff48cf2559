import SealedMail.Proofs.Overlay.Acceptance

/-!
# Who decides about a stored entry

The keys that authorise a request are read from the entry that comes with it, not from the one that
is stored. Still only the sender and the receiver of a stored payload decide about it: every stored
mailbox entry is `Upheld` (it is what its sender signed under the recorded number), and entries with
the same hash have the same payload.
-/

namespace SealedMail.Store

variable [Suite] {s : Store} {r : Request} {e f : Entry} {hash : PayloadHash}

/-- What is stored under a hash is the entry that the sender of its payload signed under the
recorded number. -/
structure Upheld (s : Store) (hash : PayloadHash) (e : Entry) : Prop where
  keyed : e.hash = hash
  numbered : s.sequences.get? hash = some e.sequence
  owner : e.ownerKey = e.payload.senderKey
  signed : e.payload.senderKey.verifies (Entry.signedOctets hash e.sequence) e.signature = true

/-! ## One request -/

theorem get?_serve_add (h : s.accepted? (.add e) = some e) (hash : PayloadHash) :
    (s.serve (.add e)).entries.get? hash =
      if hash = e.hash then some (.mailbox e) else s.entries.get? hash := by
  cases ha : s.add e with
  | error error => simp [accepted?, ha, Except.isOk, Except.toBool] at h
  | ok s' =>
    obtain ⟨-, -, -, rfl⟩ := add_ok ha
    simp only [serve, ha, SortedMap.get?_insert]

theorem get?_serve_remove (h : s.accepted? (.remove e) = some e) (hash : PayloadHash) :
    (s.serve (.remove e)).entries.get? hash = if hash = e.hash then none
      else s.entries.get? hash := by
  obtain ⟨hmay, hlt⟩ := accepted?_remove.1 h
  cases hstored : s.entries.get? e.hash with
  | none =>
    simp only [serve, remove, hmay, Bool.not_true, Bool.false_eq_true, if_false,
      UInt32.not_le.2 hlt, hstored]
    split
    · next hh => exact hh ▸ hstored
    · rfl
  | some x =>
    simp only [serve, remove, hmay, Bool.not_true, Bool.false_eq_true, if_false,
      UInt32.not_le.2 hlt, hstored, SortedMap.get?_erase]

theorem serve_at (s : Store) (r : Request) (hash : PayloadHash) :
    ((s.serve r).entries.get? hash = s.entries.get? hash ∧
      (s.serve r).sequences.get? hash = s.sequences.get? hash) ∨
    (∃ f, r = .add f ∧ f.hash = hash ∧ s.accepted? (.add f) = some f ∧
      (s.serve r).entries.get? hash = some (.mailbox f)) ∨
    (∃ f, r = .remove f ∧ f.hash = hash ∧ s.accepted? (.remove f) = some f ∧
      (s.serve r).entries.get? hash = none) ∨
    ∃ g, r = .addGeneric g ∧ g.hash = hash ∧ (s.serve r).entries.get? hash = some (.generic g) := by
  cases ha : s.accepted? r with
  | none =>
    rcases serve_of_refused ha with h | ⟨g, rfl⟩
    · exact .inl (by simp only [h, and_self])
    · by_cases hh : hash = g.hash
      · exact .inr (.inr (.inr ⟨g, rfl, hh.symm, (SortedMap.get?_insert ..).trans (if_pos hh)⟩))
      · exact .inl ⟨(SortedMap.get?_insert ..).trans (if_neg hh), rfl⟩
  | some f =>
    by_cases hh : hash = f.hash
    · rcases eq_of_accepted? ha with rfl | rfl
      · exact .inr (.inl ⟨f, rfl, hh.symm, ha, (get?_serve_add ha _).trans (if_pos hh)⟩)
      · exact .inr (.inr (.inl ⟨f, rfl, hh.symm, ha, (get?_serve_remove ha _).trans (if_pos hh)⟩))
    · refine .inl ⟨?_, ?_⟩
      · rcases eq_of_accepted? ha with rfl | rfl
        · exact (get?_serve_add ha _).trans (if_neg hh)
        · exact (get?_serve_remove ha _).trans (if_neg hh)
      · rw [sequences_serve, ha]
        exact (SortedMap.get?_insert ..).trans (if_neg hh)

/-- The keys that an accepted request has been checked against are those of its own entry. -/
theorem verifies_of_isSigned (h : e.isSigned = true) {key : SignatureKey} (hk : e.ownerKey = key) :
    key.verifies (Entry.signedOctets e.hash e.sequence) e.signature = true := hk ▸ h

theorem verifies_of_mayRemove (h : mayRemove e = true) :
    e.payload.ownerKey.verifies (Entry.signedOctets e.hash e.sequence) e.signature = true ∨
      e.payload.senderKey.verifies (Entry.signedOctets e.hash e.sequence) e.signature = true := by
  simp only [mayRemove, Bool.and_eq_true, Bool.or_eq_true, decide_eq_true_eq] at h
  exact h.2.imp (verifies_of_isSigned h.1) (verifies_of_isSigned h.1)

/-- What a store holds under a hash after a request that was accepted for it. -/
theorem upheld_serve_add (h : s.accepted? (.add e) = some e) :
    (s.serve (.add e)).Upheld e.hash e := by
  obtain ⟨hkey, hsigned, -⟩ := accepted?_add.1 h
  refine ⟨rfl, ?_, hkey, verifies_of_isSigned hsigned hkey⟩
  rw [sequences_serve, h]
  exact (SortedMap.get?_insert ..).trans (if_pos rfl)

/-- Every stored mailbox entry is upheld. -/
def Authentic (s : Store) : Prop :=
  ∀ hash e, s.entries.get? hash = some (.mailbox e) → s.Upheld hash e

theorem Upheld.congr {s' : Store} (h : s.Upheld hash e)
    (hs : s'.sequences.get? hash = s.sequences.get? hash) : s'.Upheld hash e :=
  ⟨h.keyed, hs.trans h.numbered, h.owner, h.signed⟩

theorem Authentic.serve (hs : s.Authentic) (r : Request) : (s.serve r).Authentic := by
  intro hash e he
  rcases s.serve_at r hash
    with ⟨hentry, hsequence⟩ | ⟨f, rfl, hh, ha, hf⟩ | ⟨f, -, -, -, hnone⟩ | ⟨g, -, -, hg⟩
  · exact (hs hash e (hentry ▸ he)).congr hsequence
  · cases hf.symm.trans he
    exact hh ▸ upheld_serve_add ha
  · cases hnone.symm.trans he
  · cases hg.symm.trans he

/-- A stored entry is kept, or the request says why it is not: it is signed under the hash with a
higher number, and its own payload has the key that verifies it. -/
theorem Authentic.serve_cases (hs : s.Authentic) (he : s.entries.get? hash = some (.mailbox e))
    (r : Request) : (s.serve r).entries.get? hash = some (.mailbox e) ∨
    (∃ f, r = .remove f ∧ f.hash = hash ∧ (s.serve r).entries.get? hash = none ∧
      e.sequence < f.sequence ∧
      (f.payload.ownerKey.verifies (Entry.signedOctets hash f.sequence) f.signature = true ∨
        f.payload.senderKey.verifies (Entry.signedOctets hash f.sequence) f.signature = true)) ∨
    (∃ f, r = .add f ∧ f.hash = hash ∧ (s.serve r).entries.get? hash = some (.mailbox f) ∧
      e.sequence < f.sequence ∧
      f.payload.senderKey.verifies (Entry.signedOctets hash f.sequence) f.signature = true) ∨
    ∃ g, r = .addGeneric g ∧ g.hash = hash := by
  have hlt {f : Entry} (hh : f.hash = hash) (ha : s.accepted? r = some f) :
      e.sequence < f.sequence :=
    lt_of_accepted? ha ⟨_, hh ▸ (hs hash e he).numbered, UInt32.le_refl _⟩
  rcases s.serve_at r hash
    with ⟨hentry, -⟩ | ⟨f, rfl, rfl, ha, hf⟩ | ⟨f, rfl, rfl, ha, hnone⟩ | ⟨g, rfl, hh, -⟩
  · exact .inl (hentry.trans he)
  · obtain ⟨hkey, hsigned, -⟩ := accepted?_add.1 ha
    exact .inr (.inr (.inl ⟨f, rfl, rfl, hf, hlt rfl ha, verifies_of_isSigned hsigned hkey⟩))
  · exact .inr
      (.inl ⟨f, rfl, rfl, hnone, hlt rfl ha, verifies_of_mayRemove (accepted?_remove.1 ha).1⟩)
  · exact .inr (.inr (.inr ⟨g, rfl, hh⟩))

theorem stored_of_serve (he : (s.serve r).entries.get? hash = some (.mailbox e)) :
    s.entries.get? hash = some (.mailbox e) ∨ r = .add e := by
  rcases s.serve_at r hash
    with ⟨hentry, -⟩ | ⟨f, rfl, -, -, hf⟩ | ⟨f, -, -, -, hnone⟩ | ⟨g, -, -, hg⟩
  · exact .inl (hentry ▸ he)
  · cases hf.symm.trans he
    exact .inr rfl
  · cases hnone.symm.trans he
  · cases hg.symm.trans he

/-! ## Many requests -/

/-- The entry that comes with an addition or a removal. -/
def Request.entry? : Request → Option Entry
  | .add e => some e
  | .remove e => some e
  | .addGeneric _ => none

theorem stored_or_added {requests : List Request}
    (he : (requests.foldl serve s).entries.get? hash = some (.mailbox e)) :
    s.entries.get? hash = some (.mailbox e) ∨ .add e ∈ requests := by
  induction requests generalizing s with
  | nil => exact .inl he
  | cons r requests ih =>
    rcases ih he with h | h
    · exact (stored_of_serve h).imp_right (by rintro rfl; exact List.mem_cons_self)
    · exact .inr (List.mem_cons_of_mem _ h)

theorem Authentic.foldl_serve (hs : s.Authentic) (requests : List Request) :
    (requests.foldl Store.serve s).Authentic := by
  induction requests generalizing s with
  | nil => exact hs
  | cons r requests ih => exact ih (hs.serve r)

theorem authentic_ofCapacity (capacity : Nat) (broadcast : Broadcast) :
    (ofCapacity capacity broadcast).Authentic := fun _ _ h => nomatch h

/-- Every mailbox entry that a store holds after any requests is kept under its own hash with the
recorded number, and signed by the sender of its payload. If no two entries of the requests have one
hash and different payloads, then with the next request it stays, or it is taken out by a removal
that the receiver or the sender of its payload has signed, or replaced by an addition that the
sender has signed, for this hash and with a higher number; or else data of another kind, to which no
check applies, takes its place. -/
theorem stored_entry_changed_by_owner (capacity : Nat) (broadcast : Broadcast)
    (requests : List Request) (r : Request) :
    let s := requests.foldl serve (ofCapacity capacity broadcast)
    let submitted := (requests ++ [r]).filterMap Request.entry?
    (∀ hash e, s.entries.get? hash = some (.mailbox e) →
      e.hash = hash ∧ s.sequences.get? hash = some e.sequence ∧ e.ownerKey = e.payload.senderKey ∧
        e.payload.senderKey.verifies (Entry.signedOctets hash e.sequence) e.signature = true) ∧
    ((∀ e ∈ submitted, ∀ f ∈ submitted, e.hash = f.hash → e.payload = f.payload) →
      ∀ hash e, s.entries.get? hash = some (.mailbox e) →
        (s.serve r).entries.get? hash = some (.mailbox e) ∨
        (∃ f, r = .remove f ∧ (s.serve r).entries.get? hash = none ∧ e.sequence < f.sequence ∧
          (e.payload.ownerKey.verifies (Entry.signedOctets hash f.sequence) f.signature = true ∨
            e.payload.senderKey.verifies (Entry.signedOctets hash f.sequence) f.signature = true)) ∨
        (∃ f, r = .add f ∧ (s.serve r).entries.get? hash = some (.mailbox f) ∧
          e.sequence < f.sequence ∧
          e.payload.senderKey.verifies (Entry.signedOctets hash f.sequence) f.signature = true) ∨
        ∃ g, r = .addGeneric g ∧ g.hash = hash) := by
  intro s submitted
  have hs : s.Authentic := (authentic_ofCapacity capacity broadcast).foldl_serve requests
  refine ⟨?_, ?_⟩
  · intro hash e he
    have h := hs hash e he
    exact ⟨h.keyed, h.numbered, h.owner, h.signed⟩
  · intro hfree hash e he
    have hadded : .add e ∈ requests := (stored_or_added he).resolve_left nofun
    have hsubmitted : e ∈ submitted :=
      List.mem_filterMap.2 ⟨.add e, List.mem_append_left _ hadded, rfl⟩
    have hpayload {f : Entry} (hf : r.entry? = some f) (hh : f.hash = hash) :
        f.payload = e.payload :=
      hfree f (List.mem_filterMap.2 ⟨r, List.mem_append_right _ List.mem_cons_self, hf⟩)
        e hsubmitted
        (hh.trans (hs hash e he).keyed.symm)
    rcases hs.serve_cases he r
      with h | ⟨f, rfl, hh, hnone, hlt, hkey⟩ | ⟨f, rfl, hh, hsome, hlt, hkey⟩ | h
    · exact .inl h
    · rw [hpayload rfl hh] at hkey
      exact .inr (.inl ⟨f, rfl, hnone, hlt, hkey⟩)
    · rw [hpayload rfl hh] at hkey
      exact .inr (.inr (.inl ⟨f, rfl, hsome, hlt, hkey⟩))
    · exact .inr (.inr (.inr h))

end SealedMail.Store

namespace SealedMail.Store

attribute [local instance] Suite.transparent

open Transparent

/-- A letter is added twice, and a stranger asks in vain to take it out. The receiver may. -/
theorem letter_taken_out_by_receiver :
    let stored := signedLetter (ring 1) 2
    let requests : List Request :=
      [.add (signedLetter (ring 1) 1), .add stored, .remove (signedLetter (ring 3) 3)]
    let removal := signedLetter (ring 2) 4
    let s := requests.foldl serve (ofCapacity 8 (.sufficient 1))
    let submitted := (requests ++ [Request.remove removal]).filterMap Request.entry?
    s.entries.get? stored.hash = some (.mailbox stored) ∧
      (∀ e ∈ submitted, ∀ f ∈ submitted, e.hash = f.hash → e.payload = f.payload) ∧
      s.sequences.get? stored.hash = some stored.sequence ∧
      (s.serve (.remove removal)).entries.get? stored.hash = none ∧
      (stored.payload.ownerKey.verifies (Entry.signedOctets stored.hash removal.sequence)
        removal.signature = true ∨
        stored.payload.senderKey.verifies (Entry.signedOctets stored.hash removal.sequence)
          removal.signature = true) := by
  intro stored requests removal s submitted
  obtain ⟨hupheld, hchanged⟩ :=
    stored_entry_changed_by_owner 8 (.sufficient 1) requests (.remove removal)
  have hstored : s.entries.get? stored.hash = some (.mailbox stored) := by decide +kernel
  have hfree : ∀ e ∈ submitted, ∀ f ∈ submitted, e.hash = f.hash → e.payload = f.payload := by
    decide +kernel
  have hnone : (s.serve (.remove removal)).entries.get? stored.hash = none := by decide +kernel
  refine ⟨hstored, hfree, (hupheld _ stored hstored).2.1, hnone, ?_⟩
  rcases hchanged hfree _ stored hstored with h | ⟨f, hf, -, -, hkey⟩ | ⟨f, hf, -⟩ | ⟨g, hg, -⟩
  · exact nomatch hnone.symm.trans h
  · exact Request.remove.inj hf ▸ hkey
  · exact nomatch hf
  · exact nomatch hg

end SealedMail.Store
