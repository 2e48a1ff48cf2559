import SealedMail.Proofs.Crypto.Transparent
import SealedMail.Proofs.Overlay.Request

/-!
# Accepted entries

An entry is accepted with a request if the request is an addition that is stored, or a removal that
passes its checks, whether there was something to remove or not (`Store.accepted?`). Accepting an
entry records its number, nothing else changes a recorded number, and only numbers above the
recorded one are accepted. So along any requests the accepted numbers of a payload increase, and
whatever has been asked for once is refused from then on.
-/

namespace SealedMail.Store

variable [Suite] {s : Store} {r q : Request} {e : Entry} {hash : PayloadHash} {n : UInt32}

/-- The entry that is accepted with a request. -/
def accepted? (s : Store) : Request → Option Entry
  | .add e => if (s.add e).isOk then some e else none
  | .remove e =>
    if mayRemove e ∧ (s.sequences.get? e.hash).getD 0 < e.sequence then some e else none
  | .addGeneric _ => none

/-- The entries that are accepted with some requests, in order. -/
def accepted (s : Store) : List Request → List Entry
  | [] => []
  | r :: requests => (s.accepted? r).toList ++ (s.serve r).accepted requests

omit [Suite] in
/-- A number at least as high as `n` is recorded. -/
def Reached (s : Store) (hash : PayloadHash) (n : UInt32) : Prop :=
  ∃ m, s.sequences.get? hash = some m ∧ n ≤ m

/-! ## One request -/

omit [Suite] in
theorem isFresh_iff : s.isFresh hash n = true ↔ ∀ m, s.sequences.get? hash = some m → m < n := by
  unfold isFresh
  split
  · next m hm => simp [hm]
  · next hm => simp [hm]

theorem isOk_add_iff : (s.add e).isOk = true ↔
    e.ownerKey = e.payload.senderKey ∧ e.isSigned = true ∧ s.isFresh e.hash e.sequence = true := by
  constructor
  · intro h
    cases ha : s.add e with
    | error error => rw [ha] at h; cases h
    | ok s' =>
      obtain ⟨hkey, hsigned, hfresh, -⟩ := add_ok ha
      exact ⟨hkey, hsigned, hfresh⟩
  · rintro ⟨hkey, hsigned, hfresh⟩
    simp [add, hkey, hsigned, hfresh, Except.isOk, Except.toBool]

theorem accepted?_add : s.accepted? (.add e) = some e ↔
    e.ownerKey = e.payload.senderKey ∧ e.isSigned = true ∧
      ∀ m, s.sequences.get? e.hash = some m → m < e.sequence := by
  rw [← isFresh_iff, ← isOk_add_iff]
  simp [accepted?]

theorem accepted?_remove : s.accepted? (.remove e) = some e ↔
    mayRemove e = true ∧ (s.sequences.get? e.hash).getD 0 < e.sequence := by
  simp [accepted?]

theorem eq_of_accepted? (h : s.accepted? r = some e) : r = .add e ∨ r = .remove e := by
  cases r with
  | add f =>
    simp only [accepted?, Option.ite_none_right_eq_some, Option.some.injEq] at h
    exact .inl (h.2 ▸ rfl)
  | remove f =>
    simp only [accepted?, Option.ite_none_right_eq_some, Option.some.injEq] at h
    exact .inr (h.2 ▸ rfl)
  | addGeneric g => cases h

theorem lt_of_accepted? (h : s.accepted? r = some e) (hn : s.Reached e.hash n) :
    n < e.sequence := by
  obtain ⟨m, hm, hle⟩ := hn
  refine UInt32.lt_of_le_of_lt hle ?_
  rcases eq_of_accepted? h with rfl | rfl
  · exact (accepted?_add.1 h).2.2 m hm
  · simpa [hm] using (accepted?_remove.1 h).2

/-- The recorded numbers change by what is accepted, and by nothing else. -/
theorem sequences_serve (s : Store) (r : Request) : (s.serve r).sequences =
    match s.accepted? r with
    | some e => s.sequences.insert e.hash e.sequence
    | none => s.sequences := by
  cases r with
  | add e =>
    cases ha : s.add e with
    | error error => simp [serve, accepted?, ha, Except.isOk, Except.toBool]
    | ok s' =>
      obtain ⟨-, -, -, rfl⟩ := add_ok ha
      simp [serve, accepted?, ha, Except.isOk, Except.toBool]
  | remove e =>
    simp only [serve, remove, accepted?]
    cases hm : mayRemove e with
    | false => simp
    | true =>
      by_cases hs : e.sequence ≤ (s.sequences.get? e.hash).getD 0
      · simp [hs, UInt32.not_lt.2 hs]
      · simp only [Bool.not_true, Bool.false_eq_true, if_false, hs, UInt32.not_le.1 hs,
          and_self, if_true]
        cases s.entries.get? e.hash <;> rfl
  | addGeneric e => rfl

theorem add_of_refused (h : s.accepted? (.add e) = none) : ∃ error, s.add e = .error error := by
  cases ha : s.add e with
  | error error => exact ⟨error, rfl⟩
  | ok s' => simp [accepted?, ha, Except.isOk, Except.toBool] at h

theorem remove_of_refused (h : s.accepted? (.remove e) = none) : s.remove e = (s, false) := by
  simp only [accepted?, ite_eq_right_iff, reduceCtorEq, imp_false, not_and, UInt32.not_lt] at h
  unfold remove
  cases hm : mayRemove e with
  | false => rfl
  | true => simp [h hm]

theorem serve_of_refused (h : s.accepted? r = none) : s.serve r = s ∨ ∃ e, r = .addGeneric e := by
  cases r with
  | add e =>
    obtain ⟨error, ha⟩ := add_of_refused h
    exact .inl (by simp only [serve, ha])
  | remove e => exact .inl (congrArg Prod.fst (remove_of_refused h))
  | addGeneric e => exact .inr ⟨e, rfl⟩

/-- A removal of what is not stored is recorded, and nothing else. -/
theorem remove_of_absent (h : s.accepted? (.remove e) = some e) (ha : s.contains e.hash = false) :
    s.remove e = ({ s with sequences := s.sequences.insert e.hash e.sequence }, false) := by
  obtain ⟨hmay, hlt⟩ := accepted?_remove.1 h
  have hnone : s.entries.get? e.hash = none := SortedMap.get?_eq_none_iff.2 ha
  simp [remove, hmay, UInt32.not_le.2 hlt, hnone]

theorem Reached.serve (h : s.Reached hash n) (r : Request) : (s.serve r).Reached hash n := by
  obtain ⟨m, hm, hle⟩ := h
  unfold Reached
  rw [sequences_serve]
  cases ha : s.accepted? r with
  | none => exact ⟨m, hm, hle⟩
  | some e =>
    simp only [SortedMap.get?_insert]
    split
    · next hh =>
      subst hh
      exact ⟨e.sequence, rfl, UInt32.le_of_lt (lt_of_accepted? ha ⟨m, hm, hle⟩)⟩
    · exact ⟨m, hm, hle⟩

theorem reached_of_accepted? (h : s.accepted? r = some e) :
    (s.serve r).Reached e.hash e.sequence := by
  refine ⟨e.sequence, ?_, UInt32.le_refl _⟩
  rw [sequences_serve, h]
  simp only [SortedMap.get?_insert, if_true]

/-- What is accepted after a request would have been accepted before it. -/
theorem accepted?_of_serve (h : (s.serve q).accepted? r = some e) : s.accepted? r = some e := by
  have hlt {m : UInt32} (hm : s.sequences.get? e.hash = some m) : m < e.sequence :=
    lt_of_accepted? h (Reached.serve ⟨m, hm, UInt32.le_refl m⟩ q)
  rcases eq_of_accepted? h with rfl | rfl
  · obtain ⟨hkey, hsigned, -⟩ := accepted?_add.1 h
    exact accepted?_add.2 ⟨hkey, hsigned, fun m hm => hlt hm⟩
  · obtain ⟨hmay, hrecorded⟩ := accepted?_remove.1 h
    refine accepted?_remove.2 ⟨hmay, ?_⟩
    cases hm : s.sequences.get? e.hash with
    | none => exact UInt32.lt_of_le_of_lt UInt32.zero_le hrecorded
    | some m => exact hlt hm

/-! ## Many requests -/

theorem Reached.foldl_serve (h : s.Reached hash n) (requests : List Request) :
    (requests.foldl Store.serve s).Reached hash n := by
  induction requests generalizing s with
  | nil => exact h
  | cons r requests ih => exact ih (h.serve r)

theorem accepted?_of_foldl_serve {requests : List Request}
    (h : (requests.foldl serve s).accepted? r = some e) : s.accepted? r = some e := by
  induction requests generalizing s with
  | nil => exact h
  | cons q requests ih => exact accepted?_of_serve (ih h)

theorem lt_of_mem_accepted {requests : List Request} (h : e ∈ s.accepted requests)
    (hn : s.Reached e.hash n) : n < e.sequence := by
  induction requests generalizing s with
  | nil => cases h
  | cons r requests ih =>
    rcases List.mem_append.1 h with h | h
    · exact lt_of_accepted? (Option.mem_toList.1 h) hn
    · exact ih h (hn.serve r)

theorem pairwise_accepted (s : Store) (requests : List Request) :
    (s.accepted requests).Pairwise fun e f => e.hash = f.hash → e.sequence < f.sequence := by
  induction requests generalizing s with
  | nil => exact .nil
  | cons r requests ih =>
    simp only [accepted]
    cases ha : s.accepted? r with
    | none => exact ih (s.serve r)
    | some e =>
      refine .cons (fun f hf hh => lt_of_mem_accepted hf ?_) (ih (s.serve r))
      exact hh ▸ reached_of_accepted? ha

theorem accepted?_after (s : Store) (r : Request) (requests : List Request) :
    (requests.foldl serve (s.serve r)).accepted? r = none := by
  cases ha : (requests.foldl serve (s.serve r)).accepted? r with
  | none => rfl
  | some e =>
    have hfirst := accepted?_of_serve (accepted?_of_foldl_serve ha)
    have hreached := (reached_of_accepted? hfirst).foldl_serve requests
    exact absurd (lt_of_accepted? ha hreached) (UInt32.lt_irrefl _)

/-- Whatever is asked of a store, its recorded numbers never decrease, and the numbers that it
accepts for a payload increase, so that nothing is accepted twice. An addition or a removal that was
asked for before is refused. A refused request changes nothing, and a removal of what is not stored
changes one recorded number. -/
theorem accepted_numbers_increase (s : Store) (requests : List Request) :
    let s' := requests.foldl serve s
    (∀ hash n, s.sequences.get? hash = some n → ∃ m, s'.sequences.get? hash = some m ∧ n ≤ m) ∧
    (s.accepted requests).Pairwise (fun e f => e.hash = f.hash → e.sequence < f.sequence) ∧
    ((s.accepted requests).map fun e => (e.hash, e.sequence)).Nodup ∧
    (∀ e, .add e ∈ requests → ∃ error, s'.add e = .error error) ∧
    (∀ e, .remove e ∈ requests → s'.remove e = (s', false)) ∧
    (∀ e error, s'.add e = .error error → s'.serve (.add e) = s') ∧
    (∀ e, mayRemove e = false ∨ e.sequence ≤ (s'.sequences.get? e.hash).getD 0 →
      s'.remove e = (s', false)) ∧
    ∀ e, mayRemove e = true → (s'.sequences.get? e.hash).getD 0 < e.sequence →
      s'.contains e.hash = false →
      s'.remove e = ({ s' with sequences := s'.sequences.insert e.hash e.sequence }, false) := by
  intro s'
  have hpairwise := pairwise_accepted s requests
  have hagain {r : Request} (hr : r ∈ requests) : s'.accepted? r = none := by
    obtain ⟨before, after, rfl⟩ := List.append_of_mem hr
    simp only [s', List.foldl_append, List.foldl_cons]
    exact accepted?_after (before.foldl serve s) r after
  refine ⟨?_, hpairwise, ?_, fun e he => add_of_refused (hagain he),
    fun e he => remove_of_refused (hagain he), fun e error he => by
      simp only [serve, he], ?_, fun e hmay hlt => remove_of_absent
      (accepted?_remove.2 ⟨hmay, hlt⟩)⟩
  · intro hash n hn
    exact Reached.foldl_serve ⟨n, hn, UInt32.le_refl n⟩ requests
  · refine List.pairwise_map.2 (hpairwise.imp fun h he => ?_)
    obtain ⟨hhash, hsequence⟩ := Prod.mk.inj he
    exact UInt32.ne_of_lt (h hhash) hsequence
  · intro e he
    refine remove_of_refused (if_neg ?_)
    rintro ⟨hmay, hlt⟩
    rcases he with he | he
    · exact absurd (he.symm.trans hmay) Bool.false_ne_true
    · exact UInt32.not_lt.2 he hlt

end SealedMail.Store

namespace SealedMail.Store

attribute [local instance] Suite.transparent

open Transparent

/-- An entry for a letter from the first ring to the second, signed by whoever asks the store. -/
def signedLetter (signer : KeyRing) (sequence : UInt32) : Entry :=
  let e := entry (ring 1) (ring 2) (letter "u") sequence
  { e with
    ownerKey := signer.signatureKey
    signature := signer.sign (Entry.signedOctets e.hash sequence) }

/-- A letter is added, taken out, and added again with the numbers 1 to 3. Then the store is asked
for all of it again. -/
theorem replayed_letter_refused :
    let requests : List Request :=
      [.add (signedLetter (ring 1) 1), .remove (signedLetter (ring 2) 2),
        .add (signedLetter (ring 1) 1), .add (signedLetter (ring 1) 2),
        .add (signedLetter (ring 1) 3), .remove (signedLetter (ring 2) 3)]
    let s := requests.foldl serve (.ofCapacity 8 (.sufficient 1))
    (accepted (.ofCapacity 8 (.sufficient 1)) requests).map Entry.sequence = [1, 2, 3] ∧
      s.contains (signedLetter (ring 1) 3).hash = true ∧
      (∀ n ∈ [1, 2, 3], ∃ error, s.add (signedLetter (ring 1) n) = .error error) ∧
      (∀ n ∈ [2, 3], s.remove (signedLetter (ring 2) n) = (s, false)) ∧
      (requests.foldl serve s).feed.history = s.feed.history := by
  intro requests s
  have h := accepted_numbers_increase (.ofCapacity 8 (.sufficient 1)) requests
  refine ⟨by decide +kernel, by decide +kernel, fun n hn => h.2.2.2.1 _ ?_,
    fun n hn => h.2.2.2.2.1 _ ?_, by decide +kernel⟩
  · simp only [List.mem_cons, List.not_mem_nil, or_false] at hn
    rcases hn with rfl | rfl | rfl <;> simp [requests]
  · simp only [List.mem_cons, List.not_mem_nil, or_false] at hn
    rcases hn with rfl | rfl <;> simp [requests]

end SealedMail.Store
