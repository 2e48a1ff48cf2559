import SealedMail.Overlay.Access
import SealedMail.Proofs.Data.SortedMap

/-!
# Stores that only lose entries

`Store.Reduced s s'` says that `s'` holds nothing that `s` does not hold, and that whatever was
published in between adds nothing. Every removal through an `Access` reduces the store, and touches
one hash only.
-/

namespace SealedMail

/-! ## The feed -/

namespace Feed

variable {f : Feed} {place next : Nat} {notice : Notice}

theorem read?_cases (hopen : f.closed = false) (h : f.read? place = some (notice, next)) :
    (notice = .lagged ∧ next = f.history.length - f.capacity ∧ place < next) ∨
    ∃ c, notice = .change c ∧ f.history[place]? = some c ∧ next = place + 1 := by
  unfold read? at h
  split at h
  · next hl => cases h; exact .inl ⟨rfl, rfl, by omega⟩
  · split at h
    · next c hc => cases h; exact .inr ⟨c, rfl, hc, rfl⟩
    · simp [hopen] at h

theorem getElem?_of_read? {c : Change} (h : f.read? place = some (.change c, next)) :
    f.history[place]? = some c := by
  unfold read? at h
  split at h
  · cases h
  · split at h
    · next hc => cases h; exact hc
    · split at h <;> cases h

/-- A subscriber that is at most `capacity` changes behind reads the next change. -/
theorem read?_of_getElem? {c : Change} (hc : f.history[place]? = some c)
    (hbehind : f.history.length ≤ place + f.capacity) :
    f.read? place = some (.change c, place + 1) := by
  have hkept : ¬ f.capacity < f.history.length - place := by omega
  simp only [read?, hkept, if_false, hc]

theorem le_of_read? (h : f.read? place = some (notice, next)) : place ≤ next := by
  unfold read? at h
  split at h
  · cases h; omega
  · split at h
    · cases h; exact Nat.le_succ place
    · split at h <;> cases h
      exact Nat.le_refl place

/-- Nothing is left to read when the reader has come to the end. -/
theorem le_of_read?_eq_none (h : f.read? place = none) : f.history.length ≤ place := by
  unfold read? at h
  split at h
  · cases h
  · split at h
    · cases h
    · next hn => exact List.getElem?_eq_none_iff.1 hn

/-- A change is read by a reader that is not past it, or was dropped for a reader that is told
so. -/
theorem kept_or_lagged (f : Feed) {i : Nat} (hi : place ≤ i) (hlt : i < f.history.length) :
    f.history.length - f.capacity ≤ i ∨
      f.read? place = some (.lagged, f.history.length - f.capacity) := by
  by_cases h : f.history.length - f.capacity ≤ i
  · exact .inl h
  · exact .inr (if_pos (by omega))

end Feed

namespace Store

/-- Nothing is added between two stores. -/
structure Reduced (s s' : Store) : Prop where
  entries : ∀ hash x, s'.entries.get? hash = some x → s.entries.get? hash = some x
  sequences : ∀ hash, s.sequences.contains hash = true → s'.sequences.contains hash = true
  history : ∃ cs, s'.feed.history = s.feed.history ++ cs ∧ ∀ c ∈ cs, c.added = []
  capacity : s'.feed.capacity = s.feed.capacity
  closed : s'.feed.closed = s.feed.closed

variable {s s' s'' : Store}

/-- What is kept under a hash: the entry, and the highest number. -/
def under (s : Store) (hash : PayloadHash) : Option StoredEntry × Option UInt32 :=
  (s.entries.get? hash, s.sequences.get? hash)

theorem Reduced.refl (s : Store) : Reduced s s :=
  ⟨fun _ _ h => h, fun _ h => h, ⟨[], by simp⟩, rfl, rfl⟩

theorem Reduced.trans (h : Reduced s s') (h' : Reduced s' s'') : Reduced s s'' := by
  obtain ⟨cs, hcs, hadd⟩ := h.history
  obtain ⟨ds, hds, hadd'⟩ := h'.history
  refine ⟨fun hash x hx => h.entries hash x (h'.entries hash x hx),
    fun hash hs => h'.sequences hash (h.sequences hash hs), ⟨cs ++ ds, ?_, ?_⟩,
    h'.capacity.trans h.capacity, h'.closed.trans h.closed⟩
  · rw [hds, hcs, List.append_assoc]
  · intro c hc
    exact (List.mem_append.1 hc).elim (hadd c) (hadd' c)

theorem Reduced.mem_snapshot (h : Reduced s s') {x : StoredEntry} (hx : x ∈ s'.snapshot) :
    x ∈ s.snapshot := by
  obtain ⟨k, hk⟩ := SortedMap.mem_values_iff.1 hx
  exact SortedMap.mem_values_iff.2 ⟨k, h.entries k x hk⟩

theorem Reduced.get?_eq_none {s s' : Store} (h : s.Reduced s') {hash : PayloadHash}
    (hn : s.entries.get? hash = none) : s'.entries.get? hash = none := by
  cases hx : s'.entries.get? hash with
  | none => rfl
  | some x => exact nomatch hn.symm.trans (h.entries hash x hx)

theorem Reduced.getElem?_history (h : Reduced s s') {i : Nat} {c : Change}
    (hc : s.feed.history[i]? = some c) : s'.feed.history[i]? = some c := by
  obtain ⟨cs, hcs, -⟩ := h.history
  rw [hcs, List.getElem?_append_left (List.getElem?_eq_some_iff.1 hc).1]
  exact hc

/-- A change that adds something was published before, at the same place. -/
theorem Reduced.getElem?_of_added (h : Reduced s s') {i : Nat} {c : Change}
    (hc : s'.feed.history[i]? = some c) {x : StoredEntry} (hx : x ∈ c.added) :
    s.feed.history[i]? = some c := by
  obtain ⟨cs, hcs, hadd⟩ := h.history
  rw [hcs] at hc
  by_cases hi : i < s.feed.history.length
  · rwa [List.getElem?_append_left hi] at hc
  · rw [List.getElem?_append_right (Nat.not_lt.1 hi)] at hc
    rw [hadd c (List.mem_of_getElem? hc)] at hx
    cases hx

theorem Reduced.mem_history (h : Reduced s s') {c : Change} (hc : c ∈ s'.feed.history)
    {x : StoredEntry} (hx : x ∈ c.added) : c ∈ s.feed.history := by
  obtain ⟨i, hi⟩ := List.mem_iff_getElem?.1 hc
  exact List.mem_of_getElem? (h.getElem?_of_added hi hx)

theorem Reduced.length_history_le (h : Reduced s s') :
    s.feed.history.length ≤ s'.feed.history.length := by
  obtain ⟨cs, hcs, -⟩ := h.history
  rw [hcs, List.length_append]
  exact Nat.le_add_right _ _

variable [Suite]

theorem remove_reduced (s : Store) (e : Entry) : Reduced s (s.remove e).1 := by
  unfold remove
  split
  · exact .refl s
  · split
    · exact .refl s
    · split
      · exact ⟨fun _ _ h => h, fun _ h => by simp [h], ⟨[], by simp⟩, rfl, rfl⟩
      · next stored hs =>
        refine ⟨?_, fun _ h => by simp [h], ⟨[⟨[], [stored]⟩], rfl, by simp⟩, rfl, rfl⟩
        intro hash x hx
        simp only [SortedMap.get?_erase] at hx
        split at hx
        · cases hx
        · exact hx

/-- Only what is stored under its own hash changes. -/
theorem get?_remove_of_ne (s : Store) {e : Entry} {hash : PayloadHash} (h : hash ≠ e.hash) :
    (s.remove e).1.entries.get? hash = s.entries.get? hash ∧
      (s.remove e).1.sequences.get? hash = s.sequences.get? hash := by
  unfold remove
  split
  · exact ⟨rfl, rfl⟩
  · split
    · exact ⟨rfl, rfl⟩
    · split
      · exact ⟨rfl, by simp [SortedMap.get?_insert, h]⟩
      · exact ⟨by simp [SortedMap.get?_erase, h], by simp [SortedMap.get?_insert, h]⟩

/-- A removal that is accepted leaves its number alone. -/
theorem under_remove (s : Store) (e : Entry) : (s.remove e).1.under e.hash =
    if mayRemove e ∧ (s.under e.hash).2.getD 0 < e.sequence then (none, some e.sequence)
      else s.under e.hash := by
  unfold remove
  cases mayRemove e with
  | false => simp
  | true =>
    by_cases hlt : (s.sequences.get? e.hash).getD 0 < e.sequence
    · have hle : ¬ e.sequence ≤ (s.sequences.get? e.hash).getD 0 := UInt32.not_le.2 hlt
      cases hentry : s.entries.get? e.hash <;>
        simp [under, hlt, hle, hentry, SortedMap.get?_insert, SortedMap.get?_erase]
    · have hle : e.sequence ≤ (s.sequences.get? e.hash).getD 0 := UInt32.not_lt.1 hlt
      simp [under, hlt, hle]

end Store

namespace Access

variable [Suite]

theorem remove_eq (a : Access) (s : Store) (e : Entry) :
    (a.remove s e).1 = s ∨ (a.remove s e).1 = (s.remove e).1 ∨
      (a.remove s e).1 = { (s.remove e).1 with feed := s.feed } := by
  unfold remove
  split
  · exact .inl rfl
  · simp only [publishing]
    split
    · exact .inr (.inr rfl)
    · exact .inr (.inl rfl)

theorem remove_reduced (a : Access) (s : Store) (e : Entry) : s.Reduced (a.remove s e).1 := by
  rcases a.remove_eq s e with h | h | h
  · rw [h]; exact .refl s
  · rw [h]; exact s.remove_reduced e
  · rw [h];
      exact ⟨(s.remove_reduced e).entries, (s.remove_reduced e).sequences, ⟨[], by simp⟩, rfl, rfl⟩

theorem get?_remove_of_ne (a : Access) (s : Store) {e : Entry} {hash : PayloadHash}
    (h : hash ≠ e.hash) : (a.remove s e).1.entries.get? hash = s.entries.get? hash ∧
      (a.remove s e).1.sequences.get? hash = s.sequences.get? hash := by
  rcases a.remove_eq s e with he | he | he
  · rw [he]; exact ⟨rfl, rfl⟩
  · rw [he]; exact s.get?_remove_of_ne h
  · rw [he]; exact s.get?_remove_of_ne h

theorem under_remove (a : Access) (s : Store) (e : Entry) (hash : PayloadHash) :
    (a.remove s e).1.under hash = if a.refusesRemoval then s.under hash
      else (s.remove e).1.under hash := by
  unfold remove publishing
  split
  · rfl
  · simp only []
    split <;> rfl

omit [Suite] in
@[simp] theorem mem_snapshot {a : Access} {s : Store} {x : StoredEntry} :
    x ∈ a.snapshot s ↔ x ∈ s.snapshot := by
  unfold snapshot
  split <;> simp

end Access

end SealedMail
