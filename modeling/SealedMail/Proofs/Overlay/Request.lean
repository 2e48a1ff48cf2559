import SealedMail.Proofs.Overlay.Reduction

/-!
# Requests to the store

Whoever uses the store may add, remove, or add data of another kind (`Request`). `Store.Orderly` is
what every store has that has only served requests: mailbox entries are kept under their own hash,
each change adds at most one entry, whatever was added has a recorded number, and the feed is open.
-/

namespace SealedMail.Store

inductive Request where
  | add (e : Entry)
  | remove (e : Entry)
  | addGeneric (e : GenericEntry)
  deriving DecidableEq, Repr

variable [Suite]

/-- The store after a request, whether it was refused or not. -/
def serve (s : Store) : Request → Store
  | .add e =>
    match s.add e with
    | .ok s' => s'
    | .error _ => s
  | .remove e => (s.remove e).1
  | .addGeneric e => s.addGeneric e

omit [Suite] in
/-- A store that holds nothing, with a feed that keeps `capacity` changes. -/
def ofCapacity (capacity : Nat) (broadcast : Broadcast) : Store :=
  { feed := { capacity }, broadcast }

/-- The hash that a request is about. -/
def Request.hash : Request → PayloadHash
  | .add e => e.hash
  | .remove e => e.hash
  | .addGeneric e => e.hash

structure Orderly (s : Store) : Prop where
  keyed : ∀ hash e, s.entries.get? hash = some (.mailbox e) → e.hash = hash
  single : ∀ c ∈ s.feed.history, c.added.length ≤ 1
  opened : s.feed.closed = false
  stored : ∀ e, .mailbox e ∈ s.snapshot → s.sequences.contains e.hash = true
  published : ∀ c ∈ s.feed.history, ∀ e, .mailbox e ∈ c.added → s.sequences.contains e.hash = true

variable {s s' : Store}

theorem orderly_ofCapacity (capacity : Nat) (broadcast : Broadcast) :
    (ofCapacity capacity broadcast).Orderly where
  keyed _ _ h := nomatch h
  single _ h := absurd h List.not_mem_nil
  opened := rfl
  stored _ h := absurd h List.not_mem_nil
  published _ h := absurd h List.not_mem_nil

theorem Reduced.orderly (h : Reduced s s') (hs : s.Orderly) : s'.Orderly := by
  refine ⟨fun hash e he => hs.keyed hash e (h.entries hash _ he), ?_,
    h.closed.trans hs.opened, fun e he => h.sequences _ (hs.stored e (h.mem_snapshot he)),
    fun c hc e he => h.sequences _ (hs.published c (h.mem_history hc he) e he)⟩
  intro c hc
  cases hadd : c.added with
  | nil => exact Nat.zero_le _
  | cons x xs =>
    have hx : x ∈ c.added := hadd ▸ List.mem_cons_self
    exact hadd ▸ hs.single c (h.mem_history hc hx)

/-- What an addition that the store takes has passed, and what it does. -/
theorem add_ok {e : Entry} (h : s.add e = .ok s') :
    e.ownerKey = e.payload.senderKey ∧ e.isSigned = true ∧ s.isFresh e.hash e.sequence = true ∧
      s' = { s with
        entries := s.entries.insert e.hash (.mailbox e)
        sequences := s.sequences.insert e.hash e.sequence
        feed := s.feed.publish { added := [.mailbox e] } } := by
  unfold add at h
  split at h
  · cases h
  · next hkey =>
    split at h
    · cases h
    · next hsigned =>
      split at h
      · cases h
      · next hfresh =>
        cases h
        exact ⟨Classical.not_not.1 hkey, by simpa using hsigned, by simpa using hfresh, rfl⟩

/-- A removal takes out what is stored and publishes it, or leaves the entries and the feed as they
are. -/
theorem remove_cases (s : Store) (e : Entry) :
    ((s.remove e).2 = false ∧ (s.remove e).1.entries = s.entries ∧ (s.remove e).1.feed = s.feed) ∨
    ∃ x, (s.remove e).2 = true ∧ s.entries.get? e.hash = some x ∧
      (s.remove e).1.entries = s.entries.erase e.hash ∧
      (s.remove e).1.feed = s.feed.publish { removed := [x] } := by
  unfold remove
  split
  · exact .inl ⟨rfl, rfl, rfl⟩
  · split
    · exact .inl ⟨rfl, rfl, rfl⟩
    · split
      · exact .inl ⟨rfl, rfl, rfl⟩
      · next x hx => exact .inr ⟨x, rfl, hx, rfl, rfl⟩

/-- A request reduces the store, or one entry is added and published. -/
theorem serve_cases (s : Store) (r : Request) : s.Reduced (s.serve r) ∨
    ∃ x : StoredEntry, x.hash = r.hash ∧
      (s.serve r).entries = s.entries.insert x.hash x ∧
      (s.serve r).feed = s.feed.publish { added := [x] } ∧
      (∀ hash, s.sequences.contains hash = true → (s.serve r).sequences.contains hash = true) ∧
      ∀ e, x = .mailbox e → (s.serve r).sequences.contains e.hash = true := by
  cases r with
  | add e =>
    cases ha : s.add e with
    | error => simp only [serve, ha]; exact .inl (.refl s)
    | ok s' =>
      obtain ⟨-, -, -, rfl⟩ := add_ok ha
      simp only [serve, ha]
      refine .inr ⟨.mailbox e, rfl, rfl, rfl, fun _ h => by simp [h], ?_⟩
      intro f hf
      cases hf
      simp
  | remove e => exact .inl (s.remove_reduced e)
  | addGeneric e => exact .inr ⟨.generic e, rfl, rfl, rfl, fun _ h => h, fun _ h => by cases h⟩

theorem Orderly.serve (hs : s.Orderly) (r : Request) : (s.serve r).Orderly := by
  rcases s.serve_cases r with h | ⟨x, -, hentries, hfeed, hkept, hx⟩
  · exact h.orderly hs
  · refine ⟨?_, ?_, by rw [hfeed]; exact hs.opened, ?_, ?_⟩
    · intro hash e he
      rw [hentries, SortedMap.get?_insert] at he
      split at he
      · next hh => cases he; exact hh.symm
      · exact hs.keyed hash e he
    · intro c hc
      rw [hfeed] at hc
      rcases List.mem_append.1 hc with hc | hc
      · exact hs.single c hc
      · rw [List.mem_singleton.1 hc]
        exact Nat.le_refl _
    · intro e he
      obtain ⟨k, hk⟩ := SortedMap.mem_values_iff.1 he
      rw [hentries, SortedMap.get?_insert] at hk
      split at hk
      · cases hk
        exact hx e rfl
      · exact hkept _ (hs.stored e (SortedMap.mem_values_iff.2 ⟨k, hk⟩))
    · intro c hc e he
      rw [hfeed] at hc
      rcases List.mem_append.1 hc with hc | hc
      · exact hkept _ (hs.published c hc e he)
      · rw [List.mem_singleton.1 hc] at he
        exact hx e (List.mem_singleton.1 he).symm

theorem orderly_foldl_serve (hs : s.Orderly) (requests : List Request) :
    (requests.foldl serve s).Orderly := by
  induction requests generalizing s with
  | nil => exact hs
  | cons r requests ih => exact ih (hs.serve r)

theorem Orderly.eq_of_hash (hs : s.Orderly) {e f : Entry} (he : .mailbox e ∈ s.snapshot)
    (hf : .mailbox f ∈ s.snapshot) (h : f.hash = e.hash) : f = e := by
  obtain ⟨k, hk⟩ := SortedMap.mem_values_iff.1 he
  obtain ⟨l, hl⟩ := SortedMap.mem_values_iff.1 hf
  have hkl : l = k := by rw [← hs.keyed k e hk, ← hs.keyed l f hl, h]
  rw [hkl, hk] at hl
  cases hl
  rfl

theorem get?_serve_of_ne (s : Store) {r : Request} {hash : PayloadHash} (h : hash ≠ r.hash) :
    (s.serve r).entries.get? hash = s.entries.get? hash ∧
      (s.serve r).sequences.get? hash = s.sequences.get? hash := by
  cases r with
  | add e =>
    cases ha : s.add e with
    | error => simp only [serve, ha, and_self]
    | ok s' =>
      obtain ⟨-, -, -, rfl⟩ := add_ok ha
      have hne : hash ≠ e.hash := h
      simp only [serve, ha, SortedMap.get?_insert, hne, if_false, and_self]
  | remove e => exact s.get?_remove_of_ne h
  | addGeneric e =>
    have hne : hash ≠ e.hash := h
    simp only [serve, addGeneric, SortedMap.get?_insert, hne, if_false, and_self]

end SealedMail.Store
