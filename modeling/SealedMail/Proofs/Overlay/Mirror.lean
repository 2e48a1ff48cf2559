import SealedMail.Proofs.Overlay.Acceptance

/-!
# Mirrors of the store

The feed tells all about the entries of a store, and nothing about the recorded numbers. A request
publishes one change with one entry, or nothing if it is refused or finds nothing to remove
(`Store.published`). So whoever has the snapshot of a store and carries out the changes that are
published from then on holds what the store holds.
-/

namespace SealedMail

variable [Suite]

/-- Entries after a change: what it adds is put under its hash, and what it removes is taken out. -/
def Change.carryOut (entries : SortedMap PayloadHash StoredEntry) (c : Change) :
    SortedMap PayloadHash StoredEntry :=
  c.removed.foldl (fun entries x => entries.erase x.hash)
    (c.added.foldl (fun entries x => entries.insert x.hash x) entries)

namespace Store

/-- What a reader holds that was given a snapshot and has carried out some changes. -/
def mirror (snapshot : List StoredEntry) (changes : List Change) :
    SortedMap PayloadHash StoredEntry :=
  changes.foldl Change.carryOut (.ofList (snapshot.map fun x => (x.hash, x)))

/-- What is published with a request. -/
def published (s : Store) : Request → List Change
  | .add e => if (s.add e).isOk then [{ added := [.mailbox e] }] else []
  | .remove e => if (s.remove e).2 then [{ removed := (s.entries.get? e.hash).toList }] else []
  | .addGeneric e => [{ added := [.generic e] }]

/-- Every entry is kept under its own hash. -/
def Keyed (s : Store) : Prop := ∀ hash x, s.entries.get? hash = some x → x.hash = hash

variable {s : Store} {r : Request} {e : Entry}

/-! ## One request -/

theorem feed_serve (s : Store) (r : Request) :
    (s.serve r).feed = { s.feed with history := s.feed.history ++ s.published r } := by
  cases r with
  | add e =>
    cases ha : s.add e with
    | error error => simp [serve, published, ha, Except.isOk, Except.toBool]
    | ok s' =>
      obtain ⟨-, -, -, rfl⟩ := add_ok ha
      simp [serve, published, ha, Except.isOk, Except.toBool, Feed.publish]
  | remove e =>
    rcases s.remove_cases e with ⟨hremoved, -, hfeed⟩ | ⟨x, hremoved, hx, -, hfeed⟩
    · simp [serve, published, hremoved, hfeed]
    · simp [serve, published, hremoved, hx, hfeed, Feed.publish]
  | addGeneric e => rfl

theorem single_of_mem_published {c : Change} (h : c ∈ s.published r) :
    c.added.length + c.removed.length = 1 := by
  cases r with
  | add e =>
    simp only [published] at h
    split at h
    · rw [List.mem_singleton.1 h]; rfl
    · cases h
  | remove e =>
    simp only [published] at h
    split at h
    · next hremoved =>
      rcases s.remove_cases e with ⟨hkept, -⟩ | ⟨x, -, hx, -⟩
      · exact absurd (hkept.symm.trans hremoved) Bool.false_ne_true
      · rw [List.mem_singleton.1 h, hx]; rfl
    · cases h
  | addGeneric e => rw [List.mem_singleton.1 h]; rfl

theorem Keyed.serve (hs : s.Keyed) (r : Request) : (s.serve r).Keyed := by
  intro hash x hx
  rcases s.serve_cases r with h | ⟨y, -, hentries, -⟩
  · exact hs hash x (h.entries hash x hx)
  · rw [hentries, SortedMap.get?_insert] at hx
    split at hx
    · next hh => cases hx; exact hh.symm
    · exact hs hash x hx

/-- What is published with a request is what it does to the entries. -/
theorem carryOut_published (hs : s.Keyed) (r : Request) :
    (s.published r).foldl Change.carryOut s.entries = (s.serve r).entries := by
  cases r with
  | add e =>
    cases ha : s.add e with
    | error error => simp [serve, published, ha, Except.isOk, Except.toBool]
    | ok s' =>
      obtain ⟨-, -, -, rfl⟩ := add_ok ha
      simp [serve, published, ha, Except.isOk, Except.toBool, Change.carryOut, StoredEntry.hash]
  | remove e =>
    rcases s.remove_cases e with ⟨hremoved, hentries, -⟩ | ⟨x, hremoved, hx, hentries, -⟩
    · simp [serve, published, hremoved, hentries]
    · simp [serve, published, hremoved, hx, hentries, Change.carryOut, hs _ x hx]
  | addGeneric e => rfl

/-! ## Many requests -/

/-- What is published with some requests, in order. -/
def changes (s : Store) : List Request → List Change
  | [] => []
  | r :: requests => s.published r ++ (s.serve r).changes requests

theorem keyed_ofCapacity (capacity : Nat) (broadcast : Broadcast) :
    (ofCapacity capacity broadcast).Keyed :=
  fun _ _ h => nomatch h

theorem Keyed.foldl_serve (hs : s.Keyed) (requests : List Request) :
    (requests.foldl Store.serve s).Keyed := by
  induction requests generalizing s with
  | nil => exact hs
  | cons r requests ih => exact ih (hs.serve r)

theorem feed_foldl_serve (s : Store) (requests : List Request) :
    (requests.foldl serve s).feed =
      { s.feed with history := s.feed.history ++ s.changes requests } := by
  induction requests generalizing s with
  | nil => simp [changes]
  | cons r requests ih => rw [List.foldl_cons, ih, feed_serve, changes, List.append_assoc]

theorem single_of_mem_changes {requests : List Request} {c : Change} (h : c ∈ s.changes requests) :
    c.added.length + c.removed.length = 1 := by
  induction requests generalizing s with
  | nil => cases h
  | cons r requests ih =>
    rcases List.mem_append.1 h with h | h
    · exact single_of_mem_published h
    · exact ih h

theorem carryOut_changes (hs : s.Keyed) (requests : List Request) :
    (s.changes requests).foldl Change.carryOut s.entries = (requests.foldl serve s).entries := by
  induction requests generalizing s with
  | nil => rfl
  | cons r requests ih =>
    rw [changes, List.foldl_append, carryOut_published hs, List.foldl_cons, ih (hs.serve r)]

theorem mirror_snapshot (hs : s.Keyed) : mirror s.snapshot [] = s.entries := by
  have hentries : s.snapshot.map (fun x => (x.hash, x)) = s.entries.entries := by
    rw [snapshot, SortedMap.values, List.map_map]
    refine (List.map_congr_left fun binding hmem => ?_).trans (List.map_id _)
    have hhash : binding.2.hash = binding.1 :=
      hs binding.1 binding.2 ((SortedMap.find_eq_some_iff s.entries.sorted).2 hmem)
    exact Prod.ext hhash rfl
  rw [mirror, List.foldl_nil, hentries, SortedMap.ofList_entries]

/-- Someone subscribes to a store that has served some requests, takes its snapshot, and carries out
every change that is published from then on. After each request, refused or not, their entries are
those of the store. Every change that is published has one entry, added or removed, and a request
that is refused publishes nothing. A subscriber that is at most `capacity` changes behind reads them
one by one. -/
theorem mirror_follows_store (capacity : Nat) (broadcast : Broadcast)
    (before requests : List Request) :
    let s := before.foldl serve (.ofCapacity capacity broadcast)
    let s' := requests.foldl serve s
    let changes := s'.feed.history.drop s.feed.position
    s'.feed.history = s.feed.history ++ changes ∧
    mirror s.snapshot changes = s'.entries ∧
    (mirror s.snapshot changes).values = s'.snapshot ∧
    (∀ c ∈ changes, c.added.length + c.removed.length = 1) ∧
    (∀ e error, s'.add e = .error error → (s'.serve (.add e)).feed = s'.feed) ∧
    (∀ e, (s'.remove e).2 = false → (s'.remove e).1.feed = s'.feed) ∧
    ∀ i c, changes[i]? = some c → changes.length ≤ i + capacity →
      s'.feed.read? (s.feed.position + i) = some (.change c, s.feed.position + i + 1) := by
  intro s s' changes
  have hs : s.Keyed := (keyed_ofCapacity capacity broadcast).foldl_serve before
  have hfeed : s'.feed = { s.feed with history := s.feed.history ++ s.changes requests } :=
    s.feed_foldl_serve requests
  have hhistory : s'.feed.history = s.feed.history ++ s.changes requests :=
    congrArg Feed.history hfeed
  have hchanges : changes = s.changes requests := by
    simp only [changes, hhistory, Feed.position, List.drop_left]
  have hmirror : mirror s.snapshot changes = s'.entries :=
    calc mirror s.snapshot changes
      _ = (s.changes requests).foldl Change.carryOut (mirror s.snapshot []) := by rw [hchanges]; rfl
      _ = (s.changes requests).foldl Change.carryOut s.entries := by rw [mirror_snapshot hs]
      _ = s'.entries := carryOut_changes hs requests
  refine ⟨by rw [hchanges, hhistory], hmirror, by rw [hmirror]; rfl, ?_, ?_, ?_, ?_⟩
  · intro c hc
    rw [hchanges] at hc
    exact single_of_mem_changes hc
  · intro e error he
    simp only [serve, he]
  · intro e he
    rcases s'.remove_cases e with ⟨-, -, hkept⟩ | ⟨x, hremoved, -⟩
    · exact hkept
    · exact absurd (he.symm.trans hremoved) Bool.false_ne_true
  · intro i c hc hbehind
    have hcapacity : s'.feed.capacity = capacity := by
      rw [hfeed]
      exact congrArg Feed.capacity (feed_foldl_serve _ before)
    have hplace : s'.feed.history[s.feed.position + i]? = some c := by
      rw [hhistory, ← hchanges, Feed.position, List.getElem?_append_right (Nat.le_add_right _ i),
        Nat.add_sub_cancel_left]
      exact hc
    refine Feed.read?_of_getElem? hplace ?_
    rw [hhistory, ← hchanges, List.length_append, hcapacity, Feed.position]
    omega

end Store

end SealedMail

namespace SealedMail.Store

attribute [local instance] Suite.transparent

open Transparent

/-- Somebody subscribes to a store with one letter. Other data is added, the letter replaced, its
removal asked for by a third ring, and then by the receiver, twice; between these requests the first
letter is sent again. The three changes that this makes are enough to follow the store. -/
theorem busy_store_mirrored :
    let other : GenericEntry := ⟨.replicate 32 0, [1, 2], ⟨0⟩⟩
    let requests : List Request :=
      [.add (signedLetter (ring 1) 1), .addGeneric other, .add (signedLetter (ring 1) 2),
        .remove (signedLetter (ring 3) 3), .remove (signedLetter (ring 2) 3),
        .add (signedLetter (ring 1) 1), .remove (signedLetter (ring 2) 4)]
    let before : List Request := [.add (signedLetter (ring 1) 1)]
    let s := before.foldl serve (.ofCapacity 8 (.sufficient 1))
    let s' := requests.foldl serve s
    let changes := s'.feed.history.drop s.feed.position
    s.snapshot = [.mailbox (signedLetter (ring 1) 1)] ∧
      changes = [{ added := [.generic other] }, { added := [.mailbox (signedLetter (ring 1) 2)] },
        { removed := [.mailbox (signedLetter (ring 1) 2)] }] ∧
      mirror s.snapshot changes = s'.entries ∧ s'.snapshot = [.generic other] := by
  refine ⟨by decide +kernel, by decide +kernel, ?_, by decide +kernel⟩
  exact (mirror_follows_store 8 (.sufficient 1) [.add (signedLetter (ring 1) 1)] _).2.1

end SealedMail.Store
