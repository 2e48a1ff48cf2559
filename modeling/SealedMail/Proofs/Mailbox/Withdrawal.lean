import SealedMail.Mailbox.Loop
import SealedMail.Proofs.Overlay.Reduction

/-!
# Withdrawal from the store

The store after a mailbox has asked it to drop entries (`withdraw`, `withdrawItems`), apart from
what the mailbox logs of it. Withdrawal reduces the store, under the hashes of the entries only, and
what is withdrawn together does not matter: each entry is dropped or stays as if it were the only
one.
-/

namespace SealedMail.Mailbox

variable [Suite]

/-- The store after a mailbox has asked it to drop an entry. -/
def withdraw (setup : Setup) (env : Surroundings) (s : Store) (e : Entry) : Store :=
  if s.contains e.hash ∧ env.address.isSome then
    match env.access.mint s e.payload setup.ring e.receiverKey env.now with
    | .ok removal => (env.access.remove s removal).1
    | .error _ => s
  else s

theorem withdraw_eq (setup : Setup) (env : Surroundings) (s : Store) (e : Entry) :
    withdraw setup env s e = s ∨ ∃ removal : Entry, removal.hash = e.hash ∧
      withdraw setup env s e = (env.access.remove s removal).1 := by
  unfold withdraw
  split
  · cases hm : env.access.mint s e.payload setup.ring e.receiverKey env.now with
    | error => exact .inl rfl
    | ok removal =>
      refine .inr ⟨removal, ?_, rfl⟩
      unfold Access.mint at hm
      split at hm
      · cases hm
      · cases hm; rfl
  · exact .inl rfl

theorem withdraw_reduced (setup : Setup) (env : Surroundings) (s : Store) (e : Entry) :
    s.Reduced (withdraw setup env s e) := by
  rcases withdraw_eq setup env s e with h | ⟨removal, -, h⟩
  · rw [h]; exact .refl s
  · rw [h]; exact env.access.remove_reduced s removal

theorem get?_withdraw_of_ne (setup : Setup) (env : Surroundings) (s : Store) {e : Entry}
    {hash : PayloadHash} (h : hash ≠ e.hash) :
    (withdraw setup env s e).entries.get? hash = s.entries.get? hash ∧
      (withdraw setup env s e).sequences.get? hash = s.sequences.get? hash := by
  rcases withdraw_eq setup env s e with hw | ⟨removal, hr, hw⟩
  · rw [hw]; exact ⟨rfl, rfl⟩
  · rw [hw]; exact env.access.get?_remove_of_ne s (hr ▸ h)

/-- Of the store only what is kept under the hash of the entry matters. -/
theorem under_withdraw_congr {setup : Setup} {env : Surroundings} {s s' : Store} {e : Entry}
    (h : s.under e.hash = s'.under e.hash) :
    (withdraw setup env s e).under e.hash = (withdraw setup env s' e).under e.hash := by
  have hcontains : s.contains e.hash = s'.contains e.hash := congrArg (·.1.isSome) h
  have hsequence : s.sequences.get? e.payload.hash = s'.sequences.get? e.payload.hash :=
    congrArg Prod.snd h
  have hmint :
      s.mint e.payload setup.ring e.receiverKey env.now =
        s'.mint e.payload setup.ring e.receiverKey env.now := by
    simp only [Store.mint, Store.nextSequence, hsequence]
  unfold withdraw Access.mint
  rw [hcontains, hmint]
  generalize hr : s'.mint e.payload setup.ring e.receiverKey env.now = removal
  have hhash : removal.hash = e.hash := by rw [← hr]; rfl
  by_cases hc : s'.contains e.hash = true ∧ env.address.isSome = true
  · rw [if_pos hc, if_pos hc]
    cases env.access.signingFails e.payload with
    | true => exact h
    | false =>
      simp only [Bool.false_eq_true, if_false]
      rw [← hhash, Access.under_remove, Access.under_remove, Store.under_remove,
        Store.under_remove, hhash, h]
  · rw [if_neg hc, if_neg hc]
    exact h

theorem removeFromStore_ok {setup : Setup} {env : Surroundings} {m m' : Mailbox} {e : Entry}
    (h : removeFromStore setup env m e = .ok m') : ∃ removals : List Entry,
      m' = { m with store := withdraw setup env m.store e }.logging (removals.map .removed) := by
  unfold removeFromStore at h
  split at h
  · next hc =>
    cases h
    refine ⟨[], ?_⟩
    have : m.store.contains e.hash = false := by simpa using hc
    simp [withdraw, this, logging]
  · split at h
    · next ha =>
      cases h
      refine ⟨[], ?_⟩
      have : env.address.isSome = false := by simpa using ha
      simp [withdraw, this, logging]
    · next hc ha =>
      have hs : m.store.contains e.hash = true ∧ env.address.isSome = true := by
        simp only [Bool.not_eq_true, Bool.not_eq_false'] at hc
        refine ⟨by simpa using hc, ?_⟩
        cases hadr : env.address <;> simp_all
      cases hm : env.access.mint m.store e.payload setup.ring e.receiverKey env.now with
      | error error => rw [hm] at h; cases h
      | ok removal =>
        rw [hm] at h
        cases h
        exact ⟨[removal], by rw [withdraw, if_pos hs, hm]; rfl⟩

theorem withdraw_of_error {setup : Setup} {env : Surroundings} {m : Mailbox} {e : Entry}
    {error : CryptoError} (h : removeFromStore setup env m e = .error error) :
    withdraw setup env m.store e = m.store := by
  unfold removeFromStore at h
  split at h
  · cases h
  · split at h
    · cases h
    · cases hm : env.access.mint m.store e.payload setup.ring e.receiverKey env.now with
      | error error => simp [withdraw, hm]
      | ok removal => rw [hm] at h; cases h

/-- The store after a mailbox has asked it to drop the entries of some items. -/
def withdrawItems (setup : Setup) (env : Surroundings) (s : Store) (items : List Item) : Store :=
  items.foldl (fun s item => withdraw setup env s item.entry) s

theorem withdrawItems_reduced (setup : Setup) (env : Surroundings) (s : Store) (items : List Item) :
    s.Reduced (withdrawItems setup env s items) := by
  induction items generalizing s with
  | nil => exact .refl s
  | cons item items ih => exact (withdraw_reduced setup env s item.entry).trans (ih _)

theorem get?_withdrawItems_of_ne (setup : Setup) (env : Surroundings) (s : Store)
    {items : List Item} {hash : PayloadHash} (h : ∀ item ∈ items, item.hash ≠ hash) :
    (withdrawItems setup env s items).entries.get? hash = s.entries.get? hash ∧
      (withdrawItems setup env s items).sequences.get? hash = s.sequences.get? hash := by
  induction items generalizing s with
  | nil => exact ⟨rfl, rfl⟩
  | cons item items ih =>
    obtain ⟨hi, h⟩ := List.forall_mem_cons.1 h
    obtain ⟨h1, h2⟩ := get?_withdraw_of_ne setup env s (Ne.symm hi)
    obtain ⟨h3, h4⟩ := ih (withdraw setup env s item.entry) h
    exact ⟨h3.trans h1, h4.trans h2⟩

theorem under_withdrawItems_of_ne (setup : Setup) (env : Surroundings) (s : Store)
    {items : List Item} {hash : PayloadHash} (h : ∀ item ∈ items, item.hash ≠ hash) :
    (withdrawItems setup env s items).under hash = s.under hash :=
  Prod.ext (get?_withdrawItems_of_ne setup env s h).1 (get?_withdrawItems_of_ne setup env s h).2

/-- What a mailbox withdraws for an item is not touched by what it withdraws for others. -/
theorem under_withdrawItems_of_mem (setup : Setup) (env : Surroundings) (s : Store)
    {items : List Item} {item : Item} (hn : (items.map Item.hash).Nodup) (hi : item ∈ items) :
    (withdrawItems setup env s items).under item.hash =
      (withdraw setup env s item.entry).under item.hash := by
  obtain ⟨before, after, rfl⟩ := List.append_of_mem hi
  rw [List.map_append, List.map_cons, List.nodup_append, List.nodup_cons] at hn
  have hbefore : ∀ other ∈ before, other.hash ≠ item.hash := fun other ho =>
    hn.2.2 _ (List.mem_map_of_mem ho) _ List.mem_cons_self
  have hafter : ∀ other ∈ after, other.hash ≠ item.hash := fun other ho he =>
    hn.2.1.1 (he ▸ List.mem_map_of_mem ho)
  have hsplit : withdrawItems setup env s (before ++ item :: after) =
      withdrawItems setup env (withdraw setup env (withdrawItems setup env s before) item.entry)
          after := by
    rw [withdrawItems, List.foldl_append, List.foldl_cons]
    rfl
  rw [hsplit, under_withdrawItems_of_ne setup env _ hafter]
  exact under_withdraw_congr (under_withdrawItems_of_ne setup env s hbefore)

/-- The order in which items are withdrawn does not matter. -/
theorem under_withdrawItems_perm (setup : Setup) (env : Surroundings) (s : Store)
    {items items' : List Item} (hn : (items.map Item.hash).Nodup) (h : items.Perm items')
    (hash : PayloadHash) :
    (withdrawItems setup env s items).under hash =
      (withdrawItems setup env s items').under hash := by
  by_cases hm : ∃ item ∈ items, item.hash = hash
  · obtain ⟨item, hi, rfl⟩ := hm
    rw [under_withdrawItems_of_mem setup env s hn hi,
      under_withdrawItems_of_mem setup env s ((h.map Item.hash).nodup hn) (h.mem_iff.1 hi)]
  · have hne : ∀ item ∈ items, item.hash ≠ hash := fun item hi he => hm ⟨item, hi, he⟩
    rw [under_withdrawItems_of_ne setup env s hne,
      under_withdrawItems_of_ne setup env s fun item hi => hne item (h.mem_iff.2 hi)]

/-- What a mailbox withdraws for items that it has indexed: nothing before it is bootstrapped. -/
def withdrawAll (setup : Setup) (env : Surroundings) (bootstrapped : Bool) (s : Store)
    (items : List Item) : Store :=
  if bootstrapped then withdrawItems setup env s items else s

@[simp] theorem withdrawAll_nil (setup : Setup) (env : Surroundings) (bootstrapped : Bool)
    (s : Store) : withdrawAll setup env bootstrapped s [] = s := by
  cases bootstrapped <;> rfl

theorem withdrawAll_append (setup : Setup) (env : Surroundings) (bootstrapped : Bool) (s : Store)
    (items more : List Item) :
    withdrawAll setup env bootstrapped s (items ++ more) =
      withdrawAll setup env bootstrapped (withdrawAll setup env bootstrapped s items) more := by
  cases bootstrapped <;> simp [withdrawAll, withdrawItems]

theorem withdrawAll_reduced (setup : Setup) (env : Surroundings) (bootstrapped : Bool) (s : Store)
    (items : List Item) : s.Reduced (withdrawAll setup env bootstrapped s items) := by
  unfold withdrawAll
  split
  · exact withdrawItems_reduced setup env s items
  · exact .refl s

end SealedMail.Mailbox
