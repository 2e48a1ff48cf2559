import SealedMail.Proofs.Mailbox.Withdrawal
import SealedMail.Proofs.Overlay.Minting

/-!
# What can be withdrawn

A mailbox that withdraws an entry asks the store to drop it, signed with its own key. `Withdrawable`
says when the store does so.
-/

namespace SealedMail.Mailbox

variable [Suite] {setup : Setup} {env : Surroundings} {s : Store} {e : Entry} {item : Item}
  {items : List Item}

/-- The store drops an entry that it holds if the mailbox asks for it. -/
structure Withdrawable (setup : Setup) (env : Surroundings) (s : Store) (e : Entry) : Prop where
  addressed : env.address.isSome = true
  signed : env.access.signingFails e.payload = false
  heeded : env.access.refusesRemoval = false
  entitled : setup.ring.signatureKey = e.payload.ownerKey ∨
    setup.ring.signatureKey = e.payload.senderKey
  numbered : ¬ s.Exhausted e.hash

instance (setup : Setup) (env : Surroundings) (s : Store) (e : Entry) :
    Decidable (Withdrawable setup env s e) :=
  decidable_of_iff
    (env.address.isSome = true ∧ env.access.signingFails e.payload = false ∧
      env.access.refusesRemoval = false ∧
      (setup.ring.signatureKey = e.payload.ownerKey ∨
        setup.ring.signatureKey = e.payload.senderKey) ∧
        ¬ s.Exhausted e.hash)
    ⟨fun h => ⟨h.1, h.2.1, h.2.2.1, h.2.2.2.1, h.2.2.2.2⟩,
      fun h => ⟨h.addressed, h.signed, h.heeded, h.entitled, h.numbered⟩⟩

theorem contains_access_remove (a : Access) (s : Store) (e : Entry) (hash : PayloadHash) :
    (a.remove s e).1.contains hash = if a.refusesRemoval then s.contains hash
      else (s.remove e).1.contains hash :=
  let isStored (kept : Option StoredEntry × Option UInt32) : Bool := kept.1.isSome
  (congrArg isStored (a.under_remove s e hash)).trans (apply_ite isStored _ _ _)

/-- The entry is still stored after a withdrawal if it was and is not withdrawable. -/
theorem contains_withdraw_iff
    (hring : ∀ message, setup.ring.signatureKey.verifies message (setup.ring.sign message) = true) :
    (withdraw setup env s e).contains e.hash = true ↔
      s.contains e.hash = true ∧ ¬ Withdrawable setup env s e := by
  by_cases hcalled : s.contains e.hash = true ∧ env.address.isSome = true
  · obtain ⟨hstored, haddress⟩ := hcalled
    rw [withdraw, if_pos ⟨hstored, haddress⟩]
    cases hsigning : env.access.signingFails e.payload with
    | true =>
      have hnot : ¬ Withdrawable setup env s e := fun h =>
        absurd (h.signed.symm.trans hsigning) Bool.false_ne_true
      simp [Access.mint, hsigning, hstored, hnot]
    | false =>
      simp only [Access.mint, hsigning, Bool.false_eq_true, if_false, contains_access_remove]
      cases hheeded : env.access.refusesRemoval with
      | true =>
        have hnot : ¬ Withdrawable setup env s e := fun h =>
          absurd (h.heeded.symm.trans hheeded) Bool.false_ne_true
        simp [hstored, hnot]
      | false =>
        have hiff : Withdrawable setup env s e ↔ (setup.ring.signatureKey = e.payload.ownerKey ∨
            setup.ring.signatureKey = e.payload.senderKey) ∧ ¬ s.Exhausted e.hash :=
          ⟨fun h => ⟨h.entitled, h.numbered⟩, fun h => ⟨haddress, hsigning, hheeded, h.1, h.2⟩⟩
        have hgone :
            (s.remove (s.mint e.payload setup.ring e.receiverKey env.now)).1.contains e.hash =
              false ↔
            Withdrawable setup env s e := (Store.gone_mint_iff hring hstored).trans hiff.symm
        rw [and_iff_right hstored]
        exact (Iff.of_eq (Bool.not_eq_false _).symm).trans (not_congr hgone)
  · have hwithdraw : withdraw setup env s e = s := if_neg hcalled
    rw [hwithdraw]
    exact ⟨fun hstored => ⟨hstored, fun h => hcalled ⟨hstored, h.addressed⟩⟩, And.left⟩

/-- The entry of an item is still stored if it was and is not withdrawable, whatever is withdrawn
with it. -/
theorem contains_withdrawItems_iff
    (hring : ∀ message, setup.ring.signatureKey.verifies message (setup.ring.sign message) = true)
    (hn : (items.map Item.hash).Nodup) (hi : item ∈ items) :
    (withdrawItems setup env s items).contains item.hash = true ↔
      s.contains item.hash = true ∧ ¬ Withdrawable setup env s item.entry := by
  refine Iff.trans (Iff.of_eq ?_) (contains_withdraw_iff hring)
  exact congrArg (·.1.isSome = true) (under_withdrawItems_of_mem setup env s hn hi)

end SealedMail.Mailbox
