import SealedMail.Proofs.Mailbox.Index

/-!
# Indexes that are edited

An index is read from a list and then edited: items are inserted, and all items under a uid are
dropped. Whatever the list and whatever the edits, what it keeps beside its items is what the items
say (`edited_index_faithful`), so insertion, removal and the first messages can be read off the
items alone.
-/

namespace SealedMail.Index

/-! ## First items -/

/-- One item for each uid, the first, in the order in which the uids come. -/
theorem map_some_firstPerUid (seen : List String) (items : List Item) :
    (firstPerUid seen items).map some =
    ((items.map Item.uid).filter (· ∉ seen)).eraseDups.map fun uid => items.find? fun item =>
      item.uid = uid := by
  induction items generalizing seen with
  | nil => rfl
  | cons item items ih =>
    -- the first items of other uids come later
    have later {uids : List String} (h : item.uid ∉ uids) :
        (uids.map fun uid => (item :: items).find? fun other => other.uid = uid) =
          uids.map fun uid => items.find? fun other => other.uid = uid := by
      refine List.map_congr_left fun uid hu => List.find?_cons_of_neg ?_
      rw [decide_eq_true_eq]
      exact fun he => h (he ▸ hu)
    rw [firstPerUid, List.map_cons]
    split
    · next hs =>
      rw [List.filter_cons_of_neg (by simpa using hs), later (by simp [hs]), ih]
    · next hs =>
      have hrest : (((items.map Item.uid).filter (· ∉ seen)).filter fun uid => !uid == item.uid) =
          (items.map Item.uid).filter (· ∉ item.uid :: seen) := by
        rw [List.filter_filter]
        refine List.filter_congr fun uid _ => ?_
        by_cases hu : uid = item.uid <;> simp [hu]
      have hfirst : ((item :: items).find? fun other => other.uid = item.uid) = some item :=
        List.find?_cons_of_pos (by simp)
      rw [List.filter_cons_of_pos (by simpa using hs), List.eraseDups_cons, hrest, List.map_cons,
        List.map_cons, hfirst, later (by simp), ih]

theorem map_some_firstMessages (x : Index) : x.firstMessages.map some =
    (x.items.map Item.uid).eraseDups.map fun uid => (x.filed uid).head?.map Item.opened := by
  have hall : (x.items.map Item.uid).filter (· ∉ ([] : List String)) = x.items.map Item.uid :=
    List.filter_eq_self.2 fun _ _ => by simp
  have hfirst := congrArg (List.map (Option.map Item.opened)) (map_some_firstPerUid [] x.items)
  rw [hall, List.map_map, List.map_map] at hfirst
  simp only [filed, List.head?_filter]
  rw [firstMessages, List.map_map]
  exact hfirst

/-! ## Edits -/

variable [Suite]

/-- What is done to an index. -/
inductive Edit where
  | insert (item : Item)
  | removeUid (uid : String)

def edit (x : Index) : Edit → Index
  | .insert item => (x.add item).1
  | .removeUid uid => (x.removeUid uid).1

theorem Valid.edit {x : Index} (hx : x.Valid) (e : Edit) : (x.edit e).Valid := by
  cases e with
  | insert item => exact hx.insert item
  | removeUid uid => exact hx.removeUid uid

theorem Valid.foldl_edit {x : Index} (hx : x.Valid) (edits : List Edit) :
    (edits.foldl Index.edit x).Valid := by
  induction edits generalizing x with
  | nil => exact hx
  | cons e edits ih => exact ih (hx.edit e)

theorem added_iff {x : Index} (hx : x.Valid) (item : Item) :
    (x.add item).2 = true ↔ ∀ listed ∈ x.items, listed.hash ≠ item.hash := by
  rw [add, Bool.not_eq_true', Bool.eq_false_iff, ne_eq, hx.contains_iff]
  simp

theorem items_add (x : Index) (item : Item) :
    (x.add item).1.items = if (x.add item).2 then x.items ++ [item] else x.items := by
  unfold add
  cases h : x.contains item.hash with
  | true => rw [insert_of_contains h]; rfl
  | false => rw [items_insert h]; rfl

/-- Whatever list an index is read from and however it is edited then: it lists no payload twice,
and holds the hashes of what it lists; the items it keeps under a uid are those that it lists, in
order, and nothing is kept where there are none. So insertion appends an item exactly if none that
is listed has its hash, removal returns the listed items of the uid in order and leaves the others
in order, and the first messages are one for each uid, that of the first item, in the order in which
the uids came. -/
theorem edited_index_faithful (items : List Item) (now : Timestamp) (ttl : UInt64)
    (edits : List Edit) :
    let x := edits.foldl edit (ofList items now ttl)
    ((x.items.map Item.hash).Nodup ∧ ∀ hash, x.contains hash = true ↔
      hash ∈ x.items.map Item.hash) ∧
    (∀ uid, x.byUid.get? uid = if x.filed uid = [] then none else some (x.filed uid)) ∧
    (∀ item, ((x.add item).2 = true ↔ ∀ listed ∈ x.items, listed.hash ≠ item.hash) ∧
      (x.add item).1.items = if (x.add item).2 then x.items ++ [item] else x.items) ∧
    (∀ uid, (x.removeUid uid).2 = x.filed uid ∧
      (x.removeUid uid).1.items = x.items.filter fun item => item.uid ≠ uid) ∧
    x.firstMessages.map some =
      (x.items.map Item.uid).eraseDups.map fun uid => (x.filed uid).head?.map Item.opened := by
  intro x
  have hx : x.Valid := (valid_ofList items now ttl).foldl_edit edits
  refine ⟨⟨hx.nodup, fun hash => ?_⟩, hx.byUid, fun item => ⟨added_iff hx item, items_add x item⟩,
    fun uid => ⟨removeUid_snd hx uid, items_removeUid hx uid⟩, map_some_firstMessages x⟩
  rw [hx.contains_iff, List.mem_map]

end SealedMail.Index
