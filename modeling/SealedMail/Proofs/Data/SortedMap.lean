import SealedMail.Data.SortedMap

/-!
# Membership in sorted maps

What insertion, removal and filters do to membership, and how the listed keys and values relate to
look-ups.
-/

namespace SealedMail.SortedMap

variable {κ ν : Type}

theorem find_eq_none_iff [DecidableEq κ] {k : κ} {es : List (κ × ν)} :
    find k es = none ↔ ∀ e ∈ es, e.1 ≠ k := by
  induction es with
  | nil => simp [find]
  | cons e es ih =>
    rw [List.forall_mem_cons, ← ih]
    by_cases h : e.1 = k <;> simp [find, h]

variable [LT κ] [DecidableEq κ]

@[simp] theorem get?_empty (k : κ) : ({} : SortedMap κ ν).get? k = none := rfl

@[simp] theorem contains_empty (k : κ) : ({} : SortedMap κ ν).contains k = false := rfl

theorem contains_iff {m : SortedMap κ ν} {k : κ} : m.contains k = true ↔ ∃ v, m.get? k = some v :=
  Option.isSome_iff_exists

theorem get?_eq_none_iff {m : SortedMap κ ν} {k : κ} : m.get? k = none ↔ m.contains k = false := by
  rw [contains, Option.isSome_eq_false_iff, Option.isNone_iff_eq_none]

@[simp] theorem contains_erase (m : SortedMap κ ν) (k k' : κ) :
    (m.erase k).contains k' = (decide (k' ≠ k) && m.contains k') := by
  unfold contains
  rw [get?_erase]
  by_cases h : k' = k <;> simp [h]

/-- A key is listed when something is bound to it. -/
theorem mem_keys_iff {m : SortedMap κ ν} {k : κ} : k ∈ m.keys ↔ m.contains k = true := by
  have h : find k m.entries = none ↔ ∀ e ∈ m.entries, e.1 ≠ k := find_eq_none_iff
  rw [← Bool.not_eq_false, ← get?_eq_none_iff, get?, h]
  simp [keys]

variable [KeyOrder κ]

omit [DecidableEq κ] in
theorem nodup_keys (m : SortedMap κ ν) : m.keys.Nodup := by
  refine List.pairwise_map.2 (m.sorted.imp fun {a b} h he => ?_)
  rw [he] at h
  exact lt_irrefl _ h

/-- A value is listed when it is bound to some key. -/
theorem mem_values_iff {m : SortedMap κ ν} {v : ν} : v ∈ m.values ↔ ∃ k, m.get? k = some v := by
  constructor
  · intro h
    obtain ⟨e, he, rfl⟩ := List.mem_map.1 h
    exact ⟨e.1, (find_eq_some_iff m.sorted).2 he⟩
  · rintro ⟨k, hk⟩
    exact List.mem_map.2 ⟨(k, v), (find_eq_some_iff m.sorted).1 hk, rfl⟩

@[simp] theorem contains_insert [DecidableLT κ] (m : SortedMap κ ν) (k k' : κ) (v : ν) :
    (m.insert k v).contains k' = (decide (k' = k) || m.contains k') := by
  unfold contains
  rw [get?_insert]
  by_cases h : k' = k <;> simp [h]

/-- What is bound after filtering was bound before, and satisfies the filter. -/
theorem get?_filter (m : SortedMap κ ν) (p : κ → ν → Bool) (k : κ) :
    (m.filter p).get? k = (m.get? k).filter (p k) := by
  refine Option.ext fun v => ?_
  rw [Option.filter_eq_some_iff, get?, get?, find_eq_some_iff (m.filter p).sorted,
    find_eq_some_iff m.sorted]
  exact List.mem_filter

omit [DecidableEq κ] [KeyOrder κ] in
/-- A filter that drops no binding changes nothing. -/
theorem filter_eq_self_of_size {m : SortedMap κ ν} {p : κ → ν → Bool}
    (h : m.size ≤ (m.filter p).size) : m.filter p = m := by
  have hlen : (m.entries.filter fun e => p e.1 e.2).length = m.entries.length :=
    Nat.le_antisymm (List.length_filter_le _ _) h
  exact ext_entries (List.filter_eq_self.2 (List.length_filter_eq_length_iff.1 hlen))

theorem get?_foldl_insert [DecidableLT κ] {es : List (κ × ν)}
    (hes : es.Pairwise fun a b => a.1 < b.1) (m : SortedMap κ ν) (k : κ) :
    (es.foldl (fun m e => m.insert e.1 e.2) m).get? k = (find k es).or (m.get? k) := by
  induction es generalizing m with
  | nil => rfl
  | cons e es ih =>
    obtain ⟨he, hes⟩ := List.pairwise_cons.1 hes
    rw [List.foldl_cons, ih hes, get?_insert]
    by_cases hk : k = e.1
    · have hnone : find k es = none :=
        find_eq_none_iff.2 fun d hd hdk => lt_irrefl _ (by have := he d hd; rwa [hdk, hk] at this)
      simp [find, hk ▸ hnone, hk]
    · simp [find, hk, Ne.symm hk]

/-- A map is rebuilt from its bindings. -/
theorem ofList_entries [DecidableLT κ] (m : SortedMap κ ν) : ofList m.entries = m :=
  ext_get? fun k => by
    rw [ofList, get?_foldl_insert m.sorted, get?_empty, Option.or_none]
    rfl

/-- A set is determined by its members. -/
theorem ext_contains {a b : SortedSet κ} (h : ∀ k, a.contains k = b.contains k) : a = b := by
  refine ext_get? fun k => ?_
  have hk : (a.get? k).isSome = (b.get? k).isSome := h k
  cases ha : a.get? k <;> cases hb : b.get? k <;> simp_all

/-- A set is rebuilt from its members. -/
theorem ofList_keys [DecidableLT κ] (m : SortedSet κ) : ofList (m.keys.map (·, ())) = m := by
  have h : m.keys.map (·, ()) = m.entries := by
    rw [keys, List.map_map]
    exact List.map_id m.entries
  rw [h, ofList_entries]

end SealedMail.SortedMap
