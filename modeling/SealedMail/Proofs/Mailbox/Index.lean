import Mathlib.Data.List.Nodup
import SealedMail.Mailbox.Index
import SealedMail.Proofs.Data.SortedMap

/-!
# Consistency of the index

`Index.Valid` says that the hashes and the lists by uid kept beside the items are those of the
items, and that no payload is listed twice. Insertion and removal keep it, and every index that is
read from a list has it (`valid_ofList`). What the two operations do is said of a valid index
through its items.
-/

namespace SealedMail.Index

variable [Suite]

/-- The items under a uid, as they are listed. -/
def filed (x : Index) (uid : String) : List Item := x.items.filter fun item => item.uid = uid

structure Valid (x : Index) : Prop where
  nodup : (x.items.map Item.hash).Nodup
  contains_iff : ∀ hash, x.contains hash = true ↔ ∃ item ∈ x.items, item.hash = hash
  byUid : ∀ uid, x.byUid.get? uid = if x.filed uid = [] then none else some (x.filed uid)

theorem valid_empty : Valid {} where
  nodup := List.nodup_nil
  contains_iff hash := by simp [contains]
  byUid uid := by simp [filed]

/-! ## Insertion -/

theorem insert_of_contains {x : Index} {item : Item} (h : x.contains item.hash = true) :
    x.insert item = x := if_pos h

theorem items_insert {x : Index} {item : Item} (h : x.contains item.hash = false) :
    (x.insert item).items = x.items ++ [item] := by
  simp [insert, h]

theorem contains_insert (x : Index) (item : Item) (hash : PayloadHash) :
    (x.insert item).contains hash = (decide (hash = item.hash) || x.contains hash) := by
  cases h : x.contains item.hash with
  | true =>
    rw [insert_of_contains h]
    by_cases hh : hash = item.hash
    · simp [hh, h]
    · simp [hh]
  | false =>
    simp only [insert, h, Bool.false_eq_true, if_false]
    exact SortedMap.contains_insert _ _ _ _

theorem under_eq {x : Index} (hx : x.Valid) (uid : String) : x.under uid = x.filed uid := by
  rw [under, hx.byUid]
  split
  · next h => simp [h]
  · rfl

theorem Valid.insert {x : Index} (hx : x.Valid) (item : Item) : (x.insert item).Valid := by
  cases h : x.contains item.hash with
  | true => rwa [insert_of_contains h]
  | false =>
    have hfiled (uid : String) : (x.insert item).filed uid =
        x.filed uid ++ if item.uid = uid then [item] else [] := by
      rw [filed, items_insert h, List.filter_append]
      congr 1
      split <;> simp_all
    refine ⟨?_, ?_, ?_⟩
    · have hnew : ∀ other ∈ x.items, other.hash ≠ item.hash := by
        intro other ho he
        rw [(hx.contains_iff _).2 ⟨other, ho, he⟩] at h
        cases h
      rw [items_insert h, List.map_append, List.nodup_append]
      refine ⟨hx.nodup, by simp, ?_⟩
      intro a ha b hb
      obtain ⟨other, ho, rfl⟩ := List.mem_map.1 ha
      simp only [List.map_cons, List.map_nil, List.mem_singleton] at hb
      exact hb ▸ hnew other ho
    · intro hash
      rw [contains_insert, items_insert h, Bool.or_eq_true, hx.contains_iff]
      simp only [decide_eq_true_eq, List.mem_append, List.mem_singleton]
      constructor
      · rintro (rfl | ⟨other, ho, rfl⟩)
        · exact ⟨item, .inr rfl, rfl⟩
        · exact ⟨other, .inl ho, rfl⟩
      · rintro ⟨other, ho | rfl, rfl⟩
        · exact .inr ⟨other, ho, rfl⟩
        · exact .inl rfl
    · intro uid
      have hget : (x.insert item).byUid.get? uid =
          if uid = item.uid then some (x.filed item.uid ++ [item]) else x.byUid.get? uid := by
        rw [← under_eq hx]
        simp only [Index.insert, h, Bool.false_eq_true, if_false]
        exact SortedMap.get?_insert _ _ _ _
      rw [hget, hfiled, hx.byUid]
      by_cases hu : uid = item.uid
      · subst hu; simp
      · simp [hu, Ne.symm hu]

/-! ## Removal -/

theorem contains_foldl_erase (removed : List Item) (hs : SortedSet PayloadHash)
    (hash : PayloadHash) : (removed.foldl (fun hs item => hs.erase item.hash) hs).contains hash =
      (hs.contains hash && removed.all fun item => item.hash ≠ hash) := by
  induction removed generalizing hs with
  | nil => simp
  | cons item removed ih =>
    rw [List.foldl_cons, ih, SortedMap.contains_erase, List.all_cons]
    by_cases h : hash = item.hash
    · simp [h]
    · simp [h, Ne.symm h]

/-- The items under a uid are returned in order. -/
theorem removeUid_snd {x : Index} (hx : x.Valid) (uid : String) :
    (x.removeUid uid).2 = x.filed uid := by
  have hb := hx.byUid uid
  unfold removeUid
  split at hb
  · next h => rw [hb, h]
  · rw [hb]

/-- The others are kept in order. -/
theorem items_removeUid {x : Index} (hx : x.Valid) (uid : String) :
    (x.removeUid uid).1.items = x.items.filter fun item => item.uid ≠ uid := by
  have hb := hx.byUid uid
  unfold removeUid
  split at hb
  · next h =>
    rw [hb]
    have hne : ∀ item ∈ x.items, item.uid ≠ uid := by
      intro item hi he
      have : item ∈ x.filed uid := List.mem_filter.2 ⟨hi, by simpa using he⟩
      rw [h] at this
      cases this
    exact (List.filter_eq_self.2 fun item hi => by simpa using hne item hi).symm
  · rw [hb]

theorem Valid.eq_of_hash {x : Index} (hx : x.Valid) {a b : Item} (ha : a ∈ x.items)
    (hb : b ∈ x.items) (h : a.hash = b.hash) : a = b :=
  List.inj_on_of_nodup_map hx.nodup ha hb h

theorem Valid.removeUid {x : Index} (hx : x.Valid) (uid : String) : (x.removeUid uid).1.Valid := by
  have hitems := items_removeUid hx uid
  have hfiled (uid' : String) : (x.removeUid uid).1.filed uid' =
      if uid' = uid then [] else x.filed uid' := by
    rw [filed, hitems, List.filter_filter]
    split
    · next h => subst h; simp
    · next h =>
      refine List.filter_congr ?_
      intro item _
      by_cases hi : item.uid = uid'
      · simp [hi, h]
      · simp [hi]
  refine ⟨?_, ?_, ?_⟩
  · rw [hitems]
    exact hx.nodup.sublist (List.filter_sublist.map _)
  · intro hash
    have hcontains : (x.removeUid uid).1.contains hash =
        (x.contains hash && (x.filed uid).all fun item => item.hash ≠ hash) := by
      have hb := hx.byUid uid
      unfold Index.removeUid
      split at hb
      · next h => rw [hb, h]; simp
      · rw [hb]; exact contains_foldl_erase _ _ _
    rw [hcontains, Bool.and_eq_true, hx.contains_iff, hitems]
    simp only [List.all_eq_true, decide_eq_true_eq, filed, List.mem_filter]
    constructor
    · rintro ⟨⟨item, hi, rfl⟩, hall⟩
      exact ⟨item, ⟨hi, fun hu => hall item ⟨hi, hu⟩ rfl⟩, rfl⟩
    · rintro ⟨item, ⟨hi, hu⟩, rfl⟩
      refine ⟨⟨item, hi, rfl⟩, fun other hother he => hu ?_⟩
      rw [← hx.eq_of_hash hother.1 hi he, hother.2]
  · intro uid'
    rw [hfiled]
    have hb := hx.byUid uid
    have hget : (x.removeUid uid).1.byUid.get? uid' =
        if uid' = uid then none else x.byUid.get? uid' := by
      unfold Index.removeUid
      split at hb
      · rw [hb]
        by_cases h : uid' = uid
        · simp [h, hb]
        · simp [h]
      · rw [hb]; exact SortedMap.get?_erase _ _ _
    rw [hget, hx.byUid uid']
    by_cases h : uid' = uid <;> simp [h]

/-- Items that are taken out of an index are not held any more. -/
theorem contains_removeUid {x : Index} (hx : x.Valid) {uid : String} {item : Item}
    (hi : item ∈ x.filed uid) : (x.removeUid uid).1.contains item.hash = false := by
  refine Bool.eq_false_iff.2 fun hheld => ?_
  obtain ⟨other, ho, he⟩ := ((hx.removeUid uid).contains_iff _).1 hheld
  rw [items_removeUid hx] at ho
  obtain ⟨hi, hu⟩ := List.mem_filter.1 hi
  obtain ⟨ho, hne⟩ := List.mem_filter.1 ho
  rw [hx.eq_of_hash ho hi he] at hne
  exact absurd (of_decide_eq_true hu) (of_decide_eq_true hne)

theorem Valid.nodup_filed {x : Index} (hx : x.Valid) (uid : String) :
    ((x.filed uid).map Item.hash).Nodup :=
  hx.nodup.sublist (List.filter_sublist.map _)

/-! ## Whole lists -/

theorem Valid.foldl_insert {x : Index} (hx : x.Valid) (items : List Item) :
    (items.foldl Index.insert x).Valid := by
  induction items generalizing x with
  | nil => exact hx
  | cons item items ih => exact ih (hx.insert item)

/-- An index that is read from a list is valid, whatever the list. -/
theorem valid_ofList (items : List Item) (now : Timestamp) (ttl : UInt64) :
    (ofList items now ttl).Valid :=
  valid_empty.foldl_insert _

theorem contains_foldl_insert (x : Index) (items : List Item) (hash : PayloadHash) :
    (items.foldl insert x).contains hash =
      (x.contains hash || items.any fun item => item.hash = hash) := by
  induction items generalizing x with
  | nil => simp
  | cons item items ih =>
    rw [List.foldl_cons, ih, contains_insert, List.any_cons]
    by_cases h : hash = item.hash
    · simp [h]
    · simp [h, Ne.symm h]

/-- What is read from a list are the hashes of the items that have not outlived their time. -/
theorem contains_ofList {items : List Item} {now : Timestamp} {ttl : UInt64} {hash : PayloadHash} :
    (ofList items now ttl).contains hash = true ↔
      ∃ item ∈ items, item.entry.isExpired now ttl = false ∧ item.hash = hash := by
  rw [ofList, contains_foldl_insert, show contains {} hash = false from rfl]
  simp

/-! ## New items -/

/-- The items of a list that insertion one after the other appends. -/
def news (x : Index) : List Item → List Item
  | [] => []
  | item :: items =>
    if x.contains item.hash then x.news items else item :: (x.insert item).news items

theorem news_append (x : Index) (items more : List Item) :
    x.news (items ++ more) = x.news items ++ (items.foldl insert x).news more := by
  induction items generalizing x with
  | nil => rfl
  | cons item items ih =>
    simp only [List.cons_append, news, List.foldl_cons]
    split
    · next h => rw [ih, insert_of_contains h]
    · rw [ih, List.cons_append]

theorem items_foldl_insert (x : Index) (items : List Item) :
    (items.foldl insert x).items = x.items ++ x.news items := by
  induction items generalizing x with
  | nil => simp [news]
  | cons item items ih =>
    simp only [List.foldl_cons, news]
    rw [ih]
    split
    · next h => rw [insert_of_contains h]
    · next h =>
      rw [Bool.not_eq_true] at h
      rw [items_insert h, List.append_assoc, List.singleton_append]

theorem mem_of_mem_news {x : Index} {items : List Item} {item : Item} (h : item ∈ x.news items) :
    item ∈ items := by
  induction items generalizing x with
  | nil => simp [news] at h
  | cons other items ih =>
    simp only [news] at h
    split at h
    · exact List.mem_cons_of_mem _ (ih h)
    · rcases List.mem_cons.1 h with rfl | h
      · exact List.mem_cons_self
      · exact List.mem_cons_of_mem _ (ih h)

theorem not_contains_of_mem_news {x : Index} {items : List Item} {item : Item}
    (h : item ∈ x.news items) : x.contains item.hash = false := by
  induction items generalizing x with
  | nil => simp [news] at h
  | cons other items ih =>
    simp only [news] at h
    split at h
    · exact ih h
    · next hc =>
      rcases List.mem_cons.1 h with rfl | h
      · exact Bool.not_eq_true _ ▸ hc
      · have := ih h
        rw [contains_insert, Bool.or_eq_false_iff] at this
        exact this.2

/-- An item that is not held is new if no other item of the list has its hash. -/
theorem mem_news {x : Index} {items : List Item} {item : Item} (hi : item ∈ items)
    (hc : x.contains item.hash = false)
    (hu : ∀ other ∈ items, other.hash = item.hash → other = item) :
    item ∈ x.news items := by
  induction items generalizing x with
  | nil => cases hi
  | cons first items ih =>
    obtain ⟨hfirst, hu⟩ := List.forall_mem_cons.1 hu
    simp only [news]
    split
    · next hf =>
      rcases List.mem_cons.1 hi with rfl | hi
      · exact absurd (hc.symm.trans hf) Bool.false_ne_true
      · exact ih hi hc hu
    · by_cases hh : first.hash = item.hash
      · exact hfirst hh ▸ List.mem_cons_self
      · rcases List.mem_cons.1 hi with rfl | hi
        · exact absurd rfl hh
        · refine List.mem_cons_of_mem _ (ih hi ?_ hu)
          rw [contains_insert, hc, Bool.or_false, decide_eq_false (Ne.symm hh)]

theorem nodup_news (x : Index) (items : List Item) : ((x.news items).map Item.hash).Nodup := by
  induction items generalizing x with
  | nil => exact List.nodup_nil
  | cons item items ih =>
    simp only [news]
    split
    · exact ih x
    · refine List.nodup_cons.2 ⟨?_, ih _⟩
      intro hm
      obtain ⟨other, ho, he⟩ := List.mem_map.1 hm
      have := not_contains_of_mem_news ho
      rw [contains_insert, he] at this
      simp at this

/-- Of distinct items those are new that are not held. -/
theorem news_eq_filter {x : Index} {items : List Item} (hn : (items.map Item.hash).Nodup) :
    x.news items = items.filter fun item => !x.contains item.hash := by
  induction items generalizing x with
  | nil => rfl
  | cons item items ih =>
    obtain ⟨hi, hn⟩ := List.nodup_cons.1 hn
    cases hc : x.contains item.hash with
    | true => rw [news, if_pos hc, ih hn, List.filter_cons_of_neg (by simp [hc])]
    | false =>
      rw [news, if_neg (by simp [hc]), ih hn, List.filter_cons_of_pos (by simp [hc])]
      congr 1
      refine List.filter_congr fun other ho => ?_
      have hne : other.hash ≠ item.hash := fun he => hi (he ▸ List.mem_map_of_mem ho)
      rw [contains_insert, decide_eq_false hne, Bool.false_or]

/-- Distinct items that are not held are all new. -/
theorem news_eq_self {x : Index} {items : List Item} (hn : (items.map Item.hash).Nodup)
    (h : ∀ item ∈ items, x.contains item.hash = false) : x.news items = items := by
  rw [news_eq_filter hn, List.filter_eq_self]
  exact fun item hi => by rw [h item hi, Bool.not_false]

/-- A payload is new at most once, and only if it was not held. -/
theorem countP_news_le (x : Index) (items : List Item) (hash : PayloadHash) :
    (x.news items).countP (fun item => item.hash = hash) + (x.contains hash).toNat ≤
      ((items.foldl insert x).contains hash).toNat := by
  have hcount : (x.news items).countP (fun item => item.hash = hash) ≤ 1 := by
    have := List.nodup_iff_count_le_one.1 (x.nodup_news items) hash
    rw [List.count, List.countP_map] at this
    refine Nat.le_trans (Nat.le_of_eq (List.countP_congr ?_)) this
    intro item _
    simp
  have hzero : (x.news items).countP (fun item => item.hash = hash) ≠ 0 →
      x.contains hash = false ∧ (items.foldl insert x).contains hash = true := by
    intro hne
    obtain ⟨item, hi, he⟩ := List.countP_pos_iff.1 (Nat.pos_of_ne_zero hne)
    rw [decide_eq_true_eq] at he
    refine ⟨he ▸ not_contains_of_mem_news hi, ?_⟩
    rw [contains_foldl_insert, Bool.or_eq_true, List.any_eq_true]
    exact .inr ⟨item, mem_of_mem_news hi, by simpa using he⟩
  have hmono : x.contains hash = true → (items.foldl insert x).contains hash = true := by
    intro h
    rw [contains_foldl_insert, h, Bool.true_or]
  cases hb : x.contains hash with
  | true =>
    rw [hmono hb]
    have : (x.news items).countP (fun item => item.hash = hash) = 0 :=
      Classical.byContradiction fun hne => by
        have := (hzero hne).1
        rw [hb] at this
        cases this
    simp [this]
  | false =>
    by_cases hne : (x.news items).countP (fun item => item.hash = hash) = 0
    · simp [hne]
    · rw [(hzero hne).2]
      simpa using hcount

/-- The items that an index lists and an earlier one did not hold. -/
def gained (before after : Index) : List Item :=
  after.items.filter fun item => !before.contains item.hash

theorem gained_foldl_insert {x : Index} (hx : x.Valid) (items : List Item) :
    gained x (items.foldl insert x) = x.news items := by
  have hold : x.items.filter (fun item => !x.contains item.hash) = [] :=
    List.filter_eq_nil_iff.2 fun item hi => by
      simp [(hx.contains_iff item.hash).2 ⟨item, hi, rfl⟩]
  have hnew : (x.news items).filter (fun item => !x.contains item.hash) = x.news items :=
    List.filter_eq_self.2 fun item hi => by simp [not_contains_of_mem_news hi]
  rw [gained, items_foldl_insert, List.filter_append, hold, hnew, List.nil_append]

/-! ## First items -/

omit [Suite] in
theorem exists_mem_firstPerUid {seen : List String} {items : List Item} {item : Item}
    (hi : item ∈ items) (hu : item.uid ∉ seen) :
    ∃ first ∈ firstPerUid seen items, first.uid = item.uid ∧
      (first = item ∨ [first, item].Sublist items) := by
  induction items generalizing seen with
  | nil => cases hi
  | cons head items ih =>
    simp only [firstPerUid]
    split
    · next hs =>
      rcases List.mem_cons.1 hi with rfl | hi
      · exact absurd hs hu
      · obtain ⟨first, hf, huid, h⟩ := ih hi hu
        exact ⟨first, hf, huid, h.imp_right fun h => h.cons _⟩
    · rcases List.mem_cons.1 hi with rfl | hi
      · exact ⟨item, List.mem_cons_self, rfl, .inl rfl⟩
      · by_cases hh : head.uid = item.uid
        · exact ⟨head, List.mem_cons_self, hh, .inr ((List.singleton_sublist.2 hi).cons_cons _)⟩
        · have hu' : item.uid ∉ head.uid :: seen :=
            fun h => (List.mem_cons.1 h).elim (Ne.symm hh) hu
          obtain ⟨first, hf, huid, h⟩ := ih hi hu'
          exact ⟨first, List.mem_cons_of_mem _ hf, huid, h.imp_right fun h => h.cons _⟩

omit [Suite] in
/-- Of each item under a uid, the item itself or an earlier one under that uid is shown. -/
theorem exists_first {x : Index} {item : Item} (hi : item ∈ x.items) :
    ∃ first : Item, first.uid = item.uid ∧ first.opened ∈ x.firstMessages ∧
      (first = item ∨ [first, item].Sublist x.items) := by
  obtain ⟨first, hf, huid, h⟩ := exists_mem_firstPerUid hi List.not_mem_nil
  exact ⟨first, huid, List.mem_map_of_mem hf, h⟩

end SealedMail.Index
