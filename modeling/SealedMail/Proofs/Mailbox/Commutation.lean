import SealedMail.Proofs.Mailbox.Ignoring

/-!
# Openings in another order

Batches come back in any order, and the openings of one batch too could be applied in another order.
As long as those of one uid stay in order (`Rearranged`) it makes no difference that a uid can show:
of an index, a ledger, a store or what the listeners are told, what belongs to a uid or to a hash
comes from the openings of that uid or of that hash alone. Main statement:
`rearranged_openings_agree`.
-/

namespace SealedMail

/-! ## Openings of a uid -/

/-- The uid of the message inside; what cannot be read has the uid in clear. -/
def Opening.uid : Opening → String
  | received item => item.uid
  | notForUs uid _ => uid
  | malformed uid _ => uid

/-- In another order, but those of one uid in the same. -/
structure Rearranged (os os' : List Opening) : Prop where
  perm : os.Perm os'
  sequence : ∀ uid, os.filter (·.uid = uid) = os'.filter (·.uid = uid)

instance (os os' : List Opening) : Decidable (Rearranged os os') :=
  decidable_of_iff
    (os.Perm os' ∧ ∀ o ∈ os, os.filter (·.uid = o.uid) = os'.filter (·.uid = o.uid))
    ⟨fun ⟨hperm, hsequence⟩ => ⟨hperm, fun uid => by
        by_cases ho : ∃ o ∈ os, o.uid = uid
        · obtain ⟨o, ho, rfl⟩ := ho
          exact hsequence o ho
        · have hnone : ∀ o ∈ os, ¬ decide (o.uid = uid) = true :=
            fun o hm hu => ho ⟨o, hm, of_decide_eq_true hu⟩
          rw [List.filter_eq_nil_iff.2 hnone, List.filter_eq_nil_iff.2 fun o hm =>
            hnone o (hperm.mem_iff.2 hm)]⟩,
      fun h => ⟨h.perm, fun o _ => h.sequence o.uid⟩⟩

theorem filter_brought (os : List Opening) (uid : String) :
    (brought os).filter (·.uid = uid) = brought (os.filter (·.uid = uid)) := by
  rw [brought, brought, List.filter_filterMap, List.filterMap_filter]
  refine List.filterMap_congr fun o _ => ?_
  cases o with
  | received item =>
    have harrival : (Opening.received item).arrival? = if item.message?.isSome then some item
        else none :=
      Option.filter_some
    rw [harrival, Opening.uid]
    by_cases hu : item.uid = uid <;> by_cases hm : item.message?.isSome <;> simp [hu, hm]
  | notForUs other created => simp [Opening.arrival?, Opening.item?]
  | malformed other reason => simp [Opening.arrival?, Opening.item?]

theorem nodup_brought [Suite] {os : List Opening}
    (hn : ((os.filterMap Opening.item?).map Item.hash).Nodup) :
    ((brought os).map Item.hash).Nodup := by
  have hsub : (brought os).Sublist (os.filterMap Opening.item?) := by
    have : brought os = (os.filterMap Opening.item?).filter fun item => item.message?.isSome :=
      List.filter_filterMap.symm
    rw [this]
    exact List.filter_sublist
  exact hn.sublist (hsub.map _)

/-- A uid keeps the time of its record, or gets that of the first of its openings that is not for
us. -/
theorem Ledger.time?_foldl_heed (l : Ledger) (os : List Opening) (uid : String) :
    (os.foldl heed l).time? uid =
    (l.time? uid).or ((os.filter (·.uid = uid)).findSome? fun o => o.ignored?.map (·.2)) := by
  induction os generalizing l with
  | nil => simp
  | cons o os ih =>
    rw [List.foldl_cons, ih]
    cases o with
    | notForUs other created =>
      by_cases hu : other = uid
      · simp [heed, Opening.ignored?, Opening.uid, time?_ignore, hu]
      · simp [heed, Opening.ignored?, Opening.uid, time?_ignore, hu, Ne.symm hu]
    | received item =>
      by_cases hu : item.uid = uid <;> simp [heed, Opening.ignored?, Opening.uid, hu]
    | malformed other reason =>
      by_cases hu : other = uid <;> simp [heed, Opening.ignored?, Opening.uid, hu]

theorem Ledger.ext_time? {l l' : Ledger} (h : ∀ uid, l.time? uid = l'.time? uid) : l = l' :=
  congrArg Ledger.mk (SortedMap.ext_get? h)

/-! ## Reports of a uid -/

/-- The uid of the message that is reported. -/
def Report.uid? (r : Report) : Option String := r.opened.message?.map (·.uid)

section

variable [Suite]

theorem filter_notices (ids : List Nat) (items : List Item) (uid : String) :
    (items.flatMap (Item.notices ids)).filter (·.2.uid? = some uid) =
      (items.filter (·.uid = uid)).flatMap (Item.notices ids) := by
  induction items with
  | nil => rfl
  | cons item items ih =>
    have hone :
        (item.notices ids).filter (·.2.uid? = some uid) = if item.uid = uid then item.notices ids
          else [] := by
      cases hm : item.message? with
      | none => simp [Item.notices, Item.report?, hm]
      | some message =>
        have huid : item.uid = message.uid := by rw [Item.uid, hm]
        have hopened : item.opened.message? = some message := hm
        rw [huid]
        by_cases hu :
          message.uid = uid <;> simp [Item.notices, Item.report?, Report.uid?, hm, hopened, hu]
    rw [List.flatMap_cons, List.filter_append, ih, hone, List.filter_cons]
    by_cases hu : item.uid = uid <;> simp [hu]

namespace Index

/-- Insertion appends to what is kept under a uid the new items of that uid. -/
theorem under_foldl_insert (x : Index) (items : List Item) (uid : String) :
    (items.foldl insert x).under uid = x.under uid ++ (x.news items).filter (·.uid = uid) := by
  induction items generalizing x with
  | nil => simp [news]
  | cons item items ih =>
    rw [List.foldl_cons, ih, news]
    split
    · next hc => rw [insert_of_contains hc]
    · next hc =>
      have hunder : (x.insert item).under uid = x.under uid ++ if item.uid = uid then [item]
          else [] := by
        rw [insert, if_neg hc]
        by_cases hu : uid = item.uid
        · simp [under, SortedMap.get?_insert, hu]
        · simp [under, SortedMap.get?_insert, hu, Ne.symm hu]
      rw [hunder, List.filter_cons]
      by_cases hu : item.uid = uid <;> simp [hu]

theorem filed_foldl_insert (x : Index) (items : List Item) (uid : String) :
    (items.foldl insert x).filed uid = x.filed uid ++ (x.news items).filter (·.uid = uid) := by
  rw [filed, items_foldl_insert, List.filter_append]
  rfl

end Index

/-! ## Openings that are applied -/

variable {os os' : List Opening}

namespace Rearranged

omit [Suite] in
theorem brought_perm (h : Rearranged os os') : (brought os).Perm (brought os') := h.perm.filterMap _

theorem news_perm (h : Rearranged os os') (hn : ((brought os).map Item.hash).Nodup) (x : Index) :
    (x.news (brought os)).Perm (x.news (brought os')) := by
  rw [Index.news_eq_filter hn, Index.news_eq_filter ((h.brought_perm.map _).nodup hn)]
  exact h.brought_perm.filter _

theorem filter_news (h : Rearranged os os') (hn : ((brought os).map Item.hash).Nodup) (x : Index)
    (uid : String) :
    (x.news (brought os)).filter (·.uid = uid) = (x.news (brought os')).filter (·.uid = uid) := by
  rw [Index.news_eq_filter hn, Index.news_eq_filter ((h.brought_perm.map _).nodup hn),
    List.filter_comm, filter_brought, h.sequence, ← filter_brought, List.filter_comm]

theorem under_withdrawAll (h : Rearranged os os') (hn : ((brought os).map Item.hash).Nodup)
    (setup : Setup) (env : Surroundings) (m : Mailbox) (hash : PayloadHash) :
    (Mailbox.withdrawAll setup env m.bootstrapped m.store (m.index.news (brought os))).under hash =
      (Mailbox.withdrawAll setup env m.bootstrapped m.store (m.index.news (brought os'))).under
        hash := by
  unfold Mailbox.withdrawAll
  split
  · exact Mailbox.under_withdrawItems_perm setup env m.store (m.index.nodup_news _)
      (h.news_perm hn m.index) hash
  · rfl

end Rearranged

namespace Mailbox

/-- Openings of distinct items can be applied in any order that keeps those of one uid in order: the
ledger with its times, the items under each uid, the payloads that are held, the store with its
numbers, and what is told of each uid are the same. -/
theorem rearranged_openings_agree (setup : Setup) (env : Surroundings) (m : Mailbox)
    (hn : ((os.filterMap Opening.item?).map Item.hash).Nodup) (h : Rearranged os os') :
    let m₁ := m.applyAll setup env os
    let m₂ := m.applyAll setup env os'
    m₁.ledger = m₂.ledger ∧
      (∀ uid, m₁.index.filed uid = m₂.index.filed uid ∧ m₁.index.under uid = m₂.index.under uid) ∧
      m₁.index.hashes = m₂.index.hashes ∧
      (m₁.store.entries = m₂.store.entries ∧ m₁.store.sequences = m₂.store.sequences) ∧
      ∀ uid,
        (notices m₁.log).filter (·.2.uid? = some uid) =
          (notices m₂.log).filter (·.2.uid? = some uid) := by
  intro m₁ m₂
  have hnodup := nodup_brought hn
  obtain ⟨hindex₁, hledger₁, hstore₁, hnotices₁, -, -, -⟩ : Applied setup env os m m₁ :=
    applyAll_applied setup env m os
  obtain ⟨hindex₂, hledger₂, hstore₂, hnotices₂, -, -, -⟩ : Applied setup env os' m m₂ :=
    applyAll_applied setup env m os'
  have hstore (hash : PayloadHash) : m₁.store.under hash = m₂.store.under hash := by
    rw [hstore₁, hstore₂, (applyAll_frame setup env m os).bootstrapped,
      (applyAll_frame setup env m os').bootstrapped]
    exact h.under_withdrawAll hnodup setup env m hash
  refine ⟨Ledger.ext_time? fun uid => ?_, fun uid => ⟨?_, ?_⟩,
    SortedMap.ext_contains fun hash => ?_,
    ⟨SortedMap.ext_get? fun hash => congrArg Prod.fst (hstore hash),
      SortedMap.ext_get? fun hash => congrArg Prod.snd (hstore hash)⟩, fun uid => ?_⟩
  · rw [hledger₁, hledger₂, Ledger.time?_foldl_heed, Ledger.time?_foldl_heed, h.sequence]
  · rw [hindex₁, hindex₂, Index.filed_foldl_insert, Index.filed_foldl_insert, h.filter_news hnodup]
  · rw [hindex₁, hindex₂, Index.under_foldl_insert, Index.under_foldl_insert, h.filter_news hnodup]
  · change m₁.index.contains hash = m₂.index.contains hash
    rw [hindex₁, hindex₂, Index.contains_foldl_insert, Index.contains_foldl_insert,
      h.brought_perm.any_eq]
  · rw [hnotices₁, hnotices₂, List.filter_append, List.filter_append, filter_notices,
      filter_notices, h.filter_news hnodup]

end Mailbox

end

/-! ## Openings at work -/

section Transparent

open Transparent

attribute [local instance] Suite.transparent

/-- Two letters under one uid, one under another, and two entries that are not for us. -/
def outcomes : List Opening :=
  [(entry (ring 1) (ring 2) (letter "u") 1).opening (ring 2), .notForUs "f" ⟨5⟩,
    (entry (ring 1) (ring 2) (letter "v") 1).opening (ring 2), .notForUs "f" ⟨7⟩,
    (entry (ring 3) (ring 2) (letter "u") 1).opening (ring 2)]

def rearrangedOutcomes : List Opening :=
  [(entry (ring 1) (ring 2) (letter "v") 1).opening (ring 2),
    (entry (ring 1) (ring 2) (letter "u") 1).opening (ring 2),
    (entry (ring 3) (ring 2) (letter "u") 1).opening (ring 2), .notForUs "f" ⟨5⟩, .notForUs "f" ⟨7⟩]

/-- A bootstrapped mailbox with a listener, whose overlay holds the letters. -/
def expectant : Mailbox :=
  let store := [entry (ring 1) (ring 2) (letter "u") 1, entry (ring 1) (ring 2) (letter "v") 1,
    entry (ring 3) (ring 2) (letter "u") 1].foldl (fun s e =>
      s.serve (.add e)) (.ofCapacity 8 (.sufficient 1))
  { Mailbox.restore setup (online 0) store [] ⟨.empty⟩ with
    bootstrapped := true
    listeners := SortedMap.empty.insert 0 () }

/-- The letters are listed in another order, and nothing else differs. The ignored uid has the time
of the first entry. -/
theorem rearranged_outcomes_agree :
    let m₁ := expectant.applyAll setup (online 0) outcomes
    let m₂ := expectant.applyAll setup (online 0) rearrangedOutcomes
    (((outcomes.filterMap Opening.item?).map Item.hash).Nodup ∧
      Rearranged outcomes rearrangedOutcomes) ∧
      (m₁.index.items.map Item.uid = ["u", "v", "u"] ∧
        m₂.index.items.map Item.uid = ["v", "u", "u"] ∧
        m₂.ledger.time? "f" = some ⟨5⟩ ∧ m₂.store.sequences.values = [2, 2, 2]) ∧
      m₁.ledger = m₂.ledger ∧
      (∀ uid, m₁.index.filed uid = m₂.index.filed uid ∧ m₁.index.under uid = m₂.index.under uid) ∧
      m₁.index.hashes = m₂.index.hashes ∧
      (m₁.store.entries = m₂.store.entries ∧ m₁.store.sequences = m₂.store.sequences) ∧
      ∀ uid,
        (notices m₁.log).filter (·.2.uid? = some uid) =
          (notices m₂.log).filter (·.2.uid? = some uid) := by
  have hn : ((outcomes.filterMap Opening.item?).map Item.hash).Nodup := by decide +kernel
  have h : Rearranged outcomes rearrangedOutcomes := by decide +kernel
  have hagree := Mailbox.rearranged_openings_agree setup (online 0) expectant hn h
  exact ⟨⟨hn, h⟩, by decide +kernel, hagree⟩

end Transparent

end SealedMail
