import SealedMail.Proofs.Mailbox.Deferral
import SealedMail.Proofs.Mailbox.Withdrawable

/-!
# What a removal leaves behind

A removal takes all items under a uid out of the index and asks the store to drop each of them. The
items fare independently of each other: the store drops the entry if it is `Withdrawable`, and the
item goes back into the index if no removal can be signed. In the other cases the item is gone from
the index and the entry stays in the store, so index and store agree after a removal exactly if none
of these cases occurs (`History.removal_matches_store_iff`).
-/

namespace SealedMail

variable [Suite]

omit [Suite] in
/-- Whether an item is to be dropped with a message: they have the same uid. -/
def Opened.concerns (opened : Opened) (item : Item) : Bool :=
  opened.message?.any fun message => item.uid = message.uid

/-- The items that are to be dropped with a message. -/
def Index.about (x : Index) (opened : Opened) : List Item :=
  match opened.message? with
  | none => []
  | some message => x.filed message.uid

omit [Suite] in
theorem Index.about_eq (x : Index) (opened : Opened) :
    x.about opened = x.items.filter opened.concerns := by
  unfold about Opened.concerns
  cases opened.message? with
  | none => simp
  | some message => rfl

namespace Mailbox

variable {setup : Setup} {env : Surroundings} {m : Mailbox} {item : Item} {items : List Item}
  {opened : Opened}

/-! ## Items -/

/-- A removal of an entry is to be asked for and cannot be signed. -/
def isUnsignable (env : Surroundings) (s : Store) (e : Entry) : Bool :=
  s.contains e.hash && env.address.isSome && env.access.signingFails e.payload

theorem store_removeItem (setup : Setup) (env : Surroundings) (m : Mailbox) (item : Item) :
    (removeItem setup env m item).store = withdraw setup env m.store item.entry := by
  obtain ⟨kept, removals, -, h⟩ := foldl_removeItem setup env m [item]
  exact congrArg store h

theorem index_removeItem (setup : Setup) (env : Surroundings) (m : Mailbox) (item : Item) :
    (removeItem setup env m item).index =
      if isUnsignable env m.store item.entry then m.index.insert item else m.index := by
  unfold removeItem removeFromStore isUnsignable Access.mint
  cases m.store.contains item.entry.hash with
  | false => rfl
  | true =>
    cases env.address with
    | none => rfl
    | some address => cases env.access.signingFails item.entry.payload <;> rfl

theorem index_foldl_removeItem (setup : Setup) (env : Surroundings) (m : Mailbox)
    (hn : (items.map Item.hash).Nodup) : (items.foldl (removeItem setup env) m).index =
      (items.filter fun item => isUnsignable env m.store item.entry).foldl Index.insert
        m.index := by
  induction items generalizing m with
  | nil => rfl
  | cons item items ih =>
    obtain ⟨hne, hn⟩ := List.nodup_cons.1 hn
    have hsame : ∀ other ∈ items, isUnsignable env (removeItem setup env m item).store other.entry =
        isUnsignable env m.store other.entry := by
      intro other ho
      have hother : other.hash ≠ item.entry.hash := fun he => hne (List.mem_map.2 ⟨other, ho, he⟩)
      have hcontains :
          (withdraw setup env m.store item.entry).contains other.hash =
            m.store.contains other.hash :=
        congrArg Option.isSome (get?_withdraw_of_ne setup env m.store hother).1
      rw [store_removeItem]
      exact congrArg (fun stored => stored && env.address.isSome &&
        env.access.signingFails other.entry.payload)
        hcontains
    rw [List.foldl_cons, ih _ hn, List.filter_congr hsame, index_removeItem, List.filter_cons]
    split <;> rfl

/-! ## Removals -/

theorem nodup_about (hv : m.index.Valid) (opened : Opened) :
    ((m.index.about opened).map Item.hash).Nodup := by
  unfold Index.about
  split
  · exact List.nodup_nil
  · exact hv.nodup_filed _

omit [Suite] in
theorem mem_of_mem_about (hi : item ∈ m.index.about opened) : item ∈ m.index.items := by
  unfold Index.about at hi
  split at hi
  · cases hi
  · exact List.mem_of_mem_filter hi

theorem store_remove (hv : m.index.Valid) (hb : m.bootstrapped = true) (opened : Opened) :
    (m.remove setup env opened).store = withdrawItems setup env m.store (m.index.about opened) := by
  rw [remove_of_bootstrapped setup env hb, Index.about]
  cases opened.message? with
  | none => rfl
  | some message =>
    simp only [Index.removeUid_snd hv]
    split
    · next hnone => rw [List.isEmpty_iff.1 hnone]; rfl
    · obtain ⟨kept, removals, -, h⟩ := foldl_removeItem setup env
        { m with index := (m.index.removeUid message.uid).1 } (m.index.filed message.uid)
      rw [h]
      rfl

/-- The other items stay in order, and behind them come those for which no removal can be signed. -/
theorem items_remove (hv : m.index.Valid) (hb : m.bootstrapped = true) (opened : Opened) :
    (m.remove setup env opened).index.items =
      (m.index.items.filter fun item => !opened.concerns item) ++
      (m.index.about opened).filter fun item => isUnsignable env m.store item.entry := by
  rw [remove_of_bootstrapped setup env hb]
  unfold Index.about Opened.concerns
  cases opened.message? with
  | none => simp
  | some message =>
    have hn := hv.nodup_filed message.uid
    have hothers : (m.index.removeUid message.uid).1.items =
        m.index.items.filter fun item => !(some message).any fun message =>
          item.uid = message.uid := by
      rw [Index.items_removeUid hv]
      exact List.filter_congr fun item _ => by simp
    simp only [Index.removeUid_snd hv]
    split
    · next hnone =>
      have hnone := List.isEmpty_iff.1 hnone
      rw [hnone, ← hothers, Index.items_removeUid hv, List.filter_nil, List.append_nil]
      exact (List.filter_eq_self.2 fun item hi => by
        simpa using List.filter_eq_nil_iff.1 hnone item hi).symm
    · let cleared : Mailbox := { m with index := (m.index.removeUid message.uid).1 }
      let kept := (m.index.filed message.uid).filter fun item => isUnsignable env m.store item.entry
      have hindex : ((m.index.filed message.uid).foldl (removeItem setup env) cleared).index =
          kept.foldl Index.insert cleared.index := index_foldl_removeItem setup env cleared hn
      have hnews : cleared.index.news kept = kept :=
        Index.news_eq_self (hn.sublist (List.filter_sublist.map _)) fun item hi =>
          Index.contains_removeUid hv (List.mem_of_mem_filter hi)
      rw [hindex, Index.items_foldl_insert, hnews, ← hothers]

theorem mem_items_remove_iff (hv : m.index.Valid) (hb : m.bootstrapped = true) (opened : Opened) :
    item ∈ (m.remove setup env opened).index.items ↔ item ∈ m.index.items ∧
      (item ∈ m.index.about opened → isUnsignable env m.store item.entry = true) := by
  rw [items_remove hv hb, Index.about_eq, List.mem_append]
  simp only [List.mem_filter, Bool.not_eq_true']
  cases opened.concerns item with
  | false => simp
  | true => simp +contextual

/-- What an event asks a bootstrapped mailbox to remove. -/
def asked? (m : Mailbox) : Event → Option Opened
  | .command (.remove opened) => some opened
  | .retry i => (m.retries[i]?).map Retry.opened
  | _ => none

end Mailbox

namespace History

variable {setup : Setup} {env : Surroundings} {s : History} {ev : Event} {opened : Opened}
  {item : Item}

/-- A removal that is put off is carried out like any other. -/
theorem turn_of_asked (hs : s.mailbox.stopped = false) (hb : s.mailbox.bootstrapped = true)
    (ha : s.mailbox.asked? ev = some opened) (env : Surroundings) :
    (s.turn setup (.event env ev)).mailbox.index =
        ({ s.mailbox with log := [] }.remove setup env opened).index ∧
      (s.turn setup (.event env ev)).mailbox.store =
        ({ s.mailbox with log := [] }.remove setup env opened).store := by
  have hcommand : (s.turn setup (.event env (.command (.remove opened)))).mailbox =
      ({ s.mailbox with log := [] }.remove setup env opened).concluded env :=
        mailbox_turn setup env _ hs
  cases ev with
  | command c =>
    cases c with
    | remove asked =>
      cases ha
      rw [hcommand]
      exact ⟨Mailbox.index_concluded, Mailbox.store_concluded⟩
    | _ => cases ha
  | retry i =>
    obtain ⟨retry, hr, rfl⟩ := Option.map_eq_some_iff.1 ha
    rw [turn_retry hs hb hr, hcommand]
    exact ⟨Mailbox.index_concluded, Mailbox.store_concluded⟩
  | _ => cases ha

/-- Whatever has happened to a mailbox and its store, a removal, asked for or put off, deals with
each item on its own. An item that is asked for goes back into the index exactly if the store holds
it and no removal can be signed, and the store drops the entry exactly if it is withdrawable: the
own address is known, the removal is signed and heeded, our key is one that may remove the payload,
and a number is left. So what has left the index has left the store, and what the store still holds
is still indexed and will not be taken in again, exactly if every item that the store held is
withdrawable or cannot be signed for. -/
theorem removal_matches_store_iff (setup : Setup)
    (hring : ∀ message, setup.ring.signatureKey.verifies message (setup.ring.sign message) = true)
    (env₀ : Surroundings) (store : Store) (disk : Disk) (turns : List Turn) (env : Surroundings)
    (ev : Event) (opened : Opened) :
    let s := (start setup env₀ store disk).run setup turns
    let s' := s.turn setup (.event env ev)
    s.mailbox.stopped = false → s.mailbox.bootstrapped = true → s.mailbox.asked? ev = some opened →
    (∀ item ∈ s.mailbox.index.items, item ∈ s'.mailbox.index.items ↔
      (item ∈ s.mailbox.index.about opened → s.mailbox.store.contains item.hash = true ∧
        env.address.isSome = true ∧ env.access.signingFails item.entry.payload = true)) ∧
    (∀ item ∈ s.mailbox.index.about opened, s'.mailbox.store.contains item.hash = true ↔
      s.mailbox.store.contains item.hash = true ∧
      ¬ Mailbox.Withdrawable setup env s.mailbox.store item.entry) ∧
    (((∀ item ∈ s.mailbox.index.lost s'.mailbox.index,
      s'.mailbox.store.contains item.hash = false) ∧
      (∀ item ∈ s.mailbox.index.about opened, s'.mailbox.store.contains item.hash = true →
        item ∈ s'.mailbox.index.items ∧ s'.mailbox.isNew item.entry = false)) ↔
      ∀ item ∈ s.mailbox.index.about opened, s.mailbox.store.contains item.hash = true →
        Mailbox.Withdrawable setup env s.mailbox.store item.entry ∨
          (env.address.isSome = true ∧ env.access.signingFails item.entry.payload = true)) := by
  intro s s' hs hb ha
  have hv : s.mailbox.index.Valid := valid_run (valid_start setup env₀ store disk) turns
  have hv' : s'.mailbox.index.Valid := valid_turn hv _
  obtain ⟨hindex, hstore⟩ := turn_of_asked hs hb ha env
  have hkept (item : Item) (hi : item ∈ s.mailbox.index.items) : item ∈ s'.mailbox.index.items ↔
      (item ∈ s.mailbox.index.about opened → s.mailbox.store.contains item.hash = true ∧
        env.address.isSome = true ∧ env.access.signingFails item.entry.payload = true) := by
    rw [show s'.mailbox.index = _ from hindex,
      Mailbox.mem_items_remove_iff (m := { s.mailbox with log := [] }) hv hb opened,
      and_iff_right hi]
    simp only [Mailbox.isUnsignable, Bool.and_eq_true, and_assoc]
    rfl
  have hstored (item : Item) (hi : item ∈ s.mailbox.index.about opened) :
      s'.mailbox.store.contains item.hash = true ↔
        s.mailbox.store.contains item.hash = true ∧
            ¬ Mailbox.Withdrawable setup env s.mailbox.store item.entry := by
    rw [show s'.mailbox.store = _ from hstore,
      Mailbox.store_remove (m := { s.mailbox with log := [] }) hv hb opened]
    exact Mailbox.contains_withdrawItems_iff hring (Mailbox.nodup_about hv opened) hi
  have hheld {item : Item} (hi : item ∈ s'.mailbox.index.items) :
      s'.mailbox.index.contains item.hash = true :=
    (hv'.contains_iff _).2 ⟨item, hi, rfl⟩
  refine ⟨hkept, hstored, ⟨fun ⟨_, hsafe⟩ item hi hbefore => ?_,
    fun hall => ⟨fun item hi => ?_, fun item hi hafter => ?_⟩⟩⟩
  · refine Classical.or_iff_not_imp_left.2 fun hnot => ?_
    have hback := (hsafe item hi ((hstored item hi).2 ⟨hbefore, hnot⟩)).1
    exact ((hkept item (Mailbox.mem_of_mem_about hi)).1 hback hi).2
  · obtain ⟨hi, hgone⟩ := List.mem_filter.1 hi
    have hdropped : item ∉ s'.mailbox.index.items := fun hback => by simp [hheld hback] at hgone
    refine Bool.eq_false_iff.2 fun hafter => hdropped ((hkept item hi).2 fun habout => ?_)
    obtain ⟨hbefore, hnot⟩ := (hstored item habout).1 hafter
    exact ⟨hbefore, (hall item habout hbefore).resolve_left hnot⟩
  · obtain ⟨hbefore, hnot⟩ := (hstored item hi).1 hafter
    have hback : item ∈ s'.mailbox.index.items :=
        (hkept item (Mailbox.mem_of_mem_about hi)).2 fun _ =>
      ⟨hbefore, (hall item hi hbefore).resolve_left hnot⟩
    exact ⟨hback, Mailbox.isNew_eq_false.2 (.inr (hheld hback))⟩

end History

end SealedMail

namespace SealedMail.History

attribute [local instance] Suite.transparent

open Transparent

/-- Two letters with the same uid are received, and their sender stores the first again. -/
def storedAgain (number : UInt32) : List Turn :=
  [.overlay fun s => s.serve (.add (entry (ring 1) (ring 2) (letter "u") 1)),
    .overlay fun s => s.serve (.add (entry (ring 3) (ring 2) (letter "u") 1)),
    .event (online 0) (.command (.addListener 7)), .event (online 0) (.command .bootstrap),
    .event (online 0) (.batch 0),
    .overlay fun s => s.serve (.add (entry (ring 1) (ring 2) (letter "u") number))]

/-- The mailbox is started again, and bootstrapped. -/
def startedAgain : List Turn :=
  [.restart (online 0), .event (online 0) (.command (.addListener 7)),
    .event (online 0) (.command .bootstrap)]

/-- A removal drops both items, and the entry that is stored again. -/
theorem letter_stored_again_removed :
    let fresh := start Transparent.setup (online 0) (.ofCapacity 8 (.sufficient 1)) ⟨[], ⟨.empty⟩⟩
    let s := fresh.run Transparent.setup (storedAgain 3)
    let s' := s.turn Transparent.setup (.event (online 0) (.command (.remove (unwanted "u"))))
    s.mailbox.store.size = 1 ∧ (s.mailbox.index.lost s'.mailbox.index).length = 2 ∧
      ∀ item ∈ s.mailbox.index.lost s'.mailbox.index,
        s'.mailbox.store.contains item.hash = false := by
  intro fresh s s'
  obtain ⟨⟨hs, hb⟩, hall, hstored, hlost⟩ :
      (s.mailbox.stopped = false ∧ s.mailbox.bootstrapped = true) ∧
      (∀ item ∈ s.mailbox.index.about (unwanted "u"), s.mailbox.store.contains item.hash = true →
        Mailbox.Withdrawable Transparent.setup (online 0) s.mailbox.store item.entry) ∧
      s.mailbox.store.size = 1 ∧ (s.mailbox.index.lost s'.mailbox.index).length = 2 := by
    decide +kernel
  obtain ⟨-, -, hmatches⟩ := removal_matches_store_iff Transparent.setup
    (KeyRing.verifies_sign Suite.transparent_laws _) (online 0) (.ofCapacity 8 (.sufficient 1))
    ⟨[], ⟨.empty⟩⟩ (storedAgain 3) (online 0) (.command (.remove (unwanted "u"))) (unwanted "u")
    hs hb rfl
  exact ⟨hstored, hlost, (hmatches.2 fun item hi hheld => .inl (hall item hi hheld)).1⟩

/-- If the own address is unknown at that moment, or the letter was stored again with the last
number there is, both items are dropped all the same and the letter stays in the store. After a
restart it is received anew. -/
theorem removed_letter_left_behind :
    let fresh := start Transparent.setup (online 0) (.ofCapacity 8 (.sufficient 1)) ⟨[], ⟨.empty⟩⟩
    (let s := fresh.run Transparent.setup (storedAgain 3)
     let s' := s.turn Transparent.setup
      (.event { online 0 with address := none } (.command (.remove (unwanted "u"))))
     s.mailbox.bootstrapped = true ∧ s'.mailbox.index.items = [] ∧
      (∃ item ∈ s.mailbox.index.lost s'.mailbox.index, s'.mailbox.store.contains item.hash = true) ∧
      (s'.reports 7).length = 2 ∧ ((s'.run Transparent.setup startedAgain).reports 7).length = 3) ∧
    let s := fresh.run Transparent.setup (storedAgain 0xFFFFFFFF)
    let s' := s.turn Transparent.setup (.event (online 0) (.command (.remove (unwanted "u"))))
    s.mailbox.bootstrapped = true ∧ s'.mailbox.index.items = [] ∧
      (∃ item ∈ s.mailbox.index.lost s'.mailbox.index, s'.mailbox.store.contains item.hash = true) ∧
      (s'.reports 7).length = 2 ∧
      ((s'.run Transparent.setup startedAgain).reports 7).length = 3 := by
  constructor <;> decide +kernel

end SealedMail.History
