import SealedMail.Proofs.Mailbox.Removal

/-!
# Items that go back

A removal takes all items under a uid out of the index before it asks for the first signature, and
an item for which there is none is inserted again. So it goes back to the end of the list: the
others stay in order, and so do those that go back, but the list is what it was without the items
that were removed only if nothing that goes back stood before an item of another uid
(`History.removal_keeps_order_iff`).
-/

namespace SealedMail

/-! ## Lists -/

/-- Putting some elements behind the others changes nothing exactly if no other one comes after
them. -/
theorem filter_not_append_filter_eq_iff {α : Type} (p : α → Bool) (as : List α) :
    (as.filter fun a => !p a) ++ as.filter p = as ↔
      as.Pairwise fun a b => p a = true → p b = true := by
  induction as with
  | nil => simp
  | cons a as ih =>
    rw [List.pairwise_cons]
    cases hp : p a with
    | false =>
      rw [List.filter_cons_of_pos (by simp [hp]), List.filter_cons_of_neg (by simp [hp]),
        List.cons_append,
        List.cons.injEq, ih]
      simp
    | true =>
      rw [List.filter_cons_of_neg (by simp [hp]), List.filter_cons_of_pos hp]
      constructor
      · intro h
        have hnone : as.filter (fun b => !p b) = [] := by
          cases hothers : as.filter (fun b => !p b) with
          | nil => rfl
          | cons b bs =>
            rw [hothers, List.cons_append, List.cons.injEq] at h
            have hb : b ∈ as.filter fun b => !p b := hothers ▸ List.mem_cons_self
            simp [h.1, hp] at hb
        have hall : ∀ b ∈ as, p b = true :=
          fun b hb => by simpa using List.filter_eq_nil_iff.1 hnone b hb
        exact ⟨fun b hb _ => hall b hb,
          List.pairwise_of_forall_mem_list fun b _ c hc _ => hall c hc⟩
      · rintro ⟨hall, -⟩
        have hall : ∀ b ∈ as, p b = true := fun b hb => hall b hb rfl
        rw [List.filter_eq_nil_iff.2 fun b hb => by simp [hall b hb], List.filter_eq_self.2 hall,
          List.nil_append]

variable [Suite]

theorem Index.Valid.ext {x y : Index} (hx : x.Valid) (hy : y.Valid) (h : x.items = y.items) :
    x = y := by
  have hbyUid : x.byUid = y.byUid := SortedMap.ext_get? fun uid => by
    rw [hx.byUid, hy.byUid, Index.filed, Index.filed, h]
  have hhashes : x.hashes = y.hashes := SortedMap.ext_contains fun hash => by
    have hiff : x.contains hash = true ↔ y.contains hash = true := by
      rw [hx.contains_iff, hy.contains_iff, h]
    exact Bool.eq_iff_iff.2 hiff
  cases x
  cases y
  exact Index.mk.injEq _ _ _ _ _ _ ▸ ⟨h, hbyUid, hhashes⟩

omit [Suite] in
theorem Disk.items_after_writes (d : Disk) (env : Surroundings) (m : Mailbox) :
    (d.after (m.writes env)).items = if m.itemsChanged && env.canWriteItems then m.index.items
      else d.items := by
  unfold Mailbox.writes
  cases m.itemsChanged && env.canWriteItems <;> cases m.ledgerChanged && env.canWriteLedger <;> rfl

namespace Mailbox

variable {setup : Setup} {env : Surroundings} {m : Mailbox} {opened : Opened}

/-! ## One removal -/

/-- An item that is to be dropped goes back, because no removal can be signed. -/
def returns (env : Surroundings) (m : Mailbox) (opened : Opened) (item : Item) : Bool :=
  opened.concerns item && isUnsignable env m.store item.entry

/-- An item stays: it is not to be dropped, or it goes back. -/
def stays (env : Surroundings) (m : Mailbox) (opened : Opened) (item : Item) : Bool :=
  !opened.concerns item || isUnsignable env m.store item.entry

theorem items_remove_eq (hv : m.index.Valid) (hb : m.bootstrapped = true) (opened : Opened) :
    (m.remove setup env opened).index.items =
      (m.index.items.filter fun item => !opened.concerns item) ++
        m.index.items.filter (m.returns env opened) := by
  rw [items_remove hv hb, Index.about_eq, List.filter_filter]
  congr 1
  exact List.filter_congr fun item _ => Bool.and_comm ..

/-- The items that stay are listed as before exactly if none that goes back stood before an item of
another uid. -/
theorem items_remove_eq_filter_iff (hv : m.index.Valid) (hb : m.bootstrapped = true)
    (opened : Opened) :
    (m.remove setup env opened).index.items = m.index.items.filter (m.stays env opened) ↔
      m.index.items.Pairwise fun a b => m.returns env opened a = true →
        opened.concerns b = true := by
  have hothers : m.index.items.filter (fun item => !opened.concerns item) =
      (m.index.items.filter (m.stays env opened)).filter fun item => !opened.concerns item := by
    rw [List.filter_filter]
    exact List.filter_congr fun item _ => by rw [stays]; cases opened.concerns item <;> simp
  have hback : m.index.items.filter (m.returns env opened) =
      (m.index.items.filter (m.stays env opened)).filter opened.concerns := by
    rw [List.filter_filter]
    exact List.filter_congr fun item _ => by
      rw [stays, returns]; cases opened.concerns item <;> simp
  rw [items_remove_eq hv hb, hothers, hback, filter_not_append_filter_eq_iff, List.pairwise_filter]
  refine List.Pairwise.iff fun a b => ?_
  rw [stays, stays, returns]
  cases opened.concerns a <;> cases opened.concerns b <;> simp

/-- If every item goes back, the list is as before exactly if none of them stood before an item of
another uid. -/
theorem items_remove_eq_self_iff (hv : m.index.Valid) (hb : m.bootstrapped = true)
    (hall : ∀ item ∈ m.index.about opened, isUnsignable env m.store item.entry = true) :
    (m.remove setup env opened).index.items = m.index.items ↔
      m.index.items.Pairwise fun a b => opened.concerns a = true → opened.concerns b = true := by
  have hback :
      m.index.items.filter (m.returns env opened) = m.index.items.filter opened.concerns := by
    refine List.filter_congr fun item hi => ?_
    cases hc : opened.concerns item with
    | false => simp [returns, hc]
    | true => simp [returns, hc, hall item (m.index.about_eq opened ▸ List.mem_filter.2 ⟨hi, hc⟩)]
  rw [items_remove_eq hv hb, hback, filter_not_append_filter_eq_iff]

theorem itemsChanged_remove (hv : m.index.Valid) (hb : m.bootstrapped = true) (opened : Opened) :
    (m.remove setup env opened).itemsChanged =
      (m.itemsChanged || !(m.index.about opened).isEmpty) := by
  rw [remove_of_bootstrapped setup env hb, Index.about]
  cases opened.message? with
  | none => simp
  | some message =>
    simp only [Index.removeUid_snd hv]
    split
    · next hnone => simp [hnone]
    · next hsome => simp [hsome]

theorem written_remove (setup : Setup) (env : Surroundings) (m : Mailbox) (opened : Opened) :
    written (m.remove setup env opened).log = written m.log := by
  rcases remove_cases setup env m opened with ⟨retries, h⟩ | ⟨message, -, h⟩
  · rw [h]
  · exact h.written

theorem stopped_remove (setup : Setup) (env : Surroundings) (m : Mailbox) (opened : Opened) :
    (m.remove setup env opened).stopped = m.stopped := by
  rcases remove_cases setup env m opened with ⟨retries, h⟩ | ⟨message, -, h⟩
  · rw [h]
  · exact h.stopped

end Mailbox

namespace History

variable {setup : Setup} {env : Surroundings} {s : History} {ev : Event} {opened : Opened}

/-! ## Turns -/

theorem itemsChanged_turn (h : s.mailbox.itemsChanged = false) (t : Turn) :
    (s.turn setup t).mailbox.itemsChanged = false := by
  cases t with
  | overlay change => exact h
  | restart env => rfl
  | event env ev =>
    obtain ⟨m', m, -, hflushed, hturn⟩ := turn_event setup s env ev
    rw [hturn]
    cases hflushed with
    | stopped _ _ _ hitems => exact hitems.trans h
    | flushed => rfl

theorem itemsChanged_run (h : s.mailbox.itemsChanged = false) (turns : List Turn) :
    (s.run setup turns).mailbox.itemsChanged = false := by
  induction turns generalizing s with
  | nil => exact h
  | cons t turns ih => exact ih (itemsChanged_turn h t)

theorem disk_of_asked (hs : s.mailbox.stopped = false) (hb : s.mailbox.bootstrapped = true)
    (ha : s.mailbox.asked? ev = some opened) (env : Surroundings) :
    (s.turn setup (.event env ev)).disk =
      (s.turn setup (.event env (.command (.remove opened)))).disk := by
  cases ev with
  | command c =>
    cases c with
    | remove asked => cases ha; rfl
    | _ => cases ha
  | retry i =>
    obtain ⟨retry, hr, rfl⟩ := Option.map_eq_some_iff.1 ha
    rw [turn_retry hs hb hr]
  | _ => cases ha

theorem items_disk_of_asked (hv : s.mailbox.index.Valid) (hwritten : s.mailbox.itemsChanged = false)
    (hs : s.mailbox.stopped = false) (hb : s.mailbox.bootstrapped = true)
    (ha : s.mailbox.asked? ev = some opened) (env : Surroundings) :
    (s.turn setup (.event env ev)).disk.items =
      if !(s.mailbox.index.about opened).isEmpty && env.canWriteItems then
        (s.turn setup (.event env ev)).mailbox.index.items
      else s.disk.items := by
  let m : Mailbox := { s.mailbox with log := [] }
  have hlog : written (m.remove setup env opened).log = [] :=
    Mailbox.written_remove setup env m opened
  have hruns : (m.remove setup env opened).stopped = false :=
    (Mailbox.stopped_remove setup env m opened).trans hs
  have hmailbox : (s.turn setup (.event env (.command (.remove opened)))).mailbox =
      (m.remove setup env opened).flush env := by
    rw [mailbox_turn setup env _ hs]
    exact if_neg (by simp [m, Mailbox.handle, Mailbox.handleCommand, hruns])
  rw [(turn_of_asked hs hb ha env).1, disk_of_asked hs hb ha env, disk_turn_event, hmailbox,
    Mailbox.log_flush, Disk.after_append, Disk.after_eq_of_written hlog, Disk.items_after_writes,
    Mailbox.itemsChanged_remove (m := m) hv hb opened, show m.itemsChanged = false from hwritten,
    Bool.false_or]

/-- Whatever has happened to a mailbox and its store, a removal, asked for or put off, lists the
other items in order, and behind them in order those that go back because no removal can be signed.
So the list is the earlier one without the items that were removed exactly if no item that goes back
stood before an item of another uid. If every item goes back, the index is exactly on that condition
what it was, and with it what is answered to a query; and so is the list on disk if it was that of
the index. The list is written if there was something to remove and it can be written. -/
theorem removal_keeps_order_iff (setup : Setup) (env₀ : Surroundings) (store : Store) (disk : Disk)
    (turns : List Turn) (env : Surroundings) (ev : Event) (opened : Opened) :
    let s := (start setup env₀ store disk).run setup turns
    let s' := s.turn setup (.event env ev)
    let items := s.mailbox.index.items
    s.mailbox.stopped = false → s.mailbox.bootstrapped = true → s.mailbox.asked? ev = some opened →
    s'.mailbox.index.items =
      (items.filter fun item => !opened.concerns item) ++
        items.filter (s.mailbox.returns env opened) ∧
    (s'.mailbox.index.items = items.filter (s.mailbox.stays env opened) ↔
      items.Pairwise fun a b => s.mailbox.returns env opened a = true → opened.concerns b = true) ∧
    s'.disk.items =
      (if !(s.mailbox.index.about opened).isEmpty && env.canWriteItems then s'.mailbox.index.items
      else s.disk.items) ∧
    ((∀ item ∈ s.mailbox.index.about opened,
      Mailbox.isUnsignable env s.mailbox.store item.entry = true) →
      (s'.mailbox.index = s.mailbox.index ↔
        items.Pairwise fun a b => opened.concerns a = true → opened.concerns b = true) ∧
      ((items.Pairwise fun a b => opened.concerns a = true → opened.concerns b = true) →
        s'.mailbox.index.firstMessages = s.mailbox.index.firstMessages ∧
          (s.disk.items = items → s'.disk.items = s.disk.items))) := by
  intro s s' items hs hb ha
  have hv : s.mailbox.index.Valid := valid_run (valid_start setup env₀ store disk) turns
  have hv' : s'.mailbox.index.Valid := valid_turn hv _
  have hindex : s'.mailbox.index = ({ s.mailbox with log := [] }.remove setup env opened).index :=
    (turn_of_asked hs hb ha env).1
  have horder : s'.mailbox.index.items = items.filter (s.mailbox.stays env opened) ↔
      items.Pairwise fun a b => s.mailbox.returns env opened a = true →
        opened.concerns b = true := by
    rw [hindex]
    exact Mailbox.items_remove_eq_filter_iff (m := { s.mailbox with log := [] }) hv hb opened
  have hdisk : s'.disk.items =
      if !(s.mailbox.index.about opened).isEmpty && env.canWriteItems then s'.mailbox.index.items
      else s.disk.items :=
    items_disk_of_asked hv (itemsChanged_run rfl turns) hs hb ha env
  refine ⟨?_, horder, hdisk, fun hall => ?_⟩
  · rw [hindex]
    exact Mailbox.items_remove_eq (m := { s.mailbox with log := [] }) hv hb opened
  · have hitems : s'.mailbox.index.items = items ↔
        items.Pairwise fun a b => opened.concerns a = true → opened.concerns b = true := by
      rw [hindex]
      exact Mailbox.items_remove_eq_self_iff (m := { s.mailbox with log := [] }) hv hb hall
    have hsame : s'.mailbox.index = s.mailbox.index ↔
        items.Pairwise fun a b => opened.concerns a = true → opened.concerns b = true :=
      Iff.trans ⟨congrArg Index.items, hv'.ext hv⟩ hitems
    refine ⟨hsame, fun hordered => ?_⟩
    have heq := hsame.2 hordered
    refine ⟨congrArg Index.firstMessages heq, fun hsaved => ?_⟩
    rw [hdisk, heq]
    split
    · exact hsaved.symm
    · rfl

end History

end SealedMail

namespace SealedMail.History

attribute [local instance] Suite.transparent

open Transparent

/-- No removal can be signed for these payloads. -/
def unsigning (fails : Payload → Bool) : Surroundings :=
  { online 0 with access := { signingFails := fails } }

/-- Letters come one by one while nothing can be signed, so they stay in the store. -/
def gathered (es : List Entry) : List Turn :=
  .event (unsigning fun _ => true) (.command .bootstrap) ::
    es.flatMap fun e =>
      [.overlay fun s => s.serve (.add e), .event (unsigning fun _ => true) .notice]

/-- Two letters under one uid come after another letter. -/
def lastLetters : List Entry :=
  [entry (ring 1) (ring 2) (letter "v") 1, entry (ring 1) (ring 2) (letter "u") 1,
    entry (ring 3) (ring 2) (letter "u") 1]

/-- If a removal can be signed for one of the two, the other goes back to where it was. If it can be
for neither, nothing changes. -/
theorem last_letters_go_back :
    let fresh := start Transparent.setup (online 0) (.ofCapacity 8 (.sufficient 1)) ⟨[], ⟨.empty⟩⟩
    let s := fresh.run Transparent.setup (gathered lastLetters)
    let one := unsigning fun p => p.senderKey = (ring 1).signatureKey
    let none := unsigning fun _ => true
    let s₁ := s.turn Transparent.setup (.event one (.command (.remove (unwanted "u"))))
    let s₀ := s.turn Transparent.setup (.event none (.command (.remove (unwanted "u"))))
    (s.mailbox.stopped = false ∧ s.mailbox.bootstrapped = true ∧
        s.mailbox.asked? (.command (.remove (unwanted "u"))) = some (unwanted "u")) ∧
      (s.mailbox.index.items.map Item.uid = ["v", "u", "u"] ∧
        s₁.mailbox.index.items.map Item.uid = ["v", "u"]) ∧
      s₁.mailbox.index.items = s.mailbox.index.items.filter (s.mailbox.stays one (unwanted "u")) ∧
      s₀.mailbox.index = s.mailbox.index ∧
      s₀.mailbox.index.firstMessages = s.mailbox.index.firstMessages ∧
      s₀.disk.items = s.disk.items := by
  obtain ⟨⟨hs, hb⟩, hone, hall, hordered, hsaved, huids⟩ :
      let fresh := start Transparent.setup (online 0) (.ofCapacity 8 (.sufficient 1)) ⟨[], ⟨.empty⟩⟩
      let s := fresh.run Transparent.setup (gathered lastLetters)
      let one := unsigning fun p => p.senderKey = (ring 1).signatureKey
      let s₁ := s.turn Transparent.setup (.event one (.command (.remove (unwanted "u"))))
      (s.mailbox.stopped = false ∧ s.mailbox.bootstrapped = true) ∧
      (s.mailbox.index.items.Pairwise fun a b =>
        s.mailbox.returns one (unwanted "u") a = true → (unwanted "u").concerns b = true) ∧
      (∀ item ∈ s.mailbox.index.about (unwanted "u"),
        Mailbox.isUnsignable (unsigning fun _ => true) s.mailbox.store item.entry = true) ∧
      (s.mailbox.index.items.Pairwise fun a b => (unwanted "u").concerns a = true →
        (unwanted "u").concerns b = true) ∧
      s.disk.items = s.mailbox.index.items ∧
      (s.mailbox.index.items.map Item.uid = ["v", "u", "u"] ∧
        s₁.mailbox.index.items.map Item.uid = ["v", "u"]) := by
    decide +kernel
  have hremoval (env : Surroundings) := removal_keeps_order_iff Transparent.setup (online 0)
    (.ofCapacity 8 (.sufficient 1)) ⟨[], ⟨.empty⟩⟩ (gathered lastLetters) env
    (.command (.remove (unwanted "u"))) (unwanted "u") hs hb rfl
  obtain ⟨-, hlist, -, -⟩ := hremoval (unsigning fun p => p.senderKey = (ring 1).signatureKey)
  obtain ⟨-, -, -, hnone⟩ := hremoval (unsigning fun _ => true)
  obtain ⟨hsame, hshown⟩ := hnone hall
  obtain ⟨hfirst, hdisk⟩ := hshown hordered
  exact ⟨⟨hs, hb, rfl⟩, huids, hlist.2 hone, hsame.2 hordered, hfirst, hdisk hsaved⟩

/-- A letter comes before another one, and no removal of it can be signed. It is kept, but behind
the other: in the index, in the answer to a query and on disk. -/
theorem kept_letter_moved_back :
    let fresh := start Transparent.setup (online 0) (.ofCapacity 8 (.sufficient 1)) ⟨[], ⟨.empty⟩⟩
    let s := fresh.run Transparent.setup
      (gathered [entry (ring 1) (ring 2) (letter "u") 1, entry (ring 1) (ring 2) (letter "v") 1])
    let none := unsigning fun _ => true
    let s' := s.turn Transparent.setup (.event none (.command (.remove (unwanted "u"))))
    s.mailbox.bootstrapped = true ∧
      (∀ item ∈ s.mailbox.index.about (unwanted "u"),
        Mailbox.isUnsignable none s.mailbox.store item.entry = true) ∧
      s'.mailbox.index.items ≠ s.mailbox.index.items.filter (s.mailbox.stays none (unwanted "u")) ∧
      (s.mailbox.index.items.map Item.uid = ["u", "v"] ∧
        s'.mailbox.index.items.map Item.uid = ["v", "u"]) ∧
      s'.mailbox.index.firstMessages = s.mailbox.index.firstMessages.reverse ∧
      s'.mailbox.index.firstMessages ≠ s.mailbox.index.firstMessages ∧
      (s.disk.items.map Item.uid = ["u", "v"] ∧ s'.disk.items.map Item.uid = ["v", "u"]) := by
  decide +kernel

end SealedMail.History
