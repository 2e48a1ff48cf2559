import Mathlib.Data.List.Infix
import SealedMail.Proofs.Crypto.Transparent
import SealedMail.Proofs.Mailbox.Awaiting
import SealedMail.Proofs.Mailbox.Notification
import SealedMail.Proofs.Sending.Course

/-!
# Store and forward

A message that ends in the store is delivered to the mailbox it was sealed to. The history `Awaits`
the entry, turn by turn, until an event opens it; from then on it `Holds` the item, in the index and
on disk, until a removal drops it.
-/

namespace SealedMail

variable [Suite]

/-- Nobody else changes what is stored under a hash, and the mailbox reads, opens, withdraws and
writes. -/
def Turn.Undisturbed (hash : PayloadHash) : Turn → Prop
  | .event env _ =>
    env.Reads ∧ env.openingFails = false ∧ env.access = .full ∧ env.canWriteItems = true
  | .overlay change => ∃ r : Store.Request, r.hash ≠ hash ∧ change = fun s => s.serve r
  | .restart _ => False

omit [Suite] in
/-- The mailbox goes on and writes, whatever others do. -/
def Turn.Continues : Turn → Prop
  | .event env _ => env.canWriteItems = true
  | .overlay _ => True
  | .restart _ => False

theorem Turn.Undisturbed.continues {hash : PayloadHash} {t : Turn} (h : t.Undisturbed hash) :
    t.Continues := by
  cases t with
  | event env ev => exact h.2.2.2
  | overlay change => trivial
  | restart env => exact h

namespace History

open Mailbox (toldOf toldOf_append)

variable {setup : Setup} {s : History} {t : Turn} {turns : List Turn} {item : Item}

omit [Suite] in
/-- What a listener was told of a payload so far. -/
def reportsOf (s : History) (id : Nat) (hash : PayloadHash) : List Report :=
  toldOf id hash s.effects

/-! ## Items that are held -/

structure Holds (item : Item) (s : History) : Prop where
  valid : s.mailbox.index.Valid
  indexed : item ∈ s.mailbox.index.items
  onDisk : item ∈ s.disk.items

theorem count_dropped_le_turn (setup : Setup) (s : History) (t : Turn) (hash : PayloadHash) :
    s.dropped.count hash ≤ (s.turn setup t).dropped.count hash := by
  cases t with
  | event env ev => simp only [turn, List.count_append]; omega
  | overlay change => exact Nat.le_refl _
  | restart env => exact Nat.le_refl _

theorem count_dropped_le_run (setup : Setup) (s : History) (turns : List Turn)
    (hash : PayloadHash) : s.dropped.count hash ≤ (s.run setup turns).dropped.count hash := by
  induction turns generalizing s with
  | nil => exact Nat.le_refl _
  | cons t turns ih => exact Nat.le_trans (count_dropped_le_turn setup s t hash) (ih _)

theorem mem_items_event (hv : s.mailbox.index.Valid) (hi : item ∈ s.mailbox.index.items)
    {env : Surroundings} {ev : Event}
    (hkept : (s.turn setup (.event env ev)).dropped.count item.hash = s.dropped.count item.hash) :
    item ∈ (s.turn setup (.event env ev)).mailbox.index.items := by
  obtain ⟨m', m, hm, hf, hturn⟩ := turn_event setup s env ev
  rw [hturn] at hkept ⊢
  simp only [hf.index] at hkept ⊢
  rcases hm.admitted with ⟨es, hes, -⟩ | ⟨hev, uid, hc⟩
  · rw [hes.index, Index.items_foldl_insert]
    exact List.mem_append_left _ hi
  · cases hcontains : m'.index.contains item.hash with
    | true =>
      obtain ⟨other, ho, hh⟩ := ((hc.valid hv).contains_iff item.hash).1 hcontains
      rwa [hv.eq_of_hash (hc.mem_of_mem hv ho) hi hh] at ho
    | false =>
      have := Index.count_lost_pos hv ((hv.contains_iff item.hash).2 ⟨item, hi, rfl⟩) hcontains
      simp only [hev, if_true, List.count_append] at hkept
      omega

/-- An item that is held stays so unless it is dropped, and no more is told of its payload. -/
theorem Holds.turn (h : Holds item s) (ht : t.Continues)
    (hkept : (s.turn setup t).dropped.count item.hash = s.dropped.count item.hash) :
    Holds item (s.turn setup t) ∧
      ∀ id, (s.turn setup t).reportsOf id item.hash = s.reportsOf id item.hash := by
  cases t with
  | overlay change => exact ⟨⟨h.valid, h.indexed, h.onDisk⟩, fun _ => rfl⟩
  | restart env => exact ht.elim
  | event env ev =>
    have hindexed := mem_items_event h.valid h.indexed hkept
    obtain ⟨m', m, hm, hf, hturn⟩ := turn_event setup s env ev
    have hcontains := (h.valid.contains_iff item.hash).2 ⟨item, h.indexed, rfl⟩
    have htold (id : Nat) : toldOf id item.hash m.log = [] := by
      rw [hf.toldOf_eq]
      rcases hm.admitted with ⟨es, hes, -⟩ | ⟨-, uid, hc⟩
      · refine hes.toldOf_eq ?_ id
        intro other ho hh
        have := Index.not_contains_of_mem_news ho
        rw [hh] at this
        exact absurd (this.symm.trans hcontains) Bool.false_ne_true
      · rw [toldOf, hc.told]
        rfl
    rw [hturn] at hindexed ⊢
    refine ⟨⟨hf.index ▸ hm.valid h.valid, hindexed,
      mem_items_after hm hf ht (fun _ => h.onDisk) hindexed⟩, ?_⟩
    intro id
    rw [reportsOf, toldOf_append, htold, List.append_nil]
    rfl

theorem Holds.run (h : Holds item s) (ht : ∀ t ∈ turns, t.Continues)
    (hkept : (s.run setup turns).dropped.count item.hash = s.dropped.count item.hash) :
    Holds item (s.run setup turns) ∧
      ∀ id, (s.run setup turns).reportsOf id item.hash = s.reportsOf id item.hash := by
  induction turns generalizing s with
  | nil => exact ⟨h, fun _ => rfl⟩
  | cons t turns ih =>
    obtain ⟨ht, hts⟩ := List.forall_mem_cons.1 ht
    have h1 := count_dropped_le_turn setup s t item.hash
    have h2 := count_dropped_le_run setup (s.turn setup t) turns item.hash
    rw [run_cons] at hkept
    have hnow : (s.turn setup t).dropped.count item.hash = s.dropped.count item.hash := by omega
    obtain ⟨hturn, hreports⟩ := h.turn ht hnow
    obtain ⟨hrun, hreports'⟩ := ih hturn hts (hkept.trans hnow.symm)
    exact ⟨hrun, fun id => (hreports' id).trans (hreports id)⟩

/-! ## Stores that have lost the entry -/

theorem withdrawn_turn {hash : PayloadHash} (h : s.mailbox.store.entries.get? hash = none)
    (ht : t.Undisturbed hash) : (s.turn setup t).mailbox.store.entries.get? hash = none := by
  cases t with
  | event env ev =>
    obtain ⟨m', m, hm, hf, hturn⟩ := turn_event setup s env ev
    rw [hturn]
    exact hf.store ▸ hm.reduced.get?_eq_none h
  | overlay change =>
    obtain ⟨r, hr, rfl⟩ := ht
    exact (s.mailbox.store.get?_serve_of_ne (Ne.symm hr)).1.trans h
  | restart env => exact ht.elim

theorem withdrawn_run {hash : PayloadHash} (h : s.mailbox.store.entries.get? hash = none)
    (ht : ∀ t ∈ turns, t.Undisturbed hash) :
    (s.run setup turns).mailbox.store.entries.get? hash = none := by
  induction turns generalizing s with
  | nil => exact h
  | cons t turns ih =>
    obtain ⟨ht, hts⟩ := List.forall_mem_cons.1 ht
    exact ih (withdrawn_turn h ht) hts

/-! ## From the addition to the item -/

section Delivery

variable {report : Report}

theorem awaits_turn (laws : Suite.Laws) (hopening : item.entry.opening setup.ring = .received item)
    (howner : item.entry.payload.ownerKey = setup.ring.signatureKey)
    (hreport : item.report? = some report) (h : s.mailbox.Awaits setup item.entry)
    (ht : t.Undisturbed item.hash) :
    ((s.turn setup t).mailbox.Awaits setup item.entry ∧
      ∀ id, (s.turn setup t).reportsOf id item.hash = s.reportsOf id item.hash) ∨
    (Holds item (s.turn setup t) ∧ (s.turn setup t).mailbox.store.entries.get? item.hash = none ∧
      ∀ id, s.mailbox.listeners.contains id = true →
        (s.turn setup t).reportsOf id item.hash = s.reportsOf id item.hash ++ [report]) := by
  have h₀ := h.unlogged []
  cases t with
  | restart env => exact ht.elim
  | overlay change =>
    obtain ⟨r, hr, rfl⟩ := ht
    exact .inl ⟨h₀.serve hr, fun _ => rfl⟩
  | event env ev =>
    obtain ⟨hreads, hopens, haccess, hwrites⟩ := ht
    obtain ⟨m', m, hm, hf, hturn⟩ := turn_event setup s env ev
    have heffects (id : Nat) : (s.turn setup (.event env ev)).reportsOf id item.hash =
        s.reportsOf id item.hash ++ toldOf id item.hash m'.log := by
      rw [hturn, reportsOf, toldOf_append, hf.toldOf_eq]
      rfl
    rcases hm.awaits_or_opens h₀ hreads hopens with ⟨ha, htold⟩ | ⟨es, hes, hknown, he⟩
    · refine .inl ⟨hturn ▸ ha.flushed hf, ?_⟩
      intro id
      rw [heffects, show toldOf id item.hash m'.log = [] from htold id, List.append_nil]
    · obtain ⟨hindexed, hwithdrawn, htold⟩ :=
        h₀.opened laws hm hes hknown he hopening howner hreport hreads haccess
      have hi : item ∈ m.index.items := hf.index ▸ hindexed
      have hold : item ∉ s.mailbox.index.items := fun hi => absurd
        (h.fresh.symm.trans ((h.consistent.valid.contains_iff item.hash).2 ⟨item, hi, rfl⟩))
        Bool.false_ne_true
      refine .inr ⟨?_, ?_, ?_⟩
      · rw [hturn]
        exact ⟨hf.index ▸ hm.valid h.consistent.valid, hi,
          mem_items_after hm hf hwrites (fun hi => absurd hi hold) hi⟩
      · rw [hturn]
        exact hf.store ▸ hwithdrawn
      · intro id hid
        rw [heffects, htold id hid]
        rfl

theorem awaits_run (laws : Suite.Laws) (hopening : item.entry.opening setup.ring = .received item)
    (howner : item.entry.payload.ownerKey = setup.ring.signatureKey)
    (hreport : item.report? = some report) (h : s.mailbox.Awaits setup item.entry)
    (ht : ∀ t ∈ turns, t.Undisturbed item.hash)
    (hkept : (s.run setup turns).dropped.count item.hash = s.dropped.count item.hash) :
    (s.run setup turns).mailbox.Awaits setup item.entry ∨
    (Holds item (s.run setup turns) ∧
      (s.run setup turns).mailbox.store.entries.get? item.hash = none ∧
      ∀ id, Registered setup s id turns →
        (s.run setup turns).reportsOf id item.hash = s.reportsOf id item.hash ++ [report]) := by
  induction turns generalizing s with
  | nil => exact .inl h
  | cons t turns ih =>
    obtain ⟨ht, hts⟩ := List.forall_mem_cons.1 ht
    have h1 := count_dropped_le_turn setup s t item.hash
    have h2 := count_dropped_le_run setup (s.turn setup t) turns item.hash
    rw [run_cons] at hkept
    have hnow : (s.turn setup t).dropped.count item.hash = s.dropped.count item.hash := by omega
    rcases awaits_turn laws hopening howner hreport h ht with ⟨ha, htold⟩ | ⟨hh, hw, htold⟩
    · rcases ih ha hts (hkept.trans hnow.symm) with ha | ⟨hh, hw, hreports⟩
      · exact .inl ha
      · exact .inr ⟨hh, hw, fun id hid => by rw [run_cons, hreports id hid.tail, htold]⟩
    · obtain ⟨hrun, hreports⟩ := hh.run (fun t ht => (hts t ht).continues) (hkept.trans hnow.symm)
      exact .inr ⟨hrun, withdrawn_run (s := s.turn setup t) hw hts, fun id hid =>
        (hreports id).trans (htold id hid.head)⟩

end Delivery

/-- An entry is not awaited any more by a mailbox that is complete, unless its uid is ignored. -/
theorem contains_ledger_of_awaits {m : Mailbox} (h : m.Awaits setup item.entry) (hm : Complete m)
    (hopening : item.entry.opening setup.ring = .received item) :
    m.ledger.contains item.entry.uid = true := by
  rcases h.awaited hm.bootstrapped with (hs | hs | hs) | hu
  · rcases Mailbox.isNew_eq_false.1 hs with hl | hi
    · exact hl
    · exact absurd (h.fresh.symm.trans hi) Bool.false_ne_true
  · exact absurd (hm.opened ▸ hs) List.not_mem_nil
  · rw [hopening] at hs
    cases hs
  · exact absurd hu hm.not_unread

/-- A send to a mailbox that ends in the store, under a hash that neither the store has recorded nor
the mailbox has indexed, makes the mailbox await the entry. -/
theorem awaits_of_stores {sender : KeyRing} {message : Message} {payload : Payload} {store : Store}
    (h : s.mailbox.Consistent)
    (hstored : Stores sender setup.ring.publicRing message payload s.mailbox.store store)
    (hunseen : s.mailbox.store.sequences.get? payload.hash = none)
    (hnew : s.mailbox.index.contains payload.hash = false) :
    ∃ e : Entry, e.payload = payload ∧
      (s.turn setup (.overlay fun _ => store)).mailbox.Awaits setup e := by
  obtain ⟨now, hadd⟩ := hstored.add
  have hsequence : s.mailbox.store.nextSequence payload.hash = 1 := by
    rw [Store.nextSequence, hunseen]
  exact ⟨_, rfl, (Mailbox.Awaits.added h hadd hunseen hsequence hnew).unlogged []⟩

/-- A message that is sealed to a mailbox's ring and ends in the store, under a hash that neither
the store has recorded nor the mailbox has indexed, is delivered, unless its uid comes to be ignored
before its entry is opened. Once the mailbox is complete, the store has lost the entry, and every
listener that stayed registered has been told of the payload exactly once more: of the message, the
sender's key and the sender's address. Until a removal drops it, the item is indexed and on disk,
nothing more is told of it, and a query shows it or an earlier item of the same uid. -/
theorem stored_message_delivered (laws : Suite.Laws) (setup : Setup) (env : Surroundings)
    (capacity : Nat) (broadcast : Broadcast) (requests : List Store.Request) (disk : Disk)
    (before during later : List Turn) (sender : KeyRing) (message : Message) (payload : Payload)
    (store : Store) (s sent : History)
    (hs : s =
      (start setup env (requests.foldl Store.serve (.ofCapacity capacity broadcast)) disk).run
      setup before)
    (hbefore : ∀ t ∈ before, t.Served)
    (hstored : Stores sender setup.ring.publicRing message payload s.mailbox.store store)
    (hsent : sent = s.turn setup (.overlay fun _ => store))
    (hunseen : s.mailbox.store.sequences.get? payload.hash = none)
    (hnew : s.mailbox.index.contains payload.hash = false)
    (hduring : ∀ t ∈ during, t.Undisturbed payload.hash)
    (hledger : ∀ done, done <+: during →
      (sent.run setup done).mailbox.ledger.contains message.uid = true →
      (sent.run setup done).mailbox.index.contains payload.hash = true)
    (hcomplete : Complete (sent.run setup during).mailbox)
    (hlater : ∀ t ∈ later, t.Continues)
    (hkept : (sent.run setup (during ++ later)).dropped.count payload.hash =
      s.dropped.count payload.hash) :
    (sent.run setup during).mailbox.store.contains payload.hash = false ∧
    ((∀ t ∈ later, t.Undisturbed payload.hash) →
      (sent.run setup (during ++ later)).mailbox.store.contains payload.hash = false) ∧
    (∀ id, Registered setup sent id during →
      (sent.run setup (during ++ later)).reportsOf id payload.hash = s.reportsOf id payload.hash ++
        [⟨payload.hash, ⟨.mailbox message, sender.signatureKey⟩, message.sender⟩]) ∧
    ∃ item : Item, item.entry.payload = payload ∧
      item.opened = ⟨.mailbox message, sender.signatureKey⟩ ∧
      item ∈ (sent.run setup (during ++ later)).mailbox.index.items ∧
      item ∈ (sent.run setup (during ++ later)).disk.items ∧
      ∃ first : Item, first.uid = message.uid ∧
        first.opened ∈ (sent.run setup (during ++ later)).mailbox.index.firstMessages ∧
        (first = item ∨
          [first, item].Sublist (sent.run setup (during ++ later)).mailbox.index.items) := by
  have hconsistent : s.mailbox.Consistent := by
    have hstore := Store.orderly_foldl_serve (Store.orderly_ofCapacity capacity broadcast) requests
    rw [hs]
    exact consistent_run (Mailbox.consistent_restore setup env disk.items disk.ledger hstore)
      hbefore
  obtain ⟨e, rfl, hawaits⟩ := awaits_of_stores hconsistent hstored hunseen hnew
  rw [← hsent] at hawaits
  let item : Item := ⟨e, ⟨.mailbox message, sender.signatureKey⟩⟩
  have hhash : item.hash = e.payload.hash := rfl
  have hopening : item.entry.opening setup.ring = .received item := hstored.opening laws rfl
  have howner : item.entry.payload.ownerKey = setup.ring.signatureKey := hstored.ownerKey
  have hreport : item.report? = some ⟨item.hash, item.opened, message.sender⟩ := rfl
  have hreports (id : Nat) : sent.reportsOf id e.payload.hash = s.reportsOf id e.payload.hash := by
    rw [hsent]
    rfl
  have hdropped : sent.dropped = s.dropped := by
    rw [hsent]
    rfl
  rw [run_append] at hkept ⊢
  have h1 := count_dropped_le_run setup sent during e.payload.hash
  have h2 := count_dropped_le_run setup (sent.run setup during) later e.payload.hash
  rw [hdropped] at h1
  have hduringKept :
      (sent.run setup during).dropped.count item.hash = sent.dropped.count item.hash := by
    rw [hhash, hdropped]
    omega
  rcases awaits_run laws hopening howner hreport hawaits hduring hduringKept
    with ha | ⟨hh, hw, htold⟩
  · have hl := contains_ledger_of_awaits ha hcomplete hopening
    have huid : item.entry.uid = message.uid := hstored.uid
    have hi := hledger during (List.prefix_refl during) (huid ▸ hl)
    exact absurd (ha.fresh.symm.trans hi) Bool.false_ne_true
  · have hlaterKept : ((sent.run setup during).run setup later).dropped.count item.hash =
        (sent.run setup during).dropped.count item.hash := by
      rw [hhash]
      omega
    obtain ⟨hheld, hsilent⟩ := hh.run hlater hlaterKept
    refine ⟨SortedMap.get?_eq_none_iff.1 hw,
      fun hl => SortedMap.get?_eq_none_iff.1 (withdrawn_run hw hl),
      fun id hid => ?_, item, rfl, rfl, hheld.indexed, hheld.onDisk, ?_⟩
    · rw [← hhash, hsilent id, htold id hid, hhash, hreports]
    · exact Index.exists_first hheld.indexed

end History

end SealedMail

/-! ## A letter to the second ring -/

namespace SealedMail.History

attribute [local instance] Suite.transparent

open Transparent

def letterOutlook : Outlook where
  running := true
  bootstrapped := true
  address := some (letter "u").sender
  connections := 1
  capabilities _ := some (.ofList [.noAddressPrefix])

def letterDelivery : Delivery where
  peer := ⟨"b.onion", 2⟩
  receiverKey := (ring 2).signatureKey
  ttl := (letter "u").ttl
  parcel := (payload (ring 1) (ring 2) (letter "u")).parcel

def letterPayload : Payload := payload (ring 1) (ring 2) (letter "u")

def letterPrepared : Prepared × Draws :=
  prepare (ring 1) (ring 1).sealEnvelope letterOutlook letterDelivery.peer
    (some (ring 2).publicRing) (letter "u") zeros

theorem letterPrepared_eq : letterPrepared = (.ready letterDelivery, letterPrepared.2) := by
  have h : letterPrepared.1 = .ready letterDelivery := by decide +kernel
  rw [← h]

/-- The recipient of the letter cannot be reached, and nobody else uses the store meanwhile. -/
def letterPassage : Passage where
  before := letterOutlook
  sealer := (ring 1).sealEnvelope
  draws := zeros
  transport peer _ := .error (.peerUnreachable peer.toText)
  meanwhile s := s
  after := letterOutlook
  access := .full
  now := ⟨0⟩

/-- The first ring sends the letter. -/
def sendLetter (s : Store) : Sending :=
  letterPassage.send (ring 1) letterDelivery.peer (some (ring 2).publicRing) (letter "u") s

/-- The store after the letter was sent. -/
def withLetter (s : Store) : Store := (sendLetter s).store

theorem stores_letter {s : Store} (h : (sendLetter s).result = .ok .stored) :
    Stores (ring 1) (ring 2).publicRing (letter "u") letterPayload s (withLetter s) := by
  have hpayload : letterDelivery.payload (ring 1) = letterPayload := by decide +kernel
  obtain ⟨d, rest, hprepared, hstores⟩ := stores_of_send rfl rfl h
  obtain ⟨hd, -⟩ := Prod.mk.inj (hprepared.symm.trans letterPrepared_eq)
  obtain rfl : d = letterDelivery := Prepared.ready.inj hd
  rwa [hpayload] at hstores

/-- A mailbox that was started on an empty store. -/
def afterTurns (turns : List Turn) : History :=
  (start Transparent.setup (online 0) (.ofCapacity 8 (.sufficient 1)) ⟨[], ⟨.empty⟩⟩).run
    Transparent.setup turns

/-- The mailbox after the letter was sent and more turns were taken. -/
def afterLetter (before during : List Turn) : History :=
  ((afterTurns before).turn Transparent.setup (.overlay fun _ =>
    withLetter (afterTurns before).mailbox.store)).run
    Transparent.setup during

/-- The mailbox is bootstrapped after the letter was sent. Later the letter is added once more. -/
theorem letter_delivered_once :
    let before := [.event (online 0) (.command (.addListener 7))]
    let during := [.event (online 0) (.command .bootstrap), .event (online 0) .notice]
    let later := [.overlay fun s => s.serve (.add (entry (ring 1) (ring 2) (letter "u") 3)),
      .event (online 0) .notice]
    (afterLetter before during).mailbox.store.contains letterPayload.hash = false ∧
      (afterLetter before (during ++ later)).reportsOf 7 letterPayload.hash =
        (afterTurns before).reportsOf 7 letterPayload.hash ++
          [⟨letterPayload.hash, ⟨.mailbox (letter "u"), (ring 1).signatureKey⟩,
            (letter "u").sender⟩] := by
  intro before during later
  have hreads : (online 0).Reads := ⟨_, rfl, List.not_mem_nil⟩
  obtain ⟨hstored, hunseen, hnew, hledger, hlisteners⟩ :
      (sendLetter (afterTurns before).mailbox.store).result = .ok .stored ∧
        (afterTurns before).mailbox.store.sequences.get? letterPayload.hash = none ∧
        (afterTurns before).mailbox.index.contains letterPayload.hash = false ∧
        (∀ done ∈ during.inits, (afterLetter before done).mailbox.ledger.contains "u" = true →
          (afterLetter before done).mailbox.index.contains letterPayload.hash = true) ∧
        ∀ done ∈ during.inits, (afterLetter before done).mailbox.listeners.contains 7 = true := by
    decide +kernel
  obtain ⟨hb, hplace, hread, hpending, hkept⟩ :
      (afterLetter before during).mailbox.bootstrapped = true ∧
        (afterLetter before during).mailbox.place = some 2 ∧
        (afterLetter before during).mailbox.store.feed.read? 2 = none ∧
        (afterLetter before during).mailbox.pending = [] ∧
        (afterLetter before (during ++ later)).dropped.count letterPayload.hash =
          (afterTurns before).dropped.count letterPayload.hash := by
    decide +kernel
  have hundisturbed : ∀ t ∈ during, t.Undisturbed letterPayload.hash := by
    simp only [during, Turn.Undisturbed, List.forall_mem_cons]
    exact ⟨⟨hreads, rfl, rfl, rfl⟩, ⟨hreads, rfl, rfl, rfl⟩, List.forall_mem_nil _⟩
  have hcontinues : ∀ t ∈ later, t.Continues := by
    simp only [later, Turn.Continues, List.forall_mem_cons]
    exact ⟨trivial, rfl, List.forall_mem_nil _⟩
  have hcomplete : Complete (afterLetter before during).mailbox :=
    complete_of_place hb hplace hread hpending
  have h := stored_message_delivered Suite.transparent_laws Transparent.setup (online 0) 8
    (.sufficient 1) [] {} before during later (ring 1) (letter "u") letterPayload
    (withLetter (afterTurns before).mailbox.store) (afterTurns before) _ rfl
    (by simp [before, Turn.Served]) (stores_letter hstored) rfl hunseen hnew hundisturbed
    (fun done hd => hledger done ((List.mem_inits done during).2 hd))
    hcomplete hcontinues hkept
  exact ⟨h.1, h.2.2.1 7 fun done hd => hlisteners done ((List.mem_inits done during).2 hd)⟩

/-- A letter to another ring with the same uid is read after the letter was sent and before it is
read. Its uid is ignored, and the letter is passed over. And where the items cannot be written, the
letter is received but not kept. -/
theorem letter_not_delivered :
    (let before := [.event (online 0) (.command (.addListener 7)),
        .event (online 0) (.command .bootstrap),
        .overlay fun s => s.serve (.add (entry (ring 1) (ring 3) (letter "u") 1))]
      let during := [.event (online 0) .notice, .event (online 0) .notice]
      (∀ t ∈ before, t.Served) ∧
        Stores (ring 1) (ring 2).publicRing (letter "u") letterPayload
          (afterTurns before).mailbox.store (withLetter (afterTurns before).mailbox.store) ∧
        (afterTurns before).mailbox.store.sequences.get? letterPayload.hash = none ∧
        (afterTurns before).mailbox.index.contains letterPayload.hash = false ∧
        (afterTurns before).mailbox.ledger.contains "u" = false ∧
        (∀ t ∈ during, t.Undisturbed letterPayload.hash) ∧
        Complete (afterLetter before during).mailbox ∧
        (afterLetter before during).mailbox.store.contains letterPayload.hash = true ∧
        (afterLetter before during).mailbox.index.contains letterPayload.hash = false ∧
        (afterLetter before during).reportsOf 7 letterPayload.hash =
          (afterTurns before).reportsOf 7 letterPayload.hash) ∧
    let env := { online 0 with canWriteItems := false }
    let during := [.event env (.command .bootstrap), .event env .notice]
    Complete (afterLetter [] during).mailbox ∧
      (afterLetter [] during).mailbox.index.contains letterPayload.hash = true ∧
      (afterLetter [] during).disk.items = [] := by
  have hreads : (online 0).Reads := ⟨_, rfl, List.not_mem_nil⟩
  refine ⟨?_, ?_⟩
  · intro before during
    obtain ⟨hstored, hunseen, hnew, hledger, hb, hplace, hread, hpending, hlost⟩ :
        (sendLetter (afterTurns before).mailbox.store).result = .ok .stored ∧
          (afterTurns before).mailbox.store.sequences.get? letterPayload.hash = none ∧
          (afterTurns before).mailbox.index.contains letterPayload.hash = false ∧
          (afterTurns before).mailbox.ledger.contains "u" = false ∧
          (afterLetter before during).mailbox.bootstrapped = true ∧
          (afterLetter before during).mailbox.place = some 2 ∧
          (afterLetter before during).mailbox.store.feed.read? 2 = none ∧
          (afterLetter before during).mailbox.pending = [] ∧
          (afterLetter before during).mailbox.store.contains letterPayload.hash = true ∧
          (afterLetter before during).mailbox.index.contains letterPayload.hash = false ∧
          (afterLetter before during).reportsOf 7 letterPayload.hash =
            (afterTurns before).reportsOf 7 letterPayload.hash := by
      decide +kernel
    refine ⟨?_, stores_letter hstored, hunseen, hnew, hledger, ?_,
      complete_of_place hb hplace hread hpending, hlost⟩
    · simp only [before, List.forall_mem_cons]
      exact ⟨trivial, trivial, ⟨_, rfl⟩, fun _ h => absurd h List.not_mem_nil⟩
    · simp only [during, Turn.Undisturbed, List.forall_mem_cons]
      exact ⟨⟨hreads, rfl, rfl, rfl⟩, ⟨hreads, rfl, rfl, rfl⟩, fun _ h => absurd h List.not_mem_nil⟩
  · intro env during
    obtain ⟨hb, hplace, hread, hpending, hlost⟩ :
        (afterLetter [] during).mailbox.bootstrapped = true ∧
          (afterLetter [] during).mailbox.place = some 2 ∧
          (afterLetter [] during).mailbox.store.feed.read? 2 = none ∧
          (afterLetter [] during).mailbox.pending = [] ∧
          (afterLetter [] during).mailbox.index.contains letterPayload.hash = true ∧
          (afterLetter [] during).disk.items = [] := by
      decide +kernel
    exact ⟨complete_of_place hb hplace hread hpending, hlost⟩

end SealedMail.History
