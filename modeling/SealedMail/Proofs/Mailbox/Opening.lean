import SealedMail.Proofs.Mailbox.Index
import SealedMail.Proofs.Mailbox.Report
import SealedMail.Proofs.Mailbox.Withdrawal

/-!
# Entries that are opened

`Mailbox.applyAll` applies openings one after the other. What that comes to is said apart for the
index, the ledger, the store, the listeners and the rest (`Applied`): the items that they bring are
inserted, the uids of others are ignored, every listener is told of the items that are new, and
these are withdrawn from the store. `Mailbox.openAll` does so with the openings of entries
(`Admitted`).
-/

namespace SealedMail

/-! ## Kinds of openings -/

namespace Opening

def item? : Opening → Option Item
  | received item => some item
  | _ => none

/-- The uid that an entry of others makes us ignore, with its time. -/
def ignored? : Opening → Option (String × Timestamp)
  | notForUs uid created => some (uid, created)
  | _ => none

def isMalformed : Opening → Bool
  | malformed .. => true
  | _ => false

/-- The item that is to be inserted: one that holds a message. -/
def arrival? (o : Opening) : Option Item := o.item?.filter fun item => item.message?.isSome

end Opening

/-- The items that openings bring, in order. -/
def brought (os : List Opening) : List Item := os.filterMap Opening.arrival?

theorem brought_append (os more : List Opening) :
    brought (os ++ more) = brought os ++ brought more :=
  List.filterMap_append

/-- Ignore the uid of what is not for us. -/
def Ledger.heed (l : Ledger) (o : Opening) : Ledger :=
  match o.ignored? with
  | some (uid, created) => l.ignore uid created
  | none => l

variable [Suite]

/-- The items that entries open to, in order. -/
def received (ring : KeyRing) (es : List Entry) : List Item :=
  es.filterMap fun e => (e.opening ring).item?

theorem opening_of_received {ring : KeyRing} {e : Entry} {item : Item}
    (h : e.opening ring = .received item) :
    item.entry = e ∧ item.message?.isSome = true ∧
      ring.openEnvelope e.payload.parcel.sealed = .ok item.opened := by
  unfold Entry.opening at h
  split at h
  · cases h
  · cases h
  · next opened ho =>
    split at h
    · next item' hi =>
      cases h
      obtain ⟨message, hm, rfl⟩ := Option.map_eq_some_iff.1 hi
      exact ⟨rfl, by simp [Item.message?, hm], ho⟩
    · cases h

theorem opening_of_notForUs {ring : KeyRing} {e : Entry} {uid : String} {created : Timestamp}
    (h : e.opening ring = .notForUs uid created) : uid = e.uid ∧ created = e.created := by
  unfold Entry.opening at h
  split at h
  · cases h; exact ⟨rfl, rfl⟩
  · cases h
  · split at h <;> cases h

theorem mem_received {ring : KeyRing} {es : List Entry} {item : Item} :
    item ∈ received ring es ↔ item.entry ∈ es ∧ item.entry.opening ring = .received item := by
  simp only [received, List.mem_filterMap]
  constructor
  · rintro ⟨e, he, hi⟩
    cases ho : e.opening ring with
    | received item' =>
      rw [ho] at hi
      cases hi
      obtain ⟨rfl, -, -⟩ := opening_of_received ho
      exact ⟨he, ho⟩
    | notForUs => rw [ho] at hi; cases hi
    | malformed => rw [ho] at hi; cases hi
  · rintro ⟨he, ho⟩
    exact ⟨item.entry, he, by rw [ho]; rfl⟩

theorem received_append (ring : KeyRing) (es ds : List Entry) :
    received ring (es ++ ds) = received ring es ++ received ring ds :=
  List.filterMap_append

theorem isSome_message?_of_mem_received {ring : KeyRing} {es : List Entry} {item : Item}
    (h : item ∈ received ring es) : item.message?.isSome = true :=
  (opening_of_received (mem_received.1 h).2).2.1

theorem brought_map_opening (ring : KeyRing) (es : List Entry) :
    brought (es.map fun e => e.opening ring) = received ring es := by
  rw [brought, received, List.filterMap_map]
  refine List.filterMap_congr fun e _ => ?_
  cases ho : e.opening ring with
  | received item => simp [Opening.arrival?, Opening.item?, ho, (opening_of_received ho).2.1]
  | notForUs uid created => simp [Opening.arrival?, Opening.item?, ho]
  | malformed uid reason => simp [Opening.arrival?, Opening.item?, ho]

/-- Whether an entry is not for us. -/
def Entry.isForeign (ring : KeyRing) (e : Entry) : Bool := (e.opening ring).ignored?.isSome

/-- Ignore the uid of an entry that is not for us. -/
def Ledger.note (ring : KeyRing) (l : Ledger) (e : Entry) : Ledger :=
  match (e.opening ring).ignored? with
  | some (uid, created) => l.ignore uid created
  | none => l

namespace Mailbox

/-! ## Reception -/

theorem receive_old {setup : Setup} {env : Surroundings} {m : Mailbox} {item : Item}
    (h : m.index.contains item.hash = true) : receive setup env m item = m := by
  unfold receive
  split
  · rfl
  · rw [if_pos h]

theorem receive_new (setup : Setup) (env : Surroundings) {m : Mailbox} {item : Item}
    {message : Message} (hm : item.message? = some message)
    (h : m.index.contains item.hash = false) :
    ∃ removals : List Entry, receive setup env m item =
      { m with
        index := m.index.insert item
        itemsChanged := true
        store := withdrawAll setup env m.bootstrapped m.store [item] }.logging
      (m.listeners.keys.flatMap (tell env item message.sender) ++ removals.map Effect.removed) := by
  unfold receive
  rw [hm]
  simp only [h, Bool.false_eq_true, if_false]
  cases hb : m.bootstrapped with
  | false => exact ⟨[], by simp [withdrawAll, logging]⟩
  | true =>
    simp only [logging, if_true]
    split
    · next m' hr =>
      obtain ⟨removals, rfl⟩ := removeFromStore_ok hr
      exact ⟨removals, by simp [withdrawAll, withdrawItems, logging]⟩
    · next error hr =>
      have := withdraw_of_error hr
      refine ⟨[], ?_⟩
      simp only [withdrawAll, withdrawItems, if_true, List.foldl_cons, List.foldl_nil, List.map_nil,
        List.append_nil]
      rw [this]

/-! ## What admission comes to -/

/-- What a mailbox may keep when it opens entries. -/
structure SameFrame (m m' : Mailbox) : Prop where
  listeners : m'.listeners = m.listeners
  bootstrapped : m'.bootstrapped = m.bootstrapped
  place : m'.place = m.place
  queued : m'.queued = m.queued
  running : m'.running = m.running
  retries : m'.retries = m.retries
  stopped : m'.stopped = m.stopped

omit [Suite] in
theorem SameFrame.refl (m : Mailbox) : SameFrame m m := ⟨rfl, rfl, rfl, rfl, rfl, rfl, rfl⟩

omit [Suite] in
theorem SameFrame.trans {m m' m'' : Mailbox} (h : SameFrame m m') (h' : SameFrame m' m'') :
    SameFrame m m'' where
  listeners := h'.listeners.trans h.listeners
  bootstrapped := h'.bootstrapped.trans h.bootstrapped
  place := h'.place.trans h.place
  queued := h'.queued.trans h.queued
  running := h'.running.trans h.running
  retries := h'.retries.trans h.retries
  stopped := h'.stopped.trans h.stopped

theorem apply_frame (setup : Setup) (env : Surroundings) (m : Mailbox) (o : Opening) :
    SameFrame m (m.apply setup env o) := by
  cases o with
  | received item =>
    cases hm : item.message? with
    | none => simp only [apply, receive, hm]; exact .refl m
    | some message =>
      cases hc : m.index.contains item.hash with
      | true => rw [apply, receive_old hc]; exact .refl m
      | false =>
        obtain ⟨removals, h⟩ := receive_new setup env hm hc
        rw [apply, h]
        exact ⟨rfl, rfl, rfl, rfl, rfl, rfl, rfl⟩
  | notForUs uid created =>
    simp only [apply]
    split
    · exact .refl m
    · exact ⟨rfl, rfl, rfl, rfl, rfl, rfl, rfl⟩
  | malformed uid reason => exact .refl m

/-- A mailbox has applied openings one after the other. -/
structure Applied (setup : Setup) (env : Surroundings) (os : List Opening) (m m' : Mailbox) :
    Prop where
  index : m'.index = (brought os).foldl Index.insert m.index
  ledger : m'.ledger = os.foldl Ledger.heed m.ledger
  store : m'.store = withdrawAll setup env m'.bootstrapped m.store (m.index.news (brought os))
  notices : notices m'.log = notices m.log ++
    (m.index.news (brought os)).flatMap (Item.notices m.listeners.keys)
  written : written m'.log = written m.log
  itemsChanged : m'.itemsChanged = (m.itemsChanged || !(m.index.news (brought os)).isEmpty)
  ledgerChanged : m'.ledgerChanged = true ∨ m'.ledgerChanged = m.ledgerChanged ∧
    m'.ledger = m.ledger

theorem Applied.append {setup : Setup} {env : Surroundings} {os more : List Opening}
    {m m' m'' : Mailbox} (h : Applied setup env os m m') (h' : Applied setup env more m' m'')
    (hl : m'.listeners = m.listeners) (hb : m''.bootstrapped = m'.bootstrapped) :
    Applied setup env (os ++ more) m m'' := by
  have hnews :
      m.index.news (brought (os ++ more)) = m.index.news (brought os) ++
        m'.index.news (brought more) := by
    rw [brought_append, Index.news_append, ← h.index]
  refine ⟨?_, ?_, ?_, ?_, h'.written.trans h.written, ?_, ?_⟩
  · rw [h'.index, h.index, brought_append, List.foldl_append]
  · rw [h'.ledger, h.ledger, List.foldl_append]
  · rw [hnews, withdrawAll_append, h'.store, hb, ← h.store]
  · rw [h'.notices, h.notices, hnews, hl, List.flatMap_append, List.append_assoc]
  · rw [h'.itemsChanged, h.itemsChanged, hnews]
    cases m.index.news (brought os) <;> simp
  · rcases h'.ledgerChanged with h1 | ⟨h1, h2⟩
    · exact .inl h1
    · rw [h1, h2]; exact h.ledgerChanged

/-- An opening that brings no new item and no uid to ignore. -/
theorem Applied.nothing {setup : Setup} {env : Surroundings} {m : Mailbox} {o : Opening}
    (ho : ∀ item, o.arrival? = some item → m.index.contains item.hash = true)
    (hl : m.ledger.heed o = m.ledger) : Applied setup env [o] m m := by
  cases hi : o.arrival? with
  | none =>
    have hb : brought [o] = [] := by simp [brought, hi]
    exact ⟨by rw [hb]; rfl, hl.symm, by simp [hb, Index.news], by simp [hb, Index.news], rfl, by
      simp [hb, Index.news],
      .inr ⟨rfl, rfl⟩⟩
  | some item =>
    have hc := ho item hi
    have hb : brought [o] = [item] := by simp [brought, hi]
    have hn : m.index.news [item] = [] := by simp [Index.news, hc]
    exact ⟨by simp [hb, Index.insert_of_contains hc], hl.symm, by simp [hb, hn], by simp [hb,
      hn], rfl, by simp [hb, hn],
      .inr ⟨rfl, rfl⟩⟩

theorem apply_applied (setup : Setup) (env : Surroundings) (m : Mailbox) (o : Opening) :
    Applied setup env [o] m (m.apply setup env o) := by
  cases o with
  | received item =>
    cases hm : item.message? with
    | none =>
      have hsame : m.apply setup env (.received item) = m := by simp only [apply, receive, hm]
      have hnone : (Opening.received item).arrival? = none := by
        simp [Opening.arrival?, Opening.item?, hm]
      rw [hsame]
      exact .nothing (by simp [hnone]) rfl
    | some message =>
      have harrival : (Opening.received item).arrival? = some item := by
        simp [Opening.arrival?, Opening.item?, hm]
      cases hc : m.index.contains item.hash with
      | true =>
        rw [apply, receive_old hc]
        exact .nothing (by simp [harrival, hc]) rfl
      | false =>
        have hb : brought [.received item] = [item] := by simp [brought, harrival]
        have hn : m.index.news [item] = [item] := by simp [Index.news, hc]
        obtain ⟨removals, h⟩ := receive_new setup env hm hc
        rw [apply, h]
        exact ⟨by simp [hb, logging], rfl, by simp [hb, hn, logging],
          by simp [hb, hn, logging, notices_tell_all env hm], by simp [logging, written_tell_all],
          by simp [hb, hn, logging], .inr ⟨rfl, rfl⟩⟩
  | notForUs uid created =>
    have hnone : (Opening.notForUs uid created).arrival? = none := rfl
    have hb : brought [.notForUs uid created] = [] := rfl
    simp only [apply]
    split
    · next hc => exact .nothing (by simp [hnone]) (if_pos hc)
    · exact ⟨by rw [hb]; rfl, rfl, by simp [hb, Index.news], by simp [hb, Index.news], rfl, by
        simp [hb, Index.news],
        .inl rfl⟩
  | malformed uid reason =>
    have hnone : (Opening.malformed uid reason).arrival? = none := rfl
    exact .nothing (by simp [hnone]) rfl

/-- Apply openings one after the other. -/
def applyAll (setup : Setup) (env : Surroundings) (m : Mailbox) (os : List Opening) : Mailbox :=
  os.foldl (apply setup env) m

theorem applyAll_frame (setup : Setup) (env : Surroundings) (m : Mailbox) (os : List Opening) :
    SameFrame m (m.applyAll setup env os) := by
  induction os generalizing m with
  | nil => exact .refl m
  | cons o os ih => exact (apply_frame setup env m o).trans (ih _)

theorem applyAll_applied (setup : Setup) (env : Surroundings) (m : Mailbox) (os : List Opening) :
    Applied setup env os m (m.applyAll setup env os) := by
  induction os generalizing m with
  | nil =>
    exact ⟨rfl,
      rfl, by simp [applyAll, brought, Index.news], by simp [applyAll, brought, Index.news], rfl,
      by simp [applyAll, brought, Index.news], .inr ⟨rfl, rfl⟩⟩
  | cons o os ih =>
    exact (apply_applied setup env m o).append (ih _) (apply_frame setup env m o).listeners
      (applyAll_frame setup env _ os).bootstrapped

/-! ## Entries that are opened -/

/-- A mailbox has opened entries one after the other. -/
structure Admitted (setup : Setup) (env : Surroundings) (es : List Entry) (m m' : Mailbox) :
    Prop where
  index : m'.index = (received setup.ring es).foldl Index.insert m.index
  ledger : m'.ledger = es.foldl (Ledger.note setup.ring) m.ledger
  store : m'.store =
    withdrawAll setup env m'.bootstrapped m.store (m.index.news (received setup.ring es))
  notices : notices m'.log = notices m.log ++
    (m.index.news (received setup.ring es)).flatMap (Item.notices m.listeners.keys)
  written : written m'.log = written m.log
  itemsChanged :
    m'.itemsChanged = (m.itemsChanged || !(m.index.news (received setup.ring es)).isEmpty)
  ledgerChanged : m'.ledgerChanged = true ∨ m'.ledgerChanged = m.ledgerChanged ∧
    m'.ledger = m.ledger

/-- Opening entries is applying their openings. -/
theorem admitted_iff {setup : Setup} {env : Surroundings} {es : List Entry} {m m' : Mailbox} :
    Admitted setup env es m m' ↔ Applied setup env (es.map fun e => e.opening setup.ring) m m' := by
  have hledger : (es.map fun e => e.opening setup.ring).foldl Ledger.heed m.ledger =
      es.foldl (Ledger.note setup.ring) m.ledger := List.foldl_map
  constructor
  · rintro ⟨h1, h2, h3, h4, h5, h6, h7⟩
    exact ⟨by rwa [brought_map_opening], h2.trans hledger.symm, by rwa [brought_map_opening],
      by rwa [brought_map_opening], h5, by rwa [brought_map_opening], h7⟩
  · rintro ⟨h1, h2, h3, h4, h5, h6, h7⟩
    rw [brought_map_opening] at h1 h3 h4 h6
    exact ⟨h1, h2.trans hledger, h3, h4, h5, h6, h7⟩

theorem Admitted.nil {setup : Setup} {env : Surroundings} {m m' : Mailbox}
    (hindex : m'.index = m.index) (hledger : m'.ledger = m.ledger) (hstore : m'.store = m.store)
    (hlog : ∃ effects, m'.log = m.log ++ effects ∧ ∀ effect ∈ effects, effect.IsQuiet)
    (hitems : m'.itemsChanged = m.itemsChanged) (hmarks : m'.ledgerChanged = m.ledgerChanged) :
    Admitted setup env [] m m' where
  index := hindex
  ledger := hledger
  store := by simpa [received, Index.news] using hstore
  notices := by
    obtain ⟨effects, hl, hq⟩ := hlog
    simp [hl, notices_eq_nil hq, received, Index.news]
  written := by
    obtain ⟨effects, hl, hq⟩ := hlog
    simp [hl, written_eq_nil hq]
  itemsChanged := by simp [hitems, received, Index.news]
  ledgerChanged := .inr ⟨hmarks, hledger⟩

theorem Admitted.append {setup : Setup} {env : Surroundings} {es ds : List Entry}
    {m m' m'' : Mailbox} (h : Admitted setup env es m m') (h' : Admitted setup env ds m' m'')
    (hl : m'.listeners = m.listeners) (hb : m''.bootstrapped = m'.bootstrapped) :
    Admitted setup env (es ++ ds) m m'' := by
  rw [admitted_iff, List.map_append]
  exact (admitted_iff.1 h).append (admitted_iff.1 h') hl hb

theorem Admitted.told {setup : Setup} {env : Surroundings} {es : List Entry} {m m' : Mailbox}
    (h : Admitted setup env es m m') (id : Nat) : heard id m'.log = heard id m.log ++
      if m.listeners.contains id then (m.index.news (received setup.ring es)).filterMap Item.report?
      else [] := by
  rw [heard, h.notices, reportsFor_append, reportsFor_flatMap_notices id m.listeners.nodup_keys]
  simp only [SortedMap.mem_keys_iff]
  rfl

/-- Open entries one after the other. -/
def openAll (setup : Setup) (env : Surroundings) (m : Mailbox) (es : List Entry) : Mailbox :=
  es.foldl (fun m e => m.apply setup env (e.opening setup.ring)) m

theorem openAll_eq (setup : Setup) (env : Surroundings) (m : Mailbox) (es : List Entry) :
    m.openAll setup env es = m.applyAll setup env (es.map fun e => e.opening setup.ring) :=
  List.foldl_map.symm

theorem openAll_frame (setup : Setup) (env : Surroundings) (m : Mailbox) (es : List Entry) :
    SameFrame m (m.openAll setup env es) :=
  openAll_eq setup env m es ▸ applyAll_frame setup env m _

theorem openAll_admitted (setup : Setup) (env : Surroundings) (m : Mailbox) (es : List Entry) :
    Admitted setup env es m (m.openAll setup env es) := by
  rw [admitted_iff, openAll_eq]
  exact applyAll_applied setup env m _

end Mailbox

end SealedMail
