import SealedMail.Proofs.Mailbox.Handling

/-!
# Events

Every event falls under one case of `Handled`: the mailbox stays as it is but for listeners, waiting
removals and the like, it takes in what the overlay shows, it opens a batch, or it drops the items
under a uid. What each case does to the index, the ledger, the store and the listeners is
`Handled.admitted` and `Handled.cleared`.
-/

namespace SealedMail

/-- Whether an event may drop items: a removal, or a removal that is tried again. -/
def Event.isRemoval : Event → Bool
  | .command (.remove _) => true
  | .retry _ => true
  | _ => false

namespace Mailbox

variable [Suite] {setup : Setup} {env : Surroundings} {m m' : Mailbox} {e : Entry} {ev : Event}

/-! ## Removals -/

/-- The mailbox has dropped the items under a uid, but for those of which no removal could be
signed. -/
structure Cleared (setup : Setup) (env : Surroundings) (uid : String) (m m' : Mailbox) : Prop where
  index : ∃ kept : List Item, kept.Sublist (m.index.removeUid uid).2 ∧
    m'.index = kept.foldl Index.insert (m.index.removeUid uid).1
  store : m'.store = withdrawItems setup env m.store (m.index.removeUid uid).2
  notices : notices m'.log = notices m.log
  written : written m'.log = written m.log
  itemsChanged : m'.itemsChanged = true
  ledger : m'.ledger = m.ledger
  ledgerChanged : m'.ledgerChanged = m.ledgerChanged
  listeners : m'.listeners = m.listeners
  bootstrapped : m'.bootstrapped = m.bootstrapped
  place : m'.place = m.place
  queued : m'.queued = m.queued
  running : m'.running = m.running
  stopped : m'.stopped = m.stopped

theorem foldl_removeItem (setup : Setup) (env : Surroundings) (m : Mailbox) (items : List Item) :
    ∃ kept : List Item, ∃ removals : List Entry, kept.Sublist items ∧
      items.foldl (removeItem setup env) m =
        { m with
          index := kept.foldl Index.insert m.index
          store := withdrawItems setup env m.store items }.logging
          (removals.map Effect.removed) := by
  induction items generalizing m with
  | nil => exact ⟨[], [], .slnil, by simp [logging, withdrawItems]⟩
  | cons item items ih =>
    simp only [List.foldl_cons]
    cases hr : removeFromStore setup env m item.entry with
    | ok m' =>
      obtain ⟨removals, rfl⟩ := removeFromStore_ok hr
      obtain ⟨kept, more, hk, h⟩ := ih (removeItem setup env m item)
      refine ⟨kept, removals ++ more, hk.cons item, ?_⟩
      rw [h]
      simp [removeItem, hr, logging, withdrawItems]
    | error error =>
      obtain ⟨kept, more, hk, h⟩ := ih (removeItem setup env m item)
      refine ⟨item :: kept, more, hk.cons_cons item, ?_⟩
      rw [h]
      simp [removeItem, hr, logging, withdrawItems, withdraw_of_error hr]

/-- A removal changes nothing but the list of those that wait, or clears a uid. -/
theorem remove_cases (setup : Setup) (env : Surroundings) (m : Mailbox) (opened : Opened) :
    (∃ retries, m.remove setup env opened = { m with retries }) ∨
    ∃ message, opened.message? = some message ∧
      Cleared setup env message.uid m (m.remove setup env opened) := by
  unfold remove
  split
  · exact .inl ⟨_, rfl⟩
  · split
    · exact .inl ⟨m.retries, rfl⟩
    · next message hm =>
      simp only []
      split
      · exact .inl ⟨m.retries, rfl⟩
      · obtain ⟨kept, removals, hk, h⟩ := foldl_removeItem setup env
          { m with index := (m.index.removeUid message.uid).1 } (m.index.removeUid message.uid).2
        rw [h]
        exact .inr ⟨message, hm, ⟨kept, hk, rfl⟩,
          rfl, by simp [logging], by simp [logging], rfl, rfl, rfl, rfl,
          rfl, rfl, rfl, rfl, rfl⟩

theorem Cleared.told {uid : String} (h : Cleared setup env uid m m') (id : Nat) :
    heard id m'.log = heard id m.log :=
  congrArg (reportsFor id) h.notices

theorem Cleared.valid {uid : String} (h : Cleared setup env uid m m') (hv : m.index.Valid) :
    m'.index.Valid := by
  obtain ⟨kept, -, hi⟩ := h.index
  rw [hi]
  exact (hv.removeUid uid).foldl_insert kept

theorem Cleared.mem_of_mem {uid : String} (h : Cleared setup env uid m m') (hv : m.index.Valid)
    {item : Item} (hi : item ∈ m'.index.items) : item ∈ m.index.items := by
  obtain ⟨kept, hk, he⟩ := h.index
  rw [he, Index.items_foldl_insert, Index.items_removeUid hv] at hi
  rw [Index.removeUid_snd hv] at hk
  rcases List.mem_append.1 hi with hi | hi
  · exact List.mem_of_mem_filter hi
  · exact List.mem_of_mem_filter (hk.subset (Index.mem_of_mem_news hi))

theorem Cleared.contains {uid : String} (h : Cleared setup env uid m m') (hv : m.index.Valid)
    {hash : PayloadHash} (hc : m'.index.contains hash = true) : m.index.contains hash = true := by
  obtain ⟨item, hi, hh⟩ := ((h.valid hv).contains_iff hash).1 hc
  exact (hv.contains_iff hash).2 ⟨item, h.mem_of_mem hv hi, hh⟩

theorem Cleared.gained_eq_nil {uid : String} (h : Cleared setup env uid m m') (hv : m.index.Valid) :
    Index.gained m.index m'.index = [] :=
  List.filter_eq_nil_iff.2 fun item hi => by
    simp [h.contains hv (((h.valid hv).contains_iff _).2 ⟨item, hi, rfl⟩)]

theorem Cleared.reduced {uid : String} (h : Cleared setup env uid m m') :
    m.store.Reduced m'.store := by
  rw [h.store]
  exact withdrawItems_reduced setup env m.store _

/-! ## Cases -/

/-- The mailbox once it is bootstrapped: it reads the feed from its end on. -/
def subscribe (m : Mailbox) : Mailbox :=
  { m with bootstrapped := true, place := some m.store.feed.position }.logging
    [.subscribed m.store.feed.position]

/-- The cases of what handling an event comes to. -/
inductive Handled (setup : Setup) (env : Surroundings) (m : Mailbox) : Event → Mailbox → Prop where
  | idle (ev : Event) (listeners : SortedSet Nat) (stopped : Bool) (retries : List Retry)
      (effects : List Effect) (quiet : ∀ effect ∈ effects, effect.IsQuiet) :
      Handled setup env m ev ({ m with listeners, stopped, retries }.logging effects)
  | bootstrap : m.bootstrapped = false →
      Handled setup env m (.command .bootstrap)
        (m.subscribe.takeIn setup env (env.access.snapshot m.store))
  | change (place next : Nat) (c : Change) : m.place = some place →
      m.store.feed.read? place = some (.change c, next) →
      Handled setup env m .notice ({ m with place := some next }.takeIn setup env c.added)
  | lagged (place next : Nat) : m.place = some place →
      m.store.feed.read? place = some (.lagged, next) →
      Handled setup env m .notice
        ({ m with place := some next }.takeIn setup env (env.access.snapshot m.store))
  | closed (place next : Nat) : m.place = some place →
      m.store.feed.read? place = some (.closed, next) →
      Handled setup env m .notice { m with place := none }
  | lost (i : Nat) (batch : List Entry) : m.running[i]? = some batch → env.openingFails = true →
      Handled setup env m (.batch i)
        (dispatch setup ({ m with running := m.running.eraseIdx i }.logging [.lost batch]))
  | batch (i : Nat) (batch : List Entry) : m.running[i]? = some batch → env.openingFails = false →
      Handled setup env m (.batch i)
        (dispatch setup ({ m with running := m.running.eraseIdx i }.openAll setup env batch))
  | cleared (uid : String) (m' : Mailbox) (ev : Event) : ev.isRemoval = true →
      Cleared setup env uid m m' → Handled setup env m ev m'

theorem Handled.quiet (ev : Event) (listeners : SortedSet Nat) (stopped : Bool)
    (retries : List Retry) : Handled setup env m ev { m with listeners, stopped, retries } := by
  have h : Handled setup env m ev ({ m with listeners, stopped, retries }.logging []) :=
    .idle ev listeners stopped retries [] (by simp)
  simpa [logging] using h

theorem Handled.refl (ev : Event) : Handled setup env m ev m :=
  .quiet ev m.listeners m.stopped m.retries

theorem handle_handled (setup : Setup) (env : Surroundings) (m : Mailbox) (ev : Event) :
    Handled setup env m ev (m.handle setup env ev) := by
  cases ev with
  | command c =>
    cases c with
    | bootstrap =>
      simp only [handle, handleCommand, Mailbox.bootstrap]
      split
      · exact .refl _
      · next hb => exact .bootstrap (Bool.not_eq_true _ ▸ hb)
    | addListener id => exact .quiet _ (m.listeners.insert id ()) m.stopped m.retries
    | removeListener id => exact .quiet _ (m.listeners.erase id) m.stopped m.retries
    | remove opened =>
      rcases remove_cases setup env m opened with ⟨retries, h⟩ | ⟨message, -, h⟩
      · rw [handle, handleCommand, h]
        exact .quiet _ m.listeners m.stopped retries
      · exact .cleared message.uid _ _ rfl h
    | query id =>
      exact .idle _ m.listeners m.stopped m.retries _
        (by simp)
    | shutdown => exact .quiet _ m.listeners true m.retries
  | notice =>
    simp only [handle, notice?]
    cases hp : m.place with
    | none => exact .refl _
    | some place =>
      cases hr : m.store.feed.read? place with
      | none =>
        simp only [hr, Option.bind_eq_bind, Option.bind_some, Option.bind_none]; exact .refl _
      | some p =>
        obtain ⟨notice, next⟩ := p
        simp only [hr, Option.bind_eq_bind, Option.bind_some]
        cases notice with
        | change c => exact .change place next c hp hr
        | lagged => exact .lagged place next hp hr
        | closed => exact .closed place next hp hr
  | batch i =>
    simp only [handle, handleBatch]
    split
    · exact .refl _
    · next b hb =>
      split
      · next hf => exact .lost i b hb hf
      · next hf => exact .batch i b hb (Bool.not_eq_true _ ▸ hf)
  | retry i =>
    simp only [handle]
    split
    · exact .refl _
    · next retry hr =>
      rcases remove_cases setup env { m with retries := m.retries.eraseIdx i } retry.opened with
        ⟨retries, h⟩ | ⟨message, -, h⟩
      · rw [h]
        exact .quiet _ m.listeners m.stopped retries
      · exact .cleared message.uid _ _ rfl ⟨h.index, h.store, h.notices, h.written,
          h.itemsChanged, h.ledger,
          h.ledgerChanged, h.listeners, h.bootstrapped, h.place, h.queued, h.running, h.stopped⟩

/-! ## Entries -/

omit [Suite] in
/-- An entry waits in a batch, is stored, or was published. -/
inductive Known (m : Mailbox) (e : Entry) : Prop where
  | pending : e ∈ m.pending → Known m e
  | stored : .mailbox e ∈ m.store.snapshot → Known m e
  | published (c : Change) : c ∈ m.store.feed.history → .mailbox e ∈ c.added → Known m e

omit [Suite] in
/-- A mailbox may still come across an entry: it waits in a batch, is stored, or was published in a
change that is not read yet. -/
inductive Ahead (m : Mailbox) (e : Entry) : Prop where
  | pending : e ∈ m.pending → Ahead m e
  | stored : .mailbox e ∈ m.store.snapshot → Ahead m e
  | unread (place i : Nat) (c : Change) : m.place = some place → place ≤ i →
      m.store.feed.history[i]? = some c → .mailbox e ∈ c.added → Ahead m e

omit [Suite] in
theorem Ahead.known (h : Ahead m e) : Known m e := by
  cases h with
  | pending h => exact .pending h
  | stored h => exact .stored h
  | unread place i c _ _ hc h => exact .published c (List.mem_of_getElem? hc) h

omit [Suite] in
theorem mem_pending_of_batch {i : Nat} {batch : List Entry} (hb : m.running[i]? = some batch) :
    (e ∈ batch → e ∈ m.pending) ∧ (e ∈ (m.running.eraseIdx i).flatten → e ∈ m.pending) ∧
      (e ∈ m.pending → e ∈ batch ∨ e ∈ m.queued.flatten ++ (m.running.eraseIdx i).flatten) := by
  obtain ⟨hi, hb⟩ := List.getElem?_eq_some_iff.1 hb
  have hr : m.running = m.running.take i ++ batch :: m.running.drop (i + 1) := by
    rw [← hb, ← List.drop_eq_getElem_cons hi, List.take_append_drop]
  have hm : e ∈ m.running.flatten ↔ e ∈ batch ∨ e ∈ (m.running.eraseIdx i).flatten := by
    rw [List.eraseIdx_eq_take_drop_succ, List.flatten_append, List.mem_append, ← or_left_comm,
      ← List.mem_append, ← List.flatten_cons, ← List.mem_append, ← List.flatten_append, ← hr]
  simp only [pending, List.mem_append, hm]
  tauto

/-- An event opens entries that were ahead, one after the other, or it clears a uid. -/
theorem Handled.admitted_ahead (h : Handled setup env m ev m') :
    (∃ es, Admitted setup env es m m' ∧ ∀ e ∈ es, Ahead m e) ∨
      ev.isRemoval = true ∧ ∃ uid, Cleared setup env uid m m' := by
  cases h with
  | idle _ listeners stopped retries effects quiet =>
    exact .inl ⟨[], .nil rfl rfl rfl ⟨effects, rfl, quiet⟩ rfl rfl, by simp⟩
  | bootstrap hb =>
    have h0 : Admitted setup env [] m m.subscribe := .nil rfl rfl rfl ⟨_, rfl, by simp⟩ rfl rfl
    obtain ⟨ds, hd, hds⟩ := takeIn_admitted h0 rfl (env.access.snapshot m.store)
    exact .inl ⟨ds, hd, fun e he => .stored (Access.mem_snapshot.1 (hds e he))⟩
  | change place next c hp hr =>
    have h0 : Admitted setup env [] m { m with place := some next } :=
      .nil rfl rfl rfl ⟨[], by simp⟩ rfl rfl
    obtain ⟨ds, hd, hds⟩ := takeIn_admitted h0 rfl c.added
    exact .inl ⟨ds, hd, fun e he =>
      .unread place place c hp (Nat.le_refl place) (Feed.getElem?_of_read? hr) (hds e he)⟩
  | lagged place next hp hr =>
    have h0 : Admitted setup env [] m { m with place := some next } :=
      .nil rfl rfl rfl ⟨[], by simp⟩ rfl rfl
    obtain ⟨ds, hd, hds⟩ := takeIn_admitted h0 rfl (env.access.snapshot m.store)
    exact .inl ⟨ds, hd, fun e he => .stored (Access.mem_snapshot.1 (hds e he))⟩
  | closed place next hp hr => exact .inl ⟨[], .nil rfl rfl rfl ⟨[], by simp⟩ rfl rfl, by simp⟩
  | lost i batch hb hf =>
    have h0 : Admitted setup env [] m
        ({ m with running := m.running.eraseIdx i }.logging [.lost batch]) :=
      .nil rfl rfl rfl ⟨_, rfl, by simp⟩ rfl rfl
    exact .inl ⟨[], h0.append (dispatch_admitted setup env _) rfl rfl, by simp⟩
  | batch i batch hb hf =>
    have h0 : Admitted setup env [] m { m with running := m.running.eraseIdx i } :=
      .nil rfl rfl rfl ⟨[], by simp⟩ rfl rfl
    have hf := openAll_frame setup env { m with running := m.running.eraseIdx i } batch
    have h1 := (h0.append (openAll_admitted setup env _ batch) rfl hf.bootstrapped).append
      (dispatch_admitted setup env _) hf.listeners rfl
    exact .inl ⟨_, h1, fun e he => .pending ((mem_pending_of_batch hb).1 (by simpa using he))⟩
  | cleared uid _ _ hev hc => exact .inr ⟨hev, uid, hc⟩

theorem Handled.admitted (h : Handled setup env m ev m') :
    (∃ es, Admitted setup env es m m' ∧ ∀ e ∈ es, Known m e) ∨
      ev.isRemoval = true ∧ ∃ uid, Cleared setup env uid m m' :=
  h.admitted_ahead.imp_left fun ⟨es, hes, hahead⟩ => ⟨es, hes, fun e he => (hahead e he).known⟩

theorem Handled.ahead_of_pending (h : Handled setup env m ev m') (he : e ∈ m'.pending) :
    Ahead m e := by
  have taken {m₀ : Mailbox} {stored : List StoredEntry}
      (h : e ∈ (m₀.takeIn setup env stored).pending) (hp : m₀.pending = m.pending)
      (hs : .mailbox e ∈ stored → Ahead m e) : Ahead m e := by
    rcases mem_pending_of_takeIn h with h | h
    · exact .pending (hp ▸ h)
    · exact hs h
  cases h with
  | idle => exact .pending he
  | bootstrap hb => exact taken he rfl fun h => .stored (Access.mem_snapshot.1 h)
  | change place next c hp hr =>
    exact taken he rfl (.unread place place c hp (Nat.le_refl place) (Feed.getElem?_of_read? hr))
  | lagged place next hp hr => exact taken he rfl fun h => .stored (Access.mem_snapshot.1 h)
  | closed => exact .pending he
  | lost i batch hb hf =>
    have h := mem_pending_dispatch he
    simp only [pending, logging, List.mem_append] at h
    rcases h with h | h
    · exact .pending (List.mem_append_left _ h)
    · exact .pending ((mem_pending_of_batch hb).2.1 h)
  | batch i batch hb hf =>
    have hf := openAll_frame setup env { m with running := m.running.eraseIdx i } batch
    have h := mem_pending_dispatch he
    simp only [pending, hf.queued, hf.running, List.mem_append] at h
    rcases h with h | h
    · exact .pending (List.mem_append_left _ h)
    · exact .pending ((mem_pending_of_batch hb).2.1 h)
  | cleared uid _ _ hev hc =>
    rw [pending, hc.queued, hc.running] at he
    exact .pending he

theorem Handled.known (h : Handled setup env m ev m') (he : e ∈ m'.pending) : Known m e :=
  (h.ahead_of_pending he).known

theorem Handled.settled (h : Handled setup env m ev m') (hopen : env.openingFails = false)
    (he : Settled setup.ring m e) : Settled setup.ring m' e ∨
      ev.isRemoval = true ∧ m.index.contains e.hash = true ∧ m'.index.contains e.hash = false := by
  cases h with
  | idle => exact .inl he
  | bootstrap hb => exact .inl (takeIn_settled (m := m.subscribe) he _)
  | change place next c hp hr =>
    exact .inl (takeIn_settled (m := { m with place := some next }) he _)
  | lagged place next hp hr => exact .inl (takeIn_settled (m := { m with place := some next }) he _)
  | closed => exact .inl he
  | lost i batch hb hf => rw [hopen] at hf; cases hf
  | batch i batch hb _ =>
    have hf := openAll_frame setup env { m with running := m.running.eraseIdx i } batch
    have ha := openAll_admitted setup env { m with running := m.running.eraseIdx i } batch
    refine .inl (Settled.dispatch ?_)
    rcases he with he | he | he
    · exact .inl (ha.known he)
    · rcases (mem_pending_of_batch hb).2.2 he with h | h
      · exact (ha.opened h).imp_right .inr
      · refine .inr (.inl ?_)
        rw [pending, hf.queued, hf.running]
        exact h
    · exact .inr (.inr he)
  | cleared uid _ _ hev hc =>
    rcases he with he | he | he
    · rcases isNew_eq_false.1 he with hl | hi
      · exact .inl (.inl (isNew_eq_false.2 (.inl (hc.ledger ▸ hl))))
      · cases hi' : m'.index.contains e.hash with
        | true => exact .inl (.inl (isNew_eq_false.2 (.inr hi')))
        | false => exact .inr ⟨hev, hi, rfl⟩
    · refine .inl (.inr (.inl ?_))
      rw [pending, hc.queued, hc.running]
      exact he
    · exact .inl (.inr (.inr he))

theorem Handled.valid (h : Handled setup env m ev m') (hv : m.index.Valid) : m'.index.Valid := by
  rcases h.admitted with ⟨es, ha, -⟩ | ⟨-, uid, hc⟩
  · rw [ha.index]
    exact hv.foldl_insert _
  · exact hc.valid hv

theorem Handled.written (h : Handled setup env m ev m') :
    SealedMail.written m'.log = SealedMail.written m.log := by
  rcases h.admitted with ⟨es, ha, -⟩ | ⟨-, uid, hc⟩
  · exact ha.written
  · exact hc.written

/-- An event that changes the list of items marks it. -/
theorem Handled.items_or_changed (h : Handled setup env m ev m') :
    m'.itemsChanged = true ∨ m'.index.items = m.index.items := by
  rcases h.admitted with ⟨es, ha, -⟩ | ⟨-, uid, hc⟩
  · rw [ha.itemsChanged, ha.index, Index.items_foldl_insert]
    cases m.index.news (received setup.ring es) with
    | nil => exact .inr (List.append_nil _)
    | cons item items => exact .inl (by simp)
  · exact .inl hc.itemsChanged

/-- An event that changes the ledger marks it. -/
theorem Handled.ledger_or_changed (h : Handled setup env m ev m') :
    m'.ledgerChanged = true ∨ m'.ledger = m.ledger := by
  rcases h.admitted with ⟨es, ha, -⟩ | ⟨-, uid, hc⟩
  · exact ha.ledgerChanged.imp_right And.right
  · exact .inr hc.ledger

/-- What is indexed was indexed before, or the list is to be written. -/
theorem Handled.changed_or_mem (h : Handled setup env m ev m') {item : Item}
    (hi : item ∈ m'.index.items) : m'.itemsChanged = true ∨ item ∈ m.index.items :=
  h.items_or_changed.imp_right fun hitems : m'.index.items = m.index.items => hitems ▸ hi

theorem Handled.reduced (h : Handled setup env m ev m') : m.store.Reduced m'.store := by
  rcases h.admitted with ⟨es, ha, -⟩ | ⟨-, uid, hc⟩
  · rw [ha.store]
    exact withdrawAll_reduced setup env _ _ _
  · exact hc.reduced

/-! ## One turn -/

/-- What a mailbox has written is written, or it has stopped with all as it was. -/
inductive Flushed (env : Surroundings) (m m' : Mailbox) : Mailbox → Prop where
  | stopped : m'.stopped = true → m'.index = m.index → m'.ledger = m.ledger →
      m'.itemsChanged = m.itemsChanged → m'.ledgerChanged = m.ledgerChanged → Flushed env m m' m'
  | flushed : m'.stopped = false → Flushed env m m' (m'.flush env)

section Flushed

variable {m'' : Mailbox}

omit [Suite]

theorem Flushed.index (h : Flushed env m m' m'') : m''.index = m'.index := by cases h <;> rfl

theorem Flushed.store (h : Flushed env m m' m'') : m''.store = m'.store := by cases h <;> rfl

@[simp] theorem notices_writes (env : Surroundings) (m : Mailbox) :
    notices (m.writes env) = [] := by
  unfold writes
  split <;> split <;> rfl

@[simp] theorem heard_writes (env : Surroundings) (m : Mailbox) (id : Nat) :
    heard id (m.writes env) = [] :=
  congrArg (reportsFor id) (notices_writes env m)

theorem log_flush (env : Surroundings) (m : Mailbox) : (m.flush env).log = m.log ++ m.writes env :=
  rfl

theorem Flushed.told (h : Flushed env m m' m'') (id : Nat) :
    heard id m''.log = heard id m'.log := by
  cases h with
  | stopped => rfl
  | flushed => rw [log_flush, heard_append, heard_writes, List.append_nil]

end Flushed

theorem heard_restore (setup : Setup) (env : Surroundings) (store : Store) (items : List Item)
    (ledger : Ledger) (id : Nat) : heard id (restore setup env store items ledger).log = [] := by
  rw [restore, log_flush, heard_append, heard_writes]
  rfl

theorem Handled.stopped (h : Handled setup env m ev m') (hm : m.stopped = false)
    (hs : m'.stopped = true) : Flushed env m m' m' := by
  have taken {m₀ : Mailbox} {stored : List StoredEntry}
      (h : (m₀.takeIn setup env stored).stopped = true) (hi : m₀.index = m.index)
      (hl : m₀.ledger = m.ledger) (hic : m₀.itemsChanged = m.itemsChanged)
      (hlc : m₀.ledgerChanged = m.ledgerChanged) (hs : m₀.stopped = false) :
      Flushed env m (m₀.takeIn setup env stored) (m₀.takeIn setup env stored) := by
    obtain ⟨es, ht, -⟩ := takeIn_cases setup env m₀ stored
    generalize m₀.takeIn setup env stored = m₁ at ht h
    cases ht with
    | nothing => rw [hs] at h; cases h
    | breaks => exact .stopped rfl hi hl hic hlc
    | single e =>
      rw [(openAll_frame setup env (m₀.logging [.handed [e]]) [e]).stopped, stopped_logging, hs]
        at h
      cases h
    | batch =>
      rw [stopped_dispatch, hs] at h
      cases h
  cases h with
  | idle => exact .stopped hs rfl rfl rfl rfl
  | bootstrap => exact taken hs rfl rfl rfl rfl hm
  | change => exact taken hs rfl rfl rfl rfl hm
  | lagged => exact taken hs rfl rfl rfl rfl hm
  | closed => exact .stopped hs rfl rfl rfl rfl
  | lost i batch hb hf =>
    rw [stopped_dispatch, stopped_logging, hm] at hs
    cases hs
  | batch i batch hb _ =>
    have hf := openAll_frame setup env { m with running := m.running.eraseIdx i } batch
    rw [stopped_dispatch, hf.stopped, hm] at hs
    cases hs
  | cleared uid _ _ hev hc => rw [hc.stopped, hm] at hs; cases hs

theorem step_cases (setup : Setup) (env : Surroundings) (m : Mailbox) (ev : Event) :
    ∃ m', Handled setup env m ev m' ∧ Flushed env m m' (m.step setup env ev) := by
  unfold step
  split
  · next hs => exact ⟨m, .refl ev, .stopped hs rfl rfl rfl rfl⟩
  · next hs =>
    have h := handle_handled setup env m ev
    refine ⟨_, h, ?_⟩
    simp only []
    split
    · next hs' => exact h.stopped (Bool.not_eq_true _ ▸ hs) hs'
    · next hs' => exact .flushed (Bool.not_eq_true _ ▸ hs')

end Mailbox

end SealedMail
