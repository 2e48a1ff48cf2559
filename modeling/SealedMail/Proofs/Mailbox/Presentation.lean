import SealedMail.Proofs.Mailbox.History

/-!
# What is shown, taken in and handed over

The overlay shows a mailbox entries with some events (`Mailbox.shown`); those that are fresh are
taken in (`Mailbox.taken`). `Proceeds` says where they go: a lone one is opened on the spot, several
wait as a batch, and a batch is opened when it is done. `Mailbox.opened` are the entries whose
openings an event brings, `handed` those that the effects of a mailbox hand over to be opened.
-/

namespace SealedMail

/-! ## Entries that are handed over -/

def Effect.entries : Effect → List Entry
  | .handed entries => entries
  | _ => []

/-- The entries that some effects hand over, in order. -/
def handed (effects : List Effect) : List Entry := effects.flatMap Effect.entries

@[simp] theorem handed_append (effects more : List Effect) :
    handed (effects ++ more) = handed effects ++ handed more :=
  List.flatMap_append

theorem handed_eq_nil {effects : List Effect} (h : ∀ effect ∈ effects, effect.entries = []) :
    handed effects = [] :=
  List.flatMap_eq_nil_iff.2 h

@[simp] theorem handed_map_handed (batches : List (List Entry)) :
    handed (batches.map .handed) = batches.flatten := by
  induction batches with
  | nil => rfl
  | cons batch batches ih => rw [List.map_cons, List.flatten_cons, ← ih]; rfl

/-- What a mailbox does about an item: it tells listeners, and asks the store for removals. -/
def Effect.isReaction : Effect → Bool
  | .notified .. => true
  | .panicked _ => true
  | .removed _ => true
  | _ => false

theorem Effect.entries_of_isReaction {effect : Effect} (h : effect.isReaction = true) :
    effect.entries = [] := by
  cases effect <;> first | rfl | cases h

namespace Mailbox

@[simp] theorem handed_writes (env : Surroundings) (m : Mailbox) : handed (m.writes env) = [] := by
  unfold writes
  split <;> split <;> rfl

variable [Suite] {setup : Setup} {env : Surroundings} {m m' : Mailbox} {ev : Event} {e : Entry}
  {es : List Entry}

omit [Suite] in
/-- All that has been logged since are reactions. -/
def Reacts (m m' : Mailbox) : Prop :=
  ∃ reactions, m'.log = m.log ++ reactions ∧ ∀ effect ∈ reactions, effect.isReaction = true

omit [Suite] in
theorem Reacts.refl (m : Mailbox) : Reacts m m := ⟨[], by simp⟩

omit [Suite] in
theorem Reacts.trans {m'' : Mailbox} (h : Reacts m m') (h' : Reacts m' m'') : Reacts m m'' := by
  obtain ⟨reactions, hlog, hreactions⟩ := h
  obtain ⟨more, hlog', hmore⟩ := h'
  refine ⟨reactions ++ more, by rw [hlog', hlog, List.append_assoc], ?_⟩
  exact fun effect he => (List.mem_append.1 he).elim (hreactions effect) (hmore effect)

omit [Suite] in
theorem Reacts.handed (h : Reacts m m') : handed m'.log = handed m.log := by
  obtain ⟨reactions, hlog, hreactions⟩ := h
  rw [hlog, handed_append, handed_eq_nil fun effect he =>
    Effect.entries_of_isReaction (hreactions effect he),
    List.append_nil]

omit [Suite] in
theorem isReaction_removed {removals : List Entry} :
    ∀ effect ∈ removals.map Effect.removed, effect.isReaction = true := by
  simp [Effect.isReaction]

theorem isReaction_tell {item : Item} {sender : Address} {ids : List Nat} :
    ∀ effect ∈ ids.flatMap (tell env item sender), effect.isReaction = true := by
  intro effect h
  obtain ⟨id, -, h⟩ := List.mem_flatMap.1 h
  unfold tell at h
  split at h <;> simp at h
  · rcases h with rfl | rfl <;> rfl
  · rw [h]; rfl

theorem reacts_apply (setup : Setup) (env : Surroundings) (m : Mailbox) (o : Opening) :
    Reacts m (m.apply setup env o) := by
  cases o with
  | received item =>
    cases hm : item.message? with
    | none => simp only [apply, receive, hm]; exact .refl m
    | some message =>
      cases hc : m.index.contains item.hash with
      | true => rw [apply, receive_old hc]; exact .refl m
      | false =>
        obtain ⟨removals, h⟩ := receive_new setup env hm hc
        rw [apply, h]
        exact ⟨_, rfl,
          fun effect he =>
            (List.mem_append.1 he).elim (isReaction_tell effect) (isReaction_removed effect)⟩
  | notForUs uid created =>
    simp only [apply]
    split <;> exact .refl m
  | malformed uid reason => exact .refl m

theorem reacts_openAll (setup : Setup) (env : Surroundings) (m : Mailbox) (es : List Entry) :
    Reacts m (m.openAll setup env es) := by
  induction es generalizing m with
  | nil => exact .refl m
  | cons e es ih => exact (reacts_apply setup env m _).trans (ih _)

theorem reacts_remove (setup : Setup) (env : Surroundings) (m : Mailbox) (opened : Opened) :
    Reacts m (m.remove setup env opened) := by
  unfold remove
  split
  · exact .refl m
  · split
    · exact .refl m
    · simp only []
      split
      · exact .refl m
      · obtain ⟨kept, removals, -, h⟩ := foldl_removeItem setup env _ _
        rw [h]
        exact ⟨_, rfl, isReaction_removed⟩

/-! ## Batches that are handed over -/

omit [Suite] in
/-- Batches without what is not new, and without those of which nothing is left then. -/
def pruned (isNew : Entry → Bool) (batches : List (List Entry)) : List (List Entry) :=
  (batches.map (List.filter isNew)).filter (· ≠ [])

omit [Suite] in
/-- Batches are handed over from the front until the slots are taken. Those of which nothing is left
take none. -/
theorem hand_spec (isNew : Entry → Bool) (slots : Nat) (queue : List (List Entry)) :
    ∃ front, queue = front ++ (hand isNew slots queue).2 ∧
      (hand isNew slots queue).1 = pruned isNew front ∧ (hand isNew slots queue).1.length ≤ slots ∧
      ((hand isNew slots queue).2 ≠ [] → (hand isNew slots queue).1.length = slots) := by
  induction queue generalizing slots with
  | nil => exact ⟨[], by simp [hand, pruned]⟩
  | cons batch queue ih =>
    cases slots with
    | zero => exact ⟨[], by simp [hand, pruned]⟩
    | succ n =>
      simp only [hand]
      split
      · next hnil =>
        obtain ⟨front, hqueue, hgiven, hlength, hfull⟩ := ih (n + 1)
        refine ⟨batch :: front, ?_, ?_, hlength, hfull⟩
        · rw [List.cons_append, ← hqueue]
        · rw [hgiven, pruned, pruned, List.map_cons, hnil, List.filter_cons_of_neg (by simp)]
      · next hne =>
        obtain ⟨front, hqueue, hgiven, hlength, hfull⟩ := ih n
        refine ⟨batch :: front, ?_, ?_, Nat.succ_le_succ hlength,
          fun h => congrArg (· + 1) (hfull h)⟩
        · rw [List.cons_append, ← hqueue]
        · rw [hgiven, pruned, pruned, List.map_cons, List.filter_cons_of_pos (by simpa using hne)]

theorem dispatch_spec (setup : Setup) (m : Mailbox) :
    ∃ front more, m.queued = front ++ (dispatch setup m).queued ∧
      (dispatch setup m).running = m.running ++ more ∧ more.flatten = front.flatten.filter m.isNew ∧
      more.length ≤ max setup.maxBatches 1 - m.running.length ∧
      handed (dispatch setup m).log = handed m.log ++ more.flatten := by
  obtain ⟨front, hqueue, hgiven, hlength, -⟩ :=
    hand_spec m.isNew (max setup.maxBatches 1 - m.running.length) m.queued
  refine ⟨front, _, hqueue, rfl, ?_, hlength, by simp [dispatch, logging]⟩
  rw [hgiven, pruned, List.flatten_filter_ne_nil, List.filter_flatten]

/-! ## Events -/

/-- What the overlay shows with an event: what is stored, at the bootstrap and after a lag, or what
a change adds. -/
def shown (env : Surroundings) (m : Mailbox) : Event → List StoredEntry
  | .command .bootstrap => if m.bootstrapped then [] else env.access.snapshot m.store
  | .notice =>
    match m.place.bind m.store.feed.read? with
    | some (.change c, _) => c.added
    | some (.lagged, _) => env.access.snapshot m.store
    | _ => []
  | _ => []

/-- The entries that a mailbox takes in of what an event shows. -/
def taken (env : Surroundings) (m : Mailbox) (ev : Event) : List Entry :=
  match env.address with
  | none => []
  | some own => if own ∈ env.seeds then [] else m.fresh (m.shown env ev)

/-- The entries whose openings an event brings: a batch that is done, or a lone entry that is taken
in. -/
def opened (env : Surroundings) (m : Mailbox) (ev : Event) : List Entry :=
  if env.openingFails then []
  else match ev with
    | .batch i => (m.running[i]?).getD []
    | ev =>
      match m.taken env ev with
      | [e] => [e]
      | _ => []

/-- The lone entry over which opening breaks off. No effect says that it is handed over. -/
def broken (env : Surroundings) (m : Mailbox) (ev : Event) : List Entry :=
  if env.openingFails then
    match m.taken env ev with
    | [e] => [e]
    | _ => []
  else []

theorem opened_eq (env : Surroundings) (m : Mailbox) (h : ∀ i, ev ≠ .batch i) :
    m.opened env ev = if env.openingFails then [] else
      match m.taken env ev with
      | [e] => [e]
      | _ => [] := by
  unfold opened
  split
  · rfl
  · cases ev with
    | batch i => exact absurd rfl (h i)
    | _ => rfl

theorem taken_of_reads (h : env.Reads) (ev : Event) :
    m.taken env ev = m.fresh (m.shown env ev) := by
  obtain ⟨own, haddress, hseeds⟩ := h
  simp [taken, haddress, hseeds]

theorem taken_of_not_reads (h : ¬ env.Reads) (ev : Event) : m.taken env ev = [] := by
  unfold taken
  split
  · rfl
  · next own haddress =>
    rw [if_pos (Classical.not_not.1 fun hseeds => h ⟨own, haddress, hseeds⟩)]

theorem taken_of_shown_nil (h : m.shown env ev = []) : m.taken env ev = [] := by
  unfold taken
  split
  · rfl
  · simp [h, fresh, distinct]

/-- Whatever is taken in is new. -/
theorem isNew_of_mem_taken (h : e ∈ m.taken env ev) : m.isNew e = true := by
  by_cases hreads : env.Reads
  · rw [taken_of_reads hreads] at h
    exact (mem_of_mem_distinct h).2.1
  · rw [taken_of_not_reads hreads] at h
    cases h

theorem isNew_of_mem_broken (h : e ∈ m.broken env ev) : m.isNew e = true := by
  have htaken : e ∈ m.taken env ev := by
    unfold broken at h
    split at h
    · split at h
      · next htaken => rwa [htaken]
      · cases h
    · cases h
  exact isNew_of_mem_taken htaken

/-- A mailbox has opened entries, and handed over others. Its batches are the same. -/
structure Opens (setup : Setup) (env : Surroundings) (es given : List Entry) (m m' : Mailbox) :
    Prop where
  admitted : Admitted setup env es m m'
  queued : m'.queued = m.queued
  running : m'.running = m.running
  handed : handed m'.log = handed m.log ++ given

/-- Where entries go while a mailbox handles an event. -/
inductive Proceeds (setup : Setup) (env : Surroundings) (m : Mailbox) : Event → Mailbox → Prop where
  | still {ev : Event} {m' : Mailbox} (taken : m.taken env ev = []) (opened : m.opened env ev = [])
      (opens : Opens setup env [] [] m m') : Proceeds setup env m ev m'
  /-- Opening a lone entry breaks off. -/
  | breaks {ev : Event} {m' : Mailbox} {e : Entry} (taken : m.taken env ev = [e])
      (fails : env.openingFails = true) (opens : Opens setup env [] [] m m')
      (stopped : m'.stopped = true) : Proceeds setup env m ev m'
  | lone {ev : Event} {m' : Mailbox} {e : Entry} (taken : m.taken env ev = [e])
      (opened : m.opened env ev = [e]) (opens : Opens setup env [e] [e] m m') :
      Proceeds setup env m ev m'
  | waits {ev : Event} {m₁ : Mailbox} (several : 1 < (m.taken env ev).length)
      (opened : m.opened env ev = [])
      (opens : Opens setup env [] [] { m with queued := m.queued ++ [m.taken env ev] } m₁) :
      Proceeds setup env m ev (dispatch setup m₁)
  | done {i : Nat} {batch : List Entry} {m₁ : Mailbox} (running : m.running[i]? = some batch)
      (opened : m.opened env (.batch i) = if env.openingFails then [] else batch)
      (opens : Opens setup env (m.opened env (.batch i)) []
        { m with running := m.running.eraseIdx i } m₁) :
      Proceeds setup env m (.batch i) (dispatch setup m₁)
  | cleared {ev : Event} {m' : Mailbox} {uid : String} (removal : ev.isRemoval = true)
      (cleared : Cleared setup env uid m m') (handed : handed m'.log = handed m.log) :
      Proceeds setup env m ev m'

theorem Opens.nil (effects : List Effect) (hq : ∀ effect ∈ effects, effect.IsQuiet)
    (hindex : m'.index = m.index) (hledger : m'.ledger = m.ledger) (hstore : m'.store = m.store)
    (hlog : m'.log = m.log ++ effects) (hitems : m'.itemsChanged = m.itemsChanged)
    (hmarks : m'.ledgerChanged = m.ledgerChanged) (hqueued : m'.queued = m.queued)
    (hrunning : m'.running = m.running) :
    Opens setup env [] (SealedMail.handed effects) m m' :=
  ⟨.nil hindex hledger hstore ⟨effects, hlog, hq⟩ hitems hmarks, hqueued, hrunning,
    by rw [hlog, handed_append]⟩

theorem Opens.quiet (hindex : m'.index = m.index) (hledger : m'.ledger = m.ledger)
    (hstore : m'.store = m.store) (hlog : m'.log = m.log)
    (hitems : m'.itemsChanged = m.itemsChanged) (hmarks : m'.ledgerChanged = m.ledgerChanged)
    (hqueued : m'.queued = m.queued) (hrunning : m'.running = m.running) :
    Opens setup env [] [] m m' :=
  .nil [] (by simp) hindex hledger hstore (by rw [hlog, List.append_nil]) hitems hmarks hqueued
    hrunning

theorem Opens.isNew (h : Opens setup env [] [] m m') : m'.isNew = m.isNew := by
  funext e
  have hindex : m'.index = m.index := h.admitted.index
  have hledger : m'.ledger = m.ledger := h.admitted.ledger
  rw [Mailbox.isNew, Mailbox.isNew, hindex, hledger]

theorem Opens.append {ds given more : List Entry} {m'' : Mailbox}
    (h : Opens setup env es given m m') (h' : Opens setup env ds more m' m'')
    (hl : m'.listeners = m.listeners) (hb : m''.bootstrapped = m'.bootstrapped) :
    Opens setup env (es ++ ds) (given ++ more) m m'' where
  admitted := h.admitted.append h'.admitted hl hb
  queued := h'.queued.trans h.queued
  running := h'.running.trans h.running
  handed := by rw [h'.handed, h.handed, List.append_assoc]

theorem openAll_opens (setup : Setup) (env : Surroundings) (m : Mailbox) (es : List Entry) :
    Opens setup env es [] m (m.openAll setup env es) where
  admitted := openAll_admitted setup env m es
  queued := (openAll_frame setup env m es).queued
  running := (openAll_frame setup env m es).running
  handed := by rw [(reacts_openAll setup env m es).handed, List.append_nil]

theorem Admitted.stop (h : Admitted setup env es m m') :
    Admitted setup env es m { m' with stopped := true } :=
  ⟨h.index, h.ledger, h.store, h.notices, h.written, h.itemsChanged, h.ledgerChanged⟩

theorem Admitted.requeue (h : Admitted setup env es m m') (queued queued' : List (List Entry)) :
    Admitted setup env es { m with queued } { m' with queued := queued' } :=
  ⟨h.index, h.ledger, h.store, h.notices, h.written, h.itemsChanged, h.ledgerChanged⟩

/-- Taking in what an event shows, by a mailbox that is alike but for its place in the feed and what
it has logged. -/
theorem takeIn_proceeds {m₀ : Mailbox} (hbatch : ∀ i, ev ≠ .batch i)
    (h : Opens setup env [] [] m m₀) (hl : m₀.listeners = m.listeners) :
    Proceeds setup env m ev (m₀.takeIn setup env (m.shown env ev)) := by
  have hopened := opened_eq env m hbatch
  by_cases hreads : env.Reads
  · have htaken :
        m.taken env ev =
          distinct m₀.isNew [] ((m.shown env ev).filterMap StoredEntry.mailbox?) := by
      rw [taken_of_reads hreads, fresh, h.isNew]
    obtain ⟨own, haddress, hseeds⟩ := hreads
    simp only [takeIn, haddress, hseeds, if_false, ← htaken]
    rcases htake : m.taken env ev with _ | ⟨e, _ | ⟨f, es⟩⟩
    · exact .still htake (by rw [hopened, htake]; split <;> rfl) h
    · cases hfails : env.openingFails with
      | true => exact .breaks htake hfails ⟨h.admitted.stop, h.queued, h.running, h.handed⟩ rfl
      | false =>
        have hlog : Opens setup env [] [e] m₀ (m₀.logging [.handed [e]]) :=
          .nil [.handed [e]] (by simp) rfl rfl rfl rfl rfl rfl rfl rfl
        have hopen := openAll_frame setup env (m₀.logging [.handed [e]]) [e]
        exact .lone htake (by rw [hopened, hfails, htake]; rfl)
          (h.append (hlog.append (openAll_opens setup env _ [e]) rfl hopen.bootstrapped) hl
            hopen.bootstrapped)
    · have hopens : Opens setup env [] [] { m with queued := m.queued ++ [m.taken env ev] }
          { m₀ with queued := m₀.queued ++ [m.taken env ev] } :=
        ⟨h.admitted.requeue _ _, by rw [h.queued], h.running, h.handed⟩
      have := Proceeds.waits (by simp [htake]) (by rw [hopened, htake]; split <;> rfl) hopens
      rwa [htake] at this
  · rw [takeIn_of_not_reads hreads]
    have htaken := taken_of_not_reads (m := m) hreads ev
    exact .still htaken (by rw [hopened, htaken]; split <;> rfl) h

omit [Suite] in
theorem notice?_eq (m : Mailbox) :
    m.notice? = (m.place.bind m.store.feed.read?).map fun read =>
      (read.1, { m with place := some read.2 }) := by
  unfold notice?
  cases m.place with
  | none => rfl
  | some place => cases hr : m.store.feed.read? place <;> simp [hr]

/-- When a batch is done, what it opened to is applied, and other batches are handed over. -/
theorem handle_batch (setup : Setup) (env : Surroundings) {i : Nat} {batch : List Entry}
    (hb : m.running[i]? = some batch) :
    ∃ m₁, m.opened env (.batch i) = (if env.openingFails then [] else batch) ∧
      Opens setup env (m.opened env (.batch i)) [] { m with running := m.running.eraseIdx i } m₁ ∧
      m.handle setup env (.batch i) = dispatch setup m₁ := by
  have hopened : m.opened env (.batch i) = if env.openingFails then [] else batch := by
    unfold opened
    split
    · rfl
    · simp [hb]
  have hhandle : m.handle setup env (.batch i) = dispatch setup
      (if env.openingFails then { m with running := m.running.eraseIdx i }.logging [.lost batch]
        else { m with running := m.running.eraseIdx i }.openAll setup env batch) := by
    simp only [handle, handleBatch, hb]
    rfl
  refine ⟨_, hopened, ?_, hhandle⟩
  rw [hopened]
  split
  · exact .nil [.lost batch] (by simp) rfl rfl rfl rfl rfl rfl rfl rfl
  · exact openAll_opens setup env _ batch

/-- What becomes of the entries while an event is handled. -/
theorem handle_proceeds (setup : Setup) (env : Surroundings) (m : Mailbox) (ev : Event) :
    Proceeds setup env m ev (m.handle setup env ev) := by
  have unshown {ev : Event} {m' : Mailbox} (hshown : m.shown env ev = [])
      (hbatch : ∀ i, ev ≠ .batch i)
      (h : Opens setup env [] [] m m') : Proceeds setup env m ev m' := by
    have htaken := taken_of_shown_nil hshown
    exact .still htaken (by rw [opened_eq env m hbatch, htaken]; split <;> rfl) h
  have same : Opens setup env [] [] m m := .quiet rfl rfl rfl rfl rfl rfl rfl rfl
  cases ev with
  | command c =>
    cases c with
    | bootstrap =>
      cases hb : m.bootstrapped with
      | true =>
        have hsame : m.handle setup env (.command .bootstrap) = m := if_pos hb
        rw [hsame]
        exact unshown (if_pos hb) (by simp) same
      | false =>
        have hhandle : m.handle setup env (.command .bootstrap) =
            m.subscribe.takeIn setup env (m.shown env (.command .bootstrap)) := by
          simp only [handle, handleCommand, Mailbox.bootstrap, shown, hb]
          rfl
        rw [hhandle]
        exact takeIn_proceeds (by simp)
          (.nil [.subscribed m.store.feed.position] (by simp) rfl rfl rfl rfl rfl rfl rfl rfl) rfl
    | addListener id => exact unshown rfl (by simp) (.quiet rfl rfl rfl rfl rfl rfl rfl rfl)
    | removeListener id => exact unshown rfl (by simp) (.quiet rfl rfl rfl rfl rfl rfl rfl rfl)
    | remove opened =>
      rcases remove_cases setup env m opened with ⟨retries, h⟩ | ⟨message, -, h⟩
      · rw [handle, handleCommand, h]
        exact unshown rfl (by simp) (.quiet rfl rfl rfl rfl rfl rfl rfl rfl)
      · exact .cleared rfl h (reacts_remove setup env m opened).handed
    | query id =>
      exact unshown rfl (by simp) (.nil [.answered id _] (by simp) rfl rfl rfl rfl rfl rfl rfl rfl)
    | shutdown => exact unshown rfl (by simp) (.quiet rfl rfl rfl rfl rfl rfl rfl rfl)
  | notice =>
    cases hread : m.place.bind m.store.feed.read? with
    | none =>
      have hsame : m.handle setup env .notice = m := by
        simp only [handle, notice?_eq, hread, Option.map_none]
      rw [hsame]
      exact unshown (by simp only [shown, hread]) (by simp) same
    | some read =>
      obtain ⟨notice, next⟩ := read
      have hopens : Opens setup env [] [] m { m with place := some next } :=
        .quiet rfl rfl rfl rfl rfl rfl rfl rfl
      cases notice with
      | closed =>
        have hhandle : m.handle setup env .notice = { m with place := none } := by
          simp only [handle, handleNotice, notice?_eq, hread, Option.map_some]
        rw [hhandle]
        exact unshown (by simp only [shown, hread]) (by simp)
          (.quiet rfl rfl rfl rfl rfl rfl rfl rfl)
      | _ =>
        have hhandle : m.handle setup env .notice =
            { m with place := some next }.takeIn setup env (m.shown env .notice) := by
          simp only [handle, handleNotice, shown, notice?_eq, hread, Option.map_some]
        rw [hhandle]
        exact takeIn_proceeds (by simp) hopens rfl
  | batch i =>
    cases hb : m.running[i]? with
    | none =>
      have hsame : m.handle setup env (.batch i) = m := by simp only [handle, handleBatch, hb]
      have hopened : m.opened env (.batch i) = [] := by
        unfold opened
        split
        · rfl
        · simp [hb]
      rw [hsame]
      exact .still (taken_of_shown_nil rfl) hopened same
    | some batch =>
      obtain ⟨m₁, hopened, hopens, hhandle⟩ := handle_batch setup env hb
      rw [hhandle]
      exact .done hb hopened hopens
  | retry i =>
    cases hr : m.retries[i]? with
    | none =>
      have hsame : m.handle setup env (.retry i) = m := by simp only [handle, hr]
      rw [hsame]
      exact unshown rfl (by simp) same
    | some retry =>
      have hhandle : m.handle setup env (.retry i) =
          { m with retries := m.retries.eraseIdx i }.remove setup env retry.opened := by
            simp only [handle, hr]
      rcases remove_cases setup env { m with retries := m.retries.eraseIdx i } retry.opened with
        ⟨retries, h⟩ | ⟨message, -, h⟩
      · rw [hhandle, h]
        exact unshown rfl (by simp) (.quiet rfl rfl rfl rfl rfl rfl rfl rfl)
      · have hcleared : Cleared setup env message.uid m (m.handle setup env (.retry i)) := by
          rw [hhandle]
          exact ⟨h.index, h.store, h.notices, h.written, h.itemsChanged, h.ledger, h.ledgerChanged,
            h.listeners,
            h.bootstrapped, h.place, h.queued, h.running, h.stopped⟩
        exact .cleared rfl hcleared (by rw [hhandle]; exact (reacts_remove setup env _ _).handed)

omit [Suite] in
theorem shown_of_isRemoval (h : ev.isRemoval = true) : m.shown env ev = [] := by
  cases ev with
  | command c => cases c <;> first | rfl | cases h
  | notice => cases h
  | batch i => cases h
  | retry i => rfl

theorem opened_of_isRemoval (h : ev.isRemoval = true) : m.opened env ev = [] := by
  have hbatch : ∀ i, ev ≠ .batch i := fun i hi => by rw [hi] at h; cases h
  rw [opened_eq env m hbatch, taken_of_shown_nil (shown_of_isRemoval h)]
  split <;> rfl

namespace Proceeds

/-- The ledger notes the entries that are opened. -/
theorem ledger (h : Proceeds setup env m ev m') :
    m'.ledger = (m.opened env ev).foldl (Ledger.note setup.ring) m.ledger := by
  cases h with
  | still _ hopened hopens => rw [hopened]; exact hopens.admitted.ledger
  | breaks _ hfails hopens =>
    have hopened : m.opened env ev = [] := if_pos hfails
    rw [hopened]
    exact hopens.admitted.ledger
  | lone _ hopened hopens => rw [hopened]; exact hopens.admitted.ledger
  | waits _ hopened hopens => rw [hopened]; exact hopens.admitted.ledger
  | done _ _ hopens => exact hopens.admitted.ledger
  | cleared hremoval hcleared _ => rw [opened_of_isRemoval hremoval]; exact hcleared.ledger

/-- Whatever is handed over was new before. -/
theorem isNew_of_mem_handed (h : Proceeds setup env m ev m') (he : e ∈ handed m'.log) :
    e ∈ handed m.log ∨ m.isNew e = true := by
  have dispatched {m₁ : Mailbox} (hhanded : handed m₁.log = handed m.log)
      (hnew : m₁.isNew e = true → m.isNew e = true) (he : e ∈ handed (dispatch setup m₁).log) :
      e ∈ handed m.log ∨ m.isNew e = true := by
    obtain ⟨front, more, -, -, hmore, -, hlog⟩ := dispatch_spec setup m₁
    rw [hlog, hhanded, hmore, List.mem_append, List.mem_filter] at he
    exact he.imp_right fun he => hnew he.2
  cases h with
  | still _ _ hopens => rw [hopens.handed, List.append_nil] at he; exact .inl he
  | breaks _ _ hopens => rw [hopens.handed, List.append_nil] at he; exact .inl he
  | lone htaken _ hopens =>
    rw [hopens.handed, List.mem_append] at he
    exact he.imp_right fun he => isNew_of_mem_taken (htaken ▸ he)
  | waits _ _ hopens =>
    refine dispatched (by rw [hopens.handed]; exact List.append_nil _) (fun hnew => ?_) he
    rwa [hopens.isNew] at hnew
  | done _ _ hopens =>
    refine dispatched (by rw [hopens.handed]; exact List.append_nil _) (fun hnew => ?_) he
    -- what is new after the batch was opened was new before
    by_contra hold
    exact absurd (hopens.admitted.known (Bool.not_eq_true _ ▸ hold)) (by simp [hnew])
  | cleared _ _ hhanded => rw [hhanded] at he; exact .inl he

end Proceeds

/-! ## One turn -/

omit [Suite] in
theorem Flushed.ledger {m'' : Mailbox} (h : Flushed env m m' m'') : m''.ledger = m'.ledger := by
  cases h <;> rfl

omit [Suite] in
theorem Flushed.handed {m'' : Mailbox} (h : Flushed env m m' m'') :
    handed m''.log = handed m'.log := by
  cases h with
  | stopped => rfl
  | flushed => rw [log_flush, handed_append, handed_writes, List.append_nil]

/-- A mailbox that runs handles the event, and what it has to write is written. -/
theorem step_proceeds (setup : Setup) (env : Surroundings) (ev : Event) (hm : m.stopped = false) :
    ∃ m', Handled setup env m ev m' ∧ Proceeds setup env m ev m' ∧
      Flushed env m m' (m.step setup env ev) := by
  have hhandled := handle_handled setup env m ev
  have hstep : m.step setup env ev =
      if (m.handle setup env ev).stopped then m.handle setup env ev
          else (m.handle setup env ev).flush env := by
    simp [step, hm]
  refine ⟨_, hhandled, handle_proceeds setup env m ev, ?_⟩
  rw [hstep]
  split
  · next hs => exact hhandled.stopped hm hs
  · next hs => exact .flushed (Bool.not_eq_true _ ▸ hs)

end Mailbox

namespace History

variable [Suite] {setup : Setup} {s : History}

/-- What is gathered turn by turn. -/
def traced {α : Type} (setup : Setup) (what : History → Turn → List α) :
    History → List Turn → List α
  | _, [] => []
  | s, t :: turns => what s t ++ traced setup what (s.turn setup t) turns

/-- The entries whose openings a turn brings. -/
def opened (s : History) : Turn → List Entry
  | .event env ev => if s.mailbox.stopped then [] else s.mailbox.opened env ev
  | _ => []

/-- The entries that a turn hands over to be opened. -/
def handedOver (setup : Setup) (s : History) : Turn → List Entry
  | .event env ev =>
    handed (s.turn setup (.event env ev)).mailbox.log ++ if s.mailbox.stopped then []
      else s.mailbox.broken env ev
  | _ => []

theorem turn_of_stopped (setup : Setup) (h : s.mailbox.stopped = true) (env : Surroundings)
    (ev : Event) : (s.turn setup (.event env ev)).mailbox = { s.mailbox with log := [] } ∧
      (s.turn setup (.event env ev)).disk = s.disk := by
  have hstep : { s.mailbox with log := [] }.step setup env ev = { s.mailbox with log := [] } :=
    if_pos h
  simp [turn, hstep, Disk.after]

theorem turn_proceeds (setup : Setup) (env : Surroundings) (ev : Event)
    (h : s.mailbox.stopped = false) :
    ∃ m', Mailbox.Handled setup env { s.mailbox with log := [] } ev m' ∧
      Mailbox.Proceeds setup env { s.mailbox with log := [] } ev m' ∧
      Mailbox.Flushed env { s.mailbox with log := [] } m' (s.turn setup (.event env ev)).mailbox ∧
      (s.turn setup (.event env ev)).disk =
        s.disk.after (s.turn setup (.event env ev)).mailbox.log := by
  obtain ⟨m', hhandled, hproceeds, hflushed⟩ :=
    Mailbox.step_proceeds setup env ev (m := { s.mailbox with log := [] }) h
  exact ⟨m', hhandled, hproceeds, hflushed, rfl⟩

/-- Whatever a turn hands over was new before. -/
theorem isNew_of_mem_handedOver {t : Turn} {e : Entry} (he : e ∈ s.handedOver setup t) :
    s.mailbox.isNew e = true := by
  cases t with
  | overlay change => cases he
  | restart env => cases he
  | event env ev =>
    rw [handedOver, List.mem_append] at he
    cases hs : s.mailbox.stopped with
    | true =>
      rw [(turn_of_stopped setup hs env ev).1, hs, if_pos rfl] at he
      rcases he with he | he <;> cases he
    | false =>
      obtain ⟨m', -, hproceeds, hflushed, -⟩ := turn_proceeds setup env ev hs
      rw [hflushed.handed, hs, if_neg Bool.false_ne_true] at he
      rcases he with he | he
      · exact (hproceeds.isNew_of_mem_handed he).resolve_left List.not_mem_nil
      · exact Mailbox.isNew_of_mem_broken he

end History

end SealedMail
