import SealedMail.Proofs.Mailbox.Opening

/-!
# What handling an event comes to

An event either opens entries (`handle_admitted`) or it is a removal (`handle_removal`). An entry is
`Settled` if the mailbox need not see it again: its payload is indexed, its uid is ignored, it waits
in a batch, or it does not open. Settled entries stay settled, and what is taken in becomes settled.
-/

namespace SealedMail

/-! ## Entries that are known -/

namespace Ledger

variable {l : Ledger} {uid other : String} {created : Timestamp}

theorem contains_ignore : (l.ignore uid created).contains other =
    (decide (other = uid) || l.contains other) := by
  unfold ignore
  split
  · next h => by_cases ho : other = uid <;> simp [ho, h]
  · exact SortedMap.contains_insert _ _ _ _

variable [Suite]

theorem contains_note_mono {ring : KeyRing} {e : Entry} (h : l.contains uid = true) :
    (l.note ring e).contains uid = true := by
  unfold note
  split
  · rw [contains_ignore, h, Bool.or_true]
  · exact h

theorem contains_foldl_note_mono {ring : KeyRing} (es : List Entry) (h : l.contains uid = true) :
    (es.foldl (note ring) l).contains uid = true := by
  induction es generalizing l with
  | nil => exact h
  | cons e es ih => exact ih (contains_note_mono h)

/-- What is ignored was ignored before or is the uid of an entry that is not for us. -/
theorem contains_foldl_note {ring : KeyRing} (es : List Entry) :
    (es.foldl (note ring) l).contains uid = true ↔
      l.contains uid = true ∨ ∃ e ∈ es, e.uid = uid ∧ e.isForeign ring = true := by
  induction es generalizing l with
  | nil => simp
  | cons e es ih =>
    rw [List.foldl_cons, ih, List.exists_mem_cons_iff]
    cases ho : e.opening ring with
    | notForUs other created =>
      obtain ⟨rfl, -⟩ := opening_of_notForUs ho
      have hn : l.note ring e = l.ignore e.uid created := by simp [note, ho, Opening.ignored?]
      rw [hn, contains_ignore, Bool.or_eq_true, decide_eq_true_eq, eq_comm (a := uid)]
      simp only [Entry.isForeign, ho, Opening.ignored?, Option.isSome_some, and_true]
      tauto
    | received item =>
      have hn : l.note ring e = l := by simp [note, ho, Opening.ignored?]
      simp [hn, Entry.isForeign, ho, Opening.ignored?]
    | malformed other reason =>
      have hn : l.note ring e = l := by simp [note, ho, Opening.ignored?]
      simp [hn, Entry.isForeign, ho, Opening.ignored?]

end Ledger

/-- The own address is known and not that of a seed node. -/
def Surroundings.Reads (env : Surroundings) : Prop :=
  ∃ own, env.address = some own ∧ own ∉ env.seeds

namespace Mailbox

variable [Suite] {setup : Setup} {env : Surroundings} {m m' : Mailbox} {es : List Entry} {e : Entry}

theorem isNew_eq_false : m.isNew e = false ↔
    m.ledger.contains e.uid = true ∨ m.index.contains e.hash = true := by
  rw [isNew, Bool.and_eq_false_iff, Bool.not_eq_false', Bool.not_eq_false']

theorem Admitted.contains_index (h : Admitted setup env es m m') {hash : PayloadHash}
    (hc : m.index.contains hash = true) : m'.index.contains hash = true := by
  rw [h.index, Index.contains_foldl_insert, hc, Bool.true_or]

theorem Admitted.contains_ledger (h : Admitted setup env es m m') {uid : String}
    (hc : m.ledger.contains uid = true) : m'.ledger.contains uid = true := by
  rw [h.ledger]
  exact Ledger.contains_foldl_note_mono es hc

theorem Admitted.known (h : Admitted setup env es m m') (he : m.isNew e = false) :
    m'.isNew e = false := by
  rw [isNew_eq_false] at he ⊢
  exact he.imp h.contains_ledger h.contains_index

/-- An entry that was opened is known or malformed. -/
theorem Admitted.opened (h : Admitted setup env es m m') (he : e ∈ es) :
    m'.isNew e = false ∨ (e.opening setup.ring).isMalformed = true := by
  cases ho : e.opening setup.ring with
  | received item =>
    obtain ⟨hi, -, -⟩ := opening_of_received ho
    refine .inl (isNew_eq_false.2 (.inr ?_))
    rw [h.index, Index.contains_foldl_insert, Bool.or_eq_true, List.any_eq_true]
    exact .inr ⟨item, mem_received.2 ⟨hi ▸ he, hi ▸ ho⟩, by simp [Item.hash, hi]⟩
  | notForUs uid created =>
    refine .inl (isNew_eq_false.2 (.inl ?_))
    rw [h.ledger, Ledger.contains_foldl_note]
    exact .inr ⟨e, he, rfl, by simp [Entry.isForeign, ho, Opening.ignored?]⟩
  | malformed uid reason => exact .inr rfl

/-- The entries in batches. -/
def pending (m : Mailbox) : List Entry := m.queued.flatten ++ m.running.flatten

/-- The mailbox need not see an entry again. -/
def Settled (ring : KeyRing) (m : Mailbox) (e : Entry) : Prop :=
  m.isNew e = false ∨ e ∈ m.pending ∨ (e.opening ring).isMalformed = true

/-! ## Batches -/

omit [Suite] in
theorem mem_hand (isNew : Entry → Bool) (slots : Nat) (queue : List (List Entry)) (e : Entry) :
    (e ∈ (hand isNew slots queue).1.flatten ∨ e ∈ (hand isNew slots queue).2.flatten →
      e ∈ queue.flatten) ∧
    (e ∈ queue.flatten → e ∈ (hand isNew slots queue).1.flatten ∨
      e ∈ (hand isNew slots queue).2.flatten ∨ isNew e = false) := by
  induction queue generalizing slots with
  | nil => simp [hand]
  | cons batch queue ih =>
    cases slots with
    | zero =>
      simp only [hand, List.flatten_nil, List.not_mem_nil, false_or]
      exact ⟨id, .inl⟩
    | succ n =>
      have hb : e ∈ batch → e ∈ batch.filter isNew ∨ isNew e = false := by
        intro h
        cases hn : isNew e <;> simp [h, hn]
      simp only [hand]
      split
      · next hnil =>
        rw [hnil] at hb
        obtain ⟨h1, h2⟩ := ih (n + 1)
        simp only [List.flatten_cons, List.mem_append]
        refine ⟨fun h => .inr (h1 h), ?_⟩
        rintro (h | h)
        · exact .inr (.inr ((hb h).resolve_left List.not_mem_nil))
        · exact h2 h
      · obtain ⟨h1, h2⟩ := ih n
        simp only [List.flatten_cons, List.mem_append, List.mem_filter] at hb ⊢
        refine ⟨?_, ?_⟩
        · rintro ((⟨h, -⟩ | h) | h)
          · exact .inl h
          · exact .inr (h1 (.inl h))
          · exact .inr (h1 (.inr h))
        · rintro (h | h)
          · exact (hb h).imp .inl .inr
          · exact (h2 h).imp_left .inr

theorem dispatch_admitted (setup : Setup) (env : Surroundings) (m : Mailbox) :
    Admitted setup env [] m (dispatch setup m) :=
  .nil rfl rfl rfl ⟨_, rfl, by simp⟩ rfl rfl

@[simp] theorem stopped_dispatch (setup : Setup) (m : Mailbox) :
    (dispatch setup m).stopped = m.stopped := rfl

omit [Suite] in
@[simp] theorem stopped_logging (m : Mailbox) (effects : List Effect) :
    (m.logging effects).stopped = m.stopped := rfl

theorem mem_pending_dispatch (h : e ∈ (dispatch setup m).pending) : e ∈ m.pending := by
  have := (mem_hand m.isNew (max setup.maxBatches 1 - m.running.length) m.queued e).1
  simp only [pending, dispatch, logging, List.flatten_append, List.mem_append] at h ⊢
  tauto

theorem Settled.dispatch (h : Settled setup.ring m e) :
    Settled setup.ring (dispatch setup m) e := by
  rcases h with h | h | h
  · exact .inl h
  · have := (mem_hand m.isNew (max setup.maxBatches 1 - m.running.length) m.queued e).2
    unfold Settled
    simp only [pending, Mailbox.dispatch, logging, List.flatten_append, List.mem_append] at h this ⊢
    rcases h with h | h
    · rcases this h with h | h | h
      · exact .inr (.inl (.inr (.inr h)))
      · exact .inr (.inl (.inl h))
      · exact .inl h
    · exact .inr (.inl (.inr (.inl h)))
  · exact .inr (.inr h)

/-! ## Taking in -/

omit [Suite] in
theorem mem_filterMap_mailbox? {stored : List StoredEntry} :
    e ∈ stored.filterMap StoredEntry.mailbox? ↔ .mailbox e ∈ stored := by
  rw [List.mem_filterMap]
  constructor
  · rintro ⟨s, hs, he⟩
    cases s <;> cases he
    exact hs
  · exact fun h => ⟨_, h, rfl⟩

theorem mem_of_mem_distinct {isNew : Entry → Bool} {seen : List PayloadHash}
    (h : e ∈ distinct isNew seen es) : e ∈ es ∧ isNew e = true ∧ e.hash ∉ seen := by
  induction es generalizing seen with
  | nil => simp [distinct] at h
  | cons f es ih =>
    simp only [distinct] at h
    split at h
    · next hf =>
      simp only [Bool.and_eq_true, decide_eq_true_eq] at hf
      rcases List.mem_cons.1 h with rfl | h
      · exact ⟨List.mem_cons_self, hf⟩
      · obtain ⟨h1, h2, h3⟩ := ih h
        exact ⟨List.mem_cons_of_mem _ h1, h2, fun hs => h3 (List.mem_cons_of_mem _ hs)⟩
    · obtain ⟨h1, h2, h3⟩ := ih h
      exact ⟨List.mem_cons_of_mem _ h1, h2, h3⟩

/-- What is new is kept, or an entry of its hash is. -/
theorem exists_mem_distinct {isNew : Entry → Bool} (seen : List PayloadHash) (he : e ∈ es)
    (hn : isNew e = true) (hs : e.hash ∉ seen) : ∃ f ∈ distinct isNew seen es, f.hash = e.hash := by
  induction es generalizing seen with
  | nil => cases he
  | cons f es ih =>
    simp only [distinct]
    split
    · by_cases hf : f.hash = e.hash
      · exact ⟨f, List.mem_cons_self, hf⟩
      · rcases List.mem_cons.1 he with rfl | he
        · exact absurd rfl hf
        · obtain ⟨d, hd, hh⟩ := ih (f.hash :: seen) he
            fun h => (List.mem_cons.1 h).elim (fun h => hf h.symm) hs
          exact ⟨d, List.mem_cons_of_mem _ hd, hh⟩
    · next hf =>
      rcases List.mem_cons.1 he with rfl | he
      · simp [hn, hs] at hf
      · exact ih seen he hs

/-- The entries of a list that are taken in. -/
def fresh (m : Mailbox) (stored : List StoredEntry) : List Entry :=
  distinct m.isNew [] (stored.filterMap StoredEntry.mailbox?)

/-- What becomes of a mailbox that takes in fresh entries. -/
inductive TakesIn (setup : Setup) (env : Surroundings) (m : Mailbox) :
    List Entry → Mailbox → Prop where
  | nothing : TakesIn setup env m [] m
  | breaks (e : Entry) : env.openingFails = true →
      TakesIn setup env m [e] { m with stopped := true }
  | single (e : Entry) : env.openingFails = false →
      TakesIn setup env m [e] ((m.logging [.handed [e]]).openAll setup env [e])
  | batch (es : List Entry) : es ≠ [] →
      TakesIn setup env m es (dispatch setup { m with queued := m.queued ++ [es] })

theorem takeIn_of_not_reads (h : ¬ env.Reads) (stored : List StoredEntry) :
    m.takeIn setup env stored = m := by
  unfold takeIn
  split
  · rfl
  · next own ho =>
    split
    · rfl
    · next hs => exact absurd ⟨own, ho, hs⟩ h

theorem takeIn_takesIn (setup : Setup) (m : Mailbox) (h : env.Reads) (stored : List StoredEntry) :
    TakesIn setup env m (m.fresh stored) (m.takeIn setup env stored) := by
  obtain ⟨own, ho, hs⟩ := h
  simp only [takeIn, ho, hs, if_false, fresh]
  split
  · next hf => rw [hf]; exact .nothing
  · next e hf =>
    rw [hf]
    split
    · next hb => exact .breaks e hb
    · next hb => exact .single e (Bool.not_eq_true _ ▸ hb)
  · next hne _ => exact .batch _ hne

theorem TakesIn.admitted (h : TakesIn setup env m es m') :
    ∃ ds, Admitted setup env ds m m' ∧ ∀ d ∈ ds, d ∈ es := by
  cases h with
  | nothing => exact ⟨[], .nil rfl rfl rfl ⟨[], by simp⟩ rfl rfl, by simp⟩
  | breaks e hb => exact ⟨[], .nil rfl rfl rfl ⟨[], by simp⟩ rfl rfl, by simp⟩
  | single e hb =>
    have h0 : Admitted setup env [] m (m.logging [.handed [e]]) :=
      .nil rfl rfl rfl ⟨_, rfl, by simp⟩ rfl rfl
    exact ⟨[e], h0.append (openAll_admitted setup env _ [e]) rfl
      (openAll_frame setup env _ [e]).bootstrapped, fun d hd => hd⟩
  | batch es =>
    have h0 : Admitted setup env [] m { m with queued := m.queued ++ [es] } :=
      .nil rfl rfl rfl ⟨[], by simp⟩ rfl rfl
    exact ⟨[], h0.append (dispatch_admitted setup env _) rfl rfl, by simp⟩

theorem TakesIn.bootstrapped (h : TakesIn setup env m es m') :
    m'.bootstrapped = m.bootstrapped := by
  cases h with
  | nothing => rfl
  | breaks => rfl
  | single e => exact (openAll_frame setup env (m.logging [.handed [e]]) [e]).bootstrapped
  | batch => rfl

theorem TakesIn.place (h : TakesIn setup env m es m') : m'.place = m.place := by
  cases h with
  | nothing => rfl
  | breaks => rfl
  | single e => exact (openAll_frame setup env (m.logging [.handed [e]]) [e]).place
  | batch => rfl

theorem TakesIn.mem_pending (h : TakesIn setup env m es m') (he : e ∈ m'.pending) :
    e ∈ m.pending ∨ e ∈ es := by
  cases h with
  | nothing => exact .inl he
  | breaks => exact .inl he
  | single d =>
    have hf := openAll_frame setup env (m.logging [.handed [d]]) [d]
    rw [pending, hf.queued, hf.running] at he
    exact .inl he
  | batch es =>
    have := mem_pending_dispatch he
    simp only [pending, List.flatten_append, List.mem_append, List.flatten_cons,
      List.flatten_nil, List.append_nil] at this ⊢
    tauto

theorem TakesIn.settled (h : TakesIn setup env m es m') (he : Settled setup.ring m e) :
    Settled setup.ring m' e := by
  cases h with
  | nothing => exact he
  | breaks => exact he
  | single d =>
    have hf := openAll_frame setup env (m.logging [.handed [d]]) [d]
    refine he.imp (openAll_admitted setup env (m.logging [.handed [d]]) [d]).known (.imp_left ?_)
    rw [pending, pending, hf.queued, hf.running]
    exact id
  | batch es =>
    refine Settled.dispatch (he.imp_right (.imp_left ?_))
    intro h
    simp only [pending, List.flatten_append, List.mem_append] at h ⊢
    tauto

/-- What is fresh becomes settled. -/
theorem TakesIn.settles (h : TakesIn setup env m es m') (hopen : env.openingFails = false)
    (he : e ∈ es) : Settled setup.ring m' e := by
  cases h with
  | nothing => cases he
  | breaks d hb => rw [hopen] at hb; cases hb
  | single d =>
    exact ((openAll_admitted setup env _ [d]).opened he).imp_right .inr
  | batch es =>
    refine Settled.dispatch (.inr (.inl ?_))
    simp [pending, he]

/-- The entries that a list shows, of which no two have the same hash, are settled once it is taken
in. -/
theorem takeIn_settles {stored : List StoredEntry} (hreads : env.Reads)
    (hopen : env.openingFails = false) (he : .mailbox e ∈ stored)
    (hsame : ∀ f, .mailbox f ∈ stored → f.hash = e.hash → f = e) :
    Settled setup.ring (m.takeIn setup env stored) e := by
  have ht := takeIn_takesIn setup m hreads stored
  cases hn : m.isNew e with
  | false => exact ht.settled (.inl hn)
  | true =>
    obtain ⟨f, hf, hh⟩ := exists_mem_distinct [] (mem_filterMap_mailbox?.2 he) hn List.not_mem_nil
    rw [← hsame f (mem_filterMap_mailbox?.1 (mem_of_mem_distinct hf).1) hh]
    exact ht.settles hopen hf

/-- What taking in a list comes to, whether the mailbox reads or not. -/
theorem takeIn_cases (setup : Setup) (env : Surroundings) (m : Mailbox)
    (stored : List StoredEntry) :
    ∃ es, TakesIn setup env m es (m.takeIn setup env stored) ∧ ∀ e ∈ es, .mailbox e ∈ stored := by
  by_cases hr : env.Reads
  · exact ⟨_, takeIn_takesIn setup m hr stored, fun e he =>
      mem_filterMap_mailbox?.1 (mem_of_mem_distinct he).1⟩
  · rw [takeIn_of_not_reads hr]
    exact ⟨[], .nothing, by simp⟩

theorem takeIn_bootstrapped (setup : Setup) (env : Surroundings) (m : Mailbox)
    (stored : List StoredEntry) : (m.takeIn setup env stored).bootstrapped = m.bootstrapped := by
  obtain ⟨es, ht, -⟩ := takeIn_cases setup env m stored
  exact ht.bootstrapped

theorem takeIn_place (setup : Setup) (env : Surroundings) (m : Mailbox)
    (stored : List StoredEntry) : (m.takeIn setup env stored).place = m.place := by
  obtain ⟨es, ht, -⟩ := takeIn_cases setup env m stored
  exact ht.place

theorem takeIn_settled (he : Settled setup.ring m e) (stored : List StoredEntry) :
    Settled setup.ring (m.takeIn setup env stored) e := by
  obtain ⟨es, ht, -⟩ := takeIn_cases setup env m stored
  exact ht.settled he

theorem mem_pending_of_takeIn {stored : List StoredEntry}
    (he : e ∈ (m.takeIn setup env stored).pending) :
    e ∈ m.pending ∨ .mailbox e ∈ stored := by
  obtain ⟨es, ht, hes⟩ := takeIn_cases setup env m stored
  exact (ht.mem_pending he).imp_right (hes e)

theorem takeIn_admitted (h : Admitted setup env [] m m') (hl : m'.listeners = m.listeners)
    (stored : List StoredEntry) :
    ∃ ds, Admitted setup env ds m (m'.takeIn setup env stored) ∧ ∀ d ∈ ds, .mailbox d ∈ stored := by
  obtain ⟨es, ht, hes⟩ := takeIn_cases setup env m' stored
  obtain ⟨ds, hd, hds⟩ := ht.admitted
  exact ⟨ds, h.append hd hl ht.bootstrapped, fun d h => hes d (hds d h)⟩

end Mailbox

end SealedMail
