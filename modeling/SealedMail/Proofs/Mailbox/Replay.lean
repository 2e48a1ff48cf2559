import SealedMail.Proofs.Crypto.Transparent
import SealedMail.Proofs.Mailbox.Event
import SealedMail.Proofs.Overlay.Request

/-!
# Replayed and live entries

A list of entries is admitted at once (`replayed`) or one notice at a time (`live`). Both open the
fresh entries in the same order, but the live path passes over an entry if one before it that is not
for us had the same uid. So the two agree exactly when no such entry opens to a message.
-/

namespace SealedMail

variable [Suite]

/-! ## Payloads decide how entries open -/

theorem opening_of_payload_eq {e f : Entry} (ring : KeyRing) (h : f.payload = e.payload) :
    (f.opening ring).isMalformed = (e.opening ring).isMalformed ∧
      (f.opening ring).item?.isSome = (e.opening ring).item?.isSome := by
  unfold Entry.opening
  rw [h]
  cases ring.openEnvelope e.payload.parcel.sealed with
  | error error => cases error <;> exact ⟨rfl, rfl⟩
  | ok opened =>
    cases hm : opened.message? <;> simp [Item.ofOpened?, hm, Opening.isMalformed, Opening.item?]

/-- The entries that no entry before them keeps out: one that is not for us and has their uid, or
`uids` do. -/
def unshadowed (ring : KeyRing) : List String → List Entry → List Entry
  | _, [] => []
  | uids, e :: es =>
    if e.uid ∈ uids then unshadowed ring uids es
    else e :: unshadowed ring (if e.isForeign ring then e.uid :: uids else uids) es

/-- An entry is not for us, and one that opens to a message has its uid. -/
def Shadows (ring : KeyRing) (f e : Entry) : Prop :=
  f.isForeign ring = true ∧ f.uid = e.uid ∧ (e.opening ring).item?.isSome = true

theorem received_cons (ring : KeyRing) (e : Entry) (es : List Entry) :
    received ring (e :: es) = (e.opening ring).item?.toList ++ received ring es := by
  unfold received
  rw [List.filterMap_cons]
  cases (e.opening ring).item? <;> rfl

theorem received_unshadowed_sublist (ring : KeyRing) (uids : List String) (es : List Entry) :
    (received ring (unshadowed ring uids es)).Sublist (received ring es) := by
  induction es generalizing uids with
  | nil => exact .slnil
  | cons e es ih =>
    simp only [unshadowed]
    split
    · rw [received_cons]
      exact (ih uids).trans (List.sublist_append_right _ _)
    · rw [received_cons, received_cons]
      exact (ih _).append_left _

/-- Nothing that opens to a message is kept out exactly when nothing shadows it. -/
theorem received_unshadowed_eq_iff (ring : KeyRing) (uids : List String) (es : List Entry) :
    received ring (unshadowed ring uids es) = received ring es ↔
      (∀ e ∈ es, (e.opening ring).item?.isSome = true → e.uid ∉ uids) ∧
        es.Pairwise fun f e => ¬ Shadows ring f e := by
  induction es generalizing uids with
  | nil => simp [unshadowed]
  | cons e es ih =>
    simp only [unshadowed, List.forall_mem_cons, List.pairwise_cons]
    split
    · next hu =>
      rw [received_cons]
      cases hi : (e.opening ring).item? with
      | none =>
        rw [Option.toList_none, List.nil_append, ih]
        constructor
        · rintro ⟨h1, h2⟩
          exact ⟨⟨fun h => Bool.noConfusion h, h1⟩, fun d hd hs => h1 d hd hs.2.2 (hs.2.1 ▸ hu), h2⟩
        · rintro ⟨⟨-, h1⟩, -, h2⟩
          exact ⟨h1, h2⟩
      | some item =>
        refine iff_of_false ?_ fun h => h.1.1 rfl hu
        intro h
        have hlen := (received_unshadowed_sublist ring uids es).length_le
        rw [h, List.length_append, Option.toList_some, List.length_singleton] at hlen
        omega
    · next hu =>
      rw [received_cons, received_cons, List.append_cancel_left_eq, ih]
      cases hf : e.isForeign ring with
      | false =>
        simp only [Bool.false_eq_true, if_false]
        constructor
        · rintro ⟨h1, h2⟩
          exact ⟨⟨fun _ => hu, h1⟩,
            fun d _ hs => absurd (hf.symm.trans hs.1) Bool.false_ne_true, h2⟩
        · rintro ⟨⟨-, h1⟩, -, h2⟩
          exact ⟨h1, h2⟩
      | true =>
        simp only [if_true, List.mem_cons, not_or]
        constructor
        · rintro ⟨h1, h2⟩
          exact ⟨⟨fun _ => hu, fun d hd hi => (h1 d hd hi).2⟩,
            fun d hd hs => (h1 d hd hs.2.2).1 hs.2.1.symm, h2⟩
        · rintro ⟨⟨-, h1⟩, h2, h3⟩
          exact ⟨fun d hd hi => ⟨fun he => h2 d hd ⟨hf, he.symm, hi⟩, h1 d hd hi⟩, h3⟩

theorem foldl_note_unshadowed (ring : KeyRing) {uids : List String} {l : Ledger} (es : List Entry)
    (h : ∀ uid ∈ uids, l.contains uid = true) :
    (unshadowed ring uids es).foldl (Ledger.note ring) l = es.foldl (Ledger.note ring) l := by
  induction es generalizing uids l with
  | nil => rfl
  | cons e es ih =>
    simp only [unshadowed]
    split
    · next hu =>
      have hn : l.note ring e = l := by
        unfold Ledger.note
        cases ho : e.opening ring with
        | notForUs uid created =>
          obtain ⟨rfl, -⟩ := opening_of_notForUs ho
          exact if_pos (h _ hu)
        | received => rfl
        | malformed => rfl
      rw [List.foldl_cons, hn, ih h]
    · rw [List.foldl_cons, List.foldl_cons]
      refine ih ?_
      intro uid hu
      cases hf : e.isForeign ring with
      | false =>
        rw [hf] at hu
        exact Ledger.contains_note_mono (h uid hu)
      | true =>
        rw [hf] at hu
        rcases List.mem_cons.1 hu with rfl | hu
        · exact (Ledger.contains_foldl_note [e]).2 (.inr ⟨e, List.mem_singleton_self e, rfl, hf⟩)
        · exact Ledger.contains_note_mono (h uid hu)

/-! ## Times -/

namespace Mailbox

variable {setup : Setup} {env : Surroundings} {m m' : Mailbox} {es : List Entry}

/-- When a removal was signed is not kept. -/
theorem withdraw_now (setup : Setup) (env : Surroundings) (now : Timestamp) :
    withdraw setup { env with now } = withdraw setup env := by
  funext s e
  unfold withdraw Access.mint
  split
  · cases env.access.signingFails e.payload <;> rfl
  · rfl

theorem Admitted.of_now {now : Timestamp} (h : Admitted setup { env with now } es m m') :
    Admitted setup env es m m' := by
  refine ⟨h.index, h.ledger, ?_, h.notices, h.written, h.itemsChanged, h.ledgerChanged⟩
  rw [h.store, withdrawAll, withdrawAll, withdrawItems, withdrawItems, withdraw_now]

theorem Admitted.of_malformed {e : Entry} (h : Admitted setup env [e] m m')
    (he : (e.opening setup.ring).isMalformed = true) : Admitted setup env [] m m' := by
  obtain ⟨uid, reason, ho⟩ : ∃ uid reason, e.opening setup.ring = .malformed uid reason := by
    cases ho : e.opening setup.ring with
    | malformed uid reason => exact ⟨uid, reason, rfl⟩
    | received => rw [ho] at he; cases he
    | notForUs => rw [ho] at he; cases he
  have hr : received setup.ring [e] = received setup.ring [] := by
    simp [received, ho, Opening.item?]
  have hl : [e].foldl (Ledger.note setup.ring) m.ledger = m.ledger := by
    simp [Ledger.note, ho, Opening.ignored?]
  exact ⟨hr ▸ h.index, h.ledger.trans hl, hr ▸ h.store, hr ▸ h.notices, h.written,
    hr ▸ h.itemsChanged,
    h.ledgerChanged⟩

/-! ## The two ways -/

/-- Take in a list at once and open its batch. -/
def replayed (setup : Setup) (env : Surroundings) (m : Mailbox) (stored : List StoredEntry)
    (taken opened : Timestamp) : Mailbox :=
  (m.takeIn setup { env with now := taken } stored).handleBatch setup { env with now := opened } 0

/-- Read entries as single changes, each at its time. -/
def live (setup : Setup) (env : Surroundings) (m : Mailbox)
    (shown : List (StoredEntry × Timestamp)) : Mailbox :=
  shown.foldl
    (fun m x => m.handleNotice setup { env with now := x.2 } (.change { added := [x.1] })) m

/-- A batch of new entries is handed over whole when no other waits or is open. -/
theorem dispatch_single {batch : List Entry} (hq : m.queued = []) (hr : m.running = [])
    (hb : batch ≠ []) (hn : ∀ e ∈ batch, m.isNew e = true) :
    dispatch setup { m with queued := m.queued ++ [batch] } =
      { m with queued := [], running := [batch] }.logging [.handed batch] := by
  have hf : batch.filter m.isNew = batch := List.filter_eq_self.2 hn
  have hh : hand m.isNew (max setup.maxBatches 1 - m.running.length) (m.queued ++ [batch]) =
      ([batch], []) := by
    rw [hq, hr, List.nil_append, List.length_nil,
      show max setup.maxBatches 1 - 0 = (max setup.maxBatches 1 - 1) + 1 by omega, hand, hf]
    cases batch with
    | nil => exact absurd rfl hb
    | cons e es => cases max setup.maxBatches 1 - 1 <;> rfl
  have hd : dispatch setup { m with queued := m.queued ++ [batch] } =
      { m with
        queued := (hand m.isNew (max setup.maxBatches 1 - m.running.length) (m.queued ++ [batch])).2
        running := m.running ++
          (hand m.isNew (max setup.maxBatches 1 - m.running.length) (m.queued ++ [batch])).1
      }.logging ((hand m.isNew (max setup.maxBatches 1 - m.running.length)
        (m.queued ++ [batch])).1.map .handed) := rfl
  rw [hd, hh, hr]
  rfl

theorem handleBatch_of_running_nil (hr : m.running = []) (i : Nat) :
    m.handleBatch setup env i = m := by
  simp [handleBatch, hr]

theorem replayed_admitted (setup : Setup) (hreads : env.Reads) (hopens : env.openingFails = false)
    (hq : m.queued = []) (hr : m.running = []) (stored : List StoredEntry)
    (taken opened : Timestamp) :
    Admitted setup env (m.fresh stored) m (m.replayed setup env stored taken opened) ∧
      (m.replayed setup env stored taken opened).bootstrapped = m.bootstrapped := by
  have hreads' : Surroundings.Reads { env with now := taken } := hreads
  have ht := takeIn_takesIn setup m hreads' stored
  have hnew : ∀ e ∈ m.fresh stored, m.isNew e = true := fun e he => (mem_of_mem_distinct he).2.1
  unfold replayed
  generalize m.takeIn setup { env with now := taken } stored = m₁ at ht
  generalize m.fresh stored = es at ht hnew
  cases ht with
  | nothing =>
    rw [handleBatch_of_running_nil hr]
    exact ⟨.nil rfl rfl rfl ⟨[], by simp⟩ rfl rfl, rfl⟩
  | breaks e hb => exact absurd (hopens.symm.trans hb) Bool.false_ne_true
  | single e =>
    have hf := openAll_frame setup { env with now := taken } (m.logging [.handed [e]]) [e]
    have h0 : Admitted setup env [] m (m.logging [.handed [e]]) :=
      .nil rfl rfl rfl ⟨_, rfl, by simp⟩ rfl rfl
    rw [handleBatch_of_running_nil (hf.running.trans hr)]
    exact ⟨h0.append (openAll_admitted setup { env with now := taken } _ [e]).of_now rfl
      hf.bootstrapped,
      hf.bootstrapped⟩
  | batch _ hes =>
    rw [dispatch_single hq hr hes hnew]
    let m₁ : Mailbox := { m with queued := [], running := [] }.logging [.handed es]
    have hbatch : ({ m with queued := [], running := [es] }.logging [.handed es]).handleBatch setup
        { env with now := opened } 0 =
          dispatch setup (m₁.openAll setup { env with now := opened } es) := by
      simp only [handleBatch, logging, List.getElem?_cons_zero, List.eraseIdx_cons_zero, hopens,
        Bool.false_eq_true, if_false]
      rfl
    have h0 : Admitted setup env [] m m₁ :=
      .nil rfl rfl rfl ⟨_, rfl, by simp⟩ rfl rfl
    have hf := openAll_frame setup { env with now := opened } m₁ es
    have h1 := h0.append (openAll_admitted setup { env with now := opened } m₁ es).of_now rfl
      hf.bootstrapped
    have h2 := h1.append (dispatch_admitted setup env _) hf.listeners rfl
    rw [List.nil_append, List.append_nil] at h2
    rw [hbatch]
    exact ⟨h2, hf.bootstrapped⟩

/-! ## Live entries -/

theorem takeIn_of_fresh_nil {stored : List StoredEntry} (h : m.fresh stored = []) :
    m.takeIn setup env stored = m := by
  unfold fresh at h
  unfold takeIn
  split
  · rfl
  · split
    · rfl
    · rw [h]

theorem takeIn_new (hreads : env.Reads) (hopens : env.openingFails = false) {e : Entry}
    (h : m.isNew e = true) :
    m.takeIn setup env [.mailbox e] = (m.logging [.handed [e]]).openAll setup env [e] := by
  obtain ⟨own, ho, hs⟩ := hreads
  have hd : distinct m.isNew [] ([StoredEntry.mailbox e].filterMap StoredEntry.mailbox?) = [e] := by
    simp [distinct, StoredEntry.mailbox?, h]
  simp only [takeIn, ho, hs, if_false, hd, hopens, Bool.false_eq_true]
  rfl

omit [Suite] in
/-- The mailbox entries among those that are shown. -/
def entries (shown : List (StoredEntry × Timestamp)) : List Entry :=
  (shown.map (·.1)).filterMap StoredEntry.mailbox?

omit [Suite] in
theorem entries_cons_mailbox (e : Entry) (now : Timestamp)
    (shown : List (StoredEntry × Timestamp)) :
    entries ((.mailbox e, now) :: shown) = e :: entries shown := rfl

omit [Suite] in
theorem entries_cons_generic (g : GenericEntry) (now : Timestamp)
    (shown : List (StoredEntry × Timestamp)) :
    entries ((.generic g, now) :: shown) = entries shown := rfl

theorem live_cons (x : StoredEntry) (now : Timestamp) (shown : List (StoredEntry × Timestamp)) :
    m.live setup env ((x, now) :: shown) =
      (m.takeIn setup { env with now } [x]).live setup env shown := rfl

section Parallel

variable {ring : KeyRing} {m₀ : Mailbox} {seen : List PayloadHash} {uids : List String} {e : Entry}

/-- Reading has come to `m` from `m₀`, past entries with the hashes `seen`, of which those that are
not for us have the uids `uids`. -/
structure Parallel (ring : KeyRing) (m₀ m : Mailbox) (seen : List PayloadHash) (uids : List String)
    (es : List Entry) : Prop where
  ledger : ∀ uid, m.ledger.contains uid = true ↔ m₀.ledger.contains uid = true ∨ uid ∈ uids
  indexed : ∀ hash, m₀.index.contains hash = true → m.index.contains hash = true
  passed : ∀ hash, m.index.contains hash = true → m₀.index.contains hash = true ∨ hash ∈ seen
  settled : ∀ e ∈ es, e.hash ∈ seen → m.isNew e = false ∨ (e.opening ring).isMalformed = true

theorem Parallel.start (ring : KeyRing) (m : Mailbox) (es : List Entry) :
    Parallel ring m m [] [] es :=
  ⟨fun _ => by simp, fun _ h => h, fun _ h => .inl h, fun _ _ h => absurd h List.not_mem_nil⟩

theorem Parallel.tail (h : Parallel ring m₀ m seen uids (e :: es)) :
    Parallel ring m₀ m seen uids es :=
  ⟨h.ledger, h.indexed, h.passed, fun f hf => h.settled f (List.mem_cons_of_mem _ hf)⟩

theorem isNew_of_payload_eq {f : Entry} (h : f.payload = e.payload) : m.isNew f = m.isNew e := by
  rw [isNew, isNew, Entry.uid, Entry.uid, Entry.hash, Entry.hash, h]

/-- An entry that is known stays out of both ways. -/
theorem Parallel.known (h : Parallel ring m₀ m seen uids (e :: es))
    (hfree : ∀ f ∈ es, f.hash = e.hash → f.payload = e.payload) (hn : m.isNew e = false) :
    ∃ seen', Parallel ring m₀ m seen' uids es ∧
      unshadowed ring uids (distinct m₀.isNew seen (e :: es)) =
        unshadowed ring uids (distinct m₀.isNew seen' es) := by
  by_cases hd : m₀.isNew e = true ∧ e.hash ∉ seen
  · refine ⟨e.hash :: seen, ⟨h.ledger, h.indexed, ?_, ?_⟩, ?_⟩
    · intro hash hh
      exact (h.passed hash hh).imp_right (List.mem_cons_of_mem _)
    · intro f hf hs
      rcases List.mem_cons.1 hs with hs | hs
      · exact .inl ((isNew_of_payload_eq (hfree f hf hs)).trans hn)
      · exact h.settled f (List.mem_cons_of_mem _ hf) hs
    · have hu : e.uid ∈ uids := by
        have hn₀ : m₀.ledger.contains e.uid = false ∧ m₀.index.contains e.hash = false := by
          simpa [isNew] using hd.1
        rcases isNew_eq_false.1 hn with hl | hi
        · exact ((h.ledger e.uid).1 hl).resolve_left (by simp [hn₀.1])
        · rcases h.passed e.hash hi with hi | hs
          · exact absurd (hn₀.2.symm.trans hi) Bool.false_ne_true
          · exact absurd hs hd.2
      simp [distinct, hd, unshadowed, hu]
  · refine ⟨seen, h.tail, ?_⟩
    have : (m₀.isNew e && decide (e.hash ∉ seen)) = false := by
      simpa [Bool.and_eq_false_iff] using hd
    simp only [distinct, this, Bool.false_eq_true, if_false]

/-- An entry that is new is opened in both ways, unless one of its payload was opened before and is
malformed. -/
theorem Parallel.new (h : Parallel setup.ring m₀ m seen uids (e :: es))
    (hfree : ∀ f ∈ es, f.hash = e.hash → f.payload = e.payload) (hn : m.isNew e = true)
    (ha : Admitted setup env [e] m m') :
    ∃ seen' uids' ds, Parallel setup.ring m₀ m' seen' uids' es ∧ Admitted setup env ds m m' ∧
      unshadowed setup.ring uids (distinct m₀.isNew seen (e :: es)) =
        ds ++ unshadowed setup.ring uids' (distinct m₀.isNew seen' es) := by
  by_cases hs : e.hash ∈ seen
  · have hm := (h.settled e List.mem_cons_self hs).resolve_left (by simp [hn])
    have ha' := ha.of_malformed hm
    have hi : m'.index = m.index := ha'.index
    have hl : m'.ledger = m.ledger := ha'.ledger
    refine ⟨seen, uids, [], ⟨hl ▸ h.ledger, hi ▸ h.indexed, hi ▸ h.passed, ?_⟩, ha', ?_⟩
    · intro f hf hfs
      exact (h.settled f (List.mem_cons_of_mem _ hf) hfs).imp_left ha'.known
    · simp [distinct, hs]
  · have hn₀ : m₀.isNew e = true := by
      refine Bool.not_eq_false _ ▸ fun hk => absurd hn ?_
      rw [Bool.not_eq_true, isNew_eq_false]
      exact (isNew_eq_false.1 hk).imp (fun hl => (h.ledger _).2 (.inl hl)) (h.indexed _)
    have hu : e.uid ∉ uids := fun hu => absurd hn (by
      rw [Bool.not_eq_true, isNew_eq_false]
      exact .inl ((h.ledger _).2 (.inr hu)))
    refine ⟨e.hash :: seen, if e.isForeign setup.ring then e.uid :: uids else uids, [e],
      ⟨?_, fun hash hh => ha.contains_index (h.indexed hash hh), ?_, ?_⟩, ha, ?_⟩
    · intro uid
      rw [ha.ledger, Ledger.contains_foldl_note, h.ledger]
      cases hf : e.isForeign setup.ring with
      | false => simp [hf]
      | true =>
        have hone : (∃ d ∈ [e], d.uid = uid ∧ d.isForeign setup.ring = true) ↔ uid = e.uid := by
          simp only [List.mem_singleton, exists_eq_left, hf, and_true]
          exact eq_comm
        rw [hone, if_pos rfl, List.mem_cons]
        tauto
    · intro hash hh
      rw [ha.index, Index.contains_foldl_insert, Bool.or_eq_true, List.any_eq_true] at hh
      rcases hh with hh | ⟨item, hi, hh⟩
      · exact (h.passed hash hh).imp_right (List.mem_cons_of_mem _)
      · rw [← of_decide_eq_true hh, Item.hash, List.mem_singleton.1 (mem_received.1 hi).1]
        exact .inr List.mem_cons_self
    · intro f hf hfs
      rcases List.mem_cons.1 hfs with hfs | hfs
      · have hp := hfree f hf hfs
        rw [isNew_of_payload_eq hp, (opening_of_payload_eq setup.ring hp).1]
        exact ha.opened (List.mem_singleton_self e)
      · exact (h.settled f (List.mem_cons_of_mem _ hf) hfs).imp_left ha.known
    · simp [distinct, hn₀, hs, unshadowed, hu]

theorem live_admitted (hreads : env.Reads) (hopens : env.openingFails = false)
    (shown : List (StoredEntry × Timestamp))
    (h : Parallel setup.ring m₀ m seen uids (entries shown))
    (hfree : (entries shown).Pairwise fun e f => f.hash = e.hash → f.payload = e.payload) :
    Admitted setup env (unshadowed setup.ring uids (distinct m₀.isNew seen (entries shown))) m
        (m.live setup env shown) ∧
      (m.live setup env shown).listeners = m.listeners ∧
      (m.live setup env shown).bootstrapped = m.bootstrapped := by
  induction shown generalizing m seen uids with
  | nil => exact ⟨.nil rfl rfl rfl ⟨[], by simp [live]⟩ rfl rfl, rfl, rfl⟩
  | cons x shown ih =>
    obtain ⟨x, now⟩ := x
    cases x with
    | generic g =>
      rw [entries_cons_generic] at h hfree ⊢
      have hnil : m.fresh [.generic g] = [] := rfl
      rw [live_cons, takeIn_of_fresh_nil hnil]
      exact ih h hfree
    | mailbox e =>
      rw [entries_cons_mailbox] at h hfree ⊢
      rw [live_cons]
      obtain ⟨hfree, hfrees⟩ := List.pairwise_cons.1 hfree
      cases hn : m.isNew e with
      | false =>
        obtain ⟨seen', h', hun⟩ := h.known hfree hn
        have hnil : m.fresh [.mailbox e] = [] := by simp [fresh, distinct, StoredEntry.mailbox?, hn]
        rw [takeIn_of_fresh_nil hnil, hun]
        exact ih h' hfrees
      | true =>
        generalize hm : m.takeIn setup { env with now } [.mailbox e] = m₁
        have hreads' : Surroundings.Reads { env with now } := hreads
        have hm₁ : m₁ = (m.logging [.handed [e]]).openAll setup { env with now } [e] :=
          hm.symm.trans (takeIn_new hreads' hopens hn)
        have hf := openAll_frame setup { env with now } (m.logging [.handed [e]]) [e]
        have h0 : Admitted setup env [] m (m.logging [.handed [e]]) :=
          .nil rfl rfl rfl ⟨_, rfl, by simp⟩ rfl rfl
        have ha : Admitted setup env [e] m m₁ := by
          rw [hm₁]
          exact h0.append (openAll_admitted setup { env with now } _ [e]).of_now rfl hf.bootstrapped
        have hl₁ : m₁.listeners = m.listeners := by rw [hm₁]; exact hf.listeners
        have hb₁ : m₁.bootstrapped = m.bootstrapped := by rw [hm₁]; exact hf.bootstrapped
        obtain ⟨seen', uids', ds, h', hds, hun⟩ := h.new hfree hn ha
        obtain ⟨h1, h2, h3⟩ := ih h' hfrees
        rw [hun]
        exact ⟨hds.append h1 hl₁ h3, h2.trans hl₁, h3.trans hb₁⟩

end Parallel

/-! ## Agreement -/

/-- Index, ledger, store and all that the listeners were told, one after the other, are the same. -/
structure Agrees (m m' : Mailbox) : Prop where
  index : m.index = m'.index
  ledger : m.ledger = m'.ledger
  store : m.store = m'.store
  notices : notices m.log = notices m'.log

theorem nodup_distinct (isNew : Entry → Bool) (seen : List PayloadHash) (es : List Entry) :
    ((distinct isNew seen es).map Entry.hash).Nodup := by
  induction es generalizing seen with
  | nil => exact List.nodup_nil
  | cons e es ih =>
    simp only [distinct]
    split
    · refine List.nodup_cons.2 ⟨?_, ih _⟩
      intro h
      obtain ⟨f, hf, hh⟩ := List.mem_map.1 h
      exact (mem_of_mem_distinct hf).2.2 (hh ▸ List.mem_cons_self)
    · exact ih seen

theorem map_hash_received_sublist (ring : KeyRing) (es : List Entry) :
    ((received ring es).map Item.hash).Sublist (es.map Entry.hash) := by
  induction es with
  | nil => exact .slnil
  | cons e es ih =>
    rw [received_cons]
    cases ho : e.opening ring with
    | received item =>
      obtain ⟨hi, -, -⟩ := opening_of_received ho
      simpa [Opening.item?, Item.hash, hi] using ih
    | notForUs => exact ih.cons _
    | malformed => exact ih.cons _

theorem news_received_fresh {ring : KeyRing} {items : List Item} (m : Mailbox) (es : List Entry)
    (h : items.Sublist (received ring (distinct m.isNew [] es))) : m.index.news items = items := by
  refine Index.news_eq_self ?_ ?_
  · exact (nodup_distinct m.isNew [] es).sublist
      ((h.map _).trans (map_hash_received_sublist ring _))
  · intro item hi
    have hn := (mem_of_mem_distinct (mem_received.1 (h.subset hi)).1).2.1
    simp only [isNew, Bool.and_eq_true, Bool.not_eq_true'] at hn
    exact hn.2

/-- Entries that are replayed as a batch leave the same index, ledger, store and notifications as
entries that are read live, exactly when none that is not for us stands before one with the same uid
that opens to a message. -/
theorem replayed_agrees_live_iff (setup : Setup) (env : Surroundings) (m : Mailbox)
    (shown : List (StoredEntry × Timestamp)) (taken opened : Timestamp) (hreads : env.Reads)
    (hopens : env.openingFails = false) (hq : m.queued = []) (hr : m.running = [])
    (hfree : ∀ e ∈ entries shown, ∀ f ∈ entries shown, e.hash = f.hash → e.payload = f.payload) :
    Agrees (m.replayed setup env (shown.map (·.1)) taken opened) (m.live setup env shown) ↔
      (distinct m.isNew [] (entries shown)).Pairwise fun f e => ¬ Shadows setup.ring f e := by
  obtain ⟨hreplayed, hrb⟩ := replayed_admitted setup hreads hopens hq hr (shown.map (·.1))
    taken opened
  rw [show m.fresh (shown.map (·.1)) = distinct m.isNew [] (entries shown) from rfl] at hreplayed
  obtain ⟨hlive, -, hlb⟩ := live_admitted hreads hopens shown (.start setup.ring m (entries shown))
    (List.pairwise_of_forall_mem_list fun e he f hf h => hfree f hf e he h)
  have hsub := received_unshadowed_sublist setup.ring [] (distinct m.isNew [] (entries shown))
  have hiff := received_unshadowed_eq_iff setup.ring [] (distinct m.isNew [] (entries shown))
  generalize m.replayed setup env (shown.map (·.1)) taken opened = r at hreplayed hrb ⊢
  generalize m.live setup env shown = l at hlive hlb ⊢
  rw [← (hiff.trans (and_iff_right fun _ _ _ => List.not_mem_nil))]
  constructor
  · intro h
    have hitems := congrArg Index.items h.index
    rw [hreplayed.index, hlive.index, Index.items_foldl_insert, Index.items_foldl_insert,
      news_received_fresh m _ (List.Sublist.refl _), news_received_fresh m _ hsub,
      List.append_cancel_left_eq] at hitems
    exact hitems.symm
  · intro h
    refine ⟨?_, ?_, ?_, ?_⟩
    · rw [hreplayed.index, hlive.index, h]
    · rw [hreplayed.ledger, hlive.ledger]
      exact (foldl_note_unshadowed setup.ring _ fun _ h => absurd h List.not_mem_nil).symm
    · rw [hreplayed.store, hlive.store, hrb, hlb, h]
    · rw [hreplayed.notices, hlive.notices, h]

end Mailbox

end SealedMail

/-! ## An entry that is not for us before one with its uid -/

namespace SealedMail.Mailbox

attribute [local instance] Suite.transparent

open Transparent

/-- The store holds a letter to another ring, and one with the same uid to ours. -/
def shadowing : Store :=
  [entry (ring 1) (ring 3) (letter "u") 1, entry (ring 1) (ring 2) (letter "u") 1].foldl
    (fun s e => s.serve (.add e)) (.ofCapacity 8 (.sufficient 1))

/-- Nothing was written before, and somebody listens. -/
def shadowed : Mailbox :=
  { restore Transparent.setup (online 0) shadowing [] ⟨.empty⟩ with
    bootstrapped := true
    place := some 2
    listeners := SortedMap.empty.insert 1 () }

/-- Replayed, the letter to us is indexed. Read live, it is passed over, because its uid has been
ignored. -/
theorem replayed_differs_from_live :
    shadowed.bootstrapped = true ∧ shadowed.pending = [] ∧ (online 0).Reads ∧
      ¬ Agrees
        (shadowed.replayed Transparent.setup (online 0)
          [.mailbox (entry (ring 1) (ring 3) (letter "u") 1),
            .mailbox (entry (ring 1) (ring 2) (letter "u") 1)]
          ⟨1⟩ ⟨1⟩)
        (shadowed.live Transparent.setup (online 0)
          [(.mailbox (entry (ring 1) (ring 3) (letter "u") 1), ⟨1⟩),
            (.mailbox (entry (ring 1) (ring 2) (letter "u") 1), ⟨1⟩)]) := by
  refine ⟨rfl, rfl, ⟨_, rfl, List.not_mem_nil⟩, ?_⟩
  intro h
  have hsize := congrArg Index.size h.index
  exact absurd hsize (by decide +kernel)

/-- In the other order both ways index the letter to us. -/
theorem replayed_agrees_live_unshadowed :
    (online 0).Reads ∧ (online 0).openingFails = false ∧ shadowed.queued = [] ∧
    shadowed.running = [] ∧
      Agrees
        (shadowed.replayed Transparent.setup (online 0)
          [.mailbox (entry (ring 1) (ring 2) (letter "u") 1),
            .mailbox (entry (ring 1) (ring 3) (letter "u") 1)]
          ⟨1⟩ ⟨2⟩)
        (shadowed.live Transparent.setup (online 0)
          [(.mailbox (entry (ring 1) (ring 2) (letter "u") 1), ⟨1⟩),
            (.mailbox (entry (ring 1) (ring 3) (letter "u") 1), ⟨3⟩)]) := by
  have hreads : (online 0).Reads := ⟨_, rfl, List.not_mem_nil⟩
  refine ⟨hreads, rfl, rfl, rfl, (replayed_agrees_live_iff Transparent.setup (online 0) shadowed
    [(.mailbox (entry (ring 1) (ring 2) (letter "u") 1), ⟨1⟩),
      (.mailbox (entry (ring 1) (ring 3) (letter "u") 1), ⟨3⟩)] ⟨1⟩ ⟨2⟩ hreads rfl rfl rfl
    (by decide +kernel)).2 ?_⟩
  unfold Shadows
  decide +kernel

end SealedMail.Mailbox
