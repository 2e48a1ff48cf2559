import Mathlib.Data.List.Perm.Subperm
import SealedMail.Proofs.Mailbox.Presentation

/-!
# The order of two payloads

What a mailbox has received, and behind it what waits in its batches, is one line:
`Mailbox.arrivals`. The overlay puts what it shows at the end of the line, and a mailbox that opens
one batch at a time works it off from the front. So of two payloads the one that is shown first
stays ahead (`Proceeds.leads`), with one exception: a lone entry is opened on the spot, ahead of all
that waits (`Mailbox.overtaking`). The order in which items are listed then stays as it is, whatever
is removed (`Proceeds.among_eq`).
-/

namespace SealedMail

/-! ## Two payloads in a list -/

section Lists

variable {one other hash : PayloadHash} {xs ys : List PayloadHash}

/-- Where two payloads come in a list. -/
def among (one other : PayloadHash) (hashes : List PayloadHash) : List PayloadHash :=
  hashes.filter fun hash => hash = one || hash = other

/-- Of two payloads the first one comes first in a list. -/
def Leads (one other : PayloadHash) (hashes : List PayloadHash) : Prop :=
  (among one other hashes).head? = some one

instance : Decidable (Leads one other xs) := inferInstanceAs (Decidable (_ = _))

theorem among_append (one other : PayloadHash) (xs ys : List PayloadHash) :
    among one other (xs ++ ys) = among one other xs ++ among one other ys :=
  List.filter_append ..

theorem among_comm (one other : PayloadHash) (xs : List PayloadHash) :
    among one other xs = among other one xs :=
  List.filter_congr fun _ _ => Bool.or_comm ..

theorem among_eq_nil_iff : among one other xs = [] ↔ one ∉ xs ∧ other ∉ xs := by
  rw [among, List.filter_eq_nil_iff]
  simp only [Bool.or_eq_true, decide_eq_true_eq, not_or]
  constructor
  · exact fun h => ⟨fun hone => (h one hone).1 rfl, fun hother => (h other hother).2 rfl⟩
  · rintro ⟨hone, hother⟩ hash hmem
    exact ⟨fun h => hone (h ▸ hmem), fun h => hother (h ▸ hmem)⟩

theorem mem_among : hash ∈ among one other xs ↔ hash ∈ xs ∧ (hash = one ∨ hash = other) := by
  simp [among, List.mem_filter]

theorem not_leads_nil : ¬ Leads one other [] := nofun

theorem leads_cons :
    Leads one other (hash :: xs) ↔ hash = one ∨ hash ≠ other ∧ Leads one other xs := by
  unfold Leads among
  by_cases hone : hash = one
  · simp [hone]
  · by_cases hother : hash = other
    · simp [hother, show other ≠ one from fun h => hone (hother.trans h)]
    · simp [hone, hother]

theorem leads_append : Leads one other (xs ++ ys) ↔
    Leads one other xs ∨ (one ∉ xs ∧ other ∉ xs) ∧ Leads one other ys := by
  rw [← among_eq_nil_iff, Leads, Leads, among_append]
  cases h : among one other xs with
  | nil => simp [Leads]
  | cons hash rest => simp

theorem Leads.mem (h : Leads one other xs) : one ∈ xs := (mem_among.1 (List.mem_of_mem_head? h)).1

theorem Leads.append (h : Leads one other xs) (ys : List PayloadHash) :
    Leads one other (xs ++ ys) :=
  leads_append.2 (.inl h)

theorem Leads.of_append (h : Leads one other (xs ++ ys)) (hone : one ∈ xs) : Leads one other xs :=
  (leads_append.1 h).resolve_right fun h => h.1.1 hone

theorem Leads.of_append_right (h : Leads one other (xs ++ ys)) (hone : one ∉ xs) :
    other ∉ xs ∧ Leads one other ys :=
  ((leads_append.1 h).resolve_left fun h => hone h.mem).imp_left And.right

theorem Leads.behind (h : Leads one other ys) (hother : other ∉ xs) :
    Leads one other (xs ++ ys) := by
  by_cases hone : one ∈ xs
  · refine Leads.append ?_ ys
    induction xs with
    | nil => cases hone
    | cons hash xs ih =>
      rw [List.mem_cons, not_or] at hother
      refine leads_cons.2 ((List.mem_cons.1 hone).imp Eq.symm fun hone =>
        ⟨Ne.symm hother.1, ih hother.2 hone⟩)
  · exact leads_append.2 (.inr ⟨⟨hone, hother⟩, h⟩)

/-- The two payloads, once each, in the order that the first one to come fixes. -/
theorem Leads.among_eq (h : Leads one other xs) (hne : one ≠ other) (hn : xs.Nodup)
    (hother : other ∈ xs) : among one other xs = [one, other] := by
  cases hamong : among one other xs with
  | nil => rw [Leads, hamong] at h; cases h
  | cons hash rest =>
    have hhash : hash = one := by rw [Leads, hamong] at h; exact Option.some.inj h
    subst hhash
    have hnodup : (hash :: rest).Nodup := hamong ▸ hn.filter _
    have hrest : rest.Perm [other] := by
      refine (List.perm_ext_iff_of_nodup hnodup.of_cons (List.nodup_singleton other)).2 fun x => ?_
      rw [List.mem_singleton]
      constructor
      · intro hx
        have hmem : x ∈ among hash other xs := hamong ▸ List.mem_cons_of_mem _ hx
        exact (mem_among.1 hmem).2.resolve_left fun h => (List.nodup_cons.1 hnodup).1 (h ▸ hx)
      · rintro rfl
        have hmem : x ∈ hash :: rest := hamong ▸ mem_among.2 ⟨hother, .inr rfl⟩
        exact (List.mem_cons.1 hmem).resolve_left (Ne.symm hne)
    rw [List.perm_singleton.1 hrest]

theorem Leads.filter {α : Type} {f : α → PayloadHash} {keep : α → Bool} {as : List α}
    (h : Leads one other (as.map f)) (hkeep : ∀ a ∈ as, f a = one → keep a = true) :
    Leads one other ((as.filter keep).map f) := by
  induction as with
  | nil => exact h
  | cons a as ih =>
    obtain ⟨ha, has⟩ := List.forall_mem_cons.1 hkeep
    rw [List.map_cons, leads_cons] at h
    rcases h with h | ⟨hother, h⟩
    · rw [List.filter_cons_of_pos (ha h), List.map_cons, leads_cons]
      exact .inl h
    · rw [List.filter_cons]
      split
      · rw [List.map_cons, leads_cons]
        exact .inr ⟨hother, ih h has⟩
      · exact ih h has

end Lists

/-! ## Payloads that open to a message -/

variable [Suite]

/-- A payload opens to a message under a uid. -/
def Payload.Delivers (ring : KeyRing) (uid : String) (p : Payload) : Prop :=
  ∃ opened message, ring.openEnvelope p.parcel.sealed = .ok opened ∧
    opened.message? = some message ∧ message.uid = uid

/-- Of some entries none has the hash of a payload but those that carry it. -/
def Payload.Genuine (p : Payload) (es : List Entry) : Prop :=
  ∀ e ∈ es, e.hash = p.hash → e.payload = p

section Payloads

variable {ring : KeyRing} {uid : String} {p : Payload} {e : Entry} {es : List Entry}
  {one other hash : PayloadHash} {ys : List PayloadHash}

theorem Payload.Delivers.opening (h : p.Delivers ring uid) (he : e.payload = p) :
    ∃ item, e.opening ring = .received item ∧ item.entry = e ∧ item.uid = uid := by
  obtain ⟨opened, message, hopen, hmessage, huid⟩ := h
  refine ⟨⟨e, opened⟩, ?_, rfl, ?_⟩
  · simp only [Entry.opening, he, hopen, Item.ofOpened?, hmessage, Option.map_some]
  · simp only [Item.uid, Item.message?, hmessage, huid]

theorem Payload.Genuine.uid_eq (h : p.Genuine es) (he : e ∈ es) (hhash : e.hash = p.hash) :
    e.uid = p.uid :=
  congrArg Payload.uid (h e he hhash)

theorem mem_hashes_received (h : hash ∈ (received ring es).map Item.hash) :
    hash ∈ es.map Entry.hash := by
  obtain ⟨item, hi, rfl⟩ := List.mem_map.1 h
  exact List.mem_map_of_mem (mem_received.1 hi).1

/-- An entry that leads others is received ahead of what they open to. -/
theorem Leads.received (h : Leads p.hash other (es.map Entry.hash ++ ys)) (hp : p.Delivers ring uid)
    (hg : p.Genuine es) : Leads p.hash other ((received ring es).map Item.hash ++ ys) := by
  induction es with
  | nil => exact h
  | cons e es ih =>
    obtain ⟨he, hes⟩ := List.forall_mem_cons.1 hg
    rw [← List.singleton_append, received_append, List.map_append, List.append_assoc]
    rw [List.map_cons, List.cons_append, leads_cons] at h
    rcases h with h | ⟨hother, h⟩
    · obtain ⟨item, hopen, hentry, -⟩ := hp.opening (he h)
      have hreceived : SealedMail.received ring [e] = [item] := by
        simp [SealedMail.received, hopen, Opening.item?]
      rw [hreceived]
      exact leads_cons.2 (.inl (by rw [Item.hash, hentry, h]))
    · refine Leads.behind (ih h hes) fun hmem => hother ?_
      exact (List.mem_singleton.1 (mem_hashes_received hmem)).symm

theorem Leads.news {x : Index} {items : List Item} (h : Leads one other (items.map Item.hash ++ ys))
    (hx : x.contains one = false) : Leads one other ((x.news items).map Item.hash ++ ys) := by
  induction items generalizing x with
  | nil => exact h
  | cons item items ih =>
    rw [List.map_cons, List.cons_append, leads_cons] at h
    simp only [Index.news]
    split
    · next hc =>
      rcases h with h | ⟨-, h⟩
      · exact absurd (hx.symm.trans (h ▸ hc)) Bool.false_ne_true
      · exact ih h hx
    · rw [List.map_cons, List.cons_append, leads_cons]
      by_cases hone : item.hash = one
      · exact .inl hone
      · obtain ⟨hother, h⟩ := h.resolve_left hone
        refine .inr ⟨hother, ih h ?_⟩
        rw [Index.contains_insert, hx, Bool.or_false, decide_eq_false (Ne.symm hone)]

theorem Leads.distinct {isNew : Entry → Bool} {seen : List PayloadHash}
    (h : Leads one other (es.map Entry.hash)) (hnew : ∀ e ∈ es, e.hash = one → isNew e = true)
    (hseen : one ∉ seen) :
    Leads one other ((Mailbox.distinct isNew seen es).map Entry.hash) := by
  induction es generalizing seen with
  | nil => exact h
  | cons e es ih =>
    obtain ⟨he, hes⟩ := List.forall_mem_cons.1 hnew
    rw [List.map_cons, leads_cons] at h
    simp only [Mailbox.distinct]
    by_cases hone : e.hash = one
    · rw [if_pos (by simp [he hone, hone, hseen]), List.map_cons, leads_cons]
      exact .inl hone
    · obtain ⟨hother, h⟩ := h.resolve_left hone
      split
      · rw [List.map_cons, leads_cons]
        refine .inr ⟨hother, ih h hes ?_⟩
        exact fun hmem => (List.mem_cons.1 hmem).elim (Ne.symm hone) hseen
      · exact ih h hes hseen

end Payloads

theorem Index.news_sublist (x : Index) (items : List Item) : (x.news items).Sublist items := by
  induction items generalizing x with
  | nil => exact List.Sublist.refl _
  | cons item items ih =>
    simp only [news]
    split
    · exact (ih x).cons item
    · exact (ih _).cons_cons item

theorem Index.Valid.mem_hashes_iff {x : Index} (hx : x.Valid) (hash : PayloadHash) :
    hash ∈ x.items.map Item.hash ↔ x.contains hash = true :=
  List.mem_map.trans (hx.contains_iff hash).symm

theorem not_contains_of_not_mem {x : Index} (hx : x.Valid) {hash : PayloadHash}
    (h : hash ∉ x.items.map Item.hash) : x.contains hash = false :=
  Bool.not_eq_true _ ▸ fun hc => h ((hx.mem_hashes_iff hash).2 hc)

namespace Mailbox

variable {setup : Setup} {env : Surroundings} {m m' : Mailbox} {ev : Event} {e : Entry}
  {first second p : Payload} {uid : String} {hash : PayloadHash}

/-! ## The line -/

omit [Suite] in
/-- What waits in batches, in the order in which it is opened. -/
def line (m : Mailbox) : List Entry := m.running.flatten ++ m.queued.flatten

/-- The payloads that are received, and behind them those that wait. -/
def arrivals (m : Mailbox) : List PayloadHash :=
  m.index.items.map Item.hash ++ m.line.map Entry.hash

/-- A payload is neither received nor being opened, and its uid is ignored. -/
structure Shuns (p : Payload) (m : Mailbox) : Prop where
  index : m.index.contains p.hash = false
  ledger : m.ledger.contains p.uid = true
  running : p.hash ∉ m.running.flatten.map Entry.hash

/-- A payload will not be received any more. -/
def Misses (p : Payload) (m : Mailbox) : Prop :=
  m.index.contains p.hash = false ∧ m.stopped = true ∨ m.Shuns p

/-- The mailbox entries that the overlay shows with an event. -/
def presented (env : Surroundings) (m : Mailbox) (ev : Event) : List Entry :=
  (m.shown env ev).filterMap StoredEntry.mailbox?

omit [Suite] in
/-- The entries in a batch over which opening breaks off. -/
def lost (env : Surroundings) (m : Mailbox) : Event → List Entry
  | .batch i => if env.openingFails then (m.running[i]?).getD [] else []
  | _ => []

/-- The lone entry with one payload that is opened while another payload, which is not received yet,
waits. -/
def overtaking (waiting passing : PayloadHash) (env : Surroundings) (m : Mailbox) (ev : Event) :
    List Entry :=
  match m.taken env ev with
  | [e] =>
    if !env.openingFails && e.hash = passing && !m.index.contains waiting &&
      m.line.any (·.hash = waiting) then [e]
    else []
  | _ => []

/-- What is known about two payloads: at most one batch is being opened, nothing that waits has
their hash without carrying them, and they are listed under a uid. -/
structure Tracks (uid : String) (first second : Payload) (m : Mailbox) : Prop where
  valid : m.index.Valid
  single : m.running.length ≤ 1
  firstGenuine : first.Genuine m.line
  secondGenuine : second.Genuine m.line
  filed : ∀ item ∈ m.index.items, item.hash = first.hash ∨ item.hash = second.hash → item.uid = uid

theorem Tracks.relog (h : m.Tracks uid first second) (store : Store) (log : List Effect) :
    { m with store, log }.Tracks uid first second :=
  ⟨h.valid, h.single, h.firstGenuine, h.secondGenuine, h.filed⟩

theorem Admitted.items {es : List Entry} (h : Admitted setup env es m m') :
    m'.index.items = m.index.items ++ m.index.news (received setup.ring es) := by
  rw [h.index, Index.items_foldl_insert]

theorem mem_presented_of_mem_taken (h : e ∈ m.taken env ev) : e ∈ m.presented env ev := by
  by_cases hreads : env.Reads
  · rw [taken_of_reads hreads] at h
    exact (mem_of_mem_distinct h).1
  · rw [taken_of_not_reads hreads] at h
    cases h

/-! ## Batches that are handed over -/

theorem mem_line_dispatch (h : e ∈ (dispatch setup m).line) : e ∈ m.line := by
  obtain ⟨front, more, hqueued, hrunning, hmore, -, -⟩ := dispatch_spec setup m
  rw [line, hrunning, List.flatten_append, hmore] at h
  rw [line, hqueued, List.flatten_append]
  simp only [List.mem_append, List.mem_filter] at h ⊢
  tauto

theorem single_dispatch (hbatches : setup.maxBatches ≤ 1) (h : m.running.length ≤ 1) :
    (dispatch setup m).running.length ≤ 1 := by
  obtain ⟨front, more, -, hrunning, -, hlength, -⟩ := dispatch_spec setup m
  rw [hrunning, List.length_append]
  omega

theorem Shuns.dispatch (h : m.Shuns p) (hp : p.Genuine m.line) : (dispatch setup m).Shuns p := by
  refine ⟨h.index, h.ledger, fun hmem => ?_⟩
  obtain ⟨front, more, hqueued, hrunning, hmore, -, -⟩ := dispatch_spec setup m
  rw [hrunning, List.flatten_append, List.map_append, List.mem_append] at hmem
  refine hmem.elim h.running fun hmem => ?_
  obtain ⟨e, he, hhash⟩ := List.mem_map.1 hmem
  rw [hmore, List.mem_filter] at he
  have hline : e ∈ m.line := by
    rw [line, hqueued, List.flatten_append]
    exact List.mem_append_right _ (List.mem_append_left _ he.1)
  have hold : m.isNew e = false := isNew_eq_false.2 (.inl (hp.uid_eq hline hhash ▸ h.ledger))
  exact absurd (hold.symm.trans he.2) Bool.false_ne_true

/-- Handing over batches leaves a payload that is ahead there, unless its uid is ignored. -/
theorem leads_dispatch (hv : m.index.Valid) (hp : p.Genuine m.line) {other : PayloadHash}
    (h : Leads p.hash other m.arrivals) :
    (dispatch setup m).Shuns p ∨ Leads p.hash other (dispatch setup m).arrivals := by
  by_cases hshuns : m.Shuns p
  · exact .inl (hshuns.dispatch hp)
  refine .inr ?_
  obtain ⟨front, more, hqueued, hrunning, hmore, -, -⟩ := dispatch_spec setup m
  by_cases hitems : p.hash ∈ m.index.items.map Item.hash
  · exact (h.of_append hitems).append _
  · obtain ⟨hother, hline⟩ := h.of_append_right hitems
    refine Leads.behind ?_ hother
    have hindex := not_contains_of_not_mem hv hitems
    rw [line, hrunning, List.flatten_append, hmore, List.append_assoc, List.map_append]
    rw [line, hqueued, List.flatten_append, List.map_append] at hline
    by_cases hopening : p.hash ∈ m.running.flatten.map Entry.hash
    · exact (hline.of_append hopening).append _
    · obtain ⟨hother', hline⟩ := hline.of_append_right hopening
      refine Leads.behind ?_ hother'
      rw [List.map_append] at hline ⊢
      -- the uid is not ignored, so what carries the payload is handed over
      have hnew (e : Entry) (he : e ∈ front.flatten) (hhash : e.hash = p.hash) :
          m.isNew e = true := by
        have hmem : e ∈ m.line := by
          rw [line, hqueued, List.flatten_append]
          exact List.mem_append_right _ (List.mem_append_left _ he)
        refine Bool.not_eq_false _ ▸ fun hold => hshuns ?_
        rcases isNew_eq_false.1 hold with hignored | hc
        · exact ⟨hindex, hp.uid_eq hmem hhash ▸ hignored, hopening⟩
        · exact absurd (hindex.symm.trans (hhash ▸ hc)) Bool.false_ne_true
      by_cases hfront : p.hash ∈ front.flatten.map Entry.hash
      · exact ((hline.of_append hfront).filter hnew).append _
      · obtain ⟨hother'', hline⟩ := hline.of_append_right hfront
        refine hline.behind fun hmem => hother'' ?_
        obtain ⟨e, he, rfl⟩ := List.mem_map.1 hmem
        exact List.mem_map_of_mem (List.mem_of_mem_filter he)

/-! ## Removals -/

/-- A removal that drops neither of two payloads under one uid lists them in the same order. -/
theorem Cleared.among_eq {one other : PayloadHash} {cleared : String}
    (h : Cleared setup env cleared m m') (hv : m.index.Valid)
    (hfiled : ∀ item ∈ m.index.items, item.hash = one ∨ item.hash = other → item.uid = uid)
    (hkept : ∀ hash, hash = one ∨ hash = other → m.index.contains hash = true →
      m'.index.contains hash = true) :
    among one other (m'.index.items.map Item.hash) =
      among one other (m.index.items.map Item.hash) := by
  obtain ⟨kept, hk, hindex⟩ := h.index
  rw [Index.removeUid_snd hv] at hk
  have hitems : m'.index.items = m.index.items.filter (fun item => item.uid ≠ cleared) ++
      (m.index.removeUid cleared).1.news kept := by
    rw [hindex, Index.items_foldl_insert, Index.items_removeUid hv]
  have hback : ((m.index.removeUid cleared).1.news kept).Sublist (m.index.filed cleared) :=
    (Index.news_sublist _ kept).trans hk
  -- both are listed under one uid, so they are both among the others or both among those that are
  -- taken back
  have hsublist : (among one other (m'.index.items.map Item.hash)).Sublist
      (among one other (m.index.items.map Item.hash)) := by
    rw [hitems, List.map_append, among_append]
    by_cases hu : uid = cleared
    · have hnone : among one other
          ((m.index.items.filter fun item => item.uid ≠ cleared).map Item.hash) = [] := by
        refine List.eq_nil_iff_forall_not_mem.2 fun hash hmem => ?_
        obtain ⟨hmem, hpair⟩ := mem_among.1 hmem
        obtain ⟨item, hi, rfl⟩ := List.mem_map.1 hmem
        rw [List.mem_filter, decide_eq_true_eq] at hi
        exact hi.2 ((hfiled item hi.1 hpair).trans hu)
      rw [hnone, List.nil_append]
      exact ((hback.trans List.filter_sublist).map _).filter _
    · have hnone :
          among one other (((m.index.removeUid cleared).1.news kept).map Item.hash) = [] := by
        refine List.eq_nil_iff_forall_not_mem.2 fun hash hmem => ?_
        obtain ⟨hmem, hpair⟩ := mem_among.1 hmem
        obtain ⟨item, hi, rfl⟩ := List.mem_map.1 hmem
        obtain ⟨hi, huid⟩ := List.mem_filter.1 (hback.subset hi)
        rw [decide_eq_true_eq] at huid
        exact hu ((hfiled item hi hpair).symm.trans huid)
      rw [hnone, List.append_nil]
      exact (List.filter_sublist.map _).filter _
  refine hsublist.eq_of_length_le ?_
  refine (List.subperm_of_subset (hv.nodup.filter _) fun hash hmem => ?_).length_le
  obtain ⟨hmem, hpair⟩ := mem_among.1 hmem
  exact mem_among.2
    ⟨((h.valid hv).mem_hashes_iff hash).2 (hkept hash hpair ((hv.mem_hashes_iff hash).1 hmem)),
      hpair⟩

/-! ## Events -/

theorem Opens.line_eq {es given : List Entry} (h : Opens setup env es given m m') :
    m'.line = m.line := by
  rw [line, line, h.running, h.queued]

theorem Opens.arrivals_eq {given : List Entry} (h : Opens setup env [] given m m') :
    m'.arrivals = m.arrivals := by
  rw [arrivals, h.admitted.items, h.line_eq]
  exact congrArg (· ++ _) (congrArg _ (List.append_nil _))

theorem Opens.shuns {es given : List Entry} (h : Opens setup env es given m m') (hm : m.Shuns p)
    (hes : p.hash ∉ es.map Entry.hash) : m'.Shuns p where
  index := by
    rw [h.admitted.index, Index.contains_foldl_insert, hm.index, Bool.false_or, List.any_eq_false]
    intro item hi hhash
    rw [decide_eq_true_eq] at hhash
    have hmem : item.hash ∈ es.map Entry.hash := mem_hashes_received (List.mem_map_of_mem hi)
    exact hes (hhash ▸ hmem)
  ledger := h.admitted.contains_ledger hm.ledger
  running := h.running ▸ hm.running

theorem taken_of_batch {i : Nat} : m.taken env (.batch i) = [] := taken_of_shown_nil rfl

omit [Suite] in
/-- Where at most one batch is opened at a time, it is the whole front of the line. -/
theorem line_of_running {i : Nat} {batch : List Entry} (hsingle : m.running.length ≤ 1)
    (h : m.running[i]? = some batch) :
    m.line = batch ++ m.queued.flatten ∧ m.running.eraseIdx i = [] := by
  obtain ⟨hi, hbatch⟩ := List.getElem?_eq_some_iff.1 h
  obtain ⟨only, hrunning⟩ := List.length_eq_one_iff.1 (show m.running.length = 1 by omega)
  have hzero : i = 0 := by omega
  subst hzero
  simp only [hrunning, List.getElem_cons_zero] at hbatch
  subst hbatch
  simp [line, hrunning]

/-- A payload whose uid is ignored is not taken in, opened or handed over any more. -/
theorem Proceeds.shuns (h : Proceeds setup env m ev m') (hv : m.index.Valid) (hm : m.Shuns p)
    (hline : p.Genuine m.line) (hpresented : p.Genuine (m.presented env ev)) : m'.Shuns p := by
  have htaken (e : Entry) (he : e ∈ m.taken env ev) : e.hash ≠ p.hash := by
    intro hhash
    have hold : m.isNew e = false :=
      isNew_eq_false.2 (.inl (hpresented.uid_eq (mem_presented_of_mem_taken he) hhash ▸ hm.ledger))
    exact absurd (hold.symm.trans (isNew_of_mem_taken he)) Bool.false_ne_true
  cases h with
  | still _ _ hopens => exact hopens.shuns hm (by simp)
  | breaks _ _ hopens => exact hopens.shuns hm (by simp)
  | @lone _ _ e htake _ hopens =>
    refine hopens.shuns hm fun hmem => ?_
    exact htaken e (htake ▸ List.mem_singleton_self e) (List.mem_singleton.1 hmem).symm
  | @waits _ m₁ _ _ hopens =>
    have hm₁ : m₁.Shuns p := hopens.shuns ⟨hm.index, hm.ledger, hm.running⟩ (by simp)
    refine hm₁.dispatch ?_
    rw [hopens.line_eq]
    intro e he hhash
    simp only [line, List.flatten_append, ← List.append_assoc] at he
    rcases List.mem_append.1 he with he | he
    · exact hline e he hhash
    · exact absurd hhash (htaken e (by simpa using he))
  | @done i batch m₁ hrunning hopened hopens =>
    have hbatch : ∀ e ∈ batch, e ∈ m.running.flatten :=
      fun e he => List.mem_flatten.2 ⟨batch, List.mem_of_getElem? hrunning, he⟩
    have herased : ∀ e ∈ (m.running.eraseIdx i).flatten, e ∈ m.running.flatten := by
      intro e he
      obtain ⟨b, hb, he⟩ := List.mem_flatten.1 he
      exact List.mem_flatten.2 ⟨b, List.mem_of_mem_eraseIdx hb, he⟩
    have hm₀ : { m with running := m.running.eraseIdx i }.Shuns p := by
      refine ⟨hm.index, hm.ledger, fun hmem => hm.running ?_⟩
      obtain ⟨e, he, hhash⟩ := List.mem_map.1 hmem
      exact hhash ▸ List.mem_map_of_mem (herased e he)
    have hm₁ : m₁.Shuns p := by
      refine hopens.shuns hm₀ fun hmem => hm.running ?_
      obtain ⟨e, he, hhash⟩ := List.mem_map.1 hmem
      rw [hopened] at he
      split at he
      · cases he
      · exact hhash ▸ List.mem_map_of_mem (hbatch e he)
    refine hm₁.dispatch ?_
    rw [hopens.line_eq]
    intro e he hhash
    refine hline e ?_ hhash
    rcases List.mem_append.1 he with he | he
    · exact List.mem_append_left _ (herased e he)
    · exact List.mem_append_right _ he
  | cleared _ hcleared _ =>
    refine ⟨?_, hcleared.ledger ▸ hm.ledger, hcleared.running ▸ hm.running⟩
    exact Bool.not_eq_true _ ▸ fun hc =>
      absurd (hm.index.symm.trans (hcleared.contains hv hc)) Bool.false_ne_true

/-- What leads what an event shows, and neither is received nor ignored, leads what is taken in. -/
theorem leads_taken {other : PayloadHash} (hreads : env.Reads)
    (hpresented : p.Genuine (m.presented env ev)) (hindex : m.index.contains p.hash = false)
    (hledger : m.ledger.contains p.uid = false)
    (h : Leads p.hash other ((m.presented env ev).map Entry.hash)) :
    Leads p.hash other ((m.taken env ev).map Entry.hash) := by
  rw [taken_of_reads hreads]
  refine h.distinct (fun e he hhash => ?_) List.not_mem_nil
  refine Bool.not_eq_false _ ▸ fun hold => ?_
  rcases isNew_eq_false.1 hold with hignored | hc
  · exact absurd (hledger.symm.trans (hpresented.uid_eq he hhash ▸ hignored)) Bool.false_ne_true
  · exact absurd (hindex.symm.trans (hhash ▸ hc)) Bool.false_ne_true

/-- What leads a mailbox that opens entries from the front of its line leads it still. -/
theorem Opens.leads {es given : List Entry} {other : PayloadHash} {m₀ : Mailbox}
    (h : Opens setup env es given m₀ m') (hv : m₀.index.Valid) (hp : p.Delivers setup.ring uid)
    (hes : p.Genuine es)
    (hleads : Leads p.hash other
      (m₀.index.items.map Item.hash ++ (es.map Entry.hash ++ m₀.line.map Entry.hash))) :
    Leads p.hash other m'.arrivals := by
  rw [arrivals, h.line_eq, h.admitted.items, List.map_append, List.append_assoc]
  by_cases hitems : p.hash ∈ m₀.index.items.map Item.hash
  · exact (hleads.of_append hitems).append _
  · obtain ⟨hother, hleads⟩ := hleads.of_append_right hitems
    exact ((hleads.received hp hes).news (not_contains_of_not_mem hv hitems)).behind hother

/-- What comes first is in the line already, or it is taken in. -/
theorem leads_or_taken {other : PayloadHash} (hv : m.index.Valid) (hshuns : ¬ m.Shuns p)
    (hreads : env.Reads) (hpresented : p.Genuine (m.presented env ev))
    (h : Leads p.hash other (m.arrivals ++ (m.presented env ev).map Entry.hash)) :
    Leads p.hash other m.arrivals ∨
      (p.hash ∉ m.arrivals ∧ other ∉ m.arrivals) ∧
      Leads p.hash other ((m.taken env ev).map Entry.hash) := by
  refine (leads_append.1 h).imp_right fun ⟨habsent, hshown⟩ => ⟨habsent, ?_⟩
  have hindex := not_contains_of_not_mem hv fun hmem => habsent.1 (List.mem_append_left _ hmem)
  refine leads_taken hreads hpresented hindex ?_ hshown
  refine Bool.not_eq_true _ ▸ fun hignored => hshuns ⟨hindex, hignored, fun hmem => habsent.1 ?_⟩
  obtain ⟨e, he, hhash⟩ := List.mem_map.1 hmem
  exact List.mem_append_right _ (hhash ▸ List.mem_map_of_mem (List.mem_append_left _ he))

/-- A lone entry that is opened goes ahead of none that it must not overtake. -/
theorem leads_lone {other : PayloadHash} {given : List Entry}
    (hopens : Opens setup env [e] given m m') (hv : m.index.Valid) (hp : p.Delivers setup.ring uid)
    (he : p.Genuine [e]) (htaken : m.taken env ev = [e]) (hopening : env.openingFails = false)
    (hover : m.overtaking p.hash other env ev = [])
    (h : Leads p.hash other m.arrivals ∨
      (p.hash ∉ m.arrivals ∧ other ∉ m.arrivals) ∧
      Leads p.hash other ((m.taken env ev).map Entry.hash)) :
    Leads p.hash other m'.arrivals := by
  refine hopens.leads hv hp he ?_
  rcases h with h | ⟨habsent, h⟩
  · by_cases hitems : p.hash ∈ m.index.items.map Item.hash
    · exact (h.of_append hitems).append _
    · obtain ⟨hother, hline⟩ := h.of_append_right hitems
      refine Leads.behind (hline.behind fun hmem => ?_) hother
      have hpassing : e.hash = other := (List.mem_singleton.1 hmem).symm
      have hwaits : m.line.any (·.hash = p.hash) = true := by
        obtain ⟨e', he', hhash⟩ := List.mem_map.1 hline.mem
        exact List.any_eq_true.2 ⟨e', he', decide_eq_true hhash⟩
      rw [overtaking, htaken] at hover
      simp [hopening, hpassing, not_contains_of_not_mem hv hitems, hwaits] at hover
  · rw [htaken] at h
    exact (h.append _).behind fun hmem => habsent.2 (List.mem_append_left _ hmem)

theorem leads_done {i : Nat} {batch : List Entry} {m₁ : Mailbox} (ht : m.Tracks uid first second)
    (hfirst : first.Delivers setup.ring uid) (hrunning : m.running[i]? = some batch)
    (hopened : m.opened env (.batch i) = if env.openingFails then [] else batch)
    (hopens :
      Opens setup env (m.opened env (.batch i)) [] { m with running := m.running.eraseIdx i } m₁)
    (hlost : first.hash ∉ (m.lost env (.batch i)).map Entry.hash)
    (h : Leads first.hash second.hash m.arrivals) :
    (dispatch setup m₁).Shuns first ∨
      Leads first.hash second.hash (dispatch setup m₁).arrivals := by
  obtain ⟨hline, herased⟩ := line_of_running ht.single hrunning
  have hline₀ : { m with running := m.running.eraseIdx i }.line = m.queued.flatten := by
    simp [line, herased]
  have hv₁ : m₁.index.Valid := by
    rw [hopens.admitted.index]
    exact ht.valid.foldl_insert _
  have hgenuine : first.Genuine (batch ++ m.queued.flatten) := hline ▸ ht.firstGenuine
  rw [arrivals, hline, List.map_append] at h
  refine leads_dispatch hv₁ ?_ (hopens.leads ht.valid hfirst ?_ ?_)
  · rw [hopens.line_eq, hline₀]
    exact fun e he => hgenuine e (List.mem_append_right _ he)
  · rw [hopened]
    split
    · exact fun _ he => absurd he List.not_mem_nil
    · exact fun e he => hgenuine e (List.mem_append_left _ he)
  · rw [hline₀, hopened]
    split
    · next hfails =>
      -- the batch is lost, and the payload is not in it
      have hnot : first.hash ∉ batch.map Entry.hash := by
        have hbatch : m.lost env (.batch i) = batch := by simp [lost, hfails, hrunning]
        rwa [hbatch] at hlost
      by_cases hitems : first.hash ∈ m.index.items.map Item.hash
      · exact (h.of_append hitems).append _
      · obtain ⟨hother, h⟩ := h.of_append_right hitems
        exact (h.of_append_right hnot).2.behind hother
    · exact h

/-- Of two payloads the one that comes first, in the line or else among what an event shows, is
first in the line after it, unless it will not be received any more. -/
theorem Proceeds.leads (h : Proceeds setup env m ev m') (ht : m.Tracks uid first second)
    (hfirst : first.Delivers setup.ring uid) (hreads : env.Reads)
    (hpresented : first.Genuine (m.presented env ev))
    (hlost : first.hash ∉ (m.lost env ev).map Entry.hash)
    (hover : m.overtaking first.hash second.hash env ev = [])
    (hkept : ∀ hash, hash = first.hash ∨ hash = second.hash → m.index.contains hash = true →
      m'.index.contains hash = true)
    (hleads : Leads first.hash second.hash (m.arrivals ++ (m.presented env ev).map Entry.hash)) :
    m'.Misses first ∨ Leads first.hash second.hash m'.arrivals := by
  by_cases hshuns : m.Shuns first
  · exact .inl (.inr (h.shuns ht.valid hshuns ht.firstGenuine hpresented))
  have hstands := leads_or_taken ht.valid hshuns hreads hpresented hleads
  have hahead (htaken : m.taken env ev = []) : Leads first.hash second.hash m.arrivals :=
    hstands.resolve_right fun h =>
      not_leads_nil (htaken ▸ h.2 : Leads first.hash second.hash ([].map Entry.hash))
  cases h with
  | still htaken _ hopens =>
    rw [hopens.arrivals_eq]
    exact .inr (hahead htaken)
  | breaks _ _ hopens hstopped =>
    rw [hopens.arrivals_eq]
    refine hstands.symm.imp_left fun ⟨habsent, _⟩ => .inl ⟨?_, hstopped⟩
    have hsame : m'.index = m.index := hopens.admitted.index
    rw [hsame]
    exact not_contains_of_not_mem ht.valid fun hmem => habsent.1 (List.mem_append_left _ hmem)
  | @lone _ _ e htaken hopened hopens =>
    have hopening : env.openingFails = false := Bool.not_eq_true _ ▸ fun hfails => by
      simp [opened, hfails] at hopened
    refine .inr (leads_lone hopens ht.valid hfirst ?_ htaken hopening hover hstands)
    intro e' he
    rw [List.mem_singleton.1 he]
    exact hpresented e (mem_presented_of_mem_taken (htaken ▸ List.mem_singleton_self e))
  | @waits _ m₁ _ _ hopens =>
    have hsame : m₁.index = m.index := hopens.admitted.index
    have hline : m₁.line = m.line ++ m.taken env ev := by
      rw [hopens.line_eq]
      simp [line]
    have hgenuine : first.Genuine m₁.line := by
      intro e he
      rw [hline] at he
      exact (List.mem_append.1 he).elim (ht.firstGenuine e) fun he =>
        hpresented e (mem_presented_of_mem_taken he)
    refine (leads_dispatch (hsame ▸ ht.valid) hgenuine ?_).imp_left .inr
    rw [arrivals, hsame, hline, List.map_append, ← List.append_assoc]
    exact leads_append.2 hstands
  | done hrunning hopened hopens =>
    exact (leads_done ht hfirst hrunning hopened hopens hlost (hahead taken_of_batch)).imp_left .inr
  | cleared hremoval hcleared _ =>
    have hleads := hahead (taken_of_shown_nil (shown_of_isRemoval hremoval))
    have hamong := hcleared.among_eq ht.valid ht.filed hkept
    have hline : m'.line = m.line := by rw [line, line, hcleared.running, hcleared.queued]
    rw [arrivals, leads_append, ← among_eq_nil_iff] at hleads ⊢
    rw [Leads, hamong, hline]
    exact .inr hleads

/-- The lone entry that overtakes another payload is received before it. -/
theorem Proceeds.leads_of_overtaking (h : Proceeds setup env m ev m')
    (ht : m.Tracks uid first second) (hsecond : second.Delivers setup.ring uid)
    (hpresented : second.Genuine (m.presented env ev))
    (hover : m.overtaking first.hash second.hash env ev ≠ []) :
    Leads second.hash first.hash (m'.index.items.map Item.hash) := by
  obtain ⟨e, htaken, hopening, hpassing, hwaiting⟩ :
      ∃ e, m.taken env ev = [e] ∧ env.openingFails = false ∧
      e.hash = second.hash ∧ m.index.contains first.hash = false := by
    unfold overtaking at hover
    split at hover
    · next e htaken =>
      split at hover
      · next hpasses =>
        simp only [Bool.and_eq_true, Bool.not_eq_true', decide_eq_true_eq] at hpasses
        exact ⟨e, htaken, hpasses.1.1.1, hpasses.1.1.2, hpasses.1.2⟩
      · exact absurd rfl hover
    · exact absurd rfl hover
  have he : e ∈ m.taken env ev := htaken ▸ List.mem_singleton_self e
  cases h with
  | still hnone => rw [hnone] at htaken; cases htaken
  | breaks _ hfails => rw [hfails] at hopening; cases hopening
  | waits hseveral => rw [htaken] at hseveral; exact absurd hseveral (Nat.lt_irrefl 1)
  | done => rw [taken_of_batch] at htaken; cases htaken
  | cleared hremoval =>
    rw [taken_of_shown_nil (shown_of_isRemoval hremoval)] at htaken; cases htaken
  | lone hlone _ hopens =>
    cases hlone.symm.trans htaken
    have hnew : m.index.contains second.hash = false := by
      have hnew := isNew_of_mem_taken he
      rw [isNew, Bool.and_eq_true, Bool.not_eq_true', Bool.not_eq_true', hpassing] at hnew
      exact hnew.2
    have hgenuine : second.Genuine [e] := by
      intro e' he'
      rw [List.mem_singleton.1 he']
      exact hpresented e (mem_presented_of_mem_taken he)
    have hfront : Leads second.hash first.hash ([e].map Entry.hash ++ []) :=
      leads_cons.2 (.inl hpassing)
    rw [hopens.admitted.items, List.map_append, ← List.append_nil (_ ++ _), List.append_assoc]
    refine ((hfront.received hsecond hgenuine).news hnew).behind fun hmem => ?_
    exact absurd (hwaiting.symm.trans ((ht.valid.mem_hashes_iff _).1 hmem)) Bool.false_ne_true

/-- An event lists two payloads under one uid as they are listed, and behind them those of the two
that it brings. -/
theorem Handled.among_eq {one other : PayloadHash} (h : Handled setup env m ev m')
    (hv : m.index.Valid)
    (hfiled : ∀ item ∈ m.index.items, item.hash = one ∨ item.hash = other → item.uid = uid)
    (hkept : ∀ hash, hash = one ∨ hash = other → m.index.contains hash = true →
      m'.index.contains hash = true) :
    among one other (m'.index.items.map Item.hash) =
      among one other (m.index.items.map Item.hash) ++
      among one other ((Index.gained m.index m'.index).map Item.hash) := by
  rcases h.admitted with ⟨es, hadmitted, -⟩ | ⟨-, cleared, hcleared⟩
  · rw [hadmitted.items, List.map_append, among_append, hadmitted.index,
      Index.gained_foldl_insert hv]
  · rw [hcleared.among_eq hv hfiled hkept, hcleared.gained_eq_nil hv]
    exact (List.append_nil _).symm

/-! ## What stays known -/

theorem mem_opened (h : e ∈ m.opened env ev) : e ∈ m.line ∨ e ∈ m.taken env ev := by
  unfold opened at h
  split at h
  · cases h
  · split at h
    · next i =>
      cases hrunning : m.running[i]? with
      | none => rw [hrunning] at h; cases h
      | some batch =>
        rw [hrunning] at h
        have hbatch : e ∈ m.running.flatten :=
          List.mem_flatten.2 ⟨batch, List.mem_of_getElem? hrunning, h⟩
        exact .inl (List.mem_append_left _ hbatch)
    · split at h
      · next htaken => exact .inr (htaken ▸ h)
      · cases h

namespace Proceeds

theorem mem_line (h : Proceeds setup env m ev m') (he : e ∈ m'.line) :
    e ∈ m.line ∨ e ∈ m.taken env ev := by
  cases h with
  | still _ _ hopens => exact .inl (hopens.line_eq ▸ he)
  | breaks _ _ hopens => exact .inl (hopens.line_eq ▸ he)
  | lone _ _ hopens => exact .inl (hopens.line_eq ▸ he)
  | waits _ _ hopens =>
    have he := mem_line_dispatch he
    rw [hopens.line_eq] at he
    simpa [line, or_assoc] using he
  | @done i _ _ _ _ hopens =>
    have he := mem_line_dispatch he
    rw [hopens.line_eq] at he
    refine .inl ((List.mem_append.1 he).elim (fun he => ?_) (List.mem_append_right _))
    obtain ⟨batch, hb, he⟩ := List.mem_flatten.1 he
    exact List.mem_append_left _ (List.mem_flatten.2 ⟨batch, List.mem_of_mem_eraseIdx hb, he⟩)
  | cleared _ hcleared _ => exact .inl (by rwa [line, hcleared.running, hcleared.queued] at he)

theorem mem_items (h : Proceeds setup env m ev m') (hv : m.index.Valid) {item : Item}
    (hi : item ∈ m'.index.items) :
    item ∈ m.index.items ∨ item ∈ received setup.ring (m.opened env ev) := by
  have opens {m₀ m₁ : Mailbox} {es given : List Entry} (hopens : Opens setup env es given m₀ m₁)
      (hi : item ∈ m₁.index.items) : item ∈ m₀.index.items ∨ item ∈ received setup.ring es := by
    rw [hopens.admitted.items] at hi
    exact (List.mem_append.1 hi).imp_right Index.mem_of_mem_news
  have none (h : item ∈ received setup.ring []) : item ∈ received setup.ring (m.opened env ev) := by
    cases h
  cases h with
  | still _ _ hopens => exact (opens hopens hi).imp_right none
  | breaks _ _ hopens => exact (opens hopens hi).imp_right none
  | lone _ hopened hopens => exact hopened ▸ opens hopens hi
  | waits _ _ hopens => exact (opens hopens hi).imp_right none
  | done _ _ hopens =>
    have hbrought := opens hopens hi
    exact hbrought
  | cleared _ hcleared _ => exact .inl (hcleared.mem_of_mem hv hi)

theorem single (h : Proceeds setup env m ev m') (hbatches : setup.maxBatches ≤ 1)
    (hm : m.running.length ≤ 1) : m'.running.length ≤ 1 := by
  cases h with
  | still _ _ hopens => exact hopens.running ▸ hm
  | breaks _ _ hopens => exact hopens.running ▸ hm
  | lone _ _ hopens => exact hopens.running ▸ hm
  | waits _ _ hopens => exact single_dispatch hbatches (hopens.running ▸ hm)
  | @done i _ _ _ _ hopens =>
    have herased : (m.running.eraseIdx i).length ≤ m.running.length := List.length_eraseIdx_le _ _
    exact single_dispatch hbatches (hopens.running ▸ Nat.le_trans herased hm)
  | cleared _ hcleared _ => exact hcleared.running ▸ hm

theorem mem_arrivals (h : Proceeds setup env m ev m') (hv : m.index.Valid)
    (hmem : hash ∈ m'.arrivals) :
    hash ∈ m.arrivals ∨ hash ∈ (m.presented env ev).map Entry.hash := by
  have waits {e : Entry} (he : e ∈ m.line ∨ e ∈ m.taken env ev) :
      e.hash ∈ m.arrivals ∨ e.hash ∈ (m.presented env ev).map Entry.hash :=
    he.imp (fun he => List.mem_append_right _ (List.mem_map_of_mem he))
      fun he => List.mem_map_of_mem (mem_presented_of_mem_taken he)
  rcases List.mem_append.1 hmem with hmem | hmem
  · obtain ⟨item, hi, rfl⟩ := List.mem_map.1 hmem
    rcases h.mem_items hv hi with hi | hi
    · exact .inl (List.mem_append_left _ (List.mem_map_of_mem hi))
    · exact waits (mem_opened (mem_received.1 hi).1)
  · obtain ⟨e, he, rfl⟩ := List.mem_map.1 hmem
    exact waits (h.mem_line he)

theorem tracks (h : Proceeds setup env m ev m') (hbatches : setup.maxBatches ≤ 1)
    (hv : m'.index.Valid) (ht : m.Tracks uid first second) (hfirst : first.Delivers setup.ring uid)
    (hsecond : second.Delivers setup.ring uid) (hfirst' : first.Genuine (m.presented env ev))
    (hsecond' : second.Genuine (m.presented env ev)) :
    m'.Tracks uid first second := by
  have waiting {p : Payload} (hline : p.Genuine m.line)
      (hpresented : p.Genuine (m.presented env ev)) {e : Entry}
      (he : e ∈ m.line ∨ e ∈ m.taken env ev) : e.hash = p.hash → e.payload = p :=
    he.elim (hline e) fun he => hpresented e (mem_presented_of_mem_taken he)
  refine ⟨hv, h.single hbatches ht.single,
    fun e he => waiting ht.firstGenuine hfirst' (h.mem_line he),
    fun e he => waiting ht.secondGenuine hsecond' (h.mem_line he), fun item hi hhash => ?_⟩
  rcases h.mem_items ht.valid hi with hi | hi
  · exact ht.filed item hi hhash
  · obtain ⟨hentry, hopening⟩ := mem_received.1 hi
    obtain ⟨other, hother, -, huid⟩ : ∃ other, item.entry.opening setup.ring = .received other ∧
        other.entry = item.entry ∧ other.uid = uid := by
      rcases hhash with hhash | hhash
      · exact hfirst.opening (waiting ht.firstGenuine hfirst' (mem_opened hentry) hhash)
      · exact hsecond.opening (waiting ht.secondGenuine hsecond' (mem_opened hentry) hhash)
    cases hopening.symm.trans hother
    exact huid

end Proceeds

end Mailbox

end SealedMail
