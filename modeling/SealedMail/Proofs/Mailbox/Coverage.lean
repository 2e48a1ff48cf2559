import SealedMail.Proofs.Crypto.Transparent
import SealedMail.Proofs.Mailbox.Consistency
import SealedMail.Proofs.Mailbox.History

/-!
# Coverage of the store

No mailbox entry that the store holds is lost by a bootstrapped mailbox: it is settled, or the
change that added it is still to be read, or the payload was indexed and then dropped by a removal.
The proof follows the mailbox from turn to turn: a reader that is told of a lag takes in the whole
store, and every other reader sees each change.
-/

namespace SealedMail

/-- The change that added an entry is not read yet. -/
def Mailbox.Unread (m : Mailbox) (e : Entry) : Prop :=
  ∃ place i c, m.place = some place ∧ place ≤ i ∧ m.store.feed.history[i]? = some c ∧
    .mailbox e ∈ c.added

variable [Suite]

/-- Others change the store by requests only. -/
def Turn.Served : Turn → Prop
  | .overlay change => ∃ r, change = fun s => s.serve r
  | _ => True

/-- The mailbox reads what the overlay shows, and what is handed over is opened. -/
def Turn.Attentive : Turn → Prop
  | .event env _ => env.Reads ∧ env.openingFails = false
  | _ => True

namespace Mailbox

variable {setup : Setup} {env : Surroundings} {m m' : Mailbox} {ev : Event}

theorem Unread.serve {e : Entry} (h : m.Unread e) (r : Store.Request) :
    Unread { m with store := m.store.serve r } e := by
  obtain ⟨place, i, c, hp, hi, hc, hadd⟩ := h
  refine ⟨place, i, c, hp, hi, ?_, hadd⟩
  rcases m.store.serve_cases r with hr | ⟨x, -, -, hfeed, -, -⟩
  · exact hr.getElem?_history hc
  · simp only [hfeed, Feed.publish]
    rw [List.getElem?_append_left (List.getElem?_eq_some_iff.1 hc).1]
    exact hc

/-! ## One event -/

/-- What is unread stays unread, or the event is that it is read. -/
theorem Handled.unread (h : Handled setup env m ev m') {e : Entry}
    (hord : m.store.Orderly) (hreads : env.Reads) (hopens : env.openingFails = false)
    (he : m.Unread e) (hheld : .mailbox e ∈ m.store.snapshot) :
    m'.Unread e ∨ Settled setup.ring m' e := by
  obtain ⟨place, i, c, hpl, hi, hc, hadd⟩ := he
  have hc' := h.reduced.getElem?_history hc
  cases h with
  | idle => exact .inl ⟨place, i, c, hpl, hi, hc, hadd⟩
  | bootstrap hb =>
    exact .inr (takeIn_settles hreads hopens (Access.mem_snapshot.2 hheld) fun f hf =>
      hord.eq_of_hash hheld (Access.mem_snapshot.1 hf))
  | change place' next c' hpl' hr =>
    have hplace := takeIn_place setup env { m with place := some next } c'.added
    rw [hpl] at hpl'
    cases hpl'
    rcases Feed.read?_cases hord.opened hr with ⟨hn, -, -⟩ | ⟨c'', hn, hc'', rfl⟩
    · cases hn
    · have hcc : c' = c'' := by cases hn; rfl
      by_cases hlt : place + 1 ≤ i
      · exact .inl ⟨place + 1, i, c, hplace, hlt, hc', hadd⟩
      · have hip : i = place := by omega
        rw [hip, hc'', Option.some.injEq] at hc
        subst hcc hc
        refine .inr (takeIn_settles hreads hopens hadd ?_)
        intro f hf _
        have hone := hord.single c' (List.mem_of_getElem? hc'')
        match hca : c'.added, hone, hadd, hf with
        | [x], _, hadd, hf =>
          rw [List.mem_singleton] at hadd hf
          rw [← hadd] at hf
          cases hf
          rfl
  | lagged place' next hpl' hr =>
    exact .inr (takeIn_settles hreads hopens (Access.mem_snapshot.2 hheld) fun f hf =>
      hord.eq_of_hash hheld (Access.mem_snapshot.1 hf))
  | closed place' next hpl' hr =>
    rcases Feed.read?_cases hord.opened hr with ⟨hn, -, -⟩ | ⟨c', hn, -, -⟩ <;> cases hn
  | lost => exact .inl ⟨place, i, c, hpl, hi, hc', hadd⟩
  | batch j batch hb _ =>
    have hf := openAll_frame setup env { m with running := m.running.eraseIdx j } batch
    exact .inl ⟨place, i, c, hf.place.trans hpl, hi, hc', hadd⟩
  | cleared uid _ _ hev hcl => exact .inl ⟨place, i, c, hcl.place.trans hpl, hi, hc', hadd⟩

theorem Handled.bootstraps (h : Handled setup env m ev m') {e : Entry}
    (hord : m.store.Orderly) (hreads : env.Reads) (hopens : env.openingFails = false)
    (hb : m.bootstrapped = false) (hb' : m'.bootstrapped = true)
    (hheld : .mailbox e ∈ m.store.snapshot) : Settled setup.ring m' e := by
  cases h with
  | bootstrap =>
    exact takeIn_settles hreads hopens (Access.mem_snapshot.2 hheld) fun f hf =>
      hord.eq_of_hash hheld (Access.mem_snapshot.1 hf)
  | idle => exact absurd (hb.symm.trans hb') Bool.false_ne_true
  | change =>
    rw [takeIn_bootstrapped] at hb'
    exact absurd (hb.symm.trans hb') Bool.false_ne_true
  | lagged =>
    rw [takeIn_bootstrapped] at hb'
    exact absurd (hb.symm.trans hb') Bool.false_ne_true
  | closed => exact absurd (hb.symm.trans hb') Bool.false_ne_true
  | lost => exact absurd (hb.symm.trans hb') Bool.false_ne_true
  | batch i batch hbt _ =>
    have hf := openAll_frame setup env { m with running := m.running.eraseIdx i } batch
    exact absurd (hb.symm.trans (hf.bootstrapped.symm.trans hb')) Bool.false_ne_true
  | cleared uid _ _ hev hc =>
    exact absurd (hb.symm.trans (hc.bootstrapped.symm.trans hb')) Bool.false_ne_true

end Mailbox

namespace History

variable {setup : Setup} {s : History} {e : Entry}

/-! ## Whole histories -/

theorem consistent_turn {t : Turn} (h : s.mailbox.Consistent) (ht : t.Served) :
    (s.turn setup t).mailbox.Consistent := by
  have h₀ : Mailbox.Consistent { s.mailbox with log := [] } :=
    ⟨h.valid, h.orderly, h.placed, h.asleep, h.recorded⟩
  cases t with
  | event env ev =>
    obtain ⟨m', m, hm, hf, hturn⟩ := turn_event setup s env ev
    rw [hturn]
    exact hf.consistent (hm.consistent h₀)
  | overlay change =>
    obtain ⟨r, rfl⟩ := ht
    exact h₀.serve r
  | restart env => exact Mailbox.consistent_restore setup env _ _ h.orderly

theorem consistent_run {turns : List Turn} (h : s.mailbox.Consistent) (ht : ∀ t ∈ turns, t.Served) :
    (s.run setup turns).mailbox.Consistent := by
  induction turns generalizing s with
  | nil => exact h
  | cons t turns ih =>
    obtain ⟨ht, hts⟩ := List.forall_mem_cons.1 ht
    exact ih (consistent_turn h ht) hts

/-- What is said between turns of an entry that the store holds. -/
def Covered (setup : Setup) (s : History) (e : Entry) : Prop :=
  s.mailbox.Settled setup.ring e ∨ s.mailbox.Unread e ∨ e.hash ∈ s.dropped

structure Covering (setup : Setup) (s : History) : Prop where
  consistent : s.mailbox.Consistent
  covered : s.mailbox.bootstrapped = true →
    ∀ e, .mailbox e ∈ s.mailbox.store.snapshot → Covered setup s e

theorem Covering.restored {env : Surroundings} {store : Store} {disk : Disk} (h : store.Orderly)
    (hm : s.mailbox = Mailbox.restore setup env store disk.items disk.ledger) :
    Covering setup s := by
  refine ⟨hm ▸ Mailbox.consistent_restore setup env disk.items disk.ledger h, ?_⟩
  intro hb
  rw [show s.mailbox.bootstrapped = false by rw [hm]; rfl] at hb
  cases hb

theorem Covering.event (h : Covering setup s) {env : Surroundings} {ev : Event} (hreads : env.Reads)
    (hopens : env.openingFails = false) : Covering setup (s.turn setup (.event env ev)) := by
  obtain ⟨m', m, hm, hf, hturn⟩ := turn_event setup s env ev
  have hcovered (e : Entry) (hb : m'.bootstrapped = true) (he : .mailbox e ∈ m'.store.snapshot) :
      m'.Settled setup.ring e ∨ m'.Unread e ∨ e.hash ∈ s.dropped ++
        if ev.isRemoval then (s.mailbox.index.lost m'.index).map Item.hash else [] := by
    have hheld := hm.reduced.mem_snapshot he
    cases hb' : s.mailbox.bootstrapped with
    | false => exact .inl (hm.bootstraps h.consistent.orderly hreads hopens hb' hb hheld)
    | true =>
      rcases h.covered hb' e hheld with hc | hc | hc
      · rcases hm.settled hopens hc with hc | ⟨hev, hi, hi'⟩
        · exact .inl hc
        · refine .inr (.inr (List.mem_append_right _ ?_))
          rw [hev, if_pos rfl]
          obtain ⟨item, hitem, hh⟩ := Index.mem_lost h.consistent.valid hi hi'
          exact List.mem_map.2 ⟨item, hitem, hh⟩
      · exact (hm.unread h.consistent.orderly hreads hopens hc hheld).symm.imp_right .inl
      · exact .inr (.inr (List.mem_append_left _ hc))
  refine ⟨consistent_turn h.consistent trivial, ?_⟩
  rw [hturn]
  cases hf with
  | stopped => exact fun hb e he => hcovered e hb he
  | flushed => exact fun hb e he => hcovered e hb he

theorem Covering.overlay (h : Covering setup s) (r : Store.Request) :
    Covering setup (s.turn setup (.overlay fun store => store.serve r)) := by
  refine ⟨consistent_turn h.consistent ⟨r, rfl⟩, ?_⟩
  intro hb e he
  have old (hheld : .mailbox e ∈ s.mailbox.store.snapshot) :
      Covered setup (s.turn setup (.overlay fun store => store.serve r)) e := by
    rcases h.covered hb e hheld with hc | hc | hc
    · exact .inl hc
    · exact .inr (.inl (hc.serve r))
    · exact .inr (.inr hc)
  rcases s.mailbox.store.serve_cases r with hr | ⟨x, -, hentries, hfeed, -, -⟩
  · exact old (hr.mem_snapshot he)
  · obtain ⟨k, hk⟩ := SortedMap.mem_values_iff.1 he
    simp only [turn, hentries, SortedMap.get?_insert] at hk
    split at hk
    · cases hk
      obtain ⟨place, hp, hle⟩ := h.consistent.placed hb
      refine .inr (.inl ⟨place, _, { added := [.mailbox e] }, hp, hle, ?_,
        List.mem_singleton_self _⟩)
      simp only [turn, hfeed, Feed.publish]
      exact List.getElem?_concat_length
    · exact old (SortedMap.mem_values_iff.2 ⟨k, hk⟩)

theorem Covering.run (h : Covering setup s) {turns : List Turn}
    (ht : ∀ t ∈ turns, t.Served ∧ t.Attentive) : Covering setup (s.run setup turns) := by
  induction turns generalizing s with
  | nil => exact h
  | cons t turns ih =>
    obtain ⟨ht, hts⟩ := List.forall_mem_cons.1 ht
    refine ih ?_ hts
    cases t with
    | event env ev => exact h.event ht.2.1 ht.2.2
    | overlay change =>
      obtain ⟨r, rfl⟩ := ht.1
      exact h.overlay r
    | restart env => exact .restored h.consistent.orderly rfl

/-- The change that added an entry waits to be read, or it was dropped and the reader is told of a
lag next. -/
def Awaited (m : Mailbox) (e : Entry) : Prop :=
  ∃ place i c, m.place = some place ∧ place ≤ i ∧ m.store.feed.history[i]? = some c ∧
    .mailbox e ∈ c.added ∧ (m.store.feed.history.length - m.store.feed.capacity ≤ i ∨
      ∃ next, m.store.feed.read? place = some (.lagged, next))

omit [Suite] in
theorem awaited_of_unread {m : Mailbox} (h : m.Unread e) : Awaited m e := by
  obtain ⟨place, i, c, hp, hi, hc, hadd⟩ := h
  refine ⟨place, i, c, hp, hi, hc, hadd, ?_⟩
  exact (m.store.feed.kept_or_lagged hi (List.getElem?_eq_some_iff.1 hc).1).imp_right fun hr =>
    ⟨_, hr⟩

/-- A mailbox is bootstrapped and has nothing left to read or to open. -/
structure Complete (m : Mailbox) : Prop where
  bootstrapped : m.bootstrapped = true
  read : ∀ place, m.place = some place → m.store.feed.read? place = none
  opened : m.pending = []

omit [Suite] in
theorem complete_of_place {m : Mailbox} {place : Nat} (hb : m.bootstrapped = true)
    (hp : m.place = some place) (hread : m.store.feed.read? place = none)
    (hpending : m.pending = []) : Complete m := by
  refine ⟨hb, ?_, hpending⟩
  intro other ho
  cases hp.symm.trans ho
  exact hread

omit [Suite] in
theorem Complete.not_unread {m : Mailbox} (h : Complete m) : ¬ m.Unread e := by
  rintro ⟨place, i, c, hp, hi, hc, -⟩
  have hlen := Feed.le_of_read?_eq_none (h.read place hp)
  have := (List.getElem?_eq_some_iff.1 hc).1
  omega

omit [Suite] in
theorem Complete.not_awaited {m : Mailbox} (h : Complete m) : ¬ Awaited m e := by
  rintro ⟨place, i, c, hp, hi, hc, hadd, -⟩
  exact h.not_unread ⟨place, i, c, hp, hi, hc, hadd⟩

/-- However a mailbox and the users of the store take turns, once it is bootstrapped each mailbox
entry that the store holds is indexed, ignored, waiting in a batch, still to be read, malformed, or
dropped by a removal. When nothing is left to read or to open, each is indexed, ignored, malformed
or dropped. -/
theorem entry_covered (setup : Setup) (env : Surroundings) (capacity : Nat) (broadcast : Broadcast)
    (requests : List Store.Request) (disk : Disk) (turns : List Turn)
    (hturns : ∀ t ∈ turns, t.Served ∧ t.Attentive)
    (hb : ((start setup env (requests.foldl Store.serve (.ofCapacity capacity broadcast)) disk).run
      setup turns).mailbox.bootstrapped = true) :
    let s := (start setup env
      (requests.foldl Store.serve (.ofCapacity capacity broadcast)) disk).run setup turns
    let m := s.mailbox
    ∀ e, .mailbox e ∈ m.store.snapshot →
      (m.index.contains e.hash = true ∨ m.ledger.contains e.uid = true ∨ e ∈ m.pending ∨
        Awaited m e ∨ (e.opening setup.ring).isMalformed = true ∨ e.hash ∈ s.dropped) ∧
      (Complete m →
        m.index.contains e.hash = true ∨ m.ledger.contains e.uid = true ∨
          (e.opening setup.ring).isMalformed = true ∨ e.hash ∈ s.dropped) := by
  intro s m e he
  have hstore := Store.orderly_foldl_serve (Store.orderly_ofCapacity capacity broadcast) requests
  have hstart : Covering setup (start setup env
      (requests.foldl Store.serve (.ofCapacity capacity broadcast)) disk) := .restored hstore rfl
  have hcov : Covered setup s e := (hstart.run hturns).covered hb e he
  have hcases :
      m.index.contains e.hash = true ∨ m.ledger.contains e.uid = true ∨ e ∈ m.pending ∨
        Awaited m e ∨ (e.opening setup.ring).isMalformed = true ∨ e.hash ∈ s.dropped := by
    rcases hcov with (h | h | h) | h | h
    · rcases Mailbox.isNew_eq_false.1 h with h | h
      · exact .inr (.inl h)
      · exact .inl h
    · exact .inr (.inr (.inl h))
    · exact .inr (.inr (.inr (.inr (.inl h))))
    · exact .inr (.inr (.inr (.inl (awaited_of_unread h))))
    · exact .inr (.inr (.inr (.inr (.inr h))))
  refine ⟨hcases, ?_⟩
  intro hcomplete
  rcases hcases with h | h | h | h | h
  · exact .inl h
  · exact .inr (.inl h)
  · exact absurd (hcomplete.opened ▸ h) List.not_mem_nil
  · exact absurd h hcomplete.not_awaited
  · exact .inr (.inr h)

end History

end SealedMail

namespace SealedMail.History

attribute [local instance] Suite.transparent

open Transparent

/-- Two letters are added faster than a feed of one change can show them. -/
def outrun : List Turn :=
  [.event (online 0) (.command .bootstrap),
    .overlay fun s => s.serve (.add (entry (ring 1) (ring 3) (letter "v") 1)),
    .overlay fun s => s.serve (.add (entry (ring 1) (ring 2) (letter "u") 1)),
    .event (online 0) .notice]

def caughtUp : List Turn :=
  [.event (online 0) (.batch 0), .event (online 0) .notice, .event (online 0) .notice]

/-- A mailbox that was started on an empty store whose feed keeps one change. -/
def reading (turns : List Turn) : History :=
  (start Transparent.setup (online 0) (.ofCapacity 1 (.sufficient 1)) ⟨[], ⟨.empty⟩⟩).run
    Transparent.setup turns

/-- The mailbox is told of a lag, and both letters wait in a batch. When all is read and opened, the
one to us is gone from the store, and the other is ignored. -/
theorem entry_covered_after_lag :
    let waiting := (reading outrun).mailbox
    let m := (reading (outrun ++ caughtUp)).mailbox
    (∀ t ∈ outrun ++ caughtUp, t.Served ∧ t.Attentive) ∧
      (waiting.bootstrapped = true ∧ waiting.store.size = 2 ∧ waiting.pending.length = 2) ∧
      (m.bootstrapped = true ∧ m.store.size = 1 ∧ m.pending = []) ∧
      (∀ e, .mailbox e ∈ waiting.store.snapshot →
        waiting.index.contains e.hash = true ∨ waiting.ledger.contains e.uid = true ∨
          e ∈ waiting.pending ∨ Awaited waiting e ∨ (e.opening (ring 2)).isMalformed = true ∨
          e.hash ∈ (reading outrun).dropped) ∧
      ∀ e, .mailbox e ∈ m.store.snapshot →
        m.index.contains e.hash = true ∨ m.ledger.contains e.uid = true ∨
          (e.opening (ring 2)).isMalformed = true ∨
          e.hash ∈ (reading (outrun ++ caughtUp)).dropped := by
  intro waiting m
  have hturns : ∀ t ∈ outrun ++ caughtUp, t.Served ∧ t.Attentive := by
    simp only [outrun, caughtUp, List.cons_append, List.nil_append, List.forall_mem_cons,
      List.not_mem_nil, false_imp_iff, forall_true_iff, and_true]
    have hreads : (online 0).Reads := ⟨_, rfl, List.not_mem_nil⟩
    exact ⟨⟨trivial, hreads, rfl⟩, ⟨⟨_, rfl⟩, trivial⟩, ⟨⟨_, rfl⟩, trivial⟩, ⟨trivial, hreads, rfl⟩,
      ⟨trivial, hreads, rfl⟩, ⟨trivial, hreads, rfl⟩, trivial, hreads, rfl⟩
  obtain ⟨hwaiting, hm, hplace, hread⟩ :
      (waiting.bootstrapped = true ∧ waiting.store.size = 2 ∧ waiting.pending.length = 2) ∧
        (m.bootstrapped = true ∧ m.store.size = 1 ∧ m.pending = []) ∧
        m.place = some 3 ∧ m.store.feed.read? 3 = none := by
    decide +kernel
  have hcomplete : Complete m := complete_of_place hm.1 hplace hread hm.2.2
  refine ⟨hturns, hwaiting, hm, ?_, ?_⟩
  · intro e he
    exact (entry_covered Transparent.setup (online 0) 1 (.sufficient 1) [] ⟨[], ⟨.empty⟩⟩ outrun
      (fun t ht => hturns t (List.mem_append_left _ ht)) hwaiting.1 e he).1
  · intro e he
    exact (entry_covered Transparent.setup (online 0) 1 (.sufficient 1) [] ⟨[],
      ⟨.empty⟩⟩ (outrun ++ caughtUp)
      hturns hm.1 e he).2 hcomplete

end SealedMail.History
