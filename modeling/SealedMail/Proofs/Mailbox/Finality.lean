import SealedMail.Proofs.Mailbox.Delivery

/-!
# Finality of removals

A mailbox knows a payload again only while its item is indexed. After a removal it takes the payload
in once more if a copy is still `Ahead`: in a batch, in the store, or in a change that is not read
yet. Nothing gets ahead of a mailbox but by an addition that the store takes, so a payload of which
no copy is ahead stays away until then.
-/

namespace SealedMail

variable [Suite]

namespace Mailbox

variable {setup : Setup} {env : Surroundings} {m m' : Mailbox} {ev : Event} {e : Entry}
  {hash : PayloadHash}

/-! ## What is ahead -/

omit [Suite] in
theorem Ahead.congr (h : Ahead m' e) (hp : m'.pending = m.pending) (hs : m'.store = m.store)
    (hplace : m'.place = m.place) : Ahead m e := by
  cases h with
  | pending h => exact .pending (hp ▸ h)
  | stored h => exact .stored (hs ▸ h)
  | unread place i c hpl hi hc h => exact .unread place i c (hplace ▸ hpl) hi (hs ▸ hc) h

/-- A mailbox goes on from its place, or subscribes at the end of the feed. -/
theorem Handled.place_le (h : Handled setup env m ev m') {next : Nat} (hn : m'.place = some next) :
    (∃ place, m.place = some place ∧ place ≤ next) ∨ m.store.feed.history.length ≤ next := by
  cases h with
  | idle => exact .inl ⟨next, hn, Nat.le_refl next⟩
  | bootstrap =>
    cases (takeIn_place setup env m.subscribe _).symm.trans hn
    exact .inr (Nat.le_refl _)
  | change place next' c hp hr =>
    cases (takeIn_place setup env { m with place := some next' } _).symm.trans hn
    exact .inl ⟨place, hp, Feed.le_of_read? hr⟩
  | lagged place next' hp hr =>
    cases (takeIn_place setup env { m with place := some next' } _).symm.trans hn
    exact .inl ⟨place, hp, Feed.le_of_read? hr⟩
  | closed => cases hn
  | lost => exact .inl ⟨next, hn, Nat.le_refl next⟩
  | batch i batch =>
    have hf := openAll_frame setup env { m with running := m.running.eraseIdx i } batch
    exact .inl ⟨next, hf.place.symm.trans hn, Nat.le_refl next⟩
  | cleared uid _ _ hev hc => exact .inl ⟨next, hc.place.symm.trans hn, Nat.le_refl next⟩

theorem Handled.ahead (h : Handled setup env m ev m') (he : Ahead m' e) : Ahead m e := by
  cases he with
  | pending he => exact h.ahead_of_pending he
  | stored he => exact .stored (h.reduced.mem_snapshot he)
  | unread next i c hn hi hc hadd =>
    have hc := h.reduced.getElem?_of_added hc hadd
    rcases h.place_le hn with ⟨place, hp, hle⟩ | hle
    · exact .unread place i c hp (Nat.le_trans hle hi) hc hadd
    · have := (List.getElem?_eq_some_iff.1 hc).1
      omega

theorem ahead_of_publish {store : Store} {x : StoredEntry}
    (hentries : store.entries = m.store.entries.insert x.hash x)
    (hfeed : store.feed = m.store.feed.publish { added := [x] }) (he : Ahead { m with store } e) :
    Ahead m e ∨ x = .mailbox e := by
  cases he with
  | pending he => exact .inl (.pending he)
  | stored he =>
    obtain ⟨k, hk⟩ := SortedMap.mem_values_iff.1 he
    rw [hentries, SortedMap.get?_insert] at hk
    split at hk
    · exact .inr (Option.some.inj hk)
    · exact .inl (.stored (SortedMap.mem_values_iff.2 ⟨k, hk⟩))
  | unread place i c hp hi hc hadd =>
    rw [hfeed, Feed.publish] at hc
    by_cases hlt : i < m.store.feed.history.length
    · rw [List.getElem?_append_left hlt] at hc
      exact .inl (.unread place i c hp hi hc hadd)
    · rw [List.getElem?_append_right (Nat.not_lt.1 hlt)] at hc
      cases List.mem_singleton.1 (List.mem_of_getElem? hc)
      exact .inr (List.mem_singleton.1 hadd).symm

theorem ahead_of_serve {r : Store.Request} (he : Ahead { m with store := m.store.serve r } e) :
    Ahead m e ∨ r = .add e ∧ ∃ store, m.store.add e = .ok store := by
  cases r with
  | add f =>
    cases ha : m.store.add f with
    | error error =>
      simp only [Store.serve, ha] at he
      exact .inl he
    | ok store =>
      obtain ⟨-, -, -, hstore⟩ := Store.add_ok ha
      simp only [Store.serve, ha] at he
      rcases ahead_of_publish (x := .mailbox f) (by rw [hstore]; rfl) (by rw [hstore]) he
        with he | hx
      · exact .inl he
      · cases hx
        exact .inr ⟨rfl, store, ha⟩
  | remove f =>
    have hr := m.store.remove_reduced f
    cases he with
    | pending he => exact .inl (.pending he)
    | stored he => exact .inl (.stored (hr.mem_snapshot he))
    | unread place i c hp hi hc hadd =>
      exact .inl (.unread place i c hp hi (hr.getElem?_of_added hc hadd) hadd)
  | addGeneric g =>
    rcases ahead_of_publish (x := .generic g) rfl rfl he with he | hx
    · exact .inl he
    · cases hx

/-! ## Payloads that are gone -/

/-- A payload is not indexed, and no copy of it is ahead. -/
structure Gone (hash : PayloadHash) (m : Mailbox) : Prop where
  unindexed : m.index.contains hash = false
  behind : ∀ e, Ahead m e → e.hash ≠ hash

theorem Gone.unlogged (h : Gone hash m) (log : List Effect) : Gone hash { m with log } :=
  ⟨h.unindexed, fun e he => h.behind e (he.congr rfl rfl rfl)⟩

theorem Gone.flushed {m'' : Mailbox} (hg : Gone hash m') (h : Flushed env m m' m'') :
    Gone hash m'' := by
  cases h with
  | stopped => exact hg
  | flushed => exact ⟨hg.unindexed, fun e he => hg.behind e (he.congr rfl rfl rfl)⟩

theorem Handled.gone (h : Handled setup env m ev m') (hv : m.index.Valid) (hg : Gone hash m) :
    Gone hash m' ∧ ∀ id, toldOf id hash m'.log = toldOf id hash m.log := by
  have hbehind (e : Entry) (he : Ahead m' e) : e.hash ≠ hash := hg.behind e (h.ahead he)
  rcases h.admitted_ahead with ⟨es, hes, hahead⟩ | ⟨-, uid, hc⟩
  · obtain ⟨hcontains, htold⟩ := hes.untouched fun item hi =>
      hg.behind item.entry (hahead _ (mem_received.1 hi).1)
    exact ⟨⟨hcontains.trans hg.unindexed, hbehind⟩, htold⟩
  · refine ⟨⟨?_, hbehind⟩, fun id => by rw [toldOf, toldOf, hc.told]⟩
    exact Bool.not_eq_true _ ▸ fun hi =>
      absurd (hg.unindexed.symm.trans (hc.contains hv hi)) Bool.false_ne_true

end Mailbox

/-- The mailbox goes on, and whatever others add under a hash the store refuses. -/
def Turn.Refuses (hash : PayloadHash) (store : Store) : Turn → Prop
  | .event _ _ => True
  | .overlay change => ∃ r, (change = fun s => s.serve r) ∧
      ∀ e store', r = .add e → e.hash = hash → store.add e ≠ .ok store'
  | .restart _ => False

namespace History

open Mailbox (toldOf toldOf_append)

variable {setup : Setup} {s : History} {t : Turn} {turns : List Turn} {hash : PayloadHash}

theorem gone_turn (hv : s.mailbox.index.Valid) (hg : s.mailbox.Gone hash)
    (ht : t.Refuses hash s.mailbox.store) :
    (s.turn setup t).mailbox.Gone hash ∧
      ∀ id, (s.turn setup t).reportsOf id hash = s.reportsOf id hash := by
  have hg₀ := hg.unlogged []
  cases t with
  | restart env => exact ht.elim
  | overlay change =>
    obtain ⟨r, rfl, hrefused⟩ := ht
    refine ⟨⟨hg₀.unindexed, fun e he hh => ?_⟩, fun _ => rfl⟩
    have he : Mailbox.Ahead { s.mailbox with store := s.mailbox.store.serve r, log := [] } e := he
    rcases Mailbox.ahead_of_serve (he.congr rfl rfl rfl) with he | ⟨hr, store, hadd⟩
    · exact hg.behind e he hh
    · exact hrefused e store hr hh hadd
  | event env ev =>
    obtain ⟨m', m, hm, hf, hturn⟩ := turn_event setup s env ev
    obtain ⟨hgone, htold⟩ := hm.gone hv hg₀
    rw [hturn]
    refine ⟨hgone.flushed hf, fun id => ?_⟩
    rw [reportsOf, toldOf_append, hf.toldOf_eq, show toldOf id hash m'.log = [] from htold id,
      List.append_nil]
    rfl

/-- From turn to turn the mailbox goes on, and the store refuses whatever others add under a
hash. -/
def Refusing (setup : Setup) (hash : PayloadHash) (s : History) : List Turn → Prop
  | [] => True
  | t :: turns => t.Refuses hash s.mailbox.store ∧ Refusing setup hash (s.turn setup t) turns

theorem gone_run (hv : s.mailbox.index.Valid) (hg : s.mailbox.Gone hash)
    (ht : Refusing setup hash s turns) : (s.run setup turns).mailbox.Gone hash ∧
      ∀ id, (s.run setup turns).reportsOf id hash = s.reportsOf id hash := by
  induction turns generalizing s with
  | nil => exact ⟨hg, fun _ => rfl⟩
  | cons t turns ih =>
    obtain ⟨ht, hts⟩ := ht
    obtain ⟨hturn, hreports⟩ := gone_turn hv hg ht
    obtain ⟨hrun, hreports'⟩ := ih (valid_turn hv t) hturn hts
    exact ⟨hrun, fun id => (hreports' id).trans (hreports id)⟩

/-- Once a payload is neither indexed nor stored, and no copy of it waits in a batch or in a change
that is still to be read, it is never indexed again and nothing more is told of it, whatever the
mailbox does and whatever others ask of the store, until the store takes an addition of it or the
mailbox is restarted. -/
theorem removal_is_final (setup : Setup) (env : Surroundings) (capacity : Nat)
    (broadcast : Broadcast) (requests : List Store.Request) (disk : Disk)
    (before during : List Turn) (hash : PayloadHash) (s : History)
    (hs : s =
      (start setup env (requests.foldl Store.serve (.ofCapacity capacity broadcast)) disk).run
        setup before)
    (hbefore : ∀ t ∈ before, t.Served)
    (hremoved : s.mailbox.index.contains hash = false)
    (hwithdrawn : s.mailbox.store.contains hash = false)
    (hopened : ∀ e ∈ s.mailbox.pending, e.hash ≠ hash)
    (hread : ∀ e, s.mailbox.Unread e → e.hash ≠ hash) (hduring : Refusing setup hash s during) :
    (s.run setup during).mailbox.index.contains hash = false ∧
      ∀ id, (s.run setup during).reportsOf id hash = s.reportsOf id hash := by
  have hconsistent : s.mailbox.Consistent := by
    have hstore := Store.orderly_foldl_serve (Store.orderly_ofCapacity capacity broadcast) requests
    rw [hs]
    exact consistent_run
      (Mailbox.consistent_restore setup env disk.items disk.ledger hstore) hbefore
  have hgone : s.mailbox.Gone hash := by
    refine ⟨hremoved, fun e he => ?_⟩
    cases he with
    | pending he => exact hopened e he
    | unread place i c hp hi hc hadd => exact hread e ⟨place, i, c, hp, hi, hc, hadd⟩
    | stored he =>
      rintro rfl
      obtain ⟨k, hk⟩ := SortedMap.mem_values_iff.1 he
      rw [← hconsistent.orderly.keyed k e hk] at hk
      exact absurd (hwithdrawn.symm.trans (SortedMap.contains_iff.2 ⟨_, hk⟩)) Bool.false_ne_true
  obtain ⟨hrun, hreports⟩ := gone_run hconsistent.valid hgone hduring
  exact ⟨hrun.unindexed, hreports⟩

end History

end SealedMail

namespace SealedMail.History

attribute [local instance] Suite.transparent

open Transparent

def letterRemoval : Event := .command (.remove ⟨.mailbox (letter "u"), (ring 1).signatureKey⟩)

/-- A letter is received. -/
def letterReceived : List Turn :=
  [.event (online 0) (.command (.addListener 7)), .event (online 0) (.command .bootstrap),
    .overlay fun s => s.serve (.add (entry (ring 1) (ring 2) (letter "u") 1)),
    .event (online 0) .notice]

/-- The letter is removed, and its addition asked for again. Another letter is added and
received. -/
theorem removed_letter_stays_away :
    let removed := letterReceived ++ [.event (online 0) .notice, .event (online 0) letterRemoval]
    let during := [.overlay fun s => s.serve (.add (entry (ring 1) (ring 2) (letter "u") 1)),
      .event (online 0) .notice,
      .overlay fun s => s.serve (.add (entry (ring 1) (ring 2) (letter "v") 1)),
      .event (online 0) .notice]
    let later := (afterTurns removed).run Transparent.setup during
    later.mailbox.index.items.length = 1 ∧ later.mailbox.index.contains letterPayload.hash = false ∧
      later.reportsOf 7 letterPayload.hash =
        (afterTurns removed).reportsOf 7 letterPayload.hash := by
  intro removed during later
  obtain ⟨hone, hremoved, hwithdrawn, hb, hplace, hread, hpending, hrefused⟩ :
      later.mailbox.index.items.length = 1 ∧
        (afterTurns removed).mailbox.index.contains letterPayload.hash = false ∧
        (afterTurns removed).mailbox.store.contains letterPayload.hash = false ∧
        (afterTurns removed).mailbox.bootstrapped = true ∧
          (afterTurns removed).mailbox.place = some 2 ∧
        (afterTurns removed).mailbox.store.feed.read? 2 = none ∧
          (afterTurns removed).mailbox.pending = [] ∧
        (afterTurns removed).mailbox.store.add (entry (ring 1) (ring 2) (letter "u") 1) =
          .error .duplicateEntry := by
    decide +kernel
  have hcomplete := complete_of_place hb hplace hread hpending
  have hduring : Refusing Transparent.setup letterPayload.hash (afterTurns removed) during := by
    refine ⟨⟨_, rfl, ?_⟩, trivial, ⟨_, rfl, ?_⟩, trivial, trivial⟩
    · intro e store he _ hadd
      rw [← Store.Request.add.inj he, hrefused] at hadd
      exact nomatch hadd
    · intro e store he hh
      rw [← Store.Request.add.inj he] at hh
      exact absurd hh (by decide +kernel)
  have hserved : ∀ t ∈ removed, t.Served := by
    simp only [removed, letterReceived, List.cons_append, List.nil_append, List.forall_mem_cons]
    exact ⟨trivial, trivial, ⟨_, rfl⟩, trivial, trivial, trivial,
      fun _ h => absurd h List.not_mem_nil⟩
  have h := removal_is_final Transparent.setup (online 0) 8 (.sufficient 1) [] ⟨[], ⟨.empty⟩⟩
    removed during letterPayload.hash (afterTurns removed) rfl hserved hremoved hwithdrawn
    (fun e he => absurd (hpending ▸ he) List.not_mem_nil)
    (fun e he => absurd he hcomplete.not_unread) hduring
  exact ⟨hone, h.1, h.2 7⟩

/-- The letter is added again after it was received, and removed before that is read. -/
def removedUnread : History :=
  afterTurns (letterReceived ++
    [.overlay fun s => s.serve (.add (entry (ring 1) (ring 2) (letter "u") 3)),
      .event (online 0) letterRemoval])

/-- The letter is taken in with a batch because of a lag, received from the change that is read
next, and removed before the batch is done. -/
def removedUnopened : History :=
  reading (.event (online 0) (.command (.addListener 7)) :: outrun ++
    [.event (online 0) .notice, .event (online 0) letterRemoval])

/-- A letter that was removed is indexed again, and the listener is told of it again, though nothing
is added any more: a copy of it was still to be read, or in a batch. -/
theorem removed_letter_returns :
    (let later := removedUnread.run Transparent.setup
       [.event (online 0) .notice, .event (online 0) .notice]
     removedUnread.dropped = [letterPayload.hash] ∧
       removedUnread.mailbox.index.contains letterPayload.hash = false ∧
       removedUnread.mailbox.store.contains letterPayload.hash = false ∧
       (removedUnread.reportsOf 7 letterPayload.hash).length = 1 ∧
       later.mailbox.index.contains letterPayload.hash = true ∧
       (later.reportsOf 7 letterPayload.hash).length = 2) ∧
    let later := removedUnopened.run Transparent.setup [.event (online 0) (.batch 0)]
    removedUnopened.dropped = [letterPayload.hash] ∧
      removedUnopened.mailbox.index.contains letterPayload.hash = false ∧
      removedUnopened.mailbox.store.contains letterPayload.hash = false ∧
      (removedUnopened.reportsOf 7 letterPayload.hash).length = 1 ∧
      later.mailbox.index.contains letterPayload.hash = true ∧
      (later.reportsOf 7 letterPayload.hash).length = 2 := by
  constructor <;> decide +kernel

end SealedMail.History
