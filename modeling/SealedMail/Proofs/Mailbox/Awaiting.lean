import SealedMail.Proofs.Crypto.Sealing
import SealedMail.Proofs.Mailbox.Coverage
import SealedMail.Proofs.Mailbox.Withdrawable

/-!
# Entries that are awaited

A mailbox `Awaits` an entry from its addition to the store until an event opens it. No other event
changes anything about the payload (`Handled.awaits_or_opens`); the one that opens the entry indexes
the item, withdraws the entry from the store and tells every listener once (`Awaits.opened`).
-/

namespace SealedMail

variable [Suite]

namespace Mailbox

/-! ## Withdrawal of an own entry -/

variable {setup : Setup} {env : Surroundings} {m m' : Mailbox} {ev : Event} {e : Entry}
  {item : Item}

/-- The receiver of an entry with the number 1 can withdraw it. -/
theorem withdrawable_self {s : Store} (haddress : env.address.isSome = true)
    (haccess : env.access = .full) (howner : e.payload.ownerKey = setup.ring.signatureKey)
    (hnumber : s.sequences.get? e.hash = some 1) :
    Withdrawable setup env s e where
  addressed := haddress
  signed := by rw [haccess]; rfl
  heeded := by rw [haccess]; rfl
  entitled := .inl howner.symm
  numbered h := absurd (Option.some.inj (hnumber.symm.trans h)) (by decide)

/-! ## Reports of one payload -/

theorem filter_hash_eq {items : List Item} (hn : (items.map Item.hash).Nodup) (hi : item ∈ items) :
    items.filter (fun other => other.hash = item.hash) = [item] := by
  induction items with
  | nil => cases hi
  | cons first items ih =>
    obtain ⟨hfirst, hn⟩ := List.nodup_cons.1 hn
    rw [List.filter_cons]
    rcases List.mem_cons.1 hi with rfl | hi
    · rw [decide_eq_true (Eq.refl item.hash), if_pos rfl,
        List.filter_eq_nil_iff.2 fun other ho => ?_]
      have : other.hash ≠ item.hash := fun h => hfirst (h ▸ List.mem_map_of_mem ho)
      simpa using this
    · have : first.hash ≠ item.hash := fun h => hfirst (h ▸ List.mem_map_of_mem hi)
      rw [decide_eq_false this, ih hn hi]
      rfl

theorem filter_filterMap_report? (items : List Item) (hash : PayloadHash) :
    (items.filterMap Item.report?).filter (fun report => report.hash = hash) =
      (items.filter fun item => item.hash = hash).filterMap Item.report? := by
  induction items with
  | nil => rfl
  | cons item items ih =>
    cases hm : item.message? with
    | none => by_cases h : item.hash = hash <;> simp [Item.report?, hm, h, ih]
    | some message => by_cases h : item.hash = hash <;> simp [Item.report?, hm, h, ih]

def toldOf (id : Nat) (hash : PayloadHash) (effects : List Effect) : List Report :=
  (heard id effects).filter fun report => report.hash = hash

omit [Suite] in
theorem toldOf_append (id : Nat) (hash : PayloadHash) (effects more : List Effect) :
    toldOf id hash (effects ++ more) = toldOf id hash effects ++ toldOf id hash more := by
  rw [toldOf, heard_append, List.filter_append]
  rfl

omit [Suite] in
theorem Flushed.toldOf_eq {m'' : Mailbox} (h : Flushed env m m' m'') (id : Nat)
    (hash : PayloadHash) : toldOf id hash m''.log = toldOf id hash m'.log := by
  rw [toldOf, h.told]
  rfl

theorem Admitted.toldOf_eq {es : List Entry} {hash : PayloadHash} (h : Admitted setup env es m m')
    (hn : ∀ item ∈ m.index.news (received setup.ring es), item.hash ≠ hash) (id : Nat) :
    toldOf id hash m'.log = toldOf id hash m.log := by
  have hnil : (m.index.news (received setup.ring es)).filter (fun item => item.hash = hash) = [] :=
    List.filter_eq_nil_iff.2 fun item hi => by simpa using hn item hi
  rw [toldOf, toldOf, h.told, List.filter_append]
  split
  · rw [filter_filterMap_report?, hnil, List.filterMap_nil, List.append_nil]
  · rw [List.filter_nil, List.append_nil]

theorem Admitted.untouched {es : List Entry} {hash : PayloadHash} (h : Admitted setup env es m m')
    (hne : ∀ item ∈ received setup.ring es, item.hash ≠ hash) :
    m'.index.contains hash = m.index.contains hash ∧
      ∀ id, toldOf id hash m'.log = toldOf id hash m.log := by
  refine ⟨?_, h.toldOf_eq fun item hi => hne item (Index.mem_of_mem_news hi)⟩
  have hnone : ((received setup.ring es).any fun item => item.hash = hash) = false :=
    List.any_eq_false.2 fun item hi => by simpa using hne item hi
  rw [h.index, Index.contains_foldl_insert, hnone, Bool.or_false]

/-! ## Until the entry is opened -/

/-- The mailbox has yet to open an entry, which the store holds with the number 1 and which is the
only one known of its payload. -/
structure Awaits (setup : Setup) (e : Entry) (m : Mailbox) : Prop where
  consistent : m.Consistent
  fresh : m.index.contains e.hash = false
  held : m.store.entries.get? e.hash = some (.mailbox e)
  numbered : m.store.sequences.get? e.hash = some 1
  only : ∀ f, Known m f → f.hash = e.hash → f = e
  awaited : m.bootstrapped = true → Settled setup.ring m e ∨ m.Unread e

omit [Suite] in
theorem Known.congr {f : Entry} (h : Known m' f) (hp : m'.pending = m.pending)
    (hs : m'.store = m.store) : Known m f := by
  cases h with
  | pending h => exact .pending (hp ▸ h)
  | stored h => exact .stored (hs ▸ h)
  | published c hc h => exact .published c (hs ▸ hc) h

theorem Handled.known_of_known (h : Handled setup env m ev m') {f : Entry} (hf : Known m' f) :
    Known m f := by
  cases hf with
  | pending hf => exact h.known hf
  | stored hf => exact .stored (h.reduced.mem_snapshot hf)
  | published c hc hf => exact .published c (h.reduced.mem_history hc hf) hf

/-- A store that takes an addition of which it has recorded nothing makes every mailbox on it await
the entry. -/
theorem Awaits.added {store : Store} (h : m.Consistent) (hadd : m.store.add e = .ok store)
    (hunseen : m.store.sequences.get? e.hash = none) (hsequence : e.sequence = 1)
    (hnew : m.index.contains e.hash = false) : Awaits setup e { m with store } := by
  have hserve : m.store.serve (.add e) = store := by simp only [Store.serve, hadd]
  have hunrecorded : m.store.sequences.contains e.hash = false :=
    SortedMap.get?_eq_none_iff.1 hunseen
  have hold (f : Entry) (hf : Known m f) : f.hash ≠ e.hash := by
    intro he
    have := h.contains_sequences hf
    rw [he, hunrecorded] at this
    cases this
  have hconsistent := h.serve (.add e)
  rw [hserve] at hconsistent
  obtain ⟨-, -, -, rfl⟩ := Store.add_ok hadd
  refine ⟨hconsistent, hnew, (SortedMap.get?_insert ..).trans (if_pos rfl),
    (SortedMap.get?_insert ..).trans ((if_pos rfl).trans (congrArg some hsequence)),
    fun f hf he => ?_, fun hb => ?_⟩
  · cases hf with
    | pending hf => exact absurd he (hold f (.pending hf))
    | stored hf =>
      obtain ⟨k, hk⟩ := SortedMap.mem_values_iff.1 hf
      rw [SortedMap.get?_insert] at hk
      split at hk
      · cases hk; rfl
      · exact absurd he (hold f (.stored (SortedMap.mem_values_iff.2 ⟨k, hk⟩)))
    | published c hc hf =>
      rcases List.mem_append.1 hc with hc | hc
      · exact absurd he (hold f (.published c hc hf))
      · rw [List.mem_singleton.1 hc] at hf
        cases List.mem_singleton.1 hf
        rfl
  · obtain ⟨place, hp, hle⟩ := h.placed hb
    exact .inr ⟨place, _, { added := [.mailbox e] }, hp, hle, List.getElem?_concat_length,
      List.mem_singleton_self _⟩

theorem Awaits.flushed {m'' : Mailbox} (ha : Awaits setup e m') (h : Flushed env m m' m'') :
    Awaits setup e m'' := by
  have hconsistent := h.consistent ha.consistent
  cases h with
  | stopped => exact ha
  | flushed => exact ⟨hconsistent, ha.fresh, ha.held, ha.numbered,
      fun f hf => ha.only f (hf.congr rfl rfl), ha.awaited⟩

theorem Awaits.unlogged (ha : Awaits setup e m) (log : List Effect) :
    Awaits setup e { m with log } :=
  ⟨⟨ha.consistent.valid, ha.consistent.orderly, ha.consistent.placed, ha.consistent.asleep,
    ha.consistent.recorded⟩, ha.fresh, ha.held, ha.numbered,
    fun f hf => ha.only f (hf.congr rfl rfl),
    ha.awaited⟩

theorem Awaits.serve (h : Awaits setup e m) {r : Store.Request} (hr : r.hash ≠ e.hash) :
    Awaits setup e { m with store := m.store.serve r } := by
  obtain ⟨hentries, hsequences⟩ := m.store.get?_serve_of_ne (Ne.symm hr)
  refine ⟨h.consistent.serve r, h.fresh, hentries.trans h.held, hsequences.trans h.numbered,
    ?_, fun hb => (h.awaited hb).imp_right fun hu => hu.serve r⟩
  intro f hf he
  have hserve := m.store.serve_cases r
  cases hf with
  | pending hf => exact h.only f (.pending hf) he
  | stored hf =>
    obtain ⟨k, hk⟩ := SortedMap.mem_values_iff.1 hf
    have hkey := (h.consistent.serve r).orderly.keyed k f hk
    rw [← hkey, he] at hk
    cases (hentries.trans h.held).symm.trans hk
    rfl
  | published c hc hf =>
    rcases hserve with hred | ⟨x, hx, -, hfeed, -, -⟩
    · exact h.only f (.published c (hred.mem_history hc hf) hf) he
    · rw [hfeed] at hc
      rcases List.mem_append.1 hc with hc | hc
      · exact h.only f (.published c hc hf) he
      · rw [List.mem_singleton.1 hc] at hf
        cases List.mem_singleton.1 hf
        exact absurd (hx.symm.trans he) hr

/-! ## The event that opens the entry -/

/-- An event that opens nothing of the payload leaves it awaited, and nothing is told of it. -/
theorem Handled.awaits_or_opens (h : Handled setup env m ev m') (ha : Awaits setup e m)
    (hreads : env.Reads) (hopens : env.openingFails = false) :
    (Awaits setup e m' ∧ ∀ id, toldOf id e.hash m'.log = toldOf id e.hash m.log) ∨
      ∃ es, Admitted setup env es m m' ∧ (∀ f ∈ es, Known m f) ∧ e ∈ es := by
  have awaits (hfresh : m'.index.contains e.hash = false)
      (hstore : m'.store.entries.get? e.hash = m.store.entries.get? e.hash ∧
        m'.store.sequences.get? e.hash = m.store.sequences.get? e.hash) : Awaits setup e m' := by
    have hheld := hstore.1.trans ha.held
    refine ⟨h.consistent ha.consistent, hfresh, hheld, hstore.2.trans ha.numbered,
      fun f hf => ha.only f (h.known_of_known hf), ?_⟩
    intro hb
    have hsnapshot : .mailbox e ∈ m'.store.snapshot := SortedMap.mem_values_iff.2 ⟨_, hheld⟩
    have hsnapshot₀ := h.reduced.mem_snapshot hsnapshot
    cases hb₀ : m.bootstrapped with
    | false => exact .inl (h.bootstraps ha.consistent.orderly hreads hopens hb₀ hb hsnapshot₀)
    | true =>
      rcases ha.awaited hb₀ with hs | hu
      · rcases h.settled hopens hs with hs | ⟨-, hi, -⟩
        · exact .inl hs
        · exact absurd (ha.fresh.symm.trans hi) Bool.false_ne_true
      · exact (h.unread ha.consistent.orderly hreads hopens hu hsnapshot₀).symm
  rcases h.admitted with ⟨es, hes, hknown⟩ | ⟨-, uid, hc⟩
  · by_cases he : e ∈ es
    · exact .inr ⟨es, hes, hknown, he⟩
    · have hne : ∀ item ∈ received setup.ring es, item.hash ≠ e.hash := by
        intro item hi hh
        have hi := (mem_received.1 hi).1
        exact he (ha.only item.entry (hknown _ hi) hh ▸ hi)
      have hnews : ∀ item ∈ m.index.news (received setup.ring es), item.hash ≠ e.hash :=
        fun item hi => hne item (Index.mem_of_mem_news hi)
      obtain ⟨hcontains, htold⟩ := hes.untouched hne
      refine .inl ⟨awaits (hcontains.trans ha.fresh) ?_, htold⟩
      · rw [hes.store, withdrawAll]
        split
        · exact get?_withdrawItems_of_ne setup env m.store hnews
        · exact ⟨rfl, rfl⟩
  · refine .inl ⟨awaits ?_ ?_, fun id => by rw [toldOf, toldOf, hc.told]⟩
    · exact Bool.not_eq_true _ ▸ fun hi =>
        absurd (ha.fresh.symm.trans (hc.contains ha.consistent.valid hi)) Bool.false_ne_true
    · rw [hc.store]
      refine get?_withdrawItems_of_ne setup env m.store fun item hi hh => ?_
      rw [Index.removeUid_snd ha.consistent.valid] at hi
      have := (ha.consistent.valid.contains_iff e.hash).2 ⟨item, List.mem_of_mem_filter hi, hh⟩
      exact absurd (ha.fresh.symm.trans this) Bool.false_ne_true

/-- The event that opens an awaited entry indexes the item, withdraws the entry, and tells every
listener once. -/
theorem Awaits.opened (laws : Suite.Laws) {es : List Entry} {report : Report}
    (ha : Awaits setup item.entry m) (h : Handled setup env m ev m')
    (hes : Admitted setup env es m m') (hknown : ∀ f ∈ es, Known m f) (he : item.entry ∈ es)
    (hopening : item.entry.opening setup.ring = .received item)
    (howner : item.entry.payload.ownerKey = setup.ring.signatureKey)
    (hreport : item.report? = some report) (hreads : env.Reads) (haccess : env.access = .full) :
    item ∈ m'.index.items ∧ m'.store.entries.get? item.hash = none ∧
      ∀ id, m.listeners.contains id = true →
        toldOf id item.hash m'.log = toldOf id item.hash m.log ++ [report] := by
  have hreceived : item ∈ received setup.ring es := mem_received.2 ⟨he, hopening⟩
  have hnew : item ∈ m.index.news (received setup.ring es) := by
    refine Index.mem_news hreceived ha.fresh ?_
    intro other ho hh
    obtain ⟨hother, hopening'⟩ := mem_received.1 ho
    rw [ha.only other.entry (hknown _ hother) hh, hopening] at hopening'
    exact (Opening.received.inj hopening').symm
  have hn := Index.nodup_news m.index (received setup.ring es)
  have haddress : env.address.isSome = true := by
    obtain ⟨own, ho, -⟩ := hreads
    rw [ho]
    rfl
  have hindexed : item ∈ m'.index.items := by
    rw [hes.index, Index.items_foldl_insert]
    exact List.mem_append_right _ hnew
  have hb : m'.bootstrapped = true := by
    have hcontains := ((h.valid ha.consistent.valid).contains_iff item.hash).2 ⟨item, hindexed, rfl⟩
    refine Bool.not_eq_false _ ▸ fun hb => ?_
    have := (h.of_asleep ha.consistent.asleep ha.consistent.valid hb).2 _ hcontains
    exact absurd (ha.fresh.symm.trans this) Bool.false_ne_true
  refine ⟨hindexed, ?_, ?_⟩
  · rw [hes.store, withdrawAll, if_pos hb]
    have hself : Withdrawable setup env m.store item.entry :=
      withdrawable_self haddress haccess howner ha.numbered
    refine SortedMap.get?_eq_none_iff.2 (Bool.eq_false_iff.2 fun hheld => ?_)
    exact ((contains_withdrawItems_iff (KeyRing.verifies_sign laws setup.ring) hn hnew).1 hheld).2
      hself
  · intro id hid
    rw [toldOf, hes.told, if_pos hid, List.filter_append, filter_filterMap_report?,
      filter_hash_eq hn hnew, List.filterMap_cons, hreport]
    rfl

end Mailbox

end SealedMail
