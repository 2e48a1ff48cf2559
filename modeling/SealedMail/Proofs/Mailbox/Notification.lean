import Mathlib.Data.List.Infix
import SealedMail.Proofs.Crypto.Transparent
import SealedMail.Proofs.Mailbox.History
import SealedMail.Proofs.Overlay.Request

/-!
# Notifications

Over a whole history each listener is told of a payload at most once more often than the payload has
left the index. In one turn (`turn_told_le`) a payload is reported only when it enters the index; it
leaves the index only by a removal or at a restart. A listener that stays registered is told of
exactly what enters the index.
-/

namespace SealedMail.History

variable [Suite] (setup : Setup) {s : History}

/-- How often a payload has left the index. -/
def departures (s : History) (hash : PayloadHash) : Nat :=
  s.dropped.count hash + s.expired.count hash

/-- How often a listener was told of a payload. -/
def told (s : History) (id : Nat) (hash : PayloadHash) : Nat :=
  (s.reports id).countP fun report => report.hash = hash

/-- Whether a payload is indexed, as a number. -/
def held (s : History) (hash : PayloadHash) : Nat := (s.mailbox.index.contains hash).toNat

/-! ## One turn -/

theorem countP_filterMap_report? (items : List Item) (hash : PayloadHash) :
    (items.filterMap Item.report?).countP (fun report => report.hash = hash) ≤
      items.countP fun item => item.hash = hash := by
  induction items with
  | nil => simp
  | cons item items ih =>
    rw [List.countP_cons, List.filterMap_cons]
    split
    · omega
    · next report hr =>
      obtain ⟨message, -, rfl⟩ := Option.map_eq_some_iff.1 hr
      rw [List.countP_cons]
      exact Nat.add_le_add_right ih _

/-- What is not indexed any more after a restart has outlived its time. -/
theorem restart_told_le (hs : s.Sound) (env : Surroundings) (id : Nat) (hash : PayloadHash) :
    (s.turn setup (.restart env)).told id hash + s.held hash + s.departures hash ≤
      s.told id hash + (s.turn setup (.restart env)).held hash +
        (s.turn setup (.restart env)).departures hash := by
  have htold : (s.turn setup (.restart env)).told id hash = s.told id hash := by
    simp only [told, reports, turn, heard_append, Mailbox.heard_restore, List.append_nil]
  rw [htold]
  simp only [held, departures, turn, List.count_append]
  cases hb : s.mailbox.index.contains hash with
  | false => simp only [Bool.toNat_false]; omega
  | true =>
    cases ha : (Mailbox.restore setup env s.mailbox.store s.disk.items
        s.disk.ledger).index.contains hash with
    | true => simp only [Bool.toNat_true]; omega
    | false =>
      obtain ⟨item, hi, rfl⟩ := Index.mem_lost hs.valid hb ha
      have hexpired : item.entry.isExpired env.now setup.ttl = true := by
        refine Bool.not_eq_false _ ▸ fun hn => ?_
        have : (Index.ofList s.disk.items env.now setup.ttl).contains item.hash = true :=
          Index.contains_ofList.2 ⟨item, hs.onDisk item (List.mem_of_mem_filter hi), hn, rfl⟩
        exact absurd (ha.symm.trans this) Bool.false_ne_true
      have hmem : item ∈ (s.mailbox.index.lost (Mailbox.restore setup env s.mailbox.store
          s.disk.items s.disk.ledger).index).filter fun item =>
            item.entry.isExpired env.now setup.ttl := List.mem_filter.2 ⟨hi, hexpired⟩
      have := List.count_pos_iff.2 (List.mem_map_of_mem (f := Item.hash) hmem)
      simp only [Bool.toNat_true, Bool.toNat_false]
      omega

/-- An event tells of what enters the index, and what leaves it was dropped. -/
theorem event_told_le (hs : s.Sound) (env : Surroundings) (e : Event) (id : Nat)
    (hash : PayloadHash) :
    (s.turn setup (.event env e)).told id hash + s.held hash + s.departures hash ≤
      s.told id hash + (s.turn setup (.event env e)).held hash +
        (s.turn setup (.event env e)).departures hash := by
  obtain ⟨m', m, h, hf, hturn⟩ := turn_event setup s env e
  simp only [hturn, told, reports, held, departures, heard_append, List.countP_append,
    List.count_append, hf.told, hf.index]
  rcases h.admitted with ⟨es, ha, -⟩ | ⟨hev, uid, hc⟩
  · have hnews := Index.countP_news_le s.mailbox.index (received setup.ring es) hash
    have hreport : (heard id m'.log).countP (fun report => report.hash = hash) ≤
        (s.mailbox.index.news (received setup.ring es)).countP fun item => item.hash = hash := by
      rw [ha.told, heard_nil, List.nil_append]
      split
      · exact countP_filterMap_report? _ hash
      · simp
    rw [← ha.index] at hnews
    omega
  · rw [hc.told, heard_nil, List.countP_nil, hev, if_pos rfl]
    cases hb : s.mailbox.index.contains hash with
    | false => simp only [Bool.toNat_false]; omega
    | true =>
      cases ha : m'.index.contains hash with
      | true => simp only [Bool.toNat_true]; omega
      | false =>
        have := Index.count_lost_pos hs.valid hb ha
        simp only [Bool.toNat_true, Bool.toNat_false]
        omega

theorem turn_told_le (hs : s.Sound) (t : Turn) (id : Nat) (hash : PayloadHash) :
    (s.turn setup t).told id hash + s.held hash + s.departures hash ≤
      s.told id hash + (s.turn setup t).held hash + (s.turn setup t).departures hash := by
  cases t with
  | overlay change => exact Nat.le_refl _
  | restart env => exact restart_told_le setup hs env id hash
  | event env e => exact event_told_le setup hs env e id hash

/-! ## Whole histories -/

theorem run_told_le (hs : s.Sound) {turns : List Turn} (ht : ∀ t ∈ turns, t.Writes) (id : Nat)
    (hash : PayloadHash) :
    (s.run setup turns).told id hash + s.held hash + s.departures hash ≤
      s.told id hash + (s.run setup turns).held hash + (s.run setup turns).departures hash := by
  induction turns generalizing s with
  | nil => exact Nat.le_refl _
  | cons t turns ih =>
    obtain ⟨ht, hts⟩ := List.forall_mem_cons.1 ht
    have h1 := turn_told_le setup hs t id hash
    have h2 := ih (hs.turn setup ht) hts
    rw [run_cons]
    omega

/-- The items that handling events newly inserts into the index, in order. -/
def admitted (s : History) : List Turn → List Item
  | [] => []
  | t :: turns =>
    (match t with
      | .event _ _ => Index.gained s.mailbox.index (s.turn setup t).mailbox.index
      | _ => []) ++ admitted (s.turn setup t) turns

/-- A listener stays registered from turn to turn. -/
def Registered (s : History) (id : Nat) (turns : List Turn) : Prop :=
  ∀ done, done <+: turns → (s.run setup done).mailbox.listeners.contains id = true

variable {setup} in
theorem Registered.head {id : Nat} {turns : List Turn} (h : Registered setup s id turns) :
    s.mailbox.listeners.contains id = true := h [] List.nil_prefix

variable {setup} in
theorem Registered.tail {id : Nat} {t : Turn} {turns : List Turn}
    (h : Registered setup s id (t :: turns)) : Registered setup (s.turn setup t) id turns :=
  fun done hd => h (t :: done) (List.cons_prefix_cons.2 ⟨rfl, hd⟩)

theorem map_some_filterMap_report? {items : List Item}
    (h : ∀ item ∈ items, item.message?.isSome = true) :
    (items.filterMap Item.report?).map some = items.map Item.report? := by
  induction items with
  | nil => rfl
  | cons item items ih =>
    obtain ⟨hi, h⟩ := List.forall_mem_cons.1 h
    obtain ⟨message, hm⟩ := Option.isSome_iff_exists.1 hi
    simp [Item.report?, hm, ← ih h]

theorem turn_reports (hv : s.mailbox.index.Valid) (env : Surroundings) (e : Event) {id : Nat}
    (hid : s.mailbox.listeners.contains id = true) :
    ∃ reports, (s.turn setup (.event env e)).reports id = s.reports id ++ reports ∧
      reports.map some =
        (Index.gained s.mailbox.index (s.turn setup (.event env e)).mailbox.index).map
          Item.report? := by
  obtain ⟨m', m, h, hf, hturn⟩ := turn_event setup s env e
  simp only [hturn, History.reports, heard_append, hf.told, hf.index]
  refine ⟨heard id m'.log, rfl, ?_⟩
  rcases h.admitted with ⟨es, ha, -⟩ | ⟨hev, uid, hc⟩
  · rw [ha.told, heard_nil, List.nil_append, if_pos hid, ha.index, Index.gained_foldl_insert hv]
    exact map_some_filterMap_report? fun item hi =>
      isSome_message?_of_mem_received (Index.mem_of_mem_news hi)
  · have hgained : Index.gained s.mailbox.index m'.index = [] := hc.gained_eq_nil hv
    rw [hc.told, hgained]
    rfl

theorem run_reports (hv : s.mailbox.index.Valid) {turns : List Turn} {id : Nat}
    (hid : Registered setup s id turns) :
    ∃ reports, (s.run setup turns).reports id = s.reports id ++ reports ∧
      reports.map some = (admitted setup s turns).map Item.report? := by
  induction turns generalizing s with
  | nil => exact ⟨[], by simp, rfl⟩
  | cons t turns ih =>
    obtain ⟨later, hl, hlm⟩ := ih (valid_turn hv t) hid.tail
    cases t with
    | overlay change => exact ⟨later, hl, hlm⟩
    | restart env =>
      have := hid.tail.head
      rw [show (s.turn setup (.restart env)).mailbox.listeners = {} from rfl,
        SortedMap.contains_empty] at this
      cases this
    | event env e =>
      obtain ⟨now, hn, hnm⟩ := turn_reports setup hv env e hid.head
      refine ⟨now ++ later, ?_, ?_⟩
      · rw [run_cons, hl, hn, List.append_assoc]
      · rw [admitted, List.map_append, List.map_append, hnm, hlm]

/-- Over any history in which all writes succeed, a listener is told of a payload at most once more
often than the payload has left the index, by a removal or because it had outlived its time at a
restart. While it is registered it is told of exactly the items that enter the index, once each and
in the order of their insertion. -/
theorem notified_at_most_once (env : Surroundings) (store : Store) (disk : Disk)
    (turns : List Turn) (henv : env.Writes) (hturns : ∀ t ∈ turns, t.Writes) :
    (∀ id hash, ((start setup env store disk).run setup turns).told id hash ≤
      1 + ((start setup env store disk).run setup turns).dropped.count hash +
        ((start setup env store disk).run setup turns).expired.count hash) ∧
    ∀ id before during, turns = before ++ during →
      Registered setup ((start setup env store disk).run setup before) id during →
      ∃ reports, ((start setup env store disk).run setup turns).reports id =
          ((start setup env store disk).run setup before).reports id ++ reports ∧
        reports.map some =
          (admitted setup ((start setup env store disk).run setup before) during).map
            Item.report? := by
  refine ⟨?_, ?_⟩
  · intro id hash
    have h := run_told_le setup (.start setup store disk henv) hturns id hash
    have h0 : (start setup env store disk).told id hash = 0 := by
      simp only [told, History.reports, start, Mailbox.heard_restore, List.countP_nil]
    have h1 : ((start setup env store disk).run setup turns).held hash ≤ 1 := Bool.toNat_le _
    rw [departures, departures] at h
    omega
  · intro id before during hsplit hid
    subst hsplit
    have hbefore := (Sound.start setup store disk henv).run setup fun t ht =>
      hturns t (List.mem_append_left _ ht)
    rw [run_append]
    exact run_reports setup hbefore.valid hid

end SealedMail.History

namespace SealedMail.History

attribute [local instance] Suite.transparent

open Transparent

/-- The first of two listeners panics. -/
def startled (now : UInt64) : Surroundings := { online now with panics := fun id _ => id = 3 }

def joining : List Turn :=
  [.event (startled 0) (.command (.addListener 3)), .event (startled 0) (.command (.addListener 7))]

/-- A letter is received, removed and received again. -/
def reAdded : List Turn :=
  let e := entry (ring 1) (ring 2) (letter "u")
  [.event (startled 0) (.command .bootstrap),
    .overlay fun s => s.serve (.add (e 1)),
    .event (startled 0) .notice,
    .event (startled 0) .notice,
    .event (startled 0) (.command (.remove ⟨.mailbox (letter "u"), (ring 1).signatureKey⟩)),
    .overlay fun s => s.serve (.add (e 3)),
    .event (startled 0) .notice]

/-- The letter is outlived at a restart and received once more. -/
def outlived : List Turn :=
  [.restart (startled 2000),
    .overlay fun s => s.serve (.add (entry (ring 1) (ring 2) (letter "u") 5)),
    .event (startled 2000) (.command (.addListener 7)),
    .event (startled 2000) (.command .bootstrap)]

/-- The bound is met, and the second listener is told of what enters the index, whatever the first
does. -/
theorem notified_again_after_departures :
    let s turns :=
      (start Transparent.setup (startled 0) (.ofCapacity 8 (.sufficient 1)) {}).run
        Transparent.setup turns
    let after := s (joining ++ reAdded ++ outlived)
    let hash := (entry (ring 1) (ring 2) (letter "u") 1).hash
    (startled 0).Writes ∧ (∀ t ∈ joining ++ reAdded ++ outlived, t.Writes) ∧
      (after.told 7 hash = 3 ∧ after.dropped.count hash = 1 ∧ after.expired.count hash = 1) ∧
      after.told 7 hash ≤ 1 + after.dropped.count hash + after.expired.count hash ∧
      Registered Transparent.setup (s joining) 7 reAdded ∧
      ∃ reports, (s (joining ++ reAdded)).reports 7 = (s joining).reports 7 ++ reports ∧
        reports.map some = (admitted Transparent.setup (s joining) reAdded).map Item.report? ∧
        reports.length = 2 := by
  intro s after hash
  have hturns : ∀ t ∈ joining ++ reAdded ++ outlived, t.Writes := by
    simp [joining, reAdded, outlived, Turn.Writes, Surroundings.Writes, startled, online]
  obtain ⟨htold, hlisteners, hadmitted⟩ :
      (after.told 7 hash = 3 ∧ after.dropped.count hash = 1 ∧ after.expired.count hash = 1) ∧
        (∀ done ∈ reAdded.inits,
          ((s joining).run Transparent.setup done).mailbox.listeners.contains 7 = true) ∧
        (admitted Transparent.setup (s joining) reAdded).length = 2 := by
    decide +kernel
  have hregistered : Registered Transparent.setup (s joining) 7 reAdded :=
    fun done hd => hlisteners done ((List.mem_inits done reAdded).2 hd)
  have hbound := (notified_at_most_once Transparent.setup (startled 0)
    (.ofCapacity 8 (.sufficient 1)) {} (joining ++ reAdded ++ outlived) ⟨rfl, rfl⟩ hturns).1 7 hash
  obtain ⟨reports, hreports, hmap⟩ := (notified_at_most_once Transparent.setup (startled 0)
    (.ofCapacity 8 (.sufficient 1)) {} (joining ++ reAdded) ⟨rfl, rfl⟩
    fun t ht => hturns t (List.mem_append_left _ ht)).2 7 joining reAdded rfl hregistered
  have hlength := congrArg List.length hmap
  rw [List.length_map, List.length_map, hadmitted] at hlength
  exact ⟨⟨rfl, rfl⟩, hturns, htold, hbound, hregistered, reports, hreports, hmap, hlength⟩

end SealedMail.History
