import SealedMail.Proofs.Crypto.Transparent
import SealedMail.Proofs.Mailbox.Presentation
import SealedMail.Proofs.Mailbox.Restart

/-!
# Uids that are ignored

An entry that is not for us has its uid recorded, with its own time. While a uid is recorded no
entry under it is handed over to be opened, wherever it comes from, for what is handed over is new
at that moment. A record is never changed, and only a restart that finds it too old drops it:
`ignored_uid_not_opened`.
-/

namespace SealedMail

/-! ## Records -/

namespace Ledger

variable {l : Ledger} {uid other : String} {created : Timestamp}

/-- The time under which a uid is recorded. -/
def time? (l : Ledger) (uid : String) : Option Timestamp := l.data.get? uid

theorem contains_iff_time? : l.contains uid = true ↔ ∃ created, l.time? uid = some created :=
  SortedMap.contains_iff

theorem time?_ignore : (l.ignore uid created).time? other =
    (l.time? other).or (if other = uid then some created else none) := by
  unfold ignore
  split
  · next hc =>
    obtain ⟨first, hfirst⟩ := contains_iff_time?.1 hc
    by_cases ho : other = uid
    · simp [ho, hfirst]
    · simp [ho]
  · next hc =>
    have hnone : l.time? uid = none := SortedMap.get?_eq_none_iff.2 (Bool.not_eq_true _ ▸ hc)
    rw [time?, SortedMap.get?_insert]
    by_cases ho : other = uid
    · simp [ho, hnone]
    · simp [ho, time?]

theorem time?_prune (l : Ledger) (now : Timestamp) (ttl : UInt64) (uid : String) :
    (l.prune now ttl).time? uid = (l.time? uid).filter fun created => !created.isExpired now ttl :=
  SortedMap.get?_filter l.data _ uid

variable [Suite]

/-- A uid keeps its first time: that of its record, or that of the first of the entries that is not
for us. -/
theorem time?_foldl_note (ring : KeyRing) (l : Ledger) (es : List Entry) (uid : String) :
    (es.foldl (note ring) l).time? uid =
      (l.time? uid).or ((es.find? fun e => e.uid = uid && e.isForeign ring).map Entry.created) := by
  induction es generalizing l with
  | nil => simp
  | cons e es ih =>
    rw [List.foldl_cons, ih, List.find?_cons]
    cases ho : e.opening ring with
    | notForUs other created =>
      obtain ⟨rfl, rfl⟩ := opening_of_notForUs ho
      have hn : l.note ring e = l.ignore e.uid e.created := by simp [note, ho, Opening.ignored?]
      have hf : e.isForeign ring = true := by simp [Entry.isForeign, ho, Opening.ignored?]
      rw [hn, time?_ignore, Option.or_assoc, hf, Bool.and_true]
      by_cases hu : e.uid = uid
      · simp [hu]
      · simp [hu, Ne.symm hu]
    | received item =>
      have hn : l.note ring e = l := by simp [note, ho, Opening.ignored?]
      have hf : e.isForeign ring = false := by simp [Entry.isForeign, ho, Opening.ignored?]
      rw [hn, hf, Bool.and_false]
    | malformed other reason =>
      have hn : l.note ring e = l := by simp [note, ho, Opening.ignored?]
      have hf : e.isForeign ring = false := by simp [Entry.isForeign, ho, Opening.ignored?]
      rw [hn, hf, Bool.and_false]

end Ledger

theorem Disk.ledger_after_writes (d : Disk) (env : Surroundings) (m : Mailbox) :
    (d.after (m.writes env)).ledger = if m.ledgerChanged && env.canWriteLedger then m.ledger
      else d.ledger := by
  unfold Mailbox.writes
  cases m.itemsChanged && env.canWriteItems <;> cases m.ledgerChanged && env.canWriteLedger <;> rfl

/-- An event of the turn can write the ledger. -/
def Turn.WritesLedger : Turn → Prop
  | .event env _ => env.canWriteLedger = true
  | _ => True

/-- The turn leaves a record of that time alone: no restart finds it too old. -/
def Turn.Spares (ttl : UInt64) (created : Timestamp) : Turn → Prop
  | .restart env => env.now.millis.toNat - created.millis.toNat ≤ ttl.toNat
  | _ => True

instance (ttl : UInt64) (created : Timestamp) : (t : Turn) → Decidable (t.Spares ttl created)
  | .restart _ => inferInstanceAs (Decidable (_ ≤ _))
  | .event _ _ => inferInstanceAs (Decidable True)
  | .overlay _ => inferInstanceAs (Decidable True)

namespace History

variable [Suite] {setup : Setup} {s : History} {t : Turn} {turns : List Turn} {uid : String}
  {created : Timestamp} {e : Entry}

/-- A record that a mailbox goes on with after a restart: it is on disk as well. -/
structure Recorded (s : History) (uid : String) (created : Timestamp) : Prop where
  known : s.mailbox.ledger.time? uid = some created
  written : s.disk.ledger.time? uid = some created

/-! ## One turn -/

/-- An event records the uids of the entries that it opens and that are not for us. -/
theorem time?_event (setup : Setup) (s : History) (env : Surroundings) (ev : Event) (uid : String) :
    (s.turn setup (.event env ev)).mailbox.ledger.time? uid =
      (s.mailbox.ledger.time? uid).or
        (((s.opened (.event env ev)).find? fun e => e.uid = uid && e.isForeign setup.ring).map
          Entry.created) := by
  cases hs : s.mailbox.stopped with
  | true =>
    rw [(turn_of_stopped setup hs env ev).1, opened, if_pos hs]
    simp
  | false =>
    obtain ⟨m', -, hproceeds, hflushed, -⟩ := turn_proceeds setup env ev hs
    rw [hflushed.ledger, hproceeds.ledger, Ledger.time?_foldl_note, opened, if_neg (by simp [hs])]
    rfl

theorem ledger_disk_event (setup : Setup) (s : History) (env : Surroundings) (ev : Event) :
    ∃ changed, (s.turn setup (.event env ev)).disk.ledger =
        (if changed && env.canWriteLedger then (s.turn setup (.event env ev)).mailbox.ledger
          else s.disk.ledger) ∧
      (changed = false → (s.turn setup (.event env ev)).mailbox.ledger = s.mailbox.ledger) := by
  cases hs : s.mailbox.stopped with
  | true =>
    obtain ⟨hmailbox, hdisk⟩ := turn_of_stopped setup hs env ev
    exact ⟨false, by simp [hdisk], fun _ => by rw [hmailbox]⟩
  | false =>
    obtain ⟨m', hhandled, -, hflushed, hdisk⟩ := turn_proceeds setup env ev hs
    have hwritten : written m'.log = [] := hhandled.written
    rw [hdisk]
    generalize (s.turn setup (.event env ev)).mailbox = m at hflushed
    cases hflushed with
    | stopped _ _ hledger =>
      exact ⟨false, by rw [Disk.after_eq_of_written hwritten]; rfl, fun _ => hledger⟩
    | flushed =>
      refine ⟨m'.ledgerChanged, ?_,
        fun hchanged => hhandled.ledger_or_changed.resolve_left (by simp [hchanged])⟩
      rw [Mailbox.log_flush, Disk.after_append, Disk.after_eq_of_written hwritten,
        Disk.ledger_after_writes]
      rfl

/-- A restart leaves out of the ledger on disk what is too old, and may write it. -/
theorem ledger_restart (setup : Setup) (s : History) (env : Surroundings) :
    (s.turn setup (.restart env)).mailbox.ledger = s.disk.ledger.prune env.now setup.ttl ∧
      ((s.turn setup (.restart env)).disk.ledger = s.disk.ledger ∨
        (s.turn setup (.restart env)).disk.ledger =
          (s.turn setup (.restart env)).mailbox.ledger) := by
  refine ⟨rfl, ?_⟩
  let m₀ : Mailbox :=
    { store := s.mailbox.store
      index := Index.ofList s.disk.items env.now setup.ttl
      ledger := s.disk.ledger.prune env.now setup.ttl
      itemsChanged := 0 < Index.countExpired s.disk.items env.now setup.ttl
      ledgerChanged := (s.disk.ledger.prune env.now setup.ttl).size < s.disk.ledger.size }
  have hdisk : (s.turn setup (.restart env)).disk = s.disk.after (m₀.writes env) := rfl
  rw [hdisk, Disk.ledger_after_writes]
  split
  · exact .inr rfl
  · exact .inl rfl

theorem time?_restart (setup : Setup) (h : s.disk.ledger.time? uid = some created)
    (env : Surroundings) : (s.turn setup (.restart env)).mailbox.ledger.time? uid =
      if (Turn.restart env).Spares setup.ttl created then some created else none := by
  rw [(ledger_restart setup s env).1, Ledger.time?_prune, h, Option.filter_some,
    Timestamp.not_isExpired]
  simp [Turn.Spares]

/-- What a turn makes of a record, which has to be on disk if the turn is a restart. -/
theorem time?_turn (setup : Setup) (hknown : s.mailbox.ledger.time? uid = some created)
    (hwritten : (∃ env, t = .restart env) → s.disk.ledger.time? uid = some created) :
    (s.turn setup t).mailbox.ledger.time? uid = if t.Spares setup.ttl created then some created
      else none := by
  cases t with
  | overlay change =>
    have hspares : (Turn.overlay change).Spares setup.ttl created := trivial
    rw [if_pos hspares]
    exact hknown
  | event env ev =>
    have hspares : (Turn.event env ev).Spares setup.ttl created := trivial
    rw [if_pos hspares, time?_event, hknown, Option.some_or]
  | restart env => exact time?_restart setup (hwritten ⟨env, rfl⟩) env

theorem Recorded.turn (h : s.Recorded uid created) (ht : t.Spares setup.ttl created) :
    (s.turn setup t).Recorded uid created := by
  have hknown := time?_turn setup h.known (t := t) fun _ => h.written
  rw [if_pos ht] at hknown
  refine ⟨hknown, ?_⟩
  cases t with
  | overlay change => exact h.written
  | restart env =>
    rcases (ledger_restart setup s env).2 with hdisk | hdisk
    · rw [hdisk, h.written]
    · rw [hdisk, hknown]
  | event env ev =>
    obtain ⟨changed, hdisk, -⟩ := ledger_disk_event setup s env ev
    rw [hdisk]
    split
    · exact hknown
    · exact h.written

/-- Every record is on disk. -/
def Backed (s : History) : Prop :=
  ∀ uid created, s.mailbox.ledger.time? uid = some created → s.disk.ledger.time? uid = some created

theorem backed_restart (setup : Setup) (s : History) (env : Surroundings) :
    (s.turn setup (.restart env)).Backed := by
  intro uid created hknown
  obtain ⟨hledger, hdisk | hdisk⟩ := ledger_restart setup s env
  · rw [hledger, Ledger.time?_prune, Option.filter_eq_some_iff] at hknown
    rw [hdisk, hknown.1]
  · rw [hdisk, hknown]

theorem Backed.turn (h : s.Backed) (ht : t.WritesLedger) : (s.turn setup t).Backed := by
  cases t with
  | overlay change => exact h
  | restart env => exact backed_restart setup s env
  | event env ev =>
    intro uid created hknown
    obtain ⟨changed, hdisk, hsame⟩ := ledger_disk_event setup s env ev
    rw [hdisk]
    cases changed with
    | true =>
      have hcan : env.canWriteLedger = true := ht
      rw [hcan]
      exact hknown
    | false =>
      rw [hsame rfl] at hknown
      exact h uid created hknown

theorem Backed.run (h : s.Backed) (hts : ∀ t ∈ turns, t.WritesLedger) :
    (s.run setup turns).Backed := by
  induction turns generalizing s with
  | nil => exact h
  | cons t turns ih =>
    obtain ⟨ht, hts⟩ := List.forall_mem_cons.1 hts
    exact ih (h.turn ht) hts

theorem uid_ne_of_handedOver (h : s.mailbox.ledger.time? uid = some created)
    (he : e ∈ s.handedOver setup t) : e.uid ≠ uid := by
  rintro rfl
  have hnew := isNew_of_mem_handedOver he
  rw [Mailbox.isNew, Ledger.contains_iff_time?.2 ⟨created, h⟩] at hnew
  exact absurd hnew (by simp)

/-! ## Whole runs -/

theorem Recorded.run (h : s.Recorded uid created) (hts : ∀ t ∈ turns, t.Spares setup.ttl created) :
    (s.run setup turns).Recorded uid created := by
  induction turns generalizing s with
  | nil => exact h
  | cons t turns ih =>
    obtain ⟨ht, hts⟩ := List.forall_mem_cons.1 hts
    exact ih (h.turn ht) hts

theorem time?_run (h : s.mailbox.ledger.time? uid = some created) (hts : ∀ t ∈ turns, t.Runs) :
    (s.run setup turns).mailbox.ledger.time? uid = some created := by
  induction turns generalizing s with
  | nil => exact h
  | cons t turns ih =>
    obtain ⟨ht, hts⟩ := List.forall_mem_cons.1 hts
    have hspares : t.Spares setup.ttl created := by
      cases t with
      | restart env => exact ht.elim
      | _ => trivial
    have hknown :=
      time?_turn setup h (t := t) fun ⟨env, henv⟩ => absurd ht (by simp [henv, Turn.Runs])
    rw [if_pos hspares] at hknown
    exact ih hknown hts

/-- A record outlasts turns that spare it. It has to be on disk only if there are restarts ahead. -/
theorem recorded_run {rest : List Turn} (hknown : s.mailbox.ledger.time? uid = some created)
    (hwritten : (∃ env, .restart env ∈ turns ++ rest) → s.disk.ledger.time? uid = some created)
    (hts : ∀ t ∈ turns, t.Spares setup.ttl created) :
    (s.run setup turns).mailbox.ledger.time? uid = some created ∧
      ((∃ env, .restart env ∈ rest) →
        (s.run setup turns).disk.ledger.time? uid = some created) := by
  by_cases hrestart : ∃ env, .restart env ∈ turns ++ rest
  · have h : s.Recorded uid created := ⟨hknown, hwritten hrestart⟩
    exact ⟨(h.run hts).known, fun _ => (h.run hts).written⟩
  · refine ⟨time?_run hknown fun t ht => ?_,
      fun ⟨env, henv⟩ => absurd ⟨env, List.mem_append_right _ henv⟩ hrestart⟩
    cases t with
    | restart env => exact absurd ⟨env, List.mem_append_left _ ht⟩ hrestart
    | _ => trivial

/-- Once the openings of a turn have shown that an entry is not for us, its uid is recorded with the
time of its first record, and stays so until a restart finds that time too old. As long as none has,
no turn hands over an entry under the uid. What restarts go on with has to be written: that is so if
all writes of the ledger up to then succeed. -/
theorem ignored_uid_not_opened (setup : Setup) (env : Surroundings) (store : Store) (disk : Disk)
    (earlier : List Turn) (t : Turn) (later : List Turn) (uid : String) (first : Entry)
    (hfirst : (((start setup env store disk).run setup earlier).opened t).find?
      (fun e => e.uid = uid && e.isForeign setup.ring) = some first)
    (hwrites : (∃ env, .restart env ∈ later) → ∀ t' ∈ earlier ++ [t], t'.WritesLedger) :
    let s := (start setup env store disk).run setup earlier
    let created := (s.mailbox.ledger.time? uid).getD first.created
    (s.turn setup t).mailbox.ledger.time? uid = some created ∧
      ∀ before t' after, later = before ++ t' :: after →
        (∀ t'' ∈ before, t''.Spares setup.ttl created) →
        let s' := (s.turn setup t).run setup before
        (∀ e ∈ s'.handedOver setup t', e.uid ≠ uid) ∧
        (s'.turn setup t').mailbox.ledger.time? uid =
          if t'.Spares setup.ttl created then some created else none := by
  intro s created
  have hknown : (s.turn setup t).mailbox.ledger.time? uid = some created := by
    cases t with
    | overlay change => cases hfirst
    | restart env => cases hfirst
    | event env ev =>
      rw [time?_event, hfirst]
      cases hold : s.mailbox.ledger.time? uid with
      | none => simp [created, hold]
      | some old => simp [created, hold]
  have hwritten :
      (∃ env, .restart env ∈ later) → (s.turn setup t).disk.ledger.time? uid = some created := by
    intro hrestart
    have hbacked : ((start setup env store disk).run setup (earlier ++ [t])).Backed := by
      rw [start_eq_restart]
      exact (backed_restart setup _ env).run (hwrites hrestart)
    rw [run_append] at hbacked
    exact hbacked uid created hknown
  refine ⟨hknown, ?_⟩
  rintro before t' after rfl hspared s'
  obtain ⟨hknown', hwritten'⟩ := recorded_run hknown hwritten hspared
  refine ⟨fun e he => uid_ne_of_handedOver hknown' he, ?_⟩
  exact time?_turn setup hknown' fun ⟨env, henv⟩ => hwritten' ⟨env, henv ▸ List.mem_cons_self⟩

end History

end SealedMail

namespace SealedMail.History

attribute [local instance] Suite.transparent

open Transparent

/-- A letter to someone else, and another under the same uid. -/
def strangers : Entry := entry (ring 1) (ring 3) (letter "f") 1

def strangersToo : Entry := entry (ring 4) (ring 3) (letter "f") 1

/-- The stranger's letter is being opened in a batch with another, and both wait in a second batch
with two more. -/
def doubled : List Turn :=
  [.overlay fun s => s.serve (.add strangers),
    .overlay fun s => s.serve (.add (entry (ring 1) (ring 2) (letter "v") 1)),
    .event (online 0) (.command .bootstrap),
    .overlay fun s => s.serve (.add strangersToo),
    .overlay fun s => s.serve (.add (entry (ring 1) (ring 2) (letter "u") 1)),
    .event (online 0) .notice]

/-- The second batch is done, and the mailbox is restarted twice, once in time and once too late. -/
def resumed : List Turn :=
  [.event (online 0) (.batch 0), .restart (online 1000), .event (online 1000) (.command .bootstrap),
    .restart (online 1001)]

/-- Once the first batch is done, nothing of the second is handed over but the new letter to us, and
nothing of what a mailbox finds stored after the restart. The restart that comes too late drops the
record. -/
theorem ignored_uid_not_opened_after_restart :
    let s := (start Transparent.setup (online 0) (.ofCapacity 1 (.sufficient 1)) ⟨[], ⟨.empty⟩⟩).run
      Transparent.setup doubled
    let done := s.turn Transparent.setup (.event (online 0) (.batch 0))
    let again := done.run Transparent.setup [.event (online 0) (.batch 0), .restart (online 1000)]
    ((s.opened (.event (online 0) (.batch 0))).find? fun e => e.uid = "f" && e.isForeign (ring 2)) =
        some strangers ∧
      (∀ t ∈ doubled ++ [.event (online 0) (.batch 0)], t.WritesLedger) ∧
      s.mailbox.queued.map (List.map Entry.uid) = [["u", "f", "f", "v"]] ∧
      (handed done.mailbox.log).map Entry.uid = ["u"] ∧
      done.mailbox.ledger.time? "f" = some ⟨0⟩ ∧
      again.mailbox.store.snapshot = [.mailbox strangers, .mailbox strangersToo] ∧
      (∀ e ∈ again.handedOver Transparent.setup (.event (online 1000) (.command .bootstrap)),
        e.uid ≠ "f") ∧
      (again.turn Transparent.setup
        (.event (online 1000) (.command .bootstrap))).mailbox.ledger.time? "f" = some ⟨0⟩ ∧
      (done.run Transparent.setup resumed).mailbox.ledger.time? "f" = none := by
  intro s done again
  obtain ⟨hfirst, hcreated, hqueued, hhanded, hstored⟩ :
      ((s.opened (.event (online 0) (.batch 0))).find? fun e =>
        e.uid = "f" && e.isForeign (ring 2)) = some strangers ∧
      (s.mailbox.ledger.time? "f").getD strangers.created = ⟨0⟩ ∧
      s.mailbox.queued.map (List.map Entry.uid) = [["u", "f", "f", "v"]] ∧
      (handed done.mailbox.log).map Entry.uid = ["u"] ∧
      again.mailbox.store.snapshot = [.mailbox strangers, .mailbox strangersToo] := by
    decide +kernel
  have hwrites : ∀ t ∈ doubled ++ [.event (online 0) (.batch 0)], t.WritesLedger := by
    simp [doubled, Turn.WritesLedger, online]
  obtain ⟨hknown, hlater⟩ := ignored_uid_not_opened Transparent.setup (online 0)
    (.ofCapacity 1 (.sufficient 1)) ⟨[], ⟨.empty⟩⟩ doubled (.event (online 0) (.batch 0)) resumed
    "f" strangers hfirst fun _ => hwrites
  rw [hcreated] at hknown hlater
  obtain ⟨hagain, hkept⟩ := hlater [.event (online 0) (.batch 0), .restart (online 1000)]
    (.event (online 1000) (.command .bootstrap)) [.restart (online 1001)] rfl (by decide +kernel)
  obtain ⟨-, hdropped⟩ := hlater [.event (online 0) (.batch 0), .restart (online 1000),
    .event (online 1000) (.command .bootstrap)] (.restart (online 1001)) [] rfl (by decide +kernel)
  exact ⟨hfirst, hwrites, hqueued, hhanded, hknown, hstored, hagain, hkept, hdropped⟩

end SealedMail.History
