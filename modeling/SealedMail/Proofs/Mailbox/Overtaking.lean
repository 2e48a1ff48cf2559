import SealedMail.Proofs.Crypto.Transparent
import SealedMail.Proofs.Mailbox.Notification
import SealedMail.Proofs.Mailbox.Order
import SealedMail.Proofs.Mailbox.Restart

/-!
# Overtaking

Of two letters under one uid the one that the overlay shows first is listed first, told first and
shown to whoever asks for the letters, unless a lone entry overtakes a batch: then all is the other
way round (`presented_order_kept`). The list and the reports to listeners agree in any case
(`among_run`).
-/

namespace SealedMail

/-- The mailbox reads what the overlay shows. -/
def Turn.Reads : Turn → Prop
  | .event env _ => env.Reads
  | _ => True

namespace Mailbox

variable [Suite] {env : Surroundings} {m m' m'' : Mailbox} {first second p : Payload} {uid : String}

/-! ## What writing leaves as it is -/

section Flushed

omit [Suite]

theorem Flushed.running (h : Flushed env m m' m'') : m''.running = m'.running := by cases h <;> rfl

theorem Flushed.line (h : Flushed env m m' m'') : m''.line = m'.line := by cases h <;> rfl

end Flushed

theorem Flushed.arrivals (h : Flushed env m m' m'') : m''.arrivals = m'.arrivals := by
  rw [Mailbox.arrivals, Mailbox.arrivals, h.index, h.line]

theorem Flushed.tracks (h : Flushed env m m' m'') (ht : m'.Tracks uid first second) :
    m''.Tracks uid first second := by
  refine ⟨?_, ?_, ?_, ?_, ?_⟩
  · rw [h.index]; exact ht.valid
  · rw [h.running]; exact ht.single
  · rw [h.line]; exact ht.firstGenuine
  · rw [h.line]; exact ht.secondGenuine
  · rw [h.index]; exact ht.filed

theorem Flushed.shuns (h : Flushed env m m' m'') (hm : m'.Shuns p) : m''.Shuns p := by
  refine ⟨?_, ?_, ?_⟩
  · rw [h.index]; exact hm.index
  · rw [h.ledger]; exact hm.ledger
  · rw [h.running]; exact hm.running

theorem Flushed.misses (h : Flushed env m m' m'') (hm : m'.Misses p) : m''.Misses p := by
  rcases hm with ⟨hindex, hstopped⟩ | hm
  · cases h with
    | stopped => exact .inl ⟨hindex, hstopped⟩
    | flushed hruns => rw [hruns] at hstopped; cases hstopped
  · exact .inr (h.shuns hm)

end Mailbox

namespace History

variable [Suite] {setup : Setup} {s : History} {t : Turn} {turns early late : List Turn}
  {first second p : Payload} {uid : String} {hash : PayloadHash}

/-! ## Turns -/

/-- The mailbox entries that the overlay shows a mailbox in a turn. -/
def presented (s : History) : Turn → List Entry
  | .event env ev => if s.mailbox.stopped then [] else s.mailbox.presented env ev
  | _ => []

omit [Suite] in
/-- The entries in a batch over which opening breaks off in a turn. -/
def lost (s : History) : Turn → List Entry
  | .event env ev => if s.mailbox.stopped then [] else s.mailbox.lost env ev
  | _ => []

/-- The lone entry with one payload that is opened in a turn while another payload, which is not
received yet, waits. -/
def overtaking (waiting passing : PayloadHash) (s : History) : Turn → List Entry
  | .event env ev => if s.mailbox.stopped then [] else s.mailbox.overtaking waiting passing env ev
  | _ => []

theorem traced_append {α : Type} (setup : Setup) (what : History → Turn → List α) (s : History)
    (turns more : List Turn) :
    traced setup what s (turns ++ more) = traced setup what s turns ++
      traced setup what (s.run setup turns) more := by
  induction turns generalizing s with
  | nil => rfl
  | cons t turns ih => rw [List.cons_append, traced, traced, ih, List.append_assoc, run_cons]

/-- What the order of two payloads rests on: a mailbox runs on and reads what the overlay shows, no
other payload that is shown has the hash of one of the two, neither of them is dropped, and no batch
that holds the first one breaks off. -/
structure Undisturbed (setup : Setup) (first second : Payload) (s : History) (turns : List Turn) :
    Prop where
  runs : ∀ t ∈ turns, t.Runs
  reads : ∀ t ∈ turns, t.Reads
  firstGenuine : first.Genuine (traced setup presented s turns)
  secondGenuine : second.Genuine (traced setup presented s turns)
  kept : ∀ hash, hash = first.hash ∨ hash = second.hash →
    (s.run setup turns).dropped.count hash = s.dropped.count hash
  opened : first.hash ∉ (traced setup lost s turns).map Entry.hash

theorem Undisturbed.split (h : Undisturbed setup first second s (early ++ late)) :
    Undisturbed setup first second s early ∧
    Undisturbed setup first second (s.run setup early) late := by
  obtain ⟨hruns, hreads, hfirst, hsecond, hkept, hopened⟩ := h
  rw [traced_append] at hfirst hsecond hopened
  rw [List.map_append, List.mem_append, not_or] at hopened
  have hcount (hash : PayloadHash) (hpair : hash = first.hash ∨ hash = second.hash) :
      (s.run setup early).dropped.count hash = s.dropped.count hash ∧
        ((s.run setup early).run setup late).dropped.count hash =
            (s.run setup early).dropped.count hash := by
    have hall := hkept hash hpair
    have hearly := count_dropped_le_run setup s early hash
    have hlate := count_dropped_le_run setup (s.run setup early) late hash
    rw [run_append] at hall
    omega
  refine ⟨⟨?_, ?_, ?_, ?_, fun hash hpair => (hcount hash hpair).1, hopened.1⟩,
    ⟨?_, ?_, ?_, ?_, fun hash hpair => (hcount hash hpair).2, hopened.2⟩⟩
  · exact fun t ht => hruns t (List.mem_append_left _ ht)
  · exact fun t ht => hreads t (List.mem_append_left _ ht)
  · exact fun e he => hfirst e (List.mem_append_left _ he)
  · exact fun e he => hsecond e (List.mem_append_left _ he)
  · exact fun t ht => hruns t (List.mem_append_right _ ht)
  · exact fun t ht => hreads t (List.mem_append_right _ ht)
  · exact fun e he => hfirst e (List.mem_append_right _ he)
  · exact fun e he => hsecond e (List.mem_append_right _ he)

theorem Undisturbed.cons (h : Undisturbed setup first second s (t :: turns)) :
    Undisturbed setup first second s [t] ∧ Undisturbed setup first second (s.turn setup t) turns :=
  have hsplit : Undisturbed setup first second s ([t] ++ turns) := h
  hsplit.split

/-- In a turn a mailbox handles an event, or it is shown nothing and stays as it is, but for its
store and its log. -/
inductive Goes (setup : Setup) (s : History) : Turn → Mailbox → Prop where
  | idle {t : Turn} (store : Store) (presented : s.presented t = [])
      (overtaking : ∀ waiting passing, s.overtaking waiting passing t = []) :
      Goes setup s t { s.mailbox with store, log := [] }
  | event {env : Surroundings} {ev : Event} {m' m : Mailbox} (runs : s.mailbox.stopped = false)
      (handled : Mailbox.Handled setup env { s.mailbox with log := [] } ev m')
      (proceeds : Mailbox.Proceeds setup env { s.mailbox with log := [] } ev m')
      (flushed : Mailbox.Flushed env { s.mailbox with log := [] } m' m) :
        Goes setup s (.event env ev) m

theorem goes_turn (setup : Setup) (s : History) (ht : t.Runs) :
    Goes setup s t (s.turn setup t).mailbox := by
  cases t with
  | overlay change => exact .idle (change s.mailbox.store) rfl fun _ _ => rfl
  | restart env => exact ht.elim
  | event env ev =>
    cases hs : s.mailbox.stopped with
    | true =>
      rw [(turn_of_stopped setup hs env ev).1]
      exact .idle s.mailbox.store (by simp [presented, hs]) fun _ _ => by simp [overtaking, hs]
    | false =>
      obtain ⟨m', hhandled, hproceeds, hflushed, -⟩ := turn_proceeds setup env ev hs
      exact .event hs hhandled hproceeds hflushed

/-! ## One turn -/

section Turn

variable (hbatches : setup.maxBatches ≤ 1) (hfirst : first.Delivers setup.ring uid)
  (hsecond : second.Delivers setup.ring uid) (h : Undisturbed setup first second s [t])
  (ht : s.mailbox.Tracks uid first second)

include h

theorem Undisturbed.genuine : first.Genuine (s.presented t) ∧ second.Genuine (s.presented t) := by
  have hpresented : traced setup History.presented s [t] = s.presented t := List.append_nil _
  exact ⟨hpresented ▸ h.firstGenuine, hpresented ▸ h.secondGenuine⟩

include ht in
theorem contains_turn_of_undisturbed (hpair : hash = first.hash ∨ hash = second.hash)
    (hc : s.mailbox.index.contains hash = true) :
    (s.turn setup t).mailbox.index.contains hash = true :=
  contains_turn ht.valid hc (h.runs t List.mem_cons_self) (h.kept hash hpair)

include hbatches hfirst hsecond ht in
theorem tracks_turn : (s.turn setup t).mailbox.Tracks uid first second := by
  obtain ⟨hgenuine, hgenuine'⟩ := h.genuine
  have hgoes := goes_turn setup s (h.runs t List.mem_cons_self)
  generalize (s.turn setup t).mailbox = m at hgoes
  cases hgoes with
  | idle store => exact ht.relog store []
  | event hs hhandled hproceeds hflushed =>
    simp only [presented, hs] at hgenuine hgenuine'
    have ht' : { s.mailbox with log := [] }.Tracks uid first second := ht.relog s.mailbox.store []
    exact hflushed.tracks
      (hproceeds.tracks hbatches (hhandled.valid ht.valid) ht' hfirst hsecond hgenuine hgenuine')

omit h in
theorem mem_arrivals_turn (hruns : t.Runs) (hv : s.mailbox.index.Valid)
    (hmem : hash ∈ (s.turn setup t).mailbox.arrivals) :
    hash ∈ s.mailbox.arrivals ++ (s.presented t).map Entry.hash := by
  have hgoes := goes_turn setup s hruns
  generalize (s.turn setup t).mailbox = m at hgoes hmem
  cases hgoes with
  | idle => exact List.mem_append_left _ hmem
  | event hs _ hproceeds hflushed =>
    rw [hflushed.arrivals] at hmem
    simp only [presented, hs]
    exact List.mem_append.2 (hproceeds.mem_arrivals hv hmem)

include ht in
theorem misses_turn (hm : s.mailbox.Misses first) : (s.turn setup t).mailbox.Misses first := by
  obtain ⟨hgenuine, -⟩ := h.genuine
  have hgoes := goes_turn setup s (h.runs t List.mem_cons_self)
  generalize (s.turn setup t).mailbox = m at hgoes
  cases hgoes with
  | idle => exact hm.imp id fun hm => ⟨hm.index, hm.ledger, hm.running⟩
  | event hs _ hproceeds hflushed =>
    simp only [presented, hs] at hgenuine
    have hshuns : s.mailbox.Shuns first :=
      hm.resolve_left fun hm => absurd (hm.2.symm.trans hs) (by simp)
    have hshuns' : { s.mailbox with log := [] }.Shuns first :=
      ⟨hshuns.index, hshuns.ledger, hshuns.running⟩
    exact .inr (hflushed.shuns (hproceeds.shuns ht.valid hshuns' ht.firstGenuine hgenuine))

include hfirst ht in
theorem leads_turn (hover : s.overtaking first.hash second.hash t = [])
    (hleads : Leads first.hash second.hash (s.mailbox.arrivals ++ (s.presented t).map Entry.hash)) :
    (s.turn setup t).mailbox.Misses first ∨
      Leads first.hash second.hash (s.turn setup t).mailbox.arrivals := by
  obtain ⟨hgenuine, -⟩ := h.genuine
  have hkept (hash : PayloadHash) (hpair : hash = first.hash ∨ hash = second.hash)
      (hc : s.mailbox.index.contains hash = true) := contains_turn_of_undisturbed h ht hpair hc
  have hlost : first.hash ∉ (s.lost t).map Entry.hash := by
    have hopened := h.opened
    rwa [traced, traced, List.append_nil] at hopened
  have hreads := h.reads t List.mem_cons_self
  have hgoes := goes_turn setup s (h.runs t List.mem_cons_self)
  generalize (s.turn setup t).mailbox = m at hgoes hkept
  cases hgoes with
  | idle store hpresented =>
    rw [hpresented, List.map_nil, List.append_nil] at hleads
    exact .inr hleads
  | event hs _ hproceeds hflushed =>
    simp only [presented, lost, overtaking, hs] at hgenuine hlost hover hleads
    rw [hflushed.arrivals]
    rw [hflushed.index] at hkept
    have ht' : { s.mailbox with log := [] }.Tracks uid first second := ht.relog s.mailbox.store []
    exact (hproceeds.leads ht' hfirst hreads hgenuine hlost hover hkept hleads).imp_left
      hflushed.misses

include hsecond ht in
theorem leads_turn_of_overtaking (hover : s.overtaking first.hash second.hash t ≠ []) :
    Leads second.hash first.hash ((s.turn setup t).mailbox.index.items.map Item.hash) := by
  obtain ⟨-, hgenuine⟩ := h.genuine
  have hgoes := goes_turn setup s (h.runs t List.mem_cons_self)
  generalize (s.turn setup t).mailbox = m at hgoes
  cases hgoes with
  | idle store hpresented hnone => exact absurd (hnone _ _) hover
  | event hs _ hproceeds hflushed =>
    simp only [presented, overtaking, hs] at hgenuine hover
    have ht' : { s.mailbox with log := [] }.Tracks uid first second := ht.relog s.mailbox.store []
    rw [hflushed.index]
    exact hproceeds.leads_of_overtaking ht' hsecond hgenuine hover

include ht in
/-- The two payloads are listed in the order in which turns bring them. -/
theorem among_turn :
    among first.hash second.hash ((s.turn setup t).mailbox.index.items.map Item.hash) =
    among first.hash second.hash (s.mailbox.index.items.map Item.hash) ++
      among first.hash second.hash ((admitted setup s [t]).map Item.hash) := by
  have hkept (hash : PayloadHash) (hpair : hash = first.hash ∨ hash = second.hash)
      (hc : s.mailbox.index.contains hash = true) := contains_turn_of_undisturbed h ht hpair hc
  cases t with
  | overlay change => exact (List.append_nil _).symm
  | restart env => exact (h.runs _ List.mem_cons_self).elim
  | event env ev =>
    obtain ⟨m', m, hhandled, hflushed, hturn⟩ := turn_event setup s env ev
    have hindex : (s.turn setup (.event env ev)).mailbox.index = m'.index := by
      rw [hturn]; exact hflushed.index
    have hadmitted : admitted setup s [.event env ev] = Index.gained s.mailbox.index m'.index := by
      rw [← hindex]
      exact List.append_nil _
    rw [hindex] at hkept ⊢
    rw [hadmitted]
    exact hhandled.among_eq ht.valid ht.filed hkept

end Turn

/-! ## Runs -/

section Run

variable (hbatches : setup.maxBatches ≤ 1) (hfirst : first.Delivers setup.ring uid)
  (hsecond : second.Delivers setup.ring uid) (h : Undisturbed setup first second s turns)
  (ht : s.mailbox.Tracks uid first second)

include hbatches hfirst hsecond h ht

theorem tracks_run : (s.run setup turns).mailbox.Tracks uid first second := by
  induction turns generalizing s with
  | nil => exact ht
  | cons t turns ih => exact ih h.cons.2 (tracks_turn hbatches hfirst hsecond h.cons.1 ht)

theorem misses_run (hm : s.mailbox.Misses first) : (s.run setup turns).mailbox.Misses first := by
  induction turns generalizing s with
  | nil => exact hm
  | cons t turns ih =>
    exact ih h.cons.2 (tracks_turn hbatches hfirst hsecond h.cons.1 ht) (misses_turn h.cons.1 ht hm)

/-- The payload that comes first, in the line or else among what is shown, is the first one in the
line, unless it will not be received. -/
theorem leads_run (hover : traced setup (overtaking first.hash second.hash) s turns = [])
    (hleads : Leads first.hash second.hash
      (s.mailbox.arrivals ++ (traced setup presented s turns).map Entry.hash)) :
    (s.run setup turns).mailbox.Misses first ∨
      Leads first.hash second.hash (s.run setup turns).mailbox.arrivals := by
  induction turns generalizing s with
  | nil => exact .inr (List.append_nil s.mailbox.arrivals ▸ hleads)
  | cons t turns ih =>
    obtain ⟨hturn, hrest⟩ := h.cons
    have ht' := tracks_turn hbatches hfirst hsecond hturn ht
    rw [traced, List.append_eq_nil_iff] at hover
    rw [traced, List.map_append, ← List.append_assoc, leads_append, List.mem_append,
      List.mem_append] at hleads
    rcases hleads with hleads | ⟨habsent, hleads⟩
    · rcases leads_turn hfirst hturn ht hover.1 hleads with hmisses | hleads
      · rw [run_cons]
        exact .inl (misses_run hbatches hfirst hsecond hrest ht' hmisses)
      · exact ih hrest ht' hover.2 (hleads.append _)
    · refine ih hrest ht' hover.2 (leads_append.2 (.inr ⟨?_, hleads⟩))
      have hruns := hturn.runs t List.mem_cons_self
      rw [← List.mem_append, ← List.mem_append] at habsent
      exact ⟨fun hmem => habsent.1 (mem_arrivals_turn hruns ht.valid hmem),
        fun hmem => habsent.2 (mem_arrivals_turn hruns ht.valid hmem)⟩

/-- Two payloads are listed in the order in which they enter the index, whatever is removed. -/
theorem among_run :
    among first.hash second.hash ((s.run setup turns).mailbox.index.items.map Item.hash) =
    among first.hash second.hash (s.mailbox.index.items.map Item.hash) ++
      among first.hash second.hash ((admitted setup s turns).map Item.hash) := by
  induction turns generalizing s with
  | nil => exact (List.append_nil _).symm
  | cons t turns ih =>
    obtain ⟨hturn, hrest⟩ := h.cons
    have hadmitted :
        admitted setup s (t :: turns) = admitted setup s [t] ++
          admitted setup (s.turn setup t) turns := by
      cases t <;> simp [admitted]
    rw [run_cons, ih hrest (tracks_turn hbatches hfirst hsecond hturn ht), among_turn hturn ht,
      hadmitted, List.map_append, among_append, List.append_assoc]

theorem leads_run_of_overtaking
    (hover : traced setup (overtaking first.hash second.hash) s turns ≠ []) :
    Leads second.hash first.hash ((s.run setup turns).mailbox.index.items.map Item.hash) := by
  induction turns generalizing s with
  | nil => exact absurd rfl hover
  | cons t turns ih =>
    obtain ⟨hturn, hrest⟩ := h.cons
    have ht' := tracks_turn hbatches hfirst hsecond hturn ht
    by_cases hnow : s.overtaking first.hash second.hash t = []
    · rw [traced, hnow, List.nil_append] at hover
      exact ih hrest ht' hover
    · have hleads := leads_turn_of_overtaking hsecond hturn ht hnow
      rw [Leads, among_comm] at hleads ⊢
      rw [run_cons, among_run hbatches hfirst hsecond hrest ht', List.head?_append, hleads]
      rfl

end Run

/-! ## What the order of items decides -/

/-- A turn lists the same items, or it writes what it lists. -/
theorem items_turn (ht : t.Runs) (hwrites : t.Writes) :
    (s.turn setup t).mailbox.index.items = s.mailbox.index.items ∨
      (s.turn setup t).disk.items = (s.turn setup t).mailbox.index.items := by
  cases t with
  | overlay change => exact .inl rfl
  | restart env => exact ht.elim
  | event env ev =>
    obtain ⟨m', m, hhandled, hflushed, hturn⟩ := turn_event setup s env ev
    rw [hturn]
    cases hflushed with
    | stopped _ hindex => exact .inl (congrArg Index.items hindex)
    | flushed =>
      refine hhandled.items_or_changed.symm.imp_right fun hchanged => ?_
      rw [Disk.items_after, Mailbox.log_flush, writtenLists_append, writtenLists_writes,
        hchanged, hwrites.1]
      simp [Mailbox.flush, Mailbox.logging]

theorem items_run (hruns : ∀ t ∈ turns, t.Runs) (hwrites : ∀ t ∈ turns, t.Writes) :
    (s.run setup turns).mailbox.index.items = s.mailbox.index.items ∨
      (s.run setup turns).disk.items = (s.run setup turns).mailbox.index.items := by
  induction turns using List.reverseRecOn with
  | nil => exact .inl rfl
  | append_singleton turns t ih =>
    have ih :=
      ih (fun t ht => hruns t (List.mem_append_left _ ht)) fun t ht =>
        hwrites t (List.mem_append_left _ ht)
    have hlast : t ∈ turns ++ [t] := List.mem_append_right _ List.mem_cons_self
    rw [run_append, run_cons, run_nil]
    rcases items_turn (s := s.run setup turns) (hruns t hlast) (hwrites t hlast)
      with hsame | hwritten
    · rcases ih with ih | ih
      · exact .inl (hsame.trans ih)
      · refine .inr ((items_disk_turn setup (s.run setup turns) t).elim (fun hdisk => ?_) id)
        rw [hdisk, ih, hsame]
    · exact .inr hwritten

/-- The item that is shown under a uid is the first of two payloads, or another one that stands
before it. -/
theorem shown_of_leads {one other : PayloadHash} {x : Index} (hne : one ≠ other)
    (hfiled : ∀ item ∈ x.items, item.hash = one ∨ item.hash = other → item.uid = uid)
    (hleads : Leads one other (x.items.map Item.hash)) :
    ∃ item, x.shown uid = some item ∧ item.hash ≠ other ∧
      (item.hash = one ∨ [item.hash, one].Sublist (x.items.map Item.hash)) := by
  obtain ⟨first, hfirst, rfl⟩ := List.mem_map.1 hleads.mem
  have huid : first.uid = uid := hfiled first hfirst (.inl rfl)
  have hshown : x.shown uid = x.items.find? fun item => item.uid = uid := by
    rw [Index.shown, Index.find?_firstPerUid, if_neg List.not_mem_nil]
  cases hfind : x.items.find? fun item => item.uid = uid with
  | none => exact absurd huid (by simpa using List.find?_eq_none.1 hfind first hfirst)
  | some item =>
    obtain ⟨-, before, after, hitems, hbefore⟩ := List.find?_eq_some_iff_append.1 hfind
    have hnone (hash : PayloadHash) (hpair : hash = first.hash ∨ hash = other) :
        hash ∉ before.map Item.hash := by
      intro hmem
      obtain ⟨item', hi, rfl⟩ := List.mem_map.1 hmem
      have huid' := hfiled item' (hitems ▸ List.mem_append_left _ hi) hpair
      simpa [huid'] using hbefore item' hi
    rw [hitems, List.map_append, List.map_cons] at hleads
    have hahead := (hleads.of_append_right (hnone _ (.inl rfl))).2
    refine ⟨item, hshown.trans hfind, ?_, ?_⟩
    · rcases leads_cons.1 hahead with hitem | ⟨hother, -⟩
      · rw [hitem]; exact hne
      · exact hother
    · refine (leads_cons.1 hahead).imp_right fun hlater => ?_
      rw [hitems, List.map_append, List.map_cons]
      exact ((List.singleton_sublist.2 hlater.2.mem).cons_cons item.hash).trans
        (List.sublist_append_right _ _)

theorem hashes_of_reports {reports : List Report} {items : List Item}
    (h : reports.map some = items.map Item.report?) :
    reports.map Report.hash = items.map Item.hash := by
  induction items generalizing reports with
  | nil => rw [List.map_eq_nil_iff.1 h]; rfl
  | cons item items ih =>
    cases reports with
    | nil => cases h
    | cons report reports =>
      rw [List.map_cons, List.map_cons, List.cons.injEq] at h
      obtain ⟨message, -, hreport⟩ := Option.map_eq_some_iff.1 h.1.symm
      rw [List.map_cons, List.map_cons, ih h.2, ← hreport]

/-- One payload comes before another: each of them once, they stand in this order in the list of
items and, as long as all is written, on disk; whoever asks for the letters under their uid gets the
one that comes first or an earlier letter; and every listener is told of them in this order that is
registered from before they are received. -/
structure InOrder (setup : Setup) (uid : String) (one other : PayloadHash) (s : History)
    (turns : List Turn) : Prop where
  listed : among one other ((s.run setup turns).mailbox.index.items.map Item.hash) = [one, other]
  written : (∀ t ∈ turns, t.Writes) →
    (s.run setup turns).disk.items = (s.run setup turns).mailbox.index.items
  shown : ∃ item, (s.run setup turns).mailbox.index.shown uid = some item ∧ item.hash ≠ other ∧
    (item.hash = one ∨
      [item.hash, one].Sublist ((s.run setup turns).mailbox.index.items.map Item.hash))
  told (id : Nat) (early late : List Turn) : turns = early ++ late →
    (s.run setup early).mailbox.index.contains one = false →
    (s.run setup early).mailbox.index.contains other = false →
    Registered setup (s.run setup early) id late →
      ∃ reports, (s.run setup turns).reports id = (s.run setup early).reports id ++ reports ∧
        among one other (reports.map Report.hash) = [one, other]

theorem inOrder_of_leads {one other : PayloadHash} (hv : s.mailbox.index.Valid)
    (hruns : ∀ t ∈ turns, t.Runs) (hne : one ≠ other) (hnew : s.mailbox.index.contains one = false)
    (hother : (s.run setup turns).mailbox.index.contains other = true)
    (hfiled : ∀ item ∈ (s.run setup turns).mailbox.index.items, item.hash = one ∨
      item.hash = other → item.uid = uid)
    (hamong : ∀ early late, turns = early ++ late →
      among one other ((s.run setup turns).mailbox.index.items.map Item.hash) =
        among one other ((s.run setup early).mailbox.index.items.map Item.hash) ++
          among one other ((admitted setup (s.run setup early) late).map Item.hash))
    (hleads : Leads one other ((s.run setup turns).mailbox.index.items.map Item.hash)) :
    InOrder setup uid one other s turns := by
  have hvalid : (s.run setup turns).mailbox.index.Valid := valid_run hv turns
  have hlisted :
      among one other ((s.run setup turns).mailbox.index.items.map Item.hash) = [one, other] :=
    hleads.among_eq hne hvalid.nodup ((hvalid.mem_hashes_iff other).2 hother)
  refine ⟨hlisted, fun hwrites => ?_, shown_of_leads hne hfiled hleads,
    fun id early late hsplit hone hother' hid => ?_⟩
  · refine (items_run hruns hwrites).resolve_left fun hsame => ?_
    rw [hsame] at hleads
    exact absurd (hnew.symm.trans ((hv.mem_hashes_iff one).1 hleads.mem)) Bool.false_ne_true
  · have hearly : (s.run setup early).mailbox.index.Valid := valid_run hv early
    obtain ⟨reports, hreports, hmap⟩ := run_reports setup hearly hid
    have hnone : among one other ((s.run setup early).mailbox.index.items.map Item.hash) = [] := by
      refine among_eq_nil_iff.2 ⟨fun hmem => ?_, fun hmem => ?_⟩
      · exact absurd (hone.symm.trans ((hearly.mem_hashes_iff one).1 hmem)) Bool.false_ne_true
      · exact absurd (hother'.symm.trans ((hearly.mem_hashes_iff other).1 hmem)) Bool.false_ne_true
    refine ⟨reports, by rw [hsplit, run_append, hreports], ?_⟩
    rw [hashes_of_reports hmap, ← hlisted, hamong early late hsplit, hnone, List.nil_append]

/-! ## The order of presentation -/

theorem single_run (hbatches : setup.maxBatches ≤ 1) (hs : s.mailbox.running.length ≤ 1)
    (turns : List Turn) : (s.run setup turns).mailbox.running.length ≤ 1 := by
  induction turns generalizing s with
  | nil => exact hs
  | cons t turns ih =>
    refine ih ?_
    cases t with
    | overlay change => exact hs
    | restart env => exact Nat.zero_le 1
    | event env ev =>
      cases hstopped : s.mailbox.stopped with
      | true => rw [(turn_of_stopped setup hstopped env ev).1]; exact hs
      | false =>
        obtain ⟨m', -, hproceeds, hflushed, -⟩ := turn_proceeds setup env ev hstopped
        rw [hflushed.running]
        exact hproceeds.single hbatches hs

/-- Two payloads that open to messages under one uid are shown to a mailbox that opens one batch at
a time, the first one first, and both are received. The order in which they were shown is kept,
unless the second one was opened as a lone entry while the first one waited in a batch: then it is
the other way round. -/
theorem presented_order_kept (setup : Setup) (env : Surroundings) (store : Store) (disk : Disk)
    (before turns : List Turn) (uid : String) (first second : Payload)
    (hbatches : setup.maxBatches ≤ 1) (hfirst : first.Delivers setup.ring uid)
    (hsecond : second.Delivers setup.ring uid) (hne : first.hash ≠ second.hash) :
    let s := (start setup env store disk).run setup before
    Undisturbed setup first second s turns →
    (∀ hash, hash = first.hash ∨ hash = second.hash → hash ∉ s.mailbox.arrivals) →
    Leads first.hash second.hash ((traced setup presented s turns).map Entry.hash) →
    (∀ hash, hash = first.hash ∨ hash = second.hash →
      (s.run setup turns).mailbox.index.contains hash = true) →
      (traced setup (overtaking first.hash second.hash) s turns = [] →
        InOrder setup uid first.hash second.hash s turns) ∧
      (traced setup (overtaking first.hash second.hash) s turns ≠ [] →
        InOrder setup uid second.hash first.hash s turns) := by
  intro s h habsent hpresented hheld
  have hv : s.mailbox.index.Valid := valid_run (valid_start setup env store disk) before
  have hnew (hash : PayloadHash) (hpair : hash = first.hash ∨ hash = second.hash) :
      s.mailbox.index.contains hash = false :=
    not_contains_of_not_mem hv fun hmem => habsent hash hpair (List.mem_append_left _ hmem)
  have hwaits (p : Payload) (hpair : p.hash = first.hash ∨ p.hash = second.hash) :
      p.Genuine s.mailbox.line :=
    fun e he hhash =>
      absurd (List.mem_append_right _ (hhash ▸ List.mem_map_of_mem he)) (habsent p.hash hpair)
  have hidle : (start setup env store disk).mailbox.running.length ≤ 1 := Nat.zero_le 1
  have ht : s.mailbox.Tracks uid first second :=
    ⟨hv, single_run hbatches hidle before, hwaits first (.inl rfl), hwaits second (.inr rfl),
      fun item hi hpair =>
        absurd (List.mem_append_left _ (List.mem_map_of_mem hi)) (habsent item.hash hpair)⟩
  have hfinal := tracks_run hbatches hfirst hsecond h ht
  have hamong (early late : List Turn) (hsplit : turns = early ++ late) :
      among first.hash second.hash ((s.run setup turns).mailbox.index.items.map Item.hash) =
        among first.hash second.hash ((s.run setup early).mailbox.index.items.map Item.hash) ++
          among first.hash second.hash
              ((admitted setup (s.run setup early) late).map Item.hash) := by
    subst hsplit
    obtain ⟨hearly, hlate⟩ := h.split
    rw [run_append]
    exact among_run hbatches hfirst hsecond hlate (tracks_run hbatches hfirst hsecond hearly ht)
  constructor
  · intro hover
    have hstart : Leads first.hash second.hash
        (s.mailbox.arrivals ++ (traced setup presented s turns).map Entry.hash) :=
      leads_append.2 (.inr ⟨⟨habsent _ (.inl rfl), habsent _ (.inr rfl)⟩, hpresented⟩)
    have hindexed := hheld first.hash (.inl rfl)
    have hleads := (leads_run hbatches hfirst hsecond h ht hover hstart).resolve_left fun hmisses =>
      absurd ((hmisses.elim And.left Mailbox.Shuns.index).symm.trans hindexed) Bool.false_ne_true
    exact inOrder_of_leads hv h.runs hne (hnew _ (.inl rfl)) (hheld _ (.inr rfl))
      hfinal.filed hamong
      (hleads.of_append ((hfinal.valid.mem_hashes_iff _).2 hindexed))
  · intro hover
    refine inOrder_of_leads hv h.runs (Ne.symm hne) (hnew _ (.inr rfl)) (hheld _ (.inl rfl))
      (fun item hi hpair => hfinal.filed item hi hpair.symm) (fun early late hsplit => ?_)
      (leads_run_of_overtaking hbatches hfirst hsecond h ht hover)
    simp only [among_comm second.hash first.hash]
    exact hamong early late hsplit

end History

end SealedMail

namespace SealedMail.History

attribute [local instance] Suite.transparent

open Transparent

/-- Two letters under one uid, from different rings. -/
def earlierLetter : Payload := payload (ring 1) (ring 2) (letter "u")

def laterLetter : Payload := payload (ring 4) (ring 2) (letter "u")

/-- A mailbox with a listener. -/
def listening : History :=
  (start Transparent.setup (online 0) (.ofCapacity 8 (.sufficient 1)) ⟨[], ⟨.empty⟩⟩).run
    Transparent.setup [.event (online 0) (.command (.addListener 7))]

/-- The first letter is stored with a third one, and the mailbox is bootstrapped: both wait in a
batch. -/
def batched : List Turn :=
  [.overlay fun s => s.serve (.add (entry (ring 1) (ring 2) (letter "u") 1)),
    .overlay fun s => s.serve (.add (entry (ring 1) (ring 2) (letter "v") 1)),
    .event (online 0) (.command .bootstrap)]

/-- The second letter is added, and the mailbox reads of it. -/
def followed : List Turn :=
  [.overlay fun s => s.serve (.add (entry (ring 4) (ring 2) (letter "u") 1)),
    .event (online 0) .notice]

/-- The batch is done before the second letter is added, and the mailbox has read of its own
removals. -/
def patient : List Turn :=
  batched ++ [.event (online 0) (.batch 0), .event (online 0) .notice, .event (online 0) .notice] ++
    followed

/-- The batch is done only after the mailbox has read of the second letter. -/
def hasty : List Turn := batched ++ followed ++ [.event (online 0) (.batch 0)]

theorem earlierLetter_delivers : earlierLetter.Delivers (ring 2) "u" :=
  ⟨⟨.mailbox (letter "u"), (ring 1).signatureKey⟩, letter "u", by decide +kernel, rfl, rfl⟩

theorem laterLetter_delivers : laterLetter.Delivers (ring 2) "u" :=
  ⟨⟨.mailbox (letter "u"), (ring 4).signatureKey⟩, letter "u", by decide +kernel, rfl, rfl⟩

/-- The batch is done in time, and the first letter stays first. -/
theorem presented_order_kept_of_patience :
    Transparent.setup.maxBatches ≤ 1 ∧ earlierLetter.hash ≠ laterLetter.hash ∧
      Undisturbed Transparent.setup earlierLetter laterLetter listening patient ∧
      Leads earlierLetter.hash laterLetter.hash
        ((traced Transparent.setup presented listening patient).map Entry.hash) ∧
      traced Transparent.setup (overtaking earlierLetter.hash laterLetter.hash) listening patient =
        [] ∧
      InOrder Transparent.setup "u" earlierLetter.hash laterLetter.hash listening patient := by
  obtain ⟨hne, habsent, hpresented, hheld, hover⟩ : earlierLetter.hash ≠ laterLetter.hash ∧
      (earlierLetter.hash ∉ listening.mailbox.arrivals ∧
        laterLetter.hash ∉ listening.mailbox.arrivals) ∧
      Leads earlierLetter.hash laterLetter.hash
        ((traced Transparent.setup presented listening patient).map Entry.hash) ∧
      ((listening.run Transparent.setup patient).mailbox.index.contains earlierLetter.hash = true ∧
        (listening.run Transparent.setup patient).mailbox.index.contains laterLetter.hash = true) ∧
      traced Transparent.setup (overtaking earlierLetter.hash laterLetter.hash) listening patient =
        [] := by
    decide +kernel
  have hundisturbed :
      Undisturbed Transparent.setup earlierLetter laterLetter listening patient := by
    obtain ⟨hfirst, hsecond, hcount, hopened⟩ :
        (∀ e ∈ traced Transparent.setup presented listening patient, e.hash = earlierLetter.hash →
          e.payload = earlierLetter) ∧
        (∀ e ∈ traced Transparent.setup presented listening patient, e.hash = laterLetter.hash →
          e.payload = laterLetter) ∧
        (listening.run Transparent.setup patient).dropped = [] ∧
        traced Transparent.setup lost listening patient = [] := by
      decide +kernel
    refine ⟨?_, ?_, hfirst, hsecond,
      fun hash _ => by rw [hcount]; rfl, by rw [hopened]; exact List.not_mem_nil⟩
    · simp [patient, batched, followed, Turn.Runs]
    · simp [patient, batched, followed, Turn.Reads, Surroundings.Reads, online]
  refine ⟨Nat.le_refl 1, hne, hundisturbed, hpresented, hover, ?_⟩
  refine (presented_order_kept Transparent.setup (online 0) (.ofCapacity 8 (.sufficient 1))
    ⟨[], ⟨.empty⟩⟩ [.event (online 0) (.command (.addListener 7))] patient "u" earlierLetter
    laterLetter (Nat.le_refl 1) earlierLetter_delivers laterLetter_delivers hne hundisturbed ?_
    hpresented ?_).1 hover
  · rintro hash (rfl | rfl)
    · exact habsent.1
    · exact habsent.2
  · rintro hash (rfl | rfl)
    · exact hheld.1
    · exact hheld.2

/-- The second letter overtakes the batch that the first one is in. Nothing is removed and nothing
breaks off, and yet the listener is told of the second letter first, it is listed first, here and on
disk, and it is the one that is shown. -/
theorem lone_letter_overtakes :
    let after := listening.run Transparent.setup hasty
    let told := (after.reports 7).map Report.hash
    earlierLetter.Delivers (ring 2) "u" ∧ laterLetter.Delivers (ring 2) "u" ∧
      (∀ t ∈ hasty, t.Runs ∧ t.Reads ∧ t.Writes) ∧
      Leads earlierLetter.hash laterLetter.hash
        ((traced Transparent.setup presented listening hasty).map Entry.hash) ∧
      traced Transparent.setup lost listening hasty = [] ∧ after.dropped = [] ∧
      Registered Transparent.setup listening 7 hasty ∧
      among earlierLetter.hash laterLetter.hash told = [laterLetter.hash, earlierLetter.hash] ∧
      among earlierLetter.hash laterLetter.hash (after.mailbox.index.items.map Item.hash) =
        [laterLetter.hash, earlierLetter.hash] ∧
      after.disk.items = after.mailbox.index.items ∧
      (after.mailbox.index.shown "u").map Item.hash = some laterLetter.hash := by
  intro after told
  have hturns : ∀ t ∈ hasty, t.Runs ∧ t.Reads ∧ t.Writes := by
    simp [hasty, batched, followed, Turn.Runs, Turn.Reads, Turn.Writes, Surroundings.Reads,
      Surroundings.Writes, online]
  obtain ⟨hpresented, hlost, hdropped, hlisteners, htold, hitems, hdisk, hshown⟩ :
      Leads earlierLetter.hash laterLetter.hash
          ((traced Transparent.setup presented listening hasty).map Entry.hash) ∧
        traced Transparent.setup lost listening hasty = [] ∧ after.dropped = [] ∧
        (∀ done ∈ hasty.inits,
          (listening.run Transparent.setup done).mailbox.listeners.contains 7 = true) ∧
        among earlierLetter.hash laterLetter.hash told = [laterLetter.hash, earlierLetter.hash] ∧
        among earlierLetter.hash laterLetter.hash (after.mailbox.index.items.map Item.hash) =
          [laterLetter.hash, earlierLetter.hash] ∧
        after.disk.items = after.mailbox.index.items ∧
        (after.mailbox.index.shown "u").map Item.hash = some laterLetter.hash := by
    decide +kernel
  have hregistered : Registered Transparent.setup listening 7 hasty :=
    fun done hd => hlisteners done ((List.mem_inits done hasty).2 hd)
  exact ⟨earlierLetter_delivers, laterLetter_delivers, hturns, hpresented, hlost, hdropped,
    hregistered, htold, hitems,
    hdisk, hshown⟩

end SealedMail.History
