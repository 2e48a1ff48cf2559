import SealedMail.Proofs.Mailbox.Event

/-!
# Histories

A `History` is a mailbox with what it has written, taken through any number of turns: it handles an
event, others change the overlay, or it is restarted from what was written last. `History.Sound`
holds between turns as long as all writes succeed: the index is valid, nothing is left to write, and
what is indexed is on disk.
-/

namespace SealedMail

/-- What a mailbox wrote last. -/
structure Disk where
  items : List Item := []
  ledger : Ledger := {}

namespace Disk

def record (d : Disk) : Effect → Disk
  | .wroteItems items => { d with items }
  | .wroteLedger ledger => { d with ledger }
  | _ => d

/-- The disk after some effects. -/
def after (d : Disk) (effects : List Effect) : Disk := effects.foldl record d

theorem after_eq_of_written {d : Disk} {effects : List Effect} (h : written effects = []) :
    d.after effects = d := by
  induction effects with
  | nil => rfl
  | cons effect effects ih =>
    unfold written at h
    rw [List.filter_cons] at h
    split at h
    · cases h
    · next hw =>
      have : d.record effect = d := by cases effect <;> simp_all [record, Effect.isWrite]
      rw [after, List.foldl_cons, this]
      exact ih h

theorem after_append (d : Disk) (effects more : List Effect) :
    d.after (effects ++ more) = (d.after effects).after more :=
  List.foldl_append

end Disk

/-- The items that an index no longer holds. -/
def Index.lost [Suite] (before after : Index) : List Item := Index.gained after before

theorem Index.mem_lost [Suite] {before after : Index} (hb : before.Valid) {hash : PayloadHash}
    (h : before.contains hash = true) (h' : after.contains hash = false) :
    ∃ item ∈ before.lost after, item.hash = hash := by
  obtain ⟨item, hi, rfl⟩ := (hb.contains_iff hash).1 h
  exact ⟨item, List.mem_filter.2 ⟨hi, by simp [h']⟩, rfl⟩

theorem Index.count_lost_pos [Suite] {before after : Index} (hb : before.Valid) {hash : PayloadHash}
    (h : before.contains hash = true) (h' : after.contains hash = false) :
    0 < ((before.lost after).map Item.hash).count hash := by
  obtain ⟨item, hi, rfl⟩ := mem_lost hb h h'
  exact List.count_pos_iff.2 (List.mem_map_of_mem hi)

/-- Writes succeed. -/
def Surroundings.Writes (env : Surroundings) : Prop :=
  env.canWriteItems = true ∧ env.canWriteLedger = true

inductive Turn where
  | event (env : Surroundings) (e : Event)
  /-- Others change the overlay. -/
  | overlay (change : Store → Store)
  | restart (env : Surroundings)

def Turn.Writes : Turn → Prop
  | .event env _ => env.Writes
  | .overlay _ => True
  | .restart env => env.Writes

structure History where
  /-- Its log holds the effects of the last turn. -/
  mailbox : Mailbox
  disk : Disk
  effects : List Effect := []
  /-- The payloads that removals dropped from the index. -/
  dropped : List PayloadHash := []
  /-- The payloads that restarts left out because they had outlived their time. -/
  expired : List PayloadHash := []

namespace History

variable [Suite]

def start (setup : Setup) (env : Surroundings) (store : Store) (disk : Disk) : History :=
  let m := Mailbox.restore setup env store disk.items disk.ledger
  { mailbox := m, disk := disk.after m.log, effects := m.log }

def turn (setup : Setup) (s : History) : Turn → History
  | .event env e =>
    let m := { s.mailbox with log := [] }.step setup env e
    { s with
      mailbox := m
      disk := s.disk.after m.log
      effects := s.effects ++ m.log
      dropped := s.dropped ++
        if e.isRemoval then (s.mailbox.index.lost m.index).map Item.hash else [] }
  | .overlay change =>
    { s with mailbox := { s.mailbox with store := change s.mailbox.store, log := [] } }
  | .restart env =>
    let m := Mailbox.restore setup env s.mailbox.store s.disk.items s.disk.ledger
    { s with
      mailbox := m
      disk := s.disk.after m.log
      effects := s.effects ++ m.log
      expired := s.expired ++ ((s.mailbox.index.lost m.index).filter fun item =>
        item.entry.isExpired env.now setup.ttl).map Item.hash }

def run (setup : Setup) (s : History) (turns : List Turn) : History := turns.foldl (turn setup) s

@[simp] theorem run_nil (setup : Setup) (s : History) : s.run setup [] = s := rfl

@[simp] theorem run_cons (setup : Setup) (s : History) (t : Turn) (turns : List Turn) :
    s.run setup (t :: turns) = (s.turn setup t).run setup turns := rfl

theorem run_append (setup : Setup) (s : History) (turns more : List Turn) :
    s.run setup (turns ++ more) = (s.run setup turns).run setup more :=
  List.foldl_append

/-- What handling an event comes to in a history. -/
theorem turn_event (setup : Setup) (s : History) (env : Surroundings) (ev : Event) :
    ∃ m' m, Mailbox.Handled setup env { s.mailbox with log := [] } ev m' ∧
      Mailbox.Flushed env { s.mailbox with log := [] } m' m ∧
      s.turn setup (.event env ev) = { s with
        mailbox := m
        disk := s.disk.after m.log
        effects := s.effects ++ m.log
        dropped := s.dropped ++
          if ev.isRemoval then (s.mailbox.index.lost m.index).map Item.hash else [] } := by
  obtain ⟨m', h, hf⟩ := Mailbox.step_cases setup env { s.mailbox with log := [] } ev
  exact ⟨m', _, h, hf, rfl⟩

theorem valid_turn {setup : Setup} {s : History} (hv : s.mailbox.index.Valid) (t : Turn) :
    (s.turn setup t).mailbox.index.Valid := by
  cases t with
  | overlay change => exact hv
  | restart env => exact Index.valid_ofList _ _ _
  | event env ev =>
    obtain ⟨m', m, h, hf, hturn⟩ := turn_event setup s env ev
    rw [hturn]
    exact hf.index ▸ h.valid hv

theorem valid_run {setup : Setup} {s : History} (hv : s.mailbox.index.Valid) (turns : List Turn) :
    (s.run setup turns).mailbox.index.Valid := by
  induction turns generalizing s with
  | nil => exact hv
  | cons t turns ih => exact ih (valid_turn hv t)

theorem valid_start (setup : Setup) (env : Surroundings) (store : Store) (disk : Disk) :
    (start setup env store disk).mailbox.index.Valid := Index.valid_ofList _ _ _

/-- What a listener has been told so far. -/
def reports (s : History) (id : Nat) : List Report := heard id s.effects

theorem reports_start (setup : Setup) (env : Surroundings) (store : Store) (disk : Disk)
    (id : Nat) :
    (start setup env store disk).reports id = [] :=
  Mailbox.heard_restore setup env store disk.items disk.ledger id

/-- What holds between turns. -/
structure Sound (s : History) : Prop where
  valid : s.mailbox.index.Valid
  itemsWritten : s.mailbox.itemsChanged = false
  ledgerWritten : s.mailbox.ledgerChanged = false
  onDisk : ∀ item ∈ s.mailbox.index.items, item ∈ s.disk.items

/-! ## Soundness -/

omit [Suite] in
/-- What is indexed is on disk once a changed list is written. -/
theorem mem_items_of_flush {env : Surroundings} {m : Mailbox} {d : Disk} {item : Item}
    (henv : env.canWriteItems = true) (hi : item ∈ m.index.items)
    (hm : m.itemsChanged = true ∨ item ∈ d.items) : item ∈ (d.after (m.writes env)).items := by
  unfold Mailbox.writes
  rw [henv, Bool.and_true]
  rcases hm with h | h
  · rw [h]
    cases m.ledgerChanged && env.canWriteLedger <;> exact hi
  · cases m.itemsChanged <;> cases m.ledgerChanged && env.canWriteLedger <;> assumption

theorem Sound.restored {setup : Setup} {env : Surroundings} {store : Store} {disk d : Disk}
    {s : History} (henv : env.Writes)
    (hm : s.mailbox = Mailbox.restore setup env store disk.items disk.ledger)
    (hd : s.disk = d.after s.mailbox.log) (hitems : d.items = disk.items) : s.Sound := by
  have hi : s.mailbox.index = Index.ofList disk.items env.now setup.ttl := by rw [hm]; rfl
  refine ⟨hi ▸ Index.valid_ofList _ _ _, by rw [hm]; rfl, by rw [hm]; rfl, ?_⟩
  have hsub : ∀ item ∈ (Index.ofList disk.items env.now setup.ttl).items, item ∈ d.items := by
    intro item h
    rw [Index.ofList, Index.items_foldl_insert, List.nil_append] at h
    exact hitems ▸ List.mem_of_mem_filter (Index.mem_of_mem_news h)
  let m₀ : Mailbox :=
    { store
      index := Index.ofList disk.items env.now setup.ttl
      ledger := disk.ledger.prune env.now setup.ttl
      itemsChanged := 0 < Index.countExpired disk.items env.now setup.ttl
      ledgerChanged := (disk.ledger.prune env.now setup.ttl).size < disk.ledger.size }
  have hflush : s.mailbox = m₀.flush env := hm
  rw [hd, hflush]
  exact fun item hi => mem_items_of_flush (m := m₀) henv.1 hi (.inr (hsub item hi))

theorem Sound.start (setup : Setup) {env : Surroundings} (store : Store) (disk : Disk)
    (henv : env.Writes) : (start setup env store disk).Sound :=
  .restored henv rfl rfl rfl

/-- What is indexed after an event is on disk, if it was before. -/
theorem mem_items_after {setup : Setup} {env : Surroundings} {m m' m'' : Mailbox} {ev : Event}
    {d : Disk} {item : Item} (h : Mailbox.Handled setup env { m with log := [] } ev m')
    (hf : Mailbox.Flushed env { m with log := [] } m' m'') (henv : env.canWriteItems = true)
    (hd : item ∈ m.index.items → item ∈ d.items) (hi : item ∈ m''.index.items) :
    item ∈ (d.after m''.log).items := by
  have hwritten : written m'.log = [] := h.written
  cases hf with
  | stopped _ hindex =>
    rw [Disk.after_eq_of_written hwritten]
    exact hd (hindex ▸ hi)
  | flushed =>
    rw [Mailbox.log_flush, Disk.after_append, Disk.after_eq_of_written hwritten]
    exact mem_items_of_flush henv hi ((h.changed_or_mem hi).imp_right hd)

theorem Sound.turn (setup : Setup) {s : History} {t : Turn} (hs : s.Sound) (ht : t.Writes) :
    (s.turn setup t).Sound := by
  cases t with
  | overlay change => exact ⟨hs.valid, hs.itemsWritten, hs.ledgerWritten, hs.onDisk⟩
  | restart env => exact .restored ht rfl rfl rfl
  | event env e =>
    obtain ⟨m', m, h, hf, hturn⟩ := turn_event setup s env e
    have hdisk : ∀ item ∈ m.index.items, item ∈ (s.disk.after m.log).items :=
      fun item hi => mem_items_after h hf ht.1 (hs.onDisk item) hi
    have hvalid := h.valid hs.valid
    rw [hturn]
    cases hf with
    | stopped _ _ _ hic hlc =>
      exact ⟨hvalid, hic.trans hs.itemsWritten, hlc.trans hs.ledgerWritten, hdisk⟩
    | flushed => exact ⟨hvalid, rfl, rfl, hdisk⟩

theorem Sound.run (setup : Setup) {s : History} {turns : List Turn} (hs : s.Sound)
    (ht : ∀ t ∈ turns, t.Writes) : (s.run setup turns).Sound := by
  induction turns generalizing s with
  | nil => exact hs
  | cons t turns ih =>
    obtain ⟨ht, hts⟩ := List.forall_mem_cons.1 ht
    exact ih (hs.turn setup ht) hts

end History

end SealedMail
