import SealedMail.Proofs.Mailbox.Delivery

/-!
# Recovery

An entry is taken out of the store while it is received, but the item list is written after that,
once for the whole event, and a write that fails is not repeated before the list changes again. So
what is indexed can be recovered, from the store or from the disk, exactly if the store holds it
still or some list has been written since: each list that is written is the whole index.
-/

namespace SealedMail

/-- The item list that an effect writes. -/
def Effect.items? : Effect → Option (List Item)
  | .wroteItems items => some items
  | _ => none

/-- The item lists that some effects write, in order. -/
def writtenLists (effects : List Effect) : List (List Item) := effects.filterMap Effect.items?

theorem writtenLists_append (effects more : List Effect) :
    writtenLists (effects ++ more) = writtenLists effects ++ writtenLists more :=
  List.filterMap_append

theorem writtenLists_of_written {effects : List Effect} (h : written effects = []) :
    writtenLists effects = [] := by
  refine List.filterMap_eq_nil_iff.2 fun effect he => ?_
  have := List.filter_eq_nil_iff.1 h effect he
  cases effect <;> first | rfl | exact absurd rfl this

theorem writtenLists_writes (env : Surroundings) (m : Mailbox) :
    writtenLists (m.writes env) = if m.itemsChanged && env.canWriteItems then [m.index.items]
      else [] := by
  unfold Mailbox.writes
  split <;> split <;> rfl

theorem Disk.items_after (d : Disk) (effects : List Effect) :
    (d.after effects).items = (writtenLists effects).getLast?.getD d.items := by
  induction effects generalizing d with
  | nil => rfl
  | cons effect effects ih =>
    rw [Disk.after, List.foldl_cons, ← Disk.after, ih]
    cases effect <;>
      simp [writtenLists, Effect.items?, Disk.record, List.filterMap_cons, List.getLast?_cons]

/-- The mailbox goes on, whether its writes succeed or not. -/
def Turn.Runs : Turn → Prop
  | .restart _ => False
  | _ => True

namespace History

variable [Suite] {setup : Setup} {s : History} {t : Turn} {turns : List Turn} {hash : PayloadHash}

/-- The list that was written last holds a payload. -/
def OnDisk (s : History) (hash : PayloadHash) : Prop := ∃ item ∈ s.disk.items, item.hash = hash

/-- The store holds a payload, or the list that was written last does. -/
def Recoverable (s : History) (hash : PayloadHash) : Prop :=
  s.mailbox.store.contains hash = true ∨ s.OnDisk hash

instance (s : History) (hash : PayloadHash) : Decidable (s.OnDisk hash) :=
  inferInstanceAs (Decidable (∃ item ∈ s.disk.items, item.hash = hash))

instance (s : History) (hash : PayloadHash) : Decidable (s.Recoverable hash) :=
  inferInstanceAs (Decidable (_ ∨ _))

/-! ## One turn -/

theorem turn_writes (setup : Setup) (s : History) (t : Turn) :
    ∃ log, (s.turn setup t).effects = s.effects ++ log ∧ (s.turn setup t).disk = s.disk.after log ∧
      (writtenLists log = [] ∨ writtenLists log = [(s.turn setup t).mailbox.index.items]) := by
  have flushed (env : Surroundings) (m : Mailbox) (h : writtenLists m.log = []) :
      writtenLists (m.flush env).log = [] ∨ writtenLists (m.flush env).log = [m.index.items] := by
    rw [Mailbox.log_flush, writtenLists_append, h, writtenLists_writes]
    split
    · exact .inr rfl
    · exact .inl rfl
  cases t with
  | overlay change => exact ⟨[], (List.append_nil _).symm, rfl, .inl rfl⟩
  | restart env => exact ⟨_, rfl, rfl, flushed env _ rfl⟩
  | event env ev =>
    obtain ⟨m', m, h, hf, hturn⟩ := turn_event setup s env ev
    refine ⟨m.log, by rw [hturn], by rw [hturn], ?_⟩
    rw [hturn]
    have hwritten : writtenLists m'.log = [] := writtenLists_of_written h.written
    cases hf with
    | stopped => exact .inl hwritten
    | flushed => exact flushed env m' hwritten

/-- What is indexed after a turn is on disk if it was there before, or if the turn has written a
list. -/
theorem onDisk_turn_iff (hv : s.mailbox.index.Valid)
    (hheld : (s.turn setup t).mailbox.index.contains hash = true) :
    (s.turn setup t).OnDisk hash ↔ s.OnDisk hash ∨
      (writtenLists s.effects).length < (writtenLists (s.turn setup t).effects).length := by
  obtain ⟨log, heffects, hdisk, hlists⟩ := turn_writes setup s t
  rw [heffects, writtenLists_append, OnDisk, hdisk, Disk.items_after]
  rcases hlists with hl | hl
  · simp [hl, OnDisk]
  · rw [hl]
    refine iff_of_true ?_ (.inr (by simp))
    exact ((valid_turn hv t).contains_iff hash).1 hheld

theorem onDisk_of_new {env : Surroundings} {ev : Event} (hv : s.mailbox.index.Valid)
    (hwrites : env.canWriteItems = true) (hnew : s.mailbox.index.contains hash = false)
    (hheld : (s.turn setup (.event env ev)).mailbox.index.contains hash = true) :
    (s.turn setup (.event env ev)).OnDisk hash := by
  obtain ⟨item, hi, hh⟩ := ((valid_turn hv _).contains_iff hash).1 hheld
  obtain ⟨m', m, h, hf, hturn⟩ := turn_event setup s env ev
  rw [hturn] at hi ⊢
  refine ⟨item, mem_items_after h hf hwrites (fun hold => ?_) hi, hh⟩
  exact absurd (hnew.symm.trans ((hv.contains_iff hash).2 ⟨item, hold, hh⟩)) Bool.false_ne_true

theorem onDisk_restart {env : Surroundings} (hv : s.mailbox.index.Valid)
    (hheld : (s.turn setup (.restart env)).mailbox.index.contains hash = true) :
    (s.turn setup (.restart env)).OnDisk hash := by
  obtain ⟨item, hi, -, hh⟩ := Index.contains_ofList.1 hheld
  exact (onDisk_turn_iff hv hheld).2 (.inl ⟨item, hi, hh⟩)

/-! ## Whole histories -/

theorem run_writes (setup : Setup) (s : History) (turns : List Turn) :
    ∃ log, (s.run setup turns).effects = s.effects ++ log ∧
      (s.run setup turns).disk = s.disk.after log := by
  induction turns generalizing s with
  | nil => exact ⟨[], (List.append_nil _).symm, rfl⟩
  | cons t turns ih =>
    obtain ⟨log, heffects, hdisk, -⟩ := turn_writes setup s t
    obtain ⟨more, hmore, hdisk'⟩ := ih (s.turn setup t)
    exact ⟨log ++ more, by rw [run_cons, hmore, heffects, List.append_assoc],
      by rw [run_cons, hdisk', hdisk, Disk.after_append]⟩

/-- The disk holds the list that was written last, or what it held at first. -/
theorem items_disk_run (setup : Setup) (env : Surroundings) (store : Store) (disk : Disk)
    (turns : List Turn) :
    let s := (start setup env store disk).run setup turns
    s.disk.items = (writtenLists s.effects).getLast?.getD disk.items := by
  intro s
  obtain ⟨log, heffects, hdisk⟩ := run_writes setup (start setup env store disk) turns
  rw [show s.effects = _ from heffects, ← Disk.items_after, Disk.after_append]
  exact congrArg Disk.items hdisk

theorem length_writtenLists_le_turn (setup : Setup) (s : History) (t : Turn) :
    (writtenLists s.effects).length ≤ (writtenLists (s.turn setup t).effects).length := by
  obtain ⟨log, heffects, -⟩ := turn_writes setup s t
  rw [heffects, writtenLists_append, List.length_append]
  exact Nat.le_add_right _ _

theorem length_writtenLists_le_run (setup : Setup) (s : History) (turns : List Turn) :
    (writtenLists s.effects).length ≤ (writtenLists (s.run setup turns).effects).length := by
  induction turns generalizing s with
  | nil => exact Nat.le_refl _
  | cons t turns ih =>
    exact Nat.le_trans (length_writtenLists_le_turn setup s t) (ih (s.turn setup t))

theorem contains_turn (hv : s.mailbox.index.Valid) (hheld : s.mailbox.index.contains hash = true)
    (ht : t.Runs) (hkept : (s.turn setup t).dropped.count hash = s.dropped.count hash) :
    (s.turn setup t).mailbox.index.contains hash = true := by
  cases t with
  | overlay change => exact hheld
  | restart env => exact ht.elim
  | event env ev =>
    obtain ⟨item, hi, rfl⟩ := (hv.contains_iff hash).1 hheld
    exact ((valid_turn hv _).contains_iff _).2 ⟨item, mem_items_event hv hi hkept, rfl⟩

/-- What is indexed after a turn and not dropped since is on disk if it was there before the turn,
or if a list has been written since. -/
theorem onDisk_run_iff (hv : s.mailbox.index.Valid)
    (hheld : (s.turn setup t).mailbox.index.contains hash = true) (ht : ∀ t ∈ turns, t.Runs)
    (hkept : ((s.turn setup t).run setup turns).dropped.count hash =
      (s.turn setup t).dropped.count hash) :
    ((s.turn setup t).run setup turns).mailbox.index.contains hash = true ∧
      (((s.turn setup t).run setup turns).OnDisk hash ↔ s.OnDisk hash ∨
        (writtenLists s.effects).length <
          (writtenLists ((s.turn setup t).run setup turns).effects).length) := by
  induction turns generalizing s t with
  | nil => exact ⟨hheld, onDisk_turn_iff hv hheld⟩
  | cons next turns ih =>
    obtain ⟨ht, hts⟩ := List.forall_mem_cons.1 ht
    have h1 := count_dropped_le_turn setup (s.turn setup t) next hash
    have h2 := count_dropped_le_run setup ((s.turn setup t).turn setup next) turns hash
    rw [run_cons] at hkept ⊢
    have hnow : ((s.turn setup t).turn setup next).dropped.count hash =
        (s.turn setup t).dropped.count hash := by omega
    obtain ⟨hrun, hdisk⟩ :=
      ih (valid_turn hv t) (contains_turn (valid_turn hv t) hheld ht hnow) hts
        (hkept.trans hnow.symm)
    refine ⟨hrun, ?_⟩
    have h3 := length_writtenLists_le_turn setup s t
    have h4 := length_writtenLists_le_run setup (s.turn setup t) (next :: turns)
    rw [run_cons] at h4
    rw [hdisk, onDisk_turn_iff hv hheld, or_assoc]
    exact or_congr_right (by omega)

theorem onDisk_run (hv : s.mailbox.index.Valid)
    (hheld : (s.turn setup t).mailbox.index.contains hash = true) (ht : ∀ t ∈ turns, t.Runs)
    (hkept : ((s.turn setup t).run setup turns).dropped.count hash =
      (s.turn setup t).dropped.count hash)
    (hdisk : (s.turn setup t).OnDisk hash) : ((s.turn setup t).run setup turns).OnDisk hash := by
  refine (onDisk_run_iff hv hheld ht hkept).2.2
    (((onDisk_turn_iff hv hheld).1 hdisk).imp_right fun h => ?_)
  exact Nat.lt_of_lt_of_le h (length_writtenLists_le_run setup (s.turn setup t) turns)

/-- What is indexed after a turn and not dropped since stays indexed while the mailbox goes on. The
list that was written last holds it exactly if it was on disk before the turn or a list has been
written since; so until then it can be recovered only from the store. It is on disk if the turn was
an event that made it indexed and could write, or a restart. -/
theorem recoverable_iff_written (setup : Setup) (env : Surroundings) (store : Store) (disk : Disk)
    (before during : List Turn) (t : Turn) (hash : PayloadHash) (s admitted : History)
    (hs : s = (start setup env store disk).run setup before) (hadmitted : admitted = s.turn setup t)
    (hheld : admitted.mailbox.index.contains hash = true) (hduring : ∀ t ∈ during, t.Runs)
    (hkept : (admitted.run setup during).dropped.count hash = admitted.dropped.count hash) :
    let later := admitted.run setup during
    later.mailbox.index.contains hash = true ∧
    later.disk.items = (writtenLists later.effects).getLast?.getD disk.items ∧
    (later.Recoverable hash ↔ later.mailbox.store.contains hash = true ∨ s.OnDisk hash ∨
      (writtenLists s.effects).length < (writtenLists later.effects).length) ∧
    (∀ env ev, t = .event env ev → env.canWriteItems = true →
      s.mailbox.index.contains hash = false →
      later.OnDisk hash) ∧
    ∀ env, t = .restart env → later.OnDisk hash := by
  intro later
  have hv : s.mailbox.index.Valid := hs ▸ valid_run (Index.valid_ofList _ _ _) before
  subst hadmitted
  obtain ⟨hindexed, hdisk⟩ := onDisk_run_iff hv hheld hduring hkept
  have hlast := items_disk_run setup env store disk (before ++ t :: during)
  rw [run_append, run_cons, ← hs] at hlast
  refine ⟨hindexed, hlast, or_congr_right hdisk, ?_, ?_⟩
  · rintro env ev rfl hwrites hnew
    exact onDisk_run hv hheld hduring hkept (onDisk_of_new hv hwrites hnew hheld)
  · rintro env rfl
    exact onDisk_run hv hheld hduring hkept (onDisk_restart hv hheld)

end History

end SealedMail

namespace SealedMail.History

attribute [local instance] Suite.transparent

open Transparent

/-- Lists cannot be written. -/
def readOnly : Surroundings := { online 0 with canWriteItems := false }

/-- Another letter is added and received. -/
def anotherLetter : List Turn :=
  [.overlay fun s => s.serve (.add (entry (ring 1) (ring 2) (letter "v") 1)),
    .event (online 0) .notice, .event (online 0) .notice]

/-- The letter cannot be written when it is received. It is written with the next one. -/
theorem letter_written_with_another :
    let received : Turn := .event readOnly (.command .bootstrap)
    ¬ (afterLetter [] [received]).Recoverable letterPayload.hash ∧
      (afterLetter [] (received :: anotherLetter)).mailbox.index.contains letterPayload.hash =
        true ∧
      (afterLetter [] (received :: anotherLetter)).Recoverable letterPayload.hash := by
  intro received
  obtain ⟨hheld, hkept, hdisk, hstore, hlists, hgrown⟩ :
      (afterLetter [] [received]).mailbox.index.contains letterPayload.hash = true ∧
        (afterLetter [] (received :: anotherLetter)).dropped.count letterPayload.hash =
          (afterLetter [] [received]).dropped.count letterPayload.hash ∧
        ¬ (afterLetter [] []).OnDisk letterPayload.hash ∧
        (afterLetter [] [received]).mailbox.store.contains letterPayload.hash = false ∧
        writtenLists (afterLetter [] [received]).effects = [] ∧
        0 < (writtenLists (afterLetter [] (received :: anotherLetter)).effects).length := by
    decide +kernel
  have hrun : (afterLetter [] [received]).run Transparent.setup anotherLetter =
      afterLetter [] (received :: anotherLetter) := by
    simp only [afterLetter, run_cons, run_nil]
  have hrecoverable (during : List Turn) := recoverable_iff_written Transparent.setup (online 0)
    (.ofCapacity 8 (.sufficient 1)) ⟨[], ⟨.empty⟩⟩
    [.overlay fun _ => withLetter (afterTurns []).mailbox.store] during received letterPayload.hash
    (afterLetter [] []) (afterLetter [] [received])
    (by simp only [afterLetter, afterTurns, run_cons, run_nil])
    (by simp only [afterLetter, run_cons, run_nil]) hheld
  obtain ⟨-, -, hnow, -⟩ := hrecoverable [] (fun _ h => absurd h List.not_mem_nil) (by rw [run_nil])
  have hafter := hrecoverable anotherLetter (by simp [anotherLetter, Turn.Runs])
  rw [hrun] at hafter
  obtain ⟨hindexed, -, hlater, -⟩ := hafter hkept
  refine ⟨fun h => ?_, hindexed, hlater.2 (.inr (.inr hgrown))⟩
  rw [run_nil] at hnow
  rcases hnow.1 h with h | h | h
  · exact absurd (hstore.symm.trans h) Bool.false_ne_true
  · exact hdisk h
  · rw [hlists] at h
    exact absurd h (Nat.not_lt_zero _)

/-- The letter is withdrawn from the store though it could not be written. Nothing writes it later,
and a restart forgets it. -/
theorem unwritten_letter_lost :
    let s := afterLetter []
      [.event readOnly (.command .bootstrap), .event (online 0) (.command (.query 1))]
    s.mailbox.index.contains letterPayload.hash = true ∧ s.dropped = [] ∧
      ¬ s.Recoverable letterPayload.hash ∧
      (s.turn Transparent.setup (.restart (online 0))).mailbox.index.contains letterPayload.hash =
        false := by
  decide +kernel

end SealedMail.History
