import SealedMail.Proofs.Mailbox.Recovery

/-!
# Restarts

As long as all writes succeed, the disk mirrors the mailbox after every turn (`disk_run`): an event
that changes the index or the ledger marks what it has changed, and a restart marks what it leaves
out. What is read back is then the index and the ledger without what has outlived its time, in the
same order. This rests on one fact about old disks: no list that a mailbox has ever written holds a
payload twice (`Disk.Left.nodup`).
-/

namespace SealedMail

/-! ## What is read back -/

theorem Timestamp.not_isExpired (created now : Timestamp) (ttl : UInt64) :
    (!created.isExpired now ttl) =
      decide (now.millis.toNat - created.millis.toNat ≤ ttl.toNat) := by
  simp only [isExpired, ← decide_not, UInt64.not_lt, UInt64.le_iff_toNat_le, toNat_since]

namespace Index

/-- The item under a uid whose message is among the `firstMessages`. -/
def shown (x : Index) (uid : String) : Option Item :=
  (firstPerUid [] x.items).find? fun item => item.uid = uid

theorem find?_firstPerUid (seen : List String) (items : List Item) (uid : String) :
    (firstPerUid seen items).find? (fun item => item.uid = uid) =
      if uid ∈ seen then none else items.find? fun item => item.uid = uid := by
  induction items generalizing seen with
  | nil => simp [firstPerUid]
  | cons item items ih =>
    simp only [firstPerUid]
    by_cases hu : item.uid = uid
    · subst hu
      by_cases hs : item.uid ∈ seen <;> simp [hs, ih]
    · by_cases hs : item.uid ∈ seen <;> simp [hs, hu, Ne.symm hu, ih]

variable [Suite]

theorem shown_eq {x : Index} (hx : x.Valid) (uid : String) : x.shown uid = (x.under uid).head? := by
  rw [shown, find?_firstPerUid, if_neg List.not_mem_nil, under_eq hx, filed, List.head?_filter]

/-- Of a list that holds no payload twice all is read that has not outlived its time. -/
theorem items_ofList {items : List Item} (hn : (items.map Item.hash).Nodup) (now : Timestamp)
    (ttl : UInt64) :
    (ofList items now ttl).items = items.filter fun item => !item.entry.isExpired now ttl := by
  have hnews : news {} (items.filter fun item => !item.entry.isExpired now ttl) = _ :=
    news_eq_self (hn.sublist (List.filter_sublist.map _)) fun _ _ => rfl
  rw [ofList, items_foldl_insert, hnews, List.nil_append]

end Index

theorem Ledger.prune_eq_of_size {l : Ledger} {now : Timestamp} {ttl : UInt64}
    (h : ¬ (l.prune now ttl).size < l.size) : l.prune now ttl = l :=
  congrArg Ledger.mk (SortedMap.filter_eq_self_of_size (Nat.le_of_not_lt h))

/-! ## What is on disk -/

/-- What of a mailbox has to be on disk. -/
def Mailbox.toDisk (m : Mailbox) : Disk := ⟨m.index.items, m.ledger⟩

namespace Disk

theorem after_writes (d : Disk) {env : Surroundings} (henv : env.Writes) (m : Mailbox) :
    d.after (m.writes env) =
      ⟨if m.itemsChanged then m.index.items else d.items,
        if m.ledgerChanged then m.ledger else d.ledger⟩ := by
  obtain ⟨hitems, hledger⟩ := henv
  cases hi : m.itemsChanged <;> cases hl : m.ledgerChanged <;>
    simp [Mailbox.writes, hi, hl, hitems, hledger, after, record]

/-- The disk mirrors a mailbox once what has changed is written. -/
theorem after_writes_eq_toDisk {d : Disk} {env : Surroundings} {m : Mailbox} (henv : env.Writes)
    (hitems : m.itemsChanged = true ∨ m.index.items = d.items)
    (hledger : m.ledgerChanged = true ∨ m.ledger = d.ledger) :
    d.after (m.writes env) = m.toDisk := by
  rw [after_writes d henv, Mailbox.toDisk, mk.injEq]
  constructor
  · split
    · rfl
    · next h => exact (hitems.resolve_left h).symm
  · split
    · rfl
    · next h => exact (hledger.resolve_left h).symm

end Disk

variable [Suite] {setup : Setup}

/-- What mailboxes of some setups may leave on disk: each is started from what another has left, or
from nothing, runs for any number of turns, and may fail to write. -/
inductive Disk.Left (mine : Setup → Prop) : Disk → Prop where
  | blank : Left mine ⟨[], ⟨.empty⟩⟩
  | written {setup : Setup} {disk : Disk} (env : Surroundings) (store : Store) (turns : List Turn) :
      mine setup → Left mine disk →
        Left mine ((History.start setup env store disk).run setup turns).disk

namespace History

variable {s : History}

/-- A start is the restart of an empty mailbox. -/
theorem start_eq_restart (setup : Setup) (env : Surroundings) (store : Store) (disk : Disk) :
    start setup env store disk = turn setup { mailbox := { store }, disk } (.restart env) := rfl

theorem items_disk_turn (setup : Setup) (s : History) (t : Turn) :
    (s.turn setup t).disk.items = s.disk.items ∨
      (s.turn setup t).disk.items = (s.turn setup t).mailbox.index.items := by
  obtain ⟨log, -, hdisk, hlists⟩ := turn_writes setup s t
  rw [hdisk, Disk.items_after]
  rcases hlists with h | h
  · exact .inl (by simp [h])
  · exact .inr (by simp [h])

theorem nodup_disk_turn (hv : s.mailbox.index.Valid) (hn : (s.disk.items.map Item.hash).Nodup)
    (t : Turn) : ((s.turn setup t).disk.items.map Item.hash).Nodup := by
  rcases items_disk_turn setup s t with h | h
  · exact h ▸ hn
  · exact h ▸ (valid_turn hv t).nodup

theorem nodup_disk_run (hv : s.mailbox.index.Valid) (hn : (s.disk.items.map Item.hash).Nodup)
    (turns : List Turn) : ((s.run setup turns).disk.items.map Item.hash).Nodup := by
  induction turns generalizing s with
  | nil => exact hn
  | cons t turns ih => exact ih (valid_turn hv t) (nodup_disk_turn hv hn t)

/-- A mailbox that starts from a list without duplicates marks what it leaves out. -/
theorem disk_restore (setup : Setup) {env : Surroundings} (store : Store) {disk : Disk}
    (henv : env.Writes) (hn : (disk.items.map Item.hash).Nodup) :
    let m := Mailbox.restore setup env store disk.items disk.ledger
    disk.after m.log = m.toDisk := by
  intro m
  let m₀ : Mailbox :=
    { store
      index := Index.ofList disk.items env.now setup.ttl
      ledger := disk.ledger.prune env.now setup.ttl
      itemsChanged := 0 < Index.countExpired disk.items env.now setup.ttl
      ledgerChanged := (disk.ledger.prune env.now setup.ttl).size < disk.ledger.size }
  have hitems : m₀.itemsChanged = true ∨ m₀.index.items = disk.items := by
    refine (Classical.em _).imp_right fun h => ?_
    have hcount : Index.countExpired disk.items env.now setup.ttl = 0 := by simpa [m₀] using h
    rw [Index.items_ofList hn, List.filter_eq_self]
    intro item hi
    simpa using List.countP_eq_zero.1 hcount item hi
  have hledger : m₀.ledgerChanged = true ∨ m₀.ledger = disk.ledger :=
    (Classical.em _).imp_right fun h => Ledger.prune_eq_of_size (by simpa [m₀] using h)
  exact Disk.after_writes_eq_toDisk henv hitems hledger

theorem disk_turn (hv : s.mailbox.index.Valid) (hd : s.disk = s.mailbox.toDisk) {t : Turn}
    (ht : t.Writes) : (s.turn setup t).disk = (s.turn setup t).mailbox.toDisk := by
  cases t with
  | overlay change => exact hd
  | restart env => exact disk_restore setup s.mailbox.store ht (by rw [hd]; exact hv.nodup)
  | event env ev =>
    obtain ⟨m', m, h, hf, hturn⟩ := turn_event setup s env ev
    have hwritten : written m'.log = [] := h.written
    rw [hturn]
    cases hf with
    | stopped _ hindex hledger =>
      rw [Disk.after_eq_of_written hwritten, hd, Mailbox.toDisk, Mailbox.toDisk, hindex, hledger]
    | flushed =>
      rw [Mailbox.log_flush, Disk.after_append, Disk.after_eq_of_written hwritten, hd]
      exact Disk.after_writes_eq_toDisk ht h.items_or_changed h.ledger_or_changed

/-- While all writes succeed, the disk mirrors the mailbox. -/
theorem disk_run (hv : s.mailbox.index.Valid) (hd : s.disk = s.mailbox.toDisk) {turns : List Turn}
    (ht : ∀ t ∈ turns, t.Writes) :
    (s.run setup turns).disk = (s.run setup turns).mailbox.toDisk := by
  induction turns generalizing s with
  | nil => exact hd
  | cons t turns ih =>
    obtain ⟨ht, hts⟩ := List.forall_mem_cons.1 ht
    exact ih (valid_turn hv t) (disk_turn hv hd ht) hts

theorem written_log_turn (setup : Setup) (s : History) (t : Turn) :
    let m := (s.turn setup t).mailbox
    (written m.log).Sublist [.wroteItems m.index.items, .wroteLedger m.ledger] := by
  have flushed (env : Surroundings) (m : Mailbox) (h : written m.log = []) :
      (written (m.flush env).log).Sublist [.wroteItems m.index.items, .wroteLedger m.ledger] := by
    rw [Mailbox.log_flush, written_append, h, List.nil_append, Mailbox.writes]
    split <;> split <;> simp [written, List.filter_cons, Effect.isWrite]
  cases t with
  | overlay change => exact List.nil_sublist _
  | restart env => exact flushed env _ rfl
  | event env ev =>
    obtain ⟨m', m, h, hf, hturn⟩ := turn_event setup s env ev
    have hwritten : written m'.log = [] := h.written
    rw [hturn]
    cases hf with
    | stopped => exact hwritten ▸ List.nil_sublist _
    | flushed => exact flushed env m' hwritten

end History

theorem Disk.Left.nodup {mine : Setup → Prop} {disk : Disk} (h : disk.Left mine) :
    (disk.items.map Item.hash).Nodup := by
  induction h with
  | blank => exact List.nodup_nil
  | written env store turns _ _ ih =>
    rw [History.start_eq_restart, ← History.run_cons]
    exact History.nodup_disk_run (Index.valid_ofList [] env.now 0) ih _

namespace History

theorem written_log_run (setup : Setup) (env : Surroundings) (store : Store) (disk : Disk)
    (turns : List Turn) :
    let m := ((start setup env store disk).run setup turns).mailbox
    (written m.log).Sublist [.wroteItems m.index.items, .wroteLedger m.ledger] := by
  rw [start_eq_restart, ← run_cons]
  rcases List.eq_nil_or_concat turns with rfl | ⟨before, t, rfl⟩
  · exact written_log_turn setup { mailbox := { store }, disk } (.restart env)
  · rw [List.concat_eq_append, ← List.cons_append, run_append]
    exact written_log_turn setup _ t

/-- Over any history in which all writes succeed, started from what earlier mailboxes have left on
disk: after every turn the disk holds the items of the index and the ledger, and the turn has
written each at most once. Whoever reads the disk back, whenever, gets a valid index of the items
that have not outlived their time, in the same order and under each uid in the same order, shows
under each uid the first that has not outlived its time, and gets the ledger without the uids that
have outlived theirs. -/
theorem restart_keeps_unexpired (setup : Setup) (env : Surroundings) (store : Store) (disk : Disk)
    (turns : List Turn) (hdisk : disk.Left fun _ => True) (henv : env.Writes)
    (hturns : ∀ t ∈ turns, t.Writes) :
    let s := (start setup env store disk).run setup turns
    (s.disk.items = s.mailbox.index.items ∧ s.disk.ledger = s.mailbox.ledger) ∧
    (written s.mailbox.log).Sublist
      [.wroteItems s.mailbox.index.items, .wroteLedger s.mailbox.ledger] ∧
    ∀ (setup' : Setup) (env' : Surroundings) (store' : Store),
      let m := Mailbox.restore setup' env' store' s.disk.items s.disk.ledger
      let kept (created : Timestamp) : Bool :=
        env'.now.millis.toNat - created.millis.toNat ≤ setup'.ttl.toNat
      m.index.Valid ∧
      m.index.items = s.mailbox.index.items.filter (fun item => kept item.entry.created) ∧
      (∀ uid, m.index.under uid = (s.mailbox.index.under uid).filter fun item =>
        kept item.entry.created) ∧
      (∀ uid, s.mailbox.index.shown uid = (s.mailbox.index.under uid).head? ∧
        m.index.shown uid = (s.mailbox.index.under uid).find? fun item => kept item.entry.created) ∧
      ∀ uid, m.ledger.data.get? uid = (s.mailbox.ledger.data.get? uid).filter kept := by
  intro s
  have hstart := valid_start setup env store disk
  have hvalid : s.mailbox.index.Valid := valid_run hstart turns
  have hd : s.disk = s.mailbox.toDisk :=
    disk_run hstart (disk_restore setup store henv hdisk.nodup) hturns
  have hitems : s.disk.items = s.mailbox.index.items := congrArg Disk.items hd
  have hledger : s.disk.ledger = s.mailbox.ledger := congrArg Disk.ledger hd
  refine ⟨⟨hitems, hledger⟩, written_log_run setup env store disk turns,
    fun setup' env' store' => ?_⟩
  intro m kept
  have hkept : kept = fun created => !created.isExpired env'.now setup'.ttl :=
    funext fun created => (created.not_isExpired env'.now setup'.ttl).symm
  have hm : m.index.Valid := Index.valid_ofList _ _ _
  have hrestored :
      m.index.items = s.mailbox.index.items.filter fun item => kept item.entry.created := by
    rw [hkept, ← hitems]
    exact Index.items_ofList (hitems ▸ hvalid.nodup) env'.now setup'.ttl
  have hunder (uid : String) : m.index.under uid =
      (s.mailbox.index.under uid).filter fun item => kept item.entry.created := by
    rw [Index.under_eq hm, Index.under_eq hvalid, Index.filed, Index.filed, hrestored,
      List.filter_comm]
  refine ⟨hm, hrestored, hunder, fun uid => ⟨Index.shown_eq hvalid uid, ?_⟩, fun uid => ?_⟩
  · rw [Index.shown_eq hm, hunder, List.head?_filter]
  · rw [hkept, ← hledger]
    exact SortedMap.get?_filter _ _ uid

end History

end SealedMail

namespace SealedMail.History

attribute [local instance] Suite.transparent

open Transparent

/-- No removal can be signed. -/
def unsigned (now : UInt64) : Surroundings :=
  { online now with access := { signingFails := fun _ => true } }

/-- A letter is added that was made at some time. -/
def posted (sender recipient : KeyRing) (uid : String) (created : UInt64) : Turn :=
  .overlay fun s =>
    s.serve (.add { entry sender recipient (letter uid) 1 with created := ⟨created⟩ })

/-- Three letters are received, two of them under one uid, and a letter to another ring is ignored.
The two are to be removed, but no removal can be signed: they stay, behind the third. -/
def earlier : List Turn :=
  [posted (ring 1) (ring 2) "u" 0, posted (ring 4) (ring 2) "u" 600,
    posted (ring 1) (ring 2) "v" 300, posted (ring 1) (ring 5) "f" 300,
    .event (unsigned 900) (.command .bootstrap), .event (unsigned 900) (.batch 0),
    .event (unsigned 900) (.command (.remove ⟨.mailbox (letter "u"), (ring 1).signatureKey⟩))]

def leftBehind : Disk :=
  ((start Transparent.setup (unsigned 900) (.ofCapacity 8 (.sufficient 1)) ⟨[], ⟨.empty⟩⟩).run
    Transparent.setup earlier).disk

/-- One more letter is received. -/
def later : List Turn :=
  [posted (ring 1) (ring 2) "w" 1000, .event (online 1000) (.command .bootstrap)]

/-- A mailbox goes on with what an earlier one has left. Read back at 1300, the first letter under
the uid has outlived its time, so the second is shown; the letter and the uid of 300 are at the
limit, and are kept. -/
theorem letters_read_back :
    let s := (start Transparent.setup (online 1000) (.ofCapacity 8 (.sufficient 1)) leftBehind).run
      Transparent.setup later
    let m := Mailbox.restore Transparent.setup (online 1300) {} s.disk.items s.disk.ledger
    let times (items : List Item) := items.map fun item => item.entry.created.millis.toNat
    leftBehind.Left (fun _ => True) ∧ (online 1000).Writes ∧ (∀ t ∈ later, t.Writes) ∧
      s.disk.items = s.mailbox.index.items ∧
      m.index.items = s.mailbox.index.items.filter (fun item =>
        decide ((online 1300).now.millis.toNat - item.entry.created.millis.toNat ≤
          Transparent.setup.ttl.toNat)) ∧
      times s.disk.items = [300, 0, 600, 1000] ∧ times m.index.items = [300, 600, 1000] ∧
      times (s.mailbox.index.shown "u").toList = [0] ∧ times (m.index.shown "u").toList = [600] ∧
      m.ledger.contains "f" = true := by
  have hleft : leftBehind.Left fun _ => True :=
    .written (unsigned 900) (.ofCapacity 8 (.sufficient 1)) earlier trivial .blank
  have hlater : ∀ t ∈ later, t.Writes := by
    simp [later, posted, Turn.Writes, Surroundings.Writes, online]
  have hread := restart_keeps_unexpired Transparent.setup (online 1000)
    (.ofCapacity 8 (.sufficient 1)) leftBehind later hleft ⟨rfl, rfl⟩ hlater
  refine ⟨hleft, ⟨rfl, rfl⟩, hlater, hread.1.1,
    (hread.2.2 Transparent.setup (online 1300) {}).2.1, ?_⟩
  decide +kernel

end SealedMail.History
