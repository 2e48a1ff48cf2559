import Mathlib.Data.List.Forall2
import SealedMail.Proofs.Crypto.Transparent
import SealedMail.Proofs.Mailbox.Presentation
import SealedMail.Proofs.Mailbox.Recovery

/-!
# The schedule of batches

Several entries that are taken in wait as a batch in a queue. No more batches are open at a time
than `maxBatches`, and as long as fewer are, none waits (`Mailbox.Greedy`): whenever one comes or
one is done, others are handed over from the front of the queue, without what is not new any more,
and those of which nothing is left take no slot. So batches are opened in the order in which they
came: `batches_scheduled`.
-/

namespace SealedMail

theorem sublistForall₂_append {α β : Type} {r : α → β → Prop} {as as' : List α} {bs bs' : List β}
    (h : List.SublistForall₂ r as bs) (h' : List.SublistForall₂ r as' bs') :
    List.SublistForall₂ r (as ++ as') (bs ++ bs') := by
  obtain ⟨cs, hcs, hsub⟩ := List.sublistForall₂_iff.1 h
  obtain ⟨cs', hcs', hsub'⟩ := List.sublistForall₂_iff.1 h'
  exact List.sublistForall₂_iff.2 ⟨cs ++ cs', List.rel_append hcs hcs', hsub.append hsub'⟩

namespace Mailbox

variable [Suite] {setup : Setup} {env : Surroundings} {m m' : Mailbox} {ev : Event}

/-! ## One event -/

/-- No more batches are open than may be, and a batch waits only while no more may be. -/
structure Greedy (setup : Setup) (m : Mailbox) : Prop where
  bounded : m.running.length ≤ max setup.maxBatches 1
  busy : m.queued ≠ [] → m.running.length = max setup.maxBatches 1

/-- The batch that an event puts at the end of the queue. -/
def enqueued (env : Surroundings) (m : Mailbox) (ev : Event) : List (List Entry) :=
  if 1 < (m.taken env ev).length then [m.taken env ev] else []

omit [Suite] in
/-- The batches that go on being opened. -/
def unfinished (m : Mailbox) : Event → List (List Entry)
  | .batch i => m.running.eraseIdx i
  | _ => m.running

omit [Suite] in
theorem sublistForall₂_pruned (isNew : Entry → Bool) (batches : List (List Entry)) :
    List.SublistForall₂ (fun begun batch => begun ≠ [] ∧ begun.Sublist batch)
      (pruned isNew batches) batches := by
  induction batches with
  | nil => exact .nil
  | cons batch batches ih =>
    rw [pruned, List.map_cons, List.filter_cons]
    split
    · next hne => exact .cons ⟨of_decide_eq_true hne, List.filter_sublist⟩ ih
    · exact .cons_right ih

/-- Where batches go: some come, others leave the queue at its front, and what is still new in these
is opened. -/
structure Schedules (came rest left : List (List Entry)) (m m' : Mailbox) : Prop where
  queued : m.queued ++ came = left ++ m'.queued
  running : m'.running = rest ++ pruned m'.isNew left

theorem dispatch_schedules (hbounded : m.running.length ≤ max setup.maxBatches 1) :
    (dispatch setup m).Greedy setup ∧ ∃ left, Schedules [] m.running left m (dispatch setup m) := by
  obtain ⟨left, hqueue, hgiven, hlength, hfull⟩ :=
    hand_spec m.isNew (max setup.maxBatches 1 - m.running.length) m.queued
  have hrunning : (dispatch setup m).running =
      m.running ++ (hand m.isNew (max setup.maxBatches 1 - m.running.length) m.queued).1 := rfl
  refine ⟨⟨?_, fun hwaiting => ?_⟩, left, ?_, ?_⟩
  · rw [hrunning, List.length_append]
    omega
  · rw [hrunning, List.length_append, hfull hwaiting]
    omega
  · rw [List.append_nil]
    exact hqueue
  · rw [hrunning, hgiven]
    rfl

theorem Greedy.still (h : m.Greedy setup) (hqueued : m'.queued = m.queued)
    (hrunning : m'.running = m.running) :
    m'.Greedy setup ∧ ∃ left, Schedules [] m.running left m m' :=
  ⟨⟨hrunning ▸ h.bounded, hrunning ▸ hqueued ▸ h.busy⟩,
    [], by simp [hqueued], by simp [hrunning, pruned]⟩

theorem Greedy.handle (h : m.Greedy setup) (env : Surroundings) (ev : Event) :
    (m.handle setup env ev).Greedy setup ∧
      ∃ left, Schedules (m.enqueued env ev) (m.unfinished ev) left m (m.handle setup env ev) := by
  by_cases hbatch : ∃ i, ev = .batch i
  · obtain ⟨i, rfl⟩ := hbatch
    have hcame : m.enqueued env (.batch i) = [] := by
      rw [enqueued, taken_of_shown_nil rfl]
      rfl
    rw [hcame]
    cases hb : m.running[i]? with
    | none =>
      have hsame : m.handle setup env (.batch i) = m := by
        simp only [Mailbox.handle, handleBatch, hb]
      have hnone : m.unfinished (.batch i) = m.running :=
        List.eraseIdx_of_length_le (List.getElem?_eq_none_iff.1 hb)
      rw [hsame, hnone]
      exact h.still rfl rfl
    | some batch =>
      obtain ⟨m₁, -, hopens, hhandle⟩ := handle_batch setup env hb
      have hqueued : m₁.queued = m.queued := hopens.queued
      have hrunning : m₁.running = m.unfinished (.batch i) := hopens.running
      have hbounded : m₁.running.length ≤ max setup.maxBatches 1 := by
        rw [hopens.running]
        exact Nat.le_trans (List.length_eraseIdx_le m.running i) h.bounded
      obtain ⟨hgreedy, left, hleft⟩ := dispatch_schedules hbounded
      rw [hhandle]
      exact ⟨hgreedy, left, hqueued ▸ hleft.queued, hrunning ▸ hleft.running⟩
  · have hrest : m.unfinished ev = m.running := by
      cases ev with
      | batch i => exact absurd ⟨i, rfl⟩ hbatch
      | _ => rfl
    have hcame (hone : (m.taken env ev).length ≤ 1) : m.enqueued env ev = [] :=
      if_neg (Nat.not_lt.2 hone)
    rw [hrest]
    have hproceeds := handle_proceeds setup env m ev
    generalize m.handle setup env ev = m' at hproceeds
    cases hproceeds with
    | still htaken _ hopens =>
      rw [hcame (by simp [htaken])]; exact h.still hopens.queued hopens.running
    | breaks htaken _ hopens _ =>
      rw [hcame (by simp [htaken])]; exact h.still hopens.queued hopens.running
    | lone htaken _ hopens =>
      rw [hcame (by simp [htaken])]; exact h.still hopens.queued hopens.running
    | done => exact absurd ⟨_, rfl⟩ hbatch
    | cleared hremoval hcleared _ =>
      rw [hcame (by simp [taken_of_shown_nil (shown_of_isRemoval hremoval)])]
      exact h.still hcleared.queued hcleared.running
    | @waits _ m₁ hseveral _ hopens =>
      have hone : m.enqueued env ev = [m.taken env ev] := if_pos hseveral
      have hqueued : m₁.queued = m.queued ++ m.enqueued env ev := hone ▸ hopens.queued
      have hrunning : m₁.running = m.running := hopens.running
      have hbounded : m₁.running.length ≤ max setup.maxBatches 1 := hrunning ▸ h.bounded
      obtain ⟨hgreedy, left, hleft⟩ := dispatch_schedules hbounded
      refine ⟨hgreedy, left, ?_, hrunning ▸ hleft.running⟩
      rw [← hqueued, ← hleft.queued, List.append_nil]

theorem Greedy.step (h : m.Greedy setup) (env : Surroundings) (ev : Event)
    (hm : m.stopped = false) : (m.step setup env ev).Greedy setup ∧
      ∃ left, Schedules (m.enqueued env ev) (m.unfinished ev) left m (m.step setup env ev) := by
  have hstep : m.step setup env ev =
      if (m.handle setup env ev).stopped then m.handle setup env ev
          else (m.handle setup env ev).flush env := by
    simp [Mailbox.step, hm]
  rw [hstep]
  split
  · exact h.handle env ev
  · obtain ⟨hgreedy, left, hleft⟩ := h.handle env ev
    exact ⟨⟨hgreedy.bounded, hgreedy.busy⟩, left, hleft.queued, hleft.running⟩

end Mailbox

namespace History

variable [Suite] {setup : Setup} {s : History} {t : Turn} {turns : List Turn}

/-! ## One turn -/

/-- The batch that a turn puts at the end of the queue. -/
def enqueued (s : History) : Turn → List (List Entry)
  | .event env ev => if s.mailbox.stopped then [] else s.mailbox.enqueued env ev
  | _ => []

omit [Suite] in
/-- The batches that go on being opened in a turn. -/
def unfinished (s : History) : Turn → List (List Entry)
  | .event _ ev => if s.mailbox.stopped then s.mailbox.running else s.mailbox.unfinished ev
  | _ => s.mailbox.running

/-- The batches that a turn begins to open. -/
def begun (setup : Setup) (s : History) (t : Turn) : List (List Entry) :=
  (s.turn setup t).mailbox.running.drop (s.unfinished t).length

theorem turn_schedules (h : s.mailbox.Greedy setup) (ht : t.Runs) :
    (s.turn setup t).mailbox.Greedy setup ∧ ∃ left,
      Mailbox.Schedules (s.enqueued t)
        (s.unfinished t) left s.mailbox (s.turn setup t).mailbox := by
  cases t with
  | restart env => exact ht.elim
  | overlay change => exact h.still rfl rfl
  | event env ev =>
    rw [enqueued, unfinished]
    cases hs : s.mailbox.stopped with
    | true =>
      rw [(turn_of_stopped setup hs env ev).1]
      exact h.still rfl rfl
    | false =>
      have hcleared : Mailbox.Greedy setup { s.mailbox with log := [] } := ⟨h.bounded, h.busy⟩
      obtain ⟨hgreedy, left, hleft⟩ := hcleared.step env ev hs
      exact ⟨hgreedy, left, hleft.queued, hleft.running⟩

/-- What a turn begins to open is what is still new in the batches that leave the queue. -/
theorem begun_eq {left : List (List Entry)}
    (h : Mailbox.Schedules (s.enqueued t) (s.unfinished t) left s.mailbox
      (s.turn setup t).mailbox) :
    s.begun setup t = Mailbox.pruned (s.turn setup t).mailbox.isNew left := by
  rw [begun, h.running, List.drop_left]

/-! ## Whole runs -/

theorem greedy_start (setup : Setup) (env : Surroundings) (store : Store) (disk : Disk) :
    (start setup env store disk).mailbox.Greedy setup := ⟨Nat.zero_le _, fun h => absurd rfl h⟩

theorem greedy_run (h : s.mailbox.Greedy setup) (turns : List Turn) :
    (s.run setup turns).mailbox.Greedy setup := by
  induction turns generalizing s with
  | nil => exact h
  | cons t turns ih =>
    by_cases ht : t.Runs
    · exact ih (turn_schedules h ht).1
    · cases t with
      | restart env => exact ih ⟨Nat.zero_le _, fun h => absurd rfl h⟩
      | _ => exact absurd trivial ht

/-- Over any turns batches leave the queue in the order in which they came, and are opened in that
order. -/
theorem run_schedules (h : s.mailbox.Greedy setup) (hts : ∀ t ∈ turns, t.Runs) :
    ∃ left, s.mailbox.queued ++ traced setup enqueued s turns = left ++
      (s.run setup turns).mailbox.queued ∧
      List.SublistForall₂ (fun begun batch => begun ≠ [] ∧ begun.Sublist batch)
        (traced setup (begun setup) s turns) left := by
  induction turns generalizing s with
  | nil => exact ⟨[], by simp [traced], .nil⟩
  | cons t turns ih =>
    obtain ⟨ht, hts⟩ := List.forall_mem_cons.1 hts
    obtain ⟨hgreedy, first, hfirst⟩ := turn_schedules h ht
    obtain ⟨later, hqueued, hlater⟩ := ih hgreedy hts
    refine ⟨first ++ later, ?_, ?_⟩
    · rw [traced, ← List.append_assoc, hfirst.queued, List.append_assoc, hqueued,
        List.append_assoc, run_cons]
    · rw [traced, begun_eq hfirst]
      exact sublistForall₂_append (Mailbox.sublistForall₂_pruned _ first) hlater

/-- In every run no more batches are open than may be (one if none may be), and a batch waits only
while that many are. In each turn batches leave the queue at its front, what is new in them by the
end of the turn is opened from then on, and nothing at all is handed over that is indexed or has an
ignored uid. So over any turns without a restart the batches are opened in the order in which they
came, but for those of which nothing is left. -/
theorem batches_scheduled (setup : Setup) (env : Surroundings) (store : Store) (disk : Disk)
    (turns : List Turn) :
    let s := (start setup env store disk).run setup turns
    (s.mailbox.running.length ≤ max setup.maxBatches 1 ∧
      (s.mailbox.queued ≠ [] → s.mailbox.running.length = max setup.maxBatches 1)) ∧
    (∀ t : Turn, t.Runs →
      (∃ left, s.mailbox.queued ++ s.enqueued t = left ++ (s.turn setup t).mailbox.queued ∧
        s.begun setup t = Mailbox.pruned (s.turn setup t).mailbox.isNew left ∧
        (s.turn setup t).mailbox.running = s.unfinished t ++ s.begun setup t) ∧
      ∀ e ∈ s.handedOver setup t, s.mailbox.index.contains e.hash = false ∧
        s.mailbox.ledger.contains e.uid = false) ∧
    ∀ before during, turns = before ++ during → (∀ t ∈ during, t.Runs) →
      let s₀ := (start setup env store disk).run setup before
      ∃ left, s₀.mailbox.queued ++ traced setup enqueued s₀ during = left ++ s.mailbox.queued ∧
        List.SublistForall₂ (fun begun batch => begun ≠ [] ∧ begun.Sublist batch)
          (traced setup (begun setup) s₀ during) left := by
  intro s
  have hgreedy (turns : List Turn) :
      ((start setup env store disk).run setup turns).mailbox.Greedy setup :=
    greedy_run (greedy_start setup env store disk) turns
  refine ⟨⟨(hgreedy turns).bounded, (hgreedy turns).busy⟩, fun t ht => ⟨?_, fun e he => ?_⟩, ?_⟩
  · obtain ⟨-, left, hleft⟩ := turn_schedules (hgreedy turns) ht
    refine ⟨left, hleft.queued, begun_eq hleft, ?_⟩
    rw [begun_eq hleft]
    exact hleft.running
  · have hnew := isNew_of_mem_handedOver he
    rw [Mailbox.isNew, Bool.and_eq_true, Bool.not_eq_true', Bool.not_eq_true'] at hnew
    exact hnew.symm
  · intro before during hturns hruns s₀
    have hrun : s = s₀.run setup during := by rw [← run_append, ← hturns]
    rw [hrun]
    exact run_schedules (hgreedy before) hruns

end History

/-! ## A schedule -/

namespace History

open Transparent

attribute [local instance] Suite.transparent

/-- A letter comes to the overlay. -/
def lodged (uid : String) (sequence : UInt32) : Turn :=
  .overlay fun s => s.serve (.add (entry (ring 1) (ring 2) (letter uid) sequence))

/-- Two letters are stored when the mailbox is bootstrapped. -/
def stocked : List Turn := [lodged "u" 1, lodged "v" 1, .event (online 0) (.command .bootstrap)]

/-- The mailbox falls behind three times, then two batches are done. -/
def lagging : List Turn :=
  [lodged "w" 1, lodged "x" 1, .event (online 0) .notice, lodged "w" 2, .event (online 0) .notice,
    lodged "y" 1, lodged "z" 1, .event (online 0) .notice, .event (online 0) (.batch 0),
    .event (online 0) (.batch 0)]

/-- The second batch waits until the first one is done, and loses the letters that the first one
brought. Of the third nothing is left then, and the fourth takes its slot. -/
theorem emptied_batch_passed_over :
    let setup := Transparent.setup
    let first := start setup (online 0) (.ofCapacity 1 (.sufficient 1)) ⟨[], ⟨.empty⟩⟩
    let s₀ := first.run setup stocked
    let s := first.run setup (stocked ++ lagging)
    let t := Turn.event (online 0) (.batch 0)
    ((∀ t ∈ lagging, t.Runs) ∧ t.Runs) ∧
      ((traced setup enqueued s₀ lagging).map (List.map Entry.uid) =
          [["u", "x", "w", "v"], ["u", "x", "w", "v"], ["u", "z", "y", "x", "w", "v"]] ∧
        (traced setup (begun setup) s₀ lagging).map (List.map Entry.uid) =
          [["x", "w"], ["z", "y"]] ∧
        s.mailbox.running.map (List.map Entry.uid) = [["z", "y"]] ∧ s.mailbox.queued = []) ∧
      s.mailbox.running.length ≤ max setup.maxBatches 1 ∧
      (∃ left, s.mailbox.queued ++ s.enqueued t = left ++ (s.turn setup t).mailbox.queued ∧
        s.begun setup t = Mailbox.pruned (s.turn setup t).mailbox.isNew left ∧
        (s.turn setup t).mailbox.running = s.unfinished t ++ s.begun setup t) ∧
      ∃ left, s₀.mailbox.queued ++ traced setup enqueued s₀ lagging = left ++ s.mailbox.queued ∧
        List.SublistForall₂ (fun begun batch => begun ≠ [] ∧ begun.Sublist batch)
          (traced setup (begun setup) s₀ lagging) left := by
  have hruns : ∀ t ∈ lagging, t.Runs := by simp [lagging, lodged, Turn.Runs]
  obtain ⟨⟨hbounded, -⟩, hturn, hrun⟩ := batches_scheduled Transparent.setup (online 0)
    (.ofCapacity 1 (.sufficient 1)) ⟨[], ⟨.empty⟩⟩ (stocked ++ lagging)
  exact ⟨⟨hruns, trivial⟩, by decide +kernel, hbounded,
    (hturn (.event (online 0) (.batch 0)) trivial).1, hrun stocked lagging rfl hruns⟩

end History

end SealedMail
