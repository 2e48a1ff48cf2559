import SealedMail.Proofs.Mailbox.Event
import SealedMail.Proofs.Overlay.Request

/-!
# Consistent mailboxes

What holds of every mailbox that was started on an orderly store, whatever it handles and whatever
others ask of the store: its index is valid, it has a place in the feed exactly since it was
bootstrapped, nothing waits before, and whatever waits in its batches has a recorded number.
-/

namespace SealedMail.Mailbox

/-- A mailbox that is bootstrapped has a place in the feed. -/
def Placed (m : Mailbox) : Prop :=
  m.bootstrapped = true → ∃ place, m.place = some place ∧ place ≤ m.store.feed.history.length

/-- A mailbox that is not bootstrapped reads nothing and opens nothing. -/
def Asleep (m : Mailbox) : Prop :=
  m.bootstrapped = false → m.place = none ∧ m.queued = [] ∧ m.running = []

variable [Suite]

structure Consistent (m : Mailbox) : Prop where
  valid : m.index.Valid
  orderly : m.store.Orderly
  placed : m.Placed
  asleep : m.Asleep
  recorded : ∀ e ∈ m.pending, m.store.sequences.contains e.hash = true

variable {setup : Setup} {env : Surroundings} {m m' : Mailbox} {ev : Event}

theorem Handled.placed (h : Handled setup env m ev m') (hopen : m.store.feed.closed = false)
    (hp : m.Placed) : m'.Placed := by
  have hlen := h.reduced.length_history_le
  intro hb
  cases h with
  | idle => exact hp hb
  | bootstrap hb' =>
    exact ⟨_, takeIn_place setup env m.subscribe _, hlen⟩
  | change place next c hpl hr =>
    refine ⟨next, takeIn_place setup env { m with place := some next } _, Nat.le_trans ?_ hlen⟩
    rcases Feed.read?_cases hopen hr with ⟨hn, -, -⟩ | ⟨c', -, hc, rfl⟩
    · cases hn
    · exact (List.getElem?_eq_some_iff.1 hc).1
  | lagged place next hpl hr =>
    refine ⟨next, takeIn_place setup env { m with place := some next } _, Nat.le_trans ?_ hlen⟩
    rcases Feed.read?_cases hopen hr with ⟨-, rfl, -⟩ | ⟨c', hn, -, -⟩
    · exact Nat.sub_le _ _
    · cases hn
  | closed place next hpl hr =>
    rcases Feed.read?_cases hopen hr with ⟨hn, -, -⟩ | ⟨c', hn, -, -⟩ <;> cases hn
  | lost => exact (hp hb).imp fun _ h => ⟨h.1, Nat.le_trans h.2 hlen⟩
  | batch i batch hb' _ =>
    have hf := openAll_frame setup env { m with running := m.running.eraseIdx i } batch
    obtain ⟨place, hpl, hle⟩ := hp (hf.bootstrapped.symm.trans hb)
    exact ⟨place, hf.place.trans hpl, Nat.le_trans hle hlen⟩
  | cleared uid _ _ hev hc =>
    obtain ⟨place, hpl, hle⟩ := hp (hc.bootstrapped.symm.trans hb)
    exact ⟨place, hc.place.trans hpl, Nat.le_trans hle hlen⟩

/-- A mailbox that stays asleep goes on reading and opening nothing, and nothing enters its
index. -/
theorem Handled.of_asleep (h : Handled setup env m ev m') (ha : m.Asleep) (hv : m.index.Valid)
    (hb : m'.bootstrapped = false) : (m'.place = none ∧ m'.queued = [] ∧ m'.running = []) ∧
      ∀ hash, m'.index.contains hash = true → m.index.contains hash = true := by
  cases h with
  | idle => exact ⟨ha hb, fun _ hc => hc⟩
  | bootstrap hb' =>
    exact absurd (hb.symm.trans (takeIn_bootstrapped setup env m.subscribe _)) Bool.false_ne_true
  | change place next c hp hr =>
    rw [takeIn_bootstrapped] at hb
    exact nomatch hp.symm.trans (ha hb).1
  | lagged place next hp hr =>
    rw [takeIn_bootstrapped] at hb
    exact nomatch hp.symm.trans (ha hb).1
  | closed place next hp hr => exact nomatch hp.symm.trans (ha hb).1
  | lost i batch hr hf =>
    rw [(ha hb).2.2] at hr
    cases hr
  | batch i batch hr _ =>
    have hf := openAll_frame setup env { m with running := m.running.eraseIdx i } batch
    rw [(ha (hf.bootstrapped.symm.trans hb)).2.2] at hr
    cases hr
  | cleared uid _ _ hev hc =>
    rw [hc.place, hc.queued, hc.running]
    exact ⟨ha (hc.bootstrapped.symm.trans hb), fun _ => hc.contains hv⟩

/-- Whatever a consistent mailbox knows has a recorded number. -/
theorem Consistent.contains_sequences {e : Entry} (h : m.Consistent) (he : Known m e) :
    m.store.sequences.contains e.hash = true := by
  cases he with
  | pending he => exact h.recorded e he
  | stored he => exact h.orderly.stored e he
  | published c hc he => exact h.orderly.published c hc e he

theorem Handled.consistent (h : Handled setup env m ev m') (hm : m.Consistent) : m'.Consistent where
  valid := h.valid hm.valid
  orderly := h.reduced.orderly hm.orderly
  placed := h.placed hm.orderly.opened hm.placed
  asleep hb := (h.of_asleep hm.asleep hm.valid hb).1
  recorded _ he := h.reduced.sequences _ (hm.contains_sequences (h.known he))

theorem Flushed.consistent {m'' : Mailbox} (h : Flushed env m m' m'') (hm : m'.Consistent) :
    m''.Consistent := by
  cases h with
  | stopped => exact hm
  | flushed => exact ⟨hm.valid, hm.orderly, hm.placed, hm.asleep, hm.recorded⟩

theorem Consistent.serve (h : m.Consistent) (r : Store.Request) :
    Consistent { m with store := m.store.serve r } := by
  have hserve := m.store.serve_cases r
  refine ⟨h.valid, h.orderly.serve r, ?_, h.asleep, ?_⟩
  · intro hb
    obtain ⟨place, hp, hle⟩ := h.placed hb
    refine ⟨place, hp, Nat.le_trans hle ?_⟩
    rcases hserve with hr | ⟨x, -, -, hfeed, -, -⟩
    · exact hr.length_history_le
    · simp only [hfeed, Feed.publish, List.length_append]
      exact Nat.le_add_right _ _
  · intro e he
    have hs := h.recorded e he
    rcases hserve with hr | ⟨x, -, -, -, hkept, -⟩
    · exact hr.sequences _ hs
    · exact hkept _ hs

theorem consistent_restore (setup : Setup) (env : Surroundings) {store : Store} (items : List Item)
    (ledger : Ledger) (h : store.Orderly) : (restore setup env store items ledger).Consistent where
  valid := Index.valid_ofList _ _ _
  orderly := h
  placed hb := absurd hb Bool.false_ne_true
  asleep _ := ⟨rfl, rfl, rfl⟩
  recorded _ he := absurd he List.not_mem_nil

end SealedMail.Mailbox
