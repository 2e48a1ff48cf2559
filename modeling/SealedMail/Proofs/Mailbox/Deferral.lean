import Mathlib.Data.List.Perm.Basic
import SealedMail.Proofs.Crypto.Transparent
import SealedMail.Proofs.Mailbox.Consistency
import SealedMail.Proofs.Mailbox.Presentation
import SealedMail.Proofs.Mailbox.Recovery

/-!
# Before the bootstrap

Before it is bootstrapped a mailbox does nothing but put off the removals it is asked for, each with
its own timer. The first signal bootstraps it, and the others change nothing. From then on a removal
whose time has come is carried out as if it were asked for at that moment. No request is lost and
none is carried out twice: `deferred_removals_carried_out`.
-/

namespace SealedMail

def Effect.isSubscription : Effect → Bool
  | .subscribed _ => true
  | _ => false

theorem Effect.isSubscription_of_isReaction {effect : Effect} (h : effect.isReaction = true) :
    effect.isSubscription = false := by
  cases effect <;> first | rfl | cases h

/-- How often some effects subscribe. -/
def subscriptions (effects : List Effect) : Nat := effects.countP Effect.isSubscription

theorem subscriptions_append (effects more : List Effect) :
    subscriptions (effects ++ more) = subscriptions effects + subscriptions more :=
  List.countP_append

namespace Mailbox

variable [Suite] {setup : Setup} {env : Surroundings} {m m' : Mailbox} {ev : Event}

/-! ## Removals that wait -/

/-- The removals that wait after an event. -/
def retriesAfter (setup : Setup) (env : Surroundings) (m : Mailbox) : Event → List Retry
  | .command (.remove opened) =>
    if m.bootstrapped then m.retries else m.retries ++ [⟨opened, env.seconds + setup.retryDelay⟩]
  | .retry i =>
    match m.retries[i]? with
    | none => m.retries
    | some retry =>
      if m.bootstrapped then m.retries.eraseIdx i
      else m.retries.eraseIdx i ++ [⟨retry.opened, env.seconds + setup.retryDelay⟩]
  | _ => m.retries

/-! ## Removals at work -/

/-- The same mailbox with other removals that wait. -/
def withRetries (m : Mailbox) (retries : List Retry) : Mailbox := { m with retries }

theorem removeFromStore_withRetries (setup : Setup) (env : Surroundings) (m : Mailbox)
    (retries : List Retry) (e : Entry) : removeFromStore setup env (m.withRetries retries) e =
      (removeFromStore setup env m e).map (withRetries · retries) := by
  unfold removeFromStore withRetries
  split
  · rfl
  · split
    · rfl
    · cases env.access.mint m.store e.payload setup.ring e.receiverKey env.now <;> rfl

theorem removeItem_withRetries (setup : Setup) (env : Surroundings) (m : Mailbox)
    (retries : List Retry) (item : Item) : removeItem setup env (m.withRetries retries) item =
      (removeItem setup env m item).withRetries retries := by
  unfold removeItem
  rw [removeFromStore_withRetries]
  cases removeFromStore setup env m item.entry <;> rfl

theorem foldl_removeItem_withRetries (setup : Setup) (env : Surroundings) (m : Mailbox)
    (retries : List Retry) (items : List Item) :
    items.foldl (removeItem setup env) (m.withRetries retries) =
      (items.foldl (removeItem setup env) m).withRetries retries := by
  induction items generalizing m with
  | nil => rfl
  | cons item items ih => rw [List.foldl_cons, List.foldl_cons, removeItem_withRetries, ih]

theorem remove_of_bootstrapped (setup : Setup) (env : Surroundings) (hb : m.bootstrapped = true)
    (opened : Opened) :
    m.remove setup env opened = match opened.message? with
      | none => m
      | some message =>
        if (m.index.removeUid message.uid).2.isEmpty then m
        else
          { (m.index.removeUid message.uid).2.foldl (removeItem setup env)
              { m with index := (m.index.removeUid message.uid).1 } with
            itemsChanged := true } := by
  unfold remove
  rw [hb]
  rfl

/-- A removal that is carried out does not depend on those that wait. -/
theorem remove_withRetries (setup : Setup) (env : Surroundings) (hb : m.bootstrapped = true)
    (retries : List Retry) (opened : Opened) :
    (m.withRetries retries).remove setup env opened =
      (m.remove setup env opened).withRetries retries := by
  have hb' : (m.withRetries retries).bootstrapped = true := hb
  rw [remove_of_bootstrapped setup env hb, remove_of_bootstrapped setup env hb']
  cases opened.message? with
  | none => rfl
  | some message =>
    have hindex : (m.withRetries retries).index = m.index := rfl
    have hfold := foldl_removeItem_withRetries setup env
      { m with index := (m.index.removeUid message.uid).1 } retries
      (m.index.removeUid message.uid).2
    simp only [hindex]
    split
    · rfl
    · exact congrArg (fun m : Mailbox => { m with itemsChanged := true }) hfold

/-! ## What an event leaves as it is -/

omit [Suite] in
/-- The removals that wait and the state of the bootstrap are the same, and nothing was subscribed
to. -/
structure Steady (m m' : Mailbox) : Prop where
  retries : m'.retries = m.retries
  bootstrapped : m'.bootstrapped = m.bootstrapped
  subscriptions : subscriptions m'.log = subscriptions m.log

omit [Suite] in
theorem Steady.refl (m : Mailbox) : Steady m m := ⟨rfl, rfl, rfl⟩

omit [Suite] in
theorem Steady.trans {m'' : Mailbox} (h : Steady m m') (h' : Steady m' m'') : Steady m m'' :=
  ⟨h'.retries.trans h.retries, h'.bootstrapped.trans h.bootstrapped,
    h'.subscriptions.trans h.subscriptions⟩

omit [Suite] in
theorem Reacts.subscriptions (h : Reacts m m') : subscriptions m'.log = subscriptions m.log := by
  obtain ⟨reactions, hlog, hreactions⟩ := h
  have hnone : SealedMail.subscriptions reactions = 0 := by
    exact List.countP_eq_zero.2 fun effect he => by
      simp [Effect.isSubscription_of_isReaction (hreactions effect he)]
  rw [hlog, subscriptions_append, hnone, Nat.add_zero]

theorem steady_openAll (setup : Setup) (env : Surroundings) (m : Mailbox) (es : List Entry) :
    Steady m (m.openAll setup env es) :=
  ⟨(openAll_frame setup env m es).retries, (openAll_frame setup env m es).bootstrapped,
    (reacts_openAll setup env m es).subscriptions⟩

theorem steady_dispatch (setup : Setup) (m : Mailbox) : Steady m (dispatch setup m) where
  retries := rfl
  bootstrapped := rfl
  subscriptions := by
    simp only [dispatch, logging, subscriptions_append]
    exact Nat.add_eq_left.2 (List.countP_eq_zero.2 (by simp [Effect.isSubscription]))

theorem steady_takeIn (setup : Setup) (env : Surroundings) (m : Mailbox)
    (stored : List StoredEntry) : Steady m (m.takeIn setup env stored) := by
  obtain ⟨es, ht, -⟩ := takeIn_cases setup env m stored
  generalize m.takeIn setup env stored = m' at ht
  cases ht with
  | nothing => exact .refl m
  | breaks => exact ⟨rfl, rfl, rfl⟩
  | single e =>
    have hlogged : Steady m (m.logging [.handed [e]]) :=
      ⟨rfl, rfl, by rw [logging, subscriptions_append]; rfl⟩
    exact hlogged.trans (steady_openAll setup env _ [e])
  | batch es =>
    have hqueued : Steady m { m with queued := m.queued ++ [es] } := ⟨rfl, rfl, rfl⟩
    exact hqueued.trans (steady_dispatch setup _)

theorem steady_remove (setup : Setup) (env : Surroundings) (hb : m.bootstrapped = true)
    (opened : Opened) : Steady m (m.remove setup env opened) := by
  refine ⟨?_, ?_, (reacts_remove setup env m opened).subscriptions⟩ <;>
  · rw [remove_of_bootstrapped setup env hb]
    split
    · rfl
    · split
      · rfl
      · obtain ⟨kept, removals, -, h⟩ := foldl_removeItem setup env _ _
        rw [h]
        rfl

/-- Whether an event bootstraps the mailbox. -/
def bootstraps (m : Mailbox) (ev : Event) : Bool := ev = .command .bootstrap && !m.bootstrapped

/-- The mailbox with the removals that wait after an event, subscribed if the event bootstraps
it. -/
def readied (setup : Setup) (env : Surroundings) (m : Mailbox) (ev : Event) : Mailbox :=
  (if m.bootstraps ev then m.subscribe else m).withRetries (m.retriesAfter setup env ev)

theorem steady_readied (h : m.bootstraps ev = false)
    (hretries : m'.retries = m.retriesAfter setup env ev) (hb : m'.bootstrapped = m.bootstrapped)
    (hlog : subscriptions m'.log = subscriptions m.log) :
    Steady (m.readied setup env ev) m' := by
  unfold readied
  rw [h]
  exact ⟨hretries, hb, hlog⟩

/-- All that an event does to the removals that wait and to the bootstrap is to get the mailbox
ready. -/
theorem steady_handle (setup : Setup) (env : Surroundings) (m : Mailbox) (ev : Event) :
    Steady (m.readied setup env ev) (m.handle setup env ev) := by
  cases ev with
  | command c =>
    cases c with
    | bootstrap =>
      cases hb : m.bootstrapped with
      | true =>
        have hsame : m.handle setup env (.command .bootstrap) = m := if_pos hb
        rw [hsame]
        exact steady_readied (by simp [bootstraps, hb]) rfl rfl rfl
      | false =>
        have hready : Steady (m.readied setup env (.command .bootstrap)) m.subscribe := by
          simp only [readied, bootstraps, hb]
          exact ⟨rfl, rfl, rfl⟩
        have hhandle : m.handle setup env (.command .bootstrap) =
            m.subscribe.takeIn setup env (env.access.snapshot m.store) := by
          simp only [handle, handleCommand, Mailbox.bootstrap, hb]
          rfl
        rw [hhandle]
        exact hready.trans (steady_takeIn setup env _ _)
    | remove opened =>
      cases hb : m.bootstrapped with
      | true =>
        exact (steady_readied rfl (by simp [retriesAfter, hb]) rfl rfl).trans
          (steady_remove setup env hb opened)
      | false =>
        have hhandle : m.handle setup env (.command (.remove opened)) =
            m.withRetries (m.retries ++ [⟨opened, env.seconds + setup.retryDelay⟩]) := by
          simp [handle, handleCommand, remove, hb, withRetries]
        rw [hhandle]
        exact steady_readied rfl (by simp [retriesAfter, hb, withRetries]) rfl rfl
    | query id => exact steady_readied rfl rfl rfl (subscriptions_append m.log _)
    | _ => exact steady_readied rfl rfl rfl rfl
  | notice =>
    have hready (m' : Mailbox) (h : m'.retries = m.retries) (hb : m'.bootstrapped = m.bootstrapped)
        (hlog : m'.log = m.log) : Steady (m.readied setup env .notice) m' :=
      steady_readied rfl h hb (by rw [hlog])
    simp only [handle, notice?_eq]
    rcases m.place.bind m.store.feed.read? with _ | ⟨notice, next⟩
    · exact hready m rfl rfl rfl
    · cases notice with
      | change c =>
        exact (hready { m with place := some next } rfl rfl rfl).trans (steady_takeIn setup env _ _)
      | lagged =>
        exact (hready { m with place := some next } rfl rfl rfl).trans (steady_takeIn setup env _ _)
      | closed => exact hready { m with place := none } rfl rfl rfl
  | batch i =>
    have hready (running : List (List Entry)) :
        Steady (m.readied setup env (.batch i)) { m with running } :=
      steady_readied rfl rfl rfl rfl
    simp only [handle, handleBatch]
    split
    · exact hready m.running
    · next batch _ =>
      refine (hready (m.running.eraseIdx i)).trans (Steady.trans ?_ (steady_dispatch setup _))
      split
      · exact ⟨rfl, rfl, subscriptions_append m.log _⟩
      · exact steady_openAll setup env { m with running := m.running.eraseIdx i } batch
  | retry i =>
    cases hr : m.retries[i]? with
    | none =>
      have hsame : m.handle setup env (.retry i) = m := by simp only [handle, hr]
      rw [hsame]
      exact steady_readied rfl (by simp [retriesAfter, hr]) rfl rfl
    | some retry =>
      have hhandle : m.handle setup env (.retry i) =
          (m.withRetries (m.retries.eraseIdx i)).remove setup env retry.opened := by
            simp only [handle, hr, withRetries]
      rw [hhandle]
      cases hb : m.bootstrapped with
      | true =>
        have hready :
            Steady (m.readied setup env (.retry i)) (m.withRetries (m.retries.eraseIdx i)) :=
          steady_readied rfl (by simp [retriesAfter, hr, hb, withRetries]) rfl rfl
        have hb' : (m.withRetries (m.retries.eraseIdx i)).bootstrapped = true := hb
        exact hready.trans (steady_remove setup env hb' retry.opened)
      | false =>
        have hremove : (m.withRetries (m.retries.eraseIdx i)).remove setup env retry.opened =
            m.withRetries (m.retries.eraseIdx i ++
                [⟨retry.opened, env.seconds + setup.retryDelay⟩]) := by
          simp [remove, hb, withRetries]
        rw [hremove]
        exact steady_readied rfl (by simp [retriesAfter, hr, hb, withRetries]) rfl rfl

theorem retries_handle (setup : Setup) (env : Surroundings) (m : Mailbox) (ev : Event) :
    (m.handle setup env ev).retries = m.retriesAfter setup env ev :=
  (steady_handle setup env m ev).retries

theorem bootstrapped_handle (setup : Setup) (env : Surroundings) (m : Mailbox) (ev : Event) :
    (m.handle setup env ev).bootstrapped = (m.bootstrapped || m.bootstraps ev) := by
  rw [(steady_handle setup env m ev).bootstrapped, readied]
  cases h : m.bootstraps ev with
  | true => simp [withRetries, subscribe, logging]
  | false => simp [withRetries]

theorem subscriptions_handle (setup : Setup) (env : Surroundings) (m : Mailbox) (ev : Event) :
    subscriptions (m.handle setup env ev).log = subscriptions m.log + (m.bootstraps ev).toNat := by
  rw [(steady_handle setup env m ev).subscriptions, readied]
  cases h : m.bootstraps ev with
  | true => exact subscriptions_append m.log _
  | false => rfl

/-! ## Mailboxes that are not bootstrapped -/

omit [Suite] in
/-- Nothing has changed but listeners, removals that wait, and the log. -/
structure Unmoved (m m' : Mailbox) : Prop where
  index : m'.index = m.index
  ledger : m'.ledger = m.ledger
  store : m'.store = m.store
  place : m'.place = m.place
  queued : m'.queued = m.queued
  running : m'.running = m.running
  itemsChanged : m'.itemsChanged = m.itemsChanged
  ledgerChanged : m'.ledgerChanged = m.ledgerChanged
  written : written m'.log = written m.log

omit [Suite] in
theorem Unmoved.refl (m : Mailbox) : Unmoved m m := ⟨rfl, rfl, rfl, rfl, rfl, rfl, rfl, rfl, rfl⟩

theorem remove_unmoved (setup : Setup) (env : Surroundings) (hb : m.bootstrapped = false)
    (opened : Opened) : Unmoved m (m.remove setup env opened) := by
  unfold remove
  rw [hb]
  exact ⟨rfl, rfl, rfl, rfl, rfl, rfl, rfl, rfl, rfl⟩

/-- Only the bootstrap moves a mailbox that is asleep. -/
theorem handle_unmoved (setup : Setup) (env : Surroundings) (ha : m.Asleep)
    (hb : m.bootstrapped = false) (hev : m.bootstraps ev = false) :
    Unmoved m (m.handle setup env ev) := by
  obtain ⟨hplace, -, hrunning⟩ := ha hb
  cases ev with
  | command c =>
    cases c with
    | bootstrap => simp [bootstraps, hb] at hev
    | remove opened => exact remove_unmoved setup env hb opened
    | query id =>
      exact ⟨rfl, rfl, rfl, rfl, rfl, rfl, rfl, rfl, by simp [handle, handleCommand, logging]; rfl⟩
    | _ => exact ⟨rfl, rfl, rfl, rfl, rfl, rfl, rfl, rfl, rfl⟩
  | notice =>
    have hsame : m.handle setup env .notice = m := by simp [handle, notice?_eq, hplace]
    rw [hsame]
    exact .refl m
  | batch i =>
    have hsame : m.handle setup env (.batch i) = m := by simp [handle, handleBatch, hrunning]
    rw [hsame]
    exact .refl m
  | retry i =>
    cases hr : m.retries[i]? with
    | none =>
      have hsame : m.handle setup env (.retry i) = m := by simp only [handle, hr]
      rw [hsame]
      exact .refl m
    | some retry =>
      simp only [handle, hr]
      have h :=
        remove_unmoved setup env (m := { m with retries := m.retries.eraseIdx i }) hb retry.opened
      exact ⟨h.index, h.ledger, h.store, h.place, h.queued, h.running, h.itemsChanged,
        h.ledgerChanged, h.written⟩

/-! ## The end of a turn -/

omit [Suite] in
/-- The mailbox once it has written what there is to write. One that stops writes nothing. -/
def concluded (env : Surroundings) (m : Mailbox) : Mailbox := if m.stopped then m else m.flush env

theorem step_eq_concluded (setup : Setup) (env : Surroundings) (ev : Event)
    (h : m.stopped = false) : m.step setup env ev = (m.handle setup env ev).concluded env := by
  simp [step, h, concluded]

section Concluded

omit [Suite]

@[simp] theorem subscriptions_writes (env : Surroundings) (m : Mailbox) :
    subscriptions (m.writes env) = 0 := by
  unfold writes
  split <;> split <;> rfl

@[simp] theorem retries_concluded : (m.concluded env).retries = m.retries := by
  unfold concluded; split <;> rfl

@[simp] theorem bootstrapped_concluded : (m.concluded env).bootstrapped = m.bootstrapped := by
  unfold concluded; split <;> rfl

@[simp] theorem index_concluded : (m.concluded env).index = m.index := by
  unfold concluded; split <;> rfl

@[simp] theorem store_concluded : (m.concluded env).store = m.store := by
  unfold concluded; split <;> rfl

theorem concluded_withRetries (retries : List Retry) :
    (m.withRetries retries).concluded env = (m.concluded env).withRetries retries := by
  unfold concluded withRetries
  split <;> rfl

@[simp] theorem subscriptions_concluded :
    subscriptions (m.concluded env).log = subscriptions m.log := by
  unfold concluded
  split
  · rfl
  · rw [log_flush, subscriptions_append, subscriptions_writes, Nat.add_zero]

end Concluded

omit [Suite] in
/-- All that has changed is written. -/
def Unmarked (m : Mailbox) : Prop := m.itemsChanged = false ∧ m.ledgerChanged = false

omit [Suite] in
theorem Flushed.unmarked {m'' : Mailbox} (h : Flushed env m m' m'') (hm : m.Unmarked) :
    m''.Unmarked := by
  cases h with
  | stopped _ _ _ hitems hledger => exact ⟨hitems.trans hm.1, hledger.trans hm.2⟩
  | flushed => exact ⟨rfl, rfl⟩

omit [Suite] in
theorem concluded_eq_self (hm : m.Unmarked) : m.concluded env = m := by
  obtain ⟨hitems, hledger⟩ := hm
  unfold concluded
  split
  · rfl
  · simp only [flush, writes, hitems, hledger, logging]
    cases m
    simp_all

end Mailbox

namespace History

variable [Suite] {setup : Setup} {s : History} {env : Surroundings} {ev : Event} {t : Turn}
  {turns : List Turn}

/-! ## Requests -/

/-- The removal that a mailbox is asked for in a turn. -/
def requested (s : History) : Turn → List Opened
  | .event _ (.command (.remove opened)) => if s.mailbox.stopped then [] else [opened]
  | _ => []

/-- The removal that a mailbox puts off in a turn, because it is not bootstrapped. -/
def putOff (s : History) (t : Turn) : List Opened :=
  if s.mailbox.bootstrapped then [] else s.requested t

/-- The removal put off earlier that a mailbox carries out in a turn: its timer fires after the
bootstrap. -/
def carriedOut (s : History) : Turn → List Opened
  | .event _ (.retry i) =>
    if s.mailbox.stopped || !s.mailbox.bootstrapped then []
    else (s.mailbox.retries[i]?).toList.map Retry.opened
  | _ => []

/-- What an event does to the bootstrap and to the removals that wait. -/
structure Defers (setup : Setup) (s : History) (env : Surroundings) (ev : Event) (s' : History) :
    Prop where
  /-- There is no way back. -/
  stays : s.mailbox.bootstrapped = true → s'.mailbox.bootstrapped = true
  halted : s.mailbox.stopped = true → s'.mailbox = { s.mailbox with log := [] } ∧ s'.disk = s.disk
  /-- The first signal subscribes and takes in what is stored. -/
  bootstraps : s.mailbox.stopped = false → s.mailbox.bootstrapped = false →
    ev = .command .bootstrap → s'.mailbox.bootstrapped = true ∧
      s'.mailbox = ({ s.mailbox with log := [] }.subscribe.takeIn setup env
        (env.access.snapshot s.mailbox.store)).concluded env
  /-- The others change nothing. -/
  again : s.mailbox.bootstrapped = true → ev = .command .bootstrap →
    s'.mailbox = { s.mailbox with log := [] } ∧ s'.disk = s.disk
  /-- Before the bootstrap nothing is touched. -/
  untouched : s'.mailbox.bootstrapped = false → s'.mailbox.index = s.mailbox.index ∧
    s'.mailbox.ledger = s.mailbox.ledger ∧ s'.mailbox.store = s.mailbox.store ∧ s'.disk = s.disk
  /-- A removal asked for before the bootstrap gets a timer. -/
  armed (opened : Opened) : s.mailbox.stopped = false → s.mailbox.bootstrapped = false →
    ev = .command (.remove opened) →
      s'.mailbox.retries = s.mailbox.retries ++ [⟨opened, env.seconds + setup.retryDelay⟩]
  /-- A timer that fires before the bootstrap is set anew. -/
  rearmed (i : Nat) (retry : Retry) : s.mailbox.stopped = false → s.mailbox.bootstrapped = false →
    ev = .retry i → s.mailbox.retries[i]? = some retry →
      s'.mailbox.retries = s.mailbox.retries.eraseIdx i ++
        [⟨retry.opened, env.seconds + setup.retryDelay⟩]
  /-- A timer that fires after the bootstrap has the effect of a removal asked for at that
  moment. -/
  carries (i : Nat) (retry : Retry) : s.mailbox.stopped = false → s.mailbox.bootstrapped = true →
    ev = .retry i → s.mailbox.retries[i]? = some retry →
      s' = { s.turn setup (.event env (.command (.remove retry.opened))) with
        mailbox := (s.turn setup (.event env (.command (.remove retry.opened)))).mailbox.withRetries
          (s.mailbox.retries.eraseIdx i) }

/-- What holds between turns: a mailbox that is not bootstrapped reads and opens nothing, all that
has changed is written, and the mailbox has subscribed once if it is bootstrapped and else never. -/
structure Poised (s : History) : Prop where
  asleep : s.mailbox.Asleep
  unmarked : s.mailbox.Unmarked
  subscribed : subscriptions s.effects = s.mailbox.bootstrapped.toNat

/-! ## One turn -/

theorem mailbox_turn (setup : Setup) (env : Surroundings) (ev : Event)
    (hs : s.mailbox.stopped = false) : (s.turn setup (.event env ev)).mailbox =
      ({ s.mailbox with log := [] }.handle setup env ev).concluded env :=
  Mailbox.step_eq_concluded setup env ev hs

theorem disk_turn_event (setup : Setup) (s : History) (env : Surroundings) (ev : Event) :
    (s.turn setup (.event env ev)).disk = s.disk.after (s.turn setup (.event env ev)).mailbox.log :=
  rfl

theorem retries_turn (setup : Setup) (env : Surroundings) (ev : Event)
    (hs : s.mailbox.stopped = false) :
    (s.turn setup (.event env ev)).mailbox.retries = s.mailbox.retriesAfter setup env ev := by
  rw [mailbox_turn setup env ev hs, Mailbox.retries_concluded, Mailbox.retries_handle]
  rfl

theorem bootstrapped_turn (setup : Setup) (env : Surroundings) (ev : Event)
    (hs : s.mailbox.stopped = false) :
    (s.turn setup (.event env ev)).mailbox.bootstrapped =
      (s.mailbox.bootstrapped || s.mailbox.bootstraps ev) := by
  rw [mailbox_turn setup env ev hs, Mailbox.bootstrapped_concluded, Mailbox.bootstrapped_handle]
  rfl

/-- While a mailbox is not bootstrapped, events move nothing, and nothing is written. -/
theorem unmoved_turn (hp : s.Poised) (hs : s.mailbox.stopped = false)
    (hb : (s.turn setup (.event env ev)).mailbox.bootstrapped = false) :
    Mailbox.Unmoved { s.mailbox with log := [] } (s.turn setup (.event env ev)).mailbox := by
  have hbefore := hb
  rw [bootstrapped_turn setup env ev hs, Bool.or_eq_false_iff] at hbefore
  have hmoved :
      Mailbox.Unmoved { s.mailbox with log := [] }
        ({ s.mailbox with log := [] }.handle setup env ev) :=
    Mailbox.handle_unmoved setup env hp.asleep hbefore.1 hbefore.2
  have hmarks : ({ s.mailbox with log := [] }.handle setup env ev).Unmarked :=
    ⟨hmoved.itemsChanged.trans hp.unmarked.1, hmoved.ledgerChanged.trans hp.unmarked.2⟩
  rw [mailbox_turn setup env ev hs, Mailbox.concluded_eq_self hmarks]
  exact hmoved

theorem Poised.event (hp : s.Poised) (env : Surroundings) (ev : Event) :
    (s.turn setup (.event env ev)).Poised := by
  cases hs : s.mailbox.stopped with
  | true =>
    obtain ⟨hmailbox, -⟩ := turn_of_stopped setup hs env ev
    have heffects :
        (s.turn setup (.event env ev)).effects = s.effects ++
          (s.turn setup (.event env ev)).mailbox.log :=
      rfl
    refine ⟨?_, ?_, ?_⟩
    · rw [hmailbox]; exact hp.asleep
    · rw [hmailbox]; exact hp.unmarked
    · rw [heffects, hmailbox, List.append_nil]; exact hp.subscribed
  | false =>
    refine ⟨fun hb => ?_, ?_, ?_⟩
    · have hmoved := unmoved_turn hp hs hb
      rw [bootstrapped_turn setup env ev hs, Bool.or_eq_false_iff] at hb
      rw [hmoved.place, hmoved.queued, hmoved.running]
      exact hp.asleep hb.1
    · obtain ⟨m', -, -, hflushed, -⟩ := turn_proceeds setup env ev hs
      exact hflushed.unmarked hp.unmarked
    · have heffects : (s.turn setup (.event env ev)).effects =
          s.effects ++ (s.turn setup (.event env ev)).mailbox.log := rfl
      have hlog :
          subscriptions (s.turn setup (.event env ev)).mailbox.log =
            (s.mailbox.bootstraps ev).toNat := by
        rw [mailbox_turn setup env ev hs, Mailbox.subscriptions_concluded,
          Mailbox.subscriptions_handle]
        exact Nat.zero_add _
      rw [heffects, subscriptions_append, hp.subscribed, hlog, bootstrapped_turn setup env ev hs]
      unfold Mailbox.bootstraps
      cases s.mailbox.bootstrapped <;> simp

theorem Poised.turn (hp : s.Poised) (ht : t.Runs) : (s.turn setup t).Poised := by
  cases t with
  | overlay change => exact ⟨hp.asleep, hp.unmarked, hp.subscribed⟩
  | restart env => exact ht.elim
  | event env ev => exact hp.event env ev

theorem Poised.run (hp : s.Poised) (hts : ∀ t ∈ turns, t.Runs) : (s.run setup turns).Poised := by
  induction turns generalizing s with
  | nil => exact hp
  | cons t turns ih =>
    obtain ⟨ht, hts⟩ := List.forall_mem_cons.1 hts
    exact ih (hp.turn ht) hts

theorem poised_start (setup : Setup) (env : Surroundings) (store : Store) (disk : Disk) :
    (start setup env store disk).Poised where
  asleep _ := ⟨rfl, rfl, rfl⟩
  unmarked := ⟨rfl, rfl⟩
  subscribed := by
    have heffects :
        (start setup env store disk).effects =
          (Mailbox.restore setup env store disk.items disk.ledger).log :=
      rfl
    rw [heffects, Mailbox.restore, Mailbox.log_flush, subscriptions_append,
      Mailbox.subscriptions_writes]
    rfl

/-- The turn in which a timer fires, after the bootstrap. -/
theorem turn_retry {i : Nat} {retry : Retry} (hs : s.mailbox.stopped = false)
    (hb : s.mailbox.bootstrapped = true) (hr : s.mailbox.retries[i]? = some retry)
    (env : Surroundings) :
    s.turn setup (.event env (.retry i)) =
      { s.turn setup (.event env (.command (.remove retry.opened))) with
        mailbox := (s.turn setup (.event env (.command (.remove retry.opened)))).mailbox.withRetries
          (s.mailbox.retries.eraseIdx i) } := by
  have hmailbox : (s.turn setup (.event env (.retry i))).mailbox =
      (s.turn setup (.event env (.command (.remove retry.opened)))).mailbox.withRetries
        (s.mailbox.retries.eraseIdx i) := by
    have hhandle : { s.mailbox with log := [] }.handle setup env (.retry i) =
        ({ s.mailbox with log := [] }.withRetries (s.mailbox.retries.eraseIdx i)).remove setup env
          retry.opened := by
      simp only [Mailbox.handle, hr, Mailbox.withRetries]
    rw [mailbox_turn setup env _ hs, mailbox_turn setup env _ hs, hhandle,
      Mailbox.remove_withRetries setup env (m := { s.mailbox with log := [] }) hb,
      Mailbox.concluded_withRetries]
    rfl
  have hmailbox' : { s.mailbox with log := [] }.step setup env (.retry i) =
      ({ s.mailbox with log := [] }.step setup env (.command (.remove retry.opened))).withRetries
        (s.mailbox.retries.eraseIdx i) := hmailbox
  simp only [turn, hmailbox']
  rfl

theorem defers_turn (hp : s.Poised) (env : Surroundings) (ev : Event) :
    Defers setup s env ev (s.turn setup (.event env ev)) where
  stays hb := by
    cases hs : s.mailbox.stopped with
    | true => rw [(turn_of_stopped setup hs env ev).1]; exact hb
    | false => rw [bootstrapped_turn setup env ev hs, hb, Bool.true_or]
  halted hs := turn_of_stopped setup hs env ev
  bootstraps hs hb hev := by
    subst hev
    refine ⟨by rw [bootstrapped_turn setup env _ hs]; simp [Mailbox.bootstraps, hb], ?_⟩
    rw [mailbox_turn setup env _ hs]
    simp only [Mailbox.handle, Mailbox.handleCommand, Mailbox.bootstrap, hb]
    rfl
  again hb hev := by
    subst hev
    cases hs : s.mailbox.stopped with
    | true => exact turn_of_stopped setup hs env _
    | false =>
      have hhandle :
          { s.mailbox with log := [] }.handle setup env (.command .bootstrap) =
            { s.mailbox with log := [] } :=
        if_pos hb
      have hmailbox :
          (s.turn setup (.event env (.command .bootstrap))).mailbox =
            { s.mailbox with log := [] } := by
        rw [mailbox_turn setup env _ hs, hhandle]
        exact Mailbox.concluded_eq_self hp.unmarked
      exact ⟨hmailbox, by rw [disk_turn_event, hmailbox]; rfl⟩
  untouched hb := by
    cases hs : s.mailbox.stopped with
    | true =>
      obtain ⟨hmailbox, hdisk⟩ := turn_of_stopped setup hs env ev
      rw [hmailbox]
      exact ⟨rfl, rfl, rfl, hdisk⟩
    | false =>
      have hmoved := unmoved_turn hp hs hb
      refine ⟨hmoved.index, hmoved.ledger, hmoved.store, ?_⟩
      rw [disk_turn_event, Disk.after_eq_of_written hmoved.written]
  armed opened hs hb hev := by
    subst hev
    rw [retries_turn setup env _ hs]
    simp [Mailbox.retriesAfter, hb]
  rearmed i retry hs hb hev hr := by
    subst hev
    rw [retries_turn setup env _ hs]
    simp [Mailbox.retriesAfter, hr, hb]
  carries i retry hs hb hev hr := by
    subst hev
    exact turn_retry hs hb hr env

/-! ## The account of requests -/

/-- What waits before a turn or is put off in it, is carried out in it or waits after it. -/
theorem account_turn (setup : Setup) (s : History) (ht : t.Runs) :
    (s.mailbox.retries.map Retry.opened ++ s.putOff t).Perm
      (s.carriedOut t ++ (s.turn setup t).mailbox.retries.map Retry.opened) := by
  cases t with
  | overlay change =>
    have hputOff : s.putOff (.overlay change) = [] := by unfold putOff; split <;> rfl
    rw [hputOff, List.append_nil]
    exact .refl _
  | restart env => exact ht.elim
  | event env ev =>
    cases hs : s.mailbox.stopped with
    | true =>
      have hputOff : s.putOff (.event env ev) = [] := by
        simp only [putOff, requested, hs, if_true]
        split
        · rfl
        · split <;> rfl
      have hcarried : s.carriedOut (.event env ev) = [] := by
        simp only [carriedOut, hs, Bool.true_or, if_true]
        split <;> rfl
      rw [hputOff, hcarried, (turn_of_stopped setup hs env ev).1, List.append_nil, List.nil_append]
    | false =>
      rw [retries_turn setup env ev hs]
      cases ev with
      | command c =>
        cases c with
        | remove opened =>
          cases hb : s.mailbox.bootstrapped <;>
            simp [putOff, requested, carriedOut, Mailbox.retriesAfter, hb, hs]
        | _ => simp [putOff, requested, carriedOut, Mailbox.retriesAfter]
      | retry i =>
        cases hr : s.mailbox.retries[i]? with
        | none => simp [putOff, requested, carriedOut, Mailbox.retriesAfter, hr]
        | some retry =>
          obtain ⟨hi, rfl⟩ := List.getElem?_eq_some_iff.1 hr
          have hperm := (List.getElem_cons_eraseIdx_perm hi).symm.map Retry.opened
          cases hb : s.mailbox.bootstrapped with
          | true =>
            simpa [putOff, requested, carriedOut, Mailbox.retriesAfter, hr, hb, hs] using hperm
          | false =>
            have hback := hperm.trans (List.perm_append_singleton _ _).symm
            simpa [putOff, requested, carriedOut, Mailbox.retriesAfter, hr, hb, hs] using hback
      | _ => simp [putOff, requested, carriedOut, Mailbox.retriesAfter]

theorem account_run (setup : Setup) (s : History) (hts : ∀ t ∈ turns, t.Runs) :
    (s.mailbox.retries.map Retry.opened ++ traced setup putOff s turns).Perm
      (traced setup carriedOut s turns ++
        (s.run setup turns).mailbox.retries.map Retry.opened) := by
  induction turns generalizing s with
  | nil => rw [traced, traced, List.append_nil]; exact .refl _
  | cons t turns ih =>
    obtain ⟨ht, hts⟩ := List.forall_mem_cons.1 hts
    have hnow := (account_turn setup s ht).append_right (traced setup putOff (s.turn setup t) turns)
    have hlater := (ih (s.turn setup t) hts).append_left (s.carriedOut t)
    rw [traced, traced, run_cons, ← List.append_assoc, List.append_assoc (s.carriedOut t)]
    refine hnow.trans ?_
    rw [List.append_assoc]
    exact hlater

theorem not_bootstrapped_of_turn (ht : t.Runs)
    (hb : (s.turn setup t).mailbox.bootstrapped = false) :
    s.mailbox.bootstrapped = false := by
  cases t with
  | overlay change => exact hb
  | restart env => exact ht.elim
  | event env ev =>
    cases hs : s.mailbox.stopped with
    | true => rwa [(turn_of_stopped setup hs env ev).1] at hb
    | false =>
      rw [bootstrapped_turn setup env ev hs, Bool.or_eq_false_iff] at hb
      exact hb.1

theorem not_bootstrapped_of_run (hts : ∀ t ∈ turns, t.Runs)
    (hb : (s.run setup turns).mailbox.bootstrapped = false) : s.mailbox.bootstrapped = false := by
  induction turns generalizing s with
  | nil => exact hb
  | cons t turns ih =>
    obtain ⟨ht, hts⟩ := List.forall_mem_cons.1 hts
    exact not_bootstrapped_of_turn ht (ih hts hb)

/-- Until the bootstrap all that is asked for is put off, and nothing is carried out. -/
theorem traced_of_not_bootstrapped (hts : ∀ t ∈ turns, t.Runs)
    (hb : (s.run setup turns).mailbox.bootstrapped = false) :
    traced setup putOff s turns = traced setup requested s turns ∧
    traced setup carriedOut s turns = [] := by
  induction turns generalizing s with
  | nil => exact ⟨rfl, rfl⟩
  | cons t turns ih =>
    have hbefore := not_bootstrapped_of_run hts hb
    have hcarried : s.carriedOut t = [] := by
      unfold carriedOut
      split
      · simp [hbefore]
      · rfl
    obtain ⟨hputOff, hlater⟩ := ih (List.forall_mem_cons.1 hts).2 hb
    simp only [traced, hputOff, hlater, hcarried, putOff, hbefore]
    exact ⟨rfl, rfl⟩

/-- However signals, commands and timers come, until a mailbox restarts: it subscribes once, in the
turn that bootstraps it; until then exactly the removals asked for wait, each with its timer; from
then on those put off before are the ones carried out since and the ones that still wait. `Defers`
says what each event does. -/
theorem deferred_removals_carried_out (setup : Setup) (env : Surroundings) (store : Store)
    (disk : Disk) (turns : List Turn) (hturns : ∀ t ∈ turns, t.Runs) :
    let fresh := start setup env store disk
    let s := fresh.run setup turns
    let waiting := s.mailbox.retries.map Retry.opened
    subscriptions s.effects = s.mailbox.bootstrapped.toNat ∧
      (s.mailbox.bootstrapped = false → waiting.Perm (traced setup requested fresh turns)) ∧
      (traced setup putOff fresh turns).Perm (traced setup carriedOut fresh turns ++ waiting) ∧
      ∀ env ev, Defers setup s env ev (s.turn setup (.event env ev)) := by
  intro fresh s waiting
  have hpoised : s.Poised := (poised_start setup env store disk).run hturns
  have hretries : fresh.mailbox.retries = [] := by
    have hmailbox : fresh.mailbox = Mailbox.restore setup env store disk.items disk.ledger := rfl
    rw [hmailbox]
    rfl
  have haccount :
      (traced setup putOff fresh turns).Perm (traced setup carriedOut fresh turns ++ waiting) := by
    have hrun := account_run setup fresh hturns
    rwa [hretries] at hrun
  refine ⟨hpoised.subscribed, fun hb => ?_, haccount, defers_turn hpoised⟩
  obtain ⟨hputOff, hcarried⟩ := traced_of_not_bootstrapped hturns hb
  rw [hputOff, hcarried] at haccount
  exact haccount.symm

end History

end SealedMail

namespace SealedMail.History

attribute [local instance] Suite.transparent

open Transparent

/-- What a host asks to be removed. -/
def unwanted (uid : String) : Opened := ⟨.mailbox (letter uid), (ring 1).signatureKey⟩

/-- Two letters are stored and their removal is asked for, one of them twice. One timer fires too
early. -/
def tooEarly : List Turn :=
  [.overlay fun s => s.serve (.add (entry (ring 1) (ring 2) (letter "u") 1)),
    .overlay fun s => s.serve (.add (entry (ring 1) (ring 2) (letter "v") 1)),
    .event (online 0) (.command (.remove (unwanted "u"))),
    .event (online 0) (.command (.remove (unwanted "v"))),
    .event (online 0) (.command (.remove (unwanted "u"))),
    .event { online 0 with seconds := 1 } (.retry 0)]

/-- Two signals come, the letters are opened, and two of the three timers fire. -/
def inTime : List Turn :=
  [.event (online 0) (.command .bootstrap), .event (online 0) (.command .bootstrap),
    .event (online 0) (.batch 0), .event { online 0 with seconds := 2 } (.retry 0),
    .event { online 0 with seconds := 2 } (.retry 0)]

/-- The timer that fired too early fires last. The two removals before are carried out, and both
letters are gone. -/
theorem deferred_removals_carried_out_twice :
    let fresh := start Transparent.setup (online 0) (.ofCapacity 8 (.sufficient 1)) ⟨[], ⟨.empty⟩⟩
    let early := fresh.run Transparent.setup tooEarly
    let s := fresh.run Transparent.setup (tooEarly ++ inTime)
    (∀ t ∈ tooEarly ++ inTime, t.Runs) ∧
      early.mailbox.retries = [⟨unwanted "v", 1⟩, ⟨unwanted "u", 1⟩, ⟨unwanted "u", 2⟩] ∧
      (early.mailbox.retries.map Retry.opened).Perm
        (traced Transparent.setup requested fresh tooEarly) ∧
      traced Transparent.setup carriedOut fresh (tooEarly ++ inTime) =
        [unwanted "v", unwanted "u"] ∧
      s.mailbox.retries = [⟨unwanted "u", 2⟩] ∧
      (traced Transparent.setup putOff fresh (tooEarly ++ inTime)).Perm
        [unwanted "v", unwanted "u", unwanted "u"] ∧
      subscriptions s.effects = 1 ∧ s.mailbox.store.snapshot = [] ∧
      (s.turn Transparent.setup
        (.event { online 0 with seconds := 2 } (.command .bootstrap))).mailbox =
        { s.mailbox with log := [] } := by
  intro fresh early s
  have hruns : ∀ t ∈ tooEarly ++ inTime, t.Runs := by simp [tooEarly, inTime, Turn.Runs]
  obtain ⟨hwaiting, hcarried, hleft, hstate, hgone⟩ :
      early.mailbox.retries = [⟨unwanted "v", 1⟩, ⟨unwanted "u", 1⟩, ⟨unwanted "u", 2⟩] ∧
      traced Transparent.setup carriedOut fresh (tooEarly ++ inTime) =
        [unwanted "v", unwanted "u"] ∧
      s.mailbox.retries = [⟨unwanted "u", 2⟩] ∧
      (early.mailbox.bootstrapped = false ∧ s.mailbox.bootstrapped = true) ∧
      s.mailbox.store.snapshot = [] := by
    decide +kernel
  obtain ⟨-, hasked, -, -⟩ := deferred_removals_carried_out Transparent.setup (online 0)
    (.ofCapacity 8 (.sufficient 1)) ⟨[], ⟨.empty⟩⟩ tooEarly fun t ht =>
      hruns t (List.mem_append_left _ ht)
  obtain ⟨honce, -, haccount, hdefers⟩ := deferred_removals_carried_out Transparent.setup (online 0)
    (.ofCapacity 8 (.sufficient 1)) ⟨[], ⟨.empty⟩⟩ (tooEarly ++ inTime) hruns
  have hsubscribed : subscriptions s.effects = 1 := by rw [honce, hstate.2]; rfl
  have hput : (traced Transparent.setup putOff fresh (tooEarly ++ inTime)).Perm
      [unwanted "v", unwanted "u", unwanted "u"] := by
    rw [hcarried, hleft] at haccount
    exact haccount
  exact ⟨hruns, hwaiting, hasked hstate.1, hcarried, hleft, hput, hsubscribed, hgone,
    ((hdefers _ (.command .bootstrap)).again hstate.2 rfl).1⟩

end SealedMail.History
