import SealedMail.Proofs.Crypto.Attestation
import SealedMail.Proofs.Mailbox.Finality
import SealedMail.Proofs.Overlay.Acceptance

/-!
# Where items come from

Whatever is admitted into the index was opened, just then, from an entry that was ahead of the
mailbox (`mem_admitted`), and listeners are told of nothing else (`mem_reports_run`). While others
only send requests to the store, an entry is ahead only if the store has taken an addition of it
(`ahead_run`).
-/

namespace SealedMail

variable [Suite]

namespace Store

variable {s s' : Store} {r : Request} {requests : List Request} {e : Entry}

def Takes (s : Store) (requests : List Request) (e : Entry) : Prop :=
  ∃ before after, requests = before ++ .add e :: after ∧
    (before.foldl serve s).accepted? (.add e) = some e

theorem accepted?_of_add (h : s.add e = .ok s') : s.accepted? (.add e) = some e := by
  simp [accepted?, h, Except.isOk, Except.toBool]

/-- What is taken is signed for with the key that its payload shows. -/
theorem vouched_of_accepted? (h : s.accepted? (.add e) = some e) :
    e.ownerKey = e.payload.senderKey ∧ e.isSigned = true :=
  ⟨(accepted?_add.1 h).1, (accepted?_add.1 h).2.1⟩

theorem mem_snapshot_serve (he : .mailbox e ∈ (s.serve r).snapshot) :
    .mailbox e ∈ s.snapshot ∨ r = .add e ∧ s.accepted? (.add e) = some e := by
  -- a mailbox that does not read the feed has ahead of it what is stored
  let m : Mailbox := { store := s }
  have hahead : Mailbox.Ahead { m with store := s.serve r } e := .stored he
  rcases Mailbox.ahead_of_serve hahead with h | ⟨hr, store, hadd⟩
  · cases h with
    | pending h => cases h
    | stored h => exact .inl h
    | unread place i c hp => cases hp
  · exact .inr ⟨hr, accepted?_of_add hadd⟩

theorem mem_snapshot_foldl_serve (he : .mailbox e ∈ (requests.foldl serve s).snapshot) :
    .mailbox e ∈ s.snapshot ∨ s.Takes requests e := by
  induction requests generalizing s with
  | nil => exact .inl he
  | cons r requests ih =>
    rcases ih he with h | ⟨before, after, rfl, h⟩
    · rcases mem_snapshot_serve h with h | ⟨rfl, htaken⟩
      · exact .inl h
      · exact .inr ⟨[], requests, rfl, htaken⟩
    · exact .inr ⟨r :: before, after, rfl, h⟩

end Store

theorem Mailbox.ahead_restore {setup : Setup} {env : Surroundings} {store : Store}
    {items : List Item} {ledger : Ledger} {e : Entry}
    (h : (restore setup env store items ledger).Ahead e) :
    .mailbox e ∈ store.snapshot := by
  cases h with
  | pending h => cases h
  | stored h => exact h
  | unread place i c hp => cases hp

/-- Others add an entry, and the store takes it. -/
def Turn.Adds (store : Store) (e : Entry) : Turn → Prop
  | .overlay change => (change = fun s => s.serve (.add e)) ∧ store.accepted? (.add e) = some e
  | _ => False

namespace History

variable {setup : Setup} {s : History} {t : Turn} {turns : List Turn} {e : Entry} {item : Item}

/-- In one of some turns the store takes an entry from others. -/
def Takes (setup : Setup) (s : History) (turns : List Turn) (e : Entry) : Prop :=
  ∃ before t after, turns = before ++ t :: after ∧ t.Adds (s.run setup before).mailbox.store e

theorem Takes.mono {before after : List Turn} (h : Takes setup s before e) :
    Takes setup s (before ++ after) e := by
  obtain ⟨earlier, t, later, rfl, ht⟩ := h
  exact ⟨earlier, t, later ++ after, by simp, ht⟩

theorem Takes.vouched (h : Takes setup s turns e) :
    e.ownerKey = e.payload.senderKey ∧ e.isSigned = true := by
  obtain ⟨before, t, after, -, ht⟩ := h
  cases t with
  | overlay change => exact Store.vouched_of_accepted? ht.2
  | event => exact ht.elim
  | restart => exact ht.elim

/-! ## What is admitted -/

theorem mem_gained_event (hv : s.mailbox.index.Valid) {env : Surroundings} {ev : Event}
    (hi : item ∈ Index.gained s.mailbox.index (s.turn setup (.event env ev)).mailbox.index) :
    s.mailbox.Ahead item.entry ∧ item.entry.opening setup.ring = .received item := by
  obtain ⟨m', m, h, hf, hturn⟩ := turn_event setup s env ev
  rw [hturn] at hi
  simp only [hf.index] at hi
  rcases h.admitted_ahead with ⟨es, ha, hahead⟩ | ⟨-, uid, hc⟩
  · rw [ha.index, Index.gained_foldl_insert hv] at hi
    obtain ⟨he, ho⟩ := mem_received.1 (Index.mem_of_mem_news hi)
    exact ⟨(hahead _ he).congr rfl rfl rfl, ho⟩
  · have hgained : Index.gained s.mailbox.index m'.index = [] := hc.gained_eq_nil hv
    rw [hgained] at hi
    cases hi

/-- Whatever is admitted was ahead when it was received. -/
theorem mem_admitted (hv : s.mailbox.index.Valid) (hi : item ∈ admitted setup s turns) :
    item.entry.opening setup.ring = .received item ∧
      ∃ before after, turns = before ++ after ∧ (s.run setup before).mailbox.Ahead item.entry := by
  induction turns generalizing s with
  | nil => cases hi
  | cons t turns ih =>
    rcases List.mem_append.1 hi with hi | hi
    · cases t with
      | event env ev =>
        obtain ⟨hahead, ho⟩ := mem_gained_event hv hi
        exact ⟨ho, [], _, rfl, hahead⟩
      | overlay => cases hi
      | restart => cases hi
    · obtain ⟨ho, before, after, rfl, hahead⟩ := ih (valid_turn hv t) hi
      exact ⟨ho, t :: before, after, rfl, hahead⟩

theorem mem_reports_event (hv : s.mailbox.index.Valid) {env : Surroundings} {ev : Event} {id : Nat}
    {report : Report}
    (hr : report ∈ (s.turn setup (.event env ev)).reports id) : report ∈ s.reports id ∨
      ∃ item ∈ Index.gained s.mailbox.index (s.turn setup (.event env ev)).mailbox.index,
        item.report? = some report := by
  obtain ⟨m', m, h, hf, hturn⟩ := turn_event setup s env ev
  rw [hturn] at hr ⊢
  simp only [reports, heard_append, hf.told, List.mem_append] at hr
  simp only [hf.index]
  refine hr.imp_right fun hr => ?_
  rcases h.admitted with ⟨es, ha, -⟩ | ⟨-, uid, hc⟩
  · rw [ha.told, heard_nil, List.nil_append] at hr
    split at hr
    · rw [ha.index, Index.gained_foldl_insert hv]
      exact List.mem_filterMap.1 hr
    · cases hr
  · rw [hc.told] at hr
    cases hr

/-- Listeners are told of what is admitted, and of nothing else. -/
theorem mem_reports_run (hv : s.mailbox.index.Valid) {id : Nat} {report : Report}
    (hr : report ∈ (s.run setup turns).reports id) :
    report ∈ s.reports id ∨ ∃ item ∈ admitted setup s turns, item.report? = some report := by
  induction turns generalizing s with
  | nil => exact .inl hr
  | cons t turns ih =>
    rcases ih (valid_turn hv t) hr with hr | ⟨item, hi, hreport⟩
    · cases t with
      | event env ev =>
        refine (mem_reports_event hv hr).imp_right fun ⟨item, hi, hreport⟩ => ?_
        exact ⟨item, List.mem_append_left _ hi, hreport⟩
      | overlay => exact .inl hr
      | restart env =>
        simp only [reports, turn, heard_append, Mailbox.heard_restore, List.append_nil] at hr
        exact .inl hr
    · exact .inr ⟨item, List.mem_append_right _ hi, hreport⟩

/-! ## What gets ahead -/

theorem ahead_turn (ht : t.Served) (he : (s.turn setup t).mailbox.Ahead e) :
    s.mailbox.Ahead e ∨ t.Adds s.mailbox.store e := by
  cases t with
  | overlay change =>
    obtain ⟨r, rfl⟩ := ht
    have he : Mailbox.Ahead { s.mailbox with store := s.mailbox.store.serve r, log := [] } e := he
    rcases Mailbox.ahead_of_serve (he.congr rfl rfl rfl) with h | ⟨rfl, store, hadd⟩
    · exact .inl h
    · exact .inr ⟨rfl, Store.accepted?_of_add hadd⟩
  | restart env => exact .inl (.stored (Mailbox.ahead_restore he))
  | event env ev =>
    obtain ⟨m', m, h, hf, hturn⟩ := turn_event setup s env ev
    rw [hturn] at he
    have he' : m'.Ahead e := by
      cases hf with
      | stopped => exact he
      | flushed => exact he.congr rfl rfl rfl
    exact .inl ((h.ahead he').congr rfl rfl rfl)

theorem ahead_run (ht : ∀ t ∈ turns, t.Served) (he : (s.run setup turns).mailbox.Ahead e) :
    s.mailbox.Ahead e ∨ Takes setup s turns e := by
  induction turns generalizing s with
  | nil => exact .inl he
  | cons t turns ih =>
    obtain ⟨ht, hts⟩ := List.forall_mem_cons.1 ht
    rcases ih hts he with h | ⟨before, taken, after, rfl, h⟩
    · exact (ahead_turn ht h).imp_right fun h => ⟨[], t, turns, rfl, h⟩
    · exact .inr ⟨t :: before, taken, after, rfl, h⟩

end History

end SealedMail
