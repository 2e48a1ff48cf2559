import SealedMail.Proofs.Overlay.Acceptance
import SealedMail.Proofs.Sending.Stored
import SealedMail.Sending.Course

/-!
# What a send asks for, and what it says became of it

A send checks its gates in the order of `Gate.calling`; the first closed one decides it, and nothing
is asked of anybody. Else the message is sealed once and the parcel is carried once. What does not
arrive meets the gates of `Gate.storing`, by then perhaps others than before. The store is changed
exactly when the outcome says that it was: `send_truthful`.
-/

namespace SealedMail

/-- A condition that a send checks. -/
inductive Gate where
  | running
  | recipientRing
  | ownAddress
  | otherRing
  | bootstrapped
  | connected
  | capabilities
  deriving DecidableEq, Repr

namespace Gate

/-- The gates of the call in order. -/
def calling : List Gate :=
  [running, recipientRing, ownAddress, otherRing, bootstrapped, connected, capabilities]

/-- The gates before the store in order. -/
def storing : List Gate := [bootstrapped, connected, ownAddress]

variable [Suite]

def isOpen (ring : KeyRing) (o : Outlook) (peer : Address) (recipient : Option PublicRing)
    (message : Message) :
    Gate → Bool
  | running => o.running
  | recipientRing => recipient.isSome
  | ownAddress => o.address.isSome
  | otherRing => recipient ≠ some ring.publicRing
  | bootstrapped => o.bootstrapped
  | connected => o.connections ≠ 0
  | capabilities =>
    message.required.all fun required => (o.capabilities peer).any (·.includes required)

omit [Suite] in
/-- What a closed gate comes to. -/
def error (peer : Address) : Gate → SendError
  | running => .serviceStopped
  | recipientRing => .missingRing
  | ownAddress => .ownAddressUnknown
  | otherRing => .selfSend
  | bootstrapped => .notReady "not bootstrapped yet"
  | connected => .notReady "no P2P network nodes connected"
  | capabilities => .unsupported peer.toText

omit [Suite] in
/-- Whether the call itself fails; else its outcome is a fault. -/
def refuses : Gate → Bool
  | running | ownAddress | otherRing => true
  | _ => false

omit [Suite] in
/-- What a gate that is closed at the call makes of the send. -/
def verdict (peer : Address) (gate : Gate) : Except SendError SendOutcome :=
  if gate.refuses then .error (gate.error peer) else .ok (.fault (gate.error peer))

/-- The first closed gate of a list. -/
def closed? (ring : KeyRing) (o : Outlook) (peer : Address) (recipient : Option PublicRing)
    (message : Message) (gates : List Gate) : Option Gate :=
  gates.find? fun gate => !gate.isOpen ring o peer recipient message

end Gate

/-- The outcome says that the store took the message. -/
def SendOutcome.IsStored (outcome : SendOutcome) : Prop :=
  outcome = .stored ∨ ∃ completed failed, outcome = .fault (.broadcastInsufficient completed failed)

variable [Suite] {ring : KeyRing} {o : Outlook} {peer : Address} {recipient : Option PublicRing}
  {message : Message} {d : Delivery} {access : Access} {now : Timestamp} {store : Store}

/-- The store as it is once it has taken an entry: the entry, its number and the change of it. -/
structure Access.Taken (access : Access) (before : Store) (e : Entry) (after : Store) : Prop where
  entries : after.entries = before.entries.insert e.hash (.mailbox e)
  sequences : after.sequences = before.sequences.insert e.hash e.sequence
  feed : after.feed = if access.isSilent then before.feed
    else before.feed.publish { added := [.mailbox e] }

omit [Suite] in
theorem Outlook.supports_eq :
    o.supports peer message = message.required.all fun required =>
      (o.capabilities peer).any (·.includes required) := by
  unfold Outlook.supports
  cases message.required with
  | none => rfl
  | some required => cases o.capabilities peer <;> rfl

/-- What the gates come to is up to the first closed one; where all are open, the recipient's ring
and the own address are known. -/
theorem gates_eq (ring : KeyRing) (o : Outlook) (peer : Address) (recipient : Option PublicRing)
    (message : Message) :
    (∃ gate, Gate.closed? ring o peer recipient message Gate.calling = some gate ∧
      gates ring o peer recipient message =
        .error (if gate.refuses then .refused (gate.error peer) else .failed (gate.error peer))) ∨
    (∃ keys own, Gate.closed? ring o peer recipient message Gate.calling = none ∧
      recipient = some keys ∧
      o.address = some own ∧ gates ring o peer recipient message = .ok (keys, own)) := by
  unfold gates Gate.closed? Gate.calling
  cases hrunning : o.running with
  | false => exact .inl ⟨.running, by simp [Gate.isOpen, hrunning], rfl⟩
  | true =>
  cases recipient with
  | none => exact .inl ⟨.recipientRing, by simp [List.find?, Gate.isOpen, hrunning], rfl⟩
  | some keys =>
  cases haddress : o.address with
  | none => exact .inl ⟨.ownAddress, by simp [List.find?, Gate.isOpen, hrunning, haddress], rfl⟩
  | some own =>
  by_cases hring : keys = ring.publicRing
  · exact .inl ⟨.otherRing, by simp [List.find?, Gate.isOpen, hrunning, haddress, hring],
      by simp [hring, Gate.refuses, Gate.error]⟩
  cases hbootstrapped : o.bootstrapped with
  | false =>
    exact .inl ⟨.bootstrapped, by simp [List.find?, Gate.isOpen, hrunning, haddress, hring,
      hbootstrapped],
      by simp [hring, Outlook.obstacle?, hbootstrapped, Gate.refuses, Gate.error]⟩
  | true =>
  by_cases hconnections : o.connections = 0
  · exact .inl ⟨.connected,
      by simp [List.find?, Gate.isOpen, hrunning, haddress, hring, hbootstrapped, hconnections],
      by simp [hring, Outlook.obstacle?, hbootstrapped, hconnections, Gate.refuses, Gate.error]⟩
  cases hsupports : o.supports peer message with
  | false =>
    refine .inl ⟨.capabilities, ?_, ?_⟩
    · rw [Outlook.supports_eq] at hsupports
      simp [List.find?, Gate.isOpen, hrunning, haddress, hring, hbootstrapped,
        hconnections, hsupports]
    · simp [hring, Outlook.obstacle?, hbootstrapped, hconnections, Gate.refuses, Gate.error]
  | true =>
    refine .inr ⟨keys, own, ?_, rfl, rfl, ?_⟩
    · rw [Outlook.supports_eq] at hsupports
      simp [List.find?, Gate.isOpen, hrunning, haddress, hring, hbootstrapped,
        hconnections, hsupports]
    · simp [hring, Outlook.obstacle?, hbootstrapped, hconnections]

/-! ## The way to the store -/

/-- What becomes of a delivery before the store is up to the first closed gate; where all are open,
its entry is signed. -/
theorem entry_eq (d : Delivery) (ring : KeyRing) (recipient : Option PublicRing) (message : Message)
    (o : Outlook) (access : Access) (now : Timestamp) (store : Store) :
    (∃ gate, Gate.closed? ring o d.peer recipient message Gate.storing = some gate ∧
      d.entry ring o access now store = .error (gate.error d.peer)) ∨
    (Gate.closed? ring o d.peer recipient message Gate.storing = none ∧
      d.entry ring o access now store =
        (access.mint store (d.payload ring) ring d.receiverKey now).mapError fun e =>
          .cryptoFailure e.message) := by
  unfold Delivery.entry Gate.closed? Gate.storing
  cases hbootstrapped : o.bootstrapped with
  | false =>
    exact .inl ⟨.bootstrapped, by simp [Gate.isOpen, hbootstrapped],
      by simp [Outlook.obstacle?, hbootstrapped, Gate.error]⟩
  | true =>
  by_cases hconnections : o.connections = 0
  · exact .inl ⟨.connected, by simp [List.find?, Gate.isOpen, hbootstrapped, hconnections],
      by simp [Outlook.obstacle?, hbootstrapped, hconnections, Gate.error]⟩
  cases haddress : o.address with
  | none =>
    exact .inl ⟨.ownAddress, by simp [List.find?, Gate.isOpen, hbootstrapped,
      hconnections, haddress],
      by simp [Outlook.obstacle?, hbootstrapped, hconnections, Gate.error]⟩
  | some own =>
    exact .inr ⟨by simp [List.find?, Gate.isOpen, hbootstrapped, hconnections, haddress],
      by simp [Outlook.obstacle?, hbootstrapped, hconnections]⟩

theorem Access.taken_of_add {e : Entry} {after : Store} (h : access.add store e = .ok after) :
    access.Taken store e after ∧ after ≠ store := by
  unfold Access.add at h
  split at h
  · cases h
  · cases hadd : store.add e with
    | error error => simp [hadd, Except.map] at h
    | ok stored =>
      obtain ⟨-, -, hfresh, rfl⟩ := Store.add_ok hadd
      obtain rfl : access.publishing store _ = after := by simpa [hadd, Except.map] using h
      have hsequences : (access.publishing store
          { store with
            entries := store.entries.insert e.hash (.mailbox e)
            sequences := store.sequences.insert e.hash e.sequence
            feed := store.feed.publish { added := [.mailbox e] } }).sequences =
          store.sequences.insert e.hash e.sequence := by
        unfold Access.publishing
        split <;> rfl
      refine ⟨⟨?_, hsequences, ?_⟩, fun hsame => ?_⟩
      · unfold Access.publishing
        split <;> rfl
      · unfold Access.publishing
        split <;> rfl
      · -- the recorded number was below the new one
        have hnumber : store.sequences.get? e.hash = some e.sequence := by
          rw [← hsame, hsequences, SortedMap.get?_insert, if_pos rfl]
        exact absurd (Store.isFresh_iff.mp hfresh _ hnumber) (UInt32.lt_irrefl _)

omit [Suite] in
theorem isStored_outcome (b : Broadcast) : (Delivery.outcome b).IsStored := by
  cases b with
  | sufficient completed => exact .inl rfl
  | insufficient completed failed => exact .inr ⟨completed, failed, rfl⟩

omit [Suite] in
theorem not_isStored_arrived : ¬ SendOutcome.arrived.IsStored := by
  rintro (h | ⟨_, _, h⟩) <;> cases h

omit [Suite] in
theorem not_isStored_fault {error : SendError}
    (h : ∀ completed failed, error ≠ .broadcastInsufficient completed failed) :
    ¬ (SendOutcome.fault error).IsStored := by
  rintro (h' | ⟨completed, failed, h'⟩)
  · cases h'
  · exact h completed failed (SendOutcome.fault.inj h')

/-- What becomes of a parcel that did not arrive: the outcome, what is asked for, and the store
after it. -/
inductive Delivery.Fares (d : Delivery) (ring : KeyRing) (recipient : Option PublicRing)
    (message : Message) (o : Outlook) (access : Access) (now : Timestamp) (there : Store) :
    SendOutcome → List Errand → Store → Prop where
  | closed {gate : Gate}
      (first : Gate.closed? ring o d.peer recipient message Gate.storing = some gate) :
      Fares d ring recipient message o access now there (.fault (gate.error d.peer)) [] there
  | unsigned {error : CryptoError}
      (allOpen : Gate.closed? ring o d.peer recipient message Gate.storing = none)
      (unsigned : access.mint there (d.payload ring) ring d.receiverKey now = .error error) :
      Fares d ring recipient message o access now there (.fault (.cryptoFailure error.message))
        [] there
  | refused {e : Entry} {error : OverlayError}
      (allOpen : Gate.closed? ring o d.peer recipient message Gate.storing = none)
      (signed : access.mint there (d.payload ring) ring d.receiverKey now = .ok e)
      (refused : access.add there e = .error error) :
      Fares d ring recipient message o access now there (.fault (Delivery.refusal error))
        [.add e] there
  | taken {e : Entry} {after : Store}
      (allOpen : Gate.closed? ring o d.peer recipient message Gate.storing = none)
      (signed : access.mint there (d.payload ring) ring d.receiverKey now = .ok e)
      (taken : access.add there e = .ok after) :
      Fares d ring recipient message o access now there (Delivery.outcome there.broadcast)
        [.add e] after

omit [Suite] in
theorem ask_bind {α β : Type} (errand : Errand) (answer : α) (next : α → StateM (List Errand) β)
    (errands : List Errand) :
    (ask errand answer >>= next) errands = next answer (errands ++ [errand]) := rfl

omit [Suite] in
theorem pure_errands {α : Type} (answer : α) (errands : List Errand) :
    (pure answer : StateM (List Errand) α) errands = (answer, errands) := rfl

section Run

variable {transport : Transport} {errands : List Errand} {failure : TransportError}

theorem run_arrived (h : transport d.peer d.parcel = .ok ()) :
    d.run transport ring o access now store errands =
      ((.arrived, store), errands ++ [.carry d.peer d.parcel]) := by
  simp only [Delivery.run, ask_bind, h, pure_errands]

theorem run_of_entry_error {error : SendError} (h : transport d.peer d.parcel = .error failure)
    (hentry : d.entry ring o access now store = .error error) :
    d.run transport ring o access now store errands =
      ((.fault error, store), errands ++ [.carry d.peer d.parcel]) := by
  simp only [Delivery.run, ask_bind, h, hentry, pure_errands]

theorem run_of_entry_ok {e : Entry} (h : transport d.peer d.parcel = .error failure)
    (hentry : d.entry ring o access now store = .ok e) :
    d.run transport ring o access now store errands =
      (Delivery.put access store e, errands ++ [.carry d.peer d.parcel] ++ [.add e]) := by
  simp only [Delivery.run, ask_bind, h, hentry, ask]

theorem run_fares (h : transport d.peer d.parcel = .error failure) :
    ∃ outcome more after,
      d.run transport ring o access now store errands =
        ((outcome, after), errands ++ .carry d.peer d.parcel :: more) ∧
      d.Fares ring recipient message o access now store outcome more after := by
  obtain ⟨gate, hclosed, hentry⟩ | ⟨hopen, hentry⟩ :=
    entry_eq d ring recipient message o access now store
  · exact ⟨_, [], store, run_of_entry_error h hentry, .closed hclosed⟩
  · cases hmint : access.mint store (d.payload ring) ring d.receiverKey now with
    | error error =>
      rw [hmint] at hentry
      exact ⟨_, [], store, run_of_entry_error h hentry, .unsigned hopen hmint⟩
    | ok e =>
      rw [hmint] at hentry
      have hrun : d.run transport ring o access now store errands =
          (Delivery.put access store e, errands ++ .carry d.peer d.parcel :: [.add e]) := by
        rw [run_of_entry_ok h hentry, List.append_assoc]
        rfl
      cases hadd : access.add store e with
      | error error =>
        exact ⟨_, [.add e], store, by rw [hrun, Delivery.put, hadd], .refused hopen hmint hadd⟩
      | ok after =>
        exact ⟨_, [.add e], after, by rw [hrun, Delivery.put, hadd], .taken hopen hmint hadd⟩

end Run

section Fares

variable {outcome : SendOutcome} {more : List Errand} {after : Store}
  (h : d.Fares ring recipient message o access now store outcome more after)
include h

theorem Delivery.Fares.ne_arrived : outcome ≠ .arrived := by
  cases h with
  | taken => cases store.broadcast <;> simp [Delivery.outcome]
  | _ => simp

/-- The outcome says whether the store has changed. -/
theorem Delivery.Fares.changed_iff : after ≠ store ↔ outcome.IsStored := by
  cases h with
  | closed =>
    refine iff_of_false (fun hne => hne rfl) (not_isStored_fault fun _ _ => ?_)
    cases ‹Gate› <;> simp [Gate.error]
  | unsigned => exact iff_of_false (fun hne => hne rfl) (not_isStored_fault (by simp))
  | refused =>
    refine iff_of_false (fun hne => hne rfl) (not_isStored_fault fun _ _ => ?_)
    cases ‹OverlayError› <;> simp [Delivery.refusal]
  | taken _ _ htaken => exact iff_of_true (Access.taken_of_add htaken).2 (isStored_outcome _)

/-- A changed store has taken one entry of the payload, and nothing else was asked for. -/
theorem Delivery.Fares.taken_of_ne (hne : after ≠ store) :
    ∃ e : Entry, e.payload = d.payload ring ∧ more = [.add e] ∧ access.Taken store e after := by
  cases h with
  | taken _ hsigned htaken =>
    refine ⟨_, ?_, rfl, (Access.taken_of_add htaken).1⟩
    unfold Access.mint at hsigned
    split at hsigned <;> cases hsigned
    rfl
  | _ => exact absurd rfl hne

end Fares

/-! ## The whole send -/

variable {p : Passage} {keys : PublicRing} {own : Address} {rest : Draws}

theorem send_of_closed {gate : Gate}
    (h : gates ring p.before peer recipient message =
      .error (if gate.refuses then .refused (gate.error peer) else .failed (gate.error peer))) :
    p.send ring peer recipient message store = ⟨gate.verdict peer, store, []⟩ := by
  simp only [Passage.send, request, h, Gate.verdict]
  cases gate.refuses <;> rfl

theorem send_of_unsealed {error : CryptoError}
    (h : gates ring p.before peer recipient message = .ok (keys, own))
    (hseal : p.sealer keys (.mailbox message) p.draws = (.error error, rest)) :
    p.send ring peer recipient message store =
      ⟨.ok (.fault (.cryptoFailure error.message)), store, [.sealTo keys (.mailbox message)]⟩ := by
  simp only [Passage.send, request, h, ask_bind, hseal, pure_errands, List.nil_append]

theorem send_of_sealed {sealed : Sealed} {outcome : SendOutcome} {after : Store}
    {errands : List Errand} (h : gates ring p.before peer recipient message = .ok (keys, own))
    (hseal : p.sealer keys (.mailbox message) p.draws = (.ok sealed, rest))
    (hrun :
      (⟨peer, keys.signatureKey, message.ttl, own, sealed, p.before.prefixHash peer, message.uid⟩ :
        Delivery).run p.transport ring p.after p.access p.now (p.meanwhile store)
          [.sealTo keys (.mailbox message)] = ((outcome, after), errands)) :
    p.send ring peer recipient message store = ⟨.ok outcome, after, errands⟩ := by
  simp only [Passage.send, request, h, ask_bind, hseal, pure_errands, List.nil_append, hrun]

/-- A send does nothing but what its outcome says. The first closed gate decides it before anything
is asked for. Else the message is sealed once; if that fails, nothing else happens. Else the parcel
is carried once: it arrived if and only if the outcome says so, and then the store is as the others
left it. If it did not arrive, the store changes if and only if the outcome says that it took the
message, and then it has taken one entry of the payload. -/
theorem send_truthful (p : Passage) (ring : KeyRing) (peer : Address)
    (recipient : Option PublicRing) (message : Message) (store : Store) :
    let done := p.send ring peer recipient message store
    let first := Gate.closed? ring p.before peer recipient message Gate.calling
    (∀ gate, first = some gate → done.result = gate.verdict peer ∧ done.errands = [] ∧
      done.store = store) ∧
    (first = none → ∃ keys own, recipient = some keys ∧ p.before.address = some own ∧
      (∀ error rest, p.sealer keys (.mailbox message) p.draws = (.error error, rest) →
        done.result = .ok (.fault (.cryptoFailure error.message)) ∧
        done.errands = [.sealTo keys (.mailbox message)] ∧ done.store = store) ∧
      (∀ sealed rest, p.sealer keys (.mailbox message) p.draws = (.ok sealed, rest) →
        let d : Delivery :=
          ⟨peer, keys.signatureKey, message.ttl, own, sealed, p.before.prefixHash peer, message.uid⟩
        let there := p.meanwhile store
        ∃ (outcome : SendOutcome) (more : List Errand),
          done.result = .ok outcome ∧
          done.errands = .sealTo keys (.mailbox message) :: .carry peer d.parcel :: more ∧
          (outcome = .arrived ↔ p.transport peer d.parcel = .ok ()) ∧
          (outcome = .arrived → more = [] ∧ done.store = there) ∧
          (outcome ≠ .arrived →
            d.Fares ring recipient message p.after p.access p.now there outcome more done.store) ∧
          (done.store ≠ there ↔ outcome.IsStored) ∧
          (outcome.IsStored → ∃ e : Entry,
            e.payload = d.payload ring ∧ more = [.add e] ∧
              p.access.Taken there e done.store))) := by
  intro done first
  obtain ⟨gate, hclosed, hgates⟩ | ⟨keys, own, hopen, rfl, hown, hgates⟩ :=
    gates_eq ring p.before peer recipient message
  · -- a gate is closed: the call ends with its verdict
    have hdone : done = ⟨gate.verdict peer, store, []⟩ := send_of_closed hgates
    refine ⟨fun gate' hgate' => ?_, fun hnone => absurd (hclosed.symm.trans hnone) (by simp)⟩
    obtain rfl : gate = gate' := Option.some.inj (hclosed.symm.trans hgate')
    rw [hdone]
    exact ⟨rfl, rfl, rfl⟩
  · refine ⟨fun gate hgate => absurd (hopen.symm.trans hgate) (by simp),
      fun _ => ⟨keys, own, rfl, hown, ?_, ?_⟩⟩
    · intro error rest hseal
      have hdone : done = _ := send_of_unsealed hgates hseal
      rw [hdone]
      exact ⟨rfl, rfl, rfl⟩
    · -- all that is left to do is the delivery
      intro sealed rest hseal d there
      cases hcarried : p.transport peer d.parcel with
      | ok =>
        have hdone : done = _ := send_of_sealed hgates hseal (run_arrived hcarried)
        rw [hdone]
        exact ⟨.arrived, [], rfl, rfl, by simp, fun _ => ⟨rfl, rfl⟩, fun h => absurd rfl h,
          iff_of_false (fun h => h rfl) not_isStored_arrived, fun h =>
            absurd h not_isStored_arrived⟩
      | error failure =>
        obtain ⟨outcome, more, after, hrun, hfares⟩ := run_fares hcarried
        have hdone : done = _ := send_of_sealed hgates hseal hrun
        rw [hdone]
        exact ⟨outcome, more, rfl,
          rfl, by simp [hfares.ne_arrived], fun h => absurd h hfares.ne_arrived,
          fun _ => hfares, hfares.changed_iff, fun h =>
            hfares.taken_of_ne (hfares.changed_iff.mpr h)⟩

/-! ## Sends that end in the store -/

theorem request_prepared (ring : KeyRing) (sealer : Sealer) (o : Outlook) (peer : Address)
    (recipient : Option PublicRing) (message : Message) (draws : Draws) (errands : List Errand) :
    (request ring sealer o peer recipient message draws errands).1 =
      prepare ring sealer o peer recipient message draws := by
  unfold request prepare
  cases gates ring o peer recipient message with
  | error prepared => rfl
  | ok found =>
    simp only [ask_bind]
    rcases sealer found.1 (.mailbox message) draws with ⟨⟨error⟩ | ⟨sealed⟩, rest⟩ <;> rfl

theorem run_published {transport : Transport} {errands : List Errand} {failure : TransportError}
    (h : transport d.peer d.parcel = .error failure) :
    (d.run transport ring o access now store errands).1 = d.publish ring o access now store := by
  unfold Delivery.publish
  cases hentry : d.entry ring o access now store with
  | error error => rw [run_of_entry_error h hentry]
  | ok e => rw [run_of_entry_ok h hentry]

/-- A send whose outcome is that the message was stored has stored what the call had prepared. -/
theorem stores_of_send (hsealer : p.sealer = ring.sealEnvelope) (haccess : p.access = .full)
    (h : (p.send ring peer (some keys) message store).result = .ok .stored) :
    ∃ d rest,
      prepare ring ring.sealEnvelope p.before peer (some keys) message p.draws = (.ready d, rest) ∧
      Stores ring keys message (d.payload ring) (p.meanwhile store)
        (p.send ring peer (some keys) message store).store := by
  have hprepared := request_prepared ring p.sealer p.before peer (some keys) message p.draws []
  unfold Passage.send at h ⊢
  split at h
  · cases h
  · cases h
  · next d rest errands hrequest =>
    rw [hrequest, hsealer] at hprepared
    cases hcarried : p.transport d.peer d.parcel with
    | ok => simp [run_arrived hcarried] at h
    | error failure =>
      have hpublished :
          (d.run p.transport ring p.after p.access p.now (p.meanwhile store) errands).1 =
            d.publish ring p.after p.access p.now (p.meanwhile store) := run_published hcarried
      rw [haccess] at hpublished h ⊢
      rcases hrun : d.run p.transport ring p.after .full p.now (p.meanwhile store) errands with
        ⟨⟨outcome, after⟩, more⟩
      rw [hrun] at hpublished h
      obtain rfl : outcome = .stored := by simpa using h
      exact ⟨d, rest, hprepared.symm, p.before, p.after, peer, p.draws, rest, d, p.now,
        hprepared.symm, rfl, hpublished.symm⟩

end SealedMail
