import SealedMail.Proofs.Mailbox.Admission
import SealedMail.Proofs.Mailbox.Delivery

/-!
# Wrapper and content

A sealed text travels in a payload that shows a sender's key and a uid in clear. The store checks
the wrapper: whoever adds a payload signs for it with the key that it shows. The mailbox checks the
content: it takes the sender's key and the uid from what the text opens to. Nothing compares the
two. They agree in whatever a ring has sent, and need not agree in what others have wrapped.
-/

namespace SealedMail.History

variable [Suite]

/-- Over any history of a mailbox on a store that others only send requests to: what is admitted
comes from an entry that the store has taken, signed for with the key that its payload shows, and it
pairs this entry with the message and the key that the sealed text inside attests to. If the payload
is what some ring has sent to the mailbox, the key and the uid that it shows are those inside.
Listeners are told only of what is admitted. -/
theorem admitted_items_vouched (setup : Setup) (env : Surroundings) (capacity : Nat)
    (broadcast : Broadcast) (requests : List Store.Request) (disk : Disk) (turns : List Turn)
    (hturns : ∀ t ∈ turns, t.Served) :
    let empty : Store := .ofCapacity capacity broadcast
    let s := start setup env (requests.foldl Store.serve empty) disk
    (∀ item ∈ admitted setup s turns,
      (empty.Takes requests item.entry ∨ Takes setup s turns item.entry) ∧
      item.entry.ownerKey = item.entry.payload.senderKey ∧
      item.entry.payload.senderKey.verifies (Entry.signedOctets item.hash item.entry.sequence)
        item.entry.signature = true ∧
      item.entry.Attests setup.ring item.opened ∧
      (Suite.Laws → ∀ sender message, Sent sender setup.ring.publicRing message item.entry.payload →
        item.entry.payload.senderKey = item.opened.signatureKey ∧
        item.opened.envelope = .mailbox message ∧ item.entry.uid = message.uid)) ∧
    ∀ id, ∀ report ∈ (s.run setup turns).reports id, ∃ item ∈ admitted setup s turns,
      item.report? = some report := by
  intro empty s
  have hv : s.mailbox.index.Valid := valid_start setup env _ disk
  refine ⟨fun item hi => ?_, fun id report hr => ?_⟩
  · obtain ⟨ho, before, after, rfl, hahead⟩ := mem_admitted hv hi
    have htaken : empty.Takes requests item.entry ∨ Takes setup s (before ++ after) item.entry := by
      rcases ahead_run (fun t ht => hturns t (List.mem_append_left _ ht)) hahead with h | h
      · rcases Store.mem_snapshot_foldl_serve (Mailbox.ahead_restore h) with h | h
        · cases h
        · exact .inl h
      · exact .inr h.mono
    obtain ⟨hkey, hsigned⟩ :
        item.entry.ownerKey = item.entry.payload.senderKey ∧ item.entry.isSigned = true := by
      rcases htaken with ⟨_, _, -, h⟩ | h
      · exact Store.vouched_of_accepted? h
      · exact h.vouched
    refine ⟨htaken, hkey, hkey ▸ hsigned, (opening_eq_received_iff.1 ho).2,
      fun laws sender message hsent => ?_⟩
    have hopened : item.opened = ⟨.mailbox message, sender.signatureKey⟩ :=
      congrArg Item.opened (Opening.received.inj (ho.symm.trans (hsent.opening laws rfl)))
    rw [hopened]
    exact ⟨hsent.senderKey, rfl, hsent.uid⟩
  · rcases mem_reports_run hv hr with h | h
    · rw [reports_start] at h
      cases h
    · exact h

end SealedMail.History

namespace SealedMail.History

attribute [local instance] Suite.transparent

open Transparent

/-- The third ring wraps the sealed text of the letter in its own name, under another uid. -/
def rewrapped : Payload :=
  { letterPayload with
    parcel := { letterPayload.parcel with uid := "w" }
    senderKey := (ring 3).signatureKey }

def rewrappedEntry : Entry :=
  (Store.ofCapacity 8 (.sufficient 1)).mint rewrapped (ring 3) (ring 2).signatureKey ⟨0⟩

/-- The letter is received. Then its sealed text is seen once more, in another wrapper. -/
def rewrapping : List Turn :=
  [.event (online 0) (.command (.addListener 7)), .event (online 0) (.command .bootstrap),
    .overlay fun s => s.serve (.add (entry (ring 1) (ring 2) (letter "u") 1)),
    .event (online 0) .notice, .event (online 0) .notice,
    .overlay fun s => s.serve (.add rewrappedEntry),
    .event (online 0) .notice]

theorem served_rewrapping : ∀ t ∈ rewrapping, t.Served := by
  simp only [rewrapping, List.forall_mem_cons]
  exact ⟨trivial, trivial, ⟨_, rfl⟩, trivial, trivial, ⟨_, rfl⟩, trivial,
    fun _ h => absurd h List.not_mem_nil⟩

/-- The wrapper of the letter that was sent agrees with its content, and the other is vouched for by
the third ring. -/
theorem sent_letter_agrees :
    let items := admitted Transparent.setup (afterTurns []) rewrapping
    (∀ t ∈ rewrapping, t.Served) ∧ Sent (ring 1) (ring 2).publicRing (letter "u") letterPayload ∧
      items.map (fun item => (item.entry.payload, item.entry.ownerKey)) =
        [(letterPayload, (ring 1).signatureKey), (rewrapped, (ring 3).signatureKey)] ∧
      (∀ item ∈ items, item.entry.Attests (ring 2) item.opened) ∧
      ∀ item ∈ items, item.entry.payload = letterPayload →
        item.entry.payload.senderKey = item.opened.signatureKey ∧
        item.entry.uid = (letter "u").uid := by
  intro items
  have hsent : Sent (ring 1) (ring 2).publicRing (letter "u") letterPayload :=
    ⟨letterOutlook, _, _, _, letterDelivery, letterPrepared_eq, by decide +kernel⟩
  have hvouched :=
    (admitted_items_vouched Transparent.setup (online 0) 8 (.sufficient 1) [] ⟨[], ⟨.empty⟩⟩
      rewrapping served_rewrapping).1
  refine ⟨served_rewrapping, hsent, by decide +kernel,
    fun item hi => (hvouched item hi).2.2.2.1, fun item hi hp => ?_⟩
  have h := (hvouched item hi).2.2.2.2 Suite.transparent_laws (ring 1) (letter "u") (hp ▸ hsent)
  exact ⟨h.1, h.2.2⟩

/-- The letter is delivered a second time, in the wrapper of the third ring. What its payload shows
is neither the key nor the uid inside, and the listener is told of the same letter from the same
sender again. -/
theorem rewrapped_letter_delivered_again :
    (∀ t ∈ rewrapping, t.Served) ∧
      (∃ item ∈ admitted Transparent.setup (afterTurns []) rewrapping,
        item.entry.payload.senderKey ≠ item.opened.signatureKey ∧
        item.message?.map Message.uid = some "u" ∧ item.entry.uid = "w") ∧
      ((afterTurns rewrapping).reports 7).map (·.opened) =
        [⟨.mailbox (letter "u"), (ring 1).signatureKey⟩,
          ⟨.mailbox (letter "u"), (ring 1).signatureKey⟩] := by
  exact ⟨served_rewrapping, by decide +kernel, by decide +kernel⟩

end SealedMail.History
