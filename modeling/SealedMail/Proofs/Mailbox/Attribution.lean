import SealedMail.Proofs.Mailbox.Admission
import SealedMail.Proofs.Mailbox.Restart

/-!
# Attribution to senders

Whatever others do to the overlay and whatever writes fail, each item that is indexed or on disk
pairs an entry with what that entry attests to: a turn indexes only what was indexed or on disk
before or is received just then (`mem_index_turn`), and writes only what is indexed. Listeners are
told only of items that were just received.
-/

namespace SealedMail.History

variable [Suite] {setup : Setup} {s : History} {t : Turn} {item : Item} {ring : KeyRing}

theorem mem_index_turn (hv : s.mailbox.index.Valid)
    (hi : item ∈ (s.turn setup t).mailbox.index.items) :
    item ∈ s.mailbox.index.items ∨ item ∈ s.disk.items ∨
      item.entry.opening setup.ring = .received item := by
  cases t with
  | overlay change => exact .inl hi
  | restart env =>
    have hi : item ∈ (Index.ofList s.disk.items env.now setup.ttl).items := hi
    rw [Index.ofList, Index.items_foldl_insert, List.nil_append] at hi
    exact .inr (.inl (List.mem_of_mem_filter (Index.mem_of_mem_news hi)))
  | event env ev =>
    obtain ⟨m', m, h, hf, hturn⟩ := turn_event setup s env ev
    rw [hturn, hf.index] at hi
    rcases h.admitted with ⟨es, ha, -⟩ | ⟨-, uid, hc⟩
    · rw [ha.index, Index.items_foldl_insert] at hi
      refine (List.mem_append.1 hi).imp_right fun hi => .inr ?_
      exact (mem_received.1 (Index.mem_of_mem_news hi)).2
    · exact .inl (hc.mem_of_mem hv hi)

/-- What is indexed or on disk is what its entries attest to. -/
structure Attested (ring : KeyRing) (s : History) : Prop where
  indexed : ∀ item ∈ s.mailbox.index.items, item.entry.Attests ring item.opened
  onDisk : ∀ item ∈ s.disk.items, item.entry.Attests ring item.opened

theorem Attested.turn (h : s.Attested setup.ring) (hv : s.mailbox.index.Valid) (t : Turn) :
    (s.turn setup t).Attested setup.ring := by
  have hindexed :
      ∀ item ∈ (s.turn setup t).mailbox.index.items, item.entry.Attests setup.ring item.opened := by
    intro item hi
    rcases mem_index_turn hv hi with hi | hi | ho
    · exact h.indexed item hi
    · exact h.onDisk item hi
    · exact (opening_eq_received_iff.1 ho).2
  refine ⟨hindexed, fun item hi => ?_⟩
  rcases items_disk_turn setup s t with hd | hd
  · exact h.onDisk item (hd ▸ hi)
  · exact hindexed item (hd ▸ hi)

theorem Attested.run (h : s.Attested setup.ring) (hv : s.mailbox.index.Valid) (turns : List Turn) :
    (s.run setup turns).Attested setup.ring := by
  induction turns generalizing s with
  | nil => exact h
  | cons t turns ih => exact ih (h.turn hv t) (valid_turn hv t)

theorem Attested.start (env : Surroundings) (store : Store) {disk : Disk}
    (h : ∀ item ∈ disk.items, item.entry.Attests setup.ring item.opened) :
    (start setup env store disk).Attested setup.ring := by
  let blank : History := { mailbox := { store }, disk }
  have hblank : blank.Attested setup.ring := ⟨fun _ hi => absurd hi List.not_mem_nil, h⟩
  exact hblank.turn (Index.valid_ofList [] env.now setup.ttl) (.restart env)

/-- What mailboxes of one ring have left on disk is what its entries attest to. -/
theorem attested_of_left {disk : Disk} (h : disk.Left fun earlier => earlier.ring = ring) :
    ∀ item ∈ disk.items, item.entry.Attests ring item.opened := by
  induction h with
  | blank => exact fun _ hi => absurd hi List.not_mem_nil
  | written env store turns hring _ ih =>
    subst hring
    exact ((Attested.start env store ih).run (valid_start _ env store _) turns).onDisk

/-- Over any history of a mailbox that starts from what earlier mailboxes with the same ring have
left, or from nothing, each item in the index or on disk pairs an entry with what this entry opens
to, which is what it attests to. The same holds of whatever a listener is told. Nothing is asked of
the primitives, of the overlay or of the writes. -/
theorem attribution_sound (setup : Setup) (env : Surroundings) (store : Store) (disk left : Disk)
    (turns : List Turn) (hleft : left.Left fun earlier => earlier.ring = setup.ring)
    (hitems : disk.items = left.items) :
    let s := (start setup env store disk).run setup turns
    (∀ item, item ∈ s.mailbox.index.items ∨ item ∈ s.disk.items →
      item.entry.opening setup.ring = .received item ∧ item.entry.Attests setup.ring item.opened) ∧
    ∀ id, ∀ report ∈ s.reports id, ∃ item : Item, item.report? = some report ∧
      item.entry.opening setup.ring = .received item ∧
      item.entry.Attests setup.ring report.opened := by
  intro s
  have hv := valid_start setup env store disk
  have hs : s.Attested setup.ring :=
    (Attested.start env store (hitems ▸ attested_of_left hleft)).run hv turns
  refine ⟨fun item hi => ?_, fun id report hr => ?_⟩
  · have hattests := hi.elim (hs.indexed item) (hs.onDisk item)
    exact ⟨opening_eq_received_iff.2 ⟨rfl, hattests⟩, hattests⟩
  · rcases mem_reports_run hv hr with h | ⟨item, hi, hreport⟩
    · rw [reports_start] at h
      cases h
    · have ho := (mem_admitted hv hi).1
      obtain ⟨message, -, rfl⟩ := Option.map_eq_some_iff.1 hreport
      exact ⟨item, hreport, ho, (opening_eq_received_iff.1 ho).2⟩

end SealedMail.History

namespace SealedMail.History

attribute [local instance] Suite.transparent

open Transparent

/-- What the third ring makes of a letter in the name of the first: it cannot sign with the first
ring's seed. -/
def forged : Payload :=
  let plain := Codec.put (Envelope.mailbox (letter "x"))
  let signature := (ring 3).sign (Sealed.signedOctets (ring 2).encryptionKey plain)
  ⟨⟨⟨"a.onion", 1⟩, enclosed (ring 2) (ring 1).signatureKey signature plain, [], "x"⟩,
    (ring 3).signatureKey,
    (ring 2).signatureKey, 1000⟩

/-- The forged letter and a genuine one are shown to a mailbox with a listener, which is then
restarted. -/
def attacked : List Turn :=
  [.event (online 1000) (.command (.addListener 7)),
    .overlay fun s => s.serve (.add (s.mint forged (ring 3) (ring 2).signatureKey ⟨1000⟩)),
    posted (ring 1) (ring 2) "w" 1000, .event (online 1000) (.command .bootstrap),
    .event (online 1000) (.batch 0), .restart (online 1000)]

/-- The forged letter is stored, but neither indexed nor reported. -/
theorem forged_letter_not_attributed :
    let start := start Transparent.setup (online 1000) (.ofCapacity 8 (.sufficient 1)) leftBehind
    let s := start.run Transparent.setup attacked
    leftBehind.Left (fun earlier => earlier.ring = Transparent.setup.ring) ∧
      (∀ item ∈ s.disk.items, item.entry.Attests (ring 2) item.opened) ∧
      s.mailbox.store.contains forged.hash = true ∧ s.mailbox.index.contains forged.hash = false ∧
      (s.mailbox.index.items.map fun item => (item.uid, item.opened.signatureKey)) =
        [("v", (ring 1).signatureKey), ("u", (ring 1).signatureKey), ("u", (ring 4).signatureKey),
          ("w", (ring 1).signatureKey)] ∧
      (s.reports 7).map (·.opened) = [⟨.mailbox (letter "w"), (ring 1).signatureKey⟩] := by
  have hleft : leftBehind.Left fun earlier => earlier.ring = Transparent.setup.ring :=
    .written (unsigned 900) (.ofCapacity 8 (.sufficient 1)) earlier rfl .blank
  have hsound := attribution_sound Transparent.setup (online 1000)
    (.ofCapacity 8 (.sufficient 1)) leftBehind leftBehind attacked hleft rfl
  refine ⟨hleft, fun item hi => (hsound.1 item (.inr hi)).2, ?_⟩
  decide +kernel

end SealedMail.History
