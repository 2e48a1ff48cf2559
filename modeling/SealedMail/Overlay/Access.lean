import SealedMail.Overlay.Store

/-!
# A node's access to the store

Nodes use the store through an `Access`, which may refuse to sign or to store, ignore removals, list
entries twice or keep changes from the feed. `Access.full` does none of this.
-/

namespace SealedMail

structure Access where
  /-- Payloads for which no entry can be signed. -/
  signingFails : Payload → Bool := fun _ => false
  addFails : Option OverlayError := none
  refusesRemoval : Bool := false
  repeatsSnapshot : Bool := false
  /-- Changes are not published. -/
  isSilent : Bool := false

namespace Access

def full : Access := {}

def snapshot (a : Access) (s : Store) : List StoredEntry :=
  if a.repeatsSnapshot then s.snapshot ++ s.snapshot else s.snapshot

/-- The store after a change, with the feed of the store before it if changes are not published. -/
def publishing (a : Access) (before after : Store) : Store :=
  if a.isSilent then { after with feed := before.feed } else after

variable [Suite]

def mint (a : Access) (s : Store) (payload : Payload) (ring : KeyRing) (receiverKey : SignatureKey)
    (now : Timestamp) : Except CryptoError Entry :=
  if a.signingFails payload then .error (.signingFailed "fault")
  else .ok (s.mint payload ring receiverKey now)

def add (a : Access) (s : Store) (e : Entry) : Except OverlayError Store :=
  match a.addFails with
  | some error => .error error
  | none => (s.add e).map (a.publishing s)

def remove (a : Access) (s : Store) (e : Entry) : Store × Bool :=
  if a.refusesRemoval then (s, false)
  else
    let (s', removed) := s.remove e
    (a.publishing s s', removed)

end Access

end SealedMail
