import SealedMail.Message.Entry

/-!
# The feed of changes

Changes are published in order, and each subscriber reads from its own place. Only the newest
`capacity` changes are kept: a subscriber that is further behind is told that it lagged and goes on
with the oldest one that is kept.
-/

namespace SealedMail

structure Feed where
  capacity : Nat
  history : List Change := []
  closed : Bool := false
  deriving DecidableEq, Repr

inductive Notice where
  | change (change : Change)
  | lagged
  | closed
  deriving DecidableEq, Repr

namespace Feed

/-- The place from which a new subscriber reads. -/
def position (f : Feed) : Nat := f.history.length

def publish (f : Feed) (c : Change) : Feed := { f with history := f.history ++ [c] }

def close (f : Feed) : Feed := { f with closed := true }

/-- The next notice at `place` and the place after it; none while there is nothing to read. -/
def read? (f : Feed) (place : Nat) : Option (Notice × Nat) :=
  if f.capacity < f.history.length - place then some (.lagged, f.history.length - f.capacity)
  else
    match f.history[place]? with
    | some c => some (.change c, place + 1)
    | none => if f.closed then some (.closed, place) else none

end Feed

end SealedMail
