import SealedMail.Data.SortedMap

/-!
# Handles of listeners

Whoever registers a listener holds a handle to it under a name. A listener is deregistered once:
when its handle is given up, or when another handle takes the name.
-/

namespace SealedMail

structure Handles where
  held : SortedMap String UInt64 := {}
  /-- The listeners that were deregistered, in order. -/
  released : List UInt64 := []
  deriving DecidableEq, Repr, Inhabited

namespace Handles

def release (h : Handles) (name : String) : Handles :=
  match h.held.get? name with
  | none => h
  | some id => { held := h.held.erase name, released := h.released ++ [id] }

/-- Hold a listener under a name, in place of the one that was held under it. -/
def hold (h : Handles) (name : String) (id : UInt64) : Handles :=
  let h := h.release name
  { h with held := h.held.insert name id }

def holds (h : Handles) (name : String) : Bool := h.held.contains name

/-- The sum of the deregistered ids, modulo `2 ^ 64`. -/
def releasedSum (h : Handles) : UInt64 := h.released.foldl (· + ·) 0

def describe (id : UInt64) : String := s!"ListenerHandle \x7b id: {id} \x7d"

end Handles

end SealedMail
