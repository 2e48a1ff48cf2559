import SealedMail.Message.Time
import SealedMail.Codec.Record

/-!
# The ledger of ignored uids

Uids of entries that were not for us, each with the creation time of the first such entry. A uid is
dropped once its entry has outlived its time.
-/

namespace SealedMail

structure Ledger where
  data : SortedMap String Timestamp := {}
  deriving DecidableEq, Repr, Inhabited

namespace Ledger

instance : Codec Ledger :=
  .record (.field "data" (c := .textMap) .nil) (fun l => (l.data, ())) fun (d, _) => ⟨d⟩

def size (l : Ledger) : Nat := l.data.size

def isEmpty (l : Ledger) : Bool := l.data.isEmpty

def contains (l : Ledger) (uid : String) : Bool := l.data.contains uid

/-- Record a uid. The time of a uid that is recorded already stays as it is. -/
def ignore (l : Ledger) (uid : String) (created : Timestamp) : Ledger :=
  if l.contains uid then l else ⟨l.data.insert uid created⟩

/-- Drop what has outlived `ttl` milliseconds. -/
def prune (l : Ledger) (now : Timestamp) (ttl : UInt64) : Ledger :=
  ⟨l.data.filter fun _ created => !created.isExpired now ttl⟩

end Ledger

end SealedMail
