import SealedMail.Codec.Record

/-!
# Capabilities

What a node announces that it understands. A set of capabilities is listed in the order of their
declaration.
-/

namespace SealedMail

inductive Capability where
  | seedNode
  | noAddressPrefix
  | ackMessage
  | tradeStatistics3
  | mediation
  | refundAgent
  | signedAccountAgeWitness
  deriving DecidableEq, Repr

namespace Capability

def all : List Capability :=
  [seedNode, noAddressPrefix, ackMessage, tradeStatistics3, mediation, refundAgent,
    signedAccountAgeWitness]

def name : Capability → String
  | seedNode => "SeedNode"
  | noAddressPrefix => "NoAddressPrefix"
  | ackMessage => "AckMsg"
  | tradeStatistics3 => "TradeStatistics3"
  | mediation => "Mediation"
  | refundAgent => "RefundAgent"
  | signedAccountAgeWitness => "SignedAccountAgeWitness"

def ofName? (name : String) : Option Capability := all.find? (·.name = name)

instance : Codec Capability := .enumeration all name

def rank (c : Capability) : Nat := all.idxOf c

instance : LT Capability := ⟨fun a b => a.rank < b.rank⟩

instance : DecidableLT Capability := fun a b => inferInstanceAs (Decidable (a.rank < b.rank))

instance : KeyOrder Capability where
  asymm := Nat.lt_asymm
  trans := Nat.lt_trans
  eq_of_not_lt {a b} := by cases a <;> cases b <;> decide

end Capability

abbrev Capabilities := SortedSet Capability

namespace Capabilities

instance : Codec Capabilities := .sortedSet

def ofList (cs : List Capability) : Capabilities := SortedMap.ofList (cs.map (·, ()))

/-- Whether every capability of `required` is present. -/
def includes (present required : Capabilities) : Bool := required.keys.all present.contains

end Capabilities

end SealedMail
