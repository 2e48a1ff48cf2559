/-!
# Orders of keys

What a collection that keeps its keys in order asks of them.
-/

namespace SealedMail

/-- A strict order in which keys are equal when neither comes before the other. -/
class KeyOrder (κ : Type) [LT κ] : Prop where
  asymm {a b : κ} : a < b → ¬ b < a
  trans {a b c : κ} : a < b → b < c → a < c
  eq_of_not_lt {a b : κ} : ¬ a < b → ¬ b < a → a = b

instance : KeyOrder Nat where
  asymm := Nat.lt_asymm
  trans := Nat.lt_trans
  eq_of_not_lt h h' := Nat.le_antisymm (Nat.not_lt.1 h') (Nat.not_lt.1 h)

/-- Texts are ordered by their characters. -/
instance : KeyOrder String where
  asymm := Std.Asymm.asymm (r := (· < · : String → String → Prop)) _ _
  trans := Trans.trans (r := (· < · : String → String → Prop)) (s := (· < ·)) (t := (· < ·))
  eq_of_not_lt := Std.Trichotomous.trichotomous (r := (· < · : String → String → Prop)) _ _

end SealedMail
