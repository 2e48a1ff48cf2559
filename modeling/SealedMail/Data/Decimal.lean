import SealedMail.Data.Bytes

/-!
# Decimal numerals

`Decimal.chars` writes a number without leading zeros and `Decimal.value?` reads any non-empty run
of digits, so reading what was written gives the number back (`Decimal.value?_chars`). The same
numerals as octets serve formats that are read octet by octet.
-/

namespace SealedMail.Decimal

def chars (n : Nat) : List Char := Nat.toDigits 10 n

/-- The number that a non-empty run of decimal digits stands for; leading zeros are allowed. -/
def value? (cs : List Char) : Option Nat :=
  if cs ≠ [] ∧ cs.all Char.isDigit then some (Nat.ofDigitChars 10 cs 0) else none

theorem isDigit_of_mem_chars {n : Nat} {c : Char} (h : c ∈ chars n) : c.isDigit :=
  Nat.isDigit_of_mem_toDigits (by decide) (by decide) h

@[simp] theorem value?_chars (n : Nat) : value? (chars n) = some n := by
  have h : ∀ c ∈ Nat.toDigits 10 n, c.isDigit := fun _ => isDigit_of_mem_chars
  simpa [value?, chars, Nat.toDigits_ne_nil, Nat.ofDigitChars_toDigits] using h

/-! ## As octets -/

def octets (n : Nat) : Bytes := (chars n).map Char.toUInt8

def ofOctets? (bs : Bytes) : Option Nat := value? (bs.map Char.ofUInt8)

theorem ofUInt8_toUInt8 {c : Char} (h : c.isDigit) : Char.ofUInt8 c.toUInt8 = c := by
  have hv : c.toNat < 256 := by
    simp only [Char.isDigit, Bool.and_eq_true, decide_eq_true_eq, UInt32.le_iff_toNat_le] at h
    exact Nat.lt_of_le_of_lt h.2 (by decide)
  apply Char.toNat_inj.1
  change (c.val.toUInt8).toUInt32.toNat = c.val.toNat
  rw [UInt8.toNat_toUInt32, UInt32.toNat_toUInt8]
  exact Nat.mod_eq_of_lt hv

@[simp] theorem ofOctets?_octets (n : Nat) : ofOctets? (octets n) = some n := by
  have h : ((chars n).map Char.toUInt8).map Char.ofUInt8 = chars n := by
    rw [List.map_map]
    conv => rhs; rw [← List.map_id (chars n)]
    exact List.map_congr_left fun c hc => ofUInt8_toUInt8 (isDigit_of_mem_chars hc)
  rw [ofOctets?, octets, h, value?_chars]

end SealedMail.Decimal
