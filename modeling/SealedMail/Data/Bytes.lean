import SealedMail.Data.KeyOrder

/-!
# Byte strings

Byte strings are lists of octets. `Octets n` holds those of length `n`: keys, nonces, digests and
signatures are octet strings of a fixed length, ordered lexicographically. Numbers are written in a
fixed number of octets, least significant first (`littleEndian`) or last (`bigEndian`).
-/

namespace SealedMail

abbrev Bytes := List UInt8

/-- Byte strings of length `n`. -/
structure Octets (n : Nat) where
  toList : Bytes
  length_eq : toList.length = n
  deriving DecidableEq, Repr

namespace Octets

variable {n : Nat}

@[ext] theorem ext {a b : Octets n} (h : a.toList = b.toList) : a = b := by
  cases a; cases b; cases h; rfl

@[simp] theorem length_toList (a : Octets n) : a.toList.length = n := a.length_eq

def replicate (n : Nat) (b : UInt8) : Octets n := ⟨List.replicate n b, List.length_replicate⟩

def ofList? (bs : Bytes) : Option (Octets n) :=
  if h : bs.length = n then some ⟨bs, h⟩ else none

@[simp] theorem ofList?_toList (a : Octets n) : ofList? a.toList = some a := by
  simp [ofList?]

/-- The first `n` octets and the rest. -/
def take? (bs : Bytes) : Option (Octets n × Bytes) :=
  if h : n ≤ bs.length then some (⟨bs.take n, by simp [h]⟩, bs.drop n) else none

@[simp] theorem take?_append (a : Octets n) (rest : Bytes) :
    take? (a.toList ++ rest) = some (a, rest) := by
  have ht : (a.toList ++ rest).take n = a.toList := by simp
  have hd : (a.toList ++ rest).drop n = rest := by simp
  have hn : n ≤ (a.toList ++ rest).length := by simp
  simp only [take?, dif_pos hn, Option.some.injEq, Prod.mk.injEq]
  exact ⟨Octets.ext ht, hd⟩

/-- The octet at position `i`, zero beyond the end. -/
def get (a : Octets n) (i : Nat) : UInt8 := a.toList.getD i 0

/-! ## Lexicographic order -/

instance : LT (Octets n) := ⟨fun a b => a.toList < b.toList⟩

instance : DecidableLT (Octets n) := fun a b => inferInstanceAs (Decidable (a.toList < b.toList))

instance : KeyOrder (Octets n) where
  asymm {a b} := Std.Asymm.asymm (r := (· < · : Bytes → Bytes → Prop)) a.toList b.toList
  trans {a b c} h h' :=
    Trans.trans (r := (· < · : Bytes → Bytes → Prop)) (s := (· < ·)) (t := (· < ·))
      (a := a.toList) (b := b.toList) (c := c.toList) h h'
  eq_of_not_lt h h' :=
    Octets.ext (Std.Trichotomous.trichotomous (r := (· < · : Bytes → Bytes → Prop)) _ _ h h')

end Octets

/-- The first `count` pieces of `size` octets each; pieces past the end are short or empty. -/
def pieces (size : Nat) : Nat → Bytes → List Bytes
  | 0, _ => []
  | count + 1, bs => bs.take size :: pieces size count (bs.drop size)

/-- Exclusive or, octet by octet, as far as both go. -/
def xorBytes (a b : Bytes) : Bytes := a.zipWith (· ^^^ ·) b

/-! ## Numbers in a fixed number of octets -/

/-- How many numbers `w` octets can hold. -/
def octetRange : Nat → Nat
  | 0 => 1
  | w + 1 => 256 * octetRange w

/-- The low `w` octets of `k`, least significant first. -/
def littleEndian : Nat → Nat → Bytes
  | 0, _ => []
  | w + 1, k => UInt8.ofNat k :: littleEndian w (k / 256)

def ofLittleEndian : Bytes → Nat
  | [] => 0
  | b :: bs => b.toNat + 256 * ofLittleEndian bs

/-- The low `w` octets of `k`, most significant first. -/
def bigEndian (w k : Nat) : Bytes := (littleEndian w k).reverse

def ofBigEndian (bs : Bytes) : Nat := ofLittleEndian bs.reverse

@[simp] theorem length_littleEndian (w k : Nat) : (littleEndian w k).length = w := by
  induction w generalizing k with
  | zero => rfl
  | succ w ih => simp [littleEndian, ih]

@[simp] theorem length_bigEndian (w k : Nat) : (bigEndian w k).length = w := by simp [bigEndian]

theorem ofLittleEndian_littleEndian (w k : Nat) :
    ofLittleEndian (littleEndian w k) = k % octetRange w := by
  induction w generalizing k with
  | zero => simp [littleEndian, ofLittleEndian, octetRange, Nat.mod_one]
  | succ w ih =>
    simp only [littleEndian, ofLittleEndian, octetRange, ih, UInt8.toNat_ofNat', Nat.mod_mul]

theorem ofBigEndian_bigEndian (w k : Nat) : ofBigEndian (bigEndian w k) = k % octetRange w := by
  simp [ofBigEndian, bigEndian, ofLittleEndian_littleEndian]

/-- The low `n` octets of `k` as an octet string, least significant first. -/
def Octets.ofNat (n k : Nat) : Octets n := ⟨littleEndian n k, length_littleEndian n k⟩

/-- The number an octet string stands for, least significant first. -/
def Octets.toNat {n : Nat} (a : Octets n) : Nat := ofLittleEndian a.toList

end SealedMail
