import SealedMail.Data.Bytes

/-!
# Agreement on Curve25519

The field of `2 ^ 255 - 19` elements and the Montgomery ladder on `u` coordinates. A secret is
clamped, the top bit of a public key is ignored, and coordinates at or above the prime stand for
their remainders.
-/

namespace SealedMail.Curve25519

def prime : Nat := Nat.pow 2 255 - 19

instance : @NeZero Nat Zero.ofOfNat0 prime := ⟨by decide⟩

abbrev Field := Fin prime

/-- `x ^ e` for exponents below `2 ^ 255`. -/
def power (x : Field) (e : Nat) : Field :=
  (List.range 255).foldr (fun i acc => if e.testBit i then acc * acc * x else acc * acc) 1

/-- The multiplicative inverse, zero for zero. -/
def inverse (x : Field) : Field := power x (prime - 2)

/-- Clear the low three bits and fix the highest of the 255 bits. -/
def clamp (k : Nat) : Nat := Nat.pow 2 254 + k % Nat.pow 2 254 / 8 * 8

/-- A `u` coordinate `x / z`. -/
structure Ratio where
  x : Field
  z : Field

def Ratio.double (a : Ratio) : Ratio :=
  let s := (a.x + a.z) * (a.x + a.z)
  let d := (a.x - a.z) * (a.x - a.z)
  let e := s - d
  ⟨s * d, e * (s + 121665 * e)⟩

/-- The sum of `a` and `b`, whose difference has coordinate `u`. -/
def Ratio.addWith (u : Field) (a b : Ratio) : Ratio :=
  let m := (a.x - a.z) * (b.x + b.z)
  let n := (a.x + a.z) * (b.x - b.z)
  ⟨(m + n) * (m + n), u * ((m - n) * (m - n))⟩

/-- The `u` coordinate of `k` times a point with coordinate `u`. -/
def ladder (k : Nat) (u : Field) : Field :=
  let ends := (List.range 255).foldr (fun i (a, b) =>
    if k.testBit i then (a.addWith u b, b.double) else (a.double, a.addWith u b))
    ((⟨1, 0⟩ : Ratio), (⟨u, 1⟩ : Ratio))
  ends.1.x * inverse ends.1.z

/-- The secret both sides derive from one's secret and the other's public key. -/
def agree (secret public_ : Octets 32) : Octets 32 :=
  .ofNat 32 (ladder (clamp secret.toNat) (Fin.ofNat prime (public_.toNat % Nat.pow 2 255))).val

def publicKey (secret : Octets 32) : Octets 32 := .ofNat 32 (ladder (clamp secret.toNat) 9).val

end SealedMail.Curve25519
