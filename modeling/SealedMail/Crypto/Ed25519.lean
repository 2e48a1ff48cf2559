import SealedMail.Crypto.Curve25519
import SealedMail.Crypto.Sha2

/-!
# Ed25519 signatures

Points of the twisted Edwards curve in extended coordinates, their 32-octet encoding, and
deterministic signing. A key is any octet string whose `y` coordinate lies on the curve, reduced or
not; verification recomputes the commitment and compares octets, without clearing the cofactor.
-/

namespace SealedMail.Ed25519

open Curve25519

/-- The order of the base point. -/
def order : Nat := Nat.pow 2 252 + 27742317777372353535851937790883648493

/-- The curve constant `-121665 / 121666`. -/
def d : Field := -121665 * inverse 121666

/-- A square root of `-1`. -/
def rootOfMinusOne : Field := power 2 ((prime - 1) / 4)

/-- Extended coordinates: the point is `(x / z, y / z)` and `t = x * y / z`. -/
structure Point where
  x : Field
  y : Field
  z : Field
  t : Field

namespace Point

def neutral : Point := ⟨0, 1, 1, 0⟩

def neg (a : Point) : Point := ⟨-a.x, a.y, a.z, -a.t⟩

def twoD : Field := d + d

def add (a b : Point) : Point :=
  let m := (a.y - a.x) * (b.y - b.x)
  let n := (a.y + a.x) * (b.y + b.x)
  let c := a.t * twoD * b.t
  let w := (a.z + a.z) * b.z
  let e := n - m
  let f := w - c
  let g := w + c
  let h := n + m
  ⟨e * f, g * h, f * g, e * h⟩

def double (a : Point) : Point :=
  let m := a.x * a.x
  let n := a.y * a.y
  let c := (a.z + a.z) * a.z
  let h := m + n
  let e := h - (a.x + a.y) * (a.x + a.y)
  let g := m - n
  let f := c + g
  ⟨e * f, g * h, f * g, e * h⟩

/-- `m * a + n * b` for multiples below `2 ^ 256`. -/
def combine (m : Nat) (a : Point) (n : Nat) (b : Point) : Point :=
  let both := a.add b
  (List.range 256).foldr (fun i acc =>
    match m.testBit i, n.testBit i with
    | false, false => acc.double
    | true, false => acc.double.add a
    | false, true => acc.double.add b
    | true, true => acc.double.add both) neutral

def multiple (m : Nat) (a : Point) : Point :=
  (List.range 256).foldr (fun i acc => if m.testBit i then acc.double.add a else acc.double) neutral

/-- `y` in the low 255 bits, the parity of `x` in the highest. -/
def encode (a : Point) : Octets 32 :=
  let zi := inverse a.z
  .ofNat 32 ((a.y * zi).val + Nat.pow 2 255 * ((a.x * zi).val % 2))

/-- A root of `u / v`, if there is one. -/
def rootOfRatio (u v : Field) : Option Field :=
  let x := u * v * v * v * power (u * v * v * v * v * v * v * v) ((prime - 5) / 8)
  let w := v * x * x
  if w = u then some x else if w = -u then some (x * rootOfMinusOne) else none

def decode? (key : Octets 32) : Option Point :=
  let n := key.toNat
  let y : Field := Fin.ofNat prime (n % Nat.pow 2 255)
  (rootOfRatio (y * y - 1) (d * y * y + 1)).map fun x =>
    let x := if x.val % 2 = n / Nat.pow 2 255 then x else -x
    ⟨x, y, 1, x * y⟩

/-- The point with `y = 4 / 5` and even `x`. -/
def base : Point := (decode? (.ofNat 32 (4 * inverse 5 : Field).val)).getD neutral

end Point

/-- A digest as a number modulo the order. -/
def scalar (parts : List Bytes) : Nat := (sha512 parts.flatten).toNat % order

/-- The secret multiple and the nonce key that a seed expands to. -/
def expand (seed : Octets 32) : Nat × Bytes :=
  let h := (sha512 seed.toList).toList
  (clamp (ofLittleEndian (h.take 32)), h.drop 32)

def publicKey (seed : Octets 32) : Octets 32 := (Point.base.multiple (expand seed).1).encode

def validKey (key : Octets 32) : Bool := (Point.decode? key).isSome

/-- A signature: an encoded commitment followed by a reduced response. -/
def signature (commitment : Octets 32) (response : Nat) : Octets 64 :=
  ⟨commitment.toList ++ littleEndian 32 response, by simp⟩

def sign (seed : Octets 32) (message : Bytes) : Octets 64 :=
  let (a, nonceKey) := expand seed
  let key := publicKey seed
  let r := scalar [nonceKey, message]
  let commitment := (Point.base.multiple r).encode
  let k := scalar [commitment.toList, key.toList, message]
  signature commitment ((r + k * a) % order)

def verifies (key : Octets 32) (message : Bytes) (sig : Octets 64) : Bool :=
  match Point.decode? key with
  | none => false
  | some a =>
    let commitment := sig.toList.take 32
    let s := ofLittleEndian (sig.toList.drop 32)
    let k := scalar [commitment, key.toList, message]
    s < order && (Point.combine s .base k a.neg).encode.toList == commitment

end SealedMail.Ed25519
