import SealedMail.Data.Bytes

/-!
# XChaCha20-Poly1305

The ChaCha20 block, the key it derives from a long nonce (`hchacha`), the Poly1305 tag, and
authenticated encryption from them: the text is masked by the key stream and the tag of the masked
text is appended.
-/

namespace SealedMail.ChaCha

/-! ## The block function -/

/-- Sixteen words, row by row. -/
abbrev Square := Array UInt32

def Square.at (s : Square) (i : Nat) : UInt32 := s.getD i 0

def rotate (x : UInt32) (n : Nat) : UInt32 :=
  (x >>> UInt32.ofNat n) ||| (x <<< UInt32.ofNat (32 - n))

def Square.quarterRound (s : Square) (i j k l : Nat) : Square :=
  let a := s.at i + s.at j
  let d := rotate (s.at l ^^^ a) 16
  let c := s.at k + d
  let b := rotate (s.at j ^^^ c) 20
  let a := a + b
  let d := rotate (d ^^^ a) 24
  let c := c + d
  let b := rotate (b ^^^ c) 25
  (((s.setIfInBounds i a).setIfInBounds j b).setIfInBounds k c).setIfInBounds l d

/-- A round down the columns and a round down the diagonals. -/
def Square.doubleRound (s : Square) : Square :=
  let s := s.quarterRound 0 4 8 12
  let s := s.quarterRound 1 5 9 13
  let s := s.quarterRound 2 6 10 14
  let s := s.quarterRound 3 7 11 15
  let s := s.quarterRound 0 5 10 15
  let s := s.quarterRound 1 6 11 12
  let s := s.quarterRound 2 7 8 13
  s.quarterRound 3 4 9 14

def Square.rounds (s : Square) : Square := (List.range 10).foldl (fun s _ => s.doubleRound) s

def words (bs : Bytes) : List UInt32 :=
  (pieces 4 (bs.length / 4) bs).map fun w => UInt32.ofNat (ofLittleEndian w)

def octets (ws : List UInt32) : Bytes := ws.flatMap fun w => littleEndian 4 w.toNat

/-- The constant, the key, and sixteen octets of counter and nonce. -/
def square (key : Bytes) (input : Bytes) : Square :=
  ([0x61707865, 0x3320646e, 0x79622d32, 0x6b206574] ++ words key ++ words input).toArray

/-- The block of key stream number `counter` under a twelve-octet nonce. -/
def block (key nonce : Bytes) (counter : Nat) : Bytes :=
  let s := square key (littleEndian 4 counter ++ nonce)
  octets (s.toList.zipWith (· + ·) s.rounds.toList)

/-- The key derived from a key and the first sixteen octets of a long nonce. -/
def hchacha (key nonce : Bytes) : Bytes :=
  let s := (square key nonce).rounds.toList
  octets (s.take 4 ++ s.drop 12)

/-- The first `n` octets of key stream after the block that keys the tag. -/
def stream (key nonce : Bytes) (n : Nat) : Bytes :=
  (((List.range ((n + 63) / 64)).map fun i => block key nonce (i + 1)).flatten).take n

/-! ## The tag -/

def tagPrime : Nat := Nat.pow 2 130 - 5

/-- The sixteen octets authenticating `message` under a 32-octet one-time key. -/
def poly1305 (key message : Bytes) : Bytes :=
  let r := ofLittleEndian (key.take 16) &&& 0x0ffffffc0ffffffc0ffffffc0fffffff
  let s := ofLittleEndian (key.drop 16)
  let acc := (pieces 16 ((message.length + 15) / 16) message).foldl
    (fun acc piece => (acc + ofLittleEndian (piece ++ [1])) * r % tagPrime) 0
  littleEndian 16 (acc + s)

/-- Zeros up to a multiple of sixteen octets. -/
def padding (n : Nat) : Bytes := List.replicate ((16 - n % 16) % 16) 0

/-- The tag of a masked text with no associated data. -/
def tag (key nonce masked : Bytes) : Bytes :=
  poly1305 ((block key nonce 0).take 32)
    (masked ++ padding masked.length ++ littleEndian 8 0 ++ littleEndian 8 masked.length)

/-! ## Authenticated encryption -/

/-- The key and nonce of the underlying cipher for a long nonce. -/
def subkey (key : Octets 32) (nonce : Octets 24) : Bytes × Bytes :=
  (hchacha key.toList (nonce.toList.take 16), [0, 0, 0, 0] ++ nonce.toList.drop 16)

/-- Texts of this many octets exhaust the block counter. -/
def limit : Nat := Nat.pow 2 38 - 64

def encrypt (key : Octets 32) (nonce : Octets 24) (plain : Bytes) : Option Bytes :=
  if plain.length < limit then
    let (k, n) := subkey key nonce
    let masked := xorBytes plain (stream k n plain.length)
    some (masked ++ tag k n masked)
  else none

/-- The plain text, unless the last sixteen octets are not its tag. -/
def decrypt (key : Octets 32) (nonce : Octets 24) (text : Bytes) : Option Bytes :=
  let size := text.length - 16
  let masked := text.take size
  if 16 ≤ text.length ∧ size < limit then
    let (k, n) := subkey key nonce
    if text.drop size = tag k n masked then some (xorBytes masked (stream k n size)) else none
  else none

end SealedMail.ChaCha
