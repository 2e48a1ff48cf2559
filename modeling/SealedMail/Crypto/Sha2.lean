import SealedMail.Data.Bytes

/-!
# SHA-2

One compression function serves SHA-256 (32-bit words) and SHA-512 (64-bit words); a `Word` instance
says how wide the words are and by how much they turn. The constants are the leading fractional bits
of square and cube roots of the first primes.
-/

namespace SealedMail.Sha2

/-- Three rotations, or two rotations and a shift. -/
structure Turns where
  fst : Nat
  snd : Nat
  thd : Nat

/-- The words of one member of the family. -/
class Word (α : Type) extends Add α, XorOp α, AndOp α, Complement α where
  octets : Nat
  rounds : Nat
  ofNat : Nat → α
  toNat : α → Nat
  rotate : α → Nat → α
  shift : α → Nat → α
  /-- The two functions of the round. -/
  outer : Turns × Turns
  /-- The two functions of the message schedule. -/
  inner : Turns × Turns

instance : Word UInt32 where
  octets := 4
  rounds := 64
  ofNat := UInt32.ofNat
  toNat := UInt32.toNat
  rotate x n := (x >>> UInt32.ofNat n) ||| (x <<< UInt32.ofNat (32 - n))
  shift x n := x >>> UInt32.ofNat n
  outer := (⟨2, 13, 22⟩, ⟨6, 11, 25⟩)
  inner := (⟨7, 18, 3⟩, ⟨17, 19, 10⟩)

instance : Word UInt64 where
  octets := 8
  rounds := 80
  ofNat := UInt64.ofNat
  toNat := UInt64.toNat
  rotate x n := (x >>> UInt64.ofNat n) ||| (x <<< UInt64.ofNat (64 - n))
  shift x n := x >>> UInt64.ofNat n
  outer := (⟨28, 34, 39⟩, ⟨14, 18, 41⟩)
  inner := (⟨1, 8, 7⟩, ⟨19, 61, 6⟩)

/-! ## Constants -/

/-- The largest `r` below `2 ^ bits` with `r ^ k ≤ n`. -/
def rootFloor (k bits n : Nat) : Nat :=
  (List.range bits).foldr
    (fun b r => if Nat.pow (r + Nat.pow 2 b) k ≤ n then r + Nat.pow 2 b else r) 0

def primes (count : Nat) : List Nat :=
  ((List.range 410).filter fun n =>
    2 ≤ n ∧ (List.range n).all fun d => d < 2 ∨ n % d ≠ 0).take count

/-- The leading `w` fractional bits of the `k`-th root of `p`. -/
def rootFraction (k w p : Nat) : Nat := rootFloor k (w + 8) (p * Nat.pow 2 (k * w)) % Nat.pow 2 w

def rootFractions (α : Type) [Word α] (k count : Nat) : Array α :=
  ((primes count).map fun p => Word.ofNat (rootFraction k (8 * Word.octets α) p)).toArray

/-! ## Compression -/

structure State (α : Type) where
  a : α
  b : α
  c : α
  d : α
  e : α
  f : α
  g : α
  h : α

section

variable {α : Type} [Word α]

@[specialize] def rotations (t : Turns) (x : α) : α :=
  Word.rotate x t.fst ^^^ Word.rotate x t.snd ^^^ Word.rotate x t.thd

@[specialize] def rotationsAndShift (t : Turns) (x : α) : α :=
  Word.rotate x t.fst ^^^ Word.rotate x t.snd ^^^ Word.shift x t.thd

@[specialize] def State.round (s : State α) (k w : α) : State α :=
  let choice := (s.e &&& s.f) ^^^ (~~~s.e &&& s.g)
  let majority := (s.a &&& s.b) ^^^ (s.a &&& s.c) ^^^ (s.b &&& s.c)
  let t₁ := s.h + rotations (Word.outer α).2 s.e + choice + k + w
  let t₂ := rotations (Word.outer α).1 s.a + majority
  ⟨t₁ + t₂, s.a, s.b, s.c, s.d + t₁, s.e, s.f, s.g⟩

@[specialize] def State.add (s t : State α) : State α :=
  ⟨s.a + t.a, s.b + t.b, s.c + t.c, s.d + t.d, s.e + t.e, s.f + t.f, s.g + t.g, s.h + t.h⟩

def State.ofWords (ws : Array α) : State α :=
  let w i := ws.getD i (Word.ofNat 0)
  ⟨w 0, w 1, w 2, w 3, w 4, w 5, w 6, w 7⟩

def State.words (s : State α) : List α := [s.a, s.b, s.c, s.d, s.e, s.f, s.g, s.h]

/-- The sixteen words of a block, continued to one word for each round. -/
@[specialize] def schedule (block : Array α) : Array α :=
  (List.range (Word.rounds α - 16)).foldl (fun ws i =>
    let w j := ws.getD (i + j) (Word.ofNat 0)
    ws.push (rotationsAndShift (Word.inner α).2 (w 14) + w 9 +
      rotationsAndShift (Word.inner α).1 (w 1) + w 0)) block

@[specialize] def compress (constants : Array α) (s : State α) (block : Array α) : State α :=
  let ws := schedule block
  let t := (List.range (Word.rounds α)).foldl (fun t i =>
    t.round (constants.getD i (Word.ofNat 0)) (ws.getD i (Word.ofNat 0))) s
  s.add t

/-- The message, a one bit, zeros up to a whole number of blocks, and the length in bits. -/
def padded (α : Type) [Word α] (message : Bytes) : Bytes :=
  let block := 16 * Word.octets α
  let zeros := (block - (message.length + 1 + 2 * Word.octets α) % block) % block
  message ++ 0x80 :: (List.replicate zeros 0 ++ bigEndian (2 * Word.octets α) (8 * message.length))

/-- The words of one block. -/
def blockWords (block : Bytes) : Array α :=
  ((pieces (Word.octets α) 16 block).map fun w => Word.ofNat (ofBigEndian w)).toArray

@[specialize] def hashWords (constants initial : Array α) (message : Bytes) : List α :=
  let text := padded α message
  let size := 16 * Word.octets α
  (((pieces size (text.length / size) text).map blockWords).foldl (compress constants)
    (.ofWords initial)).words

end

/-! ## The two hash functions -/

def constants256 : Array UInt32 := rootFractions UInt32 3 64

def initial256 : Array UInt32 := rootFractions UInt32 2 8

def constants512 : Array UInt64 := rootFractions UInt64 3 80

def initial512 : Array UInt64 := rootFractions UInt64 2 8

/-- Eight words, most significant octet first. -/
theorem length_flatMap_bigEndian {α : Type} [Word α] (c i : Array α) (m : Bytes) :
    ((hashWords c i m).flatMap fun w => bigEndian (Word.octets α) (Word.toNat w)).length =
      8 * Word.octets α := by
  simp [hashWords, State.words]
  omega

end SealedMail.Sha2

namespace SealedMail

def sha256 (message : Bytes) : Octets 32 :=
  ⟨_, Sha2.length_flatMap_bigEndian Sha2.constants256 Sha2.initial256 message⟩

def sha512 (message : Bytes) : Octets 64 :=
  ⟨_, Sha2.length_flatMap_bigEndian Sha2.constants512 Sha2.initial512 message⟩

end SealedMail
