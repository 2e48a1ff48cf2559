import SealedMail.Data.Bytes

/-!
# Primitives

A `Suite` names the primitives that everything above is built from, so that what is said about
sealing, signing and storing says which of their properties it needs. `Draws` is a stream of random
octets and how much of it has been used.
-/

namespace SealedMail

class Suite where
  digest : Bytes → Octets 32
  /-- The public key of an encryption secret. -/
  encryptionKey : Octets 32 → Octets 32
  /-- The secret shared between one side's secret and the other side's public key. -/
  agree : Octets 32 → Octets 32 → Octets 32
  /-- The public key of a signature seed. -/
  signatureKey : Octets 32 → Octets 32
  sign : Octets 32 → Bytes → Octets 64
  validKey : Octets 32 → Bool
  verifies : Octets 32 → Bytes → Octets 64 → Bool
  /-- Fails for texts that are too long. -/
  encrypt : Octets 32 → Octets 24 → Bytes → Option Bytes
  /-- Fails for texts that were not made with this key and nonce. -/
  decrypt : Octets 32 → Octets 24 → Bytes → Option Bytes

export Suite (digest)

inductive CryptoError where
  | encryptionFailed (reason : String)
  | decryptionFailed (reason : String)
  | invalidKeyLength (expected actual : Nat)
  | signatureMismatch
  | invalidPublicKey
  | signingFailed (reason : String)
  deriving DecidableEq, Repr

def CryptoError.message : CryptoError → String
  | .encryptionFailed reason => s!"Encryption failed: {reason}"
  | .decryptionFailed reason => s!"Decryption failed: {reason}"
  | .invalidKeyLength expected actual => s!"Invalid key length: expected {expected}, got {actual}"
  | .signatureMismatch => "Signature verification failed"
  | .invalidPublicKey => "Invalid public key"
  | .signingFailed reason => s!"Signing failed: {reason}"

/-- The reason given when authenticated encryption fails. -/
def CryptoError.unauthenticated : String := "aead::Error"

def Suite.encryptText [Suite] (key : Octets 32) (nonce : Octets 24) (plain : Bytes) :
    Except CryptoError Bytes :=
  match Suite.encrypt key nonce plain with
  | some text => .ok text
  | none => .error (.encryptionFailed CryptoError.unauthenticated)

def Suite.decryptText [Suite] (key : Octets 32) (nonce : Octets 24) (text : Bytes) :
    Except CryptoError Bytes :=
  match Suite.decrypt key nonce text with
  | some plain => .ok plain
  | none => .error (.decryptionFailed CryptoError.unauthenticated)

/-! ## Random octets -/

structure Draws where
  block : Nat → Octets 32
  used : Nat := 0

namespace Draws

/-- The stream whose block `i` is the digest of a seed and `i`. -/
def ofSeed [Suite] (seed : Nat) : Draws where
  block i := digest (bigEndian 8 seed ++ bigEndian 8 i)

/-- The octets in the first `n` blocks from block `i` on. -/
def blocks (d : Draws) (i n : Nat) : Bytes :=
  (List.range n).flatMap fun k => (d.block (i + k)).toList

theorem length_blocks (d : Draws) (i n : Nat) : (d.blocks i n).length = 32 * n := by
  simp [blocks, List.map_const', Nat.mul_comm]

/-- The next `n` octets. -/
def take (d : Draws) (n : Nat) : Octets n × Draws :=
  (⟨((d.blocks (d.used / 32) (n / 32 + 2)).drop (d.used % 32)).take n, by
    simp only [List.length_take, List.length_drop, length_blocks]; omega⟩,
   { d with used := d.used + n })

end Draws

end SealedMail
