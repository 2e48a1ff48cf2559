import SealedMail.Crypto.Suite
import SealedMail.Crypto.Ed25519
import SealedMail.Crypto.ChaCha

/-!
# The standard primitives

SHA-256, X25519, Ed25519 and XChaCha20-Poly1305 as a `Suite`.
-/

namespace SealedMail.Suite

@[reducible] def standard : Suite where
  digest := sha256
  encryptionKey := Curve25519.publicKey
  agree := Curve25519.agree
  signatureKey := Ed25519.publicKey
  sign := Ed25519.sign
  validKey := Ed25519.validKey
  verifies := Ed25519.verifies
  encrypt := ChaCha.encrypt
  decrypt := ChaCha.decrypt

end SealedMail.Suite
