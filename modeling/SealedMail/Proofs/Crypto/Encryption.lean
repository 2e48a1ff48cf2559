import SealedMail.Crypto.ChaCha

/-!
# Encryption and decryption

A text is masked with as much key stream as it has octets, and masked again it is back; the tag has
sixteen octets, so it is found at the end. Hence a text below the limit is encrypted, and what was
encrypted is decrypted under the same key and nonce (`ChaCha.exists_encrypt_iff`).
-/

namespace SealedMail

/-! ## Masks -/

theorem length_pieces (size count : Nat) (bs : Bytes) : (pieces size count bs).length = count := by
  induction count generalizing bs with
  | zero => rfl
  | succ count ih => simp [pieces, ih]

theorem length_xorBytes {as bs : Bytes} (h : as.length ≤ bs.length) :
    (xorBytes as bs).length = as.length := by
  rw [xorBytes, List.length_zipWith, Nat.min_eq_left h]

/-- A mask that is put on twice is off again. -/
theorem xorBytes_xorBytes {as bs : Bytes} (h : as.length ≤ bs.length) :
    xorBytes (xorBytes as bs) bs = as := by
  induction as generalizing bs with
  | nil => rfl
  | cons a as ih =>
    cases bs with
    | nil => simp at h
    | cons b bs =>
      have hrest : as.length ≤ bs.length := Nat.le_of_succ_le_succ h
      have hoctet : a ^^^ b ^^^ b = a := by rw [UInt8.xor_assoc, UInt8.xor_self, UInt8.xor_zero]
      change (a ^^^ b ^^^ b) :: xorBytes (xorBytes as bs) bs = a :: as
      rw [hoctet, ih hrest]

namespace ChaCha

/-! ## The key stream -/

theorem size_quarterRound (s : Square) (i j k l : Nat) :
    (s.quarterRound i j k l).size = s.size := by
  simp [Square.quarterRound]

theorem size_doubleRound (s : Square) : s.doubleRound.size = s.size := by
  simp only [Square.doubleRound, size_quarterRound]

theorem size_rounds (s : Square) : s.rounds.size = s.size :=
  List.foldlRecOn (motive := fun t : Square => t.size = s.size) _ _ rfl fun t h _ _ =>
    (size_doubleRound t).trans h

theorem length_words (bs : Bytes) : (words bs).length = bs.length / 4 := by
  rw [words, List.length_map, length_pieces]

theorem length_octets (ws : List UInt32) : (octets ws).length = 4 * ws.length := by
  simp [octets, List.map_const', Nat.mul_comm]

theorem size_square {key input : Bytes} (hkey : key.length = 32) (hinput : input.length = 16) :
    (square key input).size = 16 := by
  simp [square, length_words, hkey, hinput]

theorem length_block {key nonce : Bytes} (hkey : key.length = 32) (hnonce : nonce.length = 12)
    (counter : Nat) : (block key nonce counter).length = 64 := by
  have hinput : (littleEndian 4 counter ++ nonce).length = 16 := by simp [hnonce]
  simp [block, length_octets, size_rounds, size_square hkey hinput]

theorem length_hchacha {key nonce : Bytes} (hkey : key.length = 32) (hnonce : nonce.length = 16) :
    (hchacha key nonce).length = 32 := by
  simp [hchacha, length_octets, size_rounds, size_square hkey hnonce]

theorem length_stream {key nonce : Bytes} (hkey : key.length = 32) (hnonce : nonce.length = 12)
    (n : Nat) : (stream key nonce n).length = n := by
  have hblocks :
      (((List.range ((n + 63) / 64)).map fun i => block key nonce (i + 1)).flatten).length =
      64 * ((n + 63) / 64) := by
    simp [List.length_flatten, Function.comp_def, length_block hkey hnonce, List.map_const',
      Nat.mul_comm]
  rw [stream, List.length_take, hblocks]
  omega

theorem length_subkey (key : Octets 32) (nonce : Octets 24) :
    (subkey key nonce).1.length = 32 ∧ (subkey key nonce).2.length = 12 := by
  have hfirst : (nonce.toList.take 16).length = 16 := by
    rw [List.length_take, nonce.length_toList]; rfl
  have hlast : (nonce.toList.drop 16).length = 8 := by rw [List.length_drop, nonce.length_toList]
  simp only [subkey, List.length_append, hlast, length_hchacha key.length_toList hfirst]
  exact ⟨trivial, rfl⟩

/-! ## Authenticated encryption -/

variable (key : Octets 32) (nonce : Octets 24)

/-- A text under as much key stream as it has octets. -/
def mask (text : Bytes) : Bytes :=
  xorBytes text (stream (subkey key nonce).1 (subkey key nonce).2 text.length)

/-- The tag of a masked text. -/
def mark (masked : Bytes) : Bytes := tag (subkey key nonce).1 (subkey key nonce).2 masked

theorem length_mark (masked : Bytes) : (mark key nonce masked).length = 16 := by
  rw [mark, tag, poly1305, length_littleEndian]

theorem length_stream_subkey (n : Nat) :
    (stream (subkey key nonce).1 (subkey key nonce).2 n).length = n :=
  length_stream (length_subkey key nonce).1 (length_subkey key nonce).2 n

theorem length_mask (text : Bytes) : (mask key nonce text).length = text.length :=
  length_xorBytes (Nat.le_of_eq (length_stream_subkey key nonce _).symm)

theorem mask_mask (text : Bytes) : mask key nonce (mask key nonce text) = text := by
  rw [mask, length_mask]
  exact xorBytes_xorBytes (Nat.le_of_eq (length_stream_subkey key nonce _).symm)

theorem encrypt_eq (plain : Bytes) : encrypt key nonce plain =
    if plain.length < limit then
      some (mask key nonce plain ++ mark key nonce (mask key nonce plain))
    else none := by
  simp only [encrypt, mask, mark]

/-- A masked text with its tag is unmasked. -/
theorem decrypt_append {masked : Bytes} (h : masked.length < limit) :
    decrypt key nonce (masked ++ mark key nonce masked) = some (mask key nonce masked) := by
  have hlength : (masked ++ mark key nonce masked).length = masked.length + 16 := by
    rw [List.length_append, length_mark]
  simp only [decrypt, hlength, Nat.add_sub_cancel, List.take_left, List.drop_left]
  rw [if_pos ⟨Nat.le_add_left 16 _, h⟩]
  exact if_pos rfl

/-- Exactly the texts below the limit are encrypted. What was encrypted is decrypted; it has become
longer by the tag. -/
theorem exists_encrypt_iff (plain : Bytes) :
    plain.length < limit ↔ ∃ text, encrypt key nonce plain = some text ∧
    text.length = plain.length + 16 ∧ decrypt key nonce text = some plain := by
  rw [encrypt_eq]
  constructor
  · intro h
    have hmasked : (mask key nonce plain).length < limit := (length_mask key nonce plain).symm ▸ h
    refine ⟨_, if_pos h, ?_, ?_⟩
    · rw [List.length_append, length_mask, length_mark]
    · rw [decrypt_append key nonce hmasked, mask_mask]
  · rintro ⟨text, htext, -⟩
    exact (Option.ite_none_right_eq_some.1 htext).1

end ChaCha

end SealedMail
