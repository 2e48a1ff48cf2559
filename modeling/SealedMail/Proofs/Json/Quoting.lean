import SealedMail.Json.Reader

/-!
# Quoting and unquoting

Octets that were escaped stand between quotes: no control character is bare, the next quote is the
closing one (`rawText?_escape`), and undoing the escapes gives the octets back
(`joinPieces_escape`). All of it is read off the three ways in which one octet is written
(`Escaped`).
-/

namespace SealedMail.Json

/-- Octets that may stand for themselves. -/
structure Plain (b : UInt8) : Prop where
  ne_quote : b ≠ quote
  ne_backslash : b ≠ backslash
  printable : ¬ b < 0x20

instance (b : UInt8) : Decidable (Plain b) :=
  decidable_of_iff (b ≠ quote ∧ b ≠ backslash ∧ ¬ b < 0x20)
    ⟨fun ⟨h₁, h₂, h₃⟩ => ⟨h₁, h₂, h₃⟩, fun h => ⟨h.ne_quote, h.ne_backslash, h.printable⟩⟩

/-- The ways in which an octet may be written. -/
inductive Escaped (b : UInt8) : Bytes → Prop where
  | itself : Plain b → Escaped b [b]
  | letter {letter : UInt8} : shortEscape? letter = some b → letter ≠ 'u'.toUInt8 →
      ¬ letter < 0x20 → Escaped b [backslash, letter]
  | unit {hi lo : UInt8} : b < 0x20 → unit? 48 48 hi lo = some b.toNat → Plain hi → Plain lo →
      Escaped b [backslash, 'u'.toUInt8, 48, 48, hi, lo]

theorem shortEscapes_readable : ∀ e ∈ shortEscapes,
    shortEscape? e.1 = some e.2 ∧ e.1 ≠ 'u'.toUInt8 ∧ ¬ e.1 < 0x20 := by
  simp only [shortEscapes, List.map_cons, List.map_nil, List.forall_mem_cons, List.not_mem_nil,
    false_implies, implies_true]
  decide

theorem unit?_digits : ∀ n < 32,
    unit? 48 48 (Hex.digit (n / 16)).toUInt8 (Hex.digit (n % 16)).toUInt8 = some n ∧
      Plain (Hex.digit (n / 16)).toUInt8 ∧ Plain (Hex.digit (n % 16)).toUInt8 := by
  decide

theorem escaped_escapeOctet (b : UInt8) : Escaped b (escapeOctet b) := by
  unfold escapeOctet
  split
  · next e he =>
    obtain ⟨hread, hletter, hprintable⟩ := shortEscapes_readable e (List.mem_of_find?_eq_some he)
    have hb : e.2 = b := by simpa using List.find?_some he
    exact .letter (hb ▸ hread) hletter hprintable
  · next hnone =>
    split
    · next hb =>
      obtain ⟨hunit, hhi, hlo⟩ := unit?_digits b.toNat hb
      exact .unit hb hunit hhi hlo
    · next hb =>
      have hne {e : UInt8 × UInt8} (he : e ∈ shortEscapes) : e.2 ≠ b := by
        simpa using List.find?_eq_none.1 hnone e he
      have hquote : (quote, quote) ∈ shortEscapes := by decide
      have hbackslash : (backslash, backslash) ∈ shortEscapes := by decide
      exact .itself ⟨(hne hquote).symm, (hne hbackslash).symm, hb⟩

namespace Escaped

variable {b : UInt8} {written : Bytes}

theorem plain_zero : Plain 48 := by decide

theorem hasBareControl_eq (h : Escaped b written) : hasBareControl written = false := by
  have hbackslash : ¬ backslash < 0x20 := by decide
  have hu : ¬ 'u'.toUInt8 < 0x20 := by decide
  cases h with
  | itself hb => simp [hasBareControl, hb.printable]
  | letter _ _ hletter => simp [hasBareControl, hbackslash, hletter]
  | unit _ _ hhi hlo =>
    simp [hasBareControl, hbackslash, hu, plain_zero.printable, hhi.printable, hlo.printable]

theorem rawText?_plain (hb : Plain b) (rest : Bytes) :
    rawText? (b :: rest) = (rawText? rest).map fun (raw, rest) => (b :: raw, rest) := by
  rw [rawText?.eq_def]
  simp [hb.ne_quote, hb.ne_backslash]

/-- An octet that is written holds no closing quote. -/
theorem rawText?_append (h : Escaped b written) (rest : Bytes) :
    rawText? (written ++ rest) = (rawText? rest).map fun (raw, rest) => (written ++ raw, rest) := by
  have hpair (c : UInt8) (rest : Bytes) :
      rawText? (backslash :: c :: rest) = (rawText? rest).map fun (raw, rest) =>
        (backslash :: c :: raw, rest) := by
    have hne : backslash ≠ quote := by decide
    rw [rawText?.eq_def]
    simp [hne]
  cases h with
  | itself hb => exact rawText?_plain hb rest
  | letter => exact hpair _ rest
  | unit _ _ hhi hlo =>
    simp only [List.cons_append, List.nil_append, hpair, rawText?_plain plain_zero,
      rawText?_plain hhi, rawText?_plain hlo, Option.map_map]
    rfl

/-- A code unit below the surrogates is one octet, whatever follows. -/
theorem joinPieces_unit (lone : Nat → Option Bytes) {n : Nat} (h : n < 0x80) (ps : List Piece) :
    joinPieces lone (.unit n :: ps) = (joinPieces lone ps).map (UInt8.ofNat n :: ·) := by
  have hleading : isLeading n = false := by simp [isLeading]; omega
  have htrailing : isTrailing n = false := by simp [isTrailing]; omega
  have hsingle : singleUnit lone n = some [UInt8.ofNat n] := by
    simp [singleUnit, hleading, htrailing, codePoint, h]
  rw [joinPieces.eq_def]
  split <;> simp_all

/-- An octet that is written is undone on its own. -/
theorem unescape_append (h : Escaped b written) (lone : Nat → Option Bytes) (rest : Bytes) :
    (textPieces? (written ++ rest)).bind (joinPieces lone) =
      ((textPieces? rest).bind (joinPieces lone)).map (b :: ·) := by
  -- The octet is one piece in front, and this piece is joined to nothing.
  have hpiece {p : Piece} (hread : textPieces? (written ++ rest) = (textPieces? rest).map (p :: ·))
      (hjoin : ∀ ps, joinPieces lone (p :: ps) = (joinPieces lone ps).map (b :: ·)) :
      (textPieces? (written ++ rest)).bind (joinPieces lone) =
        ((textPieces? rest).bind (joinPieces lone)).map (b :: ·) := by
    rw [hread]
    cases textPieces? rest with
    | none => rfl
    | some ps => exact hjoin ps
  cases h with
  | itself hb =>
    refine hpiece (p := .octet b) ?_ fun _ => rfl
    rw [List.singleton_append, textPieces?.eq_def]
    simp [hb.ne_backslash]
  | letter hletter hne =>
    refine hpiece (p := .octet b) ?_ fun _ => rfl
    rw [List.cons_append, List.singleton_append, textPieces?.eq_def]
    simp [hne, hletter]
  | unit hb hunit =>
    have hlow : b.toNat < 0x80 := Nat.lt_trans hb (by decide)
    refine hpiece (p := .unit b.toNat) ?_ fun ps => ?_
    · simp only [List.cons_append, List.nil_append]
      rw [textPieces?.eq_def]
      simp [hunit]
    · rw [joinPieces_unit lone hlow, UInt8.ofNat_toNat]

end Escaped

/-! ## Whole texts -/

theorem escape_cons (b : UInt8) (bs : Bytes) : escape (b :: bs) = escapeOctet b ++ escape bs := rfl

theorem hasBareControl_escape (bs : Bytes) : hasBareControl (escape bs) = false := by
  induction bs with
  | nil => rfl
  | cons b bs ih =>
    have hb := (escaped_escapeOctet b).hasBareControl_eq
    rw [hasBareControl] at hb ih ⊢
    rw [escape_cons, List.any_append, hb, ih, Bool.or_false]

theorem rawText?_escape (bs rest : Bytes) :
    rawText? (escape bs ++ quote :: rest) = some (escape bs, rest) := by
  induction bs with
  | nil =>
    change rawText? (quote :: rest) = some ([], rest)
    rw [rawText?.eq_def]
    exact if_pos rfl
  | cons b bs ih =>
    rw [escape_cons, List.append_assoc, (escaped_escapeOctet b).rawText?_append, ih,
      Option.map_some]

/-- Undoing escapes gives the octets back, whatever is made of lone surrogates. -/
theorem joinPieces_escape (lone : Nat → Option Bytes) (bs : Bytes) :
    (textPieces? (escape bs)).bind (joinPieces lone) = some bs := by
  induction bs with
  | nil => rfl
  | cons b bs ih => rw [escape_cons, (escaped_escapeOctet b).unescape_append, ih, Option.map_some]

theorem text?_escape (s : String) : text? (escape (utf8 s)) = some s := by
  rw [text?, hasBareControl_escape, joinPieces_escape, Option.bind_some, ofUtf8?_utf8]
  rfl

end SealedMail.Json
