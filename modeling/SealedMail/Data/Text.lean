import SealedMail.Data.Bytes

/-!
# Text as octets

`utf8` writes a text as octets and `ofUtf8?` reads it back; it accepts exactly what `utf8` writes
(`ofUtf8?_eq_some_iff`). `lossyText` reads any octets, with U+FFFD for each ill-formed sequence.
-/

namespace SealedMail

def utf8 (s : String) : Bytes := s.toByteArray.data.toList

/-- The text that `bs` is the UTF-8 form of. -/
def ofUtf8? (bs : Bytes) : Option String := String.fromUTF8? ⟨bs.toArray⟩

theorem utf8_injective {s t : String} (h : utf8 s = utf8 t) : s = t := by
  have hd : s.toByteArray.data = t.toByteArray.data := Array.toList_inj.1 h
  have hb : s.toByteArray = t.toByteArray := by
    cases hs : s.toByteArray; cases ht : t.toByteArray; simp_all
  exact String.toByteArray_inj.1 hb

theorem ofUtf8?_eq_some_iff {bs : Bytes} {s : String} : ofUtf8? bs = some s ↔ bs = utf8 s := by
  unfold ofUtf8? String.fromUTF8?
  constructor
  · intro h
    split at h
    · cases h; simp [utf8, String.fromUTF8]
    · cases h
  · rintro rfl
    have hv : (⟨(utf8 s).toArray⟩ : ByteArray) = s.toByteArray := by simp [utf8]
    rw [hv, dif_pos s.isValidUTF8]
    rfl

@[simp] theorem ofUtf8?_utf8 (s : String) : ofUtf8? (utf8 s) = some s := ofUtf8?_eq_some_iff.2 rfl

/-! ## Reading ill-formed octets -/

/-- Octets that continue a sequence opened by `lead`: how many, and the range of the first of
them. -/
def continuation (lead : UInt8) : Option (Nat × UInt8 × UInt8) :=
  if lead < 0x80 then some (0, 0x80, 0xBF)
  else if 0xC2 ≤ lead ∧ lead ≤ 0xDF then some (1, 0x80, 0xBF)
  else if lead = 0xE0 then some (2, 0xA0, 0xBF)
  else if lead = 0xED then some (2, 0x80, 0x9F)
  else if 0xE1 ≤ lead ∧ lead ≤ 0xEF then some (2, 0x80, 0xBF)
  else if lead = 0xF0 then some (3, 0x90, 0xBF)
  else if 0xF1 ≤ lead ∧ lead ≤ 0xF3 then some (3, 0x80, 0xBF)
  else if lead = 0xF4 then some (3, 0x80, 0x8F)
  else none

/-- How many of the next `n` octets of `bs` are continuations, the first of them within `lo..hi`. -/
def countContinuations : Nat → UInt8 → UInt8 → Bytes → Nat
  | n + 1, lo, hi, b :: bs =>
    if lo ≤ b ∧ b ≤ hi then countContinuations n 0x80 0xBF bs + 1 else 0
  | _, _, _, _ => 0

/-- The longest start of `lead :: bs` that begins a well-formed character becomes that character
when complete, and U+FFFD otherwise; the number counts its octets after `lead`. -/
def lossyStep (lead : UInt8) (bs : Bytes) : Char × Nat :=
  match continuation lead with
  | none => ('\uFFFD', 0)
  | some (n, lo, hi) =>
    let m := countContinuations n lo hi bs
    if m < n then ('\uFFFD', m)
    else
      let first := if n = 0 then lead.toNat else lead.toNat % Nat.pow 2 (6 - n)
      (Char.ofNat ((bs.take n).foldl (fun acc b => acc * 64 + b.toNat % 64) first), n)

def lossyChars : Bytes → List Char
  | [] => []
  | b :: bs =>
    let (c, n) := lossyStep b bs
    c :: lossyChars (bs.drop n)
termination_by bs => bs.length
decreasing_by simp only [List.length_drop, List.length_cons]; omega

def lossyText (bs : Bytes) : String := String.ofList (lossyChars bs)

end SealedMail
