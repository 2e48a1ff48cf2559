import Mathlib.Data.Nat.Digits.Defs
import SealedMail.Message.Address

/-!
# Spelling addresses

A text is read as an address exactly if it spells that address (`Address.Spells`): a host, the last
colon of the text and a port, which may have a plus sign and any number of leading zeros. A text
that spells none is refused for what is wrong with it (`Address.Flawed`). What is printed for an
address is one of its spellings, so it is read back as that address (`Address.read_as_spelled`).
-/

namespace SealedMail

/-! ## Numerals -/

namespace Decimal

/-- Decimal digits, at least one of them, that stand for `n` by their places. -/
def IsNumeral (cs : List Char) (n : Nat) : Prop :=
  ∃ ds : List Nat, ds ≠ [] ∧ (∀ d ∈ ds, d < 10) ∧ cs = ds.map Nat.digitChar ∧
    n = Nat.ofDigits 10 ds.reverse

/-- The number read so far is moved up by one place for each further digit. -/
theorem ofDigitChars_map_digitChar {ds : List Nat} (h : ∀ d ∈ ds, d < 10) (init : Nat) :
    Nat.ofDigitChars 10 (ds.map Nat.digitChar) init = Nat.ofDigits 10 ds.reverse +
      10 ^ ds.length * init := by
  induction ds generalizing init with
  | nil => simp
  | cons d ds ih =>
    obtain ⟨hd, hds⟩ := List.forall_mem_cons.1 h
    rw [List.map_cons, Nat.ofDigitChars_cons_digitChar_of_lt_ten hd, ih hds,
      Nat.ofDigits_reverse_cons, List.length_cons, Nat.pow_succ]
    ring

theorem exists_digitChar_eq {c : Char} (h : c.isDigit = true) : ∃ d < 10, c = Nat.digitChar d := by
  obtain ⟨hlo, hhi⟩ := Char.isDigit_iff_toNat.1 h
  change 48 ≤ c.toNat at hlo
  change c.toNat ≤ 57 at hhi
  refine ⟨c.toNat - 48, by omega, Char.toNat_inj.1 ?_⟩
  rw [Nat.toNat_digitChar_of_lt_ten (by omega)]
  omega

theorem exists_map_digitChar_eq {cs : List Char} (h : ∀ c ∈ cs, c.isDigit = true) :
    ∃ ds : List Nat, (∀ d ∈ ds, d < 10) ∧ cs = ds.map Nat.digitChar := by
  induction cs with
  | nil => exact ⟨[], by simp, rfl⟩
  | cons c cs ih =>
    obtain ⟨hc, hcs⟩ := List.forall_mem_cons.1 h
    obtain ⟨d, hd, rfl⟩ := exists_digitChar_eq hc
    obtain ⟨ds, hds, rfl⟩ := ih hcs
    exact ⟨d :: ds, List.forall_mem_cons.2 ⟨hd, hds⟩, rfl⟩

theorem IsNumeral.isDigit {cs : List Char} {n : Nat} (h : IsNumeral cs n) :
    ∀ c ∈ cs, c.isDigit = true := by
  obtain ⟨ds, -, hds, rfl, -⟩ := h
  exact List.forall_mem_map.2 fun d hd => by rw [Nat.isDigit_digitChar, decide_eq_true (hds d hd)]

theorem value?_eq_some_iff {cs : List Char} {n : Nat} : value? cs = some n ↔ IsNumeral cs n := by
  constructor
  · intro h
    rw [value?, Option.ite_none_right_eq_some] at h
    obtain ⟨⟨hne, hdigits⟩, hvalue⟩ := h
    obtain ⟨ds, hds, rfl⟩ := exists_map_digitChar_eq (List.all_eq_true.1 hdigits)
    rw [ofDigitChars_map_digitChar hds, Nat.mul_zero, Nat.add_zero] at hvalue
    exact ⟨ds, mt (congrArg (List.map Nat.digitChar)) hne, hds, rfl, (Option.some.inj hvalue).symm⟩
  · intro h
    have hdigits := h.isDigit
    obtain ⟨ds, hne, hds, rfl, rfl⟩ := h
    rw [value?, if_pos ⟨mt List.map_eq_nil_iff.1 hne, List.all_eq_true.2 hdigits⟩,
      ofDigitChars_map_digitChar hds, Nat.mul_zero, Nat.add_zero]

end Decimal

namespace Address

/-! ## The last colon -/

theorem splitLast?_eq_none {sep : Char} {cs : List Char} (h : sep ∉ cs) :
    splitLast? sep cs = none := by
  induction cs with
  | nil => rfl
  | cons c cs ih =>
    rw [List.mem_cons, not_or] at h
    simp [splitLast?, ih h.2, Ne.symm h.1]

/-- A text is split where no separator follows. -/
theorem splitLast?_append {sep : Char} (before : List Char) {after : List Char} (h : sep ∉ after) :
    splitLast? sep (before ++ sep :: after) = some (before, after) := by
  induction before with
  | nil => simp [splitLast?, splitLast?_eq_none h]
  | cons c cs ih => simp only [List.cons_append, splitLast?, ih]

/-- `before` and `after` are the parts of `text` around its last colon. -/
structure Parted (text before after : String) : Prop where
  eq : text = before ++ ":" ++ after
  last : ':' ∉ after.toList

variable {text host suffix : String} {a : Address}

theorem exists_parted (h : ':' ∈ text.toList) : ∃ before after, Parted text before after := by
  -- The last colon of a text is the first one of the reversed text.
  obtain ⟨after, before, hsplit, hlast⟩ := List.eq_append_cons_of_mem (List.mem_reverse.2 h)
  refine ⟨String.ofList before.reverse, String.ofList after.reverse,
    String.toList_injective ?_, by simpa using hlast⟩
  rw [← List.reverse_reverse text.toList, hsplit]
  simp

theorem Parted.splitLast? (h : Parted text host suffix) :
    Address.splitLast? ':' text.toList = some (host.toList, suffix.toList) := by
  rw [h.eq, String.toList_append, String.toList_append, List.append_assoc]
  exact splitLast?_append _ h.last

/-- A text has one last colon. -/
theorem Parted.unique {host' suffix' : String} (h : Parted text host suffix)
    (h' : Parted text host' suffix') : host = host' ∧ suffix = suffix' := by
  obtain ⟨hhost, hsuffix⟩ := Prod.mk.inj (Option.some.inj (h.splitLast?.symm.trans h'.splitLast?))
  exact ⟨String.toList_injective hhost, String.toList_injective hsuffix⟩

/-! ## Ports -/

/-- The ways to write `n` as a port: a numeral, or a plus sign and a numeral. -/
def IsPort (text : String) (n : Nat) : Prop :=
  ∃ digits, Decimal.IsNumeral digits n ∧ (text.toList = digits ∨ text.toList = '+' :: digits)

theorem dropPlus_of_isDigit {cs : List Char} (h : ∀ c ∈ cs, c.isDigit = true) :
    dropPlus cs = cs := by
  unfold dropPlus
  split
  · exact absurd (h '+' List.mem_cons_self) (by decide)
  · rfl

theorem value?_dropPlus_eq_some_iff {n : Nat} :
    Decimal.value? (dropPlus text.toList) = some n ↔ IsPort text n := by
  rw [Decimal.value?_eq_some_iff]
  constructor
  · intro h
    refine ⟨dropPlus text.toList, h, ?_⟩
    cases hcs : text.toList with
    | nil => exact .inl rfl
    | cons c cs =>
      by_cases hc : c = '+'
      · subst hc
        exact .inr rfl
      · exact .inl (by rw [dropPlus]; simpa using hc)
  · rintro ⟨digits, hdigits, htext | htext⟩
    · rwa [htext, dropPlus_of_isDigit hdigits.isDigit]
    · rwa [htext]

theorem port?_eq_some_iff {port : UInt16} :
    port? text.toList = some port ↔ IsPort text port.toNat := by
  rw [← value?_dropPlus_eq_some_iff, port?, Option.bind_eq_some_iff]
  constructor
  · rintro ⟨n, hn, hport⟩
    rw [Option.ite_none_right_eq_some] at hport
    obtain ⟨hlt, hport⟩ := hport
    rw [hn, ← Option.some.inj hport, UInt16.toNat_ofNat_of_lt' hlt]
  · intro h
    exact ⟨port.toNat, h, by rw [if_pos port.toNat_lt, UInt16.ofNat_toNat]⟩

/-! ## Reading -/

/-- `text` is the host of `a`, which is not empty, a colon, the last one, and the port of `a`. -/
def Spells (text : String) (a : Address) : Prop :=
  a.host ≠ "" ∧ ∃ suffix, Parted text a.host suffix ∧ IsPort suffix a.port.toNat

/-- What is wrong with a text that spells no address. -/
inductive Flawed (text : String) : AddressError → Prop where
  | missingPort : ':' ∉ text.toList → Flawed text (.missingPort text)
  | emptyHost {suffix : String} : Parted text "" suffix → Flawed text (.emptyHost text)
  | invalidPort : ':' ∈ text.toList → (∀ suffix, ¬ Parted text "" suffix) → (∀ a, ¬ Spells text a) →
      Flawed text (.invalidPort text)

theorem ofText_of_not_mem (h : ':' ∉ text.toList) : ofText text = .error (.missingPort text) := by
  rw [ofText, splitLast?_eq_none h]

theorem Parted.ofText_of_empty (h : Parted text "" suffix) :
    ofText text = .error (.emptyHost text) := by
  rw [ofText, h.splitLast?]
  rfl

theorem Parted.ofText_of_port {port : UInt16} (h : Parted text host suffix) (hhost : host ≠ "")
    (hport : port? suffix.toList = some port) : ofText text = .ok ⟨host, port⟩ := by
  obtain ⟨c, cs, hcs⟩ := List.exists_cons_of_ne_nil (mt String.toList_eq_nil_iff.1 hhost)
  simp only [ofText, h.splitLast?, hcs, hport]
  rw [← hcs, String.ofList_toList]

theorem Parted.ofText_of_not_port (h : Parted text host suffix) (hhost : host ≠ "")
    (hport : port? suffix.toList = none) : ofText text = .error (.invalidPort text) := by
  obtain ⟨c, cs, hcs⟩ := List.exists_cons_of_ne_nil (mt String.toList_eq_nil_iff.1 hhost)
  simp only [ofText, h.splitLast?, hcs, hport]

theorem ofText_of_spells (h : Spells text a) : ofText text = .ok a := by
  obtain ⟨hhost, suffix, hparted, hport⟩ := h
  exact hparted.ofText_of_port hhost (port?_eq_some_iff.2 hport)

/-- What is not spelled is refused for its flaw. -/
theorem ofText_of_flawed {e : AddressError} (h : Flawed text e) : ofText text = .error e := by
  cases h with
  | missingPort hcolon => exact ofText_of_not_mem hcolon
  | emptyHost hparted => exact hparted.ofText_of_empty
  | invalidPort hcolon hhost hspells =>
    obtain ⟨host, suffix, hparted⟩ := exists_parted hcolon
    have hne : host ≠ "" := by
      rintro rfl
      exact hhost suffix hparted
    cases hport : port? suffix.toList with
    | none => exact hparted.ofText_of_not_port hne hport
    | some port =>
      exact absurd ⟨hne, suffix, hparted, port?_eq_some_iff.1 hport⟩ (hspells ⟨host, port⟩)

/-- Every text spells an address or has a flaw. -/
theorem spells_or_flawed (text : String) : (∃ a, Spells text a) ∨ ∃ e, Flawed text e := by
  by_cases hspells : ∃ a, Spells text a
  · exact .inl hspells
  right
  by_cases hcolon : ':' ∈ text.toList
  · by_cases hhost : ∃ suffix, Parted text "" suffix
    · obtain ⟨suffix, hparted⟩ := hhost
      exact ⟨_, .emptyHost hparted⟩
    · exact ⟨_, .invalidPort hcolon (not_exists.1 hhost) (not_exists.1 hspells)⟩
  · exact ⟨_, .missingPort hcolon⟩

theorem ofText_eq_ok_iff : ofText text = .ok a ↔ Spells text a := by
  refine ⟨fun h => ?_, ofText_of_spells⟩
  obtain ⟨b, hb⟩ | ⟨e, he⟩ := spells_or_flawed text
  · rw [ofText_of_spells hb] at h
    exact Except.ok.inj h ▸ hb
  · rw [ofText_of_flawed he] at h
    cases h

theorem ofText_eq_error_iff {e : AddressError} : ofText text = .error e ↔ Flawed text e := by
  refine ⟨fun h => ?_, ofText_of_flawed⟩
  obtain ⟨b, hb⟩ | ⟨e', he'⟩ := spells_or_flawed text
  · rw [ofText_of_spells hb] at h
    cases h
  · rw [ofText_of_flawed he'] at h
    exact Except.error.inj h ▸ he'

/-! ## Printing -/

theorem colon_not_mem_chars (n : Nat) : ':' ∉ Decimal.chars n :=
  fun h => absurd (Decimal.isDigit_of_mem_chars h) (by decide)

theorem parted_toText (a : Address) :
    Parted a.toText a.host (String.ofList (Decimal.chars a.port.toNat)) where
  eq := String.toList_injective (by simp [toText, chars])
  last := by
    rw [String.toList_ofList]
    exact colon_not_mem_chars _

/-- Host and port are told apart, though host names may hold colons. -/
theorem toText_injective {a b : Address} (h : a.toText = b.toText) : a = b := by
  obtain ⟨hhost, hport⟩ := (parted_toText a).unique (h ▸ parted_toText b)
  have hnumber := congrArg Decimal.value? (String.ofList_injective hport)
  rw [Decimal.value?_chars, Decimal.value?_chars] at hnumber
  obtain ⟨ahost, aport⟩ := a
  obtain ⟨bhost, bport⟩ := b
  rw [mk.injEq]
  exact ⟨hhost, UInt16.toNat_inj.1 (Option.some.inj hnumber)⟩

/-- An address with a host is printed as one of its spellings. -/
theorem spells_toText (h : a.host ≠ "") : Spells a.toText a := by
  have hnumeral := Decimal.value?_eq_some_iff.1 (Decimal.value?_chars a.port.toNat)
  exact ⟨h, _, parted_toText a, Decimal.chars a.port.toNat, hnumeral, .inl String.toList_ofList⟩

/-- A text is read as the address that it spells and refused for the flaw that it has, and an
address is read back from what is printed for it. -/
theorem read_as_spelled :
    (∀ text a, ofText text = .ok a ↔ Spells text a) ∧
    (∀ text e, ofText text = .error e ↔ Flawed text e) ∧
    (∀ a : Address, a.host ≠ "" → ofText a.toText = .ok a) ∧
    (∀ text a, ofText text = .ok a → ofText a.toText = .ok a) := by
  have hprinted (a : Address) (h : a.host ≠ "") : ofText a.toText = .ok a :=
    ofText_of_spells (spells_toText h)
  refine ⟨fun _ _ => ofText_eq_ok_iff, fun _ _ => ofText_eq_error_iff, hprinted, fun text a h => ?_⟩
  exact hprinted a (ofText_eq_ok_iff.1 h).1

/-- A port with a sign and leading zeros is printed without them, a host may be a colon itself, and
a numeral may be beyond the ports. -/
theorem signed_port_read_back :
    let a : Address := ⟨"[::1]", 80⟩
    let b : Address := ⟨":", 65535⟩
    (Spells "[::1]:+0080" a ∧ ofText "[::1]:+0080" = .ok a ∧ a.toText = "[::1]:80" ∧
      ofText "[::1]:80" = .ok a) ∧ (b.host ≠ "" ∧ b.toText = "::65535" ∧ ofText "::65535" = .ok b) ∧
      Flawed "::+065536" (.invalidPort "::+065536") := by
  intro a b
  obtain ⟨hok, herror, hprinted, hagain⟩ := read_as_spelled
  have hspells : Spells "[::1]:+0080" a :=
    ⟨by decide, "+0080", ⟨by decide, by decide⟩, ['0', '0', '8', '0'],
      ⟨[0, 0, 8, 0], by decide, by decide, by decide, by decide⟩, .inr (by decide)⟩
  have hread : ofText "[::1]:+0080" = .ok a := (hok _ _).2 hspells
  have ha : a.toText = "[::1]:80" := by decide +kernel
  have hb : b.toText = "::65535" := by decide +kernel
  have hhost : b.host ≠ "" := by decide
  exact ⟨⟨hspells, hread, ha, ha ▸ hagain _ a hread⟩, ⟨hhost, hb, hb ▸ hprinted b hhost⟩,
    (herror _ _).1 (by decide +kernel)⟩

end Address

end SealedMail
