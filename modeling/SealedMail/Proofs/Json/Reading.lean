import SealedMail.Proofs.Json.Quoting

/-!
# Reading what was rendered

Values whose numerals are those of numbers and whose texts were escaped (`Json.Written`) are read
back from what `Json.render` writes (`parse?_render`). A numeral does not say itself where it ends,
so what follows a value must not continue it (`Ends`).
-/

namespace SealedMail

/-! ## Numerals -/

namespace Decimal

/-- Only zero starts with a zero. -/
theorem chars_of_head? (n : Nat) (h : (chars n).head? = some '0') : chars n = ['0'] := by
  have hdigit : ∀ d < 10, d.digitChar = '0' → d = 0 := by decide
  have hzero : n = 0 := by
    induction n using Nat.strongRecOn with
    | ind n ih =>
      rw [chars, Nat.toDigits_eq_if (by decide)] at h
      split at h
      · next hlt => exact hdigit n hlt (Option.some.inj h)
      · next hge =>
        obtain ⟨c, cs, hcs⟩ :=
          List.exists_cons_of_ne_nil (Nat.toDigits_ne_nil (n := n / 10) (b := 10))
        have hquotient : n / 10 = 0 := ih (n / 10) (by omega) (by rw [chars, hcs]; rwa [hcs] at h)
        omega
  rw [hzero]
  rfl

theorem isDigit_of_mem_octets {n : Nat} {b : UInt8} (h : b ∈ octets n) : Json.isDigit b = true := by
  obtain ⟨c, hc, rfl⟩ := List.mem_map.1 h
  have hdigit := isDigit_of_mem_chars hc
  simp only [Char.isDigit, Bool.and_eq_true, decide_eq_true_eq, UInt32.le_iff_toNat_le] at hdigit
  have hvalue : c.toUInt8.toNat = c.val.toNat := by
    rw [Char.toUInt8, UInt32.toNat_toUInt8]
    exact Nat.mod_eq_of_lt (Nat.lt_of_le_of_lt hdigit.2 (by decide))
  simp only [Json.isDigit, Bool.and_eq_true, decide_eq_true_eq, UInt8.le_iff_toNat_le, hvalue]
  exact hdigit

/-- A numeral starts with a digit. -/
theorem exists_octets_eq_cons (n : Nat) : ∃ d ds, octets n = d :: ds ∧ Json.isDigit d = true := by
  have hne : octets n ≠ [] := by
    rw [octets, chars, Ne, List.map_eq_nil_iff]
    exact Nat.toDigits_ne_nil
  obtain ⟨d, ds, hds⟩ := List.exists_cons_of_ne_nil hne
  exact ⟨d, ds, hds, isDigit_of_mem_octets (n := n) (hds ▸ List.mem_cons_self)⟩

theorem length_octets_of_head? (n : Nat) (h : (octets n).head? = some 48) :
    (octets n).length = 1 := by
  have hchars : (chars n).head? = some '0' := by
    rw [octets, List.head?_map, Option.map_eq_some_iff] at h
    obtain ⟨c, hc, hoctet⟩ := h
    have hdigit := isDigit_of_mem_chars (List.mem_of_mem_head? hc)
    rw [hc, ← ofUInt8_toUInt8 hdigit, hoctet]
    rfl
  rw [octets, List.length_map, chars_of_head? n hchars]
  rfl

end Decimal

namespace Json

/-- What follows does not continue a numeral. -/
def Ends (rest : Bytes) : Prop :=
  ∀ b ∈ rest.head?, isDigit b = false ∧ b ≠ '.'.toUInt8 ∧ b ≠ 'e'.toUInt8 ∧ b ≠ 'E'.toUInt8

theorem digits_append {ds rest : Bytes} (hds : ∀ b ∈ ds, isDigit b = true) (h : Ends rest) :
    digits (ds ++ rest) = (ds, rest) := by
  have htake : rest.takeWhile isDigit = [] ∧ rest.dropWhile isDigit = rest := by
    cases rest with
    | nil => exact ⟨rfl, rfl⟩
    | cons b rest => simp [(h b rfl).1]
  rw [digits, List.takeWhile_append_of_pos hds, List.dropWhile_append_of_pos hds, htake.1, htake.2,
    List.append_nil]

theorem wholePart?_octets (n : Nat) {rest : Bytes} (h : Ends rest) :
    wholePart? (Decimal.octets n ++ rest) = some (Decimal.octets n, rest) := by
  have hread := digits_append (fun _ => Decimal.isDigit_of_mem_octets (n := n)) h
  have hzero := Decimal.length_octets_of_head? n
  obtain ⟨d, ds, hds, -⟩ := Decimal.exists_octets_eq_cons n
  rw [wholePart?, hread]
  rw [hds] at hzero ⊢
  refine if_neg fun hlong => ?_
  simp only [Bool.and_eq_true, decide_eq_true_eq] at hlong
  exact hlong.2 (hzero hlong.1)

theorem fraction?_of_ends {rest : Bytes} (h : Ends rest) : fraction? rest = some ([], rest) := by
  cases rest with
  | nil => rfl
  | cons b rest => exact if_neg (h b rfl).2.1

theorem exponent?_of_ends {rest : Bytes} (h : Ends rest) : exponent? rest = some ([], rest) := by
  cases rest with
  | nil => rfl
  | cons b rest =>
    have hletter : (b = 'e'.toUInt8 || b = 'E'.toUInt8) = false := by simp [(h b rfl).2.2]
    rw [exponent?, hletter]
    rfl

theorem numeral?_octets (n : Nat) {rest : Bytes} (h : Ends rest) :
    numeral? (Decimal.octets n ++ rest) = some (Decimal.octets n, rest) := by
  have hsign : ((Decimal.octets n ++ rest).head?.filter (· = '-'.toUInt8)).toList = [] := by
    obtain ⟨d, ds, hds, hdigit⟩ := Decimal.exists_octets_eq_cons n
    have hminus : d ≠ '-'.toUInt8 := fun hd => absurd (hd ▸ hdigit) (by decide)
    simp [hds, hminus]
  simp only [numeral?, hsign, List.length_nil, List.drop_zero, wholePart?_octets n h,
    Option.bind_eq_bind,
    Option.bind_some, fraction?_of_ends h, exponent?_of_ends h, List.nil_append, List.append_nil]

/-! ## Values -/

/-- Values whose numerals are those of numbers and whose texts were escaped. -/
inductive Written : Json → Prop where
  | null : Written .null
  | bool (b : Bool) : Written (.bool b)
  | number (n : Nat) : Written (ofNat n)
  | text (bs : Bytes) : Written (.text (escape bs))
  | array {items : List Json} : (∀ item ∈ items, Written item) → Written (.array items)
  | object {members : List (Bytes × Json)} : (∀ m ∈ members, ∃ bs, m.1 = escape bs) →
      (∀ m ∈ members, Written m.2) → Written (.object members)

/-! ### Octets that decide -/

theorem isDigit_ne {d c : UInt8} (hd : isDigit d = true) (hc : isDigit c = false) : d ≠ c := by
  rintro rfl
  exact absurd hd (Bool.eq_false_iff.1 hc)

theorem isBlank_of_isDigit {d : UInt8} (h : isDigit d = true) : isBlank d = false := by
  simp only [isBlank, Bool.or_eq_false_iff, decide_eq_false_iff_not]
  exact ⟨⟨⟨isDigit_ne h (by decide), isDigit_ne h (by decide)⟩, isDigit_ne h (by decide)⟩,
    isDigit_ne h (by decide)⟩

theorem skipBlanks_cons {b : UInt8} (hb : isBlank b = false) (bs : Bytes) :
    skipBlanks (b :: bs) = b :: bs := by
  simp [skipBlanks, hb]

theorem expect?_self {b : UInt8} (hb : isBlank b = false) (bs : Bytes) :
    expect? b (b :: bs) = some bs := by
  simp [expect?, skipBlanks_cons hb]

theorem expect?_of_ne {b c : UInt8} (hb : isBlank b = false) (hne : b ≠ c) (bs : Bytes) :
    expect? c (b :: bs) = none := by
  simp [expect?, skipBlanks_cons hb, hne]

/-- What is written for a value starts neither with a blank nor with a closing bracket. -/
theorem Written.render_eq_cons {j : Json} (h : j.Written) :
    ∃ b bs, j.render = b :: bs ∧ isBlank b = false ∧
    b ≠ ']'.toUInt8 ∧ b ≠ '}'.toUInt8 := by
  cases h with
  | null => exact ⟨_, _, rfl, by decide⟩
  | bool b => cases b <;> exact ⟨_, _, rfl, by decide⟩
  | number n =>
    obtain ⟨d, ds, hds, hdigit⟩ := Decimal.exists_octets_eq_cons n
    exact ⟨d, ds, hds, isBlank_of_isDigit hdigit, isDigit_ne hdigit (by decide),
      isDigit_ne hdigit (by decide)⟩
  | text bs => exact ⟨_, _, rfl, by decide⟩
  | @array items _ => cases items <;> exact ⟨_, _, rfl, by decide⟩
  | @object members _ _ => cases members <;> exact ⟨_, _, rfl, by decide⟩

/-- Items and members end with a bracket or go on with a comma. -/
theorem ends_cons {b : UInt8} (hb : b = ','.toUInt8 ∨ b = ']'.toUInt8 ∨ b = '}'.toUInt8)
    (rest : Bytes) : Ends (b :: rest) := by
  rintro _ ⟨⟩
  obtain rfl | rfl | rfl := hb <;> decide

theorem ends_renderItems (items : List Json) (rest : Bytes) : Ends (renderItems items ++ rest) := by
  cases items with
  | nil => exact ends_cons (.inr (.inl rfl)) _
  | cons => exact ends_cons (.inl rfl) _

theorem ends_renderMembers (members : List (Bytes × Json)) (rest : Bytes) :
    Ends (renderMembers members ++ rest) := by
  cases members with
  | nil => exact ends_cons (.inr (.inr rfl)) _
  | cons => exact ends_cons (.inl rfl) _

/-! ### Reading -/

/-- A value is read from what is written for it, with at least as much fuel as it has octets. -/
def Reads (j : Json) : Prop :=
  ∀ fuel rest, j.render.length ≤ fuel → Ends rest → value? fuel (j.render ++ rest) = some (j, rest)

theorem items?_renderItems {items : List Json} (h : ∀ item ∈ items, Reads item) (fuel : Nat)
    (rest : Bytes) (hfuel : (renderItems items).length ≤ fuel) :
    items? fuel (renderItems items ++ rest) = some (items, rest) := by
  induction items generalizing fuel with
  | nil =>
    cases fuel with
    | zero => exact absurd hfuel (by decide)
    | succ fuel =>
      change items? (fuel + 1) (']'.toUInt8 :: rest) = _
      rw [items?, expect?_of_ne (by decide) (by decide), expect?_self (by decide)]
      rfl
  | cons item items ih =>
    obtain ⟨hitem, hitems⟩ := List.forall_mem_cons.1 h
    simp only [renderItems, List.length_append] at hfuel
    cases fuel with
    | zero => exact absurd hfuel (by simp [ascii])
    | succ fuel =>
      have hlength : item.render.length + (renderItems items).length ≤ fuel := by
        simp only [ascii, List.map_cons, List.map_nil, List.length_singleton] at hfuel
        omega
      have hfirst := hitem fuel _ (by omega) (ends_renderItems items rest)
      have hrest := ih hitems fuel (by omega)
      change items? (fuel + 1) (','.toUInt8 :: (item.render ++ renderItems items ++ rest)) = _
      rw [items?, expect?_self (by decide), List.append_assoc]
      simp [hfirst, hrest]

theorem member?_append {j : Json} (hj : Reads j) (bs : Bytes) (fuel : Nat) {rest : Bytes}
    (hends : Ends rest) (hfuel : j.render.length < fuel) :
    member? fuel (quotation (escape bs) ++ ':'.toUInt8 :: (j.render ++ rest)) =
      some ((escape bs, j), rest) := by
  cases fuel with
  | zero => exact absurd hfuel (Nat.not_lt_zero _)
  | succ fuel =>
    have hvalue := hj fuel rest (Nat.le_of_lt_succ hfuel) hends
    have hkey : quotation (escape bs) ++ ':'.toUInt8 :: (j.render ++ rest) =
        quote :: (escape bs ++ quote :: ':'.toUInt8 :: (j.render ++ rest)) := by simp [quotation]
    rw [hkey, member?, expect?_self (by decide)]
    simp only [Option.bind_eq_bind, Option.bind_some, rawText?_escape]
    rw [expect?_self (by decide), Option.bind_some, hvalue]
    rfl

theorem members?_renderMembers {members : List (Bytes × Json)}
    (hkeys : ∀ m ∈ members, ∃ bs, m.1 = escape bs) (h : ∀ m ∈ members, Reads m.2) (fuel : Nat)
    (rest : Bytes) (hfuel : (renderMembers members).length ≤ fuel) :
    members? fuel (renderMembers members ++ rest) = some (members, rest) := by
  induction members generalizing fuel with
  | nil =>
    cases fuel with
    | zero => exact absurd hfuel (by decide)
    | succ fuel =>
      change members? (fuel + 1) ('}'.toUInt8 :: rest) = _
      rw [members?, expect?_of_ne (by decide) (by decide), expect?_self (by decide)]
      rfl
  | cons m members ih =>
    obtain ⟨hm, hmembers⟩ := List.forall_mem_cons.1 h
    obtain ⟨⟨bs, hkey⟩, hothers⟩ := List.forall_mem_cons.1 hkeys
    obtain ⟨key, j⟩ := m
    obtain rfl : key = escape bs := hkey
    have hj : Reads j := hm
    simp only [renderMembers, List.length_append] at hfuel
    cases fuel with
    | zero => exact absurd hfuel (by simp [ascii])
    | succ fuel =>
      have hlength : j.render.length + (renderMembers members).length < fuel := by
        simp only [ascii, quotation, List.map_cons, List.map_nil, List.length_cons,
          List.length_append, List.length_nil]
          at hfuel
        omega
      have hfirst := member?_append hj bs fuel (ends_renderMembers members rest) (by omega)
      have hrest := ih hothers hmembers fuel (by omega)
      have happend : renderMembers ((escape bs, j) :: members) ++ rest = ','.toUInt8 ::
          (quotation (escape bs) ++ ':'.toUInt8 ::
              (j.render ++ (renderMembers members ++ rest))) := by
        simp [renderMembers, ascii]
      rw [happend, members?, expect?_self (by decide)]
      simp only [Option.bind_eq_bind, hfirst, Option.bind_some, hrest]

theorem value?_quotation (bs : Bytes) (fuel : Nat) (rest : Bytes) :
    value? (fuel + 1) (quotation (escape bs) ++ rest) = some (.text (escape bs), rest) := by
  have hopen : quotation (escape bs) ++ rest = quote :: (escape bs ++ quote :: rest) := by
    simp [quotation]
  rw [hopen, value?, skipBlanks_cons (by decide)]
  simp [rawText?_escape]

theorem value?_octets (n : Nat) (fuel : Nat) {rest : Bytes} (h : Ends rest) :
    value? (fuel + 1) (Decimal.octets n ++ rest) = some (ofNat n, rest) := by
  have hread := numeral?_octets n h
  obtain ⟨d, ds, hds, hdigit⟩ := Decimal.exists_octets_eq_cons n
  rw [hds, List.cons_append] at hread ⊢
  -- No digit opens anything else.
  have hne {c : UInt8} (hc : isDigit c = false) : d ≠ c := isDigit_ne hdigit hc
  rw [value?, skipBlanks_cons (isBlank_of_isDigit hdigit)]
  simp only [hne (c := quote) (by decide), hne (c := '['.toUInt8) (by decide),
    hne (c := '{'.toUInt8) (by decide), hne (c := 'n'.toUInt8) (by decide),
    hne (c := 't'.toUInt8) (by decide), hne (c := 'f'.toUInt8) (by decide),
    if_false, hread, Option.map_some, ofNat, hds]

theorem value?_array {items : List Json} (hwritten : ∀ item ∈ items, Written item)
    (h : ∀ item ∈ items, Reads item) (fuel : Nat) (rest : Bytes)
    (hfuel : (render (.array items)).length ≤ fuel + 1) :
    value? (fuel + 1) (render (.array items) ++ rest) = some (.array items, rest) := by
  cases items with
  | nil => rfl
  | cons item items =>
    obtain ⟨hitem, hitems⟩ := List.forall_mem_cons.1 h
    obtain ⟨b, bs, hb, hblank, hclose, -⟩ := (hwritten item List.mem_cons_self).render_eq_cons
    have happend : render (.array (item :: items)) ++ rest =
        '['.toUInt8 :: (item.render ++ (renderItems items ++ rest)) := by
      simp [render, ascii]
    have hlength : item.render.length + (renderItems items).length ≤ fuel := by
      simp only [render, ascii, List.map_cons, List.map_nil, List.length_append,
        List.length_singleton] at hfuel
      omega
    have hfirst := hitem fuel _ (by omega) (ends_renderItems items rest)
    have hrest := items?_renderItems hitems fuel rest (by omega)
    have hopen : expect? ']'.toUInt8 (item.render ++ (renderItems items ++ rest)) = none := by
      rw [hb, List.cons_append, expect?_of_ne hblank hclose]
    have hne : '['.toUInt8 ≠ quote := by decide
    rw [happend, value?, skipBlanks_cons (by decide)]
    simp [hne, hopen, hfirst, hrest]

theorem value?_object {members : List (Bytes × Json)} (hkeys : ∀ m ∈ members, ∃ bs, m.1 = escape bs)
    (h : ∀ m ∈ members, Reads m.2) (fuel : Nat) (rest : Bytes)
    (hfuel : (render (.object members)).length ≤ fuel + 1) :
    value? (fuel + 1) (render (.object members) ++ rest) = some (.object members, rest) := by
  cases members with
  | nil => rfl
  | cons m members =>
    obtain ⟨hm, hmembers⟩ := List.forall_mem_cons.1 h
    obtain ⟨⟨bs, hkey⟩, hothers⟩ := List.forall_mem_cons.1 hkeys
    obtain ⟨key, j⟩ := m
    obtain rfl : key = escape bs := hkey
    have hj : Reads j := hm
    have happend : render (.object ((escape bs, j) :: members)) ++ rest = '{'.toUInt8 ::
        (quotation (escape bs) ++ ':'.toUInt8 ::
            (j.render ++ (renderMembers members ++ rest))) := by
      simp [render, ascii]
    have hlength : j.render.length + (renderMembers members).length < fuel := by
      simp only [render, ascii, quotation, List.map_cons, List.map_nil, List.length_cons,
        List.length_append, List.length_nil] at hfuel
      omega
    have hfirst := member?_append hj bs fuel (ends_renderMembers members rest) (by omega)
    have hrest := members?_renderMembers hothers hmembers fuel rest (by omega)
    have hopen (bs' : Bytes) : expect? '}'.toUInt8 (quotation (escape bs) ++ bs') = none :=
      expect?_of_ne (b := quote) (by decide) (by decide) _
    have hquote : '{'.toUInt8 ≠ quote := by decide
    have harray : '{'.toUInt8 ≠ '['.toUInt8 := by decide
    rw [happend, value?, skipBlanks_cons (by decide)]
    simp [hquote, harray, hopen, hfirst, hrest]

/-- Nothing is written in no octets. -/
theorem reads_of_succ {j : Json} (hwritten : j.Written)
    (h : ∀ fuel rest, j.render.length ≤ fuel + 1 → Ends rest →
    value? (fuel + 1) (j.render ++ rest) = some (j, rest)) : Reads j := by
  obtain ⟨b, bs, hb, -⟩ := hwritten.render_eq_cons
  intro fuel rest hfuel hends
  cases fuel with
  | zero =>
    rw [hb] at hfuel
    exact absurd hfuel (Nat.not_succ_le_zero _)
  | succ fuel => exact h fuel rest hfuel hends

/-- Every value that is written is read back. -/
theorem Written.reads {j : Json} (h : j.Written) : Reads j := by
  induction h with
  | null => exact reads_of_succ .null fun _ _ _ _ => rfl
  | bool b => cases b <;> exact reads_of_succ (.bool _) fun _ _ _ _ => rfl
  | number n => exact reads_of_succ (.number n) fun fuel _ _ hends => value?_octets n fuel hends
  | text bs => exact reads_of_succ (.text bs) fun fuel rest _ _ => value?_quotation bs fuel rest
  | array hitems ih =>
    exact reads_of_succ (.array hitems) fun fuel rest hfuel _ =>
      value?_array hitems ih fuel rest hfuel
  | object hkeys hvalues ih =>
    exact reads_of_succ (.object hkeys hvalues) fun fuel rest hfuel _ =>
      value?_object hkeys ih fuel rest hfuel

theorem parse?_render {j : Json} (h : j.Written) : parse? j.render = some j := by
  have hread := h.reads (2 * j.render.length + 2) [] (by omega) (fun _ h => nomatch h)
  rw [List.append_nil] at hread
  rw [parse?, hread]
  rfl

end Json

end SealedMail
