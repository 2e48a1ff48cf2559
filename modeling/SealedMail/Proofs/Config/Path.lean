import SealedMail.Config.Path

/-!
# Paths of files

A text below a directory names the parts of both, one after the other (`Path.ofText_joinText`), as
long as the text does not start again at the root or with a dot. The temporary sibling of a path
differs from it, and different paths have different siblings.
-/

namespace SealedMail.Path

/-! ## Parts -/

theorem splitParts_append (isFirst : Bool) (part cs ds : List Char) :
    splitParts isFirst part (cs ++ '/' :: ds) = splitParts isFirst part cs ++
      splitParts false [] ds := by
  induction cs generalizing isFirst part with
  | nil => simp [splitParts]
  | cons c cs ih =>
    simp only [List.cons_append, splitParts]
    split
    · rw [ih, List.append_assoc]
    · exact ih isFirst (part ++ [c])

theorem ne_nil_of_mem_splitParts {isFirst : Bool} {part cs found : List Char}
    (h : found ∈ splitParts isFirst part cs) : found ≠ [] := by
  have hemitted {isFirst : Bool} {part : List Char}
      (h : found ∈ if part = [] ∨ (part = dot ∧ !isFirst) then [] else [part]) : found ≠ [] := by
    split at h
    · cases h
    · next hpart => exact fun he => hpart (.inl ((List.mem_singleton.1 h).symm.trans he))
  induction cs generalizing isFirst part with
  | nil => exact hemitted h
  | cons c cs ih =>
    simp only [splitParts] at h
    split at h
    · rcases List.mem_append.1 h with h | h
      · exact hemitted h
      · exact ih h
    · exact ih h

/-- Whether a text comes first matters only if it starts with a dot. -/
theorem splitParts_false {part cs : List Char} (h : dot ∉ splitParts true part cs) :
    splitParts false part cs = splitParts true part cs := by
  induction cs generalizing part with
  | nil => by_cases hpart : part = dot <;> simp_all [splitParts]
  | cons c cs ih =>
    simp only [splitParts] at h ⊢
    split at h
    · by_cases hpart : part = dot <;> simp_all [dot]
    · next hc => simp only [hc, if_false, ih h]

theorem splitParts_of_part {part cs : List Char} (h : part ≠ []) :
    splitParts true part cs ≠ [] := by
  induction cs generalizing part with
  | nil => simp [splitParts, h]
  | cons c cs ih =>
    simp only [splitParts]
    split
    · simp [h]
    · exact ih (by simp)

theorem splitParts_of_not_mem (isFirst : Bool) {part cs : List Char} (hcs : '/' ∉ cs)
    (hne : part ++ cs ≠ []) (hdot : part ++ cs ≠ dot) :
    splitParts isFirst part cs = [part ++ cs] := by
  induction cs generalizing part with
  | nil =>
    rw [List.append_nil] at hne hdot ⊢
    simp [splitParts, hne, hdot]
  | cons c cs ih =>
    obtain ⟨hc, hcs⟩ := not_or.1 (mt List.mem_cons.2 hcs)
    have hassoc : part ++ c :: cs = part ++ [c] ++ cs := by simp
    rw [splitParts, if_neg (Ne.symm hc), hassoc]
    rw [hassoc] at hne hdot
    exact ih hcs hne hdot

/-! ## Texts -/

theorem startsWith_slash_iff {text : String} :
    text.startsWith "/" = true ↔ text.toList.head? = some '/' := by
  rw [String.startsWith_string_iff]
  cases text.toList with
  | nil => simp
  | cons c cs => simp [List.cons_prefix_cons, eq_comm]

theorem endsWith_slash_iff {text : String} :
    text.endsWith "/" = true ↔ ∃ cs, text.toList = cs ++ ['/'] := by
  rw [String.endsWith_eq_endsWith_toSlice, String.Slice.endsWith_string_iff]
  simp [List.IsSuffix, eq_comm]

theorem empty_not_mem_parts (text : String) : "" ∉ (ofText text).parts := by
  intro h
  obtain ⟨found, hfound, he⟩ := List.mem_map.1 h
  exact ne_nil_of_mem_splitParts hfound (by simpa using congrArg String.toList he)

/-- The path with more parts. -/
def extend (p : Path) (parts : List String) : Path := { p with parts := p.parts ++ parts }

/-- A text is looked up below a directory if it neither starts at the root nor with a dot. -/
theorem ofText_joinText {dir text : String} (hrelative : text.startsWith "/" = false)
    (hdot : "." ∉ (ofText text).parts) :
    ofText (joinText dir text) = (ofText dir).extend (ofText text).parts := by
  have hfirst : splitParts false [] text.toList = splitParts true [] text.toList :=
    splitParts_false fun h => hdot (List.mem_map.2 ⟨dot, h, rfl⟩)
  -- Whether a slash is put between them or was there before, it separates the parts of the two
  -- texts.
  have hseparated {joined : String} {cs : List Char} (hne : dir.toList ≠ [])
      (hdir : dir.toList = cs ∨
        dir.toList = cs ++ ['/']) (hjoined : joined.toList = cs ++ '/' :: text.toList) :
      ofText joined = (ofText dir).extend (ofText text).parts := by
    have hhead : joined.toList.head? = dir.toList.head? := by
      rcases hdir with h | h <;> rw [hjoined] <;> cases cs <;> simp_all
    have habsolute : joined.startsWith "/" = dir.startsWith "/" := by
      rw [Bool.eq_iff_iff, startsWith_slash_iff, startsWith_slash_iff, hhead]
    have hdirParts : splitParts true [] dir.toList = splitParts true [] cs := by
      rcases hdir with h | h
      · rw [h]
      · rw [h, splitParts_append]
        exact List.append_nil _
    rw [ofText, habsolute, hjoined, splitParts_append, hfirst, ← hdirParts, List.map_append]
    rfl
  unfold joinText
  rw [if_neg (by simp [hrelative])]
  by_cases hempty : dir = ""
  · have hroot : ofText "" = ⟨false, []⟩ := by decide
    rw [hempty, hroot, if_pos (by simp), String.empty_append, extend, List.nil_append]
    exact congrArg (Path.mk · _) hrelative
  · have hne : dir.toList ≠ [] := fun h => hempty (String.toList_eq_nil_iff.1 h)
    by_cases hends : dir.endsWith "/" = true
    · obtain ⟨cs, hcs⟩ := endsWith_slash_iff.1 hends
      rw [if_pos (by simp [hends])]
      exact hseparated hne (.inr hcs) (by simp [hcs])
    · rw [if_neg (by simp [hempty, hends])]
      exact hseparated hne (.inl rfl) (by simp)

/-! ## Temporary siblings -/

/-- The path of a name in a directory. -/
def child (p : Path) (name : String) : Path := p.extend [name]

/-- Part of a path that neither leads upwards nor stays in place. -/
def IsName (part : String) : Prop := part ≠ ".." ∧ part ≠ "."

instance (part : String) : Decidable (IsName part) :=
  inferInstanceAs (Decidable (part ≠ ".." ∧ part ≠ "."))

theorem fileName?_child (p : Path) {name : String} (h : IsName name) :
    (p.child name).fileName? = some name := by
  simp [fileName?, child, extend, Option.filter, h.1, h.2]

theorem eq_child_of_fileName? {p : Path} {name : String} (h : p.fileName? = some name) :
    IsName name ∧ ∃ dir : Path, p = dir.child name := by
  obtain ⟨hlast, hname⟩ := Option.filter_eq_some_iff.1 h
  obtain ⟨parts, hparts⟩ := List.getLast?_eq_some_iff.1 hlast
  simp only [decide_eq_true_eq] at hname
  exact ⟨hname, ⟨p.isAbsolute, parts⟩, congrArg (Path.mk p.isAbsolute) hparts⟩

theorem temporary_child (p : Path) {name : String} (h : IsName name) :
    (p.child name).temporary = p.child (name ++ ".tmp") := by
  simp only [temporary, withFileName, fileName?_child p h, Option.getD_some,
    Option.isSome_some, if_true]
  simp [child, extend]

theorem temporary_of_fileName?_eq_none {p : Path} (h : p.fileName? = none) :
    p.temporary = p.child ".tmp" := by
  simp [temporary, withFileName, h, child, extend]

theorem child_inj {p q : Path} {name other : String} :
    p.child name = q.child other ↔ p = q ∧ name = other := by
  cases p
  cases q
  simp only [child, extend, Path.mk.injEq, List.append_singleton_inj, and_assoc]

theorem temporary_ne (p : Path) : p.temporary ≠ p := by
  cases h : p.fileName? with
  | none =>
    rw [temporary_of_fileName?_eq_none h]
    intro he
    have := congrArg (fun p => p.parts.length) he
    simp [child, extend] at this
  | some name =>
    obtain ⟨hname, dir, rfl⟩ := eq_child_of_fileName? h
    rw [temporary_child dir hname]
    exact fun he => absurd (String.append_eq_left_iff.1 (child_inj.1 he).2) (by decide)

theorem temporary_inj {p q : Path} (hp : "" ∉ p.parts) (hq : "" ∉ q.parts) :
    p.temporary = q.temporary ↔ p = q := by
  -- A path without a file name does not share its sibling with one that has a name.
  have hmixed {p q : Path} {name : String} (hq : "" ∉ q.parts) (hpn : p.fileName? = none)
      (hqn : q.fileName? = some name) : p.temporary ≠ q.temporary := by
    obtain ⟨hname, dir, rfl⟩ := eq_child_of_fileName? hqn
    rw [temporary_of_fileName?_eq_none hpn, temporary_child dir hname]
    intro he
    have hempty : name = "" := String.append_eq_right_iff.1 (child_inj.1 he).2.symm
    exact hq (List.mem_append_right _ (List.mem_singleton.2 hempty.symm))
  refine ⟨fun h => ?_, congrArg temporary⟩
  cases hpn : p.fileName? with
  | none =>
    cases hqn : q.fileName? with
    | none =>
      rw [temporary_of_fileName?_eq_none hpn, temporary_of_fileName?_eq_none hqn] at h
      exact (child_inj.1 h).1
    | some name => exact absurd h (hmixed hq hpn hqn)
  | some name =>
    cases hqn : q.fileName? with
    | none => exact absurd h.symm (hmixed hp hqn hpn)
    | some other =>
      obtain ⟨hname, dir, rfl⟩ := eq_child_of_fileName? hpn
      obtain ⟨hother, dir', rfl⟩ := eq_child_of_fileName? hqn
      rw [temporary_child dir hname, temporary_child dir' hother, child_inj, String.append_left_inj]
        at h
      exact child_inj.2 h

/-! ## Files below a directory -/

/-- A text that leads down from a directory: it does not start at the root, and all of its parts are
names. -/
structure IsProper (text : String) : Prop where
  relative : text.startsWith "/" = false
  names : ∀ part ∈ (ofText text).parts, IsName part

/-- A single name. -/
structure IsPlain (name : String) : Prop where
  nonempty : name ≠ ""
  single : '/' ∉ name.toList
  isName : IsName name

theorem IsProper.exists_fileName {text : String} (h : IsProper text) (hne : text ≠ "")
    (dir : String) : ∃ name, (ofText (joinText dir text)).fileName? = some name := by
  have hparts : (ofText text).parts ≠ [] := by
    cases hcs : text.toList with
    | nil => exact absurd (String.toList_eq_nil_iff.1 hcs) hne
    | cons c cs =>
      have hc : c ≠ '/' := fun hc => by
        have hroot : text.startsWith "/" = true := startsWith_slash_iff.2 (by rw [hcs, hc]; rfl)
        exact absurd (h.relative.symm.trans hroot) Bool.false_ne_true
      have hsplit : splitParts true [] text.toList = splitParts true [c] cs := by
        rw [hcs, splitParts, if_neg hc]
        rfl
      simpa [ofText, hsplit] using splitParts_of_part (List.cons_ne_nil c [])
  obtain ⟨before, name, hname⟩ := List.eq_nil_or_concat (ofText text).parts |>.resolve_left hparts
  rw [List.concat_eq_append] at hname
  have hdot : "." ∉ (ofText text).parts := fun hd => (h.names _ hd).2 rfl
  have hchild : ofText (joinText dir text) = ((ofText dir).extend before).child name := by
    rw [ofText_joinText h.relative hdot, hname]
    simp [child, extend]
  exact ⟨name, hchild ▸ fileName?_child _ (h.names name (by simp [hname]))⟩

namespace IsPlain

variable {name : String}

theorem parts (h : IsPlain name) : (ofText name).parts = [name] := by
  have hne : name.toList ≠ [] := fun he => h.nonempty (String.toList_eq_nil_iff.1 he)
  have hdot : name.toList ≠ dot := fun he => h.isName.2 (String.toList_inj.1 he)
  have hsplit : splitParts true [] name.toList = [name.toList] :=
    splitParts_of_not_mem true h.single hne hdot
  rw [ofText, hsplit]
  simp

theorem isProper (h : IsPlain name) : IsProper name := by
  refine ⟨Bool.eq_false_iff.2 fun hs => h.single ?_, fun part hp => ?_⟩
  · exact List.mem_of_head? (startsWith_slash_iff.1 hs)
  · rw [h.parts] at hp
    exact List.mem_singleton.1 hp ▸ h.isName

/-- All single names are looked up in the same directory. -/
theorem ofText_joinText (h : IsPlain name) (dir : String) :
    ofText (joinText dir name) = (ofText dir).child name := by
  rw [Path.ofText_joinText h.isProper.relative fun hd => (h.isProper.names _ hd).2 rfl, h.parts]
  rfl

end IsPlain

end SealedMail.Path
