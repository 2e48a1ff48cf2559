import SealedMail.Config.Settings
import SealedMail.Mailbox.Ledger
import SealedMail.Message.Entry
import SealedMail.Proofs.Config.Path
import SealedMail.Storage.Drawer

/-!
# Two files side by side

The item list and the ledger are kept in two files below one directory, each with a temporary
sibling. What is written to one is never read from the other if neither path meets the other, its
sibling or the directories that are made on the way to it (`Path.Clear`). Settings are only checked
for different file names, which is not enough for that.
-/

namespace SealedMail

/-! ## Directories above a path -/

namespace Path

/-- The directories above a path, the outermost first. -/
def above (p : Path) : List Path :=
  (List.range p.parts.length).map fun n => { p with parts := p.parts.take n }

variable {p q dir : Path} {name other : String}

theorem length_lt_of_mem_above (h : dir ∈ p.above) : dir.parts.length < p.parts.length := by
  obtain ⟨n, hn, rfl⟩ := List.mem_map.1 h
  have hlt : n < p.parts.length := List.mem_range.1 hn
  rw [List.length_take, Nat.min_eq_left (Nat.le_of_lt hlt)]
  exact hlt

theorem above_trans (h : q ∈ p.above) (hdir : dir ∈ q.above) : dir ∈ p.above := by
  obtain ⟨n, hn, rfl⟩ := List.mem_map.1 h
  obtain ⟨m, hm, rfl⟩ := List.mem_map.1 hdir
  have hlt : m < n := by
    have := List.mem_range.1 hm
    rw [List.length_take] at this
    omega
  refine List.mem_map.2 ⟨m, List.mem_range.2 (Nat.lt_trans hlt (List.mem_range.1 hn)), ?_⟩
  rw [List.take_take, Nat.min_eq_left (Nat.le_of_lt hlt)]

theorem not_mem_above_self (p : Path) : p ∉ p.above :=
  fun h => absurd (length_lt_of_mem_above h) (Nat.lt_irrefl _)

theorem above_child (p : Path) (name : String) : (p.child name).above = p.above ++ [p] := by
  have hinner : ∀ n ∈ List.range p.parts.length,
      { p with parts := (p.parts ++ [name]).take n } = { p with parts := p.parts.take n } := by
    intro n hn
    have hle : n ≤ p.parts.length := Nat.le_of_lt (List.mem_range.1 hn)
    rw [List.take_append_of_le_length hle]
  simp only [above, child, extend, List.length_append, List.length_singleton, List.range_succ,
    List.map_append, List.map_cons, List.map_nil, List.take_left]
  rw [List.map_congr_left hinner]

theorem above_child_eq (p : Path) (name other : String) :
    (p.child name).above = (p.child other).above := by
  rw [above_child, above_child]

/-- What is in a directory is not above anything in the same directory. -/
theorem child_not_mem_above (p : Path) (name other : String) :
    p.child name ∉ (p.child other).above := by
  rw [above_child_eq p other name]
  exact not_mem_above_self _

theorem above_temporary (h : p.fileName? = some name) : p.temporary.above = p.above := by
  obtain ⟨hname, dir, rfl⟩ := eq_child_of_fileName? h
  rw [temporary_child dir hname, above_child_eq]

theorem temporary_not_mem_above (h : p.fileName? = some name) : p.temporary ∉ p.above := by
  rw [← above_temporary h]
  exact not_mem_above_self _

/-- Neither a path nor the directories above it are touched by what is written at another. -/
structure Clear (p q : Path) : Prop where
  distinct : p ≠ q
  apart : p ≠ q.temporary
  notAbove : p ∉ q.above
  notBelow : q ∉ p.above
  siblingNotAbove : q.temporary ∉ p.above

end Path

/-! ## Cabinets -/

/-- What stands at each path. Links are not followed. -/
abbrev Cabinet := Path → Place

def Place.isFile : Place → Bool
  | .file _ => true
  | _ => false

/-- An attempt to write a value. -/
structure Attempt (α : Type) where
  value : α
  mishap : Option Mishap := none
  /-- How many of the directories above the file are made before one cannot be made. -/
  made : Nat := 0

namespace Cabinet

variable {α β : Type} [Codec α] [Codec β] {c c' : Cabinet} {p q dir : Path} {a : Attempt β}

/-- Whether a file stands where a directory should be. -/
def isBlocked (c : Cabinet) (p : Path) : Bool := p.above.any fun dir => (c dir).isFile

/-- The file at a path and its sibling. -/
def drawer (c : Cabinet) (p : Path) : Drawer where
  place := c p
  sibling :=
    match c p.temporary with
    | .file content => some content
    | _ => none

def putting (c : Cabinet) (p : Path) (d : Drawer) : Cabinet := fun q =>
  if q = p then d.place
  else if q = p.temporary then
    match d.sibling with
    | some content => .file content
    | none => .vacant
  else c q

/-- Directories are made where nothing stands. -/
def making (c : Cabinet) (dirs : List Path) : Cabinet := fun q =>
  if q ∈ dirs ∧ c q = .vacant then .directory else c q

def read (c : Cabinet) (p : Path) : Except StorageError (Option α) :=
  if c.isBlocked p then .error (.io "not a directory") else (c.drawer p).read

/-- Make the directories above a path, write to the sibling and put it in the place of the file. -/
def write (p : Path) (c : Cabinet) (a : Attempt β) : Cabinet × Except StorageError Unit :=
  if c.isBlocked p then (c, .error (.io "not a directory"))
  else if a.mishap = some .directory then
    (c.making (p.above.take a.made), .error (.io "no directory"))
  else
    let c := c.making p.above
    if c p.temporary = .directory then (c, .error (.io "is a directory"))
    else
      let (d, result) := (c.drawer p).write a.value a.mishap
      (c.putting p d, result)

/-- Whatever stands anywhere stands in directories. -/
def Orderly (c : Cabinet) : Prop := ∀ p, c p ≠ .vacant → ∀ dir ∈ p.above, c dir = .directory

/-- What is read at `p` does not depend on what is written at `q`. -/
def Undisturbed (α β : Type) [Codec α] [Codec β] (p q : Path) : Prop :=
  ∀ c : Cabinet, c.Orderly → ∀ attempts : List (Attempt β),
    (attempts.foldl (fun c a => (c.write q a).1) c).read (α := α) p = c.read p

/-! ## What is written elsewhere -/

omit [Codec α] in
/-- Apart from a file and its sibling, a write only makes directories above it. -/
theorem write_at (c : Cabinet) (a : Attempt β) (hp : p ≠ q) (hsibling : p ≠ q.temporary) :
    (c.write q a).1 p = c p ∨ p ∈ q.above ∧ c p = .vacant ∧ (c.write q a).1 p = .directory := by
  have hmaking (dirs : List Path) (hdirs : ∀ dir ∈ dirs, dir ∈ q.above) :
      c.making dirs p = c p ∨ p ∈ q.above ∧ c p = .vacant ∧ c.making dirs p = .directory := by
    by_cases h : p ∈ dirs ∧ c p = .vacant
    · exact .inr ⟨hdirs p h.1, h.2, if_pos h⟩
    · exact .inl (if_neg h)
  unfold write
  split
  · exact .inl rfl
  · split
    · exact hmaking _ fun dir hdir => List.mem_of_mem_take hdir
    · simp only []
      split
      · exact hmaking _ fun dir hdir => hdir
      · have hput (d : Drawer) : (c.making q.above).putting q d p = c.making q.above p := by
          rw [putting, if_neg hp, if_neg hsibling]
        simp only [hput]
        exact hmaking _ fun dir hdir => hdir

/-- What is read at a path depends on what stands there and in the directories above. -/
theorem read_congr (hplace : c' p = c p)
    (habove : ∀ dir ∈ p.above, (c' dir).isFile = (c dir).isFile) :
    c'.read (α := α) p = c.read p := by
  have hblocked : c'.isBlocked p = c.isBlocked p := by
    unfold isBlocked
    rw [Bool.eq_iff_iff, List.any_eq_true, List.any_eq_true]
    exact exists_congr fun dir => and_congr_right fun hdir => by rw [habove dir hdir]
  simp only [read, hblocked, drawer, Drawer.read, hplace]

theorem read_write (h : p.Clear q) (c : Cabinet) (a : Attempt β) :
    (c.write q a).1.read (α := α) p = c.read p := by
  refine read_congr ?_ fun dir hdir => ?_
  · rcases write_at c a h.distinct h.apart with hsame | ⟨habove, -⟩
    · exact hsame
    · exact absurd habove h.notAbove
  · have hne : dir ≠ q := fun he => h.notBelow (he ▸ hdir)
    have hsibling : dir ≠ q.temporary := fun he => h.siblingNotAbove (he ▸ hdir)
    rcases write_at c a hne hsibling with hsame | ⟨-, hvacant, hmade⟩
    · rw [hsame]
    · rw [hvacant, hmade]
      rfl

theorem undisturbed_of_clear (h : p.Clear q) : Undisturbed α β p q := by
  have hrun (c : Cabinet) (attempts : List (Attempt β)) :
      (attempts.foldl (fun c a => (c.write q a).1) c).read (α := α) p = c.read p := by
    induction attempts generalizing c with
    | nil => rfl
    | cons a attempts ih => rw [List.foldl_cons, ih, read_write h]
  exact fun c _ attempts => hrun c attempts

/-! ## What a write disturbs -/

theorem read_eq_none_iff :
    c.read (α := α) p = .ok none ↔ c.isBlocked p = false ∧ c p = .vacant := by
  unfold read drawer Drawer.read
  cases c.isBlocked p with
  | true => simp
  | false =>
    cases c p with
    | vacant => simp
    | directory => simp
    | file content => cases h : Codec.ofText? (α := α) content <;> simp [h]

/-- A file stands at a path, in directories, and nothing else. -/
def single (p : Path) : Cabinet :=
  fun q => if q = p then .file [] else if q ∈ p.above then .directory else .vacant

def bare : Cabinet := fun _ => .vacant

theorem orderly_bare : bare.Orderly := fun _ h => absurd rfl h

omit [Codec β] in
theorem isBlocked_bare (p : Path) : bare.isBlocked p = false :=
  List.any_eq_false.2 fun _ _ => Bool.false_ne_true

theorem write_eq (hopen : c.isBlocked q = false) (hmishap : a.mishap ≠ some .directory)
    (htemporary : c.making q.above q.temporary ≠ .directory) :
    (c.write q a).1 =
      (c.making q.above).putting q (((c.making q.above).drawer q).write a.value a.mishap).1 := by
  simp only [write, hopen, Bool.false_eq_true, if_false, hmishap, htemporary]

theorem orderly_single (p : Path) : (single p).Orderly := by
  have hinner {dir : Path} (hdir : dir ∈ p.above) : single p dir = .directory := by
    have hne : dir ≠ p := fun he => p.not_mem_above_self (he ▸ hdir)
    rw [single, if_neg hne, if_pos hdir]
  intro q hq dir hdir
  by_cases hqp : q = p
  · exact hinner (hqp ▸ hdir)
  · by_cases habove : q ∈ p.above
    · exact hinner (Path.above_trans habove hdir)
    · exact absurd (by rw [single, if_neg hqp, if_neg habove]) hq

section Disturbed

variable [Inhabited β] {name : String}

def success : Attempt β := { value := default }

/-- A write that breaks off with an empty sibling. -/
def partly : Attempt β := { value := default, mishap := some (.sibling (some [])) }

theorem write_bare_success (hq : q.fileName? = some name) : (bare.write q (success (β := β))).1 =
    (bare.making q.above).putting q { place := .file (Codec.toText (default : β)) } := by
  have hsibling := Path.temporary_not_mem_above hq
  rw [write_eq (isBlocked_bare q) (by simp [success]) (by simp [making, hsibling, bare])]
  simp [success, drawer, Drawer.write, Drawer.rename, making, q.not_mem_above_self, bare]

theorem write_bare_partly (hq : q.fileName? = some name) : (bare.write q (partly (β := β))).1 =
    (bare.making q.above).putting q { sibling := some [] } := by
  have hsibling := Path.temporary_not_mem_above hq
  rw [write_eq (isBlocked_bare q) (by simp [partly]) (by simp [making, hsibling, bare])]
  simp [partly, drawer, Drawer.write, making, q.not_mem_above_self, bare]

/-- A file that stands at the sibling is taken away by a write. -/
theorem write_single_temporary (hq : q.fileName? = some name) :
    (Cabinet.write q (single q.temporary) (success (β := β))).1.isBlocked q.temporary = false ∧
      (Cabinet.write q (single q.temporary) (success (β := β))).1 q.temporary = .vacant := by
  have hsibling := Path.temporary_not_mem_above hq
  have habove := Path.above_temporary hq
  have hne : q.temporary ≠ q := q.temporary_ne
  have hinner {dir : Path} (hdir : dir ∈ q.above) : single q.temporary dir = .directory := by
    have hother : dir ≠ q.temporary := fun he => hsibling (he ▸ hdir)
    rw [single, if_neg hother, habove, if_pos hdir]
  have hopen : (single q.temporary).isBlocked q = false :=
    List.any_eq_false.2 fun dir hdir => by rw [hinner hdir]; exact Bool.false_ne_true
  have hplace : (single q.temporary).making q.above q = .vacant := by
    simp [making, single, q.not_mem_above_self, habove, Ne.symm hne]
  rw [write_eq hopen (by simp [success]) (by simp [making, hsibling, single])]
  simp only [success, Drawer.write, Drawer.rename, drawer, hplace]
  refine ⟨List.any_eq_false.2 fun dir hdir => ?_, by simp [putting, hne]⟩
  rw [habove] at hdir
  have hdirq : dir ≠ q := fun he => q.not_mem_above_self (he ▸ hdir)
  have hdirs : dir ≠ q.temporary := fun he => hsibling (he ▸ hdir)
  rw [putting, if_neg hdirq, if_neg hdirs, making, hinner hdir]
  simp [Place.isFile]

/-- If no write to a file changes what is read at a path, the path is clear of the file. -/
theorem clear_of_undisturbed (hq : q.fileName? = some name) (h : Undisturbed α β p q) :
    p.Clear q := by
  have hsibling := Path.temporary_not_mem_above hq
  have hsame (c : Cabinet) (hc : c.Orderly) (a : Attempt β) :
      (c.write q a).1.read (α := α) p = c.read p := h c hc [a]
  -- Nothing is there before the write, so nothing may be there or in the way after it.
  have hbare (a : Attempt β) :
      (bare.write q a).1.isBlocked p = false ∧ (bare.write q a).1 p = .vacant :=
    read_eq_none_iff.1
      ((hsame bare orderly_bare a).trans (read_eq_none_iff.2 ⟨isBlocked_bare p, rfl⟩))
  have hwritten := write_bare_success (β := β) hq
  have hbroken := write_bare_partly (β := β) hq
  have hfree (a : Attempt β) {dir : Path} (hdir : dir ∈ p.above) :
      ((bare.write q a).1 dir).isFile = false :=
    Bool.not_eq_true _ ▸ List.any_eq_false.1 (hbare a).1 dir hdir
  have hdistinct : p ≠ q := by
    rintro rfl
    have hvacant := (hbare success).2
    rw [hwritten] at hvacant
    simp [putting] at hvacant
  refine ⟨hdistinct, ?_, fun habove => ?_, fun hbelow => ?_, fun hbelow => ?_⟩
  · rintro rfl
    have hnone : (single q.temporary).read (α := α) q.temporary = .ok none :=
      (hsame _ (orderly_single _) success).symm.trans
        (read_eq_none_iff.2 (write_single_temporary hq))
    have hvacant := (read_eq_none_iff.1 hnone).2
    simp [single] at hvacant
  · have hvacant := (hbare success).2
    have hapart : p ≠ q.temporary := fun he => hsibling (he ▸ habove)
    rw [hwritten, putting, if_neg hdistinct, if_neg hapart] at hvacant
    simp [making, habove, bare] at hvacant
  · have hfile := hfree success hbelow
    rw [hwritten] at hfile
    simp [putting, Place.isFile] at hfile
  · have hfile := hfree partly hbelow
    rw [hbroken] at hfile
    simp [putting, Place.isFile, Path.temporary_ne] at hfile

theorem undisturbed_iff (hq : q.fileName? = some name) : Undisturbed α β p q ↔ p.Clear q :=
  ⟨clear_of_undisturbed hq, undisturbed_of_clear⟩

end Disturbed

end Cabinet

namespace Path

/-- Four paths are different if the two files and each file and the other sibling are. -/
theorem nodup_siblings_iff {p q : Path} (hp : "" ∉ p.parts) (hq : "" ∉ q.parts) :
    [p, p.temporary, q, q.temporary].Nodup ↔ p ≠ q ∧ p ≠ q.temporary ∧ q ≠ p.temporary := by
  have hsiblings : p.temporary = q.temporary ↔ p = q := temporary_inj hp hq
  have hown (p : Path) : p ≠ p.temporary := p.temporary_ne.symm
  simp only [List.nodup_cons, List.mem_cons, List.not_mem_nil, or_false, not_or, not_false_eq_true,
    List.nodup_nil, and_true, hsiblings, hown, true_and, ne_eq, eq_comm (a := p.temporary)]
  exact ⟨fun ⟨⟨hne, hq⟩, hp, _⟩ => ⟨hne, hq, hp⟩, fun ⟨hne, hq, hp⟩ => ⟨⟨hne, hq⟩, hp, hne⟩⟩

/-- In one directory nothing is in the way of anything. -/
theorem clear_child_iff {dir : Path} {name other : String} (hother : IsName other) :
    (dir.child name).Clear (dir.child other) ↔ name ≠ other ∧ name ≠ other ++ ".tmp" := by
  have htemporary : (dir.child other).temporary = dir.child (other ++ ".tmp") :=
    temporary_child dir hother
  have hinj {name other : String} : dir.child name = dir.child other ↔ name = other := by
    rw [child_inj, and_iff_right rfl]
  constructor
  · intro h
    exact ⟨fun he => h.distinct (hinj.2 he), fun he => h.apart (htemporary ▸ hinj.2 he)⟩
  · rintro ⟨hne, hapart⟩
    exact ⟨mt hinj.1 hne, htemporary ▸ mt hinj.1 hapart, child_not_mem_above dir _ _,
      child_not_mem_above dir _ _,
      htemporary ▸ child_not_mem_above dir _ _⟩

end Path

namespace Settings

open Cabinet

variable {s : Settings}

/-- What settings that are accepted say about the files. -/
theorem files_of_validate (h : s.validate = .ok s) :
    s.itemsFile ≠ "" ∧ s.ledgerFile ≠ "" ∧ s.itemsFile ≠ s.ledgerFile := by
  have hnone : s.fault? = none := by
    unfold validate at h
    split at h
    · cases h
    · assumption
  unfold fault? at hnone
  grind

/-- What accepted settings come to. The four paths that are written differ exactly if the two files
differ and neither is the sibling of the other; that the texts differ is not enough. For files
somewhere below the directory, what is read from one is never changed by what is written to the
other exactly if its path is clear of the other. For files in the directory itself this comes to the
same as four different paths, and it holds exactly if neither name is the other one with `.tmp`
behind it. -/
theorem files_apart_iff (h : s.validate = .ok s) :
    let items := Path.ofText s.itemsPath
    let ledger := Path.ofText s.ledgerPath
    let paths := [items, items.temporary, ledger, ledger.temporary]
    (paths.Nodup ↔ items ≠ ledger ∧ items ≠ ledger.temporary ∧ ledger ≠ items.temporary) ∧
    (Path.IsProper s.itemsFile → Path.IsProper s.ledgerFile →
      (Undisturbed ItemList Ledger items ledger ↔ items.Clear ledger) ∧
      (Undisturbed Ledger ItemList ledger items ↔ ledger.Clear items)) ∧
    (Path.IsPlain s.itemsFile → Path.IsPlain s.ledgerFile →
      (paths.Nodup ↔ s.itemsFile ≠ s.ledgerFile ++ ".tmp" ∧ s.ledgerFile ≠ s.itemsFile ++ ".tmp") ∧
      (Undisturbed ItemList Ledger items ledger ∧ Undisturbed Ledger ItemList ledger items ↔
        paths.Nodup)) := by
  intro items ledger paths
  obtain ⟨hitems, hledger, hdiffer⟩ := files_of_validate h
  have hnodup :
      paths.Nodup ↔ items ≠ ledger ∧ items ≠ ledger.temporary ∧ ledger ≠ items.temporary :=
    Path.nodup_siblings_iff (Path.empty_not_mem_parts _) (Path.empty_not_mem_parts _)
  have hproper (hi : Path.IsProper s.itemsFile) (hl : Path.IsProper s.ledgerFile) :
      (Undisturbed ItemList Ledger items ledger ↔ items.Clear ledger) ∧
      (Undisturbed Ledger ItemList ledger items ↔ ledger.Clear items) := by
    obtain ⟨name, hname⟩ := hi.exists_fileName hitems s.dataDir
    obtain ⟨other, hother⟩ := hl.exists_fileName hledger s.dataDir
    exact ⟨undisturbed_iff hother, undisturbed_iff hname⟩
  refine ⟨hnodup, hproper, fun hi hl => ?_⟩
  have hitemsPath : items = (Path.ofText s.dataDir).child s.itemsFile :=
    hi.ofText_joinText s.dataDir
  have hledgerPath : ledger = (Path.ofText s.dataDir).child s.ledgerFile :=
    hl.ofText_joinText s.dataDir
  have hclear := hproper hi.isProper hl.isProper
  have hnames :
      paths.Nodup ↔
        s.itemsFile ≠ s.ledgerFile ++ ".tmp" ∧ s.ledgerFile ≠ s.itemsFile ++ ".tmp" := by
    rw [hnodup, hitemsPath, hledgerPath, Path.temporary_child _ hi.isName,
      Path.temporary_child _ hl.isName]
    simp [Path.child_inj, hdiffer]
  refine ⟨hnames, ?_⟩
  rw [hclear.1, hclear.2, hnames, hitemsPath, hledgerPath, Path.clear_child_iff hl.isName,
    Path.clear_child_iff hi.isName]
  simp [hdiffer, Ne.symm hdiffer]

/-- The files that are used if nothing else is said. -/
theorem default_files_apart :
    let s : Settings := {}
    let items := Path.ofText s.itemsPath
    let ledger := Path.ofText s.ledgerPath
    s.validate = .ok s ∧ [items, items.temporary, ledger, ledger.temporary].Nodup ∧
      Undisturbed ItemList Ledger items ledger ∧ Undisturbed Ledger ItemList ledger items := by
  intro s items ledger
  obtain ⟨-, -, hplain⟩ := files_apart_iff (s := s) rfl
  obtain ⟨hnames, hundisturbed⟩ :=
    hplain ⟨by decide, by decide, by decide⟩ ⟨by decide, by decide, by decide⟩
  have hnodup := hnames.2 (by decide)
  exact ⟨rfl, hnodup, hundisturbed.2 hnodup⟩

/-- Settings with colliding files are accepted. A ledger is written, and then an item list: the
ledger is gone if it has the sibling of the item list for its file, and it cannot be read if both
are the same file under two texts. -/
theorem colliding_files_accepted :
    let one : Ledger := Ledger.ignore {} "u" ⟨7⟩
    (let s : Settings := { itemsFile := "m.json", ledgerFile := "m.json.tmp" }
     let items := Path.ofText s.itemsPath
     let ledger := Path.ofText s.ledgerPath
     let before := (Cabinet.write ledger Cabinet.bare { value := one }).1
     let after := (Cabinet.write items before { value := (⟨[]⟩ : ItemList) }).1
     s.validate = .ok s ∧ ledger = items.temporary ∧
      (before.read (α := Ledger) ledger).toOption = some (some one) ∧
      (after.read (α := Ledger) ledger).toOption = some none) ∧
    let s : Settings := { itemsFile := "m.json", ledgerFile := "./m.json" }
    let items := Path.ofText s.itemsPath
    let ledger := Path.ofText s.ledgerPath
    let before := (Cabinet.write ledger Cabinet.bare { value := one }).1
    let after := (Cabinet.write items before { value := (⟨[]⟩ : ItemList) }).1
    s.validate = .ok s ∧ ledger = items ∧
      (before.read (α := Ledger) ledger).toOption = some (some one) ∧
      (after.read (α := Ledger) ledger).toOption = none :=
  ⟨⟨rfl, by decide +kernel⟩, rfl, by decide +kernel⟩

end Settings

end SealedMail
