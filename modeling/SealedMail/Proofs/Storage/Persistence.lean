import SealedMail.Proofs.Codec.JsonForm
import SealedMail.Proofs.Storage.Separation

/-!
# Writes are all or nothing

A value is written to the sibling of its file, and the sibling takes the place of the file in one
step. So what was written is read as it was, and a write that breaks off changes nothing that is
read (`AllOrNothing`). This holds of a drawer, where only the file and its sibling are looked at,
and of a cabinet, where directories are made on the way and other things may stand in the way.
-/

namespace SealedMail

/-- An attempt to write a value comes out as a new state and a result. If it succeeded the value is
read from then on, and if it did not, whatever was read before. -/
structure AllOrNothing {σ α : Type} (read : σ → Except StorageError (Option α)) (before : σ) (a : α)
    (outcome : σ × Except StorageError Unit) : Prop where
  done : outcome.2 = .ok () → read outcome.1 = .ok (some a)
  undone : ∀ e, outcome.2 = .error e → read outcome.1 = read before

namespace Drawer

variable {α : Type} [c : Codec α] (d : Drawer) (a : α) (mishap : Option Mishap)

/-- A write puts the whole text in the place of the file, or fails and touches at most the
sibling. -/
theorem write_cases :
    (mishap = none ∧ d.place ≠ .directory) ∧
    d.write a mishap = ({ place := .file (Codec.toText a) }, .ok ()) ∨
    ¬(mishap = none ∧ d.place ≠ .directory) ∧
      ∃ sibling e, d.write a mishap = ({ place := d.place, sibling := sibling }, .error e) := by
  cases mishap with
  | some m => exact .inr ⟨by simp, by cases m <;> exact ⟨_, _, rfl⟩⟩
  | none =>
    cases h : d.place with
    | directory => exact .inr ⟨by simp, some (Codec.toText a), _, by rw [write, rename, h]⟩
    | vacant => exact .inl ⟨by simp, by rw [write, rename, h]⟩
    | file content => exact .inl ⟨by simp, by rw [write, rename, h]⟩

/-- A write succeeds if nothing goes wrong and no directory stands in the place of the file. -/
theorem write_eq_ok_iff : (d.write a mishap).2 = .ok () ↔ mishap = none ∧ d.place ≠ .directory := by
  rcases d.write_cases a mishap with ⟨hopen, hwrite⟩ | ⟨hopen, sibling, e, hwrite⟩
  · rw [hwrite]
    exact iff_of_true rfl hopen
  · rw [hwrite]
    exact iff_of_false (fun h => by cases h) hopen

theorem read_of_place {d d' : Drawer} (h : d'.place = d.place) : d'.read (α := α) = d.read := by
  rw [read, read, h]

theorem allOrNothing_write (hc : c.Faithful) : AllOrNothing read d a (d.write a mishap) := by
  rcases d.write_cases a mishap with ⟨-, hwrite⟩ | ⟨-, sibling, e, hwrite⟩
  · have hread : Codec.ofText? (Codec.toText a) = some a := hc.ofText?_toText a
    rw [hwrite]
    exact ⟨fun _ => by simp only [read, hread], fun _ h => by cases h⟩
  · rw [hwrite]
    exact ⟨(fun h => by cases h), fun _ _ => read_of_place rfl⟩

end Drawer

namespace Cabinet

variable {α : Type} [codec : Codec α] {c : Cabinet} {p : Path} {name : String} {dirs : List Path}
  {d : Drawer}

theorem making_nil : c.making [] = c := funext fun _ => if_neg fun h => List.not_mem_nil h.1

theorem isFile_making (q : Path) : (c.making dirs q).isFile = (c q).isFile := by
  unfold making
  split
  · next h => rw [h.2]; rfl
  · rfl

/-- Directories that are made above a path change nothing that is read there. -/
theorem read_making (hdirs : ∀ dir ∈ dirs, dir ∈ p.above) :
    (c.making dirs).read (α := α) p = c.read p := by
  have hp : p ∉ dirs := fun h => p.not_mem_above_self (hdirs p h)
  exact read_congr (if_neg fun h => hp h.1) fun dir _ => isFile_making dir

theorem read_putting (hp : p.fileName? = some name) (hopen : c.isBlocked p = false) :
    (c.putting p d).read (α := α) p = d.read := by
  have hinner : ∀ dir ∈ p.above, c.putting p d dir = c dir := fun dir hdir => by
    have hself : dir ≠ p := fun he => p.not_mem_above_self (he ▸ hdir)
    have hsibling : dir ≠ p.temporary := fun he => Path.temporary_not_mem_above hp (he ▸ hdir)
    rw [putting, if_neg hself, if_neg hsibling]
  have hplace : c.putting p d p = d.place := if_pos rfl
  have hstill : (c.putting p d).isBlocked p = false := by
    refine List.any_eq_false.2 fun dir hdir => ?_
    rw [hinner dir hdir]
    exact List.any_eq_false.1 hopen dir hdir
  rw [read, hstill, if_neg Bool.false_ne_true]
  exact Drawer.read_of_place hplace

theorem isBlocked_making : (c.making dirs).isBlocked p = c.isBlocked p := by
  simp only [isBlocked, isFile_making]

/-- A write breaks off with some directories made, for one of three reasons, or it is a write to the
drawer. -/
theorem write_cases (p : Path) (c : Cabinet) (a : Attempt α) :
    (c.isBlocked p = true ∨ a.mishap = some .directory ∨
      c.making p.above p.temporary = .directory) ∧
      (∃ dirs e, (∀ dir ∈ dirs, dir ∈ p.above) ∧ c.write p a = (c.making dirs, .error e)) ∨
    (c.isBlocked p = false ∧ a.mishap ≠ some .directory ∧
      c.making p.above p.temporary ≠ .directory) ∧
      c.write p a =
        ((c.making p.above).putting p (((c.making p.above).drawer p).write a.value a.mishap).1,
        (((c.making p.above).drawer p).write a.value a.mishap).2) := by
  unfold write
  by_cases hblocked : c.isBlocked p = true
  · rw [if_pos hblocked]
    exact .inl ⟨.inl hblocked, [], _, nofun, by rw [making_nil]⟩
  rw [if_neg hblocked]
  by_cases hmishap : a.mishap = some .directory
  · rw [if_pos hmishap]
    exact .inl ⟨.inr (.inl hmishap), p.above.take a.made, _, fun dir => List.mem_of_mem_take, rfl⟩
  rw [if_neg hmishap]
  by_cases htemporary : c.making p.above p.temporary = .directory
  · exact .inl ⟨.inr (.inr htemporary), p.above, _, fun dir => id, if_pos htemporary⟩
  · exact .inr ⟨⟨Bool.not_eq_true _ ▸ hblocked, hmishap, htemporary⟩, if_neg htemporary⟩

theorem allOrNothing_write (hc : codec.Faithful) (hp : p.fileName? = some name) (c : Cabinet)
    (a : Attempt α) : AllOrNothing (read · p) c a.value (c.write p a) := by
  rcases write_cases p c a with ⟨-, dirs, e, hdirs, hwrite⟩ | ⟨⟨hopen, -, -⟩, hwrite⟩
  · rw [hwrite]
    exact ⟨(fun h => by cases h), fun _ _ => read_making hdirs⟩
  · have hdrawer := ((c.making p.above).drawer p).allOrNothing_write a.value a.mishap hc
    have hmade : (c.making p.above).isBlocked p = false := isBlocked_making.trans hopen
    have hbefore : ((c.making p.above).drawer p).read (α := α) = c.read p := by
      rw [← read_making fun _ => id, read, hmade, if_neg Bool.false_ne_true]
    rw [hwrite]
    exact ⟨fun hok => (read_putting hp hmade).trans (hdrawer.done hok),
      fun e he => (read_putting hp hmade).trans ((hdrawer.undone e he).trans hbefore)⟩

/-- A write succeeds if nothing goes wrong, no file stands where a directory should be, and no
directory stands in the place of the file or its sibling. -/
theorem write_eq_ok_iff (hp : p.fileName? = some name) (c : Cabinet) (a : Attempt α) :
    (c.write p a).2 = .ok () ↔
      a.mishap = none ∧ c.isBlocked p = false ∧ c p ≠ .directory ∧ c p.temporary ≠ .directory := by
  have hplace : c.making p.above p = c p := if_neg fun h => p.not_mem_above_self h.1
  have hsibling : c.making p.above p.temporary = c p.temporary :=
    if_neg fun h => Path.temporary_not_mem_above hp h.1
  rcases write_cases p c a with ⟨hreason, dirs, e, -, hwrite⟩ | ⟨⟨hopen, -, htemporary⟩, hwrite⟩
  · rw [hwrite]
    refine ⟨nofun, fun ⟨hmishap, hopen, _, htemporary⟩ => ?_⟩
    rw [hopen, hmishap, hsibling] at hreason
    simp [htemporary] at hreason
  · rw [hwrite, Drawer.write_eq_ok_iff]
    rw [hsibling] at htemporary
    simp [drawer, hplace, hopen, htemporary]

end Cabinet

/-! ## The two values that are kept -/

/-- Which of the values that are kept in files. -/
inductive Kept where
  | items
  | ledger

namespace Kept

def Value : Kept → Type
  | items => ItemList
  | ledger => Ledger

instance instCodecValue : (k : Kept) → Codec k.Value
  | items => inferInstanceAs (Codec ItemList)
  | ledger => inferInstanceAs (Codec Ledger)

theorem faithful : (k : Kept) → (instCodecValue k).Faithful
  | items => Codec.faithful_itemList
  | ledger => Codec.faithful_ledger

/-- Every item list and every ledger is kept or left alone as a whole. Whatever stands in a drawer
and wherever the write may break off, a value that was written is read as it was, and after a write
that failed what is read is what was read before. The same holds of every file in every cabinet. A
write fails only if something goes wrong or stands in the way. -/
theorem kept_or_left (k : Kept) (a : Attempt k.Value) :
    (∀ d : Drawer, AllOrNothing Drawer.read d a.value (d.write a.value a.mishap) ∧
      ((d.write a.value a.mishap).2 = .ok () ↔ a.mishap = none ∧ d.place ≠ .directory)) ∧
    ∀ (c : Cabinet) (p : Path), p.fileName? ≠ none →
      AllOrNothing (Cabinet.read · p) c a.value (c.write p a) ∧
      ((c.write p a).2 = .ok () ↔
        a.mishap = none ∧ c.isBlocked p = false ∧ c p ≠ .directory ∧
        c p.temporary ≠ .directory) := by
  refine ⟨fun d =>
    ⟨d.allOrNothing_write a.value a.mishap k.faithful, d.write_eq_ok_iff a.value a.mishap⟩,
    fun c p hp => ?_⟩
  obtain ⟨name, hname⟩ := Option.ne_none_iff_exists'.1 hp
  exact ⟨Cabinet.allOrNothing_write k.faithful hname c a, Cabinet.write_eq_ok_iff hname c a⟩

/-- A ledger with quotes, control characters and the latest of all times takes the place of a broken
text, is left out if only a part of it is written, and is kept below directories that were not
there. -/
theorem odd_ledger_kept_or_left :
    let odd : Kept.ledger.Value :=
      Ledger.ignore {} "\"\\\x00\n\x7f\u0085é\u2028😀" ⟨18446744073709551615⟩
    let broken : Drawer := { place := .file (utf8 "\x7bnot json"), sibling := some [91] }
    let partly : Option Mishap := some (.sibling (some [123, 34]))
    let p := Path.ofText "a/b/store.json"
    (broken.write odd).1.read = .ok (some odd) ∧
    (broken.write odd partly).2 = .error (.io "no space") ∧
    (broken.write odd partly).1.read (α := Kept.ledger.Value) = broken.read ∧
    p.fileName? ≠ none ∧ (Cabinet.bare.write p { value := odd }).1.read p = .ok (some odd) := by
  intro odd broken partly p
  obtain ⟨hdrawer, hcabinet⟩ := kept_or_left .ledger { value := odd }
  obtain ⟨hkept, hok⟩ := hdrawer broken
  have hleft := ((kept_or_left .ledger { value := odd, mishap := partly }).1 broken).1
  have hp : p.fileName? ≠ none := by decide
  obtain ⟨hplaced, hopen⟩ := hcabinet Cabinet.bare p hp
  exact ⟨hkept.done (hok.2 ⟨rfl, Place.noConfusion⟩), rfl, hleft.undone _ rfl, hp,
    hplaced.done (hopen.2 ⟨rfl, Cabinet.isBlocked_bare p, Place.noConfusion, Place.noConfusion⟩)⟩

end Kept

end SealedMail
