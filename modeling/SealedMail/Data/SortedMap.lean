import SealedMail.Data.KeyOrder

/-!
# Finite maps with sorted keys

A `SortedMap` is the list of its bindings in strictly increasing key order. The list is determined
by the lookups (`SortedMap.ext_get?`), so two maps with the same bindings are equal however they
were built.
-/

namespace SealedMail

structure SortedMap (κ ν : Type) [LT κ] where
  entries : List (κ × ν) := []
  sorted : entries.Pairwise (fun a b => a.1 < b.1) := by exact List.Pairwise.nil

/-- Sets are maps to `Unit`. -/
abbrev SortedSet (κ : Type) [LT κ] := SortedMap κ Unit

namespace SortedMap

variable {κ ν : Type} [LT κ]

instance [DecidableEq κ] [DecidableEq ν] : DecidableEq (SortedMap κ ν) := fun a b =>
  decidable_of_iff (a.entries = b.entries) (by cases a; cases b; simp)

instance [Repr κ] [Repr ν] : Repr (SortedMap κ ν) := ⟨fun m p => reprPrec m.entries p⟩

instance : Inhabited (SortedMap κ ν) := ⟨{}⟩

@[ext] theorem ext_entries {a b : SortedMap κ ν} (h : a.entries = b.entries) : a = b := by
  cases a; cases b; cases h; rfl

def empty : SortedMap κ ν := {}

def size (m : SortedMap κ ν) : Nat := m.entries.length

def isEmpty (m : SortedMap κ ν) : Bool := m.entries.isEmpty

def keys (m : SortedMap κ ν) : List κ := m.entries.map (·.1)

def values (m : SortedMap κ ν) : List ν := m.entries.map (·.2)

/-- Keep the bindings that satisfy `p`. -/
def filter (p : κ → ν → Bool) (m : SortedMap κ ν) : SortedMap κ ν where
  entries := m.entries.filter fun e => p e.1 e.2
  sorted := m.sorted.filter _

section Lookup

variable [DecidableEq κ]

/-- The value bound to `k` in a list of bindings. -/
def find (k : κ) : List (κ × ν) → Option ν
  | [] => none
  | e :: es => if e.1 = k then some e.2 else find k es

def get? (m : SortedMap κ ν) (k : κ) : Option ν := find k m.entries

def contains (m : SortedMap κ ν) (k : κ) : Bool := (m.get? k).isSome

def erase (m : SortedMap κ ν) (k : κ) : SortedMap κ ν := m.filter fun k' _ => k' ≠ k

omit [LT κ] in
theorem find_filter_ne (k k' : κ) (es : List (κ × ν)) :
    find k' (es.filter fun e => decide (e.1 ≠ k)) = if k' = k then none else find k' es := by
  induction es with
  | nil => simp [find]
  | cons e es ih =>
    by_cases he : e.1 = k
    · by_cases hk : k' = k
      · simp_all
      · have : e.1 ≠ k' := fun h => hk (h ▸ he)
        simp_all [find]
    · by_cases hk : k' = k
      · have : e.1 ≠ k' := fun h => he (h.trans hk)
        simp_all [find]
      · by_cases hek : e.1 = k' <;> simp_all [find]

theorem get?_erase (m : SortedMap κ ν) (k k' : κ) :
    (m.erase k).get? k' = if k' = k then none else m.get? k' :=
  find_filter_ne k k' m.entries

end Lookup

section Insert

variable [DecidableEq κ] [DecidableLT κ]

/-- Bind `k` to `v` at its place in an ordered list of bindings. -/
def place (k : κ) (v : ν) : List (κ × ν) → List (κ × ν)
  | [] => [(k, v)]
  | e :: es =>
    if k < e.1 then (k, v) :: e :: es
    else if k = e.1 then (k, v) :: es
    else e :: place k v es

theorem mem_place {k : κ} {v : ν} {es : List (κ × ν)} {e : κ × ν} (h : e ∈ place k v es) :
    e = (k, v) ∨ e ∈ es := by
  induction es with
  | nil => simpa [place] using h
  | cons d es ih =>
    simp only [place] at h
    split at h
    · simpa using h
    · split at h
      · simp only [List.mem_cons] at h ⊢
        rcases h with h | h
        · exact .inl h
        · exact .inr (.inr h)
      · simp only [List.mem_cons] at h ⊢
        rcases h with h | h
        · exact .inr (.inl h)
        · rcases ih h with h | h
          · exact .inl h
          · exact .inr (.inr h)

theorem find_place (k k' : κ) (v : ν) (es : List (κ × ν)) :
    find k' (place k v es) = if k' = k then some v else find k' es := by
  induction es with
  | nil =>
    by_cases h : k' = k
    · simp [place, find, h]
    · simp [place, find, h, Ne.symm h]
  | cons e es ih =>
    simp only [place]
    split
    · by_cases h : k' = k
      · subst h; simp [find]
      · simp [find, h, Ne.symm h]
    · split
      · rename_i _ he
        subst he
        by_cases h : k' = e.1 <;> simp [find, h, eq_comm]
      · rename_i _ he
        by_cases h : k' = k
        · subst h; simp [find, Ne.symm he, ih]
        · simp [find, h, ih]

variable [KeyOrder κ]

omit [DecidableEq κ] [DecidableLT κ] in
theorem lt_of_not_lt {a b : κ} (h : ¬ a < b) (h' : a ≠ b) : b < a :=
  Classical.byContradiction fun hn => h' (KeyOrder.eq_of_not_lt h hn)

theorem pairwise_place (k : κ) (v : ν) {es : List (κ × ν)}
    (h : es.Pairwise (fun a b => a.1 < b.1)) :
    (place k v es).Pairwise (fun a b => a.1 < b.1) := by
  induction es with
  | nil => simp [place]
  | cons e es ih =>
    obtain ⟨he, hes⟩ := List.pairwise_cons.1 h
    simp only [place]
    split
    · rename_i hk
      refine List.pairwise_cons.2 ⟨fun d hd => ?_, h⟩
      rcases List.mem_cons.1 hd with rfl | hd
      · exact hk
      · exact KeyOrder.trans hk (he d hd)
    · rename_i hk
      split
      · rename_i hke
        subst hke
        exact List.pairwise_cons.2 ⟨he, hes⟩
      · rename_i hke
        refine List.pairwise_cons.2 ⟨fun d hd => ?_, ih hes⟩
        rcases mem_place hd with rfl | hd
        · exact lt_of_not_lt hk hke
        · exact he d hd

def insert (m : SortedMap κ ν) (k : κ) (v : ν) : SortedMap κ ν where
  entries := place k v m.entries
  sorted := pairwise_place k v m.sorted

/-- Later bindings of a key replace earlier ones. -/
def ofList (es : List (κ × ν)) : SortedMap κ ν := es.foldl (fun m e => m.insert e.1 e.2) {}

theorem get?_insert (m : SortedMap κ ν) (k k' : κ) (v : ν) :
    (m.insert k v).get? k' = if k' = k then some v else m.get? k' :=
  find_place k k' v m.entries

end Insert

section Extensionality

variable [DecidableEq κ] [KeyOrder κ]

omit [DecidableEq κ] in
theorem lt_irrefl (k : κ) : ¬ k < k :=
  fun h => KeyOrder.asymm h h

theorem find_eq_some_iff {k : κ} {v : ν} {es : List (κ × ν)}
    (h : es.Pairwise (fun a b => a.1 < b.1)) : find k es = some v ↔ (k, v) ∈ es := by
  induction es with
  | nil => simp [find]
  | cons e es ih =>
    obtain ⟨he, hes⟩ := List.pairwise_cons.1 h
    by_cases hk : e.1 = k
    · subst hk
      have hn : (e.1, v) ∉ es := fun hm => lt_irrefl e.1 (he (e.1, v) hm)
      constructor
      · intro hv
        simp only [find, if_true, Option.some.injEq] at hv
        subst hv
        exact List.mem_cons_self
      · intro hm
        rcases List.mem_cons.1 hm with hm | hm
        · rw [← hm]; simp [find]
        · exact absurd hm hn
    · have hne : (k, v) ≠ e := fun h => hk (by rw [← h])
      simp [find, hk, ih hes, hne]

theorem eq_of_find {es ds : List (κ × ν)} (he : es.Pairwise (fun a b => a.1 < b.1))
    (hd : ds.Pairwise (fun a b => a.1 < b.1)) (h : ∀ k, find k es = find k ds) : es = ds := by
  induction es generalizing ds with
  | nil =>
    cases ds with
    | nil => rfl
    | cons d ds => have := h d.1; simp [find] at this
  | cons e es ih =>
    cases ds with
    | nil => have := h e.1; simp [find] at this
    | cons d ds =>
      obtain ⟨he1, he2⟩ := List.pairwise_cons.1 he
      obtain ⟨hd1, hd2⟩ := List.pairwise_cons.1 hd
      have mem (x : κ × ν) : x ∈ e :: es ↔ x ∈ d :: ds := by
        rw [← find_eq_some_iff (k := x.1) (v := x.2) he, h, find_eq_some_iff hd]
      have hed : e = d := by
        rcases List.mem_cons.1 ((mem e).1 List.mem_cons_self) with h1 | h1
        · exact h1
        · rcases List.mem_cons.1 ((mem d).2 List.mem_cons_self) with h2 | h2
          · exact h2.symm
          · exact absurd (hd1 e h1) (KeyOrder.asymm (he1 d h2))
      subst hed
      congr 1
      refine ih he2 hd2 fun k => ?_
      by_cases hk : e.1 = k
      · subst hk
        have miss {l : List (κ × ν)} (hl : ∀ x ∈ l, e.1 < x.1) : find e.1 l = none := by
          induction l with
          | nil => rfl
          | cons x l il =>
            have hx : x.1 ≠ e.1 := fun hx => lt_irrefl e.1 (by
              have := hl x List.mem_cons_self; rwa [hx] at this)
            simp [find, hx, il fun y hy => hl y (List.mem_cons_of_mem _ hy)]
        rw [miss he1, miss hd1]
      · have := h k
        simpa [find, hk] using this

/-- A map is determined by its lookups. -/
theorem ext_get? {a b : SortedMap κ ν} (h : ∀ k, a.get? k = b.get? k) : a = b :=
  ext_entries (eq_of_find a.sorted b.sorted h)

end Extensionality

end SortedMap

end SealedMail
