import SealedMail.Mailbox.Loop
import SealedMail.Proofs.Data.SortedMap

/-!
# Reports and writes

What the effects of a mailbox tell its listeners (`notices`), what they tell one of them (`heard`),
and what they write (`written`). Every other effect is quiet. Whoever panics, each registered
listener is told of an item once.
-/

namespace SealedMail

/-! ## Reports -/

/-- What a listener is told. -/
structure Report where
  hash : PayloadHash
  opened : Opened
  sender : Address
  deriving DecidableEq, Repr

def Item.report? [Suite] (item : Item) : Option Report :=
  item.message?.map fun message => ⟨item.hash, item.opened, message.sender⟩

/-- What listeners are told of an item, one after the other. -/
def Item.notices [Suite] (listeners : List Nat) (item : Item) : List (Nat × Report) :=
  item.report?.toList.flatMap fun report => listeners.map fun id => (id, report)

/-- Which listener an effect tells, and what. -/
def Effect.notice? : Effect → Option (Nat × Report)
  | .notified listener hash opened sender => some (listener, ⟨hash, opened, sender⟩)
  | _ => none

/-- What some effects tell the listeners, in order. -/
def notices (effects : List Effect) : List (Nat × Report) := effects.filterMap Effect.notice?

@[simp] theorem notices_append (effects more : List Effect) :
    notices (effects ++ more) = notices effects ++ notices more :=
  List.filterMap_append

/-- The reports among some notices that are for one listener. -/
def reportsFor (id : Nat) (told : List (Nat × Report)) : List Report :=
  told.filterMap fun notice => if notice.1 = id then some notice.2 else none

theorem reportsFor_append (id : Nat) (told more : List (Nat × Report)) :
    reportsFor id (told ++ more) = reportsFor id told ++ reportsFor id more :=
  List.filterMap_append

/-- What some effects tell a listener, in order. -/
def heard (id : Nat) (effects : List Effect) : List Report := reportsFor id (notices effects)

@[simp] theorem heard_nil (id : Nat) : heard id [] = [] := rfl

@[simp] theorem heard_append (id : Nat) (effects more : List Effect) :
    heard id (effects ++ more) = heard id effects ++ heard id more := by
  rw [heard, notices_append, reportsFor_append]
  rfl

theorem reportsFor_map_pair (id : Nat) (report : Report) {ids : List Nat} (hn : ids.Nodup) :
    reportsFor id (ids.map fun other => (other, report)) = if id ∈ ids then [report] else [] := by
  induction ids with
  | nil => rfl
  | cons other ids ih =>
    obtain ⟨hother, hn⟩ := List.nodup_cons.1 hn
    have hcons : reportsFor id ((other :: ids).map fun other => (other, report)) =
        (if other = id then [report] else []) ++
          reportsFor id (ids.map fun other => (other, report)) := by
      by_cases h : other = id <;> simp [reportsFor, h]
    rw [hcons, ih hn]
    by_cases h : other = id
    · subst h; simp [hother]
    · simp [h, Ne.symm h]

/-- A listener is told of each item once. -/
theorem reportsFor_flatMap_notices [Suite] (id : Nat) {ids : List Nat} (hn : ids.Nodup)
    (items : List Item) :
    reportsFor id (items.flatMap (Item.notices ids)) =
      if id ∈ ids then items.filterMap Item.report? else [] := by
  induction items with
  | nil => split <;> rfl
  | cons item items ih =>
    rw [List.flatMap_cons, reportsFor_append, ih, List.filterMap_cons, Item.notices]
    cases item.report? with
    | none => rfl
    | some report =>
      rw [Option.toList_some, List.flatMap_singleton, reportsFor_map_pair id report hn]
      split <;> rfl

def Effect.isWrite : Effect → Bool
  | .wroteItems _ => true
  | .wroteLedger _ => true
  | _ => false

/-- What is written, in order. -/
def written (effects : List Effect) : List Effect := effects.filter Effect.isWrite

@[simp] theorem written_append (effects more : List Effect) :
    written (effects ++ more) = written effects ++ written more :=
  List.filter_append ..

/-- Nothing is told and nothing is written. -/
def Effect.IsQuiet (effect : Effect) : Prop := effect.notice? = none ∧ effect.isWrite = false

theorem notices_eq_nil {effects : List Effect} (h : ∀ effect ∈ effects, effect.IsQuiet) :
    notices effects = [] :=
  List.filterMap_eq_nil_iff.2 fun effect he => (h effect he).1

theorem written_eq_nil {effects : List Effect} (h : ∀ effect ∈ effects, effect.IsQuiet) :
    written effects = [] :=
  List.filter_eq_nil_iff.2 fun effect he => by simp [(h effect he).2]

@[simp] theorem Effect.isQuiet_subscribed (place : Nat) : (Effect.subscribed place).IsQuiet :=
  ⟨rfl, rfl⟩

@[simp] theorem Effect.isQuiet_handed (entries : List Entry) : (Effect.handed entries).IsQuiet :=
  ⟨rfl, rfl⟩

@[simp] theorem Effect.isQuiet_lost (entries : List Entry) : (Effect.lost entries).IsQuiet :=
  ⟨rfl, rfl⟩

@[simp] theorem Effect.isQuiet_removed (removal : Entry) : (Effect.removed removal).IsQuiet :=
  ⟨rfl, rfl⟩

@[simp] theorem Effect.isQuiet_answered (query : Nat) (messages : List Opened) :
    (Effect.answered query messages).IsQuiet :=
  ⟨rfl, rfl⟩

@[simp] theorem notices_map_removed (removals : List Entry) :
    notices (removals.map Effect.removed) = [] :=
  notices_eq_nil (by simp)

@[simp] theorem written_map_removed (removals : List Entry) :
    written (removals.map Effect.removed) = [] :=
  written_eq_nil (by simp)

/-! ## Telling of an item -/

namespace Mailbox

variable [Suite]

theorem notices_tell (env : Surroundings) (item : Item) (sender : Address) (id : Nat) :
    notices (tell env item sender id) = [(id, ⟨item.hash, item.opened, sender⟩)] := by
  unfold tell notices
  by_cases hp : env.panics id item.opened <;> simp [Effect.notice?, hp]

/-- Whoever panics, each listener is told once. -/
theorem notices_tell_all (env : Surroundings) {item : Item} {message : Message}
    (hm : item.message? = some message) (ids : List Nat) :
    notices (ids.flatMap (tell env item message.sender)) = item.notices ids := by
  have hreport : item.report? = some ⟨item.hash, item.opened, message.sender⟩ := by
    rw [Item.report?, hm]
    rfl
  rw [Item.notices, hreport, Option.toList_some, List.flatMap_singleton]
  induction ids with
  | nil => rfl
  | cons id ids ih => rw [List.flatMap_cons, notices_append, notices_tell, ih, List.map_cons]; rfl

theorem written_tell_all (env : Surroundings) (item : Item) (sender : Address) (ids : List Nat) :
    written (ids.flatMap (tell env item sender)) = [] := by
  refine List.filter_eq_nil_iff.2 ?_
  intro effect h
  obtain ⟨id, -, h⟩ := List.mem_flatMap.1 h
  unfold tell at h
  split at h
  · rcases List.mem_cons.1 h with rfl | h
    · simp [Effect.isWrite]
    · simp [List.mem_singleton.1 h, Effect.isWrite]
  · simp [List.mem_singleton.1 h, Effect.isWrite]

end Mailbox

end SealedMail
