import MyNews.Foundation
import Mathlib.Data.Fintype.Basic

/-!
# The record of an account

`users/<uid>` in the Realtime Database holds a dictionary with the children in `Field`, each of
which the app reads and writes as a string. An absent record and an empty dictionary are the same
to the database. `Write` is one `setValue`: of the whole record or of one child; a child that is
set in an absent record creates it.
-/

namespace MyNews

/-- A child of `users/<uid>`, under its name in the database. -/
inductive Field where
  | userName
  | userSername
  | userMobile
  | userBirthDate
  | userCountry
  | userCity
  | userSources
  deriving DecidableEq, Repr

instance : Fintype Field where
  elems := {.userName, .userSername, .userMobile, .userBirthDate, .userCountry, .userCity,
    .userSources}
  complete field := by cases field <;> decide

/-- A value in the database. -/
inductive Value where
  | string (s : Str)
  /-- A number, a boolean, an array or a dictionary. -/
  | other
  deriving DecidableEq

/-- A `[String : Any]` with the children of a record. -/
abbrev Record := Field → Option Value

namespace Record

/-- The absent record, and the dictionary `[:]`. -/
def empty : Record := fun _ => none

/-- `Dictionary.isEmpty`. -/
def isEmpty (dick : Record) : Bool := decide (∀ field, dick field = none)

/-- `dick[field] as? String`. -/
def string? (dick : Record) (field : Field) : Option Str :=
  match dick field with
  | some (.string s) => some s
  | _ => none

@[simp] theorem isEmpty_iff {dick : Record} : dick.isEmpty = true ↔ dick = empty := by
  simp [isEmpty, empty, funext_iff]

theorem string?_eq_some {dick : Record} {field : Field} {s : Str} :
    dick.string? field = some s ↔ dick field = some (.string s) := by
  unfold string?
  split
  · rename_i h; simp [h]
  · rename_i h
    constructor
    · simp
    · exact fun hs => (h s hs).elim

end Record

/-- The value of a `DataSnapshot` of `users/<uid>`. -/
inductive DataSnapshot where
  /-- No record. -/
  | null
  /-- A value that is not a dictionary. -/
  | other
  | dictionary (value : Record)
  deriving DecidableEq

/-- `DataSnapshot.value as? [String : Any] ?? [:]`. -/
def DataSnapshot.dick : DataSnapshot → Record
  | dictionary value => value
  | _ => Record.empty

/-- The snapshot of a record. -/
def Record.snapshot (record : Record) : DataSnapshot :=
  if record.isEmpty then .null else .dictionary record

@[simp] theorem Record.dick_snapshot (record : Record) : record.snapshot.dick = record := by
  unfold Record.snapshot
  split
  · rename_i h; exact (Record.isEmpty_iff.mp h).symm
  · rfl

theorem Record.snapshot_inj {record record' : Record} :
    record.snapshot = record'.snapshot ↔ record = record' := by
  refine ⟨fun h => ?_, congrArg _⟩
  rw [← Record.dick_snapshot record, h, Record.dick_snapshot]

/-- One `setValue` below `users/<uid>`. -/
inductive Write where
  /-- Of the record itself. -/
  | record (value : Record)
  /-- Of one child. -/
  | child (field : Field) (value : Str)
  deriving DecidableEq

namespace Write

/-- The record after the write. -/
def apply : Write → Record → Record
  | record value, _ => value
  | child field value, old => Function.update old field (some (.string value))

/-- The record after the writes, in order. -/
def applyAll (writes : List Write) (old : Record) : Record :=
  writes.foldl (fun record w => w.apply record) old

@[simp] theorem apply_record (value old : Record) : (record value).apply old = value := rfl

@[simp] theorem apply_child_self (field : Field) (value : Str) (old : Record) :
    (child field value).apply old field = some (.string value) := by
  simp [apply]

theorem apply_child_of_ne {field f : Field} (h : f ≠ field) (value : Str) (old : Record) :
    (child field value).apply old f = old f := by
  simp [apply, h]

@[simp] theorem applyAll_nil (old : Record) : applyAll [] old = old := rfl

@[simp] theorem applyAll_cons (w : Write) (ws : List Write) (old : Record) :
    applyAll (w :: ws) old = applyAll ws (w.apply old) := rfl

/-- What the write sets `field` to; `none` if it leaves it. -/
def sets : Write → Field → Option (Option Value)
  | record value, field => some (value field)
  | child f value, field => if field = f then some (some (.string value)) else none

theorem apply_eq (w : Write) (old : Record) (field : Field) :
    w.apply old field = (w.sets field).getD (old field) := by
  cases w with
  | record value => rfl
  | child f value =>
    by_cases h : field = f
    · subst h; simp [sets]
    · rw [apply_child_of_ne h, sets, if_neg h]; rfl

/-- After the writes a child is what the last write of it has set. -/
theorem applyAll_eq (ws : List Write) (old : Record) (field : Field) :
    applyAll ws old field = ((ws.filterMap (·.sets field)).getLast?).getD (old field) := by
  induction ws generalizing old with
  | nil => rfl
  | cons w ws ih =>
    rw [applyAll_cons, ih, apply_eq]
    cases h : w.sets field with
    | none => simp [h]
    | some value => simp [h, List.getLast?_cons]

end Write

end MyNews
