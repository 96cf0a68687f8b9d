import MyNews.ProfileViewController

/-!
# What a profile save leaves when it is cut short

`handleDismis` sends five writes, waits for none of them, and then performs the segue back to the
container. Each write is accepted, rejected or never sent, and the process may stop between two
statements.

* `applyAll_text`: what accepted child writes leave.
* `save_atomic_iff`: which outcomes leave all four fields saved, or none.
-/

namespace MyNews
namespace ProfileViewController

/-- What becomes of a write. -/
inductive Outcome where
  | accepted
  | rejected
  | unsent
  deriving DecidableEq

/-- A press of Save that `checkInfo` accepts, and what becomes of it. -/
structure Attempt where
  form : Form
  /-- The record before it. -/
  record : Record
  /-- The number of statements after the guard that run before the process stops. The segue is the
  last one. -/
  executed : Nat
  /-- What becomes of each write, in the order of the statements. -/
  outcome : Nat → Outcome

namespace Attempt

/-- The writes of `handleDismis`. -/
def writes (a : Attempt) : List Write := (handleDismis a.form).getD []

/-- The writes that reach the record. -/
def accepted (a : Attempt) : List Write :=
  ((a.writes.take a.executed).zipIdx.filter fun x => a.outcome x.2 = .accepted).map Prod.fst

/-- The record afterwards. -/
def recordAfter (a : Attempt) : Record := Write.applyAll a.accepted a.record

/-- The segue to the container is performed. -/
def returns (a : Attempt) : Prop := a.writes.length < a.executed

instance (a : Attempt) : Decidable a.returns := inferInstanceAs (Decidable (_ < _))

end Attempt

/-- The fields that a save covers. -/
def savedFields : List Field := [.userName, .userSername, .userMobile, .userBirthDate]

/-- The form's value of a field. -/
def Form.text (form : Form) : Field → Str
  | .userName => form.userName
  | .userSername => form.userSername
  | .userMobile => form.userPhone
  | .userBirthDate => DateFormatter.string form.birthDate
  | _ => []

/-- The record has the form's values. -/
def Saved (form : Form) (record : Record) : Prop :=
  ∀ field ∈ savedFields, record field = some (.string (form.text field))

/-- Child writes that all write `text`: a field that one of them is about has its text, the others
are left. -/
theorem applyAll_text {text : Field → Str} {ws : List Write}
    (h : ∀ w ∈ ws, ∃ field, w = .child field (text field)) (record : Record) (field : Field) :
    Write.applyAll ws record field =
      if .child field (text field) ∈ ws then some (.string (text field)) else record field := by
  induction ws generalizing record with
  | nil => rfl
  | cons w ws ih =>
    obtain ⟨⟨f, rfl⟩, hws⟩ := List.forall_mem_cons.mp h
    rw [Write.applyAll_cons, ih hws]
    by_cases hf : field = f
    · subst hf
      simp
    · rw [Write.apply_child_of_ne hf]
      simp [hf]

/-- The writes of a save are the form's values of the fields it covers. -/
theorem mem_handleDismis {form : Form} {writes : List Write} (h : handleDismis form = some writes)
    {w : Write} : w ∈ writes ↔ ∃ field ∈ savedFields, w = .child field (form.text field) := by
  obtain ⟨-, rfl⟩ := handleDismis_eq_some h
  simp [savedFields, Form.text]

theorem mem_accepted {a : Attempt} {w : Write} (h : w ∈ a.accepted) : w ∈ a.writes := by
  obtain ⟨⟨w', i⟩, hx, rfl⟩ := List.mem_map.mp h
  have hm := List.mem_zipIdx_iff_getElem?.mp (List.mem_filter.mp hx).1
  exact List.mem_of_mem_take (List.mem_of_getElem? hm)

/-- A save of the attempt is atomic: it leaves the form's values or the record before it, and
returns to the container only with the form's values. -/
def Atomic (a : Attempt) : Prop :=
  (Saved a.form a.recordAfter ∨ a.recordAfter = a.record) ∧
    (a.returns → Saved a.form a.recordAfter)

/-- The field has the form's value before the save. -/
def Same (a : Attempt) (field : Field) : Prop :=
  a.record field = some (.string (a.form.text field))

/-- A write of the field is accepted. -/
def Lands (a : Attempt) (field : Field) : Prop := .child field (a.form.text field) ∈ a.accepted

theorem saved_iff {a : Attempt} (h : ∀ w ∈ a.accepted, ∃ f, w = .child f (a.form.text f)) :
    Saved a.form a.recordAfter ↔ ∀ field ∈ savedFields, Lands a field ∨ Same a field := by
  refine forall₂_congr fun field _ => ?_
  rw [Attempt.recordAfter, applyAll_text h, Lands, Same]
  split
  · rename_i hl; simp [hl]
  · rename_i hl; simp [hl]

theorem unchanged_iff {a : Attempt}
    (h : ∀ w ∈ a.accepted, ∃ f ∈ savedFields, w = .child f (a.form.text f)) :
    a.recordAfter = a.record ↔ ∀ field ∈ savedFields, ¬ Lands a field ∨ Same a field := by
  have ht : ∀ w ∈ a.accepted, ∃ f, w = .child f (a.form.text f) := fun w hw => by
    obtain ⟨f, -, rfl⟩ := h w hw; exact ⟨f, rfl⟩
  rw [funext_iff, Attempt.recordAfter]
  constructor
  · intro he field _
    have hf := he field
    rw [applyAll_text ht] at hf
    split at hf
    · exact .inr hf.symm
    · rename_i hl; exact .inl hl
  · intro hs field
    rw [applyAll_text ht]
    split
    · rename_i hl
      obtain ⟨f, hf, he⟩ := h _ hl
      cases he
      rcases hs field hf with hn | hsame
      · exact (hn hl).elim
      · exact hsame.symm
    · rfl

/-- For every record, every form that `checkInfo` accepts and every outcome of the writes: the save
is atomic iff each field that it changes has an accepted write, or none has and the process stops
before the segue. -/
theorem save_atomic_iff (a : Attempt) {writes : List Write}
    (h : handleDismis a.form = some writes) :
    Atomic a ↔ (∀ field ∈ savedFields, Lands a field ∨ Same a field) ∨
      (¬ a.returns ∧ ∀ field ∈ savedFields, ¬ Lands a field ∨ Same a field) := by
  have hw : ∀ w ∈ a.accepted, ∃ f ∈ savedFields, w = .child f (a.form.text f) := by
    intro w hm
    have hm' := mem_accepted hm
    rw [Attempt.writes, h, Option.getD_some] at hm'
    exact (mem_handleDismis h).mp hm'
  rw [Atomic, unchanged_iff hw, saved_iff fun w hm => by
    obtain ⟨f, -, he⟩ := hw w hm
    exact ⟨f, he⟩]
  constructor
  · rintro ⟨hs | hu, hr⟩
    · exact .inl hs
    · by_cases hret : a.returns
      · exact .inl (hr hret)
      · exact .inr ⟨hret, hu⟩
  · rintro (hs | ⟨hret, hu⟩)
    · exact ⟨.inl hs, fun _ => hs⟩
    · exact ⟨.inr hu, fun h => (hret h).elim⟩

/-- The first write is accepted and the others are not sent: the device goes offline, and the
process stops after the segue. -/
def offline : Attempt where
  form := sampleForm
  record := OnlineRepository.postInfo
  executed := 6
  outcome i := if i = 0 then .accepted else .unsent

theorem save_atomic_iff_offline :
    Atomic offline ↔ (∀ field ∈ savedFields, Lands offline field ∨ Same offline field) ∨
      (¬ offline.returns ∧ ∀ field ∈ savedFields, ¬ Lands offline field ∨ Same offline field) :=
  save_atomic_iff offline rfl

/-- The screen returns with the name saved and the surname not. -/
theorem not_save_atomic_offline :
    checkInfo offline.form = .accepted (Str.of "01/01/00") ∧ offline.returns ∧
      offline.recordAfter .userName = some (.string (Str.of "A")) ∧
      offline.recordAfter .userSername = some (.string []) ∧ ¬ Atomic offline := by
  refine ⟨by decide, by decide, by decide, by decide, ?_⟩
  rintro ⟨-, hr⟩
  have hs := hr (by decide) .userSername (by decide)
  exact absurd hs (by decide)

end ProfileViewController
end MyNews
