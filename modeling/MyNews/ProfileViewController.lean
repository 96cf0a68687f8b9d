import MyNews.SourcesViewModel

/-!
# `ProfileViewController`: the profile form

`checkInfo` looks at three texts and formats the date; `handleDismis` writes four children of the
record (one of them twice) and leaves the screen. The completeness test of
`OnlineRepository.isUserProfileEmpty` reads two more children, `userCountry` and `userCity`, which
no screen of the app writes after `addUserItems` has set them to the empty string.

* `isUserProfileEmpty_save`: the completeness test after a save: it depends only on these two.
* `profile_stays_incomplete`: so it reports an empty profile after every save.
-/

namespace MyNews
namespace ProfileViewController

open OnlineRepository SourcesViewModel

/-- A control that `checkInfo` marks in red. -/
inductive Control where
  | userName
  | userSername
  | userPhone
  | berthDateLabel
  deriving DecidableEq

/-- What the user has entered. -/
structure Form where
  userName : Str
  userSername : Str
  userPhone : Str
  birthDate : Date
  deriving DecidableEq

/-- The result of `checkInfo`: the control it marks, or the text of the date. -/
inductive Checked where
  | rejected (control : Control)
  | accepted (birthDateStirng : Str)
  deriving DecidableEq

/-- `checkInfo`. The formatter always returns a string, so the last control is never marked. -/
def checkInfo (form : Form) : Checked :=
  if form.userName.isEmpty then .rejected .userName
  else if form.userSername.isEmpty then .rejected .userSername
  else if form.userPhone.isEmpty then .rejected .userPhone
  else
    let birthDateStirng : Option Str := some (DateFormatter.string form.birthDate)
    match birthDateStirng with
    | none => .rejected .berthDateLabel
    | some birthDateStirng => .accepted birthDateStirng

/-- `handleDismis`: the writes that it makes, or `none` if `checkInfo` stops it. The surname is
written twice. -/
def handleDismis (form : Form) : Option (List Write) :=
  match checkInfo form with
  | .rejected _ => none
  | .accepted birthDateStirng => some
      [ .child .userName form.userName,
        .child .userSername form.userSername,
        .child .userSername form.userSername,
        .child .userMobile form.userPhone,
        .child .userBirthDate birthDateStirng ]

/-- What `checkInfo` accepts: three texts that are not empty, and any date. -/
theorem checkInfo_eq_accepted {form : Form} {s : Str} :
    checkInfo form = .accepted s ↔ form.userName ≠ [] ∧ form.userSername ≠ [] ∧
      form.userPhone ≠ [] ∧ s = DateFormatter.string form.birthDate := by
  simp only [checkInfo, List.isEmpty_iff]
  split
  · simp [*]
  · split
    · simp [*]
    · split
      · simp [*]
      · simp [*, eq_comm]

theorem handleDismis_eq_some {form : Form} {writes : List Write}
    (h : handleDismis form = some writes) :
    checkInfo form = .accepted (DateFormatter.string form.birthDate) ∧
      writes =
        [ .child .userName form.userName, .child .userSername form.userSername,
          .child .userSername form.userSername, .child .userMobile form.userPhone,
          .child .userBirthDate (DateFormatter.string form.birthDate) ] := by
  unfold handleDismis at h
  split at h
  · cases h
  · rename_i s hs
    obtain ⟨-, -, -, rfl⟩ := checkInfo_eq_accepted.mp hs
    exact ⟨hs, (Option.some.inj h).symm⟩

/-- A save leaves the country and the city as they were. -/
theorem save_country_city {form : Form} {writes : List Write} (h : handleDismis form = some writes)
    (record : Record) : Write.applyAll writes record .userCountry = record .userCountry ∧
      Write.applyAll writes record .userCity = record .userCity := by
  obtain ⟨-, rfl⟩ := handleDismis_eq_some h
  simp [Write.apply]

/-- The completeness test after a save reports an empty profile iff the country or the city is
empty: the form covers the other four children. -/
theorem isUserProfileEmpty_save {form : Form} {writes : List Write}
    (h : handleDismis form = some writes) {record : Record} {country city : Str}
    (hcountry : record .userCountry = some (.string country))
    (hcity : record .userCity = some (.string city)) :
    isUserProfileEmpty (Write.applyAll writes record).snapshot =
      .ok (some (country.isEmpty || city.isEmpty)) := by
  obtain ⟨hc, hw⟩ := handleDismis_eq_some h
  obtain ⟨hname, hsername, hphone, -⟩ := checkInfo_eq_accepted.mp hc
  rw [← List.isEmpty_eq_false_iff] at hname hsername hphone
  have hdate := List.isEmpty_eq_false_iff.mpr (DateFormatter.string_ne_nil form.birthDate)
  have ht : ∀ field ∈ profileFields, (Write.applyAll writes record).snapshot.dick field =
      some (.string (((Write.applyAll writes record).string? field).getD [])) := by
    rw [Record.dick_snapshot, hw]
    simp [profileFields, Write.apply, Record.string?, hcountry, hcity]
  rw [isUserProfileEmpty_of_strings ht, hw]
  simp [profileFields, Write.apply, Record.string?, hcountry, hcity, hname, hsername, hphone, hdate]

/-! ## Saves of a registered account -/

/-- A save of one of the two screens that write to the record. -/
inductive Save where
  | sources (newSources : List Str)
  | profile (form : Form)

/-- The writes of a save; a form that `checkInfo` rejects makes none. -/
def Save.writes : Save → List Write
  | sources newSources => [saveUserSources newSources]
  | profile form => (handleDismis form).getD []

/-- The record of a registered account after the saves, in order. -/
def recordAfter (saves : List Save) : Record :=
  saves.foldl (fun record save => Write.applyAll save.writes record)
    (addUserItems.apply Record.empty)

theorem save_keeps_country_city (save : Save) (record : Record) :
    Write.applyAll save.writes record .userCountry = record .userCountry ∧
      Write.applyAll save.writes record .userCity = record .userCity := by
  cases save with
  | sources l => simp [Save.writes, saveUserSources, Write.apply]
  | profile form =>
    cases h : handleDismis form with
    | none => simp [Save.writes, h]
    | some writes => simpa [Save.writes, h] using save_country_city h record

/-- No save sets the country or the city. -/
theorem recordAfter_country_city (saves : List Save) :
    recordAfter saves .userCountry = some (.string []) ∧
      recordAfter saves .userCity = some (.string []) := by
  induction saves using List.reverseRecOn with
  | nil => exact ⟨rfl, rfl⟩
  | append_singleton saves save ih =>
    have h := save_keeps_country_city save (recordAfter saves)
    rw [ih.1, ih.2] at h
    simpa [recordAfter] using h

/-- The form and the completeness test agree on a save: after it, the test reports no empty
profile. -/
def SaveCompletes (saves : List Save) (writes : List Write) : Prop :=
  isUserProfileEmpty (Write.applyAll writes (recordAfter saves)).snapshot = .ok (some false)

/-- For every registered account, after any saves and every form that `checkInfo` accepts: the
completeness test reports an empty profile. -/
theorem profile_stays_incomplete (saves : List Save) (form : Form) (writes : List Write)
    (h : handleDismis form = some writes) :
    ¬ SaveCompletes saves writes ∧
      isUserProfileEmpty (Write.applyAll writes (recordAfter saves)).snapshot =
        .ok (some true) := by
  obtain ⟨hcountry, hcity⟩ := recordAfter_country_city saves
  have he := isUserProfileEmpty_save h hcountry hcity
  refine ⟨?_, he⟩
  rw [SaveCompletes, he]
  simp

/-- A filled form. -/
def sampleForm : Form where
  userName := Str.of "A"
  userSername := Str.of "B"
  userPhone := Str.of "1"
  birthDate := ⟨2000, 1, 1, by decide, by decide, by decide, by decide⟩

theorem profile_stays_incomplete_sample :
    ¬ SaveCompletes [.sources []] ((handleDismis sampleForm).getD []) ∧
      isUserProfileEmpty (Write.applyAll ((handleDismis sampleForm).getD [])
        (recordAfter [.sources []])).snapshot = .ok (some true) :=
  profile_stays_incomplete _ sampleForm _ rfl

/-- The first save of a new account leaves the profile incomplete. -/
theorem not_saveCompletes_sample :
    ∃ writes, handleDismis sampleForm = some writes ∧ ¬ SaveCompletes [] writes := by
  refine ⟨(handleDismis sampleForm).getD [], rfl, ?_⟩
  intro h
  cases h

end ProfileViewController
end MyNews
