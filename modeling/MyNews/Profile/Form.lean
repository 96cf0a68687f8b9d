import MyNews.Lib.Machine
import MyNews.Profile.Save

/-!
# Loading and editing the profile form

`configureUserInfo` registers an observer that stays: each snapshot that is not empty replaces the
three texts. It never sets the date, so the picker shows the day on which it opened, cut to its
limits, until the user turns it.

* `load_save_iff`: opening the form and saving it changes nothing iff the stored date is that day.
* `text_run`: a text is that of the last edit or snapshot.
* `edits_saved_iff`: so a save writes the last edit of each text iff the last snapshot after it
  brings the same text.
-/

namespace MyNews

/-- The profile screen. -/
structure ProfileViewController where
  form : ProfileViewController.Form
  /-- A save has returned to the container. -/
  left : Bool

namespace ProfileViewController

/-! ## The form -/

/-- The limits of the picker `birthDate`. They are instants, 11:00 UTC of these days, and so these
days in the time zones from UTC-11 to UTC+12. -/
def minimumDate : Date := .of 1950 1 1 (by decide)

def maximumDate : Date := .of 2017 12 31 (by decide)

/-- The picker allows the day. -/
def Allowed (date : Date) : Prop := minimumDate.le date ∧ date.le maximumDate

instance (date : Date) : Decidable (Allowed date) := inferInstanceAs (Decidable (_ ∧ _))

/-- The day that the picker shows when it opens. -/
def pickerDate (today : Date) : Date :=
  if ¬ minimumDate.le today then minimumDate
  else if ¬ today.le maximumDate then maximumDate
  else today

/-- The screen after `viewDidLoad`. -/
def viewDidLoad (today : Date) : ProfileViewController where
  form := { userName := [], userSername := [], userPhone := [], birthDate := pickerDate today }
  left := false

/-- The closure of `configureUserInfo`; a text that is set to `nil` is empty. -/
def configureUserInfo (form : Form) (value : DataSnapshot) : Form :=
  let dick := value.dick
  if dick.isEmpty then form
  else
    { form with
      userName := (dick.string? .userName).getD []
      userSername := (dick.string? .userSername).getD []
      userPhone := (dick.string? .userMobile).getD [] }

/-- A text field of the profile. -/
inductive TextField where
  | userName
  | userSername
  | userPhone
  deriving DecidableEq

/-- The field of the record that it shows. -/
def TextField.field : TextField → Field
  | userName => .userName
  | userSername => .userSername
  | userPhone => .userMobile

/-- The text field shows `text`. -/
def Form.set (form : Form) (f : TextField) (text : Str) : Form :=
  match f with
  | .userName => { form with userName := text }
  | .userSername => { form with userSername := text }
  | .userPhone => { form with userPhone := text }

/-- What happens to the screen. -/
inductive Event where
  /-- A snapshot of the record is delivered. -/
  | snapshot (value : DataSnapshot)
  /-- The user edits a text field: it now has `text`. -/
  | edit (f : TextField) (text : Str)
  /-- The user turns the picker to `date`. -/
  | pick (date : Date)
  /-- The user presses Save. -/
  | save

/-- The screen after the event; `none` if the event cannot happen. -/
def step (c : ProfileViewController) : Event → Option ProfileViewController
  | .snapshot value => some { c with form := configureUserInfo c.form value }
  | .edit f text => if c.left then none else some { c with form := c.form.set f text }
  | .pick date =>
    if c.left = false ∧ Allowed date then some { c with form := { c.form with birthDate := date } }
    else none
  | .save =>
    if c.left then none
    else
      match handleDismis c.form with
      | none => some c
      | some _ => some { c with left := true }

/-! ## The texts and the date -/

theorem text_set (form : Form) (f g : TextField) (text : Str) :
    (form.set f text).text g.field = if f = g then text else form.text g.field := by
  cases f <;> cases g <;> rfl

/-- The text of a text field after a snapshot. -/
theorem text_configureUserInfo (form : Form) (value : DataSnapshot) (f : TextField) :
    (configureUserInfo form value).text f.field =
      if value.dick.isEmpty then form.text f.field
      else (value.dick.string? f.field).getD [] := by
  simp only [configureUserInfo]
  split
  · rfl
  · cases f <;> rfl

@[simp] theorem birthDate_configureUserInfo (form : Form) (value : DataSnapshot) :
    (configureUserInfo form value).birthDate = form.birthDate := by
  simp only [configureUserInfo]
  split <;> rfl

/-! ## Load and save -/

/-- Opening the form, receiving the record and saving leaves the record as it was. -/
def LoadSaveSame (today : Date) (record : Record) : Prop :=
  ∃ t writes, Machine.run step (viewDidLoad today) [.snapshot record.snapshot] = some t ∧
    handleDismis t.form = some writes ∧ Write.applyAll writes record = record

theorem allowed_pickerDate (today : Date) : Allowed (pickerDate today) := by
  unfold pickerDate
  split
  · decide
  · split
    · decide
    · rename_i h1 h2
      exact ⟨Decidable.not_not.mp h1, Decidable.not_not.mp h2⟩

theorem Allowed.year {date : Date} (h : Allowed date) : 1950 ≤ date.year ∧ date.year ≤ 2017 := by
  obtain ⟨h1, h2⟩ := h
  simp only [Date.le, minimumDate, maximumDate, Date.year_of] at h1 h2
  omega

/-- Two days that the picker allows have the same text only if they are the same. -/
theorem Allowed.eq_of_string_eq {a b : Date} (ha : Allowed a) (hb : Allowed b)
    (h : DateFormatter.string a = DateFormatter.string b) : a = b := by
  obtain ⟨hm, hd, hy⟩ := DateFormatter.string_eq_iff.mp h
  have hya := ha.year
  have hyb := hb.year
  have hyear : a.year = b.year := by omega
  cases a
  cases b
  simp_all

/-- The form that a stored record fills. -/
theorem handleDismis_load (today : Date) {record : Record}
    (h : ∀ f : TextField, ∃ s, s ≠ [] ∧ record f.field = some (.string s)) :
    ∃ t writes, Machine.run step (viewDidLoad today) [.snapshot record.snapshot] = some t ∧
      handleDismis t.form = some writes ∧ t.form.birthDate = pickerDate today ∧
      ∀ f : TextField, record f.field = some (.string (t.form.text f.field)) := by
  have hne : record.isEmpty = false := by
    rw [Bool.eq_false_iff]
    intro he
    obtain ⟨s, -, hs⟩ := h .userName
    rw [Record.isEmpty_iff.mp he] at hs
    cases hs
  have ht : ∀ f : TextField, ∃ s, s ≠ [] ∧ record f.field = some (.string s) ∧
      (configureUserInfo (viewDidLoad today).form record.snapshot).text f.field = s := by
    intro f
    obtain ⟨s, hs, hr⟩ := h f
    refine ⟨s, hs, hr, ?_⟩
    rw [text_configureUserInfo, Record.dick_snapshot, hne, Record.string?_eq_some.mpr hr]
    rfl
  obtain ⟨_, hname, -, rfl⟩ := ht .userName
  obtain ⟨_, hsername, -, rfl⟩ := ht .userSername
  obtain ⟨_, hphone, -, rfl⟩ := ht .userPhone
  have hc := checkInfo_eq_accepted.mpr ⟨hname, hsername, hphone, rfl⟩
  refine ⟨_, _, rfl, by rw [handleDismis, hc], birthDate_configureUserInfo _ _, fun f => ?_⟩
  obtain ⟨s, -, hr, hs⟩ := ht f
  rw [hs, hr]

/-- For every stored record with three texts that are not empty and the text of a day that the
picker allows: loading and saving it leaves it unchanged iff that day is the one that the picker
opens with. -/
theorem load_save_iff {record : Record} {date : Date} (today : Date)
    (htext : ∀ f : TextField, ∃ s, s ≠ [] ∧ record f.field = some (.string s))
    (hdate : record .userBirthDate = some (.string (DateFormatter.string date)))
    (hallowed : Allowed date) : LoadSaveSame today record ↔ date = pickerDate today := by
  obtain ⟨t, writes, hrun, hsave, hbirth, htexts⟩ := handleDismis_load today htext
  have hw : ∀ w ∈ writes, ∃ field, w = .child field (t.form.text field) := fun w hm => by
    obtain ⟨field, -, he⟩ := (mem_handleDismis hsave).mp hm
    exact ⟨field, he⟩
  constructor
  · rintro ⟨t', writes', hrun', hsave', hsame⟩
    rw [hrun, Option.some.injEq] at hrun'
    subst hrun'
    rw [hsave, Option.some.injEq] at hsave'
    subst hsave'
    have hb := congrFun hsame .userBirthDate
    rw [applyAll_text hw, if_pos ((mem_handleDismis hsave).mpr ⟨_, by simp [savedFields], rfl⟩),
      hdate, Option.some.injEq, Value.string.injEq] at hb
    refine (Allowed.eq_of_string_eq (allowed_pickerDate today) hallowed ?_).symm
    rw [← hbirth]
    exact hb
  · rintro rfl
    refine ⟨t, writes, hrun, hsave, funext fun field => ?_⟩
    rw [applyAll_text hw]
    split
    · rename_i hm
      obtain ⟨f, hf, he⟩ := (mem_handleDismis hsave).mp hm
      cases he
      simp only [savedFields, List.mem_cons, List.not_mem_nil, or_false] at hf
      rcases hf with rfl | rfl | rfl | rfl
      · exact (htexts .userName).symm
      · exact (htexts .userSername).symm
      · exact (htexts .userPhone).symm
      · rw [hdate, ← hbirth]; rfl
    · rfl

/-- The record of a filled profile. -/
def filled (birthDate : Date) : Record
  | .userName => some (.string (Str.of "A"))
  | .userSername => some (.string (Str.of "B"))
  | .userMobile => some (.string (Str.of "1"))
  | .userBirthDate => some (.string (DateFormatter.string birthDate))
  | _ => some (.string [])

theorem filled_text (birthDate : Date) (f : TextField) :
    ∃ s, s ≠ [] ∧ filled birthDate f.field = some (.string s) := by
  cases f
  · exact ⟨Str.of "A", by decide, rfl⟩
  · exact ⟨Str.of "B", by decide, rfl⟩
  · exact ⟨Str.of "1", by decide, rfl⟩

/-- A day after the limits of the picker, and one within them. -/
def newYear2020 : Date := .of 2020 1 1 (by decide)

def newYear2000 : Date := .of 2000 1 1 (by decide)

theorem load_save_iff_newYear2000 :
    LoadSaveSame newYear2020 (filled newYear2000) ↔ newYear2000 = pickerDate newYear2020 :=
  load_save_iff newYear2020 (filled_text newYear2000) rfl (by decide)

/-- A profile with the birth date 01/01/00 is saved with 12/31/17. -/
theorem not_load_save_newYear2000 :
    Allowed newYear2000 ∧ ¬ LoadSaveSame newYear2020 (filled newYear2000) := by
  refine ⟨by decide, ?_⟩
  rintro ⟨t, writes, hrun, hsave, hsame⟩
  cases hrun
  cases hsave
  have hb := congrFun hsame .userBirthDate
  exact absurd hb (by decide)

/-! ## Edits -/

/-- The record of a snapshot that is not empty. -/
def Event.loaded? : Event → Option Record
  | snapshot value => if value.dick.isEmpty then none else some value.dick
  | _ => none

/-- The text of the last edit of `f`, with no edit of `f` after it. -/
def LastEdit (es : List Event) (f : TextField) (text : Str) (post : List Event) : Prop :=
  ∃ pre, es = pre ++ .edit f text :: post ∧ ∀ text', .edit f text' ∉ post

/-- The text that an event gives the text field `f`. -/
def Event.text? (f : TextField) : Event → Option Str
  | edit g text => if g = f then some text else none
  | e => e.loaded?.map fun dick => (dick.string? f.field).getD []

theorem text_step (f : TextField) {c c' : ProfileViewController} {e : Event}
    (h : step c e = some c') :
    c'.form.text f.field = (e.text? f).getD (c.form.text f.field) := by
  cases e with
  | snapshot value =>
    cases h
    rw [text_configureUserInfo]
    simp only [Event.text?, Event.loaded?]
    split <;> rfl
  | edit g text =>
    simp only [step] at h
    split at h
    · cases h
    · cases h
      rw [text_set, Event.text?]
      split <;> rfl
  | pick date =>
    simp only [step] at h
    split at h
    · cases h; cases f <;> rfl
    · cases h
  | save =>
    simp only [step] at h
    split at h
    · cases h
    · split at h <;> cases h <;> rfl

/-- After the last edit of a text field, it has the text of the edit or of the last snapshot that
is not empty. -/
theorem text_run {f : TextField} {text : Str} {s t : ProfileViewController} {post : List Event}
    (hpost : ∀ text', .edit f text' ∉ post) (hs : s.form.text f.field = text)
    (hrun : Machine.run step s post = some t) :
    t.form.text f.field = ((post.filterMap Event.loaded?).getLast?.map fun dick =>
      (dick.string? f.field).getD []).getD text := by
  have hset : post.filterMap (Event.text? f) = (post.filterMap Event.loaded?).map fun dick =>
      (dick.string? f.field).getD [] := by
    rw [List.map_filterMap]
    refine List.filterMap_congr fun e he => ?_
    cases e with
    | edit g text' =>
      have hg : g ≠ f := fun hg => hpost text' (hg ▸ he)
      rw [Event.text?, if_neg hg]
      rfl
    | _ => rfl
  have hr := Machine.run_getLast? (g := fun c => c.form.text f.field)
    (fun c e c' => text_step f) hrun
  rw [hr, hset, List.getLast?_map, hs]

/-- The writes have the last edit of each text field. -/
def EditsSaved (es : List Event) (writes : List Write) : Prop :=
  ∀ f text post, LastEdit es f text post → .child f.field text ∈ writes

/-- The last snapshot after the last edit of a text field, if there is one that is not empty,
brings the text of the edit. -/
def EditsStand (es : List Event) : Prop :=
  ∀ f text post, LastEdit es f text post → ∀ dick,
    (post.filterMap Event.loaded?).getLast? = some dick → (dick.string? f.field).getD [] = text

/-- For every run of edits and snapshots, and a save that `checkInfo` accepts: it writes the last
edit of each text field iff the last snapshot after that edit brings the same text. -/
theorem edits_saved_iff {today : Date} {es : List Event} {t : ProfileViewController}
    {writes : List Write} (hrun : Machine.run step (viewDidLoad today) es = some t)
    (hsave : handleDismis t.form = some writes) : EditsSaved es writes ↔ EditsStand es := by
  refine forall₄_congr fun f text post hlast => ?_
  obtain ⟨pre, rfl, hpost⟩ := hlast
  obtain ⟨m, -, hm⟩ := Machine.run_append_eq_some.mp hrun
  obtain ⟨m', hm', hr⟩ := Option.bind_eq_some_iff.mp hm
  have htext : m'.form.text f.field = text := by
    rw [text_step f hm', Event.text?, if_pos rfl]
    rfl
  have hmem : .child f.field text ∈ writes ↔ t.form.text f.field = text := by
    rw [mem_handleDismis hsave]
    constructor
    · rintro ⟨field, -, he⟩
      cases he
      rfl
    · intro he
      refine ⟨f.field, ?_, by rw [he]⟩
      cases f <;> simp [savedFields, TextField.field]
  rw [hmem, text_run hpost htext hr]
  cases hl : (post.filterMap Event.loaded?).getLast? with
  | none => simp
  | some dick => simp

/-- The user edits the name; then another device selects a source. -/
def overwritten : List Event :=
  [.snapshot (filled newYear2000).snapshot, .edit .userName (Str.of "C"),
    .snapshot ((Write.child .userSources (Str.of "cnn")).apply (filled newYear2000)).snapshot]

theorem edits_saved_iff_overwritten :
    ∃ t writes, Machine.run step (viewDidLoad newYear2020) overwritten = some t ∧
      handleDismis t.form = some writes ∧
      (EditsSaved overwritten writes ↔ EditsStand overwritten) :=
  ⟨_, _, rfl, rfl, @edits_saved_iff newYear2020 overwritten _ _ rfl rfl⟩

/-- The save writes the old name. -/
theorem not_edits_saved_overwritten :
    ∃ t writes, Machine.run step (viewDidLoad newYear2020) overwritten = some t ∧
      handleDismis t.form = some writes ∧ .child .userName (Str.of "A") ∈ writes ∧
      ¬ EditsSaved overwritten writes := by
  refine ⟨_, _, rfl, rfl, by decide, fun h => ?_⟩
  have hm := h .userName (Str.of "C") [.snapshot
    ((Write.child .userSources (Str.of "cnn")).apply (filled newYear2000)).snapshot]
    ⟨[.snapshot (filled newYear2000).snapshot], rfl, by simp⟩
  exact absurd hm (by decide)

end ProfileViewController
end MyNews
