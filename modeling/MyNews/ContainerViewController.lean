import MyNews.Lib.Machine
import MyNews.Account

/-!
# `ContainerViewController`: the completeness check

When the container screen is entered, `isUserProfileEmpty` registers an observer that stays. The
block for each snapshot runs later on the main queue; a report of an empty profile performs the
profile segue. The profile, the sources and the news screen are presented over the container.

What UIKit does, as far as the check depends on it: a screen is presented while none is, and a
segue that is performed while another screen is presented presents nothing.

* `isUserProfileEmpty_eq_true_iff`: the snapshots that `isUserProfileEmpty` reports as empty.
* `profile_requested_iff`: they are those with a field missing or empty iff all six are strings.
* `Checked.step`: the check performs a segue for each incomplete snapshot.
* `profileSegue_once_iff`: so it performs at most one, over no other screen, iff it receives at
  most one such snapshot, while no screen is presented.
* `profileSegues_registered`: for an account that only the app writes to, that is each snapshot.
-/

namespace MyNews

/-- A screen that is presented over the container. -/
inductive Screen where
  | profile
  | sources
  | news
  deriving DecidableEq

structure ContainerViewController where
  /-- The snapshots whose blocks have not run, the oldest first. -/
  undelivered : List DataSnapshot
  /-- The snapshots whose blocks have run. -/
  received : List DataSnapshot
  presented : Option Screen
  /-- For each profile segue that `userProfileIsEmpty` has performed, the screen that was presented
  then. -/
  profileSegues : List (Option Screen)
  /-- The child whose cast has trapped. -/
  trapped : Option Field

namespace ContainerViewController

open OnlineRepository

/-- The container after `viewDidLoad`, when the record is `value`. -/
def viewDidLoad (value : DataSnapshot) : ContainerViewController where
  undelivered := [value]
  received := []
  presented := none
  profileSegues := []
  trapped := none

/-- The closure `viewModel.userProfileIsEmpty`. -/
def userProfileIsEmpty (c : ContainerViewController) : ContainerViewController :=
  { c with
    profileSegues := c.profileSegues ++ [c.presented]
    presented := c.presented.or (some .profile) }

/-- The closure of `viewModel.isUserProfileEmpty`. -/
def complationHandler (c : ContainerViewController) (isEmpty : Bool) : ContainerViewController :=
  if isEmpty then c.userProfileIsEmpty else c

/-- The block for a snapshot. -/
def block (c : ContainerViewController) (value : DataSnapshot) : ContainerViewController :=
  match isUserProfileEmpty value with
  | .error field => { c with trapped := some field }
  | .ok none => c
  | .ok (some isEmpty) => c.complationHandler isEmpty

/-- What happens to the container. -/
inductive Event where
  /-- The record changes. -/
  | change (value : DataSnapshot)
  /-- The block for a snapshot runs. -/
  | deliver
  /-- The user opens a screen. -/
  | openScreen (screen : Screen)
  /-- It is dismissed: the segue back has ended. -/
  | closeScreen

/-- The container after the event; `none` if the event cannot happen. -/
def step (c : ContainerViewController) (e : Event) : Option ContainerViewController :=
  if c.trapped = none then
    match e with
    | .change value => some { c with undelivered := c.undelivered ++ [value] }
    | .deliver =>
      match c.undelivered with
      | [] => none
      | value :: rest =>
        some ({ c with undelivered := rest, received := c.received ++ [value] }.block value)
    | .openScreen screen =>
      if c.presented = none then some { c with presented := some screen } else none
    | .closeScreen => if c.presented = none then none else some { c with presented := none }
  else none

/-! ## Incomplete records -/

/-- All six children are strings, and one of them is empty. -/
def Incomplete (value : DataSnapshot) : Prop :=
  (∀ field ∈ profileFields, (value.dick.string? field).isSome) ∧
    ∃ field ∈ profileFields, value.dick.string? field = some []

instance (value : DataSnapshot) : Decidable (Incomplete value) :=
  inferInstanceAs (Decidable (_ ∧ _))

theorem forall_string_iff {dick : Record} :
    (∀ field ∈ profileFields, ∃ s, dick field = some (.string s)) ↔
      ∀ field ∈ profileFields, (dick.string? field).isSome := by
  simp only [Option.isSome_iff_exists, Record.string?_eq_some]

/-- The check reports an empty profile exactly for the incomplete records. -/
theorem isUserProfileEmpty_eq_true_iff {value : DataSnapshot} :
    isUserProfileEmpty value = .ok (some true) ↔ Incomplete value := by
  by_cases h : ∀ field ∈ profileFields, ∃ s, value.dick field = some (.string s)
  · have hs := forall_string_iff.mp h
    choose! text ht using h
    have hany : (profileFields.any fun field => (text field).isEmpty) = true ↔
        ∃ field ∈ profileFields, value.dick.string? field = some [] := by
      simp only [List.any_eq_true, List.isEmpty_iff]
      refine exists_congr fun field => and_congr_right fun hf => ?_
      rw [Record.string?_eq_some, ht field hf]
      simp
    rw [isUserProfileEmpty_of_strings ht, Incomplete, and_iff_right hs, ← hany]
    simp
  · constructor
    · intro he
      rcases isUserProfileEmpty_ok_iff.mp ⟨_, he⟩ with h0 | hs
      · simp [isUserProfileEmpty, h0, pure, Except.pure] at he
      · exact (h hs).elim
    · rintro ⟨hs, -⟩
      exact (h (forall_string_iff.mpr hs)).elim

/-- What the block does: a segue for an incomplete record, else perhaps a trap. -/
theorem block_eq (c : ContainerViewController) (value : DataSnapshot) :
    ∃ trapped, c.block value =
      { (if Incomplete value then c.userProfileIsEmpty else c) with trapped } := by
  have hn : isUserProfileEmpty value ≠ .ok (some true) → ¬ Incomplete value :=
    mt isUserProfileEmpty_eq_true_iff.mpr
  unfold block
  split
  · rename_i field h
    exact ⟨some field, by rw [if_neg (hn (by rw [h]; simp))]⟩
  · rename_i h
    exact ⟨c.trapped, by rw [if_neg (hn (by rw [h]; simp))]⟩
  · rename_i isEmpty h
    cases isEmpty with
    | true =>
      rw [if_pos (isUserProfileEmpty_eq_true_iff.mp h)]
      exact ⟨c.trapped, rfl⟩
    | false =>
      rw [if_neg (hn (by rw [h]; simp))]
      exact ⟨c.trapped, rfl⟩

/-! ## The first snapshot -/

/-- The delivery of the first snapshot requests the profile form. -/
def RequestsProfile (value : DataSnapshot) : Prop :=
  ∃ c, step (viewDidLoad value) .deliver = some c ∧ c.profileSegues = [none]

/-- A field of the completeness check is missing or empty. A value that is not a string counts as
missing. -/
def MissingOrEmpty (dick : Record) : Prop :=
  ∃ field ∈ profileFields, (dick.string? field).getD [] = []

theorem requestsProfile_iff {value : DataSnapshot} :
    RequestsProfile value ↔ Incomplete value := by
  obtain ⟨trapped, hb⟩ := block_eq { viewDidLoad value with undelivered := [], received := [value] }
    value
  have hs : step (viewDidLoad value) .deliver = some _ := congrArg some hb
  simp only [RequestsProfile, hs, Option.some.injEq, exists_eq_left']
  split
  · rename_i h; exact iff_of_true rfl h
  · rename_i h; exact iff_of_false (by simp [viewDidLoad]) h

/-- For every state of the record when the container is entered: the first snapshot requests the
profile form exactly when a field is missing or empty, iff the six fields are there. -/
theorem profile_requested_iff (value : DataSnapshot) :
    (RequestsProfile value ↔ MissingOrEmpty value.dick) ↔
      ∀ field ∈ profileFields, ∃ s, value.dick field = some (.string s) := by
  rw [requestsProfile_iff, forall_string_iff]
  constructor
  · intro h field hf
    cases hs : value.dick.string? field with
    | some s => rfl
    | none =>
      have hi := h.mpr ⟨field, hf, by rw [hs]; rfl⟩
      rw [← hs]
      exact hi.1 field hf
  · intro h
    refine ⟨fun ⟨_, field, hf, he⟩ => ⟨field, hf, by rw [he]; rfl⟩, fun ⟨field, hf, he⟩ => ?_⟩
    refine ⟨h, field, hf, ?_⟩
    obtain ⟨s, hs⟩ := Option.isSome_iff_exists.mp (h field hf)
    rw [hs] at he ⊢
    simpa using he

/-- An account without a record, as a sign-up leaves it whose `addUserItems` failed. -/
theorem not_profile_requested_null :
    MissingOrEmpty DataSnapshot.null.dick ∧ ¬ RequestsProfile .null := by
  refine ⟨⟨.userName, by decide, rfl⟩, ?_⟩
  rw [requestsProfile_iff]
  decide

/-! ## The segues of a run -/

/-- What a step can do to the snapshots and the segues. -/
inductive StepTo (c : ContainerViewController) : Event → ContainerViewController → Prop
  | change (value : DataSnapshot) :
    StepTo c (.change value) { c with undelivered := c.undelivered ++ [value] }
  | incomplete (value : DataSnapshot) (rest : List DataSnapshot)
    (hu : c.undelivered = value :: rest) (hi : Incomplete value) (trapped : Option Field) :
    StepTo c .deliver
      { c with
        undelivered := rest
        received := c.received ++ [value]
        profileSegues := c.profileSegues ++ [c.presented]
        presented := c.presented.or (some .profile)
        trapped }
  | other (value : DataSnapshot) (rest : List DataSnapshot) (hu : c.undelivered = value :: rest)
    (hi : ¬ Incomplete value) (trapped : Option Field) :
    StepTo c .deliver
      { c with undelivered := rest, received := c.received ++ [value], trapped }
  | openScreen (screen : Screen) (hp : c.presented = none) :
    StepTo c (.openScreen screen) { c with presented := some screen }
  | closeScreen : StepTo c .closeScreen { c with presented := none }

theorem step_to {c c' : ContainerViewController} {e : Event} (h : step c e = some c') :
    StepTo c e c' := by
  unfold step at h
  split at h
  · cases e with
    | change value => cases h; exact .change value
    | deliver =>
      cases hu : c.undelivered with
      | nil => simp [hu] at h
      | cons value rest =>
        simp only [hu, Option.some.injEq] at h
        obtain ⟨trapped, hb⟩ :=
          block_eq { c with undelivered := rest, received := c.received ++ [value] } value
        rw [hb] at h
        subst h
        by_cases hi : Incomplete value
        · simp only [if_pos hi]; exact .incomplete value rest hu hi trapped
        · simp only [if_neg hi]; exact .other value rest hu hi trapped
    | openScreen screen =>
      simp only at h
      split at h
      · rename_i hp; cases h; exact .openScreen screen hp
      · cases h
    | closeScreen =>
      simp only at h
      split at h
      · cases h
      · cases h; exact .closeScreen
  · cases h

/-- The record after a change. -/
def Event.value? : Event → Option DataSnapshot
  | change value => some value
  | _ => none

/-- The records after the changes of a run. -/
def changes (es : List Event) : List DataSnapshot := es.filterMap Event.value?

theorem changes_concat (es : List Event) (e : Event) :
    changes (es ++ [e]) = changes es ++ e.value?.toList :=
  Machine.filterMap_concat _ _ _

/-- The check receives the record at the entry and then each change, and performs a segue for each
incomplete one. -/
structure Checked (value : DataSnapshot) (es : List Event) (c : ContainerViewController) :
    Prop where
  received : c.received ++ c.undelivered = value :: changes es
  profileSegues : c.profileSegues.length = c.received.countP fun v => decide (Incomplete v)

theorem Checked.step {value : DataSnapshot} {es : List Event} {e : Event}
    {c c' : ContainerViewController} (h : Checked value es c)
    (hs : ContainerViewController.step c e = some c') : Checked value (es ++ [e]) c' := by
  obtain ⟨hr, hp⟩ := h
  cases step_to hs with
  | change v => exact ⟨by simp [changes_concat, Event.value?, ← List.append_assoc, hr], hp⟩
  | incomplete v rest hu hi trapped =>
    rw [hu] at hr
    exact ⟨by simp [changes_concat, Event.value?, hr], by simp [hp, hi]⟩
  | other v rest hu hi trapped =>
    rw [hu] at hr
    exact ⟨by simp [changes_concat, Event.value?, hr], by simp [hp, hi]⟩
  | openScreen screen _ => exact ⟨by simp [changes_concat, Event.value?, hr], hp⟩
  | closeScreen => exact ⟨by simp [changes_concat, Event.value?, hr], hp⟩

theorem checked_run {value : DataSnapshot} {es : List Event} {t : ContainerViewController}
    (hrun : Machine.run step (viewDidLoad value) es = some t) : Checked value es t :=
  Machine.run_history ⟨rfl, rfl⟩ (fun _ _ _ _ _ hi hs => Checked.step hi hs) hrun

/-- The check performs its segue at most once, and over no other screen. -/
def SegueOnce (c : ContainerViewController) : Prop :=
  c.profileSegues.length ≤ 1 ∧ ∀ presented ∈ c.profileSegues, presented = none

/-- No screen is presented when the block for an incomplete snapshot runs. -/
def Uncovered (c : ContainerViewController) : Event → Prop
  | .deliver => ∀ value, c.undelivered.head? = some value → Incomplete value → c.presented = none
  | _ => True

/-- A step adds a segue over another screen iff it is not `Uncovered`. -/
theorem forall_profileSegues_step {c c' : ContainerViewController} {e : Event}
    (h : step c e = some c') : (∀ p ∈ c'.profileSegues, p = none) ↔
      (∀ p ∈ c.profileSegues, p = none) ∧ Uncovered c e := by
  cases step_to h with
  | change v => exact (and_iff_left trivial).symm
  | incomplete v rest hu hi trapped =>
    simp only [List.forall_mem_append, List.forall_mem_singleton, Uncovered, hu, List.head?_cons,
      Option.some.injEq]
    refine and_congr_right fun _ => ⟨fun hp w hw _ => hp, fun hw => hw v rfl hi⟩
  | other v rest hu hi trapped =>
    refine (and_iff_left ?_).symm
    intro w hw hwi
    rw [hu, List.head?_cons, Option.some.injEq] at hw
    exact (hi (hw ▸ hwi)).elim
  | openScreen screen _ => exact (and_iff_left trivial).symm
  | closeScreen => exact (and_iff_left trivial).symm

/-- For every run from the entry of the container screen: the check performs its segue at most
once and over no other screen iff it receives at most one incomplete snapshot, while no screen is
presented. -/
theorem profileSegue_once_iff {value : DataSnapshot} {es : List Event}
    {t : ContainerViewController} (hrun : Machine.run step (viewDidLoad value) es = some t) :
    SegueOnce t ↔ (t.received.countP fun v => decide (Incomplete v)) ≤ 1 ∧
      ∀ x ∈ Machine.steps step (viewDidLoad value) es, Uncovered x.1 x.2 := by
  have hover : (∀ p ∈ t.profileSegues, p = none) ↔
      ∀ x ∈ Machine.steps step (viewDidLoad value) es, Uncovered x.1 x.2 :=
    Machine.run_iff_forall_steps (by simp [viewDidLoad])
      (fun _ _ _ => forall_profileSegues_step) hrun
  rw [SegueOnce, hover, (checked_run hrun).profileSegues]

/-- A record with a text in each field. -/
def filledRecord : Record := fun _ => some (.string (Str.of "A"))

/-- It has all but the city when the container is entered; another device sets the city, and later
the sources are saved. -/
def cityLater : List Event :=
  [.deliver, .change filledRecord.snapshot, .deliver, .closeScreen, .openScreen .sources,
    .change ((Write.child .userSources (Str.of "abc")).apply filledRecord).snapshot, .deliver,
    .closeScreen]

theorem profileSegue_once_iff_cityLater :
    ∃ t, Machine.run step (viewDidLoad ((Write.child .userCity []).apply filledRecord).snapshot)
        cityLater = some t ∧ t.received.length = 3 ∧ t.profileSegues = [none] ∧
      (SegueOnce t ↔ (t.received.countP fun v => decide (Incomplete v)) ≤ 1 ∧
        ∀ x ∈ Machine.steps step
            (viewDidLoad ((Write.child .userCity []).apply filledRecord).snapshot) cityLater,
          Uncovered x.1 x.2) :=
  ⟨_, rfl, rfl, rfl, profileSegue_once_iff rfl⟩

/-- A new account is registered, and the user enters the first field of the profile form. -/
def firstField : List Event :=
  [.deliver, .change ((Write.child .userName (Str.of "A")).apply postInfo).snapshot, .deliver]

/-- The write of the field performs the segue again, while the form is presented. -/
theorem not_profileSegue_once_firstField :
    ∃ t, Machine.run step (viewDidLoad postInfo.snapshot) firstField = some t ∧
      t.profileSegues = [none, some .profile] ∧ ¬ SegueOnce t := by
  refine ⟨_, rfl, rfl, ?_⟩
  rintro ⟨h, -⟩
  exact absurd h (by decide)

/-! ## The records of the app -/

open ProfileViewController in
/-- The record of a registered account is incomplete after any saves: the six fields are there, and
nothing sets the country. -/
theorem incomplete_recordAfter (saves : List Save) : Incomplete (recordAfter saves).snapshot := by
  have hc : Account.Complete (recordAfter saves) := by
    induction saves using List.reverseRecOn with
    | nil => exact Account.complete_postInfo
    | append_singleton saves save ih =>
      have hw : ∀ w ∈ save.writes, Account.ChildWrite w := by
        cases save with
        | sources l =>
          intro w hm
          rw [List.mem_singleton.mp hm]
          exact Account.childWrite_saveUserSources l
        | profile form => exact fun w hm => Account.childWrite_of_mem_handleDismis hm
      rw [recordAfter, List.foldl_append]
      exact Account.complete_view ih hw
  refine ⟨?_, .userCountry, by simp [profileFields], ?_⟩
  · rw [Record.dick_snapshot]
    exact forall_string_iff.mp hc
  · rw [Record.dick_snapshot, Record.string?_eq_some]
    exact (recordAfter_country_city saves).1

/-- So for an account that only the app writes to, every snapshot performs the segue. -/
theorem profileSegues_registered {value : DataSnapshot} {es : List Event}
    {t : ContainerViewController} (hrun : Machine.run step (viewDidLoad value) es = some t)
    (h : ∀ v ∈ value :: changes es,
      ∃ saves, v = (ProfileViewController.recordAfter saves).snapshot) :
    t.profileSegues.length = t.received.length := by
  obtain ⟨hr, hp⟩ := checked_run hrun
  rw [hp, List.countP_eq_length]
  intro v hv
  obtain ⟨saves, rfl⟩ := h v (hr ▸ List.mem_append_left _ hv)
  exact decide_eq_true (incomplete_recordAfter saves)

end ContainerViewController
end MyNews
