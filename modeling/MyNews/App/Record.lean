import MyNews.App.Refinement

/-!
# What the app leaves in the record

The devices of an account run the same app; each makes the writes of its sign-up screen, its
Sources screens and its profile forms (`AppWrite`).

* `NoPlace`: no country and no city.
* `AppRecord`: the records that the writes of the app make: no country, no city, and as birth date a
  day that the picker allows.
* `Seen.act`: a property that the writes keep holds of all that the server, the observers and the
  check ever see.
* `never_complete`: so the check never finds a complete profile in a record that starts without
  country and city, whatever is entered and in whatever order the writes are answered.
* `every_snapshot_presents`: for a registered account it asks for the form each time.
* `filled_never_asked`: for a record whose texts are all filled it never asks.
-/

namespace MyNews
namespace App

open OnlineRepository ProfileViewController

/-! ## The writes of the app and their records -/

/-- What the app writes to a child. -/
def AppValue : Field → Value → Prop
  | _, .other => False
  | .userCountry, .string s => s = []
  | .userCity, .string s => s = []
  | .userBirthDate, .string s => s = [] ∨ ∃ date, Allowed date ∧ s = DateFormatter.string date
  | _, .string _ => True

/-- The record has no country and no city: each is absent or the empty string. -/
def NoPlace (record : Record) : Prop :=
  ∀ field ∈ [Field.userCountry, .userCity], ∀ value, record field = some value →
    value = .string []

/-- The children that are there are as the app writes them. -/
def AppRecord (record : Record) : Prop :=
  ∀ field value, record field = some value → AppValue field value

/-- A write of a Sources screen or of a profile form. -/
inductive ScreenWrite : Write → Prop
  | sources (newSources : List Str) : ScreenWrite (SourcesViewModel.saveUserSources newSources)
  | profile (form : Form) (hdate : Allowed form.birthDate) (write : Write)
    (hw : write ∈ (handleDismis form).getD []) : ScreenWrite write

/-- A write of the app: of the sign-up screen, of a Sources screen or of a profile form. -/
inductive AppWrite : Write → Prop
  | addUserItems : AppWrite addUserItems
  | screen (write : Write) (hw : ScreenWrite write) : AppWrite write

/-- The write of a form sets a field that it saves to its text. -/
theorem exists_of_mem_handleDismis {form : Form} {write : Write}
    (h : write ∈ (handleDismis form).getD []) : ∃ writes, handleDismis form = some writes ∧
      ∃ field ∈ savedFields, write = .child field (form.text field) := by
  cases hw : handleDismis form with
  | none => rw [hw] at h; cases h
  | some writes =>
    rw [hw, Option.getD_some, mem_handleDismis hw] at h
    obtain ⟨field, hf, rfl⟩ := h
    exact ⟨writes, rfl, field, hf, rfl⟩

theorem AppRecord.noPlace {record : Record} (h : AppRecord record) : NoPlace record := by
  intro field hf value hv
  have happ := h field value hv
  simp only [List.mem_cons, List.not_mem_nil, or_false] at hf
  cases value with
  | other => rcases hf with rfl | rfl <;> exact happ.elim
  | string s => rcases hf with rfl | rfl <;> exact congrArg Value.string happ

theorem appRecord_postInfo : AppRecord postInfo := by
  intro field value h
  cases field <;> cases h <;> first | rfl | trivial | exact .inl rfl

/-- A write of one child keeps the record if it keeps the child. -/
theorem AppRecord.child {record : Record} (h : AppRecord record) {field : Field} {s : Str}
    (hs : AppValue field (.string s)) : AppRecord ((Write.child field s).apply record) := by
  intro f value hv
  by_cases hf : f = field
  · subst hf
    rw [Write.apply_child_self, Option.some.injEq] at hv
    exact hv ▸ hs
  · rw [Write.apply_child_of_ne hf] at hv
    exact h f value hv

theorem AppRecord.apply {record : Record} (h : AppRecord record) {w : Write} (hw : AppWrite w) :
    AppRecord (w.apply record) := by
  rcases hw with _ | ⟨_, l | ⟨form, hdate, _, hw⟩⟩
  · exact appRecord_postInfo
  · exact h.child trivial
  · obtain ⟨-, -, field, hfield, rfl⟩ := exists_of_mem_handleDismis hw
    refine h.child ?_
    simp only [savedFields, List.mem_cons, List.not_mem_nil, or_false] at hfield
    rcases hfield with rfl | rfl | rfl | rfl
    · trivial
    · trivial
    · trivial
    · exact .inr ⟨form.birthDate, hdate, rfl⟩

/-- A write of a child other than the country and the city keeps them. -/
theorem NoPlace.child {record : Record} (h : NoPlace record) {field : Field}
    (hfield : field ∉ [Field.userCountry, .userCity]) (s : Str) :
    NoPlace ((Write.child field s).apply record) := by
  intro f hf value hv
  have hne : f ≠ field := fun he => hfield (he ▸ hf)
  rw [Write.apply_child_of_ne hne] at hv
  exact h f hf value hv

/-- No write of the app sets a country or a city. -/
theorem NoPlace.apply {record : Record} (h : NoPlace record) {w : Write} (hw : AppWrite w) :
    NoPlace (w.apply record) := by
  rcases hw with _ | ⟨_, l | ⟨form, -, _, hw⟩⟩
  · exact appRecord_postInfo.noPlace
  · exact h.child (by decide) _
  · obtain ⟨-, -, field, hfield, rfl⟩ := exists_of_mem_handleDismis hw
    simp only [savedFields, List.mem_cons, List.not_mem_nil, or_false] at hfield
    rcases hfield with rfl | rfl | rfl | rfl <;> exact h.child (by decide) _

/-- Writes of the app keep a record complete. -/
theorem complete_apply {record : Record} (h : Account.Complete record) {w : Write}
    (hw : AppWrite w) : Account.Complete (w.apply record) := by
  rcases hw with _ | ⟨_, l | ⟨form, hdate, _, hw⟩⟩
  · exact Account.complete_postInfo
  · exact h.apply (Account.childWrite_saveUserSources l)
  · exact h.apply (Account.childWrite_of_mem_handleDismis hw)

/-- The completeness test finds no complete profile in a record without a country. -/
theorem NoPlace.not_complete {snapshot : DataSnapshot} (h : NoPlace snapshot.dick) :
    isUserProfileEmpty snapshot ≠ .ok (some false) := by
  intro he
  rcases isUserProfileEmpty_ok_iff.mp ⟨_, he⟩ with h0 | hstrings
  · simp [isUserProfileEmpty, h0, pure, Except.pure] at he
  · choose! text ht using hstrings
    have hcountry : text .userCountry = [] := Value.string.inj
      (h .userCountry (by simp) _ (ht .userCountry (by simp [profileFields])))
    rw [isUserProfileEmpty_of_strings ht] at he
    simp [profileFields, hcountry] at he

/-- A complete record of the app is one for which the check asks for the profile form. -/
theorem AppRecord.incomplete {snapshot : DataSnapshot} (h : AppRecord snapshot.dick)
    (hc : Account.Complete snapshot.dick) : ContainerViewController.Incomplete snapshot := by
  obtain ⟨s, hs⟩ := hc .userCountry (by simp [profileFields])
  have hnil : s = [] := h .userCountry _ hs
  refine ⟨ContainerViewController.forall_string_iff.mp hc, .userCountry, by simp [profileFields],
    ?_⟩
  rw [Record.string?_eq_some, hs, hnil]

/-! ## What the server and the observers see -/

section

variable {W : Write → Prop} {P : Record → Prop}

/-- The writes `W` keep a record with `P`. -/
def Kept (W : Write → Prop) (P : Record → Prop) : Prop :=
  ∀ record w, P record → W w → P (w.apply record)

/-- All records that the server, the observers and the check see have `P`, and all writes on the way
are in `W`. -/
structure Seen (W : Write → Prop) (P : Record → Prop) (a : App) : Prop where
  server : P a.node.server
  pending : ∀ p ∈ a.node.pending, W p.write
  sent : ∀ value, a.bus.Sent value → P value.dick
  received : ∀ value ∈ a.received, P value.dick

theorem view_of_kept (hP : Kept W P) {node : Replica Record Pending}
    (hserver : P node.server) (hpending : ∀ p ∈ node.pending, W p.write) :
    P (node.view Pending.apply) :=
  Replica.view_of_keeps hserver fun p hp record hr => hP record p.write hr (hpending p hp)

theorem Seen.view (hP : Kept W P) {a : App} (h : Seen W P a) : P a.view :=
  view_of_kept hP h.server h.pending

theorem Seen.congr {a : App} (h : Seen W P a) (a' : App)
    (hnode : a'.node = a.node) (hbus : ∀ value, a'.bus.Sent value → a.bus.Sent value)
    (hreceived : a'.received = a.received) : Seen W P a' :=
  ⟨by rw [hnode]; exact h.server, by rw [hnode]; exact h.pending,
    fun value hv => h.sent value (hbus value hv), by rw [hreceived]; exact h.received⟩

theorem Seen.update (hP : Kept W P) {a : App} (h : Seen W P a)
    {node : Replica Record Pending} (hserver : P node.server)
    (hpending : ∀ p ∈ node.pending, W p.write) : Seen W P (a.update node) := by
  refine ⟨hserver, hpending, fun value hv => ?_, h.received⟩
  simp only [App.update] at hv
  split at hv
  · exact h.sent value hv
  · rcases hv.of_send with hv | rfl
    · exact h.sent value hv
    · rw [Record.dick_snapshot]
      exact view_of_kept hP hserver hpending

theorem Seen.observe (hP : Kept W P) {a : App} (h : Seen W P a) (o : Observer) :
    Seen W P (a.observe o) := by
  refine ⟨h.server, h.pending, fun value hv => ?_, h.received⟩
  rcases Bus.sent_register.mp hv with hv | rfl
  · exact h.sent value hv
  · rw [Record.dick_snapshot]
    exact h.view hP

theorem Seen.present (hP : Kept W P) {a : App} (h : Seen W P a) (screen : Screen) :
    Seen W P (a.present screen) := by
  unfold App.present
  split
  · cases screen with
    | profile =>
      exact (h.observe hP (.profile a.profiles.length)).congr _ rfl (fun _ hv => hv) rfl
    | sources => exact h.congr _ rfl (fun _ hv => hv) rfl
    | news => exact h.congr _ rfl (fun _ hv => hv) rfl
  · exact h

theorem Seen.receive (hP : Kept W P) {a : App} (h : Seen W P a) {i : Nat}
    {o : Observer} {value : DataSnapshot} {bus : Bus Observer DataSnapshot}
    (hd : a.bus.deliver i = some (o, value, bus)) :
    Seen W P (({ a with bus } : App).receive o value) := by
  obtain ⟨hv, hsub⟩ := Bus.sent_of_deliver hd
  cases o with
  | check =>
    have hreceived : Seen W P { a with bus, received := a.received ++ [value] } := by
      refine ⟨h.server, h.pending, fun v hv => h.sent v (hsub v hv), fun v hm => ?_⟩
      rcases List.mem_append.mp hm with hm | hm
      · exact h.received v hm
      · rw [List.mem_singleton.mp hm]; exact h.sent value hv
    simp only [App.receive, block]
    split
    · exact hreceived.congr _ rfl (fun _ hv => hv) rfl
    · exact (hreceived.congr { a with
        bus, received := a.received ++ [value], profileSegues := a.profileSegues ++ [a.presented] }
        rfl (fun _ hv => hv) rfl).present hP .profile
    · exact hreceived
  | _ => exact h.congr _ rfl hsub rfl

/-- The picker of a profile form shows a day that it allows. -/
theorem ProfileReached.allowed {c : ProfileViewController} (h : ProfileReached c) :
    Allowed c.form.birthDate := by
  obtain ⟨today, es, hrun⟩ := h
  refine Machine.run_invariant (I := fun c => Allowed c.form.birthDate) (fun e _ c c' hc hs => ?_)
    hrun (allowed_pickerDate today)
  cases e with
  | snapshot value => cases hs; rw [birthDate_configureUserInfo]; exact hc
  | edit f text =>
    simp only [ProfileViewController.step] at hs
    split at hs
    · cases hs
    · cases hs; cases f <;> exact hc
  | pick date =>
    simp only [ProfileViewController.step] at hs
    split at hs
    · rename_i hd; cases hs; exact hd.2
    · cases hs
  | save =>
    simp only [ProfileViewController.step] at hs
    split at hs
    · cases hs
    · split at hs <;> cases hs <;> exact hc

theorem Writes.screenWrite {a : App} (h : Parts a) {e : Event} {w : Write} {completion : Option Nat}
    (hw : Writes a e w completion) : ScreenWrite w := by
  cases hw with
  | profile screen c hc _ hw =>
    exact .profile c.form (h.profiles c (List.mem_of_getElem? hc)).allowed w hw
  | sources screen c hc => exact .sources c.userSources

/-- The other devices make writes in `W`. -/
def RemoteIn (W : Write → Prop) (e : Event) : Prop := ∀ w, e = .remote w → W w

/-- What the other devices write keeps a record with `P`. -/
def RemoteKeeps (P : Record → Prop) (e : Event) : Prop :=
  ∀ w, e = .remote w → ∀ record, P record → P (w.apply record)

theorem RemoteIn.keeps (hP : Kept W P) {e : Event} (h : RemoteIn W e) : RemoteKeeps P e :=
  fun w he record hr => hP record w hr (h w he)

theorem Seen.act (hP : Kept W P) (hW : ∀ w, ScreenWrite w → W w) {a a' : App} {e : Event}
    (h : Seen W P a) (hparts : Parts a) (he : RemoteKeeps P e) (hact : Act a e a') :
    Seen W P a' := by
  cases hact with
  | today date => exact h.congr _ rfl (fun _ hv => hv) rfl
  | receive i o value bus hd => exact h.receive hP hd
  | answer accepted node hn =>
    obtain ⟨p, ps, hp, rfl⟩ := Replica.answer_eq_some.mp hn
    obtain ⟨hw, hps⟩ := List.forall_mem_cons.mp (hp ▸ h.pending)
    refine h.update hP ?_ hps
    cases accepted with
    | true => exact hP _ _ h.server hw
    | false => exact h.server
  | remote w => exact h.update hP (he w rfl _ h.server) h.pending
  | write _ w completion hw =>
    refine h.update hP h.server fun p hp => ?_
    rcases List.mem_append.mp hp with hp | hp
    · exact h.pending p hp
    · rw [List.mem_singleton.mp hp]; exact hW w (hw.screenWrite hparts)
  | response request response c hs => exact h.congr _ rfl (fun _ hv => hv) rfl
  | pull hr => exact (h.observe hP .home).congr _ rfl (fun _ hv => hv) rfl
  | menu e menu hs => exact h.congr _ rfl (fun _ hv => hv) rfl
  | present _ screen he => exact h.present hP screen
  | closeNews hp hclosing => exact h.congr _ rfl (fun _ hv => hv) rfl
  | dismissed hclosing => exact (h.observe hP .home).congr _ rfl (fun _ hv => hv) rfl
  | profile screen e c c' hc hs hleft => exact h.congr _ rfl (fun _ hv => hv) rfl
  | closeProfile screen c c' hc hs hopen hleft => exact h.congr _ rfl (fun _ hv => hv) rfl
  | sources _ screen e' c c' hc hs hshown => exact h.congr _ rfl (fun _ hv => hv) rfl
  | closeSources _ screen e' c c' hc hs hopen hleft => exact h.congr _ rfl (fun _ hv => hv) rfl
  | observeSources _ screen c hc ho => exact h.observe hP _

/-- When the container is entered, the server has a record with `P`, and the writes on the way are
in `W`. -/
structure Starts (W : Write → Prop) (P : Record → Prop) (node : Replica Record Pending) : Prop where
  server : P node.server
  pending : ∀ p ∈ node.pending, W p.write

theorem seen_enter (hP : Kept W P) {node : Replica Record Pending}
    (h : Starts W P node) (today : Date) : Seen W P (enter node today) := by
  refine Seen.observe hP ⟨h.server, h.pending, fun value hv => ?_, fun _ hv => by cases hv⟩ .home
  obtain ⟨x, hx, hv⟩ := hv
  rw [List.mem_singleton.mp hx] at hv
  rw [List.mem_singleton.mp hv, Record.dick_snapshot]
  exact view_of_kept hP h.server h.pending

/-- What the parts of a step keep, as long as all records that are seen have `P`. -/
theorem run_of_seen (hP : Kept W P) (hW : ∀ w, ScreenWrite w → W w) {I : App → Prop}
    {es : List Event} {s t : App} (hrun : Machine.run step s es = some t)
    (hremote : ∀ e ∈ es, RemoteKeeps P e)
    (hact : ∀ e ∈ es, ∀ a a', Seen W P a → Sound a → Act a e a' → I a → I a') (hI : I s)
    (hseen : Seen W P s) (hsound : Sound s) : I t ∧ Seen W P t ∧ Sound t :=
  Machine.run_invariant_of_parts (A := Acts) (I := fun a => I a ∧ Seen W P a ∧ Sound a)
    (fun _ _ _ h => step_acts h)
    (fun e he a a' h hi => ⟨hact e he a a' hi.2.1 hi.2.2 h.2 hi.1,
      hi.2.1.act hP hW hi.2.2.parts (hremote e he) h.2, hi.2.2.act h⟩) hrun ⟨hI, hseen, hsound⟩

theorem seen_run (hP : Kept W P) (hW : ∀ w, ScreenWrite w → W w) {node : Replica Record Pending}
    (h : Starts W P node) {today : Date} {es : List Event} {t : App}
    (hrun : Machine.run step (enter node today) es = some t) (hremote : ∀ e ∈ es, RemoteKeeps P e) :
    Seen W P t ∧ Sound t :=
  (run_of_seen hP hW (I := fun _ => True) hrun hremote (fun _ _ _ _ _ _ _ _ => trivial) trivial
    (seen_enter hP h today) (sound_enter node today)).2

end

/-! ## A record without country and city -/

theorem kept_noPlace : Kept AppWrite NoPlace := fun _ _ h hw => h.apply hw

/-- For every run of the app on any number of devices that write only what the app writes, from a
record without country and city: the record has no country and no city, and the completeness check
never finds a complete profile. -/
theorem never_complete {node : Replica Record Pending} (h : Starts AppWrite NoPlace node)
    {today : Date} {es : List Event} {t : App}
    (hrun : Machine.run step (enter node today) es = some t)
    (hremote : ∀ e ∈ es, RemoteIn AppWrite e) : NoPlace t.node.server ∧ NoPlace t.view ∧
      ∀ value ∈ t.received, isUserProfileEmpty value ≠ .ok (some false) := by
  have hseen := (seen_run kept_noPlace .screen h hrun
    fun e he => (hremote e he).keeps kept_noPlace).1
  exact ⟨hseen.server, hseen.view kept_noPlace, fun v hv => (hseen.received v hv).not_complete⟩

/-- A registered account, with nothing on the way. -/
def registered : Replica Record Pending := ⟨postInfo, []⟩

/-- The profile form opens by itself, and the user fills it. -/
def filling : List Event :=
  [.deliver 0, .profile 0 (.edit .userName (Str.of "A")),
    .profile 0 (.edit .userSername (Str.of "B")), .profile 0 (.edit .userPhone (Str.of "1"))]

theorem never_complete_filling :
    ∃ t, Machine.run step (enter registered newYear2020) (filling ++ [.profile 0 .save]) = some t ∧
      NoPlace t.node.server ∧ NoPlace t.view ∧
      ∀ value ∈ t.received, isUserProfileEmpty value ≠ .ok (some false) :=
  ⟨_, rfl, @never_complete registered ⟨appRecord_postInfo.noPlace, by simp [registered]⟩ newYear2020
    (filling ++ [.profile 0 .save]) _ rfl (by simp [RemoteIn, filling])⟩

/-! ## A registered account -/

/-- The record of a registered account. -/
def Registered (record : Record) : Prop := AppRecord record ∧ Account.Complete record

theorem kept_registered : Kept AppWrite Registered :=
  fun _ _ h hw => ⟨h.1.apply hw, complete_apply h.2 hw⟩

theorem registered_postInfo : Registered postInfo :=
  ⟨appRecord_postInfo, Account.complete_postInfo⟩

/-- The block for a snapshot of a registered account performs the profile segue. -/
theorem block_registered (a : App) {value : DataSnapshot} (h : Registered value.dick) :
    a.block value = a.userProfileIsEmpty := by
  have he := ContainerViewController.isUserProfileEmpty_eq_true_iff.mpr (h.1.incomplete h.2)
  rw [block, he]

theorem present_frame (a : App) (screen : Screen) : (a.present screen).trapped = a.trapped ∧
    (a.present screen).received = a.received ∧
    (a.present screen).profileSegues = a.profileSegues := by
  unfold App.present
  split
  · cases screen <;> exact ⟨rfl, rfl, rfl⟩
  · exact ⟨rfl, rfl, rfl⟩

/-- Nothing has trapped, and each snapshot of the check has performed the segue. -/
def AllPresented (a : App) : Prop :=
  a.trapped = none ∧ a.profileSegues.length = a.received.length

theorem AllPresented.act {a a' : App} {e : Event} (h : AllPresented a)
    (hs : Seen AppWrite Registered a) (hact : Act a e a') : AllPresented a' := by
  cases hact with
  | receive i o value bus hd =>
    cases o with
    | check =>
      rw [App.receive, block_registered _ (hs.sent value (Bus.sent_of_deliver hd).1)]
      obtain ⟨ht, hr, hp⟩ := present_frame { a with
        bus, received := a.received ++ [value], profileSegues := a.profileSegues ++ [a.presented] }
        .profile
      refine ⟨ht.trans h.1, ?_⟩
      rw [userProfileIsEmpty, hp, hr]
      simp [h.2]
    | _ => exact h
  | present _ screen he =>
    obtain ⟨ht, hr, hp⟩ := present_frame a screen
    exact ⟨ht.trans h.1, by rw [hp, hr]; exact h.2⟩
  | _ => exact h

/-- For every run of the app for a registered account whose other devices write only what the app
writes: the casts of the check never trap, and every snapshot that it receives performs the profile
segue. -/
theorem every_snapshot_presents {node : Replica Record Pending}
    (h : Starts AppWrite Registered node) {today : Date} {es : List Event} {t : App}
    (hrun : Machine.run step (enter node today) es = some t)
    (hremote : ∀ e ∈ es, RemoteIn AppWrite e) :
    t.trapped = none ∧ t.profileSegues.length = t.received.length :=
  (run_of_seen kept_registered .screen (I := AllPresented) hrun
    (fun e he => (hremote e he).keeps kept_registered)
    (fun _ _ _ _ hs _ hact hi => hi.act hs hact) ⟨rfl, rfl⟩ (seen_enter kept_registered h today)
    (sound_enter node today)).1

theorem every_snapshot_presents_filling :
    ∃ t, Machine.run step (enter registered newYear2020) (filling ++ [.profile 0 .save]) = some t ∧
      t.trapped = none ∧ t.profileSegues.length = t.received.length :=
  ⟨_, rfl, @every_snapshot_presents registered ⟨registered_postInfo, by simp [registered]⟩
    newYear2020 (filling ++ [.profile 0 .save]) _ rfl (by simp [RemoteIn, filling])⟩

/-! ## A filled record -/

theorem filled_child {record : Record} (h : Filled record) {field : Field} {s : Str}
    (hs : field ∈ profileFields → s ≠ []) : Filled ((Write.child field s).apply record) := by
  intro f hf
  by_cases hfield : f = field
  · subst hfield
    exact ⟨s, Write.apply_child_self _ _ _, hs hf⟩
  · rw [Write.apply_child_of_ne hfield]
    exact h f hf

/-- The screens write no empty text to the six children. -/
theorem kept_filled : Kept ScreenWrite Filled := by
  intro record w h hw
  rcases hw with l | ⟨form, -, _, hw⟩
  · exact filled_child h (by simp [profileFields])
  · obtain ⟨writes, hwrites, field, hfield, rfl⟩ := exists_of_mem_handleDismis hw
    obtain ⟨hname, hsername, hphone, -⟩ :=
      checkInfo_eq_accepted.mp (handleDismis_eq_some hwrites).1
    refine filled_child h fun _ => ?_
    simp only [savedFields, List.mem_cons, List.not_mem_nil, or_false] at hfield
    rcases hfield with rfl | rfl | rfl | rfl
    · exact hname
    · exact hsername
    · exact hphone
    · exact DateFormatter.string_ne_nil _

/-- Nothing has trapped, and the check has not performed the segue. -/
def NeverAsked (a : App) : Prop := a.trapped = none ∧ a.profileSegues = []

theorem NeverAsked.act {W : Write → Prop} {a a' : App} {e : Event} (h : NeverAsked a)
    (hs : Seen W Filled a) (hact : Act a e a') : NeverAsked a' := by
  cases hact with
  | receive i o value bus hd =>
    cases o with
    | check =>
      have he := isUserProfileEmpty_of_filled (hs.sent value (Bus.sent_of_deliver hd).1)
      rw [App.receive, block, he]
      exact h
    | _ => exact h
  | present _ screen he =>
    obtain ⟨ht, -, hp⟩ := present_frame a screen
    exact ⟨ht.trans h.1, hp.trans h.2⟩
  | _ => exact h

/-- For every run of the app for a record whose six texts are not empty, on any number of devices
that write only what the Sources screens and the profile forms write: the casts of the check never
trap, every snapshot that it receives is complete, and it never performs the profile segue. -/
theorem filled_never_asked {node : Replica Record Pending} (h : Starts ScreenWrite Filled node)
    {today : Date} {es : List Event} {t : App}
    (hrun : Machine.run step (enter node today) es = some t)
    (hremote : ∀ e ∈ es, RemoteIn ScreenWrite e) :
    t.trapped = none ∧ t.profileSegues = [] ∧
      ∀ value ∈ t.received, isUserProfileEmpty value = .ok (some false) := by
  obtain ⟨⟨htrapped, hsegues⟩, hseen, -⟩ := run_of_seen kept_filled (fun _ hw => hw)
    (I := NeverAsked) hrun (fun e he => (hremote e he).keeps kept_filled)
    (fun _ _ _ _ hs _ hact hi => hi.act hs hact) ⟨rfl, rfl⟩
    (seen_enter kept_filled h today) (sound_enter node today)
  exact ⟨htrapped, hsegues, fun v hv => isUserProfileEmpty_of_filled (hseen.received v hv)⟩

/-- A record whose children are all the same text. -/
def sameText : Record := fun _ => some (.string (Str.of "A"))

/-- The user opens the form from the menu and saves another name; the server rejects the name, and
another device saves its sources. -/
def renamed : List Event :=
  [.deliver 0, .deliver 1, .menu .menuButton, .menu (.row 1),
    .menu (.completion 1 (some .profile)), .deliver 2, .profile 0 (.edit .userName (Str.of "B")),
    .profile 0 .save, .deliver 0, .dismissed, .answer false, .answer true, .deliver 0,
    .remote (SourcesViewModel.saveUserSources [Str.of "cnn"]), .deliver 0, .deliver 0]

theorem filled_never_asked_renamed : ∃ t,
    Machine.run step (enter ⟨sameText, []⟩ newYear2020) renamed = some t ∧
      t.trapped = none ∧ t.profileSegues = [] ∧
      ∀ value ∈ t.received, isUserProfileEmpty value = .ok (some false) := by
  have hstarts : Starts ScreenWrite Filled ⟨sameText, []⟩ :=
    ⟨fun _ _ => ⟨Str.of "A", rfl, by decide⟩, by simp⟩
  refine ⟨_, rfl, @filled_never_asked ⟨sameText, []⟩ hstarts newYear2020 renamed _ rfl ?_⟩
  rintro e he w rfl
  simp only [renamed, List.mem_cons, List.not_mem_nil, or_false, reduceCtorEq, false_or,
    Event.remote.injEq] at he
  exact he ▸ .sources _

end App
end MyNews
