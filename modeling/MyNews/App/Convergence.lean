import MyNews.App.Feed

/-!
# What the screens show once everything is received

* `follows_update`, `follows_observe`, `follows_deliver`: what the parts of a step do to the
  observers of one screen.
* `FormFollows.step`, `SourcesFollows.step`: so the screen follows the record, but for the edits and
  taps of the user.
* `form_shows_record`: a profile form shows the texts of the server's record, whatever the user has
  edited before the record changed.
* `sources_shows_record`: the list of a Sources screen is the one of the server's record.
-/

namespace MyNews
namespace App

open OnlineRepository
open ProfileViewController (newYear2020)

/-! ## The observers of a screen -/

/-- The record and the observers with the label `o`. -/
def watched (a : App) (o : Observer) : Observed DataSnapshot := a.bus.only o a.view.snapshot

variable {o : Observer} {Watching : Prop} {P : DataSnapshot → Prop}

theorem watched_congr {a a' : App} (hnode : a'.node = a.node) (hbus : a'.bus = a.bus) :
    a'.watched o = a.watched o := by
  rw [watched, watched, App.view, App.view, hnode, hbus]

theorem watched_observe_self (a : App) (o : Observer) :
    (a.observe o).watched o = (a.watched o).observe := Bus.only_register_self _ _ _

theorem watched_observe_of_ne (a : App) {o' : Observer} (h : o' ≠ o) :
    (a.observe o').watched o = a.watched o := Bus.only_register_of_ne h _ _ _

theorem watched_enter (node : Replica Record Pending) (today : Date) (h : o ≠ .check)
    (h' : o ≠ .home) :
    (enter node today).watched o = .unobserved (node.view Pending.apply).snapshot := by
  rw [enter, watched_observe_of_ne _ h'.symm]
  simp [watched, Bus.only, Bus.queues, Observed.unobserved, App.view, h.symm]

theorem follows_observe {a : App} (h : (a.watched o).Follows Watching P) {o' : Observer}
    (ho : o' ≠ o) : ((a.observe o').watched o).Follows Watching P := by
  rw [watched_observe_of_ne a ho]
  exact h

/-- A write, its answer or another device: the observers are sent the view if it changes. -/
theorem follows_update {a : App} (h : (a.watched o).Follows Watching P)
    (node : Replica Record Pending) : ((a.update node).watched o).Follows Watching P := by
  by_cases hv : node.view Pending.apply = a.view
  · have he : (a.update node).watched o = a.watched o := by
      rw [watched, App.update, if_pos hv]
      exact congrArg (a.bus.only o ·.snapshot) hv
    rw [he]
    exact h
  · have he : (a.update node).watched o =
        (a.watched o).change (node.view Pending.apply).snapshot := by
      rw [watched, App.update, if_neg hv]
      exact Bus.only_send _ _ (snapshot_ne_view hv)
    rw [he]
    exact h.change (snapshot_ne_view hv)

theorem follows_setValues {a : App} (h : (a.watched o).Follows Watching P) (writes : List Write) :
    ((a.setValues writes).watched o).Follows Watching P := by
  induction writes generalizing a with
  | nil => exact h
  | cons w ws ih => exact @ih (a.setValue w none) (follows_update h _)

theorem watched_deliver_of_ne {a : App} {i : Nat} {o' : Observer} {value : DataSnapshot}
    {bus : Bus Observer DataSnapshot} (hd : a.bus.deliver i = some (o', value, bus)) (h : o' ≠ o) :
    ({ a with bus } : App).watched o = a.watched o := by
  rw [watched, watched, Bus.only, Bus.only, Bus.queues_deliver_of_ne hd h]
  rfl

theorem follows_deliver {a : App} (h : (a.watched o).Follows Watching P) {i : Nat}
    {value : DataSnapshot} {bus : Bus Observer DataSnapshot}
    (hd : a.bus.deliver i = some (o, value, bus)) {Watching' : Prop} {P' : DataSnapshot → Prop}
    (hW : Watching' ↔ Watching) (hP : P' value) :
    (({ a with bus } : App).watched o).Follows Watching' P' := by
  obtain ⟨j, hj⟩ := Bus.only_deliver_self hd a.view.snapshot
  exact h.deliver hj hW hP

/-- The check presents the profile form or nothing. -/
theorem receive_check (a : App) (value : DataSnapshot) : ∃ received profileSegues trapped,
    a.receive .check value = { a with received, profileSegues, trapped } ∨
      a.receive .check value =
        ({ a with received, profileSegues, trapped } : App).present .profile := by
  simp only [App.receive, block]
  split
  · exact ⟨_, a.profileSegues, _, .inl rfl⟩
  · exact ⟨_, _, a.trapped, .inr rfl⟩
  · exact ⟨_, a.profileSegues, a.trapped, .inl rfl⟩

theorem saveAnswered_cases (a : App) (screen : Nat) (accepted : Bool) :
    a.saveAnswered screen accepted = a ∨ ∃ c c', a.sources[screen]? = some c ∧
      SourcesViewController.step c (.saveAnswered !accepted) = some c' ∧
      (a.saveAnswered screen accepted = { a with sources := a.sources.set screen c' } ∨
        a.saveAnswered screen accepted =
          { a with sources := a.sources.set screen c' }.dismiss) := by
  unfold saveAnswered
  split
  · exact .inl rfl
  · rename_i c hc
    split
    · exact .inl rfl
    · rename_i c' hs
      refine .inr ⟨c, c', hc, hs, ?_⟩
      split
      · exact .inr rfl
      · exact .inl rfl

/-! ## The profile forms -/

open ProfileViewController (TextField)

variable {E : DataSnapshot → Prop} {f : TextField} {k : Nat}

/-- The text field `f` of the form shows the snapshot, unless the snapshot has `E` or is empty. -/
def FormShows (E : DataSnapshot → Prop) (f : TextField) (c : ProfileViewController)
    (value : DataSnapshot) : Prop :=
  E value ∨ value.dick.isEmpty = true ∨
    c.form.text f.field = (value.dick.string? f.field).getD []

/-- The form `k` follows the record. -/
def FormFollows (E : DataSnapshot → Prop) (f : TextField) (k : Nat) (a : App) : Prop :=
  (a.watched (.profile k)).Follows (k < a.profiles.length)
    fun value => ∀ c, a.profiles[k]? = some c → FormShows E f c value

theorem formShows_configureUserInfo (c : ProfileViewController) (value : DataSnapshot) :
    FormShows E f { c with
      form := ProfileViewController.configureUserInfo c.form value } value := by
  by_cases he : value.dick.isEmpty = true
  · exact .inr (.inl he)
  · refine .inr (.inr ?_)
    rw [ProfileViewController.text_configureUserInfo, if_neg he]

theorem FormFollows.congr {a : App} (h : FormFollows E f k a) (a' : App)
    (hnode : a'.node = a.node) (hbus : a'.bus = a.bus) (hprofiles : a'.profiles = a.profiles) :
    FormFollows E f k a' := by
  rw [FormFollows, watched_congr hnode hbus, hprofiles]
  exact h

theorem FormFollows.update {a : App} (h : FormFollows E f k a) (node : Replica Record Pending) :
    FormFollows E f k (a.update node) := follows_update h node

theorem FormFollows.observe {a : App} (h : FormFollows E f k a) {o : Observer}
    (ho : o ≠ .profile k) : FormFollows E f k (a.observe o) := follows_observe h ho

theorem FormFollows.dismissed {a : App} (h : FormFollows E f k a) :
    FormFollows E f k a.dismissed :=
  FormFollows.observe (h.congr { a with presented := none, closing := false } rfl rfl rfl) (by simp)

/-- Another form changes, or this one keeps the text. -/
theorem FormFollows.set {a : App} (h : FormFollows E f k a) {j : Nat} {c c' : ProfileViewController}
    (hc : a.profiles[j]? = some c)
    (htext : j = k → (∀ value, E value) ∨ c'.form.text f.field = c.form.text f.field) :
    FormFollows E f k { a with profiles := a.profiles.set j c' } := by
  refine Observed.Follows.imp h (by simp) fun _ value hP x hx => ?_
  by_cases hj : j = k
  · subst hj
    rw [List.getElem?_set_self (List.getElem?_eq_some_iff.mp hc).1, Option.some.injEq] at hx
    subst hx
    rcases htext rfl with hE | htext
    · exact .inl (hE value)
    · unfold FormShows
      rw [htext]
      exact hP c hc
  · rw [List.getElem?_set_ne hj] at hx
    exact hP x hx

theorem FormFollows.present {a : App} (h : FormFollows E f k a) (screen : Screen) :
    FormFollows E f k (a.present screen) := by
  unfold App.present
  split
  · cases screen with
    | profile =>
      by_cases hk : a.profiles.length = k
      · subst hk
        rw [FormFollows, load, watched_observe_self]
        exact Observed.Follows.observe h (by simp [App.observe])
      · have happend : FormFollows E f k { a with
            presented := some .profile
            profiles := a.profiles ++ [ProfileViewController.viewDidLoad a.today] } := by
          refine Observed.Follows.imp h ?_ fun hlt value hP c hc => ?_
          · rw [List.length_append, List.length_singleton]
            omega
          · rw [List.length_append, List.length_singleton] at hlt
            rw [List.getElem?_append_left (by omega)] at hc
            exact hP c hc
        exact happend.observe (by simp [hk])
    | sources => exact h.congr _ rfl rfl rfl
    | news => exact h.congr _ rfl rfl rfl
  · exact h

theorem FormFollows.receive {a : App} (h : FormFollows E f k a) {i : Nat} {o : Observer}
    {value : DataSnapshot} {bus : Bus Observer DataSnapshot}
    (hd : a.bus.deliver i = some (o, value, bus)) :
    FormFollows E f k (({ a with bus } : App).receive o value) := by
  by_cases ho : o = .profile k
  · subst ho
    refine follows_deliver h hd (by simp [App.receive]) fun c hc => ?_
    rw [App.receive, List.getElem?_modify_eq] at hc
    obtain ⟨c, -, rfl⟩ := Option.map_eq_some_iff.mp hc
    exact formShows_configureUserInfo c value
  · have hbus : FormFollows E f k { a with bus } := by
      rw [FormFollows, watched_deliver_of_ne hd ho]
      exact h
    cases o with
    | check =>
      obtain ⟨received, profileSegues, trapped, he | he⟩ := receive_check { a with bus } value
      · rw [he]; exact hbus.congr _ rfl rfl rfl
      · rw [he]
        exact (hbus.congr { a with bus, received, profileSegues, trapped } rfl rfl rfl).present _
    | home => exact hbus.congr _ rfl rfl rfl
    | profile screen =>
      have hne : screen ≠ k := fun he => ho (he ▸ rfl)
      refine Observed.Follows.imp hbus (by simp [App.receive]) fun _ value hP c hc => ?_
      exact hP c ((List.getElem?_modify_ne _ _ hne).symm.trans hc)
    | sources screen => exact hbus.congr _ rfl rfl rfl

/-- The event edits the text field `f` of the form `k`. -/
def EditsForm (k : Nat) (f : TextField) (e : Event) : Prop := ∃ text, e = .profile k (.edit f text)

/-- An action of the user other than an edit of the text field keeps its text. -/
theorem text_action {c c' : ProfileViewController} {e : ProfileViewController.Event}
    (h : ProfileViewController.step c e = some c') (hsnapshot : ∀ value, e ≠ .snapshot value)
    (hedit : ∀ text, e ≠ .edit f text) : c'.form.text f.field = c.form.text f.field := by
  rw [ProfileViewController.text_step f h]
  cases e with
  | snapshot value => exact (hsnapshot value rfl).elim
  | edit g text =>
    have hg : g ≠ f := fun hg => hedit text (hg ▸ rfl)
    rw [ProfileViewController.Event.text?, if_neg hg]
    rfl
  | _ => rfl

theorem FormFollows.step {a a' : App} (h : FormFollows E f k a) {e : Event}
    (hs : step a e = some a') (hedit : EditsForm k f e → ∀ value, E value) :
    FormFollows E f k a' := by
  cases (step_to hs).2 with
  | today date => exact h.congr _ rfl rfl rfl
  | receive i o value bus hd => exact h.receive hd
  | answer accepted node write hp hn => exact h.update node
  | saveAnswered accepted node write screen hp hn =>
    rcases saveAnswered_cases (a.update node) screen accepted with he | ⟨c, c', -, -, he | he⟩
    · rw [he]; exact h.update node
    · rw [he]; exact (h.update node).congr _ rfl rfl rfl
    · rw [he]; exact (h.update node).congr _ rfl rfl rfl
  | remote write => exact h.update _
  | response request response c hs => exact h.congr _ rfl rfl rfl
  | pull hp hr =>
    exact FormFollows.observe (h.congr { a with isRefreshing := true } rfl rfl rfl) (by simp)
  | newsRow row hp hr => exact h.present .news
  | closeNews hp hclosing => exact h.congr _ rfl rfl rfl
  | dismissed hclosing => exact h.dismissed
  | menu e menu hp hs => exact h.congr _ rfl rfl rfl
  | completion toggle menuOption menu hexit hs =>
    have hmenu : FormFollows E f k { a with menu } := h.congr _ rfl rfl rfl
    unfold selectMenuOption
    split
    · exact hmenu.present .sources
    · exact hmenu.present .profile
    · exact hmenu
  | profile screen e c c' hc hs' hopen hopen' =>
    refine h.set hc fun hk => ?_
    by_cases he : EditsForm k f (.profile screen e)
    · exact .inl (hedit he)
    · refine .inr (text_action hs' ?_ ?_)
      · rintro value rfl
        simp [App.step, App.next] at hs
      · rintro text rfl
        exact he ⟨text, by rw [hk]⟩
  | save screen c writes hc hopen hw =>
    obtain ⟨node, bus, hframe⟩ := setValues_frame a writes
    have hwrites : FormFollows E f k (a.setValues writes) := by
      have hprofiles : (a.setValues writes).profiles = a.profiles := by rw [hframe]
      rw [FormFollows, hprofiles]
      exact follows_setValues h writes
    have hset : FormFollows E f k { a.setValues writes with
        profiles := a.profiles.set screen { c with left := true } } := by
      rw [hframe] at hwrites ⊢
      exact hwrites.set hc fun _ => .inr rfl
    exact hset.congr _ rfl rfl rfl
  | sources screen e c c' he hc hs' =>
    have hset : FormFollows E f k { a with sources := a.sources.set screen c' } :=
      h.congr _ rfl rfl rfl
    cases e with
    | allSources response =>
      simp only [sourcesAction]
      split
      · exact hset.observe (by simp)
      · exact hset
    | done => exact hset.update _
    | ok => exact hset.congr _ rfl rfl rfl
    | _ => exact hset

theorem formFollows_enter (node : Replica Record Pending) (today : Date) :
    FormFollows E f k (enter node today) := by
  rw [FormFollows, watched_enter node today (by simp) (by simp)]
  exact Observed.follows_unobserved _ (Nat.not_lt_zero k)

theorem FormFollows.run {s t : App} {es : List Event} (h : FormFollows E f k s)
    (hrun : Machine.run App.step s es = some t)
    (hedit : ∀ e ∈ es, EditsForm k f e → ∀ value, E value) : FormFollows E f k t :=
  Machine.run_invariant (I := FormFollows E f k) (fun e he _ _ hi hs => hi.step hs (hedit e he))
    hrun h

/-- Once everything is received, the text is that of the record. -/
theorem FormFollows.text_eq {a : App} (h : FormFollows E f k a) (hE : ¬ E a.view.snapshot)
    (hreceived : a.bus.Drained) (hview : a.view.isEmpty = false) {c : ProfileViewController}
    (hc : a.profiles[k]? = some c) :
    c.form.text f.field = (a.view.string? f.field).getD [] := by
  have hshows : FormShows E f c a.view.snapshot :=
    h.current (List.getElem?_eq_some_iff.mp hc).1 (Bus.drained_only hreceived _ _) c hc
  rw [FormShows, Record.dick_snapshot, hview] at hshows
  rcases hshows with hE' | hempty | htext
  · exact (hE hE').elim
  · cases hempty
  · exact htext

/-- By the state `t` an observer with the label `o` must receive a snapshot that it has not received
in `s`: there is none yet, or a snapshot is on the way, or the record changes. -/
def Renewed (o : Observer) (s t : App) : Prop :=
  s.bus.queues o = [] ∨ (∃ q ∈ s.bus.queues o, q ≠ []) ∨ t.view ≠ s.view

/-- What follows the record in `s` can only be behind it as long as the record is that of `s`. -/
theorem Renewed.follows {s t : App} (h : Renewed o s t)
    (hs : (s.watched o).Follows Watching P) {P' : DataSnapshot → Prop}
    (hP : t.view ≠ s.view → P' s.view.snapshot) : (s.watched o).Follows Watching P' := by
  refine ⟨hs.upToDate, hs.watching, fun hdrained hqueues => ?_⟩
  rcases h with hnil | ⟨q, hq, hne⟩ | hview
  · exact (hqueues hnil).elim
  · exact (hne (hdrained q hq)).elim
  · exact hP hview

/-- The record is behind. -/
def Behind (s t : App) (value : DataSnapshot) : Prop := value = s.view.snapshot ∧ t.view ≠ s.view

theorem not_behind (s t : App) : ¬ Behind s t t.view.snapshot := fun ⟨he, hn⟩ => hn (by
  rw [← Record.dick_snapshot t.view, he, Record.dick_snapshot])

/-- For every run of the app, once every write is answered and every snapshot is received: a text
field of a profile form that the user has not edited since the state `s` shows the text of the
server's record, if that record is not empty and in `s` the form was not open, or a snapshot was on
the way to it, or the record was another one. -/
theorem form_shows_record {node : Replica Record Pending} {today : Date} {pre post : List Event}
    {s t : App} {c : ProfileViewController}
    (hpre : Machine.run step (enter node today) pre = some s)
    (hpost : Machine.run step s post = some t) (hedit : ∀ e ∈ post, ¬ EditsForm k f e)
    (hnew : Renewed (.profile k) s t) (hreceived : t.bus.Drained) (hanswered : t.node.pending = [])
    (hserver : t.node.server.isEmpty = false) (hc : t.profiles[k]? = some c) :
    c.form.text f.field = (t.node.server.string? f.field).getD [] := by
  have hs : FormFollows (fun _ => True) f k s :=
    (formFollows_enter node today).run hpre fun _ _ _ _ => trivial
  have hbehind : FormFollows (Behind s t) f k s :=
    hnew.follows hs fun hview _ _ => .inl ⟨rfl, hview⟩
  have ht := hbehind.run hpost fun e he h => (hedit e he h).elim
  have hview : t.view = t.node.server := view_of_answered hanswered
  rw [← hview] at hserver ⊢
  exact ht.text_eq (not_behind s t) hreceived hserver hc

/-- The user edits the name, and another device changes the record. -/
def behind : List Event := [.deliver 0, .deliver 2, .profile 0 (.edit .userName (Str.of "C"))]

def changed : List Event :=
  [.remote (.child .userSername (Str.of "D")), .deliver 0, .deliver 1, .deliver 1, .deliver 2]

/-- The edit is lost. -/
theorem form_shows_record_changed : ∃ s t c,
    Machine.run step (enter registered newYear2020) behind = some s ∧
      Machine.run step s changed = some t ∧ t.profiles[0]? = some c ∧
      c.form.text TextField.userName.field =
        (t.node.server.string? TextField.userName.field).getD [] := by
  refine ⟨_, _, _, rfl, rfl, rfl, ?_⟩
  refine @form_shows_record .userName 0 registered newYear2020 behind changed _ _ _ rfl rfl ?_ ?_
    (by decide) rfl rfl rfl
  · rintro e he ⟨text, rfl⟩
    simp [changed] at he
  · exact .inr (.inr fun h => absurd (congrFun h .userSername) (by decide))

/-! ## The Sources screens -/

/-- The list of the screen is that of the snapshot, unless the snapshot has `E`. -/
def SourcesShows (E : DataSnapshot → Prop) (c : SourcesViewController) (value : DataSnapshot) :
    Prop := E value ∨ c.userSources = SourcesViewModel.parseUserSources (getUserSources value)

/-- The Sources screen `k` follows the record. -/
def SourcesFollows (E : DataSnapshot → Prop) (k : Nat) (a : App) : Prop :=
  (a.watched (.sources k)).Follows (∃ c, a.sources[k]? = some c ∧ c.observing = true)
    fun value => ∀ c, a.sources[k]? = some c → SourcesShows E c value

theorem SourcesFollows.congr {a : App} (h : SourcesFollows E k a) (a' : App)
    (hnode : a'.node = a.node) (hbus : a'.bus = a.bus) (hsources : a'.sources = a.sources) :
    SourcesFollows E k a' := by
  rw [SourcesFollows, watched_congr hnode hbus, hsources]
  exact h

theorem SourcesFollows.update {a : App} (h : SourcesFollows E k a)
    (node : Replica Record Pending) : SourcesFollows E k (a.update node) := follows_update h node

theorem SourcesFollows.observe {a : App} (h : SourcesFollows E k a) {o : Observer}
    (ho : o ≠ .sources k) : SourcesFollows E k (a.observe o) := follows_observe h ho

theorem SourcesFollows.dismissed {a : App} (h : SourcesFollows E k a) :
    SourcesFollows E k a.dismissed :=
  SourcesFollows.observe (h.congr { a with presented := none, closing := false } rfl rfl rfl)
    (by simp)

/-- Another screen changes, or this one keeps its list and its observer. -/
theorem SourcesFollows.set {a : App} (h : SourcesFollows E k a) {j : Nat}
    {c c' : SourcesViewController} (hc : a.sources[j]? = some c)
    (hsame : j = k → c'.observing = c.observing ∧
      ((∀ value, E value) ∨ c'.userSources = c.userSources)) :
    SourcesFollows E k { a with sources := a.sources.set j c' } := by
  have hj : j = k ∨ (a.sources.set j c')[k]? = a.sources[k]? := by
    by_cases hj : j = k
    · exact .inl hj
    · exact .inr (List.getElem?_set_ne hj)
  rcases hj with rfl | hj
  · obtain ⟨hobserving, hlist⟩ := hsame rfl
    have hc' := List.getElem?_set_self (a := c') (List.getElem?_eq_some_iff.mp hc).1
    refine Observed.Follows.imp h ?_ fun _ value hP x hx => ?_
    · simp only [hc', hc, Option.some.injEq, exists_eq_left', hobserving]
    · rw [hc', Option.some.injEq] at hx
      subst hx
      rcases hlist with hE | hlist
      · exact .inl (hE value)
      · unfold SourcesShows
        rw [hlist]
        exact hP c hc
  · refine Observed.Follows.imp h ?_ fun _ value hP x hx => ?_
    · simp only [hj]
    · exact hP x (hj ▸ hx)

theorem SourcesFollows.present {a : App} (h : SourcesFollows E k a) (screen : Screen) :
    SourcesFollows E k (a.present screen) := by
  unfold App.present
  split
  · cases screen with
    | profile =>
      exact SourcesFollows.observe (h.congr { a with
        presented := some .profile
        profiles := a.profiles ++ [ProfileViewController.viewDidLoad a.today] } rfl rfl rfl)
        (by simp)
    | sources =>
      -- The new screen has no observer yet.
      have hold : ∀ c, (a.sources ++ [SourcesViewController.viewDidLoad])[k]? = some c →
          c.observing = true → a.sources[k]? = some c := by
        intro c hc ho
        rcases Nat.lt_or_ge k a.sources.length with hk | hk
        · rwa [List.getElem?_append_left hk] at hc
        · rw [List.getElem?_append_right hk] at hc
          rw [List.mem_singleton.mp (List.mem_of_getElem? hc)] at ho
          cases ho
      refine Observed.Follows.imp h ⟨?_, ?_⟩ ?_
      · rintro ⟨c, hc, ho⟩
        exact ⟨c, hold c hc ho, ho⟩
      · rintro ⟨c, hc, ho⟩
        exact ⟨c, (List.getElem?_append_left (List.getElem?_eq_some_iff.mp hc).1).trans hc, ho⟩
      · rintro ⟨x, hx, ho⟩ value hP c hc
        cases hx.symm.trans hc
        exact hP x (hold x hx ho)
    | news => exact h.congr _ rfl rfl rfl
  · exact h

theorem SourcesFollows.receive {a : App} (h : SourcesFollows E k a) {i : Nat} {o : Observer}
    {value : DataSnapshot} {bus : Bus Observer DataSnapshot}
    (hd : a.bus.deliver i = some (o, value, bus)) :
    SourcesFollows E k (({ a with bus } : App).receive o value) := by
  by_cases ho : o = .sources k
  · subst ho
    have hget : (({ a with bus } : App).receive (.sources k) value).sources[k]? =
        a.sources[k]?.map fun c =>
          c.userSourcesDone (SourcesViewModel.parseUserSources (getUserSources value)) :=
      List.getElem?_modify_eq _ _ _
    refine follows_deliver h hd ?_ fun c hc => ?_
    · simp [hget, SourcesViewController.userSourcesDone]
    · obtain ⟨c, -, rfl⟩ := Option.map_eq_some_iff.mp (hget.symm.trans hc)
      exact .inr rfl
  · have hbus : SourcesFollows E k { a with bus } := by
      rw [SourcesFollows, watched_deliver_of_ne hd ho]
      exact h
    cases o with
    | check =>
      obtain ⟨received, profileSegues, trapped, he | he⟩ := receive_check { a with bus } value
      · rw [he]; exact hbus.congr _ rfl rfl rfl
      · rw [he]
        exact (hbus.congr { a with bus, received, profileSegues, trapped } rfl rfl rfl).present _
    | home => exact hbus.congr _ rfl rfl rfl
    | profile screen => exact hbus.congr _ rfl rfl rfl
    | sources screen =>
      have hne : screen ≠ k := fun he => ho (he ▸ rfl)
      have hget : (({ a with bus } : App).receive (.sources screen) value).sources[k]? =
          a.sources[k]? := List.getElem?_modify_ne _ _ hne
      refine Observed.Follows.imp hbus (by simp only [hget]) fun _ value hP c hc => ?_
      exact hP c (hget.symm.trans hc)

/-- The event taps a row of the Sources screen `k`. -/
def TapsSources (k : Nat) (e : Event) : Prop := ∃ row, e = .sources k (.tap row)

/-- What an event other than a snapshot leaves of the list and its observer. -/
theorem sources_action {c c' : SourcesViewController} {e : SourcesViewController.Event}
    (h : SourcesViewController.step c e = some c') (hsnapshot : ∀ value, e ≠ .snapshot value) :
    (c'.userSources = c.userSources ∨ ∃ row, e = .tap row) ∧
      (c'.observing = c.observing ∨ ∃ response, e = .allSources response) := by
  cases SourcesViewController.step_to h with
  | failed response hr hn => exact ⟨.inl rfl, .inl rfl⟩
  | catalogue response list hr hl => exact ⟨.inl rfl, .inr ⟨response, rfl⟩⟩
  | snapshot value ho => exact (hsnapshot value rfl).elim
  | cell row hrow => exact ⟨.inl rfl, .inl rfl⟩
  | tap row hrow =>
    refine ⟨.inr ⟨row, rfl⟩, .inl ?_⟩
    by_cases hm : row ∈ c.selected
    · rw [SourcesViewController.tap_of_mem hm]
    · rw [SourcesViewController.tap_of_not_mem hm]
  | other _ _ hsame _ => exact ⟨.inl hsame.2.1, .inl hsame.2.2.2.1⟩

theorem SourcesFollows.saveAnswered {a : App} (h : SourcesFollows E k a) (screen : Nat)
    (accepted : Bool) : SourcesFollows E k (a.saveAnswered screen accepted) := by
  rcases saveAnswered_cases a screen accepted with he | ⟨c, c', hc, hs, he⟩
  · rw [he]; exact h
  · obtain ⟨hlist, hobserving⟩ := sources_action hs (by simp)
    have hset : SourcesFollows E k { a with sources := a.sources.set screen c' } :=
      h.set hc fun _ => ⟨hobserving.resolve_right (by simp), .inr (hlist.resolve_right (by simp))⟩
    rcases he with he | he
    · rw [he]; exact hset
    · rw [he]; exact hset.congr _ rfl rfl rfl

/-- The answer to the catalogue request registers the observer. -/
theorem SourcesFollows.allSources {a : App} (h : SourcesFollows E k a) {screen : Nat}
    {c c' : SourcesViewController} {response : DataResponse SourcesList}
    (hc : a.sources[screen]? = some c)
    (hs : SourcesViewController.step c (.allSources response) = some c') :
    SourcesFollows E k (a.sourcesAction screen (.allSources response) c') := by
  obtain ⟨hlist, -⟩ := sources_action hs (by simp)
  simp only [sourcesAction]
  split
  · rename_i ho
    by_cases hk : screen = k
    · subst hk
      rw [SourcesFollows, watched_observe_self]
      exact Observed.Follows.observe h
        ⟨c', List.getElem?_set_self (List.getElem?_eq_some_iff.mp hc).1, ho⟩
    · exact (h.set hc fun hj => (hk hj).elim).observe (by simp [hk])
  · rename_i ho
    have hobserving : c'.observing = c.observing := by
      rw [Bool.not_eq_true] at ho
      rw [ho, eq_comm, Bool.eq_false_iff]
      intro hobs
      rw [observing_step hs hobs] at ho
      cases ho
    exact h.set hc fun _ => ⟨hobserving, .inr (hlist.resolve_right (by simp))⟩

theorem SourcesFollows.step {a a' : App} (h : SourcesFollows E k a) {e : Event}
    (hs : step a e = some a') (htap : TapsSources k e → ∀ value, E value) :
    SourcesFollows E k a' := by
  cases (step_to hs).2 with
  | today date => exact h.congr _ rfl rfl rfl
  | receive i o value bus hd => exact h.receive hd
  | answer accepted node write hp hn => exact h.update node
  | saveAnswered accepted node write screen hp hn => exact (h.update node).saveAnswered screen _
  | remote write => exact h.update _
  | response request response c hs => exact h.congr _ rfl rfl rfl
  | pull hp hr =>
    exact SourcesFollows.observe (h.congr { a with isRefreshing := true } rfl rfl rfl) (by simp)
  | newsRow row hp hr => exact h.present .news
  | closeNews hp hclosing => exact h.congr _ rfl rfl rfl
  | dismissed hclosing => exact h.dismissed
  | menu e menu hp hs => exact h.congr _ rfl rfl rfl
  | completion toggle menuOption menu hexit hs =>
    have hmenu : SourcesFollows E k { a with menu } := h.congr _ rfl rfl rfl
    unfold selectMenuOption
    split
    · exact hmenu.present .sources
    · exact hmenu.present .profile
    · exact hmenu
  | profile screen e c c' hc hs' hopen hopen' => exact h.congr _ rfl rfl rfl
  | save screen c writes hc hopen hw =>
    obtain ⟨node, bus, hframe⟩ := setValues_frame a writes
    have hwrites : SourcesFollows E k (a.setValues writes) := by
      have hsources : (a.setValues writes).sources = a.sources := by rw [hframe]
      rw [SourcesFollows, hsources]
      exact follows_setValues h writes
    exact (hwrites.congr { a.setValues writes with
      profiles := a.profiles.set screen { c with left := true } } rfl rfl rfl).congr _ rfl rfl rfl
  | sources screen e c c' he hc hs' =>
    have hsnapshot : ∀ value, e ≠ .snapshot value := by
      rintro value rfl
      simp [App.step, App.next] at hs
    obtain ⟨hlist, hobserving⟩ := sources_action hs' hsnapshot
    by_cases hcatalogue : ∃ response, e = .allSources response
    · obtain ⟨response, rfl⟩ := hcatalogue
      exact h.allSources hc hs'
    · have hset : SourcesFollows E k { a with sources := a.sources.set screen c' } := by
        refine h.set hc fun hk => ⟨hobserving.resolve_right hcatalogue, ?_⟩
        rcases hlist with hlist | ⟨row, rfl⟩
        · exact .inr hlist
        · exact .inl (htap ⟨row, by rw [hk]⟩)
      cases e with
      | allSources response => exact (hcatalogue ⟨response, rfl⟩).elim
      | done => exact hset.update _
      | ok => exact hset.congr _ rfl rfl rfl
      | _ => exact hset

theorem sourcesFollows_enter (node : Replica Record Pending) (today : Date) :
    SourcesFollows E k (enter node today) := by
  rw [SourcesFollows, watched_enter node today (by simp) (by simp)]
  exact Observed.follows_unobserved _ (by simp [enter, App.observe])

theorem SourcesFollows.run {s t : App} {es : List Event} (h : SourcesFollows E k s)
    (hrun : Machine.run App.step s es = some t)
    (htap : ∀ e ∈ es, TapsSources k e → ∀ value, E value) : SourcesFollows E k t :=
  Machine.run_invariant (I := SourcesFollows E k) (fun e he _ _ hi hs => hi.step hs (htap e he))
    hrun h

/-- Once everything is received, the list is that of the record. -/
theorem SourcesFollows.list_eq {a : App} (h : SourcesFollows E k a) (hE : ¬ E a.view.snapshot)
    (hreceived : a.bus.Drained) {c : SourcesViewController} (hc : a.sources[k]? = some c)
    (ho : c.observing = true) :
    c.userSources = SourcesViewModel.parseUserSources (getUserSources a.view.snapshot) := by
  have hshows : SourcesShows E c a.view.snapshot :=
    h.current ⟨c, hc, ho⟩ (Bus.drained_only hreceived _ _) c hc
  exact hshows.resolve_left hE

/-- For every run of the app, once every write is answered and every snapshot is received: the list
of a Sources screen that has its catalogue is the one of the server's record, if the user has tapped
no row since the state `s`, in which the screen was without its catalogue, or a snapshot was on the
way to it, or the record was another one. -/
theorem sources_shows_record {node : Replica Record Pending} {today : Date}
    {pre post : List Event} {s t : App} {c : SourcesViewController}
    (hpre : Machine.run step (enter node today) pre = some s)
    (hpost : Machine.run step s post = some t) (htap : ∀ e ∈ post, ¬ TapsSources k e)
    (hnew : Renewed (.sources k) s t) (hreceived : t.bus.Drained) (hanswered : t.node.pending = [])
    (hc : t.sources[k]? = some c) (ho : c.observing = true) :
    c.userSources = SourcesViewModel.parseUserSources (getUserSources t.node.server.snapshot) := by
  have hs : SourcesFollows (fun _ => True) k s :=
    (sourcesFollows_enter node today).run hpre fun _ _ _ _ => trivial
  have hbehind : SourcesFollows (Behind s t) k s :=
    hnew.follows hs fun hview _ _ => .inl ⟨rfl, hview⟩
  have ht := hbehind.run hpost fun e he h => (htap e he h).elim
  have hview : t.view = t.node.server := view_of_answered hanswered
  rw [← hview]
  exact ht.list_eq (not_behind s t) hreceived hc ho

/-- After a tap another device saves its sources. -/
def savedElsewhere : List Event :=
  [.remote (.child .userSources (Str.of "cnn")), .deliver 0, .deliver 0, .deliver 1, .deliver 1,
    .deliver 2]

/-- The tap is lost. -/
theorem sources_shows_record_savedElsewhere : ∃ s t c,
    Machine.run step (enter registered newYear2020) selecting = some s ∧
      Machine.run step s savedElsewhere = some t ∧ t.sources[0]? = some c ∧
      c.userSources =
        SourcesViewModel.parseUserSources (getUserSources t.node.server.snapshot) := by
  refine ⟨_, _, _, rfl, rfl, rfl, ?_⟩
  refine @sources_shows_record 0 registered newYear2020 selecting savedElsewhere _ _ _ rfl rfl ?_ ?_
    (by decide) rfl rfl rfl
  · rintro e he ⟨row, rfl⟩
    simp [savedElsewhere] at he
  · exact .inr (.inr fun h => absurd (congrFun h .userSources) (by decide))

end App
end MyNews
