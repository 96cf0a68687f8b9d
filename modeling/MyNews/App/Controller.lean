import MyNews.Lib.Bus
import MyNews.Lib.Replica
import MyNews.ContainerViewController
import MyNews.Container.Menu
import MyNews.Home.Controller
import MyNews.Profile.Form
import MyNews.Sources.Controller

/-!
# The app of a signed-in user

The container with its menu, the Home screen and the screens over it, the record and all its
observers, from the entry of the container to Exit. The record is a `Replica`: a write changes the
view of the client at once and waits for the answer of the server. Each `observe(.value)` stays for
the rest of the process: one of the completeness check, one for each refresh of Home, one for each
profile form and each Sources screen that was opened. When the view changes, all of them are sent
the new snapshot.

The screens are those of the other modules. What UIKit does, as far as they depend on each other:

* A screen is presented while none is; a segue that is performed while another screen is presented
  presents nothing and loads nothing.
* The user acts on the screen that is presented, or on Home and the menu if none is.
* The segue back is animated. The screen takes no more touches, and is presented until the animation
  ends; then `viewDidAppear` of Home is called. The closures run in the meantime.

`step` is the app as a machine over the deliveries, the answers, the writes of other devices and
the user's actions. The row Exit ends a run.

* `home`, `container`: the Home screen and the completeness check, as the machines of their modules.
* `StepTo`, `step_to`: what a step can do.
* `Act`, `step_acts`: a step is made of parts, each on one component.
-/

namespace MyNews

/-- Whom an `observe(.value)` is for. The screens are numbered in the order in which they load. -/
inductive Observer where
  /-- `isUserProfileEmpty` of the container. -/
  | check
  /-- `getUserSources` of Home. -/
  | home
  /-- `configureUserInfo` of a profile form. -/
  | profile (screen : Nat)
  /-- `getUserSources` of a Sources screen. -/
  | sources (screen : Nat)
  deriving DecidableEq

/-- A write that the server has not answered, and the Sources screen that waits for the answer. -/
structure Pending where
  write : Write
  completion : Option Nat
  deriving DecidableEq

/-- The record after the write. -/
def Pending.apply (p : Pending) (record : Record) : Record := p.write.apply record

structure App where
  node : Replica Record Pending
  bus : Bus Observer DataSnapshot
  menu : ContainerMenu
  /-- The screen over the container. -/
  presented : Option Screen
  /-- The segue back from it is performed. -/
  closing : Bool
  /-- The snapshots that the completeness check has received. -/
  received : List DataSnapshot
  /-- For each profile segue of the check, the screen that was presented then. -/
  profileSegues : List (Option Screen)
  /-- The child whose cast has trapped. -/
  trapped : Option Field
  /-- The news requests of Home. -/
  requests : List NewsRequest
  news : List NewsArticle
  isRefreshing : Bool
  /-- The profile forms, in the order in which they loaded. -/
  profiles : List ProfileViewController
  /-- The Sources screens, in the order in which they loaded. -/
  sources : List SourcesViewController
  today : Date

namespace App

open OnlineRepository

/-- The record as the client sees it. -/
def view (a : App) : Record := a.node.view Pending.apply

/-- The Home screen. -/
def home (a : App) : HomeViewController where
  database := a.bus.only .home a.view.snapshot
  requests := a.requests
  news := a.news
  isRefreshing := a.isRefreshing

/-- The completeness check. -/
def container (a : App) : ContainerViewController where
  undelivered := (a.bus.queues .check).flatten
  received := a.received
  presented := a.presented
  profileSegues := a.profileSegues
  trapped := a.trapped

/-! ## The database -/

/-- The observers are sent the view if it changes. -/
def update (a : App) (node : Replica Record Pending) : App :=
  { a with
    node
    bus :=
      if node.view Pending.apply = a.view then a.bus
      else a.bus.send (node.view Pending.apply).snapshot }

/-- `setValue`. -/
def setValue (a : App) (write : Write) (completion : Option Nat) : App :=
  a.update (a.node.write ⟨write, completion⟩)

/-- The writes of a statement list, none of which waits for its answer. -/
def setValues (a : App) (writes : List Write) : App :=
  writes.foldl (fun a write => a.setValue write none) a

/-- `observe(.value)`. -/
def observe (a : App) (o : Observer) : App := { a with bus := a.bus.register o a.view.snapshot }

/-! ## The screens -/

/-- `viewDidLoad` of a screen over the container. -/
def load (a : App) : Screen → App
  | .profile =>
    { a with profiles := a.profiles ++ [ProfileViewController.viewDidLoad a.today] }.observe
      (.profile a.profiles.length)
  | .sources => { a with sources := a.sources ++ [SourcesViewController.viewDidLoad] }
  | .news => a

/-- `performSegue` to a screen. -/
def present (a : App) (screen : Screen) : App :=
  if a.presented = none then { a with presented := some screen }.load screen else a

/-- The segue back from the screen over the container. -/
def dismiss (a : App) : App := { a with closing := true }

/-- The end of its animation: Home appears. -/
def dismissed (a : App) : App := { a with presented := none, closing := false }.observe .home

/-- The container when it is entered and Home has appeared. -/
def enter (node : Replica Record Pending) (today : Date) : App :=
  { node
    bus := ⟨[(.check, [(node.view Pending.apply).snapshot])]⟩
    menu := ContainerMenu.viewDidLoad
    presented := none
    closing := false
    received := []
    profileSegues := []
    trapped := none
    requests := []
    news := []
    isRefreshing := false
    profiles := []
    sources := []
    today : App }.observe .home

/-! ## The closures -/

/-- The closure `viewModel.userProfileIsEmpty` of the container. -/
def userProfileIsEmpty (a : App) : App :=
  { a with profileSegues := a.profileSegues ++ [a.presented] }.present .profile

/-- The block of the completeness check. -/
def block (a : App) (value : DataSnapshot) : App :=
  match isUserProfileEmpty value with
  | .error field => { a with trapped := some field }
  | .ok (some true) => a.userProfileIsEmpty
  | .ok _ => a

/-- Home as its machine leaves it; the record is not its own. -/
def setHome (a : App) (c : HomeViewController) : App :=
  { a with requests := c.requests, news := c.news, isRefreshing := c.isRefreshing }

/-- An observer receives a snapshot. -/
def receive (a : App) (o : Observer) (value : DataSnapshot) : App :=
  match o with
  | .check => { a with received := a.received ++ [value] }.block value
  | .home => a.setHome (a.home.snapshot value)
  | .profile screen =>
    { a with
      profiles := a.profiles.modify screen fun c =>
        { c with form := ProfileViewController.configureUserInfo c.form value } }
  | .sources screen =>
    { a with
      sources := a.sources.modify screen fun c =>
        c.userSourcesDone (SourcesViewModel.parseUserSources (getUserSources value)) }

/-- The completion of `saveUserSources` of a Sources screen. -/
def saveAnswered (a : App) (screen : Nat) (accepted : Bool) : App :=
  match a.sources[screen]? with
  | none => a
  | some c =>
    match SourcesViewController.step c (.saveAnswered !accepted) with
    | none => a
    | some c' =>
      let a := { a with sources := a.sources.set screen c' }
      if accepted ∧ c.shown ≠ .left then a.dismiss else a

/-- The answer to the oldest write. -/
def answer (a : App) (accepted : Bool) : Option App :=
  match a.node.pending.head?, a.node.answer Pending.apply accepted with
  | some ⟨_, none⟩, some node => some (a.update node)
  | some ⟨_, some screen⟩, some node => some ((a.update node).saveAnswered screen accepted)
  | _, _ => none

/-- The profile form `screen` is `c` after an action of the user. A save that `checkInfo` accepts
makes its writes and performs the segue back. -/
def profileAction (a : App) (screen : Nat) (c : ProfileViewController) : App :=
  if c.left then
    { a.setValues ((ProfileViewController.handleDismis c.form).getD []) with
      profiles := a.profiles.set screen c }.dismiss
  else { a with profiles := a.profiles.set screen c }

/-- The Sources screen `screen` is `c` after an event of its own. -/
def sourcesAction (a : App) (screen : Nat) (e : SourcesViewController.Event)
    (c : SourcesViewController) : App :=
  let a := { a with sources := a.sources.set screen c }
  match e with
  | .allSources _ => if c.observing then a.observe (.sources screen) else a
  | .done => a.setValue c.handleDismis (some screen)
  | .ok => a.dismiss
  | _ => a

/-- The segue of `didSelectMenuOption`. -/
def selectMenuOption (a : App) : Option MenuOptions → App
  | some .sources => a.present .sources
  | some .profile => a.present .profile
  | _ => a

/-! ## The machine -/

/-- What happens to the app. -/
inductive Event where
  /-- Another day begins. -/
  | today (date : Date)
  /-- An observer receives a snapshot. -/
  | deliver (observer : Nat)
  /-- The server answers the oldest write. -/
  | answer (accepted : Bool)
  /-- The server has accepted a write of another device. -/
  | remote (write : Write)
  /-- A news request is answered. -/
  | response (request : Nat) (response : DataResponse NewsList)
  /-- The user pulls the refresh control of Home. -/
  | pull
  /-- The user taps a row of Home, which opens the news screen. -/
  | newsRow (row : Nat)
  /-- The user closes the news screen. -/
  | closeNews
  /-- The animation of the segue back ends. -/
  | dismissed
  /-- A tap on the menu, or the completion of its animation. -/
  | menu (e : ContainerMenu.Event)
  /-- An action of the user on a profile form. -/
  | profile (screen : Nat) (e : ProfileViewController.Event)
  /-- An action of the user on a Sources screen, a cell that its table asks for, or the answer to
  its request of the catalogue. -/
  | sources (screen : Nat) (e : SourcesViewController.Event)

/-- The app after the event, if nothing has trapped. -/
def next (a : App) : Event → Option App
  | .today date => some { a with today := date }
  | .deliver i =>
    match a.bus.deliver i with
    | some (o, value, bus) => some ({ a with bus }.receive o value)
    | none => none
  | .answer accepted => a.answer accepted
  | .remote write => some (a.update { a.node with server := write.apply a.node.server })
  | .response request response =>
    (HomeViewController.step a.home (.response request response)).map a.setHome
  | .pull =>
    if a.presented = none ∧ a.isRefreshing = false then
      some ({ a with isRefreshing := true }.observe .home)
    else none
  | .newsRow row =>
    if a.presented = none ∧ row < a.news.length then some (a.present .news) else none
  | .closeNews => if a.presented = some .news ∧ a.closing = false then some a.dismiss else none
  | .dismissed => if a.closing = true then some a.dismissed else none
  | .menu (.completion toggle menuOption) =>
    if menuOption = some .exit then none
    else (ContainerMenu.step a.menu (.completion toggle menuOption)).map fun menu =>
      { a with menu }.selectMenuOption menuOption
  | .menu e =>
    if a.presented = none then (ContainerMenu.step a.menu e).map fun menu => { a with menu }
    else none
  | .profile _ (.snapshot _) => none
  | .profile screen e =>
    (a.profiles[screen]?.bind (ProfileViewController.step · e)).map (a.profileAction screen)
  | .sources _ (.snapshot _) => none
  | .sources _ (.saveAnswered _) => none
  | .sources screen e =>
    (a.sources[screen]?.bind (SourcesViewController.step · e)).map (a.sourcesAction screen e)

/-- The app after the event; `none` if the event cannot happen. -/
def step (a : App) (e : Event) : Option App := if a.trapped = none then a.next e else none

/-! ## What a step does -/

/-- An action on a profile form other than a save leaves it open. -/
theorem profile_step {c c' : ProfileViewController} {e : ProfileViewController.Event}
    (he : ∀ value, e ≠ .snapshot value) (hsave : e ≠ .save)
    (h : ProfileViewController.step c e = some c') : c.left = false ∧ c'.left = false := by
  cases e with
  | snapshot value => exact (he value rfl).elim
  | edit f text =>
    simp only [ProfileViewController.step] at h
    split at h
    · cases h
    · rename_i hl; cases h; exact ⟨by simpa using hl, by simpa using hl⟩
  | pick date =>
    simp only [ProfileViewController.step] at h
    split at h
    · rename_i hl; cases h; exact ⟨hl.1, hl.1⟩
    · cases h
  | save => exact (hsave rfl).elim

/-- A save closes the form if `checkInfo` accepts it, and else leaves it. -/
theorem profile_save {c c' : ProfileViewController}
    (h : ProfileViewController.step c .save = some c') : c.left = false ∧
      match ProfileViewController.handleDismis c.form with
      | none => c' = c
      | some _ => c' = { c with left := true } := by
  simp only [ProfileViewController.step] at h
  split at h
  · cases h
  · rename_i hl
    refine ⟨by simpa using hl, ?_⟩
    cases hw : ProfileViewController.handleDismis c.form with
    | none => rw [hw] at h; cases h; rfl
    | some writes => rw [hw] at h; cases h; rfl

/-- What a step can do. -/
inductive StepTo (a : App) : Event → App → Prop
  | today (date : Date) : StepTo a (.today date) { a with today := date }
  | receive (i : Nat) (o : Observer) (value : DataSnapshot)
    (bus : Bus Observer DataSnapshot) (hd : a.bus.deliver i = some (o, value, bus)) :
    StepTo a (.deliver i) ({ a with bus }.receive o value)
  | answer (accepted : Bool) (node : Replica Record Pending) (write : Write)
    (hp : a.node.pending.head? = some ⟨write, none⟩)
    (hn : a.node.answer Pending.apply accepted = some node) :
    StepTo a (.answer accepted) (a.update node)
  /-- The answer to a save of a Sources screen. -/
  | saveAnswered (accepted : Bool) (node : Replica Record Pending) (write : Write) (screen : Nat)
    (hp : a.node.pending.head? = some ⟨write, some screen⟩)
    (hn : a.node.answer Pending.apply accepted = some node) :
    StepTo a (.answer accepted) ((a.update node).saveAnswered screen accepted)
  | remote (write : Write) :
    StepTo a (.remote write) (a.update { a.node with server := write.apply a.node.server })
  | response (request : Nat) (response : DataResponse NewsList) (c : HomeViewController)
    (hs : HomeViewController.step a.home (.response request response) = some c) :
    StepTo a (.response request response) (a.setHome c)
  | pull (hp : a.presented = none) (hr : a.isRefreshing = false) :
    StepTo a .pull ({ a with isRefreshing := true }.observe .home)
  | newsRow (row : Nat) (hp : a.presented = none) (hr : row < a.news.length) :
    StepTo a (.newsRow row) (a.present .news)
  | closeNews (hp : a.presented = some .news) (hc : a.closing = false) :
    StepTo a .closeNews a.dismiss
  | dismissed (hc : a.closing = true) : StepTo a .dismissed a.dismissed
  | menu (e : ContainerMenu.Event) (menu : ContainerMenu) (hp : a.presented = none)
    (hs : ContainerMenu.step a.menu e = some menu) : StepTo a (.menu e) { a with menu }
  | completion (toggle : Nat) (menuOption : Option MenuOptions) (menu : ContainerMenu)
    (hexit : menuOption ≠ some .exit)
    (hs : ContainerMenu.step a.menu (.completion toggle menuOption) = some menu) :
    StepTo a (.menu (.completion toggle menuOption)) ({ a with menu }.selectMenuOption menuOption)
  /-- An action on a profile form that does not close it. -/
  | profile (screen : Nat) (e : ProfileViewController.Event) (c c' : ProfileViewController)
    (hc : a.profiles[screen]? = some c) (hs : ProfileViewController.step c e = some c')
    (hopen : c.left = false) (hopen' : c'.left = false) :
    StepTo a (.profile screen e) { a with profiles := a.profiles.set screen c' }
  /-- A save that `checkInfo` accepts. -/
  | save (screen : Nat) (c : ProfileViewController) (writes : List Write)
    (hc : a.profiles[screen]? = some c) (hopen : c.left = false)
    (hw : ProfileViewController.handleDismis c.form = some writes) :
    StepTo a (.profile screen .save) { a.setValues writes with
      profiles := a.profiles.set screen { c with left := true } }.dismiss
  | sources (screen : Nat) (e : SourcesViewController.Event) (c c' : SourcesViewController)
    (he : ∀ error, e ≠ .saveAnswered error) (hc : a.sources[screen]? = some c)
    (hs : SourcesViewController.step c e = some c') :
    StepTo a (.sources screen e) (a.sourcesAction screen e c')

theorem step_to {a a' : App} {e : Event} (h : step a e = some a') :
    a.trapped = none ∧ StepTo a e a' := by
  unfold step at h
  split at h
  · rename_i ht
    refine ⟨ht, ?_⟩
    cases e with
    | today date => cases h; exact .today date
    | deliver i =>
      simp only [next] at h
      split at h
      · rename_i o value bus hd
        cases h
        exact .receive i o value bus hd
      · cases h
    | answer accepted =>
      simp only [next, App.answer] at h
      split at h
      · rename_i write node hp hn
        cases h
        exact .answer accepted node write hp hn
      · rename_i write screen node hp hn
        cases h
        exact .saveAnswered accepted node write screen hp hn
      · cases h
    | remote write => cases h; exact .remote write
    | response request response =>
      obtain ⟨c, hc, rfl⟩ := Option.map_eq_some_iff.mp h
      exact .response request response c hc
    | pull =>
      simp only [next] at h
      split at h
      · rename_i hr; cases h; exact .pull hr.1 hr.2
      · cases h
    | newsRow row =>
      simp only [next] at h
      split at h
      · rename_i hr; cases h; exact .newsRow row hr.1 hr.2
      · cases h
    | closeNews =>
      simp only [next] at h
      split at h
      · rename_i hp; cases h; exact .closeNews hp.1 hp.2
      · cases h
    | dismissed =>
      simp only [next] at h
      split at h
      · rename_i hc; cases h; exact .dismissed hc
      · cases h
    | menu e =>
      cases e with
      | completion toggle menuOption =>
        simp only [next] at h
        split at h
        · cases h
        · rename_i hexit
          obtain ⟨menu, hs, rfl⟩ := Option.map_eq_some_iff.mp h
          exact .completion toggle menuOption menu hexit hs
      | _ =>
        simp only [next] at h
        split at h
        · rename_i hp
          obtain ⟨menu, hs, rfl⟩ := Option.map_eq_some_iff.mp h
          exact .menu _ menu hp hs
        · cases h
    | profile screen e =>
      cases e with
      | snapshot value => cases h
      | save =>
        obtain ⟨c', hs, rfl⟩ := Option.map_eq_some_iff.mp h
        obtain ⟨c, hc, hs⟩ := Option.bind_eq_some_iff.mp hs
        obtain ⟨hopen, hsave⟩ := profile_save hs
        cases hw : ProfileViewController.handleDismis c.form with
        | none =>
          rw [hw] at hsave
          subst hsave
          rw [profileAction, if_neg (by simp [hopen])]
          exact .profile screen .save _ _ hc hs hopen hopen
        | some writes =>
          rw [hw] at hsave
          subst hsave
          rw [profileAction, if_pos rfl, hw]
          exact .save screen c writes hc hopen hw
      | _ =>
        obtain ⟨c', hs, rfl⟩ := Option.map_eq_some_iff.mp h
        obtain ⟨c, hc, hs⟩ := Option.bind_eq_some_iff.mp hs
        obtain ⟨hopen, hopen'⟩ := profile_step (by simp) (by simp) hs
        rw [profileAction, if_neg (by simp [hopen'])]
        exact .profile screen _ c c' hc hs hopen hopen'
    | sources screen e =>
      cases e with
      | snapshot value => cases h
      | saveAnswered error => cases h
      | _ =>
        obtain ⟨c', hs, rfl⟩ := Option.map_eq_some_iff.mp h
        obtain ⟨c, hc, hs⟩ := Option.bind_eq_some_iff.mp hs
        exact .sources screen _ c c' (by simp) hc hs
  · cases h

/-! ## The parts of a step -/

/-- The event can present a screen that the user has asked for. -/
def Event.opens : Event → Bool
  | newsRow _ | menu (.completion _ _) => true
  | _ => false

/-- A write that a screen makes: of a profile form, or of a Sources screen, which waits for the
answer. -/
inductive Writes (a : App) : Event → Write → Option Nat → Prop
  | profile (screen : Nat) (c : ProfileViewController) (hc : a.profiles[screen]? = some c)
    (write : Write) (hw : write ∈ (ProfileViewController.handleDismis c.form).getD []) :
    Writes a (.profile screen .save) write none
  | sources (screen : Nat) (c : SourcesViewController) (hc : a.sources[screen]? = some c) :
    Writes a (.sources screen .done) c.handleDismis (some screen)

/-- A part of a step. -/
inductive Act (a : App) : Event → App → Prop
  | today (date : Date) : Act a (.today date) { a with today := date }
  | receive (i : Nat) (o : Observer) (value : DataSnapshot)
    (bus : Bus Observer DataSnapshot) (hd : a.bus.deliver i = some (o, value, bus)) :
    Act a (.deliver i) ({ a with bus }.receive o value)
  | answer (accepted : Bool) (node : Replica Record Pending)
    (hn : a.node.answer Pending.apply accepted = some node) :
    Act a (.answer accepted) (a.update node)
  | remote (write : Write) :
    Act a (.remote write) (a.update { a.node with server := write.apply a.node.server })
  | write (e : Event) (write : Write) (completion : Option Nat)
    (hw : Writes a e write completion) : Act a e (a.setValue write completion)
  | response (request : Nat) (response : DataResponse NewsList) (c : HomeViewController)
    (hs : HomeViewController.step a.home (.response request response) = some c) :
    Act a (.response request response) (a.setHome c)
  | pull (hr : a.isRefreshing = false) :
    Act a .pull ({ a with isRefreshing := true }.observe .home)
  | menu (e : ContainerMenu.Event) (menu : ContainerMenu)
    (hs : ContainerMenu.step a.menu e = some menu) : Act a (.menu e) { a with menu }
  | present (e : Event) (screen : Screen) (he : e.opens = true) :
    Act a e (a.present screen)
  | closeNews (hp : a.presented = some .news) (hc : a.closing = false) : Act a .closeNews a.dismiss
  | dismissed (hc : a.closing = true) : Act a .dismissed a.dismissed
  /-- An action on a profile form that does not close it. -/
  | profile (screen : Nat) (e : ProfileViewController.Event)
    (c c' : ProfileViewController) (hc : a.profiles[screen]? = some c)
    (hs : ProfileViewController.step c e = some c') (hleft : c'.left = c.left) :
    Act a (.profile screen e) { a with profiles := a.profiles.set screen c' }
  | closeProfile (screen : Nat) (c c' : ProfileViewController)
    (hc : a.profiles[screen]? = some c) (hs : ProfileViewController.step c .save = some c')
    (hopen : c.left = false) (hleft : c'.left = true) :
    Act a (.profile screen .save) { a with profiles := a.profiles.set screen c' }.dismiss
  /-- An event of a Sources screen that does not close it. -/
  | sources (e : Event) (screen : Nat) (e' : SourcesViewController.Event)
    (c c' : SourcesViewController) (hc : a.sources[screen]? = some c)
    (hs : SourcesViewController.step c e' = some c')
    (hshown : c'.shown = .left ↔ c.shown = .left) :
    Act a e { a with sources := a.sources.set screen c' }
  | closeSources (e : Event) (screen : Nat) (e' : SourcesViewController.Event)
    (c c' : SourcesViewController) (hc : a.sources[screen]? = some c)
    (hs : SourcesViewController.step c e' = some c') (hopen : c.shown ≠ .left)
    (hleft : c'.shown = .left) : Act a e { a with sources := a.sources.set screen c' }.dismiss
  | observeSources (e : Event) (screen : Nat) (c : SourcesViewController)
    (hc : a.sources[screen]? = some c) (ho : c.observing = true) :
    Act a e (a.observe (.sources screen))

/-- A part of a step, before which nothing has trapped. -/
def Acts (e : Event) (a a' : App) : Prop := a.trapped = none ∧ Act a e a'

/-- Writes change only the record and what is on the way to the observers. -/
theorem setValues_frame (a : App) (writes : List Write) :
    ∃ node bus, a.setValues writes = { a with node, bus } := by
  induction writes generalizing a with
  | nil => exact ⟨a.node, a.bus, rfl⟩
  | cons w ws ih =>
    obtain ⟨node, bus, h⟩ := ih (a.setValue w none)
    exact ⟨node, bus, h⟩

theorem acts_setValues {a : App} {screen : Nat} {c : ProfileViewController} {writes : List Write}
    (ht : a.trapped = none) (hc : a.profiles[screen]? = some c)
    (hw : ∀ w ∈ writes, w ∈ (ProfileViewController.handleDismis c.form).getD []) :
    Relation.ReflTransGen (Acts (.profile screen .save)) a (a.setValues writes) := by
  induction writes generalizing a with
  | nil => exact .refl
  | cons w ws ih =>
    obtain ⟨hw, hws⟩ := List.forall_mem_cons.mp hw
    exact .head ⟨ht, .write _ w none (.profile screen c hc w hw)⟩
      (@ih (a.setValue w none) ht hc hws)

theorem acts_save {a : App} {screen : Nat} {c : ProfileViewController} {writes : List Write}
    (ht : a.trapped = none) (hc : a.profiles[screen]? = some c) (hopen : c.left = false)
    (hw : ProfileViewController.handleDismis c.form = some writes) :
    Relation.ReflTransGen (Acts (.profile screen .save)) a { a.setValues writes with
      profiles := a.profiles.set screen { c with left := true } }.dismiss := by
  have hwrites := @acts_setValues a screen c writes ht hc fun w h => by rw [hw]; exact h
  obtain ⟨node, bus, hframe⟩ := setValues_frame a writes
  have hs : ProfileViewController.step c .save = some { c with left := true } := by
    simp [ProfileViewController.step, hopen, hw]
  refine .tail hwrites ⟨by rw [hframe]; exact ht, ?_⟩
  have hclose := @Act.closeProfile (a.setValues writes) screen c _ (by rw [hframe]; exact hc) hs
    hopen rfl
  rw [hframe] at hclose ⊢
  exact hclose

/-- What closes a Sources screen: the button of the alert, and the success of a save. -/
def closesSources : SourcesViewController.Event → Bool
  | .ok | .saveAnswered false => true
  | _ => false

theorem shown_of_closes {c c' : SourcesViewController} {e : SourcesViewController.Event}
    (h : SourcesViewController.step c e = some c') (he : closesSources e = true) :
    c'.shown = .left ∧ (e = .ok → c.shown = .alert) := by
  cases e with
  | ok =>
    simp only [SourcesViewController.step] at h
    split at h
    · rename_i ha; cases h; exact ⟨rfl, fun _ => ha⟩
    · cases h
  | saveAnswered error =>
    cases error with
    | true => cases he
    | false =>
      simp only [SourcesViewController.step] at h
      split at h
      · cases h; exact ⟨rfl, fun h => by cases h⟩
      · cases h
  | _ => cases he

theorem shown_of_not_closes {c c' : SourcesViewController} {e : SourcesViewController.Event}
    (h : SourcesViewController.step c e = some c') (he : closesSources e = false) :
    c'.shown = .left ↔ c.shown = .left := by
  cases e with
  | done =>
    simp only [SourcesViewController.step] at h
    split at h
    · cases h; rfl
    · cases h
  | saveAnswered error =>
    cases error with
    | true =>
      simp only [SourcesViewController.step] at h
      split at h
      · cases h
        by_cases ht : c.shown = .table <;> simp [SourcesViewController.failedSaveUserSources, ht]
      · cases h
    | false => cases he
  | ok => cases he
  | tap row =>
    cases SourcesViewController.step_to h with
    | tap _ _ =>
      by_cases hm : row ∈ c.selected
      · rw [SourcesViewController.tap_of_mem hm]
      · rw [SourcesViewController.tap_of_not_mem hm]
    | other _ _ _ ho => simp at ho
  | _ =>
    cases SourcesViewController.step_to h with
    | other _ _ _ ho => simp at ho
    | _ => rfl

theorem acts_saveAnswered {a : App} {e : Event} (ht : a.trapped = none) (screen : Nat)
    (accepted : Bool) : Relation.ReflTransGen (Acts e) a (a.saveAnswered screen accepted) := by
  unfold saveAnswered
  split
  · exact .refl
  · rename_i c hc
    split
    · exact .refl
    · rename_i c' hs
      cases accepted with
      | true =>
        have hleft := (shown_of_closes hs rfl).1
        split
        · rename_i ho
          exact .single ⟨ht, .closeSources e screen _ c c' hc hs ho.2 hleft⟩
        · rename_i ho
          have hc' : c.shown = .left := by simpa using ho
          exact .single ⟨ht, .sources e screen _ c c' hc hs (iff_of_true hleft hc')⟩
      | false => exact .single ⟨ht, .sources e screen _ c c' hc hs (shown_of_not_closes hs rfl)⟩

theorem acts_sourcesAction {a : App} {screen : Nat} {e : SourcesViewController.Event}
    {c c' : SourcesViewController} (ht : a.trapped = none) (hc : a.sources[screen]? = some c)
    (hs : SourcesViewController.step c e = some c') (he : ∀ error, e ≠ .saveAnswered error) :
    Relation.ReflTransGen (Acts (.sources screen e)) a (a.sourcesAction screen e c') := by
  have hset : ({ a with sources := a.sources.set screen c' } : App).sources[screen]? = some c' :=
    List.getElem?_set_self (List.getElem?_eq_some_iff.mp hc).1
  cases hcloses : closesSources e with
  | true =>
    obtain ⟨hleft, halert⟩ := shown_of_closes hs hcloses
    cases e with
    | ok => exact .single ⟨ht, .closeSources _ screen _ c c' hc hs (by simp [halert rfl]) hleft⟩
    | saveAnswered error => exact (he error rfl).elim
    | _ => cases hcloses
  | false =>
    have hshown := shown_of_not_closes hs hcloses
    have hact := Act.sources (.sources screen e) screen e c c' hc hs hshown
    cases e with
    | allSources response =>
      simp only [sourcesAction]
      split
      · rename_i ho
        exact .tail (.single ⟨ht, hact⟩) ⟨ht, .observeSources _ screen _ hset ho⟩
      · exact .single ⟨ht, hact⟩
    | done =>
      exact .tail (.single ⟨ht, hact⟩) ⟨ht, .write _ _ _ (.sources screen c' hset)⟩
    | ok => cases hcloses
    | _ => exact .single ⟨ht, hact⟩

/-- A step is made of parts. -/
theorem step_acts {a a' : App} {e : Event} (h : step a e = some a') :
    Relation.ReflTransGen (Acts e) a a' := by
  obtain ⟨ht, hstep⟩ := step_to h
  cases hstep with
  | today date => exact .single ⟨ht, .today date⟩
  | receive i o value bus hd => exact .single ⟨ht, .receive i o value bus hd⟩
  | answer accepted node write hp hn => exact .single ⟨ht, .answer accepted node hn⟩
  | saveAnswered accepted node write screen hp hn =>
    exact .head ⟨ht, .answer accepted node hn⟩
      (@acts_saveAnswered (a.update node) _ ht screen accepted)
  | remote write => exact .single ⟨ht, .remote write⟩
  | response request response c hs => exact .single ⟨ht, .response request response c hs⟩
  | pull hp hr => exact .single ⟨ht, .pull hr⟩
  | newsRow row hp hr => exact .single ⟨ht, .present _ .news rfl⟩
  | closeNews hp hc => exact .single ⟨ht, .closeNews hp hc⟩
  | dismissed hc => exact .single ⟨ht, .dismissed hc⟩
  | menu e menu hp hs => exact .single ⟨ht, .menu e menu hs⟩
  | completion toggle menuOption menu hexit hs =>
    have hmenu : Relation.ReflTransGen (Acts (.menu (.completion toggle menuOption))) a
      { a with menu } := .single ⟨ht, .menu _ menu hs⟩
    unfold selectMenuOption
    split
    · exact .tail hmenu ⟨ht, .present _ .sources rfl⟩
    · exact .tail hmenu ⟨ht, .present _ .profile rfl⟩
    · exact hmenu
  | profile screen e c c' hc hs hopen hopen' =>
    exact .single ⟨ht, .profile screen e c c' hc hs (hopen'.trans hopen.symm)⟩
  | save screen c writes hc hopen hw => exact acts_save ht hc hopen hw
  | sources screen e c c' he hc hs => exact acts_sourcesAction ht hc hs he

theorem handleDismis_done {c c' : SourcesViewController}
    (h : SourcesViewController.step c .done = some c') : c'.handleDismis = c.handleDismis := by
  simp only [SourcesViewController.step] at h
  split at h
  · cases h; rfl
  · cases h

/-- A Done writes what the screen saves, and waits for the answer. -/
theorem step_done {a a' : App} {k : Nat} (h : step a (.sources k .done) = some a') :
    ∃ c c', a.sources[k]? = some c ∧
      a' = { a with sources := a.sources.set k c' }.setValue c.handleDismis (some k) := by
  cases (step_to h).2 with
  | sources _ _ c c' he hc hs => exact ⟨c, c', hc, by rw [← handleDismis_done hs]; rfl⟩

end App
end MyNews
