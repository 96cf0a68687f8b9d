import MyNews.App.Screens

/-!
# The app and the machines of its parts

* `container_act`, `home_act`: each part of a step is a run of the container's machine and a run of
  Home's.
* `Parts.act`: the menu, the profile forms and the Sources screens make steps of their machines.
* `app_refines`: so in every run of the app they are all as their own machines can leave them.
-/

namespace MyNews
namespace App

open OnlineRepository
open ProfileViewController (newYear2020)

/-! ## The container -/

/-- The completeness check has one observer. -/
def CheckedOnce (bus : Bus Observer DataSnapshot) : Prop := ∃ q, bus.queues .check = [q]

theorem CheckedOnce.register {bus : Bus Observer DataSnapshot} (h : CheckedOnce bus) {o : Observer}
    (ho : o ≠ .check) (value : DataSnapshot) : CheckedOnce (bus.register o value) := by
  obtain ⟨q, hq⟩ := h
  exact ⟨q, by rw [← hq, Bus.queues_register_of_ne ho]⟩

theorem CheckedOnce.send {bus : Bus Observer DataSnapshot} (h : CheckedOnce bus)
    (value : DataSnapshot) : CheckedOnce (bus.send value) := by
  obtain ⟨q, hq⟩ := h
  exact ⟨q ++ [value], by rw [Bus.queues_send, hq]; rfl⟩

theorem CheckedOnce.update {a : App} (h : CheckedOnce a.bus) (node : Replica Record Pending) :
    CheckedOnce (a.update node).bus := by
  simp only [App.update]
  split
  · exact h
  · exact h.send _

/-- What a delivery to the check does to its queue. -/
theorem queues_check_deliver {b b' : Bus Observer DataSnapshot} (h : CheckedOnce b) {i : Nat}
    {value : DataSnapshot} (hd : b.deliver i = some (.check, value, b')) :
    ∃ q, b.queues .check = [value :: q] ∧ b'.queues .check = [q] := by
  obtain ⟨q, hq⟩ := h
  obtain ⟨q', hq', rfl⟩ := Bus.deliver_eq_some.mp hd
  obtain ⟨j, hj, hs⟩ := Bus.queues_set (r := q') hq'
  rw [hq] at hj hs
  cases j with
  | zero => cases hj; exact ⟨q', hq, hs⟩
  | succ j => cases hj

theorem CheckedOnce.deliver {b b' : Bus Observer DataSnapshot} (h : CheckedOnce b) {i : Nat}
    {o : Observer} {value : DataSnapshot} (hd : b.deliver i = some (o, value, b')) :
    CheckedOnce b' := by
  by_cases ho : o = .check
  · subst ho
    obtain ⟨q, -, hq⟩ := queues_check_deliver h hd
    exact ⟨q, hq⟩
  · obtain ⟨q, hq⟩ := h
    exact ⟨q, by rw [Bus.queues_deliver_of_ne hd ho, hq]⟩

theorem container_observe (a : App) {o : Observer} (ho : o ≠ .check) :
    (a.observe o).container = a.container := by
  simp only [container, App.observe, Bus.queues_register_of_ne ho]

theorem load_frame (a : App) (screen : Screen) : (a.load screen).container = a.container ∧
    (CheckedOnce a.bus → CheckedOnce (a.load screen).bus) := by
  cases screen with
  | profile => exact ⟨container_observe _ (by simp), fun h => h.register (by simp) _⟩
  | sources => exact ⟨rfl, id⟩
  | news => exact ⟨rfl, id⟩

theorem CheckedOnce.present {a : App} (h : CheckedOnce a.bus) (screen : Screen) :
    CheckedOnce (a.present screen).bus := by
  unfold App.present
  split
  · exact (load_frame { a with presented := some screen } screen).2 h
  · exact h

theorem container_present (a : App) (screen : Screen) : (a.present screen).container =
    { a.container with presented := a.presented.or (some screen) } := by
  unfold App.present
  cases hp : a.presented with
  | none => rw [if_pos rfl, (load_frame _ screen).1]; rfl
  | some s => simp [container, hp]

/-- The block of the check is the one of the container. -/
theorem container_block (a : App) (value : DataSnapshot) :
    (a.block value).container = a.container.block value := by
  unfold block ContainerViewController.block
  cases isUserProfileEmpty value with
  | error field => rfl
  | ok isEmpty =>
    cases isEmpty with
    | none => rfl
    | some isEmpty =>
      cases isEmpty with
      | false => rfl
      | true => exact container_present _ _

theorem CheckedOnce.block {a : App} (h : CheckedOnce a.bus) (value : DataSnapshot) :
    CheckedOnce (a.block value).bus := by
  unfold App.block
  split
  · exact h
  · exact CheckedOnce.present (a := { a with
      profileSegues := a.profileSegues ++ [a.presented] }) h _
  · exact h

/-- A change of the view is a change of the record for the container. -/
theorem container_update {a : App} (h : CheckedOnce a.bus) (ht : a.trapped = none)
    (node : Replica Record Pending) :
    Machine.Reaches ContainerViewController.step a.container (a.update node).container := by
  obtain ⟨q, hq⟩ := h
  unfold App.update
  split
  · exact .refl _
  · refine .of_step (e := .change (node.view Pending.apply).snapshot) ?_
    simp [ContainerViewController.step, container, ht, Bus.queues_send, hq]

theorem container_dismissed {a : App} (ht : a.trapped = none) (hp : a.presented ≠ none) :
    Machine.Reaches ContainerViewController.step a.container a.dismissed.container := by
  refine .of_step (e := .closeScreen) ?_
  rw [App.dismissed, container_observe _ (by simp)]
  simp [ContainerViewController.step, container, ht, hp]

/-- A delivery to the check is one in the container's machine; the others do not concern it. -/
theorem container_receive {a : App} (h : CheckedOnce a.bus) (ht : a.trapped = none) {i : Nat}
    {o : Observer} {value : DataSnapshot} {bus : Bus Observer DataSnapshot}
    (hd : a.bus.deliver i = some (o, value, bus)) :
    Machine.Reaches ContainerViewController.step a.container
      (({ a with bus } : App).receive o value).container ∧
      CheckedOnce (({ a with bus } : App).receive o value).bus := by
  have hbus := h.deliver hd
  by_cases ho : o = .check
  · subst ho
    obtain ⟨q, hq, hq'⟩ := queues_check_deliver h hd
    refine ⟨.of_step (e := .deliver) ?_, CheckedOnce.block (a := { a with
      bus, received := a.received ++ [value] }) hbus value⟩
    rw [App.receive, container_block]
    simp [ContainerViewController.step, container, ht, hq, hq']
  · have hsame : (({ a with bus } : App).receive o value).container = a.container := by
      have hq := Bus.queues_deliver_of_ne hd ho
      cases o with
      | check => exact (ho rfl).elim
      | _ => simp [App.receive, container, hq, setHome]
    rw [hsame]
    refine ⟨.refl _, ?_⟩
    cases o with
    | check => exact (ho rfl).elim
    | _ => exact hbus

/-- Each part of a step is a run of the container's machine. -/
theorem container_act {a a' : App} {e : Event} (hs : Screens a) (hc : CheckedOnce a.bus)
    (h : Acts e a a') : Machine.Reaches ContainerViewController.step a.container a'.container ∧
      CheckedOnce a'.bus := by
  obtain ⟨ht, h⟩ := h
  cases h with
  | today date => exact ⟨.refl _, hc⟩
  | receive i o value bus hd => exact container_receive hc ht hd
  | answer accepted node hn => exact ⟨container_update hc ht _, hc.update _⟩
  | remote w => exact ⟨container_update hc ht _, hc.update _⟩
  | write _ w completion hw => exact ⟨container_update hc ht _, hc.update _⟩
  | response request response c hs => exact ⟨.refl _, hc⟩
  | pull hr => exact ⟨by rw [container_observe _ (by simp)]; exact .refl _, hc.register (by simp) _⟩
  | menu e menu hs => exact ⟨.refl _, hc⟩
  | present _ screen he =>
    refine ⟨?_, hc.present screen⟩
    rw [container_present]
    cases hp : a.presented with
    | none =>
      refine .of_step (e := .openScreen screen) ?_
      simp [ContainerViewController.step, container, ht, hp]
    | some s =>
      have hsame : { a.container with presented := (some s).or (some screen) } = a.container := by
        simp [container, hp]
      rw [hsame]
      exact .refl _
  | closeNews hp hclosing => exact ⟨.refl _, hc⟩
  | dismissed hclosing =>
    exact ⟨container_dismissed ht (hs.closing hclosing), hc.register (by simp) _⟩
  | profile screen e c c' hc' hs' hleft => exact ⟨.refl _, hc⟩
  | closeProfile screen c c' hc' hs' hopen hleft => exact ⟨.refl _, hc⟩
  | sources _ screen e' c c' hc' hs' hshown => exact ⟨.refl _, hc⟩
  | closeSources _ screen e' c c' hc' hs' hopen hleft => exact ⟨.refl _, hc⟩
  | observeSources _ screen c hc' ho =>
    exact ⟨by rw [container_observe _ (by simp)]; exact .refl _, hc.register (by simp) _⟩

/-! ## Home -/

theorem home_observe_self (a : App) : (a.observe .home).home = a.home.refresh := by
  rw [home, HomeViewController.refresh, home]
  simp only [App.observe, ← Bus.only_register_self]
  rfl

theorem home_observe_of_ne (a : App) {o : Observer} (ho : o ≠ .home) :
    (a.observe o).home = a.home := by
  rw [home, home]
  simp only [App.observe, Bus.only_register_of_ne ho]
  rfl

theorem snapshot_ne_view {a : App} {node : Replica Record Pending}
    (h : node.view Pending.apply ≠ a.view) :
    (node.view Pending.apply).snapshot ≠ a.view.snapshot := mt Record.snapshot_inj.mp h

/-- A change of the view is a change of the record for Home. -/
theorem home_update (a : App) (node : Replica Record Pending) : (a.update node).home =
    if node.view Pending.apply = a.view then a.home
    else { a.home with
      database := a.home.database.change (node.view Pending.apply).snapshot } := by
  rw [home, App.update]
  split
  · rename_i hv
    rw [home, ← hv]
    rfl
  · rename_i hv
    exact congrArg (fun database => (⟨database, a.requests, a.news, a.isRefreshing⟩ :
      HomeViewController)) (Bus.only_send a.bus .home (snapshot_ne_view hv))

theorem home_update_reaches (a : App) (node : Replica Record Pending) :
    Machine.Reaches HomeViewController.step a.home (a.update node).home := by
  rw [home_update]
  split
  · exact .refl _
  · rename_i hv
    exact .of_step (e := .change _) (if_neg (snapshot_ne_view hv))

theorem home_dismissed (a : App) :
    Machine.Reaches HomeViewController.step a.home a.dismissed.home := by
  rw [App.dismissed, home_observe_self]
  exact .of_step (e := .viewDidAppear) rfl

theorem home_present (a : App) (screen : Screen) : (a.present screen).home = a.home := by
  unfold App.present
  split
  · cases screen with
    | profile => exact home_observe_of_ne _ (by simp)
    | sources => rfl
    | news => rfl
  · rfl

theorem home_receive {a : App} {i : Nat} {o : Observer} {value : DataSnapshot}
    {bus : Bus Observer DataSnapshot} (hd : a.bus.deliver i = some (o, value, bus)) :
    Machine.Reaches HomeViewController.step a.home
      (({ a with bus } : App).receive o value).home := by
  by_cases ho : o = .home
  · subst ho
    obtain ⟨j, hj⟩ := Bus.only_deliver_self hd a.view.snapshot
    refine .of_step (e := .snapshot j) ?_
    simp only [HomeViewController.step, home, hj]
    rfl
  · have hbus : ({ a with bus } : App).home = a.home := by
      rw [home, home, Bus.only, Bus.queues_deliver_of_ne hd ho]
      rfl
    have hsame : (({ a with bus } : App).receive o value).home = ({ a with bus } : App).home := by
      cases o with
      | home => exact (ho rfl).elim
      | check =>
        simp only [App.receive, block]
        split
        · rfl
        · exact home_present _ _
        · rfl
      | _ => rfl
    rw [hsame, hbus]
    exact .refl _

/-- Each part of a step is a run of Home's machine. -/
theorem home_act {a a' : App} {e : Event} (h : Act a e a') :
    Machine.Reaches HomeViewController.step a.home a'.home := by
  cases h with
  | today date => exact .refl _
  | receive i o value bus hd => exact home_receive hd
  | answer accepted node hn => exact home_update_reaches _ _
  | remote w => exact home_update_reaches _ _
  | write _ w completion hw => exact home_update_reaches _ _
  | response request response c hs =>
    refine .of_step (e := .response request response) ?_
    rw [hs]
    cases HomeViewController.step_to hs with
    | refresh _ he => cases he
    | response _ _ _ _ _ _ _ => rfl
  | pull hr =>
    rw [home_observe_self]
    refine .of_step (e := .pull) ?_
    simp only [HomeViewController.step, home, hr, Bool.false_eq_true, ↓reduceIte]
    rfl
  | menu e menu hs => exact .refl _
  | present _ screen he => rw [home_present]; exact .refl _
  | closeNews hp hclosing => exact .refl _
  | dismissed hclosing => exact home_dismissed a
  | profile screen e c c' hc' hs' hleft => exact .refl _
  | closeProfile screen c c' hc' hs' hopen hleft => exact .refl _
  | sources _ screen e' c c' hc' hs' hshown => exact .refl _
  | closeSources _ screen e' c c' hc' hs' hopen hleft => exact .refl _
  | observeSources _ screen c hc' ho =>
    rw [home_observe_of_ne _ (by simp)]
    exact .refl _

/-! ## The profile forms and the Sources screens -/

/-- The form is one that the machine of the profile can leave. -/
def ProfileReached (c : ProfileViewController) : Prop :=
  ∃ today, Machine.Reaches ProfileViewController.step (ProfileViewController.viewDidLoad today) c

def SourcesReached (c : SourcesViewController) : Prop :=
  Machine.Reaches SourcesViewController.step SourcesViewController.viewDidLoad c

theorem ProfileReached.step {c c' : ProfileViewController} {e : ProfileViewController.Event}
    (h : ProfileReached c) (hs : ProfileViewController.step c e = some c') : ProfileReached c' := by
  obtain ⟨today, hr⟩ := h
  exact ⟨today, hr.trans (.of_step hs)⟩

theorem SourcesReached.step {c c' : SourcesViewController} {e : SourcesViewController.Event}
    (h : SourcesReached c) (hs : SourcesViewController.step c e = some c') : SourcesReached c' :=
  Machine.Reaches.trans h (.of_step hs)

theorem observing_step {c c' : SourcesViewController} {e : SourcesViewController.Event}
    (h : SourcesViewController.step c e = some c') (ho : c.observing = true) :
    c'.observing = true := by
  cases SourcesViewController.step_to h with
  | catalogue response list hr hl => rfl
  | tap row hm =>
    by_cases hsel : row ∈ c.selected
    · rw [SourcesViewController.tap_of_mem hsel]; exact ho
    · rw [SourcesViewController.tap_of_not_mem hsel]; exact ho
  | other _ _ hsame _ => obtain ⟨-, -, -, h, -⟩ := hsame; rw [h]; exact ho
  | _ => exact ho

/-- The screens and the menu are as their machines can leave them, and a Sources screen has an
observer only once it is `observing`. -/
structure Parts (a : App) : Prop where
  menu : Machine.Reaches ContainerMenu.step ContainerMenu.viewDidLoad a.menu
  profiles : ∀ c ∈ a.profiles, ProfileReached c
  sources : ∀ c ∈ a.sources, SourcesReached c
  observing : ∀ k, .sources k ∈ a.bus.observers.map Prod.fst →
    ∃ c, a.sources[k]? = some c ∧ c.observing = true

theorem Parts.congr {a : App} (h : Parts a) (a' : App) (hmenu : a'.menu = a.menu)
    (hprofiles : a'.profiles = a.profiles) (hsources : a'.sources = a.sources)
    (hbus : ∀ k, .sources k ∈ a'.bus.observers.map Prod.fst →
      .sources k ∈ a.bus.observers.map Prod.fst) : Parts a' :=
  ⟨by rw [hmenu]; exact h.menu, by rw [hprofiles]; exact h.profiles,
    by rw [hsources]; exact h.sources,
    fun k hk => by rw [hsources]; exact h.observing k (hbus k hk)⟩

theorem Parts.update {a : App} (h : Parts a) (node : Replica Record Pending) :
    Parts (a.update node) := by
  refine h.congr _ rfl rfl rfl fun k hk => ?_
  simp only [App.update] at hk
  split at hk
  · exact hk
  · rwa [Bus.labels_send] at hk

theorem Parts.observe {a : App} (h : Parts a) {o : Observer} (ho : ∀ k, o ≠ .sources k) :
    Parts (a.observe o) := by
  refine h.congr _ rfl rfl rfl fun k hk => ?_
  rcases Bus.mem_labels_register.mp hk with hk | hk
  · exact hk
  · exact (ho k hk.symm).elim

theorem Parts.present {a : App} (h : Parts a) (screen : Screen) : Parts (a.present screen) := by
  unfold App.present
  split
  · cases screen with
    | profile =>
      have hload : Parts { a with
          presented := some .profile
          profiles := a.profiles ++ [ProfileViewController.viewDidLoad a.today] } := by
        refine ⟨h.menu, fun c hc => ?_, h.sources, h.observing⟩
        rcases List.mem_append.mp hc with hc | hc
        · exact h.profiles c hc
        · rw [List.mem_singleton.mp hc]; exact ⟨a.today, .refl _⟩
      exact hload.observe (by simp)
    | sources =>
      refine ⟨h.menu, h.profiles, ?_, ?_⟩
      · intro c hc
        rcases List.mem_append.mp hc with hc | hc
        · exact h.sources c hc
        · rw [List.mem_singleton.mp hc]; exact .refl _
      · intro k hk
        obtain ⟨c, hc, ho⟩ := h.observing k hk
        exact ⟨c, List.getElem?_append_left (List.getElem?_eq_some_iff.mp hc).1 ▸ hc, ho⟩
    | news => exact h.congr _ rfl rfl rfl fun _ hk => hk
  · exact h

/-- A profile form makes a step of its machine. -/
theorem Parts.setProfile {a : App} (h : Parts a) {k : Nat} {c c' : ProfileViewController}
    (hc : a.profiles[k]? = some c) {e : ProfileViewController.Event}
    (hs : ProfileViewController.step c e = some c') :
    Parts { a with profiles := a.profiles.set k c' } := by
  refine ⟨h.menu, fun x hx => ?_, h.sources, h.observing⟩
  rcases List.mem_or_eq_of_mem_set hx with hx | rfl
  · exact h.profiles x hx
  · exact (h.profiles c (List.mem_of_getElem? hc)).step hs

/-- A Sources screen makes a step of its machine. -/
theorem Parts.setSources {a : App} (h : Parts a) {k : Nat} {c c' : SourcesViewController}
    (hc : a.sources[k]? = some c) {e : SourcesViewController.Event}
    (hs : SourcesViewController.step c e = some c') :
    Parts { a with sources := a.sources.set k c' } := by
  refine ⟨h.menu, h.profiles, fun x hx => ?_, fun j hj => ?_⟩
  · rcases List.mem_or_eq_of_mem_set hx with hx | rfl
    · exact h.sources x hx
    · exact (h.sources c (List.mem_of_getElem? hc)).step hs
  · obtain ⟨x, hx, ho⟩ := h.observing j hj
    by_cases hkj : k = j
    · subst hkj
      rw [hc, Option.some.injEq] at hx
      subst hx
      exact ⟨c', List.getElem?_set_self (List.getElem?_eq_some_iff.mp hc).1, observing_step hs ho⟩
    · exact ⟨x, by rw [List.getElem?_set_ne hkj]; exact hx, ho⟩

theorem Parts.receive {a : App} (h : Parts a) {i : Nat} {o : Observer} {value : DataSnapshot}
    {bus : Bus Observer DataSnapshot} (hd : a.bus.deliver i = some (o, value, bus)) :
    Parts (({ a with bus } : App).receive o value) := by
  have hbus : Parts { a with bus } :=
    h.congr _ rfl rfl rfl fun _ hk => by rwa [Bus.labels_deliver hd] at hk
  cases o with
  | check =>
    simp only [App.receive, block]
    split
    · exact hbus.congr _ rfl rfl rfl fun _ hk => hk
    · exact (hbus.congr { a with
        bus, received := a.received ++ [value], profileSegues := a.profileSegues ++ [a.presented] }
        rfl rfl rfl fun _ hk => hk).present .profile
    · exact hbus.congr _ rfl rfl rfl fun _ hk => hk
  | home => exact hbus.congr _ rfl rfl rfl fun _ hk => hk
  | profile screen =>
    simp only [App.receive]
    rcases a.profiles.modify_cases screen (fun c => { c with
      form := ProfileViewController.configureUserInfo c.form value }) with he | ⟨c, hc, he⟩
    · rw [he]; exact hbus
    · rw [he]; exact hbus.setProfile hc (e := .snapshot value) rfl
  | sources screen =>
    simp only [App.receive]
    obtain ⟨c, hc, ho⟩ := h.observing screen (Bus.mem_labels_of_deliver hd)
    rcases a.sources.modify_cases screen (fun c =>
      c.userSourcesDone (SourcesViewModel.parseUserSources (getUserSources value)))
      with he | ⟨c', hc', he⟩
    · rw [he]; exact hbus
    · rw [hc, Option.some.injEq] at hc'
      subst hc'
      rw [he]
      exact hbus.setSources hc (e := .snapshot value) (if_pos ho)

theorem Parts.act {a a' : App} {e : Event} (h : Parts a) (hact : Act a e a') : Parts a' := by
  cases hact with
  | today date => exact h.congr _ rfl rfl rfl fun _ hk => hk
  | receive i o value bus hd => exact h.receive hd
  | answer accepted node hn => exact h.update node
  | remote w => exact h.update _
  | write _ w completion hw => exact h.update _
  | response request response c hs => exact h.congr _ rfl rfl rfl fun _ hk => hk
  | pull hr =>
    exact (h.congr { a with isRefreshing := true } rfl rfl rfl fun _ hk => hk).observe (by simp)
  | menu e menu hs => exact ⟨h.menu.trans (.of_step hs), h.profiles, h.sources, h.observing⟩
  | present _ screen he => exact h.present screen
  | closeNews hp hclosing => exact h.congr _ rfl rfl rfl fun _ hk => hk
  | dismissed hclosing =>
    exact (h.congr { a with presented := none, closing := false } rfl rfl rfl
      fun _ hk => hk).observe (by simp)
  | profile screen e c c' hc hs hleft => exact h.setProfile hc hs
  | closeProfile screen c c' hc hs hopen hleft =>
    exact (h.setProfile hc hs).congr _ rfl rfl rfl fun _ hk => hk
  | sources _ screen e' c c' hc hs hshown => exact h.setSources hc hs
  | closeSources _ screen e' c c' hc hs hopen hleft =>
    exact (h.setSources hc hs).congr _ rfl rfl rfl fun _ hk => hk
  | observeSources _ screen c hc ho =>
    refine ⟨h.menu, h.profiles, h.sources, fun k hk => ?_⟩
    rcases Bus.mem_labels_register.mp hk with hk | hk
    · exact h.observing k hk
    · cases hk; exact ⟨c, hc, ho⟩

/-! ## Runs -/

/-- What holds of the parts of the app between each other. -/
structure Sound (a : App) : Prop where
  screens : Screens a
  checked : CheckedOnce a.bus
  parts : Parts a

theorem Sound.act {a a' : App} {e : Event} (h : Sound a) (hact : Acts e a a') : Sound a' :=
  ⟨h.screens.act hact.2, (container_act h.screens h.checked hact).2, h.parts.act hact.2⟩

theorem sound_enter (node : Replica Record Pending) (today : Date) : Sound (enter node today) where
  screens := screens_enter node today
  checked := ⟨_, Bus.queues_register_of_ne (by simp) _ _⟩
  parts := ⟨.refl _, fun _ h => (nomatch h), fun _ h => (nomatch h), fun k hk => by
    simp [enter, observe, Bus.register] at hk⟩

/-- The parts of the app are as their own machines can leave them. -/
structure Refines (value : DataSnapshot) (a : App) : Prop where
  container : Machine.Reaches ContainerViewController.step
    (ContainerViewController.viewDidLoad value) a.container
  home : Machine.Reaches HomeViewController.step (HomeViewController.viewDidLoad value).refresh
    a.home
  menu : Machine.Reaches ContainerMenu.step ContainerMenu.viewDidLoad a.menu
  profiles : ∀ c ∈ a.profiles, ProfileReached c
  sources : ∀ c ∈ a.sources, SourcesReached c

theorem refines_enter (node : Replica Record Pending) (today : Date) :
    Refines (node.view Pending.apply).snapshot (enter node today) where
  container := by rw [enter, container_observe _ (by simp)]; exact .refl _
  home := by rw [enter, home_observe_self]; exact .refl _
  menu := .refl _
  profiles _ h := by cases h
  sources _ h := by cases h

theorem refines_run {node : Replica Record Pending} {today : Date} {es : List Event} {t : App}
    (hrun : Machine.run step (enter node today) es = some t) :
    Refines (node.view Pending.apply).snapshot t ∧ Sound t := by
  refine Machine.run_invariant_of_parts (A := Acts)
    (I := fun a => Refines (node.view Pending.apply).snapshot a ∧ Sound a)
    (fun _ _ _ h => step_acts h) ?_ hrun ⟨refines_enter node today, sound_enter node today⟩
  rintro e - a a' hact ⟨href, hsound⟩
  have hsound' := hsound.act hact
  exact ⟨⟨href.container.trans (container_act hsound.screens hsound.checked hact).1,
    href.home.trans (home_act hact.2), hsound'.parts.menu, hsound'.parts.profiles,
    hsound'.parts.sources⟩, hsound'⟩

/-- For every run of the app, whatever its order: the container, Home, the menu and every screen
that was opened are in states of their own machines; and of the profile forms and the Sources
screens only the presented one is open, and no more once the segue back from it is performed. -/
theorem app_refines {node : Replica Record Pending} {today : Date} {es : List Event} {t : App}
    (hrun : Machine.run step (enter node today) es = some t) :
    Refines (node.view Pending.apply).snapshot t ∧ Screens t :=
  ⟨(refines_run hrun).1, (refines_run hrun).2.screens⟩

/-- A new account: the form opens by itself, and the user saves it empty. -/
theorem app_refines_opened :
    ∃ t, Machine.run step (enter ⟨postInfo, []⟩ newYear2020) [.deliver 0, .profile 0 .save] =
      some t ∧ Refines postInfo.snapshot t ∧ Screens t :=
  ⟨_, rfl, @app_refines ⟨postInfo, []⟩ newYear2020 [.deliver 0, .profile 0 .save] _ rfl⟩

end App
end MyNews
