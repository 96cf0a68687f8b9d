import MyNews.App.Record
import MyNews.Home.Feed

/-!
# The news requests of a save

* `homeObservers_run`: every refresh of Home leaves one more observer.
* `save_requests`: a save of the profile form makes each of them request the news once for each
  field that is new.
-/

namespace MyNews
namespace App

open OnlineRepository
open ProfileViewController (newYear2020)

/-! ## The observers of Home -/

/-- The number of observers of Home. -/
def homeObservers (a : App) : Nat := (a.bus.observers.map Prod.fst).count .home

/-- The event makes Home refresh. -/
def Event.refreshes : Event → Bool
  | pull | dismissed => true
  | _ => false

theorem home_database_queues (a : App) : a.home.database.queues.length = a.homeObservers :=
  Bus.length_queues _ _

theorem homeObservers_observe_home (a : App) :
    (a.observe .home).homeObservers = a.homeObservers + 1 := by
  simp [homeObservers, App.observe, Bus.register]

theorem homeObservers_observe_of_ne (a : App) {o : Observer} (ho : o ≠ .home) :
    (a.observe o).homeObservers = a.homeObservers := by
  simp [homeObservers, App.observe, Bus.register, ho]

theorem homeObservers_update (a : App) (node : Replica Record Pending) :
    (a.update node).homeObservers = a.homeObservers := by
  simp only [homeObservers, App.update]
  split
  · rfl
  · rw [Bus.labels_send]

theorem homeObservers_present (a : App) (screen : Screen) :
    (a.present screen).homeObservers = a.homeObservers := by
  unfold App.present
  split
  · cases screen with
    | profile => exact homeObservers_observe_of_ne _ (by simp)
    | sources => rfl
    | news => rfl
  · rfl

theorem homeObservers_receive (a : App) (o : Observer) (value : DataSnapshot) :
    (a.receive o value).homeObservers = a.homeObservers := by
  cases o with
  | check =>
    simp only [App.receive, block]
    split
    · rfl
    · exact homeObservers_present _ .profile
    · rfl
  | _ => rfl

/-- Home gets an observer with each refresh, and else none. -/
theorem homeObservers_act {a a' : App} {e : Event} (he : e.refreshes = false) (hact : Act a e a') :
    a'.homeObservers = a.homeObservers := by
  cases hact with
  | receive i o value bus hd =>
    rw [homeObservers_receive, homeObservers, Bus.labels_deliver hd]
    rfl
  | answer accepted node hn => exact homeObservers_update _ _
  | remote w => exact homeObservers_update _ _
  | write _ w completion hw => exact homeObservers_update _ _
  | pull hr => cases he
  | present _ screen ho => exact homeObservers_present _ _
  | dismissed hclosing => cases he
  | observeSources _ screen c hc ho => exact homeObservers_observe_of_ne _ (by simp)
  | _ => rfl

theorem homeObservers_step {a a' : App} {e : Event} (h : step a e = some a') :
    a'.homeObservers = a.homeObservers + (if e.refreshes = true then 1 else 0) := by
  cases he : e.refreshes with
  | false =>
    have hparts := step_acts h
    clear h
    simp only [Bool.false_eq_true, ↓reduceIte, Nat.add_zero]
    induction hparts with
    | refl => rfl
    | tail _ hact ih => exact (homeObservers_act he hact.2).trans ih
  | true =>
    rw [if_pos rfl]
    cases (step_to h).2 with
    | pull hp hr => exact homeObservers_observe_home _
    | dismissed hclosing => exact homeObservers_observe_home _
    | _ => cases he

/-- Home has an observer for its first appearance, for each pull and for each segue back. -/
theorem homeObservers_run {node : Replica Record Pending} {today : Date} {es : List Event} {t : App}
    (hrun : Machine.run step (enter node today) es = some t) :
    t.homeObservers = 1 + es.countP Event.refreshes := by
  refine Machine.run_history (I := fun es a => a.homeObservers = 1 + es.countP Event.refreshes) rfl
    ?_ hrun
  intro es e m m' _ ih hstep
  rw [homeObservers_step hstep, ih, List.countP_append, List.countP_singleton]
  omega

/-! ## What a save costs -/

theorem requestsDue_refresh (c : HomeViewController) :
    c.refresh.requestsDue = c.requestsDue + 1 := by
  have hp := Observed.pending_observe c.database
  simp only [HomeViewController.requestsDue, HomeViewController.refresh, hp]
  omega

theorem requestsDue_pull (a : App) :
    (({ a with isRefreshing := true } : App).observe .home).home.requestsDue =
      a.home.requestsDue + 1 := by
  rw [home_observe_self]
  exact requestsDue_refresh _

theorem requestsDue_dismissed (a : App) :
    a.dismissed.home.requestsDue = a.home.requestsDue + 1 := by
  rw [App.dismissed, home_observe_self]
  exact requestsDue_refresh _

/-- The writes that change the record, one after the other. -/
def changesOf (record : Record) : List Write → Nat
  | [] => 0
  | w :: ws => (if w.apply record = record then 0 else 1) + changesOf (w.apply record) ws

/-- A change of the view is sent to each observer of Home. -/
theorem requestsDue_update (a : App) (node : Replica Record Pending) :
    (a.update node).home.requestsDue = a.home.requestsDue +
      if node.view Pending.apply = a.view then 0 else a.homeObservers := by
  rw [home_update]
  split
  · rfl
  · rename_i hv
    have hp := Observed.pending_change (o := a.home.database) (snapshot_ne_view hv)
    rw [home_database_queues] at hp
    simp only [HomeViewController.requestsDue, hp]
    omega

theorem requestsDue_setValues (a : App) (writes : List Write) :
    (a.setValues writes).home.requestsDue =
      a.home.requestsDue + changesOf a.view writes * a.homeObservers := by
  induction writes generalizing a with
  | nil => simp [setValues, changesOf]
  | cons w ws ih =>
    have hrest := ih (a.setValue w none)
    have hview : (a.node.write ⟨w, none⟩).view Pending.apply = w.apply a.view :=
      Replica.view_write _
    have hview' : (a.setValue w none).view = w.apply a.view := hview
    rw [hview', setValue, homeObservers_update, requestsDue_update, hview] at hrest
    refine hrest.trans ?_
    rw [changesOf, Nat.add_mul, ← Nat.add_assoc]
    split <;> simp

theorem changesOf_child (record : Record) (field : Field) (s : Str) (ws : List Write) :
    changesOf record (.child field s :: ws) =
      (if record field = some (.string s) then 0 else 1) +
        changesOf ((Write.child field s).apply record) ws := by
  have h : (Write.child field s).apply record = record ↔ record field = some (.string s) := by
    rw [Write.apply, Function.update_eq_self_iff, eq_comm]
  rw [changesOf, if_congr h rfl rfl]

/-- The form has a text for the field that the record does not have. -/
def isNew (record : Record) (form : ProfileViewController.Form) (field : Field) : Bool :=
  !decide (record field = some (.string (form.text field)))

theorem ite_isNew (record : Record) (form : ProfileViewController.Form) (field : Field) :
    (if isNew record form field = true then 1 else 0) =
      if record field = some (.string (form.text field)) then 0 else 1 := by
  simp only [isNew, Bool.not_eq_true', decide_eq_false_iff_not, ite_not]

/-- The writes of a save that change the record: one for each field whose text is new. -/
theorem changesOf_save {form : ProfileViewController.Form} {writes : List Write}
    (h : ProfileViewController.handleDismis form = some writes) (record : Record) :
    changesOf record writes = ProfileViewController.savedFields.countP (isNew record form) := by
  obtain ⟨-, rfl⟩ := ProfileViewController.handleDismis_eq_some h
  simp only [ProfileViewController.savedFields, List.countP_cons, List.countP_nil, ite_isNew]
  simp only [changesOf_child]
  simp only [changesOf, Write.apply_child_self, Write.apply_child_of_ne, ne_eq, reduceCtorEq,
    not_false_eq_true, ↓reduceIte, ProfileViewController.Form.text]
  split_ifs <;> simp [*]

/-- A part of a step is a run of Home, which takes back no request that is due. -/
theorem requestsDue_act {a a' : App} {e : Event} (hact : Act a e a') :
    a.home.requestsDue ≤ a'.home.requestsDue := by
  obtain ⟨hes, hhome⟩ := home_act hact
  have := HomeViewController.requestsDue_run hhome
  omega

theorem requestsDue_step {a a' : App} {e : Event} (h : step a e = some a') :
    a.home.requestsDue + (if e.refreshes = true then 1 else 0) ≤ a'.home.requestsDue := by
  cases he : e.refreshes with
  | false =>
    have hparts := step_acts h
    clear h
    simp only [Bool.false_eq_true, ↓reduceIte, Nat.add_zero]
    induction hparts with
    | refl => exact Nat.le_refl _
    | tail _ hact ih => exact ih.trans (requestsDue_act hact.2)
  | true =>
    rw [if_pos rfl]
    cases (step_to h).2 with
    | pull hp hr => exact Nat.le_of_eq (requestsDue_pull a).symm
    | dismissed hclosing => exact Nat.le_of_eq (requestsDue_dismissed a).symm
    | _ => cases he

theorem requestsDue_run {es : List Event} {s t : App} (hrun : Machine.run step s es = some t) :
    s.home.requestsDue + es.countP Event.refreshes ≤ t.home.requestsDue := by
  induction es generalizing s with
  | nil => cases hrun; exact Nat.le_refl _
  | cons e es ih =>
    obtain ⟨m, hm, hr⟩ := Option.bind_eq_some_iff.mp hrun
    have hstep := requestsDue_step hm
    have hrest := ih hr
    rw [List.countP_cons]
    omega

theorem requestsDue_of_received {t : App} (h : t.bus.Drained) :
    t.home.requestsDue = t.requests.length := by
  have hdrained : t.home.database.Drained := Bus.drained_only h _ _
  rw [HomeViewController.requestsDue, Observed.drained_iff_pending.mp hdrained]
  rfl

/-- For every run of the app: a save that `checkInfo` accepts makes one news request due for each
field whose text is new and each refresh of Home so far (the first appearance, every pull and every
end of a segue back). It performs the segue back, and the end of a segue back makes one more due.
All of them are issued once every snapshot is received. -/
theorem save_requests {node : Replica Record Pending} {today : Date} {es : List Event} {s s' : App}
    {k : Nat} {c : ProfileViewController} {writes : List Write}
    (hrun : Machine.run step (enter node today) es = some s) (hc : s.profiles[k]? = some c)
    (hw : ProfileViewController.handleDismis c.form = some writes)
    (hsave : step s (.profile k .save) = some s') :
    s'.home.requestsDue = s.home.requestsDue +
        ProfileViewController.savedFields.countP (isNew s.view c.form) *
          (1 + es.countP Event.refreshes) ∧
      (∃ s'', step s' .dismissed = some s'') ∧
      (∀ m m', step m .dismissed = some m' → m'.home.requestsDue = m.home.requestsDue + 1) ∧
      ∀ post t, Machine.run step s' post = some t → t.bus.Drained →
        s'.home.requestsDue + post.countP Event.refreshes ≤ t.requests.length := by
  have hsaved : ∃ c', s' = ({ s.setValues writes with
      profiles := s.profiles.set k c' } : App).dismiss := by
    cases (step_to hsave).2 with
    | profile _ _ x x' hx hs hopen hopen' =>
      rw [hc, Option.some.injEq] at hx
      subst hx
      have hclosed := (profile_save hs).2
      rw [hw] at hclosed
      rw [hclosed] at hopen'
      cases hopen'
    | save _ x ws hx hopen hws =>
      rw [hc, Option.some.injEq] at hx
      subst hx
      rw [hw, Option.some.injEq] at hws
      subst hws
      exact ⟨_, rfl⟩
  obtain ⟨c', rfl⟩ := hsaved
  refine ⟨?_, ?_, fun m m' hm => ?_, fun post t hpost hreceived => ?_⟩
  · have hset := requestsDue_setValues s writes
    rw [changesOf_save hw, homeObservers_run hrun] at hset
    exact hset
  · obtain ⟨node', bus, hframe⟩ := setValues_frame s writes
    refine ⟨_, if_pos ?_⟩
    rw [hframe]
    exact (step_to hsave).1
  · cases (step_to hm).2 with
    | dismissed hclosing => exact requestsDue_dismissed m
  · rw [← requestsDue_of_received hreceived]
    exact requestsDue_run hpost

/-- The first save of a new account: four texts are new, and Home has appeared once. -/
theorem save_requests_filling : ∃ s s',
    Machine.run step (enter registered newYear2020) filling = some s ∧
      step s (.profile 0 .save) = some s' ∧
      s'.home.requestsDue = s.home.requestsDue + 4 * (1 + 0) ∧
      (∃ s'', step s' .dismissed = some s'') ∧
      (∀ m m', step m .dismissed = some m' → m'.home.requestsDue = m.home.requestsDue + 1) ∧
      ∀ post t, Machine.run step s' post = some t → t.bus.Drained →
        s'.home.requestsDue + post.countP Event.refreshes ≤ t.requests.length :=
  ⟨_, _, rfl, rfl, @save_requests registered newYear2020 filling _ _ 0 _ _ rfl rfl rfl rfl⟩

end App
end MyNews
