import MyNews.App.Record
import MyNews.Home.Feed
import MyNews.Home.Request

/-!
# From a save to the news

* `NodeTo`, `node_step`: what a step does to the record.
* `home_fresh`: once everything is answered and delivered, Home has asked for the sources that the
  server has, whatever was rejected on the way.
* `done_reaches_home`: so Home has asked for the sources of the last Done.
* `news_of_server`: and Home shows the news of these sources, if the last request is the one that
  succeeded last.
-/

namespace MyNews
namespace App

open OnlineRepository
open ProfileViewController (newYear2020)

/-! ## The record -/

/-- What a step does to the record. -/
inductive NodeTo (a : App) : Event → Replica Record Pending → Prop
  | same (e : Event) : NodeTo a e a.node
  | answer (accepted : Bool) (node : Replica Record Pending)
    (hn : a.node.answer Pending.apply accepted = some node) : NodeTo a (.answer accepted) node
  | remote (w : Write) : NodeTo a (.remote w) { a.node with server := w.apply a.node.server }
  | save (screen : Nat) (form : ProfileViewController.Form) (writes : List Write)
    (hw : ProfileViewController.handleDismis form = some writes) :
    NodeTo a (.profile screen .save)
      { a.node with pending := a.node.pending ++ writes.map (⟨·, none⟩) }
  | done (screen : Nat) (c : SourcesViewController) (hc : a.sources[screen]? = some c) :
    NodeTo a (.sources screen .done) (a.node.write ⟨c.handleDismis, some screen⟩)

theorem node_present (a : App) (screen : Screen) : (a.present screen).node = a.node := by
  unfold App.present
  split
  · cases screen <;> rfl
  · rfl

theorem node_receive (a : App) (o : Observer) (value : DataSnapshot) :
    (a.receive o value).node = a.node := by
  cases o with
  | check =>
    simp only [App.receive, block]
    split
    · rfl
    · exact node_present _ _
    · rfl
  | _ => rfl

theorem node_saveAnswered (a : App) (screen : Nat) (accepted : Bool) :
    (a.saveAnswered screen accepted).node = a.node := by
  unfold saveAnswered
  split
  · rfl
  · split
    · rfl
    · simp only
      split <;> rfl

theorem node_setValues (a : App) (writes : List Write) : (a.setValues writes).node =
    { a.node with pending := a.node.pending ++ writes.map (⟨·, none⟩) } := by
  induction writes generalizing a with
  | nil => simp [setValues]
  | cons w ws ih =>
    have h := ih (a.setValue w none)
    simpa [setValues, setValue, App.update, Replica.write] using h

theorem node_step {a a' : App} {e : Event} (h : step a e = some a') : NodeTo a e a'.node := by
  cases (step_to h).2 with
  | receive i o value bus hd => rw [node_receive]; exact .same _
  | answer accepted node write hp hn => exact .answer accepted node hn
  | saveAnswered accepted node write screen hp hn =>
    rw [node_saveAnswered]
    exact .answer accepted node hn
  | remote w => exact .remote w
  | newsRow row hp hr => rw [node_present]; exact .same _
  | completion toggle menuOption menu hexit hs =>
    unfold selectMenuOption
    split
    · rw [node_present]; exact .same _
    · rw [node_present]; exact .same _
    · exact .same _
  | save screen c writes hc hopen hw =>
    simp only [App.dismiss, node_setValues]
    exact .save screen c.form writes hw
  | sources screen e c c' he hc hs =>
    cases e with
    | done =>
      have hdone := NodeTo.done screen c hc
      rw [← handleDismis_done hs] at hdone
      exact hdone
    | allSources response =>
      simp only [sourcesAction]
      split <;> exact .same _
    | _ => exact .same _
  | _ => exact .same _

/-! ## The sources in the record -/

/-- The event writes the sources. -/
def SetsSources : Event → Prop
  | .sources _ .done => True
  | .remote w => w.sets .userSources ≠ none
  | _ => False

/-- The event rejects a write of the sources. -/
def RejectsSources (a : App) : Event → Prop
  | .answer false => ∃ p, a.node.pending.head? = some p ∧ p.write.sets .userSources ≠ none
  | _ => False

/-- A child of the view is what the last pending write of it has set, or what the server has. -/
theorem view_field (node : Replica Record Pending) (field : Field) : node.view Pending.apply field =
    ((node.pending.filterMap (·.write.sets field)).getLast?).getD (node.server field) := by
  have h : node.view Pending.apply =
      Write.applyAll (node.pending.map Pending.write) node.server := by
    rw [Write.applyAll, List.foldl_map]
    rfl
  rw [h, Write.applyAll_eq, List.filterMap_map]
  rfl

/-- A save of the profile form does not set the sources. -/
theorem sets_save {form : ProfileViewController.Form} {writes : List Write}
    (h : ProfileViewController.handleDismis form = some writes) :
    ∀ w ∈ writes, w.sets .userSources = none := by
  intro w hw
  obtain ⟨field, hf, rfl⟩ := (ProfileViewController.mem_handleDismis h).mp hw
  simp only [ProfileViewController.savedFields, List.mem_cons, List.not_mem_nil, or_false] at hf
  rcases hf with rfl | rfl | rfl | rfl <;> rfl

/-- Only writes of the sources and their rejections change the sources in the view. -/
theorem view_sources_step {a a' : App} {e : Event} (h : step a e = some a') (hset : ¬ SetsSources e)
    (hreject : ¬ RejectsSources a e) : a'.view .userSources = a.view .userSources := by
  have hnode := node_step h
  rw [App.view, App.view]
  generalize a'.node = node at hnode
  cases hnode with
  | same => rfl
  | answer accepted node hn =>
    cases accepted with
    | true => rw [Replica.view_accept hn]
    | false =>
      obtain ⟨p, ps, hp, rfl⟩ := Replica.answer_eq_some.mp hn
      have hnone : p.write.sets .userSources = none := by
        by_contra hne
        exact hreject ⟨p, by rw [hp]; rfl, hne⟩
      rw [view_field, view_field, hp]
      simp [hnone]
  | remote w =>
    have hnone : w.sets .userSources = none := by
      by_contra hne
      exact hset hne
    have hserver : w.apply a.node.server .userSources = a.node.server .userSources := by
      rw [Write.apply_eq, hnone]
      rfl
    rw [view_field, view_field]
    exact congrArg _ hserver
  | save screen form writes hw =>
    have hnone : (writes.map fun w => (⟨w, none⟩ : Pending)).filterMap
        (·.write.sets .userSources) = [] := by
      rw [List.filterMap_eq_nil_iff]
      intro p hp
      obtain ⟨w, hw', rfl⟩ := List.mem_map.mp hp
      exact sets_save hw w hw'
    rw [view_field, view_field, List.filterMap_append, hnone, List.append_nil]
  | done screen c hc => exact (hset trivial).elim

/-! ## What Home asks for -/

/-- Home after its first refresh has asked, or will ask when everything is delivered. -/
theorem one_le_requestsDue {value : DataSnapshot} {c : HomeViewController}
    (h : Machine.Reaches HomeViewController.step (HomeViewController.viewDidLoad value).refresh c) :
    HomeViewController.Asked c ∧ 1 ≤ c.requestsDue := by
  obtain ⟨es, hrun⟩ := h
  have hstart : HomeViewController.step (HomeViewController.viewDidLoad value) .viewDidAppear =
    some (HomeViewController.viewDidLoad value).refresh := rfl
  refine ⟨Machine.run_invariant (fun e _ s s' hi hs => HomeViewController.Asked.step hi hs) hrun
    ((HomeViewController.asked_viewDidLoad value).step hstart), ?_⟩
  have hdue := HomeViewController.requestsDue_run hrun
  have hone : (HomeViewController.viewDidLoad value).refresh.requestsDue = 1 := rfl
  omega

theorem view_of_answered {node : Replica Record Pending} (h : node.pending = []) :
    node.view Pending.apply = node.server := by
  rw [Replica.view, h]
  rfl

/-- Once every write is answered and every snapshot is received, Home has asked. -/
theorem exists_last_request {node : Replica Record Pending} {today : Date} {es : List Event}
    {t : App} (hrun : Machine.run step (enter node today) es = some t)
    (hreceived : t.bus.Drained) : ∃ q, t.requests.getLast? = some q := by
  obtain ⟨-, hdue⟩ := one_le_requestsDue (refines_run hrun).1.home
  have hdrained : t.home.database.Drained := Bus.drained_only hreceived _ _
  have hlength : 1 ≤ t.requests.length := by
    rwa [HomeViewController.requestsDue, Observed.drained_iff_pending.mp hdrained] at hdue
  have hne : t.requests ≠ [] := by
    intro h0
    rw [h0] at hlength
    cases hlength
  exact ⟨t.requests.getLast hne, List.getLast?_eq_some_getLast hne⟩

/-- And the last request is for the sources that the server has. -/
theorem sources_of_last_request {node : Replica Record Pending} {today : Date} {es : List Event}
    {t : App} (hrun : Machine.run step (enter node today) es = some t) (hreceived : t.bus.Drained)
    (hanswered : t.node.pending = []) {q : NewsRequest} (hq : t.requests.getLast? = some q) :
    q.sources = HomeViewController.userSources (getUserSources t.node.server.snapshot) := by
  obtain ⟨hasked, -⟩ := one_le_requestsDue (refines_run hrun).1.home
  have hlast := hasked.last (Bus.drained_only hreceived _ _) q.sources (by
    rw [home, List.getLast?_map, hq]
    rfl)
  rw [hlast]
  show HomeViewController.userSources (getUserSources t.view.snapshot) = _
  rw [App.view, view_of_answered hanswered]

/-- For every run of the app: once every write is answered and every snapshot is received, the
request that Home has issued last is for the sources that the server has, or for the built-in ones
if it has none. -/
theorem home_fresh {node : Replica Record Pending} {today : Date} {es : List Event} {t : App}
    (hrun : Machine.run step (enter node today) es = some t) (hreceived : t.bus.Drained)
    (hanswered : t.node.pending = []) : ∃ q, t.requests.getLast? = some q ∧
      q.sources = HomeViewController.userSources (getUserSources t.node.server.snapshot) := by
  obtain ⟨q, hq⟩ := exists_last_request hrun hreceived
  exact ⟨q, hq, sources_of_last_request hrun hreceived hanswered hq⟩

/-- A new account: the form is saved, the server rejects the name, and another device saves its
sources. Then everything is received. -/
def settling : List Event :=
  filling ++ [.profile 0 .save, .dismissed, .answer false, .answer true, .answer true, .answer true,
    .answer true, .remote (SourcesViewModel.saveUserSources [Str.of "cnn"])] ++
    List.replicate 6 (.deliver 0) ++ List.replicate 7 (.deliver 1) ++
    List.replicate 7 (.deliver 2) ++ List.replicate 3 (.deliver 3) ++ [.deliver 4]

theorem home_fresh_settling : ∃ t,
    Machine.run step (enter registered newYear2020) settling = some t ∧
      ∃ q, t.requests.getLast? = some q ∧
        q.sources = HomeViewController.userSources (getUserSources t.node.server.snapshot) := by
  refine ⟨_, rfl, ?_⟩
  exact @home_fresh registered newYear2020 settling _ rfl (by decide) rfl

theorem getUserSources_of_string {record : Record} {s : Str}
    (h : record .userSources = some (.string s)) : getUserSources record.snapshot = s := by
  have hne : record.isEmpty = false := by
    rw [Bool.eq_false_iff]
    intro he
    rw [Record.isEmpty_iff.mp he] at h
    cases h
  rw [getUserSources, Record.dick_snapshot, hne, Record.string?_eq_some.mpr h]
  rfl

/-- For every run of the app: if after a Done no device writes the sources again and the server
rejects no write of them, then once every write is answered and every snapshot is received, the
request that Home has issued last is for the string that the Done saved. -/
theorem done_reaches_home {node : Replica Record Pending} {today : Date} {pre post : List Event}
    {s s' t : App} {k : Nat} {c : SourcesViewController}
    (hpre : Machine.run step (enter node today) pre = some s) (hc : s.sources[k]? = some c)
    (hdone : step s (.sources k .done) = some s') (hpost : Machine.run step s' post = some t)
    (hset : ∀ e ∈ post, ¬ SetsSources e)
    (hreject : ∀ x ∈ Machine.steps step s' post, ¬ RejectsSources x.1 x.2)
    (hreceived : t.bus.Drained) (hanswered : t.node.pending = []) :
    t.node.server .userSources = some (.string c.saved) ∧
      ∃ q, t.requests.getLast? = some q ∧ q.sources = HomeViewController.userSources c.saved := by
  have hview' : s'.view .userSources = some (.string c.saved) := by
    obtain ⟨x, c', hx, rfl⟩ := step_done hdone
    rw [hc, Option.some.injEq] at hx
    subst hx
    refine (congrFun (Replica.view_write _) _).trans ?_
    exact Write.apply_child_self _ _ _
  have hview : t.view .userSources = some (.string c.saved) := by
    refine Machine.run_invariant_of_steps
      (I := fun a => a.view .userSources = some (.string c.saved)) hpost ?_ hview'
    rintro ⟨a, e⟩ hx a' ha hs
    obtain ⟨pre', post', rfl, -⟩ := Machine.mem_steps.mp hx
    rw [view_sources_step hs (hset e (by simp)) (hreject (a, e) hx)]
    exact ha
  rw [App.view, view_of_answered hanswered] at hview
  have hrun : Machine.run step (enter node today) (pre ++ .sources k .done :: post) = some t :=
    Machine.run_append_eq_some.mpr ⟨s, hpre, by rw [Machine.run_cons, hdone]; exact hpost⟩
  obtain ⟨q, hq⟩ := exists_last_request hrun hreceived
  have hsources := sources_of_last_request hrun hreceived hanswered hq
  exact ⟨hview, q, hq, by rw [hsources, getUserSources_of_string hview]⟩

/-- The Sources screen is opened from the menu, and the source of its catalogue is selected. -/
def selecting : List Event :=
  [.menu .menuButton, .menu (.row 0), .menu (.completion 1 (some .sources)),
    .sources 0 SourcesViewController.sampleAnswer, .deliver 2, .sources 0 (.cellForRowAt 0),
    .sources 0 (.tap 0)]

/-- The server accepts the save, and everything is received. -/
def saved : List Event :=
  [.answer true, .dismissed, .deliver 0, .deliver 0, .deliver 1, .deliver 1, .deliver 2, .deliver 3,
    .deliver 4]

theorem done_reaches_home_selecting : ∃ s s' t c,
    Machine.run step (enter registered newYear2020) selecting = some s ∧
      s.sources[0]? = some c ∧ step s (.sources 0 .done) = some s' ∧
      Machine.run step s' saved = some t ∧
      t.node.server .userSources = some (.string c.saved) ∧
      ∃ q, t.requests.getLast? = some q ∧ q.sources = HomeViewController.userSources c.saved := by
  refine ⟨_, _, _, _, rfl, rfl, rfl, rfl, ?_⟩
  refine @done_reaches_home registered newYear2020 selecting saved _ _ _ 0 _ rfl rfl rfl rfl ?_ ?_
    (by decide) rfl
  · simp [saved, SetsSources]
  · rintro ⟨a, e⟩ hx hreject
    obtain ⟨before, after, hes, -⟩ := Machine.mem_steps.mp hx
    have he : e ∈ saved := by rw [hes]; simp
    simp only [saved, List.mem_cons, List.not_mem_nil, or_false] at he
    rcases he with rfl | rfl | rfl | rfl | rfl | rfl | rfl | rfl | rfl <;> exact hreject

/-! ## What Home shows -/

/-- The request and the list of a successful response. -/
def Event.success? : Event → Option (Nat × NewsList)
  | response request r => (HomeViewController.Event.response request r).success?
  | _ => none

theorem news_present (a : App) (screen : Screen) : (a.present screen).news = a.news := by
  unfold App.present
  split
  · cases screen <;> rfl
  · rfl

theorem news_receive (a : App) (o : Observer) (value : DataSnapshot) :
    (a.receive o value).news = a.news := by
  cases o with
  | check =>
    simp only [App.receive, block]
    split
    · rfl
    · exact news_present _ _
    · rfl
  | _ => rfl

theorem news_saveAnswered (a : App) (screen : Nat) (accepted : Bool) :
    (a.saveAnswered screen accepted).news = a.news := by
  unfold saveAnswered
  split
  · rfl
  · split
    · rfl
    · simp only
      split <;> rfl

/-- The articles change with a successful response only. -/
theorem news_step {a a' : App} {e : Event} (h : step a e = some a') :
    a'.news = (e.success?.map fun x => x.2.articles).getD a.news := by
  cases (step_to h).2 with
  | receive i o value bus hd => exact news_receive _ _ _
  | saveAnswered accepted node write screen hp hn => exact news_saveAnswered _ _ _
  | response request response c hs =>
    cases HomeViewController.step_to hs with
    | refresh _ he => cases he
    | response _ _ sources list hr hl b =>
      simp only [setHome, Event.success?, HomeViewController.Event.success?, hl]
      cases list <;> rfl
  | newsRow row hp hr => exact news_present _ _
  | completion toggle menuOption menu hexit hs =>
    unfold selectMenuOption
    split
    · exact news_present _ _
    · exact news_present _ _
    · rfl
  | save screen c writes hc hopen hw =>
    obtain ⟨node, bus, hframe⟩ := setValues_frame a writes
    simp only [App.dismiss, hframe]
    rfl
  | sources screen e c c' he hc hs =>
    cases e with
    | allSources response =>
      simp only [sourcesAction]
      split <;> rfl
    | _ => rfl
  | _ => rfl

/-- An answered request stays as it is. -/
theorem requests_kept {c c' : HomeViewController} {e : HomeViewController.Event}
    (h : HomeViewController.step c e = some c') {i : Nat} {sources : Str} {list : Option NewsList}
    (hi : c.requests[i]? = some ⟨sources, some list⟩) :
    c'.requests[i]? = some ⟨sources, some list⟩ := by
  cases HomeViewController.step_to h with
  | refresh _ _ _ => exact hi
  | change value hv => exact hi
  | snapshot observer value database hd =>
    exact (List.getElem?_append_left (List.getElem?_eq_some_iff.mp hi).1).trans hi
  | response j r sources' list' hr hl b =>
    have hj : j ≠ i := by
      rintro rfl
      rw [hi] at hr
      cases hr
    exact (List.getElem?_set_ne hj).trans hi

theorem requests_kept_run {es : List Event} {s t : App} (hrun : Machine.run step s es = some t)
    {i : Nat} {sources : Str} {list : Option NewsList}
    (hi : s.requests[i]? = some ⟨sources, some list⟩) :
    t.requests[i]? = some ⟨sources, some list⟩ := by
  refine Machine.run_invariant_of_parts (A := Acts)
    (I := fun a => a.requests[i]? = some ⟨sources, some list⟩) (fun _ _ _ h => step_acts h) ?_ hrun
    hi
  rintro e - a a' hact ha
  obtain ⟨hes, hhome⟩ := home_act hact.2
  exact Machine.run_invariant (I := fun c : HomeViewController =>
    c.requests[i]? = some ⟨sources, some list⟩) (fun _ _ _ _ hc hs => requests_kept hs hc) hhome ha

/-- For every run of the app, once every write is answered and every snapshot is received: if the
successful response that arrives last is that of the last request, Home shows its articles, and they
are for the sources that the server has. -/
theorem news_of_server {node : Replica Record Pending} {today : Date} {pre post : List Event}
    {t : App} {request : Nat} {r : DataResponse NewsList} {list : NewsList}
    (hrun : Machine.run step (enter node today) (pre ++ .response request r :: post) = some t)
    (hr : getNews r = some (some list)) (hlast : ∀ e ∈ post, e.success? = none)
    (hreceived : t.bus.Drained) (hanswered : t.node.pending = [])
    (hrequest : request + 1 = t.requests.length) :
    t.news = list.articles ∧ t.requests.getLast? = some
      ⟨HomeViewController.userSources (getUserSources t.node.server.snapshot),
        some (some list)⟩ := by
  obtain ⟨s, -, hs⟩ := Machine.run_append_eq_some.mp hrun
  obtain ⟨s', hstep, hpost⟩ := Option.bind_eq_some_iff.mp hs
  have hnews : s'.news = list.articles := by
    rw [news_step hstep]
    simp [Event.success?, HomeViewController.Event.success?, hr]
  have hasked : ∃ sources, s'.requests[request]? = some ⟨sources, some (some list)⟩ := by
    cases (step_to hstep).2 with
    | response _ _ c hc =>
      cases HomeViewController.step_to hc with
      | refresh _ he => cases he
      | response _ _ sources list' hq hl b =>
        rw [hr, Option.some.injEq] at hl
        subst hl
        exact ⟨sources, List.getElem?_set_self (List.getElem?_eq_some_iff.mp hq).1⟩
  obtain ⟨sources, hq⟩ := hasked
  have hget : t.requests.getLast? = some ⟨sources, some (some list)⟩ := by
    rw [List.getLast?_eq_getElem?, ← hrequest, Nat.add_sub_cancel]
    exact requests_kept_run hpost hq
  refine ⟨?_, ?_⟩
  · refine Machine.run_invariant (I := fun a => a.news = list.articles) ?_ hpost hnews
    intro e he a a' ha hs
    rw [news_step hs, hlast e he]
    exact ha
  · rw [hget, ← sources_of_last_request hrun hreceived hanswered hget]

/-- Home gets the news of the other device's sources; an earlier request fails. -/
theorem news_of_server_settling : ∃ t,
    Machine.run step (enter registered newYear2020) (settling ++
      .response 9 ⟨some (some (HomeViewController.sampleNews "a")), false⟩ ::
        [.response 0 ⟨none, true⟩]) = some t ∧
      t.news = (HomeViewController.sampleNews "a").articles ∧ t.requests.getLast? = some
        ⟨HomeViewController.userSources (getUserSources t.node.server.snapshot),
          some (some (HomeViewController.sampleNews "a"))⟩ := by
  refine ⟨_, rfl, ?_⟩
  exact @news_of_server registered newYear2020 settling [.response 0 ⟨none, true⟩] _ 9
    ⟨some (some (HomeViewController.sampleNews "a")), false⟩ _ rfl rfl (by decide) (by decide) rfl
    rfl

end App
end MyNews
