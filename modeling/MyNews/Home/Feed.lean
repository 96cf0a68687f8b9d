import MyNews.Home.Controller

/-!
# The requests and the articles of the Home screen

* `requests_add_pending`: how many requests a run issues: one for each refresh and, for each
  change, one for each refresh before it.
* `newsRequests_le_iff`: when these are at most the refreshes and the changes.
* `Asked.step`: the request that was issued last is about the current record, once everything is
  delivered.
* `news_run`: the articles are those of the successful response that arrived last.
* `latest_response_shown`: so they are those of the last request if its response arrived last.
-/

namespace MyNews
namespace HomeViewController

open OnlineRepository

/-! ## The number of requests -/

/-- The refreshes of a run. -/
def refreshes (es : List Event) : Nat := es.countP Event.isRefresh

/-- The changes of a run. -/
def changes (es : List Event) : Nat := es.countP Event.isChange

/-- The sum over the changes of a run of the observers at the change, if there are `observers`
before the run. -/
def fanOut (observers : Nat) : List Event → Nat
  | [] => 0
  | e :: es =>
    (if e.isChange then observers else 0) + fanOut (observers + if e.isRefresh then 1 else 0) es

/-- The requests that are issued, and the snapshots on the way, each of which will issue one. -/
def requestsDue (c : HomeViewController) : Nat := c.requests.length + c.database.pending

@[simp] theorem requestsDue_viewDidLoad (value : DataSnapshot) :
    (viewDidLoad value).requestsDue = 0 := rfl

/-- What an event adds to the observers and to the requests. -/
theorem requestsDue_step {c c' : HomeViewController} {e : Event} (h : step c e = some c') :
    c'.database.queues.length = c.database.queues.length + (if e.isRefresh then 1 else 0) ∧
      c'.requestsDue = c.requestsDue + (if e.isRefresh then 1 else 0) +
        (if e.isChange then c.database.queues.length else 0) := by
  cases step_to h with
  | refresh e he b =>
    have hc : e.isChange = false := by cases e <;> first | rfl | cases he
    have hp := Observed.pending_observe c.database
    simp only [requestsDue, he, hc, Observed.queues_length_observe]
    simp
    omega
  | change value hv =>
    have hp := Observed.pending_change hv
    simp only [requestsDue, Event.isRefresh, Event.isChange, Observed.queues_length_change]
    simp
    omega
  | snapshot i value database hd =>
    have hp := Observed.pending_deliver hd
    obtain ⟨-, hq⟩ := Observed.deliver_frame hd
    simp [requestsDue, Event.isRefresh, Event.isChange, hq]
    omega
  | response i r sources list hr hl b =>
    simp [requestsDue, Event.isRefresh, Event.isChange]

/-- The observers after a run: each refresh adds one. -/
theorem observers_run {s t : HomeViewController} {es : List Event}
    (h : Machine.run step s es = some t) :
    t.database.queues.length = s.database.queues.length + refreshes es := by
  induction es generalizing s with
  | nil => cases h; rfl
  | cons e es ih =>
    obtain ⟨m, hm, hr⟩ := Option.bind_eq_some_iff.mp h
    rw [ih hr, (requestsDue_step hm).1, refreshes, refreshes, List.countP_cons]
    omega

/-- One request for each refresh and, for each change, one for each observer. -/
theorem requestsDue_run {s t : HomeViewController} {es : List Event}
    (h : Machine.run step s es = some t) :
    t.requestsDue = s.requestsDue + refreshes es + fanOut s.database.queues.length es := by
  induction es generalizing s with
  | nil => cases h; rfl
  | cons e es ih =>
    obtain ⟨m, hm, hr⟩ := Option.bind_eq_some_iff.mp h
    obtain ⟨hq, hd⟩ := requestsDue_step hm
    rw [ih hr, hd, hq, refreshes, refreshes, List.countP_cons, fanOut]
    omega

/-- The requests of a run from the start: those that are due are issued or on the way. -/
theorem requests_add_pending {value : DataSnapshot} {es : List Event} {t : HomeViewController}
    (h : Machine.run step (viewDidLoad value) es = some t) :
    t.requests.length + t.database.pending = refreshes es + fanOut 0 es := by
  have := requestsDue_run h
  rwa [requestsDue_viewDidLoad, Nat.zero_add] at this

/-- One refresh and one change each cause at most one request: the requests of the run are at most
its refreshes and changes, and no event adds more than one to those that are due. -/
def OneEach (value : DataSnapshot) (es : List Event) (t : HomeViewController) : Prop :=
  t.requests.length ≤ refreshes es + changes es ∧
    ∀ x ∈ Machine.steps step (viewDidLoad value) es, ∀ c', step x.1 x.2 = some c' →
      c'.requestsDue ≤ x.1.requestsDue + 1

/-- No change comes after a second refresh. -/
def ChangesEarly (es : List Event) : Prop :=
  ∀ pre value post, es = pre ++ .change value :: post → refreshes pre ≤ 1

theorem fanOut_le_changes {observers : Nat} {es : List Event}
    (h : ∀ pre value post, es = pre ++ .change value :: post → observers + refreshes pre ≤ 1) :
    fanOut observers es ≤ changes es := by
  induction es generalizing observers with
  | nil => exact Nat.le_refl _
  | cons e es ih =>
    have hrest : fanOut (observers + if e.isRefresh then 1 else 0) es ≤ changes es := by
      refine ih fun pre value post he => ?_
      have := h (e :: pre) value post (by rw [he]; rfl)
      rw [refreshes, List.countP_cons] at this
      rw [refreshes]
      omega
    rw [fanOut, changes, List.countP_cons]
    rw [changes] at hrest
    cases e with
    | change value =>
      have := h [] value es rfl
      simp only [Event.isChange, ↓reduceIte] at hrest ⊢
      omega
    | _ => simpa [Event.isChange] using hrest

/-- What an event of a run adds to the requests: one if it is a refresh, and one for each refresh
before it if it is a change. -/
theorem requestsDue_event {value : DataSnapshot} {pre : List Event} {m c' : HomeViewController}
    {e : Event} (hm : Machine.run step (viewDidLoad value) pre = some m)
    (h : step m e = some c') :
    c'.requestsDue = m.requestsDue + (if e.isRefresh then 1 else 0) +
      (if e.isChange then refreshes pre else 0) := by
  have hobs := observers_run hm
  simp only [viewDidLoad, Observed.unobserved, List.length_nil, Nat.zero_add] at hobs
  rw [(requestsDue_step h).2, hobs]

theorem changesEarly_of_oneEach {value : DataSnapshot} {es : List Event} {t : HomeViewController}
    (hrun : Machine.run step (viewDidLoad value) es = some t) (hone : OneEach value es t) :
    ChangesEarly es := by
  rintro pre v post rfl
  obtain ⟨m, hm, hr⟩ := Machine.run_append_eq_some.mp hrun
  obtain ⟨m', hm', -⟩ := Option.bind_eq_some_iff.mp hr
  have hle : m'.requestsDue ≤ m.requestsDue + 1 :=
    hone.2 (m, .change v) (Machine.mem_steps.mpr ⟨pre, post, rfl, hm⟩) m' hm'
  have hadd := requestsDue_event hm hm'
  simp only [Event.isRefresh, Event.isChange, Bool.false_eq_true, ↓reduceIte] at hadd
  omega

theorem oneEach_of_changesEarly {value : DataSnapshot} {es : List Event} {t : HomeViewController}
    (hrun : Machine.run step (viewDidLoad value) es = some t) (hearly : ChangesEarly es) :
    OneEach value es t := by
  constructor
  · have hsum := requests_add_pending hrun
    have : fanOut 0 es ≤ changes es :=
      fanOut_le_changes fun pre v post he => by rw [Nat.zero_add]; exact hearly pre v post he
    omega
  · rintro ⟨m, e⟩ hx c' hc'
    obtain ⟨pre, post, rfl, hm⟩ := Machine.mem_steps.mp hx
    have hadd := requestsDue_event hm hc'
    show c'.requestsDue ≤ m.requestsDue + 1
    cases e with
    | change v =>
      have := hearly pre v post rfl
      simp only [Event.isRefresh, Event.isChange, Bool.false_eq_true, ↓reduceIte] at hadd
      omega
    | _ => simp [Event.isRefresh, Event.isChange] at hadd; omega

/-- For every run of the Home screen: one refresh and one change each cause at most one request
iff no change comes after a second refresh. Once every snapshot is received, the number of
requests is at most that of the refreshes and changes iff the observers at the changes are, in
sum, at most the changes. -/
theorem newsRequests_le_iff {value : DataSnapshot} {es : List Event} {t : HomeViewController}
    (hrun : Machine.run step (viewDidLoad value) es = some t) :
    (OneEach value es t ↔ ChangesEarly es) ∧
      (t.database.Drained →
        (t.requests.length ≤ refreshes es + changes es ↔ fanOut 0 es ≤ changes es)) := by
  refine ⟨⟨changesEarly_of_oneEach hrun, oneEach_of_changesEarly hrun⟩, fun hdrained => ?_⟩
  have hsum := requests_add_pending hrun
  rw [Observed.drained_iff_pending.mp hdrained] at hsum
  omega

/-- The screen is entered, left and entered again, and then another device saves a name and a phone
number. -/
def entered : List Event :=
  [.viewDidAppear, .snapshot 0, .viewDidAppear, .snapshot 1,
    .change ((Write.child .userName (Str.of "A")).apply postInfo).snapshot, .snapshot 0,
    .snapshot 1, .change ((Write.child .userMobile (Str.of "1")).apply
      ((Write.child .userName (Str.of "A")).apply postInfo)).snapshot, .snapshot 0, .snapshot 1]

theorem newsRequests_le_iff_entered :
    ∃ t, Machine.run step (viewDidLoad postInfo.snapshot) entered = some t ∧
      (OneEach postInfo.snapshot entered t ↔ ChangesEarly entered) ∧
      (t.database.Drained →
        (t.requests.length ≤ refreshes entered + changes entered ↔
          fanOut 0 entered ≤ changes entered)) :=
  ⟨_, rfl, newsRequests_le_iff rfl⟩

/-- Two refreshes and two changes cause six requests. -/
theorem not_newsRequests_le_entered :
    ∃ t, Machine.run step (viewDidLoad postInfo.snapshot) entered = some t ∧
      refreshes entered = 2 ∧ changes entered = 2 ∧ t.requests.length = 6 ∧
      ¬ t.requests.length ≤ refreshes entered + changes entered := by
  refine ⟨_, rfl, rfl, rfl, rfl, ?_⟩
  decide

/-! ## What the requests are about -/

/-- The request that was issued last is about the current record, once everything is delivered. -/
structure Asked (c : HomeViewController) : Prop where
  upToDate : c.database.UpToDate
  unobserved : c.database.queues = [] → c.requests = []
  last : c.database.Drained → ∀ s, (c.requests.map NewsRequest.sources).getLast? = some s →
    s = userSources (getUserSources c.database.value)

theorem asked_viewDidLoad (value : DataSnapshot) : Asked (viewDidLoad value) where
  upToDate := Observed.upToDate_unobserved value
  unobserved _ := rfl
  last _ s h := by cases h

/-- An answer leaves what the requests are about. -/
theorem map_sources_set {requests : List NewsRequest} {i : Nat} {sources : Str}
    {a b : Option (Option NewsList)} (h : requests[i]? = some ⟨sources, a⟩) :
    (requests.set i ⟨sources, b⟩).map NewsRequest.sources =
      requests.map NewsRequest.sources := by
  induction requests generalizing i with
  | nil => cases h
  | cons q qs ih =>
    cases i with
    | zero => cases h; rfl
    | succ i => rw [List.set_cons_succ, List.map_cons, List.map_cons, ih h]

theorem Asked.step {c c' : HomeViewController} {e : Event} (h : Asked c)
    (hs : HomeViewController.step c e = some c') : Asked c' := by
  cases step_to hs with
  | refresh e _ _ =>
    refine ⟨h.upToDate.observe, fun h0 => ?_, fun hd => ?_⟩
    · simp [Observed.observe] at h0
    · exact (Observed.not_drained_observe _ hd).elim
  | change value hv =>
    refine ⟨Observed.upToDate_change hv, fun h0 => ?_, fun hd s hl => ?_⟩
    · exact h.unobserved (by simpa [Observed.change_of_ne hv] using h0)
    · -- With an observer the change is on the way; without one there is no request.
      have hreq := h.unobserved (Observed.queues_eq_nil_of_drained_change hv hd)
      simp only [hreq] at hl
      cases hl
  | snapshot i value database hd =>
    refine ⟨h.upToDate.deliver hd, fun h0 => ?_, fun hdrained s hl => ?_⟩
    · obtain ⟨q, hq, rfl⟩ := Observed.deliver_eq_some.mp hd
      have hlt := (List.getElem?_eq_some_iff.mp hq).1
      have hnil : c.database.queues = [] := by simpa using h0
      simp [hnil] at hlt
    · have hv := h.upToDate.eq_value hd hdrained
      simp only [List.map_append, List.map_cons, List.map_nil, List.getLast?_concat] at hl
      rw [← Option.some.inj hl, hv]
  | response i r sources list hr hl b =>
    refine ⟨h.upToDate, fun h0 => ?_, fun hd s hs => ?_⟩
    · have hlt := (List.getElem?_eq_some_iff.mp hr).1
      simp [h.unobserved h0] at hlt
    · rw [map_sources_set hr] at hs
      exact h.last hd s hs

/-! ## What the screen shows -/

/-- The successful responses of a run with their requests, in the order in which they arrive. -/
def successes (es : List Event) : List (Nat × NewsList) := es.filterMap Event.success?

theorem successes_concat (es : List Event) (e : Event) :
    successes (es ++ [e]) = successes es ++ e.success?.toList :=
  Machine.filterMap_concat _ _ _

/-- The articles are those of the last successful response. -/
theorem news_run {value : DataSnapshot} {es : List Event} {t : HomeViewController}
    (hrun : Machine.run step (viewDidLoad value) es = some t) :
    t.news = ((successes es).getLast?.map fun x => x.2.articles).getD [] := by
  have hstep : ∀ c e c', step c e = some c' →
      c'.news = (e.success?.map fun x => x.2.articles).getD c.news := by
    intro c e c' hs
    cases step_to hs with
    | refresh e he _ => cases e <;> first | rfl | cases he
    | change value hv => rfl
    | snapshot i value database hd => rfl
    | response i r sources list hr hl b => cases list <;> simp [Event.success?, hl]
  rw [Machine.run_getLast? hstep hrun, ← List.map_filterMap, List.getLast?_map]
  rfl

/-- The successful responses of a run are those that its requests have. -/
def Answered (es : List Event) (c : HomeViewController) : Prop :=
  ∀ i list, (i, list) ∈ successes es ↔
    ∃ sources, c.requests[i]? = some ⟨sources, some (some list)⟩

/-- An event that is no successful response leaves those that the requests have. -/
theorem Answered.frame {c c' : HomeViewController} {es : List Event} {e : Event}
    (h : Answered es c) (he : e.success? = none)
    (hr : ∀ (i : Nat) (sources : Str) (list : NewsList),
      c'.requests[i]? = some ⟨sources, some (some list)⟩ ↔
        c.requests[i]? = some ⟨sources, some (some list)⟩) : Answered (es ++ [e]) c' := by
  intro i list
  rw [successes_concat, he, Option.toList_none, List.append_nil, h]
  simp only [hr]

/-- The successful responses that the requests have once request `i` is answered. -/
theorem getElem?_set_answer {requests : List NewsRequest} {i : Nat} {sources : Str}
    (h : requests[i]? = some ⟨sources, none⟩) (answer : Option NewsList) (j : Nat) (s : Str)
    (list : NewsList) :
    (requests.set i ⟨sources, some answer⟩)[j]? = some ⟨s, some (some list)⟩ ↔
      (j = i ∧ s = sources ∧ answer = some list) ∨
        requests[j]? = some ⟨s, some (some list)⟩ := by
  by_cases hj : j = i
  · subst hj
    rw [List.getElem?_set_self (List.getElem?_eq_some_iff.mp h).1, h]
    simp [eq_comm]
  · rw [List.getElem?_set_ne (Ne.symm hj)]
    simp [hj]

theorem Answered.step {c c' : HomeViewController} {es : List Event} {e : Event}
    (h : Answered es c) (hs : HomeViewController.step c e = some c') :
    Answered (es ++ [e]) c' := by
  cases step_to hs with
  | refresh e he _ =>
    refine h.frame ?_ fun i sources list => Iff.rfl
    cases e <;> first | rfl | cases he
  | change value hv => exact h.frame rfl fun i sources list => Iff.rfl
  | snapshot i value database hd =>
    refine h.frame rfl fun j sources list => ?_
    rw [List.getElem?_append]
    split
    · rfl
    · rename_i hj
      rw [List.getElem?_eq_none (by omega : c.requests.length ≤ j)]
      simp [List.getElem?_singleton]
  | response i r sources list hr hl b =>
    cases list with
    | none =>
      refine h.frame (by simp [Event.success?, hl]) fun j s list => ?_
      rw [getElem?_set_answer hr]
      simp
    | some list =>
      have he : (Event.response i r).success? = some (i, list) := by simp [Event.success?, hl]
      intro j list'
      rw [successes_concat, he, Option.toList_some, List.mem_append, h]
      simp only [getElem?_set_answer hr, List.mem_singleton, Prod.mk.injEq, Option.some.injEq]
      constructor
      · rintro (⟨s, h1⟩ | ⟨h1, h2⟩)
        · exact ⟨s, .inr h1⟩
        · exact ⟨sources, .inl ⟨h1, rfl, h2.symm⟩⟩
      · rintro ⟨s, ⟨h1, -, h2⟩ | h1⟩
        · exact .inr ⟨h1, h2.symm⟩
        · exact .inl ⟨s, h1⟩

/-- For every run of the Home screen that ends with nothing outstanding, if the request that was
issued last has succeeded: it is about the current record, and the articles are those of the
successful response that arrived last; if this is the response to that request, they are those of
the request. -/
theorem latest_response_shown {value : DataSnapshot} {es : List Event} {t : HomeViewController}
    (hrun : Machine.run step (viewDidLoad value) es = some t) (hquiet : t.Quiet) {q : NewsRequest}
    (hlast : t.requests.getLast? = some q) {list : NewsList} (hq : q.response = some (some list)) :
    q.sources = userSources (getUserSources t.database.value) ∧
      ∃ x, (successes es).getLast? = some x ∧ t.news = x.2.articles ∧
        (x.1 + 1 = t.requests.length → t.news = list.articles) := by
  have hasked : Asked t := Machine.run_invariant (fun e _ s s' hi hs => Asked.step hi hs) hrun
    (asked_viewDidLoad value)
  have hanswered : Answered es t := Machine.run_history
    (fun i list => by simp [successes, viewDidLoad])
    (fun es e m t' _ hi hs => Answered.step hi hs) hrun
  have hget : t.requests[t.requests.length - 1]? = some ⟨q.sources, some (some list)⟩ := by
    rw [← List.getLast?_eq_getElem?, hlast, ← hq]
  have hmem := (hanswered _ list).mpr ⟨_, hget⟩
  refine ⟨hasked.last hquiet.1 _ (by rw [List.getLast?_map, hlast]; rfl), ?_⟩
  obtain ⟨x, hx⟩ := Option.ne_none_iff_exists'.mp
    (mt List.getLast?_eq_none_iff.mp (List.ne_nil_of_mem hmem))
  have hnews : t.news = x.2.articles := by rw [news_run hrun, hx]; rfl
  refine ⟨x, hx, hnews, fun hi => ?_⟩
  obtain ⟨sources, hx'⟩ := (hanswered x.1 x.2).mp (List.mem_of_getLast? hx)
  have hxi : x.1 = t.requests.length - 1 := by omega
  rw [hxi, hget] at hx'
  rw [hnews]
  cases hx'
  rfl

/-- News with one article. -/
def sampleNews (title : String) : NewsList := ⟨[{ title := some (Str.of title) }]⟩

/-- The record of an account that has selected the source `id`. -/
def selected (id : String) : DataSnapshot :=
  ((SourcesViewModel.saveUserSources [Str.of id]).apply postInfo).snapshot

/-- Another source is selected while the news of the first one are requested; then the two
requests are answered, `i` first. -/
def reselected (i j : Nat) : List Event :=
  [.viewDidAppear, .snapshot 0, .change (selected "cnn"), .snapshot 0,
    .response i ⟨some (some (sampleNews "a")), false⟩,
    .response j ⟨some (some (sampleNews "b")), false⟩]

theorem latest_response_shown_reselected :
    ∃ t, Machine.run step (viewDidLoad (selected "abc")) (reselected 0 1) = some t ∧
      Str.of "cnn" = userSources (getUserSources t.database.value) ∧
      ∃ x, (successes (reselected 0 1)).getLast? = some x ∧ t.news = x.2.articles ∧
        (x.1 + 1 = t.requests.length → t.news = (sampleNews "b").articles) := by
  refine ⟨_, rfl, ?_⟩
  have hrun : Machine.run step (viewDidLoad (selected "abc")) (reselected 0 1) = some _ := rfl
  exact latest_response_shown (q := ⟨Str.of "cnn", some (some (sampleNews "b"))⟩) hrun (by decide)
    rfl rfl

/-- The first request is answered after the second: its articles stay. -/
theorem not_latest_request_shown :
    ∃ t, Machine.run step (viewDidLoad (selected "abc")) (reselected 1 0) = some t ∧ t.Quiet ∧
      t.requests.getLast? = some ⟨Str.of "cnn", some (some (sampleNews "a"))⟩ ∧
      t.news = (sampleNews "b").articles ∧ t.news ≠ (sampleNews "a").articles := by
  refine ⟨_, rfl, ?_, rfl, rfl, ?_⟩
  · decide
  · decide

end HomeViewController
end MyNews
