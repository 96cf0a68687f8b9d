import MyNews.Home.Feed

/-!
# The refresh control of the Home screen

A pull starts the refresh control, and `newsList` ends it. `newsList` is called for a successful
response alone: `getNewsList` returns when there is no list.

* `outstanding`: the snapshots and the requests that a screen waits for.
* `outstanding_run`: a run adds to them its refreshes and its changes, and takes from them its
  responses; so each pull is followed by a response once nothing is outstanding.
* `isRefreshing_run`: the control has ended iff a response after each pull was successful.
* `refreshing_ends_iff`: when the control has ended in a screen that waits for nothing.
-/

namespace MyNews
namespace HomeViewController

open OnlineRepository

/-! ## What the screen waits for -/

/-- The event is a response. -/
def Event.isResponse : Event → Bool
  | response _ _ => true
  | _ => false

/-- The requests that are not answered. -/
def unanswered (c : HomeViewController) : Nat := c.requests.countP fun q => q.response.isNone

/-- The snapshots that are not received, each of which will issue a request, and the requests that
are not answered. -/
def outstanding (c : HomeViewController) : Nat := c.database.pending + c.unanswered

theorem outstanding_of_quiet {c : HomeViewController} (h : c.Quiet) : c.outstanding = 0 := by
  have hanswered : c.unanswered = 0 := by
    rw [unanswered, List.countP_eq_zero]
    intro q hq
    simp [h.2 q hq]
  rw [outstanding, Observed.drained_iff_pending.mp h.1, hanswered]

/-- An answer is one request less that is not answered. -/
theorem countP_set_answer {requests : List NewsRequest} {i : Nat} {sources : Str}
    (h : requests[i]? = some ⟨sources, none⟩) (answer : Option NewsList) :
    (requests.countP fun q => q.response.isNone) =
      ((requests.set i ⟨sources, some answer⟩).countP fun q => q.response.isNone) + 1 := by
  have hpos : 0 < requests.countP fun q => q.response.isNone :=
    List.countP_pos_iff.mpr ⟨_, List.mem_of_getElem? h, rfl⟩
  obtain ⟨hi, hget⟩ := List.getElem?_eq_some_iff.mp h
  rw [List.countP_set hi, hget]
  simp only [Option.isNone_none, Option.isNone_some, Bool.false_eq_true, ↓reduceIte]
  omega

/-- A refresh adds one snapshot to what is outstanding and a change one for each observer; the
request of a snapshot takes its place; a response takes one request away. -/
theorem outstanding_step {c c' : HomeViewController} {e : Event} (h : step c e = some c') :
    c'.outstanding + (if e.isResponse then 1 else 0) =
      c.outstanding + (if e.isRefresh then 1 else 0) +
        (if e.isChange then c.database.queues.length else 0) := by
  cases step_to h with
  | refresh e he b =>
    have hc : e.isChange = false := by cases e <;> first | rfl | cases he
    have hr : e.isResponse = false := by cases e <;> first | rfl | cases he
    have hp := Observed.pending_observe c.database
    simp only [outstanding, unanswered, he, hc, hr, Bool.false_eq_true, ↓reduceIte]
    omega
  | change value hv =>
    have hp := Observed.pending_change hv
    simp only [outstanding, unanswered, Event.isRefresh, Event.isChange, Event.isResponse,
      Bool.false_eq_true, ↓reduceIte]
    omega
  | snapshot i value database hd =>
    have hp := Observed.pending_deliver hd
    simp [outstanding, unanswered, Event.isRefresh, Event.isChange, Event.isResponse]
    omega
  | response i r sources list hr hl b =>
    have hs := countP_set_answer hr list
    simp [outstanding, unanswered, Event.isRefresh, Event.isChange, Event.isResponse]
    omega

/-- The responses of a run. -/
def responses (es : List Event) : Nat := es.countP Event.isResponse

/-- What a run adds to what is outstanding, and what its responses take away. -/
theorem outstanding_run {s t : HomeViewController} {es : List Event}
    (h : Machine.run step s es = some t) :
    t.outstanding + responses es =
      s.outstanding + refreshes es + fanOut s.database.queues.length es := by
  induction es generalizing s with
  | nil => cases h; rfl
  | cons e es ih =>
    obtain ⟨m, hm, hr⟩ := Option.bind_eq_some_iff.mp h
    have hrest := ih hr
    have hstep := outstanding_step hm
    rw [(requestsDue_step hm).1] at hrest
    rw [responses, refreshes] at hrest ⊢
    rw [List.countP_cons, List.countP_cons, fanOut]
    omega

/-- Once nothing is outstanding, each pull has been followed by a response. -/
theorem response_after_pull {value : DataSnapshot} {es : List Event} {t : HomeViewController}
    (hrun : Machine.run step (viewDidLoad value) es = some t) (hquiet : t.Quiet)
    {pre post : List Event} (hes : es = pre ++ .pull :: post) :
    ∃ request r, .response request r ∈ post := by
  subst hes
  obtain ⟨m, -, hr⟩ := Machine.run_append_eq_some.mp hrun
  obtain ⟨m', hm', hpost⟩ := Option.bind_eq_some_iff.mp hr
  have hstep := outstanding_step hm'
  have hsum := outstanding_run hpost
  rw [outstanding_of_quiet hquiet] at hsum
  simp only [Event.isRefresh, Event.isChange, Event.isResponse, Bool.false_eq_true,
    ↓reduceIte] at hstep
  have hpos : 0 < post.countP Event.isResponse := by
    rw [responses] at hsum
    omega
  obtain ⟨e, he, hresponse⟩ := List.countP_pos_iff.mp hpos
  cases e with
  | response request r => exact ⟨request, r, he⟩
  | _ => cases hresponse

/-! ## What the refresh control shows -/

/-- What the event sets the refresh control to. -/
def Event.refreshing? : Event → Option Bool
  | pull => some true
  | e => e.success?.map fun _ => false

theorem isRefreshing_step {c c' : HomeViewController} {e : Event} (h : step c e = some c') :
    c'.isRefreshing = (e.refreshing?).getD c.isRefreshing := by
  cases e with
  | viewDidAppear => cases h; rfl
  | pull =>
    simp only [step] at h
    split at h
    · cases h
    · cases h; rfl
  | change value =>
    simp only [step] at h
    split at h
    · cases h
    · cases h; rfl
  | snapshot observer =>
    simp only [step] at h
    split at h
    · cases h; rfl
    · cases h
  | response request r =>
    simp only [step] at h
    split at h
    · rename_i sources list hr hl
      cases h
      simp only [Event.refreshing?, Event.success?, hl]
      cases list <;> rfl
    · cases h

/-- Each pull of the run is followed by a successful response. -/
def PullsSucceed (es : List Event) : Prop :=
  ∀ pre post, es = pre ++ .pull :: post → ∃ e ∈ post, e.success? ≠ none

/-- While no response succeeds, the refresh control does not end. -/
theorem isRefreshing_of_no_success {s t : HomeViewController} {es : List Event}
    (hrun : Machine.run step s es = some t) (hno : ∀ e ∈ es, e.success? = none)
    (hs : s.isRefreshing = true) : t.isRefreshing = true := by
  refine Machine.run_invariant (I := fun c => c.isRefreshing = true) ?_ hrun hs
  intro e he m m' hm hstep
  rw [isRefreshing_step hstep]
  cases e with
  | pull => rfl
  | _ => simp only [Event.refreshing?, hno _ he, Option.map_none, Option.getD_none, hm]

/-- A control that refreshes was pulled, and no response has succeeded since. -/
theorem pull_of_isRefreshing {value : DataSnapshot} {es : List Event} {t : HomeViewController}
    (hrun : Machine.run step (viewDidLoad value) es = some t) (ht : t.isRefreshing = true) :
    ∃ pre post, es = pre ++ .pull :: post ∧ ∀ e ∈ post, e.success? = none := by
  refine Machine.run_history (I := fun es c => c.isRefreshing = true →
    ∃ pre post, es = pre ++ .pull :: post ∧ ∀ e ∈ post, e.success? = none) ?_ ?_ hrun ht
  · intro h; cases h
  · intro es e m m' _ ih hstep hm'
    rw [isRefreshing_step hstep] at hm'
    by_cases hp : e = .pull
    · exact ⟨es, [], by rw [hp], by simp⟩
    · have hset : e.refreshing? = e.success?.map fun _ => false := by
        cases e <;> first | rfl | exact (hp rfl).elim
      cases hsucc : e.success? with
      | some x => rw [hset, hsucc] at hm'; cases hm'
      | none =>
        rw [hset, hsucc] at hm'
        obtain ⟨pre, post, rfl, hpost⟩ := ih hm'
        refine ⟨pre, post ++ [e], by simp, fun x hx => ?_⟩
        rcases List.mem_append.mp hx with hx | hx
        · exact hpost x hx
        · rw [List.mem_singleton.mp hx]; exact hsucc

theorem isRefreshing_run {value : DataSnapshot} {es : List Event} {t : HomeViewController}
    (hrun : Machine.run step (viewDidLoad value) es = some t) :
    t.isRefreshing = false ↔ PullsSucceed es := by
  constructor
  · rintro ht pre post rfl
    by_contra hno
    have hno : ∀ e ∈ post, e.success? = none := fun e he => by
      by_contra hs
      exact hno ⟨e, he, hs⟩
    obtain ⟨m, -, hr⟩ := Machine.run_append_eq_some.mp hrun
    obtain ⟨m', hm', hpost⟩ := Option.bind_eq_some_iff.mp hr
    have := isRefreshing_of_no_success hpost hno (isRefreshing_step hm')
    rw [ht] at this
    cases this
  · intro hp
    rw [Bool.eq_false_iff]
    intro ht
    obtain ⟨pre, post, he, hno⟩ := pull_of_isRefreshing hrun ht
    obtain ⟨e, hm, hs⟩ := hp pre post he
    exact hs (hno e hm)

/-- For every run of the Home screen that ends with nothing outstanding: the refresh control is not
refreshing iff each pull is followed by a successful response. Each pull is followed by a response,
so it is refreshing iff all the responses after some pull, and at least one, have failed. -/
theorem refreshing_ends_iff {value : DataSnapshot} {es : List Event} {t : HomeViewController}
    (hrun : Machine.run step (viewDidLoad value) es = some t) (hquiet : t.Quiet) :
    (t.isRefreshing = false ↔ PullsSucceed es) ∧
      ∀ pre post, es = pre ++ .pull :: post → ∃ request r, .response request r ∈ post :=
  ⟨isRefreshing_run hrun, fun _ _ hes => response_after_pull hrun hquiet hes⟩

/-- The news are shown; then the user pulls, and the request that follows is answered `r`. -/
def pulled (r : DataResponse NewsList) : List Event :=
  [.viewDidAppear, .snapshot 0, .response 0 ⟨some (some (sampleNews "a")), false⟩, .pull,
    .snapshot 1, .response 1 r]

theorem refreshing_ends_iff_pulled :
    ∃ t, Machine.run step (viewDidLoad .null) (pulled ⟨some none, false⟩) = some t ∧
      (t.isRefreshing = false ↔ PullsSucceed (pulled ⟨some none, false⟩)) ∧
      ∀ pre post, pulled ⟨some none, false⟩ = pre ++ .pull :: post →
        ∃ request r, .response request r ∈ post :=
  ⟨_, rfl, @refreshing_ends_iff .null (pulled ⟨some none, false⟩) _ rfl (by decide)⟩

/-- The request fails: nothing is outstanding, and the control refreshes. -/
theorem not_refreshing_ends_pulled :
    ∃ t, Machine.run step (viewDidLoad .null) (pulled ⟨none, true⟩) = some t ∧ t.Quiet ∧
      t.isRefreshing = true := by
  refine ⟨_, rfl, ?_, rfl⟩
  decide

end HomeViewController
end MyNews
