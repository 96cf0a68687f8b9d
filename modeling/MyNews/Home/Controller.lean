import MyNews.Lib.Machine
import MyNews.Lib.Observed
import MyNews.HomeViewController

/-!
# `HomeViewController`: the feed

Each refresh of the Home screen registers an observer of the record, which stays. Each snapshot
that an observer receives starts a news request, and each successful response replaces the
articles; a response is not compared with its request. The requests are answered in any order.

What UIKit and the libraries do, as far as the screen depends on it:

* `viewDidAppear` is called when the screen is entered and each time a screen over it is closed.
* The refresh control can be pulled while it is not refreshing; it is then refreshing until
  `endRefreshing`.
* An answer without a body has an error.

`step` is the screen as a machine over the refreshes, the changes of the record, the deliveries
and the responses.

* `StepTo`, `step_to`: what a step can do.
-/

namespace MyNews

/-- A request of `getNews`. -/
structure NewsRequest where
  sources : Str
  /-- The argument of its `completionHandler`, once it is answered. -/
  response : Option (Option NewsList)
  deriving DecidableEq

structure HomeViewController where
  /-- The record, and the observers of `getUserSources`. -/
  database : Observed DataSnapshot
  /-- The news requests, in the order in which they were issued. -/
  requests : List NewsRequest
  news : List NewsArticle
  /-- `refreshControl.isRefreshing`. -/
  isRefreshing : Bool

namespace HomeViewController

open OnlineRepository

/-- The screen after `viewDidLoad`. -/
def viewDidLoad (value : DataSnapshot) : HomeViewController where
  database := .unobserved value
  requests := []
  news := []
  isRefreshing := false

/-- `refresh`. -/
def refresh (c : HomeViewController) : HomeViewController :=
  { c with database := c.database.observe }

/-- `viewModel.getNewsList`. -/
def getNewsList (c : HomeViewController) (sources : Str) : HomeViewController :=
  { c with requests := c.requests ++ [⟨sources, none⟩] }

/-- The closure of an observer, with `viewModel.userSources`. -/
def snapshot (c : HomeViewController) (value : DataSnapshot) : HomeViewController :=
  c.getNewsList (userSources (getUserSources value))

/-- The closure `viewModel.newsList`. -/
def newsList (c : HomeViewController) (list : NewsList) : HomeViewController :=
  { c with news := list.articles, isRefreshing := false }

/-- The closure of `getNewsList`. -/
def newsResponse (c : HomeViewController) (response : Option NewsList) : HomeViewController :=
  match response with
  | none => c
  | some list => c.newsList list

/-- What happens to the screen. -/
inductive Event where
  | viewDidAppear
  /-- The user pulls the refresh control. -/
  | pull
  /-- The record changes: another value is set. -/
  | change (value : DataSnapshot)
  /-- An observer receives a snapshot. -/
  | snapshot (observer : Nat)
  /-- A request is answered. -/
  | response (request : Nat) (response : DataResponse NewsList)

/-- The screen after the event; `none` if the event cannot happen. -/
def step (c : HomeViewController) : Event → Option HomeViewController
  | .viewDidAppear => some c.refresh
  | .pull => if c.isRefreshing then none else some { c with isRefreshing := true }.refresh
  | .change value =>
    if value = c.database.value then none
    else some { c with database := c.database.change value }
  | .snapshot observer =>
    match c.database.deliver observer with
    | some (value, database) => some ({ c with database }.snapshot value)
    | none => none
  | .response request response =>
    match c.requests[request]?, getNews response with
    | some ⟨sources, none⟩, some list =>
      some ({ c with requests := c.requests.set request ⟨sources, some list⟩ }.newsResponse list)
    | _, _ => none

/-- No snapshot and no request is outstanding. -/
def Quiet (c : HomeViewController) : Prop :=
  c.database.Drained ∧ ∀ q ∈ c.requests, q.response ≠ none

instance (c : HomeViewController) : Decidable c.Quiet := inferInstanceAs (Decidable (_ ∧ _))

/-! ## What a step does -/

/-- The event is a refresh. -/
def Event.isRefresh : Event → Bool
  | viewDidAppear | pull => true
  | _ => false

/-- The event is a change of the record. -/
def Event.isChange : Event → Bool
  | change _ => true
  | _ => false

/-- The request and the list of a successful response. -/
def Event.success? : Event → Option (Nat × NewsList)
  | response request r => (getNews r).join.map (request, ·)
  | _ => none

/-- What a step can do. -/
inductive StepTo (c : HomeViewController) : Event → HomeViewController → Prop
  | refresh (e : Event) (he : e.isRefresh = true) (isRefreshing : Bool) :
    StepTo c e { c with database := c.database.observe, isRefreshing }
  | change (value : DataSnapshot) (hv : value ≠ c.database.value) :
    StepTo c (.change value) { c with database := c.database.change value }
  | snapshot (observer : Nat) (value : DataSnapshot) (database : Observed DataSnapshot)
    (hd : c.database.deliver observer = some (value, database)) :
    StepTo c (.snapshot observer)
      { c with
        database
        requests := c.requests ++ [⟨userSources (getUserSources value), none⟩] }
  | response (request : Nat) (response : DataResponse NewsList) (sources : Str)
    (list : Option NewsList) (hr : c.requests[request]? = some ⟨sources, none⟩)
    (hl : getNews response = some list) (isRefreshing : Bool) :
    StepTo c (.response request response)
      { c with
        requests := c.requests.set request ⟨sources, some list⟩
        news := (list.map NewsList.articles).getD c.news
        isRefreshing }

theorem step_to {c c' : HomeViewController} {e : Event} (h : step c e = some c') :
    StepTo c e c' := by
  cases e with
  | viewDidAppear => cases h; exact .refresh _ rfl _
  | pull =>
    simp only [step] at h
    split at h
    · cases h
    · cases h; exact .refresh _ rfl _
  | change value =>
    simp only [step] at h
    split at h
    · cases h
    · rename_i hv; cases h; exact .change value hv
  | snapshot observer =>
    simp only [step] at h
    split at h
    · rename_i value database hd
      cases h
      exact .snapshot observer value database hd
    · cases h
  | response request response =>
    simp only [step] at h
    split at h
    · rename_i sources list hr hl
      cases h
      cases list with
      | none => exact .response request response sources none hr hl _
      | some list => exact .response request response sources (some list) hr hl _
    · cases h

end HomeViewController
end MyNews
