import MyNews.Home.Controller
import MyNews.News.Controller

/-!
# Reading news

Home and the news screen together. A tap on a row of Home opens the news screen with a copy of the
articles and the row; responses may replace the articles of Home while it is open. The app stops at
the first trap.

What UIKit does: the rows of Home are those of the articles at the last `reloadData`, and can be
tapped while no screen is open.

* `StepTo`, `step_to`: what a step does to the news screen.
* `reading_safe_iff`: no run has an index out of range, and a run traps iff it shows an article
  whose image URL is not well-formed.
-/

namespace MyNews

/-- A cell of Home. -/
structure NewsCell where
  descriptionLabel : Str
  sourceNameLabel : Str

namespace HomeViewController

/-- `numberOfRowsInSection`. -/
def numberOfRowsInSection (c : HomeViewController) : Nat := c.news.length

/-- `cellForRowAt`. -/
def cellForRowAt (c : HomeViewController) (row : Nat) : Except Trap NewsCell :=
  match c.news[row]? with
  | none => .error .indexOutOfRange
  | some article => .ok
    { descriptionLabel := article.description.getD []
      sourceNameLabel := article.source.name.getD [] }

/-- `didSelectRowAt`: the sender of the segue. -/
def didSelectRowAt (c : HomeViewController) (row : Nat) : List NewsArticle × Nat := (c.news, row)

end HomeViewController

/-- The screens that read news. -/
structure Reading (Image : Type) where
  home : HomeViewController
  screen : Option (NewsViewController Image)
  trapped : Option Trap

namespace Reading

open NewsViewController (nonEmptyURL)

variable {Image Url : Type} (urlString : Str → Option Url)

/-- The screens when Home is loaded. -/
def viewDidLoad (value : DataSnapshot) : Reading Image where
  home := .viewDidLoad value
  screen := none
  trapped := none

/-- What happens to the screens. What becomes of an image is an outcome of the event that loads
it. -/
inductive Event (Image : Type) where
  | home (e : HomeViewController.Event)
  /-- The table of Home asks for the cell of a row. -/
  | cellForRowAt (row : Nat)
  /-- The user taps a row of Home. -/
  | tap (row : Nat) (loaded : Option (Option Image))
  /-- The user taps Next. -/
  | next (loaded : Option (Option Image))
  /-- The main queue runs a block. -/
  | main
  /-- The user taps the link. No screen of the app changes. -/
  | openLink
  /-- The user has tapped Done, and the segue back has ended. -/
  | handleDismis

/-- The screens after a function of the news screen. -/
def update (c : Reading Image) (screen : Except Trap (NewsViewController Image)) : Reading Image :=
  match screen with
  | .ok screen => { c with screen := some screen }
  | .error trap => { c with trapped := some trap }

/-- The screens after the event; `none` if the event cannot happen. -/
def step (c : Reading Image) (e : Event Image) : Option (Reading Image) :=
  if c.trapped = none then
    match e, c.screen with
    | .home e, _ => (c.home.step e).map fun home => { c with home }
    | .cellForRowAt row, _ =>
      if row < c.home.numberOfRowsInSection then
        match c.home.cellForRowAt row with
        | .ok _ => some c
        | .error trap => some { c with trapped := some trap }
      else none
    | .tap row loaded, none =>
      if row < c.home.numberOfRowsInSection then
        let sender := c.home.didSelectRowAt row
        let screen := NewsViewController.prepare sender.1 sender.2
        some (c.update (screen.viewDidLoad urlString loaded))
      else none
    | .next loaded, some screen => some (c.update (screen.nextNews urlString loaded))
    | .main, some screen => screen.main.map fun screen => { c with screen := some screen }
    | .openLink, some _ => some c
    | .handleDismis, some _ => some { c with screen := none }
    | _, _ => none
  else none

/-! ## What a step does -/

variable {urlString}

/-- The article that the event shows. -/
def shown? (c : Reading Image) : Event Image → Option NewsArticle
  | .tap row _ => c.home.news[row]?
  | .next _ => c.screen.bind fun screen => screen.data[screen.index + 1]?
  | _ => none

/-- What a step can do to the trap: it shows no article, or one that traps or not. -/
inductive StepTo (urlString : Str → Option Url) (c : Reading Image) (e : Event Image) :
    Reading Image → Prop
  | other (c' : Reading Image) (hs : c.shown? e = none) (ht : c'.trapped = none) :
    StepTo urlString c e c'
  | shows (a : NewsArticle) (c' : Reading Image) (hs : c.shown? e = some a)
    (ha : NewsViewController.WellFormed urlString a) (ht : c'.trapped = none) :
    StepTo urlString c e c'
  | traps (a : NewsArticle) (hs : c.shown? e = some a)
    (ha : ¬ NewsViewController.WellFormed urlString a) :
    StepTo urlString c e { c with trapped := some .unwrappedNil }

theorem step_to {c c' : Reading Image} {e : Event Image} (h : step urlString c e = some c') :
    c.trapped = none ∧ StepTo urlString c e c' := by
  unfold step at h
  split at h
  · rename_i ht
    refine ⟨ht, ?_⟩
    split at h
    · obtain ⟨home, -, rfl⟩ := Option.map_eq_some_iff.mp h
      exact .other _ rfl ht
    · rename_i row
      split at h
      · rename_i hrow
        have ha : c.home.news[row]? = some c.home.news[row] := List.getElem?_eq_getElem hrow
        simp only [HomeViewController.cellForRowAt, ha, Option.some.injEq] at h
        subst h
        exact .other _ rfl ht
      · cases h
    · rename_i row loaded hscreen
      split at h
      · rename_i hrow
        have ha : c.home.news[row]? = some c.home.news[row] := List.getElem?_eq_getElem hrow
        simp only [HomeViewController.didSelectRowAt, Option.some.injEq] at h
        rw [NewsViewController.viewDidLoad_eq (c := NewsViewController.prepare c.home.news row) ha]
          at h
        split at h
        · rename_i hw; subst h; exact .shows _ _ ha hw ht
        · rename_i hw; subst h; exact .traps _ ha hw
      · cases h
    · rename_i loaded screen hscreen
      simp only [Option.some.injEq] at h
      cases ha : screen.data[screen.index + 1]? with
      | none =>
        rw [NewsViewController.nextNews_of_le (List.getElem?_eq_none_iff.mp ha)] at h
        subst h
        exact .other _ (by simp [shown?, hscreen, ha]) ht
      | some a =>
        have hs : c.shown? (.next loaded) = some a := by simp [shown?, hscreen, ha]
        rw [NewsViewController.nextNews_of_getElem ha] at h
        split at h
        · rename_i hw; subst h; exact .shows a _ hs hw ht
        · rename_i hw; subst h; exact .traps a hs hw
    · obtain ⟨screen', -, rfl⟩ := Option.map_eq_some_iff.mp h
      exact .other _ rfl ht
    · cases h; exact .other _ rfl ht
    · cases h; exact .other _ rfl ht
    · cases h
  · cases h

/-! ## Safety -/

/-- The article that the event shows, if any, has a well-formed image URL. -/
def ShowsWellFormed (urlString : Str → Option Url) (c : Reading Image) (e : Event Image) : Prop :=
  ∀ article, c.shown? e = some article → NewsViewController.WellFormed urlString article

/-- A step traps iff it shows an article without a well-formed image URL. -/
theorem trapped_step {c c' : Reading Image} {e : Event Image}
    (h : step urlString c e = some c') :
    c'.trapped = none ↔ c.trapped = none ∧ ShowsWellFormed urlString c e := by
  obtain ⟨hc, hto⟩ := step_to h
  rw [and_iff_right hc]
  cases hto with
  | other c' hs ht => exact iff_of_true ht fun a ha => by rw [hs] at ha; cases ha
  | shows a c' hs ha ht =>
    refine iff_of_true ht fun b hb => ?_
    rw [hs] at hb
    cases hb
    exact ha
  | traps a hs ha => exact iff_of_false (by simp) fun hw => ha (hw a hs)

/-- No step has an index out of range. -/
theorem inRange_step {c c' : Reading Image} {e : Event Image} (h : step urlString c e = some c') :
    c'.trapped ≠ some .indexOutOfRange := by
  cases (step_to h).2 with
  | other c' _ ht => rw [ht]; simp
  | shows a c' _ _ ht => rw [ht]; simp
  | traps a _ _ => simp

/-- For every run of Home and the news screen: no index is out of range, and no forced unwrap traps
iff each article that the run shows has a well-formed image URL. -/
theorem reading_safe_iff {value : DataSnapshot} {es : List (Event Image)} {t : Reading Image}
    (hrun : Machine.run (step urlString) (viewDidLoad value) es = some t) :
    t.trapped ≠ some .indexOutOfRange ∧
      (t.trapped = none ↔ ∀ x ∈ Machine.steps (step urlString) (viewDidLoad value) es,
        ShowsWellFormed urlString x.1 x.2) := by
  constructor
  · refine Machine.run_invariant (I := fun t => t.trapped ≠ some .indexOutOfRange) ?_ hrun ?_
    · exact fun e _ s s' _ hs => inRange_step hs
    · simp [viewDidLoad]
  · exact Machine.run_iff_forall_steps (P := fun t => t.trapped = none) rfl
      (fun _ _ _ => trapped_step) hrun

/-- An article with the image URL `url`. -/
def withImage (url : Option Str) : NewsArticle := { urlToImage := url }

/-- Home receives one article, and the user taps its row. -/
def tapped (article : NewsArticle) : List (Event Unit) :=
  [.home .viewDidAppear, .home (.snapshot 0), .home (.response 0 ⟨some (some ⟨[article]⟩), false⟩),
    .tap 0 none]

theorem reading_safe_iff_tapped :
    ∃ t, Machine.run (step nonEmptyURL) (viewDidLoad .null)
        (tapped (withImage (some (Str.of "https://a")))) = some t ∧
      t.trapped ≠ some .indexOutOfRange ∧
      (t.trapped = none ↔ ∀ x ∈ Machine.steps (step nonEmptyURL) (viewDidLoad .null)
          (tapped (withImage (some (Str.of "https://a")))),
        ShowsWellFormed nonEmptyURL x.1 x.2) :=
  ⟨_, rfl, reading_safe_iff rfl⟩

/-- An article without an image: the decoder admits it, and opening it traps. -/
theorem not_reading_safe_tapped :
    ∃ t, Machine.run (step nonEmptyURL) (viewDidLoad .null) (tapped (withImage none)) = some t ∧
      nonEmptyURL [] = none ∧ t.trapped = some .unwrappedNil :=
  ⟨_, rfl, rfl, rfl⟩

end Reading
end MyNews
