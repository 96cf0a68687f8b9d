import MyNews.Lib.Machine
import MyNews.OnlineRepository

/-!
# `NewsViewController`

The news screen has the list of articles and an index. `viewDidLoad` configures the bar, the labels
and the link; Next moves the index and configures the labels only. The photo is set by a block on
the main queue, and only if the image could be loaded. The label of the link has a recognizer, but
takes no touches: the storyboard disables it and nothing enables it.

`URL(string:)` is a parameter `urlString`. What `Data(contentsOf:)` and `UIImage(data:)` make of an
image is a parameter of the functions that load one: `none` if it cannot be loaded, `some none` if
the data are no image.

* `Configured.next`, `Configured.main`: what the screen shows after `n` taps on Next.
* `shows_one_article_iff`: when all of it is about one article.
-/

namespace MyNews

/-- Why the app stops. -/
inductive Trap where
  /-- `data[index]` out of range. -/
  | indexOutOfRange
  /-- `URL(string: url)!` of a text that is no URL. -/
  | unwrappedNil
  deriving DecidableEq

structure NewsViewController (Image : Type) where
  data : List NewsArticle
  index : Nat
  /-- `novigationBar.topItem?.title`. -/
  barTitle : Str
  titleLabel : Str
  authorLable : Str
  photo : Option Image
  descriptionLabel : Str
  contentLabel : Str
  urlLabel : Str
  /-- `urlLabel.isUserInteractionEnabled`. -/
  urlLabelEnabled : Bool
  /-- The blocks on the main queue: what each sets the photo to. -/
  mainQueue : List (Option Image)

namespace NewsViewController

variable {Image Url : Type} (urlString : Str → Option Url)

/-- The screen that `prepare` sets up, with the texts of the storyboard and its label without user
interaction. -/
def prepare (data : List NewsArticle) (index : Nat) : NewsViewController Image where
  data
  index
  barTitle := Str.of "Title"
  titleLabel := Str.of "title"
  authorLable := Str.of "author"
  photo := none
  descriptionLabel := Str.of "description"
  contentLabel := Str.of "content"
  urlLabel := Str.of "url"
  urlLabelEnabled := false
  mainQueue := []

/-- `data[index]`. -/
def article (c : NewsViewController Image) : Except Trap NewsArticle :=
  match c.data[c.index]? with
  | some article => .ok article
  | none => .error .indexOutOfRange

def configureNovigationBar (c : NewsViewController Image) :
    Except Trap (NewsViewController Image) := do
  let article ← c.article
  return { c with barTitle := article.source.name.getD [] }

/-- `configurateView`; `loaded` is the image, if it can be loaded. -/
def configurateView (c : NewsViewController Image) (loaded : Option (Option Image)) :
    Except Trap (NewsViewController Image) := do
  let article ← c.article
  let c :=
    { c with
      titleLabel := article.title.getD []
      authorLable := article.author.getD []
      descriptionLabel := article.description.getD []
      contentLabel := article.content.getD [] }
  let url := article.urlToImage.getD []
  match urlString url with
  | none => .error .unwrappedNil
  | some _ => return { c with mainQueue := c.mainQueue ++ loaded.toList }

def configurateUrl (c : NewsViewController Image) : Except Trap (NewsViewController Image) := do
  let article ← c.article
  return { c with urlLabel := article.url.getD [] }

def viewDidLoad (c : NewsViewController Image) (loaded : Option (Option Image)) :
    Except Trap (NewsViewController Image) := do
  let c ← c.configureNovigationBar
  let c ← c.configurateView urlString loaded
  c.configurateUrl

def nextNews (c : NewsViewController Image) (loaded : Option (Option Image)) :
    Except Trap (NewsViewController Image) :=
  let c := { c with index := c.index + 1 }
  if c.index ≥ c.data.length then return c else c.configurateView urlString loaded

/-- `openLink`: the URL that it opens. -/
def openLink (c : NewsViewController Image) : Option Url := urlString c.urlLabel

/-- A tap on `urlLabel`: the URL that it opens. -/
def tapUrlLabel (c : NewsViewController Image) : Option Url :=
  if c.urlLabelEnabled then c.openLink urlString else none

/-- The main queue runs its first block. -/
def main (c : NewsViewController Image) : Option (NewsViewController Image) :=
  match c.mainQueue with
  | [] => none
  | image :: rest => some { c with photo := image, mainQueue := rest }

/-! ## What the functions do -/

variable {urlString}

/-- The labels that `configurateView` sets. -/
def setLabels (c : NewsViewController Image) (article : NewsArticle)
    (loaded : Option (Option Image)) : NewsViewController Image :=
  { c with
    titleLabel := article.title.getD []
    authorLable := article.author.getD []
    descriptionLabel := article.description.getD []
    contentLabel := article.content.getD []
    mainQueue := c.mainQueue ++ loaded.toList }

/-- The forced unwrap of the article's image URL succeeds. -/
def WellFormed (urlString : Str → Option Url) (article : NewsArticle) : Prop :=
  (urlString (article.urlToImage.getD [])).isSome

instance (article : NewsArticle) : Decidable (WellFormed urlString article) :=
  inferInstanceAs (Decidable (_ = true))

theorem article_eq {c : NewsViewController Image} {a : NewsArticle}
    (h : c.data[c.index]? = some a) : c.article = .ok a := by
  rw [article, h]

/-- `configurateView` in range: it sets the labels, or traps on the image URL. -/
theorem configurateView_eq {c : NewsViewController Image} {a : NewsArticle}
    (h : c.data[c.index]? = some a) (loaded : Option (Option Image)) :
    c.configurateView urlString loaded =
      if WellFormed urlString a then .ok (c.setLabels a loaded)
      else .error .unwrappedNil := by
  rw [configurateView, article_eq h]
  cases hu : urlString (a.urlToImage.getD []) <;>
    simp [hu, WellFormed, bind, Except.bind, pure, Except.pure, setLabels]

theorem configureNovigationBar_eq {c : NewsViewController Image} {a : NewsArticle}
    (h : c.data[c.index]? = some a) :
    c.configureNovigationBar = .ok { c with barTitle := a.source.name.getD [] } := by
  rw [configureNovigationBar, article_eq h]
  rfl

theorem configurateUrl_eq {c : NewsViewController Image} {a : NewsArticle}
    (h : c.data[c.index]? = some a) :
    c.configurateUrl = .ok { c with urlLabel := a.url.getD [] } := by
  rw [configurateUrl, article_eq h]
  rfl

/-- `viewDidLoad` in range: it sets everything but the photo, or traps on the image URL. -/
theorem viewDidLoad_eq {c : NewsViewController Image} {a : NewsArticle}
    (h : c.data[c.index]? = some a) (loaded : Option (Option Image)) :
    c.viewDidLoad urlString loaded =
      if WellFormed urlString a then
        .ok { c.setLabels a loaded with
          barTitle := a.source.name.getD [], urlLabel := a.url.getD [] }
      else .error .unwrappedNil := by
  rw [viewDidLoad, configureNovigationBar_eq h]
  show ({ c with barTitle := a.source.name.getD [] }.configurateView urlString loaded >>= _) = _
  rw [configurateView_eq (c := { c with barTitle := a.source.name.getD [] }) h]
  split
  · exact configurateUrl_eq (c := { c with barTitle := a.source.name.getD [] }.setLabels a loaded) h
  · rfl

/-- Next past the end moves the index only. -/
theorem nextNews_of_le {c : NewsViewController Image} (h : c.data.length ≤ c.index + 1)
    (loaded : Option (Option Image)) :
    c.nextNews urlString loaded = .ok { c with index := c.index + 1 } := by
  simp only [nextNews, ge_iff_le, h, ↓reduceIte]
  rfl

/-- Next to the article `a`. -/
theorem nextNews_of_getElem {c : NewsViewController Image} {a : NewsArticle}
    (h : c.data[c.index + 1]? = some a) (loaded : Option (Option Image)) :
    c.nextNews urlString loaded =
      if WellFormed urlString a then
        .ok ({ c with index := c.index + 1 }.setLabels a loaded)
      else .error .unwrappedNil := by
  have hlt := (List.getElem?_eq_some_iff.mp h).1
  simp only [nextNews, ge_iff_le, Nat.not_le.mpr hlt, ↓reduceIte]
  exact configurateView_eq (c := { c with index := c.index + 1 }) h loaded

/-! ## Runs of Next -/

/-- What happens to the open screen. -/
inductive Event where
  /-- The user taps Next. -/
  | next
  /-- The main queue runs a block. -/
  | main
  deriving DecidableEq

variable (urlString) in
/-- The screen after the event; `none` if the event cannot happen, or traps. The image of an article
is loaded at most once while the screen is open; `load` is what becomes of it, for each position of
the list. -/
def step (load : Nat → Option (Option Image)) (c : NewsViewController Image) :
    Event → Option (NewsViewController Image)
  | .next => (c.nextNews urlString (load (c.index + 1))).toOption
  | .main => c.main

/-- The number of taps on Next. -/
def taps (es : List Event) : Nat := es.count .next

/-- The position of the article that `n` taps lead to. -/
def position (data : List NewsArticle) (start n : Nat) : Nat := min (start + n) (data.length - 1)

/-- What the images loaded at the `m` positions from `start` on give, in order. -/
def images (load : Nat → Option (Option Image)) (start m : Nat) : List (Option Image) :=
  (List.range' start m).filterMap load

/-- The photo once the main queue is empty. -/
def lastPhoto (c : NewsViewController Image) : Option Image := c.mainQueue.getLast?.getD c.photo

/-- The four labels that `configurateView` sets are those of the article. -/
structure Labelled (c : NewsViewController Image) (article : NewsArticle) : Prop where
  titleLabel : c.titleLabel = article.title.getD []
  authorLable : c.authorLable = article.author.getD []
  descriptionLabel : c.descriptionLabel = article.description.getD []
  contentLabel : c.contentLabel = article.content.getD []

/-- The screen that was opened at `start`, on the article `first`, after `n` taps on Next. -/
structure Configured (load : Nat → Option (Option Image)) (data : List NewsArticle) (start : Nat)
    (first : NewsArticle) (n : Nat) (c : NewsViewController Image) : Prop where
  data_eq : c.data = data
  index_eq : c.index = start + n
  barTitle : c.barTitle = first.source.name.getD []
  urlLabel : c.urlLabel = first.url.getD []
  urlLabelEnabled : c.urlLabelEnabled = false
  labels : ∀ article, data[position data start n]? = some article → Labelled c article
  photo : c.lastPhoto = (images load start (position data start n + 1 - start)).getLast?.join

theorem labelled_setLabels (c : NewsViewController Image) (a : NewsArticle)
    (loaded : Option (Option Image)) : Labelled (c.setLabels a loaded) a := ⟨rfl, rfl, rfl, rfl⟩

theorem lastPhoto_setLabels (c : NewsViewController Image) (a : NewsArticle)
    (loaded : Option (Option Image)) :
    (c.setLabels a loaded).lastPhoto = loaded.getD c.lastPhoto := by
  cases loaded with
  | none => simp [lastPhoto, setLabels]
  | some image => simp [lastPhoto, setLabels]

/-- One more position: its image, if it is loaded, is the last. -/
theorem getLast?_images_succ (load : Nat → Option (Option Image)) (start m : Nat) :
    (images load start (m + 1)).getLast?.join =
      (load (start + m)).getD (images load start m).getLast?.join := by
  rw [images, List.range'_1_concat, List.filterMap_append, ← images]
  cases h : load (start + m) with
  | none => simp [h]
  | some image => simp [h]

theorem position_of_lt {data : List NewsArticle} {start n : Nat} (h : start + n < data.length) :
    position data start n = start + n := by
  unfold position; omega

theorem position_of_le {data : List NewsArticle} {start n : Nat} (h : data.length ≤ start + n + 1) :
    position data start n = data.length - 1 := by
  unfold position; omega

/-- `viewDidLoad` configures the screen for the first article. -/
theorem configured_viewDidLoad {load : Nat → Option (Option Image)} {data : List NewsArticle}
    {start : Nat} {first : NewsArticle} (h : data[start]? = some first)
    (hurl : WellFormed urlString first) :
    ∃ c, (prepare data start).viewDidLoad urlString (load start) = .ok c ∧
      Configured load data start first 0 c := by
  have hlt := (List.getElem?_eq_some_iff.mp h).1
  rw [viewDidLoad_eq (c := prepare data start) h, if_pos hurl]
  refine ⟨_, rfl, rfl, rfl, rfl, rfl, rfl, fun a ha => ?_, ?_⟩
  · rw [position_of_lt (by omega), Nat.add_zero, h, Option.some.injEq] at ha
    subst ha
    exact ⟨rfl, rfl, rfl, rfl⟩
  · have hm : position data start 0 + 1 - start = 0 + 1 := by
      rw [position_of_lt (by omega)]; omega
    rw [hm, getLast?_images_succ]
    exact lastPhoto_setLabels (prepare data start) first (load start)

/-- Past the end the index moves alone, and the position stays the last one. -/
theorem Configured.past {load : Nat → Option (Option Image)} {data : List NewsArticle}
    {start n : Nat} {first : NewsArticle} {c : NewsViewController Image}
    (h : Configured load data start first n c) (hle : data.length ≤ start + n + 1) :
    Configured load data start first (n + 1) { c with index := c.index + 1 } := by
  have hp : position data start (n + 1) = position data start n := by
    rw [position_of_le hle, position_of_le (by omega)]
  obtain ⟨hdata, hindex, hbar, hlink, hoff, hlabels, hphoto⟩ := h
  refine ⟨hdata, ?_, hbar, hlink, hoff, ?_, ?_⟩
  · show c.index + 1 = start + (n + 1)
    omega
  · rw [hp]
    exact fun a ha => ⟨(hlabels a ha).1, (hlabels a ha).2, (hlabels a ha).3, (hlabels a ha).4⟩
  · rw [hp]
    exact hphoto

/-- The labels and the image of the next article. -/
theorem Configured.setLabels {load : Nat → Option (Option Image)} {data : List NewsArticle}
    {start n : Nat} {first a : NewsArticle} {c : NewsViewController Image}
    (h : Configured load data start first n c) (ha : data[start + n + 1]? = some a) :
    Configured load data start first (n + 1)
      ({ c with index := c.index + 1 }.setLabels a (load (c.index + 1))) := by
  have hlt := (List.getElem?_eq_some_iff.mp ha).1
  have hp : position data start (n + 1) = start + n + 1 := position_of_lt (by omega)
  obtain ⟨hdata, hindex, hbar, hlink, hoff, -, hphoto⟩ := h
  refine ⟨hdata, ?_, hbar, hlink, hoff, fun a' ha' => ?_, ?_⟩
  · show c.index + 1 = start + (n + 1)
    omega
  · rw [hp, ha, Option.some.injEq] at ha'
    subst ha'
    exact labelled_setLabels _ _ _
  · have hm : position data start (n + 1) + 1 - start = (n + 1) + 1 := by omega
    have hm' : position data start n + 1 - start = n + 1 := by
      rw [position_of_lt (by omega)]; omega
    rw [hm, getLast?_images_succ, lastPhoto_setLabels, hindex]
    rw [hm'] at hphoto
    rw [← hphoto]
    rfl

/-- Next keeps the screen configured, unless the image URL of the next article traps. -/
theorem Configured.next {load : Nat → Option (Option Image)} {data : List NewsArticle}
    {start n : Nat} {first : NewsArticle} {c : NewsViewController Image}
    (h : Configured load data start first n c)
    (hurl : ∀ article ∈ data, WellFormed urlString article) :
    ∃ c', c.nextNews urlString (load (c.index + 1)) = .ok c' ∧
      Configured load data start first (n + 1) c' := by
  have hindex := h.index_eq
  by_cases hle : data.length ≤ start + n + 1
  · have hend : c.data.length ≤ c.index + 1 := by rw [h.data_eq, hindex]; exact hle
    exact ⟨_, nextNews_of_le hend _, h.past hle⟩
  · have hlt : start + n + 1 < data.length := by omega
    have ha := List.getElem?_eq_getElem hlt
    have hc : c.data[c.index + 1]? = some data[start + n + 1] := by rw [h.data_eq, hindex, ha]
    rw [nextNews_of_getElem hc, if_pos (hurl _ (List.getElem_mem hlt))]
    exact ⟨_, rfl, h.setLabels ha⟩

/-- A block of the main queue leaves the screen configured. -/
theorem Configured.main {load : Nat → Option (Option Image)} {data : List NewsArticle}
    {start n : Nat} {first : NewsArticle} {c c' : NewsViewController Image}
    (h : Configured load data start first n c) (hm : c.main = some c') :
    Configured load data start first n c' := by
  unfold NewsViewController.main at hm
  split at hm
  · cases hm
  · rename_i image rest hq
    cases hm
    refine ⟨h.data_eq, h.index_eq, h.barTitle, h.urlLabel, h.urlLabelEnabled, fun a ha => ?_, ?_⟩
    · have hl := h.labels a ha
      exact ⟨hl.1, hl.2, hl.3, hl.4⟩
    · rw [← h.photo, lastPhoto, lastPhoto, hq, List.getLast?_cons]
      rfl

theorem Configured.run {load : Nat → Option (Option Image)} {data : List NewsArticle}
    {start : Nat} {first : NewsArticle} {c t : NewsViewController Image} {es : List Event}
    (h : Configured load data start first 0 c)
    (hurl : ∀ article ∈ data, WellFormed urlString article)
    (hrun : Machine.run (step urlString load) c es = some t) :
    Configured load data start first (taps es) t := by
  refine Machine.run_history (I := fun es t => Configured load data start first (taps es) t) h ?_
    hrun
  intro es e m t _ hi hs
  cases e with
  | next =>
    obtain ⟨c', hc, hc'⟩ := hi.next hurl
    simp only [NewsViewController.step, hc] at hs
    cases hs
    simpa [taps] using hc'
  | main => simpa [taps] using hi.main hs

/-! ## One article -/

variable (urlString)

/-- Everything on the screen is about the article, whose image gives `photo`; a tap on the label
opens its link. -/
def ShowsArticle (c : NewsViewController Image) (article : NewsArticle) (photo : Option Image) :
    Prop :=
  c.barTitle = article.source.name.getD [] ∧ Labelled c article ∧ c.photo = photo ∧
    c.tapUrlLabel urlString = urlString (article.url.getD [])

/-- What Next leaves as it was fits the article: its source has the name of the first article's, and
it has no link that a tap could open. -/
def FitsFrame (first article : NewsArticle) : Prop :=
  first.source.name.getD [] = article.source.name.getD [] ∧ urlString (article.url.getD []) = none

/-- For every list of articles with well-formed image URLs, every start and every outcome of the
loads: no tap on Next traps; and once the main queue is empty after `n` taps, the screen is about
the article at the position that they lead to iff that article has the source name of the first one
and no link, and its image was loaded or the last one that was loaded before gave no photo. -/
theorem shows_one_article_iff {data : List NewsArticle} {start : Nat} {first : NewsArticle}
    (h : data[start]? = some first) (hurl : ∀ article ∈ data, WellFormed urlString article)
    (load : Nat → Option (Option Image)) :
    ∃ c, (prepare data start).viewDidLoad urlString (load start) = .ok c ∧
      ∀ es t, Machine.run (step urlString load) c es = some t →
        (step urlString load t .next).isSome ∧
        ∀ k article, k = position data start (taps es) → data[k]? = some article →
          t.mainQueue = [] →
          (ShowsArticle urlString t article (load k).join ↔
            FitsFrame urlString first article ∧
              ((load k).isSome ∨ (images load start (k - start)).getLast?.join = none)) := by
  have hstart := (List.getElem?_eq_some_iff.mp h).1
  obtain ⟨c, hc, hconf⟩ := configured_viewDidLoad h (hurl _ (List.mem_of_getElem? h))
  refine ⟨c, hc, fun es t hrun => ?_⟩
  have ht := hconf.run hurl hrun
  refine ⟨?_, ?_⟩
  · obtain ⟨t', ht', -⟩ := ht.next hurl
    simp only [step, ht']
    rfl
  · rintro k article rfl hk hq
    have hphoto : t.photo = (load (position data start (taps es))).getD
        (images load start (position data start (taps es) - start)).getLast?.join := by
      have hle : start ≤ position data start (taps es) := by unfold position; omega
      have hp := ht.photo
      rw [lastPhoto, hq, Nat.succ_sub hle, getLast?_images_succ, Nat.add_sub_cancel' hle] at hp
      exact hp
    have htap : t.tapUrlLabel urlString = none := by simp [tapUrlLabel, ht.urlLabelEnabled]
    have hl := ht.labels article hk
    rw [ShowsArticle, FitsFrame, ht.barTitle, htap, hphoto, eq_comm (a := none)]
    cases hload : load (position data start (taps es)) with
    | none => simp [hl]; tauto
    | some image => simp [hl]

/-- A `URL(string:)` that takes every text but the empty one. -/
def nonEmptyURL (s : Str) : Option Str := if s = [] then none else some s

/-- An article of the source `source`, with an image. -/
def sampleArticle (source title url : String) : NewsArticle where
  source := ⟨some (Str.of source)⟩
  title := some (Str.of title)
  url := some (Str.of url)
  urlToImage := some (Str.of "https://image")

/-- Two articles of two sources. -/
def twoArticles : List NewsArticle :=
  [sampleArticle "A" "a" "https://a", sampleArticle "B" "b" "https://b"]

/-- The image of the first article loads, no other does. -/
def firstLoads (i : Nat) : Option (Option Unit) := if i = 0 then some (some ()) else none

theorem shows_one_article_iff_twoArticles :
    ∃ c, (prepare twoArticles 0).viewDidLoad nonEmptyURL (firstLoads 0) = .ok c ∧
      ∀ es t, Machine.run (step nonEmptyURL firstLoads) c es = some t →
        (step nonEmptyURL firstLoads t .next).isSome ∧
        ∀ k article, k = position twoArticles 0 (taps es) → twoArticles[k]? = some article →
          t.mainQueue = [] →
          (ShowsArticle nonEmptyURL t article (firstLoads k).join ↔
            FitsFrame nonEmptyURL (sampleArticle "A" "a" "https://a") article ∧
              ((firstLoads k).isSome ∨ (images firstLoads 0 (k - 0)).getLast?.join = none)) :=
  shows_one_article_iff nonEmptyURL rfl (by decide) firstLoads

/-- After a tap on Next the title is that of the second article; the bar and the photo are those of
the first, and so is the link that `openLink` would open. A tap on the label opens nothing. -/
theorem not_shows_one_article_twoArticles :
    ∃ c t, (prepare twoArticles 0).viewDidLoad nonEmptyURL (firstLoads 0) = .ok c ∧
      Machine.run (step nonEmptyURL firstLoads) c [.main, .next] = some t ∧ t.mainQueue = [] ∧
      (∀ article ∈ twoArticles, WellFormed nonEmptyURL article) ∧
      position twoArticles 0 1 = 1 ∧ t.titleLabel = Str.of "b" ∧ t.barTitle = Str.of "A" ∧
      t.photo = some () ∧ t.openLink nonEmptyURL = some (Str.of "https://a") ∧
      t.tapUrlLabel nonEmptyURL = none ∧
      ∀ article, twoArticles[1]? = some article → ¬ ShowsArticle nonEmptyURL t article none := by
  refine ⟨_, _, rfl, rfl, rfl, by decide, rfl, rfl, rfl, rfl, rfl, rfl, ?_⟩
  intro article ha hshows
  cases ha
  exact absurd hshows.1 (by decide)

end NewsViewController
end MyNews
