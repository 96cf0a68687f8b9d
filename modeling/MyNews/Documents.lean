import MyNews.Decodable
import MyNews.Home.Feed
import MyNews.News.Reading
import MyNews.Sources.Controller

/-!
# What the screens make of the documents

Home and the Sources screen with any documents as answers.

* `HomeViewController.shows_last_document`: Home has a row for each element of the last valid
  document, with its texts.
* `SourcesViewController.shows_catalogue`: the same for the Sources screen; until it has a valid
  document, it has no rows, and Done writes the empty string.
-/

namespace MyNews

open OnlineRepository

namespace HomeViewController

/-- A response is what becomes of an answer. -/
def FromWeb : Event → Prop
  | .response _ r => ∃ a : WebAnswer, r = a.response NewsList.decode
  | _ => True

/-- The event brings a valid document. -/
def Brings (e : Event) (j : JsonValue) : Prop :=
  ∃ (request : Nat) (a : WebAnswer), e = .response request (a.response NewsList.decode) ∧
    a.document? = some j ∧ NewsList.Valid j

theorem success?_of_fromWeb {e : Event} (he : FromWeb e) {x : Nat × NewsList}
    (hx : e.success? = some x) : ∃ j, Brings e j ∧
      x.2.articles = (j.elements (Str.of "articles")).map NewsArticle.ofJson := by
  cases e with
  | response request r =>
    obtain ⟨a, rfl⟩ := he
    simp only [Event.success?, getNews_response, Option.map_eq_some_iff] at hx
    obtain ⟨list, hlist, rfl⟩ := hx
    obtain ⟨j, hj, hlist⟩ := Option.bind_eq_some_iff.mp hlist
    obtain ⟨hvalid, harticles⟩ := NewsList.decode_eq_some.mp hlist
    exact ⟨j, ⟨request, a, rfl, hj, hvalid⟩, harticles⟩
  | _ => cases hx

theorem Brings.success? {e : Event} {j : JsonValue} (h : Brings e j) : e.success? ≠ none := by
  obtain ⟨request, a, rfl, hj, hvalid⟩ := h
  have hlist := NewsList.decode_eq_some.mpr ⟨hvalid, (rfl : (NewsList.mk _).articles = _)⟩
  simp [Event.success?, getNews_response, hj, hlist]

/-- The cell of an element of a document. -/
def cellOf (j : JsonValue) : NewsCell where
  descriptionLabel := (j.text? (Str.of "description")).getD []
  sourceNameLabel :=
    ((j.member? (Str.of "source")).bind (Json.text? (Str.of "name"))).getD []

/-- For every run of Home in which the requests are answered with any documents, errors and other
bodies: Home has a row for each element of the valid document that arrived last, with the texts of
this element, or no row if none has arrived. -/
theorem shows_last_document {value : DataSnapshot} {es : List Event} {t : HomeViewController}
    (hrun : Machine.run step (viewDidLoad value) es = some t) (hweb : ∀ e ∈ es, FromWeb e) :
    (t.numberOfRowsInSection = 0 ∧ ∀ e ∈ es, ∀ j, ¬ Brings e j) ∨
      ∃ pre e post j, es = pre ++ e :: post ∧ Brings e j ∧
        (∀ e' ∈ post, ∀ j', ¬ Brings e' j') ∧
        t.numberOfRowsInSection = (j.elements (Str.of "articles")).length ∧
        ∀ (row : Nat) (x : JsonValue), (j.elements (Str.of "articles"))[row]? = some x →
          t.cellForRowAt row = .ok (cellOf x) := by
  have hnews := news_run hrun
  cases hlast : (successes es).getLast? with
  | none =>
    rw [hlast] at hnews
    refine .inl ⟨by rw [numberOfRowsInSection, hnews]; rfl, fun e he j hb => ?_⟩
    have hnone := List.filterMap_eq_nil_iff.mp (List.getLast?_eq_none_iff.mp hlast)
    exact hb.success? (hnone e he)
  | some x =>
    rw [hlast] at hnews
    obtain ⟨pre, e, post, rfl, hx, hpost⟩ := Machine.getLast?_filterMap_eq_some.mp hlast
    obtain ⟨j, hb, harticles⟩ := success?_of_fromWeb (hweb e (by simp)) hx
    have hshown : t.news = (j.elements (Str.of "articles")).map NewsArticle.ofJson :=
      hnews.trans harticles
    refine .inr ⟨pre, e, post, j, rfl, hb, fun e' he' j' hb' => hb'.success? (hpost e' he'), ?_, ?_⟩
    · rw [numberOfRowsInSection, hshown, List.length_map]
    · intro row x hrow
      rw [cellForRowAt, hshown, List.getElem?_map, hrow]
      rfl

/-- The document of a list with the articles. -/
def documentOf (articles : List JsonValue) : JsonValue :=
  .object fun key =>
    if key = Str.of "status" then some (.string (Str.of "ok"))
    else if key = Str.of "totalResults" then some (.number 1)
    else if key = Str.of "articles" then some (.array articles)
    else none

/-- An article with a source that has no name, and one without a source. -/
def nameless : JsonValue :=
  .object fun key => if key = Str.of "source" then some (.object fun _ => none) else none

def sourceless : JsonValue := .object fun _ => some .null

/-- A valid document, and then one of which one of two articles is not. -/
def rejecting : List Event :=
  [.viewDidAppear, .snapshot 0,
    .response 0 (WebAnswer.response NewsList.decode ⟨some (some (documentOf [nameless])), false⟩),
    .viewDidAppear, .snapshot 1,
    .response 1 (WebAnswer.response NewsList.decode
      ⟨some (some (documentOf [nameless, sourceless])), false⟩)]

theorem shows_last_document_rejecting : ∃ t,
    Machine.run step (viewDidLoad .null) rejecting = some t ∧ t.numberOfRowsInSection = 1 ∧
    ((t.numberOfRowsInSection = 0 ∧ ∀ e ∈ rejecting, ∀ j, ¬ Brings e j) ∨
      ∃ pre e post j, rejecting = pre ++ e :: post ∧ Brings e j ∧
        (∀ e' ∈ post, ∀ j', ¬ Brings e' j') ∧
        t.numberOfRowsInSection = (j.elements (Str.of "articles")).length ∧
        ∀ (row : Nat) (x : JsonValue), (j.elements (Str.of "articles"))[row]? = some x →
          t.cellForRowAt row = .ok (cellOf x)) := by
  have hweb : ∀ e ∈ rejecting, FromWeb e := by simp [rejecting, FromWeb]
  exact ⟨_, rfl, rfl, @shows_last_document .null rejecting _ rfl hweb⟩

end HomeViewController

namespace SourcesViewController

/-- The answer of the catalogue request is what becomes of `a`. -/
def FromWeb : Event → Prop
  | .allSources r => ∃ a : WebAnswer, r = a.response SourcesList.decode
  | _ => True

def Brings (e : Event) (j : JsonValue) : Prop :=
  ∃ a : WebAnswer, e = .allSources (a.response SourcesList.decode) ∧ a.document? = some j ∧
    SourcesList.Valid j

/-- What the screen is before and after it has a catalogue. -/
inductive Catalogue (es : List Event) (c : SourcesViewController) : Prop
  | missing (hall : c.allSources = []) (huser : c.userSources = []) (hdisplayed : c.displayed = ∅)
    (hobserving : c.observing = false) (hes : ∀ e ∈ es, ∀ j, ¬ Brings e j)
  | shown (hrequested : c.requested = false) (e : Event) (he : e ∈ es) (j : JsonValue)
    (hb : Brings e j)
    (hall : c.allSources = (j.elements (Str.of "sources")).map Source.ofJson)

theorem Catalogue.step {es : List Event} {c c' : SourcesViewController} (h : Catalogue es c)
    {e : Event} (he : FromWeb e) (hstep : step c e = some c') : Catalogue (es ++ [e]) c' := by
  cases h with
  | missing hall huser hdisplayed hobserving hes =>
    have hkeep : (∀ j, ¬ Brings e j) → ∀ e' ∈ es ++ [e], ∀ j, ¬ Brings e' j := by
      intro hno e' he'
      rcases List.mem_append.mp he' with he' | he'
      · exact hes e' he'
      · rw [List.mem_singleton.mp he']; exact hno
    cases step_to hstep with
    | failed r hr hnone =>
      refine .missing hall huser hdisplayed hobserving (hkeep ?_)
      rintro j ⟨a, ha, hj, hvalid⟩
      cases ha
      have hlist := SourcesList.decode_eq_some.mpr ⟨hvalid, (rfl : (SourcesList.mk _).sources = _)⟩
      rw [getSources_response, hj, Option.bind_some, hlist] at hnone
      cases hnone
    | catalogue r list hr hlist =>
      obtain ⟨a, rfl⟩ := he
      rw [getSources_response] at hlist
      obtain ⟨j, hj, hlist⟩ := Option.bind_eq_some_iff.mp hlist
      obtain ⟨hvalid, hsources⟩ := SourcesList.decode_eq_some.mp hlist
      exact .shown rfl _ (by simp) j ⟨a, rfl, hj, hvalid⟩ hsources
    | snapshot value ho => rw [hobserving] at ho; cases ho
    | cell row hrow => rw [hall] at hrow; cases hrow
    | tap row hrow => rw [hdisplayed] at hrow; cases hrow
    | other e c' hsame hother =>
      obtain ⟨hall', huser', -, hobserving', hdisplayed', -⟩ := hsame
      refine .missing (hall'.trans hall) (huser'.trans huser) (hdisplayed'.trans hdisplayed)
        (hobserving'.trans hobserving) (hkeep ?_)
      rintro j ⟨a, rfl, -⟩
      rcases hother with h | ⟨error, h⟩ | h <;> cases h
  | shown hrequested e' he' j hb hall =>
    have hmem : e' ∈ es ++ [e] := List.mem_append_left _ he'
    cases step_to hstep with
    | failed r hr hnone => rw [hrequested] at hr; cases hr
    | catalogue r list hr hlist => rw [hrequested] at hr; cases hr
    | snapshot value ho => exact .shown hrequested e' hmem j hb hall
    | cell row hrow => exact .shown hrequested e' hmem j hb hall
    | tap row hrow =>
      exact .shown ((requested_tap c row).trans hrequested) e' hmem j hb
        ((allSources_tap c row).trans hall)
    | other e c' hsame hother =>
      exact .shown (hsame.2.2.1.trans hrequested) e' hmem j hb (hsame.1.trans hall)

/-- For every run of the Sources screen in which the catalogue request is answered with any
document, error or other body: if a valid document has arrived, the screen has a source for each of
its elements, and the cell of a row has the texts of its element; else it has no source, and Done
writes the empty string over the stored sources. -/
theorem shows_catalogue {es : List Event} {t : SourcesViewController}
    (hrun : Machine.run step viewDidLoad es = some t) (hweb : ∀ e ∈ es, FromWeb e) :
    (t.allSources = [] ∧ t.handleDismis = .child .userSources [] ∧
        ∀ e ∈ es, ∀ j, ¬ Brings e j) ∨
      ∃ e ∈ es, ∃ j, Brings e j ∧
        t.allSources.length = (j.elements (Str.of "sources")).length ∧
        ∀ (row : Nat) (x : JsonValue), (j.elements (Str.of "sources"))[row]? = some x →
          (t.cellForRowAt row).map Prod.fst = some (SourcesCell.setData (Source.ofJson x)) := by
  have hcatalogue : (∀ e ∈ es, FromWeb e) → Catalogue es t := by
    refine Machine.run_history (I := fun es t => (∀ e ∈ es, FromWeb e) → Catalogue es t)
      (fun _ => .missing rfl rfl rfl rfl (by simp)) ?_ hrun
    intro es e m t _ ih hstep hweb
    rw [List.forall_mem_append, List.forall_mem_singleton] at hweb
    exact (ih hweb.1).step hweb.2 hstep
  cases hcatalogue hweb with
  | missing hall huser _ _ hes =>
    exact .inl ⟨hall, by rw [handleDismis, huser]; rfl, hes⟩
  | shown _ e he j hb hall =>
    refine .inr ⟨e, he, j, hb, by rw [hall, List.length_map], fun row x hrow => ?_⟩
    rw [cellForRowAt, hall, List.getElem?_map, hrow]
    rfl

/-- A catalogue whose status is a number. -/
def numbered : JsonValue :=
  .object fun key =>
    if key = Str.of "status" then some (.number 200)
    else if key = Str.of "sources" then some (.array [])
    else none

/-- The catalogue is not valid, and Done is pressed. -/
def rejected : List Event :=
  [.allSources (WebAnswer.response SourcesList.decode ⟨some (some numbered), false⟩), .done]

theorem shows_catalogue_rejected : ∃ t, Machine.run step viewDidLoad rejected = some t ∧
    t.saves = 1 ∧
    ((t.allSources = [] ∧ t.handleDismis = .child .userSources [] ∧
        ∀ e ∈ rejected, ∀ j, ¬ Brings e j) ∨
      ∃ e ∈ rejected, ∃ j, Brings e j ∧
        t.allSources.length = (j.elements (Str.of "sources")).length ∧
        ∀ (row : Nat) (x : JsonValue), (j.elements (Str.of "sources"))[row]? = some x →
          (t.cellForRowAt row).map Prod.fst = some (SourcesCell.setData (Source.ofJson x))) := by
  have hweb : ∀ e ∈ rejected, FromWeb e := by simp [rejected, FromWeb]
  exact ⟨_, rfl, rfl, @shows_catalogue rejected _ rfl hweb⟩

end SourcesViewController
end MyNews
