import MyNews.Lib.Json
import MyNews.OnlineRepository

/-!
# The documents of the news service

`JSONDecoder` with the decoders that Swift derives for the structures of `OnlineRepository.swift`.
A field with an optional type can be missing or `null`, but no field can have a value of another
type. `Int` takes the numbers that 64 bits can hold. `try?` drops the error.

`responseJSON` sets an error if the body is no JSON document.

* `NewsList.decode_eq_some`, `SourcesList.decode_eq_some`: the documents that are accepted, and what
  becomes of them. One element of another form rejects a whole document.
-/

namespace MyNews

/-- A document of the service. -/
abbrev JsonValue := Json Str

/-! ## The derived decoders -/

def Source.decode (j : JsonValue) : Option Source := do
  let category ← j.decodeIfPresent Json.string? (Str.of "category")
  let _ ← j.decodeIfPresent Json.string? (Str.of "country")
  let id ← j.decodeIfPresent Json.string? (Str.of "id")
  let _ ← j.decodeIfPresent Json.string? (Str.of "language")
  let description ← j.decodeIfPresent Json.string? (Str.of "description")
  let name ← j.decodeIfPresent Json.string? (Str.of "name")
  let _ ← j.decodeIfPresent Json.string? (Str.of "url")
  return { id, name, category, description }

def SourcesList.decode (j : JsonValue) : Option SourcesList := do
  let _ ← j.decodeIfPresent Json.string? (Str.of "status")
  let sources ← j.decode (Json.list? Source.decode) (Str.of "sources")
  return { sources }

def SoursNewsArticle.decode (j : JsonValue) : Option SoursNewsArticle := do
  let _ ← j.decodeIfPresent Json.string? (Str.of "id")
  let name ← j.decodeIfPresent Json.string? (Str.of "name")
  return { name }

def NewsArticle.decode (j : JsonValue) : Option NewsArticle := do
  let author ← j.decodeIfPresent Json.string? (Str.of "author")
  let content ← j.decodeIfPresent Json.string? (Str.of "content")
  let description ← j.decodeIfPresent Json.string? (Str.of "description")
  let _ ← j.decodeIfPresent Json.string? (Str.of "publishedAt")
  let source ← j.decode SoursNewsArticle.decode (Str.of "source")
  let title ← j.decodeIfPresent Json.string? (Str.of "title")
  let url ← j.decodeIfPresent Json.string? (Str.of "url")
  let urlToImage ← j.decodeIfPresent Json.string? (Str.of "urlToImage")
  return { author, content, description, source, title, url, urlToImage }

def NewsList.decode (j : JsonValue) : Option NewsList := do
  let _ ← j.decode Json.string? (Str.of "status")
  let _ ← j.decode Json.int64? (Str.of "totalResults")
  let articles ← j.decode (Json.list? NewsArticle.decode) (Str.of "articles")
  return { articles }

/-- The answer to a web request. -/
structure WebAnswer where
  /-- The body, if there is one, as a document, if it is one. -/
  body : Option (Option JsonValue)
  error : Bool

namespace WebAnswer

/-- The `response` of `responseJSON`, with what `decode` makes of its data. -/
def response {α : Type} (decode : JsonValue → Option α) (a : WebAnswer) : DataResponse α where
  data := a.body.map fun document => document.bind decode
  error := a.error

/-- The document of an answer without an error. -/
def document? (a : WebAnswer) : Option JsonValue := if a.error then none else a.body.join

end WebAnswer

/-! ## The documents that are accepted -/

/-- The texts are strings, `null` or missing. -/
def HasTexts (j : JsonValue) (keys : List String) : Prop :=
  j.IsObject ∧ ∀ key ∈ keys, j.HasText (Str.of key)

def Source.Valid (j : JsonValue) : Prop :=
  HasTexts j ["category", "country", "id", "language", "description", "name", "url"]

def SoursNewsArticle.Valid (j : JsonValue) : Prop := HasTexts j ["id", "name"]

/-- The source of an article cannot be missing. -/
def NewsArticle.Valid (j : JsonValue) : Prop :=
  HasTexts j ["author", "content", "description", "publishedAt", "title", "url", "urlToImage"] ∧
    ∃ source, j.member? (Str.of "source") = some source ∧ SoursNewsArticle.Valid source

structure NewsList.Valid (j : JsonValue) : Prop where
  status : ∃ s, j.member? (Str.of "status") = some (.string s)
  totalResults : ∃ n : Int, j.member? (Str.of "totalResults") = some (.number n) ∧ Json.Fits64 n
  articles : ∃ l, j.member? (Str.of "articles") = some (.array l)
  valid : ∀ x ∈ j.elements (Str.of "articles"), NewsArticle.Valid x

structure SourcesList.Valid (j : JsonValue) : Prop where
  status : j.HasText (Str.of "status")
  sources : ∃ l, j.member? (Str.of "sources") = some (.array l)
  valid : ∀ x ∈ j.elements (Str.of "sources"), Source.Valid x

/-! ## What becomes of them -/

def Source.ofJson (j : JsonValue) : Source where
  id := j.text? (Str.of "id")
  name := j.text? (Str.of "name")
  category := j.text? (Str.of "category")
  description := j.text? (Str.of "description")

def NewsArticle.ofJson (j : JsonValue) : NewsArticle where
  author := j.text? (Str.of "author")
  content := j.text? (Str.of "content")
  description := j.text? (Str.of "description")
  source := { name := (j.member? (Str.of "source")).bind (Json.text? (Str.of "name")) }
  title := j.text? (Str.of "title")
  url := j.text? (Str.of "url")
  urlToImage := j.text? (Str.of "urlToImage")

theorem Source.decode_eq_some {j : JsonValue} {source : Source} :
    Source.decode j = some source ↔ Source.Valid j ∧ source = Source.ofJson j := by
  simp only [Source.decode, Option.bind_eq_bind, Option.pure_def,
    Json.decodeIfPresent_bind_eq_some, Option.some.injEq, Source.Valid, HasTexts,
    List.forall_mem_cons, List.not_mem_nil, false_imp_iff, implies_true, and_true]
  constructor
  · rintro ⟨⟨h, h1⟩, ⟨-, h2⟩, ⟨-, h3⟩, ⟨-, h4⟩, ⟨-, h5⟩, ⟨-, h6⟩, ⟨-, h7⟩, rfl⟩
    exact ⟨⟨h, h1, h2, h3, h4, h5, h6, h7⟩, rfl⟩
  · rintro ⟨⟨h, h1, h2, h3, h4, h5, h6, h7⟩, rfl⟩
    exact ⟨⟨h, h1⟩, ⟨h, h2⟩, ⟨h, h3⟩, ⟨h, h4⟩, ⟨h, h5⟩, ⟨h, h6⟩, ⟨h, h7⟩, rfl⟩

theorem SoursNewsArticle.decode_eq_some {j : JsonValue} {source : SoursNewsArticle} :
    SoursNewsArticle.decode j = some source ↔
      SoursNewsArticle.Valid j ∧ source = { name := j.text? (Str.of "name") } := by
  simp only [SoursNewsArticle.decode, Option.bind_eq_bind, Option.pure_def,
    Json.decodeIfPresent_bind_eq_some, Option.some.injEq, SoursNewsArticle.Valid, HasTexts,
    List.forall_mem_cons, List.not_mem_nil, false_imp_iff, implies_true, and_true]
  constructor
  · rintro ⟨⟨h, h1⟩, ⟨-, h2⟩, rfl⟩
    exact ⟨⟨h, h1, h2⟩, rfl⟩
  · rintro ⟨⟨h, h1, h2⟩, rfl⟩
    exact ⟨⟨h, h1⟩, ⟨h, h2⟩, rfl⟩

theorem NewsArticle.decode_eq_some {j : JsonValue} {article : NewsArticle} :
    NewsArticle.decode j = some article ↔
      NewsArticle.Valid j ∧ article = NewsArticle.ofJson j := by
  simp only [NewsArticle.decode, Option.bind_eq_bind, Option.pure_def,
    Json.decodeIfPresent_bind_eq_some, Json.decode_bind_eq_some, Json.decode_eq_some,
    SoursNewsArticle.decode_eq_some, Option.some.injEq, NewsArticle.Valid, HasTexts,
    List.forall_mem_cons, List.not_mem_nil, false_imp_iff, implies_true, and_true]
  constructor
  · rintro ⟨⟨h, h1⟩, ⟨-, h2⟩, ⟨-, h3⟩, ⟨-, h4⟩, _, ⟨source, hsource, hvalid, rfl⟩, ⟨-, h5⟩,
      ⟨-, h6⟩, ⟨-, h7⟩, rfl⟩
    refine ⟨⟨⟨h, h1, h2, h3, h4, h5, h6, h7⟩, source, hsource, hvalid⟩, ?_⟩
    rw [NewsArticle.ofJson, hsource]
    rfl
  · rintro ⟨⟨⟨h, h1, h2, h3, h4, h5, h6, h7⟩, source, hsource, hvalid⟩, rfl⟩
    refine ⟨⟨h, h1⟩, ⟨h, h2⟩, ⟨h, h3⟩, ⟨h, h4⟩, _, ⟨source, hsource, hvalid, rfl⟩, ⟨h, h5⟩,
      ⟨h, h6⟩, ⟨h, h7⟩, ?_⟩
    rw [NewsArticle.ofJson, hsource]
    rfl

/-- A document of news is accepted iff it is valid, with one article for each element. -/
theorem NewsList.decode_eq_some {j : JsonValue} {list : NewsList} :
    NewsList.decode j = some list ↔ NewsList.Valid j ∧
      list.articles = (j.elements (Str.of "articles")).map NewsArticle.ofJson := by
  simp only [NewsList.decode, Option.bind_eq_bind, Option.pure_def, Json.decode_bind_eq_some,
    Json.decode_eq_some (f := Json.string?), Json.decode_eq_some (f := Json.int64?),
    Json.string?_eq_some, Json.int64?_eq_some,
    Json.decode_list_eq_some fun _ _ => NewsArticle.decode_eq_some]
  constructor
  · rintro ⟨s, ⟨_, hstatus, rfl⟩, n, ⟨_, hnumber, rfl, hn⟩, _, ⟨harticles, hvalid, rfl⟩, h⟩
    cases h
    exact ⟨⟨⟨s, hstatus⟩, ⟨n, hnumber, hn⟩, harticles, hvalid⟩, rfl⟩
  · rintro ⟨⟨⟨s, hstatus⟩, ⟨n, hnumber, hn⟩, harticles, hvalid⟩, hlist⟩
    refine ⟨s, ⟨_, hstatus, rfl⟩, n, ⟨_, hnumber, rfl, hn⟩, _, ⟨harticles, hvalid, rfl⟩, ?_⟩
    rw [← hlist]

/-- The same for the catalogue. -/
theorem SourcesList.decode_eq_some {j : JsonValue} {list : SourcesList} :
    SourcesList.decode j = some list ↔ SourcesList.Valid j ∧
      list.sources = (j.elements (Str.of "sources")).map Source.ofJson := by
  simp only [SourcesList.decode, Option.bind_eq_bind, Option.pure_def,
    Json.decodeIfPresent_bind_eq_some, Json.decode_bind_eq_some,
    Json.decode_list_eq_some fun _ _ => Source.decode_eq_some]
  constructor
  · rintro ⟨⟨-, hstatus⟩, _, ⟨hsources, hvalid, rfl⟩, h⟩
    cases h
    exact ⟨⟨hstatus, hsources, hvalid⟩, rfl⟩
  · rintro ⟨⟨hstatus, hsources, hvalid⟩, hlist⟩
    refine ⟨⟨?_, hstatus⟩, _, ⟨hsources, hvalid, rfl⟩, ?_⟩
    · obtain ⟨l, hl⟩ := hsources
      exact Json.isObject_of_member hl
    · rw [← hlist]

namespace OnlineRepository

/-- The list that an answer brings is what becomes of its document. -/
theorem getNews_response (a : WebAnswer) :
    (getNews (a.response NewsList.decode)).join = a.document?.bind NewsList.decode := by
  obtain ⟨body, error⟩ := a
  cases error with
  | true => cases body <;> rfl
  | false => cases body <;> rfl

theorem getSources_response (a : WebAnswer) :
    getSources (a.response SourcesList.decode) = a.document?.bind SourcesList.decode := by
  obtain ⟨body, error⟩ := a
  cases error with
  | true => cases body <;> rfl
  | false => cases body <;> rfl

end OnlineRepository
end MyNews
