import MyNews.Lib.Uri
import MyNews.HomeViewController

/-!
# The URL of the news request

`getNews` writes the stored string into the URL of its request as it is. `URL(string:)` reads the
URL by the syntax of RFC 3986, and the request is made with the URL that it gives.

* `newsURL_scalars`: where the stored string stands in the URL.
* `read_as_stored_iff`: the URL has the parameters `sources` and `apiKey` iff the ids have only
  characters that stand for themselves in a query.
-/

namespace MyNews

/-- `String.unicodeScalars`. -/
def Str.scalars (s : Str) : List Char := s.flatMap fun c => c.scalar :: c.combining

/-- `URL(string:)`. -/
def URL.string (s : Str) : Option Uri := Uri.parse s.scalars

namespace OnlineRepository

/-- The key of the app. -/
def apiKey : Str := Str.of "d9190df3b0dc4cffa64adadb38af6078"

/-- The URL of `getNews`. -/
def newsURL (sources : Str) : Str :=
  Str.of "https://newsapi.org/v2/top-headlines?sources=" ++ sources ++ Str.of "&apiKey=" ++ apiKey

end OnlineRepository

namespace HomeViewController

open OnlineRepository SourcesViewModel Segments

/-- The URL of the request for the sources of the record has the parameters `sources`, which is the
stored string, and `apiKey`, and no others. -/
def ReadAsStored (record : Record) : Prop :=
  ∃ stored url, record .userSources = some (.string stored) ∧
    URL.string (newsURL (userSources (getUserSources record.snapshot))) = some url ∧
    url.queryParameters.Perm
      [(Uri.utf8 "sources".toList, some (Uri.utf8 stored.scalars)),
        (Uri.utf8 "apiKey".toList, some (Uri.utf8 apiKey.scalars))]

theorem scalars_append (s t : Str) : (s ++ t).scalars = s.scalars ++ t.scalars :=
  List.flatMap_append

theorem scalars_of (s : String) : (Str.of s).scalars = s.toList := by
  rw [Str.scalars, Str.of, List.flatMap_map]
  simp

/-- The text before the query. -/
def endpoint : List Char := "https://newsapi.org/v2/top-headlines".toList

/-- The text after the stored string and its `&`. -/
def keyParameter : List Char := "apiKey=d9190df3b0dc4cffa64adadb38af6078".toList

theorem newsURL_scalars (sources : Str) : (newsURL sources).scalars =
    endpoint ++ '?' :: ("sources".toList ++ '=' :: (sources.scalars ++ '&' :: keyParameter)) := by
  have h1 : "https://newsapi.org/v2/top-headlines?sources=".toList =
      endpoint ++ '?' :: ("sources".toList ++ ['=']) := by decide
  have h2 : "&apiKey=".toList ++ "d9190df3b0dc4cffa64adadb38af6078".toList =
      '&' :: keyParameter := by decide
  rw [newsURL, apiKey, List.append_assoc, scalars_append, scalars_append, scalars_append,
    scalars_of, scalars_of, scalars_of, h1, h2]
  simp

theorem plain_sources : ∀ c ∈ "sources".toList, Uri.plain c = true :=
  List.all_eq_true.mp (by decide)

theorem parameters_keyParameter : Uri.parameters keyParameter =
    [(Uri.utf8 "apiKey".toList, some (Uri.utf8 apiKey.scalars))] := by
  rw [apiKey, scalars_of]
  decide

/-- A string that Home does not replace is read back from the URL iff it has only characters that
stand for themselves in a query. -/
theorem queryParameters_newsURL_iff (stored : Str) :
    (∃ url, URL.string (newsURL stored) = some url ∧ url.queryParameters.Perm
      [(Uri.utf8 "sources".toList, some (Uri.utf8 stored.scalars)),
        (Uri.utf8 "apiKey".toList, some (Uri.utf8 apiKey.scalars))]) ↔
      ∀ c ∈ stored.scalars, Uri.plain c = true := by
  rw [URL.string, newsURL_scalars]
  constructor
  · rintro ⟨url, hurl, hperm⟩
    have hhead := Uri.head?_queryParameters (by decide) (by decide) plain_sources (by decide) hurl
    -- The first parameter is one of the two, and has the name of the one.
    rcases List.mem_cons.mp (hperm.subset (List.mem_of_mem_head? hhead)) with he | he
    · rw [he] at hhead
      exact Uri.plain_of_head (by decide) (by decide) plain_sources (by decide) hurl hhead
    · have hname : Uri.utf8 "sources".toList = Uri.utf8 "apiKey".toList :=
        congrArg Prod.fst (List.mem_singleton.mp he)
      exact absurd hname (by decide)
  · intro hplain
    obtain ⟨url, hurl, hparameters⟩ := @Uri.parameters_of_plain endpoint "sources".toList
      stored.scalars keyParameter (by decide) (by decide) (by decide) plain_sources (by decide)
      (by decide) (by decide) hplain
    refine ⟨url, hurl, ?_⟩
    rw [hparameters, parameters_keyParameter]

theorem userSources_parseNew {l : List Str} (hne : l ≠ []) (h : ∀ id ∈ l, id ≠ []) :
    userSources (parseNewUserSources l) = parseNewUserSources l := by
  rw [userSources_eq_self_iff, parseNewUserSources_eq]
  intro hj
  rw [join_eq_nil_iff_dropWhile, dropWhile_isEmpty_of_ne_nil h] at hj
  exact hne hj

/-- The characters of the stored string are those of the ids, and commas. -/
theorem plain_parseNew_iff {l : List Str} (h : ∀ id ∈ l, id ≠ []) :
    (∀ c ∈ (parseNewUserSources l).scalars, Uri.plain c = true) ↔
      ∀ id ∈ l, ∀ c ∈ id.scalars, Uri.plain c = true := by
  have hcomma : ∀ c ∈ comma.scalar :: comma.combining, Uri.plain c = true :=
    List.all_eq_true.mp (by decide)
  rw [parseNewUserSources_eq, join_eq, dropWhile_isEmpty_of_ne_nil h]
  simp only [Str.scalars, List.forall_mem_flatMap]
  exact forall_mem_intercalate hcomma

/-- For every list of ids, none empty, that is saved and read back by Home: the URL of the request
has exactly the parameters `sources`, which is the stored string, and `apiKey` iff the characters
of the ids are characters of a query other than `&`. -/
theorem read_as_stored_iff {l : List Str} (hne : l ≠ []) (h : ∀ id ∈ l, id ≠ []) (old : Record) :
    ReadAsStored ((saveUserSources l).apply old) ↔
      ∀ id ∈ l, ∀ c ∈ id.scalars, Uri.plain c = true := by
  have hstored : (saveUserSources l).apply old .userSources =
      some (.string (parseNewUserSources l)) := Write.apply_child_self _ _ _
  rw [← plain_parseNew_iff h, ← queryParameters_newsURL_iff, ReadAsStored, getUserSources_save,
    userSources_parseNew hne h, hstored]
  constructor
  · rintro ⟨stored, url, hs, hurl, hperm⟩
    cases hs
    exact ⟨url, hurl, hperm⟩
  · rintro ⟨url, hurl, hperm⟩
    exact ⟨_, url, rfl, hurl, hperm⟩

theorem read_as_stored_iff_ampersand :
    ReadAsStored ((saveUserSources [Str.of "a&b"]).apply Record.empty) ↔
      ∀ id ∈ [Str.of "a&b"], ∀ c ∈ id.scalars, Uri.plain c = true :=
  read_as_stored_iff (by decide) (by decide) _

/-- The id `a&b` adds a parameter, and with the id `a b` there is no URL. -/
theorem not_read_as_stored_ampersand :
    ¬ ReadAsStored ((saveUserSources [Str.of "a&b"]).apply Record.empty) ∧
      ¬ ReadAsStored ((saveUserSources [Str.of "a b"]).apply Record.empty) := by
  constructor
  · rintro ⟨stored, url, -, hurl, hperm⟩
    have hlength : (URL.string (newsURL (Str.of "a&b"))).map (fun url =>
        url.queryParameters.length) = some 3 := by decide
    rw [show URL.string (newsURL (Str.of "a&b")) = some url from hurl] at hlength
    have hthree : url.queryParameters.length = 3 := Option.some.inj hlength
    rw [hperm.length_eq] at hthree
    cases hthree
  · rintro ⟨stored, url, -, hurl, -⟩
    have hnone : (URL.string (newsURL (Str.of "a b"))).isNone = true := by decide
    rw [show URL.string (newsURL (Str.of "a b")) = some url from hurl] at hnone
    cases hnone

end HomeViewController
end MyNews
