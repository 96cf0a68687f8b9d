import MyNews.Record

/-!
# `OnlineRepository`

The closures that `OnlineRepository` runs on the answers of the database and of the news service,
as functions of the answer. Which account's record they are about is in `MyNews/Session.lean`.

`isUserProfileEmpty` reads six children with `as! String`, which traps when the child is missing
or not a string. `currentCity` and `getUserSources` read theirs with `as? String ?? ""`.
-/

namespace MyNews

/-- One row of the catalogue of sources, without the fields that no screen reads. -/
structure Source where
  id : Option Str
  name : Option Str := none
  category : Option Str := none
  description : Option Str := none
  deriving DecidableEq

/-- The decoded catalogue, without its status. -/
structure SourcesList where
  sources : List Source
  deriving DecidableEq

/-- `SoursNewsArticle`, without the id, which no screen reads. -/
structure SoursNewsArticle where
  name : Option Str := none
  deriving DecidableEq

/-- One article, without the date, which no screen reads. -/
structure NewsArticle where
  author : Option Str := none
  content : Option Str := none
  description : Option Str := none
  source : SoursNewsArticle := {}
  title : Option Str := none
  url : Option Str := none
  urlToImage : Option Str := none
  deriving DecidableEq

/-- The decoded news, without their status and number. -/
structure NewsList where
  articles : List NewsArticle
  deriving DecidableEq

/-- The answer of a web request. `data` is the body, if there is one, with what `JSONDecoder`
makes of it. -/
structure DataResponse (α : Type) where
  data : Option (Option α)
  error : Bool

namespace OnlineRepository

/-- `postInfo`, the record that `addUserItems` sets. -/
def postInfo : Record
  | .userName => some (.string [])
  | .userSername => some (.string [])
  | .userMobile => some (.string [])
  | .userBirthDate => some (.string [])
  | .userCountry => some (.string [])
  | .userCity => some (.string [])
  | .userSources => some (.string [])

/-- `addUserItems`: the write that it makes. -/
def addUserItems : Write := .record postInfo

/-- `dick[field] as! String`; the error is the child whose cast traps. -/
def castString (dick : Record) (field : Field) : Except Field Str :=
  match dick.string? field with
  | some s => .ok s
  | none => .error field

/-- `isUserProfileEmpty`: the argument of `complationHandler`, or `none` where the guard returns
before. -/
def isUserProfileEmpty (snapshot : DataSnapshot) : Except Field (Option Bool) := do
  let dick := snapshot.dick
  if dick.isEmpty then
    return none
  let name ← castString dick .userName
  let sername ← castString dick .userSername
  let phone ← castString dick .userMobile
  let country ← castString dick .userCountry
  let city ← castString dick .userCity
  let date ← castString dick .userBirthDate
  return some (name.isEmpty || sername.isEmpty || phone.isEmpty || country.isEmpty ||
    city.isEmpty || date.isEmpty)

/-- `currentCity`: the argument of `completionHandler`. -/
def currentCity (snapshot : DataSnapshot) : Option Str :=
  let dick := snapshot.dick
  if dick.isEmpty then none else some ((dick.string? .userCity).getD [])

/-- `getUserSources`: the argument of `complationHandler`. -/
def getUserSources (snapshot : DataSnapshot) : Str :=
  let dick := snapshot.dick
  if dick.isEmpty then [] else (dick.string? .userSources).getD []

/-- `getSources`: the argument of `completionHandler`. -/
def getSources (response : DataResponse SourcesList) : Option SourcesList :=
  match response.data, response.error with
  | some decOBJ, false => decOBJ
  | _, _ => none

/-- `getNews`: the argument of `completionHandler`, or `none` where `response.error!` traps. -/
def getNews (response : DataResponse NewsList) : Option (Option NewsList) :=
  match response.data, response.error with
  | some decOBJ, false => some decOBJ
  | _, true => some none
  | none, false => none

/-! ## The completeness test -/

/-- The children that the completeness test reads. -/
def profileFields : List Field :=
  [.userName, .userSername, .userMobile, .userCountry, .userCity, .userBirthDate]

theorem castString_eq_ok {dick : Record} {field : Field} {s : Str} :
    castString dick field = .ok s ↔ dick field = some (.string s) := by
  rw [← Record.string?_eq_some, castString]
  split
  · rename_i h; simp [h]
  · rename_i h; simp [h]

/-- A record that the completeness test reads without a trap: it is empty, or all six children
are strings. -/
def Readable (dick : Record) : Prop :=
  dick = Record.empty ∨ ∀ field ∈ profileFields, ∃ s, dick field = some (.string s)

/-- The completeness test of a record whose six children are strings. -/
theorem isUserProfileEmpty_of_strings {snapshot : DataSnapshot} {text : Field → Str}
    (h : ∀ field ∈ profileFields, snapshot.dick field = some (.string (text field))) :
    isUserProfileEmpty snapshot =
      .ok (some (profileFields.any fun field => (text field).isEmpty)) := by
  have hc : ∀ field ∈ profileFields, castString snapshot.dick field = .ok (text field) :=
    fun field hf => castString_eq_ok.mpr (h field hf)
  simp only [profileFields, List.forall_mem_cons] at hc
  obtain ⟨h1, h2, h3, h4, h5, h6, -⟩ := hc
  have hne : snapshot.dick.isEmpty = false := by
    rw [Bool.eq_false_iff]
    intro he
    have h0 := h .userName (by simp [profileFields])
    rw [Record.isEmpty_iff.mp he] at h0
    cases h0
  simp [isUserProfileEmpty, hne, h1, h2, h3, h4, h5, h6, profileFields, bind, Except.bind, pure,
    Except.pure, Bool.or_assoc]

/-- The six children of the completeness test are texts that are not empty. -/
def Filled (record : Record) : Prop :=
  ∀ field ∈ profileFields, ∃ s, record field = some (.string s) ∧ s ≠ []

theorem isUserProfileEmpty_of_filled {snapshot : DataSnapshot} (h : Filled snapshot.dick) :
    isUserProfileEmpty snapshot = .ok (some false) := by
  choose! text ht using h
  rw [isUserProfileEmpty_of_strings fun field hf => (ht field hf).1]
  have hany : (profileFields.any fun field => (text field).isEmpty) = false := by
    rw [List.any_eq_false]
    intro field hf
    simpa using (ht field hf).2
  rw [hany]

theorem bind_eq_ok {α β : Type} {x : Except Field α} {f : α → Except Field β} {r : β}
    (h : x >>= f = .ok r) : ∃ a, x = .ok a ∧ f a = .ok r := by
  cases x with
  | error e => cases h
  | ok a => exact ⟨a, rfl, h⟩

/-- The casts of the completeness test succeed exactly on the readable records. -/
theorem isUserProfileEmpty_ok_iff {snapshot : DataSnapshot} :
    (∃ r, isUserProfileEmpty snapshot = .ok r) ↔ Readable snapshot.dick := by
  constructor
  · rintro ⟨r, hr⟩
    by_cases he : snapshot.dick.isEmpty = true
    · exact .inl (Record.isEmpty_iff.mp he)
    · right
      simp only [isUserProfileEmpty, he, Bool.false_eq_true, ↓reduceIte] at hr
      obtain ⟨_, h1, hr⟩ := bind_eq_ok hr
      obtain ⟨_, h2, hr⟩ := bind_eq_ok hr
      obtain ⟨_, h3, hr⟩ := bind_eq_ok hr
      obtain ⟨_, h4, hr⟩ := bind_eq_ok hr
      obtain ⟨_, h5, hr⟩ := bind_eq_ok hr
      obtain ⟨_, h6, -⟩ := bind_eq_ok hr
      simp only [profileFields, List.forall_mem_cons]
      exact ⟨⟨_, castString_eq_ok.mp h1⟩, ⟨_, castString_eq_ok.mp h2⟩, ⟨_, castString_eq_ok.mp h3⟩,
        ⟨_, castString_eq_ok.mp h4⟩, ⟨_, castString_eq_ok.mp h5⟩, ⟨_, castString_eq_ok.mp h6⟩,
        by simp⟩
  · rintro (he | h)
    · exact ⟨none, by simp [isUserProfileEmpty, he, pure, Except.pure]⟩
    · choose! text ht using h
      exact ⟨_, isUserProfileEmpty_of_strings ht⟩

end OnlineRepository

end MyNews
