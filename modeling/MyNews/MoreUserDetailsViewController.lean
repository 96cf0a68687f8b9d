import MyNews.Lib.Machine
import MyNews.OnlineRepository

/-!
# `MoreUserDetailsViewController`

The form for all the details of an account, with a picker for the country and one for its cities.
No storyboard shows it and no target builds it: its outlets, the data sources of its pickers and its
segues are assumed here. It is the only code that asks for a country and a city.

The city picker has five rows `--` until a country is selected. Selecting one of them unwraps
`countryString`, which is `nil`. Selecting a country drops the city and reloads the city picker.

* `traps_iff`: the screen traps iff the first turn of the two pickers is one of the city picker.
* `next_saves_iff`: Next saves iff the three texts are not empty and the last turn of the two
  pickers is one of the city picker; it saves the rows to which they were turned, in a record in
  which no text is empty.
-/

namespace MyNews

/-- A control that `checkInfo` marks in red. -/
inductive MoreUserDetailsControl where
  | userName
  | userSername
  | userMobile
  | dateAlert
  | countryAlert
  | cityAlert
  deriving DecidableEq

structure MoreUserDetailsViewController where
  /-- The uid of `user`. -/
  user : Option Str
  userName : Str
  userSername : Str
  userMobile : Str
  /-- The day that `birthDatePicker` shows. -/
  birthDate : Date
  dateString : Option Str
  countryString : Option Str
  cityString : Option Str
  /-- The controls that are marked in red. -/
  marked : List MoreUserDetailsControl
  /-- The writes, each with the account of its path. -/
  written : List (Str × Write)
  /-- An unwrap or an index has trapped. -/
  trapped : Bool
  /-- A segue has left the screen. -/
  left : Bool

namespace MoreUserDetailsViewController

open OnlineRepository

def countryArray : List Str := [Str.of "Ukrain", Str.of "Poland", Str.of "Germany"]

/-- The dictionary `cityArray`. -/
def cityArray (country : Str) : Option (List Str) :=
  if country = Str.of "Ukrain" then
    some [Str.of "Kiev", Str.of "Kharkov", Str.of "Dnepr", Str.of "Lviv"]
  else if country = Str.of "Poland" then
    some [Str.of "Warsaw", Str.of "Krakow", Str.of "Poznan", Str.of "Lodz"]
  else if country = Str.of "Germany" then
    some [Str.of "Berlin", Str.of "Munich", Str.of "Koln", Str.of "Hamburg"]
  else none

/-- The screen after `viewDidLoad`. -/
def viewDidLoad (user : Option Str) (today : Date) : MoreUserDetailsViewController where
  user
  userName := []
  userSername := []
  userMobile := []
  birthDate := today
  dateString := none
  countryString := none
  cityString := none
  marked := []
  written := []
  trapped := false
  left := false

/-! ## The pickers -/

inductive Picker where
  | country
  | city
  deriving DecidableEq

/-- `cityArray[countryString!]![row]`; `none` where it traps. -/
def cityAt (c : MoreUserDetailsViewController) (row : Nat) : Option Str :=
  c.countryString.bind fun country => (cityArray country).bind fun cities => cities[row]?

/-- `numberOfRowsInComponent`; `none` where the unwrap traps. -/
def numberOfRowsInComponent (c : MoreUserDetailsViewController) : Picker → Option Nat
  | .country => some countryArray.length
  | .city =>
    match c.countryString with
    | none => some 5
    | some country => (cityArray country).map List.length

/-- `titleForRow`; `none` where it traps. -/
def titleForRow (c : MoreUserDetailsViewController) (picker : Picker) (row : Nat) : Option Str :=
  match picker with
  | .country => countryArray[row]?
  | .city => if c.countryString = none then some (Str.of "--") else c.cityAt row

/-- `didSelectRow`. -/
def didSelectRow (c : MoreUserDetailsViewController) (picker : Picker) (row : Nat) :
    MoreUserDetailsViewController :=
  match picker with
  | .country =>
    match countryArray[row]? with
    | some country => { c with countryString := some country, cityString := none }
    | none => { c with trapped := true }
  | .city =>
    match c.cityAt row with
    | some city => { c with cityString := some city }
    | none => { c with trapped := true }

/-! ## Next -/

/-- `checkInfo`. The formatter always returns a string. -/
def checkInfo (c : MoreUserDetailsViewController) : Bool × MoreUserDetailsViewController :=
  if c.userName.isEmpty then (false, { c with marked := c.marked ++ [.userName] })
  else if c.userSername.isEmpty then (false, { c with marked := c.marked ++ [.userSername] })
  else if c.userMobile.isEmpty then (false, { c with marked := c.marked ++ [.userMobile] })
  else
    let c := { c with dateString := some (DateFormatter.string c.birthDate) }
    if c.dateString = none then (false, { c with marked := c.marked ++ [.dateAlert] })
    else if c.countryString = none then (false, { c with marked := c.marked ++ [.countryAlert] })
    else if c.cityString = none then (false, { c with marked := c.marked ++ [.cityAlert] })
    else (true, c)

/-- `postInfo`, for the texts that `nextButton` has unwrapped. -/
def postInfo (c : MoreUserDetailsViewController) (date country city : Str) : Record
  | .userName => some (.string c.userName)
  | .userSername => some (.string c.userSername)
  | .userMobile => some (.string c.userMobile)
  | .userBirthDate => some (.string date)
  | .userCountry => some (.string country)
  | .userCity => some (.string city)
  | .userSources => some (.string [])

/-- `nextButton`. -/
def nextButton (c : MoreUserDetailsViewController) : MoreUserDetailsViewController :=
  match c.checkInfo with
  | (false, c) => c
  | (true, c) =>
    match c.dateString, c.countryString, c.cityString, c.user with
    | some date, some country, some city, some uid =>
      { c with
        written := c.written ++ [(uid, .record (c.postInfo date country city))], left := true }
    | _, _, _, _ => { c with trapped := true }

/-! ## The machine -/

/-- A text field of the screen. -/
inductive TextField where
  | userName
  | userSername
  | userMobile
  deriving DecidableEq

/-- The text field shows `text`. -/
def set (c : MoreUserDetailsViewController) (f : TextField) (text : Str) :
    MoreUserDetailsViewController :=
  match f with
  | .userName => { c with userName := text }
  | .userSername => { c with userSername := text }
  | .userMobile => { c with userMobile := text }

/-- What happens to the screen. -/
inductive Event where
  | edit (f : TextField) (text : Str)
  | pick (date : Date)
  /-- A picker asks for the title of a row. -/
  | title (picker : Picker) (row : Nat)
  /-- The user turns a picker to a row. -/
  | select (picker : Picker) (row : Nat)
  | next
  | back

/-- The picker has the row; `none` where the count of its rows traps. -/
def hasRow (c : MoreUserDetailsViewController) (picker : Picker) (row : Nat) : Option Bool :=
  (c.numberOfRowsInComponent picker).map fun n => decide (row < n)

/-- The screen after the event, if it is there. -/
def act (c : MoreUserDetailsViewController) : Event → Option MoreUserDetailsViewController
  | .edit f text => some (c.set f text)
  | .pick date => some { c with birthDate := date }
  | .title picker row =>
    match c.hasRow picker row with
    | some true =>
      some (if (c.titleForRow picker row).isSome then c else { c with trapped := true })
    | some false => none
    | none => some { c with trapped := true }
  | .select picker row =>
    match c.hasRow picker row with
    | some true => some (c.didSelectRow picker row)
    | some false => none
    | none => some { c with trapped := true }
  | .next => some c.nextButton
  | .back => some { c with left := true }

/-- The screen after the event; `none` if the event cannot happen. -/
def step (c : MoreUserDetailsViewController) (e : Event) : Option MoreUserDetailsViewController :=
  if c.trapped = false ∧ c.left = false then c.act e else none

/-! ## What the pickers are turned to -/

/-- The picker and the row of a turn. -/
def Event.turn? : Event → Option (Picker × Nat)
  | select picker row => some (picker, row)
  | _ => none

/-- The turns of the two pickers in a run. -/
def turns (es : List Event) : List (Picker × Nat) := es.filterMap Event.turn?

/-- The row of a turn of the country picker. -/
def countryRow? : Picker × Nat → Option Nat
  | (.country, row) => some row
  | (.city, _) => none

/-- The country of the last turn of the country picker. -/
def lastCountry (es : List Event) : Option Str :=
  (((turns es).filterMap countryRow?).getLast?).bind fun row => countryArray[row]?

theorem turns_concat (es : List Event) (e : Event) :
    turns (es ++ [e]) = turns es ++ e.turn?.toList := Machine.filterMap_concat _ _ _

/-- Each country has four cities, none of which is the empty text. -/
theorem cities_of_mem {country : Str} (h : country ∈ countryArray) :
    ∃ cities, cityArray country = some cities ∧ cities.length = 4 ∧ [] ∉ cities := by
  simp only [countryArray, List.mem_cons, List.not_mem_nil, or_false] at h
  rcases h with rfl | rfl | rfl
  · exact ⟨_, rfl, rfl, by simp [Str.of]⟩
  · exact ⟨_, rfl, rfl, by simp [Str.of]⟩
  · exact ⟨_, rfl, rfl, by simp [Str.of]⟩

theorem ne_nil_of_mem {country : Str} (h : country ∈ countryArray) : country ≠ [] := by
  rintro rfl
  simp [countryArray, Str.of] at h

/-- `checkInfo` accepts iff the three texts are not empty and both pickers have left a text. -/
theorem checkInfo_fst (c : MoreUserDetailsViewController) : c.checkInfo.1 = true ↔
    (c.userName ≠ [] ∧ c.userSername ≠ [] ∧ c.userMobile ≠ []) ∧
      c.countryString ≠ none ∧ c.cityString ≠ none := by
  simp only [checkInfo, List.isEmpty_iff]
  split_ifs <;> simp_all

/-- `checkInfo` changes only the text of the date and what is marked. -/
theorem checkInfo_snd (c : MoreUserDetailsViewController) : ∃ dateString marked,
    c.checkInfo.2 = { c with dateString, marked } ∧
      (c.checkInfo.1 = true → dateString = some (DateFormatter.string c.birthDate)) := by
  simp only [checkInfo]
  split_ifs <;> exact ⟨_, _, rfl, by simp⟩

/-- Next saves and leaves iff `checkInfo` accepts; else it changes only what `checkInfo` does. -/
theorem nextButton_cases (c : MoreUserDetailsViewController) {uid : Str} (hu : c.user = some uid) :
    (c.checkInfo.1 = false ∧ ∃ dateString marked, c.nextButton = { c with dateString, marked }) ∨
    (c.checkInfo.1 = true ∧ ∃ country city marked, c.countryString = some country ∧
      c.cityString = some city ∧ c.nextButton = { c with
        dateString := some (DateFormatter.string c.birthDate)
        marked
        written := c.written ++
          [(uid, .record (c.postInfo (DateFormatter.string c.birthDate) country city))]
        left := true }) := by
  obtain ⟨dateString, marked, hsnd, hdate⟩ := checkInfo_snd c
  have hpair : c.checkInfo = (c.checkInfo.1, { c with dateString, marked }) := by rw [← hsnd]
  cases hfst : c.checkInfo.1 with
  | false =>
    refine .inl ⟨rfl, dateString, marked, ?_⟩
    rw [nextButton, hpair, hfst]
  | true =>
    obtain ⟨-, hcountry, hcity⟩ := (checkInfo_fst c).mp hfst
    obtain ⟨country, hcountry⟩ := Option.ne_none_iff_exists'.mp hcountry
    obtain ⟨city, hcity⟩ := Option.ne_none_iff_exists'.mp hcity
    refine .inr ⟨rfl, country, city, marked, hcountry, hcity, ?_⟩
    rw [nextButton, hpair, hfst]
    simp only [hdate hfst, hcountry, hcity, hu]
    rfl

/-- What the turns of a run have left. -/
structure Turned (uid : Str) (es : List Event) (c : MoreUserDetailsViewController) : Prop where
  user : c.user = some uid
  trapped : c.trapped = true ↔ (turns es).head?.map Prod.fst = some .city
  country : c.trapped = false → c.countryString = lastCountry es
  unturned : c.trapped = false → (c.countryString = none ↔ turns es = [])
  known : ∀ country, c.countryString = some country → country ∈ countryArray
  city : c.trapped = false → ∀ row, (turns es).getLast? = some (.city, row) →
    ∃ city, c.cityString = some city ∧ c.cityAt row = some city
  noCity : c.trapped = false → (turns es).getLast?.map Prod.fst ≠ some .city → c.cityString = none

/-- A city row of a known country has a title. -/
theorem cityAt_of_known {c : MoreUserDetailsViewController} {country : Str} {row : Nat}
    (hc : c.countryString = some country) (hk : country ∈ countryArray) :
    c.hasRow .city row = some (decide (row < 4)) ∧ ((c.cityAt row).isSome = true ↔ row < 4) := by
  obtain ⟨cities, hcities, hlength, -⟩ := cities_of_mem hk
  refine ⟨?_, ?_⟩
  · simp [hasRow, numberOfRowsInComponent, hc, hcities, hlength]
  · simp [cityAt, hc, hcities, hlength]

/-- The pickers have a title for each of their rows. -/
theorem title_of_hasRow {c : MoreUserDetailsViewController}
    (hk : ∀ country, c.countryString = some country → country ∈ countryArray) (picker : Picker)
    (row : Nat) : ∃ b, c.hasRow picker row = some b ∧
      (b = true → (c.titleForRow picker row).isSome = true) := by
  cases picker with
  | country => exact ⟨_, rfl, by simp [titleForRow]⟩
  | city =>
    cases hc : c.countryString with
    | none =>
      refine ⟨decide (row < 5), ?_, fun _ => ?_⟩
      · simp [hasRow, numberOfRowsInComponent, hc]
      · simp [titleForRow, hc]
    | some country =>
      obtain ⟨hrow, hcity⟩ := @cityAt_of_known c country row hc (hk country hc)
      refine ⟨_, hrow, fun hlt => ?_⟩
      rw [titleForRow, if_neg (by simp [hc])]
      exact hcity.mpr (by simpa using hlt)

/-- An event that turns no picker leaves what they are turned to. -/
theorem Turned.other {uid : Str} {es : List Event} {c c' : MoreUserDetailsViewController}
    (h : Turned uid es c) {e : Event} (he : e.turn? = none) (huser : c'.user = c.user)
    (htrapped : c'.trapped = c.trapped) (hcountry : c'.countryString = c.countryString)
    (hcity : c'.cityString = c.cityString) : Turned uid (es ++ [e]) c' := by
  have hturns : turns (es ++ [e]) = turns es := by rw [turns_concat, he]; simp
  have hat : ∀ row, c'.cityAt row = c.cityAt row := fun row => by rw [cityAt, hcountry]; rfl
  refine ⟨huser.trans h.user, ?_, ?_, ?_, ?_, ?_, ?_⟩
  · rw [hturns, htrapped]; exact h.trapped
  · rw [htrapped, hcountry, lastCountry, hturns]; exact h.country
  · rw [htrapped, hcountry, hturns]; exact h.unturned
  · rw [hcountry]; exact h.known
  · rw [htrapped, hcity, hturns]; simp only [hat]; exact h.city
  · rw [htrapped, hcity, hturns]; exact h.noCity

/-- A turn of the country picker. -/
theorem Turned.selectCountry {uid : Str} {es : List Event} {c : MoreUserDetailsViewController}
    (h : Turned uid es c) (ht : c.trapped = false) {row : Nat} {country : Str}
    (hc : countryArray[row]? = some country) : Turned uid (es ++ [.select .country row])
      { c with countryString := some country, cityString := none } := by
  have hturns : turns (es ++ [.select .country row]) = turns es ++ [(.country, row)] :=
    turns_concat _ _
  have htrapped := h.trapped
  refine ⟨h.user, ?_, fun _ => ?_, fun _ => ?_, ?_, fun _ => ?_, fun _ _ => rfl⟩
  · rw [hturns]
    cases hes : turns es with
    | nil => simp [ht]
    | cons x xs => rw [hes] at htrapped; exact htrapped
  · simp [lastCountry, hturns, countryRow?, hc]
  · simp [hturns]
  · rintro _ ⟨⟩
    exact List.mem_of_getElem? hc
  · simp [hturns]

/-- A turn of the city picker, once a country is selected. -/
theorem Turned.selectCity {uid : Str} {es : List Event} {c : MoreUserDetailsViewController}
    (h : Turned uid es c) (ht : c.trapped = false) {row : Nat} {city : Str}
    (hc : c.cityAt row = some city) :
    Turned uid (es ++ [.select .city row]) { c with cityString := some city } := by
  have hturns : turns (es ++ [.select .city row]) = turns es ++ [(.city, row)] := turns_concat _ _
  have hne : c.countryString ≠ none := by
    intro h0
    rw [cityAt, h0] at hc
    cases hc
  have htrapped := h.trapped
  refine ⟨h.user, ?_, fun _ => ?_, fun _ => ?_, h.known, fun _ j hj => ?_, fun _ hne => ?_⟩
  · rw [hturns]
    cases hes : turns es with
    | nil => exact (hne ((h.unturned ht).mpr hes)).elim
    | cons x xs => rw [hes] at htrapped; exact htrapped
  · have hlast : lastCountry (es ++ [.select .city row]) = lastCountry es := by
      simp [lastCountry, hturns, countryRow?]
    rw [hlast]
    exact h.country ht
  · simp [hturns, hne]
  · rw [hturns, List.getLast?_concat, Option.some.injEq, Prod.mk.injEq] at hj
    obtain ⟨-, rfl⟩ := hj
    exact ⟨city, rfl, hc⟩
  · rw [hturns, List.getLast?_concat] at hne
    exact (hne rfl).elim

/-- A turn of the city picker before one of the country picker traps. -/
theorem Turned.trap {uid : Str} {es : List Event} {c : MoreUserDetailsViewController}
    (h : Turned uid es c) (ht : c.trapped = false) (hc : c.countryString = none) (row : Nat) :
    Turned uid (es ++ [.select .city row]) { c with trapped := true } := by
  have hturns : turns (es ++ [.select .city row]) = [(.city, row)] := by
    rw [turns_concat, (h.unturned ht).mp hc]
    rfl
  exact ⟨h.user, by simp [hturns], fun h0 => (nomatch h0), fun h0 => (nomatch h0), h.known,
    fun h0 => (nomatch h0), fun h0 => (nomatch h0)⟩

theorem Turned.step {uid : Str} {es : List Event} {c c' : MoreUserDetailsViewController}
    (h : Turned uid es c) {e : Event} (hs : MoreUserDetailsViewController.step c e = some c') :
    Turned uid (es ++ [e]) c' := by
  simp only [MoreUserDetailsViewController.step] at hs
  split at hs
  · rename_i hthere
    have ht := hthere.1
    cases e with
    | edit f text => cases hs; cases f <;> exact h.other rfl rfl rfl rfl rfl
    | pick date => cases hs; exact h.other rfl rfl rfl rfl rfl
    | back => cases hs; exact h.other rfl rfl rfl rfl rfl
    | next =>
      cases hs
      rcases nextButton_cases c h.user with ⟨-, _, _, hn⟩ | ⟨-, _, _, _, -, -, hn⟩
      · rw [hn]; exact h.other rfl rfl rfl rfl rfl
      · rw [hn]; exact h.other rfl rfl rfl rfl rfl
    | title picker row =>
      obtain ⟨b, hrow, htitle⟩ := title_of_hasRow h.known picker row
      cases b with
      | false => simp [act, hrow] at hs
      | true =>
        simp only [act, hrow, htitle rfl, ↓reduceIte, Option.some.injEq] at hs
        subst hs
        exact h.other rfl rfl rfl rfl rfl
    | select picker row =>
      obtain ⟨b, hrow, htitle⟩ := title_of_hasRow h.known picker row
      cases b with
      | false => simp [act, hrow] at hs
      | true =>
        simp only [act, hrow, Option.some.injEq] at hs
        obtain ⟨text, htext⟩ := Option.isSome_iff_exists.mp (htitle rfl)
        cases picker with
        | country =>
          have hget : countryArray[row]? = some text := htext
          simp only [didSelectRow, hget] at hs
          subst hs
          exact h.selectCountry ht hget
        | city =>
          by_cases hc : c.countryString = none
          · -- The row is one of the five `--`.
            have hnone : c.cityAt row = none := by rw [cityAt, hc]; rfl
            simp only [didSelectRow, hnone] at hs
            subst hs
            exact h.trap ht hc row
          · have hat : c.cityAt row = some text := by
              rwa [titleForRow, if_neg hc] at htext
            simp only [didSelectRow, hat] at hs
            subst hs
            exact h.selectCity ht hat
  · cases hs

theorem turned_run {uid : Str} {today : Date} {es : List Event} {t : MoreUserDetailsViewController}
    (hrun : Machine.run step (viewDidLoad (some uid) today) es = some t) : Turned uid es t := by
  refine Machine.run_history (I := fun es c => Turned uid es c) ?_ (fun _ _ _ _ _ h hs => h.step hs)
    hrun
  exact ⟨rfl, by simp [turns, viewDidLoad], fun _ => rfl, fun _ => iff_of_true rfl rfl,
    fun _ h => (nomatch h), fun _ _ h => (nomatch h), fun _ _ => rfl⟩

/-- The last turn is one of the city picker iff there is a city. -/
theorem Turned.cityString_ne_none {uid : Str} {es : List Event} {c : MoreUserDetailsViewController}
    (h : Turned uid es c) (ht : c.trapped = false) :
    c.cityString ≠ none ↔ (turns es).getLast?.map Prod.fst = some .city := by
  constructor
  · intro hne
    by_contra hlast
    exact hne (h.noCity ht hlast)
  · intro hlast
    obtain ⟨⟨picker, row⟩, hx, rfl⟩ := Option.map_eq_some_iff.mp hlast
    obtain ⟨city, hcity, -⟩ := h.city ht row hx
    simp [hcity]

/-- The city is one of the country, in the row to which the city picker was turned last. -/
theorem Turned.city_of_country {uid : Str} {es : List Event} {c : MoreUserDetailsViewController}
    (h : Turned uid es c) (ht : c.trapped = false) {city : Str} (hcity : c.cityString = some city) :
    ∃ country cities row, c.countryString = some country ∧ lastCountry es = some country ∧
      country ≠ [] ∧ city ≠ [] ∧ cityArray country = some cities ∧
      (turns es).getLast? = some (.city, row) ∧ cities[row]? = some city := by
  have hlast := (h.cityString_ne_none ht).mp (by simp [hcity])
  obtain ⟨⟨picker, row⟩, hx, rfl⟩ := Option.map_eq_some_iff.mp hlast
  obtain ⟨city', hcity', hat⟩ := h.city ht row hx
  rw [hcity, Option.some.injEq] at hcity'
  subst hcity'
  obtain ⟨country, hcountry, hrow⟩ := Option.bind_eq_some_iff.mp hat
  obtain ⟨cities, hcities, hget⟩ := Option.bind_eq_some_iff.mp hrow
  have hknown := h.known country hcountry
  obtain ⟨cities', hcities', -, hnil⟩ := cities_of_mem hknown
  rw [hcities, Option.some.injEq] at hcities'
  subst hcities'
  refine ⟨country, cities, row, hcountry, (h.country ht).symm.trans hcountry,
    ne_nil_of_mem hknown, ?_, hcities, hx, hget⟩
  rintro rfl
  exact hnil (List.mem_of_getElem? hget)

theorem filled_postInfo {c : MoreUserDetailsViewController} {date country city : Str}
    (htexts : c.userName ≠ [] ∧ c.userSername ≠ [] ∧ c.userMobile ≠ []) (hdate : date ≠ [])
    (hcountry : country ≠ []) (hcity : city ≠ []) : Filled (c.postInfo date country city) := by
  intro field hfield
  cases field with
  | userName => exact ⟨_, rfl, htexts.1⟩
  | userSername => exact ⟨_, rfl, htexts.2.1⟩
  | userMobile => exact ⟨_, rfl, htexts.2.2⟩
  | userBirthDate => exact ⟨_, rfl, hdate⟩
  | userCountry => exact ⟨_, rfl, hcountry⟩
  | userCity => exact ⟨_, rfl, hcity⟩
  | userSources => simp [profileFields] at hfield

theorem currentCity_of_string {record : Record} {s : Str}
    (h : record .userCity = some (.string s)) : currentCity record.snapshot = some s := by
  have hne : record.isEmpty = false := by
    rw [Bool.eq_false_iff]
    intro he
    rw [Record.isEmpty_iff.mp he] at h
    cases h
  rw [currentCity, Record.dick_snapshot, hne, Record.string?_eq_some.mpr h]
  rfl

/-- For every run of the screen for an account: it traps iff the first turn of the two pickers is
one of the city picker. -/
theorem traps_iff {uid : Str} {today : Date} {es : List Event} {t : MoreUserDetailsViewController}
    (hrun : Machine.run step (viewDidLoad (some uid) today) es = some t) :
    t.trapped = true ↔ (turns es).head?.map Prod.fst = some .city :=
  (turned_run hrun).trapped

/-- The city picker is turned first, to the last `--`. -/
theorem traps_iff_cityFirst : ∃ t, Machine.run step
    (viewDidLoad (some (Str.of "A")) (Date.of 2020 1 1 (by decide))) [.select .city 4] = some t ∧
    (t.trapped = true ↔ (turns [.select .city 4]).head?.map Prod.fst = some .city) :=
  ⟨_, rfl, @traps_iff (Str.of "A") (Date.of 2020 1 1 (by decide)) [.select .city 4] _ rfl⟩

/-- For every run of the screen for an account, Next leaves it iff the three texts are not empty and
the last turn of the two pickers is one of the city picker. Then it has made one write more, of the
account's record: a record in which no text is empty, with the country to which the country picker
was turned last and the city of this country to which the city picker was turned last. -/
theorem next_saves_iff {uid : Str} {today : Date} {es : List Event}
    {t t' : MoreUserDetailsViewController}
    (hrun : Machine.run step (viewDidLoad (some uid) today) es = some t)
    (hnext : step t .next = some t') :
    (t'.left = true ↔ (t.userName ≠ [] ∧ t.userSername ≠ [] ∧ t.userMobile ≠ []) ∧
      (turns es).getLast?.map Prod.fst = some .city) ∧
    (t'.left = true → ∃ record country cities city row,
      t'.written = t.written ++ [(uid, .record record)] ∧ Filled record ∧
      lastCountry es = some country ∧ cityArray country = some cities ∧
      (turns es).getLast? = some (.city, row) ∧ cities[row]? = some city ∧
      record .userCountry = some (.string country) ∧
      currentCity record.snapshot = some city) := by
  have hturned := turned_run hrun
  simp only [step] at hnext
  split at hnext
  · rename_i hthere
    obtain ⟨ht, hopen⟩ := hthere
    cases hnext
    have haccepts := checkInfo_fst t
    have hlast := hturned.cityString_ne_none ht
    rcases nextButton_cases t hturned.user with
      ⟨hfst, _, _, hn⟩ | ⟨hfst, country, city, _, hcountry, hcity, hn⟩
    · rw [hfst] at haccepts
      refine ⟨iff_of_false (by rw [hn]; simp [hopen]) fun ⟨htexts, hcity⟩ => ?_, fun hleft => ?_⟩
      · obtain ⟨city, hcity⟩ := Option.ne_none_iff_exists'.mp (hlast.mpr hcity)
        obtain ⟨country, _, _, hcountry, -⟩ := hturned.city_of_country ht hcity
        exact absurd (haccepts.mpr ⟨htexts, by simp [hcountry], by simp [hcity]⟩) (by simp)
      · rw [hn] at hleft
        exact absurd hleft (by simp [hopen])
    · obtain ⟨htexts, -⟩ := haccepts.mp hfst
      obtain ⟨country', cities, row, hcountry', hlastCountry, hne, hne', hcities, hx, hget⟩ :=
        hturned.city_of_country ht hcity
      rw [hcountry, Option.some.injEq] at hcountry'
      subst hcountry'
      refine ⟨iff_of_true (by rw [hn]) ⟨htexts, hlast.mp (by simp [hcity])⟩, fun _ => ?_⟩
      refine ⟨_, country, cities, city, row, by rw [hn],
        filled_postInfo htexts (DateFormatter.string_ne_nil _) hne hne', hlastCountry, hcities, hx,
        hget, rfl, currentCity_of_string rfl⟩
  · cases hnext

/-- The screen is filled for an inhabitant of Poznan, who has lived in Kiev before. -/
def moved : List Event :=
  [.edit .userName (Str.of "A"), .edit .userSername (Str.of "B"), .edit .userMobile (Str.of "1"),
    .select .country 0, .select .city 0, .select .country 1, .select .city 2]

theorem next_saves_iff_moved : ∃ t t', Machine.run step
    (viewDidLoad (some (Str.of "A")) (Date.of 2020 1 1 (by decide))) moved = some t ∧
      step t .next = some t' ∧
      (t'.left = true ↔ (t.userName ≠ [] ∧ t.userSername ≠ [] ∧ t.userMobile ≠ []) ∧
        (turns moved).getLast?.map Prod.fst = some .city) ∧
      (t'.left = true → ∃ record country cities city row,
        t'.written = t.written ++ [(Str.of "A", .record record)] ∧ Filled record ∧
        lastCountry moved = some country ∧ cityArray country = some cities ∧
        (turns moved).getLast? = some (.city, row) ∧ cities[row]? = some city ∧
        record .userCountry = some (.string country) ∧
        currentCity record.snapshot = some city) :=
  ⟨_, _, rfl, rfl, @next_saves_iff (Str.of "A") (Date.of 2020 1 1 (by decide)) moved _ _ rfl rfl⟩

end MoreUserDetailsViewController
end MyNews
