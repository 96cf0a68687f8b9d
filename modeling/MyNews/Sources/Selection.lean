import MyNews.Lib.Draft
import MyNews.Sources.Controller

/-!
# The selection of the Sources screen

For a catalogue whose ids are distinct the screen is an editor of one list: it refines
`Draft` (`Refines`, `Refines.run`), where a tap on a row is a toggle of its id and a snapshot loads
a new list. The table shows the draft: a displayed row is selected iff the draft has its id.

* `refines_and_tracks`: the draft's parts are what the last snapshot brought and what the taps since
  then did (`Tracks`).
* `selection_invariant`: the table, the list and what the user did since the last snapshot agree.
* `toggle_kept_iff`: when the last tap on a row reaches the string that Done writes, for snapshots
  that bring the same sources again.
-/

namespace MyNews
namespace SourcesViewController

open OnlineRepository SourcesViewModel

/-- The ids of the catalogue are there and are pairwise distinct. -/
structure Distinct (catalogue : List Source) : Prop where
  nonnull : ∀ source ∈ catalogue, source.id ≠ none
  nodup : (catalogue.map (·.id)).Nodup

/-- Two rows with one id are one row. -/
theorem Distinct.row_eq {catalogue : List Source} (hd : Distinct catalogue) {i j : Nat}
    (hi : i < catalogue.length) (hj : j < catalogue.length)
    (h : catalogueId catalogue i = catalogueId catalogue j) : i = j := by
  rw [catalogueId_eq hi, catalogueId_eq hj] at h
  obtain ⟨x, hx⟩ := Option.ne_none_iff_exists'.mp (hd.nonnull _ (List.getElem_mem hi))
  obtain ⟨y, hy⟩ := Option.ne_none_iff_exists'.mp (hd.nonnull _ (List.getElem_mem hj))
  rw [hx, hy, Option.getD_some, Option.getD_some] at h
  have hi' : i < (catalogue.map (·.id)).length := by simpa using hi
  have hj' : j < (catalogue.map (·.id)).length := by simpa using hj
  have hid : (catalogue.map (·.id))[i] = (catalogue.map (·.id))[j] := by
    rw [List.getElem_map, List.getElem_map, hx, hy, h]
  exact (List.Nodup.getElem_inj_iff hd.nodup).mp hid

/-! ## The screen refines a draft -/

/-- The event, for the draft. -/
def draftStep (catalogue : List Source) (d : Draft Str) : Event → Draft Str
  | .snapshot value => .load (parseUserSources (getUserSources value))
  | .tap row => d.toggle (catalogueId catalogue row)
  | _ => d

/-- The draft after the events. -/
def draftAfter (catalogue : List Source) (d : Draft Str) (es : List Event) : Draft Str :=
  es.foldl (draftStep catalogue) d

/-- The screen shows the draft. The catalogue is empty before its answer and after a failed one. -/
structure Refines (catalogue : List Source) (c : SourcesViewController) (d : Draft Str) : Prop
    extends Shape c where
  allSources : c.allSources = [] ∨ c.allSources = catalogue
  userSources : c.userSources = d.list
  agree : c.Agree

theorem refines_viewDidLoad (catalogue : List Source) :
    Refines catalogue viewDidLoad (.load []) where
  toShape := shape_viewDidLoad
  allSources := .inl rfl
  userSources := rfl
  agree := agree_viewDidLoad

namespace Refines

variable {catalogue : List Source} {c c' : SourcesViewController} {d : Draft Str}

/-- A row that can be asked for is a row of the catalogue. -/
theorem allSources_eq (h : Refines catalogue c d) {row : Nat} (hrow : row < c.allSources.length) :
    c.allSources = catalogue := by
  rcases h.allSources with he | he
  · rw [he] at hrow
    exact absurd hrow (Nat.not_lt_zero row)
  · exact he

theorem rowId (h : Refines catalogue c d) {row : Nat} (hrow : row ∈ c.displayed) :
    c.rowId row = catalogueId catalogue row := by
  rw [SourcesViewController.rowId, h.allSources_eq (h.displayed row hrow)]

theorem lt_length (h : Refines catalogue c d) {row : Nat} (hrow : row ∈ c.displayed) :
    row < catalogue.length := by
  have := h.displayed row hrow
  rwa [h.allSources_eq this] at this

/-- A displayed row other than `row` has another id. -/
theorem id_ne (h : Refines catalogue c d) (hd : Distinct catalogue) {i row : Nat}
    (hi : i ∈ c.displayed) (hrow : row ∈ c.displayed) (hne : i ≠ row) :
    c.rowId i ≠ c.rowId row := by
  rw [h.rowId hi, h.rowId hrow]
  exact fun he => hne (hd.row_eq (h.lt_length hi) (h.lt_length hrow) he)

/-- A displayed row is selected iff the draft has its id. -/
theorem mem_selected (h : Refines catalogue c d) {row : Nat} (hrow : row ∈ c.displayed) :
    row ∈ c.selected ↔ d.Has (c.rowId row) := by
  rw [h.agree row hrow, h.userSources, Draft.mem_list]

/-- A tap is a toggle of the list. -/
theorem userSources_tap (h : Refines catalogue c d) {row : Nat} (hrow : row ∈ c.displayed) :
    (c.tap row).userSources = (d.toggle (c.rowId row)).list := by
  have hhas := h.mem_selected hrow
  by_cases hs : row ∈ c.selected
  · rw [tap_of_mem hs, Draft.list_toggle_of_has (hhas.mp hs), ← h.userSources]
  · rw [tap_of_not_mem hs, Draft.list_toggle_of_not_has (mt hhas.mpr hs), ← h.userSources]

/-- The step lemma: each event does to the screen what it does to the draft. -/
theorem step (h : Refines catalogue c d) (hd : Distinct catalogue) {e : Event}
    (he : Answers (· = catalogue) [e]) (hs : SourcesViewController.step c e = some c') :
    Refines catalogue c' (draftStep catalogue d e) := by
  have hshape := h.toShape.step hs
  have hagree := h.agree.step h.toShape hs fun row hrow _ i hi hne => h.id_ne hd hi hrow hne
  cases step_to hs with
  | failed _ _ _ => exact ⟨hshape, h.allSources, h.userSources, hagree⟩
  | catalogue response list _ hl =>
    exact ⟨hshape, .inr (he response List.mem_cons_self list hl), h.userSources, hagree⟩
  | snapshot value _ => exact ⟨hshape, h.allSources, (Draft.list_load _).symm, hagree⟩
  | cell row _ => exact ⟨hshape, h.allSources, h.userSources, hagree⟩
  | tap row hrow =>
    refine ⟨hshape, by simpa using h.allSources, ?_, hagree⟩
    rw [h.userSources_tap hrow, draftStep, h.rowId hrow]
  | other e c' hsame he =>
    have hdraft : draftStep catalogue d e = d := by
      rcases he with rfl | ⟨error, rfl⟩ | rfl <;> rfl
    rw [hdraft]
    exact ⟨hshape, by rw [hsame.1]; exact h.allSources, hsame.2.1.trans h.userSources, hagree⟩

/-- The run lemma. -/
theorem run (h : Refines catalogue c d) (hd : Distinct catalogue) {es : List Event}
    (hans : Answers (· = catalogue) es)
    (hs : Machine.run SourcesViewController.step c es = some c') :
    Refines catalogue c' (draftAfter catalogue d es) := by
  induction es generalizing c d with
  | nil => cases hs; exact h
  | cons e es ih =>
    obtain ⟨m, hm, hr⟩ := Option.bind_eq_some_iff.mp hs
    exact ih (h.step hd (hans.singleton List.mem_cons_self) hm)
      (hans.subset fun _ => List.mem_cons_of_mem e) hr

end Refines

/-! ## What the user did since the last snapshot -/

def Event.isSnapshot : Event → Bool
  | .snapshot _ => true
  | _ => false

/-- The row of a tap. -/
def tappedRow : SourcesViewController × Event → Option Nat
  | (_, .tap row) => some row
  | _ => none

/-- The row of a tap that selects it. -/
def pickedRow : SourcesViewController × Event → Option Nat
  | (c, .tap row) => if row ∈ c.selected then none else some row
  | _ => none

/-- The events since the last snapshot, each with the screen it happens on. -/
def recent (es : List Event) : List (SourcesViewController × Event) :=
  Machine.since Event.isSnapshot (Machine.steps step viewDidLoad es)

/-- The rows tapped since the last snapshot, in order. -/
def tapped (es : List Event) : List Nat := (recent es).filterMap tappedRow

/-- The rows that a tap since the last snapshot has selected, in order. -/
def picked (es : List Event) : List Nat := (recent es).filterMap pickedRow

/-- The list that the last snapshot brought; empty before the first one. -/
def lastDelivered (es : List Event) : List Str :=
  es.foldl (fun list e => match e with
    | .snapshot value => parseUserSources (getUserSources value)
    | _ => list) []

@[simp] theorem lastDelivered_snapshot (es : List Event) (value : DataSnapshot) :
    lastDelivered (es ++ [.snapshot value]) = parseUserSources (getUserSources value) := by
  simp [lastDelivered]

theorem lastDelivered_concat (es : List Event) {e : Event} (he : e.isSnapshot = false) :
    lastDelivered (es ++ [e]) = lastDelivered es := by
  rw [lastDelivered, List.foldl_append]
  cases e with
  | snapshot value => cases he
  | _ => rfl

/-- The draft's parts are what the snapshots brought and what the taps since then did. -/
structure Tracks (catalogue : List Source) (es : List Event) (c : SourcesViewController)
    (d : Draft Str) : Prop where
  base : d.base = lastDelivered es
  touched : d.touched = (tapped es).map (catalogueId catalogue)
  picks : d.picks = (picked es).map (catalogueId catalogue)
  displayed : ∀ row ∈ tapped es, row ∈ c.displayed

theorem recent_snapshot {es : List Event} {m : SourcesViewController}
    (hm : Machine.run step viewDidLoad es = some m) (value : DataSnapshot) :
    recent (es ++ [.snapshot value]) = [] := by
  rw [recent, Machine.steps_concat hm, Machine.since_concat_of_pos rfl]

theorem recent_concat {es : List Event} {m : SourcesViewController}
    (hm : Machine.run step viewDidLoad es = some m) {e : Event} (he : e.isSnapshot = false) :
    recent (es ++ [e]) = recent es ++ [(m, e)] := by
  rw [recent, Machine.steps_concat hm, Machine.since_concat_of_neg he]
  rfl

theorem tapped_concat_tap {es : List Event} {m : SourcesViewController}
    (hm : Machine.run step viewDidLoad es = some m) (row : Nat) :
    tapped (es ++ [.tap row]) = tapped es ++ [row] := by
  simp [tapped, recent_concat hm (e := .tap row) rfl, tappedRow]

theorem picked_concat_tap {es : List Event} {m : SourcesViewController}
    (hm : Machine.run step viewDidLoad es = some m) (row : Nat) :
    picked (es ++ [.tap row]) = picked es ++ if row ∈ m.selected then [] else [row] := by
  by_cases hsel : row ∈ m.selected
  · simp [picked, recent_concat hm (e := .tap row) rfl, pickedRow, hsel]
  · simp [picked, recent_concat hm (e := .tap row) rfl, pickedRow, hsel]

/-- An event that is neither a snapshot nor a tap changes nothing here; the displayed rows stay. -/
theorem Tracks.of_other {catalogue : List Source} {es : List Event} {m c : SourcesViewController}
    {d : Draft Str} {e : Event} (h : Tracks catalogue es m d)
    (hm : Machine.run step viewDidLoad es = some m) (he : e.isSnapshot = false)
    (hrow : tappedRow (m, e) = none) (hpick : pickedRow (m, e) = none)
    (hd : draftStep catalogue d e = d)
    (hdisp : ∀ row ∈ m.displayed, row ∈ c.displayed) :
    Tracks catalogue (es ++ [e]) c (draftStep catalogue d e) := by
  have ht : tapped (es ++ [e]) = tapped es := by simp [tapped, recent_concat hm he, hrow]
  have hp : picked (es ++ [e]) = picked es := by simp [picked, recent_concat hm he, hpick]
  rw [hd]
  refine ⟨?_, by rw [ht]; exact h.touched, by rw [hp]; exact h.picks, ?_⟩
  · rw [lastDelivered_concat es he]
    exact h.base
  · rw [ht]
    exact fun row hr => hdisp row (h.displayed row hr)

/-- A tap adds its row to those tapped, and to those picked if it selects the row. -/
theorem Tracks.tap {catalogue : List Source} {es : List Event} {m : SourcesViewController}
    {d : Draft Str} {row : Nat} (h : Tracks catalogue es m d) (hr : Refines catalogue m d)
    (hm : Machine.run step viewDidLoad es = some m) (hrow : row ∈ m.displayed) :
    Tracks catalogue (es ++ [.tap row]) (m.tap row) (draftStep catalogue d (.tap row)) where
  base := by rw [lastDelivered_concat es rfl]; exact h.base
  touched := by simp [draftStep, tapped_concat_tap hm, h.touched]
  picks := by
    have hagree := hr.mem_selected hrow
    rw [hr.rowId hrow] at hagree
    rw [picked_concat_tap hm, List.map_append, ← h.picks, draftStep]
    by_cases hsel : row ∈ m.selected
    · rw [Draft.picks_toggle_of_has (hagree.mp hsel), if_pos hsel]
      exact (List.append_nil _).symm
    · rw [Draft.picks_toggle_of_not_has fun hh => hsel (hagree.mpr hh), if_neg hsel]
      rfl
  displayed := by
    rw [tapped_concat_tap hm, displayed_tap]
    intro i hi
    rcases List.mem_append.mp hi with hi | hi
    · exact h.displayed i hi
    · rw [List.mem_singleton.mp hi]; exact hrow

theorem Tracks.step {catalogue : List Source} {es : List Event} {m c : SourcesViewController}
    {d : Draft Str} {e : Event} (h : Tracks catalogue es m d) (hr : Refines catalogue m d)
    (hm : Machine.run step viewDidLoad es = some m) (hs : SourcesViewController.step m e = some c) :
    Tracks catalogue (es ++ [e]) c (draftStep catalogue d e) := by
  cases step_to hs with
  | failed response hreq hn =>
    exact h.of_other hm rfl rfl rfl rfl fun i hi => hi
  | catalogue response list hreq hl =>
    exact h.of_other hm rfl rfl rfl rfl fun i hi => hi
  | snapshot value hobs =>
    refine ⟨(lastDelivered_snapshot es value).symm, ?_, ?_, ?_⟩ <;>
      simp [draftStep, tapped, picked, recent_snapshot hm]
  | cell row hrow =>
    exact h.of_other hm rfl rfl rfl rfl fun i hi => Finset.mem_insert_of_mem hi
  | tap row hrow => exact h.tap hr hm hrow
  | other e c hsame he =>
    rcases he with rfl | ⟨error, rfl⟩ | rfl <;>
      exact h.of_other hm rfl rfl rfl rfl fun i hi => by rw [hsame.2.2.2.2.1]; exact hi

/-- Along a run the screen refines the draft, and the draft tracks the events. -/
theorem refines_and_tracks {catalogue : List Source} (hcat : Distinct catalogue) {es : List Event}
    (hans : Answers (· = catalogue) es) {c : SourcesViewController}
    (hs : Machine.run step viewDidLoad es = some c) :
    Refines catalogue c (draftAfter catalogue (.load []) es) ∧
      Tracks catalogue es c (draftAfter catalogue (.load []) es) := by
  refine Machine.run_history (I := fun es c => Answers (· = catalogue) es →
    Refines catalogue c (draftAfter catalogue (.load []) es) ∧
      Tracks catalogue es c (draftAfter catalogue (.load []) es)) ?_ ?_ hs hans
  · exact fun _ => ⟨refines_viewDidLoad catalogue, rfl, rfl, rfl, by simp [tapped, recent]⟩
  · intro es e m c hm ih hstep hans
    obtain ⟨hr, ht⟩ := ih (hans.subset fun _ => List.mem_append_left _)
    have hd : draftAfter catalogue (.load []) (es ++ [e]) =
        draftStep catalogue (draftAfter catalogue (.load []) es) e := by
      simp [draftAfter]
    rw [hd]
    exact ⟨hr.step hcat (hans.singleton (by simp)) hstep, ht.step hr hm hstep⟩

/-! ## The invariant of the selection -/

/-- The list of the last snapshot has no duplicate if no delivered list has one. -/
theorem nodup_lastDelivered {es : List Event}
    (h : ∀ value, .snapshot value ∈ es → (parseUserSources (getUserSources value)).Nodup) :
    (lastDelivered es).Nodup := by
  induction es using List.reverseRecOn with
  | nil => exact List.nodup_nil
  | append_singleton es e ih =>
    cases e with
    | snapshot value =>
      rw [lastDelivered_snapshot]
      exact h value (by simp)
    | _ =>
      rw [lastDelivered_concat es rfl]
      exact ih fun value hv => h value (List.mem_append_left _ hv)

theorem mem_tapped_of_mem_picked {es : List Event} {row : Nat} (h : row ∈ picked es) :
    row ∈ tapped es := by
  obtain ⟨⟨m, e⟩, hx, he⟩ := List.mem_filterMap.mp h
  refine List.mem_filterMap.mpr ⟨(m, e), hx, ?_⟩
  cases e with
  | tap i =>
    simp only [pickedRow] at he
    split at he
    · cases he
    · exact he
  | _ => cases he

namespace Tracks

variable {catalogue : List Source} {es : List Event} {c : SourcesViewController} {d : Draft Str}

theorem map_rowId (h : Tracks catalogue es c d) (hr : Refines catalogue c d) {l : List Nat}
    (hl : ∀ row ∈ l, row ∈ tapped es) : l.map (catalogueId catalogue) = l.map c.rowId :=
  List.map_congr_left fun row hrow => (hr.rowId (h.displayed row (hl row hrow))).symm

theorem inj (h : Tracks catalogue es c d) (hr : Refines catalogue c d) (hcat : Distinct catalogue)
    {i j : Nat} (hi : i ∈ tapped es) (hj : j ∈ tapped es) (he : c.rowId i = c.rowId j) : i = j := by
  by_contra hne
  exact hr.id_ne hcat (h.displayed i hi) (h.displayed j hj) hne he

/-- The list, from what was delivered and tapped. -/
theorem list_eq (h : Tracks catalogue es c d) (hr : Refines catalogue c d)
    (hcat : Distinct catalogue) :
    d.list = (lastDelivered es).filter (· ∉ (tapped es).map c.rowId) ++
      ((picked es).dedup.filter (· ∈ c.selected)).map c.rowId := by
  have hp : ∀ row ∈ picked es, row ∈ tapped es := fun row => mem_tapped_of_mem_picked
  have hsel : ∀ row ∈ (picked es).dedup,
      decide (d.Has (c.rowId row)) = decide (row ∈ c.selected) := by
    intro row hrow
    rw [decide_eq_decide, hr.mem_selected (h.displayed row (hp row (List.mem_dedup.mp hrow)))]
  have hinj : ∀ i ∈ picked es, ∀ j ∈ picked es, c.rowId i = c.rowId j → i = j :=
    fun i hi j hj he => h.inj hr hcat (hp i hi) (hp j hj) he
  rw [Draft.list, h.base, h.touched, h.picks, h.map_rowId hr (fun row hrow => hrow),
    h.map_rowId hr hp, Draft.dedup_map_of_inj hinj, List.filter_map]
  congr 1
  · exact List.filter_congr fun x _ => decide_eq_decide.mpr Iff.rfl
  · exact congrArg (List.map c.rowId) (List.filter_congr hsel)

/-- A tapped row is in the draft iff its id was delivered xor it was tapped an odd number of
times. -/
theorem has_iff (h : Tracks catalogue es c d) (hr : Refines catalogue c d)
    (hcat : Distinct catalogue) {row : Nat} (hrow : row ∈ tapped es) :
    d.Has (c.rowId row) ↔ Xor (c.rowId row ∈ lastDelivered es) (Odd ((tapped es).count row)) := by
  rw [Draft.Has, Toggled, h.base, h.touched, h.map_rowId hr (fun i hi => hi),
    Draft.count_map_of_inj fun j hj he => h.inj hr hcat hj hrow he]

end Tracks

/-- In every state that the screen reaches with a catalogue of distinct ids and deliveries without
duplicates: (a) a displayed row is selected iff its id is in `userSources`; (b) `userSources` has no
duplicate; (c) it is the last delivered list without the ids tapped since, then the ids of the rows
that a tap since has selected and that are selected, in the order of their last selection; (d) the
id of a tapped row is in it iff it was delivered xor the row was tapped an odd number of times. -/
theorem selection_invariant {catalogue : List Source} (hcat : Distinct catalogue) {es : List Event}
    (hans : Answers (· = catalogue) es)
    (hnodup : ∀ value, .snapshot value ∈ es → (parseUserSources (getUserSources value)).Nodup)
    {c : SourcesViewController} (hs : Machine.run step viewDidLoad es = some c) :
    (∀ row ∈ c.displayed, (row ∈ c.selected ↔ c.rowId row ∈ c.userSources)) ∧
    c.userSources.Nodup ∧
    c.userSources = (lastDelivered es).filter (· ∉ (tapped es).map c.rowId) ++
      ((picked es).dedup.filter (· ∈ c.selected)).map c.rowId ∧
    ∀ row ∈ tapped es, (c.rowId row ∈ c.userSources ↔
      Xor (c.rowId row ∈ lastDelivered es) (Odd ((tapped es).count row))) := by
  obtain ⟨hr, ht⟩ := refines_and_tracks hcat hans hs
  refine ⟨hr.agree, ?_⟩
  rw [hr.userSources]
  refine ⟨?_, ht.list_eq hr hcat, ?_⟩
  · refine Draft.nodup_list ?_
    rw [ht.base]
    exact nodup_lastDelivered hnodup
  · intro row hrow
    rw [Draft.mem_list, ht.has_iff hr hcat hrow]

theorem distinct_sample : Distinct sampleCatalogue := ⟨by decide, by decide⟩

/-- The sources of the sample are loaded and one is tapped; another field of the record changes, and
the other one is tapped. -/
def tappedTwice : List Event :=
  sampleRun ++ [.snapshot laterSnapshot, .cellForRowAt 0, .cellForRowAt 1, .tap 1]

theorem selection_invariant_sample :
    ∃ c, Machine.run step viewDidLoad tappedTwice = some c ∧
      (∀ row ∈ c.displayed, (row ∈ c.selected ↔ c.rowId row ∈ c.userSources)) ∧
      c.userSources.Nodup ∧
      c.userSources = (lastDelivered tappedTwice).filter (· ∉ (tapped tappedTwice).map c.rowId) ++
        ((picked tappedTwice).dedup.filter (· ∈ c.selected)).map c.rowId ∧
      ∀ row ∈ tapped tappedTwice, (c.rowId row ∈ c.userSources ↔
        Xor (c.rowId row ∈ lastDelivered tappedTwice) (Odd ((tapped tappedTwice).count row))) := by
  refine ⟨_, rfl, selection_invariant distinct_sample (answers_sample (by simp)) ?_ rfl⟩
  intro value hv
  have hs : value = sampleSnapshot ∨ value = laterSnapshot := by
    simpa [tappedTwice, sampleRun, sampleAnswer] using hv
  rcases hs with rfl | rfl <;> decide

/-! ## A toggle and the snapshots after it -/

theorem draftAfter_append (catalogue : List Source) (d : Draft Str) (es fs : List Event) :
    draftAfter catalogue d (es ++ fs) = draftAfter catalogue (draftAfter catalogue d es) fs :=
  List.foldl_append

theorem lastDelivered_of_same {start es : List Event} {value : DataSnapshot}
    (hsame : ∀ v, .snapshot v ∈ es → getUserSources v = getUserSources value) :
    lastDelivered (start ++ .snapshot value :: es) = parseUserSources (getUserSources value) := by
  induction es using List.reverseRecOn with
  | nil => exact lastDelivered_snapshot start value
  | append_singleton es e ih =>
    rw [← List.cons_append, ← List.append_assoc]
    cases e with
    | snapshot v => rw [lastDelivered_snapshot, hsame v (by simp)]
    | _ =>
      rw [lastDelivered_concat _ rfl]
      exact ih fun v hv => hsame v (List.mem_append_left _ hv)

namespace Refines

variable {catalogue : List Source} {c c' : SourcesViewController} {d : Draft Str}

/-- A step that is no tap on the row and no snapshot that says otherwise keeps what the draft says
about it. -/
theorem has_step (h : Refines catalogue c d) (hcat : Distinct catalogue) {row : Nat}
    (hrow : row < catalogue.length) {e : Event} (hs : SourcesViewController.step c e = some c')
    (htap : e ≠ .tap row) {p : Prop} (hp : d.Has (catalogueId catalogue row) ↔ p)
    (hsnap : ∀ value, e = .snapshot value →
      (catalogueId catalogue row ∈ parseUserSources (getUserSources value) ↔ p)) :
    (draftStep catalogue d e).Has (catalogueId catalogue row) ↔ p := by
  cases step_to hs with
  | snapshot value _ => exact Draft.has_load.trans (hsnap value rfl)
  | tap i hi =>
    have hne : catalogueId catalogue row ≠ catalogueId catalogue i := by
      intro he
      have hri := hcat.row_eq hrow (h.lt_length hi) he
      exact htap (by rw [hri])
    exact (Draft.has_toggle_of_ne hne).trans hp
  | other e c' _ he => rcases he with rfl | ⟨error, rfl⟩ | rfl <;> exact hp
  | _ => exact hp

theorem has_run (h : Refines catalogue c d) (hcat : Distinct catalogue) {row : Nat}
    (hrow : row < catalogue.length) {es : List Event} (hans : Answers (· = catalogue) es)
    (hs : Machine.run SourcesViewController.step c es = some c') (htap : .tap row ∉ es) {p : Prop}
    (hp : d.Has (catalogueId catalogue row) ↔ p)
    (hsnap : ∀ value, .snapshot value ∈ es →
      (catalogueId catalogue row ∈ parseUserSources (getUserSources value) ↔ p)) :
    (draftAfter catalogue d es).Has (catalogueId catalogue row) ↔ p := by
  induction es generalizing c d with
  | nil => exact hp
  | cons e es ih =>
    obtain ⟨m, hm, hr⟩ := Option.bind_eq_some_iff.mp hs
    have hstep := h.step hcat (hans.singleton List.mem_cons_self) hm
    refine ih hstep (hans.subset fun _ => List.mem_cons_of_mem e) hr
      (fun hmem => htap (List.mem_cons_of_mem e hmem)) ?_
      fun value hv => hsnap value (List.mem_cons_of_mem e hv)
    exact h.has_step hcat hrow hm (fun he => htap (he ▸ List.mem_cons_self)) hp
      fun value hv => hsnap value (hv ▸ List.mem_cons_self)

/-- After a snapshot the draft has the row iff the snapshot has it. -/
theorem has_of_snapshot (h : Refines catalogue c d) (hcat : Distinct catalogue) {row : Nat}
    (hrow : row < catalogue.length) {es : List Event} (hans : Answers (· = catalogue) es)
    (hs : Machine.run SourcesViewController.step c es = some c') (htap : .tap row ∉ es)
    {value : DataSnapshot} (hv : .snapshot value ∈ es)
    (hsame : ∀ v, .snapshot v ∈ es → getUserSources v = getUserSources value) :
    (draftAfter catalogue d es).Has (catalogueId catalogue row) ↔
      catalogueId catalogue row ∈ parseUserSources (getUserSources value) := by
  obtain ⟨es₁, es₂, rfl⟩ := List.append_of_mem hv
  obtain ⟨m, hm, hr⟩ := Machine.run_append_eq_some.mp hs
  obtain ⟨n, hn, hr⟩ := Option.bind_eq_some_iff.mp hr
  have hrm := h.run hcat (hans.subset fun _ => List.mem_append_left _) hm
  have hrn := hrm.step hcat (hans.singleton (by simp)) hn
  rw [draftAfter_append]
  refine hrn.has_run hcat hrow (hans.subset fun e he => by simp [he]) hr
    (fun hmem => htap (by simp [hmem])) Draft.has_load ?_
  intro v hmem
  rw [hsame v (by simp [hmem])]

end Refines

/-- What a tap leaves in the draft, from the table and from the taps since the last snapshot. -/
theorem has_after_tap {catalogue : List Source} (hcat : Distinct catalogue) {es : List Event}
    {row : Nat} (hans : Answers (· = catalogue) (es ++ [.tap row])) {m t : SourcesViewController}
    (hm : Machine.run step viewDidLoad es = some m) (ht : step m (.tap row) = some t) :
    row < catalogue.length ∧
    ((draftAfter catalogue (.load []) (es ++ [.tap row])).Has (catalogueId catalogue row) ↔
      row ∉ m.selected) ∧
    ((draftAfter catalogue (.load []) (es ++ [.tap row])).Has (catalogueId catalogue row) ↔
      Xor (catalogueId catalogue row ∈ lastDelivered es)
        (Odd ((tapped (es ++ [.tap row])).count row))) := by
  obtain ⟨hr, htr⟩ := refines_and_tracks hcat hans (Machine.run_concat_eq_some.mpr ⟨m, hm, ht⟩)
  have hmem : row ∈ tapped (es ++ [.tap row]) := by
    rw [tapped_concat_tap hm]
    exact List.mem_append_right _ List.mem_cons_self
  have hdisp := htr.displayed row hmem
  have hsel := hr.mem_selected hdisp
  have hodd := htr.has_iff hr hcat hmem
  rw [hr.rowId hdisp] at hsel hodd
  rw [lastDelivered_concat es rfl] at hodd
  refine ⟨hr.lt_length hdisp, ?_, hodd⟩
  rw [← hsel]
  cases step_to ht with
  | tap _ _ => rw [mem_selected_tap, if_pos rfl]
  | other _ _ _ he => rcases he with he | ⟨_, he⟩ | he <;> cases he

/-- Done writes the id of a row iff the list has it. -/
theorem mem_saved_iff {catalogue : List Source} (hsep : Separable catalogue) {es : List Event}
    (hans : Answers (· = catalogue) es) {c : SourcesViewController}
    (hs : Machine.run step viewDidLoad es = some c) {row : Nat} (hrow : row < catalogue.length) :
    catalogueId catalogue row ∈ c.saved.splitOn comma ↔
      catalogueId catalogue row ∈ c.userSources := by
  have hgood : c.Good := good_of_run (hans.mono fun _ h => h ▸ hsep) hs
  obtain ⟨id, hid, hne, -⟩ := hsep _ (List.getElem_mem hrow)
  have hid' : catalogueId catalogue row = id := by rw [catalogueId_eq hrow, hid]; rfl
  rw [saved_eq, mem_splitOn_parseNew hgood.userSources (hid' ▸ hne)]

/-- The last tap on a row, after a load and with snapshots that bring the loaded sources again:
Done writes the row's id exactly if that tap selected it iff no snapshot follows the tap, or the
row was tapped an even number of times since the snapshot before it, so that the tap restored what
was loaded. -/
theorem toggle_kept_iff {catalogue : List Source} (hcat : Distinct catalogue)
    (hsep : Separable catalogue) {start edits rest : List Event} {value : DataSnapshot} {row : Nat}
    (hans : Answers (· = catalogue) (start ++ .snapshot value :: edits ++ .tap row :: rest))
    (hsame : ∀ v, .snapshot v ∈ edits ++ rest → getUserSources v = getUserSources value)
    (hlast : .tap row ∉ rest) {m c : SourcesViewController}
    (hm : Machine.run step viewDidLoad (start ++ .snapshot value :: edits) = some m)
    (hc : Machine.run step m (.tap row :: rest) = some c) :
    (catalogueId catalogue row ∈ c.saved.splitOn comma ↔ row ∉ m.selected) ↔
      (∀ e ∈ rest, e.isSnapshot = false) ∨
        Even ((tapped (start ++ .snapshot value :: edits ++ [.tap row])).count row) := by
  have hbase : lastDelivered (start ++ .snapshot value :: edits) =
      parseUserSources (getUserSources value) :=
    lastDelivered_of_same fun v hv => hsame v (List.mem_append_left _ hv)
  have hrun := Machine.run_append_eq_some.mpr ⟨m, hm, hc⟩
  generalize start ++ .snapshot value :: edits = es at *
  obtain ⟨t, ht, hrest⟩ := Option.bind_eq_some_iff.mp hc
  have hans' : Answers (· = catalogue) (es ++ [.tap row]) := hans.subset fun e he => by
    rw [List.mem_append, List.mem_singleton] at he
    rw [List.mem_append, List.mem_cons]
    exact he.imp_right .inl
  have hansr : Answers (· = catalogue) rest := hans.subset fun e he => by simp [he]
  obtain ⟨hrow, hsel, hodd⟩ := has_after_tap hcat hans' hm ht
  have hr := (refines_and_tracks hcat hans' (Machine.run_concat_eq_some.mpr ⟨m, hm, ht⟩)).1
  generalize draftAfter catalogue (.load []) (es ++ [.tap row]) = d at *
  rw [mem_saved_iff hsep hans hrun hrow, (hr.run hcat hansr hrest).userSources, Draft.mem_list]
  by_cases hno : ∀ e ∈ rest, e.isSnapshot = false
  · have hkept := hr.has_run hcat hrow hansr hrest hlast hsel fun v hv => by cases hno _ hv
    exact iff_of_true hkept (.inl hno)
  · have hkept : (draftAfter catalogue d rest).Has (catalogueId catalogue row) ↔
        catalogueId catalogue row ∈ lastDelivered es := by
      push Not at hno
      obtain ⟨e, he, hsnap⟩ := hno
      cases e with
      | snapshot v =>
        have hv := hsame v (List.mem_append_right _ he)
        rw [hbase, ← hv]
        refine hr.has_of_snapshot hcat hrow hansr hrest hlast he fun w hw => ?_
        rw [hsame w (List.mem_append_right _ hw), hv]
      | _ => exact absurd rfl hsnap
    -- The list has the row as loaded; the tap left it so iff it was tapped an even number of times.
    rw [hkept, ← hsel, hodd, or_iff_right hno, ← Nat.not_odd_iff_even]
    unfold Xor
    grind

/-- Both sources are tapped, the first one once more; then another field of the record changes, and
Done is pressed. -/
theorem toggle_kept_sample :
    ∃ m c, Machine.run step viewDidLoad
        ([sampleAnswer] ++ .snapshot sampleSnapshot ::
          [.cellForRowAt 0, .cellForRowAt 1, .tap 0, .tap 1]) = some m ∧
      Machine.run step m (.tap 0 :: [.snapshot laterSnapshot, .done]) = some c ∧
      ((catalogueId sampleCatalogue 0 ∈ c.saved.splitOn comma ↔ 0 ∉ m.selected) ↔
        (∀ e ∈ [Event.snapshot laterSnapshot, .done], e.isSnapshot = false) ∨
          Even ((tapped ([sampleAnswer] ++ .snapshot sampleSnapshot ::
            [.cellForRowAt 0, .cellForRowAt 1, .tap 0, .tap 1] ++ [.tap 0])).count 0)) := by
  refine ⟨_, _, rfl, rfl, toggle_kept_iff distinct_sample separable_sample
    (answers_sample (by simp)) ?_ (by simp) rfl rfl⟩
  intro v hv
  have hs : v = laterSnapshot := by simpa using hv
  rw [hs]
  decide

/-- After the tap another field of the record changes: the snapshot takes the tap back, and Done
writes the id. -/
theorem not_toggle_kept_snapshot :
    ∃ m c, Machine.run step viewDidLoad ([sampleAnswer] ++ .snapshot sampleSnapshot ::
        [.cellForRowAt 0, .cellForRowAt 1]) = some m ∧
      Machine.run step m (.tap 0 :: [.snapshot laterSnapshot, .done]) = some c ∧
      laterSnapshot ≠ sampleSnapshot ∧
      getUserSources laterSnapshot = getUserSources sampleSnapshot ∧
      0 ∈ m.selected ∧ catalogueId sampleCatalogue 0 ∈ c.saved.splitOn comma ∧
      c.written = [.child .userSources c.saved] :=
  ⟨_, _, rfl, rfl, by decide, by decide, by decide, by decide, rfl⟩

end SourcesViewController
end MyNews
