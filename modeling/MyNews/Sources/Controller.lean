import MyNews.Lib.Machine
import MyNews.SourcesViewModel

/-!
# `SourcesViewController`

The Sources screen shows a row for each source of the catalogue and keeps the selection twice: in
the table (`selected`) and as the list `userSources` of ids. The catalogue is requested when the
screen opens; its answer registers the observer of the record, and each snapshot replaces
`userSources` and reloads the table. A row is marked selected when the table asks for its cell.

What UIKit does, as far as the screen depends on it:

* `reloadData` clears the selection and forgets the cells; a row can be tapped once its cell has
  been asked for.
* A tap on a row of a table with `allowsMultipleSelection` selects or deselects it and then calls
  `didSelectRowAt` or `didDeselectRowAt`; `selectRow` calls neither.

`step` is the screen as a machine over the answers, the deliveries and the user's actions.

* `StepTo`, `step_to`: what a step can do to the list and the table.
* `Shape.step`: which rows can be displayed and selected.
* `Agree.step`: the table shows the list, as long as no tap is on a row whose id another one has.
* `Good.step`: ids that the catalogue has and the stored string can hold stay in the list.
-/

namespace MyNews

/-- A cell: its labels. -/
structure SourcesCell where
  nameLabel : Str
  categoryLabel : Str
  descriptionLabel : Str
  id : Option Str
  deriving DecidableEq

/-- What `data`'s `didSet` makes of a source. -/
def SourcesCell.setData (source : Source) : SourcesCell where
  nameLabel := source.name.getD []
  categoryLabel := source.category.getD []
  descriptionLabel := source.description.getD []
  id := source.id

/-- What is on the screen. -/
inductive Shown where
  | table
  /-- The alert of a failed save, over the table. -/
  | alert
  /-- The container screen again. -/
  | left
  deriving DecidableEq

structure SourcesViewController where
  allSources : List Source
  userSources : List Str
  /-- The catalogue is requested and not answered. -/
  requested : Bool
  /-- `getUserSources` has registered its observer. -/
  observing : Bool
  /-- The rows whose cells the table has asked for since the last reload. -/
  displayed : Finset Nat
  /-- The rows that are selected in the table. -/
  selected : Finset Nat
  /-- The number of saves that are not answered. -/
  saves : Nat
  /-- The writes that Done has made, in order. -/
  written : List Write
  shown : Shown
  deriving DecidableEq

namespace SourcesViewController

open OnlineRepository SourcesViewModel

/-- The screen after `viewDidLoad`. -/
def viewDidLoad : SourcesViewController where
  allSources := []
  userSources := []
  requested := true
  observing := false
  displayed := ∅
  selected := ∅
  saves := 0
  written := []
  shown := .table

/-- `allSources[row].id ?? ""`, for a catalogue. -/
def catalogueId (allSources : List Source) (row : Nat) : Str :=
  match allSources[row]? with
  | some source => source.id.getD []
  | none => []

/-- The same, for the catalogue of the screen. -/
def rowId (c : SourcesViewController) (row : Nat) : Str := catalogueId c.allSources row

/-- `viewModel.allSourcesDone`. -/
def allSourcesDone (c : SourcesViewController) (response : SourcesList) : SourcesViewController :=
  { c with allSources := response.sources, observing := true }

/-- `viewModel.userSourcesDone`, with `tableView.reloadData()`. -/
def userSourcesDone (c : SourcesViewController) (response : List Str) : SourcesViewController :=
  { c with userSources := response, displayed := ∅, selected := ∅ }

/-- `viewModel.successSaveUserSources`. -/
def successSaveUserSources (c : SourcesViewController) : SourcesViewController :=
  { c with shown := .left }

/-- `viewModel.failedSaveUserSources`. -/
def failedSaveUserSources (c : SourcesViewController) : SourcesViewController :=
  { c with shown := if c.shown = .table then .alert else c.shown }

/-- `cellForRowAt`: the cell, and the screen after it; `none` if the row is out of range. -/
def cellForRowAt (c : SourcesViewController) (row : Nat) :
    Option (SourcesCell × SourcesViewController) :=
  match c.allSources[row]? with
  | none => none
  | some source =>
    let id := source.id.getD []
    let selected := if c.userSources.contains id then insert row c.selected else c.selected
    some (SourcesCell.setData source, { c with displayed := insert row c.displayed, selected })

/-- `didDeselectRowAt`. -/
def didDeselectRowAt (c : SourcesViewController) (row : Nat) : SourcesViewController :=
  let id := c.rowId row
  if c.userSources.contains id then
    let sources := c.userSources
    { c with
      userSources := sources.foldl
        (fun userSources sour => if id = sour then userSources else userSources ++ [sour]) [] }
  else c

/-- `didSelectRowAt`. -/
def didSelectRowAt (c : SourcesViewController) (row : Nat) : SourcesViewController :=
  { c with userSources := c.userSources ++ [c.rowId row] }

/-- `handleDismis`: the write that Done makes. -/
def handleDismis (c : SourcesViewController) : Write := saveUserSources c.userSources

/-- The string that Done writes. -/
def saved (c : SourcesViewController) : Str :=
  match c.handleDismis with
  | .record _ => []
  | .child _ value => value

/-- What happens to the screen. -/
inductive Event where
  /-- The catalogue request is answered. -/
  | allSources (response : DataResponse SourcesList)
  /-- A snapshot of the record is delivered. -/
  | snapshot (value : DataSnapshot)
  /-- The table asks for the cell of a row: it is scrolled in. -/
  | cellForRowAt (row : Nat)
  /-- The user taps a row. -/
  | tap (row : Nat)
  /-- The user presses Done. -/
  | done
  /-- The save of a Done is answered. -/
  | saveAnswered (error : Bool)
  /-- The user closes the alert. -/
  | ok

/-- The tap of a row. -/
def tap (c : SourcesViewController) (row : Nat) : SourcesViewController :=
  if row ∈ c.selected then didDeselectRowAt { c with selected := c.selected.erase row } row
  else didSelectRowAt { c with selected := insert row c.selected } row

/-- The screen after the event; `none` if the event cannot happen. -/
def step (c : SourcesViewController) : Event → Option SourcesViewController
  | .allSources response =>
    if c.requested then
      match getSources response with
      | none => some { c with requested := false }
      | some list => some (allSourcesDone { c with requested := false } list)
    else none
  | .snapshot value =>
    if c.observing then some (c.userSourcesDone (parseUserSources (getUserSources value))) else none
  | .cellForRowAt row => (c.cellForRowAt row).map Prod.snd
  | .tap row => if c.shown = .table ∧ row ∈ c.displayed then some (c.tap row) else none
  | .done =>
    if c.shown = .table then
      some { c with saves := c.saves + 1, written := c.written ++ [c.handleDismis] }
    else none
  | .saveAnswered error =>
    if 0 < c.saves then
      let c := { c with saves := c.saves - 1 }
      some (if error then c.failedSaveUserSources else c.successSaveUserSources)
    else none
  | .ok => if c.shown = .alert then some { c with shown := .left } else none

theorem catalogueId_eq {catalogue : List Source} {row : Nat} (h : row < catalogue.length) :
    catalogueId catalogue row = catalogue[row].id.getD [] := by
  simp [catalogueId, List.getElem?_eq_getElem h]

/-! ## What a step does to the list and the table -/

/-- The loop of `didDeselectRowAt` drops every occurrence of the id. -/
theorem foldl_skip (id : Str) (l acc : List Str) :
    l.foldl (fun acc x => if id = x then acc else acc ++ [x]) acc = acc ++ l.filter (· ≠ id) := by
  induction l generalizing acc with
  | nil => simp
  | cons x l ih =>
    rw [List.foldl_cons, ih]
    by_cases h : id = x
    · subst h; simp
    · simp [h, Ne.symm h]

theorem filter_ne_of_not_mem {id : Str} {l : List Str} (h : id ∉ l) : l.filter (· ≠ id) = l := by
  rw [List.filter_eq_self]
  intro x hx
  simpa using fun he : x = id => h (he ▸ hx)

theorem userSources_didDeselectRowAt (c : SourcesViewController) (row : Nat) :
    c.didDeselectRowAt row = { c with userSources := c.userSources.filter (· ≠ c.rowId row) } := by
  simp only [didDeselectRowAt]
  split
  · rw [foldl_skip, List.nil_append]
  · rename_i h
    rw [filter_ne_of_not_mem (by simpa using h)]

/-- A tap on a selected row drops its id, a tap on another one appends it. -/
theorem tap_of_mem {c : SourcesViewController} {row : Nat} (h : row ∈ c.selected) :
    c.tap row = { c with
      selected := c.selected.erase row
      userSources := c.userSources.filter (· ≠ c.rowId row) } := by
  rw [tap, if_pos h, userSources_didDeselectRowAt]
  rfl

theorem tap_of_not_mem {c : SourcesViewController} {row : Nat} (h : row ∉ c.selected) :
    c.tap row = { c with
      selected := insert row c.selected
      userSources := c.userSources ++ [c.rowId row] } := by
  rw [tap, if_neg h]
  rfl

theorem mem_selected_tap {c : SourcesViewController} {row i : Nat} :
    i ∈ (c.tap row).selected ↔ if i = row then row ∉ c.selected else i ∈ c.selected := by
  by_cases h : row ∈ c.selected
  · rw [tap_of_mem h, Finset.mem_erase]
    split <;> simp [*]
  · rw [tap_of_not_mem h, Finset.mem_insert]
    split <;> simp [*]

theorem mem_userSources_tap {c : SourcesViewController} {row : Nat} {x : Str} :
    x ∈ (c.tap row).userSources ↔
      if x = c.rowId row then row ∉ c.selected else x ∈ c.userSources := by
  by_cases h : row ∈ c.selected
  · rw [tap_of_mem h, List.mem_filter]
    split <;> simp [*]
  · rw [tap_of_not_mem h, List.mem_append, List.mem_singleton]
    split <;> simp [*]

/-- A tap changes the list and the selection only. -/
theorem tap_frame (c : SourcesViewController) (row : Nat) :
    (c.tap row).allSources = c.allSources ∧ (c.tap row).requested = c.requested ∧
      (c.tap row).displayed = c.displayed ∧ (c.tap row).written = c.written := by
  by_cases h : row ∈ c.selected
  · rw [tap_of_mem h]; exact ⟨rfl, rfl, rfl, rfl⟩
  · rw [tap_of_not_mem h]; exact ⟨rfl, rfl, rfl, rfl⟩

@[simp] theorem allSources_tap (c : SourcesViewController) (row : Nat) :
    (c.tap row).allSources = c.allSources := (c.tap_frame row).1

@[simp] theorem requested_tap (c : SourcesViewController) (row : Nat) :
    (c.tap row).requested = c.requested := (c.tap_frame row).2.1

@[simp] theorem displayed_tap (c : SourcesViewController) (row : Nat) :
    (c.tap row).displayed = c.displayed := (c.tap_frame row).2.2.1

@[simp] theorem written_tap (c : SourcesViewController) (row : Nat) :
    (c.tap row).written = c.written := (c.tap_frame row).2.2.2

@[simp] theorem rowId_tap (c : SourcesViewController) (row i : Nat) :
    (c.tap row).rowId i = c.rowId i := by
  rw [rowId, rowId, allSources_tap]

/-- The screen after the cell of a row has been asked for. -/
def display (c : SourcesViewController) (row : Nat) : SourcesViewController :=
  { c with
    displayed := insert row c.displayed
    selected := if c.rowId row ∈ c.userSources then insert row c.selected else c.selected }

theorem mem_selected_display {c : SourcesViewController} {row i : Nat} :
    i ∈ (c.display row).selected ↔ (i = row ∧ c.rowId row ∈ c.userSources) ∨ i ∈ c.selected := by
  unfold display
  split <;> simp [*]

theorem cellForRowAt_eq_some {c c' : SourcesViewController} {row : Nat} {cell : SourcesCell}
    (h : c.cellForRowAt row = some (cell, c')) :
    row < c.allSources.length ∧ c' = c.display row := by
  unfold cellForRowAt at h
  cases hs : c.allSources[row]? with
  | none => rw [hs] at h; cases h
  | some source =>
    rw [hs] at h
    cases h
    refine ⟨(List.getElem?_eq_some_iff.mp hs).1, ?_⟩
    simp only [display, rowId, catalogueId, hs, List.contains_iff_mem]

theorem step_cellForRowAt {c : SourcesViewController} {row : Nat} (h : row < c.allSources.length) :
    step c (.cellForRowAt row) = some (c.display row) := by
  simp [step, cellForRowAt, display, rowId, catalogueId, List.getElem?_eq_getElem h]

/-- Two screens with the same catalogue, list, table and requests. -/
def SameList (c c' : SourcesViewController) : Prop :=
  c'.allSources = c.allSources ∧ c'.userSources = c.userSources ∧ c'.requested = c.requested ∧
    c'.observing = c.observing ∧ c'.displayed = c.displayed ∧ c'.selected = c.selected

/-- What a step does: an answer, a delivery, a cell, a tap, or nothing to the list and the table. -/
inductive StepTo (c : SourcesViewController) : Event → SourcesViewController → Prop
  | failed (response : DataResponse SourcesList) (hr : c.requested = true)
    (h : getSources response = none) : StepTo c (.allSources response) { c with requested := false }
  | catalogue (response : DataResponse SourcesList) (list : SourcesList) (hr : c.requested = true)
    (h : getSources response = some list) :
    StepTo c (.allSources response) (allSourcesDone { c with requested := false } list)
  | snapshot (value : DataSnapshot) (h : c.observing = true) :
    StepTo c (.snapshot value) (c.userSourcesDone (parseUserSources (getUserSources value)))
  | cell (row : Nat) (h : row < c.allSources.length) :
    StepTo c (.cellForRowAt row) (c.display row)
  | tap (row : Nat) (h : row ∈ c.displayed) : StepTo c (.tap row) (c.tap row)
  | other (e : Event) (c' : SourcesViewController) (h : c.SameList c')
    (he : e = .done ∨ (∃ error, e = .saveAnswered error) ∨ e = .ok) : StepTo c e c'

theorem step_to {c c' : SourcesViewController} {e : Event} (h : step c e = some c') :
    StepTo c e c' := by
  cases e with
  | allSources response =>
    simp only [step] at h
    split at h
    · rename_i hr
      split at h
      · rename_i hn; cases h; exact .failed response hr hn
      · rename_i list hl; cases h; exact .catalogue response list hr hl
    · cases h
  | snapshot value =>
    simp only [step] at h
    split at h
    · rename_i ho; cases h; exact .snapshot value ho
    · cases h
  | cellForRowAt row =>
    obtain ⟨⟨cell, c''⟩, hc, rfl⟩ := Option.map_eq_some_iff.mp h
    obtain ⟨hrow, rfl⟩ := cellForRowAt_eq_some hc
    exact .cell row hrow
  | tap row =>
    simp only [step] at h
    split at h
    · rename_i hd; cases h; exact .tap row hd.2
    · cases h
  | done =>
    simp only [step] at h
    split at h
    · cases h; exact .other _ _ ⟨rfl, rfl, rfl, rfl, rfl, rfl⟩ (.inl rfl)
    · cases h
  | saveAnswered error =>
    simp only [step] at h
    split at h
    · cases h
      refine .other _ _ ?_ (.inr (.inl ⟨error, rfl⟩))
      cases error <;> exact ⟨rfl, rfl, rfl, rfl, rfl, rfl⟩
    · cases h
  | ok =>
    simp only [step] at h
    split at h
    · cases h; exact .other _ _ ⟨rfl, rfl, rfl, rfl, rfl, rfl⟩ (.inr (.inr rfl))
    · cases h

/-! ## The writes -/

/-- Done writes one child. -/
theorem handleDismis_eq (c : SourcesViewController) :
    c.handleDismis = .child .userSources c.saved := rfl

theorem saved_eq (c : SourcesViewController) : c.saved = parseNewUserSources c.userSources := rfl

/-- The writes that the event makes. -/
def writes (c : SourcesViewController) : Event → List Write
  | .done => [c.handleDismis]
  | _ => []

/-- No other event than Done writes. -/
theorem written_step {c c' : SourcesViewController} {e : Event} (h : step c e = some c') :
    c'.written = c.written ++ c.writes e := by
  cases e with
  | done =>
    simp only [step] at h
    split at h
    · cases h; rfl
    · cases h
  | saveAnswered error =>
    simp only [step] at h
    split at h
    · cases h; cases error <;> exact (List.append_nil _).symm
    · cases h
  | ok =>
    simp only [step] at h
    split at h
    · cases h; exact (List.append_nil _).symm
    · cases h
  | tap row =>
    refine Eq.trans ?_ (List.append_nil _).symm
    cases step_to h with
    | tap _ _ => exact c.written_tap row
    | other _ _ _ he => rcases he with he | ⟨_, he⟩ | he <;> cases he
  | _ =>
    refine Eq.trans ?_ (List.append_nil _).symm
    cases step_to h with
    | other _ _ _ he => rcases he with he | ⟨_, he⟩ | he <;> cases he
    | _ => rfl

/-- Done records the write of `saved`. -/
theorem written_done {c c' : SourcesViewController} (h : step c .done = some c') :
    c'.written = c.written ++ [.child .userSources c.saved] := written_step h

/-! ## The table -/

/-- The catalogue is empty until its request is answered, the displayed rows are rows of it, and the
selected rows are displayed. -/
structure Shape (c : SourcesViewController) : Prop where
  fresh : c.requested = true → c.allSources = []
  displayed : ∀ row ∈ c.displayed, row < c.allSources.length
  selected : ∀ row ∈ c.selected, row ∈ c.displayed

namespace Shape

variable {c c' : SourcesViewController}

theorem not_mem_displayed (h : c.Shape) (hr : c.requested = true) (row : Nat) :
    row ∉ c.displayed := by
  intro hrow
  have := h.displayed row hrow
  rw [h.fresh hr] at this
  exact absurd this (Nat.not_lt_zero row)

theorem tap (h : c.Shape) {row : Nat} (hrow : row ∈ c.displayed) : (c.tap row).Shape := by
  refine ⟨by simpa using h.fresh, by simpa using h.displayed, ?_⟩
  intro i hi
  rw [displayed_tap]
  rw [mem_selected_tap] at hi
  split at hi
  · rename_i he; rw [he]; exact hrow
  · exact h.selected i hi

theorem display (h : c.Shape) {row : Nat} (hrow : row < c.allSources.length) :
    (c.display row).Shape := by
  refine ⟨h.fresh, ?_, ?_⟩ <;> intro i hi
  · rcases Finset.mem_insert.mp hi with rfl | hi
    · exact hrow
    · exact h.displayed i hi
  · rcases mem_selected_display.mp hi with ⟨rfl, -⟩ | hi
    · exact Finset.mem_insert_self _ _
    · exact Finset.mem_insert_of_mem (h.selected i hi)

theorem step (h : c.Shape) {e : Event} (hs : SourcesViewController.step c e = some c') :
    c'.Shape := by
  cases step_to hs with
  | failed _ _ _ => exact ⟨by simp, h.displayed, h.selected⟩
  | catalogue _ _ hr _ =>
    refine ⟨by simp [allSourcesDone], ?_, ?_⟩ <;> intro row hrow
    · exact (h.not_mem_displayed hr row hrow).elim
    · exact h.selected row hrow
  | snapshot _ _ => refine ⟨h.fresh, ?_, ?_⟩ <;> simp [userSourcesDone]
  | cell row hrow => exact h.display hrow
  | tap row hrow => exact h.tap hrow
  | other e c' hsame _ =>
    obtain ⟨h1, -, h3, -, h5, h6⟩ := hsame
    exact ⟨by rw [h1, h3]; exact h.fresh, by rw [h1, h5]; exact h.displayed,
      by rw [h5, h6]; exact h.selected⟩

end Shape

theorem shape_viewDidLoad : viewDidLoad.Shape := by
  refine ⟨fun _ => rfl, ?_, ?_⟩ <;> simp [viewDidLoad]

/-- A displayed row is selected iff its id is in the list. -/
def Agree (c : SourcesViewController) : Prop :=
  ∀ row ∈ c.displayed, (row ∈ c.selected ↔ c.rowId row ∈ c.userSources)

namespace Agree

variable {c c' : SourcesViewController}

theorem display (h : c.Agree) (hshape : c.Shape) (row : Nat) : (c.display row).Agree := by
  intro i hi
  show i ∈ (c.display row).selected ↔ c.rowId i ∈ c.userSources
  rw [mem_selected_display]
  by_cases hin : i ∈ c.displayed
  · rw [h i hin]
    refine ⟨?_, .inr⟩
    rintro (⟨rfl, hh⟩ | hh) <;> exact hh
  · -- A row that is displayed now for the first time was not selected.
    have he : i = row := (Finset.mem_insert.mp hi).resolve_right hin
    subst he
    refine ⟨?_, fun hh => .inl ⟨rfl, hh⟩⟩
    rintro (⟨-, hh⟩ | hs)
    · exact hh
    · exact (hin (hshape.selected i hs)).elim

/-- A tap, if no other displayed row has the id. -/
theorem tap (h : c.Agree) {row : Nat}
    (hne : ∀ i ∈ c.displayed, i ≠ row → c.rowId i ≠ c.rowId row) : (c.tap row).Agree := by
  intro i hi
  rw [displayed_tap] at hi
  rw [mem_selected_tap, mem_userSources_tap, rowId_tap]
  by_cases he : i = row
  · rw [if_pos he, if_pos (by rw [he])]
  · rw [if_neg he, if_neg (hne i hi he), h i hi]

theorem step (h : c.Agree) (hshape : c.Shape) {e : Event}
    (hs : SourcesViewController.step c e = some c')
    (htap : ∀ row ∈ c.displayed, e = .tap row →
      ∀ i ∈ c.displayed, i ≠ row → c.rowId i ≠ c.rowId row) : c'.Agree := by
  cases step_to hs with
  | failed _ _ _ => exact h
  | catalogue _ _ hr _ => exact fun row hrow => (hshape.not_mem_displayed hr row hrow).elim
  | snapshot _ _ => simp [Agree, userSourcesDone]
  | cell row _ => exact h.display hshape row
  | tap row hrow => exact h.tap (htap row hrow rfl)
  | other e c' hsame _ =>
    obtain ⟨h1, h2, -, -, h5, h6⟩ := hsame
    unfold Agree rowId
    rw [h1, h2, h5, h6]
    exact h

end Agree

theorem agree_viewDidLoad : viewDidLoad.Agree := by simp [Agree, viewDidLoad]

/-! ## Ids that are read back -/

/-- Every source of the catalogue has an id that is not empty and has no comma. -/
def Separable (catalogue : List Source) : Prop :=
  ∀ source ∈ catalogue, ∃ id, source.id = some id ∧ id ≠ [] ∧ comma ∉ id

/-- Every catalogue that an answer among the events brings has `P`. -/
def Answers (P : List Source → Prop) (es : List Event) : Prop :=
  ∀ response, .allSources response ∈ es → ∀ list, getSources response = some list → P list.sources

theorem Answers.mono {P Q : List Source → Prop} {es : List Event} (h : Answers P es)
    (hPQ : ∀ catalogue, P catalogue → Q catalogue) : Answers Q es :=
  fun response hr list hl => hPQ _ (h response hr list hl)

theorem Answers.subset {P : List Source → Prop} {es fs : List Event} (h : Answers P es)
    (hfs : ∀ e ∈ fs, e ∈ es) : Answers P fs :=
  fun response hr list hl => h response (hfs _ hr) list hl

theorem Answers.singleton {P : List Source → Prop} {es : List Event} (h : Answers P es) {e : Event}
    (he : e ∈ es) : Answers P [e] :=
  h.subset (by simpa using he)

/-- The ids of the catalogue and of the list are not empty and have no comma. -/
structure Good (c : SourcesViewController) : Prop extends Shape c where
  catalogue : Separable c.allSources
  userSources : ∀ x ∈ c.userSources, x ≠ [] ∧ comma ∉ x

namespace Good

variable {c c' : SourcesViewController}

theorem rowId (h : c.Good) {row : Nat} (hrow : row < c.allSources.length) :
    c.rowId row ≠ [] ∧ comma ∉ c.rowId row := by
  obtain ⟨id, hid, hgood⟩ := h.catalogue _ (List.getElem_mem hrow)
  have hr : c.rowId row = id := by
    rw [SourcesViewController.rowId, catalogueId_eq hrow, hid]
    rfl
  rw [hr]
  exact hgood

theorem tap (h : c.Good) {row : Nat} (hrow : row ∈ c.displayed) : (c.tap row).Good := by
  refine ⟨h.toShape.tap hrow, by simpa using h.catalogue, ?_⟩
  intro x hx
  rw [mem_userSources_tap] at hx
  split at hx
  · rename_i he; rw [he]; exact h.rowId (h.displayed row hrow)
  · exact h.userSources x hx

theorem step (h : c.Good) {e : Event} (he : Answers Separable [e])
    (hs : SourcesViewController.step c e = some c') : c'.Good := by
  have hshape := h.toShape.step hs
  cases step_to hs with
  | failed _ _ _ => exact ⟨hshape, h.catalogue, h.userSources⟩
  | catalogue response list _ hl =>
    exact ⟨hshape, he response List.mem_cons_self list hl, h.userSources⟩
  | snapshot _ _ =>
    exact ⟨hshape, h.catalogue, fun x hx => ne_nil_and_not_mem_of_mem_parse hx⟩
  | cell _ _ => exact ⟨hshape, h.catalogue, h.userSources⟩
  | tap row hrow => exact h.tap hrow
  | other e c' hsame _ =>
    exact ⟨hshape, by rw [hsame.1]; exact h.catalogue, by rw [hsame.2.1]; exact h.userSources⟩

end Good

theorem good_viewDidLoad : viewDidLoad.Good := by
  refine ⟨shape_viewDidLoad, ?_, ?_⟩ <;> simp [viewDidLoad, Separable]

/-- Every state that the screen reaches with separable catalogues is good. -/
theorem good_of_run {es : List Event} (hes : Answers Separable es) {c : SourcesViewController}
    (hs : Machine.run step viewDidLoad es = some c) : c.Good :=
  Machine.run_invariant (fun _ he _ _ hi hstep => hi.step (hes.singleton he) hstep) hs
    good_viewDidLoad

/-! ## A sample -/

/-- A catalogue of two sources. -/
def sampleCatalogue : List Source := [{ id := some (Str.of "abc") }, { id := some (Str.of "cnn") }]

/-- Its delivery. -/
def sampleAnswer : Event := .allSources { data := some (some ⟨sampleCatalogue⟩), error := false }

/-- A record whose selection is these sources. -/
def sampleRecord : Record := (saveUserSources [Str.of "abc", Str.of "cnn"]).apply postInfo

/-- Both are stored when the screen opens. -/
def sampleSnapshot : DataSnapshot := .dictionary sampleRecord

/-- Another field of the record has changed. -/
def laterSnapshot : DataSnapshot :=
  .dictionary ((Write.child .userMobile (Str.of "1")).apply sampleRecord)

/-- The sources are loaded and displayed, and the first one is tapped. -/
def sampleRun : List Event :=
  [sampleAnswer, .snapshot sampleSnapshot, .cellForRowAt 0, .cellForRowAt 1, .tap 0]

theorem separable_sample : Separable sampleCatalogue := by
  intro source hs
  simp only [sampleCatalogue, List.mem_cons, List.not_mem_nil, or_false] at hs
  rcases hs with rfl | rfl
  · exact ⟨Str.of "abc", rfl, by decide, by decide⟩
  · exact ⟨Str.of "cnn", rfl, by decide, by decide⟩

theorem answers_sample {es : List Event} (h : ∀ response, .allSources response ∉ es) :
    Answers (· = sampleCatalogue) (sampleAnswer :: es) := by
  intro response hr list hl
  rcases List.mem_cons.mp hr with he | he
  · cases he; cases hl; rfl
  · exact absurd he (h response)

end SourcesViewController
end MyNews
