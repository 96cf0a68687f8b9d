import MyNews.Sources.Controller

/-!
# Saving and opening again

* `Untouched`: a screen that has loaded a stored string and that the user has not tapped. Its list
  is what the reader makes of the string, and a displayed row is selected iff its id is in it.
* `Linked`: what ties the table to the list in any run, also for a catalogue with null or repeated
  ids: the last tap on the rows with an id decides both whether the id is in the list and whether
  one of these rows is selected.
* `encode_decode`: the writer after the reader is a normal form of the stored string, and a Done
  without a tap writes it.
* `reopened_iff`: when the rows that are selected at Done are selected again.
-/

namespace MyNews
namespace SourcesViewController

open OnlineRepository SourcesViewModel Segments

/-- A screen on the stored string `s` that the user has not tapped: a snapshot has come, and each
brings `s`. -/
structure Untouched (s : Str) (es : List Event) (c : SourcesViewController) : Prop where
  run : Machine.run step viewDidLoad es = some c
  loaded : ∃ value, .snapshot value ∈ es
  same : ∀ value, .snapshot value ∈ es → getUserSources value = s
  untapped : ∀ row, .tap row ∉ es

/-! ## An untouched screen -/

/-- A step other than a tap keeps the list, unless a snapshot brings another one. -/
theorem userSources_of_step {c c' : SourcesViewController} {e : Event} (hs : step c e = some c')
    (htap : ∀ row, e ≠ .tap row) {l : List Str} (h : c.userSources = l)
    (hsnap : ∀ value, e = .snapshot value → parseUserSources (getUserSources value) = l) :
    c'.userSources = l := by
  cases step_to hs with
  | snapshot value _ => exact hsnap value rfl
  | tap row _ => exact (htap row rfl).elim
  | other e c' hsame _ => rw [hsame.2.1, h]
  | _ => exact h

namespace Untouched

variable {s : Str} {es : List Event} {c : SourcesViewController}

theorem userSources (h : Untouched s es c) : c.userSources = parseUserSources s := by
  obtain ⟨value, hv⟩ := h.loaded
  obtain ⟨before, after, rfl⟩ := List.append_of_mem hv
  obtain ⟨m, -, hr⟩ := Machine.run_append_eq_some.mp h.run
  obtain ⟨n, hn, hr⟩ := Option.bind_eq_some_iff.mp hr
  -- From this snapshot on the list is what the reader makes of `s`.
  have hload : n.userSources = parseUserSources s := by
    cases step_to hn with
    | snapshot _ _ =>
      rw [← h.same value hv]
      rfl
    | other _ _ _ he => rcases he with he | ⟨_, he⟩ | he <;> cases he
  refine Machine.run_invariant (I := fun c => c.userSources = parseUserSources s) ?_ hr hload
  intro e he c c' hc hs
  refine userSources_of_step hs (fun row htap => h.untapped row (by simp [← htap, he])) hc ?_
  rintro v rfl
  rw [h.same v (by simp [he])]

theorem saved (h : Untouched s es c) : c.saved = squeeze comma s := by
  rw [saved_eq, h.userSources, parseUserSources_eq, parseNewUserSources_eq, join_pieces]

/-- A displayed row is selected iff its id is stored. -/
theorem mem_selected (h : Untouched s es c) {row : Nat} (hrow : row ∈ c.displayed) :
    row ∈ c.selected ↔ c.rowId row ∈ parseUserSources s := by
  have key : c.Shape ∧ c.Agree := by
    refine Machine.run_invariant (I := fun c => c.Shape ∧ c.Agree) ?_ h.run
      ⟨shape_viewDidLoad, agree_viewDidLoad⟩
    rintro e he c c' ⟨hshape, hagree⟩ hs
    refine ⟨hshape.step hs, hagree.step hshape hs ?_⟩
    rintro row - rfl
    exact (h.untapped row he).elim
  rw [key.2 row hrow, h.userSources]

end Untouched

/-! ## A screen that is opened and displayed -/

/-- Every row of the catalogue is displayed. -/
def AllDisplayed (c : SourcesViewController) : Prop :=
  ∀ row < c.allSources.length, row ∈ c.displayed

/-- The screen is opened on the catalogue and the record, and every row is displayed. -/
def openEvents (catalogue : List Source) (record : Record) : List Event :=
  [.allSources { data := some (some ⟨catalogue⟩), error := false }, .snapshot record.snapshot] ++
    (List.range catalogue.length).map .cellForRowAt

theorem run_cells {c : SourcesViewController} {rows : List Nat}
    (h : ∀ row ∈ rows, row < c.allSources.length) :
    ∃ r, Machine.run step c (rows.map .cellForRowAt) = some r ∧ r.allSources = c.allSources ∧
      ∀ row, row ∈ c.displayed ∨ row ∈ rows → row ∈ r.displayed := by
  induction rows generalizing c with
  | nil => exact ⟨c, rfl, rfl, by simp⟩
  | cons i rows ih =>
    obtain ⟨hi, hrows⟩ := List.forall_mem_cons.mp h
    obtain ⟨r, hr, hall, hdisp⟩ := @ih (c.display i) hrows
    refine ⟨r, ?_, hall, ?_⟩
    · rw [List.map_cons, Machine.run_cons, step_cellForRowAt hi]
      exact hr
    · intro row hrow
      refine hdisp row ?_
      rw [display, Finset.mem_insert]
      rw [List.mem_cons] at hrow
      tauto

/-- The screen can be opened so on every catalogue and record. -/
theorem exists_opened (catalogue : List Source) (record : Record) :
    ∃ r, Untouched (getUserSources record.snapshot) (openEvents catalogue record) r ∧
      r.allSources = catalogue ∧ r.AllDisplayed := by
  obtain ⟨r, hr, hall, hdisp⟩ := @run_cells
    { viewDidLoad with
      allSources := catalogue
      requested := false
      observing := true
      userSources := parseUserSources (getUserSources record.snapshot) }
    (List.range catalogue.length) (by simp)
  refine ⟨r, ⟨?_, ⟨record.snapshot, by simp [openEvents]⟩, ?_, ?_⟩, hall, ?_⟩
  · rw [openEvents, List.cons_append, Machine.run_cons]
    exact hr
  · intro value hv
    have : value = record.snapshot := by simpa [openEvents] using hv
    rw [this]
  · simp [openEvents]
  · intro row hrow
    rw [hall] at hrow
    exact hdisp row (.inr (List.mem_range.mpr hrow))

/-- The record that a Done has written can be opened. -/
theorem exists_reopened (c : SourcesViewController) (old : Record) :
    ∃ r, Untouched c.saved (openEvents c.allSources (c.handleDismis.apply old)) r ∧
      r.allSources = c.allSources ∧ r.AllDisplayed := by
  obtain ⟨r, hr, h⟩ := exists_opened c.allSources (c.handleDismis.apply old)
  rw [handleDismis, getUserSources_save] at hr
  exact ⟨r, hr, h⟩

/-! ## Encode of decode -/

/-- For every stored string `s`: the reader returns non-empty ids without a comma; the writer makes
of them `s` with every run of commas collapsed and the commas at the ends removed, which is `s` iff
it has no such comma; this is what Done writes if no row is tapped, and the next time it writes the
same. -/
theorem encode_decode (s : Str) :
    (∀ x ∈ parseUserSources s, x ≠ [] ∧ comma ∉ x) ∧
    parseNewUserSources (parseUserSources s) = squeeze comma s ∧
    (parseNewUserSources (parseUserSources s) = s ↔
      s.head? ≠ some comma ∧ s.getLast? ≠ some comma ∧ ¬ [comma, comma] <:+: s) ∧
    ∀ es c, Untouched s es c → c.saved = squeeze comma s ∧
      ∀ es' c', Untouched c.saved es' c' → c'.saved = c.saved := by
  have hnormal : parseNewUserSources (parseUserSources s) = squeeze comma s := by
    rw [parseUserSources_eq, parseNewUserSources_eq, join_pieces]
  refine ⟨fun x hx => ne_nil_and_not_mem_of_mem_parse hx, hnormal, ?_, ?_⟩
  · rw [hnormal]
    exact squeeze_eq_self_iff s
  · intro es c h
    refine ⟨h.saved, fun es' c' h' => ?_⟩
    rw [h'.saved, h.saved, ← join_pieces s, ← join_pieces, join_pieces_idem]

/-- A stored string with commas at its ends and in a row. -/
theorem encode_decode_commas :
    ∃ es c, Untouched (Str.of ",abc,,cnn,") es c ∧ c.saved = Str.of "abc,cnn" ∧
      ∀ es' c', Untouched c.saved es' c' → c'.saved = c.saved := by
  obtain ⟨c, hc, -⟩ := exists_opened sampleCatalogue
    ((Write.child .userSources (Str.of ",abc,,cnn,")).apply postInfo)
  have hs : getUserSources (((Write.child .userSources (Str.of ",abc,,cnn,")).apply
      postInfo).snapshot) = Str.of ",abc,,cnn," := by decide
  rw [hs] at hc
  obtain ⟨hsaved, hidem⟩ := (encode_decode (Str.of ",abc,,cnn,")).2.2.2 _ c hc
  exact ⟨_, c, hc, hsaved.trans (by decide), hidem⟩

/-! ## The table and the list in any run -/

/-- Of the displayed rows with an id, one is selected if the id is in the list, and one is not
selected if it is not. An id in the list that is not read back is that of a displayed row. -/
structure Linked (c : SourcesViewController) : Prop extends Shape c where
  present : ∀ row ∈ c.displayed, c.rowId row ∈ c.userSources →
    ∃ i ∈ c.selected, c.rowId i = c.rowId row
  absent : ∀ row ∈ c.displayed, c.rowId row ∉ c.userSources →
    ∃ i ∈ c.displayed, i ∉ c.selected ∧ c.rowId i = c.rowId row
  readable : ∀ x ∈ c.userSources, (x ≠ [] ∧ comma ∉ x) ∨ ∃ row ∈ c.displayed, c.rowId row = x

namespace Linked

variable {c c' : SourcesViewController}

theorem display (h : c.Linked) {row : Nat} (hrow : row < c.allSources.length) :
    (c.display row).Linked := by
  refine ⟨h.toShape.display hrow, ?_, ?_, ?_⟩
  · intro i hi hmem
    show ∃ j ∈ (c.display row).selected, c.rowId j = c.rowId i
    rcases Finset.mem_insert.mp hi with rfl | hi
    · exact ⟨i, mem_selected_display.mpr (.inl ⟨rfl, hmem⟩), rfl⟩
    · obtain ⟨j, hj, hid⟩ := h.present i hi hmem
      exact ⟨j, mem_selected_display.mpr (.inr hj), hid⟩
  · intro i hi hmem
    show ∃ j ∈ insert row c.displayed, j ∉ (c.display row).selected ∧ c.rowId j = c.rowId i
    by_cases hin : i ∈ c.displayed
    · obtain ⟨j, hj, hnot, hid⟩ := h.absent i hin hmem
      refine ⟨j, Finset.mem_insert_of_mem hj, ?_, hid⟩
      rw [mem_selected_display]
      rintro (⟨rfl, hsel⟩ | hs)
      · exact hmem (hid ▸ hsel)
      · exact hnot hs
    · -- The row is displayed now for the first time, so it was not selected.
      have he : i = row := (Finset.mem_insert.mp hi).resolve_right hin
      subst he
      refine ⟨i, Finset.mem_insert_self _ _, ?_, rfl⟩
      rw [mem_selected_display]
      rintro (⟨-, hsel⟩ | hs)
      · exact hmem hsel
      · exact hin (h.selected i hs)
  · intro x hx
    refine (h.readable x hx).imp_right ?_
    rintro ⟨i, hi, hid⟩
    exact ⟨i, Finset.mem_insert_of_mem hi, hid⟩

theorem tap (h : c.Linked) {row : Nat} (hrow : row ∈ c.displayed) : (c.tap row).Linked := by
  -- The tapped row decides for its id; for another id the tap changes nothing.
  have hother : ∀ i j, c.rowId i ≠ c.rowId row → c.rowId j = c.rowId i →
      (j ∈ (c.tap row).selected ↔ j ∈ c.selected) := by
    intro i j hne hid
    rw [mem_selected_tap, if_neg]
    rintro rfl
    exact hne hid.symm
  refine ⟨h.toShape.tap hrow, ?_, ?_, ?_⟩
  · intro i hi hmem
    rw [displayed_tap] at hi
    rw [mem_userSources_tap, rowId_tap] at hmem
    simp only [rowId_tap]
    split at hmem
    · rename_i he
      exact ⟨row, by rw [mem_selected_tap, if_pos rfl]; exact hmem, he.symm⟩
    · rename_i hne
      obtain ⟨j, hj, hid⟩ := h.present i hi hmem
      exact ⟨j, (hother i j hne hid).mpr hj, hid⟩
  · intro i hi hmem
    rw [displayed_tap] at hi
    rw [mem_userSources_tap, rowId_tap] at hmem
    simp only [rowId_tap, displayed_tap]
    split at hmem
    · rename_i he
      exact ⟨row, hrow, by rw [mem_selected_tap, if_pos rfl]; exact hmem, he.symm⟩
    · rename_i hne
      obtain ⟨j, hj, hnot, hid⟩ := h.absent i hi hmem
      exact ⟨j, hj, mt (hother i j hne hid).mp hnot, hid⟩
  · intro x hx
    rw [mem_userSources_tap] at hx
    simp only [rowId_tap, displayed_tap]
    split at hx
    · rename_i he; exact .inr ⟨row, hrow, he.symm⟩
    · exact h.readable x hx

theorem step (h : c.Linked) {e : Event} (hs : SourcesViewController.step c e = some c') :
    c'.Linked := by
  have hshape := h.toShape.step hs
  cases step_to hs with
  | failed _ _ _ => exact ⟨hshape, h.present, h.absent, h.readable⟩
  | catalogue _ _ hr _ =>
    have hnot := h.not_mem_displayed hr
    refine ⟨hshape, fun row hrow => (hnot row hrow).elim, fun row hrow => (hnot row hrow).elim, ?_⟩
    intro x hx
    exact (h.readable x hx).imp_right fun ⟨row, hrow, _⟩ => (hnot row hrow).elim
  | snapshot _ _ =>
    refine ⟨hshape, ?_, ?_, fun x hx => .inl (ne_nil_and_not_mem_of_mem_parse hx)⟩ <;>
      simp [userSourcesDone]
  | cell row hrow => exact h.display hrow
  | tap row hrow => exact h.tap hrow
  | other e c' hsame _ =>
    obtain ⟨h1, h2, -, -, h5, h6⟩ := hsame
    refine ⟨hshape, ?_, ?_, ?_⟩ <;> unfold rowId <;> rw [h1, h2, h5]
    · rw [h6]; exact h.present
    · rw [h6]; exact h.absent
    · exact h.readable

/-- If displayed rows with one id are all selected or all not, the table shows the list. -/
theorem agree (h : c.Linked)
    (hall : ∀ i ∈ c.selected, ∀ j ∈ c.displayed, c.rowId j = c.rowId i → j ∈ c.selected) :
    c.Agree := by
  intro row hrow
  constructor
  · intro hs
    by_contra hnot
    obtain ⟨i, hi, hni, hid⟩ := h.absent row hrow hnot
    exact hni (hall row hs i hi hid)
  · intro hmem
    obtain ⟨i, hi, hid⟩ := h.present row hrow hmem
    exact hall i hi row hrow hid.symm

/-- If the ids of the selected rows are read back, so is the list. -/
theorem readable_of_selected (h : c.Linked) (hagree : c.Agree)
    (hgood : ∀ i ∈ c.selected, c.rowId i ≠ [] ∧ comma ∉ c.rowId i) :
    ∀ x ∈ c.userSources, x ≠ [] ∧ comma ∉ x := by
  intro x hx
  rcases h.readable x hx with hr | ⟨row, hd, rfl⟩
  · exact hr
  · exact hgood row ((hagree row hd).mpr hx)

/-- If moreover no other row has the id of a selected one, the table shows the list, and the saved
string is read back as the list. -/
theorem agree_and_read (h : c.Linked)
    (hgood : ∀ i ∈ c.selected, c.rowId i ≠ [] ∧ comma ∉ c.rowId i)
    (hall : ∀ i ∈ c.selected, ∀ j < c.allSources.length, c.rowId j = c.rowId i → j ∈ c.selected) :
    c.Agree ∧ parseUserSources c.saved = c.userSources := by
  have hagree := h.agree fun i hi j hj hid => hall i hi j (h.displayed j hj) hid
  rw [saved_eq]
  exact ⟨hagree, parse_parseNew_of_good (h.readable_of_selected hagree hgood)⟩

/-- The selected rows are rows of the catalogue. -/
theorem lt_of_selected (h : c.Linked) {row : Nat} (hs : row ∈ c.selected) :
    row < c.allSources.length := h.displayed row (h.selected row hs)

end Linked

theorem linked_of_run {es : List Event} {c : SourcesViewController}
    (hs : Machine.run step viewDidLoad es = some c) : c.Linked := by
  refine Machine.run_invariant (fun _ _ _ _ hi hstep => hi.step hstep) hs ?_
  refine ⟨shape_viewDidLoad, ?_, ?_, ?_⟩ <;> simp [viewDidLoad]

/-! ## What is selected again -/

/-- Every row with an id of the list is displayed, as after every row has been. -/
def ShowsList (c : SourcesViewController) : Prop :=
  ∀ row < c.allSources.length, c.rowId row ∈ c.userSources → row ∈ c.displayed

/-- Done is pressed, and the screen is opened again on the saved string and the same catalogue, and
every row is displayed: the rows that are selected are those that were iff each row whose id is in
the list was displayed, each selected row has an id that is not empty and has no comma, and no row
with the id of a selected one was not selected. -/
theorem reopened_iff {es es' : List Event} {c r : SourcesViewController}
    (hs : Machine.run step viewDidLoad es = some c) (hr : Untouched c.saved es' r)
    (hcat : r.allSources = c.allSources) (hdisp : r.AllDisplayed) :
    r.selected = c.selected ↔
      c.ShowsList ∧ (∀ i ∈ c.selected, c.rowId i ≠ [] ∧ comma ∉ c.rowId i) ∧
      ∀ i ∈ c.selected, ∀ j < c.allSources.length, c.rowId j = c.rowId i → j ∈ c.selected := by
  have hlinked := linked_of_run hs
  have hrow : ∀ row, r.rowId row = c.rowId row := fun row => by rw [rowId, rowId, hcat]
  have hsel : ∀ row < c.allSources.length,
      (row ∈ r.selected ↔ c.rowId row ∈ parseUserSources c.saved) := by
    intro row hlt
    rw [hr.mem_selected (hdisp row (hcat ▸ hlt)), hrow]
  have hlt : ∀ row ∈ c.selected, row < c.allSources.length := fun _ => hlinked.lt_of_selected
  have hltr : ∀ row ∈ r.selected, row < c.allSources.length := fun _ h =>
    hcat ▸ (linked_of_run hr.run).lt_of_selected h
  constructor
  · intro heq
    rw [heq] at hsel
    have hgood : ∀ i ∈ c.selected, c.rowId i ≠ [] ∧ comma ∉ c.rowId i := fun i hi =>
      ne_nil_and_not_mem_of_mem_parse ((hsel i (hlt i hi)).mp hi)
    have hall : ∀ i ∈ c.selected, ∀ j < c.allSources.length, c.rowId j = c.rowId i →
        j ∈ c.selected := by
      intro i hi j hj hid
      rw [hsel j hj, hid, ← hsel i (hlt i hi)]
      exact hi
    refine ⟨fun row hrow hmem => ?_, hgood, hall⟩
    rw [← (hlinked.agree_and_read hgood hall).2, ← hsel row hrow] at hmem
    exact hlinked.selected row hmem
  · rintro ⟨hc, hgood, hall⟩
    obtain ⟨hagree, hlist⟩ := hlinked.agree_and_read hgood hall
    rw [hlist] at hsel
    ext row
    constructor
    · intro h
      have hmem := (hsel row (hltr row h)).mp h
      exact (hagree row (hc row (hltr row h) hmem)).mpr hmem
    · intro h
      exact (hsel row (hlt row h)).mpr ((hagree row (hlinked.selected row h)).mp h)

/-- The second row is stored but was not displayed: only the screen that is opened again selects
it. -/
example : ∃ c r, Machine.run step viewDidLoad
      [sampleAnswer, .snapshot sampleSnapshot, .cellForRowAt 0] = some c ∧
    Machine.run step viewDidLoad
      (openEvents c.allSources (c.handleDismis.apply sampleRecord)) = some r ∧
    c.selected = {0} ∧ r.selected = {0, 1} :=
  ⟨_, _, rfl, rfl, by decide, by decide⟩

/-- The first source of the sample is deselected, and selected again after another field of the
record has changed; the second one stays. -/
def selectedAgain : List Event :=
  sampleRun ++ [.snapshot laterSnapshot, .cellForRowAt 0, .cellForRowAt 1, .tap 0, .tap 0]

theorem reopened_sample :
    ∃ c r, Machine.run step viewDidLoad selectedAgain = some c ∧ c.selected = {0, 1} ∧
      Untouched c.saved (openEvents c.allSources (c.handleDismis.apply postInfo)) r ∧
      (r.selected = c.selected ↔
        c.ShowsList ∧ (∀ i ∈ c.selected, c.rowId i ≠ [] ∧ comma ∉ c.rowId i) ∧
        ∀ i ∈ c.selected, ∀ j < c.allSources.length, c.rowId j = c.rowId i → j ∈ c.selected) := by
  obtain ⟨c, hs, hsel⟩ : ∃ c, Machine.run step viewDidLoad selectedAgain = some c ∧
      c.selected = {0, 1} := ⟨_, rfl, by decide⟩
  obtain ⟨r, hr, hcat, hdisp⟩ := exists_reopened c postInfo
  exact ⟨c, r, hs, hsel, hr, reopened_iff hs hr hcat hdisp⟩

/-- The first row of the catalogue is selected on a new record and saved, and the screen that is
opened again selects other rows. -/
def SelectsOthers (catalogue : List Source) : Prop :=
  ∃ c r, Machine.run step viewDidLoad (openEvents catalogue postInfo ++ [.tap 0]) = some c ∧
    Machine.run step viewDidLoad (openEvents catalogue (c.handleDismis.apply postInfo)) = some r ∧
    r.selected ≠ c.selected

/-- A row without an id, one of two rows with the same id, a row whose id has a comma. -/
theorem not_reopened_null_repeated_comma :
    SelectsOthers [{ id := none }] ∧
    SelectsOthers [{ id := some (Str.of "abc") }, { id := some (Str.of "abc") }] ∧
    SelectsOthers [{ id := some (Str.of "abc,cnn") }] :=
  ⟨⟨_, _, rfl, rfl, by decide⟩, ⟨_, _, rfl, rfl, by decide⟩, ⟨_, _, rfl, rfl, by decide⟩⟩

end SourcesViewController
end MyNews
