import MyNews.Sources.Controller

/-!
# What Done writes

`userSources` is empty until the first snapshot, and Done can be pressed from the start: the string
that it writes then has only the ids of the rows that the user tapped.

* `Kept`, `kept_step`: once the list is loaded, or a row with the id is tapped, a stored id that the
  user does not deselect stays in the list.
* `mem_userSources`: before the first snapshot the list has only ids of tapped rows.
* `saves_keep_iff`: when every Done of a run keeps the stored ids.
-/

namespace MyNews
namespace SourcesViewController

open OnlineRepository SourcesViewModel

/-- A snapshot has been delivered. -/
def Loaded (es : List Event) : Prop := ∃ value, .snapshot value ∈ es

/-- The user has tapped a row with the id. -/
def TappedId (es : List Event) (x : Str) : Prop :=
  Machine.Happened step (fun m e => ∃ row, e = .tap row ∧ m.rowId row = x) viewDidLoad es

/-- The user has tapped a selected row with the id. -/
def DeselectedId (es : List Event) (x : Str) : Prop :=
  Machine.Happened step (fun m e => ∃ row, e = .tap row ∧ m.rowId row = x ∧ row ∈ m.selected)
    viewDidLoad es

/-- A Done has written `s`. -/
def Written (es : List Event) (s : Str) : Prop :=
  ∃ c, Machine.run step viewDidLoad es = some c ∧ .child .userSources s ∈ c.written

/-- A snapshot brings what was stored when the screen opened, or what a Done before it wrote. -/
def NoOtherWriter (stored : Str) (es : List Event) : Prop :=
  ∀ before value after, es = before ++ .snapshot value :: after →
    getUserSources value = stored ∨ Written before (getUserSources value)

/-- The last write of the screen still has the stored ids that the user did not deselect in the
events before it. -/
def Keeps (stored : Str) (es : List Event) (c : SourcesViewController) : Prop :=
  ∃ s, c.written.getLast? = some (.child .userSources s) ∧
    ∀ x ∈ parseUserSources stored, ¬ DeselectedId es x → x ∈ s.splitOn comma

/-- The list has been loaded, or the user has tapped a row for each stored id. -/
def Ready (stored : Str) (es : List Event) : Prop :=
  Loaded es ∨ ∀ x ∈ parseUserSources stored, TappedId es x

/-! ## The writes -/

theorem not_written_nil {s : Str} : ¬ Written [] s := by
  rintro ⟨c, hc, hw⟩
  cases hc
  cases hw

theorem written_concat {es : List Event} {e : Event} {m c : SourcesViewController}
    (hm : Machine.run step viewDidLoad es = some m) (hs : step m e = some c) {s : Str} :
    Written (es ++ [e]) s ↔ Written es s ∨ (e = .done ∧ m.saved = s) := by
  have hc := Machine.run_concat_eq_some.mpr ⟨m, hm, hs⟩
  have hw : .child .userSources s ∈ m.writes e ↔ e = .done ∧ m.saved = s := by
    cases e <;> simp [writes, handleDismis_eq, eq_comm]
  simp only [Written, hc, hm, Option.some.injEq, exists_eq_left', written_step hs, List.mem_append,
    hw]

/-- What Done keeps, for the screen that it is pressed on. -/
theorem keeps_done {stored : Str} {es : List Event} {m c : SourcesViewController}
    (hs : step m .done = some c) : Keeps stored es c ↔
      ∀ x ∈ parseUserSources stored, ¬ DeselectedId es x → x ∈ m.saved.splitOn comma := by
  simp [Keeps, written_done hs]

/-! ## The list -/

theorem loaded_concat {es : List Event} {e : Event} :
    Loaded (es ++ [e]) ↔ Loaded es ∨ ∃ value, e = .snapshot value := by
  simp only [Loaded, List.mem_append, List.mem_singleton, exists_or, eq_comm]

theorem DeselectedId.tapped {es : List Event} {x : Str} (h : DeselectedId es x) : TappedId es x :=
  h.imp fun _ _ ⟨row, he, hid, _⟩ => ⟨row, he, hid⟩

/-- Before the first snapshot the list has only ids of tapped rows. -/
theorem mem_userSources {es : List Event} {c : SourcesViewController}
    (hs : Machine.run step viewDidLoad es = some c) {x : Str} (hx : x ∈ c.userSources) :
    Loaded es ∨ TappedId es x := by
  refine Machine.run_history (I := fun es c => x ∈ c.userSources → Loaded es ∨ TappedId es x)
    ?_ ?_ hs hx
  · intro h; cases h
  · intro es e m c hm ih hstep hx
    rw [loaded_concat, TappedId, Machine.happened_concat hm]
    -- If the id was in the list before the event, the events before it explain it.
    have hbefore (h : x ∈ m.userSources) : (Loaded es ∨ ∃ value, e = .snapshot value) ∨
        (TappedId es x ∨ ∃ row, e = .tap row ∧ m.rowId row = x) := (ih h).imp Or.inl Or.inl
    cases step_to hstep with
    | snapshot value _ => exact .inl (.inr ⟨value, rfl⟩)
    | tap row _ =>
      rw [mem_userSources_tap] at hx
      split at hx
      · rename_i he; exact .inr (.inr ⟨row, rfl, he.symm⟩)
      · exact hbefore hx
    | other e c hsame _ => exact hbefore (hsame.2.1 ▸ hx)
    | _ => exact hbefore hx

/-- The stored ids that the user has not deselected are in the list, once it is loaded or a row
with the id is tapped. -/
def Kept (stored : Str) (es : List Event) (c : SourcesViewController) : Prop :=
  ∀ x ∈ parseUserSources stored, ¬ DeselectedId es x → Loaded es ∨ TappedId es x → x ∈ c.userSources

/-- A step keeps `Kept`, if a snapshot does not lose an id. -/
theorem kept_step {stored : Str} {es : List Event} {m c : SourcesViewController} {e : Event}
    (h : Kept stored es m) (hm : Machine.run step viewDidLoad es = some m) (hs : step m e = some c)
    (hsnap : ∀ value, e = .snapshot value → ∀ x ∈ parseUserSources stored, ¬ DeselectedId es x →
      x ∈ parseUserSources (getUserSources value)) : Kept stored (es ++ [e]) c := by
  intro x hx hnot hready
  rw [DeselectedId, Machine.happened_concat hm, not_or] at hnot
  rw [loaded_concat, TappedId, Machine.happened_concat hm] at hready
  -- If the id was to be in the list before the event, it was.
  have hbefore : (∀ value, e ≠ .snapshot value) → (¬ ∃ row, e = .tap row ∧ m.rowId row = x) →
      x ∈ m.userSources := by
    intro hnosnap hnotap
    refine h x hx hnot.1 (hready.imp ?_ fun ht => ht.resolve_right hnotap)
    intro hl
    refine hl.resolve_right ?_
    rintro ⟨value, he⟩
    exact hnosnap value he
  cases step_to hs with
  | snapshot value _ => exact hsnap value rfl x hx hnot.1
  | tap row _ =>
    rw [mem_userSources_tap]
    split
    · -- A tap on a row with the id has selected it.
      rename_i he
      exact fun hsel => hnot.2 ⟨row, rfl, he.symm, hsel⟩
    · rename_i he
      refine hbefore (by simp) ?_
      rintro ⟨i, hi, hid⟩
      cases hi
      exact he hid.symm
  | other e c hsame he =>
    rw [hsame.2.1]
    refine hbefore ?_ ?_ <;> rcases he with rfl | ⟨error, rfl⟩ | rfl <;> simp
  | _ => exact hbefore (by simp) (by simp)

/-! ## Every Done of a run -/

/-- What holds before each `e` of a run holds before each `e` of its first part. -/
theorem before_of_append {es fs : List Event} {e : Event} {P : List Event → Prop}
    (h : ∀ before after, es ++ fs = before ++ e :: after → P before) :
    ∀ before after, es = before ++ e :: after → P before :=
  fun before after he => h before (after ++ fs) (by rw [he, List.append_assoc]; rfl)

theorem NoOtherWriter.of_append {stored : Str} {es fs : List Event}
    (h : NoOtherWriter stored (es ++ fs)) : NoOtherWriter stored es :=
  fun before value => before_of_append (fun before after => h before value after) before

theorem Kept.mem_saved {stored : Str} {es : List Event} {m : SourcesViewController}
    (h : Kept stored es m) (hgood : m.Good) (hready : Ready stored es) :
    ∀ x ∈ parseUserSources stored, ¬ DeselectedId es x → x ∈ m.saved.splitOn comma := by
  intro x hx hnot
  rw [saved_eq, mem_splitOn_parseNew hgood.userSources (ne_nil_and_not_mem_of_mem_parse hx).1]
  exact h x hx hnot (hready.imp_right fun ht => ht x hx)

/-- Along a run whose Dones are pressed on a ready screen the list keeps the stored ids, and so
does every string that Done has written. -/
theorem kept_run {stored : Str} {es : List Event} {c : SourcesViewController}
    (hs : Machine.run step viewDidLoad es = some c) (hans : Answers Separable es)
    (hown : NoOtherWriter stored es)
    (hready : ∀ before after, es = before ++ .done :: after → Ready stored before) :
    Kept stored es c ∧ ∀ s, Written es s → ∀ x ∈ parseUserSources stored, ¬ DeselectedId es x →
      x ∈ parseUserSources s := by
  refine Machine.run_history (I := fun es c => Answers Separable es → NoOtherWriter stored es →
    (∀ before after, es = before ++ .done :: after → Ready stored before) →
    Kept stored es c ∧ ∀ s, Written es s → ∀ x ∈ parseUserSources stored, ¬ DeselectedId es x →
      x ∈ parseUserSources s) ?_ ?_ hs hans hown hready
  · intro _ _ _
    refine ⟨?_, fun s hw => (not_written_nil hw).elim⟩
    rintro x - - (⟨value, hv⟩ | ht)
    · cases hv
    · exact (Machine.not_happened_nil ht).elim
  · intro es e m c hm ih hstep hans hown hready
    obtain ⟨hkept, hwritten⟩ := ih (hans.subset fun _ => List.mem_append_left _) hown.of_append
      (before_of_append hready)
    have hgood : m.Good := good_of_run (hans.subset fun _ => List.mem_append_left _) hm
    refine ⟨kept_step hkept hm hstep ?_, ?_⟩
    · rintro value rfl x hx hnot
      rcases hown es value [] rfl with hv | hv
      · rw [hv]; exact hx
      · exact hwritten _ hv x hx hnot
    · intro s hw x hx hnot
      rw [DeselectedId, Machine.happened_concat hm, not_or] at hnot
      rcases (written_concat hm hstep).mp hw with hw | ⟨rfl, rfl⟩
      · exact hwritten s hw x hx hnot.1
      · rw [saved_eq, parse_parseNew_of_good hgood.userSources]
        exact hkept x hx hnot.1 ((hready es [] rfl).imp_right fun ht => ht x hx)

/-- For every run with no other writer and ids that are read back: the write of each Done keeps the
stored ids that the user did not deselect iff each Done comes after a snapshot, or after a tap on a
row of each stored id. -/
theorem saves_keep_iff {stored : Str} {es : List Event} {c : SourcesViewController}
    (hs : Machine.run step viewDidLoad es = some c) (hans : Answers Separable es)
    (hown : NoOtherWriter stored es) :
    (∀ before m after, es = before ++ .done :: after →
      Machine.run step viewDidLoad (before ++ [.done]) = some m → Keeps stored before m) ↔
    ∀ before after, es = before ++ .done :: after → Ready stored before := by
  have hgood : ∀ before m after, es = before ++ .done :: after →
      Machine.run step viewDidLoad before = some m → m.Good := by
    intro before m after he hm
    exact good_of_run (hans.subset fun e hmem => by simp [he, hmem]) hm
  constructor
  · intro hkeeps before after he
    have hrun : Machine.run step viewDidLoad (before ++ [.done] ++ after) = some c := by
      rw [List.append_assoc, List.singleton_append, ← he, hs]
    obtain ⟨d, hd⟩ := Machine.exists_run_of_append hrun
    obtain ⟨m, hm, hdone⟩ := Machine.run_concat_eq_some.mp hd
    by_cases hload : Loaded before
    · exact .inl hload
    · right
      intro x hx
      by_contra hnot
      have hmem := (keeps_done hdone).mp (hkeeps before d after he hd) x hx fun h => hnot h.tapped
      rw [saved_eq, mem_splitOn_parseNew (hgood before m after he hm).userSources
        (ne_nil_and_not_mem_of_mem_parse hx).1] at hmem
      exact (mem_userSources hm hmem).elim hload hnot
  · intro hready before d after he hd
    subst he
    obtain ⟨m, hm, hdone⟩ := Machine.run_concat_eq_some.mp hd
    have hkept := (kept_run hm (hans.subset fun _ => List.mem_append_left _) hown.of_append
      (before_of_append hready)).1
    rw [keeps_done hdone]
    exact hkept.mem_saved (hgood before m after rfl hm) (hready before after rfl)

theorem NoOtherWriter.of_stored {stored : Str} {es : List Event}
    (h : ∀ value, .snapshot value ∈ es → getUserSources value = stored) : NoOtherWriter stored es :=
  fun before value after he => .inl (h value (by simp [he]))

/-- A snapshot may bring what a Done has written. -/
theorem NoOtherWriter.snapshot {stored : Str} {es : List Event} {value : DataSnapshot}
    (h : NoOtherWriter stored es) (hw : Written es (getUserSources value)) :
    NoOtherWriter stored (es ++ [.snapshot value]) := by
  intro before v after he
  rcases List.eq_nil_or_concat after with rfl | ⟨after, e, rfl⟩
  · obtain ⟨rfl, hv⟩ := List.append_inj' he rfl
    cases hv
    exact .inr hw
  · rw [List.concat_eq_append, ← List.cons_append, ← List.append_assoc] at he
    exact h before v after (List.append_inj' he rfl).1

/-- The first source of the sample is deselected, the second one is kept, and Done is pressed. -/
def deselected : List Event := sampleRun ++ [.done]

/-- The record with what Done wrote. -/
def deselectedSnapshot : DataSnapshot :=
  .dictionary ((saveUserSources [Str.of "cnn"]).apply sampleRecord)

theorem saves_keep_sample :
    (∀ before m after, deselected ++ [.snapshot deselectedSnapshot] = before ++ .done :: after →
      Machine.run step viewDidLoad (before ++ [.done]) = some m →
        Keeps (Str.of "abc,cnn") before m) ↔
    ∀ before after, deselected ++ [.snapshot deselectedSnapshot] = before ++ .done :: after →
      Ready (Str.of "abc,cnn") before := by
  refine saves_keep_iff rfl ((answers_sample (by simp)).mono fun _ h => h ▸ separable_sample) ?_
  refine NoOtherWriter.snapshot (.of_stored fun value hv => ?_) ⟨_, rfl, by decide⟩
  have hs : value = sampleSnapshot := by simpa [deselected, sampleRun, sampleAnswer] using hv
  rw [hs]
  decide

/-- Done is pressed on the empty screen: it erases the stored selection. -/
theorem not_saves_keep_early_done :
    Machine.run step viewDidLoad [.done] ≠ none ∧ Answers Separable [.done] ∧
      NoOtherWriter (Str.of "abc") [.done] ∧
      ¬ ∀ before m after, [Event.done] = before ++ .done :: after →
        Machine.run step viewDidLoad (before ++ [.done]) = some m →
          Keeps (Str.of "abc") before m := by
  refine ⟨by simp [step, viewDidLoad], ?_, ?_, ?_⟩
  · intro response hr
    simp at hr
  · intro before value after he
    have : Event.snapshot value ∈ [Event.done] := by rw [he]; simp
    simp at this
  · intro h
    have hkeeps := (keeps_done (m := viewDidLoad) rfl).mp (h [] _ [] rfl rfl)
    have hmem := hkeeps (Str.of "abc") (by decide) Machine.not_happened_nil
    revert hmem
    decide

end SourcesViewController
end MyNews
