import MyNews.Lib.Machine
import MyNews.Foundation

/-!
# `ContainerViewController`: the menu

The menu button of the Home screen and the rows of the menu call `handleMenuToggle`, which expands
the menu when it is collapsed and collapses it when it is expanded. `animateMenu` acts on the option
of a row in the completion of the animation that collapses the menu; the completion runs some time
after the call, in any order with other taps and other completions.

The calls of `handleMenuToggle` are numbered, so that a completion can name its own. The position of
the centre view is left out.

* `Toggled.step`: each option that was tapped while the menu was expanded is acted on or waits for
  its completion, once; the others are lost.
* `isExpended_run`: the menu is expanded after an odd number of taps.
* `options_acted_iff`: when each option is acted on, and while the menu is collapsed.
-/

namespace MyNews

inductive MenuOptions where
  | sources
  | profile
  | exit
  deriving DecidableEq

/-- `MenuOptions(rawValue:)`. -/
def MenuOptions.ofRawValue : Nat → Option MenuOptions
  | 0 => some .sources
  | 1 => some .profile
  | 2 => some .exit
  | _ => none

/-- `MenuViewController.numberOfRowsInSection`. -/
def numberOfRowsInSection : Nat := 4

/-- What `didSelectMenuOption` does. -/
inductive MenuAction where
  | performSegue (identifier : Str) (sender : Option Str)
  /-- `signOut` and, unless it throws, `popToViewController` of the first screen. -/
  | signOut
  deriving DecidableEq

/-- `didSelectMenuOption`. -/
def didSelectMenuOption : MenuOptions → MenuAction
  | .sources => .performSegue (Str.of "sourcesSegue") none
  | .profile => .performSegue (Str.of "profileSegue") (some (Str.of "Foo"))
  | .exit => .signOut

/-- A call of `didSelectMenuOption`. -/
structure Selection where
  /-- The toggle whose completion has made it. -/
  toggle : Nat
  menuOption : MenuOptions
  action : MenuAction
  /-- `isExpended` at the call. -/
  isExpended : Bool
  deriving DecidableEq

/-- The container, as far as the menu is concerned. -/
structure ContainerMenu where
  isExpended : Bool
  /-- `menuController != nil`. -/
  menuController : Bool
  /-- The number of calls of `handleMenuToggle`. -/
  toggles : Nat
  /-- The completions that have not run: the toggle that has collapsed the menu, and its option. -/
  completions : List (Nat × Option MenuOptions)
  selections : List Selection

namespace ContainerMenu

/-- The container when it is entered. -/
def viewDidLoad : ContainerMenu where
  isExpended := false
  menuController := false
  toggles := 0
  completions := []
  selections := []

/-- `configureMenuController`. -/
def configureMenuController (c : ContainerMenu) : ContainerMenu :=
  if c.menuController then c else { c with menuController := true }

/-- `animateMenu`: only a collapse has a completion. -/
def animateMenu (c : ContainerMenu) (shouldExpand : Bool) (menuOption : Option MenuOptions) :
    ContainerMenu :=
  match shouldExpand with
  | true => c
  | false => { c with completions := c.completions ++ [(c.toggles, menuOption)] }

/-- `handleMenuToggle`. -/
def handleMenuToggle (c : ContainerMenu) (menuOption : Option MenuOptions) : ContainerMenu :=
  let c := if !c.isExpended then c.configureMenuController else c
  let c := { c with isExpended := !c.isExpended }
  { c.animateMenu c.isExpended menuOption with toggles := c.toggles + 1 }

/-- The completion of the collapse by `toggle`. -/
def completion (c : ContainerMenu) (toggle : Nat) (menuOption : Option MenuOptions) :
    ContainerMenu :=
  match menuOption with
  | none => c
  | some menuOption =>
    { c with
      selections := c.selections ++
        [⟨toggle, menuOption, didSelectMenuOption menuOption, c.isExpended⟩] }

/-- What happens to the menu. -/
inductive Event where
  /-- The user taps the menu button. -/
  | menuButton
  /-- The user taps a row of the menu. -/
  | row (row : Nat)
  /-- The completion of the collapse by `toggle` runs. -/
  | completion (toggle : Nat) (menuOption : Option MenuOptions)
  deriving DecidableEq

/-- The container after the event; `none` if the event cannot happen. -/
def step (c : ContainerMenu) : Event → Option ContainerMenu
  | .menuButton => some (c.handleMenuToggle none)
  | .row row =>
    if c.menuController ∧ row < numberOfRowsInSection then
      some (c.handleMenuToggle (MenuOptions.ofRawValue row))
    else none
  | .completion toggle menuOption =>
    if (toggle, menuOption) ∈ c.completions then
      some ({ c with completions := c.completions.erase (toggle, menuOption) }.completion toggle
        menuOption)
    else none

/-! ## What a step does -/

/-- The argument of `handleMenuToggle`, if the event is a tap. -/
def Event.tap? : Event → Option (Option MenuOptions)
  | menuButton => some none
  | row i => some (MenuOptions.ofRawValue i)
  | completion _ _ => none

/-- What a step can do. -/
inductive StepTo (c : ContainerMenu) : Event → ContainerMenu → Prop
  | expand (e : Event) (menuOption : Option MenuOptions) (he : e.tap? = some menuOption)
    (hc : c.isExpended = false) :
    StepTo c e { c with isExpended := true, menuController := true, toggles := c.toggles + 1 }
  | collapse (e : Event) (menuOption : Option MenuOptions) (he : e.tap? = some menuOption)
    (hc : c.isExpended = true) :
    StepTo c e
      { c with
        isExpended := false
        toggles := c.toggles + 1
        completions := c.completions ++ [(c.toggles, menuOption)] }
  | completion (toggle : Nat) (menuOption : Option MenuOptions)
    (hm : (toggle, menuOption) ∈ c.completions) :
    StepTo c (.completion toggle menuOption)
      { c with
        completions := c.completions.erase (toggle, menuOption)
        selections := c.selections ++ (menuOption.map fun o =>
          ⟨toggle, o, didSelectMenuOption o, c.isExpended⟩).toList }

theorem handleMenuToggle_of_collapsed {c : ContainerMenu} (h : c.isExpended = false)
    (menuOption : Option MenuOptions) :
    c.handleMenuToggle menuOption =
      { c with isExpended := true, menuController := true, toggles := c.toggles + 1 } := by
  cases c with
  | mk isExpended menuController toggles completions selections =>
    cases h
    cases menuController <;> rfl

theorem handleMenuToggle_of_expanded {c : ContainerMenu} (h : c.isExpended = true)
    (menuOption : Option MenuOptions) :
    c.handleMenuToggle menuOption =
      { c with
        isExpended := false
        toggles := c.toggles + 1
        completions := c.completions ++ [(c.toggles, menuOption)] } := by
  cases c with
  | mk isExpended menuController toggles completions selections =>
    cases h
    rfl

theorem stepTo_handleMenuToggle (c : ContainerMenu) {e : Event} {menuOption : Option MenuOptions}
    (he : e.tap? = some menuOption) : StepTo c e (c.handleMenuToggle menuOption) := by
  cases h : c.isExpended with
  | false => rw [handleMenuToggle_of_collapsed h]; exact .expand e menuOption he h
  | true => rw [handleMenuToggle_of_expanded h]; exact .collapse e menuOption he h

theorem step_to {c c' : ContainerMenu} {e : Event} (h : step c e = some c') : StepTo c e c' := by
  cases e with
  | menuButton => cases h; exact stepTo_handleMenuToggle c rfl
  | row row =>
    simp only [step] at h
    split at h
    · cases h; exact stepTo_handleMenuToggle c rfl
    · cases h
  | completion toggle menuOption =>
    simp only [step] at h
    split at h
    · rename_i hm
      cases h
      have key := StepTo.completion toggle menuOption hm
      cases menuOption with
      | none => simpa [ContainerMenu.completion] using key
      | some o => exact key
    · cases h

/-! ## The options -/

/-- The arguments of `handleMenuToggle` in a run. -/
def options (es : List Event) : List (Option MenuOptions) := es.filterMap Event.tap?

/-- The taps of a run, on the menu button and on rows. -/
def taps (es : List Event) : Nat := (options es).length

theorem options_concat (es : List Event) (e : Event) :
    options (es ++ [e]) = options es ++ e.tap?.toList :=
  Machine.filterMap_concat _ _ _

/-- The options that have been acted on, with their toggles. -/
def acted (c : ContainerMenu) : List (Nat × MenuOptions) :=
  c.selections.map fun s => (s.toggle, s.menuOption)

/-- The options that wait for their completions. -/
def waiting (c : ContainerMenu) : List (Nat × MenuOptions) :=
  c.completions.filterMap fun x => x.2.map (x.1, ·)

/-- The options that are acted on or wait. -/
def taken (c : ContainerMenu) : List (Nat × MenuOptions) := c.acted ++ c.waiting

/-- After the events `es` the menu is expanded iff the taps are odd in number, and each option that
was tapped while it was expanded is acted on or waits, once. -/
structure Toggled (es : List Event) (c : ContainerMenu) : Prop where
  toggles : c.toggles = taps es
  isExpended : c.isExpended = true ↔ c.toggles % 2 = 1
  count : ∀ toggle menuOption, c.taken.count (toggle, menuOption) =
    if toggle % 2 = 1 ∧ (options es)[toggle]? = some (some menuOption) then 1 else 0

theorem toggled_viewDidLoad : Toggled [] viewDidLoad where
  toggles := rfl
  isExpended := by decide
  count toggle menuOption := by simp [options, taken, acted, waiting, viewDidLoad]

/-- A tap on a menu with `taps es` taps before. -/
theorem getElem?_options_concat {es : List Event} {e : Event} {o : Option MenuOptions}
    (he : e.tap? = some o) (toggle : Nat) (menuOption : MenuOptions) :
    (options (es ++ [e]))[toggle]? = some (some menuOption) ↔
      (options es)[toggle]? = some (some menuOption) ∨
        toggle = taps es ∧ o = some menuOption := by
  rw [options_concat, he, Option.toList_some, List.getElem?_append]
  split
  · rename_i hlt
    have hne : toggle ≠ taps es := Nat.ne_of_lt hlt
    simp [hne]
  · rename_i hge
    have hle := Nat.le_of_not_lt hge
    rw [List.getElem?_eq_none hle, List.getElem?_singleton]
    have hi : toggle - (options es).length = 0 ↔ toggle = taps es := by
      rw [taps]; omega
    simp [hi]

/-- A tap that collapses the menu adds its option to those that wait. -/
theorem taken_collapse (c : ContainerMenu) (o : Option MenuOptions) :
    taken { c with
      isExpended := false
      toggles := c.toggles + 1
      completions := c.completions ++ [(c.toggles, o)] } =
        c.taken ++ (o.map (c.toggles, ·)).toList := by
  have hw : (c.completions ++ [(c.toggles, o)]).filterMap (fun x => x.2.map (x.1, ·)) =
      c.waiting ++ (o.map (c.toggles, ·)).toList := Machine.filterMap_concat _ _ _
  rw [taken, taken, List.append_assoc, ← hw]
  rfl

/-- A completion moves its option from those that wait to those that are acted on. -/
theorem taken_completion {c : ContainerMenu} {toggle : Nat} {o : Option MenuOptions}
    (hm : (toggle, o) ∈ c.completions) :
    (taken { c with
      completions := c.completions.erase (toggle, o)
      selections := c.selections ++ (o.map fun m =>
        ⟨toggle, m, didSelectMenuOption m, c.isExpended⟩).toList }).Perm c.taken := by
  have hw := (List.perm_cons_erase hm).filterMap fun x => x.2.map (x.1, ·)
  have hwait : c.waiting.Perm ((o.map (toggle, ·)).toList ++
      (c.completions.erase (toggle, o)).filterMap fun x => x.2.map (x.1, ·)) := by
    cases o <;> exact hw
  have hact : (c.selections ++ (o.map fun m => (⟨toggle, m, didSelectMenuOption m, c.isExpended⟩ :
      Selection)).toList).map (fun s => (s.toggle, s.menuOption)) =
        c.acted ++ (o.map (toggle, ·)).toList := by
    rw [List.map_append, acted]
    cases o <;> rfl
  rw [taken, taken, acted, waiting, hact, List.append_assoc]
  exact hwait.symm.append_left _

theorem taps_concat {es : List Event} {e : Event} {o : Option MenuOptions}
    (he : e.tap? = some o) : taps (es ++ [e]) = taps es + 1 := by
  rw [taps, options_concat, he, Option.toList_some, List.length_append]
  rfl

/-- An option that is tapped while the menu is collapsed is lost. -/
theorem Toggled.expand {es : List Event} {e : Event} {c : ContainerMenu} (h : Toggled es c)
    {o : Option MenuOptions} (he : e.tap? = some o) (hc : c.isExpended = false) :
    Toggled (es ++ [e])
      { c with isExpended := true, menuController := true, toggles := c.toggles + 1 } := by
  have heven : c.toggles % 2 = 0 := by
    have := h.isExpended
    rw [hc] at this
    simp at this
    omega
  refine ⟨?_, ?_, fun toggle menuOption => ?_⟩
  · rw [taps_concat he, ← h.toggles]
  · simp only [true_iff]
    omega
  · have hold := h.count toggle menuOption
    have hiff : (toggle % 2 = 1 ∧ (options (es ++ [e]))[toggle]? = some (some menuOption)) ↔
        toggle % 2 = 1 ∧ (options es)[toggle]? = some (some menuOption) := by
      rw [getElem?_options_concat he]
      refine and_congr_right fun hodd => or_iff_left ?_
      rintro ⟨hlast, -⟩
      have := h.toggles
      omega
    simp only [hiff]
    exact hold

/-- An option that is tapped while the menu is expanded waits. -/
theorem Toggled.collapse {es : List Event} {e : Event} {c : ContainerMenu} (h : Toggled es c)
    {o : Option MenuOptions} (he : e.tap? = some o) (hc : c.isExpended = true) :
    Toggled (es ++ [e])
      { c with
        isExpended := false
        toggles := c.toggles + 1
        completions := c.completions ++ [(c.toggles, o)] } := by
  have hodd : c.toggles % 2 = 1 := h.isExpended.mp hc
  refine ⟨?_, ?_, fun toggle menuOption => ?_⟩
  · rw [taps_concat he, ← h.toggles]
  · simp only [Bool.false_eq_true, false_iff]
    omega
  · have hnone : (options es)[c.toggles]? = none := by
      rw [h.toggles]
      exact List.getElem?_eq_none (Nat.le_refl _)
    rw [taken_collapse, List.count_append, h.count]
    simp only [getElem?_options_concat he, ← h.toggles]
    by_cases htoggle : toggle = c.toggles
    · rw [htoggle, hnone]
      cases o with
      | none => simp
      | some m => by_cases hmo : m = menuOption <;> simp [hmo, hodd]
    · cases o with
      | none => simp [htoggle]
      | some m => simp [htoggle, Ne.symm htoggle]

/-- A completion keeps the options that are acted on or wait. -/
theorem Toggled.completion {es : List Event} {c : ContainerMenu} (h : Toggled es c) {toggle : Nat}
    {o : Option MenuOptions} (hm : (toggle, o) ∈ c.completions) :
    Toggled (es ++ [.completion toggle o])
      { c with
        completions := c.completions.erase (toggle, o)
        selections := c.selections ++ (o.map fun m =>
          ⟨toggle, m, didSelectMenuOption m, c.isExpended⟩).toList } := by
  have hoptions : options (es ++ [.completion toggle o]) = options es := by
    rw [options_concat]
    exact List.append_nil _
  refine ⟨?_, h.isExpended, fun k menuOption => ?_⟩
  · rw [taps, hoptions]
    exact h.toggles
  · rw [hoptions, ← h.count k menuOption]
    exact (taken_completion hm).count_eq _

theorem Toggled.step {es : List Event} {e : Event} {c c' : ContainerMenu} (h : Toggled es c)
    (hs : ContainerMenu.step c e = some c') : Toggled (es ++ [e]) c' := by
  cases step_to hs with
  | expand e o he hc => exact h.expand he hc
  | collapse e o he hc => exact h.collapse he hc
  | completion toggle o hm => exact h.completion hm

theorem toggled_run {es : List Event} {t : ContainerMenu}
    (hrun : Machine.run step viewDidLoad es = some t) : Toggled es t :=
  Machine.run_history toggled_viewDidLoad (fun _ _ _ _ _ hi hs => Toggled.step hi hs) hrun

/-- The menu is expanded after an odd number of taps. -/
theorem isExpended_run {es : List Event} {t : ContainerMenu}
    (hrun : Machine.run step viewDidLoad es = some t) :
    t.isExpended = true ↔ taps es % 2 = 1 := by
  rw [(toggled_run hrun).isExpended, (toggled_run hrun).toggles]

/-! ## When the options are acted on -/

/-- Each option that was tapped has been acted on exactly once. -/
def ActedOnce (es : List Event) (c : ContainerMenu) : Prop :=
  ∀ toggle menuOption, (options es)[toggle]? = some (some menuOption) →
    c.acted.count (toggle, menuOption) = 1

/-- Each row with an option is tapped after an odd number of taps. -/
def RowsInTurn (es : List Event) : Prop :=
  ∀ pre row post, es = pre ++ .row row :: post → MenuOptions.ofRawValue row ≠ none →
    taps pre % 2 = 1

/-- Each completion with an option runs after an even number of taps. -/
def CompletionsInTurn (es : List Event) : Prop :=
  ∀ pre toggle menuOption post, es = pre ++ .completion toggle (some menuOption) :: post →
    taps pre % 2 = 0

theorem rowsInTurn_iff {es : List Event} : RowsInTurn es ↔
    ∀ toggle menuOption, (options es)[toggle]? = some (some menuOption) → toggle % 2 = 1 := by
  constructor
  · intro h toggle menuOption ho
    obtain ⟨pre, e, post, rfl, he, rfl⟩ := Machine.getElem?_filterMap_eq_some.mp ho
    cases e with
    | menuButton => cases he
    | row row =>
      have hrow : MenuOptions.ofRawValue row = some menuOption := Option.some.inj he
      exact h pre row post rfl (by rw [hrow]; simp)
    | completion _ _ => cases he
  · rintro h pre row post rfl hrow
    obtain ⟨menuOption, hm⟩ := Option.ne_none_iff_exists'.mp hrow
    exact h (taps pre) menuOption
      (Machine.getElem?_filterMap_eq_some.mpr ⟨pre, .row row, post, rfl, by rw [← hm]; rfl, rfl⟩)

/-- Once no completion waits, each option has been acted on once iff all were tapped while the menu
was expanded. -/
theorem actedOnce_iff {es : List Event} {t : ContainerMenu}
    (hrun : Machine.run step viewDidLoad es = some t) (hquiet : t.completions = []) :
    ActedOnce es t ↔ RowsInTurn es := by
  have hwait : t.taken = t.acted := by simp [taken, waiting, hquiet]
  have hcount := (toggled_run hrun).count
  rw [hwait] at hcount
  rw [rowsInTurn_iff]
  refine forall₂_congr fun toggle menuOption => forall_congr' fun ho => ?_
  rw [hcount]
  simp [ho]

/-- A step acts on an option while the menu is expanded iff it is a completion that runs then. -/
theorem forall_selections_step {c c' : ContainerMenu} {e : Event} (h : step c e = some c') :
    (∀ s ∈ c'.selections, s.isExpended = false) ↔
      (∀ s ∈ c.selections, s.isExpended = false) ∧
        ∀ toggle menuOption, e = .completion toggle (some menuOption) → c.isExpended = false := by
  cases step_to h with
  | expand e o he hc =>
    refine (and_iff_left ?_).symm
    rintro toggle m rfl
    cases he
  | collapse e o he hc =>
    refine (and_iff_left ?_).symm
    rintro toggle m rfl
    cases he
  | completion toggle o hm =>
    cases o with
    | none => simp
    | some m =>
      simp only [Option.map_some, Option.toList_some, List.forall_mem_append,
        List.forall_mem_singleton]
      exact and_congr_right fun _ => ⟨fun hc _ _ _ => hc, fun hc => hc toggle m rfl⟩

theorem collapsed_iff {es : List Event} {t : ContainerMenu}
    (hrun : Machine.run step viewDidLoad es = some t) :
    (∀ s ∈ t.selections, s.isExpended = false) ↔ CompletionsInTurn es := by
  rw [Machine.run_iff_forall_steps (P := fun c => ∀ s ∈ c.selections, s.isExpended = false)
    (by simp [viewDidLoad]) (fun _ _ _ => forall_selections_step) hrun]
  constructor
  · rintro h pre toggle m post rfl
    obtain ⟨c, hc, -⟩ := Machine.run_append_eq_some.mp hrun
    have hcol : c.isExpended = false := h (c, .completion toggle (some m))
      (Machine.mem_steps.mpr ⟨pre, post, rfl, hc⟩) toggle m rfl
    have hiff := isExpended_run hc
    rw [hcol] at hiff
    simp at hiff
    omega
  · rintro h ⟨c, e⟩ hx toggle m he
    obtain ⟨pre, post, rfl, hc⟩ := Machine.mem_steps.mp hx
    obtain rfl : e = .completion toggle (some m) := he
    have heven := h pre toggle m post rfl
    rw [Bool.eq_false_iff]
    intro hexp
    have := (isExpended_run hc).mp hexp
    omega

/-- For every run of the menu: once no completion waits, each option that was tapped has been acted
on exactly once iff the rows with an option were tapped after odd numbers of taps; and every action
has happened while the menu was collapsed iff the completions with an option have run after even
numbers of taps. -/
theorem options_acted_iff {es : List Event} {t : ContainerMenu}
    (hrun : Machine.run step viewDidLoad es = some t) :
    (t.completions = [] → (ActedOnce es t ↔ RowsInTurn es)) ∧
      ((∀ s ∈ t.selections, s.isExpended = false) ↔ CompletionsInTurn es) :=
  ⟨actedOnce_iff hrun, collapsed_iff hrun⟩

/-- The menu button, then the rows Sources and Profile before the menu has collapsed. -/
def twoRows : List Event := [.menuButton, .row 0, .row 1, .completion 1 (some .sources)]

theorem options_acted_iff_twoRows :
    ∃ t, Machine.run step viewDidLoad twoRows = some t ∧
      (t.completions = [] → (ActedOnce twoRows t ↔ RowsInTurn twoRows)) ∧
      ((∀ s ∈ t.selections, s.isExpended = false) ↔ CompletionsInTurn twoRows) :=
  ⟨_, rfl, @options_acted_iff twoRows _ rfl⟩

/-- The second row expands the menu again: Profile is lost, and Sources is acted on while the menu
is expanded. -/
theorem not_options_acted_twoRows :
    ∃ t, Machine.run step viewDidLoad twoRows = some t ∧ t.completions = [] ∧
      ¬ ActedOnce twoRows t ∧ ¬ ∀ s ∈ t.selections, s.isExpended = false := by
  refine ⟨_, rfl, rfl, fun h => ?_, by decide⟩
  have hcount := h 2 .profile rfl
  exact absurd hcount (by decide)

end ContainerMenu
end MyNews
