import MyNews.Lib.OnlyLast
import MyNews.App.Controller

/-!
# The open screen of the app

`Screens.act`: the open profile form or Sources screen is the one that loaded last, and it is
presented and not being closed.
-/

namespace MyNews
namespace App

/-- The screen over the container takes touches. -/
def Touchable (a : App) (screen : Screen) : Prop := a.presented = some screen ∧ a.closing = false

/-- The screens that are open. -/
structure Screens (a : App) : Prop where
  profiles : OnlyLast (fun c => c.left = false) a.profiles (a.Touchable .profile)
  sources : OnlyLast (fun c => c.shown ≠ .left) a.sources (a.Touchable .sources)
  closing : a.closing = true → a.presented ≠ none

theorem Screens.congr {a : App} (h : Screens a) (a' : App) (hpresented : a'.presented = a.presented)
    (hclosing : a'.closing = a.closing) (hprofiles : a'.profiles = a.profiles)
    (hsources : a'.sources = a.sources) : Screens a' := by
  have htouchable : ∀ screen, a'.Touchable screen ↔ a.Touchable screen := fun screen => by
    rw [Touchable, Touchable, hpresented, hclosing]
  refine ⟨?_, ?_, by rw [hpresented, hclosing]; exact h.closing⟩
  · rw [hprofiles]; exact h.profiles.congr (htouchable _).symm
  · rw [hsources]; exact h.sources.congr (htouchable _).symm

theorem Screens.not_closing {a : App} (h : Screens a) (hp : a.presented = none) :
    a.closing = false := by
  rw [Bool.eq_false_iff]
  exact fun hc => h.closing hc hp

theorem Screens.present {a : App} (h : Screens a) (screen : Screen) :
    Screens (a.present screen) := by
  unfold App.present
  split
  · rename_i hp
    have hc := h.not_closing hp
    have hprofiles := h.profiles.congr (iff_of_false (by simp [Touchable, hp]) not_false)
    have hsources := h.sources.congr (iff_of_false (by simp [Touchable, hp]) not_false)
    cases screen with
    | profile =>
      exact ⟨(hprofiles.concat rfl).congr (by simp [Touchable, load, observe, hc]),
        hsources.congr (by simp [Touchable, load, observe]), by simp [load, observe]⟩
    | sources =>
      exact ⟨hprofiles.congr (by simp [Touchable, load]),
        (hsources.concat (by simp [SourcesViewController.viewDidLoad])).congr
          (by simp [Touchable, load, hc]), by simp [load]⟩
    | news =>
      exact ⟨hprofiles.congr (by simp [Touchable, load]),
        hsources.congr (by simp [Touchable, load]), by simp [load]⟩
  · exact h

/-- The open screen is closed. -/
theorem Screens.dismiss {a : App}
    (hprofiles : OnlyLast (fun c => c.left = false) a.profiles False)
    (hsources : OnlyLast (fun c => c.shown ≠ .left) a.sources False) (hp : a.presented ≠ none) :
    Screens a.dismiss :=
  ⟨hprofiles.congr (by simp [Touchable, App.dismiss]),
    hsources.congr (by simp [Touchable, App.dismiss]), fun _ => hp⟩

/-- While a screen is being closed, none is open. -/
theorem Screens.dismissed {a : App} (h : Screens a) (hc : a.closing = true) :
    Screens a.dismissed :=
  ⟨h.profiles.congr (by simp [Touchable, hc, App.dismissed, observe]),
    h.sources.congr (by simp [Touchable, hc, App.dismissed, observe]),
    by simp [App.dismissed, observe]⟩

theorem Screens.receive {a : App} (h : Screens a) (o : Observer) (value : DataSnapshot) :
    Screens (a.receive o value) := by
  cases o with
  | check =>
    simp only [App.receive, block]
    split
    · exact h.congr _ rfl rfl rfl rfl
    · exact Screens.present (h.congr { a with
        received := a.received ++ [value], profileSegues := a.profileSegues ++ [a.presented] }
        rfl rfl rfl rfl) .profile
    · exact h.congr _ rfl rfl rfl rfl
  | home => exact h.congr _ rfl rfl rfl rfl
  | profile screen => exact ⟨h.profiles.modify screen fun _ => Iff.rfl, h.sources, h.closing⟩
  | sources screen => exact ⟨h.profiles, h.sources.modify screen fun _ => Iff.rfl, h.closing⟩

theorem Screens.act {a a' : App} {e : Event} (h : Screens a) (hact : Act a e a') : Screens a' := by
  cases hact with
  | today date => exact h.congr _ rfl rfl rfl rfl
  | receive i o value bus hd =>
    exact (h.congr { a with bus } rfl rfl rfl rfl).receive o value
  | answer accepted node hn => exact h.congr _ rfl rfl rfl rfl
  | remote write => exact h.congr _ rfl rfl rfl rfl
  | write _ w completion hw => exact h.congr _ rfl rfl rfl rfl
  | response request response c hs => exact h.congr _ rfl rfl rfl rfl
  | pull hr => exact h.congr _ rfl rfl rfl rfl
  | menu e menu hs => exact h.congr _ rfl rfl rfl rfl
  | present _ screen he => exact h.present screen
  | closeNews hp hc =>
    exact .dismiss (h.profiles.congr (by simp [Touchable, hp]))
      (h.sources.congr (by simp [Touchable, hp])) (by simp [hp])
  | dismissed hc => exact h.dismissed hc
  | profile screen e c c' hc hs hleft =>
    exact ⟨h.profiles.set hc (by rw [hleft]), h.sources, h.closing⟩
  | closeProfile screen c c' hc hs hopen hleft =>
    obtain ⟨⟨hp, -⟩, hprofiles⟩ := h.profiles.close hc hopen c' (by simp [hleft])
    exact .dismiss hprofiles (h.sources.congr (by simp [Touchable, hp])) (by simp [hp])
  | sources _ screen e' c c' hc hs hshown =>
    exact ⟨h.profiles, h.sources.set hc (not_congr hshown), h.closing⟩
  | closeSources _ screen e' c c' hc hs hopen hleft =>
    obtain ⟨⟨hp, -⟩, hsources⟩ := h.sources.close hc hopen c' (by simp [hleft])
    exact .dismiss (h.profiles.congr (by simp [Touchable, hp])) hsources (by simp [hp])
  | observeSources _ screen c hc ho => exact h.congr _ rfl rfl rfl rfl

theorem screens_enter (node : Replica Record Pending) (today : Date) :
    Screens (enter node today) :=
  ⟨OnlyLast.nil.congr (by simp [Touchable, enter, observe]),
    OnlyLast.nil.congr (by simp [Touchable, enter, observe]), by simp [enter, observe]⟩

end App
end MyNews
