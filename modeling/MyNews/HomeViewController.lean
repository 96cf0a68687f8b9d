import MyNews.SourcesViewModel

/-!
# The Home screen's reading of `userSources`

Home asks the news service for the sources of the stored string as it is, and for built-in ones
when the string is empty. The Sources screen reads the same string with `parseUserSources`.
-/

namespace MyNews
namespace HomeViewController

open Segments OnlineRepository SourcesViewModel

/-- The sources that Home shows when none is selected. -/
def defaultSources : Str := Str.of "abc-news,business-insider-uk,infobae,info-money"

/-- The closure `viewModel.userSources`: the argument of `getNewsList`. -/
def userSources (sources : Str) : Str :=
  if sources.isEmpty then defaultSources else sources

theorem userSources_eq_self_iff (s : Str) : userSources s = s ↔ s ≠ [] := by
  cases s with
  | nil => exact iff_of_false (by decide) (by simp)
  | cons c s => simp [userSources]

/-- Home and the Sources screen read the record alike: Home replaces the string iff the Sources
screen loads no id, and otherwise the segments of the string that Home sends are the ids that the
Sources screen loads. -/
def ReadersAgree (record : Record) : Prop :=
  let s := getUserSources record.snapshot
  (userSources s ≠ s ↔ parseUserSources s = []) ∧
    (userSources s = s → (userSources s).splitOn comma = parseUserSources s)

instance (record : Record) : Decidable (ReadersAgree record) :=
  inferInstanceAs (Decidable (_ ∧ _))

/-- For every list of ids without a comma: both screens read the saved string alike iff no empty
id (of a row without one) comes after another id in the list. -/
theorem readersAgree_iff (l : List Str) (h : ∀ x ∈ l, comma ∉ x) (old : Record) :
    ReadersAgree ((saveUserSources l).apply old) ↔ [] ∉ l.dropWhile List.isEmpty := by
  simp only [ReadersAgree, getUserSources_save, ne_eq, userSources_eq_self_iff, not_not,
    parseUserSources_eq, parseNewUserSources_eq]
  constructor
  · rintro ⟨-, hs⟩ h0
    have hne : join comma l ≠ [] := by
      intro hj
      rw [join_eq_nil_iff_dropWhile.mp hj] at h0
      cases h0
    have hs' := hs hne
    rw [(userSources_eq_self_iff _).mpr hne] at hs'
    exact (splitOn_join_eq_pieces_iff h hne).mp hs' h0
  · intro h0
    refine ⟨join_eq_nil_iff h, fun hne => ?_⟩
    rw [(userSources_eq_self_iff _).mpr hne]
    exact (splitOn_join_eq_pieces_iff h hne).mpr h0

theorem readersAgree_abc :
    ReadersAgree ((saveUserSources [[], Str.of "abc"]).apply Record.empty) ↔
      [] ∉ [[], Str.of "abc"].dropWhile List.isEmpty :=
  readersAgree_iff _ (by decide) _

/-- A row without an id that is selected after another one: the Sources screen loads one id, Home
asks for two segments. -/
theorem not_readersAgree_null_id :
    (∀ x ∈ [Str.of "abc", []], comma ∉ x) ∧
      ¬ ReadersAgree ((saveUserSources [Str.of "abc", []]).apply Record.empty) := by
  decide

end HomeViewController
end MyNews
