import MyNews.Lib.Segments
import MyNews.OnlineRepository

/-!
# `SourcesViewModel`: the stored form of the selection

The selection is stored in the child `userSources` as its ids with commas between them.
`parseNewUserSources` writes it, `parseUserSources` reads it. The writer takes `sources == ""` for
"no id yet", so it drops empty ids before the first other one and writes the later ones; the reader
drops every empty segment.
-/

namespace MyNews
namespace SourcesViewModel

open Segments OnlineRepository

/-- `sources.split(separator: ",")`, which omits empty subsequences. -/
def split (sources : Str) : List Str := pieces comma sources

/-- `parseUserSources`. -/
def parseUserSources (sources : Str) : List Str :=
  if sources.isEmpty then []
  else (split sources).foldl (fun userSources sub => userSources ++ [sub]) []

/-- `parseNewUserSources`. -/
def parseNewUserSources (newSources : List Str) : Str :=
  newSources.foldl
    (fun sources sellect => if sources = [] then sellect else sources ++ comma :: sellect) []

/-- `saveUserSources`: the write that it makes. -/
def saveUserSources (newSources : List Str) : Write :=
  .child .userSources (parseNewUserSources newSources)

/-! ## The reader and the writer as `pieces` and `join` -/

theorem foldl_append_singleton {α : Type} (l acc : List α) :
    l.foldl (fun acc x => acc ++ [x]) acc = acc ++ l := by
  induction l generalizing acc with
  | nil => simp
  | cons x l ih => simp [ih]

theorem parseUserSources_eq (sources : Str) : parseUserSources sources = pieces comma sources := by
  unfold parseUserSources
  split
  · rename_i h; simp [List.isEmpty_iff.mp h]
  · rw [foldl_append_singleton, List.nil_append]; rfl

theorem parseNewUserSources_eq (l : List Str) : parseNewUserSources l = join comma l := rfl

/-- The reader returns non-empty ids without a comma. -/
theorem ne_nil_and_not_mem_of_mem_parse {sources x : Str} (h : x ∈ parseUserSources sources) :
    x ≠ [] ∧ comma ∉ x := by
  rw [parseUserSources_eq] at h
  exact ne_nil_and_not_mem_of_mem_pieces h

/-- What the reader makes of a written list. -/
theorem parse_parseNew (l : List Str) :
    parseUserSources (parseNewUserSources l) = l.flatMap (pieces comma) := by
  rw [parseUserSources_eq, parseNewUserSources_eq, pieces_join]

/-- A list of non-empty ids without a comma is read back as it was written. -/
theorem parse_parseNew_of_good {l : List Str} (h : ∀ x ∈ l, x ≠ [] ∧ comma ∉ x) :
    parseUserSources (parseNewUserSources l) = l := by
  rw [parse_parseNew, flatMap_pieces_eq_self h]

/-- The ids of a written list, if it has only ids that are read back, are its segments. -/
theorem mem_splitOn_parseNew {l : List Str} (h : ∀ x ∈ l, x ≠ [] ∧ comma ∉ x) {x : Str}
    (hx : x ≠ []) : x ∈ (parseNewUserSources l).splitOn comma ↔ x ∈ l := by
  have hp : x ∈ pieces comma (parseNewUserSources l) ↔ x ∈ l := by
    rw [← parseUserSources_eq, parse_parseNew_of_good h]
  rw [← hp, pieces, List.mem_filter]
  simp [hx]

/-- The string that the next snapshot gives after a save. -/
theorem getUserSources_save (l : List Str) (old : Record) :
    getUserSources ((saveUserSources l).apply old).snapshot = parseNewUserSources l := by
  have h : (saveUserSources l).apply old .userSources = some (.string (parseNewUserSources l)) :=
    Write.apply_child_self _ _ _
  have hne : ((saveUserSources l).apply old).isEmpty = false := by
    rw [Bool.eq_false_iff]
    intro he
    rw [Record.isEmpty_iff.mp he] at h
    cases h
  simp [getUserSources, hne, Record.string?, h]

/-! ## Decode of encode -/

/-- For every list of ids: the writer drops the empty ids at the front and separates the others;
the reader returns the non-empty segments of each id, in order, which is the list itself iff no id
is empty or has a comma. -/
theorem decode_encode (l : List Str) :
    parseNewUserSources l = [comma].intercalate (l.dropWhile List.isEmpty) ∧
    parseUserSources (parseNewUserSources l) =
      (l.map fun x => (x.splitOn comma).filter fun s => !s.isEmpty).flatten ∧
    (parseUserSources (parseNewUserSources l) = l ↔ ∀ x ∈ l, x ≠ [] ∧ comma ∉ x) := by
  refine ⟨join_eq l, ?_, ?_⟩
  · rw [parse_parseNew, ← List.flatMap_def]
    rfl
  · rw [parseUserSources_eq, parseNewUserSources_eq]
    exact pieces_join_eq_self_iff l

end SourcesViewModel
end MyNews
