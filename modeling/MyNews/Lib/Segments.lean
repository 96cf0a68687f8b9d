import Mathlib.Data.List.DropRight
import Mathlib.Data.List.Infix

/-!
# Lists cut at a separator

Texts over any alphabet `α`, cut at a separator `sep`. `List.splitOn` keeps the empty segments,
`pieces` drops them (as a split that omits empty subsequences). `join` is the encoder that most
loops write: it puts a separator before an element when the text so far is not empty, so that
empty elements at the front leave no trace and later ones do.

* `join_eq`: what `join` computes: the elements from the first non-empty one on, separated.
* `pieces_join`: the pieces of a joined list are the pieces of its elements.
* `join_pieces`: joining the pieces of `s` gives `squeeze sep s`, which has no separator at an
  end and no two in a row (`squeeze_eq_self_iff`).
* `splitOn_join_eq_pieces_iff`: both ways to cut a joined list agree iff no empty element comes
  after a non-empty one.
-/

namespace Segments

variable {α : Type} [DecidableEq α] (sep : α)

/-- The non-empty segments of `s` between separators. -/
def pieces (s : List α) : List (List α) := (s.splitOn sep).filter fun x => !x.isEmpty

/-- The elements one after the other, with a separator before each element that finds a text that
is not empty. -/
def join (l : List (List α)) : List α :=
  l.foldl (fun s x => if s = [] then x else s ++ sep :: x) []

/-- `s` with every run of separators cut down to one: a separator drops those that follow it. -/
def collapse : List α → List α
  | [] => []
  | a :: s => a :: if a = sep then (collapse s).dropWhile (· == sep) else collapse s

/-- `s` without the separators at its two ends. -/
def strip (s : List α) : List α := (s.dropWhile (· == sep)).rdropWhile (· == sep)

/-- `s` with every run of separators cut down to one and none at the ends. -/
def squeeze (s : List α) : List α := strip sep (collapse sep s)

variable {sep}

/-! ## Cutting -/

@[simp] theorem pieces_nil : pieces sep [] = [] := by simp [pieces]

theorem pieces_append_cons (xs ys : List α) :
    pieces sep (xs ++ sep :: ys) = pieces sep xs ++ pieces sep ys := by
  rw [pieces, List.splitOn_append_cons_self, List.filter_append]
  rfl

@[simp] theorem pieces_cons_sep (s : List α) : pieces sep (sep :: s) = pieces sep s := by
  have h : pieces sep ([] ++ sep :: s) = pieces sep [] ++ pieces sep s := pieces_append_cons [] s
  rwa [pieces_nil, List.nil_append, List.nil_append] at h

/-- A segment without a separator is its own only piece, unless it is empty. -/
theorem pieces_of_not_mem {s : List α} (h : sep ∉ s) :
    pieces sep s = if s = [] then [] else [s] := by
  rw [pieces, List.splitOn_eq_singleton h]
  cases s <;> simp

theorem pieces_of_ne_nil {s : List α} (h : sep ∉ s) (hs : s ≠ []) : pieces sep s = [s] := by
  rw [pieces_of_not_mem h, if_neg hs]

theorem not_mem_of_mem_splitOn {s x : List α} (h : x ∈ s.splitOn sep) : sep ∉ x := by
  induction s generalizing x with
  | nil => simp at h; simp [h]
  | cons a s ih =>
    rw [List.splitOn_cons_eq_if_modifyHead] at h
    split at h
    · rcases List.mem_cons.mp h with rfl | h
      · exact List.not_mem_nil
      · exact ih h
    · rename_i ha
      obtain ⟨y, ys, hy⟩ := List.exists_cons_of_ne_nil (List.splitOn_ne_nil sep s)
      rw [hy] at h ih
      rcases List.mem_cons.mp h with rfl | h
      · have ha : a ≠ sep := by simpa using ha
        simpa [ha.symm] using ih List.mem_cons_self
      · exact ih (List.mem_cons_of_mem _ h)

/-- Every piece is non-empty and has no separator. -/
theorem ne_nil_and_not_mem_of_mem_pieces {s x : List α} (h : x ∈ pieces sep s) :
    x ≠ [] ∧ sep ∉ x := by
  obtain ⟨hx, hne⟩ := List.mem_filter.mp h
  exact ⟨by simpa using hne, not_mem_of_mem_splitOn hx⟩

/-- The pieces of separated elements are the pieces of the elements. -/
theorem pieces_intercalate (l : List (List α)) :
    pieces sep ([sep].intercalate l) = l.flatMap (pieces sep) := by
  induction l with
  | nil => simp
  | cons x l ih =>
    cases l with
    | nil => simp
    | cons y l =>
      rw [List.intercalate_cons_cons, List.append_assoc, List.singleton_append,
        pieces_append_cons, ih]
      rfl

/-! ## Joining -/

omit [DecidableEq α] in
theorem foldl_join (l : List (List α)) (s : List α) :
    l.foldl (fun s x => if s = [] then x else s ++ sep :: x) s =
      if s = [] then [sep].intercalate (l.dropWhile List.isEmpty)
      else [sep].intercalate (s :: l) := by
  induction l generalizing s with
  | nil => split <;> simp [*]
  | cons x l ih =>
    rw [List.foldl_cons, ih]
    by_cases hs : s = []
    · cases x <;> simp [hs]
    · rw [if_neg hs, if_neg (by simp), if_neg hs, List.intercalate_cons_cons]
      cases l <;> simp [List.intercalate_cons_cons]

omit [DecidableEq α] in
/-- `join` is the separated list of the elements from the first non-empty one on. -/
theorem join_eq (l : List (List α)) :
    join sep l = [sep].intercalate (l.dropWhile List.isEmpty) := by
  rw [join, foldl_join, if_pos rfl]

omit [DecidableEq α] in
/-- Only lists of empty elements join to nothing. -/
theorem join_eq_nil_iff_dropWhile {l : List (List α)} :
    join sep l = [] ↔ l.dropWhile List.isEmpty = [] := by
  rw [join_eq]
  constructor
  · intro h
    cases hd : l.dropWhile List.isEmpty with
    | nil => rfl
    | cons x xs =>
      have hx := List.head?_dropWhile_not List.isEmpty l
      rw [hd] at h hx
      cases xs with
      | nil => simp at h hx; exact (hx h).elim
      | cons y ys => simp [List.intercalate_cons_cons] at h
  · intro h; rw [h]; rfl

theorem flatMap_pieces_dropWhile (l : List (List α)) :
    (l.dropWhile List.isEmpty).flatMap (pieces sep) = l.flatMap (pieces sep) := by
  induction l with
  | nil => rfl
  | cons x l ih =>
    cases x with
    | nil => simpa using ih
    | cons a x => simp

theorem pieces_join (l : List (List α)) : pieces sep (join sep l) = l.flatMap (pieces sep) := by
  rw [join_eq, pieces_intercalate, flatMap_pieces_dropWhile]

/-- Elements that are not empty and have no separator come back from a joined list. -/
theorem flatMap_pieces_eq_self {l : List (List α)} (h : ∀ x ∈ l, x ≠ [] ∧ sep ∉ x) :
    l.flatMap (pieces sep) = l := by
  induction l with
  | nil => rfl
  | cons x l ih =>
    obtain ⟨hx, hl⟩ := List.forall_mem_cons.mp h
    rw [List.flatMap_cons, pieces_of_ne_nil hx.2 hx.1, ih hl]
    rfl

theorem pieces_join_eq_self_iff (l : List (List α)) :
    pieces sep (join sep l) = l ↔ ∀ x ∈ l, x ≠ [] ∧ sep ∉ x := by
  constructor
  · intro h x hx
    rw [← h] at hx
    exact ne_nil_and_not_mem_of_mem_pieces hx
  · intro h
    rw [pieces_join, flatMap_pieces_eq_self h]

omit [DecidableEq α] in
/-- What the characters of a separated list all have: the separator has it, and those of the
elements. -/
theorem forall_mem_intercalate {P : α → Prop} (hsep : P sep) {l : List (List α)} :
    (∀ a ∈ [sep].intercalate l, P a) ↔ ∀ x ∈ l, ∀ a ∈ x, P a := by
  induction l with
  | nil => simp
  | cons x l ih =>
    cases l with
    | nil => simp
    | cons y l =>
      rw [List.intercalate_cons_cons, List.append_assoc, List.singleton_append,
        List.forall_mem_append, List.forall_mem_cons, ih, List.forall_mem_cons (a := x)]
      simp [hsep]

omit [DecidableEq α] in
theorem dropWhile_isEmpty_of_ne_nil {l : List (List α)} (h : ∀ x ∈ l, x ≠ []) :
    l.dropWhile List.isEmpty = l := by
  cases l with
  | nil => rfl
  | cons x l => rw [List.dropWhile_cons_of_neg (by simpa using h x List.mem_cons_self)]

/-- Elements without a separator that leave no piece are all empty, and join to nothing. -/
theorem join_eq_nil_iff {l : List (List α)} (h : ∀ x ∈ l, sep ∉ x) :
    join sep l = [] ↔ pieces sep (join sep l) = [] := by
  constructor
  · intro hj; rw [hj, pieces_nil]
  · intro hp
    rw [pieces_join, List.flatMap_eq_nil_iff] at hp
    rw [join_eq_nil_iff_dropWhile, List.dropWhile_eq_nil_iff]
    intro x hx
    have hx' := hp x hx
    rw [pieces_of_not_mem (h x hx)] at hx'
    split at hx'
    · rename_i h0; simp [h0]
    · cases hx'

/-- For elements without a separator: the segments of a joined list (empty ones included) are its
pieces iff no empty element comes after a non-empty one. -/
theorem splitOn_join_eq_pieces_iff {l : List (List α)} (h : ∀ x ∈ l, sep ∉ x)
    (hne : join sep l ≠ []) :
    (join sep l).splitOn sep = pieces sep (join sep l) ↔ [] ∉ l.dropWhile List.isEmpty := by
  have hd : l.dropWhile List.isEmpty ≠ [] := fun h0 => hne (join_eq_nil_iff_dropWhile.mpr h0)
  have hs : (join sep l).splitOn sep = l.dropWhile List.isEmpty := by
    rw [join_eq]
    exact List.splitOn_intercalate sep (fun x hx => h x ((List.dropWhile_sublist _).subset hx)) hd
  rw [pieces, hs, eq_comm, List.filter_eq_self]
  constructor
  · intro ha h0; simpa using ha _ h0
  · intro h0 x hx
    cases x with
    | nil => exact (h0 hx).elim
    | cons a x => rfl

/-! ## The normal form -/

omit [DecidableEq α] in
theorem rdropWhile_cons (p : α → Bool) (a : α) (s : List α) :
    (a :: s).rdropWhile p =
      if s.rdropWhile p = [] then if p a then [] else [a] else a :: s.rdropWhile p := by
  induction s using List.reverseRecOn with
  | nil => simp [List.rdropWhile_singleton]
  | append_singleton s b ih =>
    rw [← List.cons_append, List.rdropWhile_concat, List.rdropWhile_concat]
    split <;> simp [*]

/-- The separators at the front of `collapse s` are the one that `collapse` puts there. -/
theorem dropWhile_collapse_cons_sep (s : List α) :
    (collapse sep (sep :: s)).dropWhile (· == sep) = (collapse sep s).dropWhile (· == sep) := by
  rw [collapse, if_pos rfl, List.dropWhile_cons_of_pos (by simp), List.dropWhile_idempotent]

@[simp] theorem squeeze_nil : squeeze sep [] = [] := rfl

@[simp] theorem squeeze_cons_sep (s : List α) : squeeze sep (sep :: s) = squeeze sep s := by
  rw [squeeze, strip, dropWhile_collapse_cons_sep]
  rfl

/-- After an element that is no separator, only the separators at the end go. -/
theorem squeeze_cons {a : α} (ha : a ≠ sep) (s : List α) :
    squeeze sep (a :: s) = a :: (collapse sep s).rdropWhile (· == sep) := by
  have hc : collapse sep (a :: s) = a :: collapse sep s := by simp [collapse, ha]
  rw [squeeze, strip, hc, List.dropWhile_cons_of_neg (by simpa using ha), rdropWhile_cons]
  split
  · rename_i h; rw [h, if_neg (by simpa using ha)]
  · rfl

/-- A separator inside `s` stays, once, if a piece comes after it. -/
theorem rdropWhile_collapse_cons_sep (s : List α) :
    (collapse sep (sep :: s)).rdropWhile (· == sep) =
      if squeeze sep s = [] then [] else sep :: squeeze sep s := by
  have hc : collapse sep (sep :: s) = sep :: (collapse sep s).dropWhile (· == sep) := by
    simp [collapse]
  rw [hc, rdropWhile_cons]
  simp only [beq_self_eq_true, ↓reduceIte]
  rfl

theorem squeeze_cons_cons {a b : α} (ha : a ≠ sep) (hb : b ≠ sep) (s : List α) :
    squeeze sep (a :: b :: s) = a :: squeeze sep (b :: s) := by
  rw [squeeze_cons ha, squeeze_cons hb]
  have hc : collapse sep (b :: s) = b :: collapse sep s := by simp [collapse, hb]
  rw [hc, rdropWhile_cons]
  split
  · rename_i h; rw [h, if_neg (by simpa using hb)]
  · rfl

theorem pieces_cons {a : α} (ha : a ≠ sep) (s : List α) :
    pieces sep (a :: s) = match s.splitOn sep with
      | [] => [[a]]
      | x :: xs => (a :: x) :: xs.filter fun x => !x.isEmpty := by
  rw [pieces, List.splitOn_cons_eq_if_modifyHead, if_neg (by simpa using ha)]
  obtain ⟨x, xs, hx⟩ := List.exists_cons_of_ne_nil (List.splitOn_ne_nil sep s)
  simp [hx]

/-- Joining the pieces of `s` cuts every run of separators down to one and drops those at the
ends. -/
theorem intercalate_pieces (s : List α) : [sep].intercalate (pieces sep s) = squeeze sep s := by
  induction s with
  | nil => simp
  | cons a s ih =>
    by_cases ha : a = sep
    · rw [ha, pieces_cons_sep, squeeze_cons_sep, ih]
    · -- `a` starts a new piece before a separator or the end, else it extends the first piece.
      cases s with
      | nil => rw [pieces_of_ne_nil (by simpa using Ne.symm ha) (by simp), squeeze_cons ha]; rfl
      | cons b s =>
        by_cases hb : b = sep
        · subst hb
          have hp : pieces b (a :: b :: s) = [a] :: pieces b s := by
            have h : pieces b ([a] ++ b :: s) = pieces b [a] ++ pieces b s :=
              pieces_append_cons [a] s
            rwa [pieces_of_ne_nil (s := [a]) (by simpa using Ne.symm ha) (by simp)] at h
          rw [pieces_cons_sep, squeeze_cons_sep] at ih
          rw [hp, squeeze_cons ha, rdropWhile_collapse_cons_sep, ← ih]
          cases h : pieces b s with
          | nil => simp
          | cons x xs =>
            have hx : x ≠ [] := (ne_nil_and_not_mem_of_mem_pieces (h ▸ List.mem_cons_self)).1
            have hne : [b].intercalate (x :: xs) ≠ [] := by cases xs <;> simp [hx]
            rw [if_neg hne, List.intercalate_cons_cons]
            rfl
        · rw [squeeze_cons_cons ha hb, ← ih, pieces_cons ha, pieces_cons hb,
            List.splitOn_cons_eq_if_modifyHead, if_neg (by simpa using hb)]
          obtain ⟨x, xs, hx⟩ := List.exists_cons_of_ne_nil (List.splitOn_ne_nil sep s)
          simp only [hx, List.modifyHead_cons]
          cases xs.filter fun x => !x.isEmpty <;> simp

theorem join_pieces (s : List α) : join sep (pieces sep s) = squeeze sep s := by
  rw [join_eq, dropWhile_isEmpty_of_ne_nil fun x hx => (ne_nil_and_not_mem_of_mem_pieces hx).1,
    intercalate_pieces]

theorem join_pieces_idem (s : List α) :
    join sep (pieces sep (join sep (pieces sep s))) = join sep (pieces sep s) := by
  rw [(pieces_join_eq_self_iff _).mpr fun x hx => ne_nil_and_not_mem_of_mem_pieces hx]

/-! ## Texts in normal form -/

theorem collapse_eq_self {s : List α} (h : ¬ [sep, sep] <:+: s) : collapse sep s = s := by
  induction s with
  | nil => rfl
  | cons a s ih =>
    rw [List.infix_cons_iff, not_or] at h
    rw [collapse, ih h.2]
    split
    · rename_i ha
      subst ha
      cases s with
      | nil => rfl
      | cons b s =>
        have hb : b ≠ a := fun hb => h.1 (by simp [hb])
        rw [List.dropWhile_cons_of_neg (by simpa using hb)]
    · rfl

theorem not_infix_collapse (s : List α) : ¬ [sep, sep] <:+: collapse sep s := by
  induction s with
  | nil => simp [collapse]
  | cons a s ih =>
    rw [collapse, List.infix_cons_iff, not_or]
    constructor
    · split
      · rw [List.cons_prefix_cons]
        rintro ⟨-, hp⟩
        have hd := List.head?_dropWhile_not (· == sep) (collapse sep s)
        obtain ⟨t, ht⟩ := hp
        rw [← ht] at hd
        simp at hd
      · rename_i ha
        rw [List.cons_prefix_cons]
        exact fun h => ha h.1.symm
    · split
      · exact fun h => ih (h.trans (List.dropWhile_suffix _).isInfix)
      · exact ih

theorem head?_squeeze (s : List α) : (squeeze sep s).head? ≠ some sep := by
  intro h
  have hp := List.rdropWhile_prefix (· == sep) ((collapse sep s).dropWhile (· == sep))
  have hd := List.head?_dropWhile_not (· == sep) (collapse sep s)
  obtain ⟨t, ht⟩ := hp
  rw [squeeze, strip] at h
  rw [← ht, List.head?_append, h] at hd
  simp at hd

theorem getLast?_squeeze (s : List α) : (squeeze sep s).getLast? ≠ some sep := by
  intro h
  have hne : squeeze sep s ≠ [] := by intro h0; simp [h0] at h
  have hn : ¬ ((squeeze sep s).getLast hne == sep) = true := List.rdropWhile_last_not _ _ hne
  rw [List.getLast?_eq_some_getLast hne, Option.some.injEq] at h
  exact hn (by simpa using h)

theorem not_infix_squeeze (s : List α) : ¬ [sep, sep] <:+: squeeze sep s := by
  intro h
  have h1 := h.trans (List.rdropWhile_prefix _ _).isInfix
  exact not_infix_collapse s (h1.trans (List.dropWhile_suffix _).isInfix)

/-- `s` is its own normal form iff it has no separator at an end and no two in a row. -/
theorem squeeze_eq_self_iff (s : List α) :
    squeeze sep s = s ↔ s.head? ≠ some sep ∧ s.getLast? ≠ some sep ∧ ¬ [sep, sep] <:+: s := by
  constructor
  · intro h
    rw [← h]
    exact ⟨head?_squeeze s, getLast?_squeeze s, not_infix_squeeze s⟩
  · rintro ⟨h1, h2, h3⟩
    have hd : s.dropWhile (· == sep) = s := by
      cases s with
      | nil => rfl
      | cons a s => rw [List.dropWhile_cons_of_neg (by simpa using h1)]
    rw [squeeze, collapse_eq_self h3, strip, hd, List.rdropWhile_eq_self_iff]
    intro hne hl
    exact h2 (by rw [List.getLast?_eq_some_getLast hne]; simpa using hl)

end Segments
