import Mathlib.Algebra.Order.Ring.Nat
import Mathlib.Algebra.Ring.Parity
import Mathlib.Data.List.Dedup

/-!
# A list edited by toggles

`Draft α` is what an editor with one switch for each element is for: it is loaded with a list, and
each toggle of `x` puts `x` in (at the end) or takes it out. The draft keeps the list it was
loaded with (`base`), the toggles since then (`touched`) and those of them that put their element
in (`picks`); `Draft.list` is the list it stands for.

* `mem_list`: `x` is in the list iff it was loaded xor toggled an odd number of times (`Has`).
* `list_toggle_of_has`, `list_toggle_of_not_has`: what a toggle does to the list.
* `nodup_list`: no element is twice in it, if none was when it was loaded.
-/

/-- `x` is in a list `base` after the toggles `touched`. -/
def Toggled {α : Type} [DecidableEq α] (base touched : List α) (x : α) : Prop :=
  Xor (x ∈ base) (Odd (touched.count x))

instance {α : Type} [DecidableEq α] (base touched : List α) (x : α) :
    Decidable (Toggled base touched x) :=
  inferInstanceAs (Decidable ((_ ∧ ¬ _) ∨ (_ ∧ ¬ _)))

/-- A list under edit (module doc). -/
structure Draft (α : Type) [DecidableEq α] where
  /-- The list that was loaded. -/
  base : List α
  /-- The elements toggled since, in order. -/
  touched : List α
  /-- The elements that a toggle put in, in order. -/
  picks : List α
  touched_of_picks : ∀ x ∈ picks, x ∈ touched
  picks_of_toggled : ∀ x ∈ touched, Toggled base touched x → x ∈ picks

namespace Draft

variable {α : Type} [DecidableEq α]

/-- `x` is in the draft. -/
def Has (d : Draft α) (x : α) : Prop := Toggled d.base d.touched x

instance (d : Draft α) (x : α) : Decidable (d.Has x) :=
  inferInstanceAs (Decidable (Toggled d.base d.touched x))

/-- The list that the draft stands for: the loaded elements that were not toggled, then the
toggled ones that are in, in the order in which they were last put in. -/
def list (d : Draft α) : List α :=
  d.base.filter (· ∉ d.touched) ++ d.picks.dedup.filter fun x => decide (d.Has x)

/-! ## Lists of the elements' names -/

theorem count_map_of_inj {β : Type} [DecidableEq β] {f : α → β} {l : List α} {x : α}
    (h : ∀ y ∈ l, f y = f x → y = x) : (l.map f).count (f x) = l.count x := by
  rw [List.count_eq_countP, List.count_eq_countP, List.countP_map]
  refine List.countP_congr fun y hy => ?_
  simp only [Function.comp_apply, beq_iff_eq]
  exact ⟨h y hy, fun he => he ▸ rfl⟩

theorem dedup_map_of_inj {β : Type} [DecidableEq β] {f : α → β} {l : List α}
    (h : ∀ x ∈ l, ∀ y ∈ l, f x = f y → x = y) : (l.map f).dedup = l.dedup.map f := by
  induction l with
  | nil => rfl
  | cons x l ih =>
    have ih' := ih fun a ha b hb => h a (List.mem_cons_of_mem x ha) b (List.mem_cons_of_mem x hb)
    have hmem : f x ∈ l.map f ↔ x ∈ l := by
      refine ⟨fun hf => ?_, List.mem_map_of_mem⟩
      obtain ⟨y, hy, he⟩ := List.mem_map.mp hf
      exact h y (List.mem_cons_of_mem x hy) x List.mem_cons_self he ▸ hy
    by_cases hx : x ∈ l
    · rw [List.map_cons, List.dedup_cons_of_mem (hmem.mpr hx), List.dedup_cons_of_mem hx, ih']
    · rw [List.map_cons, List.dedup_cons_of_notMem (mt hmem.mp hx), List.dedup_cons_of_notMem hx,
        ih', List.map_cons]

/-! ## The effect of a toggle on `Toggled` -/

theorem toggled_concat {base touched : List α} {x y : α} :
    Toggled base (touched ++ [x]) y ↔
      if y = x then ¬ Toggled base touched y else Toggled base touched y := by
  unfold Toggled
  split
  · rename_i h
    subst h
    rw [List.count_append, List.count_singleton_self, Nat.odd_add_one, xor_not_right,
      xor_iff_not_iff, not_not]
  · rename_i h
    have hc : [x].count y = 0 := List.count_eq_zero.mpr (by simpa using h)
    rw [List.count_append, hc, Nat.add_zero]

theorem toggled_of_not_mem {base touched : List α} {x : α} (h : x ∉ touched) :
    Toggled base touched x ↔ x ∈ base := by
  rw [Toggled, List.count_eq_zero.mpr h]
  simp [Xor]

/-- A loaded list, with no toggle yet. -/
def load (base : List α) : Draft α where
  base := base
  touched := []
  picks := []
  touched_of_picks := by simp
  picks_of_toggled := by simp

/-- The switch of `x`. -/
def toggle (d : Draft α) (x : α) : Draft α where
  base := d.base
  touched := d.touched ++ [x]
  picks := if d.Has x then d.picks else d.picks ++ [x]
  touched_of_picks y hy := by
    rw [List.mem_append, List.mem_singleton]
    split at hy
    · exact .inl (d.touched_of_picks y hy)
    · exact (List.mem_append.mp hy).imp (d.touched_of_picks y) List.mem_singleton.mp
  picks_of_toggled y hy hT := by
    rw [toggled_concat] at hT
    by_cases hyx : y = x
    · rw [if_pos hyx, hyx] at hT
      rw [if_neg (show ¬ d.Has x from hT), hyx]
      exact List.mem_append_right _ List.mem_cons_self
    · rw [if_neg hyx] at hT
      have hy' : y ∈ d.touched := by simpa [hyx] using hy
      have := d.picks_of_toggled y hy' hT
      split
      · exact this
      · exact List.mem_append_left _ this

variable {d : Draft α} {x y : α}

@[simp] theorem base_load (l : List α) : (load l).base = l := rfl

@[simp] theorem touched_load (l : List α) : (load l).touched = [] := rfl

@[simp] theorem picks_load (l : List α) : (load l).picks = [] := rfl

@[simp] theorem base_toggle : (d.toggle x).base = d.base := rfl

@[simp] theorem touched_toggle : (d.toggle x).touched = d.touched ++ [x] := rfl

theorem has_load {l : List α} : (load l).Has x ↔ x ∈ l := toggled_of_not_mem List.not_mem_nil

theorem has_toggle : (d.toggle x).Has y ↔ if y = x then ¬ d.Has y else d.Has y := toggled_concat

theorem has_toggle_self : (d.toggle x).Has x ↔ ¬ d.Has x := by rw [has_toggle, if_pos rfl]

theorem has_toggle_of_ne (h : y ≠ x) : (d.toggle x).Has y ↔ d.Has y := by
  rw [has_toggle, if_neg h]

theorem picks_toggle_of_has (h : d.Has x) : (d.toggle x).picks = d.picks := if_pos h

theorem picks_toggle_of_not_has (h : ¬ d.Has x) : (d.toggle x).picks = d.picks ++ [x] := if_neg h

/-! ## The list of a draft -/

@[simp] theorem list_load (l : List α) : (load l).list = l := by simp [list]

theorem mem_list : y ∈ d.list ↔ d.Has y := by
  simp only [list, List.mem_append, List.mem_filter, List.mem_dedup, decide_eq_true_eq]
  constructor
  · rintro (⟨hb, ht⟩ | ⟨-, h⟩)
    · exact (toggled_of_not_mem ht).mpr hb
    · exact h
  · intro h
    by_cases ht : y ∈ d.touched
    · exact .inr ⟨d.picks_of_toggled y ht h, h⟩
    · exact .inl ⟨(toggled_of_not_mem ht).mp h, ht⟩

theorem nodup_list (h : d.base.Nodup) : d.list.Nodup := by
  refine List.nodup_append.mpr ⟨h.filter _, (List.nodup_dedup _).filter _, ?_⟩
  intro a ha b hb hab
  subst hab
  simp only [List.mem_filter, List.mem_dedup, decide_eq_true_eq] at ha hb
  exact ha.2 (d.touched_of_picks a hb.1)

/-- The last of two equal elements stays in `dedup`. -/
theorem dedup_concat (l : List α) (x : α) : (l ++ [x]).dedup = l.dedup.filter (· ≠ x) ++ [x] := by
  induction l with
  | nil => rfl
  | cons a l ih =>
    by_cases ha : a ∈ l
    · rw [List.cons_append, List.dedup_cons_of_mem (List.mem_append_left _ ha), ih,
        List.dedup_cons_of_mem ha]
    · by_cases hx : a = x
      · rw [List.cons_append, List.dedup_cons_of_mem (by simp [hx]), ih,
          List.dedup_cons_of_notMem ha, List.filter_cons_of_neg (by simp [hx])]
      · rw [List.cons_append, List.dedup_cons_of_notMem (by simp [ha, hx]), ih,
          List.dedup_cons_of_notMem ha, List.filter_cons_of_pos (by simp [hx]), List.cons_append]

/-- A toggle that takes `x` out removes it and leaves the other elements in their order. -/
theorem list_toggle_of_has (h : d.Has x) : (d.toggle x).list = d.list.filter (· ≠ x) := by
  rw [list, picks_toggle_of_has h, list, List.filter_append, List.filter_filter, List.filter_filter]
  congr 1
  · apply List.filter_congr
    intro y _
    simp [and_comm]
  · apply List.filter_congr
    intro y _
    rw [Bool.eq_iff_iff]
    by_cases hy : y = x <;> simp [has_toggle, hy, h]

/-- A toggle that puts `x` in puts it at the end. -/
theorem list_toggle_of_not_has (h : ¬ d.Has x) : (d.toggle x).list = d.list ++ [x] := by
  have hb : x ∈ d.base → x ∈ d.touched := fun hb => by
    by_contra ht
    exact h ((toggled_of_not_mem ht).mpr hb)
  rw [list, picks_toggle_of_not_has h, dedup_concat, List.filter_append, List.filter_filter, list,
    List.append_assoc]
  congr 1
  · -- `x` is no loaded element that was not toggled before.
    apply List.filter_congr
    intro y hy
    by_cases hyx : y = x
    · subst hyx; simp [hb hy]
    · simp [hyx]
  · congr 1
    · apply List.filter_congr
      intro y _
      rw [Bool.eq_iff_iff]
      by_cases hy : y = x <;> simp [has_toggle, hy, h]
    · rw [List.filter_cons_of_pos (by simpa [has_toggle_self] using h), List.filter_nil]

end Draft
