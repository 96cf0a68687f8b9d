/-!
# A list whose last entry may be open

Entries are appended open when no other is, and closed later.

* `OnlyLast.concat`, `set`, `modify`: what appends an open entry and what leaves the open ones.
* `OnlyLast.close`: what is open is the last entry, and afterwards none is.
-/

/-- `modify` changes an entry, or nothing if there is none. -/
theorem List.modify_cases {α : Type} (l : List α) (k : Nat) (f : α → α) :
    l.modify k f = l ∨ ∃ x, l[k]? = some x ∧ l.modify k f = l.set k (f x) := by
  cases hx : l[k]? with
  | none => exact .inl (List.modify_eq_self (by simpa using hx))
  | some x =>
    have : Inhabited α := ⟨x⟩
    exact .inr ⟨x, rfl, by rw [List.modify_eq_set, hx]; rfl⟩

/-- An entry of `l` is open iff it is the last one and `shown`. -/
structure OnlyLast {α : Type} (isOpen : α → Prop) (l : List α) (shown : Prop) : Prop where
  iff_last : ∀ k x, l[k]? = some x → (isOpen x ↔ shown ∧ k + 1 = l.length)
  ne_nil : shown → l ≠ []

namespace OnlyLast

variable {α : Type} {isOpen : α → Prop} {l : List α} {shown : Prop}

theorem nil : OnlyLast isOpen [] False :=
  ⟨fun _ _ h => (nomatch h), False.elim⟩

theorem congr {shown' : Prop} (h : OnlyLast isOpen l shown) (hs : shown ↔ shown') :
    OnlyLast isOpen l shown' := by
  rw [← propext hs]; exact h

theorem concat (h : OnlyLast isOpen l False) {x : α} (hx : isOpen x) :
    OnlyLast isOpen (l ++ [x]) True := by
  refine ⟨fun k y hy => ?_, fun _ => by simp⟩
  rw [List.length_append, List.length_singleton, true_and]
  rcases Nat.lt_trichotomy k l.length with hk | rfl | hk
  · rw [List.getElem?_append_left hk] at hy
    exact iff_of_false (fun hy' => ((h.iff_last k y hy).mp hy').1) (by omega)
  · rw [List.getElem?_concat_length] at hy
    cases hy
    exact iff_of_true hx rfl
  · rw [List.getElem?_eq_none (by rw [List.length_append, List.length_singleton]; omega)] at hy
    cases hy

/-- An entry is changed and stays open or closed. -/
theorem set (h : OnlyLast isOpen l shown) {k : Nat} {x x' : α} (hx : l[k]? = some x)
    (hx' : isOpen x' ↔ isOpen x) : OnlyLast isOpen (l.set k x') shown := by
  refine ⟨fun j y hy => ?_, fun hs => by simpa using h.ne_nil hs⟩
  rw [List.length_set]
  by_cases hj : k = j
  · subst hj
    rw [List.getElem?_set_self (List.getElem?_eq_some_iff.mp hx).1, Option.some.injEq] at hy
    rw [← hy, hx']
    exact h.iff_last k x hx
  · rw [List.getElem?_set_ne hj] at hy
    exact h.iff_last j y hy

/-- The open entry is closed. -/
theorem close (h : OnlyLast isOpen l shown) {k : Nat} {x : α} (hx : l[k]? = some x)
    (ho : isOpen x) (x' : α) (hx' : ¬ isOpen x') : shown ∧ OnlyLast isOpen (l.set k x') False := by
  obtain ⟨hs, hk⟩ := (h.iff_last k x hx).mp ho
  refine ⟨hs, fun j y hy => ?_, fun hf => hf.elim⟩
  rw [false_and, iff_false]
  by_cases hj : k = j
  · subst hj
    rw [List.getElem?_set_self (List.getElem?_eq_some_iff.mp hx).1, Option.some.injEq] at hy
    rw [← hy]
    exact hx'
  · rw [List.getElem?_set_ne hj] at hy
    intro hy'
    have := ((h.iff_last j y hy).mp hy').2
    omega

theorem modify (h : OnlyLast isOpen l shown) (k : Nat) {f : α → α}
    (hf : ∀ x, isOpen (f x) ↔ isOpen x) : OnlyLast isOpen (l.modify k f) shown := by
  rcases l.modify_cases k f with he | ⟨x, hx, he⟩
  · rw [he]; exact h
  · rw [he]; exact h.set hx (hf x)

end OnlyLast
