import Mathlib.Data.List.Basic
import Mathlib.Data.Rat.Defs

/-!
# JSON documents and decoders

A document is what a reader makes of a JSON text, with strings of a type `σ`; an object has at most
one member of a name. A decoder is a partial function on documents.

* `decode`: a member that must be there.
* `decodeIfPresent`: a member that may be missing or `null`.
* `list?`: all elements of an array, or nothing.
* `decode_list_eq_some`, `decodeIfPresent_bind_eq_some`: what they accept, and with which result.
-/

inductive Json (σ : Type) where
  | null
  | bool (b : Bool)
  | number (value : Rat)
  | string (s : σ)
  | array (elements : List (Json σ))
  | object (member : σ → Option (Json σ))

namespace Json

variable {σ α : Type}

def string? : Json σ → Option σ
  | string s => some s
  | _ => none

/-- A signed integer of 64 bits can hold the number. -/
def Fits64 (n : Int) : Prop := -9223372036854775808 ≤ n ∧ n ≤ 9223372036854775807

instance (n : Int) : Decidable (Fits64 n) := inferInstanceAs (Decidable (_ ∧ _))

def int64? : Json σ → Option Int
  | number value => if value.den = 1 ∧ Fits64 value.num then some value.num else none
  | _ => none

def list? (f : Json σ → Option α) : Json σ → Option (List α)
  | array elements => elements.mapM f
  | _ => none

def decode (f : Json σ → Option α) (key : σ) : Json σ → Option α
  | object member => (member key).bind f
  | _ => none

def decodeIfPresent (f : Json σ → Option α) (key : σ) : Json σ → Option (Option α)
  | object member =>
    match member key with
    | none => some none
    | some null => some none
    | some j => (f j).map some
  | _ => none

/-! ## The content of a document -/

def IsObject (j : Json σ) : Prop := ∃ member, j = object member

/-- The member of an object. -/
def member? (key : σ) : Json σ → Option (Json σ)
  | object member => member key
  | _ => none

theorem isObject_of_member {key : σ} {j x : Json σ} (h : j.member? key = some x) :
    j.IsObject := by
  cases j with
  | object member => exact ⟨member, rfl⟩
  | _ => cases h

/-- The elements of an array that is a member of an object. -/
def elements (key : σ) (j : Json σ) : List (Json σ) :=
  match j.member? key with
  | some (array l) => l
  | _ => []

/-- The text of a member that is a string. -/
def text? (key : σ) (j : Json σ) : Option σ := (j.member? key).bind string?

/-- The member is a string, `null` or missing. -/
def HasText (key : σ) (j : Json σ) : Prop :=
  ∀ x, j.member? key = some x → x = null ∨ ∃ s, x = string s

theorem string?_eq_some {j : Json σ} {s : σ} : j.string? = some s ↔ j = string s := by
  cases j <;> simp [string?]

theorem int64?_eq_some {j : Json σ} {n : Int} :
    j.int64? = some n ↔ j = number n ∧ Fits64 n := by
  cases j with
  | number value =>
    simp only [int64?, Option.ite_none_right_eq_some, Option.some.injEq, number.injEq]
    constructor
    · rintro ⟨⟨hden, hfits⟩, rfl⟩
      exact ⟨((Rat.den_eq_one_iff value).mp hden).symm, hfits⟩
    · rintro ⟨rfl, hfits⟩
      exact ⟨⟨rfl, hfits⟩, rfl⟩
  | _ => simp [int64?]

/-- A function that accepts the elements with `V`, with the result `g`, accepts the lists of such
elements. -/
theorem mapM_eq_some_iff {β : Type} {f : β → Option α} {V : β → Prop} {g : β → α}
    (hf : ∀ x a, f x = some a ↔ V x ∧ a = g x) {l : List β} {r : List α} :
    l.mapM f = some r ↔ (∀ x ∈ l, V x) ∧ r = l.map g := by
  induction l generalizing r with
  | nil => simp [eq_comm]
  | cons x l ih =>
    simp only [List.mapM_cons, Option.pure_def, Option.bind_eq_bind, Option.bind_eq_some_iff, hf,
      ih, List.forall_mem_cons, List.map_cons, Option.some.injEq]
    constructor
    · rintro ⟨_, ⟨hx, rfl⟩, _, ⟨hl, rfl⟩, rfl⟩
      exact ⟨⟨hx, hl⟩, rfl⟩
    · rintro ⟨⟨hx, hl⟩, rfl⟩
      exact ⟨_, ⟨hx, rfl⟩, _, ⟨hl, rfl⟩, rfl⟩

theorem decode_eq_some {f : Json σ → Option α} {key : σ} {j : Json σ} {a : α} :
    j.decode f key = some a ↔ ∃ x, j.member? key = some x ∧ f x = some a := by
  cases j with
  | object member => exact Option.bind_eq_some_iff
  | _ => simp [decode, member?]

theorem decode_bind_eq_some {β : Type} {f : Json σ → Option β} {key : σ} {j : Json σ}
    {k : β → Option α} {a : α} :
    (j.decode f key).bind k = some a ↔ ∃ b, j.decode f key = some b ∧ k b = some a :=
  Option.bind_eq_some_iff

theorem decode_list_eq_some {f : Json σ → Option α} {V : Json σ → Prop} {g : Json σ → α}
    (hf : ∀ x a, f x = some a ↔ V x ∧ a = g x) {key : σ} {j : Json σ} {r : List α} :
    j.decode (list? f) key = some r ↔
      (∃ l, j.member? key = some (array l)) ∧ (∀ x ∈ j.elements key, V x) ∧
        r = (j.elements key).map g := by
  rw [decode_eq_some]
  constructor
  · rintro ⟨x, hx, hr⟩
    cases x with
    | array l =>
      have hl : j.elements key = l := by rw [elements, hx]
      rw [hl]
      exact ⟨⟨l, hx⟩, (mapM_eq_some_iff hf).mp hr⟩
    | _ => cases hr
  · rintro ⟨⟨l, hl⟩, hr⟩
    have he : j.elements key = l := by rw [elements, hl]
    rw [he] at hr
    exact ⟨_, hl, (mapM_eq_some_iff hf).mpr hr⟩

/-- A text that may be missing. -/
theorem decodeIfPresent_eq_some {key : σ} {j : Json σ} {v : Option σ} :
    j.decodeIfPresent string? key = some v ↔ j.IsObject ∧ j.HasText key ∧ j.text? key = v := by
  cases j with
  | object member =>
    have hobject : (object member).IsObject := ⟨member, rfl⟩
    simp only [decodeIfPresent, HasText, text?, member?, hobject, true_and]
    cases hm : member key with
    | none => simp
    | some x => cases x <;> simp [string?]
  | _ => simp [decodeIfPresent, IsObject]

theorem decodeIfPresent_bind_eq_some {key : σ} {j : Json σ} {k : Option σ → Option α} {a : α} :
    (j.decodeIfPresent string? key).bind k = some a ↔
      (j.IsObject ∧ j.HasText key) ∧ k (j.text? key) = some a := by
  simp only [Option.bind_eq_some_iff, decodeIfPresent_eq_some]
  constructor
  · rintro ⟨_, ⟨hobject, htext, rfl⟩, hk⟩
    exact ⟨⟨hobject, htext⟩, hk⟩
  · rintro ⟨⟨hobject, htext⟩, hk⟩
    exact ⟨_, ⟨hobject, htext, rfl⟩, hk⟩

end Json
