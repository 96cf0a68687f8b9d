/-!
# Strings and dates of Foundation

A Swift `String` is a sequence of `Character`s, and a `Character` is an extended grapheme cluster:
one Unicode scalar and the combining ones after it (two canonically equal clusters are one
`Character`). Concatenation is append, so no text here starts with a combining scalar.

`DateFormatter.string` is `DateFormatter.string(from:)` with the format `MM/dd/yy` in the
Gregorian calendar.
-/

namespace MyNews

/-- A Swift `Character`. -/
structure Character where
  scalar : Char
  combining : List Char := []
  deriving DecidableEq, Repr

/-- A Swift `String`. -/
abbrev Str := List Character

/-- The string of a literal. -/
def Str.of (s : String) : Str := s.toList.map fun c => { scalar := c }

/-- The separator of `userSources`. -/
def comma : Character := { scalar := ',' }

/-- The days of a month. -/
def daysIn (year month : Nat) : Nat :=
  if month = 2 then if year % 4 = 0 ∧ (year % 100 ≠ 0 ∨ year % 400 = 0) then 29 else 28
  else if month = 4 ∨ month = 6 ∨ month = 9 ∨ month = 11 then 30
  else 31

theorem daysIn_le (year month : Nat) : daysIn year month ≤ 31 := by
  unfold daysIn
  split
  · split <;> omega
  · split <;> omega

/-- A calendar day. -/
structure Date where
  year : Nat
  month : Nat
  day : Nat
  month_pos : 0 < month
  month_le : month ≤ 12
  day_pos : 0 < day
  day_le : day ≤ daysIn year month
  deriving DecidableEq

/-- A day of a year and a month. -/
def Date.of (year month day : Nat)
    (h : 0 < month ∧ month ≤ 12 ∧ 0 < day ∧ day ≤ daysIn year month) : Date :=
  ⟨year, month, day, h.1, h.2.1, h.2.2.1, h.2.2.2⟩

@[simp] theorem Date.year_of {year month day : Nat}
    (h : 0 < month ∧ month ≤ 12 ∧ 0 < day ∧ day ≤ daysIn year month) :
    (Date.of year month day h).year = year := rfl

/-- The day `a` is not after `b`. -/
def Date.le (a b : Date) : Prop :=
  a.year < b.year ∨ a.year = b.year ∧
    (a.month < b.month ∨ a.month = b.month ∧ a.day ≤ b.day)

instance (a b : Date) : Decidable (a.le b) := inferInstanceAs (Decidable (_ ∨ _ ∧ (_ ∨ _ ∧ _)))

namespace DateFormatter

/-- A decimal digit. -/
def digit (n : Nat) : Character := { scalar := Char.ofNat (48 + n % 10) }

/-- A number with two digits. -/
def twoDigits (n : Nat) : Str := [digit (n / 10), digit n]

/-- `dateFormatter.string(from:)` with `dateFormat = "MM/dd/yy"`. -/
def string (date : Date) : Str :=
  twoDigits date.month ++ Str.of "/" ++ twoDigits date.day ++ Str.of "/" ++ twoDigits date.year

theorem string_ne_nil (date : Date) : string date ≠ [] := by simp [string, twoDigits]

theorem digit_eq_iff {m n : Nat} : digit m = digit n ↔ m % 10 = n % 10 := by
  have key : ∀ i < 10, ∀ j < 10, Char.ofNat (48 + i) = Char.ofNat (48 + j) → i = j := by decide
  constructor
  · intro h
    rw [digit, digit, Character.mk.injEq] at h
    exact key _ (Nat.mod_lt _ (by omega)) _ (Nat.mod_lt _ (by omega)) h.1
  · intro h; rw [digit, digit, h]

theorem twoDigits_eq_iff {m n : Nat} : twoDigits m = twoDigits n ↔ m % 100 = n % 100 := by
  simp only [twoDigits, List.cons.injEq, digit_eq_iff, and_true]
  omega

/-- The text of a date tells its day and its month, and its year within a century. -/
theorem string_eq_iff {a b : Date} : string a = string b ↔
    a.month = b.month ∧ a.day = b.day ∧ a.year % 100 = b.year % 100 := by
  have hm : a.month % 100 = b.month % 100 ↔ a.month = b.month := by
    have := a.month_le; have := b.month_le; omega
  have hd : a.day % 100 = b.day % 100 ↔ a.day = b.day := by
    have := a.day_le; have := b.day_le
    have := daysIn_le a.year a.month; have := daysIn_le b.year b.month
    omega
  rw [← hm, ← hd, ← twoDigits_eq_iff, ← twoDigits_eq_iff, ← twoDigits_eq_iff]
  simp [string, twoDigits, and_assoc]

end DateFormatter

end MyNews
