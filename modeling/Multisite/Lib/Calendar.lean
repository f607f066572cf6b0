import Mathlib.Tactic

/-!
The proleptic Gregorian calendar, counted day by day from the first of January 1970.

* `exists_dayNumber`: every date has a number;
* `DayNumber.eq_of_advances`: a count that is 0 on that day, and one more on the next day than on
  any other, is that number.
-/

namespace Multisite.Lib

/-- A date of the calendar. -/
structure Date where
  year : ℤ
  month : ℕ
  day : ℕ
  deriving DecidableEq, Repr

/-- A year divisible by four, unless by a hundred and not by four hundred. -/
def IsLeap (year : ℤ) : Prop := 4 ∣ year ∧ (¬100 ∣ year ∨ 400 ∣ year)

instance (year : ℤ) : Decidable (IsLeap year) := inferInstanceAs (Decidable (_ ∧ _))

/-- The days of a month. -/
def daysIn (year : ℤ) (month : ℕ) : ℕ :=
  if month = 2 then if IsLeap year then 29 else 28
  else if month = 4 ∨ month = 6 ∨ month = 9 ∨ month = 11 then 30
  else 31

namespace Date

/-- There is such a day. -/
structure Valid (d : Date) : Prop where
  one_le_month : 1 ≤ d.month
  month_le : d.month ≤ 12
  one_le_day : 1 ≤ d.day
  day_le : d.day ≤ daysIn d.year d.month

instance (d : Date) : Decidable d.Valid :=
  decidable_of_iff (1 ≤ d.month ∧ d.month ≤ 12 ∧ 1 ≤ d.day ∧ d.day ≤ daysIn d.year d.month)
    ⟨fun ⟨a, b, c, e⟩ => ⟨a, b, c, e⟩, fun ⟨a, b, c, e⟩ => ⟨a, b, c, e⟩⟩

/-- The day after. -/
def next (d : Date) : Date :=
  if d.day < daysIn d.year d.month then { d with day := d.day + 1 }
  else if d.month < 12 then { d with month := d.month + 1, day := 1 }
  else { year := d.year + 1, month := 1, day := 1 }

/-- The first of January 1970. -/
def epoch : Date := ⟨1970, 1, 1⟩

end Date

/-- The number of a day, counted from the epoch forwards and backwards. -/
inductive DayNumber : Date → ℤ → Prop
  | epoch : DayNumber Date.epoch 0
  | later {d : Date} {n : ℤ} (h : DayNumber d n) : DayNumber d.next (n + 1)
  | earlier {d : Date} {n : ℤ} (hd : d.Valid) (h : DayNumber d.next n) : DayNumber d (n - 1)

lemma le_daysIn (year : ℤ) (month : ℕ) : 28 ≤ daysIn year month := by
  unfold daysIn
  split
  · split <;> omega
  · split <;> omega

lemma daysIn_le (year : ℤ) (month : ℕ) : daysIn year month ≤ 31 := by
  unfold daysIn
  split
  · split <;> omega
  · split <;> omega

/-- The day after is a day. -/
lemma Date.Valid.next {d : Date} (h : d.Valid) : d.next.Valid := by
  obtain ⟨hm, hm', hd, hd'⟩ := h
  unfold Date.next
  split
  · exact ⟨hm, hm', by dsimp only; omega, by assumption⟩
  · split
    · exact ⟨by dsimp only; omega, by assumption, le_rfl,
        (by decide : 1 ≤ 28).trans (le_daysIn _ _)⟩
    · exact ⟨le_rfl, (by decide : 1 ≤ 12), le_rfl, (by decide : 1 ≤ 28).trans (le_daysIn _ _)⟩

lemma DayNumber.valid {d : Date} {n : ℤ} (h : DayNumber d n) : d.Valid := by
  induction h with
  | epoch => decide
  | later _ ih => exact ih.next
  | earlier hd _ _ => exact hd

/-- **A count that advances by one a day is the number of the day.** -/
theorem DayNumber.eq_of_advances {count : Date → ℤ} (h0 : count Date.epoch = 0)
    (hnext : ∀ d : Date, d.Valid → count d.next = count d + 1) {d : Date} {n : ℤ}
    (h : DayNumber d n) : count d = n := by
  induction h with
  | epoch => exact h0
  | later h ih => rw [hnext _ h.valid, ih]
  | earlier hd _ ih =>
      rw [hnext _ hd] at ih
      omega

/-! ### Every date has a number -/

/-- A day has a number just if the next one has. -/
lemma exists_dayNumber_next {d : Date} (hd : d.Valid) :
    (∃ n, DayNumber d.next n) ↔ ∃ n, DayNumber d n :=
  ⟨fun ⟨_, h⟩ => ⟨_, .earlier hd h⟩, fun ⟨_, h⟩ => ⟨_, .later h⟩⟩

/-- So it is with the first day of its month, -/
lemma exists_dayNumber_month {d : Date} (hd : d.Valid) :
    (∃ n, DayNumber d n) ↔ ∃ n, DayNumber ⟨d.year, d.month, 1⟩ n := by
  obtain ⟨y, m, k⟩ := d
  obtain ⟨hm, hm', hk, hk'⟩ := hd
  dsimp only at hm hm' hk hk' ⊢
  induction k, hk using Nat.le_induction with
  | base => rfl
  | succ k hk ih =>
      have hnext : Date.next ⟨y, m, k⟩ = ⟨y, m, k + 1⟩ := if_pos hk'
      rw [← hnext, exists_dayNumber_next ⟨hm, hm', hk, by dsimp only; omega⟩]
      exact ih (by omega)

/-- and with the first day of its year, -/
lemma exists_dayNumber_year {d : Date} (hd : d.Valid) :
    (∃ n, DayNumber d n) ↔ ∃ n, DayNumber ⟨d.year, 1, 1⟩ n := by
  rw [exists_dayNumber_month hd]
  obtain ⟨y, m, k⟩ := d
  obtain ⟨hm, hm', -, -⟩ := hd
  dsimp only at hm hm' ⊢
  induction m, hm using Nat.le_induction with
  | base => rfl
  | succ m hm ih =>
      have hlast : Date.Valid ⟨y, m, daysIn y m⟩ :=
        ⟨hm, by dsimp only; omega, (by decide : 1 ≤ 28).trans (le_daysIn y m), le_rfl⟩
      have hnext : Date.next ⟨y, m, daysIn y m⟩ = ⟨y, m + 1, 1⟩ := by
        rw [Date.next, if_neg (lt_irrefl _), if_pos (by dsimp only; omega)]
      rw [← hnext, exists_dayNumber_next hlast, exists_dayNumber_month hlast]
      exact ih (by omega)

/-- and with the first day of the next year. -/
lemma exists_dayNumber_succ (y : ℤ) :
    (∃ n, DayNumber ⟨y + 1, 1, 1⟩ n) ↔ ∃ n, DayNumber ⟨y, 1, 1⟩ n := by
  have hlast : Date.Valid ⟨y, 12, 31⟩ :=
    ⟨(by decide : 1 ≤ 12), le_rfl, (by decide : 1 ≤ 31), le_rfl⟩
  have hnext : Date.next ⟨y, 12, 31⟩ = ⟨y + 1, 1, 1⟩ := rfl
  rw [← hnext, exists_dayNumber_next hlast, exists_dayNumber_year hlast]

/-- **Every date has a number.** -/
theorem exists_dayNumber {d : Date} (hd : d.Valid) : ∃ n, DayNumber d n := by
  rw [exists_dayNumber_year hd]
  induction d.year using Int.inductionOn' (b := 1970) with
  | zero => exact ⟨0, .epoch⟩
  | succ y _ ih => exact (exists_dayNumber_succ y).mpr ih
  | pred y _ ih =>
      rw [← exists_dayNumber_succ, sub_add_cancel]
      exact ih

end Multisite.Lib
