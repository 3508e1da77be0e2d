import ComputePool.Time.Calendar
import ComputePool.Time.Timestamp
import Mathlib.Tactic.IntervalCases

/-!
# The calendar is consistent

The date of a day number exists, and its day number is the one it came from. A day is found by its
era of 400 years, the year of the era that begins in March, and the day of that year. The year of
the era is a quotient by 365 that first takes the leap days off; it is right in each of the four
centuries of an era (`yearOfEra_century`), and the last day of an era stands for itself.
-/

namespace ComputePool.Date

/-- The year of an era that begins in March and has this day. -/
def yearOfEra (dayOfEra : Nat) : Nat :=
  (dayOfEra - dayOfEra / 1460 + dayOfEra / 36524 - dayOfEra / 146096) / 365

variable {dayOfEra : Nat}

/-- The century of the year is the century of the day, and so are, up to one, the leap days. -/
theorem yearOfEra_century (h : dayOfEra < 146096) :
    yearOfEra dayOfEra / 100 = dayOfEra / 36524 ∧
      (dayOfEra / 1460 = yearOfEra dayOfEra / 4 ∨
        dayOfEra / 1460 = yearOfEra dayOfEra / 4 + 1) := by
  have hlast : dayOfEra / 146096 = 0 := Nat.div_eq_of_lt h
  have hcentury : dayOfEra / 36524 = 0 ∨ dayOfEra / 36524 = 1 ∨ dayOfEra / 36524 = 2 ∨
      dayOfEra / 36524 = 3 := by omega
  unfold yearOfEra
  rw [hlast]
  rcases hcentury with hc | hc | hc | hc
  all_goals
    rw [hc]
    omega

/-- The day falls into the year, which has 365 or 366 days. -/
theorem yearOfEra_spec (h : dayOfEra < 146097) :
    yearOfEra dayOfEra ≤ 399 ∧
      365 * yearOfEra dayOfEra + yearOfEra dayOfEra / 4 - yearOfEra dayOfEra / 100 ≤ dayOfEra ∧
      dayOfEra ≤
        365 * yearOfEra dayOfEra + yearOfEra dayOfEra / 4 - yearOfEra dayOfEra / 100 + 365 := by
  by_cases hlast : dayOfEra = 146096
  · subst hlast
    decide
  · obtain ⟨hcentury, hleap⟩ := yearOfEra_century (Nat.lt_of_le_of_ne (Nat.le_of_lt_succ h) hlast)
    generalize hyear : yearOfEra dayOfEra = year at hcentury hleap ⊢
    unfold yearOfEra at hyear
    omega

/-- A year with 366 days ends in a leap February. -/
theorem yearOfEra_leap (h : dayOfEra < 146097)
    (hday : dayOfEra =
      365 * yearOfEra dayOfEra + yearOfEra dayOfEra / 4 - yearOfEra dayOfEra / 100 + 365) :
    (yearOfEra dayOfEra + 1) % 4 = 0 ∧
      ((yearOfEra dayOfEra + 1) % 100 ≠ 0 ∨ yearOfEra dayOfEra = 399) := by
  by_cases hlast : dayOfEra = 146096
  · subst hlast
    decide
  · obtain ⟨hcentury, hleap⟩ := yearOfEra_century (Nat.lt_of_le_of_ne (Nat.le_of_lt_succ h) hlast)
    obtain ⟨hyears, -⟩ := yearOfEra_spec h
    generalize hyear : yearOfEra dayOfEra = year at hday hcentury hleap hyears ⊢
    unfold yearOfEra at hyear
    have hquarter : year % 4 = 3 := by omega
    omega

/-- Where a day falls: the era, the year of the era, the month from March, and the day of the month,
counted from zero. -/
structure Falls (n era : Int) (year month day : Nat) : Prop where
  year_le : year ≤ 399
  month_le : month ≤ 11
  day_le : day ≤ 30
  short : month = 1 ∨ month = 3 ∨ month = 6 ∨ month = 8 → day ≤ 29
  february : month = 11 →
    day ≤ 27 ∨ day = 28 ∧ (year + 1) % 4 = 0 ∧ ((year + 1) % 100 ≠ 0 ∨ year = 399)
  number : n + 719468 = era * 146097 +
    (365 * year + year / 4 - year / 100 + ((153 * month + 2) / 5 + day) : Nat)

/-- The date of a day is read off where it falls. -/
theorem ofDays_spec (n : Int) : ∃ era year month day, Falls n era year month day ∧
    ofDays n = ⟨if month < 10 then era * 400 + year else era * 400 + year + 1,
      if month < 10 then month + 3 else month - 9, day + 1⟩ := by
  set dayOfEra := ((n + 719468) % 146097).toNat with hdayOfEra
  have hlt : dayOfEra < 146097 := by omega
  obtain ⟨hyear, hfrom, hto⟩ := yearOfEra_spec hlt
  have hleap := yearOfEra_leap hlt
  set year := yearOfEra dayOfEra with hyeardef
  set dayOfYear := dayOfEra - (365 * year + year / 4 - year / 100) with hdayOfYear
  set month := (5 * dayOfYear + 2) / 153 with hmonth
  have hdays : dayOfEra = 365 * year + year / 4 - year / 100 + dayOfYear := by omega
  have hbefore : (153 * month + 2) / 5 ≤ dayOfYear := by omega
  refine ⟨(n + 719468) / 146097, year, month, dayOfYear - (153 * month + 2) / 5,
    ⟨hyear, by omega, by omega, by omega, fun hfebruary => ?_, ?_⟩, ?_⟩
  · by_cases hlast : dayOfYear = 365
    · rw [hlast] at hdays
      obtain ⟨hfour, hhundred⟩ := hleap hdays
      exact .inr ⟨by omega, hfour, hhundred⟩
    · exact .inl (by omega)
  · rw [Nat.add_sub_cancel' hbefore, ← hdays]
    omega
  · have hdate : ofDays n =
        ⟨if (if month < 10 then month + 3 else month - 9) ≤ 2
            then (n + 719468) / 146097 * 400 + year + 1 else (n + 719468) / 146097 * 400 + year,
          if month < 10 then month + 3 else month - 9,
          dayOfYear - (153 * month + 2) / 5 + 1⟩ := rfl
    rw [hdate]
    by_cases hm : month < 10
    · simp only [if_pos hm]
      rw [if_neg (by omega)]
    · simp only [if_neg hm]
      rw [if_pos (by omega)]

/-- The date of a day number exists. -/
theorem exists?_ofDays (n : Int) : (ofDays n).exists? = true := by
  obtain ⟨era, year, month, day, hfalls, hdate⟩ := ofDays_spec n
  obtain ⟨hyear, hmonth, hday, hshort, hfebruary, -⟩ := hfalls
  have hleap : month = 11 → day = 28 → isLeapYear (era * 400 + year + 1) = true := by
    intro hm hd
    unfold isLeapYear
    simp only [Bool.and_eq_true, Bool.or_eq_true, beq_iff_eq, bne_iff_ne]
    obtain hlow | ⟨-, hfour, hhundred⟩ := hfebruary hm
    · omega
    · omega
  rw [hdate]
  unfold exists? daysInMonth
  by_cases hm : month = 11
  · subst hm
    have hday : day + 1 ≤ if isLeapYear (era * 400 + year + 1) then 29 else 28 := by
      split
      · next => omega
      · next hno =>
        obtain hlow | ⟨hd, -⟩ := hfebruary rfl
        · omega
        · exact absurd (hleap rfl hd) hno
    simpa using hday
  · interval_cases month
    all_goals simp at *
    all_goals omega

/-- The day number of the date of a day number is this number. -/
theorem toDays_ofDays (n : Int) : (ofDays n).toDays = n := by
  obtain ⟨era, year, month, day, hfalls, hdate⟩ := ofDays_spec n
  obtain ⟨hyear, hmonth, hday, -, -, hnumber⟩ := hfalls
  rw [hdate]
  unfold toDays
  by_cases hm : month < 10
  · have hback : (month + 3 + 9) % 12 = month := by omega
    simp only [if_pos hm, hback]
    rw [if_neg (by omega)]
    omega
  · have hback : (month - 9 + 9) % 12 = month := by omega
    simp only [if_neg hm, hback]
    rw [if_pos (by omega)]
    omega

/-- The days of the time line fall into the years of the calendar. -/
theorem year_ofDays {n : Int} (hfirst : Instant.firstSecond / 86400 ≤ n)
    (hlast : n ≤ Instant.lastSecond / 86400) :
    Instant.firstYear ≤ (ofDays n).year ∧ (ofDays n).year ≤ Instant.lastYear := by
  obtain ⟨era, year, month, day, hfalls, hdate⟩ := ofDays_spec n
  obtain ⟨hyear, hmonth, hday, -, hfebruary, hnumber⟩ := hfalls
  unfold Instant.firstSecond at hfirst
  unfold Instant.lastSecond at hlast
  unfold Instant.firstYear Instant.lastYear
  have hera : -656 ≤ era ∧ era ≤ 655 := by omega
  rw [hdate]
  dsimp only
  -- only in the first and in the last era the days do not fill all years
  by_cases hfirstEra : era = -656
  · subst hfirstEra
    split
    · omega
    · omega
  · by_cases hlastEra : era = 655
    · subst hlastEra
      split
      · omega
      · omega
    · split
      · omega
      · omega

/-- A date has a year, a month and a day that are written in as many digits as they have. -/
theorem month_ofDays (n : Int) : (ofDays n).month < 100 ∧ (ofDays n).day < 100 := by
  obtain ⟨era, year, month, day, hfalls, hdate⟩ := ofDays_spec n
  obtain ⟨-, hmonth, hday, -, -, -⟩ := hfalls
  rw [hdate]
  dsimp only
  split
  · omega
  · omega

end ComputePool.Date
