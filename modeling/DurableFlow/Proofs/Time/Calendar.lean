import DurableFlow.Time.Instant
import Mathlib.Data.Int.Init
import Mathlib.Logic.Basic

/-!
# Days and dates

Every day has a date of the calendar, which counts back to it, and days follow each other as their
dates do. Years are counted from March here, as dates are computed.
-/

namespace DurableFlow

namespace CivilDate

section Eras

variable {d century four year day : Int}

/-- The parts of an era that a day of it lies in: a century, four years of it, and one of these.
Only the last of four years has a day more, and the last four years of a century have it if the
century is the last one. -/
structure Parts (d century four year day : Int) : Prop where
  centuries : 0 ≤ century ∧ century ≤ 3
  fours : 0 ≤ four ∧ four ≤ 24
  years : 0 ≤ year ∧ year ≤ 3
  days : 0 ≤ day ∧ day ≤ 365
  long : day = 365 → year = 3 ∧ (four = 24 → century = 3)
  sum : d = 36524 * century + (1461 * four + (365 * year + day))

theorem exists_parts (least : 0 ≤ d) (most : d < 146097) :
    ∃ century four year day, Parts d century four year day := by
  obtain ⟨century, rest, is, centuries, rests, last⟩ :
      ∃ century rest, d = 36524 * century + rest ∧ (0 ≤ century ∧ century ≤ 3) ∧
        (0 ≤ rest ∧ rest ≤ 36524) ∧ (rest = 36524 → century = 3) := by
    by_cases last : d = 146096
    · exact ⟨3, 36524, by omega⟩
    · exact ⟨d / 36524, d % 36524, by omega⟩
  obtain ⟨four, days, rfl, fours, dayss, last'⟩ :
      ∃ four days, rest = 1461 * four + days ∧ (0 ≤ four ∧ four ≤ 24) ∧
        (0 ≤ days ∧ days ≤ 1460) ∧ (four = 24 → days = 1460 → century = 3) :=
    ⟨rest / 1461, rest % 1461, by omega⟩
  obtain ⟨year, day, rfl, years, days, long⟩ :
      ∃ year day, days = 365 * year + day ∧ (0 ≤ year ∧ year ≤ 3) ∧ (0 ≤ day ∧ day ≤ 365) ∧
        (day = 365 → year = 3) := by
    by_cases last : days = 1460
    · exact ⟨3, 365, by omega⟩
    · exact ⟨days / 365, days % 365, by omega⟩
  refine ⟨century, four, year, day, centuries, fours, years, days, fun is => ?_, is⟩
  have third := long is
  exact ⟨third, fun four24 => last' four24 (by omega)⟩

/-- A day more is carried over from the years before only where there is one. -/
theorem Parts.carry (parts : Parts d century four year day) :
    0 ≤ day - (24 * century + four + 365 * year + day) / 1460 ∧
      day - (24 * century + four + 365 * year + day) / 1460 ≤ 364 := by
  have third : day = 365 → year = 3 := fun is => (parts.long is).1
  obtain ⟨centuries, fours, years, days, -, -⟩ := parts
  by_cases full : 1460 ≤ 24 * century + four + 365 * year + day
  · have one : (24 * century + four + 365 * year + day) / 1460 = 1 := by omega
    rw [one]
    omega
  · have vanishes : (24 * century + four + 365 * year + day) / 1460 = 0 := by omega
    rw [vanishes]
    omega

theorem Parts.century_eq (parts : Parts d century four year day) (most : d < 146097) :
    d / 36524 - d / 146096 = century := by
  obtain ⟨centuries, fours, years, days, long, is⟩ := parts
  by_cases last : d = 146096
  · subst last
    omega
  · have vanishes : d / 146096 = 0 := by omega
    rw [vanishes]
    omega

/-- The year of the era is computed as the parts say. -/
theorem Parts.year_eq (parts : Parts d century four year day) (most : d < 146097) :
    (d - d / 1460 + d / 36524 - d / 146096) / 365 = 100 * century + 4 * four + year := by
  have centuries := parts.century_eq most
  have carry := parts.carry
  have is := parts.sum
  have fours : d / 1460 =
      25 * century + four + (24 * century + four + 365 * year + day) / 1460 := by
    clear centuries carry
    omega
  generalize (24 * century + four + 365 * year + day) / 1460 = extra at carry fours
  have whole : d - d / 1460 + d / 36524 - d / 146096 =
      365 * (100 * century + 4 * four + year) + (day - extra) := by
    rw [fours]
    clear fours carry
    omega
  rw [whole]
  clear whole fours is centuries
  omega

end Eras

/-- The days before a year that begins in March. -/
def marchDays (year : Int) : Int := 365 * year + year / 4 - year / 100 + year / 400

/-- The days before a month of such a year. -/
def monthDays (month : Int) : Int := (153 * month + 2) / 5

theorem marchDays_step (year : Int) :
    marchDays year + 365 ≤ marchDays (year + 1) ∧ marchDays (year + 1) ≤ marchDays year + 366 := by
  unfold marchDays
  omega

theorem marchDays_mono {year later : Int} (le : year ≤ later) :
    marchDays year ≤ marchDays later := by
  induction later, le using Int.leInduction with
  | base => exact Int.le_refl _
  | succ later _ ih =>
    have := marchDays_step later
    omega

/-- A day and its date, with the year counted from March and the months from zero. -/
structure Marks (z year month day : Int) : Prop where
  months : 0 ≤ month ∧ month ≤ 11
  least : 1 ≤ day
  within : monthDays month + day ≤ monthDays (month + 1)
  ends : marchDays year + monthDays month + day ≤ marchDays (year + 1)
  sum : z + 719468 = marchDays year + monthDays month + day - 1

theorem toDays_eq (d : CivilDate) : toDays d =
    marchDays (if d.month ≤ 2 then d.year - 1 else d.year) +
      monthDays (((d.month : Int) + 9) % 12) + d.day - 1 - 719468 := by
  unfold toDays
  generalize (if d.month ≤ 2 then d.year - 1 else d.year) = year
  generalize ((d.month : Int) + 9) % 12 = month
  simp only [Int.fdiv_eq_ediv_of_nonneg year (show (0 : Int) ≤ 400 by decide), marchDays, monthDays]
  generalize (153 * month + 2) / 5 = before
  omega

theorem Parts.marchDays_eq {d century four year day : Int} (parts : Parts d century four year day)
    (era : Int) : marchDays (400 * era + (100 * century + 4 * four + year)) =
      146097 * era + d - day := by
  obtain ⟨centuries, fours, years, -, -, is⟩ := parts
  unfold marchDays
  omega

theorem Parts.lt_marchDays {d century four year day : Int} (parts : Parts d century four year day)
    (era : Int) : 146097 * era + d <
      marchDays (400 * era + (100 * century + 4 * four + year) + 1) := by
  have first := parts.marchDays_eq era
  have step := marchDays_step (400 * era + (100 * century + 4 * four + year))
  by_cases short : day ≤ 364
  · omega
  · obtain ⟨third, last⟩ := parts.long (by have := parts.days; omega)
    obtain ⟨centuries, fours, -, days, -, is⟩ := parts
    clear first step
    subst third
    unfold marchDays
    by_cases four24 : four = 24
    · have century3 := last four24
      subst four24 century3
      omega
    · omega

theorem Parts.day_eq {d century four year day : Int} (parts : Parts d century four year day) :
    d - (365 * (100 * century + 4 * four + year) + (100 * century + 4 * four + year) / 4 -
      (100 * century + 4 * four + year) / 100) = day := by
  obtain ⟨centuries, fours, years, -, -, is⟩ := parts
  omega

/-- The date of a day. -/
theorem exists_marks (z : Int) : ∃ year month day, Marks z year month day ∧
    ofDays z = ⟨if month < 10 then year else year + 1,
      (if month < 10 then month + 3 else month - 9).toNat, day.toNat⟩ := by
  obtain ⟨era, d, is, least, most⟩ :
      ∃ era d, z + 719468 = 146097 * era + d ∧ 0 ≤ d ∧ d < 146097 :=
    ⟨(z + 719468) / 146097, (z + 719468) % 146097, by omega⟩
  have whole : (z + 719468).fdiv 146097 = era := by
    rw [Int.fdiv_eq_ediv_of_nonneg _ (by decide)]
    omega
  have rest : z + 719468 - era * 146097 = d := by omega
  obtain ⟨century, four, year, day, parts⟩ := exists_parts least most
  have days := parts.days
  have first := parts.marchDays_eq era
  have last := parts.lt_marchDays era
  obtain ⟨month, found⟩ : ∃ month, (5 * day + 2) / 153 = month := ⟨_, rfl⟩
  refine ⟨400 * era + (100 * century + 4 * four + year), month, day - monthDays month + 1,
    ⟨?_, ?_, ?_, ?_, ?_⟩, ?_⟩
  · omega
  · unfold monthDays
    omega
  · unfold monthDays
    omega
  · omega
  · omega
  · unfold ofDays
    simp only [whole, rest, parts.year_eq most, parts.day_eq, found]
    have unit : (if (if month < 10 then month + 3 else month - 9) ≤ 2 then (1 : Int) else 0) =
        if month < 10 then 0 else 1 := by
      split <;> split <;> omega
    rw [unit, monthDays]
    congr 1
    split <;> omega

variable {z : Int}

/-- The date of a day counts back to it. -/
theorem toDays_ofDays (z : Int) : toDays (ofDays z) = z := by
  obtain ⟨year, month, day, marks, is⟩ := exists_marks z
  obtain ⟨months, least, -, -, sum⟩ := marks
  rw [is, toDays_eq]
  dsimp only
  by_cases late : month < 10
  · rw [if_pos late, if_pos late, if_neg (by omega), Int.toNat_of_nonneg (by omega),
      Int.toNat_of_nonneg (by omega), show (month + 3 + 9) % 12 = month by omega]
    omega
  · rw [if_neg late, if_neg late, if_pos (by omega), Int.toNat_of_nonneg (by omega),
      Int.toNat_of_nonneg (by omega), show (month - 9 + 9) % 12 = month by omega,
      Int.add_sub_cancel]
    omega

theorem isLeapYear_of_marchDays {year : Int} (long : marchDays year + 366 ≤ marchDays (year + 1)) :
    isLeapYear (year + 1) = true := by
  unfold marchDays at long
  simp only [isLeapYear, Bool.and_eq_true, Bool.or_eq_true, decide_eq_true_eq, ne_eq, decide_not,
    Bool.not_eq_true', decide_eq_false_iff_not]
  omega

/-- The date of a day has a month of the year and a day of the month. -/
theorem day_le_daysInMonth (z : Int) :
    1 ≤ (ofDays z).month ∧ (ofDays z).month ≤ 12 ∧ 1 ≤ (ofDays z).day ∧
      (ofDays z).day ≤ daysInMonth (ofDays z).year (ofDays z).month := by
  obtain ⟨year, month, day, marks, is⟩ := exists_marks z
  obtain ⟨⟨first, last⟩, least, within, ends, -⟩ := marks
  have step := marchDays_step year
  have leap := @isLeapYear_of_marchDays year
  rw [is]
  clear is
  unfold monthDays at within ends
  generalize marchDays (year + 1) = later at *
  generalize marchDays year = days at *
  refine ⟨by dsimp only; split <;> omega, by dsimp only; split <;> omega,
    by dsimp only; omega, ?_⟩
  have among : month = 0 ∨ month = 1 ∨ month = 2 ∨ month = 3 ∨ month = 4 ∨ month = 5 ∨
      month = 6 ∨ month = 7 ∨ month = 8 ∨ month = 9 ∨ month = 10 ∨ month = 11 := by omega
  by_cases february : month = 11
  · subst february
    show day.toNat ≤ if isLeapYear (year + 1) then 29 else 28
    by_cases long : days + 366 ≤ later
    · rw [leap long]
      show day.toNat ≤ 29
      omega
    · split <;> omega
  · have full : day ≤ (153 * (month + 1) + 2) / 5 - (153 * month + 2) / 5 := by omega
    clear within ends leap step
    rcases among with rfl | rfl | rfl | rfl | rfl | rfl | rfl | rfl | rfl | rfl | rfl | rfl
    all_goals first
      | exact absurd rfl february
      | exact Int.toNat_le.mpr full

/-- Days follow each other as the years, months and days that are counted from March. -/
theorem Marks.lt_iff {z' year month day year' month' day' : Int} (marks : Marks z year month day)
    (marks' : Marks z' year' month' day') :
    z < z' ↔ year < year' ∨ year = year' ∧ (month < month' ∨ month = month' ∧ day < day') := by
  obtain ⟨months, least, within, ends, sum⟩ := marks
  obtain ⟨months', least', within', ends', sum'⟩ := marks'
  have monthDays_mono : ∀ m n : Int, m ≤ n → monthDays m ≤ monthDays n := by
    unfold monthDays
    omega
  have zero : monthDays 0 = 0 := by decide
  have first := monthDays_mono 0 month months.1
  have first' := monthDays_mono 0 month' months'.1
  rcases Int.lt_trichotomy year year' with before | rfl | after
  · have order := marchDays_mono (show year + 1 ≤ year' from before)
    omega
  · rcases Int.lt_trichotomy month month' with before | rfl | after
    · have order := monthDays_mono (month + 1) month' before
      omega
    · omega
    · have order := monthDays_mono (month' + 1) month after
      omega
  · have order := marchDays_mono (show year' + 1 ≤ year from after)
    omega

/-- The order of dates. -/
def Before (d e : CivilDate) : Prop :=
  d.year < e.year ∨ d.year = e.year ∧ (d.month < e.month ∨ d.month = e.month ∧ d.day < e.day)

/-- Days follow each other as their dates do. -/
theorem ofDays_before_iff (z z' : Int) : (ofDays z).Before (ofDays z') ↔ z < z' := by
  obtain ⟨year, month, day, marks, is⟩ := exists_marks z
  obtain ⟨year', month', day', marks', is'⟩ := exists_marks z'
  have months := marks.months
  have months' := marks'.months
  have least := marks.least
  have least' := marks'.least
  rw [marks.lt_iff marks', is, is', Before]
  dsimp only
  clear marks marks' is is'
  by_cases late : month < 10 <;> by_cases late' : month' < 10
  all_goals
    simp only [late, late', if_true, if_false]
    omega

/-- A day between the first and the last one of the calendar has a date of it. -/
theorem valid_ofDays {z : Int} (least : toDays ⟨minYear, 1, 1⟩ ≤ z)
    (most : z ≤ toDays ⟨maxYear, 12, 31⟩) : (ofDays z).Valid := by
  have first : ofDays (toDays ⟨minYear, 1, 1⟩) = ⟨minYear, 1, 1⟩ := by decide
  have last : ofDays (toDays ⟨maxYear, 12, 31⟩) = ⟨maxYear, 12, 31⟩ := by decide
  have after := (ofDays_before_iff z (toDays ⟨minYear, 1, 1⟩)).mp.mt (by omega)
  have before := (ofDays_before_iff (toDays ⟨maxYear, 12, 31⟩) z).mp.mt (by omega)
  rw [first, Before] at after
  rw [last, Before] at before
  dsimp only at after before
  exact ⟨by omega, by omega, day_le_daysInMonth z⟩

end CivilDate

end DurableFlow
