import Mathlib.Tactic.IntervalCases

/-! # Certificate dates

`parsed_time` turns the date of a certificate into seconds since 1970 with a closed formula
in which the year begins in March. The calendar is stated here by the lengths of its years
and months, and the formula is shown to count its days.
-/

namespace WendyLite.Pki.Date

/-- `mbedtls_x509_time`. -/
structure X509Time where
  year : Int
  mon : Int
  day : Int
  hour : Int
  min : Int
  sec : Int
  deriving DecidableEq

/-- A result in a signed type of `bits + 1` bits; none is an overflow. -/
def signed (bits : Nat) (value : Int) : Option Int :=
  if -2 ^ bits ≤ value ∧ value < 2 ^ bits then some value else none

/-- The variable `seconds`. -/
def seconds (t : X509Time) : Option Int := do
  let year ← signed 31 (t.year - if t.mon ≤ 2 then 1 else 0)
  let era := year.tdiv 400
  let eraYears ← signed 31 (era * 400)
  let yy ← signed 31 (year - eraYears)
  let month ← signed 31 (t.mon + if t.mon > 2 then -3 else 9)
  let scaled ← signed 31 (153 * month)
  let shifted ← signed 31 (scaled + 2)
  let ordinal ← signed 31 (shifted.tdiv 5 + t.day)
  let doy ← signed 31 (ordinal - 1)
  let eraDays ← signed 63 (era * 146097)
  let yearDays ← signed 31 (yy * 365)
  let days ← signed 63 (eraDays + yearDays)
  let days ← signed 63 (days + yy.tdiv 4)
  let days ← signed 63 (days - yy.tdiv 100)
  let days ← signed 63 (days + doy)
  let days ← signed 63 (days - 719468)
  let total ← signed 63 (days * 86400)
  let hours ← signed 31 (t.hour * 3600)
  let total ← signed 63 (total + hours)
  let minutes ← signed 31 (t.min * 60)
  let total ← signed 63 (total + minutes)
  signed 63 (total + t.sec)

/-- `parsed_time`, with `time_t` a signed type of `width + 1` bits. The outer none is an
overflow, the inner one the result -1. -/
def parsedTime (width : Nat) (t : X509Time) : Option (Option Int) :=
  if 1970 ≤ t.year ∧ t.year ≤ 9999 then do
    let seconds ← seconds t
    let value := seconds.bmod (2 ^ (width + 1))
    return if 0 ≤ seconds ∧ value = seconds then some value else none
  else some none

/-! ## The calendar -/

def Leap (year : Nat) : Prop := year % 4 = 0 ∧ (year % 100 ≠ 0 ∨ year % 400 = 0)

instance (year : Nat) : Decidable (Leap year) := inferInstanceAs (Decidable (_ ∧ _))

def yearDays (year : Nat) : Nat := if Leap year then 366 else 365

def monthDays (year : Nat) : Nat → Nat
  | 2 => if Leap year then 29 else 28
  | 4 | 6 | 9 | 11 => 30
  | _ => 31

def daysOfYears : Nat → Nat
  | 0 => 0
  | years + 1 => daysOfYears years + yearDays (1970 + years)

def daysOfMonths (year : Nat) : Nat → Nat
  | 0 => 0
  | months + 1 => daysOfMonths year months + monthDays year (months + 1)

/-- A second of the Gregorian calendar in the years of four digits from 1970 on. -/
structure Instant where
  year : Nat
  month : Nat
  day : Nat
  hour : Nat
  minute : Nat
  second : Nat
  year_ge : 1970 ≤ year
  year_le : year ≤ 9999
  month_pos : 1 ≤ month
  month_le : month ≤ 12
  day_pos : 1 ≤ day
  day_le : day ≤ monthDays year month
  hour_lt : hour < 24
  minute_lt : minute < 60
  second_lt : second < 60

namespace Instant

variable (i j : Instant)

def parsed : X509Time := ⟨i.year, i.month, i.day, i.hour, i.minute, i.second⟩

def days : Nat :=
  daysOfYears (i.year - 1970) + daysOfMonths i.year (i.month - 1) + (i.day - 1)

def secondOfDay : Nat := i.hour * 3600 + i.minute * 60 + i.second

def sinceEpoch : Nat := i.days * 86400 + i.secondOfDay

def Earlier : Prop :=
  i.year < j.year ∨ i.year = j.year ∧ (i.month < j.month ∨ i.month = j.month ∧ i.day < j.day)

def Tomorrow : Prop :=
  (j.year = i.year ∧ j.month = i.month ∧ j.day = i.day + 1) ∨
    i.day = monthDays i.year i.month ∧ j.day = 1 ∧
      ((j.year = i.year ∧ j.month = i.month + 1) ∨ i.month = 12 ∧ j.month = 1 ∧ j.year = i.year + 1)

end Instant

/-! ## Years and months -/

lemma daysOfYears_eq (years : Nat) : daysOfYears years + (1969 + years) / 100 + 477 =
      365 * years + (1969 + years) / 4 + (1969 + years) / 400 := by
  induction years with
  | zero => rfl
  | succ years ih =>
    rw [daysOfYears, yearDays]
    split
    · next leap =>
      rw [Leap] at leap
      omega
    next common =>
    rw [Leap] at common
    omega

/-- A year from March on, as the formula has it. -/
lemma daysOfMonths_eq (year : Nat) (positive : 1 ≤ month) (bounded : month ≤ 12) :
    daysOfMonths year (month - 1) + (if month ≤ 2 then 306 else 0) =
      (153 * (if 2 < month then month - 3 else month + 9) + 2) / 5 +
        (if month ≤ 2 then 0 else if Leap year then 60 else 59) := by
  interval_cases month <;> simp [daysOfMonths, monthDays] <;> split <;> rfl

lemma daysOfYears_mono : Monotone daysOfYears :=
  monotone_nat_of_le_succ fun _ => Nat.le_add_right _ _

lemma daysOfMonths_mono (year : Nat) : Monotone (daysOfMonths year) :=
  monotone_nat_of_le_succ fun _ => Nat.le_add_right _ _

lemma daysOfMonths_twelve (year : Nat) : daysOfMonths year 12 = yearDays year := by
  simp only [daysOfMonths, monthDays, yearDays]
  split <;> rfl

namespace Instant

variable {i j : Instant}

lemma day_in_year (i : Instant) : daysOfMonths i.year (i.month - 1) + (i.day - 1) <
    daysOfMonths i.year i.month := by
  have split : daysOfMonths i.year (i.month - 1 + 1) =
      daysOfMonths i.year (i.month - 1) + monthDays i.year (i.month - 1 + 1) := rfl
  have positive := i.month_pos
  have first := i.day_pos
  have last := i.day_le
  rw [Nat.sub_add_cancel positive] at split
  omega

lemma days_lt (earlier : i.Earlier j) : i.days < j.days := by
  have inYear := i.day_in_year
  have since := i.year_ge
  have firstMonth := i.month_pos
  have firstDay := i.day_pos
  unfold days
  obtain years | ⟨sameYear, months | ⟨sameMonth, days⟩⟩ := earlier
  · have year : daysOfYears (i.year - 1970 + 1) =
        daysOfYears (i.year - 1970) + yearDays (1970 + (i.year - 1970)) := rfl
    rw [Nat.add_sub_cancel' since, ← daysOfMonths_twelve] at year
    have months := daysOfMonths_mono i.year i.month_le
    have passed : daysOfYears (i.year - 1970 + 1) ≤ daysOfYears (j.year - 1970) :=
      daysOfYears_mono (by omega)
    omega
  · have passed : daysOfMonths i.year i.month ≤ daysOfMonths i.year (j.month - 1) :=
      daysOfMonths_mono i.year (by omega)
    rw [← sameYear]
    omega
  rw [← sameYear, ← sameMonth]
  omega

lemma days_tomorrow (tomorrow : i.Tomorrow j) : j.days = i.days + 1 := by
  have since := i.year_ge
  have firstMonth := i.month_pos
  have firstDay := i.day_pos
  have month : daysOfMonths i.year (i.month - 1 + 1) =
      daysOfMonths i.year (i.month - 1) + monthDays i.year (i.month - 1 + 1) := rfl
  rw [Nat.sub_add_cancel firstMonth] at month
  unfold days
  obtain ⟨year, sameMonth, day⟩ | ⟨last, first, ⟨year, next⟩ | ⟨december, january, year⟩⟩ := tomorrow
  · rw [year, sameMonth, day]
    omega
  · rw [year, next, first, Nat.add_sub_cancel]
    omega
  have years : daysOfYears (i.year - 1970 + 1) =
      daysOfYears (i.year - 1970) + yearDays (1970 + (i.year - 1970)) := rfl
  have whole := daysOfMonths_twelve i.year
  rw [Nat.add_sub_cancel' since] at years
  rw [year, january, first, Nat.sub_self, daysOfMonths, Nat.sub_add_comm since, years]
  rw [december] at month last ⊢
  omega

end Instant

/-! ## The formula -/

lemma signed_bind (fits : -2 ^ bits ≤ value ∧ value < 2 ^ bits) :
    (signed bits value).bind rest = rest value := by
  rw [signed, if_pos fits, Option.bind_some]

lemma monthDays_le (year month : Nat) : monthDays year month ≤ 31 := by
  unfold monthDays
  split
  · split <;> decide
  all_goals decide

/-- No step of the formula overflows. -/
lemma seconds_formula (isYear : (civil - if mon ≤ 2 then 1 else 0) = year)
    (isMonth : (mon + if mon > 2 then -3 else 9) = month) (years : 1969 ≤ year ∧ year ≤ 9999)
    (months : 0 ≤ month ∧ month ≤ 11) (days : 1 ≤ day ∧ day ≤ 31) (hours : 0 ≤ hour ∧ hour < 24)
    (minutes : 0 ≤ minute ∧ minute < 60) (seconds : 0 ≤ second ∧ second < 60) :
    Date.seconds ⟨civil, mon, day, hour, minute, second⟩ =
      some ((365 * year + year / 4 - year / 100 + year / 400 + (153 * month + 2) / 5 + day -
        719469) * 86400 + hour * 3600 + minute * 60 + second) := by
  obtain ⟨era, isEra⟩ : ∃ era, year / 400 = era := ⟨_, rfl⟩
  obtain ⟨yy, isYy⟩ : ∃ yy, year - era * 400 = yy := ⟨_, rfl⟩
  unfold Date.seconds
  simp only [Option.bind_eq_bind]
  rw [isYear, isMonth, signed_bind (by omega), Int.tdiv_eq_ediv_of_nonneg (by omega), isEra,
    signed_bind (by omega), isYy, signed_bind (by omega), signed_bind (by omega), signed_bind (by omega),
    signed_bind (by omega), Int.tdiv_eq_ediv_of_nonneg (by omega), signed_bind (by omega),
    signed_bind (by omega), signed_bind (by omega), signed_bind (by omega), signed_bind (by omega),
    Int.tdiv_eq_ediv_of_nonneg (by omega), signed_bind (by omega),
    Int.tdiv_eq_ediv_of_nonneg (by omega), signed_bind (by omega), signed_bind (by omega)]
  have formula : era * 146097 + yy * 365 + yy / 4 - yy / 100 + ((153 * month + 2) / 5 + day - 1) -
      719468 = 365 * year + year / 4 - year / 100 + year / 400 + (153 * month + 2) / 5 + day -
        719469 := by
    omega
  rw [formula, isEra]
  generalize isDays : 365 * year + year / 4 - year / 100 + era + (153 * month + 2) / 5 + day -
    719469 = total
  have bounded : -2 ^ 40 ≤ total ∧ total < 2 ^ 40 := by omega
  rw [signed_bind (by omega), signed_bind (by omega), signed_bind (by omega), signed_bind (by omega),
    signed_bind (by omega), signed_bind (by omega), signed, if_pos (by omega)]

/-- The closed formula counts the days of the calendar. -/
lemma seconds_eq (i : Instant) : seconds i.parsed = some (i.sinceEpoch : Int) := by
  rcases i with ⟨year, month, day, hour, minute, second, since, latest, firstMonth, lastMonth,
    firstDay, lastDay, hours, minutes, seconds⟩
  have short := monthDays_le year month
  have years := daysOfYears_eq (year - 1970)
  have months := daysOfMonths_eq year firstMonth lastMonth
  simp only [Instant.parsed, Instant.sinceEpoch, Instant.days, Instant.secondOfDay]
  obtain late | early := Nat.lt_or_ge 2 month
  · rw [if_neg (by omega), if_pos late, if_neg (by omega)] at months
    have isYear : ((year : Int) - if (month : Int) ≤ 2 then 1 else 0) = year := by
      rw [if_neg (by omega), Int.sub_zero]
    have isMonth : ((month : Int) + if (month : Int) > 2 then -3 else 9) = month - 3 :=
      congrArg _ (if_pos (by omega))
    rw [seconds_formula isYear isMonth (by omega) (by omega) (by omega) (by omega) (by omega)
      (by omega)]
    congr 1
    split at months
    · next leap =>
      rw [Leap] at leap
      omega
    next common =>
    rw [Leap] at common
    omega
  rw [if_pos early, if_neg (by omega), if_pos early] at months
  have isYear : ((year : Int) - if (month : Int) ≤ 2 then 1 else 0) = year - 1 :=
    congrArg _ (if_pos (by omega))
  have isMonth : ((month : Int) + if (month : Int) > 2 then -3 else 9) = month + 9 :=
    congrArg _ (if_neg (by omega))
  rw [seconds_formula isYear isMonth (by omega) (by omega) (by omega) (by omega) (by omega)
    (by omega)]
  congr 1
  omega

lemma bmod_eq_iff {width : Nat} {value : Int} (positive : 0 ≤ value) :
    value.bmod (2 ^ (width + 1)) = value ↔ value < 2 ^ width := by
  have half : ((2 ^ (width + 1) : Nat) : Int) = 2 * 2 ^ width := by
    rw [Nat.pow_succ]
    push_cast
    omega
  constructor
  · intro same
    have below := @Int.bmod_lt value _ (Nat.two_pow_pos (width + 1))
    rw [same, half] at below
    omega
  intro below
  have nonneg : (0 : Int) ≤ 2 ^ width := by positivity
  apply Int.bmod_eq_of_le_mul_two
  · rw [half]
    omega
  rw [half]
  omega

/-- `parsed_time` returns the seconds since 1970 where they fit into `time_t`, and fails where
they do not. They grow with the date, by 86400 from a day to the next. -/
theorem parsed_time_counts_seconds (width : Nat) (i : Instant) : parsedTime width i.parsed =
        some (if i.sinceEpoch < 2 ^ width then some (i.sinceEpoch : Int) else none) ∧
      ∀ j : Instant, (i.Earlier j → i.sinceEpoch < j.sinceEpoch) ∧
        (i.Tomorrow j → j.secondOfDay = i.secondOfDay → j.sinceEpoch = i.sinceEpoch + 86400) := by
  refine ⟨?_, fun j => ⟨fun earlier => ?_, fun tomorrow same => ?_⟩⟩
  · have years : 1970 ≤ i.parsed.year ∧ i.parsed.year ≤ 9999 :=
      ⟨Int.ofNat_le.mpr i.year_ge, Int.ofNat_le.mpr i.year_le⟩
    have fits : (i.sinceEpoch : Int).bmod (2 ^ (width + 1)) = i.sinceEpoch ↔
        i.sinceEpoch < 2 ^ width := by
      rw [bmod_eq_iff (Int.natCast_nonneg _)]
      norm_cast
    rw [parsedTime, if_pos years, seconds_eq]
    change some (if _ ∧ _ then _ else _) = _
    by_cases below : i.sinceEpoch < 2 ^ width
    · rw [if_pos ⟨Int.natCast_nonneg _, fits.mpr below⟩, if_pos below, fits.mpr below]
    rw [if_neg fun both => below (fits.mp both.2), if_neg below]
  · have fewer := Instant.days_lt earlier
    have hour := i.hour_lt
    have minute := i.minute_lt
    have second := i.second_lt
    simp only [Instant.sinceEpoch, Instant.secondOfDay]
    omega
  rw [Instant.sinceEpoch, Instant.sinceEpoch, Instant.days_tomorrow tomorrow, same]
  omega

end WendyLite.Pki.Date
