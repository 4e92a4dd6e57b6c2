import Mathlib

/-!
# Civil dates and day numbers

The release gate turns an expiry date into a number of days since 1970; the request signer of the
object storage turns such a number into a date. Both count years from March, so that the leap day is
the last day of a year, and days within eras of 400 years.

No `i64` value overflows while the year is an `i32`. The year is cast to `i32` before one is added to
it for January and February, and that addition can overflow: debug builds panic then, release builds
wrap.
-/

namespace Roze.Calendar

/-! ## The conversions -/

def daysFromCivil (year month day : Int) : Int :=
  let year := year - if month ≤ 2 then 1 else 0
  let era := (if 0 ≤ year then year else year - 399).tdiv 400
  let yearOfEra := year - era * 400
  let adjustedMonth := month + if 2 < month then -3 else 9
  let dayOfYear := (153 * adjustedMonth + 2).tdiv 5 + day - 1
  let dayOfEra := yearOfEra * 365 + yearOfEra.tdiv 4 - yearOfEra.tdiv 100 + dayOfYear
  era * 146097 + dayOfEra - 719468

/-- What a build does where a sum leaves its type. -/
inductive Overflow
  | panics
  | wraps

/-- The sum of two `i32` values. -/
def addI32 (overflow : Overflow) (left right : Int) : Option Int :=
  if -2 ^ 31 ≤ left + right ∧ left + right < 2 ^ 31 then some (left + right)
  else match overflow with
    | .panics => none
    | .wraps => some ((left + right).bmod (2 ^ 32))

def civilFromDays (overflow : Overflow) (days : Int) : Option (Int × Int × Int) :=
  let z := days + 719468
  let era := (if 0 ≤ z then z else z - 146096).tdiv 146097
  let doe := z - era * 146097
  let yoe := (doe - doe.tdiv 1460 + doe.tdiv 36524 - doe.tdiv 146096).tdiv 365
  let y := yoe + era * 400
  let doy := doe - (365 * yoe + yoe.tdiv 4 - yoe.tdiv 100)
  let mp := (5 * doy + 2).tdiv 153
  let d := doy - (153 * mp + 2).tdiv 5 + 1
  let m := mp + if mp < 10 then 3 else -9
  (addI32 overflow (y.bmod (2 ^ 32)) (if m ≤ 2 then 1 else 0)).map
    (fun year => (year, m % 2 ^ 32, d % 2 ^ 32))

/-! ## The calendar -/

def isLeap (year : Int) : Bool := year % 4 = 0 ∧ (year % 100 ≠ 0 ∨ year % 400 = 0)

def daysInMonth (year month : Int) : Int :=
  if month = 2 then if isLeap year then 29 else 28
  else if month = 4 ∨ month = 6 ∨ month = 9 ∨ month = 11 then 30 else 31

theorem daysInMonth_pos (year month : Int) : 0 < daysInMonth year month := by
  unfold daysInMonth
  split_ifs <;> decide

/-- A date of the proleptic Gregorian calendar. -/
structure Date where
  year : Int
  month : Int
  day : Int
  month_pos : 0 < month
  month_le : month ≤ 12
  day_pos : 0 < day
  day_le : day ≤ daysInMonth year month

namespace Date

def number (date : Date) : Int := daysFromCivil date.year date.month date.day

/-- The date after a date. -/
def next (date : Date) : Date :=
  if within : date.day < daysInMonth date.year date.month then
    { date with
      day := date.day + 1
      day_pos := date.day_pos.trans (Int.lt_succ _)
      day_le := within }
  else if early : date.month < 12 then
    { date with
      month := date.month + 1
      day := 1
      month_pos := date.month_pos.trans (Int.lt_succ _)
      month_le := early
      day_pos := Int.one_pos
      day_le := daysInMonth_pos _ _ }
  else ⟨date.year + 1, 1, 1, Int.one_pos, by decide, Int.one_pos, daysInMonth_pos _ _⟩

end Date

/-! ## Years from March -/

/-- The days before the first of March of a year, counted from that of the year zero. -/
def marchDay (year : Int) : Int := 365 * year + year / 4 - year / 100 + year / 400

theorem marchDay_succ (year : Int) :
    marchDay (year + 1) = marchDay year + if isLeap (year + 1) then 366 else 365 := by
  simp only [marchDay, isLeap, decide_eq_true_eq]
  split <;> omega

theorem marchDay_cycle (year era : Int) :
    marchDay (year + 400 * era) = marchDay year + 146097 * era := by
  simp only [marchDay]
  omega

/-- The estimate of the year from the day of an era is exact. Proof: the two last quotients differ by
the number of centuries, and the first one is the number of leap days, or one more where the day of the
year makes up for it. -/
theorem yearOfEra_eq {year day doe : Int} (nonneg : 0 ≤ year) (small : year < 400) (first : 0 ≤ day)
    (last : doe < marchDay (year + 1)) (number : doe = marchDay year + day) :
    (doe - doe / 1460 + doe / 36524 - doe / 146096) / 365 = year := by
  have leap : day < 365 ∨ day = 365 ∧ year % 4 = 3 ∧ (year % 100 ≠ 99 ∨ year = 399) := by
    rw [marchDay_succ] at last
    split at last
    · rename_i leap
      simp only [isLeap, decide_eq_true_eq] at leap
      omega
    · omega
  have whole : doe = 365 * year + year / 4 - year / 100 + day := by
    rw [number, marchDay]
    omega
  have centuries : doe / 36524 - doe / 146096 = year / 100 := by
    have low : 36524 * (year / 100) ≤ doe := by omega
    grind
  omega

/-- The year of a month when years begin in March. -/
def marchYear (year month : Int) : Int := year - if month ≤ 2 then 1 else 0

/-- The day within such a year, counted from zero. -/
def dayOfYear (month day : Int) : Int :=
  (153 * (month + if 2 < month then -3 else 9) + 2) / 5 + day - 1

theorem daysFromCivil_eq (year day : Int) {month : Int} (positive : 0 < month) :
    daysFromCivil year month day =
      marchDay (marchYear year month) + dayOfYear month day - 719468 := by
  have shifted : 0 ≤ 153 * (month + if 2 < month then -3 else 9) + 2 := by
    split <;> omega
  simp only [daysFromCivil, dayOfYear, marchYear, Int.tdiv_eq_ediv_of_nonneg shifted]
  generalize (year - if month ≤ 2 then 1 else 0) = march
  have era : (if 0 ≤ march then march else march - 399).tdiv 400 = march / 400 := by grind
  have rest : march - march / 400 * 400 = march % 400 := by omega
  have nonneg : 0 ≤ march % 400 := by omega
  rw [era, rest, Int.tdiv_eq_ediv_of_nonneg nonneg, Int.tdiv_eq_ediv_of_nonneg nonneg, marchDay]
  omega

namespace Date

variable (date : Date)

theorem ranges : date.day ≤ 31 ∧ (date.month = 2 → date.day ≤ 29) ∧
    (date.month = 4 ∨ date.month = 6 ∨ date.month = 9 ∨ date.month = 11 → date.day ≤ 30) := by
  have last := date.day_le
  unfold daysInMonth at last
  split_ifs at last <;> omega

/-- The day of the year lies within it and gives the month and the day of the month back. -/
theorem dayOfYear_spec :
    let day := dayOfYear date.month date.day
    let march := marchYear date.year date.month
    let mp := (5 * day + 2) / 153
    0 ≤ day ∧ marchDay march + day < marchDay (march + 1) ∧
      mp + (if mp < 10 then 3 else -9) = date.month ∧ day - (153 * mp + 2) / 5 + 1 = date.day := by
  have short := date.ranges
  obtain ⟨year, month, day, month_pos, month_le, day_pos, day_le⟩ := date
  dsimp only at short
  simp only [marchDay_succ, dayOfYear, marchYear, daysInMonth] at day_le ⊢
  interval_cases month <;> simp at * <;> split_ifs at * <;> omega

/-- The second conversion undoes the first up to the addition of one to the year. -/
theorem civilFromDays_number (overflow : Overflow) :
    civilFromDays overflow date.number =
      (addI32 overflow ((marchYear date.year date.month).bmod (2 ^ 32))
        (if date.month ≤ 2 then 1 else 0)).map (fun year => (year, date.month, date.day)) := by
  obtain ⟨first, last, month, day⟩ := date.dayOfYear_spec
  have small : date.month % 2 ^ 32 = date.month := by
    have := date.month_pos
    have := date.month_le
    omega
  have short : date.day % 2 ^ 32 = date.day := by omega
  rw [number, daysFromCivil_eq _ _ date.month_pos]
  generalize marchYear date.year date.month = march at *
  generalize dayOfYear date.month date.day = doy at *
  have split : march % 400 + 400 * (march / 400) = march := Int.emod_add_mul_ediv march 400
  have cycle := marchDay_cycle (march % 400) (march / 400)
  have following := marchDay_cycle (march % 400 + 1) (march / 400)
  rw [add_right_comm, split] at following
  rw [split] at cycle
  have nonneg : 0 ≤ march % 400 := by omega
  have yoe := yearOfEra_eq nonneg (by omega) first (by omega) rfl
  have plain : marchDay (march % 400) =
      365 * (march % 400) + march % 400 / 4 - march % 400 / 100 := by
    rw [marchDay]
    omega
  have high : marchDay (march % 400 + 1) ≤ 146097 := by
    rw [marchDay]
    omega
  have era : (if 0 ≤ marchDay march + doy then marchDay march + doy
      else marchDay march + doy - 146096).tdiv 146097 = march / 400 := by
    rw [Int.tdiv_eq_ediv, Int.sign_eq_one_of_pos (by decide)]
    omega
  have doe : marchDay march + doy - march / 400 * 146097 = marchDay (march % 400) + doy := by omega
  have left : marchDay (march % 400) + doy - marchDay (march % 400) = doy := by omega
  have inside : 0 ≤ marchDay (march % 400) + doy := by omega
  have scaled := (Int.ediv_nonneg_iff_of_pos (by decide)).mp (nonneg.trans yoe.ge)
  have months : 0 ≤ 5 * doy + 2 := by omega
  have shifted : 0 ≤ 153 * ((5 * doy + 2) / 153) + 2 := by omega
  simp only [civilFromDays, sub_add_cancel, era, doe, Int.tdiv_eq_ediv_of_nonneg inside]
  rw [Int.tdiv_eq_ediv_of_nonneg scaled, yoe, Int.tdiv_eq_ediv_of_nonneg nonneg,
    Int.tdiv_eq_ediv_of_nonneg nonneg, ← plain, left, Int.tdiv_eq_ediv_of_nonneg months,
    Int.tdiv_eq_ediv_of_nonneg shifted, mul_comm (march / 400), split, month, day, small, short]

theorem number_next : date.next.number = date.number + 1 := by
  obtain ⟨year, month, day, month_pos, month_le, day_pos, day_le⟩ := date
  unfold next number
  dsimp only
  split
  · dsimp only
    rw [daysFromCivil_eq _ _ month_pos, daysFromCivil_eq _ _ month_pos, dayOfYear, dayOfYear]
    ring
  · obtain rfl : day = daysInMonth year month := by omega
    split
    · have leap := marchDay_succ (year - 1)
      rw [sub_add_cancel] at leap
      dsimp only
      rw [daysFromCivil_eq _ _ month_pos, daysFromCivil_eq _ _ (by omega)]
      simp only [daysInMonth, dayOfYear, marchYear]
      grind
    · obtain rfl : month = 12 := by omega
      dsimp only
      rw [daysFromCivil_eq _ _ month_pos, daysFromCivil_eq _ _ (by decide)]
      simp [daysInMonth, dayOfYear, marchYear]
      omega

theorem number_iterate (count : Nat) : (next^[count] date).number = date.number + count := by
  induction count with
  | zero => simp
  | succ count ih =>
    rw [Function.iterate_succ_apply', number_next, ih]
    push_cast
    ring

variable {date}

/-- Every number is that of a date: one lies below it, and the next ones follow. -/
theorem exists_number (days : Int) : ∃ date : Date, date.number = days := by
  let early : Date := ⟨min days 0, 3, 1, by decide, by decide, Int.one_pos, daysInMonth_pos _ _⟩
  have low : early.number ≤ days := by
    have march : marchYear (min days 0) 3 = min days 0 := sub_zero _
    have first : dayOfYear 3 1 = 0 := rfl
    change daysFromCivil (min days 0) 3 1 ≤ days
    rw [daysFromCivil_eq _ _ (by decide), march, first, marchDay]
    omega
  refine ⟨next^[(days - early.number).toNat] early, ?_⟩
  rw [number_iterate]
  omega

/-- The build panics, as it adds one to the greatest value of the type. -/
def Panics (overflow : Overflow) (date : Date) : Prop :=
  overflow = .panics ∧ date.year = -2 ^ 31 ∧ date.month ≤ 2

theorem civilFromDays_inverse (overflow : Overflow) (low : -2 ^ 31 ≤ date.year)
    (high : date.year < 2 ^ 31) :
    (date.Panics overflow ∧ civilFromDays overflow date.number = none) ∨
      (¬ date.Panics overflow ∧
        civilFromDays overflow date.number = some (date.year, date.month, date.day)) := by
  rw [civilFromDays_number, marchYear]
  by_cases least : date.year = -2 ^ 31 ∧ date.month ≤ 2
  · rw [if_pos least.2, least.1]
    cases overflow with
    | panics => exact .inl ⟨⟨rfl, least⟩, rfl⟩
    | wraps => exact .inr ⟨fun edge => Overflow.noConfusion edge.1, rfl⟩
  · have inside : (date.year - if date.month ≤ 2 then 1 else 0).bmod (2 ^ 32) =
        date.year - if date.month ≤ 2 then 1 else 0 := Int.bmod_eq_of_le (by omega) (by omega)
    refine .inr ⟨fun edge => least edge.2, ?_⟩
    unfold addI32
    simp_all

end Date

open Date

/-- For every date whose year is an `i32` the conversions undo each other, and so they do for every
day number of such a year, except where the last addition panics. The date some days later has the
number that is greater by as many. -/
theorem civil_conversions_iff (overflow : Overflow) :
    (∀ date : Date, -2 ^ 31 ≤ date.year → date.year < 2 ^ 31 →
      (civilFromDays overflow date.number = some (date.year, date.month, date.day) ↔
        ¬ date.Panics overflow)) ∧
    (∀ days, ∃ date : Date, date.number = days ∧ (-2 ^ 31 ≤ date.year → date.year < 2 ^ 31 →
      ((∃ year month day, civilFromDays overflow days = some (year, month, day) ∧
        daysFromCivil year month day = days) ↔ ¬ date.Panics overflow))) ∧
    ∀ (date : Date) (count : Nat), (next^[count] date).number = date.number + count := by
  refine ⟨fun date low high => ?_, fun days => ?_, number_iterate⟩
  · rcases civilFromDays_inverse overflow low high with ⟨edge, found⟩ | ⟨safe, found⟩
    · simp [found, edge]
    · simp [found, safe]
  · obtain ⟨date, rfl⟩ := exists_number days
    refine ⟨date, rfl, fun low high => ?_⟩
    rcases civilFromDays_inverse overflow low high with ⟨edge, found⟩ | ⟨safe, found⟩
    · simp [found, edge]
    · exact ⟨fun _ => safe, fun _ => ⟨_, _, _, found, rfl⟩⟩

theorem civil_conversions_iff_leap_day :
    let date : Date := ⟨2024, 2, 29, by decide, by decide, by decide, by decide⟩
    date.number = 19782 ∧ civilFromDays .panics 19782 = some (2024, 2, 29) := by
  intro date
  exact ⟨rfl, ((civil_conversions_iff .panics).1 date (by decide) (by decide)).mpr
    fun edge => absurd edge.2.1 (by decide)⟩

/-- In a debug build the signer's conversion panics in the first days of the least year. -/
theorem least_year_panics : civilFromDays .panics (daysFromCivil (-2147483648) 1 1) = none := by
  decide

end Roze.Calendar
