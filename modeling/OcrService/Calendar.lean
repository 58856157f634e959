import Mathlib.Algebra.GroupWithZero.Nat
import Mathlib.Data.Int.ConditionallyCompleteOrder
import Mathlib.Data.Prod.Lex
import Mathlib.Order.Hom.Set
import Mathlib.Order.SuccPred.LinearLocallyFinite
import Mathlib.Tactic.IntervalCases

/-! The days of the proleptic Gregorian calendar, numbered from 1 January 1970, and times in
milliseconds from the midnight it begins with: the date arithmetic of ECMAScript. -/
namespace Calendar

def isLeap (year : Int) : Bool := year % 4 = 0 && (year % 100 ≠ 0 || year % 400 = 0)

/-- Months count from 0 here. -/
def daysInMonth (leap : Bool) : Nat → Nat
  | 0 | 2 | 4 | 6 | 7 | 9 | 11 => 31
  | 3 | 5 | 8 | 10 => 30
  | 1 => if leap then 29 else 28
  | _ => 0

def daysBeforeMonth (leap : Bool) (month : Nat) : Nat :=
  ((List.range month).map (daysInMonth leap)).sum

def dayFromYear (year : Int) : Int :=
  365 * (year - 1970) + (year - 1969) / 4 - (year - 1901) / 100 + (year - 1601) / 400

/-- A month beyond the year's and a date beyond the month's carry over. -/
def makeDay (year month date : Int) : Int :=
  dayFromYear (year + month / 12) +
    daysBeforeMonth (isLeap (year + month / 12)) (month % 12).toNat + date - 1

def msPerDay : Int := 86400000

theorem dayFromYear_succ (year : Int) :
    dayFromYear (year + 1) = dayFromYear year + if isLeap year then 366 else 365 := by
  unfold dayFromYear isLeap
  by_cases h4 : year % 4 = 0
  · by_cases h100 : year % 100 = 0
    · by_cases h400 : year % 400 = 0
      · simp [h4, h400]
        omega
      · simp [h4, h100, h400]
        omega
    · simp [h4, h100]
      omega
  · simp [h4]
    omega

theorem dayFromYear_strictMono : StrictMono dayFromYear := by
  refine strictMono_int_of_lt_succ fun year => ?_
  rw [dayFromYear_succ]
  split <;> omega

theorem daysInMonth_le (leap : Bool) (month : Nat) : daysInMonth leap month ≤ 31 := by
  cases leap <;> unfold daysInMonth <;> split <;> decide

theorem daysInMonth_mono {leap leap' : Bool} (h : leap = true → leap' = true) (month : Nat) :
    daysInMonth leap month ≤ daysInMonth leap' month := by
  cases leap with
  | true => rw [h rfl]
  | false =>
    cases leap' with
    | false => exact Nat.le_refl _
    | true => unfold daysInMonth; split <;> simp

theorem daysBeforeMonth_succ (leap : Bool) (month : Nat) :
    daysBeforeMonth leap (month + 1) = daysBeforeMonth leap month + daysInMonth leap month := by
  simp [daysBeforeMonth, List.range_succ]

theorem daysBeforeMonth_mono (leap : Bool) : Monotone (daysBeforeMonth leap) :=
  monotone_nat_of_le_succ fun month => by
    rw [daysBeforeMonth_succ]
    exact Nat.le_add_right _ _

theorem daysBeforeMonth_twelve (leap : Bool) :
    daysBeforeMonth leap 12 = if leap then 366 else 365 := by
  cases leap <;> decide

theorem dayFromYear_next (year : Int) :
    dayFromYear (year + 1) = dayFromYear year + daysBeforeMonth (isLeap year) 12 := by
  rw [dayFromYear_succ, daysBeforeMonth_twelve]
  cases isLeap year <;> rfl

theorem exists_month (leap : Bool) {last day : Nat} (h : day < daysBeforeMonth leap last) :
    ∃ month < last, daysBeforeMonth leap month ≤ day ∧ day < daysBeforeMonth leap (month + 1) := by
  induction last with
  | zero => simp [daysBeforeMonth] at h
  | succ last ih =>
    by_cases hlast : day < daysBeforeMonth leap last
    · obtain ⟨month, hlt, hmonth⟩ := ih hlast
      exact ⟨month, by omega, hmonth⟩
    · exact ⟨last, by omega, by omega, h⟩

@[ext]
structure CivilDate where
  year : Int
  month : Nat
  day : Nat
  month_pos : 1 ≤ month
  month_le : month ≤ 12
  day_pos : 1 ≤ day
  day_le : day ≤ daysInMonth (isLeap year) (month - 1)

namespace CivilDate

def key (d : CivilDate) : ℤ ×ₗ ℕ ×ₗ ℕ := toLex (d.year, toLex (d.month, d.day))

theorem key_injective : Function.Injective key := by
  intro d d' h
  have hpair := congrArg ofLex h
  have hinner := congrArg ofLex (congrArg Prod.snd hpair)
  exact CivilDate.ext (congrArg Prod.fst hpair) (congrArg Prod.fst hinner)
    (congrArg Prod.snd hinner)

instance : LinearOrder CivilDate := LinearOrder.lift' key key_injective

theorem lt_iff {d d' : CivilDate} : d < d' ↔ d.year < d'.year ∨
    d.year = d'.year ∧ (d.month < d'.month ∨ d.month = d'.month ∧ d.day < d'.day) := by
  change key d < key d' ↔ _
  simp [key, Prod.Lex.toLex_lt_toLex]

def dayNumber (d : CivilDate) : Int :=
  dayFromYear d.year + daysBeforeMonth (isLeap d.year) (d.month - 1) + (d.day - 1)

theorem makeDay_eq (d : CivilDate) :
    makeDay d.year ((d.month : Int) - 1) d.day = d.dayNumber := by
  have hpos := d.month_pos
  have hle := d.month_le
  have hdiv : ((d.month : Int) - 1) / 12 = 0 := by omega
  have hmod : (((d.month : Int) - 1) % 12).toNat = d.month - 1 := by omega
  rw [makeDay, hdiv, hmod, dayNumber, Int.add_zero]
  omega

theorem day_bounds (d : CivilDate) :
    dayFromYear d.year ≤ d.dayNumber ∧ d.dayNumber < dayFromYear (d.year + 1) ∧
      d.dayNumber < dayFromYear d.year + daysBeforeMonth (isLeap d.year) d.month := by
  have hday := d.day_pos
  have hmonth := daysBeforeMonth_succ (isLeap d.year) (d.month - 1)
  rw [Nat.sub_add_cancel d.month_pos] at hmonth
  have hle := d.day_le
  have hyear := daysBeforeMonth_mono (isLeap d.year) d.month_le
  rw [dayFromYear_next, dayNumber]
  omega

theorem dayNumber_strictMono : StrictMono dayNumber := by
  intro d d' h
  obtain ⟨hlow, hhigh, hmonth⟩ := d.day_bounds
  obtain ⟨hlow', hhigh', hmonth'⟩ := d'.day_bounds
  obtain hyear | ⟨hyear, hrest⟩ := lt_iff.mp h
  · have := dayFromYear_strictMono.monotone (Int.add_one_le_iff.mpr hyear)
    omega
  · rw [dayNumber, dayNumber] at *
    rw [hyear] at hmonth ⊢
    obtain hlt | ⟨heq, hday⟩ := hrest
    · have hmono := daysBeforeMonth_mono (isLeap d'.year) (Nat.le_sub_one_of_lt hlt)
      have hpos := d'.day_pos
      omega
    · rw [heq]
      omega

/-- `d` is in the hundred years up to `today`, which begin with the day after `today` a century
ago. -/
def WithinCentury (today d : CivilDate) : Prop :=
  d ≤ today ∧ (today.year - 100 < d.year ∨ today.year - 100 = d.year ∧
    (today.month < d.month ∨ today.month = d.month ∧ today.day < d.day))

/-- A hundred years have each day once, up to the century. -/
theorem WithinCentury.eq_of_mod {today d d' : CivilDate} (h : WithinCentury today d)
    (h' : WithinCentury today d') (hyear : d.year % 100 = d'.year % 100)
    (hmonth : d.month = d'.month) (hday : d.day = d'.day) : d = d' := by
  obtain ⟨hle, hgt⟩ := h
  obtain ⟨hle', hgt'⟩ := h'
  rw [← not_lt, lt_iff] at hle hle'
  have hsame : d.year = d'.year := by omega
  exact CivilDate.ext hsame hmonth hday

end CivilDate

/-- The average length of a year is off by less than a year from any start on. -/
def yearFromDay (day : Int) : Int :=
  let year := 1970 + day * 400 / 146097
  if day < dayFromYear year then year - 1
  else if dayFromYear (year + 1) ≤ day then year + 1
  else year

theorem yearFromDay_spec (day : Int) :
    dayFromYear (yearFromDay day) ≤ day ∧ day < dayFromYear (yearFromDay day + 1) := by
  have hnext := dayFromYear_next (1970 + day * 400 / 146097)
  unfold yearFromDay
  dsimp only
  split
  · rename_i hlt
    rw [Int.sub_add_cancel]
    refine ⟨?_, hlt⟩
    unfold dayFromYear
    omega
  · rename_i hge
    split
    · rename_i hle
      refine ⟨hle, ?_⟩
      unfold dayFromYear
      omega
    · rename_i hlt
      omega

def monthFromDay (leap : Bool) (n : Nat) : Nat :=
  ((List.range 11).filter fun month => daysBeforeMonth leap (month + 1) ≤ n).length

theorem monthFromDay_spec (leap : Bool) {n : Nat} (h : n < daysBeforeMonth leap 12) :
    monthFromDay leap n < 12 ∧ daysBeforeMonth leap (monthFromDay leap n) ≤ n ∧
      n < daysBeforeMonth leap (monthFromDay leap n + 1) := by
  obtain ⟨month, hmonth, hstart, hend⟩ := exists_month leap h
  have hfilter : ((List.range 11).filter fun m => daysBeforeMonth leap (m + 1) ≤ n) =
      (List.range 11).filter fun m => m < month := by
    refine List.filter_congr fun m _ => decide_eq_decide.mpr ⟨fun hle => ?_, fun hlt => ?_⟩
    · by_contra hnot
      have hmono := daysBeforeMonth_mono leap (show month + 1 ≤ m + 1 by omega)
      omega
    · exact (daysBeforeMonth_mono leap (show m + 1 ≤ month by omega)).trans hstart
  have heq : monthFromDay leap n = month := by
    rw [monthFromDay, hfilter]
    clear hfilter hstart hend
    interval_cases month <;> rfl
  rw [heq]
  exact ⟨hmonth, hstart, hend⟩

theorem dayOfYear_lt (day : Int) : (day - dayFromYear (yearFromDay day)).toNat <
    daysBeforeMonth (isLeap (yearFromDay day)) 12 := by
  have hyear := yearFromDay_spec day
  rw [dayFromYear_next] at hyear
  omega

def dateFromDay (day : Int) : CivilDate :=
  let year := yearFromDay day
  let n := (day - dayFromYear year).toNat
  let month := monthFromDay (isLeap year) n
  have hmonth : month < 12 ∧ daysBeforeMonth (isLeap year) month ≤ n ∧
      n < daysBeforeMonth (isLeap year) (month + 1) := monthFromDay_spec _ (dayOfYear_lt day)
  { year := year
    month := month + 1
    day := n - daysBeforeMonth (isLeap year) month + 1
    month_pos := by omega
    month_le := by omega
    day_pos := by omega
    day_le := by
      have hend := hmonth.2.2
      rw [daysBeforeMonth_succ] at hend
      rw [Nat.add_sub_cancel]
      omega }

theorem dayNumber_dateFromDay (day : Int) : (dateFromDay day).dayNumber = day := by
  have hyear := yearFromDay_spec day
  have hmonth := monthFromDay_spec (isLeap (yearFromDay day)) (dayOfYear_lt day)
  simp only [CivilDate.dayNumber, dateFromDay, Nat.add_sub_cancel]
  omega

namespace CivilDate

theorem dayNumber_surjective : Function.Surjective dayNumber := fun day =>
  ⟨dateFromDay day, dayNumber_dateFromDay day⟩

noncomputable def dayNumberIso : CivilDate ≃o ℤ :=
  dayNumber_strictMono.orderIsoOfSurjective dayNumber dayNumber_surjective

end CivilDate

def CivilDate.midnight (d : CivilDate) : Int := d.dayNumber * msPerDay

noncomputable def utcDate (time : Int) : CivilDate :=
  CivilDate.dayNumberIso.symm (time / msPerDay)

theorem utcDate_eq_dateFromDay (time : Int) : utcDate time = dateFromDay (time / msPerDay) := by
  rw [utcDate, OrderIso.symm_apply_eq]
  exact (dayNumber_dateFromDay _).symm

theorem lt_utcDate_iff {d : CivilDate} {time : Int} :
    d < utcDate time ↔ d.midnight + msPerDay ≤ time := by
  have hnumber : d < utcDate time ↔ d.dayNumber < time / msPerDay := by
    rw [utcDate, OrderIso.lt_symm_apply]
    rfl
  rw [hnumber, CivilDate.midnight, msPerDay]
  omega

theorem midnight_injective : Function.Injective CivilDate.midnight := by
  intro d d' h
  have hnumber : d.dayNumber = d'.dayNumber := by
    unfold CivilDate.midnight msPerDay at h
    omega
  exact CivilDate.dayNumber_strictMono.injective hnumber

theorem utcDate_midnight_add (d : CivilDate) {ms : Int} (h : 0 ≤ ms ∧ ms < msPerDay) :
    utcDate (d.midnight + ms) = d := by
  have hday : (d.midnight + ms) / msPerDay = d.dayNumber := by
    unfold CivilDate.midnight msPerDay at *
    omega
  rw [utcDate, hday]
  exact CivilDate.dayNumberIso.symm_apply_apply d

/-- Beyond this many milliseconds there is no time. -/
def timeClip (time : Int) : Option Int := if time.natAbs ≤ 8640000000000000 then some time else none

/-- `Date.UTC`; a year of one or two digits is one of the twentieth century. -/
def dateUTC (year month date : Int) : Option Int :=
  timeClip (makeDay (if 0 ≤ year ∧ year ≤ 99 then 1900 + year else year) month date * msPerDay)

theorem dateUTC_eq {year month date : Int} (hyear : 1900 ≤ year ∧ year ≤ 2100)
    (hmonth : -1 ≤ month ∧ month ≤ 98) (hdate : 0 ≤ date ∧ date ≤ 99) :
    dateUTC year month date = some (makeDay year month date * msPerDay) := by
  have hlow := dayFromYear_strictMono.monotone (show 1899 ≤ year + month / 12 by omega)
  have hhigh := dayFromYear_strictMono.monotone (show year + month / 12 ≤ 2108 by omega)
  have hmonths := daysBeforeMonth_mono (isLeap (year + month / 12))
    (show (month % 12).toNat ≤ 12 by omega)
  have hle : daysBeforeMonth (isLeap (year + month / 12)) 12 ≤ 366 := by
    rw [daysBeforeMonth_twelve]
    split <;> omega
  have hfirst : dayFromYear 1899 = -25932 := by decide
  have hlast : dayFromYear 2108 = 50403 := by decide
  rw [dateUTC, if_neg (by omega), timeClip, if_pos]
  rw [makeDay, msPerDay]
  omega

end Calendar
