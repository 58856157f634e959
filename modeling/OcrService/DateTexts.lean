import OcrService.IdVerification

/-! The ways a document writes a day, and what `parseDateLoose` makes of them. -/
namespace OcrService

open Calendar

def twoDigits (n : Nat) : List Char := [Nat.digitChar (n / 10), Nat.digitChar (n % 10)]

def fourDigits (n : Nat) : List Char := twoDigits (n / 100) ++ twoDigits (n % 100)

def monthNames : List String :=
  ["January", "February", "March", "April", "May", "June", "July", "August", "September",
    "October", "November", "December"]

inductive MonthStyle where
  | full | short

def MonthStyle.chars (style : MonthStyle) (month : Nat) : List Char :=
  match style with
  | full => (monthNames.getD (month - 1) "").toList
  | short => (monthNames.getD (month - 1) "").toList.take 3

/-- `YYYY-MM-DD`, `YYMMDD` and `DD Mon YYYY`. -/
inductive DateStyle where
  | iso
  | mrz
  | dayMonthYear (months : MonthStyle)

def DateStyle.chars (d : CivilDate) : DateStyle → List Char
  | iso => fourDigits d.year.toNat ++ '-' :: (twoDigits d.month ++ '-' :: twoDigits d.day)
  | mrz => twoDigits (d.year.toNat % 100) ++ (twoDigits d.month ++ twoDigits d.day)
  | dayMonthYear months =>
    twoDigits d.day ++ ' ' :: (months.chars d.month ++ ' ' :: fourDigits d.year.toNat)

def DateStyle.text (style : DateStyle) (d : CivilDate) : String := String.ofList (style.chars d)

theorem twoDigits_isDigit {n : Nat} (h : n < 100) : (twoDigits n).all Char.isDigit = true := by
  simp only [twoDigits, List.all_cons, List.all_nil, Nat.isDigit_digitChar]
  have htens : n / 10 < 10 := by omega
  have hones : n % 10 < 10 := by omega
  simp [htens, hones]

theorem filter_twoDigits {n : Nat} (h : n < 100) :
    (twoDigits n).filter Char.isDigit = twoDigits n :=
  List.filter_eq_self.mpr (List.all_eq_true.mp (twoDigits_isDigit h))

theorem filter_fourDigits {n : Nat} (h : n < 10000) :
    (fourDigits n).filter Char.isDigit = fourDigits n := by
  rw [fourDigits, List.filter_append, filter_twoDigits (by omega), filter_twoDigits (by omega)]

theorem number_twoDigits {n : Nat} (h : n < 100) : number (twoDigits n) = n := by
  rw [number, twoDigits, Nat.ofDigitChars_cons_digitChar_of_lt_ten (by omega),
    Nat.ofDigitChars_cons_digitChar_of_lt_ten (by omega), Nat.ofDigitChars_nil]
  omega

theorem number_fourDigits {n : Nat} (h : n < 10000) : number (fourDigits n) = n := by
  simp only [number, fourDigits, twoDigits, List.cons_append, List.nil_append]
  iterate 4 rw [Nat.ofDigitChars_cons_digitChar_of_lt_ten (by omega)]
  rw [Nat.ofDigitChars_nil]
  omega

theorem filter_months (months : MonthStyle) {month : Nat} (h : month ≤ 12) :
    (months.chars month).filter Char.isDigit = [] := by
  have hnames : ∀ n < 12, (monthNames.getD n "").toList.filter Char.isDigit = [] := by
    decide +kernel
  have hfull := hnames (month - 1) (by omega)
  cases months with
  | full => exact hfull
  | short =>
    rw [List.filter_eq_nil_iff] at hfull ⊢
    exact fun c hc => hfull c (List.mem_of_mem_take hc)

/-- The century `parseDateLoose` gives a year of two digits. -/
def centuryYear (yy : Nat) : Nat := if yy ≤ 50 then 2000 + yy else 1900 + yy

variable (dateParse : String → Option Int)

/-- Six digits are read as a year, a month and a day, whatever stood between them. -/
theorem parseDateLoose_six {value : String} {yy mm dd : Nat} (hyy : yy < 100) (hmm : mm < 100)
    (hdd : dd < 100)
    (h : value.toList.filter Char.isDigit = twoDigits yy ++ (twoDigits mm ++ twoDigits dd)) :
    parseDateLoose dateParse value =
      some (makeDay (centuryYear yy) ((mm : Int) - 1) dd * msPerDay) := by
  have hyear : 1900 ≤ centuryYear yy ∧ centuryYear yy ≤ 2100 := by
    unfold centuryYear
    split <;> omega
  have hlength : (twoDigits yy ++ (twoDigits mm ++ twoDigits dd)).length = 6 := rfl
  have hyear2 : (twoDigits yy ++ (twoDigits mm ++ twoDigits dd)).take 2 = twoDigits yy := rfl
  have hmonth : ((twoDigits yy ++ (twoDigits mm ++ twoDigits dd)).drop 2).take 2 =
    twoDigits mm := rfl
  have hday : ((twoDigits yy ++ (twoDigits mm ++ twoDigits dd)).drop 4).take 2 =
    twoDigits dd := rfl
  rw [parseDateLoose, h, if_pos hlength, hyear2, hmonth, hday, number_twoDigits hyy,
    number_twoDigits hmm, number_twoDigits hdd]
  exact dateUTC_eq (by unfold centuryYear at hyear; omega) (by omega) (by omega)

theorem parseIsoDate_digits {yyyy mm dd : Nat} (hyear : yyyy < 10000) (hmonth : mm < 100)
    (hday : dd < 100) :
    parseIsoDate (String.ofList
        (fourDigits yyyy ++ '-' :: (twoDigits mm ++ '-' :: twoDigits dd))) =
      if 1 ≤ mm ∧ mm ≤ 12 ∧ 1 ≤ dd ∧ dd ≤ daysInMonth (isLeap yyyy) (mm - 1) then
        some (makeDay yyyy ((mm : Int) - 1) dd * msPerDay)
      else none := by
  have hdigits : (fourDigits yyyy ++ (twoDigits mm ++ twoDigits dd)).all Char.isDigit = true := by
    rw [fourDigits, List.all_append, List.all_append, List.all_append,
      twoDigits_isDigit (by omega), twoDigits_isDigit (by omega), twoDigits_isDigit hmonth,
      twoDigits_isDigit hday]
    rfl
  rw [parseIsoDate, String.toList_ofList]
  change (if (fourDigits yyyy ++ (twoDigits mm ++ twoDigits dd)).all Char.isDigit then
    if 1 ≤ number (twoDigits mm) ∧ number (twoDigits mm) ≤ 12 ∧ 1 ≤ number (twoDigits dd) ∧
        number (twoDigits dd) ≤
          daysInMonth (isLeap (number (fourDigits yyyy))) (number (twoDigits mm) - 1) then
      some (makeDay (number (fourDigits yyyy)) ((number (twoDigits mm) : Int) - 1)
        (number (twoDigits dd)) * msPerDay)
    else none
    else none) = _
  rw [if_pos hdigits, number_fourDigits hyear, number_twoDigits hmonth, number_twoDigits hday]

theorem parseIsoDate_text {d : CivilDate} (hyear : 0 ≤ d.year ∧ d.year ≤ 9999) :
    parseIsoDate (DateStyle.iso.text d) = some d.midnight := by
  have hmonth := d.month_le
  have hday := d.day_le.trans (daysInMonth_le _ _)
  have hnat : ((d.year.toNat : Nat) : Int) = d.year := Int.toNat_of_nonneg hyear.1
  have hvalid : 1 ≤ d.month ∧ d.month ≤ 12 ∧ 1 ≤ d.day ∧
      d.day ≤ daysInMonth (isLeap d.year) (d.month - 1) :=
    ⟨d.month_pos, hmonth, d.day_pos, d.day_le⟩
  rw [DateStyle.text, DateStyle.chars, parseIsoDate_digits (by omega) (by omega) (by omega), hnat,
    if_pos hvalid, CivilDate.makeDay_eq, CivilDate.midnight]

theorem parseDateLoose_iso {d : CivilDate} (hyear : 0 ≤ d.year ∧ d.year ≤ 9999) :
    parseDateLoose dateParse (DateStyle.iso.text d) = some d.midnight := by
  have hmonth := d.month_le
  have hday := d.day_le.trans (daysInMonth_le _ _)
  have hdigits : (DateStyle.iso.text d).toList.filter Char.isDigit =
      fourDigits d.year.toNat ++ (twoDigits d.month ++ twoDigits d.day) := by
    rw [DateStyle.text, String.toList_ofList, DateStyle.chars, List.filter_append,
      List.filter_cons_of_neg (by decide), List.filter_append,
      List.filter_cons_of_neg (by decide), filter_fourDigits (by omega),
      filter_twoDigits (by omega), filter_twoDigits (by omega)]
  have hlength : (fourDigits d.year.toNat ++ (twoDigits d.month ++ twoDigits d.day)).length ≠ 6 :=
    by simp [fourDigits, twoDigits]
  rw [parseDateLoose, hdigits, if_neg hlength, newDate, parseIsoDate_text hyear, Option.some_or]

theorem parseDateLoose_mrz (d : CivilDate) :
    parseDateLoose dateParse (DateStyle.mrz.text d) =
      some (makeDay (centuryYear (d.year.toNat % 100)) ((d.month : Int) - 1) d.day * msPerDay) := by
  have hmonth := d.month_le
  have hday := d.day_le.trans (daysInMonth_le _ _)
  refine parseDateLoose_six dateParse (by omega) (by omega) (by omega) ?_
  rw [DateStyle.text, String.toList_ofList, DateStyle.chars, List.filter_append,
    List.filter_append, filter_twoDigits (by omega), filter_twoDigits (by omega),
    filter_twoDigits (by omega)]

/-- The day of `DD Mon YYYY` is read as a year, its year as a month and a day. -/
theorem parseDateLoose_dayMonthYear (months : MonthStyle) {d : CivilDate}
    (hyear : 0 ≤ d.year ∧ d.year ≤ 9999) :
    parseDateLoose dateParse ((DateStyle.dayMonthYear months).text d) =
      some (makeDay (2000 + d.day) (d.year / 100 - 1) (d.year % 100) * msPerDay) := by
  have hday := d.day_le.trans (daysInMonth_le _ _)
  have hdigits : ((DateStyle.dayMonthYear months).text d).toList.filter Char.isDigit =
      twoDigits d.day ++ (twoDigits (d.year.toNat / 100) ++ twoDigits (d.year.toNat % 100)) := by
    rw [DateStyle.text, String.toList_ofList, DateStyle.chars, List.filter_append,
      List.filter_cons_of_neg (by decide), List.filter_append,
      List.filter_cons_of_neg (by decide), filter_months months d.month_le,
      filter_fourDigits (by omega), filter_twoDigits (by omega), fourDigits, List.nil_append]
  have hcentury : ((d.year.toNat / 100 : Nat) : Int) = d.year / 100 := by omega
  have hrest : ((d.year.toNat % 100 : Nat) : Int) = d.year % 100 := by omega
  have hread := parseDateLoose_six dateParse (by omega) (by omega) (by omega) hdigits
  rw [centuryYear, if_pos (by omega), hcentury, hrest] at hread
  simpa using hread

end OcrService
