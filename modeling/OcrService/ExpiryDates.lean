import OcrService.DateTexts

/-! When ID_VERIFICATION reports a document as expired. -/
namespace OcrService

open Calendar

def DateStyle.Covers (style : DateStyle) (d : CivilDate) : Prop :=
  match style with
  | mrz => 2000 ≤ d.year ∧ d.year ≤ 2050
  | iso | dayMonthYear _ => 0 ≤ d.year ∧ d.year ≤ 9999

/-- What the six digits of `DD Mon YYYY` come to as `YYMMDD`: `DD` is a year, the century a month
counted on from that year's first, and the rest of the year a day counted on from there. -/
def scrambled (d : CivilDate) : Int :=
  makeDay (2000 + d.day) (d.year / 100 - 1) (d.year % 100) * msPerDay

def DateStyle.deadline (style : DateStyle) (d : CivilDate) : Int :=
  match style with
  | iso | mrz => d.midnight
  | dayMonthYear _ => scrambled d

/-- The times at which the check goes wrong: `YYYY-MM-DD` and `YYMMDD` expire with the first
moment of their day, `DD Mon YYYY` at a time that has nothing to do with it. -/
def DateStyle.Misjudges (style : DateStyle) (d : CivilDate) (now : Int) : Prop :=
  match style with
  | iso | mrz => d.midnight < now ∧ now < d.midnight + msPerDay
  | dayMonthYear _ =>
    scrambled d < now ∧ now < d.midnight + msPerDay ∨
      d.midnight + msPerDay ≤ now ∧ now ≤ scrambled d

theorem centuryYear_mrz {d : CivilDate} (h : 2000 ≤ d.year ∧ d.year ≤ 2050) :
    (centuryYear (d.year.toNat % 100) : Int) = d.year := by
  rw [centuryYear, if_pos (by omega)]
  omega

theorem parseDateLoose_text (dateParse : String → Option Int) {style : DateStyle} {d : CivilDate}
    (h : style.Covers d) : parseDateLoose dateParse (style.text d) = some (style.deadline d) := by
  cases style with
  | iso => exact parseDateLoose_iso dateParse h
  | mrz =>
    rw [parseDateLoose_mrz, centuryYear_mrz h, CivilDate.makeDay_eq]
    rfl
  | dayMonthYear months => exact parseDateLoose_dayMonthYear dateParse months h

theorem DateStyle.text_ne_empty (style : DateStyle) (d : CivilDate) : style.text d ≠ "" := by
  intro h
  have hchars := congrArg String.toList h
  rw [DateStyle.text, String.toList_ofList] at hchars
  cases style with
  | iso | mrz | dayMonthYear months => simp [DateStyle.chars, fourDigits, twoDigits] at hchars

theorem expired_of_text {tools : IdVerificationTools} {now : Int} {markdown : String}
    {args : IdVerificationArgs} {result : IdVerificationResult} {style : DateStyle}
    {d : CivilDate} (h : executeIdVerification tools now markdown args = .ok result)
    (hexpiry : result.fields.expiryDate = some (style.text d)) (hcovers : style.Covers d) :
    result.checks.expired = some (decide (style.deadline d < now)) := by
  have htruthy : truthy (some (style.text d)) = some (style.text d) := by
    simp [truthy, style.text_ne_empty d]
  rw [executeIdVerification_checks h, idChecks, hexpiry, htruthy, Option.bind_some, isExpired,
    parseDateLoose_text tools.dateParse hcovers, Option.map_some]

/-- The check finds a document expired exactly from the day after its last, but for the times
at which the style of its date misleads it. -/
theorem expired_iff {tools : IdVerificationTools} {now : Int} {markdown : String}
    {args : IdVerificationArgs} {result : IdVerificationResult} {style : DateStyle}
    {d : CivilDate} (h : executeIdVerification tools now markdown args = .ok result)
    (hexpiry : result.fields.expiryDate = some (style.text d)) (hcovers : style.Covers d) :
    (result.checks.expired = some true ↔ d < utcDate now) ↔ ¬ style.Misjudges d now := by
  rw [expired_of_text h hexpiry hcovers, lt_utcDate_iff, Option.some_inj, decide_eq_true_eq]
  cases style with
  | iso | mrz =>
    change (d.midnight < now ↔ d.midnight + msPerDay ≤ now) ↔
      ¬ (d.midnight < now ∧ now < d.midnight + msPerDay)
    unfold msPerDay
    omega
  | dayMonthYear months =>
    change (scrambled d < now ↔ d.midnight + msPerDay ≤ now) ↔
      ¬ (scrambled d < now ∧ now < d.midnight + msPerDay ∨
        d.midnight + msPerDay ≤ now ∧ now ≤ scrambled d)
    omega

namespace Sample

def expiringDocument (expiryDate : String) : IdVerificationTools where
  complete _ := .ok
    { documentType := .passport
      fields :=
        { fullName := none
          dateOfBirth := none
          documentNumber := none
          expiryDate := some expiryDate
          nationality := none
          sex := none } }
  parseMrzLines _ := none
  dateParse _ := none
  toLowerCase := jsToLowerCase

def lastOfJune : CivilDate := ⟨2030, 6, 30, by decide, by decide, by decide, by decide⟩

def midMarch : CivilDate := ⟨2031, 3, 15, by decide, by decide, by decide, by decide⟩

def noonOfLastOfJune : Int := 1909051200000

example : DateStyle.mrz.text lastOfJune = "300630" := by decide

example : (DateStyle.dayMonthYear .short).text midMarch = "15 Mar 2031" := by decide

def expiredDocument (expiryDate : String) : IdVerificationResult where
  documentType := .passport
  fields :=
    { fullName := none
      dateOfBirth := none
      documentNumber := none
      expiryDate := some expiryDate
      nationality := none
      sex := none }
  checks :=
    { expired := some true
      expiryDate := some expiryDate
      nameMatch := none
      dobMatch := none
      numberMatch := none
      mrzValid := none }

theorem executeIdVerification_expiringDocument {expiryDate : String} {now : Int}
    (hne : expiryDate ≠ "") (h : isExpired (fun _ => none) now expiryDate = some true) :
    executeIdVerification (expiringDocument expiryDate) now "" {} =
      .ok (expiredDocument expiryDate) := by
  have htruthy : truthy (some expiryDate) = some expiryDate := by simp [truthy, hne]
  have hchecks : idChecks (expiringDocument expiryDate) now none none
      (expiredDocument expiryDate).fields = (expiredDocument expiryDate).checks := by
    simp [idChecks, expiredDocument, expiringDocument, htruthy, h]
  exact congrArg (fun checks => Except.ok { expiredDocument expiryDate with checks }) hchecks

/-- A passport is expired on the last day it is valid, and one that is valid until March 2031
has been since 31 August 2016. -/
theorem expired_whileValid :
    (executeIdVerification (expiringDocument (DateStyle.iso.text lastOfJune)) noonOfLastOfJune ""
        {} = .ok (expiredDocument "2030-06-30") ∧ ¬ lastOfJune < utcDate noonOfLastOfJune) ∧
      executeIdVerification (expiringDocument ((DateStyle.dayMonthYear .short).text midMarch))
        noonOfLastOfJune "" {} = .ok (expiredDocument "15 Mar 2031") ∧
      ¬ midMarch < utcDate noonOfLastOfJune := by
  have hiso : DateStyle.iso.text lastOfJune = "2030-06-30" := by decide
  have hdmy : (DateStyle.dayMonthYear .short).text midMarch = "15 Mar 2031" := by decide
  rw [hiso, hdmy, lt_utcDate_iff, lt_utcDate_iff]
  exact ⟨⟨executeIdVerification_expiringDocument (by decide) (by decide +kernel), by decide⟩,
    executeIdVerification_expiringDocument (by decide) (by decide +kernel), by decide⟩

theorem expired_iff_lastOfJune :
    ((expiredDocument "2030-06-30").checks.expired = some true ↔
        lastOfJune < utcDate noonOfLastOfJune) ↔
      ¬ DateStyle.iso.Misjudges lastOfJune noonOfLastOfJune := by
  have hrun : executeIdVerification (expiringDocument "2030-06-30") noonOfLastOfJune "" {} =
      .ok (expiredDocument "2030-06-30") :=
    executeIdVerification_expiringDocument (by decide) (by decide +kernel)
  have hexpiry : (expiredDocument "2030-06-30").fields.expiryDate =
      some (DateStyle.iso.text lastOfJune) := by decide
  exact expired_iff hrun hexpiry ⟨by decide, by decide⟩

end Sample
end OcrService
