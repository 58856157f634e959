import OcrService.DateTexts

/-! A birth date whose year has two digits, compared with a full one. -/
namespace OcrService

open Calendar

/-- The day that six digits stand for, once their year has its century. -/
def mrzReading (d : CivilDate) : CivilDate where
  year := centuryYear (d.year.toNat % 100)
  month := d.month
  day := d.day
  month_pos := d.month_pos
  month_le := d.month_le
  day_pos := d.day_pos
  day_le := by
    refine d.day_le.trans (daysInMonth_mono (fun hleap => ?_) _)
    -- Of the years the rule gives, 2000 is the only full century, and a leap year.
    unfold isLeap centuryYear at *
    simp only [Bool.and_eq_true, Bool.or_eq_true, decide_eq_true_eq] at *
    split <;> omega

theorem mrzReading_year_bounds (d : CivilDate) :
    1951 ≤ (mrzReading d).year ∧ (mrzReading d).year ≤ 2050 := by
  change 1951 ≤ (centuryYear (d.year.toNat % 100) : Int) ∧
    (centuryYear (d.year.toNat % 100) : Int) ≤ 2050
  unfold centuryYear
  split <;> omega

theorem mrzReading_year_mod {d : CivilDate} (hyear : 0 ≤ d.year) :
    (mrzReading d).year % 100 = d.year % 100 := by
  change (centuryYear (d.year.toNat % 100) : Int) % 100 = d.year % 100
  unfold centuryYear
  split <;> omega

theorem parseDateLoose_mrzReading (dateParse : String → Option Int) (d : CivilDate) :
    parseDateLoose dateParse (DateStyle.mrz.text d) = some (mrzReading d).midnight := by
  rw [parseDateLoose_mrz, CivilDate.midnight, ← CivilDate.makeDay_eq]
  rfl

theorem datesMatch_iff (dateParse : String → Option Int) (d : CivilDate) {d' : CivilDate}
    (h : 0 ≤ d'.year ∧ d'.year ≤ 9999) :
    datesMatch dateParse (some (DateStyle.mrz.text d)) (DateStyle.iso.text d') = true ↔
      mrzReading d = d' := by
  simp only [datesMatch, parseDateLoose_mrzReading, parseDateLoose_iso dateParse h,
    decide_eq_true_eq]
  exact midnight_injective.eq_iff

/-- Within a hundred years the day they stand for is their own, or none of them. -/
theorem mrzReading_eq_iff {today d d' : CivilDate} (hd : CivilDate.WithinCentury today d)
    (hd' : CivilDate.WithinCentury today d') (hyear : 0 ≤ d.year) :
    mrzReading d = d' ↔ d = d' ∧ 1951 ≤ d.year ∧ d.year ≤ 2050 := by
  have hmod := mrzReading_year_mod hyear
  have hbounds := mrzReading_year_bounds d
  constructor
  · intro heq
    obtain rfl := heq
    have hsame : d = mrzReading d := hd.eq_of_mod hd' hmod.symm rfl rfl
    rw [← hsame] at hbounds
    exact ⟨hsame, hbounds⟩
  · intro heq
    obtain ⟨rfl, hlow, hhigh⟩ := heq
    have hsame : (mrzReading d).year = d.year := by omega
    exact CivilDate.ext hsame rfl rfl

/-- The birth date of a machine-readable zone matches the expected one if they are the same day
and the century rule gives its year. -/
theorem dobMatch_iff {tools : IdVerificationTools} {now : Int} {markdown : String}
    {args : IdVerificationArgs} {result : IdVerificationResult} {expected : ExpectedIdentity}
    {d d' : CivilDate} (h : executeIdVerification tools now markdown args = .ok result)
    (hdob : result.fields.dateOfBirth = some (DateStyle.mrz.text d))
    (hexpected : args.expected = some expected)
    (hdob' : expected.dateOfBirth = some (DateStyle.iso.text d'))
    (hd : CivilDate.WithinCentury (utcDate now) d) (hd' : CivilDate.WithinCentury (utcDate now) d')
    (hyear : 0 ≤ d.year) (hyear' : 0 ≤ d'.year ∧ d'.year ≤ 9999) :
    result.checks.dobMatch = some true ↔ d = d' ∧ 1951 ≤ d.year ∧ d.year ≤ 2050 := by
  have hcheck : result.checks.dobMatch =
      some (datesMatch tools.dateParse (some (DateStyle.mrz.text d)) (DateStyle.iso.text d')) := by
    rw [executeIdVerification_checks h]
    simp [idChecks, hexpected, hdob, hdob']
  rw [hcheck, Option.some_inj, datesMatch_iff tools.dateParse d hyear',
    mrzReading_eq_iff hd hd' hyear]

namespace Sample

def bornFields (dateOfBirth : String) : IdFields where
  fullName := none
  dateOfBirth := some dateOfBirth
  documentNumber := none
  expiryDate := none
  nationality := none
  sex := none

def bornDocument (dateOfBirth : String) : IdVerificationTools where
  complete _ := .ok { documentType := .passport, fields := bornFields dateOfBirth }
  parseMrzLines _ := none
  dateParse _ := none
  toLowerCase := jsToLowerCase

def expecting (dateOfBirth : String) : IdVerificationArgs where
  expected := some { dateOfBirth := some dateOfBirth }

def bornResult (dateOfBirth expected : String) : IdVerificationResult where
  documentType := .passport
  fields := bornFields dateOfBirth
  checks :=
    { expired := none
      expiryDate := none
      nameMatch := none
      dobMatch := some (datesMatch (fun _ => none) (some dateOfBirth) expected)
      numberMatch := none
      mrzValid := none }

theorem executeIdVerification_bornDocument (dateOfBirth expected : String) (now : Int) :
    executeIdVerification (bornDocument dateOfBirth) now "" (expecting expected) =
      .ok (bornResult dateOfBirth expected) := rfl

def today : CivilDate := ⟨2026, 7, 1, by decide, by decide, by decide, by decide⟩

theorem utcDate_today : utcDate today.midnight = today := by
  have h := @utcDate_midnight_add today 0 ⟨by decide, by decide⟩
  simpa using h

def bornIn1940 : CivilDate := ⟨1940, 8, 12, by decide, by decide, by decide, by decide⟩

def bornIn1974 : CivilDate := ⟨1974, 8, 12, by decide, by decide, by decide, by decide⟩

theorem withinCentury_of_year {d : CivilDate} (h : 1926 < d.year ∧ d.year < 2026) :
    CivilDate.WithinCentury (utcDate today.midnight) d := by
  rw [utcDate_today]
  have hyear : today.year = 2026 := rfl
  refine ⟨le_of_lt (CivilDate.lt_iff.mpr (.inl (by omega))), .inl (by omega)⟩

/-- A holder born in 1940 is taken to be born in 2040, and not to be who is expected. -/
theorem dobMatch_1940 :
    CivilDate.WithinCentury (utcDate today.midnight) bornIn1940 ∧
      executeIdVerification (bornDocument (DateStyle.mrz.text bornIn1940)) today.midnight ""
        (expecting (DateStyle.iso.text bornIn1940)) = .ok (bornResult "400812" "1940-08-12") ∧
      (bornResult "400812" "1940-08-12").checks.dobMatch = some false := by
  have hmrz : DateStyle.mrz.text bornIn1940 = "400812" := by decide
  have hiso : DateStyle.iso.text bornIn1940 = "1940-08-12" := by decide
  rw [hmrz, hiso]
  exact ⟨withinCentury_of_year ⟨by decide, by decide⟩,
    executeIdVerification_bornDocument _ _ _, by decide +kernel⟩

theorem dobMatch_iff_1974 :
    (bornResult "740812" "1974-08-12").checks.dobMatch = some true ↔
      bornIn1974 = bornIn1974 ∧ 1951 ≤ bornIn1974.year ∧ bornIn1974.year ≤ 2050 := by
  have hmrz : DateStyle.mrz.text bornIn1974 = "740812" := by decide
  have hiso : DateStyle.iso.text bornIn1974 = "1974-08-12" := by decide
  have hyear : 1926 < bornIn1974.year ∧ bornIn1974.year < 2026 := ⟨by decide, by decide⟩
  have hrun := executeIdVerification_bornDocument "740812" "1974-08-12" today.midnight
  exact dobMatch_iff hrun (by rw [hmrz]; rfl) rfl (by rw [hiso]) (withinCentury_of_year hyear)
    (withinCentury_of_year hyear) (by decide) ⟨by decide, by decide⟩

end Sample
end OcrService
