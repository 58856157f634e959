import OcrService.Calendar
import OcrService.Functions
import OcrService.Prompts

/-! ID_VERIFICATION (`functions/id-verification/execute.ts`, `mrz.ts`, `prompt.ts`). -/
namespace OcrService

open Calendar

inductive IdDocumentType where
  | nin | passport | driversLicense | votersCard | auto
  deriving DecidableEq

def IdDocumentType.text : IdDocumentType → String
  | nin => "NIN"
  | passport => "PASSPORT"
  | driversLicense => "DRIVERS_LICENSE"
  | votersCard => "VOTERS_CARD"
  | auto => "AUTO"

structure ExpectedIdentity where
  fullName : Option String := none
  dateOfBirth : Option String := none
  documentNumber : Option String := none

structure IdVerificationArgs where
  documentType : IdDocumentType := .auto
  expected : Option ExpectedIdentity := none

structure IdFields where
  fullName : Option String
  dateOfBirth : Option String
  documentNumber : Option String
  expiryDate : Option String
  nationality : Option String
  sex : Option String
  deriving DecidableEq

def buildIdVerificationPrompt (markdown : String) (args : IdVerificationArgs) : Prompt where
  system := buildSystem
    ["You are an identity-document extraction assistant.",
      if args.documentType = .auto then
        "Detect the document type (NIN, PASSPORT, DRIVERS_LICENSE, or VOTERS_CARD)."
      else "This is a " ++ args.documentType.text ++ " document.",
      "Extract full name, date of birth, document number, expiry date, nationality, and sex.",
      "Use null for fields not present. " ++
        "Do NOT infer check-digit validity — that is computed separately."]
  user := "Extract identity fields from this document:\n\n" ++ wrapUntrusted "DOCUMENT" markdown

structure MrzLines where
  valid : Bool
  firstName : Option String
  lastName : Option String
  documentNumber : Option String
  birthDate : Option String
  expirationDate : Option String
  nationality : Option String
  sex : Option String

structure MrzParseResult where
  valid : Bool
  fields : IdFields
  deriving DecidableEq

def isMrzLine (line : List Char) : Bool :=
  28 ≤ line.length && line.length ≤ 44 &&
    line.all fun c => ('A' ≤ c && c ≤ 'Z') || ('0' ≤ c && c ≤ '9') || c = '<'

/-- `split(/\r?\n/)`. -/
def splitLines : List Char → List (List Char)
  | [] => [[]]
  | '\r' :: '\n' :: cs => [] :: splitLines cs
  | '\n' :: cs => [] :: splitLines cs
  | c :: cs =>
    match splitLines cs with
    | [] => [[c]]
    | line :: lines => (c :: line) :: lines

def squeezeLine (line : List Char) : List Char :=
  (line.filter fun c => !jsWhitespace c).flatMap jsUpperCase

def mrzCandidates (text : String) : List (List Char) :=
  ((splitLines text.toList).map squeezeLine).filter fun line => isMrzLine line && line.contains '<'

def sliceLast {α : Type} (n : Nat) (xs : List α) : List α := xs.drop (xs.length - n)

section Mrz
-- `parse` of the `mrz` package; nothing where it throws.
variable (parseMrzLines : List String → Option MrzLines)

def tryParse (lines : List (List Char)) : Option MrzParseResult :=
  (parseMrzLines (lines.map String.ofList)).map fun f =>
    { valid := f.valid
      fields :=
        { fullName :=
            truthy (some (jsTrim (" ".intercalate ([f.firstName, f.lastName].filterMap truthy))))
          dateOfBirth := f.birthDate
          documentNumber := f.documentNumber
          expiryDate := f.expirationDate
          nationality := f.nationality
          sex := f.sex } }

def parseMrz (text : String) : Option MrzParseResult :=
  let candidates := mrzCandidates text
  if candidates.length < 2 then none
  else
    let attempts := (if candidates.length ≥ 3 then [sliceLast 3 candidates] else []) ++
      [sliceLast 2 candidates]
    attempts.findSome? (tryParse parseMrzLines)

end Mrz

/-- The document's own zone wins for the fields it has. -/
def mergeMrzFields (llm mrz : IdFields) : IdFields where
  fullName := mrz.fullName.or llm.fullName
  dateOfBirth := mrz.dateOfBirth.or llm.dateOfBirth
  documentNumber := mrz.documentNumber.or llm.documentNumber
  expiryDate := mrz.expiryDate.or llm.expiryDate
  nationality := mrz.nationality.or llm.nationality
  sex := mrz.sex.or llm.sex

def number (digits : List Char) : Nat := Nat.ofDigitChars 10 digits 0

/-- The time of a day written `YYYY-MM-DD`. -/
def parseIsoDate (value : String) : Option Int :=
  match value.toList with
  | [y₁, y₂, y₃, y₄, '-', m₁, m₂, '-', d₁, d₂] =>
    if [y₁, y₂, y₃, y₄, m₁, m₂, d₁, d₂].all Char.isDigit then
      let year := number [y₁, y₂, y₃, y₄]
      let month := number [m₁, m₂]
      let day := number [d₁, d₂]
      if 1 ≤ month ∧ month ≤ 12 ∧ 1 ≤ day ∧ day ≤ daysInMonth (isLeap year) (month - 1) then
        some (makeDay year (month - 1) day * msPerDay)
      else none
    else none
  | _ => none

section Dates
-- What `Date.parse` makes of the texts that the language leaves to its engine.
variable (dateParse : String → Option Int)

/-- `new Date(value).getTime()`, where it is a number. -/
def newDate (value : String) : Option Int := (parseIsoDate value).or (dateParse value)

def parseDateLoose (value : String) : Option Int :=
  let digits := value.toList.filter Char.isDigit
  if digits.length = 6 then
    let yy := number (digits.take 2)
    let year := if yy ≤ 50 then 2000 + yy else 1900 + yy
    dateUTC year (number ((digits.drop 2).take 2) - 1) (number ((digits.drop 4).take 2))
  else newDate dateParse value

def isExpired (now : Int) (expiryDate : String) : Option Bool :=
  (parseDateLoose dateParse expiryDate).map fun time => decide (time < now)

def datesMatch (actual : Option String) (expected : String) : Bool :=
  match actual with
  | none => false
  | some actual =>
    match parseDateLoose dateParse actual, parseDateLoose dateParse expected with
    | some a, some b => a = b
    | _, _ => false

end Dates

def collapseWhitespace (cs : List Char) : List Char := go false cs
where
  go : Bool → List Char → List Char
    | _, [] => []
    | inRun, c :: cs =>
      if jsWhitespace c then if inRun then go true cs else ' ' :: go true cs
      else c :: go false cs

def looseMatch (toLowerCase : String → String) (actual : Option String) (expected : String) :
    Bool :=
  let norm s := jsTrim (String.ofList (collapseWhitespace (toLowerCase s).toList))
  match actual with
  | none => false
  | some actual => norm actual = norm expected

def alnumMatch (actual : Option String) (expected : String) : Bool :=
  let norm (s : String) := (s.toList.flatMap jsUpperCase).filter fun c =>
    ('A' ≤ c && c ≤ 'Z') || ('0' ≤ c && c ≤ '9')
  match actual with
  | none => false
  | some actual => norm actual = norm expected

structure IdChecks where
  expired : Option Bool
  expiryDate : Option String
  nameMatch : Option Bool
  dobMatch : Option Bool
  numberMatch : Option Bool
  mrzValid : Option Bool
  deriving DecidableEq

structure IdVerificationResult where
  documentType : IdDocumentType
  fields : IdFields
  checks : IdChecks
  assuranceLevel : String := "document-content-only"
  deriving DecidableEq

structure IdExtraction where
  documentType : IdDocumentType
  fields : IdFields

structure IdExtractionRequest where
  system : String
  user : String
  schemaName : String

/-- What the function uses of the model client, the `mrz` package, and of the language where
an implementation decides. -/
structure IdVerificationTools where
  complete : IdExtractionRequest → Except Thrown IdExtraction
  parseMrzLines : List String → Option MrzLines
  dateParse : String → Option Int
  toLowerCase : String → String

def idChecks (tools : IdVerificationTools) (now : Int) (expected : Option ExpectedIdentity)
    (mrz : Option MrzParseResult) (fields : IdFields) : IdChecks where
  expired := (truthy fields.expiryDate).bind (isExpired tools.dateParse now)
  expiryDate := fields.expiryDate
  nameMatch := (expected.bind ExpectedIdentity.fullName).map
    (looseMatch tools.toLowerCase fields.fullName)
  dobMatch := (expected.bind ExpectedIdentity.dateOfBirth).map
    (datesMatch tools.dateParse fields.dateOfBirth)
  numberMatch := (expected.bind ExpectedIdentity.documentNumber).map
    (alnumMatch fields.documentNumber)
  mrzValid := mrz.map MrzParseResult.valid

def executeIdVerification (tools : IdVerificationTools) (now : Int) (markdown : String)
    (args : IdVerificationArgs) : Except Thrown IdVerificationResult := do
  let prompt := buildIdVerificationPrompt markdown args
  let extracted ← tools.complete
    { system := prompt.system, user := prompt.user, schemaName := "ID_VERIFICATION_extraction" }
  let mrz := parseMrz tools.parseMrzLines markdown
  let fields :=
    match mrz with
    | some mrz => if mrz.valid then mergeMrzFields extracted.fields mrz.fields
      else extracted.fields
    | none => extracted.fields
  return {
    documentType := extracted.documentType
    fields
    checks := idChecks tools now args.expected mrz fields }

theorem executeIdVerification_checks {tools : IdVerificationTools} {now : Int} {markdown : String}
    {args : IdVerificationArgs} {result : IdVerificationResult}
    (h : executeIdVerification tools now markdown args = .ok result) :
    result.checks = idChecks tools now args.expected (parseMrz tools.parseMrzLines markdown)
      result.fields := by
  unfold executeIdVerification at h
  cases hcomplete : tools.complete
      { system := (buildIdVerificationPrompt markdown args).system
        user := (buildIdVerificationPrompt markdown args).user
        schemaName := "ID_VERIFICATION_extraction" } with
  | error err =>
    simp only [hcomplete] at h
    cases h
  | ok extracted =>
    simp only [hcomplete] at h
    cases h
    rfl

end OcrService
