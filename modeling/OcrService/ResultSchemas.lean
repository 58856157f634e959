import OcrService.Authenticity
import OcrService.IdVerification
import OcrService.ReadingOrder
import OcrService.Receipts
import OcrService.Signing

/-! What the functions answer, as JSON, and the schemas it has to pass (`result.ts` of each
function). -/
namespace OcrService

/-- What the schema makes of a value, it lets through as it is. -/
def Steady (schema : ZodType) : Prop := ∀ v u, schema v = some u → schema u = some u

theorem steady_of_same {schema : ZodType} (h : ∀ v u, schema v = some u → u = v) :
    Steady schema := by
  intro v u hu
  obtain rfl := h v u hu
  exact hu

@[simp] theorem zodString_steady : Steady zodString :=
  steady_of_same fun v u h => by cases v <;> simp_all [zodString]

@[simp] theorem zodBoolean_steady : Steady zodBoolean :=
  steady_of_same fun v u h => by cases v <;> simp_all [zodBoolean]

@[simp] theorem zodNumber_steady : Steady zodNumber :=
  steady_of_same fun v u h => by
    unfold zodNumber at h
    split at h <;> simp_all

@[simp] theorem zodInt_steady : Steady zodInt := steady_of_same fun _ _ => zodInt_some

@[simp] theorem zodNumberWithin_steady (min max : ℚ) : Steady (zodNumberWithin min max) :=
  steady_of_same fun v u h => by
    obtain ⟨q, rfl, -, rfl⟩ := zodNumberWithin_eq_some.mp h
    rfl

@[simp] theorem zodEnum_steady (values : List String) : Steady (zodEnum values) :=
  steady_of_same fun _ _ h => (zodEnum_eq_some.mp h).1

theorem zodRecord_steady : Steady zodRecord :=
  steady_of_same fun v u h => by cases v <;> simp_all [zodRecord]

@[simp] theorem Steady.nullable {schema : ZodType} (h : Steady schema) :
    Steady (zodNullable schema) := by
  intro v u hu
  cases u with
  | null => rfl
  | _ =>
    cases v with
    | null => cases hu
    | _ => exact h _ _ hu

theorem mapM_some_mem {α β : Type} {f : α → Option β} {xs : List α} {ys : List β}
    (h : xs.mapM f = some ys) : ∀ y ∈ ys, ∃ x, f x = some y := by
  induction xs generalizing ys with
  | nil =>
    cases h
    simp
  | cons x xs ih =>
    rw [List.mapM_cons] at h
    obtain ⟨z, hz, h⟩ := Option.bind_eq_some_iff.mp h
    obtain ⟨zs, hzs, h⟩ := Option.bind_eq_some_iff.mp h
    cases h
    exact List.forall_mem_cons.mpr ⟨⟨x, hz⟩, ih hzs⟩

@[simp] theorem Steady.array {item : ZodType} (h : Steady item) : Steady (zodArray item) := by
  intro v u hu
  cases v with
  | arr xs =>
    obtain ⟨ys, hys, rfl⟩ := Option.map_eq_some_iff.mp hu
    have hsame : ys.mapM item = some ys := mapM_some_self fun y hy => by
      obtain ⟨x, hx⟩ := mapM_some_mem hys y hy
      exact h x y hx
    simp [zodArray, hsame]
  | _ => cases hu

theorem zodItems_steady {schemas : List ZodType} (h : ∀ schema ∈ schemas, Steady schema)
    {vs us : List JsValue} (hus : zodItems schemas vs = some us) :
    zodItems schemas us = some us := by
  induction schemas generalizing vs us with
  | nil =>
    cases vs with
    | nil =>
      cases hus
      rfl
    | cons v vs => cases hus
  | cons schema schemas ih =>
    cases vs with
    | nil => cases hus
    | cons v vs =>
      simp only [zodItems] at hus
      obtain ⟨u, hu, hus⟩ := Option.bind_eq_some_iff.mp hus
      obtain ⟨rest, hrest, hus⟩ := Option.bind_eq_some_iff.mp hus
      cases hus
      have hfirst := h schema List.mem_cons_self v u hu
      have hothers := ih (fun s hs => h s (List.mem_cons_of_mem _ hs)) hrest
      simp [zodItems, hfirst, hothers]

@[simp] theorem Steady.tuple {schemas : List ZodType} (h : ∀ schema ∈ schemas, Steady schema) :
    Steady (zodTuple schemas) := by
  intro v u hu
  cases v with
  | arr vs =>
    obtain ⟨us, hus, rfl⟩ := Option.map_eq_some_iff.mp hu
    simp [zodTuple, zodItems_steady h hus]
  | _ => cases hu

section Shapes
variable {fields out : List (String × JsValue)} {shape : List ShapeEntry}

theorem zodShape_keys (h : zodShape fields shape = some out) :
    out.map Prod.fst ⊆ shape.map ShapeEntry.key := by
  induction shape generalizing out with
  | nil =>
    cases h
    simp
  | cons entry shape ih =>
    simp only [zodShape] at h
    cases hlook : fields.lookup entry.key with
    | none =>
      simp only [hlook] at h
      split at h
      · exact List.Subset.trans (ih h) (List.subset_cons_self _ _)
      · cases h
    | some v =>
      simp only [hlook] at h
      obtain ⟨value, -, h⟩ := Option.bind_eq_some_iff.mp h
      obtain ⟨rest, hrest, h⟩ := Option.bind_eq_some_iff.mp h
      cases h
      exact List.cons_subset_cons _ (ih hrest)

theorem zodShape_congr {fields' : List (String × JsValue)}
    (h : ∀ entry ∈ shape, fields.lookup entry.key = fields'.lookup entry.key) :
    zodShape fields shape = zodShape fields' shape := by
  induction shape with
  | nil => rfl
  | cons entry shape ih =>
    simp only [zodShape, h entry List.mem_cons_self,
      ih fun e he => h e (List.mem_cons_of_mem _ he)]

theorem zodShape_steady (hkeys : (shape.map ShapeEntry.key).Nodup)
    (h : ∀ entry ∈ shape, Steady entry.schema) (hout : zodShape fields shape = some out) :
    zodShape out shape = some out := by
  induction shape generalizing out with
  | nil =>
    cases hout
    rfl
  | cons entry shape ih =>
    obtain ⟨hfresh, hnodup⟩ := List.nodup_cons.mp hkeys
    have hrest : ∀ {rest}, zodShape fields shape = some rest → zodShape rest shape = some rest :=
      fun hr => ih hnodup (fun e he => h e (List.mem_cons_of_mem _ he)) hr
    simp only [zodShape] at hout
    cases hlook : fields.lookup entry.key with
    | none =>
      simp only [hlook] at hout
      split at hout
      · rename_i hoptional
        have hmissing : out.lookup entry.key = none := by
          rw [List.lookup_eq_none_iff]
          intro pair hpair
          have hkey := zodShape_keys hout (List.mem_map_of_mem hpair)
          exact bne_iff_ne.mpr fun he => hfresh (he ▸ hkey)
        simp [zodShape, hmissing, hoptional, hrest hout]
      · cases hout
    | some v =>
      simp only [hlook] at hout
      obtain ⟨value, hvalue, hout⟩ := Option.bind_eq_some_iff.mp hout
      obtain ⟨rest, hr, hout⟩ := Option.bind_eq_some_iff.mp hout
      cases hout
      have hfirst := h entry List.mem_cons_self v value hvalue
      have hothers : zodShape ((entry.key, value) :: rest) shape = some rest := by
        rw [← hrest hr]
        refine zodShape_congr fun e he => ?_
        have hne : e.key ≠ entry.key := fun heq => hfresh (heq ▸ List.mem_map_of_mem he)
        rw [lookup_cons_ite, if_neg hne]
      simp [zodShape, hfirst, hothers]

@[simp] theorem Steady.shaped (hkeys : (shape.map ShapeEntry.key).Nodup)
    (h : ∀ entry ∈ shape, Steady entry.schema) : Steady (zodShaped shape) := by
  intro v u hu
  cases v with
  | obj fields =>
    obtain ⟨out, hout, rfl⟩ := Option.map_eq_some_iff.mp hu
    simp [zodShaped, zodShape_steady hkeys h hout]
  | _ => cases hu

end Shapes

theorem zodObject_shaped (shape : List (String × ZodType)) :
    zodObject shape = zodShaped (shape.map fun entry => { key := entry.1, schema := entry.2 }) := by
  funext v
  cases v with
  | obj fields =>
    have hmembers : zodMembers fields shape =
        zodShape fields (shape.map fun entry => { key := entry.1, schema := entry.2 }) := by
      induction shape with
      | nil => rfl
      | cons entry shape ih =>
        simp only [zodMembers, List.map_cons, zodShape, ih]
        cases fields.lookup entry.1 <;> rfl
    simp only [zodObject, zodShaped, hmembers]
  | _ => rfl

@[simp] theorem Steady.object {shape : List (String × ZodType)} (hkeys : (shape.map Prod.fst).Nodup)
    (h : ∀ entry ∈ shape, Steady entry.2) : Steady (zodObject shape) := by
  rw [zodObject_shaped]
  refine Steady.shaped ?_ fun entry hentry => ?_
  · rw [List.map_map]
    exact hkeys
  · obtain ⟨pair, hpair, rfl⟩ := List.mem_map.mp hentry
    exact h pair hpair

theorem buildFormResultSchema_steady (args : FormDataExtractionArgs) :
    Steady (buildFormResultSchema args) := by
  cases args with
  | fields specs =>
    refine Steady.object (by simp) fun entry hentry => ?_
    obtain rfl := List.mem_singleton.mp hentry
    refine Steady.object (fromEntries_nodup _) fun field hfield => ?_
    obtain ⟨spec, -, hspec⟩ := fieldShape_mem_iff.mp hfield
    rw [← hspec]
    have hbase : Steady (fieldBase spec) :=
      steady_of_same fun _ _ h => (fieldBase_eq_some.mp h).1
    by_cases hrequired : spec.required = true
    · simpa [fieldToZod, hrequired] using hbase
    · simpa [fieldToZod, hrequired] using hbase.nullable
  | jsonSchema _ =>
    refine Steady.object (by simp) fun entry hentry => ?_
    obtain rfl := List.mem_singleton.mp hentry
    exact zodRecord_steady

def entryOf {α : Type} (fields : List (String × JsValue)) (key : String)
    (parse : JsValue → Option α) : Option α := (fields.lookup key).bind parse

def asNumber : JsValue → Option ℚ
  | .num (.finite q) => some q
  | _ => none

def asNullable {α : Type} (parse : JsValue → Option α) : JsValue → Option (Option α)
  | .null => some none
  | v => (parse v).map some

def asList {α : Type} (parse : JsValue → Option α) : JsValue → Option (List α)
  | .arr xs => xs.mapM parse
  | _ => none

def JsValue.ofNumber (q : ℚ) : JsValue := .num (.finite q)

def JsValue.ofNullable {α : Type} (write : α → JsValue) : Option α → JsValue
  | none => .null
  | some a => write a

@[simp] theorem asNumber_ofNumber (q : ℚ) : asNumber (.ofNumber q) = some q := rfl

@[simp] theorem asString_str (s : String) : asString (.str s) = some s := rfl

@[simp] theorem asBool_bool (b : Bool) : asBool (.bool b) = some b := rfl

@[simp] theorem asNullable_string (s : Option String) :
    asNullable asString (.ofNullable .str s) = some s := by
  cases s <;> rfl

@[simp] theorem asNullable_number (q : Option ℚ) :
    asNullable asNumber (.ofNullable .ofNumber q) = some q := by
  cases q <;> rfl

@[simp] theorem asList_arr {α : Type} {parse : JsValue → Option α} {write : α → JsValue}
    (h : ∀ a, parse (write a) = some a) (xs : List α) :
    asList parse (.arr (xs.map write)) = some xs := by
  simp only [asList]
  induction xs with
  | nil => rfl
  | cons x xs ih => simp [List.mapM_cons, h, ih]

@[simp] theorem entryOf_cons {α : Type} (k : String) (v : JsValue)
    (fields : List (String × JsValue)) (key : String) (parse : JsValue → Option α) :
    entryOf ((k, v) :: fields) key parse =
      if key = k then parse v else entryOf fields key parse := by
  rw [entryOf, lookup_cons_ite]
  split <;> rfl

def typedSchema {α : Type} (parse : JsValue → Option α) (write : α → JsValue) : ZodType :=
  fun v => (parse v).map write

theorem typedSchema_steady {α : Type} {parse : JsValue → Option α} {write : α → JsValue}
    (h : ∀ a, parse (write a) = some a) : Steady (typedSchema parse write) := by
  intro v u hu
  obtain ⟨a, -, rfl⟩ := Option.map_eq_some_iff.mp hu
  simp [typedSchema, h]

def Confidence.name : Confidence → String
  | .high => "high"
  | .low => "low"

def asConfidence : JsValue → Option Confidence
  | .str "high" => some .high
  | .str "low" => some .low
  | _ => none

def lineItemSchema : JsValue → Option LineItem
  | .obj fields => do
    let description ← entryOf fields "description" asString
    let qty ← entryOf fields "qty" (asNullable asNumber)
    let unitPrice ← entryOf fields "unitPrice" (asNullable asNumber)
    let total ← entryOf fields "total" (asNullable asNumber)
    return { description, qty, unitPrice, total }
  | _ => none

def LineItem.toJs (item : LineItem) : JsValue :=
  .obj [("description", .str item.description), ("qty", .ofNullable .ofNumber item.qty),
    ("unitPrice", .ofNullable .ofNumber item.unitPrice),
    ("total", .ofNullable .ofNumber item.total)]

def merchantSchema : JsValue → Option Merchant
  | .obj fields => do
    let name ← entryOf fields "name" (asNullable asString)
    let address ← entryOf fields "address" (asNullable asString)
    let tin ← entryOf fields "tin" (asNullable asString)
    return { name, address, tin }
  | _ => none

def Merchant.toJs (merchant : Merchant) : JsValue :=
  .obj [("name", .ofNullable .str merchant.name), ("address", .ofNullable .str merchant.address),
    ("tin", .ofNullable .str merchant.tin)]

def receiptParsingResultSchema : JsValue → Option ReceiptParsingResult
  | .obj fields => do
    let merchant ← entryOf fields "merchant" merchantSchema
    let dateTime ← entryOf fields "dateTime" (asNullable asString)
    let currency ← entryOf fields "currency" (asNullable asString)
    let lineItems ← entryOf fields "lineItems" (asList lineItemSchema)
    let subtotal ← entryOf fields "subtotal" (asNullable asNumber)
    let tax ← entryOf fields "tax" (asNullable asNumber)
    let tip ← entryOf fields "tip" (asNullable asNumber)
    let total ← entryOf fields "total" (asNullable asNumber)
    let paymentMethod ← entryOf fields "paymentMethod" (asNullable asString)
    let confidence ← entryOf fields "confidence" asConfidence
    let warnings ← entryOf fields "warnings" (asList asString)
    return { merchant, dateTime, currency, lineItems, subtotal, tax, tip, total, paymentMethod,
             confidence, warnings }
  | _ => none

def ReceiptParsingResult.toJs (result : ReceiptParsingResult) : JsValue :=
  .obj [("merchant", result.merchant.toJs), ("dateTime", .ofNullable .str result.dateTime),
    ("currency", .ofNullable .str result.currency),
    ("lineItems", .arr (result.lineItems.map LineItem.toJs)),
    ("subtotal", .ofNullable .ofNumber result.subtotal), ("tax", .ofNullable .ofNumber result.tax),
    ("tip", .ofNullable .ofNumber result.tip), ("total", .ofNullable .ofNumber result.total),
    ("paymentMethod", .ofNullable .str result.paymentMethod),
    ("confidence", .str result.confidence.name), ("warnings", .arr (result.warnings.map .str))]

@[simp] theorem lineItemSchema_toJs (item : LineItem) :
    lineItemSchema item.toJs = some item := by
  simp [lineItemSchema, LineItem.toJs]

@[simp] theorem merchantSchema_toJs (merchant : Merchant) :
    merchantSchema merchant.toJs = some merchant := by
  simp [merchantSchema, Merchant.toJs]

@[simp] theorem asConfidence_name (confidence : Confidence) :
    asConfidence (.str confidence.name) = some confidence := by
  cases confidence <;> rfl

theorem receiptParsingResultSchema_toJs (result : ReceiptParsingResult) :
    receiptParsingResultSchema result.toJs = some result := by
  have hitems := asList_arr lineItemSchema_toJs result.lineItems
  have hwarnings := asList_arr asString_str result.warnings
  simp [receiptParsingResultSchema, ReceiptParsingResult.toJs, hitems, hwarnings]

def idDocumentTypes : List String := ["NIN", "PASSPORT", "DRIVERS_LICENSE", "VOTERS_CARD", "AUTO"]

def idDocumentTypeSchema : JsValue → Option IdDocumentType
  | .str "NIN" => some .nin
  | .str "PASSPORT" => some .passport
  | .str "DRIVERS_LICENSE" => some .driversLicense
  | .str "VOTERS_CARD" => some .votersCard
  | .str "AUTO" => some .auto
  | _ => none

def idFieldsSchema : JsValue → Option IdFields
  | .obj fields => do
    let fullName ← entryOf fields "fullName" (asNullable asString)
    let dateOfBirth ← entryOf fields "dateOfBirth" (asNullable asString)
    let documentNumber ← entryOf fields "documentNumber" (asNullable asString)
    let expiryDate ← entryOf fields "expiryDate" (asNullable asString)
    let nationality ← entryOf fields "nationality" (asNullable asString)
    let sex ← entryOf fields "sex" (asNullable asString)
    return { fullName, dateOfBirth, documentNumber, expiryDate, nationality, sex }
  | _ => none

def IdFields.toJs (fields : IdFields) : JsValue :=
  .obj [("fullName", .ofNullable .str fields.fullName),
    ("dateOfBirth", .ofNullable .str fields.dateOfBirth),
    ("documentNumber", .ofNullable .str fields.documentNumber),
    ("expiryDate", .ofNullable .str fields.expiryDate),
    ("nationality", .ofNullable .str fields.nationality), ("sex", .ofNullable .str fields.sex)]

def idExtractionSchema : JsValue → Option IdExtraction
  | .obj entries => do
    let documentType ← entryOf entries "documentType" idDocumentTypeSchema
    let fields ← entryOf entries "fields" idFieldsSchema
    return { documentType, fields }
  | _ => none

def IdExtraction.toJs (extraction : IdExtraction) : JsValue :=
  .obj [("documentType", .str extraction.documentType.text), ("fields", extraction.fields.toJs)]

@[simp] theorem idDocumentTypeSchema_text (type : IdDocumentType) :
    idDocumentTypeSchema (.str type.text) = some type := by
  cases type <;> rfl

@[simp] theorem idFieldsSchema_toJs (fields : IdFields) :
    idFieldsSchema fields.toJs = some fields := by
  simp [idFieldsSchema, IdFields.toJs]

theorem idExtractionSchema_toJs (extraction : IdExtraction) :
    idExtractionSchema extraction.toJs = some extraction := by
  simp [idExtractionSchema, IdExtraction.toJs]

def idVerificationResultSchema : ZodType :=
  zodObject
    [("documentType", zodEnum idDocumentTypes),
      ("fields", zodObject
        [("fullName", zodNullable zodString), ("dateOfBirth", zodNullable zodString),
          ("documentNumber", zodNullable zodString), ("expiryDate", zodNullable zodString),
          ("nationality", zodNullable zodString), ("sex", zodNullable zodString)]),
      ("checks", zodObject
        [("expired", zodNullable zodBoolean), ("expiryDate", zodNullable zodString),
          ("nameMatch", zodNullable zodBoolean), ("dobMatch", zodNullable zodBoolean),
          ("numberMatch", zodNullable zodBoolean), ("mrzValid", zodNullable zodBoolean)]),
      ("assuranceLevel", zodEnum ["document-content-only"])]

theorem idVerificationResultSchema_steady : Steady idVerificationResultSchema := by
  refine Steady.object (by simp) ?_
  simp only [List.forall_mem_cons]
  exact ⟨by simp, .object (by simp) (by simp), .object (by simp) (by simp), by simp, by simp⟩

def IdChecks.toJs (checks : IdChecks) : JsValue :=
  .obj [("expiryDate", .ofNullable .str checks.expiryDate),
    ("expired", .ofNullable .bool checks.expired),
    ("nameMatch", .ofNullable .bool checks.nameMatch),
    ("dobMatch", .ofNullable .bool checks.dobMatch),
    ("numberMatch", .ofNullable .bool checks.numberMatch),
    ("mrzValid", .ofNullable .bool checks.mrzValid)]

def IdVerificationResult.toJs (result : IdVerificationResult) : JsValue :=
  .obj [("documentType", .str result.documentType.text), ("fields", result.fields.toJs),
    ("checks", result.checks.toJs), ("assuranceLevel", .str result.assuranceLevel)]

def experienceSchema : ZodType :=
  zodObject
    [("company", zodString), ("title", zodString), ("startDate", zodNullable zodString),
      ("endDate", zodNullable zodString), ("current", zodBoolean),
      ("description", zodNullable zodString)]

def educationSchema : ZodType :=
  zodObject
    [("institution", zodString), ("degree", zodNullable zodString),
      ("field", zodNullable zodString), ("startDate", zodNullable zodString),
      ("endDate", zodNullable zodString)]

def resumeParsingResultSchema : ZodType :=
  zodObject
    [("contact", zodObject
        [("name", zodNullable zodString), ("email", zodNullable zodString),
          ("phone", zodNullable zodString), ("location", zodNullable zodString),
          ("links", zodArray zodString)]),
      ("summary", zodNullable zodString), ("experience", zodArray experienceSchema),
      ("education", zodArray educationSchema), ("skills", zodArray zodString),
      ("certifications", zodArray zodString), ("languages", zodArray zodString)]

theorem resumeParsingResultSchema_steady : Steady resumeParsingResultSchema := by
  have hexperience : Steady experienceSchema := .object (by simp) (by simp)
  have heducation : Steady educationSchema := .object (by simp) (by simp)
  refine Steady.object (by simp) ?_
  simp only [List.forall_mem_cons]
  exact ⟨.object (by simp) (by simp), by simp, hexperience.array, heducation.array, by simp,
    by simp, by simp, by simp⟩

def signingJudgmentSchema : JsValue → Option SigningJudgment
  | .obj fields => do
    let signed ← entryOf fields "signed" asBool
    let hasSeal ← entryOf fields "hasSeal" asBool
    let signatoryName ← entryOf fields "signatoryName" (asNullable asString)
    let signedDate ← entryOf fields "signedDate" (asNullable asString)
    return { signed, hasSeal, signatoryName, signedDate }
  | _ => none

def SigningJudgment.toJs (judgment : SigningJudgment) : JsValue :=
  .obj [("signed", .bool judgment.signed), ("hasSeal", .bool judgment.hasSeal),
    ("signatoryName", .ofNullable .str judgment.signatoryName),
    ("signedDate", .ofNullable .str judgment.signedDate)]

theorem signingJudgmentSchema_toJs (judgment : SigningJudgment) :
    signingJudgmentSchema judgment.toJs = some judgment := by
  simp [signingJudgmentSchema, SigningJudgment.toJs]

def signatureBlockSchema : ZodType :=
  zodShaped
    [{ key := "label", schema := zodString }, { key := "page", schema := zodInt },
      { key := "bbox", schema := zodTuple (List.replicate 4 zodNumber) },
      { key := "signed", schema := zodBoolean },
      { key := "signatoryName", schema := zodString, optional := true },
      { key := "signedDate", schema := zodString, optional := true },
      { key := "hasSeal", schema := zodBoolean },
      { key := "cropUrl", schema := zodString, optional := true }]

def signingResultSchema : ZodType :=
  zodObject
    [("fullyExecuted", zodBoolean), ("blocks", zodArray signatureBlockSchema),
      ("unsignedBlocks", zodArray zodString)]

theorem signingResultSchema_steady : Steady signingResultSchema := by
  have hblock : Steady signatureBlockSchema := .shaped (by simp) (by simp)
  exact .object (by simp) (by simp [hblock])

def SignatureBlock.toJs (block : SignatureBlock) : JsValue :=
  .obj ([("label", .str block.label), ("page", .ofNat block.page), ("bbox", block.bbox.toJs),
    ("signed", .bool block.signed), ("hasSeal", .bool block.hasSeal)] ++
    (block.signatoryName.map fun name => ("signatoryName", .str name)).toList ++
    (block.signedDate.map fun date => ("signedDate", .str date)).toList)

def SigningResult.toJs (result : SigningResult) : JsValue :=
  .obj [("fullyExecuted", .bool result.fullyExecuted),
    ("blocks", .arr (result.blocks.map SignatureBlock.toJs)),
    ("unsignedBlocks", .arr (result.unsignedBlocks.map .str))]

theorem textExtractionResultSchema_steady : Steady textExtractionResultSchema := by
  have hblock : Steady blockSchema := .shaped (by simp) (by simp)
  exact .shaped (by simp) (by simp [hblock])

theorem documentClassificationResultSchema_steady : Steady documentClassificationResultSchema := by
  have halternative : Steady alternativeSchema := .object (by simp) (by simp)
  exact .object (by simp) (by simp [halternative])

theorem documentAuthenticityResultSchema_steady : Steady documentAuthenticityResultSchema := by
  have hsignal : Steady signalSchema := .object (by simp) (by simp)
  exact .shaped (by simp) (by simp [hsignal])

end OcrService
