import Mathlib.Data.Fintype.EquivFin
import OcrService.Llm
import OcrService.Prompts

/-! FORM_DATA_EXTRACTION (`functions/form-data-extraction`): the fields a caller asks for, and
what is delivered for them. -/
namespace OcrService

def FieldType.name : FieldType → String
  | .string => "string"
  | .number => "number"
  | .boolean => "boolean"
  | .date => "date"

def buildFormDataExtractionPrompt (markdown : String) (args : FormDataExtractionArgs) :
    Prompt where
  system := buildSystem
    ["You are a form data extraction assistant.",
      match args with
      | .fields specs =>
        "Extract these fields: " ++
          ", ".intercalate (specs.map fun f =>
            f.name ++ " (" ++ f.type.name ++ (if f.required then ", required" else "") ++ ")") ++
          "."
      | .jsonSchema _ => "Extract values conforming to the provided JSON Schema.",
      "Return null for any field not present in the document. Use the value as written on the " ++
        "form."]
  user := "Extract form fields from this document:\n\n" ++ wrapUntrusted "DOCUMENT" markdown

def typeToZod : FieldType → ZodType
  | .number => zodNumber
  | .boolean => zodBoolean
  | .string | .date => zodString

def fieldBase (spec : FieldSpec) : ZodType :=
  match spec.enum with
  | some (v :: vs) => zodEnum (v :: vs)
  | _ => typeToZod spec.type

def fieldToZod (spec : FieldSpec) : ZodType :=
  if spec.required then fieldBase spec else zodNullable (fieldBase spec)

def buildFormResultSchema : FormDataExtractionArgs → ZodType
  | .fields specs =>
    zodObject [("fields", zodObject (fromEntries (specs.map fun f => (f.name, fieldToZod f))))]
  | .jsonSchema _ => zodObject [("fields", zodRecord)]

/-- `ajv`: the errors of a value against a schema, or what the compilation throws. -/
abbrev Ajv := List (String × JsValue) → JsValue → Except Thrown (Option JsValue)

def assertMatchesJsonSchema (ajv : Ajv) (jsonSchema : List (String × JsValue))
    (fields : JsValue) : Except Thrown Unit := do
  match ← ajv jsonSchema fields with
  | none => return ()
  | some errors =>
    throw (.ocr { code := .SCHEMA_VALIDATION_FAILED
                  message := "Extracted fields did not match the provided JSON Schema"
                  details := some errors })

section Execute
variable (issuesOf : JsValue → JsValue) (ajv : Ajv)

def executeFormDataExtraction (ctx : OcrContext) (args : FormDataExtractionArgs) :
    Except Thrown JsValue := do
  let prompt := buildFormDataExtractionPrompt ctx.doc.markdown args
  let schema := safeParse issuesOf (buildFormResultSchema args)
  match args with
  | .jsonSchema jsonSchema =>
    let completion ← ctx.llm
      { system := prompt.system
        user := prompt.user
        schema
        jsonSchema := some (.obj
          [("type", .str "object"), ("properties", .obj [("fields", .obj jsonSchema)]),
            ("required", .arr [.str "fields"]), ("additionalProperties", .bool false)])
        schemaName := some "FORM_DATA_EXTRACTION_result" }
    assertMatchesJsonSchema ajv jsonSchema (completion.data.get "fields")
    return completion.data
  | .fields _ =>
    let completion ← ctx.llm
      { system := prompt.system
        user := prompt.user
        schema
        schemaName := some "FORM_DATA_EXTRACTION_result" }
    return completion.data

def formDefinition (engine : Engine) : OcrFunctionDefinition FormDataExtractionArgs JsValue where
  key := .FORM_DATA_EXTRACTION
  accepts := [.pdf, .image, .docx]
  requires := [.text]
  sensitivity := .standard
  maxPages := 20
  argsSchema := safeParseArgs issuesOf (formDataExtractionArgsSchema engine)
  resultSchema := .dynamic fun args => safeParse issuesOf (buildFormResultSchema args)
  execute := executeFormDataExtraction issuesOf ajv

end Execute

def OfType (type : FieldType) (v : JsValue) : Prop :=
  match type with
  | .number => ∃ q, v = .num (.finite q)
  | .boolean => ∃ b, v = .bool b
  | .string | .date => ∃ s, v = .str s

/-- A text of the enumeration where there is one, and else a value of the type. -/
def OfSpec (spec : FieldSpec) (v : JsValue) : Prop :=
  if spec.enum.getD [] ≠ [] then ∃ s ∈ spec.enum.getD [], v = .str s else OfType spec.type v

/-- `null` only if the field is not required. -/
def Allowed (spec : FieldSpec) (v : JsValue) : Prop :=
  (v = .null ∧ spec.required = false) ∨ OfSpec spec v

def Satisfies (spec : FieldSpec) (fields : List (String × JsValue)) : Prop :=
  ∃ v, fields.lookup spec.name = some v ∧ Allowed spec v

/-- The result satisfies every entry of the list, and has no field outside it. -/
def Honors (specs : List FieldSpec) (result : JsValue) : Prop :=
  ∃ fields, result = .obj [("fields", .obj fields)] ∧
    (∀ spec ∈ specs, Satisfies spec fields) ∧
    ∀ name ∈ fields.map Prod.fst, ∃ spec ∈ specs, spec.name = name

def lastNamed (specs : List FieldSpec) (name : String) : Option FieldSpec :=
  specs.reverse.find? fun spec => spec.name = name

def FieldType.isText : FieldType → Bool
  | .string | .date => true
  | .number | .boolean => false

def BaseCovers (last spec : FieldSpec) : Prop :=
  match last.enum.getD [], spec.enum.getD [] with
  | [], [] => last.type = spec.type ∨ last.type.isText = true ∧ spec.type.isText = true
  | [], _ :: _ => False
  | _ :: _, [] => spec.type.isText = true
  | vs, ws => ∀ v ∈ vs, v ∈ ws

/-- Whatever is let through for `last` is something that `spec` asks for. -/
structure Covers (last spec : FieldSpec) : Prop where
  required : spec.required = true → last.required = true
  base : BaseCovers last spec

/-- Entries of one name ask for no more than the last of them. -/
def Consistent (specs : List FieldSpec) : Prop :=
  ∀ spec ∈ specs, ∀ last, lastNamed specs spec.name = some last → Covers last spec

theorem typeToZod_eq_some {type : FieldType} {v out : JsValue} :
    typeToZod type v = some out ↔ out = v ∧ OfType type v := by
  cases type with
  | number =>
    cases v with
    | num n => cases n <;> simp [typeToZod, zodNumber, OfType, eq_comm]
    | _ => simp [typeToZod, zodNumber, OfType]
  | boolean => cases v <;> simp [typeToZod, zodBoolean, OfType, eq_comm]
  | string | date => cases v <;> simp [typeToZod, zodString, OfType, eq_comm]

theorem zodEnum_eq_some {values : List String} {v out : JsValue} :
    zodEnum values v = some out ↔ out = v ∧ ∃ s ∈ values, v = .str s := by
  cases v with
  | str s => simp [zodEnum, eq_comm, and_comm]
  | _ => simp [zodEnum]

theorem fieldBase_eq_some {spec : FieldSpec} {v out : JsValue} :
    fieldBase spec v = some out ↔ out = v ∧ OfSpec spec v := by
  unfold fieldBase OfSpec
  cases spec.enum with
  | none =>
    rw [Option.getD_none, if_neg (not_not.mpr rfl)]
    exact typeToZod_eq_some
  | some values =>
    rw [Option.getD_some]
    cases values with
    | nil =>
      rw [if_neg (not_not.mpr rfl)]
      exact typeToZod_eq_some
    | cons w ws =>
      rw [if_pos (List.cons_ne_nil w ws)]
      exact zodEnum_eq_some

theorem not_ofSpec_null (spec : FieldSpec) : ¬OfSpec spec .null := by
  intro h
  unfold OfSpec at h
  split at h
  · obtain ⟨s, -, hs⟩ := h
    cases hs
  · unfold OfType at h
    split at h
    all_goals
      obtain ⟨_, hs⟩ := h
      cases hs

/-- The schema of a field lets through, unchanged, the values the field allows. -/
theorem fieldToZod_eq_some {spec : FieldSpec} {v out : JsValue} :
    fieldToZod spec v = some out ↔ out = v ∧ Allowed spec v := by
  rw [fieldToZod, Allowed]
  cases hrequired : spec.required with
  | true => simp [fieldBase_eq_some]
  | false =>
    cases v with
    | null => simp [zodNullable, eq_comm]
    | _ => simp [zodNullable, fieldBase_eq_some]

theorem ofSpec_of_empty {spec : FieldSpec} (h : spec.enum.getD [] = []) (v : JsValue) :
    OfSpec spec v ↔ OfType spec.type v := by
  rw [OfSpec, h, if_neg (not_not.mpr rfl)]

theorem ofSpec_of_nonempty {spec : FieldSpec} (h : spec.enum.getD [] ≠ []) (v : JsValue) :
    OfSpec spec v ↔ ∃ s ∈ spec.enum.getD [], v = .str s := by
  rw [OfSpec, if_pos h]

theorem ofType_str {type : FieldType} {s : String} :
    OfType type (.str s) ↔ type.isText = true := by
  cases type <;> simp [OfType, FieldType.isText]

theorem ofType_forall_iff {last type : FieldType} :
    (∀ v, OfType last v → OfType type v) ↔
      last = type ∨ last.isText = true ∧ type.isText = true := by
  constructor
  · intro h
    cases last with
    | number =>
      have hzero := h (.num (.finite 0)) ⟨0, rfl⟩
      cases type <;> simp_all [OfType]
    | boolean =>
      have htrue := h (.bool true) ⟨true, rfl⟩
      cases type <;> simp_all [OfType]
    | string | date => exact Or.inr ⟨rfl, ofType_str.mp (h (.str "") ⟨"", rfl⟩)⟩
  · intro h v hv
    obtain rfl | ⟨hlast, htype⟩ := h
    · exact hv
    · obtain ⟨s, rfl⟩ : ∃ s, v = .str s := by
        cases last <;> first | exact hv | cases hlast
      exact ofType_str.mpr htype

theorem ofType_escapes (type : FieldType) (values : List String) :
    ∃ v, OfType type v ∧ ∀ s ∈ values, v ≠ .str s := by
  cases type with
  | number => exact ⟨.num (.finite 0), ⟨0, rfl⟩, fun s _ h => by cases h⟩
  | boolean => exact ⟨.bool true, ⟨true, rfl⟩, fun s _ h => by cases h⟩
  | string | date =>
    obtain ⟨fresh, hfresh⟩ := Infinite.exists_notMem_finset values.toFinset
    refine ⟨.str fresh, ⟨fresh, rfl⟩, fun s hs h => ?_⟩
    cases h
    exact hfresh (List.mem_toFinset.mpr hs)

theorem allowed_null {spec : FieldSpec} : Allowed spec .null ↔ spec.required = false := by
  simp [Allowed, not_ofSpec_null]

theorem allowed_forall_iff {last spec : FieldSpec} :
    (∀ v, Allowed last v → Allowed spec v) ↔
      (spec.required = true → last.required = true) ∧ ∀ v, OfSpec last v → OfSpec spec v := by
  constructor
  · intro h
    constructor
    · intro hspec
      by_contra hlast
      have hnull := allowed_null.mp (h .null (allowed_null.mpr (Bool.not_eq_true _ ▸ hlast)))
      rw [hspec] at hnull
      cases hnull
    · intro v hv
      obtain ⟨rfl, -⟩ | hallowed := h v (Or.inr hv)
      · exact absurd hv (not_ofSpec_null last)
      · exact hallowed
  · intro h v hv
    obtain ⟨rfl, hlast⟩ | hv := hv
    · refine allowed_null.mpr (Bool.eq_false_iff.mpr fun hspec => ?_)
      rw [h.1 hspec] at hlast
      cases hlast
    · exact Or.inr (h.2 v hv)

theorem baseCovers_iff {last spec : FieldSpec} :
    BaseCovers last spec ↔ ∀ v, OfSpec last v → OfSpec spec v := by
  rw [BaseCovers]
  cases hvs : last.enum.getD [] with
  | nil =>
    simp only [ofSpec_of_empty hvs]
    cases hws : spec.enum.getD [] with
    | nil => simp only [ofSpec_of_empty hws, ofType_forall_iff]
    | cons w ws =>
      refine iff_of_false id fun h => ?_
      obtain ⟨v, hv, hescapes⟩ := ofType_escapes last.type (w :: ws)
      have hspec := h v hv
      rw [ofSpec_of_nonempty (by simp [hws]), hws] at hspec
      obtain ⟨s, hs, heq⟩ := hspec
      exact hescapes s hs heq
  | cons u us =>
    have hne : last.enum.getD [] ≠ [] := by simp [hvs]
    simp only [ofSpec_of_nonempty hne, hvs]
    cases hws : spec.enum.getD [] with
    | nil =>
      simp only [ofSpec_of_empty hws]
      constructor
      · intro htext v hv
        obtain ⟨s, -, rfl⟩ := hv
        exact ofType_str.mpr htext
      · intro h
        exact ofType_str.mp (h (.str u) ⟨u, List.mem_cons_self, rfl⟩)
    | cons w ws =>
      have hne' : spec.enum.getD [] ≠ [] := by simp [hws]
      simp only [ofSpec_of_nonempty hne', hws]
      constructor
      · intro h v hv
        obtain ⟨s, hs, rfl⟩ := hv
        exact ⟨s, h s hs, rfl⟩
      · intro h s hs
        obtain ⟨s', hs', heq⟩ := h (.str s) ⟨s, hs, rfl⟩
        cases heq
        exact hs'

theorem covers_iff {last spec : FieldSpec} :
    Covers last spec ↔ ∀ v, Allowed last v → Allowed spec v := by
  rw [allowed_forall_iff, ← baseCovers_iff]
  constructor
  · exact fun h => ⟨h.required, h.base⟩
  · exact fun h => ⟨h.1, h.2⟩

theorem lookup_map_name {α : Type} (specs : List FieldSpec) (g : FieldSpec → α) (name : String) :
    (specs.map fun f => (f.name, g f)).lookup name =
      (specs.find? fun f => f.name = name).map g := by
  induction specs with
  | nil => rfl
  | cons f specs ih =>
    rw [List.map_cons, lookup_cons_ite, ih]
    by_cases hname : f.name = name
    · rw [if_pos hname.symm, List.find?_cons_of_pos (by simpa using hname), Option.map_some]
    · rw [if_neg (Ne.symm hname), List.find?_cons_of_neg (by simpa using hname)]

theorem lookup_byName {α : Type} (specs : List FieldSpec) (g : FieldSpec → α) (name : String) :
    (fromEntries (specs.map fun f => (f.name, g f))).lookup name =
      (lastNamed specs name).map g := by
  rw [lookup_fromEntries, ← List.map_reverse, lookup_map_name, lastNamed]

theorem lastNamed_of_mem {specs : List FieldSpec} {spec : FieldSpec} (h : spec ∈ specs) :
    ∃ last, lastNamed specs spec.name = some last := by
  rw [← Option.isSome_iff_exists, lastNamed, List.find?_isSome]
  exact ⟨spec, List.mem_reverse.mpr h, by simp⟩

theorem fieldShape_mem_iff {specs : List FieldSpec} {name : String} {schema : ZodType} :
    (name, schema) ∈ fromEntries (specs.map fun f => (f.name, fieldToZod f)) ↔
      ∃ last, lastNamed specs name = some last ∧ fieldToZod last = schema := by
  rw [← Option.map_eq_some_iff, ← lookup_byName]
  constructor
  · exact lookup_of_mem (fromEntries_nodup _)
  · intro h
    obtain ⟨before, after, h, -⟩ := List.lookup_eq_some_iff.mp h
    rw [h]
    exact List.mem_append_right before List.mem_cons_self

def LastsSatisfied (specs : List FieldSpec) (fields : List (String × JsValue)) : Prop :=
  ∀ name last, lastNamed specs name = some last →
    ∃ v, fields.lookup name = some v ∧ Allowed last v

theorem fieldMembers_exists_iff {specs : List FieldSpec} {fields : List (String × JsValue)} :
    (∃ out, zodMembers fields (fromEntries (specs.map fun f => (f.name, fieldToZod f))) =
      some out) ↔ LastsSatisfied specs fields := by
  rw [zodMembers_exists_iff]
  constructor
  · intro h name last hlast
    obtain ⟨out, hout⟩ := h (name, fieldToZod last) (fieldShape_mem_iff.mpr ⟨last, hlast, rfl⟩)
    obtain ⟨v, hv, hparsed⟩ := Option.bind_eq_some_iff.mp hout
    exact ⟨v, hv, (fieldToZod_eq_some.mp hparsed).2⟩
  · intro h entry hentry
    obtain ⟨last, hlast, hschema⟩ := fieldShape_mem_iff.mp hentry
    obtain ⟨v, hv, hallowed⟩ := h entry.1 last hlast
    exact ⟨v, by rw [hv, Option.bind_some, ← hschema, fieldToZod_eq_some.mpr ⟨rfl, hallowed⟩]⟩

theorem fieldMembers_lookup {specs : List FieldSpec} {fields out : List (String × JsValue)}
    (h : zodMembers fields (fromEntries (specs.map fun f => (f.name, fieldToZod f))) = some out)
    {name : String} {last : FieldSpec} (hlast : lastNamed specs name = some last) :
    out.lookup name = fields.lookup name := by
  obtain ⟨v, hv, hallowed⟩ := fieldMembers_exists_iff.mp ⟨out, h⟩ name last hlast
  rw [lookup_zodMembers h, lookup_byName, hlast, Option.map_some, Option.bind_some, hv,
    Option.bind_some, fieldToZod_eq_some.mpr ⟨rfl, hallowed⟩]

theorem fieldMembers_names {specs : List FieldSpec} {fields out : List (String × JsValue)}
    (h : zodMembers fields (fromEntries (specs.map fun f => (f.name, fieldToZod f))) = some out) :
    ∀ name ∈ out.map Prod.fst, ∃ spec ∈ specs, spec.name = name := by
  intro name hname
  rw [zodMembers_keys h] at hname
  have hentry := fromEntries_keys_subset _ name hname
  rw [List.map_map] at hentry
  exact List.mem_map.mp hentry

theorem buildFormResultSchema_eq_some {specs : List FieldSpec} {v out : JsValue} :
    buildFormResultSchema (.fields specs) v = some out ↔
      ∃ top fields kept, v = .obj top ∧ top.lookup "fields" = some (.obj fields) ∧
        zodMembers fields (fromEntries (specs.map fun f => (f.name, fieldToZod f))) = some kept ∧
        out = .obj [("fields", .obj kept)] := by
  constructor
  · intro h
    cases v with
    | obj top =>
      simp only [buildFormResultSchema, zodObject, zodMembers, bind, pure, Option.map_eq_some_iff,
        Option.bind_eq_some_iff, Option.some.injEq] at h
      obtain ⟨_, ⟨parsed, ⟨inner, hinner, hparsed⟩, _, rfl, rfl⟩, rfl⟩ := h
      cases inner with
      | obj fields =>
        obtain ⟨kept, hkept, rfl⟩ := Option.map_eq_some_iff.mp hparsed
        exact ⟨top, fields, kept, rfl, hinner, hkept, rfl⟩
      | _ => cases hparsed
    | _ => cases h
  · intro h
    obtain ⟨top, fields, kept, rfl, hfields, hkept, rfl⟩ := h
    simp only [buildFormResultSchema, zodObject, zodMembers, bind, pure, hfields,
      Option.bind_some, hkept, Option.map_some]

/-- What the schema lets through satisfies the list, if entries of one name agree. -/
theorem honors_of_consistent {specs : List FieldSpec} {v result : JsValue}
    (hconsistent : Consistent specs)
    (h : buildFormResultSchema (.fields specs) v = some result) : Honors specs result := by
  obtain ⟨top, fields, kept, -, -, hkept, rfl⟩ := buildFormResultSchema_eq_some.mp h
  refine ⟨kept, rfl, ?_, fieldMembers_names hkept⟩
  intro spec hspec
  obtain ⟨last, hlast⟩ := lastNamed_of_mem hspec
  obtain ⟨value, hvalue, hallowed⟩ := fieldMembers_exists_iff.mp ⟨kept, hkept⟩ spec.name last hlast
  refine ⟨value, ?_, covers_iff.mp (hconsistent spec hspec last hlast) value hallowed⟩
  rw [fieldMembers_lookup hkept hlast, hvalue]

def anyValue (spec : FieldSpec) : JsValue :=
  match spec.enum.getD [], spec.type with
  | s :: _, _ => .str s
  | [], .number => .num (.finite 0)
  | [], .boolean => .bool true
  | [], .string => .str ""
  | [], .date => .str ""

theorem anyValue_allowed (spec : FieldSpec) : Allowed spec (anyValue spec) := by
  refine Or.inr ?_
  cases henum : spec.enum.getD [] with
  | nil =>
    rw [ofSpec_of_empty henum, anyValue, henum]
    cases spec.type <;> exact ⟨_, rfl⟩
  | cons s ss =>
    rw [ofSpec_of_nonempty (by simp [henum]), anyValue, henum]
    exact ⟨s, List.mem_cons_self, rfl⟩

def answerWith (specs : List FieldSpec) (name : String) (v : JsValue) : List (String × JsValue) :=
  setEntry (fromEntries (specs.map fun f => (f.name, anyValue f))) name v

theorem answerWith_satisfies {specs : List FieldSpec} {name : String} {v : JsValue}
    {last : FieldSpec} (hlast : lastNamed specs name = some last) (hv : Allowed last v) :
    LastsSatisfied specs (answerWith specs name v) := by
  intro name' last' hlast'
  rw [answerWith, lookup_setEntry]
  by_cases hname : name' = name
  · subst hname
    rw [hlast] at hlast'
    cases hlast'
    exact ⟨v, if_pos rfl, hv⟩
  · rw [if_neg hname, lookup_byName, hlast', Option.map_some]
    exact ⟨anyValue last', rfl, anyValue_allowed last'⟩

def formRequest (raw : JsValue) : OcrRequest where
  file := { buffer := [0x25], originalName := "upload" }
  args := raw
  requestId := "request"
  tenantId := "tenant"

def formInput : DocumentInput where
  buffer := [0x25]
  mimeGroup := .pdf
  sha256 := Sample.packages.sha256 [0x25]
  originalName := "upload"

section Delivered
variable (issuesOf : JsValue → JsValue) (ajv : Ajv) (engine : Engine)

theorem execute_fields {errorText : JsValue → String} {ctx : OcrContext} {specs : List FieldSpec}
    {v data : JsValue} {tokens : Option Nat}
    (hllm : ctx.llm = azureComplete errorText fun _ => .json v tokens)
    (hv : buildFormResultSchema (.fields specs) v = some data) :
    executeFormDataExtraction issuesOf ajv ctx (.fields specs) = .ok data := by
  have hparsed : safeParse issuesOf (buildFormResultSchema (.fields specs)) v = .ok data :=
    safeParse_ok.mpr hv
  simp only [executeFormDataExtraction, hllm, azureComplete, hparsed, bind, Except.bind, pure,
    Except.pure]

theorem answer_delivered {req : OcrRequest} {deps : PipelineDeps} {t : Timings}
    {env : Surroundings} {w : World} {l : Locals} {input : DocumentInput} {out : ExtractOutput}
    {errorText : JsValue → String} {tokens : Option Nat} {specs : List FieldSpec}
    {fields : List (String × JsValue)}
    (hllm : deps.llm =
      azureComplete errorText fun _ => .json (.obj [("fields", .obj fields)]) tokens)
    (hchecked : checkRequest (formDefinition issuesOf ajv engine) req deps =
      (l, .ok (.fields specs, input)))
    (hextracted : ((extraction (formDefinition issuesOf ajv engine) req deps input).eval
      (World.handle env) w).1 = .ok out)
    (hpages : out.doc.pageCount ≤ (formDefinition issuesOf ajv engine).maxPages)
    (hfields : LastsSatisfied specs fields) :
    ∃ o kept, ((runPipeline (formDefinition issuesOf ajv engine) req deps t).eval
        (World.handle env) w).1 = .ok o ∧
      o.result = .obj [("fields", .obj kept)] ∧
      ∀ name last, lastNamed specs name = some last → kept.lookup name = fields.lookup name := by
  obtain ⟨once, honce⟩ := fieldMembers_exists_iff.mpr hfields
  have hkeep : ∀ name last, lastNamed specs name = some last →
      once.lookup name = fields.lookup name := fun _ _ hlast => fieldMembers_lookup honce hlast
  have honceSatisfied : LastsSatisfied specs once := by
    intro name last hlast
    rw [hkeep name last hlast]
    exact hfields name last hlast
  obtain ⟨twice, htwice⟩ := fieldMembers_exists_iff.mpr honceSatisfied
  -- the answer is validated by the client, and what is left of it by the pipeline
  have hclient : buildFormResultSchema (.fields specs) (.obj [("fields", .obj fields)]) =
      some (.obj [("fields", .obj once)]) :=
    buildFormResultSchema_eq_some.mpr ⟨_, fields, once, rfl, rfl, honce, rfl⟩
  have hpipeline : buildFormResultSchema (.fields specs) (.obj [("fields", .obj once)]) =
      some (.obj [("fields", .obj twice)]) :=
    buildFormResultSchema_eq_some.mpr ⟨_, once, twice, rfl, rfl, htwice, rfl⟩
  have hconcluded : conclude (formDefinition issuesOf ajv engine) req deps (.fields specs) input
      out.doc = .ok (.obj [("fields", .obj twice)]) := by
    rw [conclude_eq_ok]
    exact ⟨hpages, _, execute_fields issuesOf ajv hllm hclient, safeParse_ok.mpr hpipeline⟩
  obtain ⟨o, hrun, hresult⟩ :=
    runPipeline_delivers (handle_accepts env) hchecked hextracted hconcluded
  refine ⟨o, twice, hrun, hresult, ?_⟩
  intro name last hlast
  rw [fieldMembers_lookup htwice hlast, hkeep name last hlast]

theorem formRequest_checked {raw : JsValue} {args : FormDataExtractionArgs}
    (hargs : formDataExtractionArgsSchema engine (orEmptyObject raw) = .ok (some args))
    (v : JsValue) :
    checkRequest (formDefinition issuesOf ajv engine) (formRequest raw) (answering v) =
      ({ input := some formInput }, .ok (args, formInput)) := by
  have hparsed : parseArgs (formDefinition issuesOf ajv engine) (formRequest raw).args =
      .ok args := parseArgs_eq_ok.mpr (safeParseArgs_ok.mpr hargs)
  rw [checkRequest, hparsed]
  rfl

theorem formRequest_routed (v : JsValue) :
    routeProvider (answering v).providers
      (routeInput (formDefinition issuesOf ajv engine) formInput (answering v)) =
      .ok ⟨pdfText, [glmOcr, tesseract]⟩ := by
  have horder : orderedProviders Sample.deps.providers
      { group := .pdf, required := [.text], fn := .FORM_DATA_EXTRACTION,
        policy := defaultProviderPolicy } = pdfText :: [glmOcr, tesseract] := by decide +kernel
  exact routeProvider_eq_ok.mpr horder

theorem formRequest_extracted (raw v : JsValue) :
    ∃ out, ((extraction (formDefinition issuesOf ajv engine) (formRequest raw) (answering v)
        formInput).eval (World.handle (Sample.surroundings [])) {}).1 = .ok out ∧
      out.doc.pageCount ≤ (formDefinition issuesOf ajv engine).maxPages := by
  rw [extraction_extracts rfl, extractDocument_routed (formRequest_routed issuesOf ajv engine v)]
  exact ⟨_, rfl, show 1 ≤ 20 by decide⟩

/-- Every result delivered for a list satisfies each of its entries, whatever the model answers,
exactly when entries of one name ask for no more than the last of them. -/
theorem formData_honored_iff {raw : JsValue} {specs : List FieldSpec}
    (hargs : formDataExtractionArgsSchema engine (orEmptyObject raw) = .ok (some (.fields specs))) :
    (∀ (errorText : JsValue → String) (v : JsValue) (tokens : Option Nat) (req : OcrRequest)
        (deps : PipelineDeps) (t : Timings) (env : Surroundings) (w : World)
        (o : OcrOutcome JsValue),
      req.args = raw → deps.llm = (azureComplete errorText fun _ => .json v tokens) →
      ((runPipeline (formDefinition issuesOf ajv engine) req deps t).eval
        (World.handle env) w).1 = .ok o →
      Honors specs o.result) ↔ Consistent specs := by
  constructor
  · intro h spec hspec last hlast
    refine covers_iff.mpr fun v hv => ?_
    let answer : JsValue := .obj [("fields", .obj (answerWith specs spec.name v))]
    obtain ⟨out, hextracted, hpages⟩ := formRequest_extracted issuesOf ajv engine raw answer
    obtain ⟨o, kept, hrun, hresult, hkept⟩ := answer_delivered issuesOf ajv engine rfl
      (formRequest_checked issuesOf ajv engine hargs answer) hextracted hpages
      (answerWith_satisfies hlast hv) (t := Sample.timings)
    obtain ⟨fields, hfields, hsatisfied, -⟩ := h _ _ _ (formRequest raw) _ _ _ _ o rfl rfl hrun
    obtain ⟨v', hv', hallowed⟩ := hsatisfied spec hspec
    rw [hresult] at hfields
    cases hfields
    rw [hkept _ last hlast, answerWith, lookup_setEntry, if_pos rfl] at hv'
    cases hv'
    exact hallowed
  · intro hconsistent errorText v tokens req deps t env w o hraw _ hrun
    obtain ⟨args, input, doc, data, hparsed, -, hresult⟩ :=
      runPipeline_ok (handle_accepts env) hrun
    have hsame := safeParseArgs_ok.mp hparsed
    rw [hraw, hargs] at hsame
    cases hsame
    exact honors_of_consistent hconsistent (safeParse_ok.mp hresult)

end Delivered

namespace Sample

def amountFields : List FieldSpec :=
  [{ name := "amount", type := .number, required := true },
    { name := "currency", type := .string, enum := some ["EUR", "USD"] }]

def amountArgs : JsValue :=
  .obj [("fields", .arr
    [.obj [("name", .str "amount"), ("type", .str "number"), ("required", .bool true)],
      .obj [("name", .str "currency"), ("type", .str "string"),
        ("enum", .arr [.str "EUR", .str "USD"])]])]

def clashingFields : List FieldSpec :=
  [{ name := "id", type := .string, required := true }, { name := "id", type := .number }]

def clashingArgs : JsValue :=
  .obj [("fields", .arr
    [.obj [("name", .str "id"), ("type", .str "string"), ("required", .bool true)],
      .obj [("name", .str "id"), ("type", .str "number")]])]

def formRun (raw : JsValue) (fields : List (String × JsValue)) :
    Except Thrown (OcrOutcome JsValue) :=
  ((runPipeline (formDefinition id (fun _ _ => .ok none) engine) (formRequest raw)
    (answering (.obj [("fields", .obj fields)])) timings).eval
    (World.handle (surroundings [])) {}).1

end Sample

theorem formData_honored_iff_amount :
    ∃ o, Sample.formRun Sample.amountArgs
        [("amount", .num (.finite 12)), ("currency", .null), ("note", .str "paid")] = .ok o ∧
      Honors Sample.amountFields o.result := by
  have hconsistent : Consistent Sample.amountFields := by
    intro spec hspec last hlast
    simp only [Sample.amountFields, List.mem_cons, List.not_mem_nil, or_false] at hspec
    obtain rfl | rfl := hspec
    · cases hlast
      exact ⟨id, Or.inl rfl⟩
    · cases hlast
      exact ⟨id, fun _ h => h⟩
  obtain ⟨o, hrun⟩ : ∃ o, Sample.formRun Sample.amountArgs
      [("amount", .num (.finite 12)), ("currency", .null), ("note", .str "paid")] = .ok o :=
    ⟨_, rfl⟩
  refine ⟨o, hrun, ?_⟩
  have hargs : formDataExtractionArgsSchema Sample.engine (orEmptyObject Sample.amountArgs) =
      .ok (some (.fields Sample.amountFields)) := rfl
  exact (formData_honored_iff id (fun _ _ => .ok none) Sample.engine hargs).mpr hconsistent
    _ _ _ (formRequest Sample.amountArgs) _ _ _ _ o rfl rfl hrun

/-- A number is delivered where the first entry of the name asks for a text. -/
theorem later_entry_replaces_former :
    formDataExtractionArgsSchema Sample.engine Sample.clashingArgs =
        .ok (some (.fields Sample.clashingFields)) ∧
      ∃ o, Sample.formRun Sample.clashingArgs [("id", .num (.finite 1))] = .ok o ∧
        ¬Honors Sample.clashingFields o.result := by
  refine ⟨rfl, _, rfl, fun h => ?_⟩
  obtain ⟨fields, hfields, hsatisfied, -⟩ := h
  cases hfields
  obtain ⟨v, hv, hallowed⟩ := hsatisfied _ List.mem_cons_self
  cases hv
  obtain ⟨hnull, -⟩ | hspec := hallowed
  · cases hnull
  · obtain ⟨s, hs⟩ := hspec
    cases hs

end OcrService
