import OcrService.Classification
import OcrService.FormResults
import OcrService.LayoutMapping
import OcrService.TextExtraction
import Mathlib.Tactic.Linarith
import Mathlib.Tactic.NormNum

/-! The functions as the catalog holds them (`functions/registry.ts`): with arguments of one type,
though each has its own. -/
namespace OcrService
open Interaction

section Untyped
variable {TArgs : Type}

/-- A function's body for the catalog. The arguments are carried as they came and parsed again
where they are used. -/
def FunctionBody.of (d : OcrFunctionDefinition TArgs JsValue) : FunctionBody where
  argsSchema raw := (d.argsSchema raw).map fun _ => raw
  resultSchema := .dynamic fun raw =>
    match d.argsSchema raw with
    | .ok args => resolveResultSchema d args
    | .error _ => fun _ => .error .null
  execute ctx raw :=
    match d.argsSchema raw with
    | .ok args => d.execute ctx args
    | .error _ => .error (.error "unparsed arguments")

def OcrFunctionDefinition.untyped (d : OcrFunctionDefinition TArgs JsValue) :
    AnyOcrFunctionDefinition :=
  defineOcrFunction d.key d.accepts d.requires d.sensitivity d.maxPages (.of d) d.skipExtraction

variable {d : OcrFunctionDefinition TArgs JsValue} {req : OcrRequest} {deps : PipelineDeps}

theorem parseArgs_untyped : parseArgs d.untyped req.args =
    (parseArgs d req.args).map fun _ => orEmptyObject req.args := by
  simp only [parseArgs, OcrFunctionDefinition.untyped, defineOcrFunction, FunctionBody.of]
  cases d.argsSchema (orEmptyObject req.args) with
  | ok args => rfl
  | error refusal => cases refusal <;> rfl

theorem checkRequest_untyped : checkRequest d.untyped req deps =
    ((checkRequest d req deps).1,
      (checkRequest d req deps).2.map fun (_, input) => (orEmptyObject req.args, input)) := by
  simp only [checkRequest, parseArgs_untyped]
  cases parseArgs d req.args with
  | error err => rfl
  | ok args =>
    cases ingest deps.pkg req with
    | error err => rfl
    | ok input =>
      simp only [Except.map]
      by_cases haccepts : d.accepts.contains input.mimeGroup = true
      · have haccepts' : d.untyped.accepts.contains input.mimeGroup = true := haccepts
        simp only [haccepts, haccepts', if_true]
      · have haccepts' : ¬d.untyped.accepts.contains input.mimeGroup = true := haccepts
        simp only [haccepts, haccepts']
        rfl

theorem conclude_untyped {args : TArgs} (hargs : parseArgs d req.args = .ok args)
    (input : DocumentInput) (doc : RecognizedDocument) :
    conclude d.untyped req deps (orEmptyObject req.args) input doc =
      conclude d req deps args input doc := by
  rw [parseArgs_eq_ok] at hargs
  simp only [conclude, interpret, resolveResultSchema, OcrFunctionDefinition.untyped,
    defineOcrFunction, FunctionBody.of, hargs]
  rfl

theorem checkRequest_untyped_ok {raw : JsValue} {input : DocumentInput}
    (h : (checkRequest d.untyped req deps).2 = .ok (raw, input)) :
    ∃ args, parseArgs d req.args = .ok args ∧ raw = orEmptyObject req.args := by
  have hcases := checkRequest_cases d.untyped req deps
  generalize checkRequest d.untyped req deps = v at hcases h
  cases hcases with
  | badArgs | badFile | unaccepted => cases h
  | passed _ _ hargs _ =>
    cases h
    rw [parseArgs_untyped] at hargs
    cases hparsed : parseArgs d req.args with
    | error err =>
      rw [hparsed] at hargs
      cases hargs
    | ok args =>
      rw [hparsed] at hargs
      exact ⟨args, rfl, (Except.ok.inj hargs).symm⟩

theorem runPipeline_untyped (d : OcrFunctionDefinition TArgs JsValue) (req : OcrRequest)
    (deps : PipelineDeps) (t : Timings) :
    runPipeline d.untyped req deps t = runPipeline d req deps t := by
  have hstages : stages d.untyped req deps = stages d req deps := by
    have hcases := checkRequest_cases d req deps
    simp only [stages, checkRequest_untyped]
    cases hcheck : checkRequest d req deps with
    | mk l r =>
      rw [hcheck] at hcases
      cases r with
      | error err => rfl
      | ok ai =>
        obtain ⟨args, input⟩ := ai
        cases hcases with
        | passed _ _ hargs _ =>
          have hafter : afterExtraction d.untyped req deps { input := some input }
              (orEmptyObject req.args) input = afterExtraction d req deps { input := some input }
                args input := by
            funext extracted
            cases extracted with
            | error err => rfl
            | ok out => simp only [afterExtraction, conclude_untyped hargs]
          simp only [Except.map, hafter]
          rfl
  simp only [runPipeline, hstages]
  rfl

end Untyped

def MAX_SAFE_INTEGER : ℚ := 2 ^ 53 - 1

def zodInt : ZodType
  | .num (.finite q) =>
    if q.den = 1 ∧ -MAX_SAFE_INTEGER ≤ q ∧ q ≤ MAX_SAFE_INTEGER then some (.num (.finite q))
    else none
  | _ => none

def zodItems : List ZodType → List JsValue → Option (List JsValue)
  | [], [] => some []
  | schema :: schemas, x :: xs => do return (← schema x) :: (← zodItems schemas xs)
  | _, _ => none

def zodTuple (schemas : List ZodType) : ZodType
  | .arr xs => (zodItems schemas xs).map .arr
  | _ => none

structure ShapeEntry where
  key : String
  schema : ZodType
  optional : Bool := false

/-- `zodMembers` of a shape whose keys may be missing if they are optional. -/
def zodShape (fields : List (String × JsValue)) : List ShapeEntry → Option (List (String × JsValue))
  | [] => some []
  | entry :: shape =>
    match fields.lookup entry.key with
    | none => if entry.optional then zodShape fields shape else none
    | some v => do
      let value ← entry.schema v
      let rest ← zodShape fields shape
      return (entry.key, value) :: rest

def zodShaped (shape : List ShapeEntry) : ZodType
  | .obj fields => (zodShape fields shape).map .obj
  | _ => none

def TextFormat.name : TextFormat → String
  | .markdown => "markdown"
  | .plain => "plain"

def asTextFormat : JsValue → Option TextFormat
  | .str "markdown" => some .markdown
  | .str "plain" => some .plain
  | _ => none

def asPositive (v : JsValue) : Option Nat :=
  match zodInt v with
  | some (.num (.finite q)) => if 0 < q then some q.num.toNat else none
  | _ => none

def asRange : JsValue → Option (Nat × Nat)
  | .arr [first, last] => do return (← asPositive first, ← asPositive last)
  | _ => none

def textExtractionArgsSchema : JsValue → Option TextExtractionArgs
  | .obj fields => do
    let format ← optionalEntry fields "format" asTextFormat
    let pageRange ← optionalEntry fields "pageRange" asRange
    let includeBlocks ← optionalEntry fields "includeBlocks" asBool
    return { format := format.getD .markdown, pageRange, includeBlocks := includeBlocks.getD false }
  | _ => none

def JsValue.ofNat (n : Nat) : JsValue := .num (.finite n)

def Bbox.toJs (b : Bbox) : JsValue :=
  .arr [.num (.finite b.x0), .num (.finite b.y0), .num (.finite b.x1), .num (.finite b.y1)]

def LayoutBlock.toJs (block : LayoutBlock) : JsValue :=
  .obj ([("index", .ofNat block.index), ("page", .ofNat block.page),
    ("label", .str block.label.name)] ++ (block.bbox.map fun b => ("bbox", b.toJs)).toList ++
    [("content", .str block.content)])

def TextExtractionResult.toJs (result : TextExtractionResult) : JsValue :=
  .obj ([("text", .str result.text), ("format", .str result.format.name),
    ("pageCount", .ofNat result.pageCount)] ++
    (result.blocks.map fun blocks => ("blocks", .arr (blocks.map LayoutBlock.toJs))).toList)

def blockSchema : ZodType :=
  zodShaped
    [{ key := "index", schema := zodInt }, { key := "page", schema := zodInt },
      { key := "label", schema := zodEnum ["image", "text", "formula", "table"] },
      { key := "bbox", schema := zodTuple (List.replicate 4 zodNumber), optional := true },
      { key := "content", schema := zodString }]

def textExtractionResultSchema : ZodType :=
  zodShaped
    [{ key := "text", schema := zodString },
      { key := "format", schema := zodEnum ["markdown", "plain"] },
      { key := "pageCount", schema := zodInt },
      { key := "blocks", schema := zodArray blockSchema, optional := true }]

def textExtractionDefinition (issuesOf : JsValue → JsValue) :
    OcrFunctionDefinition TextExtractionArgs JsValue where
  key := .TEXT_EXTRACTION
  accepts := [.pdf, .image, .docx, .text]
  requires := [.text]
  sensitivity := .standard
  maxPages := 100
  argsSchema := forArgs (safeParse issuesOf textExtractionArgsSchema)
  resultSchema := .static (safeParse issuesOf textExtractionResultSchema)
  execute ctx args := .ok (executeTextExtraction ctx.doc args).toJs

/-- The numbers of the result are ones a double can tell apart. -/
structure TextExtractionResult.Safe (result : TextExtractionResult) : Prop where
  pageCount : (result.pageCount : ℚ) ≤ MAX_SAFE_INTEGER
  blocks : ∀ block ∈ result.blocks.getD [], (block.index : ℚ) ≤ MAX_SAFE_INTEGER ∧
    (block.page : ℚ) ≤ MAX_SAFE_INTEGER

theorem zodInt_ofNat {n : Nat} (h : (n : ℚ) ≤ MAX_SAFE_INTEGER) :
    zodInt (.ofNat n) = some (.ofNat n) := by
  have hlow : -MAX_SAFE_INTEGER ≤ (n : ℚ) := by
    have hzero : (0 : ℚ) ≤ n := Nat.cast_nonneg n
    have hmax : (0 : ℚ) ≤ MAX_SAFE_INTEGER := by norm_num [MAX_SAFE_INTEGER]
    linarith
  exact if_pos ⟨Rat.den_natCast n, hlow, h⟩

theorem blockSchema_toJs {block : LayoutBlock} (hindex : (block.index : ℚ) ≤ MAX_SAFE_INTEGER)
    (hpage : (block.page : ℚ) ≤ MAX_SAFE_INTEGER) :
    blockSchema block.toJs = some block.toJs := by
  obtain ⟨index, page, label, bbox, content⟩ := block
  have hlabel : zodEnum ["image", "text", "formula", "table"] (.str label.name) =
      some (.str label.name) := by cases label <;> rfl
  cases bbox with
  | none =>
    simp [blockSchema, zodShaped, zodShape, LayoutBlock.toJs, zodInt_ofNat hindex,
      zodInt_ofNat hpage, hlabel, zodString, lookup_cons_ite]
  | some b =>
    simp [blockSchema, zodShaped, zodShape, LayoutBlock.toJs, zodInt_ofNat hindex,
      zodInt_ofNat hpage, hlabel, zodString, lookup_cons_ite, Bbox.toJs, zodTuple, zodItems,
      zodNumber, List.replicate]

theorem mapM_some_self {α : Type} {f : α → Option α} {xs : List α} (h : ∀ x ∈ xs, f x = some x) :
    xs.mapM f = some xs := by
  induction xs with
  | nil => rfl
  | cons x xs ih =>
    rw [List.forall_mem_cons] at h
    rw [List.mapM_cons, h.1, ih h.2]
    rfl

theorem textExtractionResultSchema_toJs {result : TextExtractionResult} (h : result.Safe) :
    textExtractionResultSchema result.toJs = some result.toJs := by
  obtain ⟨text, format, pageCount, blocks⟩ := result
  obtain ⟨hcount, hblocks⟩ := h
  have hformat : zodEnum ["markdown", "plain"] (.str format.name) = some (.str format.name) := by
    cases format <;> rfl
  cases blocks with
  | none =>
    simp [textExtractionResultSchema, zodShaped, zodShape, TextExtractionResult.toJs,
      zodInt_ofNat hcount, hformat, zodString, lookup_cons_ite]
  | some blocks =>
    have hall : zodArray blockSchema (.arr (blocks.map LayoutBlock.toJs)) =
        some (.arr (blocks.map LayoutBlock.toJs)) := by
      refine congrArg (Option.map JsValue.arr) (mapM_some_self fun v hv => ?_)
      obtain ⟨block, hblock, rfl⟩ := List.mem_map.mp hv
      exact blockSchema_toJs (hblocks block hblock).1 (hblocks block hblock).2
    simp [textExtractionResultSchema, zodShaped, zodShape, TextExtractionResult.toJs,
      zodInt_ofNat hcount, hformat, zodString, lookup_cons_ite, hall]

theorem zodInt_some {v u : JsValue} (h : zodInt v = some u) : u = v := by
  unfold zodInt at h
  split at h
  · split at h
    · exact (Option.some.inj h).symm
    · cases h
  · cases h

theorem mapM_some {α β : Type} {f : α → Option β} {g : α → β} {xs : List α} {ys : List β}
    (hf : ∀ x ∈ xs, ∀ y, f x = some y → y = g x) (h : xs.mapM f = some ys) : ys = xs.map g := by
  induction xs generalizing ys with
  | nil => simpa using h.symm
  | cons x xs ih =>
    simp only [List.mapM_cons, Option.bind_eq_bind, Option.bind_eq_some_iff] at h
    obtain ⟨y, hy, zs, hzs, hys⟩ := h
    obtain ⟨hx, hxs⟩ := List.forall_mem_cons.mp hf
    rw [hx y hy, ih hxs hzs] at hys
    exact (Option.some.inj hys).symm

theorem blockSchema_some {block : LayoutBlock} {v : JsValue}
    (h : blockSchema block.toJs = some v) : v = block.toJs := by
  obtain ⟨index, page, label, bbox, content⟩ := block
  have hlabel : zodEnum ["image", "text", "formula", "table"] (.str label.name) =
      some (.str label.name) := by cases label <;> rfl
  cases bbox with
  | none =>
    simp [blockSchema, zodShaped, zodShape, LayoutBlock.toJs, hlabel, zodString, lookup_cons_ite,
      Option.bind_eq_some_iff] at h
    obtain ⟨_, hindex, _, hpage, rfl⟩ := h
    rw [zodInt_some hindex, zodInt_some hpage]
    rfl
  | some b =>
    simp [blockSchema, zodShaped, zodShape, LayoutBlock.toJs, hlabel, zodString, lookup_cons_ite,
      Bbox.toJs, zodTuple, zodItems, zodNumber, List.replicate, Option.bind_eq_some_iff] at h
    obtain ⟨_, hindex, _, hpage, rfl⟩ := h
    rw [zodInt_some hindex, zodInt_some hpage]
    rfl

theorem textExtractionResultSchema_some {result : TextExtractionResult} {v : JsValue}
    (h : textExtractionResultSchema result.toJs = some v) : v = result.toJs := by
  obtain ⟨text, format, pageCount, blocks⟩ := result
  have hformat : zodEnum ["markdown", "plain"] (.str format.name) = some (.str format.name) := by
    cases format <;> rfl
  cases blocks with
  | none =>
    simp [textExtractionResultSchema, zodShaped, zodShape, TextExtractionResult.toJs, hformat,
      zodString, lookup_cons_ite, Option.bind_eq_some_iff] at h
    obtain ⟨_, hcount, rfl⟩ := h
    rw [zodInt_some hcount]
    rfl
  | some blocks =>
    simp [textExtractionResultSchema, zodShaped, zodShape, TextExtractionResult.toJs, hformat,
      zodString, zodArray, lookup_cons_ite, Option.bind_eq_some_iff] at h
    obtain ⟨_, hcount, _, hblocks, rfl⟩ := h
    rw [zodInt_some hcount, mapM_some (fun block _ _ hblock => blockSchema_some hblock) hblocks]
    rfl

end OcrService
