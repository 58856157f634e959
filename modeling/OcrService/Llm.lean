import OcrService.FormSchema
import OcrService.PipelineSpec

/-! The model client (`llm/azure.ts`), and the schemas its answers are held against. -/
namespace OcrService
open Interaction

/-- `v[key]`, where a missing entry counts as `null`. -/
def JsValue.get (v : JsValue) (key : String) : JsValue :=
  match v with
  | .obj fields => (fields.lookup key).getD .null
  | _ => .null

section Entries
variable {α : Type}

/-- `object[key] = value`: an entry that is there keeps its place. -/
def setEntry : List (String × α) → String → α → List (String × α)
  | [], key, value => [(key, value)]
  | (k, v) :: rest, key, value =>
    if k = key then (k, value) :: rest else (k, v) :: setEntry rest key value

def fromEntries (entries : List (String × α)) : List (String × α) :=
  entries.foldl (fun object entry => setEntry object entry.1 entry.2) []

theorem lookup_cons_ite (k : String) (v : α) (rest : List (String × α)) (name : String) :
    ((k, v) :: rest).lookup name = if name = k then some v else rest.lookup name := by
  by_cases h : name = k
  · subst h
    rw [List.lookup_cons_self, if_pos rfl]
  · rw [List.lookup_cons, if_neg h, beq_false_of_ne h]

theorem lookup_setEntry (entries : List (String × α)) (key : String) (value : α) (name : String) :
    (setEntry entries key value).lookup name =
      if name = key then some value else entries.lookup name := by
  induction entries with
  | nil => rw [setEntry, lookup_cons_ite]
  | cons entry rest ih =>
    obtain ⟨k, v⟩ := entry
    rw [setEntry]
    by_cases hk : k = key
    · subst hk
      rw [if_pos rfl, lookup_cons_ite, lookup_cons_ite]
      by_cases hname : name = k
      · rw [if_pos hname, if_pos hname]
      · simp only [if_neg hname]
    · rw [if_neg hk, lookup_cons_ite, lookup_cons_ite, ih]
      by_cases hname : name = k
      · subst hname
        rw [if_pos rfl, if_neg hk, if_pos rfl]
      · rw [if_neg hname, if_neg hname]

def JsValue.set (v : JsValue) (key : String) (value : JsValue) : JsValue :=
  match v with
  | .obj fields => .obj (setEntry fields key value)
  | _ => v

theorem JsValue.get_set (fields : List (String × JsValue)) (key : String) (value : JsValue)
    (name : String) :
    ((obj fields).set key value).get name =
      if name = key then value else (obj fields).get name := by
  simp only [set, get, lookup_setEntry]
  split <;> rfl

theorem lookup_fromEntries (entries : List (String × α)) (name : String) :
    (fromEntries entries).lookup name = entries.reverse.lookup name := by
  induction entries using List.reverseRecOn with
  | nil => rfl
  | append_singleton entries entry ih =>
    rw [fromEntries, List.foldl_append] at *
    simp only [List.foldl_cons, List.foldl_nil]
    rw [lookup_setEntry, ih, List.reverse_append, List.reverse_singleton, List.singleton_append]
    obtain ⟨k, v⟩ := entry
    rw [lookup_cons_ite]

theorem setEntry_keys_subset (entries : List (String × α)) (key : String) (value : α) :
    ∀ name ∈ (setEntry entries key value).map Prod.fst,
      name = key ∨ name ∈ entries.map Prod.fst := by
  induction entries with
  | nil =>
    intro name hname
    exact Or.inl (by simpa [setEntry] using hname)
  | cons entry rest ih =>
    obtain ⟨k, v⟩ := entry
    intro name hname
    rw [setEntry] at hname
    by_cases hk : k = key
    · rw [if_pos hk] at hname
      exact Or.inr hname
    · rw [if_neg hk, List.map_cons, List.mem_cons] at hname
      rw [List.map_cons, List.mem_cons]
      obtain hname | hname := hname
      · exact Or.inr (Or.inl hname)
      · obtain h | h := ih name hname
        · exact Or.inl h
        · exact Or.inr (Or.inr h)

theorem fromEntries_keys_subset (entries : List (String × α)) :
    ∀ name ∈ (fromEntries entries).map Prod.fst, name ∈ entries.map Prod.fst := by
  induction entries using List.reverseRecOn with
  | nil => exact fun _ h => h
  | append_singleton entries entry ih =>
    intro name hname
    rw [fromEntries, List.foldl_append] at hname
    rw [List.map_append, List.mem_append]
    obtain rfl | h := setEntry_keys_subset _ _ _ name hname
    · exact Or.inr (by simp)
    · exact Or.inl (ih name h)

theorem setEntry_nodup {entries : List (String × α)} (h : (entries.map Prod.fst).Nodup)
    (key : String) (value : α) : ((setEntry entries key value).map Prod.fst).Nodup := by
  induction entries with
  | nil => simp [setEntry]
  | cons entry rest ih =>
    obtain ⟨k, v⟩ := entry
    rw [List.map_cons, List.nodup_cons] at h
    rw [setEntry]
    by_cases hk : k = key
    · rw [if_pos hk, List.map_cons, List.nodup_cons]
      exact h
    · rw [if_neg hk, List.map_cons, List.nodup_cons]
      refine ⟨fun hmem => ?_, ih h.2⟩
      obtain hname | hname := setEntry_keys_subset rest key value k hmem
      · exact hk hname
      · exact h.1 hname

theorem fromEntries_nodup (entries : List (String × α)) :
    ((fromEntries entries).map Prod.fst).Nodup := by
  induction entries using List.reverseRecOn with
  | nil => exact List.nodup_nil
  | append_singleton entries entry ih =>
    rw [fromEntries, List.foldl_append]
    exact setEntry_nodup ih entry.1 entry.2

theorem lookup_of_mem {entries : List (String × α)} (h : (entries.map Prod.fst).Nodup)
    {key : String} {value : α} (hmem : (key, value) ∈ entries) :
    entries.lookup key = some value := by
  induction entries with
  | nil => cases hmem
  | cons entry rest ih =>
    obtain ⟨k, v⟩ := entry
    rw [List.map_cons, List.nodup_cons] at h
    rw [lookup_cons_ite]
    obtain heq | hrest := List.mem_cons.mp hmem
    · cases heq
      rw [if_pos rfl]
    · have hne : key ≠ k := by
        intro hk
        subst hk
        exact h.1 (List.mem_map.mpr ⟨(key, value), hrest, rfl⟩)
      rw [if_neg hne, ih h.2 hrest]

end Entries

abbrev ZodType := JsValue → Option JsValue

def zodString : ZodType
  | .str s => some (.str s)
  | _ => none

/-- No `NaN` and no infinity is a number here. -/
def zodNumber : ZodType
  | .num (.finite q) => some (.num (.finite q))
  | _ => none

def zodNumberWithin (min max : ℚ) : ZodType
  | .num (.finite q) => if min ≤ q ∧ q ≤ max then some (.num (.finite q)) else none
  | _ => none

def zodBoolean : ZodType
  | .bool b => some (.bool b)
  | _ => none

def zodEnum (values : List String) : ZodType
  | .str s => if s ∈ values then some (.str s) else none
  | _ => none

def zodNullable (schema : ZodType) : ZodType
  | .null => some .null
  | v => schema v

def zodArray (item : ZodType) : ZodType
  | .arr xs => (xs.mapM item).map .arr
  | _ => none

/-- Every key of the shape must be there; other keys are left out. -/
def zodMembers (fields : List (String × JsValue)) :
    List (String × ZodType) → Option (List (String × JsValue))
  | [] => some []
  | (key, schema) :: shape => do
    let value ← (fields.lookup key).bind schema
    let rest ← zodMembers fields shape
    return (key, value) :: rest

def zodObject (shape : List (String × ZodType)) : ZodType
  | .obj fields => (zodMembers fields shape).map .obj
  | _ => none

def zodRecord : ZodType
  | .obj fields => some (.obj fields)
  | _ => none

/-- `safeParse`; `issuesOf` is what the library says about a value it rejects. -/
def safeParse {α : Type} (issuesOf : JsValue → JsValue) (parse : JsValue → Option α) :
    Schema JsValue α := fun v =>
  match parse v with
  | some a => .ok a
  | none => .error (issuesOf v)

theorem safeParse_ok {α : Type} {issuesOf : JsValue → JsValue} {parse : JsValue → Option α}
    {v : JsValue} {a : α} : safeParse issuesOf parse v = .ok a ↔ parse v = some a := by
  rw [safeParse]
  cases parse v <;> simp

/-- A schema that measures its value, and may not get to the end of that. -/
def safeParseArgs {α : Type} (issuesOf : JsValue → JsValue)
    (parse : JsValue → Except StackOverflow (Option α)) : ArgsSchema α := fun v =>
  match parse v with
  | .ok (some a) => .ok a
  | .ok none => .error (.issues (issuesOf v))
  | .error err => .error (.overflow err)

theorem safeParseArgs_ok {α : Type} {issuesOf : JsValue → JsValue}
    {parse : JsValue → Except StackOverflow (Option α)} {v : JsValue} {a : α} :
    safeParseArgs issuesOf parse v = .ok a ↔ parse v = .ok (some a) := by
  rw [safeParseArgs]
  cases parse v with
  | error err => simp
  | ok parsed => cases parsed <;> simp

theorem zodString_eq_some {v out : JsValue} :
    zodString v = some out ↔ ∃ s, v = .str s ∧ out = .str s := by
  cases v <;> simp [zodString, eq_comm]

theorem zodNumberWithin_eq_some {min max : ℚ} {v out : JsValue} :
    zodNumberWithin min max v = some out ↔
      ∃ q, v = .num (.finite q) ∧ (min ≤ q ∧ q ≤ max) ∧ out = .num (.finite q) := by
  constructor
  · intro h
    unfold zodNumberWithin at h
    split at h
    · split at h
      · rename_i q hq
        cases h
        exact ⟨q, rfl, hq, rfl⟩
      · cases h
    · cases h
  · intro h
    obtain ⟨q, rfl, hq, rfl⟩ := h
    rw [zodNumberWithin, if_pos hq]

theorem zodMembers_keys {fields out : List (String × JsValue)} {shape : List (String × ZodType)}
    (h : zodMembers fields shape = some out) : out.map Prod.fst = shape.map Prod.fst := by
  induction shape generalizing out with
  | nil =>
    cases h
    rfl
  | cons entry shape ih =>
    obtain ⟨key, schema⟩ := entry
    simp only [zodMembers, bind, Option.bind_eq_some_iff, pure, Option.some.injEq] at h
    obtain ⟨value, -, rest, hrest, rfl⟩ := h
    rw [List.map_cons, List.map_cons, ih hrest]

theorem lookup_zodMembers {fields out : List (String × JsValue)} {shape : List (String × ZodType)}
    (h : zodMembers fields shape = some out) (key : String) :
    out.lookup key = (shape.lookup key).bind fun schema => (fields.lookup key).bind schema := by
  induction shape generalizing out with
  | nil =>
    cases h
    rfl
  | cons entry shape ih =>
    obtain ⟨k, schema⟩ := entry
    simp only [zodMembers, bind, Option.bind_eq_some_iff, pure, Option.some.injEq] at h
    obtain ⟨value, ⟨v, hv, hvalue⟩, rest, hrest, rfl⟩ := h
    rw [lookup_cons_ite, lookup_cons_ite]
    by_cases hk : key = k
    · subst hk
      rw [if_pos rfl, if_pos rfl, Option.bind_some, hv, Option.bind_some, hvalue]
    · rw [if_neg hk, if_neg hk, ih hrest]

theorem zodMembers_exists_iff {fields : List (String × JsValue)} {shape : List (String × ZodType)} :
    (∃ out, zodMembers fields shape = some out) ↔
      ∀ entry ∈ shape, ∃ value, (fields.lookup entry.1).bind entry.2 = some value := by
  induction shape with
  | nil => simp [zodMembers]
  | cons entry shape ih =>
    rw [List.forall_mem_cons, ← ih]
    constructor
    · intro h
      obtain ⟨out, h⟩ := h
      simp only [zodMembers, bind, Option.bind_eq_some_iff, pure] at h
      obtain ⟨value, ⟨v, hv, hvalue⟩, rest, hrest, -⟩ := h
      exact ⟨⟨value, by rw [hv, Option.bind_some, hvalue]⟩, rest, hrest⟩
    · intro h
      obtain ⟨⟨value, hvalue⟩, rest, hrest⟩ := h
      refine ⟨(entry.1, value) :: rest, ?_⟩
      simp only [zodMembers, hvalue, hrest, bind, Option.bind_some, pure]

inductive ModelReply where
  | failed (err : Thrown)
  | refusal (text : String)
  | empty
  | notJson
  | json (v : JsValue) (totalTokens : Option Nat)

/-- `AzureLlmClient.complete`; `errorText` is the message of an error of the library. -/
def azureComplete (errorText : JsValue → String) (model : StructuredRequest → ModelReply) :
    LlmClient := fun req =>
  match model req with
  | .failed err => .error err
  | .refusal text => .error (.error ("Model refused the request: " ++ text))
  | .empty => .error (.error "Azure OpenAI returned an empty completion")
  | .notJson =>
    .error (.error "Azure OpenAI returned non-JSON content for a structured request")
  | .json v totalTokens =>
    match req.schema v with
    | .error issues =>
      .error (.error ("Azure OpenAI result failed schema validation: " ++ errorText issues))
    | .ok data => .ok { data, tokensUsed := totalTokens.getD 0 }

section Delivered
variable {TArgs TResult : Type} {σ : Type*}

theorem interpret_ok {d : OcrFunctionDefinition TArgs TResult} {ctx : OcrContext} {args : TArgs}
    {result : TResult} :
    interpret d ctx args = .ok result ↔
      ∃ raw, d.execute ctx args = .ok raw ∧ resolveResultSchema d args raw = .ok result := by
  rw [interpret]
  cases d.execute ctx args with
  | error err => cases err <;> simp
  | ok raw =>
    simp only [Except.ok.injEq, exists_eq_left']
    cases resolveResultSchema d args raw <;> simp

theorem conclude_eq_ok {d : OcrFunctionDefinition TArgs TResult} {req : OcrRequest}
    {deps : PipelineDeps} {args : TArgs} {input : DocumentInput} {doc : RecognizedDocument}
    {result : TResult} :
    conclude d req deps args input doc = .ok result ↔
      doc.pageCount ≤ d.maxPages ∧
        ∃ raw, d.execute (buildContext d req deps input doc) args = .ok raw ∧
          resolveResultSchema d args raw = .ok result := by
  rw [conclude, ← interpret_ok]
  by_cases hpages : doc.pageCount > d.maxPages
  · rw [if_pos hpages]
    refine iff_of_false (fun h => ?_) (fun h => absurd h.1 (Nat.not_le.mpr hpages))
    cases h
  · rw [if_neg hpages]
    exact (and_iff_right (Nat.not_lt.mp hpages)).symm

theorem outcome_afterExtraction_ok {d : OcrFunctionDefinition TArgs TResult} {req : OcrRequest}
    {deps : PipelineDeps} {t : Timings} {l : Locals} {args : TArgs} {input : DocumentInput}
    {extracted : Except Thrown ExtractOutput} {o : OcrOutcome TResult}
    (h : outcome t (afterExtraction d req deps l args input extracted) = .ok o) :
    ∃ out, extracted = .ok out ∧ conclude d req deps args input out.doc = .ok o.result := by
  cases extracted with
  | error err => cases h
  | ok out =>
    rw [afterExtraction] at h
    cases hconclude : conclude d req deps args input out.doc with
    | error err =>
      rw [hconclude] at h
      cases h
    | ok result =>
      rw [hconclude] at h
      cases h
      exact ⟨out, rfl, hconclude⟩

theorem runPipeline_ok {h : (o : ServiceOp) → σ → o.Answer × σ}
    (hA : ∀ o s, SinksAccept o (h o s).1) {d : OcrFunctionDefinition TArgs TResult}
    {req : OcrRequest} {deps : PipelineDeps} {t : Timings} {s : σ} {o : OcrOutcome TResult}
    (hrun : ((runPipeline d req deps t).eval h s).1 = .ok o) :
    ∃ args input doc raw, d.argsSchema (orEmptyObject req.args) = .ok args ∧
      d.execute (buildContext d req deps input doc) args = .ok raw ∧
      resolveResultSchema d args raw = .ok o.result := by
  rw [eval_runPipeline h hA] at hrun
  cases hcheck : checkRequest d req deps with
  | mk l r =>
    have hcases := checkRequest_cases d req deps
    rw [hcheck] at hcases
    cases r with
    | error err =>
      rw [stages_refused hcheck] at hrun
      cases hrun
    | ok ai =>
      obtain ⟨args, input⟩ := ai
      rw [stages_admitted hcheck, Prog.eval_bind, Prog.eval_ret] at hrun
      cases hcases with
      | passed _ _ hargs hfile =>
        obtain ⟨out, -, hconclude⟩ := outcome_afterExtraction_ok hrun
        obtain ⟨-, raw, hraw, hresult⟩ := conclude_eq_ok.mp hconclude
        exact ⟨args, input, out.doc, raw, parseArgs_eq_ok.mp hargs, hraw, hresult⟩

/-- A request that is admitted, extracted and concluded is answered with the result. -/
theorem runPipeline_delivers {h : (o : ServiceOp) → σ → o.Answer × σ}
    (hA : ∀ o s, SinksAccept o (h o s).1) {d : OcrFunctionDefinition TArgs TResult}
    {req : OcrRequest} {deps : PipelineDeps} {t : Timings} {s : σ} {l : Locals} {args : TArgs}
    {input : DocumentInput} {out : ExtractOutput} {result : TResult}
    (hcheck : checkRequest d req deps = (l, .ok (args, input)))
    (hextracted : ((extraction d req deps input).eval h s).1 = .ok out)
    (hresult : conclude d req deps args input out.doc = .ok result) :
    ∃ o, ((runPipeline d req deps t).eval h s).1 = .ok o ∧ o.result = result := by
  refine ⟨{ result, info := responseMeta out.doc out.cached t }, ?_, rfl⟩
  rw [eval_runPipeline h hA, stages_admitted hcheck, Prog.eval_bind, Prog.eval_ret, hextracted,
    afterExtraction, hresult]
  rfl

end Delivered

def answering (v : JsValue) : PipelineDeps :=
  { Sample.deps with llm := azureComplete (fun _ => "invalid") fun _ => .json v none }

end OcrService
