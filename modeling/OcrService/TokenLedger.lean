import OcrService.Calls
import OcrService.Usage

/-! The tokens a tenant is charged with, and the tokens its recognitions reported. -/
namespace OcrService
open Interaction

def Recognition.tokensFor (tenantId : String) (r : Recognition) : Nat :=
  match r.answer with
  | .ok doc => if r.opts.userIdHash = some tenantId then doc.tokensUsed.getD 0 else 0
  | .error _ => 0

def World.spent (w : World) (tenantId : String) : Nat :=
  (w.recognitions.map (Recognition.tokensFor tenantId)).sum

/-- The tokens of the cache entry that answers the call. -/
def hitTokens (deps : PipelineDeps) (w : World) (c : Call) (env : Surroundings) : Nat :=
  (cacheHit deps w c env).elim 0 fun doc => doc.tokensUsed.getD 0

section
variable {env : Surroundings} {input : DocumentInput} {deps : PipelineDeps}

theorem tokensFor_asked_fail {req : OcrRequest} {ps : List OcrProvider}
    (h : ∀ p ∈ ps, answers env input (recognizeOptions req) p = false) (tenantId : String) :
    ((asked env input (recognizeOptions req) ps).map (Recognition.tokensFor tenantId)).sum = 0 := by
  induction ps with
  | nil => rfl
  | cons p ps ih =>
    obtain ⟨err, herr⟩ := answers_false (h p (by simp))
    have hrest := ih fun q hq => h q (by simp [hq])
    simp only [asked, List.map_cons, List.sum_cons] at hrest ⊢
    rw [hrest]
    simp [Recognition.tokensFor, herr]

theorem tokensFor_asked_recognized {req : OcrRequest} {before : List OcrProvider} {p : OcrProvider}
    {doc : RecognizedDocument}
    (h : ∀ q ∈ before, answers env input (recognizeOptions req) q = false)
    (hok : env.recognize p input (recognizeOptions req) = .ok doc) (tenantId : String) :
    ((asked env input (recognizeOptions req) (before ++ [p])).map
        (Recognition.tokensFor tenantId)).sum =
      if req.tenantId = tenantId then doc.tokensUsed.getD 0 else 0 := by
  have hlast : Recognition.tokensFor tenantId ⟨p, input, recognizeOptions req, .ok doc⟩ =
      if req.tenantId = tenantId then doc.tokensUsed.getD 0 else 0 := by
    simp [Recognition.tokensFor, recognizeOptions]
  have hbefore := tokensFor_asked_fail h tenantId
  simp only [asked] at hbefore ⊢
  rw [List.map_append, List.map_append, List.sum_append, hbefore, Nat.zero_add, ← hlast]
  simp [hok]

@[simp] theorem spent_stored (d : AnyOcrFunctionDefinition) (doc : RecognizedDocument) (w : World)
    (tenantId : String) : (w.stored d input deps env doc).spent tenantId = w.spent tenantId := by
  obtain ⟨cache, cacheWrites, hstored⟩ := w.stored_eq d input deps env doc
  rw [hstored]
  rfl

@[simp] theorem ledger_stored (d : AnyOcrFunctionDefinition) (doc : RecognizedDocument) (w : World)
    (col : Column) (tenantId : String) :
    (w.stored d input deps env doc).ledger col tenantId = w.ledger col tenantId := by
  obtain ⟨cache, cacheWrites, hstored⟩ := w.stored_eq d input deps env doc
  rw [hstored]
  rfl

@[simp] theorem stamped_tokensUsed (primary : OcrProvider) (i : Nat) (doc : RecognizedDocument) :
    (stamped primary i doc).tokensUsed = doc.tokensUsed := by
  by_cases hi : i > 0 <;> simp [stamped, hi]

theorem ledger_closed (fn : OcrFunctionKey) (tenant : String) (t : Timings)
    (v : Locals × Except Thrown (JsValue × RecognizedDocument)) (w : World) (col : Column)
    (tenantId : String) :
    (w.closed fn tenant t v).ledger col tenantId =
      w.ledger col tenantId + col.addsTo tenantId (closingUpsert tenant v) := by
  simp [World.closed, World.ledger, World.recorded, World.pending, Nat.add_assoc]

theorem closingUpsert_tokens_of_ok (d : AnyOcrFunctionDefinition) (req : OcrRequest) (l : Locals)
    (args : JsValue) (out : ExtractOutput) :
    (closingUpsert req.tenantId
      (afterExtraction d req deps l args input (.ok out))).tokensDelta =
        out.doc.tokensUsed.getD 0 := by
  simp only [afterExtraction]
  cases conclude d req deps args input out.doc <;> simp [closingUpsert, Except.map]

theorem closingUpsert_tokens_of_error {l : Locals} (h : l.doc = none) (tenantId : String)
    (err : Thrown) :
    (closingUpsert tenantId ((l, .error err) :
      Locals × Except Thrown (JsValue × RecognizedDocument))).tokensDelta = 0 := by
  simp [closingUpsert, h]

theorem closingUpsert_tenantId (tenantId : String)
    (v : Locals × Except Thrown (JsValue × RecognizedDocument)) :
    (closingUpsert tenantId v).tenantId = tenantId := by
  obtain ⟨l, r⟩ := v
  cases r <;> rfl

@[simp] theorem spent_closed (fn : OcrFunctionKey) (tenant : String) (t : Timings)
    (v : Locals × Except Thrown (JsValue × RecognizedDocument)) (w : World) (tenantId : String) :
    (w.closed fn tenant t v).spent tenantId = w.spent tenantId := rfl

end

/-- One request moves the charged tokens and the reported tokens alike, but for the
tokens of a cache entry, which are charged again. -/
theorem serve_tokens (deps : PipelineDeps) (c : Call) (env : Surroundings) (w : World)
    (tenantId : String) :
    (w.serve deps c env).2.ledger .tokens tenantId + w.spent tenantId =
      w.ledger .tokens tenantId + (w.serve deps c env).2.spent tenantId +
        if c.req.tenantId = tenantId then hitTokens deps w c env else 0 := by
  have hdoc := checkRequest_doc c.d c.req deps
  obtain ⟨l, err, hcheck, hserve⟩ | ⟨l, args, input, r, w', hcheck, hextracted, hserve⟩ :=
    serve_cases deps c env w
  · rw [hcheck] at hdoc
    have hfree := closingUpsert_tokens_of_error hdoc c.req.tenantId err
    rw [hserve]
    simp [ledger_closed, Column.addsTo, Column.tokens, hfree, hitTokens, cacheHit, hcheck]
  · rw [hcheck] at hdoc
    have hfree : ∀ err, Column.tokens.delta (closingUpsert c.req.tenantId
        (afterExtraction c.d c.req deps l args input (.error err))) = 0 :=
      closingUpsert_tokens_of_error hdoc c.req.tenantId
    have hcharge : ∀ out, Column.tokens.delta (closingUpsert c.req.tenantId
        (afterExtraction c.d c.req deps l args input (.ok out))) = out.doc.tokensUsed.getD 0 :=
      closingUpsert_tokens_of_ok c.d c.req l args
    rw [hserve]
    simp only [ledger_closed, spent_closed, Column.addsTo, closingUpsert_tenantId]
    cases hextracted with
    | skipped hskip => simp [hcharge, emptyDocument, hitTokens, cacheHit, hcheck, hskip]
    | unrouted err hskip hroute => simp [hfree, hitTokens, cacheHit, hcheck, hskip, hroute]
    | hit route doc hskip hroute hhit =>
      simp [hcharge, hitTokens, cacheHit, hcheck, hskip, hroute, hhit]
      omega
    | failed route last hskip hroute hmiss hfail =>
      have hnone := tokensFor_asked_fail hfail tenantId
      simp only [hfree, hitTokens, cacheHit, hcheck, hskip, hroute, hmiss, World.spent,
        List.map_append, List.sum_append, hnone]
      simp only [ite_self, Option.elim, Bool.false_eq_true]
      rfl
    | recognized route before after p doc hskip hroute hmiss hchain hfail hok =>
      have hspent := tokensFor_asked_recognized hfail hok tenantId
      simp only [hcharge, stamped_tokensUsed, ledger_stored, spent_stored, hitTokens, cacheHit,
        hcheck, hskip, hroute, hmiss]
      simp only [World.spent, List.map_append, List.sum_append, hspent, ite_self, Option.elim,
        Bool.false_eq_true]
      simp only [World.ledger, World.recorded, World.pending]
      omega

theorem ledger_happen (e : WorldEvent) (w : World) (col : Column) (tenantId : String) :
    (w.happen e).ledger col tenantId = w.ledger col tenantId := by
  cases e with
  | drop keys => exact w.ledger_drop keys col tenantId
  | land i => exact w.ledger_land i col tenantId

theorem spent_happen (e : WorldEvent) (w : World) (tenantId : String) :
    (w.happen e).spent tenantId = w.spent tenantId := by
  cases e with
  | drop keys => rfl
  | land i =>
    obtain ⟨inflight, usage, hland⟩ := w.land_eq i
    rw [World.happen, hland]
    rfl

def hitTokensTotal (deps : PipelineDeps) (tenantId : String) : World → List Turn → Nat
  | _, [] => 0
  | w, .serve c env :: turns =>
    (if c.req.tenantId = tenantId then hitTokens deps w c env else 0) +
      hitTokensTotal deps tenantId (w.turn deps (.serve c env)) turns
  | w, .happen e :: turns => hitTokensTotal deps tenantId (w.turn deps (.happen e)) turns

theorem session_tokens (deps : PipelineDeps) (tenantId : String) (w : World) (turns : List Turn) :
    (w.session deps turns).ledger .tokens tenantId + w.spent tenantId =
      w.ledger .tokens tenantId + (w.session deps turns).spent tenantId +
        hitTokensTotal deps tenantId w turns := by
  induction turns generalizing w with
  | nil => rfl
  | cons turn turns ih =>
    have hrest := ih (w.turn deps turn)
    cases turn with
    | serve c env =>
      have hstep := serve_tokens deps c env w tenantId
      simp only [World.session, List.foldl_cons, hitTokensTotal, World.turn] at hrest hstep ⊢
      omega
    | happen e =>
      have hledger := ledger_happen e w .tokens tenantId
      have hspent := spent_happen e w tenantId
      simp only [World.session, List.foldl_cons, hitTokensTotal, World.turn] at hrest ⊢
      omega

theorem hitTokensTotal_eq_zero_iff (deps : PipelineDeps) (tenantId : String) (w : World)
    (turns : List Turn) :
    hitTokensTotal deps tenantId w turns = 0 ↔
      EachServed deps (fun w c env => c.req.tenantId = tenantId → hitTokens deps w c env = 0)
        w turns := by
  induction turns generalizing w with
  | nil => simp [hitTokensTotal, EachServed]
  | cons turn turns ih =>
    cases turn with
    | serve c env => simp [hitTokensTotal, EachServed, ih]
    | happen e => exact ih _

/-- Once every upsert is applied, a tenant has been charged exactly what the recognitions
made for it reported, if and only if none of its requests was answered by a cache entry
that carries tokens. -/
theorem tokens_charged_iff (deps : PipelineDeps) (tenantId : String) {w : World}
    (hw : w.inflight = [] ∧ w.recognitions = []) {turns : List Turn}
    (happlied : (w.session deps turns).inflight = []) :
    (w.session deps turns).recorded .tokens tenantId =
        w.recorded .tokens tenantId + (w.session deps turns).spent tenantId ↔
      EachServed deps (fun w c env => c.req.tenantId = tenantId → hitTokens deps w c env = 0)
        w turns := by
  have hsession := session_tokens deps tenantId w turns
  have hstart : w.pending .tokens tenantId = 0 ∧ w.spent tenantId = 0 := by
    simp [World.pending, World.spent, hw.1, hw.2]
  have hend : (w.session deps turns).pending .tokens tenantId = 0 := by
    simp [World.pending, happlied]
  rw [← hitTokensTotal_eq_zero_iff]
  simp only [World.ledger, hstart, hend] at hsession
  omega

def Sample.classifyTwice : List Turn :=
  let c : Call :=
    ⟨documentClassification Sample.body, Sample.upload [0x89] "tenant", Sample.timings⟩
  [.serve c (Sample.surroundings []), .serve c (Sample.surroundings []), .happen (.land 0),
    .happen (.land 0)]

theorem tokens_charged_iff_textExtraction :
    let c : Call := ⟨textExtraction Sample.body, Sample.upload [0x89] "tenant", Sample.timings⟩
    let turns := [Turn.serve c (Sample.surroundings []), .serve c (Sample.surroundings []),
      .happen (.land 0), .happen (.land 0)]
    (({} : World).session Sample.deps turns).recorded .tokens "tenant" =
      ({} : World).recorded .tokens "tenant" +
        (({} : World).session Sample.deps turns).spent "tenant" :=
  (tokens_charged_iff Sample.deps "tenant" ⟨rfl, rfl⟩ rfl).mpr
    ((hitTokensTotal_eq_zero_iff _ _ _ _).mp (by decide))

/-- One recognition is charged for twice, and nothing is left in flight. -/
theorem classifyTwice_overcharged :
    let final := ({} : World).session Sample.deps Sample.classifyTwice
    final.inflight = [] ∧ final.recorded .tokens "tenant" ≠
      ({} : World).recorded .tokens "tenant" + final.spent "tenant" := by
  decide

end OcrService
