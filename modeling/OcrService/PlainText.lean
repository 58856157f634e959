import OcrService.Catalog
import OcrService.Cookies
import OcrService.Provenance
import OcrService.TextSniffing

/-! Uploads that are text already (`providers/plain-text.ts`): how their bytes are read, and which
texts come back as they were written. -/
namespace OcrService
open Interaction

def REPLACEMENT : Char := '\uFFFD'

/-- `buffer.toString("utf8")`. A byte that cannot go on with the character begun, whose bytes are
`pending`, ends it as a replacement and is then read as the first of the next. -/
def decodeLossy (s : Utf8State) (pending : Buffer) : Buffer → List Char
  | [] => if pending = [] then [] else [REPLACEMENT]
  | b :: rest =>
    match s.feed b with
    | some s' =>
      if s'.needed = 0 then Char.ofNat (codePoint (pending ++ [b])) :: decodeLossy .start [] rest
      else decodeLossy s' (pending ++ [b]) rest
    | none =>
      if pending = [] then REPLACEMENT :: decodeLossy .start [] rest
      else
        REPLACEMENT ::
          match Utf8State.start.feed b with
          | some s' =>
            if s'.needed = 0 then Char.ofNat (codePoint [b]) :: decodeLossy .start [] rest
            else decodeLossy s' [b] rest
          | none => REPLACEMENT :: decodeLossy .start [] rest

def bufferToString (buffer : Buffer) : String := String.ofList (decodeLossy .start [] buffer)

def bufferFrom (text : String) : Buffer := text.toList.flatMap String.utf8EncodeChar

example : bufferToString [0xE2, 0x82, 0xAC, 0xE2, 0x82, 0x41, 0xFF] = "€\uFFFDA\uFFFD" := by decide

section Feed
variable {s s' : Utf8State} {pending : Buffer} {b : UInt8} (rest : Buffer)

theorem decodeLossy_more (h : s.feed b = some s') (hneeded : s'.needed ≠ 0) :
    decodeLossy s pending (b :: rest) = decodeLossy s' (pending ++ [b]) rest := by
  simp only [decodeLossy, h, if_neg hneeded]

theorem decodeLossy_last (h : s.feed b = some s') (hneeded : s'.needed = 0) :
    decodeLossy s pending (b :: rest) =
      Char.ofNat (codePoint (pending ++ [b])) :: decodeLossy .start [] rest := by
  simp only [decodeLossy, h, if_pos hneeded]

end Feed

theorem tail_toNat (n : Nat) : (UInt8.ofNat (n % 64 + 128)).toNat = n % 64 + 128 :=
  toNat_ofNat (by omega)

theorem feed_tail {n : Nat} {lower upper : UInt8} {m : Nat} (hlower : lower.toNat ≤ m % 64 + 128)
    (hupper : m % 64 + 128 ≤ upper.toNat) :
    (Utf8State.mk (n + 1) lower upper).feed (UInt8.ofNat (m % 64 + 128)) =
      some ⟨n, 0x80, 0xBF⟩ := by
  rw [feed_more, tail_toNat, if_pos ⟨hlower, hupper⟩]

theorem decodeLossy_char (c : Char) (rest : Buffer) :
    decodeLossy .start [] (String.utf8EncodeChar c ++ rest) = c :: decodeLossy .start [] rest := by
  have hvalid : c.val.toNat.isValidChar := c.valid
  have hchar : ∀ {n : Nat}, n = c.val.toNat → Char.ofNat n = c := fun h => by
    rw [h]
    exact Char.ofNat_toNat c
  unfold String.utf8EncodeChar
  generalize c.val.toNat = v at hvalid hchar
  unfold Nat.isValidChar at hvalid
  dsimp only
  have hlow : (0x80 : UInt8).toNat = 128 := rfl
  have hhigh : (0xBF : UInt8).toNat = 191 := rfl
  split
  · rename_i hsize
    have hbyte : (UInt8.ofNat v).toNat = v := toNat_ofNat (by omega)
    have hfeed : Utf8State.start.feed (UInt8.ofNat v) = some .start := by
      rw [feed_start, hbyte, if_pos (by omega)]
    rw [List.cons_append, decodeLossy_last _ hfeed rfl, hchar ?_]
    · rfl
    · simpa [codePoint] using hbyte
  split
  · have hlead : (UInt8.ofNat (v / 64 % 32 + 192)).toNat = v / 64 % 32 + 192 :=
      toNat_ofNat (by omega)
    have hfeed : Utf8State.start.feed (UInt8.ofNat (v / 64 % 32 + 192)) = some ⟨1, 0x80, 0xBF⟩ := by
      rw [feed_start, hlead, if_neg (by omega), if_pos (by omega)]
    rw [List.cons_append, decodeLossy_more _ hfeed (by decide), List.cons_append,
      decodeLossy_last _ (feed_tail (by omega) (by omega)) rfl, hchar ?_]
    · rfl
    · simp only [List.nil_append, List.cons_append, codePoint, hlead, tail_toNat]
      omega
  split
  · have hlead : (UInt8.ofNat (v / 4096 % 16 + 224)).toNat = v / 4096 % 16 + 224 :=
      toNat_ofNat (by omega)
    have hfeed : ∃ lower upper, Utf8State.start.feed (UInt8.ofNat (v / 4096 % 16 + 224)) =
        some ⟨2, lower, upper⟩ ∧ lower.toNat ≤ v / 64 % 64 + 128 ∧
          v / 64 % 64 + 128 ≤ upper.toNat := by
      rw [feed_start, hlead, if_neg (by omega), if_neg (by omega), if_pos (by omega)]
      refine ⟨_, _, rfl, ?_, ?_⟩
      · split
        · have hfirst : (0xA0 : UInt8).toNat = 160 := rfl
          omega
        · omega
      · split
        · have hfirst : (0x9F : UInt8).toNat = 159 := rfl
          omega
        · omega
    obtain ⟨lower, upper, hfeed, hlower, hupper⟩ := hfeed
    rw [List.cons_append, decodeLossy_more _ hfeed (by simp), List.cons_append,
      decodeLossy_more _ (feed_tail hlower hupper) (by simp), List.cons_append,
      decodeLossy_last _ (feed_tail (by omega) (by omega)) rfl, hchar ?_]
    · rfl
    · simp only [List.nil_append, List.cons_append, codePoint, hlead, tail_toNat]
      omega
  · have hlead : (UInt8.ofNat (v / 262144 % 8 + 240)).toNat = v / 262144 % 8 + 240 :=
      toNat_ofNat (by omega)
    have hfeed : ∃ lower upper, Utf8State.start.feed (UInt8.ofNat (v / 262144 % 8 + 240)) =
        some ⟨3, lower, upper⟩ ∧ lower.toNat ≤ v / 4096 % 64 + 128 ∧
          v / 4096 % 64 + 128 ≤ upper.toNat := by
      rw [feed_start, hlead, if_neg (by omega), if_neg (by omega), if_neg (by omega),
        if_pos (by omega)]
      refine ⟨_, _, rfl, ?_, ?_⟩
      · split
        · have hfirst : (0x90 : UInt8).toNat = 144 := rfl
          omega
        · omega
      · split
        · have hfirst : (0x8F : UInt8).toNat = 143 := rfl
          omega
        · omega
    obtain ⟨lower, upper, hfeed, hlower, hupper⟩ := hfeed
    rw [List.cons_append, decodeLossy_more _ hfeed (by simp), List.cons_append,
      decodeLossy_more _ (feed_tail hlower hupper) (by simp), List.cons_append,
      decodeLossy_more _ (feed_tail (by omega) (by omega)) (by simp), List.cons_append,
      decodeLossy_last _ (feed_tail (by omega) (by omega)) rfl, hchar ?_]
    · rfl
    · simp only [List.nil_append, List.cons_append, codePoint, hlead, tail_toNat]
      omega

theorem decodeLossy_chars (cs : List Char) (rest : Buffer) :
    decodeLossy .start [] (cs.flatMap String.utf8EncodeChar ++ rest) =
      cs ++ decodeLossy .start [] rest := by
  induction cs with
  | nil => rfl
  | cons c cs ih =>
    rw [List.flatMap_cons, List.append_assoc, decodeLossy_char, ih]
    rfl

theorem bufferToString_bufferFrom (text : String) : bufferToString (bufferFrom text) = text := by
  have hread := decodeLossy_chars text.toList []
  rw [List.append_nil] at hread
  rw [bufferToString, bufferFrom, hread]
  simp [decodeLossy]

/-- Reading loses nothing exactly on what the strict decoder accepts. -/
theorem bufferFrom_bufferToString_iff (buffer : Buffer) :
    bufferFrom (bufferToString buffer) = buffer ↔ decodesUtf8 buffer = true := by
  rw [decodesUtf8_iff]
  constructor
  · intro h
    exact ⟨_, h.symm⟩
  · intro h
    obtain ⟨cs, rfl⟩ := h
    have hread : bufferToString (bufferFrom (String.ofList cs)) = String.ofList cs :=
      bufferToString_bufferFrom _
    simp only [bufferFrom, String.toList_ofList] at hread
    rw [bufferFrom, hread, String.toList_ofList]

def plainTextRecognize (buffer : Buffer) (durationMs : Nat) : RecognizedDocument :=
  let markdown := jsTrim (bufferToString buffer)
  { markdown
    plainText := markdown
    pages := [{ page := 1, markdown }]
    blocks := []
    pageCount := 1
    provider := plainText.name
    durationMs }

/-- Every provider stamps its name on its documents, and texts are read as they are. -/
def ReadsTexts : Makes := fun p b r =>
  (∀ doc, r = .ok doc → doc.provider = p.name) ∧
    (p = plainText → ∃ durationMs fellBackFrom,
      r = .ok { plainTextRecognize b durationMs with fellBackFrom })

theorem readsTexts_stamped : Makes.Stamped ReadsTexts where
  provider _ _ doc h := h.1 doc rfl
  fellBack p b doc primary h := by
    refine ⟨fun doc' hdoc' => ?_, fun hp => ?_⟩
    · cases hdoc'
      exact h.1 doc rfl
    · obtain ⟨durationMs, fellBackFrom, hdoc⟩ := h.2 hp
      cases hdoc
      exact ⟨durationMs, primary, rfl⟩

theorem orderedProviders_text (env : Env) (fn : OcrFunctionKey) (policy : ProviderPolicy) :
    orderedProviders (buildProviderRegistry env) ⟨.text, [.text], fn, policy⟩ = [plainText] := by
  rw [buildProviderRegistry]
  cases env.GLM_ENABLED <;> rfl

def textResult (buffer : Buffer) (args : TextExtractionArgs) : TextExtractionResult :=
  executeTextExtraction (plainTextRecognize buffer 0) args

theorem truthy_getD_self (s : String) : (truthy (some s)).getD s = s := by
  rw [truthy, Option.filter_some]
  split <;> rfl

theorem textResult_text (buffer : Buffer) {args : TextExtractionArgs}
    (hrange : args.pageRange = none) :
    (textResult buffer args).text = jsTrim (bufferToString buffer) := by
  have hpages : pagesInRange args.pageRange (plainTextRecognize buffer 0) =
      [{ page := 1, markdown := jsTrim (bufferToString buffer) }] := by
    rw [hrange]
    rfl
  simp only [textResult, executeTextExtraction, hpages]
  cases args.format with
  | plain =>
    rw [pagesToPlain, hrange, if_pos (by simp)]
    exact jsTrim_jsTrim _
  | markdown =>
    simp only [pagesToMarkdown, List.map_cons, List.map_nil, String.intercalate_singleton,
      jsTrim_jsTrim]
    exact truthy_getD_self _

def LooksLikeText (pkg : Packages) (buffer : Buffer) : Prop :=
  pkg.fromBuffer buffer = none ∧ isProbablyText buffer = true

theorem decodesUtf8_of_short {buffer : Buffer} (h : isProbablyText buffer = true)
    (hshort : buffer.length ≤ TEXT_SAMPLE_BYTES) : decodesUtf8 buffer = true := by
  rw [isProbablyText, List.take_of_length_le hshort] at h
  by_contra hutf8
  simp [hutf8] at h

def textInput (pkg : Packages) (req : OcrRequest) : DocumentInput where
  buffer := req.file.buffer
  mimeGroup := .text
  sha256 := pkg.sha256 req.file.buffer
  originalName := req.file.originalName

section Text
variable {issuesOf : JsValue → JsValue} {req : OcrRequest} {deps : PipelineDeps}
variable {args : TextExtractionArgs}

theorem checkRequest_text (hargs : textExtractionArgsSchema (orEmptyObject req.args) = some args)
    (htext : LooksLikeText deps.pkg req.file.buffer) :
    (checkRequest (textExtractionDefinition issuesOf) req deps).2 =
      .ok (args, textInput deps.pkg req) := by
  have hparsed : parseArgs (textExtractionDefinition issuesOf) req.args = .ok args :=
    parseArgs_eq_ok.mpr (forArgs_ok.mpr (safeParse_ok.mpr hargs))
  have hingest : ingest deps.pkg req = .ok (textInput deps.pkg req) := by
    simp only [ingest, sniff, htext.1, htext.2, if_true]
    rfl
  rw [checkRequest, hparsed]
  simp only [hingest]
  rfl

theorem textResult_safe (buffer : Buffer) (args : TextExtractionArgs) :
    (textResult buffer args).Safe where
  pageCount := by
    change ((1 : ℕ) : ℚ) ≤ MAX_SAFE_INTEGER
    norm_num [MAX_SAFE_INTEGER]
  blocks block hblock := by
    obtain ⟨format, pageRange, includeBlocks⟩ := args
    cases includeBlocks <;> cases pageRange <;> cases hblock

theorem conclude_text (args : TextExtractionArgs) (buffer : Buffer) (durationMs : Nat)
    (fellBackFrom : Option String) (input : DocumentInput) :
    conclude (textExtractionDefinition issuesOf) req deps args input
      { plainTextRecognize buffer durationMs with fellBackFrom } =
        .ok (textResult buffer args).toJs := by
  rw [conclude_eq_ok]
  refine ⟨?_, (textResult buffer args).toJs, rfl, ?_⟩
  · change 1 ≤ 100
    decide
  exact safeParse_ok.mpr (textExtractionResultSchema_toJs (textResult_safe buffer args))

end Text

/-- Whatever is read, cached, dropped and interleaved beside it: a text that is posted for
extraction is answered with what the function makes of its own bytes, and never with an error.
Without a page range that is the whole text, trimmed; what was written as a text is read as that
text, and a file within the sample is read without loss. -/
theorem text_round_trip (issuesOf : JsValue → JsValue) (deps : PipelineDeps)
    (hregistry : deps.providers = buildProviderRegistry deps.env)
    {moves : List (Move Call Surroundings WorldEvent)}
    (hsha : ∀ c c', .spawn c ∈ moves → .spawn c' ∈ moves →
      deps.pkg.sha256 c.req.file.buffer = deps.pkg.sha256 c'.req.file.buffer →
      c.req.file.buffer = c'.req.file.buffer)
    (hreads : ∀ i env, .step i env ∈ moves → env.Answers deps ReadsTexts)
    {w : World} (hw : w.cache = fun _ => none)
    {calls : Conf Call ServiceOp ServiceOp.Answer (Except Thrown (OcrOutcome JsValue)) World}
    (hrun : (concurrently deps).run ⟨w, []⟩ moves = some calls)
    {th : Thread Call ServiceOp ServiceOp.Answer (Except Thrown (OcrOutcome JsValue))}
    (hth : th ∈ calls.threads) (hd : th.req.d = (textExtractionDefinition issuesOf).untyped)
    {args : TextExtractionArgs}
    (hargs : textExtractionArgsSchema (orEmptyObject th.req.req.args) = some args)
    (htext : LooksLikeText deps.pkg th.req.req.file.buffer)
    {out : Except Thrown (OcrOutcome JsValue)} (hout : th.prog = .ret out) :
    let b := th.req.req.file.buffer
    (∃ info, out = .ok ⟨(textResult b args).toJs, info⟩) ∧
      (args.pageRange = none → (textResult b args).text = jsTrim (bufferToString b)) ∧
      (∀ text, b = bufferFrom text → bufferToString b = text) ∧
      (b.length ≤ TEXT_SAMPLE_BYTES → bufferFrom (bufferToString b) = b) := by
  intro b
  refine ⟨?_, textResult_text b, fun text hb => hb ▸ bufferToString_bufferFrom text, fun hshort =>
    (bufferFrom_bufferToString_iff b).mpr (decodesUtf8_of_short htext.2 hshort)⟩
  have hends := run_ends deps readsTexts_stamped
    (hregistry ▸ buildProviderRegistry_names_nodup deps.env) hsha hreads hw hrun th hth out hout
  have hchecked : (checkRequest (textExtractionDefinition issuesOf) th.req.req deps).2 =
      .ok (args, textInput deps.pkg th.req.req) := checkRequest_text hargs htext
  have hcheck : (checkRequest th.req.d th.req.req deps).2 =
      .ok (orEmptyObject th.req.req.args, textInput deps.pkg th.req.req) := by
    rw [hd, checkRequest_untyped, hchecked]
    rfl
  have hordered : orderedProviders deps.providers
      (routeInput th.req.d (textInput deps.pkg th.req.req) deps) = [plainText] := by
    rw [hregistry, hd]
    exact orderedProviders_text deps.env _ _
  cases hends with
  | refused hrefused =>
    rw [hcheck] at hrefused
    cases hrefused
  | unrouted hcheck' _ hroute =>
    rw [hcheck] at hcheck'
    cases hcheck'
    rw [routeProvider, hordered] at hroute
    cases hroute
  | unread hcheck' _ hfailed =>
    rw [hcheck] at hcheck'
    cases hcheck'
    obtain ⟨err, hreads⟩ := hfailed plainText (hordered ▸ List.mem_singleton_self _)
    obtain ⟨_, _, hread⟩ := hreads.2 rfl
    cases hread
  | concluded cached hcheck' hdoc =>
    rw [hcheck] at hcheck'
    cases hcheck'
    cases hdoc with
    | nothing hskip =>
      rw [hd] at hskip
      cases hskip
    | made _ hp hmade =>
      obtain rfl := List.mem_singleton.mp (hordered ▸ hp)
      obtain ⟨durationMs, fellBackFrom, hread⟩ := hmade.2 rfl
      cases hread
      have hparsed : parseArgs (textExtractionDefinition issuesOf) th.req.req.args = .ok args :=
        parseArgs_eq_ok.mpr (forArgs_ok.mpr (safeParse_ok.mpr hargs))
      rw [hd, conclude_untyped hparsed, conclude_text]
      exact ⟨_, rfl⟩

namespace Sample

def readingTexts : Surroundings where
  recognize p input opts :=
    if p = plainText then .ok (plainTextRecognize input.buffer 0)
    else (surroundings []).recognize p input opts

def extracting (buffer : Buffer) : Call :=
  ⟨(textExtractionDefinition id).untyped, upload buffer "tenant", timings⟩

def twoTexts : List (Move Call Surroundings WorldEvent) :=
  [.spawn (extracting [0x68, 0xC3, 0xA9]), .spawn (extracting [0x6F, 0x6B])] ++
    (List.replicate 8 [Move.step 0 readingTexts, .step 1 readingTexts]).flatten

theorem readingTexts_answers (deps : PipelineDeps) : readingTexts.Answers deps ReadsTexts := by
  intro p _ input opts _ _
  by_cases hp : p = plainText
  · subst hp
    refine ⟨fun doc hdoc => ?_, fun _ => ⟨0, none, rfl⟩⟩
    cases hdoc
    rfl
  · refine ⟨fun doc hdoc => ?_, fun h => absurd h hp⟩
    simp only [readingTexts, if_neg hp] at hdoc
    cases hdoc
    rfl

end Sample

theorem text_round_trip_two :
    ∃ calls, (concurrently Sample.deps).run ⟨{}, []⟩ Sample.twoTexts = some calls ∧
      calls.threads.map (fun th => th.prog.result?.isSome) = [true, true] ∧
      ∀ th ∈ calls.threads, ∀ out, th.prog = .ret out →
        (∃ info, out = .ok ⟨(textResult th.req.req.file.buffer {}).toJs, info⟩) ∧
          (textResult th.req.req.file.buffer {}).text =
            jsTrim (bufferToString th.req.req.file.buffer) := by
  have hspawn : ∀ c, Move.spawn c ∈ Sample.twoTexts →
      c = Sample.extracting [0x68, 0xC3, 0xA9] ∨ c = Sample.extracting [0x6F, 0x6B] := by
    intro c h
    simpa [Sample.twoTexts] using h
  have hsha : ∀ c c', .spawn c ∈ Sample.twoTexts → .spawn c' ∈ Sample.twoTexts →
      Sample.digest c.req.file.buffer = Sample.digest c'.req.file.buffer →
      c.req.file.buffer = c'.req.file.buffer := by
    intro c c' hc hc' h
    have htext := congrArg Sha256Hex.text h
    obtain rfl | rfl := hspawn c hc <;> obtain rfl | rfl := hspawn c' hc'
    · rfl
    · exact absurd htext (by decide)
    · exact absurd htext (by decide)
    · rfl
  have hreads : ∀ i env, Move.step i env ∈ Sample.twoTexts →
      env.Answers Sample.deps ReadsTexts := by
    intro i env h
    obtain rfl : env = Sample.readingTexts := by
      simp [Sample.twoTexts] at h
      tauto
    exact Sample.readingTexts_answers _
  have hends : ((concurrently Sample.deps).run ⟨{}, []⟩ Sample.twoTexts).map (fun calls =>
      calls.threads.map fun th => th.prog.result?.isSome) = some [true, true] := by decide +kernel
  obtain ⟨calls, hrun, hended⟩ := Option.map_eq_some_iff.mp hends
  refine ⟨calls, hrun, hended, fun th hth out hout => ?_⟩
  have hcall := hspawn _ (Machine.run_spawned hrun hth)
  have hargs : textExtractionArgsSchema (orEmptyObject th.req.req.args) = some {} := by
    obtain h | h := hcall <;> rw [h] <;> rfl
  have hround := text_round_trip id Sample.deps rfl hsha hreads rfl hrun hth
    (by obtain h | h := hcall <;> rw [h] <;> rfl) hargs
    (by obtain h | h := hcall <;> rw [h] <;> exact ⟨rfl, by decide⟩) hout
  exact ⟨hround.1, hround.2.1 rfl⟩

end OcrService
