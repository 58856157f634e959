import OcrService.Decimals.Doubles
import OcrService.Functions
import OcrService.GlmMapper
import OcrService.Prompts
import Mathlib.Algebra.Order.Floor.Ring
import Mathlib.Data.List.Infix
import Mathlib.Data.Rat.Floor

/-! SIGNING (`functions/signing/execute.ts`, `prompt.ts`). What is computed from coordinates is
rounded to doubles where blocks are correlated, and exact where an image is cropped. -/
namespace OcrService
open Decimals

def buildSigningJudgmentPrompt (cueContext : String) : Prompt where
  system := buildSystem
    ["You are a signature-block analyst.",
      "Given a cropped region of an executed document and its surrounding label text,",
      "decide whether it contains a handwritten signature, " ++
        "whether a company seal/stamp is present,",
      "and read any signatory name and date. " ++
        "Report signed=false if the region is an empty signature line."]
  user := wrapUntrusted "SIGNATURE-BLOCK CONTEXT" cueContext ++ "\n\nJudge the attached crop."

structure Slot where
  label : String
  page : Nat
  bbox : Bbox
  image : Option LocatedBlock
  context : String

def CORRELATION_THRESHOLD : ℚ := 1 / 4

def Bbox.center (b : Bbox) : ℚ × ℚ := (doubleMid b.x0 b.x1, doubleMid b.y0 b.y1)

/-- `hypot` is `Math.hypot`. -/
def distance (hypot : ℚ → ℚ → ℚ) (a b : Bbox) : ℚ :=
  hypot (doubleSub a.center.1 b.center.1) (doubleSub a.center.2 b.center.2)

/-- `slice(0, n)` by UTF-16 code units, less half of a pair that it would cut. -/
def jsTake (n : Nat) (s : String) : String :=
  String.ofList (go n s.toList)
where
  go : Nat → List Char → List Char
    | _, [] => []
    | n, c :: cs =>
      let units := if c.val > 0xFFFF then 2 else 1
      if units ≤ n then c :: go (n - units) cs else []

section Slots
variable (toLowerCase : String → String) (hypot : ℚ → ℚ → ℚ)

def matchCue (content : String) (cues : List String) : Option String :=
  cues.find? fun cue => jsIncludes (toLowerCase content) (toLowerCase cue)

def nearer (bbox : Bbox) (page : Nat) (best : Option LocatedBlock × ℚ) (image : LocatedBlock) :
    Option LocatedBlock × ℚ :=
  if image.block.page ≠ page then best
  else if distance hypot bbox image.bbox ≤ best.2 then (some image, distance hypot bbox image.bbox)
  else best

def nearestImage (bbox : Bbox) (page : Nat) (images : List LocatedBlock) : Option LocatedBlock :=
  (images.foldl (nearer hypot bbox page) (none, CORRELATION_THRESHOLD)).1

def imageBlocks (allBlocks : List LayoutBlock) : List LocatedBlock :=
  allBlocks.filterMap fun b => if b.label = .image then b.located? else none

/-- `byImage`, a `Map` in the order of its insertions, and `orphans`. -/
structure SlotTable where
  byImage : List (Nat × Slot) := []
  orphans : List Slot := []

def Slot.addContext (slot : Slot) (content : String) : Slot :=
  { slot with context := jsTake 800 (jsTrim (slot.context ++ "\n" ++ content)) }

def SlotTable.addImage (table : SlotTable) (cue : String) (block : LayoutBlock)
    (image : LocatedBlock) : SlotTable :=
  if image.block.index ∈ table.byImage.map Prod.fst then
    { table with byImage := table.byImage.map fun (index, slot) =>
        (index, if index = image.block.index then slot.addContext block.content else slot) }
  else
    { table with byImage := table.byImage ++
        [(image.block.index,
          { label := cue, page := block.page, bbox := image.bbox, image := some image,
            context := jsTrim block.content })] }

def SlotTable.addOrphan (table : SlotTable) (cue : String) (located : LocatedBlock) : SlotTable :=
  { table with orphans := table.orphans ++
      [{ label := cue, page := located.block.page, bbox := located.bbox, image := none,
         context := jsTrim located.block.content }] }

/-- The loop body of `correlateSlots`. An empty cue counts as none. -/
def SlotTable.correlate (cues : List String) (images : List LocatedBlock) (table : SlotTable)
    (block : LayoutBlock) : SlotTable :=
  if block.label = .image then table
  else
    match block.located?, truthy (matchCue toLowerCase block.content cues) with
    | some located, some cue =>
      match nearestImage hypot located.bbox block.page images with
      | some image => table.addImage cue block image
      | none => table.addOrphan cue located
    | _, _ => table

def correlateSlots (allBlocks : List LayoutBlock) (cues : List String) : List Slot :=
  let table := allBlocks.foldl
    (SlotTable.correlate toLowerCase hypot cues (imageBlocks allBlocks)) {}
  table.byImage.map Prod.snd ++ table.orphans

end Slots

structure CropArea where
  left : Int
  top : Int
  width : Int
  height : Int
  deriving DecidableEq

def CROP_PADDING : ℚ := 2 / 100

def clamp01 (n : ℚ) : ℚ := max 0 (min 1 n)

def cropArea (width height : Nat) (bbox : Bbox) : CropArea :=
  let x0 := clamp01 (bbox.x0 - CROP_PADDING)
  let y0 := clamp01 (bbox.y0 - CROP_PADDING)
  let x1 := clamp01 (bbox.x1 + CROP_PADDING)
  let y1 := clamp01 (bbox.y1 + CROP_PADDING)
  let left := min ⌊x0 * width⌋ (width - 1)
  let top := min ⌊y0 * height⌋ (height - 1)
  { left
    top
    width := max 1 (min ⌈(x1 - x0) * width⌉ (width - left))
    height := max 1 (min ⌈(y1 - y0) * height⌉ (height - top)) }

def base64Digit (n : Nat) : Char :=
  "ABCDEFGHIJKLMNOPQRSTUVWXYZabcdefghijklmnopqrstuvwxyz0123456789+/".toList.getD n '='

def base64 (buffer : Buffer) : String := String.ofList (go buffer)
where
  go : Buffer → List Char
    | [] => []
    | [a] => [base64Digit (a.toNat / 4), base64Digit (a.toNat % 4 * 16), '=', '=']
    | [a, b] =>
      [base64Digit (a.toNat / 4), base64Digit (a.toNat % 4 * 16 + b.toNat / 16),
        base64Digit (b.toNat % 16 * 4), '=']
    | a :: b :: c :: rest =>
      base64Digit (a.toNat / 4) :: base64Digit (a.toNat % 4 * 16 + b.toNat / 16) ::
        base64Digit (b.toNat % 16 * 4 + c.toNat / 64) :: base64Digit (c.toNat % 64) :: go rest

structure SigningJudgment where
  signed : Bool
  hasSeal : Bool
  signatoryName : Option String
  signedDate : Option String

structure JudgmentRequest where
  system : String
  user : String
  images : List String
  schemaName : String

/-- What the function uses of `sharp`, `pdf-to-img` and the model client. -/
structure SigningTools where
  metadata : Buffer → Except Thrown (Option Nat × Option Nat)
  extractPng : Buffer → CropArea → Except Thrown Buffer
  /-- The page images in their order; drawing one of them can fail. -/
  pdf : Buffer → Except Thrown (List (Except Thrown Buffer))
  complete : JudgmentRequest → Except Thrown SigningJudgment

def cropRegion (tools : SigningTools) (pageImage : Buffer) (bbox : Bbox) :
    Except Thrown String := do
  let (width, height) ← tools.metadata pageImage
  if width.getD 0 = 0 ∨ height.getD 0 = 0 then
    throw (.error "cropRegion: could not read page image dimensions")
  let buffer ← tools.extractPng pageImage (cropArea (width.getD 0) (height.getD 0) bbox)
  return "data:image/png;base64," ++ base64 buffer

/-- The loop of `rasterizePages`, which stops after page `last`. -/
def collectPages (pages : List Nat) (last : Nat) :
    Nat → List (Except Thrown Buffer) → Except Thrown (List (Nat × Buffer))
  | _, [] => .ok []
  | _, .error err :: _ => .error err
  | page, .ok image :: rest =>
    let found := if page ∈ pages then [(page, image)] else []
    if page ≥ last then .ok found
    else (collectPages pages last (page + 1) rest).map (found ++ ·)

def rasterizePages (tools : SigningTools) (file : OcrContextFile) (pages : List Nat) :
    Except Thrown (List (Nat × Buffer)) :=
  if pages = [] then .ok []
  else if file.mimeGroup = .image then .ok (pages.map fun page => (page, file.buffer))
  else
    match tools.pdf file.buffer with
    | .error err => .error err
    | .ok doc => collectPages pages (pages.foldr max 0) 1 doc

structure SignatureBlock where
  label : String
  page : Nat
  bbox : Bbox
  signed : Bool
  hasSeal : Bool
  signatoryName : Option String
  signedDate : Option String
  deriving DecidableEq

structure SigningResult where
  fullyExecuted : Bool
  blocks : List SignatureBlock
  unsignedBlocks : List String
  deriving DecidableEq

structure SigningArgs where
  geometryOnly : Bool := false
  signatureCues : List String :=
    ["Signature", "Signed by", "For and on behalf of", "Witness", "Director"]

def noJudgment : SigningJudgment where
  signed := false
  hasSeal := false
  signatoryName := none
  signedDate := none

def toBlock (slot : Slot) (judgment : SigningJudgment) : SignatureBlock where
  label := slot.label
  page := slot.page
  bbox := slot.bbox
  signed := judgment.signed
  hasSeal := judgment.hasSeal
  signatoryName := truthy judgment.signatoryName
  signedDate := truthy judgment.signedDate

def assemble (blocks : List SignatureBlock) : SigningResult where
  fullyExecuted := !blocks.isEmpty && blocks.all SignatureBlock.signed
  blocks := blocks
  unsignedBlocks := (blocks.filter fun b => !b.signed).map SignatureBlock.label

def judgmentRequest (slot : Slot) (crop : String) : JudgmentRequest where
  system := (buildSigningJudgmentPrompt slot.context).system
  user := (buildSigningJudgmentPrompt slot.context).user
  images := [crop]
  schemaName := "SIGNING_judgment"

structure JudgmentCall where
  image : LocatedBlock
  request : JudgmentRequest
  judgment : SigningJudgment

def judgeSlot (tools : SigningTools) (pageImages : List (Nat × Buffer)) (slot : Slot) :
    Except Thrown (SignatureBlock × Option JudgmentCall) :=
  match slot.image with
  | none => .ok (toBlock slot noJudgment, none)
  | some image =>
    match pageImages.lookup slot.page with
    | none => .ok (toBlock slot noJudgment, none)
    | some pageImage => do
      let crop ← cropRegion tools pageImage slot.bbox
      let request := judgmentRequest slot crop
      let judgment ← tools.complete request
      return (toBlock slot judgment, some { image, request, judgment })

def executeSigning (toLowerCase : String → String) (hypot : ℚ → ℚ → ℚ) (tools : SigningTools)
    (doc : RecognizedDocument) (file : OcrContextFile) (args : SigningArgs) :
    Except Thrown (SigningResult × List JudgmentCall) :=
  let slots := correlateSlots toLowerCase hypot doc.blocks args.signatureCues
  if args.geometryOnly then .ok (assemble (slots.map (toBlock · noJudgment)), [])
  else do
    let pagesNeeded := (slots.filter fun slot => slot.image.isSome).map Slot.page
    let pageImages ← rasterizePages tools file pagesNeeded
    let judged ← slots.mapM (judgeSlot tools pageImages)
    return (assemble (judged.map Prod.fst), judged.filterMap Prod.snd)

namespace Sample

def hypot (x y : ℚ) : ℚ := max |x| |y|

end Sample
end OcrService
