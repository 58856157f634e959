import OcrService.Values

/-! The canonical shapes of the extraction layer (`providers/types.ts`). -/
namespace OcrService

inductive MimeGroup where
  | pdf | image | docx | text
  deriving DecidableEq

def MimeGroup.name : MimeGroup → String
  | .pdf => "pdf"
  | .image => "image"
  | .docx => "docx"
  | .text => "text"

inductive Capability where
  | text | layout | tables | handwriting | seals
  deriving DecidableEq

def Capability.name : Capability → String
  | .text => "text"
  | .layout => "layout"
  | .tables => "tables"
  | .handwriting => "handwriting"
  | .seals => "seals"

inductive BlockLabel where
  | image | text | formula | table
  deriving DecidableEq

/-- `[x0, y0, x1, y1]`, normalised to 0–1. -/
structure Bbox where
  x0 : ℚ
  y0 : ℚ
  x1 : ℚ
  y1 : ℚ
  deriving DecidableEq

structure LayoutBlock where
  index : Nat
  page : Nat
  label : BlockLabel
  bbox : Option Bbox
  content : String
  deriving DecidableEq

structure LocatedBlock where
  block : LayoutBlock
  bbox : Bbox
  located : block.bbox = some bbox
  deriving DecidableEq

def LayoutBlock.located? (block : LayoutBlock) : Option LocatedBlock :=
  match h : block.bbox with
  | some bbox => some ⟨block, bbox, h⟩
  | none => none

theorem located?_eq_some {block : LayoutBlock} {l : LocatedBlock} :
    block.located? = some l ↔ l.block = block := by
  obtain ⟨block', bbox, hlocated⟩ := l
  constructor
  · intro h
    unfold LayoutBlock.located? at h
    split at h
    · exact congrArg LocatedBlock.block (Option.some.inj h).symm
    · cases h
  · intro h
    obtain rfl : block' = block := h
    unfold LayoutBlock.located?
    split
    · rename_i bbox' h'
      obtain rfl : bbox = bbox' := Option.some.inj (hlocated.symm.trans h')
      rfl
    · rename_i h'
      rw [hlocated] at h'
      cases h'

structure PageResult where
  page : Nat
  markdown : String
  width : Option ℚ := none
  height : Option ℚ := none
  deriving DecidableEq

/-- `tokensUsed` is what a vendor reports. Nothing checks it: where that is no count, a count
stands for it that the metrics may refuse (`SinksTake`). -/
structure RecognizedDocument where
  markdown : String
  plainText : String
  pages : List PageResult
  blocks : List LayoutBlock
  pageCount : Nat
  provider : String
  fellBackFrom : Option String := none
  tokensUsed : Option Nat := none
  durationMs : Nat
  deriving DecidableEq

structure Sha256Hex where
  text : String
  length_eq : text.toList.length = 64
  hex : ∀ c ∈ text.toList, c ∈ "0123456789abcdef".toList

structure DocumentInput where
  buffer : Buffer
  mimeGroup : MimeGroup
  sha256 : Sha256Hex
  originalName : String

structure RecognizeOptions where
  pageRange : Option (Nat × Nat) := none
  language : Option String := none
  returnCropImages : Bool := false
  requestId : Option String := none
  userIdHash : Option String := none

/-- What the router and the fallback chain read of an `OcrProvider`; its `recognize`
is an operation of the service (`ServiceOp.recognize`). -/
structure OcrProvider where
  name : String
  accepts : List MimeGroup
  capabilities : List Capability
  deriving DecidableEq

end OcrService
