import OcrService.Documents
import Mathlib.Data.List.Basic

/-! From the `layout_parsing` responses of GLM-OCR to a document (`providers/glm/mapper.ts`).
What the code reads with `??` or `?.` may be missing. -/
namespace OcrService

structure LayoutDetail where
  label : String
  bbox_2d : Option Bbox
  content : Option String

structure PageDims where
  width : ℚ
  height : ℚ

structure LayoutParsingResponse where
  md_results : Option String
  layout_details : Option (List (Option (List LayoutDetail)))
  /-- `data_info?.pages`. -/
  pages : Option (List PageDims)
  /-- `usage?.total_tokens`. -/
  total_tokens : Option Nat

structure MappingMeta where
  provider : String
  durationMs : Nat
  fellBackFrom : Option String := none

/-- Unknown labels degrade to `image`. -/
def toBlockLabel (label : String) : BlockLabel :=
  if label = "image" then .image
  else if label = "text" then .text
  else if label = "formula" then .formula
  else if label = "table" then .table
  else .image

def toBlocks (response : LayoutParsingResponse) (pageOffset : Nat) : List LayoutBlock :=
  let details := ((response.layout_details.getD []).zipIdx).flatMap fun (pageDetails, pageIndex) =>
    (pageDetails.getD []).map fun detail => (detail, pageOffset + pageIndex + 1)
  details.zipIdx.map fun ((detail, page), index) =>
    { index
      page
      label := toBlockLabel detail.label
      bbox := detail.bbox_2d
      content := detail.content.getD "" }

/-- The pages of a response, at least one; its markdown stands on the first. -/
def toPages (response : LayoutParsingResponse) (pageOffset : Nat) : List PageResult :=
  let dims := response.pages.getD []
  let pageCount := max (max dims.length (response.layout_details.getD []).length) 1
  let markdown := jsTrim (response.md_results.getD "")
  (List.range pageCount).map fun i =>
    { page := pageOffset + i + 1
      markdown := if i = 0 then markdown else ""
      width := dims[i]?.map PageDims.width
      height := dims[i]?.map PageDims.height }

structure Mapping where
  pages : List PageResult := []
  blocks : List LayoutBlock := []
  pageOffset : Nat := 0
  tokensUsed : Nat := 0

def Mapping.add (m : Mapping) (response : LayoutParsingResponse) : Mapping :=
  let responsePages := toPages response m.pageOffset
  { pages := m.pages ++ responsePages
    blocks := m.blocks ++ toBlocks response m.pageOffset
    pageOffset := m.pageOffset + responsePages.length
    tokensUsed := m.tokensUsed + response.total_tokens.getD 0 }

/-- `blocks.forEach((block, i) => { block.index = i; })`. -/
def reindexed (blocks : List LayoutBlock) : List LayoutBlock :=
  blocks.zipIdx.map fun (block, i) => { block with index := i }

def mapLayoutParsing (responses : List LayoutParsingResponse) (info : MappingMeta) :
    RecognizedDocument :=
  let m := responses.foldl Mapping.add {}
  let markdown := jsTrim ("\n\n".intercalate
    ((m.pages.map PageResult.markdown).filter fun md => jsLength md > 0))
  { markdown
    plainText := markdown
    pages := m.pages
    blocks := reindexed m.blocks
    pageCount := m.pages.length
    provider := info.provider
    fellBackFrom := truthy info.fellBackFrom
    tokensUsed := some m.tokensUsed
    durationMs := info.durationMs }

theorem reindexed_index (blocks : List LayoutBlock) :
    (reindexed blocks).map LayoutBlock.index = List.range blocks.length := by
  rw [reindexed, List.map_map, List.range_eq_range']
  exact List.zipIdx_map_snd 0 blocks

/-- The blocks of a document are numbered in their order. -/
theorem mapLayoutParsing_index (responses : List LayoutParsingResponse) (info : MappingMeta) :
    ((mapLayoutParsing responses info).blocks.map LayoutBlock.index).Pairwise (· < ·) := by
  change ((reindexed _).map LayoutBlock.index).Pairwise (· < ·)
  rw [reindexed_index]
  exact List.pairwise_lt_range

end OcrService
