import Mathlib.Algebra.BigOperators.Group.List.Basic
import OcrService.GlmMapper

/-! The mapping of several GLM-OCR responses is put together from that of each
(`providers/glm/mapper.ts`). -/
namespace OcrService

def PageResult.shifted (pageOffset : Nat) (p : PageResult) : PageResult :=
  { p with page := p.page + pageOffset }

def LayoutBlock.shifted (pageOffset : Nat) (b : LayoutBlock) : LayoutBlock :=
  { b with page := b.page + pageOffset }

def LayoutBlock.renumbered (count : Nat) (b : LayoutBlock) : LayoutBlock :=
  { b with index := b.index + count }

def upstreamDetails (response : LayoutParsingResponse) : List LayoutDetail :=
  (response.layout_details.getD []).flatMap fun pageDetails => pageDetails.getD []

def BlockLabel.name : BlockLabel → String
  | .image => "image"
  | .text => "text"
  | .formula => "formula"
  | .table => "table"

/-- The details with the page each stands on. -/
def placedDetails (response : LayoutParsingResponse) (pageOffset : Nat) :
    List (LayoutDetail × Nat) :=
  ((response.layout_details.getD []).zipIdx).flatMap fun (pageDetails, pageIndex) =>
    (pageDetails.getD []).map fun detail => (detail, pageOffset + pageIndex + 1)

def joinMarkdown (first second : String) : String :=
  if first = "" then second
  else if second = "" then first
  else first ++ "\n\n" ++ second

def Mapping.append (m r : Mapping) : Mapping where
  pages := m.pages ++ r.pages.map (PageResult.shifted m.pageOffset)
  blocks := m.blocks ++ r.blocks.map (LayoutBlock.shifted m.pageOffset)
  pageOffset := m.pageOffset + r.pageOffset
  tokensUsed := m.tokensUsed + r.tokensUsed

def mapping (responses : List LayoutParsingResponse) : Mapping := responses.foldl Mapping.add {}

theorem toPages_shifted (response : LayoutParsingResponse) (pageOffset : Nat) :
    toPages response pageOffset = (toPages response 0).map (PageResult.shifted pageOffset) := by
  simp only [toPages, List.map_map]
  refine List.map_congr_left fun i _ => ?_
  simp only [Function.comp_apply, PageResult.shifted, PageResult.mk.injEq, and_true]
  omega

theorem toBlocks_eq (response : LayoutParsingResponse) (pageOffset : Nat) :
    toBlocks response pageOffset = (placedDetails response pageOffset).zipIdx.map
      fun ((detail, page), index) =>
        { index
          page
          label := toBlockLabel detail.label
          bbox := detail.bbox_2d
          content := detail.content.getD "" } := rfl

theorem toBlocks_shifted (response : LayoutParsingResponse) (pageOffset : Nat) :
    toBlocks response pageOffset =
      (toBlocks response 0).map (LayoutBlock.shifted pageOffset) := by
  have hpage : ∀ pageIndex, pageOffset + pageIndex + 1 = 0 + pageIndex + 1 + pageOffset := by
    intro pageIndex
    omega
  have hdetails : placedDetails response pageOffset =
      (placedDetails response 0).map fun (detail, page) => (detail, page + pageOffset) := by
    simp only [placedDetails, List.map_flatMap, List.map_map, Function.comp_def, hpage]
  rw [toBlocks_eq, toBlocks_eq, hdetails, List.zipIdx_map, List.map_map, List.map_map]
  rfl

theorem Mapping.add_eq_append (m : Mapping) (response : LayoutParsingResponse) :
    m.add response = m.append (Mapping.add {} response) := by
  simp only [Mapping.add, Mapping.append, List.nil_append, Nat.zero_add]
  rw [toPages_shifted response m.pageOffset, toBlocks_shifted response m.pageOffset,
    List.length_map]

theorem Mapping.append_assoc (a b c : Mapping) :
    (a.append b).append c = a.append (b.append c) := by
  have hp : PageResult.shifted (a.pageOffset + b.pageOffset) =
      PageResult.shifted a.pageOffset ∘ PageResult.shifted b.pageOffset := by
    funext p
    simp [PageResult.shifted, Nat.add_comm, Nat.add_left_comm]
  have hb : LayoutBlock.shifted (a.pageOffset + b.pageOffset) =
      LayoutBlock.shifted a.pageOffset ∘ LayoutBlock.shifted b.pageOffset := by
    funext b
    simp [LayoutBlock.shifted, Nat.add_comm, Nat.add_left_comm]
  simp [Mapping.append, hp, hb, Nat.add_assoc]

@[simp] theorem Mapping.append_empty (m : Mapping) : m.append {} = m := by
  simp [Mapping.append]

theorem foldl_add (m : Mapping) (responses : List LayoutParsingResponse) :
    responses.foldl Mapping.add m = m.append (mapping responses) := by
  induction responses generalizing m with
  | nil => exact m.append_empty.symm
  | cons response rest ih =>
    rw [mapping, List.foldl_cons, List.foldl_cons, ih, ih, m.add_eq_append, Mapping.append_assoc]

theorem mapping_append (first second : List LayoutParsingResponse) :
    mapping (first ++ second) = (mapping first).append (mapping second) := by
  rw [mapping, List.foldl_append, foldl_add]
  rfl

theorem mapping_cons (response : LayoutParsingResponse) (rest : List LayoutParsingResponse) :
    mapping (response :: rest) = (mapping [response]).append (mapping rest) :=
  mapping_append [response] rest

theorem toPages_page (response : LayoutParsingResponse) :
    (toPages response 0).map PageResult.page = List.range' 1 (toPages response 0).length := by
  simp only [toPages, List.map_map, List.length_map, List.length_range]
  rw [List.range'_eq_map_range]
  refine List.map_congr_left fun i _ => ?_
  simp only [Function.comp_apply]
  omega

theorem toPages_ne_nil (response : LayoutParsingResponse) :
    1 ≤ (toPages response 0).length := by
  simp only [toPages, List.length_map, List.length_range]
  omega

/-- A page for every list of details, whatever `data_info` says. -/
theorem details_le_toPages (response : LayoutParsingResponse) :
    (response.layout_details.getD []).length ≤ (toPages response 0).length := by
  simp only [toPages, List.length_map, List.length_range]
  omega

theorem placedDetails_fst (response : LayoutParsingResponse) :
    (placedDetails response 0).map Prod.fst = upstreamDetails response := by
  rw [placedDetails, upstreamDetails, List.map_flatMap]
  simp only [List.map_map, Function.comp_def, List.map_id']
  conv_rhs => rw [← List.zipIdx_map_fst 0 (response.layout_details.getD []), List.flatMap_map]

theorem placedDetails_page_le (response : LayoutParsingResponse) {placed : LayoutDetail × Nat}
    (h : placed ∈ placedDetails response 0) :
    1 ≤ placed.2 ∧ placed.2 ≤ (response.layout_details.getD []).length := by
  obtain ⟨⟨pageDetails, pageIndex⟩, hpage, hmem⟩ := List.mem_flatMap.mp h
  obtain ⟨detail, -, rfl⟩ := List.mem_map.mp hmem
  have hlt := (List.mk_mem_zipIdx_iff_getElem?.mp hpage)
  have := (List.getElem?_eq_some_iff.mp hlt).1
  constructor
  · simp
  · simp only [Nat.zero_add]
    omega

theorem placedDetails_pairwise (response : LayoutParsingResponse) :
    ((placedDetails response 0).map Prod.snd).Pairwise (· ≤ ·) := by
  rw [List.pairwise_map, placedDetails, List.pairwise_flatMap]
  constructor
  · intro pageDetails _
    rw [List.pairwise_map]
    exact List.pairwise_of_forall fun _ _ => Nat.le_refl _
  · have hindex : (((response.layout_details.getD []).zipIdx).map Prod.snd).Pairwise (· < ·) := by
      rw [List.zipIdx_map_snd]
      exact List.pairwise_lt_range'
    rw [List.pairwise_map] at hindex
    refine hindex.imp fun hlt x hx y hy => ?_
    obtain ⟨_, -, rfl⟩ := List.mem_map.mp hx
    obtain ⟨_, -, rfl⟩ := List.mem_map.mp hy
    simp only
    omega

theorem toBlocks_page (response : LayoutParsingResponse) :
    (toBlocks response 0).map LayoutBlock.page = (placedDetails response 0).map Prod.snd := by
  rw [toBlocks_eq, List.map_map]
  change List.map (Prod.snd ∘ Prod.fst) _ = _
  rw [← List.map_map, List.zipIdx_map_fst]

theorem toBlocks_upstream (response : LayoutParsingResponse) :
    (toBlocks response 0).map (fun b => (b.label, b.bbox, b.content)) =
      (upstreamDetails response).map
        fun d => (toBlockLabel d.label, d.bbox_2d, d.content.getD "") := by
  rw [← placedDetails_fst, toBlocks_eq, List.map_map, List.map_map]
  conv_rhs => rw [← List.zipIdx_map_fst 0 (placedDetails response 0), List.map_map]
  rfl

structure Mapping.Numbered (m : Mapping) : Prop where
  offset : m.pageOffset = m.pages.length
  pages : m.pages.map PageResult.page = List.range' 1 m.pages.length
  blocks : (m.blocks.map LayoutBlock.page).Pairwise (· ≤ ·)
  inside : ∀ b ∈ m.blocks, 1 ≤ b.page ∧ b.page ≤ m.pageOffset

theorem mapping_single (response : LayoutParsingResponse) :
    mapping [response] =
      { pages := toPages response 0
        blocks := toBlocks response 0
        pageOffset := (toPages response 0).length
        tokensUsed := response.total_tokens.getD 0 } := by
  simp [mapping, Mapping.add]

theorem numbered_single (response : LayoutParsingResponse) : (mapping [response]).Numbered := by
  rw [mapping_single]
  refine ⟨rfl, toPages_page response, ?_, ?_⟩
  · rw [toBlocks_page]
    exact placedDetails_pairwise response
  · intro b hb
    have hpage : b.page ∈ (placedDetails response 0).map Prod.snd := by
      rw [← toBlocks_page]
      exact List.mem_map_of_mem hb
    obtain ⟨placed, hplaced, heq⟩ := List.mem_map.mp hpage
    obtain ⟨hpos, hle⟩ := placedDetails_page_le response hplaced
    have hpages := details_le_toPages response
    rw [← heq]
    exact ⟨hpos, hle.trans hpages⟩

theorem Mapping.Numbered.append {m r : Mapping} (hm : m.Numbered) (hr : r.Numbered) :
    (m.append r).Numbered := by
  have hoffset := hm.offset
  refine ⟨?_, ?_, ?_, ?_⟩
  · simp [Mapping.append, hm.offset, hr.offset]
  · have hshift : (r.pages.map (PageResult.shifted m.pageOffset)).map PageResult.page =
        (r.pages.map PageResult.page).map (m.pages.length + ·) := by
      rw [List.map_map, List.map_map]
      refine List.map_congr_left fun p _ => ?_
      simp only [Function.comp_apply, PageResult.shifted]
      omega
    simp only [Mapping.append, List.map_append, List.length_append, List.length_map]
    rw [hshift, hm.pages, hr.pages, List.map_add_range', ← List.range'_append_1,
      Nat.add_comm 1 m.pages.length]
  · simp only [Mapping.append, List.map_append, List.map_map]
    rw [List.pairwise_append]
    refine ⟨hm.blocks, ?_, ?_⟩
    · have hblocks := hr.blocks
      rw [List.pairwise_map] at hblocks ⊢
      refine hblocks.imp fun hle => ?_
      simp only [Function.comp_apply, LayoutBlock.shifted]
      omega
    · intro x hx y hy
      obtain ⟨b, hb, rfl⟩ := List.mem_map.mp hx
      obtain ⟨c, hc, rfl⟩ := List.mem_map.mp hy
      have := (hm.inside b hb).2
      simp only [Function.comp_apply, LayoutBlock.shifted]
      omega
  · intro b hb
    simp only [Mapping.append, List.mem_append, List.mem_map] at hb ⊢
    obtain hb | ⟨c, hc, rfl⟩ := hb
    · have := hm.inside b hb
      omega
    · have := hr.inside c hc
      simp only [LayoutBlock.shifted]
      omega

theorem mapping_numbered (responses : List LayoutParsingResponse) :
    (mapping responses).Numbered := by
  induction responses with
  | nil => exact ⟨rfl, rfl, List.Pairwise.nil, by simp [mapping]⟩
  | cons response rest ih =>
    rw [mapping_cons]
    exact (numbered_single response).append ih

theorem length_le_pages (responses : List LayoutParsingResponse) :
    responses.length ≤ (mapping responses).pages.length := by
  induction responses with
  | nil => exact Nat.zero_le _
  | cons response rest ih =>
    have := toPages_ne_nil response
    rw [mapping_cons, mapping_single]
    simp only [Mapping.append, List.length_append, List.length_map, List.length_cons]
    omega

theorem mapping_upstream (responses : List LayoutParsingResponse) :
    (mapping responses).blocks.map (fun b => (b.label, b.bbox, b.content)) =
      (responses.flatMap upstreamDetails).map
        fun d => (toBlockLabel d.label, d.bbox_2d, d.content.getD "") := by
  induction responses with
  | nil => rfl
  | cons response rest ih =>
    rw [mapping_cons, mapping_single, List.flatMap_cons, List.map_append, ← toBlocks_upstream,
      ← ih]
    simp [Mapping.append, LayoutBlock.shifted, Function.comp_def]

theorem mapping_tokens (responses : List LayoutParsingResponse) :
    (mapping responses).tokensUsed =
      (responses.map fun response => response.total_tokens.getD 0).sum := by
  induction responses with
  | nil => rfl
  | cons response rest ih =>
    rw [mapping_cons, mapping_single, List.map_cons, List.sum_cons, ← ih]
    rfl

def markdowns (m : Mapping) : List String :=
  (m.pages.map PageResult.markdown).filter fun md => jsLength md > 0

theorem jsLength_pos {s : String} : jsLength s > 0 ↔ s ≠ "" := by
  rw [jsLength, ne_eq, ← String.toList_eq_nil_iff]
  cases hs : s.toList with
  | nil => simp
  | cons c cs =>
    simp only [List.map_cons, List.sum_cons, reduceCtorEq, not_false_eq_true, iff_true]
    split <;> omega

theorem markdowns_append (m r : Mapping) : markdowns (m.append r) = markdowns m ++ markdowns r := by
  simp [markdowns, Mapping.append, PageResult.shifted, Function.comp_def]

structure Tight (s : String) : Prop where
  ne : s ≠ ""
  head : ∀ c, s.toList.head? = some c → jsWhitespace c = false
  last : ∀ c, s.toList.getLast? = some c → jsWhitespace c = false

theorem Tight.joined {s t : String} (hs : Tight s) (ht : Tight t) (sep : String) :
    Tight (s ++ sep ++ t) := by
  have hshead : s.toList ≠ [] := String.toList_eq_nil_iff.not.mpr hs.ne
  have htlast : t.toList ≠ [] := String.toList_eq_nil_iff.not.mpr ht.ne
  refine ⟨?_, ?_, ?_⟩
  · rw [ne_eq, ← String.toList_eq_nil_iff]
    simp [hs.ne]
  · intro c hc
    rw [String.toList_append, String.toList_append, List.append_assoc,
      List.head?_append_of_ne_nil _ hshead] at hc
    exact hs.head c hc
  · intro c hc
    rw [String.toList_append, List.getLast?_append_of_ne_nil _ htlast] at hc
    exact ht.last c hc

theorem Tight.jsTrim {s : String} (hs : Tight s) : OcrService.jsTrim s = s :=
  jsTrim_eq_self hs.head hs.last

theorem tight_intercalate {texts : List String} (sep : String) (hne : texts ≠ [])
    (h : ∀ s ∈ texts, Tight s) : Tight (sep.intercalate texts) := by
  induction texts with
  | nil => exact absurd rfl hne
  | cons s rest ih =>
    cases rest with
    | nil =>
      rw [String.intercalate_singleton]
      exact h s (by simp)
    | cons t rest =>
      rw [String.intercalate_cons_cons]
      exact (h s (by simp)).joined (ih (by simp) fun u hu => h u (by simp [hu])) sep

theorem markdowns_tight (responses : List LayoutParsingResponse) :
    ∀ md ∈ markdowns (mapping responses), Tight md := by
  induction responses with
  | nil => simp [markdowns, mapping]
  | cons response rest ih =>
    intro md hmd
    rw [mapping_cons, markdowns_append, List.mem_append] at hmd
    obtain hmd | hmd := hmd
    · rw [markdowns, mapping_single, List.mem_filter, decide_eq_true_eq, jsLength_pos] at hmd
      obtain ⟨hmem, hne⟩ := hmd
      obtain ⟨p, hp, rfl⟩ := List.mem_map.mp hmem
      obtain ⟨i, -, rfl⟩ := List.mem_map.mp hp
      by_cases hi : i = 0
      · simp only [hi, if_true] at hne ⊢
        exact ⟨hne, fun c => jsTrim_head, fun c => jsTrim_last⟩
      · simp [hi] at hne
    · exact ih md hmd

theorem mapLayoutParsing_markdown (responses : List LayoutParsingResponse) (info : MappingMeta) :
    (mapLayoutParsing responses info).markdown =
      "\n\n".intercalate (markdowns (mapping responses)) := by
  change jsTrim _ = _
  by_cases hne : markdowns (mapping responses) = []
  · change jsTrim ("\n\n".intercalate (markdowns (mapping responses))) = _
    rw [hne]
    decide
  · exact (tight_intercalate _ hne (markdowns_tight responses)).jsTrim

theorem markdown_eq_empty (responses : List LayoutParsingResponse) (info : MappingMeta) :
    (mapLayoutParsing responses info).markdown = "" ↔ markdowns (mapping responses) = [] := by
  rw [mapLayoutParsing_markdown]
  constructor
  · intro h
    by_contra hne
    exact (tight_intercalate _ hne (markdowns_tight responses)).ne h
  · intro h
    rw [h]
    rfl

theorem markdown_append (first second : List LayoutParsingResponse) (info : MappingMeta) :
    (mapLayoutParsing (first ++ second) info).markdown =
      joinMarkdown (mapLayoutParsing first info).markdown
        (mapLayoutParsing second info).markdown := by
  have hempty := markdown_eq_empty first info
  have hempty' := markdown_eq_empty second info
  have hall : (mapLayoutParsing (first ++ second) info).markdown =
      "\n\n".intercalate (markdowns (mapping first) ++ markdowns (mapping second)) := by
    rw [mapLayoutParsing_markdown, mapping_append, markdowns_append]
  rw [joinMarkdown, hall]
  by_cases hfirst : markdowns (mapping first) = []
  · rw [if_pos (hempty.mpr hfirst), hfirst, List.nil_append, mapLayoutParsing_markdown]
  · rw [if_neg (hempty.not.mpr hfirst)]
    by_cases hsecond : markdowns (mapping second) = []
    · rw [if_pos (hempty'.mpr hsecond), hsecond, List.append_nil, mapLayoutParsing_markdown]
    · rw [if_neg (hempty'.not.mpr hsecond), mapLayoutParsing_markdown,
        mapLayoutParsing_markdown, String.intercalate_append_of_ne_nil hfirst hsecond]

theorem reindexed_append (first second : List LayoutBlock) :
    reindexed (first ++ second) =
      reindexed first ++ (reindexed second).map (LayoutBlock.renumbered first.length) := by
  have hindex : second.zipIdx first.length =
      second.zipIdx.map fun placed => (placed.1, placed.2 + first.length) := by
    rw [List.zipIdx_eq_map_add]
    exact List.map_congr_left fun placed _ => Prod.ext rfl (Nat.add_comm _ _)
  simp only [reindexed, List.zipIdx_append, Nat.zero_add, List.map_append, hindex, List.map_map]
  rfl

theorem reindexed_map {β : Type} (f : LayoutBlock → β) (blocks : List LayoutBlock)
    (hf : ∀ (b : LayoutBlock) (i : Nat), f { b with index := i } = f b) :
    (reindexed blocks).map f = blocks.map f := by
  rw [reindexed, List.map_map]
  conv_rhs => rw [← List.zipIdx_map_fst 0 blocks, List.map_map]
  exact List.map_congr_left fun placed _ => hf placed.1 placed.2

theorem reindexed_shifted (pageOffset : Nat) (blocks : List LayoutBlock) :
    reindexed (blocks.map (LayoutBlock.shifted pageOffset)) =
      (reindexed blocks).map (LayoutBlock.shifted pageOffset) := by
  rw [reindexed, reindexed, List.zipIdx_map, List.map_map, List.map_map]
  rfl

theorem blocks_append (first second : List LayoutParsingResponse) (info : MappingMeta) :
    (mapLayoutParsing (first ++ second) info).blocks =
      (mapLayoutParsing first info).blocks ++ (mapLayoutParsing second info).blocks.map fun b =>
        (b.shifted (mapLayoutParsing first info).pageCount).renumbered
          (mapLayoutParsing first info).blocks.length := by
  change reindexed (mapping (first ++ second)).blocks = reindexed (mapping first).blocks ++
    (reindexed (mapping second).blocks).map fun b =>
      (b.shifted (mapping first).pages.length).renumbered
        (reindexed (mapping first).blocks).length
  have hlength : (reindexed (mapping first).blocks).length = (mapping first).blocks.length := by
    simp [reindexed]
  rw [mapping_append, hlength, ← (mapping_numbered first).offset]
  simp only [Mapping.append]
  rw [reindexed_append, reindexed_shifted, List.map_map]
  rfl

theorem pages_append (first second : List LayoutParsingResponse) (info : MappingMeta) :
    (mapLayoutParsing (first ++ second) info).pages =
      (mapLayoutParsing first info).pages ++ (mapLayoutParsing second info).pages.map
        (PageResult.shifted (mapLayoutParsing first info).pageCount) := by
  change (mapping (first ++ second)).pages = (mapping first).pages ++ (mapping second).pages.map
    (PageResult.shifted (mapping first).pages.length)
  rw [mapping_append, ← (mapping_numbered first).offset]
  rfl

theorem toBlockLabel_name (known : BlockLabel) : toBlockLabel known.name = known := by
  cases known <;> rfl

theorem toBlockLabel_unknown {label : String} (h : ∀ known : BlockLabel, label ≠ known.name) :
    toBlockLabel label = .image := by
  have himage : label ≠ "image" := h .image
  have htext : label ≠ "text" := h .text
  have hformula : label ≠ "formula" := h .formula
  have htable : label ≠ "table" := h .table
  rw [toBlockLabel, if_neg himage, if_neg htext, if_neg hformula, if_neg htable]

/-- The numbering of pages and blocks, what the blocks carry, and how the document of two
lists of responses is put together from theirs. -/
theorem mapLayoutParsing_spec (info : MappingMeta) :
    (∀ responses : List LayoutParsingResponse,
      let doc := mapLayoutParsing responses info
      let details := responses.flatMap upstreamDetails
      doc.pages.map PageResult.page = List.range' 1 doc.pageCount ∧
      responses.length ≤ doc.pageCount ∧
      (∀ response ∈ responses, 1 ≤ (mapLayoutParsing [response] info).pageCount) ∧
      doc.blocks.map LayoutBlock.index = List.range details.length ∧
      doc.blocks.map (fun b => (b.label, b.bbox, b.content)) =
        details.map (fun d => (toBlockLabel d.label, d.bbox_2d, d.content.getD "")) ∧
      (doc.blocks.map LayoutBlock.page).Pairwise (· ≤ ·) ∧
      (∀ b ∈ doc.blocks, 1 ≤ b.page ∧ b.page ≤ doc.pageCount) ∧
      doc.tokensUsed =
        some (responses.map fun response => response.total_tokens.getD 0).sum) ∧
    (∀ known : BlockLabel, toBlockLabel known.name = known) ∧
    (∀ label : String, (∀ known : BlockLabel, label ≠ known.name) →
      toBlockLabel label = .image) ∧
    ∀ first second : List LayoutParsingResponse,
      let a := mapLayoutParsing first info
      let b := mapLayoutParsing second info
      let doc := mapLayoutParsing (first ++ second) info
      doc.pages = a.pages ++ b.pages.map (PageResult.shifted a.pageCount) ∧
      doc.blocks = a.blocks ++ b.blocks.map (fun block =>
        (block.shifted a.pageCount).renumbered a.blocks.length) ∧
      doc.markdown = joinMarkdown a.markdown b.markdown := by
  refine ⟨?_, toBlockLabel_name, fun label => toBlockLabel_unknown, ?_⟩
  · intro responses doc details
    have hnumbered := mapping_numbered responses
    have hblocks : doc.blocks = reindexed (mapping responses).blocks := rfl
    have hcount : doc.pageCount = (mapping responses).pageOffset := hnumbered.offset.symm
    have hupstream : doc.blocks.map (fun b => (b.label, b.bbox, b.content)) =
        details.map (fun d => (toBlockLabel d.label, d.bbox_2d, d.content.getD "")) :=
      (reindexed_map _ _ fun _ _ => rfl).trans (mapping_upstream responses)
    have hpage : doc.blocks.map LayoutBlock.page =
        (mapping responses).blocks.map LayoutBlock.page :=
      reindexed_map _ _ fun _ _ => rfl
    have hlength : details.length = (mapping responses).blocks.length := by
      have hmap := congrArg List.length (mapping_upstream responses)
      rw [List.length_map, List.length_map] at hmap
      exact hmap.symm
    refine ⟨hnumbered.pages, length_le_pages responses, ?_, ?_, hupstream, ?_, ?_, ?_⟩
    · intro response _
      exact length_le_pages [response]
    · rw [hblocks, reindexed_index, hlength]
    · rw [hpage]
      exact hnumbered.blocks
    · intro b hb
      have hmem : b.page ∈ (mapping responses).blocks.map LayoutBlock.page := by
        rw [← hpage]
        exact List.mem_map_of_mem hb
      obtain ⟨c, hc, heq⟩ := List.mem_map.mp hmem
      rw [← heq, hcount]
      exact hnumbered.inside c hc
    · exact congrArg some (mapping_tokens responses)
  · intro first second a b doc
    exact ⟨pages_append first second info, blocks_append first second info,
      markdown_append first second info⟩

end OcrService
