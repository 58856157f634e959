import OcrService.SigningSlots

/-! When SIGNING reports a document as fully executed, and whom it asks. -/
namespace OcrService

theorem forall₂_of_mapM {α β : Type} {f : α → Except Thrown β} {xs : List α} {ys : List β}
    (h : xs.mapM f = .ok ys) : List.Forall₂ (fun x y => f x = .ok y) xs ys := by
  induction xs generalizing ys with
  | nil =>
    cases h
    exact .nil
  | cons x xs ih =>
    rw [List.mapM_cons] at h
    cases hx : f x with
    | error err =>
      rw [hx] at h
      cases h
    | ok y =>
      cases hxs : xs.mapM f with
      | error err =>
        rw [hx, hxs] at h
        cases h
      | ok rest =>
        rw [hx, hxs] at h
        cases h
        exact .cons hx (ih hxs)

theorem exists_mapM {α β : Type} {f : α → Except Thrown β} {xs : List α}
    (h : ∀ x ∈ xs, ∃ y, f x = .ok y) : ∃ ys, xs.mapM f = .ok ys := by
  induction xs with
  | nil => exact ⟨[], rfl⟩
  | cons x xs ih =>
    obtain ⟨y, hy⟩ := h x (by simp)
    obtain ⟨ys, hys⟩ := ih fun x' hx' => h x' (by simp [hx'])
    refine ⟨y :: ys, ?_⟩
    rw [List.mapM_cons, hy, hys]
    rfl

/-- How a slot is judged: not at all, or by one call that shows the crop of its image. -/
inductive Judged (tools : SigningTools) (pageImages : List (Nat × Buffer)) (slot : Slot) :
    SignatureBlock × Option JudgmentCall → Prop
  | empty : slot.image = none ∨ pageImages.lookup slot.page = none →
      Judged tools pageImages slot (toBlock slot noJudgment, none)
  | called (call : JudgmentCall) (pageImage : Buffer) (crop : String) :
      slot.image = some call.image → pageImages.lookup slot.page = some pageImage →
      cropRegion tools pageImage slot.bbox = .ok crop → call.request.images = [crop] →
      tools.complete call.request = .ok call.judgment →
      Judged tools pageImages slot (toBlock slot call.judgment, some call)

theorem judgeSlot_judged {tools : SigningTools} {pageImages : List (Nat × Buffer)} {slot : Slot}
    {out : SignatureBlock × Option JudgmentCall} (h : judgeSlot tools pageImages slot = .ok out) :
    Judged tools pageImages slot out := by
  unfold judgeSlot at h
  cases himage : slot.image with
  | none =>
    simp only [himage] at h
    cases h
    exact .empty (.inl himage)
  | some image =>
    cases hpage : pageImages.lookup slot.page with
    | none =>
      simp only [himage, hpage] at h
      cases h
      exact .empty (.inr hpage)
    | some pageImage =>
      simp only [himage, hpage] at h
      cases hcrop : cropRegion tools pageImage slot.bbox with
      | error err =>
        rw [hcrop] at h
        cases h
      | ok crop =>
        cases hjudged : tools.complete (judgmentRequest slot crop) with
        | error err =>
          simp only [hcrop, bind, Except.bind, hjudged] at h
          cases h
        | ok judgment =>
          simp only [hcrop, bind, Except.bind, hjudged] at h
          cases h
          exact .called ⟨image, judgmentRequest slot crop, judgment⟩ pageImage crop himage hpage
            hcrop rfl hjudged

def slotSigned (calls : List JudgmentCall) (slot : Slot) : Bool :=
  calls.any fun call => decide (slot.image = some call.image) && call.judgment.signed

section Run
variable {tools : SigningTools} {pageImages : List (Nat × Buffer)} {slots : List Slot}
  {judged : List (SignatureBlock × Option JudgmentCall)}

def drawn (pageImages : List (Nat × Buffer)) (image : LocatedBlock) : Bool :=
  (pageImages.lookup image.block.page).isSome

theorem filterMap_snd_call (block : SignatureBlock) (call : JudgmentCall)
    (judged : List (SignatureBlock × Option JudgmentCall)) :
    ((block, some call) :: judged).filterMap Prod.snd = call :: judged.filterMap Prod.snd := rfl

theorem calls_images (h : List.Forall₂ (Judged tools pageImages) slots judged)
    (hplaced : ∀ slot ∈ slots, ∀ image, slot.image = some image → slot.page = image.block.page) :
    (judged.filterMap Prod.snd).map JudgmentCall.image =
      (slots.filterMap Slot.image).filter (drawn pageImages) := by
  induction h with
  | nil => rfl
  | @cons slot out slots judged hout _ ih =>
    have hrest := ih fun s hs => hplaced s (List.mem_cons_of_mem _ hs)
    cases hout with
    | empty hnone =>
      rw [List.filterMap_cons_none rfl, hrest]
      cases himage : slot.image with
      | none => rw [List.filterMap_cons_none himage]
      | some image =>
        have hpage := hplaced slot (by simp) image himage
        have hlookup := hnone.resolve_left (by simp [himage])
        have hdrawn : drawn pageImages image = false := by
          rw [drawn, ← hpage, hlookup]
          rfl
        rw [List.filterMap_cons_some himage, List.filter_cons_of_neg (by simp [hdrawn])]
    | called call pageImage crop himage hlookup =>
      have hpage := hplaced slot (by simp) call.image himage
      have hdrawn : drawn pageImages call.image = true := by
        rw [drawn, ← hpage, hlookup]
        rfl
      rw [filterMap_snd_call, List.map_cons, hrest, List.filterMap_cons_some himage,
        List.filter_cons_of_pos hdrawn]

theorem calls_shown (h : List.Forall₂ (Judged tools pageImages) slots judged)
    (hplaced : ∀ slot ∈ slots, ∀ image, slot.image = some image →
      slot.page = image.block.page ∧ slot.bbox = image.bbox) :
    ∀ call ∈ judged.filterMap Prod.snd, ∃ pageImage crop,
      pageImages.lookup call.image.block.page = some pageImage ∧
      cropRegion tools pageImage call.image.bbox = .ok crop ∧ call.request.images = [crop] ∧
      tools.complete call.request = .ok call.judgment := by
  induction h with
  | nil => exact fun call hcall => nomatch hcall
  | @cons slot out slots judged hout _ ih =>
    have hrest := ih fun s hs => hplaced s (List.mem_cons_of_mem _ hs)
    cases hout with
    | empty hnone =>
      rw [List.filterMap_cons_none rfl]
      exact hrest
    | called call pageImage crop himage hlookup hcrop hrequest hjudged =>
      obtain ⟨hpage, hbbox⟩ := hplaced slot (by simp) call.image himage
      rw [filterMap_snd_call]
      intro call' hcall'
      obtain rfl | hcall' := List.mem_cons.mp hcall'
      · exact ⟨pageImage, crop, hpage ▸ hlookup, hbbox ▸ hcrop, hrequest, hjudged⟩
      · exact hrest call' hcall'

theorem blocks_signed (h : List.Forall₂ (Judged tools pageImages) slots judged)
    (hplaced : ∀ slot ∈ slots, ∀ image, slot.image = some image → slot.page = image.block.page)
    {calls : List JudgmentCall} (hcalls : ∀ call ∈ judged.filterMap Prod.snd, call ∈ calls)
    (hone : ∀ call ∈ calls, ∀ call' ∈ calls, call.image = call'.image → call = call')
    (hdrawn : ∀ call ∈ calls, drawn pageImages call.image = true) :
    (judged.map Prod.fst).map (fun block => (block.label, block.signed)) =
      slots.map fun slot => (slot.label, slotSigned calls slot) := by
  induction h with
  | nil => rfl
  | @cons slot out slots judged hout _ ih =>
    have hrest := ih (fun s hs => hplaced s (List.mem_cons_of_mem _ hs))
    cases hout with
    | empty hnone =>
      rw [List.filterMap_cons_none rfl] at hcalls
      have hunsigned : slotSigned calls slot = false := by
        rw [slotSigned, List.any_eq_false]
        intro call hcall
        obtain hnone | hnone := hnone
        · simp [hnone]
        · intro hsigned
          rw [Bool.and_eq_true, decide_eq_true_eq] at hsigned
          have himage := hsigned.1
          have hpage := hplaced slot (by simp) call.image himage
          have := hdrawn call hcall
          rw [drawn, ← hpage, hnone] at this
          cases this
      simp only [List.map_cons, hrest hcalls, hunsigned]
      rfl
    | called call pageImage crop himage hlookup hcrop hrequest hjudged =>
      rw [filterMap_snd_call] at hcalls
      have hmem := hcalls call (by simp)
      have hsigned : slotSigned calls slot = call.judgment.signed := by
        cases hs : call.judgment.signed with
        | true =>
          rw [slotSigned, List.any_eq_true]
          exact ⟨call, hmem, by simp [himage, hs]⟩
        | false =>
          rw [slotSigned, List.any_eq_false]
          intro call' hcall' hsigned
          rw [Bool.and_eq_true, decide_eq_true_eq, himage] at hsigned
          rw [hone call hmem call' hcall' (Option.some.inj hsigned.1), hsigned.2] at hs
          cases hs
      simp only [List.map_cons, hrest fun c hc => hcalls c (by simp [hc]), hsigned]
      rfl

end Run

def pageRaster (tools : SigningTools) (file : OcrContextFile) (page : Nat) : Option Buffer :=
  if file.mimeGroup = .image then some file.buffer
  else
    match tools.pdf file.buffer, page with
    | .ok doc, i + 1 => doc[i]?.bind Except.toOption
    | _, _ => none

theorem lookup_collectPages {pages : List Nat} {last page : Nat} {doc : List (Except Thrown Buffer)}
    {out : List (Nat × Buffer)} (h : collectPages pages last page doc = .ok out) {p : Nat}
    (hp : p ∈ pages) (hlast : p ≤ last) :
    out.lookup p = if p < page then none else doc[p - page]?.bind Except.toOption := by
  induction doc generalizing page out with
  | nil =>
    cases h
    simp
  | cons image doc ih =>
    cases image with
    | error err => cases h
    | ok image =>
      have hfound : (if page ∈ pages then [(page, image)] else []).lookup p =
          if p = page then some image else none := by
        by_cases he : p = page
        · subst he
          simp [hp]
        · by_cases hin : page ∈ pages
          · have hbeq : (p == page) = false := beq_false_of_ne he
            simp [hin, List.lookup_cons, he, hbeq]
          · simp [hin, he]
      simp only [collectPages] at h
      by_cases hend : page ≥ last
      · rw [if_pos hend] at h
        obtain rfl := Except.ok.inj h
        rw [hfound]
        obtain hlt | rfl : p < page ∨ p = page := by omega
        · rw [if_pos hlt, if_neg (by omega)]
        · simp [Except.toOption]
      · rw [if_neg hend] at h
        cases hrest : collectPages pages last (page + 1) doc with
        | error err =>
          rw [hrest] at h
          cases h
        | ok rest =>
          rw [hrest] at h
          obtain rfl := Except.ok.inj h
          rw [List.lookup_append, hfound, ih hrest]
          obtain hlt | rfl | hgt : p < page ∨ p = page ∨ page < p := by omega
          · simp [hlt, show p ≠ page by omega, show p < page + 1 by omega]
          · simp [Except.toOption]
          · obtain ⟨k, rfl⟩ : ∃ k, p = page + 1 + k := ⟨p - (page + 1), by omega⟩
            have hsub : page + 1 + k - page = k + 1 := by omega
            have hsub' : page + 1 + k - (page + 1) = k := by omega
            rw [if_neg (by omega), if_neg (by omega), if_neg (by omega), hsub, hsub',
              Option.none_or, List.getElem?_cons_succ]

theorem le_foldr_max {pages : List Nat} {p : Nat} (h : p ∈ pages) : p ≤ pages.foldr max 0 := by
  induction pages with
  | nil => cases h
  | cons q pages ih =>
    rw [List.foldr_cons]
    obtain rfl | h := List.mem_cons.mp h
    · exact Nat.le_max_left _ _
    · exact Nat.le_trans (ih h) (Nat.le_max_right _ _)

theorem lookup_rasterizePages {tools : SigningTools} {file : OcrContextFile} {pages : List Nat}
    {out : List (Nat × Buffer)} (h : rasterizePages tools file pages = .ok out) {page : Nat}
    (hpage : page ∈ pages) : out.lookup page = pageRaster tools file page := by
  unfold rasterizePages at h
  rw [if_neg (List.ne_nil_of_mem hpage)] at h
  unfold pageRaster
  by_cases himage : file.mimeGroup = .image
  · rw [if_pos himage] at h
    obtain rfl := Except.ok.inj h
    rw [if_pos himage]
    clear h
    induction pages with
    | nil => cases hpage
    | cons q pages ih =>
      by_cases hq : page = q
      · simp [hq]
      · have hrest := ih ((List.mem_cons.mp hpage).resolve_left hq)
        have hbeq : (page == q) = false := beq_false_of_ne hq
        simpa [List.lookup_cons, hbeq] using hrest
  · rw [if_neg himage] at h
    rw [if_neg himage]
    cases hdoc : tools.pdf file.buffer with
    | error err =>
      rw [hdoc] at h
      cases h
    | ok doc =>
      rw [hdoc] at h
      rw [lookup_collectPages h hpage (le_foldr_max hpage)]
      cases page with
      | zero => rfl
      | succ i => simp

structure Outcome (tools : SigningTools) (file : OcrContextFile) (slots : List Slot)
    (result : SigningResult) (calls : List JudgmentCall) : Prop where
  once : (calls.map fun call => call.image.block.index).Nodup
  called : ∀ image, (∃ call ∈ calls, call.image = image) ↔
    image ∈ slots.filterMap Slot.image ∧ (pageRaster tools file image.block.page).isSome = true
  shown : ∀ call ∈ calls, ∃ pageImage crop,
    pageRaster tools file call.image.block.page = some pageImage ∧
    cropRegion tools pageImage call.image.bbox = .ok crop ∧ call.request.images = [crop] ∧
    tools.complete call.request = .ok call.judgment
  blocks : result.blocks.map (fun block => (block.label, block.signed)) =
    slots.map fun slot => (slot.label, slotSigned calls slot)
  assembled : result = assemble result.blocks

theorem Outcome.fullyExecuted {tools : SigningTools} {file : OcrContextFile} {slots : List Slot}
    {result : SigningResult} {calls : List JudgmentCall}
    (h : Outcome tools file slots result calls) :
    result.fullyExecuted = true ↔ slots ≠ [] ∧ ∀ slot ∈ slots, slotSigned calls slot = true := by
  have hempty : result.blocks = [] ↔ slots = [] := by
    rw [← List.map_eq_nil_iff (f := fun block : SignatureBlock => (block.label, block.signed)),
      h.blocks, List.map_eq_nil_iff]
  have hall : result.blocks.all SignatureBlock.signed = slots.all (slotSigned calls) := by
    have hpairs := congrArg (fun pairs : List (String × Bool) => pairs.all Prod.snd) h.blocks
    simpa [List.all_map, Function.comp_def] using hpairs
  rw [h.assembled, assemble, Bool.and_eq_true, hall, List.all_eq_true]
  refine and_congr ?_ Iff.rfl
  rw [Bool.not_eq_true', ← Bool.not_eq_true, List.isEmpty_iff, hempty]

theorem Outcome.unsignedBlocks {tools : SigningTools} {file : OcrContextFile} {slots : List Slot}
    {result : SigningResult} {calls : List JudgmentCall}
    (h : Outcome tools file slots result calls) :
    result.unsignedBlocks =
      (slots.filter fun slot => !slotSigned calls slot).map Slot.label := by
  have hpairs := congrArg (fun pairs : List (String × Bool) =>
    (pairs.filter fun pair => !pair.2).map Prod.fst) h.blocks
  rw [h.assembled, assemble]
  simpa [List.filter_map, Function.comp_def] using hpairs

section Execute
variable {toLowerCase : String → String} {hypot : ℚ → ℚ → ℚ} {tools : SigningTools}
  {doc : RecognizedDocument} {file : OcrContextFile} {cues : List String} {result : SigningResult}
  {calls : List JudgmentCall}

theorem executeSigning_ok
    (h : executeSigning toLowerCase hypot tools doc file { signatureCues := cues } =
      .ok (result, calls)) :
    ∃ pageImages judged,
      rasterizePages tools file (((correlateSlots toLowerCase hypot doc.blocks cues).filter
        fun slot => slot.image.isSome).map Slot.page) = .ok pageImages ∧
      List.Forall₂ (Judged tools pageImages) (correlateSlots toLowerCase hypot doc.blocks cues)
        judged ∧
      result = assemble (judged.map Prod.fst) ∧ calls = judged.filterMap Prod.snd := by
  unfold executeSigning at h
  simp only [Bool.false_eq_true, if_false] at h
  generalize correlateSlots toLowerCase hypot doc.blocks cues = slots at h
  cases hpages : rasterizePages tools file
      ((slots.filter fun slot => slot.image.isSome).map Slot.page) with
  | error err =>
    rw [hpages] at h
    cases h
  | ok pageImages =>
    cases hjudged : slots.mapM (judgeSlot tools pageImages) with
    | error err =>
      rw [hpages] at h
      simp only [bind, Except.bind, hjudged] at h
      cases h
    | ok judged =>
      rw [hpages] at h
      simp only [bind, Except.bind, hjudged] at h
      obtain ⟨rfl, rfl⟩ : assemble (judged.map Prod.fst) = result ∧
          judged.filterMap Prod.snd = calls := by
        simpa [pure, Except.pure] using h
      exact ⟨pageImages, judged, rfl, (forall₂_of_mapM hjudged).imp fun _ _ => judgeSlot_judged,
        rfl, rfl⟩

theorem executeSigning_outcome (hindex : (doc.blocks.map LayoutBlock.index).Pairwise (· < ·))
    (h : executeSigning toLowerCase hypot tools doc file { signatureCues := cues } =
      .ok (result, calls)) :
    Outcome tools file (correlateSlots toLowerCase hypot doc.blocks cues) result calls := by
  have hslots := correlateSlots_spec toLowerCase hypot cues hindex
  have hnodup := slots_nodup (nearest_goesWithin _ _ hindex)
    (takenBlocks_increasing toLowerCase cues hindex) hslots
  obtain ⟨pageImages, judged, hpages, hrun, rfl, rfl⟩ := executeSigning_ok h
  generalize correlateSlots toLowerCase hypot doc.blocks cues = slots at hslots hnodup hpages hrun
  have hboth : ∀ slot ∈ slots, ∀ image, slot.image = some image →
      slot.page = image.block.page ∧ slot.bbox = image.bbox := by
    intro slot hslot
    obtain ⟨l, -, hof⟩ := exists_left hslots hslot
    exact hof.placed
  have hplaced : ∀ slot ∈ slots, ∀ image, slot.image = some image →
      slot.page = image.block.page := fun slot hs image hi => (hboth slot hs image hi).1
  have hraster : ∀ image ∈ slots.filterMap Slot.image,
      pageImages.lookup image.block.page = pageRaster tools file image.block.page := by
    intro image hmem
    obtain ⟨slot, hslot, himage⟩ := List.mem_filterMap.mp hmem
    refine lookup_rasterizePages hpages (List.mem_map.mpr ⟨slot, ?_, hplaced slot hslot image
      himage⟩)
    exact List.mem_filter.mpr ⟨hslot, by simp [himage]⟩
  have himages := calls_images hrun hplaced
  have honce : ((judged.filterMap Prod.snd).map fun call => call.image.block.index).Nodup := by
    have hsub := (List.filter_sublist (l := slots.filterMap Slot.image)
      (p := drawn pageImages)).map fun image => image.block.index
    rw [← himages, List.map_map] at hsub
    exact hnodup.sublist hsub
  have hmem : ∀ call ∈ judged.filterMap Prod.snd, call.image ∈ slots.filterMap Slot.image ∧
      drawn pageImages call.image = true := by
    intro call hcall
    have := List.mem_map_of_mem (f := JudgmentCall.image) hcall
    rw [himages] at this
    exact List.mem_filter.mp this
  refine ⟨honce, fun image => ?_, fun call hcall => ?_, ?_, rfl⟩
  · have hmap := List.mem_map (f := JudgmentCall.image) (b := image)
      (l := judged.filterMap Prod.snd)
    rw [← hmap, himages, List.mem_filter]
    refine and_congr_right fun hin => ?_
    rw [drawn, hraster image hin]
  · obtain ⟨pageImage, crop, hlookup, hrest⟩ := calls_shown hrun hboth call hcall
    exact ⟨pageImage, crop, (hraster _ (hmem call hcall).1) ▸ hlookup, hrest⟩
  · refine blocks_signed hrun hplaced (fun call hcall => hcall) ?_ fun call hcall =>
      (hmem call hcall).2
    intro call hcall call' hcall' he
    exact List.inj_on_of_nodup_map honce hcall hcall' (by rw [he])

end Execute

def JudgedSigned (calls : List JudgmentCall) (image : LocatedBlock) : Prop :=
  ∃ call ∈ calls, call.image = image ∧ call.judgment.signed = true

def BlockSigned (goes : LocatedBlock → LocatedBlock → Prop) (calls : List JudgmentCall)
    (l : LocatedBlock) : Prop := ∃ image, goes l image ∧ JudgedSigned calls image

section Blocks
variable {toLowerCase : String → String} {cues : List String}
  {goes : LocatedBlock → LocatedBlock → Prop} {ts : List LocatedBlock} {slots : List Slot}
  {tools : SigningTools} {file : OcrContextFile} {result : SigningResult}
  {calls : List JudgmentCall}

theorem SlotOf.signed {l : LocatedBlock} {slot : Slot}
    (h : SlotOf toLowerCase cues goes l slot) :
    slotSigned calls slot = true ↔ BlockSigned goes calls l := by
  simp only [slotSigned, List.any_eq_true, Bool.and_eq_true, decide_eq_true_eq, BlockSigned,
    JudgedSigned, h.image]
  constructor
  · rintro ⟨call, hcall, himage, hsigned⟩
    exact ⟨call.image, himage, call, hcall, rfl, hsigned⟩
  · rintro ⟨image, himage, call, hcall, rfl, hsigned⟩
    exact ⟨call, hcall, himage, hsigned⟩

theorem slots_labels (h : List.Forall₂ (SlotOf toLowerCase cues goes) ts slots) :
    slots.map Slot.label = ts.map (firstCue toLowerCase cues) := by
  induction h with
  | nil => rfl
  | cons hof _ ih => rw [List.map_cons, List.map_cons, hof.label, ih]

variable (h : Outcome tools file slots result calls)
  (hslots : List.Forall₂ (SlotOf toLowerCase cues goes) (slotBlocks goes ts) slots)
include h hslots

theorem Outcome.called_iff (image : LocatedBlock) : (∃ call ∈ calls, call.image = image) ↔
    (∃ l ∈ ts, goes l image) ∧ (pageRaster tools file image.block.page).isSome = true := by
  rw [h.called]
  refine and_congr_left fun _ => ?_
  rw [List.mem_filterMap]
  constructor
  · rintro ⟨slot, hslot, himage⟩
    obtain ⟨l, hl, hof⟩ := exists_left hslots hslot
    exact ⟨l, (mem_slotBlocks.mp hl).1, (hof.image image).mp himage⟩
  · rintro ⟨l, hl, himage⟩
    obtain ⟨first, hfirst, -, hgoes, hopens⟩ := exists_opens hl himage
    obtain ⟨slot, hslot, hof⟩ := exists_right hslots (mem_slotBlocks.mpr ⟨hfirst, .inl hopens⟩)
    exact ⟨slot, hslot, (hof.image image).mpr hgoes⟩

theorem Outcome.executed_iff (hgoes : GoesWithin goes) : result.fullyExecuted = true ↔
    (∃ l, l ∈ ts) ∧ ∀ l ∈ ts, BlockSigned goes calls l := by
  rw [h.fullyExecuted]
  have hopened : ∀ l ∈ ts, ∃ l' ∈ slotBlocks goes ts,
      BlockSigned goes calls l' → BlockSigned goes calls l := by
    intro l hl
    by_cases hbare : Bare goes l
    · exact ⟨l, mem_slotBlocks.mpr ⟨hl, .inr hbare⟩, id⟩
    · obtain ⟨image, himage⟩ : ∃ image, goes l image := by
        simpa [Bare] using hbare
      obtain ⟨first, hfirst, -, hgoesFirst, hopens⟩ := exists_opens hl himage
      refine ⟨first, mem_slotBlocks.mpr ⟨hfirst, .inl hopens⟩, ?_⟩
      rintro ⟨image', himage', hsigned⟩
      obtain rfl := hgoes.one hgoesFirst himage'
      exact ⟨image, himage, hsigned⟩
  constructor
  · rintro ⟨hne, hall⟩
    obtain ⟨slot, hslot⟩ := List.exists_mem_of_ne_nil _ hne
    obtain ⟨l, hl, -⟩ := exists_left hslots hslot
    refine ⟨⟨l, (mem_slotBlocks.mp hl).1⟩, fun l hl => ?_⟩
    obtain ⟨l', hl', hsigned⟩ := hopened l hl
    obtain ⟨slot', hslot', hof⟩ := exists_right hslots hl'
    exact hsigned (hof.signed.mp (hall slot' hslot'))
  · rintro ⟨⟨l, hl⟩, hall⟩
    obtain ⟨l', hl', -⟩ := hopened l hl
    obtain ⟨slot', hslot', -⟩ := exists_right hslots hl'
    refine ⟨List.ne_nil_of_mem hslot', fun slot hslot => ?_⟩
    obtain ⟨l, hl, hof⟩ := exists_left hslots hslot
    exact hof.signed.mpr (hall l (mem_slotBlocks.mp hl).1)

open Classical in
theorem Outcome.unsigned_eq : result.unsignedBlocks =
    ((slotBlocks goes ts).filter fun l => ¬BlockSigned goes calls l).map
      (firstCue toLowerCase cues) := by
  rw [h.unsignedBlocks]
  have hunsigned : List.Forall₂ (SlotOf toLowerCase cues goes)
      ((slotBlocks goes ts).filter fun l => ¬BlockSigned goes calls l)
      (slots.filter fun slot => !slotSigned calls slot) := by
    refine List.rel_filter (fun l slot hof => ?_) hslots
    simp [← hof.signed]
  exact slots_labels hunsigned

end Blocks

section Law

def sqDistance (a b : Bbox) : ℚ :=
  ((a.x0 + a.x1) / 2 - (b.x0 + b.x1) / 2) ^ 2 + ((a.y0 + a.y1) / 2 - (b.y0 + b.y1) / 2) ^ 2

/-- The image goes with the text block: on its page, the centers no more than 0.25 apart, and
nearest among those. -/
def Chosen (blocks : List LayoutBlock) : LocatedBlock → LocatedBlock → Prop :=
  Nearest sqDistance (CORRELATION_THRESHOLD ^ 2) blocks

variable (toLowerCase : String → String) (cues : List String) (blocks : List LayoutBlock)

open Classical in
/-- The model is asked once about each image that goes with a text block with a cue and whose
page is drawn; the document is fully executed if there are such text blocks and all of them
have their image judged to be signed. Text blocks that go with one image share a slot, under the
first cue of the first of them; the slots not judged to be signed are listed, those without an
image last. -/
structure SigningLaw (tools : SigningTools) (file : OcrContextFile) (result : SigningResult)
    (calls : List JudgmentCall) : Prop where
  once : (calls.map fun call => call.image.block.index).Nodup
  called : ∀ image, (∃ call ∈ calls, call.image = image) ↔
    (∃ l ∈ cueBlocks toLowerCase cues blocks, Chosen blocks l image) ∧
      (pageRaster tools file image.block.page).isSome = true
  shown : ∀ call ∈ calls, ∃ pageImage crop,
    pageRaster tools file call.image.block.page = some pageImage ∧
    cropRegion tools pageImage call.image.bbox = .ok crop ∧ call.request.images = [crop] ∧
    tools.complete call.request = .ok call.judgment
  executed : result.fullyExecuted = true ↔
    (∃ l, l ∈ cueBlocks toLowerCase cues blocks) ∧
    ∀ l ∈ cueBlocks toLowerCase cues blocks, ∃ image, Chosen blocks l image ∧
      JudgedSigned calls image
  unsigned : result.unsignedBlocks =
    ((slotBlocks (Chosen blocks) (cueBlocks toLowerCase cues blocks)).filter
      fun l => ¬BlockSigned (Chosen blocks) calls l).map (firstCue toLowerCase cues)

/-- Rounding makes no difference to which image a text block goes with. -/
def RoundingSpares (hypot : ℚ → ℚ → ℚ) : Prop :=
  ∀ l ∈ cueBlocks toLowerCase cues blocks, ∀ image,
    Nearest (distance hypot) CORRELATION_THRESHOLD blocks l image ↔ Chosen blocks l image

/-- A text block of which the first cue found is the empty one has its slot by an earlier block
that goes with the same image. -/
def NothingHidden : Prop :=
  ∀ l ∈ cueBlocks toLowerCase cues blocks, firstCue toLowerCase cues l = "" →
    ∃ l' ∈ takenBlocks toLowerCase cues blocks, l'.block.index < l.block.index ∧
      ∃ image, Chosen blocks l image ∧ Chosen blocks l' image

variable {toLowerCase cues blocks}

theorem nothingHidden_of_nonempty (h : "" ∉ cues) : NothingHidden toLowerCase cues blocks := by
  intro l hl hempty
  obtain ⟨-, -, cue, hcue, hfound⟩ := mem_cueBlocks.mp hl
  have hsome : (cues.find? fun cue =>
      jsIncludes (toLowerCase l.block.content) (toLowerCase cue)).isSome = true :=
    List.find?_isSome.mpr ⟨cue, hcue, hfound⟩
  obtain ⟨first, hfirst⟩ := Option.isSome_iff_exists.mp hsome
  rw [firstCue, hfirst, Option.getD_some] at hempty
  exact absurd (hempty ▸ List.mem_of_find?_eq_some hfirst) h

/-- Then the blocks taken open the same slots as all the blocks with a cue. -/
theorem NothingHidden.slotBlocks_eq (h : NothingHidden toLowerCase cues blocks)
    (hindex : (blocks.map LayoutBlock.index).Pairwise (· < ·)) :
    slotBlocks (Chosen blocks) (cueBlocks toLowerCase cues blocks) =
      slotBlocks (Chosen blocks) (takenBlocks toLowerCase cues blocks) := by
  classical
  have hgoes : GoesWithin (Chosen blocks) := nearest_goesWithin _ _ hindex
  have hfilter (p : LocatedBlock → Prop) :
      (takenBlocks toLowerCase cues blocks).filter (p ·) =
        (cueBlocks toLowerCase cues blocks).filter fun l =>
          p l ∧ firstCue toLowerCase cues l ≠ "" := by
    rw [takenBlocks, List.filter_filter]
    exact List.filter_congr fun l _ => (Bool.decide_and _ _).symm
  rw [slotBlocks, slotBlocks, hfilter, hfilter]
  congr 1
  · refine List.filter_congr fun l hl => ?_
    rw [decide_eq_decide]
    constructor
    · rintro ⟨image, himage, hfirst⟩
      refine ⟨⟨image, himage, fun l' hl' => hfirst l' (mem_takenBlocks.mp hl').1⟩, fun hempty => ?_⟩
      obtain ⟨l', hl', hlt, image', himage', hother⟩ := h l hl hempty
      obtain rfl := hgoes.one himage himage'
      exact hfirst l' (mem_takenBlocks.mp hl').1 hlt hother
    · rintro ⟨⟨image, himage, hfirst⟩, -⟩
      refine ⟨image, himage, fun l' hl' hlt hother => ?_⟩
      by_cases hempty : firstCue toLowerCase cues l' = ""
      · obtain ⟨l'', hl'', hlt', image', himage', hother'⟩ := h l' hl' hempty
        obtain rfl := hgoes.one hother himage'
        exact hfirst l'' hl'' (hlt'.trans hlt) hother'
      · exact hfirst l' (mem_takenBlocks.mpr ⟨hl', hempty⟩) hlt hother
  · refine List.filter_congr fun l hl => ?_
    rw [decide_eq_decide]
    refine (and_iff_left_of_imp fun hbare hempty => ?_).symm
    obtain ⟨-, -, -, image, himage, -⟩ := h l hl hempty
    exact hbare image himage

theorem NothingHidden.exists_iff (h : NothingHidden toLowerCase cues blocks)
    (image : LocatedBlock) (hindex : (blocks.map LayoutBlock.index).Pairwise (· < ·)) :
    (∃ l ∈ takenBlocks toLowerCase cues blocks, Chosen blocks l image) ↔
      ∃ l ∈ cueBlocks toLowerCase cues blocks, Chosen blocks l image := by
  constructor
  · rintro ⟨l, hl, himage⟩
    exact ⟨l, (mem_takenBlocks.mp hl).1, himage⟩
  · rintro ⟨l, hl, himage⟩
    by_cases hempty : firstCue toLowerCase cues l = ""
    · obtain ⟨l', hl', -, image', himage', hother⟩ := h l hl hempty
      obtain rfl := himage.unique hindex himage'
      exact ⟨l', hl', hother⟩
    · exact ⟨l, mem_takenBlocks.mpr ⟨hl, hempty⟩, himage⟩

variable {hypot : ℚ → ℚ → ℚ}

/-- Where rounding makes no difference, the slots are those of exact geometry. -/
theorem correlateSlots_exact (hrounds : RoundingSpares toLowerCase cues blocks hypot)
    (hindex : (blocks.map LayoutBlock.index).Pairwise (· < ·)) :
    List.Forall₂ (SlotOf toLowerCase cues (Chosen blocks))
      (slotBlocks (Chosen blocks) (takenBlocks toLowerCase cues blocks))
      (correlateSlots toLowerCase hypot blocks cues) := by
  have hspec := correlateSlots_spec toLowerCase hypot cues hindex
  have hsame : ∀ l ∈ takenBlocks toLowerCase cues blocks, ∀ image,
      Nearest (distance hypot) CORRELATION_THRESHOLD blocks l image ↔ Chosen blocks l image :=
    fun l hl => hrounds l (mem_takenBlocks.mp hl).1
  rw [slotBlocks_congr hsame] at hspec
  have hmem : ∀ l ∈ slotBlocks (Chosen blocks) (takenBlocks toLowerCase cues blocks),
      l ∈ takenBlocks toLowerCase cues blocks := fun l hl => (mem_slotBlocks.mp hl).1
  refine ((List.forall₂_and_left _ _).mpr ⟨hmem, hspec⟩).imp fun l slot hof => ?_
  exact ⟨hof.2.label, fun image => (hof.2.image image).trans (hsame l hof.1 image), hof.2.placed⟩

variable {tools : SigningTools} {file : OcrContextFile} {slots : List Slot}
  {result : SigningResult} {calls : List JudgmentCall}

theorem Outcome.signingLaw (h : Outcome tools file slots result calls)
    (hslots : List.Forall₂ (SlotOf toLowerCase cues (Chosen blocks))
      (slotBlocks (Chosen blocks) (takenBlocks toLowerCase cues blocks)) slots)
    (hindex : (blocks.map LayoutBlock.index).Pairwise (· < ·))
    (hhidden : NothingHidden toLowerCase cues blocks) :
    SigningLaw toLowerCase cues blocks tools file result calls where
  once := h.once
  called image := by
    rw [h.called_iff hslots, hhidden.exists_iff image hindex]
  shown := h.shown
  executed := by
    rw [h.executed_iff hslots (nearest_goesWithin _ _ hindex)]
    constructor
    · rintro ⟨⟨l₀, hl₀⟩, hall⟩
      refine ⟨⟨l₀, (mem_takenBlocks.mp hl₀).1⟩, fun l hl => ?_⟩
      by_cases hempty : firstCue toLowerCase cues l = ""
      · obtain ⟨l', hl', -, image, himage, hother⟩ := hhidden l hl hempty
        obtain ⟨image', himage', hsigned⟩ := hall l' hl'
        obtain rfl := hother.unique hindex himage'
        exact ⟨image, himage, hsigned⟩
      · exact hall l (mem_takenBlocks.mpr ⟨hl, hempty⟩)
    · rintro ⟨⟨l₀, hl₀⟩, hall⟩
      refine ⟨?_, fun l hl => hall l (mem_takenBlocks.mp hl).1⟩
      obtain ⟨image, himage, -⟩ := hall l₀ hl₀
      obtain ⟨l, hl, -⟩ := (hhidden.exists_iff image hindex).mpr ⟨l₀, hl₀, himage⟩
      exact ⟨l, hl⟩
  unsigned := by
    rw [hhidden.slotBlocks_eq hindex]
    exact h.unsigned_eq hslots

end Law

def steady (judgment : SigningJudgment) : SigningTools where
  metadata _ := .ok (some 1, some 1)
  extractPng pageImage _ := .ok pageImage
  pdf _ := .ok []
  complete _ := .ok judgment

def blankImage : OcrContextFile where
  sha256 := { text := String.ofList (List.replicate 64 '0'), length_eq := by simp, hex := by simp }
  mimeGroup := .image
  sizeBytes := 0
  originalName := "blank.png"
  buffer := []

theorem executeSigning_steady (toLowerCase : String → String) (hypot : ℚ → ℚ → ℚ)
    (judgment : SigningJudgment) (doc : RecognizedDocument) (cues : List String) :
    ∃ result calls, executeSigning toLowerCase hypot (steady judgment) doc blankImage
      { signatureCues := cues } = .ok (result, calls) := by
  have hpages : ∀ pages, ∃ pageImages,
      rasterizePages (steady judgment) blankImage pages = .ok pageImages := by
    intro pages
    unfold rasterizePages
    by_cases hnil : pages = []
    · rw [if_pos hnil]
      exact ⟨_, rfl⟩
    · have himage : blankImage.mimeGroup = .image := rfl
      rw [if_neg hnil, if_pos himage]
      exact ⟨_, rfl⟩
  have hjudge : ∀ pageImages slot, ∃ out,
      judgeSlot (steady judgment) pageImages slot = .ok out := by
    intro pageImages slot
    unfold judgeSlot
    cases slot.image with
    | none => exact ⟨_, rfl⟩
    | some image =>
      cases pageImages.lookup slot.page with
      | none => exact ⟨_, rfl⟩
      | some pageImage => exact ⟨_, rfl⟩
  unfold executeSigning
  simp only [Bool.false_eq_true, if_false]
  obtain ⟨pageImages, hpageImages⟩ := hpages
    (((correlateSlots toLowerCase hypot doc.blocks cues).filter fun slot =>
      slot.image.isSome).map Slot.page)
  obtain ⟨judged, hjudged⟩ : ∃ judged, (correlateSlots toLowerCase hypot doc.blocks cues).mapM
      (judgeSlot (steady judgment) pageImages) = .ok judged :=
    exists_mapM fun slot _ => hjudge pageImages slot
  rw [hpageImages]
  simp only [bind, Except.bind, hjudged]
  exact ⟨_, _, rfl⟩

section Steady
variable {judgment : SigningJudgment} {slots : List Slot} {result : SigningResult}
  {calls : List JudgmentCall}

theorem Outcome.judgedSigned_steady
    (h : Outcome (steady judgment) blankImage slots result calls) (image : LocatedBlock) :
    JudgedSigned calls image ↔ judgment.signed = true ∧ ∃ call ∈ calls, call.image = image := by
  have hjudged : ∀ call ∈ calls, call.judgment = judgment := by
    intro call hcall
    obtain ⟨_, _, -, -, -, hjudged⟩ := h.shown call hcall
    exact (Except.ok.inj hjudged).symm
  constructor
  · rintro ⟨call, hcall, himage, hsigned⟩
    exact ⟨hjudged call hcall ▸ hsigned, call, hcall, himage⟩
  · rintro ⟨hsigned, call, hcall, himage⟩
    exact ⟨call, hcall, himage, (hjudged call hcall).symm ▸ hsigned⟩

end Steady

/-- For a document of GLM-OCR and a list of cues with which rounding makes no difference: every
execution that returns obeys the law, whatever pages are drawn and however the model judges, if
and only if no empty cue hides a slot. -/
theorem signingLaw_iff (toLowerCase : String → String) (hypot : ℚ → ℚ → ℚ)
    (responses : List LayoutParsingResponse) (info : MappingMeta) (cues : List String)
    (hrounds : RoundingSpares toLowerCase cues (mapLayoutParsing responses info).blocks hypot) :
    (∀ tools file result calls,
      executeSigning toLowerCase hypot tools (mapLayoutParsing responses info) file
          { geometryOnly := false, signatureCues := cues } = .ok (result, calls) →
        SigningLaw toLowerCase cues (mapLayoutParsing responses info).blocks tools file result
          calls) ↔
      NothingHidden toLowerCase cues (mapLayoutParsing responses info).blocks := by
  have hindex := mapLayoutParsing_index responses info
  generalize mapLayoutParsing responses info = doc at hindex hrounds
  have hslots := correlateSlots_exact hrounds hindex
  constructor
  · intro hlaw l hl hempty
    -- Where nobody signs, every slot is listed.
    obtain ⟨result, calls, hrun⟩ := executeSigning_steady toLowerCase hypot noJudgment doc cues
    have hout := executeSigning_outcome hindex hrun
    have hunsigned : ∀ l, ¬BlockSigned (Chosen doc.blocks) calls l := by
      rintro l ⟨image, -, hsigned⟩
      cases ((hout.judgedSigned_steady image).mp hsigned).1
    have hlisted := (hlaw _ _ _ _ hrun).unsigned.symm.trans (hout.unsigned_eq hslots)
    simp only [hunsigned, not_false_eq_true, decide_true, List.filter_true] at hlisted
    have hcue : "" ∉ (slotBlocks (Chosen doc.blocks) (cueBlocks toLowerCase cues doc.blocks)).map
        (firstCue toLowerCase cues) := by
      rw [hlisted]
      intro hmem
      obtain ⟨l', hl', hcue⟩ := List.mem_map.mp hmem
      exact (mem_takenBlocks.mp (mem_slotBlocks.mp hl').1).2 hcue
    have hopens : ∀ l' ∈ slotBlocks (Chosen doc.blocks) (cueBlocks toLowerCase cues doc.blocks),
        firstCue toLowerCase cues l' ≠ "" := fun l' hl' hl'cue =>
      hcue (List.mem_map.mpr ⟨l', hl', hl'cue⟩)
    obtain ⟨image, himage⟩ : ∃ image, Chosen doc.blocks l image := by
      by_contra hbare
      exact hopens l (mem_slotBlocks.mpr ⟨hl, .inr (not_exists.mp hbare)⟩) hempty
    obtain ⟨first, hfirst, hle, hgoes, hopen⟩ := exists_opens hl himage
    have htaken := hopens first (mem_slotBlocks.mpr ⟨hfirst, .inl hopen⟩)
    refine ⟨first, mem_takenBlocks.mpr ⟨hfirst, htaken⟩, ?_, image, himage, hgoes⟩
    refine lt_of_le_of_ne hle fun hsame => htaken ?_
    rw [located_of_index hindex (mem_cueBlocks.mp hfirst).1 (mem_cueBlocks.mp hl).1 hsame, hempty]
  · intro hhidden tools file result calls hrun
    exact (executeSigning_outcome hindex hrun).signingLaw hslots hindex hhidden

namespace Sample

def contract : LayoutParsingResponse where
  md_results := none
  layout_details := some [some
    [{ label := "text", bbox_2d := some ⟨1 / 4, 1 / 8, 1 / 2, 1 / 4⟩, content := "Director" },
      { label := "image", bbox_2d := some ⟨1 / 4, 1 / 4, 1 / 2, 3 / 8⟩, content := none },
      { label := "text", bbox_2d := some ⟨1 / 4, 3 / 4, 1 / 2, 7 / 8⟩, content := "Witness" }]]
  pages := none
  total_tokens := none

def glmMeta : MappingMeta := { provider := "glm-ocr", durationMs := 1 }

def directorBlock : LocatedBlock where
  block := { index := 0, page := 1, label := .text,
             bbox := some ⟨1 / 4, 1 / 8, 1 / 2, 1 / 4⟩, content := "Director" }
  bbox := ⟨1 / 4, 1 / 8, 1 / 2, 1 / 4⟩
  located := rfl

def witnessBlock : LocatedBlock where
  block := { index := 2, page := 1, label := .text,
             bbox := some ⟨1 / 4, 3 / 4, 1 / 2, 7 / 8⟩, content := "Witness" }
  bbox := ⟨1 / 4, 3 / 4, 1 / 2, 7 / 8⟩
  located := rfl

def signatureBlock : LocatedBlock where
  block := { index := 1, page := 1, label := .image,
             bbox := some ⟨1 / 4, 1 / 4, 1 / 2, 3 / 8⟩, content := "" }
  bbox := ⟨1 / 4, 1 / 4, 1 / 2, 3 / 8⟩
  located := rfl

def contractBlocks : List LayoutBlock :=
  [directorBlock.block, signatureBlock.block, witnessBlock.block]

theorem contract_blocks : (mapLayoutParsing [contract] glmMeta).blocks = contractBlocks := rfl

theorem contract_text {l : LocatedBlock} (hmem : l.block ∈ contractBlocks) :
    l = directorBlock ∨ l = signatureBlock ∨ l = witnessBlock := by
  have hsame : ∀ l' : LocatedBlock, l.block = l'.block → l = l' := fun l' h =>
    Option.some.inj ((located?_eq_some.mpr h).symm.trans (located?_eq_some.mpr rfl))
  simp only [contractBlocks, List.mem_cons, List.not_mem_nil, or_false] at hmem
  exact hmem.imp (hsame _) (Or.imp (hsame _) (hsame _))

theorem contract_nearest {dist : Bbox → Bbox → ℚ} {limit : ℚ} (l : LocatedBlock)
    (hpage : l.block.page = 1) (image : LocatedBlock) :
    Nearest dist limit contractBlocks l image ↔
      image = signatureBlock ∧ dist l.bbox signatureBlock.bbox ≤ limit := by
  have honly : ∀ other, Near dist limit contractBlocks l other → other = signatureBlock := by
    intro other hother
    obtain rfl | rfl | rfl := contract_text hother.mem
    · exact absurd hother.image_label (by decide)
    · rfl
    · exact absurd hother.image_label (by decide)
  constructor
  · intro h
    obtain rfl := honly image h.near
    exact ⟨rfl, h.near.close⟩
  · rintro ⟨rfl, hclose⟩
    refine ⟨⟨by simp [contractBlocks], rfl, hpage.symm, hclose⟩, ?_, ?_⟩
    · intro other hother
      rw [honly other hother]
    · intro other hother _
      rw [honly other hother]

theorem contract_rounding (cues : List String) :
    RoundingSpares jsToLowerCase cues contractBlocks hypot := by
  intro l hl image
  obtain ⟨hmem, htext, -⟩ := mem_cueBlocks.mp hl
  obtain rfl | rfl | rfl := contract_text hmem
  · rw [Chosen, contract_nearest _ rfl, contract_nearest _ rfl]
    exact and_congr_right fun _ => iff_of_true (by decide +kernel) (by decide +kernel)
  · exact absurd rfl htext
  · rw [Chosen, contract_nearest _ rfl, contract_nearest _ rfl]
    exact and_congr_right fun _ => iff_of_false (by decide +kernel) (by decide +kernel)

end Sample

/-- The contract with its own cues, signed by the director. -/
theorem signingLaw_iff_contract : ∃ result calls,
    executeSigning jsToLowerCase Sample.hypot
        (steady { noJudgment with signed := true })
        (mapLayoutParsing [Sample.contract] Sample.glmMeta) blankImage
        { signatureCues := ["Director", "Witness"] } = .ok (result, calls) ∧
      SigningLaw jsToLowerCase ["Director", "Witness"]
        (mapLayoutParsing [Sample.contract] Sample.glmMeta).blocks
        (steady { noJudgment with signed := true }) blankImage result calls := by
  obtain ⟨result, calls, hrun⟩ := executeSigning_steady jsToLowerCase Sample.hypot
    { noJudgment with signed := true } (mapLayoutParsing [Sample.contract] Sample.glmMeta)
    ["Director", "Witness"]
  have hiff := signingLaw_iff jsToLowerCase Sample.hypot [Sample.contract] Sample.glmMeta
    ["Director", "Witness"] (Sample.contract_rounding _)
  exact ⟨result, calls, hrun,
    hiff.mpr (nothingHidden_of_nonempty (by decide)) _ _ _ _ hrun⟩

namespace Sample

/-- The empty cue is found in `Witness` before its own is, and the slot is lost: the contract
counts as fully executed without its witness. -/
theorem emptyCue_losesWitness :
    ∃ result calls, executeSigning jsToLowerCase hypot (steady { noJudgment with signed := true })
        (mapLayoutParsing [contract] glmMeta) blankImage
        { signatureCues := ["Director", "", "Witness"] } = .ok (result, calls) ∧
      result.fullyExecuted = true ∧
      ¬ SigningLaw jsToLowerCase ["Director", "", "Witness"]
        (mapLayoutParsing [contract] glmMeta).blocks (steady { noJudgment with signed := true })
        blankImage result calls := by
  obtain ⟨result, calls, hrun⟩ := executeSigning_steady jsToLowerCase hypot
    { noJudgment with signed := true } (mapLayoutParsing [contract] glmMeta)
    ["Director", "", "Witness"]
  have hindex := mapLayoutParsing_index [contract] glmMeta
  have hout := executeSigning_outcome hindex hrun
  rw [contract_blocks] at hindex hout ⊢
  have hslots := correlateSlots_exact (contract_rounding ["Director", "", "Witness"]) hindex
  have hchosen : Chosen contractBlocks directorBlock signatureBlock :=
    (contract_nearest directorBlock rfl signatureBlock).mpr ⟨rfl, by decide +kernel⟩
  have hdirector : directorBlock ∈
      takenBlocks jsToLowerCase ["Director", "", "Witness"] contractBlocks := by
    rw [mem_takenBlocks, mem_cueBlocks]
    exact ⟨⟨by simp [contractBlocks], by decide +kernel⟩, by decide +kernel⟩
  have hfull : result.fullyExecuted = true := by
    rw [hout.executed_iff hslots (nearest_goesWithin _ _ hindex)]
    refine ⟨⟨_, hdirector⟩, fun l hl => ?_⟩
    obtain ⟨hcue, htaken⟩ := mem_takenBlocks.mp hl
    obtain ⟨hmem, htext, -⟩ := mem_cueBlocks.mp hcue
    obtain rfl | rfl | rfl := contract_text hmem
    · refine ⟨signatureBlock, hchosen, (hout.judgedSigned_steady _).mpr ⟨rfl, ?_⟩⟩
      exact (hout.called_iff hslots _).mpr ⟨⟨_, hdirector, hchosen⟩, rfl⟩
    · exact absurd rfl htext
    · exact absurd (by decide +kernel) htaken
  refine ⟨result, calls, hrun, hfull, fun hlaw => ?_⟩
  have hwitness : witnessBlock ∈
      cueBlocks jsToLowerCase ["Director", "", "Witness"] contractBlocks :=
    mem_cueBlocks.mpr ⟨by simp [contractBlocks], by decide +kernel⟩
  obtain ⟨image, himage, -⟩ := (hlaw.executed.mp hfull).2 witnessBlock hwitness
  obtain ⟨-, hclose⟩ := (contract_nearest witnessBlock rfl image).mp himage
  exact absurd hclose (by decide +kernel)

end Sample
end OcrService
