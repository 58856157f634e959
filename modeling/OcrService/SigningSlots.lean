import OcrService.Signing
import Mathlib.Data.List.Forall2
import Mathlib.Data.List.Induction
import Mathlib.Data.List.Nodup

/-! What `correlateSlots` finds: the slots of a document, in terms of its blocks. -/
namespace OcrService

structure Near (dist : Bbox → Bbox → ℚ) (limit : ℚ) (blocks : List LayoutBlock)
    (l image : LocatedBlock) : Prop where
  mem : image.block ∈ blocks
  image_label : image.block.label = .image
  page : image.block.page = l.block.page
  close : dist l.bbox image.bbox ≤ limit

/-- None of them is nearer, and none that is as near comes later. -/
structure Nearest (dist : Bbox → Bbox → ℚ) (limit : ℚ) (blocks : List LayoutBlock)
    (l image : LocatedBlock) : Prop where
  near : Near dist limit blocks l image
  least : ∀ other, Near dist limit blocks l other → dist l.bbox image.bbox ≤ dist l.bbox other.bbox
  last : ∀ other, Near dist limit blocks l other →
    dist l.bbox other.bbox ≤ dist l.bbox image.bbox → other.block.index ≤ image.block.index

theorem mem_imageBlocks {blocks : List LayoutBlock} {image : LocatedBlock} :
    image ∈ imageBlocks blocks ↔ image.block ∈ blocks ∧ image.block.label = .image := by
  constructor
  · intro h
    obtain ⟨block, hmem, hblock⟩ := List.mem_filterMap.mp h
    by_cases hlabel : block.label = .image
    · rw [if_pos hlabel, located?_eq_some] at hblock
      subst hblock
      exact ⟨hmem, hlabel⟩
    · rw [if_neg hlabel] at hblock
      cases hblock
  · rintro ⟨hmem, hlabel⟩
    refine List.mem_filterMap.mpr ⟨image.block, hmem, ?_⟩
    rw [if_pos hlabel]
    exact located?_eq_some.mpr rfl

theorem located_of_index {blocks : List LayoutBlock}
    (hindex : (blocks.map LayoutBlock.index).Pairwise (· < ·)) {l l' : LocatedBlock}
    (h : l.block ∈ blocks) (h' : l'.block ∈ blocks) (he : l.block.index = l'.block.index) :
    l = l' := by
  have hnodup : (blocks.map LayoutBlock.index).Nodup := hindex.imp ne_of_lt
  have hblock : l.block = l'.block := List.inj_on_of_nodup_map hnodup h h' he
  exact Option.some.inj ((located?_eq_some.mpr rfl).symm.trans (located?_eq_some.mpr hblock.symm))

theorem index_lt_filterMap {blocks : List LayoutBlock}
    (hindex : (blocks.map LayoutBlock.index).Pairwise (· < ·))
    {pick : LayoutBlock → Option LocatedBlock} (hpick : ∀ b l, pick b = some l → l.block = b) :
    (blocks.filterMap pick).Pairwise fun l l' => l.block.index < l'.block.index := by
  rw [List.pairwise_filterMap]
  refine (List.pairwise_map.mp hindex).imp fun {b b'} hlt l hl l' hl' => ?_
  rw [hpick b l hl, hpick b' l' hl']
  exact hlt

section Nearest
variable {hypot : ℚ → ℚ → ℚ} {bbox : Bbox} {page : Nat}

variable (hypot bbox page) in
/-- The loop of `nearestImage` keeps the best so far, or ends with the last of the nearest. -/
theorem foldl_nearer (images : List LocatedBlock) (best : Option LocatedBlock × ℚ) :
    (images.foldl (nearer hypot bbox page) best = best ∧
      ∀ other ∈ images, other.block.page = page → best.2 < distance hypot bbox other.bbox) ∨
    ∃ before image after, images = before ++ image :: after ∧ image.block.page = page ∧
      images.foldl (nearer hypot bbox page) best = (some image, distance hypot bbox image.bbox) ∧
      distance hypot bbox image.bbox ≤ best.2 ∧
      (∀ other ∈ before, other.block.page = page →
        distance hypot bbox image.bbox ≤ distance hypot bbox other.bbox) ∧
      ∀ other ∈ after, other.block.page = page →
        distance hypot bbox image.bbox < distance hypot bbox other.bbox := by
  induction images generalizing best with
  | nil => exact .inl ⟨rfl, by simp⟩
  | cons image images ih =>
    rw [List.foldl_cons]
    by_cases htaken : image.block.page = page ∧ distance hypot bbox image.bbox ≤ best.2
    · have hstep : nearer hypot bbox page best image =
          (some image, distance hypot bbox image.bbox) := by
        simp [nearer, htaken]
      rw [hstep]
      obtain ⟨hsame, hfar⟩ | ⟨before, found, after, rfl, hpage, hfound, hle, hbefore, hafter⟩ :=
        ih (some image, distance hypot bbox image.bbox)
      · exact .inr ⟨[], image, images, rfl, htaken.1, hsame, htaken.2, by simp, hfar⟩
      · refine .inr ⟨image :: before, found, after, rfl, hpage, hfound, hle.trans htaken.2, ?_,
          hafter⟩
        intro other hother hotherPage
        obtain rfl | hother := List.mem_cons.mp hother
        · exact hle
        · exact hbefore other hother hotherPage
    · have hstep : nearer hypot bbox page best image = best := by
        rw [nearer]
        by_cases hpage : image.block.page = page
        · rw [if_neg (not_not.mpr hpage), if_neg fun h => htaken ⟨hpage, h⟩]
        · rw [if_pos hpage]
      have hskipped : image.block.page = page → best.2 < distance hypot bbox image.bbox :=
        fun hpage => lt_of_not_ge fun h => htaken ⟨hpage, h⟩
      rw [hstep]
      obtain ⟨hsame, hfar⟩ | ⟨before, found, after, rfl, hpage, hfound, hle, hbefore, hafter⟩ :=
        ih best
      · refine .inl ⟨hsame, ?_⟩
        intro other hother hotherPage
        obtain rfl | hother := List.mem_cons.mp hother
        · exact hskipped hotherPage
        · exact hfar other hother hotherPage
      · refine .inr ⟨image :: before, found, after, rfl, hpage, hfound, hle, ?_, hafter⟩
        intro other hother hotherPage
        obtain rfl | hother := List.mem_cons.mp hother
        · exact hle.trans (hskipped hotherPage).le
        · exact hbefore other hother hotherPage

variable {blocks : List LayoutBlock} {l image : LocatedBlock}

theorem Nearest.unique {dist : Bbox → Bbox → ℚ} {limit : ℚ} {other : LocatedBlock}
    (hindex : (blocks.map LayoutBlock.index).Pairwise (· < ·))
    (h : Nearest dist limit blocks l image) (h' : Nearest dist limit blocks l other) :
    image = other := by
  have hle := h'.last image h.near (h.least other h'.near)
  have hge := h.last other h'.near (h'.least image h.near)
  exact located_of_index hindex h.near.mem h'.near.mem (Nat.le_antisymm hle hge)

/-- The image found is the nearest, as distances are computed. -/
theorem nearestImage_eq_some_iff (hindex : (blocks.map LayoutBlock.index).Pairwise (· < ·)) :
    nearestImage hypot l.bbox l.block.page (imageBlocks blocks) = some image ↔
      Nearest (distance hypot) CORRELATION_THRESHOLD blocks l image := by
  have hsorted : (imageBlocks blocks).Pairwise fun i i' => i.block.index < i'.block.index := by
    refine index_lt_filterMap hindex fun b i hi => ?_
    split at hi
    · exact located?_eq_some.mp hi
    · cases hi
  have hnearest {found : LocatedBlock}
      (hfound : nearestImage hypot l.bbox l.block.page (imageBlocks blocks) = some found) :
      Nearest (distance hypot) CORRELATION_THRESHOLD blocks l found := by
    unfold nearestImage at hfound
    obtain ⟨hsame, -⟩ | ⟨before, image, after, hsplit, hpage, hout, hle, hbefore, hafter⟩ :=
      foldl_nearer hypot l.bbox l.block.page (imageBlocks blocks) (none, CORRELATION_THRESHOLD)
    · rw [hsame] at hfound
      cases hfound
    · rw [hout] at hfound
      obtain rfl := Option.some.inj hfound
      have hmem : image ∈ imageBlocks blocks := by simp [hsplit]
      obtain ⟨hblock, hlabel⟩ := mem_imageBlocks.mp hmem
      rw [hsplit] at hsorted
      have hplaces {other : LocatedBlock}
          (hother : Near (distance hypot) CORRELATION_THRESHOLD blocks l other) :
          other ∈ before ∨ other = image ∨ other ∈ after := by
        have hin := mem_imageBlocks.mpr ⟨hother.mem, hother.image_label⟩
        simpa [hsplit] using hin
      refine ⟨⟨hblock, hlabel, hpage, hle⟩, fun other hother => ?_, fun other hother has => ?_⟩
      · obtain hin | rfl | hin := hplaces hother
        · exact hbefore other hin hother.page
        · exact le_rfl
        · exact (hafter other hin hother.page).le
      · obtain hin | rfl | hin := hplaces hother
        · exact ((List.pairwise_append.mp hsorted).2.2 other hin image List.mem_cons_self).le
        · exact le_rfl
        · exact absurd has (not_le_of_gt (hafter other hin hother.page))
  refine ⟨hnearest, fun h => ?_⟩
  cases hfound : nearestImage hypot l.bbox l.block.page (imageBlocks blocks) with
  | some found => rw [(hnearest hfound).unique hindex h]
  | none =>
    unfold nearestImage at hfound
    obtain ⟨-, hfar⟩ | ⟨before, found, after, -, -, hout, -⟩ :=
      foldl_nearer hypot l.bbox l.block.page (imageBlocks blocks) (none, CORRELATION_THRESHOLD)
    · have hmem := mem_imageBlocks.mpr ⟨h.near.mem, h.near.image_label⟩
      exact absurd h.near.close (not_le_of_gt (hfar image hmem h.near.page))
    · rw [hout] at hfound
      cases hfound

end Nearest

section Opens
variable (goes : LocatedBlock → LocatedBlock → Prop)

def Opens (ts : List LocatedBlock) (l : LocatedBlock) : Prop :=
  ∃ image, goes l image ∧ ∀ l' ∈ ts, l'.block.index < l.block.index → ¬goes l' image

def Bare (l : LocatedBlock) : Prop := ∀ image, ¬goes l image

open Classical in
/-- The blocks that have slots of their own, in the order of the slots: first those that are the
first with their image, then those without one. -/
noncomputable def slotBlocks (ts : List LocatedBlock) : List LocatedBlock :=
  (ts.filter fun l => Opens goes ts l) ++ ts.filter fun l => Bare goes l

variable {goes} {ts : List LocatedBlock} {l image : LocatedBlock}

theorem mem_slotBlocks : l ∈ slotBlocks goes ts ↔ l ∈ ts ∧ (Opens goes ts l ∨ Bare goes l) := by
  simp only [slotBlocks, List.mem_append, List.mem_filter, decide_eq_true_eq, and_or_left]

theorem slotBlocks_congr {goes' : LocatedBlock → LocatedBlock → Prop}
    (h : ∀ l ∈ ts, ∀ image, goes l image ↔ goes' l image) :
    slotBlocks goes ts = slotBlocks goes' ts := by
  classical
  have hopens : ∀ l ∈ ts, Opens goes ts l ↔ Opens goes' ts l := fun l hl =>
    exists_congr fun image => and_congr (h l hl image)
      (forall₂_congr fun l' hl' => imp_congr_right fun _ => not_congr (h l' hl' image))
  have hbare : ∀ l ∈ ts, Bare goes l ↔ Bare goes' l := fun l hl =>
    forall_congr' fun image => not_congr (h l hl image)
  rw [slotBlocks, slotBlocks]
  congr 1
  · exact List.filter_congr fun l hl => decide_eq_decide.mpr (hopens l hl)
  · exact List.filter_congr fun l hl => decide_eq_decide.mpr (hbare l hl)

theorem exists_opens (hl : l ∈ ts) (h : goes l image) :
    ∃ l' ∈ ts, l'.block.index ≤ l.block.index ∧ goes l' image ∧ Opens goes ts l' := by
  induction hn : l.block.index using Nat.strong_induction_on generalizing l with
  | _ n ih =>
    by_cases hearlier : ∃ l' ∈ ts, l'.block.index < l.block.index ∧ goes l' image
    · obtain ⟨l', hl', hlt, hgoes⟩ := hearlier
      obtain ⟨first, hfirst, hle, hfirstGoes, hopens⟩ := ih _ (hn ▸ hlt) hl' hgoes rfl
      exact ⟨first, hfirst, by omega, hfirstGoes, hopens⟩
    · exact ⟨l, hl, hn.le, h, image, h, fun l' hl' hlt hgoes => hearlier ⟨l', hl', hlt, hgoes⟩⟩

theorem opens_append {new : LocatedBlock} (hnew : l.block.index ≤ new.block.index) :
    Opens goes (ts ++ [new]) l ↔ Opens goes ts l := by
  refine exists_congr fun image => and_congr_right fun _ => ?_
  simp only [List.forall_mem_append, List.forall_mem_singleton]
  exact and_iff_left fun hlt => absurd hlt (Nat.not_lt.mpr hnew)

theorem opens_all (hnew : ∀ l' ∈ ts, l'.block.index < l.block.index) :
    Opens goes ts l ↔ ∃ image, goes l image ∧ ∀ l' ∈ ts, ¬goes l' image :=
  exists_congr fun _ => and_congr_right fun _ =>
    ⟨fun h l' hl' => h l' hl' (hnew l' hl'), fun h l' hl' _ => h l' hl'⟩

end Opens

section Cues
variable (toLowerCase : String → String) (cues : List String)

def HasCue (l : LocatedBlock) : Prop :=
  l.block.label ≠ .image ∧
    ∃ cue ∈ cues, jsIncludes (toLowerCase l.block.content) (toLowerCase cue) = true

instance : DecidablePred (HasCue toLowerCase cues) := fun _ => inferInstanceAs (Decidable (_ ∧ _))

def firstCue (l : LocatedBlock) : String :=
  (cues.find? fun cue => jsIncludes (toLowerCase l.block.content) (toLowerCase cue)).getD ""

def cueBlocks (blocks : List LayoutBlock) : List LocatedBlock :=
  (blocks.filterMap LayoutBlock.located?).filter fun l => HasCue toLowerCase cues l

/-- Those of which the code takes what it has found for a cue. -/
def takenBlocks (blocks : List LayoutBlock) : List LocatedBlock :=
  (cueBlocks toLowerCase cues blocks).filter fun l => firstCue toLowerCase cues l ≠ ""

variable {toLowerCase cues} {blocks : List LayoutBlock} {l : LocatedBlock}

theorem mem_cueBlocks :
    l ∈ cueBlocks toLowerCase cues blocks ↔ l.block ∈ blocks ∧ HasCue toLowerCase cues l := by
  simp only [cueBlocks, List.mem_filter, List.mem_filterMap, located?_eq_some, decide_eq_true_eq,
    exists_eq_right']

theorem mem_takenBlocks : l ∈ takenBlocks toLowerCase cues blocks ↔
    l ∈ cueBlocks toLowerCase cues blocks ∧ firstCue toLowerCase cues l ≠ "" := by
  simp only [takenBlocks, List.mem_filter, decide_eq_true_eq]

theorem takenBlocks_append (seen : List LayoutBlock) (block : LayoutBlock) :
    takenBlocks toLowerCase cues (seen ++ [block]) =
      takenBlocks toLowerCase cues seen ++ takenBlocks toLowerCase cues [block] := by
  simp only [takenBlocks, cueBlocks, List.filterMap_append, List.filter_append]

theorem truthy_matchCue (htext : l.block.label ≠ .image) :
    truthy (matchCue toLowerCase l.block.content cues) =
      if HasCue toLowerCase cues l ∧ firstCue toLowerCase cues l ≠ "" then
        some (firstCue toLowerCase cues l)
      else none := by
  have hfind : (matchCue toLowerCase l.block.content cues).isSome = true ↔
      HasCue toLowerCase cues l := by
    rw [matchCue, List.find?_isSome]
    exact (and_iff_right htext).symm
  have hcue : firstCue toLowerCase cues l =
      (matchCue toLowerCase l.block.content cues).getD "" := rfl
  simp only [← hfind, hcue]
  cases matchCue toLowerCase l.block.content cues with
  | none => simp [truthy]
  | some cue => by_cases hempty : cue = "" <;> simp [truthy, hempty]

variable (toLowerCase cues) (hypot : ℚ → ℚ → ℚ)

/-- What a block does to the table: nothing, unless the code takes it. -/
theorem correlate_cases (images : List LocatedBlock) (table : SlotTable) (block : LayoutBlock) :
    (takenBlocks toLowerCase cues [block] = [] ∧
      table.correlate toLowerCase hypot cues images block = table) ∨
    ∃ l, l.block = block ∧ takenBlocks toLowerCase cues [block] = [l] ∧
      table.correlate toLowerCase hypot cues images block =
        match nearestImage hypot l.bbox l.block.page images with
        | some image => table.addImage (firstCue toLowerCase cues l) l.block image
        | none => table.addOrphan (firstCue toLowerCase cues l) l := by
  unfold SlotTable.correlate takenBlocks cueBlocks
  cases hlocated : block.located? with
  | none =>
    refine .inl ⟨by simp [hlocated], ?_⟩
    by_cases hlabel : block.label = .image <;> simp [hlabel]
  | some l =>
    obtain rfl := located?_eq_some.mp hlocated
    have hone : [l.block].filterMap LayoutBlock.located? = [l] := by simp [hlocated]
    rw [hone]
    by_cases hlabel : l.block.label = .image
    · exact .inl ⟨by simp [HasCue, hlabel], if_pos hlabel⟩
    · rw [if_neg hlabel, truthy_matchCue hlabel]
      by_cases htaken : HasCue toLowerCase cues l ∧ firstCue toLowerCase cues l ≠ ""
      · rw [if_pos htaken]
        exact .inr ⟨l, rfl, by simp [htaken.1, htaken.2], rfl⟩
      · rw [if_neg htaken]
        refine .inl ⟨?_, rfl⟩
        rw [List.filter_filter, List.filter_eq_nil_iff]
        intro l' hl'
        rw [List.mem_singleton.mp hl']
        simpa [and_comm] using htaken

end Cues

theorem exists_left {α β : Type} {R : α → β → Prop} {xs : List α} {ys : List β}
    (h : List.Forall₂ R xs ys) {y : β} (hy : y ∈ ys) : ∃ x ∈ xs, R x y := by
  induction h with
  | nil => cases hy
  | cons hxy _ ih =>
    obtain rfl | hy := List.mem_cons.mp hy
    · exact ⟨_, List.mem_cons_self, hxy⟩
    · obtain ⟨x, hx, hxy⟩ := ih hy
      exact ⟨x, List.mem_cons_of_mem _ hx, hxy⟩

theorem pairwise_of_forall₂ {α β : Type} {R : α → β → Prop} {P : α → α → Prop} {Q : β → β → Prop}
    {xs : List α} {ys : List β} (h : List.Forall₂ R xs ys) (hxs : xs.Pairwise P)
    (hPQ : ∀ x x' y y', R x y → R x' y' → P x x' → Q y y') : ys.Pairwise Q := by
  induction h with
  | nil => exact .nil
  | @cons x y xs ys hxy hrest ih =>
    obtain ⟨hx, hxs⟩ := List.pairwise_cons.mp hxs
    refine List.pairwise_cons.mpr ⟨fun y' hy' => ?_, ih hxs⟩
    obtain ⟨x', hx', hxy'⟩ := exists_left hrest hy'
    exact hPQ x x' y y' hxy hxy' (hx x' hx')

theorem exists_right {α β : Type} {R : α → β → Prop} {xs : List α} {ys : List β}
    (h : List.Forall₂ R xs ys) {x : α} (hx : x ∈ xs) : ∃ y ∈ ys, R x y := by
  obtain ⟨y, hy, hxy⟩ := exists_left h.flip hx
  exact ⟨y, hy, hxy⟩

section Correlate
variable (toLowerCase : String → String) (cues : List String)
  (goes : LocatedBlock → LocatedBlock → Prop)

structure SlotOf (l : LocatedBlock) (slot : Slot) : Prop where
  label : slot.label = firstCue toLowerCase cues l
  image : ∀ image, slot.image = some image ↔ goes l image
  placed : ∀ image, slot.image = some image →
    slot.page = image.block.page ∧ slot.bbox = image.bbox

structure EntryOf (l : LocatedBlock) (entry : Nat × Slot) : Prop where
  slot : SlotOf toLowerCase cues goes l entry.2
  index : ∃ image, goes l image ∧ image.block.index = entry.1

open Classical in
/-- The table after the blocks taken so far. -/
structure Correlated (ts : List LocatedBlock) (table : SlotTable) : Prop where
  byImage : List.Forall₂ (EntryOf toLowerCase cues goes) (ts.filter fun l => Opens goes ts l)
    table.byImage
  orphans : List.Forall₂ (SlotOf toLowerCase cues goes) (ts.filter fun l => Bare goes l)
    table.orphans

variable {toLowerCase cues goes} {ts : List LocatedBlock} {table : SlotTable} {l : LocatedBlock}

theorem EntryOf.addContext {index : Nat} {slot : Slot}
    (h : EntryOf toLowerCase cues goes l (index, slot)) (content : String) :
    EntryOf toLowerCase cues goes l (index, slot.addContext content) := by
  unfold Slot.addContext
  exact ⟨⟨h.slot.label, h.slot.image, h.slot.placed⟩, h.index⟩

variable {images : List LocatedBlock} {hypot : ℚ → ℚ → ℚ}

structure GoesWithin (goes : LocatedBlock → LocatedBlock → Prop) : Prop where
  index : ∀ {l l' image image'}, goes l image → goes l' image' →
    image.block.index = image'.block.index → image = image'
  one : ∀ {l image image'}, goes l image → goes l image' → image = image'
  page : ∀ {l image}, goes l image → image.block.page = l.block.page

theorem Correlated.mem_keys (h : Correlated toLowerCase cues goes ts table)
    (hgoes : GoesWithin goes) {image : LocatedBlock} (himage : goes l image) :
    image.block.index ∈ table.byImage.map Prod.fst ↔ ∃ l' ∈ ts, goes l' image := by
  classical
  constructor
  · intro hkey
    obtain ⟨entry, hentry, hindex⟩ := List.mem_map.mp hkey
    obtain ⟨l', hl', hof⟩ := exists_left h.byImage hentry
    obtain ⟨image', himage', hindex'⟩ := hof.index
    obtain rfl := hgoes.index himage' himage (hindex'.trans hindex)
    exact ⟨l', List.mem_of_mem_filter hl', himage'⟩
  · rintro ⟨l', hl', himage'⟩
    obtain ⟨first, hfirst, -, hgoesFirst, hopens⟩ := exists_opens hl' himage'
    obtain ⟨entry, hentry, hof⟩ := exists_right h.byImage
      (List.mem_filter.mpr ⟨hfirst, decide_eq_true hopens⟩)
    obtain ⟨image', hfirst', hindex⟩ := hof.index
    obtain rfl := hgoes.one hfirst' hgoesFirst
    exact List.mem_map.mpr ⟨entry, hentry, hindex.symm⟩

open Classical in
theorem filter_opens_append (hnew : ∀ l' ∈ ts, l'.block.index < l.block.index) :
    ((ts ++ [l]).filter fun l' => Opens goes (ts ++ [l]) l') =
      (ts.filter fun l' => Opens goes ts l') ++ if Opens goes ts l then [l] else [] := by
  have hlast : Opens goes (ts ++ [l]) l ↔ Opens goes ts l := opens_append (le_refl l.block.index)
  rw [List.filter_append]
  congr 1
  · refine List.filter_congr fun l' hl' => ?_
    rw [decide_eq_decide]
    exact opens_append (hnew l' hl').le
  · simp only [List.filter_cons, List.filter_nil, decide_eq_true_eq, hlast]

/-- A block that goes with an image opens its slot if no block before it goes with the same. -/
theorem opens_iff_first {image : LocatedBlock} (hgoes : GoesWithin goes) (hl : goes l image)
    (hnew : ∀ l' ∈ ts, l'.block.index < l.block.index) :
    Opens goes ts l ↔ ¬∃ l' ∈ ts, goes l' image := by
  rw [opens_all hnew]
  constructor
  · rintro ⟨image', hl', hfirst⟩ ⟨other, hother, hothers⟩
    obtain rfl := hgoes.one hl' hl
    exact hfirst other hother hothers
  · intro hnone
    exact ⟨image, hl, fun l' hl' hgoes' => hnone ⟨l', hl', hgoes'⟩⟩

theorem Correlated.addOrphan (h : Correlated toLowerCase cues goes ts table)
    (hbare : Bare goes l) (hnew : ∀ l' ∈ ts, l'.block.index < l.block.index) :
    Correlated toLowerCase cues goes (ts ++ [l])
      (table.addOrphan (firstCue toLowerCase cues l) l) := by
  classical
  have hbares : ([l].filter fun l => Bare goes l) = [l] := by simp [hbare]
  refine ⟨?_, ?_⟩
  · rw [filter_opens_append hnew, if_neg fun ⟨image, hl, _⟩ => hbare image hl, List.append_nil]
    exact h.byImage
  · rw [List.filter_append, hbares]
    refine List.rel_append h.orphans (.cons ⟨rfl, fun image => ?_, fun _ he => by cases he⟩ .nil)
    exact iff_of_false (fun he => by cases he) (hbare image)

/-- The slot of the image gets the text of the block, or is opened by it. -/
theorem Correlated.addImage {image : LocatedBlock}
    (h : Correlated toLowerCase cues goes ts table) (hgoes : GoesWithin goes)
    (hl : goes l image) (hnew : ∀ l' ∈ ts, l'.block.index < l.block.index) :
    Correlated toLowerCase cues goes (ts ++ [l])
      (table.addImage (firstCue toLowerCase cues l) l.block image) := by
  classical
  have hkey := h.mem_keys hgoes hl
  have hopens := opens_iff_first hgoes hl hnew
  have hbare : ¬Bare goes l := fun hbare => hbare image hl
  have hbares : ([l].filter fun l => Bare goes l) = [] := by simp [hbare]
  have horphans : (table.addImage (firstCue toLowerCase cues l) l.block image).orphans =
      table.orphans := by
    unfold SlotTable.addImage
    split <;> rfl
  refine ⟨?_, ?_⟩
  · rw [filter_opens_append hnew]
    by_cases hold : image.block.index ∈ table.byImage.map Prod.fst
    · rw [if_neg (not_not.mpr (hkey.mp hold) ∘ hopens.mp), List.append_nil]
      unfold SlotTable.addImage
      rw [if_pos hold]
      refine List.forall₂_map_right_iff.mpr (h.byImage.imp fun l' entry hentry => ?_)
      by_cases hsame : entry.1 = image.block.index
      · simp only [if_pos hsame]
        exact hentry.addContext l.block.content
      · simp only [if_neg hsame]
        exact hentry
    · rw [if_pos (hopens.mpr (hold ∘ hkey.mpr))]
      unfold SlotTable.addImage
      rw [if_neg hold]
      refine List.rel_append h.byImage (.cons ⟨⟨rfl, fun image' => ?_, ?_⟩, image, hl, rfl⟩ .nil)
      · exact ⟨fun he => Option.some.inj he ▸ hl, fun hl' => congrArg some (hgoes.one hl hl')⟩
      · rintro _ ⟨⟩
        exact ⟨(hgoes.page hl).symm, rfl⟩
  · rw [horphans, List.filter_append, hbares, List.append_nil]
    exact h.orphans

theorem Correlated.step (h : Correlated toLowerCase cues goes ts table)
    (hgoes : GoesWithin goes)
    (himage : ∀ image, nearestImage hypot l.bbox l.block.page images = some image ↔ goes l image)
    (hnew : ∀ l' ∈ ts, l'.block.index < l.block.index) :
    Correlated toLowerCase cues goes (ts ++ [l])
      (match nearestImage hypot l.bbox l.block.page images with
        | some image => table.addImage (firstCue toLowerCase cues l) l.block image
        | none => table.addOrphan (firstCue toLowerCase cues l) l) := by
  cases hfound : nearestImage hypot l.bbox l.block.page images with
  | none =>
    have hbare : Bare goes l := fun image hl => by
      rw [(himage image).mpr hl] at hfound
      cases hfound
    exact h.addOrphan hbare hnew
  | some image => exact h.addImage hgoes ((himage image).mp hfound) hnew

/-- The table after all of them. -/
theorem correlated_foldl (hgoes : GoesWithin goes)
    (himage : ∀ l image, nearestImage hypot l.bbox l.block.page images = some image ↔ goes l image)
    {seen : List LayoutBlock} (hindex : (seen.map LayoutBlock.index).Pairwise (· < ·)) :
    Correlated toLowerCase cues goes (takenBlocks toLowerCase cues seen)
      (seen.foldl (SlotTable.correlate toLowerCase hypot cues images) {}) := by
  induction seen using List.reverseRecOn with
  | nil => exact ⟨.nil, .nil⟩
  | append_singleton seen block ih =>
    rw [List.map_append, List.pairwise_append] at hindex
    rw [List.foldl_append, List.foldl_cons, List.foldl_nil, takenBlocks_append]
    obtain ⟨hskip, hstep⟩ | ⟨l, hl, htaken, hstep⟩ :=
      correlate_cases toLowerCase cues hypot images
        (seen.foldl (SlotTable.correlate toLowerCase hypot cues images) {}) block
    · rw [hskip, hstep, List.append_nil]
      exact ih hindex.1
    · rw [htaken, hstep]
      refine (ih hindex.1).step hgoes (himage l) fun l' hl' => ?_
      obtain ⟨hmem, -⟩ := mem_cueBlocks.mp (mem_takenBlocks.mp hl').1
      exact hindex.2.2 _ (List.mem_map_of_mem hmem) _ (by simp [hl])

end Correlate

section Document
variable {goes : LocatedBlock → LocatedBlock → Prop} {ts : List LocatedBlock}
  {blocks : List LayoutBlock}

theorem nearest_goesWithin (dist : Bbox → Bbox → ℚ) (limit : ℚ)
    (hindex : (blocks.map LayoutBlock.index).Pairwise (· < ·)) :
    GoesWithin (Nearest dist limit blocks) where
  index h h' he := located_of_index hindex h.near.mem h'.near.mem he
  one h h' := h.unique hindex h'
  page h := h.near.page

theorem takenBlocks_increasing (toLowerCase : String → String) (cues : List String)
    (hindex : (blocks.map LayoutBlock.index).Pairwise (· < ·)) :
    (takenBlocks toLowerCase cues blocks).Pairwise fun l l' => l.block.index < l'.block.index :=
  ((index_lt_filterMap hindex fun _ _ => located?_eq_some.mp).filter _).filter _

/-- The slots of a document: one for each of the blocks above, in their order. -/
theorem correlateSlots_spec (toLowerCase : String → String) (hypot : ℚ → ℚ → ℚ)
    (cues : List String) (hindex : (blocks.map LayoutBlock.index).Pairwise (· < ·)) :
    List.Forall₂
      (SlotOf toLowerCase cues (Nearest (distance hypot) CORRELATION_THRESHOLD blocks))
      (slotBlocks (Nearest (distance hypot) CORRELATION_THRESHOLD blocks)
        (takenBlocks toLowerCase cues blocks))
      (correlateSlots toLowerCase hypot blocks cues) := by
  have htable : Correlated toLowerCase cues
      (Nearest (distance hypot) CORRELATION_THRESHOLD blocks) (takenBlocks toLowerCase cues blocks)
      (blocks.foldl (SlotTable.correlate toLowerCase hypot cues (imageBlocks blocks)) {}) :=
    correlated_foldl (nearest_goesWithin _ _ hindex)
      (fun _ _ => nearestImage_eq_some_iff hindex) hindex
  refine List.rel_append ?_ htable.orphans
  exact List.forall₂_map_right_iff.mpr (htable.byImage.imp fun _ _ hentry => hentry.slot)

theorem slots_nodup {toLowerCase : String → String} {cues : List String} {slots : List Slot}
    (hgoes : GoesWithin goes)
    (hts : ts.Pairwise fun l l' => l.block.index < l'.block.index)
    (h : List.Forall₂ (SlotOf toLowerCase cues goes) (slotBlocks goes ts) slots) :
    ((slots.filterMap Slot.image).map fun image => image.block.index).Nodup := by
  classical
  have hblocks : (slotBlocks goes ts).Pairwise fun l l' => ∀ image image', goes l image →
      goes l' image' → image.block.index ≠ image'.block.index := by
    refine List.pairwise_append.mpr ⟨?_, ?_, ?_⟩
    · refine (hts.filter _).imp_of_mem fun {l l'} hl hl' hlt image image' hi hi' he => ?_
      obtain rfl := hgoes.index hi hi' he
      obtain ⟨first, hfirst, hnone⟩ := of_decide_eq_true (List.mem_filter.mp hl').2
      obtain rfl := hgoes.one hfirst hi'
      exact hnone l (List.mem_of_mem_filter hl) hlt hi
    · refine (hts.filter _).imp_of_mem fun {l l'} hl _ _ image image' hi _ _ => ?_
      exact of_decide_eq_true (List.mem_filter.mp hl).2 image hi
    · intro l _ l' hl' image image' _ hi' _
      exact of_decide_eq_true (List.mem_filter.mp hl').2 image' hi'
  refine List.pairwise_map.mpr (List.pairwise_filterMap.mpr ?_)
  refine pairwise_of_forall₂ h hblocks fun l l' slot slot' hl hl' hne image hi image' hi' => ?_
  exact hne image image' ((hl.image image).mp hi) ((hl'.image image').mp hi')

end Document

end OcrService
