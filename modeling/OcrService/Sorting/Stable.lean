import Mathlib.Data.List.Sort
import Mathlib.Data.Prod.Lex

/-! Stable sorting by a key: what the order it makes is, and that nothing else is in that
order. -/
namespace Sorting

variable {α β γ : Type*} [LinearOrder β]

def stableSort (key : α → β) (l : List α) : List α :=
  l.insertionSort fun a b => key a ≤ key b

def Precedes (key : α → β) (x y : α × Nat) : Prop :=
  key x.1 < key y.1 ∨ key x.1 = key y.1 ∧ x.2 < y.2

theorem Precedes.asymm {key : α → β} {x y : α × Nat} (hxy : Precedes key x y) :
    ¬Precedes key y x := by
  intro hyx
  obtain hlt | ⟨heq, hpos⟩ := hyx
  · cases hxy with
    | inl h => exact lt_asymm h hlt
    | inr h => exact absurd h.1 (ne_of_gt hlt)
  · cases hxy with
    | inl h => exact absurd heq (ne_of_gt h)
    | inr h => exact lt_asymm h.2 hpos

theorem Precedes.le {key : α → β} {x y : α × Nat} (hxy : Precedes key x y) :
    key x.1 ≤ key y.1 := by
  obtain hlt | ⟨heq, -⟩ := hxy
  · exact hlt.le
  · exact heq.le

theorem Precedes.total (key : α → β) {x y : α × Nat} (hne : x.2 ≠ y.2) :
    Precedes key x y ∨ Precedes key y x := by
  rcases lt_trichotomy (key x.1) (key y.1) with hlt | heq | hgt
  · exact .inl (.inl hlt)
  · cases lt_or_gt_of_ne hne with
    | inl h => exact .inl (.inr ⟨heq, h⟩)
    | inr h => exact .inr (.inr ⟨heq.symm, h⟩)
  · exact .inr (.inl hgt)

theorem stableSort_perm (key : α → β) (l : List α) : (stableSort key l).Perm l :=
  List.perm_insertionSort _ l

theorem mem_stableSort {key : α → β} {l : List α} {a : α} : a ∈ stableSort key l ↔ a ∈ l :=
  (stableSort_perm key l).mem_iff

theorem stableSort_congr {key key' : α → β} {l : List α} (h : ∀ a ∈ l, key a = key' a) :
    stableSort key l = stableSort key' l := by
  have hmap := List.map_insertionSort (r := fun a b => key a ≤ key b)
    (s := fun a b => key' a ≤ key' b) id l fun a ha b hb => by rw [h a ha, h b hb]; rfl
  simpa [stableSort] using hmap

theorem pairwise_zipIdx (l : List α) (n : Nat) : (l.zipIdx n).Pairwise fun x y => x.2 < y.2 := by
  induction l generalizing n with
  | nil => exact .nil
  | cons a l ih =>
    rw [List.zipIdx_cons, List.pairwise_cons]
    refine ⟨?_, ih (n + 1)⟩
    intro y hy
    exact (List.mem_zipIdx hy).1

theorem eq_of_position {l : List α} {x y : α × Nat} (hx : x ∈ l.zipIdx) (hy : y ∈ l.zipIdx)
    (h : x.2 = y.2) : x = y := by
  obtain ⟨hxlt, hx⟩ := List.mem_zipIdx' hx
  obtain ⟨hylt, hy⟩ := List.mem_zipIdx' hy
  refine Prod.ext ?_ h
  rw [hx, hy]
  simp only [h]

theorem pairwise_orderedInsert {key : α → β} {x : α × Nat} {t : List (α × Nat)}
    (hsorted : t.Pairwise (Precedes key)) (hpos : ∀ y ∈ t, x.2 < y.2) :
    (t.orderedInsert (fun a b => key a.1 ≤ key b.1) x).Pairwise (Precedes key) := by
  induction t with
  | nil => exact List.pairwise_singleton _ x
  | cons y t ih =>
    rw [List.pairwise_cons] at hsorted
    by_cases hle : key x.1 ≤ key y.1
    · rw [List.orderedInsert_cons_of_le _ t hle, List.pairwise_cons]
      refine ⟨?_, List.pairwise_cons.mpr hsorted⟩
      intro z hz
      have hxz : key x.1 ≤ key z.1 := by
        obtain rfl | hz := List.mem_cons.mp hz
        · exact hle
        · obtain hlt | ⟨heq, -⟩ := hsorted.1 z hz
          · exact hle.trans hlt.le
          · exact hle.trans heq.le
      exact hxz.lt_or_eq.imp_right fun heq => ⟨heq, hpos z hz⟩
    · rw [List.orderedInsert_of_not_le _ t hle, List.pairwise_cons]
      refine ⟨?_, ih hsorted.2 fun z hz => hpos z (List.mem_cons_of_mem y hz)⟩
      intro z hz
      rw [List.mem_orderedInsert] at hz
      obtain rfl | hz := hz
      · exact .inl (not_le.mp hle)
      · exact hsorted.1 z hz

theorem stableSort_pairwise {key : α → β} {t : List (α × Nat)}
    (hpos : t.Pairwise fun x y => x.2 < y.2) :
    (stableSort (fun x => key x.1) t).Pairwise (Precedes key) := by
  induction t with
  | nil => exact .nil
  | cons x t ih =>
    rw [List.pairwise_cons] at hpos
    exact pairwise_orderedInsert (ih hpos.2) fun y hy => hpos.1 y (mem_stableSort.mp hy)

theorem stableSort_map_fst (key : α → β) (t : List (α × Nat)) :
    (stableSort (fun x => key x.1) t).map Prod.fst = stableSort key (t.map Prod.fst) :=
  List.map_insertionSort _ _ Prod.fst t fun _ _ _ _ => Iff.rfl

/-- A stable sort is a list of the elements with their positions, each once, in the order of
key and position. -/
theorem stableSort_indexed (key : α → β) (l : List α) :
    ∃ order : List (α × Nat), order.Perm l.zipIdx ∧ order.Pairwise (Precedes key) ∧
      order.map Prod.fst = stableSort key l := by
  refine ⟨stableSort (fun x => key x.1) l.zipIdx, stableSort_perm _ _,
    stableSort_pairwise (pairwise_zipIdx l 0), ?_⟩
  rw [stableSort_map_fst, List.zipIdx_map_fst]

/-- No other list is. -/
theorem stableSort_unique {key : α → β} {l : List α} {order : List (α × Nat)}
    (hperm : order.Perm l.zipIdx) (hsorted : order.Pairwise (Precedes key)) :
    order.map Prod.fst = stableSort key l := by
  obtain ⟨order', hperm', hsorted', hmap⟩ := stableSort_indexed key l
  have heq : order = order' :=
    (hperm.trans hperm'.symm).eq_of_pairwise
      (fun x y _ _ hxy hyx => absurd hyx hxy.asymm) hsorted hsorted'
  rw [heq, hmap]

theorem pairwise_stableSort_iff {key : α → β} {l : List α} {Q : α → α → Prop} :
    (stableSort key l).Pairwise Q ↔
      ∀ x ∈ l.zipIdx, ∀ y ∈ l.zipIdx, Precedes key x y → Q x.1 y.1 := by
  obtain ⟨order, hperm, hsorted, hmap⟩ := stableSort_indexed key l
  rw [← hmap, List.pairwise_map]
  constructor
  · intro hQ x hx y hy
    refine List.Pairwise.forall_of_forall_of_flip (l := order)
      (R := fun x y => Precedes key x y → Q x.1 y.1) ?_ ?_ ?_ ?_ ?_
    · exact fun x _ hxx => absurd hxx hxx.asymm
    · refine hQ.imp ?_
      intro x y h _
      exact h
    · exact hsorted.imp fun hxy hyx => absurd hyx hxy.asymm
    · exact hperm.mem_iff.mpr hx
    · exact hperm.mem_iff.mpr hy
  · intro h
    exact hsorted.imp_of_mem fun hx hy hxy => h _ (hperm.mem_iff.mp hx) _ (hperm.mem_iff.mp hy) hxy

/-- Sorting each group and putting the groups one after the other, in the order of what they
are grouped by, sorts by the group first. -/
theorem flatMap_stableSort [LinearOrder γ] {group : α → γ} {groups : List γ} {key : α → β}
    {l : List α} (hgroups : groups.Pairwise (· < ·)) (hmem : ∀ a ∈ l, group a ∈ groups) :
    groups.flatMap (fun c => stableSort key (l.filter fun a => group a = c)) =
      stableSort (fun a => toLex (group a, key a)) l := by
  let part (c : γ) : List (α × Nat) := l.zipIdx.filter fun x => group x.1 = c
  let order := groups.flatMap fun c => stableSort (fun x => key x.1) (part c)
  have hgroup {c : γ} {x : α × Nat} (hx : x ∈ stableSort (fun x => key x.1) (part c)) :
      x ∈ l.zipIdx ∧ group x.1 = c := by
    simpa [part] using mem_stableSort.mp hx
  have hsorted : order.Pairwise (Precedes fun a => toLex (group a, key a)) := by
    rw [List.pairwise_flatMap]
    constructor
    · intro c _
      refine (stableSort_pairwise ((pairwise_zipIdx l 0).filter _)).imp_of_mem ?_
      intro x y hx hy hxy
      have heq : group x.1 = group y.1 := (hgroup hx).2.trans (hgroup hy).2.symm
      obtain hlt | ⟨hkey, hpos⟩ := hxy
      · exact .inl (Prod.Lex.toLex_lt_toLex.mpr (.inr ⟨heq, hlt⟩))
      · exact .inr ⟨congrArg toLex (Prod.ext heq hkey), hpos⟩
    · refine hgroups.imp ?_
      intro c d hcd x hx y hy
      refine .inl (Prod.Lex.toLex_lt_toLex.mpr (.inl ?_))
      rw [(hgroup hx).2, (hgroup hy).2]
      exact hcd
  have hperm : order.Perm l.zipIdx := by
    refine (List.perm_ext_iff_of_nodup (hsorted.imp ?_) ((pairwise_zipIdx l 0).imp ?_)).mpr ?_
    · intro x y hxy heq
      obtain rfl := heq
      exact hxy.asymm hxy
    · intro x y hxy heq
      obtain rfl := heq
      exact lt_irrefl _ hxy
    · intro x
      simp only [order, List.mem_flatMap]
      constructor
      · intro hx
        obtain ⟨c, -, hx⟩ := hx
        exact (hgroup hx).1
      · intro hx
        exact ⟨group x.1, hmem x.1 (List.fst_mem_of_mem_zipIdx hx),
          mem_stableSort.mpr (by simpa [part] using hx)⟩
  rw [← stableSort_unique hperm hsorted, List.map_flatMap]
  congr 1
  funext c
  rw [stableSort_map_fst]
  congr 1
  have hfilter := List.filter_map (f := Prod.fst) (p := fun a => decide (group a = c))
    (l := l.zipIdx)
  rw [List.zipIdx_map_fst] at hfilter
  exact hfilter

end Sorting
