import Mathlib.Algebra.BigOperators.Group.List.Basic
import Mathlib.Algebra.GroupWithZero.Nat
import Mathlib.Algebra.Order.BigOperators.Group.List
import Mathlib.Algebra.Order.Group.Nat
import Mathlib.Data.List.Nodup

/-! Counts kept by key, in the order the keys first came up. -/
namespace Counting
variable {κ γ α : Type*}

theorem sum_one_group [DecidableEq γ] {groups : List γ} (hnodup : groups.Nodup) {x : γ}
    (hx : x ∈ groups) (n : Nat) : (groups.map fun g => if x = g then n else 0).sum = n := by
  induction groups with
  | nil => cases hx
  | cons g groups ih =>
    rw [List.map_cons, List.sum_cons]
    obtain ⟨hg, hrest⟩ := List.nodup_cons.mp hnodup
    by_cases hxg : x = g
    · have hzero : ∀ g' ∈ groups, (if x = g' then n else 0) = 0 := by
        intro g' hg'
        refine if_neg fun h => hg ?_
        rw [← hxg, h]
        exact hg'
      rw [if_pos hxg, List.map_congr_left hzero]
      simp
    · have hmem : x ∈ groups := (List.mem_cons.mp hx).resolve_left hxg
      rw [if_neg hxg, ih hrest hmem, Nat.zero_add]

theorem sum_groups [DecidableEq γ] {groups : List γ} (hnodup : groups.Nodup) (f : α → γ)
    (weight : α → Nat) (l : List α) (hl : ∀ a ∈ l, weight a ≠ 0 → f a ∈ groups) :
    (groups.map fun g => (l.map fun a => if f a = g then weight a else 0).sum).sum =
      (l.map weight).sum := by
  induction l with
  | nil => simp
  | cons a l ih =>
    have hrest := ih fun b hb => hl b (by simp [hb])
    have hone : (groups.map fun g => if f a = g then weight a else 0).sum = weight a := by
      by_cases hw : weight a = 0
      · simp [hw]
      · exact sum_one_group hnodup (hl a (by simp) hw) _
    simp only [List.map_cons, List.sum_cons, List.sum_map_add]
    rw [hrest, hone]

theorem nodup_eraseDups [DecidableEq α] (l : List α) : l.eraseDups.Nodup := by
  match l with
  | [] => exact .nil
  | a :: l =>
    rw [List.eraseDups_cons, List.nodup_cons]
    refine ⟨by simp, nodup_eraseDups _⟩
termination_by l.length
decreasing_by exact Nat.lt_succ_of_le (List.length_filter_le _ _)

def addTo [DecidableEq κ] (k : κ) (n : Nat) : List (κ × Nat) → List (κ × Nat)
  | [] => [(k, n)]
  | (k', m) :: rest => if k' = k then (k', m + n) :: rest else (k', m) :: addTo k n rest

section
variable [DecidableEq κ] {k x : κ} {n : Nat}

theorem mem_addTo_keys (l : List (κ × Nat)) :
    x ∈ (addTo k n l).map Prod.fst ↔ x = k ∨ x ∈ l.map Prod.fst := by
  induction l with
  | nil => simp [addTo]
  | cons e l ih =>
    obtain ⟨k', m⟩ := e
    by_cases hk : k' = k
    · subst hk
      simp [addTo]
    · rw [addTo, if_neg hk, List.map_cons, List.mem_cons, ih, List.map_cons, List.mem_cons]
      exact or_left_comm

theorem nodup_addTo {l : List (κ × Nat)} (hl : (l.map Prod.fst).Nodup) :
    ((addTo k n l).map Prod.fst).Nodup := by
  induction l with
  | nil => simp [addTo]
  | cons e l ih =>
    obtain ⟨k', m⟩ := e
    by_cases hk : k' = k
    · rw [addTo, if_pos hk]
      exact hl
    · obtain ⟨hfresh, hrest⟩ := List.nodup_cons.mp hl
      rw [addTo, if_neg hk, List.map_cons, List.nodup_cons, mem_addTo_keys]
      refine ⟨?_, ih hrest⟩
      rintro (h | h)
      · exact hk h
      · exact hfresh h

end

structure Tally (κ : Type*) where
  entries : List (κ × Nat)
  nodup : (entries.map Prod.fst).Nodup

namespace Tally

def empty : Tally κ := ⟨[], .nil⟩

def inc [DecidableEq κ] (t : Tally κ) (k : κ) (n : Nat) : Tally κ :=
  ⟨addTo k n t.entries, nodup_addTo t.nodup⟩

def keys (t : Tally κ) : List κ := t.entries.map Prod.fst

def total (t : Tally κ) (p : κ → Bool) : Nat :=
  (t.entries.map fun e => if p e.1 then e.2 else 0).sum

def amount (l : List (κ × Nat)) (p : κ → Bool) : Nat :=
  (l.map fun e => if p e.1 then e.2 else 0).sum

@[simp] theorem total_empty (p : κ → Bool) : (empty : Tally κ).total p = 0 := rfl

@[simp] theorem mem_keys_empty {x : κ} : x ∉ (empty : Tally κ).keys := by simp [keys, empty]

theorem mem_keys_inc [DecidableEq κ] (t : Tally κ) {k x : κ} {n : Nat} :
    x ∈ (t.inc k n).keys ↔ x = k ∨ x ∈ t.keys :=
  mem_addTo_keys t.entries

theorem total_inc [DecidableEq κ] (t : Tally κ) (k : κ) (n : Nat) (p : κ → Bool) :
    (t.inc k n).total p = t.total p + if p k then n else 0 := by
  have hsum : ∀ l : List (κ × Nat), amount (addTo k n l) p =
      amount l p + if p k then n else 0 := by
    intro l
    induction l with
    | nil => simp [addTo, amount]
    | cons e l ih =>
      obtain ⟨k', m⟩ := e
      by_cases hk : k' = k
      · subst hk
        by_cases hp : p k' = true
        · simp [addTo, amount, hp, Nat.add_right_comm]
        · simp [addTo, amount, hp]
      · simp only [amount] at ih
        simp only [addTo, hk, if_false, amount, List.map_cons, List.sum_cons, ih, Nat.add_assoc]
  exact hsum t.entries

theorem total_mono (t : Tally κ) {p q : κ → Bool} (h : ∀ k, p k = true → q k = true) :
    t.total p ≤ t.total q := by
  refine List.sum_le_sum fun e _ => ?_
  by_cases hp : p e.1 = true
  · rw [if_pos hp, if_pos (h _ hp)]
  · rw [if_neg hp]
    exact Nat.zero_le _

/-- Group by group the counts add up to the whole, if every counted key has its group. -/
theorem total_groups [DecidableEq γ] (t : Tally κ) (p : κ → Bool) (f : κ → γ) {groups : List γ}
    (hnodup : groups.Nodup) (hall : ∀ k ∈ t.keys, f k ∈ groups) :
    (groups.map fun g => t.total fun k => p k && decide (f k = g)).sum = t.total p := by
  have hsplit : ∀ g, (t.total fun k => p k && decide (f k = g)) =
      (t.entries.map fun e => if f e.1 = g then (if p e.1 then e.2 else 0) else 0).sum := by
    intro g
    refine congrArg List.sum (List.map_congr_left fun e _ => ?_)
    by_cases hp : p e.1 = true <;> by_cases hg : f e.1 = g <;> simp [hp, hg]
  simp only [hsplit]
  refine sum_groups hnodup (fun e => f e.1) _ t.entries fun e he _ => hall _ ?_
  exact List.mem_map_of_mem he

end Tally
end Counting
