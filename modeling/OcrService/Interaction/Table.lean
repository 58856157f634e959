import Mathlib.Data.List.Nodup

/-! A database table as the list of its rows, no two of them under one key. -/
namespace Interaction

structure Table {ρ κ : Type*} (key : ρ → κ) where
  rows : List ρ
  nodup : (rows.map key).Nodup

namespace Table
variable {ρ κ : Type*} {key : ρ → κ} [DecidableEq κ]

def find (t : Table key) (k : κ) : Option ρ := t.rows.find? fun r => key r = k

def count (t : Table key) (p : ρ → Bool) : Nat := t.rows.countP p

def modify (t : Table key) (k : κ) (f : ρ → ρ) (hf : ∀ r, key r = k → key (f r) = k) :
    Table key where
  rows := t.rows.map fun r => if key r = k then f r else r
  nodup := by
    have hkeys : (t.rows.map fun r => if key r = k then f r else r).map key = t.rows.map key := by
      rw [List.map_map]
      refine List.map_congr_left fun r _ => ?_
      by_cases hr : key r = k
      · simp [hr, hf r hr]
      · simp [hr]
    rw [hkeys]
    exact t.nodup

def erase (t : Table key) (k : κ) : Table key where
  rows := t.rows.filter fun r => key r ≠ k
  nodup := (List.filter_sublist.map key).nodup t.nodup

theorem find_eq_none {t : Table key} {k : κ} : t.find k = none ↔ ∀ r ∈ t.rows, key r ≠ k := by
  simp [find]

theorem key_of_find {t : Table key} {k : κ} {r : ρ} (h : t.find k = some r) : key r = k := by
  simpa using List.find?_some h

def insert (t : Table key) (r : ρ) (h : t.find (key r) = none) : Table key where
  rows := t.rows ++ [r]
  nodup := by
    have hfresh := find_eq_none.mp h
    rw [List.map_append, List.nodup_append]
    refine ⟨t.nodup, by simp, fun a ha b hb => ?_⟩
    obtain ⟨x, hx, rfl⟩ := List.mem_map.mp ha
    have hb' : b = key r := by simpa using hb
    exact hb' ▸ hfresh x hx

/-- `INSERT ... ON CONFLICT (key) DO UPDATE`: `f` is applied to the row in the way. -/
def upsert (t : Table key) (r : ρ) (f : ρ → ρ) (hf : ∀ x, key x = key r → key (f x) = key r) :
    Table key :=
  if h : t.find (key r) = none then t.insert r h else t.modify (key r) f hf

theorem find_split {t : Table key} {k : κ} {r : ρ} (h : t.find k = some r) :
    ∃ before after, t.rows = before ++ r :: after ∧
      (∀ x ∈ before, key x ≠ k) ∧ ∀ x ∈ after, key x ≠ k := by
  obtain ⟨hr, before, after, hrows, hbefore⟩ := List.find?_eq_some_iff_append.mp h
  have hkey : key r = k := by simpa using hr
  have hnodup := t.nodup
  rw [hrows, List.map_append, List.map_cons, List.nodup_append] at hnodup
  have hafter := (List.nodup_cons.mp hnodup.2.1).1
  refine ⟨before, after, hrows, fun x hx => by simpa using hbefore x hx, fun x hx he => ?_⟩
  exact hafter (List.mem_map.mpr ⟨x, hx, he.trans hkey.symm⟩)

theorem modify_of_none {t : Table key} {k : κ} (h : t.find k = none) (f : ρ → ρ)
    (hf : ∀ r, key r = k → key (f r) = k) : t.modify k f hf = t := by
  have hrows := find_eq_none.mp h
  cases t with
  | mk rows nodup =>
    simp only [modify, mk.injEq]
    refine (List.map_congr_left fun r hr => ?_).trans (List.map_id _)
    simp [hrows r hr]

theorem erase_of_none {t : Table key} {k : κ} (h : t.find k = none) : t.erase k = t := by
  have hrows := find_eq_none.mp h
  cases t with
  | mk rows nodup =>
    simp only [erase, mk.injEq, List.filter_eq_self, decide_eq_true_eq]
    exact hrows

omit [DecidableEq κ] in
theorem count_of_rows {t : Table key} {before after : List ρ} {r : ρ}
    (h : t.rows = before ++ r :: after) (p : ρ → Bool) :
    t.count p = before.countP p + after.countP p + (p r).toNat := by
  rw [count, h, List.countP_append, List.countP_cons]
  cases p r <;> simp [Nat.add_assoc]

theorem modify_rows {t : Table key} {k : κ} {r : ρ} {before after : List ρ}
    (h : t.rows = before ++ r :: after) (hr : key r = k) (hb : ∀ x ∈ before, key x ≠ k)
    (ha : ∀ x ∈ after, key x ≠ k) (f : ρ → ρ) (hf : ∀ r, key r = k → key (f r) = k) :
    (t.modify k f hf).rows = before ++ f r :: after := by
  have hsame : ∀ l : List ρ, (∀ x ∈ l, key x ≠ k) →
      (l.map fun r => if key r = k then f r else r) = l := by
    intro l hl
    refine (List.map_congr_left fun x hx => ?_).trans (List.map_id _)
    simp [hl x hx]
  simp only [modify, h, List.map_append, List.map_cons, hsame before hb, hsame after ha, hr,
    if_true]

theorem erase_rows {t : Table key} {k : κ} {r : ρ} {before after : List ρ}
    (h : t.rows = before ++ r :: after) (hr : key r = k) (hb : ∀ x ∈ before, key x ≠ k)
    (ha : ∀ x ∈ after, key x ≠ k) : (t.erase k).rows = before ++ after := by
  have hsame : ∀ l : List ρ, (∀ x ∈ l, key x ≠ k) → (l.filter fun r => key r ≠ k) = l := by
    intro l hl
    simpa using hl
  simp only [erase, h, List.filter_append, hsame before hb]
  simpa [hr] using ha

theorem count_modify {t : Table key} {k : κ} {r : ρ} (h : t.find k = some r) (f : ρ → ρ)
    (hf : ∀ r, key r = k → key (f r) = k) (p : ρ → Bool) :
    (t.modify k f hf).count p + (p r).toNat = t.count p + (p (f r)).toNat := by
  obtain ⟨before, after, hrows, hb, ha⟩ := find_split h
  have hnew := modify_rows hrows (key_of_find h) hb ha f hf
  rw [count_of_rows hrows, count_of_rows hnew]
  omega

theorem count_erase {t : Table key} {k : κ} {r : ρ} (h : t.find k = some r) (p : ρ → Bool) :
    (t.erase k).count p + (p r).toNat = t.count p := by
  obtain ⟨before, after, hrows, hb, ha⟩ := find_split h
  rw [count_of_rows hrows, count, erase_rows hrows (key_of_find h) hb ha, List.countP_append]

theorem count_insert {t : Table key} {r : ρ} (h : t.find (key r) = none) (p : ρ → Bool) :
    (t.insert r h).count p = t.count p + (p r).toNat := by
  simp only [count, insert, List.countP_append, List.countP_singleton]
  cases p r <;> rfl

theorem find_modify_self (t : Table key) (k : κ) (f : ρ → ρ)
    (hf : ∀ r, key r = k → key (f r) = k) : (t.modify k f hf).find k = (t.find k).map f := by
  cases h : t.find k with
  | none => rw [modify_of_none h, h, Option.map_none]
  | some r =>
    obtain ⟨before, after, hrows, hb, ha⟩ := find_split h
    rw [find, modify_rows hrows (key_of_find h) hb ha f hf]
    have hnone : before.find? (fun r => key r = k) = none := by simpa using hb
    simp [hnone, hf r (key_of_find h)]

theorem find_modify_ne (t : Table key) {k k' : κ} (h : k' ≠ k) (f : ρ → ρ)
    (hf : ∀ r, key r = k → key (f r) = k) : (t.modify k f hf).find k' = t.find k' := by
  rw [find, find, modify, List.find?_map]
  have hsame : (fun r => decide (key r = k')) ∘ (fun r => if key r = k then f r else r) =
      fun r => decide (key r = k') := by
    funext r
    by_cases hr : key r = k
    · simp [hr, hf r hr]
    · simp [hr]
  rw [hsame]
  cases hfound : t.rows.find? fun r => decide (key r = k') with
  | none => rfl
  | some r =>
    have hr : key r = k' := by simpa using List.find?_some hfound
    simp [hr, h]

theorem find_erase_self (t : Table key) (k : κ) : (t.erase k).find k = none := by
  simp [find, erase]

theorem find_erase_ne (t : Table key) {k k' : κ} (h : k' ≠ k) :
    (t.erase k).find k' = t.find k' := by
  rw [find, find, erase, List.find?_filter]
  congr 1
  funext r
  by_cases hr : key r = k'
  · simp [hr, h]
  · simp [hr]

theorem find_insert_self {t : Table key} {r : ρ} (h : t.find (key r) = none) :
    (t.insert r h).find (key r) = some r := by
  have hnone : t.rows.find? (fun x => key x = key r) = none := h
  simp [find, insert, hnone]

theorem find_insert_ne {t : Table key} {r : ρ} (h : t.find (key r) = none) {k : κ}
    (hne : k ≠ key r) : (t.insert r h).find k = t.find k := by
  simp [find, insert, Ne.symm hne]

end Table

/-- A statement is carried out and answered, or fails without effect, or takes effect
and its answer is lost. -/
inductive Fate where
  | done
  | failed (message : String)
  | unanswered (message : String)
  deriving DecidableEq

namespace Fate
variable {α σ : Type*}

def applied : Fate → Bool
  | failed _ => false
  | done | unanswered _ => true

def settle (fate : Fate) (failure : String → α) (s : σ) (r : α × σ) : α × σ :=
  match fate with
  | done => r
  | failed message => (failure message, s)
  | unanswered message => (failure message, r.2)

theorem settle_state (fate : Fate) (failure : String → α) (s : σ) (r : α × σ) :
    (fate.settle failure s r).2 = if fate.applied then r.2 else s := by
  cases fate <;> rfl

end Fate
end Interaction
