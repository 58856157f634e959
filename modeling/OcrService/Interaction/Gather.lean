import Mathlib.Data.List.Basic

/-! A list of tasks of which at most `limit` are in flight. They settle in any order, and what
they yield is gathered by their places in the list: the first failure is the result, or else
all the values once the last one is there. -/
namespace Interaction

inductive GatherMove where
  /-- The next task of the list is started. -/
  | start
  /-- Task `i` settles. -/
  | settle (i : Nat)

structure Gather (ε β : Type*) where
  started : Nat := 0
  active : List Nat := []
  values : List (Option β)
  result : Option (Except ε (List β))

namespace Gather
variable {ε β : Type*}

def gathered (values : List (Option β)) : Option (List β) :=
  if values.all Option.isSome then some (values.filterMap id) else none

def init (tasks : List (Except ε β)) : Gather ε β where
  values := tasks.map fun _ => none
  result := if tasks.isEmpty then some (.ok []) else none

def settled (g : Gather ε β) (i : Nat) : Except ε β → Gather ε β
  | .error e =>
    { g with
      active := g.active.erase i
      result := g.result.or (some (.error e)) }
  | .ok v =>
    { g with
      active := g.active.erase i
      values := g.values.set i (some v)
      result := g.result.or ((gathered (g.values.set i (some v))).map .ok) }

section Run
variable (limit : Nat) (tasks : List (Except ε β))

def next (g : Gather ε β) : GatherMove → Option (Gather ε β)
  | .start =>
    if g.started < tasks.length ∧ g.active.length < limit then
      some { g with started := g.started + 1, active := g.active ++ [g.started] }
    else none
  | .settle i =>
    if i ∈ g.active then (tasks[i]?).map (g.settled i) else none

def run (moves : List GatherMove) : Option (Gather ε β) :=
  moves.foldlM (next limit tasks) (init tasks)

end Run

section Invariant
variable {limit : Nat} {tasks : List (Except ε β)}

theorem gathered_eq_some {values : List (Option β)} {vs : List β} :
    gathered values = some vs ↔ values = vs.map some := by
  rw [gathered]
  constructor
  · intro h
    split at h
    · rename_i hall
      cases h
      induction values with
      | nil => rfl
      | cons value values ih =>
        rw [List.all_cons, Bool.and_eq_true] at hall
        obtain ⟨v, rfl⟩ := Option.isSome_iff_exists.mp hall.1
        have hcons : (some v :: values).filterMap id = v :: values.filterMap id := rfl
        rw [hcons, List.map_cons, ← ih hall.2]
    · cases h
  · intro h
    subst h
    rw [if_pos (by simp), List.filterMap_map]
    simp

structure Inv (limit : Nat) (tasks : List (Except ε β)) (g : Gather ε β) : Prop where
  bound : g.active.length ≤ limit
  places : g.values.length = tasks.length
  value : ∀ (i : Nat) (v : β), g.values[i]? = some (some v) → tasks[i]? = some (Except.ok v)
  result : ∀ vs : List β, g.result = some (.ok vs) → tasks = vs.map Except.ok
  failure : ∀ e : ε, g.result = some (.error e) → ∃ i : Nat, tasks[i]? = some (Except.error e)
  /-- A task that was started and is no longer in flight has left its mark. -/
  marked : ∀ i < g.started, i ∈ g.active ∨ (∃ v, g.values[i]? = some (some v)) ∨
    ∃ e, tasks[i]? = some (Except.error e)
  full : ∀ vs : List β, g.values = vs.map some → g.result ≠ none

theorem inv_init : Inv limit tasks (init tasks) where
  bound := Nat.zero_le _
  places := List.length_map _
  value := by
    intro i v h
    rw [init, List.getElem?_map, Option.map_eq_some_iff] at h
    obtain ⟨_, _, h⟩ := h
    cases h
  result := by
    intro vs h
    cases tasks with
    | nil =>
      cases h
      rfl
    | cons task tasks => cases h
  failure := by
    intro e h
    cases tasks <;> cases h
  marked := fun i h => absurd h (Nat.not_lt_zero i)
  full := by
    intro vs h
    cases tasks with
    | nil => exact Option.some_ne_none _
    | cons task tasks => cases vs <;> cases h

theorem Inv.start {g : Gather ε β} (h : Inv limit tasks g) (hroom : g.active.length < limit) :
    Inv limit tasks { g with started := g.started + 1, active := g.active ++ [g.started] } where
  bound := by
    rw [List.length_append]
    exact hroom
  places := h.places
  value := h.value
  result := h.result
  failure := h.failure
  marked := by
    intro i hi
    rw [List.mem_append, List.mem_singleton]
    by_cases hnew : i = g.started
    · exact Or.inl (Or.inr hnew)
    · obtain hactive | hmark := h.marked i (by simp only at hi; omega)
      · exact Or.inl (Or.inl hactive)
      · exact Or.inr hmark
  full := h.full

theorem Inv.failed {g : Gather ε β} (h : Inv limit tasks g) {i : Nat} {e : ε}
    (htask : tasks[i]? = some (.error e)) : Inv limit tasks (g.settled i (.error e)) where
  bound := Nat.le_trans (List.Sublist.length_le List.erase_sublist) h.bound
  places := h.places
  value := h.value
  result := by
    intro vs hvs
    simp only [settled, Option.or_eq_some_iff] at hvs
    obtain hvs | ⟨-, hvs⟩ := hvs
    · exact h.result vs hvs
    · cases hvs
  failure := by
    intro e' he'
    simp only [settled, Option.or_eq_some_iff] at he'
    obtain he' | ⟨-, he'⟩ := he'
    · exact h.failure e' he'
    · cases he'
      exact ⟨i, htask⟩
  marked := by
    intro j hj
    by_cases hij : j = i
    · exact Or.inr (Or.inr ⟨e, hij ▸ htask⟩)
    · obtain hactive | hmark := h.marked j hj
      · exact Or.inl ((List.mem_erase_of_ne hij).mpr hactive)
      · exact Or.inr hmark
  full := by
    intro vs _ hnone
    simp only [settled, Option.or_eq_none_iff] at hnone
    exact Option.some_ne_none _ hnone.2

theorem Inv.value_set {g : Gather ε β} (h : Inv limit tasks g) {i : Nat} {v : β}
    (htask : tasks[i]? = some (.ok v)) (j : Nat) (w : β)
    (hw : (g.values.set i (some v))[j]? = some (some w)) : tasks[j]? = some (.ok w) := by
  by_cases hij : i = j
  · subst hij
    have hlt : i < g.values.length := by
      rw [h.places]
      exact (List.getElem?_eq_some_iff.mp htask).1
    rw [List.getElem?_set_self hlt] at hw
    cases hw
    exact htask
  · rw [List.getElem?_set_ne hij] at hw
    exact h.value j w hw

theorem eq_of_values {values : List (Option β)} {vs : List β}
    (hplaces : values.length = tasks.length)
    (hvalue : ∀ (i : Nat) (v : β), values[i]? = some (some v) → tasks[i]? = some (.ok v))
    (hvs : values = vs.map some) : tasks = vs.map Except.ok := by
  subst hvs
  refine List.ext_getElem? fun i => ?_
  by_cases hi : i < vs.length
  · have hget : (vs.map some)[i]? = some (some vs[i]) := by simp [hi]
    rw [hvalue i vs[i] hget, List.getElem?_map, List.getElem?_eq_getElem hi]
    rfl
  · rw [List.length_map] at hplaces
    rw [List.getElem?_eq_none (by omega), List.getElem?_eq_none (by simp; omega)]

theorem Inv.fulfilled {g : Gather ε β} (h : Inv limit tasks g) {i : Nat} {v : β}
    (htask : tasks[i]? = some (.ok v)) : Inv limit tasks (g.settled i (.ok v)) where
  bound := Nat.le_trans (List.Sublist.length_le List.erase_sublist) h.bound
  places := (List.length_set ..).trans h.places
  value := h.value_set htask
  result := by
    intro vs hvs
    simp only [settled, Option.or_eq_some_iff] at hvs
    obtain hvs | ⟨-, hvs⟩ := hvs
    · exact h.result vs hvs
    · obtain ⟨ws, hws, heq⟩ := Option.map_eq_some_iff.mp hvs
      cases heq
      exact eq_of_values ((List.length_set ..).trans h.places) (h.value_set htask)
        (gathered_eq_some.mp hws)
  failure := by
    intro e he
    simp only [settled, Option.or_eq_some_iff] at he
    obtain he | ⟨-, he⟩ := he
    · exact h.failure e he
    · obtain ⟨ws, -, heq⟩ := Option.map_eq_some_iff.mp he
      cases heq
  marked := by
    intro j hj
    by_cases hij : j = i
    · have hlt : j < g.values.length := by
        rw [h.places, hij]
        exact (List.getElem?_eq_some_iff.mp htask).1
      exact Or.inr (Or.inl ⟨v, by simp only [settled]; rw [← hij, List.getElem?_set_self hlt]⟩)
    · obtain hactive | ⟨w, hw⟩ | hfailed := h.marked j hj
      · exact Or.inl ((List.mem_erase_of_ne hij).mpr hactive)
      · refine Or.inr (Or.inl ⟨w, ?_⟩)
        simp only [settled]
        rw [List.getElem?_set_ne (Ne.symm hij)]
        exact hw
      · exact Or.inr (Or.inr hfailed)
  full := by
    intro vs hvs hnone
    simp only [settled, Option.or_eq_none_iff] at hvs hnone
    rw [gathered_eq_some.mpr hvs] at hnone
    exact Option.some_ne_none _ hnone.2

theorem inv_next {g g' : Gather ε β} {move : GatherMove} (h : Inv limit tasks g)
    (hn : next limit tasks g move = some g') : Inv limit tasks g' := by
  cases move with
  | start =>
    rw [next] at hn
    split at hn
    · rename_i hroom
      cases hn
      exact h.start hroom.2
    · cases hn
  | settle i =>
    rw [next] at hn
    split at hn
    · obtain ⟨outcome, htask, rfl⟩ := Option.map_eq_some_iff.mp hn
      cases outcome with
      | error e => exact h.failed htask
      | ok v => exact h.fulfilled htask
    · cases hn

theorem inv_run {moves : List GatherMove} {g : Gather ε β} (hrun : run limit tasks moves = some g) :
    Inv limit tasks g := by
  have hfold : ∀ (moves : List GatherMove) (g₀ : Gather ε β), Inv limit tasks g₀ →
      moves.foldlM (next limit tasks) g₀ = some g → Inv limit tasks g := by
    intro moves
    induction moves with
    | nil =>
      intro g₀ h₀ h
      cases h
      exact h₀
    | cons move moves ih =>
      intro g₀ h₀ h
      obtain ⟨g₁, hn, hrest⟩ := Option.bind_eq_some_iff.mp h
      exact ih g₁ (inv_next h₀ hn) hrest
  exact hfold moves _ inv_init hrun

/-- In whatever order the tasks settle, the values are those of the tasks, place by place. -/
theorem run_result {moves : List GatherMove} {g : Gather ε β} {vs : List β}
    (hrun : run limit tasks moves = some g) (hresult : g.result = some (.ok vs)) :
    tasks = vs.map Except.ok :=
  (inv_run hrun).result vs hresult

theorem run_settled {moves : List GatherMove} {g : Gather ε β} {vs : List β}
    (hrun : run limit (vs.map Except.ok) moves = some g) (hstarted : g.started = vs.length)
    (hactive : g.active = []) : g.result = some (.ok vs) := by
  have h := inv_run hrun
  have hvalues : g.values = vs.map some := by
    refine List.ext_getElem? fun i => ?_
    by_cases hi : i < vs.length
    · have htask : (vs.map Except.ok)[i]? = some (.ok vs[i] : Except ε β) := by simp [hi]
      obtain hin | ⟨v, hv⟩ | ⟨e, he⟩ := h.marked i (hstarted ▸ hi)
      · rw [hactive] at hin
        cases hin
      · have hsame := h.value i v hv
        rw [htask] at hsame
        cases hsame
        rw [hv, List.getElem?_map, List.getElem?_eq_getElem hi]
        rfl
      · rw [htask] at he
        cases he
    · have hplaces := h.places
      rw [List.length_map] at hplaces
      rw [List.getElem?_eq_none (by omega), List.getElem?_eq_none (by simp; omega)]
  cases hresult : g.result with
  | none => exact absurd hresult (h.full vs hvalues)
  | some result =>
    cases result with
    | error e =>
      obtain ⟨i, hi⟩ := h.failure e hresult
      rw [List.getElem?_map, Option.map_eq_some_iff] at hi
      obtain ⟨v, -, hv⟩ := hi
      cases hv
    | ok ws =>
      have hsame := h.result ws hresult
      have hinj : Function.Injective (Except.ok : β → Except ε β) := fun _ _ h => Except.ok.inj h
      rw [hinj.list_map hsame]

end Invariant
end Gather
end Interaction
