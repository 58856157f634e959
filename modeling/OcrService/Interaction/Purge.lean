import OcrService.Interaction.Pool
import Mathlib.Data.List.Forall2

/-! Deleting requests from a run: when the others cannot tell the difference. -/
namespace Interaction

universe u v w

namespace Prog
variable {Op : Type u} {Res : Op → Type v} {α β α' β' : Type w}

/-- Operation by operation: as long as they get the same answers the programs perform
operations that `E` relates, and they end in results that `Q` relates. -/
def Sim (E : Op → Op → Prop) (Q : α → α' → Prop) : Prog Op Res α → Prog Op Res α' → Prop
  | ret a, ret a' => Q a a'
  | ask o k, ask o' k' => E o o' ∧ ∀ x x', HEq x x' → (k x).Sim E Q (k' x')
  | ret _, ask _ _ => False
  | ask _ _, ret _ => False

variable {E : Op → Op → Prop}

theorem Sim.refl {Q : α → α → Prop} (hE : ∀ o, E o o) (hQ : ∀ a, Q a a) (p : Prog Op Res α) :
    p.Sim E Q p := by
  induction p with
  | ret a => exact hQ a
  | ask o k ih =>
    refine ⟨hE o, fun x x' hx => ?_⟩
    cases hx
    exact ih x

theorem Sim.bind {P : α → α' → Prop} {Q : β → β' → Prop} {p : Prog Op Res α}
    {p' : Prog Op Res α'} {f : α → Prog Op Res β} {f' : α' → Prog Op Res β'}
    (hp : p.Sim E P p') (hf : ∀ a a', P a a' → (f a).Sim E Q (f' a')) :
    (p >>= f).Sim E Q (p' >>= f') := by
  induction p generalizing p' with
  | ret a =>
    cases p' with
    | ret a' => exact hf a a' hp
    | ask o' k' => exact hp.elim
  | ask o k ih =>
    cases p' with
    | ret a' => exact hp.elim
    | ask o' k' => exact ⟨hp.1, fun x x' hx => ih x (hp.2 x x' hx)⟩

theorem Sim.result {Q : α → α' → Prop} {p : Prog Op Res α} {p' : Prog Op Res α'}
    (h : p.Sim E Q p') : Option.Rel Q p.result? p'.result? := by
  cases p with
  | ret a =>
    cases p' with
    | ret a' => exact .some h
    | ask o' k' => exact h.elim
  | ask o k =>
    cases p' with
    | ret a' => exact h.elim
    | ask o' k' => exact .none

def answered (f : (o : Op) → Res o) (p : Prog Op Res α) : α :=
  (p.eval (fun o (_ : Unit) => (f o, ())) ()).1

@[simp] theorem answered_ret (f : (o : Op) → Res o) (a : α) :
    (ret a : Prog Op Res α).answered f = a := rfl

@[simp] theorem answered_ask (f : (o : Op) → Res o) (o : Op) (k : Res o → Prog Op Res α) :
    (ask o k).answered f = (k (f o)).answered f := rfl

end Prog

namespace Machine
variable {Req C E S : Type*} {Op : Type u} {Res : Op → Type v} {Out : Type w}
variable (m : Machine Req Op Res Out C E S) (keep : Req → Bool) (alter : Nat → Req → Req)

/-- What is left of a move when the requests not kept are deleted: the steps of the others,
whose threads move up. A request that is kept may be altered. -/
def purgeMove (c : Conf Req Op Res Out S) : Move Req C E → Option (Move Req C E)
  | .spawn r => if keep r then some (.spawn (alter c.threads.length r)) else none
  | .step i ch =>
    if (c.threads[i]?).any fun t => keep t.req then
      some (.step ((c.threads.take i).countP fun t => keep t.req) ch)
    else none
  | .env e => some (.env e)

def purge : Conf Req Op Res Out S → List (Move Req C E) → List (Move Req C E)
  | _, [] => []
  | c, mv :: ms =>
    (purgeMove keep alter c mv).toList ++
      match m.next c mv with
      | none => []
      | some c' => purge c' ms

variable {m keep alter}

/-- Kept requests go on alike in worlds that `R` relates, and the operations in `H` of the
others do not leave the relation. -/
structure Unwinding (m : Machine Req Op Res Out C E S) (keep : Req → Bool)
    (alter : Nat → Req → Req) (T : Op → Op → Prop) (Q : Out → Out → Prop) (R : S → S → Prop)
    (H : Op → Prop) : Prop where
  kept : ∀ n r, keep r = true → (m.start r).Sim T Q (m.start (alter n r))
  dropped : ∀ r, keep r = false → (m.start r).Uses H
  step_kept : ∀ ch o o' s t, T o o' → R s t →
    HEq (m.handle ch o s).1 (m.handle ch o' t).1 ∧ R (m.handle ch o s).2 (m.handle ch o' t).2
  step_dropped : ∀ ch o s t, H o → R s t → R (m.handle ch o s).2 t
  env : ∀ e s t, R s t → R (m.env e s) (m.env e t)

structure Shadow (keep : Req → Bool) (alter : Nat → Req → Req) (T : Op → Op → Prop)
    (Q : Out → Out → Prop) (R : S → S → Prop) (H : Op → Prop) (c d : Conf Req Op Res Out S) :
    Prop where
  world : R c.world d.world
  threads : List.Forall₂ (fun a b => (∃ n, b.req = alter n a.req) ∧ a.prog.Sim T Q b.prog)
    (c.threads.filter fun t => keep t.req) d.threads
  dropped : ∀ t ∈ c.threads, keep t.req = false → t.prog.Uses H

theorem forall₂_split {α β : Type*} {P : α → β → Prop} {xs ys : List α} {x : α} {zs : List β}
    (h : List.Forall₂ P (xs ++ x :: ys) zs) :
    ∃ us y vs, zs = us ++ y :: vs ∧ List.Forall₂ P xs us ∧ P x y ∧ List.Forall₂ P ys vs := by
  induction xs generalizing zs with
  | nil =>
    obtain ⟨y, vs, hy, hvs, rfl⟩ := List.forall₂_cons_left_iff.mp h
    exact ⟨[], y, vs, rfl, .nil, hy, hvs⟩
  | cons x' xs ih =>
    obtain ⟨y', zs', hy', hzs', rfl⟩ := List.forall₂_cons_left_iff.mp h
    obtain ⟨us, y, vs, rfl, hus, hy, hvs⟩ := ih hzs'
    exact ⟨y' :: us, y, vs, rfl, .cons hy' hus, hy, hvs⟩

section
variable {T : Op → Op → Prop} {Q : Out → Out → Prop} {R : S → S → Prop} {H : Op → Prop}
variable {c d c' : Conf Req Op Res Out S}

theorem Unwinding.spawn (U : Unwinding m keep alter T Q R H) (h : Shadow keep alter T Q R H c d)
    (r : Req) (hn : m.next c (.spawn r) = some c') :
    ∃ d', m.run d (purgeMove keep alter c (.spawn r : Move Req C E)).toList = some d' ∧
      Shadow keep alter T Q R H c' d' := by
  cases hn
  cases hk : keep r with
  | true =>
    refine ⟨{ d with threads := d.threads ++
      [{ req := alter c.threads.length r, prog := m.start (alter c.threads.length r) }] },
      by simp [purgeMove, hk, run, next], h.world, ?_, fun t ht hd => ?_⟩
    · have hone : List.Forall₂ (fun a b : Thread Req Op Res Out =>
          (∃ n, b.req = alter n a.req) ∧ a.prog.Sim T Q b.prog)
          [{ req := r, prog := m.start r }]
          [{ req := alter c.threads.length r, prog := m.start (alter c.threads.length r) }] :=
        .cons ⟨⟨c.threads.length, rfl⟩, U.kept c.threads.length r hk⟩ .nil
      simpa [List.filter_append, hk] using List.rel_append h.threads hone
    · obtain ht | ht := List.mem_append.mp ht
      · exact h.dropped t ht hd
      · obtain rfl : t = _ := List.mem_singleton.mp ht
        rw [hk] at hd
        cases hd
  | false =>
    refine ⟨d, by simp [purgeMove, hk], h.world, ?_, fun t ht hd => ?_⟩
    · simpa [List.filter_append, hk] using h.threads
    · obtain ht | ht := List.mem_append.mp ht
      · exact h.dropped t ht hd
      · obtain rfl : t = _ := List.mem_singleton.mp ht
        exact U.dropped r hk

theorem Unwinding.step (U : Unwinding m keep alter T Q R H) (h : Shadow keep alter T Q R H c d)
    (i : Nat) (ch : C) (hn : m.next c (.step i ch) = some c') :
    ∃ d', m.run d (purgeMove keep alter c (.step i ch : Move Req C E)).toList = some d' ∧
      Shadow keep alter T Q R H c' d' := by
  obtain ⟨r, o, k, log, hget, rfl⟩ := m.next_step hn
  obtain ⟨hlt, hi⟩ := List.getElem?_eq_some_iff.mp hget
  have hsplit : c.threads = c.threads.take i ++ ⟨r, .ask o k, log⟩ :: c.threads.drop (i + 1) := by
    rw [← hi, ← List.drop_eq_getElem_cons hlt, List.take_append_drop]
  have hset : c.threads.set i ⟨r, k (m.handle ch o c.world).1, log ++ [o]⟩ =
      c.threads.take i ++
        ⟨r, k (m.handle ch o c.world).1, log ++ [o]⟩ :: c.threads.drop (i + 1) := by
    rw [List.set_eq_take_append_cons_drop, if_pos hlt]
  have hdropped : ∀ t ∈ c.threads.set i ⟨r, k (m.handle ch o c.world).1, log ++ [o]⟩,
      keep t.req = false → t.prog.Uses H := by
    intro t ht hd
    obtain ht | rfl := List.mem_or_eq_of_mem_set ht
    · exact h.dropped t ht hd
    · exact (h.dropped _ (List.mem_of_getElem? hget) hd).2 _
  cases hk : keep r with
  | true =>
    have hthreads := h.threads
    rw [hsplit, List.filter_append, List.filter_cons_of_pos (by simpa using hk)] at hthreads
    obtain ⟨us, y, vs, hd, hus, ⟨hreq, hy⟩, hvs⟩ := forall₂_split hthreads
    obtain ⟨r', p', log'⟩ := y
    cases p' with
    | ret a' => exact hy.elim
    | ask o' k' =>
      have hlen : (c.threads.take i).countP (fun t => keep t.req) = us.length := by
        rw [List.countP_eq_length_filter]
        exact hus.length_eq
      have hget' : d.threads[us.length]? = some ⟨r', .ask o' k', log'⟩ := by simp [hd]
      obtain ⟨hans, hworld⟩ := U.step_kept ch o o' c.world d.world hy.1 h.world
      refine ⟨⟨(m.handle ch o' d.world).2,
        d.threads.set us.length ⟨r', k' (m.handle ch o' d.world).1, log' ++ [o']⟩⟩, ?_, hworld, ?_,
        hdropped⟩
      · simp [purgeMove, hget, hk, hlen, run, next, hget']
      · rw [hset, List.filter_append, List.filter_cons_of_pos (by simpa using hk), hd,
          List.set_append_right _ _ (Nat.le_refl _), Nat.sub_self, List.set_cons_zero]
        exact List.rel_append hus (.cons ⟨hreq, hy.2 _ _ hans⟩ hvs)
  | false =>
    refine ⟨d, by simp [purgeMove, hget, hk], ?_, ?_, hdropped⟩
    · exact U.step_dropped ch o c.world d.world
        (h.dropped _ (List.mem_of_getElem? hget) hk).1 h.world
    · have hthreads := h.threads
      rw [hsplit, List.filter_append, List.filter_cons_of_neg (by simp [hk])] at hthreads
      rw [hset, List.filter_append, List.filter_cons_of_neg (by simp [hk])]
      exact hthreads

theorem Unwinding.next (U : Unwinding m keep alter T Q R H) (h : Shadow keep alter T Q R H c d)
    (mv : Move Req C E) (hn : m.next c mv = some c') :
    ∃ d', m.run d (purgeMove keep alter c mv).toList = some d' ∧
      Shadow keep alter T Q R H c' d' := by
  cases mv with
  | spawn r => exact U.spawn h r hn
  | step i ch => exact U.step h i ch hn
  | env e =>
    cases hn
    exact ⟨_, rfl, U.env e _ _ h.world, h.threads, h.dropped⟩

/-- The purged run can be carried out, and ends in the shadow of the whole run. -/
theorem Unwinding.run (U : Unwinding m keep alter T Q R H) (h : Shadow keep alter T Q R H c d)
    {moves : List (Move Req C E)} (hc : m.run c moves = some c') :
    ∃ d', m.run d (m.purge keep alter c moves) = some d' ∧ Shadow keep alter T Q R H c' d' := by
  induction moves generalizing c d with
  | nil =>
    cases hc
    exact ⟨d, rfl, h⟩
  | cons mv moves ih =>
    obtain ⟨c₁, hn, hrest⟩ := Option.bind_eq_some_iff.mp hc
    obtain ⟨d₁, hd₁, h₁⟩ := U.next h mv hn
    obtain ⟨d', hd', h'⟩ := ih h₁ hrest
    refine ⟨d', ?_, h'⟩
    simp only [purge, hn, run_append, hd₁]
    exact hd'

end

theorem run_answered {H : Op → Prop} {D : Req → Prop} {f : (o : Op) → Res o}
    (hstart : ∀ r, D r → (m.start r).Uses H)
    (hf : ∀ ch o s, H o → (m.handle ch o s).1 = f o)
    {s : S} {moves : List (Move Req C E)} {c : Conf Req Op Res Out S}
    (hc : m.run ⟨s, []⟩ moves = some c) :
    ∀ t ∈ c.threads, D t.req → t.prog.answered f = (m.start t.req).answered f := by
  have hall := run_progs (P := fun r p _ => D r → p.Uses H ∧
    p.answered f = (m.start r).answered f) (fun r hr => ⟨hstart r hr, rfl⟩) ?_ hc
  · exact fun t ht hd => (hall t ht hd).2
  · intro r o k log ch s h hr
    obtain ⟨huses, hans⟩ := h hr
    refine ⟨huses.2 _, ?_⟩
    rw [hf ch o s huses.1, ← hans]
    rfl

end Machine
end Interaction
