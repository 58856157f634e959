import OcrService.Interaction.Pool
import Mathlib.Data.List.Forall2

/-! Two machines in lockstep: programs that ask related questions and, told related answers, go
on alike. What one machine does in a run, the other does in the related run. -/
namespace Interaction

universe u v w

variable {Op Op' : Type u} {Res : Op → Type v} {Res' : Op' → Type v}

namespace Prog
variable {α α' β β' : Type w}

/-- Operations related by `P` at every step, results related by `R`, as long as the answers are
related by `A`. -/
def Lockstep (P : Op → Op' → Prop) (A : (o : Op) → (o' : Op') → Res o → Res' o' → Prop)
    (R : α → α' → Prop) : Prog Op Res α → Prog Op' Res' α' → Prop
  | ret a, ret a' => R a a'
  | ask o k, ask o' k' => P o o' ∧ ∀ x x', A o o' x x' → (k x).Lockstep P A R (k' x')
  | ret _, ask _ _ => False
  | ask _ _, ret _ => False

variable {P : Op → Op' → Prop} {A : (o : Op) → (o' : Op') → Res o → Res' o' → Prop}
variable {R : α → α' → Prop}

@[simp] theorem lockstep_ret {a : α} {a' : α'} :
    (ret a : Prog Op Res α).Lockstep P A R (ret a' : Prog Op' Res' α') ↔ R a a' := Iff.rfl

@[simp] theorem lockstep_ask {o : Op} {o' : Op'} {k : Res o → Prog Op Res α}
    {k' : Res' o' → Prog Op' Res' α'} :
    (ask o k).Lockstep P A R (ask o' k') ↔
      P o o' ∧ ∀ x x', A o o' x x' → (k x).Lockstep P A R (k' x') := Iff.rfl

theorem Lockstep.asks {o : Op} {k : Res o → Prog Op Res α} {q : Prog Op' Res' α'}
    (h : (ask o k).Lockstep P A R q) : ∃ o' k', q = ask o' k' := by
  cases q with
  | ret a' => exact h.elim
  | ask o' k' => exact ⟨o', k', rfl⟩

theorem Lockstep.result?_eq {p : Prog Op Res α} {q : Prog Op' Res' α} (h : p.Lockstep P A Eq q) :
    q.result? = p.result? := by
  cases p with
  | ret a =>
    cases q with
    | ret a' => exact congrArg some (Eq.symm h)
    | ask o' k' => exact h.elim
  | ask o k =>
    obtain ⟨o', k', rfl⟩ := h.asks
    rfl

theorem Lockstep.bind {T : β → β' → Prop} {p : Prog Op Res α} {q : Prog Op' Res' α'}
    {f : α → Prog Op Res β} {g : α' → Prog Op' Res' β'} (hp : p.Lockstep P A R q)
    (hf : ∀ a a', R a a' → (f a).Lockstep P A T (g a')) : (p >>= f).Lockstep P A T (q >>= g) := by
  induction p generalizing q with
  | ret a =>
    cases q with
    | ret a' => exact hf a a' hp
    | ask o' k' => exact hp.elim
  | ask o k ih =>
    obtain ⟨o', k', rfl⟩ := hp.asks
    exact ⟨hp.1, fun x x' hx => ih x (hp.2 x x' hx)⟩

/-- A program keeps pace with itself as long as it asks nothing that the answer to may differ. -/
theorem Uses.lockstep {P : Op → Op → Prop} {A : (o o' : Op) → Res o → Res o' → Prop}
    {p : Prog Op Res α} (hp : p.Uses fun o => P o o) (hA : ∀ o x x', A o o x x' → x = x') :
    p.Lockstep P A Eq p := by
  induction p with
  | ret a => exact rfl
  | ask o k ih =>
    refine ⟨hp.1, fun x x' hx => ?_⟩
    rw [← hA o x x' hx]
    exact ih x (hp.2 x)

end Prog

variable {Req Req' C C' E E' S S' : Type*} {Out Out' : Type w}

/-- Related in every respect: requests by `Q`, what the world decides by `L`, what it does by
`F`, operations by `P`, answers by `A`, results by `R` and states by `I`. -/
structure Lockstep (m : Machine Req Op Res Out C E S) (m' : Machine Req' Op' Res' Out' C' E' S')
    (Q : Req → Req' → Prop) (L : C → C' → Prop) (F : E → E' → Prop) (P : Op → Op' → Prop)
    (A : (o : Op) → (o' : Op') → Res o → Res' o' → Prop) (R : Out → Out' → Prop)
    (I : S → S' → Prop) : Prop where
  start : ∀ r r', Q r r' → (m.start r).Lockstep P A R (m'.start r')
  answer : ∀ c c' o o' s s', L c c' → P o o' → I s s' →
    A o o' (m.handle c o s).1 (m'.handle c' o' s').1
  handle : ∀ c c' o o' s s', L c c' → P o o' → I s s' → I (m.handle c o s).2 (m'.handle c' o' s').2
  env : ∀ e e' s s', F e e' → I s s' → I (m.env e s) (m'.env e' s')

inductive Move.Related (Q : Req → Req' → Prop) (L : C → C' → Prop) (F : E → E' → Prop) :
    Move Req C E → Move Req' C' E' → Prop
  | spawn {r : Req} {r' : Req'} (h : Q r r') : Related Q L F (.spawn r) (.spawn r')
  | step {c : C} {c' : C'} (i : Nat) (h : L c c') : Related Q L F (.step i c) (.step i c')
  | env {e : E} {e' : E'} (h : F e e') : Related Q L F (.env e) (.env e')

section
variable {m : Machine Req Op Res Out C E S} {m' : Machine Req' Op' Res' Out' C' E' S'}
variable {Q : Req → Req' → Prop} {L : C → C' → Prop} {F : E → E' → Prop} {P : Op → Op' → Prop}
variable {A : (o : Op) → (o' : Op') → Res o → Res' o' → Prop} {R : Out → Out' → Prop}
variable {I : S → S' → Prop}

variable (P A R) in
def Thread.Abreast (t : Thread Req Op Res Out) (t' : Thread Req' Op' Res' Out') : Prop :=
  t.prog.Lockstep P A R t'.prog

variable (P A R I) in
structure Conf.Abreast (c : Conf Req Op Res Out S) (c' : Conf Req' Op' Res' Out' S') : Prop where
  world : I c.world c'.world
  threads : List.Forall₂ (Thread.Abreast P A R) c.threads c'.threads

theorem forall₂_set {α β : Type*} {R : α → β → Prop} {xs : List α} {ys : List β}
    (h : List.Forall₂ R xs ys) (i : Nat) {a : α} {b : β} (hab : R a b) :
    List.Forall₂ R (xs.set i a) (ys.set i b) := by
  induction h generalizing i with
  | nil => exact .nil
  | cons hxy hrest ih =>
    cases i with
    | zero => exact .cons hab hrest
    | succ i => exact .cons hxy (ih i)

theorem Lockstep.move (h : Lockstep m m' Q L F P A R I) {c d : Conf Req Op Res Out S}
    {c' : Conf Req' Op' Res' Out' S'} (hc : c.Abreast P A R I c') {mv : Move Req C E}
    {mv' : Move Req' C' E'} (hmv : mv.Related Q L F mv') (hd : m.next c mv = some d) :
    ∃ d', m'.next c' mv' = some d' ∧ d.Abreast P A R I d' := by
  cases hmv with
  | spawn hr =>
    cases hd
    exact ⟨_, rfl, hc.world, List.rel_append hc.threads (.cons (h.start _ _ hr) .nil)⟩
  | env he =>
    cases hd
    exact ⟨_, rfl, h.env _ _ _ _ he hc.world, hc.threads⟩
  | @step ch ch' i hch =>
    obtain ⟨r, o, k, log, hi, rfl⟩ := Machine.next_step _ hd
    obtain ⟨hlt, hget⟩ := List.getElem?_eq_some_iff.mp hi
    have hlt' : i < c'.threads.length := hc.threads.length_eq ▸ hlt
    have hthread : Thread.Abreast P A R c.threads[i] c'.threads[i] := hc.threads.get hlt hlt'
    cases hget' : c'.threads[i] with
    | mk r' prog' log' =>
      rw [hget, hget'] at hthread
      obtain ⟨o', k', rfl⟩ := Prog.Lockstep.asks hthread
      obtain ⟨hop, hgo⟩ := Prog.lockstep_ask.mp hthread
      refine ⟨⟨(m'.handle ch' o' c'.world).2, c'.threads.set i
        ⟨r', k' (m'.handle ch' o' c'.world).1, log' ++ [o']⟩⟩, ?_,
        h.handle _ _ _ _ _ _ hch hop hc.world, ?_⟩
      · simp only [Machine.next, List.getElem?_eq_getElem hlt', hget']
      · exact forall₂_set hc.threads i (hgo _ _ (h.answer _ _ _ _ _ _ hch hop hc.world))

/-- The related run goes through as well, and leaves the two machines abreast. -/
theorem Lockstep.run (h : Lockstep m m' Q L F P A R I) {c d : Conf Req Op Res Out S}
    {c' : Conf Req' Op' Res' Out' S'} (hc : c.Abreast P A R I c') {moves : List (Move Req C E)}
    {moves' : List (Move Req' C' E')} (hmoves : List.Forall₂ (Move.Related Q L F) moves moves')
    (hd : m.run c moves = some d) : ∃ d', m'.run c' moves' = some d' ∧ d.Abreast P A R I d' := by
  induction hmoves generalizing c c' with
  | nil =>
    cases hd
    exact ⟨c', rfl, hc⟩
  | cons hmv hrest ih =>
    obtain ⟨e, he, hd'⟩ := Option.bind_eq_some_iff.mp hd
    obtain ⟨e', he', hab⟩ := h.move hc hmv he
    obtain ⟨d', hrun, hd''⟩ := ih hab hd'
    exact ⟨d', Option.bind_eq_some_iff.mpr ⟨e', he', hrun⟩, hd''⟩

end

end Interaction
