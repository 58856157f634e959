import Mathlib.Logic.Function.Basic

/-! Programs that ask their world for one answer at a time. A program is a finite
tree of operations; the world is any handler of the operations. Nothing here
depends on which operations there are. -/
namespace Interaction

universe u v w

/-- `ask o k` performs `o` and goes on with the answer; `ret a` is finished. -/
inductive Prog (Op : Type u) (Res : Op → Type v) (α : Type w) : Type (max u v w) where
  | ret (a : α)
  | ask (o : Op) (k : Res o → Prog Op Res α)

namespace Prog
variable {Op : Type u} {Res : Op → Type v} {α β γ : Type w}

def bind : Prog Op Res α → (α → Prog Op Res β) → Prog Op Res β
  | ret a, f => f a
  | ask o k, f => ask o fun x => (k x).bind f

instance : Monad (Prog Op Res) where
  pure := ret
  bind := bind

def perform {Res : Op → Type w} (o : Op) : Prog Op Res (Res o) := ask o ret

@[simp] theorem pure_eq (a : α) : (pure a : Prog Op Res α) = ret a := rfl

@[simp] theorem ret_bind (a : α) (f : α → Prog Op Res β) : ret a >>= f = f a := rfl

@[simp] theorem ask_bind (o : Op) (k : Res o → Prog Op Res α) (f : α → Prog Op Res β) :
    ask o k >>= f = ask o fun x => k x >>= f := rfl

@[simp] theorem perform_bind {Res : Op → Type w} (o : Op) (f : Res o → Prog Op Res β) :
    perform o >>= f = ask o f := rfl

def result? : Prog Op Res α → Option α
  | ret a => some a
  | ask _ _ => none

@[simp] theorem result?_ret (a : α) : (ret a : Prog Op Res α).result? = some a := rfl

@[simp] theorem result?_ask (o : Op) (k : Res o → Prog Op Res α) : (ask o k).result? = none := rfl

section Eval
variable {σ τ : Type*}

def eval (h : (o : Op) → σ → Res o × σ) : Prog Op Res α → σ → α × σ
  | ret a, s => (a, s)
  | ask o k, s => eval h (k (h o s).1) (h o s).2

variable (h : (o : Op) → σ → Res o × σ)

@[simp] theorem eval_ret (a : α) (s : σ) : eval h (ret a) s = (a, s) := rfl

@[simp] theorem eval_ask (o : Op) (k : Res o → Prog Op Res α) (s : σ) :
    eval h (ask o k) s = eval h (k (h o s).1) (h o s).2 := rfl

theorem eval_bind (p : Prog Op Res α) (f : α → Prog Op Res β) (s : σ) :
    eval h (p >>= f) s = eval h (f (eval h p s).1) (eval h p s).2 := by
  induction p generalizing s with
  | ret a => rfl
  | ask o k ih => exact ih _ _

variable {A : (o : Op) → Res o → Prop}

/-- Every answer that the program gets on its way is in `A`. -/
def Hears (A : (o : Op) → Res o → Prop) : Prog Op Res α → σ → Prop
  | ret _, _ => True
  | ask o k, s => A o (h o s).1 ∧ Hears A (k (h o s).1) (h o s).2

@[simp] theorem hears_ret (a : α) (s : σ) : Hears h A (ret a) s ↔ True := Iff.rfl

@[simp] theorem hears_ask (o : Op) (k : Res o → Prog Op Res α) (s : σ) :
    Hears h A (ask o k) s ↔ A o (h o s).1 ∧ Hears h A (k (h o s).1) (h o s).2 := Iff.rfl

theorem hears_bind (p : Prog Op Res α) (f : α → Prog Op Res β) (s : σ) :
    Hears h A (p >>= f) s ↔ Hears h A p s ∧ Hears h A (f (eval h p s).1) (eval h p s).2 := by
  induction p generalizing s with
  | ret a => exact (true_and _).symm.to_iff
  | ask o k ih => exact (and_congr_right' (ih _ _)).trans and_assoc.symm

end Eval

def Uses (P : Op → Prop) : Prog Op Res α → Prop
  | ret _ => True
  | ask o k => P o ∧ ∀ x, (k x).Uses P

@[simp] theorem uses_ret (P : Op → Prop) (a : α) : (ret a : Prog Op Res α).Uses P ↔ True := Iff.rfl

@[simp] theorem uses_ask (P : Op → Prop) (o : Op) (k : Res o → Prog Op Res α) :
    (ask o k).Uses P ↔ P o ∧ ∀ x, (k x).Uses P := Iff.rfl

theorem Uses.bind {P : Op → Prop} {p : Prog Op Res α} {f : α → Prog Op Res β}
    (hp : p.Uses P) (hf : ∀ a, (f a).Uses P) : (p >>= f).Uses P := by
  induction p with
  | ret a => exact hf a
  | ask o k ih => exact ⟨hp.1, fun x => ih x (hp.2 x)⟩

theorem Uses.mono {P P' : Op → Prop} {p : Prog Op Res α} (hp : p.Uses P)
    (h : ∀ o, P o → P' o) : p.Uses P' := by
  induction p with
  | ret a => exact True.intro
  | ask o k ih => exact ⟨h o hp.1, fun x => ih x (hp.2 x)⟩

theorem Uses.trivial (p : Prog Op Res α) : p.Uses fun _ => True := by
  induction p with
  | ret a => exact True.intro
  | ask o k ih => exact ⟨True.intro, ih⟩

theorem Uses.hears {σ : Type*} {P : Op → Prop} {A : (o : Op) → Res o → Prop} {p : Prog Op Res α}
    (hp : p.Uses P) (h : (o : Op) → σ → Res o × σ) (hA : ∀ o, P o → ∀ x, A o x) (s : σ) :
    p.Hears h A s := by
  induction p generalizing s with
  | ret a => exact True.intro
  | ask o k ih => exact ⟨hA o hp.1 _, ih _ (hp.2 _) _⟩

section Traces
variable {A : (o : Op) → Res o → Prop}

/-- `Traces A P Q p`: as long as the answers are in `A`, the operations `p` has
performed satisfy `P` at every point where it waits for one, and on its return they
and the result satisfy `Q`. -/
def Traces (A : (o : Op) → Res o → Prop) (P : List Op → Prop) (Q : List Op → α → Prop) :
    Prog Op Res α → Prop
  | ret a => Q [] a
  | ask o k => P [] ∧ ∀ x, A o x →
      (k x).Traces A (fun log => P (o :: log)) fun log a => Q (o :: log) a

@[simp] theorem traces_ret (P : List Op → Prop) (Q : List Op → α → Prop) (a : α) :
    (ret a : Prog Op Res α).Traces A P Q ↔ Q [] a := Iff.rfl

@[simp] theorem traces_ask (P : List Op → Prop) (Q : List Op → α → Prop) (o : Op)
    (k : Res o → Prog Op Res α) :
    (ask o k).Traces A P Q ↔ P [] ∧ ∀ x, A o x →
      (k x).Traces A (fun log => P (o :: log)) fun log a => Q (o :: log) a := Iff.rfl

theorem Traces.mono {P P' : List Op → Prop} {Q Q' : List Op → α → Prop} {p : Prog Op Res α}
    (hp : p.Traces A P Q) (hP : ∀ log, P log → P' log) (hQ : ∀ log a, Q log a → Q' log a) :
    p.Traces A P' Q' := by
  induction p generalizing P P' Q Q' with
  | ret a => exact hQ [] a hp
  | ask o k ih =>
    exact ⟨hP [] hp.1, fun x hx => ih x (hp.2 x hx) (fun log => hP (o :: log))
      fun log a => hQ (o :: log) a⟩

theorem Traces.bind {P : List Op → Prop} {Q : List Op → β → Prop} {p : Prog Op Res α}
    {f : α → Prog Op Res β}
    (hp : p.Traces A P fun log a =>
      (f a).Traces A (fun log' => P (log ++ log')) fun log' b => Q (log ++ log') b) :
    (p >>= f).Traces A P Q := by
  induction p generalizing P Q with
  | ret a => exact hp
  | ask o k ih => exact ⟨hp.1, fun x hx => ih x (hp.2 x hx)⟩

theorem Traces.eval {σ : Type*} {P : List Op → Prop} {Q : List Op → α → Prop}
    {p : Prog Op Res α} (hp : p.Traces A P Q) (h : (o : Op) → σ → Res o × σ)
    (hA : ∀ o s, A o (h o s).1) (s : σ) : ∃ log, Q log (eval h p s).1 := by
  induction p generalizing P Q s with
  | ret a => exact ⟨[], hp⟩
  | ask o k ih =>
    obtain ⟨log, hlog⟩ := ih _ (hp.2 _ (hA o s)) (h o s).2
    exact ⟨o :: log, hlog⟩

theorem Uses.traces {R : Op → Prop} {p : Prog Op Res α} (hp : p.Uses R) :
    p.Traces A (fun log => ∀ o ∈ log, R o) fun log _ => ∀ o ∈ log, R o := by
  induction p with
  | ret a => simp
  | ask o k ih =>
    refine ⟨by simp, fun x _ => (ih x (hp.2 x)).mono ?_ ?_⟩
    · exact fun log h => List.forall_mem_cons.mpr ⟨hp.1, h⟩
    · exact fun log _ h => List.forall_mem_cons.mpr ⟨hp.1, h⟩

end Traces

/-- The operation that ends the program, its answer and the result are in `E`. -/
def EndsBy (E : (o : Op) → Res o → α → Prop) : Prog Op Res α → Prop
  | ret _ => True
  | ask o k => ∀ x, (∀ a, k x = ret a → E o x a) ∧ (k x).EndsBy E

theorem EndsBy.trivial {E : (o : Op) → Res o → α → Prop} (h : ∀ o x a, E o x a)
    (p : Prog Op Res α) : p.EndsBy E := by
  induction p with
  | ret a => exact True.intro
  | ask o k ih => exact fun x => ⟨fun a _ => h o x a, ih x⟩

theorem EndsBy.mono {E E' : (o : Op) → Res o → α → Prop} {p : Prog Op Res α} (hp : p.EndsBy E)
    (h : ∀ o x a, E o x a → E' o x a) : p.EndsBy E' := by
  induction p with
  | ret a => exact True.intro
  | ask o k ih => exact fun x => ⟨fun a ha => h o x a ((hp x).1 a ha), ih x (hp x).2⟩

theorem EndsBy.map {E : (o : Op) → Res o → β → Prop} {g : α → β} {p : Prog Op Res α}
    (hp : p.EndsBy fun o x a => E o x (g a)) : (p >>= fun a => ret (g a)).EndsBy E := by
  induction p with
  | ret a => exact True.intro
  | ask o k ih =>
    intro x
    refine ⟨fun b hret => ?_, ih x (hp x).2⟩
    have hb : (k x >>= fun a => ret (g a)) = ret b := hret
    cases hk : k x with
    | ret a =>
      rw [hk] at hb
      cases hb
      exact (hp x).1 a hk
    | ask o' k' =>
      rw [hk] at hb
      cases hb

section Keeps
variable {C σ : Type*} {h : C → (o : Op) → σ → Res o × σ} {L : C → Prop} {I : σ → Prop}

/-- `Keeps h L I Q p`: performed in any state with `I` and under any choice in `L`,
each operation of `p` restores `I`, and the result of `p` satisfies `Q`. The state
may change between two operations as long as `I` holds again. -/
def Keeps (h : C → (o : Op) → σ → Res o × σ) (L : C → Prop) (I : σ → Prop) (Q : α → Prop) :
    Prog Op Res α → Prop
  | ret a => Q a
  | ask o k => ∀ c s, L c → I s → I (h c o s).2 ∧ (k (h c o s).1).Keeps h L I Q

@[simp] theorem keeps_ret (Q : α → Prop) (a : α) :
    (ret a : Prog Op Res α).Keeps h L I Q ↔ Q a := Iff.rfl

@[simp] theorem keeps_ask (Q : α → Prop) (o : Op) (k : Res o → Prog Op Res α) :
    (ask o k).Keeps h L I Q ↔
      ∀ c s, L c → I s → I (h c o s).2 ∧ (k (h c o s).1).Keeps h L I Q := Iff.rfl

theorem Keeps.bind {Q : α → Prop} {Q' : β → Prop} {p : Prog Op Res α} {f : α → Prog Op Res β}
    (hp : p.Keeps h L I Q) (hf : ∀ a, Q a → (f a).Keeps h L I Q') : (p >>= f).Keeps h L I Q' := by
  induction p with
  | ret a => exact hf a hp
  | ask o k ih => exact fun c s hc hs => ⟨(hp c s hc hs).1, ih _ (hp c s hc hs).2⟩

theorem Keeps.mono {Q Q' : α → Prop} {p : Prog Op Res α} (hp : p.Keeps h L I Q)
    (hq : ∀ a, Q a → Q' a) : p.Keeps h L I Q' := by
  induction p with
  | ret a => exact hq a hp
  | ask o k ih => exact fun c s hc hs => ⟨(hp c s hc hs).1, ih _ (hp c s hc hs).2⟩

theorem Keeps.eval {Q : α → Prop} {p : Prog Op Res α} (hp : p.Keeps h L I Q) (c : C)
    (hc : L c) (s : σ) (hs : I s) : Q (eval (h c) p s).1 ∧ I (eval (h c) p s).2 := by
  induction p generalizing s with
  | ret a => exact ⟨hp, hs⟩
  | ask o k ih => exact ih _ (hp c s hc hs).2 _ (hp c s hc hs).1

/-- A program that uses only operations that restore `I` keeps it. -/
theorem Uses.keeps {R : Op → Prop} {p : Prog Op Res α} (hp : p.Uses R)
    (hR : ∀ o, R o → ∀ c s, L c → I s → I (h c o s).2) : p.Keeps h L I fun _ => True := by
  induction p with
  | ret a => exact True.intro
  | ask o k ih => exact fun c s hc hs => ⟨hR o hp.1 c s hc hs, ih _ (hp.2 _)⟩

/-- What a program's paths guarantee of its result, and its operations of the state. -/
theorem Traces.keeps {A : (o : Op) → Res o → Prop} {P : List Op → Prop} {Q : List Op → α → Prop}
    {R : Op → Prop} {p : Prog Op Res α} (hp : p.Traces A P Q) (hu : p.Uses R)
    (hA : ∀ o c s, L c → I s → A o (h c o s).1)
    (hR : ∀ o, R o → ∀ c s, L c → I s → I (h c o s).2) :
    p.Keeps h L I fun a => ∃ log, Q log a := by
  induction p generalizing P Q with
  | ret a => exact ⟨[], hp⟩
  | ask o k ih =>
    intro c s hc hs
    refine ⟨hR o hu.1 c s hc hs, (ih _ (hp.2 _ (hA o c s hc hs)) (hu.2 _)).mono ?_⟩
    rintro a ⟨log, hlog⟩
    exact ⟨o :: log, hlog⟩

end Keeps

end Prog
end Interaction
