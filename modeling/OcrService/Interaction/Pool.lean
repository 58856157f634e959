import OcrService.Interaction.Program
import Mathlib.Algebra.GroupWithZero.Nat
import Mathlib.Data.List.Induction

/-! Any number of programs over one shared world, interleaved operation by operation.
A run is the list of moves the scheduler makes; it is executable. -/
namespace Interaction

universe u v w

/-- A family of programs, one for each request, and the world they share. `C` is what
the world may decide at one operation, `E` what it may do between two of them. -/
structure Machine (Req : Type*) (Op : Type u) (Res : Op → Type v) (Out : Type w)
    (C E S : Type*) where
  start : Req → Prog Op Res Out
  handle : C → (o : Op) → S → Res o × S
  env : E → S → S

/-- A request being served: the program still to run, and the operations performed. -/
structure Thread (Req : Type*) (Op : Type u) (Res : Op → Type v) (Out : Type w) where
  req : Req
  prog : Prog Op Res Out
  log : List Op := []

structure Conf (Req : Type*) (Op : Type u) (Res : Op → Type v) (Out : Type w) (S : Type*) where
  world : S
  threads : List (Thread Req Op Res Out)

def Conf.waiting {Req : Type*} {Op : Type u} {Res : Op → Type v} {Out : Type w} {S : Type*}
    (c : Conf Req Op Res Out S) (i : Nat) : Option Op :=
  match c.threads[i]? with
  | some ⟨_, .ask o _, _⟩ => some o
  | _ => none

theorem Conf.waiting_of_get {Req : Type*} {Op : Type u} {Res : Op → Type v} {Out : Type w}
    {S : Type*} {c : Conf Req Op Res Out S} {i : Nat} {r : Req} {o : Op}
    {k : Res o → Prog Op Res Out} {log : List Op} (h : c.threads[i]? = some ⟨r, .ask o k, log⟩) :
    c.waiting i = some o := by
  simp [waiting, h]

theorem Conf.get_of_waiting {Req : Type*} {Op : Type u} {Res : Op → Type v} {Out : Type w}
    {S : Type*} {c : Conf Req Op Res Out S} {i : Nat} {o : Op} (h : c.waiting i = some o) :
    ∃ r k log, c.threads[i]? = some ⟨r, .ask o k, log⟩ := by
  unfold waiting at h
  split at h
  · rename_i r o' k log hi
    cases h
    exact ⟨r, k, log, hi⟩
  · cases h

inductive Move (Req C E : Type*) where
  | spawn (r : Req)
  | step (i : Nat) (c : C)
  | env (e : E)

namespace Machine
variable {Req C E S : Type*} {Op : Type u} {Res : Op → Type v} {Out : Type w}
variable (m : Machine Req Op Res Out C E S)

/-- One move; a step of a thread that is finished or does not exist is no move. -/
def next (c : Conf Req Op Res Out S) : Move Req C E → Option (Conf Req Op Res Out S)
  | .spawn r => some { c with threads := c.threads ++ [{ req := r, prog := m.start r }] }
  | .step i ch =>
    match c.threads[i]? with
    | some ⟨r, .ask o k, log⟩ =>
      some ⟨(m.handle ch o c.world).2,
        c.threads.set i ⟨r, k (m.handle ch o c.world).1, log ++ [o]⟩⟩
    | _ => none
  | .env e => some { c with world := m.env e c.world }

def run (c : Conf Req Op Res Out S) (moves : List (Move Req C E)) :
    Option (Conf Req Op Res Out S) :=
  moves.foldlM m.next c

@[simp] theorem run_nil (c : Conf Req Op Res Out S) : m.run c [] = some c := rfl

theorem run_append (c : Conf Req Op Res Out S) (ms ms' : List (Move Req C E)) :
    m.run c (ms ++ ms') = (m.run c ms).bind fun c' => m.run c' ms' :=
  List.foldlM_append

theorem run_snoc (c : Conf Req Op Res Out S) (ms : List (Move Req C E)) (mv : Move Req C E) :
    m.run c (ms ++ [mv]) = (m.run c ms).bind fun c' => m.next c' mv := by
  rw [run_append]
  congr 1
  funext c'
  simp [run]

/-- The step a thread takes, said once: a thread at an operation performs it. -/
theorem next_step {c c' : Conf Req Op Res Out S} {i : Nat} {ch : C}
    (h : m.next c (.step i ch) = some c') :
    ∃ r o k log, c.threads[i]? = some ⟨r, .ask o k, log⟩ ∧
      c' = ⟨(m.handle ch o c.world).2,
        c.threads.set i ⟨r, k (m.handle ch o c.world).1, log ++ [o]⟩⟩ := by
  simp only [next] at h
  split at h
  · rename_i r o k log hi
    exact ⟨r, o, k, log, hi, (Option.some.inj h).symm⟩
  · cases h

/-- Every move of the run, taken from the state the moves before it reached, is in `G`. -/
def Always (G : Conf Req Op Res Out S → Move Req C E → Prop) (c : Conf Req Op Res Out S)
    (moves : List (Move Req C E)) : Prop :=
  ∀ pre mv post, moves = pre ++ mv :: post → ∀ c', m.run c pre = some c' → G c' mv

/-- Every state the run passes through, the last one included, is in `I`. -/
def Visits (I : Conf Req Op Res Out S → Prop) (c : Conf Req Op Res Out S)
    (moves : List (Move Req C E)) : Prop :=
  ∀ pre post, moves = pre ++ post → ∀ c', m.run c pre = some c' → I c'

variable {m}

theorem Always.after {G : Conf Req Op Res Out S → Move Req C E → Prop}
    {c d : Conf Req Op Res Out S} {ms ms' : List (Move Req C E)} (h : m.Always G c (ms ++ ms'))
    (hd : m.run c ms = some d) : m.Always G d ms' := by
  intro pre mv post he c' hr
  refine h (ms ++ pre) mv post (by rw [he, List.append_assoc]) c' ?_
  rw [run_append, hd]
  exact hr

@[simp] theorem always_nil (G : Conf Req Op Res Out S → Move Req C E → Prop)
    (c : Conf Req Op Res Out S) : m.Always G c [] := by
  intro pre mv post he
  simp at he

theorem always_cons {G : Conf Req Op Res Out S → Move Req C E → Prop}
    {c : Conf Req Op Res Out S} {mv : Move Req C E} {ms : List (Move Req C E)} :
    m.Always G c (mv :: ms) ↔ G c mv ∧ ∀ d, m.next c mv = some d → m.Always G d ms := by
  constructor
  · intro h
    refine ⟨h [] mv ms rfl c rfl, fun d hd pre mv' post he c' hr => ?_⟩
    exact h (mv :: pre) mv' post (by simp [he]) c' (Option.bind_eq_some_iff.mpr ⟨d, hd, hr⟩)
  · intro h pre mv' post he c' hr
    cases pre with
    | nil =>
      cases he
      cases hr
      exact h.1
    | cons mv₀ pre =>
      cases he
      obtain ⟨d, hd, hr'⟩ := Option.bind_eq_some_iff.mp hr
      exact h.2 d hd pre mv' post rfl c' hr'

@[simp] theorem visits_nil {I : Conf Req Op Res Out S → Prop} {c : Conf Req Op Res Out S} :
    m.Visits I c [] ↔ I c := by
  constructor
  · exact fun h => h [] [] rfl c rfl
  · intro hc pre post he c' hr
    obtain ⟨rfl, -⟩ := List.append_eq_nil_iff.mp he.symm
    cases hr
    exact hc

theorem visits_cons {I : Conf Req Op Res Out S → Prop} {c : Conf Req Op Res Out S}
    {mv : Move Req C E} {ms : List (Move Req C E)} :
    m.Visits I c (mv :: ms) ↔ I c ∧ ∀ d, m.next c mv = some d → m.Visits I d ms := by
  constructor
  · intro h
    refine ⟨h [] (mv :: ms) rfl c rfl, fun d hd pre post he c' hr => ?_⟩
    exact h (mv :: pre) post (by simp [he]) c' (Option.bind_eq_some_iff.mpr ⟨d, hd, hr⟩)
  · intro h pre post he c' hr
    cases pre with
    | nil =>
      cases hr
      exact h.1
    | cons mv₀ pre =>
      cases he
      obtain ⟨d, hd, hr'⟩ := Option.bind_eq_some_iff.mp hr
      exact h.2 d hd pre post rfl c' hr'

instance decidableAlways (G : Conf Req Op Res Out S → Move Req C E → Prop)
    [∀ c mv, Decidable (G c mv)] : (ms : List (Move Req C E)) → (c : Conf Req Op Res Out S) →
      Decidable (m.Always G c ms)
  | [], c => isTrue (always_nil G c)
  | mv :: ms, c =>
    have : Decidable (∀ d, m.next c mv = some d → m.Always G d ms) :=
      match m.next c mv with
      | none => isTrue fun _ h => nomatch h
      | some d =>
        have := decidableAlways G ms d
        decidable_of_iff (m.Always G d ms)
          ⟨fun h _ he => Option.some.inj he ▸ h, fun h => h d rfl⟩
    decidable_of_iff _ always_cons.symm

instance decidableVisits (I : Conf Req Op Res Out S → Prop) [∀ c, Decidable (I c)] :
    (ms : List (Move Req C E)) → (c : Conf Req Op Res Out S) → Decidable (m.Visits I c ms)
  | [], c => decidable_of_iff (I c) visits_nil.symm
  | mv :: ms, c =>
    have : Decidable (∀ d, m.next c mv = some d → m.Visits I d ms) :=
      match m.next c mv with
      | none => isTrue fun _ h => nomatch h
      | some d =>
        have := decidableVisits I ms d
        decidable_of_iff (m.Visits I d ms)
          ⟨fun h _ he => Option.some.inj he ▸ h, fun h => h d rfl⟩
    decidable_of_iff _ visits_cons.symm

theorem run_inv (I : Conf Req Op Res Out S → Prop) (G : Conf Req Op Res Out S → Move Req C E → Prop)
    (hI : ∀ c mv c', I c → G c mv → m.next c mv = some c' → I c')
    {c : Conf Req Op Res Out S} {moves : List (Move Req C E)} (hc : I c)
    (hG : m.Always G c moves) : m.Visits I c moves := by
  intro pre
  induction pre using List.reverseRecOn with
  | nil =>
    intro post _ c' hr
    cases hr
    exact hc
  | append_singleton pre mv ih =>
    intro post he c' hr
    rw [run_snoc] at hr
    obtain ⟨d, hd, hn⟩ := Option.bind_eq_some_iff.mp hr
    have he' : moves = pre ++ mv :: post := by simpa using he
    exact hI d mv c' (ih (mv :: post) he' d hd) (hG pre mv post he' d hd) hn

theorem run_last (I : Conf Req Op Res Out S → Prop)
    (hI : ∀ c mv c', I c → m.next c mv = some c' → I c')
    {c d : Conf Req Op Res Out S} {moves : List (Move Req C E)} (hc : I c)
    (hd : m.run c moves = some d) : I d := by
  have hv : m.Visits I c moves :=
    run_inv I (fun _ _ => True) (fun c mv c' hi _ hn => hI c mv c' hi hn) hc
      fun _ _ _ _ _ _ => trivial
  exact hv moves [] (by simp) d hd

def Legal (R : Req → Prop) (L : C → Prop) (K : E → Prop) : Move Req C E → Prop
  | .spawn r => R r
  | .step _ ch => L ch
  | .env e => K e

/-- If the world between two moves keeps `I`, and every program keeps `I` and ends in
its own `Q`, then every interleaving of any number of them keeps `I`, and whatever has
finished has ended in its `Q`. -/
theorem run_keeps {R : Req → Prop} {L : C → Prop} {K : E → Prop} {I : S → Prop}
    {Q : Req → Out → Prop} (henv : ∀ e s, K e → I s → I (m.env e s))
    (hstart : ∀ r, R r → (m.start r).Keeps m.handle L I (Q r))
    {s : S} (hs : I s) {moves : List (Move Req C E)} (hl : ∀ mv ∈ moves, Legal R L K mv)
    {c : Conf Req Op Res Out S} (hc : m.run ⟨s, []⟩ moves = some c) :
    I c.world ∧ ∀ t ∈ c.threads, t.prog.Keeps m.handle L I (Q t.req) := by
  have hv : m.Visits (fun c => I c.world ∧ ∀ t ∈ c.threads, t.prog.Keeps m.handle L I (Q t.req))
      ⟨s, []⟩ moves := by
    refine run_inv _ (fun _ mv => Legal R L K mv) ?_ ⟨hs, by simp⟩ ?_
    · rintro c mv c' ⟨hi, ht⟩ hleg hn
      cases mv with
      | spawn r =>
        cases hn
        refine ⟨hi, fun t hmem => ?_⟩
        rcases List.mem_append.mp hmem with h | h
        · exact ht t h
        · rw [List.mem_singleton] at h
          subst h
          exact hstart r hleg
      | step i ch =>
        obtain ⟨r, o, k, log, hget, rfl⟩ := m.next_step hn
        have hk := ht _ (List.mem_of_getElem? hget) ch c.world hleg hi
        refine ⟨hk.1, fun t hmem => ?_⟩
        rcases List.mem_or_eq_of_mem_set hmem with h | rfl
        · exact ht t h
        · exact hk.2
      | env e =>
        cases hn
        exact ⟨henv e c.world hleg hi, ht⟩
    · rintro pre mv post rfl _ _
      exact hl mv (by simp)
  exact hv moves [] (by simp) c hc

/-- One program in a run whose worlds all have `I`, as it is kept by its own steps. -/
theorem run_call {I : S → Prop} {Q : Out → Prop} {c d : Conf Req Op Res Out S}
    {moves : List (Move Req C E)} {i : Nat} {r : Req} {p : Prog Op Res Out} {log : List Op}
    (hi : c.threads[i]? = some ⟨r, p, log⟩) (hk : p.Keeps m.handle (fun _ => True) I Q)
    (hI : m.Visits (fun c => I c.world) c moves) (hd : m.run c moves = some d) :
    ∃ p' log', d.threads[i]? = some ⟨r, p', log'⟩ ∧ p'.Keeps m.handle (fun _ => True) I Q := by
  have hv : m.Visits (fun c => I c.world ∧ ∃ p' log', c.threads[i]? = some ⟨r, p', log'⟩ ∧
      p'.Keeps m.handle (fun _ => True) I Q) c moves := by
    refine run_inv _ (fun c mv => ∀ c', m.next c mv = some c' → I c'.world) ?_ ?_ ?_
    · intro c mv c' hc hg hn
      obtain ⟨hci, p, log, hi, hk⟩ := hc
      refine ⟨hg c' hn, ?_⟩
      cases mv with
      | spawn r' =>
        cases hn
        refine ⟨p, log, ?_, hk⟩
        rw [List.getElem?_append_left (List.getElem?_eq_some_iff.mp hi).1, hi]
      | env e =>
        cases hn
        exact ⟨p, log, hi, hk⟩
      | step j ch =>
        obtain ⟨r', o, k, log', hj, rfl⟩ := m.next_step hn
        by_cases hij : j = i
        · subst hij
          rw [hi] at hj
          cases hj
          refine ⟨k (m.handle ch o c.world).1, log ++ [o], ?_, (hk ch c.world True.intro hci).2⟩
          rw [List.getElem?_set_self (List.getElem?_eq_some_iff.mp hi).1]
        · refine ⟨p, log, ?_, hk⟩
          rw [List.getElem?_set_ne hij, hi]
    · exact ⟨hI [] moves rfl c rfl, p, log, hi, hk⟩
    · intro pre mv post he c' hr c'' hn
      refine hI (pre ++ [mv]) post (by simpa using he) c'' ?_
      rw [run_snoc, hr]
      exact hn
  exact (hv moves [] (by simp) d hd).2

theorem run_progs {P : Req → Prog Op Res Out → List Op → Prop} (hstart : ∀ r, P r (m.start r) [])
    (hstep : ∀ r o k log ch s, P r (.ask o k) log → P r (k (m.handle ch o s).1) (log ++ [o]))
    {s : S} {moves : List (Move Req C E)} {c : Conf Req Op Res Out S}
    (hc : m.run ⟨s, []⟩ moves = some c) : ∀ t ∈ c.threads, P t.req t.prog t.log := by
  refine run_last (fun c => ∀ t ∈ c.threads, P t.req t.prog t.log) ?_ (by simp) hc
  intro c mv c' ht hn
  cases mv with
  | spawn r =>
    cases hn
    intro t hmem
    obtain h | h := List.mem_append.mp hmem
    · exact ht t h
    · rw [List.mem_singleton] at h
      subst h
      exact hstart r
  | step i ch =>
    obtain ⟨r, o, k, log, hget, rfl⟩ := m.next_step hn
    intro t hmem
    obtain h | rfl := List.mem_or_eq_of_mem_set hmem
    · exact ht t h
    · exact hstep r o k log ch c.world (ht _ (List.mem_of_getElem? hget))
  | env e =>
    cases hn
    exact ht

theorem run_fresh {s : S} {moves : List (Move Req C E)} {c : Conf Req Op Res Out S}
    (hc : m.run ⟨s, []⟩ moves = some c) : ∀ t ∈ c.threads, t.log = [] → t.prog = m.start t.req :=
  run_progs (P := fun r p log => log = [] → p = m.start r) (fun _ _ => rfl)
    (fun _ _ _ _ _ _ _ h => by simp at h) hc

theorem run_endsBy {F : Req → (o : Op) → Res o → Out → Prop}
    (hstart : ∀ r, (m.start r).EndsBy (F r)) {s : S} {moves : List (Move Req C E)}
    {c : Conf Req Op Res Out S} (hc : m.run ⟨s, []⟩ moves = some c) :
    ∀ t ∈ c.threads, t.prog.EndsBy (F t.req) :=
  run_progs (P := fun r p _ => p.EndsBy (F r)) hstart (fun _ _ _ _ _ _ h => (h _).2) hc

theorem run_logs {A : (o : Op) → Res o → Prop} {P : Req → List Op → Prop}
    {Q : Req → List Op → Out → Prop} (hA : ∀ ch o s, A o (m.handle ch o s).1)
    (hstart : ∀ r, (m.start r).Traces A (P r) (Q r))
    {s : S} {moves : List (Move Req C E)} {c : Conf Req Op Res Out S}
    (hc : m.run ⟨s, []⟩ moves = some c) :
    ∀ t ∈ c.threads, t.prog.Traces A (fun log => P t.req (t.log ++ log))
      fun log a => Q t.req (t.log ++ log) a := by
  refine run_progs (P := fun r p log => p.Traces A (fun log' => P r (log ++ log'))
    fun log' a => Q r (log ++ log') a) hstart ?_ hc
  intro r o k log ch s h
  simpa using h.2 _ (hA ch o s)

/-- A quantity of the world that grows only by what each operation adds to it is what
it was plus what all the threads have added. -/
theorem run_measure (μ : S → Nat) (ν : Op → Nat)
    (hop : ∀ ch o s, μ (m.handle ch o s).2 = μ s + ν o) (henv : ∀ e s, μ (m.env e s) = μ s)
    {s : S} {moves : List (Move Req C E)} {c : Conf Req Op Res Out S}
    (hc : m.run ⟨s, []⟩ moves = some c) :
    μ c.world = μ s + (c.threads.map fun t => (t.log.map ν).sum).sum := by
  refine run_last (fun c => μ c.world = μ s + (c.threads.map fun t => (t.log.map ν).sum).sum)
    ?_ (by simp) hc
  intro c mv c' hi hn
  cases mv with
  | spawn r =>
    cases hn
    simpa using hi
  | step i ch =>
    obtain ⟨r, o, k, log, hget, rfl⟩ := m.next_step hn
    obtain ⟨hlt, hi'⟩ := List.getElem?_eq_some_iff.mp hget
    have hsplit := List.take_append_drop i c.threads
    rw [List.drop_eq_getElem_cons hlt, hi'] at hsplit
    have hsum : (c.threads.map fun t => (t.log.map ν).sum).sum =
        ((c.threads.take i).map fun t => (t.log.map ν).sum).sum + ((log.map ν).sum +
          ((c.threads.drop (i + 1)).map fun t => (t.log.map ν).sum).sum) := by
      conv_lhs => rw [← hsplit]
      simp
    rw [List.set_eq_take_append_cons_drop, if_pos hlt]
    simp only [hop, hi, hsum, List.map_append, List.map_cons, List.sum_append, List.sum_cons,
      List.map_nil, List.sum_nil]
    omega
  | env e =>
    cases hn
    simpa [henv] using hi

end Machine
end Interaction
