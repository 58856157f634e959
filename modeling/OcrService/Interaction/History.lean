import OcrService.Interaction.Pool

/-! Looking back over a run: which move was a thread's operation, what it found, and which
move left a part of the world as it is. -/
namespace Interaction

universe u v w

namespace Prog
variable {Op : Type u} {Res : Op → Type v} {α β : Type w}

def lift {Op' : Type*} {Res' : Op' → Type*} (f : Op → Op') (g : (o : Op) → Res' (f o) → Res o) :
    Prog Op Res α → Prog Op' Res' α
  | ret a => ret a
  | ask o k => ask (f o) fun x => (k (g o x)).lift f g

theorem bind_assoc {γ : Type w} (p : Prog Op Res α) (f : α → Prog Op Res β)
    (g : β → Prog Op Res γ) : p >>= f >>= g = p >>= fun a => f a >>= g := by
  induction p with
  | ret a => rfl
  | ask o k ih => exact congrArg (ask o) (funext ih)

/-- Whatever the answers, the result is in `Q`. -/
def Returns (Q : α → Prop) : Prog Op Res α → Prop
  | ret a => Q a
  | ask _ k => ∀ x, (k x).Returns Q

theorem Returns.mono {Q Q' : α → Prop} {p : Prog Op Res α} (hp : p.Returns Q)
    (h : ∀ a, Q a → Q' a) : p.Returns Q' := by
  induction p with
  | ret a => exact h a hp
  | ask o k ih => exact fun x => ih x (hp x)

theorem Returns.trivial (p : Prog Op Res α) : p.Returns fun _ => True := by
  induction p with
  | ret a => exact True.intro
  | ask o k ih => exact ih

theorem Returns.lift {Op' : Type*} {Res' : Op' → Type*} {f : Op → Op'}
    {g : (o : Op) → Res' (f o) → Res o} {Q : α → Prop} {p : Prog Op Res α} (hp : p.Returns Q) :
    (p.lift f g).Returns Q := by
  induction p with
  | ret a => exact hp
  | ask o k ih => exact fun x => ih (g o x) (hp (g o x))

theorem Returns.bind {Q : β → Prop} {p : Prog Op Res α} {f : α → Prog Op Res β}
    (hp : p.Returns fun a => (f a).Returns Q) : (p >>= f).Returns Q := by
  induction p with
  | ret a => exact hp
  | ask o k ih => exact fun x => ih x (hp x)

theorem Uses.lift {Op' : Type*} {Res' : Op' → Type*} {f : Op → Op'}
    {g : (o : Op) → Res' (f o) → Res o} {P : Op' → Prop} {p : Prog Op Res α}
    (hp : p.Uses fun o => P (f o)) : (p.lift f g).Uses P := by
  induction p with
  | ret a => exact True.intro
  | ask o k ih => exact ⟨hp.1, fun x => ih (g o x) (hp.2 (g o x))⟩

end Prog

def Move.request? {Req C E : Type*} : Move Req C E → Option Req
  | .spawn r => some r
  | .step _ _ | .env _ => none

theorem countP_set_add {α : Type*} {l : List α} {i : Nat} {a b : α} (h : l[i]? = some a)
    (p : α → Bool) : (l.set i b).countP p + (p a).toNat = l.countP p + (p b).toNat := by
  obtain ⟨hlt, rfl⟩ := List.getElem?_eq_some_iff.mp h
  have hle : (p l[i]).toNat ≤ l.countP p := by
    cases hp : p l[i] with
    | false => exact Nat.zero_le _
    | true => exact List.countP_pos_iff.mpr ⟨l[i], List.getElem_mem hlt, hp⟩
  have hset := List.countP_set hlt (p := p) (a := b)
  have htoNat : ∀ c : Bool, (if c = true then 1 else 0) = c.toNat := by
    intro c
    cases c <;> rfl
  rw [htoNat, htoNat] at hset
  omega

namespace Machine
variable {Req C E S : Type*} {Op : Type u} {Res : Op → Type v} {Out : Type w}
variable {m : Machine Req Op Res Out C E S}

theorem run_take {c d : Conf Req Op Res Out S} {moves : List (Move Req C E)}
    (hd : m.run c moves = some d) (k : Nat) :
    ∃ c', m.run c (moves.take k) = some c' ∧ m.run c' (moves.drop k) = some d := by
  rw [← List.take_append_drop k moves, run_append] at hd
  exact Option.bind_eq_some_iff.mp hd

theorem run_take_succ {c c' : Conf Req Op Res Out S} {moves : List (Move Req C E)} {k : Nat}
    {mv : Move Req C E} (hk : moves[k]? = some mv) (hc : m.run c (moves.take k) = some c') :
    m.run c (moves.take (k + 1)) = m.next c' mv := by
  rw [List.take_add_one, hk, Option.toList_some, run_snoc, hc]
  rfl

theorem run_take_le {c c' c'' : Conf Req Op Res Out S} {moves : List (Move Req C E)} {k n : Nat}
    (hkn : k ≤ n) (hk : m.run c (moves.take k) = some c') (hn : m.run c (moves.take n) = some c'') :
    m.run c' ((moves.take n).drop k) = some c'' := by
  obtain ⟨c₁, hc₁, hd⟩ := run_take hn k
  rw [List.take_take, Nat.min_eq_left hkn, hk] at hc₁
  cases hc₁
  exact hd

variable (m) in
/-- Move `k` of the run from `c` is thread `i`, in the middle of `r`, performing `o` in `c'`
under the choice `ch`, with `log` behind it and `cont` before it. -/
structure StepsAt (c : Conf Req Op Res Out S) (moves : List (Move Req C E)) (k i : Nat) (ch : C)
    (r : Req) (log : List Op) (o : Op) (cont : Res o → Prog Op Res Out)
    (c' : Conf Req Op Res Out S) : Prop where
  move : moves[k]? = some (.step i ch)
  reached : m.run c (moves.take k) = some c'
  thread : c'.threads[i]? = some ⟨r, .ask o cont, log⟩

variable (m) in
def Performs (c : Conf Req Op Res Out S) (moves : List (Move Req C E)) (k i : Nat) (r : Req)
    (log : List Op) (o : Op) (s : S) : Prop :=
  ∃ ch cont c', m.StepsAt c moves k i ch r log o cont c' ∧ c'.world = s

section Step
variable {c c' d : Conf Req Op Res Out S} {moves : List (Move Req C E)} {k i : Nat} {ch : C}
variable {r : Req} {log : List Op} {o : Op} {cont : Res o → Prog Op Res Out}

theorem StepsAt.lt (h : m.StepsAt c moves k i ch r log o cont c') : k < moves.length :=
  (List.getElem?_eq_some_iff.mp h.move).1

theorem StepsAt.performs (h : m.StepsAt c moves k i ch r log o cont c') :
    m.Performs c moves k i r log o c'.world := ⟨ch, cont, c', h, rfl⟩

theorem StepsAt.after (h : m.StepsAt c moves k i ch r log o cont c') :
    m.run c (moves.take (k + 1)) = some ⟨(m.handle ch o c'.world).2,
      c'.threads.set i ⟨r, cont (m.handle ch o c'.world).1, log ++ [o]⟩⟩ := by
  rw [run_take_succ h.move h.reached]
  simp only [next, h.thread]

theorem StepsAt.of_take {n : Nat} (h : m.StepsAt c (moves.take n) k i ch r log o cont c') :
    k < n ∧ m.StepsAt c moves k i ch r log o cont c' := by
  have hlt : k < n := by
    have := h.lt
    rw [List.length_take] at this
    omega
  refine ⟨hlt, ?_, ?_, h.thread⟩
  · have hmove := h.move
    rwa [List.getElem?_take_of_lt hlt] at hmove
  · have hreached := h.reached
    rwa [List.take_take, Nat.min_eq_left (Nat.le_of_lt hlt)] at hreached

theorem StepsAt.take {n : Nat} (h : m.StepsAt c moves k i ch r log o cont c') (hn : k < n) :
    m.StepsAt c (moves.take n) k i ch r log o cont c' := by
  refine ⟨?_, ?_, h.thread⟩
  · rw [List.getElem?_take_of_lt hn, h.move]
  · rw [List.take_take, Nat.min_eq_left (Nat.le_of_lt hn), h.reached]

theorem run_thread {p : Prog Op Res Out} (hd : m.run c moves = some d)
    (hi : c.threads[i]? = some ⟨r, p, log⟩) :
    ∃ p' l, d.threads[i]? = some ⟨r, p', log ++ l⟩ ∧ (l = [] → p' = p) ∧
      ∀ Q, p.Returns Q → p'.Returns Q := by
  refine run_last (fun c => ∃ p' l, c.threads[i]? = some ⟨r, p', log ++ l⟩ ∧ (l = [] → p' = p) ∧
    ∀ Q, p.Returns Q → p'.Returns Q) ?_ ⟨p, [], by simpa using hi, fun _ => rfl, fun _ h => h⟩ hd
  intro c mv c' hc hn
  obtain ⟨p', l, hi, hsame, hret⟩ := hc
  cases mv with
  | spawn r' =>
    cases hn
    refine ⟨p', l, ?_, hsame, hret⟩
    rw [List.getElem?_append_left (List.getElem?_eq_some_iff.mp hi).1, hi]
  | env e =>
    cases hn
    exact ⟨p', l, hi, hsame, hret⟩
  | step j ch =>
    obtain ⟨r', o, k, log', hj, rfl⟩ := m.next_step hn
    by_cases hij : j = i
    · subst hij
      rw [hi] at hj
      cases hj
      refine ⟨k (m.handle ch o c.world).1, l ++ [o], ?_, by simp, fun Q hQ => hret Q hQ _⟩
      rw [List.getElem?_set_self (List.getElem?_eq_some_iff.mp hi).1, List.append_assoc]
    · refine ⟨p', l, ?_, hsame, hret⟩
      rw [List.getElem?_set_ne hij, hi]

theorem StepsAt.later (h : m.StepsAt c moves k i ch r log o cont c')
    (hd : m.run c moves = some d) :
    ∃ p l, d.threads[i]? = some ⟨r, p, log ++ o :: l⟩ ∧
      (l = [] → p = cont (m.handle ch o c'.world).1) ∧
      ∀ Q, (cont (m.handle ch o c'.world).1).Returns Q → p.Returns Q := by
  obtain ⟨c'', hc'', hd'⟩ := run_take hd (k + 1)
  rw [h.after] at hc''
  cases hc''
  obtain ⟨p, l, hi, hsame, hret⟩ := run_thread hd'
    (List.getElem?_set_self (List.getElem?_eq_some_iff.mp h.thread).1)
  exact ⟨p, l, by simpa using hi, hsame, hret⟩

end Step

theorem run_uses {R : Req → Op → Prop} (hstart : ∀ r, (m.start r).Uses (R r)) {s : S}
    {moves : List (Move Req C E)} {c : Conf Req Op Res Out S}
    (hc : m.run ⟨s, []⟩ moves = some c) : ∀ t ∈ c.threads, t.prog.Uses (R t.req) :=
  run_progs (P := fun r p _ => p.Uses (R r)) hstart (fun _ _ _ _ _ _ h => h.2 _) hc

theorem run_returns {Q : Req → Out → Prop} (hstart : ∀ r, (m.start r).Returns (Q r)) {s : S}
    {moves : List (Move Req C E)} {c : Conf Req Op Res Out S}
    (hc : m.run ⟨s, []⟩ moves = some c) : ∀ t ∈ c.threads, t.prog.Returns (Q t.req) :=
  run_progs (P := fun r p _ => p.Returns (Q r)) hstart (fun _ _ _ _ _ _ h => h _) hc

/-- The step behind the last operation of a thread's log. -/
theorem last_step {s : S} {moves : List (Move Req C E)} {d : Conf Req Op Res Out S} {i : Nat}
    {r : Req} {p : Prog Op Res Out} (log : List Op) {o : Op} (hd : m.run ⟨s, []⟩ moves = some d)
    (hi : d.threads[i]? = some ⟨r, p, log ++ [o]⟩) :
    ∃ k ch cont c', m.StepsAt ⟨s, []⟩ moves k i ch r log o cont c' ∧
      p = cont (m.handle ch o c'.world).1 := by
  induction moves using List.reverseRecOn generalizing d with
  | nil =>
    cases hd
    simp at hi
  | append_singleton ms mv ih =>
    rw [run_snoc] at hd
    obtain ⟨c, hc, hn⟩ := Option.bind_eq_some_iff.mp hd
    -- The step is behind us unless the last move is the thread's own.
    have hearlier : c.threads[i]? = some ⟨r, p, log ++ [o]⟩ →
        ∃ k ch cont c', m.StepsAt ⟨s, []⟩ (ms ++ [mv]) k i ch r log o cont c' ∧
          p = cont (m.handle ch o c'.world).1 := by
      intro hi
      obtain ⟨k, ch, cont, c', hstep, hp⟩ := ih hc hi
      have htake : (ms ++ [mv]).take ms.length = ms := List.take_left
      have hstep' : m.StepsAt ⟨s, []⟩ _ k i ch r log o cont c' := htake ▸ hstep
      exact ⟨k, ch, cont, c', hstep'.of_take.2, hp⟩
    cases mv with
    | spawn r' =>
      cases hn
      by_cases hlt : i < c.threads.length
      · rw [List.getElem?_append_left hlt] at hi
        exact hearlier hi
      · rw [List.getElem?_append_right (Nat.le_of_not_lt hlt)] at hi
        have hnew := List.mem_singleton.mp (List.mem_of_getElem? hi)
        simp at hnew
    | env e =>
      cases hn
      exact hearlier hi
    | step j ch =>
      obtain ⟨r', o', k', log', hj, rfl⟩ := m.next_step hn
      by_cases hij : j = i
      · subst hij
        rw [List.getElem?_set_self (List.getElem?_eq_some_iff.mp hj).1] at hi
        simp only [Option.some.injEq, Thread.mk.injEq] at hi
        obtain ⟨rfl, rfl, hlog⟩ := hi
        obtain ⟨rfl, ho⟩ := List.append_inj' hlog rfl
        cases ho
        refine ⟨ms.length, ch, k', c, ⟨?_, ?_, hj⟩, rfl⟩
        · simp
        · rwa [List.take_left]
      · rw [List.getElem?_set_ne hij] at hi
        exact hearlier hi

theorem step_in_log {s : S} {moves : List (Move Req C E)} {d : Conf Req Op Res Out S} {i : Nat}
    {r : Req} {p : Prog Op Res Out} (log : List Op) {after : List Op} {o : Op}
    (hd : m.run ⟨s, []⟩ moves = some d) (hi : d.threads[i]? = some ⟨r, p, log ++ o :: after⟩) :
    ∃ k ch cont c', m.StepsAt ⟨s, []⟩ moves k i ch r log o cont c' := by
  induction after using List.reverseRecOn generalizing moves d p with
  | nil =>
    obtain ⟨k, ch, cont, c', hstep, -⟩ := last_step _ hd hi
    exact ⟨k, ch, cont, c', hstep⟩
  | append_singleton after o' ih =>
    rw [← List.cons_append, ← List.append_assoc] at hi
    obtain ⟨n, ch, cont, c', hlast, -⟩ := last_step _ hd hi
    obtain ⟨k, ch, cont, c'', hstep⟩ := ih hlast.reached hlast.thread
    exact ⟨k, ch, cont, c'', hstep.of_take.2⟩

theorem run_reqs {s : S} {moves : List (Move Req C E)} {d : Conf Req Op Res Out S}
    (hd : m.run ⟨s, []⟩ moves = some d) :
    d.threads.map Thread.req = moves.filterMap Move.request? := by
  induction moves using List.reverseRecOn generalizing d with
  | nil =>
    cases hd
    rfl
  | append_singleton ms mv ih =>
    rw [run_snoc] at hd
    obtain ⟨c, hc, hn⟩ := Option.bind_eq_some_iff.mp hd
    rw [List.filterMap_append, ← ih hc]
    cases mv with
    | spawn r =>
      cases hn
      simp [Move.request?]
    | env e =>
      cases hn
      simp [Move.request?]
    | step i ch =>
      obtain ⟨r, o, k, log, hget, rfl⟩ := m.next_step hn
      obtain ⟨hlt, hthread⟩ := List.getElem?_eq_some_iff.mp hget
      have hlt' : i < (c.threads.map Thread.req).length := by rwa [List.length_map]
      have hreq : (c.threads.map Thread.req)[i] = r := by rw [List.getElem_map, hthread]
      have hself := List.set_getElem_self hlt'
      rw [hreq] at hself
      rw [List.map_set, hself]
      simp [Move.request?]

theorem run_spawned {s : S} {moves : List (Move Req C E)} {d : Conf Req Op Res Out S}
    (hd : m.run ⟨s, []⟩ moves = some d) {t : Thread Req Op Res Out} (ht : t ∈ d.threads) :
    .spawn t.req ∈ moves := by
  have hmem := List.mem_map_of_mem (f := Thread.req) ht
  rw [run_reqs hd] at hmem
  obtain ⟨mv, hmv, hreq⟩ := List.mem_filterMap.mp hmem
  cases mv with
  | spawn r => exact Option.some.inj hreq ▸ hmv
  | step | env => cases hreq

/-- Of requests that draw pairwise different values, two threads with one value are one. -/
theorem thread_unique {β : Type*} {s : S} {moves : List (Move Req C E)}
    {d : Conf Req Op Res Out S} {draw : Req → Option β}
    (hfresh : ((moves.filterMap Move.request?).filterMap draw).Nodup)
    (hd : m.run ⟨s, []⟩ moves = some d) {i j : Nat} {t t' : Thread Req Op Res Out} {b : β}
    (hi : d.threads[i]? = some t) (hj : d.threads[j]? = some t') (ht : draw t.req = some b)
    (ht' : draw t'.req = some b) : i = j := by
  rw [← run_reqs hd, List.filterMap_map, List.Nodup, List.pairwise_filterMap,
    List.pairwise_iff_getElem] at hfresh
  obtain ⟨hlt, rfl⟩ := List.getElem?_eq_some_iff.mp hi
  obtain ⟨hlt', rfl⟩ := List.getElem?_eq_some_iff.mp hj
  obtain h | h | h := Nat.lt_trichotomy i j
  · exact absurd rfl (hfresh i j hlt hlt' h b ht b ht')
  · exact h
  · exact absurd rfl (hfresh j i hlt' hlt h b ht' b ht)

section Part
variable {β : Type*} (f : S → β)

theorem run_unchanged {c cₖ cₙ : Conf Req Op Res Out S} {moves : List (Move Req C E)} {k n : Nat}
    (hkn : k ≤ n) (hk : m.run c (moves.take k) = some cₖ) (hn : m.run c (moves.take n) = some cₙ)
    (h : ∀ j c₁ mv c₂, k ≤ j → j < n → m.run c (moves.take j) = some c₁ → moves[j]? = some mv →
      m.next c₁ mv = some c₂ → f c₂.world = f c₁.world) : f cₙ.world = f cₖ.world := by
  induction hkn generalizing cₙ with
  | refl =>
    rw [hk] at hn
    cases hn
    rfl
  | @step n hkn ih =>
    obtain ⟨c₁, hc₁, -⟩ := run_take hn n
    rw [List.take_take, Nat.min_eq_left (Nat.le_succ n)] at hc₁
    have hbefore := ih hc₁ fun j c₁ mv c₂ hkj hjn => h j c₁ mv c₂ hkj (by omega)
    cases hmv : moves[n]? with
    | none =>
      rw [List.take_add_one, hmv, Option.toList_none, List.append_nil, hc₁] at hn
      cases hn
      exact hbefore
    | some mv =>
      rw [run_take_succ hmv hc₁] at hn
      exact (h n c₁ mv cₙ hkn (Nat.lt_succ_self n) hc₁ hmv hn).trans hbefore

/-- Where a part of the world is not as it was, some move made it what it is, and it has
been that since. -/
theorem last_change {c cₙ : Conf Req Op Res Out S} {moves : List (Move Req C E)} {n : Nat}
    (hn : m.run c (moves.take n) = some cₙ) (hne : f cₙ.world ≠ f c.world) :
    ∃ k c₁ mv c₂, k < n ∧ m.run c (moves.take k) = some c₁ ∧ moves[k]? = some mv ∧
      m.next c₁ mv = some c₂ ∧ f c₂.world ≠ f c₁.world ∧ f c₂.world = f cₙ.world ∧
      ∀ j c', k < j → j ≤ n → m.run c (moves.take j) = some c' → f c'.world = f cₙ.world := by
  induction n generalizing cₙ with
  | zero =>
    cases hn
    exact absurd rfl hne
  | succ n ih =>
    obtain ⟨c₁, hc₁, -⟩ := run_take hn n
    rw [List.take_take, Nat.min_eq_left (Nat.le_succ n)] at hc₁
    by_cases hlast : f cₙ.world = f c₁.world
    · obtain ⟨k, c₀, mv, c₂, hkn, hreached, hmove, hnext, hchange, heq, hsince⟩ :=
        ih hc₁ (hlast ▸ hne)
      refine ⟨k, c₀, mv, c₂, by omega, hreached, hmove, hnext, hchange, heq.trans hlast.symm, ?_⟩
      intro j c' hkj hjn hj
      by_cases hj' : j = n + 1
      · subst hj'
        rw [hn] at hj
        cases hj
        rfl
      · exact (hsince j c' hkj (by omega) hj).trans hlast.symm
    · cases hmv : moves[n]? with
      | none =>
        rw [List.take_add_one, hmv, Option.toList_none, List.append_nil, hc₁] at hn
        cases hn
        exact absurd rfl hlast
      | some mv =>
        refine ⟨n, c₁, mv, cₙ, Nat.lt_succ_self n, hc₁, hmv, ?_, hlast, rfl, ?_⟩
        · rwa [run_take_succ hmv hc₁] at hn
        · intro j c' hnj hjn hj
          obtain rfl : j = n + 1 := by omega
          rw [hn] at hj
          cases hj
          rfl

end Part

end Machine
end Interaction
