import OcrService.Interaction.Answers
import Mathlib.Data.List.Nodup

/-! Programs behind a guard: a request is first examined, by a program with operations of its
own, and only what that passes on is served. Seen without the guard, a run of many such
requests is a run of the machine behind it. -/
namespace Interaction

universe u v w

variable {Req : Type*} {Req' : Type w} {GOp Op : Type u} {GRes : GOp → Type v} {Res : Op → Type v}
variable {Out Out' : Type w}

namespace Prog

def served (GRes : GOp → Type v) (finish : Out' → Out) (p : Prog Op Res Out') :
    Prog (GOp ⊕ Op) (Sum.elim GRes Res) Out :=
  (p >>= fun a => ret (finish a)).lift Sum.inr fun _ x => x

def behind (guard : Prog GOp GRes (Except Out Req')) (serve : Req' → Prog Op Res Out')
    (finish : Out' → Out) : Prog (GOp ⊕ Op) (Sum.elim GRes Res) Out :=
  guard.lift Sum.inl (fun _ x => x) >>= fun
    | .error out => ret out
    | .ok r => (serve r).served GRes finish

variable {serve : Req' → Prog Op Res Out'} {finish : Out' → Out}

@[simp] theorem served_ret (a : Out') :
    (ret a : Prog Op Res Out').served GRes finish = ret (finish a) := rfl

theorem served_ask (o : Op) (k : Res o → Prog Op Res Out') :
    (ask o k).served GRes finish = ask (Sum.inr o) fun x => (k x).served GRes finish := rfl

@[simp] theorem behind_error (out : Out) :
    (ret (.error out) : Prog GOp GRes (Except Out Req')).behind serve finish = ret out := rfl

@[simp] theorem behind_ok (r : Req') :
    (ret (.ok r) : Prog GOp GRes (Except Out Req')).behind serve finish =
      (serve r).served GRes finish := rfl

theorem behind_ask (o : GOp) (k : GRes o → Prog GOp GRes (Except Out Req')) :
    (ask o k).behind serve finish = ask (Sum.inl o) fun x => (k x).behind serve finish := rfl

theorem served_eq_ask {p : Prog Op Res Out'} {o : GOp ⊕ Op}
    {k : Sum.elim GRes Res o → Prog (GOp ⊕ Op) (Sum.elim GRes Res) Out}
    (h : p.served GRes finish = ask o k) :
    ∃ o' k', p = ask o' k' ∧
      (ask o k : Prog (GOp ⊕ Op) (Sum.elim GRes Res) Out) =
        ask (Sum.inr o') fun x => (k' x).served GRes finish := by
  cases p with
  | ret a => cases h
  | ask o' k' => exact ⟨o', k', rfl, h.symm⟩

def guardPart (e : Exchange GOp GRes) : Exchange (GOp ⊕ Op) (Sum.elim GRes Res) :=
  ⟨.inl e.op, e.answer⟩

def servicePart (e : Exchange Op Res) : Exchange (GOp ⊕ Op) (Sum.elim GRes Res) :=
  ⟨.inr e.op, e.answer⟩

theorem after_served {p : Prog Op Res Out'}
    {h : List (Exchange (GOp ⊕ Op) (Sum.elim GRes Res))}
    {q : Prog (GOp ⊕ Op) (Sum.elim GRes Res) Out} (hp : (p.served GRes finish).After h q) :
    ∃ hs p', h = hs.map servicePart ∧ p.After hs p' ∧ q = p'.served GRes finish := by
  induction p generalizing h with
  | ret a =>
    obtain ⟨rfl, rfl⟩ := after_ret.mp hp
    exact ⟨[], ret a, rfl, .refl _, rfl⟩
  | ask o k ih =>
    rw [served_ask] at hp
    obtain ⟨rfl, rfl⟩ | ⟨x, h', rfl, hx⟩ := after_ask.mp hp
    · exact ⟨[], ask o k, rfl, .refl _, rfl⟩
    · obtain ⟨hs, p', rfl, hp', rfl⟩ := ih x hx
      exact ⟨⟨o, x⟩ :: hs, p', rfl, .ask hp', rfl⟩

theorem after_behind {guard : Prog GOp GRes (Except Out Req')}
    {h : List (Exchange (GOp ⊕ Op) (Sum.elim GRes Res))}
    {q : Prog (GOp ⊕ Op) (Sum.elim GRes Res) Out} (hp : (guard.behind serve finish).After h q) :
    (∃ hg g, h = hg.map guardPart ∧ guard.After hg g ∧ q = g.behind serve finish) ∨
      ∃ hg hs r p, h = hg.map guardPart ++ hs.map servicePart ∧ guard.After hg (ret (.ok r)) ∧
        (serve r).After hs p ∧ q = p.served GRes finish := by
  induction guard generalizing h with
  | ret result =>
    cases result with
    | error out =>
      obtain ⟨rfl, rfl⟩ := after_ret.mp hp
      exact .inl ⟨[], _, rfl, .refl _, rfl⟩
    | ok r =>
      obtain ⟨hs, p, rfl, hp', rfl⟩ := after_served hp
      exact .inr ⟨[], hs, r, p, rfl, .refl _, hp', rfl⟩
  | ask o k ih =>
    rw [behind_ask] at hp
    obtain ⟨rfl, rfl⟩ | ⟨x, h', rfl, hx⟩ := after_ask.mp hp
    · exact .inl ⟨[], ask o k, rfl, .refl _, rfl⟩
    · obtain ⟨hg, g, rfl, hguard, rfl⟩ | ⟨hg, hs, r, p, rfl, hguard, hserve, rfl⟩ := ih x hx
      · exact .inl ⟨⟨o, x⟩ :: hg, g, rfl, .ask hguard, rfl⟩
      · exact .inr ⟨⟨o, x⟩ :: hg, hs, r, p, rfl, .ask hguard, hserve, rfl⟩

end Prog

namespace Machine
variable {C CG E EG S GS : Type*}

/-- The machine, each of its requests behind a guard that works on a world of its own. -/
def behind (m : Machine Req' Op Res Out' C E S) (guard : Req → Prog GOp GRes (Except Out Req'))
    (finish : Req → Out' → Out) (handle : CG → (o : GOp) → GS → GRes o × GS)
    (env : EG → GS → GS) :
    Machine Req (GOp ⊕ Op) (Sum.elim GRes Res) Out (CG × C) (EG ⊕ E) (GS × S) where
  start r := (guard r).behind m.start (finish r)
  handle ch
    | .inl o, s => ((handle ch.1 o s.1).1, (handle ch.1 o s.1).2, s.2)
    | .inr o, s => ((m.handle ch.2 o s.2).1, s.1, (m.handle ch.2 o s.2).2)
  env
    | .inl e, s => (env e s.1, s.2)
    | .inr e, s => (s.1, m.env e s.2)

variable {m : Machine Req' Op Res Out' C E S} {guard : Req → Prog GOp GRes (Except Out Req')}
variable {finish : Req → Out' → Out} {handle : CG → (o : GOp) → GS → GRes o × GS}
variable {env : EG → GS → GS}

abbrev GuardedThread (Req : Type*) {GOp Op : Type u} (GRes : GOp → Type v) (Res : Op → Type v)
    (Out : Type w) := Thread Req (GOp ⊕ Op) (Sum.elim GRes Res) Out

variable (m guard finish) in
def Examined (t : GuardedThread Req GRes Res Out) : Prop :=
  ∃ h g, (guard t.req).After h g ∧ t.prog = g.behind m.start (finish t.req) ∧
    t.log = h.map (fun e => Sum.inl e.op) ∧ ∀ r, g ≠ .ret (.ok r)

variable (guard finish) in
def Passed (t : GuardedThread Req GRes Res Out) (t' : Thread Req' Op Res Out') : Prop :=
  ∃ h, (guard t.req).After h (.ret (.ok t'.req)) ∧ t.prog = t'.prog.served GRes (finish t.req) ∧
    t.log = h.map (fun e => Sum.inl e.op) ++ t'.log.map Sum.inr

variable (m guard finish) in
/-- The `j`-th request of the machine behind is the one that thread `ids[j]` was let pass. -/
structure SeenBehind (c : Conf Req (GOp ⊕ Op) (Sum.elim GRes Res) Out (GS × S))
    (d : Conf Req' Op Res Out' S) (ids : List Nat) : Prop where
  world : d.world = c.world.2
  nodup : ids.Nodup
  length : ids.length = d.threads.length
  passed : ∀ j i : Nat, ids[j]? = some i → ∃ t t', c.threads[i]? = some t ∧
    d.threads[j]? = some t' ∧ Passed guard finish t t'
  examined : ∀ (i : Nat) t, c.threads[i]? = some t → i ∉ ids → Examined m guard finish t

section Step
variable {c : Conf Req (GOp ⊕ Op) (Sum.elim GRes Res) Out (GS × S)}
variable {d : Conf Req' Op Res Out' S} {ids : List Nat}

variable (m finish) in
/-- What the guard says next decides whether the thread is served from now on. -/
theorem examined_or_passed {r : Req} {h : List (Exchange GOp GRes)}
    {g : Prog GOp GRes (Except Out Req')} (hg : (guard r).After h g) :
    Examined m guard finish ⟨r, g.behind m.start (finish r), h.map fun e => Sum.inl e.op⟩ ∨
      ∃ r', Passed guard finish
        ⟨r, g.behind m.start (finish r), h.map fun e => Sum.inl e.op⟩ ⟨r', m.start r', []⟩ := by
  by_cases hok : ∃ r', g = .ret (.ok r')
  · obtain ⟨r', rfl⟩ := hok
    exact .inr ⟨r', h, hg, rfl, by simp⟩
  · exact .inl ⟨h, g, hg, rfl, rfl, fun r' he => hok ⟨r', he⟩⟩

theorem SeenBehind.pass (hs : SeenBehind m guard finish c d ids) {i : Nat} (hi : i ∉ ids)
    {threads : List (GuardedThread Req GRes Res Out)} {s : GS × S}
    (hworld : d.world = s.2) {t : GuardedThread Req GRes Res Out}
    (ht : threads[i]? = some t)
    (hothers : ∀ j, j ≠ i → threads[j]? = c.threads[j]?) {r' : Req'}
    (hp : Passed guard finish t ⟨r', m.start r', []⟩) :
    ∃ d', m.next d (.spawn r') = some d' ∧
      SeenBehind m guard finish ⟨s, threads⟩ d' (ids ++ [i]) := by
  refine ⟨_, rfl, hworld, ?_, by simp [hs.length], ?_, ?_⟩
  · exact List.nodup_append.mpr ⟨hs.nodup, by simp, by
      rintro a ha b hb rfl
      exact hi (List.mem_singleton.mp hb ▸ ha)⟩
  · intro j k hjk
    by_cases hj : j < ids.length
    · rw [List.getElem?_append_left hj] at hjk
      obtain ⟨u, u', hu, hu', hpassed⟩ := hs.passed j k hjk
      have hne : k ≠ i := fun h => hi (h ▸ List.mem_of_getElem? hjk)
      refine ⟨u, u', (hothers k hne).trans hu, ?_, hpassed⟩
      rw [List.getElem?_append_left (hs.length ▸ hj), hu']
    · rw [List.getElem?_append_right (Nat.le_of_not_lt hj)] at hjk
      obtain ⟨hzero, rfl⟩ : j - ids.length = 0 ∧ i = k := by
        cases hn : j - ids.length with
        | zero => simpa [hn] using hjk
        | succ n => simp [hn] at hjk
      refine ⟨t, _, ht, ?_, hp⟩
      have hlen := hs.length
      rw [List.getElem?_append_right (by omega), show j - d.threads.length = 0 by omega]
      rfl
  · intro k u hu hk
    rw [List.mem_append, List.mem_singleton, not_or] at hk
    exact hs.examined k u ((hothers k hk.2).symm.trans hu) hk.1

theorem SeenBehind.examine (hs : SeenBehind m guard finish c d ids) {i : Nat} (hi : i ∉ ids)
    {threads : List (GuardedThread Req GRes Res Out)} {s : GS × S}
    (hworld : d.world = s.2) {t : GuardedThread Req GRes Res Out}
    (ht : threads[i]? = some t)
    (hothers : ∀ j, j ≠ i → threads[j]? = c.threads[j]?) (he : Examined m guard finish t) :
    SeenBehind m guard finish ⟨s, threads⟩ d ids := by
  refine ⟨hworld, hs.nodup, hs.length, ?_, ?_⟩
  · intro j k hjk
    obtain ⟨u, u', hu, hu', hpassed⟩ := hs.passed j k hjk
    have hne : k ≠ i := fun h => hi (h ▸ List.mem_of_getElem? hjk)
    exact ⟨u, u', (hothers k hne).trans hu, hu', hpassed⟩
  · intro k u hu hk
    by_cases hki : k = i
    · subst hki
      rw [ht] at hu
      cases hu
      exact he
    · exact hs.examined k u ((hothers k hki).symm.trans hu) hk

theorem SeenBehind.lt (hs : SeenBehind m guard finish c d ids) {i : Nat} (hi : i ∈ ids) :
    i < c.threads.length := by
  obtain ⟨j, hj⟩ := List.getElem?_of_mem hi
  obtain ⟨t, -, ht, -⟩ := hs.passed j i hj
  exact (List.getElem?_eq_some_iff.mp ht).1

theorem SeenBehind.change (hs : SeenBehind m guard finish c d ids) (e : EG ⊕ E) :
    ∃ moves d', m.run d moves = some d' ∧ SeenBehind m guard finish
      ⟨(m.behind guard finish handle env).env e c.world, c.threads⟩ d' ids := by
  cases e with
  | inl e => exact ⟨[], d, rfl, hs.world, hs.nodup, hs.length, hs.passed, hs.examined⟩
  | inr e =>
    exact ⟨[.env e], _, rfl, congrArg (m.env e) hs.world, hs.nodup, hs.length, hs.passed,
      hs.examined⟩

theorem SeenBehind.spawn (hs : SeenBehind m guard finish c d ids) (r : Req) :
    ∃ moves d' ids', m.run d moves = some d' ∧ SeenBehind m guard finish
      ⟨c.world, c.threads ++ [⟨r, (guard r).behind m.start (finish r), []⟩]⟩ d' ids' := by
  let t : GuardedThread Req GRes Res Out := ⟨r, (guard r).behind m.start (finish r), []⟩
  have hnew : c.threads.length ∉ ids := fun h => Nat.lt_irrefl _ (hs.lt h)
  have hget : (c.threads ++ [t])[c.threads.length]? = some t := by simp
  have hothers : ∀ j, j ≠ c.threads.length → (c.threads ++ [t])[j]? = c.threads[j]? := by
    intro j hj
    obtain h | h := Nat.lt_or_gt_of_ne hj
    · exact List.getElem?_append_left h
    · have hlen : (c.threads ++ [t]).length ≤ j := by
        rw [List.length_append]
        exact h
      rw [List.getElem?_eq_none hlen, List.getElem?_eq_none (Nat.le_of_lt h)]
  obtain he | ⟨r', hp⟩ := examined_or_passed m finish (Prog.After.refl (guard r))
  · exact ⟨[], d, ids, rfl, hs.examine hnew hs.world hget hothers he⟩
  · obtain ⟨d', hd', hs'⟩ := hs.pass hnew hs.world hget hothers hp
    exact ⟨[.spawn r'], d', _, by simpa [run] using hd', hs'⟩

theorem Passed.step {r : Req} {o : GOp ⊕ Op}
    {k : Sum.elim GRes Res o → Prog (GOp ⊕ Op) (Sum.elim GRes Res) Out} {log : List (GOp ⊕ Op)}
    {t' : Thread Req' Op Res Out'} (hp : Passed guard finish ⟨r, .ask o k, log⟩ t') :
    ∃ o' k', t'.prog = .ask o' k' ∧
      (Prog.ask o k : Prog (GOp ⊕ Op) (Sum.elim GRes Res) Out) =
        .ask (.inr o') (fun x => (k' x).served GRes (finish r)) ∧
      ∀ x, Passed guard finish ⟨r, (k' x).served GRes (finish r), log ++ [.inr o']⟩
        ⟨t'.req, k' x, t'.log ++ [o']⟩ := by
  obtain ⟨h, hguard, hprog, hlog⟩ := hp
  obtain ⟨o', k', hask, heq⟩ := Prog.served_eq_ask (Eq.symm hprog)
  refine ⟨o', k', hask, heq, fun x => ⟨h, hguard, rfl, ?_⟩⟩
  have hlog : log = h.map (fun e => Sum.inl e.op) ++ t'.log.map Sum.inr := hlog
  simp [hlog]

/-- A thread that is being served moves, and so does its counterpart. -/
theorem SeenBehind.serve (hs : SeenBehind m guard finish c d ids) {i j : Nat}
    (hj : ids[j]? = some i) {t t₁ : GuardedThread Req GRes Res Out}
    {t' t₁' : Thread Req' Op Res Out'} (hi : c.threads[i]? = some t)
    (ht' : d.threads[j]? = some t') (hp : Passed guard finish t₁ t₁') {s : GS × S} :
    SeenBehind m guard finish ⟨s, c.threads.set i t₁⟩ ⟨s.2, d.threads.set j t₁'⟩ ids := by
  have hmem : i ∈ ids := List.mem_of_getElem? hj
  refine ⟨rfl, hs.nodup, by simp [hs.length], fun j₁ i₁ hj₁ => ?_, fun i₁ u hu hi₁ => ?_⟩
  · by_cases hji : j₁ = j
    · subst hji
      rw [hj] at hj₁
      cases hj₁
      exact ⟨t₁, t₁', List.getElem?_set_self (List.getElem?_eq_some_iff.mp hi).1,
        List.getElem?_set_self (List.getElem?_eq_some_iff.mp ht').1, hp⟩
    · obtain ⟨u, u', hu, hu', hpassed⟩ := hs.passed j₁ i₁ hj₁
      have hne : i₁ ≠ i := by
        rintro rfl
        obtain ⟨_, he₁⟩ := List.getElem?_eq_some_iff.mp hj₁
        obtain ⟨_, he₂⟩ := List.getElem?_eq_some_iff.mp hj
        exact hji ((List.Nodup.getElem_inj_iff hs.nodup).mp (he₁.trans he₂.symm))
      exact ⟨u, u', (List.getElem?_set_ne (Ne.symm hne)).trans hu,
        (List.getElem?_set_ne (Ne.symm hji)).trans hu', hpassed⟩
  · have hne : i₁ ≠ i := fun h => hi₁ (h ▸ hmem)
    exact hs.examined i₁ u ((List.getElem?_set_ne (Ne.symm hne)).symm.trans hu) hi₁

theorem Examined.step {r : Req} {o : GOp ⊕ Op}
    {k : Sum.elim GRes Res o → Prog (GOp ⊕ Op) (Sum.elim GRes Res) Out} {log : List (GOp ⊕ Op)}
    (he : Examined m guard finish ⟨r, .ask o k, log⟩) :
    ∃ (o' : GOp) (k' : GRes o' → Prog GOp GRes (Except Out Req')),
      (Prog.ask o k : Prog (GOp ⊕ Op) (Sum.elim GRes Res) Out) =
        .ask (.inl o') (fun x => (k' x).behind m.start (finish r)) ∧
      ∀ x, let t : GuardedThread Req GRes Res Out :=
          ⟨r, (k' x).behind m.start (finish r), log ++ [.inl o']⟩
        Examined m guard finish t ∨ ∃ r', Passed guard finish t ⟨r', m.start r', []⟩ := by
  obtain ⟨h, g, hguard, hprog, hlog, hnot⟩ := he
  cases g with
  | ret result =>
    cases result with
    | error out => cases hprog
    | ok r' => exact absurd rfl (hnot r')
  | ask o' k' =>
    refine ⟨o', k', hprog, fun x => ?_⟩
    have hlog : log = h.map fun e => Sum.inl e.op := hlog
    have hsnoc := examined_or_passed m finish (hguard.snoc x)
    rw [List.map_append, ← hlog] at hsnoc
    exact hsnoc

theorem SeenBehind.step (hs : SeenBehind m guard finish c d ids) {i : Nat} {ch : CG × C} {r : Req}
    {o : GOp ⊕ Op} {k : Sum.elim GRes Res o → Prog (GOp ⊕ Op) (Sum.elim GRes Res) Out}
    {log : List (GOp ⊕ Op)} (hi : c.threads[i]? = some ⟨r, .ask o k, log⟩) :
    let answered := (m.behind guard finish handle env).handle ch o c.world
    ∃ moves d' ids', m.run d moves = some d' ∧ SeenBehind m guard finish
      ⟨answered.2, c.threads.set i ⟨r, k answered.1, log ++ [o]⟩⟩ d' ids' := by
  by_cases hmem : i ∈ ids
  · obtain ⟨j, hj⟩ := List.getElem?_of_mem hmem
    obtain ⟨t, ⟨r', p', log'⟩, ht, ht', hp⟩ := hs.passed j i hj
    obtain rfl : _ = t := Option.some.inj (hi.symm.trans ht)
    obtain ⟨o', k', rfl, hask, hpassed⟩ := hp.step
    cases hask
    have hnext : m.run d [.step j ch.2] = some ⟨(m.handle ch.2 o' c.world.2).2,
        d.threads.set j ⟨r', k' (m.handle ch.2 o' c.world.2).1, log' ++ [o']⟩⟩ := by
      simp [run, next, ht', hs.world]
    exact ⟨_, _, ids, hnext, hs.serve hj hi ht' (hpassed _)⟩
  · obtain ⟨o', k', hask, hnext⟩ := (hs.examined i _ hi hmem).step
    cases hask
    have hself : ∀ t : GuardedThread Req GRes Res Out, (c.threads.set i t)[i]? = some t := fun t =>
      List.getElem?_set_self (List.getElem?_eq_some_iff.mp hi).1
    have hothers : ∀ t : GuardedThread Req GRes Res Out, ∀ j, j ≠ i →
        (c.threads.set i t)[j]? = c.threads[j]? := fun t j hj => List.getElem?_set_ne (Ne.symm hj)
    have hworld : d.world =
        ((m.behind guard finish handle env).handle ch (.inl o') c.world).2.2 := hs.world
    obtain he | ⟨r', hp⟩ := hnext (handle ch.1 o' c.world.1).1
    · exact ⟨[], d, ids, rfl, hs.examine hmem hworld (hself _) (hothers _) he⟩
    · obtain ⟨d', hd', hs'⟩ := hs.pass hmem hworld (hself _) (hothers _) hp
      exact ⟨[.spawn r'], d', _, by simpa [run] using hd', hs'⟩

/-- One move of the guarded machine: no move behind the guard, or one. -/
theorem SeenBehind.move (hs : SeenBehind m guard finish c d ids)
    {mv : Move Req (CG × C) (EG ⊕ E)}
    {c' : Conf Req (GOp ⊕ Op) (Sum.elim GRes Res) Out (GS × S)}
    (hn : (m.behind guard finish handle env).next c mv = some c') :
    ∃ moves d' ids', m.run d moves = some d' ∧ SeenBehind m guard finish c' d' ids' := by
  cases mv with
  | env e =>
    cases hn
    obtain ⟨moves, d', hd', hs'⟩ := hs.change e
    exact ⟨moves, d', ids, hd', hs'⟩
  | spawn r =>
    cases hn
    exact hs.spawn r
  | step i ch =>
    obtain ⟨r, o, k, log, hi, rfl⟩ := next_step _ hn
    exact hs.step hi

end Step

/-- A run of guarded requests is a run of the machine behind the guard, and says which of them
each of its requests is. -/
theorem run_behind {g : GS} {s : S} {moves : List (Move Req (CG × C) (EG ⊕ E))}
    {c : Conf Req (GOp ⊕ Op) (Sum.elim GRes Res) Out (GS × S)}
    (hc : (m.behind guard finish handle env).run ⟨(g, s), []⟩ moves = some c) :
    ∃ moves' d ids, m.run ⟨s, []⟩ moves' = some d ∧ SeenBehind m guard finish c d ids := by
  refine run_last (fun c => ∃ moves' d ids, m.run ⟨s, []⟩ moves' = some d ∧
    SeenBehind m guard finish c d ids) ?_ ?_ hc
  · rintro c mv c' ⟨ms, d, ids, hd, hs⟩ hn
    obtain ⟨ms', d', ids', hd', hs'⟩ := hs.move hn
    exact ⟨ms ++ ms', d', ids', by rw [run_append, hd]; exact hd', hs'⟩
  · exact ⟨[], ⟨s, []⟩, [], rfl, rfl, List.nodup_nil, rfl, by simp, by simp⟩

end Machine
end Interaction
