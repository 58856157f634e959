import OcrService.Interaction.History

/-! What a thread has been told. A program together with the answers it got says what it did
and where it stands, whoever else was running; so a statement about one thread of a run is
one about its program and a list of answers. -/
namespace Interaction

universe u v w

structure Exchange (Op : Type u) (Res : Op → Type v) where
  op : Op
  answer : Res op

namespace Prog
variable {Op : Type u} {Res : Op → Type v} {α β : Type w}

/-- `p.After h q`: told the answers of `h` to what it asked, `p` goes on as `q`. -/
inductive After : Prog Op Res α → List (Exchange Op Res) → Prog Op Res α → Prop
  | refl (p : Prog Op Res α) : After p [] p
  | ask {o : Op} {k : Res o → Prog Op Res α} {x : Res o} {h : List (Exchange Op Res)}
      {q : Prog Op Res α} : After (k x) h q → After (.ask o k) (⟨o, x⟩ :: h) q

@[simp] theorem after_nil {p q : Prog Op Res α} : p.After [] q ↔ q = p := by
  constructor
  · intro h
    cases h
    rfl
  · rintro rfl
    exact .refl _

@[simp] theorem after_ret {a : α} {h : List (Exchange Op Res)} {q : Prog Op Res α} :
    (ret a : Prog Op Res α).After h q ↔ h = [] ∧ q = ret a := by
  constructor
  · intro h
    cases h
    exact ⟨rfl, rfl⟩
  · rintro ⟨rfl, rfl⟩
    exact .refl _

theorem after_ask {o : Op} {k : Res o → Prog Op Res α} {h : List (Exchange Op Res)}
    {q : Prog Op Res α} :
    (Prog.ask o k).After h q ↔
      h = [] ∧ q = .ask o k ∨ ∃ x h', h = ⟨o, x⟩ :: h' ∧ (k x).After h' q := by
  constructor
  · intro h
    cases h with
    | refl => exact .inl ⟨rfl, rfl⟩
    | ask h => exact .inr ⟨_, _, rfl, h⟩
  · rintro (⟨rfl, rfl⟩ | ⟨x, h', rfl, h⟩)
    · exact .refl _
    · exact .ask h

theorem after_ask_ret {o : Op} {k : Res o → Prog Op Res α} {h : List (Exchange Op Res)} {a : α} :
    (Prog.ask o k).After h (ret a) ↔ ∃ x h', h = ⟨o, x⟩ :: h' ∧ (k x).After h' (ret a) := by
  rw [after_ask]
  simp

theorem After.snoc {p : Prog Op Res α} {h : List (Exchange Op Res)} {o : Op}
    {k : Res o → Prog Op Res α} (hp : p.After h (.ask o k)) (x : Res o) :
    p.After (h ++ [⟨o, x⟩]) (k x) := by
  generalize hq : Prog.ask o k = q at hp
  induction hp with
  | refl p =>
    subst hq
    exact .ask (.refl _)
  | ask _ ih => exact .ask (ih hq)

theorem After.trans {p q r : Prog Op Res α} {h h' : List (Exchange Op Res)} (hp : p.After h q)
    (hq : q.After h' r) : p.After (h ++ h') r := by
  induction hp with
  | refl p => exact hq
  | ask _ ih => exact .ask (ih hq)

theorem After.split {p r : Prog Op Res α} {h h' : List (Exchange Op Res)}
    (hp : p.After (h ++ h') r) : ∃ q, p.After h q ∧ q.After h' r := by
  induction h generalizing p with
  | nil => exact ⟨p, .refl p, hp⟩
  | cons e h ih =>
    cases hp with
    | ask hp =>
      obtain ⟨q, hq, hr⟩ := ih hp
      exact ⟨q, .ask hq, hr⟩

theorem After.next {p r : Prog Op Res α} {h h' : List (Exchange Op Res)} {e : Exchange Op Res}
    (hp : p.After (h ++ e :: h') r) : ∃ k, p.After h (.ask e.op k) := by
  obtain ⟨q, hq, hr⟩ := hp.split
  cases hr with
  | ask hr => exact ⟨_, hq⟩

theorem after_bind {p : Prog Op Res α} {f : α → Prog Op Res β} {h : List (Exchange Op Res)}
    {q : Prog Op Res β} :
    (p >>= f).After h q ↔
      (∃ p', p.After h p' ∧ q = p' >>= f) ∨
        ∃ h₁ h₂ a, h = h₁ ++ h₂ ∧ p.After h₁ (ret a) ∧ (f a).After h₂ q := by
  constructor
  · intro hq
    induction p generalizing h with
    | ret a => exact .inr ⟨[], h, a, rfl, .refl _, hq⟩
    | ask o k ih =>
      have hask : (Prog.ask o fun x => k x >>= f).After h q := hq
      obtain ⟨rfl, rfl⟩ | ⟨x, h', rfl, h⟩ := after_ask.mp hask
      · exact .inl ⟨.ask o k, .refl _, rfl⟩
      · obtain ⟨p', hp', rfl⟩ | ⟨h₁, h₂, a, rfl, ha, hf⟩ := ih x h
        · exact .inl ⟨p', .ask hp', rfl⟩
        · exact .inr ⟨⟨o, x⟩ :: h₁, h₂, a, rfl, .ask ha, hf⟩
  · rintro (⟨p', hp', rfl⟩ | ⟨h₁, h₂, a, rfl, ha, hf⟩)
    · induction hp' with
      | refl p => exact .refl _
      | ask _ ih => exact .ask ih
    · generalize hr : (ret a : Prog Op Res α) = r at ha
      induction ha with
      | refl p =>
        subst hr
        exact hf
      | ask _ ih => exact .ask (ih hr)

theorem after_bind_ret {p : Prog Op Res α} {f : α → Prog Op Res β} {h : List (Exchange Op Res)}
    {b : β} :
    (p >>= f).After h (ret b) ↔
      ∃ h₁ h₂ a, h = h₁ ++ h₂ ∧ p.After h₁ (ret a) ∧ (f a).After h₂ (ret b) := by
  rw [after_bind]
  constructor
  · rintro (⟨p', hp', hq⟩ | h)
    · cases p' with
      | ret a => exact ⟨h, [], a, (List.append_nil h).symm, hp', by rw [after_nil]; exact hq⟩
      | ask o k => cases hq
    · exact h
  · exact .inr

theorem after_bind_ask {p : Prog Op Res α} {f : α → Prog Op Res β} {h : List (Exchange Op Res)}
    {o : Op} {k : Res o → Prog Op Res β} :
    (p >>= f).After h (ask o k) ↔
      (∃ k', p.After h (ask o k') ∧ k = fun x => k' x >>= f) ∨
        ∃ h₁ h₂ a, h = h₁ ++ h₂ ∧ p.After h₁ (ret a) ∧ (f a).After h₂ (ask o k) := by
  rw [after_bind]
  constructor
  · rintro (⟨p', hp', hq⟩ | h)
    · cases p' with
      | ret a =>
        refine .inr ⟨h, [], a, (List.append_nil h).symm, hp', ?_⟩
        rw [after_nil]
        exact hq
      | ask o' k' =>
        cases hq
        exact .inl ⟨k', hp', rfl⟩
    · exact .inr h
  · rintro (⟨k', hp', rfl⟩ | h)
    · exact .inl ⟨_, hp', rfl⟩
    · exact .inr h

theorem after_map {p : Prog Op Res α} {f : α → β} {h : List (Exchange Op Res)} {q : Prog Op Res β}
    (hq : (p >>= fun a => ret (f a)).After h q) :
    ∃ p', p.After h p' ∧ q = p' >>= fun a => ret (f a) := by
  obtain ⟨p', hp', rfl⟩ | ⟨h₁, h₂, a, rfl, ha, hf⟩ := after_bind.mp hq
  · exact ⟨p', hp', rfl⟩
  · obtain ⟨rfl, rfl⟩ := after_ret.mp hf
    exact ⟨ret a, by simpa using ha, rfl⟩

theorem after_map_ret {p : Prog Op Res α} {f : α → β} {h : List (Exchange Op Res)} {b : β}
    (hq : (p >>= fun a => ret (f a)).After h (ret b)) : ∃ a, p.After h (ret a) ∧ f a = b := by
  obtain ⟨p', hp', hb⟩ := after_map hq
  cases p' with
  | ret a =>
    cases hb
    exact ⟨a, hp', rfl⟩
  | ask o k => cases hb

theorem Uses.after {P : Op → Prop} {p q : Prog Op Res α} {h : List (Exchange Op Res)}
    (hp : p.Uses P) (ha : p.After h q) : (∀ e ∈ h, P e.op) ∧ q.Uses P := by
  induction ha with
  | refl p => exact ⟨by simp, hp⟩
  | ask _ ih =>
    obtain ⟨hall, hq⟩ := ih (hp.2 _)
    exact ⟨List.forall_mem_cons.mpr ⟨hp.1, hall⟩, hq⟩

section Lift
variable {Op' : Type*} {Res' : Op' → Type*} {f : Op → Op'} {g : (o : Op) → Res' (f o) → Res o}

inductive LiftOf (f : Op → Op') (g : (o : Op) → Res' (f o) → Res o) :
    Exchange Op Res → Exchange Op' Res' → Prop
  | mk (o : Op) (x : Res' (f o)) : LiftOf f g ⟨o, g o x⟩ ⟨f o, x⟩

theorem after_lift {p : Prog Op Res α} {h' : List (Exchange Op' Res')} {q : Prog Op' Res' α}
    (hp : (p.lift f g).After h' q) :
    ∃ h p', p.After h p' ∧ q = p'.lift f g ∧ List.Forall₂ (LiftOf f g) h h' := by
  induction p generalizing h' with
  | ret a =>
    obtain ⟨rfl, rfl⟩ := after_ret.mp hp
    exact ⟨[], ret a, .refl _, rfl, .nil⟩
  | ask o k ih =>
    obtain ⟨rfl, rfl⟩ | ⟨x, h'', rfl, hx⟩ := after_ask.mp hp
    · exact ⟨[], ask o k, .refl _, rfl, .nil⟩
    · obtain ⟨h, p', hp', rfl, hall⟩ := ih _ hx
      exact ⟨⟨o, g o x⟩ :: h, p', .ask hp', rfl, .cons (.mk o x) hall⟩

theorem after_lift_ret {p : Prog Op Res α} {h' : List (Exchange Op' Res')} {a : α}
    (hp : (p.lift f g).After h' (ret a)) :
    ∃ h, p.After h (ret a) ∧ List.Forall₂ (LiftOf f g) h h' := by
  obtain ⟨h, p', hp', hret, hall⟩ := after_lift hp
  cases p' with
  | ret b =>
    cases hret
    exact ⟨h, hp', hall⟩
  | ask o k => cases hret

theorem LiftOf.mem {h : List (Exchange Op Res)} {h' : List (Exchange Op' Res')}
    (hall : List.Forall₂ (LiftOf f g) h h') {o : Op} {x : Res o} (hmem : ⟨o, x⟩ ∈ h) :
    ∃ y, g o y = x ∧ ⟨f o, y⟩ ∈ h' := by
  induction hall with
  | nil => cases hmem
  | cons he _ ih =>
    obtain heq | hmem := List.mem_cons.mp hmem
    · cases he with
      | mk o y =>
        cases heq
        exact ⟨y, rfl, List.mem_cons_self⟩
    · obtain ⟨y, hy, hmem⟩ := ih hmem
      exact ⟨y, hy, List.mem_cons_of_mem _ hmem⟩

end Lift

end Prog

namespace Machine
variable {Req C E S : Type*} {Op : Type u} {Res : Op → Type v} {Out : Type w}
variable (m : Machine Req Op Res Out C E S)

def heard (i : Nat) (c : Conf Req Op Res Out S) : Move Req C E → Option (Exchange Op Res)
  | .step j ch =>
    if j = i then
      match c.threads[i]? with
      | some ⟨_, .ask o _, _⟩ => some ⟨o, (m.handle ch o c.world).1⟩
      | _ => none
    else none
  | .spawn _ | .env _ => none

/-- All that thread `i` hears on the run from `c`, in order. -/
def history (i : Nat) (c : Conf Req Op Res Out S) : List (Move Req C E) → List (Exchange Op Res)
  | [] => []
  | mv :: ms => (m.heard i c mv).toList ++
    match m.next c mv with
    | some d => history i d ms
    | none => []

theorem history_append (i : Nat) {c d : Conf Req Op Res Out S} {ms : List (Move Req C E)}
    (hd : m.run c ms = some d) (ms' : List (Move Req C E)) :
    m.history i c (ms ++ ms') = m.history i c ms ++ m.history i d ms' := by
  induction ms generalizing c with
  | nil =>
    cases hd
    rfl
  | cons mv ms ih =>
    obtain ⟨c', hn, hd⟩ := Option.bind_eq_some_iff.mp (show (m.next c mv).bind _ = some d from hd)
    simp only [List.cons_append, history, hn, ih hd, List.append_assoc]

theorem history_snoc (i : Nat) {c d : Conf Req Op Res Out S} {ms : List (Move Req C E)}
    {mv : Move Req C E} (hc : m.run c ms = some d) :
    m.history i c (ms ++ [mv]) = m.history i c ms ++ (m.heard i d mv).toList := by
  rw [history_append m i hc]
  simp only [history]
  cases m.next d mv <;> simp

variable {m}

theorem heard_step {c : Conf Req Op Res Out S} {i : Nat} {r : Req} {o : Op}
    {k : Res o → Prog Op Res Out} {log : List Op} (hi : c.threads[i]? = some ⟨r, .ask o k, log⟩)
    (ch : C) : m.heard i c (.step i ch) = some ⟨o, (m.handle ch o c.world).1⟩ := by
  simp only [heard, if_true, hi]

theorem run_histories {I : Conf Req Op Res Out S → (Nat → List (Exchange Op Res)) → Prop} {s : S}
    (h0 : I ⟨s, []⟩ fun _ => [])
    (hI : ∀ c mv d H, I c H → m.next c mv = some d →
      I d fun i => H i ++ (m.heard i c mv).toList)
    {moves : List (Move Req C E)} {d : Conf Req Op Res Out S}
    (hd : m.run ⟨s, []⟩ moves = some d) : I d fun i => m.history i ⟨s, []⟩ moves := by
  induction moves using List.reverseRecOn generalizing d with
  | nil =>
    cases hd
    exact h0
  | append_singleton ms mv ih =>
    rw [run_snoc] at hd
    obtain ⟨c, hc, hn⟩ := Option.bind_eq_some_iff.mp hd
    have hnext := hI c mv d _ (ih hc) hn
    simpa only [history_snoc m _ hc] using hnext

/-- Every thread stands where its answers have brought the program of its request, and only
threads have heard anything. -/
theorem run_threads {s : S} {moves : List (Move Req C E)} {d : Conf Req Op Res Out S}
    (hd : m.run ⟨s, []⟩ moves = some d) (i : Nat) :
    (∀ t, d.threads[i]? = some t → (m.start t.req).After (m.history i ⟨s, []⟩ moves) t.prog ∧
      (m.history i ⟨s, []⟩ moves).map Exchange.op = t.log) ∧
    (d.threads[i]? = none → m.history i ⟨s, []⟩ moves = []) := by
  induction moves using List.reverseRecOn generalizing d with
  | nil =>
    cases hd
    exact ⟨by simp, fun _ => rfl⟩
  | append_singleton ms mv ih =>
    rw [run_snoc] at hd
    obtain ⟨c, hc, hn⟩ := Option.bind_eq_some_iff.mp hd
    obtain ⟨hthread, hnone⟩ := ih hc
    rw [history_snoc m i hc]
    cases mv with
    | env e =>
      cases hn
      simp only [heard, Option.toList_none, List.append_nil]
      exact ⟨hthread, hnone⟩
    | spawn r =>
      cases hn
      simp only [heard, Option.toList_none, List.append_nil]
      obtain hlt | rfl | hgt := Nat.lt_trichotomy i c.threads.length
      · simpa only [List.getElem?_append_left hlt] using ⟨hthread, hnone⟩
      · rw [hnone (List.getElem?_eq_none (Nat.le_refl _))]
        simp
      · have hnew : (c.threads ++ [{ req := r, prog := m.start r }])[i]? = none :=
          List.getElem?_eq_none (by rw [List.length_append]; exact hgt)
        have hold : c.threads[i]? = none := List.getElem?_eq_none (Nat.le_of_lt hgt)
        simpa [hnew] using hnone hold
    | step j ch =>
      obtain ⟨r, o, k, log, hj, rfl⟩ := m.next_step hn
      by_cases hij : j = i
      · subst hij
        obtain ⟨hafter, hlog⟩ := hthread _ hj
        have hlt := (List.getElem?_eq_some_iff.mp hj).1
        rw [heard_step hj]
        simp only [Option.toList_some, List.getElem?_set_self hlt]
        refine ⟨?_, nofun⟩
        rintro t ⟨rfl⟩
        exact ⟨hafter.snoc _, by rw [List.map_append, hlog]; rfl⟩
      · simpa only [heard, if_neg hij, Option.toList_none, List.append_nil,
          List.getElem?_set_ne hij] using ⟨hthread, hnone⟩

theorem run_after {s : S} {moves : List (Move Req C E)} {d : Conf Req Op Res Out S}
    (hd : m.run ⟨s, []⟩ moves = some d) {i : Nat} {t : Thread Req Op Res Out}
    (hi : d.threads[i]? = some t) :
    (m.start t.req).After (m.history i ⟨s, []⟩ moves) t.prog ∧
      (m.history i ⟨s, []⟩ moves).map Exchange.op = t.log := (run_threads hd i).1 t hi

theorem exists_thread {s : S} {moves : List (Move Req C E)} {d : Conf Req Op Res Out S}
    (hd : m.run ⟨s, []⟩ moves = some d) {i : Nat} {e : Exchange Op Res}
    (he : e ∈ m.history i ⟨s, []⟩ moves) : ∃ t, d.threads[i]? = some t := by
  cases hi : d.threads[i]? with
  | some t => exact ⟨t, rfl⟩
  | none =>
    rw [(run_threads hd i).2 hi] at he
    cases he

theorem heard_eq_some {i : Nat} {c : Conf Req Op Res Out S} {mv : Move Req C E}
    {e : Exchange Op Res} (h : m.heard i c mv = some e) :
    ∃ ch, mv = .step i ch ∧ c.waiting i = some e.op ∧
      e.answer = (m.handle ch e.op c.world).1 := by
  cases mv with
  | spawn r => cases h
  | env e' => cases h
  | step j ch =>
    simp only [heard] at h
    split at h
    · rename_i hij
      subst hij
      split at h
      · rename_i r o k log hthread
        cases h
        exact ⟨ch, rfl, Conf.waiting_of_get hthread, rfl⟩
      · cases h
    · cases h

/-- What a thread has heard was said at some move of the run, out of the world of that moment. -/
theorem step_of_history {c d : Conf Req Op Res Out S} {moves : List (Move Req C E)} {i : Nat}
    {e : Exchange Op Res} (hd : m.run c moves = some d) (he : e ∈ m.history i c moves) :
    ∃ before after ch c', moves = before ++ .step i ch :: after ∧ m.run c before = some c' ∧
      c'.waiting i = some e.op ∧ e.answer = (m.handle ch e.op c'.world).1 := by
  induction moves using List.reverseRecOn generalizing d with
  | nil => cases he
  | append_singleton ms mv ih =>
    rw [run_snoc] at hd
    obtain ⟨c', hc, -⟩ := Option.bind_eq_some_iff.mp hd
    rw [history_snoc m i hc, List.mem_append, Option.mem_toList] at he
    obtain he | he := he
    · obtain ⟨before, after, ch, c'', rfl, hbefore, hwaiting, hanswer⟩ := ih hc he
      exact ⟨before, after ++ [mv], ch, c'', by simp, hbefore, hwaiting, hanswer⟩
    · obtain ⟨ch, rfl, hwaiting, hanswer⟩ := heard_eq_some he
      exact ⟨ms, [], ch, c', rfl, hc, hwaiting, hanswer⟩

theorem moment_of_history {c d : Conf Req Op Res Out S} {moves : List (Move Req C E)} {i : Nat}
    {e : Exchange Op Res} (hd : m.run c moves = some d) (he : e ∈ m.history i c moves) :
    ∃ before after ch c' c'', moves = before ++ .step i ch :: after ∧ m.run c before = some c' ∧
      c'.waiting i = some e.op ∧ m.next c' (.step i ch) = some c'' ∧ m.run c'' after = some d ∧
        e.answer = (m.handle ch e.op c'.world).1 ∧ c''.world = (m.handle ch e.op c'.world).2 := by
  obtain ⟨before, after, ch, c', rfl, hbefore, hwaiting, hanswer⟩ := step_of_history hd he
  rw [run_append, hbefore] at hd
  obtain ⟨c'', hn, hafter⟩ := Option.bind_eq_some_iff.mp
    (show (m.next c' (.step i ch)).bind (fun c'' => m.run c'' after) = some d from hd)
  refine ⟨before, after, ch, c', c'', rfl, hbefore, hwaiting, hn, hafter, hanswer, ?_⟩
  obtain ⟨r, o, k, log, hi, rfl⟩ := m.next_step hn
  have ho : o = e.op := Option.some.inj ((Conf.waiting_of_get hi).symm.trans hwaiting)
  subst ho
  rfl

theorem next_reqs {c d : Conf Req Op Res Out S} {mv : Move Req C E} (hn : m.next c mv = some d) :
    ∀ t ∈ c.threads, ∃ t' ∈ d.threads, t'.req = t.req := by
  intro t ht
  cases mv with
  | spawn r =>
    cases hn
    exact ⟨t, List.mem_append_left _ ht, rfl⟩
  | env e =>
    cases hn
    exact ⟨t, ht, rfl⟩
  | step i ch =>
    obtain ⟨r, o, k, log, hi, rfl⟩ := m.next_step hn
    obtain ⟨hlt, hget⟩ := List.getElem?_eq_some_iff.mp hi
    obtain ⟨j, hj, rfl⟩ := List.getElem_of_mem ht
    by_cases hij : i = j
    · subst hij
      exact ⟨_, List.mem_set hlt _, by rw [hget]⟩
    · refine ⟨c.threads[j], ?_, rfl⟩
      exact List.mem_of_getElem? ((List.getElem?_set_ne hij).trans (List.getElem?_eq_getElem hj))

end Machine
end Interaction
