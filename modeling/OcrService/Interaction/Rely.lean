import OcrService.Interaction.Pool

/-! Programs that read before they write, and rely on what they have read until then. -/
namespace Interaction

universe u v w

namespace Prog
variable {Op : Type u} {Res : Op → Type v} {α β : Type w}
variable {C σ : Type*} {h : C → (o : Op) → σ → Res o × σ} {I : σ → Prop} {J : Op → σ → Prop}

def Ready (J : Op → σ → Prop) : Prog Op Res α → σ → Prop
  | ret _, _ => True
  | ask o _, s => J o s

/-- `Prepares h I J p`: each operation of `p` that may be performed restores `I`, and leaves
`p` ready for the next one. The state may change between two operations as long as `I` holds
again and the one to come may still be performed. -/
def Prepares (h : C → (o : Op) → σ → Res o × σ) (I : σ → Prop) (J : Op → σ → Prop) :
    Prog Op Res α → Prop
  | ret _ => True
  | ask o k => ∀ c s, I s → J o s →
      I (h c o s).2 ∧ (k (h c o s).1).Ready J (h c o s).2 ∧ (k (h c o s).1).Prepares h I J

theorem Ready.bind {p : Prog Op Res α} {f : α → Prog Op Res β} {s : σ} (hp : p.Ready J s)
    (hf : ∀ a, (f a).Ready J s) : (p >>= f).Ready J s := by
  cases p with
  | ret a => exact hf a
  | ask o k => exact hp

theorem Prepares.bind {p : Prog Op Res α} {f : α → Prog Op Res β} (hp : p.Prepares h I J)
    (hf : ∀ a, (f a).Prepares h I J) (hready : ∀ a s, I s → (f a).Ready J s) :
    (p >>= f).Prepares h I J := by
  induction p with
  | ret a => exact hf a
  | ask o k ih =>
    intro c s hs ho
    obtain ⟨hI, hnext, hrest⟩ := hp c s hs ho
    exact ⟨hI, hnext.bind fun a => hready a _ hI, ih _ hrest⟩

/-- A program that prepares all it does, and may be started wherever `I` holds. -/
structure Careful (h : C → (o : Op) → σ → Res o × σ) (I : σ → Prop) (J : Op → σ → Prop)
    (p : Prog Op Res α) : Prop where
  prepares : p.Prepares h I J
  ready : ∀ s, I s → p.Ready J s

theorem Careful.ret (a : α) : (ret a : Prog Op Res α).Careful h I J :=
  ⟨True.intro, fun _ _ => True.intro⟩

theorem Careful.bind {p : Prog Op Res α} {f : α → Prog Op Res β} (hp : p.Careful h I J)
    (hf : ∀ a, (f a).Careful h I J) : (p >>= f).Careful h I J :=
  ⟨hp.prepares.bind (fun a => (hf a).prepares) fun a => (hf a).ready,
    fun s hs => (hp.ready s hs).bind fun a => (hf a).ready s hs⟩

theorem Uses.careful {R : Op → Prop} {p : Prog Op Res α} (hp : p.Uses R)
    (hI : ∀ o, R o → ∀ c s, I s → I (h c o s).2) (hJ : ∀ o, R o → ∀ s, J o s) :
    p.Careful h I J := by
  induction p with
  | ret a => exact .ret a
  | ask o k ih =>
    refine ⟨?_, fun s _ => hJ o hp.1 s⟩
    intro c s hs _
    have hrest := ih (h c o s).1 (hp.2 _)
    exact ⟨hI o hp.1 c s hs, hrest.ready _ (hI o hp.1 c s hs), hrest.prepares⟩

end Prog

namespace Machine
variable {Req C E S : Type*} {Op : Type u} {Res : Op → Type v} {Out : Type w}
variable {m : Machine Req Op Res Out C E S} {I : S → Prop} {J : Op → S → Prop}

/-- The move is a step of one thread after which the operation another is about to perform may
no longer be performed. -/
def Overtakes (m : Machine Req Op Res Out C E S) (J : Op → S → Prop)
    (c : Conf Req Op Res Out S) : Move Req C E → Prop
  | .step i ch => ∃ o ∈ c.waiting i, ∃ j ≠ i, ∃ o' ∈ c.waiting j,
      J o' c.world ∧ ¬J o' (m.handle ch o c.world).2
  | .spawn _ | .env _ => False

/-- A run in which no thread overtakes another keeps what its programs keep. -/
theorem run_prepared (henv : ∀ e s, I s → I (m.env e s) ∧ ∀ o, J o s → J o (m.env e s))
    (hstart : ∀ r, (m.start r).Careful m.handle I J)
    {s : S} (hs : I s) {moves : List (Move Req C E)}
    (hmoves : m.Always (fun c mv => I c.world → ¬m.Overtakes J c mv) ⟨s, []⟩ moves) :
    m.Visits (fun c => I c.world ∧
      ∀ t ∈ c.threads, t.prog.Ready J c.world ∧ t.prog.Prepares m.handle I J) ⟨s, []⟩ moves := by
  refine run_inv _ _ ?_ ⟨hs, by simp⟩ hmoves
  intro c mv c' hc hmv hn
  obtain ⟨hI, hthreads⟩ := hc
  cases mv with
  | spawn r =>
    cases hn
    refine ⟨hI, ?_⟩
    intro t ht
    obtain ht | ht := List.mem_append.mp ht
    · exact hthreads t ht
    · obtain rfl := List.mem_singleton.mp ht
      exact ⟨(hstart r).ready _ hI, (hstart r).prepares⟩
  | env e =>
    cases hn
    refine ⟨(henv e _ hI).1, ?_⟩
    intro t ht
    obtain ⟨hready, hprepares⟩ := hthreads t ht
    refine ⟨?_, hprepares⟩
    cases hprog : t.prog with
    | ret a => exact True.intro
    | ask o k =>
      rw [hprog] at hready
      exact (henv e _ hI).2 o hready
  | step i ch =>
    obtain ⟨r, o, k, log, hget, rfl⟩ := m.next_step hn
    obtain ⟨hready, hprepares⟩ := hthreads _ (List.mem_of_getElem? hget)
    obtain ⟨hkept, hnext, hrest⟩ := hprepares ch c.world hI hready
    refine ⟨hkept, ?_⟩
    intro t ht
    obtain ⟨j, hj⟩ := List.getElem?_of_mem ht
    by_cases hij : i = j
    · subst hij
      rw [List.getElem?_set_self (List.getElem?_eq_some_iff.mp hget).1] at hj
      cases hj
      exact ⟨hnext, hrest⟩
    · rw [List.getElem?_set_ne hij] at hj
      obtain ⟨hready', hprepares'⟩ := hthreads t (List.mem_of_getElem? hj)
      refine ⟨?_, hprepares'⟩
      obtain ⟨r', p, log'⟩ := t
      cases p with
      | ret a => exact True.intro
      | ask o' k' =>
        by_contra hnot
        exact hmv hI ⟨o, Conf.waiting_of_get hget, j, Ne.symm hij, o', Conf.waiting_of_get hj,
          hready', hnot⟩

end Machine
end Interaction
