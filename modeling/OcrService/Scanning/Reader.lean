import Mathlib.Data.List.Basic
import Mathlib.Data.List.Infix
import Mathlib.Data.List.TakeWhile

/-! Readers that take something off the front of a list: what they take, and that they do not
look beyond it. -/
namespace Scanning

universe u
variable {τ α β : Type u}

abbrev Reader (τ α : Type u) := StateT (List τ) Option α

def literal [DecidableEq τ] (text : List τ) : Reader τ PUnit := fun xs =>
  if text <+: xs then some (⟨⟩, xs.drop text.length) else none

def many (p : τ → Bool) : Reader τ (List τ) := fun xs => some (xs.takeWhile p, xs.dropWhile p)

def many1 (p : τ → Bool) : Reader τ (List τ) := fun xs =>
  if xs.takeWhile p = [] then none else some (xs.takeWhile p, xs.dropWhile p)

theorem pure_eq_some {a b : α} {xs rest : List τ} :
    (pure a : Reader τ α) xs = some (b, rest) ↔ a = b ∧ xs = rest := by
  change some (a, xs) = some (b, rest) ↔ _
  rw [Option.some.injEq, Prod.mk.injEq]

theorem bind_eq_some {f : Reader τ α} {g : α → Reader τ β} {xs rest : List τ} {b : β} :
    (f >>= g) xs = some (b, rest) ↔ ∃ a mid, f xs = some (a, mid) ∧ g a mid = some (b, rest) := by
  change (f xs >>= fun p => g p.1 p.2) = some (b, rest) ↔ _
  rw [Option.bind_eq_bind, Option.bind_eq_some_iff]
  exact ⟨fun ⟨p, hp, hg⟩ => ⟨p.1, p.2, hp, hg⟩, fun ⟨a, mid, hp, hg⟩ => ⟨(a, mid), hp, hg⟩⟩

theorem literal_eq_some [DecidableEq τ] {text xs rest : List τ} {a : PUnit} :
    literal text xs = some (a, rest) ↔ xs = text ++ rest := by
  unfold literal
  split
  · rename_i hprefix
    obtain ⟨rest', rfl⟩ := hprefix
    simp
  · rename_i hprefix
    constructor
    · intro h
      cases h
    · intro hxs
      obtain rfl := hxs
      exact absurd (List.prefix_append text rest) hprefix

theorem many_eq_some {p : τ → Bool} {xs a rest : List τ} :
    many p xs = some (a, rest) ↔
      xs = a ++ rest ∧ (∀ x ∈ a, p x = true) ∧ ∀ x, rest.head? = some x → p x = false := by
  rw [many, Option.some.injEq, Prod.mk.injEq]
  constructor
  · intro h
    obtain ⟨rfl, rfl⟩ := h
    refine ⟨List.takeWhile_append_dropWhile.symm, fun x hx => List.mem_takeWhile_imp hx, ?_⟩
    intro x hx
    have hnot := List.head?_dropWhile_not p xs
    rw [hx] at hnot
    simpa using hnot
  · intro h
    obtain ⟨rfl, ha, hrest⟩ := h
    rw [List.takeWhile_append_of_pos ha, List.dropWhile_append_of_pos ha]
    cases rest with
    | nil => simp
    | cons x rest => simp [hrest x rfl]

theorem many1_eq_some {p : τ → Bool} {xs a rest : List τ} :
    many1 p xs = some (a, rest) ↔ a ≠ [] ∧ many p xs = some (a, rest) := by
  unfold many1 many
  split
  · rename_i hnone
    rw [hnone]
    constructor
    · intro h
      cases h
    · intro h
      obtain ⟨hne, h⟩ := h
      exact absurd (Prod.mk.inj (Option.some.inj h)).1.symm hne
  · rename_i hsome
    constructor
    · intro h
      exact ⟨(Prod.mk.inj (Option.some.inj h)).1 ▸ hsome, h⟩
    · exact fun h => h.2

def Takes (Q : τ → Prop) (f : Reader τ α) : Prop :=
  ∀ ⦃xs a rest⦄, f xs = some (a, rest) → ∃ text, xs = text ++ rest ∧ ∀ x ∈ text, Q x

theorem Takes.pure {Q : τ → Prop} (a : α) : Takes Q (Pure.pure a : Reader τ α) := by
  intro xs b rest hread
  obtain ⟨-, rfl⟩ := pure_eq_some.mp hread
  exact ⟨[], rfl, by simp⟩

theorem Takes.bind {Q : τ → Prop} {f : Reader τ α} {g : α → Reader τ β} (hf : Takes Q f)
    (hg : ∀ a, Takes Q (g a)) : Takes Q (f >>= g) := by
  intro xs b rest hread
  obtain ⟨a, mid, hfirst, hsecond⟩ := bind_eq_some.mp hread
  obtain ⟨text, rfl, htext⟩ := hf hfirst
  obtain ⟨text', rfl, htext'⟩ := hg a hsecond
  refine ⟨text ++ text', (List.append_assoc ..).symm, ?_⟩
  intro x hx
  obtain hx | hx := List.mem_append.mp hx
  · exact htext x hx
  · exact htext' x hx

theorem Takes.literal [DecidableEq τ] {Q : τ → Prop} {text : List τ} (h : ∀ x ∈ text, Q x) :
    Takes Q (literal text) := fun _ _ _ hread => ⟨text, literal_eq_some.mp hread, h⟩

theorem Takes.many {p : τ → Bool} {Q : τ → Prop} (h : ∀ x, p x = true → Q x) :
    Takes Q (many p) := by
  intro xs a rest hread
  obtain ⟨hxs, ha, -⟩ := many_eq_some.mp hread
  exact ⟨a, hxs, fun x hx => h x (ha x hx)⟩

theorem Takes.many1 {p : τ → Bool} {Q : τ → Prop} (h : ∀ x, p x = true → Q x) :
    Takes Q (many1 p) := fun _ _ _ hread => Takes.many h (many1_eq_some.mp hread).2

structure Local (f : Reader τ α) : Prop where
  takes : Takes (fun _ => True) f
  restrict : ∀ {xs zs a rest}, f (xs ++ zs) = some (a, rest ++ zs) → f xs = some (a, rest)
  extend : ∀ {xs zs a rest}, rest ≠ [] → f xs = some (a, rest) →
    f (xs ++ zs) = some (a, rest ++ zs)

theorem Local.pure (a : α) : Local (Pure.pure a : Reader τ α) where
  takes := Takes.pure a
  restrict h := by
    obtain ⟨rfl, hrest⟩ := pure_eq_some.mp h
    exact pure_eq_some.mpr ⟨rfl, List.append_cancel_right hrest⟩
  extend _ h := by
    obtain ⟨rfl, rfl⟩ := pure_eq_some.mp h
    rfl

theorem Local.bind {f : Reader τ α} {g : α → Reader τ β} (hf : Local f) (hg : ∀ a, Local (g a)) :
    Local (f >>= g) where
  takes := hf.takes.bind fun a => (hg a).takes
  restrict {xs zs b rest} h := by
    obtain ⟨a, mid, hfirst, hsecond⟩ := bind_eq_some.mp h
    obtain ⟨text, htext, -⟩ := hf.takes hfirst
    obtain ⟨text', rfl, -⟩ := (hg a).takes hsecond
    have hmid : text' ++ (rest ++ zs) = (text' ++ rest) ++ zs := (List.append_assoc ..).symm
    rw [hmid] at hfirst hsecond
    exact bind_eq_some.mpr ⟨a, text' ++ rest, hf.restrict hfirst, (hg a).restrict hsecond⟩
  extend {xs zs b rest} hrest h := by
    obtain ⟨a, mid, hfirst, hsecond⟩ := bind_eq_some.mp h
    obtain ⟨text, rfl, -⟩ := (hg a).takes hsecond
    have hmid : text ++ rest ≠ [] := by simp [hrest]
    exact bind_eq_some.mpr ⟨a, _, hf.extend hmid hfirst, (hg a).extend hrest hsecond⟩

theorem Local.literal [DecidableEq τ] (text : List τ) : Local (literal text) where
  takes := Takes.literal fun _ _ => trivial
  restrict h := by
    rw [literal_eq_some, ← List.append_assoc] at h
    exact literal_eq_some.mpr (List.append_cancel_right h)
  extend _ h := by
    rw [literal_eq_some.mp h, List.append_assoc]
    exact literal_eq_some.mpr rfl

theorem Local.many (p : τ → Bool) : Local (many p) where
  takes := Takes.many fun _ _ => trivial
  restrict {xs zs a rest} h := by
    obtain ⟨hxs, ha, hrest⟩ := many_eq_some.mp h
    rw [← List.append_assoc] at hxs
    refine many_eq_some.mpr ⟨List.append_cancel_right hxs, ha, fun x hx => hrest x ?_⟩
    rw [List.head?_append, hx]
    rfl
  extend {xs zs a rest} hne h := by
    obtain ⟨rfl, ha, hrest⟩ := many_eq_some.mp h
    refine many_eq_some.mpr ⟨List.append_assoc .., ha, fun x hx => hrest x ?_⟩
    rwa [List.head?_append_of_ne_nil _ hne] at hx

theorem Local.many1 (p : τ → Bool) : Local (many1 p) where
  takes := Takes.many1 fun _ _ => trivial
  restrict h := by
    obtain ⟨ha, h⟩ := many1_eq_some.mp h
    exact many1_eq_some.mpr ⟨ha, (Local.many p).restrict h⟩
  extend hne h := by
    obtain ⟨ha, h⟩ := many1_eq_some.mp h
    exact many1_eq_some.mpr ⟨ha, (Local.many p).extend hne h⟩

structure Closed (f : Reader τ α) : Prop where
  nonempty : ∀ {a rest}, f [] ≠ some (a, rest)
  extend : ∀ {xs zs a rest}, f xs = some (a, rest) → f (xs ++ zs) = some (a, rest ++ zs)

theorem Closed.literal [DecidableEq τ] {text : List τ} (h : text ≠ []) : Closed (literal text) where
  nonempty hread := by
    have hnil := (literal_eq_some.mp hread).symm
    exact h (List.append_eq_nil_iff.mp hnil).1
  extend hread := by
    rw [literal_eq_some.mp hread, List.append_assoc]
    exact literal_eq_some.mpr rfl

theorem Closed.bind_pure {f : Reader τ α} (hf : Closed f) (g : α → β) :
    Closed (f >>= fun a => Pure.pure (g a)) where
  nonempty h := by
    obtain ⟨a, mid, hfirst, -⟩ := bind_eq_some.mp h
    exact hf.nonempty hfirst
  extend h := by
    obtain ⟨a, mid, hfirst, hsecond⟩ := bind_eq_some.mp h
    obtain ⟨rfl, rfl⟩ := pure_eq_some.mp hsecond
    exact bind_eq_some.mpr ⟨a, _, hf.extend hfirst, rfl⟩

theorem Local.bind_closed {f : Reader τ α} {g : α → Reader τ β} (hf : Local f)
    (hg : ∀ a, Closed (g a)) : Closed (f >>= g) where
  nonempty h := by
    obtain ⟨a, mid, hfirst, hsecond⟩ := bind_eq_some.mp h
    obtain ⟨text, htext, -⟩ := hf.takes hfirst
    obtain rfl := (List.append_eq_nil_iff.mp htext.symm).2
    exact (hg a).nonempty hsecond
  extend {xs zs b rest} h := by
    obtain ⟨a, mid, hfirst, hsecond⟩ := bind_eq_some.mp h
    have hmid : mid ≠ [] := by
      intro hnil
      obtain rfl := hnil
      exact (hg a).nonempty hsecond
    exact bind_eq_some.mpr ⟨a, _, hf.extend hmid hfirst, (hg a).extend hsecond⟩

end Scanning
