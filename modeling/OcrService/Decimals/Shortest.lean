import Mathlib.Algebra.Group.Nat.Defs
import Mathlib.Data.List.DropRight
import Mathlib.Data.Nat.Size

/-! Whole numbers of limited precision and the decimal texts that stand for them: the fewest
digits that are rounded back to the number, in full or in scientific notation. -/
namespace Decimals

/-- The nearest number with at most `bits` significant bits; of two, the one that is even. -/
def roundBinary (bits m : Nat) : Nat :=
  let unit := 2 ^ (m.size - bits)
  let low := m / unit
  let rest := m % unit
  if 2 * rest < unit ∨ 2 * rest = unit ∧ low % 2 = 0 then low * unit else (low + 1) * unit

theorem roundBinary_of_lt {bits m : Nat} (h : m < 2 ^ bits) : roundBinary bits m = m := by
  have hsize : m.size - bits = 0 := Nat.sub_eq_zero_of_le (Nat.size_le.mpr h)
  simp [roundBinary, hsize, Nat.mod_one]

theorem le_roundBinary {bits m : Nat} (hbits : 0 < bits) (h : 2 ^ bits ≤ m) :
    2 ^ bits ≤ roundBinary bits m := by
  have hsize : bits < m.size := Nat.lt_size.mpr h
  have hunit : 2 ^ bits ≤ 2 ^ (bits - 1) * 2 ^ (m.size - bits) := by
    rw [← Nat.pow_add]
    exact Nat.pow_le_pow_right (by decide) (by omega)
  have hlow : 2 ^ (bits - 1) ≤ m / 2 ^ (m.size - bits) := by
    rw [Nat.le_div_iff_mul_le (Nat.two_pow_pos _), ← Nat.pow_add]
    exact Nat.lt_size.mp (by omega)
  rw [roundBinary]
  split
  · exact hunit.trans (Nat.mul_le_mul_right _ hlow)
  · exact hunit.trans (Nat.mul_le_mul_right _ (Nat.le_succ_of_le hlow))

section Shortest
variable (round : Nat → Nat)

/-- The multiple of `10 ^ j` that is nearest to `x` among those rounded to it. -/
def nearestMultiple (x j : Nat) : Option Nat :=
  let low := x / 10 ^ j * 10 ^ j
  let high := low + 10 ^ j
  if round low = x ∧ (round high ≠ x ∨ x - low ≤ high - x) then some low
  else if round high = x then some high
  else none

def shortestFrom (x : Nat) : (j : Nat) → Nat
  | 0 => x
  | j + 1 => (nearestMultiple round x (j + 1)).getD (shortestFrom x j)

/-- What is rounded to `x` and has the fewest significant digits. -/
def shortest (x : Nat) : Nat := shortestFrom round x (Nat.toDigits 10 x).length

variable {round}

theorem round_nearestMultiple {x j v : Nat} (h : nearestMultiple round x j = some v) :
    round v = x := by
  simp only [nearestMultiple] at h
  split at h
  · rename_i hlow
    cases h
    exact hlow.1
  · split at h
    · rename_i hhigh
      cases h
      exact hhigh
    · cases h

theorem round_shortest {x : Nat} (h : round x = x) : round (shortest round x) = x := by
  rw [shortest]
  induction (Nat.toDigits 10 x).length with
  | zero => exact h
  | succ j ih =>
    rw [shortestFrom]
    cases hmultiple : nearestMultiple round x (j + 1) with
    | none => exact ih
    | some v => exact round_nearestMultiple hmultiple

theorem shortest_of_unique {x : Nat} (h : ∀ v, round v = x → v = x) : shortest round x = x := by
  rw [shortest]
  induction (Nat.toDigits 10 x).length with
  | zero => rfl
  | succ j ih =>
    rw [shortestFrom]
    cases hmultiple : nearestMultiple round x (j + 1) with
    | none => exact ih
    | some v => exact h v (round_nearestMultiple hmultiple)

end Shortest

theorem toDigits_inj {a b : Nat} (h : Nat.toDigits 10 a = Nat.toDigits 10 b) : a = b := by
  rw [← Nat.ofDigitChars_ten_toDigits (n := a), h, Nat.ofDigitChars_ten_toDigits]

theorem not_mem_toDigits {n : Nat} {c : Char} (hc : c.isDigit = false) :
    c ∉ Nat.toDigits 10 n := fun h => by
  rw [Nat.isDigit_of_mem_toDigits (by omega) (by omega) h] at hc
  cases hc

theorem split_at_first {α : Type*} {a : α} {x y z w : List α} (hx : a ∉ x) (hy : a ∉ y)
    (h : x ++ a :: z = y ++ a :: w) : x = y ∧ z = w := by
  induction x generalizing y with
  | nil =>
    cases y with
    | nil => exact ⟨rfl, (List.cons.inj h).2⟩
    | cons b y => exact absurd (List.cons.inj h).1 fun he => hy (by simp [he])
  | cons c x ih =>
    cases y with
    | nil => exact absurd (List.cons.inj h).1 fun he => hx (by simp [he])
    | cons b y =>
      obtain ⟨hc, ht⟩ := List.cons.inj h
      obtain ⟨hxy, hzw⟩ := ih (fun hm => hx (by simp [hm])) (fun hm => hy (by simp [hm])) ht
      exact ⟨by rw [hc, hxy], hzw⟩

theorem split_at_last {α : Type*} {a : α} {x y z w : List α} (hz : a ∉ z) (hw : a ∉ w)
    (h : x ++ a :: z = y ++ a :: w) : x = y ∧ z = w := by
  have hr : z.reverse ++ a :: x.reverse = w.reverse ++ a :: y.reverse := by
    simpa using congrArg List.reverse h
  obtain ⟨hzw, hxy⟩ := split_at_first (by simpa using hz) (by simpa using hw) hr
  exact ⟨List.reverse_inj.mp hxy, List.reverse_inj.mp hzw⟩

def significant (v : Nat) : List Char := (Nat.toDigits 10 v).rdropWhile (· = '0')

def pointed : List Char → List Char
  | d :: d' :: ds => d :: '.' :: d' :: ds
  | ds => ds

def scientific (v : Nat) : List Char :=
  pointed (significant v) ++ 'e' :: '+' :: Nat.toDigits 10 ((Nat.toDigits 10 v).length - 1)

theorem not_mem_significant {v : Nat} {c : Char} (hc : c.isDigit = false) :
    c ∉ significant v :=
  fun h => not_mem_toDigits hc ((List.rdropWhile_prefix _ _).subset h)

theorem toDigits_of_significant {v w : Nat} (h : significant v = significant w)
    (hlength : (Nat.toDigits 10 v).length = (Nat.toDigits 10 w).length) : v = w := by
  have hzeros (u : Nat) : ∃ n, Nat.toDigits 10 u = significant u ++ List.replicate n '0' := by
    refine ⟨_, (List.rdropWhile_append_rtakeWhile (p := (· = '0'))).symm.trans
      (congrArg _ (List.eq_replicate_of_mem fun c hc => ?_))⟩
    simpa using List.mem_rtakeWhile_imp hc
  obtain ⟨m, hv⟩ := hzeros v
  obtain ⟨n, hw⟩ := hzeros w
  have hmn : m = n := by
    rw [hv, hw, h] at hlength
    simpa using hlength
  exact toDigits_inj (by rw [hv, hw, h, hmn])

theorem filter_pointed {ds : List Char} (h : '.' ∉ ds) :
    (pointed ds).filter (· ≠ '.') = ds := by
  have hkept : ds.filter (· ≠ '.') = ds :=
    List.filter_eq_self.mpr fun c hc => decide_eq_true fun he => h (he ▸ hc)
  match ds with
  | [] | [_] => exact hkept
  | d :: d' :: ds =>
    rw [pointed, ← List.singleton_append, List.filter_append]
    rw [← List.singleton_append, List.filter_append] at hkept
    exact hkept

theorem mem_pointed {ds : List Char} {c : Char} (h : c ∈ pointed ds) : c ∈ ds ∨ c = '.' := by
  match ds with
  | [] | [_] => exact Or.inl h
  | d :: d' :: ds =>
    simp only [pointed, List.mem_cons] at h ⊢
    tauto

theorem not_mem_pointed_significant {v : Nat} {c : Char} (hc : c.isDigit = false)
    (hpoint : c ≠ '.') : c ∉ pointed (significant v) := by
  intro h
  obtain h | h := mem_pointed h
  · exact not_mem_significant hc h
  · exact hpoint h

theorem scientific_inj {v w : Nat} (h : scientific v = scientific w) : v = w := by
  obtain ⟨hpointed, hexponent⟩ := split_at_first
    (not_mem_pointed_significant (by decide) (by decide))
    (not_mem_pointed_significant (by decide) (by decide)) h
  have hsignificant : significant v = significant w := by
    have hfiltered := congrArg (List.filter (· ≠ '.')) hpointed
    rwa [filter_pointed (not_mem_significant (by decide)),
      filter_pointed (not_mem_significant (by decide))] at hfiltered
  have hpositive (u : Nat) : 0 < (Nat.toDigits 10 u).length := Nat.length_toDigits_pos
  have hlength := toDigits_inj (List.cons.inj hexponent).2
  refine toDigits_of_significant hsignificant ?_
  have hv := hpositive v
  have hw := hpositive w
  omega

theorem toDigits_ne_scientific (v w : Nat) : Nat.toDigits 10 v ≠ scientific w := by
  intro h
  have hmem : 'e' ∈ Nat.toDigits 10 v := by
    rw [h, scientific]
    simp
  exact not_mem_toDigits (by decide) hmem

theorem not_mem_scientific {v : Nat} {c : Char} (hc : c.isDigit = false)
    (hmarks : c ≠ '.' ∧ c ≠ 'e' ∧ c ≠ '+') : c ∉ scientific v := by
  intro h
  rw [scientific, List.mem_append, List.mem_cons, List.mem_cons] at h
  obtain h | h | h | h := h
  · exact not_mem_pointed_significant hc hmarks.1 h
  · exact hmarks.2.1 h
  · exact hmarks.2.2 h
  · exact not_mem_toDigits hc h

end Decimals
