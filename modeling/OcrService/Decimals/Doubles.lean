import Mathlib.Data.Int.Log
import Mathlib.Data.Rat.Floor
import Mathlib.Tactic.Linarith

/-! Arithmetic in doubles: a result is the exact one, rounded to 53 significant bits, fewer
where the last bit would be worth less than `2 ^ -1074`. -/
namespace Decimals

/-- The nearest whole number; of two, the even one. -/
def nearestEven (q : ℚ) : ℤ :=
  let low := ⌊q⌋
  if 2 * (q - low) < 1 ∨ 2 * (q - low) = 1 ∧ low % 2 = 0 then low else low + 1

/-- The last bit of the double nearest to `x` is worth two to this power. -/
def lastBit (x : ℚ) : ℤ := max (Int.log 2 |x| - 52) (-1074)

def roundAt (e : ℤ) (x : ℚ) : ℚ := nearestEven (x / 2 ^ e) * 2 ^ e

/-- The double nearest to `x`. -/
def double (x : ℚ) : ℚ := roundAt (lastBit x) x

/-- The sum of two doubles; a zero leaves the other as it is. -/
def doubleAdd (x y : ℚ) : ℚ := if x = 0 then y else if y = 0 then x else double (x + y)

def doubleSub (x y : ℚ) : ℚ := if y = 0 then x else double (x - y)

def doubleMid (x y : ℚ) : ℚ := double (doubleAdd x y / 2)

theorem floor_le_nearestEven (q : ℚ) : ⌊q⌋ ≤ nearestEven q := by
  simp only [nearestEven]
  split
  · exact le_rfl
  · omega

theorem nearestEven_le_floor_add_one (q : ℚ) : nearestEven q ≤ ⌊q⌋ + 1 := by
  simp only [nearestEven]
  split
  · omega
  · exact le_rfl

theorem nearestEven_mono {q r : ℚ} (h : q ≤ r) : nearestEven q ≤ nearestEven r := by
  rcases (Int.floor_le_floor h).lt_or_eq with hlt | heq
  · calc nearestEven q ≤ ⌊q⌋ + 1 := nearestEven_le_floor_add_one q
      _ ≤ ⌊r⌋ := hlt
      _ ≤ nearestEven r := floor_le_nearestEven r
  · simp only [nearestEven]
    rw [← heq]
    split
    · split <;> omega
    · rename_i hup
      rw [if_neg]
      -- what is rounded up at `q` is so at `r`, which is no nearer to their floor
      intro hdown
      refine hup ?_
      obtain hlow | ⟨hhalf, heven⟩ := hdown
      · exact .inl (by linarith)
      · rcases h.lt_or_eq with hqr | rfl
        · exact .inl (by linarith)
        · exact .inr ⟨hhalf, heven⟩

theorem nearestEven_intCast (n : ℤ) : nearestEven n = n := by
  simp [nearestEven]

theorem nearestEven_neg (q : ℚ) : nearestEven (-q) = -nearestEven q := by
  have hlow := Int.floor_le q
  have hhigh := Int.lt_floor_add_one q
  rcases hlow.lt_or_eq with hlt | heq
  · have hfloor : ⌊-q⌋ = -⌊q⌋ - 1 := by
      rw [Int.floor_eq_iff]
      push_cast
      exact ⟨by linarith, by linarith⟩
    simp only [nearestEven, hfloor]
    push_cast
    split
    · rename_i hneg
      rw [if_neg]
      · omega
      · intro hpos
        obtain hneg | ⟨hneg, heven⟩ := hneg <;> obtain hpos | ⟨hpos, heven'⟩ := hpos
        · linarith
        · linarith
        · linarith
        · omega
    · rename_i hneg
      rw [if_pos]
      · omega
      · rw [not_or, not_and_or] at hneg
        rcases lt_trichotomy (2 * (q - ⌊q⌋)) 1 with hless | hhalf | hmore
        · exact .inl hless
        · refine .inr ⟨hhalf, ?_⟩
          have hodd := hneg.2.resolve_left (fun hne => hne (by linarith))
          omega
        · exact absurd (show 2 * (-q - (-↑⌊q⌋ - 1)) < 1 by linarith) hneg.1
  · rw [← heq, ← Int.cast_neg, nearestEven_intCast, nearestEven_intCast]

theorem roundAt_mono {e : ℤ} {x y : ℚ} (h : x ≤ y) : roundAt e x ≤ roundAt e y := by
  have hunit : (0 : ℚ) < 2 ^ e := zpow_pos (by norm_num) e
  have hcount : nearestEven (x / 2 ^ e) ≤ nearestEven (y / 2 ^ e) :=
    nearestEven_mono (div_le_div_of_nonneg_right h hunit.le)
  exact mul_le_mul_of_nonneg_right (by exact_mod_cast hcount) hunit.le

/-- A power of two that is worth a whole number of last bits stays. -/
theorem roundAt_two_zpow {e k : ℤ} (h : e ≤ k) : roundAt e (2 ^ k) = 2 ^ k := by
  have hcount : (2 : ℚ) ^ k / 2 ^ e = ((2 ^ (k - e).toNat : ℤ) : ℚ) := by
    rw [← zpow_sub₀ (by norm_num : (2 : ℚ) ≠ 0)]
    push_cast
    rw [← zpow_natCast, Int.toNat_of_nonneg (by omega)]
  rw [roundAt, hcount, nearestEven_intCast, ← hcount]
  exact div_mul_cancel₀ _ (zpow_ne_zero e (by norm_num))

theorem lastBit_neg (x : ℚ) : lastBit (-x) = lastBit x := by
  rw [lastBit, lastBit, abs_neg]

theorem double_neg (x : ℚ) : double (-x) = -double x := by
  rw [double, double, lastBit_neg, roundAt, roundAt, neg_div, nearestEven_neg]
  push_cast
  ring

theorem double_nonneg {x : ℚ} (h : 0 ≤ x) : 0 ≤ double x := by
  have hzero : roundAt (lastBit x) 0 = 0 := by simp [roundAt, nearestEven]
  calc (0 : ℚ) = roundAt (lastBit x) 0 := hzero.symm
    _ ≤ double x := roundAt_mono h

theorem double_mono_of_pos {x y : ℚ} (hx : 0 < x) (h : x ≤ y) : double x ≤ double y := by
  have hy : 0 < y := lt_of_lt_of_le hx h
  have hlog : Int.log 2 x ≤ Int.log 2 y := Int.log_mono_right hx h
  have hbits : lastBit x ≤ lastBit y := by
    rw [lastBit, lastBit, abs_of_pos hx, abs_of_pos hy]
    omega
  rcases hbits.lt_or_eq with hlt | heq
  · -- the power of two between them is a double, and rounding passes over it from neither side
    have hcoarse : lastBit x ≤ Int.log 2 y ∧ lastBit y ≤ Int.log 2 y ∧
        Int.log 2 x < Int.log 2 y := by
      rw [lastBit, lastBit, abs_of_pos hx, abs_of_pos hy] at hlt
      rw [lastBit, lastBit, abs_of_pos hx, abs_of_pos hy]
      omega
    have hbelow : x ≤ 2 ^ Int.log 2 y := ((Int.lt_zpow_iff_log_lt one_lt_two hx).mpr hcoarse.2.2).le
    have habove : 2 ^ Int.log 2 y ≤ y := Int.zpow_log_le_self one_lt_two hy
    calc double x ≤ roundAt (lastBit x) (2 ^ Int.log 2 y) := roundAt_mono hbelow
      _ = roundAt (lastBit y) (2 ^ Int.log 2 y) := by
        rw [roundAt_two_zpow hcoarse.1, roundAt_two_zpow hcoarse.2.1]
      _ ≤ double y := roundAt_mono habove
  · rw [double, double, heq]
    exact roundAt_mono h

theorem double_mono {x y : ℚ} (h : x ≤ y) : double x ≤ double y := by
  rcases lt_or_ge 0 x with hx | hx
  · exact double_mono_of_pos hx h
  · rcases lt_or_ge y 0 with hy | hy
    · have hneg : double (-y) ≤ double (-x) := double_mono_of_pos (by linarith) (by linarith)
      rw [double_neg, double_neg] at hneg
      linarith
    · have hneg : 0 ≤ double (-x) := double_nonneg (by linarith)
      rw [double_neg] at hneg
      have hpos : 0 ≤ double y := double_nonneg hy
      linarith

theorem double_one : double 1 = 1 := by decide +kernel

end Decimals
