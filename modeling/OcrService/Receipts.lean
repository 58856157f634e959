import Mathlib.Algebra.BigOperators.Group.List.Basic
import Mathlib.Algebra.Order.Floor.Ring
import Mathlib.Data.Rat.Floor
import Mathlib.Tactic.Linarith

/-! The reconciliation of a receipt's totals (`functions/receipt-parsing/validate.ts`), with
amounts of money as exact rationals. -/
namespace OcrService

inductive Confidence where
  | high | low
  deriving DecidableEq

structure LineItem where
  description : String
  qty : Option ℚ
  unitPrice : Option ℚ
  total : Option ℚ

structure Merchant where
  name : Option String
  address : Option String
  tin : Option String

structure ReceiptParsingResult where
  merchant : Merchant
  dateTime : Option String
  currency : Option String
  lineItems : List LineItem
  subtotal : Option ℚ
  tax : Option ℚ
  tip : Option ℚ
  total : Option ℚ
  paymentMethod : Option String
  confidence : Confidence
  warnings : List String

def EPSILON : ℚ := 2 / 100

/-- Relative to `b`, with a tiny absolute floor. -/
def approxEqual (a b epsilon : ℚ) : Bool := |a - b| ≤ max epsilon (epsilon * |b|)

/-- `toFixed(2)`, of amounts below 10²¹. -/
def toFixed2 (x : ℚ) : String :=
  let cents := ⌊|x| * 100 + 1 / 2⌋.toNat
  (if x < 0 then "-" else "") ++ toString (cents / 100) ++ "." ++
    (if cents % 100 < 10 then "0" else "") ++ toString (cents % 100)

def ReceiptParsingResult.lineTotals (result : ReceiptParsingResult) : List ℚ :=
  result.lineItems.filterMap LineItem.total

def lineWarning (result : ReceiptParsingResult) (epsilon : ℚ) : Option String :=
  match result.lineTotals, result.subtotal with
  | [], _ => none
  | _, none => none
  | lineTotals, some subtotal =>
    if approxEqual lineTotals.sum subtotal epsilon then none
    else some ("Line items sum to " ++ toFixed2 lineTotals.sum ++ " but subtotal is " ++
      toFixed2 subtotal ++ ".")

/-- `subtotal ?? 0 + tax ?? 0 + tip ?? 0`. -/
def ReceiptParsingResult.composed (result : ReceiptParsingResult) : ℚ :=
  result.subtotal.getD 0 + result.tax.getD 0 + result.tip.getD 0

def ReceiptParsingResult.hasComponents (result : ReceiptParsingResult) : Bool :=
  result.subtotal.isSome || result.tax.isSome || result.tip.isSome

def totalWarning (result : ReceiptParsingResult) (epsilon : ℚ) : Option String :=
  match result.hasComponents, result.total with
  | false, _ => none
  | _, none => none
  | true, some total =>
    if approxEqual result.composed total epsilon then none
    else some ("Subtotal + tax + tip = " ++ toFixed2 result.composed ++ " but total is " ++
      toFixed2 total ++ ".")

/-- A comparison that fails takes the confidence down and leaves a warning. -/
def reconcileTotals (result : ReceiptParsingResult) (epsilon : ℚ := EPSILON) :
    ReceiptParsingResult :=
  let mismatches := (lineWarning result epsilon).toList ++ (totalWarning result epsilon).toList
  { result with
    confidence := if mismatches = [] then .high else .low
    warnings := result.warnings ++ mismatches }

/-- The line totals that are reported sum to the subtotal, if both are there to compare. -/
def LinesAgree (result : ReceiptParsingResult) : Prop :=
  ∀ subtotal, result.subtotal = some subtotal → result.lineTotals ≠ [] →
    approxEqual result.lineTotals.sum subtotal EPSILON = true

/-- The components, a missing one counting as zero, sum to the total, if it and one of them
are there. -/
def TotalsAgree (result : ReceiptParsingResult) : Prop :=
  ∀ total, result.total = some total → result.hasComponents = true →
    approxEqual result.composed total EPSILON = true

/-- A value for an amount: the one reported, or any that is not negative. -/
def Fills (amount : Option ℚ) (value : ℚ) : Prop :=
  amount = some value ∨ amount = none ∧ 0 ≤ value

/-- Values can be found for what is missing under which everything adds up. -/
def Reconcilable (result : ReceiptParsingResult) : Prop :=
  ∃ lineTotals subtotal tax tip total,
    List.Forall₂ (fun item value => Fills item.total value) result.lineItems lineTotals ∧
    Fills result.subtotal subtotal ∧ Fills result.tax tax ∧ Fills result.tip tip ∧
    Fills result.total total ∧
    (result.lineItems ≠ [] → approxEqual lineTotals.sum subtotal EPSILON = true) ∧
    approxEqual (subtotal + tax + tip) total EPSILON = true

structure Complete (result : ReceiptParsingResult) : Prop where
  lines : ∀ item ∈ result.lineItems, item.total.isSome = true
  subtotal : result.subtotal.isSome = true
  tax : result.tax.isSome = true
  tip : result.tip.isSome = true
  total : result.total.isSome = true

section
variable {result : ReceiptParsingResult}

theorem lineWarning_eq_none : lineWarning result EPSILON = none ↔ LinesAgree result := by
  unfold lineWarning LinesAgree
  cases hlines : result.lineTotals with
  | nil => simp
  | cons x xs =>
    cases result.subtotal with
    | none => simp
    | some subtotal =>
      by_cases happrox : approxEqual (x + xs.sum) subtotal EPSILON = true <;> simp [happrox]

theorem totalWarning_eq_none : totalWarning result EPSILON = none ↔ TotalsAgree result := by
  unfold totalWarning TotalsAgree
  cases result.hasComponents with
  | false => simp
  | true =>
    cases result.total with
    | none => simp
    | some total =>
      by_cases happrox : approxEqual result.composed total EPSILON = true <;> simp [happrox]

theorem confidence_high_iff :
    (reconcileTotals result).confidence = .high ↔ LinesAgree result ∧ TotalsAgree result := by
  rw [← lineWarning_eq_none, ← totalWarning_eq_none]
  cases hline : lineWarning result EPSILON <;> cases htotal : totalWarning result EPSILON <;>
    simp [reconcileTotals, hline, htotal]

/-- Warnings are only ever added, and one is added exactly where the confidence is low. -/
theorem warnings_added : ∃ mismatches,
    (reconcileTotals result).warnings = result.warnings ++ mismatches ∧
      (mismatches = [] ↔ (reconcileTotals result).confidence = .high) := by
  refine ⟨_, rfl, ?_⟩
  cases hline : lineWarning result EPSILON <;> cases htotal : totalWarning result EPSILON <;>
    simp [reconcileTotals, hline, htotal]

theorem fills_some {x value : ℚ} : Fills (some x) value ↔ x = value := by simp [Fills]

theorem fills_lines {items : List LineItem} (h : ∀ item ∈ items, item.total.isSome = true)
    {values : List ℚ} :
    List.Forall₂ (fun item value => Fills item.total value) items values ↔
      items.filterMap LineItem.total = values := by
  induction items generalizing values with
  | nil => cases values <;> simp
  | cons item items ih =>
    obtain ⟨x, hx⟩ := Option.isSome_iff_exists.mp (h item (by simp))
    rw [List.filterMap_cons_some hx]
    cases values with
    | nil => simp
    | cons y ys =>
      have hrest : List.Forall₂ (fun item value => Fills item.total value) items ys ↔
          items.filterMap LineItem.total = ys := ih fun i hi => h i (by simp [hi])
      simp [hx, fills_some, hrest]

/-- Of a complete receipt the verdict says whether it reconciles. -/
theorem high_iff_reconcilable (h : Complete result) :
    (reconcileTotals result).confidence = .high ↔ Reconcilable result := by
  obtain ⟨subtotal, hsubtotal⟩ := Option.isSome_iff_exists.mp h.subtotal
  obtain ⟨tax, htax⟩ := Option.isSome_iff_exists.mp h.tax
  obtain ⟨tip, htip⟩ := Option.isSome_iff_exists.mp h.tip
  obtain ⟨total, htotal⟩ := Option.isSome_iff_exists.mp h.total
  have hfilled := (fills_lines h.lines).mpr (rfl : result.lineTotals = result.lineTotals)
  have hnil : result.lineTotals ≠ [] ↔ result.lineItems ≠ [] := by
    rw [← List.length_pos_iff, ← List.length_pos_iff, hfilled.length_eq]
  have hlines : LinesAgree result ↔
      (result.lineItems ≠ [] → approxEqual result.lineTotals.sum subtotal EPSILON = true) := by
    simp only [LinesAgree, hsubtotal, Option.some.injEq, forall_eq', hnil]
  have htotals : TotalsAgree result ↔
      approxEqual (subtotal + tax + tip) total EPSILON = true := by
    simp [TotalsAgree, ReceiptParsingResult.composed, ReceiptParsingResult.hasComponents, hsubtotal,
      htax, htip, htotal]
  rw [confidence_high_iff, hlines, htotals]
  constructor
  · rintro ⟨hsum, hall⟩
    exact ⟨_, subtotal, tax, tip, total, hfilled, .inl hsubtotal, .inl htax, .inl htip, .inl htotal,
      hsum, hall⟩
  · rintro ⟨values, s, x, p, t, hvalues, hs, hx, hp, ht, hsum, hall⟩
    rw [hsubtotal, fills_some] at hs
    rw [htax, fills_some] at hx
    rw [htip, fills_some] at hp
    rw [htotal, fills_some] at ht
    subst hs hx hp ht
    obtain rfl : result.lineTotals = values := (fills_lines h.lines).mp hvalues
    exact ⟨hsum, hall⟩

end

/-- The confidence is high exactly if what is reported of the line totals sums to a subtotal
reported beside it, and what is reported of the components to a total reported beside it; it
does not depend on the confidence the model gave; and of a complete receipt it says whether
the receipt reconciles. -/
theorem reconcileTotals_confidence (result : ReceiptParsingResult) :
    ((reconcileTotals result).confidence = .high ↔ LinesAgree result ∧ TotalsAgree result) ∧
    (∀ confidence, (reconcileTotals { result with confidence }).confidence =
      (reconcileTotals result).confidence) ∧
    (Complete result → ((reconcileTotals result).confidence = .high ↔ Reconcilable result)) :=
  ⟨confidence_high_iff, fun _ => rfl, high_iff_reconcilable⟩

namespace Sample

def blankReceipt : ReceiptParsingResult where
  merchant := { name := none, address := none, tin := none }
  dateTime := none
  currency := none
  lineItems := []
  subtotal := none
  tax := none
  tip := none
  total := none
  paymentMethod := none
  confidence := .high
  warnings := []

def taxOnly : ReceiptParsingResult := { blankReceipt with tax := some 5, total := some 105 }

def lineAboveTotal : ReceiptParsingResult :=
  { blankReceipt with
    lineItems := [{ description := "Rice", qty := none, unitPrice := none, total := some 100 }]
    total := some 50 }

/-- A receipt that reconciles is called low, and one that contradicts itself high. -/
theorem reconcileTotals_misjudges :
    ((reconcileTotals taxOnly).confidence = .low ∧ Reconcilable taxOnly) ∧
    (reconcileTotals lineAboveTotal).confidence = .high ∧ ¬ Reconcilable lineAboveTotal := by
  refine ⟨⟨by decide +kernel, ?_⟩, by decide +kernel, ?_⟩
  · refine ⟨[], 100, 5, 0, 105, .nil, .inr ⟨rfl, by norm_num⟩, .inl rfl, .inr ⟨rfl, le_refl _⟩,
      .inl rfl, fun h => absurd rfl h, by decide +kernel⟩
  · rintro ⟨values, subtotal, tax, tip, total, hlines, hsubtotal, htax, htip, htotal, hsum, hall⟩
    have hvalues : ([100] : List ℚ) = values :=
      (fills_lines (by simp [lineAboveTotal])).mp hlines
    have htotal' : total = 50 := (fills_some.mp htotal).symm
    have hnonneg : ∀ {value : ℚ}, Fills none value → 0 ≤ value := fun h => by simpa [Fills] using h
    have hclose := of_decide_eq_true (hsum (by simp [lineAboveTotal]))
    have hover := of_decide_eq_true hall
    have htax' := hnonneg htax
    have htip' := hnonneg htip
    rw [← hvalues, List.sum_singleton, abs_of_nonneg (hnonneg hsubtotal)] at hclose
    rw [htotal', abs_of_nonneg (by norm_num : (0 : ℚ) ≤ 50)] at hover
    -- The line asks for a subtotal of 98 or more, the total for one of 51 or less.
    have hlarge : 98 ≤ subtotal := by
      have hle := le_trans (le_abs_self _) hclose
      obtain h | h := le_max_iff.mp hle
      · linarith [show EPSILON = 2 / 100 from rfl]
      · rw [show EPSILON = 2 / 100 from rfl] at h
        linarith
    have hsmall : subtotal + tax + tip ≤ 51 := by
      have hle := le_trans (le_abs_self _) hover
      rw [show EPSILON = 2 / 100 from rfl] at hle
      norm_num at hle
      linarith
    linarith

end Sample
end OcrService
