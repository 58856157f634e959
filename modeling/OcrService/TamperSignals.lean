import Mathlib.Algebra.BigOperators.Group.List.Basic
import Mathlib.Algebra.Order.Floor.Ring
import Mathlib.Data.Rat.Floor
import Mathlib.Tactic.Linarith
import Mathlib.Tactic.NormNum

/-! How tamper signals add up to a score and a verdict (`authenticity/signals.ts`, `types.ts`).
Scores are exact. -/
namespace OcrService

inductive TamperSeverity where
  | info | low | medium | high
  deriving DecidableEq

inductive TamperVerdict where
  | clean | suspicious | likelyDoctored | inconclusive
  deriving DecidableEq

inductive TamperAnalyzer where
  | pdf | image | unsupported
  deriving DecidableEq

structure TamperSignal where
  code : String
  severity : TamperSeverity
  detail : String
  deriving DecidableEq

/-- Without `assuranceLevel`, which is always `heuristic-only`. -/
structure TamperSignals where
  verdict : TamperVerdict
  score : ℚ
  signals : List TamperSignal
  analyzer : TamperAnalyzer
  notes : List String
  deriving DecidableEq

def WEIGHT : TamperSeverity → ℚ
  | .info => 0
  | .low => 15 / 100
  | .medium => 4 / 10
  | .high => 8 / 10

/-- `Number(x.toFixed(3))`, of a number from 0 on. -/
def toFixed3 (x : ℚ) : ℚ := ⌊x * 1000 + 1 / 2⌋ / 1000

def cleanness (signals : List TamperSignal) : ℚ :=
  signals.foldl (fun acc s => acc * (1 - WEIGHT s.severity)) 1

def scoreSignals (signals : List TamperSignal) : ℚ := toFixed3 (1 - cleanness signals)

def verdictFor (signals : List TamperSignal) (score : ℚ) : TamperVerdict :=
  if signals.any fun s => s.severity = .high then .likelyDoctored
  else if (signals.any fun s => s.severity = .medium) || decide (35 / 100 ≤ score) then .suspicious
  else .clean

def aggregate (analyzer : TamperAnalyzer) (signals : List TamperSignal) (notes : List String) :
    TamperSignals :=
  let score := scoreSignals signals
  { verdict := if analyzer = .unsupported then .inconclusive else verdictFor signals score
    score := score
    signals := signals
    analyzer := analyzer
    notes := notes }

theorem weight_bounds (severity : TamperSeverity) : 0 ≤ WEIGHT severity ∧ WEIGHT severity < 1 := by
  cases severity <;> norm_num [WEIGHT]

theorem cleanness_eq (signals : List TamperSignal) :
    cleanness signals = (signals.map fun s => 1 - WEIGHT s.severity).prod := by
  rw [cleanness, List.prod_eq_foldl, List.foldl_map]

theorem cleanness_perm {signals signals' : List TamperSignal} (h : signals.Perm signals') :
    cleanness signals = cleanness signals' := by
  rw [cleanness_eq, cleanness_eq]
  exact (h.map _).prod_eq

theorem cleanness_cons (s : TamperSignal) (signals : List TamperSignal) :
    cleanness (s :: signals) = (1 - WEIGHT s.severity) * cleanness signals := by
  rw [cleanness_eq, List.map_cons, List.prod_cons, ← cleanness_eq]

theorem cleanness_bounds (signals : List TamperSignal) :
    0 ≤ cleanness signals ∧ cleanness signals ≤ 1 := by
  induction signals with
  | nil => norm_num [cleanness]
  | cons s signals ih =>
    have hweight := weight_bounds s.severity
    rw [cleanness_cons]
    exact ⟨mul_nonneg (by linarith) ih.1, mul_le_one₀ (by linarith) ih.1 ih.2⟩

theorem toFixed3_mono {x y : ℚ} (h : x ≤ y) : toFixed3 x ≤ toFixed3 y := by
  have hfloor : ⌊x * 1000 + 1 / 2⌋ ≤ ⌊y * 1000 + 1 / 2⌋ := Int.floor_mono (by linarith)
  have hcast : (⌊x * 1000 + 1 / 2⌋ : ℚ) ≤ ⌊y * 1000 + 1 / 2⌋ := by exact_mod_cast hfloor
  unfold toFixed3
  linarith

theorem scoreSignals_bounds (signals : List TamperSignal) :
    0 ≤ scoreSignals signals ∧ scoreSignals signals ≤ 1 := by
  have hclean := cleanness_bounds signals
  have hlow : toFixed3 0 ≤ scoreSignals signals := toFixed3_mono (by linarith)
  have hhigh : scoreSignals signals ≤ toFixed3 1 := toFixed3_mono (by linarith)
  have hzero : toFixed3 0 = 0 := by norm_num [toFixed3]
  have hone : toFixed3 1 = 1 := by norm_num [toFixed3]
  exact ⟨hzero ▸ hlow, hone ▸ hhigh⟩

theorem scoreSignals_perm {signals signals' : List TamperSignal} (h : signals.Perm signals') :
    scoreSignals signals = scoreSignals signals' := by
  rw [scoreSignals, scoreSignals, cleanness_perm h]

/-- One more signal, wherever it stands, leaves the score or raises it. -/
theorem scoreSignals_insert (before after : List TamperSignal) (s : TamperSignal) :
    scoreSignals (before ++ after) ≤ scoreSignals (before ++ s :: after) := by
  rw [scoreSignals_perm (List.perm_middle : (before ++ s :: after).Perm _)]
  refine toFixed3_mono ?_
  have hweight := weight_bounds s.severity
  have hclean := cleanness_bounds (before ++ after)
  rw [cleanness_cons]
  nlinarith only [hweight.1, hclean.1]

def HasSeverity (severity : TamperSeverity) (signals : List TamperSignal) : Prop :=
  ∃ s ∈ signals, s.severity = severity

def lows (signals : List TamperSignal) : Nat := signals.countP fun s => s.severity = .low

theorem lows_cons (s : TamperSignal) (signals : List TamperSignal) :
    lows (s :: signals) = lows signals + if s.severity = .low then 1 else 0 := by
  simp [lows, List.countP_cons]

theorem hasSeverity_insert {severity : TamperSeverity} {before after : List TamperSignal}
    (s : TamperSignal) (h : HasSeverity severity (before ++ after)) :
    HasSeverity severity (before ++ s :: after) := by
  obtain ⟨t, ht, hseverity⟩ := h
  refine ⟨t, ?_, hseverity⟩
  rw [List.mem_append] at ht ⊢
  exact ht.imp_right (List.mem_cons_of_mem s)

theorem cleanness_lows {signals : List TamperSignal} (hhigh : ¬HasSeverity .high signals)
    (hmedium : ¬HasSeverity .medium signals) : cleanness signals = (17 / 20) ^ lows signals := by
  induction signals with
  | nil => norm_num [cleanness, lows]
  | cons s signals ih =>
    have hrest := ih (fun ⟨t, ht, h⟩ => hhigh ⟨t, List.mem_cons_of_mem s ht, h⟩)
      fun ⟨t, ht, h⟩ => hmedium ⟨t, List.mem_cons_of_mem s ht, h⟩
    rw [cleanness_cons, hrest, lows_cons]
    cases hs : s.severity with
    | info =>
      rw [if_neg (by decide), WEIGHT, add_zero]
      ring
    | low =>
      rw [if_pos rfl, pow_succ, WEIGHT]
      ring
    | medium => exact absurd ⟨s, List.mem_cons_self, hs⟩ hmedium
    | high => exact absurd ⟨s, List.mem_cons_self, hs⟩ hhigh

/-- Two low signals are not enough for the threshold, three are. -/
theorem threshold_iff {signals : List TamperSignal} (hhigh : ¬HasSeverity .high signals)
    (hmedium : ¬HasSeverity .medium signals) :
    35 / 100 ≤ scoreSignals signals ↔ 3 ≤ lows signals := by
  have hbase : (0 : ℚ) ≤ 17 / 20 := by norm_num
  have hbase' : (17 / 20 : ℚ) ≤ 1 := by norm_num
  rw [scoreSignals, cleanness_lows hhigh hmedium]
  constructor
  · intro hscore
    by_contra hfew
    have hpow : (17 / 20 : ℚ) ^ 2 ≤ (17 / 20) ^ lows signals :=
      pow_le_pow_of_le_one hbase hbase' (by omega)
    have hle : toFixed3 (1 - (17 / 20) ^ lows signals) ≤ toFixed3 (1 - (17 / 20) ^ 2) :=
      toFixed3_mono (by linarith)
    have htwo : toFixed3 (1 - (17 / 20) ^ 2) = 278 / 1000 := by
      norm_num [toFixed3]
    rw [htwo] at hle
    linarith
  · intro hthree
    have hpow : (17 / 20 : ℚ) ^ lows signals ≤ (17 / 20) ^ 3 :=
      pow_le_pow_of_le_one hbase hbase' hthree
    have hle : toFixed3 (1 - (17 / 20) ^ 3) ≤ toFixed3 (1 - (17 / 20) ^ lows signals) :=
      toFixed3_mono (by linarith)
    have hthree' : toFixed3 (1 - (17 / 20) ^ 3) = 386 / 1000 := by
      norm_num [toFixed3]
    rw [hthree'] at hle
    linarith

theorem any_severity {severity : TamperSeverity} {signals : List TamperSignal} :
    (signals.any fun s => s.severity = severity) = true ↔ HasSeverity severity signals := by
  simp [HasSeverity]

theorem verdictFor_high {signals : List TamperSignal} (h : HasSeverity .high signals) (score : ℚ) :
    verdictFor signals score = .likelyDoctored := if_pos (any_severity.mpr h)

theorem verdictFor_cases (signals : List TamperSignal) :
    verdictFor signals (scoreSignals signals) = .likelyDoctored ∧ HasSeverity .high signals ∨
    verdictFor signals (scoreSignals signals) = .suspicious ∧ ¬HasSeverity .high signals ∧
      (HasSeverity .medium signals ∨ 3 ≤ lows signals) ∨
    verdictFor signals (scoreSignals signals) = .clean ∧ ¬HasSeverity .high signals ∧
      ¬(HasSeverity .medium signals ∨ 3 ≤ lows signals) := by
  by_cases hhigh : HasSeverity .high signals
  · exact .inl ⟨verdictFor_high hhigh _, hhigh⟩
  · unfold verdictFor
    rw [if_neg fun h => hhigh (any_severity.mp h)]
    by_cases hmedium : HasSeverity .medium signals
    · refine .inr (.inl ⟨?_, hhigh, .inl hmedium⟩)
      rw [any_severity.mpr hmedium]
      rfl
    · have hnone : (signals.any fun s => s.severity = .medium) = false := by
        rw [← Bool.not_eq_true, any_severity]
        exact hmedium
      rw [hnone, Bool.false_or]
      by_cases hlows : 3 ≤ lows signals
      · refine .inr (.inl ⟨?_, hhigh, .inr hlows⟩)
        exact if_pos (decide_eq_true ((threshold_iff hhigh hmedium).mpr hlows))
      · refine .inr (.inr ⟨?_, hhigh, not_or.mpr ⟨hmedium, hlows⟩⟩)
        exact if_neg fun h => hlows ((threshold_iff hhigh hmedium).mp (of_decide_eq_true h))

def TamperVerdict.rank : TamperVerdict → Nat
  | .clean | .inconclusive => 0
  | .suspicious => 1
  | .likelyDoctored => 2

theorem verdictFor_insert (before after : List TamperSignal) (s : TamperSignal) :
    (verdictFor (before ++ after) (scoreSignals (before ++ after))).rank ≤
      (verdictFor (before ++ s :: after) (scoreSignals (before ++ s :: after))).rank := by
  have hlows : lows (before ++ after) ≤ lows (before ++ s :: after) := by
    simp only [lows, List.countP_append, List.countP_cons]
    omega
  obtain ⟨hverdict, hhigh⟩ | ⟨hverdict, -, hcount⟩ | ⟨hverdict, -⟩ :=
    verdictFor_cases (before ++ after)
  · obtain ⟨hverdict', -⟩ | ⟨-, hhigh', -⟩ | ⟨-, hhigh', -⟩ :=
      verdictFor_cases (before ++ s :: after)
    · rw [hverdict, hverdict']
    · exact absurd (hasSeverity_insert s hhigh) hhigh'
    · exact absurd (hasSeverity_insert s hhigh) hhigh'
  · obtain ⟨hverdict', -⟩ | ⟨hverdict', -⟩ | ⟨-, -, hcount'⟩ :=
      verdictFor_cases (before ++ s :: after)
    · rw [hverdict, hverdict']
      decide
    · rw [hverdict, hverdict']
    · refine absurd (hcount.imp (hasSeverity_insert s) fun h => ?_) hcount'
      omega
  · rw [hverdict]
    exact Nat.zero_le _

/-- The score does not depend on the order of the signals, one more signal lowers neither the
score nor the verdict, and the verdict is a matter of counting. -/
theorem aggregate_spec {analyzer : TamperAnalyzer} (hanalyzer : analyzer ≠ .unsupported)
    (signals : List TamperSignal) (notes : List String) :
    let result := aggregate analyzer signals notes
    (0 ≤ result.score ∧ result.score ≤ 1) ∧
    (∀ signals', signals'.Perm signals → (aggregate analyzer signals' notes).score = result.score) ∧
    (∀ before after s, signals = before ++ after →
      let result' := aggregate analyzer (before ++ s :: after) notes
      result.score ≤ result'.score ∧ result.verdict.rank ≤ result'.verdict.rank) ∧
    (result.verdict = .likelyDoctored ↔ HasSeverity .high signals) ∧
    (result.verdict = .suspicious ↔
      ¬HasSeverity .high signals ∧ (HasSeverity .medium signals ∨ 3 ≤ lows signals)) ∧
    (result.verdict = .clean ↔
      ¬HasSeverity .high signals ∧ ¬(HasSeverity .medium signals ∨ 3 ≤ lows signals)) := by
  have hverdict (signals : List TamperSignal) : (aggregate analyzer signals notes).verdict =
      verdictFor signals (scoreSignals signals) := if_neg hanalyzer
  simp only [hverdict]
  refine ⟨scoreSignals_bounds signals, fun signals' h => scoreSignals_perm h, ?_, ?_⟩
  · intro before after s hsignals
    obtain rfl := hsignals
    exact ⟨scoreSignals_insert before after s, verdictFor_insert before after s⟩
  · obtain ⟨h, hhigh⟩ | ⟨h, hhigh, hcount⟩ | ⟨h, hhigh, hcount⟩ := verdictFor_cases signals
    · simp [h, hhigh]
    · simp [h, hhigh, hcount]
    · simp only [h, hhigh, hcount]
      simp

namespace Sample

def softSignals : List TamperSignal :=
  [⟨"PDF_PRODUCER_CREATOR_MISMATCH", .low, "Last written by an editor"⟩,
    ⟨"PDF_SIGNED", .info, "Contains a digital signature (/ByteRange present)."⟩]

theorem aggregate_softSignals :
    let result := aggregate .pdf softSignals []
    (0 ≤ result.score ∧ result.score ≤ 1) ∧
    (∀ signals', signals'.Perm softSignals →
      (aggregate .pdf signals' []).score = result.score) ∧
    (∀ before after s, softSignals = before ++ after →
      let result' := aggregate .pdf (before ++ s :: after) []
      result.score ≤ result'.score ∧ result.verdict.rank ≤ result'.verdict.rank) ∧
    (result.verdict = .likelyDoctored ↔ HasSeverity .high softSignals) ∧
    (result.verdict = .suspicious ↔ ¬HasSeverity .high softSignals ∧
      (HasSeverity .medium softSignals ∨ 3 ≤ lows softSignals)) ∧
    (result.verdict = .clean ↔ ¬HasSeverity .high softSignals ∧
      ¬(HasSeverity .medium softSignals ∨ 3 ≤ lows softSignals)) :=
  aggregate_spec (by decide) softSignals []

end Sample

end OcrService
