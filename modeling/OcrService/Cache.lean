import OcrService.Decimals.Shortest
import OcrService.Documents

/-! The key of the extraction cache (`cache.ts`), and that it never clashes. -/
namespace OcrService
open Decimals

/-- The significand of a `number` has 53 bits. -/
def roundToNumber (m : Nat) : Nat := roundBinary 53 m

structure WholeNumber where
  value : Nat
  exact : roundToNumber value = value
  finite : value.size ≤ 1024

/-- `Number.prototype.toString`: at most 21 digits are written in full. -/
def numberText (n : WholeNumber) : String :=
  let shown := shortest roundToNumber n.value
  if shown < 10 ^ 21 then toString shown else String.ofList (scientific shown)

example : numberText ⟨2 ^ 60, rfl, by decide⟩ = "1152921504606847000" := rfl

def pageRangeText : Option (WholeNumber × WholeNumber) → String
  | some (a, b) => numberText a ++ "-" ++ numberText b
  | none => "all"

def extractionCacheKey (sha256 : Sha256Hex) (provider : String)
    (pageRange : Option (WholeNumber × WholeNumber) := none) : String :=
  "ocr:extract:" ++ sha256.text ++ ":" ++ provider ++ ":" ++ pageRangeText pageRange

theorem numberText_of_safe {n : WholeNumber} (h : n.value < 2 ^ 53) :
    numberText n = toString n.value := by
  have hshown : shortest roundToNumber n.value = n.value := by
    refine shortest_of_unique fun v hv => ?_
    by_cases hlt : v < 2 ^ 53
    · rwa [roundToNumber, roundBinary_of_lt hlt] at hv
    · have hle : 2 ^ 53 ≤ roundBinary 53 v := le_roundBinary (by decide) (Nat.not_lt.mp hlt)
      rw [roundToNumber] at hv
      omega
  have hfull : n.value < 10 ^ 21 := h.trans (by decide)
  simp only [numberText, hshown, if_pos hfull]

theorem toList_numberText (n : WholeNumber) :
    (numberText n).toList = Nat.toDigits 10 (shortest roundToNumber n.value) ∨
      (numberText n).toList = scientific (shortest roundToNumber n.value) := by
  simp only [numberText]
  split
  · exact Or.inl (by simp)
  · exact Or.inr String.toList_ofList

theorem not_mem_numberText {n : WholeNumber} {c : Char} (hc : c.isDigit = false)
    (hmarks : c ≠ '.' ∧ c ≠ 'e' ∧ c ≠ '+') : c ∉ (numberText n).toList := by
  obtain h | h := toList_numberText n
  · rw [h]
    exact not_mem_toDigits hc
  · rw [h]
    exact not_mem_scientific hc hmarks

theorem numberText_inj {a b : WholeNumber} (h : (numberText a).toList = (numberText b).toList) :
    a = b := by
  have hshown : shortest roundToNumber a.value = shortest roundToNumber b.value := by
    obtain ha | ha := toList_numberText a
    · obtain hb | hb := toList_numberText b
      · exact toDigits_inj (ha.symm.trans (h.trans hb))
      · exact absurd (ha.symm.trans (h.trans hb)) (toDigits_ne_scientific _ _)
    · obtain hb | hb := toList_numberText b
      · exact absurd (hb.symm.trans (h.symm.trans ha)) (toDigits_ne_scientific _ _)
      · exact scientific_inj (ha.symm.trans (h.trans hb))
  have hvalue : a.value = b.value := by
    rw [← round_shortest a.exact, hshown, round_shortest b.exact]
  cases a
  cases b
  cases hvalue
  rfl

theorem pageRangeText_some (a b : WholeNumber) :
    (pageRangeText (some (a, b))).toList =
      (numberText a).toList ++ '-' :: (numberText b).toList := by
  simp [pageRangeText, String.toList_append]

theorem colon_not_mem_pageRangeText (r : Option (WholeNumber × WholeNumber)) :
    ':' ∉ (pageRangeText r).toList := by
  cases r with
  | none => decide
  | some ab =>
    rw [pageRangeText_some]
    have ha := not_mem_numberText (n := ab.1) (c := ':') (by decide) (by decide)
    have hb := not_mem_numberText (n := ab.2) (c := ':') (by decide) (by decide)
    simpa using ⟨ha, hb⟩

theorem pageRangeText_some_ne_all (a b : WholeNumber) :
    (pageRangeText (some (a, b))).toList ≠ (pageRangeText none).toList := by
  intro h
  have hmem : '-' ∈ (pageRangeText none).toList := by
    rw [← h, pageRangeText_some]
    simp
  revert hmem
  decide

theorem pageRangeText_inj {r r' : Option (WholeNumber × WholeNumber)}
    (h : (pageRangeText r).toList = (pageRangeText r').toList) : r = r' := by
  cases r with
  | none =>
    cases r' with
    | none => rfl
    | some ab => exact absurd h.symm (pageRangeText_some_ne_all ab.1 ab.2)
  | some ab =>
    cases r' with
    | none => exact absurd h (pageRangeText_some_ne_all ab.1 ab.2)
    | some cd =>
      rw [pageRangeText_some, pageRangeText_some] at h
      obtain ⟨ha, hb⟩ := split_at_first (not_mem_numberText (by decide) (by decide))
        (not_mem_numberText (by decide) (by decide)) h
      rw [Prod.ext_iff.mpr ⟨numberText_inj ha, numberText_inj hb⟩]

/-- The digest has a fixed length and the range no colon, so the three parts of a key
can be read back whatever characters the provider name has. -/
theorem extractionCacheKey_inj {s s' : Sha256Hex} {p p' : String}
    {r r' : Option (WholeNumber × WholeNumber)}
    (h : extractionCacheKey s p r = extractionCacheKey s' p' r') :
    s.text = s'.text ∧ p = p' ∧ r = r' := by
  have hl : s.text.toList ++ ':' :: (p.toList ++ ':' :: (pageRangeText r).toList) =
      s'.text.toList ++ ':' :: (p'.toList ++ ':' :: (pageRangeText r').toList) := by
    have hchars := congrArg String.toList h
    have hcolon : ":".toList = [':'] := rfl
    unfold extractionCacheKey at hchars
    simp only [String.toList_append, List.append_assoc] at hchars
    have htail := List.append_cancel_left hchars
    rwa [hcolon] at htail
  obtain ⟨hs, ht⟩ := List.append_inj hl (by rw [s.length_eq, s'.length_eq])
  obtain ⟨hp, hr⟩ := split_at_last (colon_not_mem_pageRangeText r)
    (colon_not_mem_pageRangeText r') (List.cons.inj ht).2
  exact ⟨String.toList_inj.mp hs, String.toList_inj.mp hp, pageRangeText_inj hr⟩

/-- No two triples have one key. -/
theorem extractionCacheKey_eq_iff (s s' : Sha256Hex) (p p' : String)
    (r r' : Option (WholeNumber × WholeNumber)) :
    extractionCacheKey s p r = extractionCacheKey s' p' r' ↔ (s, p, r) = (s', p', r') := by
  constructor
  · intro h
    obtain ⟨hs, rfl, rfl⟩ := extractionCacheKey_inj h
    cases s
    cases s'
    cases hs
    rfl
  · intro h
    cases h
    rfl

end OcrService
