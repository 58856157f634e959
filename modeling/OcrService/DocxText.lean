import OcrService.Providers
import Mathlib.Data.List.Chain

/-! Word documents (`providers/mammoth.ts`), and what their plain text is free of. -/
namespace OcrService

/-- `html.replace(/<[^>]+>/g, " ")`, where `seen` is the text since a `<` that is still open. -/
def stripTags : Option (List Char) → List Char → List Char
  | none, [] => []
  | none, c :: rest => if c = '<' then stripTags (some []) rest else c :: stripTags none rest
  | some seen, [] => '<' :: seen
  | some seen, c :: rest =>
    if c ≠ '>' then stripTags (some (seen ++ [c])) rest
    else if seen = [] then '<' :: '>' :: stripTags none rest
    else ' ' :: stripTags none rest

/-- `text.replace(/\s+/g, " ")`; `inside` a run of whitespace that has been replaced. -/
def collapseSpaces (inside : Bool) : List Char → List Char
  | [] => []
  | c :: rest =>
    if jsWhitespace c then
      if inside then collapseSpaces true rest else ' ' :: collapseSpaces true rest
    else c :: collapseSpaces false rest

def htmlToText (html : String) : String :=
  jsTrim (String.ofList (collapseSpaces false (stripTags none html.toList)))

/-- What the provider uses of `mammoth` and of `turndown`. -/
structure DocxReader where
  convertToHtml : Buffer → Except Thrown String
  turndown : String → String

def mammothRecognize (reader : DocxReader) (durationMs : Nat) (input : DocumentInput) :
    Except Thrown RecognizedDocument :=
  (reader.convertToHtml input.buffer).map fun html =>
    let markdown := jsTrim (reader.turndown html)
    { markdown
      plainText := htmlToText html
      pages := [{ page := 1, markdown }]
      blocks := []
      pageCount := 1
      provider := mammoth.name
      durationMs }

def HasTag (cs : List Char) : Prop :=
  ∃ before inner after, cs = before ++ '<' :: (inner ++ '>' :: after) ∧ inner ≠ [] ∧ '>' ∉ inner

theorem HasTag.mono {cs ds : List Char} (h : HasTag cs) (hpart : cs <:+: ds) : HasTag ds := by
  obtain ⟨before, inner, after, rfl, hinner⟩ := h
  obtain ⟨pre, post, rfl⟩ := hpart
  exact ⟨pre ++ before, inner, after ++ post, by simp, hinner⟩

theorem hasTag_cons {c : Char} {cs : List Char} :
    HasTag (c :: cs) ↔
      (c = '<' ∧ cs.head? ≠ some '>' ∧ '>' ∈ cs) ∨ HasTag cs := by
  constructor
  · rintro ⟨before, inner, after, hcs, hinner, hnone⟩
    cases before with
    | nil =>
      cases hcs
      refine Or.inl ⟨rfl, ?_, by simp⟩
      cases inner with
      | nil => exact absurd rfl hinner
      | cons d inner =>
        rintro hd
        simp only [List.cons_append, List.head?_cons, Option.some.injEq] at hd
        exact hnone (hd ▸ List.mem_cons_self)
    | cons d before =>
      cases hcs
      exact Or.inr ⟨before, inner, after, rfl, hinner, hnone⟩
  · rintro (⟨rfl, hhead, hmem⟩ | h)
    · obtain ⟨inner, after, rfl, hnone⟩ := List.eq_append_cons_of_mem hmem
      refine ⟨[], inner, after, rfl, ?_, hnone⟩
      rintro rfl
      exact hhead rfl
    · exact h.mono ⟨[c], [], by simp⟩

theorem hasTag_cons_of_ne {c : Char} {cs : List Char} (hc : c ≠ '<') :
    HasTag (c :: cs) ↔ HasTag cs := by
  rw [hasTag_cons, or_iff_right fun h => hc h.1]

theorem not_hasTag_of_not_mem {cs : List Char} (h : '>' ∉ cs) : ¬HasTag cs := by
  rintro ⟨before, inner, after, rfl, -, -⟩
  exact h (by simp)

/-- No tag is left, and none comes about. -/
theorem stripTags_noTag (cs : List Char) :
    ¬HasTag (stripTags none cs) ∧ ∀ seen, '>' ∉ seen → ¬HasTag (stripTags (some seen) cs) := by
  induction cs with
  | nil =>
    refine ⟨not_hasTag_of_not_mem (by simp [stripTags]), fun seen hseen => ?_⟩
    exact not_hasTag_of_not_mem (by simp [stripTags, hseen])
  | cons c rest ih =>
    obtain ⟨hnone, hsome⟩ := ih
    refine ⟨?_, fun seen hseen => ?_⟩
    · rw [stripTags]
      split
      · exact hsome [] (by simp)
      · rename_i hc
        rwa [hasTag_cons_of_ne hc]
    · rw [stripTags]
      split
      · rename_i hc
        exact hsome _ (by simp [hseen, Ne.symm hc])
      split
      · rw [hasTag_cons, hasTag_cons_of_ne (by decide)]
        simpa using hnone
      · rwa [hasTag_cons_of_ne (by decide)]

theorem stripTags_of_noTag (cs : List Char) :
    (¬HasTag cs → stripTags none cs = cs) ∧
      ∀ seen, '>' ∉ seen → ¬HasTag ('<' :: (seen ++ cs)) →
        stripTags (some seen) cs = '<' :: (seen ++ cs) := by
  induction cs with
  | nil => simp [stripTags]
  | cons c rest ih =>
    obtain ⟨hnone, hsome⟩ := ih
    refine ⟨fun h => ?_, fun seen hseen h => ?_⟩
    · rw [stripTags]
      split
      · rename_i hc
        rw [hsome [] (by simp) (by simpa [hc] using h), hc]
        rfl
      · rw [hnone fun hrest => h (hasTag_cons.mpr (Or.inr hrest))]
    · rw [stripTags]
      split
      · rename_i hc
        rw [hsome _ (by simp [hseen, Ne.symm hc]) (by simpa using h)]
        simp
      · rename_i hc
        obtain rfl := not_ne_iff.mp hc
        split
        · rename_i hempty
          rw [hnone fun hrest => h (hrest.mono ⟨'<' :: (seen ++ ['>']), [], by simp⟩), hempty]
          rfl
        · rename_i hne
          exact absurd ⟨[], seen, rest, rfl, hne, hseen⟩ h

def SingleSpaced (cs : List Char) : Prop :=
  (∀ c ∈ cs, jsWhitespace c = true → c = ' ') ∧
    cs.IsChain fun c d => jsWhitespace c = true → jsWhitespace d = false

theorem SingleSpaced.part {cs ds : List Char} (h : SingleSpaced ds) (hpart : cs <:+: ds) :
    SingleSpaced cs := by
  obtain ⟨pre, post, rfl⟩ := hpart
  exact ⟨fun c hc => h.1 c (by simp [hc]), h.2.left_of_append.right_of_append⟩

theorem singleSpaced_cons {c : Char} {cs : List Char} :
    SingleSpaced (c :: cs) ↔
      (jsWhitespace c = true → c = ' ' ∧ ∀ d, cs.head? = some d → jsWhitespace d = false) ∧
        SingleSpaced cs := by
  simp only [SingleSpaced, List.forall_mem_cons, List.isChain_cons, Option.mem_def]
  constructor
  · rintro ⟨⟨hc, hcs⟩, hhead, hchain⟩
    exact ⟨fun h => ⟨hc h, fun d hd => hhead d hd h⟩, hcs, hchain⟩
  · rintro ⟨hc, hcs, hchain⟩
    exact ⟨⟨fun h => (hc h).1, hcs⟩, fun d hd h => (hc h).2 d hd, hchain⟩

theorem collapseSpaces_singleSpaced (cs : List Char) (inside : Bool) :
    SingleSpaced (collapseSpaces inside cs) ∧
      (inside = true →
        ∀ d, (collapseSpaces inside cs).head? = some d → jsWhitespace d = false) := by
  induction cs generalizing inside with
  | nil => simp [collapseSpaces, SingleSpaced]
  | cons c rest ih =>
    cases hc : jsWhitespace c with
    | true =>
      cases inside with
      | true => simpa [collapseSpaces, hc] using ih true
      | false =>
        obtain ⟨hrest, hhead⟩ := ih true
        simp only [collapseSpaces, hc, if_true, Bool.false_eq_true, if_false, false_implies,
          and_true]
        exact singleSpaced_cons.mpr ⟨fun _ => ⟨rfl, hhead rfl⟩, hrest⟩
    | false =>
      simp only [collapseSpaces, hc, Bool.false_eq_true, if_false]
      refine ⟨singleSpaced_cons.mpr ⟨fun h => absurd h (by simp [hc]), (ih false).1⟩, ?_⟩
      rintro - d ⟨⟩
      exact hc

theorem collapseSpaces_of_singleSpaced {cs : List Char} (h : SingleSpaced cs) :
    collapseSpaces false cs = cs ∧
      ((∀ d, cs.head? = some d → jsWhitespace d = false) → collapseSpaces true cs = cs) := by
  induction cs with
  | nil => exact ⟨rfl, fun _ => rfl⟩
  | cons c rest ih =>
    obtain ⟨hc, hrest⟩ := singleSpaced_cons.mp h
    obtain ⟨hfalse, htrue⟩ := ih hrest
    cases hwhite : jsWhitespace c with
    | true =>
      obtain ⟨rfl, hhead⟩ := hc hwhite
      refine ⟨?_, fun hnone => absurd (hnone ' ' rfl) (by simp [hwhite])⟩
      simp only [collapseSpaces, hwhite, if_true, Bool.false_eq_true, if_false, htrue hhead]
    | false => simp [collapseSpaces, hwhite, hfalse]

theorem mem_collapseSpaces {d : Char} (hd : d ≠ ' ') {cs : List Char} {inside : Bool}
    (h : d ∈ collapseSpaces inside cs) : d ∈ cs := by
  induction cs generalizing inside with
  | nil => exact h
  | cons c rest ih =>
    cases hc : jsWhitespace c with
    | true =>
      have hrest : d ∈ collapseSpaces true rest := by
        cases inside <;> simpa [collapseSpaces, hc, hd] using h
      exact List.mem_cons_of_mem _ (ih hrest)
    | false =>
      simp only [collapseSpaces, hc, Bool.false_eq_true, if_false, List.mem_cons] at h ⊢
      exact h.imp_right ih

theorem HasTag.of_collapseSpaces {cs : List Char} {inside : Bool}
    (h : HasTag (collapseSpaces inside cs)) : HasTag cs := by
  induction cs generalizing inside with
  | nil => exact h
  | cons c rest ih =>
    cases hc : jsWhitespace c with
    | true =>
      rw [hasTag_cons]
      cases inside with
      | true => exact Or.inr (ih (by simpa [collapseSpaces, hc] using h))
      | false =>
        simp only [collapseSpaces, hc, if_true, Bool.false_eq_true, if_false] at h
        exact Or.inr (ih ((hasTag_cons_of_ne (by decide)).mp h))
    | false =>
      simp only [collapseSpaces, hc, Bool.false_eq_true, if_false] at h
      rw [hasTag_cons] at h ⊢
      refine h.imp (fun ⟨hlt, hhead, hmem⟩ => ⟨hlt, fun hgt => hhead ?_, ?_⟩) ih
      · obtain ⟨after, rfl⟩ := List.head?_eq_some_iff.mp hgt
        rfl
      · exact mem_collapseSpaces (by decide) hmem

theorem jsTrim_part (s : String) : (jsTrim s).toList <:+: s.toList := by
  rw [jsTrim, String.toList_ofList]
  have hlast := List.rdropWhile_prefix jsWhitespace (s.toList.dropWhile jsWhitespace)
  exact hlast.isInfix.trans (List.dropWhile_suffix jsWhitespace).isInfix

/-- The plain text of a Word document has no tags in it, its words are one space apart, and none
of this changes it once more. -/
theorem htmlToText_plain (html : String) :
    ¬HasTag (htmlToText html).toList ∧ SingleSpaced (htmlToText html).toList ∧
      jsTrim (htmlToText html) = htmlToText html ∧
      htmlToText (htmlToText html) = htmlToText html := by
  have hpart : (htmlToText html).toList <:+: collapseSpaces false (stripTags none html.toList) := by
    have htrim := jsTrim_part (String.ofList (collapseSpaces false (stripTags none html.toList)))
    rwa [String.toList_ofList] at htrim
  have htag : ¬HasTag (htmlToText html).toList := fun h =>
    (stripTags_noTag html.toList).1 (h.mono hpart).of_collapseSpaces
  have hspaced : SingleSpaced (htmlToText html).toList :=
    (collapseSpaces_singleSpaced _ false).1.part hpart
  have htrim : jsTrim (htmlToText html) = htmlToText html := jsTrim_jsTrim _
  refine ⟨htag, hspaced, htrim, ?_⟩
  rw [htmlToText, (stripTags_of_noTag _).1 htag, (collapseSpaces_of_singleSpaced hspaced).1,
    String.ofList_toList, htrim]

example : htmlToText "<p>a < b</p>\n<p>c <> d</p>" = "a c <> d" := by decide +kernel

end OcrService
