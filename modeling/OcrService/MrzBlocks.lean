import OcrService.IdVerification

/-! Where `parseMrz` finds a machine-readable zone: the text around it, its line ends and the
spaces inside it. -/
namespace OcrService

/-- The lines that `parse` of the `mrz` package does not throw on: TD1, TD2 and TD3. -/
def MrzShape (lines : List String) : Prop :=
  lines.map jsLength ∈ [[30, 30, 30], [36, 36], [44, 44]]

def isMrzChar (c : Char) : Bool := ('A' ≤ c && c ≤ 'Z') || ('0' ≤ c && c ≤ '9') || c = '<'

inductive LineEnd where
  | lf | crlf

def LineEnd.chars : LineEnd → List Char
  | lf => ['\n']
  | crlf => ['\r', '\n']

structure Spaced (line typed : List Char) : Prop where
  one_line : '\n' ∉ typed
  chars : typed.filter (fun c => !jsWhitespace c) = line

inductive LaidOut (after : List Char) : List (List Char) → List Char → Prop
  | after : LaidOut after [] after
  | last {line typed : List Char} (h : Spaced line typed) (hafter : after = []) :
    LaidOut after [line] typed
  | line {line typed rest : List Char} {lines : List (List Char)} (h : Spaced line typed)
    (ending : LineEnd) (hrest : LaidOut after lines rest) :
    LaidOut after (line :: lines) (typed ++ (ending.chars ++ rest))

/-- The block stands on lines of its own, behind any text and before a text that has no line
that could belong to it. -/
structure Surrounds (lines : List (List Char)) (text : String) : Prop where
  laid : ∃ before block after, text.toList = before ++ block ∧
    (before = [] ∨ ∃ p, before = p ++ ['\n']) ∧ LaidOut after lines block ∧
    ∀ line ∈ splitLines after, isMrzLine (squeezeLine line) = false

def squeezedLines (cs : List Char) : List (List Char) := (splitLines cs).map squeezeLine

theorem squeezeLine_append (xs ys : List Char) :
    squeezeLine (xs ++ ys) = squeezeLine xs ++ squeezeLine ys := by
  simp [squeezeLine]

theorem splitLines_cons_ne_nil (cs : List Char) : ∃ line lines, splitLines cs = line :: lines := by
  fun_cases splitLines cs with
  | case1 | case2 | case3 | case4 | case5 => exact ⟨_, _, rfl⟩

theorem squeezedLines_cons {c : Char} (h : c ≠ '\n') (cs : List Char) :
    squeezedLines (c :: cs) = (squeezedLines cs).modifyHead (squeezeLine [c] ++ ·) := by
  by_cases hreturn : ∃ rest, c = '\r' ∧ cs = '\n' :: rest
  · obtain ⟨rest, rfl, rfl⟩ := hreturn
    rfl
  · obtain ⟨line, lines, hsplit⟩ := splitLines_cons_ne_nil cs
    have hcons : splitLines (c :: cs) = (c :: line) :: lines := by
      rw [splitLines, hsplit]
      · exact fun rest hc hcs => hreturn ⟨rest, hc, hcs⟩
      · exact h
    rw [squeezedLines, squeezedLines, hcons, hsplit, List.map_cons, List.map_cons,
      List.modifyHead_cons, ← squeezeLine_append]
    rfl

theorem squeezedLines_ne_nil (cs : List Char) : squeezedLines cs ≠ [] := by
  obtain ⟨line, lines, hsplit⟩ := splitLines_cons_ne_nil cs
  simp [squeezedLines, hsplit]

theorem squeezedLines_newline (p cs : List Char) :
    squeezedLines (p ++ '\n' :: cs) = squeezedLines p ++ squeezedLines cs := by
  induction p with
  | nil => rfl
  | cons c p ih =>
    by_cases hc : c = '\n'
    · subst hc
      change [] :: squeezedLines (p ++ '\n' :: cs) = [] :: squeezedLines p ++ squeezedLines cs
      rw [ih]
      rfl
    · obtain ⟨line, lines, hp⟩ := List.exists_cons_of_ne_nil (squeezedLines_ne_nil p)
      rw [List.cons_append, squeezedLines_cons hc, squeezedLines_cons hc, ih, hp]
      rfl

theorem squeezedLines_of_not_mem {typed : List Char} (h : '\n' ∉ typed) :
    squeezedLines typed = [squeezeLine typed] := by
  induction typed with
  | nil => rfl
  | cons c typed ih =>
    have hc : c ≠ '\n' := fun he => h (by simp [he])
    have hrest := ih fun hmem => h (List.mem_cons_of_mem _ hmem)
    rw [squeezedLines_cons hc, hrest, List.modifyHead_cons, ← squeezeLine_append]
    rfl

theorem toNat_lt_of_mrz {c : Char} (h : isMrzChar c = true) : c.toNat < 128 := by
  simp only [isMrzChar, Bool.or_eq_true, Bool.and_eq_true, decide_eq_true_eq] at h
  obtain (⟨-, h⟩ | ⟨-, h⟩) | rfl := h
  · exact Nat.lt_of_le_of_lt (UInt32.le_iff_toNat_le.mp h) (by decide)
  · exact Nat.lt_of_le_of_lt (UInt32.le_iff_toNat_le.mp h) (by decide)
  · decide

theorem of_mrz_ascii {P : Char → Prop}
    (hascii : ∀ n < 128, isMrzChar (Char.ofNat n) = true → P (Char.ofNat n)) {c : Char}
    (h : isMrzChar c = true) : P c := by
  have hofNat := hascii c.toNat (toNat_lt_of_mrz h)
  rw [Char.ofNat_toNat] at hofNat
  exact hofNat h

theorem jsUpperCase_of_mrz {c : Char} (h : isMrzChar c = true) : jsUpperCase c = [c] :=
  of_mrz_ascii (P := fun c => jsUpperCase c = [c]) (by decide +kernel) h

theorem not_whitespace_of_mrz {c : Char} (h : isMrzChar c = true) : jsWhitespace c = false :=
  of_mrz_ascii (P := fun c => jsWhitespace c = false) (by decide +kernel) h

theorem flatMap_upperCase {line : List Char} (h : line.all isMrzChar = true) :
    line.flatMap jsUpperCase = line := by
  induction line with
  | nil => rfl
  | cons c line ih =>
    rw [List.all_cons, Bool.and_eq_true] at h
    rw [List.flatMap_cons, jsUpperCase_of_mrz h.1, ih h.2]
    rfl

theorem Spaced.squeezeLine {line typed : List Char} (h : Spaced line typed)
    (hchars : line.all isMrzChar = true) : squeezeLine typed = line := by
  rw [OcrService.squeezeLine, h.chars, flatMap_upperCase hchars]

/-- A block laid out is read as its lines, whatever is typed between their characters. -/
theorem LaidOut.read {after block : List Char} {lines : List (List Char)}
    (h : LaidOut after lines block) (hchars : ∀ line ∈ lines, line.all isMrzChar = true) :
    squeezedLines block = lines ++ squeezedLines after ∨
      squeezedLines block = lines ∧ after = [] := by
  induction h with
  | after => exact .inl rfl
  | last h hafter =>
    rw [squeezedLines_of_not_mem h.one_line, h.squeezeLine (hchars _ (by simp))]
    exact .inr ⟨rfl, hafter⟩
  | @line line typed rest lines h ending hrest ih =>
    have hline := h.squeezeLine (hchars line (by simp))
    have hread : squeezedLines (typed ++ (ending.chars ++ rest)) =
        line :: squeezedLines rest := by
      cases ending with
      | lf =>
        change squeezedLines (typed ++ '\n' :: rest) = line :: squeezedLines rest
        rw [squeezedLines_newline, squeezedLines_of_not_mem h.one_line, hline]
        rfl
      | crlf =>
        have hone : '\n' ∉ typed ++ ['\r'] := by simp [h.one_line]
        have hsplit :
            typed ++ (LineEnd.crlf.chars ++ rest) = (typed ++ ['\r']) ++ '\n' :: rest := by
          simp [LineEnd.chars]
        rw [hsplit, squeezedLines_newline, squeezedLines_of_not_mem hone, squeezeLine_append, hline]
        change [line ++ []] ++ squeezedLines rest = line :: squeezedLines rest
        rw [List.append_nil]
        rfl
    rw [hread]
    obtain hrest | ⟨hrest, hafter⟩ := ih fun l hl => hchars l (List.mem_cons_of_mem _ hl)
    · exact .inl (by rw [hrest]; rfl)
    · exact .inr ⟨by rw [hrest], hafter⟩

/-- Around the block nothing that follows is a line of a zone. -/
theorem Surrounds.read {lines : List (List Char)} {text : String} (h : Surrounds lines text)
    (hchars : ∀ line ∈ lines, line.all isMrzChar = true) :
    ∃ pre post, squeezedLines text.toList = pre ++ (lines ++ post) ∧
      ∀ line ∈ post, isMrzLine line = false := by
  obtain ⟨before, block, after, htext, hbefore, hlaid, hafter⟩ := h.laid
  have hblock : ∃ post, squeezedLines block = lines ++ post ∧
      ∀ line ∈ post, isMrzLine line = false := by
    obtain hread | ⟨hread, -⟩ := hlaid.read hchars
    · refine ⟨_, hread, fun line hmem => ?_⟩
      obtain ⟨l, hl, rfl⟩ := List.mem_map.mp hmem
      exact hafter l hl
    · exact ⟨[], by rw [hread, List.append_nil], fun _ hmem => (nomatch hmem)⟩
  obtain ⟨post, hread, hpost⟩ := hblock
  obtain rfl | ⟨p, rfl⟩ := hbefore
  · exact ⟨[], post, by rw [htext, List.nil_append, hread]; rfl, hpost⟩
  · refine ⟨squeezedLines p, post, ?_, hpost⟩
    rw [htext, List.append_assoc, List.singleton_append, squeezedLines_newline, hread]

theorem jsLength_of_mrz {line : List Char} (h : line.all isMrzChar = true) :
    jsLength (String.ofList line) = line.length := by
  rw [jsLength, String.toList_ofList]
  induction line with
  | nil => rfl
  | cons c line ih =>
    rw [List.all_cons, Bool.and_eq_true] at h
    have hbmp : ¬ c.val > 0xFFFF := by
      have hlt : c.val.toNat < 128 := toNat_lt_of_mrz h.1
      rw [gt_iff_lt, UInt32.lt_iff_toNat_lt]
      exact Nat.not_lt.mpr (Nat.le_trans (Nat.le_of_lt hlt) (by decide))
    rw [List.map_cons, List.sum_cons, if_neg hbmp, ih h.2, List.length_cons, Nat.add_comm]

theorem sliceLast_append {α : Type} {n : Nat} (xs : List α) {ys : List α} (h : ys.length = n) :
    sliceLast n (xs ++ ys) = ys := by
  rw [sliceLast, List.length_append, h, Nat.add_sub_cancel, List.drop_left]

theorem MrzShape.lengths {lines : List String} (h : MrzShape lines) :
    lines.length = 3 ∧ (∀ line ∈ lines, jsLength line = 30) ∨
      lines.length = 2 ∧ ∀ line ∈ lines, 30 < jsLength line ∧ jsLength line ≤ 44 := by
  have hlength : lines.length = (lines.map jsLength).length := by simp
  have hlines : ∀ line ∈ lines, jsLength line ∈ lines.map jsLength :=
    fun line hmem => List.mem_map_of_mem hmem
  simp only [MrzShape, List.mem_cons, List.not_mem_nil, or_false] at h
  obtain h | h | h := h <;> rw [h] at hlength hlines <;>
    simp only [List.mem_cons, List.not_mem_nil, or_false] at hlines
  · exact .inl ⟨hlength, fun line hmem => by have := hlines line hmem; omega⟩
  · exact .inr ⟨hlength, fun line hmem => by have := hlines line hmem; omega⟩
  · exact .inr ⟨hlength, fun line hmem => by have := hlines line hmem; omega⟩

section Parse
variable {parse : List String → Option MrzLines}
  (hshape : ∀ lines, (parse lines).isSome = true → MrzShape lines)

include hshape in
theorem lengths_of_tryParse {lines : List (List Char)} {result : MrzParseResult}
    (h : tryParse parse lines = some result) :
    lines.length = 3 ∧ (∀ line ∈ lines, line.all isMrzChar = true → line.length = 30) ∨
      lines.length = 2 ∧ ∀ line ∈ lines, line.all isMrzChar = true →
        30 < line.length ∧ line.length ≤ 44 := by
  have hparsed : (parse (lines.map String.ofList)).isSome = true := by
    unfold tryParse at h
    cases hparse : parse (lines.map String.ofList) with
    | none =>
      rw [hparse] at h
      cases h
    | some f => rfl
  have hline : ∀ line ∈ lines, line.all isMrzChar = true →
      jsLength (String.ofList line) = line.length ∧
        String.ofList line ∈ lines.map String.ofList :=
    fun line hmem hchars => ⟨jsLength_of_mrz hchars, List.mem_map_of_mem hmem⟩
  obtain ⟨hthree, hall⟩ | ⟨htwo, hall⟩ := (hshape _ hparsed).lengths
  · refine .inl ⟨by rwa [List.length_map] at hthree, fun line hmem hchars => ?_⟩
    rw [← (hline line hmem hchars).1]
    exact hall _ (hline line hmem hchars).2
  · refine .inr ⟨by rwa [List.length_map] at htwo, fun line hmem hchars => ?_⟩
    rw [← (hline line hmem hchars).1]
    exact hall _ (hline line hmem hchars).2

include hshape in
/-- Neither three lines are parsed of which one is longer than a TD1's, nor two of which one
is no longer. -/
theorem tryParse_eq_none {lines : List (List Char)} {line : List Char} (hmem : line ∈ lines)
    (hchars : line.all isMrzChar = true) (h : lines.length = 3 ↔ line.length ≠ 30) :
    tryParse parse lines = none := by
  cases htry : tryParse parse lines with
  | none => rfl
  | some result =>
    obtain ⟨hthree, hall⟩ | ⟨htwo, hall⟩ := lengths_of_tryParse hshape htry
    · exact absurd (hall line hmem hchars) (h.mp hthree)
    · have hlong := hall line hmem hchars
      have hthree := h.mpr (Nat.ne_of_gt hlong.1)
      omega

theorem mrzCandidates_eq (text : String) : mrzCandidates text =
    (squeezedLines text.toList).filter fun line => isMrzLine line && line.contains '<' := rfl

theorem isMrzLine_of_length {line : List Char} (hchars : line.all isMrzChar = true)
    (hlength : 28 ≤ line.length ∧ line.length ≤ 44) : isMrzLine line = true := by
  unfold isMrzLine
  rw [Bool.and_eq_true, Bool.and_eq_true, decide_eq_true_eq, decide_eq_true_eq]
  exact ⟨hlength, hchars⟩

include hshape in
theorem plausible_of_tryParse {lines : List (List Char)} {result : MrzParseResult}
    (hchars : ∀ line ∈ lines, line.all isMrzChar = true)
    (h : tryParse parse lines = some result) :
    ∀ line ∈ lines, 28 ≤ line.length ∧ line.length ≤ 44 := by
  intro line hmem
  obtain ⟨-, hall⟩ | ⟨-, hall⟩ := lengths_of_tryParse hshape h
  · have hline := hall line hmem (hchars line hmem)
    omega
  · have hline := hall line hmem (hchars line hmem)
    omega

theorem filter_block {lines : List (List Char)}
    (hchars : ∀ line ∈ lines, line.all isMrzChar = true)
    (hlength : ∀ line ∈ lines, 28 ≤ line.length ∧ line.length ≤ 44) :
    lines.filter (fun line => isMrzLine line && line.contains '<') =
      lines.filter (List.contains · '<') := by
  refine List.filter_congr fun line hmem => ?_
  rw [isMrzLine_of_length (hchars line hmem) (hlength line hmem), Bool.true_and]

/-- Of a text around a block the last candidates are the lines of the block that have a filler. -/
theorem Surrounds.candidates {lines : List (List Char)} {text : String} (h : Surrounds lines text)
    (hchars : ∀ line ∈ lines, line.all isMrzChar = true)
    (hlength : ∀ line ∈ lines, 28 ≤ line.length ∧ line.length ≤ 44) :
    ∃ pre, mrzCandidates text = pre ++ lines.filter (List.contains · '<') := by
  obtain ⟨pre, post, hread, hpost⟩ := h.read hchars
  have hnone : post.filter (fun line => isMrzLine line && line.contains '<') = [] := by
    refine List.filter_eq_nil_iff.mpr fun line hmem => ?_
    simp [hpost line hmem]
  rw [mrzCandidates_eq, hread, List.filter_append, List.filter_append, hnone,
    filter_block hchars hlength, List.append_nil]
  exact ⟨_, rfl⟩

theorem parseMrz_three {text : String} {pre lines : List (List Char)}
    (hcandidates : mrzCandidates text = pre ++ lines) (hlength : lines.length = 3) :
    parseMrz parse text = (tryParse parse lines).or (tryParse parse lines.tail) := by
  obtain ⟨line, rest, rfl⟩ := List.exists_cons_of_length_eq_add_one hlength
  have hmany : (pre ++ line :: rest).length ≥ 3 := by rw [List.length_append]; omega
  have htwo : sliceLast 2 (pre ++ line :: rest) = rest := by
    rw [← List.singleton_append, ← List.append_assoc]
    exact sliceLast_append _ (Nat.succ.inj hlength)
  unfold parseMrz
  rw [hcandidates]
  simp only [if_neg (show ¬ (pre ++ line :: rest).length < 2 by omega), if_pos hmany,
    sliceLast_append pre hlength, htwo, List.cons_append, List.nil_append, List.findSome?_cons,
    List.findSome?_nil, List.tail_cons]
  cases tryParse parse (line :: rest) with
  | none => cases tryParse parse rest <;> rfl
  | some result => rfl

theorem parseMrz_two {text : String} {lines : List (List Char)}
    (hcandidates : mrzCandidates text = lines) (hlength : lines.length = 2) :
    parseMrz parse text = tryParse parse lines := by
  have hslice : sliceLast 2 lines = lines := by rw [sliceLast, hlength]; rfl
  unfold parseMrz
  rw [hcandidates]
  simp [hlength, hslice]

include hshape in
/-- The last lines are tried before the zone's two only where they cannot be one. -/
theorem parseMrz_of_candidates {lines pre : List (List Char)} {result : MrzParseResult}
    {text : String} (hchars : ∀ line ∈ lines, line.all isMrzChar = true)
    (haccept : tryParse parse lines = some result)
    (hcandidates : mrzCandidates text = pre ++ lines) : parseMrz parse text = some result := by
  obtain ⟨hthree, -⟩ | ⟨htwo, hlong⟩ := lengths_of_tryParse hshape haccept
  · rw [parseMrz_three hcandidates hthree, haccept]
    rfl
  · obtain rfl | ⟨front, line, rfl⟩ := List.eq_nil_or_concat pre
    · rw [List.nil_append] at hcandidates
      rw [parseMrz_two hcandidates htwo, haccept]
    · have hthree : (line :: lines).length = 3 := by rw [List.length_cons, htwo]
      have hsplit : front.concat line ++ lines = front ++ line :: lines := by simp
      obtain ⟨a, hmem⟩ := List.exists_mem_of_length_pos (show 0 < lines.length by omega)
      have hne : a.length ≠ 30 := Nat.ne_of_gt (hlong a hmem (hchars a hmem)).1
      have hnone := tryParse_eq_none hshape (List.mem_cons_of_mem line hmem) (hchars a hmem)
        (iff_of_true hthree hne)
      rw [hsplit] at hcandidates
      rw [parseMrz_three hcandidates hthree, hnone, List.tail_cons, haccept]
      rfl

def blockText (lines : List (List Char)) : List Char := lines.flatMap (· ++ ['\n'])

theorem laidOut_blockText {lines : List (List Char)}
    (hchars : ∀ line ∈ lines, line.all isMrzChar = true) : LaidOut [] lines (blockText lines) := by
  induction lines with
  | nil => exact .after
  | cons line lines ih =>
    have hline := List.all_eq_true.mp (hchars line (by simp))
    have htyped : Spaced line line :=
      ⟨fun hmem => absurd (hline _ hmem) (by decide), List.filter_eq_self.mpr fun c hc => by
        rw [not_whitespace_of_mrz (hline c hc)]; rfl⟩
    have hrest := LaidOut.line htyped .lf (ih fun l hl => hchars l (List.mem_cons_of_mem _ hl))
    rw [blockText, List.flatMap_cons, List.append_assoc]
    exact hrest

theorem surrounds_blockText {lines : List (List Char)}
    (hchars : ∀ line ∈ lines, line.all isMrzChar = true) :
    Surrounds lines (String.ofList (blockText lines)) :=
  ⟨[], blockText lines, [], by rw [String.toList_ofList]; rfl, .inl rfl,
    laidOut_blockText hchars, by decide⟩

theorem candidates_blockText {lines : List (List Char)}
    (hchars : ∀ line ∈ lines, line.all isMrzChar = true)
    (hlength : ∀ line ∈ lines, 28 ≤ line.length ∧ line.length ≤ 44) :
    mrzCandidates (String.ofList (blockText lines)) = lines.filter (List.contains · '<') := by
  rw [mrzCandidates_eq, String.toList_ofList, ← filter_block hchars hlength]
  obtain hread | ⟨hread, -⟩ := (laidOut_blockText hchars).read hchars
  · rw [hread, List.filter_append]
    exact List.append_nil _
  · rw [hread]

include hshape in
theorem parseMrz_blockText {lines : List (List Char)} {result : MrzParseResult}
    (hchars : ∀ line ∈ lines, line.all isMrzChar = true)
    (haccept : tryParse parse lines = some result) {line : List Char} (hmem : line ∈ lines)
    (hfiller : '<' ∉ line) : parseMrz parse (String.ofList (blockText lines)) = none := by
  have hcandidates := candidates_blockText hchars (plausible_of_tryParse hshape hchars haccept)
  have hfewer : (lines.filter (List.contains · '<')).length < lines.length :=
    List.length_filter_lt_length_iff_exists.mpr ⟨line, hmem, by simpa using hfiller⟩
  have hsub : ∀ l ∈ lines.filter (List.contains · '<'), l ∈ lines :=
    fun l hl => (List.mem_filter.mp hl).1
  generalize lines.filter (List.contains · '<') = left at hcandidates hfewer hsub
  by_cases hfew : left.length < 2
  · unfold parseMrz
    rw [hcandidates]
    exact if_pos hfew
  · obtain ⟨hthree, hshort⟩ | ⟨htwo, -⟩ := lengths_of_tryParse hshape haccept
    · have htwo : left.length = 2 := by omega
      obtain ⟨a, ha⟩ := List.exists_mem_of_length_pos (show 0 < left.length by omega)
      have hachars := hchars a (hsub a ha)
      rw [parseMrz_two hcandidates htwo]
      exact tryParse_eq_none hshape ha hachars
        (iff_of_false (by omega) (not_not.mpr (hshort a (hsub a ha) hachars)))
    · omega

include hshape in
/-- A block that is accepted is read from every text around it if each of its lines has a filler,
and only then. -/
theorem parseMrz_surrounds_iff {lines : List (List Char)} {result : MrzParseResult}
    (hchars : ∀ line ∈ lines, line.all isMrzChar = true)
    (haccept : tryParse parse lines = some result) :
    (∀ text, Surrounds lines text → parseMrz parse text = some result) ↔
      ∀ line ∈ lines, '<' ∈ line := by
  have hplausible := plausible_of_tryParse hshape hchars haccept
  constructor
  · intro h line hmem
    by_contra hfiller
    have hparse := h _ (surrounds_blockText hchars)
    rw [parseMrz_blockText hshape hchars haccept hmem hfiller] at hparse
    cases hparse
  · intro hfiller text htext
    obtain ⟨pre, hcandidates⟩ := htext.candidates hchars hplausible
    rw [List.filter_eq_self.mpr (by simpa using hfiller)] at hcandidates
    exact parseMrz_of_candidates hshape hchars haccept hcandidates

end Parse
namespace Sample

def nameLine : List Char := "P<NGAERIKSSON<<ANNA<MARIA<<<<<<<<<<<<<<<<<<<".toList

def passport : List (List Char) :=
  [nameLine, "L898902C36NGA7408122F1204159ZE184226B<<<<<10".toList]

def fullPassport : List (List Char) :=
  [nameLine, "L898902C36NGA7408122F1204159ZE184226B1234508".toList]

def parsePassport (lines : List String) : Option MrzLines :=
  if lines = passport.map String.ofList ∨ lines = fullPassport.map String.ofList then
    some
      { valid := true
        firstName := some "ANNA MARIA"
        lastName := some "ERIKSSON"
        documentNumber := some "L898902C3"
        birthDate := some "740812"
        expirationDate := some "120415"
        nationality := some "NGA"
        sex := some "female" }
  else none

def annaMaria : MrzParseResult where
  valid := true
  fields :=
    { fullName := some "ANNA MARIA ERIKSSON"
      dateOfBirth := some "740812"
      documentNumber := some "L898902C3"
      expiryDate := some "120415"
      nationality := some "NGA"
      sex := some "female" }

theorem parsePassport_shape (lines : List String) (h : (parsePassport lines).isSome = true) :
    MrzShape lines := by
  unfold parsePassport at h
  split at h
  · obtain rfl | rfl := ‹_ ∨ _› <;> simp only [MrzShape] <;> decide +kernel
  · cases h

theorem fullPassport_chars : ∀ line ∈ fullPassport, line.all isMrzChar = true := by
  decide +kernel

/-- A passport whose second line is full is not found in a text of its two lines alone. -/
theorem fullPassport_unread :
    (∀ lines, (parsePassport lines).isSome = true → MrzShape lines) ∧
      (∀ line ∈ fullPassport, line.all isMrzChar = true) ∧
      tryParse parsePassport fullPassport = some annaMaria ∧
      Surrounds fullPassport (String.ofList (blockText fullPassport)) ∧
      parseMrz parsePassport (String.ofList (blockText fullPassport)) = none :=
  ⟨parsePassport_shape, fullPassport_chars, by decide +kernel,
    surrounds_blockText fullPassport_chars, by decide +kernel⟩

theorem passport_surrounds_iff :
    (∀ text, Surrounds passport text → parseMrz parsePassport text = some annaMaria) ↔
      ∀ line ∈ passport, '<' ∈ line :=
  parseMrz_surrounds_iff parsePassport_shape (by decide +kernel) (by decide +kernel)

end Sample
end OcrService
