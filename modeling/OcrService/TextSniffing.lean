import OcrService.Ingest
import OcrService.World

/-! Which texts `sniff` takes for text: the sample it decodes may end within a character. -/
namespace OcrService

theorem toNat_ofNat {n : Nat} (h : n < 256) : (UInt8.ofNat n).toNat = n := by
  rw [UInt8.toNat_ofNat', Nat.mod_eq_of_lt h]

theorem feed_start (b : UInt8) : Utf8State.start.feed b =
    if b.toNat ≤ 0x7F then some .start
    else if 0xC2 ≤ b.toNat ∧ b.toNat ≤ 0xDF then some ⟨1, 0x80, 0xBF⟩
    else if 0xE0 ≤ b.toNat ∧ b.toNat ≤ 0xEF then
      some ⟨2, if b.toNat = 0xE0 then 0xA0 else 0x80, if b.toNat = 0xED then 0x9F else 0xBF⟩
    else if 0xF0 ≤ b.toNat ∧ b.toNat ≤ 0xF4 then
      some ⟨3, if b.toNat = 0xF0 then 0x90 else 0x80, if b.toNat = 0xF4 then 0x8F else 0xBF⟩
    else none := by
  simp only [Utf8State.feed, Utf8State.start, UInt8.le_iff_toNat_le, ← UInt8.toNat_inj]
  rfl

theorem feed_more {n : Nat} {lower upper : UInt8} (b : UInt8) :
    (Utf8State.mk (n + 1) lower upper).feed b =
      if lower.toNat ≤ b.toNat ∧ b.toNat ≤ upper.toNat then some ⟨n, 0x80, 0xBF⟩ else none := by
  simp only [Utf8State.feed, UInt8.le_iff_toNat_le]
  rfl

def Accepts (s : Utf8State) (bytes : Buffer) : Prop :=
  ∃ s', bytes.foldlM Utf8State.feed s = some s' ∧ s'.needed = 0

theorem decodesUtf8_eq_true {bytes : Buffer} : decodesUtf8 bytes = true ↔ Accepts .start bytes := by
  unfold decodesUtf8 Accepts
  cases bytes.foldlM Utf8State.feed Utf8State.start with
  | none => simp
  | some s => simp

theorem accepts_nil {s : Utf8State} : Accepts s [] ↔ s.needed = 0 := by
  constructor
  · intro h
    obtain ⟨s', hs', hneeded⟩ := h
    obtain rfl := Option.some.inj hs'
    exact hneeded
  · exact fun h => ⟨s, rfl, h⟩

theorem accepts_append {s : Utf8State} {bytes bytes' : Buffer} :
    Accepts s (bytes ++ bytes') ↔
      ∃ s', bytes.foldlM Utf8State.feed s = some s' ∧ Accepts s' bytes' := by
  unfold Accepts
  rw [List.foldlM_append]
  cases bytes.foldlM Utf8State.feed s with
  | none => simp
  | some s' => simp

theorem accepts_cons {s : Utf8State} {b : UInt8} {bytes : Buffer} :
    Accepts s (b :: bytes) ↔ ∃ s', s.feed b = some s' ∧ Accepts s' bytes := by
  unfold Accepts
  rw [List.foldlM_cons]
  cases s.feed b with
  | none => simp
  | some s' => simp

theorem accepts_more {n : Nat} {lower upper : UInt8} {bytes : Buffer} :
    Accepts ⟨n + 1, lower, upper⟩ bytes ↔ ∃ b rest, bytes = b :: rest ∧
      lower.toNat ≤ b.toNat ∧ b.toNat ≤ upper.toNat ∧ Accepts ⟨n, 0x80, 0xBF⟩ rest := by
  cases bytes with
  | nil =>
    rw [accepts_nil]
    simp
  | cons b rest =>
    rw [accepts_cons, feed_more]
    constructor
    · intro h
      obtain ⟨s', hfeed, hrest⟩ := h
      split at hfeed
      · rename_i hrange
        obtain rfl := Option.some.inj hfeed
        exact ⟨b, rest, rfl, hrange.1, hrange.2, hrest⟩
      · cases hfeed
    · intro h
      obtain ⟨b', rest', heq, hlower, hupper, hrest⟩ := h
      obtain ⟨rfl, rfl⟩ := List.cons.inj heq
      exact ⟨_, if_pos ⟨hlower, hupper⟩, hrest⟩

def IsContinuation (b : UInt8) : Prop := 0x80 ≤ b.toNat ∧ b.toNat ≤ 0xBF

theorem accepts_tail {n : Nat} {bytes : Buffer} :
    Accepts ⟨n + 1, 0x80, 0xBF⟩ bytes ↔
      ∃ x rest, bytes = x :: rest ∧ IsContinuation x ∧ Accepts ⟨n, 0x80, 0xBF⟩ rest := by
  rw [accepts_more]
  simp only [IsContinuation, and_assoc]
  rfl

theorem lower_iff {p : Prop} [Decidable p] {lower x : UInt8} (hlower : 0x80 ≤ lower.toNat) :
    (if p then lower else 0x80).toNat ≤ x.toNat ↔
      0x80 ≤ x.toNat ∧ (p → lower.toNat ≤ x.toNat) := by
  split
  · rename_i hp
    exact ⟨fun h => ⟨hlower.trans h, fun _ => h⟩, fun h => h.2 hp⟩
  · rename_i hp
    exact ⟨fun h => ⟨h, fun hp' => absurd hp' hp⟩, fun h => h.1⟩

theorem upper_iff {p : Prop} [Decidable p] {upper x : UInt8} (hupper : upper.toNat ≤ 0xBF) :
    x.toNat ≤ (if p then upper else 0xBF).toNat ↔
      x.toNat ≤ 0xBF ∧ (p → x.toNat ≤ upper.toNat) := by
  split
  · rename_i hp
    exact ⟨fun h => ⟨h.trans hupper, fun _ => h⟩, fun h => h.2 hp⟩
  · rename_i hp
    exact ⟨fun h => ⟨h, fun hp' => absurd hp' hp⟩, fun h => h.1⟩

section Lead
variable {b : UInt8} {rest : Buffer}

theorem accepts_one (h : b.toNat ≤ 0x7F) :
    Accepts .start (b :: rest) ↔ Accepts .start rest := by
  rw [accepts_cons, feed_start, if_pos h]
  simp

theorem accepts_two (h : 0xC2 ≤ b.toNat) (h' : b.toNat ≤ 0xDF) :
    Accepts .start (b :: rest) ↔
      ∃ x rest', rest = x :: rest' ∧ IsContinuation x ∧ Accepts .start rest' := by
  rw [accepts_cons, feed_start, if_neg (by omega), if_pos ⟨h, h'⟩]
  simp only [Option.some.injEq, exists_eq_left']
  exact accepts_tail

theorem accepts_three (h : 0xE0 ≤ b.toNat) (h' : b.toNat ≤ 0xEF) :
    Accepts .start (b :: rest) ↔
      ∃ x y rest', rest = x :: y :: rest' ∧ IsContinuation x ∧ IsContinuation y ∧
        (b.toNat = 0xE0 → 0xA0 ≤ x.toNat) ∧ (b.toNat = 0xED → x.toNat ≤ 0x9F) ∧
        Accepts .start rest' := by
  rw [accepts_cons, feed_start, if_neg (by omega), if_neg (by omega), if_pos ⟨h, h'⟩]
  simp only [Option.some.injEq, exists_eq_left', accepts_more (n := 1), accepts_tail (n := 0)]
  constructor
  · intro haccepts
    obtain ⟨x, _, hx, hlower, hupper, y, rest', rfl, hy, hrest'⟩ := haccepts
    obtain ⟨hxlow, hE0⟩ := (lower_iff (by decide)).mp hlower
    obtain ⟨hxhigh, hED⟩ := (upper_iff (by decide)).mp hupper
    exact ⟨x, y, rest', hx, ⟨hxlow, hxhigh⟩, hy, hE0, hED, hrest'⟩
  · intro haccepts
    obtain ⟨x, y, rest', hx, hcont, hy, hE0, hED, hrest'⟩ := haccepts
    exact ⟨x, _, hx, (lower_iff (by decide)).mpr ⟨hcont.1, hE0⟩,
      (upper_iff (by decide)).mpr ⟨hcont.2, hED⟩, y, rest', rfl, hy, hrest'⟩

theorem accepts_four (h : 0xF0 ≤ b.toNat) (h' : b.toNat ≤ 0xF4) :
    Accepts .start (b :: rest) ↔
      ∃ x y z rest', rest = x :: y :: z :: rest' ∧ IsContinuation x ∧ IsContinuation y ∧
        IsContinuation z ∧ (b.toNat = 0xF0 → 0x90 ≤ x.toNat) ∧
        (b.toNat = 0xF4 → x.toNat ≤ 0x8F) ∧ Accepts .start rest' := by
  rw [accepts_cons, feed_start, if_neg (by omega), if_neg (by omega), if_neg (by omega),
    if_pos ⟨h, h'⟩]
  simp only [Option.some.injEq, exists_eq_left', accepts_more (n := 2), accepts_tail (n := 1),
    accepts_tail (n := 0)]
  constructor
  · intro haccepts
    obtain ⟨x, _, hx, hlower, hupper, y, _, rfl, hy, z, rest', rfl, hz, hrest'⟩ := haccepts
    obtain ⟨hxlow, hF0⟩ := (lower_iff (by decide)).mp hlower
    obtain ⟨hxhigh, hF4⟩ := (upper_iff (by decide)).mp hupper
    exact ⟨x, y, z, rest', hx, ⟨hxlow, hxhigh⟩, hy, hz, hF0, hF4, hrest'⟩
  · intro haccepts
    obtain ⟨x, y, z, rest', hx, hcont, hy, hz, hF0, hF4, hrest'⟩ := haccepts
    exact ⟨x, _, hx, (lower_iff (by decide)).mpr ⟨hcont.1, hF0⟩,
      (upper_iff (by decide)).mpr ⟨hcont.2, hF4⟩, y, _, rfl, hy, z, rest', rfl, hz, hrest'⟩

theorem not_accepts (h : 0x80 ≤ b.toNat ∧ b.toNat ≤ 0xC1 ∨ 0xF5 ≤ b.toNat) :
    ¬Accepts .start (b :: rest) := by
  rw [accepts_cons, feed_start, if_neg (by omega), if_neg (by omega), if_neg (by omega),
    if_neg (by omega)]
  simp

end Lead

/-- Behind the bytes of a character the decoder is where it was. -/
theorem accepts_utf8EncodeChar (c : Char) (rest : Buffer) :
    Accepts .start (String.utf8EncodeChar c ++ rest) ↔ Accepts .start rest := by
  have hvalid : c.val.toNat.isValidChar := c.valid
  have htail (n : Nat) : IsContinuation (UInt8.ofNat (n % 64 + 128)) := by
    rw [IsContinuation, toNat_ofNat (by omega)]
    omega
  unfold String.utf8EncodeChar
  generalize c.val.toNat = v at hvalid
  dsimp only
  split
  · exact accepts_one (by rw [toNat_ofNat (by omega)]; omega)
  · split
    · have hlead : (UInt8.ofNat (v / 64 % 32 + 192)).toNat = v / 64 % 32 + 192 :=
        toNat_ofNat (by omega)
      rw [List.cons_append, accepts_two (by omega) (by omega)]
      constructor
      · intro h
        obtain ⟨x, rest', heq, -, hrest⟩ := h
        have hsame : rest = rest' := (List.cons.inj heq).2
        rwa [hsame]
      · exact fun h => ⟨_, rest, rfl, htail _, h⟩
    · split
      · have hlead : (UInt8.ofNat (v / 4096 % 16 + 224)).toNat = v / 4096 % 16 + 224 :=
          toNat_ofNat (by omega)
        have hnext : (UInt8.ofNat (v / 64 % 64 + 128)).toNat = v / 64 % 64 + 128 :=
          toNat_ofNat (by omega)
        rw [List.cons_append, accepts_three (by omega) (by omega)]
        constructor
        · intro h
          obtain ⟨x, y, rest', heq, -, -, -, -, hrest⟩ := h
          have hsame : rest = rest' := (List.cons.inj (List.cons.inj heq).2).2
          rwa [hsame]
        · exact fun h => ⟨_, _, rest, rfl, htail _, htail _, by omega, by omega, h⟩
      · have hlead : (UInt8.ofNat (v / 262144 % 8 + 240)).toNat = v / 262144 % 8 + 240 :=
          toNat_ofNat (by omega)
        have hnext : (UInt8.ofNat (v / 4096 % 64 + 128)).toNat = v / 4096 % 64 + 128 :=
          toNat_ofNat (by omega)
        rw [List.cons_append, accepts_four (by omega) (by omega)]
        constructor
        · intro h
          obtain ⟨x, y, z, rest', heq, -, -, -, -, -, hrest⟩ := h
          have hsame : rest = rest' := (List.cons.inj (List.cons.inj (List.cons.inj heq).2).2).2
          rwa [hsame]
        · exact fun h => ⟨_, _, _, rest, rfl, htail _, htail _, htail _, by omega, by omega, h⟩

theorem exists_char {v : Nat} (h : v.isValidChar) : ∃ c : Char, c.val.toNat = v :=
  ⟨Char.ofNatAux v h, rfl⟩

theorem ofNat_eq {n : Nat} {b : UInt8} (h : n = b.toNat) : UInt8.ofNat n = b := by
  rw [h, UInt8.ofNat_toNat]

theorem exists_utf8EncodeChar {b : UInt8} {rest : Buffer} (h : Accepts .start (b :: rest)) :
    ∃ c rest', b :: rest = String.utf8EncodeChar c ++ rest' := by
  by_cases h1 : b.toNat ≤ 0x7F
  · obtain ⟨c, hc⟩ := exists_char (v := b.toNat) (.inl (by omega))
    refine ⟨c, rest, ?_⟩
    simp only [String.utf8EncodeChar, hc]
    rw [if_pos h1, UInt8.ofNat_toNat]
    rfl
  by_cases h2 : 0xC2 ≤ b.toNat ∧ b.toNat ≤ 0xDF
  · obtain ⟨x, rest', rfl, hx, -⟩ := (accepts_two h2.1 h2.2).mp h
    unfold IsContinuation at hx
    obtain ⟨c, hc⟩ := exists_char (v := (b.toNat - 0xC0) * 64 + (x.toNat - 0x80)) (.inl (by omega))
    refine ⟨c, rest', ?_⟩
    simp only [String.utf8EncodeChar, hc]
    rw [if_neg (by omega), if_pos (by omega), ofNat_eq (b := b) (by omega),
      ofNat_eq (b := x) (by omega)]
    rfl
  by_cases h3 : 0xE0 ≤ b.toNat ∧ b.toNat ≤ 0xEF
  · obtain ⟨x, y, rest', rfl, hx, hy, hE0, hED, -⟩ := (accepts_three h3.1 h3.2).mp h
    unfold IsContinuation at hx hy
    obtain ⟨c, hc⟩ := exists_char
      (v := (b.toNat - 0xE0) * 4096 + (x.toNat - 0x80) * 64 + (y.toNat - 0x80)) (by
        unfold Nat.isValidChar
        omega)
    refine ⟨c, rest', ?_⟩
    simp only [String.utf8EncodeChar, hc]
    rw [if_neg (by omega), if_neg (by omega), if_pos (by omega), ofNat_eq (b := b) (by omega),
      ofNat_eq (b := x) (by omega), ofNat_eq (b := y) (by omega)]
    rfl
  by_cases h4 : 0xF0 ≤ b.toNat ∧ b.toNat ≤ 0xF4
  · obtain ⟨x, y, z, rest', rfl, hx, hy, hz, hF0, hF4, -⟩ := (accepts_four h4.1 h4.2).mp h
    unfold IsContinuation at hx hy hz
    obtain ⟨c, hc⟩ := exists_char
      (v := (b.toNat - 0xF0) * 262144 + (x.toNat - 0x80) * 4096 + (y.toNat - 0x80) * 64 +
        (z.toNat - 0x80)) (by
        unfold Nat.isValidChar
        omega)
    refine ⟨c, rest', ?_⟩
    simp only [String.utf8EncodeChar, hc]
    rw [if_neg (by omega), if_neg (by omega), if_neg (by omega), ofNat_eq (b := b) (by omega),
      ofNat_eq (b := x) (by omega), ofNat_eq (b := y) (by omega), ofNat_eq (b := z) (by omega)]
    rfl
  · exact absurd h (not_accepts (by omega))

/-- The decoder accepts the encodings of texts, and nothing else. -/
theorem decodesUtf8_iff {bytes : Buffer} :
    decodesUtf8 bytes = true ↔ ∃ cs : List Char, bytes = cs.flatMap String.utf8EncodeChar := by
  rw [decodesUtf8_eq_true]
  constructor
  · intro h
    induction hlength : bytes.length using Nat.strong_induction_on generalizing bytes with
    | _ n ih =>
      cases bytes with
      | nil => exact ⟨[], rfl⟩
      | cons b rest =>
        obtain ⟨c, rest', heq⟩ := exists_utf8EncodeChar h
        rw [heq, accepts_utf8EncodeChar] at h
        have hpos : 0 < (String.utf8EncodeChar c).length :=
          List.length_pos_iff.mpr String.utf8EncodeChar_ne_nil
        have hlt : rest'.length < n := by
          rw [← hlength, heq, List.length_append]
          omega
        obtain ⟨cs, hcs⟩ := ih _ hlt h rfl
        exact ⟨c :: cs, by rw [heq, hcs, List.flatMap_cons]⟩
  · intro h
    obtain ⟨cs, rfl⟩ := h
    induction cs with
    | nil => exact accepts_nil.mpr rfl
    | cons c cs ih =>
      rw [List.flatMap_cons, accepts_utf8EncodeChar]
      exact ih

/-- What the next byte of a character may be is a continuation byte. -/
def Utf8State.InRange (s : Utf8State) : Prop := 0x80 ≤ s.lower.toNat ∧ s.upper.toNat ≤ 0xBF

theorem feed_inRange {s s' : Utf8State} {b : UInt8} (h : s.feed b = some s') : s'.InRange := by
  obtain ⟨needed, lower, upper⟩ := s
  cases needed with
  | zero =>
    change Utf8State.start.feed b = some s' at h
    rw [feed_start] at h
    split at h
    · obtain rfl := Option.some.inj h
      exact ⟨by decide, by decide⟩
    split at h
    · obtain rfl := Option.some.inj h
      exact ⟨by decide, by decide⟩
    split at h
    · obtain rfl := Option.some.inj h
      constructor <;> dsimp only <;> split <;> decide
    split at h
    · obtain rfl := Option.some.inj h
      constructor <;> dsimp only <;> split <;> decide
    · cases h
  | succ n =>
    rw [feed_more] at h
    split at h
    · obtain rfl := Option.some.inj h
      exact ⟨Nat.le_refl _, Nat.le_refl _⟩
    · cases h

theorem foldlM_inRange {s s' : Utf8State} {bytes : Buffer} (hs : s.InRange)
    (h : bytes.foldlM Utf8State.feed s = some s') : s'.InRange := by
  induction bytes generalizing s with
  | nil =>
    obtain rfl := Option.some.inj h
    exact hs
  | cons b bytes ih =>
    rw [List.foldlM_cons] at h
    obtain ⟨mid, hmid, hrest⟩ := Option.bind_eq_some_iff.mp h
    exact ih (feed_inRange hmid) hrest

theorem feed_boundary {s s' : Utf8State} {b : UInt8} (hs : s.InRange) (h : s.feed b = some s') :
    s.needed = 0 ↔ ¬IsContinuation b := by
  obtain ⟨needed, lower, upper⟩ := s
  unfold IsContinuation
  cases needed with
  | zero =>
    change Utf8State.start.feed b = some s' at h
    refine iff_of_true rfl fun hb => ?_
    rw [feed_start, if_neg (by omega), if_neg (by omega), if_neg (by omega),
      if_neg (by omega)] at h
    cases h
  | succ n =>
    rw [feed_more] at h
    split at h
    · rename_i hb
      refine iff_of_false (Nat.succ_ne_zero n) ?_
      exact not_not.mpr ⟨hs.1.trans hb.1, hb.2.trans hs.2⟩
    · cases h

/-- Where the bytes are good as a whole, the first of them are good by themselves exactly if
they end with a character. -/
theorem sample_iff {sample rest : Buffer} (h : decodesUtf8 (sample ++ rest) = true) :
    decodesUtf8 sample = true ↔ ∀ b, rest.head? = some b → ¬IsContinuation b := by
  rw [decodesUtf8_eq_true, accepts_append] at h
  obtain ⟨s, hs, hrest⟩ := h
  have hsample : decodesUtf8 sample = true ↔ s.needed = 0 := by
    rw [decodesUtf8, hs]
    simp
  rw [hsample]
  cases rest with
  | nil => simpa using accepts_nil.mp hrest
  | cons b rest =>
    obtain ⟨s', hfeed, -⟩ := accepts_cons.mp hrest
    have hrange : s.InRange := foldlM_inRange ⟨by decide, by decide⟩ hs
    rw [feed_boundary hrange hfeed]
    simp

/-- For a buffer without any control bytes it is all a matter of where the sample ends. -/
theorem isProbablyText_iff {buffer : Buffer} (hne : buffer ≠ [])
    (hutf8 : decodesUtf8 buffer = true) (hnul : 0 ∉ buffer)
    (hcontrol : ∀ b ∈ buffer, isControl b = false) :
    isProbablyText buffer = true ↔
      ∀ b, buffer[TEXT_SAMPLE_BYTES]? = some b → ¬IsContinuation b := by
  have hlength : ¬buffer.length = 0 := by simpa using hne
  have hsample : (buffer.take TEXT_SAMPLE_BYTES).contains 0 = false := by
    rw [List.contains_eq_mem, decide_eq_false_iff_not]
    exact fun hmem => hnul (List.mem_of_mem_take hmem)
  have hplain : (buffer.take TEXT_SAMPLE_BYTES).filter isControl = [] := by
    rw [List.filter_eq_nil_iff]
    intro b hb
    rw [hcontrol b (List.mem_of_mem_take hb)]
    decide
  have hdecodes : isProbablyText buffer = decodesUtf8 (buffer.take TEXT_SAMPLE_BYTES) := by
    unfold isProbablyText
    simp only [if_neg hlength, hsample, hplain]
    cases decodesUtf8 (buffer.take TEXT_SAMPLE_BYTES) <;> simp
  have hwhole : decodesUtf8
      (buffer.take TEXT_SAMPLE_BYTES ++ buffer.drop TEXT_SAMPLE_BYTES) = true := by
    rwa [List.take_append_drop]
  rw [hdecodes, sample_iff hwhole, List.head?_drop]

/-- A text that `file-type` does not recognise, and that has no control characters, is taken
for text exactly if the sample does not end within one of its characters. -/
theorem sniff_text_iff {pkg : Packages} {buffer : Buffer}
    (hsignature : pkg.fromBuffer buffer = none) (hne : buffer ≠ [])
    (hutf8 : decodesUtf8 buffer = true) (hnul : 0 ∉ buffer)
    (hcontrol : ∀ b ∈ buffer, isControl b = false) :
    (∃ result, sniff pkg buffer = some result ∧ result.mimeGroup = .text) ↔
      ∀ b, buffer[TEXT_SAMPLE_BYTES]? = some b → ¬IsContinuation b := by
  rw [← isProbablyText_iff hne hutf8 hnul hcontrol]
  unfold sniff
  rw [hsignature]
  cases isProbablyText buffer with
  | false => simp
  | true => simp

namespace Sample

def letters (n : Nat) : Buffer := List.replicate n 0x61 ++ [0xC3, 0xA9]

def menu : Buffer := letters 4095

theorem decodesUtf8_letters (n : Nat) : decodesUtf8 (letters n) = true := by
  refine decodesUtf8_iff.mpr ⟨List.replicate n 'a' ++ ['é'], ?_⟩
  have ha : String.utf8EncodeChar 'a' = [0x61] := by decide
  have hé : String.utf8EncodeChar 'é' = [0xC3, 0xA9] := by decide
  rw [List.flatMap_append, List.flatMap_replicate, ha, List.flatten_replicate_singleton,
    List.flatMap_singleton, hé]
  rfl

theorem mem_letters {n : Nat} {b : UInt8} (hb : b ∈ letters n) :
    b = 0x61 ∨ b = 0xC3 ∨ b = 0xA9 := by
  obtain hb | hb := List.mem_append.mp hb
  · exact .inl (List.eq_of_mem_replicate hb)
  · exact .inr (by simpa using hb)

theorem letters_isPlain (n : Nat) : 0 ∉ letters n ∧ ∀ b ∈ letters n, isControl b = false := by
  constructor
  · intro h
    obtain h | h | h := mem_letters h
    all_goals exact absurd h (by decide)
  · intro b hb
    obtain rfl | rfl | rfl := mem_letters hb
    all_goals decide

theorem letters_ne_nil (n : Nat) : letters n ≠ [] :=
  List.append_ne_nil_of_right_ne_nil _ (by decide)

theorem getElem?_letters (n k : Nat) : (letters n)[n + k]? = ([0xC3, 0xA9] : Buffer)[k]? := by
  have hle : (List.replicate n (0x61 : UInt8)).length ≤ n + k := by simp
  rw [letters, List.getElem?_append_right hle, List.length_replicate, Nat.add_sub_cancel_left]

/-- A plain text that is not taken for one. -/
theorem sniff_menu :
    packages.fromBuffer menu = none ∧ menu ≠ [] ∧ decodesUtf8 menu = true ∧ 0 ∉ menu ∧
      (∀ b ∈ menu, isControl b = false) ∧
      ¬∃ result, sniff packages menu = some result ∧ result.mimeGroup = .text := by
  have hsignature : packages.fromBuffer menu = none := rfl
  have hplain := letters_isPlain 4095
  refine ⟨hsignature, letters_ne_nil _, decodesUtf8_letters _, hplain.1, hplain.2, ?_⟩
  have htext : isProbablyText menu = false := by
    rw [menu, ← Bool.not_eq_true,
      isProbablyText_iff (letters_ne_nil _) (decodesUtf8_letters _) hplain.1 hplain.2]
    exact fun h => h _ (getElem?_letters 4095 1) ⟨by decide, by decide⟩
  unfold sniff
  rw [hsignature, htext]
  simp

/-- With one letter more the sample ends before the `é`. -/
theorem sniff_letters :
    ∃ result, sniff packages (letters 4096) = some result ∧ result.mimeGroup = .text := by
  have hplain := letters_isPlain 4096
  refine (sniff_text_iff rfl (letters_ne_nil _) (decodesUtf8_letters _) hplain.1 hplain.2).mpr
    fun b hb => ?_
  rw [TEXT_SAMPLE_BYTES, getElem?_letters 4096 0] at hb
  obtain rfl : (0xC3 : UInt8) = b := Option.some.inj hb
  exact fun h => absurd h.2 (by decide)

end Sample

end OcrService
