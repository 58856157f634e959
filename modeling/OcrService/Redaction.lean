import OcrService.Functions

/-! The redacting logger (`observability/logger.ts`): what reaches the logger it wraps. -/
namespace OcrService

def SENSITIVE_LOG_KEYS : List String :=
  ["markdown", "plainText", "plaintext", "text", "content", "result", "fields", "field",
    "fullName", "dateOfBirth", "documentNumber", "mrz", "cropUrl", "signatoryName"].map
    jsToLowerCase

abbrev Sensitive (key : String) : Prop := jsToLowerCase key ∈ SENSITIVE_LOG_KEYS

def REDACTED : JsValue := .str "[redacted]"

mutual
/-- The loop of `redactFields`. Storing under `__proto__` sets the prototype of `out` and
adds no entry. -/
def redactEntries : LogFields → Nat → LogFields
  | [], _ => []
  | (key, value) :: rest, depth =>
    if Sensitive key then (key, REDACTED) :: redactEntries rest depth
    else if key = "__proto__" then redactEntries rest depth
    else (key, redactValue value depth) :: redactEntries rest depth

def redactValue : JsValue → Nat → JsValue
  | .obj fields, depth => .obj (if depth + 1 > 4 then fields else redactEntries fields (depth + 1))
  | value, _ => value
end

def redactFields (fields : LogFields) (depth : Nat := 0) : LogFields :=
  if depth > 4 then fields else redactEntries fields depth

inductive LogLevel where
  | debug | info | warn | error
  deriving DecidableEq

structure LoggerMethods (L R : Type) where
  write : L → LogLevel → String → Option LogFields → R
  child : L → LogFields → L

def createRedactingLogger {L R : Type} (inner : LoggerMethods L R) : LoggerMethods L R where
  write logger level msg fields := inner.write logger level msg (fields.map redactFields)
  child logger fields := inner.child logger (redactFields fields)

/-- The entry `key: x` stands in the value, at some path through objects and arrays. -/
inductive Holds (key : String) (x : JsValue) : JsValue → Prop
  | entry {fields : LogFields} : (key, x) ∈ fields → Holds key x (.obj fields)
  | field {fields : LogFields} {k : String} {v : JsValue} :
      (k, v) ∈ fields → Holds key x v → Holds key x (.obj fields)
  | element {xs : List JsValue} {v : JsValue} : v ∈ xs → Holds key x v → Holds key x (.arr xs)

/-- No sensitive key stands in the fields with a value of its own. -/
def Clean (fields : LogFields) : Prop :=
  ∀ key x, Sensitive key → Holds key x (.obj fields) → x = REDACTED

def Kept (key : String) : Prop := ¬ Sensitive key ∧ key ≠ "__proto__"

/-- `n` kept keys lead from the fields to the value, the last of them to the value itself
and the others through objects. -/
inductive Reached : Nat → LogFields → JsValue → Prop
  | field {fields : LogFields} {k : String} {v : JsValue} :
      (k, v) ∈ fields → Kept k → Reached 1 fields v
  | deeper {fields inner : LogFields} {k : String} {v : JsValue} {n : Nat} :
      (k, .obj inner) ∈ fields → Kept k → Reached n inner v → Reached (n + 1) fields v

def IsArray (v : JsValue) : Prop := ∃ xs, v = .arr xs

/-- The entry stands in an array that fewer than five kept keys lead to, or below five. -/
def Overlooked (fields : LogFields) (key : String) (x : JsValue) : Prop :=
  ∃ n v, Reached n fields v ∧ Holds key x v ∧ (n = 5 ∨ n < 5 ∧ IsArray v)

theorem Reached.pos {n : Nat} {fields : LogFields} {v : JsValue} (h : Reached n fields v) :
    0 < n := by
  cases h with
  | field _ _ => exact Nat.one_pos
  | deeper _ _ _ => exact Nat.succ_pos _

theorem not_holds_redacted {key : String} {x : JsValue} : ¬ Holds key x REDACTED := by
  intro h
  cases h

def redactEntry (depth : Nat) (entry : String × JsValue) : Option (String × JsValue) :=
  if Sensitive entry.1 then some (entry.1, REDACTED)
  else if entry.1 = "__proto__" then none
  else some (entry.1, redactValue entry.2 depth)

theorem redactEntries_eq (fields : LogFields) (depth : Nat) :
    redactEntries fields depth = fields.filterMap (redactEntry depth) := by
  induction fields with
  | nil => rw [redactEntries, List.filterMap_nil]
  | cons e rest ih =>
    obtain ⟨key, value⟩ := e
    rw [redactEntries, ih, List.filterMap_cons]
    unfold redactEntry
    by_cases hs : Sensitive key
    · simp only [if_pos hs]
    · by_cases hp : key = "__proto__"
      · simp only [if_neg hs, if_pos hp]
      · simp only [if_neg hs, if_neg hp]

theorem redactEntry_eq_some {depth : Nat} {k₀ k : String} {v₀ v : JsValue} :
    redactEntry depth (k₀, v₀) = some (k, v) ↔
      k₀ = k ∧ (Sensitive k ∧ v = REDACTED ∨ Kept k ∧ v = redactValue v₀ depth) := by
  by_cases hk : k₀ = k
  · subst hk
    by_cases hs : Sensitive k₀
    · simp [redactEntry, Kept, hs, eq_comm]
    · by_cases hp : k₀ = "__proto__" <;> simp [redactEntry, Kept, hs, hp, eq_comm]
  · unfold redactEntry
    split_ifs <;> simp [hk]

theorem mem_redactEntries {k : String} {v : JsValue} {fields : LogFields} {depth : Nat} :
    (k, v) ∈ redactEntries fields depth ↔
      ∃ v₀, (k, v₀) ∈ fields ∧
        (Sensitive k ∧ v = REDACTED ∨ Kept k ∧ v = redactValue v₀ depth) := by
  rw [redactEntries_eq, List.mem_filterMap]
  constructor
  · intro ⟨(k₀, v₀), hmem, he⟩
    obtain ⟨rfl, hv⟩ := redactEntry_eq_some.mp he
    exact ⟨v₀, hmem, hv⟩
  · intro ⟨v₀, hmem, hv⟩
    exact ⟨(k, v₀), hmem, redactEntry_eq_some.mpr ⟨rfl, hv⟩⟩

theorem redactValue_four (v : JsValue) : redactValue v 4 = v := by
  cases v <;> rfl

theorem redactValue_obj {depth : Nat} (hd : depth < 4) (fields : LogFields) :
    redactValue (.obj fields) depth = .obj (redactEntries fields (depth + 1)) := by
  rw [redactValue, if_neg (by omega)]

theorem holds_redactEntries {key : String} {x : JsValue} (hs : Sensitive key)
    (hx : x ≠ REDACTED) {fields : LogFields} {depth : Nat} :
    Holds key x (.obj (redactEntries fields depth)) ↔
      ∃ k v, (k, v) ∈ fields ∧ Kept k ∧ Holds key x (redactValue v depth) := by
  constructor
  · intro h
    cases h with
    | entry hmem =>
      obtain ⟨v, -, hv⟩ := mem_redactEntries.mp hmem
      cases hv with
      | inl hv => exact absurd hv.2 hx
      | inr hv => exact absurd hs hv.1.1
    | field hmem hold =>
      obtain ⟨v, hv, hval⟩ := mem_redactEntries.mp hmem
      cases hval with
      | inl hval => exact absurd (hval.2 ▸ hold) not_holds_redacted
      | inr hval => exact ⟨_, v, hv, hval.1, hval.2 ▸ hold⟩
  · intro ⟨k, v, hv, hk, hold⟩
    exact .field (mem_redactEntries.mpr ⟨v, hv, Or.inr ⟨hk, rfl⟩⟩) hold

/-- The first key on the way to what is reached. -/
theorem reached_iff {fields : LogFields} {P : Nat → JsValue → Prop} :
    (∃ n v, Reached n fields v ∧ P n v) ↔
      ∃ k v, (k, v) ∈ fields ∧ Kept k ∧
        (P 1 v ∨ ∃ inner, v = .obj inner ∧ ∃ n w, Reached n inner w ∧ P (n + 1) w) := by
  constructor
  · intro ⟨n, v, hr, hp⟩
    cases hr with
    | field hmem hk => exact ⟨_, v, hmem, hk, Or.inl hp⟩
    | deeper hmem hk hr => exact ⟨_, _, hmem, hk, Or.inr ⟨_, rfl, _, v, hr, hp⟩⟩
  · intro ⟨k, v, hmem, hk, h⟩
    cases h with
    | inl hp => exact ⟨1, v, .field hmem hk, hp⟩
    | inr h =>
      obtain ⟨inner, rfl, n, w, hr, hp⟩ := h
      exact ⟨n + 1, w, .deeper hmem hk hr, hp⟩

/-- Induction on the levels `m` still redacted: a kept value is passed on, looked into one
level further, or left as it is. -/
theorem holds_redactEntries_iff {key : String} {x : JsValue} (hs : Sensitive key)
    (hx : x ≠ REDACTED) (m depth : Nat) (hm : depth + m = 4) (fields : LogFields) :
    Holds key x (.obj (redactEntries fields depth)) ↔
      ∃ n v, Reached n fields v ∧ Holds key x v ∧
        (n + depth = 5 ∨ n + depth < 5 ∧ IsArray v) := by
  rw [holds_redactEntries hs hx, reached_iff]
  refine exists_congr fun k => exists_congr fun v => and_congr_right fun _ =>
    and_congr_right fun _ => ?_
  cases m with
  | zero =>
    obtain rfl : depth = 4 := hm
    rw [redactValue_four]
    constructor
    · intro h
      exact Or.inl ⟨h, Or.inl rfl⟩
    · intro h
      cases h with
      | inl h => exact h.1
      | inr h =>
        obtain ⟨inner, -, n, w, hr, -, hn⟩ := h
        have := hr.pos
        omega
  | succ m =>
    cases v with
    | null | bool _ | num _ | str _ =>
      constructor
      · intro h
        cases h
      · intro h
        cases h with
        | inl h => cases h.1
        | inr h => obtain ⟨inner, he, -⟩ := h; cases he
    | arr xs =>
      constructor
      · intro h
        exact Or.inl ⟨h, Or.inr ⟨by omega, xs, rfl⟩⟩
      · intro h
        cases h with
        | inl h => exact h.1
        | inr h => obtain ⟨inner, he, -⟩ := h; cases he
    | obj inner =>
      have ih := holds_redactEntries_iff hs hx m (depth + 1) (by omega) inner
      rw [redactValue_obj (by omega), ih]
      constructor
      · intro ⟨n, w, hr, hold, hn⟩
        exact Or.inr ⟨inner, rfl, n, w, hr, hold, by rwa [Nat.add_right_comm]⟩
      · intro h
        cases h with
        | inl h =>
          cases h.2 with
          | inl hn => omega
          | inr hn => obtain ⟨xs, he⟩ := hn.2; cases he
        | inr h =>
          obtain ⟨inner', he, n, w, hr, hold, hn⟩ := h
          cases he
          exact ⟨n, w, hr, hold, by rwa [Nat.add_right_comm] at hn⟩

/-- The redacted fields are clean when nothing sensitive is overlooked, and only then. -/
theorem clean_redactFields_iff (fields : LogFields) :
    Clean (redactFields fields) ↔
      ∀ key x, Sensitive key → Overlooked fields key x → x = REDACTED := by
  refine forall_congr' fun key => forall_congr' fun x => forall_congr' fun hs => ?_
  by_cases hx : x = REDACTED
  · simp [hx]
  · exact imp_congr (holds_redactEntries_iff hs hx 4 0 rfl fields) Iff.rfl

section Chain
variable {L R : Type}

def LoggerMethods.chain (methods : LoggerMethods L R) (logger : L) (children : List LogFields)
    (level : LogLevel) (msg : String) (fields : Option LogFields) : R :=
  methods.write (children.foldl methods.child logger) level msg fields

/-- The inner logger is given the redaction of every child's fields and of the line's. -/
theorem chain_createRedactingLogger (inner : LoggerMethods L R) (logger : L)
    (children : List LogFields) (level : LogLevel) (msg : String) (fields : Option LogFields) :
    (createRedactingLogger inner).chain logger children level msg fields =
      inner.chain logger (children.map redactFields) level msg (fields.map redactFields) := by
  unfold LoggerMethods.chain
  rw [List.foldl_map]
  rfl

end Chain

def recorder : LoggerMethods (List LogFields) (List LogFields) where
  write seen _ _ fields := seen ++ fields.toList
  child seen fields := seen ++ [fields]

theorem chain_recorder (seen children : List LogFields) (level : LogLevel) (msg : String)
    (fields : Option LogFields) :
    recorder.chain seen children level msg fields = seen ++ children ++ fields.toList := by
  induction children generalizing seen with
  | nil => simp [LoggerMethods.chain, recorder]
  | cons c children ih =>
    have h := ih (seen ++ [c])
    rw [List.append_assoc seen [c] children] at h
    exact h

def handedOn (children : List LogFields) (level : LogLevel) (msg : String)
    (fields : Option LogFields) : List LogFields :=
  (createRedactingLogger recorder).chain [] children level msg fields

theorem handedOn_eq (children : List LogFields) (level : LogLevel) (msg : String)
    (fields : Option LogFields) :
    handedOn children level msg fields = (children ++ fields.toList).map redactFields := by
  unfold handedOn
  rw [chain_createRedactingLogger, chain_recorder, List.nil_append, List.map_append]
  cases fields <;> rfl

/-- Every method, through every chain of children: the fields handed on are clean exactly
when no sensitive value stands in an array or more than five objects deep. -/
theorem handedOn_clean_iff (children : List LogFields) (level : LogLevel) (msg : String)
    (fields : Option LogFields) :
    (∀ handed ∈ handedOn children level msg fields, Clean handed) ↔
      ∀ given ∈ children ++ fields.toList, ∀ key x,
        Sensitive key → Overlooked given key x → x = REDACTED := by
  rw [handedOn_eq, List.forall_mem_map]
  exact forall₂_congr fun given _ => clean_redactFields_iff given

/-- The text of a page, logged in a list of pages. -/
theorem handedOn_leaks : ¬ ∀ handed ∈ handedOn [] .info "pages"
    (some [("pages", .arr [.obj [("text", .str "Ada Lovelace")]])]), Clean handed := by
  intro h
  have hclean := h [("pages", .arr [.obj [("text", .str "Ada Lovelace")]])]
    (by rw [handedOn_eq]; exact List.mem_singleton.mpr rfl)
  have hheld := hclean "text" (.str "Ada Lovelace") (by decide)
    (.field (List.mem_singleton.mpr rfl)
      (.element (List.mem_singleton.mpr rfl) (.entry (List.mem_singleton.mpr rfl))))
  exact absurd (JsValue.str.inj hheld) (by decide)

end OcrService
