import Mathlib.Data.List.Flatten
import OcrService.Errors

/-! The arguments of FORM_DATA_EXTRACTION (`functions/form-data-extraction/args.ts`): which
schemas of a caller are let through. -/
namespace OcrService

def MAX_FIELDS : Nat := 50

def MAX_NESTING_DEPTH : Nat := 3

def MAX_SCHEMA_BYTES : Nat := 20000

/-- A character in a quoted text. Quotes are `\x22` here and backslashes `\x5c`. -/
def escaped (c : Char) : List Char :=
  match c with
  | '\x22' => ['\x5c', '\x22']
  | '\x5c' => ['\x5c', '\x5c']
  | '\x08' => ['\x5c', 'b']
  | '\x0c' => ['\x5c', 'f']
  | '\n' => ['\x5c', 'n']
  | '\r' => ['\x5c', 'r']
  | '\t' => ['\x5c', 't']
  | c =>
    if c.val < 0x20 then
      ['\x5c', 'u', '0', '0', Nat.digitChar (c.toNat / 16), Nat.digitChar (c.toNat % 16)]
    else [c]

def quoted (s : String) : List Char := '\x22' :: (s.toList.flatMap escaped ++ ['\x22'])

namespace JsValue
variable (numberText : ℚ → String)

mutual
def jsonChars : JsValue → List Char
  | null => "null".toList
  | bool b => if b then "true".toList else "false".toList
  | num (.finite q) => (numberText q).toList
  | num .posInf | num .negInf => "null".toList
  | str s => quoted s
  | arr xs => '[' :: jsonItems xs
  | obj fields => '{' :: jsonMembers fields

def jsonItems : List JsValue → List Char
  | [] => [']']
  | [x] => x.jsonChars ++ [']']
  | x :: xs => x.jsonChars ++ ',' :: jsonItems xs

def jsonMembers : List (String × JsValue) → List Char
  | [] => ['}']
  | [(k, x)] => quoted k ++ ':' :: (x.jsonChars ++ ['}'])
  | (k, x) :: fields => quoted k ++ ':' :: (x.jsonChars ++ ',' :: jsonMembers fields)
end

def stringify (v : JsValue) : String := String.ofList (v.jsonChars numberText)

end JsValue

/-- What depends on the JavaScript engine: how a finite number is written, and how many calls can
be within each other, which are more than the levels that are let through. -/
structure Engine where
  numberText : ℚ → String
  calls : Nat
  room : MAX_NESTING_DEPTH < calls

/-- The outermost call is the first, and each is one within the one before. -/
def onStack {α : Type} (calls call : Nat) (result : Except StackOverflow α) :
    Except StackOverflow α :=
  if call ≤ calls then result else .error .rangeError

mutual
/-- The depth and the number of nodes; a scalar is a node one deeper than what it is in. -/
def measureBounds (calls depth : Nat) : JsValue → Except StackOverflow (Nat × Nat)
  | .arr xs => onStack calls depth (measureItems calls (depth + 1) xs (depth, 1))
  | .obj fields => onStack calls depth (measureMembers calls (depth + 1) fields (depth, 1))
  | _ => onStack calls depth (.ok (depth, 1))

def measureItems (calls depth : Nat) :
    List JsValue → Nat × Nat → Except StackOverflow (Nat × Nat)
  | [], best => .ok best
  | x :: xs, best => do
    let m ← measureBounds calls depth x
    measureItems calls depth xs (if best.1 < m.1 then m.1 else best.1, best.2 + m.2)

def measureMembers (calls depth : Nat) :
    List (String × JsValue) → Nat × Nat → Except StackOverflow (Nat × Nat)
  | [], best => .ok best
  | (_, x) :: fields, best => do
    let m ← measureBounds calls depth x
    measureMembers calls depth fields (if best.1 < m.1 then m.1 else best.1, best.2 + m.2)
end

structure SchemaBounds where
  depth : Nat
  nodes : Nat
  bytes : Nat

def boundsOf (engine : Engine) (schema : List (String × JsValue)) :
    Except StackOverflow SchemaBounds := do
  let measured ← measureBounds engine.calls 1 (.obj schema)
  return { depth := measured.1
           nodes := measured.2
           bytes := jsLength (JsValue.stringify engine.numberText (.obj schema)) }

inductive FieldType where
  | string | number | boolean | date
  deriving DecidableEq

structure FieldSpec where
  name : String
  type : FieldType
  description : Option String := none
  required : Bool := false
  enum : Option (List String) := none

inductive FormDataExtractionArgs where
  | fields (specs : List FieldSpec)
  | jsonSchema (schema : List (String × JsValue))

structure ArgsIssue where
  path : List String
  message : String

def fieldType : JsValue → Option FieldType
  | .str "string" => some .string
  | .str "number" => some .number
  | .str "boolean" => some .boolean
  | .str "date" => some .date
  | _ => none

def asString : JsValue → Option String
  | .str s => some s
  | _ => none

def optionalEntry {α : Type} (fields : List (String × JsValue)) (key : String)
    (parse : JsValue → Option α) : Option (Option α) :=
  match fields.lookup key with
  | none => some none
  | some v => (parse v).map some

def fieldSpecSchema : JsValue → Option FieldSpec
  | .obj fields => do
    let name ← (fields.lookup "name").bind asString
    if name = "" then none
    let type ← (fields.lookup "type").bind fieldType
    let description ← optionalEntry fields "description" asString
    let required ← optionalEntry fields "required" fun
      | .bool b => some b
      | _ => none
    let enum ← optionalEntry fields "enum" fun
      | .arr xs => xs.mapM asString
      | _ => none
    return { name, type, description, required := required.getD false, enum }
  | _ => none

/-- What `superRefine` adds to a `jsonSchema` that is an object. -/
def jsonSchemaIssues (engine : Engine) (schema : List (String × JsValue)) :
    Except StackOverflow (List ArgsIssue) := do
  let bounds ← boundsOf engine schema
  return (if MAX_NESTING_DEPTH < bounds.depth then
      [{ path := ["jsonSchema"]
         message := "jsonSchema nesting exceeds " ++ toString MAX_NESTING_DEPTH ++ " levels" }]
      else []) ++
    (if MAX_FIELDS < bounds.nodes then
      [{ path := ["jsonSchema"]
         message := "jsonSchema has more than " ++ toString MAX_FIELDS ++ " nodes" }]
      else []) ++
    (if MAX_SCHEMA_BYTES < bounds.bytes then
      [{ path := ["jsonSchema"]
         message := "jsonSchema exceeds " ++ toString MAX_SCHEMA_BYTES ++ " serialized bytes" }]
      else [])

def fieldsArgSchema (args : List (String × JsValue)) : Option FormDataExtractionArgs :=
  match args.lookup "fields" with
  | some (.arr xs) =>
    if 1 ≤ xs.length ∧ xs.length ≤ MAX_FIELDS then (xs.mapM fieldSpecSchema).map .fields else none
  | _ => none

/-- What `z.record` makes of an object: an entry `__proto__` of its own is left out. -/
def recordEntries (fields : List (String × JsValue)) : List (String × JsValue) :=
  fields.filter fun entry => entry.1 ≠ "__proto__"

def jsonSchemaArgSchema (engine : Engine) (args : List (String × JsValue)) :
    Except StackOverflow (Option FormDataExtractionArgs) :=
  match args.lookup "jsonSchema" with
  | some (.obj schema) => do
    let issues ← jsonSchemaIssues engine (recordEntries schema)
    return if issues.isEmpty then some (.jsonSchema (recordEntries schema)) else none
  | _ => .ok none

/-- The first branch that accepts the arguments; how the issues of both are put together where
none does is up to the library. -/
def formDataExtractionArgsSchema (engine : Engine) :
    JsValue → Except StackOverflow (Option FormDataExtractionArgs)
  | .obj args =>
    match fieldsArgSchema args with
    | some parsed => .ok (some parsed)
    | none => jsonSchemaArgSchema engine args
  | _ => .ok none

def JsValue.isContainer : JsValue → Bool
  | .arr _ | .obj _ => true
  | _ => false

mutual
/-- All the values in a value, itself the first, each with its level. -/
def placed (level : Nat) : JsValue → List (Nat × JsValue)
  | .arr xs => (level, .arr xs) :: placedItems (level + 1) xs
  | .obj fields => (level, .obj fields) :: placedMembers (level + 1) fields
  | v => [(level, v)]

def placedItems (level : Nat) : List JsValue → List (Nat × JsValue)
  | [] => []
  | x :: xs => placed level x ++ placedItems level xs

def placedMembers (level : Nat) : List (String × JsValue) → List (Nat × JsValue)
  | [] => []
  | (_, x) :: fields => placed level x ++ placedMembers level fields
end

def NestsWithin (n : Nat) (v : JsValue) : Prop :=
  ∀ p ∈ placed 1 v, p.2.isContainer = true → p.1 ≤ n

def PlacedWithin (n : Nat) (v : JsValue) : Prop := ∀ p ∈ placed 1 v, p.1 ≤ n

def valueCount (v : JsValue) : Nat := (placed 1 v).length

def utf8Length (s : String) : Nat := (s.toList.map Char.utf8Size).sum

structure Measures (m : Nat × Nat) (values : List (Nat × JsValue)) : Prop where
  depth : ∀ n, m.1 ≤ n ↔ ∀ p ∈ values, p.1 ≤ n
  nodes : m.2 = values.length

theorem measures_one (depth : Nat) (v : JsValue) : Measures (depth, 1) [(depth, v)] :=
  ⟨fun n => by simp, rfl⟩

theorem Measures.step {best m : Nat × Nat} {seen values : List (Nat × JsValue)}
    (hbest : Measures best seen) (hm : Measures m values) :
    Measures (if best.1 < m.1 then m.1 else best.1, best.2 + m.2) (seen ++ values) where
  depth n := by
    have hmax : (if best.1 < m.1 then m.1 else best.1) ≤ n ↔ best.1 ≤ n ∧ m.1 ≤ n := by
      split <;> omega
    rw [hmax, hbest.depth, hm.depth, List.forall_mem_append]
  nodes := by rw [hbest.nodes, hm.nodes, List.length_append]

structure MeasuresOn (calls : Nat) (r : Except StackOverflow (Nat × Nat))
    (values : List (Nat × JsValue)) : Prop where
  fits : (∃ m, r = .ok m) ↔ ∀ p ∈ values, p.1 ≤ calls
  measures : ∀ m, r = .ok m → Measures m values

theorem Measures.onCalls {m : Nat × Nat} {calls : Nat} {values : List (Nat × JsValue)}
    (h : Measures m values) (hfits : ∀ p ∈ values, p.1 ≤ calls) :
    MeasuresOn calls (.ok m) values :=
  ⟨iff_of_true ⟨m, rfl⟩ hfits, fun _ hm => Except.ok.inj hm ▸ h⟩

theorem measuresOn_onStack {calls depth : Nat} {v : JsValue} {r : Except StackOverflow (Nat × Nat)}
    {values : List (Nat × JsValue)} (hv : (depth, v) ∈ values)
    (h : depth ≤ calls → MeasuresOn calls r values) :
    MeasuresOn calls (onStack calls depth r) values := by
  rw [onStack]
  split
  · rename_i hfits
    exact h hfits
  · rename_i hfull
    refine ⟨iff_of_false (fun hm => by simp at hm) fun hall => hfull (hall _ hv), ?_⟩
    intro m hm
    cases hm

theorem measuresOn_bind {calls : Nat} {best : Nat × Nat} {seen values rest : List (Nat × JsValue)}
    {first : Except StackOverflow (Nat × Nat)}
    {loop : Nat × Nat → Except StackOverflow (Nat × Nat)} (hbest : Measures best seen)
    (hseen : ∀ p ∈ seen, p.1 ≤ calls) (hfirst : MeasuresOn calls first values)
    (hloop : ∀ m, Measures m (seen ++ values) → (∀ p ∈ seen ++ values, p.1 ≤ calls) →
      MeasuresOn calls (loop m) (seen ++ values ++ rest)) :
    MeasuresOn calls (do
      let m ← first
      loop (if best.1 < m.1 then m.1 else best.1, best.2 + m.2)) (seen ++ (values ++ rest)) := by
  rw [← List.append_assoc]
  cases hm : first with
  | error err =>
    refine ⟨iff_of_false (fun h => by simp [bind, Except.bind] at h) fun hall => ?_, fun m h => ?_⟩
    · obtain ⟨m, hok⟩ := hfirst.fits.mpr fun p hp =>
        hall p (List.mem_append_left _ (List.mem_append_right _ hp))
      rw [hm] at hok
      cases hok
    · cases h
  | ok m =>
    have hfits := hfirst.fits.mp ⟨m, hm⟩
    exact hloop _ (hbest.step (hfirst.measures m hm))
      (List.forall_mem_append.mpr ⟨hseen, hfits⟩)

mutual
theorem measureBounds_spec (calls depth : Nat) :
    ∀ v : JsValue, MeasuresOn calls (measureBounds calls depth v) (placed depth v)
  | .null | .bool _ | .num _ | .str _ =>
    measuresOn_onStack List.mem_cons_self fun hfits =>
      (measures_one depth _).onCalls (by simpa using hfits)
  | .arr xs =>
    measuresOn_onStack List.mem_cons_self fun hfits =>
      measureItems_spec calls (depth + 1) xs (measures_one depth (.arr xs)) (by simpa using hfits)
  | .obj fields =>
    measuresOn_onStack List.mem_cons_self fun hfits =>
      measureMembers_spec calls (depth + 1) fields (measures_one depth (.obj fields))
        (by simpa using hfits)

theorem measureItems_spec (calls depth : Nat) : ∀ (xs : List JsValue) {best : Nat × Nat}
    {seen : List (Nat × JsValue)}, Measures best seen → (∀ p ∈ seen, p.1 ≤ calls) →
    MeasuresOn calls (measureItems calls depth xs best) (seen ++ placedItems depth xs)
  | [], _, _, h, hseen => by
    rw [measureItems, placedItems, List.append_nil]
    exact h.onCalls hseen
  | x :: xs, _, _, h, hseen => by
    rw [measureItems, placedItems]
    exact measuresOn_bind h hseen (measureBounds_spec calls depth x) fun _ hm hfits =>
      measureItems_spec calls depth xs hm hfits

theorem measureMembers_spec (calls depth : Nat) : ∀ (fields : List (String × JsValue))
    {best : Nat × Nat} {seen : List (Nat × JsValue)}, Measures best seen →
    (∀ p ∈ seen, p.1 ≤ calls) →
    MeasuresOn calls (measureMembers calls depth fields best) (seen ++ placedMembers depth fields)
  | [], _, _, h, hseen => by
    rw [measureMembers, placedMembers, List.append_nil]
    exact h.onCalls hseen
  | (_, x) :: fields, _, _, h, hseen => by
    rw [measureMembers, placedMembers]
    exact measuresOn_bind h hseen (measureBounds_spec calls depth x) fun _ hm hfits =>
      measureMembers_spec calls depth fields hm hfits
end

theorem jsLength_le_utf8Length (s : String) : jsLength s ≤ utf8Length s := by
  rw [jsLength, utf8Length]
  induction s.toList with
  | nil => exact Nat.le_refl _
  | cons c cs ih =>
    have hc : (if c.val > 0xFFFF then 2 else 1) ≤ c.utf8Size := by
      split
      · rename_i hlong
        have hval : 0xFFFF < c.val.toNat := UInt32.lt_iff_toNat_lt.mp hlong
        have hshort (n : UInt32) (hn : n.toNat ≤ 0xFFFF) : ¬c.val ≤ n := by
          rw [UInt32.le_iff_toNat_le]
          omega
        rw [Char.utf8Size, if_neg (hshort _ (by decide)), if_neg (hshort _ (by decide)),
          if_neg (hshort _ (by decide))]
        decide
      · exact Char.utf8Size_pos c
    simp only [List.map_cons, List.sum_cons]
    omega

/-- Where the schema can be measured, it gets through if no value of it is too deep, there are not
too many, and its text is not too long in UTF-16. -/
theorem jsonSchemaIssues_spec (engine : Engine) (schema : List (String × JsValue)) :
    ((∃ issues, jsonSchemaIssues engine schema = .ok issues) ↔
      PlacedWithin engine.calls (.obj schema)) ∧
    ∀ issues, jsonSchemaIssues engine schema = .ok issues →
      (issues.isEmpty = true ↔
        PlacedWithin MAX_NESTING_DEPTH (.obj schema) ∧ valueCount (.obj schema) ≤ MAX_FIELDS ∧
          jsLength (JsValue.stringify engine.numberText (.obj schema)) ≤ MAX_SCHEMA_BYTES) ∧
      ∀ issue ∈ issues, issue.path = ["jsonSchema"] := by
  have hspec := measureBounds_spec engine.calls 1 (.obj schema)
  have hissue {p : Prop} [Decidable p] (issue : ArgsIssue) :
      (if p then [issue] else []) = [] ↔ ¬p := by
    split
    · simpa
    · simpa
  rw [PlacedWithin, ← hspec.fits, jsonSchemaIssues, boundsOf]
  cases hm : measureBounds engine.calls 1 (.obj schema) with
  | error err =>
    refine ⟨iff_of_false (fun h => by simp [bind, Except.bind] at h) (by simp), ?_⟩
    intro issues h
    cases h
  | ok m =>
    have hmeasured := hspec.measures m hm
    refine ⟨iff_of_true ⟨_, rfl⟩ ⟨m, rfl⟩, ?_⟩
    intro issues h
    obtain rfl := Except.ok.inj h
    constructor
    · rw [PlacedWithin, ← hmeasured.depth, valueCount, ← hmeasured.nodes]
      simp only [List.isEmpty_iff, List.append_eq_nil_iff, hissue, not_lt, and_assoc]
    · intro issue hissue
      simp only [List.mem_append] at hissue
      obtain (h | h) | h := hissue
      all_goals
        split at h
        · rw [List.mem_singleton.mp h]
        · cases h

/-- The arguments with nothing but the schema are accepted. -/
def Accepted (engine : Engine) (schema : List (String × JsValue)) : Prop :=
  ∃ args, formDataExtractionArgsSchema engine (.obj [("jsonSchema", .obj schema)]) =
    .ok (some args)

theorem jsonSchemaArgs_eq (engine : Engine) (schema : List (String × JsValue)) :
    formDataExtractionArgsSchema engine (.obj [("jsonSchema", .obj schema)]) =
      (jsonSchemaIssues engine (recordEntries schema)).map fun issues =>
        if issues.isEmpty then some (.jsonSchema (recordEntries schema)) else none := by
  have hschema : formDataExtractionArgsSchema engine (.obj [("jsonSchema", .obj schema)]) = do
      let issues ← jsonSchemaIssues engine (recordEntries schema)
      return if issues.isEmpty then some (.jsonSchema (recordEntries schema)) else none := rfl
  rw [hschema]
  cases jsonSchemaIssues engine (recordEntries schema) <;> rfl

/-- It is what `z.record` leaves of the schema that is judged. -/
theorem accepted_iff (engine : Engine) (schema : List (String × JsValue)) :
    Accepted engine schema ↔
      PlacedWithin MAX_NESTING_DEPTH (.obj (recordEntries schema)) ∧
        valueCount (.obj (recordEntries schema)) ≤ MAX_FIELDS ∧
        jsLength (JsValue.stringify engine.numberText (.obj (recordEntries schema))) ≤
          MAX_SCHEMA_BYTES := by
  obtain ⟨hmeasured, hissues⟩ := jsonSchemaIssues_spec engine (recordEntries schema)
  rw [Accepted, jsonSchemaArgs_eq]
  cases h : jsonSchemaIssues engine (recordEntries schema) with
  | error err =>
    refine iff_of_false (fun hargs => by simp [Except.map] at hargs) fun hbounds => ?_
    obtain ⟨issues, hok⟩ := hmeasured.mpr fun p hp =>
      (hbounds.1 p hp).trans (Nat.le_of_lt engine.room)
    rw [h] at hok
    cases hok
  | ok issues =>
    rw [← (hissues issues h).1]
    cases hempty : issues.isEmpty <;> simp [Except.map, hempty]

/-- Nothing is said of a schema whose values do not all fit on the stack: measuring it throws. -/
theorem jsonSchemaArgs_overflow_iff (engine : Engine) (schema : List (String × JsValue)) :
    formDataExtractionArgsSchema engine (.obj [("jsonSchema", .obj schema)]) =
        .error .rangeError ↔
      ¬PlacedWithin engine.calls (.obj (recordEntries schema)) := by
  rw [← (jsonSchemaIssues_spec engine (recordEntries schema)).1, jsonSchemaArgs_eq]
  cases jsonSchemaIssues engine (recordEntries schema) with
  | error err => cases err; simp [Except.map]
  | ok issues => simp [Except.map]

/-- What the bounds are called: levels of nesting, values in all, and bytes of its text. -/
def WithinBounds (numberText : ℚ → String) (schema : List (String × JsValue)) : Prop :=
  NestsWithin MAX_NESTING_DEPTH (.obj schema) ∧ valueCount (.obj schema) ≤ MAX_FIELDS ∧
    utf8Length (JsValue.stringify numberText (.obj schema)) ≤ MAX_SCHEMA_BYTES

theorem placedMembers_eq (level : Nat) (fields : List (String × JsValue)) :
    placedMembers level fields = fields.flatMap fun entry => placed level entry.2 := by
  induction fields with
  | nil => rfl
  | cons entry fields ih => rw [placedMembers, ih, List.flatMap_cons]

theorem valueCount_le {fields kept : List (String × JsValue)} (h : kept.Sublist fields) :
    valueCount (.obj kept) ≤ valueCount (.obj fields) := by
  simp only [valueCount, placed, placedMembers_eq, List.length_cons]
  exact Nat.succ_le_succ (h.flatMap _).length_le

section Bytes
variable (numberText : ℚ → String)

def memberBytes (fields : List (String × JsValue)) : Nat :=
  utf8Length (String.ofList (JsValue.jsonMembers numberText fields))

theorem memberBytes_cons (entry : String × JsValue) (fields : List (String × JsValue)) :
    memberBytes numberText (entry :: fields) =
      utf8Length (String.ofList (quoted entry.1)) + 1 +
        utf8Length (String.ofList (entry.2.jsonChars numberText)) +
        (if fields = [] then 1 else 1 + memberBytes numberText fields) := by
  cases fields with
  | nil =>
    simp only [memberBytes, utf8Length, JsValue.jsonMembers, String.toList_ofList,
      List.map_append, List.map_cons, List.map_nil, List.sum_append, List.sum_cons, List.sum_nil,
      if_true]
    change _ + (1 + (_ + (1 + 0))) = _
    omega
  | cons next fields =>
    simp only [memberBytes, utf8Length, JsValue.jsonMembers, String.toList_ofList,
      List.map_append, List.map_cons, List.sum_append, List.sum_cons, reduceCtorEq, if_false]
    change _ + (1 + (_ + (1 + _))) = _
    omega

theorem memberBytes_le {fields kept : List (String × JsValue)} (h : kept.Sublist fields) :
    memberBytes numberText kept ≤ memberBytes numberText fields := by
  induction h with
  | slnil => exact Nat.le_refl _
  | @cons kept fields entry h ih =>
    refine ih.trans ?_
    rw [memberBytes_cons]
    split
    · rename_i hnil
      have hclosed : memberBytes numberText [] = 1 := by
        simp only [memberBytes, utf8Length, JsValue.jsonMembers, String.toList_ofList]
        rfl
      rw [hnil, hclosed]
      exact Nat.le_add_left 1 _
    · omega
  | @cons_cons kept fields entry h ih =>
    rw [memberBytes_cons, memberBytes_cons]
    by_cases hkept : kept = []
    · subst hkept
      rw [if_pos rfl]
      split <;> omega
    · have hfields : fields ≠ [] := by
        intro hnil
        subst hnil
        exact hkept (List.sublist_nil.mp h)
      rw [if_neg hkept, if_neg hfields]
      omega

theorem bytes_obj (fields : List (String × JsValue)) :
    utf8Length (JsValue.stringify numberText (.obj fields)) =
      1 + memberBytes numberText fields := by
  simp only [memberBytes, utf8Length, JsValue.stringify, JsValue.jsonChars, String.toList_ofList,
    List.map_cons, List.sum_cons]
  rfl

end Bytes

theorem recordEntries_sublist (schema : List (String × JsValue)) :
    (recordEntries schema).Sublist schema := List.filter_sublist

/-- A scalar outside an entry `__proto__` stands in an object or array of the last level that is
let through. -/
def ScalarTooDeep (schema : List (String × JsValue)) : Prop :=
  ∃ p ∈ placed 1 (.obj (recordEntries schema)), MAX_NESTING_DEPTH < p.1

/-- Two kinds of schemas are misjudged, and no others: those within the bounds in which, but for
an entry `__proto__`, a scalar is too deep, and those beyond them of which what is left without
that entry is short enough in UTF-16, with few enough values and none too deep. -/
theorem accepted_iff_withinBounds_iff (engine : Engine) (schema : List (String × JsValue)) :
    (Accepted engine schema ↔ WithinBounds engine.numberText schema) ↔
    ¬(WithinBounds engine.numberText schema ∧ ScalarTooDeep schema) ∧
    ¬(PlacedWithin MAX_NESTING_DEPTH (.obj (recordEntries schema)) ∧
      valueCount (.obj (recordEntries schema)) ≤ MAX_FIELDS ∧
      jsLength (JsValue.stringify engine.numberText (.obj (recordEntries schema))) ≤
        MAX_SCHEMA_BYTES ∧
      (¬NestsWithin MAX_NESTING_DEPTH (.obj schema) ∨ MAX_FIELDS < valueCount (.obj schema) ∨
        MAX_SCHEMA_BYTES < utf8Length (JsValue.stringify engine.numberText (.obj schema)))) := by
  rw [accepted_iff]
  have hsublist := recordEntries_sublist schema
  constructor
  · intro h
    constructor
    · intro hscalar
      obtain ⟨hbounds, p, hp, hdeep⟩ := hscalar
      exact absurd ((h.mpr hbounds).1 p hp) (Nat.not_le.mpr hdeep)
    · intro hlet
      obtain ⟨hplaced, hcount, hshort, hbeyond⟩ := hlet
      obtain ⟨hnests, hfew, hbytes⟩ := h.mp ⟨hplaced, hcount, hshort⟩
      obtain hdeep | hmany | hlong := hbeyond
      · exact hdeep hnests
      · exact absurd hfew (Nat.not_le.mpr hmany)
      · exact absurd hbytes (Nat.not_le.mpr hlong)
  · intro h
    obtain ⟨hscalar, hlet⟩ := h
    constructor
    · intro haccepted
      obtain ⟨hplaced, hcount, hshort⟩ := haccepted
      by_contra hbeyond
      rw [WithinBounds, not_and_or, not_and_or, Nat.not_le, Nat.not_le] at hbeyond
      exact hlet ⟨hplaced, hcount, hshort, hbeyond⟩
    · intro hbounds
      have ⟨_, hfew, hbytes⟩ := hbounds
      refine ⟨?_, (valueCount_le hsublist).trans hfew, (jsLength_le_utf8Length _).trans ?_⟩
      · intro p hp
        by_contra hdeep
        exact hscalar ⟨hbounds, p, hp, Nat.not_le.mp hdeep⟩
      · refine le_trans ?_ hbytes
        rw [bytes_obj, bytes_obj]
        exact Nat.add_le_add_left (memberBytes_le engine.numberText hsublist) 1

namespace Sample

def decimal (q : ℚ) : String := toString q.num

def engine : Engine := ⟨decimal, 1000, by decide⟩

def nameSchema : List (String × JsValue) :=
  [("type", .str "object"), ("properties", .obj [("name", .obj [("type", .str "string")])])]

def accented (n : Nat) : List (String × JsValue) :=
  [("description", .str (String.ofList (List.replicate n 'é')))]

theorem stringify_accented (n : Nat) : (JsValue.stringify decimal (.obj (accented n))).toList =
    "\x7b\x22description\x22:\x22".toList ++ (List.replicate n 'é' ++ "\x22\x7d".toList) := by
  have hé : escaped 'é' = ['é'] := by decide
  have hkey : quoted "description" = "\x22description\x22".toList := by decide +kernel
  have hvalue : quoted (String.ofList (List.replicate n 'é')) =
      '\x22' :: (List.replicate n 'é' ++ ['\x22']) := by
    rw [quoted, String.toList_ofList, List.flatMap_replicate, hé, List.flatten_replicate_singleton]
  have hchars : JsValue.jsonChars decimal (.obj (accented n)) = '{' :: (quoted "description" ++
      ':' :: (quoted (String.ofList (List.replicate n 'é')) ++ ['}'])) := rfl
  rw [JsValue.stringify, String.toList_ofList, hchars, hkey, hvalue, List.cons_append,
    List.append_assoc]
  rfl

theorem length_accented (n : Nat) :
    jsLength (JsValue.stringify decimal (.obj (accented n))) = n + 18 ∧
      utf8Length (JsValue.stringify decimal (.obj (accented n))) = 2 * n + 18 := by
  rw [jsLength, utf8Length, stringify_accented]
  simp only [List.map_append, List.sum_append, List.map_replicate, List.sum_replicate_nat]
  constructor
  · change 16 + (n * 1 + 2) = n + 18
    omega
  · change 16 + (n * 2 + 2) = 2 * n + 18
    omega

theorem nameSchema_withinBounds : WithinBounds decimal nameSchema :=
  ⟨by unfold NestsWithin; decide, by decide, by decide +kernel⟩

/-- A value in five objects within each other, under a name that `z.record` leaves out. -/
def hidden : List (String × JsValue) :=
  [("__proto__", .obj [("a", .obj [("b", .obj [("c", .obj [("d", .bool true)])])])])]

theorem accented_accepted : Accepted engine (accented 15000) := by
  have hentries : recordEntries (accented 15000) = accented 15000 := rfl
  rw [accepted_iff, hentries]
  change _ ∧ _ ∧ jsLength (JsValue.stringify decimal _) ≤ _
  rw [(length_accented _).1]
  refine ⟨?_, Nat.le_of_ble_eq_true rfl, by decide⟩
  intro p hp
  obtain rfl | rfl : p = (1, .obj (accented 15000)) ∨
      p = (2, .str (String.ofList (List.replicate 15000 'é'))) := by
    simpa only [placed, placedMembers, accented, List.append_nil, List.mem_cons, List.not_mem_nil,
      or_false] using hp
  · decide
  · decide

/-- An ordinary schema is turned down, and two are let through, one far too long and one too
deep. -/
theorem jsonSchema_misjudged :
    ¬(Accepted engine nameSchema ↔ WithinBounds decimal nameSchema) ∧
    ¬(Accepted engine (accented 15000) ↔ WithinBounds decimal (accented 15000)) ∧
    ¬(Accepted engine hidden ↔ WithinBounds decimal hidden) := by
  refine ⟨?_, ?_, ?_⟩
  · intro h
    have hplaced := ((accepted_iff engine nameSchema).mp (h.mpr nameSchema_withinBounds)).1
    exact absurd hplaced (by unfold PlacedWithin; decide)
  · intro h
    have hbytes := (h.mp accented_accepted).2.2
    rw [(length_accented _).2] at hbytes
    exact absurd hbytes (by decide)
  · intro h
    have haccepted : Accepted engine hidden := by
      rw [accepted_iff]
      exact ⟨by unfold PlacedWithin; decide, by decide, by decide +kernel⟩
    exact absurd (h.mp haccepted).1 (by unfold NestsWithin; decide)

end Sample

end OcrService
