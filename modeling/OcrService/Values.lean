import Mathlib.Algebra.GroupWithZero.Nat
import Mathlib.Data.List.DropRight
import Mathlib.Data.List.Infix
import Mathlib.Data.List.TakeWhile
import Mathlib.Data.Rat.Defs

/-! The JavaScript values that cross a serialisation boundary: request arguments,
function results, error details. -/
namespace OcrService

abbrev Buffer := List UInt8

/-- `length` of a JavaScript string: its UTF-16 code units. -/
def jsLength (s : String) : Nat := (s.toList.map fun c => if c.val > 0xFFFF then 2 else 1).sum

def truthy (s : Option String) : Option String := s.filter fun s => s ≠ ""

def jsWhitespace (c : Char) : Bool :=
  c.val ∈ [0x9, 0xA, 0xB, 0xC, 0xD, 0x20, 0xA0, 0x1680, 0x2028, 0x2029, 0x202F, 0x205F, 0x3000,
    0xFEFF] || (0x2000 ≤ c.val && c.val ≤ 0x200A)

def jsTrim (s : String) : String :=
  String.ofList
    (((s.toList.dropWhile jsWhitespace).reverse.dropWhile jsWhitespace).reverse)

theorem trimmed_eq_nil (cs : List Char) :
    (cs.dropWhile jsWhitespace).reverse.dropWhile jsWhitespace = [] ↔
      ∀ c ∈ cs, jsWhitespace c = true := by
  rw [List.dropWhile_eq_nil_iff]
  constructor
  · intro h c hc
    rw [← List.takeWhile_append_dropWhile (p := jsWhitespace) (l := cs), List.mem_append] at hc
    obtain hc | hc := hc
    · exact List.mem_takeWhile_imp hc
    · exact h c (List.mem_reverse.mpr hc)
  · intro h c hc
    exact h c ((List.dropWhile_sublist _).subset (List.mem_reverse.mp hc))

theorem jsTrim_eq_empty {s : String} : jsTrim s = "" ↔ ∀ c ∈ s.toList, jsWhitespace c = true := by
  rw [← trimmed_eq_nil, jsTrim]
  constructor
  · intro h
    have hlist := congrArg String.toList h
    rw [String.toList_ofList] at hlist
    exact List.reverse_eq_nil_iff.mp hlist
  · intro h
    rw [h]
    rfl

theorem dropWhile_eq_self {p : Char → Bool} {cs : List Char}
    (h : ∀ c, cs.head? = some c → p c = false) : cs.dropWhile p = cs := by
  cases cs with
  | nil => rfl
  | cons c cs => rw [List.dropWhile_cons_of_neg (by simp [h c rfl])]

theorem jsTrim_eq_self {s : String} (hhead : ∀ c, s.toList.head? = some c → jsWhitespace c = false)
    (hlast : ∀ c, s.toList.getLast? = some c → jsWhitespace c = false) : jsTrim s = s := by
  rw [jsTrim, dropWhile_eq_self hhead, dropWhile_eq_self, List.reverse_reverse,
    String.ofList_toList]
  intro c hc
  exact hlast c (by rwa [List.head?_reverse] at hc)

theorem head?_dropWhile {p : Char → Bool} {cs : List Char} {c : Char}
    (h : (cs.dropWhile p).head? = some c) : p c = false := by
  have hnot := List.head?_dropWhile_not p cs
  rw [h] at hnot
  simpa using hnot

theorem jsTrim_head {s : String} {c : Char} (h : (jsTrim s).toList.head? = some c) :
    jsWhitespace c = false := by
  obtain ⟨tail, htail⟩ :=
    List.rdropWhile_prefix (p := jsWhitespace) (s.toList.dropWhile jsWhitespace)
  have hlist : (jsTrim s).toList = (s.toList.dropWhile jsWhitespace).rdropWhile jsWhitespace := by
    rw [jsTrim, String.toList_ofList]
    rfl
  rw [hlist] at h
  have hdrop : (s.toList.dropWhile jsWhitespace).head? = some c := by
    rw [← htail, List.head?_append, h]
    rfl
  exact head?_dropWhile hdrop

theorem jsTrim_last {s : String} {c : Char} (h : (jsTrim s).toList.getLast? = some c) :
    jsWhitespace c = false := by
  rw [jsTrim, String.toList_ofList, List.getLast?_reverse] at h
  exact head?_dropWhile h

theorem jsTrim_jsTrim (s : String) : jsTrim (jsTrim s) = jsTrim s :=
  jsTrim_eq_self (fun _ h => jsTrim_head h) fun _ h => jsTrim_last h

theorem jsTrim_intercalate_eq_empty {sep : String} (hsep : ∀ c ∈ sep.toList, jsWhitespace c = true)
    (texts : List String) :
    jsTrim (sep.intercalate texts) = "" ↔ ∀ s ∈ texts, jsTrim s = "" := by
  induction texts with
  | nil => simp [jsTrim_eq_empty]
  | cons s rest ih =>
    cases rest with
    | nil => simp
    | cons t rest =>
      have hjoin : jsTrim (sep.intercalate (s :: t :: rest)) = "" ↔
          jsTrim s = "" ∧ jsTrim (sep.intercalate (t :: rest)) = "" := by
        simp only [jsTrim_eq_empty, String.intercalate_cons_cons, String.toList_append,
          List.mem_append, or_imp, forall_and]
        exact ⟨fun h => ⟨h.1.1, h.2⟩, fun h => ⟨⟨h.1, hsep⟩, h.2⟩⟩
      rw [hjoin, ih, List.forall_mem_cons (a := s)]

/-- `includes`; well-formed texts contain each other by characters or not at all. -/
def jsIncludes (haystack needle : String) : Bool := decide (needle.toList <:+: haystack.toList)

/-- `toLowerCase`, for comparing with ASCII texts: beside `A` to `Z` only the Kelvin sign
goes to an ASCII letter, and no other character to ASCII characters alone. -/
def jsToLowerCase (s : String) : String :=
  String.ofList (s.toList.map fun c => if c.val = 0x212A then 'k' else c.toLower)

/-- The `toUpperCase` of a character, exact in the ASCII characters it brings. -/
def jsUpperCase : Char → List Char
  | 'ß' => ['S', 'S']
  | 'ı' => ['I']
  | 'ſ' => ['S']
  | 'ŉ' => ['ʼ', 'N']
  | 'ǰ' => ['J', '\u030C']
  | 'ẖ' => ['H', '\u0331']
  | 'ẗ' => ['T', '\u0308']
  | 'ẘ' => ['W', '\u030A']
  | 'ẙ' => ['Y', '\u030A']
  | 'ẚ' => ['A', 'ʾ']
  | 'ﬀ' => ['F', 'F']
  | 'ﬁ' => ['F', 'I']
  | 'ﬂ' => ['F', 'L']
  | 'ﬃ' => ['F', 'F', 'I']
  | 'ﬄ' => ['F', 'F', 'L']
  | 'ﬅ' | 'ﬆ' => ['S', 'T']
  | c => [c.toUpper]

/-- The numbers `JSON.parse` can produce. A literal too large for a double is read
as an infinity, and `JSON.stringify` writes an infinity as `null`. -/
inductive JsNumber where
  | finite (q : ℚ)
  | posInf
  | negInf
  deriving DecidableEq

inductive JsValue where
  | null
  | bool (b : Bool)
  | num (n : JsNumber)
  | str (s : String)
  | arr (xs : List JsValue)
  | obj (fields : List (String × JsValue))

namespace JsValue

mutual
def throughJson : JsValue → JsValue
  | null => null
  | bool b => bool b
  | num (.finite q) => num (.finite q)
  | num .posInf => null
  | num .negInf => null
  | str s => str s
  | arr xs => arr (throughJsonAll xs)
  | obj fields => obj (throughJsonFields fields)

def throughJsonAll : List JsValue → List JsValue
  | [] => []
  | x :: xs => x.throughJson :: throughJsonAll xs

def throughJsonFields : List (String × JsValue) → List (String × JsValue)
  | [] => []
  | (k, x) :: fields => (k, x.throughJson) :: throughJsonFields fields
end

mutual
def finite : JsValue → Bool
  | num .posInf => false
  | num .negInf => false
  | arr xs => finiteAll xs
  | obj fields => finiteFields fields
  | _ => true

def finiteAll : List JsValue → Bool
  | [] => true
  | x :: xs => x.finite && finiteAll xs

def finiteFields : List (String × JsValue) → Bool
  | [] => true
  | (_, x) :: fields => x.finite && finiteFields fields
end

mutual
theorem throughJson_of_finite : ∀ v : JsValue, v.finite = true → v.throughJson = v
  | null, _ | bool _, _ | str _, _ => rfl
  | num (.finite _), _ => rfl
  | num .posInf, h | num .negInf, h => by simp [finite] at h
  | arr xs, h => by rw [throughJson, throughJsonAll_of_finite xs (by simpa [finite] using h)]
  | obj fields, h => by
    rw [throughJson, throughJsonFields_of_finite fields (by simpa [finite] using h)]

theorem throughJsonAll_of_finite : ∀ xs : List JsValue, finiteAll xs = true →
    throughJsonAll xs = xs
  | [], _ => rfl
  | x :: xs, h => by
    simp only [finiteAll, Bool.and_eq_true] at h
    rw [throughJsonAll, throughJson_of_finite x h.1, throughJsonAll_of_finite xs h.2]

theorem throughJsonFields_of_finite : ∀ fields : List (String × JsValue),
    finiteFields fields = true → throughJsonFields fields = fields
  | [], _ => rfl
  | (k, x) :: fields, h => by
    simp only [finiteFields, Bool.and_eq_true] at h
    rw [throughJsonFields, throughJson_of_finite x h.1, throughJsonFields_of_finite fields h.2]
end

mutual
theorem throughJson_finite : ∀ v : JsValue, v.throughJson.finite = true
  | null | bool _ | str _ => rfl
  | num (.finite _) | num .posInf | num .negInf => rfl
  | arr xs => by simpa [throughJson, finite] using throughJsonAll_finite xs
  | obj fields => by simpa [throughJson, finite] using throughJsonFields_finite fields

theorem throughJsonAll_finite : ∀ xs : List JsValue, finiteAll (throughJsonAll xs) = true
  | [] => rfl
  | x :: xs => by
    simp [throughJsonAll, finiteAll, throughJson_finite x, throughJsonAll_finite xs]

theorem throughJsonFields_finite : ∀ fields : List (String × JsValue),
    finiteFields (throughJsonFields fields) = true
  | [] => rfl
  | (k, x) :: fields => by
    simp [throughJsonFields, finiteFields, throughJson_finite x, throughJsonFields_finite fields]
end

theorem throughJson_idem (v : JsValue) : v.throughJson.throughJson = v.throughJson :=
  throughJson_of_finite _ (throughJson_finite v)

end JsValue
end OcrService
