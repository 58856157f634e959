import OcrService.Ingest
import OcrService.Llm
import OcrService.SessionRuns

/-! The session cookie of the admin console (`parseCookies` and `adminAuth` of
`http/middleware/admin-auth.ts`), from the header on. -/
namespace OcrService
open Interaction

inductive UriUnit where
  | char (c : Char)
  | octet (b : UInt8)

def hexValue (c : Char) : Option Nat :=
  if '0' ≤ c ∧ c ≤ '9' then some (c.toNat - 48)
  else if 'A' ≤ c ∧ c ≤ 'F' then some (c.toNat - 55)
  else if 'a' ≤ c ∧ c ≤ 'f' then some (c.toNat - 87)
  else none

/-- A text with its escapes read; nothing if one is cut off or has no two hex digits. -/
def uriUnits : List Char → Option (List UriUnit)
  | [] => some []
  | '%' :: high :: low :: cs => do
    let h ← hexValue high
    let l ← hexValue low
    let units ← uriUnits cs
    return .octet (UInt8.ofNat (16 * h + l)) :: units
  | '%' :: _ => none
  | c :: cs => (uriUnits cs).map (.char c :: ·)

def codePoint : Buffer → Nat
  | [a] => a.toNat
  | [a, b] => a.toNat % 32 * 64 + b.toNat % 64
  | [a, b, c] => a.toNat % 16 * 4096 + b.toNat % 64 * 64 + c.toNat % 64
  | [a, b, c, d] =>
    a.toNat % 8 * 262144 + b.toNat % 64 * 4096 + c.toNat % 64 * 64 + d.toNat % 64
  | _ => 0

/-- Escaped octets are decoded as UTF-8; `pending` are those of a sequence that is not over. -/
def decodeUnits (s : Utf8State) (pending : Buffer) : List UriUnit → Option (List Char)
  | [] => if s.needed = 0 then some [] else none
  | .char c :: units =>
    if s.needed = 0 then (decodeUnits .start [] units).map (c :: ·) else none
  | .octet b :: units =>
    match s.feed b with
    | none => none
    | some s' =>
      if s'.needed = 0 then
        (decodeUnits .start [] units).map (Char.ofNat (codePoint (pending ++ [b])) :: ·)
      else decodeUnits s' (pending ++ [b]) units

def decodeURIComponent (s : String) : Except Thrown String :=
  match (uriUnits s.toList).bind (decodeUnits .start []) with
  | some cs => .ok (String.ofList cs)
  | none => .error (.error "URI malformed")

example : decodeURIComponent "a%20%E2%82%ac" = .ok "a €" := rfl

def SESSION_COOKIE : String := "admin_session"

/-- A part of the header by its first `=`, both sides trimmed; parts without a name do not count. -/
def cookiePair (part : List Char) : Option (String × String) :=
  match part.dropWhile (· ≠ '=') with
  | [] => none
  | _ :: value =>
    let name := jsTrim (String.ofList (part.takeWhile (· ≠ '=')))
    if name = "" then none else some (name, jsTrim (String.ofList value))

/-- `out[name] = value`, which on `__proto__` does nothing if the value is a text. -/
def setCookie (out : List (String × String)) (name value : String) : List (String × String) :=
  if name = "__proto__" then out else setEntry out name value

def addCookie (out : List (String × String)) (part : List Char) :
    Except Thrown (List (String × String)) :=
  match cookiePair part with
  | none => .ok out
  | some (name, value) => (decodeURIComponent value).map (setCookie out name)

def parseCookies (header : Option String) : Except Thrown (List (String × String)) :=
  match truthy header with
  | none => .ok []
  | some header => (header.toList.splitOn ';').foldlM addCookie []

/-- `adminAuth` from the header on: what it throws, what it answers, or the session with which
it calls `next`. -/
def adminAuthOf (header : Option String) :
    AdminProg (Except Thrown (Except AdminResponse AdminSession)) :=
  match parseCookies header with
  | .error err => .ret (.error err)
  | .ok cookies => do
    let answer ← adminAuth (cookies.lookup SESSION_COOKIE)
    .ret (.ok answer)

def isBase64Url (c : Char) : Bool :=
  ('A' ≤ c && c ≤ 'Z') || ('a' ≤ c && c ≤ 'z') || ('0' ≤ c && c ≤ '9') || c = '-' || c = '_'

structure MintedToken extends SessionToken where
  alphabet : text.toList.all isBase64Url = true

structure CookiePair where
  name : String
  value : String
  name_plain : ';' ∉ name.toList ∧ '=' ∉ name.toList
  value_plain : ';' ∉ value.toList

def CookiePair.chars (p : CookiePair) : List Char := p.name.toList ++ '=' :: p.value.toList

/-- A header in which the session cookie occurs once, with a token; blanks may stand around any
name and value. -/
structure SessionHeader where
  token : MintedToken
  before : List CookiePair
  session : CookiePair
  after : List CookiePair
  session_name : jsTrim session.name = SESSION_COOKIE
  session_value : jsTrim session.value = token.text
  once : ∀ p ∈ before ++ after, jsTrim p.name ≠ SESSION_COOKIE

namespace SessionHeader

def pairs (h : SessionHeader) : List CookiePair := h.before ++ h.session :: h.after

def text (h : SessionHeader) : String :=
  String.ofList ([';'].intercalate (h.pairs.map CookiePair.chars))

def ReadsToken (h : SessionHeader) : Prop :=
  ∃ cookies, parseCookies (some h.text) = .ok cookies ∧
    cookies.lookup SESSION_COOKIE = some h.token.text

end SessionHeader

def Decodable (value : String) : Prop := ∃ text, decodeURIComponent value = .ok text

def AuthAnswers (result : Except Thrown (Except AdminResponse AdminSession)) : Prop :=
  ∃ answer, result = .ok answer ∧
    ∀ response, answer = .error response → response.status = 401 ∨ response.status = 503

/-- Every named part of the header has a value that can be decoded. -/
def HeaderDecodable (header : Option String) : Prop :=
  ∀ part ∈ (header.getD "").toList.splitOn ';', ∀ name value,
    cookiePair part = some (name, value) → Decodable value

theorem uriUnits_plain {cs : List Char} (h : '%' ∉ cs) : uriUnits cs = some (cs.map .char) := by
  induction cs with
  | nil => rfl
  | cons c cs ih =>
    rw [List.mem_cons, not_or] at h
    have hother : uriUnits (c :: cs) = (uriUnits cs).map (.char c :: ·) := by
      rw [uriUnits]
      · intro _ _ _ heq
        exact absurd heq.symm h.1
      · intro heq
        exact absurd heq.symm h.1
    rw [hother, ih h.2]
    rfl

theorem decodeUnits_chars (cs : List Char) :
    decodeUnits .start [] (cs.map .char) = some cs := by
  induction cs with
  | nil => rfl
  | cons c cs ih =>
    rw [List.map_cons, decodeUnits, ih]
    rfl

theorem decodeURIComponent_plain {s : String} (h : '%' ∉ s.toList) :
    decodeURIComponent s = .ok s := by
  rw [decodeURIComponent, uriUnits_plain h, Option.bind_some, decodeUnits_chars]
  exact congrArg Except.ok String.ofList_toList

theorem MintedToken.decodable (token : MintedToken) :
    decodeURIComponent token.text = .ok token.text := by
  refine decodeURIComponent_plain fun h => ?_
  have hpercent := List.all_eq_true.mp token.alphabet '%' h
  revert hpercent
  decide

def PartsDecodable (parts : List (List Char)) : Prop :=
  ∀ part ∈ parts, ∀ name value, cookiePair part = some (name, value) → Decodable value

theorem addCookie_eq_ok {out out' : List (String × String)} {part : List Char} :
    addCookie out part = .ok out' ↔
      cookiePair part = none ∧ out = out' ∨
        ∃ name value text, cookiePair part = some (name, value) ∧
          decodeURIComponent value = .ok text ∧ setCookie out name text = out' := by
  rw [addCookie]
  cases hpair : cookiePair part with
  | none => simp
  | some pair =>
    obtain ⟨name, value⟩ := pair
    cases hvalue : decodeURIComponent value with
    | error err => simp [hvalue, Except.map]
    | ok text => simp [hvalue, Except.map]

theorem addCookies_append {parts parts' : List (List Char)} {out out' : List (String × String)} :
    (parts ++ parts').foldlM addCookie out = .ok out' ↔
      ∃ next, parts.foldlM addCookie out = .ok next ∧ parts'.foldlM addCookie next = .ok out' := by
  rw [List.foldlM_append]
  cases parts.foldlM addCookie out with
  | error err => simp [bind, Except.bind]
  | ok next => simp [bind, Except.bind]

theorem addCookies_cons {part : List Char} {parts : List (List Char)}
    {out out' : List (String × String)} :
    (part :: parts).foldlM addCookie out = .ok out' ↔
      ∃ next, addCookie out part = .ok next ∧ parts.foldlM addCookie next = .ok out' := by
  have hone : [part].foldlM addCookie out = addCookie out part := by
    rw [List.foldlM_cons]
    cases addCookie out part <;> rfl
  rw [← hone]
  change ([part] ++ parts).foldlM addCookie out = .ok out' ↔ _
  exact addCookies_append

theorem addCookies_ok_iff {parts : List (List Char)} {out : List (String × String)} :
    (∃ out', parts.foldlM addCookie out = .ok out') ↔ PartsDecodable parts := by
  induction parts generalizing out with
  | nil => simp [PartsDecodable, pure, Except.pure]
  | cons part parts ih =>
    rw [PartsDecodable, List.forall_mem_cons, ← PartsDecodable]
    constructor
    · intro h
      obtain ⟨out', h⟩ := h
      obtain ⟨next, hnext, hrest⟩ := addCookies_cons.mp h
      refine ⟨fun name value hpair => ?_, ih.mp ⟨out', hrest⟩⟩
      obtain ⟨hnone, -⟩ | ⟨name', value', text, hpair', htext, -⟩ := addCookie_eq_ok.mp hnext
      · rw [hpair] at hnone
        cases hnone
      · rw [hpair] at hpair'
        cases hpair'
        exact ⟨text, htext⟩
    · intro h
      obtain ⟨hpart, hparts⟩ := h
      obtain ⟨next, hnext⟩ : ∃ next, addCookie out part = .ok next := by
        cases hpair : cookiePair part with
        | none => exact ⟨out, addCookie_eq_ok.mpr (Or.inl ⟨hpair, rfl⟩)⟩
        | some pair =>
          obtain ⟨text, htext⟩ := hpart pair.1 pair.2 hpair
          exact ⟨_, addCookie_eq_ok.mpr (Or.inr ⟨pair.1, pair.2, text, hpair, htext, rfl⟩)⟩
      obtain ⟨out', hrest⟩ := ih.mpr hparts
      exact ⟨out', addCookies_cons.mpr ⟨next, hnext, hrest⟩⟩

theorem lookup_setCookie {out : List (String × String)} {name value key : String}
    (h : name ≠ key) : (setCookie out name value).lookup key = out.lookup key := by
  rw [setCookie]
  split
  · rfl
  · rw [lookup_setEntry, if_neg (Ne.symm h)]

theorem lookup_addCookies {parts : List (List Char)} {out out' : List (String × String)}
    {key : String} (h : parts.foldlM addCookie out = .ok out')
    (hother : ∀ part ∈ parts, ∀ name value, cookiePair part = some (name, value) → name ≠ key) :
    out'.lookup key = out.lookup key := by
  induction parts generalizing out with
  | nil =>
    cases h
    rfl
  | cons part parts ih =>
    obtain ⟨next, hnext, hrest⟩ := addCookies_cons.mp h
    rw [ih hrest fun part hpart => hother part (List.mem_cons_of_mem _ hpart)]
    obtain ⟨-, rfl⟩ | ⟨name, value, text, hpair, -, rfl⟩ := addCookie_eq_ok.mp hnext
    · rfl
    · exact lookup_setCookie (hother part List.mem_cons_self name value hpair)

theorem cookiePair_chars (p : CookiePair) :
    cookiePair p.chars =
      if jsTrim p.name = "" then none else some (jsTrim p.name, jsTrim p.value) := by
  have hname : ∀ c ∈ p.name.toList, decide (c ≠ '=') = true := by
    intro c hc
    exact decide_eq_true fun heq => p.name_plain.2 (heq ▸ hc)
  rw [cookiePair, CookiePair.chars, List.dropWhile_append_of_pos hname,
    List.takeWhile_append_of_pos hname, List.dropWhile_cons_of_neg (by simp),
    List.takeWhile_cons_of_neg (by simp), List.append_nil]
  simp only [String.ofList_toList]

theorem not_mem_chars (p : CookiePair) : ';' ∉ p.chars := by
  intro h
  rw [CookiePair.chars, List.mem_append, List.mem_cons] at h
  obtain h | h | h := h
  · exact p.name_plain.1 h
  · cases h
  · exact p.value_plain h

namespace SessionHeader

theorem split_text (h : SessionHeader) :
    h.text.toList.splitOn ';' = h.pairs.map CookiePair.chars := by
  rw [text, String.toList_ofList]
  refine List.splitOn_intercalate ';' ?_ ?_
  · intro part hpart
    obtain ⟨p, -, rfl⟩ := List.mem_map.mp hpart
    exact not_mem_chars p
  · simp [pairs]

theorem session_mem (h : SessionHeader) : h.session ∈ h.pairs :=
  List.mem_append_right h.before List.mem_cons_self

theorem text_ne_empty (h : SessionHeader) : h.text ≠ "" := by
  intro hempty
  have hsplit : [[]] = h.pairs.map CookiePair.chars := by
    rw [← h.split_text, hempty]
    rfl
  have hsession := List.mem_map_of_mem h.session_mem (f := CookiePair.chars)
  rw [← hsplit, List.mem_singleton, CookiePair.chars] at hsession
  simp at hsession

theorem parseCookies_text (h : SessionHeader) :
    parseCookies (some h.text) = (h.pairs.map CookiePair.chars).foldlM addCookie [] := by
  rw [parseCookies, truthy, Option.filter_some, if_pos (by simpa using h.text_ne_empty)]
  simp only [h.split_text]

def OthersDecodable (h : SessionHeader) : Prop :=
  ∀ p ∈ h.before ++ h.after, jsTrim p.name ≠ "" → Decodable (jsTrim p.value)

theorem partsDecodable_iff (h : SessionHeader) :
    PartsDecodable (h.pairs.map CookiePair.chars) ↔ h.OthersDecodable := by
  have hpart (p : CookiePair) : (∀ name value, cookiePair p.chars = some (name, value) →
      Decodable value) ↔ (jsTrim p.name ≠ "" → Decodable (jsTrim p.value)) := by
    rw [cookiePair_chars]
    by_cases hname : jsTrim p.name = ""
    · simp [hname]
    · simp [hname]
  have hsession : jsTrim h.session.name ≠ "" → Decodable (jsTrim h.session.value) := by
    intro _
    rw [h.session_value]
    exact ⟨_, h.token.decodable⟩
  simp only [PartsDecodable, OthersDecodable, List.forall_mem_map, hpart, pairs,
    List.forall_mem_append, List.forall_mem_cons]
  constructor
  · intro hall
    exact ⟨hall.1, hall.2.2⟩
  · intro hall
    exact ⟨hall.1, hsession, hall.2⟩

theorem lookup_session (h : SessionHeader) {cookies : List (String × String)}
    (hcookies : parseCookies (some h.text) = .ok cookies) :
    cookies.lookup SESSION_COOKIE = some h.token.text := by
  rw [parseCookies_text, pairs, List.map_append, List.map_cons] at hcookies
  obtain ⟨earlier, -, hlater⟩ := addCookies_append.mp hcookies
  obtain ⟨next, hnext, hafter⟩ := addCookies_cons.mp hlater
  have hpair : cookiePair h.session.chars = some (SESSION_COOKIE, h.token.text) := by
    rw [cookiePair_chars, h.session_name, h.session_value, if_neg (by decide)]
  have hset : next = setCookie earlier SESSION_COOKIE h.token.text := by
    rw [addCookie, hpair] at hnext
    dsimp only at hnext
    rw [h.token.decodable] at hnext
    exact (Except.ok.inj hnext).symm
  have hother : ∀ part ∈ h.after.map CookiePair.chars, ∀ name value,
      cookiePair part = some (name, value) → name ≠ SESSION_COOKIE := by
    intro part hpart name value hsome
    obtain ⟨p, hp, rfl⟩ := List.mem_map.mp hpart
    rw [cookiePair_chars] at hsome
    split at hsome
    · cases hsome
    · cases hsome
      exact h.once p (List.mem_append_right h.before hp)
  rw [lookup_addCookies hafter hother, hset, setCookie, if_neg (by decide), lookup_setEntry,
    if_pos rfl]

theorem readsToken_iff (h : SessionHeader) : h.ReadsToken ↔ h.OthersDecodable := by
  rw [← h.partsDecodable_iff, ← addCookies_ok_iff, ← h.parseCookies_text]
  constructor
  · intro hreads
    obtain ⟨cookies, hcookies, -⟩ := hreads
    exact ⟨cookies, hcookies⟩
  · intro hparsed
    obtain ⟨cookies, hcookies⟩ := hparsed
    exact ⟨cookies, hcookies, h.lookup_session hcookies⟩

end SessionHeader

theorem parseCookies_ok_iff {header : Option String} :
    (∃ cookies, parseCookies header = .ok cookies) ↔ HeaderDecodable header := by
  have hblank : PartsDecodable (("" : String).toList.splitOn ';') := by
    intro part hpart name value hpair
    rw [List.mem_singleton.mp hpart] at hpair
    cases hpair
  rw [parseCookies, HeaderDecodable]
  cases header with
  | none => exact iff_of_true ⟨[], rfl⟩ hblank
  | some text =>
    by_cases hempty : text = ""
    · subst hempty
      exact iff_of_true ⟨[], rfl⟩ hblank
    · rw [truthy, Option.filter_some, if_pos (by simpa using hempty)]
      exact addCookies_ok_iff

section Auth
variable {σ : Type*} (handle : (o : AdminOp) → σ → o.Answer × σ) (s : σ)

theorem adminAuth_status {token : Option String} {response : AdminResponse}
    (h : ((adminAuth token).eval handle s).1 = .error response) :
    response.status = 401 ∨ response.status = 503 := by
  unfold adminAuth at h
  split at h
  · cases h
    exact Or.inl rfl
  · cases h
    exact Or.inl rfl
  · rw [Prog.eval_bind] at h
    split at h
    · cases h
      exact Or.inr rfl
    · cases h
      exact Or.inl rfl
    · cases h

theorem adminAuthOf_answers_iff {header : Option String} :
    AuthAnswers ((adminAuthOf header).eval handle s).1 ↔ HeaderDecodable header := by
  rw [← parseCookies_ok_iff, adminAuthOf]
  cases parseCookies header with
  | error err =>
    refine iff_of_false (fun h => ?_) (fun h => ?_)
    · obtain ⟨answer, hanswer, -⟩ := h
      cases hanswer
    · obtain ⟨cookies, hcookies⟩ := h
      cases hcookies
  | ok cookies =>
    refine iff_of_true ?_ ⟨cookies, rfl⟩
    simp only [Prog.eval_bind]
    exact ⟨_, rfl, fun response => adminAuth_status handle s⟩

/-- The token is found in a header exactly when the values of the other cookies can be decoded,
and `adminAuth` answers a request, instead of throwing, exactly when all the values can. -/
theorem sessionCookie_iff (header : SessionHeader) (cookie : Option String) :
    (header.ReadsToken ↔ header.OthersDecodable) ∧
      (AuthAnswers ((adminAuthOf cookie).eval handle s).1 ↔ HeaderDecodable cookie) :=
  ⟨header.readsToken_iff, adminAuthOf_answers_iff handle s⟩

end Auth

namespace Sample

def adaMinted : MintedToken := { adaToken with alphabet := by decide }

def adaStore : AdminStore where
  sessions token := if token = adaToken.text then some ⟨"u1", .owner⟩ else none
  admins := adaTable

def percentHeader : SessionHeader where
  token := adaMinted
  before := [{ name := "discount", value := "5%", name_plain := by decide,
               value_plain := by decide }]
  session := { name := " admin_session", value := adaToken.text, name_plain := by decide,
               value_plain := by decide }
  after := []
  session_name := by decide
  session_value := by decide
  once := by decide

end Sample

/-- A percent sign in some other cookie hides the session of an admin who is signed in, and the
request is not answered at all. -/
theorem percentCookie_throws :
    Sample.percentHeader.text = "discount=5%; admin_session=" ++ Sample.adaToken.text ∧
      ¬Sample.percentHeader.ReadsToken ∧
      ¬AuthAnswers ((adminAuthOf (some Sample.percentHeader.text)).eval
        (AdminStore.handle .done) Sample.adaStore).1 := by
  have hthrown : parseCookies (some Sample.percentHeader.text) =
      .error (.error "URI malformed") := rfl
  refine ⟨by decide, fun h => ?_, fun h => ?_⟩
  · obtain ⟨cookies, hcookies, -⟩ := h
    rw [hthrown] at hcookies
    cases hcookies
  · rw [adminAuthOf, hthrown] at h
    obtain ⟨answer, hanswer, -⟩ := h
    cases hanswer

end OcrService
