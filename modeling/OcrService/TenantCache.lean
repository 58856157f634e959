import OcrService.Tenants

/-! When a lookup after a mutation is told what the row says, over every interleaving of
the calls of one process. -/
namespace OcrService
open Interaction

namespace TenantStore

def rowView (s : TenantStore) (keyHash : String) : Option Tenant :=
  (s.tenants.find keyHash).bind fun row => unlessDisabled (rowToTenant row)

def cacheView (s : TenantStore) (keyHash : String) : Option Tenant :=
  (liveHit (s.cache keyHash) s.clock).bind fun entry => unlessDisabled entry.tenant

/-- An unexpired entry says what the row says. -/
def Coherent (s : TenantStore) (keyHash : String) : Prop :=
  ∀ entry, s.cache keyHash = some entry → s.clock < entry.expiresAt →
    unlessDisabled entry.tenant = s.rowView keyHash

theorem coherent_of_empty {s : TenantStore} {keyHash : String} (h : s.cache keyHash = none) :
    s.Coherent keyHash := by
  intro entry he
  rw [h] at he
  cases he

theorem coherent_of_gone {s : TenantStore} {keyHash : String}
    (hrow : s.tenants.find keyHash = none) (hcache : s.cacheView keyHash = none) :
    s.Coherent keyHash := by
  intro entry he hlive
  have hview : s.rowView keyHash = none := by simp [rowView, hrow]
  rw [hview]
  simpa [cacheView, liveHit, he, hlive] using hcache

end TenantStore

/-- A lookup caches what the row still says; a statement after which its call leaves the
cache alone is carried out while the cache has nothing to say. -/
def TenantStore.Careful (s : TenantStore) (fate : Fate) : TenantOp → Prop
  | .cacheSet keyHash tenant _ => unlessDisabled tenant = s.rowView keyHash
  | .delete keyHash => fate = .done → s.cacheView keyHash = none
  | .update keyHash _ =>
    fate = .done → s.tenants.find keyHash = none → s.cacheView keyHash = none
  | _ => True

instance (s : TenantStore) (fate : Fate) : (o : TenantOp) → Decidable (s.Careful fate o)
  | .cacheSet keyHash tenant _ =>
    inferInstanceAs (Decidable (unlessDisabled tenant = s.rowView keyHash))
  | .delete keyHash => inferInstanceAs (Decidable (fate = .done → s.cacheView keyHash = none))
  | .update keyHash _ =>
    inferInstanceAs
      (Decidable (fate = .done → s.tenants.find keyHash = none → s.cacheView keyHash = none))
  | .cacheGet _ | .cacheDelete _ | .select _ | .upsert _ _ => isTrue True.intro

section
variable {s : TenantStore} {keyHash : String}

theorem cache_settle {α : Type} (fate : Fate) (failure : String → α) (a : α)
    (tenants : Table TenantRow.key_hash) :
    (fate.settle failure s (a, { s with tenants })).2.cache = s.cache := by
  cases fate <;> rfl

theorem clock_settle {α : Type} (fate : Fate) (failure : String → α) (a : α)
    (tenants : Table TenantRow.key_hash) :
    (fate.settle failure s (a, { s with tenants })).2.clock = s.clock := by
  cases fate <;> rfl

theorem select_state (ch : TenantChoice) : (TenantStore.handle ch (.select keyHash) s).2 = s := by
  simp only [TenantStore.handle]
  cases ch.fate <;> rfl

/-- As long as the row stays as it is, careful operations keep the cache coherent. -/
theorem coherent_handle {ch : TenantChoice} {o : TenantOp} (hs : s.Coherent keyHash)
    (hrow : (TenantStore.handle ch o s).2.tenants.find keyHash = s.tenants.find keyHash)
    (ho : s.Careful ch.fate o) : (TenantStore.handle ch o s).2.Coherent keyHash := by
  have hview : (TenantStore.handle ch o s).2.rowView keyHash = s.rowView keyHash := by
    simp only [TenantStore.rowView, hrow]
  intro entry he hlive
  rw [hview]
  cases o with
  | cacheGet k => exact hs entry he hlive
  | select k =>
    rw [select_state] at he hlive
    exact hs entry he hlive
  | cacheSet k tenant ttl =>
    simp only [TenantStore.handle] at he hlive
    by_cases hk : keyHash = k
    · subst hk
      rw [Function.update_self] at he
      cases he
      exact ho
    · rw [Function.update_of_ne hk] at he
      exact hs entry he hlive
  | cacheDelete k =>
    simp only [TenantStore.handle] at he hlive
    by_cases hk : keyHash = k
    · subst hk
      rw [Function.update_self] at he
      cases he
    · rw [Function.update_of_ne hk] at he
      exact hs entry he hlive
  | upsert k tenant | update k patch | delete k =>
    simp only [TenantStore.handle, cache_settle, clock_settle] at he hlive
    exact hs entry he hlive

def lastStep (keyHash : String) : (o : TenantOp) → o.Answer → Prop
  | .cacheDelete k, _ => k = keyHash
  | .delete k, answer => k = keyHash ∧ ∃ n, answer = .ok n
  | .update k _, answer => k = keyHash ∧ answer = .ok none
  | _, _ => False

theorem coherent_return {ch : TenantChoice} {o : TenantOp} (ho : s.Careful ch.fate o)
    (hlast : lastStep keyHash o (TenantStore.handle ch o s).1) :
    (TenantStore.handle ch o s).2.Coherent keyHash := by
  cases o with
  | cacheDelete k =>
    obtain rfl : k = keyHash := hlast
    refine TenantStore.coherent_of_empty ?_
    simp [TenantStore.handle]
  | delete k =>
    obtain ⟨rfl, n, hn⟩ := hlast
    simp only [TenantStore.handle] at hn ⊢
    cases hfate : ch.fate with
    | failed message | unanswered message =>
      rw [hfate] at hn
      cases hn
    | done => exact TenantStore.coherent_of_gone (s.tenants.find_erase_self k) (ho hfate)
  | update k patch =>
    obtain ⟨rfl, hn⟩ := hlast
    simp only [TenantStore.handle] at hn ⊢
    cases hfate : ch.fate with
    | failed message | unanswered message =>
      rw [hfate] at hn
      cases hn
    | done =>
      rw [hfate] at hn
      have hgone : (s.tenants.modify k patch.apply patch.key_hash_apply).find k = none := by
        simpa [Fate.settle] using hn
      have hbefore : s.tenants.find k = none := by
        rw [Table.find_modify_self] at hgone
        exact Option.map_eq_none_iff.mp hgone
      exact TenantStore.coherent_of_gone hgone (ho hfate hbefore)
  | cacheGet | cacheSet | select | upsert => exact hlast.elim

end

def TenantRequest.mutates (env : TenantEnv) : TenantRequest → Option String
  | resolveTenant _ => none
  | putTenant apiKey _ => some (env.hashApiKey apiKey)
  | updateTenantByHash keyHash _ => some keyHash
  | revokeApiKey apiKey => some (env.hashApiKey apiKey)
  | revokeByHash keyHash => some keyHash

def LastStep (key : Option String) {α : Type} (o : TenantOp) (x : o.Answer)
    (a : Except String α) : Prop :=
  ∀ keyHash result, key = some keyHash → a = .ok result → lastStep keyHash o x

theorem lastStep_error {key : Option String} {α : Type} {o : TenantOp} {x : o.Answer}
    {message : String} {a : Except String α} (ha : Except.error message = a) :
    LastStep key o x a := by
  intro keyHash result _ hok
  subst ha
  cases hok

theorem lastStep_map {key : Option String} {α β : Type} {o : TenantOp} {x : o.Answer} {f : α → β}
    {a : Except String α} (h : LastStep key o x a) : LastStep key o x (a.map f) := by
  intro keyHash result hkey hok
  cases a with
  | error message => cases hok
  | ok v => exact h keyHash v hkey rfl

theorem putTenant_endsBy (env : TenantEnv) (apiKey : String) (tenant : Tenant) :
    (putTenant env apiKey tenant).EndsBy (LastStep (some (env.hashApiKey apiKey))) := by
  intro x
  cases x with
  | error message =>
    refine ⟨fun a ha => ?_, True.intro⟩
    cases ha
    exact lastStep_error rfl
  | ok _ =>
    refine ⟨fun a ha => (nomatch ha), fun _ => ⟨fun a _ keyHash result hkey _ => ?_, True.intro⟩⟩
    exact Option.some.inj hkey

theorem updateTenantByHash_endsBy (keyHash : String) (patch : TenantPatch) :
    (updateTenantByHash keyHash patch).EndsBy (LastStep (some keyHash)) := by
  intro x
  obtain message | row := x
  · refine ⟨fun a ha => ?_, True.intro⟩
    cases ha
    exact lastStep_error rfl
  · cases row with
    | none => exact ⟨fun a _ k result hkey _ => ⟨Option.some.inj hkey, rfl⟩, True.intro⟩
    | some row =>
      refine ⟨fun a ha => (nomatch ha), fun _ => ⟨fun a _ k result hkey _ => ?_, True.intro⟩⟩
      exact Option.some.inj hkey

theorem revokeByHash_endsBy (keyHash : String) :
    (revokeByHash keyHash).EndsBy (LastStep (some keyHash)) := by
  refine fun _ => ⟨fun a ha => (nomatch ha),
    fun x => ⟨fun a ha k result hkey hok => ?_, True.intro⟩⟩
  cases ha
  exact ⟨Option.some.inj hkey, result, hok⟩

/-- A mutating call returns from its last cache deletion, from a `DELETE`, or from an
`UPDATE` that hit no row. -/
theorem program_endsBy (env : TenantEnv) (r : TenantRequest) :
    (r.program env).EndsBy (LastStep (r.mutates env)) := by
  have hmap : ∀ {α : Type} {key : Option String} {p : TenantProg (Except String α)}
      {f : α → TenantResult}, p.EndsBy (LastStep key) →
      (p >>= fun a => Prog.ret (a.map f)).EndsBy (LastStep key) :=
    fun hp => Prog.EndsBy.map (hp.mono fun _ _ _ => lastStep_map)
  cases r with
  | resolveTenant apiKey => exact Prog.EndsBy.trivial (fun _ _ _ _ _ hkey => nomatch hkey) _
  | putTenant apiKey tenant => exact hmap (putTenant_endsBy env apiKey tenant)
  | updateTenantByHash keyHash patch => exact hmap (updateTenantByHash_endsBy keyHash patch)
  | revokeApiKey apiKey => exact hmap (revokeByHash_endsBy (env.hashApiKey apiKey))
  | revokeByHash keyHash => exact hmap (revokeByHash_endsBy keyHash)

theorem loadTenant_keeps (env : TenantEnv) (keyHash : String) (V : Option Tenant → Prop) :
    (loadTenant env keyHash).Keeps TenantStore.handle (fun _ => True)
      (fun s => V (s.rowView keyHash)) fun a => ∀ v, a = .ok v → V v := by
  intro ch s _ hs
  refine ⟨by rw [select_state]; exact hs, ?_⟩
  have herror : ∀ message : String, ∀ v : Option Tenant,
      (Except.error message : Except String (Option Tenant)) = .ok v → V v := fun _ _ h => nomatch h
  simp only [TenantStore.handle]
  cases ch.fate with
  | failed message | unanswered message => exact herror message
  | done =>
    simp only [Fate.settle, Except.map]
    cases hrow : s.tenants.find keyHash with
    | none =>
      have hview : s.rowView keyHash = none := by simp [TenantStore.rowView, hrow]
      rw [hview] at hs
      refine fun ch' s' _ hs' => ⟨hs', fun v hv => ?_⟩
      cases hv
      exact hs
    | some row =>
      have hview : s.rowView keyHash = unlessDisabled (rowToTenant row) := by
        simp [TenantStore.rowView, hrow]
      rw [hview] at hs
      refine fun ch' s' _ hs' => ⟨hs', fun v hv => ?_⟩
      cases hv
      exact hs

/-- A lookup that starts on a coherent cache tells, at once or later, what the row says
at some moment from its start on. -/
theorem resolveTenant_keeps (env : TenantEnv) (apiKey : String) {s : TenantStore}
    {V : Option Tenant → Prop} (hs : s.Coherent (env.hashApiKey apiKey))
    (hV : V (s.rowView (env.hashApiKey apiKey))) :
    ∃ k, (TenantRequest.resolveTenant apiKey).program env =
        .ask (.cacheGet (env.hashApiKey apiKey)) k ∧
      (k (s.cache (env.hashApiKey apiKey), s.clock)).Keeps TenantStore.handle (fun _ => True)
        (fun s => V (s.rowView (env.hashApiKey apiKey)))
        fun a => ∀ v, a = .ok (.resolved v) → V v := by
  refine ⟨_, rfl, Prog.Keeps.bind (Q := fun a => ∀ v, a = .ok v → V v) ?_ ?_⟩
  · cases hlive : liveHit (s.cache (env.hashApiKey apiKey)) s.clock with
    | none =>
      simp only [hlive]
      exact loadTenant_keeps env (env.hashApiKey apiKey) V
    | some entry =>
      simp only [hlive]
      intro v hv
      cases hv
      obtain ⟨hentry, hclock⟩ := Option.filter_eq_some_iff.mp hlive
      have hview := hs entry hentry (by simpa using hclock)
      exact hview ▸ hV
  · intro a ha v hv
    cases a with
    | error message => cases hv
    | ok v' =>
      cases hv
      exact ha v rfl

abbrev TenantConf :=
  Conf TenantRequest TenantOp TenantOp.Answer (Except String TenantResult) TenantStore

abbrev TenantMove := Move TenantRequest TenantChoice Nat

def CarefulStep (c : TenantConf) : TenantMove → Prop
  | .step i ch => ∀ o ∈ c.waiting i, c.world.Careful ch.fate o
  | .spawn _ | .env _ => True

instance (c : TenantConf) : (mv : TenantMove) → Decidable (CarefulStep c mv)
  | .step i ch => inferInstanceAs (Decidable (∀ o ∈ c.waiting i, c.world.Careful ch.fate o))
  | .spawn _ | .env _ => isTrue True.intro

def Returns (env : TenantEnv) (keyHash : String) (c : TenantConf) : TenantMove → Prop
  | .step i _ => ∃ r result log, r.mutates env = some keyHash ∧
      c.threads[i]? = some ⟨r, .ret (.ok result), log⟩
  | .spawn _ | .env _ => False

def SameRow (keyHash : String) (c d : TenantConf) : Prop :=
  d.world.tenants.find keyHash = c.world.tenants.find keyHash

instance (keyHash : String) (c d : TenantConf) : Decidable (SameRow keyHash c d) :=
  inferInstanceAs (Decidable (_ = _))

def Settled (env : TenantEnv) (s : TenantStore) (keyHash : String) (moves : List TenantMove)
    (d : TenantConf) : Prop :=
  ∃ pre mv mid c c', moves = pre ++ mv :: mid ∧
    (tenantRegistry env).run ⟨s, []⟩ pre = some c ∧
    (tenantRegistry env).next c mv = some c' ∧ Returns env keyHash c' mv ∧
    (tenantRegistry env).run c' mid = some d ∧
    (tenantRegistry env).Visits (SameRow keyHash c') c' mid

/-- `moves` begin with the first step of a `resolveTenant` call, which has returned `v` when
they are over. -/
def Lookup (env : TenantEnv) (keyHash : String) (d : TenantConf) (moves : List TenantMove)
    (v : Option Tenant) : Prop :=
  ∃ i ch rest apiKey p log e, moves = .step i ch :: rest ∧ env.hashApiKey apiKey = keyHash ∧
    d.threads[i]? = some ⟨.resolveTenant apiKey, p, []⟩ ∧
    (tenantRegistry env).run d moves = some e ∧
    e.threads[i]? = some ⟨.resolveTenant apiKey, .ret (.ok (.resolved v)), log⟩

def SaidWithin (env : TenantEnv) (keyHash : String) (d : TenantConf) (moves : List TenantMove)
    (v : Option Tenant) : Prop :=
  ∃ m m' f, moves = m ++ m' ∧ (tenantRegistry env).run d m = some f ∧
    f.world.rowView keyHash = v

/-- Each lookup that starts after a mutating call has returned, and before the row changes
again, is told what the row says at a moment of the lookup. -/
def LookupsCurrent (env : TenantEnv) (s : TenantStore) (moves : List TenantMove) : Prop :=
  ∀ keyHash before call after d v, moves = before ++ (call ++ after) →
    Settled env s keyHash before d → Lookup env keyHash d call v → SaidWithin env keyHash d call v

section
variable {env : TenantEnv} {s : TenantStore} {keyHash : String}

theorem coherent_next {c c' : TenantConf} {mv : TenantMove} (hc : c.world.Coherent keyHash)
    (hrow : SameRow keyHash c c') (hmv : CarefulStep c mv)
    (hn : (tenantRegistry env).next c mv = some c') : c'.world.Coherent keyHash := by
  cases mv with
  | spawn r =>
    cases hn
    exact hc
  | env elapsed =>
    cases hn
    intro entry he hlive
    have hclock : c.world.clock < entry.expiresAt := by
      simp only [tenantRegistry] at hlive
      omega
    exact hc entry he hclock
  | step i ch =>
    obtain ⟨r, o, k, log, hget, rfl⟩ := (tenantRegistry env).next_step hn
    exact coherent_handle hc hrow (hmv o (Conf.waiting_of_get hget))

theorem settled_coherent {moves : List TenantMove} {d : TenantConf}
    (hcareful : (tenantRegistry env).Always CarefulStep ⟨s, []⟩ moves)
    (hd : Settled env s keyHash moves d) : d.world.Coherent keyHash := by
  obtain ⟨pre, mv, mid, c, c', rfl, hpre, hn, hreturns, hmid, hsame⟩ := hd
  have hat : CarefulStep c mv := hcareful pre mv mid rfl c hpre
  have hc' : c'.world.Coherent keyHash := by
    cases mv with
    | spawn | env => exact hreturns.elim
    | step i ch =>
      obtain ⟨r, o, k, log, hget, rfl⟩ := (tenantRegistry env).next_step hn
      obtain ⟨r', result, log', hkey, hret⟩ := hreturns
      rw [List.getElem?_set_self (List.getElem?_eq_some_iff.mp hget).1] at hret
      obtain ⟨rfl, hdone, -⟩ : r = r' ∧ _ ∧ _ := by simpa using hret
      have hends := Machine.run_endsBy (program_endsBy env) hpre _ (List.mem_of_getElem? hget)
      exact coherent_return (hat o (Conf.waiting_of_get hget))
        ((hends _).1 _ hdone keyHash result hkey rfl)
  have hsplit : (tenantRegistry env).Always CarefulStep ⟨s, []⟩ ((pre ++ [mv]) ++ mid) := by
    simpa using hcareful
  have hreach : (tenantRegistry env).run ⟨s, []⟩ (pre ++ [mv]) = some c' := by
    rw [Machine.run_snoc, hpre]
    exact hn
  have hrest : (tenantRegistry env).Always CarefulStep c' mid := hsplit.after hreach
  have hv : (tenantRegistry env).Visits
      (fun x => x.world.Coherent keyHash ∧ SameRow keyHash c' x) c' mid := by
    refine Machine.run_inv _ (fun x mv => CarefulStep x mv ∧
      ∀ y, (tenantRegistry env).next x mv = some y → SameRow keyHash c' y) ?_ ⟨hc', rfl⟩ ?_
    · intro x mv y hx hg hn
      have hrow : SameRow keyHash x y := (hg.2 y hn).trans hx.2.symm
      exact ⟨coherent_next hx.1 hrow hg.1 hn, hg.2 y hn⟩
    · intro pre' mv' post' he x hx
      refine ⟨hrest pre' mv' post' he x hx, fun y hy => ?_⟩
      refine hsame (pre' ++ [mv']) post' (by simpa using he) y ?_
      rw [Machine.run_snoc, hx]
      exact hy
  exact (hv mid [] (by simp) d hmid).1

theorem lookup_said {before : List TenantMove} {d : TenantConf}
    (hd : (tenantRegistry env).run ⟨s, []⟩ before = some d) (hc : d.world.Coherent keyHash)
    {moves : List TenantMove} {v : Option Tenant} (hv : Lookup env keyHash d moves v) :
    SaidWithin env keyHash d moves v := by
  obtain ⟨i, ch, rest, apiKey, p, log, e, rfl, rfl, hi, he, hret⟩ := hv
  obtain rfl : p = (TenantRequest.resolveTenant apiKey).program env :=
    Machine.run_fresh hd _ (List.mem_of_getElem? hi) rfl
  obtain ⟨k, hprog, hk⟩ := resolveTenant_keeps env apiKey
    (V := SaidWithin env (env.hashApiKey apiKey) d (.step i ch :: rest)) hc
    ⟨[], _, d, rfl, rfl, rfl⟩
  rw [hprog] at hi
  obtain ⟨d', hd', he'⟩ := Option.bind_eq_some_iff.mp he
  obtain ⟨r, o, k', log', hget, rfl⟩ := (tenantRegistry env).next_step hd'
  rw [hi] at hget
  cases hget
  obtain ⟨p', log'', hi', hkeeps⟩ := Machine.run_call
    (I := fun s => SaidWithin env (env.hashApiKey apiKey) d (.step i ch :: rest)
      (s.rowView (env.hashApiKey apiKey)))
    (List.getElem?_set_self (List.getElem?_eq_some_iff.mp hi).1) hk
    (fun m m' hm f hf => ⟨.step i ch :: m, m', f, by simp [hm],
      Option.bind_eq_some_iff.mpr ⟨_, hd', hf⟩, rfl⟩) he'
  rw [hret] at hi'
  cases hi'
  exact hkeeps v rfl

/-- In any run of one process, whatever table and cache it starts from: if each lookup that
writes the cache still finds the row as it read it, and each `DELETE` and each `UPDATE`
without a row finds nothing usable in the cache, then every lookup after a mutation is told
what the row says. -/
theorem lookups_current {moves : List TenantMove}
    (hcareful : (tenantRegistry env).Always CarefulStep ⟨s, []⟩ moves) :
    LookupsCurrent env s moves := by
  intro keyHash before call after d v he hd hv
  subst he
  have hbefore : (tenantRegistry env).Always CarefulStep ⟨s, []⟩ before := by
    intro pre mv post he
    exact hcareful pre mv (post ++ (call ++ after)) (by simp [he])
  have hc := settled_coherent hbefore hd
  obtain ⟨pre, mv, mid, c, c', rfl, hpre, hn, -, hmid, -⟩ := hd
  have hrun : (tenantRegistry env).run ⟨s, []⟩ (pre ++ mv :: mid) = some d := by
    rw [Machine.run_append, hpre]
    exact Option.bind_eq_some_iff.mpr ⟨c, rfl, Option.bind_eq_some_iff.mpr ⟨c', hn, hmid⟩⟩
  exact lookup_said hrun hc hv

end

namespace Sample

def tenantEnv : TenantEnv where
  sha256 apiKey := apiKey
  API_KEY_CACHE_TTL_SECONDS := 60

def acme : TenantRow where
  key_hash := "key"
  tenant_id := "acme"
  name := none
  disabled := false
  rate_limit := none
  allowed_origins := none
  allowed_functions := none
  created_at := 0

def oneTenant : TenantStore where
  tenants := { rows := [acme], nodup := by decide }

def go (i : Nat) : TenantMove := .step i {}

def revoked : List TenantMove :=
  [.spawn (.revokeByHash "key"), go 0, go 0, .spawn (.resolveTenant "key"), go 1, go 1, go 1]

/-- A lookup has read the row and not yet cached it when the key is revoked. -/
def overtaken : List TenantMove :=
  [.spawn (.resolveTenant "key"), go 0, go 0, .spawn (.revokeByHash "key"), go 1]

def recached : List TenantMove :=
  overtaken ++ go 1 :: [go 0, .spawn (.resolveTenant "key")]

end Sample

theorem lookups_current_revoked : LookupsCurrent Sample.tenantEnv Sample.oneTenant Sample.revoked :=
  lookups_current (by decide)

/-- The revoked key is back in the cache, and its next lookup is answered with the tenant. -/
theorem recached_serves_revoked :
    ¬ LookupsCurrent Sample.tenantEnv Sample.oneTenant (Sample.recached ++ [Sample.go 2]) := by
  intro h
  obtain ⟨m, m', f, hm, hf, hsaid⟩ := h "key" Sample.recached [Sample.go 2] [] _
    (some (rowToTenant Sample.acme)) rfl
    ⟨Sample.overtaken, Sample.go 1, _, _, _, rfl, rfl, rfl, ⟨_, _, _, rfl, rfl⟩, rfl, by decide⟩
    ⟨2, {}, [], "key", _, _, _, rfl, rfl, rfl, rfl, rfl⟩
  obtain ⟨rfl, -⟩ | ⟨rfl, -⟩ : (m = [] ∧ m' = [Sample.go 2]) ∨ (m = [Sample.go 2] ∧ m' = []) := by
    cases m with
    | nil => exact .inl ⟨rfl, hm.symm⟩
    | cons mv m =>
      obtain ⟨rfl, hnil⟩ := List.cons.inj hm
      obtain ⟨rfl, rfl⟩ := List.append_eq_nil_iff.mp hnil.symm
      exact .inr ⟨rfl, rfl⟩
  · cases hf
    exact absurd hsaid (by decide)
  · cases hf
    exact absurd hsaid (by decide)

end OcrService
