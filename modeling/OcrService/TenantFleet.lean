import OcrService.Interaction.History
import OcrService.TenantCache

/-! How old an answer of `resolveTenant` can be when several processes share the table, each
with a cache of its own that the others never invalidate. -/
namespace OcrService
open Interaction

structure FleetOp where
  process : Nat
  op : TenantOp

abbrev FleetOp.Answer (o : FleetOp) : Type := o.op.Answer

/-- The caches by process; `clock` is in milliseconds and the same for all of them. -/
structure FleetStore where
  caches : Nat → String → Option CacheEntry := fun _ _ => none
  clock : Nat := 0
  tenants : Table TenantRow.key_hash

def FleetStore.seenBy (s : FleetStore) (process : Nat) : TenantStore where
  cache := s.caches process
  clock := s.clock
  tenants := s.tenants

def FleetStore.handle (ch : TenantChoice) (o : FleetOp) (s : FleetStore) :
    o.Answer × FleetStore :=
  let r := TenantStore.handle ch o.op (s.seenBy o.process)
  (r.1, { s with caches := Function.update s.caches o.process r.2.cache, tenants := r.2.tenants })

inductive FleetEvent where
  | elapse (ms : Nat)
  | restart (process : Nat)

def FleetStore.happen : FleetEvent → FleetStore → FleetStore
  | .elapse ms, s => { s with clock := s.clock + ms }
  | .restart process, s => { s with caches := Function.update s.caches process fun _ => none }

structure FleetRequest where
  process : Nat
  request : TenantRequest

abbrev FleetProg := Prog FleetOp FleetOp.Answer

def FleetRequest.program (env : TenantEnv) (r : FleetRequest) :
    FleetProg (Except String TenantResult) :=
  (r.request.program env).lift (fun op => ⟨r.process, op⟩) fun _ x => x

def tenantFleet (env : TenantEnv) :
    Machine FleetRequest FleetOp FleetOp.Answer (Except String TenantResult) TenantChoice
      FleetEvent FleetStore where
  start := FleetRequest.program env
  handle := FleetStore.handle
  env := FleetStore.happen

abbrev FleetConf :=
  Conf FleetRequest FleetOp FleetOp.Answer (Except String TenantResult) FleetStore

abbrev FleetMove := Move FleetRequest TenantChoice FleetEvent

section Lookup
variable (env : TenantEnv) (process : Nat) (keyHash : String)

def afterRead : Except String (Option TenantRow) → FleetProg (Except String TenantResult)
  | .error message => .ret (.error message)
  | .ok none => .ask ⟨process, .cacheDelete keyHash⟩ fun _ => .ret (.ok (.resolved none))
  | .ok (some row) =>
    .ask ⟨process, .cacheSet keyHash (rowToTenant row) env.cacheTtlMs⟩ fun _ =>
      .ret (.ok (.resolved (unlessDisabled (rowToTenant row))))

def afterCache (found : Option CacheEntry × Nat) : FleetProg (Except String TenantResult) :=
  match liveHit found.1 found.2 with
  | some hit => .ret (.ok (.resolved (unlessDisabled hit.tenant)))
  | none => .ask ⟨process, .select keyHash⟩ (afterRead env process keyHash)

inductive LookupStage : FleetProg (Except String TenantResult) → List FleetOp → Prop
  | start : LookupStage (.ask ⟨process, .cacheGet keyHash⟩ (afterCache env process keyHash)) []
  | looked (found : Option CacheEntry × Nat) :
      LookupStage (afterCache env process keyHash found) [⟨process, .cacheGet keyHash⟩]
  | read (answer : Except String (Option TenantRow)) :
      LookupStage (afterRead env process keyHash answer)
        [⟨process, .cacheGet keyHash⟩, ⟨process, .select keyHash⟩]
  | stored (row : TenantRow) :
      LookupStage (.ret (.ok (.resolved (unlessDisabled (rowToTenant row)))))
        [⟨process, .cacheGet keyHash⟩, ⟨process, .select keyHash⟩,
          ⟨process, .cacheSet keyHash (rowToTenant row) env.cacheTtlMs⟩]
  | dropped : LookupStage (.ret (.ok (.resolved none)))
        [⟨process, .cacheGet keyHash⟩, ⟨process, .select keyHash⟩, ⟨process, .cacheDelete keyHash⟩]

theorem resolveTenant_program (apiKey : String) :
    FleetRequest.program env ⟨process, .resolveTenant apiKey⟩ =
      .ask ⟨process, .cacheGet (env.hashApiKey apiKey)⟩
        (afterCache env process (env.hashApiKey apiKey)) := by
  refine congrArg (Prog.ask _) (funext fun found => ?_)
  dsimp only
  unfold afterCache
  cases liveHit found.1 found.2 with
  | some hit => rfl
  | none =>
    refine congrArg (Prog.ask _) (funext fun answer => ?_)
    cases answer with
    | error message => rfl
    | ok row =>
      cases row with
      | none => rfl
      | some row => rfl

theorem fleet_uses (r : FleetRequest) :
    (r.program env).Uses fun o => ∀ k tenant ttl, o.op = .cacheSet k tenant ttl →
      ∃ apiKey, r.request = .resolveTenant apiKey := by
  obtain ⟨process, request⟩ := r
  refine Prog.Uses.lift ?_
  cases request with
  | resolveTenant apiKey => exact (Prog.Uses.trivial _).mono fun _ _ _ _ _ _ => ⟨apiKey, rfl⟩
  | putTenant apiKey tenant =>
    refine ⟨fun k tenant ttl h => (nomatch h), fun answer => ?_⟩
    cases answer with
    | error message => exact True.intro
    | ok _ => exact ⟨fun k tenant ttl h => (nomatch h), fun _ => True.intro⟩
  | updateTenantByHash keyHash patch =>
    refine ⟨fun k tenant ttl h => (nomatch h), fun answer => ?_⟩
    obtain message | row := answer
    · exact True.intro
    · cases row with
      | none => exact True.intro
      | some row => exact ⟨fun k tenant ttl h => (nomatch h), fun _ => True.intro⟩
  | revokeApiKey apiKey | revokeByHash keyHash =>
    exact ⟨fun k tenant ttl h => (nomatch h), fun _ =>
      ⟨fun k tenant ttl h => (nomatch h), fun _ => True.intro⟩⟩

theorem LookupStage.step {o : FleetOp} {k : o.Answer → FleetProg (Except String TenantResult)}
    {log : List FleetOp} (h : LookupStage env process keyHash (.ask o k) log) (x : o.Answer) :
    LookupStage env process keyHash (k x) (log ++ [o]) := by
  generalize hp : Prog.ask o k = p at h
  cases h with
  | start =>
    cases hp
    exact .looked x
  | looked found =>
    unfold afterCache at hp
    cases hlive : liveHit found.1 found.2 with
    | some hit =>
      rw [hlive] at hp
      cases hp
    | none =>
      rw [hlive] at hp
      cases hp
      exact .read x
  | read answer =>
    obtain message | row := answer
    · cases hp
    · cases row with
      | none =>
        cases hp
        exact .dropped
      | some row =>
        cases hp
        exact .stored row
  | stored row => cases hp
  | dropped => cases hp

variable {env process keyHash}

theorem afterRead_eq_set {process' : Nat} {k : String} {tenant : Tenant} {ttl : Nat}
    {answer : Except String (Option TenantRow)}
    {cont : Unit → FleetProg (Except String TenantResult)}
    (h : afterRead env process keyHash answer = .ask ⟨process', .cacheSet k tenant ttl⟩ cont) :
    process = process' ∧ keyHash = k ∧ ttl = env.cacheTtlMs ∧
      ∃ row, answer = .ok (some row) ∧ tenant = rowToTenant row := by
  obtain message | row := answer
  · cases h
  · cases row with
    | none => cases h
    | some row =>
      cases h
      exact ⟨rfl, rfl, rfl, row, rfl, rfl⟩

theorem afterCache_eq_ask {found : Option CacheEntry × Nat} {o : FleetOp}
    {cont : o.Answer → FleetProg (Except String TenantResult)}
    (h : afterCache env process keyHash found = .ask o cont) :
    afterCache env process keyHash found =
      .ask ⟨process, .select keyHash⟩ (afterRead env process keyHash) := by
  unfold afterCache at h ⊢
  cases hlive : liveHit found.1 found.2 with
  | some hit =>
    rw [hlive] at h
    cases h
  | none => rfl

theorem LookupStage.of_looked {p : FleetProg (Except String TenantResult)}
    (h : LookupStage env process keyHash p [⟨process, .cacheGet keyHash⟩]) :
    ∃ found, p = afterCache env process keyHash found := by
  cases h with
  | looked found => exact ⟨found, rfl⟩

/-- A thread about to store an entry has read and been answered. -/
theorem LookupStage.of_set {process' : Nat} {k : String} {tenant : Tenant} {ttl : Nat}
    {cont : Unit → FleetProg (Except String TenantResult)} {log : List FleetOp}
    (h : LookupStage env process keyHash (.ask ⟨process', .cacheSet k tenant ttl⟩ cont) log) :
    process = process' ∧ keyHash = k ∧ ttl = env.cacheTtlMs ∧
      log = [⟨process, .cacheGet keyHash⟩, ⟨process, .select keyHash⟩] := by
  generalize hp : (Prog.ask ⟨process', .cacheSet k tenant ttl⟩ cont :
    FleetProg (Except String TenantResult)) = p at h
  cases h with
  | start => cases hp
  | looked found => cases (afterCache_eq_ask hp.symm).symm.trans hp.symm
  | read answer =>
    obtain ⟨hprocess, hkey, httl, -⟩ := afterRead_eq_set hp.symm
    exact ⟨hprocess, hkey, httl, rfl⟩
  | stored row => cases hp
  | dropped => cases hp

end Lookup

section Origin
variable {env : TenantEnv} {s₀ : FleetStore} {moves : List FleetMove}

theorem run_lookupStage {c : FleetConf} (hc : (tenantFleet env).run ⟨s₀, []⟩ moves = some c) :
    ∀ t ∈ c.threads, ∀ apiKey, t.req.request = .resolveTenant apiKey →
      LookupStage env t.req.process (env.hashApiKey apiKey) t.prog t.log := by
  refine Machine.run_progs (P := fun r p log => ∀ apiKey, r.request = .resolveTenant apiKey →
    LookupStage env r.process (env.hashApiKey apiKey) p log) ?_ ?_ hc
  · intro r apiKey hr
    obtain ⟨process, request⟩ := r
    obtain rfl : request = .resolveTenant apiKey := hr
    change LookupStage env process _ (FleetRequest.program env ⟨process, .resolveTenant apiKey⟩) []
    rw [resolveTenant_program]
    exact .start
  · intro r o k log ch s h apiKey hr
    exact (h apiKey hr).step env r.process (env.hashApiKey apiKey) _

theorem select_answer {ch : TenantChoice} {process : Nat} {keyHash : String} {s : FleetStore}
    {row : TenantRow}
    (h : (FleetStore.handle ch ⟨process, .select keyHash⟩ s).1 = .ok (some row)) :
    ch.fate = .done ∧ s.tenants.find keyHash = some row := by
  have hsettle : (ch.fate.settle (α := Except String (Option TenantRow)) .error
      (s.seenBy process) (.ok (s.tenants.find keyHash), s.seenBy process)).1 = .ok (some row) := h
  cases hfate : ch.fate with
  | done =>
    rw [hfate] at hsettle
    exact ⟨rfl, Except.ok.inj hsettle⟩
  | failed message | unanswered message =>
    rw [hfate] at hsettle
    cases hsettle

variable (env s₀ moves) in
def ReadAt (k j : Nat) (r : FleetRequest) (keyHash : String) (row : TenantRow)
    (s : FleetStore) : Prop :=
  ∃ ch cont c, (tenantFleet env).StepsAt ⟨s₀, []⟩ moves k j ch r [⟨r.process, .cacheGet keyHash⟩]
    ⟨r.process, .select keyHash⟩ cont c ∧ ch.fate = .done ∧ c.world = s ∧
    s.tenants.find keyHash = some row

variable (env s₀ moves) in
def StoreAt (k j : Nat) (r : FleetRequest) (keyHash : String) (row : TenantRow)
    (s : FleetStore) : Prop :=
  (tenantFleet env).Performs ⟨s₀, []⟩ moves k j r
    [⟨r.process, .cacheGet keyHash⟩, ⟨r.process, .select keyHash⟩]
    ⟨r.process, .cacheSet keyHash (rowToTenant row) env.cacheTtlMs⟩ s

theorem read_of_store {k j : Nat} {ch : TenantChoice} {r : FleetRequest} {log : List FleetOp}
    {process : Nat} {keyHash : String} {tenant : Tenant} {ttl : Nat}
    {cont : Unit → FleetProg (Except String TenantResult)} {c : FleetConf}
    (h : (tenantFleet env).StepsAt ⟨s₀, []⟩ moves k j ch r log
      ⟨process, .cacheSet keyHash tenant ttl⟩ cont c) :
    r.process = process ∧ ttl = env.cacheTtlMs ∧ ∃ kRead row sRead, kRead < k ∧
      tenant = rowToTenant row ∧ ReadAt env s₀ moves kRead j r keyHash row sRead ∧
      StoreAt env s₀ moves k j r keyHash row c.world := by
  have hmem := List.mem_of_getElem? h.thread
  obtain ⟨apiKey, hr⟩ : ∃ apiKey, r.request = .resolveTenant apiKey :=
    (Machine.run_uses (fleet_uses env) h.reached _ hmem).1 keyHash tenant ttl rfl
  have hstage : LookupStage env r.process (env.hashApiKey apiKey)
      (.ask ⟨process, .cacheSet keyHash tenant ttl⟩ cont) log :=
    run_lookupStage h.reached _ hmem apiKey hr
  clear hmem
  obtain ⟨rfl, rfl, rfl, rfl⟩ := hstage.of_set
  obtain ⟨kRead, chRead, contRead, cRead, hread, hcont⟩ :=
    Machine.last_step [⟨r.process, .cacheGet (env.hashApiKey apiKey)⟩] h.reached h.thread
  obtain ⟨found, hfound⟩ : ∃ found,
      (Prog.ask ⟨r.process, .select (env.hashApiKey apiKey)⟩ contRead :
        FleetProg (Except String TenantResult)) =
        afterCache env r.process (env.hashApiKey apiKey) found :=
    (run_lookupStage hread.reached _ (List.mem_of_getElem? hread.thread) apiKey hr).of_looked
  cases hfound.trans (afterCache_eq_ask hfound.symm)
  obtain ⟨-, -, -, row, hanswer, rfl⟩ := afterRead_eq_set hcont.symm
  obtain ⟨hdone, hrow⟩ := select_answer hanswer
  obtain ⟨hlt, hread⟩ := hread.of_take
  exact ⟨rfl, rfl, kRead, row, cRead.world, hlt, rfl,
    ⟨chRead, _, cRead, hread, hdone, rfl, hrow⟩, h.performs⟩

variable (env s₀ moves) in
def StoredBefore (k process : Nat) (keyHash : String) (entry : CacheEntry) : Prop :=
  ∃ kRead kWrite j r row sRead sWrite, kRead < kWrite ∧ kWrite < k ∧ r.process = process ∧
    ReadAt env s₀ moves kRead j r keyHash row sRead ∧
    StoreAt env s₀ moves kWrite j r keyHash row sWrite ∧
    entry = ⟨rowToTenant row, sWrite.clock + env.cacheTtlMs⟩

theorem handle_entry {ch : TenantChoice} {o : FleetOp} {s : FleetStore} {process : Nat}
    {keyHash : String} {entry : CacheEntry}
    (h : ((FleetStore.handle ch o s).2.caches process keyHash) = some entry) :
    s.caches process keyHash = some entry ∨
      ∃ tenant ttl, o = ⟨process, .cacheSet keyHash tenant ttl⟩ ∧
        entry = ⟨tenant, s.clock + ttl⟩ := by
  obtain ⟨process', op⟩ := o
  simp only [FleetStore.handle] at h
  by_cases hp : process = process'
  · subst hp
    rw [Function.update_self] at h
    cases op with
    | cacheGet k => exact Or.inl h
    | select k =>
      rw [select_state] at h
      exact Or.inl h
    | cacheSet k tenant ttl =>
      simp only [TenantStore.handle] at h
      by_cases hk : keyHash = k
      · subst hk
        rw [Function.update_self] at h
        exact Or.inr ⟨tenant, ttl, rfl, (Option.some.inj h).symm⟩
      · rw [Function.update_of_ne hk] at h
        exact Or.inl h
    | cacheDelete k =>
      simp only [TenantStore.handle] at h
      by_cases hk : keyHash = k
      · subst hk
        rw [Function.update_self] at h
        cases h
      · rw [Function.update_of_ne hk] at h
        exact Or.inl h
    | upsert k tenant | update k patch | delete k =>
      simp only [TenantStore.handle, cache_settle] at h
      exact Or.inl h
  · rw [Function.update_of_ne hp] at h
    exact Or.inl h

/-- Every entry was stored by a thread of its process, from a row that thread had read. -/
theorem storedBefore_of_entry {k process : Nat} {keyHash : String} {entry : CacheEntry}
    {c : FleetConf} (hempty : s₀.caches process keyHash = none)
    (hc : (tenantFleet env).run ⟨s₀, []⟩ (moves.take k) = some c)
    (h : c.world.caches process keyHash = some entry) :
    StoredBefore env s₀ moves k process keyHash entry := by
  obtain ⟨kWrite, c₁, mv, c₂, hlt, hreached, hmove, hnext, hchange, hvalue, -⟩ :=
    Machine.last_change (fun s : FleetStore => s.caches process keyHash) hc (by simp [h, hempty])
  simp only [h] at hvalue
  cases mv with
  | spawn r =>
    cases hnext
    exact absurd rfl hchange
  | env e =>
    cases hnext
    cases e with
    | elapse ms => exact absurd rfl hchange
    | restart process' =>
      by_cases hp : process = process'
      · subst hp
        simp [tenantFleet, FleetStore.happen] at hvalue
      · exact absurd (congrFun (Function.update_of_ne hp _ _) keyHash) hchange
  | step j ch =>
    obtain ⟨r, o, cont, log, hthread, rfl⟩ := (tenantFleet env).next_step hnext
    obtain hsame | ⟨tenant, ttl, rfl, rfl⟩ := handle_entry hvalue
    · exact absurd (hvalue.trans hsame.symm) hchange
    · obtain ⟨hprocess, rfl, kRead, row, sRead, hread, rfl, hreadAt, hstoreAt⟩ :=
        read_of_store ⟨hmove, hreached, hthread⟩
      exact ⟨kRead, kWrite, j, r, row, sRead, c₁.world, hread, hlt, hprocess, hreadAt, hstoreAt,
        rfl⟩

theorem unlessDisabled_eq_some {row : TenantRow} {tenant : Tenant}
    (h : unlessDisabled (rowToTenant row) = some tenant) :
    row.disabled = false ∧ tenant = rowToTenant row := by
  cases hd : row.disabled with
  | true => simp [unlessDisabled, rowToTenant, hd] at h
  | false =>
    simp only [unlessDisabled, rowToTenant, hd] at h
    simpa [rowToTenant, hd] using h.symm

variable (env s₀ moves) in
/-- Thread `i` started to look the key up at move `kGet`, on the clock of `sGet`, and was told
`tenant`: a read of an enabled row said so, in the middle of the call or before it. In the
second case the call started within the time to live of the entry, counted from the read, and
the time it took from the read to the entry. -/
def FreshAnswer (i : Nat) (request : FleetRequest) (keyHash : String) (tenant : Tenant)
    (kGet : Nat) (sGet : FleetStore) : Prop :=
  ∃ kRead j r row sRead, ReadAt env s₀ moves kRead j r keyHash row sRead ∧
    row.disabled = false ∧ tenant = rowToTenant row ∧
    ((j = i ∧ r = request ∧ kGet < kRead) ∨
      ∃ kWrite sWrite, kRead < kWrite ∧ kWrite < kGet ∧ r.process = request.process ∧
        StoreAt env s₀ moves kWrite j r keyHash row sWrite ∧
        sGet.clock < sRead.clock + env.cacheTtlMs + (sWrite.clock - sRead.clock))

theorem lookup_start {k i : Nat} {ch : TenantChoice} {process : Nat} {apiKey : String}
    {o : FleetOp} {cont : o.Answer → FleetProg (Except String TenantResult)} {c : FleetConf}
    (h : (tenantFleet env).StepsAt ⟨s₀, []⟩ moves k i ch ⟨process, .resolveTenant apiKey⟩ [] o
      cont c) :
    (Prog.ask o cont : FleetProg (Except String TenantResult)) =
      .ask ⟨process, .cacheGet (env.hashApiKey apiKey)⟩
        (afterCache env process (env.hashApiKey apiKey)) :=
  (Machine.run_fresh h.reached _ (List.mem_of_getElem? h.thread) rfl).trans
    (resolveTenant_program env process apiKey)

theorem freshAnswer_of_resolved {d : FleetConf} {i process : Nat} {apiKey : String}
    {tenant : Tenant} {log : List FleetOp} (hempty : ∀ p k, s₀.caches p k = none)
    (hd : (tenantFleet env).run ⟨s₀, []⟩ moves = some d)
    (hi : d.threads[i]? = some ⟨⟨process, .resolveTenant apiKey⟩,
      .ret (.ok (.resolved (some tenant))), log⟩) :
    ∃ kGet sGet, (tenantFleet env).Performs ⟨s₀, []⟩ moves kGet i
        ⟨process, .resolveTenant apiKey⟩ [] ⟨process, .cacheGet (env.hashApiKey apiKey)⟩ sGet ∧
      FreshAnswer env s₀ moves i ⟨process, .resolveTenant apiKey⟩ (env.hashApiKey apiKey) tenant
        kGet sGet := by
  have hstage : LookupStage env process (env.hashApiKey apiKey)
      (.ret (.ok (.resolved (some tenant)))) log :=
    run_lookupStage hd _ (List.mem_of_getElem? hi) apiKey rfl
  generalize hp : (Prog.ret (.ok (.resolved (some tenant))) :
    FleetProg (Except String TenantResult)) = p at hstage
  cases hstage with
  | start => cases hp
  | looked found =>
    obtain ⟨kGet, ch, cont, c, hget, hcont⟩ := Machine.last_step [] hd hi
    cases lookup_start hget
    refine ⟨kGet, c.world, hget.performs, ?_⟩
    change _ = afterCache env process (env.hashApiKey apiKey)
      (c.world.caches process (env.hashApiKey apiKey), c.world.clock) at hcont
    unfold afterCache at hcont
    cases hlive : liveHit (c.world.caches process (env.hashApiKey apiKey)) c.world.clock with
    | none =>
      rw [hlive] at hcont
      cases hcont
    | some hit =>
      rw [hlive] at hcont
      have htenant : some tenant = unlessDisabled hit.tenant :=
        TenantResult.resolved.inj (Except.ok.inj (Prog.ret.inj hcont))
      obtain ⟨hentry, hclock⟩ := Option.filter_eq_some_iff.mp hlive
      obtain ⟨kRead, kWrite, j, r, row, sRead, sWrite, hlt, hlt', hprocess, hread, hstore, rfl⟩ :=
        storedBefore_of_entry (hempty _ _) hget.reached hentry
      obtain ⟨hdisabled, htenant⟩ := unlessDisabled_eq_some htenant.symm
      refine ⟨kRead, j, r, row, sRead, hread, hdisabled, htenant, Or.inr ⟨kWrite, sWrite, hlt, hlt',
        hprocess, hstore, ?_⟩⟩
      have hexpires : c.world.clock < sWrite.clock + env.cacheTtlMs := by simpa using hclock
      omega
  | read answer =>
    obtain message | row := answer
    · cases hp
    · cases row with
      | none => cases hp
      | some row => cases hp
  | stored row =>
    obtain ⟨hdisabled, rfl⟩ := unlessDisabled_eq_some
      (TenantResult.resolved.inj (Except.ok.inj (Prog.ret.inj hp))).symm
    obtain ⟨kWrite, ch, cont, c, hset, -⟩ := Machine.last_step
      [⟨process, .cacheGet (env.hashApiKey apiKey)⟩, ⟨process, .select (env.hashApiKey apiKey)⟩]
      hd hi
    obtain ⟨-, -, kRead, row', sRead, -, hrow, hread, -⟩ := read_of_store hset
    obtain ⟨chRead, contRead, cRead, hstep, hdone, hworld, hfind⟩ := hread
    obtain ⟨kGet, chGet, contGet, cGet, hget, -⟩ :=
      Machine.last_step [] hstep.reached hstep.thread
    obtain ⟨hlt, hget⟩ := hget.of_take
    have hdisabled' : row'.disabled = row.disabled :=
      Option.some.inj (congrArg Tenant.disabled hrow).symm
    exact ⟨kGet, cGet.world, hget.performs, kRead, i, _, row', sRead,
      ⟨chRead, contRead, cRead, hstep, hdone, hworld, hfind⟩, hdisabled'.trans hdisabled, hrow,
      Or.inl ⟨rfl, rfl, hlt⟩⟩
  | dropped => cases hp

theorem clock_mono {k n : Nat} {cₖ cₙ : FleetConf} (hkn : k ≤ n)
    (hk : (tenantFleet env).run ⟨s₀, []⟩ (moves.take k) = some cₖ)
    (hn : (tenantFleet env).run ⟨s₀, []⟩ (moves.take n) = some cₙ) :
    cₖ.world.clock ≤ cₙ.world.clock := by
  refine Machine.run_last (fun c => cₖ.world.clock ≤ c.world.clock) ?_ (Nat.le_refl _)
    (Machine.run_take_le hkn hk hn)
  intro c mv c' hc hnext
  cases mv with
  | spawn r =>
    cases hnext
    exact hc
  | env e =>
    cases hnext
    cases e with
    | elapse ms => exact Nat.le_trans hc (Nat.le_add_right _ _)
    | restart process => exact hc
  | step i ch =>
    obtain ⟨r, o, cont, log, -, rfl⟩ := (tenantFleet env).next_step hnext
    exact hc

variable (env s₀ moves) in
/-- From move `k` on no read of the key finds an enabled row: the key is revoked or disabled,
or the database does not answer. -/
def LockedFrom (keyHash : String) (k : Nat) : Prop :=
  ∀ kRead j r row s, k ≤ kRead → ReadAt env s₀ moves kRead j r keyHash row s → row.disabled = true

variable (env s₀ moves) in
def StoredWithin (keyHash : String) (d : Nat) : Prop :=
  ∀ kRead kWrite j r row sRead sWrite, kRead < kWrite →
    ReadAt env s₀ moves kRead j r keyHash row sRead →
    StoreAt env s₀ moves kWrite j r keyHash row sWrite → sWrite.clock ≤ sRead.clock + d

/-- What a lookup tells is a row of a moment inside the call, or of one not longer ago than
the time to live and the time from its read to its entry. So no lookup that starts later than
that after a lockout is told anything. -/
theorem resolveTenant_fresh (env : TenantEnv) (s₀ : FleetStore)
    (hempty : ∀ process keyHash, s₀.caches process keyHash = none) (moves : List FleetMove)
    (d : FleetConf) (hd : (tenantFleet env).run ⟨s₀, []⟩ moves = some d) (i process : Nat)
    (apiKey : String) (tenant : Tenant) (log : List FleetOp)
    (hi : d.threads[i]? = some ⟨⟨process, .resolveTenant apiKey⟩,
      .ret (.ok (.resolved (some tenant))), log⟩) :
    ∃ kGet sGet, (tenantFleet env).Performs ⟨s₀, []⟩ moves kGet i
        ⟨process, .resolveTenant apiKey⟩ [] ⟨process, .cacheGet (env.hashApiKey apiKey)⟩ sGet ∧
      FreshAnswer env s₀ moves i ⟨process, .resolveTenant apiKey⟩ (env.hashApiKey apiKey) tenant
        kGet sGet ∧
      ∀ kLock cLock delay, (tenantFleet env).run ⟨s₀, []⟩ (moves.take kLock) = some cLock →
        LockedFrom env s₀ moves (env.hashApiKey apiKey) kLock →
        StoredWithin env s₀ moves (env.hashApiKey apiKey) delay →
        sGet.clock ≤ cLock.world.clock + env.cacheTtlMs + delay := by
  obtain ⟨kGet, sGet, hget, hfresh⟩ := freshAnswer_of_resolved hempty hd hi
  refine ⟨kGet, sGet, hget, hfresh, fun kLock cLock delay hlock hlocked hwithin => ?_⟩
  obtain ⟨kRead, j, r, row, sRead, hread, hdisabled, -, hcase⟩ := hfresh
  have hbefore : kRead < kLock := by
    by_contra hlate
    have hgone := hlocked kRead j r row sRead (Nat.le_of_not_lt hlate) hread
    rw [hdisabled] at hgone
    cases hgone
  obtain ⟨chGet, contGet, cGet, hget, rfl⟩ := hget
  obtain ⟨chRead, contRead, cRead, hstep, hdone, rfl, hfind⟩ := id hread
  cases hcase with
  | inl hduring =>
    have hclock := clock_mono (Nat.le_of_lt (Nat.lt_trans hduring.2.2 hbefore)) hget.reached hlock
    omega
  | inr hearlier =>
    obtain ⟨kWrite, sWrite, hlt, -, -, hstore, hstart⟩ := hearlier
    have hclock := clock_mono (Nat.le_of_lt hbefore) hstep.reached hlock
    have hdelay := hwithin kRead kWrite j r row cRead.world sWrite hlt hread hstore
    omega

end Origin

namespace Sample

def fleetStore : FleetStore where
  tenants := oneTenant.tenants

/-- One call reads the row and stores it five milliseconds later; the row is deleted by
another process, and a second call of the first process still finds the entry. -/
def fleetMoves : List FleetMove :=
  [.spawn ⟨0, .resolveTenant "key"⟩, .step 0 {}, .step 0 {}, .env (.elapse 5), .step 0 {},
    .spawn ⟨1, .revokeApiKey "key"⟩, .step 1 {}, .step 1 {}, .env (.elapse 29000),
    .spawn ⟨0, .resolveTenant "key"⟩, .step 2 {}]

theorem resolveTenant_fresh_revoked :
    ∃ kGet sGet, FreshAnswer tenantEnv fleetStore fleetMoves 2 ⟨0, .resolveTenant "key"⟩ "key"
      (rowToTenant acme) kGet sGet := by
  obtain ⟨kGet, sGet, -, hfresh, -⟩ := resolveTenant_fresh tenantEnv fleetStore (fun _ _ => rfl)
    fleetMoves _ rfl 2 0 "key" (rowToTenant acme) _ rfl
  exact ⟨kGet, sGet, hfresh⟩

end Sample

end OcrService
