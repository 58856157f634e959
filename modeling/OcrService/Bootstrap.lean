import OcrService.Admins
import OcrService.Interaction.Answers

/-! The first owner (`ensureBootstrapAdmin` of `auth/admins.ts`): any number of processes boot
over one database, and each may find the registry empty. -/
namespace OcrService
open Interaction

/-- `whenDbReady`, the count of all admins, or a statement of `createAdmin`. -/
inductive BootOp where
  | dbReady
  | countAdmins
  | admin (o : AdminOp)

abbrev BootOp.Answer : BootOp → Type
  | dbReady => Except String Unit
  | countAdmins => Except String Nat
  | admin o => o.Answer

/-- What becomes of an operation; `dbReady` has no effect to lose. -/
def AdminStore.handleBoot (fate : Fate) : (o : BootOp) → AdminStore → o.Answer × AdminStore
  | .dbReady, s => fate.settle .error s (.ok (), s)
  | .countAdmins, s => fate.settle .error s (.ok s.admins.rows.length, s)
  | .admin o, s => s.handle fate o

abbrev BootProg := Prog BootOp BootOp.Answer

structure BootEnv where
  ADMIN_BOOTSTRAP_EMAIL : String
  ADMIN_BOOTSTRAP_PASSWORD : String

/-- `env.ADMIN_BOOTSTRAP_EMAIL.split("@")[0]` for the name. -/
def BootEnv.seed (env : BootEnv) : CreateAdminInput where
  email := env.ADMIN_BOOTSTRAP_EMAIL
  name := String.ofList (env.ADMIN_BOOTSTRAP_EMAIL.toList.takeWhile (· ≠ '@'))
  role := .owner
  password := env.ADMIN_BOOTSTRAP_PASSWORD

def createSeed (env : BootEnv) (draws : Draws) : BootProg (Except String Unit) :=
  (createAdmin draws env.seed).lift .admin (fun _ x => x) >>= fun answer =>
    .ret (answer.map fun _ => ())

def ensureBootstrapAdmin (env : BootEnv) (draws : Draws) : BootProg (Except String Unit) :=
  .ask .dbReady fun
  | .error message => .ret (.error message)
  | .ok () => .ask .countAdmins fun
    | .error message => .ret (.error message)
    | .ok n => if 0 < n then .ret (.ok ()) else createSeed env draws

def boots (env : BootEnv) :
    Machine Draws BootOp BootOp.Answer (Except String Unit) Fate AdminTable AdminStore where
  start := ensureBootstrapAdmin env
  handle := AdminStore.handleBoot
  env admins s := { s with admins }

section Boot
variable {env : BootEnv} {draws : Draws}

def BootEnv.seedRow (env : BootEnv) (draws : Draws) : AdminRow where
  id := draws.randomUUID
  email := normalizeEmail env.seed.email
  name := env.seed.name
  role := .owner
  password_hash := draws.argonHash env.seed.password
  disabled := false
  created_at := draws.now
  updated_at := draws.now

def OfBoot (env : BootEnv) (draws : Draws) : BootOp → Prop
  | .dbReady | .countAdmins | .admin (.selectByEmail _) => True
  | .admin (.insert row) => row = env.seedRow draws
  | _ => False

theorem createSeed_uses : (createSeed env draws).Uses (OfBoot env draws) := by
  refine Prog.Uses.bind (Prog.Uses.lift ⟨trivial, fun answer => ?_⟩) fun _ => trivial
  obtain message | row := answer
  · trivial
  · cases row with
    | some row => trivial
    | none =>
      refine ⟨rfl, fun answer => ?_⟩
      obtain message | _ := answer <;> trivial

theorem ensureBootstrapAdmin_uses :
    (ensureBootstrapAdmin env draws).Uses (OfBoot env draws) := by
  refine ⟨trivial, fun answer => ?_⟩
  obtain message | _ := answer
  · trivial
  · refine ⟨trivial, fun answer => ?_⟩
    obtain message | n := answer
    · trivial
    · by_cases hn : 0 < n
      · simp only [hn, if_true]
        trivial
      · simp only [hn, if_false]
        exact createSeed_uses

def ShowsAdmin : Exchange BootOp BootOp.Answer → Prop
  | ⟨.countAdmins, .ok n⟩ => 0 < n
  | ⟨.admin (.selectByEmail _), .ok (some _)⟩ => True
  | ⟨.admin (.insert _), _⟩ => True
  | _ => False

def ShowsOutage : Exchange BootOp BootOp.Answer → Prop
  | ⟨.dbReady, .error _⟩ | ⟨.countAdmins, .error _⟩ | ⟨.admin (.selectByEmail _), .error _⟩ => True
  | _ => False

/-- What a boot has seen when it is done; when it succeeds, an admin that was there or that it
inserted. -/
theorem createSeed_told {h : List (Exchange BootOp BootOp.Answer)} {result : Except String Unit}
    (hp : (createSeed env draws).After h (.ret result)) :
    (∃ e ∈ h, ShowsAdmin e ∨ ShowsOutage e) ∧
      (result = .ok () → ⟨.admin (.insert (env.seedRow draws)), .ok ()⟩ ∈ h) := by
  obtain ⟨h₁, h₂, created, rfl, hlift, hret⟩ := Prog.after_bind_ret.mp hp
  cases (Prog.after_ret.mp hret).2
  obtain ⟨answer, h₃, rfl, h₃'⟩ := Prog.after_ask_ret.mp hlift
  obtain message | row := answer
  · cases (Prog.after_ret.mp h₃').2
    exact ⟨⟨_, List.mem_cons_self, .inr trivial⟩, nofun⟩
  · cases row with
    | some row =>
      cases (Prog.after_ret.mp h₃').2
      exact ⟨⟨_, List.mem_cons_self, .inl trivial⟩, nofun⟩
    | none =>
      obtain ⟨answer, h₄, rfl, h₄'⟩ := Prog.after_ask_ret.mp h₃'
      refine ⟨⟨⟨.admin (.insert (env.seedRow draws)), answer⟩,
        List.mem_append_left _ (List.mem_cons_of_mem _ List.mem_cons_self), .inl trivial⟩,
        fun hok => ?_⟩
      obtain message | _ := answer
      · cases (Prog.after_ret.mp h₄').2
        cases hok
      · exact List.mem_append_left _ (List.mem_cons_of_mem _ List.mem_cons_self)

theorem ensureBootstrapAdmin_told {h : List (Exchange BootOp BootOp.Answer)}
    {result : Except String Unit} (hp : (ensureBootstrapAdmin env draws).After h (.ret result)) :
    (∃ e ∈ h, ShowsAdmin e ∨ ShowsOutage e) ∧
      (result = .ok () → (∃ n, 0 < n ∧ ⟨.countAdmins, .ok n⟩ ∈ h) ∨
        ⟨.admin (.insert (env.seedRow draws)), .ok ()⟩ ∈ h) := by
  obtain ⟨answer, h₁, rfl, h₁'⟩ := Prog.after_ask_ret.mp hp
  obtain message | _ := answer
  · cases (Prog.after_ret.mp h₁').2
    exact ⟨⟨_, List.mem_cons_self, .inr trivial⟩, nofun⟩
  · obtain ⟨answer, h₂, rfl, h₂'⟩ := Prog.after_ask_ret.mp h₁'
    obtain message | n := answer
    · cases (Prog.after_ret.mp h₂').2
      exact ⟨⟨⟨.countAdmins, .error message⟩, by simp, .inr trivial⟩, nofun⟩
    · by_cases hn : 0 < n
      · exact ⟨⟨⟨.countAdmins, .ok n⟩, by simp, .inl hn⟩, fun _ => .inl ⟨n, hn, by simp⟩⟩
      · simp only [hn, if_false] at h₂'
        obtain ⟨⟨e, he, hshows⟩, hok⟩ := createSeed_told h₂'
        exact ⟨⟨e, by simp [he], hshows⟩, fun hr => .inr (by simp [hok hr])⟩

end Boot

section Table
variable {env : BootEnv} {draws : Draws}

theorem insert_rows {t t' : AdminTable} {row : AdminRow} (h : t.insert row = .ok t') :
    t'.rows = t.rows ++ [row] := by
  unfold AdminTable.insert at h
  split at h
  · split at h
    · cases h
      rfl
    · cases h
  · cases h

theorem insert_error {t : AdminTable} {row : AdminRow} {message : String}
    (h : t.insert row = .error message) : t.rows ≠ [] := by
  intro hempty
  obtain ⟨⟨rows, nodup⟩, emails⟩ := t
  obtain rfl : rows = [] := hempty
  cases h

theorem handleBoot_rows (fate : Fate) {o : BootOp} (s : AdminStore) (ho : OfBoot env draws o) :
    (s.handleBoot fate o).2.admins.rows = s.admins.rows ∨
      (s.handleBoot fate o).2.admins.rows = s.admins.rows ++ [env.seedRow draws] := by
  cases o with
  | dbReady | countAdmins => cases fate <;> exact .inl rfl
  | admin o =>
    cases o with
    | sessionGet | selectById | countOwners | update | delete => exact ho.elim
    | selectByEmail email => cases fate <;> exact .inl rfl
    | insert row =>
      obtain rfl : row = env.seedRow draws := ho
      simp only [AdminStore.handleBoot, AdminStore.handle, Fate.settle_state]
      by_cases hf : fate.applied = true
      · rw [if_pos hf]
        simp only [AdminStore.exec]
        cases hinsert : s.admins.insert (env.seedRow draws) with
        | ok t => exact .inr (insert_rows hinsert)
        | error message => exact .inl rfl
      · rw [if_neg hf]
        exact .inl rfl

theorem insert_told {fate : Fate} {row : AdminRow} {s : AdminStore}
    (h : (s.handleBoot fate (.admin (.insert row))).1 = .ok ()) :
    (s.handleBoot fate (.admin (.insert row))).2.admins.rows ≠ [] := by
  cases fate with
  | failed message | unanswered message => cases h
  | done =>
    simp only [AdminStore.handleBoot, AdminStore.handle, Fate.settle, AdminStore.exec] at h ⊢
    cases hinsert : s.admins.insert row with
    | ok t => simp [insert_rows hinsert]
    | error message =>
      rw [hinsert] at h
      cases h

theorem countAdmins_told {fate : Fate} {n : Nat} {s : AdminStore} (hn : 0 < n)
    (h : (s.handleBoot fate .countAdmins).1 = .ok n) :
    (s.handleBoot fate .countAdmins).2.admins.rows ≠ [] := by
  cases fate with
  | failed message | unanswered message => cases h
  | done =>
    intro hempty
    obtain rfl : s.admins.rows.length = n := Except.ok.inj h
    exact Nat.lt_irrefl _ (hn.trans_eq (congrArg List.length hempty))

theorem ShowsAdmin.rows {o : BootOp} {s : AdminStore}
    (h : ShowsAdmin ⟨o, (s.handleBoot .done o).1⟩) :
    (s.handleBoot .done o).2.admins.rows ≠ [] := by
  cases o with
  | dbReady => exact h.elim
  | countAdmins => exact countAdmins_told h rfl
  | admin o =>
    cases o with
    | sessionGet | selectById | countOwners | update | delete => exact h.elim
    | selectByEmail email =>
      intro hempty
      have hnone : (s.handleBoot .done (.admin (.selectByEmail email))).1 = .ok none := by
        have hrows : s.admins.rows = [] := hempty
        simp [AdminStore.handleBoot, AdminStore.handle, Fate.settle, AdminStore.exec,
          AdminTable.selectByEmail, hrows]
      rw [hnone] at h
      exact h
    | insert row =>
      simp only [AdminStore.handleBoot, AdminStore.handle, Fate.settle, AdminStore.exec]
      cases hinsert : s.admins.insert row with
      | ok t => simp [insert_rows hinsert]
      | error message => exact insert_error hinsert

theorem not_showsOutage {o : BootOp} {s : AdminStore} :
    ¬ ShowsOutage ⟨o, (s.handleBoot .done o).1⟩ := by
  cases o with
  | dbReady | countAdmins => exact id
  | admin o => cases o <;> exact id

end Table

section Run
variable {env : BootEnv} {s : AdminStore} {moves : List (Move Draws Fate AdminTable)}
  {c d : Conf Draws BootOp BootOp.Answer (Except String Unit) AdminStore}

/-- The registry is left to the boots: no row comes or goes but by them. -/
def Undisturbed (moves : List (Move Draws Fate AdminTable)) : Prop :=
  ∀ mv ∈ moves, ∀ t, mv ≠ .env t

theorem boots_uses (hc : (boots env).run ⟨s, []⟩ moves = some c) :
    ∀ t ∈ c.threads, t.prog.Uses (OfBoot env t.req) :=
  Machine.run_uses (fun _ => ensureBootstrapAdmin_uses) hc

theorem boots_next {mv : Move Draws Fate AdminTable}
    (hc : (boots env).run ⟨s, []⟩ moves = some c) (hmv : ∀ t, mv ≠ .env t)
    (hn : (boots env).next c mv = some d) :
    d.world.admins.rows = c.world.admins.rows ∨
      ∃ t ∈ d.threads, d.world.admins.rows = c.world.admins.rows ++ [env.seedRow t.req] := by
  cases mv with
  | spawn r =>
    obtain rfl := Option.some.inj hn
    exact .inl rfl
  | env t => exact absurd rfl (hmv t)
  | step i fate =>
    obtain ⟨r, o, k, log, hi, rfl⟩ := (boots env).next_step hn
    have ho : OfBoot env r o := (boots_uses hc _ (List.mem_of_getElem? hi)).1
    obtain hsame | hadded := handleBoot_rows fate c.world ho
    · exact .inl hsame
    · exact .inr ⟨_, List.mem_set (List.getElem?_eq_some_iff.mp hi).1 _, hadded⟩

theorem boots_rows {more : List (Move Draws Fate AdminTable)}
    (hc : (boots env).run ⟨s, []⟩ moves = some c) (hmore : Undisturbed more)
    (hd : (boots env).run c more = some d) :
    ∃ seeds, d.world.admins.rows = c.world.admins.rows ++ seeds ∧
      ∀ row ∈ seeds, ∃ t ∈ d.threads, row = env.seedRow t.req := by
  induction more using List.reverseRecOn generalizing d with
  | nil =>
    cases hd
    exact ⟨[], by simp, by simp⟩
  | append_singleton ms mv ih =>
    rw [Machine.run_snoc] at hd
    obtain ⟨c', hc', hn⟩ := Option.bind_eq_some_iff.mp hd
    obtain ⟨seeds, hrows, hseeds⟩ := ih (fun mv hmv => hmore mv (by simp [hmv])) hc'
    have hrun : (boots env).run ⟨s, []⟩ (moves ++ ms) = some c' := by
      rw [Machine.run_append, hc]
      exact hc'
    have hseeds' : ∀ row ∈ seeds, ∃ t ∈ d.threads, row = env.seedRow t.req := by
      intro row hrow
      obtain ⟨t, ht, rfl⟩ := hseeds row hrow
      obtain ⟨t', ht', hreq⟩ := Machine.next_reqs hn t ht
      exact ⟨t', ht', by rw [hreq]⟩
    obtain hsame | ⟨t, ht, hadded⟩ := boots_next hrun (hmore mv (by simp)) hn
    · exact ⟨seeds, by rw [hsame, hrows], hseeds'⟩
    · refine ⟨seeds ++ [env.seedRow t.req], by rw [hadded, hrows, List.append_assoc], ?_⟩
      intro row hrow
      obtain hrow | hrow := List.mem_append.mp hrow
      · exact hseeds' row hrow
      · exact ⟨t, ht, List.mem_singleton.mp hrow⟩

/-- What one process was told of an admin, at some point of the run, holds at its end. -/
theorem rows_of_told (hmoves : Undisturbed moves) (hd : (boots env).run ⟨s, []⟩ moves = some d)
    {i : Nat} {e : Exchange BootOp BootOp.Answer} (he : e ∈ (boots env).history i ⟨s, []⟩ moves)
    (hshows : ∀ fate w, .step i fate ∈ moves → e.answer = (AdminStore.handleBoot fate e.op w).1 →
      (AdminStore.handleBoot fate e.op w).2.admins.rows ≠ []) :
    d.world.admins.rows ≠ [] := by
  obtain ⟨before, after, fate, c, rfl, hc, hwaiting, hanswer⟩ := Machine.step_of_history hd he
  obtain ⟨r, k, log, hthread⟩ := Conf.get_of_waiting hwaiting
  have hsplit : before ++ .step i fate :: after = before ++ [.step i fate] ++ after := by simp
  rw [hsplit, Machine.run_append, Machine.run_snoc, hc] at hd
  obtain ⟨c', hc', hd⟩ := Option.bind_eq_some_iff.mp hd
  obtain ⟨seeds, hrows, -⟩ := boots_rows ((Machine.run_snoc ..).trans (by
    rw [hc]
    exact hc')) (fun mv hmv => hmoves mv (by simp [hmv])) hd
  obtain ⟨r', o', k', log', hi, rfl⟩ := (boots env).next_step hc'
  rw [hthread] at hi
  cases hi
  rw [hrows]
  exact fun h => hshows fate c.world (by simp) hanswer (List.append_eq_nil_iff.mp h).1

/-- All rows are seeds of one address, which is unique in the table. -/
theorem rows_le_one (hempty : s.admins.rows = []) (hmoves : Undisturbed moves)
    (hd : (boots env).run ⟨s, []⟩ moves = some d) : d.world.admins.rows.length ≤ 1 := by
  obtain ⟨seeds, hrows, hseeds⟩ := boots_rows (Machine.run_nil (boots env) ⟨s, []⟩) hmoves hd
  have hemail : ∀ row ∈ d.world.admins.rows, row.email = normalizeEmail env.seed.email := by
    intro row hrow
    have hrow : row ∈ s.admins.rows ++ seeds := hrows ▸ hrow
    rw [hempty, List.nil_append] at hrow
    obtain ⟨t, -, rfl⟩ := hseeds row hrow
    rfl
  have hnodup := d.world.admins.emails
  rw [List.map_eq_replicate_iff.mpr hemail] at hnodup
  exact List.nodup_replicate.mp hnodup

end Run

/-- Any number of processes that boot over an empty registry, in any interleaving and with any
outages, leave at most one admin in it, an enabled owner as one of them drew it. It is there once
one of them has succeeded; and, if no statement fails, once one of them is done at all, though
the others may be done with an error. -/
theorem bootstrap_once {env : BootEnv} {s : AdminStore} {moves : List (Move Draws Fate AdminTable)}
    {d : Conf Draws BootOp BootOp.Answer (Except String Unit) AdminStore}
    (hempty : s.admins.rows = []) (hmoves : Undisturbed moves)
    (hd : (boots env).run ⟨s, []⟩ moves = some d) :
    (d.world.admins.rows = [] ∨ ∃ t ∈ d.threads, d.world.admins.rows = [env.seedRow t.req]) ∧
    ((∃ t ∈ d.threads, t.prog = .ret (.ok ())) → d.world.admins.rows ≠ []) ∧
    ((∀ i fate, .step i fate ∈ moves → fate = .done) →
      (∃ t ∈ d.threads, ∃ result, t.prog = .ret result) → d.world.admins.rows ≠ []) := by
  have hle := rows_le_one hempty hmoves hd
  obtain ⟨seeds, hrows, hseeds⟩ := boots_rows (Machine.run_nil (boots env) ⟨s, []⟩) hmoves hd
  have hrows : d.world.admins.rows = s.admins.rows ++ seeds := hrows
  rw [hempty, List.nil_append] at hrows
  refine ⟨?_, ?_, ?_⟩
  · cases hseed : d.world.admins.rows with
    | nil => exact .inl rfl
    | cons row rest =>
      rw [hseed] at hle hrows
      obtain rfl : rest = [] := List.length_eq_zero_iff.mp (by simpa using hle)
      obtain ⟨t, ht, rfl⟩ := hseeds row (by simp [← hrows])
      exact .inr ⟨t, ht, rfl⟩
  · rintro ⟨t, ht, hdone⟩
    obtain ⟨i, hi⟩ := List.getElem?_of_mem ht
    have hafter := (Machine.run_after hd hi).1
    rw [hdone] at hafter
    obtain ⟨n, hn, he⟩ | he := (ensureBootstrapAdmin_told hafter).2 rfl
    · exact rows_of_told hmoves hd he fun fate w _ hanswer => countAdmins_told hn hanswer.symm
    · exact rows_of_told hmoves hd he fun fate w _ hanswer => insert_told hanswer.symm
  · rintro hcalm ⟨t, ht, result, hdone⟩
    obtain ⟨i, hi⟩ := List.getElem?_of_mem ht
    have hafter := (Machine.run_after hd hi).1
    rw [hdone] at hafter
    obtain ⟨⟨e, he, hshows⟩, -⟩ := ensureBootstrapAdmin_told hafter
    refine rows_of_told hmoves hd he fun fate w hmem hanswer => ?_
    obtain rfl := hcalm i fate hmem
    obtain ⟨o, answer⟩ := e
    obtain rfl : answer = (w.handleBoot .done o).1 := hanswer
    exact (hshows.resolve_right not_showsOutage).rows

theorem counted_none {env : BootEnv} {draws : Draws} {h : List (Exchange BootOp BootOp.Answer)}
    {o : BootOp} {k : o.Answer → BootProg (Except String Unit)}
    (hp : (ensureBootstrapAdmin env draws).After h (.ask o k)) :
    o = .dbReady ∨ o = .countAdmins ∨ ⟨.countAdmins, .ok 0⟩ ∈ h := by
  obtain ⟨-, hask⟩ | ⟨answer, h₁, rfl, h₁'⟩ := Prog.after_ask.mp hp
  · cases hask
    exact .inl rfl
  · obtain message | _ := answer
    · cases (Prog.after_ret.mp h₁').2
    · obtain ⟨-, hask⟩ | ⟨answer, h₂, rfl, h₂'⟩ := Prog.after_ask.mp h₁'
      · cases hask
        exact .inr (.inl rfl)
      · obtain message | n := answer
        · cases (Prog.after_ret.mp h₂').2
        · cases n with
          | zero => exact .inr (.inr (by simp))
          | succ n => cases (Prog.after_ret.mp h₂').2

theorem rows_nonempty {env : BootEnv} {s : AdminStore} {moves : List (Move Draws Fate AdminTable)}
    {c : Conf Draws BootOp BootOp.Answer (Except String Unit) AdminStore}
    (hsome : s.admins.rows ≠ []) (hmoves : ∀ t, .env t ∈ moves → t.rows ≠ [])
    (hc : (boots env).run ⟨s, []⟩ moves = some c) : c.world.admins.rows ≠ [] := by
  induction moves using List.reverseRecOn generalizing c with
  | nil =>
    cases hc
    exact hsome
  | append_singleton ms mv ih =>
    rw [Machine.run_snoc] at hc
    obtain ⟨c', hc', hn⟩ := Option.bind_eq_some_iff.mp hc
    have hc'' := ih (fun t ht => hmoves t (by simp [ht])) hc'
    by_cases hmv : ∃ t, mv = .env t
    · obtain ⟨t, rfl⟩ := hmv
      obtain rfl := Option.some.inj hn
      exact hmoves t (by simp)
    · obtain hsame | ⟨t, -, hadded⟩ := boots_next hc' (fun t h => hmv ⟨t, h⟩) hn
      · rwa [hsame]
      · rw [hadded]
        simp

/-- While there is an admin, whatever others make of the table, no boot changes it: no password
is overwritten, and no deleted account comes back. -/
theorem bootstrap_leaves_alone {env : BootEnv} {s : AdminStore}
    {moves : List (Move Draws Fate AdminTable)}
    {c d : Conf Draws BootOp BootOp.Answer (Except String Unit) AdminStore} {i : Nat} {fate : Fate}
    (hsome : s.admins.rows ≠ []) (hmoves : ∀ t, .env t ∈ moves → t.rows ≠ [])
    (hc : (boots env).run ⟨s, []⟩ moves = some c)
    (hn : (boots env).next c (.step i fate) = some d) : d.world.admins = c.world.admins := by
  obtain ⟨r, o, k, log, hi, rfl⟩ := (boots env).next_step hn
  obtain rfl | rfl | hzero := counted_none (Machine.run_after hc hi).1
  · cases fate <;> rfl
  · cases fate <;> rfl
  · obtain ⟨before, after, fate', c', rfl, hc', -, hanswer⟩ := Machine.step_of_history hc hzero
    refine absurd ?_ (rows_nonempty hsome (fun t ht => hmoves t (by simp [ht])) hc')
    cases fate' with
    | failed message | unanswered message => cases hanswer
    | done => exact List.length_eq_zero_iff.mp (Except.ok.inj hanswer).symm

namespace Sample

def bootEnv : BootEnv where
  ADMIN_BOOTSTRAP_EMAIL := "Root@example.org"
  ADMIN_BOOTSTRAP_PASSWORD := "secret"

def noAdmins : AdminStore where
  admins := { rows := [], nodup := List.nodup_nil, emails := List.nodup_nil }

def bootDraws (id : String) : Draws where
  now := 7
  randomUUID := id
  argonHash password := password

/-- Two processes count at the same time; the second one to insert is refused. -/
def twoBoots : List (Move Draws Fate AdminTable) :=
  [.spawn (bootDraws "u1"), .spawn (bootDraws "u2")] ++
    List.replicate 3 (.step 0 .done) ++ List.replicate 4 (.step 1 .done) ++ [.step 0 .done]

end Sample

theorem bootstrap_once_two :
    ∃ d, (boots Sample.bootEnv).run ⟨Sample.noAdmins, []⟩ Sample.twoBoots = some d ∧
      ∃ t ∈ d.threads, d.world.admins.rows = [Sample.bootEnv.seedRow t.req] := by
  have hrun : (boots Sample.bootEnv).run ⟨Sample.noAdmins, []⟩ Sample.twoBoots = some _ := rfl
  have hmoves : Undisturbed Sample.twoBoots := by
    rintro mv hmv t rfl
    simp [Sample.twoBoots] at hmv
  have hcalm : ∀ i fate, .step i fate ∈ Sample.twoBoots → fate = .done := by
    intro i fate hmv
    have hfate : i = 0 ∧ fate = .done ∨ i = 1 ∧ fate = .done ∨ i = 0 ∧ fate = .done := by
      simpa [Sample.twoBoots] using hmv
    exact hfate.elim And.right fun h => h.elim And.right And.right
  obtain ⟨hone, -, hdone⟩ := bootstrap_once rfl hmoves hrun
  exact ⟨_, hrun, hone.resolve_left (hdone hcalm ⟨_, List.mem_cons_self, _, rfl⟩)⟩

namespace Sample

def oneAdmin : AdminStore where
  admins := { rows := [bootEnv.seedRow (bootDraws "u0")], nodup := List.nodup_singleton _
              emails := List.nodup_singleton _ }

def oneBoot : List (Move Draws Fate AdminTable) := [.spawn (bootDraws "u1"), .step 0 .done]

end Sample

theorem bootstrap_leaves_alone_one :
    ∃ c d, (boots Sample.bootEnv).run ⟨Sample.oneAdmin, []⟩ Sample.oneBoot = some c ∧
      (boots Sample.bootEnv).next c (.step 0 .done) = some d ∧ d.world.admins = c.world.admins := by
  have hsome : Sample.oneAdmin.admins.rows ≠ [] := List.cons_ne_nil _ _
  have hmoves : ∀ t, .env t ∈ Sample.oneBoot → t.rows ≠ [] := by
    intro t ht
    simp [Sample.oneBoot] at ht
  have hrun : (boots Sample.bootEnv).run ⟨Sample.oneAdmin, []⟩ Sample.oneBoot = some _ := rfl
  refine ⟨_, _, hrun, rfl, ?_⟩
  exact bootstrap_leaves_alone hsome hmoves hrun
    (show (boots Sample.bootEnv).next _ (.step 0 .done) = some _ from rfl)

end OcrService
