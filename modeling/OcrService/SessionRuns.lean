import OcrService.Sessions

/-! Who gets past the gate of the admin console, over every interleaving of logins, logouts,
expiries and changes of the registry. -/
namespace OcrService
open Interaction

section Runs
variable (env : ConsoleEnv)
variable (c : Conf ConsoleRequest ConsoleOp ConsoleOp.Answer ConsoleOut AdminStore)
variable (moves : List (Move ConsoleRequest Fate String))

/-- Move `k` stores `token` for the admin `u`, at the end of a login that found `u` under the
given address, enabled and with the given password. -/
def IssuedAt (token u : String) (k : Nat) : Prop :=
  ∃ i r email password kMail sMail sSet row,
    loginSchema r.body = some (email, password) ∧ kMail < k ∧
    (sessionConsole env).Performs c moves kMail i (.login r) []
      (.admin (.selectByEmail (normalizeEmail email))) sMail ∧
    sMail.admins.selectByEmail (normalizeEmail email) = some row ∧
    row.id = u ∧ row.disabled = false ∧ env.argonVerify row.password_hash password = true ∧
    (sessionConsole env).Performs c moves k i (.login r)
      [.admin (.selectByEmail (normalizeEmail email))]
      (.sessionSet token ⟨u, row.role⟩ env.ADMIN_SESSION_TTL_SECONDS) sSet

/-- Move `k` is the expiry of the token, or a logout deleting it. -/
def EndedAt (token : String) (k : Nat) : Prop :=
  moves[k]? = some (.env token) ∨
    ∃ i r log s, (sessionConsole env).Performs c moves k i r log (.sessionDel token) s

/-- Before move `k` the token was issued for `u`, and it has not ended since. -/
def LiveAt (token u : String) (k : Nat) : Prop :=
  ∃ kSet, kSet < k ∧ IssuedAt env c moves token u kSet ∧
    ∀ j, kSet < j → j < k → ¬ EndedAt env c moves token j

/-- Thread `i`, in the middle of `r`, read the key of a token that was live for `u`, and after
that `u`'s row, which was enabled, had the role `role`, and ranked at least `min`. -/
def AdmittedAs (i : Nat) (r : ConsoleRequest) (token : String) (min : AdminRole) (u : String)
    (role : AdminRole) : Prop :=
  ∃ kGet kRow sGet sRow row, kGet < kRow ∧
    (sessionConsole env).Performs c moves kGet i r [] (.admin (.sessionGet token)) sGet ∧
    LiveAt env c moves token u kGet ∧
    (sessionConsole env).Performs c moves kRow i r [.admin (.sessionGet token)]
      (.admin (.selectById u)) sRow ∧
    sRow.admins.find u = some row ∧ row.disabled = false ∧ row.role = role ∧
    min.rank ≤ role.rank

end Runs

def ConsoleRequest.drawnToken : ConsoleRequest → Option String
  | .login r => some r.token.text
  | .logout _ | .guarded _ _ _ => none

def FreshTokens (moves : List (Move ConsoleRequest Fate String)) : Prop :=
  ((moves.filterMap Move.request?).filterMap ConsoleRequest.drawnToken).Nodup

def Calm (mv : Move ConsoleRequest Fate String) : Prop := ∀ i fate, mv = .step i fate → fate = .done

theorem handle_sessions (fate : Fate) (o : AdminOp) (s : AdminStore) :
    (s.handle fate o).2.sessions = s.sessions := by
  have hexec : (s.exec o).2.sessions = s.sessions := by
    unfold AdminStore.exec
    cases o with
    | insert r =>
      simp only
      cases s.admins.insert r with
      | ok t => rfl
      | error message => rfl
    | _ => rfl
  unfold AdminStore.handle
  rw [Fate.settle_state]
  by_cases hf : fate.applied = true
  · rw [if_pos hf, hexec]
  · rw [if_neg hf]

section Moves
variable {env : ConsoleEnv}
variable {c c' : Conf ConsoleRequest ConsoleOp ConsoleOp.Answer ConsoleOut AdminStore}

inductive TokenMove (c c' : Conf ConsoleRequest ConsoleOp ConsoleOp.Answer ConsoleOut AdminStore)
    (token : String) : Move ConsoleRequest Fate String → Prop
  | unchanged {mv} : c'.world.sessions token = c.world.sessions token → TokenMove c c' token mv
  | expired : c'.world.sessions token = none → TokenMove c c' token (.env token)
  | deleted {i fate r log cont} : c.threads[i]? = some ⟨r, .ask (.sessionDel token) cont, log⟩ →
      c'.world.sessions token = none → TokenMove c c' token (.step i fate)
  | set {i fate r log session ttl cont} :
      c.threads[i]? = some ⟨r, .ask (.sessionSet token session ttl) cont, log⟩ →
      c'.world.sessions token = some session → TokenMove c c' token (.step i fate)

theorem setSession_self (s : AdminStore) (token : String) (session : Option AdminSession) :
    (s.setSession token session).sessions token = session := Function.update_self ..

theorem setSession_ne {s : AdminStore} {token token' : String} {session : Option AdminSession}
    (h : token ≠ token') : (s.setSession token' session).sessions token = s.sessions token :=
  Function.update_of_ne h ..

theorem tokenMove (token : String) {mv : Move ConsoleRequest Fate String} (hcalm : Calm mv)
    (hn : (sessionConsole env).next c mv = some c') : TokenMove c c' token mv := by
  cases mv with
  | spawn r =>
    cases hn
    exact .unchanged rfl
  | env token' =>
    cases hn
    by_cases ht : token = token'
    · subst ht
      exact .expired (setSession_self ..)
    · exact .unchanged (setSession_ne ht)
  | step i fate =>
    obtain rfl := hcalm i fate rfl
    obtain ⟨r, o, cont, log, hget, rfl⟩ := (sessionConsole env).next_step hn
    cases o with
    | admin o => exact .unchanged (congrFun (handle_sessions .done o c.world) token)
    | sessionSet token' session ttl =>
      by_cases ht : token = token'
      · subst ht
        exact .set hget (setSession_self ..)
      · exact .unchanged (setSession_ne ht)
    | sessionDel token' =>
      by_cases ht : token = token'
      · subst ht
        exact .deleted hget (setSession_self ..)
      · exact .unchanged (setSession_ne ht)

end Moves

section Origin
variable {env : ConsoleEnv} {t₀ : AdminTable}
variable {moves : List (Move ConsoleRequest Fate String)}

variable (env) in
theorem login_rejected {r : LoginRequest} (h : loginSchema r.body = none) :
    ∃ out, ConsoleRequest.program env (.login r) = .ret out := by
  simp only [ConsoleRequest.program, login, h]
  exact ⟨_, rfl⟩

variable (env) in
theorem login_program {r : LoginRequest} {email password : String}
    (h : loginSchema r.body = some (email, password)) :
    ∃ k, ConsoleRequest.program env (.login r) =
        .ask (.admin (.selectByEmail (normalizeEmail email))) k ∧
      ∀ answer, (∃ out, k answer = .ret out) ∨
        ∃ row k', answer = .ok (some row) ∧ row.disabled = false ∧
          env.argonVerify row.password_hash password = true ∧
          k answer = .ask (.sessionSet r.token.text ⟨row.id, row.role⟩
            env.ADMIN_SESSION_TTL_SECONDS) k' ∧ ∀ stored, ∃ out, k' stored = .ret out := by
  simp only [ConsoleRequest.program, login, h]
  refine ⟨_, rfl, fun answer => ?_⟩
  cases answer with
  | error message => exact Or.inl ⟨_, rfl⟩
  | ok row =>
    cases row with
    | none => exact Or.inl ⟨_, rfl⟩
    | some row =>
      have hsome : ∀ b, verifyPassword env (rowToRecord row) password = b → _ =
          ((if b then signIn env r (rowToRecord row) else .ret invalidLogin) >>= fun reply =>
            (.ret { reply } : ConsoleProg ConsoleOut)) := fun b hb => by rw [← hb]
      cases hv : verifyPassword env (rowToRecord row) password with
      | false => exact Or.inl ⟨{ reply := invalidLogin }, hsome false hv⟩
      | true =>
        simp only [verifyPassword, Bool.and_eq_true, Bool.not_eq_true'] at hv
        refine Or.inr ⟨row, _, rfl, hv.1, hv.2, hsome true (by simp [verifyPassword, hv]), ?_⟩
        intro stored
        cases stored with
        | error message => exact ⟨_, rfl⟩
        | ok _ => exact ⟨_, rfl⟩

def letIn (min : AdminRole) (userId : String) (row : Option AdminRow) : Option AdminSession :=
  row.bind fun row =>
    if row.disabled then none
    else if row.role.rank < min.rank then none
    else some ⟨userId, row.role⟩

theorem adminAuth_token {token : String} (ht : token ≠ "") :
    adminAuth (some token) = (resolveSession token >>= fun
      | .error _ =>
        .ret (.error (sendError 503 "PROVIDER_UNAVAILABLE" "Session store unavailable"))
      | .ok none => .ret (.error (sendError 401 "UNAUTHORIZED" "Session expired or invalid"))
      | .ok (some session) => .ret (.ok session)) := by
  unfold adminAuth
  split
  · contradiction
  · rename_i h
    exact absurd (Option.some.inj h) ht
  · rename_i h
    cases h
    rfl

/-- The gate reads the session's key and the row it names, and what it finds there decides. -/
theorem gate_program {token : String} (ht : token ≠ "") (min : AdminRole) :
    ∃ k, gate (some token) min = .ask (.sessionGet token) k ∧
      (∃ response, k (.ok none) = .ret (.error response)) ∧
      ∀ session, ∃ k', k (.ok (some session)) = .ask (.selectById session.userId) k' ∧
        ∀ row, ∃ result, k' (.ok row) = .ret result ∧
          result.toOption = letIn min session.userId row := by
  simp only [gate, adminAuth_token ht]
  refine ⟨_, rfl, ⟨_, rfl⟩, fun session => ⟨_, rfl, fun row => ?_⟩⟩
  cases row with
  | none => exact ⟨_, rfl, rfl⟩
  | some row =>
    obtain ⟨id, email, name, role, hash, disabled, created, updated⟩ := row
    cases disabled with
    | true => exact ⟨_, rfl, rfl⟩
    | false =>
      refine ⟨requireMinRole min ⟨session.userId, role⟩, rfl, ?_⟩
      by_cases hr : role.rank < min.rank
      · simp [letIn, requireMinRole, hr, Except.toOption]
      · simp [letIn, requireMinRole, hr, Except.toOption]

variable (env) in
theorem guarded_program {token : String} (ht : token ≠ "") (min : AdminRole)
    (route : AdminRoute) :
    ∃ k, ConsoleRequest.program env (.guarded (some token) min route) =
        .ask (.admin (.sessionGet token)) k ∧
      (∃ out, k (.ok none) = .ret out ∧ out.admin = none) ∧
      ∀ session, ∃ k', k (.ok (some session)) = .ask (.admin (.selectById session.userId)) k' ∧
        ∀ row, (k' (.ok row)).Returns fun out => out.admin = letIn min session.userId row := by
  obtain ⟨k, hgate, ⟨response, hnone⟩, hsome⟩ := gate_program ht min
  simp only [ConsoleRequest.program, AdminRoute.serve, hgate]
  refine ⟨_, rfl, ?_, fun session => ?_⟩
  · simp only [hnone]
    exact ⟨_, rfl, rfl⟩
  · obtain ⟨k', hk', hrow⟩ := hsome session
    simp only [hk']
    refine ⟨_, rfl, fun row => ?_⟩
    obtain ⟨result, hresult, hlet⟩ := hrow row
    simp only [hresult, ← hlet]
    refine Prog.Returns.lift ?_
    cases result with
    | error response => exact rfl
    | ok session =>
      have hbody : (handler route.body >>= fun response =>
          (.ret { admin := some session, reply := .admin response } :
            AdminProg ConsoleOut)).Returns fun out => out.admin = some session :=
        Prog.Returns.bind ((Prog.Returns.trivial _).mono fun response _ => rfl)
      exact hbody

theorem console_uses (request : ConsoleRequest) :
    (ConsoleRequest.program env request).Uses fun o =>
      ∀ token session ttl, o = .sessionSet token session ttl → ∃ r, request = .login r := by
  have hlift : ∀ {α : Type} (p : AdminProg α) (R : Prop), p.onConsole.Uses fun o =>
      ∀ token session ttl, o = .sessionSet token session ttl → R := by
    intro α p R
    refine Prog.Uses.lift ((Prog.Uses.trivial p).mono fun o _ token session ttl h => ?_)
    cases h
  cases request with
  | login r => exact (Prog.Uses.trivial _).mono fun o _ token session ttl _ => ⟨r, rfl⟩
  | guarded token min route => exact hlift _ _
  | logout token =>
    refine Prog.Uses.bind ?_ fun reply => True.intro
    refine Prog.Uses.bind (hlift _ _) fun result => ?_
    cases result with
    | error response => exact True.intro
    | ok session =>
      dsimp only
      split
      · exact True.intro
      · exact True.intro
      · refine ⟨fun token session ttl h => (by cases h), fun answer => ?_⟩
        cases answer with
        | error message => exact True.intro
        | ok _ => exact True.intro

theorem console_traces (request : ConsoleRequest) :
    (ConsoleRequest.program env request).Traces (fun _ _ => True)
      (fun log => ∀ r, request = .login r → log.length ≤ 1) fun _ _ => True := by
  cases request with
  | logout token =>
    refine (Prog.Uses.trivial _).traces.mono (fun log _ r h => ?_) fun _ _ _ => True.intro
    cases h
  | guarded token min route =>
    refine (Prog.Uses.trivial _).traces.mono (fun log _ r h => ?_) fun _ _ _ => True.intro
    cases h
  | login r =>
    cases hbody : loginSchema r.body with
    | none =>
      obtain ⟨out, hout⟩ := login_rejected env hbody
      rw [hout]
      exact True.intro
    | some credentials =>
      obtain ⟨k, hk, hnext⟩ := login_program env hbody
      rw [hk]
      refine ⟨fun _ _ => Nat.zero_le 1, fun answer _ => ?_⟩
      obtain ⟨out, hout⟩ | ⟨row, k', -, -, -, hask, hret⟩ := hnext answer
      · rw [hout]
        exact True.intro
      · rw [hask]
        refine ⟨fun _ _ => Nat.le_refl 1, fun stored _ => ?_⟩
        obtain ⟨out, hout⟩ := hret stored
        rw [hout]
        exact True.intro

theorem issued_of_set {k i : Nat} {fate : Fate} {request : ConsoleRequest}
    {log : List ConsoleOp} {token : String} {session : AdminSession} {ttl : Nat}
    {cont : Except String Unit → ConsoleProg ConsoleOut}
    {c : Conf ConsoleRequest ConsoleOp ConsoleOp.Answer ConsoleOut AdminStore}
    (hcalm : ∀ mv ∈ moves, Calm mv)
    (h : (sessionConsole env).StepsAt ⟨{ admins := t₀ }, []⟩ moves k i fate request log
      (.sessionSet token session ttl) cont c) :
    IssuedAt env ⟨{ admins := t₀ }, []⟩ moves token session.userId k ∧
      ∃ r, request = .login r ∧ r.token.text = token ∧ log.length = 1 := by
  have hmem := List.mem_of_getElem? h.thread
  obtain ⟨r, rfl⟩ := (Machine.run_uses console_uses h.reached _ hmem).1 token session ttl rfl
  have hlen : log.length ≤ 1 := by
    have htraces := Machine.run_logs (A := fun _ _ => True) (fun _ _ _ => True.intro)
      console_traces h.reached _ hmem
    simpa using htraces.1 r rfl
  have hcalm' : ∀ mv ∈ moves.take k, Calm mv := fun mv hmv => hcalm mv (List.mem_of_mem_take hmv)
  cases hlog : log with
  | nil =>
    -- The first operation of a login is not this one.
    have hstart := Machine.run_fresh h.reached _ hmem hlog
    cases hbody : loginSchema r.body with
    | none =>
      obtain ⟨out, hout⟩ := login_rejected env hbody
      cases hstart.trans hout
    | some credentials =>
      obtain ⟨k, hk, -⟩ := login_program env hbody
      cases hstart.trans hk
  | cons o rest =>
    obtain rfl : rest = [] := by
      rw [hlog, List.length_cons] at hlen
      exact List.length_eq_zero_iff.mp (by omega)
    subst hlog
    obtain ⟨kMail, fate', cont', c', hmail, hcont⟩ := Machine.last_step [] h.reached h.thread
    have hstart := Machine.run_fresh hmail.reached _ (List.mem_of_getElem? hmail.thread) rfl
    cases hbody : loginSchema r.body with
    | none =>
      obtain ⟨out, hout⟩ := login_rejected env hbody
      cases hstart.trans hout
    | some credentials =>
      obtain ⟨email, password⟩ := credentials
      obtain ⟨k', hk', hnext⟩ := login_program env hbody
      cases hstart.trans hk'
      obtain rfl := hcalm' _ (List.mem_of_getElem? hmail.move) i fate' rfl
      obtain ⟨out, hout⟩ | ⟨row, k'', hrow, hdisabled, hverified, hask, -⟩ :=
        hnext (.ok (c'.world.admins.selectByEmail (normalizeEmail email)))
      · cases hcont.trans hout
      · cases hcont.trans hask
        obtain ⟨hlt, hmail⟩ := hmail.of_take
        exact ⟨⟨i, r, email, password, kMail, c'.world, c.world, row, hbody, hlt, hmail.performs,
          Except.ok.inj hrow, rfl, hdisabled, hverified, h.performs⟩, r, rfl, rfl, rfl⟩

end Origin

section Live
variable {env : ConsoleEnv} {t₀ : AdminTable}
variable {moves : List (Move ConsoleRequest Fate String)}

theorem sessions_of_ended {token : String} {j : Nat}
    {c : Conf ConsoleRequest ConsoleOp ConsoleOp.Answer ConsoleOut AdminStore}
    (hcalm : ∀ mv ∈ moves, Calm mv)
    (hc : (sessionConsole env).run ⟨{ admins := t₀ }, []⟩ (moves.take (j + 1)) = some c)
    (h : EndedAt env ⟨{ admins := t₀ }, []⟩ moves token j) : c.world.sessions token = none := by
  cases h with
  | inl hexpired =>
    obtain ⟨c', hc', -⟩ := Machine.run_take hc j
    rw [List.take_take, Nat.min_eq_left (Nat.le_succ j)] at hc'
    rw [Machine.run_take_succ hexpired hc'] at hc
    cases hc
    exact setSession_self ..
  | inr hdeleted =>
    obtain ⟨i, r, log, s, fate, cont, c', hstep, -⟩ := hdeleted
    obtain rfl := hcalm _ (List.mem_of_getElem? hstep.move) i fate rfl
    rw [hstep.after] at hc
    cases hc
    exact setSession_self ..

/-- A token that is stored was issued, and has not ended since. -/
theorem liveAt_of_session {token : String} {session : AdminSession} {k : Nat}
    {c : Conf ConsoleRequest ConsoleOp ConsoleOp.Answer ConsoleOut AdminStore}
    (hcalm : ∀ mv ∈ moves, Calm mv)
    (hc : (sessionConsole env).run ⟨{ admins := t₀ }, []⟩ (moves.take k) = some c)
    (h : c.world.sessions token = some session) :
    LiveAt env ⟨{ admins := t₀ }, []⟩ moves token session.userId k := by
  obtain ⟨kSet, c₁, mv, c₂, hlt, hreached, hmove, hnext, hchange, hvalue, hsince⟩ :=
    Machine.last_change (fun s : AdminStore => s.sessions token) hc (by simp [h])
  simp only [h] at hvalue hsince
  have hset : IssuedAt env ⟨{ admins := t₀ }, []⟩ moves token session.userId kSet := by
    cases tokenMove token (hcalm mv (List.mem_of_getElem? hmove)) hnext with
    | unchanged hsame => exact absurd hsame hchange
    | expired hnone => cases hnone.symm.trans hvalue
    | deleted _ hnone => cases hnone.symm.trans hvalue
    | set hthread hsome =>
      cases hsome.symm.trans hvalue
      exact (issued_of_set hcalm ⟨hmove, hreached, hthread⟩).1
  refine ⟨kSet, hlt, hset, fun j hj hjk hended => ?_⟩
  obtain ⟨cⱼ, hcⱼ, -⟩ := Machine.run_take hc (j + 1)
  rw [List.take_take, Nat.min_eq_left hjk] at hcⱼ
  have hstored := hsince (j + 1) cⱼ (by omega) hjk hcⱼ
  cases (sessions_of_ended hcalm hcⱼ hended).symm.trans hstored

/-- A token that was issued and has not ended is stored. -/
theorem session_of_liveAt {token u : String} {k : Nat}
    {c d : Conf ConsoleRequest ConsoleOp ConsoleOp.Answer ConsoleOut AdminStore}
    (hcalm : ∀ mv ∈ moves, Calm mv) (hfresh : FreshTokens moves)
    (hd : (sessionConsole env).run ⟨{ admins := t₀ }, []⟩ moves = some d)
    (hc : (sessionConsole env).run ⟨{ admins := t₀ }, []⟩ (moves.take k) = some c)
    (h : LiveAt env ⟨{ admins := t₀ }, []⟩ moves token u k) :
    ∃ role, c.world.sessions token = some ⟨u, role⟩ := by
  obtain ⟨kSet, hlt, hissued, hlive⟩ := h
  obtain ⟨i, r, email, password, kMail, sMail, sSet, row, -, -, -, -, -, -, -, hset⟩ := hissued
  obtain ⟨fate, cont, c₀, hset, -⟩ := hset
  obtain rfl := hcalm _ (List.mem_of_getElem? hset.move) i fate rfl
  obtain ⟨-, r₀, he, htoken, -⟩ := issued_of_set hcalm hset
  cases he
  have hsame := Machine.run_unchanged (fun s : AdminStore => s.sessions token) hlt hset.after hc ?_
  · exact ⟨row.role, hsame.trans (setSession_self ..)⟩
  intro j c₁ mv c₂ hkj hjk hreached hmove hnext
  cases tokenMove token (hcalm mv (List.mem_of_getElem? hmove)) hnext with
  | unchanged hsame => exact hsame
  | expired _ => exact absurd (Or.inl hmove) (hlive j hkj hjk)
  | deleted hthread _ =>
    have hstep : (sessionConsole env).StepsAt _ _ _ _ _ _ _ _ _ _ := ⟨hmove, hreached, hthread⟩
    exact absurd (Or.inr ⟨_, _, _, _, hstep.performs⟩) (hlive j hkj hjk)
  | set hthread _ =>
    -- A second thread with this token would be a second login that drew it, and the first
    -- has its only set behind it.
    have hstep : (sessionConsole env).StepsAt _ _ _ _ _ _ _ _ _ _ := ⟨hmove, hreached, hthread⟩
    obtain ⟨-, r', rfl, htoken', hlen⟩ := issued_of_set hcalm hstep
    obtain ⟨p, l, hp, -, -⟩ := hset.later hd
    obtain ⟨p', l', hp', -, -⟩ := hstep.later hd
    obtain rfl := Machine.thread_unique hfresh hd hp hp' (congrArg some htoken)
      (congrArg some htoken')
    obtain ⟨p'', l'', hp'', -, -⟩ := (hset.take hkj).later hreached
    rw [hp''] at hthread
    cases hthread
    simp at hlen

theorem letIn_eq_some {min : AdminRole} {userId u : String} {row : Option AdminRow}
    {role : AdminRole} :
    letIn min userId row = some ⟨u, role⟩ ↔ userId = u ∧ ∃ r, row = some r ∧
      r.disabled = false ∧ r.role = role ∧ min.rank ≤ role.rank := by
  cases row with
  | none => simp [letIn]
  | some r =>
    cases hd : r.disabled with
    | true => simp [letIn, hd]
    | false =>
      by_cases hr : r.role.rank < min.rank
      · simp only [letIn, Option.bind_some, hd, hr, if_true, Bool.false_eq_true, if_false]
        constructor
        · intro h
          cases h
        · intro h
          obtain ⟨-, r', he, -, hrole, hle⟩ := h
          cases he
          rw [hrole] at hr
          omega
      · simp only [letIn, Option.bind_some, hd, hr, Bool.false_eq_true, if_false,
          Option.some.injEq, AdminSession.mk.injEq]
        constructor
        · intro ⟨hu, hrole⟩
          exact ⟨hu, r, rfl, hd, hrole, by rw [← hrole]; omega⟩
        · intro h
          obtain ⟨hu, r', he, -, hrole, -⟩ := h
          cases he
          exact ⟨hu, hrole⟩

variable (env) in
theorem guarded_empty (min : AdminRole) (route : AdminRoute) :
    ∃ out, ConsoleRequest.program env (.guarded (some "") min route) = .ret out ∧
      out.admin = none := ⟨_, rfl, rfl⟩

theorem token_of_admin {i : Nat} {token : String} {min : AdminRole} {route : AdminRoute}
    {out : ConsoleOut} {log : List ConsoleOp} {session : AdminSession}
    {d : Conf ConsoleRequest ConsoleOp ConsoleOp.Answer ConsoleOut AdminStore}
    (hd : (sessionConsole env).run ⟨{ admins := t₀ }, []⟩ moves = some d)
    (hi : d.threads[i]? = some ⟨.guarded (some token) min route, .ret out, log⟩)
    (h : out.admin = some session) : token ≠ "" := by
  intro ht
  subst ht
  obtain ⟨denied, hdenied, hnone⟩ := guarded_empty env min route
  cases log with
  | nil =>
    have hstart := Machine.run_fresh hd _ (List.mem_of_getElem? hi) rfl
    cases hstart.trans hdenied
    cases hnone.symm.trans h
  | cons o rest =>
    obtain ⟨k, fate, cont, c, hstep⟩ := Machine.step_in_log [] hd hi
    have hstart := Machine.run_fresh hstep.reached _ (List.mem_of_getElem? hstep.thread) rfl
    cases hstart.trans hdenied

/-- The two reads of a request that was let in, and what they found. -/
theorem admittedAs_of_admin {i : Nat} {token : String} {min : AdminRole} {route : AdminRoute}
    {out : ConsoleOut} {log : List ConsoleOp} {u : String} {role : AdminRole}
    {d : Conf ConsoleRequest ConsoleOp ConsoleOp.Answer ConsoleOut AdminStore}
    (hcalm : ∀ mv ∈ moves, Calm mv)
    (hd : (sessionConsole env).run ⟨{ admins := t₀ }, []⟩ moves = some d)
    (hi : d.threads[i]? = some ⟨.guarded (some token) min route, .ret out, log⟩)
    (h : out.admin = some ⟨u, role⟩) :
    AdmittedAs env ⟨{ admins := t₀ }, []⟩ moves i (.guarded (some token) min route) token min u
      role := by
  have ht := token_of_admin hd hi h
  obtain ⟨k, hk, ⟨denied, hdenied, hnone⟩, hsome⟩ := guarded_program env ht min route
  cases log with
  | nil =>
    have hstart := Machine.run_fresh hd _ (List.mem_of_getElem? hi) rfl
    cases hstart.trans hk
  | cons o₁ rest =>
    cases rest with
    | nil =>
      obtain ⟨k₁, fate₁, cont₁, c₁, hget, hcont₁⟩ := Machine.last_step [] hd hi
      have hstart := Machine.run_fresh hget.reached _ (List.mem_of_getElem? hget.thread) rfl
      cases hstart.trans hk
      obtain rfl := hcalm _ (List.mem_of_getElem? hget.move) i fate₁ rfl
      change _ = k (.ok (c₁.world.sessions token)) at hcont₁
      cases hsession : c₁.world.sessions token with
      | none =>
        rw [hsession, hdenied] at hcont₁
        cases hcont₁
        cases hnone.symm.trans h
      | some session =>
        obtain ⟨k', hk', -⟩ := hsome session
        rw [hsession, hk'] at hcont₁
        cases hcont₁
    | cons o₂ rest =>
      obtain ⟨kRow, fate₂, cont₂, c₂, hrow⟩ := Machine.step_in_log [o₁] hd hi
      obtain ⟨kGet, fate₁, cont₁, c₁, hget, hcont₁⟩ :=
        Machine.last_step [] hrow.reached hrow.thread
      have hstart := Machine.run_fresh hget.reached _ (List.mem_of_getElem? hget.thread) rfl
      cases hstart.trans hk
      obtain ⟨hlt, hget⟩ := hget.of_take
      obtain rfl := hcalm _ (List.mem_of_getElem? hget.move) i fate₁ rfl
      obtain rfl := hcalm _ (List.mem_of_getElem? hrow.move) i fate₂ rfl
      change _ = k (.ok (c₁.world.sessions token)) at hcont₁
      cases hsession : c₁.world.sessions token with
      | none =>
        rw [hsession, hdenied] at hcont₁
        cases hcont₁
      | some session =>
        obtain ⟨k', hk', hverdict⟩ := hsome session
        rw [hsession, hk'] at hcont₁
        cases hcont₁
        obtain ⟨p, l, hp, -, hreturns⟩ := hrow.later hd
        rw [hi] at hp
        cases hp
        have hlet : out.admin = letIn min session.userId (c₂.world.admins.find session.userId) :=
          hreturns _ (hverdict (c₂.world.admins.find session.userId))
        obtain ⟨rfl, row, hfind, hdisabled, hrole, hrank⟩ := letIn_eq_some.mp (hlet.symm.trans h)
        exact ⟨kGet, kRow, c₁.world, c₂.world, row, hlt, hget.performs,
          liveAt_of_session hcalm hget.reached hsession, hrow.performs, hfind, hdisabled, hrole,
          hrank⟩

theorem admin_of_admittedAs {i : Nat} {token : String} {min : AdminRole} {route : AdminRoute}
    {out : ConsoleOut} {log : List ConsoleOp} {u : String} {role : AdminRole}
    {d : Conf ConsoleRequest ConsoleOp ConsoleOp.Answer ConsoleOut AdminStore}
    (hcalm : ∀ mv ∈ moves, Calm mv) (hfresh : FreshTokens moves)
    (hd : (sessionConsole env).run ⟨{ admins := t₀ }, []⟩ moves = some d)
    (hi : d.threads[i]? = some ⟨.guarded (some token) min route, .ret out, log⟩)
    (h : AdmittedAs env ⟨{ admins := t₀ }, []⟩ moves i (.guarded (some token) min route) token
      min u role) : out.admin = some ⟨u, role⟩ := by
  obtain ⟨kGet, kRow, sGet, sRow, row, hlt, hget, hlive, hrow, hfind, hdisabled, hrole, hrank⟩ := h
  obtain ⟨fate₁, cont₁, c₁, hget, -⟩ := hget
  obtain ⟨fate₂, cont₂, c₂, hrow, rfl⟩ := hrow
  obtain rfl := hcalm _ (List.mem_of_getElem? hget.move) i fate₁ rfl
  obtain rfl := hcalm _ (List.mem_of_getElem? hrow.move) i fate₂ rfl
  have hstart := Machine.run_fresh hget.reached _ (List.mem_of_getElem? hget.thread) rfl
  have ht : token ≠ "" := by
    intro ht
    subst ht
    obtain ⟨denied, hdenied, -⟩ := guarded_empty env min route
    cases hstart.trans hdenied
  obtain ⟨k, hk, -, hsome⟩ := guarded_program env ht min route
  cases hstart.trans hk
  obtain ⟨role', hsession⟩ := session_of_liveAt hcalm hfresh hd hget.reached hlive
  obtain ⟨k', hk', hverdict⟩ := hsome ⟨u, role'⟩
  -- Between its two reads the thread does not move.
  obtain ⟨p, l, hp, hsame, -⟩ := (hget.take hlt).later hrow.reached
  rw [hrow.thread] at hp
  simp only [List.nil_append, Option.some.injEq, Thread.mk.injEq, true_and, List.cons.injEq,
    List.nil_eq] at hp
  obtain ⟨rfl, rfl⟩ := hp
  have hcont : _ = cont₁ (.ok (c₁.world.sessions token)) := hsame rfl
  rw [hsession, hk'] at hcont
  cases hcont
  obtain ⟨p, l, hp, -, hreturns⟩ := hrow.later hd
  rw [hi] at hp
  cases hp
  have hlet : out.admin = letIn min u (c₂.world.admins.find u) :=
    hreturns _ (hverdict (c₂.world.admins.find u))
  rw [hlet]
  exact letIn_eq_some.mpr ⟨rfl, row, hfind, hdisabled, hrole, hrank⟩

/-- A request is let in as `u` with the role `role` exactly when its token was issued to `u`
and had not ended as its key was read, and when `u`'s row was read later it was enabled and
had that role, and the role ranks high enough. -/
theorem guarded_admin_iff (env : ConsoleEnv) (t₀ : AdminTable)
    (moves : List (Move ConsoleRequest Fate String))
    (d : Conf ConsoleRequest ConsoleOp ConsoleOp.Answer ConsoleOut AdminStore)
    (hd : (sessionConsole env).run ⟨{ admins := t₀ }, []⟩ moves = some d)
    (hcalm : ∀ mv ∈ moves, Calm mv) (hfresh : FreshTokens moves) (i : Nat) (token : String)
    (min : AdminRole) (route : AdminRoute) (out : ConsoleOut) (log : List ConsoleOp)
    (hi : d.threads[i]? = some ⟨.guarded (some token) min route, .ret out, log⟩) (u : String)
    (role : AdminRole) :
    out.admin = some ⟨u, role⟩ ↔
      AdmittedAs env ⟨{ admins := t₀ }, []⟩ moves i (.guarded (some token) min route) token min
        u role :=
  ⟨admittedAs_of_admin hcalm hd hi, admin_of_admittedAs hcalm hfresh hd hi⟩

end Live

namespace Sample

def consoleEnv : ConsoleEnv where
  argonVerify hash plain := hash = plain
  ADMIN_SESSION_TTL_SECONDS := 28800

def adaTable : AdminTable where
  rows := [{ id := "u1", email := "ada@example.org", name := "Ada", role := .owner,
             password_hash := "secret", disabled := false, created_at := 0, updated_at := 0 }]
  nodup := by decide
  emails := by decide

def adaToken : SessionToken where
  text := "AAAAAAAAAAAAAAAAAAAAAAAAAAAAAAAAAAAAAAAAAAA"
  length_eq := by decide

def adaLogin : LoginRequest where
  body := .obj [("email", .str " Ada@example.org"), ("password", .str "secret")]
  token := adaToken

def adaMoves : List (Move ConsoleRequest Fate String) :=
  [.spawn (.login adaLogin), .step 0 .done, .step 0 .done,
    .spawn (.guarded (some adaToken.text) .owner (.delete "u2")), .step 1 .done, .step 1 .done,
    .step 1 .done]

theorem guarded_admin_iff_ada :
    AdmittedAs consoleEnv ⟨{ admins := adaTable }, []⟩ adaMoves 1
      (.guarded (some adaToken.text) .owner (.delete "u2")) adaToken.text .owner "u1" .owner := by
  have hcalm : ∀ mv ∈ adaMoves, Calm mv := by
    intro mv hmv i fate he
    subst he
    have hfate : i = 0 ∧ fate = .done ∨ i = 1 ∧ fate = .done := by simpa [adaMoves] using hmv
    exact hfate.elim And.right And.right
  have hfresh : FreshTokens adaMoves := List.nodup_singleton _
  exact (guarded_admin_iff consoleEnv adaTable adaMoves _ rfl hcalm hfresh 1 adaToken.text .owner
    (.delete "u2") _ _ rfl "u1" .owner).mp rfl

end Sample

end OcrService
