import OcrService.LastOwner

/-! What the check for the last owner refuses (`http/admin/routes.ts`), against what would
leave the registry without an active owner, for one request that is handled alone. -/
namespace OcrService
open Interaction

def AdminStore.alone {α : Type} (p : AdminProg α) (s : AdminStore) : α × AdminStore :=
  p.eval (AdminStore.handle .done) s

def patchUpdate (draws : Draws) (id : String) (patch : UpdateAdminInput) : AdminUpdate where
  id := id
  name := patch.name
  role := patch.role
  disabled := patch.disabled
  passwordHash := passwordHash draws patch.password
  updatedAt := draws.now

def patchedRows (t : AdminTable) (u : AdminUpdate) : List AdminRow :=
  t.rows.map fun r => if r.id = u.id then u.apply r else r

def remainingRows (t : AdminTable) (id : String) : List AdminRow :=
  t.rows.filter fun r => r.id ≠ id

def AdminResponse.lastOwner (response : AdminResponse) : Prop :=
  ∃ message, response.body = .error "LAST_OWNER" message

/-- The request is refused exactly when `rows` have no active owner, and otherwise `rows`
are the table it leaves. -/
structure RefusedExactly (s : AdminStore) (r : AdminRequest) (rows : List AdminRow) : Prop where
  refused : (s.alone r.program).1.lastOwner ↔ ∀ row ∈ rows, row.activeOwner = false
  applied : ¬(s.alone r.program).1.lastOwner → (s.alone r.program).2.admins.rows = rows

structure SignedInOwner (s : AdminStore) (token : String) : Prop where
  token_ne : token ≠ ""
  found : ∃ session caller, s.sessions token = some session ∧
    s.admins.find session.userId = some caller ∧ caller.activeOwner = true

/-- The target is an owner who is disabled already, and one active owner is left. -/
def DisabledBesideOne (s : AdminStore) (target : AdminRow) : Prop :=
  target.role = .owner ∧ target.disabled = true ∧ s.admins.countOwners = 1

section Guard
variable {s : AdminStore} {token : String}

theorem alone_adminAuth (h : SignedInOwner s token) :
    ∃ session : AdminSession, session.role = .owner ∧
      s.alone (adminAuth (some token)) = (.ok session, s) := by
  obtain ⟨session, caller, hsession, hcaller, hactive⟩ := h.found
  simp only [AdminRow.activeOwner, Bool.and_eq_true, decide_eq_true_eq,
    Bool.not_eq_true'] at hactive
  refine ⟨⟨session.userId, caller.role⟩, hactive.1, ?_⟩
  unfold adminAuth
  split
  · rename_i hnone
    cases hnone
  · rename_i hempty
    exact absurd (Option.some.inj hempty) h.token_ne
  · rename_i hsome
    cases hsome
    simp only [AdminStore.alone, resolveSession, Prog.eval_bind, Prog.eval_ask,
      AdminStore.handle, Fate.settle, AdminStore.exec, hsession, hcaller, Prog.eval_ret,
      hactive.2, Bool.false_eq_true, if_false]

theorem alone_guarded_owner (h : SignedInOwner s token)
    (fn : AdminProg (Except String AdminResponse)) :
    s.alone (guarded (some token) .owner fn) = s.alone (handler fn) := by
  obtain ⟨session, hrole, hauth⟩ := alone_adminAuth h
  rw [AdminStore.alone] at hauth
  have hmin : requireMinRole .owner session = .ok session := by
    rw [requireMinRole, hrole]
    rfl
  simp only [AdminStore.alone, guarded, Prog.eval_bind, hauth, hmin]

theorem alone_handler {fn : AdminProg (Except String AdminResponse)} {refuse : Prop}
    [Decidable refuse] {refusal response : AdminResponse} {s' : AdminStore}
    (h : s.alone fn = if refuse then (.ok refusal, s) else (.ok response, s')) :
    s.alone (handler fn) = if refuse then (refusal, s) else (response, s') := by
  rw [AdminStore.alone] at h
  simp only [AdminStore.alone, handler, Prog.eval_bind, h]
  by_cases hrefuse : refuse
  · simp only [if_pos hrefuse, Prog.eval_ret]
  · simp only [if_neg hrefuse, Prog.eval_ret]

theorem alone_unlessLastOwner_eq (removes : Bool) (message : String)
    (next : AdminProg (Except String AdminResponse)) :
    s.alone (unlessLastOwner removes message next) =
      if removes = true ∧ s.admins.countOwners ≤ 1 then
        (.ok (sendError 400 "LAST_OWNER" message), s)
      else s.alone next := by
  cases removes with
  | false => simp [unlessLastOwner]
  | true =>
    by_cases hn : s.admins.countOwners ≤ 1
    · simp [unlessLastOwner, AdminStore.alone, AdminStore.handle, Fate.settle, AdminStore.exec, hn]
    · simp [unlessLastOwner, AdminStore.alone, AdminStore.handle, Fate.settle, AdminStore.exec, hn]

theorem alone_patchAdmin_eq (draws : Draws) {id : String} {target : AdminRow}
    (patch : UpdateAdminInput) (hfind : s.admins.find id = some target) :
    s.alone (patchAdmin draws id (.ok patch)) =
      if removesOwner (rowToRecord target) patch.role patch.disabled = true ∧
          s.admins.countOwners ≤ 1 then
        (.ok (sendError 400 "LAST_OWNER" "Cannot demote or disable the last owner"), s)
      else
        (.ok ⟨200, .admin (((s.admins.update (patchUpdate draws id patch)).find id).map
          fun r => toView (rowToRecord r))⟩,
          { s with admins := s.admins.update (patchUpdate draws id patch) }) := by
  simp only [AdminStore.alone, patchAdmin, Prog.eval_ask, AdminStore.handle, Fate.settle,
    AdminStore.exec, hfind]
  exact alone_unlessLastOwner_eq _ _ _

theorem alone_removeAdmin_eq {id : String} {target : AdminRow}
    (hfind : s.admins.find id = some target) :
    s.alone (removeAdmin id) =
      if decide (target.role = .owner) = true ∧ s.admins.countOwners ≤ 1 then
        (.ok (sendError 400 "LAST_OWNER" "Cannot delete the last owner"), s)
      else (.ok ⟨200, .ok⟩, { s with admins := s.admins.delete id }) := by
  simp only [AdminStore.alone, removeAdmin, Prog.eval_ask, AdminStore.handle, Fate.settle,
    AdminStore.exec, hfind]
  exact alone_unlessLastOwner_eq _ _ _

theorem sendError_lastOwner (message : String) :
    (sendError 400 "LAST_OWNER" message).lastOwner := ⟨message, rfl⟩

/-- Refusal is exact when the condition it rests on is. -/
theorem refusedExactly_iff {r : AdminRequest} {refuse : Prop} [Decidable refuse] {message : String}
    {response : AdminResponse} {s' : AdminStore}
    (halone : s.alone r.program =
      if refuse then (sendError 400 "LAST_OWNER" message, s) else (response, s'))
    (hother : ¬response.lastOwner) :
    RefusedExactly s r s'.admins.rows ↔ (refuse ↔ s'.admins.countOwners = 0) := by
  have hnone : (∀ row ∈ s'.admins.rows, row.activeOwner = false) ↔ s'.admins.countOwners = 0 := by
    simp [AdminTable.countOwners, Table.count, List.countP_eq_zero]
  by_cases hrefuse : refuse
  · rw [if_pos hrefuse] at halone
    have hresponse : (s.alone r.program).1.lastOwner := by
      rw [halone]
      exact sendError_lastOwner message
    constructor
    · intro h
      exact ⟨fun _ => hnone.mp (h.refused.mp hresponse), fun _ => hrefuse⟩
    · intro h
      exact ⟨⟨fun _ => hnone.mpr (h.mp hrefuse), fun _ => hresponse⟩,
        fun hnot => absurd hresponse hnot⟩
  · rw [if_neg hrefuse] at halone
    have hresponse : ¬(s.alone r.program).1.lastOwner := by
      rwa [halone]
    constructor
    · intro h
      exact ⟨fun hr => absurd hr hrefuse, fun hzero => absurd (h.refused.mpr (hnone.mpr hzero))
        hresponse⟩
    · intro h
      exact ⟨⟨fun hlast => absurd hlast hresponse, fun hzero =>
        absurd (h.mpr (hnone.mp hzero)) hrefuse⟩, fun _ => by rw [halone]⟩

theorem exact_iff {target : AdminRow} {removes : Bool} {n n' : Nat} (hn : 0 < n)
    (howner : removes = true → target.role = .owner)
    (hactive : target.activeOwner = true → n' + removes.toNat = n)
    (hother : target.activeOwner = false → n ≤ n') :
    ((removes = true ∧ n ≤ 1) ↔ n' = 0) ↔
      ¬(target.role = .owner ∧ target.disabled = true ∧ removes = true ∧ n = 1) := by
  cases htarget : target.activeOwner with
  | true =>
    have hsum := hactive htarget
    have henabled : target.disabled = false := by
      simp only [AdminRow.activeOwner, Bool.and_eq_true, Bool.not_eq_true'] at htarget
      exact htarget.2
    cases removes with
    | true =>
      simp only [Bool.toNat_true] at hsum
      simp only [henabled, Bool.false_eq_true, true_and, false_and, and_false, not_false_eq_true,
        iff_true]
      omega
    | false =>
      simp only [Bool.toNat_false] at hsum
      simp only [henabled, Bool.false_eq_true, false_and, and_false, not_false_eq_true, iff_true,
        false_iff]
      omega
  | false =>
    have hle := hother htarget
    cases removes with
    | true =>
      have hrole := howner rfl
      have hdisabled : target.disabled = true := by
        simpa [AdminRow.activeOwner, hrole] using htarget
      simp only [hrole, hdisabled, true_and]
      omega
    | false =>
      simp only [Bool.false_eq_true, false_and, and_false, not_false_eq_true, iff_true, false_iff]
      omega

theorem SignedInOwner.countOwners_pos (h : SignedInOwner s token) : 0 < s.admins.countOwners := by
  obtain ⟨session, caller, -, hcaller, hactive⟩ := h.found
  exact List.countP_pos_iff.mpr ⟨caller, List.mem_of_find?_eq_some hcaller, hactive⟩

theorem patch_exact_iff (h : SignedInOwner s token) (draws : Draws) {id : String}
    {target : AdminRow} (patch : UpdateAdminInput) (hfind : s.admins.find id = some target) :
    RefusedExactly s (.patch (some token) draws id (.ok patch))
        (patchedRows s.admins (patchUpdate draws id patch)) ↔
      ¬(DisabledBesideOne s target ∧
        removesOwner (rowToRecord target) patch.role patch.disabled = true) := by
  have halone := (alone_guarded_owner h (patchAdmin draws id (.ok patch))).trans
    (alone_handler (alone_patchAdmin_eq draws patch hfind))
  have hother : ¬AdminResponse.lastOwner ⟨200, .admin
      (((s.admins.update (patchUpdate draws id patch)).find id).map
        fun r => toView (rowToRecord r))⟩ := fun ⟨_, hbody⟩ => nomatch hbody
  have hcount := AdminTable.countOwners_update (u := patchUpdate draws id patch) hfind
  refine (refusedExactly_iff (r := .patch (some token) draws id (.ok patch)) halone hother).trans
    ((@exact_iff target _ _ _ h.countOwners_pos ?_ ?_ ?_).trans ?_)
  · intro hremoves
    simp only [removesOwner, Bool.and_eq_true, decide_eq_true_eq] at hremoves
    exact hremoves.1
  · intro hactive
    rw [activeOwner_apply hactive, hactive, Bool.toNat_true] at hcount
    simp only [patchUpdate] at hcount ⊢
    cases hp : removesOwner (rowToRecord target) patch.role patch.disabled with
    | false | true =>
      simp only [hp, Bool.not_false, Bool.not_true, Bool.toNat_false, Bool.toNat_true] at hcount ⊢
      omega
  · intro hinactive
    rw [hinactive, Bool.toNat_false] at hcount
    simp only
    omega
  · simp only [DisabledBesideOne]
    grind

theorem delete_exact_iff (h : SignedInOwner s token) {id : String} {target : AdminRow}
    (hfind : s.admins.find id = some target) :
    RefusedExactly s (.delete (some token) id) (remainingRows s.admins id) ↔
      ¬DisabledBesideOne s target := by
  have halone := (alone_guarded_owner h (removeAdmin id)).trans
    (alone_handler (alone_removeAdmin_eq hfind))
  have hother : ¬AdminResponse.lastOwner ⟨200, .ok⟩ := fun ⟨_, hbody⟩ => nomatch hbody
  have hcount := AdminTable.countOwners_delete hfind
  refine (refusedExactly_iff (r := .delete (some token) id) halone hother).trans
    ((@exact_iff target _ _ _ h.countOwners_pos ?_ ?_ ?_).trans ?_)
  · intro howner
    simpa using howner
  · intro hactive
    have howner : target.role = .owner := by
      simp only [AdminRow.activeOwner, Bool.and_eq_true, decide_eq_true_eq] at hactive
      exact hactive.1
    rw [hactive, Bool.toNat_true] at hcount
    simpa [howner] using hcount
  · intro hinactive
    rw [hinactive, Bool.toNat_false] at hcount
    simp only
    omega
  · simp only [DisabledBesideOne, decide_eq_true_eq]
    grind

end Guard

/-- Exactly which patches and deletions are refused for the last owner as they should be, and
applied to the one row otherwise. -/
theorem lastOwner_refused_exactly_iff {s : AdminStore} {token : String}
    (h : SignedInOwner s token) {id : String} {target : AdminRow}
    (hfind : s.admins.find id = some target) :
    (∀ (draws : Draws) (patch : UpdateAdminInput),
      RefusedExactly s (.patch (some token) draws id (.ok patch))
          (patchedRows s.admins (patchUpdate draws id patch)) ↔
        ¬(DisabledBesideOne s target ∧
          (patch.role.any (· ≠ .owner) || patch.disabled == some true) = true)) ∧
    (RefusedExactly s (.delete (some token) id) (remainingRows s.admins id) ↔
      ¬DisabledBesideOne s target) := by
  refine ⟨fun draws patch => (patch_exact_iff h draws patch hfind).trans ?_,
    delete_exact_iff h hfind⟩
  refine not_congr (and_congr_right fun hbeside => ?_)
  have hrole : (rowToRecord target).role = .owner := hbeside.1
  simp [removesOwner, hrole]

namespace Sample

def disabledBesideOne : AdminStore where
  sessions := fun token => if token = "a" then some ⟨"a", .owner⟩ else none
  admins :=
    { rows := [owner "a", { owner "b" with disabled := true }]
      nodup := by decide
      emails := by decide }

theorem signedInOwner : SignedInOwner disabledBesideOne "a" where
  token_ne := by decide
  found := ⟨⟨"a", .owner⟩, owner "a", rfl, rfl, rfl⟩

end Sample

theorem lastOwner_refused_exactly_iff_sole :
    RefusedExactly Sample.disabledBesideOne (.delete (some "a") "a")
      (remainingRows Sample.disabledBesideOne.admins "a") := by
  have hfind : Sample.disabledBesideOne.admins.find "a" = some (Sample.owner "a") := rfl
  refine (lastOwner_refused_exactly_iff Sample.signedInOwner hfind).2.mpr fun h => ?_
  exact absurd h.2.1 (by decide)

/-- The only active owner cannot delete a disabled one, nor make a manager of them, although
the active owner would remain. -/
theorem disabled_owner_is_kept :
    (Sample.disabledBesideOne.alone (AdminRequest.delete (some "a") "b").program).1.body =
        .error "LAST_OWNER" "Cannot delete the last owner" ∧
      (Sample.disabledBesideOne.alone (Sample.demotes "a" "b").program).1.body =
        .error "LAST_OWNER" "Cannot demote or disable the last owner" ∧
      ¬RefusedExactly Sample.disabledBesideOne (.delete (some "a") "b")
        (remainingRows Sample.disabledBesideOne.admins "b") ∧
      ¬RefusedExactly Sample.disabledBesideOne (Sample.demotes "a" "b")
        (patchedRows Sample.disabledBesideOne.admins
          (patchUpdate Sample.draws "b" { role := some .manager })) := by
  have hdeleted : (Sample.disabledBesideOne.alone
      (AdminRequest.delete (some "a") "b").program).1.body =
      .error "LAST_OWNER" "Cannot delete the last owner" := rfl
  have hdemoted : (Sample.disabledBesideOne.alone (Sample.demotes "a" "b").program).1.body =
      .error "LAST_OWNER" "Cannot demote or disable the last owner" := rfl
  have hactive : (Sample.owner "a").activeOwner = true := rfl
  refine ⟨hdeleted, hdemoted, fun h => ?_, fun h => ?_⟩
  · have hleft := h.refused.mp ⟨_, hdeleted⟩ (Sample.owner "a") (by decide)
    rw [hactive] at hleft
    cases hleft
  · have hleft := h.refused.mp ⟨_, hdemoted⟩ (Sample.owner "a") (by decide)
    rw [hactive] at hleft
    cases hleft

end OcrService
