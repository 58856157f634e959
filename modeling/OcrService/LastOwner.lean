import OcrService.Admins
import OcrService.Interaction.Rely

/-! Whether the registry keeps an active owner, over every interleaving of the requests
that change it: each relies on the check it has made until it writes. -/
namespace OcrService
open Interaction

namespace AdminTable
variable {t : AdminTable}

theorem countOwners_update {u : AdminUpdate} {r : AdminRow} (h : t.find u.id = some r) :
    (t.update u).countOwners + r.activeOwner.toNat =
      t.countOwners + (u.apply r).activeOwner.toNat :=
  Table.count_modify h u.apply u.id_apply AdminRow.activeOwner

theorem countOwners_delete {id : String} {r : AdminRow} (h : t.find id = some r) :
    (t.delete id).countOwners + r.activeOwner.toNat = t.countOwners :=
  Table.count_erase h AdminRow.activeOwner

theorem countOwners_update_none {u : AdminUpdate} (h : t.find u.id = none) :
    (t.update u).countOwners = t.countOwners :=
  congrArg (fun t => t.count AdminRow.activeOwner) (Table.modify_of_none h u.apply u.id_apply)

theorem countOwners_delete_none {id : String} (h : t.find id = none) :
    (t.delete id).countOwners = t.countOwners :=
  congrArg (fun t => t.count AdminRow.activeOwner) (Table.erase_of_none h)

theorem insert_ok {r : AdminRow} {t' : AdminTable} (h : t.insert r = .ok t') :
    ∃ hid : t.find r.id = none, t'.toTable = t.toTable.insert r hid := by
  rw [insert] at h
  by_cases hid : t.find r.id = none
  · by_cases hemail : t.selectByEmail r.email = none
    · rw [dif_pos hid, dif_pos hemail] at h
      cases h
      exact ⟨hid, rfl⟩
    · rw [dif_pos hid, dif_neg hemail] at h
      cases h
  · rw [dif_neg hid] at h
    cases h

theorem countOwners_insert {r : AdminRow} {t' : AdminTable} (h : t.insert r = .ok t') :
    t'.countOwners = t.countOwners + r.activeOwner.toNat := by
  obtain ⟨hid, hrows⟩ := insert_ok h
  rw [countOwners, hrows]
  exact Table.count_insert hid AdminRow.activeOwner

end AdminTable

theorem activeOwner_apply {u : AdminUpdate} {r : AdminRow} (h : r.activeOwner = true) :
    (u.apply r).activeOwner = !removesOwner (rowToRecord r) u.role u.disabled := by
  simp only [AdminRow.activeOwner, Bool.and_eq_true, decide_eq_true_eq, Bool.not_eq_true'] at h
  obtain ⟨hrole, hdisabled⟩ := h
  have hpatch : ∀ (role : Option AdminRole) (disabled : Option Bool),
      (decide (role.getD .owner = .owner) && !disabled.getD false) =
        !(role.any (· ≠ .owner) || disabled == some true) := by
    intro role disabled
    cases role with
    | none => cases disabled with
      | none => rfl
      | some d => cases d <;> rfl
    | some role => cases disabled with
      | none => cases role <;> rfl
      | some d => cases role <;> cases d <;> rfl
  simpa [AdminRow.activeOwner, AdminUpdate.apply, removesOwner, rowToRecord, hrole, hdisabled]
    using hpatch u.role u.disabled

def AdminTable.ActiveOwner (t : AdminTable) (id : String) : Prop :=
  ∃ r, t.find id = some r ∧ r.activeOwner = true

def AdminTable.SoleOwner (t : AdminTable) (id : String) : Prop :=
  t.countOwners = 1 ∧ t.ActiveOwner id

/-- The write demotes, disables or deletes the row, if it is an active owner. -/
def AdminOp.deprives (id : String) : AdminOp → Prop
  | update u => u.id = id ∧ (u.role.any (· ≠ .owner) || u.disabled == some true) = true
  | delete id' => id' = id
  | _ => False

/-- The operation leaves an active owner, if there is one. -/
def AdminOp.Spares (o : AdminOp) (s : AdminStore) : Prop :=
  ∀ id, o.deprives id → ¬s.admins.SoleOwner id

theorem removesOwner_of_active {r : AdminRow} (h : r.activeOwner = true) (role : Option AdminRole)
    (disabled : Option Bool) :
    removesOwner (rowToRecord r) role disabled =
      (role.any (· ≠ .owner) || disabled == some true) := by
  simp only [AdminRow.activeOwner, Bool.and_eq_true, decide_eq_true_eq] at h
  simp [removesOwner, rowToRecord, h.1]

section Statements
variable {s : AdminStore} {o : AdminOp} {id id' : String}

theorem exec_deprives (hid : s.admins.ActiveOwner id) (ho : o.deprives id) :
    (s.exec o).2.admins.countOwners + 1 = s.admins.countOwners ∧
      ¬(s.exec o).2.admins.ActiveOwner id := by
  obtain ⟨r, hfind, hr⟩ := hid
  cases o with
  | update u =>
    obtain ⟨rfl, hremoves⟩ := ho
    have happly : (u.apply r).activeOwner = false := by
      rw [activeOwner_apply hr, removesOwner_of_active hr, hremoves, Bool.not_true]
    have hcount := AdminTable.countOwners_update hfind
    rw [hr, happly, Bool.toNat_true, Bool.toNat_false] at hcount
    refine ⟨hcount, ?_⟩
    rintro ⟨r', hfind', hr'⟩
    change (s.admins.update u).find u.id = some r' at hfind'
    rw [AdminTable.update, Table.find_modify_self, hfind] at hfind'
    obtain rfl := Option.some.inj hfind'
    exact absurd (happly.symm.trans hr') Bool.false_ne_true
  | delete id' =>
    obtain rfl : id' = id := ho
    have hcount := AdminTable.countOwners_delete hfind
    rw [hr, Bool.toNat_true] at hcount
    refine ⟨hcount, ?_⟩
    rintro ⟨r', hfind', -⟩
    change (s.admins.delete id').find id' = some r' at hfind'
    rw [AdminTable.delete, Table.find_erase_self] at hfind'
    cases hfind'
  | sessionGet | selectById | selectByEmail | countOwners | insert => exact ho.elim

theorem exec_find (ho : o.deprives id) (hne : id' ≠ id) :
    (s.exec o).2.admins.find id' = s.admins.find id' := by
  cases o with
  | update u =>
    obtain ⟨rfl, -⟩ := ho
    exact Table.find_modify_ne _ hne u.apply u.id_apply
  | delete id'' =>
    obtain rfl : id'' = id := ho
    exact Table.find_erase_ne _ hne
  | sessionGet | selectById | selectByEmail | countOwners | insert => exact ho.elim

/-- What deprives no active owner takes none away. -/
theorem exec_countOwners_le (h : ∀ id, s.admins.ActiveOwner id → ¬o.deprives id) :
    s.admins.countOwners ≤ (s.exec o).2.admins.countOwners := by
  cases o with
  | update u =>
    change s.admins.countOwners ≤ (s.admins.update u).countOwners
    cases hfind : s.admins.find u.id with
    | none => exact (AdminTable.countOwners_update_none hfind).ge
    | some r =>
      have hcount := AdminTable.countOwners_update hfind
      cases hr : r.activeOwner with
      | false =>
        rw [hr, Bool.toNat_false] at hcount
        omega
      | true =>
        have hkeeps : (u.role.any (· ≠ .owner) || u.disabled == some true) = false :=
          Bool.eq_false_iff.mpr fun hremoves => h u.id ⟨r, hfind, hr⟩ ⟨rfl, hremoves⟩
        rw [activeOwner_apply hr, removesOwner_of_active hr, hkeeps, hr] at hcount
        exact (Nat.add_right_cancel hcount).ge
  | delete id =>
    change s.admins.countOwners ≤ (s.admins.delete id).countOwners
    cases hfind : s.admins.find id with
    | none => exact (AdminTable.countOwners_delete_none hfind).ge
    | some r =>
      have hr : r.activeOwner = false :=
        Bool.eq_false_iff.mpr fun hr => h id ⟨r, hfind, hr⟩ rfl
      have hcount := AdminTable.countOwners_delete hfind
      rw [hr, Bool.toNat_false] at hcount
      exact hcount.ge
  | insert r =>
    simp only [AdminStore.exec]
    cases hins : s.admins.insert r with
    | error message => exact le_rfl
    | ok t =>
      have hcount := AdminTable.countOwners_insert hins
      simp only [hcount]
      omega
  | sessionGet | selectById | selectByEmail | countOwners => exact le_rfl

theorem exec_owners_iff (s : AdminStore) (o : AdminOp) (hs : 0 < s.admins.countOwners) :
    0 < (s.exec o).2.admins.countOwners ↔ o.Spares s := by
  by_cases h : ∃ id, s.admins.ActiveOwner id ∧ o.deprives id
  · obtain ⟨id, hid, ho⟩ := h
    have hcount := (exec_deprives hid ho).1
    constructor
    · intro hafter id' _ hsole
      have hone := hsole.1
      omega
    · intro hspares
      by_contra hnone
      exact hspares id ho ⟨by omega, hid⟩
  · have hle := exec_countOwners_le fun id hid ho => h ⟨id, hid, ho⟩
    exact iff_of_true (hs.trans_le hle) fun id ho hsole => h ⟨id, hsole.2, ho⟩

end Statements

theorem handle_owners {s : AdminStore} {fate : Fate} {o : AdminOp}
    (hs : 0 < s.admins.countOwners) (ho : o.Spares s) :
    0 < (AdminStore.handle fate o s).2.admins.countOwners := by
  rw [AdminStore.handle, Fate.settle_state]
  split
  · exact (exec_owners_iff s o hs).mpr ho
  · exact hs

theorem exec_activeOwner (s : AdminStore) (o : AdminOp) {id : String}
    (h : (s.exec o).2.admins.ActiveOwner id) :
    s.admins.ActiveOwner id ∨
      (s.exec o).2.admins.countOwners = s.admins.countOwners + 1 := by
  obtain ⟨r', hfind, hactive⟩ := h
  cases o with
  | update u =>
    change (s.admins.update u).find id = some r' at hfind
    by_cases hid : id = u.id
    · subst hid
      cases hrow : s.admins.find u.id with
      | none =>
        rw [AdminTable.update, Table.find_modify_self, hrow] at hfind
        cases hfind
      | some r =>
        have hcount := AdminTable.countOwners_update hrow
        rw [AdminTable.update, Table.find_modify_self, hrow] at hfind
        obtain rfl := Option.some.inj hfind
        rw [hactive, Bool.toNat_true] at hcount
        cases hr : r.activeOwner with
        | true => exact .inl ⟨r, hrow, hr⟩
        | false =>
          rw [hr, Bool.toNat_false] at hcount
          exact .inr hcount
    · rw [AdminTable.update, Table.find_modify_ne _ hid] at hfind
      exact .inl ⟨r', hfind, hactive⟩
  | delete id' =>
    change (s.admins.delete id').find id = some r' at hfind
    by_cases hid : id = id'
    · subst hid
      rw [AdminTable.delete, Table.find_erase_self] at hfind
      cases hfind
    · rw [AdminTable.delete, Table.find_erase_ne _ hid] at hfind
      exact .inl ⟨r', hfind, hactive⟩
  | insert r =>
    simp only [AdminStore.exec] at hfind ⊢
    cases hins : s.admins.insert r with
    | error message =>
      rw [hins] at hfind
      exact .inl ⟨r', hfind, hactive⟩
    | ok t =>
      have hcount := AdminTable.countOwners_insert hins
      obtain ⟨hnone, hrows⟩ := AdminTable.insert_ok hins
      simp only [hins, hrows] at hfind
      by_cases hid : id = r.id
      · subst hid
        rw [Table.find_insert_self] at hfind
        obtain rfl := Option.some.inj hfind
        rw [hactive, Bool.toNat_true] at hcount
        exact .inr hcount
      · rw [Table.find_insert_ne _ hid] at hfind
        exact .inl ⟨r', hfind, hactive⟩
  | sessionGet | selectById | selectByEmail | countOwners => exact .inl ⟨r', hfind, hactive⟩

abbrev AdminConf := Conf AdminRequest AdminOp AdminOp.Answer AdminResponse AdminStore

abbrev AdminMove := Move AdminRequest Fate (String → Option AdminSession)

/-- One of two active owners is demoted, disabled or deleted by the move, while another request
has made its check and is about to do that to the other. -/
def CutsIn (c : AdminConf) : AdminMove → Prop
  | .step i fate => fate.applied = true ∧ c.world.admins.countOwners = 2 ∧
      ∃ o ∈ c.waiting i, ∃ j ≠ i, ∃ o' ∈ c.waiting j, ∃ id id', id ≠ id' ∧
        c.world.admins.ActiveOwner id ∧ o.deprives id ∧
        c.world.admins.ActiveOwner id' ∧ o'.deprives id'
  | .spawn _ | .env _ => False

/-- Only by taking an owner away can a statement spoil the check of another request. -/
theorem cutsIn_of_overtakes {c : AdminConf} {mv : AdminMove}
    (hc : 0 < c.world.admins.countOwners) (h : adminConsole.Overtakes AdminOp.Spares c mv) :
    CutsIn c mv := by
  cases mv with
  | spawn r => exact h.elim
  | env sessions => exact h.elim
  | step i fate =>
    obtain ⟨o, ho, j, hij, o', ho', hbefore, hafter⟩ := h
    change ¬o'.Spares (AdminStore.handle fate o c.world).2 at hafter
    rw [AdminStore.handle, Fate.settle_state] at hafter
    cases happlied : fate.applied with
    | false => exact absurd hbefore (by rwa [happlied] at hafter)
    | true =>
      rw [happlied, if_pos rfl] at hafter
      simp only [AdminOp.Spares, not_forall, not_not] at hafter
      obtain ⟨id', hdeprives', hone, hleft⟩ := hafter
      have hactive := exec_activeOwner c.world o hleft
      by_cases hremoves : ∃ id, c.world.admins.ActiveOwner id ∧ o.deprives id
      · obtain ⟨id, hid, hdeprives⟩ := hremoves
        obtain ⟨hcount, hgone⟩ := exec_deprives hid hdeprives
        refine ⟨happlied, by omega, o, ho, j, hij, o', ho', id, id', ?_, hid, hdeprives,
          hactive.resolve_right (by omega), hdeprives'⟩
        rintro rfl
        exact hgone hleft
      · have hle := exec_countOwners_le fun id hid ho => hremoves ⟨id, hid, ho⟩
        exact absurd ⟨by omega, hactive.resolve_right (by omega)⟩ (hbefore id' hdeprives')

abbrev Owned (s : AdminStore) : Prop := 0 < s.admins.countOwners

abbrev Guarded {α : Type} (p : AdminProg α) : Prop :=
  p.Careful AdminStore.handle Owned AdminOp.Spares

def AdminOp.reads : AdminOp → Bool
  | sessionGet _ | selectById _ | selectByEmail _ | countOwners => true
  | update _ | delete _ | insert _ => false

theorem spares_of_reads {o : AdminOp} (ho : o.reads = true) (s : AdminStore) : o.Spares s := by
  cases o with
  | update | delete | insert => cases ho
  | sessionGet | selectById | selectByEmail | countOwners => exact fun _ h => h.elim

theorem spares_of_many {s : AdminStore} (h : 1 < s.admins.countOwners) (o : AdminOp) :
    o.Spares s := by
  intro id _ hsole
  exact absurd hsole.1 (ne_of_gt h)

theorem adminAuth_uses (token : Option String) :
    (adminAuth token).Uses fun o => o.reads = true := by
  unfold adminAuth
  split
  · trivial
  · trivial
  · refine Prog.Uses.bind ⟨rfl, fun session => ?_⟩ fun answer => ?_
    · cases session with
      | error message => trivial
      | ok session =>
        cases session with
        | none => trivial
        | some session =>
          refine ⟨rfl, fun row => ?_⟩
          obtain message | row := row
          · trivial
          · cases row <;> trivial
    · obtain message | session := answer
      · trivial
      · cases session <;> trivial

theorem guarded_of_uses {α : Type} {p : AdminProg α}
    (hp : p.Uses fun o => ∀ s, o.Spares s) : Guarded p :=
  hp.careful (fun _ ho _ s hs => handle_owners hs (ho s)) fun _ ho => ho

theorem guarded_guarded {fn : AdminProg (Except String AdminResponse)} (hfn : Guarded fn)
    (token : Option String) (min : AdminRole) : Guarded (guarded token min fn) := by
  have hauth : Guarded (adminAuth token) :=
    guarded_of_uses ((adminAuth_uses token).mono fun o ho s => spares_of_reads ho s)
  refine hauth.bind ?_
  intro answer
  cases answer with
  | error response => exact .ret response
  | ok session =>
    cases hrole : requireMinRole min session with
    | error response =>
      simp only [hrole]
      exact .ret response
    | ok session' =>
      simp only [hrole]
      refine hfn.bind ?_
      intro answer
      cases answer <;> exact .ret _

theorem prepares_write {α : Type} {o : AdminOp} {k : o.Answer → AdminProg α}
    (hk : ∀ answer, ∃ a, k answer = .ret a) :
    (Prog.ask o k).Prepares AdminStore.handle Owned AdminOp.Spares := by
  intro fate s hs ho
  refine ⟨handle_owners hs ho, ?_⟩
  obtain ⟨a, ha⟩ := hk (AdminStore.handle fate o s).1
  rw [ha]
  exact ⟨True.intro, True.intro⟩

/-- Behind the check there is a second active owner, or none is taken away. -/
theorem prepares_unlessLastOwner {removes : Bool} {message : String} {o : AdminOp}
    {k : o.Answer → AdminProg (Except String AdminResponse)}
    (hk : ∀ answer, ∃ a, k answer = .ret a) :
    (unlessLastOwner removes message (.ask o k)).Prepares AdminStore.handle Owned
      AdminOp.Spares := by
  cases removes with
  | false => exact prepares_write hk
  | true =>
    intro fate s hs ho
    refine ⟨handle_owners hs ho, ?_⟩
    cases fate with
    | failed message | unanswered message => exact ⟨True.intro, True.intro⟩
    | done =>
      change (Prog.Ready _ (if s.admins.countOwners ≤ 1 then _ else _) _) ∧
        Prog.Prepares _ _ _ (if s.admins.countOwners ≤ 1 then _ else _)
      split
      · exact ⟨True.intro, True.intro⟩
      · rename_i hmany
        exact ⟨spares_of_many (not_le.mp hmany) o, prepares_write hk⟩

theorem ready_unlessLastOwner {removes : Bool} {message : String} {o : AdminOp}
    {k : o.Answer → AdminProg (Except String AdminResponse)} {s : AdminStore}
    (ho : removes = false → o.Spares s) :
    (unlessLastOwner removes message (.ask o k)).Ready AdminOp.Spares s := by
  cases removes with
  | false => exact ho rfl
  | true => exact spares_of_reads rfl s

/-- A handler that reads its target, makes the check if the write would take an owner away from
it, and writes. -/
theorem guarded_target {id message : String} (removes : AdminRow → Bool) {o : AdminOp}
    {k : o.Answer → AdminProg (Except String AdminResponse)}
    {fn : Except String (Option AdminRow) → AdminProg (Except String AdminResponse)}
    (hk : ∀ answer, ∃ a, k answer = .ret a) (herror : ∀ message, ∃ a, fn (.error message) = .ret a)
    (hnone : ∃ a, fn (.ok none) = .ret a)
    (hsome : ∀ row, fn (.ok (some row)) = unlessLastOwner (removes row) message (.ask o k))
    (hremoves : ∀ s row, s.admins.find id = some row → removes row = false → o.Spares s) :
    Guarded (.ask (.selectById id) fn) := by
  refine ⟨?_, fun s _ => spares_of_reads rfl s⟩
  intro fate s hs ho
  refine ⟨handle_owners hs ho, ?_⟩
  have hfailed (message : String) (s' : AdminStore) :
      (fn (.error message)).Ready AdminOp.Spares s' ∧
      (fn (.error message)).Prepares AdminStore.handle Owned AdminOp.Spares := by
    obtain ⟨a, ha⟩ := herror message
    rw [ha]
    exact ⟨True.intro, True.intro⟩
  cases fate with
  | failed message | unanswered message => exact hfailed message _
  | done =>
    change (fn (.ok (s.admins.find id))).Ready AdminOp.Spares s ∧
      (fn (.ok (s.admins.find id))).Prepares AdminStore.handle Owned AdminOp.Spares
    cases hfind : s.admins.find id with
    | none =>
      obtain ⟨a, ha⟩ := hnone
      rw [ha]
      exact ⟨True.intro, True.intro⟩
    | some row =>
      rw [hsome]
      exact ⟨ready_unlessLastOwner (hremoves s row hfind), prepares_unlessLastOwner hk⟩

theorem guarded_patchAdmin (draws : Draws) (id : String) (parsed : Parsed UpdateAdminInput) :
    Guarded (patchAdmin draws id parsed) := by
  cases parsed with
  | error message => exact .ret _
  | ok patch =>
    refine guarded_target (fun row =>
      removesOwner (rowToRecord row) patch.role patch.disabled) ?_ (fun _ => ⟨_, rfl⟩) ⟨_, rfl⟩
      (fun _ => rfl) ?_
    · intro answer
      cases answer <;> exact ⟨_, rfl⟩
    · intro s row hfind hkeeps id' hdeprives hsole
      obtain ⟨rfl, htakes⟩ := hdeprives
      obtain ⟨-, r, hr, hactive⟩ := hsole
      obtain rfl := Option.some.inj (hfind.symm.trans hr)
      rw [removesOwner_of_active hactive] at hkeeps
      exact absurd (hkeeps.symm.trans htakes) (by simp)

theorem guarded_removeAdmin (id : String) : Guarded (removeAdmin id) := by
  refine guarded_target (fun row => (rowToRecord row).role = .owner) ?_
    (fun _ => ⟨_, rfl⟩) ⟨_, rfl⟩ (fun _ => rfl) ?_
  · intro answer
    cases answer <;> exact ⟨_, rfl⟩
  · intro s row hfind hkeeps id' hdeprives hsole
    obtain rfl : id = id' := hdeprives
    obtain ⟨-, r, hr, hactive⟩ := hsole
    obtain rfl := Option.some.inj (hfind.symm.trans hr)
    simp only [AdminRow.activeOwner, Bool.and_eq_true, decide_eq_true_eq] at hactive
    simp [rowToRecord, hactive.1] at hkeeps

theorem guarded_postAdmin (draws : Draws) (parsed : Parsed CreateAdminInput) :
    Guarded (postAdmin draws parsed) := by
  refine guarded_of_uses ?_
  cases parsed with
  | error message => trivial
  | ok input =>
    refine Prog.Uses.bind ⟨fun _ _ h => h.elim, fun found => ?_⟩
      fun answer => by cases answer <;> trivial
    obtain message | found := found
    · trivial
    · cases found with
      | some row => trivial
      | none => exact ⟨fun _ _ h => h.elim, fun inserted => by cases inserted <;> trivial⟩

theorem program_guarded (r : AdminRequest) : Guarded r.program := by
  cases r with
  | post token draws parsed => exact guarded_guarded (guarded_postAdmin draws parsed) token .owner
  | patch token draws id parsed =>
    exact guarded_guarded (guarded_patchAdmin draws id parsed) token .owner
  | delete token id => exact guarded_guarded (guarded_removeAdmin id) token .owner

/-- Whoever cuts in between the check and the write of another request, that write may leave no
active owner at all. -/
theorem owners_lost {c c' : AdminConf} {mv : AdminMove} (hn : adminConsole.next c mv = some c')
    (hmv : CutsIn c mv) :
    ∃ j c'', adminConsole.next c' (.step j .done) = some c'' ∧
      c''.world.admins.countOwners = 0 := by
  cases mv with
  | spawn r => exact hmv.elim
  | env sessions => exact hmv.elim
  | step i fate =>
    obtain ⟨happlied, htwo, o, ho, j, hij, o', ho', id, id', hne, htargets⟩ := hmv
    obtain ⟨hid, hdeprives, hid', hdeprives'⟩ := htargets
    obtain ⟨r, o₁, k, log, hget, rfl⟩ := adminConsole.next_step hn
    rw [Conf.waiting_of_get hget] at ho
    obtain rfl := Option.some.inj ho
    obtain ⟨r', k', log', hget'⟩ := Conf.get_of_waiting ho'
    have hworld : (AdminStore.handle fate o₁ c.world).2 = (c.world.exec o₁).2 := by
      rw [AdminStore.handle, Fate.settle_state, happlied, if_pos rfl]
    have hcount := (exec_deprives hid hdeprives).1
    have hleft : (AdminStore.handle fate o₁ c.world).2.admins.ActiveOwner id' := by
      rw [hworld, AdminTable.ActiveOwner, exec_find hdeprives hne.symm]
      exact hid'
    have hlost := (exec_deprives hleft hdeprives').1
    rw [hworld] at hlost
    have hnext (threads) (h : threads[j]? = some ⟨r', .ask o' k', log'⟩) :
        (adminConsole.next ⟨(AdminStore.handle fate o₁ c.world).2, threads⟩ (.step j .done)).map
          (fun c'' => c''.world) =
            some ((AdminStore.handle fate o₁ c.world).2.exec o').2 := by
      simp only [Machine.next, h]
      rfl
    obtain ⟨c'', hc'', hworld'⟩ := Option.map_eq_some_iff.mp
      (hnext _ ((List.getElem?_set_ne (Ne.symm hij)).trans hget'))
    refine ⟨j, c'', hc'', ?_⟩
    rw [hworld', hworld]
    omega

/-- Whatever requests are interleaved however, every table of the run has an active owner as
long as no request cuts in on another; after one that does, the other may leave none. -/
theorem owners_remain {s : AdminStore} (hs : 0 < s.admins.countOwners) :
    (∀ moves, adminConsole.Always (fun c mv => ¬CutsIn c mv) ⟨s, []⟩ moves →
      adminConsole.Visits (fun c => 0 < c.world.admins.countOwners) ⟨s, []⟩ moves) ∧
    ∀ moves c mv c', adminConsole.run ⟨s, []⟩ moves = some c → adminConsole.next c mv = some c' →
      CutsIn c mv → ∃ j c'', adminConsole.next c' (.step j .done) = some c'' ∧
        c''.world.admins.countOwners = 0 := by
  refine ⟨?_, fun moves c mv c' _ hn hmv => owners_lost hn hmv⟩
  intro moves hmoves pre post he c hc
  have hvisits : adminConsole.Visits (fun c => Owned c.world ∧ ∀ t ∈ c.threads,
      t.prog.Ready AdminOp.Spares c.world ∧
      t.prog.Prepares AdminStore.handle Owned AdminOp.Spares) ⟨s, []⟩ moves := by
    refine Machine.run_prepared (I := Owned) (J := AdminOp.Spares)
      (fun _ _ hs => ⟨hs, fun _ ho => ho⟩) program_guarded hs ?_
    intro pre mv post he c hc howned hovertakes
    exact hmoves pre mv post he c hc (cutsIn_of_overtakes howned hovertakes)
  exact (hvisits pre post he c hc).1

namespace Sample

def owner (id : String) : AdminRow where
  id := id
  email := id ++ "@ocr.test"
  name := id
  role := .owner
  password_hash := "argon"
  disabled := false
  created_at := 0
  updated_at := 0

def twoOwners : AdminStore where
  sessions
    | "a" => some ⟨"a", .owner⟩
    | "b" => some ⟨"b", .owner⟩
    | _ => none
  admins := { rows := [owner "a", owner "b"], nodup := by decide, emails := by decide }

def draws : Draws := ⟨1, "c", fun plain => plain⟩

def demotes (by_ target : String) : AdminRequest :=
  .patch (some by_) draws target (.ok { role := some .manager })

/-- Both requests read the target and the count before either writes. -/
def mutualDemotion : List AdminMove :=
  [.spawn (demotes "a" "b"), .spawn (demotes "b" "a")] ++
    List.replicate 4 (.step 0 .done) ++ List.replicate 4 (.step 1 .done) ++
    [.step 0 .done, .step 1 .done]

end Sample

theorem owners_remain_twoOwners :
    (∀ moves, adminConsole.Always (fun c mv => ¬CutsIn c mv) ⟨Sample.twoOwners, []⟩ moves →
      adminConsole.Visits (fun c => 0 < c.world.admins.countOwners) ⟨Sample.twoOwners, []⟩ moves) ∧
    ∀ moves c mv c', adminConsole.run ⟨Sample.twoOwners, []⟩ moves = some c →
      adminConsole.next c mv = some c' → CutsIn c mv →
      ∃ j c'', adminConsole.next c' (.step j .done) = some c'' ∧
        c''.world.admins.countOwners = 0 :=
  owners_remain (by decide)

/-- Two owners demote each other at the same time, and no owner is left. -/
theorem mutualDemotion_leaves_none :
    0 < Sample.twoOwners.admins.countOwners ∧
      (adminConsole.run ⟨Sample.twoOwners, []⟩ Sample.mutualDemotion).map
        (fun c => c.world.admins.countOwners) = some 0 := by
  decide

end OcrService
