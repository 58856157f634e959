import OcrService.PipelineSpec
import Mathlib.Algebra.BigOperators.Group.List.Basic
import Mathlib.Algebra.GroupWithZero.Nat
import Mathlib.Data.List.Perm.Basic

/-! The usage table (`observability/usage.ts`) as a ledger: what it holds for a tenant
together with what is still on its way there. -/
namespace OcrService
open Interaction

structure Column where
  read : UsageRow → Nat
  delta : UsageUpsert → Nat
  inserts : ∀ u, read (UsageUpsert.apply u none) = delta u
  updates : ∀ u row, read (UsageUpsert.apply u (some row)) = read row + delta u

namespace Column

def requests : Column := ⟨UsageRow.requests, fun _ => 1, fun _ => rfl, fun _ _ => rfl⟩

def errors : Column := ⟨UsageRow.errors, UsageUpsert.errorsDelta, fun _ => rfl, fun _ _ => rfl⟩

def tokens : Column := ⟨UsageRow.tokens, UsageUpsert.tokensDelta, fun _ => rfl, fun _ _ => rfl⟩

def addsTo (col : Column) (tenantId : String) (u : UsageUpsert) : Nat :=
  if u.tenantId = tenantId then col.delta u else 0

end Column

namespace World

def recorded (w : World) (col : Column) (tenantId : String) : Nat :=
  (w.usage tenantId).elim 0 col.read

def pending (w : World) (col : Column) (tenantId : String) : Nat :=
  (w.inflight.map (col.addsTo tenantId)).sum

def ledger (w : World) (col : Column) (tenantId : String) : Nat :=
  w.recorded col tenantId + w.pending col tenantId

theorem ledger_land (w : World) (i : Nat) (col : Column) (tenantId : String) :
    (w.land i).ledger col tenantId = w.ledger col tenantId := by
  cases hu : w.inflight[i]? with
  | none => rw [land, hu]
  | some u =>
    obtain ⟨hi, hget⟩ := List.getElem?_eq_some_iff.mp hu
    have hperm : (u :: w.inflight.eraseIdx i).Perm w.inflight :=
      hget ▸ List.getElem_cons_eraseIdx_perm hi
    have hpending : w.pending col tenantId =
        col.addsTo tenantId u + ((w.inflight.eraseIdx i).map (col.addsTo tenantId)).sum := by
      have hsum := (hperm.map (col.addsTo tenantId)).sum_eq
      rw [List.map_cons, List.sum_cons] at hsum
      exact hsum.symm
    rw [land, hu]
    simp only [ledger, hpending]
    simp only [recorded, pending, Column.addsTo]
    by_cases ht : u.tenantId = tenantId
    · subst ht
      rw [Function.update_self, if_pos rfl]
      cases hrow : w.usage u.tenantId with
      | none => simp [col.inserts]
      | some row => simp [col.updates, Nat.add_assoc]
    · rw [Function.update_of_ne (Ne.symm ht), if_neg ht, Nat.zero_add]

@[simp] theorem ledger_drop (w : World) (keys : String → Bool) (col : Column) (tenantId : String) :
    (w.drop keys).ledger col tenantId = w.ledger col tenantId := rfl

end World

def ServiceOp.upsert? : ServiceOp → Option UsageUpsert
  | .upsertUsage tenantId errorsDelta tokensDelta => some ⟨tenantId, errorsDelta, tokensDelta⟩
  | _ => none

def ServiceOp.sample? : ServiceOp → Option MetricSample
  | .metric sample => some sample
  | _ => none

/-- Only issuing an upsert changes the ledger. -/
theorem World.ledger_handle (env : Surroundings) (o : ServiceOp) (w : World) (col : Column)
    (tenantId : String) :
    (World.handle env o w).2.ledger col tenantId =
      w.ledger col tenantId + o.upsert?.elim 0 (col.addsTo tenantId) := by
  cases o with
  | upsertUsage tenant errorsDelta tokensDelta =>
    simp [World.handle, World.ledger, World.recorded, World.pending, ServiceOp.upsert?,
      Nat.add_assoc]
  | cacheSet key doc ttl =>
    obtain ⟨cache, cacheWrites, hset⟩ := w.cacheSet_eq env key doc ttl
    rw [hset]
    rfl
  | enqueue data =>
    obtain ⟨jobs, hjobs⟩ := w.enqueue_eq env data
    rw [hjobs]
    rfl
  | cacheGet | recognize | metric => rfl

theorem World.samples_handle (env : Surroundings) (o : ServiceOp) (w : World) :
    (World.handle env o w).2.samples = w.samples ++ o.sample?.toList := by
  cases o with
  | metric sample => rfl
  | cacheSet key doc ttl =>
    obtain ⟨cache, cacheWrites, hset⟩ := w.cacheSet_eq env key doc ttl
    simp [hset, ServiceOp.sample?]
  | enqueue data =>
    obtain ⟨jobs, hjobs⟩ := w.enqueue_eq env data
    simp [hjobs, ServiceOp.sample?]
  | cacheGet | recognize | upsertUsage => simp [World.handle, ServiceOp.sample?]

/-- No row, and no sum of a row and upserts on their way, counts more errors than requests. -/
structure World.Plausible (w : World) : Prop where
  rows : ∀ tenantId row, w.usage tenantId = some row → row.errors ≤ row.requests
  upserts : ∀ u ∈ w.inflight, u.errorsDelta ≤ 1

theorem World.Plausible.empty : ({} : World).Plausible where
  rows _ _ h := by cases h
  upserts _ h := by cases h

theorem World.Plausible.land {w : World} (h : w.Plausible) (i : Nat) : (w.land i).Plausible := by
  cases hu : w.inflight[i]? with
  | none =>
    rw [World.land, hu]
    exact h
  | some u =>
    have hone := h.upserts u (List.mem_of_getElem? hu)
    rw [World.land, hu]
    refine ⟨fun tenantId row hrow => ?_, fun v hv => h.upserts v (List.mem_of_mem_eraseIdx hv)⟩
    by_cases ht : tenantId = u.tenantId
    · subst ht
      simp only [Function.update_self, Option.some.injEq] at hrow
      subst hrow
      cases hold : w.usage u.tenantId with
      | none => simpa [UsageUpsert.apply] using hone
      | some old =>
        have := h.rows _ _ hold
        simp only [UsageUpsert.apply]
        omega
    · simp only [Function.update_of_ne ht] at hrow
      exact h.rows tenantId row hrow

theorem World.Plausible.handle {w : World} (h : w.Plausible) (env : Surroundings) (o : ServiceOp)
    (ho : ∀ u, o.upsert? = some u → u.errorsDelta ≤ 1) : (World.handle env o w).2.Plausible := by
  cases o with
  | upsertUsage tenantId errorsDelta tokensDelta =>
    refine ⟨h.rows, fun u hu => ?_⟩
    rcases List.mem_append.mp hu with hold | hnew
    · exact h.upserts u hold
    · rw [List.mem_singleton] at hnew
      exact hnew ▸ ho _ rfl
  | cacheSet key doc ttl =>
    obtain ⟨cache, cacheWrites, hset⟩ := w.cacheSet_eq env key doc ttl
    rw [hset]
    exact ⟨h.rows, h.upserts⟩
  | enqueue data =>
    obtain ⟨jobs, hjobs⟩ := w.enqueue_eq env data
    rw [hjobs]
    exact ⟨h.rows, h.upserts⟩
  | cacheGet | recognize | metric => exact ⟨h.rows, h.upserts⟩

end OcrService
