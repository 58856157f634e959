import OcrService.Interaction.Answers
import OcrService.JobStatus
import OcrService.SensitivePosts

/-! The asynchronous path at work: any number of posts, worker turns and status lookups over
one BullMQ queue, interleaved operation by operation (`http/routes.ts`, `jobs/queue.ts`,
`jobs/worker.ts`). -/
namespace OcrService
open Interaction

/-- How a job ends: as the processor returned or threw, or given up by BullMQ after its
worker went silent too often. -/
inductive JobEnd where
  | processed (r : Except Thrown (OcrOutcome JsValue))
  | stalled

inductive JobPhase where
  | waiting
  | active
  | ended (e : JobEnd)

structure JobItem where
  data : JobData
  phase : JobPhase := .waiting
  gone : Bool := false

abbrev BullQueue := List JobItem

def BullQueue.turn (q : BullQueue) (n : Nat) (phase : JobPhase) : BullQueue :=
  q.modify n fun a => { a with phase }

def jobOf (a : JobItem) : Job :=
  match a.phase with
  | .waiting => { data := a.data }
  | .active => { data := a.data, state := .active }
  | .ended (.processed r) => Job.settle { data := a.data } r
  | .ended .stalled =>
    { data := a.data, state := .failed
      failedReason := some "job stalled more than allowable limit" }

structure JobStore where
  world : World := {}
  queue : BullQueue := []

def jobIdOf (n : Nat) : String := toString (n + 1)

/-- `queue.getJob`; a job that was removed is not found. -/
def JobStore.find (s : JobStore) (jobId : String) : Option Job :=
  ((List.range s.queue.length).find? fun n => jobIdOf n = jobId).bind fun n =>
    (s.queue[n]?.filter fun a => !a.gone).map jobOf

inductive JobOp where
  | service (o : ServiceOp)
  | fetch
  | finish (n : Nat) (r : Except Thrown (OcrOutcome JsValue))
  | getJob (jobId : String)
  | getState (jobId : String)

/-- A fetched job comes with its number; a finish tells if BullMQ took it. -/
abbrev JobOp.Answer : JobOp → Type
  | service o => o.Answer
  | fetch => Option (Nat × JobData)
  | finish _ _ => Bool
  | getJob _ => Except Thrown (Option Job)
  | getState _ => Except Thrown JobState

abbrev JobProg (α : Type) := Prog JobOp JobOp.Answer α

/-- What the outside decides: the answers of the services, and for BullMQ which job it hands out
and whether it takes the end a worker reports. Nothing is assumed of BullMQ here. -/
structure JobChoice where
  env : Surroundings
  pick : Nat := 0
  taken : Bool := true

def JobStore.enqueued (env : Surroundings) (q : BullQueue) : ServiceOp → BullQueue
  | .enqueue data => if env.queueDown.isSome then q else q ++ [{ data := data.toJob.throughJson }]
  | _ => q

def JobStore.handle (ch : JobChoice) : (o : JobOp) → JobStore → o.Answer × JobStore
  | .service o, s =>
    ((World.handle ch.env o s.world).1,
      { world := (World.handle ch.env o s.world).2, queue := JobStore.enqueued ch.env s.queue o })
  | .fetch, s =>
    (s.queue[ch.pick]?.map fun a => (ch.pick, a.data),
      { s with queue := s.queue.turn ch.pick .active })
  | .finish n r, s =>
    (ch.taken, if ch.taken then { s with queue := s.queue.turn n (.ended (.processed r)) } else s)
  | .getJob jobId, s =>
    match ch.env.queueDown with
    | some err => (.error err, s)
    | none => (.ok (s.find jobId), s)
  | .getState jobId, s =>
    match ch.env.queueDown with
    | some err => (.error err, s)
    | none => (.ok (((s.find jobId).map Job.state).getD .unknown), s)

/-- What Redis and BullMQ do of their own accord: beside the world's own events, a job whose
worker went silent waits again or is given up, and one is removed for its age. -/
inductive JobEvent where
  | world (e : WorldEvent)
  | retried (n : Nat)
  | givenUp (n : Nat)
  | removed (n : Nat)

def JobStore.happen : JobEvent → JobStore → JobStore
  | .world e, s => { s with world := s.world.happen e }
  | .retried n, s => { s with queue := s.queue.turn n .waiting }
  | .givenUp n, s => { s with queue := s.queue.turn n (.ended .stalled) }
  | .removed n, s => { s with queue := s.queue.modify n fun a => { a with gone := true } }

def onQueue {α : Type} (p : Service α) : JobProg α := p.lift JobOp.service fun _ x => x

def workerTurn (bodies : OcrFunctionKey → FunctionBody) (deps : PipelineDeps) (t : Timings) :
    JobProg Bool :=
  .ask .fetch fun
    | none => .ret false
    | some (n, data) => do
      let r ← onQueue (processJob bodies deps t data)
      .ask (.finish n r) .ret

structure JobLookup where
  jobId : String
  tenantId : String
  requestId : String

/-- `ocrQueue.getStatus`: the state is read after the job, and may be a later one. -/
def lookupStatus (jobId : String) : JobProg (Except Thrown (Option JobRecord)) :=
  .ask (.getJob jobId) fun
    | .error err => .ret (.error err)
    | .ok none => .ret (.ok none)
    | .ok (some job) => .ask (.getState jobId) fun
      | .error err => .ret (.error err)
      | .ok state => .ret (.ok (some (OcrService.getStatus jobId { job with state })))

def JobLookup.program (g : JobLookup) : JobProg JobResponse := do
  match ← lookupStatus g.jobId with
  | .error err => .ret (respondWith g.requestId (.error err))
  | .ok none => .ret (respondWith g.requestId (.error (jobNotFound g.jobId)))
  | .ok (some record) =>
    if crossTenant record g.tenantId then
      .ret (respondWith g.requestId (.error (jobNotFound g.jobId)))
    else .ret (respondWith g.requestId (.ok record))

inductive JobRequestKind where
  | post (p : Post)
  | work (t : Timings)
  | lookup (g : JobLookup)

inductive JobReply where
  | posted (response : HttpResponse)
  | worked (finished : Bool)
  | told (response : JobResponse)

section
variable (bodies : OcrFunctionKey → FunctionBody) (deps : PipelineDeps)

def JobRequestKind.program : JobRequestKind → JobProg JobReply
  | .post p => do .ret (.posted (← onQueue (postFunction bodies deps p)))
  | .work t => do .ret (.worked (← workerTurn bodies deps t))
  | .lookup g => do .ret (.told (← g.program))

def jobSystem :
    Machine JobRequestKind JobOp JobOp.Answer JobReply JobChoice JobEvent JobStore where
  start := JobRequestKind.program bodies deps
  handle := JobStore.handle
  env := JobStore.happen

end

theorem find_eq_some {s : JobStore} {jobId : String} {job : Job} (h : s.find jobId = some job) :
    ∃ n a, jobId = jobIdOf n ∧ s.queue[n]? = some a ∧ a.gone = false ∧ job = jobOf a := by
  obtain ⟨n, hn, hjob⟩ := Option.bind_eq_some_iff.mp h
  obtain ⟨a, ha, rfl⟩ := Option.map_eq_some_iff.mp hjob
  obtain ⟨ha, hgone⟩ := Option.filter_eq_some_iff.mp ha
  have hid : jobIdOf n = jobId := by simpa using List.find?_some hn
  exact ⟨n, a, hid.symm, ha, by simpa using hgone, rfl⟩

abbrev Told := Exchange JobOp JobOp.Answer

def JobStore.Numbered (s : JobStore) : Prop := s.queue.length = s.world.jobs.length

theorem numbered_handle (ch : JobChoice) (o : JobOp) {s : JobStore} (h : s.Numbered) :
    (s.handle ch o).2.Numbered := by
  unfold JobStore.Numbered at h ⊢
  cases o with
  | service o =>
    cases o with
    | enqueue data =>
      cases hdown : ch.env.queueDown <;>
        simp [JobStore.handle, JobStore.enqueued, World.handle, hdown, h]
    | cacheSet key doc ttl =>
      obtain ⟨cache, cacheWrites, hset⟩ := s.world.cacheSet_eq ch.env key doc ttl
      simpa only [JobStore.handle, JobStore.enqueued, hset] using h
    | _ => exact h
  | fetch => simpa [JobStore.handle, BullQueue.turn] using h
  | finish n r =>
    cases htaken : ch.taken <;> simpa [JobStore.handle, htaken, BullQueue.turn] using h
  | getJob jobId | getState jobId =>
    simp only [JobStore.handle]
    split <;> exact h

theorem numbered_happen (e : JobEvent) {s : JobStore} (h : s.Numbered) : (s.happen e).Numbered := by
  unfold JobStore.Numbered at h ⊢
  cases e with
  | world e =>
    cases e with
    | drop keys => exact h
    | land i =>
      obtain ⟨inflight, usage, hland⟩ := s.world.land_eq i
      simpa only [JobStore.happen, World.happen, hland] using h
  | retried n | givenUp n => simpa [JobStore.happen, BullQueue.turn] using h
  | removed n => simpa [JobStore.happen] using h

/-- `b` is the job that `a` was before, with its data; if it has ended since, it has as `P` says. -/
def JobItem.Was (b a : JobItem) (P : JobEnd → Prop) : Prop :=
  b.data = a.data ∧ ∀ e, b.phase = .ended e → a.phase = .ended e ∨ P e

theorem JobItem.Was.refl (a : JobItem) (P : JobEnd → Prop) : a.Was a P :=
  ⟨rfl, fun _ => .inl⟩

theorem turn_item {q : BullQueue} {m n : Nat} {phase : JobPhase} {b : JobItem}
    {P : JobEnd → Prop} (hP : m = n → ∀ e, phase = .ended e → P e)
    (hb : (q.turn m phase)[n]? = some b) : ∃ a, q[n]? = some a ∧ b.Was a P := by
  rw [BullQueue.turn, List.getElem?_modify, Option.map_eq_map, Option.map_eq_some_iff] at hb
  obtain ⟨a, ha, rfl⟩ := hb
  refine ⟨a, ha, ?_⟩
  by_cases hm : m = n
  · rw [if_pos hm]
    exact ⟨rfl, fun e he => .inr (hP hm e he)⟩
  · rw [if_neg hm]
    exact .refl a P

theorem put_item {q : BullQueue} {data : JobData} {n : Nat} {b : JobItem}
    (hb : (q ++ [{ data := data }])[n]? = some b) :
    q[n]? = some b ∨ n = q.length ∧ b = { data := data } := by
  obtain hlt | hge := Nat.lt_or_ge n q.length
  · rw [List.getElem?_append_left hlt] at hb
    exact .inl hb
  · have hn : n = q.length := by
      have hlen := (List.getElem?_eq_some_iff.mp hb).1
      rw [List.length_append, List.length_singleton] at hlen
      exact Nat.le_antisymm (Nat.le_of_lt_succ hlen) hge
    subst hn
    rw [List.getElem?_concat_length] at hb
    exact .inr ⟨rfl, (Option.some.inj hb).symm⟩

/-- A job after an operation: one that was there, or the one that was put; and ended only as it
was, or by the finish that was taken. -/
theorem handle_item (ch : JobChoice) (o : JobOp) {s : JobStore} (hs : s.Numbered) {n : Nat}
    {b : JobItem} (hb : (s.handle ch o).2.queue[n]? = some b) :
    (∃ a, s.queue[n]? = some a ∧ b.Was a fun e => ∃ r, e = .processed r ∧
        (⟨o, (s.handle ch o).1⟩ : Told) = ⟨.finish n r, true⟩) ∨
      ∃ data : OcrJobData, b = { data := data.toJob.throughJson } ∧
        (⟨o, (s.handle ch o).1⟩ : Told) = ⟨.service (.enqueue data), .ok (jobIdOf n)⟩ := by
  have hsame : s.queue[n]? = some b → ∃ a, s.queue[n]? = some a ∧ b.Was a fun e => ∃ r,
      e = .processed r ∧ (⟨o, (s.handle ch o).1⟩ : Told) = ⟨.finish n r, true⟩ :=
    fun h => ⟨b, h, .refl b _⟩
  cases o with
  | service o =>
    cases o with
    | enqueue data =>
      cases hdown : ch.env.queueDown with
      | some err =>
        refine .inl (hsame ?_)
        simpa [JobStore.handle, JobStore.enqueued, hdown] using hb
      | none =>
        have hput : (s.queue ++ [{ data := data.toJob.throughJson }])[n]? = some b := by
          simpa [JobStore.handle, JobStore.enqueued, hdown] using hb
        obtain hold | ⟨rfl, rfl⟩ := put_item hput
        · exact .inl (hsame hold)
        · refine .inr ⟨data, rfl, ?_⟩
          simp [JobStore.handle, World.handle, hdown, jobIdOf, show s.queue.length = _ from hs]
    | _ => exact .inl (hsame hb)
  | fetch => exact .inl (turn_item (fun _ e he => by cases he) hb)
  | finish m r =>
    cases htaken : ch.taken with
    | false =>
      refine .inl (hsame ?_)
      simpa [JobStore.handle, htaken] using hb
    | true =>
      have hturned : (s.queue.turn m (.ended (.processed r)))[n]? = some b := by
        simpa [JobStore.handle, htaken] using hb
      refine .inl (turn_item (fun hm e he => ?_) hturned)
      cases he
      exact ⟨r, rfl, by simp [JobStore.handle, htaken, hm]⟩
  | getJob jobId | getState jobId =>
    refine .inl (hsame ?_)
    simp only [JobStore.handle] at hb
    split at hb <;> exact hb

theorem happen_item (e : JobEvent) {s : JobStore} {n : Nat} {b : JobItem}
    (hb : (s.happen e).queue[n]? = some b) :
    ∃ a, s.queue[n]? = some a ∧ b.Was a fun e => e = .stalled := by
  cases e with
  | world e => exact ⟨b, hb, .refl b _⟩
  | retried m => exact turn_item (fun _ e he => by cases he) hb
  | givenUp m =>
    refine turn_item (fun _ e he => ?_) hb
    cases he
    rfl
  | removed m =>
    simp only [JobStore.happen, List.getElem?_modify, Option.map_eq_map,
      Option.map_eq_some_iff] at hb
    obtain ⟨a, ha, rfl⟩ := hb
    refine ⟨a, ha, ?_⟩
    by_cases hm : m = n
    · rw [if_pos hm]
      exact ⟨rfl, fun _ => .inl⟩
    · rw [if_neg hm]
      exact .refl a _

/-- Every job was put by a post that was told its number, and every end of a job is a finish
that was taken, or BullMQ's own. -/
structure Accounted (q : BullQueue) (H : Nat → List Told) : Prop where
  put : ∀ n a, q[n]? = some a → ∃ j data, ⟨.service (.enqueue data), .ok (jobIdOf n)⟩ ∈ H j ∧
    a.data = data.toJob.throughJson
  ended : ∀ n a e, q[n]? = some a → a.phase = .ended e →
    e = .stalled ∨ ∃ k r, e = .processed r ∧ ⟨.finish n r, true⟩ ∈ H k

theorem Accounted.mono {q : BullQueue} {H H' : Nat → List Told} (h : Accounted q H)
    (hm : ∀ i, H i ⊆ H' i) : Accounted q H' where
  put n a ha := by
    obtain ⟨j, data, hj, hdata⟩ := h.put n a ha
    exact ⟨j, data, hm j hj, hdata⟩
  ended n a e ha he := by
    obtain rfl | ⟨k, r, hr, hk⟩ := h.ended n a e ha he
    · exact .inl rfl
    · exact .inr ⟨k, r, hr, hm k hk⟩

theorem map_data_turn (q : BullQueue) (n : Nat) (phase : JobPhase) :
    (q.turn n phase).map JobItem.data = q.map JobItem.data := by
  refine List.ext_getElem? fun i => ?_
  rw [BullQueue.turn, List.getElem?_map, List.getElem?_map, List.getElem?_modify]
  by_cases hi : n = i <;> cases q[i]? <;> simp [hi]

theorem handle_data (ch : JobChoice) (o : JobOp) (s : JobStore) :
    s.queue.map JobItem.data <+: (s.handle ch o).2.queue.map JobItem.data := by
  cases o with
  | service o =>
    cases o with
    | enqueue data =>
      cases hdown : ch.env.queueDown <;> simp [JobStore.handle, JobStore.enqueued, hdown]
    | _ => exact List.prefix_rfl
  | fetch => simp [JobStore.handle, map_data_turn]
  | finish n r => cases htaken : ch.taken <;> simp [JobStore.handle, htaken, map_data_turn]
  | getJob jobId | getState jobId =>
    simp only [JobStore.handle]
    split <;> exact List.prefix_rfl

theorem happen_data (e : JobEvent) (s : JobStore) :
    (s.happen e).queue.map JobItem.data = s.queue.map JobItem.data := by
  cases e with
  | world e => rfl
  | retried n | givenUp n => exact map_data_turn _ _ _
  | removed n =>
    refine List.ext_getElem? fun i => ?_
    simp only [JobStore.happen, List.getElem?_map, List.getElem?_modify]
    by_cases hi : n = i <;> cases s.queue[i]? <;> simp [hi]

section Runs
variable {bodies : OcrFunctionKey → FunctionBody} {deps : PipelineDeps}
variable {moves : List (Move JobRequestKind JobChoice JobEvent)}
variable {c d : Conf JobRequestKind JobOp JobOp.Answer JobReply JobStore}

theorem run_data (h : (jobSystem bodies deps).run c moves = some d) :
    c.world.queue.map JobItem.data <+: d.world.queue.map JobItem.data := by
  refine Machine.run_last (m := jobSystem bodies deps)
    (fun d => c.world.queue.map JobItem.data <+: d.world.queue.map JobItem.data) ?_
    List.prefix_rfl h
  intro d mv d' hd hn
  cases mv with
  | spawn r =>
    cases hn
    exact hd
  | step i ch =>
    obtain ⟨r, o, k, log, -, rfl⟩ := (jobSystem bodies deps).next_step hn
    exact hd.trans (handle_data ch o d.world)
  | env e =>
    cases hn
    exact hd.trans (happen_data e d.world ▸ List.prefix_rfl)

theorem run_accounted {s : JobStore} (hq : s.queue = []) (hs : s.Numbered)
    (hd : (jobSystem bodies deps).run ⟨s, []⟩ moves = some d) :
    Accounted d.world.queue fun i => (jobSystem bodies deps).history i ⟨s, []⟩ moves := by
  refine (Machine.run_histories (m := jobSystem bodies deps)
    (I := fun c H => c.world.Numbered ∧ Accounted c.world.queue H) ⟨hs, ?_⟩ ?_ hd).2
  · rw [hq]
    refine ⟨?_, ?_⟩
    · intro n a ha
      cases ha
    · intro n a e ha
      cases ha
  · rintro c mv d H ⟨hnum, hacc⟩ hn
    have hmono := hacc.mono fun i =>
      List.subset_append_left (H i) (((jobSystem bodies deps).heard i c mv).toList)
    cases mv with
    | spawn r =>
      cases hn
      exact ⟨hnum, hmono⟩
    | env e =>
      cases hn
      refine ⟨numbered_happen e hnum, fun n b hb => ?_, fun n b v hb hv => ?_⟩
      · obtain ⟨a, ha, hdata, -⟩ := happen_item e hb
        obtain ⟨j, data, hj, hput⟩ := hmono.put n a ha
        exact ⟨j, data, hj, hdata.trans hput⟩
      · obtain ⟨a, ha, -, hended⟩ := happen_item e hb
        exact (hended v hv).elim (hmono.ended n a v ha) .inl
    | step i ch =>
      obtain ⟨r, o, k, log, hi, rfl⟩ := (jobSystem bodies deps).next_step hn
      have hnew : (⟨o, (c.world.handle ch o).1⟩ : Told) ∈
          H i ++ ((jobSystem bodies deps).heard i c (.step i ch)).toList := by
        rw [Machine.heard_step hi]
        exact List.mem_append_right _ (List.mem_singleton_self _)
      refine ⟨numbered_handle ch o hnum, fun n b hb => ?_, fun n b v hb hv => ?_⟩
      · obtain ⟨a, ha, hdata, -⟩ | ⟨data, rfl, htold⟩ := handle_item ch o hnum hb
        · obtain ⟨j, data, hj, hput⟩ := hmono.put n a ha
          exact ⟨j, data, hj, hdata.trans hput⟩
        · exact ⟨i, data, htold ▸ hnew, rfl⟩
      · obtain ⟨a, ha, -, hended⟩ | ⟨data, rfl, -⟩ := handle_item ch o hnum hb
        · obtain hv | ⟨r', hr, htold⟩ := hended v hv
          · exact hmono.ended n a v ha hv
          · exact .inr ⟨i, r', hr, htold ▸ hnew⟩
        · cases hv

end Runs

section Programs
variable {bodies : OcrFunctionKey → FunctionBody} {deps : PipelineDeps}

def Post.Puts (bodies : OcrFunctionKey → FunctionBody) (deps : PipelineDeps) (p : Post)
    (data : OcrJobData) : Prop :=
  ∃ d request, p.accept bodies = .ok (d, request) ∧ d.sensitivity = .standard ∧
    shouldRunAsync deps request.file.buffer = true ∧ data = ⟨d.key.name, request⟩

def NoEnqueue (o : ServiceOp) : Prop := ∀ data, o ≠ .enqueue data

theorem runPipeline_noEnqueue (d : AnyOcrFunctionDefinition) (request : OcrRequest)
    (t : Timings) : (runPipeline d request deps t).Uses NoEnqueue := by
  refine Prog.Uses.bind ((stages_uses d request deps).mono ?_) fun v => ?_
  · rintro o ho data rfl
    exact ho
  · refine finish_uses ?_ d request t ?_ v
    · intro sample data h
      cases h
    · intro outcome tokens data h
      cases h

theorem processJob_noEnqueue (t : Timings) (data : JobData) :
    (processJob bodies deps t data).Uses NoEnqueue := by
  unfold processJob
  cases getFunction bodies data.function with
  | none => exact trivial
  | some d =>
    cases reviveRequest data.request with
    | error err => exact trivial
    | ok request => exact runPipeline_noEnqueue d request t

theorem postFunction_puts (p : Post) : (postFunction bodies deps p).Uses fun o =>
    ∀ data, o = .enqueue data → p.Puts bodies deps data := by
  unfold postFunction
  cases haccept : p.accept bodies with
  | error err => exact trivial
  | ok accepted =>
    obtain ⟨d, request⟩ := accepted
    refine Prog.Uses.bind ?_ fun r => ?_
    · unfold dispatch
      by_cases hasync :
        (d.sensitivity = .standard && shouldRunAsync deps request.file.buffer) = true
      · rw [if_pos hasync]
        simp only [Bool.and_eq_true, decide_eq_true_eq] at hasync
        refine ⟨?_, fun answer => ?_⟩
        · rintro data ⟨rfl⟩
          exact ⟨d, request, haccept, hasync.1, hasync.2, rfl⟩
        · cases answer <;> exact trivial
      · rw [if_neg hasync]
        refine Prog.Uses.bind ((runPipeline_noEnqueue d request p.timings).mono ?_) fun r => ?_
        · exact fun o ho data hdata => absurd hdata (ho data)
        · cases r <;> exact trivial
    · cases r <;> exact trivial

def Reads : JobOp → Prop
  | .getJob _ | .getState _ => True
  | _ => False

theorem lookup_reads (g : JobLookup) : g.program.Uses Reads := by
  refine Prog.Uses.bind ⟨trivial, fun found => ?_⟩ fun r => ?_
  · match found with
    | .error err | .ok none => exact trivial
    | .ok (some job) =>
      refine ⟨trivial, fun state => ?_⟩
      cases state <;> exact trivial
  · match r with
    | .error err | .ok none => exact trivial
    | .ok (some record) =>
      by_cases hcross : crossTenant record g.tenantId = true
      · simp only [hcross, if_true]
        exact trivial
      · simp only [hcross]
        exact trivial

/-- Who has put a job was a post, and put its own request. -/
theorem put_told {r : JobRequestKind} {h : List Told} {q : JobProg JobReply}
    (hp : (r.program bodies deps).After h q) {data : OcrJobData} {x : Except Thrown String}
    (hmem : ⟨.service (.enqueue data), x⟩ ∈ h) : ∃ p, r = .post p ∧ p.Puts bodies deps data := by
  have huses : (r.program bodies deps).Uses fun o =>
      ∀ data, o = .service (.enqueue data) → ∃ p, r = .post p ∧ p.Puts bodies deps data := by
    cases r with
    | post p =>
      refine Prog.Uses.bind (Prog.Uses.lift ((postFunction_puts p).mono ?_)) fun _ => trivial
      rintro o ho data ⟨rfl⟩
      exact ⟨p, rfl, ho data rfl⟩
    | work t =>
      refine Prog.Uses.bind ⟨?_, fun fetched => ?_⟩ fun _ => trivial
      · intro data h
        cases h
      · match fetched with
        | none => exact trivial
        | some (n, data) =>
          refine Prog.Uses.bind (Prog.Uses.lift ((processJob_noEnqueue t data).mono ?_)) fun r => ?_
          · rintro o ho data ⟨rfl⟩
            exact absurd rfl (ho data)
          · refine ⟨?_, fun _ => trivial⟩
            intro data h
            cases h
    | lookup g =>
      refine Prog.Uses.bind ((lookup_reads g).mono ?_) fun _ => trivial
      rintro o ho data rfl
      exact ho.elim
  exact (huses.after hp).1 _ hmem data rfl

theorem onQueue_uses {α : Type} (p : Service α) :
    (onQueue p).Uses fun o => ∃ o', o = .service o' :=
  Prog.Uses.lift ((Prog.Uses.trivial _).mono fun o _ => ⟨o, rfl⟩)

theorem workerTurn_told {t : Timings} {h : List Told} {q : JobProg Bool}
    (hp : (workerTurn bodies deps t).After h q) {n : Nat}
    {res : Except Thrown (OcrOutcome JsValue)} {x : Bool} (hmem : ⟨.finish n res, x⟩ ∈ h) :
    ∃ data h', ⟨.fetch, some (n, data)⟩ ∈ h ∧ (processJob bodies deps t data).After h' (.ret res) ∧
      ∀ e ∈ h', (⟨.service e.op, e.answer⟩ : Told) ∈ h := by
  obtain ⟨rfl, -⟩ | ⟨fetched, h₁, rfl, h₁'⟩ := Prog.after_ask.mp hp
  · cases hmem
  · have hin : ⟨.finish n res, x⟩ ∈ h₁ := by
      refine (List.mem_cons.mp hmem).resolve_left fun h => ?_
      cases h
    match fetched with
    | none =>
      obtain ⟨rfl, -⟩ := Prog.after_ret.mp h₁'
      cases hin
    | some (m, data) =>
      have hservice : ∀ {h₂ : List Told} {q : JobProg (Except Thrown (OcrOutcome JsValue))},
          (onQueue (processJob bodies deps t data)).After h₂ q → ⟨.finish n res, x⟩ ∉ h₂ := by
        intro h₂ q hq hin
        obtain ⟨o', ho⟩ := ((onQueue_uses _).after hq).1 _ hin
        cases ho
      obtain ⟨q₂, hq₂, -⟩ | ⟨h₂, h₃, res', rfl, hret, hfinish⟩ := Prog.after_bind.mp h₁'
      · exact absurd hin (hservice hq₂)
      · obtain ⟨h', hprocess, hall⟩ := Prog.after_lift_ret hret
        have hin := (List.mem_append.mp hin).resolve_left (hservice hret)
        obtain ⟨rfl, -⟩ | ⟨ok, h₄, rfl, h₄'⟩ := Prog.after_ask.mp hfinish
        · cases hin
        · obtain ⟨rfl, -⟩ := Prog.after_ret.mp h₄'
          cases List.mem_singleton.mp hin
          refine ⟨data, h', by simp, hprocess, fun e he => ?_⟩
          obtain ⟨y, hy, hserved⟩ := Prog.LiftOf.mem hall (o := e.op) (x := e.answer) he
          cases hy
          simp [hserved]

/-- Who has finished a job was a worker, in the turn it had fetched the job, and finished it with
what `processJob` made of its data. -/
theorem finish_told {r : JobRequestKind} {h : List Told} {q : JobProg JobReply}
    (hp : (r.program bodies deps).After h q) {n : Nat}
    {res : Except Thrown (OcrOutcome JsValue)} {x : Bool} (hmem : ⟨.finish n res, x⟩ ∈ h) :
    ∃ t data h', ⟨.fetch, some (n, data)⟩ ∈ h ∧
      (processJob bodies deps t data).After h' (.ret res) ∧
        ∀ e ∈ h', (⟨.service e.op, e.answer⟩ : Told) ∈ h := by
  cases r with
  | post p =>
    have huses : (JobRequestKind.program bodies deps (.post p)).Uses fun o =>
        ∃ o', o = .service o' :=
      Prog.Uses.bind (onQueue_uses _) fun _ => trivial
    obtain ⟨o', ho⟩ := (huses.after hp).1 _ hmem
    cases ho
  | lookup g =>
    have huses : (JobRequestKind.program bodies deps (.lookup g)).Uses Reads :=
      Prog.Uses.bind (lookup_reads g) fun _ => trivial
    exact ((huses.after hp).1 _ hmem).elim
  | work t =>
    obtain ⟨p', hp', -⟩ := Prog.after_map hp
    exact ⟨t, workerTurn_told hp' hmem⟩

theorem respondWith_error_ne (requestId : String) (err : Thrown) {status : Nat}
    {requestId' : String} {rec : PublicRecord} :
    respondWith requestId (.error err) ≠ ⟨status, .found requestId' rec⟩ := by
  intro h
  cases congrArg JobResponse.body h

theorem lookup_found {g : JobLookup} {h : List Told} {requestId : String} {rec : PublicRecord}
    (hp : (JobRequestKind.program bodies deps (.lookup g)).After h
      (.ret (.told ⟨200, .found requestId rec⟩))) :
    ∃ job state, ⟨.getJob g.jobId, .ok (some job)⟩ ∈ h ∧ ⟨.getState g.jobId, .ok state⟩ ∈ h ∧
      crossTenant (getStatus g.jobId { job with state }) g.tenantId = false ∧
        rec = stripInternal (getStatus g.jobId { job with state }) := by
  obtain ⟨response, hp', hresponse⟩ := Prog.after_map_ret hp
  cases hresponse
  obtain ⟨h₁, h₂, found, rfl, hlookup, hrest⟩ := Prog.after_bind_ret.mp hp'
  obtain ⟨read, h₃, rfl, h₃'⟩ := Prog.after_ask_ret.mp hlookup
  match read with
  | .error err | .ok none =>
    cases (Prog.after_ret.mp h₃').2
    exact absurd (Prog.ret.inj (Prog.after_ret.mp hrest).2).symm (respondWith_error_ne _ _)
  | .ok (some job) =>
    obtain ⟨state, h₄, rfl, h₄'⟩ := Prog.after_ask_ret.mp h₃'
    cases state with
    | error err =>
      cases (Prog.after_ret.mp h₄').2
      exact absurd (Prog.ret.inj (Prog.after_ret.mp hrest).2).symm (respondWith_error_ne _ _)
    | ok state =>
      cases (Prog.after_ret.mp h₄').2
      refine ⟨job, state, by simp, by simp, ?_⟩
      cases hcross : crossTenant (getStatus g.jobId { job with state }) g.tenantId with
      | true =>
        simp only [hcross, if_true] at hrest
        exact absurd (Prog.ret.inj (Prog.after_ret.mp hrest).2).symm (respondWith_error_ne _ _)
      | false =>
        simp only [hcross, Bool.false_eq_true, if_false] at hrest
        have hrecord := (Prog.after_ret.mp hrest).2
        cases hrecord
        exact ⟨rfl, rfl⟩

end Programs

section Runs
variable {bodies : OcrFunctionKey → FunctionBody} {deps : PipelineDeps} {s : JobStore}
variable {moves : List (Move JobRequestKind JobChoice JobEvent)}
variable {d : Conf JobRequestKind JobOp JobOp.Answer JobReply JobStore}

theorem run_fetched (hd : (jobSystem bodies deps).run ⟨s, []⟩ moves = some d) {k n : Nat}
    {data : JobData} (he : (⟨.fetch, some (n, data)⟩ : Told) ∈
      (jobSystem bodies deps).history k ⟨s, []⟩ moves) :
    d.world.queue[n]?.map JobItem.data = some data := by
  obtain ⟨before, after, ch, c, c', -, -, -, -, hafter, hanswer, hworld⟩ :=
    Machine.moment_of_history hd he
  have hfetched : some (n, data) = c.world.queue[ch.pick]?.map fun a => (ch.pick, a.data) := hanswer
  obtain ⟨a, ha, hjob⟩ := Option.map_eq_some_iff.mp hfetched.symm
  cases hjob
  have hdata : (c'.world.queue.map JobItem.data)[ch.pick]? = some a.data := by
    have hturned : c'.world.queue.map JobItem.data = c.world.queue.map JobItem.data := by
      rw [hworld]
      exact map_data_turn _ _ _
    rw [hturned, List.getElem?_map, ha]
    rfl
  obtain ⟨later, hlater⟩ := run_data hafter
  have hlt := (List.getElem?_eq_some_iff.mp hdata).1
  rw [← List.getElem?_map, ← hlater, List.getElem?_append_left hlt]
  exact hdata

end Runs

section Statement
variable (bodies : OcrFunctionKey → FunctionBody) (deps : PipelineDeps) (H : Nat → List Told)

/-- A post has put the request as job `n`, and was told that number. -/
def Submitted (c : Conf JobRequestKind JobOp JobOp.Answer JobReply JobStore) (n : Nat)
    (d : AnyOcrFunctionDefinition) (request : OcrRequest) : Prop :=
  ∃ (j : Nat) (t : Thread JobRequestKind JobOp JobOp.Answer JobReply) (p : Post),
    c.threads[j]? = some t ∧ t.req = .post p ∧ p.accept bodies = .ok (d, request) ∧
      d.sensitivity = .standard ∧ shouldRunAsync deps request.file.buffer = true ∧
      ⟨.service (.enqueue ⟨d.key.name, request⟩), .ok (jobIdOf n)⟩ ∈ H j

/-- In some worker's turn the pipeline, run on the request as JSON brought it over, made this of
job `n`. -/
def Processed (n : Nat) (d : AnyOcrFunctionDefinition) (request : OcrRequest)
    (r : Except Thrown (OcrOutcome JsValue)) : Prop :=
  ∃ k t data h, ⟨.fetch, some (n, data)⟩ ∈ H k ∧
    (runPipeline d { request with args := request.args.throughJson } deps t).After h (.ret r) ∧
      ∀ e ∈ h, ⟨.service e.op, e.answer⟩ ∈ H k

end Statement

theorem processJob_posted {bodies : OcrFunctionKey → FunctionBody} (deps : PipelineDeps)
    (t : Timings) {p : Post} {d : AnyOcrFunctionDefinition} {request : OcrRequest}
    (h : p.accept bodies = .ok (d, request)) :
    processJob bodies deps t (OcrJobData.mk d.key.name request).toJob.throughJson =
      runPipeline d { request with args := request.args.throughJson } deps t := by
  have hd : d ∈ definitions bodies := by
    unfold Post.accept at h
    cases hfn : getFunction bodies p.function with
    | none =>
      rw [hfn] at h
      cases h
    | some d' =>
      have hd' : d' ∈ definitions bodies := List.mem_of_find?_eq_some hfn
      rw [hfn] at h
      cases hfile : p.file with
      | none =>
        rw [hfile] at h
        cases h
      | some file =>
        simp only [hfile] at h
        cases hargs : parseArgsField p.args with
        | error err =>
          rw [hargs] at h
          cases h
        | ok args =>
          rw [hargs] at h
          cases h
          exact hd'
  have hfn : (OcrJobData.mk d.key.name request).toJob.throughJson.function = d.key.name := rfl
  simp only [processJob, hfn, getFunction_key bodies hd, reviveRequest_throughJson]

theorem returnvalue_jobOf {a : JobItem} {o : OcrOutcome JsValue}
    (h : (jobOf a).returnvalue = some o) :
    ∃ o', o = o'.throughJson ∧ a.phase = .ended (.processed (.ok o')) := by
  unfold jobOf at h
  split at h
  · cases h
  · cases h
  · rename_i r hphase
    cases r with
    | error err => cases h
    | ok o' => exact ⟨o', (Option.some.inj h).symm, hphase⟩
  · cases h

theorem failedReason_jobOf (a : JobItem) : (jobOf a).failedReason = none ∨
    a.phase = .ended .stalled ∧
      (jobOf a).failedReason = some "job stalled more than allowable limit" ∨
    ∃ err, (jobOf a).failedReason = failedReasonOf (rethrown err) ∧
      a.phase = .ended (.processed (.error err)) := by
  unfold jobOf
  split
  · exact .inl rfl
  · exact .inl rfl
  · rename_i r hphase
    cases r with
    | ok o => exact .inl rfl
    | error err => exact .inr (.inr ⟨err, rfl, hphase⟩)
  · rename_i hphase
    exact .inr (.inl ⟨hphase, rfl⟩)

theorem result_getStatus (jobId : String) {job : Job} {o : OcrOutcome JsValue}
    (h : (getStatus jobId job).result = some o) :
    (getStatus jobId job).status = .completed ∧ job.returnvalue = some o := by
  simp only [getStatus] at h ⊢
  by_cases hstatus : toStatus job.state = .completed
  · rw [if_pos hstatus] at h
    exact ⟨hstatus, h⟩
  · rw [if_neg hstatus] at h
    cases h

theorem error_getStatus (jobId : String) {job : Job} {e : String × String}
    (h : (getStatus jobId job).error = some e) :
    (getStatus jobId job).status = .failed ∧ e = decodeJobError job.failedReason := by
  simp only [getStatus] at h ⊢
  by_cases hstatus : toStatus job.state = .failed
  · rw [if_pos hstatus] at h
    exact ⟨hstatus, (Option.some.inj h).symm⟩
  · rw [if_neg hstatus] at h
    cases h

section Runs
variable {bodies : OcrFunctionKey → FunctionBody} {deps : PipelineDeps} {s : JobStore}
variable {moves : List (Move JobRequestKind JobChoice JobEvent)}
variable {c : Conf JobRequestKind JobOp JobOp.Answer JobReply JobStore}

theorem run_read (hc : (jobSystem bodies deps).run ⟨s, []⟩ moves = some c) {i : Nat}
    {jobId : String} {job : Job} (he : (⟨.getJob jobId, .ok (some job)⟩ : Told) ∈
      (jobSystem bodies deps).history i ⟨s, []⟩ moves) :
    ∃ before after c' n a, moves = before ++ after ∧
      (jobSystem bodies deps).run ⟨s, []⟩ before = some c' ∧
      (jobSystem bodies deps).run c' after = some c ∧ jobId = jobIdOf n ∧
      c'.world.queue[n]? = some a ∧ job = jobOf a := by
  obtain ⟨before, after, ch, c', c'', rfl, hbefore, -, -, -, hanswer, -⟩ :=
    Machine.moment_of_history hc he
  have hfind : c'.world.find jobId = some job := by
    have hhandle : Except.ok (some job) = (c'.world.handle ch (.getJob jobId)).1 := hanswer
    simp only [JobStore.handle] at hhandle
    split at hhandle
    · cases hhandle
    · exact (Except.ok.inj hhandle).symm
  obtain ⟨n, a, hid, ha, -, hjob⟩ := find_eq_some hfind
  refine ⟨before, .step i ch :: after, c', n, a, rfl, hbefore, ?_, hid, ha, hjob⟩
  rw [Machine.run_append, hbefore] at hc
  exact hc

theorem history_subset {before : List (Move JobRequestKind JobChoice JobEvent)}
    (after : List (Move JobRequestKind JobChoice JobEvent))
    (hc : (jobSystem bodies deps).run ⟨s, []⟩ before = some c) (i : Nat) :
    (jobSystem bodies deps).history i ⟨s, []⟩ before ⊆
      (jobSystem bodies deps).history i ⟨s, []⟩ (before ++ after) := by
  rw [Machine.history_append (jobSystem bodies deps) i hc]
  exact List.subset_append_left _ _

/-- A job that ended with a result of the processor was submitted, and processed to it. -/
theorem run_processed (hq : s.queue = []) (hs : s.Numbered)
    (hc : (jobSystem bodies deps).run ⟨s, []⟩ moves = some c) {n : Nat} {a : JobItem}
    (ha : c.world.queue[n]? = some a) :
    ∃ d request, Submitted bodies deps
        (fun i => (jobSystem bodies deps).history i ⟨s, []⟩ moves) c n d request ∧
      a.data.request.tenantId = request.tenantId ∧
      ∀ r, a.phase = .ended (.processed r) → Processed deps
        (fun i => (jobSystem bodies deps).history i ⟨s, []⟩ moves) n d request r := by
  have hacc := run_accounted hq hs hc
  obtain ⟨j, data, hput, hdata⟩ := hacc.put n a ha
  obtain ⟨t, ht⟩ := Machine.exists_thread hc hput
  obtain ⟨p, hreq, d, request, haccept, hstandard, hasync, rfl⟩ :=
    put_told (Machine.run_after hc ht).1 hput
  refine ⟨d, request, ⟨j, t, p, ht, hreq, haccept, hstandard, hasync, hput⟩, ?_, fun r hr => ?_⟩
  · rw [hdata]
    rfl
  · obtain h | ⟨k, r', hr', hfinish⟩ := hacc.ended n a _ ha hr
    · cases h
    · cases hr'
      obtain ⟨t', ht'⟩ := Machine.exists_thread hc hfinish
      obtain ⟨timings, data', h, hfetch, hprocess, hserved⟩ :=
        finish_told (Machine.run_after hc ht').1 hfinish
      have hfetched := run_fetched hc hfetch
      rw [ha, Option.map_some, hdata] at hfetched
      have hposted : data' = (OcrJobData.mk d.key.name request).toJob.throughJson :=
        (Option.some.inj hfetched).symm
      rw [hposted, processJob_posted deps timings haccept] at hprocess
      exact ⟨k, timings, data', h, hfetch, hprocess, hserved⟩

theorem Submitted.mono {H H' : Nat → List Told}
    {c c' : Conf JobRequestKind JobOp JobOp.Answer JobReply JobStore}
    {after : List (Move JobRequestKind JobChoice JobEvent)} {n : Nat} {d : AnyOcrFunctionDefinition}
    {request : OcrRequest} (h : Submitted bodies deps H c n d request) (hm : ∀ i, H i ⊆ H' i)
    (hc : (jobSystem bodies deps).run c after = some c') :
    Submitted bodies deps H' c' n d request := by
  obtain ⟨j, ⟨r, prog, log⟩, p, hj, hreq, haccept, hstandard, hasync, hput⟩ := h
  obtain ⟨prog', l, hj', -, -⟩ := Machine.run_thread hc hj
  exact ⟨j, _, p, hj', hreq, haccept, hstandard, hasync, hm j hput⟩

theorem Processed.mono {H H' : Nat → List Told} {n : Nat} {d : AnyOcrFunctionDefinition}
    {request : OcrRequest} {r : Except Thrown (OcrOutcome JsValue)}
    (h : Processed deps H n d request r) (hm : ∀ i, H i ⊆ H' i) :
    Processed deps H' n d request r := by
  obtain ⟨k, t, data, h', hfetch, hrun, hserved⟩ := h
  exact ⟨k, t, data, h', hm k hfetch, hrun, fun e he => hm k (hserved e he)⟩

structure JobStore.Empty (s : JobStore) : Prop where
  queue : s.queue = []
  jobs : s.world.jobs = []

theorem JobStore.Empty.numbered (hs : s.Empty) : s.Numbered := by
  rw [JobStore.Numbered, hs.queue, hs.jobs]
  rfl

end Runs

/-- Whatever posts, workers and lookups do beside each other, with stalled workers and jobs
removed at any time: a lookup that finds its job speaks of a request that some post has put
under that number, of the same tenant if both have one; a result in it is what the pipeline made
of that request in some worker's turn, and an error likewise, unless BullMQ gave the job up or
the job was read before it had ended. -/
theorem lookup_told (bodies : OcrFunctionKey → FunctionBody) (deps : PipelineDeps) {s : JobStore}
    (hs : s.Empty) {moves : List (Move JobRequestKind JobChoice JobEvent)}
    {c : Conf JobRequestKind JobOp JobOp.Answer JobReply JobStore}
    (hc : (jobSystem bodies deps).run ⟨s, []⟩ moves = some c) {i : Nat}
    {t : Thread JobRequestKind JobOp JobOp.Answer JobReply} (hi : c.threads[i]? = some t)
    {g : JobLookup} (hg : t.req = .lookup g) {requestId : String} {rec : PublicRecord}
    (hret : t.prog = .ret (.told ⟨200, .found requestId rec⟩)) :
    let H := fun i => (jobSystem bodies deps).history i ⟨s, []⟩ moves
    ∃ n d request, g.jobId = jobIdOf n ∧ Submitted bodies deps H c n d request ∧
      (request.tenantId = "" ∨ g.tenantId = "" ∨ request.tenantId = g.tenantId) ∧
      (∀ o, rec.result = some o → rec.status = .completed ∧
        ∃ o', o = o'.throughJson ∧ Processed deps H n d request (.ok o')) ∧
      ∀ e, rec.error = some e → rec.status = .failed ∧
        (e = decodeJobError none ∨
          e = decodeJobError (some "job stalled more than allowable limit") ∨
          ∃ err, e = decodeJobError (failedReasonOf (rethrown err)) ∧
            Processed deps H n d request (.error err)) := by
  intro H
  have hafter := (Machine.run_after hc hi).1
  have hfound : (JobRequestKind.program bodies deps (.lookup g)).After (H i)
      (.ret (.told ⟨200, .found requestId rec⟩)) := hg ▸ hret ▸ hafter
  obtain ⟨job, state, hread, -, hcross, rfl⟩ := lookup_found hfound
  obtain ⟨before, after, c', n, a, rfl, hbefore, hrest, hid, ha, rfl⟩ := run_read hc hread
  have hm := fun i => history_subset after hbefore i
  obtain ⟨d, request, hsubmitted, htenant, hprocessed⟩ :=
    run_processed hs.queue hs.numbered hbefore ha
  refine ⟨n, d, request, hid, hsubmitted.mono hm hrest, ?_, fun o ho => ?_, fun e he => ?_⟩
  · have hdata : (jobOf a).data = a.data := by
      unfold jobOf Job.settle
      split
      · rfl
      · rfl
      · split <;> rfl
      · rfl
    simp only [crossTenant, getStatus, hdata, htenant, Bool.and_eq_false_iff,
      decide_eq_false_iff_not, ne_eq, not_not] at hcross
    obtain (h | h) | h := hcross
    · exact .inl h
    · exact .inr (.inl h)
    · exact .inr (.inr h)
  · obtain ⟨hstatus, hvalue⟩ := result_getStatus g.jobId ho
    obtain ⟨o', ho', hphase⟩ := returnvalue_jobOf hvalue
    exact ⟨hstatus, o', ho', (hprocessed _ hphase).mono hm⟩
  · obtain ⟨hstatus, rfl⟩ := error_getStatus g.jobId he
    refine ⟨hstatus, ?_⟩
    obtain h | ⟨-, h⟩ | ⟨err, h, hphase⟩ := failedReason_jobOf a
    · exact .inl (congrArg decodeJobError h)
    · exact .inr (.inl (congrArg decodeJobError h))
    · exact .inr (.inr ⟨err, congrArg decodeJobError h, (hprocessed _ hphase).mono hm⟩)

namespace Sample

def queued : PipelineDeps := { deps with env := { deps.env with ASYNC_SIZE_THRESHOLD_BYTES := 0 } }

def jobs : Machine JobRequestKind JobOp JobOp.Answer JobReply JobChoice JobEvent JobStore :=
  jobSystem (fun _ => body) queued

def lookup (requestId : String) : JobLookup := ⟨"1", "acme", requestId⟩

/-- A worker fetches the job and goes silent, another one works on it after that; then the
first comes back with its own result. Two lookups read the job, before and after. -/
def stalledJob : List (Move JobRequestKind JobChoice JobEvent) :=
  let up : JobChoice := { env := surroundings [] }
  [.spawn (.post (post .TEXT_EXTRACTION "acme")), .step 0 up, .spawn (.work timings), .step 1 up,
    .env (.retried 0), .spawn (.work timings), .spawn (.lookup (lookup "r2")), .step 3 up,
    .step 3 up] ++ List.replicate 10 (.step 2 up) ++ [.spawn (.lookup (lookup "r3")), .step 4 up] ++
    List.replicate 7 (.step 1 { up with taken := false }) ++ [.step 4 up]

end Sample

/-- The second lookup tells what the second worker has made of the request. -/
theorem lookup_told_stalled :
    ∃ c requestId rec, Sample.jobs.run ⟨{}, []⟩ Sample.stalledJob = some c ∧
      c.threads[4]?.map Thread.prog = some (.ret (.told ⟨200, .found requestId rec⟩)) ∧
      ∃ n d request o, Submitted (fun _ => Sample.body) Sample.queued
          (fun i => Sample.jobs.history i ⟨{}, []⟩ Sample.stalledJob) c n d request ∧
        rec.result = some o.throughJson ∧ Processed Sample.queued
          (fun i => Sample.jobs.history i ⟨{}, []⟩ Sample.stalledJob) n d request (.ok o) := by
  have hrun : Sample.jobs.run ⟨{}, []⟩ Sample.stalledJob = some _ := rfl
  obtain ⟨n, d, request, -, hsubmitted, -, hresult, -⟩ :=
    lookup_told (fun _ => Sample.body) Sample.queued ⟨rfl, rfl⟩ hrun (i := 4) rfl rfl rfl
  obtain ⟨-, o, ho, hprocessed⟩ := hresult _ rfl
  exact ⟨_, _, _, hrun, rfl, n, d, request, o, hsubmitted, congrArg some ho, hprocessed⟩

end OcrService
