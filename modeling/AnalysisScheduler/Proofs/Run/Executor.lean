import AnalysisScheduler.Run.Executor

/-!
# What executors owe

A caller submits jobs, waits for each of them, and shuts the executor down at any time. Owed is that
each job resolves to its own outcome until the first shutdown, and after it to a cancellation with
its work not done (`Executor.owed`). A pool does what is owed (`Executor.visible_serve_pool`). The
inline executor does what would be owed if nobody had shut it down
(`Executor.visible_serve_inline`), so after a shutdown it does not do what is owed
(`inline_runs_after_shutdown`).

Whatever a job ends with, it touches the others through the world only (`Executor.serve_congr`).
-/

namespace AnalysisScheduler

/-- What a caller does with an executor. -/
inductive Call (σ ρ : Type) where
  /-- Submits a job and waits for it. -/
  | submit (job : Job σ ρ)
  | shutdown

variable {σ ρ : Type}

namespace Call

def isSubmit : Call σ ρ → Bool
  | submit _ => true
  | shutdown => false

/-- The jobs that are submitted, in order. -/
def jobs (calls : List (Call σ ρ)) : List (Job σ ρ) :=
  calls.filterMap fun
    | submit job => some job
    | shutdown => none

/-- The jobs that are submitted before the first shutdown. -/
def early (calls : List (Call σ ρ)) : List (Job σ ρ) := jobs (calls.takeWhile isSubmit)

/-- The jobs that are submitted after a shutdown. -/
def late (calls : List (Call σ ρ)) : List (Job σ ρ) := jobs (calls.dropWhile isSubmit)

end Call

namespace Job

/-- What a job does to the world. -/
def after (job : Job σ ρ) (world : σ) : σ := (job.work world).1

/-- What a job ends with when it is run. -/
def outcome (job : Job σ ρ) (world : σ) : Outcome ρ := (job.work world).2.outcome job.bear

/-- What a job ends with when it is not run. -/
def cancellation (job : Job σ ρ) : Outcome ρ := .error (.cancelled job.bear)

/-- What jobs end with that are run one after another. -/
def outcomes (world : σ) : List (Job σ ρ) → List (Outcome ρ)
  | [] => []
  | job :: rest => job.outcome world :: outcomes (job.after world) rest

/-- What jobs do to the world that are run one after another. -/
def afterAll (world : σ) (jobs : List (Job σ ρ)) : σ :=
  jobs.foldl (fun world job => job.after world) world

end Job

/-- What has become of an executor and of the world, and what each job has resolved to. -/
structure Served (σ ρ : Type) where
  executor : Executor
  world : σ
  outcomes : List (Outcome ρ)

namespace Served

/-- The same with what was resolved earlier. -/
def after (served : Served σ ρ) (earlier : List (Outcome ρ)) : Served σ ρ :=
  { served with outcomes := earlier ++ served.outcomes }

/-- What a caller and the world see of it. -/
def visible (served : Served σ ρ) : σ × List (Outcome ρ) := (served.world, served.outcomes)

end Served

namespace Executor

/-- Answers calls one after another. -/
def serve (e : Executor) (world : σ) : List (Call σ ρ) → Served σ ρ
  | [] => ⟨e, world, []⟩
  | .submit job :: rest => (e.serve (e.submit job world).1 rest).after [(e.submit job world).2]
  | .shutdown :: rest => e.shutdown.serve world rest

/-- What executors owe: what the jobs resolve to, and the world that this leaves. -/
def owed (world : σ) (calls : List (Call σ ρ)) : σ × List (Outcome ρ) :=
  (Job.afterAll world (Call.early calls),
    Job.outcomes world (Call.early calls) ++ (Call.late calls).map Job.cancellation)

/-! ## Single calls -/

theorem submit_of_accepts {e : Executor} (accepts : e.accepts = true) (job : Job σ ρ) (world : σ) :
    e.submit job world = (job.after world, job.outcome world) := if_pos accepts

theorem submit_of_closed (job : Job σ ρ) (world : σ) :
    (pool false).submit job world = (world, job.cancellation) := rfl

theorem fst_submit (e : Executor) (job : Job σ ρ) (world : σ) :
    (e.submit job world).1 = if e.accepts then job.after world else world := by
  unfold submit
  split <;> rfl

theorem shutdown_shutdown (e : Executor) : e.shutdown.shutdown = e.shutdown := by
  cases e <;> rfl

/-! ## Histories -/

theorem serve_append (e : Executor) (world : σ) (calls more : List (Call σ ρ)) :
    e.serve world (calls ++ more) =
      ((e.serve world calls).executor.serve (e.serve world calls).world more).after
        (e.serve world calls).outcomes := by
  induction calls generalizing e world with
  | nil => rfl
  | cons call rest ih =>
    cases call with
    | submit job =>
      rw [List.cons_append, serve, ih]
      rfl
    | shutdown => exact ih e.shutdown world

theorem executor_serve_shutdown (e : Executor) (world : σ) (calls : List (Call σ ρ)) :
    (e.shutdown.serve world calls).executor = e.shutdown := by
  induction calls generalizing world with
  | nil => rfl
  | cons call rest ih =>
    cases call with
    | submit job => exact ih _
    | shutdown =>
      show (e.shutdown.shutdown.serve world rest).executor = _
      rw [shutdown_shutdown]
      exact ih world

theorem executor_serve_of_mem {e : Executor} {world : σ} {calls : List (Call σ ρ)}
    (down : .shutdown ∈ calls) : (e.serve world calls).executor = e.shutdown := by
  induction calls generalizing world with
  | nil => exact absurd down List.not_mem_nil
  | cons call rest ih =>
    cases call with
    | submit job => exact ih ((List.mem_cons.1 down).resolve_left nofun)
    | shutdown => exact e.executor_serve_shutdown world rest

/-- A shutdown after another has no effect. -/
theorem serve_shutdown_again {e : Executor} {world : σ} {before : List (Call σ ρ)}
    (down : .shutdown ∈ before) (after : List (Call σ ρ)) :
    e.serve world (before ++ .shutdown :: after) = e.serve world (before ++ after) := by
  have closed : (e.serve world before).executor = e.shutdown := executor_serve_of_mem down
  rw [serve_append, serve_append, closed]
  show (e.shutdown.shutdown.serve _ after).after _ = _
  rw [shutdown_shutdown]

/-- A job that is exchanged for another one with the same effect on the world changes what it
resolves to itself and nothing else. -/
theorem serve_congr (e : Executor) (world : σ) {job job' : Job σ ρ}
    (same : ∀ world, job.after world = job'.after world) (before after : List (Call σ ρ)) :
    ∃ (own own' : Outcome ρ) (rest : Served σ ρ),
      e.serve world (before ++ .submit job :: after) =
        (rest.after [own]).after (e.serve world before).outcomes ∧
      e.serve world (before ++ .submit job' :: after) =
        (rest.after [own']).after (e.serve world before).outcomes := by
  rw [serve_append, serve_append, serve, serve, fst_submit, fst_submit, same]
  exact ⟨_, _, _, rfl, rfl⟩

/-! ## Both executors -/

/-- A pool that has been shut down runs nothing. -/
theorem serve_closed (world : σ) (calls : List (Call σ ρ)) :
    (pool false).serve world calls =
      ⟨pool false, world, (Call.jobs calls).map Job.cancellation⟩ := by
  induction calls with
  | nil => rfl
  | cons call rest ih =>
    cases call with
    | submit job =>
      rw [serve, submit_of_closed, ih]
      rfl
    | shutdown => exact ih

theorem owed_submit (world : σ) (job : Job σ ρ) (rest : List (Call σ ρ)) :
    owed world (.submit job :: rest) =
      ((owed (job.after world) rest).1, job.outcome world :: (owed (job.after world) rest).2) := rfl

theorem visible_serve_pool (world : σ) (calls : List (Call σ ρ)) :
    ((pool true).serve world calls).visible = owed world calls := by
  induction calls generalizing world with
  | nil => rfl
  | cons call rest ih =>
    cases call with
    | submit job =>
      rw [serve, submit_of_accepts rfl, owed_submit, ← ih]
      rfl
    | shutdown =>
      rw [serve, shutdown, serve_closed]
      rfl

theorem visible_serve_inline (world : σ) (calls : List (Call σ ρ)) :
    (inline.serve world calls).visible = owed world (calls.filter Call.isSubmit) := by
  induction calls generalizing world with
  | nil => rfl
  | cons call rest ih =>
    cases call with
    | submit job =>
      show _ = owed world (.submit job :: rest.filter Call.isSubmit)
      rw [serve, submit_of_accepts rfl, owed_submit, ← ih]
      rfl
    | shutdown => exact ih world

end Executor

/-- A pool does what is owed. The inline executor does what would be owed if nobody had shut it
down. For both, a shutdown after another has no effect, and what a job ends with is nothing to the
others. -/
theorem executors_serve (world : σ) (calls : List (Call σ ρ)) :
    ((Executor.pool true).serve world calls).visible = Executor.owed world calls ∧
      (Executor.inline.serve world calls).visible =
        Executor.owed world (calls.filter Call.isSubmit) ∧
      ∀ (e : Executor) (before after : List (Call σ ρ)),
        (.shutdown ∈ before →
          e.serve world (before ++ .shutdown :: after) = e.serve world (before ++ after)) ∧
        ∀ job job' : Job σ ρ, (∀ world, job.after world = job'.after world) →
          ∃ (own own' : Outcome ρ) (rest : Served σ ρ),
            e.serve world (before ++ .submit job :: after) =
              (rest.after [own]).after (e.serve world before).outcomes ∧
            e.serve world (before ++ .submit job' :: after) =
              (rest.after [own']).after (e.serve world before).outcomes :=
  ⟨Executor.visible_serve_pool world calls, Executor.visible_serve_inline world calls,
    fun e before after => ⟨fun down => Executor.serve_shutdown_again down after,
      fun _ _ same => e.serve_congr world same before after⟩⟩

/-- The inline executor runs what is submitted after a shutdown, although it should be cancelled. -/
theorem inline_runs_after_shutdown :
    ¬ ∀ (e : Executor) (calls : List (Call Unit String)), e.accepts = true →
      (e.serve () calls).visible = Executor.owed () calls := by
  intro all
  have late := all .inline [.shutdown, .submit ⟨"B", fun world => (world, .done ["1"])⟩] rfl
  cases (congrArg Prod.snd late)

end AnalysisScheduler
