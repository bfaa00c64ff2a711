/-
# PaymentSystem.Infra.Jobs -- what the tasks of a pool do

So far a task of the pool was a number, and running it one step.  Here a task is a job that
takes steps of its own over a state it shares with the other jobs, and a worker that runs it
lets it take them one by one; all this interleaves with the pool's own steps.  `Jobs` is any
such machine, and `Pooled` the pool together with it.

* `Kept`: each half of a run is a run of its own (of the pool, and of the jobs in some
  order), no job moves that no worker has begun, and a future holds what its job left.
* `inFlight_le`: no more jobs are under way at a time than there are workers.
* `resting_pool`: the workers rest only where the pool alone would, provided jobs do not
  wait for jobs that nobody runs (`Live`).
* `finishes`: then everything accepted gets done.
* `atomic`: jobs that are one operation each, on one object.
-/
import PaymentSystem.Infra.Draining
import Mathlib.Data.List.Perm.Subperm

namespace PaymentSystem.Infra

open PaymentSystem.Infra.BlockingQueue
open PaymentSystem.Theory.Potential
open PaymentSystem.Theory.Runs
open PaymentSystem.Theory.Threads

set_option autoImplicit false

/-- Jobs over one state: how they move, what they leave in their futures, and how many steps
are left. -/
structure Jobs (σ : Type) where
  step : σ → Task → Option σ
  result : σ → Task → Option TaskResult
  left : σ → Nat
  ended : ∀ s t r, result s t = some r → step s t = none
  others : ∀ s t s' u, step s t = some s' → u ≠ t → result s' u = result s u
  nearer : ∀ s t s', step s t = some s' → left s' + 1 ≤ left s

/-- A pool, and the state of what its tasks do. -/
structure Pooled (σ : Type) where
  pool : ThreadPool
  jobs : σ

namespace ThreadPool

/-! ## What a step records -/

/-- What a step may add to the pool's records: a new task, one begun, or one completed by the
worker that ran it. -/
structure Records (pool pool' : ThreadPool) (label : Label) : Prop where
  next : pool'.next = pool.next ∨ pool'.next = pool.next + 1 ∧ ∃ i, label = .submit i
  runs : pool.runs <+: pool'.runs
  completed : pool'.completed = pool.completed ∨ ∃ i task result, label = .go i result ∧
    pool.tasks.agents[i]? = some ⟨.idle, .running task⟩ ∧
    pool'.completed = pool.completed ++ [(task, result)]

theorem records_same {pool pool' : ThreadPool} {label : Label} (next : pool'.next = pool.next)
    (runs : pool'.runs = pool.runs) (completed : pool'.completed = pool.completed) :
    Records pool pool' label :=
  ⟨.inl next, by rw [runs], .inl completed⟩

theorem step_records {pool pool' : ThreadPool} {label : Label}
    (stepped : step pool label = some pool') : Records pool pool' label := by
  cases label with
  | queue move =>
    obtain ⟨tasks, -, rfl⟩ := Option.map_eq_some_iff.1 stepped
    exact records_same rfl rfl rfl
  | submit i =>
    simp only [step] at stepped
    split at stepped <;> cases stepped
    exact ⟨.inr ⟨rfl, i, rfl⟩, List.prefix_rfl, .inl rfl⟩
  | shutdown i =>
    simp only [step] at stepped
    split at stepped <;> cases stepped
    exact records_same rfl rfl rfl
  | go i result =>
    obtain ⟨a, at_, went⟩ := Option.bind_eq_some_iff.1 stepped
    unfold go at went
    split at went
    · cases went
      exact records_same rfl rfl rfl
    · split at went <;> cases went <;> exact records_same rfl rfl rfl
    · cases went
      exact records_same rfl rfl rfl
    · split at went
      · split at went
        · cases went
          exact records_same rfl rfl rfl
        · split at went <;> cases went
          exact records_same rfl rfl rfl
      · cases went
        exact records_same rfl rfl rfl
    · cases went
      exact records_same rfl rfl rfl
    · cases went
      exact records_same rfl rfl rfl
    · cases went
      exact records_same rfl rfl rfl
    · cases went
      exact ⟨.inl rfl, List.prefix_append .., .inl rfl⟩
    · cases went
      exact ⟨.inl rfl, List.prefix_rfl, .inr ⟨i, _, result, rfl, at_, rfl⟩⟩
    · cases went

/-- A task that has been begun has been submitted. -/
theorem next_of_runs {pool : ThreadPool} (accounted : Accounted pool) {t : Task}
    (begun : t ∈ pool.runs) : t < pool.next := by
  have counted := accounted.begun t
  have running := accounted.running_le_held t
  have placed := accounted.placed t
  have sent := accounted.sent t
  have some_ := List.count_pos_iff.2 begun
  by_contra new
  rw [if_neg new] at sent
  omega

theorem runs_of_running {pool : ThreadPool} (accounted : Accounted pool) {i : Nat} {p : Point Task}
    {t : Task} (at_ : pool.tasks.agents[i]? = some ⟨p, .running t⟩) : t ∈ pool.runs := by
  have counted := accounted.begun t
  have running : 0 < pool.tasks.agents.countP (runsTask t) :=
    List.countP_pos_iff.2 ⟨_, List.mem_of_getElem? at_, decide_eq_true rfl⟩
  exact List.count_pos_iff.1 (by omega)

/-- A task begun and not completed is being run. -/
theorem running_of_runs {pool : ThreadPool} (accounted : Accounted pool) {t : Task}
    (begun : t ∈ pool.runs) (unfinished : pool.finished t = 0) :
    ∃ i : Nat, pool.tasks.agents[i]? = some ⟨.idle, .running t⟩ := by
  have counted := accounted.begun t
  have some_ := List.count_pos_iff.2 begun
  obtain ⟨⟨p, c⟩, there, runs⟩ := List.countP_pos_iff.1
    (show 0 < pool.tasks.agents.countP (runsTask t) by omega)
  obtain ⟨i, at_⟩ := List.mem_iff_getElem?.1 there
  obtain rfl : c = .running t := by
    cases c <;> simp [runsTask] at runs
    rw [runs]
  obtain rfl := fits_idle (accounted.fits _ there) rfl
  exact ⟨i, at_⟩

/-- The task a thread is running. -/
def runningTask (a : Agent Task Control) : Option Task :=
  match a.control with
  | .running task => some task
  | _ => none

/-- **No more tasks are under way than there are workers.** -/
theorem underWay_le {workers clients : Nat} {sched : List Label} {pool : ThreadPool}
    (ran : exec step (init workers clients) sched = some pool) {l : List Task} (nodup : l.Nodup)
    (underWay : ∀ t ∈ l, t ∈ pool.runs ∧ pool.finished t = 0) : l.length ≤ pool.workers := by
  have accounted := accounted_run ran
  have inside : l ⊆ pool.tasks.agents.filterMap runningTask := by
    intro t member
    obtain ⟨begun, unfinished⟩ := underWay t member
    obtain ⟨i, at_⟩ := running_of_runs accounted begun unfinished
    exact List.mem_filterMap.2 ⟨_, List.mem_of_getElem? at_, rfl⟩
  have fewer := (nodup.subperm inside).length_le
  have workers_ : (pool.tasks.agents.filterMap runningTask).length ≤ pool.workers := by
    rw [← count_workers ran, List.length_filterMap_eq_countP]
    refine List.countP_mono_left fun a _ running => ?_
    obtain ⟨p, c⟩ := a
    cases c <;> first | rfl | cases running
  omega

end ThreadPool

namespace Pooled

open ThreadPool

variable {σ : Type}

/-- Which thread moves: in the pool's code, or a worker in the code of its task. -/
inductive Act where
  | pool (label : Label)
  | work (i : Nat)

/-- There are `count` tasks to submit, and a task ends when its job has, with what that
left. -/
def allows (jobs : Jobs σ) (count : Nat) (w : Pooled σ) : Label → Bool
  | .submit _ => w.pool.next < count
  | .go i result =>
    match w.pool.tasks.agents[i]? with
    | some ⟨.idle, .running task⟩ => jobs.result w.jobs task = some result
    | _ => true
  | _ => true

def step (jobs : Jobs σ) (count : Nat) (w : Pooled σ) : Act → Option (Pooled σ)
  | .pool label =>
    if allows jobs count w label then (ThreadPool.step w.pool label).map fun pool => { w with pool }
    else none
  | .work i =>
    match w.pool.tasks.agents[i]? with
    | some ⟨.idle, .running task⟩ => (jobs.step w.jobs task).map fun s => { w with jobs := s }
    | _ => none

def init (workers clients : Nat) (start : σ) : Pooled σ := ⟨ThreadPool.init workers clients, start⟩

/-! ## The two halves of a step -/

/-- A step of the pool that is allowed, or a step of a job that a worker runs. -/
inductive Steps (jobs : Jobs σ) (count : Nat) (w w' : Pooled σ) : Act → Prop where
  | pool (label : Label) (allowed : allows jobs count w label = true)
      (stepped : ThreadPool.step w.pool label = some w'.pool) (still : w'.jobs = w.jobs) :
      Steps jobs count w w' (.pool label)
  | work (i : Nat) (task : Task) (at_ : w.pool.tasks.agents[i]? = some ⟨.idle, .running task⟩)
      (stepped : jobs.step w.jobs task = some w'.jobs) (still : w'.pool = w.pool) :
      Steps jobs count w w' (.work i)

theorem step_steps {jobs : Jobs σ} {count : Nat} {w w' : Pooled σ} {act : Act}
    (stepped : step jobs count w act = some w') : Steps jobs count w w' act := by
  cases act with
  | pool label =>
    simp only [step] at stepped
    split at stepped
    · rename_i allowed
      obtain ⟨pool, went, rfl⟩ := Option.map_eq_some_iff.1 stepped
      exact .pool label allowed went rfl
    · cases stepped
  | work i =>
    simp only [step] at stepped
    split at stepped
    · rename_i task at_
      obtain ⟨s, went, rfl⟩ := Option.map_eq_some_iff.1 stepped
      exact .work i task at_ went rfl
    · cases stepped

section Runs

variable {jobs : Jobs σ} {count workers clients : Nat} {start : σ} {w w' : Pooled σ}

/-- What holds of both halves in every state. -/
structure Kept (jobs : Jobs σ) (count workers clients : Nat) (start : σ) (w : Pooled σ) : Prop where
  /-- The pool's half is a run of the pool. -/
  poolRan : ∃ labels, exec ThreadPool.step (ThreadPool.init workers clients) labels = some w.pool
  /-- The jobs' half is a run of the jobs, of those that workers have begun. -/
  jobsRan : ∃ order, exec jobs.step start order = some w.jobs ∧ ∀ t ∈ order, t ∈ w.pool.runs
  submitted : w.pool.next ≤ count
  /-- A future holds what its job has left. -/
  futures : ∀ t r, (t, r) ∈ w.pool.completed → jobs.result w.jobs t = some r

theorem Kept.step {act : Act} (kept : Kept jobs count workers clients start w)
    (stepped : step jobs count w act = some w') : Kept jobs count workers clients start w' := by
  obtain ⟨labels, ranPool⟩ := kept.poolRan
  obtain ⟨order, ranJobs, begun⟩ := kept.jobsRan
  cases step_steps stepped with
  | pool label allowed went still =>
    have records := step_records went
    refine ⟨⟨labels ++ [label], exec_snoc ranPool went⟩,
      ⟨order, still ▸ ranJobs, fun t member => records.runs.subset (begun t member)⟩, ?_, ?_⟩
    · rcases records.next with next | ⟨next, i, rfl⟩
      · exact next ▸ kept.submitted
      · rw [next]
        exact Nat.succ_le_of_lt (of_decide_eq_true allowed)
    · intro t r member
      rw [still]
      rcases records.completed with same | ⟨i, task, result, rfl, at_, more⟩
      · exact kept.futures t r (same ▸ member)
      · rw [more] at member
        rcases List.mem_append.1 member with before | now
        · exact kept.futures t r before
        · cases List.mem_singleton.1 now
          simpa [allows, at_] using allowed
  | work i task at_ went still =>
    rw [← still] at begun
    have runs : task ∈ w'.pool.runs := still ▸ runs_of_running (accounted_run ranPool) at_
    refine ⟨⟨labels, still ▸ ranPool⟩, ⟨order ++ [task], exec_snoc ranJobs went, ?_⟩,
      still ▸ kept.submitted, ?_⟩
    · intro t member
      rcases List.mem_append.1 member with before | now
      · exact begun t before
      · rw [List.mem_singleton.1 now]
        exact runs
    · -- the job that moves has not ended, so its future is not there yet
      intro t r member
      rw [still] at member
      have left := kept.futures t r member
      rw [jobs.others w.jobs task w'.jobs t went ?_]
      · exact left
      · rintro rfl
        rw [jobs.ended _ _ _ left] at went
        cases went

theorem kept_run {sched : List Act}
    (ran : exec (step jobs count) (init workers clients start) sched = some w) :
    Kept jobs count workers clients start w := by
  refine exec_induct (Kept jobs count workers clients start)
    (fun _ _ _ kept stepped => kept.step stepped) ?_ ran
  exact ⟨⟨[], rfl⟩, ⟨[], rfl, by simp⟩, Nat.zero_le _, by simp [init, ThreadPool.init]⟩

/-- A job that has not ended has not filled its future. -/
theorem Kept.unfinished (kept : Kept jobs count workers clients start w) {t : Task}
    (open_ : jobs.result w.jobs t = none) : w.pool.finished t = 0 := by
  refine List.count_eq_zero.2 fun done => ?_
  obtain ⟨⟨u, r⟩, there, rfl⟩ := List.mem_map.1 done
  rw [kept.futures u r there] at open_
  cases open_

/-- **No more jobs are under way than there are workers.** -/
theorem inFlight_le (kept : Kept jobs count workers clients start w) {l : List Task}
    (nodup : l.Nodup) (inFlight : ∀ t ∈ l, t ∈ w.pool.runs ∧ jobs.result w.jobs t = none) :
    l.length ≤ w.pool.workers := by
  obtain ⟨labels, ranPool⟩ := kept.poolRan
  exact underWay_le ranPool nodup fun t member =>
    ⟨(inFlight t member).1, kept.unfinished (inFlight t member).2⟩

/-! ## At rest -/

/-- Nothing under way can go on: only new calls and spurious wake-ups are left. -/
def Resting (jobs : Jobs σ) (count : Nat) (w : Pooled σ) : Prop :=
  ∀ act w', step jobs count w act = some w' →
    (∃ i, act = .pool (.submit i) ∨ act = .pool (.shutdown i)) ∨ ∃ i, act = .pool (.queue (.spurious i))

/-- Where a job cannot go on, one that has moved before can. -/
def Live (jobs : Jobs σ) (count : Nat) (start : σ) : Prop :=
  ∀ order s, exec jobs.step start order = some s → ∀ t, t < count → jobs.result s t = none →
    jobs.step s t = none → ∃ u ∈ order, jobs.result s u = none ∧ (jobs.step s u).isSome

/-- A job under way that can take a step is let take it. -/
theorem not_resting {t : Task} (kept : Kept jobs count workers clients start w)
    (begun : t ∈ w.pool.runs) (open_ : jobs.result w.jobs t = none)
    (can : (jobs.step w.jobs t).isSome) : ¬ Resting jobs count w := by
  intro resting
  obtain ⟨labels, ranPool⟩ := kept.poolRan
  obtain ⟨i, at_⟩ := running_of_runs (accounted_run ranPool) begun (kept.unfinished open_)
  obtain ⟨s, stepped⟩ := Option.isSome_iff_exists.1 can
  rcases resting (.work i) ⟨w.pool, s⟩ (by simp only [step, at_, stepped]; rfl) with
    ⟨i, is | is⟩ | ⟨i, is⟩ <;> cases is

/-- **The workers rest only where the pool alone would.** -/
theorem resting_pool (kept : Kept jobs count workers clients start w) (live : Live jobs count start)
    (resting : Resting jobs count w) : w.pool.Resting := by
  intro label pool stepped
  by_cases allowed : allows jobs count w label = true
  · rcases resting (.pool label) ⟨pool, w.jobs⟩
      (by simp only [step, allowed, if_true, stepped]; rfl) with ⟨i, is | is⟩ | ⟨i, is⟩
    · cases is
      exact .inl ⟨i, .inl rfl⟩
    · cases is
      exact .inl ⟨i, .inr rfl⟩
    · cases is
      exact .inr ⟨i, rfl⟩
  · cases label with
    | submit i => exact .inl ⟨i, .inl rfl⟩
    | queue move => exact absurd rfl allowed
    | shutdown i => exact absurd rfl allowed
    | go i result =>
      -- a worker stands at a task that has not ended, or has left something else
      exfalso
      obtain ⟨labels, ranPool⟩ := kept.poolRan
      obtain ⟨order, ranJobs, begun⟩ := kept.jobsRan
      simp only [allows] at allowed
      split at allowed
      · rename_i task at_
        have accounted := accounted_run ranPool
        have runs : task ∈ w.pool.runs := runs_of_running accounted at_
        cases left : jobs.result w.jobs task with
        | some r =>
          have can : step jobs count w (.pool (.go i r)) ≠ none := by
            simp [step, allows, at_, left, ThreadPool.step, go]
          obtain ⟨w', stepped⟩ := Option.ne_none_iff_exists'.1 can
          rcases resting _ w' stepped with ⟨i, is | is⟩ | ⟨i, is⟩ <;> cases is
        | none =>
          cases moved : jobs.step w.jobs task with
          | some s => exact not_resting kept runs left (by rw [moved]; rfl) resting
          | none =>
            have old : task < count := Nat.lt_of_lt_of_le (next_of_runs accounted runs) kept.submitted
            obtain ⟨u, member, open_, can⟩ := live order w.jobs ranJobs task old left moved
            exact not_resting kept (begun u member) open_ can resting
      · exact allowed rfl

/-- And wherever the pool rests, its jobs do. -/
theorem resting_of_pool (resting : w.pool.Resting) : Resting jobs count w := by
  intro act w' stepped
  cases step_steps stepped with
  | pool label allowed went still =>
    rcases resting label w'.pool went with ⟨i, rfl | rfl⟩ | ⟨i, rfl⟩
    · exact .inl ⟨i, .inl rfl⟩
    · exact .inl ⟨i, .inr rfl⟩
    · exact .inr ⟨i, rfl⟩
  | work i task at_ went still =>
    have can : ThreadPool.step w.pool (.go i (.ok ())) ≠ none := by
      simp [ThreadPool.step, at_, go]
    obtain ⟨pool, stepped⟩ := Option.ne_none_iff_exists'.1 can
    rcases resting _ pool stepped with ⟨i, is | is⟩ | ⟨i, is⟩ <;> cases is

/-- What a pool and its jobs have done when they rest: every accepted task has been worked to
its end, and its future holds what it left. -/
structure Finished (jobs : Jobs σ) (w : Pooled σ) : Prop where
  drained : Drained w.pool
  futures : ∀ t ∈ w.pool.accepted, ∃ r, jobs.result w.jobs t = some r ∧ (t, r) ∈ w.pool.completed

theorem Kept.finished (kept : Kept jobs count workers clients start w) (live : Live jobs count start)
    (resting : Resting jobs count w) : Finished jobs w := by
  obtain ⟨labels, ranPool⟩ := kept.poolRan
  have drained := (resting_pool kept live resting).drained ranPool
  refine ⟨drained, fun t accepted => ?_⟩
  have done : 0 < (w.pool.completed.map Prod.fst).count t := by
    show 0 < w.pool.finished t
    rw [(drained.completed t accepted).1]
    exact Nat.one_pos
  obtain ⟨⟨u, r⟩, there, rfl⟩ := List.mem_map.1 (List.count_pos_iff.1 done)
  exact ⟨r, kept.futures u r there, there⟩

/-! ## Every run comes to rest -/

/-- What the pool and its jobs still have to do. -/
def effort (jobs : Jobs σ) (n workers : Nat) (w : Pooled σ) : Nat :=
  w.pool.effort n workers + jobs.left w.jobs

/-- What a step brings in: only the pool's own can. -/
def Act.credit (n workers : Nat) : Act → Nat
  | .pool label => label.credit n workers
  | .work _ => 0

theorem draining (jobs : Jobs σ) (count n workers : Nat) :
    Draining (step jobs count) (fun w => Sized n workers w.pool) (effort jobs n workers)
      (Act.credit n workers) where
  keeps w act w' sized stepped := by
    cases step_steps stepped with
    | pool label allowed went still => exact sized_step sized went
    | work i task at_ went still => exact still ▸ sized
  pays w act w' sized stepped := by
    cases step_steps stepped with
    | pool label allowed went still =>
      have paid := step_pays sized went
      rw [effort, effort, still, Act.credit]
      omega
    | work i task at_ went still =>
      have paid := jobs.nearer _ _ _ went
      rw [effort, effort, still, Act.credit]
      omega

theorem resting_iff_rests {n workers : Nat} :
    Resting jobs count w ↔ Rests (step jobs count) (Act.credit n workers) w := by
  refine forall_congr' fun act => forall_congr' fun w' => imp_congr_right fun _ => ?_
  cases act with
  | work i => simp [Act.credit]
  | pool label =>
    cases label with
    | queue move => cases move <;> simp [Act.credit, Label.credit, Move.credit]
    | submit i => simp [Act.credit, Label.credit]
    | shutdown i => simp [Act.credit, Label.credit]
    | go i result => simp [Act.credit, Label.credit]

/-- **A pool with its jobs finishes its work.**  A run is no longer than the jobs, its new
calls and its spurious wake-ups can account for; once nothing under way can go on, every
accepted task has been worked to its end; and every run can be continued to there. -/
theorem finishes (live : Live jobs count start) {sched : List Act}
    (ran : exec (step jobs count) (init workers clients start) sched = some w) :
    sched.length ≤ 5 * w.pool.workers + jobs.left start +
        (sched.map (Act.credit (w.pool.workers + clients) w.pool.workers)).sum ∧
      (Resting jobs count w → Finished jobs w) ∧
      ∃ later rested, exec (step jobs count) w later = some rested ∧
        (∀ act ∈ later, act.credit (w.pool.workers + clients) w.pool.workers = 0) ∧
        Resting jobs count rested ∧ Finished jobs rested := by
  have kept := kept_run ran
  obtain ⟨labels, ranPool⟩ := kept.poolRan
  have same := workers_run ranPool
  have drains := draining jobs count (w.pool.workers + clients) w.pool.workers
  have sized : Sized (w.pool.workers + clients) w.pool.workers (init workers clients start).pool := by
    rw [same]
    exact sized_init workers clients
  have bound := drains.run sized ran
  have paid : effort jobs (w.pool.workers + clients) w.pool.workers (init workers clients start) =
      5 * w.pool.workers + jobs.left start := by
    rw [effort, init, same, effort_init]
  obtain ⟨later, rested, ran', free, rests⟩ := drains.rests (drains.invariant sized ran)
  have resting := resting_iff_rests.2 rests
  have whole := kept_run (exec_append.2 ⟨w, ran, ran'⟩)
  exact ⟨by omega, fun resting => kept.finished live resting, later, rested, ran', free, resting,
    whole.finished live resting⟩

end Runs

/-- A user of the pool submits a task, with room in the queue and nobody asleep. -/
def submits (i : Nat) : List Act :=
  [.pool (.submit i), .pool (.queue (.enter i)), .pool (.queue (.notify i none)),
    .pool (.go i (.ok ()))]

/-- A worker takes a task out of the queue and begins it. -/
def picksUp (i : Nat) : List Act :=
  [.pool (.go i (.ok ())), .pool (.queue (.enter i)), .pool (.queue (.notify i none)),
    .pool (.go i (.ok ())), .pool (.go i (.ok ()))]

end Pooled

/-! ## Jobs of one step

Each task calls one operation of an object they share, which is one section under its mutex. -/

/-- An object, and the operations called on it with what they answered. -/
structure Served (σ ω ρ : Type) where
  object : σ
  calls : List (ω × Option ρ)

section Served

variable {σ ω ρ : Type}

def Served.opening (object : σ) (ops : List ω) : Served σ ω ρ :=
  ⟨object, ops.map fun op => (op, none)⟩

/-- What the operation at a place answered. -/
def Served.answered (s : Served σ ω ρ) (t : Task) : Option ρ := (s.calls[t]?).bind Prod.snd

def Served.step (perform : ω → σ → ρ × σ) (s : Served σ ω ρ) (t : Task) : Option (Served σ ω ρ) :=
  match s.calls[t]? with
  | some (op, none) =>
    let r := perform op s.object
    some ⟨r.2, s.calls.set t (op, some r.1)⟩
  | _ => none

theorem Served.step_performs {perform : ω → σ → ρ × σ} {s s' : Served σ ω ρ} {t : Task}
    (stepped : Served.step perform s t = some s') : ∃ op, s.calls[t]? = some (op, none) ∧
      s' = ⟨(perform op s.object).2, s.calls.set t (op, some (perform op s.object).1)⟩ := by
  unfold Served.step at stepped
  split at stepped
  · rename_i op at_
    cases stepped
    exact ⟨op, at_, rfl⟩
  · cases stepped

/-- The operations, each the job of the task at its place. -/
def atomic (perform : ω → σ → ρ × σ) (result : ρ → TaskResult) : Jobs (Served σ ω ρ) where
  step := Served.step perform
  result s t := (s.answered t).map result
  left s := s.calls.countP fun c => c.2.isNone
  ended s t r left := by
    obtain ⟨a, answered, -⟩ := Option.map_eq_some_iff.1 left
    obtain ⟨⟨op, a'⟩, at_, here⟩ := Option.bind_eq_some_iff.1 answered
    obtain rfl : a' = some a := here
    simp [Served.step, at_]
  others s t s' u stepped other := by
    obtain ⟨op, at_, rfl⟩ := Served.step_performs stepped
    simp only [Served.answered, List.getElem?_set_ne (Ne.symm other)]
  nearer s t s' stepped := by
    obtain ⟨op, at_, rfl⟩ := Served.step_performs stepped
    have moved := countP_set_add at_ (fun c => c.2.isNone) (op, some (perform op s.object).1)
    simp only [Option.isNone_none, Option.isNone_some, if_true, Bool.false_eq_true, if_false] at moved
    exact Nat.le_of_eq moved

/-- An operation waits for no other. -/
theorem atomic_live (perform : ω → σ → ρ × σ) (result : ρ → TaskResult) (object : σ) (ops : List ω) :
    Pooled.Live (atomic perform result) ops.length (Served.opening object ops) := by
  intro order s ran t inside open_ stuck
  have length : s.calls.length = ops.length := by
    refine exec_induct (fun s : Served σ ω ρ => s.calls.length = ops.length)
      (fun _ _ _ same stepped => ?_) (by simp [Served.opening]) ran
    obtain ⟨op, -, rfl⟩ := Served.step_performs stepped
    rw [List.length_set, same]
  obtain ⟨⟨op, a⟩, at_⟩ : ∃ c, s.calls[t]? = some c :=
    ⟨_, List.getElem?_eq_getElem (length ▸ inside)⟩
  cases a with
  | none =>
    have can : (atomic perform result).step s t ≠ none := by
      simp [atomic, Served.step, at_]
    exact absurd stuck can
  | some a =>
    have answered : (atomic perform result).result s t = some (result a) := by
      simp [atomic, Served.answered, at_]
    rw [answered] at open_
    cases open_

end Served

end PaymentSystem.Infra
