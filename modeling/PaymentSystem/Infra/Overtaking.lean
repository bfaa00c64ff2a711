/-
# PaymentSystem.Infra.Overtaking -- how far a task may be overtaken

With several workers tasks may begin and end in another order than that in which they were
accepted.  Not in any other order, though: the queue is first in, first out, and a worker has
one task in hand at a time, so a task that has left the queue has left behind it fewer
unfinished tasks than there are workers.

* `Paced`: this, of every task that has left the queue, while the others go on.
* `few_behind`, `few_jobs_behind`: of the tasks of a pool, and of their jobs.
-/
import PaymentSystem.Infra.Jobs
import Mathlib.Data.List.Count

namespace PaymentSystem.Infra

open PaymentSystem.Infra.BlockingQueue
open PaymentSystem.Theory.Runs

set_option autoImplicit false

/-- The task a thread has taken out of the queue and not completed. -/
def handed (a : Agent Task Control) : Option Task :=
  match a.point, a.control with
  | .popped u, _ | .returned (.pop (some u)), _ => some u
  | _, .holding u | _, .running u => some u
  | _, _ => none

theorem holdsTask_iff {t : Task} {a : Agent Task Control} :
    holdsTask t a = true ↔ handed a = some t := by
  unfold holdsTask handed
  split <;> simp_all

/-- A turn takes at most one item out of the queue, and only that of a `pop` takes any. -/
theorem removes_of_turn {q q' : BlockingQueue Task} {p p' : Point Task} (turn : Turn q p q' p') :
    p'.removes = [] ∨ ∃ item, p = .pop ∧ p'.removes = [item] := by
  cases turn with
  | taken item rest front => exact .inr ⟨item, rfl, rfl⟩
  | woke p asleep => cases p <;> first | exact .inl rfl | cases asleep
  | _ => exact .inl rfl

namespace ThreadPool

variable {pool pool' : ThreadPool} {workers clients : Nat} {sched : List Label}

/-- Tasks in the hands of other workers are fewer than the workers. -/
theorem length_lt_workers (accounted : Accounted pool)
    (staff : (pool.tasks.agents.countP fun a => a.control.isWorker) = pool.workers)
    {a : Agent Task Control} (member : a ∈ pool.tasks.agents) (works : a.control.isWorker = true)
    (free : handed a = none) {l : List Task} (nodup : l.Nodup)
    (held : ∀ t ∈ l, 0 < pool.held t) : l.length < pool.workers := by
  have inside : l ⊆ pool.tasks.agents.filterMap handed := by
    intro t among
    obtain ⟨b, there, holds⟩ := List.countP_pos_iff.1 (held t among)
    exact List.mem_filterMap.2 ⟨b, there, holdsTask_iff.1 holds⟩
  have fewer := (nodup.subperm inside).length_le
  rw [List.length_filterMap_eq_countP] at fewer
  -- who has a task in hand is a worker, and this one has none
  have busy : (pool.tasks.agents.countP fun b => (handed b).isSome) ≤
      (pool.tasks.agents.filter fun b => b.control.isWorker).countP fun b => (handed b).isSome := by
    rw [List.countP_filter]
    refine List.countP_mono_left fun b there some_ => ?_
    obtain ⟨t, taken⟩ := Option.isSome_iff_exists.1 some_
    rw [some_, (accounted.holder there (holdsTask_iff.2 taken)).1]
    rfl
  have idle : (pool.tasks.agents.filter fun b => b.control.isWorker).countP
      (fun b => (handed b).isSome) <
        (pool.tasks.agents.filter fun b => b.control.isWorker).length :=
    List.countP_lt_length_iff.2 ⟨a, List.mem_filter.2 ⟨member, works⟩, by rw [free]; rfl⟩
  rw [← List.countP_eq_length_filter, staff] at idle
  omega

/-- What was accepted was taken out in this order or is queued, and whatever was taken out
has left fewer unfinished tasks behind than there are workers. -/
structure Paced (pool : ThreadPool) : Prop where
  fifo : pool.accepted = pool.tasks.removed ++ pool.tasks.queue.queue
  behind : ∀ early t, early ++ [t] <+: pool.tasks.removed →
    (early.countP fun u => pool.finished u = 0) < pool.workers

/-- Of what was taken out, what is not finished is in somebody's hand. -/
theorem Paced.held (paced : Paced pool) (accounted : Accounted pool) {t : Task}
    (member : t ∈ pool.tasks.removed) (unfinished : pool.finished t = 0) : 0 < pool.held t := by
  have placed := accounted.placed t
  have counted : pool.accepted.count t = pool.tasks.removed.count t + pool.queued t := by
    rw [paced.fifo, List.count_append]
    rfl
  have some_ := List.count_pos_iff.2 member
  omega

theorem Paced.nodup (paced : Paced pool) (accounted : Accounted pool) :
    pool.tasks.removed.Nodup := by
  rw [List.nodup_iff_count_le_one]
  intro t
  have sent := accounted.sent t
  have counted : pool.accepted.count t = pool.tasks.removed.count t + pool.queued t := by
    rw [paced.fifo, List.count_append]
    rfl
  split at sent <;> omega

/-- Tasks are finished for good. -/
theorem countP_unfinished (more : ∀ t, pool.finished t ≤ pool'.finished t) (l : List Task) :
    (l.countP fun u => pool'.finished u = 0) ≤ l.countP fun u => pool.finished u = 0 := by
  refine List.countP_mono_left fun u _ open_ => decide_eq_true ?_
  have := more u
  have := of_decide_eq_true open_
  omega

theorem Paced.same (paced : Paced pool) (tasks : pool'.accepted = pool.accepted)
    (removed : pool'.tasks.removed = pool.tasks.removed)
    (queue : pool'.tasks.queue.queue = pool.tasks.queue.queue) (size : pool'.workers = pool.workers)
    (more : ∀ t, pool.finished t ≤ pool'.finished t) : Paced pool' := by
  refine ⟨?_, fun early t taken => ?_⟩
  · rw [tasks, removed, queue]
    exact paced.fifo
  · rw [removed] at taken
    rw [size]
    exact Nat.lt_of_le_of_lt (countP_unfinished more early) (paced.behind early t taken)

theorem Paced.step (paced : Paced pool) (accounted : Accounted pool)
    (staff : (pool.tasks.agents.countP fun a => a.control.isWorker) = pool.workers) {label : Label}
    (stepped : step pool label = some pool') : Paced pool' := by
  have size := step_workers stepped
  cases step_steps stepped with
  | queue i a point moved next runs completed =>
    have still (t : Task) : pool.finished t ≤ pool'.finished t := (finished_same completed t).ge
    have fifo : pool'.accepted = pool'.tasks.removed ++ pool'.tasks.queue.queue := by
      rw [accepted, moved.inserted, moved.removed]
      exact moved.turn.fifo paced.fifo
    refine ⟨fifo, fun early t taken => ?_⟩
    rw [size]
    refine Nat.lt_of_le_of_lt (countP_unfinished still early) ?_
    rw [moved.removed] at taken
    rcases removes_of_turn moved.turn with nothing | ⟨item, popping, one⟩
    · rw [nothing, List.append_nil] at taken
      exact paced.behind early t taken
    · rw [one] at taken
      rcases List.prefix_concat_iff.1 taken with last | before
      · -- this task was taken out just now, by a worker with nothing in hand
        obtain ⟨rfl, -⟩ := List.append_inj' last rfl
        have member := List.mem_of_getElem? moved.agents.at_
        have fits := accounted.fits a member
        obtain ⟨p, control⟩ := a
        obtain rfl : p = .pop := popping
        obtain rfl : control = .popping := by cases control <;> first | rfl | cases fits
        rw [List.countP_eq_length_filter]
        refine length_lt_workers accounted staff member rfl rfl
          ((paced.nodup accounted).filter _) fun u among => ?_
        obtain ⟨there, open_⟩ := List.mem_filter.1 among
        exact paced.held accounted there (of_decide_eq_true open_)
      · exact paced.behind early t before
  | submits i at_ tasks next runs completed =>
    exact paced.same (by rw [accepted, tasks]; rfl) (by rw [tasks]; rfl) (by rw [tasks]; rfl) size
      fun t => (finished_same completed t).ge
  | quiet i a a' at_ quiet tasks next runs completed =>
    exact paced.same (by rw [accepted, tasks]; rfl) (by rw [tasks]; rfl) (by rw [tasks]; rfl) size
      fun t => (finished_same completed t).ge
  | begins i task at_ tasks next runs completed =>
    exact paced.same (by rw [accepted, tasks]; rfl) (by rw [tasks]; rfl) (by rw [tasks]; rfl) size
      fun t => (finished_same completed t).ge
  | finishes i task result at_ tasks next runs completed =>
    refine paced.same (by rw [accepted, tasks]; rfl) (by rw [tasks]; rfl) (by rw [tasks]; rfl) size
      fun t => ?_
    have grown : pool'.finished t = pool.finished t + [task].count t := by
      rw [finished, completed, List.map_append, List.count_append]
      rfl
    omega

theorem paced_run (ran : exec step (init workers clients) sched = some pool) : Paced pool := by
  refine exec_induct_reached Paced (fun early u label v ranTo paced stepped =>
    paced.step (accounted_run ranTo) (count_workers ranTo) stepped) ⟨rfl, ?_⟩ ran
  intro early t taken
  cases List.append_eq_nil_iff.1 (List.prefix_nil.1 taken) |>.2

/-- **A task that has begun has left fewer unfinished tasks behind than there are workers**,
in every interleaving: of those accepted before it, all but so many have been completed. -/
theorem few_behind (ran : exec step (init workers clients) sched = some pool) {early late : List Task}
    {t : Task} (order : pool.accepted = early ++ t :: late) (begun : t ∈ pool.runs) :
    (early.countP fun u => pool.finished u = 0) < pool.workers := by
  have accounted := accounted_run ran
  have paced := paced_run ran
  have once : pool.accepted.count t ≤ 1 := by
    have sent := accounted.sent t
    split at sent <;> omega
  have taken : t ∈ pool.tasks.removed := by
    have counted := accounted.begun t
    have running := accounted.running_le_held t
    have placed := accounted.placed t
    have some_ := List.count_pos_iff.2 begun
    rw [paced.fifo, List.count_append] at placed once
    have queued_ : pool.queued t = pool.tasks.queue.queue.count t := rfl
    exact List.count_pos_iff.1 (by omega)
  have ours : early ++ [t] <+: pool.accepted := ⟨late, by rw [order]; simp⟩
  have theirs : pool.tasks.removed <+: pool.accepted := ⟨_, paced.fifo.symm⟩
  rcases List.prefix_or_prefix_of_prefix ours theirs with within | within
  · exact paced.behind early t within
  · rcases List.prefix_concat_iff.1 within with is | shorter
    · exact paced.behind early t (is ▸ List.prefix_rfl)
    · -- it would have been accepted twice
      have also := List.count_pos_iff.2 (shorter.subset taken)
      rw [order, List.count_append, List.count_cons_self] at once
      omega

end ThreadPool

namespace Pooled

open ThreadPool

/-- So has a job left fewer jobs behind that have not ended. -/
theorem few_jobs_behind {σ : Type} {jobs : Jobs σ} {count workers clients : Nat} {start : σ}
    {w : Pooled σ} {sched : List Act}
    (ran : exec (step jobs count) (init workers clients start) sched = some w)
    {early late : List Task} {t : Task} (order : w.pool.accepted = early ++ t :: late)
    (begun : t ∈ w.pool.runs) :
    (early.countP fun u => (jobs.result w.jobs u).isNone) < w.pool.workers := by
  have kept := kept_run ran
  obtain ⟨labels, ranPool⟩ := kept.poolRan
  refine Nat.lt_of_le_of_lt (List.countP_mono_left fun u _ open_ => ?_)
    (few_behind ranPool order begun)
  exact decide_eq_true (kept.unfinished (Option.isNone_iff_eq_none.1 open_))

end Pooled

end PaymentSystem.Infra
