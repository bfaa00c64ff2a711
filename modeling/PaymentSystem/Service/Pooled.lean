/-
# PaymentSystem.Service.Pooled -- payments on a thread pool

The way `main.cpp` and the tests put the service under load: each task submitted to the
pool is one call of `pay`, and its future is ready when the call has ended.  The pool's own
steps and those of the calls its workers are in interleave in any order.

* `payments`: the calls as the jobs of a pool.
* `pooled_safe`: what the service sees is an interleaving of the accepted calls, at most as
  many at a time as there are workers, and each future holds how its call ended.
* `bounded_overtaking`: a call that has begun has left few calls behind.
* `pooled_finish`: no call waits for one that nobody runs, so all of them end.
* `pooled_spending`: of equal payments out of one wallet exactly as many succeed as it can
  afford, however the pool schedules them.
-/
import PaymentSystem.Infra.Overtaking
import PaymentSystem.Service.Finishing
import PaymentSystem.Service.Spending

namespace PaymentSystem.Service

open PaymentSystem.Common
open PaymentSystem.Infra
open PaymentSystem.Patterns
open PaymentSystem.Theory.Runs
open PaymentSystem.Theory.Spending
open PaymentSystem.Theory.Threads

set_option autoImplicit false

variable {chain : ValidationChain}

/-! ## Calls as jobs -/

/-- What a call leaves in its future: that it returned, or the exception that escaped it. -/
def taskResult : Outcome → TaskResult
  | .ok _ => .ok ()
  | .error e => .error e

/-- A call that has ended takes no step. -/
theorem next_of_ended {c : Call} {s : PaymentService} {pc : Pc} (ended : pc.outcome ≠ none) :
    next chain c s pc = none := by
  cases pc with
  | replied res => rfl
  | unbuilt id e => rfl
  | finished txn out => rfl
  | _ => exact absurd rfl ended

/-- How the call at a place has ended. -/
def System.outcomeAt (sys : System) (t : Task) : Option Outcome :=
  (sys.threads[t]?).bind fun u => u.pc.outcome

theorem outcomeAt_some {sys : System} {t : Task} {out : Outcome} :
    sys.outcomeAt t = some out ↔ ∃ u, sys.threads[t]? = some u ∧ u.pc.outcome = some out :=
  Option.bind_eq_some_iff

theorem outcomeAt_none {sys : System} {t : Task} {u : Thread} (at_ : sys.threads[t]? = some u) :
    sys.outcomeAt t = u.pc.outcome := by
  rw [System.outcomeAt, at_]
  rfl

/-- The calls of a system, each the job of the task at its place. -/
def payments (chain : ValidationChain) : Jobs System where
  step := System.step chain
  result sys t := (sys.outcomeAt t).map taskResult
  left := System.remaining
  ended sys t r left := by
    obtain ⟨out, ended, -⟩ := Option.map_eq_some_iff.1 left
    obtain ⟨u, at_, ended⟩ := outcomeAt_some.1 ended
    rw [step_none at_]
    exact next_of_ended (by rw [ended]; exact Option.some_ne_none _)
  others sys t sys' u stepped other := by
    obtain ⟨c, pc, pc', -, -, threads⟩ := step_fires stepped
    rw [System.outcomeAt, System.outcomeAt, threads, List.getElem?_set_ne (Ne.symm other)]
  nearer _ _ _ stepped := remaining_step stepped

section Run

variable {service : PaymentService} {calls : List Call} {workers clients : Nat}
  {sched : List Pooled.Act} {w : Pooled System}

/-- **No call waits for one that nobody runs.** -/
theorem payments_live (unlocked : ∀ key, ¬ service.locks.Held key) :
    Pooled.Live (payments chain) calls.length (System.init service calls) := by
  intro order sys ran t inside open_ stuck
  have reached : Reaches chain service calls order sys := ran
  rw [← length_threads reached] at inside
  have at_ := List.getElem?_eq_getElem inside
  have unended : (sys.threads[t]).pc.outcome = none := by
    rw [← outcomeAt_none at_]
    exact Option.map_eq_none_iff.1 open_
  obtain ⟨j, u, member, there, insideLock, can⟩ := reached.inside_moves unlocked at_ unended stuck
  refine ⟨j, member, ?_, can⟩
  show (sys.outcomeAt j).map taskResult = none
  rw [outcomeAt_none there, insideLock.unended]
  rfl

/-! ## What the service sees -/

/-- What a pool and the calls it runs keep to, in every state. -/
structure PooledSafe (chain : ValidationChain) (service : PaymentService) (calls : List Call)
    (w : Pooled System) : Prop where
  /-- The service sees an interleaving of accepted calls. -/
  interleaves : ∃ order, Reaches chain service calls order w.jobs ∧ ∀ t ∈ order, t ∈ w.pool.accepted
  /-- A call that was not accepted has done nothing. -/
  untouched : ∀ t u, w.jobs.threads[t]? = some u → t ∉ w.pool.accepted → u.pc = .start
  /-- No more calls are in flight than there are workers. -/
  capped : ∀ l : List Nat, l.Nodup → (∀ t ∈ l, ∃ u, w.jobs.threads[t]? = some u ∧ u.pc.InFlight) →
    l.length ≤ w.pool.workers
  /-- A future holds how its call has ended. -/
  futures : ∀ t r, (t, r) ∈ w.pool.completed →
    ∃ u out, w.jobs.threads[t]? = some u ∧ u.pc.outcome = some out ∧ taskResult out = r

/-- What has been begun has been accepted. -/
theorem accepted_of_runs {pool : ThreadPool} (accounted : pool.Accounted) {t : Task}
    (begun : t ∈ pool.runs) : t ∈ pool.accepted := by
  have counted := accounted.begun t
  have running := accounted.running_le_held t
  have placed := accounted.placed t
  have some_ := List.count_pos_iff.2 begun
  exact List.count_pos_iff.1 (by omega)

/-- **Payments on a pool are an interleaving of calls of `pay`**, no more of them at a time
than there are workers, and each future holds how its call has ended. -/
theorem pooled_safe (ran : exec (Pooled.step (payments chain) calls.length)
      (Pooled.init workers clients (System.init service calls)) sched = some w) :
    PooledSafe chain service calls w := by
  have kept := Pooled.kept_run ran
  obtain ⟨labels, ranPool⟩ := kept.poolRan
  obtain ⟨order, ranJobs, begun⟩ := kept.jobsRan
  have accounted := ThreadPool.accounted_run ranPool
  have reached : Reaches chain service calls order w.jobs := ranJobs
  have accepted : ∀ t ∈ order, t ∈ w.pool.accepted :=
    fun t member => accepted_of_runs accounted (begun t member)
  refine ⟨⟨order, reached, accepted⟩, fun t u at_ not => ?_, fun l nodup inFlight => ?_,
    fun t r member => ?_⟩
  · exact reached.unscheduled at_ fun member => not (accepted t member)
  · refine Pooled.inFlight_le kept nodup fun t member => ?_
    obtain ⟨u, at_, unended, started⟩ := inFlight t member
    refine ⟨begun t ?_, ?_⟩
    · by_contra never
      exact started (reached.unscheduled at_ never)
    · show (w.jobs.outcomeAt t).map taskResult = none
      rw [outcomeAt_none at_, unended]
      rfl
  · obtain ⟨out, ended, is⟩ := Option.map_eq_some_iff.1 (kept.futures t r member)
    obtain ⟨u, at_, ended⟩ := outcomeAt_some.1 ended
    exact ⟨u, out, at_, ended, is⟩

/-! ## In what order -/

/-- **Payments on a pool overtake one another only so far.**  However the pool and the calls
it runs are scheduled, once a call has begun, fewer calls accepted before it than there are
workers have not ended. -/
theorem bounded_overtaking (ran : exec (Pooled.step (payments chain) calls.length)
      (Pooled.init workers clients (System.init service calls)) sched = some w)
    {early late : List Task} {t : Task} {u : Thread} (order : w.pool.accepted = early ++ t :: late)
    (at_ : w.jobs.threads[t]? = some u) (started : u.pc ≠ .start) :
    (early.countP fun v => (w.jobs.outcomeAt v).isNone) < w.pool.workers := by
  have kept := Pooled.kept_run ran
  obtain ⟨taken, ranJobs, begun⟩ := kept.jobsRan
  have reached : Reaches chain service calls taken w.jobs := ranJobs
  have moved : t ∈ w.pool.runs := by
    refine begun t ?_
    by_contra never
    exact started (reached.unscheduled at_ never)
  refine Nat.lt_of_le_of_lt (List.countP_mono_left fun v _ open_ => ?_)
    (Pooled.few_jobs_behind ran order moved)
  show ((w.jobs.outcomeAt v).map taskResult).isNone = true
  rw [Option.isNone_iff_eq_none.1 open_]
  rfl

/-! ## All of them end -/

/-- What is left of the calls on a pool that has come to rest: the accepted ones have ended,
and no mutex is held. -/
structure PooledDone (w : Pooled System) : Prop where
  drained : w.pool.Drained
  ended : ∀ t ∈ w.pool.accepted, ∃ u out, w.jobs.threads[t]? = some u ∧
    u.pc.outcome = some out ∧ (t, taskResult out) ∈ w.pool.completed
  released : ∀ key, ¬ w.jobs.service.locks.Held key

theorem pooled_done (unlocked : ∀ key, ¬ service.locks.Held key)
    (ran : exec (Pooled.step (payments chain) calls.length)
      (Pooled.init workers clients (System.init service calls)) sched = some w)
    (finished : Pooled.Finished (payments chain) w) : PooledDone w := by
  have kept := Pooled.kept_run ran
  obtain ⟨labels, ranPool⟩ := kept.poolRan
  obtain ⟨order, ranJobs, begun⟩ := kept.jobsRan
  have reached : Reaches chain service calls order w.jobs := ranJobs
  have ended : ∀ t ∈ w.pool.accepted, ∃ u out, w.jobs.threads[t]? = some u ∧
      u.pc.outcome = some out ∧ (t, taskResult out) ∈ w.pool.completed := by
    intro t accepted
    obtain ⟨r, left, filled⟩ := finished.futures t accepted
    obtain ⟨out, ended, rfl⟩ := Option.map_eq_some_iff.1 left
    obtain ⟨u, at_, ended⟩ := outcomeAt_some.1 ended
    exact ⟨u, out, at_, ended, filled⟩
  refine ⟨finished.drained, ended, reached.released unlocked fun u member => ?_⟩
  obtain ⟨t, at_⟩ := List.mem_iff_getElem?.1 member
  by_cases moved : t ∈ order
  · obtain ⟨v, out, there, ended, -⟩ :=
      ended t (accepted_of_runs (ThreadPool.accounted_run ranPool) (begun t moved))
    cases at_.symm.trans there
    exact .inl (by rw [ended]; exact Option.some_ne_none _)
  · exact .inr (reached.unscheduled at_ moved)

/-- **Payments on a pool all end.**  A run has at most 21 steps for each call beside the
pool's own; where nothing under way can go on every accepted call has ended, with its
future filled and no mutex held; and every run can be continued to there. -/
theorem pooled_finish (unlocked : ∀ key, ¬ service.locks.Held key)
    (ran : exec (Pooled.step (payments chain) calls.length)
      (Pooled.init workers clients (System.init service calls)) sched = some w) :
    sched.length ≤ 5 * w.pool.workers + 21 * calls.length +
        (sched.map (Pooled.Act.credit (w.pool.workers + clients) w.pool.workers)).sum ∧
      (Pooled.Resting (payments chain) calls.length w → PooledDone w) ∧
      ∃ later rested, exec (Pooled.step (payments chain) calls.length) w later = some rested ∧
        Pooled.Resting (payments chain) calls.length rested ∧ PooledDone rested := by
  obtain ⟨bound, done, later, rested, ran', -, rests, finished⟩ :=
    Pooled.finishes (payments_live unlocked) ran
  have total : (payments chain).left (System.init service calls) = 21 * calls.length :=
    remaining_init service calls
  rw [total] at bound
  exact ⟨bound, fun resting => pooled_done unlocked ran (done resting), later, rested, ran', rests,
    pooled_done unlocked (exec_append.2 ⟨w, ran, ran'⟩) finished⟩

end Run

/-! ## Spending on a pool -/

section Spending

variable {limit threshold : Money} {wallet : String} {service : PaymentService} {calls : List Call}
  {workers clients : Nat} {sched : List Pooled.Act} {w : Pooled System}

/-- A call that spent, or was refused for want of funds, returned. -/
theorem Spent.returned {sys : System} {t : Thread} {out : Outcome} (spent : Spent wallet service sys)
    (member : t ∈ sys.threads) (ended : t.pc.outcome = some out) : taskResult out = .ok () := by
  cases succeeded : t.succeeded with
  | true =>
    rw [Thread.succeeded, ended] at succeeded
    cases out with
    | error e => cases succeeded
    | ok res => rfl
  | false =>
    obtain ⟨⟨msg, refused⟩, -⟩ := spent.others t member succeeded
    rw [ended] at refused
    cases refused
    rfl

/-- **Payments out of one wallet on a pool succeed exactly as far as it can afford them.**
Once all of them were submitted, none of them turned away, and nothing under way can go on,
every future is ready without an exception, the wallet and the payees have what the
successful payments come to, and of equal amounts exactly so many succeeded as the wallet
held. -/
theorem pooled_spending (concurrent : Concurrent limit threshold wallet service calls)
    (regular : Regular service calls)
    (ran : exec (Pooled.step (payments (standardChain limit threshold)) calls.length)
      (Pooled.init workers clients (System.init service calls)) sched = some w)
    (resting : Pooled.Resting (payments (standardChain limit threshold)) calls.length w)
    (submitted : w.pool.next = calls.length) (welcome : w.pool.rejected = []) :
    (∀ t, t < calls.length → (t, .ok ()) ∈ w.pool.completed) ∧
      Spent wallet service w.jobs ∧
      ∀ a : Int, 0 < a → (∀ c ∈ calls, c.req.amount.minorUnits.toInt = a) →
        (w.jobs.threads.countP Thread.succeeded : Int) =
          min (calls.length : Int) (funds service wallet / a) := by
  have kept := Pooled.kept_run ran
  obtain ⟨order, ranJobs, -⟩ := kept.jobsRan
  have reached : Reaches (standardChain limit threshold) service calls order w.jobs := ranJobs
  have done := pooled_done concurrent.unlocked ran
    (kept.finished (payments_live concurrent.unlocked) resting)
  have accepted {t : Nat} (inside : t < calls.length) : t ∈ w.pool.accepted := by
    refine (done.drained.decided t (submitted ▸ inside)).resolve_right fun rejected => ?_
    rw [welcome] at rejected
    cases rejected
  have complete : w.jobs.Complete := by
    intro u member unended
    obtain ⟨t, at_⟩ := List.mem_iff_getElem?.1 member
    have inside := (List.getElem?_eq_some_iff.1 at_).1
    rw [length_threads reached] at inside
    obtain ⟨v, out, there, ended, -⟩ := done.ended t (accepted inside)
    cases at_.symm.trans there
    cases ended.symm.trans unended
  have spent := spent_complete concurrent regular reached complete
  refine ⟨fun t inside => ?_, spent, fun a positive equal => spent.count reached positive equal⟩
  obtain ⟨u, out, at_, ended, filled⟩ := done.ended t (accepted inside)
  rw [spent.returned (List.mem_of_getElem? at_) ended] at filled
  exact filled

end Spending

/-! ## Three payments on two workers -/

/-- Two of the three calls are under way, the first waiting for the second. -/
def twoUnderWay : List Pooled.Act :=
  Pooled.submits 2 ++ Pooled.submits 2 ++ Pooled.submits 2 ++ Pooled.picksUp 0 ++
    Pooled.picksUp 1 ++ List.replicate 4 (.work 0) ++ List.replicate 5 (.work 1)

/-- All three calls have ended, and the workers are asleep. -/
def allEnded : List Pooled.Act :=
  twoUnderWay ++ List.replicate 15 (.work 1) ++ [.pool (.go 1 (.ok ()))] ++ Pooled.picksUp 1 ++
    List.replicate 16 (.work 0) ++ List.replicate 13 (.work 1) ++
    [.pool (.go 0 (.ok ())), .pool (.go 0 (.ok ())), .pool (.queue (.enter 0)),
      .pool (.go 1 (.ok ())), .pool (.go 1 (.ok ())), .pool (.queue (.enter 1))]

/-- Three payments on a pool of two workers and one user. -/
def threeOnTwo : Pooled System :=
  Pooled.init 2 1 (System.init (PaymentService.opening userAndMerchant) threePayments)

theorem pooled_safe_two : ∃ w,
    exec (Pooled.step (payments mainChain) threePayments.length) threeOnTwo twoUnderWay = some w ∧
    w.pool.runs = [0, 1] ∧
    PooledSafe mainChain (PaymentService.opening userAndMerchant) threePayments w := by
  have ran : (exec (Pooled.step (payments mainChain) threePayments.length) threeOnTwo twoUnderWay).any
      (fun w => decide (w.pool.runs = [0, 1])) = true := by decide +kernel
  obtain ⟨w, run, found⟩ := exec_any ran
  exact ⟨w, run, of_decide_eq_true found, pooled_safe run⟩

/-- The second call is under way before the first has ended. -/
theorem bounded_overtaking_two : ∃ w,
    exec (Pooled.step (payments mainChain) threePayments.length) threeOnTwo twoUnderWay = some w ∧
    w.pool.accepted = [0, 1, 2] ∧
    (([0] : List Task).countP fun v => (w.jobs.outcomeAt v).isNone) < w.pool.workers := by
  have ran : (exec (Pooled.step (payments mainChain) threePayments.length) threeOnTwo twoUnderWay).any
      (fun w => decide (w.pool.accepted = [0, 1, 2]) &&
        (w.jobs.threads[1]?).any fun u => u.pc.begun) = true := by decide +kernel
  obtain ⟨w, run, found⟩ := exec_any ran
  rw [Bool.and_eq_true, decide_eq_true_eq, Option.any_eq_true] at found
  obtain ⟨accepted, u, at_, begun⟩ := found
  refine ⟨w, run, accepted, ?_⟩
  have order : w.pool.accepted = [0] ++ 1 :: [2] := accepted
  refine bounded_overtaking run order at_ ?_
  intro start
  rw [start] at begun
  cases begun

theorem pooled_finish_three : ∃ w,
    exec (Pooled.step (payments mainChain) threePayments.length) threeOnTwo allEnded = some w ∧
    w.pool.accepted = [0, 1, 2] ∧ PooledDone w := by
  have ran : (exec (Pooled.step (payments mainChain) threePayments.length) threeOnTwo allEnded).any
      (fun w => decide (w.pool.accepted = [0, 1, 2]) && w.pool.tasks.agents.all w.pool.restsIn) =
        true := by decide +kernel
  obtain ⟨w, run, found⟩ := exec_any ran
  rw [Bool.and_eq_true, decide_eq_true_eq, List.all_eq_true] at found
  obtain ⟨labels, ranPool⟩ := (Pooled.kept_run run).poolRan
  have resting := (ThreadPool.resting_iff (ThreadPool.accounted_run ranPool)).2 found.2
  have unlocked : ∀ key, ¬ (PaymentService.opening userAndMerchant).locks.Held key := fun key held => by
    cases held
  exact ⟨w, run, found.1, (pooled_finish unlocked run).2.1 (Pooled.resting_of_pool resting)⟩

/-- The wallet of 1000.00 affords two of three payments of 400.00. -/
theorem pooled_spending_three : ∃ w,
    exec (Pooled.step (payments mainChain) threePayments.length) threeOnTwo allEnded = some w ∧
    Spent "u" (PaymentService.opening userAndMerchant) w.jobs ∧
    w.jobs.threads.countP Thread.succeeded = 2 := by
  have concurrent : Concurrent ⟨10000000, .inr⟩ ⟨5000000, .inr⟩ "u"
      (PaymentService.opening userAndMerchant) threePayments := by
    refine .opening (fun c among => ?_) .inr (by decide) (by decide) (by decide) (by decide)
      (by decide +kernel)
    simp only [threePayments, List.mem_cons, List.not_mem_nil, or_false] at among
    rcases among with rfl | rfl | rfl <;> exact Env.shipped_shipped 0
  have regular : Regular (PaymentService.opening userAndMerchant) threePayments := by
    refine ⟨solvent_userAndMerchant.nonneg, by decide, by decide, fun c among type payload => ?_⟩
    simp only [threePayments, List.mem_cons, List.not_mem_nil, or_false] at among
    rcases among with rfl | rfl | rfl <;> rfl
  have ran : (exec (Pooled.step (payments mainChain) threePayments.length) threeOnTwo allEnded).any
      (fun w => decide (w.pool.next = 3 ∧ w.pool.rejected = []) &&
        w.pool.tasks.agents.all w.pool.restsIn) = true := by decide +kernel
  obtain ⟨w, run, found⟩ := exec_any ran
  rw [Bool.and_eq_true, decide_eq_true_eq, List.all_eq_true] at found
  obtain ⟨⟨submitted, welcome⟩, rests⟩ := found
  obtain ⟨labels, ranPool⟩ := (Pooled.kept_run run).poolRan
  have resting := (ThreadPool.resting_iff (ThreadPool.accounted_run ranPool)).2 rests
  obtain ⟨-, spent, counts⟩ := pooled_spending concurrent regular run
    (Pooled.resting_of_pool resting) submitted welcome
  have count := counts 40000 (by decide) (by decide)
  have two : min ((threePayments.length : Nat) : Int)
      (funds (PaymentService.opening userAndMerchant) "u" / 40000) = 2 := by decide
  refine ⟨w, run, spent, ?_⟩
  omega

end PaymentSystem.Service
