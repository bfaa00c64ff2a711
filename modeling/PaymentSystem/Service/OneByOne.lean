/-
# PaymentSystem.Service.OneByOne -- payments on a pool of one worker

With one worker the pool is a queue in front of `pay`: whatever the threads that submit do,
and however their steps and the worker's interleave, the calls are made one after another,
in the order in which their tasks were accepted.

* `made_of_turns`: jobs done in turn have left what `payAll` leaves.
* `one_worker_serial`: between two tasks of the worker, and at rest, the service and the
  answers are those of `payAll` over the accepted calls.
-/
import PaymentSystem.Infra.OneWorker
import PaymentSystem.Service.Pooled
import PaymentSystem.Service.Solo

namespace PaymentSystem.Service

open PaymentSystem.Common
open PaymentSystem.Infra
open PaymentSystem.Patterns
open PaymentSystem.Theory.Runs
open PaymentSystem.Theory.Threads

set_option autoImplicit false

variable {chain : ValidationChain}

/-! ## Jobs done in turn -/

/-- The calls of the tasks. -/
def callsAt (calls : List Call) (tasks : List Task) : List Call := tasks.filterMap (calls[·]?)

/-- The service and the answers are those of the calls of the tasks, made one after another. -/
structure Matches (chain : ValidationChain) (service : PaymentService) (calls : List Call)
    (tasks : List Task) (sys : System) : Prop where
  leaves : sys.service = (payAll chain service (callsAt calls tasks)).2
  answers : tasks.map sys.outcomeAt = (payAll chain service (callsAt calls tasks)).1.map some

theorem payAll_snoc (chain : ValidationChain) (s : PaymentService) (calls : List Call) (c : Call) :
    payAll chain s (calls ++ [c]) =
      ((payAll chain s calls).1 ++ [(pay chain c.env c.req (payAll chain s calls).2).1],
        (pay chain c.env c.req (payAll chain s calls).2).2) := by
  induction calls generalizing s with
  | nil => rfl
  | cons d calls ih => simp only [List.cons_append, payAll, ih]

section Turns

variable {service : PaymentService} {calls : List Call} {done : List Task} {sys : System}

/-- What jobs done in turn keep to. -/
structure Made (chain : ValidationChain) (service : PaymentService) (calls : List Call)
    (done : List Task) (sys : System) : Prop extends Matches chain service calls done sys where
  reached : ∃ order, Reaches chain service calls order sys
  ended : ∀ t ∈ done, ∀ u, sys.threads[t]? = some u → u.pc.outcome ≠ none
  untouched : ∀ t ∉ done, ∀ u, sys.threads[t]? = some u → u.pc = .start

theorem Made.quiescent (made : Made chain service calls done sys) : sys.Quiescent := by
  intro u member
  obtain ⟨t, at_⟩ := List.mem_iff_getElem?.1 member
  by_cases among : t ∈ done
  · exact .inl (made.ended t among u at_)
  · exact .inr (made.untouched t among u at_)

/-- **Jobs done in turn are calls made one after another.** -/
theorem made_of_turns (unlocked : ∀ key, ¬ service.locks.Held key)
    (turns : Pooled.InTurn (payments chain) (System.init service calls) done sys)
    (once : done.Nodup) : Made chain service calls done sys := by
  induction turns with
  | none =>
    refine ⟨⟨rfl, rfl⟩, ⟨[], rfl⟩, fun t member => absurd member List.not_mem_nil,
      fun t _ u at_ => (mem_init (List.mem_of_getElem? at_)).2⟩
  | next done s t k s' before ran ended ih =>
    obtain ⟨once, -, apart⟩ := List.nodup_append.1 once
    have fresh : t ∉ done := fun member => apart t member t (List.mem_singleton.2 rfl) rfl
    have made := ih once
    obtain ⟨order, reached⟩ := made.reached
    have reached' : Reaches chain service calls (order ++ List.replicate k t) s' :=
      exec_append.2 ⟨s, reached, ran⟩
    -- the call of the task has not begun, and finds no lock held
    obtain ⟨r, left⟩ := Option.isSome_iff_exists.1 ended
    obtain ⟨out, over_, -⟩ := Option.map_eq_some_iff.1 left
    obtain ⟨u', at_', -⟩ := outcomeAt_some.1 over_
    have asked := reached'.place at_'
    obtain ⟨u, at_⟩ : ∃ u, s.threads[t]? = some u := by
      have inside := (List.getElem?_eq_some_iff.1 at_').1
      rw [length_threads reached', ← length_threads reached] at inside
      exact ⟨_, List.getElem?_eq_getElem inside⟩
    obtain ⟨c, pc⟩ := u
    obtain rfl : pc = .start := made.untouched t fresh _ at_
    have call : calls[t]? = some c := reached.place at_
    obtain ⟨pc, outcome, steps⟩ := solo chain c s.service
      (reached.released unlocked made.quiescent (lockKey c.req))
    obtain ⟨n, alone⟩ := steps.exec at_
    have stuck : System.step chain ⟨(pay chain c.env c.req s.service).2, s.threads.set t ⟨c, pc⟩⟩ t =
        none := by
      rw [step_none (List.getElem?_set_self (List.getElem?_eq_some_iff.1 at_).1)]
      exact next_of_ended (by rw [outcome]; exact Option.some_ne_none _)
    obtain rfl := exec_replicate_unique ran ((payments chain).ended _ _ _ left) alone stuck
    have calls_ : callsAt calls (done ++ [t]) = callsAt calls done ++ [c] := by
      rw [callsAt, List.filterMap_append, List.filterMap_cons_some call]
      rfl
    have others {j : Nat} (other : j ≠ t) :
        (s.threads.set t ⟨c, pc⟩)[j]? = s.threads[j]? := List.getElem?_set_ne (Ne.symm other)
    have own : (s.threads.set t ⟨c, pc⟩)[t]? = some ⟨c, pc⟩ :=
      List.getElem?_set_self (List.getElem?_eq_some_iff.1 at_).1
    refine ⟨⟨?_, ?_⟩, ⟨_, reached'⟩, fun j member v there => ?_, fun j absent v there => ?_⟩
    · rw [calls_, payAll_snoc, ← made.leaves]
    · rw [calls_, payAll_snoc, ← made.leaves, List.map_append, List.map_append, ← made.answers]
      refine congrArg₂ _ (List.map_congr_left fun j member => ?_) ?_
      · rw [System.outcomeAt, others fun same => fresh (same ▸ member)]
        rfl
      · rw [List.map_singleton, List.map_singleton, outcomeAt_none own, outcome]
    · by_cases here : j = t
      · subst here
        cases own.symm.trans there
        rw [outcome]
        exact Option.some_ne_none _
      · rw [others here] at there
        exact made.ended j ((List.mem_append.1 member).resolve_right
          (fun last => here (List.mem_singleton.1 last))) v there
    · rw [List.mem_append, List.mem_singleton, not_or] at absent
      rw [others absent.2] at there
      exact made.untouched j absent.1 v there

end Turns

/-! ## The pool of one worker -/

/-- No task is completed twice. -/
theorem nodup_completed {pool : ThreadPool} (accounted : pool.Accounted) :
    (pool.completed.map Prod.fst).Nodup := by
  rw [List.nodup_iff_count_le_one]
  intro t
  have placed := accounted.placed t
  have sent := accounted.sent t
  have finished : pool.finished t = (pool.completed.map Prod.fst).count t := rfl
  split at sent <;> omega

section Runs

variable {service : PaymentService} {calls : List Call} {workers clients : Nat}
  {sched : List Pooled.Act} {w : Pooled System}

/-- Between two tasks of its worker a pool has made the calls of those completed, one after
another. -/
theorem matches_between (few : workers ≤ 1) (unlocked : ∀ key, ¬ service.locks.Held key)
    (ran : exec (Pooled.step (payments chain) calls.length)
      (Pooled.init workers clients (System.init service calls)) sched = some w)
    (between : w.pool.runs = w.pool.completed.map Prod.fst) :
    Matches chain service calls (w.pool.completed.map Prod.fst) w.jobs := by
  obtain ⟨labels, ranPool⟩ := (Pooled.kept_run ran).poolRan
  obtain ⟨s, turns⟩ := Pooled.in_turn few ran
  have made := made_of_turns unlocked turns.done
    (nodup_completed (ThreadPool.accounted_run ranPool))
  rw [turns.rested between]
  exact made.toMatches

/-- **A pool of one worker makes the calls one after another.**  It begins tasks in the order
in which they were accepted and none before the last has ended; whenever it is between two,
the service and the answers are those of `payAll` over the calls completed; and at rest those
of `payAll` over all calls accepted. -/
theorem one_worker_serial (few : workers ≤ 1) (unlocked : ∀ key, ¬ service.locks.Held key)
    (ran : exec (Pooled.step (payments chain) calls.length)
      (Pooled.init workers clients (System.init service calls)) sched = some w) :
    (w.pool.runs <+: w.pool.accepted ∧ w.pool.completed.map Prod.fst <+: w.pool.runs ∧
      w.pool.runs.length ≤ w.pool.completed.length + 1) ∧
    (w.pool.runs.length = w.pool.completed.length →
      Matches chain service calls (w.pool.completed.map Prod.fst) w.jobs) ∧
    (Pooled.Resting (payments chain) calls.length w →
      Matches chain service calls w.pool.accepted w.jobs) := by
  obtain ⟨labels, ranPool⟩ := (Pooled.kept_run ran).poolRan
  have accounted := ThreadPool.accounted_run ranPool
  have turns := ThreadPool.one_at_a_time few ranPool
  have begun := turns.1
  have done := turns.2.1
  refine ⟨turns, fun idle => ?_, fun resting => ?_⟩
  · refine matches_between few unlocked ran (done.eq_of_length ?_).symm
    rw [List.length_map, idle]
  · -- at rest every accepted task is completed
    have ended := ((Pooled.finishes (payments_live unlocked) ran).2.1 resting).futures
    have all : w.pool.completed.map Prod.fst = w.pool.accepted := by
      have part := done.trans begun
      have once : w.pool.accepted.Nodup := by
        rw [List.nodup_iff_count_le_one]
        intro t
        have sent := accounted.sent t
        split at sent <;> omega
      have within : w.pool.accepted ⊆ w.pool.completed.map Prod.fst := by
        intro t accepted
        obtain ⟨r, -, filled⟩ := ended t accepted
        exact List.mem_map.2 ⟨_, filled, rfl⟩
      exact part.eq_of_length (Nat.le_antisymm part.length_le (once.subperm within).length_le)
    have between : w.pool.runs = w.pool.completed.map Prod.fst := by
      refine (done.eq_of_length (Nat.le_antisymm done.length_le ?_)).symm
      rw [all]
      exact begun.length_le
    rw [← all]
    exact matches_between few unlocked ran between

end Runs

/-! ## Three payments on one worker -/

/-- The three calls are submitted before the first begins, and the worker ends asleep. -/
def allInTurn : List Pooled.Act :=
  Pooled.submits 1 ++ Pooled.submits 1 ++ Pooled.submits 1 ++
    Pooled.picksUp 0 ++ List.replicate 20 (.work 0) ++ [.pool (.go 0 (.ok ()))] ++
    Pooled.picksUp 0 ++ List.replicate 20 (.work 0) ++ [.pool (.go 0 (.ok ()))] ++
    Pooled.picksUp 0 ++ List.replicate 13 (.work 0) ++
    [.pool (.go 0 (.ok ())), .pool (.go 0 (.ok ())), .pool (.queue (.enter 0))]

/-- Three payments on a pool of one worker and one user. -/
def threeOnOne : Pooled System :=
  Pooled.init 1 1 (System.init (PaymentService.opening userAndMerchant) threePayments)

theorem one_worker_serial_three : ∃ w,
    exec (Pooled.step (payments mainChain) threePayments.length) threeOnOne allInTurn = some w ∧
    w.pool.accepted = [0, 1, 2] ∧
    Matches mainChain (PaymentService.opening userAndMerchant) threePayments [0, 1, 2] w.jobs := by
  have ran : (exec (Pooled.step (payments mainChain) threePayments.length) threeOnOne allInTurn).any
      (fun w => decide (w.pool.accepted = [0, 1, 2]) && w.pool.tasks.agents.all w.pool.restsIn) =
        true := by decide +kernel
  obtain ⟨w, run, found⟩ := exec_any ran
  rw [Bool.and_eq_true, decide_eq_true_eq, List.all_eq_true] at found
  obtain ⟨accepted, rests⟩ := found
  obtain ⟨labels, ranPool⟩ := (Pooled.kept_run run).poolRan
  have resting := (ThreadPool.resting_iff (ThreadPool.accounted_run ranPool)).2 rests
  have unlocked : ∀ key, ¬ (PaymentService.opening userAndMerchant).locks.Held key :=
    fun key held => by cases held
  obtain ⟨-, -, atRest⟩ := one_worker_serial (Nat.le_refl 1) unlocked run
  have all := atRest (Pooled.resting_of_pool resting)
  rw [accepted] at all
  exact ⟨w, run, accepted, all⟩

end PaymentSystem.Service
