/-
# PaymentSystem.Infra.OneWorker -- a pool of one worker takes tasks in turn

The queue hands out tasks in the order in which they were accepted; with several workers
they may yet begin and end in another.  With one worker they do not, and none begins before
the last has ended.

* `Serves`: what was accepted is what was begun, what the worker has in hand, and what is
  queued, in this order; and only the last task begun may be unfinished.
* `InTurn`, `in_turn`: the jobs of such a pool run one after another, each from where the one
  before it ended.
-/
import PaymentSystem.Infra.Jobs

namespace PaymentSystem.Infra

open PaymentSystem.Infra.BlockingQueue
open PaymentSystem.Theory.Runs
open PaymentSystem.Theory.Threads

set_option autoImplicit false

/-! ## What a thread has in hand -/

/-- The task a thread has taken out of the queue and not begun. -/
def inHand (a : Agent Task Control) : List Task :=
  match a.point, a.control with
  | .popped u, _ | .returned (.pop (some u)), _ => [u]
  | _, .holding u => [u]
  | _, _ => []

/-- The task it has begun and not completed. -/
def underWay (a : Agent Task Control) : List Task := (ThreadPool.runningTask a).toList

theorem inHand_woken (a : Agent Task Control) : inHand a.woken = inHand a := by
  obtain ⟨point, control⟩ := a
  cases point <;> cases control <;> rfl

/-- A place in the code of `push` or `close`. -/
def ofUser : Point Task → Bool
  | .push _ | .awaitRoom _ | .pushed | .close | .closedItem | .closedRoom => true
  | _ => false

/-- Workers neither push nor close. -/
theorem fits_user {p : Point Task} {control : Control} (fits : Fits p control)
    (calls : ofUser p = true) : control.isWorker = false := by
  unfold Fits at fits
  split at fits <;> first | rfl | cases calls | cases fits

section Turn

variable {q q' : BlockingQueue Task} {p p' : Point Task} {control : Control}

/-- A worker in the queue moves a task from its front into its hand, or none. -/
theorem inHand_turn (turn : Turn q p q' p') (fits : Fits p control)
    (worker : control.isWorker = true) : p.inserts p' = [] ∧
      inHand ⟨p, control⟩ ++ q.queue = inHand ⟨p', control⟩ ++ q'.queue := by
  have user (calls : ofUser p = true) : False := by
    rw [fits_user fits calls] at worker
    cases worker
  cases turn with
  | starved open_ empty => cases control <;> exact ⟨rfl, rfl⟩
  | drained closed empty => cases control <;> exact ⟨rfl, rfl⟩
  | taken item rest front =>
    rw [front]
    cases control <;> first | exact ⟨rfl, rfl⟩ | cases fits
  | popNotified item => exact ⟨rfl, rfl⟩
  | woke p asleep => cases p <;> cases asleep <;> exact ⟨rfl, by rw [← inHand_woken]; rfl⟩
  | _ => exact (user rfl).elim

/-- Anyone else takes nothing out. -/
theorem removes_turn (turn : Turn q p q' p') (fits : Fits p control)
    (user : control.isWorker = false) : p'.removes = [] := by
  cases turn with
  | taken item rest front =>
    cases control with
    | popping => cases user
    | _ => cases fits
  | woke p asleep => cases p <;> first | rfl | cases asleep
  | _ => rfl

end Turn

namespace ThreadPool

/-- Thread 0 is a worker, and no other is. -/
structure Alone (pool : ThreadPool) : Prop where
  worker : ∃ a, pool.tasks.agents[0]? = some a ∧ a.control.isWorker = true
  others : ∀ (i : Nat) a, pool.tasks.agents[i]? = some a → a.control.isWorker = true → i = 0

theorem alone_run {workers clients : Nat} {sched : List Label} {pool : ThreadPool}
    (few : workers ≤ 1) (ran : exec step (init workers clients) sched = some pool) : Alone pool := by
  have one : pool.workers = 1 := by
    have started : (init workers clients).workers = 1 := by
      show (if workers = 0 then 1 else workers) = 1
      split <;> omega
    exact exec_induct (fun pool : ThreadPool => pool.workers = 1)
      (fun _ _ _ same stepped => (step_workers stepped).trans same) started ran
  refine ⟨worker_at ran (by omega), fun i a at_ worker => ?_⟩
  have is := congrArg (fun l => l[i]?) (staff_run ran)
  simp only [List.getElem?_map, at_, Option.map_some, worker, one] at is
  cases i with
  | zero => rfl
  | succ i =>
    simp only [List.replicate_one, List.singleton_append, List.getElem?_cons_succ] at is
    have member := List.mem_of_getElem? is.symm
    cases (List.eq_of_mem_replicate member)

/-- What was accepted is begun, in the hand of the worker, or queued, in this order; and what
was begun is completed, but for the task the worker is in. -/
structure Serves (pool : ThreadPool) : Prop where
  order : ∀ a, pool.tasks.agents[0]? = some a →
    pool.accepted = pool.runs ++ inHand a ++ pool.tasks.queue.queue
  ended : ∀ a, pool.tasks.agents[0]? = some a →
    pool.runs = pool.completed.map Prod.fst ++ underWay a

/-- A step outside the queue by which the worker's hand, its task and the records change
together, or by somebody else. -/
theorem Serves.put {pool pool' : ThreadPool} (serves : Serves pool) {i : Nat}
    {a a' : Agent Task Control} (at_ : pool.tasks.agents[i]? = some a)
    (tasks : pool'.tasks = (pool.put i a').tasks)
    (own : i = 0 → pool'.runs ++ inHand a' = pool.runs ++ inHand a ∧
      (pool.runs = pool.completed.map Prod.fst ++ underWay a →
        pool'.runs = pool'.completed.map Prod.fst ++ underWay a'))
    (others : i ≠ 0 → pool'.runs = pool.runs ∧ pool'.completed = pool.completed) :
    Serves pool' := by
  have agents : pool'.tasks.agents = pool.tasks.agents.set i a' := by rw [tasks]; rfl
  have queue : pool'.tasks.queue.queue = pool.tasks.queue.queue := by rw [tasks]; rfl
  have accepted : pool'.accepted = pool.accepted := by
    rw [ThreadPool.accepted, tasks]
    rfl
  by_cases here : i = 0
  · subst here
    obtain ⟨hand, task⟩ := own rfl
    have now : pool'.tasks.agents[0]? = some a' := by
      rw [agents, List.getElem?_set_self (List.getElem?_eq_some_iff.1 at_).1]
    refine ⟨fun b there => ?_, fun b there => ?_⟩
    · cases now.symm.trans there
      rw [accepted, hand, queue]
      exact serves.order a at_
    · cases now.symm.trans there
      exact task (serves.ended a at_)
  · obtain ⟨runs, completed⟩ := others here
    have same : pool'.tasks.agents[0]? = pool.tasks.agents[0]? := by
      rw [agents, List.getElem?_set_ne here]
    refine ⟨fun b there => ?_, fun b there => ?_⟩
    · rw [accepted, runs, queue]
      exact serves.order b (same ▸ there)
    · rw [runs, completed]
      exact serves.ended b (same ▸ there)

/-- A step in the queue: of the worker, or of somebody else, who at most wakes it. -/
theorem Serves.queue {pool pool' : ThreadPool} (serves : Serves pool) (accounted : Accounted pool)
    (alone : Alone pool) {i : Nat} {a : Agent Task Control} {point : Point Task}
    (moved : Moved pool.tasks pool'.tasks i a point) (runs : pool'.runs = pool.runs)
    (completed : pool'.completed = pool.completed) : Serves pool' := by
  have at_ := moved.agents.at_
  have fits := accounted.fits a (List.mem_of_getElem? at_)
  by_cases here : i = 0
  · subst here
    obtain ⟨b, there, worker⟩ := alone.worker
    cases there.symm.trans at_
    obtain ⟨nothing, front⟩ := inHand_turn moved.turn fits worker
    refine ⟨fun b there => ?_, fun b there => ?_⟩
    · cases moved.agents.now.symm.trans there
      have before := serves.order a at_
      rw [List.append_assoc] at before ⊢
      rw [accepted, moved.inserted, nothing, List.append_nil, runs, ← front]
      exact before
    · cases moved.agents.now.symm.trans there
      rw [runs, completed]
      exact serves.ended a at_
  · have user : a.control.isWorker = false := by
      by_contra worker
      exact here (alone.others i a at_ (by simpa using worker))
    -- what a user puts into the queue is accepted last
    have grown : pool'.tasks.inserted = pool.tasks.inserted ++ a.point.inserts point ∧
        pool'.tasks.queue.queue = pool.tasks.queue.queue ++ a.point.inserts point := by
      have fifo : pool.tasks.queue.queue ++ a.point.inserts point =
          [] ++ point.removes ++ pool'.tasks.queue.queue := moved.turn.fifo rfl
      rw [removes_turn moved.turn fits user] at fifo
      exact ⟨moved.inserted, fifo.symm⟩
    have other {b : Agent Task Control} (there : pool'.tasks.agents[0]? = some b) :
        ∃ b₀, pool.tasks.agents[0]? = some b₀ ∧ inHand b = inHand b₀ ∧ underWay b = underWay b₀ := by
      rcases moved.agents.others 0 (Ne.symm here) with same | woke
      · exact ⟨b, same ▸ there, rfl, rfl⟩
      · rw [woke] at there
        obtain ⟨b₀, before, rfl⟩ := Option.map_eq_some_iff.1 there
        exact ⟨b₀, before, inHand_woken b₀, rfl⟩
    refine ⟨fun b there => ?_, fun b there => ?_⟩
    · obtain ⟨b₀, before, hand, -⟩ := other there
      rw [accepted, grown.1, grown.2, runs, hand, ← List.append_assoc, ← serves.order b₀ before]
      rfl
    · obtain ⟨b₀, before, -, task⟩ := other there
      rw [runs, completed, task]
      exact serves.ended b₀ before

theorem Serves.step {pool pool' : ThreadPool} (serves : Serves pool) (accounted : Accounted pool)
    (alone : Alone pool) (steps : Steps pool pool') : Serves pool' := by
  cases steps with
  | queue i a point moved next runs completed =>
    exact serves.queue accounted alone moved runs completed
  | submits i at_ tasks next runs completed =>
    have user : i ≠ 0 := by
      rintro rfl
      obtain ⟨b, there, worker⟩ := alone.worker
      cases there.symm.trans at_
      cases worker
    exact serves.put at_ tasks (fun here => absurd here user) fun _ => ⟨runs, completed⟩
  | quiet i a a' at_ quiet tasks next runs completed =>
    refine serves.put at_ tasks (fun _ => ?_) fun _ => ⟨runs, completed⟩
    have fits := accounted.fits a (List.mem_of_getElem? at_)
    rw [runs, completed]
    cases quiet with
    | submitted answer task => cases answer <;> first | exact ⟨rfl, id⟩ | cases fits
    | closed answer => cases answer <;> first | exact ⟨rfl, id⟩ | cases fits
    | _ => exact ⟨rfl, id⟩
  | begins i task at_ tasks next runs completed =>
    refine serves.put at_ tasks (fun _ => ?_) fun other => absurd (alone.others i _ at_ rfl) other
    rw [runs, completed]
    refine ⟨by rw [List.append_assoc]; rfl, fun ended => ?_⟩
    have idle : pool.runs = pool.completed.map Prod.fst := ended.trans (List.append_nil _)
    rw [← idle]
    rfl
  | finishes i task result at_ tasks next runs completed =>
    refine serves.put at_ tasks (fun _ => ?_) fun other => absurd (alone.others i _ at_ rfl) other
    rw [runs, completed, List.map_append]
    exact ⟨rfl, fun ended => ended.trans (List.append_nil _).symm⟩

theorem serves_run {workers clients : Nat} {sched : List Label} {pool : ThreadPool}
    (few : workers ≤ 1) (ran : exec step (init workers clients) sched = some pool) :
    Serves pool := by
  refine exec_induct_reached Serves (fun early u label v ranTo serves stepped =>
    serves.step (accounted_run ranTo) (alone_run few ranTo) (step_steps stepped)) ?_ ran
  have started : (init workers clients).tasks.agents[0]? = some ⟨.idle, .looping⟩ := by
    simp only [init]
    split
    · rfl
    · rename_i some_
      obtain rfl : workers = 1 := by omega
      rfl
  refine ⟨fun a at_ => ?_, fun a at_ => ?_⟩
  · cases started.symm.trans at_
    rfl
  · cases started.symm.trans at_
    rfl

/-- **A pool of one worker begins tasks in the order in which they were accepted**, and none
before the last has ended. -/
theorem one_at_a_time {workers clients : Nat} {sched : List Label} {pool : ThreadPool}
    (few : workers ≤ 1) (ran : exec step (init workers clients) sched = some pool) :
    pool.runs <+: pool.accepted ∧ pool.completed.map Prod.fst <+: pool.runs ∧
      pool.runs.length ≤ pool.completed.length + 1 := by
  obtain ⟨a, at_, -⟩ := (alone_run few ran).worker
  have serves := serves_run few ran
  have order := serves.order a at_
  have ended := serves.ended a at_
  refine ⟨?_, ?_, ?_⟩
  · rw [order, List.append_assoc]
    exact List.prefix_append _ _
  · rw [ended]
    exact List.prefix_append _ _
  · have one : (underWay a).length ≤ 1 := by
      unfold underWay
      cases runningTask a <;> simp
    rw [ended, List.length_append, List.length_map]
    omega

end ThreadPool

namespace Pooled

open ThreadPool

variable {σ : Type}

/-- The jobs `done` run one after another, each from where the one before it ended. -/
inductive InTurn (jobs : Jobs σ) (start : σ) : List Task → σ → Prop where
  | none : InTurn jobs start [] start
  | next (done : List Task) (s : σ) (t : Task) (k : Nat) (s' : σ) (before : InTurn jobs start done s)
      (ran : exec jobs.step s (List.replicate k t) = some s')
      (ended : (jobs.result s' t).isSome) : InTurn jobs start (done ++ [t]) s'

/-- From `s`, where the last completed task has left the jobs, only the task the worker is in
has moved. -/
structure Turns (jobs : Jobs σ) (start : σ) (w : Pooled σ) (s : σ) : Prop where
  done : InTurn jobs start (w.pool.completed.map Prod.fst) s
  rested : w.pool.runs = w.pool.completed.map Prod.fst → w.jobs = s
  under : ∀ t, w.pool.runs = w.pool.completed.map Prod.fst ++ [t] →
    ∃ k, exec jobs.step s (List.replicate k t) = some w.jobs

variable {jobs : Jobs σ} {count workers clients : Nat} {start s : σ} {w w' : Pooled σ}

theorem Turns.quiet (turns : Turns jobs start w s) (still : w'.jobs = w.jobs)
    (runs : w'.pool.runs = w.pool.runs) (completed : w'.pool.completed = w.pool.completed) :
    Turns jobs start w' s := by
  refine ⟨?_, ?_, ?_⟩
  · rw [completed]
    exact turns.done
  · rw [runs, completed, still]
    exact turns.rested
  · rw [runs, completed, still]
    exact turns.under

/-- Of a pool of one worker the thread that runs a task runs the last one begun. -/
theorem runs_of_sole (serves : Serves w.pool) (alone : Alone w.pool) {i : Nat} {t : Task}
    (at_ : w.pool.tasks.agents[i]? = some ⟨.idle, .running t⟩) :
    w.pool.runs = w.pool.completed.map Prod.fst ++ [t] := by
  obtain rfl : i = 0 := alone.others i _ at_ rfl
  exact serves.ended _ at_

theorem Turns.step {act : Act} (turns : Turns jobs start w s) (serves : Serves w.pool)
    (alone : Alone w.pool) (kept' : Kept jobs count workers clients start w')
    (steps : Steps jobs count w w' act) : ∃ s', Turns jobs start w' s' := by
  cases steps with
  | pool label allowed stepped still =>
    cases ThreadPool.step_steps stepped with
    | queue i a point moved next runs completed => exact ⟨s, turns.quiet still runs completed⟩
    | submits i at_ tasks next runs completed => exact ⟨s, turns.quiet still runs completed⟩
    | quiet i a a' at_ quiet tasks next runs completed =>
      exact ⟨s, turns.quiet still runs completed⟩
    | begins i task at_ tasks next runs completed =>
      obtain rfl : i = 0 := alone.others i _ at_ rfl
      have idle : w.pool.runs = w.pool.completed.map Prod.fst :=
        (serves.ended _ at_).trans (List.append_nil _)
      refine ⟨s, ?_, fun same => ?_, fun t same => ⟨0, ?_⟩⟩
      · rw [completed]
        exact turns.done
      · rw [runs, completed, ← idle] at same
        simp at same
      · rw [still, turns.rested idle]
        rfl
    | finishes i task result at_ tasks next runs completed =>
      have last := runs_of_sole serves alone at_
      have grown : w'.pool.completed.map Prod.fst = w.pool.completed.map Prod.fst ++ [task] := by
        rw [completed, List.map_append]
        rfl
      obtain ⟨k, ran⟩ := turns.under task last
      have left : jobs.result w'.jobs task = some result :=
        kept'.futures task result (by rw [completed]; simp)
      refine ⟨w.jobs, ?_, fun _ => still, fun t same => ?_⟩
      · rw [grown]
        exact .next _ s task k _ turns.done ran (by rw [← still, left]; rfl)
      · rw [runs, grown, last] at same
        simp at same
  | work i task at_ stepped still =>
    have last := runs_of_sole serves alone at_
    obtain ⟨k, ran⟩ := turns.under task last
    refine ⟨s, ?_, fun same => ?_, fun t same => ⟨k + 1, ?_⟩⟩
    · rw [still]
      exact turns.done
    · rw [still, last] at same
      simp at same
    · rw [still, last] at same
      obtain rfl : task = t := List.singleton_inj.1 (List.append_cancel_left same)
      rw [List.replicate_succ']
      exact exec_snoc ran stepped

/-- **The jobs of a pool of one worker run one after another**, in the order in which their
tasks were accepted. -/
theorem in_turn {sched : List Act} (few : workers ≤ 1)
    (ran : exec (step jobs count) (init workers clients start) sched = some w) :
    ∃ s, Turns jobs start w s := by
  refine exec_induct_reached (fun w => ∃ s, Turns jobs start w s) ?_ ?_ ran
  · rintro early u act v ranTo ⟨s, turns⟩ stepped
    obtain ⟨labels, ranPool⟩ := (kept_run ranTo).poolRan
    exact turns.step (serves_run few ranPool) (alone_run few ranPool)
      (kept_run (exec_snoc ranTo stepped)) (step_steps stepped)
  · exact ⟨start, .none, fun _ => rfl, fun t same => by simp [init, ThreadPool.init] at same⟩

end Pooled

end PaymentSystem.Infra
