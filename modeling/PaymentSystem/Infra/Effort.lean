/-
# PaymentSystem.Infra.Effort -- what a pool still has to do

The work left in a pool is a number, its `effort`: so many steps for a thread at each point
of the queue's code and of the pool's own, and so many for each queued task.  Every step
uses some of it up; a new `submit` or `shutdown`, and a wake-up nobody asked for, bring
some in.  A waiter that is woken stands before the mutex again, so whoever notifies pays
for that in advance, and whoever closes the queue pays for every thread there is.

* `Monitor.move_pays`: each step of a call of the queue uses up effort.
* `step_pays`: so does each step of the pool.
* `run_bounded`: a run has at most so many steps, in whatever order they come.
-/
import PaymentSystem.Infra.ThreadPool
import PaymentSystem.Infra.Wakeups
import PaymentSystem.Theory.Potential

namespace PaymentSystem.Infra

open PaymentSystem.Theory.Potential
open PaymentSystem.Theory.Runs

set_option autoImplicit false

namespace BlockingQueue

variable {α κ : Type}

/-! ## Effort in the queue -/

/-- The steps a call has left at most, with what it does to others, among `n` threads.  An
item taken out costs its taker `k` steps more. -/
def Point.effort (n k : Nat) : Point α → Nat
  | .idle => 0
  | .push _ => k + 4
  | .awaitRoom _ => k + 3
  | .pushed => 3
  | .pop => 4
  | .awaitItem => 3
  | .popped _ => k + 3
  | .close => 2 * n + 4
  | .closedItem => 2 * n + 3
  | .closedRoom => n + 2
  | .returned (.pop (some _)) => k + 1
  | .returned _ => 1

/-- What a thread has left to do, in the queue and after it. -/
def Agent.effort (n k : Nat) (after : κ → Nat) (a : Agent α κ) : Nat :=
  a.point.effort n k + after a.control

def Monitor.effort (n k : Nat) (after : κ → Nat) (m : Monitor α κ) : Nat :=
  (m.agents.map (Agent.effort n k after)).sum + k * m.queue.queue.length

/-- A wake-up brings in one step. -/
theorem Agent.effort_woken (n k : Nat) (after : κ → Nat) (a : Agent α κ) :
    a.woken.effort n k after ≤ a.effort n k after + 1 := by
  obtain ⟨p, c⟩ := a
  cases p <;> simp only [Agent.effort, Agent.woken, Point.woken, Point.effort] <;> omega

section Notifies

variable {agents woken : List (Agent α κ)} (n k : Nat) (after : κ → Nat)

theorem effort_notifyOne {waits : Point α → Bool} {choice : Option Nat}
    (notified : notifyOne agents waits choice = some woken) :
    (woken.map (Agent.effort n k after)).sum ≤ (agents.map (Agent.effort n k after)).sum + 1 := by
  rcases notifyOne_cases notified with ⟨rfl, -⟩ | ⟨j, u, there, -, rfl⟩
  · exact Nat.le_succ _
  · have moved := sum_set there (Agent.effort n k after) u.woken
    have woke := u.effort_woken n k after
    omega

theorem effort_notifyAll (agents : List (Agent α κ)) (waits : Point α → Bool) :
    ((notifyAll agents waits).map (Agent.effort n k after)).sum ≤
      (agents.map (Agent.effort n k after)).sum + agents.length := by
  rw [notifyAll, List.map_map]
  refine sum_map_le fun a _ => ?_
  rw [Function.comp_apply]
  split
  · exact a.effort_woken n k after
  · exact Nat.le_succ _

end Notifies

/-- A section under the mutex; the queue holds what its items will cost. -/
theorem enter_pays {q q' : BlockingQueue α} {p p' : Point α} (n k : Nat)
    (entered : q.enter p = some (q', p')) :
    p'.effort n k + k * q'.queue.length + 1 ≤ p.effort n k + k * q.queue.length := by
  have turn := enter_turn entered
  cases turn with
  | stored item open_ room =>
    simp only [Point.effort, withQueue_queue, List.length_append, List.length_singleton, Nat.mul_add]
    omega
  | taken item rest front =>
    simp only [Point.effort, withQueue_queue, front, List.length_cons, Nat.mul_add]
    omega
  | woke p asleep => cases p <;> first | cases entered | cases asleep
  | _ =>
    simp only [Point.effort]
    omega

/-- What a spurious wake-up brings in. -/
def Move.credit : Move → Nat
  | .spurious _ => 2
  | _ => 0

/-- **Every step of a call under way uses up effort**, but for spurious wake-ups. -/
theorem Monitor.move_pays {m m' : Monitor α κ} {move : Move} {n k : Nat} {after : κ → Nat}
    (all : m.agents.length = n) (went : m.move move = some m') :
    m'.effort n k after + 1 ≤ m.effort n k after + move.credit := by
  unfold Monitor.effort
  cases move with
  | enter i =>
    obtain ⟨a, at_, went⟩ := Option.bind_eq_some_iff.1 went
    obtain ⟨⟨queue, point⟩, entered, went⟩ := Option.bind_eq_some_iff.1 went
    cases went
    have moved := sum_set at_ (Agent.effort n k after) { a with point }
    have paid := enter_pays n k entered
    simp only [Agent.effort, Move.credit] at moved ⊢
    omega
  | notify i choice =>
    obtain ⟨⟨p, control⟩, at_, went⟩ := Option.bind_eq_some_iff.1 went
    cases p with
    | pushed =>
      obtain ⟨woken, notified, went⟩ := Option.bind_eq_some_iff.1 went
      cases went
      have woke := effort_notifyOne n k after notified
      have moved := sum_set (notifyOne_mover notified at_ rfl) (Agent.effort n k after)
        ⟨.returned (.push true), control⟩
      simp only [Agent.effort, Point.effort, Move.credit] at moved woke ⊢
      omega
    | popped item =>
      obtain ⟨woken, notified, went⟩ := Option.bind_eq_some_iff.1 went
      cases went
      have woke := effort_notifyOne n k after notified
      have moved := sum_set (notifyOne_mover notified at_ rfl) (Agent.effort n k after)
        ⟨.returned (.pop (some item)), control⟩
      simp only [Agent.effort, Point.effort, Move.credit] at moved woke ⊢
      omega
    | closedItem =>
      cases went
      have woke := effort_notifyAll n k after m.agents Point.awaitsItem
      have moved := sum_set (notifyAll_mover at_ (rfl : Point.awaitsItem .closedItem = false))
        (Agent.effort n k after) ⟨.closedRoom, control⟩
      simp only [Agent.effort, Point.effort, Move.credit] at moved woke ⊢
      omega
    | closedRoom =>
      cases went
      have woke := effort_notifyAll n k after m.agents Point.awaitsRoom
      have moved := sum_set (notifyAll_mover at_ (rfl : Point.awaitsRoom .closedRoom = false))
        (Agent.effort n k after) ⟨.returned .close, control⟩
      simp only [Agent.effort, Point.effort, Move.credit] at moved woke ⊢
      omega
    | _ => cases went
  | spurious i =>
    obtain ⟨a, at_, went⟩ := Option.bind_eq_some_iff.1 went
    split at went
    · cases went
      have moved := sum_set at_ (Agent.effort n k after) a.woken
      have woke := a.effort_woken n k after
      simp only [Move.credit]
      omega
    · cases went

end BlockingQueue

/-! ## Effort in the pool -/

open PaymentSystem.Infra.BlockingQueue

/-- The steps a thread of the pool has left outside the queue. -/
def Control.effort (n workers : Nat) : Control → Nat
  | .client | .submitting _ => 0
  | .exchanging => 2 * n + workers + 6
  | .closing => workers + 1
  | .joining worker => workers - worker + 1
  | .looping => 5
  | .popping => 0
  | .holding _ => 7
  | .running _ => 6
  | .exited => 0

namespace ThreadPool

/-- What the pool has left to do: a queued task will cost its worker seven steps. -/
def effort (n workers : Nat) (pool : ThreadPool) : Nat :=
  pool.tasks.effort n 7 (Control.effort n workers)

/-- What a step brings in: a new call the effort of the whole call, a spurious wake-up one
more section under the mutex. -/
def Label.credit (n workers : Nat) : Label → Nat
  | .queue move => move.credit
  | .submit _ => 12
  | .shutdown _ => 2 * n + workers + 7
  | .go _ _ => 0

/-- The steps of a thread outside the queue, new calls apart. -/
inductive Goes (workers : Nat) : Agent Task Control → Agent Task Control → Prop where
  | submitted (answer : Answer Task) (task : Task) :
      Goes workers ⟨.returned answer, .submitting task⟩ ⟨.idle, .client⟩
  | late : Goes workers ⟨.idle, .exchanging⟩ ⟨.idle, .client⟩
  | closes : Goes workers ⟨.idle, .exchanging⟩ ⟨.close, .closing⟩
  | closed (answer : Answer Task) : Goes workers ⟨.returned answer, .closing⟩ ⟨.idle, .joining 0⟩
  | joins (worker : Nat) (inside : worker < workers) :
      Goes workers ⟨.idle, .joining worker⟩ ⟨.idle, .joining (worker + 1)⟩
  | joined (worker : Nat) : Goes workers ⟨.idle, .joining worker⟩ ⟨.idle, .client⟩
  | pops : Goes workers ⟨.idle, .looping⟩ ⟨.pop, .popping⟩
  | got (task : Task) :
      Goes workers ⟨.returned (.pop (some task)), .popping⟩ ⟨.idle, .holding task⟩
  | exits : Goes workers ⟨.returned (.pop none), .popping⟩ ⟨.idle, .exited⟩
  | begins (task : Task) : Goes workers ⟨.idle, .holding task⟩ ⟨.idle, .running task⟩
  | finishes (task : Task) : Goes workers ⟨.idle, .running task⟩ ⟨.idle, .looping⟩

theorem go_goes {pool pool' : ThreadPool} {i : Nat} {result : TaskResult} {a : Agent Task Control}
    (went : pool.go i result a = some pool') :
    ∃ a', Goes pool.workers a a' ∧ pool'.tasks = (pool.put i a').tasks ∧
      pool'.workers = pool.workers := by
  unfold go at went
  split at went
  · cases went
    exact ⟨_, .submitted .., rfl, rfl⟩
  · split at went
    · cases went
      exact ⟨_, .late, rfl, rfl⟩
    · cases went
      exact ⟨_, .closes, rfl, rfl⟩
  · cases went
    exact ⟨_, .closed _, rfl, rfl⟩
  · split at went
    · rename_i inside
      split at went
      · cases went
        exact ⟨_, .joins _ inside, rfl, rfl⟩
      · split at went
        · cases went
          exact ⟨_, .joins _ inside, rfl, rfl⟩
        · cases went
    · cases went
      exact ⟨_, .joined _, rfl, rfl⟩
  · cases went
    exact ⟨_, .pops, rfl, rfl⟩
  · cases went
    exact ⟨_, .got _, rfl, rfl⟩
  · cases went
    exact ⟨_, .exits, rfl, rfl⟩
  · cases went
    exact ⟨_, .begins _, rfl, rfl⟩
  · cases went
    exact ⟨_, .finishes _, rfl, rfl⟩
  · cases went

/-- A call that has returned still has to be looked at. -/
theorem Agent.returned_effort (n workers : Nat) (answer : Answer Task) (control : Control) :
    control.effort n workers + 1 ≤
      (⟨.returned answer, control⟩ : Agent Task Control).effort n 7 (Control.effort n workers) := by
  have left : 1 ≤ (Point.returned answer).effort n 7 := by
    cases answer with
    | pop item =>
      cases item with
      | none => exact Nat.le_refl 1
      | some item => exact Nat.le_add_left 1 7
    | _ => exact Nat.le_refl 1
  rw [Nat.add_comm]
  exact Nat.add_le_add_right left _

theorem Goes.pays {n workers : Nat} {a a' : Agent Task Control} (goes : Goes workers a a') :
    a'.effort n 7 (Control.effort n workers) + 1 ≤ a.effort n 7 (Control.effort n workers) := by
  cases goes with
  | submitted answer task =>
    apply Nat.le_trans _ (Agent.returned_effort n workers answer (.submitting task))
    simp only [Agent.effort, Point.effort, Control.effort]
    omega
  | closed answer =>
    apply Nat.le_trans _ (Agent.returned_effort n workers answer .closing)
    simp only [Agent.effort, Point.effort, Control.effort]
    omega
  | _ =>
    simp only [Agent.effort, Point.effort, Control.effort]
    omega

/-- The pool has `n` threads, the first `workers` of them its own. -/
structure Sized (n workers : Nat) (pool : ThreadPool) : Prop where
  threads : pool.tasks.agents.length = n
  workers : pool.workers = workers

theorem sized_step {n workers : Nat} {pool pool' : ThreadPool} {label : Label}
    (sized : Sized n workers pool) (stepped : step pool label = some pool') :
    Sized n workers pool' := by
  refine ⟨?_, (step_workers stepped).trans sized.workers⟩
  rw [← sized.threads]
  simpa using congrArg List.length (step_steps stepped).staff

/-- **Every step of the pool uses up effort**, but for new calls and spurious wake-ups. -/
theorem step_pays {n workers : Nat} {pool pool' : ThreadPool} {label : Label}
    (sized : Sized n workers pool) (stepped : step pool label = some pool') :
    pool'.effort n workers + 1 ≤ pool.effort n workers + label.credit n workers := by
  have put {i : Nat} {a : Agent Task Control} (at_ : pool.tasks.agents[i]? = some a)
      (a' : Agent Task Control) := sum_set at_ (Agent.effort n 7 (Control.effort n workers)) a'
  cases label with
  | queue move =>
    obtain ⟨tasks, went, rfl⟩ := Option.map_eq_some_iff.1 stepped
    exact Monitor.move_pays sized.threads went
  | submit i =>
    simp only [step] at stepped
    split at stepped
    · rename_i at_
      cases stepped
      have moved := put at_ ⟨.push pool.next, .submitting pool.next⟩
      simp only [effort, Monitor.effort, ThreadPool.put, Agent.effort, Point.effort, Control.effort,
        Label.credit] at moved ⊢
      omega
    · cases stepped
  | shutdown i =>
    simp only [step] at stepped
    split at stepped
    · rename_i at_
      cases stepped
      have moved := put at_ ⟨.idle, .exchanging⟩
      simp only [effort, Monitor.effort, ThreadPool.put, Agent.effort, Point.effort, Control.effort,
        Label.credit] at moved ⊢
      omega
    · cases stepped
  | go i result =>
    obtain ⟨a, at_, went⟩ := Option.bind_eq_some_iff.1 stepped
    obtain ⟨a', goes, tasks, -⟩ := go_goes went
    rw [sized.workers] at goes
    have moved := put at_ a'
    have paid := goes.pays (n := n)
    simp only [effort, Monitor.effort, tasks, ThreadPool.put, Label.credit]
    omega

theorem sized_init (workers clients : Nat) :
    Sized ((init workers clients).workers + clients) (init workers clients).workers
      (init workers clients) := by
  refine ⟨?_, rfl⟩
  simp [init]

theorem effort_init (n workers clients : Nat) :
    (init workers clients).effort n (init workers clients).workers =
      5 * (init workers clients).workers := by
  simp [effort, Monitor.effort, init, Agent.effort, Point.effort, Control.effort, Nat.mul_comm]

theorem draining (n workers : Nat) :
    Draining step (Sized n workers) (effort n workers) (Label.credit n workers) where
  keeps _ _ _ := sized_step
  pays _ _ _ := step_pays

section Runs

variable {workers clients : Nat} {sched : List Label} {pool : ThreadPool}

theorem workers_run (ran : exec step (init workers clients) sched = some pool) :
    pool.workers = (init workers clients).workers :=
  exec_induct (fun pool => pool.workers = (init workers clients).workers)
    (fun _ _ _ same stepped => (step_workers stepped).trans same) rfl ran

/-- A run is paid for by the workers' first steps, its new calls and its spurious wake-ups. -/
theorem run_bounded (ran : exec step (init workers clients) sched = some pool) :
    sched.length + pool.effort (pool.workers + clients) pool.workers ≤ 5 * pool.workers +
      (sched.map (Label.credit (pool.workers + clients) pool.workers)).sum := by
  have same := workers_run ran
  have bound := (draining _ _).run (sized_init workers clients) ran
  rw [effort_init, ← same] at bound
  exact bound

end Runs

end ThreadPool

end PaymentSystem.Infra
