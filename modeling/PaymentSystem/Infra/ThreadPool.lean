/-
# PaymentSystem.Infra.ThreadPool -- every accepted task runs once

`include/payment/infra/ThreadPool.hpp`: workers that pop tasks and run them, and any
number of threads that submit tasks and shut the pool down, all over one blocking queue.
A task is a number, a new one for each `submit`; running it ends in a value or an
exception, which its future keeps.  `ThreadPool.step` interleaves the steps of all
threads; `shutdown` is an exchange, the closing of the queue and one join after another.

`Accounted` counts the places of a task: it is being pushed, or turned away, or accepted;
and if accepted, it is queued, or held by a worker, or completed.
-/
import PaymentSystem.Common.Values
import PaymentSystem.Infra.BlockingQueue

namespace PaymentSystem.Infra

open PaymentSystem.Common
open PaymentSystem.Infra.BlockingQueue
open PaymentSystem.Theory.Runs

set_option autoImplicit false

abbrev Task := Nat

/-- What a task leaves in its future. -/
abbrev TaskResult := Except Exception Unit

/-- Where a thread is, outside the queue. -/
inductive Control where
  -- a user of the pool
  | client
  | submitting (task : Task)
  | exchanging
  | closing
  | joining (worker : Nat)
  -- a worker
  | looping
  | popping
  | holding (task : Task)
  | running (task : Task)
  | exited
  deriving DecidableEq

namespace Control

def isWorker : Control → Bool
  | .looping | .popping | .holding _ | .running _ | .exited => true
  | _ => false

/-- In a call of the queue. -/
def inCall : Control → Bool
  | .submitting _ | .closing | .popping => true
  | _ => false

end Control

/-- The pool, its threads, and what has happened: the tasks begun, those completed with
their results, and the callers whose `shutdown` has returned. -/
structure ThreadPool where
  tasks : Monitor Task Control
  workers : Nat
  stopped : Bool
  joined : List Nat
  next : Task
  runs : List Task
  completed : List (Task × TaskResult)
  returned : List Nat

namespace ThreadPool

/-- A pool just constructed, its workers started, and threads about to use it. -/
def init (workers clients : Nat) : ThreadPool :=
  let workers := if workers = 0 then 1 else workers
  { tasks := {
      queue := ⟨1024, [], false⟩
      agents := List.replicate workers ⟨.idle, .looping⟩ ++ List.replicate clients ⟨.idle, .client⟩
      inserted := [], removed := [], refused := [] }
    workers
    stopped := false
    joined := []
    next := 0
    runs := []
    completed := []
    returned := [] }

def put (pool : ThreadPool) (i : Nat) (a : Agent Task Control) : ThreadPool :=
  { pool with tasks := { pool.tasks with agents := pool.tasks.agents.set i a } }

/-- The thread of a worker has ended. -/
def hasExited (pool : ThreadPool) (worker : Nat) : Bool :=
  (pool.tasks.agents[worker]?).any fun a => a.control = .exited

/-- The next step of thread `i` outside the queue.  A task that is finished leaves
`result`. -/
def go (pool : ThreadPool) (i : Nat) (result : TaskResult) : Agent Task Control → Option ThreadPool
  | ⟨.returned _, .submitting _⟩ => some (pool.put i ⟨.idle, .client⟩)
  | ⟨.idle, .exchanging⟩ =>
    if pool.stopped then
      some { pool.put i ⟨.idle, .client⟩ with returned := pool.returned ++ [i] }
    else some { pool.put i ⟨.close, .closing⟩ with stopped := true }
  | ⟨.returned _, .closing⟩ => some (pool.put i ⟨.idle, .joining 0⟩)
  | ⟨.idle, .joining worker⟩ =>
    if worker < pool.workers then
      if worker ∈ pool.joined then some (pool.put i ⟨.idle, .joining (worker + 1)⟩)
      else if pool.hasExited worker then
        some { pool.put i ⟨.idle, .joining (worker + 1)⟩ with joined := pool.joined ++ [worker] }
      else none
    else some { pool.put i ⟨.idle, .client⟩ with returned := pool.returned ++ [i] }
  | ⟨.idle, .looping⟩ => some (pool.put i ⟨.pop, .popping⟩)
  | ⟨.returned (.pop (some task)), .popping⟩ => some (pool.put i ⟨.idle, .holding task⟩)
  | ⟨.returned (.pop none), .popping⟩ => some (pool.put i ⟨.idle, .exited⟩)
  | ⟨.idle, .holding task⟩ =>
    some { pool.put i ⟨.idle, .running task⟩ with runs := pool.runs ++ [task] }
  | ⟨.idle, .running task⟩ =>
    some { pool.put i ⟨.idle, .looping⟩ with completed := pool.completed ++ [(task, result)] }
  | _ => none

/-- Which thread moves, and how. -/
inductive Label where
  | queue (move : Move)
  | submit (i : Nat)
  | shutdown (i : Nat)
  | go (i : Nat) (result : TaskResult)

def step (pool : ThreadPool) : Label → Option ThreadPool
  | .queue move => (pool.tasks.move move).map fun tasks => { pool with tasks }
  | .submit i =>
    match pool.tasks.agents[i]? with
    | some ⟨.idle, .client⟩ =>
      some { pool.put i ⟨.push pool.next, .submitting pool.next⟩ with next := pool.next + 1 }
    | _ => none
  | .shutdown i =>
    match pool.tasks.agents[i]? with
    | some ⟨.idle, .client⟩ => some (pool.put i ⟨.idle, .exchanging⟩)
    | _ => none
  | .go i result => (pool.tasks.agents[i]?).bind (pool.go i result)

end ThreadPool

/-! ## Where a task is -/

/-- A thread's place in the queue's code fits its place in the pool's. -/
def Fits : Point Task → Control → Prop
  | .push _, .submitting _ | .awaitRoom _, .submitting _ | .pushed, .submitting _
  | .returned (.push _), .submitting _ => True
  | .close, .closing | .closedItem, .closing | .closedRoom, .closing
  | .returned .close, .closing => True
  | .pop, .popping | .awaitItem, .popping | .popped _, .popping
  | .returned (.pop _), .popping => True
  | .idle, .client | .idle, .exchanging | .idle, .joining _ | .idle, .looping | .idle, .holding _
  | .idle, .running _ | .idle, .exited => True
  | _, _ => False

/-- The thread is running the task. -/
def runsTask (t : Task) (a : Agent Task Control) : Bool :=
  match a.control with
  | .running u => u = t
  | _ => false

/-- The thread has taken the task out of the queue and not completed it. -/
def holdsTask (t : Task) (a : Agent Task Control) : Bool :=
  match a.point, a.control with
  | .popped u, _ | .returned (.pop (some u)), _ => u = t
  | _, .holding u | _, .running u => u = t
  | _, _ => false

/-- The thread is pushing the task. -/
def sendsTask (t : Task) (a : Agent Task Control) : Bool :=
  match a.point with
  | .push u | .awaitRoom u => u = t
  | _ => false

/-- The thread has been told that the queue is closed and empty. -/
def toldDrained (a : Agent Task Control) : Bool :=
  match a.point, a.control with
  | .returned (.pop none), _ | _, .exited => true
  | _, _ => false

namespace ThreadPool

/-- The tasks whose push was accepted, or turned away. -/
def accepted (pool : ThreadPool) : List Task := pool.tasks.inserted

def rejected (pool : ThreadPool) : List Task := pool.tasks.refused

/-- How often a task is in the queue, held by a worker, completed. -/
def queued (pool : ThreadPool) (t : Task) : Nat := pool.tasks.queue.queue.count t

def held (pool : ThreadPool) (t : Task) : Nat := pool.tasks.agents.countP (holdsTask t)

def finished (pool : ThreadPool) (t : Task) : Nat := (pool.completed.map Prod.fst).count t

/-! ## What a step can do -/

/-- The steps outside the queue that neither begin nor end the running of a task. -/
inductive Quiet : Agent Task Control → Agent Task Control → Prop where
  | submitted (answer : Answer Task) (task : Task) :
      Quiet ⟨.returned answer, .submitting task⟩ ⟨.idle, .client⟩
  | shuts : Quiet ⟨.idle, .client⟩ ⟨.idle, .exchanging⟩
  | late : Quiet ⟨.idle, .exchanging⟩ ⟨.idle, .client⟩
  | closes : Quiet ⟨.idle, .exchanging⟩ ⟨.close, .closing⟩
  | closed (answer : Answer Task) : Quiet ⟨.returned answer, .closing⟩ ⟨.idle, .joining 0⟩
  | joins (worker : Nat) : Quiet ⟨.idle, .joining worker⟩ ⟨.idle, .joining (worker + 1)⟩
  | joined (worker : Nat) : Quiet ⟨.idle, .joining worker⟩ ⟨.idle, .client⟩
  | pops : Quiet ⟨.idle, .looping⟩ ⟨.pop, .popping⟩
  | got (task : Task) : Quiet ⟨.returned (.pop (some task)), .popping⟩ ⟨.idle, .holding task⟩
  | exits : Quiet ⟨.returned (.pop none), .popping⟩ ⟨.idle, .exited⟩

/-- What a step of the pool does to its threads and tasks. -/
inductive Steps (pool pool' : ThreadPool) : Prop where
  | queue (i : Nat) (a : Agent Task Control) (point : Point Task)
      (moved : Moved pool.tasks pool'.tasks i a point) (next : pool'.next = pool.next)
      (runs : pool'.runs = pool.runs) (completed : pool'.completed = pool.completed)
  | submits (i : Nat) (at_ : pool.tasks.agents[i]? = some ⟨.idle, .client⟩)
      (tasks : pool'.tasks = (pool.put i ⟨.push pool.next, .submitting pool.next⟩).tasks)
      (next : pool'.next = pool.next + 1) (runs : pool'.runs = pool.runs)
      (completed : pool'.completed = pool.completed)
  | quiet (i : Nat) (a a' : Agent Task Control) (at_ : pool.tasks.agents[i]? = some a)
      (quiet : Quiet a a') (tasks : pool'.tasks = (pool.put i a').tasks)
      (next : pool'.next = pool.next) (runs : pool'.runs = pool.runs)
      (completed : pool'.completed = pool.completed)
  | begins (i : Nat) (task : Task) (at_ : pool.tasks.agents[i]? = some ⟨.idle, .holding task⟩)
      (tasks : pool'.tasks = (pool.put i ⟨.idle, .running task⟩).tasks)
      (next : pool'.next = pool.next) (runs : pool'.runs = pool.runs ++ [task])
      (completed : pool'.completed = pool.completed)
  | finishes (i : Nat) (task : Task) (result : TaskResult)
      (at_ : pool.tasks.agents[i]? = some ⟨.idle, .running task⟩)
      (tasks : pool'.tasks = (pool.put i ⟨.idle, .looping⟩).tasks)
      (next : pool'.next = pool.next) (runs : pool'.runs = pool.runs)
      (completed : pool'.completed = pool.completed ++ [(task, result)])

theorem go_steps {pool pool' : ThreadPool} {i : Nat} {result : TaskResult} {a : Agent Task Control}
    (at_ : pool.tasks.agents[i]? = some a) (went : pool.go i result a = some pool') :
    Steps pool pool' := by
  unfold go at went
  split at went
  · cases went
    exact .quiet i _ _ at_ (.submitted ..) rfl rfl rfl rfl
  · split at went
    · cases went
      exact .quiet i _ _ at_ .late rfl rfl rfl rfl
    · cases went
      exact .quiet i _ _ at_ .closes rfl rfl rfl rfl
  · cases went
    exact .quiet i _ _ at_ (.closed _) rfl rfl rfl rfl
  · split at went
    · split at went
      · cases went
        exact .quiet i _ _ at_ (.joins _) rfl rfl rfl rfl
      · split at went
        · cases went
          exact .quiet i _ _ at_ (.joins _) rfl rfl rfl rfl
        · cases went
    · cases went
      exact .quiet i _ _ at_ (.joined _) rfl rfl rfl rfl
  · cases went
    exact .quiet i _ _ at_ .pops rfl rfl rfl rfl
  · cases went
    exact .quiet i _ _ at_ (.got _) rfl rfl rfl rfl
  · cases went
    exact .quiet i _ _ at_ .exits rfl rfl rfl rfl
  · cases went
    exact .begins i _ at_ rfl rfl rfl rfl
  · cases went
    exact .finishes i _ result at_ rfl rfl rfl rfl
  · cases went

/-- **Every step of the pool is one of these.** -/
theorem step_steps {pool pool' : ThreadPool} {label : Label} (stepped : step pool label = some pool') :
    Steps pool pool' := by
  cases label with
  | queue move =>
    obtain ⟨tasks, went, rfl⟩ := Option.map_eq_some_iff.1 stepped
    obtain ⟨i, a, point, moved⟩ := move_turn went
    exact .queue i a point moved rfl rfl rfl
  | submit i =>
    simp only [step] at stepped
    split at stepped
    · rename_i at_
      cases stepped
      exact .submits i at_ rfl rfl rfl rfl
    · cases stepped
  | shutdown i =>
    simp only [step] at stepped
    split at stepped
    · rename_i at_
      cases stepped
      exact .quiet i _ _ at_ .shuts rfl rfl rfl rfl
    · cases stepped
  | go i result =>
    obtain ⟨a, at_, went⟩ := Option.bind_eq_some_iff.1 stepped
    exact go_steps at_ went

/-! ## Threads between the queue and the pool -/

theorem fits_turn {q q' : BlockingQueue Task} {p p' : Point Task} {control : Control}
    (turn : Turn q p q' p') (fits : Fits p control) : Fits p' control := by
  cases turn with
  | woke p asleep => cases p <;> cases asleep <;> cases control <;> exact fits
  | _ => cases control <;> exact fits

/-- Who is in no call of the queue is nowhere in it. -/
theorem fits_idle {p : Point Task} {control : Control} (fits : Fits p control)
    (outside : control.inCall = false) : p = .idle := by
  unfold Fits at fits
  split at fits <;> first | rfl | cases outside | cases fits

/-- Who holds a task while in a call of the queue is popping. -/
theorem fits_popping {p : Point Task} {control : Control} {t : Task} (fits : Fits p control)
    (calls : control.inCall = true) (holds : holdsTask t ⟨p, control⟩ = true) :
    control = .popping := by
  unfold Fits at fits
  split at fits <;> first | rfl | cases holds | cases calls | cases fits

theorem fits_woken {a : Agent Task Control} (fits : Fits a.point a.control) :
    Fits a.woken.point a.woken.control := by
  obtain ⟨p, control⟩ := a
  cases p <;> cases control <;> exact fits

theorem fits_quiet {a a' : Agent Task Control} (quiet : Quiet a a') : Fits a'.point a'.control := by
  cases quiet <;> trivial

section Wakes

variable (t : Task) (a : Agent Task Control)

theorem runsTask_woken : runsTask t a.woken = runsTask t a := rfl

theorem holdsTask_woken : holdsTask t a.woken = holdsTask t a := by
  obtain ⟨point, control⟩ := a
  cases point <;> cases control <;> rfl

omit a in
theorem toldDrained_iff (a : Agent Task Control) :
    toldDrained a = true ↔ a.point = .returned (.pop none) ∨ a.control = .exited := by
  unfold toldDrained
  split <;> simp_all

theorem toldDrained_woken : toldDrained a.woken = toldDrained a := by
  obtain ⟨point, control⟩ := a
  cases point <;> cases control <;> rfl

theorem sendsTask_woken : sendsTask t a.woken = sendsTask t a := by
  obtain ⟨point, control⟩ := a
  cases point <;> rfl

end Wakes

/-- What one thread counts for at a task. -/
def share (holds : Task → Agent Task Control → Bool) (t : Task) (a : Agent Task Control) : Nat :=
  if holds t a then 1 else 0

/-- What leaves the queue is held by whoever took it, and what enters it is inserted. -/
theorem turn_placed {q q' : BlockingQueue Task} {p p' : Point Task} {control : Control}
    (turn : Turn q p q' p') (fits : Fits p control) (t : Task) :
    q'.queue.count t + share holdsTask t ⟨p', control⟩ =
      q.queue.count t + share holdsTask t ⟨p, control⟩ + (p.inserts p').count t := by
  cases turn with
  | stored item open_ room =>
    cases control <;> cases fits
    simp [share, holdsTask, Point.inserts, List.count_append]
  | taken item rest front =>
    cases control <;> cases fits
    simp [share, holdsTask, Point.inserts, front, List.count_cons]
  | woke p asleep =>
    have same : holdsTask t ⟨p.woken, control⟩ = holdsTask t ⟨p, control⟩ :=
      holdsTask_woken t ⟨p, control⟩
    have nothing : p.inserts p.woken = [] := by cases p <;> rfl
    rw [share, share, same, nothing, List.count_nil, Nat.add_zero]
  | _ =>
    cases control <;> cases fits
    all_goals simp [share, holdsTask, Point.inserts]

/-- What stops being pushed is inserted, or turned away. -/
theorem turn_sent {q q' : BlockingQueue Task} {p p' : Point Task} (turn : Turn q p q' p')
    (control : Control) (t : Task) :
    (p.inserts p').count t + (p.refuses p').count t + share sendsTask t ⟨p', control⟩ =
      share sendsTask t ⟨p, control⟩ := by
  cases turn with
  | stored item open_ room => simp [share, sendsTask, Point.inserts, Point.refuses, List.count_singleton]
  | refused item closed => simp [share, sendsTask, Point.inserts, Point.refuses, List.count_singleton]
  | woke p asleep =>
    cases p <;> cases asleep <;> simp [share, sendsTask, Point.woken, Point.inserts, Point.refuses]
  | _ => simp [share, sendsTask, Point.inserts, Point.refuses]

/-- Where every task is, in every state. -/
structure Accounted (pool : ThreadPool) : Prop where
  fits : ∀ a ∈ pool.tasks.agents, Fits a.point a.control
  placed : ∀ t, pool.queued t + pool.held t + pool.finished t = pool.accepted.count t
  begun : ∀ t, pool.tasks.agents.countP (runsTask t) + pool.finished t = pool.runs.count t
  sent : ∀ t, pool.accepted.count t + pool.rejected.count t +
    pool.tasks.agents.countP (sendsTask t) = if t < pool.next then 1 else 0
  ended : ∀ a ∈ pool.tasks.agents, toldDrained a = true →
    pool.tasks.queue.closed = true ∧ pool.tasks.queue.queue = []

section Keeps

variable {pool pool' : ThreadPool} {i : Nat} {a a' : Agent Task Control}

/-- A step in the queue: a task changes places as the turn says. -/
theorem Accounted.inside (accounted : Accounted pool) {point : Point Task}
    (moved : Moved pool.tasks pool'.tasks i a point) (next : pool'.next = pool.next)
    (runs : pool'.runs = pool.runs) (completed : pool'.completed = pool.completed) :
    Accounted pool' := by
  have member : a ∈ pool.tasks.agents := List.mem_of_getElem? moved.agents.at_
  have fits : Fits a.point a.control := accounted.fits a member
  have finished (t : Task) : pool'.finished t = pool.finished t := by
    rw [ThreadPool.finished, completed, ThreadPool.finished]
  have inserted (t : Task) : pool'.accepted.count t =
      pool.accepted.count t + (a.point.inserts point).count t := by
    rw [accepted, moved.inserted, List.count_append, accepted]
  have refused (t : Task) : pool'.rejected.count t =
      pool.rejected.count t + (a.point.refuses point).count t := by
    rw [rejected, moved.refused, List.count_append, rejected]
  constructor
  · exact moved.agents.all (P := fun u => Fits u.point u.control) (fun _ => fits_woken)
      accounted.fits (fits_turn moved.turn fits)
  · intro t
    have agents := moved.agents.countP (holdsTask_woken t)
    have turn := turn_placed moved.turn fits t
    have before := accounted.placed t
    change _ + share holdsTask t { a with point } = _ + share holdsTask t a + _ at turn
    simp only [share] at turn
    rw [finished, inserted]
    simp only [queued, held] at before ⊢
    omega
  · intro t
    have agents := moved.agents.countP (runsTask_woken t)
    have same : runsTask t { a with point } = runsTask t a := rfl
    have before := accounted.begun t
    rw [same] at agents
    rw [finished, runs]
    omega
  · intro t
    have agents := moved.agents.countP (sendsTask_woken t)
    have turn := turn_sent moved.turn a.control t
    have before := accounted.sent t
    change _ + share sendsTask t { a with point } = share sendsTask t a at turn
    simp only [share] at turn
    rw [inserted, refused, next]
    omega
  · -- who has been told that the queue is drained was told so by a closed, empty queue
    have still (closed : pool.tasks.queue.closed = true ∧ pool.tasks.queue.queue = []) :
        pool'.tasks.queue.closed = true ∧ pool'.tasks.queue.queue = [] := by
      obtain ⟨closed', -, empty⟩ := moved.turn.closed_kept closed.1
      exact ⟨closed', empty closed.2⟩
    refine moved.agents.all (P := fun u => toldDrained u = true →
      pool'.tasks.queue.closed = true ∧ pool'.tasks.queue.queue = [])
      (fun u before told => before (toldDrained_woken u ▸ told))
      (fun u there told => still (accounted.ended u there told)) fun told => ?_
    rcases (toldDrained_iff _).1 told with now | left
    · exact moved.turn.told_drained now
    · exact still (accounted.ended a member ((toldDrained_iff a).2 (.inr left)))

/-- A step outside the queue, by what it changes about each task. -/
theorem Accounted.outside (accounted : Accounted pool) (at_ : pool.tasks.agents[i]? = some a)
    (tasks : pool'.tasks = (pool.put i a').tasks) (fits : Fits a'.point a'.control)
    (ended : toldDrained a' = true → toldDrained a = true)
    (holds : ∀ t, share holdsTask t a' + pool'.finished t = share holdsTask t a + pool.finished t)
    (runs : ∀ t, share runsTask t a' + pool'.finished t + pool.runs.count t =
      share runsTask t a + pool.finished t + pool'.runs.count t)
    (sends : ∀ t, share sendsTask t a' + (if t < pool.next then 1 else 0) =
      share sendsTask t a + if t < pool'.next then 1 else 0) : Accounted pool' := by
  have agents : Replaces pool.tasks.agents pool'.tasks.agents i a a' := by
    rw [tasks]
    exact replaces_set at_ a'
  have queue : pool'.tasks.queue = pool.tasks.queue := by rw [tasks]; rfl
  have inserted : pool'.accepted = pool.accepted := by rw [accepted, tasks]; rfl
  have refused : pool'.rejected = pool.rejected := by rw [rejected, tasks]; rfl
  simp only [share] at holds runs sends
  have member : a ∈ pool.tasks.agents := List.mem_of_getElem? at_
  constructor
  · exact agents.all (P := fun u => Fits u.point u.control) (fun _ => fits_woken) accounted.fits fits
  · intro t
    have count := agents.countP (holdsTask_woken t)
    have before := accounted.placed t
    have moved := holds t
    rw [queued, queue, inserted]
    simp only [queued, held] at before ⊢
    omega
  · intro t
    have count := agents.countP (runsTask_woken t)
    have before := accounted.begun t
    have moved := runs t
    omega
  · intro t
    have count := agents.countP (sendsTask_woken t)
    have before := accounted.sent t
    have moved := sends t
    rw [inserted, refused]
    omega
  · rw [queue]
    exact agents.all (P := fun u => toldDrained u = true →
      pool.tasks.queue.closed = true ∧ pool.tasks.queue.queue = [])
      (fun u before told => before (toldDrained_woken u ▸ told)) accounted.ended
      fun told => accounted.ended a member (ended told)

theorem finished_same (completed : pool'.completed = pool.completed) (t : Task) :
    pool'.finished t = pool.finished t := by
  rw [finished, completed, finished]

/-- **Every step keeps every task in its places.** -/
theorem Accounted.step (accounted : Accounted pool) {label : Label}
    (stepped : step pool label = some pool') : Accounted pool' := by
  cases step_steps stepped with
  | queue i a point moved next runs completed => exact accounted.inside moved next runs completed
  | submits i at_ tasks next runs completed =>
    refine accounted.outside at_ tasks trivial nofun (fun t => ?_)
      (fun t => ?_) fun t => ?_
    · rw [finished_same completed]
      rfl
    · rw [finished_same completed, runs]
      rfl
    · rw [next]
      by_cases same : pool.next = t
      · subst same
        simp [share, sendsTask]
      · have others : t < pool.next + 1 ↔ t < pool.next :=
          ⟨fun le => Nat.lt_of_le_of_ne (Nat.le_of_lt_succ le) (Ne.symm same), Nat.lt_succ_of_lt⟩
        simp [share, sendsTask, same, others]
  | quiet i a a' at_ quiet tasks next runs completed =>
    have fits := accounted.fits a (List.mem_of_getElem? at_)
    refine accounted.outside at_ tasks (fits_quiet quiet) ?_ (fun t => ?_) (fun t => ?_) fun t => ?_
    · cases quiet with
      | exits => exact fun _ => rfl
      | _ => nofun
    · rw [finished_same completed]
      cases quiet with
      | submitted answer task => cases answer <;> first | rfl | cases fits
      | closed answer => cases answer <;> first | rfl | cases fits
      | _ => rfl
    · rw [finished_same completed, runs]
      cases quiet <;> rfl
    · rw [next]
      cases quiet <;> rfl
  | begins i task at_ tasks next runs completed =>
    refine accounted.outside at_ tasks trivial nofun (fun t => ?_)
      (fun t => ?_) fun t => ?_
    · rw [finished_same completed]
      rfl
    · have runs_ : share runsTask t ⟨.idle, .running task⟩ = [task].count t := by
        simp [share, runsTask, List.count_singleton]
      have holds_ : share runsTask t ⟨.idle, .holding task⟩ = 0 := rfl
      rw [finished_same completed, runs, runs_, holds_, List.count_append]
      omega
    · rw [next]
      rfl
  | finishes i task result at_ tasks next runs completed =>
    have ended_ (t : Task) : pool'.finished t = pool.finished t + [task].count t := by
      rw [finished, completed, List.map_append, List.count_append, finished]
      rfl
    refine accounted.outside at_ tasks trivial nofun (fun t => ?_)
      (fun t => ?_) fun t => ?_
    · have runs_ : share holdsTask t ⟨.idle, .running task⟩ = [task].count t := by
        simp [share, holdsTask, List.count_singleton]
      have loops : share holdsTask t ⟨.idle, .looping⟩ = 0 := rfl
      rw [ended_, runs_, loops]
      omega
    · have runs_ : share runsTask t ⟨.idle, .running task⟩ = [task].count t := by
        simp [share, runsTask, List.count_singleton]
      have loops : share runsTask t ⟨.idle, .looping⟩ = 0 := rfl
      rw [ended_, runs, runs_, loops]
      omega
    · rw [next]
      rfl

/-- Workers stay workers, and users stay users. -/
theorem Steps.staff (steps : Steps pool pool') :
    (pool'.tasks.agents.map fun a => a.control.isWorker) =
      pool.tasks.agents.map fun a => a.control.isWorker := by
  have kept {i : Nat} {a a' : Agent Task Control}
      (replaces : Replaces pool.tasks.agents pool'.tasks.agents i a a')
      (same : a'.control.isWorker = a.control.isWorker) :
      (pool'.tasks.agents.map fun a => a.control.isWorker) =
        pool.tasks.agents.map fun a => a.control.isWorker := by
    obtain ⟨inside, here⟩ := List.getElem?_eq_some_iff.1 replaces.at_
    rw [replaces.map fun _ => rfl, same, ← here, ← List.map_set, List.set_getElem_self]
  have outside {i : Nat} {a a' : Agent Task Control} (at_ : pool.tasks.agents[i]? = some a)
      (tasks : pool'.tasks = (pool.put i a').tasks)
      (same : a'.control.isWorker = a.control.isWorker) :
      (pool'.tasks.agents.map fun a => a.control.isWorker) =
        pool.tasks.agents.map fun a => a.control.isWorker := by
    have replaces : Replaces pool.tasks.agents pool'.tasks.agents i a a' := by
      rw [tasks]
      exact replaces_set at_ a'
    exact kept replaces same
  cases steps with
  | queue i a point moved => exact kept moved.agents rfl
  | submits i at_ tasks => exact outside at_ tasks rfl
  | quiet i a a' at_ quiet tasks => exact outside at_ tasks (by cases quiet <;> rfl)
  | begins i task at_ tasks => exact outside at_ tasks rfl
  | finishes i task result at_ tasks => exact outside at_ tasks rfl

/-- Once the queue is closed nothing more is accepted. -/
theorem Steps.closed_kept (steps : Steps pool pool') (closed : pool.tasks.queue.closed = true) :
    pool'.tasks.queue.closed = true ∧ pool'.accepted = pool.accepted := by
  cases steps with
  | queue i a point moved =>
    obtain ⟨closed', nothing, -⟩ := moved.turn.closed_kept closed
    exact ⟨closed', by rw [accepted, moved.inserted, nothing, List.append_nil, accepted]⟩
  | submits i at_ tasks => exact ⟨by rw [tasks]; exact closed, by rw [accepted, tasks]; rfl⟩
  | quiet i a a' at_ quiet tasks => exact ⟨by rw [tasks]; exact closed, by rw [accepted, tasks]; rfl⟩
  | begins i task at_ tasks => exact ⟨by rw [tasks]; exact closed, by rw [accepted, tasks]; rfl⟩
  | finishes i task result at_ tasks =>
    exact ⟨by rw [tasks]; exact closed, by rw [accepted, tasks]; rfl⟩

theorem step_workers {label : Label} (stepped : step pool label = some pool') :
    pool'.workers = pool.workers := by
  cases label with
  | queue move =>
    obtain ⟨tasks, -, rfl⟩ := Option.map_eq_some_iff.1 stepped
    rfl
  | submit i =>
    simp only [step] at stepped
    split at stepped <;> cases stepped
    rfl
  | shutdown i =>
    simp only [step] at stepped
    split at stepped <;> cases stepped
    rfl
  | go i result =>
    obtain ⟨a, -, went⟩ := Option.bind_eq_some_iff.1 stepped
    unfold go at went
    split at went
    · cases went; rfl
    · split at went <;> cases went <;> rfl
    · cases went; rfl
    · split at went
      · split at went
        · cases went; rfl
        · split at went <;> cases went
          rfl
      · cases went; rfl
    · cases went; rfl
    · cases went; rfl
    · cases went; rfl
    · cases went; rfl
    · cases went; rfl
    · cases went

end Keeps

/-! ## Every run -/

section Runs

variable {workers clients : Nat} {sched : List Label} {pool : ThreadPool}

theorem accounted_run (ran : exec step (init workers clients) sched = some pool) : Accounted pool := by
  refine exec_induct Accounted (fun pool label pool' accounted stepped => accounted.step stepped) ?_ ran
  have quiet : ∀ a ∈ (init workers clients).tasks.agents,
      a = ⟨.idle, .looping⟩ ∨ a = ⟨.idle, .client⟩ := by
    intro a member
    rcases List.mem_append.1 member with there | there
    · exact .inl (List.eq_of_mem_replicate there)
    · exact .inr (List.eq_of_mem_replicate there)
  have nobody {p : Agent Task Control → Bool} (worker : p ⟨.idle, .looping⟩ = false)
      (client : p ⟨.idle, .client⟩ = false) : (init workers clients).tasks.agents.countP p = 0 := by
    refine List.countP_eq_zero.2 fun a member => ?_
    rcases quiet a member with rfl | rfl
    · rw [worker]; exact Bool.false_ne_true
    · rw [client]; exact Bool.false_ne_true
  constructor
  · intro a member
    rcases quiet a member with rfl | rfl <;> trivial
  · intro t
    rw [held, nobody rfl rfl]
    rfl
  · intro t
    rw [nobody rfl rfl]
    rfl
  · intro t
    rw [nobody rfl rfl]
    exact (if_neg (Nat.not_lt_zero t)).symm
  · intro a member told
    rcases quiet a member with rfl | rfl <;> cases told

/-- The workers are the first threads, and there is one at least. -/
structure Staffed (pool : ThreadPool) : Prop where
  some_ : 0 < pool.workers
  here : ∀ j, j < pool.workers → ∃ a, pool.tasks.agents[j]? = some a
  only : ∀ j a, pool.tasks.agents[j]? = some a → a.control.isWorker = true → j < pool.workers

theorem staffed_run (ran : exec step (init workers clients) sched = some pool) : Staffed pool := by
  obtain ⟨n, positive, count, staff⟩ : ∃ n, 0 < n ∧ pool.workers = n ∧
      (pool.tasks.agents.map fun a => a.control.isWorker) =
        List.replicate n true ++ List.replicate clients false := by
    refine exec_induct (fun pool => ∃ n, 0 < n ∧ pool.workers = n ∧
      (pool.tasks.agents.map fun a => a.control.isWorker) =
        List.replicate n true ++ List.replicate clients false) ?_ ?_ ran
    · rintro pool label pool' ⟨n, positive, count, staff⟩ stepped
      exact ⟨n, positive, (step_workers stepped).trans count, (step_steps stepped).staff.trans staff⟩
    · refine ⟨_, ?_, rfl, ?_⟩
      · show 0 < if workers = 0 then 1 else workers
        split <;> omega
      · simp only [init, List.map_append, List.map_replicate]
        rfl
  have at_ (j : Nat) : (pool.tasks.agents[j]?).map (fun a => a.control.isWorker) =
      (List.replicate n true ++ List.replicate clients false)[j]? := by
    rw [← staff, List.getElem?_map]
  refine ⟨by omega, fun j inside => ?_, fun j a there works => ?_⟩
  · have is := at_ j
    rw [List.getElem?_append_left (by rw [List.length_replicate]; omega),
      List.getElem?_replicate_of_lt (by omega)] at is
    obtain ⟨a, there, -⟩ := Option.map_eq_some_iff.1 is
    exact ⟨a, there⟩
  · by_contra outside
    have is := at_ j
    rw [there, List.getElem?_append_right (by rw [List.length_replicate]; omega)] at is
    have user : a.control.isWorker = false := List.eq_of_mem_replicate (List.mem_of_getElem? is.symm)
    rw [works] at user
    cases user

end Runs

/-- All workers have left their loops. -/
def AllExited (pool : ThreadPool) : Prop := ∀ j, j < pool.workers → pool.hasExited j = true

/-- What holds of the tasks in every state. -/
structure RunsOnce (pool : ThreadPool) : Prop where
  /-- An accepted task is in one place: queued once, held by one thread, or completed once. -/
  accepted : ∀ t ∈ pool.accepted, pool.queued t + pool.held t + pool.finished t = 1
  /-- Only workers hold tasks. -/
  holders : ∀ a ∈ pool.tasks.agents, ∀ t, holdsTask t a = true → a.control.isWorker = true
  /-- A task that is completed was run once. -/
  once : ∀ t ∈ pool.accepted, pool.finished t = 1 → pool.runs.count t = 1
  /-- A rejected task is nowhere, and was not run. -/
  rejected : ∀ t ∈ pool.rejected, t ∉ pool.accepted ∧ pool.queued t = 0 ∧ pool.held t = 0 ∧
    pool.finished t = 0 ∧ t ∉ pool.runs
  /-- A worker has left its loop only if the queue is closed and empty. -/
  exits : ∀ a ∈ pool.tasks.agents, a.control = .exited →
    pool.tasks.queue.closed = true ∧ pool.tasks.queue.queue = []
  /-- When all workers have left, every task ever accepted is completed, and no other ever will
  be accepted. -/
  down : pool.AllExited →
    (∀ t ∈ pool.accepted, pool.finished t = 1 ∧ pool.runs.count t = 1) ∧
      ∀ later pool', exec step pool later = some pool' → pool'.accepted = pool.accepted

section Accounts

variable {pool : ThreadPool}

theorem Accounted.accepted_once (accounted : Accounted pool) {t : Task} (member : t ∈ pool.accepted) :
    pool.accepted.count t = 1 ∧ t ∉ pool.rejected := by
  have sent := accounted.sent t
  have some_ := List.count_pos_iff.2 member
  have most : (if t < pool.next then 1 else 0) ≤ 1 := by split <;> omega
  refine ⟨by omega, fun rejected => ?_⟩
  have also := List.count_pos_iff.2 rejected
  omega

/-- Who runs a task holds it. -/
theorem Accounted.running_le_held (accounted : Accounted pool) (t : Task) :
    pool.tasks.agents.countP (runsTask t) ≤ pool.held t := by
  refine List.countP_mono_left fun a member runs => ?_
  obtain ⟨p, control⟩ := a
  cases control with
  | running u =>
    obtain rfl : p = .idle := fits_idle (accounted.fits _ member) rfl
    exact runs
  | _ => cases runs

/-- Who holds a task is a worker that has not left. -/
theorem Accounted.holder (accounted : Accounted pool) {a : Agent Task Control}
    (member : a ∈ pool.tasks.agents) {t : Task} (holds : holdsTask t a = true) :
    a.control.isWorker = true ∧ a.control ≠ .exited := by
  obtain ⟨p, control⟩ := a
  have fits : Fits p control := accounted.fits _ member
  cases calls : control.inCall with
  | true =>
    rw [fits_popping fits calls holds]
    exact ⟨rfl, Control.noConfusion⟩
  | false =>
    obtain rfl := fits_idle fits calls
    cases control with
    | holding u => exact ⟨rfl, Control.noConfusion⟩
    | running u => exact ⟨rfl, Control.noConfusion⟩
    | _ => cases holds

end Accounts

/-- **The pool runs every accepted task exactly once**, in every interleaving of its
workers with any number of threads that submit and shut down. -/
theorem tasks_run_once {workers clients : Nat} {sched : List Label} {pool : ThreadPool}
    (ran : exec step (init workers clients) sched = some pool) : RunsOnce pool := by
  have accounted := accounted_run ran
  have staffed := staffed_run ran
  constructor
  · intro t member
    rw [accounted.placed, (accounted.accepted_once member).1]
  · exact fun a member t holds => (accounted.holder member holds).1
  · intro t member done
    have one := (accounted.accepted_once member).1
    have placed := accounted.placed t
    have begun := accounted.begun t
    have few := accounted.running_le_held t
    omega
  · intro t member
    have other : t ∉ pool.accepted := fun also => (accounted.accepted_once also).2 member
    have none_ := List.count_eq_zero.2 other
    have placed := accounted.placed t
    have begun := accounted.begun t
    have few := accounted.running_le_held t
    refine ⟨other, by omega, by omega, by omega, List.count_eq_zero.1 (by omega)⟩
  · intro a member left
    exact accounted.ended a member ((toldDrained_iff a).2 (.inr left))
  · intro exited
    -- the first worker left a closed and empty queue
    obtain ⟨first, there⟩ := staffed.here 0 staffed.some_
    have left := exited 0 staffed.some_
    rw [hasExited, there] at left
    obtain ⟨closed, empty⟩ := accounted.ended first (List.mem_of_getElem? there)
      ((toldDrained_iff first).2 (.inr (of_decide_eq_true left)))
    have nobody (t : Task) : pool.held t = 0 := by
      refine List.countP_eq_zero.2 fun a member holds => ?_
      obtain ⟨works, stays⟩ := accounted.holder member holds
      obtain ⟨j, at_⟩ := List.mem_iff_getElem?.1 member
      have gone := exited j (staffed.only j a at_ works)
      rw [hasExited, at_] at gone
      exact stays (of_decide_eq_true gone)
    refine ⟨fun t member => ?_, fun later pool' run => ?_⟩
    · have one := (accounted.accepted_once member).1
      have placed := accounted.placed t
      have begun := accounted.begun t
      have few := accounted.running_le_held t
      have queued_ : pool.queued t = 0 := by rw [queued, empty]; rfl
      have held_ := nobody t
      exact ⟨by omega, by omega⟩
    · refine (exec_induct (fun pool' => pool'.tasks.queue.closed = true ∧
        pool'.accepted = pool.accepted) ?_ ⟨closed, rfl⟩ run).2
      rintro mid label mid' ⟨closed, same⟩ stepped
      obtain ⟨closed', none_⟩ := (step_steps stepped).closed_kept closed
      exact ⟨closed', none_.trans same⟩

/-- Two workers, two submissions of which one comes too late, and a shutdown: the run ends
with one task accepted and completed, and one rejected. -/
theorem tasks_run_once_late : ∃ sched pool, exec step (init 2 2) sched = some pool ∧
    pool.accepted = [0] ∧ pool.rejected = [1] ∧ pool.AllExited ∧
    ∀ t ∈ pool.accepted, pool.finished t = 1 ∧ pool.runs.count t = 1 := by
  have ran : (exec step (init 2 2)
      ([.go 0 (.ok ()), .queue (.enter 0), .submit 2, .queue (.enter 2), .queue (.notify 2 (some 0)),
        .go 2 (.ok ()), .shutdown 3, .go 3 (.ok ()), .queue (.enter 3), .submit 2, .queue (.enter 2),
        .queue (.enter 0), .queue (.notify 0 none), .go 0 (.ok ()), .go 0 (.ok ()),
        .go 0 (.error (.invalidArgument "task")), .go 0 (.ok ()), .queue (.enter 0), .go 0 (.ok ()),
        .go 1 (.ok ()), .queue (.enter 1), .go 1 (.ok ()), .queue (.notify 3 none),
        .queue (.notify 3 none), .go 3 (.ok ()), .go 3 (.ok ()), .go 3 (.ok ()), .go 3 (.ok ())])).any
        (fun pool => decide (pool.accepted = [0]) && decide (pool.rejected = [1]) &&
          (List.range pool.workers).all pool.hasExited) = true := by decide +kernel
  obtain ⟨pool, run, found⟩ := exec_any ran
  rw [Bool.and_eq_true, Bool.and_eq_true, decide_eq_true_eq, decide_eq_true_eq,
    List.all_eq_true] at found
  obtain ⟨⟨accepted, rejected⟩, left⟩ := found
  have exited : pool.AllExited := fun j inside => left j (List.mem_range.2 inside)
  exact ⟨_, pool, run, accepted, rejected, exited, ((tasks_run_once run).down exited).1⟩

end ThreadPool

end PaymentSystem.Infra
