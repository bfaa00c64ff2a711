/-
# PaymentSystem.Infra.Draining -- a pool left alone finishes its work

Whatever the pool has accepted gets done, and whoever called it gets an answer, in whatever
order its threads move.  A run cannot go on for ever (`PaymentSystem.Infra.Effort`), so all
that is to be seen is what is left when it stops: when no step is possible but a new call
and a spurious wake-up.

* `wakeful_pool`: in the pool, too, nobody who waits is forgotten.
* `resting_iff`: where the threads of a pool are that has stopped.
* `Resting.drained`: it has completed every task it accepted, and owes no caller an answer.
* `pool_finishes`: and every run comes to that.
-/
import PaymentSystem.Infra.Effort
import PaymentSystem.Infra.Shutdown

namespace PaymentSystem.Infra

open PaymentSystem.Infra.BlockingQueue
open PaymentSystem.Theory.Potential
open PaymentSystem.Theory.Runs
open PaymentSystem.Theory.Threads

set_option autoImplicit false

namespace ThreadPool

/-! ## Nobody is forgotten -/

theorem Goes.places {workers : Nat} {a a' : Agent Task Control} (goes : Goes workers a a') :
    (a.point.place = .idle ∨ a.point.place = .returned) ∧
      a'.point.place ∈ [.idle, .pushing, .popping, .closing] := by
  cases goes <;> simp [Point.place]

section Keeps

variable {pool pool' : ThreadPool} {label : Label}

theorem wakeful_step (wakeful : Wakeful pool.tasks.queue (standing pool.tasks.agents))
    (stepped : step pool label = some pool') :
    Wakeful pool'.tasks.queue (standing pool'.tasks.agents) := by
  cases label with
  | queue move =>
    obtain ⟨tasks, went, rfl⟩ := Option.map_eq_some_iff.1 stepped
    exact wakeful.move went
  | submit i =>
    simp only [step] at stepped
    split at stepped
    · rename_i at_
      cases stepped
      have shifts := shifts_set at_ ⟨.push pool.next, .submitting pool.next⟩
      exact wakeful.ply shifts (.inl rfl) (by simp [Point.place])
    · cases stepped
  | shutdown i =>
    simp only [step] at stepped
    split at stepped
    · rename_i at_
      cases stepped
      have shifts := shifts_set at_ ⟨.idle, .exchanging⟩
      exact wakeful.ply shifts (.inl rfl) (by simp [Point.place])
    · cases stepped
  | go i result =>
    obtain ⟨a, at_, went⟩ := Option.bind_eq_some_iff.1 stepped
    obtain ⟨a', goes, tasks, -⟩ := go_goes went
    obtain ⟨src, dst⟩ := goes.places
    have shifts := shifts_set at_ a'
    rw [tasks]
    exact wakeful.ply shifts src dst

/-- The thread has closed the queue. -/
def hasClosed (a : Agent Task Control) : Bool :=
  match a.point, a.control with
  | .closedItem, _ | .closedRoom, _ | .returned .close, _ | _, .joining _ => true
  | _, _ => false

theorem hasClosed_woken (a : Agent Task Control) : hasClosed a.woken = hasClosed a := by
  obtain ⟨p, c⟩ := a
  cases p <;> cases c <;> rfl

/-- What a thread has closed is closed. -/
def Shut (pool : ThreadPool) : Prop :=
  ∀ a ∈ pool.tasks.agents, hasClosed a = true → pool.tasks.queue.closed = true

theorem Shut.step (shut : Shut pool) (accounted : Accounted pool)
    (stepped : step pool label = some pool') : Shut pool' := by
  -- outside the queue nothing is closed that was not
  have outside {i : Nat} {a a' : Agent Task Control} (at_ : pool.tasks.agents[i]? = some a)
      (tasks : pool'.tasks = (pool.put i a').tasks) (kept : hasClosed a' = true → hasClosed a = true) :
      Shut pool' := by
    unfold Shut
    rw [tasks]
    exact forall_mem_set shut fun has => shut a (List.mem_of_getElem? at_) (kept has)
  cases step_steps stepped with
  | queue i a point moved next runs completed =>
    have stays (closed : pool.tasks.queue.closed = true) := (moved.turn.closed_kept closed).1
    refine moved.agents.all (fun u kept has => kept (hasClosed_woken u ▸ has))
      (fun u member has => stays (shut u member has)) fun has => ?_
    obtain ⟨p, c⟩ := a
    have before (had : hasClosed ⟨p, c⟩ = true) :=
      stays (shut _ (List.mem_of_getElem? moved.agents.at_) had)
    have turn := moved.turn
    generalize pool'.tasks.queue = q' at turn before
    cases turn with
    | closed => rfl
    | itemNotified => exact before rfl
    | roomNotified => exact before rfl
    | woke p asleep => exact before (hasClosed_woken ⟨_, c⟩ ▸ has)
    | _ =>
      cases c with
      | joining worker => exact before rfl
      | _ => cases has
  | submits i at_ tasks next runs completed => exact outside at_ tasks nofun
  | quiet i a a' at_ quiet tasks next runs completed =>
    have fits := accounted.fits a (List.mem_of_getElem? at_)
    refine outside at_ tasks fun has => ?_
    cases quiet with
    | closed answer => cases answer <;> first | rfl | cases fits
    | joins worker => rfl
    | _ => cases has
  | begins i task at_ tasks next runs completed => exact outside at_ tasks nofun
  | finishes i task result at_ tasks next runs completed => exact outside at_ tasks nofun

end Keeps

section Runs

variable {workers clients : Nat} {sched : List Label} {pool : ThreadPool}

theorem mem_init {a : Agent Task Control} (member : a ∈ (init workers clients).tasks.agents) :
    a = ⟨.idle, .looping⟩ ∨ a = ⟨.idle, .client⟩ :=
  (List.mem_append.1 member).imp List.eq_of_mem_replicate List.eq_of_mem_replicate

/-- **In the pool nobody who waits is forgotten either.** -/
theorem wakeful_pool (ran : exec step (init workers clients) sched = some pool) :
    Wakeful pool.tasks.queue (standing pool.tasks.agents) := by
  refine exec_induct (fun pool : ThreadPool => Wakeful pool.tasks.queue (standing pool.tasks.agents))
    (fun _ _ _ wakeful stepped => wakeful_step wakeful stepped) ?_ ran
  have nobody {place : Place} (inside : place ≠ .idle) :
      standing (init workers clients).tasks.agents place = 0 := by
    refine List.countP_eq_zero.2 fun a member is => inside ?_
    rcases mem_init member with rfl | rfl <;> exact (of_decide_eq_true is).symm
  exact ⟨fun _ => .inl (nobody (by simp)), fun _ => .inl (nobody (by simp)), nofun⟩

theorem shut_pool (ran : exec step (init workers clients) sched = some pool) : Shut pool := by
  refine exec_induct_reached Shut
    (fun _ _ _ _ reached shut stepped => shut.step (accounted_run reached) stepped) ?_ ran
  intro a member has
  rcases mem_init member with rfl | rfl <;> cases has

end Runs

/-! ## At rest -/

/-- Nothing under way can go on: only new calls and spurious wake-ups are left. -/
def Resting (pool : ThreadPool) : Prop :=
  ∀ label pool', step pool label = some pool' →
    (∃ i, label = .submit i ∨ label = .shutdown i) ∨ ∃ i, label = .queue (.spurious i)

theorem resting_iff_rests {n workers : Nat} {pool : ThreadPool} :
    Resting pool ↔ Rests step (Label.credit n workers) pool := by
  refine forall_congr' fun label => forall_congr' fun pool' => imp_congr_right fun _ => ?_
  cases label with
  | queue move => cases move <;> simp [Label.credit, Move.credit]
  | submit i => simp [Label.credit]
  | shutdown i => simp [Label.credit]
  | go i result => simp [Label.credit]

/-- Asleep, outside all calls, out of the loop, or before a worker that is still in it. -/
def restsIn (pool : ThreadPool) (a : Agent Task Control) : Bool :=
  match a.point, a.control with
  | .awaitItem, _ | .awaitRoom _, _ | .idle, .client | .idle, .exited => true
  | .idle, .joining worker =>
    worker < pool.workers && !(worker ∈ pool.joined) && !pool.hasExited worker
  | _, _ => false

/-- Where all rest, nobody is in the middle of a call of the queue. -/
theorem calm_resting {pool : ThreadPool} (rest : ∀ a ∈ pool.tasks.agents, pool.restsIn a = true) :
    Calm pool.tasks.agents := by
  rintro ⟨p, c⟩ member
  have rests := rest _ member
  cases p with
  | idle | awaitItem | awaitRoom | returned => rfl
  | _ => cases rests

/-- Who does not rest can go on. -/
theorem step_exists {pool : ThreadPool} {i : Nat} {a : Agent Task Control}
    (at_ : pool.tasks.agents[i]? = some a) (fits : Fits a.point a.control)
    (restless : pool.restsIn a = false) :
    ∃ label pool', step pool label = some pool' ∧ label.credit 0 0 = 0 := by
  obtain ⟨p, c⟩ := a
  have inQueue (busy : p.place.busy = true) :
      ∃ label pool', step pool label = some pool' ∧ label.credit 0 0 = 0 := by
    obtain ⟨move, tasks, went, other⟩ := Monitor.move_exists at_ busy
    refine ⟨.queue move, _, by rw [step, went]; rfl, ?_⟩
    cases move with
    | spurious j => exact absurd rfl (other j)
    | _ => rfl
  have goes (can : (pool.go i (.ok ()) ⟨p, c⟩).isSome) :
      ∃ label pool', step pool label = some pool' ∧ label.credit 0 0 = 0 := by
    obtain ⟨pool', went⟩ := Option.isSome_iff_exists.1 can
    exact ⟨.go i (.ok ()), pool', by rw [step, at_, Option.bind_some, went], rfl⟩
  cases p with
  | idle =>
    apply goes
    cases c with
    | exchanging =>
      simp only [go]
      split <;> rfl
    | joining worker =>
      simp only [restsIn] at restless
      by_cases inside : worker < pool.workers
      · by_cases already : worker ∈ pool.joined
        · simp [go, inside, already]
        · have exited : pool.hasExited worker = true := by simpa [inside, already] using restless
          simp [go, inside, already, exited]
      · simp [go, inside]
    | looping => rfl
    | holding task => rfl
    | running task => rfl
    | client => cases restless
    | exited => cases restless
    | _ => cases fits
  | awaitItem => cases restless
  | awaitRoom item => cases restless
  | returned answer =>
    apply goes
    cases c with
    | submitting task => rfl
    | closing => rfl
    | popping =>
      cases answer with
      | pop item => cases item <;> rfl
      | _ => cases fits
    | _ => cases answer <;> cases fits
  | _ => exact inQueue rfl

/-- **A pool is at rest when all its threads are.** -/
theorem resting_iff {pool : ThreadPool} (accounted : Accounted pool) :
    Resting pool ↔ ∀ a ∈ pool.tasks.agents, pool.restsIn a = true := by
  constructor
  · intro resting a member
    obtain ⟨i, at_⟩ := List.mem_iff_getElem?.1 member
    by_contra restless
    obtain ⟨label, pool', stepped, free⟩ :=
      step_exists at_ (accounted.fits a member) (Bool.eq_false_of_not_eq_true restless)
    exact resting_iff_rests.1 resting label pool' stepped free
  · intro rest label pool' stepped
    cases label with
    | queue move =>
      obtain ⟨tasks, went, -⟩ := Option.map_eq_some_iff.1 stepped
      obtain ⟨i, rfl⟩ := (calm_resting rest).spurious went
      exact .inr ⟨i, rfl⟩
    | submit i => exact .inl ⟨i, .inl rfl⟩
    | shutdown i => exact .inl ⟨i, .inr rfl⟩
    | go i result =>
      obtain ⟨⟨p, c⟩, at_, went⟩ := Option.bind_eq_some_iff.1 stepped
      have rests := rest _ (List.mem_of_getElem? at_)
      exfalso
      cases p with
      | idle =>
        cases c with
        | joining worker =>
          simp [restsIn] at rests
          simp [go, rests] at went
        | client => cases went
        | exited => cases went
        | _ => cases rests
      | awaitItem => cases went
      | awaitRoom item => cases went
      | _ => cases rests

/-! ## What is left when it rests -/

section Rest

variable {pool : ThreadPool}

/-- At rest, whoever waits for an item waits at an open and empty queue, and whoever waits
for room at an open one with no room. -/
theorem waits_resting (wakeful : Wakeful pool.tasks.queue (standing pool.tasks.agents))
    (rest : ∀ a ∈ pool.tasks.agents, pool.restsIn a = true) :
    (0 < standing pool.tasks.agents .awaitingItem →
      pool.tasks.queue.closed = false ∧ pool.tasks.queue.queue = []) ∧
    (0 < standing pool.tasks.agents .awaitingRoom →
      pool.tasks.queue.closed = false ∧ pool.tasks.queue.queue ≠ []) := by
  obtain ⟨forItems, forRoom⟩ := wakeful.calm (calm_resting rest)
  refine ⟨forItems, fun waits => ?_⟩
  obtain ⟨open_, full⟩ := forRoom waits
  have full := isFullLocked_iff.1 full
  exact ⟨open_, List.length_pos_iff.1 (by omega)⟩

/-- What a pool that is at rest has done. -/
structure Drained (pool : ThreadPool) : Prop where
  /-- Every accepted task is completed, having run once, and none is queued. -/
  completed : ∀ t ∈ pool.accepted, pool.finished t = 1 ∧ pool.runs.count t = 1
  empty : pool.tasks.queue.queue = []
  /-- Every submission has been accepted or turned away. -/
  decided : ∀ t, t < pool.next → t ∈ pool.accepted ∨ t ∈ pool.rejected
  /-- Every call of `submit` and of `shutdown` has returned. -/
  answered : ∀ a ∈ pool.tasks.agents, a.control.isWorker = false → a = ⟨.idle, .client⟩
  /-- The workers are all asleep before an open queue, or have all left a closed one. -/
  asleep : pool.tasks.queue.closed = false →
    ∀ a ∈ pool.tasks.agents, a.control.isWorker = true → a = ⟨.awaitItem, .popping⟩
  left : pool.tasks.queue.closed = true → pool.AllExited
  /-- Once shut down, the pool is down. -/
  down : pool.stopped = true → Down pool

theorem restsIn_worker {a : Agent Task Control} (fits : Fits a.point a.control)
    (rests : pool.restsIn a = true) (worker : a.control.isWorker = true) :
    a = ⟨.awaitItem, .popping⟩ ∨ a = ⟨.idle, .exited⟩ := by
  obtain ⟨p, c⟩ := a
  cases p with
  | idle =>
    cases c with
    | exited => exact .inr rfl
    | looping | popping | holding task | running task => cases rests
    | _ => cases worker
  | awaitItem =>
    cases c with
    | popping => exact .inl rfl
    | _ => cases fits
  | awaitRoom item =>
    cases c with
    | submitting task => cases worker
    | _ => cases fits
  | _ => cases rests

theorem restsIn_user {a : Agent Task Control} (fits : Fits a.point a.control)
    (rests : pool.restsIn a = true) (user : a.control.isWorker = false) :
    (∃ item, a.point = .awaitRoom item) ∨ a = ⟨.idle, .client⟩ ∨
      ∃ worker, a = ⟨.idle, .joining worker⟩ ∧ worker < pool.workers ∧
        pool.hasExited worker = false := by
  obtain ⟨p, c⟩ := a
  cases p with
  | idle =>
    cases c with
    | client => exact .inr (.inl rfl)
    | joining worker =>
      simp [restsIn] at rests
      exact .inr (.inr ⟨worker, rfl, rests.1.1, rests.2⟩)
    | exited => cases user
    | _ => cases rests
  | awaitItem =>
    cases c with
    | popping => cases user
    | _ => cases fits
  | awaitRoom item => exact .inl ⟨item, rfl⟩
  | _ => cases rests

end Rest

section Runs

variable {workers clients : Nat} {sched : List Label} {pool : ThreadPool}

/-- The workers come first, the users of the pool after them. -/
theorem staff_run (ran : exec step (init workers clients) sched = some pool) :
    (pool.tasks.agents.map fun a => a.control.isWorker) =
      List.replicate pool.workers true ++ List.replicate clients false := by
  refine exec_induct (fun pool : ThreadPool => (pool.tasks.agents.map fun a => a.control.isWorker) =
    List.replicate pool.workers true ++ List.replicate clients false) ?_ ?_ ran
  · intro pool label pool' staff stepped
    rw [(step_steps stepped).staff, staff, step_workers stepped]
  · simp only [init, List.map_append, List.map_replicate]
    rfl

/-- The workers among the threads are as many as there are. -/
theorem count_workers (ran : exec step (init workers clients) sched = some pool) :
    (pool.tasks.agents.countP fun a => a.control.isWorker) = pool.workers := by
  have staff := congrArg (List.countP id) (staff_run ran)
  rw [List.countP_map] at staff
  refine staff.trans ?_
  simp [List.countP_replicate]

theorem worker_at (ran : exec step (init workers clients) sched = some pool) {j : Nat}
    (inside : j < pool.workers) :
    ∃ a, pool.tasks.agents[j]? = some a ∧ a.control.isWorker = true := by
  have is := congrArg (fun l => l[j]?) (staff_run ran)
  simp only [List.getElem?_map] at is
  rw [List.getElem?_append_left (by rw [List.length_replicate]; exact inside),
    List.getElem?_replicate_of_lt inside] at is
  exact Option.map_eq_some_iff.1 is

/-- **A pool at rest has nothing left to do.** -/
theorem Resting.drained (resting : Resting pool)
    (ran : exec step (init workers clients) sched = some pool) : Drained pool := by
  have accounted := accounted_run ran
  have staffed := staffed_run ran
  have rest := (resting_iff accounted).1 resting
  obtain ⟨forItems, forRoom⟩ := waits_resting (wakeful_pool ran) rest
  -- the places of the first threads are those of workers
  have worker {j : Nat} (inside : j < pool.workers) :
      ∃ a, pool.tasks.agents[j]? = some a ∧ a.control.isWorker = true := worker_at ran inside
  have open_ {a : Agent Task Control} (member : a ∈ pool.tasks.agents)
      (waits : a = ⟨.awaitItem, .popping⟩) :
      pool.tasks.queue.closed = false ∧ pool.tasks.queue.queue = [] :=
    forItems (standing_pos member (by rw [waits]; rfl))
  have empty : pool.tasks.queue.queue = [] := by
    obtain ⟨a, at_, works⟩ := worker staffed.some_
    have member := List.mem_of_getElem? at_
    rcases restsIn_worker (accounted.fits a member) (rest a member) works with waits | rfl
    · exact (open_ member waits).2
    · exact (accounted.ended _ member rfl).2
  have left (closed : pool.tasks.queue.closed = true) : pool.AllExited := by
    intro j inside
    obtain ⟨a, at_, works⟩ := worker inside
    have member := List.mem_of_getElem? at_
    rcases restsIn_worker (accounted.fits a member) (rest a member) works with waits | rfl
    · rw [(open_ member waits).1] at closed
      cases closed
    · simp [hasExited, at_]
  have answered : ∀ a ∈ pool.tasks.agents, a.control.isWorker = false → a = ⟨.idle, .client⟩ := by
    intro a member user
    rcases restsIn_user (accounted.fits a member) (rest a member) user with
      ⟨item, waits⟩ | client | ⟨j, rfl, inside, running⟩
    · refine absurd empty (forRoom (standing_pos member ?_)).2
      rw [waits]
      rfl
    · exact client
    · rw [left (shut_pool ran _ member rfl) j inside] at running
      cases running
  have idle : ∀ c ∈ pool.view.controls, c.stage = none := by
    intro c member
    obtain ⟨a, there, rfl⟩ := List.mem_map.1 member
    cases user : a.control.isWorker with
    | false => rw [answered a there user]; rfl
    | true =>
      rcases restsIn_worker (accounted.fits a there) (rest a there) user with rfl | rfl <;> rfl
  have unheld (t : Task) : pool.held t = 0 := by
    refine List.countP_eq_zero.2 fun a member holds => ?_
    obtain ⟨works, -⟩ := accounted.holder member holds
    rcases restsIn_worker (accounted.fits a member) (rest a member) works with rfl | rfl <;>
      cases holds
  have unsent (t : Task) : pool.tasks.agents.countP (sendsTask t) = 0 := by
    refine List.countP_eq_zero.2 fun a member sends => ?_
    cases user : a.control.isWorker with
    | false => rw [answered a member user] at sends; cases sends
    | true =>
      rcases restsIn_worker (accounted.fits a member) (rest a member) user with rfl | rfl <;>
        cases sends
  refine ⟨fun t member => ?_, empty, fun t old => ?_, answered, fun closed a member works => ?_, left,
    fun stopped => ?_⟩
  · have placed := accounted.placed t
    rw [(accounted.accepted_once member).1, unheld, queued, empty, List.count_nil] at placed
    have begun := accounted.begun t
    have running := accounted.running_le_held t
    rw [unheld] at running
    omega
  · have sent := accounted.sent t
    rw [unsent, if_pos old] at sent
    by_cases accepted : t ∈ pool.accepted
    · exact .inl accepted
    · rw [List.count_eq_zero_of_not_mem accepted] at sent
      exact .inr (List.count_pos_iff.1 (by omega))
  · rcases restsIn_worker (accounted.fits a member) (rest a member) works with waits | rfl
    · exact waits
    · rw [(accounted.ended _ member rfl).1] at closed
      cases closed
  · exact (orderly_run ran).down ((orderly_run ran).after stopped idle)

/-- **Every run can be brought to rest**, with no new call and no spurious wake-up. -/
theorem rest_reachable (ran : exec step (init workers clients) sched = some pool) :
    ∃ later rested, exec step pool later = some rested ∧
      (∀ label ∈ later, label.credit (pool.workers + clients) pool.workers = 0) ∧
      Resting rested := by
  have same := workers_run ran
  have drains := draining (pool.workers + clients) pool.workers
  have start := sized_init workers clients
  rw [← same] at start
  obtain ⟨later, rested, ran', free, rests⟩ := drains.rests (drains.invariant start ran)
  exact ⟨later, rested, ran', free, resting_iff_rests.2 rests⟩

/-- **A pool left alone finishes its work.**  A run is no longer than its new calls and its
spurious wake-ups can account for; from wherever it is the pool can go on without any until
nothing under way can go on; and once nothing can, it has completed every task it accepted
and answered every call. -/
theorem pool_finishes (ran : exec step (init workers clients) sched = some pool) :
    sched.length ≤ 5 * pool.workers +
        (sched.map (Label.credit (pool.workers + clients) pool.workers)).sum ∧
      (Resting pool → Drained pool) ∧
      ∃ later rested, exec step pool later = some rested ∧
        (∀ label ∈ later, label.credit (pool.workers + clients) pool.workers = 0) ∧
        Resting rested ∧ Drained rested := by
  have bound := run_bounded ran
  obtain ⟨later, rested, ran', free, rests⟩ := rest_reachable ran
  have whole := exec_append.2 ⟨pool, ran, ran'⟩
  exact ⟨by omega, fun resting => resting.drained ran, later, rested, ran', free, rests,
    rests.drained whole⟩

end Runs

/-- Two workers and a task that throws: the run ends with the task completed and the workers
asleep again. -/
theorem pool_finishes_asleep : ∃ sched pool, exec step (init 2 1) sched = some pool ∧
    pool.completed = [(0, .error (.invalidArgument "task"))] ∧ Drained pool := by
  have ran : (exec step (init 2 1)
      ([.go 0 (.ok ()), .queue (.enter 0), .submit 2, .queue (.enter 2), .queue (.notify 2 (some 0)),
        .go 2 (.ok ()), .queue (.enter 0), .queue (.notify 0 none), .go 0 (.ok ()), .go 0 (.ok ()),
        .go 0 (.error (.invalidArgument "task")), .go 0 (.ok ()), .queue (.enter 0), .go 1 (.ok ()),
        .queue (.enter 1)])).any (fun pool =>
          decide (pool.completed = [(0, .error (.invalidArgument "task"))]) &&
            pool.tasks.agents.all pool.restsIn) = true := by decide +kernel
  obtain ⟨pool, run, found⟩ := exec_any ran
  rw [Bool.and_eq_true, decide_eq_true_eq, List.all_eq_true] at found
  have resting := (resting_iff (accounted_run run)).2 found.2
  exact ⟨_, pool, run, found.1, (pool_finishes run).2.1 resting⟩

end ThreadPool

end PaymentSystem.Infra
