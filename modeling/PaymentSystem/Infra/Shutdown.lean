/-
# PaymentSystem.Infra.Shutdown -- when `shutdown` has returned

The first caller of `shutdown` sets the flag, closes the queue and joins the workers one by
one; every later caller finds the flag set and returns at once, whether the first is done
or not.

`Shuts` is a step as far as the shutdown goes, and `Orderly` its invariant: one caller at
most is closing or joining, and it has joined exactly the workers it has come past.

* `shutdown_joined`: the pool is down whenever a call has returned, in every run in which
  no call finds the flag set while another is still joining; and is not after a step of a
  call that does.
-/
import PaymentSystem.Infra.ThreadPool

namespace PaymentSystem.Infra

open PaymentSystem.Common
open PaymentSystem.Infra.BlockingQueue
open PaymentSystem.Theory.Runs
open PaymentSystem.Theory.Threads

set_option autoImplicit false

/-- How far a caller of `shutdown` that has set the flag has come: the workers it has been
past. -/
def Control.stage : Control → Option Nat
  | .closing => some 0
  | .joining worker => some worker
  | _ => none

namespace ThreadPool

/-- A pool as far as its shutdown goes. -/
structure View where
  controls : List Control
  workers : Nat
  stopped : Bool
  joined : List Nat
  returned : List Nat

def view (pool : ThreadPool) : View where
  controls := pool.tasks.agents.map Agent.control
  workers := pool.workers
  stopped := pool.stopped
  joined := pool.joined
  returned := pool.returned

theorem view_put (pool : ThreadPool) (i : Nat) (a : Agent Task Control) :
    (pool.put i a).view = { pool.view with controls := pool.view.controls.set i a.control } := by
  simp only [view, put, List.map_set]

theorem control_at {pool : ThreadPool} {i : Nat} {a : Agent Task Control}
    (at_ : pool.tasks.agents[i]? = some a) : pool.view.controls[i]? = some a.control := by
  rw [view, List.getElem?_map, at_]
  rfl

theorem hasExited_iff (pool : ThreadPool) (worker : Nat) :
    pool.hasExited worker = true ↔ pool.view.controls[worker]? = some .exited := by
  rw [hasExited, view, List.getElem?_map]
  cases pool.tasks.agents[worker]? with
  | none => simp
  | some a => simp

/-! ## What a step does to a shutdown -/

/-- The thread that moves. -/
def Label.thread : Label → Nat
  | .queue (.enter i) | .queue (.notify i _) | .queue (.spurious i) => i
  | .submit i | .shutdown i | .go i _ => i

/-- The steps of thread `i`. -/
inductive Shuts (v : View) (i : Nat) : View → Prop where
  | still : Shuts v i v
  | elsewhere (c c' : Control) (at_ : v.controls[i]? = some c) (stays : c ≠ .exited)
      (stage : c'.stage = c.stage) : Shuts v i { v with controls := v.controls.set i c' }
  | late (at_ : v.controls[i]? = some .exchanging) (set : v.stopped = true) :
      Shuts v i { v with controls := v.controls.set i .client, returned := v.returned ++ [i] }
  | closes (at_ : v.controls[i]? = some .exchanging) (unset : v.stopped = false) :
      Shuts v i { v with controls := v.controls.set i .closing, stopped := true }
  | skips (worker : Nat) (at_ : v.controls[i]? = some (.joining worker))
      (already : worker ∈ v.joined) :
      Shuts v i { v with controls := v.controls.set i (.joining (worker + 1)) }
  | joins (worker : Nat) (at_ : v.controls[i]? = some (.joining worker))
      (inside : worker < v.workers) (exited : v.controls[worker]? = some .exited) :
      Shuts v i { v with
        controls := v.controls.set i (.joining (worker + 1)), joined := v.joined ++ [worker] }
  | done (worker : Nat) (at_ : v.controls[i]? = some (.joining worker))
      (outside : ¬ worker < v.workers) :
      Shuts v i { v with controls := v.controls.set i .client, returned := v.returned ++ [i] }

theorem go_shuts {pool pool' : ThreadPool} {i : Nat} {result : TaskResult} {a : Agent Task Control}
    (at_ : pool.tasks.agents[i]? = some a) (went : pool.go i result a = some pool') :
    Shuts pool.view i pool'.view := by
  have control := control_at at_
  have elsewhere {a' : Agent Task Control} (stays : a.control ≠ .exited)
      (stage : a'.control.stage = a.control.stage) : Shuts pool.view i (pool.put i a').view := by
    rw [view_put]
    exact .elsewhere _ _ control stays stage
  unfold go at went
  split at went
  · cases went
    exact elsewhere nofun rfl
  · split at went
    · rename_i set
      cases went
      show Shuts pool.view i { (pool.put i _).view with returned := _ }
      rw [view_put]
      exact .late control set
    · rename_i unset
      cases went
      show Shuts pool.view i { (pool.put i _).view with stopped := _ }
      rw [view_put]
      exact .closes control (Bool.eq_false_of_not_eq_true unset)
  · cases went
    exact elsewhere nofun rfl
  · split at went
    · rename_i worker inside
      split at went
      · rename_i already
        cases went
        rw [view_put]
        exact .skips worker control already
      · split at went
        · rename_i exited
          cases went
          show Shuts pool.view i { (pool.put i _).view with joined := _ }
          rw [view_put]
          exact .joins worker control inside ((hasExited_iff pool worker).1 exited)
        · cases went
    · rename_i worker outside
      cases went
      show Shuts pool.view i { (pool.put i _).view with returned := _ }
      rw [view_put]
      exact .done worker control outside
  · cases went
    exact elsewhere nofun rfl
  · cases went
    exact elsewhere nofun rfl
  · cases went
    exact elsewhere nofun rfl
  · cases went
    exact elsewhere nofun (rfl : (Control.running _).stage = none)
  · cases went
    exact elsewhere nofun (rfl : Control.looping.stage = none)
  · cases went

/-- **Every step of the pool is one of these.** -/
theorem step_shuts {pool pool' : ThreadPool} {label : Label} (stepped : step pool label = some pool') :
    Shuts pool.view label.thread pool'.view := by
  cases label with
  | queue move =>
    obtain ⟨tasks, went, rfl⟩ := Option.map_eq_some_iff.1 stepped
    obtain ⟨i, a, point, moved⟩ := move_turn went
    -- a thread in the queue stays where it is outside of it
    have same : tasks.agents.map Agent.control = pool.tasks.agents.map Agent.control := by
      obtain ⟨inside, is⟩ := List.getElem?_eq_some_iff.1 (control_at moved.agents.at_)
      rw [moved.agents.map fun _ => rfl]
      exact is ▸ List.set_getElem_self inside
    rw [view, view, same]
    exact .still
  | submit i =>
    simp only [step] at stepped
    split at stepped
    · rename_i at_
      cases stepped
      show Shuts pool.view i (pool.put i _).view
      rw [view_put]
      exact .elsewhere _ _ (control_at at_) (by simp) rfl
    · cases stepped
  | shutdown i =>
    simp only [step] at stepped
    split at stepped
    · rename_i at_
      cases stepped
      rw [view_put]
      exact .elsewhere _ _ (control_at at_) (by simp) rfl
    · cases stepped
  | go i result =>
    obtain ⟨a, at_, went⟩ := Option.bind_eq_some_iff.1 stepped
    exact go_shuts at_ went

/-! ## One caller joins -/

/-- One caller at most is shutting the pool down, and it has joined what it has come past. -/
structure Orderly (v : View) : Prop where
  before : v.stopped = false →
    v.joined = [] ∧ v.returned = [] ∧ ∀ c ∈ v.controls, c.stage = none
  one : Apart (fun c (_ : Unit) => c.stage ≠ none) v.controls
  during : ∀ c ∈ v.controls, ∀ n, c.stage = some n → v.joined = List.range n ∧ n ≤ v.workers
  after : v.stopped = true → (∀ c ∈ v.controls, c.stage = none) → v.joined = List.range v.workers
  exited : ∀ j ∈ v.joined, v.controls[j]? = some .exited

section Keeps

variable {v v' : View} {i : Nat} {c c' : Control}

/-- A thread that is not an exited worker may move. -/
theorem exited_set (at_ : v.controls[i]? = some c) (stays : c ≠ .exited) (c' : Control) {j : Nat}
    (exited : v.controls[j]? = some .exited) : (v.controls.set i c')[j]? = some .exited := by
  have other : i ≠ j := by
    rintro rfl
    cases at_.symm.trans exited
    exact stays rfl
  rw [List.getElem?_set_ne other]
  exact exited

/-- Who is shutting down is still, if the thread that moves stays at its stage. -/
theorem all_idle_of_set (at_ : v.controls[i]? = some c) (kept : c'.stage = none → c.stage = none)
    (idle : ∀ u ∈ v.controls.set i c', u.stage = none) : ∀ u ∈ v.controls, u.stage = none := by
  intro u member
  by_contra busy
  obtain ⟨w, there, busy⟩ : ∃ w ∈ v.controls.set i c', w.stage ≠ none :=
    exists_mem_set at_ (mt kept) ⟨u, member, busy⟩
  exact busy (idle w there)

/-- A thread that moves without changing its stage changes nothing. -/
theorem Orderly.elsewhere (orderly : Orderly v) (at_ : v.controls[i]? = some c) (stays : c ≠ .exited)
    (stage : c'.stage = c.stage) : Orderly { v with controls := v.controls.set i c' } := by
  have member : c ∈ v.controls := List.mem_of_getElem? at_
  constructor
  · intro unset
    obtain ⟨joined, returned, idle⟩ := orderly.before unset
    exact ⟨joined, returned, forall_mem_set idle (stage.trans (idle c member))⟩
  · exact orderly.one.set at_ fun _ busy => .inl (stage ▸ busy)
  · exact forall_mem_set orderly.during fun n is => orderly.during c member n (stage ▸ is)
  · exact fun set idle => orderly.after set (all_idle_of_set at_ (fun is => stage ▸ is) idle)
  · exact fun j joined => exited_set at_ stays c' (orderly.exited j joined)

theorem Orderly.step (orderly : Orderly v) (shuts : Shuts v i v') : Orderly v' := by
  cases shuts with
  | still => exact orderly
  | elsewhere c c' at_ stays stage => exact orderly.elsewhere at_ stays stage
  | late at_ set =>
    have stage : Control.client.stage = Control.exchanging.stage := rfl
    have moved := orderly.elsewhere at_ nofun stage
    refine ⟨fun unset => ?_, moved.one, moved.during, moved.after, moved.exited⟩
    cases set.symm.trans unset
  | closes at_ unset =>
    obtain ⟨joined, returned, idle⟩ := orderly.before unset
    refine ⟨nofun, ?_, ?_, fun _ all => ?_, fun j member => ?_⟩
    · exact orderly.one.set at_ fun _ _ => .inr fun u there => not_not_intro (idle u there)
    · refine forall_mem_set (fun u there n is => ?_) fun n is => ?_
      · cases (idle u there).symm.trans is
      · cases is
        exact ⟨joined, Nat.zero_le _⟩
    · cases all .closing (mem_set_at at_ .closing)
    · rw [joined] at member
      cases member
  | skips worker at_ already =>
    obtain ⟨joined, -⟩ := orderly.during _ (List.mem_of_getElem? at_) worker rfl
    rw [joined, List.mem_range] at already
    exact absurd already (Nat.lt_irrefl _)
  | joins worker at_ inside exited =>
    have member := List.mem_of_getElem? at_
    obtain ⟨joined, -⟩ := orderly.during _ member worker rfl
    refine ⟨fun unset => ?_, ?_, ?_, fun _ all => ?_, fun j there => ?_⟩
    · cases (orderly.before unset).2.2 _ member
    · exact orderly.one.set at_ fun _ _ => .inl nofun
    · have grown : v.joined ++ [worker] = List.range (worker + 1) := by
        rw [joined, List.range_succ]
      intro u there n is
      obtain ⟨j, there⟩ := List.mem_iff_getElem?.1 there
      rcases at_set there with ⟨-, rfl⟩ | ⟨other, there⟩
      · cases is
        exact ⟨grown, inside⟩
      · have busy : u.stage ≠ none := by
          rw [is]
          exact Option.some_ne_none _
        exact absurd (orderly.one j i u _ () there at_ busy nofun) other
    · cases all _ (mem_set_at at_ (.joining (worker + 1)))
    · rcases List.mem_append.1 there with before | now
      · exact exited_set at_ nofun _ (orderly.exited j before)
      · rw [List.mem_singleton.1 now]
        exact exited_set at_ nofun _ exited
  | done worker at_ outside =>
    have member := List.mem_of_getElem? at_
    obtain ⟨joined, within⟩ := orderly.during _ member worker rfl
    have all : worker = v.workers := Nat.le_antisymm within (Nat.not_lt.1 outside)
    refine ⟨fun unset => ?_, ?_, ?_, fun _ _ => all ▸ joined, fun j there => ?_⟩
    · cases (orderly.before unset).2.2 _ member
    · exact orderly.one.set at_ fun _ busy => absurd rfl busy
    · exact forall_mem_set orderly.during nofun
    · exact exited_set at_ nofun _ (orderly.exited j there)

end Keeps

theorem orderly_run {workers clients : Nat} {sched : List Label} {pool : ThreadPool}
    (ran : exec step (init workers clients) sched = some pool) : Orderly pool.view := by
  refine exec_induct (fun pool => Orderly pool.view)
    (fun _ _ _ orderly stepped => orderly.step (step_shuts stepped)) ?_ ran
  have idle : ∀ c ∈ (init workers clients).view.controls, c.stage = none := by
    intro c member
    obtain ⟨a, there, rfl⟩ := List.mem_map.1 member
    rcases List.mem_append.1 there with worker | client
    · rw [List.eq_of_mem_replicate worker]
      rfl
    · rw [List.eq_of_mem_replicate client]
      rfl
  exact ⟨fun _ => ⟨rfl, rfl, idle⟩,
    fun i j t u _ there _ busy => absurd (idle t (List.mem_of_getElem? there)) busy,
    fun c member n is => absurd (is.symm.trans (idle c member)) (Option.some_ne_none n), nofun,
    nofun⟩

/-! ## The calls that return -/

/-- All workers have left their loops and are joined. -/
def Down (pool : ThreadPool) : Prop :=
  pool.AllExited ∧ ∀ j, j < pool.workers → j ∈ pool.joined

/-- If the thread that moves is about to find the flag set, then nobody is closing the queue
or has a worker left to join. -/
def FindsDone (pool : ThreadPool) (label : Label) : Prop :=
  pool.view.controls[label.thread]? = some .exchanging → pool.stopped = true →
    ∀ c ∈ pool.view.controls, ∀ n ∈ c.stage, ¬ n < pool.workers

instance (pool : ThreadPool) (label : Label) : Decidable (FindsDone pool label) :=
  inferInstanceAs (Decidable (_ → _ → ∀ c ∈ _, ∀ n ∈ _, _))

section Returns

variable {pool pool' : ThreadPool}

/-- What is joined has exited. -/
theorem Orderly.down (orderly : Orderly pool.view) (all : pool.joined = List.range pool.workers) :
    Down pool := by
  have inside {j : Nat} (worker : j < pool.workers) : j ∈ pool.joined := by
    rw [all]
    exact List.mem_range.2 worker
  exact ⟨fun j worker => (hasExited_iff pool j).2 (orderly.exited j (inside worker)),
    fun j worker => inside worker⟩

/-- Whoever has come past all workers has joined them all, and so it is when nobody is
shutting down any more. -/
theorem Orderly.joined_all (orderly : Orderly pool.view) (set : pool.stopped = true)
    (done : ∀ c ∈ pool.view.controls, ∀ n ∈ c.stage, ¬ n < pool.workers) :
    pool.joined = List.range pool.workers := by
  by_cases idle : ∀ c ∈ pool.view.controls, c.stage = none
  · exact orderly.after set idle
  · push Not at idle
    obtain ⟨c, member, busy⟩ := idle
    obtain ⟨n, is⟩ := Option.ne_none_iff_exists'.1 busy
    obtain ⟨joined, within⟩ := orderly.during c member n is
    have last : n = pool.workers := Nat.le_antisymm within (Nat.not_lt.1 (done c member n is))
    rw [← last]
    exact joined

/-- A call that returns leaves the workers joined. -/
theorem returned_step (orderly : Orderly pool.view)
    (before : pool.returned ≠ [] → pool.joined = List.range pool.workers) {label : Label}
    (finds : FindsDone pool label) (stepped : step pool label = some pool') :
    pool'.returned ≠ [] → pool'.joined = List.range pool'.workers := by
  have shuts := step_shuts stepped
  generalize is : pool'.view = v' at shuts
  have returned : pool'.returned = v'.returned := congrArg View.returned is
  have joined : pool'.joined = v'.joined := congrArg View.joined is
  have workers : pool'.workers = v'.workers := congrArg View.workers is
  rw [returned, joined, workers]
  cases shuts with
  | late at_ set => exact fun _ => orderly.joined_all set (finds at_ set)
  | closes at_ unset => exact fun some_ => absurd (orderly.before unset).2.1 some_
  | joins worker at_ inside exited =>
    intro some_
    obtain ⟨upTo, -⟩ := orderly.during _ (List.mem_of_getElem? at_) worker rfl
    have lengths := congrArg List.length (upTo.symm.trans (before some_))
    rw [List.length_range, List.length_range] at lengths
    exact absurd lengths (Nat.ne_of_lt inside)
  | done worker at_ outside =>
    intro _
    obtain ⟨upTo, within⟩ := orderly.during _ (List.mem_of_getElem? at_) worker rfl
    have last : worker = pool.workers := Nat.le_antisymm within (Nat.not_lt.1 outside)
    show pool.joined = List.range pool.workers
    rw [← last]
    exact upTo
  | _ => exact before

/-- A thread that is nowhere in the queue's code does not move in it. -/
theorem move_idle {m : Monitor Task Control} {move : Move} {control : Control}
    (idle : m.agents[(Label.queue move).thread]? = some ⟨.idle, control⟩) : m.move move = none := by
  cases move with
  | enter i => exact Option.bind_eq_none_iff.2 fun a at_ => by cases idle.symm.trans at_; rfl
  | notify i choice => exact Option.bind_eq_none_iff.2 fun a at_ => by cases idle.symm.trans at_; rfl
  | spurious i => exact Option.bind_eq_none_iff.2 fun a at_ => by cases idle.symm.trans at_; rfl

/-- A thread about to exchange exchanges: if the flag is set, it returns. -/
theorem exchange_late (accounted : Accounted pool) {label : Label}
    (at_ : pool.view.controls[label.thread]? = some .exchanging) (set : pool.stopped = true)
    (stepped : step pool label = some pool') :
    pool'.returned ≠ [] ∧ pool'.joined = pool.joined ∧ pool'.workers = pool.workers := by
  rw [view, List.getElem?_map] at at_
  obtain ⟨⟨p, control⟩, there, rfl⟩ := Option.map_eq_some_iff.1 at_
  obtain rfl := fits_idle (accounted.fits _ (List.mem_of_getElem? there)) rfl
  cases label with
  | queue move =>
    obtain ⟨tasks, went, -⟩ := Option.map_eq_some_iff.1 stepped
    cases (move_idle there).symm.trans went
  | submit i =>
    rw [Label.thread] at there
    simp only [step, there] at stepped
    cases stepped
  | shutdown i =>
    rw [Label.thread] at there
    simp only [step, there] at stepped
    cases stepped
  | go i result =>
    rw [Label.thread] at there
    simp only [step, there, Option.bind_some, go, set, if_true] at stepped
    cases stepped
    exact ⟨List.append_ne_nil_of_right_ne_nil _ (List.cons_ne_nil _ _), rfl, rfl⟩

/-- A call that finds the flag set before all workers are joined returns too early. -/
theorem early_step (accounted : Accounted pool) (orderly : Orderly pool.view) {label : Label}
    (early : ¬ FindsDone pool label) (stepped : step pool label = some pool') :
    pool'.returned ≠ [] ∧ ¬ Down pool' := by
  unfold FindsDone at early
  push Not at early
  obtain ⟨at_, set, c, member, n, stage, left⟩ := early
  obtain ⟨returned, joined, workers⟩ := exchange_late accounted at_ set stepped
  obtain ⟨upTo, -⟩ := orderly.during c member n stage
  refine ⟨returned, fun down => ?_⟩
  have last := down.2 n (workers ▸ left)
  rw [joined, show pool.joined = List.range n from upTo, List.mem_range] at last
  exact Nat.lt_irrefl _ last

end Returns

/-- **Whenever some call has returned, the pool is down**, in every run whose steps do not
find the flag set too early; and after a step that does, it is not. -/
theorem shutdown_joined {workers clients : Nat} {sched : List Label} {pool : ThreadPool}
    (ran : exec step (init workers clients) sched = some pool) :
    (Along step FindsDone (init workers clients) sched → pool.returned ≠ [] → Down pool) ∧
      ∀ label pool', ¬ FindsDone pool label → step pool label = some pool' →
        pool'.returned ≠ [] ∧ ¬ Down pool' := by
  refine ⟨fun along some_ => (orderly_run ran).down ?_, fun label pool' early stepped => ?_⟩
  · refine along.induct (fun pool => pool.returned ≠ [] → pool.joined = List.range pool.workers)
      (fun early u label t reached before finds stepped => ?_) (absurd rfl) ran some_
    exact returned_step (orderly_run reached) before finds stepped
  · exact early_step (accounted_run ran) (orderly_run ran) early stepped

/-- One worker and two callers, the second of which comes when the first has returned. -/
theorem shutdown_joined_late : ∃ sched pool, exec step (init 1 2) sched = some pool ∧
    pool.returned = [1, 2] ∧ Down pool := by
  have ran : (exec (guarded step FindsDone) (init 1 2)
      [.shutdown 1, .go 1 (.ok ()), .queue (.enter 1), .queue (.notify 1 none),
        .queue (.notify 1 none), .go 1 (.ok ()), .go 0 (.ok ()), .queue (.enter 0), .go 0 (.ok ()),
        .go 1 (.ok ()), .go 1 (.ok ()), .shutdown 2, .go 2 (.ok ())]).any
      (fun pool => decide (pool.returned = [1, 2])) = true := by decide +kernel
  obtain ⟨pool, run, found⟩ := exec_any ran
  obtain ⟨run, along⟩ := exec_guarded run
  have returned := of_decide_eq_true found
  refine ⟨_, pool, run, returned, (shutdown_joined run).1 along ?_⟩
  rw [returned]
  exact List.cons_ne_nil _ _

/-- The second of two callers finds the flag set and has returned, with the worker still
in its loop and not joined. -/
theorem shutdown_early : ∃ sched pool, exec step (init 1 2) sched = some pool ∧
    2 ∈ pool.returned ∧ pool.hasExited 0 = false ∧ 0 ∉ pool.joined := by
  have ran : (exec step (init 1 2)
      [.shutdown 1, .shutdown 2, .go 1 (.ok ()), .go 2 (.ok ())]).any
      (fun pool => decide (2 ∈ pool.returned ∧ pool.hasExited 0 = false ∧ 0 ∉ pool.joined)) = true := by
    decide +kernel
  obtain ⟨pool, run, found⟩ := exec_any ran
  exact ⟨_, pool, run, of_decide_eq_true found⟩

end ThreadPool

end PaymentSystem.Infra
