/-
# PaymentSystem.Infra.BlockingQueue -- a bounded queue and its waiters

`include/payment/infra/BlockingQueue.hpp` for any number of threads.  Each section under
the mutex is one atomic step (`BlockingQueue.enter`), and so is a wait: it leaves the
mutex and joins the waiters.  A notification is a later step of its own; `notify_one`
wakes any one waiter of its condition, `notify_all` all of them, and a waiter may wake
unnotified.  A thread that woke stands before the mutex again and decides anew.

`Point` is where a thread is in its call.  `Agent` is a thread, with whatever else its
user keeps of it; `Monitor` is the queue with its agents and its history.

`Turn` lists what one step can do, and `move_turn` is the inversion lemma: one agent takes
a turn, and others at most wake.
-/
import PaymentSystem.Theory.Threads

namespace PaymentSystem.Infra

open PaymentSystem.Theory.Threads

set_option autoImplicit false

structure BlockingQueue (α : Type) where
  capacity : Nat
  queue : List α
  closed : Bool

namespace BlockingQueue

variable {α : Type}

def isFullLocked (q : BlockingQueue α) : Bool := q.capacity ≠ 0 && q.queue.length ≥ q.capacity

/-- The queue holding other items. -/
def withQueue (q : BlockingQueue α) (queue : List α) : BlockingQueue α := { q with queue }

@[simp] theorem withQueue_queue (q : BlockingQueue α) (queue : List α) :
    (q.withQueue queue).queue = queue := rfl

@[simp] theorem withQueue_closed (q : BlockingQueue α) (queue : List α) :
    (q.withQueue queue).closed = q.closed := rfl

@[simp] theorem withQueue_capacity (q : BlockingQueue α) (queue : List α) :
    (q.withQueue queue).capacity = q.capacity := rfl

/-- What a call came back with. -/
inductive Answer (α : Type) where
  | push (accepted : Bool)
  | pop (item : Option α)
  | close

/-- Where a thread is in a call. -/
inductive Point (α : Type) where
  | idle
  -- before the mutex, when the call begins and after every wake-up
  | push (item : α)
  | pop
  | close
  -- asleep
  | awaitRoom (item : α)
  | awaitItem
  -- out of the mutex again, before a notification
  | pushed
  | popped (item : α)
  | closedItem
  | closedRoom
  | returned (answer : Answer α)

/-- The section under the mutex, up to the end of the call or the wait. -/
def enter (q : BlockingQueue α) : Point α → Option (BlockingQueue α × Point α)
  | .push item =>
    if !(q.closed || !q.isFullLocked) then some (q, .awaitRoom item)
    else if q.closed then some (q, .returned (.push false))
    else some (q.withQueue (q.queue ++ [item]), .pushed)
  | .pop =>
    if !(q.closed || !q.queue.isEmpty) then some (q, .awaitItem)
    else
      match q.queue with
      | [] => some (q, .returned (.pop none))
      | item :: rest => some (q.withQueue rest, .popped item)
  | .close => some ({ q with closed := true }, .closedItem)
  | _ => none

namespace Point

/-- Among the waiters of `notEmpty_`. -/
def awaitsItem : Point α → Bool
  | .awaitItem => true
  | _ => false

/-- Among the waiters of `notFull_`. -/
def awaitsRoom : Point α → Bool
  | .awaitRoom _ => true
  | _ => false

/-- A waiter that wakes goes back to the mutex; nobody else is affected. -/
def woken : Point α → Point α
  | .awaitItem => .pop
  | .awaitRoom item => .push item
  | p => p

/-- What leaving the mutex at `q` put into the queue, took out of it, or turned away. -/
def inserts : Point α → Point α → List α
  | .push item, .pushed => [item]
  | _, _ => []

def removes : Point α → List α
  | .popped item => [item]
  | _ => []

def refuses : Point α → Point α → List α
  | .push item, .returned _ => [item]
  | _, _ => []

end Point

/-! ## Threads -/

structure Agent (α κ : Type) where
  point : Point α
  control : κ

variable {κ : Type}

def Agent.woken (a : Agent α κ) : Agent α κ := { a with point := a.point.woken }

/-- The queue, its threads, and all that was ever put in, taken out and turned away. -/
structure Monitor (α κ : Type) where
  queue : BlockingQueue α
  agents : List (Agent α κ)
  inserted : List α
  removed : List α
  refused : List α

/-- The steps of calls under way. -/
inductive Move where
  | enter (i : Nat)
  | notify (i : Nat) (woken : Option Nat)
  | spurious (i : Nat)

/-- `notify_one`: one of the waiters wakes, if there are any. -/
def notifyOne (agents : List (Agent α κ)) (waits : Point α → Bool) :
    Option Nat → Option (List (Agent α κ))
  | none => if agents.any fun a => waits a.point then none else some agents
  | some j => (agents[j]?).bind fun a => if waits a.point then some (agents.set j a.woken) else none

/-- `notify_all`. -/
def notifyAll (agents : List (Agent α κ)) (waits : Point α → Bool) : List (Agent α κ) :=
  agents.map fun a => if waits a.point then a.woken else a

/-- The next step of a call under way. -/
def Monitor.move (m : Monitor α κ) : Move → Option (Monitor α κ)
  | .enter i => do
    let a ← m.agents[i]?
    let (queue, point) ← m.queue.enter a.point
    return { queue, agents := m.agents.set i { a with point },
             inserted := m.inserted ++ a.point.inserts point,
             removed := m.removed ++ point.removes,
             refused := m.refused ++ a.point.refuses point }
  | .notify i woken => do
    let a ← m.agents[i]?
    match a.point with
    | .pushed =>
      let agents ← notifyOne m.agents Point.awaitsItem woken
      return { m with agents := agents.set i { a with point := .returned (.push true) } }
    | .popped item =>
      let agents ← notifyOne m.agents Point.awaitsRoom woken
      return { m with agents := agents.set i { a with point := .returned (.pop (some item)) } }
    | .closedItem =>
      let agents := notifyAll m.agents Point.awaitsItem
      return { m with agents := agents.set i { a with point := .closedRoom } }
    | .closedRoom =>
      let agents := notifyAll m.agents Point.awaitsRoom
      return { m with agents := agents.set i { a with point := .returned .close } }
    | _ => none
  | .spurious i => do
    let a ← m.agents[i]?
    if a.point.awaitsItem || a.point.awaitsRoom then
      return { m with agents := m.agents.set i a.woken }
    else none

/-! ## What a step can do -/

/-- The turns a thread can take in a call, with the guard and the effect of each. -/
inductive Turn (q : BlockingQueue α) : Point α → BlockingQueue α → Point α → Prop where
  | blocked (item : α) (open_ : q.closed = false) (full : q.isFullLocked = true) :
      Turn q (.push item) q (.awaitRoom item)
  | refused (item : α) (closed : q.closed = true) :
      Turn q (.push item) q (.returned (.push false))
  | stored (item : α) (open_ : q.closed = false) (room : q.isFullLocked = false) :
      Turn q (.push item) (q.withQueue (q.queue ++ [item])) .pushed
  | starved (open_ : q.closed = false) (empty : q.queue = []) : Turn q .pop q .awaitItem
  | drained (closed : q.closed = true) (empty : q.queue = []) :
      Turn q .pop q (.returned (.pop none))
  | taken (item : α) (rest : List α) (front : q.queue = item :: rest) :
      Turn q .pop (q.withQueue rest) (.popped item)
  | closed : Turn q .close { q with closed := true } .closedItem
  | pushNotified : Turn q .pushed q (.returned (.push true))
  | popNotified (item : α) : Turn q (.popped item) q (.returned (.pop (some item)))
  | itemNotified : Turn q .closedItem q .closedRoom
  | roomNotified : Turn q .closedRoom q (.returned .close)
  | woke (p : Point α) (asleep : (p.awaitsItem || p.awaitsRoom) = true) : Turn q p q p.woken

theorem enter_turn {q q' : BlockingQueue α} {p p' : Point α} (entered : q.enter p = some (q', p')) :
    Turn q p q' p' := by
  cases p with
  | push item =>
    cases closed : q.closed with
    | true =>
      simp [enter, closed] at entered
      obtain ⟨rfl, rfl⟩ := entered
      exact .refused item closed
    | false =>
      cases full : q.isFullLocked with
      | true =>
        simp [enter, closed, full] at entered
        obtain ⟨rfl, rfl⟩ := entered
        exact .blocked item closed full
      | false =>
        simp [enter, closed, full] at entered
        obtain ⟨rfl, rfl⟩ := entered
        exact .stored item closed full
  | pop =>
    cases queue : q.queue with
    | nil =>
      cases closed : q.closed with
      | true =>
        simp [enter, closed, queue] at entered
        obtain ⟨rfl, rfl⟩ := entered
        exact .drained closed queue
      | false =>
        simp [enter, closed, queue] at entered
        obtain ⟨rfl, rfl⟩ := entered
        exact .starved closed queue
    | cons item rest =>
      simp [enter, queue] at entered
      obtain ⟨rfl, rfl⟩ := entered
      exact .taken item rest queue
  | close =>
    cases entered
    exact .closed
  | _ => cases entered

/-- One agent takes the place of another, and others at most wake. -/
structure Replaces (agents agents' : List (Agent α κ)) (i : Nat) (a a' : Agent α κ) : Prop where
  at_ : agents[i]? = some a
  now : agents'[i]? = some a'
  others : ∀ j, j ≠ i → agents'[j]? = agents[j]? ∨ agents'[j]? = (agents[j]?).map Agent.woken

/-- What a step of a call under way does: agent `i` takes a turn. -/
structure Moved (m m' : Monitor α κ) (i : Nat) (a : Agent α κ) (point : Point α) : Prop where
  turn : Turn m.queue a.point m'.queue point
  agents : Replaces m.agents m'.agents i a { a with point }
  inserted : m'.inserted = m.inserted ++ a.point.inserts point
  removed : m'.removed = m.removed ++ point.removes
  refused : m'.refused = m.refused ++ a.point.refuses point

theorem replaces_set {agents : List (Agent α κ)} {i : Nat} {a : Agent α κ} (at_ : agents[i]? = some a)
    (a' : Agent α κ) : Replaces agents (agents.set i a') i a a' where
  at_ := at_
  now := List.getElem?_set_self (List.getElem?_eq_some_iff.1 at_).1
  others _ different := .inl (List.getElem?_set_ne (Ne.symm different))

theorem replaces_notifyOne {agents woken : List (Agent α κ)} {i : Nat} {a : Agent α κ}
    {waits : Point α → Bool} {choice : Option Nat} (at_ : agents[i]? = some a)
    (notified : notifyOne agents waits choice = some woken) (a' : Agent α κ) :
    Replaces agents (woken.set i a') i a a' := by
  have inside : i < agents.length := (List.getElem?_eq_some_iff.1 at_).1
  cases choice with
  | none =>
    simp only [notifyOne] at notified
    split at notified
    · cases notified
    · cases notified
      exact replaces_set at_ a'
  | some j =>
    obtain ⟨u, there, woke⟩ := Option.bind_eq_some_iff.1 notified
    split at woke
    · cases woke
      refine ⟨at_, List.getElem?_set_self (by rw [List.length_set]; exact inside), fun k different => ?_⟩
      rw [List.getElem?_set_ne (Ne.symm different)]
      by_cases chosen : j = k
      · subst chosen
        right
        rw [there, List.getElem?_set_self (List.getElem?_eq_some_iff.1 there).1]
        rfl
      · exact .inl (List.getElem?_set_ne chosen)
    · cases woke

theorem replaces_notifyAll {agents : List (Agent α κ)} {i : Nat} {a : Agent α κ}
    (at_ : agents[i]? = some a) (waits : Point α → Bool) (a' : Agent α κ) :
    Replaces agents ((notifyAll agents waits).set i a') i a a' := by
  have inside : i < (notifyAll agents waits).length := by
    rw [notifyAll, List.length_map]
    exact (List.getElem?_eq_some_iff.1 at_).1
  refine ⟨at_, List.getElem?_set_self inside, fun j different => ?_⟩
  rw [List.getElem?_set_ne (Ne.symm different), notifyAll, List.getElem?_map]
  cases there : agents[j]? with
  | none => exact .inl rfl
  | some u =>
    simp only [Option.map_some, Option.some.injEq]
    split
    · exact .inr rfl
    · exact .inl rfl

/-- **Every step of a call under way is a turn of one agent**, in which others at most
wake. -/
theorem move_turn {m m' : Monitor α κ} {move : Move} (went : m.move move = some m') :
    ∃ i a point, Moved m m' i a point := by
  cases move with
  | enter i =>
    obtain ⟨a, at_, went⟩ := Option.bind_eq_some_iff.1 went
    obtain ⟨⟨queue, point⟩, entered, went⟩ := Option.bind_eq_some_iff.1 went
    cases went
    exact ⟨i, a, point, enter_turn entered, replaces_set at_ _, rfl, rfl, rfl⟩
  | notify i choice =>
    obtain ⟨⟨point, control⟩, at_, went⟩ := Option.bind_eq_some_iff.1 went
    cases point with
    | pushed =>
      obtain ⟨agents, notified, went⟩ := Option.bind_eq_some_iff.1 went
      cases went
      exact ⟨i, _, _, .pushNotified, replaces_notifyOne at_ notified _, (List.append_nil _).symm,
        (List.append_nil _).symm, (List.append_nil _).symm⟩
    | popped item =>
      obtain ⟨agents, notified, went⟩ := Option.bind_eq_some_iff.1 went
      cases went
      exact ⟨i, _, _, .popNotified item, replaces_notifyOne at_ notified _, (List.append_nil _).symm,
        (List.append_nil _).symm, (List.append_nil _).symm⟩
    | closedItem =>
      cases went
      exact ⟨i, _, _, .itemNotified, replaces_notifyAll at_ _ _, (List.append_nil _).symm,
        (List.append_nil _).symm, (List.append_nil _).symm⟩
    | closedRoom =>
      cases went
      exact ⟨i, _, _, .roomNotified, replaces_notifyAll at_ _ _, (List.append_nil _).symm,
        (List.append_nil _).symm, (List.append_nil _).symm⟩
    | _ => cases went
  | spurious i =>
    obtain ⟨⟨point, control⟩, at_, went⟩ := Option.bind_eq_some_iff.1 went
    split at went
    · rename_i asleep
      cases went
      refine ⟨i, _, point.woken, .woke point asleep, replaces_set at_ _, ?_, ?_, ?_⟩
      · cases point <;> exact (List.append_nil _).symm
      · cases point <;> first | exact (List.append_nil _).symm | cases asleep
      · cases point <;> exact (List.append_nil _).symm
    · cases went

/-! ## What a turn keeps -/

section Turns

variable {q q' : BlockingQueue α} {p p' : Point α}

/-- **First in, first out**: what was put in is what was taken out and what is queued. -/
theorem Turn.fifo (turn : Turn q p q' p') {inserted removed : List α}
    (fifo : inserted = removed ++ q.queue) :
    inserted ++ p.inserts p' = (removed ++ p'.removes) ++ q'.queue := by
  cases turn with
  | stored item open_ room => simp [fifo, Point.inserts, Point.removes]
  | taken item rest front => simp [fifo, front, Point.inserts, Point.removes]
  | woke p asleep =>
    cases p <;> cases asleep <;> simp [fifo, Point.inserts, Point.removes, Point.woken]
  | _ => simp [fifo, Point.inserts, Point.removes]

/-- A closed queue stays closed, and nothing is put into it. -/
theorem Turn.closed_kept (turn : Turn q p q' p') (closed : q.closed = true) :
    q'.closed = true ∧ p.inserts p' = [] ∧ (q.queue = [] → q'.queue = []) := by
  cases turn with
  | stored item open_ room =>
    rw [closed] at open_
    cases open_
  | taken item rest front =>
    refine ⟨closed, rfl, fun empty => ?_⟩
    rw [empty] at front
    cases front
  | closed => exact ⟨rfl, rfl, id⟩
  | woke p asleep => exact ⟨closed, by cases p <;> rfl, id⟩
  | _ => exact ⟨closed, rfl, id⟩

/-- A thread is told that there is no item only by a closed and empty queue. -/
theorem Turn.told_drained (turn : Turn q p q' p') (told : p' = .returned (.pop none)) :
    q'.closed = true ∧ q'.queue = [] := by
  cases turn with
  | drained closed empty => exact ⟨closed, empty⟩
  | woke p asleep => cases p <;> cases asleep <;> cases told
  | _ => cases told

end Turns

/-! ## What holds of agents -/

section Agents

variable {agents agents' : List (Agent α κ)} {i : Nat} {a a' : Agent α κ}

/-- What the mover restores and sleepers keep when they wake, holds of every agent. -/
theorem Replaces.all (replaces : Replaces agents agents' i a a') {P : Agent α κ → Prop}
    (wakes : ∀ u, P u → P u.woken) (all : ∀ u ∈ agents, P u) (own : P a') : ∀ u ∈ agents', P u := by
  intro u member
  obtain ⟨j, there⟩ := List.mem_iff_getElem?.1 member
  by_cases same : j = i
  · subst same
    cases there.symm.trans replaces.now
    exact own
  · rcases replaces.others j same with is | is
    · exact all u (List.mem_of_getElem? (is.symm.trans there))
    · obtain ⟨v, before, rfl⟩ := Option.map_eq_some_iff.1 (is.symm.trans there)
      exact wakes v (all v (List.mem_of_getElem? before))

/-- What waking does not change, changes for the mover alone. -/
theorem Replaces.map (replaces : Replaces agents agents' i a a') {β : Type} {f : Agent α κ → β}
    (wakes : ∀ u, f u.woken = f u) : agents'.map f = (agents.map f).set i (f a') := by
  refine List.ext_getElem? fun j => ?_
  rw [List.getElem?_map]
  by_cases same : j = i
  · subst same
    have inside : j < (agents.map f).length := by
      rw [List.length_map]
      exact (List.getElem?_eq_some_iff.1 replaces.at_).1
    rw [replaces.now, List.getElem?_set_self inside]
    rfl
  · rw [List.getElem?_set_ne (Ne.symm same), List.getElem?_map]
    rcases replaces.others j same with is | is
    · rw [is]
    · rw [is, Option.map_map]
      congr 1
      exact funext wakes

/-- How many agents have a property that waking does not change. -/
theorem Replaces.countP (replaces : Replaces agents agents' i a a') {p : Agent α κ → Bool}
    (wakes : ∀ u, p u.woken = p u) :
    agents'.countP p + (if p a then 1 else 0) = agents.countP p + if p a' then 1 else 0 := by
  have count (l : List (Agent α κ)) : l.countP p = (l.map p).countP id := by
    rw [List.countP_map]
    rfl
  have at_ : (agents.map p)[i]? = some (p a) := by
    rw [List.getElem?_map, replaces.at_]
    rfl
  rw [count, count, replaces.map wakes]
  exact countP_set_add at_ id (p a')

end Agents

end BlockingQueue

end PaymentSystem.Infra
