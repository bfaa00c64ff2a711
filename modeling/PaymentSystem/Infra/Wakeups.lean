/-
# PaymentSystem.Infra.Wakeups -- no wake-up of the queue is lost

A notification is sent after the mutex was left and wakes one waiter, and before that
waiter is back at the mutex another thread may take what it was woken for.  `Wakeful` says
why nobody is forgotten: as long as the queue is open and someone waits for an item, every
item is covered by a thread about to notify or by one on its way to the mutex, and the same
for free places; once it is closed, by a thread about to notify everyone.

`standing` counts the threads at each place of the code, and `Shifts` is what one move does
to these counts, so that every case of the invariant is arithmetic.

* `Wakeful.calm`: where nobody is in the middle of a call, nobody waits for what is there.
* `no_lost_wakeup`: so it is where no thread can move.
-/
import PaymentSystem.Infra.QueueCalls

namespace PaymentSystem.Infra.BlockingQueue

open PaymentSystem.Theory.Runs
open PaymentSystem.Theory.Threads

set_option autoImplicit false

variable {α κ : Type}

/-! ## Counting threads -/

/-- The points of a call, without their items. -/
inductive Place where
  | idle
  | pushing
  | popping
  | closing
  | awaitingRoom
  | awaitingItem
  | pushed
  | popped
  | closedItem
  | closedRoom
  | returned
  deriving DecidableEq

def Point.place : Point α → Place
  | .idle => .idle
  | .push _ => .pushing
  | .pop => .popping
  | .close => .closing
  | .awaitRoom _ => .awaitingRoom
  | .awaitItem => .awaitingItem
  | .pushed => .pushed
  | .popped _ => .popped
  | .closedItem => .closedItem
  | .closedRoom => .closedRoom
  | .returned _ => .returned

/-- How many threads are at a place. -/
def standing (agents : List (Agent α κ)) (place : Place) : Nat :=
  agents.countP fun a => a.point.place = place

/-- One thread went from one place to another. -/
def Shifts (n n' : Place → Nat) (src dst : Place) : Prop :=
  ∀ place, n' place + (if src = place then 1 else 0) = n place + if dst = place then 1 else 0

theorem shifts_set {agents : List (Agent α κ)} {i : Nat} {a : Agent α κ} (at_ : agents[i]? = some a)
    (a' : Agent α κ) :
    Shifts (standing agents) (standing (agents.set i a')) a.point.place a'.point.place := by
  intro place
  have counted := countP_set_add at_ (fun u => decide (u.point.place = place)) a'
  simp only [decide_eq_true_eq] at counted
  exact counted

/-- What the invariant looks at, spelled out. -/
theorem Shifts.counts {n n' : Place → Nat} {src dst : Place} (shifts : Shifts n n' src dst) :
    (n' .awaitingItem + (if src = .awaitingItem then 1 else 0) =
        n .awaitingItem + if dst = .awaitingItem then 1 else 0) ∧
      (n' .awaitingRoom + (if src = .awaitingRoom then 1 else 0) =
        n .awaitingRoom + if dst = .awaitingRoom then 1 else 0) ∧
      (n' .popping + (if src = .popping then 1 else 0) =
        n .popping + if dst = .popping then 1 else 0) ∧
      (n' .pushing + (if src = .pushing then 1 else 0) =
        n .pushing + if dst = .pushing then 1 else 0) ∧
      (n' .pushed + (if src = .pushed then 1 else 0) =
        n .pushed + if dst = .pushed then 1 else 0) ∧
      (n' .popped + (if src = .popped then 1 else 0) =
        n .popped + if dst = .popped then 1 else 0) ∧
      (n' .closedItem + (if src = .closedItem then 1 else 0) =
        n .closedItem + if dst = .closedItem then 1 else 0) ∧
      n' .closedRoom + (if src = .closedRoom then 1 else 0) =
        n .closedRoom + if dst = .closedRoom then 1 else 0 :=
  ⟨shifts _, shifts _, shifts _, shifts _, shifts _, shifts _, shifts _, shifts _⟩

/-! ## The invariant -/

/-- Waiters for items and for room, on an open queue and on a closed one. -/
def ItemsCovered (q : BlockingQueue α) (n : Place → Nat) : Prop :=
  n .awaitingItem = 0 ∨ q.queue.length ≤ n .pushed + n .popping

def RoomCovered (q : BlockingQueue α) (n : Place → Nat) : Prop :=
  n .awaitingRoom = 0 ∨ 0 < q.capacity ∧ q.capacity ≤ q.queue.length + n .popped + n .pushing

def ClosingCovered (n : Place → Nat) : Prop :=
  (n .awaitingItem = 0 ∨ 0 < n .closedItem) ∧
    (n .awaitingRoom = 0 ∨ 0 < n .closedItem + n .closedRoom)

/-- Whoever waits is covered. -/
structure Wakeful (q : BlockingQueue α) (n : Place → Nat) : Prop where
  items : q.closed = false → ItemsCovered q n
  room : q.closed = false → RoomCovered q n
  closing : q.closed = true → ClosingCovered n

theorem isFullLocked_iff {q : BlockingQueue α} :
    q.isFullLocked = true ↔ 0 < q.capacity ∧ q.capacity ≤ q.queue.length := by
  simp [isFullLocked, Nat.pos_iff_ne_zero]

section Keeps

variable {q q' : BlockingQueue α} {n n' : Place → Nat}

/-- An open queue stays open, and its waiters covered. -/
theorem Wakeful.open_ (wakeful : Wakeful q n) (open_ : q.closed = false) (same : q'.closed = q.closed)
    (keeps : ItemsCovered q n → RoomCovered q n → ItemsCovered q' n' ∧ RoomCovered q' n') :
    Wakeful q' n' := by
  obtain ⟨items, room⟩ := keeps (wakeful.items open_) (wakeful.room open_)
  refine ⟨fun _ => items, fun _ => room, fun closed => ?_⟩
  rw [same, open_] at closed
  cases closed

/-- A closed queue stays closed, and its waiters covered. -/
theorem Wakeful.closed (wakeful : Wakeful q n) (closed : q.closed = true) (same : q'.closed = q.closed)
    (keeps : ClosingCovered n → ClosingCovered n') : Wakeful q' n' := by
  have now : q'.closed = true := same.trans closed
  refine ⟨fun open_ => ?_, fun open_ => ?_, fun _ => keeps (wakeful.closing closed)⟩
  · rw [now] at open_
    cases open_
  · rw [now] at open_
    cases open_

/-- A queue that is as open as before keeps its waiters covered. -/
theorem Wakeful.keeps (wakeful : Wakeful q n) (same : q'.closed = q.closed)
    (open_ : ItemsCovered q n → RoomCovered q n → ItemsCovered q' n' ∧ RoomCovered q' n')
    (closed : ClosingCovered n → ClosingCovered n') : Wakeful q' n' := by
  cases is : q.closed with
  | false => exact wakeful.open_ is same open_
  | true => exact wakeful.closed is same closed

/-- Nobody who waits loses his cover. -/
structure Eases (n n' : Place → Nat) : Prop where
  items : n' .awaitingItem = 0 ∨
    n' .awaitingItem ≤ n .awaitingItem ∧ n .pushed + n .popping ≤ n' .pushed + n' .popping
  room : n' .awaitingRoom = 0 ∨
    n' .awaitingRoom ≤ n .awaitingRoom ∧ n .popped + n .pushing ≤ n' .popped + n' .pushing
  closingItem : n' .awaitingItem = 0 ∨
    n' .awaitingItem ≤ n .awaitingItem ∧ n .closedItem ≤ n' .closedItem
  closingRoom : n' .awaitingRoom = 0 ∨
    n' .awaitingRoom ≤ n .awaitingRoom ∧
      n .closedItem + n .closedRoom ≤ n' .closedItem + n' .closedRoom

/-- **Where the queue stays as it is, covers that are not lost are enough.** -/
theorem Wakeful.eased (wakeful : Wakeful q n) (eases : Eases n n') : Wakeful q n' := by
  obtain ⟨forItems, forRoom, onItem, onRoom⟩ := eases
  refine wakeful.keeps rfl (fun items room => ⟨?_, ?_⟩) fun closing => ⟨?_, ?_⟩
  · unfold ItemsCovered at *
    omega
  · unfold RoomCovered at *
    omega
  · have covered := closing.1
    omega
  · have covered := closing.2
    omega

/-- So does a wake-up: the waiter is on its way to the mutex. -/
theorem Wakeful.woke {p : Point α} (wakeful : Wakeful q n)
    (asleep : (p.awaitsItem || p.awaitsRoom) = true) (shifts : Shifts n n' p.place p.woken.place) :
    Wakeful q n' := by
  have counts := shifts.counts
  cases p with
  | awaitItem =>
    simp only [Point.place, Point.woken, reduceCtorEq, if_true, if_false] at counts
    exact wakeful.eased ⟨by omega, by omega, by omega, by omega⟩
  | awaitRoom item =>
    simp only [Point.place, Point.woken, reduceCtorEq, if_true, if_false] at counts
    exact wakeful.eased ⟨by omega, by omega, by omega, by omega⟩
  | _ => cases asleep

/-- A section under the mutex, and a spurious wake-up, keep everybody covered. -/
theorem Wakeful.turn {p p' : Point α} (wakeful : Wakeful q n) (turn : Turn q p q' p')
    (shifts : Shifts n n' p.place p'.place)
    (mutex : p.place ∈ [.pushing, .popping, .closing, .awaitingItem, .awaitingRoom]) :
    Wakeful q' n' := by
  have counts := shifts.counts
  cases turn with
  | blocked item open_ full =>
    have full := isFullLocked_iff.1 full
    simp only [Point.place, reduceCtorEq, if_true, if_false] at counts
    refine wakeful.open_ open_ rfl fun items room => ?_
    unfold ItemsCovered RoomCovered at *
    omega
  | refused item closed =>
    simp only [Point.place, reduceCtorEq, if_true, if_false] at counts
    refine wakeful.closed closed rfl fun closing => ?_
    unfold ClosingCovered at *
    omega
  | stored item open_ room =>
    simp only [Point.place, reduceCtorEq, if_true, if_false] at counts
    refine wakeful.open_ open_ rfl fun items room => ?_
    unfold ItemsCovered RoomCovered at *
    rw [withQueue_queue, withQueue_capacity, List.length_append, List.length_singleton]
    omega
  | starved open_ empty =>
    simp only [Point.place, reduceCtorEq, if_true, if_false] at counts
    refine wakeful.open_ open_ rfl fun items room => ?_
    unfold ItemsCovered RoomCovered at *
    rw [empty] at *
    simp only [List.length_nil] at *
    omega
  | drained closed empty =>
    simp only [Point.place, reduceCtorEq, if_true, if_false] at counts
    refine wakeful.closed closed rfl fun closing => ?_
    unfold ClosingCovered at *
    omega
  | taken item rest front =>
    simp only [Point.place, reduceCtorEq, if_true, if_false] at counts
    refine wakeful.keeps rfl (fun items room => ?_) fun closing => ?_
    · unfold ItemsCovered RoomCovered at *
      rw [front, List.length_cons] at items room
      rw [withQueue_queue, withQueue_capacity]
      omega
    · unfold ClosingCovered at *
      omega
  | closed =>
    simp only [Point.place, reduceCtorEq, if_true, if_false] at counts
    refine ⟨nofun, nofun, fun _ => ?_⟩
    unfold ClosingCovered
    omega
  | woke p asleep => exact wakeful.woke asleep shifts
  | pushNotified => simp [Point.place] at mutex
  | popNotified item => simp [Point.place] at mutex
  | itemNotified => simp [Point.place] at mutex
  | roomNotified => simp [Point.place] at mutex

/-- A push that has notified: it woke a waiter for an item, or there was none. -/
theorem Wakeful.notifiedItem {n₁ : Place → Nat} (wakeful : Wakeful q n)
    (woke : n₁ = n ∧ n .awaitingItem = 0 ∨ Shifts n n₁ .awaitingItem .popping)
    (shifts : Shifts n₁ n' .pushed .returned) : Wakeful q n' := by
  have counts := shifts.counts
  simp only [reduceCtorEq, if_true, if_false] at counts
  rcases woke with ⟨rfl, nobody⟩ | one
  · exact wakeful.eased ⟨by omega, by omega, by omega, by omega⟩
  · have ones := one.counts
    simp only [reduceCtorEq, if_true, if_false] at ones
    exact wakeful.eased ⟨by omega, by omega, by omega, by omega⟩

/-- A pop that has notified. -/
theorem Wakeful.notifiedRoom {n₁ : Place → Nat} (wakeful : Wakeful q n)
    (woke : n₁ = n ∧ n .awaitingRoom = 0 ∨ Shifts n n₁ .awaitingRoom .pushing)
    (shifts : Shifts n₁ n' .popped .returned) : Wakeful q n' := by
  have counts := shifts.counts
  simp only [reduceCtorEq, if_true, if_false] at counts
  rcases woke with ⟨rfl, nobody⟩ | one
  · exact wakeful.eased ⟨by omega, by omega, by omega, by omega⟩
  · have ones := one.counts
    simp only [reduceCtorEq, if_true, if_false] at ones
    exact wakeful.eased ⟨by omega, by omega, by omega, by omega⟩

/-- A close that has notified those who wait for an item. -/
theorem Wakeful.notifiedItems {n₁ : Place → Nat} (wakeful : Wakeful q n)
    (nobody : n₁ .awaitingItem = 0)
    (others : ∀ place, place ≠ .awaitingItem → place ≠ .popping → n₁ place = n place)
    (shifts : Shifts n₁ n' .closedItem .closedRoom) : Wakeful q n' := by
  have counts := shifts.counts
  simp only [reduceCtorEq, if_true, if_false, others, ne_eq, not_false_eq_true] at counts
  exact wakeful.eased ⟨by omega, by omega, by omega, by omega⟩

/-- A close that has notified those who wait for room. -/
theorem Wakeful.notifiedRooms {n₁ : Place → Nat} (wakeful : Wakeful q n)
    (nobody : n₁ .awaitingRoom = 0)
    (others : ∀ place, place ≠ .awaitingRoom → place ≠ .pushing → n₁ place = n place)
    (shifts : Shifts n₁ n' .closedRoom .returned) : Wakeful q n' := by
  have counts := shifts.counts
  simp only [reduceCtorEq, if_true, if_false, others, ne_eq, not_false_eq_true] at counts
  exact wakeful.eased ⟨by omega, by omega, by omega, by omega⟩

/-- A call that begins, or returns. -/
theorem Wakeful.ply {p p' : Point α} (wakeful : Wakeful q n)
    (shifts : Shifts n n' p.place p'.place) (src : p.place = .idle ∨ p.place = .returned)
    (dst : p'.place ∈ [.idle, .pushing, .popping, .closing]) : Wakeful q n' := by
  have counts := shifts.counts
  simp only [List.mem_cons, List.not_mem_nil, or_false] at dst
  -- nobody who counts leaves, and whoever comes does not wait
  have eases : Eases n n' := by
    rcases src with src | src <;> rcases dst with dst | dst | dst | dst <;>
      simp only [src, dst, reduceCtorEq, if_true, if_false] at counts <;>
      exact ⟨by omega, by omega, by omega, by omega⟩
  exact wakeful.eased eases

end Keeps

/-! ## Every step keeps it -/

section Moves

variable {agents woken : List (Agent α κ)}

/-- `notify_one` wakes one waiter, if there is any. -/
theorem notifyOne_cases {waits : Point α → Bool} {choice : Option Nat}
    (notified : notifyOne agents waits choice = some woken) :
    (woken = agents ∧ ∀ u ∈ agents, waits u.point = false) ∨
      ∃ j u, agents[j]? = some u ∧ waits u.point = true ∧ woken = agents.set j u.woken := by
  cases choice with
  | none =>
    simp only [notifyOne] at notified
    split at notified
    · cases notified
    · rename_i nobody
      cases notified
      exact .inl ⟨rfl, by simpa using nobody⟩
  | some j =>
    obtain ⟨u, there, woke⟩ := Option.bind_eq_some_iff.1 notified
    split at woke
    · rename_i asleep
      cases woke
      exact .inr ⟨j, u, there, asleep, rfl⟩
    · cases woke

/-- Whoever notifies stays where it is meanwhile. -/
theorem notifyOne_mover {waits : Point α → Bool} {choice : Option Nat} {i : Nat} {a : Agent α κ}
    (notified : notifyOne agents waits choice = some woken) (at_ : agents[i]? = some a)
    (awake : waits a.point = false) : woken[i]? = some a := by
  rcases notifyOne_cases notified with ⟨rfl, -⟩ | ⟨j, u, there, asleep, rfl⟩
  · exact at_
  · by_cases mover : j = i
    · subst mover
      cases at_.symm.trans there
      rw [awake] at asleep
      cases asleep
    · rw [List.getElem?_set_ne mover]
      exact at_

theorem standing_eq_zero {waits : Point α → Bool} {place : Place}
    (nobody : ∀ u ∈ agents, waits u.point = false)
    (all : ∀ p : Point α, p.place = place → waits p = true) : standing agents place = 0 := by
  refine List.countP_eq_zero.2 fun u member is => ?_
  have asleep := all u.point (of_decide_eq_true is)
  rw [nobody u member] at asleep
  cases asleep

/-- After `notify_all` nobody waits. -/
theorem standing_notifyAll_zero {waits : Point α → Bool} {place : Place}
    (all : ∀ p : Point α, p.place = place → waits p = true)
    (leave : ∀ p : Point α, p.woken.place ≠ place) : standing (notifyAll agents waits) place = 0 := by
  refine List.countP_eq_zero.2 fun u member is => ?_
  obtain ⟨v, -, rfl⟩ := List.mem_map.1 member
  have is := of_decide_eq_true is
  split at is
  · exact leave v.point is
  · rename_i awake
    exact awake (all v.point is)

/-- And who did not wait is where it was. -/
theorem standing_notifyAll {waits : Point α → Bool} {place : Place}
    (others : ∀ p : Point α, waits p = true → p.place ≠ place ∧ p.woken.place ≠ place) :
    standing (notifyAll agents waits) place = standing agents place := by
  rw [standing, notifyAll, List.countP_map, standing]
  refine List.countP_congr fun u _ => ?_
  simp only [Function.comp_apply, decide_eq_true_eq]
  split
  · rename_i asleep
    obtain ⟨before, after⟩ := others u.point asleep
    exact iff_of_false after before
  · rfl

theorem notifyAll_mover {waits : Point α → Bool} {i : Nat} {a : Agent α κ}
    (at_ : agents[i]? = some a) (awake : waits a.point = false) :
    (notifyAll agents waits)[i]? = some a := by
  rw [notifyAll, List.getElem?_map, at_, Option.map_some, awake]
  rfl

end Moves

/-- **Every step of a call under way keeps everybody covered.** -/
theorem Wakeful.move {m m' : Monitor α κ} {move : Move}
    (wakeful : Wakeful m.queue (standing m.agents)) (went : m.move move = some m') :
    Wakeful m'.queue (standing m'.agents) := by
  cases move with
  | enter i =>
    obtain ⟨⟨p, control⟩, at_, went⟩ := Option.bind_eq_some_iff.1 went
    obtain ⟨⟨queue, point⟩, entered, went⟩ := Option.bind_eq_some_iff.1 went
    cases went
    refine wakeful.turn (enter_turn entered) (shifts_set at_ _) ?_
    cases p with
    | push item => simp [Point.place]
    | pop => simp [Point.place]
    | close => simp [Point.place]
    | _ => cases entered
  | notify i choice =>
    obtain ⟨⟨p, control⟩, at_, went⟩ := Option.bind_eq_some_iff.1 went
    cases p with
    | pushed =>
      obtain ⟨woken, notified, went⟩ := Option.bind_eq_some_iff.1 went
      cases went
      refine wakeful.notifiedItem ?_
        (shifts_set (notifyOne_mover notified at_ rfl) _)
      rcases notifyOne_cases notified with ⟨rfl, nobody⟩ | ⟨j, ⟨p, c⟩, there, asleep, rfl⟩
      · exact .inl ⟨rfl, standing_eq_zero nobody fun p is => by cases p <;> cases is; rfl⟩
      · right
        cases p <;> cases asleep
        exact shifts_set there _
    | popped item =>
      obtain ⟨woken, notified, went⟩ := Option.bind_eq_some_iff.1 went
      cases went
      refine wakeful.notifiedRoom ?_
        (shifts_set (notifyOne_mover notified at_ rfl) _)
      rcases notifyOne_cases notified with ⟨rfl, nobody⟩ | ⟨j, ⟨p, c⟩, there, asleep, rfl⟩
      · exact .inl ⟨rfl, standing_eq_zero nobody fun p is => by cases p <;> cases is; rfl⟩
      · right
        cases p <;> cases asleep
        exact shifts_set there _
    | closedItem =>
      cases went
      refine wakeful.notifiedItems ?_
        (fun place waiting mutex => ?_) (shifts_set (notifyAll_mover at_ rfl) _)
      · refine standing_notifyAll_zero (fun p is => ?_) fun p => ?_
        · cases p <;> cases is
          rfl
        · cases p <;> exact Place.noConfusion
      · refine standing_notifyAll fun p asleep => ?_
        cases p <;> cases asleep
        exact ⟨waiting.symm, mutex.symm⟩
    | closedRoom =>
      cases went
      refine wakeful.notifiedRooms ?_
        (fun place waiting mutex => ?_) (shifts_set (notifyAll_mover at_ rfl) _)
      · refine standing_notifyAll_zero (fun p is => ?_) fun p => ?_
        · cases p <;> cases is
          rfl
        · cases p <;> exact Place.noConfusion
      · refine standing_notifyAll fun p asleep => ?_
        cases p <;> cases asleep
        exact ⟨waiting.symm, mutex.symm⟩
    | _ => cases went
  | spurious i =>
    obtain ⟨a, at_, went⟩ := Option.bind_eq_some_iff.1 went
    split at went
    · rename_i asleep
      cases went
      exact wakeful.woke asleep (shifts_set at_ _)
    · cases went

/-! ## Calm queues -/

/-- Places in a call where a thread is neither asleep nor done. -/
def Place.busy : Place → Bool
  | .pushing | .popping | .closing | .pushed | .popped | .closedItem | .closedRoom => true
  | _ => false

/-- A notification can always be sent. -/
theorem notifyOne_exists (agents : List (Agent α κ)) (waits : Point α → Bool) :
    ∃ choice woken, notifyOne agents waits choice = some woken := by
  cases some_ : agents.any fun a => waits a.point with
  | false => exact ⟨none, agents, by simp only [notifyOne, some_]; rfl⟩
  | true =>
    obtain ⟨u, member, asleep⟩ := List.any_eq_true.1 some_
    obtain ⟨j, there⟩ := List.mem_iff_getElem?.1 member
    refine ⟨some j, agents.set j u.woken, ?_⟩
    simp only [notifyOne, there, Option.bind_some, asleep, if_true]

/-- A thread at the mutex can enter. -/
theorem enter_exists (q : BlockingQueue α) {p : Point α}
    (mutex : p.place ∈ [.pushing, .popping, .closing]) : (q.enter p).isSome := by
  cases p with
  | push item =>
    simp only [enter]
    split
    · rfl
    · split <;> rfl
  | pop =>
    simp only [enter]
    split
    · rfl
    · split <;> rfl
  | close => rfl
  | _ => simp [Point.place] at mutex

/-- A thread busy in a call can go on. -/
theorem Monitor.move_exists {m : Monitor α κ} {i : Nat} {a : Agent α κ} (at_ : m.agents[i]? = some a)
    (busy : a.point.place.busy = true) :
    ∃ move m', m.move move = some m' ∧ ∀ j, move ≠ .spurious j := by
  obtain ⟨p, c⟩ := a
  have enters (mutex : p.place ∈ [.pushing, .popping, .closing]) :
      ∃ move m', m.move move = some m' ∧ ∀ j, move ≠ .spurious j := by
    obtain ⟨⟨queue, point⟩, entered⟩ := Option.isSome_iff_exists.1 (enter_exists m.queue mutex)
    exact ⟨.enter i, _, by
      simp only [Monitor.move, at_, Option.bind_eq_bind, Option.bind_some, entered]
      rfl, by simp⟩
  cases p with
  | push item => exact enters (by simp [Point.place])
  | pop => exact enters (by simp [Point.place])
  | close => exact enters (by simp [Point.place])
  | pushed =>
    obtain ⟨choice, woken, notified⟩ := notifyOne_exists m.agents Point.awaitsItem
    exact ⟨.notify i choice, _, by
      simp only [Monitor.move, at_, Option.bind_eq_bind, Option.bind_some, notified]
      rfl, by simp⟩
  | popped item =>
    obtain ⟨choice, woken, notified⟩ := notifyOne_exists m.agents Point.awaitsRoom
    exact ⟨.notify i choice, _, by
      simp only [Monitor.move, at_, Option.bind_eq_bind, Option.bind_some, notified]
      rfl, by simp⟩
  | closedItem =>
    exact ⟨.notify i none, _, by
      simp only [Monitor.move, at_, Option.bind_eq_bind, Option.bind_some]
      rfl, by simp⟩
  | closedRoom =>
    exact ⟨.notify i none, _, by
      simp only [Monitor.move, at_, Option.bind_eq_bind, Option.bind_some]
      rfl, by simp⟩
  | _ => cases busy

/-- Nobody is in the middle of a call. -/
def Calm (agents : List (Agent α κ)) : Prop := ∀ a ∈ agents, a.point.place.busy = false

/-- Then only spurious wake-ups are left in the queue. -/
theorem Calm.spurious {m m' : Monitor α κ} {move : Move} (calm : Calm m.agents)
    (went : m.move move = some m') : ∃ i, move = .spurious i := by
  cases move with
  | enter i =>
    obtain ⟨⟨p, c⟩, at_, went⟩ := Option.bind_eq_some_iff.1 went
    obtain ⟨r, entered, -⟩ := Option.bind_eq_some_iff.1 went
    have idle := calm _ (List.mem_of_getElem? at_)
    cases p with
    | push | pop | close => cases idle
    | _ => cases entered
  | notify i choice =>
    obtain ⟨⟨p, c⟩, at_, went⟩ := Option.bind_eq_some_iff.1 went
    have idle := calm _ (List.mem_of_getElem? at_)
    cases p with
    | pushed | popped | closedItem | closedRoom => cases idle
    | _ => cases went
  | spurious i => exact ⟨i, rfl⟩

theorem Calm.standing_zero {agents : List (Agent α κ)} (calm : Calm agents) {place : Place}
    (busy : place.busy = true) : standing agents place = 0 := by
  refine List.countP_eq_zero.2 fun a member is => ?_
  have idle := calm a member
  rw [of_decide_eq_true is, busy] at idle
  cases idle

theorem standing_pos {agents : List (Agent α κ)} {a : Agent α κ} (member : a ∈ agents) {place : Place}
    (here : a.point.place = place) : 0 < standing agents place :=
  List.countP_pos_iff.2 ⟨a, member, decide_eq_true here⟩

/-- **In a calm queue whoever waits, waits for what is not there**: for an item at an open and
empty queue, for room at an open and full one. -/
theorem Wakeful.calm {q : BlockingQueue α} {agents : List (Agent α κ)}
    (wakeful : Wakeful q (standing agents)) (calm : Calm agents) :
    (0 < standing agents .awaitingItem → q.closed = false ∧ q.queue = []) ∧
      (0 < standing agents .awaitingRoom → q.closed = false ∧ q.isFullLocked = true) := by
  have pushed : standing agents .pushed = 0 := calm.standing_zero rfl
  have popping : standing agents .popping = 0 := calm.standing_zero rfl
  have popped : standing agents .popped = 0 := calm.standing_zero rfl
  have pushing : standing agents .pushing = 0 := calm.standing_zero rfl
  have closedItem : standing agents .closedItem = 0 := calm.standing_zero rfl
  have closedRoom : standing agents .closedRoom = 0 := calm.standing_zero rfl
  cases closed : q.closed with
  | true =>
    have covered := wakeful.closing closed
    unfold ClosingCovered at covered
    exact ⟨fun waits => absurd covered.1 (by omega), fun waits => absurd covered.2 (by omega)⟩
  | false =>
    have items := wakeful.items closed
    have room := wakeful.room closed
    unfold ItemsCovered at items
    unfold RoomCovered at room
    exact ⟨fun waits => ⟨rfl, List.length_eq_zero_iff.1 (by omega)⟩,
      fun waits => ⟨rfl, isFullLocked_iff.2 (by omega)⟩⟩

/-! ## Stuck queues -/

/-- The only steps left are spurious wake-ups. -/
def Stuck (m : QueueCalls α) : Prop :=
  ∀ act m', QueueCalls.step m act = some m' → ∃ i, act = .queue (.spurious i)

/-- Asleep, or done with all its calls. -/
def Agent.resting (a : Agent α (Caller α)) : Bool :=
  match a.point with
  | .awaitItem | .awaitRoom _ => true
  | .idle => a.control.current.isNone
  | _ => false

/-- Who rests is not in the middle of a call. -/
theorem Agent.calm {a : Agent α (Caller α)} (rests : a.resting = true) :
    a.point.place.busy = false := by
  obtain ⟨p, c⟩ := a
  cases p with
  | idle | awaitItem | awaitRoom | returned => rfl
  | _ => cases rests

/-- Who does not rest can move. -/
theorem step_of_not_resting {m : QueueCalls α} {i : Nat} {a : Agent α (Caller α)}
    (at_ : m.agents[i]? = some a) (restless : a.resting = false) :
    ∃ act m', QueueCalls.step m act = some m' ∧ ∀ j, act ≠ .queue (.spurious j) := by
  obtain ⟨p, c⟩ := a
  have inQueue (busy : p.place.busy = true) :
      ∃ act m', QueueCalls.step m act = some m' ∧ ∀ j, act ≠ .queue (.spurious j) := by
    obtain ⟨move, m', went, other⟩ := Monitor.move_exists at_ busy
    refine ⟨.queue move, m', went, fun j is => ?_⟩
    cases is
    exact other j rfl
  cases p with
  | idle =>
    obtain ⟨request, next⟩ := Option.isSome_iff_exists.1
      (by simpa [Agent.resting, Option.isNone_iff_eq_none, ← Option.isSome_iff_ne_none] using restless)
    exact ⟨.call i, _, by simp only [QueueCalls.step, at_, next]; rfl, by simp⟩
  | awaitRoom item => cases restless
  | awaitItem => cases restless
  | returned answer => exact ⟨.leave i, _, by simp only [QueueCalls.step, at_]; rfl, by simp⟩
  | _ => exact inQueue rfl

/-- **A queue is stuck when all its threads rest.** -/
theorem stuck_iff {m : QueueCalls α} : Stuck m ↔ ∀ a ∈ m.agents, a.resting = true := by
  constructor
  · intro stuck a member
    obtain ⟨i, at_⟩ := List.mem_iff_getElem?.1 member
    by_contra restless
    obtain ⟨act, m', went, other⟩ := step_of_not_resting at_ (Bool.eq_false_of_not_eq_true restless)
    obtain ⟨j, is⟩ := stuck act m' went
    exact other j is
  · intro rest act m' went
    cases act with
    | queue move =>
      have calm : Calm m.agents := fun a member => Agent.calm (rest a member)
      obtain ⟨i, rfl⟩ := calm.spurious went
      exact ⟨i, rfl⟩
    | call i =>
      simp only [QueueCalls.step] at went
      split at went
      · rename_i c at_
        obtain ⟨request, next, -⟩ := Option.map_eq_some_iff.1 went
        have rests : c.current.isNone = true := rest _ (List.mem_of_getElem? at_)
        rw [next] at rests
        cases rests
      · cases went
    | leave i =>
      simp only [QueueCalls.step] at went
      split at went
      · rename_i answer c at_
        have rests := rest _ (List.mem_of_getElem? at_)
        cases rests
      · cases went

theorem wakeful_run {capacity : Nat} {programs : List (Nat → Option (Request α))} {sched : List Act}
    {m : QueueCalls α}
    (ran : exec QueueCalls.step (QueueCalls.init capacity programs) sched = some m) :
    Wakeful m.queue (standing m.agents) := by
  refine exec_induct (fun m : QueueCalls α => Wakeful m.queue (standing m.agents)) ?_ ?_ ran
  · rintro m act m' wakeful went
    cases act with
    | queue move => exact wakeful.move went
    | call i =>
      simp only [QueueCalls.step] at went
      split at went
      · rename_i c at_
        obtain ⟨request, -, rfl⟩ := Option.map_eq_some_iff.1 went
        have shifts := shifts_set at_ ⟨request.entry, c⟩
        refine wakeful.ply shifts (.inl rfl) ?_
        cases request <;> simp [Request.entry, Point.place]
      · cases went
    | leave i =>
      simp only [QueueCalls.step] at went
      split at went
      · rename_i answer c at_
        cases went
        have shifts := shifts_set at_ ⟨.idle, c.answered answer⟩
        exact wakeful.ply shifts (.inr rfl) (by simp [Point.place])
      · cases went
  · have nobody {place : Place} (inside : place ≠ .idle) :
        standing (QueueCalls.init capacity programs).agents place = 0 := by
      refine List.countP_eq_zero.2 fun a member is => ?_
      obtain ⟨calls, -, rfl⟩ := List.mem_map.1 member
      exact inside (of_decide_eq_true is).symm
    refine ⟨fun _ => .inl (nobody (by simp)), fun _ => .inl (nobody (by simp)), fun closed => ?_⟩
    cases closed

/-- **The queue loses no wake-up**: where nothing is left but spurious wake-ups, whoever is
blocked in a pop waits on an open and empty queue, and whoever is blocked in a push on an
open and full one. -/
theorem no_lost_wakeup {capacity : Nat} {programs : List (Nat → Option (Request α))}
    {sched : List Act} {m : QueueCalls α}
    (ran : exec QueueCalls.step (QueueCalls.init capacity programs) sched = some m)
    (stuck : Stuck m) :
    (∀ a ∈ m.agents, a.point = .awaitItem → m.queue.closed = false ∧ m.queue.queue = []) ∧
      ∀ a ∈ m.agents, ∀ item, a.point = .awaitRoom item →
        m.queue.closed = false ∧ m.queue.isFullLocked = true := by
  have calm : Calm m.agents := fun a member => Agent.calm (stuck_iff.1 stuck a member)
  obtain ⟨forItems, forRoom⟩ := (wakeful_run ran).calm calm
  refine ⟨fun a member waits => forItems (standing_pos member ?_),
    fun a member item waits => forRoom (standing_pos member ?_)⟩
  · rw [waits]
    rfl
  · rw [waits]
    rfl

/-- The item of a push that waits for room. -/
def Point.held : Point α → Option α
  | .awaitRoom item => some item
  | _ => none

/-- The producer alone: its second push is blocked for good, on a full queue. -/
theorem no_lost_wakeup_full : ∃ sched m,
    exec QueueCalls.step (QueueCalls.init 1 [inOrder [.push 1, .push 2]]) sched = some m ∧ Stuck m ∧
    (∃ a ∈ m.agents, a.point = .awaitRoom 2) ∧ m.queue.isFullLocked = true := by
  have ran : (exec QueueCalls.step (QueueCalls.init 1 [inOrder [.push 1, .push 2]])
      [.call 0, .queue (.enter 0), .queue (.notify 0 none), .leave 0, .call 0,
        .queue (.enter 0)]).any (fun m => m.agents.all Agent.resting &&
          m.agents.any fun a => a.point.held == some 2) = true := by decide +kernel
  obtain ⟨m, run, found⟩ := exec_any ran
  rw [Bool.and_eq_true, List.all_eq_true, List.any_eq_true] at found
  obtain ⟨rests, ⟨p, c⟩, member, waits⟩ := found
  have stuck : Stuck m := stuck_iff.2 rests
  cases p with
  | awaitRoom item =>
    obtain rfl : item = 2 := by simpa [Point.held] using waits
    exact ⟨_, m, run, stuck, ⟨_, member, rfl⟩, ((no_lost_wakeup run stuck).2 _ member 2 rfl).2⟩
  | _ => cases waits

end PaymentSystem.Infra.BlockingQueue
