/-
# PaymentSystem.Infra.QueueCalls -- a bounded FIFO with a clean close

Any number of threads over one blocking queue, each making calls of its own, one after
another and as many as it likes.  A call is decided in its section under the mutex, and
returned later; `Agent.decided` lists what a thread has been answered and, if its call is
past that section, what it will be.

`Stepped` says what a step does to the thread that takes it, `later_decisions` what all
decisions from some state on have in common.

* `bounded_fifo`: what was put in is what was taken out and what is queued, within the
  capacity, and a closed queue only drains.
-/
import PaymentSystem.Infra.BlockingQueue

namespace PaymentSystem.Infra.BlockingQueue

open PaymentSystem.Theory.Runs
open PaymentSystem.Theory.Threads

set_option autoImplicit false

variable {α : Type}

/-! ## Callers -/

inductive Request (α : Type) where
  | push (item : α)
  | pop
  | close

/-- Where a call begins: before the mutex. -/
def Request.entry : Request α → Point α
  | .push item => .push item
  | .pop => .pop
  | .close => .close

/-- The calls a thread makes, one after another, and the answers of those that returned. -/
structure Caller (α : Type) where
  calls : Nat → Option (Request α)
  answers : List (Answer α)

/-- The call under way, or else the next one. -/
def Caller.current (c : Caller α) : Option (Request α) := c.calls c.answers.length

def Caller.answered (c : Caller α) (answer : Answer α) : Caller α :=
  { c with answers := c.answers ++ [answer] }

/-- A queue in use. -/
abbrev QueueCalls (α : Type) := Monitor α (Caller α)

/-- Which thread moves, and how. -/
inductive Act where
  | queue (move : Move)
  | call (i : Nat)
  | leave (i : Nat)

namespace QueueCalls

/-- A queue just constructed, and the threads that are going to use it. -/
def init (capacity : Nat) (programs : List (Nat → Option (Request α))) : QueueCalls α where
  queue := ⟨capacity, [], false⟩
  agents := programs.map fun calls => ⟨.idle, ⟨calls, []⟩⟩
  inserted := []
  removed := []
  refused := []

def put (m : QueueCalls α) (i : Nat) (a : Agent α (Caller α)) : QueueCalls α :=
  { m with agents := m.agents.set i a }

def step (m : QueueCalls α) : Act → Option (QueueCalls α)
  | .queue move => m.move move
  | .call i =>
    match m.agents[i]? with
    | some ⟨.idle, c⟩ => c.current.map fun request => m.put i ⟨request.entry, c⟩
    | _ => none
  | .leave i =>
    match m.agents[i]? with
    | some ⟨.returned answer, c⟩ => some (m.put i ⟨.idle, c.answered answer⟩)
    | _ => none

end QueueCalls

/-! ## Decisions -/

namespace Point

/-- What a call past its section will be answered. -/
def decided : Point α → Option (Answer α)
  | .pushed => some (.push true)
  | .popped item => some (.pop (some item))
  | .closedItem | .closedRoom => some .close
  | .returned answer => some answer
  | _ => none

/-- What leaving the mutex decides. -/
def decides : Point α → Point α → List (Answer α)
  | .push _, .pushed => [.push true]
  | .pop, .popped item => [.pop (some item)]
  | .push _, .returned answer | .pop, .returned answer => [answer]
  | .close, .closedItem => [.close]
  | _, _ => []

end Point

/-- What a thread has been answered, and will be in the call it is in. -/
def Agent.decided (a : Agent α (Caller α)) : List (Answer α) :=
  a.control.answers ++ a.point.decided.toList

/-- The items of the pushes that are answered `true`. -/
def acceptedBy (calls : Nat → Option (Request α)) (decided : List (Answer α)) : List α :=
  decided.zipIdx.filterMap fun d =>
    match d.1, calls d.2 with
    | .push true, some (.push item) => some item
    | _, _ => none

/-- The items that pops are answered. -/
def takenBy (decided : List (Answer α)) : List α :=
  decided.filterMap fun d =>
    match d with
    | .pop item => item
    | _ => none

/-- The items a thread has put in, or is about to be told it has. -/
def Agent.accepted (a : Agent α (Caller α)) : List α := acceptedBy a.control.calls a.decided

/-- The items a thread has taken out, or is about to be handed. -/
def Agent.taken (a : Agent α (Caller α)) : List α := takenBy a.decided

/-- A thread is in the call its sequence says. -/
def Agent.InTurn (a : Agent α (Caller α)) : Prop :=
  match a.point with
  | .idle => True
  | .push item | .awaitRoom item => a.control.current = some (.push item)
  | .pushed | .returned (.push _) => ∃ item, a.control.current = some (.push item)
  | .pop | .awaitItem | .popped _ | .returned (.pop _) => a.control.current = some .pop
  | .close | .closedItem | .closedRoom | .returned .close => a.control.current = some .close

@[simp] theorem Agent.woken_decided (a : Agent α (Caller α)) : a.woken.decided = a.decided := by
  obtain ⟨point, control⟩ := a
  cases point <;> rfl

theorem Agent.woken_inTurn {a : Agent α (Caller α)} (inTurn : a.InTurn) : a.woken.InTurn := by
  obtain ⟨point, control⟩ := a
  cases point <;> exact inTurn

theorem takenBy_append (ds es : List (Answer α)) : takenBy (ds ++ es) = takenBy ds ++ takenBy es :=
  List.filterMap_append

/-- One more decision, of a call that pushes an item, or of another one. -/
theorem acceptedBy_snoc_push {calls : Nat → Option (Request α)} {decided : List (Answer α)} {item : α}
    (current : calls decided.length = some (.push item)) :
    acceptedBy calls (decided ++ [.push true]) = acceptedBy calls decided ++ [item] := by
  rw [acceptedBy, List.zipIdx_append, List.filterMap_append]
  simp [acceptedBy, current]

theorem acceptedBy_snoc {calls : Nat → Option (Request α)} {decided : List (Answer α)}
    {answer : Answer α} (other : answer ≠ .push true) :
    acceptedBy calls (decided ++ [answer]) = acceptedBy calls decided := by
  rw [acceptedBy, List.zipIdx_append, List.filterMap_append]
  cases answer with
  | push accepted =>
    cases accepted with
    | true => exact absurd rfl other
    | false => simp [acceptedBy]
  | pop item => simp [acceptedBy]
  | close => simp [acceptedBy]

/-! ## What a step does -/

/-- The moves of a thread, between its calls as well. -/
inductive Ply (q : BlockingQueue α) : Point α → BlockingQueue α → Point α → Prop where
  | turn {q' : BlockingQueue α} {p p' : Point α} (turn : Turn q p q' p') : Ply q p q' p'
  | call (request : Request α) : Ply q .idle q request.entry
  | leave (answer : Answer α) : Ply q (.returned answer) q .idle

/-- What a step does: thread `i` makes its move, and others at most wake. -/
structure Stepped (m m' : QueueCalls α) (i : Nat) (a a' : Agent α (Caller α)) : Prop where
  ply : Ply m.queue a.point m'.queue a'.point
  agents : Replaces m.agents m'.agents i a a'
  calls : a'.control.calls = a.control.calls
  inTurn : a.InTurn → a'.InTurn
  decided : a'.decided = a.decided ++ a.point.decides a'.point
  inserted : m'.inserted = m.inserted ++ a.point.inserts a'.point
  removed : m'.removed = m.removed ++ a'.point.removes

section Turns

variable {q q' : BlockingQueue α} {p p' : Point α}

theorem Turn.decided (turn : Turn q p q' p') :
    p'.decided.toList = p.decided.toList ++ p.decides p' := by
  cases turn with
  | woke p asleep => cases p <;> cases asleep <;> rfl
  | _ => rfl

theorem Turn.inTurn (turn : Turn q p q' p') {c : Caller α} (inTurn : Agent.InTurn ⟨p, c⟩) :
    Agent.InTurn ⟨p', c⟩ := by
  cases turn with
  | refused item closed => exact ⟨item, inTurn⟩
  | stored item open_ room => exact ⟨item, inTurn⟩
  | woke p asleep => exact Agent.woken_inTurn inTurn
  | _ => exact inTurn

end Turns

theorem Request.inTurn {request : Request α} {c : Caller α} (next : c.current = some request) :
    Agent.InTurn ⟨request.entry, c⟩ := by
  cases request <;> exact next

/-- **Every step is the move of one thread.** -/
theorem step_stepped {m m' : QueueCalls α} {act : Act} (went : QueueCalls.step m act = some m') :
    ∃ i a a', Stepped m m' i a a' := by
  cases act with
  | queue move =>
    obtain ⟨i, a, point, moved⟩ := move_turn went
    refine ⟨i, a, _, .turn moved.turn, moved.agents, rfl, moved.turn.inTurn, ?_, moved.inserted,
      moved.removed⟩
    rw [Agent.decided, moved.turn.decided, ← List.append_assoc]
    rfl
  | call i =>
    simp only [QueueCalls.step] at went
    split at went
    · rename_i c at_
      obtain ⟨request, next, rfl⟩ := Option.map_eq_some_iff.1 went
      refine ⟨i, _, _, .call request, replaces_set at_ _, rfl, fun _ => request.inTurn next, ?_, ?_, ?_⟩
      · cases request <;> exact (List.append_nil _).symm
      · cases request <;> exact (List.append_nil _).symm
      · cases request <;> exact (List.append_nil _).symm
    · cases went
  | leave i =>
    simp only [QueueCalls.step] at went
    split at went
    · rename_i answer c at_
      cases went
      exact ⟨i, _, _, .leave answer, replaces_set at_ _, rfl, fun _ => trivial, rfl,
        (List.append_nil _).symm, (List.append_nil _).symm⟩
    · cases went

/-! ## What a move keeps -/

section Plies

variable {q q' : BlockingQueue α} {p p' : Point α}

theorem Ply.fifo (ply : Ply q p q' p') {inserted removed : List α}
    (fifo : inserted = removed ++ q.queue) :
    inserted ++ p.inserts p' = (removed ++ p'.removes) ++ q'.queue := by
  cases ply with
  | turn turn => exact turn.fifo fifo
  | call request => cases request <;> simp [fifo, Request.entry, Point.inserts, Point.removes]
  | leave answer => simp [fifo, Point.inserts, Point.removes]

/-- The capacity is respected, and does not change. -/
theorem Ply.bounded (ply : Ply q p q' p') : q'.capacity = q.capacity ∧
    ((q.capacity ≠ 0 → q.queue.length ≤ q.capacity) →
      q.capacity ≠ 0 → q'.queue.length ≤ q.capacity) := by
  cases ply with
  | turn turn =>
    cases turn with
    | stored item open_ room =>
      refine ⟨rfl, fun _ some_ => ?_⟩
      simp [isFullLocked, some_] at room
      rw [withQueue_queue, List.length_append, List.length_singleton]
      exact room
    | taken item rest front =>
      refine ⟨rfl, fun within some_ => ?_⟩
      have before := within some_
      rw [front, List.length_cons] at before
      rw [withQueue_queue]
      omega
    | _ => exact ⟨rfl, id⟩
  | call request => exact ⟨rfl, id⟩
  | leave answer => exact ⟨rfl, id⟩

/-- A closed queue stays closed, is not added to, and turns away every push. -/
theorem Ply.closed (ply : Ply q p q' p') (closed : q.closed = true) :
    q'.closed = true ∧ p.inserts p' = [] ∧ ∀ b, .push b ∈ p.decides p' → b = false := by
  cases ply with
  | turn turn =>
    obtain ⟨closed', nothing, -⟩ := turn.closed_kept closed
    refine ⟨closed', nothing, fun b decides => ?_⟩
    cases turn with
    | stored item open_ room =>
      rw [closed] at open_
      cases open_
    | refused item closed =>
      cases List.mem_singleton.1 decides
      rfl
    | drained closed empty => cases List.mem_singleton.1 decides
    | taken item rest front => cases List.mem_singleton.1 decides
    | closed => cases List.mem_singleton.1 decides
    | woke p asleep => cases p <;> cases asleep <;> cases decides
    | _ => cases decides
  | call request => exact ⟨closed, by cases request <;> rfl, by cases request <;> nofun⟩
  | leave answer => exact ⟨closed, rfl, nofun⟩

/-- A closed and empty queue stays so, and every pop is told that it is. -/
theorem Ply.ended (ply : Ply q p q' p') (closed : q.closed = true) (empty : q.queue = []) :
    q'.queue = [] ∧ ∀ x, .pop x ∈ p.decides p' → x = none := by
  cases ply with
  | turn turn =>
    obtain ⟨-, -, kept⟩ := turn.closed_kept closed
    refine ⟨kept empty, fun x decides => ?_⟩
    cases turn with
    | taken item rest front =>
      rw [empty] at front
      cases front
    | drained closed empty =>
      cases List.mem_singleton.1 decides
      rfl
    | stored item open_ room => cases List.mem_singleton.1 decides
    | refused item closed => cases List.mem_singleton.1 decides
    | closed => cases List.mem_singleton.1 decides
    | woke p asleep => cases p <;> cases asleep <;> cases decides
    | _ => cases decides
  | call request => exact ⟨empty, by cases request <;> nofun⟩
  | leave answer => exact ⟨empty, nofun⟩

/-- A pop is told that there is no item only by a closed and empty queue. -/
theorem Ply.told_drained (ply : Ply q p q' p') (told : .pop none ∈ p.decides p') :
    q'.closed = true ∧ q'.queue = [] := by
  cases ply with
  | turn turn =>
    cases turn with
    | drained closed empty => exact ⟨closed, empty⟩
    | stored item open_ room => cases List.mem_singleton.1 told
    | refused item closed => cases List.mem_singleton.1 told
    | taken item rest front => cases List.mem_singleton.1 told
    | closed => cases List.mem_singleton.1 told
    | woke p asleep => cases p <;> cases asleep <;> cases told
    | _ => cases told
  | call request => cases request <;> cases told
  | leave answer => cases told

/-- A push is accepted in the move that stores its item. -/
theorem Ply.accepts (ply : Ply q p q' p') {c : Caller α} (inTurn : Agent.InTurn ⟨p, c⟩) :
    acceptedBy c.calls (Agent.decided ⟨p, c⟩ ++ p.decides p') =
      acceptedBy c.calls (Agent.decided ⟨p, c⟩) ++ p.inserts p' := by
  have nothing (ds : List (Answer α)) :
      acceptedBy c.calls (ds ++ []) = acceptedBy c.calls ds ++ [] := by
    rw [List.append_nil, List.append_nil]
  have other {answer : Answer α} (differs : answer ≠ .push true) (ds : List (Answer α)) :
      acceptedBy c.calls (ds ++ [answer]) = acceptedBy c.calls ds ++ [] :=
    (acceptedBy_snoc differs).trans (List.append_nil _).symm
  cases ply with
  | turn turn =>
    cases turn with
    | stored item open_ room =>
      have before : Agent.decided ⟨.push item, c⟩ = c.answers := List.append_nil _
      refine acceptedBy_snoc_push ?_
      rw [before]
      exact inTurn
    | refused item closed => exact other (by simp) _
    | drained closed empty => exact other (by simp) _
    | taken item rest front => exact other (by simp) _
    | closed => exact other (by simp) _
    | woke p asleep => cases p <;> cases asleep <;> exact nothing _
    | _ => exact nothing _
  | call request => cases request <;> exact nothing _
  | leave answer => exact nothing _

/-- What a pop is told it gets is what it takes out. -/
theorem Ply.takes (ply : Ply q p q' p') : takenBy (p.decides p') = p'.removes := by
  cases ply with
  | turn turn =>
    cases turn with
    | woke p asleep => cases p <;> cases asleep <;> rfl
    | _ => rfl
  | call request => cases request <;> rfl
  | leave answer => rfl

end Plies

/-! ## Runs -/

section Runs

variable {m m' : QueueCalls α} {i : Nat} {a a' : Agent α (Caller α)}

theorem Stepped.accepted (stepped : Stepped m m' i a a') (inTurn : a.InTurn) :
    a'.accepted = a.accepted ++ a.point.inserts a'.point := by
  rw [Agent.accepted, Agent.accepted, stepped.calls, stepped.decided]
  exact stepped.ply.accepts inTurn

theorem Stepped.taken (stepped : Stepped m m' i a a') :
    a'.taken = a.taken ++ a'.point.removes := by
  rw [Agent.taken, Agent.taken, stepped.decided, takenBy_append, stepped.ply.takes]

/-- Threads keep what they have decided between two states, and what they decide more meets
`V`. -/
def DecidesOnly (V : Answer α → Prop) (m m' : QueueCalls α) : Prop :=
  ∀ (i : Nat) (a : Agent α (Caller α)), m.agents[i]? = some a →
    ∃ (a' : Agent α (Caller α)) (more : List (Answer α)), m'.agents[i]? = some a' ∧
      a'.decided = a.decided ++ more ∧ ∀ answer ∈ more, V answer

theorem Stepped.decidesOnly (stepped : Stepped m m' i a a') {V : Answer α → Prop}
    (meets : ∀ answer ∈ a.point.decides a'.point, V answer) : DecidesOnly V m m' := by
  intro j u there
  by_cases mover : j = i
  · subst mover
    cases there.symm.trans stepped.agents.at_
    exact ⟨a', _, stepped.agents.now, stepped.decided, meets⟩
  · rcases stepped.agents.others j mover with same | woke
    · exact ⟨u, [], same.trans there, (List.append_nil _).symm, nofun⟩
    · refine ⟨u.woken, [], ?_, u.woken_decided.trans (List.append_nil _).symm, nofun⟩
      rw [woke, there]
      rfl

theorem DecidesOnly.trans {V : Answer α → Prop} {m'' : QueueCalls α} (first : DecidesOnly V m m')
    (second : DecidesOnly V m' m'') : DecidesOnly V m m'' := by
  intro j u there
  obtain ⟨u', more, there', decided, all⟩ := first j u there
  obtain ⟨u'', more', there'', decided', all'⟩ := second j u' there'
  refine ⟨u'', more ++ more', there'', ?_, List.forall_mem_append.2 ⟨all, all'⟩⟩
  rw [decided', decided, List.append_assoc]

/-- **What all decisions from some state on have in common**: `R` holds of the queue from
there on, and whatever a move decides under `R` meets `V`. -/
theorem later_decisions {R : BlockingQueue α → Prop} {V : Answer α → Prop}
    (keeps : ∀ {q q' p p'}, Ply q p q' p' → R q → R q' ∧ ∀ answer ∈ p.decides p', V answer)
    (start : R m.queue) {later : List Act} (ran : exec QueueCalls.step m later = some m') :
    R m'.queue ∧ DecidesOnly V m m' := by
  refine exec_induct (fun m' => R m'.queue ∧ DecidesOnly V m m') ?_ ?_ ran
  · rintro mid act mid' ⟨holds, decided⟩ went
    obtain ⟨i, a, a', stepped⟩ := step_stepped went
    obtain ⟨holds', meets⟩ := keeps stepped.ply holds
    exact ⟨holds', decided.trans (stepped.decidesOnly meets)⟩
  · exact ⟨start, fun i a there => ⟨a, [], there, (List.append_nil _).symm, nofun⟩⟩

end Runs

/-- Where every item is, and what has been decided, in every state. -/
structure Kept (capacity : Nat) (m : QueueCalls α) : Prop where
  capacity_eq : m.queue.capacity = capacity
  inTurn : ∀ a ∈ m.agents, a.InTurn
  fifo : m.inserted = m.removed ++ m.queue.queue
  accepted : m.inserted.Perm (m.agents.map Agent.accepted).flatten
  taken : m.removed.Perm (m.agents.map Agent.taken).flatten
  bounded : capacity ≠ 0 → m.queue.queue.length ≤ capacity
  drained : ∀ a ∈ m.agents, .pop none ∈ a.decided → m.queue.closed = true ∧ m.queue.queue = []

theorem kept_init (capacity : Nat) (programs : List (Nat → Option (Request α))) :
    Kept capacity (QueueCalls.init capacity programs) := by
  have fresh : ∀ a ∈ (QueueCalls.init capacity programs).agents, a.InTurn ∧ a.decided = [] := by
    intro a member
    obtain ⟨calls, -, rfl⟩ := List.mem_map.1 member
    exact ⟨trivial, rfl⟩
  have nothing {f : Agent α (Caller α) → List α} (empty : ∀ a, a.decided = [] → f a = []) :
      [].Perm ((QueueCalls.init capacity programs).agents.map f).flatten := by
    rw [List.flatten_eq_nil_iff.2]
    intro l member
    obtain ⟨a, there, rfl⟩ := List.mem_map.1 member
    exact empty a (fresh a there).2
  refine ⟨rfl, fun a member => (fresh a member).1, rfl, nothing fun a empty => ?_,
    nothing fun a empty => ?_, fun _ => Nat.zero_le _, fun a member told => ?_⟩
  · rw [Agent.accepted, empty]
    rfl
  · rw [Agent.taken, empty]
    rfl
  · rw [(fresh a member).2] at told
    cases told

theorem Kept.step {capacity : Nat} {m m' : QueueCalls α} {act : Act} (kept : Kept capacity m)
    (went : QueueCalls.step m act = some m') : Kept capacity m' := by
  obtain ⟨i, a, a', stepped⟩ := step_stepped went
  have member : a ∈ m.agents := List.mem_of_getElem? stepped.agents.at_
  have inTurn := kept.inTurn a member
  -- a list of items that grows with the mover's own
  have grows {f : Agent α (Caller α) → List α} (wakes : ∀ u, f u.woken = f u) {items more : List α}
      (before : items.Perm (m.agents.map f).flatten) (own : f a' = f a ++ more) :
      (items ++ more).Perm (m'.agents.map f).flatten := by
    have at_ : (m.agents.map f)[i]? = some (f a) := by
      rw [List.getElem?_map, stepped.agents.at_]
      rfl
    rw [stepped.agents.map wakes, own]
    exact (before.append_right more).trans (perm_flatten_set at_ more).symm
  obtain ⟨same, within⟩ := stepped.ply.bounded
  rw [kept.capacity_eq] at same within
  constructor
  · exact same
  · exact stepped.agents.all (fun _ => Agent.woken_inTurn) kept.inTurn (stepped.inTurn inTurn)
  · rw [stepped.inserted, stepped.removed]
    exact stepped.ply.fifo kept.fifo
  · rw [stepped.inserted]
    refine grows (fun u => ?_) kept.accepted (stepped.accepted inTurn)
    rw [Agent.accepted, Agent.woken_decided]
    rfl
  · rw [stepped.removed]
    refine grows (fun u => ?_) kept.taken stepped.taken
    rw [Agent.taken, Agent.woken_decided, Agent.taken]
  · exact within kept.bounded
  · -- once told, it stays so
    have stays (ended : m.queue.closed = true ∧ m.queue.queue = []) :
        m'.queue.closed = true ∧ m'.queue.queue = [] :=
      ⟨(stepped.ply.closed ended.1).1, (stepped.ply.ended ended.1 ended.2).1⟩
    refine stepped.agents.all (P := fun u => .pop none ∈ u.decided →
      m'.queue.closed = true ∧ m'.queue.queue = []) (fun u told there => ?_)
      (fun u there told => stays (kept.drained u there told)) (fun told => ?_)
    · rw [Agent.woken_decided] at there
      exact told there
    · rw [stepped.decided] at told
      rcases List.mem_append.1 told with before | now
      · exact stays (kept.drained a member before)
      · exact stepped.ply.told_drained now

theorem kept_run {capacity : Nat} {programs : List (Nat → Option (Request α))} {sched : List Act}
    {m : QueueCalls α}
    (ran : exec QueueCalls.step (QueueCalls.init capacity programs) sched = some m) :
    Kept capacity m :=
  exec_induct (Kept capacity) (fun _ _ _ kept went => kept.step went) (kept_init capacity programs) ran

/-! ## The queue as its users see it -/

/-- A bounded FIFO that only drains once it is closed. -/
structure BoundedFifo (capacity : Nat) (m : QueueCalls α) : Prop where
  /-- What was put in is what was taken out and what is queued, in this order. -/
  fifo : m.inserted = m.removed ++ m.queue.queue
  /-- What was put in are the items of the pushes that returned or will return `true`. -/
  accepted : m.inserted.Perm (m.agents.map Agent.accepted).flatten
  /-- What was taken out are the items that pops returned or will return. -/
  taken : m.removed.Perm (m.agents.map Agent.taken).flatten
  bounded : capacity ≠ 0 → m.queue.queue.length ≤ capacity
  /-- What is decided is answered: later decisions come after it. -/
  final : ∀ later m', exec QueueCalls.step m later = some m' → DecidesOnly (fun _ => True) m m'
  /-- Once closed, nothing more is put in, and pushes decided from here on are refused. -/
  refusing : m.queue.closed = true → ∀ later m', exec QueueCalls.step m later = some m' →
    m'.inserted = m.inserted ∧ DecidesOnly (fun answer => ∀ b, answer = .push b → b = false) m m'
  /-- A pop is told that there is no item only by a closed and empty queue. -/
  drained : ∀ a ∈ m.agents, .pop none ∈ a.decided → m.queue.closed = true ∧ m.queue.queue = []
  /-- Which stays so, and tells every pop decided from here on the same. -/
  ended : m.queue.closed = true ∧ m.queue.queue = [] →
    ∀ later m', exec QueueCalls.step m later = some m' →
      (m'.queue.closed = true ∧ m'.queue.queue = []) ∧
        DecidesOnly (fun answer => ∀ x, answer = .pop x → x = none) m m'
  /-- Closing a closed queue changes nothing. -/
  again : m.queue.closed = true → ∀ i c, m.agents[i]? = some ⟨.close, c⟩ →
    QueueCalls.step m (.queue (.enter i)) = some (m.put i ⟨.closedItem, c⟩)

theorem closed_again {m : QueueCalls α} (closed : m.queue.closed = true) {i : Nat} {c : Caller α}
    (at_ : m.agents[i]? = some ⟨.close, c⟩) :
    QueueCalls.step m (.queue (.enter i)) = some (m.put i ⟨.closedItem, c⟩) := by
  obtain ⟨⟨capacity, queue, isClosed⟩, agents, inserted, removed, refused⟩ := m
  cases closed
  replace at_ : agents[i]? = some ⟨.close, c⟩ := at_
  simp [QueueCalls.step, Monitor.move, enter, at_, QueueCalls.put, Point.inserts, Point.removes,
    Point.refuses]

/-- Once closed, a queue takes nothing more. -/
theorem inserted_closed {m m' : QueueCalls α} (closed : m.queue.closed = true) {later : List Act}
    (ran : exec QueueCalls.step m later = some m') : m'.inserted = m.inserted := by
  refine (exec_induct (fun m' => m'.queue.closed = true ∧ m'.inserted = m.inserted) ?_
    ⟨closed, rfl⟩ ran).2
  rintro mid act mid' ⟨closed, same⟩ went
  obtain ⟨i, a, a', stepped⟩ := step_stepped went
  obtain ⟨closed', nothing, -⟩ := stepped.ply.closed closed
  refine ⟨closed', ?_⟩
  rw [stepped.inserted, nothing, List.append_nil]
  exact same

/-- **The blocking queue is a bounded FIFO with a clean close**, for any capacity, any
threads and any interleaving of their calls. -/
theorem bounded_fifo {capacity : Nat} {programs : List (Nat → Option (Request α))}
    {sched : List Act} {m : QueueCalls α}
    (ran : exec QueueCalls.step (QueueCalls.init capacity programs) sched = some m) :
    BoundedFifo capacity m := by
  have kept := kept_run ran
  constructor
  · exact kept.fifo
  · exact kept.accepted
  · exact kept.taken
  · exact kept.bounded
  · intro later m' run
    exact (later_decisions (R := fun _ => True) (fun _ _ => ⟨trivial, fun _ _ => trivial⟩) trivial
      run).2
  · intro closed later m' run
    refine ⟨inserted_closed closed run, (later_decisions (R := fun q => q.closed = true)
      (fun ply closed => ?_) closed run).2⟩
    obtain ⟨closed', -, refuses⟩ := ply.closed closed
    refine ⟨closed', ?_⟩
    rintro _ member b rfl
    exact refuses b member
  · exact kept.drained
  · intro ended later m' run
    refine later_decisions (R := fun q => q.closed = true ∧ q.queue = []) (fun ply ended => ?_) ended
      run
    obtain ⟨empty, nones⟩ := ply.ended ended.1 ended.2
    refine ⟨⟨(ply.closed ended.1).1, empty⟩, ?_⟩
    rintro _ member x rfl
    exact nones x member
  · exact fun closed i c at_ => closed_again closed at_

/-- Finitely many calls. -/
def inOrder (requests : List (Request α)) (k : Nat) : Option (Request α) := requests[k]?

/-- A producer of two items, a consumer, and a thread that closes. -/
def producerAndConsumer : List (Nat → Option (Request Nat)) :=
  [inOrder [.push 1, .push 2], inOrder [.pop, .pop], inOrder [.close]]

/-- On a queue of one place the second push blocks, is woken by the pop, and finds the
queue closed. -/
theorem bounded_fifo_closed : ∃ sched m,
    exec QueueCalls.step (QueueCalls.init 1 producerAndConsumer) sched = some m ∧
    m.inserted = [1] ∧ m.queue.closed = true ∧ m.inserted = m.removed ++ m.queue.queue := by
  have ran : (exec QueueCalls.step (QueueCalls.init 1 producerAndConsumer)
      [.call 0, .queue (.enter 0), .queue (.notify 0 none), .leave 0, .call 0, .queue (.enter 0),
        .call 1, .queue (.enter 1), .call 2, .queue (.enter 2), .queue (.notify 1 (some 0)),
        .queue (.enter 0), .leave 0]).any
      (fun m => decide (m.inserted = [1]) && m.queue.closed) = true := by decide +kernel
  obtain ⟨m, run, found⟩ := exec_any ran
  rw [Bool.and_eq_true, decide_eq_true_eq] at found
  exact ⟨_, m, run, found.1, found.2, (bounded_fifo run).fifo⟩

end PaymentSystem.Infra.BlockingQueue
