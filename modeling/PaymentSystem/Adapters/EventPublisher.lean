/-
# PaymentSystem.Adapters.EventPublisher -- who is told of what

`include/payment/adapters/InMemoryEventPublisher.hpp`.  `publish` logs the event and copies
the list of subscribers in one section under the mutex, and then calls the copies one after
another with the mutex released.  So a callback may itself publish or subscribe, other
threads may do so in between, and an exception that escapes a callback ends the loop.

A thread is the stack of its active calls of `publish`, innermost first; what a callback
does is not the publisher's code, so a callback that runs may do any of these things at any
time.

* `Kept`: every publish is on one stack or has ended, once; what it has told and what it has
  left to tell make up its snapshot.
* `Kept.leaves`, `LeftBy.step`: a publish left by an exception has told the subscribers up to
  the one that threw, and tells nobody later.
* `publisher_delivers`: in every run the log has one event for each publish, and each event
  goes to the subscribers that were there when it was logged, in their order, each told as
  often as it subscribed: all of them if `publish` returned, those up to the one that threw
  if not.
* `told_in_order`: publishes that do not overlap are told of in the order of the log.
-/
import PaymentSystem.Domain.Entities
import PaymentSystem.Theory.Threads
import Mathlib.Data.List.Infix

namespace PaymentSystem.Adapters

open PaymentSystem.Common
open PaymentSystem.Domain
open PaymentSystem.Theory.Runs
open PaymentSystem.Theory.Threads

set_option autoImplicit false

/-- `InMemoryEventPublisher`, its subscribers of any type of callable. -/
structure InMemoryEventPublisher (α : Type) where
  subscribers : List α
  log : List DomainEvent
  deriving DecidableEq

/-- An active call of `publish`, past its section: the place of its event in the log, the
subscribers of its snapshot still to be called, and whether a callback is running. -/
structure Frame (α : Type) where
  call : Nat
  event : DomainEvent
  rest : List α
  inside : Bool
  deriving DecidableEq

/-- A subscriber called, by which publish and with what. -/
structure Delivery (α : Type) where
  call : Nat
  subscriber : α
  event : DomainEvent
  deriving DecidableEq

/-- The publisher and its threads, with the record of what has happened: the snapshot of
each publish, the calls of subscribers, and how each publish has ended. -/
structure Dispatch (α : Type) where
  publisher : InMemoryEventPublisher α
  threads : List (List (Frame α))
  snapshots : List (List α)
  deliveries : List (Delivery α)
  ended : List (Nat × Except Exception Unit)
  deriving DecidableEq

variable {α : Type}

namespace InMemoryEventPublisher

def subscribe (publisher : InMemoryEventPublisher α) (s : α) : InMemoryEventPublisher α :=
  { publisher with subscribers := publisher.subscribers ++ [s] }

/-- The section of `publish` under the mutex: the event is logged, the subscribers copied. -/
def record (publisher : InMemoryEventPublisher α) (event : DomainEvent) :
    List α × InMemoryEventPublisher α :=
  (publisher.subscribers, { publisher with log := publisher.log ++ [event] })

end InMemoryEventPublisher

namespace Dispatch

/-- What a thread does next. -/
inductive Act (α : Type) where
  | subscribe (s : α)
  | publish (event : DomainEvent)
  /-- The loop goes on to its next subscriber, or is through. -/
  | next
  /-- The callback returns. -/
  | returns
  /-- The callback lets an exception escape. -/
  | throws (e : Exception)

def Act.publishes : Act α → Bool
  | .publish _ => true
  | _ => false

/-- How the publish ends that ends with this. -/
def Act.outcome : Act α → Except Exception Unit
  | .throws e => .error e
  | _ => .ok ()

/-- The thread is in no loop of `publish`: outside all of them, or inside a callback. -/
def free : List (Frame α) → Bool
  | [] => true
  | frame :: _ => frame.inside

/-- A publisher nobody has used, and its threads. -/
def init (n : Nat) : Dispatch α := ⟨⟨[], []⟩, List.replicate n [], [], [], []⟩

/-- A thread with the stack `stack` acts. -/
def act (d : Dispatch α) (i : Nat) (stack : List (Frame α)) : Act α → Option (Dispatch α)
  | .subscribe s =>
    if free stack then some { d with publisher := d.publisher.subscribe s } else none
  | .publish event =>
    if free stack then
      let r := d.publisher.record event
      some { d with
        publisher := r.2
        threads := d.threads.set i (⟨d.snapshots.length, event, r.1, false⟩ :: stack)
        snapshots := d.snapshots ++ [r.1] }
    else none
  | .next =>
    match stack with
    | ⟨call, event, s :: rest, false⟩ :: outer =>
      some { d with
        threads := d.threads.set i (⟨call, event, rest, true⟩ :: outer)
        deliveries := d.deliveries ++ [⟨call, s, event⟩] }
    | ⟨call, _, [], false⟩ :: outer =>
      some { d with threads := d.threads.set i outer, ended := d.ended ++ [(call, .ok ())] }
    | _ => none
  | .returns =>
    match stack with
    | ⟨call, event, rest, true⟩ :: outer =>
      some { d with threads := d.threads.set i (⟨call, event, rest, false⟩ :: outer) }
    | _ => none
  -- the loop is left, and the exception goes on to whoever called `publish`
  | .throws e =>
    match stack with
    | ⟨call, _, _, true⟩ :: outer =>
      some { d with threads := d.threads.set i outer, ended := d.ended ++ [(call, .error e)] }
    | _ => none

def step (d : Dispatch α) (label : Nat × Act α) : Option (Dispatch α) :=
  match d.threads[label.1]? with
  | none => none
  | some stack => d.act label.1 stack label.2

/-- The active calls of `publish`, of all threads. -/
def frames (d : Dispatch α) : List (Frame α) := d.threads.flatten

/-- Whom a publish has told, in order. -/
def told (d : Dispatch α) (call : Nat) : List α :=
  (d.deliveries.filter fun e => e.call == call).map Delivery.subscriber

/-! ## What a step can do -/

/-- A step of thread `i` adds to the subscribers, opens a publish over the subscribers there
are, calls the next subscriber of its innermost one, comes back from it, or ends it. -/
inductive Steps (d : Dispatch α) (i : Nat) : Act α → Dispatch α → Prop where
  | subscribed (s : α) : Steps d i (.subscribe s) { d with publisher := d.publisher.subscribe s }
  | published (event : DomainEvent) (stack : List (Frame α)) (at_ : d.threads[i]? = some stack) :
      Steps d i (.publish event) { d with
        publisher := { d.publisher with log := d.publisher.log ++ [event] }
        threads := d.threads.set i
          (⟨d.snapshots.length, event, d.publisher.subscribers, false⟩ :: stack)
        snapshots := d.snapshots ++ [d.publisher.subscribers] }
  | tells (call : Nat) (event : DomainEvent) (s : α) (rest : List α) (outer : List (Frame α))
      (at_ : d.threads[i]? = some (⟨call, event, s :: rest, false⟩ :: outer)) :
      Steps d i .next { d with
        threads := d.threads.set i (⟨call, event, rest, true⟩ :: outer)
        deliveries := d.deliveries ++ [⟨call, s, event⟩] }
  | comesBack (call : Nat) (event : DomainEvent) (rest : List α) (outer : List (Frame α))
      (at_ : d.threads[i]? = some (⟨call, event, rest, true⟩ :: outer)) :
      Steps d i .returns { d with threads := d.threads.set i (⟨call, event, rest, false⟩ :: outer) }
  | returned (call : Nat) (event : DomainEvent) (outer : List (Frame α))
      (at_ : d.threads[i]? = some (⟨call, event, [], false⟩ :: outer)) :
      Steps d i .next { d with
        threads := d.threads.set i outer, ended := d.ended ++ [(call, .ok ())] }
  | threw (e : Exception) (call : Nat) (event : DomainEvent) (rest : List α)
      (outer : List (Frame α)) (at_ : d.threads[i]? = some (⟨call, event, rest, true⟩ :: outer)) :
      Steps d i (.throws e) { d with
        threads := d.threads.set i outer, ended := d.ended ++ [(call, .error e)] }

/-- **Every step is one of these.** -/
theorem step_steps {d d' : Dispatch α} {label : Nat × Act α} (stepped : step d label = some d') :
    Steps d label.1 label.2 d' := by
  obtain ⟨i, action⟩ := label
  unfold step at stepped
  cases at_ : d.threads[i]? with
  | none => simp [at_] at stepped
  | some stack =>
    simp only [at_] at stepped
    cases action with
    | subscribe s =>
      simp only [act] at stepped
      split at stepped <;> cases stepped
      exact .subscribed s
    | publish event =>
      simp only [act] at stepped
      split at stepped <;> cases stepped
      exact .published event stack at_
    | next =>
      simp only [act] at stepped
      split at stepped
      · cases stepped
        exact .tells _ _ _ _ _ at_
      · cases stepped
        exact .returned _ _ _ at_
      · cases stepped
    | returns =>
      simp only [act] at stepped
      split at stepped <;> cases stepped
      exact .comesBack _ _ _ _ at_
    | throws e =>
      simp only [act] at stepped
      split at stepped <;> cases stepped
      exact .threw e _ _ _ _ at_

/-! A thread, and the publish it has been in for longest. -/

section Outermost

variable {d d' : Dispatch α} {i : Nat} {action : Act α}

theorem Steps.elsewhere {j : Nat} (steps : Steps d i action d') (other : j ≠ i) :
    d'.threads[j]? = d.threads[j]? := by
  cases steps with
  | subscribed s => rfl
  | _ => exact List.getElem?_set_ne (Ne.symm other)

theorem step_opens (at_ : d.threads[i]? = some []) (event : DomainEvent) :
    ∃ d', step d (i, .publish event) = some d' ∧
      ∃ frame, d'.threads[i]? = some [frame] ∧ frame.event = event := by
  have inside := (List.getElem?_eq_some_iff.1 at_).1
  refine ⟨_, by simp only [step, at_, act, free]; rfl, ?_⟩
  exact ⟨_, List.getElem?_set_self inside, rfl⟩

/-- The innermost publish of a thread is the outermost, or that is further out. -/
theorem top_cases {top frame : Frame α} {outer inner : List (Frame α)}
    (same : top :: outer = inner ++ [frame]) :
    outer = [] ∧ top = frame ∨ ∃ rest, outer = rest ++ [frame] := by
  cases inner with
  | nil =>
    obtain ⟨rfl, rfl⟩ := List.cons.inj same
    exact .inl ⟨rfl, rfl⟩
  | cons f rest => exact .inr ⟨rest, (List.cons.inj same).2⟩

/-- The outermost publish of a thread goes on, or it ends the way the step says. -/
theorem Steps.outermost {inner : List (Frame α)} {frame : Frame α} (steps : Steps d i action d')
    (stands : d.threads[i]? = some (inner ++ [frame])) :
    (d'.threads[i]? = some [] ∧ d'.ended = d.ended ++ [(frame.call, action.outcome)]) ∨
      ∃ inner' frame', d'.threads[i]? = some (inner' ++ [frame']) ∧ frame'.event = frame.event := by
  have inside := (List.getElem?_eq_some_iff.1 stands).1
  cases steps with
  | subscribed s => exact .inr ⟨inner, frame, stands, rfl⟩
  | published event stack at_ =>
    cases at_.symm.trans stands
    exact .inr ⟨_ :: inner, frame, List.getElem?_set_self inside, rfl⟩
  | tells call event s rest outer at_ =>
    rcases top_cases (Option.some.inj (at_.symm.trans stands)) with ⟨rfl, rfl⟩ | ⟨inner', rfl⟩
    · exact .inr ⟨[], _, List.getElem?_set_self inside, rfl⟩
    · exact .inr ⟨_ :: inner', frame, List.getElem?_set_self inside, rfl⟩
  | comesBack call event rest outer at_ =>
    rcases top_cases (Option.some.inj (at_.symm.trans stands)) with ⟨rfl, rfl⟩ | ⟨inner', rfl⟩
    · exact .inr ⟨[], _, List.getElem?_set_self inside, rfl⟩
    · exact .inr ⟨_ :: inner', frame, List.getElem?_set_self inside, rfl⟩
  | returned call event outer at_ =>
    rcases top_cases (Option.some.inj (at_.symm.trans stands)) with ⟨rfl, rfl⟩ | ⟨inner', rfl⟩
    · exact .inl ⟨List.getElem?_set_self inside, rfl⟩
    · exact .inr ⟨inner', frame, List.getElem?_set_self inside, rfl⟩
  | threw e call event rest outer at_ =>
    rcases top_cases (Option.some.inj (at_.symm.trans stands)) with ⟨rfl, rfl⟩ | ⟨inner', rfl⟩
    · exact .inl ⟨List.getElem?_set_self inside, rfl⟩
    · exact .inr ⟨inner', frame, List.getElem?_set_self inside, rfl⟩

end Outermost

/-! ## What holds in every run -/

/-- A publish that is under way: what it has told and what it has left are its snapshot. -/
structure Opened (d : Dispatch α) (frame : Frame α) : Prop where
  logged : d.publisher.log[frame.call]? = some frame.event
  split : d.snapshots[frame.call]? = some (d.told frame.call ++ frame.rest)
  begun : frame.inside = true → d.told frame.call ≠ []

/-- A publish that has ended: it has told its whole snapshot, or up to the one that threw. -/
structure Settled (d : Dispatch α) (call : Nat) (out : Except Exception Unit) : Prop where
  split : ∃ rest, d.snapshots[call]? = some (d.told call ++ rest) ∧ (out = .ok () → rest = [])
  begun : ∀ e, out = .error e → d.told call ≠ []

/-- What a publisher and its threads keep to. -/
structure Kept (d : Dispatch α) : Prop where
  paired : d.snapshots.length = d.publisher.log.length
  seen : ∀ snapshot ∈ d.snapshots, snapshot <+: d.publisher.subscribers
  /-- A publish is under way once, or has ended once. -/
  placed : ∀ call, d.frames.countP (fun frame => frame.call == call) +
    d.ended.countP (fun e => e.1 == call) = if call < d.snapshots.length then 1 else 0
  opened : ∀ frame ∈ d.frames, Opened d frame
  settled : ∀ call out, (call, out) ∈ d.ended → Settled d call out
  sent : ∀ e ∈ d.deliveries, d.publisher.log[e.call]? = some e.event

theorem getElem?_grown {T : Type} {l l' : List T} (more : l <+: l') {i : Nat} {t : T}
    (at_ : l[i]? = some t) : l'[i]? = some t := by
  obtain ⟨later, rfl⟩ := more
  rw [List.getElem?_append_left (List.getElem?_eq_some_iff.1 at_).1]
  exact at_

section Grown

variable {d d' : Dispatch α}

theorem Opened.grown {frame : Frame α} (opened : Opened d frame)
    (log : d.publisher.log <+: d'.publisher.log) (snapshots : d.snapshots <+: d'.snapshots)
    (told : d'.told frame.call = d.told frame.call) : Opened d' frame where
  logged := getElem?_grown log opened.logged
  split := told ▸ getElem?_grown snapshots opened.split
  begun := told ▸ opened.begun

theorem Settled.grown {call : Nat} {out : Except Exception Unit} (settled : Settled d call out)
    (snapshots : d.snapshots <+: d'.snapshots) (told : d'.told call = d.told call) :
    Settled d' call out := by
  obtain ⟨rest, split, whole⟩ := settled.split
  exact ⟨⟨rest, told ▸ getElem?_grown snapshots split, whole⟩, told ▸ settled.begun⟩

end Grown

theorem told_same {d d' : Dispatch α} (same : d'.deliveries = d.deliveries) (call : Nat) :
    d'.told call = d.told call := by
  rw [told, told, same]

theorem told_snoc (d d' : Dispatch α) {e : Delivery α} (more : d'.deliveries = d.deliveries ++ [e])
    (call : Nat) :
    d'.told call = d.told call ++ if e.call = call then [e.subscriber] else [] := by
  rw [told, told, more, List.filter_append, List.map_append]
  by_cases mine : e.call = call
  · simp [mine]
  · simp [mine]

theorem Kept.fresh {d : Dispatch α} (kept : Kept d) : d.told d.snapshots.length = [] := by
  rw [told, List.map_eq_nil_iff, List.filter_eq_nil_iff]
  intro e member own
  have inside := (List.getElem?_eq_some_iff.1 (kept.sent e member)).1
  have same : e.call = d.snapshots.length := by simpa using own
  have paired := kept.paired
  omega

/-- No other frame is of the same publish, nor has it ended. -/
theorem Kept.alone {d : Dispatch α} (kept : Kept d) {frame : Frame α} {others : List (Frame α)}
    (was : d.frames.Perm (frame :: others)) :
    (∀ other ∈ others, other.call ≠ frame.call) ∧ ∀ e ∈ d.ended, e.1 ≠ frame.call := by
  have placed := kept.placed frame.call
  rw [was.countP_eq, List.countP_cons_of_pos (by simp)] at placed
  have most : (if frame.call < d.snapshots.length then 1 else 0) ≤ 1 := by split <;> omega
  have noFrame : others.countP (fun other => other.call == frame.call) = 0 := by omega
  have noEnd : d.ended.countP (fun e => e.1 == frame.call) = 0 := by omega
  constructor
  · intro other member same
    exact List.countP_eq_zero.1 noFrame other member (by simpa using same)
  · intro e member same
    exact List.countP_eq_zero.1 noEnd e member (by simpa using same)

theorem kept_init (n : Nat) : Kept (init n : Dispatch α) where
  paired := rfl
  seen snapshot member := by cases member
  placed call := by simp [init, frames, List.flatten_replicate_nil]
  opened frame member := by simp [init, frames, List.flatten_replicate_nil] at member
  settled call out member := by cases member
  sent e member := by cases member

/-- A frame goes on from `frame` to `frame'`; whom it has told is told apart by the caller. -/
theorem Kept.moves {d d' : Dispatch α} (kept : Kept d) {frame : Frame α} (frame' : Frame α)
    {others : List (Frame α)} (was : d.frames.Perm (frame :: others))
    (now : d'.frames.Perm (frame' :: others)) (same : frame'.call = frame.call)
    (publisher : d'.publisher = d.publisher) (snapshots : d'.snapshots = d.snapshots)
    (ended : d'.ended = d.ended) (told : ∀ call, call ≠ frame.call → d'.told call = d.told call)
    (opened : Opened d' frame') (sent : ∀ e ∈ d'.deliveries, d.publisher.log[e.call]? = some e.event) :
    Kept d' where
  paired := by rw [snapshots, publisher, kept.paired]
  seen := by rw [snapshots, publisher]; exact kept.seen
  placed call := by
    have placed := kept.placed call
    rw [was.countP_eq, List.countP_cons] at placed
    rw [now.countP_eq, List.countP_cons, ended, snapshots, same]
    exact placed
  opened other member := by
    rcases List.mem_cons.1 (now.subset member) with rfl | there
    · exact opened
    · exact (kept.opened other (was.symm.subset (List.mem_cons_of_mem _ there))).grown
        (by rw [publisher]) (by rw [snapshots]) (told _ ((kept.alone was).1 other there))
  settled call out member := by
    rw [ended] at member
    exact (kept.settled call out member).grown (by rw [snapshots])
      (told _ ((kept.alone was).2 _ member))
  sent := by rw [publisher]; exact sent

/-- A frame is left, its publish having ended with `out`. -/
theorem Kept.ends {d d' : Dispatch α} (kept : Kept d) {frame : Frame α} {out : Except Exception Unit}
    {others : List (Frame α)} (was : d.frames.Perm (frame :: others)) (now : d'.frames.Perm others)
    (publisher : d'.publisher = d.publisher) (snapshots : d'.snapshots = d.snapshots)
    (deliveries : d'.deliveries = d.deliveries) (ended : d'.ended = d.ended ++ [(frame.call, out)])
    (settled : Settled d frame.call out) : Kept d' where
  paired := by rw [snapshots, publisher, kept.paired]
  seen := by rw [snapshots, publisher]; exact kept.seen
  placed call := by
    have placed := kept.placed call
    rw [was.countP_eq, List.countP_cons] at placed
    rw [now.countP_eq, ended, List.countP_append, List.countP_singleton, snapshots]
    simp only at placed ⊢
    omega
  opened other member := by
    exact (kept.opened other (was.symm.subset (List.mem_cons_of_mem _ (now.subset member)))).grown
      (by rw [publisher]) (by rw [snapshots]) (told_same deliveries _)
  settled call out' member := by
    rw [ended, List.mem_append, List.mem_singleton] at member
    rcases member with before | last
    · exact (kept.settled call out' before).grown (by rw [snapshots]) (told_same deliveries _)
    · cases last
      exact settled.grown (by rw [snapshots]) (told_same deliveries _)
  sent := by rw [publisher, deliveries]; exact kept.sent

theorem Kept.step {d d' : Dispatch α} (kept : Kept d) {i : Nat} {action : Act α}
    (steps : Steps d i action d') : Kept d' := by
  cases steps with
  | subscribed s =>
    refine ⟨kept.paired, fun snapshot member => ?_, kept.placed, fun frame member => ?_,
      fun call out member => ?_, kept.sent⟩
    · exact (kept.seen snapshot member).trans (List.prefix_append _ _)
    · exact (kept.opened frame member).grown List.prefix_rfl List.prefix_rfl rfl
    · exact (kept.settled call out member).grown List.prefix_rfl rfl
  | published event stack at_ =>
    have fresh := kept.fresh
    obtain ⟨others, was, now⟩ := perm_flatten_others at_
    have opened := (now (⟨d.snapshots.length, event, d.publisher.subscribers, false⟩ :: stack)).trans
      (List.Perm.cons _ was.symm)
    refine ⟨?_, ?_, fun call => ?_, fun frame member => ?_, fun call out member => ?_,
      fun e member => ?_⟩
    · simp [kept.paired]
    · intro snapshot member
      rcases List.mem_append.1 member with before | last
      · exact kept.seen snapshot before
      · rw [List.mem_singleton.1 last]
    · have placed := kept.placed call
      rw [frames] at placed
      rw [frames, opened.countP_eq, List.countP_cons, List.length_append, List.length_singleton]
      by_cases new : d.snapshots.length = call
      · simp only [new, beq_self_eq_true, if_true]
        rw [new, if_neg (Nat.lt_irrefl _)] at placed
        rw [if_pos (Nat.lt_succ_self _)]
        omega
      · have same : (call < d.snapshots.length + 1) = (call < d.snapshots.length) := by
          apply propext
          omega
        simp only [beq_iff_eq, if_neg new, same]
        exact placed
    · rcases List.mem_cons.1 (opened.subset member) with rfl | there
      · refine ⟨?_, ?_, fun inside => by cases inside⟩
        · simp [kept.paired]
        · show (d.snapshots ++ [d.publisher.subscribers])[d.snapshots.length]? =
            some (d.told d.snapshots.length ++ d.publisher.subscribers)
          rw [fresh]
          simp
      · exact (kept.opened frame there).grown (List.prefix_append _ _) (List.prefix_append _ _) rfl
    · exact (kept.settled call out member).grown (List.prefix_append _ _) rfl
    · exact getElem?_grown (List.prefix_append _ _) (kept.sent e member)
  | tells call event s rest outer at_ =>
    obtain ⟨others, was, now⟩ := perm_flatten_others at_
    have open_ := kept.opened _ (was.symm.subset List.mem_cons_self)
    have told := told_snoc d { d with
      threads := d.threads.set i (⟨call, event, rest, true⟩ :: outer)
      deliveries := d.deliveries ++ [⟨call, s, event⟩] } rfl
    refine kept.moves ⟨call, event, rest, true⟩ was (now _) rfl rfl rfl rfl (fun other apart => ?_)
      ⟨open_.logged, ?_, ?_⟩
      (fun e member => ?_)
    · rw [told, if_neg (Ne.symm apart), List.append_nil]
    · rw [told, if_pos rfl, List.append_assoc]
      exact open_.split
    · intro _
      rw [told, if_pos rfl]
      exact List.append_ne_nil_of_right_ne_nil _ (List.cons_ne_nil _ _)
    · rcases List.mem_append.1 member with before | last
      · exact kept.sent e before
      · rw [List.mem_singleton.1 last]
        exact open_.logged
  | comesBack call event rest outer at_ =>
    obtain ⟨others, was, now⟩ := perm_flatten_others at_
    have open_ := kept.opened _ (was.symm.subset List.mem_cons_self)
    exact kept.moves ⟨call, event, rest, false⟩ was (now _) rfl rfl rfl rfl (fun _ _ => rfl)
      ⟨open_.logged, open_.split, fun inside => by cases inside⟩ kept.sent
  | returned call event outer at_ =>
    obtain ⟨others, was, now⟩ := perm_flatten_others at_
    have open_ := kept.opened _ (was.symm.subset List.mem_cons_self)
    exact kept.ends was (now _) rfl rfl rfl rfl
      ⟨⟨[], open_.split, fun _ => rfl⟩, fun e out => by cases out⟩
  | threw e call event rest outer at_ =>
    obtain ⟨others, was, now⟩ := perm_flatten_others at_
    have open_ := kept.opened _ (was.symm.subset List.mem_cons_self)
    exact kept.ends was (now _) rfl rfl rfl rfl
      ⟨⟨rest, open_.split, fun out => by cases out⟩, fun _ _ => open_.begun rfl⟩

/-- The log, the snapshots and the record of ends only grow. -/
structure Grows (d d' : Dispatch α) : Prop where
  log : d.publisher.log <+: d'.publisher.log
  snapshots : d.snapshots <+: d'.snapshots
  ended : d.ended <+: d'.ended

theorem Steps.grows {d d' : Dispatch α} {i : Nat} {action : Act α} (steps : Steps d i action d') :
    Grows d d' := by
  cases steps with
  | published event stack at_ =>
    exact ⟨List.prefix_append _ _, List.prefix_append _ _, List.prefix_rfl⟩
  | returned call event outer at_ => exact ⟨List.prefix_rfl, List.prefix_rfl, List.prefix_append _ _⟩
  | threw e call event rest outer at_ =>
    exact ⟨List.prefix_rfl, List.prefix_rfl, List.prefix_append _ _⟩
  | _ => exact ⟨List.prefix_rfl, List.prefix_rfl, List.prefix_rfl⟩

/-! ### A publish left by an exception -/

/-- A publish that `s` threw out of: it has told `before` and then `s`, and not `rest`. -/
structure LeftBy (d : Dispatch α) (call : Nat) (e : Exception) (event : DomainEvent)
    (before : List α) (s : α) (rest : List α) : Prop where
  ended : (call, .error e) ∈ d.ended
  logged : d.publisher.log[call]? = some event
  snapshot : d.snapshots[call]? = some (before ++ s :: rest)
  told : d.told call = before ++ [s]

section Leaves

variable {d d' : Dispatch α} {i : Nat}

/-- The exception that ends the only publish of a thread comes out of the callback it is in,
that of the last subscriber it has told. -/
theorem Kept.leaves (kept : Kept d) {e : Exception} (steps : Steps d i (.throws e) d')
    (left : d'.threads[i]? = some []) : ∃ call event before s rest,
      d.threads[i]? = some [⟨call, event, rest, true⟩] ∧ d.told call = before ++ [s] ∧
        LeftBy d' call e event before s rest := by
  cases steps with
  | threw e call event rest outer at_ =>
    have inside := (List.getElem?_eq_some_iff.1 at_).1
    obtain rfl : outer = [] := Option.some.inj ((List.getElem?_set_self inside).symm.trans left)
    have open_ : Opened d ⟨call, event, rest, true⟩ :=
      kept.opened _ (List.mem_flatten.2 ⟨_, List.mem_of_getElem? at_, List.mem_cons_self⟩)
    obtain ⟨before, s, told⟩ := (List.eq_nil_or_concat _).resolve_left (open_.begun rfl)
    rw [List.concat_eq_append] at told
    have split := open_.split
    rw [told, List.append_assoc] at split
    exact ⟨call, event, before, s, rest, at_, told, by simp, open_.logged, split, told⟩

/-- **Then it tells nobody any more.** -/
theorem LeftBy.step {action : Act α} {call : Nat} {e : Exception} {event : DomainEvent}
    {before : List α} {s : α} {rest : List α} (left : LeftBy d call e event before s rest)
    (kept : Kept d) (steps : Steps d i action d') : LeftBy d' call e event before s rest := by
  have grown := steps.grows
  refine ⟨grown.ended.subset left.ended, getElem?_grown grown.log left.logged,
    getElem?_grown grown.snapshots left.snapshot, ?_⟩
  rw [← left.told]
  cases steps with
  | tells other event' s' rest' outer at_ =>
    obtain ⟨others, was, -⟩ := perm_flatten_others at_
    have apart : other ≠ call := Ne.symm ((kept.alone was).2 _ left.ended)
    rw [told_snoc d { d with
      threads := d.threads.set i (⟨other, event', rest', true⟩ :: outer)
      deliveries := d.deliveries ++ [⟨other, s', event'⟩] } rfl, if_neg apart, List.append_nil]
  | _ => rfl

end Leaves

theorem kept_run {n : Nat} {sched : List (Nat × Act α)} {d : Dispatch α}
    (ran : exec step (init n) sched = some d) : Kept d :=
  exec_induct Kept (fun _ _ _ kept stepped => kept.step (step_steps stepped)) (kept_init n) ran

/-! ## Each event to each subscriber, once -/

/-- What a publisher has delivered. -/
structure Delivers (d : Dispatch α) : Prop where
  /-- One snapshot for each event of the log. -/
  paired : d.snapshots.length = d.publisher.log.length
  /-- A subscriber is called with the event its publish has logged. -/
  faithful : ∀ e ∈ d.deliveries, d.publisher.log[e.call]? = some e.event
  /-- Subscribers are called in the order of the snapshot, none of them again. -/
  ordered : ∀ call snapshot, d.snapshots[call]? = some snapshot → d.told call <+: snapshot
  /-- A publish ends at most once. -/
  once : (d.ended.map Prod.fst).Nodup
  /-- A publish that returned has told its whole snapshot. -/
  returned : ∀ call, (call, .ok ()) ∈ d.ended → d.snapshots[call]? = some (d.told call)
  /-- A publish that threw has told someone. -/
  threw : ∀ call e, (call, .error e) ∈ d.ended → d.told call ≠ []

/-- Every publish there was is under way or has ended. -/
theorem Kept.accounted {d : Dispatch α} (kept : Kept d) {call : Nat}
    (inside : call < d.snapshots.length) :
    (∃ frame ∈ d.frames, frame.call = call) ∨ ∃ out, (call, out) ∈ d.ended := by
  have placed := kept.placed call
  rw [if_pos inside] at placed
  by_cases open_ : d.frames.countP (fun frame => frame.call == call) = 0
  · obtain ⟨⟨k, out⟩, member, mine⟩ :=
      List.countP_pos_iff.1 (show 0 < d.ended.countP (fun e => e.1 == call) by omega)
    have same : k = call := by simpa using mine
    subst same
    exact .inr ⟨out, member⟩
  · obtain ⟨frame, member, mine⟩ := List.countP_pos_iff.1 (Nat.pos_of_ne_zero open_)
    exact .inl ⟨frame, member, by simpa using mine⟩

theorem Kept.delivers {d : Dispatch α} (kept : Kept d) : Delivers d where
  paired := kept.paired
  faithful := kept.sent
  ordered call snapshot at_ := by
    rcases kept.accounted (List.getElem?_eq_some_iff.1 at_).1 with
      ⟨frame, member, rfl⟩ | ⟨out, member⟩
    · have split := (kept.opened frame member).split
      cases at_.symm.trans split
      exact List.prefix_append _ _
    · obtain ⟨rest, split, -⟩ := (kept.settled call out member).split
      cases at_.symm.trans split
      exact List.prefix_append _ _
  once := by
    rw [List.nodup_iff_count_le_one]
    intro call
    have placed := kept.placed call
    have counted : (d.ended.map Prod.fst).count call = d.ended.countP (fun e => e.1 == call) := by
      rw [List.count, List.countP_map]
      rfl
    split at placed <;> omega
  returned call member := by
    obtain ⟨rest, split, whole⟩ := (kept.settled call _ member).split
    rw [whole rfl, List.append_nil] at split
    exact split
  threw call e member := (kept.settled call _ member).begun e rfl

theorem run_grows {d d' : Dispatch α} {sched : List (Nat × Act α)}
    (ran : exec step d sched = some d') : Grows d d' := by
  refine exec_induct (Grows d) (fun _ _ _ before stepped => ?_)
    ⟨List.prefix_rfl, List.prefix_rfl, List.prefix_rfl⟩ ran
  have more := (step_steps stepped).grows
  exact ⟨before.log.trans more.log, before.snapshots.trans more.snapshots,
    before.ended.trans more.ended⟩

theorem Steps.logs {d d' : Dispatch α} {i : Nat} {event : DomainEvent}
    (steps : Steps d i (.publish event) d') :
    d'.publisher.log = d.publisher.log ++ [event] ∧
      d'.snapshots = d.snapshots ++ [d.publisher.subscribers] := by
  cases steps
  exact ⟨rfl, rfl⟩

section Runs

variable {n : Nat} {sched : List (Nat × Act α)} {d : Dispatch α}

/-- **Each event goes to the subscribers there were when it was logged, in their order and
to each once**, whatever the callbacks and the other threads do meanwhile: to all of them if
`publish` returned, to those up to the one that threw if not. -/
theorem publisher_delivers (ran : exec step (init n) sched = some d) :
    Delivers d ∧ ∀ early i event late, sched = early ++ (i, .publish event) :: late →
      ∃ before, exec step (init n) early = some before ∧
        d.publisher.log[before.publisher.log.length]? = some event ∧
        d.snapshots[before.publisher.log.length]? = some before.publisher.subscribers := by
  refine ⟨(kept_run ran).delivers, fun early i event late split => ?_⟩
  rw [split] at ran
  obtain ⟨before, ranBefore, rest⟩ := exec_append.1 ran
  obtain ⟨after, stepped, rest⟩ := exec_cons.1 rest
  obtain ⟨log, snapshots⟩ := (step_steps stepped).logs
  have more := run_grows rest
  refine ⟨before, ranBefore, getElem?_grown more.log ?_, getElem?_grown more.snapshots ?_⟩
  · rw [log]
    exact List.getElem?_concat_length
  · rw [snapshots, ← (kept_run ranBefore).paired]
    exact List.getElem?_concat_length

/-- Two subscribers, the first of which publishes an event of its own when told of the first:
the second is told of that one before. -/
def nested : List (Nat × Act Nat) :=
  [(0, .subscribe 1), (0, .subscribe 2), (0, .publish ⟨"PaymentCaptured", "txn_1", "", 0⟩), (0, .next),
    (0, .publish ⟨"PaymentNoted", "txn_1", "", 0⟩), (0, .next), (0, .returns), (0, .next),
    (0, .returns), (0, .next), (0, .returns), (0, .next), (0, .returns), (0, .next)]

theorem publisher_delivers_nested : ∃ d : Dispatch Nat, exec step (init 1) nested = some d ∧
    d.deliveries.map (fun e => (e.call, e.subscriber)) = [(0, 1), (1, 1), (1, 2), (0, 2)] ∧
    Delivers d := by
  have ran : (exec step (init 1 : Dispatch Nat) nested).any (fun d => decide
      (d.deliveries.map (fun e => (e.call, e.subscriber)) = [(0, 1), (1, 1), (1, 2), (0, 2)])) =
        true := by decide
  obtain ⟨d, run, found⟩ := exec_any ran
  exact ⟨d, run, of_decide_eq_true found, (publisher_delivers run).1⟩

/-! ## In which order -/

/-- What has been told of so far is told of in order, and only the last publish is under way. -/
structure InOrder (d : Dispatch α) : Prop where
  sorted : (d.deliveries.map Delivery.call).Pairwise (· ≤ ·)
  last : ∀ frame ∈ d.frames, frame.call + 1 = d.snapshots.length

/-- The step begins no publish while another is under way. -/
def NoOverlap (d : Dispatch α) (label : Nat × Act α) : Prop :=
  label.2.publishes = true → d.frames = []

instance [DecidableEq α] (d : Dispatch α) (label : Nat × Act α) : Decidable (NoOverlap d label) :=
  inferInstanceAs (Decidable (_ → _))

theorem InOrder.moves {d d' : Dispatch α} (inOrder : InOrder d) {frame : Frame α}
    {others others' : List (Frame α)} (was : d.frames.Perm (frame :: others))
    (now : d'.frames.Perm others') (from_ : ∀ f ∈ others', f.call = frame.call ∨ f ∈ others)
    (deliveries : d'.deliveries = d.deliveries) (snapshots : d'.snapshots = d.snapshots) :
    InOrder d' where
  sorted := by rw [deliveries]; exact inOrder.sorted
  last f member := by
    rw [snapshots]
    rcases from_ f (now.subset member) with same | there
    · rw [same]
      exact inOrder.last frame (was.symm.subset List.mem_cons_self)
    · exact inOrder.last f (was.symm.subset (List.mem_cons_of_mem _ there))

theorem InOrder.step {d d' : Dispatch α} (inOrder : InOrder d) (kept : Kept d)
    {i : Nat} {action : Act α} (alone : action.publishes = true → d.frames = [])
    (steps : Steps d i action d') :
    InOrder d' := by
  cases steps with
  | subscribed s => exact ⟨inOrder.sorted, inOrder.last⟩
  | published event stack at_ =>
    obtain ⟨others, was, now⟩ := perm_flatten_others at_
    have opened := (now (⟨d.snapshots.length, event, d.publisher.subscribers, false⟩ :: stack)).trans
      (List.Perm.cons _ was.symm)
    refine ⟨inOrder.sorted, fun frame member => ?_⟩
    rcases List.mem_cons.1 (opened.subset member) with rfl | there
    · simp
    · have nobody : d.threads.flatten = [] := alone rfl
      rw [nobody] at there
      cases there
  | tells call event s rest outer at_ =>
    obtain ⟨others, was, now⟩ := perm_flatten_others at_
    have last := inOrder.last _ (was.symm.subset List.mem_cons_self)
    have moved : InOrder { d with threads := d.threads.set i (⟨call, event, rest, true⟩ :: outer) } :=
      inOrder.moves was (now _) (fun f member => by
        rcases List.mem_cons.1 member with rfl | there
        · exact .inl rfl
        · exact .inr there) rfl rfl
    refine ⟨?_, moved.last⟩
    simp only [List.map_append, List.map_cons, List.map_nil]
    refine List.pairwise_append.2 ⟨inOrder.sorted, List.pairwise_singleton _ _, ?_⟩
    intro earlier member now' single
    obtain ⟨e, there, rfl⟩ := List.mem_map.1 member
    rw [List.mem_singleton] at single
    subst single
    have inside := (List.getElem?_eq_some_iff.1 (kept.sent e there)).1
    have paired := kept.paired
    simp only at last
    omega
  | comesBack call event rest outer at_ =>
    obtain ⟨others, was, now⟩ := perm_flatten_others at_
    exact inOrder.moves was (now _) (fun f member => by
      rcases List.mem_cons.1 member with rfl | there
      · exact .inl rfl
      · exact .inr there) rfl rfl
  | returned call event outer at_ =>
    obtain ⟨others, was, now⟩ := perm_flatten_others at_
    exact inOrder.moves was (now _) (fun f member => .inr member) rfl rfl
  | threw e call event rest outer at_ =>
    obtain ⟨others, was, now⟩ := perm_flatten_others at_
    exact inOrder.moves was (now _) (fun f member => .inr member) rfl rfl

/-- **Publishes that do not overlap are told of in the order of the log**: no subscriber
hears of a later event before an earlier one. -/
theorem told_in_order (ran : exec step (init n) sched = some d)
    (along : Along step NoOverlap (init n) sched) :
    (d.deliveries.map Delivery.call).Pairwise (· ≤ ·) := by
  have start : InOrder (init n : Dispatch α) :=
    ⟨List.Pairwise.nil, fun frame member => by
      simp [init, frames, List.flatten_replicate_nil] at member⟩
  exact (along.induct InOrder (fun _ _ _ _ ranTo inOrder alone stepped =>
    inOrder.step (kept_run ranTo) alone (step_steps stepped)) start ran).sorted

/-- Two events, one after the other, to a subscriber that throws at the first. -/
theorem told_in_order_thrown : ∃ d : Dispatch Nat,
    exec step (init 1) [(0, .subscribe 1), (0, .publish ⟨"PaymentCaptured", "txn_1", "", 0⟩),
      (0, .next), (0, .throws (.foreign "subscriber")), (0, .publish ⟨"PaymentFailed", "txn_2", "", 0⟩),
      (0, .next)] = some d ∧
    d.deliveries.map Delivery.call = [0, 1] ∧ (d.deliveries.map Delivery.call).Pairwise (· ≤ ·) := by
  have ran : (exec (guarded step NoOverlap) (init 1 : Dispatch Nat)
      [(0, .subscribe 1), (0, .publish ⟨"PaymentCaptured", "txn_1", "", 0⟩),
      (0, .next), (0, .throws (.foreign "subscriber")), (0, .publish ⟨"PaymentFailed", "txn_2", "", 0⟩),
      (0, .next)]).any (fun d => decide (d.deliveries.map Delivery.call = [0, 1])) = true := by
    decide
  obtain ⟨d, run, found⟩ := exec_any ran
  obtain ⟨run, along⟩ := exec_guarded run
  exact ⟨d, run, of_decide_eq_true found, told_in_order run along⟩

end Runs

end Dispatch

end PaymentSystem.Adapters
