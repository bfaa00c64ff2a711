/-
# PaymentSystem.Service.Publishing -- payments, and who is told of them

`PaymentService::publish` hands its event to the publisher, which calls the subscribers
(`PaymentSystem.Adapters.EventPublisher`).  So far a call knew its subscribers as one answer,
`Env.subscribers`.  Here the calls of `pay` and the threads of the publisher run together: a
call that publishes opens a publish there, goes through it callback by callback while the
other threads go on, and continues with how that ended.  Callbacks may publish and subscribe
but do not call the service; more threads than the calls may use the publisher.

* `published_refines`: what the service does is a run of the calls by themselves, in which
  each call's subscribers answer as the callbacks of its publish have.  So what holds of all
  those runs, whatever the subscribers answer, holds here.
* `payments_told`: a call that returned from its own payment has told all subscribers there
  were when its event was logged, in order, each once; one that a subscriber threw out of has
  told those up to that one.
-/
import PaymentSystem.Adapters.EventPublisher
import PaymentSystem.Service.Locals

namespace PaymentSystem.Service

open PaymentSystem.Common
open PaymentSystem.Domain
open PaymentSystem.Patterns
open PaymentSystem.Adapters
open PaymentSystem.Adapters.Dispatch (getElem?_grown)
open PaymentSystem.Theory.Runs
open PaymentSystem.Theory.Threads

set_option autoImplicit false

/-! ## Calls and publisher together -/

/-- The calls of `pay` over a service, the publisher, and how the callbacks of each call have
answered.  Thread `i` of the publisher is call `i`, as long as there is one. -/
structure Published (α : Type) where
  sys : System
  hub : Dispatch α
  heard : List (Nat × Except Exception Unit)

namespace Published

variable {α : Type}

inductive Act (α : Type) where
  /-- Call `i` takes a step of its own. -/
  | call (i : Nat)
  /-- Thread `i` acts on the publisher. -/
  | hub (i : Nat) (action : Dispatch.Act α)

def init (service : PaymentService) (calls : List Call) (n : Nat) : Published α :=
  ⟨System.init service calls, Dispatch.init (calls.length + n), []⟩

/-- The publish of call `i` is through. -/
def through (hub : Dispatch α) (i : Nat) : Bool := hub.threads[i]?.any List.isEmpty

def step (chain : ValidationChain) (w : Published α) : Act α → Option (Published α)
  | .call i =>
    match w.sys.threads[i]? with
    | none => none
    | some t =>
      match t.pc with
      | .publish txn type _ =>
        (w.hub.step (i, .publish (eventOf txn type))).bind fun hub =>
          (System.step chain w.sys i).map fun sys => { w with sys, hub }
      -- the call goes on when its publish is through
      | .notify _ _ _ => none
      | _ => (System.step chain w.sys i).map fun sys => { w with sys }
  | .hub i action =>
    match w.sys.threads[i]? with
    | none => (w.hub.step (i, action)).map fun hub => { w with hub }
    | some t =>
      match t.pc with
      | .notify txn _ res =>
        (w.hub.step (i, action)).map fun hub =>
          if through hub i then
            ⟨{ w.sys with
                threads := w.sys.threads.set i
                  ⟨t.call, .unlock txn (action.outcome.map fun _ => res)⟩ },
              hub, w.heard ++ [(i, action.outcome)]⟩
          else { w with hub }
      | _ => none

/-- What a step can be: a call's own, the opening of its publish, a client's use of the
publisher, the going on of a call's publish, or its end. -/
inductive Steps (chain : ValidationChain) (w : Published α) : Act α → Published α → Prop where
  | moves (i : Nat) (t : Thread) (sys : System) (at_ : w.sys.threads[i]? = some t)
      (quiet : ∀ txn type res, t.pc ≠ .publish txn type res ∧ t.pc ≠ .notify txn type res)
      (stepped : System.step chain w.sys i = some sys) : Steps chain w (.call i) { w with sys }
  | publishes (i : Nat) (c : Call) (txn : Transaction) (type : String) (res : Result Transaction)
      (sys : System) (hub : Dispatch α) (at_ : w.sys.threads[i]? = some ⟨c, .publish txn type res⟩)
      (opened : w.hub.step (i, .publish (eventOf txn type)) = some hub)
      (stepped : System.step chain w.sys i = some sys) : Steps chain w (.call i) { w with sys, hub }
  | client (i : Nat) (action : Dispatch.Act α) (hub : Dispatch α)
      (nobody : w.sys.threads[i]? = none) (acted : w.hub.step (i, action) = some hub) :
      Steps chain w (.hub i action) { w with hub }
  | goesOn (i : Nat) (action : Dispatch.Act α) (c : Call) (txn : Transaction) (type : String)
      (res : Result Transaction) (hub : Dispatch α)
      (at_ : w.sys.threads[i]? = some ⟨c, .notify txn type res⟩)
      (acted : w.hub.step (i, action) = some hub) (open_ : through hub i = false) :
      Steps chain w (.hub i action) { w with hub }
  | answered (i : Nat) (action : Dispatch.Act α) (c : Call) (txn : Transaction) (type : String)
      (res : Result Transaction) (hub : Dispatch α)
      (at_ : w.sys.threads[i]? = some ⟨c, .notify txn type res⟩)
      (acted : w.hub.step (i, action) = some hub) (over_ : through hub i = true) :
      Steps chain w (.hub i action)
        ⟨{ w.sys with
            threads := w.sys.threads.set i ⟨c, .unlock txn (action.outcome.map fun _ => res)⟩ },
          hub, w.heard ++ [(i, action.outcome)]⟩

theorem step_steps {chain : ValidationChain} {w w' : Published α} {label : Act α}
    (stepped : step chain w label = some w') : Steps chain w label w' := by
  cases label with
  | call i =>
    simp only [step] at stepped
    split at stepped
    · cases stepped
    · rename_i t at_
      obtain ⟨c, pc⟩ := t
      simp only at stepped
      split at stepped
      · obtain ⟨hub, opened, moved⟩ := Option.bind_eq_some_iff.1 stepped
        obtain ⟨sys, went, rfl⟩ := Option.map_eq_some_iff.1 moved
        exact .publishes i c _ _ _ sys hub at_ opened went
      · cases stepped
      · rename_i noPublish noNotify
        obtain ⟨sys, went, rfl⟩ := Option.map_eq_some_iff.1 stepped
        exact .moves i _ sys at_ (fun txn type res => ⟨noPublish txn type res, noNotify txn type res⟩)
          went
  | hub i action =>
    simp only [step] at stepped
    split at stepped
    · rename_i nobody
      obtain ⟨hub, acted, rfl⟩ := Option.map_eq_some_iff.1 stepped
      exact .client i action hub nobody acted
    · rename_i t at_
      obtain ⟨c, pc⟩ := t
      simp only at stepped
      split at stepped
      · obtain ⟨hub, acted, rfl⟩ := Option.map_eq_some_iff.1 stepped
        split
        · rename_i over_
          exact .answered i action c _ _ _ hub at_ acted over_
        · rename_i open_
          exact .goesOn i action c _ _ _ hub at_ acted (Bool.eq_false_iff.2 open_)
      · cases stepped

/-! ## The service by itself -/

end Published

/-- The call with subscribers that answer `out`. -/
def Call.hearing (out : Except Exception Unit) (c : Call) : Call :=
  { c with env := { c.env with subscribers := fun _ _ => out } }

/-- Each call with subscribers that answer what `f` says. -/
def hearing (f : Nat → Except Exception Unit) (calls : List Call) : List Call :=
  calls.mapIdx fun i c => c.hearing (f i)

def System.hearing (f : Nat → Except Exception Unit) (sys : System) : System :=
  { sys with threads := sys.threads.mapIdx fun i t => ⟨t.call.hearing (f i), t.pc⟩ }

section Hearing

variable {chain : ValidationChain} {f : Nat → Except Exception Unit} {sys sys' : System} {i : Nat}

theorem init_hearing (service : PaymentService) (calls : List Call) :
    System.init service (hearing f calls) = (System.init service calls).hearing f := by
  refine congrArg (System.mk service) (List.ext_getElem? fun i => ?_)
  simp only [hearing, System.init, List.getElem?_map, List.getElem?_mapIdx]
  cases calls[i]? with
  | none => rfl
  | some c => rfl

/-- Only the step that notifies hears the subscribers. -/
theorem next_hearing (c : Call) (out : Except Exception Unit) (s : PaymentService) {pc : Pc}
    (quiet : ∀ txn type res, pc ≠ .notify txn type res) :
    next chain (c.hearing out) s pc = next chain c s pc := by
  cases pc with
  | notify txn type res => exact absurd rfl (quiet txn type res)
  | _ => rfl

theorem getElem?_hearing {t : Thread} (at_ : sys.threads[i]? = some t) :
    (sys.hearing f).threads[i]? = some ⟨t.call.hearing (f i), t.pc⟩ := by
  simp [System.hearing, at_]

theorem set_hearing (c : Call) (pc : Pc) :
    (sys.hearing f).threads.set i ⟨c.hearing (f i), pc⟩ =
      ({ sys with threads := sys.threads.set i ⟨c, pc⟩ }.hearing f).threads := by
  simp [System.hearing]

theorem step_hearing {t : Thread} (at_ : sys.threads[i]? = some t)
    (quiet : ∀ txn type res, t.pc ≠ .notify txn type res)
    (stepped : System.step chain sys i = some sys') :
    System.step chain (sys.hearing f) i = some (sys'.hearing f) := by
  simp only [System.step, at_] at stepped
  simp only [System.step, getElem?_hearing at_]
  obtain ⟨⟨s', pc'⟩, went, rfl⟩ := Option.map_eq_some_iff.1 stepped
  rw [next_hearing t.call (f i) _ quiet]
  show (next chain t.call sys.service t.pc).map _ = _
  rw [went, Option.map_some, set_hearing]
  rfl

theorem notify_hearing {c : Call} {txn : Transaction} {type : String} {res : Result Transaction}
    (at_ : sys.threads[i]? = some ⟨c, .notify txn type res⟩) :
    System.step chain (sys.hearing f) i =
      some ({ sys with
        threads := sys.threads.set i ⟨c, .unlock txn ((f i).map fun _ => res)⟩ }.hearing f) := by
  simp only [System.step, getElem?_hearing at_]
  simp only [next, Option.map_some, told, Call.hearing]
  exact congrArg some (congrArg (System.mk _) (set_hearing c _))

end Hearing

namespace Published

variable {α : Type} {chain : ValidationChain} {service : PaymentService} {calls : List Call}
  {n : Nat}

/-- The subscribers of each call answer as the callbacks of its publish have. -/
def Hears (w : Published α) (f : Nat → Except Exception Unit) : Prop :=
  ∀ i out, (i, out) ∈ w.heard → f i = out

/-- Every step is a step of one call by itself, or none. -/
theorem Steps.hearing {w w' : Published α} {label : Act α} (steps : Steps chain w label w')
    {f : Nat → Except Exception Unit} (hears : Hears w' f) :
    Hears w f ∧
      ∃ order, exec (System.step chain) (w.sys.hearing f) order = some (w'.sys.hearing f) := by
  cases steps with
  | moves i t sys at_ quiet stepped =>
    have went := step_hearing (f := f) at_ (fun txn type res => (quiet txn type res).2) stepped
    exact ⟨hears, [i], exec_cons.2 ⟨_, went, rfl⟩⟩
  | publishes i c txn type res sys hub at_ opened stepped =>
    have went := step_hearing (f := f) at_ (fun _ _ _ same => by cases same) stepped
    exact ⟨hears, [i], exec_cons.2 ⟨_, went, rfl⟩⟩
  | client i action hub nobody acted => exact ⟨hears, [], rfl⟩
  | goesOn i action c txn type res hub at_ acted open_ => exact ⟨hears, [], rfl⟩
  | answered i action c txn type res hub at_ acted over_ =>
    have answer : f i = action.outcome :=
      hears i action.outcome (List.mem_append_right _ (List.mem_singleton.2 rfl))
    have went : System.step chain (w.sys.hearing f) i = _ := notify_hearing at_
    rw [answer] at went
    exact ⟨fun j out before => hears j out (List.mem_append_left _ before), [i],
      exec_cons.2 ⟨_, went, rfl⟩⟩

/-- **What the service does is a run of its calls**, with subscribers that answer what the
callbacks of each publish have. -/
theorem run_hearing {sched : List (Act α)} {w : Published α}
    (ran : exec (step chain) (init service calls n) sched = some w)
    {f : Nat → Except Exception Unit} (hears : Hears w f) :
    ∃ order, Reaches chain service (Service.hearing f calls) order (w.sys.hearing f) := by
  have all := exec_induct (fun w : Published α => ∀ f, Hears w f →
      ∃ order, Reaches chain service (Service.hearing f calls) order (w.sys.hearing f))
    (fun u label v before stepped f hears => ?_) (fun f _ => ⟨[], ?_⟩) ran
  · exact all f hears
  · obtain ⟨earlier, later, went⟩ := (step_steps stepped).hearing hears
    obtain ⟨order, reached⟩ := before f earlier
    exact ⟨order ++ later, exec_append.2 ⟨_, reached, went⟩⟩
  · exact congrArg some (init_hearing service calls)

/-! ## The publish of a call -/

/-- The event that goes with a transaction and an answer. -/
def Announced (txn : Transaction) (type : String) (res : Result Transaction) : Prop :=
  txn.status = .failed ∧ type = "PaymentFailed" ∧ (∃ err, res = .fail err) ∨
    txn.status = .captured ∧ type = "PaymentCaptured" ∧ res = .ok txn

theorem announced {c : Call} {txn : Transaction} {type : String} {res : Result Transaction}
    (closing : Closing chain c txn type res) : Announced txn type res := by
  rcases closing.ends with ⟨is, rest⟩ | ⟨is, rest⟩
  · exact .inl ⟨by rw [is]; rfl, rest⟩
  · exact .inr ⟨by rw [is]; rfl, rest⟩

/-- The call has published nothing. -/
def Silent (w : Published α) (i : Nat) : Prop :=
  w.hub.threads[i]? = some [] ∧ ∀ out, (i, out) ∉ w.heard

/-- The call is through with its publish, if it had one, and has gone on with how that ended. -/
structure Answered (w : Published α) (i : Nat) (txn : Transaction) (out : Outcome) : Prop where
  left : w.hub.threads[i]? = some []
  heard : ∀ res, out = .ok res → ∃ answer, (i, answer) ∈ w.heard
  published : ∀ answer, (i, answer) ∈ w.heard → ∃ place type res,
    Announced txn type res ∧ (place, answer) ∈ w.hub.ended ∧
      w.hub.publisher.log[place]? = some (eventOf txn type) ∧ out = answer.map fun _ => res

/-- Where a call stands with the publisher, at each program point. -/
def Attends (w : Published α) (i : Nat) : Pc → Prop
  | .notify txn type _ =>
    (∃ inner frame, w.hub.threads[i]? = some (inner ++ [frame]) ∧ frame.event = eventOf txn type) ∧
      ∀ out, (i, out) ∉ w.heard
  | .unlock txn out | .finished txn out => Answered w i txn out
  | _ => Silent w i

/-- Thread `i` stands where it stood, and the records have only grown. -/
structure Around (w w' : Published α) (i : Nat) : Prop where
  threads : w'.hub.threads[i]? = w.hub.threads[i]?
  heard : ∀ out, (i, out) ∈ w'.heard ↔ (i, out) ∈ w.heard
  grows : w.hub.Grows w'.hub

theorem Answered.around {w w' : Published α} {i : Nat} {txn : Transaction} {out : Outcome}
    (answered : Answered w i txn out) (around : Around w w' i) : Answered w' i txn out where
  left := around.threads.trans answered.left
  heard res ok := by
    obtain ⟨answer, member⟩ := answered.heard res ok
    exact ⟨answer, (around.heard answer).2 member⟩
  published answer member := by
    obtain ⟨place, type, res, announces, ended, logged, same⟩ :=
      answered.published answer ((around.heard answer).1 member)
    exact ⟨place, type, res, announces, around.grows.ended.subset ended,
      getElem?_grown around.grows.log logged, same⟩

theorem Attends.around {w w' : Published α} {i : Nat} {pc : Pc} (attends : Attends w i pc)
    (around : Around w w' i) : Attends w' i pc := by
  have quiet (silent : Silent w i) : Silent w' i :=
    ⟨around.threads.trans silent.1, fun out member => silent.2 out ((around.heard out).1 member)⟩
  cases pc with
  | notify txn type res =>
    obtain ⟨⟨inner, frame, stands, event⟩, nothing⟩ := attends
    exact ⟨⟨inner, frame, around.threads.trans stands, event⟩, fun out member =>
      nothing out ((around.heard out).1 member)⟩
  | unlock txn out => exact Answered.around attends around
  | finished txn out => exact Answered.around attends around
  | _ => exact quiet attends

/-- A step of the call itself, its publish apart, leaves the publisher alone. -/
theorem Attends.moves {w : Published α} {i : Nat} {c : Call} {s s' : PaymentService} {pc pc' : Pc}
    (attends : Attends w i pc) (fired : Fires chain c s pc s' pc')
    (quiet : ∀ txn type res, pc ≠ .publish txn type res ∧ pc ≠ .notify txn type res) :
    Attends w i pc' := by
  cases fired with
  | published txn type res => exact absurd rfl (quiet txn type res).1
  | notified txn type res => exact absurd rfl (quiet txn type res).2
  | raised txn e threw =>
    obtain ⟨left, nothing⟩ := attends
    exact ⟨left, fun res ok => (by cases ok), fun answer member => absurd member (nothing answer)⟩
  | _ => exact attends

theorem through_iff {hub : Dispatch α} {i : Nat} {stack : List (Frame α)}
    (at_ : hub.threads[i]? = some stack) : through hub i = true ↔ stack = [] := by
  simp [through, at_]

/-- What the calls and the publisher keep to. -/
structure Kept (service : PaymentService) (w : Published α) : Prop where
  hub : w.hub.Kept
  attends : ∀ i t, w.sys.threads[i]? = some t → Attends w i t.pc
  served : ∀ i answer, (i, answer) ∈ w.heard → ∃ t, w.sys.threads[i]? = some t
  logged : ∃ events, w.sys.service.events = service.events ++ events ∧
    events.Sublist w.hub.publisher.log

/-- What one call and its thread do leaves the other calls where they stand. -/
theorem around_other {w w' : Published α} {i j : Nat} {action : Dispatch.Act α}
    (acted : w.hub.step (i, action) = some w'.hub)
    (heard : w'.heard = w.heard ∨ ∃ answer, w'.heard = w.heard ++ [(i, answer)]) (other : j ≠ i) :
    Around w w' j where
  threads := (Dispatch.step_steps acted).elsewhere other
  heard out := by
    rcases heard with same | ⟨answer, more⟩
    · rw [same]
    · rw [more, List.mem_append, List.mem_singleton]
      constructor
      · rintro (before | here)
        · exact before
        · exact absurd (congrArg Prod.fst here) other
      · exact .inl
  grows := (Dispatch.step_steps acted).grows

/-- Call `i` has moved and stands well; the others stand where they stood. -/
theorem Kept.attends_set {w w' : Published α} {i : Nat} {t' : Thread} (kept : Kept service w)
    (threads : w'.sys.threads = w.sys.threads.set i t') (own : Attends w' i t'.pc)
    (others : ∀ j, j ≠ i → Around w w' j) :
    ∀ j t, w'.sys.threads[j]? = some t → Attends w' j t.pc := by
  intro j t there
  rw [threads] at there
  rcases at_set there with ⟨rfl, rfl⟩ | ⟨other, before⟩
  · exact own
  · exact (kept.attends j t before).around (others j other)

theorem getElem?_set_some {l : List Thread} {i j : Nat} {t : Thread} (t' : Thread)
    (there : l[j]? = some t) : ∃ u, (l.set i t')[j]? = some u := by
  have inside : j < (l.set i t').length := by
    rw [List.length_set]
    exact (List.getElem?_eq_some_iff.1 there).1
  exact ⟨_, List.getElem?_eq_getElem inside⟩

theorem Kept.step {w w' : Published α} {label : Act α} (kept : Kept service w)
    (closing : ∀ (i : Nat) (t : Thread) txn type res, w.sys.threads[i]? = some t →
      t.pc = .notify txn type res → Closing chain t.call txn type res)
    (steps : Steps chain w label w') : Kept service w' := by
  obtain ⟨events, same, logged⟩ := kept.logged
  cases steps with
  | moves i t sys at_ quiet stepped =>
    obtain ⟨c, pc, pc', there, fired, threads⟩ := step_fires stepped
    cases at_.symm.trans there
    have still (j : Nat) : Around w { w with sys } j :=
      ⟨rfl, fun _ => Iff.rfl, List.prefix_rfl, List.prefix_rfl, List.prefix_rfl⟩
    have own : Attends { w with sys } i pc' :=
      ((kept.attends i _ at_).moves fired quiet).around (still i)
    refine ⟨kept.hub, kept.attends_set threads own fun j _ => still j, fun j answer member => ?_,
      events, ?_, logged⟩
    · obtain ⟨u, there⟩ := kept.served j answer member
      rw [show ({ w with sys } : Published α).sys.threads = _ from threads]
      exact getElem?_set_some _ there
    · rcases fired.events with unchanged | ⟨txn, type, res, publishing, -⟩
      · exact unchanged.trans same
      · exact absurd publishing (quiet txn type res).1
  | publishes i c txn type res sys hub at_ opened stepped =>
    obtain ⟨c', pc, pc', there, fired, threads⟩ := step_fires stepped
    cases at_.symm.trans there
    obtain ⟨after, threads'⟩ := sys
    cases fired
    obtain ⟨empty, nothing⟩ : Silent w i := kept.attends i _ at_
    obtain ⟨hub', opened', frame, stands, event⟩ := Dispatch.step_opens empty (eventOf txn type)
    cases opened.symm.trans opened'
    refine ⟨kept.hub.step (Dispatch.step_steps opened),
      kept.attends_set threads ⟨⟨[], frame, stands, event⟩, nothing⟩ fun j other =>
        around_other opened (.inl rfl) other, fun j answer member => ?_,
      events ++ [eventOf txn type], ?_, ?_⟩
    · obtain ⟨u, there⟩ := kept.served j answer member
      rw [show threads' = _ from threads]
      exact getElem?_set_some _ there
    · rw [← List.append_assoc, ← same]
    · rw [show hub.publisher.log = _ from (Dispatch.step_steps opened).logs.1]
      exact logged.append (List.Sublist.refl _)
  | client i action hub nobody acted =>
    have grown := (Dispatch.step_steps acted).grows
    refine ⟨kept.hub.step (Dispatch.step_steps acted), fun j t there => ?_, kept.served, events, same,
      logged.trans grown.log.sublist⟩
    have other : j ≠ i := fun here => by
      subst here
      cases nobody.symm.trans there
    exact (kept.attends j t there).around (around_other acted (.inl rfl) other)
  | goesOn i action c txn type res hub at_ acted open_ =>
    have grown := (Dispatch.step_steps acted).grows
    refine ⟨kept.hub.step (Dispatch.step_steps acted), fun j t there => ?_, kept.served, events, same,
      logged.trans grown.log.sublist⟩
    by_cases here : j = i
    · subst here
      cases at_.symm.trans there
      obtain ⟨⟨inner, frame, stands, event⟩, nothing⟩ := kept.attends j _ at_
      rcases (Dispatch.step_steps acted).outermost stands with ⟨left, -⟩ | ⟨inner', frame', on, kept'⟩
      · rw [(through_iff left).2 rfl] at open_
        cases open_
      · exact ⟨⟨inner', frame', on, kept'.trans event⟩, nothing⟩
    · exact (kept.attends j t there).around (around_other acted (.inl rfl) here)
  | answered i action c txn type res hub at_ acted over_ =>
    have grown := (Dispatch.step_steps acted).grows
    obtain ⟨⟨inner, frame, stands, event⟩, nothing⟩ := kept.attends i _ at_
    have frameLogged : w.hub.publisher.log[frame.call]? = some (eventOf txn type) := by
      rw [← event]
      refine (kept.hub.opened frame ?_).logged
      exact List.mem_flatten.2 ⟨_, List.mem_of_getElem? stands, List.mem_append_right _ (by simp)⟩
    rcases (Dispatch.step_steps acted).outermost stands with ⟨left, ended⟩ | ⟨inner', frame', on, -⟩
    · refine ⟨kept.hub.step (Dispatch.step_steps acted), kept.attends_set rfl ?_ fun j other =>
        around_other acted (.inr ⟨_, rfl⟩) other, fun j answer member => ?_, events, same,
        logged.trans grown.log.sublist⟩
      · refine ⟨left, fun _ _ => ⟨action.outcome, by simp⟩, fun answer member => ?_⟩
        rcases List.mem_append.1 member with before | last
        · exact absurd before (nothing answer)
        · cases List.mem_singleton.1 last
          refine ⟨frame.call, type, res, announced (closing i _ txn type res at_ rfl), ?_,
            getElem?_grown grown.log frameLogged, rfl⟩
          rw [show hub.ended = _ from ended]
          simp
      · rcases List.mem_append.1 member with before | last
        · obtain ⟨u, there⟩ := kept.served j answer before
          exact getElem?_set_some _ there
        · cases List.mem_singleton.1 last
          exact getElem?_set_some _ at_
    · have none_left := (through_iff on).1 over_
      simp at none_left

theorem kept_init : Kept service (init service calls n : Published α) where
  hub := Dispatch.kept_init _
  attends i t there := by
    have inside := (List.getElem?_eq_some_iff.1 there).1
    have calls_ : i < calls.length := by simpa [init, System.init] using inside
    have start := (mem_init (List.mem_of_getElem? there)).2
    rw [start]
    refine ⟨?_, fun out member => by cases member⟩
    simp [init, Dispatch.init, List.getElem?_replicate]
    omega
  served i answer member := by cases member
  logged := ⟨[], by simp [init, System.init], List.nil_sublist _⟩

/-- No call has heard two answers. -/
theorem Kept.hears {w : Published α} (kept : Kept service w) : ∃ f, Hears w f := by
  have one : ∀ i, ∃ out, ∀ out', (i, out') ∈ w.heard → out' = out := by
    intro i
    by_cases some_ : ∃ out, (i, out) ∈ w.heard
    · obtain ⟨out, member⟩ := some_
      refine ⟨out, fun out' member' => ?_⟩
      obtain ⟨t, at_⟩ := kept.served i out member
      have attends := kept.attends i t at_
      have same {txn : Transaction} {o : Outcome} (answered : Answered w i txn o) : out' = out := by
        obtain ⟨-, -, res, -, -, -, is⟩ := answered.published out member
        obtain ⟨-, -, res', -, -, -, is'⟩ := answered.published out' member'
        cases out with
        | error e => cases out' with
          | error e' => cases is.symm.trans is'; rfl
          | ok _ => cases is.symm.trans is'
        | ok _ => cases out' with
          | error e' => cases is.symm.trans is'
          | ok _ => rfl
      generalize t.pc = pc at attends
      cases pc with
      | notify txn type res => exact absurd member (attends.2 out)
      | unlock txn o => exact same attends
      | finished txn o => exact same attends
      | _ => exact absurd member (attends.2 out)
    · exact ⟨.ok (), fun out' member => absurd ⟨out', member⟩ some_⟩
  choose f only using one
  exact ⟨f, fun i out member => (only i out member).symm⟩

section Runs

variable {sched : List (Act α)} {w : Published α}

theorem closing_of_notify (ran : exec (Published.step chain) (init service calls n) sched = some w)
    (kept : Kept service w) {i : Nat} {t : Thread} {txn : Transaction} {type : String}
    {res : Result Transaction} (at_ : w.sys.threads[i]? = some t)
    (notifies : t.pc = .notify txn type res) :
    Closing chain t.call txn type res := by
  obtain ⟨f, hears⟩ := kept.hears
  obtain ⟨order, reached⟩ := run_hearing ran hears
  have sounds := reached.sound _ (List.mem_of_getElem? (getElem?_hearing at_))
  rw [notifies] at sounds
  have sound : Closing chain (t.call.hearing (f i)) txn type res := sounds
  exact ⟨sound.named, sound.minted, sound.quiet, sound.ends⟩

theorem kept_run (ran : exec (Published.step chain) (init service calls n) sched = some w) :
    Kept service w :=
  exec_induct_reached (Kept service)
    (fun _ _ _ _ ran kept stepped => kept.step
      (fun _ _ _ _ _ at_ notifies => closing_of_notify ran kept at_ notifies) (step_steps stepped))
    kept_init ran

/-! ### A publish left by an exception -/

/-- What a step does on the publisher is a step there, or nothing. -/
theorem Steps.onHub {w w' : Published α} {label : Act α} (steps : Steps chain w label w') :
    w'.hub = w.hub ∨ ∃ i action, Dispatch.Steps w.hub i action w'.hub := by
  cases steps with
  | moves => exact .inl rfl
  | publishes i c txn type res sys hub at_ opened stepped =>
    exact .inr ⟨i, _, Dispatch.step_steps opened⟩
  | client i action hub nobody acted => exact .inr ⟨i, _, Dispatch.step_steps acted⟩
  | goesOn i action c txn type res hub at_ acted open_ =>
    exact .inr ⟨i, _, Dispatch.step_steps acted⟩
  | answered i action c txn type res hub at_ acted over_ =>
    exact .inr ⟨i, _, Dispatch.step_steps acted⟩

/-- The call is past its publish, with the transaction `txn`. -/
def Past (txn : Transaction) (pc : Pc) : Prop := ∃ out, pc = .unlock txn out ∨ pc = .finished txn out

/-- It stays so. -/
theorem Steps.past {w w' : Published α} {label : Act α} (steps : Steps chain w label w') {i : Nat}
    {c : Call} {pc : Pc} {txn : Transaction} (at_ : w.sys.threads[i]? = some ⟨c, pc⟩)
    (past : Past txn pc) :
    ∃ t', w'.sys.threads[i]? = some t' ∧ Past txn t'.pc := by
  obtain ⟨out, over_⟩ := past
  have same {j : Nat} {t : Thread} (here : j = i) (there : w.sys.threads[j]? = some t) :
      t = ⟨c, pc⟩ := by
    subst here
    exact Option.some.inj (there.symm.trans at_)
  cases steps with
  | moves j t sys there quiet stepped =>
    obtain ⟨d, pc₀, pc', stood, fired, threads⟩ := step_fires stepped
    rw [threads]
    by_cases here : j = i
    · cases same here stood
      subst here
      have inside := (List.getElem?_eq_some_iff.1 stood).1
      generalize sys.service = s' at fired
      rcases over_ with rfl | rfl
      · cases fired
        exact ⟨_, List.getElem?_set_self inside, out, .inr rfl⟩
      · cases fired
    · exact ⟨_, (List.getElem?_set_ne here).trans at_, out, over_⟩
  | publishes j d txn' type res sys hub there opened stepped =>
    obtain ⟨d, pc₀, pc', stood, fired, threads⟩ := step_fires stepped
    rw [threads]
    by_cases here : j = i
    · cases same here there
      rcases over_ with is | is <;> cases is
    · exact ⟨_, (List.getElem?_set_ne here).trans at_, out, over_⟩
  | client => exact ⟨_, at_, out, over_⟩
  | goesOn => exact ⟨_, at_, out, over_⟩
  | answered j action d txn' type res hub there acted left =>
    by_cases here : j = i
    · cases same here there
      rcases over_ with is | is <;> cases is
    · exact ⟨_, (List.getElem?_set_ne here).trans at_, out, over_⟩

/-- The exception that a call hears comes out of the callback its publish is in, that of the
last subscriber it has told. -/
theorem Steps.throws {w w' : Published α} {label : Act α} (kept : Kept service w)
    (steps : Steps chain w label w') {i : Nat} {e : Exception} (before : (i, .error e) ∉ w.heard)
    (now : (i, .error e) ∈ w'.heard) : label = .hub i (.throws e) ∧
      ∃ place txn type told s rest,
        w.hub.threads[i]? = some [⟨place, eventOf txn type, rest, true⟩] ∧
        w.hub.told place = told ++ [s] ∧
        w'.hub.LeftBy place e (eventOf txn type) told s rest ∧
        ∃ t', w'.sys.threads[i]? = some t' ∧ Past txn t'.pc := by
  cases steps with
  | answered j action c txn type res hub at_ acted over_ =>
    obtain ⟨rfl, is⟩ : i = j ∧ .error e = action.outcome := by
      simpa [before] using now
    obtain rfl : action = .throws e := by
      cases action with
      | throws e' => cases is; rfl
      | _ => cases is
    obtain ⟨⟨inner, frame, stands, event⟩, -⟩ := kept.attends i _ at_
    obtain ⟨stack, left⟩ : ∃ stack, hub.threads[i]? = some stack := by
      cases there : hub.threads[i]? with
      | none => simp [through, there] at over_
      | some stack => exact ⟨stack, rfl⟩
    rw [(through_iff left).1 over_] at left
    obtain ⟨place, event', told, s, rest, was, toldThen, leftBy⟩ :=
      kept.hub.leaves (Dispatch.step_steps acted) left
    have single : inner ++ [frame] = [⟨place, event', rest, true⟩] :=
      Option.some.inj (stands.symm.trans was)
    rcases List.append_eq_singleton_iff.1 single with ⟨rfl, same⟩ | ⟨-, none_⟩
    · obtain rfl : frame = ⟨place, event', rest, true⟩ := List.singleton_inj.1 same
      obtain rfl : event' = eventOf txn type := event
      exact ⟨rfl, place, txn, type, told, s, rest, was, toldThen, leftBy, _,
        List.getElem?_set_self (List.getElem?_eq_some_iff.1 at_).1, _, .inl rfl⟩
    · cases none_
  | _ => exact absurd now before

/-- In the run of `sched` the publish of call `i` at `place` ended with the exception `e` of the
callback it was in, when it had told `told`. -/
def ThrownOut (chain : ValidationChain) (start : Published α) (sched : List (Act α)) (i : Nat)
    (e : Exception) (place : Nat) (told : List α) : Prop :=
  ∃ early late mid event rest, sched = early ++ .hub i (.throws e) :: late ∧
    exec (step chain) start early = some mid ∧
    mid.hub.threads[i]? = some [⟨place, event, rest, true⟩] ∧ mid.hub.told place = told

/-- **A call that hears an exception was thrown out by the last subscriber told.** -/
theorem thrown_out (ran : exec (step chain) (init service calls n) sched = some w) {i : Nat}
    {e : Exception} (heard : (i, .error e) ∈ w.heard) : ∃ place txn type told s rest,
      ThrownOut chain (init service calls n) sched i e place (told ++ [s]) ∧
      w.hub.LeftBy place e (eventOf txn type) told s rest ∧
      ∃ t, w.sys.threads[i]? = some t ∧ Past txn t.pc := by
  obtain ⟨early, label, late, mid, now, rfl, ranMid, before, stepped, hears, ranLate⟩ :=
    exec_first (fun u : Published α => (i, .error e) ∈ u.heard) (by simp [init]) heard ran
  obtain ⟨rfl, place, txn, type, told, s, rest, stands, toldThen, leftBy, past⟩ :=
    (step_steps stepped).throws (kept_run ranMid) before hears
  refine ⟨place, txn, type, told, s, rest,
    ⟨early, late, mid, _, rest, rfl, ranMid, stands, toldThen⟩, ?_⟩
  have ranNow := exec_snoc ranMid stepped
  refine exec_induct_reached (fun u : Published α =>
    u.hub.LeftBy place e (eventOf txn type) told s rest ∧
      ∃ t, u.sys.threads[i]? = some t ∧ Past txn t.pc) ?_ ⟨leftBy, past⟩ ranLate
  rintro more u label v ranMore ⟨leftBy, ⟨c, pc⟩, at_, past⟩ stepped
  have kept := kept_run (exec_append.2 ⟨now, ranNow, ranMore⟩)
  refine ⟨?_, (step_steps stepped).past at_ past⟩
  rcases (step_steps stepped).onHub with same | ⟨j, action, acted⟩
  · rw [same]
    exact leftBy
  · exact leftBy.step kept.hub acted

end Runs

end Published

/-! ## The results -/

theorem Pc.eq_finished {pc : Pc} {txn : Transaction} {out : Outcome} (own : pc.txn = some txn)
    (ended : pc.outcome = some out) : pc = .finished txn out := by
  cases pc with
  | finished txn' out' =>
    cases own
    cases ended
    rfl
  | replied res => cases own
  | unbuilt id e => cases own
  | _ => cases ended

section Results

variable {α : Type} {chain : ValidationChain} {service : PaymentService} {calls : List Call} {n : Nat}
  {sched : List (Published.Act α)} {w : Published α}

/-- **The service does what its calls by themselves can do**, each call's subscribers
answering as the callbacks of its publish have; the publisher delivers every event, and its
log has the service's events in the service's order. -/
theorem published_refines
    (ran : exec (Published.step chain) (Published.init service calls n) sched = some w) :
    (∃ f order, w.Hears f ∧ Reaches chain service (hearing f calls) order (w.sys.hearing f)) ∧
      w.hub.Delivers ∧
      ∃ events, w.sys.service.events = service.events ++ events ∧
        events.Sublist w.hub.publisher.log := by
  have kept := Published.kept_run ran
  obtain ⟨f, hears⟩ := kept.hears
  obtain ⟨order, reached⟩ := Published.run_hearing ran hears
  exact ⟨⟨f, order, hears, reached⟩, kept.hub.delivers, kept.logged⟩

/-- One payment: a client of the publisher subscribes twice, and the second subscriber
throws. -/
def thrownAt : List (Published.Act Nat) :=
  [.hub 1 (.subscribe 7), .hub 1 (.subscribe 8)] ++ List.replicate 18 (.call 0) ++
    [.hub 0 .next, .hub 0 .returns, .hub 0 .next, .hub 0 (.throws (.foreign "subscriber")), .call 0]

theorem published_refines_thrown : ∃ w : Published Nat, exec (Published.step mainChain)
    (Published.init (PaymentService.opening userAndMerchant) [upiCall "key-1" "u" "m" 30000] 1)
      thrownAt = some w ∧
    w.heard = [(0, .error (.foreign "subscriber"))] ∧ w.hub.Delivers := by
  have ran : (exec (Published.step mainChain)
      (Published.init (PaymentService.opening userAndMerchant) [upiCall "key-1" "u" "m" 30000] 1)
      thrownAt).any (fun w => decide (w.heard = [(0, .error (.foreign "subscriber"))])) = true := by
    decide +kernel
  obtain ⟨w, run, found⟩ := exec_any ran
  exact ⟨w, run, of_decide_eq_true found, (published_refines run).2.1⟩

/-- **Who pays is told of.**  A payment that returned an answer has told every subscriber
there was when its event was logged, in order and each once; one out of which a subscriber's
exception escaped has told those up to that one, and nobody else. -/
theorem payments_told
    (ran : exec (Published.step chain) (Published.init service calls n) sched = some w) {i : Nat}
    {t : Thread} {txn : Transaction} {out : Outcome} (at_ : w.sys.threads[i]? = some t)
    (own : t.pc.txn = some txn) (ended : t.pc.outcome = some out) :
    (∀ res, out = .ok res → ∃ place type, Published.Announced txn type res ∧
      w.hub.publisher.log[place]? = some (eventOf txn type) ∧
      w.hub.snapshots[place]? = some (w.hub.told place)) ∧
    ∀ e, (i, .error e) ∈ w.heard → out = .error e ∧ ∃ place type told s rest,
      w.hub.publisher.log[place]? = some (eventOf txn type) ∧
      w.hub.snapshots[place]? = some (told ++ s :: rest) ∧ w.hub.told place = told ++ [s] ∧
      Published.ThrownOut chain (.init service calls n) sched i e place (told ++ [s]) := by
  have kept := Published.kept_run ran
  have answered : Published.Answered w i txn out := by
    have attends := kept.attends i t at_
    rw [Pc.eq_finished own ended] at attends
    exact attends
  constructor
  · rintro res rfl
    obtain ⟨answer, member⟩ := answered.heard res rfl
    obtain ⟨place, type, res', announces, over_, logged, is⟩ := answered.published answer member
    cases answer with
    | error e => cases is
    | ok _ =>
      cases is
      exact ⟨place, type, announces, logged, kept.hub.delivers.returned place over_⟩
  · intro e member
    obtain ⟨-, -, res, -, -, -, is⟩ := answered.published _ member
    obtain ⟨place, txn', type, told, s, rest, thrown, leftBy, t', there, past⟩ :=
      Published.thrown_out ran member
    cases at_.symm.trans there
    obtain rfl : txn = txn' := by
      rw [Pc.eq_finished own ended] at past
      obtain ⟨out', is | is⟩ := past <;> cases is
      rfl
    exact ⟨is, place, type, told, s, rest, leftBy.logged, leftBy.snapshot, leftBy.told, thrown⟩

/-- The payment of before, left by the exception of its second subscriber. -/
theorem payments_told_thrown : ∃ w : Published Nat, exec (Published.step mainChain)
    (Published.init (PaymentService.opening userAndMerchant) [upiCall "key-1" "u" "m" 30000] 1)
      thrownAt = some w ∧
    ∃ place told s rest, w.hub.snapshots[place]? = some (told ++ s :: rest) ∧
      w.hub.told place = told ++ [s] := by
  have ran : (exec (Published.step mainChain)
      (Published.init (PaymentService.opening userAndMerchant) [upiCall "key-1" "u" "m" 30000] 1)
      thrownAt).any (fun w => decide (w.heard = [(0, .error (.foreign "subscriber"))]) &&
        w.sys.threads[0]?.any fun t => t.pc.txn.isSome && t.pc.outcome.isSome) = true := by
    decide +kernel
  obtain ⟨w, run, found⟩ := exec_any ran
  rw [Bool.and_eq_true, decide_eq_true_eq, Option.any_eq_true] at found
  obtain ⟨heard, t, at_, over_⟩ := found
  rw [Bool.and_eq_true, Option.isSome_iff_exists, Option.isSome_iff_exists] at over_
  obtain ⟨⟨txn, own⟩, out, ended⟩ := over_
  obtain ⟨-, place, type, told, s, rest, -, snapshot, is, -⟩ :=
    (payments_told run at_ own ended).2 (.foreign "subscriber") (by simp [heard])
  exact ⟨w, run, place, told, s, rest, snapshot, is⟩

end Results

end PaymentSystem.Service
