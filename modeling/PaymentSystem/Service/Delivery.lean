/-
# PaymentSystem.Service.Delivery -- in which order payments are heard of

`PaymentService::publish` runs inside the payer's lock, and so do the callbacks it calls.
That lock, the log of the publisher and the stacks of callbacks that publish in turn are
three mechanisms of three components; together they keep each payer's story in order for
every subscriber, provided the events of payments are published by the service alone.

* `Heard`: only calls publish payments, each as the outermost publish of its thread; and
  while a call publishes, nothing later has been heard of its payer.
* `heard_in_order`: the log tells of payments in the order of the service, which for each
  payer is that of the journal, and each payer's payments are heard of in that order.
-/
import PaymentSystem.Service.Publishing
import PaymentSystem.Service.Ordering

namespace PaymentSystem.Service

open PaymentSystem.Common
open PaymentSystem.Domain
open PaymentSystem.Patterns
open PaymentSystem.Adapters
open PaymentSystem.Theory.Runs
open PaymentSystem.Theory.Threads

set_option autoImplicit false

/-! ## What a step does to a stack of publishes -/

section Stacks

variable {α : Type}

/-- The publishes of a stack: their places in the log, and their events. -/
def keys (stack : List (Frame α)) : List (Nat × DomainEvent) :=
  stack.map fun frame => (frame.call, frame.event)

/-- The stack of the thread goes on, and perhaps its innermost publish tells someone; or it
opens a publish; or it leaves the innermost. -/
inductive Shifts (d : Dispatch α) (stack : List (Frame α)) (action : Dispatch.Act α)
    (d' : Dispatch α) (stack' : List (Frame α)) : Prop where
  | stays (same : keys stack' = keys stack) (log : d'.publisher.log = d.publisher.log)
      (deliveries : d'.deliveries = d.deliveries)
  | tells (call : Nat) (event : DomainEvent) (s : α) (outer : List (Nat × DomainEvent))
      (top : keys stack = (call, event) :: outer) (same : keys stack' = keys stack)
      (log : d'.publisher.log = d.publisher.log)
      (deliveries : d'.deliveries = d.deliveries ++ [⟨call, s, event⟩])
  | opens (event : DomainEvent) (is : action = .publish event)
      (grown : keys stack' = (d.snapshots.length, event) :: keys stack)
      (log : d'.publisher.log = d.publisher.log ++ [event])
      (deliveries : d'.deliveries = d.deliveries)
  | leaves (key : Nat × DomainEvent) (left : keys stack = key :: keys stack')
      (log : d'.publisher.log = d.publisher.log) (deliveries : d'.deliveries = d.deliveries)

theorem shifts {d d' : Dispatch α} {i : Nat} {action : Dispatch.Act α}
    (steps : d.Steps i action d') {stack : List (Frame α)} (at_ : d.threads[i]? = some stack) :
    ∃ stack', d'.threads[i]? = some stack' ∧ Shifts d stack action d' stack' := by
  have inside := (List.getElem?_eq_some_iff.1 at_).1
  cases steps with
  | subscribed s => exact ⟨stack, at_, .stays rfl rfl rfl⟩
  | published event stack₀ there =>
    cases there.symm.trans at_
    exact ⟨_, List.getElem?_set_self inside, .opens event rfl rfl rfl rfl⟩
  | tells call event s rest outer there =>
    cases there.symm.trans at_
    exact ⟨_, List.getElem?_set_self inside, .tells call event s (keys outer) rfl rfl rfl rfl⟩
  | comesBack call event rest outer there =>
    cases there.symm.trans at_
    exact ⟨_, List.getElem?_set_self inside, .stays rfl rfl rfl⟩
  | returned call event outer there =>
    cases there.symm.trans at_
    exact ⟨_, List.getElem?_set_self inside, .leaves _ rfl rfl rfl⟩
  | threw e call event rest outer there =>
    cases there.symm.trans at_
    exact ⟨_, List.getElem?_set_self inside, .leaves _ rfl rfl rfl⟩

end Stacks

/-! ## Payments -/

/-- The event of a payment. -/
def IsPayment (event : DomainEvent) : Prop :=
  event.type = "PaymentCaptured" ∨ event.type = "PaymentFailed"

instance (event : DomainEvent) : Decidable (IsPayment event) :=
  inferInstanceAs (Decidable (_ ∨ _))

/-- None of the events is of a payment. -/
def Plain (keys : List (Nat × DomainEvent)) : Prop := ∀ key ∈ keys, ¬ IsPayment key.2

/-- Only the step that publishes goes on to notify. -/
theorem Fires.notifies {chain : ValidationChain} {c : Call} {s s' : PaymentService} {pc pc' : Pc}
    {txn : Transaction} {type : String} {res : Result Transaction}
    (fired : Fires chain c s pc s' pc') (is : pc' = .notify txn type res) :
    pc = .publish txn type res := by
  cases fired <;> cases is
  rfl

namespace Published

variable {α : Type} {chain : ValidationChain}

/-- Events of payments are left to the service. -/
def Reserved : Act α → Prop
  | .hub _ (.publish event) => ¬ IsPayment event
  | _ => True

instance : ∀ label : Act α, Decidable (Reserved label)
  | .hub _ (.publish event) => inferInstanceAs (Decidable (¬ IsPayment event))
  | .call _ | .hub _ (.subscribe _) | .hub _ .next | .hub _ .returns | .hub _ (.throws _) =>
    isTrue trivial

/-- The event is of a payment of the payer's. -/
def IsFor (payer : String) (w : Published α) (event : DomainEvent) : Prop :=
  IsPayment event ∧ ∃ t ∈ w.sys.threads, t.call.req.payerAccountId = payer ∧
    t.pc.won = some event.aggregateId

/-- What is heard of payments, and in which order. -/
structure Heard (w : Published α) : Prop where
  /-- A payment is published by the outermost publish of a call, or by nobody. -/
  outermost : ∀ (i : Nat) stack, w.hub.threads[i]? = some stack → Plain (keys stack).dropLast ∧
    (w.sys.threads[i]? = none → Plain (keys stack))
  log : (w.hub.publisher.log.filter fun event => IsPayment event) = w.sys.service.events
  won : ∀ e ∈ w.hub.deliveries, IsPayment e.event →
    ∃ t ∈ w.sys.threads, t.pc.won = some e.event.aggregateId
  /-- While a call publishes, nothing later has been heard of its payer. -/
  latest : ∀ (i : Nat) t txn type res stack key, w.sys.threads[i]? = some t →
    t.pc = .notify txn type res → w.hub.threads[i]? = some stack → (keys stack).getLast? = some key →
    ∀ e ∈ w.hub.deliveries, IsFor t.call.req.payerAccountId w e.event → e.call ≤ key.1
  sorted : ∀ payer, w.hub.deliveries.Pairwise fun e e' =>
    IsFor payer w e.event → IsFor payer w e'.event → e.call ≤ e'.call

/-- Every call is there with its request, and what it has won it keeps. -/
def Winners (w w' : Published α) : Prop :=
  ∀ (i : Nat) t, w.sys.threads[i]? = some t → ∃ t', w'.sys.threads[i]? = some t' ∧
    t'.call = t.call ∧ ∀ id, t.pc.won = some id → t'.pc.won = some id

theorem Winners.refl (w w' : Published α) (same : w'.sys = w.sys) : Winners w w' := by
  intro i t at_
  exact ⟨t, by rw [same]; exact at_, rfl, fun _ won => won⟩

theorem Winners.set {w w' : Published α} {i : Nat} {c : Call} {pc pc' : Pc}
    (at_ : w.sys.threads[i]? = some ⟨c, pc⟩) (threads : w'.sys.threads = w.sys.threads.set i ⟨c, pc'⟩)
    (kept : ∀ id, pc.won = some id → pc'.won = some id) : Winners w w' := by
  intro j t there
  rw [threads]
  by_cases same : i = j
  · subst same
    cases at_.symm.trans there
    exact ⟨_, List.getElem?_set_self (List.getElem?_eq_some_iff.1 at_).1, rfl, kept⟩
  · exact ⟨t, (List.getElem?_set_ne same).trans there, rfl, fun _ won => won⟩

/-- Whose payment an event is of was settled when its call won its key. -/
theorem IsFor.before {payer : String} {w w' : Published α} {event : DomainEvent}
    (isFor : IsFor payer w' event) (winners : Winners w w')
    (apart : Apart (fun t id => t.pc.won = some id) w'.sys.threads)
    (won : ∃ t ∈ w.sys.threads, t.pc.won = some event.aggregateId) : IsFor payer w event := by
  obtain ⟨payment, t, member, mine, wins⟩ := isFor
  obtain ⟨u, there, wins'⟩ := won
  obtain ⟨i, at_⟩ := List.mem_iff_getElem?.1 member
  obtain ⟨j, at_'⟩ := List.mem_iff_getElem?.1 there
  obtain ⟨u', now, same, keeps⟩ := winners j u at_'
  obtain rfl : i = j := apart i j t u' _ at_ now wins (keeps _ wins')
  cases at_.symm.trans now
  exact ⟨payment, u, there, by rw [← same]; exact mine, wins'⟩

/-- Who has won keeps what it has won. -/
theorem Winners.won {w w' : Published α} (winners : Winners w w') {id : String}
    (won : ∃ t ∈ w.sys.threads, t.pc.won = some id) : ∃ t ∈ w'.sys.threads, t.pc.won = some id := by
  obtain ⟨t, member, won⟩ := won
  obtain ⟨j, there⟩ := List.mem_iff_getElem?.1 member
  obtain ⟨t', after, -, keeps⟩ := winners j t there
  exact ⟨t', List.mem_of_getElem? after, keeps id won⟩

/-- What has been heard of a payment was of its payer then. -/
theorem Heard.earlier {w w' : Published α} (heard : Heard w) (winners : Winners w w')
    (apart : Apart (fun t id => t.pc.won = some id) w'.sys.threads) {payer : String} {e : Delivery α}
    (member : e ∈ w.hub.deliveries) (isFor : IsFor payer w' e.event) : IsFor payer w e.event :=
  isFor.before winners apart (heard.won e member isFor.1)

theorem Heard.still_sorted {w w' : Published α} (heard : Heard w) (winners : Winners w w')
    (apart : Apart (fun t id => t.pc.won = some id) w'.sys.threads) (payer : String) :
    w.hub.deliveries.Pairwise fun e e' =>
      IsFor payer w' e.event → IsFor payer w' e'.event → e.call ≤ e'.call :=
  (heard.sorted payer).imp_of_mem fun member member' le isFor isFor' =>
    le (heard.earlier winners apart member isFor) (heard.earlier winners apart member' isFor')

/-! ## What the calls by themselves give -/

/-- What holds of the calls in any run, whatever the subscribers answer. -/
structure Backed (w : Published α) : Prop where
  won : Apart (fun t id => t.pc.won = some id) w.sys.threads
  inside : Apart Thread.Holds w.sys.threads
  payments : ∀ t ∈ w.sys.threads, ∀ txn type res,
    t.pc = .publish txn type res ∨ t.pc = .notify txn type res → IsPayment (eventOf txn type)

section Backed

variable {accounts : InMemoryAccountRepository} {calls : List Call} {n : Nat}
  {sched : List (Act α)} {w : Published α}

theorem isPayment_of_closing {c : Call} {txn : Transaction} {type : String}
    {res : Result Transaction} (closing : Closing chain c txn type res) :
    IsPayment (eventOf txn type) := by
  rcases closing.status with ⟨-, is⟩ | ⟨-, is⟩
  · exact .inr is
  · exact .inl is

theorem backed_run (ran : exec (Published.step chain)
    (Published.init (PaymentService.opening accounts) calls n) sched = some w)
    (short : calls.length < 2 ^ 64) : Backed w := by
  obtain ⟨f, hears⟩ := (kept_run ran).hears
  obtain ⟨order, reached⟩ := run_hearing ran hears
  have draws : Draws "txn" 1 (w.sys.hearing f) :=
    reached.draws rfl (by simpa [Service.hearing] using short)
  have mutex := reached.mutex (free_opening accounts)
  refine ⟨fun i j t u id at_ there won won' => ?_, fun i j t u key at_ there holds holds' => ?_,
    fun t member txn type res stands => ?_⟩
  · exact draws.apart i j _ _ id (getElem?_hearing at_) (getElem?_hearing there)
      (Pc.txnId_of_won won) (Pc.txnId_of_won won')
  · exact mutex.apart i j _ _ key (getElem?_hearing at_) (getElem?_hearing there) holds holds'
  · obtain ⟨i, at_⟩ := List.mem_iff_getElem?.1 member
    have sound := reached.sound _ (List.mem_of_getElem? (getElem?_hearing (f := f) at_))
    rcases stands with is | is
    · rw [is] at sound
      exact isPayment_of_closing (show Closing chain _ txn type res from sound)
    · rw [is] at sound
      exact isPayment_of_closing (show Closing chain _ txn type res from sound)

end Backed

/-! ## What a step keeps -/

section Step

variable {w w' : Published α} {service : PaymentService} {i : Nat}

theorem plain_tail {key : Nat × DomainEvent} {rest : List (Nat × DomainEvent)}
    (plain : Plain (key :: rest).dropLast) : Plain rest.dropLast := by
  cases rest with
  | nil => exact fun _ member => by cases member
  | cons key' rest => exact fun k member => plain k (List.mem_cons_of_mem _ member)

/-- The stack of the thread that acts stays one whose payment, if any, is outermost. -/
theorem plain_shifts {d d' : Dispatch α} {action : Dispatch.Act α} {stack stack' : List (Frame α)}
    (shifts : Shifts d stack action d' stack')
    (reserved : ∀ event, action = .publish event → ¬ IsPayment event) :
    (Plain (keys stack).dropLast → Plain (keys stack').dropLast) ∧
      (Plain (keys stack) → Plain (keys stack')) := by
  cases shifts with
  | stays same => rw [same]; exact ⟨id, id⟩
  | tells call event s outer top same => rw [same]; exact ⟨id, id⟩
  | opens event is grown =>
    have plain := reserved event is
    rw [grown]
    constructor
    · intro inner key member
      cases outer : keys stack with
      | nil =>
        rw [outer] at member
        cases member
      | cons key' rest =>
        rw [outer] at member inner
        rcases List.mem_cons.1 member with rfl | there
        · exact plain
        · exact inner key there
    · intro all key member
      rcases List.mem_cons.1 member with rfl | there
      · exact plain
      · exact all key there
  | leaves key left =>
    rw [left]
    exact ⟨plain_tail, fun all k member => all k (List.mem_cons_of_mem _ member)⟩

/-- Its outermost publish, as long as it is there, is the same. -/
theorem last_shifts {d d' : Dispatch α} {action : Dispatch.Act α} {stack stack' : List (Frame α)}
    (shifts : Shifts d stack action d' stack') {inner : List (Frame α)} {frame : Frame α}
    (stands : stack = inner ++ [frame]) {key : Nat × DomainEvent}
    (last : (keys stack').getLast? = some key) : (keys stack).getLast? = some key := by
  cases shifts with
  | stays same => rw [← same]; exact last
  | tells call event s outer top same => rw [← same]; exact last
  | opens event is grown =>
    rw [grown] at last
    cases outer : keys stack with
    | nil => simp [stands, keys] at outer
    | cons key' rest =>
      rw [outer, List.getLast?_cons_cons] at last
      exact last
  | leaves key' left =>
    rw [left]
    cases outer : keys stack' with
    | nil =>
      rw [outer] at last
      cases last
    | cons key'' rest =>
      rw [outer] at last
      rw [List.getLast?_cons_cons]
      exact last

/-- Whoever tells of a payment is a call that publishes it, in no other publish. -/
theorem Heard.teller (heard : Heard w) (kept : Kept service w) {stack : List (Frame α)}
    (at_ : w.hub.threads[i]? = some stack) {call : Nat} {event : DomainEvent}
    {outer : List (Nat × DomainEvent)} (top : keys stack = (call, event) :: outer)
    (payment : IsPayment event) :
    keys stack = [(call, event)] ∧ ∃ t txn type res, w.sys.threads[i]? = some t ∧
      t.pc = .notify txn type res ∧ event = eventOf txn type := by
  obtain ⟨inner, nobody⟩ := heard.outermost i stack at_
  rw [top] at inner nobody
  have alone : outer = [] := by
    cases outer with
    | nil => rfl
    | cons key rest => exact absurd payment (inner _ List.mem_cons_self)
  subst alone
  refine ⟨top, ?_⟩
  cases there : w.sys.threads[i]? with
  | none => exact absurd payment (nobody there _ List.mem_cons_self)
  | some t =>
    have attends := kept.attends i t there
    have empty (left : w.hub.threads[i]? = some []) : False := by
      cases at_.symm.trans left
      cases top
    generalize is : t.pc = pc at attends
    cases pc with
    | notify txn type res =>
      obtain ⟨⟨inside, frame, stands, same⟩, -⟩ := attends
      cases at_.symm.trans stands
      have last := congrArg List.getLast? top
      simp [keys] at last
      exact ⟨t, txn, type, res, rfl, is, last.2.symm.trans same⟩
    | unlock txn out => exact (empty attends.left).elim
    | finished txn out => exact (empty attends.left).elim
    | _ => exact (empty attends.1).elim

/-- The payment a call publishes is of its own payer. -/
theorem IsFor.own {payer : String} {t : Thread} {txn : Transaction} {type : String}
    {res : Result Transaction} (winners : Winners w w') (backed : Backed w')
    (at_ : w.sys.threads[i]? = some t) (notifies : t.pc = .notify txn type res)
    (isFor : IsFor payer w' (eventOf txn type)) : t.call.req.payerAccountId = payer := by
  obtain ⟨-, u, member, mine, won⟩ := isFor
  obtain ⟨j, there⟩ := List.mem_iff_getElem?.1 member
  obtain ⟨t', now, same, keeps⟩ := winners i t at_
  obtain rfl : j = i := backed.won j i u t' _ there now won (keeps _ (by rw [notifies]; rfl))
  cases there.symm.trans now
  rw [← same]
  exact mine

/-- A step of the publisher, after which the calls that publish are ones that did. -/
theorem Heard.acted (heard : Heard w) (kept : Kept service w) (backed : Backed w)
    (backed' : Backed w') {action : Dispatch.Act α} (acted : w.hub.step (i, action) = some w'.hub)
    (reserved : ∀ event, action = .publish event → ¬ IsPayment event)
    (events : w'.sys.service.events = w.sys.service.events) (winners : Winners w w')
    (publishing : ∀ (j : Nat) t txn type res, w'.sys.threads[j]? = some t →
      t.pc = .notify txn type res → w.sys.threads[j]? = some t) : Heard w' := by
  have steps := Dispatch.step_steps acted
  obtain ⟨stack, at_⟩ : ∃ stack, w.hub.threads[i]? = some stack := by
    cases there : w.hub.threads[i]? with
    | none => simp [Dispatch.step, there] at acted
    | some stack => exact ⟨stack, rfl⟩
  obtain ⟨stack', now, shifts⟩ := shifts steps at_
  obtain ⟨inner, outside⟩ := plain_shifts shifts reserved
  -- a publish under way had the same outermost event before
  have before {j : Nat} {t : Thread} {txn : Transaction} {type : String} {res : Result Transaction}
      (there : w.sys.threads[j]? = some t) (notifies : t.pc = .notify txn type res)
      {stack₁ : List (Frame α)} {key : Nat × DomainEvent} (after : w'.hub.threads[j]? = some stack₁)
      (last : (keys stack₁).getLast? = some key) :
      ∃ stack₀, w.hub.threads[j]? = some stack₀ ∧ (keys stack₀).getLast? = some key := by
    by_cases here : j = i
    · subst here
      cases now.symm.trans after
      have attends := kept.attends j t there
      rw [notifies] at attends
      obtain ⟨⟨inside, frame, stands, -⟩, -⟩ := attends
      cases at_.symm.trans stands
      exact ⟨_, at_, last_shifts shifts rfl last⟩
    · rw [steps.elsewhere here] at after
      exact ⟨stack₁, after, last⟩
  have gone {j : Nat} (nobody : w'.sys.threads[j]? = none) : w.sys.threads[j]? = none := by
    cases there : w.sys.threads[j]? with
    | none => rfl
    | some t =>
      obtain ⟨t', after, -⟩ := winners j t there
      cases nobody.symm.trans after
  -- what is told now: nothing, or by the mover, to one more subscriber
  have tells : w'.hub.deliveries = w.hub.deliveries ∨ ∃ e : Delivery α,
      w'.hub.deliveries = w.hub.deliveries ++ [e] ∧ ∃ outer, keys stack = (e.call, e.event) :: outer := by
    cases shifts with
    | stays same log deliveries => exact .inl deliveries
    | tells call event s outer top same log deliveries => exact .inr ⟨_, deliveries, outer, top⟩
    | opens event is grown log deliveries => exact .inl deliveries
    | leaves key left log deliveries => exact .inl deliveries
  -- and if that is of a payment, the mover is the call that publishes it
  have teller {e : Delivery α} {outer : List (Nat × DomainEvent)}
      (top : keys stack = (e.call, e.event) :: outer) (payment : IsPayment e.event) :
      (keys stack).getLast? = some (e.call, e.event) ∧ ∃ t txn type res,
        w.sys.threads[i]? = some t ∧ t.pc = .notify txn type res ∧ e.event = eventOf txn type := by
    obtain ⟨single, rest⟩ := heard.teller kept at_ top payment
    exact ⟨by rw [single]; rfl, rest⟩
  refine ⟨fun j stack₁ there => ?_, ?_, fun e member payment => ?_,
    fun j t txn type res stack₁ key there notifies after last e member isFor => ?_,
    fun payer => ?_⟩
  · by_cases here : j = i
    · subst here
      cases now.symm.trans there
      obtain ⟨innermost, nobody⟩ := heard.outermost j stack at_
      exact ⟨inner innermost, fun none_ => outside (nobody (gone none_))⟩
    · rw [steps.elsewhere here] at there
      obtain ⟨innermost, nobody⟩ := heard.outermost j stack₁ there
      exact ⟨innermost, fun none_ => nobody (gone none_)⟩
  · rw [events, ← heard.log]
    cases shifts with
    | stays same log => rw [log]
    | tells call event s outer top same log => rw [log]
    | opens event is grown log => rw [log, List.filter_append]; simp [reserved event is]
    | leaves key left log => rw [log]
  · refine winners.won ?_
    rcases tells with same | ⟨new, more, outer, top⟩
    · exact heard.won e (same ▸ member) payment
    · rw [more] at member
      rcases List.mem_append.1 member with old | is
      · exact heard.won e old payment
      · rw [List.mem_singleton] at is
        subst is
        obtain ⟨-, t, txn, type, res, there, notifies, is⟩ := teller top payment
        exact ⟨t, List.mem_of_getElem? there, by rw [notifies, is]; rfl⟩
  · have there := publishing j t txn type res there notifies
    obtain ⟨stack₀, was, last⟩ := before there notifies after last
    rcases tells with same | ⟨new, more, outer, top⟩
    · rw [same] at member
      exact heard.latest j t txn type res stack₀ key there notifies was last e member
        (heard.earlier winners backed'.won member isFor)
    · rw [more] at member
      rcases List.mem_append.1 member with old | is
      · exact heard.latest j t txn type res stack₀ key there notifies was last e old
          (heard.earlier winners backed'.won old isFor)
      · -- two calls that publish for one payer are one
        rw [List.mem_singleton] at is
        subst is
        obtain ⟨mine, t₁, txn₁, type₁, res₁, there₁, notifies₁, is⟩ := teller top isFor.1
        rw [is] at isFor
        have payer := isFor.own winners backed' there₁ notifies₁
        obtain rfl : i = j := backed.inside i j t₁ t (lockKey t.call.req) there₁ there
          ⟨by rw [notifies₁]; trivial, by rw [lockKey, lockKey, payer]⟩
          ⟨by rw [notifies]; trivial, rfl⟩
        cases at_.symm.trans was
        cases mine.symm.trans last
        exact Nat.le_refl _
  · have old := heard.still_sorted winners backed'.won payer
    rcases tells with same | ⟨new, more, outer, top⟩
    · rw [same]
      exact old
    · rw [more]
      refine List.pairwise_append.2 ⟨old, List.pairwise_singleton _ _, ?_⟩
      intro e member e' is isFor isFor'
      rw [List.mem_singleton] at is
      subst is
      obtain ⟨mine, t₁, txn₁, type₁, res₁, there₁, notifies₁, is⟩ := teller top isFor'.1
      rw [is] at isFor'
      have payer := isFor'.own winners backed' there₁ notifies₁
      subst payer
      exact heard.latest i t₁ txn₁ type₁ res₁ stack _ there₁ notifies₁ at_ mine e member
        (heard.earlier winners backed'.won member isFor)

/-- A step of a call while the publisher rests. -/
theorem Heard.moves (heard : Heard w) (backed' : Backed w') (hub : w'.hub = w.hub)
    (events : w'.sys.service.events = w.sys.service.events) (winners : Winners w w')
    (publishing : ∀ (j : Nat) t txn type res, w'.sys.threads[j]? = some t →
      t.pc = .notify txn type res → w.sys.threads[j]? = some t)
    (gone : ∀ j : Nat, w'.sys.threads[j]? = none → w.sys.threads[j]? = none) : Heard w' := by
  refine ⟨fun j stack there => ?_, ?_, fun e member payment => ?_,
    fun j t txn type res stack key there notifies after last e member isFor => ?_,
    fun payer => ?_⟩
  · rw [hub] at there
    obtain ⟨innermost, nobody⟩ := heard.outermost j stack there
    exact ⟨innermost, fun none_ => nobody (gone j none_)⟩
  · rw [hub, events, heard.log]
  · rw [hub] at member
    exact winners.won (heard.won e member payment)
  · rw [hub] at after member
    exact heard.latest j t txn type res stack key (publishing j t txn type res there notifies)
      notifies after last e member (heard.earlier winners backed'.won member isFor)
  · rw [hub]
    exact heard.still_sorted winners backed'.won payer

/-- A call publishes its payment: nothing of it or after it has been heard of yet. -/
theorem Heard.publishes (heard : Heard w) (kept : Kept service w) (backed' : Backed w')
    {event : DomainEvent} (silent : w.hub.threads[i]? = some [])
    (opened : w.hub.step (i, .publish event) = some w'.hub) (payment : IsPayment event)
    (events : w'.sys.service.events = w.sys.service.events ++ [event]) (winners : Winners w w')
    {t' : Thread} (threads : w'.sys.threads = w.sys.threads.set i t')
    (calls : ∃ t, w.sys.threads[i]? = some t) : Heard w' := by
  obtain ⟨t, at_⟩ := calls
  have steps := Dispatch.step_steps opened
  obtain ⟨stack', now, shifts⟩ := shifts steps silent
  obtain ⟨log, grown, deliveries⟩ : w'.hub.publisher.log = w.hub.publisher.log ++ [event] ∧
      keys stack' = [(w.hub.snapshots.length, event)] ∧ w'.hub.deliveries = w.hub.deliveries := by
    obtain ⟨log, -⟩ := steps.logs
    cases shifts with
    | stays same log' => simp [log'] at log
    | tells call event s outer top => cases top
    | opens event is grown log deliveries =>
      cases is
      exact ⟨log, grown, deliveries⟩
    | leaves key left => cases left
  have other {j : Nat} (here : j ≠ i) : w'.sys.threads[j]? = w.sys.threads[j]? := by
    rw [threads, List.getElem?_set_ne (Ne.symm here)]
  refine ⟨fun j stack there => ?_, ?_, fun e member payment => ?_,
    fun j u txn type res stack key there notifies after last e member isFor => ?_,
    fun payer => ?_⟩
  · by_cases here : j = i
    · subst here
      cases now.symm.trans there
      refine ⟨?_, fun nobody => ?_⟩
      · rw [grown]
        exact fun key member => by cases member
      · rw [threads, List.getElem?_set_self (List.getElem?_eq_some_iff.1 at_).1] at nobody
        cases nobody
    · rw [steps.elsewhere here] at there
      rw [other here]
      exact heard.outermost j stack there
  · rw [log, events, List.filter_append, heard.log]
    simp [payment]
  · rw [deliveries] at member
    exact winners.won (heard.won e member payment)
  · rw [deliveries] at member
    by_cases here : j = i
    · -- its place in the log is the last
      subst here
      cases now.symm.trans after
      rw [grown] at last
      cases last
      have inside := (List.getElem?_eq_some_iff.1 (kept.hub.sent e member)).1
      rw [← kept.hub.paired] at inside
      exact Nat.le_of_lt inside
    · rw [steps.elsewhere here] at after
      rw [other here] at there
      exact heard.latest j u txn type res stack key there notifies after last e member
        (heard.earlier winners backed'.won member isFor)
  · rw [deliveries]
    exact heard.still_sorted winners backed'.won payer

theorem Heard.step (heard : Heard w) (kept : Kept service w) (backed : Backed w)
    (backed' : Backed w') {label : Act α} (reserved : Reserved label)
    (steps : Steps chain w label w') : Heard w' := by
  cases steps with
  | moves i t sys at_ quiet stepped =>
    obtain ⟨c, pc, pc', there, fired, threads⟩ := step_fires stepped
    cases at_.symm.trans there
    have events : sys.service.events = w.sys.service.events := by
      rcases fired.events with same | ⟨txn, type, res, is, -⟩
      · exact same
      · exact absurd is (quiet txn type res).1
    refine heard.moves backed' rfl events (.set at_ threads fun _ => fired.keeps_won)
      (fun j u txn type res there notifies => ?_) (fun j nobody => ?_)
    · rw [show ({ w with sys } : Published α).sys.threads = _ from threads] at there
      rcases at_set there with ⟨rfl, rfl⟩ | ⟨-, there⟩
      · exact absurd (fired.notifies notifies) (quiet txn type res).1
      · exact there
    · rw [show ({ w with sys } : Published α).sys.threads = _ from threads] at nobody
      simpa using nobody
  | publishes i c txn type res sys hub at_ opened stepped =>
    obtain ⟨c', pc, pc', there, fired, threads⟩ := step_fires stepped
    cases at_.symm.trans there
    have payment := backed.payments _ (List.mem_of_getElem? at_) txn type res (.inl rfl)
    obtain ⟨silent, -⟩ : Silent w i := kept.attends i _ at_
    refine heard.publishes kept backed' silent opened payment ?_
      (.set at_ threads fun _ => fired.keeps_won) threads ⟨_, at_⟩
    obtain ⟨after, threads'⟩ := sys
    cases fired
    rfl
  | client i action hub nobody acted =>
    refine heard.acted kept backed backed' acted (fun event is => ?_) rfl (.refl _ _ rfl)
      fun _ _ _ _ _ there _ => there
    rw [is] at reserved
    exact reserved
  | goesOn i action c txn type res hub at_ acted open_ =>
    refine heard.acted kept backed backed' acted (fun event is => ?_) rfl (.refl _ _ rfl)
      fun _ _ _ _ _ there _ => there
    rw [is] at reserved
    exact reserved
  | answered i action c txn type res hub at_ acted over_ =>
    refine heard.acted kept backed backed' acted (fun event is => ?_) rfl
      (.set at_ rfl fun _ won => won) fun j u txn type res there notifies => ?_
    · rw [is] at reserved
      exact reserved
    · rcases at_set there with ⟨rfl, rfl⟩ | ⟨-, there⟩
      · cases notifies
      · exact there

end Step

/-! ## In the order of the journal -/

section Runs

variable {accounts : InMemoryAccountRepository} {calls : List Call} {n : Nat}
  {sched : List (Act α)} {w : Published α}

theorem heard_init (service : PaymentService) (quiet : service.events = []) :
    Heard (init service calls n : Published α) where
  outermost i stack there := by
    have empty : stack = [] := by
      have member := List.mem_of_getElem? there
      exact List.eq_of_mem_replicate member
    subst empty
    exact ⟨fun _ member => (by cases member), fun _ _ member => (by cases member)⟩
  log := quiet.symm
  won e member := by cases member
  latest i t txn type res stack key at_ notifies := by
    rw [(mem_init (List.mem_of_getElem? at_)).2] at notifies
    cases notifies
  sorted payer := List.Pairwise.nil

theorem heard_run (ran : exec (Published.step chain)
    (Published.init (PaymentService.opening accounts) calls n) sched = some w)
    (short : calls.length < 2 ^ 64) (reserved : ∀ label ∈ sched, Reserved label) : Heard w := by
  refine exec_induct_along Heard ?_ (heard_init _ rfl) ran
  intro early label late u v split ranTo heard stepped
  have last : label ∈ sched := by
    rw [split]
    simp
  exact heard.step (kept_run ranTo) (backed_run ranTo short)
    (backed_run (exec_snoc ranTo stepped) short) (reserved label last) (step_steps stepped)

end Runs

end Published

section Results

variable {α : Type} {chain : ValidationChain} {accounts : InMemoryAccountRepository}
  {calls : List Call} {n : Nat} {sched : List (Published.Act α)} {w : Published α}

/-- **Payments are heard of in the order of the journal**, if only the service publishes
their events: the log of the publisher tells of them as the service does, for each payer in
the order in which they were booked, and the subscribers are told of each payer's payments in
that order, whatever other publishes and payments go on between. -/
theorem heard_in_order (ran : exec (Published.step chain)
      (Published.init (PaymentService.opening accounts) calls n) sched = some w)
    (short : calls.length < 2 ^ 64) (reserved : ∀ label ∈ sched, Published.Reserved label) :
    (w.hub.publisher.log.filter fun event => IsPayment event) = w.sys.service.events ∧
      ∀ payer, toldFor payer w.sys.service <+: bookedFor payer w.sys.service ∧
        w.hub.deliveries.Pairwise fun e e' =>
          Published.IsFor payer w e.event → Published.IsFor payer w e'.event → e.call ≤ e'.call := by
  have heard := Published.heard_run ran short reserved
  obtain ⟨f, hears⟩ := (Published.kept_run ran).hears
  obtain ⟨order, reached⟩ := Published.run_hearing ran hears
  refine ⟨heard.log, fun payer => ⟨?_, heard.sorted payer⟩⟩
  have short : (hearing f calls).length < 2 ^ 64 := by simpa [hearing] using short
  rcases reached.inOrder short payer with all | ⟨t, -, id, -, -, last⟩
  · exact (show bookedFor payer w.sys.service = toldFor payer w.sys.service from all) ▸
      List.prefix_rfl
  · have last : bookedFor payer w.sys.service = toldFor payer w.sys.service ++ [id] := last
    rw [last]
    exact List.prefix_append _ _

/-- Two payments of one wallet, and a subscriber that, told of the first, publishes a note. -/
def notedAt : List (Published.Act Nat) :=
  [.hub 2 (.subscribe 7)] ++ List.replicate 18 (.call 0) ++
    [.hub 0 .next, .hub 0 (.publish ⟨"PaymentNoted", "txn_1", "", 0⟩), .hub 0 .next, .hub 0 .returns,
      .hub 0 .next, .hub 0 .returns, .hub 0 .next, .call 0] ++
    List.replicate 18 (.call 1) ++ [.hub 1 .next]

theorem heard_in_order_noted : ∃ w : Published Nat, exec (Published.step mainChain)
    (Published.init (PaymentService.opening userAndMerchant)
      [upiCall "key-1" "u" "m" 30000, upiCall "key-2" "u" "m" 500] 1) notedAt = some w ∧
    w.hub.deliveries.map (fun e => (e.call, e.event.type)) =
      [(0, "PaymentCaptured"), (1, "PaymentNoted"), (2, "PaymentCaptured")] ∧
    (w.hub.publisher.log.filter fun event => IsPayment event) = w.sys.service.events := by
  have ran : (exec (Published.step mainChain)
      (Published.init (PaymentService.opening userAndMerchant)
        [upiCall "key-1" "u" "m" 30000, upiCall "key-2" "u" "m" 500] 1) notedAt).any
        (fun w => decide (w.hub.deliveries.map (fun e => (e.call, e.event.type)) =
          [(0, "PaymentCaptured"), (1, "PaymentNoted"), (2, "PaymentCaptured")])) = true := by
    decide +kernel
  obtain ⟨w, run, found⟩ := exec_any ran
  exact ⟨w, run, of_decide_eq_true found,
    (heard_in_order run (by decide) (by decide +kernel)).1⟩

end Results

end PaymentSystem.Service
