/-
# PaymentSystem.Service.Payloads -- what an event tells of its transaction

`publish` writes the displayed amount and the status of a transaction into the payload of
its event.  The amount can be cut out of the payload again (`amountIn_payloadOf`), and
tells the amount of the transaction unless that has a twin (`amounts_shown`): a payment
of a few minor units and one of as many below zero are told alike.
-/
import PaymentSystem.Common.Display
import PaymentSystem.Service.Files

namespace PaymentSystem.Service

open PaymentSystem.Common
open PaymentSystem.Domain
open PaymentSystem.Patterns
open PaymentSystem.Adapters
open PaymentSystem.Theory
open PaymentSystem.Theory.Runs
open PaymentSystem.Theory.Lines

set_option autoImplicit false

/-- The amount in a payload: what stands between the opening and the next quote. -/
def amountIn (payload : String) : List Char := (payload.toList.drop 11).takeWhile (· ≠ '"')

theorem quote_not_mem_display (m : Money) : '"' ∉ m.toString.toList := by
  rw [Money.toList_display]
  intro member
  rcases List.mem_append.1 member with whole | rest
  · exact Decimal.not_mem_text (by decide) (by decide) whole
  · rcases List.mem_cons.1 rest with dot | rest
    · cases dot
    · rcases List.mem_append.1 rest with cents | code
      · exact Money.plain_padded _ (by decide) cents
      · revert code
        cases m.currency <;> decide

theorem amountIn_payloadOf (txn : Transaction) :
    amountIn (payloadOf txn) = txn.amount.toString.toList := by
  have cut : (payloadOf txn).toList.drop 11 = txn.amount.toString.toList ++
      '"' :: (",\"status\":\"".toList ++ txn.status.toString.toList ++ "\"\x7d".toList) := by
    simp [payloadOf, String.toList_append]
  rw [amountIn, cut, List.takeWhile_append_of_pos, List.takeWhile_cons_of_neg, List.append_nil]
  · decide
  · intro c member
    refine decide_eq_true ?_
    rintro rfl
    exact quote_not_mem_display _ member

/-! ## The events of a run -/

/-- The event is about the transaction, as `publish` makes it. -/
def Tells (e : DomainEvent) (txn : Transaction) : Prop := ∃ type, e = eventOf txn type

variable {chain : ValidationChain}

/-- Whatever is published tells of a transaction that some call asked for. -/
theorem Reaches.told_by {accounts : InMemoryAccountRepository} {calls : List Call}
    {sched : List Nat} {sys : System}
    (reached : Reaches chain (PaymentService.opening accounts) calls sched sys) :
    ∀ e ∈ sys.service.events, ∃ txn, Tells e txn ∧ ∃ c ∈ calls, c.req.Asks txn := by
  refine exec_induct_reached (fun sys => ∀ e ∈ sys.service.events, ∃ txn, Tells e txn ∧
    ∃ c ∈ calls, c.req.Asks txn) ?_ (fun e member => by cases member) reached
  intro early mid i mid' ran told stepped e member
  have ran : Reaches chain (PaymentService.opening accounts) calls early mid := ran
  obtain ⟨c, pc, pc', at_, fired, -⟩ := step_fires stepped
  rcases fired.events with same | ⟨txn, type, res, rfl, -, published⟩
  · rw [same] at member
    exact told e member
  · rw [published] at member
    rcases List.mem_append.1 member with before | now
    · exact told e before
    · have mover := List.mem_of_getElem? at_
      exact ⟨txn, ⟨type, List.mem_singleton.1 now⟩, c, (ran.asked_for _ mover).among,
        (ran.sound _ mover).asks rfl⟩

theorem Tells.identifies_iff {e e' : DomainEvent} {txn txn' : Transaction} (tells : Tells e txn)
    (tells' : Tells e' txn') :
    (amountIn e.payload = amountIn e'.payload → txn.amount = txn'.amount) ↔
      ¬ Money.Twins txn.amount txn'.amount := by
  obtain ⟨type, rfl⟩ := tells
  obtain ⟨type', rfl⟩ := tells'
  have shown (txn : Transaction) (type : String) :
      amountIn (eventOf txn type).payload = txn.amount.toString.toList := amountIn_payloadOf txn
  rw [shown, shown, String.toList_inj]
  exact Money.identifies_iff

/-- **A displayed amount tells the amount exactly if there is no twin**, by itself and in
the payload of any event of any two runs. -/
theorem amounts_shown (m o : Money) :
    ((m.toString = o.toString → m = o) ↔ ¬ Money.Twins m o) ∧
    ∀ (chain chain' : ValidationChain) (accounts accounts' : InMemoryAccountRepository)
      (calls calls' : List Call) (sched sched' : List Nat) (sys sys' : System),
      Reaches chain (PaymentService.opening accounts) calls sched sys →
      Reaches chain' (PaymentService.opening accounts') calls' sched' sys' →
      ∀ e ∈ sys.service.events, ∀ e' ∈ sys'.service.events,
        (∃ txn, Tells e txn ∧ ∃ c ∈ calls, c.req.Asks txn) ∧
        ∀ txn txn', Tells e txn → Tells e' txn' →
          ((amountIn e.payload = amountIn e'.payload → txn.amount = txn'.amount) ↔
            ¬ Money.Twins txn.amount txn'.amount) :=
  ⟨Money.identifies_iff,
    fun _ _ _ _ _ _ _ _ _ _ reached _ e member _ _ =>
      ⟨reached.told_by e member, fun _ _ tells tells' => tells.identifies_iff tells'⟩⟩

/-- A captured payment is told with its amount. -/
theorem amounts_shown_captured : ∃ sched sys, Reaches mainChain
    (PaymentService.opening userAndMerchant) [upiCall "key-1" "u" "m" 30000] sched sys ∧
    ∃ e ∈ sys.service.events, ∀ txn txn', Tells e txn → Tells e txn' →
      ((amountIn e.payload = amountIn e.payload → txn.amount = txn'.amount) ↔
        ¬ Money.Twins txn.amount txn'.amount) := by
  have ran : (exec (System.step mainChain)
      (System.init (PaymentService.opening userAndMerchant) [upiCall "key-1" "u" "m" 30000])
      (List.replicate 20 0)).any (fun sys => !sys.service.events.isEmpty) = true := by decide +kernel
  obtain ⟨sys, reached, some_⟩ := exec_any ran
  obtain ⟨e, member⟩ := List.exists_mem_of_ne_nil sys.service.events fun none_ => by
    rw [none_] at some_
    cases some_
  exact ⟨_, sys, reached, e, member,
    ((amounts_shown ⟨30000, .inr⟩ ⟨30000, .inr⟩).2 _ _ _ _ _ _ _ _ sys sys reached reached e member
      e member).2⟩

/-- A payment of minus five and one of five that is refused as well. -/
def twinCalls : List Call := [upiCall "key-1" "u" "m" (-5), upiCall "key-2" "nobody" "m" 5]

/-- Both are told with the same text. -/
theorem amounts_shown_alike : (⟨-5, .inr⟩ : Money).toString = (⟨5, .inr⟩ : Money).toString ∧
    ∃ sched sys, Reaches mainChain (PaymentService.opening userAndMerchant) twinCalls sched sys ∧
      ∃ e ∈ sys.service.events, ∃ e' ∈ sys.service.events, e.payload = e'.payload ∧
        ((sys.service.transactions.lookup e.aggregateId).map Transaction.amount) = some ⟨-5, .inr⟩ ∧
        ((sys.service.transactions.lookup e'.aggregateId).map Transaction.amount) = some ⟨5, .inr⟩ := by
  refine ⟨Money.toString_eq_iff.2 (.inr ⟨rfl, rfl, by decide, by decide⟩), ?_⟩
  have ran : (exec (System.step mainChain)
      (System.init (PaymentService.opening userAndMerchant) twinCalls)
      (List.replicate 10 0 ++ List.replicate 11 1)).any (fun sys => decide (
        ∃ e ∈ sys.service.events, ∃ e' ∈ sys.service.events, e.payload = e'.payload ∧
          ((sys.service.transactions.lookup e.aggregateId).map Transaction.amount) =
            some ⟨-5, .inr⟩ ∧
          ((sys.service.transactions.lookup e'.aggregateId).map Transaction.amount) =
            some ⟨5, .inr⟩)) = true := by decide +kernel
  obtain ⟨sys, reached, found⟩ := exec_any ran
  exact ⟨_, sys, reached, of_decide_eq_true found⟩

end PaymentSystem.Service
