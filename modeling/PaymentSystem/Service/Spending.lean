/-
# PaymentSystem.Service.Spending -- concurrent payments out of one wallet

Payments from one wallet, all at once, while nothing pays into it.  Over intents they
are transfers out of one source (`PaymentSystem.Theory.Spending`), and every run has a
linearization (`Reaches.explained`), so what holds in every order of the transfers
holds at the end of every run (`spending_safe`).

`Concurrent` is the situation; `Regular` is what it must be besides: accounts with names
and without debts, amounts in their currency, subscribers that return.
`spending_unsafe` has one run for each of the four in which a payment that the wallet
covers is not answered ok, or the books do not add up.
-/
import PaymentSystem.Service.Linearizability
import PaymentSystem.Theory.Spending

namespace PaymentSystem.Service

open PaymentSystem.Common
open PaymentSystem.Domain
open PaymentSystem.Patterns
open PaymentSystem.Adapters
open PaymentSystem.Theory.Keyed
open PaymentSystem.Theory.Runs
open PaymentSystem.Theory.Spending
open PaymentSystem.Theory.Threads
open PaymentSystem.Theory.Transfers

set_option autoImplicit false

/-! ## The situation -/

/-- Payments of positive amounts that the handlers pass, under keys of their own, from
the wallet `w` to other accounts, over shipped adapters that are at rest. -/
structure Concurrent (limit threshold : Money) (w : String) (service : PaymentService)
    (calls : List Call) : Prop where
  unlocked : ∀ key, ¬ service.locks.Held key
  shipped : ∀ c ∈ calls, c.env.Shipped
  distinct : (calls.map fun c => c.req.idempotencyKey).Nodup
  unused : ∀ c ∈ calls, service.idempotency.lookup c.req.idempotencyKey = none
  single : ∃ ccy, SingleCurrency ccy service.accounts
  fits : ∀ ccy, -2 ^ 63 ≤ total (heldIn ccy) service.accounts ∧
    total (heldIn ccy) service.accounts < 2 ^ 63
  wallet : ∃ account, service.accounts.lookup w = some account ∧
    0 ≤ account.balance.minorUnits.toInt
  payer : ∀ c ∈ calls, c.req.payerAccountId = w
  payee : ∀ c ∈ calls, c.req.payeeAccountId ≠ w ∧
    (service.accounts.lookup c.req.payeeAccountId).isSome
  positive : ∀ c ∈ calls, 0 < c.req.amount.minorUnits.toInt
  cleared : ∀ c ∈ calls, Cleared (standardChain limit threshold) (c.txn "" .initiated)

/-- Accounts with names and without debts, amounts in the accounts' currency, and
subscribers that return. -/
structure Regular (service : PaymentService) (calls : List Call) : Prop where
  nonneg : ∀ id account, service.accounts.lookup id = some account →
    0 ≤ account.balance.minorUnits.toInt
  named : ∀ c ∈ calls, c.req.Named
  currency : ∀ c ∈ calls, service.ccyAt c.req.payerAccountId = some c.req.amount.currency
  heard : ∀ c ∈ calls, ∀ type payload, c.env.subscribers type payload = .ok ()

/-- The call returned ok. -/
def Thread.succeeded (t : Thread) : Bool :=
  match t.pc.outcome with
  | some (.ok (.ok _)) => true
  | _ => false

/-- What the call moved, if it returned ok. -/
def Thread.paid (t : Thread) : Int :=
  if t.succeeded then t.call.req.amount.minorUnits.toInt else 0

/-- The calls that returned ok took their amounts out of the wallet and into their
payees' accounts, and nothing else moved; every other call was refused for want of
funds, and what is left is less than its amount. -/
structure Spent (w : String) (service : PaymentService) (sys : System) : Prop where
  wallet : funds sys.service w = funds service w - (sys.threads.map Thread.paid).sum
  nonneg : 0 ≤ funds sys.service w
  payees : ∀ id, id ≠ w → funds sys.service id = funds service id +
    (sys.threads.map fun t => if t.call.req.payeeAccountId = id then t.paid else 0).sum
  others : ∀ t ∈ sys.threads, t.succeeded = false →
    (∃ msg, t.pc.outcome = some (.ok (.fail ⟨.insufficientFunds, msg⟩))) ∧
      funds sys.service w < t.call.req.amount.minorUnits.toInt

/-! ## Every call is a transfer out of the wallet -/

section Run

variable {limit threshold : Money} {w : String} {service : PaymentService} {calls : List Call}
  {sched : List Nat} {sys : System}

theorem Concurrent.ready (concurrent : Concurrent limit threshold w service calls)
    (regular : Regular service calls) : Ready service calls where
  solvent := ⟨regular.nonneg, fun ccy => (concurrent.fits ccy).2⟩
  unlocked := concurrent.unlocked
  shipped := concurrent.shipped
  distinct := concurrent.distinct
  unused := concurrent.unused

/-- The payee and the amount of the call at a place. -/
def targetAt (calls : List Call) (i : Nat) : String :=
  (calls[i]?).elim "" fun c => c.req.payeeAccountId

def amountAt (calls : List Call) (i : Nat) : Int :=
  (calls[i]?).elim 0 fun c => c.req.amount.minorUnits.toInt

theorem Regular.verdicts (regular : Regular service calls) {c : Call} (among : c ∈ calls) :
    c.doneVerdict = .returned .captured ∧
      c.failVerdict .insufficientFunds = .refused .insufficientFunds := by
  constructor
  · rw [Call.doneVerdict, told, regular.heard c among]
    rfl
  · rw [Call.failVerdict, told, regular.heard c among]
    rfl

theorem Concurrent.intent (concurrent : Concurrent limit threshold w service calls)
    (regular : Regular service calls) {c : Call} (among : c ∈ calls) :
    intentOf (standardChain limit threshold) service.ccyAt c =
      .transfer w c.req.payeeAccountId c.req.amount.minorUnits.toInt true (.returned .captured)
        (.refused .insufficientFunds) := by
  obtain ⟨ccy, single⟩ := concurrent.single
  have positive := concurrent.positive c among
  have payer := regular.currency c among
  obtain ⟨wallet, there, is⟩ := Option.map_eq_some_iff.1 payer
  obtain ⟨payee, found⟩ := Option.isSome_iff_exists.1 (concurrent.payee c among).2
  have same : payee.balance.currency = c.req.amount.currency := by
    rw [single _ payee found, ← single _ wallet there, is]
  obtain ⟨done, short⟩ := regular.verdicts among
  rw [intentOf_transfer (regular.named c among) (concurrent.cleared c among) payer
    (ccyAt_of_found found) (by omega), done, short, concurrent.payer c among, same,
    decide_eq_true rfl]

theorem Concurrent.outgoing (concurrent : Concurrent limit threshold w service calls)
    (regular : Regular service calls) {order : List Nat} (inside : ∀ i ∈ order, i < calls.length) :
    Outgoing (perform (standardChain limit threshold) service.ccyAt calls) w (targetAt calls)
      (amountAt calls) (fun _ => .returned .captured) (fun _ => .refused .insufficientFunds)
      order := by
  have place (i : Nat) (member : i ∈ order) : ∃ c, calls[i]? = some c ∧ c ∈ calls :=
    ⟨_, List.getElem?_eq_getElem (inside i member), List.getElem_mem _⟩
  constructor
  · intro i member f
    obtain ⟨c, at_, among⟩ := place i member
    rw [perform_at at_, concurrent.intent regular among, targetAt, amountAt, at_]
    rfl
  · intro i member
    obtain ⟨c, at_, among⟩ := place i member
    rw [targetAt, at_]
    exact (concurrent.payee c among).1
  · intro i member
    obtain ⟨c, at_, among⟩ := place i member
    have positive := concurrent.positive c among
    rw [amountAt, at_]
    exact le_of_lt positive
  · exact fun i _ => Verdict.noConfusion

/-! ## The end of every run -/

/-- What a verdict says about the outcome. -/
theorem succeeded_iff {t : Thread} {out : Outcome} (ended : t.pc.outcome = some out) :
    t.succeeded = true ↔ ∃ status, verdictOf out = .returned status := by
  unfold Thread.succeeded
  rw [ended]
  cases out with
  | error e => exact iff_of_false Bool.false_ne_true fun ⟨_, is⟩ => Verdict.noConfusion is
  | ok res =>
    cases res with
    | ok txn => exact iff_of_true rfl ⟨_, rfl⟩
    | fail e => exact iff_of_false Bool.false_ne_true fun ⟨_, is⟩ => Verdict.noConfusion is

theorem refused_outcome {out : Outcome} {code : ErrorCode} (refused : verdictOf out = .refused code) :
    ∃ msg, out = .ok (.fail ⟨code, msg⟩) := by
  cases out with
  | error e => cases refused
  | ok res =>
    cases res with
    | ok txn => cases refused
    | fail e =>
      cases refused
      exact ⟨e.message, rfl⟩

theorem spent_complete (concurrent : Concurrent limit threshold w service calls)
    (regular : Regular service calls)
    (reached : Reaches (standardChain limit threshold) service calls sched sys)
    (complete : sys.Complete) : Spent w service sys := by
  have ready := concurrent.ready regular
  obtain ⟨order, explains, -⟩ := reached.explained (oblivious_standardChain limit threshold) ready
  have unshared := (ready.settling reached).unshared
  have all := order_complete explains complete unshared
  have inside : ∀ i ∈ order, i < calls.length := by
    intro i member
    rw [← length_threads reached]
    exact List.mem_range.1 (all.mem_iff.1 member)
  have drawn := (concurrent.outgoing regular inside).drawn explains.nodup (funds service)
  have quiet (id : String) : sys.leaving id = 0 :=
    sum_map_zero fun t member => leaving_of_ended (complete t member) id
  have final (id : String) :
      after (perform (standardChain limit threshold) service.ccyAt calls) (funds service) order id =
        funds sys.service id := by
    rw [explains.rel.2 id, quiet, add_zero]
  -- the answer of the linearization at a place is the verdict of its call
  have answers (i : Nat) (t : Thread) (at_ : sys.threads[i]? = some t) :
      ∃ out, t.pc.outcome = some out ∧ i ∈ order ∧
        answer (perform (standardChain limit threshold) service.ccyAt calls) (funds service) order i =
          some (verdictOf out) := by
    obtain ⟨out, ended⟩ := Option.ne_none_iff_exists'.1 (complete t (List.mem_of_getElem? at_))
    refine ⟨out, ended, ?_, ?_⟩
    · rw [all.mem_iff, List.mem_range]
      exact (List.getElem?_eq_some_iff.1 at_).1
    · rw [← explains.answers i]
      exact decided_of_ended unshared (Option.bind_eq_some_iff.2 ⟨t, at_, ended⟩)
  have failed (i : Nat) (t : Thread) (at_ : sys.threads[i]? = some t) (unpaid : t.succeeded = false) :
      answer (perform (standardChain limit threshold) service.ccyAt calls) (funds service) order i ≠
        some (.returned .captured) := by
    obtain ⟨out, ended, -, answered⟩ := answers i t at_
    rw [answered]
    intro is
    rw [(succeeded_iff ended).2 ⟨_, Option.some.inj is⟩] at unpaid
    cases unpaid
  have gains (i : Nat) (t : Thread) (at_ : sys.threads[i]? = some t) :
      gain (perform (standardChain limit threshold) service.ccyAt calls) (amountAt calls)
        (fun _ => .returned .captured) (funds service) order i = t.paid := by
    obtain ⟨out, ended, member, answered⟩ := answers i t at_
    unfold Thread.paid
    cases succeeded : t.succeeded with
    | false => rw [gain, if_neg (failed i t at_ succeeded)]; rfl
    | true =>
      have done : answer (perform (standardChain limit threshold) service.ccyAt calls)
          (funds service) order i = some (.returned .captured) := by
        by_contra other
        obtain ⟨refused, -⟩ := drawn.refused i member other
        obtain ⟨status, returned⟩ := (succeeded_iff ended).1 succeeded
        rw [answered, returned] at refused
        cases refused
      rw [gain, if_pos done, amountAt, reached.place at_]
      rfl
  constructor
  · rw [← final, drawn.left, sum_places all gains]
  · obtain ⟨account, found, nonneg⟩ := concurrent.wallet
    rw [← final]
    apply drawn.covered
    rw [funds_of_found found]
    exact nonneg
  · intro id other
    rw [← final, drawn.reached id other, sum_places all]
    intro i t at_
    rw [gains i t at_, targetAt, reached.place at_]
    rfl
  · intro t member unpaid
    obtain ⟨i, at_⟩ := List.mem_iff_getElem?.1 member
    obtain ⟨out, ended, place, answered⟩ := answers i t at_
    obtain ⟨refused, left⟩ := drawn.refused i place (failed i t at_ unpaid)
    rw [answered] at refused
    obtain ⟨msg, rfl⟩ := refused_outcome (Option.some.inj refused)
    refine ⟨⟨msg, ended⟩, ?_⟩
    rw [final, amountAt, reached.place at_] at left
    exact left

/-- Equal amounts succeed as often as the wallet holds them. -/
theorem Spent.count {chain : ValidationChain} {a : Int} (spent : Spent w service sys)
    (reached : Reaches chain service calls sched sys) (positive : 0 < a)
    (equal : ∀ c ∈ calls, c.req.amount.minorUnits.toInt = a) :
    (sys.threads.countP Thread.succeeded : Int) =
      min (calls.length : Int) (funds service w / a) := by
  have amount : ∀ t ∈ sys.threads, t.call.req.amount.minorUnits.toInt = a := by
    intro t member
    refine equal _ ?_
    rw [← reached.calls]
    exact List.mem_map_of_mem member
  have paid : (sys.threads.map Thread.paid).sum = sys.threads.countP Thread.succeeded * a := by
    rw [← sum_map_count]
    refine congrArg List.sum (List.map_congr_left fun t member => ?_)
    rw [Thread.paid, amount t member]
  have left := spent.wallet
  rw [paid] at left
  rw [← length_threads reached]
  refine count_covered positive List.countP_le_length (left ▸ spent.nonneg) fun fewer => ?_
  obtain ⟨t, member, unpaid⟩ : ∃ t ∈ sys.threads, ¬ t.succeeded = true := by
    by_contra none_
    refine Nat.ne_of_lt fewer (List.countP_eq_length.2 fun t member => ?_)
    by_contra unpaid
    exact none_ ⟨t, member, unpaid⟩
  have short := (spent.others t member (by simpa using unpaid)).2
  rw [amount t member, left] at short
  exact short

/-- **Concurrent spending is safe, and refuses nothing it could afford**, in every run to
its end.  Equal amounts succeed exactly as often as the wallet holds them. -/
theorem spending_safe (concurrent : Concurrent limit threshold w service calls)
    (regular : Regular service calls)
    (reached : Reaches (standardChain limit threshold) service calls sched sys)
    (complete : sys.Complete) :
    Spent w service sys ∧
      ∀ a : Int, 0 < a → (∀ c ∈ calls, c.req.amount.minorUnits.toInt = a) →
        (sys.threads.countP Thread.succeeded : Int) =
          min (calls.length : Int) (funds service w / a) := by
  have spent := spent_complete concurrent regular reached complete
  exact ⟨spent, fun a positive equal => spent.count reached positive equal⟩

end Run

/-! ## Concrete situations -/

/-- A service just opened is at rest, and the rest of the situation can be checked. -/
theorem Concurrent.opening {limit threshold : Money} {w : String} {accounts : InMemoryAccountRepository}
    {calls : List Call} (shipped : ∀ c ∈ calls, c.env.Shipped) (ccy : Currency)
    (single : ∀ e ∈ accounts.entries, e.2.balance.currency = ccy)
    (fits : ∀ ccy ∈ [Currency.inr, .usd, .eur], -2 ^ 63 ≤ total (heldIn ccy) accounts ∧
      total (heldIn ccy) accounts < 2 ^ 63)
    (wallet : (accounts.lookup w).any (fun account => 0 ≤ account.balance.minorUnits.toInt) = true)
    (distinct : (calls.map fun c => c.req.idempotencyKey).Nodup)
    (pays : ∀ c ∈ calls, c.req.payerAccountId = w ∧ c.req.payeeAccountId ≠ w ∧
      (accounts.lookup c.req.payeeAccountId).isSome ∧ 0 < c.req.amount.minorUnits.toInt ∧
      ((standardChain limit threshold).run (c.txn "" .initiated)).toOption.map Status.isErr =
        some false) :
    Concurrent limit threshold w (PaymentService.opening accounts) calls where
  unlocked _ := nofun
  shipped := shipped
  distinct := distinct
  unused _ _ := rfl
  single := ⟨ccy, fun id account found => single ⟨id, account⟩ (AList.mem_lookup_iff.1 found)⟩
  fits ccy := by cases ccy <;> exact fits _ (by decide)
  wallet := by
    obtain ⟨account, found, nonneg⟩ := (Option.any_eq_true _ _).1 wallet
    exact ⟨account, found, of_decide_eq_true nonneg⟩
  payer c among := (pays c among).1
  payee c among := ⟨(pays c among).2.1, (pays c among).2.2.1⟩
  positive c among := (pays c among).2.2.2.1
  cleared c among := by
    obtain ⟨v, ran, ok⟩ := Option.map_eq_some_iff.1 (pays c among).2.2.2.2
    refine ⟨v, ?_, ok⟩
    cases result : (standardChain limit threshold).run (c.txn "" .initiated) with
    | error e =>
      rw [result] at ran
      cases ran
    | ok v' =>
      rw [result] at ran
      exact congrArg Except.ok (Option.some.inj ran)

/-- The books of a finished run add up, as far as can be seen from the wallet `u` and the
merchant `m`: nobody was refused but for want of funds, and the merchant has what was paid. -/
def addsUp (service : PaymentService) (sys : System) : Bool :=
  (sys.threads.all fun t => match t.pc.outcome with
    | some (.ok (.ok _)) => true
    | some (.ok (.fail e)) => e.code = .insufficientFunds
    | _ => false) &&
  funds sys.service "m" = funds service "m" +
    (sys.threads.map fun t => if t.call.req.payeeAccountId = "m" then t.paid else 0).sum

theorem Spent.addsUp {service : PaymentService} {sys : System} (spent : Spent "u" service sys) :
    addsUp service sys = true := by
  rw [Service.addsUp, Bool.and_eq_true, List.all_eq_true]
  refine ⟨fun t member => ?_, decide_eq_true (spent.payees "m" (by decide))⟩
  cases succeeded : t.succeeded with
  | true =>
    unfold Thread.succeeded at succeeded
    split at succeeded
    · rename_i txn outcome
      rw [outcome]
    · cases succeeded
  | false =>
    obtain ⟨⟨msg, outcome⟩, -⟩ := spent.others t member succeeded
    rw [outcome]
    rfl

/-- The situation is given, and some run to the end does not add up. -/
def Misspends (accounts : InMemoryAccountRepository) (calls : List Call) : Prop :=
  Concurrent ⟨10000000, .inr⟩ ⟨5000000, .inr⟩ "u" (PaymentService.opening accounts) calls ∧
    ∃ sched sys, Reaches mainChain (PaymentService.opening accounts) calls sched sys ∧
      sys.Complete ∧ ¬ Spent "u" (PaymentService.opening accounts) sys

theorem Misspends.of_run {accounts : InMemoryAccountRepository} {calls : List Call}
    (concurrent : Concurrent ⟨10000000, .inr⟩ ⟨5000000, .inr⟩ "u" (PaymentService.opening accounts)
      calls) (sched : List Nat)
    (ran : (exec (System.step mainChain) (System.init (PaymentService.opening accounts) calls)
      sched).any (fun sys => (sys.threads.all fun t => t.pc.outcome.isSome) &&
        !addsUp (PaymentService.opening accounts) sys) = true) : Misspends accounts calls := by
  obtain ⟨sys, reached, found⟩ := exec_any ran
  obtain ⟨ended, off⟩ := Bool.and_eq_true_iff.1 found
  refine ⟨concurrent, sched, sys, reached, System.complete_of_all ended, fun spent => ?_⟩
  rw [spent.addsUp] at off
  cases off

/-- A payment whose only subscriber throws. -/
def unheardCall : Call :=
  { upiCall "key-1" "u" "m" 30000 with
    env := { Env.shipped 0 with subscribers := fun _ _ => .error (.invalidArgument "unheard") } }

/-- An account without a name, next to the wallet and the merchant. -/
def withNameless : InMemoryAccountRepository := userAndMerchant.save ⟨"", ⟨0, .inr⟩⟩

def usdAccounts : InMemoryAccountRepository :=
  InMemoryAccountRepository.save (InMemoryAccountRepository.save ∅ ⟨"u", ⟨100000, .usd⟩⟩)
    ⟨"m", ⟨0, .usd⟩⟩

/-- A merchant at the top of the range, and a debt that keeps the total within it. -/
def withDebt : InMemoryAccountRepository :=
  InMemoryAccountRepository.save (InMemoryAccountRepository.save (InMemoryAccountRepository.save ∅
    ⟨"u", ⟨100000, .inr⟩⟩) ⟨"m", ⟨Int64.maxValue, .inr⟩⟩) ⟨"x", ⟨-200000, .inr⟩⟩

/-- **The situation alone is not enough.**  A payee without a name makes the Builder
throw; a subscriber's exception hides a payment that went through; an amount in another
currency is refused for that; and a debt elsewhere lets a payee's balance wrap. -/
theorem spending_unsafe :
    Misspends withNameless [upiCall "key-1" "u" "" 30000] ∧
      Misspends userAndMerchant [unheardCall] ∧
      Misspends usdAccounts [upiCall "key-1" "u" "m" 30000] ∧
      Misspends withDebt [upiCall "key-1" "u" "m" 30000] := by
  refine ⟨?_, ?_, ?_, ?_⟩
  · refine .of_run (.opening (List.forall_mem_singleton.2 ⟨rfl, rfl⟩) .inr ?_ ?_ ?_ ?_ ?_)
      (List.replicate 3 0) ?_ <;> decide +kernel
  · refine .of_run (.opening (List.forall_mem_singleton.2 ⟨rfl, rfl⟩) .inr ?_ ?_ ?_ ?_ ?_)
      (List.replicate 20 0) ?_ <;> decide +kernel
  · refine .of_run (.opening (List.forall_mem_singleton.2 ⟨rfl, rfl⟩) .usd ?_ ?_ ?_ ?_ ?_)
      (List.replicate 13 0) ?_ <;> decide +kernel
  · refine .of_run (.opening (List.forall_mem_singleton.2 ⟨rfl, rfl⟩) .inr ?_ ?_ ?_ ?_ ?_)
      (List.replicate 20 0) ?_ <;> decide +kernel

/-- Three payments of 400.00 INR out of 1000.00 INR. -/
def threePayments : List Call :=
  [upiCall "key-1" "u" "m" 40000, upiCall "key-2" "u" "m" 40000, upiCall "key-3" "u" "m" 40000]

/-- Two of them succeed, here the last two. -/
theorem spending_safe_three : ∃ sched sys,
    Reaches mainChain (PaymentService.opening userAndMerchant) threePayments sched sys ∧
    Spent "u" (PaymentService.opening userAndMerchant) sys ∧
    sys.threads.countP Thread.succeeded = 2 := by
  have concurrent : Concurrent ⟨10000000, .inr⟩ ⟨5000000, .inr⟩ "u"
      (PaymentService.opening userAndMerchant) threePayments := by
    refine .opening (fun c among => ?_) .inr (by decide) (by decide) (by decide) (by decide)
      (by decide +kernel)
    simp only [threePayments, List.mem_cons, List.not_mem_nil, or_false] at among
    rcases among with rfl | rfl | rfl <;> exact Env.shipped_shipped 0
  have regular : Regular (PaymentService.opening userAndMerchant) threePayments := by
    refine ⟨solvent_userAndMerchant.nonneg, by decide, by decide, fun c among type payload => ?_⟩
    simp only [threePayments, List.mem_cons, List.not_mem_nil, or_false] at among
    rcases among with rfl | rfl | rfl <;> rfl
  have ran : (exec (System.step mainChain)
      (System.init (PaymentService.opening userAndMerchant) threePayments)
      (List.replicate 4 0 ++ List.replicate 20 2 ++ List.replicate 20 1 ++ List.replicate 9 0)).any
        (fun sys => sys.threads.all fun t => t.pc.outcome.isSome) = true := by decide +kernel
  obtain ⟨sys, reached, ended⟩ := exec_any ran
  obtain ⟨spent, counts⟩ := spending_safe concurrent regular reached (System.complete_of_all ended)
  refine ⟨_, sys, reached, spent, ?_⟩
  have count := counts 40000 (by decide) (by decide)
  have two : min ((threePayments.length : Nat) : Int)
      (funds (PaymentService.opening userAndMerchant) "u" / 40000) = 2 := by decide
  omega

end PaymentSystem.Service
