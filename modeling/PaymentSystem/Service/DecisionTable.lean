/-
# PaymentSystem.Service.DecisionTable -- one payment between finished ones

`decision` is the table the use case is about: what a request with a key of its own comes
to, read off the limit, the threshold and the two accounts.  `Tabled` says that a call
follows the table, in its answer and in what it leaves in each of the stores; and
`pay_tabled` that every such call does, in the currency of all accounts, whatever was paid
before it.
-/
import PaymentSystem.Service.Books
import PaymentSystem.Service.Conservation
import PaymentSystem.Service.Intents
import PaymentSystem.Service.Ways

namespace PaymentSystem.Service

open PaymentSystem.Common
open PaymentSystem.Domain
open PaymentSystem.Patterns
open PaymentSystem.Adapters
open PaymentSystem.Infra
open PaymentSystem.Theory.Runs
open PaymentSystem.Theory.Threads
open PaymentSystem.Theory.Keyed
open PaymentSystem.Theory.MachineInt

set_option autoImplicit false

/-! ## The table -/

/-- What a request is refused with, or `none` if it is paid. -/
def decision (limit threshold : Money) (accounts : InMemoryAccountRepository) (req : PaymentRequest) :
    Option ErrorCode :=
  let amount := req.amount.minorUnits.toInt
  if amount ≤ 0 ∨ req.payerAccountId = req.payeeAccountId ∨ limit.minorUnits.toInt < amount then
    some .validationFailed
  else if threshold.minorUnits.toInt ≤ amount then some .fraudRejected
  else
    match accounts.lookup req.payerAccountId, accounts.lookup req.payeeAccountId with
    | some payer, some _ =>
      if payer.balance.minorUnits.toInt < amount then some .insufficientFunds else none
    | _, _ => some .accountNotFound

/-- The status of the transaction stored, and the type of the event. -/
def statusFor : Option ErrorCode → TxnStatus
  | none => .captured
  | some _ => .failed

def eventFor : Option ErrorCode → String
  | none => "PaymentCaptured"
  | some _ => "PaymentFailed"

/-- The subscribers return from the event the table says the call publishes. -/
def Returns (limit threshold : Money) (c : Call) (s : PaymentService) : Prop :=
  c.env.subscribers (eventFor (decision limit threshold s.accounts c.req))
    (payloadOf (c.txn s.txnIds.next.1
      (statusFor (decision limit threshold s.accounts c.req)))) = .ok ()

/-- A call follows the table: what it answers, and all it does. -/
structure Tabled (limit threshold : Money) (c : Call) (s : PaymentService)
    (r : Outcome × PaymentService) : Prop where
  ok : decision limit threshold s.accounts c.req = none →
    r.1 = .ok (.ok (c.txn s.txnIds.next.1 .captured))
  refused : ∀ code, decision limit threshold s.accounts c.req = some code →
    ∃ msg, r.1 = .ok (.fail ⟨code, msg⟩)
  /-- The amount leaves the payer and reaches the payee, and no other account changes. -/
  moved : decision limit threshold s.accounts c.req = none → ∀ k,
    r.2.ccyAt k = s.ccyAt k ∧ funds r.2 k = funds s k -
      (if k = c.req.payerAccountId then c.req.amount.minorUnits.toInt else 0) +
      (if k = c.req.payeeAccountId then c.req.amount.minorUnits.toInt else 0)
  posted : decision limit threshold s.accounts c.req = none → ∃ entries,
    Paired c.req.payerAccountId c.req.payeeAccountId c.req.amount entries ∧
      (∀ e ∈ entries, e.txnId = s.txnIds.next.1) ∧ r.2.journal = s.journal ++ entries
  kept : decision limit threshold s.accounts c.req ≠ none →
    (∀ k, r.2.accounts.lookup k = s.accounts.lookup k) ∧ r.2.journal = s.journal
  /-- The id is new: nothing is recorded under it, and no key leads to it. -/
  minted : Unused s s.txnIds.next.1
  stored : ∀ id, r.2.transactions.lookup id =
    if id = s.txnIds.next.1 then
      some (c.txn id (statusFor (decision limit threshold s.accounts c.req)))
    else s.transactions.lookup id
  claimed : ∀ key, r.2.idempotency.lookup key =
    if key = c.req.idempotencyKey then some s.txnIds.next.1 else s.idempotency.lookup key
  told : r.2.events = s.events ++
    [eventOf (c.txn s.txnIds.next.1 (statusFor (decision limit threshold s.accounts c.req)))
      (eventFor (decision limit threshold s.accounts c.req))]
  unlocked : ∀ key, ¬ r.2.locks.Held key

/-! ## The chain and the way, by the table -/

/-- The chain in one currency. -/
theorem run_standardChain {limit threshold : Money} {txn : Transaction}
    (limitCcy : txn.amount.currency = limit.currency)
    (thresholdCcy : txn.amount.currency = threshold.currency) :
    ∃ msg, (standardChain limit threshold).run txn = .ok (
      if ¬ PassesBasic txn ∨ limit.minorUnits.toInt < txn.amount.minorUnits.toInt then
        Status.fail .validationFailed msg
      else if threshold.minorUnits.toInt ≤ txn.amount.minorUnits.toInt then
        Status.fail .fraudRejected msg
      else Status.ok) := by
  obtain ⟨msg, basic⟩ := basic_check txn
  obtain ⟨msg', within⟩ := limit_check limitCcy
  obtain ⟨msg'', under⟩ := fraud_check thresholdCcy
  by_cases passes : PassesBasic txn
  · rw [if_pos passes] at basic
    rw [standardChain, ValidationChain.run_cons_ok basic]
    by_cases small : txn.amount.minorUnits.toInt ≤ limit.minorUnits.toInt
    · rw [if_pos small] at within
      rw [ValidationChain.run_cons_ok within]
      have open_ : ¬ (¬ PassesBasic txn ∨ limit.minorUnits.toInt < txn.amount.minorUnits.toInt) := by
        rintro (fails | large)
        · exact fails passes
        · omega
      by_cases quiet : txn.amount.minorUnits.toInt < threshold.minorUnits.toInt
      · rw [if_pos quiet] at under
        refine ⟨"", ?_⟩
        rw [ValidationChain.run_cons_ok under, if_neg open_, if_neg (not_le.2 quiet)]
        rfl
      · rw [if_neg quiet] at under
        refine ⟨msg'', ?_⟩
        rw [ValidationChain.run_cons_fail under rfl, if_neg open_, if_pos (not_lt.1 quiet)]
    · rw [if_neg small] at within
      refine ⟨msg', ?_⟩
      rw [ValidationChain.run_cons_fail within rfl, if_pos (.inr (not_le.1 small))]
  · rw [if_neg passes] at basic
    refine ⟨msg, ?_⟩
    rw [standardChain, ValidationChain.run_cons_fail basic rfl, if_pos (.inl passes)]

/-- All in one currency: the limits, the accounts and the request. -/
structure OneCurrency (ccy : Currency) (limit threshold : Money) (accounts : InMemoryAccountRepository)
    (req : PaymentRequest) : Prop where
  limit : limit.currency = ccy
  threshold : threshold.currency = ccy
  accounts : SingleCurrency ccy accounts
  request : req.amount.currency = ccy

/-- **A call goes the way the table says.** -/
theorem lockedWay_eq {ccy : Currency} {limit threshold : Money} {c : Call} {s : PaymentService}
    (one : OneCurrency ccy limit threshold s.accounts c.req) (id : String) :
    match decision limit threshold s.accounts c.req with
    | none => lockedWay (standardChain limit threshold) c id s = .captures
    | some code => ∃ msg, lockedWay (standardChain limit threshold) c id s = .fails ⟨code, msg⟩ := by
  have limitCcy : (c.txn id .initiated).amount.currency = limit.currency :=
    one.request.trans one.limit.symm
  obtain ⟨msg, ran⟩ := run_standardChain limitCcy (one.request.trans one.threshold.symm)
  have basic : ¬ PassesBasic (c.txn id .initiated) ↔ c.req.amount.minorUnits.toInt ≤ 0 ∨
      c.req.payerAccountId = c.req.payeeAccountId := by
    rw [PassesBasic, not_and_or, not_lt, not_not]
    rfl
  have amount : (c.txn id .initiated).amount = c.req.amount := rfl
  simp only [basic, or_assoc, amount] at ran
  unfold decision lockedWay
  rw [ran]
  by_cases bad : c.req.amount.minorUnits.toInt ≤ 0 ∨
      c.req.payerAccountId = c.req.payeeAccountId ∨
      limit.minorUnits.toInt < c.req.amount.minorUnits.toInt
  · simp only [if_pos bad]
    exact ⟨msg, rfl⟩
  · simp only [if_neg bad]
    by_cases suspect : threshold.minorUnits.toInt ≤ c.req.amount.minorUnits.toInt
    · simp only [if_pos suspect]
      exact ⟨msg, rfl⟩
    · simp only [if_neg suspect, Status.isErr_ok, Bool.false_eq_true, if_false]
      cases payerFound : s.accounts.lookup c.req.payerAccountId with
      | none => exact ⟨_, rfl⟩
      | some payer =>
        cases s.accounts.lookup c.req.payeeAccountId with
        | none => exact ⟨_, rfl⟩
        | some payee =>
          simp only [Option.isNone_some, Bool.false_eq_true, if_false]
          have can : payer.Creditable c.req.amount :=
            ⟨one.request.trans (one.accounts _ payer payerFound).symm, by omega⟩
          by_cases short : payer.balance.minorUnits.toInt < c.req.amount.minorUnits.toInt
          · have cannot : ¬ payer.Debitable c.req.amount := fun covered => by
              have := covered.2
              omega
            obtain ⟨msg, refused⟩ := Account.debit_of_not_debitable cannot
            rw [if_pos short, refused, Account.debitRefusal, if_pos can]
            exact ⟨msg, rfl⟩
          · rw [if_neg short, Account.debit_of_debitable ⟨can, not_lt.1 short⟩]
            rfl

/-! ## One call -/

section Pay

variable {ccy : Currency} {limit threshold : Money} {c : Call} {s : PaymentService}

theorem wayOf_begun {chain : ValidationChain} (begins : Begins c s) :
    wayOf chain c s = lockedWay chain c s.txnIds.next.1 s := by
  have minted : s.txnIds.next.1 ≠ "" := IdGenerator.idOf_ne_empty _ _
  unfold wayOf
  rw [begins.fresh, buildTxn_named minted begins.named]

/-- A paid request passes everything that is asked of it. -/
theorem decision_none {accounts : InMemoryAccountRepository} {req : PaymentRequest}
    (paid : decision limit threshold accounts req = none) :
    0 < req.amount.minorUnits.toInt ∧ req.payerAccountId ≠ req.payeeAccountId ∧
      ∃ payer payee, accounts.lookup req.payerAccountId = some payer ∧
        accounts.lookup req.payeeAccountId = some payee ∧
        req.amount.minorUnits.toInt ≤ payer.balance.minorUnits.toInt := by
  unfold decision at paid
  by_cases bad : req.amount.minorUnits.toInt ≤ 0 ∨ req.payerAccountId = req.payeeAccountId ∨
      limit.minorUnits.toInt < req.amount.minorUnits.toInt
  · simp only [if_pos bad] at paid
    cases paid
  · simp only [if_neg bad] at paid
    rw [not_or, not_or] at bad
    by_cases suspect : threshold.minorUnits.toInt ≤ req.amount.minorUnits.toInt
    · simp only [if_pos suspect] at paid
      cases paid
    · simp only [if_neg suspect] at paid
      split at paid
      · rename_i payer payee payerFound payeeFound
        split at paid
        · cases paid
        · rename_i enough
          exact ⟨not_le.1 bad.1, bad.2.1, payer, payee, payerFound, payeeFound, not_lt.1 enough⟩
      · cases paid

theorem Does.funds_eq {w : Way} {r : Outcome × PaymentService} (does : Does c s w r)
    (moves : w.moves = true) (apart : c.req.payerAccountId ≠ c.req.payeeAccountId)
    {payer payee : Account} (payerFound : s.accounts.lookup c.req.payerAccountId = some payer)
    (payeeFound : s.accounts.lookup c.req.payeeAccountId = some payee)
    (covered : payer.Debitable c.req.amount) (can : payee.Creditable c.req.amount)
    (fits : (payee.balance.minorUnits + c.req.amount.minorUnits).toInt =
      payee.balance.minorUnits.toInt + c.req.amount.minorUnits.toInt) (k : String) :
    funds r.2 k = funds s k -
      (if k = c.req.payerAccountId then c.req.amount.minorUnits.toInt else 0) +
      (if k = c.req.payeeAccountId then c.req.amount.minorUnits.toInt else 0) := by
  have after := does.accounts k
  simp only [moves, if_true] at after
  unfold funds
  rw [after]
  by_cases here : k = c.req.payerAccountId
  · have other : k ≠ c.req.payeeAccountId := here ▸ apart
    rw [if_pos here, if_neg other, here, payerFound]
    simp only [Option.map_some, Call.onAccount, if_true, if_neg apart, Account.minus_minorUnits,
      toInt_sub_of_le covered.1.2 covered.2]
    omega
  · rw [if_neg here]
    by_cases there : k = c.req.payeeAccountId
    · rw [if_pos there, there, payeeFound]
      simp only [Option.map_some, Call.onAccount, if_true, if_neg (Ne.symm apart),
        Account.credited, if_pos can, Account.plus_minorUnits, fits]
      omega
    · rw [if_neg there]
      simp only [Call.onAccount, if_neg here, if_neg there, Option.map_id']
      omega

theorem Does.stored {w : Way} {r : Outcome × PaymentService} (does : Does c s w r) {status : TxnStatus}
    (saves : w.saves c s.txnIds.next.1 = some (c.txn s.txnIds.next.1 status)) (id : String) :
    r.2.transactions.lookup id =
      if id = s.txnIds.next.1 then some (c.txn id status) else s.transactions.lookup id := by
  rw [does.transactions, saves, Option.some_or]
  by_cases own : id = s.txnIds.next.1
  · rw [if_pos own, if_pos own, own]
  · rw [if_neg own, if_neg own]

theorem Does.claimed {w : Way} {r : Outcome × PaymentService} (does : Does c s w r)
    (claims : w.claims = true) (key : String) : r.2.idempotency.lookup key =
      if key = c.req.idempotencyKey then some s.txnIds.next.1 else s.idempotency.lookup key := by
  rw [does.idempotency]
  simp only [claims, true_and]

/-- The entries of a call are a pair, under the id of its transaction. -/
theorem paired_posting (c : Call) (s : PaymentService) (id : String) :
    Paired c.req.payerAccountId c.req.payeeAccountId c.req.amount (s.posting c id) ∧
      ∀ e ∈ s.posting c id, e.txnId = id := by
  refine ⟨⟨_, _, rfl, ⟨rfl, rfl, rfl⟩, ⟨rfl, rfl, rfl⟩⟩, fun e among => ?_⟩
  simp only [PaymentService.posting, postingOf, List.mem_cons, List.not_mem_nil, or_false] at among
  rcases among with rfl | rfl <;> rfl

/-- Where the subscribers return from its event, the call answers what it came to. -/
theorem Returns.told (returns : Returns limit threshold c s) {decided : Option ErrorCode}
    (is : decision limit threshold s.accounts c.req = decided) (res : Result Transaction) :
    told c.env (c.txn s.txnIds.next.1 (statusFor decided)) (eventFor decided) res = .ok res := by
  have heard : c.env.subscribers (eventFor decided)
      (payloadOf (c.txn s.txnIds.next.1 (statusFor decided))) = .ok () := by
    rw [← is]
    exact returns
  rw [Service.told, heard]
  rfl

theorem Does.tabled_paid {r : Outcome × PaymentService} (does : Does c s .captures r)
    (decided : decision limit threshold s.accounts c.req = none)
    (one : OneCurrency ccy limit threshold s.accounts c.req) (solvent : Solvent s.accounts)
    (returns : Returns limit threshold c s)
    (unused : Unused s s.txnIds.next.1) (unlocked : ∀ key, ¬ s.locks.Held key) :
    Tabled limit threshold c s r := by
  obtain ⟨positive, apart, payer, payee, payerFound, payeeFound, enough⟩ := decision_none decided
  have covered : payer.Debitable c.req.amount :=
    ⟨⟨one.request.trans (one.accounts _ payer payerFound).symm, le_of_lt positive⟩, enough⟩
  have can : payee.Creditable c.req.amount :=
    ⟨one.request.trans (one.accounts _ payee payeeFound).symm, le_of_lt positive⟩
  have fits := solvent.credit_fits apart payerFound payeeFound covered can
  obtain ⟨pair, own⟩ := paired_posting c s s.txnIds.next.1
  exact {
    ok := fun _ => does.answer.trans (returns.told decided _)
    refused := fun code is => by cases decided.symm.trans is
    moved := fun _ k =>
      ⟨does.ccyAt k, does.funds_eq rfl apart payerFound payeeFound covered can fits k⟩
    posted := fun _ => ⟨_, pair, own, does.journal⟩
    kept := fun fails => absurd decided fails
    minted := unused
    stored := by
      rw [decided]
      exact does.stored rfl
    claimed := does.claimed rfl
    told := by
      rw [decided]
      exact does.events
    unlocked := fun key held => unlocked key (does.locks key held) }

theorem Does.tabled_refused {r : Outcome × PaymentService} {code : ErrorCode} {msg : String}
    (does : Does c s (.fails ⟨code, msg⟩) r)
    (decided : decision limit threshold s.accounts c.req = some code)
    (returns : Returns limit threshold c s)
    (unused : Unused s s.txnIds.next.1) (unlocked : ∀ key, ¬ s.locks.Held key) :
    Tabled limit threshold c s r where
  ok paid := by cases decided.symm.trans paid
  refused code' is := by
    cases decided.symm.trans is
    exact ⟨msg, does.answer.trans (returns.told decided _)⟩
  moved paid := by cases decided.symm.trans paid
  posted paid := by cases decided.symm.trans paid
  kept _ := ⟨fun k => (does.accounts k).trans Option.map_id', does.journal.trans (List.append_nil _)⟩
  minted := unused
  stored := by
    rw [decided]
    exact does.stored rfl
  claimed := does.claimed rfl
  told := by
    rw [decided]
    exact does.events
  unlocked key held := unlocked key (does.locks key held)

/-- **A call with a key of its own follows the table.** -/
theorem pay_tabled_at (one : OneCurrency ccy limit threshold s.accounts c.req)
    (solvent : Solvent s.accounts) (shipped : c.env.Shipped)
    (returns : Returns limit threshold c s) (begins : Begins c s)
    (unused : Unused s s.txnIds.next.1) (unlocked : ∀ key, ¬ s.locks.Held key) :
    Tabled limit threshold c s (pay (standardChain limit threshold) c.env c.req s) := by
  have does := pay_does (standardChain limit threshold) c s shipped
  have way := lockedWay_eq one s.txnIds.next.1
  rw [wayOf_begun begins] at does
  cases decided : decision limit threshold s.accounts c.req with
  | none =>
    rw [decided] at way
    replace way : lockedWay (standardChain limit threshold) c s.txnIds.next.1 s = .captures := way
    rw [way] at does
    exact does.tabled_paid decided one solvent returns unused unlocked
  | some code =>
    rw [decided] at way
    obtain ⟨msg, way⟩ := way
    rw [way] at does
    exact does.tabled_refused decided returns unused unlocked

/-- Accounts that opened solvent are solvent between calls. -/
theorem Reaches.solvent {chain : ValidationChain} {accounts : InMemoryAccountRepository}
    {calls : List Call} {sched : List Nat} {sys : System} (solvent : Solvent accounts)
    (shipped : ∀ d ∈ calls, d.env.Shipped)
    (reached : Reaches chain (PaymentService.opening accounts) calls sched sys) :
    Solvent sys.service.accounts := by
  have opening : Solvent (PaymentService.opening accounts).accounts := solvent
  have solvency := Solvency.run opening (fun d among => (shipped d among).ledger) reached
  refine ⟨solvency.nonneg, fun ccy => ?_⟩
  have transit : 0 ≤ sys.inTransit ccy :=
    sum_map_nonneg fun t member => (reached.loaded t member).transit_nonneg ccy
  have all := solvency.covered ccy
  have top := solvent.bounded ccy
  have opened : total (heldIn ccy) (PaymentService.opening accounts).accounts =
      total (heldIn ccy) accounts := rfl
  omega

/-- **`pay` equals its decision table**, in every state that finished calls lead to, if its
subscribers return from the event of the call. -/
theorem pay_tabled {accounts : InMemoryAccountRepository} {calls : List Call} {sched : List Nat}
    {sys : System} (one : OneCurrency ccy limit threshold accounts c.req)
    (solvent : Solvent accounts) (shipped : ∀ d ∈ calls, d.env.Shipped)
    (short : calls.length < 2 ^ 64)
    (reached : Reaches (standardChain limit threshold) (PaymentService.opening accounts) calls sched sys)
    (complete : sys.Complete) (own : c.env.Shipped)
    (begins : Begins c sys.service) (returns : Returns limit threshold c sys.service) :
    Tabled limit threshold c sys.service
      (pay (standardChain limit threshold) c.env c.req sys.service) :=
  pay_tabled_at ⟨one.limit, one.threshold, reached.single one.accounts, one.request⟩
    (reached.solvent solvent shipped) own returns begins (reached.unused_next short)
    (reached.unlocked complete)

theorem oneCurrency_main {req : PaymentRequest} (request : req.amount.currency = .inr) :
    OneCurrency .inr ⟨10000000, .inr⟩ ⟨5000000, .inr⟩ userAndMerchant req :=
  ⟨rfl, rfl, inr_userAndMerchant, request⟩

/-- A payment back after a payment. -/
theorem pay_tabled_second : ∃ sched sys, Reaches mainChain (PaymentService.opening userAndMerchant)
    [upiCall "key-1" "u" "m" 30000] sched sys ∧
    Tabled ⟨10000000, .inr⟩ ⟨5000000, .inr⟩ (upiCall "key-2" "m" "u" 500) sys.service
      (pay mainChain (Env.shipped 0) (upiCall "key-2" "m" "u" 500).req sys.service) := by
  have ran : (exec (System.step mainChain)
      (System.init (PaymentService.opening userAndMerchant) [upiCall "key-1" "u" "m" 30000])
      (List.replicate 20 0)).any (fun sys => (sys.threads.all fun t => t.pc.outcome.isSome) &&
        decide (Begins (upiCall "key-2" "m" "u" 500) sys.service)) = true := by decide +kernel
  obtain ⟨sys, reached, found⟩ := exec_any ran
  obtain ⟨ended, begins⟩ := Bool.and_eq_true_iff.1 found
  have shipped : ∀ d ∈ [upiCall "key-1" "u" "m" 30000], d.env.Shipped :=
    List.forall_mem_singleton.2 (Env.shipped_shipped 0)
  exact ⟨_, sys, reached, pay_tabled (oneCurrency_main rfl) solvent_userAndMerchant shipped
    (by decide) reached (System.complete_of_all ended) (Env.shipped_shipped 0)
    (of_decide_eq_true begins) rfl⟩

/-- A payment whose event a subscriber throws on. -/
def interruptedCall : Call :=
  { upiCall "key-1" "u" "m" 30000 with
    env := { Env.shipped 0 with subscribers := fun _ _ => .error (.foreign "subscriber") } }

/-- The table says it is paid, and the call answers nothing. -/
theorem pay_untabled : interruptedCall.env.Shipped ∧
    Begins interruptedCall (PaymentService.opening userAndMerchant) ∧
    OneCurrency .inr ⟨10000000, .inr⟩ ⟨5000000, .inr⟩ userAndMerchant interruptedCall.req ∧
    Solvent userAndMerchant ∧
    decision ⟨10000000, .inr⟩ ⟨5000000, .inr⟩ userAndMerchant interruptedCall.req = none ∧
    ∀ res, (pay mainChain interruptedCall.env interruptedCall.req
      (PaymentService.opening userAndMerchant)).1 ≠ .ok res := by
  have throws : (pay mainChain interruptedCall.env interruptedCall.req
      (PaymentService.opening userAndMerchant)).1 = .error (.foreign "subscriber") := by
    decide +kernel
  refine ⟨⟨rfl, rfl⟩, by decide, oneCurrency_main rfl, solvent_userAndMerchant,
    by decide +kernel, fun res returned => ?_⟩
  cases throws.symm.trans returned

end Pay

end PaymentSystem.Service
