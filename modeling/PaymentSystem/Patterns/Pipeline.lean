/-
# PaymentSystem.Patterns.Pipeline -- validation chain, lifecycle, strategies

`include/payment/patterns`: the chain of responsibility (`ValidationChain.hpp`),
the transition table (`TransactionStateMachine.hpp`), the strategy interface with
its four shipped implementations (`PaymentStrategy.hpp`) and their factory.

A handler is its `check`, so a chain may hold any handler at all; the three
shipped ones are values of that type.  `Wiring` is a chain made of these three in
any order, and `Wiring.Mismatch` is the condition on a request under which running
such a chain throws (`Wiring.run_throws_iff`).
-/
import PaymentSystem.Domain.Entities

namespace PaymentSystem.Patterns

open PaymentSystem.Common
open PaymentSystem.Domain

set_option autoImplicit false

/-! ## Chain of responsibility -/

structure ValidationHandler where
  check : Transaction → Except Exception Status

/-- The handlers in insertion order. -/
abbrev ValidationChain := List ValidationHandler

/-- `ValidationChain::run`: the first rejection short-circuits; so does a throw. -/
def ValidationChain.run : ValidationChain → Transaction → Except Exception Status
  | [], _ => .ok Status.ok
  | h :: rest, txn => do
    let s ← h.check txn
    if s.isErr then return s
    ValidationChain.run rest txn

/-- `BasicValidationHandler`. -/
def basicValidationHandler : ValidationHandler where
  check txn :=
    if !txn.amount.isPositive then
      .ok (Status.fail .validationFailed "amount must be > 0")
    else if txn.payerAccountId = txn.payeeAccountId then
      .ok (Status.fail .validationFailed "payer and payee must differ")
    else .ok Status.ok

/-- `LimitValidationHandler(limit)`. -/
def limitValidationHandler (limit : Money) : ValidationHandler where
  check txn := do
    if ← txn.amount.gt limit then
      return Status.fail .validationFailed ("amount " ++ txn.amount.toString ++
        " exceeds per-txn limit " ++ limit.toString)
    return Status.ok

/-- `FraudCheckHandler(threshold)`. -/
def fraudCheckHandler (threshold : Money) : ValidationHandler where
  check txn := do
    if ← txn.amount.ge threshold then
      return Status.fail .fraudRejected ("amount " ++ txn.amount.toString ++
        " held for fraud review")
    return Status.ok

/-- The chain Basic, Limit, Fraud. -/
def standardChain (limit threshold : Money) : ValidationChain :=
  [basicValidationHandler, limitValidationHandler limit, fraudCheckHandler threshold]

/-- The chain as `main.cpp` and the test harness wire it: 100000 INR and 50000 INR. -/
def mainChain : ValidationChain := standardChain ⟨10000000, .inr⟩ ⟨5000000, .inr⟩

/-! ### The three handlers, decided -/

/-- The requests `basicValidationHandler` lets through. -/
def PassesBasic (txn : Transaction) : Prop :=
  0 < txn.amount.minorUnits.toInt ∧ txn.payerAccountId ≠ txn.payeeAccountId

instance (txn : Transaction) : Decidable (PassesBasic txn) := inferInstanceAs (Decidable (_ ∧ _))

theorem basic_check (txn : Transaction) :
    ∃ msg, basicValidationHandler.check txn =
      .ok (if PassesBasic txn then Status.ok else Status.fail .validationFailed msg) := by
  by_cases positive : txn.amount.isPositive = true
  · have pos := (Money.isPositive_iff _).1 positive
    by_cases same : txn.payerAccountId = txn.payeeAccountId
    · exact ⟨_, by simp only [basicValidationHandler, positive, same, PassesBasic]; simp; rfl⟩
    · exact ⟨"", by simp [basicValidationHandler, positive, same, PassesBasic, pos]⟩
  · have npos : ¬ 0 < txn.amount.minorUnits.toInt := fun h => positive ((Money.isPositive_iff _).2 h)
    exact ⟨_, by simp only [basicValidationHandler, positive, PassesBasic, npos]; simp; rfl⟩

theorem limit_check {limit : Money} {txn : Transaction} (same : txn.amount.currency = limit.currency) :
    ∃ msg, (limitValidationHandler limit).check txn =
      .ok (if txn.amount.minorUnits.toInt ≤ limit.minorUnits.toInt then Status.ok
        else Status.fail .validationFailed msg) := by
  by_cases within : txn.amount.minorUnits.toInt ≤ limit.minorUnits.toInt
  · have : ¬ limit.minorUnits < txn.amount.minorUnits := by
      rw [Int64.lt_iff_toInt_lt]; omega
    exact ⟨"", by simp [limitValidationHandler, Money.gt_same same, this, within, bind, Except.bind,
      pure, Except.pure]⟩
  · have : limit.minorUnits < txn.amount.minorUnits := by
      rw [Int64.lt_iff_toInt_lt]; omega
    exact ⟨_, by
      simp only [limitValidationHandler, Money.gt_same same, this, within, bind, Except.bind,
        decide_true, if_true, if_false]; rfl⟩

theorem fraud_check {threshold : Money} {txn : Transaction}
    (same : txn.amount.currency = threshold.currency) :
    ∃ msg, (fraudCheckHandler threshold).check txn =
      .ok (if txn.amount.minorUnits.toInt < threshold.minorUnits.toInt then Status.ok
        else Status.fail .fraudRejected msg) := by
  by_cases under : txn.amount.minorUnits.toInt < threshold.minorUnits.toInt
  · have : ¬ threshold.minorUnits ≤ txn.amount.minorUnits := by
      rw [Int64.le_iff_toInt_le]; omega
    exact ⟨"", by simp [fraudCheckHandler, Money.ge_same same, this, under, bind, Except.bind,
      pure, Except.pure]⟩
  · have : threshold.minorUnits ≤ txn.amount.minorUnits := by
      rw [Int64.le_iff_toInt_le]; omega
    exact ⟨_, by
      simp only [fraudCheckHandler, Money.ge_same same, this, under, bind, Except.bind,
        decide_true, if_true, if_false]; rfl⟩

theorem limit_check_mixed {limit : Money} {txn : Transaction}
    (mixed : txn.amount.currency ≠ limit.currency) :
    ∃ e, (limitValidationHandler limit).check txn = .error e :=
  ⟨_, by simp only [limitValidationHandler, Money.gt, Money.assertSameCcy_mixed mixed, bind,
    Except.bind]; rfl⟩

theorem fraud_check_mixed {threshold : Money} {txn : Transaction}
    (mixed : txn.amount.currency ≠ threshold.currency) :
    ∃ e, (fraudCheckHandler threshold).check txn = .error e :=
  ⟨_, by simp only [fraudCheckHandler, Money.ge, Money.assertSameCcy_mixed mixed, bind,
    Except.bind]; rfl⟩

/-! ### Wirings -/

/-- One of the three shipped handlers. -/
inductive Link where
  | basic
  | limit
  | fraud
  deriving DecidableEq, Repr

def Link.handler (limit threshold : Money) : Link → ValidationHandler
  | .basic => basicValidationHandler
  | .limit => limitValidationHandler limit
  | .fraud => fraudCheckHandler threshold

/-- A chain of the shipped handlers, in any order and number. -/
def wired (limit threshold : Money) (links : List Link) : ValidationChain :=
  links.map (Link.handler limit threshold)

/-- Some link compares currencies that differ, and no link before it rejects. -/
def Mismatch (limit threshold : Money) (txn : Transaction) : List Link → Prop
  | [] => False
  | .basic :: rest => PassesBasic txn ∧ Mismatch limit threshold txn rest
  | .limit :: rest =>
      txn.amount.currency ≠ limit.currency ∨
        txn.amount.minorUnits.toInt ≤ limit.minorUnits.toInt ∧ Mismatch limit threshold txn rest
  | .fraud :: rest =>
      txn.amount.currency ≠ threshold.currency ∨
        txn.amount.minorUnits.toInt < threshold.minorUnits.toInt ∧ Mismatch limit threshold txn rest

instance decidableMismatch (limit threshold : Money) (txn : Transaction) :
    (links : List Link) → Decidable (Mismatch limit threshold txn links)
  | [] => inferInstanceAs (Decidable False)
  | .basic :: rest =>
      have := decidableMismatch limit threshold txn rest
      inferInstanceAs (Decidable (_ ∧ _))
  | .limit :: rest =>
      have := decidableMismatch limit threshold txn rest
      inferInstanceAs (Decidable (_ ∨ _ ∧ _))
  | .fraud :: rest =>
      have := decidableMismatch limit threshold txn rest
      inferInstanceAs (Decidable (_ ∨ _ ∧ _))

theorem ValidationChain.run_cons_ok {h : ValidationHandler} {rest : ValidationChain}
    {txn : Transaction} (passed : h.check txn = .ok Status.ok) :
    ValidationChain.run (h :: rest) txn = ValidationChain.run rest txn := by
  simp [ValidationChain.run, passed, bind, Except.bind]

theorem ValidationChain.run_cons_fail {h : ValidationHandler} {rest : ValidationChain}
    {txn : Transaction} {s : Status} (rejected : h.check txn = .ok s) (err : s.isErr = true) :
    ValidationChain.run (h :: rest) txn = .ok s := by
  simp [ValidationChain.run, rejected, err, bind, Except.bind, pure, Except.pure]

theorem ValidationChain.run_cons_throw {h : ValidationHandler} {rest : ValidationChain}
    {txn : Transaction} {e : Exception} (threw : h.check txn = .error e) :
    ValidationChain.run (h :: rest) txn = .error e := by
  simp [ValidationChain.run, threw, bind, Except.bind]

/-- **Running a wiring throws exactly on a currency mismatch that is reached.** -/
theorem run_throws_iff (limit threshold : Money) (txn : Transaction) (links : List Link) :
    (∃ e, (wired limit threshold links).run txn = .error e) ↔
      Mismatch limit threshold txn links := by
  induction links with
  | nil => simp [wired, ValidationChain.run, Mismatch]
  | cons link rest ih =>
    have tail : wired limit threshold (link :: rest) =
        link.handler limit threshold :: wired limit threshold rest := rfl
    rw [tail]
    cases link with
    | basic =>
      obtain ⟨msg, checked⟩ := basic_check txn
      by_cases passes : PassesBasic txn
      · rw [if_pos passes] at checked
        rw [ValidationChain.run_cons_ok (h := Link.handler limit threshold .basic) checked, ih]
        simp [Mismatch, passes]
      · rw [if_neg passes] at checked
        rw [ValidationChain.run_cons_fail (h := Link.handler limit threshold .basic) checked rfl]
        simp [Mismatch, passes]
    | limit =>
      by_cases same : txn.amount.currency = limit.currency
      · obtain ⟨msg, checked⟩ := limit_check same
        by_cases within : txn.amount.minorUnits.toInt ≤ limit.minorUnits.toInt
        · rw [if_pos within] at checked
          rw [ValidationChain.run_cons_ok (h := Link.handler limit threshold .limit) checked, ih]
          simp [Mismatch, same, within]
        · rw [if_neg within] at checked
          rw [ValidationChain.run_cons_fail (h := Link.handler limit threshold .limit) checked rfl]
          simp [Mismatch, same, within]
      · obtain ⟨e, threw⟩ := limit_check_mixed same
        rw [ValidationChain.run_cons_throw (h := Link.handler limit threshold .limit) threw]
        simp [Mismatch, same]
    | fraud =>
      by_cases same : txn.amount.currency = threshold.currency
      · obtain ⟨msg, checked⟩ := fraud_check same
        by_cases under : txn.amount.minorUnits.toInt < threshold.minorUnits.toInt
        · rw [if_pos under] at checked
          rw [ValidationChain.run_cons_ok (h := Link.handler limit threshold .fraud) checked, ih]
          simp [Mismatch, same, under]
        · rw [if_neg under] at checked
          rw [ValidationChain.run_cons_fail (h := Link.handler limit threshold .fraud) checked rfl]
          simp [Mismatch, same, under]
      · obtain ⟨e, threw⟩ := fraud_check_mixed same
        rw [ValidationChain.run_cons_throw (h := Link.handler limit threshold .fraud) threw]
        simp [Mismatch, same]

/-! ## Lifecycle -/

/-- `TransactionStateMachine::allowed_`, the adjacency list. -/
def allowed : TxnStatus → List TxnStatus
  | .initiated => [.authorized, .failed]
  | .authorized => [.captured, .failed]
  | .captured => [.settled, .refunded]
  | .settled => []
  | .failed => []
  | .refunded => []

def canTransition (src dst : TxnStatus) : Bool := dst ∈ allowed src

/-- `TransactionStateMachine::transition`: the same as a status. -/
def transition (src dst : TxnStatus) : Status :=
  if !canTransition src dst then
    Status.fail .invalidStateTransition
      ("illegal transition " ++ src.toString ++ " -> " ++ dst.toString)
  else Status.ok

def isTerminal (s : TxnStatus) : Bool := (allowed s).isEmpty

theorem transition_isOk (src dst : TxnStatus) :
    (transition src dst).isOk = canTransition src dst := by
  unfold transition
  cases canTransition src dst <;> rfl

/-- Nothing follows a terminal status, and something every other. -/
theorem isTerminal_iff (s : TxnStatus) :
    isTerminal s = true ↔ ∀ dst, (transition s dst).isOk = false := by
  constructor
  · intro terminal dst
    rw [transition_isOk, canTransition, List.isEmpty_iff.1 terminal]
    rfl
  · intro refused
    rw [isTerminal, List.isEmpty_iff, List.eq_nil_iff_forall_not_mem]
    intro dst member
    have ok := refused dst
    rw [transition_isOk, canTransition, decide_eq_false_iff_not] at ok
    exact ok member

/-! ## Strategies -/

structure GatewayRef where
  provider : String
  reference : String
  deriving DecidableEq, Repr

structure PaymentStrategy where
  authorize : Transaction → Result GatewayRef
  capture : Transaction → GatewayRef → Status

/-- The shape of the four shipped strategies: approve, and mint a reference from
the transaction id. -/
def approving (provider tag : String) : PaymentStrategy where
  authorize txn := .ok ⟨provider, tag ++ txn.id⟩
  capture _ _ := Status.ok

def cardPaymentStrategy : PaymentStrategy := approving "VISA" "auth_"

def upiPaymentStrategy : PaymentStrategy := approving "UPI" "upi_"

def walletPaymentStrategy : PaymentStrategy := approving "WALLET" "wlt_"

def netBankingPaymentStrategy : PaymentStrategy := approving "NETBANK" "nb_"

/-- What `PaymentStrategyFactory::create` hands back, for a registry of any content. -/
abbrev StrategyRegistry := PaymentMethod → Option PaymentStrategy

/-- `PaymentStrategyFactory` as its constructor fills it. -/
def paymentStrategyFactory : StrategyRegistry
  | .card => some cardPaymentStrategy
  | .upi => some upiPaymentStrategy
  | .wallet => some walletPaymentStrategy
  | .netBanking => some netBankingPaymentStrategy

/-- Every method is supported, and its strategy approves everything. -/
theorem factory_approves (method : PaymentMethod) :
    ∃ provider tag, paymentStrategyFactory method = some (approving provider tag) := by
  cases method <;> exact ⟨_, _, rfl⟩

end PaymentSystem.Patterns
