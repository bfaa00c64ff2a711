/-
# PaymentSystem.Domain.Entities -- accounts, transactions, ledger entries, events

`include/payment/domain`.  `Account.credit` and `Account.debit` are the guarded
mutations, each one atomic section under the account's mutex; `credit_eq` and
`debit_eq` are their closed forms, and say that neither can throw: the currency
check stands before every comparison and sum.  `creditArith` and `debitArith`
list the arithmetic a call performs.
-/
import PaymentSystem.Common.Values

namespace PaymentSystem.Domain

open PaymentSystem.Common
open PaymentSystem.Theory.MachineInt

set_option autoImplicit false

/-! ## Account -/

structure Account where
  id : String
  balance : Money
  deriving DecidableEq, Repr

namespace Account

/-- `Account::credit`. -/
def credit (self : Account) (amount : Money) : Except Exception (Status × Account) := do
  if amount.currency ≠ self.balance.currency then
    return (Status.fail .validationFailed "currency mismatch on credit", self)
  if amount.isNegative then
    return (Status.fail .validationFailed "credit amount must be >= 0", self)
  let balance ← self.balance.add amount
  return (Status.ok, { self with balance })

/-- `Account::debit`: rejected if it would overdraw the account. -/
def debit (self : Account) (amount : Money) : Except Exception (Status × Account) := do
  if amount.currency ≠ self.balance.currency then
    return (Status.fail .validationFailed "currency mismatch on debit", self)
  if amount.isNegative then
    return (Status.fail .validationFailed "debit amount must be >= 0", self)
  if ← amount.gt self.balance then
    return (Status.fail .insufficientFunds ("balance " ++ self.balance.toString ++
      " < debit " ++ amount.toString), self)
  let balance ← self.balance.sub amount
  return (Status.ok, { self with balance })

/-- The amounts `credit` accepts. -/
def Creditable (self : Account) (amount : Money) : Prop :=
  amount.currency = self.balance.currency ∧ 0 ≤ amount.minorUnits.toInt

/-- The amounts `debit` accepts. -/
def Debitable (self : Account) (amount : Money) : Prop :=
  self.Creditable amount ∧ amount.minorUnits.toInt ≤ self.balance.minorUnits.toInt

instance (self : Account) (amount : Money) : Decidable (self.Creditable amount) :=
  inferInstanceAs (Decidable (_ ∧ _))

instance (self : Account) (amount : Money) : Decidable (self.Debitable amount) :=
  inferInstanceAs (Decidable (_ ∧ _))

/-- The account with `n` minor units added, as the machine adds them. -/
def plus (self : Account) (n : Int64) : Account :=
  { self with balance := ⟨self.balance.minorUnits + n, self.balance.currency⟩ }

/-- The account with `n` minor units taken away, as the machine takes them. -/
def minus (self : Account) (n : Int64) : Account :=
  { self with balance := ⟨self.balance.minorUnits - n, self.balance.currency⟩ }

@[simp] theorem plus_currency (self : Account) (n : Int64) :
    (self.plus n).balance.currency = self.balance.currency := rfl

@[simp] theorem minus_currency (self : Account) (n : Int64) :
    (self.minus n).balance.currency = self.balance.currency := rfl

@[simp] theorem plus_minorUnits (self : Account) (n : Int64) :
    (self.plus n).balance.minorUnits = self.balance.minorUnits + n := rfl

@[simp] theorem minus_minorUnits (self : Account) (n : Int64) :
    (self.minus n).balance.minorUnits = self.balance.minorUnits - n := rfl

/-- **`credit` never throws**, and adds exactly the creditable amounts. -/
theorem credit_of_creditable {self : Account} {amount : Money} (can : self.Creditable amount) :
    self.credit amount = .ok (Status.ok, self.plus amount.minorUnits) := by
  have same : self.balance.currency = amount.currency := can.1.symm
  have pos : amount.isNegative = false := (Money.isNegative_eq_false_iff amount).2 can.2
  simp only [credit, can.1, pos, Money.add_same same, plus, ne_eq, not_true_eq_false, if_false,
    Bool.false_eq_true]
  rfl

theorem credit_of_not_creditable {self : Account} {amount : Money}
    (cannot : ¬ self.Creditable amount) :
    ∃ msg, self.credit amount = .ok (Status.fail .validationFailed msg, self) := by
  by_cases same : amount.currency = self.balance.currency
  · have neg : amount.isNegative = true := by
      rw [Money.isNegative_iff]
      exact Int.not_le.1 fun nonneg => cannot ⟨same, nonneg⟩
    exact ⟨_, by simp [credit, same, neg]; rfl⟩
  · exact ⟨_, by simp [credit, same]; rfl⟩

/-- **`debit` never throws**, and takes away exactly the debitable amounts. -/
theorem debit_of_debitable {self : Account} {amount : Money} (can : self.Debitable amount) :
    self.debit amount = .ok (Status.ok, self.minus amount.minorUnits) := by
  obtain ⟨⟨same, nonneg⟩, covered⟩ := can
  have pos : amount.isNegative = false := (Money.isNegative_eq_false_iff amount).2 nonneg
  have enough : ¬ self.balance.minorUnits < amount.minorUnits := by
    rw [Int64.lt_iff_toInt_lt]; omega
  simp [debit, same, pos, Money.gt_same same, Money.sub_same same.symm, enough, minus, bind,
    Except.bind, pure, Except.pure]

/-- The code of a refused debit: a shortfall is `INSUFFICIENT_FUNDS`, anything
else a validation failure. -/
def debitRefusal (self : Account) (amount : Money) : ErrorCode :=
  if self.Creditable amount then .insufficientFunds else .validationFailed

theorem isErr_debitRefusal (self : Account) (amount : Money) (msg : String) :
    (Status.fail (self.debitRefusal amount) msg).isErr = true := by
  unfold debitRefusal
  split <;> rfl

theorem debit_of_not_debitable {self : Account} {amount : Money}
    (cannot : ¬ self.Debitable amount) :
    ∃ msg, self.debit amount = .ok (Status.fail (self.debitRefusal amount) msg, self) := by
  by_cases same : amount.currency = self.balance.currency
  · by_cases nonneg : 0 ≤ amount.minorUnits.toInt
    · have pos : amount.isNegative = false := (Money.isNegative_eq_false_iff amount).2 nonneg
      have short : self.balance.minorUnits < amount.minorUnits := by
        rw [Int64.lt_iff_toInt_lt]
        exact Int.not_le.1 fun covered => cannot ⟨⟨same, nonneg⟩, covered⟩
      have refusal : self.debitRefusal amount = .insufficientFunds := if_pos ⟨same, nonneg⟩
      exact ⟨_, by
        simp [debit, same, pos, Money.gt_same same, short, refusal, bind, Except.bind]; rfl⟩
    · have neg : amount.isNegative = true := by
        rw [Money.isNegative_iff]; omega
      have refusal : self.debitRefusal amount = .validationFailed :=
        if_neg fun can => nonneg can.2
      exact ⟨_, by simp [debit, same, neg, refusal]; rfl⟩
  · have refusal : self.debitRefusal amount = .validationFailed := if_neg fun can => same can.1
    exact ⟨_, by simp [debit, same, refusal]; rfl⟩

/-- The account after a `credit`, accepted or not. -/
def credited (self : Account) (amount : Money) : Account :=
  if self.Creditable amount then self.plus amount.minorUnits else self

/-- The account after a `debit`, accepted or not. -/
def debited (self : Account) (amount : Money) : Account :=
  if self.Debitable amount then self.minus amount.minorUnits else self

@[simp] theorem credited_currency (self : Account) (amount : Money) :
    (self.credited amount).balance.currency = self.balance.currency := by
  unfold credited
  split <;> rfl

@[simp] theorem debited_currency (self : Account) (amount : Money) :
    (self.debited amount).balance.currency = self.balance.currency := by
  unfold debited
  split <;> rfl

theorem credit_eq (self : Account) (amount : Money) :
    ∃ status, self.credit amount = .ok (status, self.credited amount) := by
  by_cases can : self.Creditable amount
  · exact ⟨_, by rw [credit_of_creditable can, credited, if_pos can]⟩
  · obtain ⟨msg, refused⟩ := credit_of_not_creditable can
    exact ⟨_, by rw [refused, credited, if_neg can]⟩

theorem debit_eq (self : Account) (amount : Money) :
    ∃ status, self.debit amount = .ok (status, self.debited amount) ∧
      (status.isErr = true ↔ ¬ self.Debitable amount) := by
  by_cases can : self.Debitable amount
  · exact ⟨_, by rw [debit_of_debitable can, debited, if_pos can], by simp [can]⟩
  · obtain ⟨msg, refused⟩ := debit_of_not_debitable can
    refine ⟨_, by rw [refused, debited, if_neg can], ?_⟩
    simp only [can, not_false_iff, iff_true]
    exact self.isErr_debitRefusal amount msg

theorem plus_comm (self : Account) (m n : Int64) : (self.plus m).plus n = (self.plus n).plus m := by
  simp only [plus, Int64.add_assoc, Int64.add_comm m]

/-- Two credits come to the same in either order. -/
theorem credited_comm (self : Account) (m n : Money) :
    (self.credited m).credited n = (self.credited n).credited m := by
  -- what is creditable depends on the currency alone
  have still (amount o : Money) :
      (self.plus amount.minorUnits).Creditable o ↔ self.Creditable o := Iff.rfl
  unfold credited
  by_cases first : self.Creditable m
  · by_cases second : self.Creditable n
    · simp only [first, second, still, if_true, self.plus_comm]
    · simp only [first, second, still, if_true, if_false]
  · by_cases second : self.Creditable n
    · simp only [first, second, still, if_true, if_false]
    · simp only [first, second, if_false]

/-- Crediting back what was debited restores the account. -/
theorem credited_minus {self : Account} {amount : Money} (can : self.Debitable amount) :
    (self.minus amount.minorUnits).credited amount = self := by
  have again : (self.minus amount.minorUnits).Creditable amount := can.1
  rw [credited, if_pos again]
  simp only [plus, minus, Int64.sub_add_cancel]

/-- Debiting back what was credited restores the account, unless the credit carried the
balance past the top of the range. -/
theorem debited_credited_iff (self : Account) (amount : Money) :
    (self.credited amount).debited amount = self ↔
      ¬ (self.Creditable amount ∧ amount.minorUnits ≠ 0 ∧
        (self.balance.minorUnits + amount.minorUnits).toInt < amount.minorUnits.toInt) := by
  by_cases can : self.Creditable amount
  · rw [credited, if_pos can]
    by_cases covered : amount.minorUnits.toInt ≤ (self.balance.minorUnits + amount.minorUnits).toInt
    · have back : (self.plus amount.minorUnits).Debitable amount := ⟨can, covered⟩
      rw [debited, if_pos back]
      simp only [plus, minus, Int64.add_sub_cancel, true_iff]
      exact fun low => Int.not_lt.2 covered low.2.2
    · have stuck : ¬ (self.plus amount.minorUnits).Debitable amount := fun back => covered back.2
      rw [debited, if_neg stuck]
      simp only [can, Int.not_le.1 covered, true_and, and_true, ne_eq, Classical.not_not]
      constructor
      · intro same
        have balance := congrArg (·.balance.minorUnits) same
        simpa [plus] using balance
      · intro zero
        simp only [plus, zero, Int64.add_zero]
  · have stuck : ¬ self.Debitable amount := fun back => can back.1
    rw [credited, if_neg can, debited, if_neg stuck]
    simp [can]

/-- The arithmetic `credit` performs. -/
def creditArith (self : Account) (amount : Money) : List Arith :=
  if self.Creditable amount then [.add self.balance.minorUnits amount.minorUnits] else []

/-- The arithmetic `debit` performs. -/
def debitArith (self : Account) (amount : Money) : List Arith :=
  if self.Debitable amount then [.sub self.balance.minorUnits amount.minorUnits] else []

theorem mem_creditArith {self : Account} {amount : Money} {op : Arith}
    (member : op ∈ self.creditArith amount) :
    self.Creditable amount ∧ op = .add self.balance.minorUnits amount.minorUnits := by
  unfold creditArith at member
  split at member
  · rename_i can
    exact ⟨can, List.mem_singleton.1 member⟩
  · cases member

/-- What a debit takes away is covered, so it is taken away exactly. -/
theorem debitArith_exact (self : Account) (amount : Money) :
    ∀ op ∈ self.debitArith amount, op.Exact := by
  intro op member
  unfold debitArith at member
  split at member
  · rename_i can
    rw [List.mem_singleton.1 member]
    exact toInt_sub_of_le can.1.2 can.2
  · cases member

end Account

/-! ## Transaction -/

structure Transaction where
  id : String
  idempotencyKey : String
  payerAccountId : String
  payeeAccountId : String
  amount : Money
  method : PaymentMethod
  status : TxnStatus
  createdAtEpoch : Int64
  deriving DecidableEq, Repr

namespace Transaction

def setStatus (t : Transaction) (status : TxnStatus) : Transaction := { t with status }

structure Builder where
  id : String := ""
  idempotencyKey : String := ""
  payer : String := ""
  payee : String := ""
  amount : Option Money := none
  method : PaymentMethod := .upi

/-- `Builder::build`, at the clock reading `now`: a new transaction starts
`INITIATED`. -/
def Builder.build (b : Builder) (now : Int64) : Except Exception Transaction :=
  if b.id.isEmpty then .error (.invalidArgument "Transaction.id is required")
  else if b.payer.isEmpty then .error (.invalidArgument "Transaction.payer is required")
  else if b.payee.isEmpty then .error (.invalidArgument "Transaction.payee is required")
  else match b.amount with
    | none => .error (.invalidArgument "Transaction.amount is required")
    | some amount => .ok
        { id := b.id, idempotencyKey := b.idempotencyKey, payerAccountId := b.payer,
          payeeAccountId := b.payee, amount, method := b.method, status := .initiated,
          createdAtEpoch := now }

end Transaction

/-! ## Ledger entries and events -/

structure LedgerEntry where
  entryId : String
  txnId : String
  accountId : String
  direction : Direction
  amount : Money
  seq : Int64
  deriving DecidableEq, Repr

namespace LedgerEntry

/-- Credits add, debits subtract. -/
def signedAmount (e : LedgerEntry) : Money :=
  match e.direction with
  | .credit => e.amount
  | .debit => e.amount.mul (-1)

/-- The arithmetic `signedAmount` performs. -/
def signedArith (e : LedgerEntry) : List Arith :=
  match e.direction with
  | .credit => []
  | .debit => [.mul e.amount.minorUnits (-1)]

end LedgerEntry

structure DomainEvent where
  type : String
  aggregateId : String
  payload : String
  occurredAtEpoch : Int64
  deriving DecidableEq, Repr

end PaymentSystem.Domain
