/-
# PaymentSystem.Common.Values -- the shared kernel: enums, results, money

`include/payment/common`: the enumerations of `Enums.hpp`, the error types of
`Result.hpp`, and the value object of `Money.hpp`.  Minor units are `Int64`, so
the arithmetic wraps exactly where the machine's would; a comparison or a sum of
two currencies throws, which is `Except Exception`.
-/
import PaymentSystem.Theory.MachineInt

namespace PaymentSystem.Common

set_option autoImplicit false

/-! ## Enumerations -/

inductive Currency where
  | inr
  | usd
  | eur
  deriving DecidableEq, Repr

def Currency.toCode : Currency → String
  | .inr => "INR"
  | .usd => "USD"
  | .eur => "EUR"

inductive PaymentMethod where
  | card
  | upi
  | wallet
  | netBanking
  deriving DecidableEq, Repr

inductive TxnStatus where
  | initiated
  | authorized
  | captured
  | settled
  | failed
  | refunded
  deriving DecidableEq, Repr

def TxnStatus.toString : TxnStatus → String
  | .initiated => "INITIATED"
  | .authorized => "AUTHORIZED"
  | .captured => "CAPTURED"
  | .settled => "SETTLED"
  | .failed => "FAILED"
  | .refunded => "REFUNDED"

inductive Direction where
  | debit
  | credit
  deriving DecidableEq, Repr

/-! ## Results, statuses and exceptions -/

inductive ErrorCode where
  | none
  | validationFailed
  | insufficientFunds
  | accountNotFound
  | duplicateRequest
  | fraudRejected
  | invalidStateTransition
  | gatewayError
  | internalError
  deriving DecidableEq, Repr

structure Error where
  code : ErrorCode
  message : String
  deriving DecidableEq, Repr

/-- `Result<T>`: the variant of a value and an error. -/
inductive Result (α : Type) where
  | ok (value : α)
  | fail (error : Error)
  deriving DecidableEq, Repr

/-- `Status`: an error whose code `NONE` means success. -/
structure Status where
  err : Error
  deriving DecidableEq, Repr

namespace Status

def ok : Status := ⟨⟨.none, ""⟩⟩

def fail (code : ErrorCode) (message : String) : Status := ⟨⟨code, message⟩⟩

def isOk (s : Status) : Bool := s.err.code = .none

def isErr (s : Status) : Bool := !s.isOk

@[simp] theorem isErr_ok : ok.isErr = false := rfl

end Status

/-- What can escape a call: `std::invalid_argument`, or whatever a callback
outside the system throws. -/
inductive Exception where
  | invalidArgument (what : String)
  | foreign (what : String)
  deriving DecidableEq, Repr

/-! ## Money -/

structure Money where
  minorUnits : Int64
  currency : Currency
  deriving DecidableEq, Repr

namespace Money

def zero (ccy : Currency) : Money := ⟨0, ccy⟩

def isPositive (m : Money) : Bool := 0 < m.minorUnits

def isNegative (m : Money) : Bool := m.minorUnits < 0

def assertSameCcy (m o : Money) : Except Exception Unit :=
  if m.currency ≠ o.currency then
    .error (.invalidArgument ("Money currency mismatch: cannot mix " ++ m.currency.toCode ++
      " and " ++ o.currency.toCode))
  else .ok ()

def add (m o : Money) : Except Exception Money := do
  m.assertSameCcy o
  return ⟨m.minorUnits + o.minorUnits, m.currency⟩

def sub (m o : Money) : Except Exception Money := do
  m.assertSameCcy o
  return ⟨m.minorUnits - o.minorUnits, m.currency⟩

def mul (m : Money) (factor : Int64) : Money := ⟨m.minorUnits * factor, m.currency⟩

def gt (m o : Money) : Except Exception Bool := do
  m.assertSameCcy o
  return decide (o.minorUnits < m.minorUnits)

def ge (m o : Money) : Except Exception Bool := do
  m.assertSameCcy o
  return decide (o.minorUnits ≤ m.minorUnits)

/-- `Money::toString`: truncating division and remainder, the sign only in the
whole part. -/
def toString (m : Money) : String :=
  let whole := m.minorUnits / 100
  let frac := m.minorUnits % 100
  let frac := if frac < 0 then -frac else frac
  let s := ToString.toString whole ++ "."
  let s := if frac < 10 then s ++ "0" else s
  s ++ (ToString.toString frac ++ " " ++ m.currency.toCode)

theorem isPositive_iff (m : Money) : m.isPositive = true ↔ 0 < m.minorUnits.toInt := by
  simp [isPositive, Int64.lt_iff_toInt_lt]

theorem isNegative_iff (m : Money) : m.isNegative = true ↔ m.minorUnits.toInt < 0 := by
  simp [isNegative, Int64.lt_iff_toInt_lt]

theorem isNegative_eq_false_iff (m : Money) : m.isNegative = false ↔ 0 ≤ m.minorUnits.toInt := by
  rw [← Bool.not_eq_true, isNegative_iff]
  omega

/-- Within one currency the comparisons never throw. -/
theorem gt_same {m o : Money} (same : m.currency = o.currency) :
    m.gt o = .ok (decide (o.minorUnits < m.minorUnits)) := by
  simp only [gt, assertSameCcy, same, ne_eq, not_true_eq_false, if_false]
  rfl

theorem ge_same {m o : Money} (same : m.currency = o.currency) :
    m.ge o = .ok (decide (o.minorUnits ≤ m.minorUnits)) := by
  simp only [ge, assertSameCcy, same, ne_eq, not_true_eq_false, if_false]
  rfl

theorem add_same {m o : Money} (same : m.currency = o.currency) :
    m.add o = .ok ⟨m.minorUnits + o.minorUnits, m.currency⟩ := by
  simp only [add, assertSameCcy, same, ne_eq, not_true_eq_false, if_false]
  rfl

theorem sub_same {m o : Money} (same : m.currency = o.currency) :
    m.sub o = .ok ⟨m.minorUnits - o.minorUnits, m.currency⟩ := by
  simp only [sub, assertSameCcy, same, ne_eq, not_true_eq_false, if_false]
  rfl

/-- Across currencies they always throw, and the same exception. -/
theorem assertSameCcy_mixed {m o : Money} (mixed : m.currency ≠ o.currency) :
    m.assertSameCcy o = .error (.invalidArgument ("Money currency mismatch: cannot mix " ++
      m.currency.toCode ++ " and " ++ o.currency.toCode)) := by
  simp [assertSameCcy, mixed]

end Money

end PaymentSystem.Common
