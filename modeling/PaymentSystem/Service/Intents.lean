/-
# PaymentSystem.Service.Intents -- what a payment is for

The purpose of a call, free of stores, threads and machine integers: it is refused at
once, for a reason its request and the accounts' currencies settle, or it is one
guarded transfer (`intentOf`).  `Verdict` is what its caller can tell of the outcome.
`Pc.verdict` is the verdict at the program points from which it can no longer change.
-/
import PaymentSystem.Service.Solvency
import PaymentSystem.Theory.Transfers

namespace PaymentSystem.Service

open PaymentSystem.Common
open PaymentSystem.Domain
open PaymentSystem.Patterns
open PaymentSystem.Adapters
open PaymentSystem.Theory.Keyed
open PaymentSystem.Theory.MachineInt
open PaymentSystem.Theory.Transfers

set_option autoImplicit false

/-! ## Verdicts -/

/-- The outcome of a call, up to the text of an error and the id of a transaction. -/
inductive Verdict where
  | returned (status : TxnStatus)
  | refused (code : ErrorCode)
  | raised
  deriving DecidableEq, Repr

def verdictOf : Outcome → Verdict
  | .ok (.ok txn) => .returned txn.status
  | .ok (.fail e) => .refused e.code
  | .error _ => .raised

/-- The verdict of a call that fails with a code: its subscribers hear of it first. -/
def Call.failVerdict (c : Call) (code : ErrorCode) : Verdict :=
  verdictOf (told c.env (c.txn "" .failed) "PaymentFailed" (.fail ⟨code, ""⟩))

/-- The verdict of a call that is captured. -/
def Call.doneVerdict (c : Call) : Verdict :=
  verdictOf (told c.env (c.txn "" .captured) "PaymentCaptured" (.ok (c.txn "" .captured)))

/-- Neither depends on the id drawn: no payload mentions it. -/
theorem verdictOf_failing (c : Call) (id : String) (err : Error) :
    verdictOf (told c.env (c.txn id .failed) "PaymentFailed" (.fail err)) =
      c.failVerdict err.code := by
  unfold Call.failVerdict told
  have same : payloadOf (c.txn id .failed) = payloadOf (c.txn "" .failed) := rfl
  rw [same]
  cases c.env.subscribers "PaymentFailed" (payloadOf (c.txn "" .failed)) <;> rfl

theorem verdictOf_capturing (c : Call) (id : String) :
    verdictOf (told c.env (c.txn id .captured) "PaymentCaptured" (.ok (c.txn id .captured))) =
      c.doneVerdict := by
  unfold Call.doneVerdict told
  have same : payloadOf (c.txn id .captured) = payloadOf (c.txn "" .captured) := rfl
  rw [same]
  cases c.env.subscribers "PaymentCaptured" (payloadOf (c.txn "" .captured)) <;> rfl

/-! ## Chains that read only the request -/

/-- The chain does not look at the id a transaction was given. -/
def Oblivious (chain : ValidationChain) : Prop :=
  ∀ (c : Call) (id id' : String), chain.run (c.txn id .initiated) = chain.run (c.txn id' .initiated)

theorem oblivious_standardChain (limit threshold : Money) :
    Oblivious (standardChain limit threshold) := fun _ _ _ => rfl

/-! ## Intents -/

/-- What a call asks of the accounts, given the currency each is held in. -/
def intentOf (chain : ValidationChain) (held : String → Option Currency) (c : Call) :
    Intent String Int Verdict :=
  if c.req.Named then
    match chain.run (c.txn "" .initiated) with
    | .error _ => .answer .raised
    | .ok v =>
      if v.isErr then .answer (c.failVerdict v.err.code)
      else
        match held c.req.payerAccountId, held c.req.payeeAccountId with
        | some payer, some payee =>
          if payer = c.req.amount.currency ∧ 0 ≤ c.req.amount.minorUnits.toInt then
            .transfer c.req.payerAccountId c.req.payeeAccountId c.req.amount.minorUnits.toInt
              (payee = c.req.amount.currency) c.doneVerdict (c.failVerdict .insufficientFunds)
          else .answer (c.failVerdict .validationFailed)
        | _, _ => .answer (c.failVerdict .accountNotFound)
  else .answer .raised

section IntentOf

variable {chain : ValidationChain} {held : String → Option Currency} {c : Call}

theorem intentOf_unnamed (unnamed : ¬ c.req.Named) : intentOf chain held c = .answer .raised :=
  if_neg unnamed

theorem intentOf_throws (named : c.req.Named) (throws : Throws chain (c.txn "" .initiated)) :
    intentOf chain held c = .answer .raised := by
  obtain ⟨e, threw⟩ := throws
  rw [intentOf, if_pos named, threw]

theorem intentOf_rejected (named : c.req.Named) {v : Status}
    (ran : chain.run (c.txn "" .initiated) = .ok v) (err : v.isErr = true) :
    intentOf chain held c = .answer (c.failVerdict v.err.code) := by
  simp [intentOf, named, ran, err]

theorem intentOf_missing (named : c.req.Named) (cleared : Cleared chain (c.txn "" .initiated))
    (missing : held c.req.payerAccountId = none ∨ held c.req.payeeAccountId = none) :
    intentOf chain held c = .answer (c.failVerdict .accountNotFound) := by
  obtain ⟨v, ran, ok⟩ := cleared
  rcases missing with none_ | none_
  · simp [intentOf, named, ran, ok, none_]
  · simp only [intentOf, named, if_true, ran, ok, Bool.false_eq_true, if_false, none_]
    split
    · rename_i some_
      cases some_
    · rfl

theorem intentOf_transfer (named : c.req.Named) (cleared : Cleared chain (c.txn "" .initiated))
    {payee : Currency} (payer : held c.req.payerAccountId = some c.req.amount.currency)
    (found : held c.req.payeeAccountId = some payee)
    (nonneg : 0 ≤ c.req.amount.minorUnits.toInt) :
    intentOf chain held c =
      .transfer c.req.payerAccountId c.req.payeeAccountId c.req.amount.minorUnits.toInt
        (payee = c.req.amount.currency) c.doneVerdict (c.failVerdict .insufficientFunds) := by
  obtain ⟨v, ran, ok⟩ := cleared
  simp [intentOf, named, ran, ok, payer, found, nonneg]

theorem intentOf_refused (named : c.req.Named) (cleared : Cleared chain (c.txn "" .initiated))
    {payer payee : Currency} (there : held c.req.payerAccountId = some payer)
    (found : held c.req.payeeAccountId = some payee)
    (cannot : ¬ (payer = c.req.amount.currency ∧ 0 ≤ c.req.amount.minorUnits.toInt)) :
    intentOf chain held c = .answer (c.failVerdict .validationFailed) := by
  obtain ⟨v, ran, ok⟩ := cleared
  simp only [intentOf, named, if_true, ran, ok, Bool.false_eq_true, if_false, there, found,
    if_neg cannot]

end IntentOf

/-! ## Funds -/

/-- The balance at an id, nothing where there is no account. -/
def funds (s : PaymentService) (id : String) : Int :=
  match s.accounts.lookup id with
  | some account => account.balance.minorUnits.toInt
  | none => 0

theorem funds_of_found {s : PaymentService} {id : String} {account : Account}
    (found : s.accounts.lookup id = some account) : funds s id = account.balance.minorUnits.toInt := by
  simp [funds, found]

theorem funds_setAccount {s : PaymentService} {id : String} {account : Account}
    (found : s.accounts.lookup id = some account) (account' : Account) (k : String) :
    funds (s.setAccount id account') k =
      if k = id then account'.balance.minorUnits.toInt else funds s k := by
  unfold funds PaymentService.setAccount
  simp only [lookup_replace found]
  by_cases here : k = id
  · simp [here]
  · simp [here]

/-- A debit takes the amount from the funds of its account. -/
theorem funds_debited {s : PaymentService} {id : String} {account : Account} {amount : Money}
    (found : s.accounts.lookup id = some account) (can : account.Debitable amount) (k : String) :
    funds (s.setAccount id (account.minus amount.minorUnits)) k =
      funds s k - atKey id amount.minorUnits.toInt k := by
  have exact_ := toInt_sub_of_le can.1.2 can.2
  rw [funds_setAccount found, Account.minus_minorUnits, exact_]
  unfold atKey
  split
  · rename_i here
    rw [here, funds_of_found found]
  · omega

/-- A credit that is exact adds the amount, if the account is in its currency. -/
theorem funds_credited {s : PaymentService} {id : String} {account : Account} {amount : Money}
    (found : s.accounts.lookup id = some account) (nonneg : 0 ≤ amount.minorUnits.toInt)
    (exact_ : account.Creditable amount → (account.balance.minorUnits + amount.minorUnits).toInt =
      account.balance.minorUnits.toInt + amount.minorUnits.toInt) (k : String) :
    funds (s.setAccount id (account.credited amount)) k =
      funds s k + if decide (account.balance.currency = amount.currency) then
        atKey id amount.minorUnits.toInt k else 0 := by
  rw [funds_setAccount found, Account.credited]
  by_cases can : account.Creditable amount
  · have same : account.balance.currency = amount.currency := can.1.symm
    rw [if_pos can, Account.plus_minorUnits, exact_ can, if_pos (decide_eq_true same), atKey]
    split
    · rename_i here
      rw [here, funds_of_found found]
    · rw [add_zero]
  · -- an account in another currency refuses the credit
    have other : account.balance.currency ≠ amount.currency := fun same => can ⟨same.symm, nonneg⟩
    rw [if_neg can, decide_eq_false other, if_neg Bool.false_ne_true, add_zero]
    split
    · rename_i here
      rw [here, funds_of_found found]
    · rfl

/-- What a thread has debited and not yet credited, by the account it left. -/
def Thread.leaving (t : Thread) : String → Int :=
  match t.pc with
  | .credit _ => atKey t.call.req.payerAccountId t.call.req.amount.minorUnits.toInt
  | _ => fun _ => 0

def System.leaving (sys : System) (id : String) : Int :=
  (sys.threads.map fun t => t.leaving id).sum

/-! ## Decided verdicts -/

/-- The verdict of a call at a program point from which it can no longer change. -/
def Pc.verdict (c : Call) : Pc → Option Verdict
  | .unbuilt _ _ => some .raised
  | .drawDebitId _ | .drawDebitSeq _ _ | .drawCreditId _ _ _ | .drawCreditSeq _ _ _ _
  | .post _ _ _ _ _ | .capture _ => some c.doneVerdict
  | .save txn type res | .publish txn type res | .notify txn type res =>
    some (verdictOf (told c.env txn type res))
  | .unlock _ out | .finished _ out => some (verdictOf out)
  | _ => none

def System.decided (sys : System) (i : Nat) : Option Verdict :=
  (sys.threads[i]?).bind fun t => t.pc.verdict t.call

theorem decided_set {sys sys' : System} {i : Nat} {c : Call} {pc pc' : Pc}
    (at_ : sys.threads[i]? = some ⟨c, pc⟩) (threads : sys'.threads = sys.threads.set i ⟨c, pc'⟩)
    (j : Nat) : sys'.decided j = if j = i then pc'.verdict c else sys.decided j := by
  unfold System.decided
  rw [threads]
  by_cases here : j = i
  · subst here
    rw [if_pos rfl, List.getElem?_set_self (List.getElem?_eq_some_iff.1 at_).1]
    rfl
  · rw [if_neg here, List.getElem?_set_ne (Ne.symm here)]

theorem decided_at {sys : System} {i : Nat} {c : Call} {pc : Pc}
    (at_ : sys.threads[i]? = some ⟨c, pc⟩) : sys.decided i = pc.verdict c := by
  rw [System.decided, at_]
  rfl

end PaymentSystem.Service
