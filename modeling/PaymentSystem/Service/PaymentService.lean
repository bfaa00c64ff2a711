/-
# PaymentSystem.Service.PaymentService -- one call of `pay`, start to end

`include/payment/service/PaymentService.hpp`.  A `PaymentService` is everything
behind the ports together with the service's own counters; `pay` is the use case as a
function of it, for a call that runs without interleaving
(`PaymentSystem.Service.Machine` is the same code one atomic step at a time).

`Env` is what the world outside answers to one call: the clock, the strategies,
the ledger, and what the subscribers do with the event it publishes.  A call asks
each of them at most once, so an `Env` per call covers implementations of any
state.  The subscribers see the type and payload of the event; its other two
fields are the minted id and the clock reading.
-/
import PaymentSystem.Adapters.InMemory
import PaymentSystem.Infra.IdGenerator
import PaymentSystem.Patterns.Pipeline

namespace PaymentSystem.Service

open PaymentSystem.Common
open PaymentSystem.Domain
open PaymentSystem.Patterns
open PaymentSystem.Adapters
open PaymentSystem.Infra
open PaymentSystem.Theory.Keyed

set_option autoImplicit false

structure PaymentRequest where
  idempotencyKey : String
  payerAccountId : String
  payeeAccountId : String
  amount : Money
  method : PaymentMethod
  deriving DecidableEq, Repr

/-- What the world outside answers to one call; it does not call the service back. -/
structure Env where
  now : Int64
  strategies : StrategyRegistry
  ledger : LedgerRepository
  subscribers : String → String → Except Exception Unit

/-- The shipped strategies and the in-memory ledger. -/
structure Env.Shipped (env : Env) : Prop where
  strategies : env.strategies = paymentStrategyFactory
  ledger : env.ledger = inMemoryLedgerRepository

/-- The shipped strategies are found, and neither decline nor fail to capture. -/
theorem Env.Shipped.approves {env : Env} (shipped : env.Shipped) (method : PaymentMethod) :
    ∃ provider tag, env.strategies method = some (approving provider tag) := by
  rw [shipped.strategies]
  exact factory_approves method

/-- The world of the shipped adapters, with subscribers that return. -/
def Env.shipped (now : Int64) : Env :=
  ⟨now, paymentStrategyFactory, inMemoryLedgerRepository, fun _ _ => .ok ()⟩

theorem Env.shipped_shipped (now : Int64) : (Env.shipped now).Shipped := ⟨rfl, rfl⟩

/-- A returned result, or the exception that escaped. -/
abbrev Outcome := Except Exception (Result Transaction)

structure PaymentService where
  accounts : InMemoryAccountRepository
  transactions : InMemoryTransactionRepository
  idempotency : InMemoryIdempotencyStore
  locks : InMemoryDistributedLock
  journal : Journal
  events : List DomainEvent
  txnIds : IdGenerator
  entryIds : IdGenerator
  seq : Int64

namespace PaymentService

/-- A service just constructed over empty stores and the given accounts. -/
def opening (accounts : InMemoryAccountRepository) : PaymentService where
  accounts
  transactions := ∅
  idempotency := ∅
  locks := ∅
  journal := []
  events := []
  txnIds := ⟨"txn", 1⟩
  entryIds := ⟨"le", 1⟩
  seq := 1

/-- Call a method of the account behind a pointer that `accounts_.find` returned.
The pointer is shared, so the method acts on the repository's own account. -/
def onAccount (s : PaymentService) (id : String) (method : Account → Except Exception (Status × Account)) :
    Except Exception Status × PaymentService :=
  match s.accounts.lookup id with
  | none => (.ok Status.ok, s) -- not reached: a null pointer was refused before
  | some account =>
    match method account with
    | .error e => (.error e, s)
    | .ok (status, account) => (.ok status, { s with accounts := s.accounts.replace id account })

/-- The service with the account at `id` in a new state. -/
def setAccount (s : PaymentService) (id : String) (account : Account) : PaymentService :=
  { s with accounts := s.accounts.replace id account }

/-- The currency the account at `id` is held in. -/
def ccyAt (s : PaymentService) (id : String) : Option Currency :=
  (s.accounts.lookup id).map fun account => account.balance.currency

theorem ccyAt_setAccount {s : PaymentService} {id : String} {account account' : Account}
    (found : s.accounts.lookup id = some account)
    (same : account'.balance.currency = account.balance.currency) (id' : String) :
    (s.setAccount id account').ccyAt id' = s.ccyAt id' := by
  unfold ccyAt setAccount
  rw [lookup_replace found]
  by_cases here : id' = id
  · subst here
    simp [found, same]
  · rw [if_neg here]

theorem setAccount_self {s : PaymentService} {id : String} {account : Account}
    (found : s.accounts.lookup id = some account) : s.setAccount id account = s := by
  unfold PaymentService.setAccount
  rw [replace_self found]

theorem onAccount_none {s : PaymentService} {id : String}
    (missing : s.accounts.lookup id = none) (method : Account → Except Exception (Status × Account)) :
    s.onAccount id method = (.ok Status.ok, s) := by
  simp [PaymentService.onAccount, missing]

theorem onAccount_credit {s : PaymentService} {id : String} {account : Account}
    (found : s.accounts.lookup id = some account) (amount : Money) :
    ∃ status, s.onAccount id (·.credit amount) =
      (.ok status, s.setAccount id (account.credited amount)) := by
  obtain ⟨status, ran⟩ := account.credit_eq amount
  exact ⟨status, by simp [PaymentService.onAccount, found, ran, PaymentService.setAccount]⟩

theorem onAccount_debit {s : PaymentService} {id : String} {account : Account}
    (found : s.accounts.lookup id = some account) (amount : Money) :
    ∃ status, s.onAccount id (·.debit amount) =
      (.ok status, s.setAccount id (account.debited amount)) := by
  obtain ⟨status, ran, -⟩ := account.debit_eq amount
  exact ⟨status, by simp [PaymentService.onAccount, found, ran, PaymentService.setAccount]⟩

theorem onAccount_debit_ok {s : PaymentService} {id : String} {account : Account}
    (found : s.accounts.lookup id = some account) {amount : Money} (can : account.Debitable amount) :
    s.onAccount id (·.debit amount) =
      (.ok Status.ok, s.setAccount id (account.minus amount.minorUnits)) := by
  simp [PaymentService.onAccount, found, Account.debit_of_debitable can, PaymentService.setAccount]

theorem onAccount_debit_refused {s : PaymentService} {id : String} {account : Account}
    (found : s.accounts.lookup id = some account) {amount : Money}
    (cannot : ¬ account.Debitable amount) :
    ∃ msg, s.onAccount id (·.debit amount) =
      (.ok (Status.fail (account.debitRefusal amount) msg), s) := by
  obtain ⟨msg, refused⟩ := Account.debit_of_not_debitable cannot
  exact ⟨msg, by simp [PaymentService.onAccount, found, refused, replace_self found]⟩

end PaymentService

/-! ## The steps of a call -/

/-- `PaymentService::advance`: only through the state machine. -/
def advance (txn : Transaction) (dst : TxnStatus) : Transaction :=
  if canTransition txn.status dst then txn.setStatus dst else txn

/-- The payload of an event about `txn`. -/
def payloadOf (txn : Transaction) : String :=
  "\x7b\"amount\":\"" ++ txn.amount.toString ++ "\",\"status\":\"" ++ txn.status.toString ++ "\"\x7d"

def eventOf (txn : Transaction) (type : String) : DomainEvent :=
  ⟨type, txn.id, payloadOf txn, txn.createdAtEpoch⟩

/-- What the call answers once its event is published: `res`, unless a subscriber
throws. -/
def told (env : Env) (txn : Transaction) (type : String) (res : Result Transaction) : Outcome :=
  (env.subscribers type (payloadOf txn)).map fun _ => res

/-- The end both ways out share: save, publish, answer. -/
def conclude (env : Env) (txn : Transaction) (type : String) (res : Result Transaction)
    (s : PaymentService) : Outcome × PaymentService :=
  (told env txn type res,
    { s with transactions := s.transactions.save txn, events := s.events ++ [eventOf txn type] })

/-- `PaymentService::fail`. -/
def fail (env : Env) (txn : Transaction) (err : Error) (s : PaymentService) : Outcome × PaymentService :=
  conclude env (advance txn .failed) "PaymentFailed" (.fail err) s

/-- The lock key of a request's payer. -/
def lockKey (req : PaymentRequest) : String := "account:" ++ req.payerAccountId

/-- The transaction the Builder is given, built at `now`. -/
def buildTxn (env : Env) (txnId : String) (req : PaymentRequest) : Except Exception Transaction :=
  ({ id := txnId, idempotencyKey := req.idempotencyKey, payer := req.payerAccountId,
     payee := req.payeeAccountId, amount := some req.amount, method := req.method } :
    Transaction.Builder).build env.now

/-- What a duplicate is answered: the prior transaction, if it can be found. -/
def replay (s : PaymentService) (key : String) : Result Transaction :=
  match s.idempotency.get key with
  | none => .fail ⟨.duplicateRequest, "duplicate request for idempotency key: " ++ key⟩
  | some existingId =>
    match s.transactions.find existingId with
    | some prior => .ok prior
    | none => .fail ⟨.duplicateRequest, "duplicate request for idempotency key: " ++ key⟩

/-- The two entries of a posting, with the ids and sequence numbers drawn for them. -/
def postingOf (req : PaymentRequest) (txnId debitId creditId : String) (debitSeq creditSeq : Int64) :
    List LedgerEntry :=
  [⟨debitId, txnId, req.payerAccountId, .debit, req.amount, debitSeq⟩,
   ⟨creditId, txnId, req.payeeAccountId, .credit, req.amount, creditSeq⟩]

/-- From the journal on: post the pair, compensate if it is rejected, capture. -/
def record (env : Env) (req : PaymentRequest) (txn : Transaction) (strategy : PaymentStrategy)
    (ref : GatewayRef) (s : PaymentService) : Outcome × PaymentService :=
  let posting := postingOf req txn.id s.entryIds.next.1 s.entryIds.next.2.next.1 s.seq (s.seq + 1)
  let p := env.ledger.post s.journal posting
  let s := { s with
    entryIds := s.entryIds.next.2.next.2, seq := s.seq + 1 + 1, journal := p.2 }
  if p.1.isErr then
    match s.onAccount req.payerAccountId (·.credit req.amount) with
    | (.error e, s) => (.error e, s)
    | (.ok _, s) =>
      match s.onAccount req.payeeAccountId (·.debit req.amount) with
      | (.error e, s) => (.error e, s)
      | (.ok _, s) => fail env txn p.1.err s
  else
    let c := strategy.capture txn ref
    if c.isErr then fail env txn c.err s
    else
      let txn := advance txn .captured
      conclude env txn "PaymentCaptured" (.ok txn) s

/-- Move the money on the live balances, then record it.  The status of the
credit is discarded. -/
def move (env : Env) (req : PaymentRequest) (txn : Transaction) (strategy : PaymentStrategy)
    (ref : GatewayRef) (s : PaymentService) : Outcome × PaymentService :=
  match s.onAccount req.payerAccountId (·.debit req.amount) with
  | (.error e, s) => (.error e, s)
  | (.ok d, s) =>
    if d.isErr then fail env txn d.err s
    else
      match s.onAccount req.payeeAccountId (·.credit req.amount) with
      | (.error e, s) => (.error e, s)
      | (.ok _, s) => record env req txn strategy ref s

/-- What `pay` does while it holds the payer's lock. -/
def process (chain : ValidationChain) (env : Env) (req : PaymentRequest) (txn : Transaction)
    (s : PaymentService) : Outcome × PaymentService :=
  match chain.run txn with
  | .error e => (.error e, s)
  | .ok v =>
    if v.isErr then fail env txn v.err s
    else if (s.accounts.lookup req.payerAccountId).isNone then
      fail env txn ⟨.accountNotFound, "payer not found"⟩ s
    else if (s.accounts.lookup req.payeeAccountId).isNone then
      fail env txn ⟨.accountNotFound, "payee not found"⟩ s
    else
      match env.strategies req.method with
      | none => fail env txn ⟨.validationFailed, "unsupported payment method"⟩ s
      | some strategy =>
        match strategy.authorize txn with
        | .fail e => fail env txn e s
        | .ok ref => move env req (advance txn .authorized) strategy ref s

/-- **`PaymentService::pay`.**  An exception escapes after the guard released
the lock, and undoes nothing else. -/
def pay (chain : ValidationChain) (env : Env) (req : PaymentRequest) (s : PaymentService) :
    Outcome × PaymentService :=
  let txnId := s.txnIds.next.1
  let claim := s.idempotency.putIfAbsent req.idempotencyKey txnId
  let s := { s with txnIds := s.txnIds.next.2, idempotency := claim.2 }
  if !claim.1 then (.ok (replay s req.idempotencyKey), s)
  else
    match buildTxn env txnId req with
    | .error e => (.error e, s)
    | .ok txn =>
      let r := process chain env req txn
        { s with locks := (s.locks.mutexFor (lockKey req)).lock (lockKey req) }
      (r.1, { r.2 with locks := r.2.locks.unlock (lockKey req) })

/-! ## The transaction of a call -/

structure Call where
  req : PaymentRequest
  env : Env

/-- The transaction a call works on: its request under an id, in some state of the
lifecycle. -/
def Call.txn (c : Call) (id : String) (status : TxnStatus) : Transaction where
  id
  idempotencyKey := c.req.idempotencyKey
  payerAccountId := c.req.payerAccountId
  payeeAccountId := c.req.payeeAccountId
  amount := c.req.amount
  method := c.req.method
  status
  createdAtEpoch := c.env.now

@[simp] theorem Call.txn_id (c : Call) (id : String) (status : TxnStatus) :
    (c.txn id status).id = id := rfl

@[simp] theorem Call.txn_status (c : Call) (id : String) (status : TxnStatus) :
    (c.txn id status).status = status := rfl

/-- Both account ids are there: all the Builder asks of a request. -/
def PaymentRequest.Named (req : PaymentRequest) : Prop :=
  req.payerAccountId ≠ "" ∧ req.payeeAccountId ≠ ""

instance (req : PaymentRequest) : Decidable req.Named := inferInstanceAs (Decidable (_ ∧ _))

theorem buildTxn_named {c : Call} {id : String} (minted : id ≠ "") (named : c.req.Named) :
    buildTxn c.env id c.req = .ok (c.txn id .initiated) := by
  simp [buildTxn, Transaction.Builder.build, minted, named.1, named.2, Call.txn]

/-- The Builder throws the same whoever calls it, and whatever id it is given. -/
theorem buildTxn_throws {req : PaymentRequest} (unnamed : ¬ req.Named) :
    ∃ e, ∀ (env : Env) (id : String), id ≠ "" → buildTxn env id req = .error e := by
  by_cases payer : req.payerAccountId = ""
  · exact ⟨.invalidArgument "Transaction.payer is required", fun env id minted => by
      simp [buildTxn, Transaction.Builder.build, minted, payer]⟩
  · have payee : req.payeeAccountId = "" := by
      by_contra other
      exact unnamed ⟨payer, other⟩
    exact ⟨.invalidArgument "Transaction.payee is required", fun env id minted => by
      simp [buildTxn, Transaction.Builder.build, minted, payer, payee]⟩

theorem buildTxn_unnamed {c : Call} {id : String} (minted : id ≠ "") (unnamed : ¬ c.req.Named) :
    ∃ e, buildTxn c.env id c.req = .error e := by
  obtain ⟨e, throws⟩ := buildTxn_throws unnamed
  exact ⟨e, throws c.env id minted⟩

/-! The lifecycle as `advance` walks it. -/

@[simp] theorem advance_authorized (c : Call) (id : String) :
    advance (c.txn id .initiated) .authorized = c.txn id .authorized := rfl

@[simp] theorem advance_captured (c : Call) (id : String) :
    advance (c.txn id .authorized) .captured = c.txn id .captured := rfl

@[simp] theorem advance_failed (c : Call) (id : String) {status : TxnStatus}
    (open_ : status = .initiated ∨ status = .authorized) :
    advance (c.txn id status) .failed = c.txn id .failed := by
  rcases open_ with rfl | rfl <;> rfl

/-! ## Runs of calls, one at a time -/

/-- Make the calls one after another: their outcomes, and the service after them. -/
def payAll (chain : ValidationChain) : PaymentService → List Call → List Outcome × PaymentService
  | s, [] => ([], s)
  | s, c :: rest =>
    let r := pay chain c.env c.req s
    let tail := payAll chain r.2 rest
    (r.1 :: tail.1, tail.2)

/-! ## The accounts and calls of the end-to-end test -/

/-- A wallet of 1000.00 INR and an empty merchant. -/
def userAndMerchant : InMemoryAccountRepository :=
  InMemoryAccountRepository.save (InMemoryAccountRepository.save ∅ ⟨"u", ⟨100000, .inr⟩⟩)
    ⟨"m", ⟨0, .inr⟩⟩

/-- A UPI payment in INR over the shipped adapters. -/
def upiCall (key payer payee : String) (minorUnits : Int64) : Call where
  req := ⟨key, payer, payee, ⟨minorUnits, .inr⟩, .upi⟩
  env := Env.shipped 0

end PaymentSystem.Service
