/-
# PaymentSystem.Service.Exits -- every way out of `pay`

One call alone, over any strategies, any ledger and any subscribers.  `Exits` lists
the ways out of the locked part with the state each leaves behind, and
`process_exits` is that there is no other.  Money moves exactly when the call is
`Admissible`: what the checks ask of the state the call starts in.
-/
import PaymentSystem.Service.Locals

namespace PaymentSystem.Service

open PaymentSystem.Common
open PaymentSystem.Domain
open PaymentSystem.Patterns
open PaymentSystem.Adapters
open PaymentSystem.Infra
open PaymentSystem.Theory.Keyed

set_option autoImplicit false

/-! ## Admission -/

/-- The call, under an id, gets as far as moving money: the chain lets it through, both
accounts are there, a strategy authorized it, and the payer covers the amount. -/
structure Admits (chain : ValidationChain) (c : Call) (id : String) (s : PaymentService)
    (payer payee : Account) (strategy : PaymentStrategy) (ref : GatewayRef) : Prop where
  cleared : Cleared chain (c.txn id .initiated)
  payerFound : s.accounts.lookup c.req.payerAccountId = some payer
  payeeFound : s.accounts.lookup c.req.payeeAccountId = some payee
  supported : c.env.strategies c.req.method = some strategy
  approved : strategy.authorize (c.txn id .initiated) = .ok ref
  covered : payer.Debitable c.req.amount

def Admissible (chain : ValidationChain) (c : Call) (id : String) (s : PaymentService) : Prop :=
  ∃ payer payee strategy ref, Admits chain c id s payer payee strategy ref

namespace PaymentService

/-- The pair the call posts. -/
def posting (s : PaymentService) (c : Call) (id : String) : List LedgerEntry :=
  postingOf c.req id s.entryIds.next.1 s.entryIds.next.2.next.1 s.seq (s.seq + 1)

/-- The entry counters after the draws for one pair. -/
def drawn (s : PaymentService) : PaymentService :=
  { s with entryIds := s.entryIds.next.2.next.2, seq := s.seq + 1 + 1 }

/-- The payer debited and the payee credited. -/
def moved (s : PaymentService) (c : Call) (payer payee : Account) : PaymentService :=
  (s.setAccount c.req.payerAccountId (payer.minus c.req.amount.minorUnits)).setAccount
    c.req.payeeAccountId
    ((if c.req.payeeAccountId = c.req.payerAccountId then payer.minus c.req.amount.minorUnits
      else payee).credited c.req.amount)

/-- The money moved and the pair appended. -/
def recorded (s : PaymentService) (c : Call) (id : String) (payer payee : Account) :
    PaymentService :=
  { (s.moved c payer payee).drawn with journal := s.journal ++ s.posting c id }

end PaymentService

/-- The ledger accepts the pair the call posts. -/
def Accepts (c : Call) (id : String) (s : PaymentService) : Prop :=
  (c.env.ledger.post s.journal (s.posting c id)).1.isErr = false

/-- The strategy captures what it authorized. -/
def Captures (c : Call) (id : String) (strategy : PaymentStrategy) (ref : GatewayRef) : Prop :=
  (strategy.capture (c.txn id .authorized) ref).isErr = false

/-! ## Ways out -/

/-- The ways out of the locked part of `pay`, for a call under an id. -/
inductive Exits (chain : ValidationChain) (c : Call) (id : String) (s : PaymentService) :
    Outcome × PaymentService → Prop where
  | raised (e : Exception) (threw : chain.run (c.txn id .initiated) = .error e) :
      Exits chain c id s (.error e, s)
  | stopped (err : Error) (quiet : ¬ Throws chain (c.txn id .initiated))
      (inadmissible : ¬ Admissible chain c id s) :
      Exits chain c id s (conclude c.env (c.txn id .failed) "PaymentFailed" (.fail err) s)
  | captured {payer payee : Account} {strategy : PaymentStrategy} {ref : GatewayRef}
      (admits : Admits chain c id s payer payee strategy ref) (accepts : Accepts c id s)
      (captures : Captures c id strategy ref) :
      Exits chain c id s (conclude c.env (c.txn id .captured) "PaymentCaptured"
        (.ok (c.txn id .captured)) (s.recorded c id payer payee))
  | uncaptured {payer payee : Account} {strategy : PaymentStrategy} {ref : GatewayRef} (err : Error)
      (admits : Admits chain c id s payer payee strategy ref) (accepts : Accepts c id s)
      (fails : ¬ Captures c id strategy ref) :
      Exits chain c id s (conclude c.env (c.txn id .failed) "PaymentFailed" (.fail err)
        (s.recorded c id payer payee))
  -- the payer is made whole; the payee is left as the reversing debit leaves it
  | compensated {payer payee : Account} {strategy : PaymentStrategy} {ref : GatewayRef} (err : Error)
      (admits : Admits chain c id s payer payee strategy ref) (rejects : ¬ Accepts c id s)
      (s' : PaymentService) (rest : s' = { s.drawn with accounts := s'.accounts })
      (accounts : ∀ k, s'.accounts.lookup k = if k = c.req.payeeAccountId then
        some ((payee.credited c.req.amount).debited c.req.amount) else s.accounts.lookup k) :
      Exits chain c id s (conclude c.env (c.txn id .failed) "PaymentFailed" (.fail err) s')


section Process

variable {chain : ValidationChain} {c : Call} {id : String} {s : PaymentService}
  {payer payee : Account} {strategy : PaymentStrategy} {ref : GatewayRef}

theorem lookup_setAccount {account account' : Account} {k : String}
    (found : s.accounts.lookup k = some account) (k' : String) :
    (s.setAccount k account').accounts.lookup k' =
      if k' = k then some account' else s.accounts.lookup k' :=
  lookup_replace found account' k'

theorem Admits.unique {payer' payee' : Account} {strategy' : PaymentStrategy} {ref' : GatewayRef}
    (admits : Admits chain c id s payer payee strategy ref)
    (also : Admits chain c id s payer' payee' strategy' ref') :
    payer' = payer ∧ payee' = payee ∧ strategy' = strategy ∧ ref' = ref := by
  obtain rfl := Option.some.inj (also.supported.symm.trans admits.supported)
  refine ⟨Option.some.inj (also.payerFound.symm.trans admits.payerFound),
    Option.some.inj (also.payeeFound.symm.trans admits.payeeFound), rfl, ?_⟩
  cases also.approved.symm.trans admits.approved
  rfl

/-- The payee as the credit finds it. -/
theorem Admits.payee_debited (admits : Admits chain c id s payer payee strategy ref) :
    (s.setAccount c.req.payerAccountId (payer.minus c.req.amount.minorUnits)).accounts.lookup
        c.req.payeeAccountId =
      some (if c.req.payeeAccountId = c.req.payerAccountId then payer.minus c.req.amount.minorUnits
        else payee) := by
  rw [lookup_setAccount admits.payerFound, admits.payeeFound]
  split <;> rfl

theorem Admits.lookup_moved (admits : Admits chain c id s payer payee strategy ref) (k : String) :
    (s.moved c payer payee).accounts.lookup k =
      if k = c.req.payeeAccountId then
        some ((if c.req.payeeAccountId = c.req.payerAccountId then
          payer.minus c.req.amount.minorUnits else payee).credited c.req.amount)
      else if k = c.req.payerAccountId then some (payer.minus c.req.amount.minorUnits)
      else s.accounts.lookup k := by
  unfold PaymentService.moved
  rw [lookup_setAccount admits.payee_debited, lookup_setAccount admits.payerFound]

/-- The compensation makes the payer whole and tries to reverse the credit. -/
theorem Admits.undo (admits : Admits chain c id s payer payee strategy ref) {t : PaymentService}
    (accounts : t.accounts = (s.moved c payer payee).accounts) :
    ∃ credited debited t' t'', t.onAccount c.req.payerAccountId (·.credit c.req.amount) =
        (.ok credited, t') ∧
      t'.onAccount c.req.payeeAccountId (·.debit c.req.amount) = (.ok debited, t'') ∧
      t'' = { t with accounts := t''.accounts } ∧
      ∀ k, t''.accounts.lookup k = if k = c.req.payeeAccountId then
        some ((payee.credited c.req.amount).debited c.req.amount) else s.accounts.lookup k := by
  have whole := Account.credited_minus admits.covered
  by_cases same : c.req.payeeAccountId = c.req.payerAccountId
  · -- one account: debited, credited, credited again and debited again
    have one : payee = payer := by
      have found := admits.payeeFound
      rw [same, admits.payerFound] at found
      exact (Option.some.inj found).symm
    have now : t.accounts.lookup c.req.payerAccountId = some payer := by
      rw [accounts, admits.lookup_moved, same, if_pos rfl, if_pos rfl, whole]
    obtain ⟨credited, ran⟩ := PaymentService.onAccount_credit now c.req.amount
    have then_ : (t.setAccount c.req.payerAccountId (payer.credited c.req.amount)).accounts.lookup
        c.req.payeeAccountId = some (payer.credited c.req.amount) := by
      rw [lookup_setAccount now, if_pos same]
    obtain ⟨debited, ran'⟩ := PaymentService.onAccount_debit then_ c.req.amount
    refine ⟨credited, debited, _, _, ran, ran', rfl, fun k => ?_⟩
    rw [lookup_setAccount then_, one]
    by_cases here : k = c.req.payeeAccountId
    · rw [if_pos here, if_pos here]
    · have there : k ≠ c.req.payerAccountId := fun is => here (is.trans same.symm)
      rw [if_neg here, if_neg here, lookup_setAccount now, if_neg there, accounts,
        admits.lookup_moved, if_neg here, if_neg there]
  · have now : t.accounts.lookup c.req.payerAccountId =
        some (payer.minus c.req.amount.minorUnits) := by
      rw [accounts, admits.lookup_moved, if_neg (Ne.symm same), if_pos rfl]
    obtain ⟨credited, ran⟩ := PaymentService.onAccount_credit now c.req.amount
    rw [whole] at ran
    have then_ : (t.setAccount c.req.payerAccountId payer).accounts.lookup c.req.payeeAccountId =
        some (payee.credited c.req.amount) := by
      rw [lookup_setAccount now, if_neg same, accounts, admits.lookup_moved, if_pos rfl,
        if_neg same]
    obtain ⟨debited, ran'⟩ := PaymentService.onAccount_debit then_ c.req.amount
    refine ⟨credited, debited, _, _, ran, ran', rfl, fun k => ?_⟩
    rw [lookup_setAccount then_]
    by_cases here : k = c.req.payeeAccountId
    · rw [if_pos here, if_pos here]
    · rw [if_neg here, if_neg here, lookup_setAccount now]
      by_cases there : k = c.req.payerAccountId
      · rw [if_pos there, there, admits.payerFound]
      · rw [if_neg there, accounts, admits.lookup_moved, if_neg here, if_neg there]

theorem exits_record (admits : Admits chain c id s payer payee strategy ref) :
    Exits chain c id s
      (record c.env c.req (c.txn id .authorized) strategy ref (s.moved c payer payee)) := by
  unfold record
  simp only
  have posted : postingOf c.req (c.txn id .authorized).id (s.moved c payer payee).entryIds.next.1
      (s.moved c payer payee).entryIds.next.2.next.1 (s.moved c payer payee).seq
      ((s.moved c payer payee).seq + 1) = s.posting c id := rfl
  have journal : (s.moved c payer payee).journal = s.journal := rfl
  rw [posted, journal]
  split
  · rename_i rejected
    have kept := c.env.ledger.post_err s.journal (s.posting c id) rejected
    rw [kept]
    obtain ⟨credited, debited, t', t'', ran, ran', rest, accounts⟩ :=
      admits.undo (t := { s.moved c payer payee with
        entryIds := s.entryIds.next.2.next.2, seq := s.seq + 1 + 1, journal := s.journal }) rfl
    have ran : PaymentService.onAccount { s.moved c payer payee with
        entryIds := (s.moved c payer payee).entryIds.next.2.next.2,
        seq := (s.moved c payer payee).seq + 1 + 1, journal := s.journal }
        c.req.payerAccountId (·.credit c.req.amount) = (.ok credited, t') := ran
    rw [ran]
    simp only [ran']
    refine .compensated _ admits ?_ t'' rest accounts
    unfold Accepts
    rw [rejected]
    exact Bool.noConfusion
  · rename_i accepted
    have accepts : Accepts c id s := Bool.eq_false_of_not_eq_true accepted
    have grown := c.env.ledger.post_ok s.journal (s.posting c id) accepts
    rw [grown]
    split
    · rename_i failed
      refine .uncaptured _ admits accepts ?_
      unfold Captures
      rw [failed]
      exact Bool.noConfusion
    · rename_i captured
      exact .captured admits accepts (Bool.eq_false_of_not_eq_true captured)

/-- **There is no other way out.** -/
theorem process_exits (chain : ValidationChain) (c : Call) (id : String) (s : PaymentService) :
    Exits chain c id s (process chain c.env c.req (c.txn id .initiated) s) := by
  unfold process
  split
  · rename_i e threw
    exact .raised e threw
  · rename_i v ran
    have quiet : ¬ Throws chain (c.txn id .initiated) := by
      rintro ⟨e, threw⟩
      rw [threw] at ran
      cases ran
    -- the ways to stop before any money moves
    have stop (err : Error) (not : ∀ payer payee strategy ref,
        Admits chain c id s payer payee strategy ref → False) :
        Exits chain c id s (fail c.env (c.txn id .initiated) err s) :=
      .stopped err quiet fun ⟨payer, payee, strategy, ref, admits⟩ =>
        not payer payee strategy ref admits
    split
    · rename_i rejected
      refine stop v.err fun payer payee strategy ref admits => ?_
      obtain ⟨v', ran', passed⟩ := admits.cleared
      rw [ran] at ran'
      cases ran'
      rw [passed] at rejected
      cases rejected
    · rename_i passed
      have cleared : Cleared chain (c.txn id .initiated) := ⟨v, ran, by simpa using passed⟩
      cases payerFound : s.accounts.lookup c.req.payerAccountId with
      | none =>
        refine stop _ fun payer payee strategy ref admits => ?_
        cases payerFound.symm.trans admits.payerFound
      | some payer =>
        cases payeeFound : s.accounts.lookup c.req.payeeAccountId with
        | none =>
          refine stop _ fun payer payee strategy ref admits => ?_
          cases payeeFound.symm.trans admits.payeeFound
        | some payee =>
          simp only [Option.isNone_some, Bool.false_eq_true, if_false]
          cases supported : c.env.strategies c.req.method with
          | none =>
            refine stop _ fun payer payee strategy ref admits => ?_
            cases supported.symm.trans admits.supported
          | some strategy =>
            simp only
            cases approved : strategy.authorize (c.txn id .initiated) with
            | fail e =>
              refine stop e fun payer payee strategy' ref admits => ?_
              cases supported.symm.trans admits.supported
              cases approved.symm.trans admits.approved
            | ok ref =>
              simp only [advance_authorized]
              unfold move
              by_cases covered : payer.Debitable c.req.amount
              · have admits : Admits chain c id s payer payee strategy ref :=
                  ⟨cleared, payerFound, payeeFound, supported, approved, covered⟩
                obtain ⟨status, ran⟩ :=
                  PaymentService.onAccount_credit admits.payee_debited c.req.amount
                rw [PaymentService.onAccount_debit_ok payerFound covered]
                simp only [Status.isErr_ok, Bool.false_eq_true, if_false, ran]
                exact exits_record admits
              · obtain ⟨msg, refused⟩ := PaymentService.onAccount_debit_refused payerFound covered
                rw [refused]
                simp only [Account.isErr_debitRefusal, if_true]
                refine .stopped _ quiet ?_
                rintro ⟨payer', payee', strategy', ref', admits⟩
                cases payerFound.symm.trans admits.payerFound
                exact covered admits.covered

/-- No way out touches the keys or the transaction ids. -/
theorem Exits.frame {r : Outcome × PaymentService} (exits : Exits chain c id s r) :
    r.2.idempotency = s.idempotency ∧ r.2.txnIds = s.txnIds := by
  cases exits with
  | compensated err admits rejects s' rest accounts =>
    show s'.idempotency = _ ∧ s'.txnIds = _
    rw [rest]
    exact ⟨rfl, rfl⟩
  | _ => exact ⟨rfl, rfl⟩

end Process

/-! ## The whole call -/

namespace PaymentService

/-- The service a call works in: its id drawn, its key claimed, its payer locked. -/
def entered (s : PaymentService) (c : Call) : PaymentService :=
  { s with
    txnIds := s.txnIds.next.2,
    idempotency := s.idempotency.insert c.req.idempotencyKey s.txnIds.next.1,
    locks := (s.locks.mutexFor (lockKey c.req)).lock (lockKey c.req) }

def released (s : PaymentService) (c : Call) : PaymentService :=
  { s with locks := s.locks.unlock (lockKey c.req) }

end PaymentService

/-- The call wins its key and is built. -/
structure Begins (c : Call) (s : PaymentService) : Prop where
  fresh : s.idempotency.lookup c.req.idempotencyKey = none
  named : c.req.Named

instance (c : Call) (s : PaymentService) : Decidable (Begins c s) :=
  decidable_of_iff (s.idempotency.lookup c.req.idempotencyKey = none ∧ c.req.Named)
    ⟨fun ⟨fresh, named⟩ => ⟨fresh, named⟩, fun ⟨fresh, named⟩ => ⟨fresh, named⟩⟩

section Pay

variable {chain : ValidationChain} {c : Call} {s : PaymentService}

/-- A call whose key is taken draws an id and changes nothing else. -/
theorem pay_replay {existingId : String}
    (taken : s.idempotency.lookup c.req.idempotencyKey = some existingId) :
    pay chain c.env c.req s =
      (.ok (replay s c.req.idempotencyKey), { s with txnIds := s.txnIds.next.2 }) := by
  have lost : s.idempotency.putIfAbsent c.req.idempotencyKey s.txnIds.next.1 =
      (false, s.idempotency) := by
    simp [InMemoryIdempotencyStore.putIfAbsent, taken]
  simp only [pay, lost, Bool.not_false, if_true]
  rfl

theorem putIfAbsent_fresh (fresh : s.idempotency.lookup c.req.idempotencyKey = none) :
    s.idempotency.putIfAbsent c.req.idempotencyKey s.txnIds.next.1 =
      (true, s.idempotency.insert c.req.idempotencyKey s.txnIds.next.1) := by
  simp [InMemoryIdempotencyStore.putIfAbsent, fresh]

/-- A call the Builder throws on has claimed its key. -/
theorem pay_unnamed {e : Exception} (fresh : s.idempotency.lookup c.req.idempotencyKey = none)
    (threw : buildTxn c.env s.txnIds.next.1 c.req = .error e) :
    pay chain c.env c.req s = (.error e, { s with
      txnIds := s.txnIds.next.2,
      idempotency := s.idempotency.insert c.req.idempotencyKey s.txnIds.next.1 }) := by
  simp only [pay, putIfAbsent_fresh fresh, Bool.not_true, Bool.false_eq_true, if_false, threw]

/-- A call that begins is what it does under the lock. -/
theorem pay_begun (begins : Begins c s) :
    pay chain c.env c.req s =
      ((process chain c.env c.req (c.txn s.txnIds.next.1 .initiated) (s.entered c)).1,
        (process chain c.env c.req (c.txn s.txnIds.next.1 .initiated) (s.entered c)).2.released
          c) := by
  have minted : s.txnIds.next.1 ≠ "" := IdGenerator.idOf_ne_empty _ _
  simp only [pay, putIfAbsent_fresh begins.fresh, Bool.not_true, Bool.false_eq_true, if_false,
    buildTxn_named minted begins.named]
  rfl

/-- The ways out of `pay`. -/
inductive Pays (chain : ValidationChain) (c : Call) (s : PaymentService) :
    Outcome × PaymentService → Prop where
  | replayed {existingId : String}
      (taken : s.idempotency.lookup c.req.idempotencyKey = some existingId) :
      Pays chain c s (.ok (replay s c.req.idempotencyKey), { s with txnIds := s.txnIds.next.2 })
  -- the Builder throws once the key is claimed
  | unnamed (e : Exception) (fresh : s.idempotency.lookup c.req.idempotencyKey = none)
      (unnamed : ¬ c.req.Named) :
      Pays chain c s (.error e, { s with
        txnIds := s.txnIds.next.2,
        idempotency := s.idempotency.insert c.req.idempotencyKey s.txnIds.next.1 })
  | begun {r : Outcome × PaymentService} (begins : Begins c s)
      (exits : Exits chain c s.txnIds.next.1 (s.entered c) r) :
      Pays chain c s (r.1, r.2.released c)

/-- **Every call leaves in one of these ways.** -/
theorem pay_pays (chain : ValidationChain) (c : Call) (s : PaymentService) :
    Pays chain c s (pay chain c.env c.req s) := by
  cases taken : s.idempotency.lookup c.req.idempotencyKey with
  | some existingId =>
    rw [pay_replay taken]
    exact .replayed taken
  | none =>
    by_cases named : c.req.Named
    · rw [pay_begun ⟨taken, named⟩]
      exact .begun ⟨taken, named⟩ (process_exits chain c s.txnIds.next.1 (s.entered c))
    · obtain ⟨e, threw⟩ := buildTxn_unnamed (IdGenerator.idOf_ne_empty _ _) named
      rw [pay_unnamed taken threw]
      exact .unnamed e taken named

end Pay

/-- Admission looks at the accounts only. -/
theorem Admits.of_accounts {chain : ValidationChain} {c : Call} {id : String} {s t : PaymentService}
    {payer payee : Account} {strategy : PaymentStrategy} {ref : GatewayRef}
    (admits : Admits chain c id s payer payee strategy ref) (same : t.accounts = s.accounts) :
    Admits chain c id t payer payee strategy ref where
  cleared := admits.cleared
  payerFound := by
    rw [same]
    exact admits.payerFound
  payeeFound := by
    rw [same]
    exact admits.payeeFound
  supported := admits.supported
  approved := admits.approved
  covered := admits.covered

end PaymentSystem.Service
