/-
# PaymentSystem.Service.Ways -- what a call decides, and what that does

Over the shipped adapters a call by itself first decides how it will end, from its key, its
request and the two accounts (`wayOf`).  What it answers and what it leaves in each store
follows from its way: `Does` is the whole effect of a way, store by store, and `pay_does`
says that `pay` has that effect and no other.
-/
import PaymentSystem.Service.Exits
import PaymentSystem.Service.Files
import PaymentSystem.Service.Progress
import PaymentSystem.Service.Solvency

namespace PaymentSystem.Service

open PaymentSystem.Common
open PaymentSystem.Domain
open PaymentSystem.Patterns
open PaymentSystem.Adapters
open PaymentSystem.Infra
open PaymentSystem.Theory.Keyed

set_option autoImplicit false

/-! ## Ways -/

/-- How a call ends, its event apart. -/
inductive Way where
  | replays (res : Result Transaction)
  | raises (e : Exception)
  | fails (err : Error)
  | captures

/-- What a call decides while it holds its payer's lock. -/
def lockedWay (chain : ValidationChain) (c : Call) (id : String) (s : PaymentService) : Way :=
  match chain.run (c.txn id .initiated) with
  | .error e => .raises e
  | .ok v =>
    if v.isErr then .fails v.err
    else
      match s.accounts.lookup c.req.payerAccountId with
      | none => .fails ⟨.accountNotFound, "payer not found"⟩
      | some payer =>
        if (s.accounts.lookup c.req.payeeAccountId).isNone then
          .fails ⟨.accountNotFound, "payee not found"⟩
        else
          match payer.debit c.req.amount with
          | .error e => .raises e
          | .ok (d, _) => if d.isErr then .fails d.err else .captures

def wayOf (chain : ValidationChain) (c : Call) (s : PaymentService) : Way :=
  match s.idempotency.lookup c.req.idempotencyKey with
  | some _ => .replays (replay s c.req.idempotencyKey)
  | none =>
    match buildTxn c.env s.txnIds.next.1 c.req with
    | .error e => .raises e
    | .ok _ => lockedWay chain c s.txnIds.next.1 s

namespace Way

/-- Whether the call has claimed its key. -/
def claims : Way → Bool
  | .replays _ => false
  | _ => true

/-- Whether the call has moved its money. -/
def moves : Way → Bool
  | .captures => true
  | _ => false

/-- The transaction the call stores. -/
def saves (c : Call) (id : String) : Way → Option Transaction
  | .fails _ => some (c.txn id .failed)
  | .captures => some (c.txn id .captured)
  | _ => none

/-- The event the call publishes. -/
def tells (c : Call) (id : String) : Way → List DomainEvent
  | .fails _ => [eventOf (c.txn id .failed) "PaymentFailed"]
  | .captures => [eventOf (c.txn id .captured) "PaymentCaptured"]
  | _ => []

def answer (c : Call) (id : String) : Way → Outcome
  | .replays res => .ok res
  | .raises e => .error e
  | .fails err => told c.env (c.txn id .failed) "PaymentFailed" (.fail err)
  | .captures =>
    told c.env (c.txn id .captured) "PaymentCaptured" (.ok (c.txn id .captured))

end Way

/-- An account as a call that moves its money leaves it. -/
def Call.onAccount (c : Call) (k : String) (account : Account) : Account :=
  let account :=
    if k = c.req.payerAccountId then account.minus c.req.amount.minorUnits else account
  if k = c.req.payeeAccountId then account.credited c.req.amount else account

@[simp] theorem Call.onAccount_currency (c : Call) (k : String) (account : Account) :
    (c.onAccount k account).balance.currency = account.balance.currency := by
  unfold Call.onAccount
  split <;> split <;> simp

/-- The whole effect of a call that goes a way. -/
structure Does (c : Call) (s : PaymentService) (w : Way) (r : Outcome × PaymentService) : Prop where
  answer : r.1 = w.answer c s.txnIds.next.1
  accounts : ∀ k, r.2.accounts.lookup k =
    (s.accounts.lookup k).map fun account => if w.moves then c.onAccount k account else account
  transactions : ∀ id, r.2.transactions.lookup id =
    if id = s.txnIds.next.1 then (w.saves c s.txnIds.next.1).or (s.transactions.lookup id)
    else s.transactions.lookup id
  idempotency : ∀ key, r.2.idempotency.lookup key =
    if w.claims ∧ key = c.req.idempotencyKey then some s.txnIds.next.1
    else s.idempotency.lookup key
  journal : r.2.journal = s.journal ++ if w.moves then s.posting c s.txnIds.next.1 else []
  events : r.2.events = s.events ++ w.tells c s.txnIds.next.1
  txnIds : r.2.txnIds = s.txnIds.next.2
  entryIds : r.2.entryIds = if w.moves then s.entryIds.next.2.next.2 else s.entryIds
  seq : r.2.seq = if w.moves then s.seq + 1 + 1 else s.seq
  locks : ∀ key, r.2.locks.Held key → s.locks.Held key

/-- No call changes which accounts there are, or the currency of one. -/
theorem Does.ccyAt {c : Call} {s : PaymentService} {w : Way} {r : Outcome × PaymentService}
    (does : Does c s w r) (k : String) : r.2.ccyAt k = s.ccyAt k := by
  unfold PaymentService.ccyAt
  rw [does.accounts, Option.map_map]
  congr 1
  funext account
  show (if w.moves then c.onAccount k account else account).balance.currency = _
  split
  · exact c.onAccount_currency k account
  · rfl

/-! ## Under the lock -/

section Locked

variable {chain : ValidationChain} {c : Call} {id : String} {s : PaymentService}

/-- The locked part, way by way. -/
inductive Leaves (chain : ValidationChain) (c : Call) (id : String) (s : PaymentService) :
    Way → Outcome × PaymentService → Prop where
  | raises (e : Exception) : Leaves chain c id s (.raises e) (.error e, s)
  | fails (err : Error) : Leaves chain c id s (.fails err)
      (conclude c.env (c.txn id .failed) "PaymentFailed" (.fail err) s)
  | captures {payer payee : Account} {strategy : PaymentStrategy} {ref : GatewayRef}
      (admits : Admits chain c id s payer payee strategy ref) :
      Leaves chain c id s .captures (conclude c.env (c.txn id .captured) "PaymentCaptured"
        (.ok (c.txn id .captured)) (s.recorded c id payer payee))

/-- Over the shipped adapters what is admitted is captured. -/
theorem Admits.process {payer payee : Account} {strategy : PaymentStrategy} {ref : GatewayRef}
    (admits : Admits chain c id s payer payee strategy ref) (shipped : c.env.Shipped) :
    process chain c.env c.req (c.txn id .initiated) s =
      conclude c.env (c.txn id .captured) "PaymentCaptured" (.ok (c.txn id .captured))
        (s.recorded c id payer payee) := by
  have exits := process_exits chain c id s
  generalize Service.process chain c.env c.req (c.txn id .initiated) s = r at exits ⊢
  cases exits with
  | raised e threw => exact absurd ⟨e, threw⟩ admits.cleared.not_throws
  | stopped err quiet inadmissible => exact absurd ⟨_, _, _, _, admits⟩ inadmissible
  | captured also =>
    obtain ⟨rfl, rfl, -, -⟩ := admits.unique also
    rfl
  | uncaptured err also accepts fails =>
    obtain ⟨provider, tag, is⟩ := shipped.approves c.req.method
    cases is.symm.trans also.supported
    exact absurd rfl fails
  | compensated err also rejects =>
    refine absurd ?_ rejects
    unfold Accepts
    rw [shipped.ledger]
    exact inMemory_accepts _ _ _ _ _ _ _

theorem process_leaves (chain : ValidationChain) (c : Call) (id : String) (s : PaymentService)
    (shipped : c.env.Shipped) :
    Leaves chain c id s (lockedWay chain c id s)
      (process chain c.env c.req (c.txn id .initiated) s) := by
  have failing {status : TxnStatus} (open_ : status = .initiated ∨ status = .authorized)
      (err : Error) : fail c.env (c.txn id status) err s =
        conclude c.env (c.txn id .failed) "PaymentFailed" (.fail err) s := by
    rw [fail, advance_failed c id open_]
  obtain ⟨provider, tag, supported⟩ := shipped.approves c.req.method
  unfold lockedWay
  cases ran : chain.run (c.txn id .initiated) with
  | error e =>
    rw [process, ran]
    exact .raises e
  | ok v =>
    cases rejected : v.isErr with
    | true =>
      simp only [process, ran, rejected, if_true, failing (.inl rfl)]
      exact .fails v.err
    | false =>
      cases payerFound : s.accounts.lookup c.req.payerAccountId with
      | none =>
        simp only [process, ran, rejected, payerFound, Option.isNone_none, if_true,
          failing (.inl rfl), Bool.false_eq_true, if_false]
        exact .fails _
      | some payer =>
        cases payeeFound : s.accounts.lookup c.req.payeeAccountId with
        | none =>
          simp only [process, ran, rejected, payerFound, payeeFound, Option.isNone_none,
            Option.isNone_some, if_true, failing (.inl rfl), Bool.false_eq_true, if_false]
          exact .fails _
        | some payee =>
          simp only [rejected, Option.isNone_some, Bool.false_eq_true, if_false]
          by_cases covered : payer.Debitable c.req.amount
          · have admits : Admits chain c id s payer payee (approving provider tag) _ :=
              ⟨⟨v, ran, rejected⟩, payerFound, payeeFound, supported, rfl, covered⟩
            simp only [admits.process shipped, Account.debit_of_debitable covered,
              Status.isErr_ok, Bool.false_eq_true, if_false]
            exact .captures admits
          · obtain ⟨msg, refused⟩ := Account.debit_of_not_debitable covered
            have moved : s.onAccount c.req.payerAccountId (·.debit c.req.amount) =
                (.ok (Status.fail (payer.debitRefusal c.req.amount) msg), s) := by
              simp [PaymentService.onAccount, payerFound, refused, replace_self payerFound]
            simp only [process, ran, rejected, payerFound, payeeFound, supported, refused,
              approving, move, moved, advance_authorized, Account.isErr_debitRefusal,
              Option.isNone_some, if_true, failing (.inr rfl), Bool.false_eq_true, if_false]
            exact .fails _

end Locked

/-! ## The whole call -/

section Whole

variable {chain : ValidationChain} {c : Call} {s : PaymentService}

/-- The locks a call leaves held were held. -/
theorem held_released {r : PaymentService} (same : r.locks = (s.entered c).locks) {key : String}
    (held : (r.released c).locks.Held key) : s.locks.Held key := by
  obtain ⟨other, held⟩ := (InMemoryDistributedLock.held_unlock _ _ _).1 held
  rw [same] at held
  rcases (InMemoryDistributedLock.held_lock _ _ _).1 held with own | before
  · exact absurd own other
  · exact (InMemoryDistributedLock.held_mutexFor _ _ _).1 before

theorem lookup_claimed {w : Way} (claims : w.claims = true) (key : String) :
    (s.idempotency.insert c.req.idempotencyKey s.txnIds.next.1).lookup key =
      if w.claims ∧ key = c.req.idempotencyKey then some s.txnIds.next.1
      else s.idempotency.lookup key := by
  by_cases own : key = c.req.idempotencyKey
  · rw [if_pos ⟨claims, own⟩, own]
    exact AList.lookup_insert _
  · rw [if_neg fun both => own both.2]
    exact AList.lookup_insert_ne own

theorem lookup_saved (txn : Transaction) (id : String) :
    (s.transactions.save txn).lookup id =
      if id = txn.id then some txn else s.transactions.lookup id := by
  unfold InMemoryTransactionRepository.save
  by_cases own : id = txn.id
  · rw [if_pos own, own]
    exact AList.lookup_insert _
  · rw [if_neg own]
    exact AList.lookup_insert_ne own

/-- The accounts after a call that moves its money. -/
theorem Admits.lookup_onAccount {id : String} {payer payee : Account} {strategy : PaymentStrategy}
    {ref : GatewayRef} (admits : Admits chain c id s payer payee strategy ref) (k : String) :
    (s.moved c payer payee).accounts.lookup k = (s.accounts.lookup k).map (c.onAccount k) := by
  rw [admits.lookup_moved]
  by_cases here : k = c.req.payeeAccountId
  · rw [if_pos here, here, admits.payeeFound, Option.map_some, Call.onAccount, if_pos rfl]
    by_cases self : c.req.payeeAccountId = c.req.payerAccountId
    · have same : payee = payer := by
        have found := admits.payeeFound
        rw [self, admits.payerFound] at found
        exact (Option.some.inj found).symm
      rw [if_pos self, if_pos self, same]
    · rw [if_neg self, if_neg self]
  · rw [if_neg here]
    by_cases there : k = c.req.payerAccountId
    · rw [if_pos there, there, admits.payerFound, Option.map_some, Call.onAccount, if_pos rfl,
        if_neg (there ▸ here)]
    · rw [if_neg there]
      have still : c.onAccount k = fun account => account := by
        funext account
        rw [Call.onAccount, if_neg here, if_neg there]
      rw [still, Option.map_id']

/-- What the locked part leaves, seen from before the call. -/
theorem Leaves.does {w : Way} {r : Outcome × PaymentService}
    (leaves : Leaves chain c s.txnIds.next.1 (s.entered c) w r) : Does c s w (r.1, r.2.released c) := by
  have saved (txn : Transaction) (own : txn.id = s.txnIds.next.1) (id : String) :
      (s.transactions.save txn).lookup id = if id = s.txnIds.next.1 then
        (some txn).or (s.transactions.lookup id) else s.transactions.lookup id := by
    rw [lookup_saved, own, Option.some_or]
  cases leaves with
  | raises e =>
    exact {
      answer := rfl
      accounts := fun k => Option.map_id'.symm
      transactions := fun id => (ite_self _).symm
      idempotency := lookup_claimed rfl
      journal := (List.append_nil _).symm
      events := (List.append_nil _).symm
      txnIds := rfl
      entryIds := rfl
      seq := rfl
      locks := fun key => held_released rfl }
  | fails err =>
    exact {
      answer := rfl
      accounts := fun k => Option.map_id'.symm
      transactions := saved _ rfl
      idempotency := lookup_claimed rfl
      journal := (List.append_nil _).symm
      events := rfl
      txnIds := rfl
      entryIds := rfl
      seq := rfl
      locks := fun key => held_released rfl }
  | captures admits =>
    exact {
      answer := rfl
      accounts := admits.lookup_onAccount
      transactions := saved _ rfl
      idempotency := lookup_claimed rfl
      journal := rfl
      events := rfl
      txnIds := rfl
      entryIds := rfl
      seq := rfl
      locks := fun key => held_released rfl }

/-- **What a call does follows from its way.** -/
theorem pay_does (chain : ValidationChain) (c : Call) (s : PaymentService) (shipped : c.env.Shipped) :
    Does c s (wayOf chain c s) (pay chain c.env c.req s) := by
  unfold wayOf
  cases taken : s.idempotency.lookup c.req.idempotencyKey with
  | some existingId =>
    rw [pay_replay taken]
    exact {
      answer := rfl
      accounts := fun k => Option.map_id'.symm
      transactions := fun id => (ite_self _).symm
      idempotency := fun key => by simp [Way.claims]
      journal := (List.append_nil _).symm
      events := (List.append_nil _).symm
      txnIds := rfl
      entryIds := rfl
      seq := rfl
      locks := fun key => id }
  | none =>
    have minted : s.txnIds.next.1 ≠ "" := IdGenerator.idOf_ne_empty _ _
    by_cases named : c.req.Named
    · rw [pay_begun ⟨taken, named⟩, buildTxn_named minted named]
      exact (process_leaves chain c s.txnIds.next.1 (s.entered c) shipped).does
    · obtain ⟨e, threw⟩ := buildTxn_unnamed minted named
      rw [pay_unnamed taken threw, threw]
      exact {
        answer := rfl
        accounts := fun k => Option.map_id'.symm
        transactions := fun id => (ite_self _).symm
        idempotency := lookup_claimed rfl
        journal := (List.append_nil _).symm
        events := (List.append_nil _).symm
        txnIds := rfl
        entryIds := rfl
        seq := rfl
        locks := fun key => id }

end Whole

/-! ## Unused ids -/

/-- Nothing is recorded under the id, and no key leads to it. -/
structure Unused (s : PaymentService) (id : String) : Prop where
  file : s.file id = File.blank
  key : ∀ key, s.idempotency.lookup key ≠ some id

theorem Unused.transaction {s : PaymentService} {id : String} (unused : Unused s id) :
    s.transactions.lookup id = none := congrArg File.transaction unused.file

section Reached

variable {chain : ValidationChain} {accounts : InMemoryAccountRepository} {calls : List Call}
  {sched : List Nat} {sys : System}

theorem Reaches.txnIds (reached : Reaches chain (PaymentService.opening accounts) calls sched sys)
    (short : calls.length < 2 ^ 64) :
    sys.service.txnIds = IdGenerator.drawn "txn" 1 sys.begun := (reached.draws rfl short).counter

/-- The ids drawn after those of a run are unused, as long as there are enough. -/
theorem Reaches.unused_drawn
    (reached : Reaches chain (PaymentService.opening accounts) calls sched sys) (more : Nat)
    (short : calls.length + more < 2 ^ 64) :
    Unused sys.service (IdGenerator.idOf "txn" (UInt64.ofNat (1 + (sys.begun + more)))) := by
  have draws : Draws "txn" 1 sys := reached.draws rfl (by omega)
  have few := sys.begun_le
  rw [length_threads reached] at few
  have other (t : Thread) (member : t ∈ sys.threads) (id : String) (won : t.pc.won = some id) :
      id ≠ IdGenerator.idOf "txn" (UInt64.ofNat (1 + (sys.begun + more))) := by
    obtain ⟨k, before, rfl⟩ := draws.within t member id (Pc.txnId_of_won won)
    intro same
    have := IdGenerator.idOf_injective (by omega) (by omega) same
    omega
  refine ⟨(reached.settled (by omega)).others _ fun t member won => other t member _ won rfl,
    fun key claimed => ?_⟩
  obtain ⟨t, member, -, won⟩ := reached.winner rfl claimed
  exact other t member _ won rfl

/-- **After fewer than `2 ^ 64` calls the next id is unused.** -/
theorem Reaches.unused_next
    (reached : Reaches chain (PaymentService.opening accounts) calls sched sys)
    (short : calls.length < 2 ^ 64) : Unused sys.service sys.service.txnIds.next.1 := by
  rw [reached.txnIds short, IdGenerator.drawn_next]
  exact reached.unused_drawn 0 short

/-- And the one after it, if there is one call less. -/
theorem Reaches.unused_second
    (reached : Reaches chain (PaymentService.opening accounts) calls sched sys)
    (short : calls.length + 1 < 2 ^ 64) :
    Unused sys.service sys.service.txnIds.next.2.next.1 := by
  rw [reached.txnIds (by omega), IdGenerator.drawn_next, IdGenerator.drawn_next]
  exact reached.unused_drawn 1 short

/-- Between calls no lock is held. -/
theorem Reaches.unlocked (reached : Reaches chain (PaymentService.opening accounts) calls sched sys)
    (complete : sys.Complete) (key : String) : ¬ sys.service.locks.Held key := by
  intro held
  obtain ⟨t, member, inside, -⟩ := ((reached.mutex fun _ held => by cases held).held key).1 held
  exact complete t member inside.unended

end Reached

end PaymentSystem.Service
