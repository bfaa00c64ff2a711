/-
# PaymentSystem.Service.Commuting -- independent payments in either order

Two payments with keys of their own, from different payers neither of whom the other pays,
do not look at anything the other changes, so each goes the same way first and second
(`SeesSame.wayOf`).  What they do to each store commutes (`BothOrders`), but for the names
they draw from the shared counters, which change hands with the order; `Renaming` gives
them back.

`Alike` compares two services that both followed on a third, `SameOutcome` two answers;
`payments_commute` is that either order answers and leaves the same in this sense.  It
needs two things that the requests do not give: subscribers that react the same in either
order, and ids that are not in use.  Without them it fails (`payments_interfere`).
-/
import PaymentSystem.Service.Serial
import PaymentSystem.Theory.Renaming

namespace PaymentSystem.Service

open PaymentSystem.Common
open PaymentSystem.Domain
open PaymentSystem.Patterns
open PaymentSystem.Adapters
open PaymentSystem.Infra
open PaymentSystem.Theory.Runs
open PaymentSystem.Theory.Renaming

set_option autoImplicit false

/-! ## Renaming -/

/-- Names of one service, given back to another. -/
structure Renaming where
  txnIds : Equiv.Perm String
  entryIds : Equiv.Perm String
  seqs : Equiv.Perm Int64

namespace Renaming

def transaction (ρ : Renaming) (txn : Transaction) : Transaction := { txn with id := ρ.txnIds txn.id }

def entry (ρ : Renaming) (e : LedgerEntry) : LedgerEntry :=
  { e with entryId := ρ.entryIds e.entryId, txnId := ρ.txnIds e.txnId, seq := ρ.seqs e.seq }

def event (ρ : Renaming) (e : DomainEvent) : DomainEvent :=
  { e with aggregateId := ρ.txnIds e.aggregateId }

end Renaming

/-- Without the time of its creation. -/
def timeless (txn : Transaction) : Transaction := { txn with createdAtEpoch := 0 }

def timelessEvent (e : DomainEvent) : DomainEvent := { e with occurredAtEpoch := 0 }

namespace PaymentService

/-- The names two calls may draw. -/
def nextTxnIds (s : PaymentService) : List String := [s.txnIds.next.1, s.txnIds.next.2.next.1]

def nextEntryIds (s : PaymentService) : List String :=
  [s.entryIds.next.1, s.entryIds.next.2.next.1, s.drawn.entryIds.next.1,
    s.drawn.entryIds.next.2.next.1]

def nextSeqs (s : PaymentService) : List Int64 := [s.seq, s.seq + 1, s.drawn.seq, s.drawn.seq + 1]

end PaymentService

/-- `t` and `u`, which both followed on `s`, are the same but for the order in which they
were told, the times, and the names minted since. -/
structure Alike (s : PaymentService) (ρ : Renaming) (t u : PaymentService) : Prop where
  mintedTxnIds : ∀ id, ρ.txnIds id ≠ id → id ∈ s.nextTxnIds
  mintedEntryIds : ∀ id, ρ.entryIds id ≠ id → id ∈ s.nextEntryIds
  mintedSeqs : ∀ n, ρ.seqs n ≠ n → n ∈ s.nextSeqs
  accounts : ∀ k, u.accounts.lookup k = t.accounts.lookup k
  journal : ∃ new new', t.journal = s.journal ++ new ∧ u.journal = s.journal ++ new' ∧
    new'.Perm (new.map ρ.entry)
  stored : ∀ id ∈ s.nextTxnIds, (u.transactions.lookup (ρ.txnIds id)).map timeless =
    (t.transactions.lookup id).map fun txn => timeless (ρ.transaction txn)
  kept : ∀ id, id ∉ s.nextTxnIds → t.transactions.lookup id = s.transactions.lookup id ∧
    u.transactions.lookup id = s.transactions.lookup id
  idempotency : ∀ key, u.idempotency.lookup key = (t.idempotency.lookup key).map ρ.txnIds
  events : ∃ new new', t.events = s.events ++ new ∧ u.events = s.events ++ new' ∧
    (new'.map timelessEvent).Perm (new.map fun e => timelessEvent (ρ.event e))

/-- The same exception, the same error, a replay of the same stored transaction, or a
payment captured alike. -/
inductive SameOutcome (s : PaymentService) (ρ : Renaming) : Outcome → Outcome → Prop where
  | raised (e : Exception) : SameOutcome s ρ (.error e) (.error e)
  | refused (err : Error) : SameOutcome s ρ (.ok (.fail err)) (.ok (.fail err))
  | replayed (id : String) (txn : Transaction) (stored : s.transactions.lookup id = some txn) :
      SameOutcome s ρ (.ok (.ok txn)) (.ok (.ok txn))
  | captured (txn txn' : Transaction) (status : txn.status = .captured)
      (minted : txn.id ∈ s.nextTxnIds) (same : timeless txn' = timeless (ρ.transaction txn)) :
      SameOutcome s ρ (.ok (.ok txn)) (.ok (.ok txn'))

/-- Two calls, one after the other: their outcomes, and the service after them. -/
def payBoth (chain : ValidationChain) (a b : Call) (s : PaymentService) :
    Outcome × Outcome × PaymentService :=
  let first := pay chain a.env a.req s
  let second := pay chain b.env b.req first.2
  (first.1, second.1, second.2)

/-- `a` then `b` comes to the same as `b'` then `a'`. -/
def Commute (chain : ValidationChain) (s : PaymentService) (a b a' b' : Call) : Prop :=
  ∃ ρ, SameOutcome s ρ (payBoth chain a b s).1 (payBoth chain b' a' s).2.1 ∧
    SameOutcome s ρ (payBoth chain a b s).2.1 (payBoth chain b' a' s).1 ∧
    Alike s ρ (payBoth chain a b s).2.2 (payBoth chain b' a' s).2.2

/-- The requests touch each other nowhere but in the payee. -/
structure Independent (a b : PaymentRequest) : Prop where
  keys : a.idempotencyKey ≠ b.idempotencyKey
  payers : a.payerAccountId ≠ b.payerAccountId
  first : a.payeeAccountId ≠ b.payerAccountId
  second : b.payeeAccountId ≠ a.payerAccountId

theorem Independent.symm {a b : PaymentRequest} (independent : Independent a b) : Independent b a :=
  ⟨independent.keys.symm, independent.payers.symm, independent.second, independent.first⟩

/-- The same call, perhaps at another time: the same request, and subscribers that react
the same to its event. -/
structure Again (c c' : Call) : Prop where
  req : c'.req = c.req
  subscribers : c'.env.subscribers = c.env.subscribers
  shipped : c.env.Shipped
  shipped' : c'.env.Shipped

theorem Again.symm {c c' : Call} (again : Again c c') : Again c' c :=
  ⟨again.req.symm, again.subscribers.symm, again.shipped', again.shipped⟩

/-! ## The way of a call -/

section Way

variable {limit threshold : Money} {c c' : Call} {s s' : PaymentService}

/-- What a call looks at. -/
structure SeesSame (c : Call) (s s' : PaymentService) : Prop where
  key : s'.idempotency.lookup c.req.idempotencyKey = s.idempotency.lookup c.req.idempotencyKey
  prior : replay s' c.req.idempotencyKey = replay s c.req.idempotencyKey
  payer : s'.accounts.lookup c.req.payerAccountId = s.accounts.lookup c.req.payerAccountId
  payee : (s'.accounts.lookup c.req.payeeAccountId).isNone =
    (s.accounts.lookup c.req.payeeAccountId).isNone

/-- **A call that sees the same goes the same way.** -/
theorem SeesSame.wayOf (sees : SeesSame c s s') (req : c'.req = c.req) :
    wayOf (standardChain limit threshold) c' s' = wayOf (standardChain limit threshold) c s := by
  obtain ⟨req', env'⟩ := c'
  cases req
  have minted : s.txnIds.next.1 ≠ "" := IdGenerator.idOf_ne_empty _ _
  have minted' : s'.txnIds.next.1 ≠ "" := IdGenerator.idOf_ne_empty _ _
  unfold Service.wayOf
  rw [sees.key, sees.prior]
  cases s.idempotency.lookup c.req.idempotencyKey with
  | some id => rfl
  | none =>
    by_cases named : c.req.Named
    · rw [buildTxn_named minted named, buildTxn_named (c := ⟨c.req, env'⟩) minted' named]
      -- the chain does not look at the id or the time
      have ran : (standardChain limit threshold).run (Call.txn ⟨c.req, env'⟩ s'.txnIds.next.1 .initiated) =
          (standardChain limit threshold).run (c.txn s.txnIds.next.1 .initiated) := rfl
      unfold lockedWay
      rw [ran]
      simp only [sees.payer, sees.payee]
    · obtain ⟨e, throws⟩ := buildTxn_throws named
      rw [throws c.env _ minted, throws env' _ minted']

/-- What is replayed is stored. -/
theorem replay_stored {key : String} {txn : Transaction} (replayed : replay s key = .ok txn) :
    ∃ id, s.transactions.lookup id = some txn := by
  unfold replay at replayed
  split at replayed
  · cases replayed
  · rename_i existingId _
    split at replayed
    · rename_i prior found
      cases replayed
      exact ⟨existingId, found⟩
    · cases replayed

theorem lockedWay_ne_replays {chain : ValidationChain} {id : String} {res : Result Transaction} :
    lockedWay chain c id s ≠ .replays res := by
  unfold lockedWay
  intro replays
  repeat' split at replays
  all_goals cases replays

theorem wayOf_replays {chain : ValidationChain} {txn : Transaction}
    (replays : wayOf chain c s = .replays (.ok txn)) :
    ∃ id, s.transactions.lookup id = some txn := by
  unfold Service.wayOf at replays
  split at replays
  · exact replay_stored (Way.replays.inj replays)
  · split at replays
    · cases replays
    · exact absurd replays lockedWay_ne_replays

/-- An account that is neither payer nor payee stays as it is. -/
theorem Call.onAccount_other {k : String} (payer : k ≠ c.req.payerAccountId)
    (payee : k ≠ c.req.payeeAccountId) (account : Account) : c.onAccount k account = account := by
  rw [Call.onAccount, if_neg payer, if_neg payee]

theorem Does.lookup_other {w : Way} {r : Outcome × PaymentService} (does : Does c s w r) {k : String}
    (payer : k ≠ c.req.payerAccountId) (payee : k ≠ c.req.payeeAccountId) :
    r.2.accounts.lookup k = s.accounts.lookup k := by
  have still : (fun account => if w.moves then c.onAccount k account else account) = id := by
    funext account
    rw [Call.onAccount_other payer payee, ite_self]
    rfl
  rw [does.accounts, still, Option.map_id, id]

/-- **After an independent call a call sees the same.** -/
theorem Does.seesSame {d : Call} {w : Way} {r : Outcome × PaymentService} (does : Does c s w r)
    (unused : Unused s s.txnIds.next.1) (independent : Independent c.req d.req) :
    SeesSame d s r.2 where
  key := by rw [does.idempotency, if_neg fun both => independent.keys both.2.symm]
  prior := by
    have key : r.2.idempotency.get d.req.idempotencyKey = s.idempotency.get d.req.idempotencyKey := by
      unfold InMemoryIdempotencyStore.get
      rw [does.idempotency, if_neg fun both => independent.keys both.2.symm]
    unfold replay
    rw [key]
    cases found : s.idempotency.get d.req.idempotencyKey with
    | none => rfl
    | some existingId =>
      have old : existingId ≠ s.txnIds.next.1 := by
        rintro rfl
        exact unused.key _ found
      have kept : r.2.transactions.find existingId = s.transactions.find existingId := by
        unfold InMemoryTransactionRepository.find
        rw [does.transactions, if_neg old]
      simp only [kept]
  payer := does.lookup_other independent.payers.symm independent.first.symm
  payee := by rw [does.accounts, Option.isNone_map]

end Way

/-! ## One call, renamed -/

section Renamed

variable {ρ : Renaming} {c c' : Call} {s t : PaymentService} {x y : String}

theorem timeless_txn (req : c'.req = c.req) (renamed : ρ.txnIds x = y) (status : TxnStatus) :
    timeless (c'.txn y status) = timeless (ρ.transaction (c.txn x status)) := by
  simp only [timeless, Renaming.transaction, Call.txn, req, renamed]

theorem timeless_event (req : c'.req = c.req) (renamed : ρ.txnIds x = y) (status : TxnStatus)
    (type : String) : timelessEvent (eventOf (c'.txn y status) type) =
      timelessEvent (ρ.event (eventOf (c.txn x status) type)) := by
  simp only [timelessEvent, Renaming.event, eventOf, payloadOf, Call.txn, req, renamed]

theorem Way.saves_renamed (w : Way) (req : c'.req = c.req) (renamed : ρ.txnIds x = y) :
    (w.saves c' y).map timeless =
      (w.saves c x).map fun txn => timeless (ρ.transaction txn) := by
  cases w with
  | replays res => rfl
  | raises e => rfl
  | fails err => exact congrArg some (timeless_txn req renamed .failed)
  | captures => exact congrArg some (timeless_txn req renamed .captured)

theorem Way.tells_renamed (w : Way) (req : c'.req = c.req) (renamed : ρ.txnIds x = y) :
    (w.tells c' y).map timelessEvent =
      (w.tells c x).map fun e => timelessEvent (ρ.event e) := by
  cases w with
  | replays res => rfl
  | raises e => rfl
  | fails err => exact congrArg (fun e => [e]) (timeless_event req renamed .failed _)
  | captures => exact congrArg (fun e => [e]) (timeless_event req renamed .captured _)

/-- The entry names drawn at `s` are given those drawn at `t`. -/
structure Renaming.Entries (ρ : Renaming) (s t : PaymentService) : Prop where
  debitId : ρ.entryIds s.entryIds.next.1 = t.entryIds.next.1
  creditId : ρ.entryIds s.entryIds.next.2.next.1 = t.entryIds.next.2.next.1
  debitSeq : ρ.seqs s.seq = t.seq
  creditSeq : ρ.seqs (s.seq + 1) = t.seq + 1

theorem Renaming.Entries.posting (entries : ρ.Entries s t) (req : c'.req = c.req)
    (renamed : ρ.txnIds x = y) : t.posting c' y = (s.posting c x).map ρ.entry := by
  simp only [PaymentService.posting, postingOf, List.map_cons, List.map_nil, Renaming.entry, req,
    renamed, entries.debitId, entries.creditId, entries.debitSeq, entries.creditSeq]

/-- What a call adds to the journal. -/
def Way.posts (c : Call) (s : PaymentService) (w : Way) : List LedgerEntry :=
  if w.moves then s.posting c s.txnIds.next.1 else []

theorem Way.posts_renamed {w : Way} (entries : w.moves = true → ρ.Entries s t)
    (req : c'.req = c.req) (renamed : ρ.txnIds s.txnIds.next.1 = t.txnIds.next.1) :
    w.posts c' t = (w.posts c s).map ρ.entry := by
  unfold Way.posts
  cases moves : w.moves with
  | false => rfl
  | true => exact (entries moves).posting req renamed

/-- The subscribers are told the same either time. -/
theorem Again.told (again : Again c c') (status : TxnStatus) (type : String)
    (res : Result Transaction) : Service.told c'.env (c'.txn y status) type res =
      (c.env.subscribers type (payloadOf (c.txn x status))).map fun _ => res := by
  have payload : payloadOf (c'.txn y status) = payloadOf (c.txn x status) := by
    simp only [payloadOf, Call.txn, again.req]
  rw [Service.told, again.subscribers, payload]

/-- **The same way is the same outcome.** -/
theorem Again.sameOutcome (again : Again c c') (renamed : ρ.txnIds x = y) (minted : x ∈ s.nextTxnIds)
    {w : Way} (stored : ∀ txn, w = .replays (.ok txn) → ∃ id, s.transactions.lookup id = some txn) :
    SameOutcome s ρ (w.answer c x) (w.answer c' y) := by
  cases w with
  | replays res =>
    cases res with
    | ok txn =>
      obtain ⟨id, found⟩ := stored txn rfl
      exact .replayed id txn found
    | fail err => exact .refused err
  | raises e => exact .raised e
  | fails err =>
    rw [Way.answer, Way.answer, again.told (x := x), Service.told]
    cases c.env.subscribers "PaymentFailed" (payloadOf (c.txn x .failed)) with
    | error e => exact .raised e
    | ok heard => exact .refused err
  | captures =>
    rw [Way.answer, Way.answer, again.told (x := x), Service.told]
    cases c.env.subscribers "PaymentCaptured" (payloadOf (c.txn x .captured)) with
    | error e => exact .raised e
    | ok heard => exact .captured _ _ rfl minted (timeless_txn again.req renamed .captured)

end Renamed

/-! ## Both orders -/

namespace PaymentService

theorem nextTxnIds_ne (s : PaymentService) : s.txnIds.next.1 ≠ s.txnIds.next.2.next.1 := by
  have distinct := s.txnIds.nodup_draws
  simp only [List.nodup_cons, List.mem_cons, not_or] at distinct
  exact distinct.1.1

/-- The names change hands: the ids always, those of the entries if both calls posted. -/
def exchanged (s : PaymentService) (both : Bool) : Renaming where
  txnIds := Equiv.swap s.txnIds.next.1 s.txnIds.next.2.next.1
  entryIds :=
    if both then exchange s.entryIds.next.1 s.entryIds.next.2.next.1 s.drawn.entryIds.next.1
      s.drawn.entryIds.next.2.next.1
    else Equiv.refl String
  seqs := if both then exchange s.seq (s.seq + 1) s.drawn.seq (s.drawn.seq + 1) else Equiv.refl Int64

theorem exchanged_first (s : PaymentService) (both : Bool) :
    (s.exchanged both).txnIds s.txnIds.next.1 = s.txnIds.next.2.next.1 := Equiv.swap_apply_left _ _

theorem exchanged_second (s : PaymentService) (both : Bool) :
    (s.exchanged both).txnIds s.txnIds.next.2.next.1 = s.txnIds.next.1 := Equiv.swap_apply_right _ _

variable {s t : PaymentService}

/-- The entry counters stand where they stood, or after one posting. -/
structure Posted (s : PaymentService) (moves : Bool) (t : PaymentService) : Prop where
  entryIds : t.entryIds = if moves then s.drawn.entryIds else s.entryIds
  seq : t.seq = if moves then s.drawn.seq else s.seq

theorem Posted.first {moves : Bool} (posted : Posted s moves t) :
    (s.exchanged moves).Entries s t := by
  have entryIds := posted.entryIds.symm
  have seq := posted.seq.symm
  cases moves with
  | false =>
    exact ⟨congrArg (·.next.1) entryIds, congrArg (·.next.2.next.1) entryIds, seq,
      congrArg (· + 1) seq⟩
  | true =>
    obtain ⟨debitId, creditId⟩ := exchange_first s.entryIds.nodup_draws
    obtain ⟨debitSeq, creditSeq⟩ := exchange_first (Theory.MachineInt.nodup_succs s.seq)
    exact ⟨debitId.trans (congrArg (·.next.1) entryIds),
      creditId.trans (congrArg (·.next.2.next.1) entryIds), debitSeq.trans seq,
      creditSeq.trans (congrArg (· + 1) seq)⟩

theorem Posted.second {moves : Bool} (posted : Posted s moves t) :
    (s.exchanged moves).Entries t s := by
  obtain ⟨entryIds, seq⟩ := posted
  cases moves with
  | false =>
    exact ⟨congrArg (·.next.1) entryIds, congrArg (·.next.2.next.1) entryIds, seq,
      congrArg (· + 1) seq⟩
  | true =>
    obtain ⟨debitId, creditId⟩ := exchange_second s.entryIds.nodup_draws
    obtain ⟨debitSeq, creditSeq⟩ := exchange_second (Theory.MachineInt.nodup_succs s.seq)
    refine ⟨?_, ?_, ?_, ?_⟩ <;> simp only [entryIds, seq, if_true]
    · exact debitId
    · exact creditId
    · exact debitSeq
    · exact creditSeq

end PaymentService

/-- Of independent calls the accounts do not tell which came first. -/
theorem Call.onAccount_comm {a b : Call} (independent : Independent a.req b.req) (k : String)
    (account : Account) :
    b.onAccount k (a.onAccount k account) = a.onAccount k (b.onAccount k account) := by
  by_cases payerOfA : k = a.req.payerAccountId
  · have other (account : Account) : b.onAccount k account = account :=
      b.onAccount_other (payerOfA ▸ independent.payers) (payerOfA ▸ independent.second.symm) account
    rw [other, other]
  · by_cases payerOfB : k = b.req.payerAccountId
    · have other (account : Account) : a.onAccount k account = account :=
        a.onAccount_other payerOfA (payerOfB ▸ independent.first.symm) account
      rw [other, other]
    · -- nobody pays from here, but both may pay to it
      simp only [Call.onAccount, if_neg payerOfA, if_neg payerOfB]
      by_cases payeeOfA : k = a.req.payeeAccountId
      · by_cases payeeOfB : k = b.req.payeeAccountId
        · rw [if_pos payeeOfA, if_pos payeeOfB, if_pos payeeOfA, if_pos payeeOfB,
            Account.credited_comm]
        · rw [if_neg payeeOfB, if_neg payeeOfB]
      · rw [if_neg payeeOfA, if_neg payeeOfA]

/-- `a` then `b`, and `b'` then `a'`, from `s`. -/
structure BothOrders (s : PaymentService) (a b a' b' : Call) (wa wb : Way)
    (r₁ r₂ q₁ q₂ : Outcome × PaymentService) : Prop where
  again : Again a a'
  again' : Again b b'
  independent : Independent a.req b.req
  unused : Unused s s.txnIds.next.1
  unused' : Unused s s.txnIds.next.2.next.1
  first : Does a s wa r₁
  second : Does b r₁.2 wb r₂
  first' : Does b' s wb q₁
  second' : Does a' q₁.2 wa q₂

namespace BothOrders

variable {s : PaymentService} {a b a' b' : Call} {wa wb : Way}
  {r₁ r₂ q₁ q₂ : Outcome × PaymentService}

theorem secondId (both : BothOrders s a b a' b' wa wb r₁ r₂ q₁ q₂) :
    r₁.2.txnIds.next.1 = s.txnIds.next.2.next.1 := by rw [both.first.txnIds]

/-- Seen the other way round. -/
theorem symm (both : BothOrders s a b a' b' wa wb r₁ r₂ q₁ q₂) :
    BothOrders s b' a' b a wb wa q₁ q₂ r₁ r₂ where
  again := both.again'.symm
  again' := both.again.symm
  independent := by
    rw [both.again.req, both.again'.req]
    exact both.independent.symm
  unused := both.unused
  unused' := both.unused'
  first := both.first'
  second := both.second'
  first' := both.first
  second' := both.second

theorem renamedA (both : BothOrders s a b a' b' wa wb r₁ r₂ q₁ q₂) {moves : Bool} :
    (s.exchanged moves).txnIds s.txnIds.next.1 = q₁.2.txnIds.next.1 := by
  rw [both.symm.secondId]
  exact s.exchanged_first moves

theorem renamedB (both : BothOrders s a b a' b' wa wb r₁ r₂ q₁ q₂) {moves : Bool} :
    (s.exchanged moves).txnIds r₁.2.txnIds.next.1 = s.txnIds.next.1 := by
  rw [both.secondId]
  exact s.exchanged_second moves

theorem accounts (both : BothOrders s a b a' b' wa wb r₁ r₂ q₁ q₂) (k : String) :
    q₂.2.accounts.lookup k = r₂.2.accounts.lookup k := by
  have sameA (account : Account) : a'.onAccount k account = a.onAccount k account := by
    rw [Call.onAccount, Call.onAccount, both.again.req]
  have sameB (account : Account) : b'.onAccount k account = b.onAccount k account := by
    rw [Call.onAccount, Call.onAccount, both.again'.req]
  rw [both.second'.accounts, both.first'.accounts, both.second.accounts, both.first.accounts,
    Option.map_map, Option.map_map]
  congr 1
  funext account
  simp only [Function.comp_apply, sameA, sameB]
  cases wa.moves with
  | false => rfl
  | true =>
    cases wb.moves with
    | false => rfl
    | true => exact (Call.onAccount_comm both.independent k account).symm

theorem journal (both : BothOrders s a b a' b' wa wb r₁ r₂ q₁ q₂) :
    ∃ new new', r₂.2.journal = s.journal ++ new ∧ q₂.2.journal = s.journal ++ new' ∧
      new'.Perm (new.map (s.exchanged (wa.moves && wb.moves)).entry) := by
  refine ⟨wa.posts a s ++ wb.posts b r₁.2, wb.posts b' s ++ wa.posts a' q₁.2, ?_, ?_, ?_⟩
  · rw [both.second.journal, both.first.journal, List.append_assoc]
    rfl
  · rw [both.second'.journal, both.first'.journal, List.append_assoc]
    rfl
  · have ofA : (wa.posts a' q₁.2).map id =
        (wa.posts a s).map (s.exchanged (wa.moves && wb.moves)).entry := by
      rw [List.map_id]
      refine Way.posts_renamed (fun moves => ?_) both.again.req both.renamedA
      rw [moves, Bool.true_and]
      exact PaymentService.Posted.first ⟨both.first'.entryIds, both.first'.seq⟩
    have ofB : (wb.posts b' s).map id =
        (wb.posts b r₁.2).map (s.exchanged (wa.moves && wb.moves)).entry := by
      rw [List.map_id]
      refine Way.posts_renamed (fun moves => ?_) both.again'.req both.renamedB
      rw [moves, Bool.and_true]
      exact PaymentService.Posted.second ⟨both.first.entryIds, both.first.seq⟩
    have swapped := perm_exchanged ofA ofB
    rwa [List.map_id] at swapped

theorem events (both : BothOrders s a b a' b' wa wb r₁ r₂ q₁ q₂) :
    ∃ new new', r₂.2.events = s.events ++ new ∧ q₂.2.events = s.events ++ new' ∧
      (new'.map timelessEvent).Perm
        (new.map fun e => timelessEvent ((s.exchanged (wa.moves && wb.moves)).event e)) := by
  refine ⟨wa.tells a s.txnIds.next.1 ++ wb.tells b r₁.2.txnIds.next.1,
    wb.tells b' s.txnIds.next.1 ++ wa.tells a' q₁.2.txnIds.next.1, ?_, ?_, ?_⟩
  · rw [both.second.events, both.first.events, List.append_assoc]
  · rw [both.second'.events, both.first'.events, List.append_assoc]
  · exact perm_exchanged (wa.tells_renamed both.again.req both.renamedA)
      (wb.tells_renamed both.again'.req both.renamedB)

/-- The store after both, at the id of the first. -/
theorem storedFirst (both : BothOrders s a b a' b' wa wb r₁ r₂ q₁ q₂) :
    r₂.2.transactions.lookup s.txnIds.next.1 = wa.saves a s.txnIds.next.1 := by
  rw [both.second.transactions, both.secondId, if_neg s.nextTxnIds_ne, both.first.transactions,
    if_pos rfl, both.unused.transaction, Option.or_none]

/-- And at the id of the second. -/
theorem storedSecond (both : BothOrders s a b a' b' wa wb r₁ r₂ q₁ q₂) :
    r₂.2.transactions.lookup s.txnIds.next.2.next.1 = wb.saves b s.txnIds.next.2.next.1 := by
  rw [both.second.transactions, both.secondId, if_pos rfl, both.first.transactions,
    if_neg s.nextTxnIds_ne.symm, both.unused'.transaction, Option.or_none]

theorem kept (both : BothOrders s a b a' b' wa wb r₁ r₂ q₁ q₂) {id : String}
    (other : id ∉ s.nextTxnIds) :
    r₂.2.transactions.lookup id = s.transactions.lookup id := by
  simp only [PaymentService.nextTxnIds, List.mem_cons, List.not_mem_nil, or_false, not_or] at other
  rw [both.second.transactions, both.secondId, if_neg other.2, both.first.transactions,
    if_neg other.1]

theorem stored (both : BothOrders s a b a' b' wa wb r₁ r₂ q₁ q₂) {moves : Bool} {id : String}
    (minted : id ∈ s.nextTxnIds) :
    (q₂.2.transactions.lookup ((s.exchanged moves).txnIds id)).map timeless =
      (r₂.2.transactions.lookup id).map fun txn =>
        timeless ((s.exchanged moves).transaction txn) := by
  have first := s.exchanged_first moves
  have second := s.exchanged_second moves
  simp only [PaymentService.nextTxnIds, List.mem_cons, List.not_mem_nil, or_false] at minted
  rcases minted with rfl | rfl
  · rw [first, both.symm.storedSecond, both.storedFirst]
    exact wa.saves_renamed both.again.req first
  · rw [second, both.symm.storedFirst, both.storedSecond]
    exact wb.saves_renamed both.again'.req second

theorem idempotency (both : BothOrders s a b a' b' wa wb r₁ r₂ q₁ q₂) {moves : Bool} (key : String) :
    q₂.2.idempotency.lookup key =
      (r₂.2.idempotency.lookup key).map (s.exchanged moves).txnIds := by
  have first := s.exchanged_first moves
  have second := s.exchanged_second moves
  rw [both.second'.idempotency, both.first'.idempotency, both.second.idempotency,
    both.first.idempotency, both.again.req, both.again'.req, both.secondId, both.symm.secondId]
  by_cases ofA : wa.claims ∧ key = a.req.idempotencyKey
  · have notB : ¬ (wb.claims ∧ key = b.req.idempotencyKey) := fun ofB =>
      both.independent.keys (ofA.2.symm.trans ofB.2)
    rw [if_pos ofA, if_neg notB, if_pos ofA, Option.map_some, first]
  · by_cases ofB : wb.claims ∧ key = b.req.idempotencyKey
    · rw [if_neg ofA, if_pos ofB, if_pos ofB, Option.map_some, second]
    · rw [if_neg ofA, if_neg ofB, if_neg ofB, if_neg ofA]
      cases found : s.idempotency.lookup key with
      | none => rfl
      | some id =>
        -- an id some key led to before keeps its name
        have old : (s.exchanged moves).txnIds id = id :=
          Equiv.swap_apply_of_ne_of_ne (fun same => both.unused.key key (same ▸ found))
            fun same => both.unused'.key key (same ▸ found)
        rw [Option.map_some, old]

/-- **What either order leaves is alike.** -/
theorem alike (both : BothOrders s a b a' b' wa wb r₁ r₂ q₁ q₂) :
    Alike s (s.exchanged (wa.moves && wb.moves)) r₂.2 q₂.2 where
  mintedTxnIds _ moved := mem_of_swap moved
  mintedEntryIds _ moved := mem_of_exchange_if moved
  mintedSeqs _ moved := mem_of_exchange_if moved
  accounts := both.accounts
  journal := both.journal
  stored _ minted := both.stored minted
  kept _ other := ⟨both.kept other, both.symm.kept other⟩
  idempotency := both.idempotency
  events := both.events

theorem outcomeA (both : BothOrders s a b a' b' wa wb r₁ r₂ q₁ q₂) {moves : Bool}
    (stored : ∀ txn, wa = .replays (.ok txn) → ∃ id, s.transactions.lookup id = some txn) :
    SameOutcome s (s.exchanged moves) r₁.1 q₂.1 := by
  rw [both.first.answer, both.second'.answer]
  exact both.again.sameOutcome both.renamedA (List.mem_cons_self ..) stored

theorem outcomeB (both : BothOrders s a b a' b' wa wb r₁ r₂ q₁ q₂) {moves : Bool}
    (stored : ∀ txn, wb = .replays (.ok txn) → ∃ id, s.transactions.lookup id = some txn) :
    SameOutcome s (s.exchanged moves) r₂.1 q₁.1 := by
  rw [both.second.answer, both.first'.answer]
  refine both.again'.sameOutcome both.renamedB ?_ stored
  rw [both.secondId]
  exact List.mem_cons_of_mem _ (List.mem_cons_self ..)

end BothOrders

/-! ## Independent payments commute -/

section Commute

variable {limit threshold : Money} {s : PaymentService} {a b a' b' : Call}

theorem bothOrders (limit threshold : Money) (again : Again a a') (again' : Again b b')
    (independent : Independent a.req b.req) (unused : Unused s s.txnIds.next.1)
    (unused' : Unused s s.txnIds.next.2.next.1) :
    BothOrders s a b a' b' (wayOf (standardChain limit threshold) a s)
      (wayOf (standardChain limit threshold) b s)
      (pay (standardChain limit threshold) a.env a.req s)
      (pay (standardChain limit threshold) b.env b.req
        (pay (standardChain limit threshold) a.env a.req s).2)
      (pay (standardChain limit threshold) b'.env b'.req s)
      (pay (standardChain limit threshold) a'.env a'.req
        (pay (standardChain limit threshold) b'.env b'.req s).2) := by
  have first := pay_does (standardChain limit threshold) a s again.shipped
  have first' := pay_does (standardChain limit threshold) b' s again'.shipped'
  have itself : SeesSame b s s := ⟨rfl, rfl, rfl, rfl⟩
  have sees := first.seesSame unused independent
  have sees' := first'.seesSame unused (again'.req.symm ▸ independent.symm)
  have second := pay_does (standardChain limit threshold) b
    (pay (standardChain limit threshold) a.env a.req s).2 again'.shipped
  have second' := pay_does (standardChain limit threshold) a'
    (pay (standardChain limit threshold) b'.env b'.req s).2 again.shipped'
  rw [itself.wayOf again'.req] at first'
  rw [sees.wayOf rfl] at second
  rw [sees'.wayOf again.req] at second'
  exact ⟨again, again', independent, unused, unused', first, second, first', second'⟩

/-- **Independent payments commute.**  In every state reached by so few calls that the two
ids to come are new, two independent payments answer and leave the same in either order. -/
theorem payments_commute {accounts : InMemoryAccountRepository} {calls : List Call} {sched : List Nat}
    {sys : System}
    (reached : Reaches (standardChain limit threshold) (PaymentService.opening accounts) calls sched sys)
    (short : calls.length + 1 < 2 ^ 64) (again : Again a a') (again' : Again b b')
    (independent : Independent a.req b.req) :
    Commute (standardChain limit threshold) sys.service a b a' b' := by
  have both := bothOrders limit threshold again again' independent
    (reached.unused_next (by omega)) (reached.unused_second short)
  exact ⟨_, both.outcomeA fun txn replays => wayOf_replays replays,
    both.outcomeB fun txn replays => wayOf_replays replays, both.alike⟩

/-- Two wallets and a merchant. -/
def usersAndMerchant : InMemoryAccountRepository := userAndMerchant.save ⟨"v", ⟨50000, .inr⟩⟩

theorem solvent_usersAndMerchant : Solvent usersAndMerchant :=
  Solvent.of_entries (by decide) (by decide)

/-- The first payment to the merchant, made over and over. -/
def retried : Call := upiCall "key-0" "u" "m" 500

/-- A payment from the other wallet. -/
def otherPayment : Call := upiCall "key-1" "v" "m" 700

/-- Two payments to one merchant after a third, each at another time the other way round. -/
theorem payments_commute_merchant : ∃ sched sys,
    Reaches mainChain (PaymentService.opening usersAndMerchant) [retried] sched sys ∧
      Commute mainChain sys.service (upiCall "key-2" "u" "m" 300) otherPayment
        { upiCall "key-2" "u" "m" 300 with env := Env.shipped 9 }
        { otherPayment with env := Env.shipped 8 } := by
  have shipped : ∀ c ∈ [retried], c.env.Shipped :=
    List.forall_mem_singleton.2 (Env.shipped_shipped 0)
  obtain ⟨sched, sys, reached, -, -⟩ := payAll_reaches mainChain shipped usersAndMerchant
  exact ⟨sched, sys, reached, payments_commute reached (by decide)
    ⟨rfl, rfl, Env.shipped_shipped 0, Env.shipped_shipped 9⟩
    ⟨rfl, rfl, Env.shipped_shipped 0, Env.shipped_shipped 8⟩
    ⟨by decide, by decide, by decide, by decide⟩⟩

/-! ### Where they do not -/

theorem Alike.mem_nextTxnIds {ρ : Renaming} {t u : PaymentService} (alike : Alike s ρ t u)
    {id : String} (minted : id ∈ s.nextTxnIds) : ρ.txnIds id ∈ s.nextTxnIds := by
  by_contra other
  have fixed : ρ.txnIds (ρ.txnIds id) = ρ.txnIds id := by
    by_contra moved
    exact other (alike.mintedTxnIds _ moved)
  rw [ρ.txnIds.injective fixed] at other
  exact other minted

/-- For an id that one order leaves empty there is one that the other leaves empty. -/
theorem Alike.missing {ρ : Renaming} {t u : PaymentService} (alike : Alike s ρ t u) {id : String}
    (minted : id ∈ s.nextTxnIds) (none_ : t.transactions.lookup id = none) :
    ∃ id' ∈ s.nextTxnIds, u.transactions.lookup id' = none := by
  refine ⟨_, alike.mem_nextTxnIds minted, ?_⟩
  have same := alike.stored id minted
  rw [none_, Option.map_none, Option.map_eq_none_iff] at same
  exact same

/-- The subscriber throws on the event of this call. -/
def Call.interrupted (c : Call) : Call :=
  { c with env := { c.env with subscribers := fun _ _ => .error (.foreign "subscriber") } }

/-- A subscriber that throws on the first event it sees tells the orders apart. -/
theorem interrupted_not_commute : ¬ Commute mainChain (PaymentService.opening usersAndMerchant)
    retried.interrupted otherPayment retried otherPayment.interrupted := by
  rintro ⟨ρ, outcome, -, -⟩
  have raised : (payBoth mainChain retried.interrupted otherPayment
      (PaymentService.opening usersAndMerchant)).1 = .error (.foreign "subscriber") := by
    decide +kernel
  have captured : (payBoth mainChain otherPayment.interrupted retried
      (PaymentService.opening usersAndMerchant)).2.1 =
        .ok (.ok (retried.txn "txn_2" .captured)) := by
    decide +kernel
  rw [raised, captured] at outcome
  cases outcome

/-- The service after the first payment, when the id counter stands at zero again. -/
def lapped : PaymentService :=
  { (pay mainChain retried.env retried.req (PaymentService.opening usersAndMerchant)).2 with
    txnIds := ⟨"txn", 0⟩ }

/-- The payment and `n` retries of it only advance the id counter. -/
theorem reaches_retried (n : Nat) : ∃ sched sys,
    Reaches mainChain (PaymentService.opening usersAndMerchant)
        (retried :: List.replicate n retried) sched sys ∧
      sys.service = { lapped with txnIds := ⟨"txn", 2 + UInt64.ofNat n⟩ } := by
  have shipped : ∀ c ∈ retried :: List.replicate n retried, c.env.Shipped := by
    refine List.forall_mem_cons.2 ⟨Env.shipped_shipped 0, fun c among => ?_⟩
    rw [List.eq_of_mem_replicate among]
    exact Env.shipped_shipped 0
  obtain ⟨sched, sys, reached, -, is⟩ := payAll_reaches mainChain shipped usersAndMerchant
  have taken : (pay mainChain retried.env retried.req
      (PaymentService.opening usersAndMerchant)).2.idempotency.lookup retried.req.idempotencyKey =
        some "txn_1" := by
    decide +kernel
  exact ⟨sched, sys, reached, is.trans (payAll_replays taken n)⟩

/-- Made second, the other payment is stored over the first payment of all. -/
theorem lapped_not_commute : ¬ Commute mainChain lapped retried otherPayment retried otherPayment := by
  rintro ⟨ρ, -, -, alike⟩
  have none_ : (payBoth mainChain retried otherPayment lapped).2.2.transactions.lookup "txn_0" =
      none := by
    decide +kernel
  have some_ : ∀ id ∈ lapped.nextTxnIds,
      (payBoth mainChain otherPayment retried lapped).2.2.transactions.lookup id ≠ none := by
    decide +kernel
  obtain ⟨id, minted, missing⟩ := alike.missing (by decide +kernel) none_
  exact some_ id minted missing

/-- **Payments that touch each other nowhere are told apart** by a subscriber that counts
its events, and once the id counter has gone round. -/
theorem payments_interfere : Solvent usersAndMerchant ∧
    Independent retried.req otherPayment.req ∧
    (¬ Commute mainChain (PaymentService.opening usersAndMerchant)
      retried.interrupted otherPayment retried otherPayment.interrupted) ∧
    ∃ sched sys, Reaches mainChain (PaymentService.opening usersAndMerchant)
        (retried :: List.replicate (2 ^ 64 - 2) retried) sched sys ∧
      ¬ Commute mainChain sys.service retried otherPayment retried otherPayment := by
  obtain ⟨sched, sys, reached, is⟩ := reaches_retried (2 ^ 64 - 2)
  have lap : (2 : UInt64) + UInt64.ofNat (2 ^ 64 - 2) = 0 := by decide
  refine ⟨solvent_usersAndMerchant, ⟨by decide, by decide, by decide, by decide⟩,
    interrupted_not_commute, sched, sys, reached, ?_⟩
  rw [is, lap]
  exact lapped_not_commute

end Commute

end PaymentSystem.Service
