/-
# PaymentSystem.Service.Machine -- `pay` one atomic step at a time

Any number of calls of `pay` run on threads of their own over one service.  A
thread is its call and its program point `Pc`, which carries the locals that are
still live; `next` is the thread's next atomic step, one section under a mutex of
an adapter or an account, or one atomic counter.  It is `none` where the thread
waits for the payer's mutex, and where the call has ended.

`System.step i` lets thread `i` take its step, so a list of thread indices is a
schedule and every interleaving is the run of one.  A call has begun once it left
`start`; calls that arrive later, or never, are threads still at `start`.

`Fires` lists what a step can do, one constructor a transition, and `next_fires`
is the inversion lemma every invariant is proved through.
-/
import PaymentSystem.Service.PaymentService
import PaymentSystem.Theory.Runs

namespace PaymentSystem.Service

open PaymentSystem.Common
open PaymentSystem.Domain
open PaymentSystem.Patterns
open PaymentSystem.Adapters
open PaymentSystem.Infra
open PaymentSystem.Theory.Keyed
open PaymentSystem.Theory.Runs

set_option autoImplicit false

/-- The locals of a call from its authorization on. -/
structure Flight where
  txn : Transaction
  strategy : PaymentStrategy
  ref : GatewayRef

/-- Program points of `pay`, each with its live locals. -/
inductive Pc where
  | start
  | claim (txnId : String)
  -- the key was taken: look the original up
  | lookup
  | replay (existingId : String)
  | replied (res : Result Transaction)
  -- the key is ours
  | build (txnId : String)
  | unbuilt (txnId : String) (e : Exception)
  | mutexFor (txn : Transaction)
  | lock (txn : Transaction)
  | validate (txn : Transaction)
  | load (txn : Transaction)
  | authorize (txn : Transaction) (strategy : PaymentStrategy)
  | debit (f : Flight)
  | credit (f : Flight)
  | drawDebitId (f : Flight)
  | drawDebitSeq (f : Flight) (debitId : String)
  | drawCreditId (f : Flight) (debitId : String) (debitSeq : Int64)
  | drawCreditSeq (f : Flight) (debitId creditId : String) (debitSeq : Int64)
  | post (f : Flight) (debitId creditId : String) (debitSeq creditSeq : Int64)
  | undoCredit (f : Flight) (err : Error)
  | undoDebit (f : Flight) (err : Error)
  | capture (f : Flight)
  | save (txn : Transaction) (type : String) (res : Result Transaction)
  | publish (txn : Transaction) (type : String) (res : Result Transaction)
  | notify (txn : Transaction) (type : String) (res : Result Transaction)
  | unlock (txn : Transaction) (out : Outcome)
  | finished (txn : Transaction) (out : Outcome)

namespace Pc

/-- Where `fail` continues: with the advanced transaction, at its save. -/
def failing (txn : Transaction) (err : Error) : Pc :=
  .save (advance txn .failed) "PaymentFailed" (.fail err)

/-- Where the successful end continues. -/
def capturing (txn : Transaction) : Pc :=
  .save (advance txn .captured) "PaymentCaptured" (.ok (advance txn .captured))

end Pc

/-- The next atomic step of a call at a program point. -/
def next (chain : ValidationChain) (c : Call) (s : PaymentService) :
    Pc → Option (PaymentService × Pc)
  | .start => some ({ s with txnIds := s.txnIds.next.2 }, .claim s.txnIds.next.1)
  | .claim txnId =>
    let claim := s.idempotency.putIfAbsent c.req.idempotencyKey txnId
    some ({ s with idempotency := claim.2 }, if claim.1 then .build txnId else .lookup)
  | .lookup =>
    match s.idempotency.get c.req.idempotencyKey with
    | none => some (s, .replied (.fail ⟨.duplicateRequest,
        "duplicate request for idempotency key: " ++ c.req.idempotencyKey⟩))
    | some existingId => some (s, .replay existingId)
  | .replay existingId =>
    match s.transactions.find existingId with
    | some prior => some (s, .replied (.ok prior))
    | none => some (s, .replied (.fail ⟨.duplicateRequest,
        "duplicate request for idempotency key: " ++ c.req.idempotencyKey⟩))
  | .replied _ => none
  | .build txnId =>
    match buildTxn c.env txnId c.req with
    | .error e => some (s, .unbuilt txnId e)
    | .ok txn => some (s, .mutexFor txn)
  | .unbuilt _ _ => none
  | .mutexFor txn => some ({ s with locks := s.locks.mutexFor (lockKey c.req) }, .lock txn)
  | .lock txn =>
    if s.locks.Held (lockKey c.req) then none
    else some ({ s with locks := s.locks.lock (lockKey c.req) }, .validate txn)
  | .validate txn =>
    match chain.run txn with
    | .error e => some (s, .unlock txn (.error e))
    | .ok v => some (s, if v.isErr then .failing txn v.err else .load txn)
  | .load txn =>
    if (s.accounts.lookup c.req.payerAccountId).isNone then
      some (s, .failing txn ⟨.accountNotFound, "payer not found"⟩)
    else if (s.accounts.lookup c.req.payeeAccountId).isNone then
      some (s, .failing txn ⟨.accountNotFound, "payee not found"⟩)
    else
      match c.env.strategies c.req.method with
      | none => some (s, .failing txn ⟨.validationFailed, "unsupported payment method"⟩)
      | some strategy => some (s, .authorize txn strategy)
  | .authorize txn strategy =>
    match strategy.authorize txn with
    | .fail e => some (s, .failing txn e)
    | .ok ref => some (s, .debit ⟨advance txn .authorized, strategy, ref⟩)
  | .debit f =>
    match s.onAccount c.req.payerAccountId (·.debit c.req.amount) with
    | (.error e, s) => some (s, .unlock f.txn (.error e))
    | (.ok d, s) => some (s, if d.isErr then .failing f.txn d.err else .credit f)
  | .credit f =>
    match s.onAccount c.req.payeeAccountId (·.credit c.req.amount) with
    | (.error e, s) => some (s, .unlock f.txn (.error e))
    | (.ok _, s) => some (s, .drawDebitId f)
  -- the two draws of one entry are unsequenced in the source; they touch different counters
  | .drawDebitId f =>
    some ({ s with entryIds := s.entryIds.next.2 }, .drawDebitSeq f s.entryIds.next.1)
  | .drawDebitSeq f debitId => some ({ s with seq := s.seq + 1 }, .drawCreditId f debitId s.seq)
  | .drawCreditId f debitId debitSeq =>
    some ({ s with entryIds := s.entryIds.next.2 },
      .drawCreditSeq f debitId s.entryIds.next.1 debitSeq)
  | .drawCreditSeq f debitId creditId debitSeq =>
    some ({ s with seq := s.seq + 1 }, .post f debitId creditId debitSeq s.seq)
  | .post f debitId creditId debitSeq creditSeq =>
    let p := c.env.ledger.post s.journal
      (postingOf c.req f.txn.id debitId creditId debitSeq creditSeq)
    some ({ s with journal := p.2 }, if p.1.isErr then .undoCredit f p.1.err else .capture f)
  | .undoCredit f err =>
    match s.onAccount c.req.payerAccountId (·.credit c.req.amount) with
    | (.error e, s) => some (s, .unlock f.txn (.error e))
    | (.ok _, s) => some (s, .undoDebit f err)
  | .undoDebit f err =>
    match s.onAccount c.req.payeeAccountId (·.debit c.req.amount) with
    | (.error e, s) => some (s, .unlock f.txn (.error e))
    | (.ok _, s) => some (s, .failing f.txn err)
  | .capture f =>
    let captured := f.strategy.capture f.txn f.ref
    some (s, if captured.isErr then .failing f.txn captured.err else .capturing f.txn)
  | .save txn type res =>
    some ({ s with transactions := s.transactions.save txn }, .publish txn type res)
  | .publish txn type res =>
    some ({ s with events := s.events ++ [eventOf txn type] }, .notify txn type res)
  | .notify txn type res => some (s, .unlock txn (told c.env txn type res))
  | .unlock txn out => some ({ s with locks := s.locks.unlock (lockKey c.req) }, .finished txn out)
  | .finished _ _ => none

/-! ## Threads -/

structure Thread where
  call : Call
  pc : Pc

structure System where
  service : PaymentService
  threads : List Thread

namespace System

/-- The calls, none of them begun, over a service. -/
def init (service : PaymentService) (calls : List Call) : System :=
  ⟨service, calls.map fun c => ⟨c, .start⟩⟩

/-- Thread `i` takes its next atomic step. -/
def step (chain : ValidationChain) (sys : System) (i : Nat) : Option System :=
  match sys.threads[i]? with
  | none => none
  | some t =>
    (next chain t.call sys.service t.pc).map fun r =>
      ⟨r.1, sys.threads.set i ⟨t.call, r.2⟩⟩

end System

/-- The state a schedule leads to from the calls `calls` over `service`. -/
def Reaches (chain : ValidationChain) (service : PaymentService) (calls : List Call)
    (sched : List Nat) (sys : System) : Prop :=
  exec (System.step chain) (System.init service calls) sched = some sys

namespace Pc

/-- What the call returned or let escape, once it has ended. -/
def outcome : Pc → Option Outcome
  | .replied res => some (.ok res)
  | .unbuilt _ e => some (.error e)
  | .finished _ out => some out
  | _ => none

/-- Begun and not ended. -/
def InFlight (pc : Pc) : Prop := pc.outcome = none ∧ pc ≠ .start

end Pc

/-- No call is in flight. -/
def System.Quiescent (sys : System) : Prop :=
  ∀ t ∈ sys.threads, t.pc.outcome ≠ none ∨ t.pc = .start

/-- Every call has ended. -/
def System.Complete (sys : System) : Prop := ∀ t ∈ sys.threads, t.pc.outcome ≠ none

theorem System.complete_of_all {sys : System}
    (ended : (sys.threads.all fun t => t.pc.outcome.isSome) = true) : sys.Complete :=
  fun t member => Option.isSome_iff_ne_none.1 (List.all_eq_true.1 ended t member)

theorem System.Complete.quiescent {sys : System} (complete : sys.Complete) : sys.Quiescent :=
  fun t member => .inl (complete t member)

/-! ## What a step can do -/

/-- The transitions of a call, with the guard and the effect of each. -/
inductive Fires (chain : ValidationChain) (c : Call) (s : PaymentService) :
    Pc → PaymentService → Pc → Prop where
  | mint : Fires chain c s .start { s with txnIds := s.txnIds.next.2 } (.claim s.txnIds.next.1)
  | won (txnId : String) (fresh : s.idempotency.lookup c.req.idempotencyKey = none) :
      Fires chain c s (.claim txnId)
        { s with idempotency := s.idempotency.insert c.req.idempotencyKey txnId } (.build txnId)
  | lost (txnId : String) (taken : s.idempotency.lookup c.req.idempotencyKey ≠ none) :
      Fires chain c s (.claim txnId) s .lookup
  | unclaimed (res : Result Transaction) (code : ∃ msg, res = .fail ⟨.duplicateRequest, msg⟩) :
      Fires chain c s .lookup s (.replied res)
  | looked (existingId : String)
      (found : s.idempotency.lookup c.req.idempotencyKey = some existingId) :
      Fires chain c s .lookup s (.replay existingId)
  | replayed (existingId : String) (prior : Transaction)
      (found : s.transactions.lookup existingId = some prior) :
      Fires chain c s (.replay existingId) s (.replied (.ok prior))
  | unreplayed (existingId : String) (res : Result Transaction)
      (code : ∃ msg, res = .fail ⟨.duplicateRequest, msg⟩) :
      Fires chain c s (.replay existingId) s (.replied res)
  | unbuilt (txnId : String) (e : Exception) (threw : buildTxn c.env txnId c.req = .error e) :
      Fires chain c s (.build txnId) s (.unbuilt txnId e)
  | built (txnId : String) (txn : Transaction) (ok : buildTxn c.env txnId c.req = .ok txn) :
      Fires chain c s (.build txnId) s (.mutexFor txn)
  | mutexFor (txn : Transaction) :
      Fires chain c s (.mutexFor txn) { s with locks := s.locks.mutexFor (lockKey c.req) } (.lock txn)
  | locked (txn : Transaction) (free : ¬ s.locks.Held (lockKey c.req)) :
      Fires chain c s (.lock txn) { s with locks := s.locks.lock (lockKey c.req) } (.validate txn)
  | raised (txn : Transaction) (e : Exception) (threw : chain.run txn = .error e) :
      Fires chain c s (.validate txn) s (.unlock txn (.error e))
  | rejected (txn : Transaction) (v : Status) (ran : chain.run txn = .ok v) (err : v.isErr = true) :
      Fires chain c s (.validate txn) s (.failing txn v.err)
  | validated (txn : Transaction) (v : Status) (ran : chain.run txn = .ok v)
      (ok : v.isErr = false) : Fires chain c s (.validate txn) s (.load txn)
  | unloaded (txn : Transaction) (err : Error)
      (missing : (s.accounts.lookup c.req.payerAccountId = none ∨
        s.accounts.lookup c.req.payeeAccountId = none) ∧ err.code = .accountNotFound ∨
        c.env.strategies c.req.method = none) :
      Fires chain c s (.load txn) s (.failing txn err)
  | loaded (txn : Transaction) (strategy : PaymentStrategy)
      (payer : (s.accounts.lookup c.req.payerAccountId).isSome)
      (payee : (s.accounts.lookup c.req.payeeAccountId).isSome)
      (supported : c.env.strategies c.req.method = some strategy) :
      Fires chain c s (.load txn) s (.authorize txn strategy)
  | declined (txn : Transaction) (strategy : PaymentStrategy) (e : Error)
      (refused : strategy.authorize txn = .fail e) :
      Fires chain c s (.authorize txn strategy) s (.failing txn e)
  | authorized (txn : Transaction) (strategy : PaymentStrategy) (ref : GatewayRef)
      (approved : strategy.authorize txn = .ok ref) :
      Fires chain c s (.authorize txn strategy) s (.debit ⟨advance txn .authorized, strategy, ref⟩)
  | refused (f : Flight) (account : Account) (err : Error)
      (found : s.accounts.lookup c.req.payerAccountId = some account)
      (cannot : ¬ account.Debitable c.req.amount)
      (code : err.code = account.debitRefusal c.req.amount) :
      Fires chain c s (.debit f) s (.failing f.txn err)
  | debited (f : Flight) (account : Account)
      (found : s.accounts.lookup c.req.payerAccountId = some account)
      (can : account.Debitable c.req.amount) :
      Fires chain c s (.debit f)
        (s.setAccount c.req.payerAccountId (account.minus c.req.amount.minorUnits)) (.credit f)
  | debitedNowhere (f : Flight) (missing : s.accounts.lookup c.req.payerAccountId = none) :
      Fires chain c s (.debit f) s (.credit f)
  | credited (f : Flight) (account : Account)
      (found : s.accounts.lookup c.req.payeeAccountId = some account) :
      Fires chain c s (.credit f)
        (s.setAccount c.req.payeeAccountId (account.credited c.req.amount)) (.drawDebitId f)
  | creditedNowhere (f : Flight) (missing : s.accounts.lookup c.req.payeeAccountId = none) :
      Fires chain c s (.credit f) s (.drawDebitId f)
  | drewDebitId (f : Flight) :
      Fires chain c s (.drawDebitId f) { s with entryIds := s.entryIds.next.2 }
        (.drawDebitSeq f s.entryIds.next.1)
  | drewDebitSeq (f : Flight) (debitId : String) :
      Fires chain c s (.drawDebitSeq f debitId) { s with seq := s.seq + 1 }
        (.drawCreditId f debitId s.seq)
  | drewCreditId (f : Flight) (debitId : String) (debitSeq : Int64) :
      Fires chain c s (.drawCreditId f debitId debitSeq) { s with entryIds := s.entryIds.next.2 }
        (.drawCreditSeq f debitId s.entryIds.next.1 debitSeq)
  | drewCreditSeq (f : Flight) (debitId creditId : String) (debitSeq : Int64) :
      Fires chain c s (.drawCreditSeq f debitId creditId debitSeq) { s with seq := s.seq + 1 }
        (.post f debitId creditId debitSeq s.seq)
  | posted (f : Flight) (debitId creditId : String) (debitSeq creditSeq : Int64)
      (ok : (c.env.ledger.post s.journal
        (postingOf c.req f.txn.id debitId creditId debitSeq creditSeq)).1.isErr = false) :
      Fires chain c s (.post f debitId creditId debitSeq creditSeq)
        { s with journal :=
            s.journal ++ postingOf c.req f.txn.id debitId creditId debitSeq creditSeq } (.capture f)
  | unposted (f : Flight) (debitId creditId : String) (debitSeq creditSeq : Int64) (err : Error)
      (rejected : (c.env.ledger.post s.journal
        (postingOf c.req f.txn.id debitId creditId debitSeq creditSeq)).1.isErr = true) :
      Fires chain c s (.post f debitId creditId debitSeq creditSeq) s (.undoCredit f err)
  | uncredited (f : Flight) (err : Error) (account : Account)
      (found : s.accounts.lookup c.req.payerAccountId = some account) :
      Fires chain c s (.undoCredit f err)
        (s.setAccount c.req.payerAccountId (account.credited c.req.amount)) (.undoDebit f err)
  | uncreditedNowhere (f : Flight) (err : Error)
      (missing : s.accounts.lookup c.req.payerAccountId = none) :
      Fires chain c s (.undoCredit f err) s (.undoDebit f err)
  | undebited (f : Flight) (err : Error) (account : Account)
      (found : s.accounts.lookup c.req.payeeAccountId = some account) :
      Fires chain c s (.undoDebit f err)
        (s.setAccount c.req.payeeAccountId (account.debited c.req.amount)) (.failing f.txn err)
  | undebitedNowhere (f : Flight) (err : Error)
      (missing : s.accounts.lookup c.req.payeeAccountId = none) :
      Fires chain c s (.undoDebit f err) s (.failing f.txn err)
  | uncaptured (f : Flight) (err : Error)
      (failed : (f.strategy.capture f.txn f.ref).isErr = true) :
      Fires chain c s (.capture f) s (.failing f.txn err)
  | captured (f : Flight) (ok : (f.strategy.capture f.txn f.ref).isErr = false) :
      Fires chain c s (.capture f) s (.capturing f.txn)
  | saved (txn : Transaction) (type : String) (res : Result Transaction) :
      Fires chain c s (.save txn type res) { s with transactions := s.transactions.insert txn.id txn }
        (.publish txn type res)
  | published (txn : Transaction) (type : String) (res : Result Transaction) :
      Fires chain c s (.publish txn type res) { s with events := s.events ++ [eventOf txn type] }
        (.notify txn type res)
  | notified (txn : Transaction) (type : String) (res : Result Transaction) :
      Fires chain c s (.notify txn type res) s (.unlock txn (told c.env txn type res))
  | unlocked (txn : Transaction) (out : Outcome) :
      Fires chain c s (.unlock txn out) { s with locks := s.locks.unlock (lockKey c.req) }
        (.finished txn out)

/-- **Every step of a call is one of these transitions.** -/
theorem next_fires {chain : ValidationChain} {c : Call} {s s' : PaymentService} {pc pc' : Pc}
    (went : next chain c s pc = some (s', pc')) : Fires chain c s pc s' pc' := by
  cases pc with
  | start => cases went; exact .mint
  | claim txnId =>
    cases found : s.idempotency.lookup c.req.idempotencyKey with
    | none =>
      simp [next, InMemoryIdempotencyStore.putIfAbsent, found] at went
      obtain ⟨rfl, rfl⟩ := went
      exact .won txnId found
    | some prior =>
      simp [next, InMemoryIdempotencyStore.putIfAbsent, found] at went
      obtain ⟨rfl, rfl⟩ := went
      exact .lost txnId (by rw [found]; exact Option.some_ne_none _)
  | lookup =>
    cases found : s.idempotency.lookup c.req.idempotencyKey with
    | none =>
      simp [next, InMemoryIdempotencyStore.get, found] at went
      obtain ⟨rfl, rfl⟩ := went
      exact .unclaimed _ ⟨_, rfl⟩
    | some prior =>
      simp [next, InMemoryIdempotencyStore.get, found] at went
      obtain ⟨rfl, rfl⟩ := went
      exact .looked prior found
  | replay existingId =>
    cases found : s.transactions.lookup existingId with
    | none =>
      simp [next, InMemoryTransactionRepository.find, found] at went
      obtain ⟨rfl, rfl⟩ := went
      exact .unreplayed existingId _ ⟨_, rfl⟩
    | some prior =>
      simp [next, InMemoryTransactionRepository.find, found] at went
      obtain ⟨rfl, rfl⟩ := went
      exact .replayed existingId prior found
  | replied res => cases went
  | build txnId =>
    cases built : buildTxn c.env txnId c.req with
    | error e =>
      simp [next, built] at went
      obtain ⟨rfl, rfl⟩ := went
      exact .unbuilt txnId e built
    | ok txn =>
      simp [next, built] at went
      obtain ⟨rfl, rfl⟩ := went
      exact .built txnId txn built
  | unbuilt txnId e => cases went
  | mutexFor txn => cases went; exact .mutexFor txn
  | lock txn =>
    by_cases held : s.locks.Held (lockKey c.req)
    · simp [next, held] at went
    · simp [next, held] at went
      obtain ⟨rfl, rfl⟩ := went
      exact .locked txn held
  | validate txn =>
    cases ran : chain.run txn with
    | error e =>
      simp [next, ran] at went
      obtain ⟨rfl, rfl⟩ := went
      exact .raised txn e ran
    | ok v =>
      cases err : v.isErr with
      | true =>
        simp [next, ran, err] at went
        obtain ⟨rfl, rfl⟩ := went
        exact .rejected txn v ran err
      | false =>
        simp [next, ran, err] at went
        obtain ⟨rfl, rfl⟩ := went
        exact .validated txn v ran err
  | load txn =>
    cases payer : s.accounts.lookup c.req.payerAccountId with
    | none =>
      simp [next, payer] at went
      obtain ⟨rfl, rfl⟩ := went
      exact .unloaded txn _ (.inl ⟨.inl payer, rfl⟩)
    | some a =>
      cases payee : s.accounts.lookup c.req.payeeAccountId with
      | none =>
        simp [next, payer, payee] at went
        obtain ⟨rfl, rfl⟩ := went
        exact .unloaded txn _ (.inl ⟨.inr payee, rfl⟩)
      | some b =>
        cases supported : c.env.strategies c.req.method with
        | none =>
          simp [next, payer, payee, supported] at went
          obtain ⟨rfl, rfl⟩ := went
          exact .unloaded txn _ (.inr supported)
        | some strategy =>
          simp [next, payer, payee, supported] at went
          obtain ⟨rfl, rfl⟩ := went
          exact .loaded txn strategy (by rw [payer]; rfl) (by rw [payee]; rfl) supported
  | authorize txn strategy =>
    cases asked : strategy.authorize txn with
    | fail e =>
      simp [next, asked] at went
      obtain ⟨rfl, rfl⟩ := went
      exact .declined txn strategy e asked
    | ok ref =>
      simp [next, asked] at went
      obtain ⟨rfl, rfl⟩ := went
      exact .authorized txn strategy ref asked
  | debit f =>
    cases found : s.accounts.lookup c.req.payerAccountId with
    | none =>
      simp [next, PaymentService.onAccount_none found] at went
      obtain ⟨rfl, rfl⟩ := went
      exact .debitedNowhere f found
    | some account =>
      by_cases can : account.Debitable c.req.amount
      · simp [next, PaymentService.onAccount_debit_ok found can] at went
        obtain ⟨rfl, rfl⟩ := went
        exact .debited f account found can
      · obtain ⟨msg, refused⟩ := PaymentService.onAccount_debit_refused found can
        simp [next, refused, Account.isErr_debitRefusal] at went
        obtain ⟨rfl, rfl⟩ := went
        exact .refused f account _ found can rfl
  | credit f =>
    cases found : s.accounts.lookup c.req.payeeAccountId with
    | none =>
      simp [next, PaymentService.onAccount_none found] at went
      obtain ⟨rfl, rfl⟩ := went
      exact .creditedNowhere f found
    | some account =>
      obtain ⟨status, ran⟩ := PaymentService.onAccount_credit found c.req.amount
      simp [next, ran] at went
      obtain ⟨rfl, rfl⟩ := went
      exact .credited f account found
  | drawDebitId f => cases went; exact .drewDebitId f
  | drawDebitSeq f debitId => cases went; exact .drewDebitSeq f debitId
  | drawCreditId f debitId debitSeq => cases went; exact .drewCreditId f debitId debitSeq
  | drawCreditSeq f debitId creditId debitSeq =>
    cases went; exact .drewCreditSeq f debitId creditId debitSeq
  | post f debitId creditId debitSeq creditSeq =>
    have appended := c.env.ledger.post_ok s.journal
      (postingOf c.req f.txn.id debitId creditId debitSeq creditSeq)
    have kept := c.env.ledger.post_err s.journal
      (postingOf c.req f.txn.id debitId creditId debitSeq creditSeq)
    cases err : (c.env.ledger.post s.journal
        (postingOf c.req f.txn.id debitId creditId debitSeq creditSeq)).1.isErr with
    | false =>
      simp [next, err, appended err] at went
      obtain ⟨rfl, rfl⟩ := went
      exact .posted f debitId creditId debitSeq creditSeq err
    | true =>
      simp [next, err, kept err] at went
      obtain ⟨rfl, rfl⟩ := went
      exact .unposted f debitId creditId debitSeq creditSeq _ err
  | undoCredit f err =>
    cases found : s.accounts.lookup c.req.payerAccountId with
    | none =>
      simp [next, PaymentService.onAccount_none found] at went
      obtain ⟨rfl, rfl⟩ := went
      exact .uncreditedNowhere f err found
    | some account =>
      obtain ⟨status, ran⟩ := PaymentService.onAccount_credit found c.req.amount
      simp [next, ran] at went
      obtain ⟨rfl, rfl⟩ := went
      exact .uncredited f err account found
  | undoDebit f err =>
    cases found : s.accounts.lookup c.req.payeeAccountId with
    | none =>
      simp [next, PaymentService.onAccount_none found] at went
      obtain ⟨rfl, rfl⟩ := went
      exact .undebitedNowhere f err found
    | some account =>
      obtain ⟨status, ran⟩ := PaymentService.onAccount_debit found c.req.amount
      simp [next, ran] at went
      obtain ⟨rfl, rfl⟩ := went
      exact .undebited f err account found
  | capture f =>
    cases err : (f.strategy.capture f.txn f.ref).isErr with
    | true =>
      simp [next, err] at went
      obtain ⟨rfl, rfl⟩ := went
      exact .uncaptured f _ err
    | false =>
      simp [next, err] at went
      obtain ⟨rfl, rfl⟩ := went
      exact .captured f err
  | save txn type res => cases went; exact .saved txn type res
  | publish txn type res => cases went; exact .published txn type res
  | notify txn type res => cases went; exact .notified txn type res
  | unlock txn out => cases went; exact .unlocked txn out
  | finished txn out => cases went

/-- A step of the system is a transition of one thread, which leaves the others
where they are. -/
theorem step_fires {chain : ValidationChain} {sys sys' : System} {i : Nat}
    (stepped : System.step chain sys i = some sys') :
    ∃ c pc pc', sys.threads[i]? = some ⟨c, pc⟩ ∧
      Fires chain c sys.service pc sys'.service pc' ∧
      sys'.threads = sys.threads.set i ⟨c, pc'⟩ := by
  unfold System.step at stepped
  split at stepped
  · cases stepped
  · rename_i t at_
    obtain ⟨⟨s', pc'⟩, went, rfl⟩ := Option.map_eq_some_iff.1 stepped
    exact ⟨t.call, t.pc, pc', at_, next_fires went, rfl⟩

/-! ## Which steps touch which store -/

section Touches

variable {chain : ValidationChain} {c : Call} {s s' : PaymentService} {pc pc' : Pc}

theorem Fires.idempotency (fired : Fires chain c s pc s' pc') :
    s'.idempotency = s.idempotency ∨
      ∃ id, pc = .claim id ∧ pc' = .build id ∧ s.idempotency.lookup c.req.idempotencyKey = none ∧
        s'.idempotency = s.idempotency.insert c.req.idempotencyKey id := by
  cases fired with
  | won id fresh => exact .inr ⟨id, rfl, rfl, fresh, rfl⟩
  | _ => exact .inl rfl

theorem Fires.transactions (fired : Fires chain c s pc s' pc') :
    s'.transactions = s.transactions ∨
      ∃ txn type res, pc = .save txn type res ∧ pc' = .publish txn type res ∧
        s'.transactions = s.transactions.insert txn.id txn := by
  cases fired with
  | saved txn type res => exact .inr ⟨txn, type, res, rfl, rfl, rfl⟩
  | _ => exact .inl rfl

theorem Fires.journal (fired : Fires chain c s pc s' pc') :
    s'.journal = s.journal ∨
      ∃ f debitId creditId debitSeq creditSeq, pc = .post f debitId creditId debitSeq creditSeq ∧
        pc' = .capture f ∧
        s'.journal = s.journal ++ postingOf c.req f.txn.id debitId creditId debitSeq creditSeq := by
  cases fired with
  | posted f debitId creditId debitSeq creditSeq ok =>
    exact .inr ⟨f, debitId, creditId, debitSeq, creditSeq, rfl, rfl, rfl⟩
  | _ => exact .inl rfl

theorem Fires.events (fired : Fires chain c s pc s' pc') :
    s'.events = s.events ∨
      ∃ txn type res, pc = .publish txn type res ∧ pc' = .notify txn type res ∧
        s'.events = s.events ++ [eventOf txn type] := by
  cases fired with
  | published txn type res => exact .inr ⟨txn, type, res, rfl, rfl, rfl⟩
  | _ => exact .inl rfl

/-- No step changes the currency of an account, or which accounts there are. -/
theorem Fires.ccyAt (fired : Fires chain c s pc s' pc') (id : String) : s'.ccyAt id = s.ccyAt id := by
  cases fired with
  | debited f account found can =>
    exact PaymentService.ccyAt_setAccount found (account.minus_currency _) id
  | credited f account found =>
    exact PaymentService.ccyAt_setAccount found (account.credited_currency _) id
  | uncredited f err account found =>
    exact PaymentService.ccyAt_setAccount found (account.credited_currency _) id
  | undebited f err account found =>
    exact PaymentService.ccyAt_setAccount found (account.debited_currency _) id
  | _ => rfl

end Touches

end PaymentSystem.Service
