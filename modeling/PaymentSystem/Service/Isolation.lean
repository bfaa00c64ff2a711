/-
# PaymentSystem.Service.Isolation -- payments that share nothing do not notice each other

Calls that have neither an idempotency key nor an account in common still meet: they draw
from the same counters, append to the same journal and event log, and go through the same
stores.  What one of them gets to see of the others is the numbers it draws, and nothing
else, whatever the others ask for and whatever answers their strategies, ledgers and
subscribers.  The subscribers of a call answer by the type and payload of its event.

* `Pc.relabel`: a call at the same point, with other ids and sequence numbers drawn.
* `next_relabel`: a step of a call, taken by the same call with other labels, over a service
  where it sees the same.
* `others_unseen`: every run, with the calls of the others left out, is a run in which each
  call that is left in fares the same but for its labels.
-/
import PaymentSystem.Service.Files
import PaymentSystem.Service.Finishing
import PaymentSystem.Service.Linearizability
import PaymentSystem.Service.Progress
import PaymentSystem.Service.Sequence
import PaymentSystem.Service.Solvency

namespace PaymentSystem.Service

open PaymentSystem.Common
open PaymentSystem.Domain
open PaymentSystem.Patterns
open PaymentSystem.Adapters
open PaymentSystem.Infra
open PaymentSystem.Theory.Keyed
open PaymentSystem.Theory.Runs
open PaymentSystem.Theory.Threads

set_option autoImplicit false

variable {chain : ValidationChain}

/-! ## Labels -/

/-- What a call draws from the counters, and the reference its gateway gives it. -/
structure Labels where
  txnId : String
  debitId : String
  creditId : String
  debitSeq : Int64
  creditSeq : Int64
  ref : GatewayRef

def renamed (id : String) (txn : Transaction) : Transaction := { txn with id }

def Result.renamed (id : String) : Result Transaction → Result Transaction
  | .ok txn => .ok (Service.renamed id txn)
  | .fail e => .fail e

def Outcome.renamed (id : String) (out : Outcome) : Outcome := out.map (Result.renamed id)

/-- The event of a transaction under another id. -/
def renamedEvent (id : String) (e : DomainEvent) : DomainEvent := { e with aggregateId := id }

/-- An entry without its numbers. -/
def unnumbered (e : LedgerEntry) : LedgerEntry := { e with entryId := "", txnId := "", seq := 0 }

def Flight.relabel (l : Labels) (f : Flight) : Flight := ⟨renamed l.txnId f.txn, f.strategy, l.ref⟩

/-- The same program point with other labels. -/
def Pc.relabel (l : Labels) : Pc → Pc
  | .start => .start
  | .claim _ => .claim l.txnId
  | .lookup => .lookup
  | .replay _ => .replay l.txnId
  | .replied res => .replied (Result.renamed l.txnId res)
  | .build _ => .build l.txnId
  | .unbuilt _ e => .unbuilt l.txnId e
  | .mutexFor txn => .mutexFor (renamed l.txnId txn)
  | .lock txn => .lock (renamed l.txnId txn)
  | .validate txn => .validate (renamed l.txnId txn)
  | .load txn => .load (renamed l.txnId txn)
  | .authorize txn strategy => .authorize (renamed l.txnId txn) strategy
  | .debit f => .debit (f.relabel l)
  | .credit f => .credit (f.relabel l)
  | .drawDebitId f => .drawDebitId (f.relabel l)
  | .drawDebitSeq f _ => .drawDebitSeq (f.relabel l) l.debitId
  | .drawCreditId f _ _ => .drawCreditId (f.relabel l) l.debitId l.debitSeq
  | .drawCreditSeq f _ _ _ => .drawCreditSeq (f.relabel l) l.debitId l.creditId l.debitSeq
  | .post f _ _ _ _ => .post (f.relabel l) l.debitId l.creditId l.debitSeq l.creditSeq
  | .undoCredit f err => .undoCredit (f.relabel l) err
  | .undoDebit f err => .undoDebit (f.relabel l) err
  | .capture f => .capture (f.relabel l)
  | .save txn type res => .save (renamed l.txnId txn) type (Result.renamed l.txnId res)
  | .publish txn type res => .publish (renamed l.txnId txn) type (Result.renamed l.txnId res)
  | .notify txn type res => .notify (renamed l.txnId txn) type (Result.renamed l.txnId res)
  | .unlock txn out => .unlock (renamed l.txnId txn) (Outcome.renamed l.txnId out)
  | .finished txn out => .finished (renamed l.txnId txn) (Outcome.renamed l.txnId out)

namespace Pc

variable (l : Labels) (pc : Pc)

theorem relabel_won : (pc.relabel l).won = pc.won.map fun _ => l.txnId := by
  cases pc <;> rfl

theorem relabel_inside : (pc.relabel l).Inside ↔ pc.Inside := by
  cases pc <;> rfl

theorem relabel_outcome : (pc.relabel l).outcome = pc.outcome.map (Outcome.renamed l.txnId) := by
  cases pc <;> rfl

theorem relabel_saved : (pc.relabel l).saved = pc.saved.map (renamed l.txnId) := by
  cases pc with
  | unlock txn out =>
    simp only [relabel, saved, renamed]
    split <;> rfl
  | finished txn out =>
    simp only [relabel, saved, renamed]
    split <;> rfl
  | _ => rfl

theorem relabel_published :
    (pc.relabel l).published = pc.published.map (renamedEvent l.txnId) := by
  cases pc with
  | unlock txn out =>
    simp only [relabel, published, renamed]
    split <;> rfl
  | finished txn out =>
    simp only [relabel, published, renamed]
    split <;> rfl
  | _ => rfl

end Pc

/-! ## One step with other labels -/

theorem advance_renamed (id : String) (txn : Transaction) (dst : TxnStatus) :
    advance (renamed id txn) dst = renamed id (advance txn dst) := by
  have same : (renamed id txn).status = txn.status := rfl
  rw [advance, advance, same]
  split <;> rfl

theorem failing_relabel (l : Labels) (txn : Transaction) (err : Error) :
    Pc.failing (renamed l.txnId txn) err = (Pc.failing txn err).relabel l := by
  rw [Pc.failing, advance_renamed]
  rfl

theorem capturing_relabel (l : Labels) (txn : Transaction) :
    Pc.capturing (renamed l.txnId txn) = (Pc.capturing txn).relabel l := by
  rw [Pc.capturing, advance_renamed]
  rfl

theorem told_renamed (env : Env) (id : String) (txn : Transaction) (type : String)
    (res : Result Transaction) :
    told env (renamed id txn) type (Result.renamed id res) =
      Outcome.renamed id (told env txn type res) := by
  have payload : payloadOf (renamed id txn) = payloadOf txn := rfl
  rw [told, told, payload]
  cases env.subscribers type (payloadOf txn) <;> rfl

theorem Opened.run_renamed {c : Call} {txn : Transaction} (opened : Opened c txn)
    (oblivious : Oblivious chain) (id : String) : chain.run (renamed id txn) = chain.run txn := by
  rw [opened.is]
  exact oblivious c id txn.id

/-- A service in which a call sees what it sees in another, its accounts among `A`. -/
structure SeesAlike (A : String → Prop) (c : Call) (s t : PaymentService) : Prop where
  payer : A c.req.payerAccountId
  payee : A c.req.payeeAccountId
  key : t.idempotency.lookup c.req.idempotencyKey = none ↔
    s.idempotency.lookup c.req.idempotencyKey = none
  held : t.locks.Held (lockKey c.req) ↔ s.locks.Held (lockKey c.req)
  accounts : ∀ a, A a → t.accounts.lookup a = s.accounts.lookup a

/-- Two services in which the same has been done, to the accounts `A` and to the journal. -/
structure DoneAlike (A : String → Prop) (s t s₁ t₁ : PaymentService) : Prop where
  accounts : ∀ a, A a → t₁.accounts.lookup a = s₁.accounts.lookup a
  entries : ∃ new new', s₁.journal = s.journal ++ new ∧ t₁.journal = t.journal ++ new' ∧
    new'.map unnumbered = new.map unnumbered

section Step

variable {A : String → Prop} {c : Call} {s t s₁ : PaymentService} {pc₁ : Pc} {l : Labels}

/-- A step that leaves accounts and journal alone. -/
theorem SeesAlike.still (sees : SeesAlike A c s t) {t₁ : PaymentService}
    (accounts : s₁.accounts = s.accounts) (journal : s₁.journal = s.journal)
    (accounts' : t₁.accounts = t.accounts) (journal' : t₁.journal = t.journal) :
    DoneAlike A s t s₁ t₁ := by
  refine ⟨fun a among => ?_, [], [], ?_, ?_, rfl⟩
  · rw [accounts, accounts', sees.accounts a among]
  · rw [journal, List.append_nil]
  · rw [journal', List.append_nil]

/-- A method called on an account that is alike on both sides. -/
theorem SeesAlike.onAccount (sees : SeesAlike A c s t) {id : String} (among : A id)
    (method : Account → Except Exception (Status × Account)) :
    ∃ answer s₁ t₁, s.onAccount id method = (answer, s₁) ∧ t.onAccount id method = (answer, t₁) ∧
      DoneAlike A s t s₁ t₁ := by
  have same := sees.accounts id among
  cases found : s.accounts.lookup id with
  | none =>
    exact ⟨_, s, t, PaymentService.onAccount_none found method,
      PaymentService.onAccount_none (same.trans found) method, sees.still rfl rfl rfl rfl⟩
  | some account =>
    simp only [PaymentService.onAccount, same, found]
    cases method account with
    | error e => exact ⟨_, s, t, rfl, rfl, sees.still rfl rfl rfl rfl⟩
    | ok r =>
      refine ⟨_, _, _, rfl, rfl, fun a other => ?_, [], [], (List.append_nil _).symm,
        (List.append_nil _).symm, rfl⟩
      show (t.accounts.replace id r.2).lookup a = (s.accounts.replace id r.2).lookup a
      rw [lookup_replace found, lookup_replace (same.trans found),
        sees.accounts a other]

theorem putIfAbsent_absent {store : InMemoryIdempotencyStore} {key : String}
    (absent : store.lookup key = none) (id : String) :
    store.putIfAbsent key id = (true, store.insert key id) := by
  simp only [InMemoryIdempotencyStore.putIfAbsent, absent]

theorem putIfAbsent_taken {store : InMemoryIdempotencyStore} {key id' : String}
    (taken : store.lookup key = some id') (id : String) :
    store.putIfAbsent key id = (false, store) := by
  simp only [InMemoryIdempotencyStore.putIfAbsent, taken]

/-- **A step of a call is a step of the same call with other labels**, over a service where
it sees the same, and does the same there. -/
theorem next_relabel (oblivious : Oblivious chain) (shipped : c.env.Shipped) {pc : Pc}
    (sound : Sound chain c pc) (sound' : Sound chain c (pc.relabel l)) (sees : SeesAlike A c s t)
    (prior : ∀ id, pc = .replay id →
      t.transactions.lookup l.txnId = (s.transactions.lookup id).map (renamed l.txnId))
    (went : next chain c s pc = some (s₁, pc₁)) :
    ∃ t₁ l₁, next chain c t (pc.relabel l) = some (t₁, pc₁.relabel l₁) ∧
      DoneAlike A s t s₁ t₁ := by
  have quiet : DoneAlike A s t s t := sees.still rfl rfl rfl rfl
  -- a key taken in one service is taken in the other
  have taken {id : String} (found : s.idempotency.lookup c.req.idempotencyKey = some id) :
      ∃ id', t.idempotency.lookup c.req.idempotencyKey = some id' :=
    Option.ne_none_iff_exists'.1 fun none_ => by
      rw [sees.key.1 none_] at found
      cases found
  cases pc with
  | start =>
    cases went
    exact ⟨_, { l with txnId := t.txnIds.next.1 }, rfl, sees.still rfl rfl rfl rfl⟩
  | claim id =>
    show ∃ t₁ l₁, next chain c t (.claim l.txnId) = _ ∧ _
    cases found : s.idempotency.lookup c.req.idempotencyKey with
    | none =>
      simp only [next, putIfAbsent_absent found, putIfAbsent_absent (sees.key.2 found)] at went ⊢
      cases went
      exact ⟨_, l, rfl, sees.still rfl rfl rfl rfl⟩
    | some id' =>
      obtain ⟨id'', found'⟩ := taken found
      simp only [next, putIfAbsent_taken found, putIfAbsent_taken found'] at went ⊢
      cases went
      exact ⟨t, l, rfl, quiet⟩
  | lookup =>
    show ∃ t₁ l₁, next chain c t .lookup = _ ∧ _
    simp only [next, InMemoryIdempotencyStore.get] at went ⊢
    cases found : s.idempotency.lookup c.req.idempotencyKey with
    | none =>
      rw [found] at went
      cases went
      rw [sees.key.2 found]
      exact ⟨t, l, rfl, quiet⟩
    | some id =>
      rw [found] at went
      cases went
      obtain ⟨id', found'⟩ := taken found
      rw [found']
      exact ⟨t, { l with txnId := id' }, rfl, quiet⟩
  | replay id =>
    show ∃ t₁ l₁, next chain c t (.replay l.txnId) = _ ∧ _
    simp only [next, InMemoryTransactionRepository.find] at went ⊢
    rw [prior id rfl]
    cases found : s.transactions.lookup id with
    | none =>
      rw [found] at went
      cases went
      exact ⟨t, l, rfl, quiet⟩
    | some txn =>
      rw [found] at went
      cases went
      exact ⟨t, l, rfl, quiet⟩
  | replied res => cases went
  | build id =>
    show ∃ t₁ l₁, next chain c t (.build l.txnId) = _ ∧ _
    simp only [next] at went ⊢
    by_cases named : c.req.Named
    · rw [buildTxn_named sound named] at went
      cases went
      rw [buildTxn_named sound' named]
      exact ⟨t, l, rfl, quiet⟩
    · obtain ⟨e, throws⟩ := buildTxn_throws named
      rw [throws c.env id sound] at went
      cases went
      rw [throws c.env l.txnId sound']
      exact ⟨t, l, rfl, quiet⟩
  | unbuilt id e => cases went
  | mutexFor txn =>
    cases went
    exact ⟨_, l, rfl, sees.still rfl rfl rfl rfl⟩
  | lock txn =>
    show ∃ t₁ l₁, next chain c t (.lock (renamed l.txnId txn)) = _ ∧ _
    simp only [next] at went ⊢
    by_cases held : s.locks.Held (lockKey c.req)
    · rw [if_pos held] at went
      cases went
    · rw [if_neg held] at went
      cases went
      rw [if_neg (mt sees.held.1 held)]
      exact ⟨_, l, rfl, sees.still rfl rfl rfl rfl⟩
  | validate txn =>
    show ∃ t₁ l₁, next chain c t (.validate (renamed l.txnId txn)) = _ ∧ _
    simp only [next, Opened.run_renamed sound oblivious, failing_relabel] at went ⊢
    cases ran : chain.run txn with
    | error e =>
      rw [ran] at went
      cases went
      exact ⟨t, l, rfl, quiet⟩
    | ok v =>
      rw [ran] at went
      cases went
      refine ⟨t, l, ?_, quiet⟩
      simp only
      split <;> rfl
  | load txn =>
    show ∃ t₁ l₁, next chain c t (.load (renamed l.txnId txn)) = _ ∧ _
    obtain ⟨provider, tag, supported⟩ := shipped.approves c.req.method
    simp only [next, supported, sees.accounts _ sees.payer, sees.accounts _ sees.payee,
      failing_relabel] at went ⊢
    split at went
    · cases went
      exact ⟨t, l, by rw [if_pos ‹_›], quiet⟩
    · rw [if_neg ‹_›]
      split at went
      · cases went
        exact ⟨t, l, by rw [if_pos ‹_›], quiet⟩
      · cases went
        exact ⟨t, l, by rw [if_neg ‹_›]; rfl, quiet⟩
  | authorize txn strategy =>
    obtain ⟨provider, tag, supported⟩ := shipped.approves c.req.method
    obtain ⟨-, -, mine⟩ := sound
    cases supported.symm.trans mine
    cases went
    refine ⟨t, { l with ref := ⟨provider, tag ++ l.txnId⟩ }, ?_, quiet⟩
    show some (t, Pc.debit ⟨advance (renamed l.txnId txn) .authorized, _, _⟩) = _
    rw [advance_renamed]
    rfl
  | debit f =>
    show ∃ t₁ l₁, next chain c t (.debit (f.relabel l)) = _ ∧ _
    obtain ⟨answer, s', t', ran, ran', alike⟩ := sees.onAccount sees.payer (·.debit c.req.amount)
    simp only [next, ran, ran'] at went ⊢
    cases answer with
    | error e =>
      cases went
      exact ⟨t', l, rfl, alike⟩
    | ok d =>
      cases went
      refine ⟨t', l, ?_, alike⟩
      show some (t', if d.isErr then Pc.failing (renamed l.txnId f.txn) d.err else _) = _
      rw [failing_relabel]
      split <;> rfl
  | credit f =>
    show ∃ t₁ l₁, next chain c t (.credit (f.relabel l)) = _ ∧ _
    obtain ⟨answer, s', t', ran, ran', alike⟩ := sees.onAccount sees.payee (·.credit c.req.amount)
    simp only [next, ran, ran'] at went ⊢
    cases answer <;> cases went <;> exact ⟨t', l, rfl, alike⟩
  | drawDebitId f =>
    cases went
    exact ⟨_, { l with debitId := t.entryIds.next.1 }, rfl, sees.still rfl rfl rfl rfl⟩
  | drawDebitSeq f debitId =>
    cases went
    exact ⟨_, { l with debitSeq := t.seq }, rfl, sees.still rfl rfl rfl rfl⟩
  | drawCreditId f debitId debitSeq =>
    cases went
    exact ⟨_, { l with creditId := t.entryIds.next.1 }, rfl, sees.still rfl rfl rfl rfl⟩
  | drawCreditSeq f debitId creditId debitSeq =>
    cases went
    exact ⟨_, { l with creditSeq := t.seq }, rfl, sees.still rfl rfl rfl rfl⟩
  | post f debitId creditId debitSeq creditSeq =>
    show ∃ t₁ l₁, next chain c t
      (.post (f.relabel l) l.debitId l.creditId l.debitSeq l.creditSeq) = _ ∧ _
    have post (journal : Journal) (txnId debitId creditId : String) (debitSeq creditSeq : Int64) :=
      inMemory_accepts journal c.req txnId debitId creditId debitSeq creditSeq
    simp only [next, shipped.ledger, post, inMemoryLedgerRepository.post_ok _ _ (post ..),
      Bool.false_eq_true, if_false] at went ⊢
    cases went
    exact ⟨_, l, rfl, sees.accounts, _, _, rfl, rfl, rfl⟩
  | undoCredit f err =>
    show ∃ t₁ l₁, next chain c t (.undoCredit (f.relabel l) err) = _ ∧ _
    obtain ⟨answer, s', t', ran, ran', alike⟩ := sees.onAccount sees.payer (·.credit c.req.amount)
    simp only [next, ran, ran'] at went ⊢
    cases answer <;> cases went <;> exact ⟨t', l, rfl, alike⟩
  | undoDebit f err =>
    show ∃ t₁ l₁, next chain c t (.undoDebit (f.relabel l) err) = _ ∧ _
    obtain ⟨answer, s', t', ran, ran', alike⟩ := sees.onAccount sees.payee (·.debit c.req.amount)
    simp only [next, ran, ran'] at went ⊢
    cases answer with
    | error e =>
      cases went
      exact ⟨t', l, rfl, alike⟩
    | ok d =>
      cases went
      refine ⟨t', l, ?_, alike⟩
      show some (t', Pc.failing (renamed l.txnId f.txn) err) = _
      rw [failing_relabel]
  | capture f =>
    obtain ⟨provider, tag, supported⟩ := shipped.approves c.req.method
    have flying : Flying chain c f := sound
    have mine : f.strategy = approving provider tag :=
      Option.some.inj (flying.supported.symm.trans supported)
    show ∃ t₁ l₁, next chain c t (.capture (f.relabel l)) = _ ∧ _
    simp only [next, Flight.relabel, mine, approving, Status.isErr_ok, Bool.false_eq_true, if_false,
      capturing_relabel] at went ⊢
    cases went
    exact ⟨t, l, rfl, quiet⟩
  | save txn type res =>
    cases went
    exact ⟨_, l, rfl, sees.still rfl rfl rfl rfl⟩
  | publish txn type res =>
    cases went
    exact ⟨_, l, rfl, sees.still rfl rfl rfl rfl⟩
  | notify txn type res =>
    cases went
    refine ⟨t, l, ?_, quiet⟩
    show some (t, Pc.unlock _ (told c.env (renamed l.txnId txn) type (Result.renamed l.txnId res))) = _
    rw [told_renamed]
    rfl
  | unlock txn out =>
    cases went
    exact ⟨_, l, rfl, sees.still rfl rfl rfl rfl⟩
  | finished txn out => cases went

end Step

/-! ## Calls with nothing in common -/

/-- The calls that `mine` picks have no key and no account in common with the others. -/
def Separate (mine : Nat → Bool) (calls : List Call) : Prop :=
  ∀ (i j : Nat) (c d : Call), calls[i]? = some c → calls[j]? = some d → mine i = true →
    mine j = false →
    c.req.idempotencyKey ≠ d.req.idempotencyKey ∧ ¬ c.req.Shares d.req

/-- An account that one of the calls that `mine` picks names. -/
def Ours (mine : Nat → Bool) (calls : List Call) (a : String) : Prop :=
  ∃ (i : Nat) (c : Call), calls[i]? = some c ∧ mine i = true ∧ c.req.Touches a

/-- The calls that `mine` picks are as far along in `own` as in `sys`, under other labels, and
have done the same to their accounts. -/
structure Mirrors (mine : Nat → Bool) (calls : List Call) (sys own : System) : Prop where
  threads : ∀ (i : Nat) (t : Thread), mine i = true → sys.threads[i]? = some t →
    ∃ l, own.threads[i]? = some ⟨t.call, t.pc.relabel l⟩
  accounts : ∀ a, Ours mine calls a →
    own.service.accounts.lookup a = sys.service.accounts.lookup a
  entries : ∀ a, Ours mine calls a →
    (InMemoryLedgerRepository.entriesFor own.service.journal a).map unnumbered =
      (InMemoryLedgerRepository.entriesFor sys.service.journal a).map unnumbered

/-- A call touches no account but its own. -/
theorem Fires.accounts_other {c : Call} {s s' : PaymentService} {pc pc' : Pc} {a : String}
    (fired : Fires chain c s pc s' pc') (other : ¬ c.req.Touches a) :
    s'.accounts.lookup a = s.accounts.lookup a := by
  have payer : a ≠ c.req.payerAccountId := fun is => other (.inl is)
  have payee : a ≠ c.req.payeeAccountId := fun is => other (.inr is)
  cases fired with
  | debited f account found can => exact (lookup_replace found _ a).trans (if_neg payer)
  | credited f account found => exact (lookup_replace found _ a).trans (if_neg payee)
  | uncredited f err account found => exact (lookup_replace found _ a).trans (if_neg payer)
  | undebited f err account found => exact (lookup_replace found _ a).trans (if_neg payee)
  | _ => rfl

/-- A call posts to no account but its own. -/
theorem Fires.entries_other {c : Call} {s s' : PaymentService} {pc pc' : Pc} {a : String}
    (fired : Fires chain c s pc s' pc') (other : ¬ c.req.Touches a) :
    InMemoryLedgerRepository.entriesFor s'.journal a =
      InMemoryLedgerRepository.entriesFor s.journal a := by
  have payer : c.req.payerAccountId ≠ a := fun is => other (.inl is.symm)
  have payee : c.req.payeeAccountId ≠ a := fun is => other (.inr is.symm)
  rcases fired.journal with same | ⟨f, debitId, creditId, debitSeq, creditSeq, -, -, grown⟩
  · rw [same]
  · simp [InMemoryLedgerRepository.entriesFor, grown, postingOf, payer, payee]

/-- What is filed under an account does not depend on the numbers. -/
theorem entriesFor_unnumbered (journal : List LedgerEntry) (a : String) :
    (InMemoryLedgerRepository.entriesFor journal a).map unnumbered =
      (journal.map unnumbered).filter fun e => e.accountId = a := by
  rw [InMemoryLedgerRepository.entriesFor, List.filter_map]
  rfl

section Runs

variable {mine : Nat → Bool} {accounts accounts' : InMemoryAccountRepository}
  {calls calls' : List Call} {order order' : List Nat} {sys sys' own : System}

/-- The same calls of ours, over the same accounts of ours. -/
structure SameWorld (mine : Nat → Bool) (accounts accounts' : InMemoryAccountRepository)
    (calls calls' : List Call) : Prop where
  places : ∀ i, mine i = true → calls'[i]? = calls[i]?
  accounts : ∀ a, Ours mine calls a → accounts'.lookup a = accounts.lookup a

theorem SameWorld.refl (mine : Nat → Bool) (accounts : InMemoryAccountRepository)
    (calls : List Call) : SameWorld mine accounts accounts calls calls :=
  ⟨fun _ _ => rfl, fun _ _ => rfl⟩

/-- A run, and the run in which it is mirrored without the others. -/
structure Abreast (chain : ValidationChain) (mine : Nat → Bool)
    (accounts accounts' : InMemoryAccountRepository) (calls calls' : List Call) (order : List Nat)
    (sys own : System) : Prop where
  short : calls.length < 2 ^ 64
  short' : calls'.length < 2 ^ 64
  separate : Separate mine calls
  world : SameWorld mine accounts accounts' calls calls'
  reached : Reaches chain (PaymentService.opening accounts) calls order sys
  reached' : Reaches chain (PaymentService.opening accounts') calls' (order.filter mine) own
  mirrors : Mirrors mine calls sys own

section Moment

variable (abreast : Abreast chain mine accounts accounts' calls calls' order sys own)
include abreast

/-- A call that goes on in `own` is one of ours. -/
theorem Abreast.begun {j : Nat} {t : Thread} (at_ : own.threads[j]? = some t)
    (begun : t.pc ≠ .start) :
    ∃ u l, sys.threads[j]? = some u ∧ t = ⟨u.call, u.pc.relabel l⟩ := by
  have ours : mine j = true := by
    by_contra others
    refine begun (abreast.reached'.unscheduled at_ fun member => others ?_)
    exact (List.mem_filter.1 member).2
  have place := abreast.reached'.place at_
  rw [abreast.world.places j ours] at place
  obtain ⟨u, there⟩ : ∃ u, sys.threads[j]? = some u := by
    have inside := (List.getElem?_eq_some_iff.1 place).1
    rw [← length_threads abreast.reached] at inside
    exact ⟨_, List.getElem?_eq_getElem inside⟩
  obtain ⟨l, also⟩ := abreast.mirrors.threads j u ours there
  exact ⟨u, l, there, Option.some.inj (at_.symm.trans also)⟩

/-- **A key of ours is claimed in `own` by the call that claimed it in `sys`.** -/
theorem Abreast.winner {i : Nat} {c : Call} (at_ : calls[i]? = some c) (ours : mine i = true)
    {id : String} (claimed : sys.service.idempotency.lookup c.req.idempotencyKey = some id) :
    ∃ (j : Nat) (u : Thread) (l : Labels), sys.threads[j]? = some u ∧
      u.pc.won = some id ∧ own.threads[j]? = some ⟨u.call, u.pc.relabel l⟩ ∧
      own.service.idempotency.lookup c.req.idempotencyKey = some l.txnId := by
  obtain ⟨u, member, key, won⟩ := abreast.reached.winner rfl claimed
  obtain ⟨j, there⟩ := List.mem_iff_getElem?.1 member
  have ours' : mine j = true := by
    by_contra others
    exact (abreast.separate i j c u.call at_ (abreast.reached.place there) ours
      (by simpa using others)).1 key.symm
  obtain ⟨l, also⟩ := abreast.mirrors.threads j u ours' there
  refine ⟨j, u, l, there, won, also, ?_⟩
  have cited := abreast.reached'.cited (filed_opening accounts') _ (List.mem_of_getElem? also)
  rw [← key]
  exact cited.key l.txnId (Pc.cites_of_won (by rw [Pc.relabel_won, won]; rfl))

/-- A key of ours is free in the one run where it is free in the other. -/
theorem Abreast.key {i : Nat} {c : Call} (at_ : calls[i]? = some c) (ours : mine i = true) :
    own.service.idempotency.lookup c.req.idempotencyKey = none ↔
      sys.service.idempotency.lookup c.req.idempotencyKey = none := by
  constructor
  · intro free
    by_contra claimed
    obtain ⟨id, claimed⟩ := Option.ne_none_iff_exists'.1 claimed
    obtain ⟨j, u, l, -, -, -, also⟩ := abreast.winner at_ ours claimed
    rw [free] at also
    cases also
  · intro free
    by_contra claimed
    obtain ⟨id, claimed⟩ := Option.ne_none_iff_exists'.1 claimed
    obtain ⟨t, member, key, won⟩ := abreast.reached'.winner rfl claimed
    obtain ⟨j, there⟩ := List.mem_iff_getElem?.1 member
    obtain ⟨u, l, before, rfl⟩ := abreast.begun there fun start => by
      rw [start] at won
      cases won
    rw [Pc.relabel_won] at won
    obtain ⟨id', won, -⟩ := Option.map_eq_some_iff.1 won
    have cited := abreast.reached.cited (filed_opening accounts) _ (List.mem_of_getElem? before)
    have also := cited.key id' (Pc.cites_of_won won)
    rw [show u.call.req.idempotencyKey = c.req.idempotencyKey from key, free] at also
    cases also

/-- A payer of ours is locked in the one run where it is in the other. -/
theorem Abreast.held {i : Nat} {c : Call} (at_ : calls[i]? = some c) (ours : mine i = true) :
    own.service.locks.Held (lockKey c.req) ↔ sys.service.locks.Held (lockKey c.req) := by
  rw [(abreast.reached.mutex fun key held => by cases held).held,
    (abreast.reached'.mutex fun key held => by cases held).held]
  constructor
  · rintro ⟨t, member, inside, key⟩
    obtain ⟨j, there⟩ := List.mem_iff_getElem?.1 member
    obtain ⟨u, l, before, rfl⟩ := abreast.begun there fun start => by
      rw [start] at inside
      exact inside
    exact ⟨u, List.mem_of_getElem? before, (Pc.relabel_inside l u.pc).1 inside, key⟩
  · rintro ⟨u, member, inside, key⟩
    obtain ⟨j, there⟩ := List.mem_iff_getElem?.1 member
    have ours' : mine j = true := by
      by_contra others
      exact (abreast.separate i j c u.call at_ (abreast.reached.place there) ours
        (by simpa using others)).2 (.inl (.inl (lockKey_inj key)))
    obtain ⟨l, also⟩ := abreast.mirrors.threads j u ours' there
    exact ⟨_, List.mem_of_getElem? also, (Pc.relabel_inside l u.pc).2 inside, key⟩

/-- What a call of ours is about to replay is the same transaction, but for its id. -/
theorem Abreast.prior {i : Nat} {c : Call} {id : String} {l : Labels}
    (at_ : sys.threads[i]? = some ⟨c, .replay id⟩)
    (also : own.threads[i]? = some ⟨c, .replay l.txnId⟩) (ours : mine i = true) :
    own.service.transactions.lookup l.txnId =
      (sys.service.transactions.lookup id).map (renamed l.txnId) := by
  have cited := abreast.reached.cited (filed_opening accounts) _ (List.mem_of_getElem? at_)
  have cited' := abreast.reached'.cited (filed_opening accounts') _ (List.mem_of_getElem? also)
  obtain ⟨j, u, l', there, won, there', key⟩ :=
    abreast.winner (abreast.reached.place at_) ours (cited.key id rfl)
  have same : l.txnId = l'.txnId := Option.some.inj ((cited'.key _ rfl).symm.trans key)
  have stored : sys.service.transactions.lookup id = u.pc.saved :=
    ((abreast.reached.settled abreast.short).own j u there id won).1
  have stored' : own.service.transactions.lookup l'.txnId = (u.pc.relabel l').saved :=
    ((abreast.reached'.settled abreast.short').own j _ there' l'.txnId
      (by rw [Pc.relabel_won, won]; rfl)).1
  rw [same, stored, stored', Pc.relabel_saved]

/-- A step of ours is a step there. -/
theorem Abreast.ours (oblivious : Oblivious chain)
    (shipped : ∀ (i : Nat) (c : Call), calls[i]? = some c → mine i = true → c.env.Shipped)
    {i : Nat} (ours : mine i = true) (stepped : System.step chain sys i = some sys') :
    ∃ own', System.step chain own i = some own' ∧ Mirrors mine calls sys' own' := by
  have mirrors := abreast.mirrors
  unfold System.step at stepped
  split at stepped
  · cases stepped
  rename_i t at_
  obtain ⟨⟨s₁, pc₁⟩, went, rfl⟩ := Option.map_eq_some_iff.1 stepped
  obtain ⟨c, pc⟩ := t
  have place := abreast.reached.place at_
  obtain ⟨l, also⟩ := mirrors.threads i _ ours at_
  have sees : SeesAlike (Ours mine calls) c sys.service own.service :=
    ⟨⟨i, c, place, ours, .inl rfl⟩, ⟨i, c, place, ours, .inr rfl⟩, abreast.key place ours,
      abreast.held place ours, mirrors.accounts⟩
  have prior : ∀ id, pc = .replay id → own.service.transactions.lookup l.txnId =
      (sys.service.transactions.lookup id).map (renamed l.txnId) := by
    rintro id rfl
    exact abreast.prior at_ also ours
  obtain ⟨t₁, l₁, went', done⟩ := next_relabel oblivious (shipped i c place ours)
    (abreast.reached.sound _ (List.mem_of_getElem? at_))
    (abreast.reached'.sound _ (List.mem_of_getElem? also)) sees prior went
  refine ⟨⟨t₁, own.threads.set i ⟨c, pc₁.relabel l₁⟩⟩, ?_, ?_, done.accounts, fun a among => ?_⟩
  · simp only [System.step, also, went', Option.map_some]
  · intro j u ours' there
    rcases at_set there with ⟨rfl, rfl⟩ | ⟨different, there⟩
    · exact ⟨l₁, List.getElem?_set_self (List.getElem?_eq_some_iff.1 also).1⟩
    · rw [List.getElem?_set_ne (Ne.symm different)]
      exact mirrors.threads j u ours' there
  · obtain ⟨new, new', grown, grown', same⟩ := done.entries
    have before := mirrors.entries a among
    rw [entriesFor_unnumbered, entriesFor_unnumbered] at before ⊢
    show (t₁.journal.map unnumbered).filter _ = (s₁.journal.map unnumbered).filter _
    rw [grown, grown', List.map_append, List.map_append, List.filter_append, List.filter_append,
      before, same]

/-- A step of the others is not seen. -/
theorem Abreast.others {i : Nat} (others : mine i = false)
    (stepped : System.step chain sys i = some sys') : Mirrors mine calls sys' own := by
  have mirrors := abreast.mirrors
  obtain ⟨c, pc, pc', at_, fired, threads⟩ := step_fires stepped
  have apart {a : String} (among : Ours mine calls a) : ¬ c.req.Touches a := by
    obtain ⟨j, d, place, ours, touches⟩ := among
    exact fun also => (abreast.separate j i d c place (abreast.reached.place at_) ours others).2
      (PaymentRequest.shares_of_touches touches also)
  refine ⟨fun j u ours there => ?_, fun a among => ?_, fun a among => ?_⟩
  · rw [threads] at there
    rcases at_set there with ⟨rfl, rfl⟩ | ⟨-, there⟩
    · rw [others] at ours
      cases ours
    · exact mirrors.threads j u ours there
  · rw [fired.accounts_other (apart among)]
    exact mirrors.accounts a among
  · rw [fired.entries_other (apart among)]
    exact mirrors.entries a among

end Moment

/-- **Every run is mirrored without the others.** -/
theorem Reaches.alone (reached : Reaches chain (PaymentService.opening accounts) calls order sys)
    (short : calls.length < 2 ^ 64) (short' : calls'.length < 2 ^ 64) (oblivious : Oblivious chain)
    (separate : Separate mine calls)
    (shipped : ∀ (i : Nat) (c : Call), calls[i]? = some c → mine i = true → c.env.Shipped)
    (world : SameWorld mine accounts accounts' calls calls') :
    ∃ own, Abreast chain mine accounts accounts' calls calls' order sys own := by
  have start : Mirrors mine calls (System.init (PaymentService.opening accounts) calls)
      (System.init (PaymentService.opening accounts') calls') := by
    refine ⟨fun i t ours at_ => ⟨⟨"", "", "", 0, 0, ⟨"", ""⟩⟩, ?_⟩, world.accounts, fun _ _ => rfl⟩
    obtain ⟨c, place, rfl⟩ := Option.map_eq_some_iff.1 ((List.getElem?_map ..).symm.trans at_)
    rw [← world.places i ours] at place
    exact (List.getElem?_map ..).trans (congrArg _ place)
  obtain ⟨own, ran, mirrors⟩ := exec_project mine (Mirrors mine calls)
    (fun early u i v u' ran ran' related ours stepped =>
      Abreast.ours ⟨short, short', separate, world, ran, ran', related⟩ oblivious shipped ours stepped)
    (fun early u i v u' ran ran' related others stepped =>
      Abreast.others ⟨short, short', separate, world, ran, ran', related⟩ others stepped) start reached
  exact ⟨own, short, short', separate, world, reached, ran, mirrors⟩

/-! ## What can be told -/

/-- What is stored of the call at a place and what was published of it, but for its id. -/
def System.recordAt (sys : System) (i : Nat) : Option (Option Transaction × List DomainEvent) :=
  (sys.threads[i]?).bind fun t => t.pc.won.map fun id =>
    ((sys.service.file id).transaction.map (renamed ""),
      (sys.service.file id).events.map (renamedEvent ""))

/-- How the calls that `mine` picks have ended, what is stored and published of them, and what
their accounts hold and have been posted, is the same but for ids and sequence numbers. -/
structure SameFor (mine : Nat → Bool) (calls : List Call) (sys sys' : System) : Prop where
  outcomes : ∀ i, mine i = true →
    (sys'.outcome i).map (Outcome.renamed "") = (sys.outcome i).map (Outcome.renamed "")
  records : ∀ i, mine i = true → sys'.recordAt i = sys.recordAt i
  accounts : ∀ a, Ours mine calls a →
    sys'.service.accounts.lookup a = sys.service.accounts.lookup a
  entries : ∀ a, Ours mine calls a →
    (InMemoryLedgerRepository.entriesFor sys'.service.journal a).map unnumbered =
      (InMemoryLedgerRepository.entriesFor sys.service.journal a).map unnumbered

theorem Outcome.renamed_renamed (id id' : String) (out : Outcome) :
    Outcome.renamed id (Outcome.renamed id' out) = Outcome.renamed id out := by
  cases out with
  | error e => rfl
  | ok res => cases res <;> rfl

theorem Abreast.same (abreast : Abreast chain mine accounts accounts' calls calls' order sys own) :
    SameFor mine calls sys own := by
  have lengths : own.threads.length = calls'.length := length_threads abreast.reached'
  -- a place without a call of ours in the one run is one in the other
  have nobody {i : Nat} (ours : mine i = true) (none_ : sys.threads[i]? = none) :
      own.threads[i]? = none := by
    rw [List.getElem?_eq_none_iff, length_threads abreast.reached] at none_
    rw [List.getElem?_eq_none_iff, lengths, ← List.getElem?_eq_none_iff,
      abreast.world.places i ours, List.getElem?_eq_none_iff]
    exact none_
  refine ⟨fun i ours => ?_, fun i ours => ?_, abreast.mirrors.accounts, abreast.mirrors.entries⟩
  · cases at_ : sys.threads[i]? with
    | none => rw [System.outcome, System.outcome, at_, nobody ours at_]
    | some t =>
      obtain ⟨l, also⟩ := abreast.mirrors.threads i t ours at_
      rw [System.outcome, System.outcome, at_, also]
      show ((t.pc.relabel l).outcome).map _ = (t.pc.outcome).map _
      rw [Pc.relabel_outcome, Option.map_map]
      exact congrArg (Option.map · t.pc.outcome) (funext fun out => Outcome.renamed_renamed "" _ out)
  · cases at_ : sys.threads[i]? with
    | none =>
      rw [System.recordAt, System.recordAt, at_, nobody ours at_]
      rfl
    | some t =>
      obtain ⟨l, also⟩ := abreast.mirrors.threads i t ours at_
      rw [System.recordAt, System.recordAt, at_, also]
      show ((t.pc.relabel l).won).map _ = t.pc.won.map _
      cases won : t.pc.won with
      | none => rw [Pc.relabel_won, won]; rfl
      | some id =>
        have won' : (t.pc.relabel l).won = some l.txnId := by rw [Pc.relabel_won, won]; rfl
        obtain ⟨stored, told⟩ := (abreast.reached.settled abreast.short).own i t at_ id won
        obtain ⟨stored', told'⟩ :=
          (abreast.reached'.settled abreast.short').own i _ also l.txnId won'
        rw [won', Option.map_some, Option.map_some, stored, told, stored', told', Pc.relabel_saved,
          Pc.relabel_published, Option.map_map, List.map_map]
        rfl

/-- **Calls that share neither a key nor an account with the others do not notice them.**
Given the same calls of ours over the same accounts of ours, whatever the others are, over
whatever accounts, and whatever their strategies, ledgers and subscribers do: every run is
also one without any step of the others, in which ours fare the same; and any two runs in
which the steps of ours come in the same order are the same for us. -/
theorem others_unseen (reached : Reaches chain (PaymentService.opening accounts) calls order sys)
    (short : calls.length < 2 ^ 64) (short' : calls'.length < 2 ^ 64) (oblivious : Oblivious chain)
    (separate : Separate mine calls) (separate' : Separate mine calls')
    (shipped : ∀ (i : Nat) (c : Call), calls[i]? = some c → mine i = true → c.env.Shipped)
    (world : SameWorld mine accounts accounts' calls calls') :
    (∃ own, Reaches chain (PaymentService.opening accounts') calls' (order.filter mine) own ∧
      SameFor mine calls sys own) ∧
    ∀ order' sys', Reaches chain (PaymentService.opening accounts') calls' order' sys' →
      order'.filter mine = order.filter mine → SameFor mine calls sys sys' := by
  obtain ⟨own, abreast⟩ := reached.alone short short' oblivious separate shipped world
  have same := abreast.same
  refine ⟨⟨own, abreast.reached', same⟩, fun order' sys' reached' sameOrder => ?_⟩
  have shipped' : ∀ (i : Nat) (c : Call), calls'[i]? = some c → mine i = true → c.env.Shipped :=
    fun i c at_ ours => shipped i c ((world.places i ours).symm.trans at_) ours
  obtain ⟨own', abreast'⟩ :=
    reached'.alone short' short' oblivious separate' shipped' (.refl mine accounts' calls')
  have ran := abreast'.reached'
  rw [sameOrder] at ran
  obtain rfl : own = own' := Option.some.inj (Eq.trans (Eq.symm abreast.reached') ran)
  have same' := abreast'.same
  have ours {a : String} : Ours mine calls a → Ours mine calls' a := by
    rintro ⟨i, c, at_, picked, touches⟩
    exact ⟨i, c, (world.places i picked).trans at_, picked, touches⟩
  exact ⟨fun i picked => (same'.outcomes i picked).symm.trans (same.outcomes i picked),
    fun i picked => (same'.records i picked).symm.trans (same.records i picked),
    fun a among => (same'.accounts a (ours among)).symm.trans (same.accounts a among),
    fun a among => (same'.entries a (ours among)).symm.trans (same.entries a among)⟩

end Runs

/-! ## Two clients -/

/-- Two payers and their payees. -/
def twoPairs (held : Int64) : InMemoryAccountRepository :=
  (userAndMerchant.save ⟨"v", ⟨held, .inr⟩⟩).save ⟨"n", ⟨0, .inr⟩⟩

/-- The first call is ours. -/
def firstOnly (i : Nat) : Bool := i == 0

theorem separate_pair {key : String} {amount : Int64} (other : key ≠ "key-1") :
    Separate firstOnly [upiCall "key-1" "u" "m" 30000, upiCall key "v" "n" amount] := by
  intro i j c d at_ also ours others
  obtain rfl : i = 0 := by simpa [firstOnly] using ours
  cases at_
  rcases j with _ | _ | j
  · cases others
  · cases also
    exact ⟨other.symm, by simp [PaymentRequest.Shares, PaymentRequest.Touches, upiCall]⟩
  · cases also

/-- Our payment after that of another client has been claimed, and before one of another
amount, over an empty wallet: it goes by another id, and all else is the same for us. -/
theorem others_unseen_pair : ∃ sys sys',
    Reaches mainChain (PaymentService.opening (twoPairs 50000))
      [upiCall "key-1" "u" "m" 30000, upiCall "key-2" "v" "n" 700]
      ([1, 1, 1] ++ List.replicate 20 0) sys ∧
    Reaches mainChain (PaymentService.opening (twoPairs 0))
      [upiCall "key-1" "u" "m" 30000, upiCall "key-3" "v" "n" (-5)]
      (List.replicate 20 0 ++ List.replicate 10 1) sys' ∧
    (sys.threads.map fun t => t.pc.won) = [some "txn_2", some "txn_1"] ∧
    (sys'.threads.map fun t => t.pc.won) = [some "txn_1", some "txn_2"] ∧
    SameFor firstOnly [upiCall "key-1" "u" "m" 30000, upiCall "key-2" "v" "n" 700] sys sys' := by
  have ran : (exec (System.step mainChain) (System.init (PaymentService.opening (twoPairs 50000))
      [upiCall "key-1" "u" "m" 30000, upiCall "key-2" "v" "n" 700])
      ([1, 1, 1] ++ List.replicate 20 0)).any (fun sys =>
        decide ((sys.threads.map fun t => t.pc.won) = [some "txn_2", some "txn_1"])) = true := by
    decide +kernel
  have ran' : (exec (System.step mainChain) (System.init (PaymentService.opening (twoPairs 0))
      [upiCall "key-1" "u" "m" 30000, upiCall "key-3" "v" "n" (-5)])
      (List.replicate 20 0 ++ List.replicate 10 1)).any (fun sys =>
        decide ((sys.threads.map fun t => t.pc.won) = [some "txn_1", some "txn_2"])) = true := by
    decide +kernel
  obtain ⟨sys, reached, won⟩ := exec_any ran
  obtain ⟨sys', reached', won'⟩ := exec_any ran'
  have world : SameWorld firstOnly (twoPairs 50000) (twoPairs 0)
      [upiCall "key-1" "u" "m" 30000, upiCall "key-2" "v" "n" 700]
      [upiCall "key-1" "u" "m" 30000, upiCall "key-3" "v" "n" (-5)] := by
    refine ⟨fun i ours => ?_, fun a among => ?_⟩
    · obtain rfl : i = 0 := by simpa [firstOnly] using ours
      rfl
    · obtain ⟨i, c, at_, ours, touches⟩ := among
      obtain rfl : i = 0 := by simpa [firstOnly] using ours
      cases at_
      rcases touches with rfl | rfl <;> decide
  obtain ⟨-, same⟩ := others_unseen reached (by decide) (by decide)
    (oblivious_standardChain ⟨10000000, .inr⟩ ⟨5000000, .inr⟩) (separate_pair (by decide))
    (separate_pair (by decide)) (fun i c at_ ours => by
      obtain rfl : i = 0 := by simpa [firstOnly] using ours
      cases at_
      exact Env.shipped_shipped 0) world
  exact ⟨sys, sys', reached, reached', of_decide_eq_true won, of_decide_eq_true won',
    same _ sys' reached' (by decide)⟩

end PaymentSystem.Service
