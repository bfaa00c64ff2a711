/-
# PaymentSystem.Service.Durable -- a service over the file, restarted at will

A `Host` is a process and its disk: the machine of `PaymentSystem.Service.Machine`, whose
stored transactions are the index of a `FileTransactionRepository`, and the file that
every save rewrites.  A restart, at a point with no call in flight, keeps the file and the
account balances and makes everything else new.  The history (which debits went through,
which transactions were saved) outlives the processes; no step reads it.

* `Host.step_run`, `Host.step_restart`: what a step can do.
* `Host.within`: between two restarts a host runs as a system of its own.
* `Host.views`: its index and its file are those of a repository after its saves.
-/
import PaymentSystem.Adapters.Reopening
import PaymentSystem.Service.Files

namespace PaymentSystem.Service

open PaymentSystem.Common
open PaymentSystem.Domain
open PaymentSystem.Patterns
open PaymentSystem.Adapters
open PaymentSystem.Adapters.FileTransactionRepository
open PaymentSystem.Infra
open PaymentSystem.Theory
open PaymentSystem.Theory.Keyed
open PaymentSystem.Theory.Runs
open PaymentSystem.Theory.Threads

set_option autoImplicit false

variable {chain : ValidationChain}

/-! ## Hosts -/

/-- A debit that went through: the call that made it, and the key of that call. -/
structure Charge where
  session : Nat
  caller : Nat
  key : String
  deriving DecidableEq, Repr

structure Host where
  sys : System
  file : Option (List Char)
  /-- How many restarts there have been. -/
  session : Nat
  charges : List Charge
  saved : List Transaction

/-- What happens next: thread `i` takes its step, the flush of a save iterating in the order
`order`; or the process is restarted and given the calls `calls` to serve. -/
inductive Action where
  | run (i : Nat) (order : List Transaction)
  | restart (calls : List Call)

/-- A service just constructed over a reopened repository. -/
def PaymentService.reopening (accounts : InMemoryAccountRepository)
    (transactions : InMemoryTransactionRepository) : PaymentService :=
  { PaymentService.opening accounts with transactions }

/-- The next step of a call is a debit that goes through. -/
def Debits (s : PaymentService) (c : Call) : Pc → Bool
  | .debit _ => (s.accounts.lookup c.req.payerAccountId).any fun a => a.Debitable c.req.amount
  | .undoDebit _ _ =>
    (s.accounts.lookup c.req.payeeAccountId).any fun a => a.Debitable c.req.amount
  | _ => false

/-- The transaction a call is about to save. -/
def Pc.saving : Pc → Option Transaction
  | .save txn _ _ => some txn
  | _ => none

theorem Pc.eq_save {pc : Pc} {txn : Transaction} (saving : pc.saving = some txn) :
    ∃ type res, pc = .save txn type res := by
  cases pc <;> cases saving
  exact ⟨_, _, rfl⟩

theorem Pc.txn_of_saving {pc : Pc} {txn : Transaction} (saving : pc.saving = some txn) :
    pc.txn = some txn := by
  obtain ⟨type, res, rfl⟩ := Pc.eq_save saving
  rfl

instance (sys : System) : Decidable sys.Quiescent :=
  decidable_of_iff (∀ t ∈ sys.threads, t.pc.outcome.isSome = true ∨ t.pc.begun = false) <| by
    refine forall₂_congr fun t _ => or_congr Option.isSome_iff_ne_none ?_
    cases t.pc <;> simp [Pc.begun]

namespace Host

/-- A first process over the accounts, with no file yet. -/
def opening (accounts : InMemoryAccountRepository) (calls : List Call) : Host where
  sys := System.init (PaymentService.opening accounts) calls
  file := none
  session := 0
  charges := []
  saved := []

def step (chain : ValidationChain) (host : Host) : Action → Option Host
  | .run i order =>
    match host.sys.threads[i]?, System.step chain host.sys i with
    | some t, some sys =>
      let charges :=
        if Debits host.sys.service t.call t.pc then
          host.charges ++ [⟨host.session, i, t.call.req.idempotencyKey⟩]
        else host.charges
      match t.pc.saving with
      | none => some { host with sys, charges }
      | some txn =>
        -- the index has been assigned to; the flush iterates over all of it
        if order.Perm (values sys.service.transactions) then
          some { host with
            sys, charges
            file := some (flushToDisk (order.map recordOf))
            saved := host.saved ++ [txn] }
        else none
    | _, _ => none
  | .restart calls =>
    if host.sys.Quiescent then
      (reopened host.file).map fun transactions =>
        { host with
          sys := System.init (.reopening host.sys.service.accounts transactions) calls
          session := host.session + 1 }
    else none

/-- The index of the repository. -/
abbrev index (host : Host) : InMemoryTransactionRepository := host.sys.service.transactions

end Host

/-- What a step of thread `i` does to a host. -/
structure Ran (chain : ValidationChain) (host : Host) (i : Nat) (order : List Transaction)
    (host' : Host) (c : Call) (pc pc' : Pc) : Prop where
  at_ : host.sys.threads[i]? = some ⟨c, pc⟩
  stepped : System.step chain host.sys i = some host'.sys
  fired : Fires chain c host.sys.service pc host'.sys.service pc'
  threads : host'.sys.threads = host.sys.threads.set i ⟨c, pc'⟩
  session : host'.session = host.session
  charges : host'.charges = if Debits host.sys.service c pc then
    host.charges ++ [⟨host.session, i, c.req.idempotencyKey⟩] else host.charges
  disk : host'.index = host.index ∧ host'.file = host.file ∧ host'.saved = host.saved ∨
    ∃ txn type res, pc = .save txn type res ∧ pc' = .publish txn type res ∧
      host'.index = host.index.insert txn.id txn ∧ order.Perm (values host'.index) ∧
      host'.file = some (flushToDisk (order.map recordOf)) ∧ host'.saved = host.saved ++ [txn]

namespace Host

/-- **A step of a thread is a transition of its call**, and the disk follows the index. -/
theorem step_run {host host' : Host} {i : Nat} {order : List Transaction}
    (stepped : step chain host (.run i order) = some host') :
    ∃ c pc pc', Ran chain host i order host' c pc pc' := by
  simp only [step] at stepped
  split at stepped
  · rename_i t sys there moved
    obtain ⟨c, pc, pc', at_, fired, threads⟩ := step_fires moved
    cases there.symm.trans at_
    refine ⟨c, pc, pc', ?_⟩
    cases saving : pc.saving with
    | none =>
      simp only [saving, Option.some.injEq] at stepped
      subst stepped
      refine ⟨at_, moved, fired, threads, rfl, rfl, .inl ⟨?_, rfl, rfl⟩⟩
      rcases fired.transactions with same | ⟨txn, type, res, rfl, -⟩
      · exact same
      · cases saving
    | some txn =>
      simp only [saving] at stepped
      split at stepped
      · rename_i perm
        cases stepped
        refine ⟨at_, moved, fired, threads, rfl, rfl, .inr ?_⟩
        obtain ⟨type, res, rfl⟩ := Pc.eq_save saving
        generalize is : sys.service = s' at fired
        cases fired
        exact ⟨txn, type, res, rfl, rfl, congrArg PaymentService.transactions is, perm, rfl, rfl⟩
      · cases stepped
  · cases stepped

theorem step_restart {host host' : Host} {calls : List Call}
    (stepped : step chain host (.restart calls) = some host') :
    host.sys.Quiescent ∧ ∃ transactions, reopened host.file = some transactions ∧
      host' = { host with
        sys := System.init (.reopening host.sys.service.accounts transactions) calls
        session := host.session + 1 } := by
  simp only [step] at stepped
  split at stepped
  · rename_i quiescent
    obtain ⟨transactions, read, rfl⟩ := Option.map_eq_some_iff.1 stepped
    exact ⟨quiescent, transactions, read, rfl⟩
  · cases stepped

end Host

/-- Whichever thread takes the next step meets `ok` before it does. -/
def Moving (ok : Host → Thread → Prop) (host : Host) : Action → Prop
  | .run i _ => ∀ t ∈ host.sys.threads[i]?, ok host t
  | .restart _ => True

instance (ok : Host → Thread → Prop) [∀ host t, Decidable (ok host t)] (host : Host) :
    (action : Action) → Decidable (Moving ok host action)
  | .run _ _ => inferInstanceAs (Decidable (∀ t ∈ _, _))
  | .restart _ => .isTrue trivial

/-! ## Sessions -/

/-- The calls an action brings meet `P`. -/
def Action.Brings (P : Call → Prop) : Action → Prop
  | .run _ _ => True
  | .restart calls => ∀ c ∈ calls, P c

/-- **Between two restarts a host runs as a system of its own**, from a service over the
index it reopened. -/
theorem Host.within {P : Call → Prop} {accounts : InMemoryAccountRepository} {calls : List Call}
    {sched : List Action} {host : Host}
    (ran : exec (Host.step chain) (Host.opening accounts calls) sched = some host)
    (first : ∀ c ∈ calls, P c) (later : ∀ a ∈ sched, a.Brings P) :
    ∃ accounts' transactions calls' sched', (∀ c ∈ calls', P c) ∧
      Reaches chain (.reopening accounts' transactions) calls' sched' host.sys := by
  refine exec_induct_along (fun host => ∃ accounts' transactions calls' sched',
    (∀ c ∈ calls', P c) ∧
      Reaches chain (.reopening accounts' transactions) calls' sched' host.sys) ?_ ?_ ran
  · rintro early (⟨i, order⟩ | given) late host host' split -
      ⟨accounts', transactions, calls', sched', brought, reached⟩ stepped
    · obtain ⟨c, pc, pc', moved⟩ := Host.step_run stepped
      exact ⟨accounts', transactions, calls', _, brought, reached.snoc moved.stepped⟩
    · obtain ⟨-, reread, -, rfl⟩ := Host.step_restart stepped
      exact ⟨_, reread, given, [], later (.restart given) (by rw [split]; simp), rfl⟩
  · exact ⟨accounts, ∅, calls, [], first, rfl⟩

/-- Every id a call goes by was drawn from the service's counter. -/
structure Minted (s : PaymentService) (t : Thread) : Prop where
  tag : s.txnIds.tag = "txn"
  drawn : ∀ id, t.pc.txnId = some id → ∃ n, id = IdGenerator.idOf "txn" n

theorem Fires.tag {c : Call} {s s' : PaymentService} {pc pc' : Pc}
    (fired : Fires chain c s pc s' pc') : s'.txnIds.tag = s.txnIds.tag := by
  rcases fired.identity with ⟨-, -, rfl⟩ | ⟨-, -, -, rfl⟩ | ⟨id, -, -, -, rfl⟩ | ⟨id, -, -, same⟩
  · rfl
  · rfl
  · rfl
  · rw [same]

theorem Reaches.minted {accounts : InMemoryAccountRepository}
    {transactions : InMemoryTransactionRepository} {calls : List Call} {sched : List Nat}
    {sys : System} (reached : Reaches chain (.reopening accounts transactions) calls sched sys) :
    ∀ t ∈ sys.threads, Minted sys.service t := by
  refine (interleaving chain).agentwise (P := Minted) ?_ ?_ ?_ reached
  · rintro s ⟨c, pc⟩ s' ⟨c', pc'⟩ ⟨rfl, fired⟩ minted
    refine ⟨fired.tag.trans minted.tag, fun id drawn => ?_⟩
    rcases fired.identity with ⟨-, rfl, -⟩ | ⟨lost, -⟩ | ⟨id', rfl, rfl, -⟩ | ⟨id', was, now, -⟩
    · cases drawn
      exact ⟨s.txnIds.counter, by rw [← minted.tag]; rfl⟩
    · rw [lost.txnId] at drawn
      cases drawn
    · exact minted.drawn id drawn
    · cases (Pc.txnId_of_won now).symm.trans drawn
      exact minted.drawn _ (Pc.txnId_of_won was)
  · rintro s t s' t' u ⟨-, fired⟩ - theirs
    exact ⟨fired.tag.trans theirs.tag, theirs.drawn⟩
  · intro t member
    refine ⟨rfl, fun id drawn => ?_⟩
    rw [(mem_init member).2] at drawn
    cases drawn

/-! ## Plain runs -/

/-- The strings of the request have no tab and no newline. -/
structure PlainCall (c : Call) : Prop where
  idempotencyKey : PlainText c.req.idempotencyKey.toList
  payerAccountId : PlainText c.req.payerAccountId.toList
  payeeAccountId : PlainText c.req.payeeAccountId.toList

instance (c : Call) : Decidable (PlainCall c) :=
  decidable_of_iff (PlainText c.req.idempotencyKey.toList ∧
      PlainText c.req.payerAccountId.toList ∧ PlainText c.req.payeeAccountId.toList)
    ⟨fun ⟨key, payer, payee⟩ => ⟨key, payer, payee⟩, fun ⟨key, payer, payee⟩ => ⟨key, payer, payee⟩⟩

/-- An id is plain. -/
theorem plain_idOf (n : UInt64) : PlainText (IdGenerator.idOf "txn" n).toList := by
  have plain {c : Char} (other : c.isDigit = false) (apart : c ≠ '_') (fresh : c ∉ "txn".toList) :
      c ∉ (IdGenerator.idOf "txn" n).toList := by
    rw [IdGenerator.toList_idOf, List.mem_append, List.mem_cons, not_or, not_or]
    refine ⟨fresh, apart, fun member => ?_⟩
    rw [Decimal.isDigit_of_mem_digits member] at other
    cases other
  exact ⟨plain (by decide) (by decide) (by decide), plain (by decide) (by decide) (by decide)⟩

theorem PlainCall.txn {c : Call} (plain : PlainCall c) {id : String} (minted : PlainText id.toList)
    (status : TxnStatus) : PlainTransaction (c.txn id status) :=
  ⟨minted, plain.idempotencyKey, plain.payerAccountId, plain.payeeAccountId⟩

/-- A run of calls with plain strings. -/
structure PlainRun (chain : ValidationChain) (accounts : InMemoryAccountRepository)
    (calls : List Call) (sched : List Action) (host : Host) : Prop where
  ran : exec (Host.step chain) (Host.opening accounts calls) sched = some host
  first : ∀ c ∈ calls, PlainCall c
  later : ∀ a ∈ sched, a.Brings PlainCall

/-- What a plain run holds of one of its earlier states. -/
theorem PlainRun.before {accounts : InMemoryAccountRepository} {calls : List Call}
    {sched early late : List Action} {host before : Host}
    (run : PlainRun chain accounts calls sched host) (split : sched = early ++ late)
    (ran : exec (Host.step chain) (Host.opening accounts calls) early = some before) :
    PlainRun chain accounts calls early before :=
  ⟨ran, run.first, fun a member => run.later a (by rw [split]; exact List.mem_append_left _ member)⟩

/-- A call carries its own transaction, under an id it drew. -/
theorem Host.carries {accounts : InMemoryAccountRepository} {calls : List Call}
    {sched : List Action} {host : Host}
    (ran : exec (Host.step chain) (Host.opening accounts calls) sched = some host) {t : Thread}
    (member : t ∈ host.sys.threads) {txn : Transaction} (carried : t.pc.txn = some txn) :
    PlainText txn.id.toList ∧ ∃ status, txn = t.call.txn txn.id status := by
  have any (a : Action) : a.Brings fun _ => True := by
    cases a with
    | run => trivial
    | restart calls => exact fun _ _ => trivial
  obtain ⟨_, _, _, _, -, reached⟩ := Host.within ran (fun _ _ => trivial) fun a _ => any a
  obtain ⟨won, status, is⟩ := (reached.sound t member).txn carried
  obtain ⟨n, minted⟩ := (reached.minted t member).drawn _ (Pc.txnId_of_won won)
  exact ⟨by rw [minted]; exact plain_idOf n, status, is⟩

/-- What a call of a plain run is about to save is plain. -/
theorem PlainRun.saving {accounts : InMemoryAccountRepository} {calls : List Call}
    {sched : List Action} {host : Host} (run : PlainRun chain accounts calls sched host) {t : Thread}
    (member : t ∈ host.sys.threads) {txn : Transaction} (carried : t.pc.txn = some txn) :
    PlainTransaction txn := by
  obtain ⟨_, _, _, _, brought, reached⟩ := Host.within run.ran run.first run.later
  have plain : PlainCall t.call := brought t.call (by
    rw [← reached.calls]
    exact List.mem_map_of_mem member)
  obtain ⟨minted, status, is⟩ := Host.carries run.ran member carried
  rw [is]
  exact plain.txn minted status

/-- What holds of the start of a plain run and is kept by its steps holds at its end. -/
theorem PlainRun.induct {accounts : InMemoryAccountRepository} {calls : List Call}
    {sched : List Action} {host : Host} (run : PlainRun chain accounts calls sched host)
    (P : Host → Prop) (start : P (Host.opening accounts calls))
    (keeps : ∀ early host action host', PlainRun chain accounts calls early host → P host →
      Host.step chain host action = some host' → P host') : P host := by
  refine exec_induct_along P ?_ start run.ran
  intro early action late before after split ran held stepped
  exact keeps early before action after (run.before split ran) held stepped

theorem PlainRun.saved {accounts : InMemoryAccountRepository} {calls : List Call}
    {sched : List Action} {host : Host} (run : PlainRun chain accounts calls sched host) :
    ∀ txn ∈ host.saved, PlainTransaction txn := by
  refine run.induct (fun host => ∀ txn ∈ host.saved, PlainTransaction txn) nofun ?_
  rintro early host (⟨i, order⟩ | given) host' run plain stepped
  · obtain ⟨c, pc, pc', moved⟩ := Host.step_run stepped
    rcases moved.disk with ⟨-, -, same⟩ | ⟨txn, type, res, rfl, -, -, -, -, grown⟩
    · rw [same]
      exact plain
    · rw [grown]
      intro t member
      rcases List.mem_append.1 member with before | now
      · exact plain t before
      · rw [List.mem_singleton.1 now]
        exact run.saving (List.mem_of_getElem? moved.at_) rfl
  · obtain ⟨-, transactions, -, rfl⟩ := Host.step_restart stepped
    exact plain

/-- The host's index and its file are those of the repository `repo`. -/
structure Views (host : Host) (repo : FileTransactionRepository) : Prop where
  saves : Saves host.saved repo
  file : repo.file = host.file
  index : ∀ id, repo.index.lookup id = (host.index.lookup id).map recordOf

theorem Views.save {host host' : Host} {repo : FileTransactionRepository} (views : Views host repo)
    {txn : Transaction} {order : List Transaction}
    (inserted : host'.index = host.index.insert txn.id txn)
    (perm : order.Perm (values host'.index))
    (file : host'.file = some (flushToDisk (order.map recordOf)))
    (saved : host'.saved = host.saved ++ [txn]) :
    Views host' (repo.save txn (order.map recordOf)) := by
  have index (id : String) :
      (repo.assigned txn).lookup id = (host'.index.lookup id).map recordOf := by
    rw [inserted, FileTransactionRepository.assigned]
    by_cases here : id = txn.id
    · subst here
      rw [AList.lookup_insert, AList.lookup_insert]
      rfl
    · rw [AList.lookup_insert_ne here, AList.lookup_insert_ne here]
      exact views.index id
  refine ⟨?_, file.symm, index⟩
  rw [saved]
  exact views.saves.save txn ((perm.map recordOf).trans (perm_values index))

/-- What the file reads as is what the index holds. -/
theorem Views.backs {host : Host} {repo : FileTransactionRepository} (views : Views host repo)
    (plain : ∀ txn ∈ host.saved, PlainTransaction txn) : ∃ read, loadFromDisk host.file = .ok read ∧
      ∀ id, read.lookup id = (host.index.lookup id).map recordOf := by
  obtain ⟨read, loaded, same⟩ := views.saves.backs plain
  exact ⟨read, by rw [← views.file]; exact loaded, fun id => (same id).trans (views.index id)⟩

/-- **Reopening a plain file gives the index back.** -/
theorem Views.reopened {host : Host} {repo : FileTransactionRepository} (views : Views host repo)
    (plain : ∀ txn ∈ host.saved, PlainTransaction txn) {transactions : Store String Transaction}
    (reread : reopened host.file = some transactions) (id : String) :
    transactions.lookup id = host.index.lookup id := by
  obtain ⟨read, loaded, same⟩ := views.backs plain
  obtain ⟨read', loaded', same'⟩ := lookup_reopened reread
  cases loaded.symm.trans loaded'
  exact Option.map_injective (fun _ _ => recordOf_inj) ((same' id).trans (same id))

/-- **A host of plain calls is a repository after its saves**, over any number of
restarts. -/
theorem PlainRun.views {accounts : InMemoryAccountRepository} {calls : List Call}
    {sched : List Action} {host : Host} (run : PlainRun chain accounts calls sched host) :
    ∃ repo, Views host repo := by
  refine run.induct (fun host => ∃ repo, Views host repo) ⟨_, .fresh, rfl, fun _ => rfl⟩ ?_
  rintro early host (⟨i, order⟩ | given) host' run ⟨repo, views⟩ stepped
  · obtain ⟨c, pc, pc', moved⟩ := Host.step_run stepped
    rcases moved.disk with ⟨index, file, saved⟩ | ⟨txn, type, res, -, -, inserted, perm, file, saved⟩
    · exact ⟨repo, by rw [saved]; exact views.saves, by rw [file]; exact views.file,
        by rw [index]; exact views.index⟩
    · exact ⟨_, views.save inserted perm file saved⟩
  · obtain ⟨-, transactions, reread, rfl⟩ := Host.step_restart stepped
    refine ⟨repo, views.saves, views.file, fun id => ?_⟩
    exact (views.index id).trans (congrArg _ (views.reopened run.saved reread id).symm)

/-- **A host of plain calls can be restarted** whenever no call is in flight. -/
theorem PlainRun.restarts {accounts : InMemoryAccountRepository} {calls : List Call}
    {sched : List Action} {host : Host} (run : PlainRun chain accounts calls sched host)
    (quiescent : host.sys.Quiescent) (given : List Call) :
    ∃ host', Host.step chain host (.restart given) = some host' := by
  obtain ⟨repo, views⟩ := run.views
  obtain ⟨read, loaded, same⟩ := views.backs run.saved
  obtain ⟨transactions, all⟩ : ∃ transactions, transactionsOf read = some transactions := by
    refine transactionsOf_exists fun r member => ?_
    obtain ⟨id, found⟩ := mem_values.1 member
    rw [same] at found
    obtain ⟨t, -, is⟩ := Option.map_eq_some_iff.1 found
    exact ⟨t, is⟩
  have reread : FileTransactionRepository.reopened host.file = some transactions := by
    rw [FileTransactionRepository.reopened, loaded]
    exact all
  exact ⟨_, by rw [Host.step, if_pos quiescent, reread]; rfl⟩

end PaymentSystem.Service
