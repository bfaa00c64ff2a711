/-
# PaymentSystem.Service.Recovery -- what restarts keep

A host (`PaymentSystem.Service.Durable`) is restarted any number of times, at points with no
call in flight; between two restarts its calls interleave as they like.  Two things do not
depend on where the restarts come.

* `money_over_restarts`: no account is ever overdrawn and no money appears; and with
  accounts of one currency none is lost: what the accounts hold and what is in transit is
  what the first process opened with.
* `answers_on_file`: at any moment outside a flush, in the middle of calls too, the file can
  be read back, and has each transaction whose call has answered in the status the answer
  names, and each transaction an event has told of.
-/
import PaymentSystem.Service.Restarts
import PaymentSystem.Service.Solvency
import PaymentSystem.Service.Lifecycle
import PaymentSystem.Service.Ordering

namespace PaymentSystem.Service

open PaymentSystem.Common
open PaymentSystem.Domain
open PaymentSystem.Patterns
open PaymentSystem.Adapters
open PaymentSystem.Adapters.FileTransactionRepository
open PaymentSystem.Infra
open PaymentSystem.Theory.Keyed
open PaymentSystem.Theory.MachineInt
open PaymentSystem.Theory.Runs
open PaymentSystem.Theory.Threads

set_option autoImplicit false

variable {chain : ValidationChain}

/-! ## Nothing is lost within a session -/

section Session

variable {bound : Currency → Int} {ccy : Currency} {sys sys' : System} {c : Call}
  {s' : PaymentService} {pc pc' : Pc}

/-- Among accounts of one currency a transition keeps their total and what it has in transit. -/
theorem Fires.conserves (fired : Fires chain c sys.service pc s' pc')
    (solvency : Solvency bound sys) (fits : ∀ ccy, bound ccy < 2 ^ 63)
    (loaded : ∀ t ∈ sys.threads, Loaded sys.service t)
    (member : (⟨c, pc⟩ : Thread) ∈ sys.threads) (never : ¬ pc.Undoing)
    (single : SingleCurrency ccy sys.service.accounts) (held : Currency) :
    total (heldIn held) s'.accounts + Thread.transit held ⟨c, pc'⟩ =
      total (heldIn held) sys.service.accounts + Thread.transit held ⟨c, pc⟩ := by
  have mine := loaded _ member
  cases fired with
  | debited f account found can =>
    obtain ⟨⟨same, nonneg⟩, enough⟩ := can
    have exact_ : (account.balance.minorUnits - c.req.amount.minorUnits).toInt =
        account.balance.minorUnits.toInt - c.req.amount.minorUnits.toInt :=
      toInt_sub_of_le nonneg enough
    show total (heldIn held) (sys.service.accounts.replace _ _) +
      (if c.req.amount.currency = held then c.req.amount.minorUnits.toInt else 0) =
        total (heldIn held) sys.service.accounts + 0
    rw [total_replace (heldIn held) found (account.minus c.req.amount.minorUnits)]
    simp only [heldIn, Account.minus_currency, Account.minus_minorUnits, exact_, ← same]
    split <;> omega
  | credited f account found =>
    have can := mine.creditable trivial single found
    have exact_ := solvency.credit_exact fits loaded member found can
    rw [Account.credited, if_pos can]
    obtain ⟨same, nonneg⟩ := can
    show total (heldIn held) (sys.service.accounts.replace _ _) + 0 =
      total (heldIn held) sys.service.accounts +
        if c.req.amount.currency = held then c.req.amount.minorUnits.toInt else 0
    rw [total_replace (heldIn held) found (account.plus c.req.amount.minorUnits)]
    simp only [heldIn, Account.plus_currency, Account.plus_minorUnits, exact_, ← same]
    split <;> omega
  | debitedNowhere f missing =>
    exact absurd (ccyAt_eq_none.2 missing) (mine.accounts trivial).1
  | creditedNowhere f missing =>
    exact absurd (ccyAt_eq_none.2 missing) (mine.accounts trivial).2
  | uncredited => exact absurd trivial never
  | uncreditedNowhere => exact absurd trivial never
  | undebited => exact absurd trivial never
  | undebitedNowhere => exact absurd trivial never
  | _ => rfl

theorem inTransit_init (service : PaymentService) (calls : List Call) (held : Currency) :
    (System.init service calls).inTransit held = 0 := by
  apply sum_map_zero
  intro t member
  rw [Thread.transit, (mem_init member).2]

/-- **The total of accounts of one currency is kept, in every run.** -/
theorem Reaches.conserves {service : PaymentService} {calls : List Call} {sched : List Nat}
    (reached : Reaches chain service calls sched sys) (solvent : Solvent service.accounts)
    (single : SingleCurrency ccy service.accounts)
    (inMemory : ∀ c ∈ calls, c.env.ledger = inMemoryLedgerRepository) (held : Currency) :
    total (heldIn held) sys.service.accounts + sys.inTransit held =
      total (heldIn held) service.accounts := by
  refine exec_induct_reached (fun sys => total (heldIn held) sys.service.accounts +
    sys.inTransit held = total (heldIn held) service.accounts) ?_ ?_ reached
  · intro early mid i mid' ran same stepped
    have ran : Reaches chain service calls early mid := ran
    obtain ⟨c, pc, pc', at_, fired, threads⟩ := step_fires stepped
    have member := List.mem_of_getElem? at_
    have kept := fired.conserves (Solvency.run solvent inMemory ran) solvent.bounded ran.loaded
      member (ran.never_undoing inMemory _ member) (ran.single single) held
    have moved : mid'.inTransit held = mid.inTransit held - Thread.transit held ⟨c, pc⟩ +
        Thread.transit held ⟨c, pc'⟩ := by
      rw [System.inTransit, threads]
      exact sum_map_set at_ _ _
    omega
  · rw [inTransit_init, add_zero]
    rfl

end Session

/-- A system at rest has nothing in transit. -/
theorem System.Quiescent.inTransit {sys : System} (quiescent : sys.Quiescent) (held : Currency) :
    sys.inTransit held = 0 := by
  apply sum_map_zero
  rintro ⟨c, pc⟩ member
  have rests := quiescent _ member
  cases pc with
  | credit f => simp [Pc.outcome] at rests
  | _ => rfl

/-! ## Nor over restarts -/

section Restarts

variable {accounts : InMemoryAccountRepository} {calls : List Call} {sched : List Action}
  {host : Host}

/-- The call posts to the in-memory ledger. -/
def Call.Ordinary (c : Call) : Prop := c.env.ledger = inMemoryLedgerRepository

/-- The present session began with accounts that hold no more than the first did, and as
much if all are of one currency. -/
structure Endowed (chain : ValidationChain) (accounts : InMemoryAccountRepository) (host : Host) :
    Prop where
  session : ∃ service calls sched, Reaches chain service calls sched host.sys ∧
    (∀ c ∈ calls, c.Ordinary) ∧ Solvent service.accounts ∧
    (∀ held, total (heldIn held) service.accounts ≤ total (heldIn held) accounts) ∧
    ∀ ccy, SingleCurrency ccy accounts → SingleCurrency ccy service.accounts ∧
      ∀ held, total (heldIn held) service.accounts = total (heldIn held) accounts

/-- What a host holds, against what the first process opened with. -/
structure Sums (accounts : InMemoryAccountRepository) (sys : System) : Prop where
  solvency : Solvency (fun held => total (heldIn held) accounts) sys
  whole : ∀ ccy, SingleCurrency ccy accounts → SingleCurrency ccy sys.service.accounts ∧
    ∀ held, total (heldIn held) sys.service.accounts + sys.inTransit held =
      total (heldIn held) accounts

theorem Endowed.sums (endowed : Endowed chain accounts host) : Sums accounts host.sys := by
  obtain ⟨service, calls, sched, reached, ordinary, solvent, less, whole⟩ := endowed.session
  have solvency := Solvency.run solvent ordinary reached
  refine ⟨⟨solvency.nonneg, fun held => (solvency.covered held).trans (less held)⟩,
    fun ccy single => ?_⟩
  obtain ⟨single', same⟩ := whole ccy single
  exact ⟨reached.single single', fun held =>
    (reached.conserves solvent single' ordinary held).trans (same held)⟩

/-- A restart at a point with no call in flight hands over all there is. -/
theorem Endowed.restart {host' : Host} {given : List Call} (solvent : Solvent accounts)
    (endowed : Endowed chain accounts host) (ordinary : ∀ c ∈ given, c.Ordinary)
    (stepped : Host.step chain host (.restart given) = some host') : Endowed chain accounts host' := by
  have sums := endowed.sums
  obtain ⟨quiescent, transactions, -, rfl⟩ := Host.step_restart stepped
  have less (held : Currency) :
      total (heldIn held) host.sys.service.accounts ≤ total (heldIn held) accounts := by
    have covered := sums.solvency.covered held
    rw [quiescent.inTransit, add_zero] at covered
    exact covered
  refine ⟨_, given, [], rfl, ordinary,
    ⟨sums.solvency.nonneg, fun held => (less held).trans_lt (solvent.bounded held)⟩, less,
    fun ccy single => ?_⟩
  obtain ⟨single', same⟩ := sums.whole ccy single
  refine ⟨single', fun held => ?_⟩
  have whole := same held
  rw [quiescent.inTransit, add_zero] at whole
  exact whole

/-- **Money over restarts.**  Over any number of restarts and in the middle of any calls: no
balance is negative, in no currency is there more money than the first process opened with,
and if its accounts were of one currency there is exactly as much, what is in transit
included. -/
theorem money_over_restarts (solvent : Solvent accounts)
    (ran : exec (Host.step chain) (Host.opening accounts calls) sched = some host)
    (first : ∀ c ∈ calls, c.Ordinary) (later : ∀ a ∈ sched, a.Brings Call.Ordinary) :
    Sums accounts host.sys ∧ (host.sys.Quiescent → ∀ ccy, SingleCurrency ccy accounts →
      ∀ held, total (heldIn held) host.sys.service.accounts = total (heldIn held) accounts) := by
  have endowed : Endowed chain accounts host := by
    refine exec_induct_along (Endowed chain accounts) ?_ ?_ ran
    · rintro early (⟨i, order⟩ | given) late u v split - endowed stepped
      · obtain ⟨c, pc, pc', moved⟩ := Host.step_run stepped
        obtain ⟨service, calls, sched, reached, rest⟩ := endowed.session
        exact ⟨service, calls, _, reached.snoc moved.stepped, rest⟩
      · exact endowed.restart solvent (later (.restart given) (by rw [split]; simp)) stepped
    · exact ⟨_, calls, [], rfl, first, solvent, fun _ => le_refl _,
        fun ccy single => ⟨single, fun _ => rfl⟩⟩
  refine ⟨endowed.sums, fun quiescent ccy single held => ?_⟩
  have whole := (endowed.sums.whole ccy single).2 held
  rw [quiescent.inTransit, add_zero] at whole
  exact whole

end Restarts

/-- A payment served, and after a restart `n` steps of another one. -/
def servingInto (n : Nat) : List Action :=
  serving (payment.txn "txn_1" .captured) ++ .restart [nextPayment] ::
    List.replicate n (.run 0 [nextPayment.txn "txn_1" .captured])

theorem brings_servingInto {P : Call → Prop} (meets : P nextPayment) (n : Nat) :
    ∀ a ∈ servingInto n, a.Brings P := by
  intro a member
  rw [servingInto, List.mem_append, List.mem_cons] at member
  rcases member with before | rfl | after
  · exact brings_serving P _ a before
  · exact List.forall_mem_singleton.2 meets
  · rw [List.eq_of_mem_replicate after]
    trivial

/-- The second payment is debited and not yet credited. -/
theorem money_over_restarts_midway : ∃ host, exec (Host.step mainChain)
    (Host.opening userAndMerchant [payment]) (servingInto 9) = some host ∧
    host.session = 1 ∧ host.sys.inTransit .inr = 500 ∧
    total (heldIn .inr) host.sys.service.accounts + host.sys.inTransit .inr =
      total (heldIn .inr) userAndMerchant := by
  have ran : (exec (Host.step mainChain) (Host.opening userAndMerchant [payment])
      (servingInto 9)).any (fun host => decide (host.session = 1 ∧ host.sys.inTransit .inr = 500)) = true := by
    decide +kernel
  obtain ⟨host, run, found⟩ := exec_any ran
  obtain ⟨session, moving⟩ := of_decide_eq_true found
  have ordinary : nextPayment.Ordinary := rfl
  have sums := (money_over_restarts solvent_userAndMerchant run
    (List.forall_mem_singleton.2 rfl) (brings_servingInto ordinary 9)).1
  exact ⟨host, run, session, moving, (sums.whole .inr inr_userAndMerchant).2 .inr⟩

/-! ## What the file has between flushes -/

section Stock

variable {c : Call} {s s' : PaymentService} {pc pc' : Pc}

/-- An event of a call stays one. -/
theorem Fires.keeps_published (fired : Fires chain c s pc s' pc') (sound : Sound chain c pc)
    {e : DomainEvent} (said : e ∈ pc.published) : e ∈ pc'.published := by
  cases fired with
  | notified txn type res =>
    obtain rfl : e = eventOf txn type := List.mem_singleton.1 said
    rcases Closing.status sound with ⟨status, rfl⟩ | ⟨status, rfl⟩ <;> simp [Pc.published, status]
  | unlocked => exact said
  | _ => cases said

end Stock

/-- What the calls have saved is in the store, and what has been told of they have told. -/
structure Stocked (sys : System) : Prop where
  saved : ∀ t ∈ sys.threads, ∀ txn, t.pc.saved = some txn →
    sys.service.transactions.lookup txn.id = some txn
  told : ∀ e ∈ sys.service.events, ∃ t ∈ sys.threads, e ∈ t.pc.published

theorem stocked_init {service : PaymentService} (quiet : service.events = []) (calls : List Call) :
    Stocked (System.init service calls) where
  saved t member txn saved := by
    rw [(mem_init member).2] at saved
    cases saved
  told e logged := by
    have logged : e ∈ service.events := logged
    rw [quiet] at logged
    cases logged

theorem Stocked.step {sys sys' : System} {i : Nat} (stocked : Stocked sys)
    (draws : Draws "txn" 1 sys) (sounds : ∀ t ∈ sys.threads, Sound chain t.call t.pc)
    (stepped : System.step chain sys i = some sys') : Stocked sys' := by
  obtain ⟨c, pc, pc', at_, fired, threads⟩ := step_fires stepped
  have sound := sounds _ (List.mem_of_getElem? at_)
  refine ⟨fun t member txn saved => ?_, fun e logged => ?_⟩
  · rw [threads] at member
    obtain ⟨j, there⟩ := List.mem_iff_getElem?.1 member
    rcases at_set there with ⟨-, rfl⟩ | ⟨other, unmoved⟩
    · rcases fired.comes_saved sound saved with before | inserted
      · rcases fired.transactions with same | ⟨_, _, _, rfl, -⟩
        · rw [same]
          exact stocked.saved _ (List.mem_of_getElem? at_) txn before
        · cases before
      · rw [inserted]
        exact AList.lookup_insert _
    · have among := List.mem_of_getElem? unmoved
      have before := stocked.saved t among txn saved
      rcases fired.transactions with same | ⟨txn', type, res, rfl, rfl, inserted⟩
      · rw [same]
        exact before
      · -- the mover saves under an id of its own
        have apart : txn.id ≠ txn'.id := by
          intro same
          have won := ((sounds t among).txn (Pc.txn_of_saved saved)).1
          rw [same] at won
          exact other (draws.apart j i t _ txn'.id unmoved at_ (Pc.txnId_of_won won) rfl)
        rw [inserted, AList.lookup_insert_ne apart]
        exact before
  · rcases fired.events with same | ⟨txn, type, res, rfl, rfl, grown⟩
    · rw [same] at logged
      rw [threads]
      exact exists_mem_set at_ (fired.keeps_published sound) (stocked.told e logged)
    · rw [grown] at logged
      rw [threads]
      rcases List.mem_append.1 logged with before | last
      · exact exists_mem_set at_ (fired.keeps_published sound) (stocked.told e before)
      · exact ⟨_, mem_set_at at_ _, last⟩

section OnFile

variable {accounts : InMemoryAccountRepository} {calls : List Call} {sched : List Action}
  {host : Host}

/-- No process gets `2 ^ 64` calls. -/
def Action.Short : Action → Prop
  | .run _ _ => True
  | .restart calls => calls.length < 2 ^ 64

instance : (action : Action) → Decidable action.Short
  | .run _ _ => .isTrue trivial
  | .restart calls => inferInstanceAs (Decidable (calls.length < 2 ^ 64))

theorem stocked_run (run : PlainRun chain accounts calls sched host)
    (short : calls.length < 2 ^ 64) (shorts : ∀ a ∈ sched, a.Short) : Stocked host.sys := by
  have opened (given : List Call) (service : PaymentService)
      (unused : service.txnIds = IdGenerator.drawn "txn" 1 0) (quiet : service.events = [])
      (short : given.length < 2 ^ 64) :
      Stocked (System.init service given) ∧ Draws "txn" 1 (System.init service given) ∧
        (System.init service given).threads.length < 2 ^ 64 := by
    have begun : Reaches chain service given [] (System.init service given) := rfl
    exact ⟨stocked_init quiet given, begun.draws unused short, by simpa [System.init] using short⟩
  refine (exec_induct_along (fun host => Stocked host.sys ∧ Draws "txn" 1 host.sys ∧
    host.sys.threads.length < 2 ^ 64) ?_ (opened calls _ rfl rfl short) run.ran).1
  rintro early (⟨i, order⟩ | given) late before after split ran ⟨stocked, draws, fits⟩ stepped
  · obtain ⟨c, pc, pc', moved⟩ := Host.step_run stepped
    have upto := run.before split ran
    obtain ⟨_, _, _, _, -, reached⟩ := Host.within upto.ran upto.first upto.later
    refine ⟨stocked.step draws reached.sound moved.stepped, draws.step fits moved.stepped, ?_⟩
    rw [moved.threads, List.length_set]
    exact fits
  · obtain ⟨-, transactions, -, rfl⟩ := Host.step_restart stepped
    have short : (Action.restart given).Short := shorts _ (by rw [split]; simp)
    exact opened given _ rfl rfl short

/-- **The file of a host of plain calls can be read back in every state**, and is what the
index is. -/
theorem PlainRun.reads (run : PlainRun chain accounts calls sched host) :
    ∃ transactions, reopened host.file = some transactions ∧
      ∀ id, transactions.lookup id = host.index.lookup id := by
  obtain ⟨repo, views⟩ := run.views
  obtain ⟨read, loaded, same⟩ := views.backs run.saved
  obtain ⟨transactions, all⟩ : ∃ transactions, transactionsOf read = some transactions := by
    refine transactionsOf_exists fun r member => ?_
    obtain ⟨id, found⟩ := mem_values.1 member
    rw [same] at found
    obtain ⟨t, -, is⟩ := Option.map_eq_some_iff.1 found
    exact ⟨t, is⟩
  have reread : reopened host.file = some transactions := by
    rw [reopened, loaded]
    exact all
  exact ⟨transactions, reread, views.reopened run.saved reread⟩

/-- What a reader of the file finds of the calls of the process. -/
structure OnRecord (transactions : InMemoryTransactionRepository) (sys : System) : Prop where
  answered : ∀ t ∈ sys.threads, ∀ txn res, t.pc = .finished txn (.ok res) →
    transactions.lookup txn.id = some txn ∧
      (txn.status = .captured ∧ res = .ok txn ∨ txn.status = .failed ∧ ∃ err, res = .fail err)
  told : ∀ e ∈ sys.service.events, ∃ txn, transactions.lookup e.aggregateId = some txn ∧
    (txn.status = .failed ∧ e = eventOf txn "PaymentFailed" ∨
      txn.status = .captured ∧ e = eventOf txn "PaymentCaptured")

/-- **What has been answered is on file.**  In every state of any run of plain calls, over any
number of restarts and in the middle of other calls (a save and its flush are one step): the
file can be read back, and has the transaction of every call of the process that returned an
answer of its own, CAPTURED if the answer was ok and FAILED if it was not, and every
transaction an event has told of, in the status the event names. -/
theorem answers_on_file (run : PlainRun chain accounts calls sched host)
    (short : calls.length < 2 ^ 64) (shorts : ∀ a ∈ sched, a.Short) :
    ∃ transactions, reopened host.file = some transactions ∧ OnRecord transactions host.sys := by
  obtain ⟨transactions, reread, same⟩ := run.reads
  have stocked := stocked_run run short shorts
  obtain ⟨_, _, _, _, -, reached⟩ := Host.within run.ran run.first run.later
  refine ⟨transactions, reread, fun t member txn res ended => ?_, fun e logged => ?_⟩
  · have answer := (reached.sound t member).verdict (by rw [ended]; rfl) (by rw [ended]; rfl)
    refine ⟨?_, answer⟩
    rw [same]
    refine stocked.saved t member txn ?_
    rcases answer with ⟨status, -⟩ | ⟨status, -⟩ <;> simp [ended, Pc.saved, status]
  · obtain ⟨t, member, said⟩ := stocked.told e logged
    obtain ⟨txn, saved, is⟩ := (reached.sound t member).publishes said
    have kept := stocked.saved t member txn saved
    rcases is with ⟨status, rfl⟩ | ⟨status, rfl, -⟩
    · exact ⟨txn, (same _).trans kept, .inl ⟨status, rfl⟩⟩
    · exact ⟨txn, (same _).trans kept, .inr ⟨status, rfl⟩⟩

end OnFile

/-- The second payment is told of and has not returned; its transaction is on file, in the
place of the first. -/
theorem answers_on_file_told : ∃ host transactions,
    PlainRun mainChain userAndMerchant [payment] (servingInto 18) host ∧
    reopened host.file = some transactions ∧ ∃ txn, transactions.lookup "txn_1" = some txn ∧
      txn.status = .captured := by
  have ran : (exec (Host.step mainChain) (Host.opening userAndMerchant [payment])
      (servingInto 18)).any (fun host => host.sys.service.events.any fun e =>
        decide (e.aggregateId = "txn_1" ∧ e.type = "PaymentCaptured")) = true := by decide +kernel
  obtain ⟨host, run, found⟩ := exec_any ran
  obtain ⟨e, logged, about⟩ := List.any_eq_true.1 found
  obtain ⟨own, type⟩ := of_decide_eq_true about
  have plain : PlainRun mainChain userAndMerchant [payment] (servingInto 18) host :=
    ⟨run, by decide, brings_servingInto (by decide) 18⟩
  obtain ⟨transactions, reread, onRecord⟩ := answers_on_file plain (by decide) (by decide)
  obtain ⟨txn, stored, ⟨-, is⟩ | ⟨captured, -⟩⟩ := onRecord.told e logged
  · rw [is] at type
    exact absurd type (by simp [eventOf])
  · exact ⟨host, transactions, plain, reread, txn, own ▸ stored, captured⟩

end PaymentSystem.Service
