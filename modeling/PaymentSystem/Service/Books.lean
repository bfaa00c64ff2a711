/-
# PaymentSystem.Service.Books -- balances, journal, transactions and events agree

With accounts of one currency and the shipped adapters, four stores that are written
at different moments tell one story whenever no call is in flight.

* `Balanced`: a balance is its opening balance, what the journal records for it, and
  what the calls in flight have moved and not yet recorded.
* `Booked`: the journal holds a call's two entries from its posting on, and none of a
  call that failed.
* `books_agree`: the four stores, in every quiescent state.
-/
import PaymentSystem.Service.Files
import PaymentSystem.Service.Solvency

namespace PaymentSystem.Service

open PaymentSystem.Common
open PaymentSystem.Domain
open PaymentSystem.Patterns
open PaymentSystem.Adapters
open PaymentSystem.Theory.Keyed
open PaymentSystem.Theory.MachineInt
open PaymentSystem.Theory.Runs
open PaymentSystem.Theory.Threads

set_option autoImplicit false

variable {chain : ValidationChain}

/-! ## Balances and the journal -/

/-- What the journal records for an account: the sum of `signedAmount` over
`entriesFor` it. -/
def recorded (id : String) (journal : Journal) : Int :=
  ((InMemoryLedgerRepository.entriesFor journal id).map
    fun e => e.signedAmount.minorUnits.toInt).sum

/-- What a call has moved on an account and not yet recorded. -/
def Thread.unrecorded (id : String) (t : Thread) : Int :=
  let n := t.call.req.amount.minorUnits.toInt
  let debited := if t.call.req.payerAccountId = id then -n else 0
  let credited := if t.call.req.payeeAccountId = id then n else 0
  match t.pc with
  | .credit _ => debited
  | .drawDebitId _ | .drawDebitSeq _ _ | .drawCreditId _ _ _ | .drawCreditSeq _ _ _ _
  | .post _ _ _ _ _ => debited + credited
  | _ => 0

def System.unrecorded (id : String) (sys : System) : Int :=
  (sys.threads.map (Thread.unrecorded id)).sum

theorem System.Quiescent.unrecorded {sys : System} (quiescent : sys.Quiescent) (id : String) :
    sys.unrecorded id = 0 := by
  refine quiescent.sum_zero (fun c => rfl) fun c pc ended => ?_
  cases pc with
  | replied => rfl
  | unbuilt => rfl
  | finished => rfl
  | _ => exact absurd rfl ended

/-- The accounts are those opened, each with its opening balance, what is recorded
for it, and what is not yet. -/
def Balanced (accounts : InMemoryAccountRepository) (sys : System) : Prop :=
  ∀ id account, sys.service.accounts.lookup id = some account →
    ∃ opened, accounts.lookup id = some opened ∧
      account.balance.minorUnits.toInt = opened.balance.minorUnits.toInt +
        recorded id sys.service.journal + sys.unrecorded id

theorem recorded_posting {req : PaymentRequest} (nonneg : 0 ≤ req.amount.minorUnits.toInt)
    (id txnId debitId creditId : String) (debitSeq creditSeq : Int64) (journal : Journal) :
    recorded id (journal ++ postingOf req txnId debitId creditId debitSeq creditSeq) =
      recorded id journal +
        ((if req.payerAccountId = id then -req.amount.minorUnits.toInt else 0) +
          if req.payeeAccountId = id then req.amount.minorUnits.toInt else 0) := by
  have negated := toInt_mul_neg_one nonneg
  by_cases payer : req.payerAccountId = id <;> by_cases payee : req.payeeAccountId = id <;>
    simp [recorded, InMemoryLedgerRepository.entriesFor, postingOf, payer, payee,
      LedgerEntry.signedAmount, Money.mul, negated]

/-- What one transition does to the balances, the journal and what is unrecorded. -/
theorem Fires.balanced {accounts : InMemoryAccountRepository} {bound : Currency → Int}
    {sys : System} {c : Call} {s' : PaymentService} {pc pc' : Pc}
    (fired : Fires chain c sys.service pc s' pc') (balanced : Balanced accounts sys)
    (solvency : Solvency bound sys) (fits : ∀ ccy, bound ccy < 2 ^ 63)
    (loaded : ∀ t ∈ sys.threads, Loaded sys.service t)
    (member : (⟨c, pc⟩ : Thread) ∈ sys.threads) (never : ¬ pc.Undoing) (never' : ¬ pc'.Undoing)
    {ccy : Currency} (single : SingleCurrency ccy sys.service.accounts) :
    ∀ id account, s'.accounts.lookup id = some account →
      ∃ opened, accounts.lookup id = some opened ∧
        account.balance.minorUnits.toInt = opened.balance.minorUnits.toInt +
          recorded id s'.journal + (sys.unrecorded id - Thread.unrecorded id ⟨c, pc⟩ +
            Thread.unrecorded id ⟨c, pc'⟩) := by
  intro id account found'
  have mine := loaded _ member
  cases fired with
  | debited f payer found can =>
    have exact_ := toInt_sub_of_le can.1.2 can.2
    rw [PaymentService.setAccount, lookup_replace found] at found'
    show ∃ opened, _ ∧ _ = _ + recorded id sys.service.journal + (sys.unrecorded id - 0 +
      if c.req.payerAccountId = id then -c.req.amount.minorUnits.toInt else 0)
    split at found'
    · rename_i here
      cases found'
      obtain ⟨opened, was, is⟩ := balanced _ payer found
      rw [here]
      refine ⟨opened, was, ?_⟩
      rw [Account.minus_minorUnits, exact_, if_pos rfl, is]
      omega
    · rename_i elsewhere
      obtain ⟨opened, was, is⟩ := balanced id account found'
      refine ⟨opened, was, ?_⟩
      rw [if_neg (Ne.symm elsewhere), is]
      omega
  | credited f payee found =>
    have can := mine.creditable trivial single found
    have exact_ := solvency.credit_exact fits loaded member found can
    rw [PaymentService.setAccount, Account.credited, if_pos can, lookup_replace found] at found'
    show ∃ opened, _ ∧ _ = _ + recorded id sys.service.journal + (sys.unrecorded id -
      (if c.req.payerAccountId = id then -c.req.amount.minorUnits.toInt else 0) +
      ((if c.req.payerAccountId = id then -c.req.amount.minorUnits.toInt else 0) +
        if c.req.payeeAccountId = id then c.req.amount.minorUnits.toInt else 0))
    split at found'
    · rename_i here
      cases found'
      obtain ⟨opened, was, is⟩ := balanced _ payee found
      rw [here]
      refine ⟨opened, was, ?_⟩
      rw [Account.plus_minorUnits, exact_, is, if_pos (c := c.req.payeeAccountId = _) rfl]
      omega
    · rename_i elsewhere
      obtain ⟨opened, was, is⟩ := balanced id account found'
      refine ⟨opened, was, ?_⟩
      rw [if_neg (c := c.req.payeeAccountId = id) (Ne.symm elsewhere), is]
      omega
  | posted f debitId creditId debitSeq creditSeq ok =>
    obtain ⟨opened, was, is⟩ := balanced id account found'
    refine ⟨opened, was, ?_⟩
    have nonneg : 0 ≤ c.req.amount.minorUnits.toInt := (mine.amount trivial).2
    have grown := recorded_posting nonneg id f.txn.id debitId creditId debitSeq creditSeq
      sys.service.journal
    show _ = _ + recorded id (sys.service.journal ++ _) + (sys.unrecorded id -
      ((if c.req.payerAccountId = id then -c.req.amount.minorUnits.toInt else 0) +
        if c.req.payeeAccountId = id then c.req.amount.minorUnits.toInt else 0) + 0)
    rw [grown, is]
    omega
  | debitedNowhere f missing =>
    exact absurd (ccyAt_eq_none.2 missing) (mine.accounts trivial).1
  | creditedNowhere f missing =>
    exact absurd (ccyAt_eq_none.2 missing) (mine.accounts trivial).2
  | unposted => exact absurd trivial never'
  | uncredited => exact absurd trivial never
  | uncreditedNowhere => exact absurd trivial never
  | undebited => exact absurd trivial never
  | undebitedNowhere => exact absurd trivial never
  | _ =>
    obtain ⟨opened, was, is⟩ := balanced id account found'
    exact ⟨opened, was, is.trans (congrArg _ (sub_add_cancel _ _).symm)⟩

theorem Balanced.step {accounts : InMemoryAccountRepository} {bound : Currency → Int}
    {sys sys' : System} {i : Nat} (balanced : Balanced accounts sys) (solvency : Solvency bound sys)
    (fits : ∀ ccy, bound ccy < 2 ^ 63) (loaded : ∀ t ∈ sys.threads, Loaded sys.service t)
    (never : ∀ t ∈ sys.threads, ¬ t.pc.Undoing) (never' : ∀ t ∈ sys'.threads, ¬ t.pc.Undoing)
    {ccy : Currency} (single : SingleCurrency ccy sys.service.accounts)
    (stepped : System.step chain sys i = some sys') : Balanced accounts sys' := by
  obtain ⟨c, pc, pc', at_, fired, threads⟩ := step_fires stepped
  have member := List.mem_of_getElem? at_
  have ends : ¬ pc'.Undoing := by
    apply never' ⟨c, pc'⟩
    rw [threads]
    exact mem_set_at at_ _
  intro id account found
  obtain ⟨opened, was, is⟩ := fired.balanced balanced solvency fits loaded member (never _ member)
    ends single id account found
  refine ⟨opened, was, is.trans ?_⟩
  unfold System.unrecorded
  rw [threads, sum_map_set at_]

/-- **Balances, journal and what is in flight add up**, in every run. -/
theorem Reaches.balanced {accounts : InMemoryAccountRepository} {calls : List Call}
    {sched : List Nat} {sys : System} {ccy : Currency} (solvent : Solvent accounts)
    (single : SingleCurrency ccy accounts)
    (inMemory : ∀ c ∈ calls, c.env.ledger = inMemoryLedgerRepository)
    (reached : Reaches chain (PaymentService.opening accounts) calls sched sys) :
    Balanced accounts sys := by
  refine exec_induct_reached (Balanced accounts) ?_ ?_ reached
  · intro early mid i mid' ran balanced stepped
    have ran : Reaches chain (PaymentService.opening accounts) calls early mid := ran
    have ran' := ran.snoc stepped
    exact balanced.step (Solvency.run solvent inMemory ran) solvent.bounded ran.loaded
      (ran.never_undoing inMemory) (ran'.never_undoing inMemory) (ran.single single) stepped
  · intro id account found
    refine ⟨account, found, ?_⟩
    have nothing : (System.init (PaymentService.opening accounts) calls).unrecorded id = 0 := by
      apply sum_map_zero
      intro t member
      have is := (mem_init member).2
      unfold Thread.unrecorded
      rw [is]
    rw [nothing]
    simp [recorded, System.init, PaymentService.opening, InMemoryLedgerRepository.entriesFor]

/-! ## Transactions and the journal -/

namespace Pc

/-- The call has posted, and is capturing or captured. -/
def Posted : Pc → Prop
  | .capture _ => True
  | .save txn _ _ | .publish txn _ _ | .notify txn _ _ | .unlock txn _ | .finished txn _ =>
    txn.status = .captured
  | _ => False

end Pc

/-- Two entries, a debit of the amount on the payer and a credit of it on the payee. -/
def Paired (payer payee : String) (amount : Money) (entries : List LedgerEntry) : Prop :=
  ∃ debit credit, entries = [debit, credit] ∧
    (debit.direction = .debit ∧ debit.accountId = payer ∧ debit.amount = amount) ∧
    (credit.direction = .credit ∧ credit.accountId = payee ∧ credit.amount = amount)

theorem Paired.ne_nil {payer payee : String} {amount : Money} {entries : List LedgerEntry}
    (paired : Paired payer payee amount entries) : entries ≠ [] := by
  obtain ⟨debit, credit, is, -⟩ := paired
  rw [is]
  exact List.cons_ne_nil _ _

/-- The journal entries of a call: its pair once it has posted, else none. -/
structure Booked (c : Call) (pc : Pc) (id : String) (file : File) : Prop where
  shipped : c.env.Shipped
  posted : pc.Posted → Paired c.req.payerAccountId c.req.payeeAccountId c.req.amount file.entries
  unposted : ¬ pc.Posted → file.entries = []

theorem Fires.booked {c : Call} {s s' : PaymentService} {pc pc' : Pc} {id : String}
    (fired : Fires chain c s pc s' pc') (sound : Sound chain c pc) (won : pc.won = some id)
    (booked : Booked c pc id (s.file id)) : Booked c pc' id (s'.file id) := by
  obtain ⟨shipped, posted, unposted⟩ := booked
  -- a step that leaves the journal alone and neither posts nor fails after posting
  have again (entries : (s'.file id).entries = (s.file id).entries) (same : pc'.Posted ↔ pc.Posted) :
      Booked c pc' id (s'.file id) := by
    refine ⟨shipped, fun now => ?_, fun now => ?_⟩
    · rw [entries]
      exact posted (same.1 now)
    · rw [entries]
      exact unposted fun before => now (same.2 before)
  have failing {txn : Transaction} (err : Error)
      (status : txn.status = .initiated ∨ txn.status = .authorized) :
      (Pc.failing txn err).Posted ↔ False := by
    have failed : (advance txn .failed).status = .failed := by
      rcases status with is | is <;> simp [advance, is, canTransition, allowed, Transaction.setStatus]
    show (advance txn .failed).status = .captured ↔ False
    rw [failed]
    decide
  cases fired with
  | raised txn e threw =>
    refine again rfl ?_
    show txn.status = .captured ↔ False
    rw [Opened.status sound]
    decide
  | rejected txn v => exact again rfl (failing v.err (.inl (Opened.status sound)))
  | unloaded txn err => exact again rfl (failing err (.inl sound.1.status))
  | declined txn strategy e => exact again rfl (failing e (.inl sound.1.status))
  | refused f _ err => exact again rfl (failing err (.inr (congrArg Transaction.status sound.is)))
  | undebited f err => exact again rfl (failing err (.inr (congrArg Transaction.status sound.is)))
  | undebitedNowhere f err =>
    exact again rfl (failing err (.inr (congrArg Transaction.status sound.is)))
  | posted f debitId creditId debitSeq creditSeq ok =>
    cases won
    refine ⟨shipped, fun _ => ?_, fun never => absurd trivial never⟩
    have none_ : (s.journal.filter fun e => e.txnId = f.txn.id) = [] := unposted id
    refine ⟨⟨debitId, f.txn.id, c.req.payerAccountId, .debit, c.req.amount, debitSeq⟩,
      ⟨creditId, f.txn.id, c.req.payeeAccountId, .credit, c.req.amount, creditSeq⟩, ?_,
      ⟨rfl, rfl, rfl⟩, ⟨rfl, rfl, rfl⟩⟩
    simp [PaymentService.file, none_, postingOf]
  | uncaptured f err failed =>
    -- the shipped strategies never fail a capture
    obtain ⟨provider, tag, is⟩ := shipped.approves c.req.method
    rw [Option.some.inj (sound.supported.symm.trans is)] at failed
    cases failed
  | captured f ok =>
    refine again rfl ⟨fun _ => trivial, fun _ => ?_⟩
    show (advance f.txn .captured).status = .captured
    rw [sound.is]
    rfl
  | _ => exact again rfl Iff.rfl

theorem Reaches.booked {accounts : InMemoryAccountRepository} {calls : List Call}
    {sched : List Nat} {sys : System}
    (reached : Reaches chain (PaymentService.opening accounts) calls sched sys)
    (short : calls.length < 2 ^ 64) (shipped : ∀ c ∈ calls, c.env.Shipped) :
    Filewise Booked sys := by
  refine reached.filewise short ?_ ?_
  · intro c among id
    exact ⟨shipped c among, False.elim, fun _ => rfl⟩
  · intro c _ s pc s' pc' id sound fired won
    exact fired.booked sound won

/-! ## Quiescent states -/

/-- A call that has won its key and ended: it never built its transaction, or it
carries it to the end. -/
theorem ended_of_won {t : Thread} {id : String} (quiet : t.pc.outcome ≠ none ∨ t.pc = .start)
    (won : t.pc.won = some id) :
    (∃ e, t.pc = .unbuilt id e) ∨ ∃ txn out, t.pc = .finished txn out ∧ txn.id = id := by
  obtain ⟨c, pc⟩ := t
  cases pc with
  | unbuilt id' e =>
    cases won
    exact .inl ⟨e, rfl⟩
  | finished txn out =>
    cases won
    exact .inr ⟨txn, out, rfl, rfl⟩
  | start => cases won
  | lookup => cases won
  | replay => cases won
  | replied => cases won
  | claim => cases won
  | _ => rcases quiet with ended | begun <;> contradiction

theorem on_file_of_stored {s : PaymentService} {id : String} {txn : Transaction}
    (stored : s.transactions.lookup id = some txn) : s.file id ≠ File.blank := by
  intro blank
  have none_ : s.transactions.lookup id = none := congrArg File.transaction blank
  rw [none_] at stored
  cases stored

theorem on_file_of_entry {s : PaymentService} {e : LedgerEntry} (entered : e ∈ s.journal) :
    s.file e.txnId ≠ File.blank := by
  intro blank
  have none_ : (s.journal.filter fun e' => e'.txnId = e.txnId) = [] := congrArg File.entries blank
  exact List.filter_eq_nil_iff.1 none_ e entered (decide_eq_true rfl)

theorem on_file_of_event {s : PaymentService} {e : DomainEvent} (told : e ∈ s.events) :
    s.file e.aggregateId ≠ File.blank := by
  intro blank
  have none_ : (s.events.filter fun e' => e'.aggregateId = e.aggregateId) = [] :=
    congrArg File.events blank
  exact List.filter_eq_nil_iff.1 none_ e told (decide_eq_true rfl)

/-- Once no call is in flight, whatever is on file under an id was left by a call that
went through to its end, saved its transaction and told of it. -/
theorem Reaches.left_by {accounts : InMemoryAccountRepository} {calls : List Call}
    {sched : List Nat} {sys : System}
    (reached : Reaches chain (PaymentService.opening accounts) calls sched sys)
    (short : calls.length < 2 ^ 64) (shipped : ∀ c ∈ calls, c.env.Shipped) (quiet : sys.Quiescent)
    {id : String} (onFile : sys.service.file id ≠ File.blank) :
    ∃ (c : Call) (txn : Transaction), c.req.Asks txn ∧ txn.id = id ∧
      sys.service.transactions.lookup id = some txn ∧
      ((txn.status = .captured ∧ (sys.service.file id).events = [eventOf txn "PaymentCaptured"] ∧
          Paired txn.payerAccountId txn.payeeAccountId txn.amount (sys.service.file id).entries) ∨
        (txn.status = .failed ∧ (sys.service.file id).events = [eventOf txn "PaymentFailed"] ∧
          (sys.service.file id).entries = [])) := by
  have settled := reached.settled short
  have booked := reached.booked short shipped
  obtain ⟨t, member, won⟩ : ∃ t ∈ sys.threads, t.pc.won = some id := by
    by_contra nobody
    exact onFile (settled.others id fun t member won => nobody ⟨t, member, won⟩)
  obtain ⟨i, there⟩ := List.mem_iff_getElem?.1 member
  obtain ⟨transaction, events⟩ := settled.own i t there id won
  obtain ⟨-, posted, unposted⟩ := booked.own i t there id won
  have sound := reached.sound t member
  -- a call that saved nothing left a blank file
  have blank (saved : t.pc.saved = none) (published : t.pc.published = []) (unposted' : ¬ t.pc.Posted) :
      sys.service.file id = File.blank := by
    have entries := unposted unposted'
    have all : sys.service.file id = ⟨(sys.service.file id).transaction,
      (sys.service.file id).entries, (sys.service.file id).events⟩ := rfl
    rw [all, transaction, events, entries, saved, published]
    rfl
  rcases ended_of_won (quiet t member) won with ⟨e, is⟩ | ⟨txn, out, is, own⟩
  · rw [is] at blank
    exact absurd (blank rfl rfl not_false) onFile
  · rw [is] at sound transaction events posted unposted blank
    have closed : Closed chain t.call txn out := sound
    cases closed with
    | threw e opened ran =>
      refine absurd (blank ?_ ?_ ?_) onFile
      · simp [Pc.saved, opened.status]
      · simp [Pc.published, opened.status]
      · simp [Pc.Posted, opened.status]
    | told type res closing =>
      have asks : t.call.req.Asks txn := sound.asks rfl
      refine ⟨t.call, txn, asks, own, ?_, ?_⟩
      · show (sys.service.file id).transaction = some txn
        rcases closing.status with ⟨status, -⟩ | ⟨status, -⟩ <;>
          simpa [Pc.saved, status] using transaction
      · rcases closing.status with ⟨status, -⟩ | ⟨status, -⟩
        · refine .inr ⟨status, by simpa [Pc.published, status] using events, unposted ?_⟩
          simp [Pc.Posted, status]
        · refine .inl ⟨status, by simpa [Pc.published, status] using events, ?_⟩
          have paired := posted status
          rw [← asks.payer, ← asks.payee, ← asks.amount] at paired
          exact paired

/-- **Balances, journal, transaction store and event log agree** in every state
without a call in flight.  Each balance is its opening balance and what the journal
records for it; each stored transaction is captured, with its pair in the journal and
one `PaymentCaptured` event, or failed, with no entry and one `PaymentFailed` event; and
no entry or event is about anything else. -/
theorem books_agree {accounts : InMemoryAccountRepository} {calls : List Call} {sched : List Nat}
    {sys : System} {ccy : Currency} (solvent : Solvent accounts)
    (single : ∀ id account, accounts.lookup id = some account → account.balance.currency = ccy)
    (shipped : ∀ c ∈ calls, c.env.Shipped) (short : calls.length < 2 ^ 64)
    (reached : Reaches chain (PaymentService.opening accounts) calls sched sys)
    (quiet : sys.Quiescent) :
    (∀ id account, sys.service.accounts.lookup id = some account →
      ∃ opened, accounts.lookup id = some opened ∧
        account.balance.minorUnits.toInt =
          opened.balance.minorUnits.toInt + recorded id sys.service.journal) ∧
    (∀ id txn, sys.service.transactions.lookup id = some txn →
      (txn.status = .captured ∨ txn.status = .failed) ∧
      (txn.status = .captured ↔ Paired txn.payerAccountId txn.payeeAccountId txn.amount
        (sys.service.journal.filter fun e => e.txnId = txn.id)) ∧
      (txn.status = .failed ↔ (sys.service.journal.filter fun e => e.txnId = txn.id) = []) ∧
      (sys.service.events.filter fun e => e.aggregateId = txn.id) =
        [eventOf txn (if txn.status = .captured then "PaymentCaptured" else "PaymentFailed")]) ∧
    (∀ e ∈ sys.service.journal, (sys.service.transactions.lookup e.txnId).isSome) ∧
    ∀ e ∈ sys.service.events, (sys.service.transactions.lookup e.aggregateId).isSome := by
  refine ⟨?_, ?_, ?_, ?_⟩
  · intro id account found
    obtain ⟨opened, was, is⟩ :=
      reached.balanced solvent single (fun c among => (shipped c among).ledger) id account found
    refine ⟨opened, was, ?_⟩
    rw [quiet.unrecorded, add_zero] at is
    exact is
  · intro id txn stored
    obtain ⟨c, txn', -, rfl, stored', story⟩ :=
      reached.left_by short shipped quiet (on_file_of_stored stored)
    cases stored.symm.trans stored'
    rcases story with ⟨status, events, entries⟩ | ⟨status, events, entries⟩
    · refine ⟨.inl status, iff_of_true status entries, ?_, ?_⟩
      · rw [status]
        exact iff_of_false (by decide) entries.ne_nil
      · rw [if_pos status]
        exact events
    · replace entries : (sys.service.journal.filter fun e => e.txnId = txn.id) = [] := entries
      have different : txn.status ≠ .captured := by
        rw [status]
        decide
      refine ⟨.inr status, ?_, iff_of_true status entries, ?_⟩
      · exact iff_of_false different fun paired => paired.ne_nil entries
      · rw [if_neg different]
        exact events
  · intro e entered
    obtain ⟨c, txn, -, -, stored, -⟩ :=
      reached.left_by short shipped quiet (on_file_of_entry entered)
    rw [stored]
    rfl
  · intro e told
    obtain ⟨c, txn, -, -, stored, -⟩ :=
      reached.left_by short shipped quiet (on_file_of_event told)
    rw [stored]
    rfl

theorem inr_userAndMerchant : ∀ id account, userAndMerchant.lookup id = some account →
    account.balance.currency = .inr := by
  have entries : ∀ e ∈ userAndMerchant.entries, e.2.balance.currency = .inr := by decide
  exact fun id account found => entries ⟨id, account⟩ (AList.mem_lookup_iff.1 found)

/-- A payment, one that is short of funds and one in another currency, interleaved. -/
theorem books_agree_interleaved : ∃ sys, Reaches mainChain
    (PaymentService.opening userAndMerchant)
    [upiCall "key-3" "u" "m" 30000, upiCall "key-2" "m" "u" 4000000, usdCall]
    ([1, 0, 2, 2, 1, 1, 1, 1, 1, 1, 1, 1, 2, 2] ++ List.replicate 19 0 ++ List.replicate 4 1 ++
      List.replicate 3 2) sys ∧
    ∀ e ∈ sys.service.journal, (sys.service.transactions.lookup e.txnId).isSome := by
  have ran : (exec (System.step mainChain)
      (System.init (PaymentService.opening userAndMerchant)
        [upiCall "key-3" "u" "m" 30000, upiCall "key-2" "m" "u" 4000000, usdCall])
      ([1, 0, 2, 2, 1, 1, 1, 1, 1, 1, 1, 1, 2, 2] ++ List.replicate 19 0 ++ List.replicate 4 1 ++
        List.replicate 3 2)).any
        (fun sys => sys.threads.all fun t => t.pc.outcome.isSome) = true := by decide +kernel
  obtain ⟨sys, reached, ended⟩ := exec_any ran
  have quiet : sys.Quiescent := (System.complete_of_all ended).quiescent
  have shipped : ∀ c ∈ [upiCall "key-3" "u" "m" 30000, upiCall "key-2" "m" "u" 4000000, usdCall],
      c.env.Shipped := by
    intro c among
    simp only [List.mem_cons, List.not_mem_nil, or_false] at among
    rcases among with rfl | rfl | rfl <;> exact Env.shipped_shipped 0
  exact ⟨sys, reached, (books_agree solvent_userAndMerchant inr_userAndMerchant shipped (by decide)
    reached quiet).2.2.1⟩

end PaymentSystem.Service
