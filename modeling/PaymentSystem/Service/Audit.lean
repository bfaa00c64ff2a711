/-
# PaymentSystem.Service.Audit -- what the journal proves at any moment

`books_agree` waits until no call is in flight.  An auditor does not: these hold between
any two steps of any calls.

* `journal_audits`: no two entries share an id, the trial balance is zero in every
  currency, and every entry is one side of a payment that the chain let through and the
  gateway authorized; whatever the chain, the strategies and the ledger are.
* `accounts_reconcile`: an account that no call in flight names has what it opened with and
  what the journal records for it, whatever the calls in flight do to the others.
-/
import PaymentSystem.Service.Books
import PaymentSystem.Service.Sequence
import PaymentSystem.Adapters.Ledger

namespace PaymentSystem.Service

open PaymentSystem.Common
open PaymentSystem.Domain
open PaymentSystem.Patterns
open PaymentSystem.Adapters
open PaymentSystem.Adapters.InMemoryLedgerRepository
open PaymentSystem.Infra
open PaymentSystem.Theory.Runs
open PaymentSystem.Theory.Threads

set_option autoImplicit false

variable {chain : ValidationChain}

/-! ## Ids of entries -/

namespace Pc

/-- The entry ids a call has drawn and not posted. -/
def stamps : Pc → List String
  | .drawDebitSeq _ debitId | .drawCreditId _ debitId _ => [debitId]
  | .drawCreditSeq _ debitId creditId _ | .post _ debitId creditId _ _ => [debitId, creditId]
  | _ => []

/-- How many entry ids a call may still draw. -/
def toStamp : Pc → Int
  | .start | .claim _ | .build _ | .mutexFor _ | .lock _ | .validate _ | .load _ | .authorize _ _
  | .debit _ | .credit _ | .drawDebitId _ => 2
  | .drawDebitSeq _ _ | .drawCreditId _ _ _ => 1
  | _ => 0

theorem toStamp_nonneg (pc : Pc) : 0 ≤ pc.toStamp := by
  cases pc <;> simp [toStamp]

end Pc

/-- Every entry id that is in use, drawn or posted. -/
def System.stamps (sys : System) : List String :=
  (sys.threads.map fun t => t.pc.stamps).flatten ++ sys.service.journal.map LedgerEntry.entryId

/-- **What a step does to the entry ids**: it draws one, or it posts or drops what it
holds. -/
theorem Fires.stamps {c : Call} {s s' : PaymentService} {pc pc' : Pc}
    (fired : Fires chain c s pc s' pc') :
    (pc'.stamps = pc.stamps ++ [s.entryIds.next.1] ∧ s'.entryIds = s.entryIds.next.2 ∧
        s'.journal = s.journal ∧ pc'.toStamp = pc.toStamp - 1) ∨
      (s'.entryIds = s.entryIds ∧ pc'.toStamp ≤ pc.toStamp ∧ ∃ more,
        s'.journal = s.journal ++ more ∧
          (pc'.stamps ++ more.map LedgerEntry.entryId).Sublist pc.stamps) := by
  cases fired with
  | drewDebitId => exact .inl ⟨rfl, rfl, rfl, rfl⟩
  | drewCreditId => exact .inl ⟨rfl, rfl, rfl, rfl⟩
  | posted => exact .inr ⟨rfl, le_refl _, _, rfl, List.Sublist.refl _⟩
  | drewDebitSeq => exact .inr ⟨rfl, le_refl _, [], (List.append_nil _).symm, List.Sublist.refl _⟩
  | drewCreditSeq => exact .inr ⟨rfl, le_refl _, [], (List.append_nil _).symm, List.Sublist.refl _⟩
  | _ =>
    exact .inr ⟨rfl, by first | exact le_refl _ | exact Pc.toStamp_nonneg _, [],
      (List.append_nil _).symm, List.nil_sublist _⟩

/-- The generator has been asked `n` times, and no id it gave out is in use twice. -/
structure Stamped (n : Nat) (sys : System) : Prop where
  counter : sys.service.entryIds = IdGenerator.drawn "le" 1 n
  room : n + (sys.threads.map fun t => t.pc.toStamp).sum ≤ 2 * sys.threads.length
  within : ∀ id ∈ sys.stamps, ∃ k < n, id = IdGenerator.idOf "le" (UInt64.ofNat (1 + k))
  nodup : sys.stamps.Nodup

section Stamps

variable {n : Nat} {sys sys' : System} {i : Nat}

theorem Stamped.le (stamped : Stamped n sys) : n ≤ 2 * sys.threads.length := by
  have room := stamped.room
  have rest : 0 ≤ (sys.threads.map fun t => t.pc.toStamp).sum :=
    sum_map_nonneg fun t _ => t.pc.toStamp_nonneg
  omega

/-- The next id is one that nobody uses. -/
theorem Stamped.fresh (stamped : Stamped n sys) (short : sys.threads.length < 2 ^ 63) :
    sys.service.entryIds.next.1 ∉ sys.stamps := by
  intro used
  obtain ⟨k, before, is⟩ := stamped.within _ used
  have le := stamped.le
  rw [stamped.counter, IdGenerator.drawn_next] at is
  have same : n = k := IdGenerator.idOf_injective (by omega) (by omega) is
  omega

theorem Stamped.step (stamped : Stamped n sys) (short : sys.threads.length < 2 ^ 63)
    (stepped : System.step chain sys i = some sys') : ∃ n', Stamped n' sys' := by
  obtain ⟨c, pc, pc', at_, fired, threads⟩ := step_fires stepped
  have placed : (sys.threads.map fun t => t.pc.stamps)[i]? = some pc.stamps := by
    rw [List.getElem?_map, at_]
    rfl
  obtain ⟨others, before, after⟩ := perm_flatten_others placed
  have after : (sys'.threads.map fun t => t.pc.stamps).flatten.Perm (pc'.stamps ++ others) := by
    rw [threads, List.map_set]
    exact after _
  have room := stamped.room
  have mover : 0 ≤ pc'.toStamp := pc'.toStamp_nonneg
  rcases fired.stamps with ⟨stamps, drew, journal, one⟩ | ⟨counter, fewer, more, journal, kept⟩
  · -- the new id besides all those in use
    have all : sys'.stamps.Perm (sys.service.entryIds.next.1 :: sys.stamps) := by
      rw [System.stamps, System.stamps, journal, ← List.cons_append]
      refine List.Perm.append_right _ (after.trans ?_)
      rw [stamps, List.append_assoc]
      exact List.perm_middle.trans (before.symm.cons _)
    refine ⟨n + 1, ?_, ?_, ?_, ?_⟩
    · rw [drew, stamped.counter, IdGenerator.drawn_next]
    · rw [threads, List.length_set, sum_map_set at_ fun t => t.pc.toStamp]
      simp only [one]
      omega
    · intro id used
      rcases List.mem_cons.1 (all.mem_iff.1 used) with rfl | earlier
      · exact ⟨n, by omega, by rw [stamped.counter, IdGenerator.drawn_next]⟩
      · obtain ⟨k, drawn, is⟩ := stamped.within id earlier
        exact ⟨k, by omega, is⟩
    · exact all.nodup_iff.2 (List.nodup_cons.2 ⟨stamped.fresh short, stamped.nodup⟩)
  · -- what is in use after the step was in use before it
    have fewer_ : sys'.stamps.Subperm sys.stamps := by
      have left : sys'.stamps.Perm ((pc'.stamps ++ more.map LedgerEntry.entryId) ++
          (others ++ sys.service.journal.map LedgerEntry.entryId)) := by
        rw [System.stamps, journal, List.map_append]
        refine (after.append_right _).trans ?_
        rw [List.append_assoc, List.append_assoc]
        refine List.Perm.append_left _ ?_
        rw [← List.append_assoc, ← List.append_assoc]
        exact List.perm_append_comm.trans (by rw [List.append_assoc])
      have right : sys.stamps.Perm (pc.stamps ++
          (others ++ sys.service.journal.map LedgerEntry.entryId)) := by
        rw [System.stamps, ← List.append_assoc]
        exact before.append_right _
      exact left.subperm.trans ((kept.append_right _).subperm.trans right.symm.subperm)
    refine ⟨n, ?_, ?_, ?_, ?_⟩
    · rw [counter, stamped.counter]
    · rw [threads, List.length_set, sum_map_set at_ fun t => t.pc.toStamp]
      simp only
      omega
    · exact fun id used => stamped.within id (fewer_.subset used)
    · obtain ⟨l, same, within⟩ := fewer_
      exact same.nodup_iff.1 (stamped.nodup.sublist within)

end Stamps

/-- **Fewer than `2 ^ 63` calls never use an entry id twice.** -/
theorem Reaches.stamped {accounts : InMemoryAccountRepository} {calls : List Call}
    {sched : List Nat} {sys : System}
    (reached : Reaches chain (PaymentService.opening accounts) calls sched sys)
    (short : calls.length < 2 ^ 63) : ∃ n, Stamped n sys := by
  refine exec_induct_reached (fun sys => ∃ n, Stamped n sys) ?_ ?_ reached
  · rintro early mid i mid' ran ⟨n, stamped⟩ stepped
    have ran : Reaches chain (PaymentService.opening accounts) calls early mid := ran
    exact stamped.step (by rw [length_threads ran]; exact short) stepped
  · have none_ : (System.init (PaymentService.opening accounts) calls).stamps = [] := by
      simp [System.stamps, System.init, PaymentService.opening, Pc.stamps]
    refine ⟨0, rfl, ?_, by rw [none_]; exact fun id used => absurd used List.not_mem_nil,
      by rw [none_]; exact List.nodup_nil⟩
    have each : (System.init (PaymentService.opening accounts) calls).threads.map
        (fun t => t.pc.toStamp) = List.replicate calls.length 2 := by
      rw [List.eq_replicate_iff]
      refine ⟨by simp [System.init], fun m member => ?_⟩
      obtain ⟨t, there, rfl⟩ := List.mem_map.1 member
      rw [(mem_init there).2]
      rfl
    rw [each, List.sum_replicate]
    simp [System.init]
    omega

/-! ## The trial balance -/

/-- A posting is in one currency, and its two sides cancel. -/
theorem exactSumIn_posting (ccy : Currency) (req : PaymentRequest) (txnId debitId creditId : String)
    (debitSeq creditSeq : Int64) :
    exactSumIn ccy (postingOf req txnId debitId creditId debitSeq creditSeq) = 0 := by
  have uniform : Uniform req.amount.currency
      (postingOf req txnId debitId creditId debitSeq creditSeq) := by
    intro e member
    simp only [postingOf, List.mem_cons, List.not_mem_nil, or_false] at member
    rcases member with rfl | rfl <;> rfl
  have cancels : exactSum (postingOf req txnId debitId creditId debitSeq creditSeq) = 0 := by
    simp [exactSum, postingOf, exactAmount]
  rw [uniform.exactSumIn, cancels, ite_self]

theorem Reaches.trial_balance {service : PaymentService} {calls : List Call} {sched : List Nat}
    {sys : System} (reached : Reaches chain service calls sched sys) (ccy : Currency) :
    exactSumIn ccy sys.service.journal = exactSumIn ccy service.journal := by
  refine exec_induct (fun sys => exactSumIn ccy sys.service.journal = exactSumIn ccy service.journal)
    ?_ rfl reached
  intro sys i sys' before stepped
  obtain ⟨c, pc, pc', -, fired, -⟩ := step_fires stepped
  rcases fired.journal with same | ⟨f, debitId, creditId, debitSeq, creditSeq, -, -, grown⟩
  · rw [same, before]
  · rw [grown, exactSumIn_append, exactSumIn_posting, add_zero, before]

/-! ## Who vouches for an entry -/

/-- The chain let the transaction of the call through and its gateway authorized it. -/
structure Approved (chain : ValidationChain) (c : Call) (id : String) : Prop where
  cleared : Cleared chain (c.txn id .initiated)
  authorized : ∃ strategy ref, c.env.strategies c.req.method = some strategy ∧
    strategy.authorize (c.txn id .initiated) = .ok ref

/-- The entry is one side of what the request asks for. -/
def PaymentRequest.Bears (req : PaymentRequest) (e : LedgerEntry) : Prop :=
  e.amount = req.amount ∧
    e.accountId = match e.direction with
      | .debit => req.payerAccountId
      | .credit => req.payeeAccountId

/-- Whatever is entered under the id of a call was approved, and is what its request asks for. -/
def Vouched (chain : ValidationChain) (c : Call) (_ : Pc) (id : String) (file : File) : Prop :=
  ∀ e ∈ file.entries, Approved chain c id ∧ c.req.Bears e

theorem Fires.vouched {c : Call} {s s' : PaymentService} {pc pc' : Pc} {id : String}
    (fired : Fires chain c s pc s' pc') (sound : Sound chain c pc) (won : pc.won = some id)
    (vouched : Vouched chain c pc id (s.file id)) : Vouched chain c pc' id (s'.file id) := by
  intro e entered
  obtain ⟨journaled, own⟩ := List.mem_filter.1 entered
  have before (there : e ∈ s.journal) : Approved chain c id ∧ c.req.Bears e :=
    vouched e (List.mem_filter.2 ⟨there, own⟩)
  rcases fired.journal with same | ⟨f, debitId, creditId, debitSeq, creditSeq, rfl, -, grown⟩
  · exact before (same ▸ journaled)
  · rw [grown, List.mem_append] at journaled
    rcases journaled with there | posted
    · exact before there
    · cases won
      have flying : Flying chain c f := sound
      refine ⟨⟨flying.cleared, f.strategy, f.ref, flying.supported, flying.approved⟩, ?_⟩
      simp only [postingOf, List.mem_cons, List.not_mem_nil, or_false] at posted
      rcases posted with rfl | rfl <;> exact ⟨rfl, rfl⟩

theorem Reaches.vouched {accounts : InMemoryAccountRepository} {calls : List Call}
    {sched : List Nat} {sys : System}
    (reached : Reaches chain (PaymentService.opening accounts) calls sched sys)
    (short : calls.length < 2 ^ 64) : Filewise (Vouched chain) sys := by
  refine reached.filewise short ?_ ?_
  · exact fun c _ id e entered => absurd entered List.not_mem_nil
  · intro c _ s pc s' pc' id sound fired won
    exact fired.vouched sound won

/-- **The journal can be audited at any moment.**  Whatever the chain, the strategies and
the ledgers: no two entries share an id; in every currency debits and credits cancel
exactly; and every entry is one side of the payment of a call that won its key, and that
the chain let through and the gateway authorized. -/
theorem journal_audits {accounts : InMemoryAccountRepository} {calls : List Call}
    {sched : List Nat} {sys : System}
    (reached : Reaches chain (PaymentService.opening accounts) calls sched sys)
    (short : calls.length < 2 ^ 63) :
    (sys.service.journal.map LedgerEntry.entryId).Nodup ∧
      (∀ ccy, exactSumIn ccy sys.service.journal = 0) ∧
      ∀ e ∈ sys.service.journal, ∃ t ∈ sys.threads, t.pc.won = some e.txnId ∧
        Approved chain t.call e.txnId ∧ t.call.req.Bears e := by
  refine ⟨?_, fun ccy => reached.trial_balance ccy, fun e entered => ?_⟩
  · obtain ⟨n, stamped⟩ := reached.stamped short
    exact (List.nodup_append.1 stamped.nodup).2.1
  · have vouched := reached.vouched (by omega)
    obtain ⟨t, member, won⟩ : ∃ t ∈ sys.threads, t.pc.won = some e.txnId := by
      by_contra nobody
      exact on_file_of_entry entered
        (vouched.others _ fun t member won => nobody ⟨t, member, won⟩)
    obtain ⟨i, at_⟩ := List.mem_iff_getElem?.1 member
    exact ⟨t, member, won, vouched.own i t at_ _ won e
      (List.mem_filter.2 ⟨entered, decide_eq_true rfl⟩)⟩

/-- Two payments, one posted and not yet captured, the other between its two ids. -/
theorem journal_audits_midway : ∃ sys, Reaches mainChain (PaymentService.opening userAndMerchant)
    [upiCall "key-1" "u" "m" 30000, upiCall "key-2" "m" "u" 500]
    (List.replicate 10 0 ++ List.replicate 11 1 ++ List.replicate 5 0) sys ∧
    sys.service.journal.length = 2 ∧ (sys.service.journal.map LedgerEntry.entryId).Nodup ∧
    ∀ ccy, exactSumIn ccy sys.service.journal = 0 := by
  have ran : (exec (System.step mainChain) (System.init (PaymentService.opening userAndMerchant)
      [upiCall "key-1" "u" "m" 30000, upiCall "key-2" "m" "u" 500])
      (List.replicate 10 0 ++ List.replicate 11 1 ++ List.replicate 5 0)).any
        (fun sys => decide (sys.service.journal.length = 2)) = true := by decide +kernel
  obtain ⟨sys, reached, two⟩ := exec_any ran
  obtain ⟨nodup, balances, -⟩ := journal_audits reached (by decide)
  exact ⟨sys, reached, of_decide_eq_true two, nodup, balances⟩

/-! ## Accounts at rest -/

/-- No call in flight moves money from or to the account. -/
def System.AtRest (sys : System) (id : String) : Prop :=
  ∀ t ∈ sys.threads, t.pc.InFlight → ¬ t.call.req.Touches id

/-- A call that is not in flight, or not about the account, has nothing unrecorded there. -/
theorem Thread.unrecorded_zero {t : Thread} {id : String}
    (rest : t.pc.InFlight → ¬ t.call.req.Touches id) : t.unrecorded id = 0 := by
  obtain ⟨c, pc⟩ := t
  have apart (flying : pc.InFlight) : c.req.payerAccountId ≠ id ∧ c.req.payeeAccountId ≠ id :=
    ⟨fun payer => rest flying (.inl payer.symm), fun payee => rest flying (.inr payee.symm)⟩
  cases pc with
  | credit f => simp [Thread.unrecorded, apart ⟨rfl, nofun⟩]
  | drawDebitId f => simp [Thread.unrecorded, apart ⟨rfl, nofun⟩]
  | drawDebitSeq f debitId => simp [Thread.unrecorded, apart ⟨rfl, nofun⟩]
  | drawCreditId f debitId debitSeq => simp [Thread.unrecorded, apart ⟨rfl, nofun⟩]
  | drawCreditSeq f debitId creditId debitSeq => simp [Thread.unrecorded, apart ⟨rfl, nofun⟩]
  | post f debitId creditId debitSeq creditSeq => simp [Thread.unrecorded, apart ⟨rfl, nofun⟩]
  | _ => rfl

/-- **An account at rest reconciles with the journal**, though other accounts may not: it
has what it opened with and what the journal records for it.  Accounts in one currency,
the in-memory ledger, and any chain, strategies and subscribers. -/
theorem accounts_reconcile {accounts : InMemoryAccountRepository} {calls : List Call}
    {sched : List Nat} {sys : System} {ccy : Currency} (solvent : Solvent accounts)
    (single : SingleCurrency ccy accounts)
    (inMemory : ∀ c ∈ calls, c.env.ledger = inMemoryLedgerRepository)
    (reached : Reaches chain (PaymentService.opening accounts) calls sched sys) {id : String}
    {account : Account} (found : sys.service.accounts.lookup id = some account)
    (rest : sys.AtRest id) :
    ∃ opened, accounts.lookup id = some opened ∧
      account.balance.minorUnits.toInt =
        opened.balance.minorUnits.toInt + recorded id sys.service.journal := by
  obtain ⟨opened, was, is⟩ := reached.balanced solvent single inMemory id account found
  have nothing : sys.unrecorded id = 0 :=
    sum_map_zero fun t member => Thread.unrecorded_zero (rest t member)
  rw [nothing, add_zero] at is
  exact ⟨opened, was, is⟩

/-- The wallet after its payment, while a call about another account is under way. -/
theorem accounts_reconcile_wallet : ∃ sys, Reaches mainChain
    (PaymentService.opening userAndMerchant)
    [upiCall "key-1" "u" "m" 30000, upiCall "key-2" "x" "m" 500]
    (List.replicate 6 1 ++ List.replicate 20 0) sys ∧
    sys.service.locks.Held "account:x" ∧
    ∃ account, sys.service.accounts.lookup "u" = some account ∧
      ∃ opened, userAndMerchant.lookup "u" = some opened ∧ account.balance.minorUnits.toInt =
        opened.balance.minorUnits.toInt + recorded "u" sys.service.journal := by
  have ran : (exec (System.step mainChain) (System.init (PaymentService.opening userAndMerchant)
      [upiCall "key-1" "u" "m" 30000, upiCall "key-2" "x" "m" 500])
      (List.replicate 6 1 ++ List.replicate 20 0)).any
        (fun sys => (sys.service.accounts.lookup "u").isSome &&
          (decide (sys.service.locks.Held "account:x") && sys.threads.all fun t =>
            t.pc.outcome.isSome || decide (¬ t.call.req.Touches "u"))) = true := by decide +kernel
  obtain ⟨sys, reached, found⟩ := exec_any ran
  obtain ⟨there, found⟩ := Bool.and_eq_true_iff.1 found
  obtain ⟨held, others⟩ := Bool.and_eq_true_iff.1 found
  obtain ⟨account, there⟩ := Option.isSome_iff_exists.1 there
  have rest : sys.AtRest "u" := by
    intro t member flying
    rcases Bool.or_eq_true_iff.1 (List.all_eq_true.1 others t member) with ended | apart
    · rw [flying.1] at ended
      cases ended
    · exact of_decide_eq_true apart
  have inMemory : ∀ c ∈ [upiCall "key-1" "u" "m" 30000, upiCall "key-2" "x" "m" 500],
      c.env.ledger = inMemoryLedgerRepository := by
    intro c among
    simp only [List.mem_cons, List.not_mem_nil, or_false] at among
    rcases among with rfl | rfl <;> rfl
  exact ⟨sys, reached, of_decide_eq_true held, account, there,
    accounts_reconcile solvent_userAndMerchant inr_userAndMerchant inMemory reached there rest⟩

end PaymentSystem.Service
