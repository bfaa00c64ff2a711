/-
# PaymentSystem.Service.Solvency -- no overdraft, no overflow

No operation on money checks for overflow, so that none happens is a fact about all
accounts together: within each currency, the balances and what is in transit between
a debit and its credit never exceed what the accounts opened with (`Solvency`).

* `Loaded`: what a call has checked about its accounts and its amount stays true.
* `Solvency.run`: the invariant, for any chain, strategies and subscribers over the
  in-memory ledger.
* `no_overdraft_no_overflow`: every balance in range and every operation exact.
-/
import PaymentSystem.Service.Locals
import PaymentSystem.Theory.Keyed

namespace PaymentSystem.Service

open PaymentSystem.Common
open PaymentSystem.Domain
open PaymentSystem.Patterns
open PaymentSystem.Adapters
open PaymentSystem.Theory.Keyed
open PaymentSystem.Theory.MachineInt
open PaymentSystem.Theory.Runs
open PaymentSystem.Theory.Threads

set_option autoImplicit false

variable {chain : ValidationChain}

/-! ## What has been checked -/

namespace Pc

/-- Program points after both accounts were found. -/
def AtAccounts : Pc → Prop
  | .authorize _ _ | .debit _ | .credit _ | .drawDebitId _ | .drawDebitSeq _ _ | .drawCreditId _ _ _
  | .drawCreditSeq _ _ _ _ | .post _ _ _ _ _ | .undoCredit _ _ | .undoDebit _ _ => True
  | _ => False

/-- Program points after the payer was debited, up to the end of any compensation. -/
def Moving : Pc → Prop
  | .credit _ | .drawDebitId _ | .drawDebitSeq _ _ | .drawCreditId _ _ _
  | .drawCreditSeq _ _ _ _ | .post _ _ _ _ _ | .undoCredit _ _ | .undoDebit _ _ => True
  | _ => False

/-- Program points of the compensation. -/
def Undoing : Pc → Prop
  | .undoCredit _ _ | .undoDebit _ _ => True
  | _ => False

end Pc

/-- The accounts a call has found are there, and an amount it has debited is
nonnegative and in the currency of its payer. -/
structure Loaded (s : PaymentService) (t : Thread) : Prop where
  accounts : t.pc.AtAccounts →
    s.ccyAt t.call.req.payerAccountId ≠ none ∧ s.ccyAt t.call.req.payeeAccountId ≠ none
  amount : t.pc.Moving → s.ccyAt t.call.req.payerAccountId = some t.call.req.amount.currency ∧
    0 ≤ t.call.req.amount.minorUnits.toInt

theorem ccyAt_of_found {s : PaymentService} {id : String} {account : Account}
    (found : s.accounts.lookup id = some account) :
    s.ccyAt id = some account.balance.currency := by
  simp [PaymentService.ccyAt, found]

theorem ccyAt_eq_none {s : PaymentService} {id : String} :
    s.ccyAt id = none ↔ s.accounts.lookup id = none := by
  simp [PaymentService.ccyAt]

theorem Fires.keeps_loaded {c : Call} {s s' : PaymentService} {pc pc' : Pc}
    (fired : Fires chain c s pc s' pc') (loaded : Loaded s ⟨c, pc⟩) : Loaded s' ⟨c, pc'⟩ := by
  have kept : ∀ id, s'.ccyAt id = s.ccyAt id := fired.ccyAt
  have again (accounts : pc'.AtAccounts → pc.AtAccounts) (amount : pc'.Moving → pc.Moving) :
      Loaded s' ⟨c, pc'⟩ := by
    refine ⟨fun there => ?_, fun there => ?_⟩
    · rw [kept, kept]
      exact loaded.accounts (accounts there)
    · rw [kept]
      exact loaded.amount (amount there)
  cases fired with
  | loaded txn strategy payer payee supported =>
    refine ⟨fun _ => ⟨fun none_ => ?_, fun none_ => ?_⟩, nofun⟩
    · rw [ccyAt_eq_none.1 none_] at payer
      cases payer
    · rw [ccyAt_eq_none.1 none_] at payee
      cases payee
  | debited f account found can =>
    refine ⟨fun _ => ?_, fun _ => ⟨?_, can.1.2⟩⟩
    · rw [kept, kept]
      exact loaded.accounts trivial
    · rw [kept, ccyAt_of_found found]
      exact congrArg some can.1.1.symm
  | debitedNowhere f missing =>
    exact absurd (ccyAt_eq_none.2 missing) (loaded.accounts trivial).1
  | _ =>
    refine again (fun there => ?_) (fun there => ?_)
    · first | exact there | exact False.elim there
    · first | exact there | exact False.elim there

theorem Reaches.loaded {service : PaymentService} {calls : List Call} {sched : List Nat}
    {sys : System} (reached : Reaches chain service calls sched sys) :
    ∀ t ∈ sys.threads, Loaded sys.service t := by
  refine (interleaving chain).agentwise (P := Loaded) ?_ ?_ ?_ reached
  · rintro s ⟨c, pc⟩ s' ⟨c', pc'⟩ ⟨same, fired⟩ loaded
    obtain rfl : c' = c := same
    exact fired.keeps_loaded loaded
  · rintro s t s' t' u ⟨-, fired⟩ - theirs
    refine ⟨fun there => ?_, fun there => ?_⟩
    · rw [fired.ccyAt, fired.ccyAt]
      exact theirs.accounts there
    · rw [fired.ccyAt]
      exact theirs.amount there
  · intro t member
    have is := (mem_init member).2
    refine ⟨fun there => ?_, fun there => ?_⟩
    · rw [is] at there
      cases there
    · rw [is] at there
      cases there

/-- Which accounts there are, and their currencies, are as they were opened. -/
theorem Reaches.ccyAt {service : PaymentService} {calls : List Call} {sched : List Nat}
    {sys : System} (reached : Reaches chain service calls sched sys) (id : String) :
    sys.service.ccyAt id = service.ccyAt id := by
  refine exec_induct (fun sys => sys.service.ccyAt id = service.ccyAt id) ?_ rfl reached
  intro sys i sys' same stepped
  obtain ⟨c, pc, pc', -, fired, -⟩ := step_fires stepped
  exact (fired.ccyAt id).trans same

/-- All accounts are held in one currency. -/
def SingleCurrency (ccy : Currency) (accounts : InMemoryAccountRepository) : Prop :=
  ∀ id account, accounts.lookup id = some account → account.balance.currency = ccy

/-- Accounts opened in one currency stay in it. -/
theorem Reaches.single {ccy : Currency} {service : PaymentService} {calls : List Call}
    {sched : List Nat} {sys : System} (reached : Reaches chain service calls sched sys)
    (single : SingleCurrency ccy service.accounts) : SingleCurrency ccy sys.service.accounts := by
  intro id account found
  have same := reached.ccyAt id
  rw [ccyAt_of_found found] at same
  obtain ⟨opened, was, is⟩ := Option.map_eq_some_iff.1 same.symm
  rw [← is]
  exact single id opened was

/-- Among accounts of one currency, a call that has debited its payer can credit any. -/
theorem Loaded.creditable {ccy : Currency} {s : PaymentService} {c : Call} {pc : Pc}
    (loaded : Loaded s ⟨c, pc⟩) (moving : pc.Moving) (single : SingleCurrency ccy s.accounts)
    {id : String} {account : Account} (found : s.accounts.lookup id = some account) :
    account.Creditable c.req.amount := by
  obtain ⟨same, nonneg⟩ := loaded.amount moving
  obtain ⟨payer, there, held⟩ := Option.map_eq_some_iff.1 same
  refine ⟨?_, nonneg⟩
  rw [single id account found, ← single _ payer there]
  exact held.symm

/-! ## The in-memory ledger accepts every pair -/

theorem net_pair (n : Int64) : n * -1 + n = 0 := by grind

theorem inMemory_accepts (journal : Journal) (req : PaymentRequest)
    (txnId debitId creditId : String) (debitSeq creditSeq : Int64) :
    (inMemoryLedgerRepository.post journal
      (postingOf req txnId debitId creditId debitSeq creditSeq)).1.isErr = false := by
  simp [inMemoryLedgerRepository, InMemoryLedgerRepository.post, postingOf,
    InMemoryLedgerRepository.net, LedgerEntry.signedAmount, Money.mul, net_pair]

/-- Over the in-memory ledger no compensation ever starts. -/
theorem Reaches.never_undoing {service : PaymentService} {calls : List Call} {sched : List Nat}
    {sys : System} (reached : Reaches chain service calls sched sys)
    (inMemory : ∀ c ∈ calls, c.env.ledger = inMemoryLedgerRepository) :
    ∀ t ∈ sys.threads, ¬ t.pc.Undoing := by
  have both : ∀ t ∈ sys.threads, t.call.env.ledger = inMemoryLedgerRepository ∧ ¬ t.pc.Undoing := by
    refine (interleaving chain).agentwise
      (P := fun _ t => t.call.env.ledger = inMemoryLedgerRepository ∧ ¬ t.pc.Undoing) ?_ ?_ ?_ reached
    · rintro s ⟨c, pc⟩ s' ⟨c', pc'⟩ ⟨same, fired⟩ ⟨ledger, never⟩
      obtain rfl : c' = c := same
      refine ⟨ledger, ?_⟩
      replace ledger : c'.env.ledger = inMemoryLedgerRepository := ledger
      cases fired with
      | unposted f debitId creditId debitSeq creditSeq err rejected =>
        rw [ledger, inMemory_accepts] at rejected
        cases rejected
      | uncredited => exact fun _ => never trivial
      | uncreditedNowhere => exact fun _ => never trivial
      | _ => exact id
    · intro s t s' t' u moved mine theirs
      exact theirs
    · intro t member
      obtain ⟨among, is⟩ := mem_init member
      exact ⟨inMemory _ among, by rw [is]; exact id⟩
  exact fun t member => (both t member).2

/-! ## Solvency -/

/-- What an account holds of a currency. -/
def heldIn (ccy : Currency) (account : Account) : Int :=
  if account.balance.currency = ccy then account.balance.minorUnits.toInt else 0

/-- Nonnegative balances whose total in each currency fits in 64 bits. -/
structure Solvent (accounts : InMemoryAccountRepository) : Prop where
  nonneg : ∀ id account, accounts.lookup id = some account → 0 ≤ account.balance.minorUnits.toInt
  bounded : ∀ ccy, total (heldIn ccy) accounts < 2 ^ 63

/-- What a thread has debited and not yet credited, of a currency. -/
def Thread.transit (ccy : Currency) (t : Thread) : Int :=
  match t.pc with
  | .credit _ => if t.call.req.amount.currency = ccy then t.call.req.amount.minorUnits.toInt else 0
  | _ => 0

/-- What all threads together have in transit. -/
def System.inTransit (ccy : Currency) (sys : System) : Int :=
  (sys.threads.map (Thread.transit ccy)).sum

/-- No balance is negative, and balances and money in transit stay within `bound`. -/
structure Solvency (bound : Currency → Int) (sys : System) : Prop where
  nonneg : ∀ id account, sys.service.accounts.lookup id = some account →
    0 ≤ account.balance.minorUnits.toInt
  covered : ∀ ccy, total (heldIn ccy) sys.service.accounts + sys.inTransit ccy ≤ bound ccy

theorem Loaded.transit_nonneg {s : PaymentService} {t : Thread} (loaded : Loaded s t)
    (ccy : Currency) : 0 ≤ t.transit ccy := by
  obtain ⟨c, pc⟩ := t
  cases pc with
  | credit f =>
    have nonneg := (loaded.amount trivial).2
    show 0 ≤ if c.req.amount.currency = ccy then c.req.amount.minorUnits.toInt else 0
    split
    · exact nonneg
    · exact le_refl 0
  | _ => exact le_refl 0

theorem heldIn_nonneg {accounts : InMemoryAccountRepository}
    (nonneg : ∀ id account, accounts.lookup id = some account →
      0 ≤ account.balance.minorUnits.toInt) (ccy : Currency) :
    ∀ id account, accounts.lookup id = some account → 0 ≤ heldIn ccy account := by
  intro id account found
  unfold heldIn
  split
  · exact nonneg id account found
  · exact le_refl 0

/-- A balance, and with it what one call has in transit, is within the bound. -/
theorem Solvency.within {bound : Currency → Int} {sys : System} (solvency : Solvency bound sys)
    (loaded : ∀ t ∈ sys.threads, Loaded sys.service t) {id : String} {account : Account}
    (found : sys.service.accounts.lookup id = some account) {t : Thread} (member : t ∈ sys.threads) :
    account.balance.minorUnits.toInt + t.transit account.balance.currency ≤
      bound account.balance.currency := by
  have one : heldIn account.balance.currency account ≤
      total (heldIn account.balance.currency) sys.service.accounts :=
    le_total (heldIn_nonneg solvency.nonneg _) found
  have share : t.transit account.balance.currency ≤ sys.inTransit account.balance.currency :=
    le_sum_map (fun u there => (loaded u there).transit_nonneg _) member
  have all := solvency.covered account.balance.currency
  rw [heldIn, if_pos rfl] at one
  omega

/-- A credit that is about to happen is exact. -/
theorem Solvency.credit_exact {bound : Currency → Int} {sys : System}
    (solvency : Solvency bound sys) (fits : ∀ ccy, bound ccy < 2 ^ 63)
    (loaded : ∀ t ∈ sys.threads, Loaded sys.service t) {c : Call} {f : Flight}
    (member : (⟨c, .credit f⟩ : Thread) ∈ sys.threads) {account : Account}
    (found : sys.service.accounts.lookup c.req.payeeAccountId = some account)
    (can : account.Creditable c.req.amount) :
    (account.balance.minorUnits + c.req.amount.minorUnits).toInt =
      account.balance.minorUnits.toInt + c.req.amount.minorUnits.toInt := by
  have within := solvency.within loaded found member
  have top := fits account.balance.currency
  have low := solvency.nonneg _ _ found
  have share : Thread.transit account.balance.currency ⟨c, .credit f⟩ =
      c.req.amount.minorUnits.toInt := if_pos can.1
  rw [share] at within
  have nonneg := can.2
  exact toInt_add_of_range (by omega) (by omega)

theorem nonneg_replace {accounts : InMemoryAccountRepository} {id : String} {account : Account}
    (nonneg : ∀ id account, accounts.lookup id = some account →
      0 ≤ account.balance.minorUnits.toInt)
    (found : accounts.lookup id = some account) {account' : Account}
    (nonneg' : 0 ≤ account'.balance.minorUnits.toInt) :
    ∀ id' account'', (accounts.replace id account').lookup id' = some account'' →
      0 ≤ account''.balance.minorUnits.toInt := by
  intro id' account'' found'
  rw [lookup_replace found] at found'
  split at found'
  · cases found'
    exact nonneg'
  · exact nonneg id' account'' found'

/-- What one transition does to the balances and to the money in transit. -/
theorem Fires.solvency {bound : Currency → Int} {sys : System} {c : Call} {s' : PaymentService}
    {pc pc' : Pc} (fired : Fires chain c sys.service pc s' pc') (solvency : Solvency bound sys)
    (fits : ∀ ccy, bound ccy < 2 ^ 63) (loaded : ∀ t ∈ sys.threads, Loaded sys.service t)
    (member : (⟨c, pc⟩ : Thread) ∈ sys.threads) (never : ¬ pc.Undoing) :
    (∀ id account, s'.accounts.lookup id = some account → 0 ≤ account.balance.minorUnits.toInt) ∧
      ∀ ccy, total (heldIn ccy) s'.accounts +
        (sys.inTransit ccy - Thread.transit ccy ⟨c, pc⟩ + Thread.transit ccy ⟨c, pc'⟩) ≤
          bound ccy := by
  have mine := loaded _ member
  cases fired with
  | debited f account found can =>
    obtain ⟨⟨same, nonneg⟩, enough⟩ := can
    have exact_ : (account.balance.minorUnits - c.req.amount.minorUnits).toInt =
        account.balance.minorUnits.toInt - c.req.amount.minorUnits.toInt :=
      toInt_sub_of_le nonneg enough
    refine ⟨nonneg_replace solvency.nonneg found ?_, fun ccy => ?_⟩
    · rw [Account.minus_minorUnits, exact_]
      omega
    · have before := solvency.covered ccy
      have held := total_replace (heldIn ccy) found (account.minus c.req.amount.minorUnits)
      show total (heldIn ccy) (sys.service.accounts.replace _ _) + (sys.inTransit ccy - 0 +
        if c.req.amount.currency = ccy then c.req.amount.minorUnits.toInt else 0) ≤ bound ccy
      rw [held]
      simp only [heldIn, Account.minus_currency, Account.minus_minorUnits, exact_, ← same]
      split <;> omega
  | credited f account found =>
    by_cases can : account.Creditable c.req.amount
    · have exact_ := solvency.credit_exact fits loaded member found can
      rw [Account.credited, if_pos can]
      have low := solvency.nonneg _ _ found
      obtain ⟨same, nonneg⟩ := can
      refine ⟨nonneg_replace solvency.nonneg found ?_, fun ccy => ?_⟩
      · rw [Account.plus_minorUnits, exact_]
        omega
      · have before := solvency.covered ccy
        have held := total_replace (heldIn ccy) found (account.plus c.req.amount.minorUnits)
        show total (heldIn ccy) (sys.service.accounts.replace _ _) + (sys.inTransit ccy -
          (if c.req.amount.currency = ccy then c.req.amount.minorUnits.toInt else 0) + 0) ≤ bound ccy
        rw [held]
        simp only [heldIn, Account.plus_currency, Account.plus_minorUnits, exact_, ← same]
        split <;> omega
    · -- the credit is refused: what was in transit is gone
      rw [Account.credited, if_neg can, PaymentService.setAccount_self found]
      refine ⟨solvency.nonneg, fun ccy => ?_⟩
      have before := solvency.covered ccy
      have share := mine.transit_nonneg ccy
      show total (heldIn ccy) sys.service.accounts +
        (sys.inTransit ccy - Thread.transit ccy ⟨c, .credit f⟩ + 0) ≤ bound ccy
      omega
  | debitedNowhere f missing =>
    exact absurd (ccyAt_eq_none.2 missing) (mine.accounts trivial).1
  | creditedNowhere f missing =>
    exact absurd (ccyAt_eq_none.2 missing) (mine.accounts trivial).2
  | uncredited => exact absurd trivial never
  | uncreditedNowhere => exact absurd trivial never
  | undebited => exact absurd trivial never
  | undebitedNowhere => exact absurd trivial never
  | _ =>
    refine ⟨solvency.nonneg, fun ccy => ?_⟩
    have before := solvency.covered ccy
    show total (heldIn ccy) sys.service.accounts + (sys.inTransit ccy - 0 + 0) ≤ bound ccy
    omega

theorem Solvency.step {bound : Currency → Int} {sys sys' : System} {i : Nat}
    (solvency : Solvency bound sys) (fits : ∀ ccy, bound ccy < 2 ^ 63)
    (loaded : ∀ t ∈ sys.threads, Loaded sys.service t) (never : ∀ t ∈ sys.threads, ¬ t.pc.Undoing)
    (stepped : System.step chain sys i = some sys') : Solvency bound sys' := by
  obtain ⟨c, pc, pc', at_, fired, threads⟩ := step_fires stepped
  have member := List.mem_of_getElem? at_
  obtain ⟨nonneg, covered⟩ := fired.solvency solvency fits loaded member (never _ member)
  refine ⟨nonneg, fun ccy => ?_⟩
  unfold System.inTransit
  rw [threads, sum_map_set at_]
  exact covered ccy

/-- **Balances and money in transit stay within what the accounts opened with**, in
every run over the in-memory ledger. -/
theorem Solvency.run {service : PaymentService} {calls : List Call} {sched : List Nat} {sys : System}
    (solvent : Solvent service.accounts)
    (inMemory : ∀ c ∈ calls, c.env.ledger = inMemoryLedgerRepository)
    (reached : Reaches chain service calls sched sys) :
    Solvency (fun ccy => total (heldIn ccy) service.accounts) sys := by
  refine exec_induct_reached (Solvency fun ccy => total (heldIn ccy) service.accounts) ?_ ?_ reached
  · intro early mid i mid' ran solvency stepped
    have ran : Reaches chain service calls early mid := ran
    exact solvency.step solvent.bounded ran.loaded (ran.never_undoing inMemory) stepped
  · refine ⟨solvent.nonneg, fun ccy => ?_⟩
    have still : (System.init service calls).inTransit ccy = 0 := by
      apply sum_map_zero
      intro t member
      have is := (mem_init member).2
      unfold Thread.transit
      rw [is]
    rw [still]
    exact le_of_eq (add_zero _)

/-! ## Exactness -/

/-- The arithmetic on money of a call's next step. -/
def arithAt (c : Call) (s : PaymentService) : Pc → List Arith
  | .debit _ =>
    match s.accounts.lookup c.req.payerAccountId with
    | some payer => payer.debitArith c.req.amount
    | none => []
  | .credit _ =>
    match s.accounts.lookup c.req.payeeAccountId with
    | some payee => payee.creditArith c.req.amount
    | none => []
  | .post f debitId creditId debitSeq creditSeq =>
    InMemoryLedgerRepository.postArith
      (postingOf c.req f.txn.id debitId creditId debitSeq creditSeq)
  | .undoCredit _ _ =>
    match s.accounts.lookup c.req.payerAccountId with
    | some payer => payer.creditArith c.req.amount
    | none => []
  | .undoDebit _ _ =>
    match s.accounts.lookup c.req.payeeAccountId with
    | some payee => payee.debitArith c.req.amount
    | none => []
  | _ => []

/-- Negating a nonnegative amount and adding it back are exact. -/
theorem exact_pair {n : Int64} (nonneg : 0 ≤ n.toInt) :
    ∀ op ∈ [Arith.mul n (-1), .add 0 (n * -1), .add (0 + n * -1) n], op.Exact := by
  have top := n.toInt_lt
  have zero : (0 : Int64).toInt = 0 := rfl
  have minusOne : (-1 : Int64).toInt = -1 := rfl
  have negated := toInt_mul_neg_one nonneg
  intro op member
  simp only [List.mem_cons, List.not_mem_nil, or_false] at member
  rcases member with rfl | rfl | rfl
  · apply Arith.exact_of_range <;> simp only [Arith.meaning, minusOne] <;> omega
  · apply Arith.exact_of_range <;> simp only [Arith.meaning, negated, zero] <;> omega
  · rw [Int64.zero_add]
    apply Arith.exact_of_range <;> simp only [Arith.meaning, negated] <;> omega

theorem postArith_pair (req : PaymentRequest) (txnId debitId creditId : String)
    (debitSeq creditSeq : Int64) :
    InMemoryLedgerRepository.postArith
        (postingOf req txnId debitId creditId debitSeq creditSeq) =
      [.mul req.amount.minorUnits (-1), .add 0 (req.amount.minorUnits * -1),
        .add (0 + req.amount.minorUnits * -1) req.amount.minorUnits] := by
  simp [InMemoryLedgerRepository.postArith, postingOf, InMemoryLedgerRepository.netArith,
    LedgerEntry.signedArith, LedgerEntry.signedAmount, Money.mul]

/-- **No overdraft and no overflow.**  In every state of every run each balance lies
between zero and what all accounts of its currency opened with, and the arithmetic
of every step a call can take is exact. -/
theorem no_overdraft_no_overflow {service : PaymentService} {calls : List Call} {sched : List Nat}
    {sys : System} (solvent : Solvent service.accounts)
    (inMemory : ∀ c ∈ calls, c.env.ledger = inMemoryLedgerRepository)
    (reached : Reaches chain service calls sched sys) :
    (∀ id account, sys.service.accounts.lookup id = some account →
      0 ≤ account.balance.minorUnits.toInt ∧
        account.balance.minorUnits.toInt ≤
          total (heldIn account.balance.currency) service.accounts) ∧
    ∀ t ∈ sys.threads, ∀ op ∈ arithAt t.call sys.service t.pc, op.Exact := by
  have solvency := Solvency.run solvent inMemory reached
  have loaded := reached.loaded
  have never := reached.never_undoing inMemory
  refine ⟨fun id account found => ⟨solvency.nonneg id account found, ?_⟩, ?_⟩
  · have one : heldIn account.balance.currency account ≤
        total (heldIn account.balance.currency) sys.service.accounts :=
      le_total (heldIn_nonneg solvency.nonneg _) found
    have moving : 0 ≤ sys.inTransit account.balance.currency :=
      sum_map_nonneg fun u there => (loaded u there).transit_nonneg _
    have all := solvency.covered account.balance.currency
    rw [heldIn, if_pos rfl] at one
    omega
  · rintro ⟨c, pc⟩ member op among
    cases pc with
    | debit f =>
      simp only [arithAt] at among
      split at among
      · exact Account.debitArith_exact _ _ op among
      · cases among
    | credit f =>
      simp only [arithAt] at among
      split at among
      · rename_i payee found
        obtain ⟨can, rfl⟩ := Account.mem_creditArith among
        exact solvency.credit_exact solvent.bounded loaded member found can
      · cases among
    | post f debitId creditId debitSeq creditSeq =>
      rw [arithAt, postArith_pair] at among
      exact exact_pair ((loaded _ member).amount trivial).2 op among
    | undoCredit f err => exact absurd trivial (never _ member)
    | undoDebit f err => exact absurd trivial (never _ member)
    | _ => cases among

/-- Solvency of concrete accounts, entry by entry. -/
theorem Solvent.of_entries {accounts : InMemoryAccountRepository}
    (nonneg : ∀ e ∈ accounts.entries, 0 ≤ e.2.balance.minorUnits.toInt)
    (bounded : ∀ ccy ∈ [Currency.inr, .usd, .eur], total (heldIn ccy) accounts < 2 ^ 63) :
    Solvent accounts := by
  refine ⟨fun id account found => nonneg ⟨id, account⟩ (AList.mem_lookup_iff.1 found), ?_⟩
  intro ccy
  cases ccy <;> exact bounded _ (by decide)

theorem solvent_userAndMerchant : Solvent userAndMerchant :=
  Solvent.of_entries (by decide) (by decide)

/-- A payment, and one back that stands between its debit and its credit. -/
theorem no_overdraft_no_overflow_midway : ∃ sys, Reaches mainChain
    (PaymentService.opening userAndMerchant)
    [upiCall "key-1" "u" "m" 30000, upiCall "key-2" "m" "u" 500]
    (List.replicate 20 0 ++ List.replicate 9 1) sys ∧
    ∀ t ∈ sys.threads, ∀ op ∈ arithAt t.call sys.service t.pc, op.Exact := by
  have ran : (exec (System.step mainChain)
      (System.init (PaymentService.opening userAndMerchant)
        [upiCall "key-1" "u" "m" 30000, upiCall "key-2" "m" "u" 500])
      (List.replicate 20 0 ++ List.replicate 9 1)).any
        (fun sys => sys.threads.any fun t => !(arithAt t.call sys.service t.pc).isEmpty) = true := by
    decide +kernel
  obtain ⟨sys, reached, -⟩ := exec_any ran
  have inMemory : ∀ c ∈ [upiCall "key-1" "u" "m" 30000, upiCall "key-2" "m" "u" 500],
      c.env.ledger = inMemoryLedgerRepository := by
    intro c among
    simp only [List.mem_cons, List.not_mem_nil, or_false] at among
    rcases among with rfl | rfl <;> rfl
  exact ⟨sys, reached, (no_overdraft_no_overflow solvent_userAndMerchant inMemory reached).2⟩

end PaymentSystem.Service
