/-
# PaymentSystem.Service.Conservation -- when money is conserved

The status of the payee's credit is discarded.  Between accounts of the amount's
currency the credit cannot fail and every call moves both balances or neither; into an
account of another currency it is refused after the debit, and the amount is gone
(`Strays`).  Nothing ever comes back, so the totals of a sequence of calls are kept
exactly when none of them strays (`totals_kept_iff`).
-/
import PaymentSystem.Service.Exits
import PaymentSystem.Service.Solvency

namespace PaymentSystem.Service

open PaymentSystem.Common
open PaymentSystem.Domain
open PaymentSystem.Patterns
open PaymentSystem.Adapters
open PaymentSystem.Theory.Keyed
open PaymentSystem.Theory.MachineInt

set_option autoImplicit false

/-! ## A debit, and the credit it makes room for -/

section Debited

variable {accounts : InMemoryAccountRepository} {k k' : String} {payer payee : Account} {amount : Money}

theorem nonneg_debited (nonneg : ∀ id account, accounts.lookup id = some account →
      0 ≤ account.balance.minorUnits.toInt) (found : accounts.lookup k = some payer)
    (covered : payer.Debitable amount) (id : String) (account : Account) :
    (accounts.replace k (payer.minus amount.minorUnits)).lookup id = some account →
      0 ≤ account.balance.minorUnits.toInt := by
  have left : 0 ≤ (payer.minus amount.minorUnits).balance.minorUnits.toInt := by
    rw [Account.minus_minorUnits, toInt_sub_of_le covered.1.2 covered.2]
    have enough := covered.2
    omega
  exact nonneg_replace nonneg found left id account

/-- A debit takes its amount out of the total of its currency. -/
theorem total_debited (found : accounts.lookup k = some payer) (covered : payer.Debitable amount)
    (ccy : Currency) :
    total (heldIn ccy) (accounts.replace k (payer.minus amount.minorUnits)) =
      total (heldIn ccy) accounts - if amount.currency = ccy then amount.minorUnits.toInt else 0 := by
  rw [total_replace (heldIn ccy) found]
  simp only [heldIn, Account.minus_currency, Account.minus_minorUnits,
    toInt_sub_of_le covered.1.2 covered.2, ← covered.1.1]
  split <;> omega

/-- **What the payer gives up makes room for it** in the payee's balance. -/
theorem Solvent.credit_fits (solvent : Solvent accounts) (apart : k ≠ k')
    (payerFound : accounts.lookup k = some payer) (payeeFound : accounts.lookup k' = some payee)
    (covered : payer.Debitable amount) (can : payee.Creditable amount) :
    (payee.balance.minorUnits + amount.minorUnits).toInt =
      payee.balance.minorUnits.toInt + amount.minorUnits.toInt := by
  have found : (accounts.replace k (payer.minus amount.minorUnits)).lookup k' = some payee := by
    rw [lookup_replace payerFound, if_neg (Ne.symm apart), payeeFound]
  have room := le_total
    (heldIn_nonneg (nonneg_debited solvent.nonneg payerFound covered) amount.currency) found
  rw [total_debited payerFound covered, heldIn, if_pos can.1.symm, if_pos rfl] at room
  have bottom := solvent.nonneg _ _ payeeFound
  have top := solvent.bounded amount.currency
  have nonneg := can.2
  exact toInt_add_of_range (by omega) (by omega)

end Debited

/-! ## What a call does to the accounts -/

/-- The call moves money, between these two accounts. -/
def Transfers (chain : ValidationChain) (c : Call) (s : PaymentService) (payer payee : Account) :
    Prop :=
  Begins c s ∧ ∃ strategy ref, Admits chain c s.txnIds.next.1 s payer payee strategy ref

section Step

variable {chain : ValidationChain} {c : Call} {s : PaymentService} {payer payee : Account}

/-- Over the shipped adapters a call moves money when the state lets it, and leaves the
accounts alone otherwise. -/
theorem pay_accounts (chain : ValidationChain) (s : PaymentService) (shipped : c.env.Shipped) :
    (∃ payer payee, Transfers chain c s payer payee ∧
      (pay chain c.env c.req s).2.accounts = (s.moved c payer payee).accounts) ∨
    ((∀ payer payee, ¬ Transfers chain c s payer payee) ∧
      (pay chain c.env c.req s).2.accounts = s.accounts) := by
  have pays := pay_pays chain c s
  generalize pay chain c.env c.req s = r at pays ⊢
  cases pays with
  | replayed taken =>
    refine .inr ⟨fun payer payee transfers => ?_, rfl⟩
    cases taken.symm.trans transfers.1.fresh
  | unnamed e fresh unnamed =>
    exact .inr ⟨fun payer payee transfers => unnamed transfers.1.named, rfl⟩
  | begun begins exits =>
    cases exits with
    | raised e threw =>
      refine .inr ⟨fun payer payee transfers => ?_, rfl⟩
      obtain ⟨-, strategy, ref, admits⟩ := transfers
      exact admits.cleared.not_throws ⟨e, threw⟩
    | stopped err quiet inadmissible =>
      refine .inr ⟨fun payer payee transfers => ?_, rfl⟩
      obtain ⟨-, strategy, ref, admits⟩ := transfers
      exact inadmissible ⟨payer, payee, strategy, ref, admits.of_accounts rfl⟩
    | captured admits accepts captures =>
      exact .inl ⟨_, _, ⟨begins, _, _, admits.of_accounts rfl⟩, rfl⟩
    | uncaptured err admits accepts fails =>
      exact .inl ⟨_, _, ⟨begins, _, _, admits.of_accounts rfl⟩, rfl⟩
    | compensated err admits rejects =>
      refine absurd ?_ rejects
      unfold Accepts
      rw [shipped.ledger]
      exact inMemory_accepts _ _ _ _ _ _ _

theorem cleared_standardChain {limit threshold : Money} {txn : Transaction}
    (cleared : Cleared (standardChain limit threshold) txn) : PassesBasic txn := by
  obtain ⟨v, ran, ok⟩ := cleared
  obtain ⟨msg, checked⟩ := basic_check txn
  by_contra fails
  rw [if_neg fails] at checked
  have rejected : (standardChain limit threshold).run txn = .ok (Status.fail .validationFailed msg) :=
    ValidationChain.run_cons_fail checked rfl
  cases ran.symm.trans rejected
  cases ok

/-! ## Totals -/

/-- What moving the money does to a total, over the integers: the amount leaves the payer
and reaches a payee of its currency. -/
theorem Admits.totals {id : String} {strategy : PaymentStrategy} {ref : GatewayRef}
    (admits : Admits chain c id s payer payee strategy ref) (solvent : Solvent s.accounts)
    (apart : c.req.payerAccountId ≠ c.req.payeeAccountId) :
    Solvent (s.moved c payer payee).accounts ∧
      ∀ ccy, total (heldIn ccy) (s.moved c payer payee).accounts =
        total (heldIn ccy) s.accounts -
          if payee.balance.currency ≠ c.req.amount.currency ∧ c.req.amount.currency = ccy then
            c.req.amount.minorUnits.toInt else 0 := by
  -- after the debit
  have low := nonneg_debited solvent.nonneg admits.payerFound admits.covered
  have first := total_debited admits.payerFound admits.covered
  have found : (s.accounts.replace c.req.payerAccountId
      (payer.minus c.req.amount.minorUnits)).lookup c.req.payeeAccountId = some payee := by
    rw [lookup_replace admits.payerFound, if_neg (Ne.symm apart), admits.payeeFound]
  have moved : (s.moved c payer payee).accounts = (s.accounts.replace c.req.payerAccountId
      (payer.minus c.req.amount.minorUnits)).replace c.req.payeeAccountId
        (payee.credited c.req.amount) := by
    rw [PaymentService.moved, if_neg (Ne.symm apart)]
    rfl
  rw [moved]
  generalize s.accounts.replace c.req.payerAccountId
    (payer.minus c.req.amount.minorUnits) = accounts at low first found ⊢
  have nonneg := admits.covered.1.2
  by_cases can : payee.Creditable c.req.amount
  · -- the credit lands
    have room := solvent.credit_fits apart admits.payerFound admits.payeeFound admits.covered can
    have landed (ccy : Currency) :
        total (heldIn ccy) (accounts.replace c.req.payeeAccountId (payee.credited c.req.amount)) =
          total (heldIn ccy) s.accounts := by
      rw [total_replace (heldIn ccy) found, first, Account.credited, if_pos can]
      simp only [heldIn, Account.plus_currency, Account.plus_minorUnits, room, ← can.1]
      split <;> omega
    refine ⟨⟨?_, fun ccy => ?_⟩, fun ccy => ?_⟩
    · refine nonneg_replace low found ?_
      rw [Account.credited, if_pos can, Account.plus_minorUnits, room]
      have bottom := low _ _ found
      omega
    · rw [landed]
      exact solvent.bounded ccy
    · rw [landed, if_neg fun both => both.1 can.1.symm, sub_zero]
  · -- the credit is refused, and its status discarded
    have foreign : payee.balance.currency ≠ c.req.amount.currency :=
      fun is => can ⟨is.symm, nonneg⟩
    rw [Account.credited, if_neg can, replace_self found]
    refine ⟨⟨low, fun ccy => ?_⟩, fun ccy => ?_⟩
    · have top := solvent.bounded ccy
      rw [first]
      split <;> omega
    · rw [first]
      simp only [foreign, ne_eq, not_false_iff, true_and]

theorem Transfers.unique {payer' payee' : Account} (transfers : Transfers chain c s payer payee)
    (also : Transfers chain c s payer' payee') : payer' = payer ∧ payee' = payee := by
  obtain ⟨-, _, _, admits⟩ := transfers
  obtain ⟨-, _, _, admits'⟩ := also
  exact ⟨Option.some.inj (admits'.payerFound.symm.trans admits.payerFound),
    Option.some.inj (admits'.payeeFound.symm.trans admits.payeeFound)⟩

end Step

/-- The call moves its amount into an account of another currency. -/
def Strays (chain : ValidationChain) (c : Call) (s : PaymentService) : Prop :=
  ∃ payer payee, Transfers chain c s payer payee ∧
    payee.balance.currency ≠ c.req.amount.currency

section Totals

variable {limit threshold : Money} {c : Call} {s : PaymentService}

/-- One call: solvency is kept, and each total but for a stray amount. -/
theorem pay_totals (limit threshold : Money) (solvent : Solvent s.accounts)
    (shipped : c.env.Shipped) :
    Solvent (pay (standardChain limit threshold) c.env c.req s).2.accounts ∧
      ((¬ Strays (standardChain limit threshold) c s) ∧
        (∀ ccy, total (heldIn ccy) (pay (standardChain limit threshold) c.env c.req s).2.accounts =
          total (heldIn ccy) s.accounts) ∨
      Strays (standardChain limit threshold) c s ∧ 0 < c.req.amount.minorUnits.toInt ∧
        ∀ ccy, total (heldIn ccy) (pay (standardChain limit threshold) c.env c.req s).2.accounts =
          total (heldIn ccy) s.accounts -
            if c.req.amount.currency = ccy then c.req.amount.minorUnits.toInt else 0) := by
  rcases pay_accounts (standardChain limit threshold) s shipped with
    ⟨payer, payee, transfers, accounts⟩ | ⟨never, accounts⟩
  · obtain ⟨-, strategy, ref, admits⟩ := id transfers
    obtain ⟨positive, apart⟩ := cleared_standardChain admits.cleared
    obtain ⟨solvent', totals⟩ := admits.totals solvent apart
    rw [accounts]
    refine ⟨solvent', ?_⟩
    by_cases foreign : payee.balance.currency ≠ c.req.amount.currency
    · refine .inr ⟨⟨payer, payee, transfers, foreign⟩, positive, fun ccy => ?_⟩
      rw [totals]
      simp only [foreign, ne_eq, not_false_iff, true_and]
    · refine .inl ⟨?_, fun ccy => ?_⟩
      · rintro ⟨payer', payee', also, foreign'⟩
        obtain ⟨-, rfl⟩ := transfers.unique also
        exact foreign foreign'
      · rw [totals, if_neg fun both => foreign both.1, sub_zero]
  · rw [accounts]
    refine ⟨solvent, .inl ⟨?_, fun ccy => rfl⟩⟩
    rintro ⟨payer, payee, transfers, -⟩
    exact never payer payee transfers

/-- No sequence of calls adds to a total. -/
theorem payAll_totals_le {calls : List Call} (limit threshold : Money) (solvent : Solvent s.accounts)
    (shipped : ∀ c ∈ calls, c.env.Shipped) (ccy : Currency) :
    total (heldIn ccy) (payAll (standardChain limit threshold) s calls).2.accounts ≤
      total (heldIn ccy) s.accounts := by
  induction calls generalizing s with
  | nil => exact le_refl _
  | cons c rest ih =>
    obtain ⟨solvent', one⟩ := pay_totals limit threshold solvent (shipped c List.mem_cons_self)
    have later := ih solvent' fun d among => shipped d (List.mem_cons_of_mem _ among)
    show total (heldIn ccy) (payAll (standardChain limit threshold)
      (pay (standardChain limit threshold) c.env c.req s).2 rest).2.accounts ≤ _
    rcases one with ⟨-, same⟩ | ⟨-, positive, lost⟩
    · rw [same] at later
      exact later
    · rw [lost] at later
      split at later <;> omega

/-- No call of the sequence strays when its turn comes. -/
def Straight (chain : ValidationChain) : PaymentService → List Call → Prop
  | _, [] => True
  | s, c :: rest => ¬ Strays chain c s ∧ Straight chain (pay chain c.env c.req s).2 rest

/-- **A sequence of calls keeps the totals of all currencies exactly when no call
strays.** -/
theorem totals_kept_iff {calls : List Call} (solvent : Solvent s.accounts)
    (shipped : ∀ c ∈ calls, c.env.Shipped) :
    (∀ ccy, total (heldIn ccy) (payAll (standardChain limit threshold) s calls).2.accounts =
      total (heldIn ccy) s.accounts) ↔ Straight (standardChain limit threshold) s calls := by
  induction calls generalizing s with
  | nil => exact ⟨fun _ => trivial, fun _ ccy => rfl⟩
  | cons c rest ih =>
    obtain ⟨solvent', one⟩ := pay_totals limit threshold solvent (shipped c List.mem_cons_self)
    have shipped' : ∀ d ∈ rest, d.env.Shipped := fun d among =>
      shipped d (List.mem_cons_of_mem _ among)
    show (∀ ccy, total (heldIn ccy) (payAll (standardChain limit threshold)
      (pay (standardChain limit threshold) c.env c.req s).2 rest).2.accounts = _) ↔ _ ∧ _
    rw [← ih solvent' shipped']
    rcases one with ⟨straight, same⟩ | ⟨strays, positive, lost⟩
    · simp only [same, straight, not_false_iff, true_and]
    · -- what has strayed no later call brings back
      refine ⟨fun kept => ?_, fun both => absurd strays both.1⟩
      have later := payAll_totals_le limit threshold solvent' shipped' c.req.amount.currency
      rw [kept, lost, if_pos rfl] at later
      omega

end Totals

/-- A wallet in INR and a merchant who is paid in USD. -/
def userAndUsdMerchant : InMemoryAccountRepository :=
  InMemoryAccountRepository.save (InMemoryAccountRepository.save ∅ ⟨"u", ⟨100000, .inr⟩⟩)
    ⟨"m", ⟨0, .usd⟩⟩

/-- 100.00 INR paid to the merchant leave the wallet and reach nobody. -/
theorem totals_lost : Solvent userAndUsdMerchant ∧
    total (heldIn .inr) (payAll mainChain (PaymentService.opening userAndUsdMerchant)
      [upiCall "key-1" "u" "m" 10000]).2.accounts = 90000 ∧
    total (heldIn .inr) userAndUsdMerchant = 100000 :=
  ⟨Solvent.of_entries (by decide) (by decide), by decide +kernel, by decide⟩

/-- Between accounts in INR the total is kept. -/
theorem totals_kept : total (heldIn .inr) (payAll mainChain
    (PaymentService.opening userAndMerchant) [upiCall "key-1" "u" "m" 10000]).2.accounts =
      total (heldIn .inr) userAndMerchant := by
  have straight : ¬ Strays mainChain (upiCall "key-1" "u" "m" 10000)
      (PaymentService.opening userAndMerchant) := by
    rintro ⟨payer, payee, ⟨-, strategy, ref, admits⟩, foreign⟩
    have found : userAndMerchant.lookup "m" = some payee := admits.payeeFound
    have there : userAndMerchant.lookup "m" = some ⟨"m", ⟨0, .inr⟩⟩ := by decide
    cases there.symm.trans found
    exact foreign rfl
  have kept : ∀ ccy, total (heldIn ccy) (payAll mainChain
      (PaymentService.opening userAndMerchant) [upiCall "key-1" "u" "m" 10000]).2.accounts =
        total (heldIn ccy) (PaymentService.opening userAndMerchant).accounts := by
    exact (totals_kept_iff solvent_userAndMerchant
      (List.forall_mem_singleton.2 (Env.shipped_shipped 0))).2 ⟨straight, trivial⟩
  exact kept .inr

end PaymentSystem.Service
