/-
# PaymentSystem.Service.Compensation -- undoing a rejected posting among other calls

The compensation credits the payer back and debits the payee, while only the payer is
locked: in between, the payee may have spent the money, and then its debit is refused
and the status ignored.  Every other step moves the balances and what is owed by the
same amount (`Fires.lapped`), so the sum of the balances is kept whenever every
reversing debit finds the amount (`compensation_conserves`).  Money credited twice for
a while may carry a balance past the top of the range; once no call is in flight no
balance has (`PaymentSystem.Theory.Laps`).
-/
import PaymentSystem.Service.Solvency
import PaymentSystem.Theory.Laps

namespace PaymentSystem.Service

open PaymentSystem.Common
open PaymentSystem.Domain
open PaymentSystem.Patterns
open PaymentSystem.Adapters
open PaymentSystem.Theory.Keyed
open PaymentSystem.Theory.Laps
open PaymentSystem.Theory.Runs
open PaymentSystem.Theory.Threads

set_option autoImplicit false

variable {chain : ValidationChain}

/-! ## What is owed -/

def unitsOf (account : Account) : Int64 := account.balance.minorUnits

/-- What the balances lack because of a call in flight: its amount between debit and
credit, and less than nothing between the two halves of its compensation. -/
def Thread.owed (t : Thread) : Int :=
  match t.pc with
  | .credit _ => t.call.req.amount.minorUnits.toInt
  | .undoDebit _ _ => -t.call.req.amount.minorUnits.toInt
  | _ => 0

def System.owed (sys : System) : Int := (sys.threads.map Thread.owed).sum

/-- The reversing debit at hand finds the amount. -/
def Reverses (s : PaymentService) (t : Thread) : Prop :=
  ∀ f err payee, t.pc = .undoDebit f err →
    s.accounts.lookup t.call.req.payeeAccountId = some payee →
    t.call.req.amount.minorUnits.toInt ≤ payee.balance.minorUnits.toInt

instance decidableReverses (s : PaymentService) : (t : Thread) → Decidable (Reverses s t)
  | ⟨c, .undoDebit f err⟩ =>
    match found : s.accounts.lookup c.req.payeeAccountId with
    | none => isTrue fun _ _ _ _ there => nomatch found.symm.trans there
    | some payee =>
      decidable_of_iff (c.req.amount.minorUnits.toInt ≤ payee.balance.minorUnits.toInt)
        ⟨fun le _ _ _ _ there => Option.some.inj (found.symm.trans there) ▸ le,
          fun reverses => reverses f err payee rfl found⟩
  | ⟨_, .start⟩ | ⟨_, .claim _⟩ | ⟨_, .lookup⟩ | ⟨_, .replay _⟩ | ⟨_, .replied _⟩ | ⟨_, .build _⟩
  | ⟨_, .unbuilt _ _⟩ | ⟨_, .mutexFor _⟩ | ⟨_, .lock _⟩ | ⟨_, .validate _⟩ | ⟨_, .load _⟩
  | ⟨_, .authorize _ _⟩ | ⟨_, .debit _⟩ | ⟨_, .credit _⟩ | ⟨_, .drawDebitId _⟩
  | ⟨_, .drawDebitSeq _ _⟩ | ⟨_, .drawCreditId _ _ _⟩ | ⟨_, .drawCreditSeq _ _ _ _⟩
  | ⟨_, .post _ _ _ _ _⟩ | ⟨_, .undoCredit _ _⟩ | ⟨_, .capture _⟩ | ⟨_, .save _ _ _⟩
  | ⟨_, .publish _ _ _⟩ | ⟨_, .notify _ _ _⟩ | ⟨_, .unlock _ _⟩ | ⟨_, .finished _ _⟩ =>
    isTrue fun _ _ _ at_ => nomatch at_

/-- **Balances and what is owed move together**, but for a reversing debit that falls
short. -/
theorem Fires.lapped {ccy : Currency} {c : Call} {s s' : PaymentService} {pc pc' : Pc} {amount : Int}
    (fired : Fires chain c s pc s' pc') (loaded : Loaded s ⟨c, pc⟩) (single : SingleCurrency ccy s.accounts)
    (reverses : Reverses s ⟨c, pc⟩) (lapped : Lapped unitsOf s.accounts amount) :
    Lapped unitsOf s'.accounts (amount + Thread.owed ⟨c, pc⟩ - Thread.owed ⟨c, pc'⟩) := by
  cases fired with
  | debited f account found can =>
    show Lapped unitsOf _ (amount + 0 - c.req.amount.minorUnits.toInt)
    rw [add_zero]
    exact lapped.sub found rfl can.1.2 can.2
  | credited f account found =>
    have can := loaded.creditable trivial single found
    show Lapped unitsOf (s.accounts.replace _ (account.credited c.req.amount))
      (amount + c.req.amount.minorUnits.toInt - 0)
    rw [sub_zero, Account.credited, if_pos can]
    exact lapped.add found rfl can.2
  | uncredited f err account found =>
    have can := loaded.creditable trivial single found
    show Lapped unitsOf (s.accounts.replace _ (account.credited c.req.amount))
      (amount + 0 - -c.req.amount.minorUnits.toInt)
    rw [add_zero, sub_neg_eq_add, Account.credited, if_pos can]
    exact lapped.add found rfl can.2
  | undebited f err account found =>
    have can : account.Debitable c.req.amount :=
      ⟨loaded.creditable trivial single found, reverses f err account rfl found⟩
    show Lapped unitsOf (s.accounts.replace _ (account.debited c.req.amount))
      (amount + -c.req.amount.minorUnits.toInt - 0)
    rw [sub_zero, ← sub_eq_add_neg, Account.debited, if_pos can]
    exact lapped.sub found rfl can.1.2 can.2
  | debitedNowhere f missing =>
    exact absurd (ccyAt_eq_none.2 missing) (loaded.accounts trivial).1
  | creditedNowhere f missing =>
    exact absurd (ccyAt_eq_none.2 missing) (loaded.accounts trivial).2
  | uncreditedNowhere f err missing =>
    exact absurd (ccyAt_eq_none.2 missing) (loaded.accounts trivial).1
  | undebitedNowhere f err missing =>
    exact absurd (ccyAt_eq_none.2 missing) (loaded.accounts trivial).2
  | _ =>
    show Lapped unitsOf s.accounts (amount + 0 - 0)
    rw [add_zero, sub_zero]
    exact lapped

/-! ## Runs -/

/-- Every reversing debit of the run finds the amount with the payee. -/
def Reversible (chain : ValidationChain) (service : PaymentService) (calls : List Call)
    (sched : List Nat) : Prop :=
  ∀ early i late mid t, sched = early ++ i :: late → Reaches chain service calls early mid →
    mid.threads[i]? = some t → Reverses mid.service t

/-- The same, checked step by step along the run. -/
def reversesAlong (chain : ValidationChain) : System → List Nat → Bool
  | _, [] => true
  | sys, i :: rest =>
    (sys.threads[i]?).all (fun t => decide (Reverses sys.service t)) &&
      (System.step chain sys i).all fun sys' => reversesAlong chain sys' rest

theorem Reversible.of_check {service : PaymentService} {calls : List Call} {sched : List Nat}
    (checked : reversesAlong chain (System.init service calls) sched = true) :
    Reversible chain service calls sched := by
  intro early i late mid t split reached at_
  replace reached : exec (System.step chain) (System.init service calls) early = some mid := reached
  subst split
  generalize System.init service calls = sys at checked reached
  induction early generalizing sys with
  | nil =>
    cases reached
    rw [List.nil_append, reversesAlong, Bool.and_eq_true, at_] at checked
    exact of_decide_eq_true checked.1
  | cons j early ih =>
    obtain ⟨sys', stepped, ran⟩ := exec_cons.1 reached
    rw [List.cons_append, reversesAlong, Bool.and_eq_true, stepped] at checked
    exact ih sys' checked.2 ran

section Run

variable {ccy : Currency} {service : PaymentService} {calls : List Call} {sched : List Nat}
  {sys : System}

theorem Reaches.lapped (reached : Reaches chain service calls sched sys)
    (solvent : Solvent service.accounts) (single : SingleCurrency ccy service.accounts)
    (reversible : Reversible chain service calls sched) :
    Lapped unitsOf sys.service.accounts (worth unitsOf service.accounts - sys.owed) := by
  refine exec_induct_along (fun sys => Lapped unitsOf sys.service.accounts
    (worth unitsOf service.accounts - sys.owed)) ?_ ?_ reached
  · intro early i late mid mid' split ran lapped stepped
    have ran : Reaches chain service calls early mid := ran
    obtain ⟨c, pc, pc', at_, fired, threads⟩ := step_fires stepped
    have next_ := fired.lapped (ran.loaded _ (List.mem_of_getElem? at_)) (ran.single single)
      (reversible early i late mid _ split ran at_) lapped
    have owed : mid'.owed = mid.owed - Thread.owed ⟨c, pc⟩ + Thread.owed ⟨c, pc'⟩ := by
      unfold System.owed
      rw [threads]
      exact sum_map_set at_ _ _
    have moved : worth unitsOf service.accounts - mid'.owed =
        worth unitsOf service.accounts - mid.owed + Thread.owed ⟨c, pc⟩ - Thread.owed ⟨c, pc'⟩ := by
      omega
    rw [moved]
    exact next_
  · have nothing : (System.init service calls).owed = 0 := by
      apply sum_map_zero
      intro t member
      unfold Thread.owed
      rw [(mem_init member).2]
    rw [nothing, sub_zero]
    exact Lapped.start solvent.nonneg

theorem System.Quiescent.owed (quiescent : sys.Quiescent) : sys.owed = 0 := by
  refine quiescent.sum_zero (fun c => rfl) fun c pc ended => ?_
  cases pc with
  | credit f => exact absurd rfl ended
  | undoDebit f err => exact absurd rfl ended
  | _ => rfl

/-- **When no call is in flight the balances sum to what they opened with**, over any
ledgers, in every run whose reversing debits find the amount. -/
theorem compensation_conserves (solvent : Solvent service.accounts)
    (single : SingleCurrency ccy service.accounts) (reached : Reaches chain service calls sched sys)
    (reversible : Reversible chain service calls sched) (quiescent : sys.Quiescent) :
    worth unitsOf sys.service.accounts = worth unitsOf service.accounts := by
  have lapped := reached.lapped solvent single reversible
  rw [quiescent.owed, sub_zero] at lapped
  refine lapped.exact ?_
  have all : worth unitsOf service.accounts = total (heldIn ccy) service.accounts := by
    refine total_congr fun id account found => ?_
    rw [heldIn, if_pos (single id account found)]
    rfl
  rw [all]
  exact solvent.bounded ccy

end Run

/-! ## A rejected posting, and the payee spending in between -/

/-- A ledger that rejects every batch debiting one account. -/
def refusingLedger (accountId : String) : LedgerRepository where
  post journal batch :=
    if batch.any fun e => e.accountId = accountId ∧ e.direction = .debit then
      (Status.fail .internalError "posting rejected", journal)
    else (Status.ok, journal ++ batch)
  post_ok journal batch accepted := by
    split at accepted
    · cases accepted
    · rename_i passed
      rw [if_neg passed]
  post_err journal batch rejected := by
    split at rejected
    · rename_i refused
      rw [if_pos refused]
    · cases rejected

/-- A payment over a ledger that rejects what the user pays. -/
def refusedCall (key payer payee : String) (minorUnits : Int64) : Call where
  req := ⟨key, payer, payee, ⟨minorUnits, .inr⟩, .upi⟩
  env := { Env.shipped 0 with ledger := refusingLedger "u" }

/-- The user pays the merchant, and the merchant a supplier. -/
def supplyChain : InMemoryAccountRepository :=
  InMemoryAccountRepository.save userAndMerchant ⟨"x", ⟨0, .inr⟩⟩

theorem solvent_supplyChain : Solvent supplyChain := Solvent.of_entries (by decide) (by decide)

theorem inr_supplyChain : SingleCurrency .inr supplyChain := by
  have entries : ∀ e ∈ supplyChain.entries, e.2.balance.currency = .inr := by decide
  exact fun id account found => entries ⟨id, account⟩ (AList.mem_lookup_iff.1 found)

/-- The merchant spends what is about to be taken back: when all is over, 300.00 INR
have been created. -/
theorem compensation_creates_money : Solvent supplyChain ∧ SingleCurrency .inr supplyChain ∧
    worth unitsOf supplyChain = 100000 ∧
    ∃ sys, Reaches mainChain (PaymentService.opening supplyChain)
      [refusedCall "key-1" "u" "m" 30000, refusedCall "key-2" "m" "x" 30000]
      (List.replicate 15 0 ++ List.replicate 20 1 ++ List.replicate 6 0) sys ∧
      sys.Quiescent ∧ worth unitsOf sys.service.accounts = 130000 := by
  refine ⟨solvent_supplyChain, inr_supplyChain, by decide, ?_⟩
  have ran : (exec (System.step mainChain)
      (System.init (PaymentService.opening supplyChain)
        [refusedCall "key-1" "u" "m" 30000, refusedCall "key-2" "m" "x" 30000])
      (List.replicate 15 0 ++ List.replicate 20 1 ++ List.replicate 6 0)).any
        (fun sys => (sys.threads.all fun t => t.pc.outcome.isSome) &&
          decide (worth unitsOf sys.service.accounts = 130000)) = true := by
    decide +kernel
  obtain ⟨sys, reached, found⟩ := exec_any ran
  obtain ⟨ended, created⟩ := Bool.and_eq_true_iff.1 found
  exact ⟨sys, reached, (System.complete_of_all ended).quiescent, of_decide_eq_true created⟩

/-- With the merchant's own payment still to come, the reversal finds the money. -/
theorem compensation_conserves_reversed : ∃ sys,
    Reaches mainChain (PaymentService.opening supplyChain)
      [refusedCall "key-1" "u" "m" 30000, refusedCall "key-2" "m" "x" 30000]
      (List.replicate 21 0 ++ List.replicate 13 1) sys ∧
    worth unitsOf sys.service.accounts = worth unitsOf supplyChain := by
  have ran : (exec (System.step mainChain)
      (System.init (PaymentService.opening supplyChain)
        [refusedCall "key-1" "u" "m" 30000, refusedCall "key-2" "m" "x" 30000])
      (List.replicate 21 0 ++ List.replicate 13 1)).any
        (fun sys => sys.threads.all fun t => t.pc.outcome.isSome) = true := by
    decide +kernel
  obtain ⟨sys, reached, ended⟩ := exec_any ran
  refine ⟨sys, reached, ?_⟩
  show worth unitsOf sys.service.accounts =
    worth unitsOf (PaymentService.opening supplyChain).accounts
  exact compensation_conserves solvent_supplyChain inr_supplyChain reached
    (Reversible.of_check (by decide +kernel)) (System.complete_of_all ended).quiescent

end PaymentSystem.Service
