/-
# PaymentSystem.Service.Failures -- what a failed payment leaves behind

Every error before the debit leaves the accounts and the journal alone.  After it
there are two: a capture that fails, where nothing is undone, and a ledger that
rejects the pair, where both halves are, unless the payee's reversing debit finds a
balance its credit carried past the top of the range (`Spoils`).
`failed_moves_nothing_iff` is that these are the only exceptions, over any chain,
strategies, ledger and subscribers, from any state.
-/
import PaymentSystem.Service.Exits

namespace PaymentSystem.Service

open PaymentSystem.Common
open PaymentSystem.Domain
open PaymentSystem.Patterns
open PaymentSystem.Adapters

set_option autoImplicit false

variable {chain : ValidationChain} {c : Call} {id : String} {s : PaymentService}
  {payer payee : Account} {strategy : PaymentStrategy} {ref : GatewayRef}

/-! ## Answers -/

/-- The subscribers let the failure of the call, under an id, be answered. -/
def Heard (c : Call) (id : String) : Prop :=
  c.env.subscribers "PaymentFailed" (payloadOf (c.txn id .failed)) = .ok ()

theorem told_failed (err : Error) :
    (∃ e, told c.env (c.txn id .failed) "PaymentFailed" (.fail err) = .ok (.fail e)) ↔
      Heard c id := by
  unfold Heard told
  cases c.env.subscribers "PaymentFailed" (payloadOf (c.txn id .failed)) with
  | error e => exact ⟨fun ⟨_, is⟩ => (nomatch is), nofun⟩
  | ok _ => exact ⟨fun _ => rfl, fun _ => ⟨err, rfl⟩⟩

/-- A capture is never answered with an error. -/
theorem told_captured {txn : Transaction} {type : String} {e : Error} :
    told c.env txn type (.ok txn) ≠ .ok (.fail e) := by
  intro is
  cases told_ok is

/-! ## What is not undone -/

/-- The payee's reversing debit finds less than the amount: the credit carried the
balance past the top of the range. -/
def Stuck (c : Call) (payee : Account) : Prop :=
  payee.Creditable c.req.amount ∧ c.req.amount.minorUnits ≠ 0 ∧
    (payee.balance.minorUnits + c.req.amount.minorUnits).toInt < c.req.amount.minorUnits.toInt

/-- The call moves money, is answered an error, and what it did is not undone: its capture
fails, or its pair is rejected and the payee is stuck with the amount. -/
def Spoils (chain : ValidationChain) (c : Call) (s : PaymentService) : Prop :=
  Begins c s ∧ Heard c s.txnIds.next.1 ∧ ∃ payer payee strategy ref,
    Admits chain c s.txnIds.next.1 s payer payee strategy ref ∧
    (Accepts c s.txnIds.next.1 s ∧ ¬ Captures c s.txnIds.next.1 strategy ref ∨
      ¬ Accepts c s.txnIds.next.1 s ∧ Stuck c payee)

/-- **A failed payment moves no money, except where it spoils.** -/
theorem failed_moves_nothing_iff (chain : ValidationChain) (c : Call) (s : PaymentService) :
    ((∃ e, (pay chain c.env c.req s).1 = .ok (.fail e)) →
      (∀ k, (pay chain c.env c.req s).2.accounts.lookup k = s.accounts.lookup k) ∧
        (pay chain c.env c.req s).2.journal = s.journal) ↔ ¬ Spoils chain c s := by
  have pays := pay_pays chain c s
  generalize pay chain c.env c.req s = r at pays ⊢
  cases pays with
  | replayed taken =>
    refine iff_of_true (fun _ => ⟨fun k => rfl, rfl⟩) fun spoils => ?_
    cases taken.symm.trans spoils.1.fresh
  | unnamed e fresh unnamed =>
    exact iff_of_true (fun ⟨_, answer⟩ => nomatch answer) fun spoils => unnamed spoils.1.named
  | begun begins exits =>
    cases exits with
    | raised e threw =>
      refine iff_of_true (fun ⟨_, answer⟩ => nomatch answer) ?_
      rintro ⟨-, -, payer, payee, strategy, ref, admits, -⟩
      exact admits.cleared.not_throws ⟨e, threw⟩
    | stopped err quiet inadmissible =>
      refine iff_of_true (fun _ => ⟨fun k => rfl, rfl⟩) ?_
      rintro ⟨-, -, payer, payee, strategy, ref, admits, -⟩
      exact inadmissible ⟨payer, payee, strategy, ref, admits.of_accounts rfl⟩
    | captured admits accepts captures =>
      refine iff_of_true (fun ⟨_, answer⟩ => absurd answer told_captured) ?_
      rintro ⟨-, -, payer', payee', strategy', ref', also, ⟨-, fails⟩ | ⟨rejects, -⟩⟩
      · obtain ⟨-, -, rfl, rfl⟩ := admits.unique (also.of_accounts rfl)
        exact fails captures
      · exact rejects accepts
    | @uncaptured payer payee strategy ref err admits accepts fails =>
      -- the pair stays in the journal
      have grown : (s.entered c).journal ++ (s.entered c).posting c s.txnIds.next.1 ≠ s.journal := by
        intro same
        have length := congrArg List.length same
        rw [List.length_append] at length
        exact absurd length (by simp [PaymentService.entered, PaymentService.posting, postingOf])
      have spoils : Spoils chain c s ↔ Heard c s.txnIds.next.1 := by
        constructor
        · exact fun spoils => spoils.2.1
        · exact fun heard => ⟨begins, heard, payer, payee, strategy, ref,
            admits.of_accounts rfl, .inl ⟨accepts, fails⟩⟩
      rw [spoils, ← told_failed err]
      constructor
      · exact fun keeps answer => grown (keeps answer).2
      · exact fun silent answer => absurd answer silent
    | @compensated payer payee strategy ref err admits rejects s' rest accounts =>
      have spoils : Spoils chain c s ↔ Heard c s.txnIds.next.1 ∧ Stuck c payee := by
        constructor
        · rintro ⟨-, heard, payer', payee', strategy', ref', also, ⟨accepts, -⟩ | ⟨-, stuck⟩⟩
          · exact absurd accepts rejects
          · obtain ⟨-, rfl, -, -⟩ := admits.unique (also.of_accounts rfl)
            exact ⟨heard, stuck⟩
        · exact fun ⟨heard, stuck⟩ => ⟨begins, heard, payer, payee, strategy, ref,
            admits.of_accounts rfl, .inr ⟨rejects, stuck⟩⟩
      have journal : s'.journal = s.journal := by
        rw [rest]
        rfl
      -- the payer is whole, and the payee is unless stuck
      have undone : (∀ k, s'.accounts.lookup k = s.accounts.lookup k) ↔ ¬ Stuck c payee := by
        have found : s.accounts.lookup c.req.payeeAccountId = some payee := admits.payeeFound
        unfold Stuck
        rw [← Account.debited_credited_iff]
        constructor
        · intro same
          have here := accounts c.req.payeeAccountId
          rw [same, found, if_pos rfl] at here
          exact (Option.some.inj here).symm
        · intro back k
          rw [accounts, back]
          split
          · rename_i here
            rw [here, found]
          · rfl
      rw [spoils, ← told_failed err, not_and, ← undone]
      exact ⟨fun keeps answer => (keeps answer).1, fun keeps answer => ⟨keeps answer, journal⟩⟩

/-! ## A capture that fails -/

/-- A gateway that authorizes and then fails to capture. -/
def timingOut : PaymentStrategy where
  authorize txn := .ok ⟨"CARD", "auth_" ++ txn.id⟩
  capture _ _ := Status.fail .gatewayError "capture timed out"

/-- A card payment through that gateway. -/
def timingOutCall : Call where
  req := ⟨"key-1", "u", "m", ⟨30000, .inr⟩, .card⟩
  env := { Env.shipped 0 with strategies := fun _ => some timingOut }

/-- The payment fails, the money has moved and the journal says so. -/
theorem failed_capture_moves_money :
    (pay mainChain timingOutCall.env timingOutCall.req (PaymentService.opening userAndMerchant)).1 =
        .ok (.fail ⟨.gatewayError, "capture timed out"⟩) ∧
      (pay mainChain timingOutCall.env timingOutCall.req
        (PaymentService.opening userAndMerchant)).2.accounts.lookup "u" ≠ userAndMerchant.lookup "u" ∧
      (pay mainChain timingOutCall.env timingOutCall.req
        (PaymentService.opening userAndMerchant)).2.journal.length = 2 := by
  refine ⟨rfl, ?_, ?_⟩ <;> decide +kernel

end PaymentSystem.Service
