/-
# PaymentSystem.Service.Retries -- what a retry is answered

A retry is answered from the transaction stored under the id its key maps to, always
as a success: a first call that failed stored its transaction too, so its retry is
told `ok` with a `FAILED` transaction.  A first call that succeeded is answered the
same again, as long as no later call draws the same id and saves over it, which takes
the id counter all the way round (`unspoiled_of_short`).
-/
import PaymentSystem.Service.Exits

namespace PaymentSystem.Service

open PaymentSystem.Common
open PaymentSystem.Domain
open PaymentSystem.Patterns
open PaymentSystem.Adapters
open PaymentSystem.Infra

set_option autoImplicit false

/-! ## What a call stores -/

/-- The call gets as far as saving its transaction. -/
def Saves (chain : ValidationChain) (c : Call) (s : PaymentService) : Prop :=
  Begins c s ∧ ¬ Throws chain (c.txn s.txnIds.next.1 .initiated)

section Step

variable {chain : ValidationChain} {c : Call} {s : PaymentService}

/-- A call saves its own transaction, under the id it drew, or nothing. -/
theorem pay_transactions (chain : ValidationChain) (c : Call) (s : PaymentService) :
    (Saves chain c s ∧ ∃ status, (pay chain c.env c.req s).2.transactions =
        s.transactions.insert s.txnIds.next.1 (c.txn s.txnIds.next.1 status)) ∨
      (¬ Saves chain c s ∧ (pay chain c.env c.req s).2.transactions = s.transactions) := by
  have pays := pay_pays chain c s
  generalize pay chain c.env c.req s = r at pays ⊢
  cases pays with
  | replayed taken =>
    refine .inr ⟨fun saves => ?_, rfl⟩
    cases taken.symm.trans saves.1.fresh
  | unnamed e fresh unnamed => exact .inr ⟨fun saves => unnamed saves.1.named, rfl⟩
  | begun begins exits =>
    cases exits with
    | raised e threw => exact .inr ⟨fun saves => saves.2 ⟨e, threw⟩, rfl⟩
    | stopped err quiet inadmissible => exact .inl ⟨⟨begins, quiet⟩, _, rfl⟩
    | captured admits accepts captures =>
      exact .inl ⟨⟨begins, admits.cleared.not_throws⟩, _, rfl⟩
    | uncaptured err admits accepts fails =>
      exact .inl ⟨⟨begins, admits.cleared.not_throws⟩, _, rfl⟩
    | compensated err admits rejects s' rest accounts =>
      refine .inl ⟨⟨begins, admits.cleared.not_throws⟩, .failed, ?_⟩
      rw [rest]
      rfl

/-- A key once claimed stays with its id. -/
theorem pay_keeps_key (chain : ValidationChain) (c : Call) {key id : String}
    (claimed : s.idempotency.lookup key = some id) :
    (pay chain c.env c.req s).2.idempotency.lookup key = some id := by
  have inserted (fresh : s.idempotency.lookup c.req.idempotencyKey = none) :
      (s.idempotency.insert c.req.idempotencyKey s.txnIds.next.1).lookup key = some id := by
    have other : key ≠ c.req.idempotencyKey := by
      rintro rfl
      cases fresh.symm.trans claimed
    rw [AList.lookup_insert_ne other]
    exact claimed
  have pays := pay_pays chain c s
  generalize pay chain c.env c.req s = r at pays ⊢
  cases pays with
  | replayed taken => exact claimed
  | unnamed e fresh unnamed => exact inserted fresh
  | @begun r begins exits =>
    show r.2.idempotency.lookup key = some id
    rw [exits.frame.1]
    exact inserted begins.fresh

theorem pay_txnIds (chain : ValidationChain) (c : Call) (s : PaymentService) :
    (pay chain c.env c.req s).2.txnIds = s.txnIds.next.2 := by
  have pays := pay_pays chain c s
  generalize pay chain c.env c.req s = r at pays ⊢
  cases pays with
  | replayed taken => rfl
  | unnamed e fresh unnamed => rfl
  | begun begins exits => exact exits.frame.2

end Step

/-! ## The first call -/

/-- The call is captured: it moves money, its pair is accepted and its capture succeeds. -/
def Succeeds (chain : ValidationChain) (c : Call) (s : PaymentService) : Prop :=
  Begins c s ∧ ∃ payer payee strategy ref,
    Admits chain c s.txnIds.next.1 s payer payee strategy ref ∧
      Accepts c s.txnIds.next.1 s ∧ Captures c s.txnIds.next.1 strategy ref

/-- What is in the stores after a first call that returned: its key with its id, and under
that id its transaction, captured exactly when the call succeeded. -/
theorem pay_first {chain : ValidationChain} {c : Call} {s : PaymentService} {res : Result Transaction}
    (fresh : s.idempotency.lookup c.req.idempotencyKey = none)
    (returned : (pay chain c.env c.req s).1 = .ok res) :
    (pay chain c.env c.req s).2.idempotency.lookup c.req.idempotencyKey = some s.txnIds.next.1 ∧
      ∃ txn, (pay chain c.env c.req s).2.transactions.lookup s.txnIds.next.1 = some txn ∧
        (Succeeds chain c s ∧ txn = c.txn s.txnIds.next.1 .captured ∧ res = .ok txn ∨
          ¬ Succeeds chain c s ∧ ∃ e, res = .fail e) := by
  have pays := pay_pays chain c s
  generalize pay chain c.env c.req s = r at pays returned ⊢
  cases pays with
  | replayed taken => cases fresh.symm.trans taken
  | unnamed e fresh unnamed => cases returned
  | @begun r begins exits =>
    have claimed : r.2.idempotency.lookup c.req.idempotencyKey = some s.txnIds.next.1 := by
      rw [exits.frame.1]
      exact AList.lookup_insert _
    refine ⟨claimed, ?_⟩
    have failed {err : Error} (not : ¬ Succeeds chain c s)
        (answer : told c.env (c.txn s.txnIds.next.1 .failed) "PaymentFailed" (.fail err) = .ok res)
        {transactions : InMemoryTransactionRepository}
        (saved : transactions = s.transactions.insert s.txnIds.next.1 (c.txn s.txnIds.next.1 .failed)) :
        ∃ txn, transactions.lookup s.txnIds.next.1 = some txn ∧
          (Succeeds chain c s ∧ txn = c.txn s.txnIds.next.1 .captured ∧ res = .ok txn ∨
            ¬ Succeeds chain c s ∧ ∃ e, res = .fail e) := by
      rw [saved]
      exact ⟨_, AList.lookup_insert _, .inr ⟨not, err, told_ok answer⟩⟩
    cases exits with
    | raised e threw => cases returned
    | stopped err quiet inadmissible =>
      refine failed ?_ returned rfl
      rintro ⟨-, payer, payee, strategy, ref, admits, -⟩
      exact inadmissible ⟨payer, payee, strategy, ref, admits.of_accounts rfl⟩
    | captured admits accepts captures =>
      exact ⟨_, AList.lookup_insert _,
        .inl ⟨⟨begins, _, _, _, _, admits.of_accounts rfl, accepts, captures⟩, rfl,
          told_ok returned⟩⟩
    | uncaptured err admits accepts fails =>
      refine failed ?_ returned rfl
      rintro ⟨-, payer, payee, strategy, ref, also, -, captures⟩
      obtain ⟨-, -, rfl, rfl⟩ := admits.unique (also.of_accounts rfl)
      exact fails captures
    | compensated err admits rejects s' rest accounts =>
      refine failed ?_ returned (by rw [rest]; rfl)
      rintro ⟨-, payer, payee, strategy, ref, also, accepts, -⟩
      exact rejects accepts

/-! ## Later calls -/

/-- No call of the sequence draws the id and saves under it. -/
def Unspoiled (chain : ValidationChain) (id : String) : PaymentService → List Call → Prop
  | _, [] => True
  | s, c :: rest => ¬ (Saves chain c s ∧ s.txnIds.next.1 = id) ∧
      Unspoiled chain id (pay chain c.env c.req s).2 rest

/-- Later calls keep a claimed key and what is stored under its id, or leave the
transaction of another key in its place. -/
theorem payAll_keeps (chain : ValidationChain) {s : PaymentService} {key id : String}
    {txn : Transaction} (claimed : s.idempotency.lookup key = some id)
    (stored : s.transactions.lookup id = some txn) (rest : List Call) :
    (payAll chain s rest).2.idempotency.lookup key = some id ∧
      ∃ txn', (payAll chain s rest).2.transactions.lookup id = some txn' ∧
        (Unspoiled chain id s rest ∧ txn' = txn ∨
          ¬ Unspoiled chain id s rest ∧ txn'.idempotencyKey ≠ key) := by
  induction rest generalizing s txn with
  | nil => exact ⟨claimed, txn, stored, .inl ⟨trivial, rfl⟩⟩
  | cons c rest ih =>
    have claimed' := pay_keeps_key chain c claimed
    show (payAll chain (pay chain c.env c.req s).2 rest).2.idempotency.lookup key = _ ∧
      ∃ txn', (payAll chain (pay chain c.env c.req s).2 rest).2.transactions.lookup id = some txn' ∧
        ((_ ∧ _) ∧ _ ∨ ¬ (_ ∧ _) ∧ _)
    by_cases spoils : Saves chain c s ∧ s.txnIds.next.1 = id
    · -- the key is fresh, so it is not the one that was claimed
      obtain ⟨saves, rfl⟩ := spoils
      have other : c.req.idempotencyKey ≠ key := by
        rintro rfl
        cases saves.1.fresh.symm.trans claimed
      obtain ⟨status, saved⟩ : ∃ status, (pay chain c.env c.req s).2.transactions =
          s.transactions.insert s.txnIds.next.1 (c.txn s.txnIds.next.1 status) := by
        rcases pay_transactions chain c s with ⟨-, saved⟩ | ⟨not, -⟩
        · exact saved
        · exact absurd saves not
      have now : (pay chain c.env c.req s).2.transactions.lookup s.txnIds.next.1 =
          some (c.txn s.txnIds.next.1 status) := by
        rw [saved]
        exact AList.lookup_insert _
      obtain ⟨kept, txn', there, ⟨-, rfl⟩ | ⟨-, foreign⟩⟩ := ih claimed' now
      · exact ⟨kept, _, there, .inr ⟨fun both => both.1 ⟨saves, rfl⟩, other⟩⟩
      · exact ⟨kept, txn', there, .inr ⟨fun both => both.1 ⟨saves, rfl⟩, foreign⟩⟩
    · have now : (pay chain c.env c.req s).2.transactions.lookup id = some txn := by
        rcases pay_transactions chain c s with ⟨saves, status, saved⟩ | ⟨-, same⟩
        · rw [saved, AList.lookup_insert_ne fun is => spoils ⟨saves, is.symm⟩]
          exact stored
        · rw [same]
          exact stored
      simp only [spoils, not_false_iff, true_and]
      exact ih claimed' now

theorem unspoiled_drawn (chain : ValidationChain) {s : PaymentService} {tag : String}
    {start k : Nat} {rest : List Call} (drawn : s.txnIds = IdGenerator.drawn tag start k)
    (positive : 0 < k) (short : k + rest.length ≤ 2 ^ 64) :
    Unspoiled chain (IdGenerator.idOf tag (UInt64.ofNat (start + 0))) s rest := by
  induction rest generalizing s k with
  | nil => trivial
  | cons c rest ih =>
    rw [List.length_cons] at short
    refine ⟨?_, ih (k := k + 1) ?_ (by omega) (by omega)⟩
    · rintro ⟨-, same⟩
      rw [drawn, IdGenerator.drawn_next] at same
      have zero := IdGenerator.idOf_injective (by omega) (by omega) same
      omega
    · rw [pay_txnIds, drawn, IdGenerator.drawn_next]

/-- **Fewer than `2 ^ 64` later calls never come back to the id.** -/
theorem unspoiled_of_short (chain : ValidationChain) (c : Call) (s : PaymentService)
    {rest : List Call} (short : rest.length < 2 ^ 64) :
    Unspoiled chain s.txnIds.next.1 (pay chain c.env c.req s).2 rest := by
  obtain ⟨tag, start, first⟩ : ∃ tag start, s.txnIds = IdGenerator.drawn tag start 0 := by
    refine ⟨s.txnIds.tag, s.txnIds.counter.toNat, ?_⟩
    rw [IdGenerator.drawn, Nat.add_zero, UInt64.ofNat_toNat]
  rw [first, IdGenerator.drawn_next]
  refine unspoiled_drawn chain ?_ Nat.zero_lt_one (by omega)
  rw [pay_txnIds, first, IdGenerator.drawn_next]

/-! ## The retry -/

/-- The second verdict is the first: the same transaction, or the same error code. -/
def SameVerdict (first : Result Transaction) (second : Outcome) : Prop :=
  match first with
  | .ok txn => second = .ok (.ok txn)
  | .fail e => ∃ e', second = .ok (.fail e') ∧ e'.code = e.code

/-- **A retry is answered like the original exactly when the original succeeded** and no
later call has saved over its transaction. -/
theorem retry_agrees_iff {chain : ValidationChain} {c : Call} {s : PaymentService}
    {res : Result Transaction} (fresh : s.idempotency.lookup c.req.idempotencyKey = none)
    (returned : (pay chain c.env c.req s).1 = .ok res) (rest : List Call) (env : Env) :
    SameVerdict res
        (pay chain env c.req (payAll chain (pay chain c.env c.req s).2 rest).2).1 ↔
      Succeeds chain c s ∧
        Unspoiled chain s.txnIds.next.1 (pay chain c.env c.req s).2 rest := by
  obtain ⟨claimed, txn, stored, first⟩ := pay_first fresh returned
  obtain ⟨claimed', txn', stored', later⟩ := payAll_keeps chain claimed stored rest
  generalize (payAll chain (pay chain c.env c.req s).2 rest).2 = s' at claimed' stored'
  have answer : (pay chain env c.req s').1 = .ok (.ok txn') := by
    have pays := pay_pays chain ⟨c.req, env⟩ s'
    generalize pay chain env c.req s' = r at pays ⊢
    cases pays with
    | replayed taken =>
      show Except.ok (replay s' c.req.idempotencyKey) = _
      simp only [replay, InMemoryIdempotencyStore.get, InMemoryTransactionRepository.find, claimed',
        stored']
    | unnamed e fresh' unnamed => cases claimed'.symm.trans fresh'
    | begun begins exits => cases claimed'.symm.trans begins.fresh
  rw [answer]
  rcases first with ⟨succeeds, mine, rfl⟩ | ⟨not, e, rfl⟩
  · simp only [succeeds, true_and]
    rcases later with ⟨unspoiled, rfl⟩ | ⟨spoiled, foreign⟩
    · exact iff_of_true rfl unspoiled
    · refine iff_of_false (fun same => foreign ?_) spoiled
      have is : txn' = txn := by
        cases same
        rfl
      rw [is, mine]
      rfl
  · refine iff_of_false ?_ fun both => not both.1
    rintro ⟨e', is, -⟩
    cases is

/-- A payment of 2000.00 INR from a wallet of 1000.00 is refused, and its retry is told
it went well. -/
theorem failed_retry_answered_ok : ∃ e txn,
    (pay mainChain (Env.shipped 0) (upiCall "key-1" "u" "m" 200000).req
      (PaymentService.opening userAndMerchant)).1 = .ok (.fail e) ∧ e.code = .insufficientFunds ∧
    (pay mainChain (Env.shipped 0) (upiCall "key-1" "u" "m" 200000).req
      (pay mainChain (Env.shipped 0) (upiCall "key-1" "u" "m" 200000).req
        (PaymentService.opening userAndMerchant)).2).1 = .ok (.ok txn) ∧ txn.status = .failed :=
  ⟨_, _, rfl, rfl, rfl, rfl⟩

/-- A captured payment is answered the same after another in between. -/
theorem retry_agrees_captured : SameVerdict
    (.ok ((upiCall "key-1" "u" "m" 30000).txn "txn_1" .captured))
    (pay mainChain (Env.shipped 5) (upiCall "key-1" "u" "m" 30000).req
      (payAll mainChain (pay mainChain (Env.shipped 0) (upiCall "key-1" "u" "m" 30000).req
        (PaymentService.opening userAndMerchant)).2 [upiCall "key-2" "m" "u" 500]).2).1 := by
  refine (retry_agrees_iff (c := upiCall "key-1" "u" "m" 30000)
    (s := PaymentService.opening userAndMerchant) rfl (by decide +kernel) _ _).2
      ⟨⟨⟨rfl, by decide⟩, ?_⟩, ?_⟩
  · refine ⟨⟨"u", ⟨100000, .inr⟩⟩, ⟨"m", ⟨0, .inr⟩⟩, upiPaymentStrategy, ⟨"UPI", "upi_txn_1"⟩, ?_,
      by unfold Accepts; decide +kernel, rfl⟩
    exact ⟨⟨Status.ok, rfl, rfl⟩, by decide, by decide, rfl, rfl, by decide⟩
  · exact unspoiled_of_short _ _ _ (by decide)

end PaymentSystem.Service
