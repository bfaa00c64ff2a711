/-
# PaymentSystem.Service.Solo -- one call alone is `pay`

The two models of `pay` agree: a call that runs without interleaving, stepped by the
machine from its start to its end, returns what `pay` returns and leaves the service
as `pay` leaves it (`solo`).  What holds in every run of the machine therefore holds
of `pay` (`solo_reaches`).
-/
import PaymentSystem.Service.Locals

namespace PaymentSystem.Service

open PaymentSystem.Common
open PaymentSystem.Domain
open PaymentSystem.Patterns
open PaymentSystem.Adapters
open PaymentSystem.Infra
open PaymentSystem.Theory.Runs

set_option autoImplicit false

/-- Some steps of one call, with no other in between. -/
inductive Steps (chain : ValidationChain) (c : Call) :
    PaymentService → Pc → PaymentService → Pc → Prop where
  | done (s : PaymentService) (pc : Pc) : Steps chain c s pc s pc
  | step {s s' s'' : PaymentService} {pc pc' pc'' : Pc} (first : next chain c s pc = some (s', pc'))
      (rest : Steps chain c s' pc' s'' pc'') : Steps chain c s pc s'' pc''

variable {chain : ValidationChain} {c : Call}

/-- Run from `pc`, the call ends with the outcome of `r` and its service, the payer's
lock released. -/
def Ends (chain : ValidationChain) (c : Call) (s : PaymentService) (pc : Pc)
    (r : Outcome × PaymentService) : Prop :=
  ∃ txn, Steps chain c s pc { r.2 with locks := r.2.locks.unlock (lockKey c.req) }
    (.finished txn r.1)

theorem Ends.step {s s' : PaymentService} {pc pc' : Pc} {r : Outcome × PaymentService}
    (first : next chain c s pc = some (s', pc')) (rest : Ends chain c s' pc' r) :
    Ends chain c s pc r := by
  obtain ⟨txn, steps⟩ := rest
  exact ⟨txn, .step first steps⟩

theorem ends_unlock (s : PaymentService) (txn : Transaction) (out : Outcome) :
    Ends chain c s (.unlock txn out) (out, s) :=
  ⟨txn, .step rfl (.done _ _)⟩

theorem ends_conclude (s : PaymentService) (txn : Transaction) (type : String)
    (res : Result Transaction) :
    Ends chain c s (.save txn type res) (conclude c.env txn type res s) :=
  .step rfl (.step rfl (.step rfl (ends_unlock _ txn _)))

theorem ends_fail (s : PaymentService) (txn : Transaction) (err : Error) :
    Ends chain c s (.failing txn err) (fail c.env txn err s) :=
  ends_conclude s _ _ _

theorem ends_compensate (s : PaymentService) (f : Flight) (err : Error) :
    Ends chain c s (.undoCredit f err)
      (match s.onAccount c.req.payerAccountId (·.credit c.req.amount) with
        | (.error e, s) => (.error e, s)
        | (.ok _, s) =>
          match s.onAccount c.req.payeeAccountId (·.debit c.req.amount) with
          | (.error e, s) => (.error e, s)
          | (.ok _, s) => fail c.env f.txn err s) := by
  split
  · rename_i e s' ran
    exact .step (by simp only [next, ran]) (ends_unlock s' f.txn _)
  · rename_i status s' ran
    have first : next chain c s (.undoCredit f err) = some (s', .undoDebit f err) := by
      simp only [next, ran]
    refine .step first ?_
    split
    · rename_i e s'' ran'
      exact .step (by simp only [next, ran']) (ends_unlock s'' f.txn _)
    · rename_i status' s'' ran'
      exact .step (by simp only [next, ran']) (ends_fail s'' f.txn err)

theorem ends_record (s : PaymentService) (f : Flight) :
    Ends chain c s (.drawDebitId f) (record c.env c.req f.txn f.strategy f.ref s) := by
  refine .step rfl (.step rfl (.step rfl (.step rfl ?_)))
  refine .step rfl ?_
  unfold record
  simp only
  split
  · exact ends_compensate _ f _
  · refine .step rfl ?_
    split
    · exact ends_fail _ f.txn _
    · exact ends_conclude _ _ _ _

theorem ends_move (s : PaymentService) (f : Flight) :
    Ends chain c s (.debit f) (move c.env c.req f.txn f.strategy f.ref s) := by
  unfold move
  split
  · rename_i e s' ran
    exact .step (by simp only [next, ran]) (ends_unlock s' f.txn _)
  · rename_i d s' ran
    split
    · rename_i refused
      exact .step (by simp only [next, ran, refused, if_true]) (ends_fail s' f.txn d.err)
    · rename_i taken
      have first : next chain c s (.debit f) = some (s', .credit f) := by
        simp [next, ran, taken]
      refine .step first ?_
      split
      · rename_i e s'' ran'
        exact .step (by simp only [next, ran']) (ends_unlock s'' f.txn _)
      · rename_i status s'' ran'
        exact .step (by simp only [next, ran']) (ends_record s'' f)

theorem ends_process (chain : ValidationChain) (c : Call) (s : PaymentService) (txn : Transaction) :
    Ends chain c s (.validate txn) (process chain c.env c.req txn s) := by
  unfold process
  split
  · rename_i e threw
    exact .step (by simp only [next, threw]) (ends_unlock s txn _)
  · rename_i v ran
    split
    · rename_i rejected
      exact .step (by simp only [next, ran, rejected, if_true]) (ends_fail s txn v.err)
    · rename_i passed
      have first : next chain c s (.validate txn) = some (s, .load txn) := by
        simp [next, ran, passed]
      refine .step first ?_
      split
      · rename_i noPayer
        exact .step (by simp only [next, noPayer, if_true]) (ends_fail s txn _)
      · rename_i payer
        split
        · rename_i noPayee
          exact .step (by simp [next, payer, noPayee]) (ends_fail s txn _)
        · rename_i payee
          split
          · rename_i unsupported
            exact .step (by simp [next, payer, payee, unsupported]) (ends_fail s txn _)
          · rename_i strategy supported
            have first : next chain c s (.load txn) = some (s, .authorize txn strategy) := by
              simp [next, payer, payee, supported]
            refine .step first ?_
            split
            · rename_i e declined
              exact .step (by simp only [next, declined]) (ends_fail s txn e)
            · rename_i ref approved
              exact .step (by simp only [next, approved])
                (ends_move s ⟨advance txn .authorized, strategy, ref⟩)

/-! ## The whole call -/

/-- **A call alone is `pay`**, if the payer's lock is free when it starts. -/
theorem solo (chain : ValidationChain) (c : Call) (s : PaymentService) (free : ¬ s.locks.Held (lockKey c.req)) :
    ∃ pc, pc.outcome = some (pay chain c.env c.req s).1 ∧
      Steps chain c s .start (pay chain c.env c.req s).2 pc := by
  unfold pay
  cases found : s.idempotency.lookup c.req.idempotencyKey with
  | some existingId =>
    have taken (id : String) :
        s.idempotency.putIfAbsent c.req.idempotencyKey id = (false, s.idempotency) := by
      simp [InMemoryIdempotencyStore.putIfAbsent, found]
    simp only [taken, Bool.not_false, if_true]
    refine ⟨.replied (replay s c.req.idempotencyKey), rfl, ?_⟩
    refine .step rfl ?_
    have lost : next chain c { s with txnIds := s.txnIds.next.2 } (.claim s.txnIds.next.1) =
        some ({ s with txnIds := s.txnIds.next.2 }, .lookup) := by
      simp [next, taken]
    refine .step lost ?_
    have looked : next chain c { s with txnIds := s.txnIds.next.2 } .lookup =
        some ({ s with txnIds := s.txnIds.next.2 }, .replay existingId) := by
      simp [next, InMemoryIdempotencyStore.get, found]
    refine .step looked ?_
    cases stored : s.transactions.lookup existingId with
    | none =>
      have answer : replay s c.req.idempotencyKey = .fail ⟨.duplicateRequest,
          "duplicate request for idempotency key: " ++ c.req.idempotencyKey⟩ := by
        simp [replay, InMemoryIdempotencyStore.get, InMemoryTransactionRepository.find, found, stored]
      rw [answer]
      refine .step ?_ (.done _ _)
      simp [next, InMemoryTransactionRepository.find, stored]
    | some prior =>
      have answer : replay s c.req.idempotencyKey = .ok prior := by
        simp [replay, InMemoryIdempotencyStore.get, InMemoryTransactionRepository.find, found, stored]
      rw [answer]
      refine .step ?_ (.done _ _)
      simp [next, InMemoryTransactionRepository.find, stored]
  | none =>
    have fresh (id : String) : s.idempotency.putIfAbsent c.req.idempotencyKey id =
        (true, s.idempotency.insert c.req.idempotencyKey id) := by
      simp [InMemoryIdempotencyStore.putIfAbsent, found]
    simp only [fresh, Bool.not_true, Bool.false_eq_true, if_false]
    generalize claimed : ({ s with
      txnIds := s.txnIds.next.2,
      idempotency := s.idempotency.insert c.req.idempotencyKey s.txnIds.next.1 } : PaymentService) = s₁
    have free₁ : ¬ s₁.locks.Held (lockKey c.req) := by
      rw [← claimed]
      exact free
    have won : next chain c { s with txnIds := s.txnIds.next.2 } (.claim s.txnIds.next.1) =
        some (s₁, .build s.txnIds.next.1) := by
      simp [next, fresh, ← claimed]
    split
    · rename_i e threw
      refine ⟨.unbuilt s.txnIds.next.1 e, rfl, .step rfl (.step won (.step ?_ (.done _ _)))⟩
      simp only [next, threw]
    · rename_i txn built
      have first : next chain c s₁ (.build s.txnIds.next.1) = some (s₁, .mutexFor txn) := by
        simp only [next, built]
      have free₂ : ¬ (s₁.locks.mutexFor (lockKey c.req)).Held (lockKey c.req) := by
        rwa [InMemoryDistributedLock.held_mutexFor]
      have locked : next chain c { s₁ with locks := s₁.locks.mutexFor (lockKey c.req) } (.lock txn) =
          some ({ s₁ with locks := (s₁.locks.mutexFor (lockKey c.req)).lock (lockKey c.req) },
            .validate txn) := by
        simp only [next, free₂, if_false]
      obtain ⟨last, steps⟩ := ends_process chain c
        { s₁ with locks := (s₁.locks.mutexFor (lockKey c.req)).lock (lockKey c.req) } txn
      subst claimed
      exact ⟨_, rfl, .step rfl (.step won (.step first (.step rfl (.step locked steps))))⟩

/-- Some steps of one call are a run, among others that stand still. -/
theorem Steps.exec {s s' : PaymentService} {pc pc' : Pc} (steps : Steps chain c s pc s' pc')
    {threads : List Thread} {i : Nat} (at_ : threads[i]? = some ⟨c, pc⟩) : ∃ n,
      Theory.Runs.exec (System.step chain) ⟨s, threads⟩ (List.replicate n i) =
        some ⟨s', threads.set i ⟨c, pc'⟩⟩ := by
  induction steps generalizing threads with
  | done s pc =>
    obtain ⟨inside, is⟩ := List.getElem?_eq_some_iff.1 at_
    exact ⟨0, by rw [← is, List.set_getElem_self]; rfl⟩
  | @step s s₁ s₂ pc pc₁ pc₂ first rest ih =>
    have inside := (List.getElem?_eq_some_iff.1 at_).1
    have at₁ : (threads.set i ⟨c, pc₁⟩)[i]? = some ⟨c, pc₁⟩ := List.getElem?_set_self inside
    obtain ⟨n, ran⟩ := ih at₁
    rw [List.set_set] at ran
    refine ⟨n + 1, exec_cons.2 ⟨_, ?_, ran⟩⟩
    simp [System.step, at_, first]

/-- **What `pay` does is a run of the machine.** -/
theorem solo_reaches (chain : ValidationChain) (c : Call) (s : PaymentService)
    (free : ¬ s.locks.Held (lockKey c.req)) :
    ∃ sched pc, pc.outcome = some (pay chain c.env c.req s).1 ∧
      Reaches chain s [c] sched ⟨(pay chain c.env c.req s).2, [⟨c, pc⟩]⟩ := by
  obtain ⟨pc, outcome, steps⟩ := solo chain c s free
  have at_ : [(⟨c, .start⟩ : Thread)][0]? = some ⟨c, .start⟩ := rfl
  obtain ⟨n, ran⟩ := steps.exec at_
  exact ⟨_, pc, outcome, ran⟩

end PaymentSystem.Service
