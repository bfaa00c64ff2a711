/-
# PaymentSystem.Service.Withdrawals -- one account on a pool

`test_account_concurrency` of `tests/tests.cpp`: tasks of a pool call `Account::debit` on one
account.  Here they may also credit it, with any amounts in any currency; each call is one
section under the account's mutex.

* `pooled_account`: in every state the balance is the opening one with the amounts accepted so
  far, and it is never negative.
* `pooled_debits`: once debits alone are through, what was refused exceeds what is left, and of
  equal amounts exactly as many were accepted as the account held.
-/
import PaymentSystem.Infra.Jobs
import PaymentSystem.Domain.Entities
import PaymentSystem.Theory.Spending

namespace PaymentSystem.Service

open PaymentSystem.Common
open PaymentSystem.Domain
open PaymentSystem.Infra
open PaymentSystem.Theory.MachineInt
open PaymentSystem.Theory.Runs
open PaymentSystem.Theory.Spending
open PaymentSystem.Theory.Threads

set_option autoImplicit false

/-! ## Calls on an account -/

inductive Operation where
  | credit (amount : Money)
  | debit (amount : Money)
  deriving DecidableEq

namespace Operation

def method : Operation → Account → Except Exception (Status × Account)
  | .credit amount, account => account.credit amount
  | .debit amount, account => account.debit amount

/-- What the call returns, or lets escape, and the account after it. -/
def perform (op : Operation) (account : Account) : Except Exception Status × Account :=
  match op.method account with
  | .ok (status, account) => (.ok status, account)
  | .error e => (.error e, account)

/-- The methods return: they accept what they can, and refuse the rest with the account as it
was. -/
inductive Performs (account : Account) : Operation → Except Exception Status × Account → Prop where
  | credited (amount : Money) (can : account.Creditable amount) :
      Performs account (.credit amount) (.ok Status.ok, account.plus amount.minorUnits)
  | notCredited (amount : Money) (msg : String) (cannot : ¬ account.Creditable amount) :
      Performs account (.credit amount) (.ok (Status.fail .validationFailed msg), account)
  | debited (amount : Money) (can : account.Debitable amount) :
      Performs account (.debit amount) (.ok Status.ok, account.minus amount.minorUnits)
  | notDebited (amount : Money) (msg : String) (cannot : ¬ account.Debitable amount) :
      Performs account (.debit amount)
        (.ok (Status.fail (account.debitRefusal amount) msg), account)

theorem perform_performs (op : Operation) (account : Account) :
    Performs account op (op.perform account) := by
  cases op with
  | credit amount =>
    by_cases can : account.Creditable amount
    · rw [perform, method, Account.credit_of_creditable can]
      exact .credited amount can
    · obtain ⟨msg, refused⟩ := Account.credit_of_not_creditable can
      rw [perform, method, refused]
      exact .notCredited amount msg can
  | debit amount =>
    by_cases can : account.Debitable amount
    · rw [perform, method, Account.debit_of_debitable can]
      exact .debited amount can
    · obtain ⟨msg, refused⟩ := Account.debit_of_not_debitable can
      rw [perform, method, refused]
      exact .notDebited amount msg can

end Operation

/-- A call on the account and what it has answered. -/
abbrev AccountCall := Operation × Option (Except Exception Status)

namespace AccountCall

def accepted : AccountCall → Bool
  | (_, some (.ok status)) => status.isOk
  | _ => false

/-- What the call has added to the balance. -/
def moved : AccountCall → Int
  | (.credit amount, answer) => if accepted (.credit amount, answer) then amount.minorUnits.toInt else 0
  | (.debit amount, answer) => if accepted (.debit amount, answer) then -amount.minorUnits.toInt else 0

/-- What the call may still add. -/
def pending : AccountCall → Int
  | (.credit amount, none) => max 0 amount.minorUnits.toInt
  | _ => 0

@[simp] theorem moved_none (op : Operation) : moved (op, none) = 0 := by cases op <;> rfl

@[simp] theorem moved_credited (amount : Money) :
    moved (.credit amount, some (.ok Status.ok)) = amount.minorUnits.toInt := rfl

@[simp] theorem moved_debited (amount : Money) :
    moved (.debit amount, some (.ok Status.ok)) = -amount.minorUnits.toInt := rfl

theorem accepted_refused (op : Operation) {status : Status} (refused : status.isErr = true) :
    accepted (op, some (.ok status)) = false := by
  rw [Status.isErr, Bool.not_eq_true'] at refused
  cases op <;> exact refused

theorem moved_refused (op : Operation) {status : Status} (refused : status.isErr = true) :
    moved (op, some (.ok status)) = 0 := by
  have rejected := accepted_refused op refused
  cases op <;> simp [moved, rejected]

@[simp] theorem pending_some (op : Operation) (answer : Except Exception Status) :
    pending (op, some answer) = 0 := by cases op <;> rfl

theorem pending_nonneg (c : AccountCall) : 0 ≤ c.pending := by
  obtain ⟨op, answer⟩ := c
  cases op with
  | credit amount =>
    cases answer with
    | none => exact Int.le_max_left 0 _
    | some answer => exact Int.le_refl 0
  | debit amount => exact Int.le_refl 0

end AccountCall

/-- An account and the calls on it, each the job of the task at its place. -/
abbrev AccountUse := Served Account Operation (Except Exception Status)

/-- The calls as jobs; a future holds that its call returned, or the exception. -/
def accountJobs : Jobs AccountUse :=
  atomic Operation.perform fun answer => answer.map fun _ => ()

/-! ## The books of the account -/

/-- What the account and its calls keep to. -/
structure AccountBooks (account : Account) (ops : List Operation) (s : AccountUse) : Prop where
  calls : s.calls.map Prod.fst = ops
  /-- The balance is the opening one and what the accepted calls have added. -/
  balance : s.object.balance.minorUnits.toInt =
    account.balance.minorUnits.toInt + (s.calls.map AccountCall.moved).sum
  nonneg : 0 ≤ s.object.balance.minorUnits.toInt
  room : s.object.balance.minorUnits.toInt + (s.calls.map AccountCall.pending).sum < 2 ^ 63
  currency : s.object.balance.currency = account.balance.currency
  returned : ∀ c ∈ s.calls, ∀ answer, c.2 = some answer → ∃ status, answer = .ok status

theorem AccountBooks.opening {account : Account} {ops : List Operation}
    (nonneg : 0 ≤ account.balance.minorUnits.toInt)
    (fits : account.balance.minorUnits.toInt +
      (ops.map fun op => AccountCall.pending (op, none)).sum < 2 ^ 63) :
    AccountBooks account ops (.opening account ops) where
  calls := by simp [Served.opening, Function.comp_def]
  balance := by
    have none_ : ((Served.opening (ρ := Except Exception Status) account ops).calls.map
        AccountCall.moved).sum = 0 := by
      apply sum_map_zero
      intro c member
      obtain ⟨op, -, rfl⟩ := List.mem_map.1 member
      cases op <;> rfl
    rw [none_]
    exact (Int.add_zero _).symm
  nonneg := nonneg
  room := by
    simp only [Served.opening, List.map_map]
    exact fits
  currency := rfl
  returned c member answer answered := by
    obtain ⟨op, -, rfl⟩ := List.mem_map.1 member
    cases answered

theorem calls_set {calls : List AccountCall} {t : Nat} {op : Operation}
    (at_ : calls[t]? = some (op, none)) (answer : Except Exception Status) :
    (calls.set t (op, some answer)).map Prod.fst = calls.map Prod.fst := by
  have inside := (List.getElem?_eq_some_iff.1 at_).1
  rw [List.map_set]
  refine List.ext_getElem? fun j => ?_
  by_cases same : t = j
  · subst same
    rw [List.getElem?_set_self (by simpa using inside), List.getElem?_map, at_]
    rfl
  · rw [List.getElem?_set_ne same]

theorem AccountBooks.step {account : Account} {ops : List Operation} {s s' : AccountUse} {t : Task}
    (books : AccountBooks account ops s) (stepped : accountJobs.step s t = some s') :
    AccountBooks account ops s' := by
  obtain ⟨op, at_, rfl⟩ := Served.step_performs stepped
  have performs := op.perform_performs s.object
  generalize op.perform s.object = r at performs
  obtain ⟨answer, account'⟩ := r
  have moved := sum_map_set at_ AccountCall.moved (op, some answer)
  have pending := sum_map_set at_ AccountCall.pending (op, some answer)
  rw [AccountCall.moved_none] at moved
  rw [AccountCall.pending_some] at pending
  have calls := (calls_set at_ answer).trans books.calls
  have returned (status : Status) (is : answer = .ok status) :
      ∀ c ∈ s.calls.set t (op, some answer), ∀ answer', c.2 = some answer' →
        ∃ status, answer' = .ok status :=
    forall_mem_set books.returned fun answer' same =>
      ⟨status, (Option.some.inj same).symm.trans is⟩
  have mine := AccountCall.pending_nonneg (op, none)
  have others := sum_map_nonneg fun c (_ : c ∈ s.calls.set t (op, some answer)) =>
    AccountCall.pending_nonneg c
  have balance := books.balance
  have nonneg := books.nonneg
  have room := books.room
  cases performs with
  | credited amount can =>
    have positive := can.2
    have brings : AccountCall.pending (.credit amount, none) = amount.minorUnits.toInt :=
      Int.max_eq_right can.2
    rw [AccountCall.moved_credited] at moved
    rw [brings] at pending
    have exact_ : (s.object.balance.minorUnits + amount.minorUnits).toInt =
        s.object.balance.minorUnits.toInt + amount.minorUnits.toInt :=
      toInt_add_of_range (by omega) (by omega)
    refine ⟨calls, ?_, ?_, ?_, books.currency, returned _ rfl⟩ <;>
      simp only [Account.plus_minorUnits, exact_] <;> omega
  | debited amount can =>
    have positive := can.1.2
    have covered := can.2
    rw [AccountCall.moved_debited] at moved
    have exact_ : (s.object.balance.minorUnits - amount.minorUnits).toInt =
        s.object.balance.minorUnits.toInt - amount.minorUnits.toInt :=
      toInt_sub_of_le can.1.2 can.2
    refine ⟨calls, ?_, ?_, ?_, books.currency, returned _ rfl⟩ <;>
      simp only [Account.minus_minorUnits, exact_] <;> omega
  | notCredited amount msg cannot =>
    rw [AccountCall.moved_refused _ rfl] at moved
    refine ⟨calls, ?_, nonneg, ?_, books.currency, returned _ rfl⟩ <;> simp only <;> omega
  | notDebited amount msg cannot =>
    rw [AccountCall.moved_refused _ (s.object.isErr_debitRefusal amount msg)] at moved
    refine ⟨calls, ?_, nonneg, ?_, books.currency, returned _ rfl⟩ <;> simp only <;> omega

theorem AccountBooks.run {account : Account} {ops : List Operation} {order : List Task} {s : AccountUse}
    (start : AccountBooks account ops (.opening account ops))
    (ran : exec accountJobs.step (.opening account ops) order = some s) : AccountBooks account ops s :=
  exec_induct (AccountBooks account ops) (fun _ _ _ books stepped => books.step stepped) start ran

/-! ## Debits alone -/

/-- All calls are debits of amounts that the account could take in. -/
def Withdrawing (account : Account) (ops : List Operation) : Prop :=
  ∀ op ∈ ops, ∃ amount, op = .debit amount ∧ account.Creditable amount

/-- The call was refused for want of funds, and asked for more than is left now. -/
def Declined (left : Int) (c : AccountCall) : Prop :=
  ∃ amount msg, c = (.debit amount, some (.ok (Status.fail .insufficientFunds msg))) ∧
    left < amount.minorUnits.toInt

/-- What was not accepted has been declined, or has not been called. -/
def Shortfalls (s : AccountUse) : Prop :=
  ∀ c ∈ s.calls, c.2 ≠ none → AccountCall.accepted c = true ∨
    Declined s.object.balance.minorUnits.toInt c

theorem Shortfalls.step {account : Account} {ops : List Operation} {s s' : AccountUse} {t : Task}
    (shortfalls : Shortfalls s) (books : AccountBooks account ops s)
    (withdrawing : Withdrawing account ops) (stepped : accountJobs.step s t = some s') :
    Shortfalls s' := by
  obtain ⟨op, at_, rfl⟩ := Served.step_performs stepped
  have among : op ∈ ops := by
    rw [← books.calls]
    exact List.mem_map_of_mem (List.mem_of_getElem? at_)
  obtain ⟨amount, rfl, creditable⟩ := withdrawing op among
  have creditable : s.object.Creditable amount :=
    ⟨creditable.1.trans books.currency.symm, creditable.2⟩
  have performs := (Operation.debit amount).perform_performs s.object
  generalize (Operation.debit amount).perform s.object = r at performs
  obtain ⟨answer, account'⟩ := r
  cases performs with
  | debited _ can =>
    refine forall_mem_set (fun c member answered => ?_) fun _ => .inl rfl
    -- what exceeded the balance exceeds a lower one
    rcases shortfalls c member answered with accepted | ⟨amount', msg, is, short⟩
    · exact .inl accepted
    · refine .inr ⟨amount', msg, is, ?_⟩
      have exact_ := toInt_sub_of_le creditable.2 can.2
      have positive := creditable.2
      rw [Account.minus_minorUnits, exact_]
      omega
  | notDebited _ msg cannot =>
    refine forall_mem_set shortfalls fun _ => .inr ⟨amount, msg, ?_, ?_⟩
    · rw [Account.debitRefusal, if_pos creditable]
    · exact Int.not_le.1 fun covered => cannot ⟨creditable, covered⟩

theorem Withdrawing.opening {account : Account} {ops : List Operation}
    (withdrawing : Withdrawing account ops) (nonneg : 0 ≤ account.balance.minorUnits.toInt) :
    AccountBooks account ops (.opening account ops) := by
  refine .opening nonneg ?_
  have none_ : (ops.map fun op => AccountCall.pending (op, none)).sum = 0 := by
    apply sum_map_zero
    intro op member
    obtain ⟨amount, rfl, -⟩ := withdrawing op member
    rfl
  rw [none_]
  have top := account.balance.minorUnits.toInt_lt
  omega

theorem shortfalls_run {account : Account} {ops : List Operation} {order : List Task} {s : AccountUse}
    (withdrawing : Withdrawing account ops) (nonneg : 0 ≤ account.balance.minorUnits.toInt)
    (ran : exec accountJobs.step (.opening account ops) order = some s) : Shortfalls s := by
  refine (exec_induct (fun s => AccountBooks account ops s ∧ Shortfalls s)
    (fun _ _ _ kept stepped => ⟨kept.1.step stepped, kept.2.step kept.1 withdrawing stepped⟩)
    ⟨withdrawing.opening nonneg, fun c member answered => ?_⟩ ran).2
  obtain ⟨op, -, rfl⟩ := List.mem_map.1 member
  exact absurd rfl answered

/-! ## On a pool -/

/-- A worker takes the next task, works it to its end, and comes back for more. -/
def worksOff : List Pooled.Act :=
  Pooled.picksUp 0 ++ [.work 0, .pool (.go 0 (.ok ()))]

/-- The worker finds nothing to do. -/
def fallsAsleep : List Pooled.Act := [.pool (.go 0 (.ok ())), .pool (.queue (.enter 0))]

def fortyOnAccount : Account := ⟨"a1", ⟨4000, .inr⟩⟩

def creditAndDebit : List Operation := [.credit ⟨1000, .inr⟩, .debit ⟨9000, .inr⟩]

def threeDebits : List Operation := List.replicate 3 (.debit ⟨1500, .inr⟩)

section Run

variable {account : Account} {ops : List Operation} {workers clients : Nat}
  {sched : List Pooled.Act} {w : Pooled AccountUse}

/-- At rest every accepted task has returned. -/
theorem returned_at_rest (books : AccountBooks account ops w.jobs)
    (kept : Pooled.Kept accountJobs ops.length workers clients (.opening account ops) w)
    (resting : Pooled.Resting accountJobs ops.length w) :
    ∀ t ∈ w.pool.accepted, (t, .ok ()) ∈ w.pool.completed ∧ w.jobs.answered t ≠ none := by
  intro t accepted
  have live : Pooled.Live accountJobs ops.length (.opening account ops) := atomic_live _ _ account ops
  obtain ⟨r, left, filled⟩ := (kept.finished live resting).futures t accepted
  obtain ⟨answer, answered, rfl⟩ := Option.map_eq_some_iff.1 left
  obtain ⟨c, at_, is⟩ := Option.bind_eq_some_iff.1 answered
  obtain ⟨status, rfl⟩ := books.returned c (List.mem_of_getElem? at_) answer is
  exact ⟨filled, by rw [answered]; exact Option.some_ne_none _⟩

/-- **The books of an account that a pool works on.**  In every state the balance is the
opening one with what the calls accepted so far have added and taken, never below zero; and
at rest every accepted task has returned. -/
theorem pooled_account (nonneg : 0 ≤ account.balance.minorUnits.toInt)
    (fits : account.balance.minorUnits.toInt +
      (ops.map fun op => AccountCall.pending (op, none)).sum < 2 ^ 63)
    (ran : exec (Pooled.step accountJobs ops.length)
      (Pooled.init workers clients (.opening account ops)) sched = some w) :
    AccountBooks account ops w.jobs ∧ (Pooled.Resting accountJobs ops.length w →
      ∀ t ∈ w.pool.accepted, (t, .ok ()) ∈ w.pool.completed ∧ w.jobs.answered t ≠ none) := by
  have kept := Pooled.kept_run ran
  obtain ⟨order, ranJobs, -⟩ := kept.jobsRan
  have books := (AccountBooks.opening nonneg fits).run ranJobs
  exact ⟨books, returned_at_rest books kept⟩

/-- A credit and a refused debit on a pool of one worker. -/
theorem pooled_account_two : ∃ w, exec (Pooled.step accountJobs creditAndDebit.length)
      (Pooled.init 1 1 (.opening fortyOnAccount creditAndDebit))
      (Pooled.submits 1 ++ Pooled.submits 1 ++ worksOff ++ worksOff ++ fallsAsleep) = some w ∧
    w.pool.accepted = [0, 1] ∧ AccountBooks fortyOnAccount creditAndDebit w.jobs := by
  have ran : (exec (Pooled.step accountJobs creditAndDebit.length)
      (Pooled.init 1 1 (.opening fortyOnAccount creditAndDebit))
      (Pooled.submits 1 ++ Pooled.submits 1 ++ worksOff ++ worksOff ++ fallsAsleep)).any
        (fun w => decide (w.pool.accepted = [0, 1])) = true := by decide +kernel
  obtain ⟨w, run, found⟩ := exec_any ran
  exact ⟨w, run, of_decide_eq_true found, (pooled_account (by decide) (by decide) run).1⟩

/-- **Debits on a pool are accepted exactly as far as the account holds.**  Once all of them
were submitted and nothing under way can go on, the balance is what the accepted ones left,
never below zero; every other was refused for want of funds and exceeds what is left; and of
equal amounts exactly so many were accepted as the account held. -/
theorem pooled_debits (withdrawing : Withdrawing account ops)
    (nonneg : 0 ≤ account.balance.minorUnits.toInt)
    (ran : exec (Pooled.step accountJobs ops.length)
      (Pooled.init workers clients (.opening account ops)) sched = some w)
    (resting : Pooled.Resting accountJobs ops.length w) (submitted : w.pool.next = ops.length)
    (welcome : w.pool.rejected = []) :
    (∀ t, t < ops.length → (t, .ok ()) ∈ w.pool.completed) ∧ AccountBooks account ops w.jobs ∧
      (∀ c ∈ w.jobs.calls, AccountCall.accepted c = true ∨
        Declined w.jobs.object.balance.minorUnits.toInt c) ∧
      ∀ a : Int, 0 < a → (∀ amount, .debit amount ∈ ops → amount.minorUnits.toInt = a) →
        (w.jobs.calls.countP AccountCall.accepted : Int) =
          min (ops.length : Int) (account.balance.minorUnits.toInt / a) := by
  have kept := Pooled.kept_run ran
  obtain ⟨order, ranJobs, -⟩ := kept.jobsRan
  have books := (withdrawing.opening nonneg).run ranJobs
  have shortfalls := shortfalls_run withdrawing nonneg ranJobs
  have returned := returned_at_rest books kept resting
  have live : Pooled.Live accountJobs ops.length (.opening account ops) := atomic_live _ _ account ops
  have accepted {t : Nat} (inside : t < ops.length) : t ∈ w.pool.accepted := by
    refine ((kept.finished live resting).drained.decided t (submitted ▸ inside)).resolve_right
      fun rejected => ?_
    rw [welcome] at rejected
    cases rejected
  have length : w.jobs.calls.length = ops.length := by
    rw [← books.calls, List.length_map]
  have all : ∀ c ∈ w.jobs.calls, AccountCall.accepted c = true ∨
      Declined w.jobs.object.balance.minorUnits.toInt c := by
    intro c member
    obtain ⟨t, at_⟩ := List.mem_iff_getElem?.1 member
    have inside := (List.getElem?_eq_some_iff.1 at_).1
    rw [length] at inside
    refine shortfalls c member fun unanswered => (returned t (accepted inside)).2 ?_
    rw [Served.answered, at_]
    exact unanswered
  refine ⟨fun t inside => (returned t (accepted inside)).1, books, all, fun a positive equal => ?_⟩
  have taken : (w.jobs.calls.map AccountCall.moved).sum =
      -(w.jobs.calls.countP AccountCall.accepted * a : Int) := by
    rw [← Int.mul_neg, ← sum_map_count]
    refine congrArg List.sum (List.map_congr_left fun c member => ?_)
    obtain ⟨op, answer⟩ := c
    have among : op ∈ ops := by
      rw [← books.calls]
      exact List.mem_map_of_mem member
    obtain ⟨amount, rfl, -⟩ := withdrawing op among
    rw [AccountCall.moved, equal amount among]
  have left := books.balance
  rw [taken] at left
  rw [← length]
  refine count_covered positive List.countP_le_length (by have := books.nonneg; omega) fun fewer => ?_
  obtain ⟨c, member, refused⟩ : ∃ c ∈ w.jobs.calls, ¬ AccountCall.accepted c = true := by
    by_contra none_
    refine Nat.ne_of_lt fewer (List.countP_eq_length.2 fun c member => ?_)
    by_contra refused
    exact none_ ⟨c, member, refused⟩
  obtain ⟨amount, msg, rfl, short⟩ := (all c member).resolve_left refused
  have among : Operation.debit amount ∈ ops := by
    rw [← books.calls]
    exact List.mem_map_of_mem member
  rw [equal amount among] at short
  omega

end Run

/-- An account of 40.00 affords two of three debits of 15.00. -/
theorem pooled_debits_three : ∃ w, exec (Pooled.step accountJobs threeDebits.length)
      (Pooled.init 1 1 (.opening fortyOnAccount threeDebits))
      (Pooled.submits 1 ++ Pooled.submits 1 ++ Pooled.submits 1 ++ worksOff ++ worksOff ++ worksOff ++
        fallsAsleep) = some w ∧
    w.jobs.calls.countP AccountCall.accepted = 2 := by
  have ran : (exec (Pooled.step accountJobs threeDebits.length)
      (Pooled.init 1 1 (.opening fortyOnAccount threeDebits))
      (Pooled.submits 1 ++ Pooled.submits 1 ++ Pooled.submits 1 ++ worksOff ++ worksOff ++ worksOff ++
        fallsAsleep)).any (fun w => decide (w.pool.next = 3 ∧ w.pool.rejected = []) &&
          w.pool.tasks.agents.all w.pool.restsIn) = true := by decide +kernel
  obtain ⟨w, run, found⟩ := exec_any ran
  rw [Bool.and_eq_true, decide_eq_true_eq, List.all_eq_true] at found
  obtain ⟨⟨submitted, welcome⟩, rests⟩ := found
  obtain ⟨labels, ranPool⟩ := (Pooled.kept_run run).poolRan
  have resting := (ThreadPool.resting_iff (ThreadPool.accounted_run ranPool)).2 rests
  have same : ∀ op ∈ threeDebits, op = .debit ⟨1500, .inr⟩ := fun op member =>
    List.eq_of_mem_replicate member
  obtain ⟨-, -, -, counts⟩ := pooled_debits
    (fun op member => ⟨_, same op member, by decide⟩) (by decide) run
    (Pooled.resting_of_pool resting) submitted welcome
  have count := counts 1500 (by decide) (fun amount member => by cases same _ member; decide)
  have two : min ((threeDebits.length : Nat) : Int)
      (fortyOnAccount.balance.minorUnits.toInt / 1500) = 2 := by decide
  refine ⟨w, run, ?_⟩
  omega

end PaymentSystem.Service
