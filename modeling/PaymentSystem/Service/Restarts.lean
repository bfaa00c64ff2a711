/-
# PaymentSystem.Service.Restarts -- what a restart forgets

The file keeps the transactions; the idempotency store and the id counter are new in
every process.  So a key charged before a restart can be won again after it, and an id
drawn before a restart is drawn again after it.  `ClaimsUncharged` and `DrawsFresh` are the
conditions on the two steps where that happens, the claim of a key and the draw of an id.

* `charged_once`: no key is charged by two calls, over any number of restarts.
* `saved_kept`: no saved transaction is ever replaced.
-/
import PaymentSystem.Service.Durable

namespace PaymentSystem.Service

open PaymentSystem.Common
open PaymentSystem.Domain
open PaymentSystem.Patterns
open PaymentSystem.Adapters
open PaymentSystem.Adapters.FileTransactionRepository
open PaymentSystem.Infra
open PaymentSystem.Theory.Keyed
open PaymentSystem.Theory.Runs
open PaymentSystem.Theory.Threads

set_option autoImplicit false

variable {chain : ValidationChain}

/-! ## One charge per key -/

/-- A call that is about to win its key finds it uncharged by earlier sessions. -/
def ClaimsUncharged (host : Host) (t : Thread) : Prop :=
  match t.pc with
  | .claim _ => host.sys.service.idempotency.lookup t.call.req.idempotencyKey = none →
      ∀ a ∈ host.charges, a.session < host.session → a.key ≠ t.call.req.idempotencyKey
  | _ => True

instance (host : Host) (t : Thread) : Decidable (ClaimsUncharged host t) := by
  unfold ClaimsUncharged
  split <;> infer_instance

/-- The call of the thread has won the key. -/
def Thread.Wins (t : Thread) (key : String) : Prop :=
  t.pc.won ≠ none ∧ t.call.req.idempotencyKey = key

/-- A step wins a key that nobody holds, or keeps what was won. -/
theorem Fires.wins {c : Call} {s s' : PaymentService} {pc pc' : Pc}
    (fired : Fires chain c s pc s' pc') (won : pc'.won ≠ none) :
    pc.won ≠ none ∨ ∃ id, pc = .claim id ∧ s.idempotency.lookup c.req.idempotencyKey = none ∧
      s'.idempotency.lookup c.req.idempotencyKey ≠ none := by
  rcases fired.identity with ⟨-, rfl, -⟩ | ⟨lost, -⟩ | ⟨id, rfl, rfl, fresh, rfl⟩ | ⟨id, was, -⟩
  · exact absurd rfl won
  · have none_ := lost.txnId
    obtain ⟨id, won⟩ := Option.ne_none_iff_exists'.1 won
    rw [Pc.txnId_of_won won] at none_
    cases none_
  · refine .inr ⟨id, rfl, fresh, ?_⟩
    rw [AList.lookup_insert]
    exact Option.some_ne_none _
  · rw [was]
    exact .inl (Option.some_ne_none _)

theorem Fires.keeps_claimed {c : Call} {s s' : PaymentService} {pc pc' : Pc} {key : String}
    (fired : Fires chain c s pc s' pc') (claimed : s.idempotency.lookup key ≠ none) :
    s'.idempotency.lookup key ≠ none := by
  obtain ⟨id, found⟩ := Option.ne_none_iff_exists'.1 claimed
  rw [fired.keeps_key found]
  exact Option.some_ne_none _

theorem won_of_debits {s : PaymentService} {c : Call} {pc : Pc} (debits : Debits s c pc = true) :
    pc.won ≠ none := by
  cases pc with
  | debit f => exact Option.some_ne_none _
  | undoDebit f err => exact Option.some_ne_none _
  | _ => cases debits

/-- Who has charged which key, and who may. -/
structure Billed (host : Host) : Prop where
  claimed : ∀ t ∈ host.sys.threads, ∀ key, t.Wins key →
    host.sys.service.idempotency.lookup key ≠ none
  apart : Apart Thread.Wins host.sys.threads
  uncharged : ∀ t ∈ host.sys.threads, ∀ key, t.Wins key →
    ∀ a ∈ host.charges, a.session < host.session → a.key ≠ key
  charged : ∀ a ∈ host.charges, a.session < host.session ∨
    a.session = host.session ∧ ∃ t, host.sys.threads[a.caller]? = some t ∧ t.Wins a.key
  once : ∀ a ∈ host.charges, ∀ b ∈ host.charges, a.key = b.key →
    a.session = b.session ∧ a.caller = b.caller

theorem billed_opening (accounts : InMemoryAccountRepository) (calls : List Call) :
    Billed (Host.opening accounts calls) := by
  have quiet : ∀ t ∈ (Host.opening accounts calls).sys.threads, ∀ key, ¬ t.Wins key := by
    intro t member key wins
    exact wins.1 (by rw [(mem_init member).2]; rfl)
  exact ⟨fun t member key wins => absurd wins (quiet t member key),
    fun i j t u key there _ wins => absurd wins (quiet t (List.mem_of_getElem? there) key),
    fun t member key wins => absurd wins (quiet t member key), nofun, nofun⟩

theorem Billed.restart {host host' : Host} {given : List Call} (billed : Billed host)
    (stepped : Host.step chain host (.restart given) = some host') : Billed host' := by
  obtain ⟨-, transactions, -, rfl⟩ := Host.step_restart stepped
  have quiet : ∀ t ∈ (System.init (.reopening host.sys.service.accounts transactions)
      given).threads, ∀ key, ¬ t.Wins key := by
    intro t member key wins
    exact wins.1 (by rw [(mem_init member).2]; rfl)
  refine ⟨fun t member key wins => absurd wins (quiet t member key),
    fun i j t u key there _ wins => absurd wins (quiet t (List.mem_of_getElem? there) key),
    fun t member key wins => absurd wins (quiet t member key), ?_, billed.once⟩
  intro a among
  left
  rcases billed.charged a among with earlier | ⟨now, -⟩
  · exact Nat.lt_succ_of_lt earlier
  · exact now ▸ Nat.lt_succ_self _

section Run

variable {host host' : Host} {i : Nat} {order : List Transaction} {c : Call} {pc pc' : Pc}

/-- Whoever wins a key after a step won it before, or is the mover and the key was free. -/
theorem Ran.wins (moved : Ran chain host i order host' c pc pc') {t : Thread}
    (member : t ∈ host'.sys.threads) {key : String} (now : t.Wins key) :
    (∃ u ∈ host.sys.threads, u.Wins key) ∨
      ∃ id, pc = .claim id ∧ c.req.idempotencyKey = key ∧
        host.sys.service.idempotency.lookup key = none ∧
        host'.sys.service.idempotency.lookup key ≠ none := by
  rw [moved.threads] at member
  rcases List.mem_or_eq_of_mem_set member with there | rfl
  · exact .inl ⟨t, there, now⟩
  · obtain ⟨won, rfl⟩ := now
    rcases moved.fired.wins won with before | ⟨id, rfl, free, taken⟩
    · exact .inl ⟨_, List.mem_of_getElem? moved.at_, before, rfl⟩
    · exact .inr ⟨id, rfl, rfl, free, taken⟩

/-- A key once won stays won, by the same call. -/
theorem Ran.still_wins (moved : Ran chain host i order host' c pc pc') {j : Nat} {key : String}
    (won : ∃ t, host.sys.threads[j]? = some t ∧ t.Wins key) :
    ∃ t, host'.sys.threads[j]? = some t ∧ t.Wins key := by
  obtain ⟨t, there, wins⟩ := won
  rw [moved.threads]
  by_cases same : i = j
  · subst same
    cases moved.at_.symm.trans there
    refine ⟨_, List.getElem?_set_self (List.getElem?_eq_some_iff.1 moved.at_).1, ?_, wins.2⟩
    obtain ⟨id, won⟩ := Option.ne_none_iff_exists'.1 wins.1
    show pc'.won ≠ none
    rw [moved.fired.keeps_won won]
    exact Option.some_ne_none _
  · exact ⟨t, (List.getElem?_set_ne same).trans there, wins⟩

/-- What a step charges, it charges to the mover, which has won its key. -/
theorem Ran.charged (moved : Ran chain host i order host' c pc pc') {a : Charge}
    (among : a ∈ host'.charges) : a ∈ host.charges ∨
      pc.won ≠ none ∧ a = ⟨host.session, i, c.req.idempotencyKey⟩ := by
  rw [moved.charges] at among
  split at among
  · rename_i debits
    rcases List.mem_append.1 among with before | now
    · exact .inl before
    · exact .inr ⟨won_of_debits debits, List.mem_singleton.1 now⟩
  · exact .inl among

theorem Billed.apart_run (billed : Billed host) (moved : Ran chain host i order host' c pc pc') :
    Apart Thread.Wins host'.sys.threads := by
  rw [moved.threads]
  refine billed.apart.set moved.at_ fun key now => ?_
  obtain ⟨won, rfl⟩ := now
  rcases moved.fired.wins won with before | ⟨id, rfl, free, -⟩
  · exact .inl ⟨before, rfl⟩
  · exact .inr fun u there theirs => billed.claimed u there _ theirs free

/-- A charge under the key of a call that has won it is that call's own. -/
theorem Billed.own (billed : Billed host) (at_ : host.sys.threads[i]? = some ⟨c, pc⟩)
    (won : pc.won ≠ none) {a : Charge} (among : a ∈ host.charges)
    (same : a.key = c.req.idempotencyKey) : a.session = host.session ∧ a.caller = i := by
  rcases billed.charged a among with earlier | ⟨now, t, there, wins⟩
  · exact absurd same
      (billed.uncharged _ (List.mem_of_getElem? at_) _ ⟨won, rfl⟩ a among earlier)
  · rw [same] at wins
    exact ⟨now, billed.apart _ _ _ _ _ there at_ wins ⟨won, rfl⟩⟩

/-- **A step whose claim is uncharged keeps the bill.** -/
theorem Billed.run (billed : Billed host) (moved : Ran chain host i order host' c pc pc')
    (once : ClaimsUncharged host ⟨c, pc⟩) : Billed host' := by
  refine ⟨?_, billed.apart_run moved, ?_, ?_, ?_⟩
  · intro t member key now
    rcases moved.wins member now with ⟨u, there, before⟩ | ⟨id, -, -, -, taken⟩
    · exact moved.fired.keeps_claimed (billed.claimed u there key before)
    · exact taken
  · intro t member key now a among earlier
    rw [moved.session] at earlier
    rcases moved.charged among with before | ⟨-, rfl⟩
    · rcases moved.wins member now with ⟨u, there, won⟩ | ⟨id, rfl, rfl, free, -⟩
      · exact billed.uncharged u there key won a before earlier
      · exact once free a before earlier
    · exact absurd earlier (Nat.lt_irrefl _)
  · intro a among
    rw [moved.session]
    rcases moved.charged among with before | ⟨won, rfl⟩
    · exact (billed.charged a before).imp_right fun ⟨now, won⟩ => ⟨now, moved.still_wins won⟩
    · exact .inr ⟨rfl, moved.still_wins ⟨_, moved.at_, won, rfl⟩⟩
  · intro a among b among' same
    rcases moved.charged among with before | ⟨won, rfl⟩ <;>
      rcases moved.charged among' with before' | ⟨won', rfl⟩
    · exact billed.once a before b before' same
    · exact billed.own moved.at_ won' before same
    · obtain ⟨session, caller⟩ := billed.own moved.at_ won before' same.symm
      exact ⟨session.symm, caller.symm⟩
    · exact ⟨rfl, rfl⟩

end Run

/-- **No key is charged by two calls**, in any run over any number of restarts in which no
call wins a key that an earlier session has charged. -/
theorem charged_once {accounts : InMemoryAccountRepository} {calls : List Call}
    {sched : List Action} {host : Host}
    (ran : exec (Host.step chain) (Host.opening accounts calls) sched = some host)
    (once : Along (Host.step chain) (Moving ClaimsUncharged) (Host.opening accounts calls) sched) :
    ∀ a ∈ host.charges, ∀ b ∈ host.charges, a.key = b.key →
      a.session = b.session ∧ a.caller = b.caller := by
  refine (once.induct Billed ?_ (billed_opening accounts calls) ran).once
  rintro early host (⟨i, order⟩ | given) host' - billed once stepped
  · obtain ⟨c, pc, pc', moved⟩ := Host.step_run stepped
    exact billed.run moved (once _ moved.at_)
  · exact billed.restart stepped

/-- A payment, and another under a key of its own. -/
def payment : Call := upiCall "key-1" "u" "m" 30000

def nextPayment : Call := upiCall "key-2" "u" "m" 500

/-- One call run to its end, saving `txn`. -/
def serving (txn : Transaction) : List Action := List.replicate 20 (.run 0 [txn])

theorem brings_serving (P : Call → Prop) (txn : Transaction) : ∀ a ∈ serving txn, a.Brings P := by
  intro a member
  rw [List.eq_of_mem_replicate member]
  trivial

/-- A first process serves the payment, is restarted, and the next one serves `call`. -/
def servingTwice (call : Call) (txn : Transaction) : List Action :=
  serving (payment.txn "txn_1" .captured) ++ .restart [call] :: serving txn

theorem brings_servingTwice {P : Call → Prop} {call : Call} (meets : P call) (txn : Transaction) :
    ∀ a ∈ servingTwice call txn, a.Brings P := by
  intro a member
  rw [servingTwice, List.mem_append, List.mem_cons] at member
  rcases member with before | rfl | after
  · exact brings_serving P _ a before
  · exact List.forall_mem_singleton.2 meets
  · exact brings_serving P _ a after

/-- A payment retried after a restart is charged again. -/
theorem charged_twice : ∃ host,
    PlainRun mainChain userAndMerchant [payment]
      (servingTwice payment (payment.txn "txn_1" .captured)) host ∧
    ∃ a ∈ host.charges, ∃ b ∈ host.charges, a.key = b.key ∧ a.session ≠ b.session := by
  have ran : (exec (Host.step mainChain) (Host.opening userAndMerchant [payment])
      (servingTwice payment (payment.txn "txn_1" .captured))).any
        (fun host => decide (∃ a ∈ host.charges, ∃ b ∈ host.charges,
          a.key = b.key ∧ a.session ≠ b.session)) = true := by decide +kernel
  obtain ⟨host, run, found⟩ := exec_any ran
  exact ⟨host, ⟨run, by decide, brings_servingTwice (by decide) _⟩, of_decide_eq_true found⟩

/-- A payment before a restart and another one after it. -/
theorem charged_once_apart : ∃ host,
    exec (Host.step mainChain) (Host.opening userAndMerchant [payment])
      (servingTwice nextPayment (nextPayment.txn "txn_1" .captured)) = some host ∧
    host.charges.length = 2 ∧ ∀ a ∈ host.charges, ∀ b ∈ host.charges, a.key = b.key →
      a.session = b.session ∧ a.caller = b.caller := by
  have ran : (exec (guarded (Host.step mainChain) (Moving ClaimsUncharged))
      (Host.opening userAndMerchant [payment])
      (servingTwice nextPayment (nextPayment.txn "txn_1" .captured))).any
        (fun host => decide (host.charges.length = 2)) = true := by decide +kernel
  obtain ⟨host, run, two⟩ := exec_any ran
  obtain ⟨run, once⟩ := exec_guarded run
  exact ⟨host, run, of_decide_eq_true two, charged_once run once⟩

/-! ## Saved for good -/

/-- A call that is about to draw an id finds nothing stored under it, and no call of its
process going by it. -/
def DrawsFresh (host : Host) (t : Thread) : Prop :=
  match t.pc with
  | .start => host.index.lookup host.sys.service.txnIds.next.1 = none ∧
      ∀ u ∈ host.sys.threads, u.pc.txnId ≠ some host.sys.service.txnIds.next.1
  | _ => True

instance (host : Host) (t : Thread) : Decidable (DrawsFresh host t) := by
  unfold DrawsFresh
  split <;> infer_instance

theorem Fires.pastSave {c : Call} {s s' : PaymentService} {pc pc' : Pc}
    (fired : Fires chain c s pc s' pc') (past : pc.PastSave) : pc'.PastSave := by
  cases fired <;> first | exact past | trivial

/-- Ids are distinct, what is not saved yet is not there, and what was saved still is. -/
structure Kept (host : Host) : Prop where
  apart : Apart (fun t id => t.pc.txnId = some id) host.sys.threads
  unsaved : ∀ t ∈ host.sys.threads, ∀ id, t.pc.txnId = some id → ¬ t.pc.PastSave →
    host.index.lookup id = none
  kept : ∀ txn ∈ host.saved, host.index.lookup txn.id = some txn

/-- What holds of every thread that goes by an id holds where none has begun. -/
theorem unnamed_init (service : PaymentService) (given : List Call) :
    ∀ t ∈ (System.init service given).threads, ∀ id, t.pc.txnId ≠ some id := by
  intro t member id drawn
  rw [(mem_init member).2] at drawn
  cases drawn

theorem kept_opening (accounts : InMemoryAccountRepository) (calls : List Call) :
    Kept (Host.opening accounts calls) :=
  ⟨fun _ _ t _ id there _ drawn =>
      absurd drawn (unnamed_init _ _ t (List.mem_of_getElem? there) id),
    fun t member id drawn => absurd drawn (unnamed_init _ _ t member id), nofun⟩

theorem Kept.restart {host host' : Host} {given : List Call} (kept : Kept host)
    {repo : FileTransactionRepository} (views : Views host repo)
    (plain : ∀ txn ∈ host.saved, PlainTransaction txn)
    (stepped : Host.step chain host (.restart given) = some host') : Kept host' := by
  obtain ⟨-, transactions, reread, rfl⟩ := Host.step_restart stepped
  refine ⟨fun _ _ t _ id there _ drawn =>
      absurd drawn (unnamed_init _ _ t (List.mem_of_getElem? there) id),
    fun t member id drawn => absurd drawn (unnamed_init _ _ t member id), fun txn among => ?_⟩
  exact (views.reopened plain reread txn.id).trans (kept.kept txn among)

section Run

variable {host host' : Host} {i : Nat} {order : List Transaction} {c : Call} {pc pc' : Pc}

/-- The id a mover goes by after a step it went by before, or nobody goes by it and nothing
is stored under it. -/
theorem Ran.named (moved : Ran chain host i order host' c pc pc') (fresh : DrawsFresh host ⟨c, pc⟩)
    {id : String} (drawn : pc'.txnId = some id) : pc.txnId = some id ∨
      host.index.lookup id = none ∧ ∀ u ∈ host.sys.threads, u.pc.txnId ≠ some id := by
  rcases moved.fired.identity with ⟨rfl, rfl, -⟩ | ⟨lost, -⟩ | ⟨id', rfl, rfl, -⟩ | ⟨id', was, now, -⟩
  · cases drawn
    exact .inr fresh
  · rw [lost.txnId] at drawn
    cases drawn
  · exact .inl drawn
  · cases (Pc.txnId_of_won now).symm.trans drawn
    exact .inl (Pc.txnId_of_won was)

theorem Kept.quiet (kept : Kept host) (moved : Ran chain host i order host' c pc pc')
    (fresh : DrawsFresh host ⟨c, pc⟩)
    (apart : Apart (fun t id => t.pc.txnId = some id) host'.sys.threads)
    (index : host'.index = host.index) (saved : host'.saved = host.saved) : Kept host' := by
  refine ⟨apart, ?_, ?_⟩
  · rw [moved.threads, index]
    refine forall_mem_set kept.unsaved fun id drawn early => ?_
    rcases moved.named fresh drawn with own | ⟨nothing, -⟩
    · exact kept.unsaved _ (List.mem_of_getElem? moved.at_) id own
        fun past => early (moved.fired.pastSave past)
    · exact nothing
  · rw [index, saved]
    exact kept.kept

theorem Kept.save {txn : Transaction} {type : String} {res : Result Transaction}
    (kept : Kept host)
    (moved : Ran chain host i order host' c (.save txn type res) (.publish txn type res))
    (apart : Apart (fun t id => t.pc.txnId = some id) host'.sys.threads)
    (inserted : host'.index = host.index.insert txn.id txn)
    (saved : host'.saved = host.saved ++ [txn]) : Kept host' := by
  have nothing : host.index.lookup txn.id = none :=
    kept.unsaved _ (List.mem_of_getElem? moved.at_) txn.id rfl not_false
  have others {id : String} (other : id ≠ txn.id) :
      host'.index.lookup id = host.index.lookup id := by
    rw [inserted, AList.lookup_insert_ne other]
  refine ⟨apart, fun t member id drawn early => ?_, fun t among => ?_⟩
  · rw [moved.threads] at member
    obtain ⟨j, there⟩ := List.mem_iff_getElem?.1 member
    rcases at_set there with ⟨-, rfl⟩ | ⟨different, there⟩
    · exact absurd trivial early
    · have other : id ≠ txn.id := by
        rintro rfl
        exact different (kept.apart j i t _ txn.id there moved.at_ drawn rfl)
      rw [others other]
      exact kept.unsaved t (List.mem_of_getElem? there) id drawn early
  · rw [saved] at among
    rcases List.mem_append.1 among with before | now
    · have found := kept.kept t before
      have other : t.id ≠ txn.id := by
        intro same
        rw [same, nothing] at found
        cases found
      rw [others other]
      exact found
    · rw [List.mem_singleton.1 now, inserted, AList.lookup_insert]

/-- **A step whose draw is fresh keeps what was saved.** -/
theorem Kept.run (kept : Kept host) (moved : Ran chain host i order host' c pc pc')
    (fresh : DrawsFresh host ⟨c, pc⟩) : Kept host' := by
  have apart : Apart (fun t id => t.pc.txnId = some id) host'.sys.threads := by
    rw [moved.threads]
    exact kept.apart.set moved.at_ fun id drawn =>
      (moved.named fresh drawn).imp_right And.right
  rcases moved.disk with ⟨index, -, saved⟩ | ⟨txn, type, res, rfl, rfl, inserted, -, -, saved⟩
  · exact kept.quiet moved fresh apart index saved
  · exact kept.save moved apart inserted saved

end Run

/-- **A saved transaction is never replaced**, in any run of plain calls over any number of
restarts in which every id drawn is new to the file and to the process. -/
theorem saved_kept {accounts : InMemoryAccountRepository} {calls : List Call}
    {sched : List Action} {host : Host} (run : PlainRun chain accounts calls sched host)
    (fresh : Along (Host.step chain) (Moving DrawsFresh) (Host.opening accounts calls) sched) :
    ∀ txn ∈ host.saved, host.index.find txn.id = some txn := by
  refine (exec_induct_along Kept ?_ (kept_opening accounts calls) run.ran).kept
  rintro early (⟨i, order⟩ | given) late before after split ran kept stepped
  · obtain ⟨c, pc, pc', moved⟩ := Host.step_run stepped
    exact kept.run moved (fresh early _ late before split ran _ moved.at_)
  · have upto := run.before split ran
    obtain ⟨repo, views⟩ := upto.views
    exact kept.restart views upto.saved stepped

/-- The first payment after a restart takes the place of the first before it. -/
theorem saved_replaced : ∃ host,
    PlainRun mainChain userAndMerchant [payment]
      (servingTwice nextPayment (nextPayment.txn "txn_1" .captured)) host ∧
    ∃ txn ∈ host.saved, ∃ other, host.index.find txn.id = some other ∧
      other.idempotencyKey ≠ txn.idempotencyKey := by
  have ran : (exec (Host.step mainChain) (Host.opening userAndMerchant [payment])
      (servingTwice nextPayment (nextPayment.txn "txn_1" .captured))).any
        (fun host => host.saved.any fun txn => (host.index.find txn.id).any fun other =>
          decide (other.idempotencyKey ≠ txn.idempotencyKey)) = true := by decide +kernel
  obtain ⟨host, run, found⟩ := exec_any ran
  obtain ⟨txn, among, replaced⟩ := List.any_eq_true.1 found
  obtain ⟨other, there, different⟩ := (Option.any_eq_true _ _).1 replaced
  exact ⟨host, ⟨run, by decide, brings_servingTwice (by decide) _⟩, txn, among, other, there,
    of_decide_eq_true different⟩

/-- A call without a payee uses up the first id; after the restart it is free. -/
def servingAround : List Action :=
  List.replicate 3 (.run 0 []) ++ List.replicate 20 (.run 1 [payment.txn "txn_2" .captured]) ++
    .restart [nextPayment] :: List.replicate 20
      (.run 0 [nextPayment.txn "txn_1" .captured, payment.txn "txn_2" .captured])

theorem saved_kept_around : ∃ host,
    PlainRun mainChain userAndMerchant [upiCall "key-0" "u" "" 30000, payment] servingAround host ∧
    host.saved.length = 2 ∧ ∀ txn ∈ host.saved, host.index.find txn.id = some txn := by
  have ran : (exec (guarded (Host.step mainChain) (Moving DrawsFresh))
      (Host.opening userAndMerchant [upiCall "key-0" "u" "" 30000, payment]) servingAround).any
        (fun host => decide (host.saved.length = 2)) = true := by decide +kernel
  obtain ⟨host, found, two⟩ := exec_any ran
  obtain ⟨ran, fresh⟩ := exec_guarded found
  have run : PlainRun mainChain userAndMerchant [upiCall "key-0" "u" "" 30000, payment]
      servingAround host := by
    refine ⟨ran, by decide, fun a member => ?_⟩
    simp only [servingAround, List.mem_append, List.mem_cons, List.mem_replicate] at member
    rcases member with (⟨-, rfl⟩ | ⟨-, rfl⟩) | rfl | ⟨-, rfl⟩
    · trivial
    · trivial
    · exact List.forall_mem_singleton.2 (by decide)
    · trivial
  exact ⟨host, run, of_decide_eq_true two, saved_kept run fresh⟩

end PaymentSystem.Service
