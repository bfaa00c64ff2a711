/-
# PaymentSystem.Service.Keys -- ids drawn and keys claimed

Who a call is, across any interleaving.

* `Fires.identity`: a step draws the call's id, gives it up to the holder of its key,
  wins the key with it, or keeps it.
* `Draws`: fewer than `2 ^ 64` calls work under distinct ids.
* `Cited`: the id a call won with, or read under its key, is what its key maps to.
* `Reaches.claimant`: every claimed key was claimed by one of the calls.
* `one_charge_per_key`: at most one charge per idempotency key.
-/
import PaymentSystem.Service.Locals

namespace PaymentSystem.Service

open PaymentSystem.Common
open PaymentSystem.Domain
open PaymentSystem.Patterns
open PaymentSystem.Adapters
open PaymentSystem.Infra
open PaymentSystem.Theory.Runs
open PaymentSystem.Theory.Threads

set_option autoImplicit false

variable {chain : ValidationChain}

/-! ## Identity of a call -/

@[simp] theorem advance_id (txn : Transaction) (dst : TxnStatus) : (advance txn dst).id = txn.id := by
  unfold advance
  split <;> rfl

theorem buildTxn_id {env : Env} {id : String} {req : PaymentRequest} {txn : Transaction}
    (built : buildTxn env id req = .ok txn) : txn.id = id := by
  unfold buildTxn Transaction.Builder.build at built
  split at built
  · cases built
  · split at built
    · cases built
    · split at built
      · cases built
      · cases built
        rfl

namespace Pc

/-- The call left its first program point. -/
def begun : Pc → Bool
  | .start => false
  | _ => true

theorem failing_won (txn : Transaction) (err : Error) : (Pc.failing txn err).won = some txn.id :=
  congrArg some (advance_id txn _)

theorem capturing_won (txn : Transaction) : (Pc.capturing txn).won = some txn.id :=
  congrArg some (advance_id txn _)

/-- A call that lost its key goes by no id. -/
theorem Lost.txnId {pc : Pc} (lost : pc.Lost) : pc.txnId = none := by
  cases pc <;> first | rfl | cases lost

theorem Lost.begun {pc : Pc} (lost : pc.Lost) : pc.begun = true := by
  cases pc <;> first | rfl | cases lost

theorem txnId_of_won {pc : Pc} {id : String} (won : pc.won = some id) : pc.txnId = some id := by
  cases pc <;> first | exact won | cases won

theorem won_of_txnId {pc : Pc} {id : String} (drawn : pc.txnId = some id)
    (claimed : ∀ id', pc ≠ .claim id') : pc.won = some id := by
  cases pc <;> first | exact drawn | exact absurd rfl (claimed _)

theorem begun_of_txnId {pc : Pc} {id : String} (drawn : pc.txnId = some id) : pc.begun = true := by
  cases pc <;> first | rfl | cases drawn

end Pc

/-- **What a step does to the identity of its call**: it draws an id, gives it up to
the holder of its key, wins the key with it, or keeps it. -/
theorem Fires.identity {c : Call} {s s' : PaymentService} {pc pc' : Pc}
    (fired : Fires chain c s pc s' pc') :
    (pc = .start ∧ pc' = .claim s.txnIds.next.1 ∧ s' = { s with txnIds := s.txnIds.next.2 }) ∨
      (pc'.Lost ∧ pc.begun = true ∧ pc.won = none ∧ s' = s) ∨
      (∃ id, pc = .claim id ∧ pc' = .build id ∧
        s.idempotency.lookup c.req.idempotencyKey = none ∧
        s' = { s with idempotency := s.idempotency.insert c.req.idempotencyKey id }) ∨
      (∃ id, pc.won = some id ∧ pc'.won = some id ∧ s'.txnIds = s.txnIds) := by
  cases fired with
  | mint => exact .inl ⟨rfl, rfl, rfl⟩
  | lost => exact .inr (.inl ⟨trivial, rfl, rfl, rfl⟩)
  | unclaimed => exact .inr (.inl ⟨trivial, rfl, rfl, rfl⟩)
  | looked => exact .inr (.inl ⟨trivial, rfl, rfl, rfl⟩)
  | replayed => exact .inr (.inl ⟨trivial, rfl, rfl, rfl⟩)
  | unreplayed => exact .inr (.inl ⟨trivial, rfl, rfl, rfl⟩)
  | won txnId fresh => exact .inr (.inr (.inl ⟨txnId, rfl, rfl, fresh, rfl⟩))
  | built txnId txn ok => exact .inr (.inr (.inr ⟨_, rfl, congrArg some (buildTxn_id ok), rfl⟩))
  | rejected => exact .inr (.inr (.inr ⟨_, rfl, Pc.failing_won _ _, rfl⟩))
  | unloaded => exact .inr (.inr (.inr ⟨_, rfl, Pc.failing_won _ _, rfl⟩))
  | declined => exact .inr (.inr (.inr ⟨_, rfl, Pc.failing_won _ _, rfl⟩))
  | authorized => exact .inr (.inr (.inr ⟨_, rfl, congrArg some (advance_id _ _), rfl⟩))
  | refused => exact .inr (.inr (.inr ⟨_, rfl, Pc.failing_won _ _, rfl⟩))
  | undebited => exact .inr (.inr (.inr ⟨_, rfl, Pc.failing_won _ _, rfl⟩))
  | undebitedNowhere => exact .inr (.inr (.inr ⟨_, rfl, Pc.failing_won _ _, rfl⟩))
  | uncaptured => exact .inr (.inr (.inr ⟨_, rfl, Pc.failing_won _ _, rfl⟩))
  | captured => exact .inr (.inr (.inr ⟨_, rfl, Pc.capturing_won _, rfl⟩))
  | _ => exact .inr (.inr (.inr ⟨_, rfl, rfl, rfl⟩))

theorem Fires.begun {c : Call} {s s' : PaymentService} {pc pc' : Pc}
    (fired : Fires chain c s pc s' pc') : pc'.begun = true := by
  rcases fired.identity with ⟨-, rfl, -⟩ | ⟨lost, -⟩ | ⟨id, -, rfl, -⟩ | ⟨id, -, won, -⟩
  · rfl
  · exact lost.begun
  · rfl
  · exact Pc.begun_of_txnId (Pc.txnId_of_won won)

/-- A key once won is never given up. -/
theorem Fires.keeps_won {c : Call} {s s' : PaymentService} {pc pc' : Pc} {id : String}
    (fired : Fires chain c s pc s' pc') (won : pc.won = some id) : pc'.won = some id := by
  rcases fired.identity with ⟨rfl, -, -⟩ | ⟨-, -, none_, -⟩ | ⟨id', rfl, -, -⟩ | ⟨id', was, now, -⟩
  · cases won
  · rw [none_] at won
    cases won
  · cases won
  · rw [now, ← was]
    exact won

/-! ## Ids -/

namespace System

/-- How many calls have begun. -/
def begun (sys : System) : Nat := sys.threads.countP fun t => t.pc.begun

theorem begun_le (sys : System) : sys.begun ≤ sys.threads.length := List.countP_le_length

end System

/-- The ids in use: the counter has advanced once for each call that has begun, every
id in use was drawn from it, and no two calls use one id. -/
structure Draws (tag : String) (start : Nat) (sys : System) : Prop where
  counter : sys.service.txnIds = IdGenerator.drawn tag start sys.begun
  within : ∀ t ∈ sys.threads, ∀ id, t.pc.txnId = some id →
    ∃ k < sys.begun, id = IdGenerator.idOf tag (UInt64.ofNat (start + k))
  apart : Apart (fun t id => t.pc.txnId = some id) sys.threads

theorem begun_set {l : List Thread} {i : Nat} {c : Call} {pc pc' : Pc}
    (at_ : l[i]? = some ⟨c, pc⟩) (begun : pc'.begun = true) :
    (l.set i ⟨c, pc'⟩).countP (fun t => t.pc.begun) =
      l.countP (fun t => t.pc.begun) + if pc.begun = true then 0 else 1 := by
  have counts := countP_set_add at_ (fun t => t.pc.begun) ⟨c, pc'⟩
  simp only [begun, if_true] at counts
  split
  · rename_i was
    rw [if_pos was] at counts
    omega
  · rename_i was
    rw [if_neg was] at counts
    omega

section Draws

variable {tag : String} {start : Nat} {sys sys' : System} {i : Nat} {c : Call} {pc pc' : Pc}

/-- A step that draws nothing: the mover goes by the id it went by, if by any. -/
theorem Draws.keep (draws : Draws tag start sys) (at_ : sys.threads[i]? = some ⟨c, pc⟩)
    (threads : sys'.threads = sys.threads.set i ⟨c, pc'⟩) (counted : sys'.begun = sys.begun)
    (counter : sys'.service.txnIds = sys.service.txnIds)
    (ids : ∀ id, pc'.txnId = some id → pc.txnId = some id) : Draws tag start sys' := by
  refine ⟨?_, ?_, ?_⟩
  · rw [counter, counted]
    exact draws.counter
  · rw [threads, counted]
    exact forall_mem_set draws.within fun id used =>
      draws.within _ (List.mem_of_getElem? at_) id (ids id used)
  · rw [threads]
    exact draws.apart.set at_ fun id used => .inl (ids id used)

/-- A step that draws: the id is beyond every id in use. -/
theorem Draws.mint (draws : Draws tag start sys) (short : sys.threads.length < 2 ^ 64)
    (at_ : sys.threads[i]? = some ⟨c, pc⟩)
    (threads : sys'.threads = sys.threads.set i ⟨c, .claim sys.service.txnIds.next.1⟩)
    (counted : sys'.begun = sys.begun + 1)
    (drew : sys'.service.txnIds = sys.service.txnIds.next.2) : Draws tag start sys' := by
  have drawn : sys.service.txnIds.next =
      (IdGenerator.idOf tag (UInt64.ofNat (start + sys.begun)),
        IdGenerator.drawn tag start (sys.begun + 1)) := by
    rw [draws.counter, IdGenerator.drawn_next]
  refine ⟨?_, ?_, ?_⟩
  · rw [drew, counted]
    exact congrArg Prod.snd drawn
  · rw [threads]
    refine forall_mem_set (fun t there id used => ?_) fun id used => ?_
    · obtain ⟨k, before, is⟩ := draws.within t there id used
      exact ⟨k, by omega, is⟩
    · refine ⟨sys.begun, by omega, ?_⟩
      cases used
      exact congrArg Prod.fst drawn
  · rw [threads]
    refine draws.apart.set at_ fun id used => .inr fun u there also => ?_
    cases used
    obtain ⟨k, before, is⟩ := draws.within u there _ also
    have beyond := sys.begun_le
    have equal : sys.begun = k := IdGenerator.idOf_injective (by omega) (by omega)
      ((congrArg Prod.fst drawn).symm.trans is)
    omega

theorem Draws.step (draws : Draws tag start sys) (short : sys.threads.length < 2 ^ 64)
    (stepped : System.step chain sys i = some sys') : Draws tag start sys' := by
  obtain ⟨c, pc, pc', at_, fired, threads⟩ := step_fires stepped
  have grown : sys'.begun = sys.begun + if pc.begun = true then 0 else 1 := by
    unfold System.begun
    rw [threads]
    exact begun_set at_ fired.begun
  -- the counter advances with the calls that begin, and with no other step
  rcases fired.identity with ⟨rfl, rfl, drew⟩ | ⟨lost, begun, -, same⟩ | ⟨id, rfl, rfl, -, whole⟩ |
    ⟨id, was, now, counter⟩
  · exact draws.mint short at_ threads grown (by rw [drew])
  · rw [begun] at grown
    refine draws.keep at_ threads grown (by rw [same]) fun id used => ?_
    rw [lost.txnId] at used
    cases used
  · exact draws.keep at_ threads grown (by rw [whole]) fun _ used => used
  · have mine := Pc.txnId_of_won was
    rw [Pc.begun_of_txnId mine] at grown
    refine draws.keep at_ threads grown counter fun id used => ?_
    rw [← used, Pc.txnId_of_won now]
    exact mine

end Draws

theorem length_threads {service : PaymentService} {calls : List Call} {sched : List Nat}
    {sys : System} (reached : Reaches chain service calls sched sys) :
    sys.threads.length = calls.length := by
  rw [← reached.calls, List.length_map]

/-- **Fewer than `2 ^ 64` calls work under distinct ids.** -/
theorem Reaches.draws {service : PaymentService} {calls : List Call} {sched : List Nat}
    {sys : System} {tag : String} {start : Nat} (reached : Reaches chain service calls sched sys)
    (unused : service.txnIds = IdGenerator.drawn tag start 0) (short : calls.length < 2 ^ 64) :
    Draws tag start sys := by
  refine (exec_induct (fun sys => Draws tag start sys ∧ sys.threads.length = calls.length) ?_ ?_
    reached).1
  · rintro sys i sys' ⟨draws, length⟩ stepped
    refine ⟨draws.step (by omega) stepped, ?_⟩
    obtain ⟨c, pc, pc', -, -, threads⟩ := step_fires stepped
    rw [threads, List.length_set, length]
  · have quiet : ∀ t ∈ (System.init service calls).threads, t.pc = .start :=
      fun t member => (mem_init member).2
    have none_ : (System.init service calls).begun = 0 := by
      apply List.countP_eq_zero.2
      intro t member
      rw [quiet t member]
      decide
    refine ⟨⟨?_, ?_, ?_⟩, by simp [System.init]⟩
    · rw [none_]
      exact unused
    · intro t member id used
      rw [quiet t member] at used
      cases used
    · intro i j t u id there _ used
      rw [quiet t (List.mem_of_getElem? there)] at used
      cases used

/-! ## Keys -/

/-- A claimed key stays claimed, for the same id. -/
theorem Fires.keeps_key {c : Call} {s s' : PaymentService} {pc pc' : Pc} {key id : String}
    (fired : Fires chain c s pc s' pc') (claimed : s.idempotency.lookup key = some id) :
    s'.idempotency.lookup key = some id := by
  rcases fired.idempotency with same | ⟨id', -, -, fresh, inserted⟩
  · rw [same]
    exact claimed
  · have different : key ≠ c.req.idempotencyKey := by
      rintro rfl
      rw [fresh] at claimed
      cases claimed
    rw [inserted, AList.lookup_insert_ne different]
    exact claimed

/-- Transactions are stored under their own ids. -/
def Filed (s : PaymentService) : Prop :=
  ∀ id txn, s.transactions.lookup id = some txn → txn.id = id

theorem Fires.filed {c : Call} {s s' : PaymentService} {pc pc' : Pc}
    (fired : Fires chain c s pc s' pc') (filed : Filed s) : Filed s' := by
  intro id txn found
  rcases fired.transactions with same | ⟨saved, type, res, -, -, inserted⟩
  · rw [same] at found
    exact filed id txn found
  · rw [inserted] at found
    by_cases here : id = saved.id
    · subst here
      rw [AList.lookup_insert] at found
      cases found
      rfl
    · rw [AList.lookup_insert_ne here] at found
      exact filed id txn found

namespace Pc

/-- The id a call put under its key, or read there. -/
def cites : Pc → Option String
  | .replay id => some id
  | .replied (.ok prior) => some prior.id
  | pc => pc.won

theorem cites_of_won {pc : Pc} {id : String} (won : pc.won = some id) : pc.cites = some id := by
  cases pc <;> first | exact won | cases won

end Pc

/-- The id a call cites is what its key maps to. -/
structure Cited (s : PaymentService) (t : Thread) : Prop where
  filed : Filed s
  key : ∀ id, t.pc.cites = some id →
    s.idempotency.lookup t.call.req.idempotencyKey = some id

theorem Fires.cites {c : Call} {s s' : PaymentService} {pc pc' : Pc}
    (fired : Fires chain c s pc s' pc') (cited : Cited s ⟨c, pc⟩) {id : String}
    (cites : pc'.cites = some id) : s'.idempotency.lookup c.req.idempotencyKey = some id := by
  cases fired with
  | won txnId fresh =>
    cases cites
    exact AList.lookup_insert _
  | looked existingId found =>
    cases cites
    exact found
  | replayed existingId prior found =>
    cases cites
    rw [cited.filed _ _ found]
    exact cited.key existingId rfl
  | unclaimed res code =>
    obtain ⟨msg, rfl⟩ := code
    cases cites
  | unreplayed existingId res code =>
    obtain ⟨msg, rfl⟩ := code
    cases cites
  | built txnId txn ok =>
    rw [← buildTxn_id ok] at cited
    exact cited.key id cites
  | authorized txn strategy ref approved =>
    exact cited.key id ((congrArg some (advance_id txn .authorized)).symm.trans cites)
  | rejected txn v => exact cited.key id ((Pc.failing_won txn v.err).symm.trans cites)
  | unloaded txn err => exact cited.key id ((Pc.failing_won txn err).symm.trans cites)
  | declined txn _ e => exact cited.key id ((Pc.failing_won txn e).symm.trans cites)
  | refused f _ err => exact cited.key id ((Pc.failing_won f.txn err).symm.trans cites)
  | undebited f err => exact cited.key id ((Pc.failing_won f.txn err).symm.trans cites)
  | undebitedNowhere f err => exact cited.key id ((Pc.failing_won f.txn err).symm.trans cites)
  | uncaptured f err => exact cited.key id ((Pc.failing_won f.txn err).symm.trans cites)
  | captured f => exact cited.key id ((Pc.capturing_won f.txn).symm.trans cites)
  | _ => exact cited.key id cites

/-- **What a call cites is what its key maps to**, in every run. -/
theorem Reaches.cited {service : PaymentService} {calls : List Call} {sched : List Nat}
    {sys : System} (reached : Reaches chain service calls sched sys) (filed : Filed service) :
    ∀ t ∈ sys.threads, Cited sys.service t := by
  refine (interleaving chain).agentwise (P := Cited) ?_ ?_ ?_ reached
  · rintro s ⟨c, pc⟩ s' ⟨c', pc'⟩ ⟨rfl, fired⟩ cited
    exact ⟨fired.filed cited.filed, fun id => fired.cites cited⟩
  · rintro s t s' t' u ⟨-, fired⟩ cited theirs
    exact ⟨fired.filed theirs.filed, fun id cites => fired.keeps_key (theirs.key id cites)⟩
  · intro t member
    refine ⟨filed, fun id cites => ?_⟩
    rw [(mem_init member).2] at cites
    cases cites

/-- **Every key claimed in a run was claimed before it, or by one of the calls.** -/
theorem Reaches.claimant {service : PaymentService} {calls : List Call} {sched : List Nat}
    {sys : System} (reached : Reaches chain service calls sched sys) {key id : String}
    (claimed : sys.service.idempotency.lookup key = some id) :
    service.idempotency.lookup key = some id ∨
      ∃ t ∈ sys.threads, t.call.req.idempotencyKey = key ∧ t.pc.won = some id := by
  revert key id
  refine exec_induct (fun sys => ∀ {key id : String},
    sys.service.idempotency.lookup key = some id → service.idempotency.lookup key = some id ∨
      ∃ t ∈ sys.threads, t.call.req.idempotencyKey = key ∧ t.pc.won = some id) ?_ ?_ reached
  · intro sys i sys' before stepped key id claimed
    obtain ⟨c, pc, pc', at_, fired, threads⟩ := step_fires stepped
    have still (before : service.idempotency.lookup key = some id ∨
        ∃ t ∈ sys.threads, t.call.req.idempotencyKey = key ∧ t.pc.won = some id) :
        service.idempotency.lookup key = some id ∨
          ∃ t ∈ sys.threads.set i ⟨c, pc'⟩, t.call.req.idempotencyKey = key ∧ t.pc.won = some id :=
      before.imp_right
        (exists_mem_set at_ fun ⟨mine, won⟩ => ⟨mine, fired.keeps_won won⟩)
    rw [threads]
    rcases fired.idempotency with same | ⟨id', rfl, rfl, -, inserted⟩
    · rw [same] at claimed
      exact still (before claimed)
    · rw [inserted] at claimed
      by_cases mine : key = c.req.idempotencyKey
      · subst mine
        rw [AList.lookup_insert] at claimed
        exact .inr ⟨_, mem_set_at at_ _, rfl, claimed⟩
      · rw [AList.lookup_insert_ne mine] at claimed
        exact still (before claimed)
  · intro key id claimed
    exact .inl claimed

/-- From a service without claims, every claimed key was claimed by one of the calls. -/
theorem Reaches.winner {service : PaymentService} {calls : List Call} {sched : List Nat}
    {sys : System} (reached : Reaches chain service calls sched sys)
    (unclaimed : service.idempotency = ∅) {key id : String}
    (claimed : sys.service.idempotency.lookup key = some id) :
    ∃ t ∈ sys.threads, t.call.req.idempotencyKey = key ∧ t.pc.won = some id := by
  rcases reached.claimant claimed with before | won
  · simp [unclaimed] at before
  · exact won

/-! ## At most one charge per key -/

theorem filed_opening (accounts : InMemoryAccountRepository) :
    Filed (PaymentService.opening accounts) := by
  intro id txn found
  simp [PaymentService.opening] at found

/-- A call carries a transaction under an id it never drops. -/
theorem Fires.keeps_txn {c : Call} {s s' : PaymentService} {pc pc' : Pc} {id : String}
    (fired : Fires chain c s pc s' pc') (carried : pc.txn.map Transaction.id = some id) :
    pc'.txn.map Transaction.id = some id := by
  have failing (txn : Transaction) (err : Error) :
      (Pc.failing txn err).txn.map Transaction.id = some txn.id :=
    congrArg some (advance_id txn _)
  cases fired with
  | won => cases carried
  | built => cases carried
  | rejected txn v => exact (failing txn v.err).trans carried
  | unloaded txn err => exact (failing txn err).trans carried
  | declined txn _ e => exact (failing txn e).trans carried
  | authorized txn => exact (congrArg some (advance_id txn _)).trans carried
  | refused f _ err => exact (failing f.txn err).trans carried
  | undebited f err => exact (failing f.txn err).trans carried
  | undebitedNowhere f err => exact (failing f.txn err).trans carried
  | uncaptured f err => exact (failing f.txn err).trans carried
  | captured f => exact (congrArg some (advance_id f.txn _)).trans carried
  | _ => exact carried

/-- Every journal entry belongs to the transaction some call carries. -/
theorem Reaches.posted_by {service : PaymentService} {calls : List Call} {sched : List Nat}
    {sys : System} (reached : Reaches chain service calls sched sys)
    (blank : service.journal = []) : ∀ e ∈ sys.service.journal,
      ∃ t ∈ sys.threads, t.pc.txn.map Transaction.id = some e.txnId := by
  refine exec_induct (fun sys => ∀ e ∈ sys.service.journal,
    ∃ t ∈ sys.threads, t.pc.txn.map Transaction.id = some e.txnId) ?_ ?_ reached
  · intro sys i sys' posted stepped e entered
    obtain ⟨c, pc, pc', at_, fired, threads⟩ := step_fires stepped
    rw [threads]
    rcases fired.journal with same | ⟨f, debitId, creditId, debitSeq, creditSeq, rfl, rfl, grown⟩
    · rw [same] at entered
      exact exists_mem_set at_ fired.keeps_txn (posted e entered)
    · rw [grown] at entered
      rcases List.mem_append.1 entered with before | now
      · exact exists_mem_set at_ fired.keeps_txn (posted e before)
      · refine ⟨_, mem_set_at at_ _, ?_⟩
        simp only [postingOf, List.mem_cons, List.not_mem_nil, or_false] at now
        rcases now with rfl | rfl <;> rfl
  · intro e entered
    simp [System.init, blank] at entered

/-- Nothing but the id counter has changed. -/
def OnlyCounts (s s' : PaymentService) : Prop :=
  ∃ txnIds, s' = { s with txnIds }

/-- A key won by thread `i` is still won when a schedule has run on. -/
theorem won_persists {sys sys' : System} {sched : List Nat}
    (run : exec (System.step chain) sys sched = some sys') {i : Nat} {id : String}
    (won : ∃ t, sys.threads[i]? = some t ∧ t.pc.won = some id) :
    ∃ t, sys'.threads[i]? = some t ∧ t.pc.won = some id := by
  refine exec_induct (fun sys => ∃ t, sys.threads[i]? = some t ∧ t.pc.won = some id) ?_ won run
  rintro sys j sys' ⟨t, there, won⟩ stepped
  obtain ⟨c, pc, pc', at_, fired, threads⟩ := step_fires stepped
  rw [threads]
  by_cases same : j = i
  · subst same
    cases at_.symm.trans there
    refine ⟨⟨c, pc'⟩, List.getElem?_set_self (List.getElem?_eq_some_iff.1 at_).1, ?_⟩
    exact fired.keeps_won won
  · exact ⟨t, (List.getElem?_set_ne same).trans there, won⟩

/-- **A call that did not win its key touches no store.** -/
theorem loser_touches_nothing {sys mid fin : System} {i : Nat} {late : List Nat}
    (stepped : System.step chain sys i = some mid)
    (run : exec (System.step chain) mid late = some fin) {t : Thread}
    (there : fin.threads[i]? = some t) (lost : t.pc.won = none) :
    OnlyCounts sys.service mid.service := by
  obtain ⟨c, pc, pc', at_, fired, threads⟩ := step_fires stepped
  rcases fired.identity with ⟨-, -, drew⟩ | ⟨-, -, -, same⟩ | kept
  · exact ⟨_, drew⟩
  · exact ⟨_, same⟩
  · exfalso
    obtain ⟨id, won⟩ : ∃ id, pc'.won = some id := by
      rcases kept with ⟨id, -, rfl, -⟩ | ⟨id, -, won, -⟩
      · exact ⟨id, rfl⟩
      · exact ⟨id, won⟩
    have inside : i < sys.threads.length := (List.getElem?_eq_some_iff.1 at_).1
    obtain ⟨u, there', won'⟩ := won_persists run ⟨⟨c, pc'⟩, by
      rw [threads]; exact List.getElem?_set_self inside, won⟩
    cases there.symm.trans there'
    rw [lost] at won'
    cases won'

/-- The journal holds a posting of the transaction `id`, whose idempotency key is
`key`. -/
def Posted (sys : System) (key id : String) : Prop :=
  ∃ t ∈ sys.threads, ∃ txn, t.pc.txn = some txn ∧ txn.idempotencyKey = key ∧ txn.id = id ∧
    ∃ e ∈ sys.service.journal, e.txnId = id

/-- A call that answers ok cites the transaction it answers with. -/
theorem Sound.cites_answer {c : Call} {pc : Pc} (sound : Sound chain c pc) {txn : Transaction}
    (answer : pc.outcome = some (.ok (.ok txn))) : pc.cites = some txn.id := by
  rcases sound.answered answer with rfl | ⟨carried, -⟩
  · rfl
  · exact Pc.cites_of_won (sound.txn carried).1

/-- **At most one charge per idempotency key.**  Every journal entry is of a
transaction under some key, and of one transaction for each key; one call at most
wins a key; ok answers under one key carry one id; and a call that has not won its
key has touched nothing but the id counter. -/
theorem one_charge_per_key {accounts : InMemoryAccountRepository} {calls : List Call}
    {sched : List Nat} {sys : System}
    (reached : Reaches chain (PaymentService.opening accounts) calls sched sys) :
    ((∀ e ∈ sys.service.journal, ∃ key, Posted sys key e.txnId) ∧
      ∀ key a b, Posted sys key a → Posted sys key b → a = b) ∧
    (calls.length < 2 ^ 64 → ∀ (i j : Nat) (t u : Thread), sys.threads[i]? = some t →
      sys.threads[j]? = some u → t.call.req.idempotencyKey = u.call.req.idempotencyKey →
      t.pc.won ≠ none → u.pc.won ≠ none → i = j) ∧
    (∀ t ∈ sys.threads, ∀ u ∈ sys.threads,
      t.call.req.idempotencyKey = u.call.req.idempotencyKey → ∀ x y,
        t.pc.outcome = some (.ok (.ok x)) → u.pc.outcome = some (.ok (.ok y)) → x.id = y.id) ∧
    ∀ early i late before after, sched = early ++ i :: late →
      Reaches chain (PaymentService.opening accounts) calls early before →
      System.step chain before i = some after →
      (∀ t, sys.threads[i]? = some t → t.pc.won = none) →
        OnlyCounts before.service after.service := by
  have cited := reached.cited (filed_opening accounts)
  have sound := reached.sound
  refine ⟨⟨?_, ?_⟩, ?_, ?_, ?_⟩
  · intro e entered
    obtain ⟨t, member, carried⟩ := reached.posted_by rfl e entered
    obtain ⟨txn, is, same⟩ := Option.map_eq_some_iff.1 carried
    exact ⟨txn.idempotencyKey, t, member, txn, is, rfl, same, e, entered, rfl⟩
  · rintro key a b ⟨t, member, x, carried, mine, rfl, -⟩ ⟨u, member', y, carried', mine', rfl, -⟩
    obtain ⟨won, _, is⟩ := (sound t member).txn carried
    obtain ⟨won', _, is'⟩ := (sound u member').txn carried'
    have first := (cited t member).key _ (Pc.cites_of_won won)
    have second := (cited u member').key _ (Pc.cites_of_won won')
    have same : t.call.req.idempotencyKey = u.call.req.idempotencyKey := by
      calc t.call.req.idempotencyKey = x.idempotencyKey := by rw [is]; rfl
        _ = y.idempotencyKey := mine.trans mine'.symm
        _ = u.call.req.idempotencyKey := by rw [is']; rfl
    rw [same] at first
    exact Option.some.inj (first.symm.trans second)
  · intro short i j t u there there' same won won'
    obtain ⟨a, won⟩ := Option.ne_none_iff_exists'.1 won
    obtain ⟨b, won'⟩ := Option.ne_none_iff_exists'.1 won'
    have first := (cited t (List.mem_of_getElem? there)).key _ (Pc.cites_of_won won)
    have second := (cited u (List.mem_of_getElem? there')).key _ (Pc.cites_of_won won')
    rw [same] at first
    cases Option.some.inj (first.symm.trans second)
    have draws : Draws "txn" 1 sys := reached.draws rfl short
    exact draws.apart i j t u a there there' (Pc.txnId_of_won won) (Pc.txnId_of_won won')
  · intro t member u member' same x y answer answer'
    have first := (cited t member).key _ ((sound t member).cites_answer answer)
    have second := (cited u member').key _ ((sound u member').cites_answer answer')
    rw [same] at first
    exact Option.some.inj (first.symm.trans second)
  · intro early i late before after split ran stepped lost
    obtain ⟨mid, first, rest⟩ := exec_append.1 (split ▸ reached)
    cases ran.symm.trans first
    obtain ⟨next_, step_, rest⟩ := exec_cons.1 rest
    cases stepped.symm.trans step_
    have inside : i < sys.threads.length := by
      obtain ⟨c, pc, pc', at_, -, -⟩ := step_fires stepped
      have bound := (List.getElem?_eq_some_iff.1 at_).1
      rw [length_threads ran] at bound
      rw [length_threads reached]
      exact bound
    have there : sys.threads[i]? = some sys.threads[i] := List.getElem?_eq_getElem inside
    exact loser_touches_nothing stepped rest there (lost _ there)

/-- A payment, and its duplicate arriving while it is still at the Builder. -/
theorem one_charge_per_key_duplicate : ∃ sys, Reaches mainChain
    (PaymentService.opening userAndMerchant)
    [upiCall "key-1" "u" "m" 30000, upiCall "key-1" "u" "m" 30000]
    ([0, 0, 1, 1, 1] ++ List.replicate 18 0 ++ [1]) sys ∧
    ∀ key a b, Posted sys key a → Posted sys key b → a = b := by
  have ran : (exec (System.step mainChain)
      (System.init (PaymentService.opening userAndMerchant)
        [upiCall "key-1" "u" "m" 30000, upiCall "key-1" "u" "m" 30000])
      ([0, 0, 1, 1, 1] ++ List.replicate 18 0 ++ [1])).any
        (fun sys => sys.service.journal.length = 2) = true := by decide +kernel
  obtain ⟨sys, reached, -⟩ := exec_any ran
  exact ⟨sys, reached, (one_charge_per_key reached).1.2⟩

end PaymentSystem.Service
