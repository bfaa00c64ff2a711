/-
# PaymentSystem.Service.Locks -- the payer's lock excludes

From its acquisition to its release a call is alone with its payer (`Mutex`): the
mutexes held are exactly those of the calls inside, and no two of them share one.
A key that is not shared and was not claimed before is there for its call to win
(`Unshared`).
-/
import PaymentSystem.Service.Keys

namespace PaymentSystem.Service

open PaymentSystem.Patterns
open PaymentSystem.Adapters
open PaymentSystem.Theory.Runs
open PaymentSystem.Theory.Threads

set_option autoImplicit false

variable {chain : ValidationChain}

/-! ## Mutual exclusion -/

namespace Pc

/-- Program points inside the payer's lock. -/
def Inside : Pc → Prop
  | .validate _ | .load _ | .authorize _ _ | .debit _ | .credit _ | .drawDebitId _
  | .drawDebitSeq _ _ | .drawCreditId _ _ _ | .drawCreditSeq _ _ _ _ | .post _ _ _ _ _
  | .undoCredit _ _ | .undoDebit _ _ | .capture _ | .save _ _ _ | .publish _ _ _ | .notify _ _ _
  | .unlock _ _ => True
  | _ => False

end Pc

/-- The thread holds the mutex of `key`. -/
def Thread.Holds (t : Thread) (key : String) : Prop := t.pc.Inside ∧ lockKey t.call.req = key

/-- The mutexes held are those the threads hold, each held by one. -/
structure Mutex (sys : System) : Prop where
  held : ∀ key, sys.service.locks.Held key ↔ ∃ t ∈ sys.threads, t.Holds key
  apart : Apart Thread.Holds sys.threads

/-- What a step does to the locks: it takes a free one, or releases its own, or
leaves them as they are held. -/
theorem Fires.locks {c : Call} {s s' : PaymentService} {pc pc' : Pc}
    (fired : Fires chain c s pc s' pc') :
    (¬ pc.Inside ∧ pc'.Inside ∧ ¬ s.locks.Held (lockKey c.req) ∧
        s'.locks = s.locks.lock (lockKey c.req)) ∨
      (pc.Inside ∧ ¬ pc'.Inside ∧ s'.locks = s.locks.unlock (lockKey c.req)) ∨
      ((pc'.Inside ↔ pc.Inside) ∧ ∀ key, s'.locks.Held key ↔ s.locks.Held key) := by
  cases fired with
  | mutexFor txn =>
    exact .inr (.inr ⟨Iff.rfl, s.locks.held_mutexFor (lockKey c.req)⟩)
  | locked txn free => exact .inl ⟨not_false, trivial, free, rfl⟩
  | unlocked txn out => exact .inr (.inl ⟨trivial, not_false, rfl⟩)
  | _ => exact .inr (.inr ⟨Iff.rfl, fun _ => Iff.rfl⟩)

theorem Mutex.step {sys sys' : System} {i : Nat} (mutex : Mutex sys)
    (stepped : System.step chain sys i = some sys') : Mutex sys' := by
  obtain ⟨c, pc, pc', at_, fired, threads⟩ := step_fires stepped
  have member : (⟨c, pc⟩ : Thread) ∈ sys.threads := List.mem_of_getElem? at_
  have mover : (⟨c, pc'⟩ : Thread) ∈ sys'.threads := by
    rw [threads]
    exact mem_set_at at_ _
  -- a thread elsewhere is the same before and after
  have elsewhere : ∀ j u, j ≠ i → (sys'.threads[j]? = some u ↔ sys.threads[j]? = some u) := by
    intro j u different
    rw [threads, List.getElem?_set_ne (Ne.symm different)]
  rcases fired.locks with ⟨outside, enters, free, taken⟩ | ⟨was, leaves, released⟩ | ⟨same, held⟩
  · constructor
    · intro key
      rw [taken, InMemoryDistributedLock.held_lock, mutex.held]
      constructor
      · rintro (rfl | ⟨t, there, holds⟩)
        · exact ⟨_, mover, enters, rfl⟩
        · obtain ⟨j, at_j⟩ := List.mem_iff_getElem?.1 there
          have different : j ≠ i := by
            rintro rfl
            cases at_.symm.trans at_j
            exact outside holds.1
          exact ⟨t, List.mem_of_getElem? ((elsewhere j t different).2 at_j), holds⟩
      · rintro ⟨t, there, holds⟩
        rw [threads] at there
        rcases List.mem_or_eq_of_mem_set there with there | rfl
        · exact .inr ⟨t, there, holds⟩
        · exact .inl holds.2.symm
    · rw [threads]
      refine mutex.apart.set at_ fun key holds => .inr fun u there also => free ?_
      rw [mutex.held]
      obtain ⟨-, rfl⟩ := holds
      exact ⟨u, there, also⟩
  · constructor
    · intro key
      rw [released, InMemoryDistributedLock.held_unlock, mutex.held]
      constructor
      · rintro ⟨other, t, there, holds⟩
        obtain ⟨j, at_j⟩ := List.mem_iff_getElem?.1 there
        have different : j ≠ i := by
          rintro rfl
          cases at_.symm.trans at_j
          exact other holds.2.symm
        exact ⟨t, List.mem_of_getElem? ((elsewhere j t different).2 at_j), holds⟩
      · rintro ⟨t, there, holds⟩
        obtain ⟨j, at_j⟩ := List.mem_iff_getElem?.1 there
        rw [threads] at at_j
        rcases at_set at_j with ⟨-, rfl⟩ | ⟨different, at_j⟩
        · exact absurd holds.1 leaves
        · refine ⟨fun mine => ?_, t, List.mem_of_getElem? at_j, holds⟩
          exact different (mutex.apart j i t _ key at_j at_ holds ⟨was, mine.symm⟩)
    · rw [threads]
      exact mutex.apart.set at_ fun key holds => absurd holds.1 leaves
  · constructor
    · intro key
      rw [held, mutex.held]
      constructor
      · intro holder
        rw [threads]
        exact exists_mem_set at_ (fun ⟨there, mine⟩ => ⟨same.2 there, mine⟩) holder
      · rintro ⟨t, there, holds⟩
        rw [threads] at there
        rcases List.mem_or_eq_of_mem_set there with there | rfl
        · exact ⟨t, there, holds⟩
        · exact ⟨_, member, same.1 holds.1, holds.2⟩
    · rw [threads]
      exact mutex.apart.set at_ fun key holds => .inl ⟨same.1 holds.1, holds.2⟩

/-- **Two calls are never inside the lock of one payer.** -/
theorem Reaches.mutex {service : PaymentService} {calls : List Call} {sched : List Nat}
    {sys : System} (reached : Reaches chain service calls sched sys)
    (unlocked : ∀ key, ¬ service.locks.Held key) : Mutex sys := by
  refine exec_induct Mutex (fun sys i sys' mutex stepped => mutex.step stepped) ?_ reached
  have nobody : ∀ t ∈ (System.init service calls).threads, ∀ key, ¬ t.Holds key := by
    rintro t member key ⟨there, -⟩
    rw [(mem_init member).2] at there
    exact there
  constructor
  · intro key
    refine iff_of_false (unlocked key) ?_
    rintro ⟨t, member, holds⟩
    exact nobody t member key holds
  · intro i j t u key at_i _ holds
    exact absurd holds (nobody t (List.mem_of_getElem? at_i) key)

/-! ## Keys of their own -/

/-- A call that has not won its key finds it unclaimed. -/
structure Unshared (sys : System) : Prop where
  unclaimed : ∀ (i : Nat) (t : Thread), sys.threads[i]? = some t → t.pc.won = none →
    sys.service.idempotency.lookup t.call.req.idempotencyKey = none ∧ ¬ t.pc.Lost

/-- **Calls with keys of their own all win them.** -/
theorem Reaches.unshared {service : PaymentService} {calls : List Call} {sched : List Nat}
    {sys : System} (reached : Reaches chain service calls sched sys)
    (distinct : (calls.map fun c => c.req.idempotencyKey).Nodup)
    (unused : ∀ c ∈ calls, service.idempotency.lookup c.req.idempotencyKey = none) :
    Unshared sys := by
  refine exec_induct_reached Unshared ?_ ?_ reached
  · intro early mid i mid' ran unshared stepped
    have ran : Reaches chain service calls early mid := ran
    obtain ⟨c, pc, pc', at_, fired, threads⟩ := step_fires stepped
    -- distinct places have distinct keys
    have keys : ∀ (j : Nat) (t : Thread), mid.threads[j]? = some t →
        t.call.req.idempotencyKey = c.req.idempotencyKey → j = i := by
      have place : ∀ (k : Nat) (t : Thread), mid.threads[k]? = some t →
          (calls.map fun c => c.req.idempotencyKey)[k]? = some t.call.req.idempotencyKey := by
        intro k t there
        rw [List.getElem?_map, ran.place there]
        rfl
      intro j t there same
      have here := place i _ at_
      have also := place j t there
      rw [same] at also
      obtain ⟨inside, -⟩ := List.getElem?_eq_some_iff.1 also
      exact (List.getElem?_inj inside distinct).1 (also.trans here.symm)
    constructor
    intro j t there won
    rw [threads] at there
    rcases at_set there with ⟨-, rfl⟩ | ⟨different, there⟩
    · rcases fired.identity with ⟨rfl, rfl, drew⟩ | ⟨lost, -, none_, -⟩ | ⟨id, -, rfl, -⟩ |
        ⟨id, -, now, -⟩
      · rw [drew]
        exact ⟨(unshared.unclaimed i _ at_ rfl).1, not_false⟩
      · -- it could only have lost a key that was claimed
        obtain ⟨free, never⟩ := unshared.unclaimed i _ at_ none_
        generalize mid'.service = s' at fired
        cases fired with
        | lost txnId taken => exact absurd free taken
        | unclaimed => exact absurd trivial never
        | looked => exact absurd trivial never
        | replayed => exact absurd trivial never
        | unreplayed => exact absurd trivial never
        | _ => exact False.elim lost
      · cases won
      · rw [now] at won
        cases won
    · obtain ⟨free, never⟩ := unshared.unclaimed j t there won
      refine ⟨?_, never⟩
      rcases fired.idempotency with same | ⟨id, -, -, -, inserted⟩
      · rw [same]
        exact free
      · rw [inserted, AList.lookup_insert_ne]
        · exact free
        · exact fun same => different (keys j t there same)
  · constructor
    intro i t there won
    obtain ⟨among, is⟩ := mem_init (List.mem_of_getElem? there)
    exact ⟨unused _ among, by rw [is]; exact not_false⟩

end PaymentSystem.Service
