/-
# PaymentSystem.Service.Progress -- who holds the payers' locks, and who waits

The in-memory lock keeps no owner, so the owner of each mutex is read off the run:
`Watched` is the system together with the call whose step took each mutex that is
held.  `Owned` says what that history comes to: a call owns a mutex exactly while it
is between its acquisition and its release.

`locks_disciplined`: mutual exclusion per payer, nothing held while waiting, waiting
only for the same payer, no deadlock, and nothing held when no call is in flight.
-/
import PaymentSystem.Service.Locks

namespace PaymentSystem.Service

open PaymentSystem.Patterns
open PaymentSystem.Adapters
open PaymentSystem.Theory.Runs
open PaymentSystem.Theory.Threads

set_option autoImplicit false

variable {chain : ValidationChain}

/-! ## The history of the mutexes -/

/-- A system, and the call that took each mutex now held. -/
structure Watched where
  sys : System
  owner : String → Option Nat

namespace Watched

def init (service : PaymentService) (calls : List Call) : Watched :=
  ⟨System.init service calls, fun _ => none⟩

/-- After call `i` has moved the system to `sys`: it owns a mutex that was free before
and is held now, and nobody owns one that is free now. -/
def moved (w : Watched) (i : Nat) (sys : System) : Watched :=
  ⟨sys, fun key =>
    if sys.service.locks.Held key then
      if w.sys.service.locks.Held key then w.owner key else some i
    else none⟩

def step (chain : ValidationChain) (w : Watched) (i : Nat) : Option Watched :=
  (System.step chain w.sys i).map (w.moved i)

theorem step_iff {w w' : Watched} {i : Nat} :
    step chain w i = some w' ↔ ∃ sys, System.step chain w.sys i = some sys ∧ w.moved i sys = w' :=
  Option.map_eq_some_iff

/-- Watching a run neither stops it nor changes it. -/
theorem exec_sys {w : Watched} {sched : List Nat} {sys : System} :
    exec (System.step chain) w.sys sched = some sys ↔
      ∃ owner, exec (step chain) w sched = some ⟨sys, owner⟩ := by
  induction sched generalizing w with
  | nil =>
    constructor
    · intro ran
      cases ran
      exact ⟨w.owner, rfl⟩
    · rintro ⟨owner, ran⟩
      cases ran
      rfl
  | cons i rest ih =>
    rw [exec_cons]
    constructor
    · rintro ⟨mid, stepped, ran⟩
      obtain ⟨owner, ran⟩ := (ih (w := w.moved i mid)).1 ran
      exact ⟨owner, exec_cons.2 ⟨w.moved i mid, step_iff.2 ⟨mid, stepped, rfl⟩, ran⟩⟩
    · rintro ⟨owner, ran⟩
      obtain ⟨w', stepped, ran⟩ := exec_cons.1 ran
      obtain ⟨mid, went, rfl⟩ := step_iff.1 stepped
      exact ⟨mid, went, (ih (w := w.moved i mid)).2 ⟨owner, ran⟩⟩

end Watched

/-- A mutex is owned by the call inside it, and by no other. -/
def Owned (w : Watched) : Prop :=
  ∀ key i, w.owner key = some i ↔ ∃ t, w.sys.threads[i]? = some t ∧ t.Holds key

theorem Owned.step {w w' : Watched} {i : Nat} (owned : Owned w) (mutex : Mutex w.sys)
    (stepped : Watched.step chain w i = some w') : Owned w' := by
  obtain ⟨sys, went, rfl⟩ := Watched.step_iff.1 stepped
  have mutex' : Mutex sys := mutex.step went
  obtain ⟨c, pc, pc', at_, fired, threads⟩ := step_fires went
  have inside : i < w.sys.threads.length := (List.getElem?_eq_some_iff.1 at_).1
  have here : sys.threads[i]? = some ⟨c, pc'⟩ := by
    rw [threads]
    exact List.getElem?_set_self inside
  have elsewhere : ∀ j, j ≠ i → sys.threads[j]? = w.sys.threads[j]? := by
    intro j different
    rw [threads, List.getElem?_set_ne (Ne.symm different)]
  intro key j
  simp only [Watched.moved]
  by_cases after : sys.service.locks.Held key
  · simp only [if_pos after]
    by_cases before : w.sys.service.locks.Held key
    · -- held throughout: the mover neither took nor released it
      rw [if_pos before, owned key j]
      by_cases mover : j = i
      · subst mover
        rw [at_, here]
        have same : (⟨c, pc⟩ : Thread).Holds key ↔ (⟨c, pc'⟩ : Thread).Holds key := by
          rcases fired.locks with ⟨-, -, free, -⟩ | ⟨-, -, released⟩ | ⟨same, -⟩
          · refine and_congr_left fun mine => absurd before ?_
            rw [← mine]
            exact free
          · refine and_congr_left fun mine => absurd after ?_
            rw [released, InMemoryDistributedLock.held_unlock]
            exact fun held => held.1 mine.symm
          · exact and_congr same.symm Iff.rfl
        simp only [Option.some.injEq, exists_eq_left', same]
      · rw [elsewhere j mover]
    · -- just taken, by the mover
      rw [if_neg before]
      constructor
      · intro is
        cases is
        refine ⟨_, here, ?_⟩
        rcases fired.locks with ⟨-, enters, -, taken⟩ | ⟨-, -, released⟩ | ⟨-, same⟩
        · rw [taken, InMemoryDistributedLock.held_lock] at after
          exact ⟨enters, (after.resolve_right before).symm⟩
        · rw [released, InMemoryDistributedLock.held_unlock] at after
          exact absurd after.2 before
        · exact absurd ((same key).1 after) before
      · rintro ⟨t, there, holds⟩
        by_cases mover : j = i
        · rw [mover]
        · rw [elsewhere j mover] at there
          exact absurd ((mutex.held key).2 ⟨t, List.mem_of_getElem? there, holds⟩) before
  · simp only [if_neg after]
    refine iff_of_false nofun ?_
    rintro ⟨t, there, holds⟩
    exact after ((mutex'.held key).2 ⟨t, List.mem_of_getElem? there, holds⟩)

/-- **In every run a mutex is owned by the call inside it.** -/
theorem watched_owned {service : PaymentService} {calls : List Call} {sched : List Nat} {w : Watched}
    (ran : exec (Watched.step chain) (Watched.init service calls) sched = some w)
    (unlocked : ∀ key, ¬ service.locks.Held key) : Owned w := by
  refine exec_induct_reached Owned ?_ ?_ ran
  · intro early mid i w' ran owned stepped
    have reached : Reaches chain service calls early mid.sys :=
      (Watched.exec_sys (w := Watched.init service calls)).2 ⟨mid.owner, ran⟩
    exact owned.step (reached.mutex unlocked) stepped
  · intro key i
    refine iff_of_false nofun ?_
    rintro ⟨t, there, inside, -⟩
    rw [(mem_init (List.mem_of_getElem? there)).2] at inside
    exact inside

/-! ## Waiting -/

namespace Pc

/-- At the acquisition of the payer's lock. -/
def Waiting : Pc → Prop
  | .lock _ => True
  | _ => False

theorem Waiting.outside {pc : Pc} (waiting : pc.Waiting) : ¬ pc.Inside := by
  cases pc <;> first | exact not_false | cases waiting

/-- A call inside the lock has not ended. -/
theorem Inside.unended {pc : Pc} (inside : pc.Inside) : pc.outcome = none := by
  cases pc <;> first | rfl | cases inside

end Pc

/-- **A call that has not ended can take a step, unless it waits for a mutex that is
held.** -/
theorem next_blocked {c : Call} {s : PaymentService} {pc : Pc} (unended : pc.outcome = none)
    (stuck : next chain c s pc = none) : pc.Waiting ∧ s.locks.Held (lockKey c.req) := by
  cases pc with
  | replied => cases unended
  | unbuilt => cases unended
  | finished => cases unended
  | lock txn =>
    refine ⟨trivial, ?_⟩
    by_contra free
    simp [next, free] at stuck
  | lookup => simp only [next] at stuck; split at stuck <;> cases stuck
  | replay => simp only [next] at stuck; split at stuck <;> cases stuck
  | build => simp only [next] at stuck; split at stuck <;> cases stuck
  | validate => simp only [next] at stuck; split at stuck <;> cases stuck
  | authorize => simp only [next] at stuck; split at stuck <;> cases stuck
  | debit => simp only [next] at stuck; split at stuck <;> cases stuck
  | credit => simp only [next] at stuck; split at stuck <;> cases stuck
  | undoCredit => simp only [next] at stuck; split at stuck <;> cases stuck
  | undoDebit => simp only [next] at stuck; split at stuck <;> cases stuck
  | load =>
    simp only [next] at stuck
    split at stuck
    · cases stuck
    · split at stuck
      · cases stuck
      · split at stuck <;> cases stuck
  | _ => cases stuck

theorem next_of_inside {c : Call} {s : PaymentService} {pc : Pc} (inside : pc.Inside) :
    (next chain c s pc).isSome := by
  rw [Option.isSome_iff_ne_none]
  exact fun stuck => (next_blocked inside.unended stuck).1.outside inside

theorem lockKey_inj {req req' : PaymentRequest} (same : lockKey req = lockKey req') :
    req.payerAccountId = req'.payerAccountId := by
  have chars := congrArg String.toList same
  simp only [lockKey, String.toList_append, List.append_cancel_left_eq] at chars
  exact String.toList_inj.1 chars

/-! ## The discipline -/

/-- What the payers' locks guarantee in a state of a watched run. -/
structure Disciplined (chain : ValidationChain) (w : Watched) : Prop where
  /-- From its acquisition to its release a call owns its payer's mutex. -/
  owns : ∀ i t, w.sys.threads[i]? = some t → t.pc.Inside →
    w.owner (lockKey t.call.req) = some i
  /-- At most one call per payer is inside. -/
  exclusive : ∀ (i j : Nat) (t u : Thread), w.sys.threads[i]? = some t →
    w.sys.threads[j]? = some u → t.pc.Inside → u.pc.Inside →
    t.call.req.payerAccountId = u.call.req.payerAccountId → i = j
  /-- A call that waits for a mutex owns none. -/
  bare : ∀ i t, w.sys.threads[i]? = some t → t.pc.Waiting → ∀ key, w.owner key ≠ some i
  /-- Whoever owns the mutex a call waits for has the same payer. -/
  related : ∀ (i j : Nat) (t u : Thread), w.sys.threads[i]? = some t →
    w.sys.threads[j]? = some u → t.pc.Waiting → w.owner (lockKey t.call.req) = some j →
    u.call.req.payerAccountId = t.call.req.payerAccountId
  /-- An unfinished call that cannot take a step waits for a mutex that a call inside owns. -/
  blocked : ∀ i t, w.sys.threads[i]? = some t → t.pc.outcome = none →
    System.step chain w.sys i = none → t.pc.Waiting ∧
      ∃ j u, w.sys.threads[j]? = some u ∧ u.pc.Inside ∧ w.owner (lockKey t.call.req) = some j
  /-- If any call is unfinished, some call can take a step. -/
  live : (∃ t ∈ w.sys.threads, t.pc.outcome = none) → ∃ i, (System.step chain w.sys i).isSome
  /-- When no call is in flight no mutex is held. -/
  released : w.sys.Quiescent → ∀ key, ¬ w.sys.service.locks.Held key

theorem step_none {sys : System} {i : Nat} {t : Thread} (at_ : sys.threads[i]? = some t) :
    System.step chain sys i = none ↔ next chain t.call sys.service t.pc = none := by
  simp [System.step, at_]

/-- **Mutual exclusion per payer, without deadlock**, in every run from unheld locks. -/
theorem locks_disciplined {service : PaymentService} {calls : List Call} {sched : List Nat}
    {w : Watched} (unlocked : ∀ key, ¬ service.locks.Held key)
    (ran : exec (Watched.step chain) (Watched.init service calls) sched = some w) :
    Disciplined chain w := by
  have owned : Owned w := watched_owned ran unlocked
  have reached : Reaches chain service calls sched w.sys :=
    (Watched.exec_sys (w := Watched.init service calls)).2 ⟨w.owner, ran⟩
  have mutex : Mutex w.sys := reached.mutex unlocked
  have blocked : ∀ i t, w.sys.threads[i]? = some t → t.pc.outcome = none →
      System.step chain w.sys i = none → t.pc.Waiting ∧
        ∃ j u, w.sys.threads[j]? = some u ∧ u.pc.Inside ∧ w.owner (lockKey t.call.req) = some j := by
    intro i t at_ unended stuck
    obtain ⟨waiting, held⟩ := next_blocked unended ((step_none at_).1 stuck)
    obtain ⟨u, member, holds⟩ := (mutex.held _).1 held
    obtain ⟨j, there⟩ := List.mem_iff_getElem?.1 member
    exact ⟨waiting, j, u, there, holds.1, (owned _ j).2 ⟨u, there, holds⟩⟩
  constructor
  · intro i t at_ inside
    exact (owned _ i).2 ⟨t, at_, inside, rfl⟩
  · intro i j t u at_ there inside inside' same
    refine mutex.apart i j t u (lockKey t.call.req) at_ there ⟨inside, rfl⟩ ⟨inside', ?_⟩
    rw [lockKey, lockKey, same]
  · intro i t at_ waiting key owns
    obtain ⟨u, there, holds⟩ := (owned key i).1 owns
    cases at_.symm.trans there
    exact waiting.outside holds.1
  · intro i j t u _ there _ owns
    obtain ⟨v, there', holds⟩ := (owned _ j).1 owns
    cases there.symm.trans there'
    exact lockKey_inj holds.2
  · exact blocked
  · rintro ⟨t, member, unended⟩
    obtain ⟨i, at_⟩ := List.mem_iff_getElem?.1 member
    cases stepped : System.step chain w.sys i with
    | some sys' => exact ⟨i, by rw [stepped]; rfl⟩
    | none =>
      -- the call inside the mutex it waits for can go on
      obtain ⟨-, j, u, there, inside, -⟩ := blocked i t at_ unended stepped
      refine ⟨j, Option.isSome_iff_ne_none.2 fun stuck => ?_⟩
      rw [step_none there] at stuck
      exact Option.isSome_iff_ne_none.1 (next_of_inside inside) stuck
  · intro quiescent key held
    obtain ⟨t, member, inside, -⟩ := (mutex.held key).1 held
    rcases quiescent t member with ended | waiting
    · exact ended inside.unended
    · rw [waiting] at inside
      exact inside

/-- The second payment of `u` waits while the first is inside. -/
theorem locks_disciplined_waiting : ∃ w,
    exec (Watched.step mainChain) (Watched.init (PaymentService.opening userAndMerchant)
      [upiCall "key-1" "u" "m" 30000, upiCall "key-2" "u" "m" 500])
      [0, 0, 0, 0, 0, 1, 1, 1, 1] = some w ∧ Disciplined mainChain w := by
  have ran : (exec (Watched.step mainChain) (Watched.init (PaymentService.opening userAndMerchant)
      [upiCall "key-1" "u" "m" 30000, upiCall "key-2" "u" "m" 500])
      [0, 0, 0, 0, 0, 1, 1, 1, 1]).any
        (fun w => decide (w.owner "account:u" = some 0)) = true := by decide +kernel
  obtain ⟨w, ran, -⟩ := exec_any ran
  refine ⟨w, ran, locks_disciplined (fun key held => ?_) ran⟩
  cases held

end PaymentSystem.Service
