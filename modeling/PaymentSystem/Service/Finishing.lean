/-
# PaymentSystem.Service.Finishing -- every call of `pay` ends

A call has so many steps before it, whatever it meets (`Pc.remaining`), so no interleaving
of finitely many calls goes on for ever.  It cannot get stuck on the way either: a call that
cannot move waits for the mutex of its payer, and the call inside that mutex can move
(`Reaches.inside_moves`).

* `calls_finish`: a run of `n` calls has at most `21 * n` steps, and where it stops every
  call has ended, with every mutex free.
-/
import PaymentSystem.Service.Progress
import PaymentSystem.Theory.Potential

namespace PaymentSystem.Service

open PaymentSystem.Patterns
open PaymentSystem.Adapters
open PaymentSystem.Theory.Potential
open PaymentSystem.Theory.Runs
open PaymentSystem.Theory.Threads

set_option autoImplicit false

variable {chain : ValidationChain}

/-! ## Steps that are left -/

/-- The steps a call has before it at most. -/
def Pc.remaining : Pc → Nat
  | .start => 21
  | .claim _ => 20
  | .build _ => 19
  | .mutexFor _ => 18
  | .lock _ => 17
  | .validate _ => 16
  | .load _ => 15
  | .authorize _ _ => 14
  | .debit _ => 13
  | .credit _ => 12
  | .drawDebitId _ => 11
  | .drawDebitSeq _ _ => 10
  | .drawCreditId _ _ _ => 9
  | .drawCreditSeq _ _ _ _ => 8
  | .post _ _ _ _ _ => 7
  | .undoCredit _ _ => 6
  | .undoDebit _ _ | .capture _ => 5
  | .save _ _ _ => 4
  | .publish _ _ _ => 3
  | .notify _ _ _ | .lookup => 2
  | .unlock _ _ | .replay _ => 1
  | .replied _ | .unbuilt _ _ | .finished _ _ => 0

/-- **Every step brings its call nearer to its end.** -/
theorem Fires.remaining {c : Call} {s s' : PaymentService} {pc pc' : Pc}
    (fired : Fires chain c s pc s' pc') : pc'.remaining + 1 ≤ pc.remaining := by
  cases fired <;> simp [Pc.remaining, Pc.failing, Pc.capturing]

def System.remaining (sys : System) : Nat := (sys.threads.map fun t => t.pc.remaining).sum

theorem remaining_step {sys sys' : System} {i : Nat}
    (stepped : System.step chain sys i = some sys') : sys'.remaining + 1 ≤ sys.remaining := by
  obtain ⟨c, pc, pc', at_, fired, threads⟩ := step_fires stepped
  have moved := sum_set at_ (fun t => t.pc.remaining) ⟨c, pc'⟩
  have nearer := fired.remaining
  rw [System.remaining, System.remaining, threads]
  simp only at moved
  omega

theorem finishing : Draining (System.step chain) (fun _ => True) System.remaining fun _ => 0 where
  keeps _ _ _ _ _ := trivial
  pays _ _ _ _ stepped := remaining_step stepped

theorem remaining_init (service : PaymentService) (calls : List Call) :
    (System.init service calls).remaining = 21 * calls.length := by
  induction calls with
  | nil => rfl
  | cons c rest ih =>
    simp only [System.remaining, System.init, List.map_cons, List.sum_cons, List.length_cons,
      Pc.remaining] at ih ⊢
    omega

section Run

variable {service : PaymentService} {calls : List Call} {sched : List Nat} {sys : System}

theorem Reaches.bounded (reached : Reaches chain service calls sched sys) :
    sched.length + sys.remaining ≤ 21 * calls.length := by
  have bound := finishing.run trivial reached
  rw [remaining_init] at bound
  simpa using bound

/-! ## No call is stuck for good -/

/-- A call that was given no step is where it began. -/
theorem Reaches.unscheduled (reached : Reaches chain service calls sched sys) {i : Nat} {t : Thread}
    (at_ : sys.threads[i]? = some t) (never : i ∉ sched) : t.pc = .start := by
  refine exec_induct_along
    (fun sys : System => ∀ t, sys.threads[i]? = some t → t.pc = .start) ?_ ?_ reached t at_
  · intro early j late u v split _ before stepped t there
    obtain ⟨c, pc, pc', -, -, threads⟩ := step_fires stepped
    rw [threads] at there
    rcases at_set there with ⟨rfl, -⟩ | ⟨-, there⟩
    · exact absurd (split ▸ List.mem_append_right early List.mem_cons_self) never
    · exact before t there
  · exact fun t there => (mem_init (List.mem_of_getElem? there)).2

/-- **Where a call cannot move, one inside a mutex can.** -/
theorem Reaches.inside_moves (reached : Reaches chain service calls sched sys)
    (unlocked : ∀ key, ¬ service.locks.Held key) {i : Nat} {t : Thread}
    (at_ : sys.threads[i]? = some t) (unended : t.pc.outcome = none)
    (stuck : System.step chain sys i = none) :
    ∃ j u, j ∈ sched ∧ sys.threads[j]? = some u ∧ u.pc.Inside ∧
      (System.step chain sys j).isSome := by
  obtain ⟨-, held⟩ := next_blocked unended ((step_none at_).1 stuck)
  obtain ⟨u, member, inside, -⟩ := ((reached.mutex unlocked).held _).1 held
  obtain ⟨j, there⟩ := List.mem_iff_getElem?.1 member
  refine ⟨j, u, ?_, there, inside, Option.isSome_iff_ne_none.2 fun blocked => ?_⟩
  · by_contra never
    rw [reached.unscheduled there never] at inside
    exact inside
  · rw [step_none there] at blocked
    exact Option.isSome_iff_ne_none.1 (next_of_inside inside) blocked

/-- **A system that has stopped is complete.** -/
theorem Reaches.complete_of_stopped (reached : Reaches chain service calls sched sys)
    (unlocked : ∀ key, ¬ service.locks.Held key)
    (stopped : ∀ i, System.step chain sys i = none) : sys.Complete := by
  intro t member unended
  obtain ⟨i, at_⟩ := List.mem_iff_getElem?.1 member
  obtain ⟨j, -, -, -, -, can⟩ := reached.inside_moves unlocked at_ unended (stopped i)
  rw [stopped j] at can
  cases can

theorem Reaches.released (reached : Reaches chain service calls sched sys)
    (unlocked : ∀ key, ¬ service.locks.Held key) (quiescent : sys.Quiescent) (key : String) :
    ¬ sys.service.locks.Held key := by
  intro held
  obtain ⟨t, member, inside, -⟩ := ((reached.mutex unlocked).held key).1 held
  rcases quiescent t member with ended | waiting
  · exact ended inside.unended
  · rw [waiting] at inside
    exact inside

/-- **Every call ends, in every interleaving.**  A run has at most 21 steps for each call;
where no call can move all have ended and no mutex is held; and every run can be continued
to there. -/
theorem calls_finish (unlocked : ∀ key, ¬ service.locks.Held key)
    (reached : Reaches chain service calls sched sys) :
    sched.length ≤ 21 * calls.length ∧
      ((∀ i, System.step chain sys i = none) →
        sys.Complete ∧ ∀ key, ¬ sys.service.locks.Held key) ∧
      ∃ later fin, Reaches chain service calls (sched ++ later) fin ∧ fin.Complete := by
  have bound := reached.bounded
  refine ⟨by omega, fun stopped => ?_, ?_⟩
  · have complete := reached.complete_of_stopped unlocked stopped
    exact ⟨complete, reached.released unlocked complete.quiescent⟩
  · have drains : Draining (System.step chain) (fun _ => True) System.remaining fun _ => 0 := finishing
    obtain ⟨later, fin, ran, -, rests⟩ := drains.rests (s := sys) trivial
    have whole : Reaches chain service calls (sched ++ later) fin := exec_append.2 ⟨sys, reached, ran⟩
    refine ⟨later, fin, whole, whole.complete_of_stopped unlocked fun i => ?_⟩
    cases stepped : System.step chain fin i with
    | none => rfl
    | some next => exact absurd rfl (rests i next stepped)

end Run

/-- Two payments of one payer, the second waiting for the first: the run can be completed. -/
theorem calls_finish_waiting : ∃ sys, Reaches mainChain (PaymentService.opening userAndMerchant)
    [upiCall "key-1" "u" "m" 30000, upiCall "key-2" "u" "m" 500] [0, 0, 0, 0, 0, 1, 1, 1, 1] sys ∧
    ∃ later fin, Reaches mainChain (PaymentService.opening userAndMerchant)
      [upiCall "key-1" "u" "m" 30000, upiCall "key-2" "u" "m" 500]
      ([0, 0, 0, 0, 0, 1, 1, 1, 1] ++ later) fin ∧ fin.Complete := by
  have ran : (exec (System.step mainChain) (System.init (PaymentService.opening userAndMerchant)
      [upiCall "key-1" "u" "m" 30000, upiCall "key-2" "u" "m" 500]) [0, 0, 0, 0, 0, 1, 1, 1, 1]).any
        (fun sys => (System.step mainChain sys 1).isNone) = true := by decide +kernel
  obtain ⟨sys, reached, -⟩ := exec_any ran
  exact ⟨sys, reached, (calls_finish (fun key held => by cases held) reached).2.2⟩

end PaymentSystem.Service
