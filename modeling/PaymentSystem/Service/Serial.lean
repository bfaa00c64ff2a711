/-
# PaymentSystem.Service.Serial -- calls made one after another

`payAll` makes each call when the one before has returned.  That is one of the
interleavings: `payAll_reaches` finds the schedule, so every state `payAll` leads to is a
state of a run in which every call has ended.
-/
import PaymentSystem.Service.Solo
import PaymentSystem.Service.Ways

namespace PaymentSystem.Service

open PaymentSystem.Common
open PaymentSystem.Domain
open PaymentSystem.Patterns
open PaymentSystem.Adapters
open PaymentSystem.Infra
open PaymentSystem.Theory.Runs

set_option autoImplicit false

variable {chain : ValidationChain} {c : Call}

/-- **Calls made one after another are a run.**  No lock is held in between. -/
theorem payAll_runs (chain : ValidationChain) {calls : List Call}
    (shipped : ∀ c ∈ calls, c.env.Shipped) (before : List Thread)
    {s : PaymentService} (unlocked : ∀ key, ¬ s.locks.Held key) :
    ∃ sched ended, exec (System.step chain) ⟨s, before ++ calls.map fun c => ⟨c, .start⟩⟩ sched =
        some ⟨(payAll chain s calls).2, before ++ ended⟩ ∧
      ended.map (fun t => t.pc.outcome) = (payAll chain s calls).1.map some := by
  induction calls generalizing s before with
  | nil => exact ⟨[], [], rfl, rfl⟩
  | cons c calls ih =>
    obtain ⟨first, later⟩ := List.forall_mem_cons.1 shipped
    obtain ⟨pc, outcome, steps⟩ := solo chain c s (unlocked _)
    -- the call runs at its place, between those that have ended and those to come
    have at_ : (before ++ ⟨c, .start⟩ :: calls.map fun c => (⟨c, .start⟩ : Thread))[before.length]? =
        some ⟨c, .start⟩ := by simp
    obtain ⟨n, ran⟩ := steps.exec at_
    rw [List.set_append_right _ _ (le_refl _), Nat.sub_self, List.set_cons_zero] at ran
    have free := fun key held => unlocked key ((pay_does chain c s first).locks key held)
    obtain ⟨sched', ended, ran', outcomes⟩ := ih later (before ++ [⟨c, pc⟩]) free
    rw [List.append_assoc, List.append_assoc] at ran'
    refine ⟨_ ++ sched', ⟨c, pc⟩ :: ended, exec_append.2 ⟨_, ran, ran'⟩, ?_⟩
    rw [List.map_cons, outcomes, outcome]
    rfl

theorem payAll_reaches (chain : ValidationChain) {calls : List Call}
    (shipped : ∀ c ∈ calls, c.env.Shipped) (accounts : InMemoryAccountRepository) : ∃ sched sys,
      Reaches chain (PaymentService.opening accounts) calls sched sys ∧ sys.Complete ∧
        sys.service = (payAll chain (PaymentService.opening accounts) calls).2 := by
  obtain ⟨sched, ended, ran, outcomes⟩ := payAll_runs chain shipped []
    (s := PaymentService.opening accounts) fun _ held => by cases held
  refine ⟨sched, _, ran, fun t member => ?_, rfl⟩
  have told : t.pc.outcome ∈ ended.map fun t => t.pc.outcome := List.mem_map_of_mem member
  rw [outcomes] at told
  obtain ⟨out, -, is⟩ := List.mem_map.1 told
  rw [← is]
  exact Option.some_ne_none out

/-! ## Replays -/

/-- **Any number of replays advance the id counter, and nothing else.** -/
theorem payAll_replays {s : PaymentService} {existingId : String}
    (taken : s.idempotency.lookup c.req.idempotencyKey = some existingId) (n : Nat) :
    (payAll chain s (List.replicate n c)).2 =
      { s with txnIds := ⟨s.txnIds.tag, s.txnIds.counter + UInt64.ofNat n⟩ } := by
  induction n generalizing s with
  | zero =>
    show s = _
    simp
  | succ n ih =>
    have counter : s.txnIds.counter + 1 + UInt64.ofNat n = s.txnIds.counter + UInt64.ofNat (n + 1) := by
      rw [UInt64.ofNat_add, UInt64.add_assoc, UInt64.add_comm 1]
      rfl
    rw [List.replicate_succ, payAll, pay_replay taken]
    show (payAll chain { s with txnIds := s.txnIds.next.2 } (List.replicate n c)).2 = _
    rw [ih (s := { s with txnIds := s.txnIds.next.2 }) taken, ← counter]
    rfl

end PaymentSystem.Service
