/-
# PaymentSystem.Theory.Potential -- runs that must come to rest

A potential is a natural number read off the state of a machine.  Each step uses up at
least one unit of it, except that the label of a step may bring some in: a call that
arrives from outside, or a wake-up nobody asked for.

* `Draining.run`: a run is no longer than what it started with and what its labels
  brought in.
* `Draining.rests`: from every state the steps that bring nothing in lead, in some order,
  to a state where none of them is possible.
* `sum_set`, `sum_map_le`: how a potential summed over agents changes with one of them,
  and with many a little.
-/
import PaymentSystem.Theory.Runs
import Mathlib.Algebra.BigOperators.Group.List.Basic
import Mathlib.Algebra.Order.BigOperators.Group.List
import Mathlib.Algebra.Order.Ring.Int

namespace PaymentSystem.Theory.Potential

open PaymentSystem.Theory.Runs

set_option autoImplicit false

section Machine

variable {σ ι : Type}

/-- Every step uses up potential, but for what its label brings in. -/
structure Draining (step : σ → ι → Option σ) (inv : σ → Prop) (potential : σ → Nat)
    (credit : ι → Nat) : Prop where
  keeps : ∀ s i t, inv s → step s i = some t → inv t
  pays : ∀ s i t, inv s → step s i = some t → potential t + 1 ≤ potential s + credit i

variable {step : σ → ι → Option σ} {inv : σ → Prop} {potential : σ → Nat} {credit : ι → Nat}

theorem Draining.invariant (draining : Draining step inv potential credit) {s t : σ} {sched : List ι}
    (start : inv s) (ran : exec step s sched = some t) : inv t :=
  exec_induct inv draining.keeps start ran

/-- **A run is no longer than what it could pay for.** -/
theorem Draining.run (draining : Draining step inv potential credit) {s t : σ} {sched : List ι}
    (start : inv s) (ran : exec step s sched = some t) :
    sched.length + potential t ≤ potential s + (sched.map credit).sum := by
  induction sched generalizing s with
  | nil =>
    cases ran
    simp
  | cons i rest ih =>
    obtain ⟨u, stepped, ran⟩ := exec_cons.1 ran
    have paid := draining.pays s i u start stepped
    have later := ih (draining.keeps s i u start stepped) ran
    rw [List.length_cons, List.map_cons, List.sum_cons]
    omega

/-- No step that brings nothing in is possible. -/
def Rests (step : σ → ι → Option σ) (credit : ι → Nat) (s : σ) : Prop :=
  ∀ i t, step s i = some t → credit i ≠ 0

/-- **Every state leads to one at rest**, by steps that bring nothing in. -/
theorem Draining.rests (draining : Draining step inv potential credit) {s : σ} (start : inv s) :
    ∃ sched t, exec step s sched = some t ∧ (∀ i ∈ sched, credit i = 0) ∧ Rests step credit t := by
  induction h : potential s using Nat.strong_induction_on generalizing s with
  | _ n ih =>
    by_cases rests : Rests step credit s
    · exact ⟨[], s, rfl, by simp, rests⟩
    · unfold Rests at rests
      push Not at rests
      obtain ⟨i, u, stepped, free⟩ := rests
      have paid := draining.pays s i u start stepped
      obtain ⟨sched, t, ran, work, rest⟩ := ih (potential u) (by omega)
        (draining.keeps s i u start stepped) rfl
      exact ⟨i :: sched, t, exec_cons.2 ⟨u, stepped, ran⟩, by simpa [free] using work, rest⟩

end Machine

/-! ## Potentials summed over agents -/

section Sums

variable {T : Type}

theorem sum_set {l : List T} {i : Nat} {t : T} (at_ : l[i]? = some t) (f : T → Nat) (b : T) :
    ((l.set i b).map f).sum + f t = (l.map f).sum + f b := by
  induction l generalizing i with
  | nil => cases at_
  | cons a l ih =>
    cases i with
    | zero =>
      cases at_
      simp only [List.set_cons_zero, List.map_cons, List.sum_cons]
      omega
    | succ i =>
      have later := ih (i := i) at_
      simp only [List.set_cons_succ, List.map_cons, List.sum_cons]
      omega

/-- Agents that each change by one at most, change by their number at most. -/
theorem sum_map_le {l : List T} {f g : T → Nat} (each : ∀ t ∈ l, g t ≤ f t + 1) :
    (l.map g).sum ≤ (l.map f).sum + l.length := by
  induction l with
  | nil => simp
  | cons a l ih =>
    have first := each a List.mem_cons_self
    have later := ih fun t member => each t (List.mem_cons_of_mem a member)
    simp only [List.map_cons, List.sum_cons, List.length_cons]
    omega

end Sums

end PaymentSystem.Theory.Potential
