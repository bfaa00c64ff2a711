/-
# PaymentSystem.Theory.Spending -- many transfers out of one source

Guarded transfers that all leave one source and never come back, carried out one at a
time in any order.  Which of them are covered depends on the order; what follows is the
same in every order (`Outgoing.drawn`): the source is left with what the covered ones did
not take, the targets have exactly what was sent to them, and an amount that was not
covered exceeds what is left.

`count_covered`: equal amounts are covered as often as the funds hold them.
-/
import PaymentSystem.Theory.Runs
import PaymentSystem.Theory.Transfers
import Mathlib.Algebra.Order.BigOperators.Group.List
import Mathlib.Algebra.Order.Ring.Int

namespace PaymentSystem.Theory.Spending

open PaymentSystem.Theory.Runs
open PaymentSystem.Theory.Transfers

set_option autoImplicit false

section Drawn

variable {ι κ V R : Type} [DecidableEq ι] [DecidableEq κ] [DecidableEq R] [AddCommGroup V]
  [LinearOrder V]

/-- The operations of `order` are transfers out of `source`, of nonnegative amounts. -/
structure Outgoing (perform : ι → (κ → V) → R × (κ → V)) (source : κ) (target : ι → κ)
    (amount : ι → V) (done short : ι → R) (order : List ι) : Prop where
  transfers : ∀ i ∈ order, ∀ funds, perform i funds =
    (Intent.transfer source (target i) (amount i) true (done i) (short i)).apply funds
  apart : ∀ i ∈ order, target i ≠ source
  nonneg : ∀ i ∈ order, 0 ≤ amount i
  told : ∀ i ∈ order, short i ≠ done i

/-- What operation `i` moved. -/
def gain (perform : ι → (κ → V) → R × (κ → V)) (amount : ι → V) (done : ι → R) (funds : κ → V)
    (order : List ι) (i : ι) : V :=
  if answer perform funds order i = some (done i) then amount i else 0

/-- What is true after all operations, in whatever order they came. -/
structure Drawn (perform : ι → (κ → V) → R × (κ → V)) (source : κ) (target : ι → κ)
    (amount : ι → V) (done short : ι → R) (funds : κ → V) (order : List ι) : Prop where
  left : after perform funds order source =
    funds source - (order.map (gain perform amount done funds order)).sum
  covered : 0 ≤ funds source → 0 ≤ after perform funds order source
  reached : ∀ k, k ≠ source → after perform funds order k = funds k +
    (order.map fun i => if target i = k then gain perform amount done funds order i else 0).sum
  refused : ∀ i ∈ order, answer perform funds order i ≠ some (done i) →
    answer perform funds order i = some (short i) ∧ after perform funds order source < amount i

variable {perform : ι → (κ → V) → R × (κ → V)} {source : κ} {target : ι → κ} {amount : ι → V}
  {done short : ι → R} {funds : κ → V} {i : ι} {rest : List ι}

omit [DecidableEq κ] [LinearOrder V] in
theorem gain_head : gain perform amount done funds (i :: rest) i =
    if (perform i funds).1 = done i then amount i else 0 := by
  simp only [gain, answer, if_true, Option.some.injEq]

omit [DecidableEq κ] [DecidableEq R] [AddCommGroup V] [LinearOrder V] in
theorem answer_tail (fresh : i ∉ rest) : ∀ j ∈ rest,
    answer perform funds (i :: rest) j = answer perform (perform i funds).2 rest j := by
  intro j member
  rw [answer, if_neg]
  rintro rfl
  exact fresh member

omit [DecidableEq κ] [LinearOrder V] in
theorem gain_tail (fresh : i ∉ rest) : ∀ j ∈ rest, gain perform amount done funds (i :: rest) j =
    gain perform amount done (perform i funds).2 rest j := by
  intro j member
  rw [gain, gain, answer_tail fresh j member]

omit [DecidableEq ι] [DecidableEq R] in
theorem Outgoing.tail (outgoing : Outgoing perform source target amount done short (i :: rest)) :
    Outgoing perform source target amount done short rest where
  transfers j member := outgoing.transfers j (List.mem_cons_of_mem _ member)
  apart j member := outgoing.apart j (List.mem_cons_of_mem _ member)
  nonneg j member := outgoing.nonneg j (List.mem_cons_of_mem _ member)
  told j member := outgoing.told j (List.mem_cons_of_mem _ member)

omit [DecidableEq ι] [DecidableEq R] in
/-- What the first operation does: it moves its amount if that is covered, and answers
accordingly. -/
theorem Outgoing.head (outgoing : Outgoing perform source target amount done short (i :: rest))
    (funds : κ → V) :
    (amount i ≤ funds source ∧ (perform i funds).1 = done i ∧
        (perform i funds).2 source = funds source - amount i ∧
        ∀ k, k ≠ source → (perform i funds).2 k = funds k + if target i = k then amount i else 0) ∨
      (funds source < amount i ∧ (perform i funds).1 = short i ∧ (perform i funds).2 = funds) := by
  have member : i ∈ i :: rest := List.mem_cons_self
  rw [outgoing.transfers i member]
  by_cases enough : amount i ≤ funds source
  · refine .inl ⟨enough, ?_⟩
    rw [Intent.apply, if_pos enough]
    refine ⟨rfl, ?_, fun k other => ?_⟩
    · simp [moved_apply, atKey, Ne.symm (outgoing.apart i member)]
    · simp [moved_apply, atKey, other, eq_comm]
  · refine .inr ⟨not_le.1 enough, ?_⟩
    rw [Intent.apply, if_neg enough]
    exact ⟨rfl, rfl⟩

variable [IsOrderedAddMonoid V]

/-- **In whatever order the transfers come**, the source keeps what the covered ones left,
the targets have what was sent to them, and what was refused exceeds what is left. -/
theorem Outgoing.drawn {order : List ι}
    (outgoing : Outgoing perform source target amount done short order) (nodup : order.Nodup)
    (funds : κ → V) : Drawn perform source target amount done short funds order := by
  induction order generalizing funds with
  | nil => exact ⟨by simp [after], id, fun k _ => by simp [after], nofun⟩
  | cons i rest ih =>
    obtain ⟨fresh, nodup⟩ := List.nodup_cons.1 nodup
    have later := ih outgoing.tail nodup (perform i funds).2
    have gains : ∀ j ∈ rest, gain perform amount done funds (i :: rest) j =
        gain perform amount done (perform i funds).2 rest j := gain_tail fresh
    have sum (g : ι → V → V) :
        (rest.map fun j => g j (gain perform amount done funds (i :: rest) j)).sum =
          (rest.map fun j => g j (gain perform amount done (perform i funds).2 rest j)).sum :=
      congrArg List.sum (List.map_congr_left fun j member => by rw [gains j member])
    -- the first operation moves what it gained
    have first : (perform i funds).2 source =
          funds source - gain perform amount done funds (i :: rest) i ∧
        ∀ k, k ≠ source → (perform i funds).2 k =
          funds k + if target i = k then gain perform amount done funds (i :: rest) i else 0 := by
      rw [gain_head]
      rcases outgoing.head funds with ⟨-, answered, left, landed⟩ | ⟨-, answered, same⟩
      · rw [answered, if_pos rfl]
        exact ⟨left, landed⟩
      · rw [answered, if_neg (outgoing.told i List.mem_cons_self), same]
        simp
    -- and the amounts to come only lower the source
    have lower : after perform (perform i funds).2 rest source ≤ (perform i funds).2 source := by
      rw [later.left, sub_le_self_iff]
      refine List.sum_nonneg fun x there => ?_
      obtain ⟨j, member, rfl⟩ := List.mem_map.1 there
      unfold gain
      split
      · exact outgoing.tail.nonneg j member
      · exact le_refl 0
    have ends (k : κ) : after perform funds (i :: rest) k = after perform (perform i funds).2 rest k :=
      rfl
    constructor
    · rw [ends, later.left, first.1, List.map_cons, List.sum_cons, sum fun _ v => v]
      abel
    · intro nonneg
      rw [ends]
      apply later.covered
      rcases outgoing.head funds with ⟨enough, -, left, -⟩ | ⟨-, -, same⟩
      · rw [left]
        exact sub_nonneg.2 enough
      · rw [same]
        exact nonneg
    · intro k other
      rw [ends, later.reached k other, first.2 k other, List.map_cons, List.sum_cons,
        sum fun j v => if target j = k then v else 0]
      abel
    · intro j member unpaid
      rw [ends]
      rcases List.mem_cons.1 member with rfl | there
      · have answers : answer perform funds (j :: rest) j = some (perform j funds).1 := by
          rw [answer, if_pos rfl]
        rw [answers] at unpaid ⊢
        rcases outgoing.head funds with ⟨-, answered, -⟩ | ⟨short_, answered, same⟩
        · exact absurd (congrArg some answered) unpaid
        · rw [same] at lower ⊢
          exact ⟨congrArg some answered, lt_of_le_of_lt lower short_⟩
      · rw [answer_tail fresh j there] at unpaid ⊢
        exact later.refused j there unpaid

end Drawn

/-! ## Equal amounts -/

/-- **Equal amounts are covered as often as the funds hold them**: if `k` of `n` were, the
rest was not for want of funds. -/
theorem count_covered {n k : Nat} {funds amount : Int} (positive : 0 < amount) (within : k ≤ n)
    (covered : 0 ≤ funds - k * amount) (short : k < n → funds - k * amount < amount) :
    (k : Int) = min (n : Int) (funds / amount) := by
  have bound : (k : Int) ≤ funds / amount := (Int.le_ediv_iff_mul_le positive).2 (by omega)
  rcases Nat.lt_or_eq_of_le within with fewer | rfl
  · have top : funds / amount < k + 1 := by
      rw [Int.ediv_lt_iff_lt_mul positive, add_mul, one_mul]
      have := short fewer
      omega
    omega
  · omega

end PaymentSystem.Theory.Spending
