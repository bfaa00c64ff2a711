/-
# PaymentSystem.Theory.Transfers -- guarded transfers, atomic and in two halves

The sequential object: funds at keys, and operations that either answer at once or
move an amount between two keys if the source covers it (`Intent.apply`).

An implementation that takes the amount from the source first and hands it to the
target later has balances and money in transit.  `Escrowed` couples the two: the
funds at a key are its balance and what left it and has not landed.  Departing keeps
the coupling and landing is the whole transfer at once (`depart`, `land`), and the
guard it answers for is the one the source met when it departed, or did not meet
with nothing in transit (`covers`, `falls_short`).
-/
import Mathlib.Algebra.Order.Group.Defs
import Mathlib.Logic.Function.Basic
import Mathlib.Tactic.Abel

namespace PaymentSystem.Theory.Transfers

set_option autoImplicit false

/-- An operation on funds: an answer known beforehand, or a transfer guarded by the
source, whose amount may fail to land. -/
inductive Intent (κ V R : Type) where
  | answer (r : R)
  | transfer (source target : κ) (amount : V) (lands : Bool) (done short : R)

section Apply

variable {κ V R : Type} [DecidableEq κ] [Add V] [Sub V]

/-- The funds after a transfer. -/
def moved (funds : κ → V) (source target : κ) (amount : V) (lands : Bool) : κ → V :=
  let taken := Function.update funds source (funds source - amount)
  if lands then Function.update taken target (taken target + amount) else taken

/-- The answer to an operation, and the funds after it. -/
def Intent.apply [LE V] [DecidableLE V] (funds : κ → V) : Intent κ V R → R × (κ → V)
  | .answer r => (r, funds)
  | .transfer source target amount lands done short =>
    if amount ≤ funds source then (done, moved funds source target amount lands) else (short, funds)

end Apply

section Escrow

variable {κ V : Type} [DecidableEq κ] [AddCommGroup V]

/-- What leaves or reaches a key, at that key. -/
def atKey (key : κ) (amount : V) (k : κ) : V := if k = key then amount else 0

theorem moved_apply (funds : κ → V) (source target : κ) (amount : V) (lands : Bool) (k : κ) :
    moved funds source target amount lands k =
      funds k - atKey source amount k + if lands then atKey target amount k else 0 := by
  cases lands with
  | false =>
    by_cases here : k = source
    · subst here
      simp [moved, atKey]
    · simp [moved, atKey, here]
  | true =>
    by_cases there : k = target
    · subst there
      by_cases here : k = source
      · subst here
        simp [moved, atKey]
      · simp [moved, atKey, here]
    · by_cases here : k = source
      · subst here
        simp [moved, atKey, there]
      · simp [moved, atKey, there, here]

/-- The funds at a key are its balance and what is in transit from it. -/
def Escrowed (balance transit funds : κ → V) : Prop := ∀ k, funds k = balance k + transit k

theorem Escrowed.depart {balance transit funds balance' transit' : κ → V} (source : κ) (amount : V)
    (escrowed : Escrowed balance transit funds)
    (taken : ∀ k, balance' k = balance k - atKey source amount k)
    (left : ∀ k, transit' k = transit k + atKey source amount k) :
    Escrowed balance' transit' funds := by
  intro k
  rw [escrowed k, taken, left]
  abel

/-- **Landing is the transfer, all at once.** -/
theorem Escrowed.land {balance transit funds balance' transit' : κ → V} {source target : κ}
    {amount : V} {lands : Bool} (escrowed : Escrowed balance transit funds)
    (landed : ∀ k, balance' k = balance k + if lands then atKey target amount k else 0)
    (arrived : ∀ k, transit' k = transit k - atKey source amount k) :
    Escrowed balance' transit' (moved funds source target amount lands) := by
  intro k
  rw [moved_apply, escrowed k, landed, arrived]
  abel

end Escrow

section Guard

variable {κ V R : Type} [DecidableEq κ] [AddCommGroup V] [LinearOrder V] [IsOrderedAddMonoid V]
  {balance transit funds : κ → V} {source target : κ} {amount : V} {lands : Bool} {done short : R}

/-- A source that has sent an amount off, and whose balance is not negative, covers it. -/
theorem Escrowed.covers (escrowed : Escrowed balance transit funds) (nonneg : 0 ≤ balance source)
    (sent : amount ≤ transit source) :
    (Intent.transfer source target amount lands done short).apply funds =
      (done, moved funds source target amount lands) := by
  have covered : amount ≤ funds source := by
    rw [escrowed source]
    calc amount ≤ transit source := sent
      _ = 0 + transit source := (zero_add _).symm
      _ ≤ balance source + transit source := by gcongr
  rw [Intent.apply, if_pos covered]

omit [IsOrderedAddMonoid V] in
/-- A source with nothing in transit falls short when its balance does. -/
theorem Escrowed.falls_short (escrowed : Escrowed balance transit funds) (still : transit source = 0)
    (low : balance source < amount) :
    (Intent.transfer source target amount lands done short).apply funds = (short, funds) := by
  have uncovered : ¬ amount ≤ funds source := by
    rw [escrowed source, still, add_zero]
    exact not_le.2 low
  rw [Intent.apply, if_neg uncovered]

end Guard

end PaymentSystem.Theory.Transfers
