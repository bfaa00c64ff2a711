/-
# PaymentSystem.Theory.Laps -- totals of machine integers that may wrap

Balances kept as 64-bit integers in a store, under guarded subtractions, which are
exact, and unguarded additions, which may carry a balance past the top of the range
and short of a lap.  A balance below zero has wrapped, so the laps lost are bounded
from below by how far balances are below zero (`Lapped`); an amount that fits in 63
bits leaves no room for a lap, and the total is exact after all (`Lapped.exact`).
-/
import PaymentSystem.Theory.Keyed
import PaymentSystem.Theory.MachineInt

namespace PaymentSystem.Theory.Laps

open PaymentSystem.Theory.Keyed
open PaymentSystem.Theory.MachineInt

set_option autoImplicit false

variable {κ α : Type} [DecidableEq κ] {units : α → Int64} {m : Store κ α} {amount : Int} {k : κ}
  {v v' : α} {n : Int64}

/-- The balances of the store, all together. -/
def worth (units : α → Int64) (m : Store κ α) : Int := total (fun v => (units v).toInt) m

/-- How far balances are below zero, all together. -/
def short (units : α → Int64) (m : Store κ α) : Int := total (fun v => min (units v).toInt 0) m

/-- The balances amount to `amount`, but for laps lost to additions that wrapped. -/
def Lapped (units : α → Int64) (m : Store κ α) (amount : Int) : Prop :=
  ∃ laps : Int, 0 ≤ laps ∧ worth units m = amount - 2 ^ 64 * laps ∧ -2 ^ 63 * laps ≤ short units m

theorem Lapped.start (nonneg : ∀ k v, m.lookup k = some v → 0 ≤ (units v).toInt) :
    Lapped units m (worth units m) := by
  refine ⟨0, le_refl 0, by omega, ?_⟩
  refine total_nonneg fun k v found => ?_
  have low := nonneg k v found
  omega

/-- An addition moves the total, or loses a lap. -/
theorem Lapped.add (lapped : Lapped units m amount) (found : m.lookup k = some v)
    (added : units v' = units v + n) (nonneg : 0 ≤ n.toInt) :
    Lapped units (m.replace k v') (amount + n.toInt) := by
  obtain ⟨laps, positive, sum, low⟩ := lapped
  have moved : worth units (m.replace k v') =
      worth units m - (units v).toInt + (units v').toInt := total_replace _ found v'
  have lower : short units (m.replace k v') =
      short units m - min (units v).toInt 0 + min (units v').toInt 0 := total_replace _ found v'
  have bottom := (units v').le_toInt
  rw [added] at moved lower bottom
  rcases add_cases (units v) n nonneg with exact_ | wrapped
  · refine ⟨laps, positive, ?_, ?_⟩
    · rw [moved, exact_]
      omega
    · rw [lower, exact_]
      omega
  · refine ⟨laps + 1, by omega, ?_, ?_⟩
    · rw [moved, wrapped]
      omega
    · rw [lower]
      omega

/-- A subtraction of what is covered is exact. -/
theorem Lapped.sub (lapped : Lapped units m amount) (found : m.lookup k = some v)
    (taken : units v' = units v - n) (nonneg : 0 ≤ n.toInt) (covered : n.toInt ≤ (units v).toInt) :
    Lapped units (m.replace k v') (amount - n.toInt) := by
  obtain ⟨laps, positive, sum, low⟩ := lapped
  have moved : worth units (m.replace k v') =
      worth units m - (units v).toInt + (units v').toInt := total_replace _ found v'
  have lower : short units (m.replace k v') =
      short units m - min (units v).toInt 0 + min (units v').toInt 0 := total_replace _ found v'
  rw [taken, toInt_sub_of_le nonneg covered] at moved lower
  exact ⟨laps, positive, by omega, by omega⟩

omit [DecidableEq κ] in
/-- **An amount that fits in 63 bits is what the balances amount to, laps and all.** -/
theorem Lapped.exact (lapped : Lapped units m amount) (fits : amount < 2 ^ 63) :
    worth units m = amount := by
  obtain ⟨laps, positive, sum, low⟩ := lapped
  have above : short units m ≤ worth units m := total_le_total fun v => min_le_left _ _
  have none_ : laps = 0 := by omega
  rw [sum, none_]
  omega

end PaymentSystem.Theory.Laps
