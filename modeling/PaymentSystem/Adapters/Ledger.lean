/-
# PaymentSystem.Adapters.Ledger -- does an accepted batch balance?

`InMemoryLedgerRepository::post` on arbitrary batches.  The net it computes is the exact
sum of the signed amounts reduced to 64 bits (`net_uniform`), so a batch is accepted
exactly when it is not empty, in one currency, and its exact sum is a multiple of
`2 ^ 64` (`post_accepts_iff`): zero, or some laps of the machine integer.

`journal_balances_iff`: over any sequence of posts, the journal balances in every
currency all along unless a batch of laps is posted.
-/
import PaymentSystem.Adapters.InMemory

namespace PaymentSystem.Adapters.InMemoryLedgerRepository

open PaymentSystem.Common
open PaymentSystem.Domain
open PaymentSystem.Theory.MachineInt

set_option autoImplicit false

/-! ## Exact sums -/

/-- The signed amount of an entry, over the integers. -/
def exactAmount (e : LedgerEntry) : Int :=
  match e.direction with
  | .credit => e.amount.minorUnits.toInt
  | .debit => -e.amount.minorUnits.toInt

def exactSum (entries : List LedgerEntry) : Int := (entries.map exactAmount).sum

/-- The exact sum of the entries in one currency. -/
def exactSumIn (ccy : Currency) (journal : Journal) : Int :=
  exactSum (journal.filter fun e => e.amount.currency = ccy)

theorem exactSum_append (xs ys : List LedgerEntry) : exactSum (xs ++ ys) = exactSum xs + exactSum ys := by
  simp [exactSum]

theorem exactSumIn_append (ccy : Currency) (xs ys : Journal) :
    exactSumIn ccy (xs ++ ys) = exactSumIn ccy xs + exactSumIn ccy ys := by
  rw [exactSumIn, List.filter_append, exactSum_append]
  rfl

/-- All entries are in one currency. -/
def Uniform (ccy : Currency) (batch : List LedgerEntry) : Prop :=
  ∀ e ∈ batch, e.amount.currency = ccy

theorem Uniform.exactSumIn {ccy : Currency} {batch : List LedgerEntry} (uniform : Uniform ccy batch)
    (ccy' : Currency) : exactSumIn ccy' batch = if ccy = ccy' then exactSum batch else 0 := by
  unfold InMemoryLedgerRepository.exactSumIn
  split
  · rename_i same
    subst same
    rw [List.filter_eq_self.2 fun e member => decide_eq_true (uniform e member)]
  · rename_i other
    have none_ : (batch.filter fun e => e.amount.currency = ccy') = [] := by
      refine List.filter_eq_nil_iff.2 fun e member is => other ?_
      rw [← uniform e member]
      exact of_decide_eq_true is
    rw [none_]
    rfl

/-! ## What `post` accepts -/

/-- `signedAmount` is the exact amount, reduced to 64 bits. -/
theorem signedAmount_eq (e : LedgerEntry) :
    e.signedAmount.minorUnits = Int64.ofInt (exactAmount e) := by
  unfold LedgerEntry.signedAmount exactAmount
  cases e.direction with
  | credit => exact (Int64.ofInt_toInt _).symm
  | debit =>
    show e.amount.minorUnits * -1 = Int64.ofInt (-e.amount.minorUnits.toInt)
    rw [Int64.ofInt_neg, Int64.ofInt_toInt, Int64.mul_neg, Int64.mul_one]

/-- **The net is the exact sum, reduced to 64 bits.** -/
theorem net_uniform {ccy : Currency} {batch : List LedgerEntry} (uniform : Uniform ccy batch)
    (acc : Int) : net ccy (Int64.ofInt acc) batch = some (Int64.ofInt (acc + exactSum batch)) := by
  induction batch generalizing acc with
  | nil => simp [net, exactSum]
  | cons e batch ih =>
    have same : e.amount.currency = ccy := uniform e List.mem_cons_self
    rw [net, if_neg (not_not.2 same), signedAmount_eq, ← Int64.ofInt_add,
      ih fun e member => uniform e (List.mem_cons_of_mem _ member)]
    simp only [exactSum, List.map_cons, List.sum_cons, Int.add_assoc]

theorem net_mixed {ccy : Currency} {batch : List LedgerEntry} (mixed : ¬ Uniform ccy batch)
    (acc : Int64) : net ccy acc batch = none := by
  induction batch generalizing acc with
  | nil => exact absurd (fun e member => absurd member List.not_mem_nil) mixed
  | cons e batch ih =>
    rw [net]
    split
    · rfl
    · rename_i same
      refine ih (fun uniform => mixed fun e' member => ?_) _
      rcases List.mem_cons.1 member with rfl | later
      · exact not_not.1 same
      · exact uniform e' later

/-- **What `post` accepts.** -/
theorem post_accepts_iff (journal : Journal) (batch : List LedgerEntry) :
    (post journal batch).1.isErr = false ↔
      batch ≠ [] ∧ (∃ ccy, Uniform ccy batch) ∧ (2 ^ 64 : Int) ∣ exactSum batch := by
  cases batch with
  | nil => exact iff_of_false Bool.noConfusion fun accepted => accepted.1 rfl
  | cons front rest =>
    by_cases uniform : Uniform front.amount.currency (front :: rest)
    · have total : net front.amount.currency 0 (front :: rest) =
          some (Int64.ofInt (exactSum (front :: rest))) := by
        have from_ := net_uniform uniform 0
        rwa [Int.zero_add] at from_
      rw [← ofInt_eq_zero_iff, post, total]
      by_cases zero : Int64.ofInt (exactSum (front :: rest)) = 0
      · simp only [zero, ne_eq, not_true_eq_false, if_false]
        exact iff_of_true rfl ⟨List.cons_ne_nil _ _, ⟨_, uniform⟩, trivial⟩
      · simp only [ne_eq, zero, not_false_eq_true, if_true]
        exact iff_of_false Bool.noConfusion fun accepted => accepted.2.2
    · rw [post, net_mixed uniform]
      refine iff_of_false Bool.noConfusion ?_
      rintro ⟨-, ⟨ccy, other⟩, -⟩
      refine uniform fun e member => ?_
      rw [other e member, other front List.mem_cons_self]

/-! ## Sequences of posts -/

/-- The journal after posting batches, one after another, accepted or not. -/
def journalAfter (batches : List (List LedgerEntry)) : Journal :=
  batches.foldl (fun journal batch => (post journal batch).2) []

theorem journalAfter_snoc (batches : List (List LedgerEntry)) (batch : List LedgerEntry) :
    journalAfter (batches ++ [batch]) = (post (journalAfter batches) batch).2 := List.foldl_concat ..

/-- What one call of `post` does to the journal. -/
structure Posts (journal : Journal) (batch : List LedgerEntry) : Prop where
  rejected : (post journal batch).1.isErr = true → (post journal batch).2 = journal
  accepted : (post journal batch).1.isErr = false → (post journal batch).2 = journal ++ batch
  single : (post journal batch).1.isErr = false → ∃ ccy, Uniform ccy batch

theorem posts (journal : Journal) (batch : List LedgerEntry) : Posts journal batch where
  rejected := inMemoryLedgerRepository.post_err journal batch
  accepted := inMemoryLedgerRepository.post_ok journal batch
  single accepted := ((post_accepts_iff journal batch).1 accepted).2.1

/-- Every call does what it should, and after every call the exact sum of the journal is
zero in each currency. -/
structure BalancesExactly (batches : List (List LedgerEntry)) : Prop where
  calls : ∀ early batch late, batches = early ++ batch :: late → Posts (journalAfter early) batch
  sums : ∀ early late, batches = early ++ late → ∀ ccy, exactSumIn ccy (journalAfter early) = 0

/-- A batch in one currency whose signed amounts add up to a number of whole laps of the
64-bit integer, not zero. -/
structure Laps (batch : List LedgerEntry) : Prop where
  uniform : ∃ ccy, Uniform ccy batch
  nonzero : exactSum batch ≠ 0
  whole : (2 ^ 64 : Int) ∣ exactSum batch

theorem Laps.ne_nil {batch : List LedgerEntry} (laps : Laps batch) : batch ≠ [] := by
  rintro rfl
  exact laps.nonzero rfl

/-- A call that is not of laps leaves every exact sum as it was. -/
theorem exactSumIn_post {journal : Journal} {batch : List LedgerEntry} (not : ¬ Laps batch)
    (ccy : Currency) : exactSumIn ccy (post journal batch).2 = exactSumIn ccy journal := by
  have does := posts journal batch
  cases verdict : (post journal batch).1.isErr with
  | true => rw [does.rejected verdict]
  | false =>
    obtain ⟨-, ⟨ccy', uniform⟩, whole⟩ := (post_accepts_iff journal batch).1 verdict
    have zero : exactSum batch = 0 := by
      by_contra nonzero
      exact not ⟨⟨ccy', uniform⟩, nonzero, whole⟩
    rw [does.accepted verdict, exactSumIn_append, uniform.exactSumIn, zero, ite_self, Int.add_zero]

/-- **The journal balances exactly, unless a batch of laps is posted.** -/
theorem journal_balances_iff (batches : List (List LedgerEntry)) :
    BalancesExactly batches ↔ ∀ batch ∈ batches, ¬ Laps batch := by
  constructor
  · intro balances batch member laps
    obtain ⟨early, late, split⟩ := List.append_of_mem member
    obtain ⟨ccy, uniform⟩ := laps.uniform
    have accepted := (post_accepts_iff (journalAfter early) batch).2
      ⟨laps.ne_nil, laps.uniform, laps.whole⟩
    have before := balances.sums early (batch :: late) split ccy
    have after := balances.sums (early ++ [batch]) late (by rw [split, List.append_assoc]; rfl) ccy
    rw [journalAfter_snoc, (posts _ _).accepted accepted, exactSumIn_append, before,
      uniform.exactSumIn, if_pos rfl, Int.zero_add] at after
    exact laps.nonzero after
  · intro none_
    refine ⟨fun early batch _ _ => posts (journalAfter early) batch, fun early => ?_⟩
    induction early using List.reverseRecOn with
    | nil => exact fun _ _ _ => rfl
    | append_singleton early batch ih =>
      intro late split ccy
      rw [journalAfter_snoc, exactSumIn_post (none_ batch (by simp [split]))]
      exact ih (batch :: late) (by rw [split, List.append_assoc]; rfl) ccy

/-- A credit of a quarter lap. -/
def quarterLap (entryId : String) (seq : Int64) : LedgerEntry :=
  ⟨entryId, "txn_1", "m", .credit, ⟨4611686018427387904, .inr⟩, seq⟩

/-- Four credits of a quarter lap, and no debit, are accepted as balanced. -/
theorem journal_unbalanced : ¬ BalancesExactly
    [[quarterLap "le_1" 1, quarterLap "le_2" 2, quarterLap "le_3" 3, quarterLap "le_4" 4]] := by
  intro balances
  have zero := balances.sums
    [[quarterLap "le_1" 1, quarterLap "le_2" 2, quarterLap "le_3" 3, quarterLap "le_4" 4]] [] rfl .inr
  revert zero
  decide

end PaymentSystem.Adapters.InMemoryLedgerRepository
