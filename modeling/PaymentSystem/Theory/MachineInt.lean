/-
# PaymentSystem.Theory.MachineInt -- when 64-bit arithmetic is exact

`Int64` addition, subtraction and multiplication against the same operation over
the integers.  An operation whose integer result is in range is exact
(`Arith.exact_of_range`); an addition of a nonnegative operand that is not exact
is short by exactly one lap and lands no lower than the bottom of the range
(`add_cases`), which is what bounds a balance that has wrapped.
-/
import Mathlib.Algebra.Order.Ring.Int

namespace PaymentSystem.Theory.MachineInt

set_option autoImplicit false

/-- One operation on machine integers, with its operands. -/
inductive Arith where
  | add (x y : Int64)
  | sub (x y : Int64)
  | mul (x y : Int64)
  deriving DecidableEq, Repr

namespace Arith

/-- What the machine computes. -/
def value : Arith → Int64
  | .add x y => x + y
  | .sub x y => x - y
  | .mul x y => x * y

/-- What the operation means over the integers. -/
def meaning : Arith → Int
  | .add x y => x.toInt + y.toInt
  | .sub x y => x.toInt - y.toInt
  | .mul x y => x.toInt * y.toInt

/-- The machine result is the integer result. -/
def Exact (op : Arith) : Prop := op.value.toInt = op.meaning

instance (op : Arith) : Decidable op.Exact := inferInstanceAs (Decidable (_ = _))

/-- **An operation whose integer result is in range is exact.** -/
theorem exact_of_range (op : Arith) (low : -2 ^ 63 ≤ op.meaning) (high : op.meaning < 2 ^ 63) :
    op.Exact := by
  cases op with
  | add x y =>
    show (x + y).toInt = x.toInt + y.toInt
    rw [Int64.toInt_add]
    exact Int.bmod_eq_of_le low high
  | sub x y =>
    show (x - y).toInt = x.toInt - y.toInt
    rw [Int64.toInt_sub]
    exact Int.bmod_eq_of_le low high
  | mul x y =>
    show (x * y).toInt = x.toInt * y.toInt
    rw [Int64.toInt_mul]
    exact Int.bmod_eq_of_le low high

end Arith

theorem toInt_add_of_range {x y : Int64} (low : -2 ^ 63 ≤ x.toInt + y.toInt)
    (high : x.toInt + y.toInt < 2 ^ 63) : (x + y).toInt = x.toInt + y.toInt :=
  (Arith.add x y).exact_of_range low high

/-- Taking away a nonnegative operand that is no larger never leaves the range. -/
theorem toInt_sub_of_le {x y : Int64} (nonneg : 0 ≤ y.toInt) (le : y.toInt ≤ x.toInt) :
    (x - y).toInt = x.toInt - y.toInt := by
  have top := x.toInt_lt
  exact (Arith.sub x y).exact_of_range (by simp only [Arith.meaning]; omega)
    (by simp only [Arith.meaning]; omega)

/-- Multiplying by minus one is exact but for the least value. -/
theorem toInt_mul_neg_one {x : Int64} (nonneg : 0 ≤ x.toInt) : (x * -1).toInt = -x.toInt := by
  have top := x.toInt_lt
  have minusOne : (-1 : Int64).toInt = -1 := rfl
  have exact_ : (x * -1).toInt = x.toInt * (-1 : Int64).toInt :=
    (Arith.mul x (-1)).exact_of_range (by simp only [Arith.meaning, minusOne]; omega)
      (by simp only [Arith.meaning, minusOne]; omega)
  rw [exact_, minusOne]
  omega

/-- **A machine addition is the integer one up to a single lap.** -/
theorem add_cases (x y : Int64) (nonneg : 0 ≤ y.toInt) :
    (x + y).toInt = x.toInt + y.toInt ∨ (x + y).toInt = x.toInt + y.toInt - 2 ^ 64 := by
  have hx := x.toInt_lt
  have hy := y.toInt_lt
  have lx := x.le_toInt
  by_cases fits : x.toInt + y.toInt < 2 ^ 63
  · exact Or.inl (toInt_add_of_range (by omega) fits)
  · right
    have wrapped : (x.toInt + y.toInt) % ((2 ^ 64 : Nat) : Int) = x.toInt + y.toInt :=
      Int.emod_eq_of_lt (by omega) (by omega)
    rw [Int64.toInt_add, Int.bmod_def, wrapped, if_neg (by omega)]
    rfl

/-- Four steps of a counter are distinct. -/
theorem nodup_succs (n : Int64) : [n, n + 1, n + 1 + 1, n + 1 + 1 + 1].Nodup := by
  simp only [List.nodup_cons, List.mem_cons, List.not_mem_nil, or_false]
  grind

/-- Reducing an integer to 64 bits gives zero exactly on the multiples of `2 ^ 64`. -/
theorem ofInt_eq_zero_iff (n : Int) : Int64.ofInt n = 0 ↔ (2 ^ 64 : Int) ∣ n := by
  rw [← Int64.toInt_inj, Int64.toInt_ofInt]
  exact (Int.dvd_iff_bmod_eq_zero (a := 2 ^ 64) (b := n)).symm

end PaymentSystem.Theory.MachineInt
