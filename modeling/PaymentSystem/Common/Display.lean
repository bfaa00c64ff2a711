/-
# PaymentSystem.Common.Display -- what a displayed amount tells

`Money::toString` prints the whole part, with its sign, then two digits of the remainder
without one, then the currency code.  An amount of less than one whole unit has no sign
to show: a few minor units and as many owed read the same.

* `toString_eq_iff`: two amounts are displayed alike when they are equal or `Twins`.
-/
import PaymentSystem.Common.Values
import PaymentSystem.Theory.Decimal
import PaymentSystem.Theory.Lines

namespace PaymentSystem.Common.Money

open PaymentSystem.Theory
open PaymentSystem.Theory.Lines

set_option autoImplicit false

/-- Equal and opposite amounts of less than one whole unit. -/
structure Twins (m o : Money) : Prop where
  currency : m.currency = o.currency
  opposite : m.minorUnits.toInt = -o.minorUnits.toInt
  nonzero : m.minorUnits.toInt ≠ 0
  small : m.minorUnits.toInt.natAbs < 100

/-! ## The parts of a display -/

def whole (m : Money) : Int := m.minorUnits.toInt.tdiv 100

def cents (m : Money) : Nat := m.minorUnits.toInt.natAbs % 100

theorem cents_lt (m : Money) : m.cents < 100 := Nat.mod_lt _ (by decide)

/-- Two digits. -/
def padded (n : Nat) : List Char := (if n < 10 then ['0'] else []) ++ Nat.toDigits 10 n

theorem toList_toString (n : Int64) : (ToString.toString n).toList = Decimal.text n.toInt := by
  show (ToString.toString n.toInt).toList = Decimal.text n.toInt
  unfold Decimal.text
  cases n.toInt with
  | ofNat k => simp [ToString.toString, Int.repr, Nat.repr]
  | negSucc k => simp [ToString.toString, Int.repr, Nat.repr]

/-- The remainder without its sign. -/
theorem frac_eq (m : Money) :
    (if m.minorUnits % 100 < 0 then -(m.minorUnits % 100) else m.minorUnits % 100).toInt = m.cents := by
  have parts : (m.minorUnits % 100).toInt = m.minorUnits.toInt.tmod 100 := Int64.toInt_mod _ _
  have size : (m.minorUnits.toInt.tmod 100).natAbs = m.cents := Int.natAbs_tmod _ _
  have few := m.cents_lt
  split
  · rename_i negative
    rw [Int64.lt_iff_toInt_lt, parts, Int64.toInt_zero] at negative
    rw [Int64.toInt_neg, parts, Int.bmod_eq_of_le (by omega) (by omega)]
    omega
  · rename_i other
    rw [Int64.lt_iff_toInt_lt, parts, Int64.toInt_zero] at other
    rw [parts]
    omega

theorem toList_display (m : Money) : m.toString.toList =
    Decimal.text m.whole ++ '.' :: (padded m.cents ++ ' ' :: m.currency.toCode.toList) := by
  have whole_ : (m.minorUnits / 100).toInt = m.whole :=
    Int64.toInt_div_of_ne_right _ _ (by decide)
  have display (frac : Int64) (is : frac.toInt = m.cents) :
      ((if frac < 10 then ToString.toString (m.minorUnits / 100) ++ "." ++ "0"
        else ToString.toString (m.minorUnits / 100) ++ ".") ++
          (ToString.toString frac ++ " " ++ m.currency.toCode)).toList =
        Decimal.text m.whole ++ '.' :: (padded m.cents ++ ' ' :: m.currency.toCode.toList) := by
    have small : frac < 10 ↔ m.cents < 10 := by
      rw [Int64.lt_iff_toInt_lt, is]
      exact Int.ofNat_lt
    have digits : Decimal.text m.cents = Nat.toDigits 10 m.cents := by
      rw [Decimal.text, if_neg (by omega), Int.natAbs_natCast]
    unfold padded
    by_cases few : m.cents < 10
    · rw [if_pos (small.2 few), if_pos few]
      simp [toList_toString, whole_, is, digits]
    · rw [if_neg (mt small.1 few), if_neg few]
      simp [toList_toString, whole_, is, digits]
  exact display _ m.frac_eq

theorem padded_inj {n k : Nat} (same : padded n = padded k) : n = k := by
  have values := congrArg Decimal.value same
  have is (n : Nat) : Decimal.value (padded n) = n := by
    unfold padded
    split
    · exact Decimal.value_digits n
    · exact Decimal.value_digits n
  rwa [is, is] at values

theorem plain_padded (n : Nat) {c : Char} (plain : c.isDigit = false) : c ∉ padded n := by
  intro member
  rcases List.mem_append.1 member with zero | digit
  · split at zero
    · rw [List.mem_singleton.1 zero] at plain
      cases plain
    · cases zero
  · cases plain.symm.trans (Decimal.isDigit_of_mem_digits digit)

theorem toCode_inj {c d : Currency} (same : c.toCode = d.toCode) : c = d := by
  revert same
  cases c <;> cases d <;> decide

/-- The text gives its parts back. -/
theorem display_eq_iff {m o : Money} :
    m.toString = o.toString ↔ (m.whole = o.whole ∧ m.cents = o.cents) ∧ m.currency = o.currency := by
  rw [← String.toList_inj, toList_display, toList_display]
  constructor
  · intro same
    have dot (n : Int) : '.' ∉ Decimal.text n := Decimal.not_mem_text (by decide) (by decide)
    have blank (n : Nat) : ' ' ∉ padded n := plain_padded n (by decide)
    obtain ⟨whole_, rest⟩ := append_delim_inj (dot _) (dot _) same
    obtain ⟨cents_, code⟩ := append_delim_inj (blank _) (blank _) rest
    exact ⟨⟨Decimal.text_inj whole_, padded_inj cents_⟩, toCode_inj (String.toList_inj.1 code)⟩
  · rintro ⟨⟨whole_, cents_⟩, code⟩
    rw [whole_, cents_, code]

/-- The whole part has the sign of the amount, unless it is zero. -/
theorem whole_cases (m : Money) :
    m.minorUnits.toInt = 100 * m.whole + m.cents ∧ 0 ≤ m.whole ∨
      m.minorUnits.toInt = 100 * m.whole - m.cents ∧ m.whole ≤ 0 := by
  unfold whole cents
  by_cases negative : m.minorUnits.toInt < 0
  · right
    have sign : m.minorUnits.toInt.tdiv 100 = -((-m.minorUnits.toInt) / 100) := by
      rw [← Int.tdiv_eq_ediv_of_nonneg (by omega), Int.neg_tdiv, Int.neg_neg]
    omega
  · left
    rw [Int.tdiv_eq_ediv_of_nonneg (by omega)]
    omega

/-- Equal parts leave only the sign open, and that only where the whole part is zero. -/
theorem parts_eq_iff {m o : Money} : m.whole = o.whole ∧ m.cents = o.cents ↔
    m.minorUnits.toInt = o.minorUnits.toInt ∨
      m.minorUnits.toInt = -o.minorUnits.toInt ∧ m.minorUnits.toInt.natAbs < 100 := by
  constructor
  · rintro ⟨whole_, cents_⟩
    have few := m.cents_lt
    rcases m.whole_cases with ⟨is, sign⟩ | ⟨is, sign⟩ <;>
      rcases o.whole_cases with ⟨is', sign'⟩ | ⟨is', sign'⟩ <;> omega
  · rintro (same | ⟨opposite, small⟩)
    · rw [whole, whole, cents, cents, same]
      exact ⟨rfl, rfl⟩
    · have none_ {n : Int} (small : n.natAbs < 100) : n.tdiv 100 = 0 := by
        rw [← Int.natAbs_eq_zero, Int.natAbs_tdiv]
        exact Nat.div_eq_of_lt small
      rw [whole, whole, cents, cents, none_ small, none_ (by omega), opposite, Int.natAbs_neg]
      exact ⟨rfl, rfl⟩

/-- **Two amounts are displayed alike if they are equal, or opposite and less than one
whole unit.** -/
theorem toString_eq_iff {m o : Money} : m.toString = o.toString ↔ m = o ∨ Twins m o := by
  rw [display_eq_iff, parts_eq_iff]
  have equal : m = o ↔ m.minorUnits.toInt = o.minorUnits.toInt ∧ m.currency = o.currency := by
    rw [Int64.toInt_inj]
    cases m
    cases o
    exact Money.mk.injEq .. |>.to_iff
  rw [equal]
  constructor
  · rintro ⟨same | ⟨opposite, small⟩, currency⟩
    · exact .inl ⟨same, currency⟩
    · by_cases zero : m.minorUnits.toInt = 0
      · exact .inl ⟨by omega, currency⟩
      · exact .inr ⟨currency, opposite, zero, small⟩
  · rintro (⟨same, currency⟩ | twins)
    · exact ⟨.inl same, currency⟩
    · exact ⟨.inr ⟨twins.opposite, twins.small⟩, twins.currency⟩

/-- Twins differ. -/
theorem Twins.ne {m o : Money} (twins : Twins m o) : m ≠ o := by
  rintro rfl
  have opposite := twins.opposite
  have nonzero := twins.nonzero
  omega

/-- **What is displayed tells the amount, unless there is a twin.** -/
theorem identifies_iff {m o : Money} : (m.toString = o.toString → m = o) ↔ ¬ Twins m o := by
  rw [toString_eq_iff]
  exact ⟨fun tells twins => twins.ne (tells (.inr twins)), fun none_ alike => alike.resolve_right none_⟩

end PaymentSystem.Common.Money
