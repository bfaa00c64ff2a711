/-
# PaymentSystem.Theory.Decimal -- signed decimals, printed and read

`text n` is an integer as a stream prints it in the classic locale.  `read` is how the
C library reads a number off the front of a string: white space, a sign, then the
longest run of digits; whatever follows is ignored, and no digit is no number.

* `read_text`: what was printed is read back.
* `read_take`: a torn number, a proper prefix of a printed one, reads as no number at
  all or as a different one, of which it is the text.
-/
import Mathlib.Algebra.Order.Ring.Int
import Mathlib.Data.List.TakeWhile

namespace PaymentSystem.Theory.Decimal

set_option autoImplicit false

/-! ## Digits -/

/-- The value of a run of digits. -/
abbrev value (digits : List Char) : Nat := Nat.ofDigitChars 10 digits 0

theorem value_digits (n : Nat) : value (Nat.toDigits 10 n) = n := Nat.ofDigitChars_ten_toDigits

theorem digits_inj {n m : Nat} (same : Nat.toDigits 10 n = Nat.toDigits 10 m) : n = m := by
  rw [← value_digits n, same, value_digits]

/-- The last digit comes off the end. -/
theorem digits_eq (n : Nat) : Nat.toDigits 10 n =
    (if n < 10 then [] else Nat.toDigits 10 (n / 10)) ++ [Nat.digitChar (n % 10)] := by
  rw [Nat.toDigits_eq_if (by decide)]
  split
  · rw [Nat.mod_eq_of_lt (by omega)]
    rfl
  · rfl

/-- **A prefix of a number is a number**: its digits are the digits of its value. -/
theorem take_digits (n : Nat) {k : Nat} (positive : 0 < k) :
    (Nat.toDigits 10 n).take k = Nat.toDigits 10 (value ((Nat.toDigits 10 n).take k)) := by
  induction n using Nat.strongRecOn with
  | _ n ih =>
    by_cases whole : (Nat.toDigits 10 n).length ≤ k
    · rw [List.take_of_length_le whole, value_digits]
    · -- the last digit is not part of the prefix
      have split := digits_eq n
      by_cases small : n < 10
      · rw [if_pos small] at split
        rw [split] at whole
        simp only [List.nil_append, List.length_singleton] at whole
        omega
      · rw [if_neg small] at split
        have short : k ≤ (Nat.toDigits 10 (n / 10)).length := by
          rw [split, List.length_append, List.length_singleton] at whole
          omega
        rw [split, List.take_append_of_le_length short]
        exact ih (n / 10) (by omega)

theorem value_take_le (digits : List Char) (k : Nat) : value (digits.take k) ≤ value digits := by
  have split : value digits = Nat.ofDigitChars 10 (digits.drop k) (value (digits.take k)) := by
    rw [value, ← Nat.ofDigitChars_append, List.take_append_drop]
  rw [split, Nat.ofDigitChars_eq_ofDigitChars_zero]
  calc value (digits.take k)
      = 1 * value (digits.take k) := (Nat.one_mul _).symm
    _ ≤ 10 ^ (digits.drop k).length * value (digits.take k) :=
      Nat.mul_le_mul_right _ (Nat.one_le_pow _ _ (by decide))
    _ ≤ 10 ^ (digits.drop k).length * value (digits.take k) + value (digits.drop k) :=
      Nat.le_add_right _ _

/-- Only zero starts with a zero. -/
theorem take_digits_pos {n k : Nat} (nonzero : 0 < n) (positive : 0 < k) :
    0 < value ((Nat.toDigits 10 n).take k) := by
  induction n using Nat.strongRecOn with
  | _ n ih =>
    by_cases whole : (Nat.toDigits 10 n).length ≤ k
    · rw [List.take_of_length_le whole, value_digits]
      exact nonzero
    · have split := digits_eq n
      by_cases small : n < 10
      · rw [if_pos small] at split
        rw [split] at whole
        simp only [List.nil_append, List.length_singleton] at whole
        omega
      · rw [if_neg small] at split
        have short : k ≤ (Nat.toDigits 10 (n / 10)).length := by
          rw [split, List.length_append, List.length_singleton] at whole
          omega
        rw [split, List.take_append_of_le_length short]
        exact ih (n / 10) (by omega) (by omega)

/-! ## Printing -/

/-- The decimal text of an integer. -/
def text (n : Int) : List Char :=
  if n < 0 then '-' :: Nat.toDigits 10 n.natAbs else Nat.toDigits 10 n.natAbs

theorem isDigit_of_mem_digits {n : Nat} {c : Char} (member : c ∈ Nat.toDigits 10 n) :
    c.isDigit = true := Nat.isDigit_of_mem_toDigits (by decide) (by decide) member

theorem mem_text {n : Int} {c : Char} (member : c ∈ text n) : c = '-' ∨ c.isDigit = true := by
  unfold text at member
  split at member
  · rcases List.mem_cons.1 member with rfl | digit
    · exact .inl rfl
    · exact .inr (isDigit_of_mem_digits digit)
  · exact .inr (isDigit_of_mem_digits member)

theorem not_mem_text {n : Int} {c : Char} (unsigned : c ≠ '-') (plain : c.isDigit = false) :
    c ∉ text n := by
  intro member
  rcases mem_text member with is | digit
  · exact unsigned is
  · cases plain.symm.trans digit

theorem text_ne_nil (n : Int) : text n ≠ [] := by
  unfold text
  split
  · exact List.cons_ne_nil _ _
  · exact Nat.toDigits_ne_nil

/-! ## Reading -/

/-- `isspace` of the classic locale. -/
def isSpace (c : Char) : Bool := c ∈ [' ', '\t', '\n', '\x0b', '\x0c', '\r']

/-- The longest run of digits at the front, if there is one. -/
def readDigits (s : List Char) : Option Nat :=
  match s.takeWhile Char.isDigit with
  | [] => none
  | c :: digits => some (value (c :: digits))

/-- A sign, or none, and digits. -/
def readSigned : List Char → Option Int
  | '-' :: s => (readDigits s).map fun (n : Nat) => -(n : Int)
  | '+' :: s => (readDigits s).map fun (n : Nat) => (n : Int)
  | s => (readDigits s).map fun (n : Nat) => (n : Int)

/-- The number at the front of a string, as `strtoll` finds it. -/
def read (s : List Char) : Option Int := readSigned (s.dropWhile isSpace)

theorem readDigits_of_digits {digits : List Char} (all : ∀ c ∈ digits, c.isDigit = true) :
    readDigits digits = if digits = [] then none else some (value digits) := by
  have run : digits.takeWhile Char.isDigit = digits := List.takeWhile_eq_self_iff.2 all
  unfold readDigits
  rw [run]
  cases digits <;> rfl

theorem not_isSpace_of_isDigit {c : Char} (digit : c.isDigit = true) : isSpace c = false := by
  rw [← Bool.not_eq_true]
  intro space
  have among : c = ' ' ∨ c = '\t' ∨ c = '\n' ∨ c = '\x0b' ∨ c = '\x0c' ∨ c = '\r' := by
    simpa [isSpace] using space
  rcases among with rfl | rfl | rfl | rfl | rfl | rfl <;> revert digit <;> decide

theorem readSigned_of_digits {digits : List Char} (all : ∀ c ∈ digits, c.isDigit = true) :
    readSigned digits = (readDigits digits).map fun (n : Nat) => (n : Int) := by
  unfold readSigned
  split
  · exact absurd (all '-' List.mem_cons_self) (by decide)
  · exact absurd (all '+' List.mem_cons_self) (by decide)
  · rfl

/-- A run of digits is read as its value. -/
theorem read_digits {digits : List Char} (all : ∀ c ∈ digits, c.isDigit = true)
    (some_ : digits ≠ []) : read digits = some (value digits : Int) := by
  have front : digits.dropWhile isSpace = digits := by
    cases digits with
    | nil => rfl
    | cons c rest =>
      exact List.dropWhile_cons_of_neg (by
        rw [not_isSpace_of_isDigit (all c List.mem_cons_self)]
        exact Bool.false_ne_true)
  rw [read, front, readSigned_of_digits all, readDigits_of_digits all, if_neg some_]
  rfl

/-- With a minus sign in front it is read as the negative, and the sign alone as nothing. -/
theorem read_minus {digits : List Char} (all : ∀ c ∈ digits, c.isDigit = true) :
    read ('-' :: digits) = if digits = [] then none else some (-(value digits : Int)) := by
  have front : ('-' :: digits).dropWhile isSpace = '-' :: digits := rfl
  rw [read, front, readSigned, readDigits_of_digits all]
  split <;> rfl

/-- **What was printed is read back.** -/
theorem read_text (n : Int) : read (text n) = some n := by
  have all : ∀ c ∈ Nat.toDigits 10 n.natAbs, c.isDigit = true := fun c => isDigit_of_mem_digits
  unfold text
  split
  · rename_i negative
    rw [read_minus all, if_neg Nat.toDigits_ne_nil, value_digits]
    congr 1
    omega
  · rw [read_digits all Nat.toDigits_ne_nil, value_digits]
    congr 1
    omega

theorem text_inj {n m : Int} (same : text n = text m) : n = m := by
  have read_ := read_text n
  rw [same, read_text] at read_
  exact (Option.some.inj read_).symm

/-- **A torn number is no number, or another one of which it is the text.**  The other
one lies between zero and the number torn. -/
theorem read_take {n : Int} {k : Nat} (positive : 0 < k) (torn : k < (text n).length) :
    read ((text n).take k) = none ∨
      ∃ m, read ((text n).take k) = some m ∧ text m = (text n).take k ∧ m ≠ n ∧
        min n 0 ≤ m ∧ m ≤ max n 0 := by
  -- a prefix that is the text of a number is shorter than the text of `n`
  have other {m : Int} (is : text m = (text n).take k) : m ≠ n := by
    rintro rfl
    have length := congrArg List.length is
    rw [List.length_take] at length
    omega
  have bound := value_take_le (Nat.toDigits 10 n.natAbs)
  rw [value_digits] at bound
  have all (j : Nat) : ∀ c ∈ (Nat.toDigits 10 n.natAbs).take j, c.isDigit = true :=
    fun c member => isDigit_of_mem_digits (List.mem_of_mem_take member)
  by_cases negative : n < 0
  · have is : text n = '-' :: Nat.toDigits 10 n.natAbs := if_pos negative
    obtain ⟨j, rfl⟩ : ∃ j, k = j + 1 := ⟨k - 1, by omega⟩
    have front : (text n).take (j + 1) = '-' :: (Nat.toDigits 10 n.natAbs).take j := by
      rw [is, List.take_succ_cons]
    by_cases sign : j = 0
    · subst sign
      left
      rw [front]
      rfl
    · have digit : 0 < j := Nat.pos_of_ne_zero sign
      have nonzero := take_digits_pos (n := n.natAbs) (by omega) digit
      have some_ : (Nat.toDigits 10 n.natAbs).take j ≠ [] := by
        intro none_
        rw [none_] at nonzero
        exact absurd nonzero (lt_irrefl 0)
      have read_ : read ((text n).take (j + 1)) =
          some (-(value ((Nat.toDigits 10 n.natAbs).take j) : Int)) := by
        rw [front, read_minus (all j), if_neg some_]
      have written : text (-(value ((Nat.toDigits 10 n.natAbs).take j) : Int)) =
          (text n).take (j + 1) := by
        rw [text, if_pos (by omega), Int.natAbs_neg, Int.natAbs_natCast, front, ← take_digits _ digit]
      have le := bound j
      exact .inr ⟨_, read_, written, other written, by omega, by omega⟩
  · have is : text n = Nat.toDigits 10 n.natAbs := if_neg negative
    have some_ : (Nat.toDigits 10 n.natAbs).take k ≠ [] := by
      intro none_
      have length := congrArg List.length none_
      rw [is] at torn
      rw [List.length_take, List.length_nil] at length
      omega
    have read_ : read ((text n).take k) =
        some (value ((Nat.toDigits 10 n.natAbs).take k) : Int) := by
      rw [is, read_digits (all k) some_]
    have written : text (value ((Nat.toDigits 10 n.natAbs).take k) : Int) = (text n).take k := by
      rw [text, if_neg (by omega), Int.natAbs_natCast, is, ← take_digits _ positive]
    have le := bound k
    exact .inr ⟨_, read_, written, other written, by omega, by omega⟩

end PaymentSystem.Theory.Decimal
