/-
# PaymentSystem.Theory.Renaming -- logs of two actors, up to fresh names

Two actors that draw their names from one counter draw each other's when they go in the
other order.  `exchange` is the permutation that undoes it for two names each, and
`perm_exchanged` is that what they append to a log is then the same up to order.
-/
import Mathlib.Logic.Equiv.Basic
import Mathlib.Data.List.Perm.Basic

namespace PaymentSystem.Theory.Renaming

set_option autoImplicit false

section Exchange

variable {α : Type} [DecidableEq α] {a b c d : α}

/-- `a` and `b` change places with `c` and `d`. -/
def exchange (a b c d : α) : Equiv.Perm α := (Equiv.swap b d).trans (Equiv.swap a c)

theorem exchange_first (distinct : [a, b, c, d].Nodup) :
    exchange a b c d a = c ∧ exchange a b c d b = d := by
  simp only [List.nodup_cons, List.mem_cons, List.not_mem_nil, or_false, not_or] at distinct
  obtain ⟨⟨ab, ac, ad⟩, ⟨bc, bd⟩, cd, -⟩ := distinct
  constructor
  · rw [exchange, Equiv.trans_apply, Equiv.swap_apply_of_ne_of_ne ab ad, Equiv.swap_apply_left]
  · rw [exchange, Equiv.trans_apply, Equiv.swap_apply_left,
      Equiv.swap_apply_of_ne_of_ne (Ne.symm ad) (Ne.symm cd)]

theorem exchange_second (distinct : [a, b, c, d].Nodup) :
    exchange a b c d c = a ∧ exchange a b c d d = b := by
  simp only [List.nodup_cons, List.mem_cons, List.not_mem_nil, or_false, not_or] at distinct
  obtain ⟨⟨ab, ac, ad⟩, ⟨bc, bd⟩, cd, -⟩ := distinct
  constructor
  · rw [exchange, Equiv.trans_apply, Equiv.swap_apply_of_ne_of_ne (Ne.symm bc) cd,
      Equiv.swap_apply_right]
  · rw [exchange, Equiv.trans_apply, Equiv.swap_apply_right,
      Equiv.swap_apply_of_ne_of_ne (Ne.symm ab) bc]

/-- It moves nothing else. -/
theorem mem_of_exchange {x : α} (moved : exchange a b c d x ≠ x) : x ∈ [a, b, c, d] := by
  by_contra other
  simp only [List.mem_cons, List.not_mem_nil, or_false, not_or] at other
  obtain ⟨xa, xb, xc, xd⟩ := other
  rw [exchange, Equiv.trans_apply, Equiv.swap_apply_of_ne_of_ne xb xd,
    Equiv.swap_apply_of_ne_of_ne xa xc] at moved
  exact moved rfl

theorem mem_of_exchange_if {both : Bool} {x : α}
    (moved : (if both then exchange a b c d else Equiv.refl α) x ≠ x) : x ∈ [a, b, c, d] := by
  cases both with
  | false => exact absurd rfl moved
  | true => exact mem_of_exchange moved

theorem mem_of_swap {x : α} (moved : Equiv.swap a b x ≠ x) : x ∈ [a, b] := by
  by_contra other
  simp only [List.mem_cons, List.not_mem_nil, or_false, not_or] at other
  exact moved (Equiv.swap_apply_of_ne_of_ne other.1 other.2)

end Exchange

section Logs

variable {α β : Type}

/-- **Two appends in the other order**, seen through `f` and `g`. -/
theorem perm_exchanged {xs ys : List α} {xs' ys' : List α} {f g : α → β}
    (first : xs'.map g = xs.map f) (second : ys'.map g = ys.map f) :
    ((ys' ++ xs').map g).Perm ((xs ++ ys).map f) := by
  rw [List.map_append, List.map_append, first, second]
  exact List.perm_append_comm

end Logs

end PaymentSystem.Theory.Renaming
