/-
# PaymentSystem.Infra.IdGenerator -- monotonic, prefixed ids

`IdGenerator::next` of `include/payment/infra/IdGenerator.hpp`: one `fetch_add`
on a 64-bit counter, rendered after the prefix.  `idOf_injective` is the freshness
the callers rely on: fewer than `2 ^ 64` draws from one generator are distinct.
-/
import PaymentSystem.Theory.Decimal
import Mathlib.Algebra.Order.Ring.Int
import Mathlib.Data.List.Nodup

namespace PaymentSystem.Infra

open PaymentSystem.Theory

set_option autoImplicit false

structure IdGenerator where
  tag : String
  counter : UInt64
  deriving DecidableEq, Repr

namespace IdGenerator

/-- The rendering of one draw. -/
def idOf (tag : String) (n : UInt64) : String := tag ++ "_" ++ toString n

/-- `next`: the id drawn, and the generator after the draw. -/
def next (g : IdGenerator) : String × IdGenerator :=
  (idOf g.tag g.counter, { g with counter := g.counter + 1 })

theorem idOf_ne_empty (tag : String) (n : UInt64) : idOf tag n ≠ "" := by
  intro empty
  have chars := congrArg String.toList empty
  simp [idOf] at chars

/-- An id is its tag, an underscore and the digits of the draw. -/
theorem toList_idOf (tag : String) (n : UInt64) :
    (idOf tag n).toList = tag.toList ++ '_' :: Nat.toDigits 10 n.toNat := by
  rw [idOf, String.toList_append, String.toList_append, List.append_assoc]
  exact congrArg _ (congrArg _ Nat.toList_repr)

theorem idOf_inj {tag : String} {n m : UInt64} (same : idOf tag n = idOf tag m) : n = m := by
  have chars := congrArg String.toList same
  rw [toList_idOf, toList_idOf, List.append_cancel_left_eq, List.cons_inj_right] at chars
  exact UInt64.toNat_inj.1 (Decimal.digits_inj chars)

/-- Four draws in a row are distinct, wherever the counter stands. -/
theorem nodup_draws (g : IdGenerator) :
    [g.next.1, g.next.2.next.1, g.next.2.next.2.next.1, g.next.2.next.2.next.2.next.1].Nodup := by
  have counters : [g.counter, g.counter + 1, g.counter + 1 + 1, g.counter + 1 + 1 + 1].Nodup := by
    simp only [List.nodup_cons, List.mem_cons, List.not_mem_nil, or_false]
    grind
  exact counters.map (f := idOf g.tag) fun _ _ same => idOf_inj same

/-- The generator after `k` draws from `start`. -/
def drawn (tag : String) (start k : Nat) : IdGenerator := ⟨tag, UInt64.ofNat (start + k)⟩

theorem drawn_next (tag : String) (start k : Nat) :
    (drawn tag start k).next = (idOf tag (UInt64.ofNat (start + k)), drawn tag start (k + 1)) := by
  simp only [next, drawn, ← Nat.add_assoc, UInt64.ofNat_add]
  rfl

/-- **Fewer than `2 ^ 64` draws are pairwise distinct.** -/
theorem idOf_injective {tag : String} {start j k : Nat} (hj : j < 2 ^ 64) (hk : k < 2 ^ 64)
    (same : idOf tag (UInt64.ofNat (start + j)) = idOf tag (UInt64.ofNat (start + k))) : j = k := by
  have := congrArg UInt64.toNat (idOf_inj same)
  simp only [UInt64.toNat_ofNat', Nat.reducePow] at this
  omega

end IdGenerator

end PaymentSystem.Infra
