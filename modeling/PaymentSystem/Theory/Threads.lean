/-
# PaymentSystem.Theory.Threads -- agents over one shared state

`Interleaving` says that every step of a machine moves one agent and perhaps the
shared state.  Its rules are the shapes an invariant of such a machine takes:

* `agentwise`: a property of each agent against the shared state, kept by the
  agent that moves and not disturbed by the others (rely and guarantee in one);
* `forall_mem_set`: what holds of the mover and of everyone else holds of all;
* `Apart.set`: nothing is held by two agents, kept if a mover takes only what
  nobody holds;
* `exists_mem_set`: what some agent has done stays done;
* `sum_map_set`, `le_sum_map`: a quantity summed over the agents moves by what the
  mover changes, and bounds every agent's own share.
-/
import PaymentSystem.Theory.Runs
import Mathlib.Algebra.BigOperators.Group.List.Basic
import Mathlib.Algebra.Order.BigOperators.Group.List
import Mathlib.Algebra.Order.Ring.Int

namespace PaymentSystem.Theory.Threads

open PaymentSystem.Theory.Runs

set_option autoImplicit false

section Interleaving

variable {σ S T : Type}

/-- Every step moves one agent, and the shared state with it. -/
structure Interleaving (step : σ → Nat → Option σ) (shared : σ → S) (agents : σ → List T)
    (Move : S → T → S → T → Prop) : Prop where
  moves : ∀ {s s' : σ} {i : Nat}, step s i = some s' → ∃ t t', (agents s)[i]? = some t ∧
    Move (shared s) t (shared s') t' ∧ agents s' = (agents s).set i t'

variable {step : σ → Nat → Option σ} {shared : σ → S} {agents : σ → List T}
  {Move : S → T → S → T → Prop}

/-- What holds of those who were there and of the mover holds of all after its move. -/
theorem forall_mem_set {l : List T} {i : Nat} {t' : T} {Q : T → Prop} (others : ∀ u ∈ l, Q u)
    (own : Q t') : ∀ u ∈ l.set i t', Q u := by
  intro u member
  rcases List.mem_or_eq_of_mem_set member with there | rfl
  · exact others u there
  · exact own

/-- One step keeps a property that the mover restores and the others do not lose. -/
theorem Interleaving.agentwise_step (inter : Interleaving step shared agents Move)
    {P : S → T → Prop} (own : ∀ s t s' t', Move s t s' t' → P s t → P s' t')
    (others : ∀ s t s' t' u, Move s t s' t' → P s t → P s u → P s' u) {s s' : σ} {i : Nat}
    (all : ∀ t ∈ agents s, P (shared s) t) (stepped : step s i = some s') :
    ∀ t ∈ agents s', P (shared s') t := by
  obtain ⟨t, t', at_, moved, threads⟩ := inter.moves stepped
  have mover : P (shared s) t := all t (List.mem_of_getElem? at_)
  rw [threads]
  exact forall_mem_set (fun u there => others _ _ _ _ u moved mover (all u there))
    (own _ _ _ _ moved mover)

/-- **What the mover restores and the others do not lose, holds in every run.** -/
theorem Interleaving.agentwise (inter : Interleaving step shared agents Move)
    {P : S → T → Prop} (own : ∀ s t s' t', Move s t s' t' → P s t → P s' t')
    (others : ∀ s t s' t' u, Move s t s' t' → P s t → P s u → P s' u) {s s' : σ}
    {sched : List Nat} (start : ∀ t ∈ agents s, P (shared s) t)
    (run : exec step s sched = some s') : ∀ t ∈ agents s', P (shared s') t :=
  exec_induct (fun s => ∀ t ∈ agents s, P (shared s) t)
    (fun _ _ _ all stepped => inter.agentwise_step own others all stepped) start run

/-- Who stands where after a move: the mover at its place, the others at theirs. -/
theorem mem_set_at {l : List T} {i : Nat} {t : T} (at_ : l[i]? = some t) (u : T) : u ∈ l.set i u :=
  List.mem_set (List.getElem?_eq_some_iff.1 at_).1 u

theorem at_set {l : List T} {i j : Nat} {t' u : T} (there : (l.set i t')[j]? = some u) :
    j = i ∧ u = t' ∨ j ≠ i ∧ l[j]? = some u := by
  by_cases same : j = i
  · subst same
    have inside : j < (l.set j t').length := (List.getElem?_eq_some_iff.1 there).1
    rw [List.length_set] at inside
    rw [List.getElem?_set_self inside] at there
    exact .inl ⟨rfl, (Option.some.inj there).symm⟩
  · rw [List.getElem?_set_ne (Ne.symm same)] at there
    exact .inr ⟨same, there⟩

/-- What some agent has done is still done by some agent after a move that does
not undo it. -/
theorem exists_mem_set {l : List T} {i : Nat} {t t' : T} (at_ : l[i]? = some t) {Q : T → Prop}
    (kept : Q t → Q t') (some_ : ∃ u ∈ l, Q u) : ∃ u ∈ l.set i t', Q u := by
  obtain ⟨u, member, done⟩ := some_
  obtain ⟨j, there⟩ := List.mem_iff_getElem?.1 member
  by_cases same : i = j
  · subst same
    have inside : i < l.length := (List.getElem?_eq_some_iff.1 at_).1
    cases at_.symm.trans there
    exact ⟨t', List.mem_set inside t', kept done⟩
  · refine ⟨u, List.mem_iff_getElem?.2 ⟨j, ?_⟩, done⟩
    rw [List.getElem?_set_ne same]
    exact there

end Interleaving

/-! ## Exclusive holdings -/

section Apart

variable {T κ : Type}

/-- No two agents hold the same thing. -/
def Apart (holds : T → κ → Prop) (l : List T) : Prop :=
  ∀ (i j : Nat) (t u : T) (k : κ), l[i]? = some t → l[j]? = some u → holds t k → holds u k → i = j

/-- **A mover that takes only what nobody holds keeps holdings apart.** -/
theorem Apart.set {holds : T → κ → Prop} {l : List T} (apart : Apart holds l) {i : Nat} {t : T}
    (at_ : l[i]? = some t) {t' : T}
    (taken : ∀ k, holds t' k → holds t k ∨ ∀ u ∈ l, ¬ holds u k) : Apart holds (l.set i t') := by
  have inside : i < l.length := (List.getElem?_eq_some_iff.1 at_).1
  -- whoever holds what the mover now holds is the mover
  have unique : ∀ j u k, holds t' k → l[j]? = some u → holds u k → i = j := by
    intro j u k now there also
    rcases taken k now with before | nobody
    · exact apart i j t u k at_ there before also
    · exact absurd also (nobody u (List.mem_of_getElem? there))
  intro j₁ j₂ u₁ u₂ k there₁ there₂ holds₁ holds₂
  by_cases first : i = j₁ <;> by_cases second : i = j₂
  · omega
  · subst first
    rw [List.getElem?_set_self inside] at there₁
    cases there₁
    rw [List.getElem?_set_ne second] at there₂
    exact unique j₂ u₂ k holds₁ there₂ holds₂
  · subst second
    rw [List.getElem?_set_self inside] at there₂
    cases there₂
    rw [List.getElem?_set_ne first] at there₁
    exact (unique j₁ u₁ k holds₂ there₁ holds₁).symm
  · rw [List.getElem?_set_ne first] at there₁
    rw [List.getElem?_set_ne second] at there₂
    exact apart j₁ j₂ u₁ u₂ k there₁ there₂ holds₁ holds₂

end Apart

/-! ## Sums over the agents -/

section Sums

variable {T : Type}

theorem sum_map_set {l : List T} {i : Nat} {t : T} (at_ : l[i]? = some t) (f : T → Int) (b : T) :
    ((l.set i b).map f).sum = (l.map f).sum - f t + f b := by
  obtain ⟨inside, rfl⟩ := List.getElem?_eq_some_iff.1 at_
  rw [List.map_set, List.sum_set']
  simp [inside]
  omega

theorem le_sum_map {l : List T} {f : T → Int} (nonneg : ∀ a ∈ l, 0 ≤ f a) {t : T} (member : t ∈ l) :
    f t ≤ (l.map f).sum := by
  apply List.single_le_sum
  · intro x there
    obtain ⟨y, here, rfl⟩ := List.mem_map.1 there
    exact nonneg y here
  · exact List.mem_map_of_mem member

theorem sum_map_nonneg {l : List T} {f : T → Int} (nonneg : ∀ a ∈ l, 0 ≤ f a) :
    0 ≤ (l.map f).sum := by
  apply List.sum_nonneg
  intro x there
  obtain ⟨y, here, rfl⟩ := List.mem_map.1 there
  exact nonneg y here

/-- How many agents are of a kind, when one moves. -/
theorem countP_set_add {l : List T} {i : Nat} {t : T} (at_ : l[i]? = some t) (p : T → Bool) (t' : T) :
    (l.set i t').countP p + (if p t then 1 else 0) = l.countP p + if p t' then 1 else 0 := by
  obtain ⟨inside, rfl⟩ := List.getElem?_eq_some_iff.1 at_
  rw [List.countP_set inside]
  cases was : p l[i] with
  | false => simp
  | true =>
    have positive : 0 < l.countP p := List.countP_pos_iff.2 ⟨_, List.getElem_mem inside, was⟩
    simp only [if_true]
    omega

/-- The same amount for each agent of a kind adds up to its multiple. -/
theorem sum_map_count (l : List T) (p : T → Bool) (a : Int) :
    (l.map fun t => if p t then a else 0).sum = l.countP p * a := by
  induction l with
  | nil => simp
  | cons t rest ih =>
    rw [List.map_cons, List.sum_cons, ih, List.countP_cons]
    cases p t with
    | false => simp
    | true =>
      simp only [if_true, Int.natCast_add, Int.add_mul]
      omega

/-- A sum over the places of the agents, in any order, is the sum over the agents. -/
theorem sum_places {l : List T} {order : List Nat} (all : order.Perm (List.range l.length))
    {g : Nat → Int} {f : T → Int} (same : ∀ i t, l[i]? = some t → g i = f t) :
    (order.map g).sum = (l.map f).sum := by
  rw [(all.map g).sum_eq]
  congr 1
  refine List.ext_getElem (by simp) fun i inside _ => ?_
  rw [List.length_map, List.length_range] at inside
  rw [List.getElem_map, List.getElem_map, List.getElem_range]
  exact same i l[i] (List.getElem?_eq_getElem inside)

/-- Agents' lists, joined: one that grows adds to all of them. -/
theorem perm_flatten_set {ls : List (List T)} {i : Nat} {l : List T} (at_ : ls[i]? = some l)
    (more : List T) : (ls.set i (l ++ more)).flatten.Perm (ls.flatten ++ more) := by
  induction ls generalizing i with
  | nil => cases at_
  | cons first rest ih =>
    cases i with
    | zero =>
      cases at_
      rw [List.set_cons_zero, List.flatten_cons, List.flatten_cons, List.append_assoc,
        List.append_assoc]
      exact List.perm_append_comm.append_left _
    | succ i =>
      rw [List.set_cons_succ, List.flatten_cons, List.flatten_cons, List.append_assoc]
      exact (ih at_).append_left _

/-- Agents' lists, joined, are what one of them has and what the others have. -/
theorem perm_flatten_others {ls : List (List T)} {i : Nat} {l : List T} (at_ : ls[i]? = some l) :
    ∃ others, ls.flatten.Perm (l ++ others) ∧ ∀ l', (ls.set i l').flatten.Perm (l' ++ others) := by
  obtain ⟨inside, rfl⟩ := List.getElem?_eq_some_iff.1 at_
  have split : ls.take i ++ ls[i] :: ls.drop (i + 1) = ls := by
    rw [← List.drop_eq_getElem_cons inside, List.take_append_drop]
  have mine (l' : List T) : (ls.take i ++ l' :: ls.drop (i + 1)).flatten.Perm
      (l' ++ ((ls.take i).flatten ++ (ls.drop (i + 1)).flatten)) := by
    rw [List.flatten_append, List.flatten_cons, ← List.append_assoc, ← List.append_assoc]
    exact List.perm_append_comm.append_right _
  refine ⟨_, split ▸ mine ls[i], fun l' => ?_⟩
  rw [List.set_eq_take_append_cons_drop, if_pos inside]
  exact mine l'

theorem sum_map_zero {l : List T} {f : T → Int} (zero : ∀ a ∈ l, f a = 0) : (l.map f).sum = 0 := by
  apply List.sum_eq_zero
  intro x there
  obtain ⟨y, here, rfl⟩ := List.mem_map.1 there
  exact zero y here

end Sums

end PaymentSystem.Theory.Threads
