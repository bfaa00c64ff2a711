/-
# PaymentSystem.Theory.Runs -- scheduled runs and their linearizations

A machine of agents is a partial step function `step : σ → ι → Option σ`: agent
`i` takes its next atomic step, or cannot (`none`: it is blocked or has ended).
A schedule is a list of agents, and `exec` runs it; every interleaving is the
run of some schedule.

* `exec_induct` packages the induction: what one step preserves, a run preserves;
  `exec_lockstep` is the same for two machines that run side by side.
* `exec_first` finds the step that brought about what a run has come to.
* `Along` says that every step of a run meets a condition in the state before it;
  `guarded` is the machine that takes no other steps.
* `Linearizing` is a simulation with commit points.  `decided s i` is the answer
  of agent `i` once it can no longer change; `Rel s a` relates a machine state to
  the state of a sequential object `perform`.  Each step either keeps both, or
  decides its own agent, with the answer and the effect of applying that agent's
  operation to the sequential object at that moment.
* `Linearizing.run`: a run then has a linearization: one order of the decided
  agents, whose sequential replay gives the same answers and a related state, and
  of which the state at every earlier moment of the run gives a prefix.  The last
  part is the real-time order (`idxOf_lt_of_prefix`).
-/
import Mathlib.Data.List.Nodup
import Mathlib.Data.List.Infix
import Mathlib.Logic.Function.Basic

namespace PaymentSystem.Theory.Runs

set_option autoImplicit false

section Exec

variable {σ ι : Type} (step : σ → ι → Option σ)

/-- Run a schedule. -/
def exec : σ → List ι → Option σ
  | s, [] => some s
  | s, i :: rest => (step s i).bind fun s' => exec s' rest

variable {step}

@[simp] theorem exec_nil (s : σ) : exec step s [] = some s := rfl

theorem exec_cons {s t : σ} {i : ι} {rest : List ι} :
    exec step s (i :: rest) = some t ↔ ∃ u, step s i = some u ∧ exec step u rest = some t := by
  simp [exec, Option.bind_eq_some_iff]

theorem exec_append {s t : σ} {xs ys : List ι} :
    exec step s (xs ++ ys) = some t ↔ ∃ u, exec step s xs = some u ∧ exec step u ys = some t := by
  induction xs generalizing s with
  | nil => simp
  | cons i xs ih =>
    rw [List.cons_append, exec_cons]
    constructor
    · rintro ⟨u, first, rest⟩
      obtain ⟨w, left, right⟩ := ih.1 rest
      exact ⟨w, exec_cons.2 ⟨u, first, left⟩, right⟩
    · rintro ⟨w, left, right⟩
      obtain ⟨u, first, rest⟩ := exec_cons.1 left
      exact ⟨u, first, ih.2 ⟨w, rest, right⟩⟩

theorem exec_snoc {s u t : σ} {sched : List ι} {i : ι} (ran : exec step s sched = some u)
    (stepped : step u i = some t) : exec step s (sched ++ [i]) = some t :=
  exec_append.2 ⟨u, ran, exec_cons.2 ⟨t, stepped, rfl⟩⟩

/-- An agent that goes on alone until it cannot comes to one end only. -/
theorem exec_replicate_unique {s u v : σ} {i : ι} {m n : Nat}
    (ran : exec step s (List.replicate m i) = some u) (ended : step u i = none)
    (ran' : exec step s (List.replicate n i) = some v) (ended' : step v i = none) : u = v := by
  induction m generalizing s n with
  | zero =>
    cases ran
    cases n with
    | zero => exact Option.some.inj ran'
    | succ n =>
      obtain ⟨w, stepped, -⟩ := exec_cons.1 ran'
      rw [ended] at stepped
      cases stepped
  | succ m ih =>
    obtain ⟨w, stepped, ran⟩ := exec_cons.1 ran
    cases n with
    | zero =>
      cases ran'
      rw [ended'] at stepped
      cases stepped
    | succ n =>
      obtain ⟨w', stepped', ran'⟩ := exec_cons.1 ran'
      cases stepped.symm.trans stepped'
      exact ih ran ran'

/-- **What every step preserves, every run preserves.** -/
theorem exec_induct (P : σ → Prop) (keeps : ∀ s i t, P s → step s i = some t → P t)
    {s t : σ} {sched : List ι} (start : P s) (run : exec step s sched = some t) : P t := by
  induction sched generalizing s with
  | nil =>
    cases run
    exact start
  | cons i rest ih =>
    obtain ⟨u, first, run⟩ := exec_cons.1 run
    exact ih (keeps s i u start first) run

/-- The same, where a step may use the run it extends and its place in the schedule. -/
theorem exec_induct_along (P : σ → Prop) {s t : σ} {sched : List ι}
    (keeps : ∀ early i late u v, sched = early ++ i :: late → exec step s early = some u → P u →
      step u i = some v → P v)
    (start : P s) (run : exec step s sched = some t) : P t := by
  induction sched using List.reverseRecOn generalizing t with
  | nil =>
    cases run
    exact start
  | append_singleton early i ih =>
    obtain ⟨u, ran, last⟩ := exec_append.1 run
    obtain ⟨v, stepped, ended⟩ := exec_cons.1 last
    cases ended
    refine keeps early i [] u t rfl ran (ih ?_ ran) stepped
    intro early' j late u' v' split
    exact keeps early' j (late ++ [i]) u' v' (by rw [split]; simp)

theorem exec_induct_reached (P : σ → Prop) {s : σ}
    (keeps : ∀ early u i t, exec step s early = some u → P u → step u i = some t → P t) {t : σ}
    {sched : List ι} (start : P s) (run : exec step s sched = some t) : P t :=
  exec_induct_along P (fun early i _ u v _ => keeps early u i v) start run

/-- **What a run has come to, one of its steps brought about.** -/
theorem exec_first (Q : σ → Prop) {s t : σ} {sched : List ι} (start : ¬ Q s) (came : Q t)
    (run : exec step s sched = some t) : ∃ early i late u v, sched = early ++ i :: late ∧
      exec step s early = some u ∧ ¬ Q u ∧ step u i = some v ∧ Q v ∧
        exec step v late = some t := by
  induction sched generalizing s with
  | nil =>
    cases run
    exact absurd came start
  | cons i rest ih =>
    obtain ⟨v, first, run⟩ := exec_cons.1 run
    by_cases now : Q v
    · exact ⟨[], i, rest, s, v, rfl, rfl, start, first, now, run⟩
    · obtain ⟨early, j, late, u, w, rfl, ran, rest⟩ := ih now run
      exact ⟨i :: early, j, late, u, w, rfl, exec_cons.2 ⟨v, first, ran⟩, rest⟩

/-- Every step of the run of a schedule meets `ok`, in the state before it. -/
def Along (step : σ → ι → Option σ) (ok : σ → ι → Prop) (s : σ) (sched : List ι) : Prop :=
  ∀ early i late u, sched = early ++ i :: late → exec step s early = some u → ok u i

/-- **What every step that meets `ok` preserves, every run of such steps preserves.** -/
theorem Along.induct {ok : σ → ι → Prop} {s : σ} {sched : List ι} (along : Along step ok s sched)
    (P : σ → Prop)
    (keeps : ∀ early u i t, exec step s early = some u → P u → ok u i → step u i = some t → P t)
    (start : P s) {t : σ} (run : exec step s sched = some t) : P t := by
  refine exec_induct_along P ?_ start run
  intro early i late u v split ran before stepped
  exact keeps early u i v ran before (along early i late u split ran) stepped

theorem along_cons {ok : σ → ι → Prop} {s t : σ} {i : ι} {rest : List ι} (first : ok s i)
    (stepped : step s i = some t) (later : Along step ok t rest) : Along step ok s (i :: rest) := by
  intro early j late u split ran
  cases early with
  | nil =>
    cases ran
    cases split
    exact first
  | cons k early =>
    obtain ⟨rfl, tail⟩ := List.cons.inj split
    obtain ⟨v, stepped', ran⟩ := exec_cons.1 ran
    cases stepped.symm.trans stepped'
    exact later early j late u tail ran

/-- The machine that takes no step but those that meet `ok`. -/
def guarded (step : σ → ι → Option σ) (ok : σ → ι → Prop) [∀ s i, Decidable (ok s i)] (s : σ)
    (i : ι) : Option σ :=
  if ok s i then step s i else none

/-- A run of the guarded machine is a run, and all its steps meet the guard. -/
theorem exec_guarded {ok : σ → ι → Prop} [∀ s i, Decidable (ok s i)] {s t : σ} {sched : List ι}
    (run : exec (guarded step ok) s sched = some t) :
    exec step s sched = some t ∧ Along step ok s sched := by
  induction sched generalizing s with
  | nil =>
    refine ⟨run, fun early i late u split => ?_⟩
    simp at split
  | cons i rest ih =>
    obtain ⟨u, stepped, run⟩ := exec_cons.1 run
    unfold guarded at stepped
    split at stepped
    · rename_i met
      obtain ⟨ran, along⟩ := ih run
      exact ⟨exec_cons.2 ⟨u, stepped, ran⟩, along_cons met stepped along⟩
    · cases stepped

/-- **Lockstep.**  If each step of a run can be matched by a step of the same agent on
the other machine, which keeps the two related, the whole schedule runs there. -/
theorem exec_lockstep {τ : Type} {step' : τ → ι → Option τ} (R : σ → τ → Prop) {s : σ} {s' : τ}
    (each : ∀ early u i t u', exec step s early = some u → R u u' → step u i = some t →
      ∃ t', step' u' i = some t' ∧ R t t')
    (start : R s s') {t : σ} {sched : List ι} (run : exec step s sched = some t) :
    ∃ t', exec step' s' sched = some t' ∧ R t t' := by
  induction sched using List.reverseRecOn generalizing t with
  | nil =>
    cases run
    exact ⟨s', rfl, start⟩
  | append_singleton early i ih =>
    obtain ⟨u, ran, last⟩ := exec_append.1 run
    obtain ⟨v, stepped, ended⟩ := exec_cons.1 last
    cases ended
    obtain ⟨u', ran', related⟩ := ih ran
    obtain ⟨t', stepped', related⟩ := each early u i t u' ran related stepped
    exact ⟨t', exec_snoc ran' stepped', related⟩

/-- **Projection.**  If each step of an agent that is kept can be matched on the other
machine, and no step of another is seen there, the schedule runs there with the others left
out. -/
theorem exec_project {τ : Type} {step' : τ → ι → Option τ} (keep : ι → Bool) (R : σ → τ → Prop)
    {s : σ} {s' : τ}
    (kept : ∀ early u i t u', exec step s early = some u →
      exec step' s' (early.filter keep) = some u' → R u u' → keep i = true → step u i = some t →
      ∃ t', step' u' i = some t' ∧ R t t')
    (unseen : ∀ early u i t u', exec step s early = some u →
      exec step' s' (early.filter keep) = some u' → R u u' → keep i = false → step u i = some t →
      R t u')
    (start : R s s') {t : σ} {sched : List ι} (run : exec step s sched = some t) :
    ∃ t', exec step' s' (sched.filter keep) = some t' ∧ R t t' := by
  induction sched using List.reverseRecOn generalizing t with
  | nil =>
    cases run
    exact ⟨s', rfl, start⟩
  | append_singleton early i ih =>
    obtain ⟨u, ran, last⟩ := exec_append.1 run
    obtain ⟨v, stepped, ended⟩ := exec_cons.1 last
    cases ended
    obtain ⟨u', ran', related⟩ := ih ran
    rw [List.filter_append]
    cases keeps : keep i with
    | true =>
      obtain ⟨t', stepped', related⟩ := kept early u i t u' ran ran' related keeps stepped
      exact ⟨t', by simpa [keeps] using exec_snoc ran' stepped', related⟩
    | false =>
      exact ⟨u', by simpa [keeps] using ran', unseen early u i t u' ran ran' related keeps stepped⟩

/-- A schedule that runs, and what a check finds where it leads. -/
theorem exec_any {s : σ} {sched : List ι} {p : σ → Bool} (found : (exec step s sched).any p = true) :
    ∃ t, exec step s sched = some t ∧ p t = true := by
  cases run : exec step s sched with
  | none =>
    rw [run] at found
    cases found
  | some t =>
    rw [run] at found
    exact ⟨t, rfl, found⟩

end Exec

/-! ## The sequential object -/

section Replay

variable {α ι R : Type} [DecidableEq ι] (perform : ι → α → R × α)

/-- The sequential object after the operations of `order`. -/
def after (a : α) (order : List ι) : α := order.foldl (fun a i => (perform i a).2) a

/-- The answer agent `i` gets when the operations of `order` run one at a time. -/
def answer : α → List ι → ι → Option R
  | _, [], _ => none
  | a, j :: rest, i => if i = j then some (perform j a).1 else answer (perform j a).2 rest i

omit [DecidableEq ι] in
theorem after_append (a : α) (xs ys : List ι) :
    after perform a (xs ++ ys) = after perform (after perform a xs) ys := by
  simp [after, List.foldl_append]

theorem answer_eq_none {a : α} {order : List ι} {i : ι} (absent : i ∉ order) :
    answer perform a order i = none := by
  induction order generalizing a with
  | nil => rfl
  | cons j rest ih =>
    rw [List.mem_cons, not_or] at absent
    rw [answer, if_neg absent.1]
    exact ih absent.2

theorem mem_of_answer {a : α} {order : List ι} {i : ι} {r : R}
    (answered : answer perform a order i = some r) : i ∈ order := by
  by_contra absent
  rw [answer_eq_none perform absent] at answered
  cases answered

theorem answer_isSome {a : α} {order : List ι} {i : ι} (member : i ∈ order) :
    (answer perform a order i).isSome := by
  induction order generalizing a with
  | nil => cases member
  | cons j rest ih =>
    rw [answer]
    split
    · rfl
    · rename_i different
      exact ih ((List.mem_cons.1 member).resolve_left different)

/-- Appending an agent that has not run yet adds its answer and no other. -/
theorem answer_snoc {a : α} {order : List ι} {j : ι} (absent : j ∉ order) (i : ι) :
    answer perform a (order ++ [j]) i =
      Function.update (answer perform a order) j (some (perform j (after perform a order)).1) i := by
  induction order generalizing a with
  | nil =>
    by_cases same : i = j <;> simp [answer, after, Function.update_apply, same]
  | cons k rest ih =>
    rw [List.mem_cons, not_or] at absent
    rw [List.cons_append, answer]
    by_cases same : i = k
    · subst same
      rw [if_pos rfl, Function.update_apply, if_neg (Ne.symm absent.1), answer, if_pos rfl]
    · rw [if_neg same, ih absent.2]
      simp only [Function.update_apply, answer, if_neg same]
      rfl

/-- The answers the operations of `order` get, in that order. -/
def answersOf : α → List ι → List R
  | _, [] => []
  | a, i :: rest => (perform i a).1 :: answersOf (perform i a).2 rest

theorem map_answer {a : α} {order : List ι} (nodup : order.Nodup) :
    order.map (answer perform a order) = (answersOf perform a order).map some := by
  induction order generalizing a with
  | nil => rfl
  | cons i rest ih =>
    obtain ⟨fresh, nodup⟩ := List.nodup_cons.1 nodup
    have later : ∀ j ∈ rest,
        answer perform a (i :: rest) j = answer perform (perform i a).2 rest j := by
      intro j member
      have different : j ≠ i := by
        rintro rfl
        exact fresh member
      rw [answer, if_neg different]
    rw [List.map_cons, List.map_congr_left later, ih nodup, answer, if_pos rfl]
    rfl

end Replay

/-! ## Linearization by commit points -/

section Linearize

variable {σ ι α R : Type} [DecidableEq ι] (step : σ → ι → Option σ) (perform : ι → α → R × α)
  (decided : σ → ι → Option R) (Rel : σ → α → Prop)

/-- Every step leaves the sequential object alone, or commits its own agent. -/
structure Linearizing : Prop where
  commits : ∀ s a i t, Rel s a → step s i = some t →
    (Rel t a ∧ ∀ j, decided t j = decided s j) ∨
      (decided s i = none ∧ Rel t (perform i a).2 ∧
        ∀ j, decided t j = Function.update (decided s) i (some (perform i a).1) j)

/-- `order` explains the state `s`: replayed from `a`, it gives every decided
agent its answer, no other agent one, and a related sequential state. -/
structure Explains (a : α) (s : σ) (order : List ι) : Prop where
  nodup : order.Nodup
  rel : Rel s (after perform a order)
  answers : ∀ j, decided s j = answer perform a order j

variable {step perform decided Rel}

/-- The agents of the order are the decided ones. -/
theorem Explains.mem_iff {a : α} {s : σ} {order : List ι}
    (now : Explains perform decided Rel a s order) {i : ι} : i ∈ order ↔ (decided s i).isSome := by
  rw [now.answers i]
  constructor
  · exact fun member => answer_isSome perform member
  · intro answered
    obtain ⟨r, answered⟩ := Option.isSome_iff_exists.1 answered
    exact mem_of_answer perform answered

theorem Explains.stay {a : α} {s t : σ} {order : List ι} (now : Explains perform decided Rel a s order)
    (rel : Rel t (after perform a order)) (same : ∀ j, decided t j = decided s j) :
    Explains perform decided Rel a t order :=
  ⟨now.nodup, rel, fun j => (same j).trans (now.answers j)⟩

theorem Explains.commit {a : α} {s t : σ} {order : List ι} {i : ι}
    (now : Explains perform decided Rel a s order) (open_ : decided s i = none)
    (rel : Rel t (perform i (after perform a order)).2)
    (grown : ∀ j, decided t j =
      Function.update (decided s) i (some (perform i (after perform a order)).1) j) :
    Explains perform decided Rel a t (order ++ [i]) := by
  have absent : i ∉ order := by
    intro member
    have some_ := now.mem_iff.1 member
    rw [open_] at some_
    cases some_
  refine ⟨?_, ?_, fun j => ?_⟩
  · exact List.nodup_append.2 ⟨now.nodup, List.nodup_singleton i, fun x hx y hy => by
      rw [List.mem_singleton.1 hy]
      rintro rfl
      exact absent hx⟩
  · rw [after_append]
    exact rel
  · rw [grown j, answer_snoc perform absent]
    simp only [Function.update_apply, now.answers j]

/-- **Every run of a linearizing machine has a linearization**, and the states
it passes through are explained by prefixes of it. -/
theorem Linearizing.run (lin : Linearizing step perform decided Rel) {a : α} {s t : σ}
    {order sched : List ι} (start : Explains perform decided Rel a s order)
    (ran : exec step s sched = some t) :
    ∃ more, Explains perform decided Rel a t (order ++ more) ∧
      ∀ early late u, sched = early ++ late → exec step s early = some u →
        ∃ p, p <+: more ∧ Explains perform decided Rel a u (order ++ p) := by
  induction sched generalizing s order with
  | nil =>
    cases ran
    refine ⟨[], by simpa using start, fun early late u split ran => ?_⟩
    obtain ⟨rfl, -⟩ := List.append_eq_nil_iff.1 split.symm
    cases ran
    exact ⟨[], List.prefix_rfl, by simpa using start⟩
  | cons i rest ih =>
    obtain ⟨v, first, ran⟩ := exec_cons.1 ran
    rcases lin.commits s _ i v start.rel first with ⟨rel, same⟩ | ⟨open_, rel, grown⟩
    · obtain ⟨more, final, early_⟩ := ih (start.stay rel same) ran
      refine ⟨more, final, fun early late u split ran => ?_⟩
      cases early with
      | nil =>
        cases ran
        exact ⟨[], List.nil_prefix, by simpa using start⟩
      | cons j early =>
        obtain ⟨rfl, tail⟩ := List.cons.inj split
        obtain ⟨w, first', ran⟩ := exec_cons.1 ran
        cases first.symm.trans first'
        exact early_ early late u tail ran
    · obtain ⟨more, final, early_⟩ := ih (start.commit open_ rel grown) ran
      refine ⟨i :: more, by simpa using final, fun early late u split ran => ?_⟩
      cases early with
      | nil =>
        cases ran
        exact ⟨[], List.nil_prefix, by simpa using start⟩
      | cons j early =>
        obtain ⟨rfl, tail⟩ := List.cons.inj split
        obtain ⟨w, first', ran⟩ := exec_cons.1 ran
        cases first.symm.trans first'
        obtain ⟨p, isPrefix, explained⟩ := early_ early late u tail ran
        exact ⟨_ :: p, (List.prefix_cons_inj _).2 isPrefix, by simpa using explained⟩

/-- Whatever is decided before something else is comes first in the order. -/
theorem idxOf_lt_of_prefix {p order : List ι} {i j : ι} (isPrefix : p <+: order) (early : i ∈ p)
    (late : j ∉ p) (member : j ∈ order) : order.idxOf i < order.idxOf j := by
  obtain ⟨rest, rfl⟩ := isPrefix
  have first : (p ++ rest).idxOf i < p.length := by
    rw [List.idxOf_append_of_mem early]
    exact List.idxOf_lt_length_of_mem early
  have second : p.length ≤ (p ++ rest).idxOf j := by
    rw [List.idxOf_append_of_notMem late]
    exact Nat.le_add_right ..
  omega

end Linearize

end PaymentSystem.Theory.Runs
