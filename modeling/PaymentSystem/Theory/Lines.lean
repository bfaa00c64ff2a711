/-
# PaymentSystem.Theory.Lines -- delimited text, piece by piece

`getline delim` takes the next piece off the front of a text: up to the delimiter, which
it drops, or to the end.  On an empty text it fails; so a delimiter at the very end
leaves no further piece.  `pieces` is what it yields until it fails
(`pieces_eq_getline`).

Writing pieces, each with its delimiter, and cutting the text again gives the pieces
back (`pieces_terminated`); pieces that hold the delimiter themselves come apart, but
never run into their neighbours (`pieces_terminated_any`).
-/
import Mathlib.Data.List.Basic

namespace PaymentSystem.Theory.Lines

set_option autoImplicit false

variable {α : Type} [DecidableEq α]

/-- The next piece, and the text after it. -/
def getline (delim : α) : List α → Option (List α × List α)
  | [] => none
  | c :: s =>
    if c = delim then some ([], s)
    else match getline delim s with
      | none => some ([c], [])
      | some (line, rest) => some (c :: line, rest)

/-- All pieces, in order. -/
def pieces (delim : α) : List α → List (List α)
  | [] => []
  | c :: s =>
    if c = delim then [] :: pieces delim s
    else match pieces delim s with
      | [] => [[c]]
      | line :: lines => (c :: line) :: lines

/-- The pieces are what `getline` yields, one after another. -/
theorem pieces_eq_getline (delim : α) (s : List α) : pieces delim s =
    match getline delim s with
    | none => []
    | some (line, rest) => line :: pieces delim rest := by
  induction s with
  | nil => rfl
  | cons c s ih =>
    rw [pieces, getline]
    by_cases same : c = delim
    · rw [if_pos same, if_pos same]
    · rw [if_neg same, if_neg same, ih]
      cases getline delim s with
      | none => rfl
      | some r => rfl

theorem getline_eq_none {delim : α} {s : List α} : getline delim s = none ↔ s = [] := by
  cases s with
  | nil => simp [getline]
  | cons c s =>
    rw [getline]
    split
    · simp
    · split <;> simp

omit [DecidableEq α] in
/-- A piece without the delimiter ends at the first one. -/
theorem append_delim_inj {delim : α} {xs ys s t : List α} (plain : delim ∉ xs) (plain' : delim ∉ ys)
    (same : xs ++ delim :: s = ys ++ delim :: t) : xs = ys ∧ s = t := by
  induction xs generalizing ys with
  | nil =>
    cases ys with
    | nil => exact ⟨rfl, (List.cons.inj same).2⟩
    | cons y ys => exact absurd (List.cons.inj same).1 (List.ne_of_not_mem_cons plain')
  | cons x xs ih =>
    cases ys with
    | nil => exact absurd (List.cons.inj same).1.symm (List.ne_of_not_mem_cons plain)
    | cons y ys =>
      obtain ⟨rfl, tail⟩ := List.cons.inj same
      obtain ⟨rfl, rest⟩ := ih (List.not_mem_of_not_mem_cons plain)
        (List.not_mem_of_not_mem_cons plain') tail
      exact ⟨rfl, rest⟩

/-- There is a next piece exactly when the pieces start with one. -/
theorem getline_of_pieces {delim : α} {s line : List α} {lines : List (List α)}
    (cut : pieces delim s = line :: lines) :
    ∃ rest, getline delim s = some (line, rest) ∧ pieces delim rest = lines := by
  rw [pieces_eq_getline] at cut
  cases got : getline delim s with
  | none =>
    rw [got] at cut
    cases cut
  | some r =>
    rw [got] at cut
    obtain ⟨first, later⟩ := List.cons.inj cut
    exact ⟨r.2, by rw [← first], later⟩

theorem getline_of_pieces_nil {delim : α} {s : List α} (cut : pieces delim s = []) :
    getline delim s = none := by
  rw [pieces_eq_getline] at cut
  cases got : getline delim s with
  | none => rfl
  | some r =>
    rw [got] at cut
    cases cut

/-- No piece holds the delimiter. -/
theorem pieces_free {delim : α} {s : List α} : ∀ line ∈ pieces delim s, delim ∉ line := by
  induction s with
  | nil => exact nofun
  | cons c s ih =>
    rw [pieces]
    split
    · rw [List.forall_mem_cons]
      exact ⟨List.not_mem_nil, ih⟩
    · rename_i other
      cases cut : pieces delim s with
      | nil =>
        rw [List.forall_mem_singleton, List.mem_singleton]
        exact Ne.symm other
      | cons line lines =>
        rw [cut] at ih
        obtain ⟨first, later⟩ := List.forall_mem_cons.1 ih
        rw [List.forall_mem_cons, List.mem_cons, not_or]
        exact ⟨⟨Ne.symm other, first⟩, later⟩

/-- A text starts with no more pieces than it has. -/
theorem length_pieces_le (delim : α) (s rest : List α) :
    (pieces delim s).length ≤ (pieces delim (s ++ rest)).length := by
  induction s with
  | nil => exact Nat.zero_le _
  | cons c s ih =>
    rw [List.cons_append, pieces, pieces]
    split
    · simpa using ih
    · revert ih
      cases pieces delim s with
      | nil =>
        intro _
        cases pieces delim (s ++ rest) <;> simp
      | cons line lines =>
        cases pieces delim (s ++ rest) <;> simp

/-! ## Cutting what was written -/

/-- Every piece with its delimiter after it. -/
def terminated (delim : α) (lines : List (List α)) : List α := lines.flatMap (· ++ [delim])

omit [DecidableEq α] in
@[simp] theorem terminated_nil (delim : α) : terminated delim [] = [] := rfl

omit [DecidableEq α] in
@[simp] theorem terminated_cons (delim : α) (line : List α) (lines : List (List α)) :
    terminated delim (line :: lines) = line ++ delim :: terminated delim lines := by
  simp [terminated]

omit [DecidableEq α] in
@[simp] theorem terminated_append (delim : α) (xs ys : List (List α)) :
    terminated delim (xs ++ ys) = terminated delim xs ++ terminated delim ys := by
  simp [terminated]

/-- A piece ends at its delimiter. -/
theorem pieces_line {delim : α} {line : List α} (free : delim ∉ line) (rest : List α) :
    pieces delim (line ++ delim :: rest) = line :: pieces delim rest := by
  induction line with
  | nil => rw [List.nil_append, pieces, if_pos rfl]
  | cons c line ih =>
    rw [List.mem_cons, not_or] at free
    rw [List.cons_append, pieces, if_neg (Ne.symm free.1), ih free.2]

/-- The last piece ends with the text, unless there is nothing left for it. -/
theorem pieces_last {delim : α} {last : List α} (free : delim ∉ last) :
    pieces delim last = if last = [] then [] else [last] := by
  induction last with
  | nil => rfl
  | cons c last ih =>
    rw [List.mem_cons, not_or] at free
    rw [pieces, if_neg (Ne.symm free.1), ih free.2, if_neg (List.cons_ne_nil _ _)]
    by_cases none_ : last = []
    · rw [if_pos none_, none_]
    · rw [if_neg none_]

/-- **Pieces written with their delimiters are cut where they were joined.** -/
theorem pieces_terminated {delim : α} {lines : List (List α)} (free : ∀ line ∈ lines, delim ∉ line)
    (rest : List α) : pieces delim (terminated delim lines ++ rest) = lines ++ pieces delim rest := by
  induction lines with
  | nil => rfl
  | cons line lines ih =>
    rw [terminated_cons, List.append_assoc, List.cons_append,
      pieces_line (free line List.mem_cons_self),
      ih fun l member => free l (List.mem_cons_of_mem _ member), List.cons_append]

/-- What stands before a delimiter is cut by itself. -/
theorem pieces_append (delim : α) (s rest : List α) :
    pieces delim (s ++ delim :: rest) = pieces delim (s ++ [delim]) ++ pieces delim rest := by
  induction s with
  | nil => simp [pieces]
  | cons c s ih =>
    rw [List.cons_append, List.cons_append, pieces, pieces]
    by_cases same : c = delim
    · rw [if_pos same, if_pos same, ih, List.cons_append]
    · rw [if_neg same, if_neg same, ih]
      cases before : pieces delim (s ++ [delim]) with
      | nil =>
        have none_ := getline_of_pieces_nil before
        rw [getline_eq_none] at none_
        exact absurd none_ (by simp)
      | cons line lines => rfl

/-- What is written as one piece is cut into at least one. -/
theorem length_pieces_terminated (delim : α) (lines : List (List α)) (rest : List α) :
    lines.length + (pieces delim rest).length ≤
      (pieces delim (terminated delim lines ++ rest)).length := by
  induction lines with
  | nil => simp
  | cons line lines ih =>
    have some_ : pieces delim (line ++ [delim]) ≠ [] := by
      intro none_
      have empty := getline_eq_none.1 (getline_of_pieces_nil none_)
      simp at empty
    have positive := List.length_pos_of_ne_nil some_
    rw [terminated_cons, List.append_assoc, List.cons_append, pieces_append, List.length_append,
      List.length_cons]
    omega

/-- **Pieces that hold the delimiter come apart by themselves.** -/
theorem pieces_terminated_any (delim : α) (lines : List (List α)) :
    pieces delim (terminated delim lines) =
      lines.flatMap fun line => pieces delim (line ++ [delim]) := by
  induction lines with
  | nil => rfl
  | cons line lines ih =>
    rw [terminated_cons, pieces_append, ih, List.flatMap_cons]

end PaymentSystem.Theory.Lines
