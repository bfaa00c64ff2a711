/-
# PaymentSystem.Adapters.Crash -- a crash inside a save

`flushToDisk` opens the file, which empties it, and writes the lines in order.  A crash
leaves the old file, or the first `k` characters of the new one (`CrashPoint`).  What
the reader then finds is decided line by line: a whole line, with or without its end,
is a record; one torn inside its first eight fields is skipped; one torn inside its last,
the creation time, throws or reads as a record with another creation time (`load_torn`).

`crash_survived_iff` says at which points of which flushes nothing is lost.
-/
import PaymentSystem.Adapters.FileTransactionRepository

namespace PaymentSystem.Adapters.FileTransactionRepository

open PaymentSystem.Common
open PaymentSystem.Domain
open PaymentSystem.Theory
open PaymentSystem.Theory.Keyed
open PaymentSystem.Theory.Lines

set_option autoImplicit false

/-! ## Torn lines -/

theorem serialize_take_stem {t : Record} {j : Nat} (short : j ≤ (stem t).length) :
    (serialize t).take j = (stem t).take j := List.take_append_of_le_length short

/-- A line torn inside its first eight fields is skipped. -/
theorem Plain.deserialize_short_take {t : Record} (plain : Plain t) {j : Nat}
    (short : j ≤ (stem t).length) : deserialize ((serialize t).take j) = .ok none := by
  rw [serialize_take_stem short]
  apply deserialize_short
  have whole := plain.pieces_stem []
  rw [List.append_nil] at whole
  have fewer := length_pieces_le DELIM ((stem t).take j) ((stem t).drop j)
  rw [List.take_append_drop, whole] at fewer
  simp only [pieces, List.append_nil, List.length_cons, List.length_nil] at fewer
  omega

theorem serialize_take_created {t : Record} {j : Nat} (long : (stem t).length ≤ j) :
    (serialize t).take j = stem t ++ (Decimal.text t.createdAtEpoch.toInt).take (j - (stem t).length) := by
  rw [serialize, List.take_append, List.take_of_length_le long]

/-- A line torn inside its creation time throws, or is the line of another record, which
differs in the creation time alone. -/
theorem Plain.deserialize_torn {t : Record} (plain : Plain t) {j : Nat} (long : (stem t).length < j)
    (torn : j < (serialize t).length) :
    (∃ e, deserialize ((serialize t).take j) = .error e) ∨
      ∃ createdAtEpoch, createdAtEpoch ≠ t.createdAtEpoch ∧
        (serialize t).take j = serialize { t with createdAtEpoch } ∧
        deserialize ((serialize t).take j) = .ok (some { t with createdAtEpoch }) := by
  have length : (serialize t).length = (stem t).length + (Decimal.text t.createdAtEpoch.toInt).length :=
    List.length_append
  have free : DELIM ∉ (Decimal.text t.createdAtEpoch.toInt).take (j - (stem t).length) :=
    fun member => (plain_text _).1 (List.mem_of_mem_take member)
  have some_ : (Decimal.text t.createdAtEpoch.toInt).take (j - (stem t).length) ≠ [] := by
    intro none_
    have zero := congrArg List.length none_
    rw [List.length_take, List.length_nil] at zero
    omega
  rw [serialize_take_created (Nat.le_of_lt long), plain.deserialize_stem free, if_neg some_]
  rcases stoll_take (n := t.createdAtEpoch) (k := j - (stem t).length) (by omega) (by omega) with
    ⟨e, threw⟩ | ⟨m, converted, other, written⟩
  · exact .inl ⟨e, by rw [threw]; rfl⟩
  · refine .inr ⟨m, other, ?_, by rw [converted]; rfl⟩
    rw [serialize, written]
    rfl

/-! ## Files a flush leaves behind -/

theorem flushToDisk_append (xs ys : List Record) :
    flushToDisk (xs ++ ys) = flushToDisk xs ++ flushToDisk ys := by
  simp [flushToDisk]

theorem flushToDisk_singleton (t : Record) : flushToDisk [t] = serialize t ++ ['\n'] := by
  simp [flushToDisk]

/-- Whole lines, and what there is of another. -/
theorem load_torn {before : List Record} {t : Record} (plain : ∀ u ∈ before, Plain u)
    (own : Plain t) (j : Nat) : loadFromDisk (some (flushToDisk before ++ (serialize t).take j)) =
      loadLines (gather Record.id ∅ before)
        (if (serialize t).take j = [] then [] else [(serialize t).take j]) := by
  have free : '\n' ∉ (serialize t).take j := fun member => own.one_line (List.mem_of_mem_take member)
  rw [loadFromDisk, pieces_flush plain, loadLines_append, loadLines_serialized plain,
    pieces_last free]

theorem load_short {before : List Record} {t : Record} (plain : ∀ u ∈ before, Plain u)
    (own : Plain t) {j : Nat} (short : j ≤ (stem t).length) :
    loadFromDisk (some (flushToDisk before ++ (serialize t).take j)) =
      .ok (gather Record.id ∅ before) := by
  rw [load_torn plain own]
  apply loadLines_skipped
  intro line member
  split at member
  · cases member
  · rw [List.mem_singleton.1 member]
    exact own.deserialize_short_take short

/-- The last line there is, if it is anything. -/
theorem load_last {before : List Record} {t : Record} (plain : ∀ u ∈ before, Plain u)
    (own : Plain t) {j : Nat} (some_ : (serialize t).take j ≠ []) :
    loadFromDisk (some (flushToDisk before ++ (serialize t).take j)) =
      match deserialize ((serialize t).take j) with
      | .error e => .error e
      | .ok none => .ok (gather Record.id ∅ before)
      | .ok (some u) => .ok (gather Record.id ∅ (before ++ [u])) := by
  have filled : ((serialize t).take j).isEmpty = false := by
    simpa using some_
  rw [load_torn plain own, if_neg some_, loadLines, filled]
  cases deserialize ((serialize t).take j) with
  | error e => rfl
  | ok r =>
    cases r with
    | none => rfl
    | some u =>
      simp only [gather_append]
      rfl

/-- All the lines, with or without the last newline. -/
theorem load_whole {order : List Record} (plain : ∀ t ∈ order, Plain t) {k : Nat}
    (whole : (flushToDisk order).length ≤ k + 1) :
    loadFromDisk (some ((flushToDisk order).take k)) = .ok (gather Record.id ∅ order) := by
  cases order using List.reverseRecOn with
  | nil =>
    have none_ : (flushToDisk []).take k = [] := List.take_nil
    rw [none_]
    rfl
  | append_singleton before t =>
    have own : Plain t := plain t (by simp)
    have plain' : ∀ u ∈ before, Plain u := fun u member => plain u (by simp [member])
    rw [flushToDisk_append, flushToDisk_singleton] at whole ⊢
    by_cases all : (flushToDisk before ++ (serialize t ++ ['\n'])).length ≤ k
    · rw [List.take_of_length_le all, ← flushToDisk_singleton, ← flushToDisk_append]
      exact load_flush plain
    · have split : (flushToDisk before ++ (serialize t ++ ['\n'])).take k =
          flushToDisk before ++ (serialize t).take (serialize t).length := by
        simp only [List.length_append, List.length_singleton] at whole all
        rw [← List.append_assoc, List.take_append_of_le_length (by rw [List.length_append]; omega),
          List.take_length, List.take_of_length_le (by rw [List.length_append]; omega)]
      rw [split, load_last plain' own (by rw [List.take_length]; exact serialize_ne_nil t),
        List.take_length, deserialize_serialize own]

/-- A flush in the order `order`, stopped after `k` characters: `j` characters into the
line of `t`, or at its end if other lines were to follow. -/
structure Cut (order before : List Record) (t : Record) (after : List Record) (j k : Nat) :
    Prop where
  is : order = before ++ t :: after
  within : j ≤ (serialize t).length
  place : k = (flushToDisk before).length + j
  last : after = [] → j < (serialize t).length
  taken : (flushToDisk order).take k = flushToDisk before ++ (serialize t).take j

theorem cut_of_short {order : List Record} {k : Nat} (short : k + 1 < (flushToDisk order).length) :
    ∃ before t after j, Cut order before t after j k := by
  induction order generalizing k with
  | nil => exact absurd short (Nat.not_lt_zero _)
  | cons t order ih =>
    have split (l : List Record) : flushToDisk (t :: l) = serialize t ++ '\n' :: flushToDisk l := by
      simp [flushToDisk]
    rw [split] at short
    simp only [List.length_append, List.length_cons] at short
    by_cases inside : k ≤ (serialize t).length
    · refine ⟨[], t, order, k, rfl, inside, (Nat.zero_add k).symm, fun last => ?_, ?_⟩
      · subst last
        have none_ : (flushToDisk []).length = 0 := rfl
        omega
      · rw [split, List.take_append_of_le_length inside]
        rfl
    · obtain ⟨i, rfl⟩ : ∃ i, k = (serialize t).length + 1 + i := ⟨k - (serialize t).length - 1, by omega⟩
      obtain ⟨before, u, after, j, cut⟩ := ih (k := i) (by omega)
      refine ⟨t :: before, u, after, j, by rw [cut.is]; rfl, cut.within, ?_, cut.last, ?_⟩
      · have place := cut.place
        rw [split, List.length_append, List.length_cons]
        omega
      · rw [split, split, List.take_append, List.take_of_length_le (by omega),
          show (serialize t).length + 1 + i - (serialize t).length = i + 1 from by omega,
          List.take_succ_cons, cut.taken]
        simp

/-! ## Surviving a crash -/

/-- Where a crash stops the effects of `flushToDisk`. -/
inductive CrashPoint where
  | unopened
  | written (k : Nat)

/-- The file a crash leaves when it stops a flush in the order `order`. -/
def crashed (repo : FileTransactionRepository) (order : List Record) :
    CrashPoint → Option (List Char)
  | .unopened => repo.file
  | .written k => some ((flushToDisk order).take k)

/-- Reopened on `file`, after `saved` and a crash while saving `txn`, the repository has
every other transaction as last saved, and `txn` or its previous version. -/
def Survives (saved : List Transaction) (txn : Transaction) (file : Option (List Char)) : Prop :=
  ∃ reopened, opened file = .ok reopened ∧
    (∀ id, id ≠ txn.id → reopened.find id = (lastSaved saved id).map recordOf) ∧
    (reopened.find txn.id = some (recordOf txn) ∨
      reopened.find txn.id = (lastSaved saved txn.id).map recordOf)

/-- What a flush of `before` and then `txn`, stopped after `k` characters, has written of
the line of `txn`. -/
def remnant (before : List Record) (txn : Transaction) (k : Nat) : List Char :=
  (serialize (recordOf txn)).take (k - (flushToDisk before).length)

/-- The flush is stopped before it starts; or when at most the last newline is missing; or
in the line of `txn`, written last, whose remnant is nothing of its creation time if the
id is new, or else exactly the line of the previous version. -/
def Intact (saved : List Transaction) (txn : Transaction) (order : List Record) : CrashPoint → Prop
  | .unopened => True
  | .written k => (flushToDisk order).length ≤ k + 1 ∨
      ∃ before, order = before ++ [recordOf txn] ∧ (flushToDisk before).length ≤ k + 1 ∧
        (lastSaved saved txn.id = none ∧
            (remnant before txn k).length ≤ (stem (recordOf txn)).length ∨
          ∃ prior, lastSaved saved txn.id = some prior ∧
            remnant before txn k = serialize (recordOf prior))

/-- A save of `txn` under way, after the saves of `saved`. -/
structure Saving (saved : List Transaction) (repo : FileTransactionRepository) (txn : Transaction)
    (order : List Record) : Prop where
  saves : Saves saved repo
  plain : ∀ t ∈ saved, PlainTransaction t
  own : PlainTransaction txn
  iterates : Iterates (repo.assigned txn) order

section Survival

variable {saved : List Transaction} {repo : FileTransactionRepository} {txn : Transaction}
  {order : List Record}

theorem survives_of_load {file : Option (List Char)} {index : Store String Record}
    (loaded : loadFromDisk file = .ok index) : Survives saved txn file ↔
      (∀ id, id ≠ txn.id → index.lookup id = (lastSaved saved id).map recordOf) ∧
        (index.lookup txn.id = some (recordOf txn) ∨
          index.lookup txn.id = (lastSaved saved txn.id).map recordOf) := by
  have is : opened file = .ok ⟨index, file⟩ := by
    rw [opened, loaded]
    rfl
  constructor
  · rintro ⟨reopened, was, others, own⟩
    cases is.symm.trans was
    exact ⟨others, own⟩
  · rintro ⟨others, own⟩
    exact ⟨_, is, others, own⟩

theorem not_survives_of_throw {file : Option (List Char)} {e : ConversionError}
    (threw : loadFromDisk file = .error e) : ¬ Survives saved txn file := by
  rintro ⟨reopened, is, -⟩
  rw [opened, threw] at is
  cases is

/-! ### What the flush is about -/

/-- Every saved transaction, and `txn` in the place of its previous version. -/
theorem Saving.lookup (saving : Saving saved repo txn order) (id : String) :
    (repo.assigned txn).lookup id =
      if txn.id = id then some (recordOf txn) else (lastSaved saved id).map recordOf := by
  have found := saving.saves.find id
  rw [FileTransactionRepository.find] at found
  rw [assigned, ← found]
  exact lookup_insert_self_key Record.id repo.index (recordOf txn) id

theorem Saving.own_keys (saving : Saving saved repo txn order) :
    SelfKeyed Record.id (repo.assigned txn) := saving.saves.own.insert (recordOf txn)

theorem Saving.nodup (saving : Saving saved repo txn order) : (order.map Record.id).Nodup :=
  (saving.iterates.map Record.id).nodup_iff.2 (nodup_values saving.own_keys)

/-- A line of the flush is the line of `txn`, or of another transaction as last saved. -/
theorem Saving.mem (saving : Saving saved repo txn order) {t : Record} (member : t ∈ order) :
    t = recordOf txn ∨ t.id ≠ txn.id ∧ ∃ u ∈ saved, lastSaved saved t.id = some u ∧ recordOf u = t := by
  obtain ⟨id, found⟩ := mem_values.1 (saving.iterates.mem_iff.1 member)
  have same : t.id = id := saving.own_keys id t found
  subst same
  rw [saving.lookup] at found
  split at found
  · cases found
    exact .inl rfl
  · rename_i other
    obtain ⟨u, last, is⟩ := Option.map_eq_some_iff.1 found
    exact .inr ⟨Ne.symm other, u, (latest_mem last).1, last, is⟩

theorem Saving.plain_lines (saving : Saving saved repo txn order) : ∀ t ∈ order, Plain t := by
  intro t member
  rcases saving.mem member with rfl | ⟨-, u, among, -, rfl⟩
  · exact saving.own
  · exact saving.plain u among

/-- Of a survivor's index only the line of `txn` may be missing. -/
theorem Saving.missing (saving : Saving saved repo txn order) {index : Store String Record}
    (others : ∀ id, id ≠ txn.id → index.lookup id = (lastSaved saved id).map recordOf) {t : Record}
    (member : t ∈ order) (missing : index.lookup t.id ≠ some t) : t = recordOf txn := by
  rcases saving.mem member with is | ⟨other, u, -, last, is⟩
  · exact is
  · rw [others t.id other, last, ← is] at missing
    exact absurd rfl missing

/-- Under distinct ids, what stands later is not found earlier. -/
theorem lookup_before {xs ys : List Record} (nodup : ((xs ++ ys).map Record.id).Nodup) {u : Record}
    (member : u ∈ ys) : (gather Record.id ∅ xs).lookup u.id = none := by
  rw [lookup_gather_empty]
  refine latest_eq_none.2 fun t there same => ?_
  rw [List.map_append, List.nodup_append] at nodup
  exact nodup.2.2 _ (List.mem_map_of_mem there) _ (List.mem_map_of_mem member) same

/-- Under distinct ids, a list of nothing but `a` holds it once at most. -/
theorem nil_or_singleton {l : List Record} (nodup : (l.map Record.id).Nodup) {a : Record}
    (all : ∀ u ∈ l, u = a) : l = [] ∨ l = [a] := by
  match l with
  | [] => exact .inl rfl
  | [u] => exact .inr (by rw [all u List.mem_cons_self])
  | u :: v :: rest =>
    have same : u = v := (all u (by simp)).trans (all v (by simp)).symm
    simp [same] at nodup

/-- If all the lines of a tail are missing from a survivor, they are at most the one
line of `txn`, and its id is new. -/
theorem Saving.lost_tail (saving : Saving saved repo txn order) {xs ys : List Record}
    (is : order = xs ++ ys) (some_ : ys ≠ [])
    (others : ∀ id, id ≠ txn.id → (gather Record.id ∅ xs).lookup id = (lastSaved saved id).map recordOf)
    (found : (gather Record.id ∅ xs).lookup txn.id = some (recordOf txn) ∨
      (gather Record.id ∅ xs).lookup txn.id = (lastSaved saved txn.id).map recordOf) :
    ys = [recordOf txn] ∧ lastSaved saved txn.id = none := by
  have nodup := saving.nodup
  rw [is] at nodup
  have lost : ∀ u ∈ ys, (gather Record.id ∅ xs).lookup u.id = none := fun u => lookup_before nodup
  have all : ∀ u ∈ ys, u = recordOf txn := by
    intro u member
    refine saving.missing others (by rw [is]; exact List.mem_append_right _ member) ?_
    rw [lost u member]
    exact Option.some_ne_none u ∘ Eq.symm
  rw [List.map_append] at nodup
  obtain rfl := (nil_or_singleton (List.nodup_append.1 nodup).2.1 all).resolve_left some_
  have gone : (gather Record.id ∅ xs).lookup txn.id = none := lost (recordOf txn) List.mem_cons_self
  rw [gone] at found
  rcases found with own | none_
  · cases own
  · exact ⟨rfl, Option.map_eq_none_iff.1 none_.symm⟩

/-! ### Where nothing is lost -/

variable {before after : List Record} {t : Record} {j k : Nat}

/-- The torn line is skipped, and with it all after it. -/
theorem Cut.intact_short (cut : Cut order before t after j k) (saving : Saving saved repo txn order)
    (short : j ≤ (stem t).length)
    (survives : Survives saved txn (some (flushToDisk before ++ (serialize t).take j))) :
    Intact saved txn order (.written k) := by
  have lines : ∀ u ∈ before, Plain u := fun u member => saving.plain_lines u (by simp [cut.is, member])
  have line : Plain t := saving.plain_lines t (by simp [cut.is])
  obtain ⟨others, found⟩ := (survives_of_load (load_short lines line short)).1 survives
  obtain ⟨one, new⟩ := saving.lost_tail cut.is (List.cons_ne_nil _ _) others found
  obtain ⟨rfl, rfl⟩ := List.cons.inj one
  have place := cut.place
  refine .inr ⟨before, cut.is, by omega, .inl ⟨new, ?_⟩⟩
  rw [remnant, List.length_take]
  omega

/-- A whole line without its end: what is missing are the lines after it. -/
theorem Cut.intact_line (cut : Cut order before t after (serialize t).length k)
    (saving : Saving saved repo txn order)
    (survives : Survives saved txn
      (some (flushToDisk before ++ (serialize t).take (serialize t).length))) :
    Intact saved txn order (.written k) := by
  have lines : ∀ u ∈ before, Plain u := fun u member => saving.plain_lines u (by simp [cut.is, member])
  have line : Plain t := saving.plain_lines t (by simp [cut.is])
  have loaded := load_last lines line (j := (serialize t).length) (by
    rw [List.take_length]
    exact serialize_ne_nil t)
  rw [List.take_length, deserialize_serialize line] at loaded
  rw [List.take_length] at survives
  obtain ⟨others, found⟩ := (survives_of_load loaded).1 survives
  have split : order = (before ++ [t]) ++ after := by
    rw [cut.is, List.append_assoc, List.singleton_append]
  obtain ⟨rfl, new⟩ := saving.lost_tail split (fun none_ => absurd (cut.last none_) (lt_irrefl _))
    others found
  have place := cut.place
  have length : (flushToDisk (before ++ [t])).length = k + 1 := by
    rw [flushToDisk_append, flushToDisk_singleton, List.length_append, List.length_append,
      List.length_singleton]
    omega
  refine .inr ⟨before ++ [t], split, by omega, .inl ⟨new, ?_⟩⟩
  rw [remnant, length, List.length_take]
  omega

/-- Torn inside its creation time, the line throws or reads as another record, which can
only be the previous version. -/
theorem Cut.intact_created (cut : Cut order before t after j k) (saving : Saving saved repo txn order)
    (long : (stem t).length < j) (torn : j < (serialize t).length)
    (survives : Survives saved txn (some (flushToDisk before ++ (serialize t).take j))) :
    Intact saved txn order (.written k) := by
  have lines : ∀ u ∈ before, Plain u := fun u member => saving.plain_lines u (by simp [cut.is, member])
  have line : Plain t := saving.plain_lines t (by simp [cut.is])
  have loaded := load_last lines line (j := j) (by
    intro none_
    have zero := congrArg List.length none_
    rw [List.length_take, List.length_nil] at zero
    omega)
  rcases line.deserialize_torn long torn with ⟨e, threw⟩ | ⟨createdAtEpoch, other, written, read_⟩
  · rw [threw] at loaded
    exact absurd survives (not_survives_of_throw loaded)
  rw [read_] at loaded
  obtain ⟨others, found⟩ := (survives_of_load loaded).1 survives
  have there : (gather Record.id ∅ (before ++ [{ t with createdAtEpoch }])).lookup t.id =
      some { t with createdAtEpoch } := by
    rw [lookup_gather_empty, latest_snoc, if_pos rfl]
  have changed : some ({ t with createdAtEpoch } : Record) ≠ some t := fun same =>
    other (congrArg Record.createdAtEpoch (Option.some.inj same))
  obtain rfl : t = recordOf txn := saving.missing others (by simp [cut.is]) (by rwa [there])
  -- nothing can come after it: it would be missing too
  have nodup : ((before ++ { recordOf txn with createdAtEpoch } :: after).map Record.id).Nodup := by
    have nodup := saving.nodup
    rw [cut.is] at nodup
    simpa using nodup
  have alone : after = [] := by
    refine List.eq_nil_iff_forall_not_mem.2 fun u member => ?_
    have is : u = recordOf txn := by
      refine saving.missing others (by simp [cut.is, member]) ?_
      rw [← List.singleton_append, ← List.append_assoc] at nodup
      rw [lookup_before nodup member]
      exact Option.some_ne_none u ∘ Eq.symm
    have nodup' := saving.nodup
    rw [cut.is, List.map_append, List.map_cons] at nodup'
    refine (List.nodup_cons.1 (List.nodup_append.1 nodup').2.1).1 ?_
    rw [← is]
    exact List.mem_map_of_mem member
  subst alone
  have place := cut.place
  have stopped : k - (flushToDisk before).length = j := by omega
  refine .inr ⟨before, cut.is, by omega, .inr ?_⟩
  rcases found with same | same
  · exact absurd (there.symm.trans same) changed
  · obtain ⟨prior, saved_, is⟩ := Option.map_eq_some_iff.1 (same.symm.trans there)
    exact ⟨prior, saved_, by rw [remnant, stopped, written, is]⟩

theorem intact_of_survives (saving : Saving saved repo txn order)
    (survives : Survives saved txn (crashed repo order (.written k))) :
    Intact saved txn order (.written k) := by
  by_cases whole : (flushToDisk order).length ≤ k + 1
  · exact .inl whole
  obtain ⟨before, t, after, j, cut⟩ := cut_of_short (Nat.not_le.1 whole)
  rw [crashed, cut.taken] at survives
  by_cases short : j ≤ (stem t).length
  · exact cut.intact_short saving short survives
  · by_cases full : j = (serialize t).length
    · subst full
      exact cut.intact_line saving survives
    · have within := cut.within
      exact cut.intact_created saving (Nat.not_le.1 short) (by omega) survives

/-! ### Where it is not, nothing is lost -/

theorem Saving.lookup_order (saving : Saving saved repo txn order) (id : String) :
    (gather Record.id ∅ order).lookup id =
      if txn.id = id then some (recordOf txn) else (lastSaved saved id).map recordOf := by
  rw [lookup_gather_values saving.own_keys saving.iterates, saving.lookup]

/-- The lines before that of `txn` are all the others. -/
theorem Saving.lookup_others (saving : Saving saved repo txn order)
    (is : order = before ++ [recordOf txn]) {id : String} (other : id ≠ txn.id) :
    (gather Record.id ∅ before).lookup id = (lastSaved saved id).map recordOf := by
  have all := saving.lookup_order id
  rw [is, lookup_gather_empty, latest_snoc, recordOf_id, if_neg (Ne.symm other),
    if_neg (Ne.symm other)] at all
  rw [lookup_gather_empty, all]

theorem survives_of_intact (saving : Saving saved repo txn order)
    (intact : Intact saved txn order (.written k)) :
    Survives saved txn (crashed repo order (.written k)) := by
  have lines := saving.plain_lines
  by_cases whole : (flushToDisk order).length ≤ k + 1
  · refine (survives_of_load (load_whole lines whole)).2 ⟨fun id other => ?_, .inl ?_⟩
    · rw [saving.lookup_order, if_neg (Ne.symm other)]
    · rw [saving.lookup_order, if_pos rfl]
  obtain ⟨before, is, reached, left⟩ := intact.resolve_left whole
  have lines' : ∀ u ∈ before, Plain u := fun u member => lines u (by simp [is, member])
  have nodup := saving.nodup
  rw [is] at nodup
  have new : (gather Record.id ∅ before).lookup txn.id = none :=
    lookup_before nodup (List.mem_singleton.2 (rfl : recordOf txn = recordOf txn))
  have split : flushToDisk order = flushToDisk before ++ (serialize (recordOf txn) ++ ['\n']) := by
    rw [is, flushToDisk_append, flushToDisk_singleton]
  have length := congrArg List.length split
  rw [List.length_append, List.length_append, List.length_singleton] at length
  -- nothing of the line of `txn`, which is new
  have survives {file : Option (List Char)} (loaded : loadFromDisk file = .ok (gather Record.id ∅ before))
      (absent : lastSaved saved txn.id = none) : Survives saved txn file := by
    refine (survives_of_load loaded).2 ⟨fun id other => saving.lookup_others is other, .inr ?_⟩
    rw [new, absent]
    rfl
  by_cases ended : k < (flushToDisk before).length
  · have file : crashed repo order (.written k) = some ((flushToDisk before).take k) := by
      rw [crashed, split, List.take_append_of_le_length (Nat.le_of_lt ended)]
    have nothing : remnant before txn k = [] := by
      rw [remnant, Nat.sub_eq_zero_of_le (Nat.le_of_lt ended), List.take_zero]
    rcases left with ⟨absent, -⟩ | ⟨prior, -, there⟩
    · rw [file]
      exact survives (load_whole lines' reached) absent
    · exact absurd (there.symm.trans nothing) (serialize_ne_nil _)
  · have file : crashed repo order (.written k) =
        some (flushToDisk before ++ remnant before txn k) := by
      rw [crashed, remnant, split, List.take_append, List.take_of_length_le (by omega),
        List.take_append_of_le_length (by omega)]
    rw [file]
    rcases left with ⟨absent, short⟩ | ⟨prior, last, there⟩
    · rw [remnant, List.length_take] at short
      exact survives (load_short lines' saving.own (by omega)) absent
    · have among := (latest_mem last).1
      have loaded := load_last lines' saving.own (j := k - (flushToDisk before).length) (by
        rw [← remnant, there]
        exact serialize_ne_nil _)
      rw [← remnant, there, deserialize_serialize (saving.plain prior among)] at loaded
      rw [there]
      have same : (recordOf prior).id = txn.id := (latest_mem last).2
      refine (survives_of_load loaded).2 ⟨fun id other => ?_, .inr ?_⟩
      · rw [lookup_gather_empty, latest_snoc, if_neg (by rw [same]; exact Ne.symm other),
          ← lookup_gather_empty]
        exact saving.lookup_others is other
      · rw [lookup_gather_empty, latest_snoc, if_pos same, last]
        rfl

/-- **Which crashes lose nothing**: exactly those `Intact` names. -/
theorem crash_survived_iff (saves : Saves saved repo) (plain : ∀ t ∈ saved, PlainTransaction t)
    (own : PlainTransaction txn) (iterates : Iterates (repo.assigned txn) order)
    (point : CrashPoint) :
    Survives saved txn (crashed repo order point) ↔ Intact saved txn order point := by
  have saving : Saving saved repo txn order := ⟨saves, plain, own, iterates⟩
  cases point with
  | unopened =>
    refine iff_of_true ?_ trivial
    obtain ⟨read, loaded, same⟩ := saves.backs plain
    exact (survives_of_load loaded).2
      ⟨fun id _ => (same id).trans (saves.find id), .inr ((same _).trans (saves.find _))⟩
  | written k => exact ⟨intact_of_survives saving, survives_of_intact saving⟩

end Survival

/-- A second payment, whose id is new. -/
def another : Transaction := ⟨"txn_2", "k-txn_2", "p", "m", ⟨100, .inr⟩, .upi, .captured, 1⟩

/-- Stopped just after the file was opened, the save of another transaction loses the
one that was there. -/
theorem crash_loses_durable : ∃ repo order, Saves [persisted .captured] repo ∧
    PlainTransaction (persisted .captured) ∧ PlainTransaction another ∧
    Iterates (repo.assigned another) order ∧
    ¬ Survives [persisted .captured] another (crashed repo order (.written 0)) := by
  have saves := Saves.fresh.inOrder (persisted .captured)
  refine ⟨_, _, saves, by decide, by decide, List.Perm.refl _, ?_⟩
  have empty : loadFromDisk (some []) = .ok ∅ := rfl
  rw [show crashed _ _ (.written 0) = some [] from rfl, survives_of_load empty]
  rintro ⟨others, -⟩
  have lost := others "txn_persist" (by decide)
  rw [AList.lookup_empty] at lost
  exact absurd lost (by decide)

/-- Stopped in the line of a new transaction, written last, before its creation time. -/
theorem crash_survived_iff_short : ∃ repo, Saves [persisted .captured] repo ∧
    (Survives [persisted .captured] another
        (crashed repo [recordOf (persisted .captured), recordOf another] (.written 60)) ↔
      Intact [persisted .captured] another
        [recordOf (persisted .captured), recordOf another] (.written 60)) ∧
    Intact [persisted .captured] another
        [recordOf (persisted .captured), recordOf another] (.written 60) := by
  have saves := Saves.fresh.inOrder (persisted .captured)
  refine ⟨_, saves, ?_, .inr ⟨[recordOf (persisted .captured)], rfl, by decide +kernel,
    .inl ⟨by decide, by decide +kernel⟩⟩⟩
  exact crash_survived_iff saves (by decide) (by decide) (by decide) (.written 60)

end PaymentSystem.Adapters.FileTransactionRepository
