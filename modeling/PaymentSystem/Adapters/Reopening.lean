/-
# PaymentSystem.Adapters.Reopening -- what is read back, whatever was saved

Nothing checks that the strings of a transaction are free of tabs and newlines, so its
text may break into lines of any shape (`ownLines`), and `loadFromDisk` reads each by
itself.  A flush ends every text with a newline, so no line runs from one text into the
next: the file reads as its texts read one by one, the last record under an id winning.

`Contained` is the condition on one text that keeps the file from holding anything but
what was saved (`Unforged`).  It is enough for every text of a file
(`unforged_of_contained`), needed of the last (`contained_of_unforged`), and a text on
one line meets it exactly when it has no tabs to spare (`contained_iff_plain`).

`reopened` is the index of a reopened repository as transactions, where every record has
declared enums.
-/
import PaymentSystem.Adapters.FileTransactionRepository
import Mathlib.Data.Set.List

namespace PaymentSystem.Adapters.FileTransactionRepository

open PaymentSystem.Common
open PaymentSystem.Domain
open PaymentSystem.Theory
open PaymentSystem.Theory.Keyed
open PaymentSystem.Theory.Lines

set_option autoImplicit false

/-! ## Lines, one by one -/

/-- Reading the line does not throw. -/
def Readable (line : List Char) : Prop := ∃ r, deserialize line = .ok r

instance (line : List Char) : Decidable (Readable line) :=
  match read : deserialize line with
  | .ok r => .isTrue ⟨r, read⟩
  | .error _ => .isFalse fun ⟨_, is⟩ => nomatch read.symm.trans is

/-- The record a line reads as, if it reads as one. -/
def entry (line : List Char) : Option Record :=
  match deserialize line with
  | .ok r => r
  | .error _ => none

theorem loadLines_readable {index : Store String Record} {lines : List (List Char)}
    (readable : ∀ line ∈ lines, Readable line) :
    loadLines index lines = .ok (gather Record.id index (lines.filterMap entry)) := by
  induction lines generalizing index with
  | nil => rfl
  | cons line lines ih =>
    obtain ⟨⟨r, read⟩, later⟩ := List.forall_mem_cons.1 readable
    have first : entry line = r := by rw [entry, read]
    cases r with
    | none =>
      rw [loadLines, read, List.filterMap_cons_none first, ih later]
      split <;> rfl
    | some t =>
      have nonempty : line.isEmpty = false := by
        cases line with
        | nil => cases read
        | cons c line => rfl
      rw [loadLines, read, nonempty, List.filterMap_cons_some first]
      exact ih later

theorem readable_of_loadLines {index read : Store String Record} {lines : List (List Char)}
    (loaded : loadLines index lines = .ok read) : ∀ line ∈ lines, Readable line := by
  induction lines generalizing index with
  | nil => exact nofun
  | cons line lines ih =>
    rw [List.forall_mem_cons]
    rw [loadLines] at loaded
    split at loaded
    · rename_i empty
      obtain rfl := List.isEmpty_iff.1 empty
      exact ⟨⟨none, rfl⟩, ih loaded⟩
    · split at loaded
      · cases loaded
      · rename_i found
        exact ⟨⟨none, found⟩, ih loaded⟩
      · rename_i t found
        exact ⟨⟨some t, found⟩, ih loaded⟩

/-- Whatever a load gives is stored under its own id. -/
theorem loadFromDisk_own {file : Option (List Char)} {read : Store String Record}
    (loaded : loadFromDisk file = .ok read) : SelfKeyed Record.id read := by
  cases file with
  | none =>
    cases loaded
    exact selfKeyed_empty _
  | some bytes =>
    have all := readable_of_loadLines loaded
    rw [loadFromDisk, loadLines_readable all] at loaded
    cases loaded
    exact (selfKeyed_empty _).gather _

/-! ## Texts, one by one -/

/-- The lines the text of a record breaks into. -/
def ownLines (t : Record) : List (List Char) := pieces '\n' (serialize t ++ ['\n'])

/-- The records they read as. -/
def ownEntries (t : Record) : List Record := (ownLines t).filterMap entry

/-- **No line runs from one text into the next.** -/
theorem pieces_flush_any (order : List Record) :
    pieces '\n' (flushToDisk order) = order.flatMap ownLines := by
  rw [flushToDisk, pieces_terminated_any, List.flatMap_map]
  rfl

theorem ownLines_one {t : Record} (one : '\n' ∉ serialize t) : ownLines t = [serialize t] :=
  pieces_line one []

/-- Reopening does not throw, and whatever the repository then holds was saved. -/
def Unforged (saved : List Transaction) (file : Option (List Char)) : Prop :=
  ∃ read, loadFromDisk file = .ok read ∧
    ∀ id r, read.lookup id = some r → r ∈ saved.map recordOf

/-- None of the lines of a text throws, and the last record they read as, under each id,
was saved. -/
structure Contained (saved : List Transaction) (t : Record) : Prop where
  readable : ∀ line ∈ ownLines t, Readable line
  own : ∀ r ∈ ownEntries t, latest Record.id (ownEntries t) r.id = some r → r ∈ saved.map recordOf

instance (saved : List Transaction) (t : Record) : Decidable (Contained saved t) :=
  decidable_of_iff ((∀ line ∈ ownLines t, Readable line) ∧ ∀ r ∈ ownEntries t,
      latest Record.id (ownEntries t) r.id = some r → r ∈ saved.map recordOf)
    ⟨fun ⟨readable, own⟩ => ⟨readable, own⟩, fun ⟨readable, own⟩ => ⟨readable, own⟩⟩

theorem Contained.mono {saved saved' : List Transaction} {t : Record}
    (contained : Contained saved t) (more : ∀ u ∈ saved, u ∈ saved') : Contained saved' t := by
  refine ⟨contained.readable, fun r among last => ?_⟩
  obtain ⟨u, member, is⟩ := List.mem_map.1 (contained.own r among last)
  exact List.mem_map.2 ⟨u, more u member, is⟩

/-- What a flush reads back as, when no line of it throws. -/
theorem load_flush_readable {order : List Record}
    (readable : ∀ t ∈ order, ∀ line ∈ ownLines t, Readable line) :
    loadFromDisk (some (flushToDisk order)) =
      .ok (gather Record.id ∅ (order.flatMap ownEntries)) := by
  have all : ∀ line ∈ order.flatMap ownLines, Readable line := by
    intro line member
    obtain ⟨t, among, own⟩ := List.mem_flatMap.1 member
    exact readable t among line own
  rw [loadFromDisk, pieces_flush_any, loadLines_readable all, List.filterMap_flatMap]
  rfl

/-- **Where every text is contained, the file is unforged.** -/
theorem unforged_of_contained {saved : List Transaction} {order : List Record}
    (contained : ∀ t ∈ order, Contained saved t) : Unforged saved (some (flushToDisk order)) := by
  refine ⟨_, load_flush_readable fun t member => (contained t member).readable, fun id r found => ?_⟩
  rw [lookup_gather_empty] at found
  obtain ⟨t, member, last⟩ := latest_flatMap found
  obtain ⟨among, rfl⟩ := latest_mem last
  exact (contained t member).own r among last

/-- **In an unforged file the last text is contained.** -/
theorem contained_of_unforged {saved : List Transaction} {before : List Record} {t : Record}
    (unforged : Unforged saved (some (flushToDisk (before ++ [t])))) : Contained saved t := by
  obtain ⟨read, loaded, held⟩ := unforged
  have all : ∀ line ∈ (before ++ [t]).flatMap ownLines, Readable line := by
    rw [← pieces_flush_any]
    exact readable_of_loadLines loaded
  have readable : ∀ u ∈ before ++ [t], ∀ line ∈ ownLines u, Readable line :=
    fun u member line own => all line (List.mem_flatMap.2 ⟨u, member, own⟩)
  rw [load_flush_readable readable] at loaded
  cases loaded
  refine ⟨readable t (by simp), fun r among last => held r.id r ?_⟩
  rw [lookup_gather_empty, List.flatMap_append, latest_append, List.flatMap_singleton, last]
  rfl

/-! ## Which texts are contained -/

/-- The strings of a record read are the first four pieces of its line. -/
theorem pieces_of_deserialize {line : List Char} {r : Record}
    (read : deserialize line = .ok (some r)) :
    ∃ more, pieces DELIM line = r.id.toList :: r.idempotencyKey.toList ::
      r.payerAccountId.toList :: r.payeeAccountId.toList :: more := by
  unfold deserialize at read
  split at read
  · cases read
  · rename_i f found
    obtain ⟨more, cut⟩ := pieces_of_readFields found
    cases converted : f.convert with
    | error e =>
      rw [converted] at read
      cases read
    | ok r' =>
      rw [converted] at read
      cases read
      unfold Fields.convert at converted
      simp only [bind, Except.bind, pure, Except.pure] at converted
      repeat' split at converted
      all_goals cases converted
      simp only [String.toList_ofList]
      exact ⟨_, cut⟩

/-- A text has fields enough. -/
theorem nine_pieces (t : Record) : 9 ≤ (pieces DELIM (serialize t)).length := by
  have enough := length_pieces_terminated DELIM [t.id.toList, t.idempotencyKey.toList,
    t.payerAccountId.toList, t.payeeAccountId.toList, Decimal.text t.minorUnits.toInt,
    Decimal.text t.currency.toInt, Decimal.text t.method.toInt, Decimal.text t.status.toInt]
    (Decimal.text t.createdAtEpoch.toInt)
  rw [pieces_last (plain_text _).1, if_neg (Decimal.text_ne_nil _)] at enough
  exact enough

theorem entry_of_pieces {line : List Char} (readable : Readable line)
    (enough : 9 ≤ (pieces DELIM line).length) : ∃ r, deserialize line = .ok (some r) := by
  obtain ⟨r, read⟩ := readable
  cases r with
  | some r => exact ⟨r, read⟩
  | none =>
    unfold deserialize at read
    split at read
    · rename_i none_
      match cut : pieces DELIM line, enough with
      | id :: key :: payer :: payee :: minor :: ccy :: method :: status :: created :: more, _ =>
        rw [readFields_of_pieces (f := ⟨id, key, payer, payee, minor, ccy, method, status, created⟩)
          cut] at none_
        cases none_
    · rename_i f found
      cases converted : f.convert <;> rw [converted] at read <;> cases read

theorem contained_of_plain {saved : List Transaction} {t : Record} (plain : Plain t)
    (own : t ∈ saved.map recordOf) : Contained saved t := by
  have entries : ownEntries t = [t] := by
    have read : entry (serialize t) = some t := by rw [entry, deserialize_serialize plain]
    rw [ownEntries, ownLines_one plain.one_line, List.filterMap_cons_some read, List.filterMap_nil]
  refine ⟨?_, ?_⟩
  · rw [ownLines_one plain.one_line, List.forall_mem_singleton]
    exact ⟨_, deserialize_serialize plain⟩
  · rw [entries, List.forall_mem_singleton]
    exact fun _ => own

/-- **A text on one line is contained exactly when it is plain**, where nothing else was
saved under its id. -/
theorem contained_iff_plain {saved : List Transaction} {t : Record} (one : '\n' ∉ serialize t)
    (minted : DELIM ∉ t.id.toList) (own : t ∈ saved.map recordOf)
    (sole : ∀ u ∈ saved, u.id = t.id → recordOf u = t) : Contained saved t ↔ Plain t := by
  refine ⟨fun contained => ?_, fun plain => contained_of_plain plain own⟩
  have readable : Readable (serialize t) :=
    contained.readable _ (by rw [ownLines_one one]; exact List.mem_singleton.2 rfl)
  obtain ⟨r, read⟩ := entry_of_pieces readable (nine_pieces t)
  obtain ⟨more, cut⟩ := pieces_of_deserialize read
  -- the id read is the id written
  have same : r.id = t.id := by
    obtain ⟨rest, split⟩ : ∃ rest, serialize t = t.id.toList ++ DELIM :: rest := by
      rw [serialize, stem, terminated_cons, List.append_assoc, List.cons_append]
      exact ⟨_, rfl⟩
    rw [split, pieces_line minted] at cut
    exact (String.toList_inj.1 (List.cons.inj cut).1).symm
  have entries : ownEntries t = [r] := by
    have found : entry (serialize t) = some r := by rw [entry, read]
    rw [ownEntries, ownLines_one one, List.filterMap_cons_some found, List.filterMap_nil]
  have held : r ∈ saved.map recordOf :=
    contained.own r (by rw [entries]; exact List.mem_singleton.2 rfl)
      (by rw [entries]; simp [latest])
  obtain ⟨u, member, is⟩ := List.mem_map.1 held
  have whole : r = t := by
    rw [← is]
    exact sole u member ((congrArg Record.id is).trans same)
  subst whole
  have free : ∀ field ∈ pieces DELIM (serialize r), DELIM ∉ field := pieces_free
  rw [cut] at free
  simp only [List.forall_mem_cons] at free
  simp only [serialize, stem, terminated_cons, List.mem_append, List.mem_cons, not_or] at one
  exact ⟨⟨free.1, one.1.1⟩, ⟨free.2.1, one.1.2.2.1⟩, ⟨free.2.2.1, one.1.2.2.2.2.1⟩,
    ⟨free.2.2.2.1, one.1.2.2.2.2.2.2.1⟩⟩

/-! ## The index as transactions -/

/-- The enumerator with the code `n`, if one has it. -/
def declared {α : Type} (all : List α) (code : α → Int32) (n : Int32) : Option α :=
  all.find? fun a => code a = n

theorem code_of_declared {α : Type} {all : List α} {code : α → Int32} {n : Int32} {a : α}
    (found : declared all code n = some a) : code a = n := by
  have holds := List.find?_some found
  exact of_decide_eq_true holds

def currencyOf : Int32 → Option Currency := declared [.inr, .usd, .eur] currencyInt

def methodOf : Int32 → Option PaymentMethod := declared [.card, .upi, .wallet, .netBanking] methodInt

def statusOf : Int32 → Option TxnStatus :=
  declared [.initiated, .authorized, .captured, .settled, .failed, .refunded] statusInt

/-- The transaction of a record whose enums are declared. -/
def transactionOf (r : Record) : Option Transaction := do
  let currency ← currencyOf r.currency
  let method ← methodOf r.method
  let status ← statusOf r.status
  return { id := r.id, idempotencyKey := r.idempotencyKey, payerAccountId := r.payerAccountId,
           payeeAccountId := r.payeeAccountId, amount := ⟨r.minorUnits, currency⟩, method, status,
           createdAtEpoch := r.createdAtEpoch }

theorem transactionOf_eq_some {r : Record} {t : Transaction} :
    transactionOf r = some t ↔ recordOf t = r := by
  constructor
  · intro found
    simp only [transactionOf, Option.bind_eq_bind, Option.bind_eq_some_iff] at found
    obtain ⟨currency, ccy, method, kind, status, state, is⟩ := found
    cases is
    simp only [recordOf, code_of_declared ccy, code_of_declared kind, code_of_declared state]
  · rintro rfl
    have currency : currencyOf (currencyInt t.amount.currency) = some t.amount.currency := by
      cases t.amount.currency <;> rfl
    have method : methodOf (methodInt t.method) = some t.method := by
      cases t.method <;> rfl
    have status : statusOf (statusInt t.status) = some t.status := by
      cases t.status <;> rfl
    simp only [transactionOf, recordOf, currency, method, status]
    rfl

/-- An index as transactions, where all its enums are declared. -/
def transactionsOf (index : Store String Record) : Option (Store String Transaction) :=
  ((values index).mapM transactionOf).map (gather Transaction.id ∅)

theorem mapM_transactionOf {records : List Record} {txns : List Transaction} :
    records.mapM transactionOf = some txns ↔ txns.map recordOf = records := by
  induction records generalizing txns with
  | nil => simp
  | cons r records ih =>
    rw [List.mapM_cons]
    constructor
    · intro found
      simp only [Option.bind_eq_bind, Option.bind_eq_some_iff] at found
      obtain ⟨t, first, rest, later, is⟩ := found
      cases is
      rw [List.map_cons, transactionOf_eq_some.1 first, ih.1 later]
    · intro same
      obtain ⟨t, rest, rfl, first, later⟩ := List.map_eq_cons_iff.1 same
      rw [transactionOf_eq_some.2 first, ih.2 later]
      rfl

theorem lookup_transactionsOf {index : Store String Record} {txns : Store String Transaction}
    (own : SelfKeyed Record.id index) (found : transactionsOf index = some txns) (id : String) :
    (txns.lookup id).map recordOf = index.lookup id := by
  obtain ⟨list, all, rfl⟩ := Option.map_eq_some_iff.1 found
  have same := mapM_transactionOf.1 all
  calc ((gather Transaction.id ∅ list).lookup id).map recordOf
      = (lastSaved list id).map recordOf := by rw [lookup_gather_empty]; rfl
    _ = (gather Record.id ∅ (values index)).lookup id := by
      rw [← latest_map_recordOf, same, lookup_gather_empty]
    _ = index.lookup id := lookup_gather_values own (List.Perm.refl _) id

/-- Nothing is lost where every record is of a transaction. -/
theorem transactionsOf_exists {index : Store String Record}
    (all : ∀ r ∈ values index, ∃ t, recordOf t = r) : ∃ txns, transactionsOf index = some txns := by
  have ranged : values index ∈ Set.range (List.map recordOf) := by
    rw [Set.range_list_map]
    exact all
  obtain ⟨list, same⟩ := ranged
  exact ⟨_, by rw [transactionsOf, mapM_transactionOf.2 same]; rfl⟩

/-- The transactions of a repository reopened on the file: `none` if the constructor
throws, or reads an enum that is not declared. -/
def reopened (file : Option (List Char)) : Option (Store String Transaction) :=
  match loadFromDisk file with
  | .ok index => transactionsOf index
  | .error _ => none

/-- **What a reopened repository holds, the file held.** -/
theorem lookup_reopened {file : Option (List Char)} {txns : Store String Transaction}
    (found : reopened file = some txns) : ∃ index, loadFromDisk file = .ok index ∧
      ∀ id, (txns.lookup id).map recordOf = index.lookup id := by
  unfold reopened at found
  split at found
  · rename_i index loaded
    exact ⟨index, loaded, lookup_transactionsOf (loadFromDisk_own loaded) found⟩
  · cases found

end PaymentSystem.Adapters.FileTransactionRepository
