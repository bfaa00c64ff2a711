/-
# PaymentSystem.Adapters.FileTransactionRepository -- transactions in a text file

`include/payment/adapters/FileTransactionRepository.hpp`: an index in memory, rewritten
to a file by every save and read back by the constructor.

A `std::string` is a `String` whose `Char`s stand for its bytes (nothing here depends on
there being only 256 of them), and a file is the list of its characters, or `none` where
there is no file.  A line may hold any integer where an enum is stored, so what is read
back is a `Record`, whose enums are the bare `int`s; `Transaction.record` is how a
transaction with declared enums looks as one.

The order in which the hash map is iterated is not specified: every flush takes it as an
argument, and `Iterates` says which orders there are.

* `deserialize_serialize`: a line written is the record read.
* `load_flush`: a file flushed in any order is the index read back.
* `reopen_restores`: the repository reopened after any saves.
-/
import PaymentSystem.Domain.Entities
import PaymentSystem.Theory.Decimal
import PaymentSystem.Theory.Keyed
import PaymentSystem.Theory.Lines
import Mathlib.Data.List.Dedup

namespace PaymentSystem.Adapters

open PaymentSystem.Common
open PaymentSystem.Domain
open PaymentSystem.Theory
open PaymentSystem.Theory.Keyed
open PaymentSystem.Theory.Lines

set_option autoImplicit false

/-! ## Records -/

/-- A transaction as `rehydrate` builds it, the enums as the `int`s they were cast from. -/
structure Record where
  id : String
  idempotencyKey : String
  payerAccountId : String
  payeeAccountId : String
  minorUnits : Int64
  currency : Int32
  method : Int32
  status : Int32
  createdAtEpoch : Int64
  deriving DecidableEq, Repr

/-- `static_cast<int>` of the enums. -/
def currencyInt : Currency → Int32
  | .inr => 0
  | .usd => 1
  | .eur => 2

def methodInt : PaymentMethod → Int32
  | .card => 0
  | .upi => 1
  | .wallet => 2
  | .netBanking => 3

def statusInt : TxnStatus → Int32
  | .initiated => 0
  | .authorized => 1
  | .captured => 2
  | .settled => 3
  | .failed => 4
  | .refunded => 5

/-- A transaction as the repository holds it. -/
def recordOf (t : Transaction) : Record where
  id := t.id
  idempotencyKey := t.idempotencyKey
  payerAccountId := t.payerAccountId
  payeeAccountId := t.payeeAccountId
  minorUnits := t.amount.minorUnits
  currency := currencyInt t.amount.currency
  method := methodInt t.method
  status := statusInt t.status
  createdAtEpoch := t.createdAtEpoch

@[simp] theorem recordOf_id (t : Transaction) : (recordOf t).id = t.id := rfl

theorem currencyInt_inj {a b : Currency} (same : currencyInt a = currencyInt b) : a = b := by
  cases a <;> cases b <;> first | rfl | exact absurd same (by decide)

theorem methodInt_inj {a b : PaymentMethod} (same : methodInt a = methodInt b) : a = b := by
  cases a <;> cases b <;> first | rfl | exact absurd same (by decide)

theorem statusInt_inj {a b : TxnStatus} (same : statusInt a = statusInt b) : a = b := by
  cases a <;> cases b <;> first | rfl | exact absurd same (by decide)

/-- **A record determines its transaction.** -/
theorem recordOf_inj {t u : Transaction} (same : recordOf t = recordOf u) : t = u := by
  obtain ⟨id, key, payer, payee, ⟨minorUnits, currency⟩, method, status, created⟩ := t
  obtain ⟨id', key', payer', payee', ⟨minorUnits', currency'⟩, method', status', created'⟩ := u
  simp only [recordOf, Record.mk.injEq] at same
  obtain ⟨rfl, rfl, rfl, rfl, rfl, currencies, methods, statuses, rfl⟩ := same
  rw [currencyInt_inj currencies, methodInt_inj methods, statusInt_inj statuses]

/-! ## Conversions -/

/-- What `std::stoll` and `std::stoi` throw. -/
inductive ConversionError where
  | invalidArgument (what : String)
  | outOfRange (what : String)
  deriving DecidableEq, Repr

def stoll (s : List Char) : Except ConversionError Int64 :=
  match Decimal.read s with
  | none => .error (.invalidArgument "stoll")
  | some n =>
    if -2 ^ 63 ≤ n ∧ n < 2 ^ 63 then .ok (Int64.ofInt n) else .error (.outOfRange "stoll")

def stoi (s : List Char) : Except ConversionError Int32 :=
  match Decimal.read s with
  | none => .error (.invalidArgument "stoi")
  | some n =>
    if -2 ^ 31 ≤ n ∧ n < 2 ^ 31 then .ok (Int32.ofInt n) else .error (.outOfRange "stoi")

theorem stoll_text (n : Int64) : stoll (Decimal.text n.toInt) = .ok n := by
  have fits : -2 ^ 63 ≤ n.toInt ∧ n.toInt < 2 ^ 63 := ⟨n.le_toInt, n.toInt_lt⟩
  simp only [stoll, Decimal.read_text, if_pos fits, Int64.ofInt_toInt]

theorem stoi_text (n : Int32) : stoi (Decimal.text n.toInt) = .ok n := by
  have fits : -2 ^ 31 ≤ n.toInt ∧ n.toInt < 2 ^ 31 := ⟨n.le_toInt, n.toInt_lt⟩
  simp only [stoi, Decimal.read_text, if_pos fits, Int32.ofInt_toInt]

/-- A torn number does not convert, or converts to another. -/
theorem stoll_take {n : Int64} {k : Nat} (positive : 0 < k) (torn : k < (Decimal.text n.toInt).length) :
    (∃ e, stoll ((Decimal.text n.toInt).take k) = .error e) ∨
      ∃ m, stoll ((Decimal.text n.toInt).take k) = .ok m ∧ m ≠ n ∧
        Decimal.text m.toInt = (Decimal.text n.toInt).take k := by
  have low := n.le_toInt
  have high := n.toInt_lt
  rcases Decimal.read_take positive torn with none_ | ⟨m, found, written, other, above, below⟩
  · exact .inl ⟨.invalidArgument "stoll", by simp only [stoll, none_]⟩
  · have fits : -2 ^ 63 ≤ m ∧ m < 2 ^ 63 := by omega
    have back : (Int64.ofInt m).toInt = m := Int64.toInt_ofInt_of_le fits.1 fits.2
    refine .inr ⟨Int64.ofInt m, by simp only [stoll, found, if_pos fits], ?_, by rw [back, written]⟩
    intro same
    rw [← same, back] at other
    exact other rfl

/-! ## Serialization -/

namespace FileTransactionRepository

/-- `DELIM`. -/
abbrev DELIM : Char := '\t'

/-- The first eight fields, each with its delimiter. -/
def stem (t : Record) : List Char :=
  terminated DELIM [t.id.toList, t.idempotencyKey.toList, t.payerAccountId.toList,
    t.payeeAccountId.toList, Decimal.text t.minorUnits.toInt, Decimal.text t.currency.toInt,
    Decimal.text t.method.toInt, Decimal.text t.status.toInt]

/-- `serialize`: one line, without its end. -/
def serialize (t : Record) : List Char := stem t ++ Decimal.text t.createdAtEpoch.toInt

/-- The fields of a line. -/
structure Fields where
  id : List Char
  key : List Char
  payer : List Char
  payee : List Char
  minor : List Char
  ccy : List Char
  method : List Char
  status : List Char
  created : List Char

/-- The nine `getline`s of `deserialize`; the first that fails ends it. -/
def readFields (line : List Char) : Option Fields := do
  let (id, is) ← getline DELIM line
  let (key, is) ← getline DELIM is
  let (payer, is) ← getline DELIM is
  let (payee, is) ← getline DELIM is
  let (minor, is) ← getline DELIM is
  let (ccy, is) ← getline DELIM is
  let (method, is) ← getline DELIM is
  let (status, is) ← getline DELIM is
  let (created, _) ← getline DELIM is
  return ⟨id, key, payer, payee, minor, ccy, method, status, created⟩

/-- The conversions of `deserialize`.  Which of several bad fields throws first is not
specified; here it is the leftmost. -/
def Fields.convert (f : Fields) : Except ConversionError Record := do
  let minorUnits ← stoll f.minor
  let currency ← stoi f.ccy
  let method ← stoi f.method
  let status ← stoi f.status
  let createdAtEpoch ← stoll f.created
  return { id := String.ofList f.id, idempotencyKey := String.ofList f.key,
           payerAccountId := String.ofList f.payer, payeeAccountId := String.ofList f.payee,
           minorUnits, currency, method, status, createdAtEpoch }

/-- `deserialize`: a line with too few fields is nothing, a bad number throws. -/
def deserialize (line : List Char) : Except ConversionError (Option Record) :=
  match readFields line with
  | none => .ok none
  | some f => f.convert.map some

/-! ### Fields and pieces -/

/-- The fields are the first nine pieces of the line. -/
theorem readFields_of_pieces {line : List Char} {f : Fields} {more : List (List Char)}
    (cut : pieces DELIM line = f.id :: f.key :: f.payer :: f.payee :: f.minor :: f.ccy ::
      f.method :: f.status :: f.created :: more) : readFields line = some f := by
  obtain ⟨is₁, got₁, cut⟩ := getline_of_pieces cut
  obtain ⟨is₂, got₂, cut⟩ := getline_of_pieces cut
  obtain ⟨is₃, got₃, cut⟩ := getline_of_pieces cut
  obtain ⟨is₄, got₄, cut⟩ := getline_of_pieces cut
  obtain ⟨is₅, got₅, cut⟩ := getline_of_pieces cut
  obtain ⟨is₆, got₆, cut⟩ := getline_of_pieces cut
  obtain ⟨is₇, got₇, cut⟩ := getline_of_pieces cut
  obtain ⟨is₈, got₈, cut⟩ := getline_of_pieces cut
  obtain ⟨is₉, got₉, -⟩ := getline_of_pieces cut
  simp only [readFields, got₁, got₂, got₃, got₄, got₅, got₆, got₇, got₈, got₉, Option.bind_eq_bind,
    Option.bind_some]
  rfl

theorem pieces_of_getline {line field is : List Char} (got : getline DELIM line = some (field, is)) :
    pieces DELIM line = field :: pieces DELIM is := by
  rw [pieces_eq_getline, got]

/-- Conversely, what the fields were read off starts with them. -/
theorem pieces_of_readFields {line : List Char} {f : Fields} (found : readFields line = some f) :
    ∃ more, pieces DELIM line = f.id :: f.key :: f.payer :: f.payee :: f.minor :: f.ccy ::
      f.method :: f.status :: f.created :: more := by
  simp only [readFields, Option.bind_eq_bind, Option.bind_eq_some_iff, Prod.exists] at found
  obtain ⟨_, _, got₁, _, _, got₂, _, _, got₃, _, _, got₄, _, _, got₅, _, _, got₆, _, _, got₇, _, _,
    got₈, _, _, got₉, is⟩ := found
  cases is
  rw [pieces_of_getline got₁, pieces_of_getline got₂, pieces_of_getline got₃, pieces_of_getline got₄,
    pieces_of_getline got₅, pieces_of_getline got₆, pieces_of_getline got₇, pieces_of_getline got₈,
    pieces_of_getline got₉]
  exact ⟨_, rfl⟩

/-- Fewer than nine pieces are too few fields. -/
theorem readFields_short {line : List Char} (short : (pieces DELIM line).length < 9) :
    readFields line = none := by
  rw [Option.eq_none_iff_forall_ne_some]
  intro f found
  obtain ⟨more, cut⟩ := pieces_of_readFields found
  rw [cut] at short
  simp only [List.length_cons] at short
  omega

theorem deserialize_short {line : List Char} (short : (pieces DELIM line).length < 9) :
    deserialize line = .ok none := by
  rw [deserialize, readFields_short short]

/-! ### Plain strings -/

/-- No tab and no newline. -/
def PlainText (s : List Char) : Prop := DELIM ∉ s ∧ '\n' ∉ s

instance (s : List Char) : Decidable (PlainText s) := inferInstanceAs (Decidable (_ ∧ _))

/-- The four strings of a record are plain. -/
structure Plain (t : Record) : Prop where
  id : PlainText t.id.toList
  idempotencyKey : PlainText t.idempotencyKey.toList
  payerAccountId : PlainText t.payerAccountId.toList
  payeeAccountId : PlainText t.payeeAccountId.toList

instance (t : Record) : Decidable (Plain t) :=
  decidable_of_iff (PlainText t.id.toList ∧ PlainText t.idempotencyKey.toList ∧
      PlainText t.payerAccountId.toList ∧ PlainText t.payeeAccountId.toList)
    ⟨fun ⟨id, key, payer, payee⟩ => ⟨id, key, payer, payee⟩,
      fun ⟨id, key, payer, payee⟩ => ⟨id, key, payer, payee⟩⟩

theorem plain_text (n : Int) : PlainText (Decimal.text n) := by
  have other {c : Char} (not : c ≠ '-') (not' : c.isDigit = false) : c ∉ Decimal.text n := by
    intro member
    rcases Decimal.mem_text member with is | is
    · exact not is
    · rw [not'] at is
      cases is
  exact ⟨other (by decide) (by decide), other (by decide) (by decide)⟩

/-- The fields of a record, as they are written. -/
def fieldsOf (t : Record) : Fields where
  id := t.id.toList
  key := t.idempotencyKey.toList
  payer := t.payerAccountId.toList
  payee := t.payeeAccountId.toList
  minor := Decimal.text t.minorUnits.toInt
  ccy := Decimal.text t.currency.toInt
  method := Decimal.text t.method.toInt
  status := Decimal.text t.status.toInt
  created := Decimal.text t.createdAtEpoch.toInt

/-- The eight fields of the stem are plain. -/
theorem Plain.stem_fields {t : Record} (plain : Plain t) :
    ∀ field ∈ [t.id.toList, t.idempotencyKey.toList, t.payerAccountId.toList,
      t.payeeAccountId.toList, Decimal.text t.minorUnits.toInt, Decimal.text t.currency.toInt,
      Decimal.text t.method.toInt, Decimal.text t.status.toInt], PlainText field := by
  intro field member
  simp only [List.mem_cons, List.not_mem_nil, or_false] at member
  rcases member with rfl | rfl | rfl | rfl | rfl | rfl | rfl | rfl
  · exact plain.id
  · exact plain.idempotencyKey
  · exact plain.payerAccountId
  · exact plain.payeeAccountId
  all_goals exact plain_text _

/-- A plain stem is cut into its eight fields, whatever follows it. -/
theorem Plain.pieces_stem {t : Record} (plain : Plain t) (rest : List Char) :
    pieces DELIM (stem t ++ rest) = [t.id.toList, t.idempotencyKey.toList,
      t.payerAccountId.toList, t.payeeAccountId.toList, Decimal.text t.minorUnits.toInt,
      Decimal.text t.currency.toInt, Decimal.text t.method.toInt, Decimal.text t.status.toInt] ++
        pieces DELIM rest :=
  pieces_terminated (fun field member => (plain.stem_fields field member).1) rest

/-- What a line reads as that starts with a plain stem: it depends on the ninth field
alone, and is nothing if that is missing. -/
theorem Plain.deserialize_stem {t : Record} (plain : Plain t) {created : List Char}
    (free : DELIM ∉ created) : deserialize (stem t ++ created) =
      if created = [] then .ok none
      else (stoll created).map fun createdAtEpoch => some { t with createdAtEpoch } := by
  have cut := plain.pieces_stem created
  rw [pieces_last free] at cut
  split
  · rename_i none_
    subst none_
    exact deserialize_short (by rw [cut]; simp)
  · rename_i some_
    rw [if_neg some_] at cut
    rw [deserialize, readFields_of_pieces (f := { fieldsOf t with created }) cut]
    simp only [Fields.convert, fieldsOf, stoll_text, stoi_text, String.ofList_toList]
    cases stoll created <;> rfl

/-- **A line written is the record read.** -/
theorem deserialize_serialize {t : Record} (plain : Plain t) :
    deserialize (serialize t) = .ok (some t) := by
  rw [serialize, plain.deserialize_stem (plain_text _).1, if_neg (Decimal.text_ne_nil _), stoll_text]
  rfl

/-- A record is written on one line unless one of its strings has a newline. -/
theorem one_line {t : Record} (id : '\n' ∉ t.id.toList)
    (idempotencyKey : '\n' ∉ t.idempotencyKey.toList)
    (payerAccountId : '\n' ∉ t.payerAccountId.toList)
    (payeeAccountId : '\n' ∉ t.payeeAccountId.toList) : '\n' ∉ serialize t := by
  rw [serialize, List.mem_append, not_or]
  refine ⟨fun member => ?_, (plain_text _).2⟩
  obtain ⟨field, among, there⟩ := List.mem_flatMap.1 member
  rcases List.mem_append.1 there with inside | after
  · simp only [List.mem_cons, List.not_mem_nil, or_false] at among
    rcases among with rfl | rfl | rfl | rfl | rfl | rfl | rfl | rfl
    · exact id inside
    · exact idempotencyKey inside
    · exact payerAccountId inside
    · exact payeeAccountId inside
    all_goals exact (plain_text _).2 inside
  · exact absurd (List.mem_singleton.1 after) (by decide)

/-- A plain record is written on one line. -/
theorem Plain.one_line {t : Record} (plain : Plain t) : '\n' ∉ serialize t :=
  FileTransactionRepository.one_line plain.id.2 plain.idempotencyKey.2 plain.payerAccountId.2
    plain.payeeAccountId.2

theorem serialize_ne_nil (t : Record) : serialize t ≠ [] := by
  intro none_
  exact Decimal.text_ne_nil _ (List.append_eq_nil_iff.1 none_).2

/-! ## Loading and flushing -/

/-- The loop of `loadFromDisk` over the lines. -/
def loadLines (index : Store String Record) :
    List (List Char) → Except ConversionError (Store String Record)
  | [] => .ok index
  | line :: lines =>
    if line.isEmpty then loadLines index lines
    else
      match deserialize line with
      | .error e => .error e
      | .ok none => loadLines index lines
      | .ok (some t) => loadLines (index.insert t.id t) lines

/-- `loadFromDisk`: no file is an empty index. -/
def loadFromDisk : Option (List Char) → Except ConversionError (Store String Record)
  | none => .ok ∅
  | some bytes => loadLines ∅ (pieces '\n' bytes)

/-- `flushToDisk`, iterating the index in the order `order`. -/
def flushToDisk (order : List Record) : List Char := terminated '\n' (order.map serialize)

/-- An order in which the index may be iterated. -/
def Iterates (index : Store String Record) (order : List Record) : Prop :=
  order.Perm (values index)

instance (index : Store String Record) (order : List Record) : Decidable (Iterates index order) :=
  inferInstanceAs (Decidable (order.Perm _))

theorem loadLines_append {index : Store String Record} {xs ys : List (List Char)} :
    loadLines index (xs ++ ys) =
      match loadLines index xs with
      | .error e => .error e
      | .ok index => loadLines index ys := by
  induction xs generalizing index with
  | nil => rfl
  | cons line xs ih =>
    rw [List.cons_append, loadLines, loadLines]
    split
    · exact ih
    · cases deserialize line with
      | error e => rfl
      | ok r =>
        cases r with
        | none => exact ih
        | some t => exact ih

/-- Lines that are skipped leave the index alone. -/
theorem loadLines_skipped {index : Store String Record} {lines : List (List Char)}
    (skipped : ∀ line ∈ lines, deserialize line = .ok none) : loadLines index lines = .ok index := by
  induction lines with
  | nil => rfl
  | cons line lines ih =>
    rw [loadLines, skipped line List.mem_cons_self,
      ih fun l member => skipped l (List.mem_cons_of_mem _ member)]
    split <;> rfl

/-- Lines that were written are inserted one after another. -/
theorem loadLines_serialized {index : Store String Record} {order : List Record}
    (plain : ∀ t ∈ order, Plain t) :
    loadLines index (order.map serialize) = .ok (gather Record.id index order) := by
  induction order generalizing index with
  | nil => rfl
  | cons t order ih =>
    have some_ : (serialize t).isEmpty = false := by
      simpa using serialize_ne_nil t
    rw [List.map_cons, loadLines, some_, deserialize_serialize (plain t List.mem_cons_self)]
    exact ih fun u member => plain u (List.mem_cons_of_mem _ member)

theorem pieces_flush {order : List Record} (plain : ∀ t ∈ order, Plain t) (rest : List Char) :
    pieces '\n' (flushToDisk order ++ rest) = order.map serialize ++ pieces '\n' rest := by
  apply pieces_terminated
  intro line member
  obtain ⟨t, among, rfl⟩ := List.mem_map.1 member
  exact (plain t among).one_line

theorem load_flush {order : List Record} (plain : ∀ t ∈ order, Plain t) :
    loadFromDisk (some (flushToDisk order)) = .ok (gather Record.id ∅ order) := by
  have cut := pieces_flush plain []
  rw [List.append_nil, pieces, List.append_nil] at cut
  rw [loadFromDisk, cut, loadLines_serialized plain]

/-- The file, read back, gives every id what the index gives it. -/
def Backs (file : Option (List Char)) (index : Store String Record) : Prop :=
  ∃ read, loadFromDisk file = .ok read ∧ ∀ id, read.lookup id = index.lookup id

/-- **A file flushed in any order is the index read back.** -/
theorem backs_flush {index : Store String Record} (own : SelfKeyed Record.id index)
    (plain : ∀ t ∈ values index, Plain t) {order : List Record} (iterates : Iterates index order) :
    Backs (some (flushToDisk order)) index :=
  ⟨_, load_flush fun t member => plain t (iterates.mem_iff.1 member),
    lookup_gather_values own iterates⟩

end FileTransactionRepository

/-! ## The repository -/

/-- `index_`, and the file at `path_`. -/
structure FileTransactionRepository where
  index : Store String Record
  file : Option (List Char)

namespace FileTransactionRepository

/-- The constructor, over the file it finds. -/
def opened (file : Option (List Char)) : Except ConversionError FileTransactionRepository :=
  (loadFromDisk file).map fun index => ⟨index, file⟩

def find (repo : FileTransactionRepository) (txnId : String) : Option Record :=
  repo.index.lookup txnId

def size (repo : FileTransactionRepository) : Nat := repo.index.entries.length

/-- The index after `insert_or_assign`. -/
def assigned (repo : FileTransactionRepository) (txn : Transaction) : Store String Record :=
  repo.index.insert txn.id (recordOf txn)

/-- `save`, the flush iterating in the order `order`. -/
def save (repo : FileTransactionRepository) (txn : Transaction) (order : List Record) :
    FileTransactionRepository :=
  ⟨repo.assigned txn, some (flushToDisk order)⟩

/-- The repository a list of saves leads to from an absent file, whatever orders the
flushes iterate in. -/
inductive Saves : List Transaction → FileTransactionRepository → Prop where
  | fresh : Saves [] ⟨∅, none⟩
  | save {txns : List Transaction} {repo : FileTransactionRepository} (saves : Saves txns repo)
      (txn : Transaction) {order : List Record} (iterates : Iterates (repo.assigned txn) order) :
      Saves (txns ++ [txn]) (repo.save txn order)

/-- One more save, whose flush iterates in the order the index lists its records. -/
theorem Saves.inOrder {txns : List Transaction} {repo : FileTransactionRepository}
    (saves : Saves txns repo) (txn : Transaction) :
    Saves (txns ++ [txn]) (repo.save txn (values (repo.assigned txn))) :=
  saves.save txn (List.Perm.refl _)

/-- The strings of a transaction are plain. -/
def PlainTransaction (txn : Transaction) : Prop := Plain (recordOf txn)

instance (txn : Transaction) : Decidable (PlainTransaction txn) := inferInstanceAs (Decidable (Plain _))

theorem Saves.index {txns : List Transaction} {repo : FileTransactionRepository}
    (saves : Saves txns repo) : repo.index = gather Record.id ∅ (txns.map recordOf) := by
  induction saves with
  | fresh => rfl
  | save saves txn iterates ih =>
    rw [List.map_append, gather_append, ← ih]
    rfl

theorem Saves.own {txns : List Transaction} {repo : FileTransactionRepository}
    (saves : Saves txns repo) : SelfKeyed Record.id repo.index := by
  rw [saves.index]
  exact (selfKeyed_empty _).gather _

/-- Everything in the index was saved. -/
theorem Saves.mem {txns : List Transaction} {repo : FileTransactionRepository}
    (saves : Saves txns repo) {t : Record} (member : t ∈ values repo.index) :
    ∃ txn ∈ txns, recordOf txn = t := by
  obtain ⟨id, found⟩ := mem_values.1 member
  rw [saves.index, lookup_gather_empty] at found
  exact List.mem_map.1 (latest_mem found).1

theorem Saves.plain {txns : List Transaction} {repo : FileTransactionRepository}
    (saves : Saves txns repo) (plain : ∀ txn ∈ txns, PlainTransaction txn) :
    ∀ t ∈ values repo.index, Plain t := by
  intro t member
  obtain ⟨txn, among, rfl⟩ := saves.mem member
  exact plain txn among

/-- **The file backs the index** after every save. -/
theorem Saves.backs {txns : List Transaction} {repo : FileTransactionRepository}
    (saves : Saves txns repo) (plain : ∀ txn ∈ txns, PlainTransaction txn) :
    Backs repo.file repo.index := by
  cases saves with
  | fresh => exact ⟨∅, rfl, fun _ => rfl⟩
  | save before txn iterates =>
    have after := before.save txn iterates
    exact backs_flush after.own (after.plain plain) iterates

/-- The transaction last saved under an id. -/
def lastSaved (txns : List Transaction) (id : String) : Option Transaction :=
  latest Transaction.id txns id

theorem latest_map_recordOf (txns : List Transaction) (id : String) :
    latest Record.id (txns.map recordOf) id = (lastSaved txns id).map recordOf := by
  unfold lastSaved latest
  rw [← List.map_reverse, List.find?_map]
  rfl

theorem Saves.find {txns : List Transaction} {repo : FileTransactionRepository}
    (saves : Saves txns repo) (id : String) : repo.find id = (lastSaved txns id).map recordOf := by
  rw [FileTransactionRepository.find, saves.index, lookup_gather_empty,
    latest_map_recordOf]

/-- The ids of the index are the ids saved. -/
theorem size_of_find {txns : List Transaction} {repo : FileTransactionRepository}
    (found : ∀ id, repo.find id = (lastSaved txns id).map recordOf) :
    repo.size = (txns.map Transaction.id).dedup.length := by
  have keys : repo.index.keys.Perm (txns.map Transaction.id).dedup := by
    rw [List.perm_ext_iff_of_nodup repo.index.keys_nodup (List.nodup_dedup _)]
    intro id
    rw [← AList.mem_keys, ← AList.lookup_isSome, List.mem_dedup, List.mem_map]
    show (repo.find id).isSome = true ↔ _
    rw [found, Option.isSome_map]
    constructor
    · intro some_
      obtain ⟨txn, last⟩ := Option.isSome_iff_exists.1 some_
      exact ⟨txn, latest_mem last⟩
    · rintro ⟨txn, among, same⟩
      rw [Option.isSome_iff_ne_none]
      exact fun none_ => latest_eq_none.1 none_ txn among same
  calc repo.size = repo.index.keys.length := (List.length_map ..).symm
    _ = (txns.map Transaction.id).dedup.length := keys.length_eq

/-- **Reopening restores exactly what was saved**: under every id the transaction last
saved under it, in all its fields, and under no other id anything. -/
theorem reopen_restores {txns : List Transaction} {repo : FileTransactionRepository}
    (saves : Saves txns repo) (plain : ∀ txn ∈ txns, PlainTransaction txn) :
    ∃ reopened, opened repo.file = .ok reopened ∧
      (∀ id, reopened.find id = (lastSaved txns id).map recordOf) ∧
      reopened.size = (txns.map Transaction.id).dedup.length := by
  obtain ⟨read, loaded, same⟩ := saves.backs plain
  have found (id : String) :
      FileTransactionRepository.find ⟨read, repo.file⟩ id = (lastSaved txns id).map recordOf :=
    (same id).trans (saves.find id)
  refine ⟨⟨read, repo.file⟩, ?_, found, size_of_find found⟩
  rw [opened, loaded]
  rfl

/-- The transaction of the persistence test, in a state of the lifecycle. -/
def persisted (status : TxnStatus) : Transaction :=
  ⟨"txn_persist", "k-txn_persist", "p", "m", ⟨4200, .inr⟩, .upi, status, -1⟩

/-- Saved twice, and in between a transaction whose strings are all empty. -/
theorem reopen_restores_twice : ∃ repo,
    Saves [persisted .authorized, ⟨"", "", "", "", ⟨Int64.maxValue, .eur⟩, .card, .failed, 0⟩,
      persisted .captured] repo ∧
    ∃ reopened, opened repo.file = .ok reopened ∧
      (∀ id, reopened.find id = (lastSaved [persisted .authorized,
        ⟨"", "", "", "", ⟨Int64.maxValue, .eur⟩, .card, .failed, 0⟩, persisted .captured] id).map
          recordOf) ∧
      reopened.size = 2 := by
  have saves := ((Saves.fresh.inOrder (persisted .authorized)).inOrder
    ⟨"", "", "", "", ⟨Int64.maxValue, .eur⟩, .card, .failed, 0⟩).inOrder (persisted .captured)
  exact ⟨_, saves, reopen_restores saves (by decide)⟩

end FileTransactionRepository

end PaymentSystem.Adapters
