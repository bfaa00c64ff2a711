/-
# PaymentSystem.Adapters.InMemory -- ports and their in-memory adapters

`include/payment/ports` and `include/payment/adapters`.  An `unordered_map` is a
keyed store; the methods of an adapter are atomic, each one section under its
mutex, so a method is a function of the adapter's contents.

The ledger is the one port whose implementation the results vary:
`LedgerRepository` is a `post` together with the law that a batch is appended
exactly when `post` accepts it.  `inMemoryLedgerRepository` is the shipped one.
-/
import PaymentSystem.Domain.Entities
import PaymentSystem.Theory.Keyed

namespace PaymentSystem.Adapters

open PaymentSystem.Common
open PaymentSystem.Domain
open PaymentSystem.Theory.Keyed
open PaymentSystem.Theory.MachineInt

set_option autoImplicit false

/-! ## Keyed adapters -/

/-- `InMemoryAccountRepository::store_`: the accounts themselves, shared by every
holder of a pointer to them. -/
abbrev InMemoryAccountRepository := Store String Account

namespace InMemoryAccountRepository

def save (store : InMemoryAccountRepository) (account : Account) : InMemoryAccountRepository :=
  store.insert account.id account

end InMemoryAccountRepository

abbrev InMemoryTransactionRepository := Store String Transaction

namespace InMemoryTransactionRepository

def find (store : InMemoryTransactionRepository) (txnId : String) : Option Transaction :=
  store.lookup txnId

/-- `insert_or_assign`: last write wins. -/
def save (store : InMemoryTransactionRepository) (txn : Transaction) :
    InMemoryTransactionRepository := store.insert txn.id txn

end InMemoryTransactionRepository

abbrev InMemoryIdempotencyStore := Store String String

namespace InMemoryIdempotencyStore

def get (store : InMemoryIdempotencyStore) (key : String) : Option String := store.lookup key

/-- `emplace`: whether the key was absent, and the store with it claimed. -/
def putIfAbsent (store : InMemoryIdempotencyStore) (key txnId : String) :
    Bool × InMemoryIdempotencyStore :=
  match store.lookup key with
  | none => (true, store.insert key txnId)
  | some _ => (false, store)

end InMemoryIdempotencyStore

/-- `InMemoryDistributedLock::locks_`: for each key seen, whether its mutex is
held. -/
abbrev InMemoryDistributedLock := Store String Bool

namespace InMemoryDistributedLock

/-- `mutexFor`: the slot of a key is created on first use. -/
def mutexFor (locks : InMemoryDistributedLock) (key : String) : InMemoryDistributedLock :=
  match locks.lookup key with
  | none => locks.insert key false
  | some _ => locks

/-- The mutex of the key is held by someone. -/
def Held (locks : InMemoryDistributedLock) (key : String) : Prop := locks.lookup key = some true

instance (locks : InMemoryDistributedLock) (key : String) : Decidable (locks.Held key) :=
  inferInstanceAs (Decidable (_ = _))

def lock (locks : InMemoryDistributedLock) (key : String) : InMemoryDistributedLock :=
  locks.insert key true

def unlock (locks : InMemoryDistributedLock) (key : String) : InMemoryDistributedLock :=
  locks.insert key false

theorem held_mutexFor (locks : InMemoryDistributedLock) (key key' : String) :
    (locks.mutexFor key).Held key' ↔ locks.Held key' := by
  unfold mutexFor Held
  cases fresh : locks.lookup key with
  | some _ => rfl
  | none =>
    by_cases same : key' = key
    · subst same; simp [fresh]
    · simp only [AList.lookup_insert_ne same]

theorem held_lock (locks : InMemoryDistributedLock) (key key' : String) :
    (locks.lock key).Held key' ↔ key' = key ∨ locks.Held key' := by
  by_cases same : key' = key
  · subst same; simp [lock, Held]
  · simp [lock, Held, AList.lookup_insert_ne same, same]

theorem held_unlock (locks : InMemoryDistributedLock) (key key' : String) :
    (locks.unlock key).Held key' ↔ key' ≠ key ∧ locks.Held key' := by
  by_cases same : key' = key
  · subst same; simp [unlock, Held]
  · simp [unlock, Held, AList.lookup_insert_ne same, same]

end InMemoryDistributedLock

/-! ## Ledger -/

/-- The append-only journal. -/
abbrev Journal := List LedgerEntry

/-- An implementation of the ledger port that appends a batch exactly when it
accepts it, and may reject any batch. -/
structure LedgerRepository where
  post : Journal → List LedgerEntry → Status × Journal
  post_ok : ∀ journal batch, (post journal batch).1.isErr = false →
    (post journal batch).2 = journal ++ batch
  post_err : ∀ journal batch, (post journal batch).1.isErr = true →
    (post journal batch).2 = journal

namespace InMemoryLedgerRepository

/-- The loop of `post` over the entries: the running net of the signed amounts,
or `none` on the first entry of another currency. -/
def net (ccy : Currency) : Int64 → List LedgerEntry → Option Int64
  | acc, [] => some acc
  | acc, e :: rest =>
      if e.amount.currency ≠ ccy then none
      else net ccy (acc + e.signedAmount.minorUnits) rest

/-- `InMemoryLedgerRepository::post`. -/
def post (journal : Journal) : List LedgerEntry → Status × Journal
  | [] => (Status.fail .validationFailed "ledger posting must have entries", journal)
  | front :: rest =>
    match net front.amount.currency 0 (front :: rest) with
    | none => (Status.fail .validationFailed "mixed currencies in one posting", journal)
    | some total =>
      if total ≠ 0 then
        (Status.fail .internalError ("unbalanced posting: net " ++ toString total ++
          " minor units (must be 0)"), journal)
      else (Status.ok, journal ++ (front :: rest))

def entriesFor (journal : Journal) (accountId : String) : List LedgerEntry :=
  journal.filter fun e => e.accountId = accountId

/-- The arithmetic of the loop of `post`, entry by entry. -/
def netArith (ccy : Currency) : Int64 → List LedgerEntry → List Arith
  | _, [] => []
  | acc, e :: rest =>
      if e.amount.currency ≠ ccy then []
      else e.signedArith ++ .add acc e.signedAmount.minorUnits ::
        netArith ccy (acc + e.signedAmount.minorUnits) rest

/-- The arithmetic `post` performs on a batch. -/
def postArith : List LedgerEntry → List Arith
  | [] => []
  | front :: rest => netArith front.amount.currency 0 (front :: rest)

theorem post_cases (journal : Journal) (batch : List LedgerEntry) :
    (post journal batch).1.isErr = false ∧ (post journal batch).2 = journal ++ batch ∨
      (post journal batch).1.isErr = true ∧ (post journal batch).2 = journal := by
  unfold post
  split
  · exact Or.inr ⟨rfl, rfl⟩
  · split
    · exact Or.inr ⟨rfl, rfl⟩
    · split
      · exact Or.inr ⟨rfl, rfl⟩
      · exact Or.inl ⟨rfl, rfl⟩

end InMemoryLedgerRepository

def inMemoryLedgerRepository : LedgerRepository where
  post := InMemoryLedgerRepository.post
  post_ok journal batch accepted := by
    rcases InMemoryLedgerRepository.post_cases journal batch with ⟨-, h⟩ | ⟨h, -⟩
    · exact h
    · rw [accepted] at h; cases h
  post_err journal batch rejected := by
    rcases InMemoryLedgerRepository.post_cases journal batch with ⟨h, -⟩ | ⟨-, h⟩
    · rw [rejected] at h; cases h
    · exact h

end PaymentSystem.Adapters
