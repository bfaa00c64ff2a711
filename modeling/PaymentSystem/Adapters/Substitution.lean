/-
# PaymentSystem.Adapters.Substitution -- two adapters behind one port

`FileTransactionRepository` and `InMemoryTransactionRepository` implement the same port, and
each of their calls is one section under the adapter's mutex, so what any number of threads
make of an adapter is the run of one sequence of uses.  A use of the file is a call, or a
restart: the object is constructed again over the file it left.

`file_substitutes`: for transactions the file can hold, every sequence of uses runs as it
would in memory, with the same answers, and no restart shows.
-/
import PaymentSystem.Adapters.Reopening
import PaymentSystem.Adapters.InMemory
import PaymentSystem.Theory.Runs

namespace PaymentSystem.Adapters

open PaymentSystem.Domain
open PaymentSystem.Theory.Keyed
open PaymentSystem.Theory.Runs
open PaymentSystem.Adapters.FileTransactionRepository

set_option autoImplicit false

/-- A transaction the file can hold: its strings have no tab and no newline. -/
abbrev Storable := { txn : Transaction // PlainTransaction txn }

/-- A use of the port.  A save says in which order its flush iterates, if there is one. -/
inductive Use where
  | find (txnId : String)
  | save (txn : Storable) (order : List Record)
  | reopen

/-- A file repository, and what its `find`s have answered. -/
structure OnFile where
  repo : FileTransactionRepository
  answers : List (Option Record)

/-- No file yet. -/
def OnFile.fresh : OnFile := ⟨⟨∅, none⟩, []⟩

/-- `none` where the constructor throws, and for an order in which the index cannot be
iterated. -/
def OnFile.use (s : OnFile) : Use → Option OnFile
  | .find txnId => some { s with answers := s.answers ++ [s.repo.find txnId] }
  | .save txn order =>
    if Iterates (s.repo.assigned txn.1) order then
      some { s with repo := FileTransactionRepository.save s.repo txn.1 order }
    else none
  | .reopen =>
    match opened s.repo.file with
    | .ok repo => some { s with repo }
    | .error _ => none

/-- A repository in memory, and what its `find`s have answered. -/
structure InMemory where
  store : InMemoryTransactionRepository
  answers : List (Option Transaction)

def InMemory.fresh : InMemory := ⟨∅, []⟩

/-- In memory there is nothing to reopen. -/
def InMemory.use (s : InMemory) : Use → Option InMemory
  | .find txnId => some { s with answers := s.answers ++ [s.store.find txnId] }
  | .save txn _ => some { s with store := s.store.save txn.1 }
  | .reopen => some s

/-- The index is the store, the file is the index, and the answers were the same. -/
structure Mirrors (s : OnFile) (t : InMemory) : Prop where
  own : SelfKeyed Record.id s.repo.index
  plain : ∀ r ∈ values s.repo.index, Plain r
  backs : Backs s.repo.file s.repo.index
  index : ∀ id, s.repo.find id = (t.store.find id).map recordOf
  answers : s.answers = t.answers.map (Option.map recordOf)

theorem mirrors_fresh : Mirrors .fresh .fresh where
  own := selfKeyed_empty _
  plain r member := by
    obtain ⟨id, found⟩ := mem_values.1 member
    cases found
  backs := ⟨∅, rfl, fun _ => rfl⟩
  index _ := rfl
  answers := rfl

theorem Mirrors.save {s : OnFile} {t : InMemory} (mirrors : Mirrors s t) (txn : Storable)
    {order : List Record} (iterates : Iterates (s.repo.assigned txn.1) order) :
    Mirrors ⟨FileTransactionRepository.save s.repo txn.1 order, s.answers⟩
      ⟨t.store.save txn.1, t.answers⟩ := by
  have own : SelfKeyed Record.id (s.repo.assigned txn.1) := mirrors.own.insert (recordOf txn.1)
  have plain : ∀ r ∈ values (s.repo.assigned txn.1), Plain r := by
    intro r member
    obtain ⟨id, found⟩ := mem_values.1 member
    rw [assigned] at found
    by_cases here : id = txn.1.id
    · subst here
      rw [AList.lookup_insert] at found
      cases found
      exact txn.2
    · rw [AList.lookup_insert_ne here] at found
      exact mirrors.plain r (mem_values.2 ⟨id, found⟩)
  refine ⟨own, plain, backs_flush own plain iterates, fun id => ?_, mirrors.answers⟩
  show (s.repo.index.insert txn.1.id (recordOf txn.1)).lookup id =
    ((t.store.insert txn.1.id txn.1).lookup id).map recordOf
  by_cases here : id = txn.1.id
  · subst here
    rw [AList.lookup_insert, AList.lookup_insert]
    rfl
  · rw [AList.lookup_insert_ne here, AList.lookup_insert_ne here]
    exact mirrors.index id

/-- The constructor does not throw, and finds what was there. -/
theorem Mirrors.reopens {s : OnFile} {t : InMemory} (mirrors : Mirrors s t) :
    ∃ repo, opened s.repo.file = .ok repo ∧ Mirrors { s with repo } t ∧
      ∀ id, repo.find id = s.repo.find id := by
  obtain ⟨read, loaded, same⟩ := mirrors.backs
  refine ⟨⟨read, s.repo.file⟩, by rw [opened, loaded]; rfl, ?_, same⟩
  refine ⟨loadFromDisk_own loaded, fun r member => ?_, ⟨read, loaded, fun _ => rfl⟩,
    fun id => (same id).trans (mirrors.index id), mirrors.answers⟩
  obtain ⟨id, found⟩ := mem_values.1 member
  exact mirrors.plain r (mem_values.2 ⟨id, (same id).symm.trans found⟩)

/-- **Each use of the file is matched in memory.** -/
theorem Mirrors.use {s s' : OnFile} {t : InMemory} {u : Use} (mirrors : Mirrors s t)
    (used : s.use u = some s') : ∃ t', t.use u = some t' ∧ Mirrors s' t' := by
  cases u with
  | find txnId =>
    cases used
    refine ⟨_, rfl, mirrors.own, mirrors.plain, mirrors.backs, mirrors.index, ?_⟩
    rw [mirrors.answers, mirrors.index, List.map_append]
    rfl
  | save txn order =>
    simp only [OnFile.use] at used
    split at used
    · rename_i iterates
      cases used
      exact ⟨_, rfl, mirrors.save txn iterates⟩
    · cases used
  | reopen =>
    obtain ⟨repo, opens, mirrors', -⟩ := mirrors.reopens
    simp only [OnFile.use, opens] at used
    cases used
    exact ⟨t, rfl, mirrors'⟩

theorem Mirrors.size {s : OnFile} {t : InMemory} (mirrors : Mirrors s t) :
    s.repo.size = t.store.entries.length := by
  have keys : s.repo.index.keys.Perm t.store.keys := by
    rw [List.perm_ext_iff_of_nodup s.repo.index.keys_nodup t.store.keys_nodup]
    intro id
    rw [← AList.mem_keys, ← AList.mem_keys, ← AList.lookup_isSome, ← AList.lookup_isSome]
    have same : s.repo.index.lookup id = (t.store.lookup id).map recordOf := mirrors.index id
    rw [same, Option.isSome_map]
  calc s.repo.size = s.repo.index.keys.length := (List.length_map ..).symm
    _ = t.store.keys.length := keys.length_eq
    _ = t.store.entries.length := List.length_map ..

/-- **The file can take the place of the memory.**  However the saves, finds and restarts
come, and in whatever orders the flushes iterate: the same uses run in memory, every `find`
has answered the same, there are as many transactions, and the repository can be reopened
at that moment, and then finds what it would have found. -/
theorem file_substitutes {uses : List Use} {s : OnFile}
    (ran : exec OnFile.use .fresh uses = some s) :
    ∃ t, exec InMemory.use .fresh uses = some t ∧
      s.answers = t.answers.map (Option.map recordOf) ∧ s.repo.size = t.store.entries.length ∧
      ∃ repo, opened s.repo.file = .ok repo ∧
        ∀ id, repo.find id = (t.store.find id).map recordOf := by
  obtain ⟨t, ran', mirrors⟩ : ∃ t, exec InMemory.use .fresh uses = some t ∧ Mirrors s t := by
    refine exec_lockstep Mirrors ?_ mirrors_fresh ran
    exact fun early s u s' t _ mirrors used => mirrors.use used
  obtain ⟨repo, opens, -, same⟩ := mirrors.reopens
  exact ⟨t, ran', mirrors.answers, mirrors.size, repo, opens,
    fun id => (same id).trans (mirrors.index id)⟩

theorem plain_persisted (status : Common.TxnStatus) : PlainTransaction (persisted status) := by
  cases status <;> decide

/-- A save, a restart, a find, a second save of the same id and a restart. -/
def savedTwice : List Use :=
  [.save ⟨persisted .authorized, plain_persisted _⟩ [recordOf (persisted .authorized)], .reopen,
   .find "txn_persist",
   .save ⟨persisted .captured, plain_persisted _⟩ [recordOf (persisted .captured)], .reopen]

theorem file_substitutes_twice : ∃ s t, exec OnFile.use .fresh savedTwice = some s ∧
    exec InMemory.use .fresh savedTwice = some t ∧
    s.answers = t.answers.map (Option.map recordOf) ∧
    t.answers = [some (persisted .authorized)] := by
  have ran : (exec OnFile.use .fresh savedTwice).any (fun s => decide (s.answers.length = 1)) =
      true := by decide +kernel
  obtain ⟨s, ran, -⟩ := exec_any ran
  obtain ⟨t, ran', same, -⟩ := file_substitutes ran
  have is : (exec InMemory.use .fresh savedTwice).any
      (fun t => decide (t.answers = [some (persisted .authorized)])) = true := by decide +kernel
  obtain ⟨t', ran'', answers⟩ := exec_any is
  cases Option.some.inj (ran'.symm.trans ran'')
  exact ⟨s, t, ran, ran', same, of_decide_eq_true answers⟩

end PaymentSystem.Adapters
