/-
# PaymentSystem.Service.Forgery -- what clients can write into the file

The strings of a request reach the file as they are.  What is read back stays honest as long
as the text of every transaction saved breaks into lines that read as nothing, or as
transactions that were saved (`SavesContained`).  Strings without tabs and newlines do
(`SavesPlain`); a tab alone is enough to spoil it.

* `Honest.run`: a contained save leaves an honest file.
* `file_unforged`: in every run in which whoever saves has plain strings, the file reopens to
  saved transactions alone; a save of strings with a tab leaves, for some order of the flush,
  a file that does not.
-/
import PaymentSystem.Service.Restarts

namespace PaymentSystem.Service

open PaymentSystem.Common
open PaymentSystem.Domain
open PaymentSystem.Patterns
open PaymentSystem.Adapters
open PaymentSystem.Adapters.FileTransactionRepository
open PaymentSystem.Theory.Keyed
open PaymentSystem.Theory.Runs

set_option autoImplicit false

variable {chain : ValidationChain}

/-- The text of a transaction about to be saved reads as nothing but saved transactions. -/
def SavesContained (host : Host) (t : Thread) : Prop :=
  ∀ txn ∈ t.pc.saving, Contained (host.saved ++ [txn]) (recordOf txn)

/-- The file holds nothing but what was saved, and so does the index. -/
structure Honest (host : Host) : Prop where
  contained : ∀ txn ∈ host.saved, Contained host.saved (recordOf txn)
  indexed : ∀ id txn, host.index.lookup id = some txn → txn ∈ host.saved
  unforged : Unforged host.saved host.file

theorem honest_opening (accounts : InMemoryAccountRepository) (calls : List Call) :
    Honest (Host.opening accounts calls) := by
  refine ⟨nofun, ?_, ∅, rfl, ?_⟩
  · intro id txn found
    simp [Host.opening, Host.index, System.init, PaymentService.opening] at found
  · intro id r found
    rw [AList.lookup_empty] at found
    cases found

theorem Honest.restart {host host' : Host} {given : List Call} (honest : Honest host)
    (stepped : Host.step chain host (.restart given) = some host') : Honest host' := by
  obtain ⟨-, transactions, reread, rfl⟩ := Host.step_restart stepped
  refine ⟨honest.contained, fun id txn found => ?_, honest.unforged⟩
  replace found : transactions.lookup id = some txn := found
  obtain ⟨read, loaded, held⟩ := honest.unforged
  obtain ⟨read', loaded', same⟩ := lookup_reopened reread
  cases loaded.symm.trans loaded'
  have there : read.lookup id = some (recordOf txn) := by
    rw [← same, found]
    rfl
  obtain ⟨u, member, is⟩ := List.mem_map.1 (held id _ there)
  rw [← recordOf_inj is]
  exact member

theorem Honest.run {host host' : Host} {i : Nat} {order : List Transaction} {c : Call}
    {pc pc' : Pc} (honest : Honest host) (moved : Ran chain host i order host' c pc pc')
    (contained : SavesContained host ⟨c, pc⟩) : Honest host' := by
  rcases moved.disk with ⟨index, file, saved⟩ |
    ⟨txn, type, res, rfl, -, inserted, perm, file, saved⟩
  · refine ⟨?_, ?_, ?_⟩
    · rw [saved]
      exact honest.contained
    · rw [index, saved]
      exact honest.indexed
    · rw [saved, file]
      exact honest.unforged
  · have own : Contained (host.saved ++ [txn]) (recordOf txn) := contained txn rfl
    have all : ∀ u ∈ host'.saved, Contained host'.saved (recordOf u) := by
      rw [saved]
      intro u member
      rcases List.mem_append.1 member with before | now
      · exact (honest.contained u before).mono fun _ => List.mem_append_left _
      · rw [List.mem_singleton.1 now]
        exact own
    have indexed : ∀ id u, host'.index.lookup id = some u → u ∈ host'.saved := by
      intro id u found
      rw [saved]
      rw [inserted] at found
      by_cases here : id = txn.id
      · subst here
        rw [AList.lookup_insert] at found
        cases found
        simp
      · rw [AList.lookup_insert_ne here] at found
        exact List.mem_append_left _ (honest.indexed id u found)
    refine ⟨all, indexed, ?_⟩
    rw [file]
    refine unforged_of_contained fun r member => ?_
    obtain ⟨u, among, rfl⟩ := List.mem_map.1 member
    obtain ⟨id, found⟩ := mem_values.1 (perm.mem_iff.1 among)
    exact all u (indexed id u found)

/-- A save can always be taken, in any order of its flush. -/
theorem Host.step_save {host : Host} {i : Nat} {c : Call} {txn : Transaction} {type : String}
    {res : Result Transaction} (at_ : host.sys.threads[i]? = some ⟨c, .save txn type res⟩)
    {order : List Transaction} (perm : order.Perm (values (host.index.insert txn.id txn))) :
    ∃ host', Host.step chain host (.run i order) = some host' ∧
      host'.file = some (flushToDisk (order.map recordOf)) ∧ host'.saved = host.saved ++ [txn] := by
  obtain ⟨sys, moved, inserted⟩ : ∃ sys, System.step chain host.sys i = some sys ∧
      sys.service.transactions = host.index.insert txn.id txn := by
    simp only [System.step, at_]
    exact ⟨_, rfl, rfl⟩
  refine ⟨⟨sys, some (flushToDisk (order.map recordOf)), host.session, host.charges,
    host.saved ++ [txn]⟩, ?_, rfl, rfl⟩
  simp only [Host.step, at_, moved]
  exact if_pos (inserted ▸ perm)

theorem values_insert (m : Store String Transaction) (txn : Transaction) :
    values (m.insert txn.id txn) = txn :: values (m.erase txn.id) := rfl

/-- A call that saves its transaction has no tab and no newline in its strings. -/
def SavesPlain (_ : Host) (t : Thread) : Prop := t.pc.saving.isSome = true → PlainCall t.call

instance (host : Host) (t : Thread) : Decidable (SavesPlain host t) :=
  inferInstanceAs (Decidable (_ → _))

/-- There is a tab in a string of the request, and no newline in any. -/
structure Tabbed (c : Call) : Prop where
  tab : ¬ PlainCall c
  idempotencyKey : '\n' ∉ c.req.idempotencyKey.toList
  payerAccountId : '\n' ∉ c.req.payerAccountId.toList
  payeeAccountId : '\n' ∉ c.req.payeeAccountId.toList

/-- What plain strings save is contained. -/
theorem SavesPlain.contained {accounts : InMemoryAccountRepository} {calls : List Call}
    {sched : List Action} {host : Host} {t : Thread}
    (ran : exec (Host.step chain) (Host.opening accounts calls) sched = some host)
    (member : t ∈ host.sys.threads) (plain : SavesPlain host t) : SavesContained host t := by
  intro txn saving
  obtain ⟨minted, status, is⟩ := Host.carries ran member (Pc.txn_of_saving saving)
  have strings : PlainCall t.call := plain (by rw [saving]; rfl)
  have written : PlainTransaction txn := by
    rw [is]
    exact strings.txn minted status
  exact contained_of_plain written (List.mem_map_of_mem (by simp))

/-- What strings with a tab save, under an id nothing was saved under, is not. -/
theorem Tabbed.spills {accounts : InMemoryAccountRepository} {calls : List Call}
    {sched : List Action} {host : Host} {t : Thread} {txn : Transaction}
    (ran : exec (Host.step chain) (Host.opening accounts calls) sched = some host)
    (member : t ∈ host.sys.threads) (tabbed : Tabbed t.call) (saving : t.pc.saving = some txn)
    (first : ∀ u ∈ host.saved, u.id ≠ txn.id) :
    ¬ Contained (host.saved ++ [txn]) (recordOf txn) := by
  intro contained
  obtain ⟨minted, status, is⟩ := Host.carries ran member (Pc.txn_of_saving saving)
  have one : '\n' ∉ serialize (recordOf txn) := by
    have key : (recordOf txn).idempotencyKey = t.call.req.idempotencyKey := by rw [is]; rfl
    have payer : (recordOf txn).payerAccountId = t.call.req.payerAccountId := by rw [is]; rfl
    have payee : (recordOf txn).payeeAccountId = t.call.req.payeeAccountId := by rw [is]; rfl
    refine one_line minted.2 ?_ ?_ ?_
    · exact key ▸ tabbed.idempotencyKey
    · exact payer ▸ tabbed.payerAccountId
    · exact payee ▸ tabbed.payeeAccountId
  have sole : ∀ u ∈ host.saved ++ [txn], u.id = (recordOf txn).id → recordOf u = recordOf txn := by
    intro u among same
    rcases List.mem_append.1 among with before | now
    · exact absurd same (first u before)
    · rw [List.mem_singleton.1 now]
  have plain : PlainTransaction txn :=
    (contained_iff_plain one minted.1 (List.mem_map_of_mem (by simp)) sole).1 contained
  rw [is] at plain
  exact tabbed.tab ⟨plain.idempotencyKey, plain.payerAccountId, plain.payeeAccountId⟩

/-- **Clients cannot forge or corrupt records, as long as whoever saves has no tab and no
newline in its strings**: the file then reopens, to saved transactions alone.  A save of
strings with a tab, and no newline, leaves for some order of its flush a file that does not,
if nothing was saved under its id before. -/
theorem file_unforged {accounts : InMemoryAccountRepository} {calls : List Call}
    {sched : List Action} {host : Host}
    (ran : exec (Host.step chain) (Host.opening accounts calls) sched = some host) :
    (Along (Host.step chain) (Moving SavesPlain) (Host.opening accounts calls) sched →
      Unforged host.saved host.file) ∧
    ∀ i t txn, host.sys.threads[i]? = some t → t.pc.saving = some txn → Tabbed t.call →
      (∀ u ∈ host.saved, u.id ≠ txn.id) →
      ∃ order host', Host.step chain host (.run i order) = some host' ∧
        ¬ Unforged host'.saved host'.file := by
  refine ⟨fun plain => ?_, ?_⟩
  · refine (exec_induct_along Honest ?_ (honest_opening accounts calls) ran).unforged
    rintro early (⟨i, order⟩ | given) late host host' split ran honest stepped
    · obtain ⟨c, pc, pc', moved⟩ := Host.step_run stepped
      have met : SavesPlain host ⟨c, pc⟩ := plain early _ late host split ran _ moved.at_
      exact honest.run moved (met.contained ran (List.mem_of_getElem? moved.at_))
    · exact honest.restart stepped
  · rintro i ⟨c, pc⟩ txn at_ saving tabbed first
    have spills := tabbed.spills ran (List.mem_of_getElem? at_) saving first
    obtain ⟨type, res, rfl⟩ := Pc.eq_save saving
    -- the flush that writes the text last
    have perm : (values (host.index.erase txn.id) ++ [txn]).Perm
        (values (host.index.insert txn.id txn)) := by
      rw [values_insert]
      exact List.perm_append_singleton _ _
    obtain ⟨host', stepped, file, saved⟩ := Host.step_save at_ perm
    refine ⟨_, host', stepped, fun unforged => spills ?_⟩
    rw [file, saved, List.map_append] at unforged
    exact contained_of_unforged unforged

/-- Two payments with plain strings, a restart between them. -/
theorem file_unforged_twice : ∃ host,
    exec (Host.step mainChain) (Host.opening userAndMerchant [payment])
      (servingTwice nextPayment (nextPayment.txn "txn_1" .captured)) = some host ∧
    host.saved.length = 2 ∧ Unforged host.saved host.file := by
  have ran : (exec (guarded (Host.step mainChain) (Moving SavesPlain))
      (Host.opening userAndMerchant [payment])
      (servingTwice nextPayment (nextPayment.txn "txn_1" .captured))).any
        (fun host => decide (host.saved.length = 2)) = true := by decide +kernel
  obtain ⟨host, found, two⟩ := exec_any ran
  obtain ⟨ran, plain⟩ := exec_guarded found
  exact ⟨host, ran, of_decide_eq_true two, (file_unforged ran).1 plain⟩

/-- A key with a tab in it. -/
def tabbed : Call := upiCall "key\t1" "u" "m" 30000

/-- A key with a line of the file in it. -/
def forging : Call := upiCall "key\ntxn_9\tkey-9\tm\tu\t100\t0\t1\t2\t0\n" "u" "m" 30000

/-- The first makes the file unreadable, the second puts a payment in it that no call made. -/
theorem file_forged :
    (∃ host, exec (Host.step mainChain) (Host.opening userAndMerchant [tabbed])
        (serving (tabbed.txn "txn_1" .captured)) = some host ∧
      host.sys.Complete ∧ ∀ read, loadFromDisk host.file ≠ .ok read) ∧
    ∃ host, exec (Host.step mainChain) (Host.opening userAndMerchant [forging])
        (serving (forging.txn "txn_1" .captured)) = some host ∧
      host.sys.Complete ∧ ∃ read, loadFromDisk host.file = .ok read ∧
        ∃ r ∈ values read, r ∉ host.saved.map recordOf := by
  have unreadable : (exec (Host.step mainChain) (Host.opening userAndMerchant [tabbed])
      (serving (tabbed.txn "txn_1" .captured))).any (fun host =>
        (host.sys.threads.all fun t => t.pc.outcome.isSome) &&
          (loadFromDisk host.file).toOption.isNone) = true := by decide +kernel
  have forged : (exec (Host.step mainChain) (Host.opening userAndMerchant [forging])
      (serving (forging.txn "txn_1" .captured))).any (fun host =>
        (host.sys.threads.all fun t => t.pc.outcome.isSome) &&
          (loadFromDisk host.file).toOption.any fun read =>
            decide (∃ r ∈ values read, r ∉ host.saved.map recordOf)) = true := by decide +kernel
  constructor
  · obtain ⟨host, run, found⟩ := exec_any unreadable
    rw [Bool.and_eq_true] at found
    refine ⟨host, run, System.complete_of_all found.1, fun read loaded => ?_⟩
    rw [loaded] at found
    cases found.2
  · obtain ⟨host, run, found⟩ := exec_any forged
    rw [Bool.and_eq_true] at found
    obtain ⟨read, loaded, other⟩ := (Option.any_eq_true _ _).1 found.2
    refine ⟨host, run, System.complete_of_all found.1, read, ?_, of_decide_eq_true other⟩
    cases is : loadFromDisk host.file with
    | error e =>
      rw [is] at loaded
      cases loaded
    | ok index =>
      rw [is] at loaded
      cases loaded
      rfl

end PaymentSystem.Service
