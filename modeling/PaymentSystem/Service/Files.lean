/-
# PaymentSystem.Service.Files -- what the stores hold of one transaction

A `File` is all the stores hold under one transaction id: the stored transaction,
the journal entries, the events.  A step touches the file of its own call and no
other (`Fires.file_other`), and ids are distinct, so what a file holds depends only
on how far its call has come: `Reaches.filewise` is the rule, and `Settled` its
first instance, the stored transaction and the events.

* `key_backed_iff`: which claimed keys are backed by a stored transaction.
* `ok_answer_owner`: whose payment an ok answer is about.
-/
import PaymentSystem.Service.Keys

namespace PaymentSystem.Service

open PaymentSystem.Common
open PaymentSystem.Domain
open PaymentSystem.Patterns
open PaymentSystem.Adapters
open PaymentSystem.Infra
open PaymentSystem.Theory.Runs
open PaymentSystem.Theory.Threads

set_option autoImplicit false

variable {chain : ValidationChain}

/-! ## Files -/

structure File where
  transaction : Option Transaction
  entries : List LedgerEntry
  events : List DomainEvent

/-- The file of an id nothing is recorded under. -/
def File.blank : File := ⟨none, [], []⟩

def PaymentService.file (s : PaymentService) (id : String) : File where
  transaction := s.transactions.lookup id
  entries := s.journal.filter fun e => e.txnId = id
  events := s.events.filter fun e => e.aggregateId = id

theorem file_opening (accounts : InMemoryAccountRepository) (id : String) :
    (PaymentService.opening accounts).file id = File.blank := by
  simp [PaymentService.file, PaymentService.opening, File.blank]

/-- **A step touches no file but that of its own call.** -/
theorem Fires.file_other {c : Call} {s s' : PaymentService} {pc pc' : Pc} {id : String}
    (fired : Fires chain c s pc s' pc') (other : pc.txnId ≠ some id) : s'.file id = s.file id := by
  have transaction : s'.transactions.lookup id = s.transactions.lookup id := by
    rcases fired.transactions with same | ⟨txn, type, res, rfl, -, inserted⟩
    · rw [same]
    · have different : id ≠ txn.id := by
        rintro rfl
        exact other rfl
      rw [inserted, AList.lookup_insert_ne different]
  have entries : (s'.journal.filter fun e => e.txnId = id) =
      s.journal.filter fun e => e.txnId = id := by
    rcases fired.journal with same | ⟨f, debitId, creditId, debitSeq, creditSeq, rfl, -, grown⟩
    · rw [same]
    · have different : f.txn.id ≠ id := by
        rintro rfl
        exact other rfl
      simp [grown, postingOf, different]
  have events : (s'.events.filter fun e => e.aggregateId = id) =
      s.events.filter fun e => e.aggregateId = id := by
    rcases fired.events with same | ⟨txn, type, res, rfl, -, grown⟩
    · rw [same]
    · have different : txn.id ≠ id := by
        rintro rfl
        exact other rfl
      simp [grown, eventOf, different]
  simp only [PaymentService.file, transaction, entries, events]

/-- Each call that won its key has the file `K` says, and nobody else has one. -/
structure Filewise (K : Call → Pc → String → File → Prop) (sys : System) : Prop where
  own : ∀ (i : Nat) (t : Thread), sys.threads[i]? = some t → ∀ id, t.pc.won = some id →
    K t.call t.pc id (sys.service.file id)
  others : ∀ id, (∀ t ∈ sys.threads, t.pc.won ≠ some id) → sys.service.file id = File.blank

theorem Filewise.step {K : Call → Pc → String → File → Prop} {sys sys' : System} {i : Nat}
    (filewise : Filewise K sys) (apart : Apart (fun t id => t.pc.txnId = some id) sys.threads)
    (opens : ∀ t ∈ sys.threads, ∀ id, K t.call (.build id) id File.blank)
    (keeps : ∀ c pc s' pc' id, (⟨c, pc⟩ : Thread) ∈ sys.threads →
      Fires chain c sys.service pc s' pc' → pc.won = some id →
      K c pc id (sys.service.file id) → K c pc' id (s'.file id))
    (stepped : System.step chain sys i = some sys') : Filewise K sys' := by
  obtain ⟨c, pc, pc', at_, fired, threads⟩ := step_fires stepped
  have mover : (⟨c, pc⟩ : Thread) ∈ sys.threads := List.mem_of_getElem? at_
  have inside : i < sys.threads.length := (List.getElem?_eq_some_iff.1 at_).1
  -- nobody else goes by the id the mover goes by
  have alone : ∀ j u id, j ≠ i → sys.threads[j]? = some u → u.pc.won = some id →
      pc.txnId ≠ some id := by
    intro j u id different there won mine
    exact different (apart j i u _ id there at_ (Pc.txnId_of_won won) mine)
  refine ⟨?_, ?_⟩
  · intro j u there id won
    rw [threads] at there
    rcases at_set there with ⟨-, rfl⟩ | ⟨different, there⟩
    · rcases fired.identity with ⟨-, rfl, -⟩ | ⟨lost, -⟩ | ⟨id', rfl, rfl, -, whole⟩ | ⟨id', was, now, -⟩
      · cases won
      · have none_ := Pc.txnId_of_won won
        rw [lost.txnId] at none_
        cases none_
      · cases won
        have blank : sys.service.file id = File.blank := by
          apply filewise.others
          intro u member won
          obtain ⟨k, there'⟩ := List.mem_iff_getElem?.1 member
          by_cases same : k = i
          · subst same
            cases at_.symm.trans there'
            cases won
          · exact alone k u id same there' won rfl
        rw [whole]
        exact blank ▸ opens _ mover id
      · cases now.symm.trans won
        exact keeps c pc _ pc' id mover fired was (filewise.own i _ at_ id was)
    · rw [fired.file_other (alone j u id different there won)]
      exact filewise.own j u there id won
  · intro id nobody
    rw [threads] at nobody
    have before : ∀ t ∈ sys.threads, t.pc.won ≠ some id := by
      intro t member won
      have kept : ∃ u ∈ sys.threads.set i ⟨c, pc'⟩, u.pc.won = some id :=
        exists_mem_set at_ fired.keeps_won ⟨t, member, won⟩
      obtain ⟨u, there, won'⟩ := kept
      exact nobody u there won'
    by_cases mine : pc.txnId = some id
    · -- only the claim goes by an id without having won with it
      have claim : ∃ id', pc = .claim id' := by
        by_contra other
        exact before _ mover (Pc.won_of_txnId mine fun id' is => other ⟨id', is⟩)
      obtain ⟨id', rfl⟩ := claim
      cases mine
      have untouched : sys'.service.file id = sys.service.file id := by
        generalize sys'.service = s' at fired
        cases fired <;> rfl
      rw [untouched]
      exact filewise.others id before
    · rw [fired.file_other mine]
      exact filewise.others id before

/-- **What the steps of a call keep true of its file is true of it in every run**,
with fewer than `2 ^ 64` calls. -/
theorem Reaches.filewise {K : Call → Pc → String → File → Prop}
    {accounts : InMemoryAccountRepository} {calls : List Call} {sched : List Nat} {sys : System}
    (reached : Reaches chain (PaymentService.opening accounts) calls sched sys)
    (short : calls.length < 2 ^ 64) (opens : ∀ c ∈ calls, ∀ id, K c (.build id) id File.blank)
    (keeps : ∀ c ∈ calls, ∀ s pc s' pc' id, Sound chain c pc → Fires chain c s pc s' pc' →
      pc.won = some id → K c pc id (s.file id) → K c pc' id (s'.file id)) :
    Filewise K sys := by
  refine exec_induct_reached (Filewise K) ?_ ?_ reached
  · intro early mid i mid' ran filewise stepped
    have ran : Reaches chain (PaymentService.opening accounts) calls early mid := ran
    have draws : Draws "txn" 1 mid := ran.draws rfl short
    have among : ∀ t ∈ mid.threads, t.call ∈ calls := by
      intro t member
      rw [← ran.calls]
      exact List.mem_map_of_mem member
    refine filewise.step draws.apart (fun t member => opens _ (among t member)) ?_ stepped
    intro c pc s' pc' id member fired won
    exact keeps c (among _ member) _ pc s' pc' id (ran.sound _ member) fired won
  · constructor
    · intro i t there id won
      rw [(mem_init (List.mem_of_getElem? there)).2] at won
      cases won
    · intro id _
      exact file_opening accounts id

/-! ## The stored transaction and the events -/

namespace Pc

/-- The transaction a call has saved. -/
def saved : Pc → Option Transaction
  | .publish txn _ _ | .notify txn _ _ => some txn
  | .unlock txn _ | .finished txn _ => if txn.status = .initiated then none else some txn
  | _ => none

/-- The events a call has published. -/
def published : Pc → List DomainEvent
  | .notify txn type _ => [eventOf txn type]
  | .unlock txn _ | .finished txn _ =>
    match txn.status with
    | .captured => [eventOf txn "PaymentCaptured"]
    | .failed => [eventOf txn "PaymentFailed"]
    | _ => []
  | _ => []

theorem txn_of_saved {pc : Pc} {txn : Transaction} (saved : pc.saved = some txn) :
    pc.txn = some txn := by
  cases pc with
  | publish => exact saved
  | notify => exact saved
  | unlock own out =>
    have some_ : (if own.status = .initiated then none else some own) = some txn := saved
    split at some_
    · cases some_
    · exact some_
  | finished own out =>
    have some_ : (if own.status = .initiated then none else some own) = some txn := saved
    split at some_
    · cases some_
    · exact some_
  | _ => cases saved

end Pc

/-- A call's file holds the transaction it has saved and the events it has
published. -/
def Settled (_ : Call) (pc : Pc) (_ : String) (file : File) : Prop :=
  file.transaction = pc.saved ∧ file.events = pc.published

theorem Closing.status {c : Call} {txn : Transaction} {type : String} {res : Result Transaction}
    (closing : Closing chain c txn type res) :
    txn.status = .failed ∧ type = "PaymentFailed" ∨
      txn.status = .captured ∧ type = "PaymentCaptured" := by
  rcases closing.ends with ⟨is, type, -⟩ | ⟨is, type, -⟩
  · exact .inl ⟨congrArg Transaction.status is, type⟩
  · exact .inr ⟨congrArg Transaction.status is, type⟩

theorem Opened.status {c : Call} {txn : Transaction} (opened : Opened c txn) :
    txn.status = .initiated := congrArg Transaction.status opened.is

theorem Fires.settled {c : Call} {s s' : PaymentService} {pc pc' : Pc} {id : String}
    (fired : Fires chain c s pc s' pc') (sound : Sound chain c pc) (won : pc.won = some id)
    (settled : Settled c pc id (s.file id)) : Settled c pc' id (s'.file id) := by
  obtain ⟨transaction, events⟩ := settled
  cases fired with
  | raised txn e threw =>
    have status := Opened.status sound
    exact ⟨by simpa [Pc.saved, status] using transaction,
      by simpa [Pc.published, status] using events⟩
  | saved txn type res =>
    cases won
    exact ⟨AList.lookup_insert _, events⟩
  | published txn type res =>
    cases won
    refine ⟨transaction, ?_⟩
    have none_ : (s.events.filter fun e => e.aggregateId = txn.id) = [] := events
    simp [PaymentService.file, Pc.published, none_, eventOf]
  | notified txn type res =>
    rcases Closing.status sound with ⟨status, is⟩ | ⟨status, is⟩
    · subst is
      exact ⟨by simpa [Pc.saved, status] using transaction,
        by simpa [Pc.published, status] using events⟩
    · subst is
      exact ⟨by simpa [Pc.saved, status] using transaction,
        by simpa [Pc.published, status] using events⟩
  | _ => exact ⟨transaction, events⟩

/-- **What is stored and published under an id is what its call has stored and
published.** -/
theorem Reaches.settled {accounts : InMemoryAccountRepository} {calls : List Call}
    {sched : List Nat} {sys : System}
    (reached : Reaches chain (PaymentService.opening accounts) calls sched sys)
    (short : calls.length < 2 ^ 64) : Filewise Settled sys := by
  refine reached.filewise short ?_ ?_
  · intro c _ id
    exact ⟨rfl, rfl⟩
  · intro c _ s pc s' pc' id sound fired won
    exact fired.settled sound won

/-! ## Keys backed by a transaction -/

namespace Pc

/-- Program points after the save. -/
def PastSave : Pc → Prop
  | .publish _ _ _ | .notify _ _ _ | .unlock _ _ | .finished _ _ => True
  | _ => False

end Pc

/-- What has been saved, by how far the call got. -/
theorem Sound.saved_iff {c : Call} {pc : Pc} {id : String} (sound : Sound chain c pc)
    (won : pc.won = some id) : pc.saved ≠ none ↔
      c.req.Named ∧ ¬ Throws chain (c.txn id .initiated) ∧ (pc.InFlight → pc.PastSave) := by
  have early (none_ : pc.saved = none) (flying : pc.InFlight) (early : ¬ pc.PastSave) :
      pc.saved ≠ none ↔
        c.req.Named ∧ ¬ Throws chain (c.txn id .initiated) ∧ (pc.InFlight → pc.PastSave) :=
    ⟨fun some_ => absurd none_ some_, fun ⟨_, _, past⟩ => absurd (past flying) early⟩
  have closing {txn : Transaction} {type : String} {res : Result Transaction}
      (closing : Closing chain c txn type res) (own : txn.id = id) (past : pc.PastSave)
      (saved : pc.saved = some txn) : pc.saved ≠ none ↔
        c.req.Named ∧ ¬ Throws chain (c.txn id .initiated) ∧ (pc.InFlight → pc.PastSave) := by
    subst own
    refine ⟨fun _ => ⟨closing.named, closing.quiet, fun _ => past⟩, fun _ => ?_⟩
    rw [saved]
    exact Option.some_ne_none _
  have closed {txn : Transaction} {out : Outcome} (closed : Closed chain c txn out)
      (own : txn.id = id) (past : pc.PastSave)
      (saved : pc.saved = if txn.status = .initiated then none else some txn) : pc.saved ≠ none ↔
        c.req.Named ∧ ¬ Throws chain (c.txn id .initiated) ∧ (pc.InFlight → pc.PastSave) := by
    cases closed with
    | threw e opened ran =>
      subst own
      rw [if_pos opened.status] at saved
      refine ⟨fun some_ => absurd saved some_, fun ⟨_, quiet, _⟩ => absurd ⟨e, ?_⟩ quiet⟩
      rw [← opened.is]
      exact ran
    | told type res ends =>
      have fixed : txn.status ≠ .initiated := by
        rcases ends.status with ⟨status, -⟩ | ⟨status, -⟩ <;> rw [status] <;> decide
      rw [if_neg fixed] at saved
      exact closing ends own past saved
  cases pc with
  | start => cases won
  | claim => cases won
  | lookup => cases won
  | replay => cases won
  | replied => cases won
  | unbuilt id' e =>
    exact ⟨fun some_ => absurd rfl some_, fun ⟨named, _⟩ => absurd named sound.2⟩
  | publish => cases won; exact closing sound rfl trivial rfl
  | notify => cases won; exact closing sound rfl trivial rfl
  | unlock => cases won; exact closed sound rfl trivial rfl
  | finished => cases won; exact closed sound rfl trivial rfl
  | _ => exact early rfl ⟨rfl, nofun⟩ not_false

/-- What a call has saved it had saved before, or has just put into the store. -/
theorem Fires.comes_saved {c : Call} {s s' : PaymentService} {pc pc' : Pc}
    (fired : Fires chain c s pc s' pc') (sound : Sound chain c pc) {txn : Transaction}
    (saved : pc'.saved = some txn) :
    pc.saved = some txn ∨ s'.transactions = s.transactions.insert txn.id txn := by
  cases fired with
  | saved txn' type res =>
    cases saved
    exact .inr rfl
  | published => exact .inl saved
  | notified txn' type res =>
    obtain ⟨-, is⟩ : txn'.status ≠ .initiated ∧ txn' = txn := by simpa [Pc.saved] using saved
    exact .inl (congrArg some is)
  | unlocked => exact .inl saved
  | raised txn' e threw => simp [Pc.saved, Opened.status sound] at saved
  | _ => cases saved

/-- What can be found under an id can be found there after a step. -/
theorem Fires.keeps_found {c : Call} {s s' : PaymentService} {pc pc' : Pc} {id : String}
    (fired : Fires chain c s pc s' pc') (found : (s.transactions.lookup id).isSome) :
    (s'.transactions.lookup id).isSome := by
  rcases fired.transactions with same | ⟨txn, type, res, -, -, inserted⟩
  · rw [same]
    exact found
  · rw [inserted]
    by_cases own : id = txn.id
    · rw [own, AList.lookup_insert]
      rfl
    · rw [AList.lookup_insert_ne own]
      exact found

/-- What a call has saved, there is something under its id. -/
structure Found (chain : ValidationChain) (s : PaymentService) (t : Thread) : Prop where
  sound : Sound chain t.call t.pc
  found : ∀ txn, t.pc.saved = some txn → (s.transactions.lookup txn.id).isSome

theorem Reaches.found {service : PaymentService} {calls : List Call} {sched : List Nat}
    {sys : System} (reached : Reaches chain service calls sched sys) :
    ∀ t ∈ sys.threads, Found chain sys.service t := by
  refine (interleaving chain).agentwise (P := Found chain) ?_ ?_ ?_ reached
  · rintro s ⟨c, pc⟩ s' ⟨c', pc'⟩ ⟨same, fired⟩ ⟨sound, found⟩
    obtain rfl : c' = c := same
    refine ⟨fired.sound sound, fun txn saved => ?_⟩
    rcases fired.comes_saved sound saved with before | inserted
    · exact fired.keeps_found (found txn before)
    · show (s'.transactions.lookup txn.id).isSome
      rw [inserted, AList.lookup_insert]
      rfl
  · rintro s t s' t' u ⟨-, fired⟩ - ⟨sound, found⟩
    exact ⟨sound, fun txn saved => fired.keeps_found (found txn saved)⟩
  · intro t member
    obtain ⟨-, is⟩ := mem_init member
    exact ⟨by rw [is]; trivial, by rw [is]; nofun⟩

/-- The key is unclaimed, or the transaction stored for it can be found. -/
def Backed (s : PaymentService) (key : String) : Prop :=
  ∀ id, s.idempotency.lookup key = some id → (s.transactions.lookup id).isSome

theorem mismatch_txn (limit threshold : Money) (c : Call) (id id' : String)
    (status status' : TxnStatus) (links : List Link) :
    Mismatch limit threshold (c.txn id status) links ↔
      Mismatch limit threshold (c.txn id' status') links := by
  induction links with
  | nil => exact Iff.rfl
  | cons link rest ih =>
    cases link with
    | basic => exact and_congr Iff.rfl ih
    | limit => exact or_congr Iff.rfl (and_congr Iff.rfl ih)
    | fraud => exact or_congr Iff.rfl (and_congr Iff.rfl ih)

/-- The call that claimed the key named its accounts, met no currency mismatch in its chain,
and is not still on the way to its save. -/
def Clean (limit threshold : Money) (links : List Link) (sys : System) (key : String) : Prop :=
  ∀ u ∈ sys.threads, u.call.req.idempotencyKey = key → u.pc.won ≠ none →
    u.call.req.Named ∧ ¬ Mismatch limit threshold (u.call.txn "" .initiated) links ∧
      (u.pc.InFlight → u.pc.PastSave)

/-- **A key is backed when the call that claimed it** came through cleanly, and, with fewer
than `2 ^ 64` calls, exactly then: past that, another transaction may be stored under the
id of one that failed. -/
theorem key_backed_iff {limit threshold : Money} {links : List Link}
    {accounts : InMemoryAccountRepository} {calls : List Call} {sched : List Nat} {sys : System}
    (reached : Reaches (wired limit threshold links) (PaymentService.opening accounts) calls sched
      sys) (key : String) :
    (Clean limit threshold links sys key → Backed sys.service key) ∧
      (calls.length < 2 ^ 64 → (Backed sys.service key ↔ Clean limit threshold links sys key)) := by
  -- what a winner has saved says about its request
  have winner : ∀ u ∈ sys.threads, ∀ id, u.pc.won = some id → (u.pc.saved ≠ none ↔
      u.call.req.Named ∧ ¬ Mismatch limit threshold (u.call.txn "" .initiated) links ∧
        (u.pc.InFlight → u.pc.PastSave)) := by
    intro u member id won
    rw [(reached.sound u member).saved_iff won, Throws, run_throws_iff,
      mismatch_txn limit threshold u.call id "" _ .initiated]
  have clean (clean : Clean limit threshold links sys key) : Backed sys.service key := by
    intro id claimed
    obtain ⟨u, member, mine, won⟩ := reached.winner rfl claimed
    have some_ : u.pc.saved ≠ none := by
      refine (winner u member id won).2 (clean u member mine ?_)
      rw [won]
      exact Option.some_ne_none id
    obtain ⟨txn, saved⟩ := Option.ne_none_iff_exists'.1 some_
    have own := ((reached.sound u member).txn (Pc.txn_of_saved saved)).1
    cases won.symm.trans own
    exact (reached.found u member).found txn saved
  refine ⟨clean, fun short => ⟨?_, clean⟩⟩
  rintro backed u member rfl won
  obtain ⟨id, won⟩ := Option.ne_none_iff_exists'.1 won
  obtain ⟨i, there⟩ := List.mem_iff_getElem?.1 member
  have cites := (reached.cited (filed_opening accounts) u member).key id (Pc.cites_of_won won)
  have stored : sys.service.transactions.lookup id = u.pc.saved :=
    ((reached.settled short).own i u there id won).1
  refine (winner u member id won).1 ?_
  rw [← stored, ← Option.isSome_iff_ne_none]
  exact backed id cites

/-- The chain of `main.cpp`, as a wiring. -/
def mainLinks : List Link := [.basic, .limit, .fraud]

/-- A call in a currency the limits are not in. -/
def usdCall : Call where
  req := ⟨"key-1", "u", "m", ⟨100, .usd⟩, .upi⟩
  env := Env.shipped 0

/-- The exception out of the limit check leaves the key claimed and nothing stored. -/
theorem key_unbacked_after_exception : ∃ sys,
    Reaches (wired ⟨10000000, .inr⟩ ⟨5000000, .inr⟩ mainLinks)
      (PaymentService.opening userAndMerchant) [usdCall] (List.replicate 7 0) sys ∧
    sys.Complete ∧ ¬ Backed sys.service "key-1" := by
  have ran : (exec (System.step (wired ⟨10000000, .inr⟩ ⟨5000000, .inr⟩ mainLinks))
      (System.init (PaymentService.opening userAndMerchant) [usdCall]) (List.replicate 7 0)).any
        (fun sys => sys.threads.all (fun t => t.pc.outcome.isSome) &&
          decide (sys.service.idempotency.lookup "key-1" = some "txn_1") &&
          (sys.service.transactions.lookup "txn_1").isNone) = true := by decide +kernel
  obtain ⟨sys, reached, found⟩ := exec_any ran
  simp only [Bool.and_eq_true, List.all_eq_true, decide_eq_true_eq] at found
  obtain ⟨⟨ended, claimed⟩, missing⟩ := found
  refine ⟨sys, reached, fun t member => Option.isSome_iff_ne_none.1 (ended t member), ?_⟩
  intro backed
  have stored := backed "txn_1" claimed
  rw [Option.isNone_iff_eq_none.1 missing] at stored
  cases stored

/-- A payment that has gone through, next to one whose chain threw. -/
theorem key_backed_iff_mixed : ∃ sys,
    Reaches (wired ⟨10000000, .inr⟩ ⟨5000000, .inr⟩ mainLinks)
      (PaymentService.opening userAndMerchant) [upiCall "key-2" "u" "m" 30000, usdCall]
      (List.replicate 20 0 ++ List.replicate 7 1) sys ∧
    (Backed sys.service "key-2" ↔
      Clean ⟨10000000, .inr⟩ ⟨5000000, .inr⟩ mainLinks sys "key-2") := by
  have ran : (exec (System.step (wired ⟨10000000, .inr⟩ ⟨5000000, .inr⟩ mainLinks))
      (System.init (PaymentService.opening userAndMerchant) [upiCall "key-2" "u" "m" 30000, usdCall])
      (List.replicate 20 0 ++ List.replicate 7 1)).any
        (fun sys => sys.threads.all fun t => t.pc.outcome.isSome) = true := by decide +kernel
  obtain ⟨sys, reached, -⟩ := exec_any ran
  exact ⟨sys, reached, (key_backed_iff reached "key-2").2 (by decide)⟩

/-! ## Whose payment an ok answer is about -/

/-- `txn` is what `req` asks for. -/
structure PaymentRequest.Asks (req : PaymentRequest) (txn : Transaction) : Prop where
  payer : txn.payerAccountId = req.payerAccountId
  payee : txn.payeeAccountId = req.payeeAccountId
  amount : txn.amount = req.amount
  method : txn.method = req.method

theorem asks_txn (c : Call) (id : String) (status : TxnStatus) :
    c.req.Asks (c.txn id status) := ⟨rfl, rfl, rfl, rfl⟩

theorem Sound.asks {c : Call} {pc : Pc} (sound : Sound chain c pc) {txn : Transaction}
    (carried : pc.txn = some txn) : c.req.Asks txn := by
  obtain ⟨-, status, is⟩ := sound.txn carried
  rw [is]
  exact asks_txn c txn.id status

/-- Whatever is stored, and whatever a duplicate was answered, some call asked for. -/
structure AskedFor (chain : ValidationChain) (calls : List Call) (s : PaymentService)
    (t : Thread) : Prop where
  among : t.call ∈ calls
  sound : Sound chain t.call t.pc
  stored : ∀ id txn, s.transactions.lookup id = some txn → ∃ c ∈ calls, c.req.Asks txn
  replied : ∀ txn, t.pc = .replied (.ok txn) → ∃ c ∈ calls, c.req.Asks txn

theorem Fires.asked_for {calls : List Call} {c : Call} {s s' : PaymentService} {pc pc' : Pc}
    (fired : Fires chain c s pc s' pc') (asked : AskedFor chain calls s ⟨c, pc⟩) :
    ∀ id txn, s'.transactions.lookup id = some txn → ∃ c ∈ calls, c.req.Asks txn := by
  intro id txn found
  rcases fired.transactions with same | ⟨own, type, res, rfl, -, inserted⟩
  · rw [same] at found
    exact asked.stored id txn found
  · rw [inserted] at found
    by_cases mine : id = own.id
    · subst mine
      rw [AList.lookup_insert] at found
      cases found
      exact ⟨c, asked.among, asked.sound.asks rfl⟩
    · rw [AList.lookup_insert_ne mine] at found
      exact asked.stored id txn found

theorem Reaches.asked_for {accounts : InMemoryAccountRepository} {calls : List Call}
    {sched : List Nat} {sys : System}
    (reached : Reaches chain (PaymentService.opening accounts) calls sched sys) :
    ∀ t ∈ sys.threads, AskedFor chain calls sys.service t := by
  refine (interleaving chain).agentwise (P := AskedFor chain calls) ?_ ?_ ?_ reached
  · rintro s ⟨c, pc⟩ s' ⟨c', pc'⟩ ⟨same, fired⟩ asked
    obtain rfl : c' = c := same
    refine ⟨asked.among, fired.sound asked.sound, fired.asked_for asked, ?_⟩
    intro txn is
    replace is : pc' = .replied (.ok txn) := is
    cases fired with
    | replayed existingId prior found =>
      cases is
      exact asked.stored existingId txn found
    | unclaimed res code =>
      obtain ⟨msg, rfl⟩ := code
      cases is
    | unreplayed existingId res code =>
      obtain ⟨msg, rfl⟩ := code
      cases is
    | _ => cases is
  · rintro s t s' t' u ⟨-, fired⟩ asked theirs
    exact ⟨theirs.among, theirs.sound, fired.asked_for asked, theirs.replied⟩
  · intro t member
    obtain ⟨among, is⟩ := mem_init member
    refine ⟨among, by rw [is]; trivial, ?_, by rw [is]; nofun⟩
    intro id txn found
    simp [System.init, PaymentService.opening] at found

/-- A duplicate is answered with the payment of the call that won its key. -/
theorem Reaches.replied_by_winner {accounts : InMemoryAccountRepository} {calls : List Call}
    {sched : List Nat} {sys : System}
    (reached : Reaches chain (PaymentService.opening accounts) calls sched sys)
    (short : calls.length < 2 ^ 64) : ∀ t ∈ sys.threads, ∀ txn, t.pc = .replied (.ok txn) →
      ∃ u ∈ sys.threads, u.call.req.idempotencyKey = t.call.req.idempotencyKey ∧
        u.pc.won = some txn.id ∧ u.call.req.Asks txn := by
  refine exec_induct_reached (fun sys => ∀ t ∈ sys.threads, ∀ txn, t.pc = .replied (.ok txn) →
    ∃ u ∈ sys.threads, u.call.req.idempotencyKey = t.call.req.idempotencyKey ∧
      u.pc.won = some txn.id ∧ u.call.req.Asks txn) ?_ ?_ reached
  · intro early mid i mid' ran replied stepped t member txn is
    have ran : Reaches chain (PaymentService.opening accounts) calls early mid := ran
    obtain ⟨c, pc, pc', at_, fired, threads⟩ := step_fires stepped
    -- a winner stays one
    have still (key : String) (found : ∃ u ∈ mid.threads, u.call.req.idempotencyKey = key ∧
        u.pc.won = some txn.id ∧ u.call.req.Asks txn) :
        ∃ u ∈ mid'.threads, u.call.req.idempotencyKey = key ∧ u.pc.won = some txn.id ∧
          u.call.req.Asks txn := by
      rw [threads]
      exact exists_mem_set at_ (fun ⟨mine, won, asks⟩ => ⟨mine, fired.keeps_won won, asks⟩) found
    rw [threads] at member
    rcases List.mem_or_eq_of_mem_set member with there | rfl
    · exact still _ (replied t there txn is)
    · apply still
      generalize mid'.service = s' at fired
      cases fired with
      | replayed existingId prior found =>
        cases is
        have cites := ((ran.cited (filed_opening accounts)) _ (List.mem_of_getElem? at_)).key
          existingId rfl
        obtain ⟨u, member, mine, won⟩ := ran.winner rfl cites
        obtain ⟨j, there⟩ := List.mem_iff_getElem?.1 member
        have saved : u.pc.saved = some txn :=
          ((ran.settled short).own j u there existingId won).1.symm.trans found
        have carried := Pc.txn_of_saved saved
        have sound := ran.sound u member
        have named := (sound.txn carried).1
        exact ⟨u, member, mine, named, sound.asks carried⟩
      | unclaimed res code =>
        obtain ⟨msg, rfl⟩ := code
        cases is
      | unreplayed existingId res code =>
        obtain ⟨msg, rfl⟩ := code
        cases is
      | _ => cases is
  · intro t member txn is
    rw [(mem_init member).2] at is
    cases is

/-- **Whose payment an ok answer is about.**  A call that won its key is answered with
its own payment; any other with one that some call asked for, and with fewer than
`2 ^ 64` calls that is the call that won the same key. -/
theorem ok_answer_owner {accounts : InMemoryAccountRepository} {calls : List Call}
    {sched : List Nat} {sys : System}
    (reached : Reaches chain (PaymentService.opening accounts) calls sched sys) :
    ∀ t ∈ sys.threads, ∀ txn, t.pc.outcome = some (.ok (.ok txn)) →
      (t.pc.won ≠ none → t.call.req.Asks txn) ∧ (∃ c ∈ calls, c.req.Asks txn) ∧
      (calls.length < 2 ^ 64 → ∃ u ∈ sys.threads,
        u.call.req.idempotencyKey = t.call.req.idempotencyKey ∧ u.pc.won = some txn.id ∧
          u.call.req.Asks txn) := by
  intro t member txn answer
  have sound := reached.sound t member
  have asked := reached.asked_for t member
  rcases sound.answered answer with is | ⟨carried, -⟩
  · refine ⟨fun won => ?_, asked.replied txn is, fun short => ?_⟩
    · rw [is] at won
      exact absurd rfl won
    · exact reached.replied_by_winner short t member txn is
  · have asks := sound.asks carried
    exact ⟨fun _ => asks, ⟨t.call, asked.among, asks⟩,
      fun _ => ⟨t, member, rfl, (sound.txn carried).1, asks⟩⟩

/-- The transaction of an ok answer. -/
def Pc.answered (pc : Pc) : Option Transaction :=
  match pc.outcome with
  | some (.ok (.ok txn)) => some txn
  | _ => none

theorem Pc.outcome_of_answered {pc : Pc} {txn : Transaction} (answered : pc.answered = some txn) :
    pc.outcome = some (.ok (.ok txn)) := by
  unfold Pc.answered at answered
  split at answered
  · rename_i outcome
    cases answered
    exact outcome
  · cases answered

/-- Two requests that share a key and nothing else: the second is answered ok with
the payment of the first. -/
theorem ok_answer_of_another : ∃ sys, Reaches mainChain (PaymentService.opening userAndMerchant)
    [upiCall "key-1" "u" "m" 30000, upiCall "key-1" "m" "u" 500]
    (List.replicate 20 0 ++ List.replicate 4 1) sys ∧
    ∃ t ∈ sys.threads, ∃ txn, t.pc.outcome = some (.ok (.ok txn)) ∧ ¬ t.call.req.Asks txn := by
  have ran : (exec (System.step mainChain)
      (System.init (PaymentService.opening userAndMerchant)
        [upiCall "key-1" "u" "m" 30000, upiCall "key-1" "m" "u" 500])
      (List.replicate 20 0 ++ List.replicate 4 1)).any
        (fun sys => sys.threads.any fun t => t.pc.answered.any fun txn =>
          decide (txn.payeeAccountId ≠ t.call.req.payeeAccountId)) = true := by decide +kernel
  obtain ⟨sys, reached, found⟩ := exec_any ran
  obtain ⟨t, member, answers⟩ := List.any_eq_true.1 found
  obtain ⟨txn, answered, other⟩ := (Option.any_eq_true _ _).1 answers
  refine ⟨sys, reached, t, member, txn, Pc.outcome_of_answered answered, fun asks => ?_⟩
  exact of_decide_eq_true other asks.payee

/-- The same two requests under keys of their own. -/
theorem ok_answer_owner_apart : ∃ sys, Reaches mainChain (PaymentService.opening userAndMerchant)
    [upiCall "key-1" "u" "m" 30000, upiCall "key-2" "m" "u" 500]
    (List.replicate 20 0 ++ List.replicate 20 1) sys ∧
    ∀ t ∈ sys.threads, ∀ txn, t.pc.outcome = some (.ok (.ok txn)) →
      t.pc.won ≠ none → t.call.req.Asks txn := by
  have ran : (exec (System.step mainChain)
      (System.init (PaymentService.opening userAndMerchant)
        [upiCall "key-1" "u" "m" 30000, upiCall "key-2" "m" "u" 500])
      (List.replicate 20 0 ++ List.replicate 20 1)).any
        (fun sys => sys.threads.all fun t => t.pc.outcome.isSome) = true := by decide +kernel
  obtain ⟨sys, reached, -⟩ := exec_any ran
  exact ⟨sys, reached, fun t member txn answer => (ok_answer_owner reached t member txn answer).1⟩

end PaymentSystem.Service
