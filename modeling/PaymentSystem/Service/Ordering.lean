/-
# PaymentSystem.Service.Ordering -- what is told, and in what order

Between its posting and its event a call takes three more steps, and any other call may
take its own in between.  Two things an observer of the event log may still rely on, with
any strategies, ledger and subscribers:

* `told_as_booked`: the payments of one payer are told of in the order in which they were
  booked; the last one may still be untold, and then its call holds the payer's lock.
* `told_of_stored`: an event is about a stored transaction in the status it names, and if
  that is CAPTURED the two entries are in the journal.
-/
import PaymentSystem.Service.Lifecycle
import PaymentSystem.Service.Books
import PaymentSystem.Service.Locks

namespace PaymentSystem.Service

open PaymentSystem.Common
open PaymentSystem.Domain
open PaymentSystem.Patterns
open PaymentSystem.Adapters
open PaymentSystem.Theory.Runs
open PaymentSystem.Theory.Threads

set_option autoImplicit false

variable {chain : ValidationChain}

/-! ## Booked and told -/

/-- The transactions debited from the payer, in the order of the journal. -/
def bookedFor (payer : String) (s : PaymentService) : List String :=
  (s.journal.filter fun e => e.direction = .debit ∧ e.accountId = payer).map LedgerEntry.txnId

/-- Those of them the event log tells of, in the order of the log. -/
def toldFor (payer : String) (s : PaymentService) : List String :=
  (s.events.map DomainEvent.aggregateId).filter fun id => id ∈ bookedFor payer s

/-- What a call may have booked and not yet told. -/
def Pc.untold : Pc → Option String
  | .capture f => some f.txn.id
  | .save txn _ _ | .publish txn _ _ => some txn.id
  | _ => none

theorem Pc.inside_of_untold {pc : Pc} {id : String} (untold : pc.untold = some id) :
    pc.Inside := by
  cases pc <;> first | exact trivial | cases untold

/-- What is untold stays so until its event is logged. -/
theorem Fires.keeps_untold {c : Call} {s s' : PaymentService} {pc pc' : Pc} {id : String}
    (fired : Fires chain c s pc s' pc') (quiet : s'.events = s.events)
    (untold : pc.untold = some id) : pc'.untold = some id := by
  cases fired with
  | uncaptured f err failed => exact (Pc.failing_won f.txn err).trans untold
  | captured f ok => exact (Pc.capturing_won f.txn).trans untold
  | saved => exact untold
  | published txn type res => simp at quiet
  | _ => cases untold

theorem booked_posted (payer : String) {s s' : PaymentService} {req : PaymentRequest}
    {txnId debitId creditId : String} {debitSeq creditSeq : Int64}
    (grown : s'.journal = s.journal ++ postingOf req txnId debitId creditId debitSeq creditSeq) :
    bookedFor payer s' =
      bookedFor payer s ++ if req.payerAccountId = payer then [txnId] else [] := by
  unfold bookedFor
  rw [grown]
  by_cases mine : req.payerAccountId = payer <;> simp [postingOf, mine]

theorem booked_unposted (payer : String) {s s' : PaymentService} (same : s'.journal = s.journal) :
    bookedFor payer s' = bookedFor payer s := by
  rw [bookedFor, same]
  rfl

theorem told_untold {payer id : String} {s s' : PaymentService} (quiet : s'.events = s.events)
    (grown : bookedFor payer s' = bookedFor payer s ++ [id])
    (untold : ∀ e ∈ s.events, e.aggregateId ≠ id) : toldFor payer s' = toldFor payer s := by
  unfold toldFor
  rw [quiet, grown]
  apply List.filter_congr
  intro other member
  obtain ⟨e, logged, rfl⟩ := List.mem_map.1 member
  simp [untold e logged]

theorem told_logged (payer : String) {type : String} {txn : Transaction} {s s' : PaymentService}
    (grown : s'.events = s.events ++ [eventOf txn type])
    (same : bookedFor payer s' = bookedFor payer s) :
    toldFor payer s' =
      toldFor payer s ++ if txn.id ∈ bookedFor payer s then [txn.id] else [] := by
  unfold toldFor
  rw [grown, same]
  by_cases mine : txn.id ∈ bookedFor payer s <;> simp [eventOf, mine]

/-- All that is booked of the payer has been told, in its order; or all but the last,
whose call is about to tell it. -/
def InOrder (payer : String) (sys : System) : Prop :=
  bookedFor payer sys.service = toldFor payer sys.service ∨
    ∃ t ∈ sys.threads, ∃ id, t.call.req.payerAccountId = payer ∧ t.pc.untold = some id ∧
      bookedFor payer sys.service = toldFor payer sys.service ++ [id]

section Step

variable {sys sys' : System} {i : Nat} {payer : String}

/-- No event is about a transaction whose call has published none. -/
theorem Filewise.unlogged (settled : Filewise Settled sys) {t : Thread} (member : t ∈ sys.threads)
    {id : String} (won : t.pc.won = some id) (none_ : t.pc.published = []) :
    ∀ e ∈ sys.service.events, e.aggregateId ≠ id := by
  obtain ⟨i, at_⟩ := List.mem_iff_getElem?.1 member
  have empty : (sys.service.events.filter fun e => e.aggregateId = id) = [] :=
    (settled.own i t at_ id won).2.trans none_
  intro e logged is
  exact List.filter_eq_nil_iff.1 empty e logged (decide_eq_true is)

theorem InOrder.step (order : InOrder payer sys) (mutex : Mutex sys)
    (settled : Filewise Settled sys) (stepped : System.step chain sys i = some sys') :
    InOrder payer sys' := by
  obtain ⟨c, pc, pc', at_, fired, threads⟩ := step_fires stepped
  have member : (⟨c, pc⟩ : Thread) ∈ sys.threads := List.mem_of_getElem? at_
  -- whoever is untold stays untold while no event is logged
  have still (id : String) (quiet : sys'.service.events = sys.service.events)
      (pending : ∃ t ∈ sys.threads, t.call.req.payerAccountId = payer ∧ t.pc.untold = some id) :
      ∃ t ∈ sys'.threads, t.call.req.payerAccountId = payer ∧ t.pc.untold = some id := by
    rw [threads]
    exact exists_mem_set at_ (fun ⟨mine, untold⟩ => ⟨mine, fired.keeps_untold quiet untold⟩) pending
  rcases fired.journal with same | ⟨f, debitId, creditId, debitSeq, creditSeq, rfl, rfl, grown⟩
  · have booked := booked_unposted payer same
    rcases fired.events with quiet | ⟨txn, type, res, rfl, rfl, grown⟩
    · have told : toldFor payer sys'.service = toldFor payer sys.service := by
        rw [toldFor, quiet, booked]
        rfl
      rcases order with all | ⟨t, there, id, mine, untold, last⟩
      · exact .inl (by rw [booked, told, all])
      · obtain ⟨u, there', mine', untold'⟩ := still id quiet ⟨t, there, mine, untold⟩
        exact .inr ⟨u, there', id, mine', untold', by rw [booked, told, last]⟩
    · -- the event of the mover: if it is one of the payer, it was the untold one
      have told := told_logged payer grown booked
      have fresh := settled.unlogged member rfl rfl
      have unsaid : txn.id ∉ toldFor payer sys.service := by
        intro among
        obtain ⟨e, logged, is⟩ := List.mem_map.1 (List.mem_filter.1 among).1
        exact fresh e logged is
      by_cases mine : txn.id ∈ bookedFor payer sys.service
      · rw [if_pos mine] at told
        rcases order with all | ⟨t, there, id, -, -, last⟩
        · exact absurd (all ▸ mine) unsaid
        · rw [last, List.mem_append, List.mem_singleton] at mine
          obtain rfl := mine.resolve_left unsaid
          exact .inl (by rw [booked, told, last])
      · rw [if_neg mine, List.append_nil] at told
        rcases order with all | ⟨t, there, id, own, untold, last⟩
        · exact .inl (by rw [booked, told, all])
        · have other : t ≠ ⟨c, .publish txn type res⟩ := by
            rintro rfl
            cases untold
            exact mine (by rw [last]; simp)
          refine .inr ⟨t, ?_, id, own, untold, by rw [booked, told, last]⟩
          obtain ⟨j, there⟩ := List.mem_iff_getElem?.1 there
          have apart : i ≠ j := by
            rintro rfl
            exact other (Option.some.inj (there.symm.trans at_))
          rw [threads]
          exact List.mem_of_getElem? ((List.getElem?_set_ne apart).trans there)
  · have quiet : sys'.service.events = sys.service.events := by
      rcases fired.events with same | ⟨txn, type, res, is, -⟩
      · exact same
      · cases is
    have booked := booked_posted payer grown
    by_cases mine : c.req.payerAccountId = payer
    · -- the mover holds the payer's lock, so nobody else has anything untold
      rw [if_pos mine] at booked
      have told := told_untold quiet booked (settled.unlogged member rfl rfl)
      have mover : (⟨c, .capture f⟩ : Thread) ∈ sys'.threads := by
        rw [threads]
        exact mem_set_at at_ _
      rcases order with all | ⟨t, there, id, own, untold, -⟩
      · exact .inr ⟨_, mover, f.txn.id, mine, rfl, by rw [booked, told, all]⟩
      · exfalso
        obtain ⟨j, there⟩ := List.mem_iff_getElem?.1 there
        have here : i = j := mutex.apart i j _ t (lockKey c.req) at_ there ⟨trivial, rfl⟩
          ⟨Pc.inside_of_untold untold, by rw [lockKey, lockKey, own, mine]⟩
        subst here
        cases there.symm.trans at_
        cases untold
    · rw [if_neg mine, List.append_nil] at booked
      have told : toldFor payer sys'.service = toldFor payer sys.service := by
        rw [toldFor, quiet, booked]
        rfl
      rcases order with all | ⟨t, there, id, own, untold, last⟩
      · exact .inl (by rw [booked, told, all])
      · obtain ⟨u, there', own', untold'⟩ := still id quiet ⟨t, there, own, untold⟩
        exact .inr ⟨u, there', id, own', untold', by rw [booked, told, last]⟩

end Step

theorem free_opening (accounts : InMemoryAccountRepository) (key : String) :
    ¬ (PaymentService.opening accounts).locks.Held key := by
  simp [PaymentService.opening, InMemoryDistributedLock.Held]

section Runs

variable {accounts : InMemoryAccountRepository} {calls : List Call} {sched : List Nat}
  {sys : System}

theorem Reaches.inOrder (reached : Reaches chain (PaymentService.opening accounts) calls sched sys)
    (short : calls.length < 2 ^ 64) (payer : String) : InOrder payer sys := by
  refine exec_induct_reached (InOrder payer) ?_ (.inl rfl) reached
  intro early mid i mid' ran order stepped
  have ran : Reaches chain (PaymentService.opening accounts) calls early mid := ran
  exact order.step (ran.mutex (free_opening accounts)) (ran.settled short) stepped

/-- **The payments of one payer are told of in the order in which they were booked.**  With
fewer than `2 ^ 64` calls, at any moment the event log has told of all of them but perhaps the
last one booked, and of that one too whenever nobody holds the payer's lock. -/
theorem told_as_booked (reached : Reaches chain (PaymentService.opening accounts) calls sched sys)
    (short : calls.length < 2 ^ 64) (payer : String) :
    toldFor payer sys.service <+: bookedFor payer sys.service ∧
      (bookedFor payer sys.service).length ≤ (toldFor payer sys.service).length + 1 ∧
      (¬ sys.service.locks.Held ("account:" ++ payer) →
        toldFor payer sys.service = bookedFor payer sys.service) := by
  rcases reached.inOrder short payer with all | ⟨t, member, id, mine, untold, last⟩
  · rw [all]
    exact ⟨List.prefix_rfl, Nat.le_succ _, fun _ => rfl⟩
  · rw [last]
    refine ⟨List.prefix_append _ _, by simp, fun free => absurd ?_ free⟩
    rw [(reached.mutex (free_opening accounts)).held]
    exact ⟨t, member, Pc.inside_of_untold untold, by rw [lockKey, mine]⟩

end Runs

/-- Two payments of one wallet, the first booked and not yet told, the second at the lock. -/
theorem told_as_booked_two : ∃ sys, Reaches mainChain (PaymentService.opening userAndMerchant)
    [upiCall "key-1" "u" "m" 30000, upiCall "key-2" "u" "m" 500]
    (List.replicate 4 1 ++ List.replicate 15 0) sys ∧
    toldFor "u" sys.service = [] ∧ bookedFor "u" sys.service = ["txn_2"] ∧
    toldFor "u" sys.service <+: bookedFor "u" sys.service := by
  have ran : (exec (System.step mainChain) (System.init (PaymentService.opening userAndMerchant)
      [upiCall "key-1" "u" "m" 30000, upiCall "key-2" "u" "m" 500])
      (List.replicate 4 1 ++ List.replicate 15 0)).any
        (fun sys => decide (toldFor "u" sys.service = [] ∧
          bookedFor "u" sys.service = ["txn_2"])) = true := by decide +kernel
  obtain ⟨sys, reached, found⟩ := exec_any ran
  obtain ⟨told, booked⟩ := of_decide_eq_true found
  exact ⟨sys, reached, told, booked, (told_as_booked reached (by decide) "u").1⟩

/-! ## What an event vouches for -/

/-- The call has not posted. -/
def Pc.Unbooked : Pc → Prop
  | .build _ | .mutexFor _ | .lock _ | .validate _ | .load _ | .authorize _ _ | .debit _
  | .credit _ | .drawDebitId _ | .drawDebitSeq _ _ | .drawCreditId _ _ _
  | .drawCreditSeq _ _ _ _ | .post _ _ _ _ _ => True
  | _ => False

/-- The journal entries of a call, whatever its strategy and its ledger: none before it
posts, and its pair once it is capturing or captured. -/
structure Entered (c : Call) (pc : Pc) (_ : String) (file : File) : Prop where
  before : pc.Unbooked → file.entries = []
  after : pc.Posted → Paired c.req.payerAccountId c.req.payeeAccountId c.req.amount file.entries

theorem Fires.entered {c : Call} {s s' : PaymentService} {pc pc' : Pc} {id : String}
    (fired : Fires chain c s pc s' pc') (sound : Sound chain c pc) (won : pc.won = some id)
    (entered : Entered c pc id (s.file id)) : Entered c pc' id (s'.file id) := by
  obtain ⟨before, after⟩ := entered
  -- a step that fails the call, or goes on without a posting
  have failing {txn : Transaction} {err : Error} (entries : (s'.file id).entries = (s.file id).entries)
      (now : pc' = .failing txn err) (legal : Legal txn.status .failed) :
      Entered c pc' id (s'.file id) := by
    subst now
    refine ⟨False.elim, fun captured => ?_⟩
    have captured : (advance txn .failed).status = .captured := captured
    rw [advance_legal legal] at captured
    cases captured
  cases fired with
  | raised txn e threw =>
    refine ⟨False.elim, fun captured => ?_⟩
    have captured : txn.status = .captured := captured
    rw [Opened.status sound] at captured
    cases captured
  | rejected txn v => exact failing rfl rfl (sound.requests _ (by simp [Pc.requests]))
  | unloaded txn err => exact failing rfl rfl (sound.requests _ (by simp [Pc.requests]))
  | declined txn strategy e => exact failing rfl rfl (sound.requests _ (by simp [Pc.requests]))
  | refused f _ err => exact failing rfl rfl (sound.requests _ (by simp [Pc.requests]))
  | undebited f err => exact failing rfl rfl (sound.requests _ (by simp [Pc.requests]))
  | undebitedNowhere f err => exact failing rfl rfl (sound.requests _ (by simp [Pc.requests]))
  | uncaptured f err => exact failing rfl rfl (sound.requests _ (by simp [Pc.requests]))
  | posted f debitId creditId debitSeq creditSeq ok =>
    cases won
    have none_ : (s.journal.filter fun e => e.txnId = f.txn.id) = [] := before trivial
    refine ⟨False.elim, fun _ => ⟨⟨debitId, f.txn.id, c.req.payerAccountId, .debit, c.req.amount,
      debitSeq⟩, ⟨creditId, f.txn.id, c.req.payeeAccountId, .credit, c.req.amount, creditSeq⟩, ?_,
      ⟨rfl, rfl, rfl⟩, ⟨rfl, rfl, rfl⟩⟩⟩
    simp [PaymentService.file, none_, postingOf]
  | won => cases won
  | unbuilt => exact ⟨False.elim, False.elim⟩
  | unposted => exact ⟨False.elim, False.elim⟩
  | captured f ok => exact ⟨False.elim, fun _ => after trivial⟩
  | built txnId txn ok => exact ⟨fun _ => before trivial, False.elim⟩
  | _ => exact ⟨before, after⟩

theorem Reaches.entered {accounts : InMemoryAccountRepository} {calls : List Call}
    {sched : List Nat} {sys : System}
    (reached : Reaches chain (PaymentService.opening accounts) calls sched sys)
    (short : calls.length < 2 ^ 64) : Filewise Entered sys := by
  refine reached.filewise short ?_ ?_
  · intro c _ id
    exact ⟨fun _ => rfl, False.elim⟩
  · intro c _ s pc s' pc' id sound fired won
    exact fired.entered sound won

/-- What a call has published: the transaction it has saved, in the status the event names. -/
theorem Sound.publishes {c : Call} {pc : Pc} (sound : Sound chain c pc) {e : DomainEvent}
    (said : e ∈ pc.published) : ∃ txn, pc.saved = some txn ∧
      (txn.status = .failed ∧ e = eventOf txn "PaymentFailed" ∨
        txn.status = .captured ∧ e = eventOf txn "PaymentCaptured" ∧ pc.Posted) := by
  have ended {txn : Transaction} {out : Outcome} (said : e ∈ (Pc.finished txn out).published) :
      txn.status = .failed ∧ e = eventOf txn "PaymentFailed" ∨
        txn.status = .captured ∧ e = eventOf txn "PaymentCaptured" := by
    simp only [Pc.published] at said
    split at said
    · rename_i captured
      exact .inr ⟨captured, List.mem_singleton.1 said⟩
    · rename_i failed
      exact .inl ⟨failed, List.mem_singleton.1 said⟩
    · cases said
  have finished {txn : Transaction} (saved : pc.saved = if txn.status = .initiated then none else some txn)
      (posted : pc.Posted ↔ txn.status = .captured)
      (ended : txn.status = .failed ∧ e = eventOf txn "PaymentFailed" ∨
        txn.status = .captured ∧ e = eventOf txn "PaymentCaptured") :
      ∃ txn, pc.saved = some txn ∧ (txn.status = .failed ∧ e = eventOf txn "PaymentFailed" ∨
        txn.status = .captured ∧ e = eventOf txn "PaymentCaptured" ∧ pc.Posted) := by
    rcases ended with ⟨failed, is⟩ | ⟨captured, is⟩
    · rw [if_neg (by rw [failed]; decide)] at saved
      exact ⟨txn, saved, .inl ⟨failed, is⟩⟩
    · rw [if_neg (by rw [captured]; decide)] at saved
      exact ⟨txn, saved, .inr ⟨captured, is, posted.2 captured⟩⟩
  cases pc with
  | notify txn type res =>
    obtain rfl : e = eventOf txn type := List.mem_singleton.1 said
    rcases Closing.status sound with ⟨failed, rfl⟩ | ⟨captured, rfl⟩
    · exact ⟨txn, rfl, .inl ⟨failed, rfl⟩⟩
    · exact ⟨txn, rfl, .inr ⟨captured, rfl, captured⟩⟩
  | unlock txn out =>
    have said : e ∈ (Pc.finished txn out).published := said
    exact finished rfl Iff.rfl (ended said)
  | finished txn out => exact finished rfl Iff.rfl (ended said)
  | _ => cases said

/-- **What an event vouches for.**  With fewer than `2 ^ 64` calls, at any moment, whatever the
strategies, ledgers and subscribers answer, an event in the log is about a transaction that is in
the store; it is `PaymentFailed` of a FAILED one, or `PaymentCaptured` of a CAPTURED one, and then
the two entries of that transaction, and no others of it, are in the journal. -/
theorem told_of_stored {accounts : InMemoryAccountRepository} {calls : List Call}
    {sched : List Nat} {sys : System}
    (reached : Reaches chain (PaymentService.opening accounts) calls sched sys)
    (short : calls.length < 2 ^ 64) :
    ∀ e ∈ sys.service.events, ∃ txn,
      sys.service.transactions.lookup e.aggregateId = some txn ∧ txn.id = e.aggregateId ∧
      (txn.status = .failed ∧ e = eventOf txn "PaymentFailed" ∨
        txn.status = .captured ∧ e = eventOf txn "PaymentCaptured" ∧
          Paired txn.payerAccountId txn.payeeAccountId txn.amount
            (sys.service.journal.filter fun entry => entry.txnId = txn.id)) := by
  intro e logged
  have settled := reached.settled short
  obtain ⟨t, member, won⟩ : ∃ t ∈ sys.threads, t.pc.won = some e.aggregateId := by
    by_contra nobody
    exact on_file_of_event logged
      (settled.others _ fun t member won => nobody ⟨t, member, won⟩)
  obtain ⟨i, at_⟩ := List.mem_iff_getElem?.1 member
  obtain ⟨transaction, events⟩ := settled.own i t at_ _ won
  have sound := reached.sound t member
  have said : e ∈ t.pc.published := by
    rw [← events]
    exact List.mem_filter.2 ⟨logged, decide_eq_true rfl⟩
  obtain ⟨txn, saved, is⟩ := sound.publishes said
  have carried := Pc.txn_of_saved saved
  have own : txn.id = e.aggregateId := Option.some.inj ((sound.txn carried).1.symm.trans won)
  refine ⟨txn, transaction.trans saved, own, ?_⟩
  rcases is with failed | ⟨captured, is, posted⟩
  · exact .inl failed
  · have asks := sound.asks carried
    have paired := ((reached.entered short).own i t at_ _ won).after posted
    rw [← asks.payer, ← asks.payee, ← asks.amount, ← own] at paired
    exact .inr ⟨captured, is, paired⟩

/-- A payment that has just been told of, its lock not yet released. -/
theorem told_of_stored_one : ∃ sys, Reaches mainChain (PaymentService.opening userAndMerchant)
    [upiCall "key-1" "u" "m" 30000] (List.replicate 18 0) sys ∧
    sys.service.locks.Held "account:u" ∧ ∃ e ∈ sys.service.events, ∃ txn,
      sys.service.transactions.lookup e.aggregateId = some txn ∧ txn.id = e.aggregateId := by
  have ran : (exec (System.step mainChain) (System.init (PaymentService.opening userAndMerchant)
      [upiCall "key-1" "u" "m" 30000]) (List.replicate 18 0)).any
        (fun sys => decide (sys.service.locks.Held "account:u") &&
          sys.service.events.any fun _ => true) = true := by decide +kernel
  obtain ⟨sys, reached, found⟩ := exec_any ran
  obtain ⟨held, some_⟩ := Bool.and_eq_true_iff.1 found
  obtain ⟨e, logged, -⟩ := List.any_eq_true.1 some_
  obtain ⟨txn, stored, own, -⟩ := told_of_stored reached (by decide) e logged
  exact ⟨sys, reached, of_decide_eq_true held, e, logged, txn, stored, own⟩

end PaymentSystem.Service
