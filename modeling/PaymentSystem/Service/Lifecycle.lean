/-
# PaymentSystem.Service.Lifecycle -- what a run never takes back

Two moments of one run, and what the later one owes the earlier.

* `lifecycle_legal`: a call's transaction changes its status and nothing else, only along
  transitions the state machine allows, starting from INITIATED; `advance`, which skips a
  transition that is not allowed without a word, never has to.
* `history_kept`: what has been written stays: the journal and the event log grow at their
  ends, and claimed keys, stored transactions, accounts and outcomes stay as they are.
-/
import PaymentSystem.Service.Files
import Mathlib.Logic.Relation

namespace PaymentSystem.Service

open PaymentSystem.Common
open PaymentSystem.Domain
open PaymentSystem.Patterns
open PaymentSystem.Adapters
open PaymentSystem.Infra
open PaymentSystem.Theory.Runs
open PaymentSystem.Theory.Threads

set_option autoImplicit false

variable {chain : ValidationChain}

/-! ## The status of a call -/

/-- The state machine accepts the transition. -/
def Legal (src dst : TxnStatus) : Prop := (transition src dst).isOk = true

instance (src dst : TxnStatus) : Decidable (Legal src dst) := inferInstanceAs (Decidable (_ = _))

/-- The status of the transaction of a call: INITIATED until there is one. -/
def Pc.status (pc : Pc) : TxnStatus := (pc.txn.map Transaction.status).getD .initiated

theorem advance_legal {txn : Transaction} {dst : TxnStatus} (legal : Legal txn.status dst) :
    advance txn dst = txn.setStatus dst := by
  have allowed : canTransition txn.status dst = true := (transition_isOk _ _).symm.trans legal
  rw [advance, if_pos allowed]

/-- What a call asks the state machine for at a program point, next. -/
def Pc.requests : Pc → List TxnStatus
  | .validate _ | .load _ | .debit _ | .undoDebit _ _ => [.failed]
  | .authorize _ _ => [.authorized, .failed]
  | .capture _ => [.captured, .failed]
  | _ => []

theorem legal_initiated : ∀ dst ∈ [TxnStatus.authorized, .failed], Legal .initiated dst := by decide

theorem legal_authorized : ∀ dst ∈ [TxnStatus.captured, .failed], Legal .authorized dst := by decide

theorem Flying.authorized {c : Call} {f : Flight} (flying : Flying chain c f) :
    f.txn.status = .authorized := by
  rw [flying.is]
  rfl

/-- **No transition a call asks for is refused.** -/
theorem Sound.requests {c : Call} {pc : Pc} (sound : Sound chain c pc) :
    ∀ dst ∈ pc.requests, Legal pc.status dst := by
  intro dst asked
  cases pc with
  | validate txn =>
    show Legal txn.status dst
    rw [Opened.status sound]
    exact legal_initiated dst (List.mem_cons_of_mem _ asked)
  | load txn =>
    show Legal txn.status dst
    rw [Opened.status sound.1]
    exact legal_initiated dst (List.mem_cons_of_mem _ asked)
  | authorize txn strategy =>
    show Legal txn.status dst
    rw [Opened.status sound.1]
    exact legal_initiated dst asked
  | debit f =>
    show Legal f.txn.status dst
    rw [Flying.authorized sound]
    exact legal_authorized dst (List.mem_cons_of_mem _ asked)
  | undoDebit f err =>
    show Legal f.txn.status dst
    rw [Flying.authorized sound]
    exact legal_authorized dst (List.mem_cons_of_mem _ asked)
  | capture f =>
    show Legal f.txn.status dst
    rw [Flying.authorized sound]
    exact legal_authorized dst asked
  | _ => cases asked

/-- One step of a transaction: its status, and that along an allowed transition. -/
inductive Advances (txn : Transaction) : Transaction → Prop where
  | stays : Advances txn txn
  | goes (dst : TxnStatus) (legal : Legal txn.status dst) : Advances txn (txn.setStatus dst)

theorem Sound.advances {c : Call} {pc : Pc} (sound : Sound chain c pc) {txn : Transaction}
    (own : pc.txn = some txn) {dst : TxnStatus} (asked : dst ∈ pc.requests) :
    Advances txn (advance txn dst) := by
  have legal := sound.requests dst asked
  rw [Pc.status, own] at legal
  have legal : Legal txn.status dst := legal
  rw [advance_legal legal]
  exact .goes dst legal

/-- **A step of a call keeps its transaction, but for an allowed change of status.** -/
theorem Fires.advances {c : Call} {s s' : PaymentService} {pc pc' : Pc}
    (fired : Fires chain c s pc s' pc') (sound : Sound chain c pc) {txn : Transaction}
    (own : pc.txn = some txn) : ∃ txn', pc'.txn = some txn' ∧ Advances txn txn' := by
  cases fired with
  | mint => cases own
  | won => cases own
  | lost => cases own
  | unclaimed => cases own
  | looked => cases own
  | replayed => cases own
  | unreplayed => cases own
  | unbuilt => cases own
  | built => cases own
  | rejected => cases own; exact ⟨_, rfl, sound.advances rfl (by simp [Pc.requests])⟩
  | unloaded => cases own; exact ⟨_, rfl, sound.advances rfl (by simp [Pc.requests])⟩
  | declined => cases own; exact ⟨_, rfl, sound.advances rfl (by simp [Pc.requests])⟩
  | authorized => cases own; exact ⟨_, rfl, sound.advances rfl (by simp [Pc.requests])⟩
  | refused => cases own; exact ⟨_, rfl, sound.advances rfl (by simp [Pc.requests])⟩
  | undebited => cases own; exact ⟨_, rfl, sound.advances rfl (by simp [Pc.requests])⟩
  | undebitedNowhere => cases own; exact ⟨_, rfl, sound.advances rfl (by simp [Pc.requests])⟩
  | uncaptured => cases own; exact ⟨_, rfl, sound.advances rfl (by simp [Pc.requests])⟩
  | captured => cases own; exact ⟨_, rfl, sound.advances rfl (by simp [Pc.requests])⟩
  | _ => exact ⟨txn, own, .stays⟩

/-- A transaction that appears is INITIATED. -/
theorem Fires.appears {c : Call} {s s' : PaymentService} {pc pc' : Pc}
    (fired : Fires chain c s pc s' pc') (sound : Sound chain c pc) (none_ : pc.txn = none)
    {txn : Transaction} (own : pc'.txn = some txn) : txn.status = .initiated := by
  have step := fired.sound sound
  cases fired with
  | built txnId built ok =>
    cases own
    exact Opened.status step
  | mint => cases own
  | won => cases own
  | lost => cases own
  | unclaimed => cases own
  | looked => cases own
  | replayed => cases own
  | unreplayed => cases own
  | unbuilt => cases own
  | _ => cases none_

theorem Fires.walks {c : Call} {s s' : PaymentService} {pc pc' : Pc}
    (fired : Fires chain c s pc s' pc') (sound : Sound chain c pc) :
    pc'.status = pc.status ∨ Legal pc.status pc'.status := by
  cases own : pc.txn with
  | none =>
    left
    have before : pc.status = .initiated := by rw [Pc.status, own]; rfl
    cases own' : pc'.txn with
    | none =>
      rw [before, Pc.status, own']
      rfl
    | some txn =>
      rw [before, Pc.status, own']
      exact fired.appears sound own own'
  | some txn =>
    obtain ⟨txn', own', advances⟩ := fired.advances sound own
    rw [Pc.status, Pc.status, own, own']
    cases advances with
    | stays => exact .inl rfl
    | goes dst legal => exact .inr legal

/-- A saved transaction stays the one the call has saved. -/
theorem Fires.keeps_saved {c : Call} {s s' : PaymentService} {pc pc' : Pc}
    (fired : Fires chain c s pc s' pc') (sound : Sound chain c pc) {txn : Transaction}
    (saved : pc.saved = some txn) : pc'.saved = some txn := by
  cases fired with
  | published => exact saved
  | notified txn' type res =>
    cases saved
    rcases Closing.status sound with ⟨status, -⟩ | ⟨status, -⟩ <;> simp [Pc.saved, status]
  | unlocked => exact saved
  | _ => cases saved

theorem Fires.unended {c : Call} {s s' : PaymentService} {pc pc' : Pc}
    (fired : Fires chain c s pc s' pc') : pc.outcome = none := by
  cases fired <;> rfl

/-! ## Two moments of a run -/

/-- What a call owes its earlier self. -/
structure Progresses (t t' : Thread) : Prop where
  walks : Relation.ReflTransGen Legal t.pc.status t'.pc.status
  same : ∀ txn, t.pc.txn = some txn → t'.pc.txn = some (txn.setStatus t'.pc.status)
  saved : ∀ txn, t.pc.saved = some txn → t'.pc.saved = some txn
  ended : t.pc.outcome ≠ none → t' = t

theorem Progresses.refl (t : Thread) : Progresses t t where
  walks := .refl
  same txn own := by rw [own, Pc.status, own]; rfl
  saved _ saved := saved
  ended _ := rfl

theorem Progresses.step {t : Thread} {c : Call} {s s' : PaymentService} {pc pc' : Pc}
    (progresses : Progresses t ⟨c, pc⟩) (sound : Sound chain c pc)
    (fired : Fires chain c s pc s' pc') : Progresses t ⟨c, pc'⟩ where
  walks := by
    rcases fired.walks sound with same | legal
    · show Relation.ReflTransGen Legal t.pc.status pc'.status
      rw [same]
      exact progresses.walks
    · exact progresses.walks.tail legal
  same txn own := by
    obtain ⟨txn', own', advances⟩ := fired.advances sound (progresses.same txn own)
    show pc'.txn = some (txn.setStatus pc'.status)
    rw [Pc.status, own']
    cases advances with
    | stays => rfl
    | goes dst legal => rfl
  saved txn saved := fired.keeps_saved sound (progresses.saved txn saved)
  ended over_ := by
    have same : (⟨c, pc⟩ : Thread) = t := progresses.ended over_
    rw [← same] at over_
    exact absurd fired.unended over_

section Moments

variable {service : PaymentService} {calls : List Call} {early late : List Nat} {mid sys : System}

/-- Every call of the later moment has progressed from its earlier self. -/
theorem Reaches.progresses (before : Reaches chain service calls early mid)
    (ran : exec (System.step chain) mid late = some sys) {i : Nat} {t : Thread}
    (at_ : mid.threads[i]? = some t) : ∃ t', sys.threads[i]? = some t' ∧ Progresses t t' := by
  refine exec_induct_reached
    (fun sys => ∃ t', sys.threads[i]? = some t' ∧ Progresses t t') ?_ ⟨t, at_, .refl t⟩ ran
  rintro done u j v ran' ⟨t', there, progresses⟩ stepped
  obtain ⟨c, pc, pc', stood, fired, threads⟩ := step_fires stepped
  rw [threads]
  by_cases same : j = i
  · subst same
    cases stood.symm.trans there
    have reached : Reaches chain service calls (early ++ done) u := exec_append.2 ⟨mid, before, ran'⟩
    exact ⟨_, List.getElem?_set_self (List.getElem?_eq_some_iff.1 stood).1,
      progresses.step (reached.sound _ (List.mem_of_getElem? stood)) fired⟩
  · exact ⟨t', (List.getElem?_set_ne same).trans there, progresses⟩

/-- The transaction and the answer a call returned with agree. -/
theorem Sound.verdict {c : Call} {pc : Pc} (sound : Sound chain c pc) {txn : Transaction}
    {res : Result Transaction} (own : pc.txn = some txn) (returned : pc.outcome = some (.ok res)) :
    txn.status = .captured ∧ res = .ok txn ∨ txn.status = .failed ∧ ∃ err, res = .fail err := by
  cases pc with
  | finished txn' out =>
    cases own
    cases returned
    generalize is : (Except.ok res : Outcome) = out at sound
    cases sound with
    | threw e opened ran => cases is
    | told type res' closing =>
      obtain rfl := told_ok is.symm
      rcases closing.ends with ⟨mine, -, failed⟩ | ⟨mine, -, captured⟩
      · exact .inr ⟨by rw [mine]; rfl, failed⟩
      · exact .inl ⟨by rw [mine]; rfl, captured⟩
  | replied res' => cases own
  | unbuilt id e => cases own
  | _ => cases returned

/-- One more step changes no status, or along an allowed transition. -/
theorem Reaches.walks {sched : List Nat} {sys' : System} {j : Nat}
    (reached : Reaches chain service calls sched sys) {i : Nat} {t : Thread}
    (at_ : sys.threads[i]? = some t) (stepped : System.step chain sys j = some sys') :
    ∃ t', sys'.threads[i]? = some t' ∧
      (t'.pc.status = t.pc.status ∨ Legal t.pc.status t'.pc.status) := by
  obtain ⟨c, pc, pc', stood, fired, threads⟩ := step_fires stepped
  rw [threads]
  by_cases same : j = i
  · subst same
    cases stood.symm.trans at_
    exact ⟨_, List.getElem?_set_self (List.getElem?_eq_some_iff.1 stood).1,
      fired.walks (reached.sound _ (List.mem_of_getElem? stood))⟩
  · exact ⟨t, (List.getElem?_set_ne same).trans at_, .inl rfl⟩

/-- **The lifecycle of a payment.**  Between any two moments of a run a call keeps its
transaction but for the status, and that has gone along transitions the state machine
allows, from INITIATED, one at a time: what a call asks the state machine for is always
allowed.  A call that returned an answer of its own left it CAPTURED and answers with it, or
left it FAILED and answers with an error. -/
theorem lifecycle_legal (before : Reaches chain service calls early mid)
    (ran : exec (System.step chain) mid late = some sys) {i : Nat} {t : Thread}
    (at_ : mid.threads[i]? = some t) :
    ∃ t', sys.threads[i]? = some t' ∧
      Relation.ReflTransGen Legal t.pc.status t'.pc.status ∧
      (∀ txn, t.pc.txn = some txn → t'.pc.txn = some (txn.setStatus t'.pc.status)) ∧
      (∀ txn res, t'.pc.txn = some txn → t'.pc.outcome = some (.ok res) →
        txn.status = .captured ∧ res = .ok txn ∨
          txn.status = .failed ∧ ∃ err, res = .fail err) ∧
      (∀ dst ∈ t'.pc.requests, Legal t'.pc.status dst) ∧
      ∀ j sys', System.step chain sys j = some sys' → ∃ t'', sys'.threads[i]? = some t'' ∧
        (t''.pc.status = t'.pc.status ∨ Legal t'.pc.status t''.pc.status) := by
  obtain ⟨t', there, progresses⟩ := before.progresses ran at_
  have reached : Reaches chain service calls (early ++ late) sys := exec_append.2 ⟨mid, before, ran⟩
  have sound := reached.sound t' (List.mem_of_getElem? there)
  exact ⟨t', there, progresses.walks, progresses.same, fun txn res own returned =>
    sound.verdict own returned, sound.requests, fun j sys' stepped => reached.walks there stepped⟩

/-- A payment seen at its debit, AUTHORIZED, and at its end, CAPTURED. -/
theorem lifecycle_legal_captured : ∃ mid sys t t',
    Reaches mainChain (PaymentService.opening userAndMerchant)
      [upiCall "key-1" "u" "m" 30000] (List.replicate 8 0) mid ∧
    exec (System.step mainChain) mid (List.replicate 12 0) = some sys ∧
    mid.threads[0]? = some t ∧ sys.threads[0]? = some t' ∧
    Relation.ReflTransGen Legal t.pc.status t'.pc.status ∧
    t.pc.status = .authorized ∧ t'.pc.status = .captured := by
  have ran : (exec (System.step mainChain) (System.init (PaymentService.opening userAndMerchant)
      [upiCall "key-1" "u" "m" 30000]) (List.replicate 8 0)).any
        (fun mid => (mid.threads[0]?.any fun t => decide (t.pc.status = .authorized)) &&
          (exec (System.step mainChain) mid (List.replicate 12 0)).any fun sys =>
            sys.threads[0]?.any fun t => decide (t.pc.status = .captured)) = true := by
    decide +kernel
  obtain ⟨mid, before, found⟩ := exec_any ran
  obtain ⟨authorized, later⟩ := Bool.and_eq_true_iff.1 found
  obtain ⟨sys, ran, captured⟩ := exec_any later
  obtain ⟨t, at_, authorized⟩ := (Option.any_eq_true _ _).1 authorized
  obtain ⟨t', there, walks, -⟩ := lifecycle_legal before ran at_
  rw [there] at captured
  exact ⟨mid, sys, t, t', before, ran, at_, there, walks, of_decide_eq_true authorized,
    of_decide_eq_true captured⟩

/-! ## What stays written -/

/-- What the stores of a service owe their earlier selves. -/
structure Extends (s s' : PaymentService) : Prop where
  journal : s.journal <+: s'.journal
  events : s.events <+: s'.events
  keys : ∀ key id, s.idempotency.lookup key = some id → s'.idempotency.lookup key = some id
  transactions : ∀ id txn, s.transactions.lookup id = some txn →
    s'.transactions.lookup id = some txn
  accounts : ∀ id, s'.ccyAt id = s.ccyAt id

theorem Fires.grows {c : Call} {s s' : PaymentService} {pc pc' : Pc}
    (fired : Fires chain c s pc s' pc') : s.journal <+: s'.journal ∧ s.events <+: s'.events := by
  constructor
  · rcases fired.journal with same | ⟨f, debitId, creditId, debitSeq, creditSeq, -, -, grown⟩
    · rw [same]
    · rw [grown]
      exact List.prefix_append _ _
  · rcases fired.events with same | ⟨txn, type, res, -, -, grown⟩
    · rw [same]
    · rw [grown]
      exact List.prefix_append _ _

theorem grows (ran : exec (System.step chain) mid late = some sys) :
    mid.service.journal <+: sys.service.journal ∧ mid.service.events <+: sys.service.events := by
  refine exec_induct (fun sys => mid.service.journal <+: sys.service.journal ∧
    mid.service.events <+: sys.service.events) ?_ ⟨List.prefix_rfl, List.prefix_rfl⟩ ran
  rintro u i v ⟨journal, events⟩ stepped
  obtain ⟨c, pc, pc', -, fired, -⟩ := step_fires stepped
  exact ⟨journal.trans fired.grows.1, events.trans fired.grows.2⟩

theorem keys_kept (ran : exec (System.step chain) mid late = some sys) {key id : String}
    (claimed : mid.service.idempotency.lookup key = some id) :
    sys.service.idempotency.lookup key = some id := by
  refine exec_induct (fun sys => sys.service.idempotency.lookup key = some id) ?_ claimed ran
  intro u i v claimed stepped
  obtain ⟨c, pc, pc', -, fired, -⟩ := step_fires stepped
  exact fired.keeps_key claimed

theorem accounts_kept (ran : exec (System.step chain) mid late = some sys) (id : String) :
    sys.service.ccyAt id = mid.service.ccyAt id := by
  refine exec_induct (fun sys => sys.service.ccyAt id = mid.service.ccyAt id) ?_ rfl ran
  intro u i v same stepped
  obtain ⟨c, pc, pc', -, fired, -⟩ := step_fires stepped
  rw [fired.ccyAt, same]

/-- Whoever stored a transaction still carries it. -/
theorem Reaches.transactions_kept {accounts : InMemoryAccountRepository}
    (before : Reaches chain (PaymentService.opening accounts) calls early mid)
    (ran : exec (System.step chain) mid late = some sys) (short : calls.length < 2 ^ 64)
    {id : String} {txn : Transaction} (stored : mid.service.transactions.lookup id = some txn) :
    sys.service.transactions.lookup id = some txn := by
  have reached : Reaches chain (PaymentService.opening accounts) calls (early ++ late) sys :=
    exec_append.2 ⟨mid, before, ran⟩
  obtain ⟨t, member, won⟩ : ∃ t ∈ mid.threads, t.pc.won = some id := by
    by_contra nobody
    have blank : mid.service.file id = File.blank :=
      (before.settled short).others id fun t member won => nobody ⟨t, member, won⟩
    cases stored.symm.trans (congrArg File.transaction blank)
  obtain ⟨i, at_⟩ := List.mem_iff_getElem?.1 member
  have saved : t.pc.saved = some txn :=
    ((before.settled short).own i t at_ id won).1.symm.trans stored
  obtain ⟨t', there, progresses⟩ := before.progresses ran at_
  obtain ⟨u, there', won'⟩ := won_persists ran ⟨t, at_, won⟩
  cases there'.symm.trans there
  exact ((reached.settled short).own i t' there id won').1.trans (progresses.saved txn saved)

/-- **What is written stays.**  Between any two moments of a run of fewer than `2 ^ 64`
calls the journal and the event log have only grown at their ends; every claimed key,
every stored transaction and every account is as it was; and a call that had ended is as
it was. -/
theorem history_kept {accounts : InMemoryAccountRepository}
    (before : Reaches chain (PaymentService.opening accounts) calls early mid)
    (ran : exec (System.step chain) mid late = some sys) (short : calls.length < 2 ^ 64) :
    Extends mid.service sys.service ∧
      ∀ (i : Nat) (t : Thread), mid.threads[i]? = some t → t.pc.outcome ≠ none →
        sys.threads[i]? = some t := by
  refine ⟨⟨(grows ran).1, (grows ran).2, fun key id => keys_kept ran,
    fun id txn => before.transactions_kept ran short, accounts_kept ran⟩, ?_⟩
  intro i t at_ ended
  obtain ⟨t', there, progresses⟩ := before.progresses ran at_
  rw [there, progresses.ended ended]

end Moments

/-- A payment that has been captured, and a second that runs after it. -/
theorem history_kept_two : ∃ mid sys, Reaches mainChain (PaymentService.opening userAndMerchant)
    [upiCall "key-1" "u" "m" 30000, upiCall "key-2" "m" "u" 500] (List.replicate 20 0) mid ∧
    exec (System.step mainChain) mid (List.replicate 20 1) = some sys ∧
    mid.service.journal <+: sys.service.journal ∧ mid.service.journal.length = 2 ∧
    sys.service.journal.length = 4 := by
  have ran : (exec (System.step mainChain) (System.init (PaymentService.opening userAndMerchant)
      [upiCall "key-1" "u" "m" 30000, upiCall "key-2" "m" "u" 500]) (List.replicate 20 0)).any
        (fun mid => decide (mid.service.journal.length = 2) &&
          (exec (System.step mainChain) mid (List.replicate 20 1)).any
            fun sys => decide (sys.service.journal.length = 4)) = true := by decide +kernel
  obtain ⟨mid, before, found⟩ := exec_any ran
  obtain ⟨two, later⟩ := Bool.and_eq_true_iff.1 found
  obtain ⟨sys, ran, four⟩ := exec_any later
  have kept := (history_kept before ran (by decide)).1
  exact ⟨mid, sys, before, ran, kept.journal, of_decide_eq_true two, of_decide_eq_true four⟩

end PaymentSystem.Service
