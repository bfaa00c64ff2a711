/-
# PaymentSystem.Service.Gateway -- what the service says to a payment gateway

A strategy stands for a gateway outside the process.  What it is asked is not recorded
anywhere; `Metered` keeps it beside the run, call by call, with the answers.  In every
interleaving, whatever the gateways answer, each call has one of a few dialogues
(`Dialogue`), and how it ended says which (`Settlement`): nothing is captured that was not
authorized and booked, and an authorization is dropped only where nothing was booked.
In particular a strategy is asked once at most for each, so modelling one by what it answers
leaves out no state of its own.

* `Fires.converse`: one step, by how far the call has come.
* `gateway_protocol`: every run.
-/
import PaymentSystem.Service.Books

namespace PaymentSystem.Service

open PaymentSystem.Common
open PaymentSystem.Domain
open PaymentSystem.Patterns
open PaymentSystem.Adapters
open PaymentSystem.Theory.Runs
open PaymentSystem.Theory.Threads

set_option autoImplicit false

variable {chain : ValidationChain}

/-! ## The record of what was asked -/

/-- A call of a strategy, and the answer. -/
inductive GatewayCall where
  | authorize (txn : Transaction) (answer : Result GatewayRef)
  | capture (txn : Transaction) (ref : GatewayRef) (answer : Status)

/-- The answer is that of the strategy the request names. -/
def GatewayCall.Of (c : Call) : GatewayCall → Prop
  | .authorize txn answer => ∃ strategy, c.env.strategies c.req.method = some strategy ∧
      answer = strategy.authorize txn
  | .capture txn ref answer => ∃ strategy, c.env.strategies c.req.method = some strategy ∧
      answer = strategy.capture txn ref

/-- What the next step asks of the strategy, if anything. -/
def Pc.asks : Pc → Option GatewayCall
  | .authorize txn strategy => some (.authorize txn (strategy.authorize txn))
  | .capture f => some (.capture f.txn f.ref (f.strategy.capture f.txn f.ref))
  | _ => none

/-- A system, and what its calls have asked of their strategies. -/
structure Metered where
  sys : System
  asked : List (Nat × GatewayCall)

namespace Metered

def init (service : PaymentService) (calls : List Call) : Metered := ⟨System.init service calls, []⟩

def step (chain : ValidationChain) (m : Metered) (i : Nat) : Option Metered :=
  match m.sys.threads[i]? with
  | none => none
  | some t => (System.step chain m.sys i).map fun sys =>
      ⟨sys, m.asked ++ t.pc.asks.toList.map fun g => (i, g)⟩

/-- What call `i` has asked, in order. -/
def dialogue (m : Metered) (i : Nat) : List GatewayCall :=
  (m.asked.filter fun e => e.1 = i).map Prod.snd

theorem step_moves {m m' : Metered} {i : Nat} (stepped : step chain m i = some m') :
    ∃ c pc pc', m.sys.threads[i]? = some ⟨c, pc⟩ ∧ System.step chain m.sys i = some m'.sys ∧
      Fires chain c m.sys.service pc m'.sys.service pc' ∧
      m'.sys.threads = m.sys.threads.set i ⟨c, pc'⟩ ∧
      m'.dialogue i = m.dialogue i ++ pc.asks.toList ∧
      ∀ j, j ≠ i → m'.dialogue j = m.dialogue j := by
  unfold step at stepped
  split at stepped
  · cases stepped
  · rename_i t at_
    obtain ⟨sys, went, rfl⟩ := Option.map_eq_some_iff.1 stepped
    obtain ⟨c, pc, pc', at', fired, threads⟩ := step_fires went
    cases at_.symm.trans at'
    refine ⟨c, pc, pc', at_, went, fired, threads, ?_, fun j other => ?_⟩
    · cases pc.asks <;> simp [dialogue]
    · cases pc.asks <;> simp [dialogue, Ne.symm other]

/-- A metered run is a run. -/
theorem reaches {service : PaymentService} {calls : List Call} {sched : List Nat} {m : Metered}
    (ran : exec (step chain) (init service calls) sched = some m) :
    Reaches chain service calls sched m.sys := by
  obtain ⟨sys, reached, same⟩ := exec_lockstep (fun (m : Metered) sys => sys = m.sys)
    (fun early u i v sys _ same stepped => by
      obtain ⟨c, pc, pc', -, went, -⟩ := step_moves stepped
      exact ⟨v.sys, same ▸ went, rfl⟩) rfl ran
  exact same ▸ reached

/-- Metering a run does not stop it. -/
theorem exists_run {service : PaymentService} {calls : List Call} {sched : List Nat} {sys : System}
    (reached : Reaches chain service calls sched sys) :
    ∃ m, exec (step chain) (init service calls) sched = some m ∧ m.sys = sys := by
  refine exec_lockstep (fun sys (m : Metered) => m.sys = sys) ?_ rfl reached
  intro early u i v m _ same stepped
  obtain ⟨c, pc, pc', at_, -, -⟩ := step_fires stepped
  subst same
  simp [step, at_, stepped]

end Metered

/-! ## Dialogues -/

/-- What a call may have asked about its transaction, and been answered. -/
inductive Dialogue (c : Call) (id : String) : List GatewayCall → Prop where
  | silent : Dialogue c id []
  | declined (e : Error) : Dialogue c id [.authorize (c.txn id .initiated) (.fail e)]
  | approved (ref : GatewayRef) : Dialogue c id [.authorize (c.txn id .initiated) (.ok ref)]
  | captured (ref : GatewayRef) (answer : Status) : Dialogue c id
      [.authorize (c.txn id .initiated) (.ok ref), .capture (c.txn id .authorized) ref answer]

/-- The dialogue behind the status a call leaves its transaction in, and whether the journal
has its entries. -/
inductive Settlement (c : Call) (id : String) : List GatewayCall → TxnStatus → Bool → Prop where
  | threw : Settlement c id [] .initiated false
  | refused : Settlement c id [] .failed false
  | declined (e : Error) :
      Settlement c id [.authorize (c.txn id .initiated) (.fail e)] .failed false
  | unbooked (ref : GatewayRef) :
      Settlement c id [.authorize (c.txn id .initiated) (.ok ref)] .failed false
  | captured (ref : GatewayRef) (answer : Status) (ok : answer.isErr = false) : Settlement c id
      [.authorize (c.txn id .initiated) (.ok ref), .capture (c.txn id .authorized) ref answer]
      .captured true
  | uncaptured (ref : GatewayRef) (answer : Status) (err : answer.isErr = true) : Settlement c id
      [.authorize (c.txn id .initiated) (.ok ref), .capture (c.txn id .authorized) ref answer]
      .failed true

/-- The entries of a call, if it is booked. -/
def Journaled (c : Call) (booked : Bool) (entries : List LedgerEntry) : Prop :=
  if booked then Paired c.req.payerAccountId c.req.payeeAccountId c.req.amount entries
  else entries = []

/-- What was said is a dialogue, and a capture was asked for only with the entries in the
journal. -/
structure Spoken (c : Call) (id : String) (said : List GatewayCall) (entries : List LedgerEntry) :
    Prop where
  dialogue : Dialogue c id said
  booked : ∀ txn ref answer, .capture txn ref answer ∈ said → Journaled c true entries

section Spoken

variable {c : Call} {id : String} {said : List GatewayCall} {entries : List LedgerEntry}

theorem Spoken.silent : Spoken c id [] entries := ⟨.silent, by simp⟩

theorem Spoken.approved (ref : GatewayRef) :
    Spoken c id [.authorize (c.txn id .initiated) (.ok ref)] entries := ⟨.approved ref, by simp⟩

theorem Settlement.spoken {status : TxnStatus} {booked : Bool}
    (settlement : Settlement c id said status booked) (entered : Journaled c booked entries) :
    Spoken c id said entries := by
  cases settlement with
  | threw => exact .silent
  | refused => exact .silent
  | declined e => exact ⟨.declined e, by simp⟩
  | unbooked ref => exact .approved ref
  | captured ref answer ok => exact ⟨.captured ref answer, fun _ _ _ _ => entered⟩
  | uncaptured ref answer err => exact ⟨.captured ref answer, fun _ _ _ _ => entered⟩

end Spoken

/-- What a call has said, and entered in the journal, by how far it has come. -/
def Converse (c : Call) (said : List GatewayCall) (entries : List LedgerEntry) : Pc → Prop
  | .debit f | .credit f | .drawDebitId f | .drawDebitSeq f _ | .drawCreditId f _ _
  | .drawCreditSeq f _ _ _ | .post f _ _ _ _ | .undoCredit f _ | .undoDebit f _ =>
      said = [.authorize (c.txn f.txn.id .initiated) (.ok f.ref)] ∧ entries = []
  | .capture f =>
      said = [.authorize (c.txn f.txn.id .initiated) (.ok f.ref)] ∧ Journaled c true entries
  | .save txn _ _ | .publish txn _ _ | .notify txn _ _ | .unlock txn _ | .finished txn _ =>
      ∃ booked, Settlement c txn.id said txn.status booked ∧ Journaled c booked entries
  | _ => said = [] ∧ entries = []

/-! ## One step -/

theorem Converse.failing {c : Call} {said : List GatewayCall} {entries : List LedgerEntry}
    {txn : Transaction} {booked : Bool} (err : Error)
    (status : txn.status = .initiated ∨ txn.status = .authorized)
    (settlement : Settlement c txn.id said .failed booked) (entered : Journaled c booked entries) :
    Converse c said entries (.failing txn err) := by
  have failed : (advance txn .failed).status = .failed := by
    rcases status with is | is <;> simp [advance, is, canTransition, allowed, Transaction.setStatus]
  refine ⟨booked, ?_, entered⟩
  rw [advance_id, failed]
  exact settlement

/-- **What a step asks fits what its call asked before**, and what it enters. -/
theorem Fires.converse {c : Call} {s s' : PaymentService} {pc pc' : Pc} {id : String}
    {said : List GatewayCall} (fired : Fires chain c s pc s' pc') (sound : Sound chain c pc)
    (won : pc.won = some id) (converse : Converse c said (s.file id).entries pc) :
    Converse c (said ++ pc.asks.toList) (s'.file id).entries pc' := by
  cases fired with
  | mint => cases won
  | won => cases won
  | lost => cases won
  | unclaimed => cases won
  | looked => cases won
  | replayed => cases won
  | unreplayed => cases won
  | raised txn e threw =>
    obtain ⟨rfl, entries⟩ := converse
    refine ⟨false, ?_, entries⟩
    rw [Opened.status sound]
    exact .threw
  | rejected txn v =>
    obtain ⟨rfl, entries⟩ := converse
    exact .failing v.err (.inl (Opened.status sound)) .refused entries
  | unloaded txn err =>
    obtain ⟨rfl, entries⟩ := converse
    exact .failing err (.inl sound.1.status) .refused entries
  | declined txn strategy e refused =>
    obtain ⟨rfl, entries⟩ := converse
    have declined : Settlement c txn.id [.authorize txn (strategy.authorize txn)] .failed false := by
      rw [refused, sound.1.is]
      exact .declined e
    exact .failing e (.inl sound.1.status) declined entries
  | authorized txn strategy ref approved =>
    obtain ⟨rfl, entries⟩ := converse
    refine ⟨?_, entries⟩
    show [GatewayCall.authorize txn (strategy.authorize txn)] = _
    rw [approved, advance_id, ← sound.1.is]
  | refused f _ err =>
    obtain ⟨rfl, entries⟩ := converse
    exact .failing err (.inr (congrArg Transaction.status sound.is)) (.unbooked f.ref) entries
  | undebited f err =>
    obtain ⟨rfl, entries⟩ := converse
    exact .failing err (.inr (congrArg Transaction.status sound.is)) (.unbooked f.ref) entries
  | undebitedNowhere f err =>
    obtain ⟨rfl, entries⟩ := converse
    exact .failing err (.inr (congrArg Transaction.status sound.is)) (.unbooked f.ref) entries
  | posted f debitId creditId debitSeq creditSeq ok =>
    obtain ⟨rfl, entries⟩ := converse
    cases won
    refine ⟨rfl, ?_⟩
    have none_ : (s.journal.filter fun e => e.txnId = f.txn.id) = [] := entries
    refine ⟨⟨debitId, f.txn.id, c.req.payerAccountId, .debit, c.req.amount, debitSeq⟩,
      ⟨creditId, f.txn.id, c.req.payeeAccountId, .credit, c.req.amount, creditSeq⟩, ?_,
      ⟨rfl, rfl, rfl⟩, ⟨rfl, rfl, rfl⟩⟩
    simp [PaymentService.file, none_, postingOf]
  | uncaptured f err failed =>
    obtain ⟨rfl, entered⟩ := converse
    have uncaptured : Settlement c f.txn.id [.authorize _ _, .capture _ _ _] .failed true :=
      .uncaptured f.ref _ failed
    rw [← sound.is] at uncaptured
    exact .failing err (.inr (congrArg Transaction.status sound.is)) uncaptured entered
  | captured f ok =>
    obtain ⟨rfl, entered⟩ := converse
    refine ⟨true, ?_, entered⟩
    have captured : (advance f.txn .captured).status = .captured := by
      rw [sound.is]
      rfl
    rw [advance_id, captured]
    have settlement : Settlement c f.txn.id [.authorize _ _, .capture _ _ _] .captured true :=
      .captured f.ref _ ok
    rw [← sound.is] at settlement
    exact settlement
  | _ =>
    -- it asks nothing
    show Converse c (said ++ []) _ _
    rw [List.append_nil]
    exact converse

/-! ## Every run -/

namespace Metered

/-- Each call has said what fits how far it has come. -/
def Conversed (m : Metered) : Prop :=
  ∀ (i : Nat) (t : Thread), m.sys.threads[i]? = some t →
    (t.pc.won = none → m.dialogue i = []) ∧ ∀ id, t.pc.won = some id →
      Converse t.call (m.dialogue i) (m.sys.service.file id).entries t.pc

end Metered

/-- A call that has not won its key asks nothing. -/
theorem Pc.asks_of_not_won {pc : Pc} (none_ : pc.won = none) : pc.asks = none := by
  cases pc <;> first | rfl | cases none_

/-- A call that has just won its key finds nothing on file. -/
theorem Reaches.opens_blank {accounts : InMemoryAccountRepository} {calls : List Call}
    {sched : List Nat} {sys : System}
    (reached : Reaches chain (PaymentService.opening accounts) calls sched sys)
    (short : calls.length < 2 ^ 64) :
    Filewise (fun _ pc id file => pc = .build id → file = File.blank) sys := by
  refine reached.filewise short (fun _ _ _ _ => rfl) ?_
  intro c _ s pc s' pc' id _ fired won _ is
  subst is
  cases fired
  cases won

theorem Metered.Conversed.step {m m' : Metered} {i : Nat} (conversed : m.Conversed)
    (sound : ∀ t ∈ m.sys.threads, Sound chain t.call t.pc)
    (apart : Apart (fun t id => t.pc.txnId = some id) m.sys.threads)
    (opens : Filewise (fun _ pc id file => pc = .build id → file = File.blank) m'.sys)
    (stepped : Metered.step chain m i = some m') : m'.Conversed := by
  obtain ⟨c, pc, pc', at_, -, fired, threads, mine, theirs⟩ := Metered.step_moves stepped
  intro j u there
  have there' := there
  rw [threads] at there'
  rcases at_set there' with ⟨rfl, rfl⟩ | ⟨different, at_'⟩
  · obtain ⟨silent, converse⟩ := conversed j _ at_
    rw [mine]
    rcases fired.identity with ⟨rfl, rfl, -⟩ | ⟨lost, -, none_, -⟩ | ⟨id, rfl, rfl, -⟩ | ⟨id, was, now, -⟩
    · refine ⟨fun _ => ?_, nofun⟩
      rw [silent rfl]
      rfl
    · refine ⟨fun _ => ?_, fun id won => ?_⟩
      · rw [silent none_, Pc.asks_of_not_won none_]
        rfl
      · have drawn := Pc.txnId_of_won won
        rw [lost.txnId] at drawn
        cases drawn
    · refine ⟨nofun, fun id' won => ?_⟩
      cases won
      have blank := opens.own j _ there id rfl rfl
      rw [blank, silent rfl]
      exact ⟨rfl, rfl⟩
    · refine ⟨fun none_ => ?_, fun id' won => ?_⟩
      · rw [now] at none_
        cases none_
      · cases now.symm.trans won
        exact fired.converse (sound _ (List.mem_of_getElem? at_)) was (converse id was)
  · obtain ⟨silent, converse⟩ := conversed j u at_'
    rw [theirs j different]
    refine ⟨silent, fun id won => ?_⟩
    -- the mover works under another id
    have other : pc.txnId ≠ some id := fun drawn =>
      different (apart j i u _ id at_' at_ (Pc.txnId_of_won won) drawn)
    rw [fired.file_other other]
    exact converse id won

theorem Metered.conversed {accounts : InMemoryAccountRepository} {calls : List Call}
    {sched : List Nat} {m : Metered} (short : calls.length < 2 ^ 64)
    (ran : exec (Metered.step chain) (Metered.init (PaymentService.opening accounts) calls) sched =
      some m) : m.Conversed := by
  refine exec_induct_reached Metered.Conversed ?_ ?_ ran
  · intro early m i m' ran conversed stepped
    have reached := Metered.reaches ran
    have reached' := Metered.reaches (exec_snoc ran stepped)
    exact conversed.step reached.sound (reached.draws rfl short).apart (reached'.opens_blank short)
      stepped
  · intro i t there
    refine ⟨fun _ => rfl, fun id won => ?_⟩
    rw [(mem_init (List.mem_of_getElem? there)).2] at won
    cases won

/-- So it is with a call anywhere on its way. -/
theorem Converse.spoken {c : Call} {said : List GatewayCall} {entries : List LedgerEntry}
    {pc : Pc} {id : String} (converse : Converse c said entries pc) (won : pc.won = some id) :
    Spoken c id said entries := by
  have silent (is : said = []) : Spoken c id said entries := is ▸ .silent
  have settled (ended : ∃ status booked, Settlement c id said status booked ∧
      Journaled c booked entries) : Spoken c id said entries := by
    obtain ⟨status, booked, settlement, entered⟩ := ended
    exact settlement.spoken entered
  cases pc with
  | start => cases won
  | claim => cases won
  | lookup => cases won
  | replay => cases won
  | replied => cases won
  | build => exact silent converse.1
  | unbuilt => exact silent converse.1
  | mutexFor => exact silent converse.1
  | lock => exact silent converse.1
  | validate => exact silent converse.1
  | load => exact silent converse.1
  | authorize => exact silent converse.1
  | save => cases won; exact settled ⟨_, converse⟩
  | publish => cases won; exact settled ⟨_, converse⟩
  | notify => cases won; exact settled ⟨_, converse⟩
  | unlock => cases won; exact settled ⟨_, converse⟩
  | finished => cases won; exact settled ⟨_, converse⟩
  | _ =>
    cases won
    rw [converse.1]
    exact .approved _

theorem Sound.asks_of {c : Call} {pc : Pc} {g : GatewayCall} (sound : Sound chain c pc)
    (asks : pc.asks = some g) : g.Of c := by
  cases pc with
  | authorize txn strategy =>
    cases asks
    exact ⟨strategy, sound.2.2, rfl⟩
  | capture f =>
    cases asks
    exact ⟨f.strategy, sound.supported, rfl⟩
  | _ => cases asks

/-- Every answer came from the strategy of the call's method. -/
theorem Metered.answered {service : PaymentService} {calls : List Call} {sched : List Nat}
    {m : Metered} (ran : exec (Metered.step chain) (Metered.init service calls) sched = some m) :
    ∀ (i : Nat) (t : Thread), m.sys.threads[i]? = some t → ∀ g ∈ m.dialogue i, g.Of t.call := by
  refine exec_induct_reached (fun m => ∀ (i : Nat) (t : Thread), m.sys.threads[i]? = some t →
    ∀ g ∈ m.dialogue i, g.Of t.call) ?_ ?_ ran
  · intro early m i m' ran answered stepped j u there g said
    obtain ⟨c, pc, pc', at_, -, fired, threads, mine, theirs⟩ := Metered.step_moves stepped
    have sound := (Metered.reaches ran).sound _ (List.mem_of_getElem? at_)
    rw [threads] at there
    rcases at_set there with ⟨rfl, rfl⟩ | ⟨different, there⟩
    · rw [mine] at said
      rcases List.mem_append.1 said with before | now
      · exact answered j _ at_ g before
      · exact sound.asks_of (Option.mem_toList.1 now)
    · rw [theirs j different] at said
      exact answered j u there g said
  · intro i t _ g said
    cases said

/-- **What the gateways are asked, in every interleaving.**  A call that has not won its key
asks nothing.  One that has, asks the strategy of its method and nobody else, in one of the
ways of `Dialogue`: one authorization of the transaction it built, and where that is approved
one capture at most, under the reference it was given and with the pair of entries in the
journal.  Once the call has ended, the status of its transaction, the dialogue and the journal
match as `Settlement` says. -/
theorem gateway_protocol {accounts : InMemoryAccountRepository} {calls : List Call}
    {sched : List Nat} {m : Metered} (short : calls.length < 2 ^ 64)
    (ran : exec (Metered.step chain) (Metered.init (PaymentService.opening accounts) calls) sched =
      some m) :
    ∀ (i : Nat) (t : Thread), m.sys.threads[i]? = some t →
      (t.pc.won = none → m.dialogue i = []) ∧
      (∀ g ∈ m.dialogue i, g.Of t.call) ∧
      ∀ id, t.pc.won = some id →
        Dialogue t.call id (m.dialogue i) ∧
        (∀ txn ref answer, .capture txn ref answer ∈ m.dialogue i →
          Journaled t.call true (m.sys.service.journal.filter fun e => e.txnId = id)) ∧
        ∀ txn out, t.pc = .finished txn out → ∃ booked,
          Settlement t.call id (m.dialogue i) txn.status booked ∧
          Journaled t.call booked (m.sys.service.journal.filter fun e => e.txnId = id) := by
  intro i t at_
  obtain ⟨silent, converse⟩ := Metered.conversed short ran i t at_
  refine ⟨silent, Metered.answered ran i t at_, fun id won => ?_⟩
  obtain ⟨dialogue, captured⟩ := (converse id won).spoken won
  refine ⟨dialogue, captured, fun txn out ended => ?_⟩
  have settled := converse id won
  rw [ended] at settled won
  cases won
  exact settled

/-- A payment, one that is short of funds and one in another currency, interleaved. -/
theorem gateway_protocol_interleaved : ∃ m, exec (Metered.step mainChain)
    (Metered.init (PaymentService.opening userAndMerchant)
      [upiCall "key-3" "u" "m" 30000, upiCall "key-2" "m" "u" 4000000, usdCall])
    ([1, 0, 2, 2, 1, 1, 1, 1, 1, 1, 1, 1, 2, 2] ++ List.replicate 19 0 ++ List.replicate 4 1 ++
      List.replicate 3 2) = some m ∧
    m.asked.length = 3 ∧
    ∀ (i : Nat) (t : Thread), m.sys.threads[i]? = some t → ∀ id, t.pc.won = some id →
      Dialogue t.call id (m.dialogue i) := by
  have ran : (exec (Metered.step mainChain)
      (Metered.init (PaymentService.opening userAndMerchant)
        [upiCall "key-3" "u" "m" 30000, upiCall "key-2" "m" "u" 4000000, usdCall])
      ([1, 0, 2, 2, 1, 1, 1, 1, 1, 1, 1, 1, 2, 2] ++ List.replicate 19 0 ++ List.replicate 4 1 ++
        List.replicate 3 2)).any
        (fun m => decide (m.asked.length = 3)) = true := by decide +kernel
  obtain ⟨m, ran, three⟩ := exec_any ran
  exact ⟨m, ran, of_decide_eq_true three,
    fun i t at_ id won => ((gateway_protocol (by decide) ran i t at_).2.2 id won).1⟩

end PaymentSystem.Service
