/-
# PaymentSystem.Service.Locals -- what a call knows at each program point

Facts about one thread's own locals, which no other thread can disturb: the
transaction it carries is its request under the id it drew, at the status the
lifecycle has reached; the strategy is the one its method names; the answer it is
about to give matches the transaction it saves.  `Sound` is their conjunction,
program point by program point, and `Reaches.sound` is that every run keeps it.
-/
import PaymentSystem.Service.Machine
import PaymentSystem.Theory.Threads

namespace PaymentSystem.Service

open PaymentSystem.Common
open PaymentSystem.Domain
open PaymentSystem.Patterns
open PaymentSystem.Infra
open PaymentSystem.Theory.Runs
open PaymentSystem.Theory.Threads

set_option autoImplicit false

/-! ## The machine as an interleaving of its threads -/

/-- A move of one thread, as a relation of the states around it. -/
def Moves (chain : ValidationChain) (s : PaymentService) (t : Thread) (s' : PaymentService)
    (t' : Thread) : Prop :=
  t'.call = t.call ∧ Fires chain t.call s t.pc s' t'.pc

theorem interleaving (chain : ValidationChain) :
    Interleaving (System.step chain) System.service System.threads (Moves chain) := by
  constructor
  intro sys sys' i stepped
  obtain ⟨c, pc, pc', at_, fired, threads⟩ := step_fires stepped
  exact ⟨⟨c, pc⟩, ⟨c, pc'⟩, at_, ⟨rfl, fired⟩, threads⟩

theorem mem_init {service : PaymentService} {calls : List Call} {t : Thread}
    (member : t ∈ (System.init service calls).threads) : t.call ∈ calls ∧ t.pc = .start := by
  obtain ⟨c, there, rfl⟩ := List.mem_map.1 member
  exact ⟨there, rfl⟩

/-- The calls on the threads never change. -/
theorem Reaches.calls {chain : ValidationChain} {service : PaymentService} {calls : List Call}
    {sched : List Nat} {sys : System} (reached : Reaches chain service calls sched sys) :
    sys.threads.map Thread.call = calls := by
  refine exec_induct (fun sys => sys.threads.map Thread.call = calls) ?_ ?_ reached
  · intro sys i sys' same stepped
    obtain ⟨c, pc, pc', at_, -, threads⟩ := step_fires stepped
    have kept : (sys.threads.map Thread.call)[i]? = some c := by
      rw [List.getElem?_map, at_]
      rfl
    obtain ⟨inside, here⟩ := List.getElem?_eq_some_iff.1 kept
    rw [threads, List.map_set, ← same]
    exact (congrArg _ here.symm).trans (List.set_getElem_self inside)
  · simp [System.init, Function.comp_def]

theorem Reaches.snoc {chain : ValidationChain} {service : PaymentService} {calls : List Call}
    {sched : List Nat} {sys sys' : System} {i : Nat} (reached : Reaches chain service calls sched sys)
    (stepped : System.step chain sys i = some sys') :
    Reaches chain service calls (sched ++ [i]) sys' :=
  exec_snoc reached stepped

/-- Each thread makes the call at its place. -/
theorem Reaches.place {chain : ValidationChain} {service : PaymentService} {calls : List Call}
    {sched : List Nat} {sys : System} (reached : Reaches chain service calls sched sys) {i : Nat}
    {t : Thread} (at_ : sys.threads[i]? = some t) : calls[i]? = some t.call := by
  rw [← reached.calls, List.getElem?_map, at_]
  rfl

/-- What is measured only of calls in flight sums to nothing when there are none. -/
theorem System.Quiescent.sum_zero {sys : System} (quiescent : sys.Quiescent) {f : Thread → Int}
    (start : ∀ c, f ⟨c, .start⟩ = 0) (ended : ∀ c pc, pc.outcome ≠ none → f ⟨c, pc⟩ = 0) :
    (sys.threads.map f).sum = 0 := by
  apply sum_map_zero
  rintro ⟨c, pc⟩ member
  rcases quiescent _ member with finished | waiting
  · exact ended c pc finished
  · obtain rfl : pc = .start := waiting
    exact start c

/-! ## Program points -/

namespace Pc

/-- The transaction a call carries, from its build on. -/
def txn : Pc → Option Transaction
  | .mutexFor txn | .lock txn | .validate txn | .load txn | .authorize txn _
  | .save txn _ _ | .publish txn _ _ | .notify txn _ _ | .unlock txn _ | .finished txn _ => some txn
  | .debit f | .credit f | .drawDebitId f | .drawDebitSeq f _ | .drawCreditId f _ _
  | .drawCreditSeq f _ _ _ | .post f _ _ _ _ | .undoCredit f _ | .undoDebit f _
  | .capture f => some f.txn
  | .start | .claim _ | .lookup | .replay _ | .replied _ | .build _ | .unbuilt _ _ => none

/-- The id a call works under: drawn, and not given up to a duplicate. -/
def txnId : Pc → Option String
  | .claim id | .build id | .unbuilt id _ => some id
  | pc => pc.txn.map Transaction.id

/-- The id of a call that won its key. -/
def won : Pc → Option String
  | .claim _ => none
  | pc => pc.txnId

/-- The call lost its key to an earlier one. -/
def Lost : Pc → Prop
  | .lookup | .replay _ | .replied _ => True
  | _ => False

end Pc

/-! ## The locals -/

/-- The chain lets the transaction through. -/
def Cleared (chain : ValidationChain) (txn : Transaction) : Prop :=
  ∃ v, chain.run txn = .ok v ∧ v.isErr = false

/-- The chain throws on the transaction. -/
def Throws (chain : ValidationChain) (txn : Transaction) : Prop :=
  ∃ e, chain.run txn = .error e

theorem Cleared.not_throws {chain : ValidationChain} {txn : Transaction}
    (cleared : Cleared chain txn) : ¬ Throws chain txn := by
  rintro ⟨e, threw⟩
  obtain ⟨v, ran, -⟩ := cleared
  rw [threw] at ran
  cases ran

/-- A transaction just built. -/
structure Opened (c : Call) (txn : Transaction) : Prop where
  named : c.req.Named
  minted : txn.id ≠ ""
  is : txn = c.txn txn.id .initiated

/-- The locals from the authorization on. -/
structure Flying (chain : ValidationChain) (c : Call) (f : Flight) : Prop where
  named : c.req.Named
  minted : f.txn.id ≠ ""
  is : f.txn = c.txn f.txn.id .authorized
  cleared : Cleared chain (c.txn f.txn.id .initiated)
  supported : c.env.strategies c.req.method = some f.strategy
  approved : f.strategy.authorize (c.txn f.txn.id .initiated) = .ok f.ref

/-- The transaction about to be saved, and the event and the answer that go with it. -/
structure Closing (chain : ValidationChain) (c : Call) (txn : Transaction) (type : String)
    (res : Result Transaction) : Prop where
  named : c.req.Named
  minted : txn.id ≠ ""
  quiet : ¬ Throws chain (c.txn txn.id .initiated)
  ends : txn = c.txn txn.id .failed ∧ type = "PaymentFailed" ∧ (∃ e, res = .fail e) ∨
    txn = c.txn txn.id .captured ∧ type = "PaymentCaptured" ∧ res = .ok txn

/-- The outcome a call is left with: its chain threw, or it saved and told. -/
inductive Closed (chain : ValidationChain) (c : Call) (txn : Transaction) : Outcome → Prop where
  | threw (e : Exception) (opened : Opened c txn) (ran : chain.run txn = .error e) :
      Closed chain c txn (.error e)
  | told (type : String) (res : Result Transaction) (closing : Closing chain c txn type res) :
      Closed chain c txn (Service.told c.env txn type res)

/-- What holds of a call's locals at its program point. -/
def Sound (chain : ValidationChain) (c : Call) : Pc → Prop
  | .start | .lookup | .replay _ | .replied _ => True
  | .claim id | .build id => id ≠ ""
  | .unbuilt id _ => id ≠ "" ∧ ¬ c.req.Named
  | .mutexFor txn | .lock txn | .validate txn => Opened c txn
  | .load txn => Opened c txn ∧ Cleared chain txn
  | .authorize txn strategy =>
      Opened c txn ∧ Cleared chain txn ∧ c.env.strategies c.req.method = some strategy
  | .debit f | .credit f | .drawDebitId f | .drawDebitSeq f _ | .drawCreditId f _ _
  | .drawCreditSeq f _ _ _ | .post f _ _ _ _ | .undoCredit f _ | .undoDebit f _
  | .capture f => Flying chain c f
  | .save txn type res | .publish txn type res | .notify txn type res =>
      Closing chain c txn type res
  | .unlock txn out | .finished txn out => Closed chain c txn out

theorem Opened.failing {chain : ValidationChain} {c : Call} {txn : Transaction}
    (opened : Opened c txn) (quiet : ¬ Throws chain txn) (err : Error) :
    Sound chain c (.failing txn err) := by
  obtain ⟨named, minted, is⟩ := opened
  generalize txn.id = id at is minted
  subst is
  exact ⟨named, minted, quiet, .inl ⟨rfl, rfl, err, rfl⟩⟩

theorem Flying.failing {chain : ValidationChain} {c : Call} {f : Flight}
    (flying : Flying chain c f) (err : Error) : Sound chain c (.failing f.txn err) := by
  obtain ⟨named, minted, is, cleared, -, -⟩ := flying
  obtain ⟨txn, strategy, ref⟩ := f
  simp only at is minted cleared
  generalize txn.id = id at is minted cleared
  subst is
  exact ⟨named, minted, cleared.not_throws, .inl ⟨rfl, rfl, err, rfl⟩⟩

theorem Flying.capturing {chain : ValidationChain} {c : Call} {f : Flight}
    (flying : Flying chain c f) : Sound chain c (.capturing f.txn) := by
  obtain ⟨named, minted, is, cleared, -, -⟩ := flying
  obtain ⟨txn, strategy, ref⟩ := f
  simp only at is minted cleared
  generalize txn.id = id at is minted cleared
  subst is
  exact ⟨named, minted, cleared.not_throws, .inr ⟨rfl, rfl, rfl⟩⟩

theorem Fires.sound {chain : ValidationChain} {c : Call} {s s' : PaymentService} {pc pc' : Pc}
    (fired : Fires chain c s pc s' pc') (sound : Sound chain c pc) : Sound chain c pc' := by
  cases fired with
  | mint => exact IdGenerator.idOf_ne_empty _ _
  | won => exact sound
  | lost => trivial
  | unclaimed => trivial
  | looked => trivial
  | replayed => trivial
  | unreplayed => trivial
  | unbuilt txnId e threw =>
    refine ⟨sound, fun named => ?_⟩
    rw [buildTxn_named sound named] at threw
    cases threw
  | built txnId txn ok =>
    by_cases named : c.req.Named
    · rw [buildTxn_named sound named] at ok
      cases ok
      exact ⟨named, sound, rfl⟩
    · obtain ⟨e, threw⟩ := buildTxn_unnamed sound named
      rw [threw] at ok
      cases ok
  | mutexFor => exact sound
  | locked => exact sound
  | raised txn e threw => exact .threw e sound threw
  | rejected txn v ran err =>
    refine Opened.failing sound ?_ v.err
    rintro ⟨e, threw⟩
    rw [threw] at ran
    cases ran
  | validated txn v ran ok => exact ⟨sound, v, ran, ok⟩
  | unloaded txn err missing => exact sound.1.failing sound.2.not_throws err
  | loaded txn strategy payer payee supported => exact ⟨sound.1, sound.2, supported⟩
  | declined txn strategy e refused => exact sound.1.failing sound.2.1.not_throws e
  | authorized txn strategy ref approved =>
    obtain ⟨⟨named, minted, is⟩, cleared, supported⟩ := sound
    generalize txn.id = id at is minted
    subst is
    exact ⟨named, minted, rfl, cleared, supported, approved⟩
  | refused f account err found cannot code => exact Flying.failing sound err
  | debited => exact sound
  | debitedNowhere => exact sound
  | credited => exact sound
  | creditedNowhere => exact sound
  | drewDebitId => exact sound
  | drewDebitSeq => exact sound
  | drewCreditId => exact sound
  | drewCreditSeq => exact sound
  | posted => exact sound
  | unposted => exact sound
  | uncredited => exact sound
  | uncreditedNowhere => exact sound
  | undebited f err account found => exact Flying.failing sound err
  | undebitedNowhere f err missing => exact Flying.failing sound err
  | uncaptured f err failed => exact Flying.failing sound err
  | captured f ok => exact Flying.capturing sound
  | saved => exact sound
  | published => exact sound
  | notified txn type res => exact .told type res sound
  | unlocked => exact sound

/-- **In every run every call's locals are sound.** -/
theorem Reaches.sound {chain : ValidationChain} {service : PaymentService} {calls : List Call}
    {sched : List Nat} {sys : System} (reached : Reaches chain service calls sched sys) :
    ∀ t ∈ sys.threads, Sound chain t.call t.pc := by
  refine (interleaving chain).agentwise (P := fun _ t => Sound chain t.call t.pc) ?_ ?_ ?_ reached
  · rintro s t s' t' ⟨same, fired⟩ sound
    rw [same]
    exact fired.sound sound
  · intro s t s' t' u moved mine theirs
    exact theirs
  · intro t member
    rw [(mem_init member).2]
    trivial

/-! ## What soundness says about the transaction and the answer -/

/-- The transaction a call carries is its request under the id it won with. -/
theorem Sound.txn {chain : ValidationChain} {c : Call} {pc : Pc} (sound : Sound chain c pc)
    {txn : Transaction} (carried : pc.txn = some txn) :
    pc.won = some txn.id ∧ ∃ status, txn = c.txn txn.id status := by
  have opened (open_ : Opened c txn) : ∃ status, txn = c.txn txn.id status := ⟨_, open_.is⟩
  have closing {type : String} {res : Result Transaction} (closing : Closing chain c txn type res) :
      ∃ status, txn = c.txn txn.id status := by
    rcases closing.ends with ⟨is, -⟩ | ⟨is, -⟩
    · exact ⟨_, is⟩
    · exact ⟨_, is⟩
  have closed {out : Outcome} (closed : Closed chain c txn out) :
      ∃ status, txn = c.txn txn.id status := by
    cases closed with
    | threw e open_ ran => exact opened open_
    | told type res ends => exact closing ends
  cases pc with
  | start => cases carried
  | claim => cases carried
  | lookup => cases carried
  | replay => cases carried
  | replied => cases carried
  | build => cases carried
  | unbuilt => cases carried
  | mutexFor => cases carried; exact ⟨rfl, opened sound⟩
  | lock => cases carried; exact ⟨rfl, opened sound⟩
  | validate => cases carried; exact ⟨rfl, opened sound⟩
  | load => cases carried; exact ⟨rfl, opened sound.1⟩
  | authorize => cases carried; exact ⟨rfl, opened sound.1⟩
  | save => cases carried; exact ⟨rfl, closing sound⟩
  | publish => cases carried; exact ⟨rfl, closing sound⟩
  | notify => cases carried; exact ⟨rfl, closing sound⟩
  | unlock => cases carried; exact ⟨rfl, closed sound⟩
  | finished => cases carried; exact ⟨rfl, closed sound⟩
  | _ => cases carried; exact ⟨rfl, _, Flying.is sound⟩

theorem told_ok {env : Env} {txn : Transaction} {type : String} {res r : Result Transaction}
    (answered : told env txn type res = .ok r) : r = res := by
  unfold told at answered
  cases heard : env.subscribers type (payloadOf txn) with
  | error e =>
    rw [heard] at answered
    cases answered
  | ok _ =>
    rw [heard] at answered
    cases answered
    rfl

/-- A call answers ok with the transaction it found, or with its own, captured. -/
theorem Sound.answered {chain : ValidationChain} {c : Call} {pc : Pc} (sound : Sound chain c pc)
    {txn : Transaction} (answer : pc.outcome = some (.ok (.ok txn))) :
    pc = .replied (.ok txn) ∨ pc.txn = some txn ∧ txn = c.txn txn.id .captured := by
  cases pc with
  | replied res =>
    cases answer
    exact .inl rfl
  | finished own out =>
    cases answer
    right
    generalize is : (Except.ok (Result.ok txn) : Outcome) = out at sound
    cases sound with
    | threw e opened ran => cases is
    | told type res closing =>
      rcases closing.ends with ⟨-, -, e, rfl⟩ | ⟨mine, -, rfl⟩
      · cases told_ok is.symm
      · cases told_ok is.symm
        exact ⟨rfl, mine⟩
  | _ => cases answer

end PaymentSystem.Service
