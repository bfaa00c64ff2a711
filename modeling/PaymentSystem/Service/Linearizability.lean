/-
# PaymentSystem.Service.Linearizability -- concurrent payments are linearizable

Only the payer is locked, so payments that form chains and cycles interleave freely.
The sequential object is the funds of the accounts under the intents of the calls,
and the coupling is escrow: what has left a payer and not reached its payee still
counts as the payer's.  A transfer commits when its credit lands, not at its debit; a
debit that is refused commits there, with nothing of its payer in transit because the
lock is held; every other refusal commits where it is found (`Fires.commits`).

* `Reaches.explained`: every run has a linearization over intents.
* `pay_refines`: a call alone is its intent.
* `linearizable`: one order, the same verdicts and balances, real time respected, with
  subscribers that answer by the type and payload of an event.
* `not_linearizable`: a subscriber that remembers what it has heard tells the orders apart.
-/
import PaymentSystem.Service.Intents
import PaymentSystem.Service.Locks
import PaymentSystem.Service.Publishing
import PaymentSystem.Service.Solo
import Mathlib.Data.List.Permutation

namespace PaymentSystem.Service

open PaymentSystem.Common
open PaymentSystem.Domain
open PaymentSystem.Patterns
open PaymentSystem.Adapters
open PaymentSystem.Theory.Keyed
open PaymentSystem.Theory.MachineInt
open PaymentSystem.Theory.Runs
open PaymentSystem.Theory.Threads
open PaymentSystem.Theory.Transfers

set_option autoImplicit false

variable {chain : ValidationChain}

/-! ## The commit points -/

/-- What a state reached with calls of their own keys, over the shipped adapters, is
known to satisfy. -/
structure Settling (chain : ValidationChain) (held : String → Option Currency)
    (bound : Currency → Int) (sys : System) : Prop where
  shipped : ∀ t ∈ sys.threads, t.call.env.Shipped
  ccyAt : ∀ id, sys.service.ccyAt id = held id
  sound : ∀ t ∈ sys.threads, Sound chain t.call t.pc
  loaded : ∀ t ∈ sys.threads, Loaded sys.service t
  never : ∀ t ∈ sys.threads, ¬ t.pc.Undoing
  fits : ∀ ccy, bound ccy < 2 ^ 63
  solvency : Solvency bound sys
  mutex : Mutex sys
  unshared : Unshared sys

/-- Inside its payer's lock, a call that is not itself between debit and credit finds
nothing of its payer in transit. -/
theorem Settling.nothing_leaving {held : String → Option Currency} {bound : Currency → Int}
    {sys : System} (settling : Settling chain held bound sys) {i : Nat} {c : Call} {f : Flight}
    (at_ : sys.threads[i]? = some ⟨c, .debit f⟩) : sys.leaving c.req.payerAccountId = 0 := by
  apply sum_map_zero
  rintro ⟨d, pc⟩ member
  obtain ⟨j, there⟩ := List.mem_iff_getElem?.1 member
  cases pc with
  | credit g =>
    by_cases same : d.req.payerAccountId = c.req.payerAccountId
    · -- two calls inside one lock
      have key : lockKey d.req = lockKey c.req := by
        unfold lockKey
        rw [same]
      have here := settling.mutex.apart i j _ _ (lockKey c.req) at_ there ⟨trivial, rfl⟩
        ⟨trivial, key⟩
      subst here
      cases at_.symm.trans there
    · exact if_neg (Ne.symm same)
  | _ => rfl

theorem Loaded.leaving_nonneg {s : PaymentService} {t : Thread} (loaded : Loaded s t)
    (id : String) : 0 ≤ t.leaving id := by
  obtain ⟨c, pc⟩ := t
  cases pc with
  | credit f =>
    have nonneg := (loaded.amount trivial).2
    show 0 ≤ atKey c.req.payerAccountId c.req.amount.minorUnits.toInt id
    unfold atKey
    split
    · exact nonneg
    · exact le_refl 0
  | _ => exact le_refl 0

theorem Settling.funds_nonneg {held : String → Option Currency} {bound : Currency → Int}
    {sys : System} (settling : Settling chain held bound sys) (id : String) :
    0 ≤ funds sys.service id := by
  unfold funds
  split
  · rename_i account found
    exact settling.solvency.nonneg _ _ found
  · exact le_refl 0

/-- A call between its debit and its credit has its amount in transit. -/
theorem Settling.sent {held : String → Option Currency} {bound : Currency → Int} {sys : System}
    (settling : Settling chain held bound sys) {c : Call} {f : Flight}
    (member : (⟨c, .credit f⟩ : Thread) ∈ sys.threads) :
    c.req.amount.minorUnits.toInt ≤ sys.leaving c.req.payerAccountId := by
  have share : Thread.leaving ⟨c, .credit f⟩ c.req.payerAccountId = c.req.amount.minorUnits.toInt :=
    if_pos rfl
  rw [← share]
  exact le_sum_map (fun t there => (settling.loaded t there).leaving_nonneg _) member

/-- What the chain says of a transaction just built, it says of its request. -/
theorem Opened.run {c : Call} {txn : Transaction} (opened : Opened c txn)
    (oblivious : Oblivious chain) : chain.run (c.txn "" .initiated) = chain.run txn := by
  rw [opened.is]
  exact oblivious c "" txn.id

theorem Oblivious.cleared (oblivious : Oblivious chain) {c : Call} {id : String}
    (cleared : Cleared chain (c.txn id .initiated)) : Cleared chain (c.txn "" .initiated) := by
  obtain ⟨v, ran, ok⟩ := cleared
  exact ⟨v, (oblivious c "" id).trans ran, ok⟩

theorem Opened.failing_verdict {c : Call} {txn : Transaction} (opened : Opened c txn) (err : Error) :
    (Pc.failing txn err).verdict c = some (c.failVerdict err.code) := by
  rw [opened.is]
  exact congrArg some (verdictOf_failing c txn.id err)

theorem Flying.failing_verdict {c : Call} {f : Flight} (flying : Flying chain c f) (err : Error) :
    (Pc.failing f.txn err).verdict c = some (c.failVerdict err.code) := by
  rw [flying.is]
  exact congrArg some (verdictOf_failing c f.txn.id err)

theorem Flying.capturing_verdict {c : Call} {f : Flight} (flying : Flying chain c f) :
    (Pc.capturing f.txn).verdict c = some c.doneVerdict := by
  rw [flying.is]
  exact congrArg some (verdictOf_capturing c f.txn.id)

/-- **Every transition leaves the funds and its verdict alone, or commits**: it decides
the verdict of its call, with the answer and the effect of the call's intent. -/
theorem Fires.commits {held : String → Option Currency} {bound : Currency → Int} {sys : System}
    {i : Nat} {c : Call} {s' : PaymentService} {pc pc' : Pc}
    (fired : Fires chain c sys.service pc s' pc') (oblivious : Oblivious chain)
    (settling : Settling chain held bound sys) (at_ : sys.threads[i]? = some ⟨c, pc⟩)
    (never' : ¬ pc'.Undoing) {f : String → Int}
    (escrowed : Escrowed (funds sys.service) sys.leaving f) :
    (pc'.verdict c = pc.verdict c ∧
      Escrowed (funds s') (fun id => sys.leaving id - Thread.leaving ⟨c, pc⟩ id +
        Thread.leaving ⟨c, pc'⟩ id) f) ∨
    (pc.verdict c = none ∧ pc'.verdict c = some ((intentOf chain held c).apply f).1 ∧
      Escrowed (funds s') (fun id => sys.leaving id - Thread.leaving ⟨c, pc⟩ id +
        Thread.leaving ⟨c, pc'⟩ id) ((intentOf chain held c).apply f).2) := by
  have member : (⟨c, pc⟩ : Thread) ∈ sys.threads := List.mem_of_getElem? at_
  have sound : Sound chain c pc := settling.sound _ member
  have mine : Loaded sys.service ⟨c, pc⟩ := settling.loaded _ member
  have shipped : c.env.Shipped := settling.shipped _ member
  have still (same : Thread.leaving ⟨c, pc'⟩ = Thread.leaving ⟨c, pc⟩)
      (accounts : s'.accounts = sys.service.accounts) :
      Escrowed (funds s') (fun id => sys.leaving id - Thread.leaving ⟨c, pc⟩ id +
        Thread.leaving ⟨c, pc'⟩ id) f := by
    intro id
    have balance : funds s' id = funds sys.service id := by
      unfold funds
      rw [accounts]
    show f id = funds s' id + (sys.leaving id - Thread.leaving ⟨c, pc⟩ id +
      Thread.leaving ⟨c, pc'⟩ id)
    rw [balance, same, sub_add_cancel]
    exact escrowed id
  -- a refusal that leaves the accounts alone commits where it is found
  have refuse {r : Verdict} (same : Thread.leaving ⟨c, pc'⟩ = Thread.leaving ⟨c, pc⟩)
      (accounts : s'.accounts = sys.service.accounts)
      (means : ((intentOf chain held c).apply f) = (r, f)) (open_ : pc.verdict c = none)
      (decides : pc'.verdict c = some r) :
      pc.verdict c = none ∧ pc'.verdict c = some ((intentOf chain held c).apply f).1 ∧
        Escrowed (funds s') (fun id => sys.leaving id - Thread.leaving ⟨c, pc⟩ id +
          Thread.leaving ⟨c, pc'⟩ id) ((intentOf chain held c).apply f).2 := by
    rw [means]
    exact ⟨open_, decides, still same accounts⟩
  have ccy {id : String} {account : Account}
      (found : sys.service.accounts.lookup id = some account) :
      held id = some account.balance.currency := by
    rw [← settling.ccyAt, ccyAt_of_found found]
  cases fired with
  | lost txnId taken => exact absurd (settling.unshared.unclaimed i _ at_ rfl).1 taken
  | unclaimed => exact absurd trivial (settling.unshared.unclaimed i _ at_ rfl).2
  | looked => exact absurd trivial (settling.unshared.unclaimed i _ at_ rfl).2
  | replayed => exact absurd trivial (settling.unshared.unclaimed i _ at_ rfl).2
  | unreplayed => exact absurd trivial (settling.unshared.unclaimed i _ at_ rfl).2
  | unbuilt txnId e threw =>
    right
    have unnamed : ¬ c.req.Named := by
      intro named
      rw [buildTxn_named sound named] at threw
      cases threw
    refine refuse rfl rfl ?_ rfl rfl
    rw [intentOf_unnamed unnamed]
    rfl
  | raised txn e threw =>
    right
    have opened : Opened c txn := sound
    refine refuse rfl rfl ?_ rfl rfl
    rw [intentOf_throws opened.named ⟨e, (opened.run oblivious).trans threw⟩]
    rfl
  | rejected txn v ran err =>
    right
    have opened : Opened c txn := sound
    refine refuse rfl rfl ?_ rfl (opened.failing_verdict v.err)
    rw [intentOf_rejected opened.named ((opened.run oblivious).trans ran) err]
    rfl
  | unloaded txn err missing =>
    right
    obtain ⟨opened, v, ran, ok⟩ := sound
    obtain ⟨provider, tag, supported⟩ := shipped.approves c.req.method
    obtain ⟨absent, code⟩ := missing.resolve_right fun unsupported => by
      rw [supported] at unsupported
      cases unsupported
    have none_ : held c.req.payerAccountId = none ∨ held c.req.payeeAccountId = none := by
      rw [← settling.ccyAt, ← settling.ccyAt, ccyAt_eq_none, ccyAt_eq_none]
      exact absent
    refine refuse rfl rfl ?_ rfl (opened.failing_verdict err)
    rw [intentOf_missing opened.named ⟨v, (opened.run oblivious).trans ran, ok⟩ none_, code]
    rfl
  | declined txn strategy e refused =>
    obtain ⟨provider, tag, supported⟩ := shipped.approves c.req.method
    rw [sound.2.2] at supported
    cases supported
    cases refused
  | refused g account err found cannot code =>
    right
    have flying : Flying chain c g := sound
    have cleared := oblivious.cleared flying.cleared
    obtain ⟨payee, there⟩ := Option.ne_none_iff_exists'.1 (mine.accounts trivial).2
    rw [settling.ccyAt] at there
    refine refuse rfl rfl ?_ rfl (flying.failing_verdict err)
    rw [code, Account.debitRefusal]
    by_cases can : account.Creditable c.req.amount
    · -- refused for want of funds: nothing of the payer is in transit, so the guard fails too
      have low : funds sys.service c.req.payerAccountId < c.req.amount.minorUnits.toInt := by
        rw [funds_of_found found]
        exact Int.not_le.1 fun enough => cannot ⟨can, enough⟩
      have payer : held c.req.payerAccountId = some c.req.amount.currency := by
        rw [ccy found, can.1]
      rw [if_pos can, intentOf_transfer flying.named cleared payer there can.2]
      exact escrowed.falls_short (settling.nothing_leaving at_) low
    · rw [if_neg can, intentOf_refused flying.named cleared (ccy found) there]
      · rfl
      · exact fun both => can ⟨both.1.symm, both.2⟩
  | debited g account found can =>
    left
    refine ⟨rfl, escrowed.depart c.req.payerAccountId c.req.amount.minorUnits.toInt
      (funds_debited found can) fun id => ?_⟩
    show sys.leaving id - 0 + _ = _
    rw [sub_zero]
    rfl
  | debitedNowhere g missing =>
    exact absurd (ccyAt_eq_none.2 missing) (mine.accounts trivial).1
  | credited g account found =>
    right
    have flying : Flying chain c g := sound
    obtain ⟨payer, nonneg⟩ := mine.amount trivial
    rw [settling.ccyAt] at payer
    rw [intentOf_transfer flying.named (oblivious.cleared flying.cleared) payer (ccy found) nonneg,
      escrowed.covers (settling.funds_nonneg _) (settling.sent member)]
    refine ⟨rfl, rfl, escrowed.land (funds_credited found nonneg fun can =>
      settling.solvency.credit_exact settling.fits settling.loaded member found can) fun id => ?_⟩
    show sys.leaving id - _ + 0 = _
    rw [add_zero]
    rfl
  | creditedNowhere g missing =>
    exact absurd (ccyAt_eq_none.2 missing) (mine.accounts trivial).2
  | unposted => exact absurd trivial never'
  | uncredited => exact absurd trivial (settling.never _ member)
  | uncreditedNowhere => exact absurd trivial (settling.never _ member)
  | undebited => exact absurd trivial (settling.never _ member)
  | undebitedNowhere => exact absurd trivial (settling.never _ member)
  | uncaptured g err failed =>
    obtain ⟨provider, tag, supported⟩ := shipped.approves c.req.method
    have supported := (Flying.supported sound).symm.trans supported
    rw [Option.some.inj supported] at failed
    cases failed
  | captured g ok =>
    have flying : Flying chain c g := sound
    exact .inl ⟨flying.capturing_verdict, still rfl rfl⟩
  | _ => exact .inl ⟨rfl, still rfl rfl⟩

/-! ## Runs -/

/-- A service over solvent accounts with no lock held, and calls over the shipped
adapters with keys of their own that it has not seen. -/
structure Ready (service : PaymentService) (calls : List Call) : Prop where
  solvent : Solvent service.accounts
  unlocked : ∀ key, ¬ service.locks.Held key
  shipped : ∀ c ∈ calls, c.env.Shipped
  distinct : (calls.map fun c => c.req.idempotencyKey).Nodup
  unused : ∀ c ∈ calls, service.idempotency.lookup c.req.idempotencyKey = none

section Runs

variable {service : PaymentService} {calls : List Call} {sched : List Nat} {sys : System}

theorem Ready.settling (ready : Ready service calls) (reached : Reaches chain service calls sched sys) :
    Settling chain service.ccyAt (fun ccy => total (heldIn ccy) service.accounts) sys where
  shipped t member := by
    refine ready.shipped _ ?_
    rw [← reached.calls]
    exact List.mem_map_of_mem member
  ccyAt := reached.ccyAt
  sound := reached.sound
  loaded := reached.loaded
  never := reached.never_undoing fun c among => (ready.shipped c among).ledger
  fits := ready.solvent.bounded
  solvency := Solvency.run ready.solvent (fun c among => (ready.shipped c among).ledger) reached
  mutex := reached.mutex ready.unlocked
  unshared := reached.unshared ready.distinct ready.unused

/-- The sequential object: the call at a place applies its intent to the funds. -/
def perform (chain : ValidationChain) (held : String → Option Currency) (calls : List Call) (i : Nat)
    (f : String → Int) : Verdict × (String → Int) :=
  match calls[i]? with
  | some c => (intentOf chain held c).apply f
  | none => (.raised, f)

theorem perform_at {held : String → Option Currency} {i : Nat} {c : Call}
    (place : calls[i]? = some c) (f : String → Int) :
    perform chain held calls i f = (intentOf chain held c).apply f := by
  simp only [perform, place]

/-- The state was reached, and `f` is its balances with what is in transit. -/
def Funded (chain : ValidationChain) (service : PaymentService) (calls : List Call) (sys : System)
    (f : String → Int) : Prop :=
  (∃ sched, Reaches chain service calls sched sys) ∧ Escrowed (funds sys.service) sys.leaving f

theorem linearizing (oblivious : Oblivious chain) (ready : Ready service calls) :
    Linearizing (System.step chain) (perform chain service.ccyAt calls) System.decided
      (Funded chain service calls) := by
  constructor
  rintro sys f i sys' ⟨⟨sched, reached⟩, escrowed⟩ stepped
  have reached' := reached.snoc stepped
  obtain ⟨c, pc, pc', at_, fired, threads⟩ := step_fires stepped
  have place : calls[i]? = some c := reached.place at_
  have mover : (⟨c, pc'⟩ : Thread) ∈ sys'.threads := by
    rw [threads]
    exact mem_set_at at_ _
  have leaving : sys'.leaving = fun id => sys.leaving id - Thread.leaving ⟨c, pc⟩ id +
      Thread.leaving ⟨c, pc'⟩ id := by
    funext id
    unfold System.leaving
    rw [threads]
    exact sum_map_set at_ _ _
  have performs : perform chain service.ccyAt calls i f = (intentOf chain service.ccyAt c).apply f :=
    perform_at place f
  rcases fired.commits oblivious (ready.settling reached) at_
      ((ready.settling reached').never _ mover) escrowed with ⟨same, kept⟩ | ⟨open_, decides, landed⟩
  · left
    refine ⟨⟨⟨_, reached'⟩, ?_⟩, fun j => ?_⟩
    · rw [leaving]
      exact kept
    · rw [decided_set at_ threads]
      split
      · rename_i here
        rw [here, same, decided_at at_]
      · rfl
  · right
    refine ⟨?_, ⟨⟨_, reached'⟩, ?_⟩, fun j => ?_⟩
    · rw [decided_at at_]
      exact open_
    · rw [leaving, performs]
      exact landed
    · rw [decided_set at_ threads, Function.update_apply, decides, performs]

theorem leaving_init (service : PaymentService) (calls : List Call) (id : String) :
    (System.init service calls).leaving id = 0 := by
  apply sum_map_zero
  intro t member
  unfold Thread.leaving
  rw [(mem_init member).2]

/-- **Every run has a linearization over intents**, of which every earlier moment is
explained by a prefix. -/
theorem Reaches.explained (reached : Reaches chain service calls sched sys)
    (oblivious : Oblivious chain) (ready : Ready service calls) :
    ∃ order, Explains (perform chain service.ccyAt calls) System.decided
        (Funded chain service calls) (funds service) sys order ∧
      ∀ early late mid, sched = early ++ late → Reaches chain service calls early mid →
        ∃ p, p <+: order ∧ Explains (perform chain service.ccyAt calls) System.decided
          (Funded chain service calls) (funds service) mid p := by
  have start : Explains (perform chain service.ccyAt calls) System.decided
      (Funded chain service calls) (funds service) (System.init service calls) [] := by
    refine ⟨List.nodup_nil, ⟨⟨[], rfl⟩, fun id => ?_⟩, fun j => ?_⟩
    · rw [leaving_init, add_zero]
      rfl
    · unfold System.decided
      cases at_ : (System.init service calls).threads[j]? with
      | none => rfl
      | some t =>
        show t.pc.verdict t.call = none
        rw [(mem_init (List.mem_of_getElem? at_)).2]
        rfl
  obtain ⟨order, final, prefixes⟩ := (linearizing oblivious ready).run start reached
  exact ⟨order, final, prefixes⟩

/-! ## Ended calls -/

theorem Unshared.not_lost (unshared : Unshared sys) {i : Nat} {t : Thread}
    (at_ : sys.threads[i]? = some t) : ¬ t.pc.Lost := by
  intro lost
  refine (unshared.unclaimed i t at_ ?_).2 lost
  obtain ⟨c, pc⟩ := t
  cases pc with
  | lookup => rfl
  | replay => rfl
  | replied => rfl
  | _ => exact False.elim lost

theorem verdict_of_outcome {c : Call} {pc : Pc} {out : Outcome} (ended : pc.outcome = some out)
    (kept : ¬ pc.Lost) : pc.verdict c = some (verdictOf out) := by
  cases pc with
  | replied res => exact absurd trivial kept
  | unbuilt id e =>
    cases ended
    rfl
  | finished txn out' =>
    cases ended
    rfl
  | _ => cases ended

/-- What the call at a place returned or let escape, once it has ended. -/
def System.outcome (sys : System) (i : Nat) : Option Outcome :=
  (sys.threads[i]?).bind fun t => t.pc.outcome

theorem decided_of_ended (unshared : Unshared sys) {i : Nat} {out : Outcome}
    (ended : sys.outcome i = some out) : sys.decided i = some (verdictOf out) := by
  obtain ⟨t, at_, outcome⟩ := Option.bind_eq_some_iff.1 ended
  rw [decided_at at_]
  exact verdict_of_outcome outcome (unshared.not_lost at_)

theorem System.Complete.outcome (complete : sys.Complete) {i : Nat} (inside : i < sys.threads.length) :
    ∃ out, sys.outcome i = some out := by
  obtain ⟨t, at_⟩ : ∃ t, sys.threads[i]? = some t := ⟨_, List.getElem?_eq_getElem inside⟩
  obtain ⟨out, ended⟩ := Option.ne_none_iff_exists'.1 (complete t (List.mem_of_getElem? at_))
  exact ⟨out, Option.bind_eq_some_iff.2 ⟨t, at_, ended⟩⟩

theorem leaving_of_ended {t : Thread} (ended : t.pc.outcome ≠ none) (id : String) :
    t.leaving id = 0 := by
  obtain ⟨c, pc⟩ := t
  cases pc with
  | credit f => exact absurd rfl ended
  | _ => rfl

/-- Once every call has ended, a linearization is an order of all of them. -/
theorem order_complete {held : String → Option Currency} {f : String → Int} {order : List Nat}
    (explains : Explains (perform chain held calls) System.decided (Funded chain service calls) f sys
      order) (complete : sys.Complete) (unshared : Unshared sys) :
    order.Perm (List.range sys.threads.length) := by
  rw [List.perm_ext_iff_of_nodup explains.nodup List.nodup_range]
  intro i
  rw [List.mem_range, explains.mem_iff]
  constructor
  · intro answered
    unfold System.decided at answered
    by_contra outside
    rw [List.getElem?_eq_none (by omega)] at answered
    cases answered
  · intro inside
    obtain ⟨out, ended⟩ := complete.outcome inside
    rw [decided_of_ended unshared ended]
    rfl

end Runs

/-! ## One call at a time -/

section Solo

variable {service : PaymentService} {c : Call} {rest : List Call}

theorem Ready.head (ready : Ready service (c :: rest)) : Ready service [c] where
  solvent := ready.solvent
  unlocked := ready.unlocked
  shipped d among := ready.shipped d (List.mem_cons.2 (.inl (List.mem_singleton.1 among)))
  distinct := List.nodup_singleton _
  unused d among := ready.unused d (List.mem_cons.2 (.inl (List.mem_singleton.1 among)))

/-- **A call alone is its intent**: the verdict and the effect on the funds. -/
theorem pay_refines (oblivious : Oblivious chain) (ready : Ready service (c :: rest)) :
    (verdictOf (pay chain c.env c.req service).1, funds (pay chain c.env c.req service).2) =
      (intentOf chain service.ccyAt c).apply (funds service) := by
  obtain ⟨sched, pc, ended, reached⟩ := solo_reaches chain c service (ready.unlocked _)
  have unshared := (ready.head.settling reached).unshared
  obtain ⟨order, explains, -⟩ := reached.explained oblivious ready.head
  have ended_ : pc.outcome ≠ none := by
    rw [ended]
    exact Option.some_ne_none _
  have all : order.Perm [0] := order_complete explains (by
    intro t member
    rw [List.mem_singleton.1 member]
    exact ended_) unshared
  obtain rfl := List.perm_singleton.1 all
  have performs : perform chain service.ccyAt [c] 0 (funds service) =
      (intentOf chain service.ccyAt c).apply (funds service) := perform_at rfl (funds service)
  have kept : ¬ pc.Lost := unshared.not_lost (i := 0) (t := ⟨c, pc⟩) rfl
  have answers := explains.answers 0
  rw [decided_at rfl, verdict_of_outcome ended kept] at answers
  have verdict : verdictOf (pay chain c.env c.req service).1 =
      (perform chain service.ccyAt [c] 0 (funds service)).1 := Option.some.inj answers
  have money : funds (pay chain c.env c.req service).2 =
      (perform chain service.ccyAt [c] 0 (funds service)).2 := by
    funext id
    have escrowed := explains.rel.2 id
    have still : System.leaving ⟨(pay chain c.env c.req service).2, [⟨c, pc⟩]⟩ id = 0 :=
      sum_map_zero fun t member => by
        rw [List.mem_singleton.1 member]
        exact leaving_of_ended ended_ id
    rw [still, add_zero] at escrowed
    exact escrowed.symm
  rw [verdict, money, performs]

theorem ccyAt_pay (chain : ValidationChain) (ready : Ready service (c :: rest)) :
    (pay chain c.env c.req service).2.ccyAt = service.ccyAt := by
  obtain ⟨sched, pc, -, reached⟩ := solo_reaches chain c service (ready.unlocked _)
  funext id
  exact reached.ccyAt id

/-- A call leaves the service ready for the calls to come. -/
theorem Ready.tail (chain : ValidationChain) (ready : Ready service (c :: rest)) :
    Ready (pay chain c.env c.req service).2 rest := by
  obtain ⟨sched, pc, ended, reached⟩ := solo_reaches chain c service (ready.unlocked _)
  have settling := ready.head.settling reached
  have ended_ : pc.outcome ≠ none := by
    rw [ended]
    exact Option.some_ne_none _
  have keys := List.nodup_cons.1 ready.distinct
  refine ⟨⟨settling.solvency.nonneg, fun ccy => ?_⟩, fun key held => ?_, fun d among => ?_, keys.2,
    fun d among => ?_⟩
  · have covered := settling.solvency.covered ccy
    have bounded := ready.solvent.bounded ccy
    have still : System.inTransit ccy ⟨(pay chain c.env c.req service).2, [⟨c, pc⟩]⟩ = 0 := by
      apply sum_map_zero
      intro t member
      rw [List.mem_singleton.1 member]
      cases pc with
      | credit f => exact absurd rfl ended_
      | _ => rfl
    rw [still, add_zero] at covered
    exact lt_of_le_of_lt covered bounded
  · obtain ⟨t, member, inside, -⟩ := (settling.mutex.held key).1 held
    rw [List.mem_singleton.1 member] at inside
    cases pc with
    | replied => exact inside
    | unbuilt => exact inside
    | finished => exact inside
    | _ => exact ended_ rfl
  · exact ready.shipped d (List.mem_cons_of_mem _ among)
  · cases claimed : (pay chain c.env c.req service).2.idempotency.lookup d.req.idempotencyKey with
    | none => rfl
    | some id =>
      rcases reached.claimant claimed with before | ⟨t, member, same, -⟩
      · rw [ready.unused d (List.mem_cons_of_mem _ among)] at before
        cases before
      · rw [List.mem_singleton.1 member] at same
        exact absurd (List.mem_map.2 ⟨d, among, same.symm⟩) keys.1

/-- **Calls one after another are their intents one after another.** -/
theorem payAll_refines (oblivious : Oblivious chain) {calls : List Call}
    {held : String → Option Currency} {order : List Nat} (inside : ∀ i ∈ order, i < calls.length)
    (ready : Ready service (order.filterMap fun i => calls[i]?)) (same : service.ccyAt = held) :
    (payAll chain service (order.filterMap fun i => calls[i]?)).1.map verdictOf =
        answersOf (perform chain held calls) (funds service) order ∧
      funds (payAll chain service (order.filterMap fun i => calls[i]?)).2 =
        after (perform chain held calls) (funds service) order ∧
      (payAll chain service (order.filterMap fun i => calls[i]?)).2.ccyAt = held := by
  induction order generalizing service with
  | nil => exact ⟨rfl, rfl, same⟩
  | cons i order ih =>
    obtain ⟨c, place⟩ : ∃ c, calls[i]? = some c :=
      ⟨_, List.getElem?_eq_getElem (inside i List.mem_cons_self)⟩
    rw [List.filterMap_cons_some place] at ready ⊢
    have first := pay_refines oblivious ready
    rw [same, ← perform_at place] at first
    obtain ⟨answers, money, kept⟩ := ih (fun j member => inside j (List.mem_cons_of_mem _ member))
      (ready.tail chain) ((ccyAt_pay chain ready).trans same)
    have split : funds (pay chain c.env c.req service).2 =
        (perform chain held calls i (funds service)).2 := congrArg Prod.snd first
    rw [split] at answers money
    refine ⟨?_, money, kept⟩
    show verdictOf _ :: List.map verdictOf _ = _ :: _
    rw [answers]
    exact congrArg (· :: _) (congrArg Prod.fst first)

end Solo

/-! ## Linearizability -/

theorem Ready.perm {service : PaymentService} {calls calls' : List Call} (ready : Ready service calls)
    (perm : calls'.Perm calls) : Ready service calls' where
  solvent := ready.solvent
  unlocked := ready.unlocked
  shipped c among := ready.shipped c (perm.mem_iff.1 among)
  distinct := (perm.map _).nodup_iff.2 ready.distinct
  unused c among := ready.unused c (perm.mem_iff.1 among)

theorem filterMap_range (calls : List Call) :
    ((List.range calls.length).filterMap fun i => calls[i]?) = calls := by
  induction calls with
  | nil => rfl
  | cons c rest ih =>
    rw [List.length_cons, List.range_succ_eq_map, List.filterMap_cons_some (by rfl),
      List.filterMap_map]
    exact congrArg (c :: ·) ih

/-- Funds and currencies are all there is to a balance. -/
theorem balance_of_funds {s s' : PaymentService} (ccy : s.ccyAt = s'.ccyAt)
    (money : funds s = funds s') (id : String) :
    (s.accounts.lookup id).map (·.balance) = (s'.accounts.lookup id).map (·.balance) := by
  have ccy := congrFun ccy id
  have money := congrFun money id
  unfold PaymentService.ccyAt at ccy
  unfold funds at money
  cases here : s.accounts.lookup id with
  | none =>
    cases there : s'.accounts.lookup id with
    | none => rfl
    | some account' =>
      rw [here, there] at ccy
      cases ccy
  | some account =>
    cases there : s'.accounts.lookup id with
    | none =>
      rw [here, there] at ccy
      cases ccy
    | some account' =>
      rw [here, there] at ccy money
      have minorUnits : account.balance.minorUnits = account'.balance.minorUnits :=
        Int64.toInt_inj.1 money
      have currency : account.balance.currency = account'.balance.currency := Option.some.inj ccy
      show some account.balance = some account'.balance
      cases is : account.balance
      cases is' : account'.balance
      simp_all

/-- **Concurrent payments are linearizable.**  A run of calls with keys of their own
to its end has an order of the calls, in which a call that had ended before another
began comes first, such that the calls made one after another in it have the same
verdicts and leave every account the same balance.  The subscribers of a call answer by the
type and payload of an event, in the run and in the order alike. -/
theorem linearizable {limit threshold : Money} {service : PaymentService} {calls : List Call}
    {sched : List Nat} {sys : System} (ready : Ready service calls)
    (reached : Reaches (standardChain limit threshold) service calls sched sys)
    (complete : sys.Complete) :
    ∃ order : List Nat, order.Perm (List.range calls.length) ∧
      (∀ early late mid i j c, sched = early ++ late →
        Reaches (standardChain limit threshold) service calls early mid →
        mid.outcome i ≠ none → mid.threads[j]? = some ⟨c, .start⟩ →
        order.idxOf i < order.idxOf j) ∧
      (order.map fun i => (sys.outcome i).map verdictOf) =
        ((payAll (standardChain limit threshold) service (order.filterMap fun i => calls[i]?)).1.map
          fun out => some (verdictOf out)) ∧
      ∀ id, (sys.service.accounts.lookup id).map (·.balance) =
        ((payAll (standardChain limit threshold) service
          (order.filterMap fun i => calls[i]?)).2.accounts.lookup id).map (·.balance) := by
  have oblivious := oblivious_standardChain limit threshold
  obtain ⟨order, explains, prefixes⟩ := reached.explained oblivious ready
  have unshared := (ready.settling reached).unshared
  have all : order.Perm (List.range calls.length) := by
    rw [← length_threads reached]
    exact order_complete explains complete unshared
  have ready' : Ready service (order.filterMap fun i => calls[i]?) := by
    refine ready.perm ?_
    have perm := all.filterMap fun i => calls[i]?
    rwa [filterMap_range] at perm
  have inside : ∀ i ∈ order, i < calls.length := fun i member => List.mem_range.1 (all.mem_iff.1 member)
  obtain ⟨answers, money, ccy⟩ := payAll_refines oblivious inside ready' rfl
  refine ⟨order, all, ?_, ?_, ?_⟩
  · -- what a prefix decides comes before what it does not
    intro early late mid i j c split ran ended waiting
    obtain ⟨p, isPrefix, now⟩ := prefixes early late mid split ran
    have first : i ∈ p := by
      obtain ⟨out, outcome⟩ := Option.ne_none_iff_exists'.1 ended
      rw [now.mem_iff, decided_of_ended (ready.settling ran).unshared outcome]
      rfl
    have second : j ∉ p := by
      rw [now.mem_iff, decided_at waiting]
      exact Bool.false_ne_true
    have third : j ∈ order := by
      rw [all.mem_iff, List.mem_range, ← length_threads ran]
      exact (List.getElem?_eq_some_iff.1 waiting).1
    exact idxOf_lt_of_prefix isPrefix first second third
  · have decides : ∀ i ∈ order, (sys.outcome i).map verdictOf =
        answer (perform (standardChain limit threshold) service.ccyAt calls) (funds service) order i := by
      intro i member
      have inside : i < sys.threads.length := by
        rw [length_threads reached]
        exact inside i member
      obtain ⟨out, outcome⟩ := complete.outcome inside
      rw [← explains.answers i, decided_of_ended unshared outcome, outcome]
      rfl
    rw [List.map_congr_left decides, map_answer _ explains.nodup, ← answers, List.map_map]
    rfl
  · have quiet : ∀ id, sys.leaving id = 0 := fun id =>
      sum_map_zero fun t member => leaving_of_ended (complete t member) id
    refine balance_of_funds ?_ ?_
    · funext id
      rw [reached.ccyAt id, ccy]
    · funext id
      have escrowed := explains.rel.2 id
      rw [quiet, add_zero] at escrowed
      rw [money, escrowed]

/-- The merchant pays back out of a credit that is not yet recorded: each call is in
flight while the other moves money. -/
theorem linearizable_interleaved : ∃ sys, Reaches mainChain (PaymentService.opening userAndMerchant)
    [upiCall "key-1" "u" "m" 30000, upiCall "key-2" "m" "u" 20000]
    (List.replicate 8 1 ++ List.replicate 10 0 ++ List.replicate 12 1 ++ List.replicate 10 0) sys ∧
    sys.Complete ∧ ∃ order : List Nat, order.Perm [0, 1] ∧
      (order.map fun i => (sys.outcome i).map verdictOf) =
        ((payAll mainChain (PaymentService.opening userAndMerchant) (order.filterMap fun i =>
          [upiCall "key-1" "u" "m" 30000, upiCall "key-2" "m" "u" 20000][i]?)).1.map
            fun out => some (verdictOf out)) := by
  have ran : (exec (System.step mainChain)
      (System.init (PaymentService.opening userAndMerchant)
        [upiCall "key-1" "u" "m" 30000, upiCall "key-2" "m" "u" 20000])
      (List.replicate 8 1 ++ List.replicate 10 0 ++ List.replicate 12 1 ++ List.replicate 10 0)).any
        (fun sys => sys.threads.all fun t => t.pc.outcome.isSome) = true := by
    decide +kernel
  obtain ⟨sys, reached, ended⟩ := exec_any ran
  have complete : sys.Complete := System.complete_of_all ended
  have ready : Ready (PaymentService.opening userAndMerchant)
      [upiCall "key-1" "u" "m" 30000, upiCall "key-2" "m" "u" 20000] := by
    refine ⟨solvent_userAndMerchant, fun key => nofun, ?_, by decide, fun c among => rfl⟩
    intro c among
    simp only [List.mem_cons, List.not_mem_nil, or_false] at among
    rcases among with rfl | rfl <;> exact Env.shipped_shipped 0
  obtain ⟨order, all, -, same, -⟩ := linearizable ready reached complete
  exact ⟨sys, reached, complete, order, all, same⟩

/-! ### Subscribers that remember -/

/-- A subscriber with a memory: what it answers to the type and payload of an event, and what
it remembers then. -/
abbrev Mindful (σ : Type) := σ → String → String → Except Exception Unit × σ

section Remembers

variable {σ : Type} (hears : Mindful σ)

/-- What it answers to events, one after another. -/
def answersTo : σ → List DomainEvent → List (Except Exception Unit)
  | _, [] => []
  | seen, e :: rest =>
    (hears seen e.type e.payload).1 :: answersTo (hears seen e.type e.payload).2 rest

/-- What it remembers of them. -/
def remembers : σ → List DomainEvent → σ
  | seen, [] => seen
  | seen, e :: rest => remembers (hears seen e.type e.payload).2 rest

/-- The call, told to the subscriber as it is now. -/
def Call.toldTo (seen : σ) (c : Call) : Call :=
  { c with env := { c.env with subscribers := fun type payload => (hears seen type payload).1 } }

/-- The calls one after another, with one such subscriber for all of them. -/
def payAllTo (chain : ValidationChain) :
    σ → PaymentService → List Call → List Outcome × PaymentService
  | _, s, [] => ([], s)
  | seen, s, c :: rest =>
    let r := pay chain (c.toldTo hears seen).env c.req s
    let tail := payAllTo chain (remembers hears seen (r.2.events.drop s.events.length)) r.2 rest
    (r.1 :: tail.1, tail.2)

end Remembers

/-- It throws on the first event it hears of. -/
def throwsFirst : Mindful Bool := fun seen _ _ =>
  (if seen then .ok () else .error (.foreign "subscriber"), true)

/-- A wallet of 1000.00 INR, and two empty accounts for it to go on to. -/
def inLine : InMemoryAccountRepository := userAndMerchant.save ⟨"n", ⟨0, .inr⟩⟩

/-- The wallet's money to the first, and on to the second. -/
def handedOn : List Call := [upiCall "key-1" "u" "m" 100000, upiCall "key-2" "m" "n" 100000]

/-- The first payment is saved and not yet told of when the second is made and told of. -/
def overtaken : List (Published.Act Nat) :=
  .hub 2 (.subscribe 7) :: List.replicate 17 (.call 0) ++ List.replicate 18 (.call 1) ++
    [.hub 1 .next, .hub 1 (.throws (.foreign "subscriber")), .call 1] ++
    [.call 0, .hub 0 .next, .hub 0 .returns, .hub 0 .next, .call 0]

/-- **A subscriber that remembers is not explained by any order**: in this run it throws on
the event of the second payment, which the first had to precede to fund it. -/
theorem not_linearizable : Ready (PaymentService.opening inLine) handedOn ∧
    ∃ w : Published Nat, exec (Published.step mainChain)
        (Published.init (PaymentService.opening inLine) handedOn 1) overtaken = some w ∧
      w.sys.Complete ∧
      w.heard.map Prod.snd = answersTo throwsFirst false (w.hub.deliveries.map Delivery.event) ∧
      ∀ order : List Nat, order.Perm [0, 1] →
        ¬ ((order.map fun i => (w.sys.outcome i).map verdictOf) =
            ((payAllTo throwsFirst mainChain false (PaymentService.opening inLine)
              (order.filterMap fun i => handedOn[i]?)).1.map fun out => some (verdictOf out)) ∧
          ∀ id, (w.sys.service.accounts.lookup id).map (·.balance) =
            ((payAllTo throwsFirst mainChain false (PaymentService.opening inLine)
              (order.filterMap fun i => handedOn[i]?)).2.accounts.lookup id).map (·.balance)) := by
  have ran : (exec (Published.step mainChain)
      (Published.init (PaymentService.opening inLine) handedOn 1) overtaken).any (fun w =>
        (w.sys.threads.all fun t => t.pc.outcome.isSome) &&
        decide (w.heard.map Prod.snd =
          answersTo throwsFirst false (w.hub.deliveries.map Delivery.event)) &&
        decide ((w.sys.outcome 0).map verdictOf = some (.returned .captured)) &&
        decide ((w.sys.service.accounts.lookup "n").map (·.balance) = some ⟨100000, .inr⟩)) =
          true := by
    decide +kernel
  -- made first, the first payment is the one that is thrown out of
  have forwards : ((payAllTo throwsFirst mainChain false (PaymentService.opening inLine)
      handedOn).1.map fun out => some (verdictOf out)) =
        [some .raised, some (.returned .captured)] := by
    decide +kernel
  -- made first, the second payment has nothing to hand on
  have backwards : ((payAllTo throwsFirst mainChain false (PaymentService.opening inLine)
      handedOn.reverse).2.accounts.lookup "n").map (·.balance) = some ⟨0, .inr⟩ := by
    decide +kernel
  obtain ⟨w, run, found⟩ := exec_any ran
  simp only [Bool.and_eq_true, decide_eq_true_eq] at found
  obtain ⟨⟨⟨ended, answers⟩, captured⟩, arrived⟩ := found
  have ready : Ready (PaymentService.opening inLine) handedOn := by
    refine ⟨Solvent.of_entries (by decide) (by decide), fun key => nofun, ?_, by decide,
      fun c among => rfl⟩
    intro c among
    simp only [handedOn, List.mem_cons, List.not_mem_nil, or_false] at among
    rcases among with rfl | rfl <;> exact Env.shipped_shipped 0
  refine ⟨ready, w, run, System.complete_of_all ended, answers, ?_⟩
  rintro order perm ⟨verdicts, balances⟩
  rcases List.perm_pair.1 perm with rfl | rfl
  · have raised : (w.sys.outcome 0).map verdictOf = some .raised :=
      (List.cons.inj (verdicts.trans forwards)).1
    cases captured.symm.trans raised
  · have nowhere := (balances "n").trans backwards
    cases arrived.symm.trans nowhere

end PaymentSystem.Service
