/-
# PaymentSystem.Service.Wiring -- how much the order of the handlers matters

The chain is wired once, handlers in insertion order, and the first refusal is the answer.
Two chains that `Agree` on the transactions of the calls let the same ones through and
throw alike; they may refuse for different reasons.  Nothing but the reason shows:

* `Reaches.mirrored`: every run under one chain is a run under the other, step for step,
  through the same states of the service, with the same answers but for those errors.
* `order_of_handlers`: so it is for two chains of the same handlers in any order, each any
  number of times, none of which throws on the transactions of the calls.
-/
import PaymentSystem.Service.Locals

namespace PaymentSystem.Service

open PaymentSystem.Common
open PaymentSystem.Domain
open PaymentSystem.Patterns
open PaymentSystem.Theory.Runs
open PaymentSystem.Theory.Threads

set_option autoImplicit false

variable {chain chain' : ValidationChain}

/-! ## Chains that agree -/

/-- The two chains let the transaction through alike, and throw alike. -/
structure Agree (chain chain' : ValidationChain) (txn : Transaction) : Prop where
  cleared : Cleared chain txn ↔ Cleared chain' txn
  threw : ∀ e, chain.run txn = .error e ↔ chain'.run txn = .error e

/-- A chain of handlers that do not throw does not, and lets through what they all do. -/
theorem run_quiet {chain : ValidationChain} {txn : Transaction}
    (quiet : ∀ h ∈ chain, ∃ v, h.check txn = .ok v) :
    (∃ v, chain.run txn = .ok v) ∧
      (Cleared chain txn ↔ ∀ h ∈ chain, ∃ v, h.check txn = .ok v ∧ v.isErr = false) := by
  induction chain with
  | nil => exact ⟨⟨_, rfl⟩, iff_of_true ⟨_, rfl, rfl⟩ nofun⟩
  | cons h rest ih =>
    obtain ⟨⟨v, checked⟩, later⟩ := List.forall_mem_cons.1 quiet
    obtain ⟨ran, cleared⟩ := ih later
    cases err : v.isErr with
    | true =>
      have is : ValidationChain.run (h :: rest) txn = .ok v :=
        ValidationChain.run_cons_fail checked err
      refine ⟨⟨v, is⟩, iff_of_false ?_ ?_⟩
      · rintro ⟨w, ran, ok⟩
        cases is.symm.trans ran
        rw [err] at ok
        cases ok
      · intro all
        obtain ⟨w, passed, ok⟩ := all h List.mem_cons_self
        cases checked.symm.trans passed
        rw [err] at ok
        cases ok
    | false =>
      have is : ValidationChain.run (h :: rest) txn = ValidationChain.run rest txn := by
        simp [ValidationChain.run, checked, err, bind, Except.bind]
      rw [List.forall_mem_cons, ← cleared, Cleared, is]
      exact ⟨ran, ⟨fun passed => ⟨⟨v, checked, err⟩, passed⟩, fun passed => passed.2⟩⟩

/-- **Chains of the same handlers agree** where none of them throws. -/
theorem Agree.of_handlers {txn : Transaction} (same : ∀ h, h ∈ chain ↔ h ∈ chain')
    (quiet : ∀ h ∈ chain, ∃ v, h.check txn = .ok v) : Agree chain chain' txn := by
  obtain ⟨⟨v, ran⟩, cleared⟩ := run_quiet quiet
  obtain ⟨⟨v', ran'⟩, cleared'⟩ := run_quiet fun h member => quiet h ((same h).2 member)
  refine ⟨?_, fun e => ?_⟩
  · rw [cleared, cleared']
    exact forall_congr' fun h => by rw [same h]
  · rw [ran, ran']
    exact iff_of_false nofun nofun

/-- What one chain refuses the other refuses, if perhaps for another reason. -/
theorem Agree.refused {txn : Transaction} (agree : Agree chain chain' txn) {v : Status}
    (ran : chain.run txn = .ok v) (err : v.isErr = true) :
    ∃ v', chain'.run txn = .ok v' ∧ v'.isErr = true := by
  cases ran' : chain'.run txn with
  | error e =>
    rw [(agree.threw e).2 ran'] at ran
    cases ran
  | ok v' =>
    cases err' : v'.isErr with
    | true => exact ⟨v', rfl, err'⟩
    | false =>
      obtain ⟨w, ran'', ok⟩ := agree.cleared.2 ⟨v', ran', err'⟩
      cases ran.symm.trans ran''
      rw [err] at ok
      cases ok

/-! ## Answers alike -/

/-- The same answer, but perhaps for the error. -/
inductive Result.Alike : Result Transaction → Result Transaction → Prop where
  | ok (txn : Transaction) : Alike (.ok txn) (.ok txn)
  | fail (e e' : Error) : Alike (.fail e) (.fail e')

theorem Result.Alike.refl (res : Result Transaction) : Result.Alike res res := by
  cases res with
  | ok txn => exact .ok txn
  | fail e => exact .fail e e

/-- The same exception, or answers alike. -/
inductive Outcome.Alike : Outcome → Outcome → Prop where
  | error (e : Exception) : Alike (.error e) (.error e)
  | ok {res res' : Result Transaction} (alike : Result.Alike res res') : Alike (.ok res) (.ok res')

theorem Outcome.Alike.refl (out : Outcome) : Outcome.Alike out out := by
  cases out with
  | error e => exact .error e
  | ok res => exact .ok (.refl res)

/-- The same program point and locals, but for the error in the answer to come. -/
inductive Pc.Alike : Pc → Pc → Prop where
  | same (pc : Pc) : Alike pc pc
  | save (txn : Transaction) (type : String) {res res' : Result Transaction}
      (alike : Result.Alike res res') : Alike (.save txn type res) (.save txn type res')
  | publish (txn : Transaction) (type : String) {res res' : Result Transaction}
      (alike : Result.Alike res res') : Alike (.publish txn type res) (.publish txn type res')
  | notify (txn : Transaction) (type : String) {res res' : Result Transaction}
      (alike : Result.Alike res res') : Alike (.notify txn type res) (.notify txn type res')
  | unlock (txn : Transaction) {out out' : Outcome} (alike : Outcome.Alike out out') :
      Alike (.unlock txn out) (.unlock txn out')
  | finished (txn : Transaction) {out out' : Outcome} (alike : Outcome.Alike out out') :
      Alike (.finished txn out) (.finished txn out')

theorem told_alike (env : Env) (txn : Transaction) (type : String) {res res' : Result Transaction}
    (alike : Result.Alike res res') :
    Outcome.Alike (told env txn type res) (told env txn type res') := by
  unfold told
  cases env.subscribers type (payloadOf txn) with
  | error e => exact .error e
  | ok _ => exact .ok alike

/-- **A step under one chain is a step under the other.** -/
theorem next_alike {c : Call} {s s₁ : PaymentService} {pc pc' pc₁ : Pc} (alike : Pc.Alike pc pc')
    (agree : ∀ txn, pc = .validate txn → Agree chain chain' txn)
    (went : next chain c s pc = some (s₁, pc₁)) :
    ∃ pc₁', next chain' c s pc' = some (s₁, pc₁') ∧ Pc.Alike pc₁ pc₁' := by
  cases alike with
  | same =>
    cases pc with
    | validate txn =>
      have agree := agree txn rfl
      generalize ended : Pc.validate txn = pc at went
      have fired := next_fires went
      cases fired with
      | raised txn' e threw =>
        cases ended
        refine ⟨.unlock txn (.error e), ?_, .same _⟩
        simp only [next, (agree.threw e).1 threw]
      | rejected txn' v ran err =>
        cases ended
        obtain ⟨v', ran', err'⟩ := agree.refused ran err
        refine ⟨.failing txn v'.err, ?_, .save _ _ (.fail _ _)⟩
        simp only [next, ran', err', if_true]
      | validated txn' v ran ok =>
        cases ended
        obtain ⟨v', ran', ok'⟩ := agree.cleared.1 ⟨v, ran, ok⟩
        refine ⟨.load txn, ?_, .same _⟩
        simp only [next, ran', ok', Bool.false_eq_true, if_false]
      | _ => cases ended
    | _ => exact ⟨pc₁, went, .same pc₁⟩
  | save txn type alike =>
    cases went
    exact ⟨_, rfl, .publish txn type alike⟩
  | publish txn type alike =>
    cases went
    exact ⟨_, rfl, .notify txn type alike⟩
  | notify txn type alike =>
    cases went
    exact ⟨_, rfl, .unlock txn (told_alike c.env txn type alike)⟩
  | unlock txn alike =>
    cases went
    exact ⟨_, rfl, .finished txn alike⟩
  | finished txn alike => cases went

/-! ## Runs alike -/

/-- The same calls over the same service, each at the same point but for its error. -/
structure System.Alike (sys sys' : System) : Prop where
  service : sys'.service = sys.service
  threads : ∀ (i : Nat) (t : Thread), sys.threads[i]? = some t →
    ∃ t', sys'.threads[i]? = some t' ∧ t'.call = t.call ∧ Pc.Alike t.pc t'.pc

theorem System.Alike.refl (sys : System) : System.Alike sys sys :=
  ⟨rfl, fun _ t at_ => ⟨t, at_, rfl, .same t.pc⟩⟩

theorem System.Alike.step {sys sys' sys₁ : System} {i : Nat} (alike : System.Alike sys sys')
    (agree : ∀ t ∈ sys.threads, ∀ txn, t.pc = .validate txn → Agree chain chain' txn)
    (stepped : System.step chain sys i = some sys₁) :
    ∃ sys₁', System.step chain' sys' i = some sys₁' ∧ System.Alike sys₁ sys₁' := by
  obtain ⟨service, threads⟩ := alike
  obtain ⟨service', threads'⟩ := sys'
  obtain rfl : service' = sys.service := service
  unfold System.step at stepped
  split at stepped
  · cases stepped
  · rename_i t at_
    obtain ⟨⟨s₁, pc₁⟩, went, rfl⟩ := Option.map_eq_some_iff.1 stepped
    obtain ⟨t', at_', same, pcs⟩ := threads i t at_
    obtain ⟨pc₁', went', pcs₁⟩ := next_alike pcs (agree t (List.mem_of_getElem? at_)) went
    refine ⟨⟨s₁, threads'.set i ⟨t.call, pc₁'⟩⟩, ?_, rfl, ?_⟩
    · simp only [System.step, at_', same, went', Option.map_some]
    · intro j u there
      have inside : i < threads'.length := (List.getElem?_eq_some_iff.1 at_').1
      rcases at_set there with ⟨rfl, rfl⟩ | ⟨different, there⟩
      · exact ⟨⟨t.call, pc₁'⟩, List.getElem?_set_self inside, rfl, pcs₁⟩
      · rw [List.getElem?_set_ne (Ne.symm different)]
        exact threads j u there

/-- An outcome is reached alike. -/
theorem Pc.Alike.outcome {pc pc' : Pc} (alike : Pc.Alike pc pc') {out : Outcome}
    (ended : pc.outcome = some out) : ∃ out', pc'.outcome = some out' ∧ Outcome.Alike out out' := by
  cases alike with
  | same => exact ⟨out, ended, .refl out⟩
  | finished txn alike =>
    cases ended
    exact ⟨_, rfl, alike⟩
  | _ => cases ended

section Runs

variable {service : PaymentService} {calls : List Call} {sched : List Nat} {sys : System}

/-- **Where two chains agree, nothing shows which one was wired**, but the error of a
refusal: every run under one is, step for step, a run under the other. -/
theorem Reaches.mirrored (reached : Reaches chain service calls sched sys)
    (agree : ∀ c ∈ calls, ∀ id, Agree chain chain' (c.txn id .initiated)) :
    ∃ sys', Reaches chain' service calls sched sys' ∧ System.Alike sys sys' := by
  refine exec_lockstep System.Alike ?_ (.refl _) reached
  intro early mid i sys₁ mid' ran alike stepped
  have ran : Reaches chain service calls early mid := ran
  refine alike.step (fun t member txn is => ?_) stepped
  have sound := ran.sound t member
  rw [is] at sound
  have among : t.call ∈ calls := by
    rw [← ran.calls]
    exact List.mem_map_of_mem member
  rw [Opened.is sound]
  exact agree t.call among txn.id

/-- **The order in which the handlers are wired, and how often each, changes the error of a
refusal and nothing else**, in any interleaving of any calls on whose transactions no
handler throws: the same schedule runs, through the same states of the service, and each
call that has ended has the same outcome under both chains, or an error under both. -/
theorem order_of_handlers (same : ∀ h, h ∈ chain ↔ h ∈ chain')
    (quiet : ∀ c ∈ calls, ∀ id, ∀ h ∈ chain, ∃ v, h.check (c.txn id .initiated) = .ok v)
    (reached : Reaches chain service calls sched sys) :
    ∃ sys', Reaches chain' service calls sched sys' ∧ sys'.service = sys.service ∧
      ∀ (i : Nat) (t : Thread) (out : Outcome), sys.threads[i]? = some t → t.pc.outcome = some out →
        ∃ t' out', sys'.threads[i]? = some t' ∧ t'.call = t.call ∧ t'.pc.outcome = some out' ∧
          Outcome.Alike out out' := by
  obtain ⟨sys', reached', alike⟩ :=
    reached.mirrored fun c among id => .of_handlers same (quiet c among id)
  refine ⟨sys', reached', alike.service, fun i t out at_ ended => ?_⟩
  obtain ⟨t', at_', same, pcs⟩ := alike.threads i t at_
  obtain ⟨out', ended', outs⟩ := pcs.outcome ended
  exact ⟨t', out', at_', same, ended', outs⟩

end Runs

/-- The shipped handlers throw on no transaction in the currency of their limits. -/
theorem wired_quiet {limit threshold : Money} {txn : Transaction} (links : List Link)
    (limits : txn.amount.currency = limit.currency)
    (screens : txn.amount.currency = threshold.currency) :
    ∀ h ∈ wired limit threshold links, ∃ v, h.check txn = .ok v := by
  intro h member
  obtain ⟨link, -, rfl⟩ := List.mem_map.1 member
  cases link with
  | basic => exact ⟨_, (basic_check txn).choose_spec⟩
  | limit => exact ⟨_, (limit_check limits).choose_spec⟩
  | fraud => exact ⟨_, (fraud_check screens).choose_spec⟩

/-- The same links wire the same handlers. -/
theorem same_wired {limit threshold : Money} {links links' : List Link}
    (same : ∀ link, link ∈ links ↔ link ∈ links') (h : ValidationHandler) :
    h ∈ wired limit threshold links ↔ h ∈ wired limit threshold links' := by
  simp only [wired, List.mem_map, same]

/-- The code of the error a call answered. -/
def Pc.refusal (pc : Pc) : Option ErrorCode :=
  match pc.outcome with
  | some (.ok (.fail e)) => some e.code
  | _ => none

/-- A payment over the limit, which is over the threshold too, under `mainChain` and under
one that screens for fraud first and again at the end. -/
theorem order_of_handlers_screened : ∃ sys sys', Reaches mainChain
    (PaymentService.opening userAndMerchant) [upiCall "key-1" "u" "m" 20000000]
    (List.replicate 10 0) sys ∧
    Reaches (wired ⟨10000000, .inr⟩ ⟨5000000, .inr⟩ [.fraud, .basic, .limit, .fraud])
      (PaymentService.opening userAndMerchant) [upiCall "key-1" "u" "m" 20000000]
      (List.replicate 10 0) sys' ∧
    sys'.service = sys.service ∧
    (sys.threads.map fun t => t.pc.refusal) = [some .validationFailed] ∧
    (sys'.threads.map fun t => t.pc.refusal) = [some .fraudRejected] := by
  have ran : (exec (System.step mainChain) (System.init (PaymentService.opening userAndMerchant)
      [upiCall "key-1" "u" "m" 20000000]) (List.replicate 10 0)).any
        (fun sys => decide ((sys.threads.map fun t => t.pc.refusal) = [some .validationFailed])) =
          true := by decide +kernel
  have screened : (exec (System.step
      (wired ⟨10000000, .inr⟩ ⟨5000000, .inr⟩ [.fraud, .basic, .limit, .fraud]))
      (System.init (PaymentService.opening userAndMerchant) [upiCall "key-1" "u" "m" 20000000])
      (List.replicate 10 0)).any
        (fun sys => decide ((sys.threads.map fun t => t.pc.refusal) = [some .fraudRejected])) =
          true := by decide +kernel
  obtain ⟨sys, reached, refused⟩ := exec_any ran
  obtain ⟨sys'', reached'', refused'⟩ := exec_any screened
  have same : ∀ h, h ∈ mainChain ↔
      h ∈ wired ⟨10000000, .inr⟩ ⟨5000000, .inr⟩ [.fraud, .basic, .limit, .fraud] := by
    have links : ∀ link, link ∈ [Link.basic, .limit, .fraud] ↔
        link ∈ [Link.fraud, .basic, .limit, .fraud] := by
      intro link
      cases link <;> decide
    exact same_wired links
  have quiet : ∀ c ∈ [upiCall "key-1" "u" "m" 20000000], ∀ id, ∀ h ∈ mainChain,
      ∃ v, h.check (c.txn id .initiated) = .ok v := by
    intro c among id
    obtain rfl := List.mem_singleton.1 among
    exact wired_quiet [.basic, .limit, .fraud] rfl rfl
  obtain ⟨sys', reached', service, -⟩ := order_of_handlers same quiet reached
  cases Option.some.inj (reached''.symm.trans reached')
  exact ⟨sys, sys'', reached, reached', service, of_decide_eq_true refused,
    of_decide_eq_true refused'⟩

end PaymentSystem.Service
