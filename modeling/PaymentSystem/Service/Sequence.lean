/-
# PaymentSystem.Service.Sequence -- the global ordering of the journal

`seq_` numbers the journal's entries.  A call draws its two numbers one at a time and
posts them later, and only calls of one payer exclude each other, so another call may
draw between the two, or post later numbers first.

`Orderly` is the condition on a step that rules out both: no call draws its first
number while another is between its draws, and none posts past an earlier number for an
account they share.  `journal_ordered`: in every run of orderly steps each account's
entries come with increasing numbers, and each posting's two numbers are consecutive.
-/
import PaymentSystem.Service.Locals
import PaymentSystem.Theory.MachineInt

namespace PaymentSystem.Service

open PaymentSystem.Common
open PaymentSystem.Domain
open PaymentSystem.Patterns
open PaymentSystem.Adapters
open PaymentSystem.Theory.Runs
open PaymentSystem.Theory.Threads
open PaymentSystem.Theory.MachineInt

set_option autoImplicit false

variable {chain : ValidationChain}

/-! ## Numbers drawn -/

namespace Pc

/-- The sequence numbers a call has drawn and not posted. -/
def numbers : Pc → List Int64
  | .drawCreditId _ _ n | .drawCreditSeq _ _ _ n => [n]
  | .post _ _ _ n m => [n, m]
  | _ => []

/-- The call has drawn the number of its debit, and not yet that of its credit. -/
def Between (pc : Pc) : Prop := pc.numbers.length = 1

instance (pc : Pc) : Decidable pc.Between := inferInstanceAs (Decidable (_ = _))

/-- How many numbers a call may still draw. -/
def toDraw : Pc → Int
  | .start | .claim _ | .build _ | .mutexFor _ | .lock _ | .validate _ | .load _ | .authorize _ _
  | .debit _ | .credit _ | .drawDebitId _ | .drawDebitSeq _ _ => 2
  | .drawCreditId _ _ _ | .drawCreditSeq _ _ _ _ => 1
  | _ => 0

theorem toDraw_nonneg (pc : Pc) : 0 ≤ pc.toDraw := by
  cases pc <;> simp [toDraw]

theorem between_iff {pc : Pc} : pc.Between ↔ ∃ n, pc.numbers = [n] := List.length_eq_one_iff

end Pc

/-- **What a step does to the numbering**: it draws the debit's number, or the credit's,
or posts the two, or draws and posts nothing. -/
theorem Fires.sequence {c : Call} {s s' : PaymentService} {pc pc' : Pc}
    (fired : Fires chain c s pc s' pc') :
    (∃ f debitId, pc = .drawDebitSeq f debitId ∧ pc' = .drawCreditId f debitId s.seq ∧
        s'.seq = s.seq + 1 ∧ s'.journal = s.journal) ∨
      (∃ f debitId creditId n, pc = .drawCreditSeq f debitId creditId n ∧
        pc' = .post f debitId creditId n s.seq ∧ s'.seq = s.seq + 1 ∧ s'.journal = s.journal) ∨
      (∃ f debitId creditId n m, pc = .post f debitId creditId n m ∧ pc' = .capture f ∧
        s'.seq = s.seq ∧ s'.journal = s.journal ++ postingOf c.req f.txn.id debitId creditId n m) ∨
      ((pc'.numbers = pc.numbers ∨ pc'.numbers = []) ∧ pc'.toDraw ≤ pc.toDraw ∧ s'.seq = s.seq ∧
        s'.journal = s.journal) := by
  cases fired with
  | drewDebitSeq f debitId => exact .inl ⟨f, debitId, rfl, rfl, rfl, rfl⟩
  | drewCreditSeq f debitId creditId n =>
    exact .inr (.inl ⟨f, debitId, creditId, n, rfl, rfl, rfl, rfl⟩)
  | posted f debitId creditId n m ok =>
    exact .inr (.inr (.inl ⟨f, debitId, creditId, n, m, rfl, rfl, rfl, rfl⟩))
  | drewCreditId => exact .inr (.inr (.inr ⟨.inl rfl, le_refl _, rfl, rfl⟩))
  | _ =>
    exact .inr (.inr (.inr ⟨.inr rfl, by first | exact le_refl _ | exact Pc.toDraw_nonneg _, rfl,
      rfl⟩))

/-! ## The order of the journal -/

/-- Entries come with strictly increasing numbers. -/
def Increasing (entries : List LedgerEntry) : Prop := entries.Pairwise fun a b => a.seq < b.seq

instance (entries : List LedgerEntry) : Decidable (Increasing entries) :=
  inferInstanceAs (Decidable (List.Pairwise _ _))

/-- The journal is a sequence of postings, each with consecutive numbers. -/
def Consecutive : Journal → Prop
  | [] => True
  | [_] => False
  | debit :: credit :: rest =>
      debit.txnId = credit.txnId ∧ credit.seq.toInt = debit.seq.toInt + 1 ∧ Consecutive rest

instance decidableConsecutive : (journal : Journal) → Decidable (Consecutive journal)
  | [] => inferInstanceAs (Decidable True)
  | [_] => inferInstanceAs (Decidable False)
  | _ :: _ :: rest =>
      have := decidableConsecutive rest
      inferInstanceAs (Decidable (_ ∧ _ ∧ _))

theorem Consecutive.snoc {journal : Journal} (consecutive : Consecutive journal)
    {debit credit : LedgerEntry} (one : debit.txnId = credit.txnId)
    (next_ : credit.seq.toInt = debit.seq.toInt + 1) :
    Consecutive (journal ++ [debit, credit]) := by
  induction journal using Consecutive.induct with
  | case1 => exact ⟨one, next_, trivial⟩
  | case2 => exact consecutive.elim
  | case3 first second rest ih =>
    obtain ⟨same, follows, rest_⟩ := consecutive
    exact ⟨same, follows, ih rest_⟩

/-- The request moves money from or to the account. -/
def PaymentRequest.Touches (req : PaymentRequest) (accountId : String) : Prop :=
  accountId = req.payerAccountId ∨ accountId = req.payeeAccountId

instance (req : PaymentRequest) (accountId : String) : Decidable (req.Touches accountId) :=
  inferInstanceAs (Decidable (_ ∨ _))

/-- The two requests have an account in common. -/
def PaymentRequest.Shares (req req' : PaymentRequest) : Prop :=
  req.Touches req'.payerAccountId ∨ req.Touches req'.payeeAccountId

instance (req req' : PaymentRequest) : Decidable (req.Shares req') :=
  inferInstanceAs (Decidable (_ ∨ _))

theorem PaymentRequest.shares_of_touches {req req' : PaymentRequest} {accountId : String}
    (mine : req.Touches accountId) (theirs : req'.Touches accountId) : req.Shares req' := by
  rcases theirs with rfl | rfl
  · exact .inl mine
  · exact .inr mine

theorem touches_of_posting {req : PaymentRequest} {txnId debitId creditId : String} {n m : Int64}
    {e : LedgerEntry} (member : e ∈ postingOf req txnId debitId creditId n m) :
    req.Touches e.accountId ∧ (e.seq = n ∨ e.seq = m) := by
  simp only [postingOf, List.mem_cons, List.not_mem_nil, or_false] at member
  rcases member with rfl | rfl
  · exact ⟨.inl rfl, .inl rfl⟩
  · exact ⟨.inr rfl, .inr rfl⟩

/-! ## Orderly steps -/

/-- The next step of `t` does not get between the numbers of `u`. -/
def Thread.Yields (t u : Thread) : Prop :=
  match t.pc with
  | .drawDebitSeq _ _ => ¬ u.pc.Between
  | .post _ _ _ n _ => t.call.req.Shares u.call.req → ∀ m ∈ u.pc.numbers, ¬ m < n
  | _ => True

instance (t u : Thread) : Decidable (t.Yields u) := by
  -- over the numbers held, not over all there are
  have later (n : Int64) : Decidable (∀ m ∈ u.pc.numbers, ¬ m < n) := List.decidableBAll _ _
  obtain ⟨c, pc⟩ := t
  cases pc with
  | drawDebitSeq f debitId => exact inferInstanceAs (Decidable (¬ u.pc.Between))
  | post f debitId creditId n m =>
    show Decidable (c.req.Shares u.call.req → ∀ m ∈ u.pc.numbers, ¬ m < n)
    exact instDecidableForall
  | _ => exact instDecidableTrue

/-- A call draws its first number only when no other is between its draws, and posts only
when no call it shares an account with holds an earlier number. -/
def Orderly (sys : System) (i : Nat) : Prop :=
  ∀ t ∈ sys.threads[i]?, ∀ other ∈ sys.threads.zipIdx, other.2 ≠ i → t.Yields other.1

instance (sys : System) (i : Nat) : Decidable (Orderly sys i) :=
  inferInstanceAs (Decidable (∀ t ∈ _, _))

theorem Orderly.yields {sys : System} {i j : Nat} {t u : Thread} (orderly : Orderly sys i)
    (at_ : sys.threads[i]? = some t) (there : sys.threads[j]? = some u) (different : j ≠ i) :
    t.Yields u :=
  orderly t at_ (u, j) (List.mem_zipIdx_iff_getElem?.2 there) different

/-- What orderly steps keep true of the numbers drawn and posted. -/
structure Numbered (sys : System) : Prop where
  room : sys.service.seq.toInt + (sys.threads.map fun t => t.pc.toDraw).sum ≤
    1 + 2 * sys.threads.length
  positive : 0 < sys.service.seq.toInt
  drawn : ∀ t ∈ sys.threads, ∀ n ∈ t.pc.numbers, n.toInt < sys.service.seq.toInt
  posted : ∀ e ∈ sys.service.journal, e.seq.toInt < sys.service.seq.toInt
  apart : Apart (fun t n => n ∈ t.pc.numbers) sys.threads
  latest : ∀ t ∈ sys.threads, ∀ n, t.pc.numbers = [n] → sys.service.seq.toInt = n.toInt + 1
  follows : ∀ t ∈ sys.threads, ∀ n m, t.pc.numbers = [n, m] → m.toInt = n.toInt + 1
  ahead : ∀ t ∈ sys.threads, ∀ n ∈ t.pc.numbers, ∀ e ∈ sys.service.journal,
    t.call.req.Touches e.accountId → e.seq.toInt < n.toInt
  increasing : ∀ account, Increasing (InMemoryLedgerRepository.entriesFor sys.service.journal account)
  consecutive : Consecutive sys.service.journal

section Steps

variable {sys sys' : System} {i : Nat} {c : Call} {pc pc' : Pc}

/-- There is room for the next number. -/
theorem Numbered.next_seq (numbered : Numbered sys) (short : sys.threads.length < 2 ^ 62)
    (at_ : sys.threads[i]? = some ⟨c, pc⟩) (draws : 0 < pc.toDraw) :
    (sys.service.seq + 1).toInt = sys.service.seq.toInt + 1 := by
  have share : pc.toDraw ≤ (sys.threads.map fun t => t.pc.toDraw).sum :=
    le_sum_map (f := fun t : Thread => t.pc.toDraw) (fun t _ => t.pc.toDraw_nonneg)
      (List.mem_of_getElem? at_)
  have one : (1 : Int64).toInt = 1 := rfl
  have room := numbered.room
  have positive := numbered.positive
  rw [toInt_add_of_range, one] <;> rw [one] <;> omega

/-- A step that draws and posts nothing. -/
theorem Numbered.quiet (numbered : Numbered sys) (at_ : sys.threads[i]? = some ⟨c, pc⟩)
    (threads : sys'.threads = sys.threads.set i ⟨c, pc'⟩)
    (kept : pc'.numbers = pc.numbers ∨ pc'.numbers = []) (fewer : pc'.toDraw ≤ pc.toDraw)
    (seq : sys'.service.seq = sys.service.seq) (journal : sys'.service.journal = sys.service.journal) :
    Numbered sys' := by
  have mover : (⟨c, pc⟩ : Thread) ∈ sys.threads := List.mem_of_getElem? at_
  -- what the mover still holds, it held
  have held (n : Int64) (now : n ∈ pc'.numbers) : n ∈ pc.numbers := by
    rcases kept with same | none_
    · exact same ▸ now
    · rw [none_] at now
      cases now
  have whole (n : Int64) (ns : List Int64) (now : pc'.numbers = n :: ns) : pc.numbers = n :: ns := by
    rcases kept with same | none_
    · exact same ▸ now
    · rw [none_] at now
      cases now
  constructor
  · rw [seq, threads, List.length_set, sum_map_set at_ fun t => t.pc.toDraw]
    have room := numbered.room
    simp only
    omega
  · rw [seq]
    exact numbered.positive
  · rw [threads, seq]
    exact forall_mem_set numbered.drawn fun n now => numbered.drawn _ mover n (held n now)
  · rw [journal, seq]
    exact numbered.posted
  · rw [threads]
    exact numbered.apart.set at_ fun n now => .inl (held n now)
  · rw [threads, seq]
    exact forall_mem_set numbered.latest fun n now => numbered.latest _ mover n (whole n [] now)
  · rw [threads]
    exact forall_mem_set numbered.follows fun n m now =>
      numbered.follows _ mover n m (whole n [m] now)
  · rw [threads, journal]
    exact forall_mem_set numbered.ahead fun n now => numbered.ahead _ mover n (held n now)
  · rw [journal]
    exact numbered.increasing
  · rw [journal]
    exact numbered.consecutive

/-- A step that draws the next number: the mover holds it besides those it held. -/
theorem Numbered.draw (numbered : Numbered sys) (at_ : sys.threads[i]? = some ⟨c, pc⟩)
    (threads : sys'.threads = sys.threads.set i ⟨c, pc'⟩)
    (held : pc'.numbers = pc.numbers ++ [sys.service.seq]) (one : pc'.toDraw = pc.toDraw - 1)
    (seq : sys'.service.seq.toInt = sys.service.seq.toInt + 1)
    (journal : sys'.service.journal = sys.service.journal)
    (alone : ∀ j u, j ≠ i → sys.threads[j]? = some u → ¬ u.pc.Between)
    (pair : pc.numbers = [] ∨ pc.Between) : Numbered sys' := by
  have mover : (⟨c, pc⟩ : Thread) ∈ sys.threads := List.mem_of_getElem? at_
  have grown {n : Int64} : n ∈ pc'.numbers ↔ n ∈ pc.numbers ∨ n = sys.service.seq := by
    rw [held, List.mem_append, List.mem_singleton]
  constructor
  · rw [threads, List.length_set, sum_map_set at_ fun t => t.pc.toDraw]
    have room := numbered.room
    simp only
    omega
  · have positive := numbered.positive
    omega
  · rw [threads]
    refine forall_mem_set (fun t there n now => ?_) fun n now => ?_
    · have before := numbered.drawn t there n now
      omega
    · rcases grown.1 now with before | rfl
      · have before := numbered.drawn _ mover n before
        omega
      · omega
  · rw [journal]
    intro e entered
    have before := numbered.posted e entered
    omega
  · rw [threads]
    refine numbered.apart.set at_ fun n now => ?_
    rcases grown.1 now with before | rfl
    · exact .inl before
    · exact .inr fun u there also => absurd (numbered.drawn u there _ also) (lt_irrefl _)
  · intro t member n now
    obtain ⟨j, there⟩ := List.mem_iff_getElem?.1 member
    rw [threads] at there
    rcases at_set there with ⟨-, rfl⟩ | ⟨different, there⟩
    · rcases pair with none_ | between
      · rw [held, none_] at now
        cases now
        exact seq
      · obtain ⟨k, is⟩ := Pc.between_iff.1 between
        rw [held, is] at now
        cases now
    · exact absurd (Pc.between_iff.2 ⟨n, now⟩) (alone j t different there)
  · rw [threads]
    refine forall_mem_set numbered.follows fun n m now => ?_
    rcases pair with none_ | between
    · rw [held, none_] at now
      cases now
    · obtain ⟨k, is⟩ := Pc.between_iff.1 between
      rw [held, is] at now
      cases now
      exact numbered.latest _ mover n is
  · rw [threads, journal]
    refine forall_mem_set numbered.ahead fun n now e entered => ?_
    rcases grown.1 now with before | rfl
    · exact numbered.ahead _ mover n before e entered
    · exact fun _ => numbered.posted e entered
  · rw [journal]
    exact numbered.increasing
  · rw [journal]
    exact numbered.consecutive

/-- A step that posts: nobody who shares an account holds an earlier number. -/
theorem Numbered.post (numbered : Numbered sys) {f : Flight} {debitId creditId : String} {n m : Int64}
    (at_ : sys.threads[i]? = some ⟨c, .post f debitId creditId n m⟩)
    (threads : sys'.threads = sys.threads.set i ⟨c, .capture f⟩)
    (seq : sys'.service.seq = sys.service.seq)
    (journal : sys'.service.journal =
      sys.service.journal ++ postingOf c.req f.txn.id debitId creditId n m)
    (first : ∀ j u, j ≠ i → sys.threads[j]? = some u → c.req.Shares u.call.req →
      ∀ k ∈ u.pc.numbers, ¬ k < n) : Numbered sys' := by
  have mover : (⟨c, .post f debitId creditId n m⟩ : Thread) ∈ sys.threads := List.mem_of_getElem? at_
  have mine : n ∈ (Pc.post f debitId creditId n m).numbers := List.mem_cons_self
  have also : m ∈ (Pc.post f debitId creditId n m).numbers := List.mem_cons_of_mem _ List.mem_cons_self
  have follows : m.toInt = n.toInt + 1 := numbered.follows _ mover n m rfl
  -- a member of the new list that holds a number is not the mover
  have holder (t : Thread) (member : t ∈ sys.threads.set i ⟨c, .capture f⟩) (k : Int64)
      (now : k ∈ t.pc.numbers) : ∃ j, j ≠ i ∧ sys.threads[j]? = some t := by
    obtain ⟨j, there⟩ := List.mem_iff_getElem?.1 member
    rcases at_set there with ⟨-, rfl⟩ | ⟨different, there⟩
    · cases now
    · exact ⟨j, different, there⟩
  constructor
  · rw [seq, threads, List.length_set, sum_map_set at_ fun t => t.pc.toDraw]
    have room := numbered.room
    simpa [Pc.toDraw] using room
  · rw [seq]
    exact numbered.positive
  · intro t member k now
    rw [seq]
    rw [threads] at member
    obtain ⟨j, -, there⟩ := holder t member k now
    exact numbered.drawn t (List.mem_of_getElem? there) k now
  · intro e entered
    rw [seq]
    rw [journal] at entered
    rcases List.mem_append.1 entered with before | now
    · exact numbered.posted e before
    · rcases (touches_of_posting now).2 with is | is
      · rw [is]
        exact numbered.drawn _ mover n mine
      · rw [is]
        exact numbered.drawn _ mover m also
  · rw [threads]
    exact numbered.apart.set at_ fun k now => absurd now List.not_mem_nil
  · intro t member k now
    rw [seq]
    rw [threads] at member
    obtain ⟨j, -, there⟩ := holder t member k (now ▸ List.mem_cons_self)
    exact numbered.latest t (List.mem_of_getElem? there) k now
  · intro t member k l now
    rw [threads] at member
    obtain ⟨j, -, there⟩ := holder t member k (now ▸ List.mem_cons_self)
    exact numbered.follows t (List.mem_of_getElem? there) k l now
  · intro t member k now e entered touches
    rw [threads] at member
    obtain ⟨j, different, there⟩ := holder t member k now
    rw [journal] at entered
    rcases List.mem_append.1 entered with before | posted
    · exact numbered.ahead t (List.mem_of_getElem? there) k now e before touches
    · -- both of the mover's numbers are below what the other holds
      obtain ⟨shared, is⟩ := touches_of_posting posted
      have later := first j t different there (PaymentRequest.shares_of_touches shared touches) k now
      have notFirst : k ≠ n := fun same =>
        different (numbered.apart j i t _ k there at_ now (same ▸ mine))
      have notSecond : k ≠ m := fun same =>
        different (numbered.apart j i t _ k there at_ now (same ▸ also))
      rw [Int64.lt_iff_toInt_lt] at later
      rw [← Int64.toInt_inj.ne] at notFirst notSecond
      rcases is with is | is <;> rw [is] <;> omega
  · intro account
    rw [journal, InMemoryLedgerRepository.entriesFor, List.filter_append]
    refine List.pairwise_append.2 ⟨numbered.increasing account, ?_, ?_⟩
    · have pair : (postingOf c.req f.txn.id debitId creditId n m).Pairwise fun a b => a.seq < b.seq := by
        simp only [postingOf, List.pairwise_pair, Int64.lt_iff_toInt_lt]
        omega
      exact pair.filter _
    · intro a old b new
      obtain ⟨entered, is⟩ := List.mem_filter.1 old
      obtain ⟨posted, is'⟩ := List.mem_filter.1 new
      obtain ⟨touches, number⟩ := touches_of_posting posted
      rw [of_decide_eq_true is', ← of_decide_eq_true is] at touches
      have before := numbered.ahead _ mover n mine a entered touches
      rw [Int64.lt_iff_toInt_lt]
      rcases number with is | is <;> rw [is] <;> omega
  · rw [journal]
    exact numbered.consecutive.snoc rfl follows

/-- **An orderly step keeps the numbering in order.** -/
theorem Numbered.step (numbered : Numbered sys) (short : sys.threads.length < 2 ^ 62)
    (orderly : Orderly sys i) (stepped : System.step chain sys i = some sys') : Numbered sys' := by
  obtain ⟨c, pc, pc', at_, fired, threads⟩ := step_fires stepped
  rcases fired.sequence with ⟨f, debitId, rfl, rfl, seq, journal⟩ |
    ⟨f, debitId, creditId, n, rfl, rfl, seq, journal⟩ |
    ⟨f, debitId, creditId, n, m, rfl, rfl, seq, journal⟩ | ⟨kept, fewer, seq, journal⟩
  · have next_ := numbered.next_seq short at_ (by simp [Pc.toDraw])
    exact numbered.draw at_ threads rfl rfl (seq ▸ next_) journal
      (fun j u different there => orderly.yields at_ there different) (.inl rfl)
  · have next_ := numbered.next_seq short at_ (by simp [Pc.toDraw])
    refine numbered.draw at_ threads rfl rfl (seq ▸ next_) journal ?_ (.inr rfl)
    -- whoever is between its draws holds the latest number
    intro j u different there between
    obtain ⟨k, is⟩ := Pc.between_iff.1 between
    have latest := numbered.latest u (List.mem_of_getElem? there) k is
    have mine := numbered.latest _ (List.mem_of_getElem? at_) n rfl
    have same : k = n := Int64.toInt_inj.1 (by omega)
    have theirs : k ∈ u.pc.numbers := is ▸ List.mem_cons_self
    exact different (numbered.apart j i u _ k there at_ theirs (same ▸ List.mem_cons_self))
  · exact numbered.post at_ threads seq journal
      fun j u different there => orderly.yields at_ there different
  · exact numbered.quiet at_ threads kept fewer seq journal

end Steps

/-- **In every run of orderly steps the journal's global sequence is its order.** -/
theorem journal_ordered {accounts : InMemoryAccountRepository} {calls : List Call} {sched : List Nat}
    {sys : System} (reached : Reaches chain (PaymentService.opening accounts) calls sched sys)
    (short : calls.length < 2 ^ 62)
    (orderly : Along (System.step chain) Orderly
      (System.init (PaymentService.opening accounts) calls) sched) :
    (∀ account, Increasing (InMemoryLedgerRepository.entriesFor sys.service.journal account)) ∧
      Consecutive sys.service.journal := by
  have numbered : Numbered sys := by
    refine orderly.induct Numbered ?_ ?_ reached
    · intro early mid i sys' ran numbered met stepped
      have length : mid.threads.length = calls.length := by
        have ran : Reaches chain (PaymentService.opening accounts) calls early mid := ran
        rw [← ran.calls, List.length_map]
      exact numbered.step (by omega) met stepped
    · have quiet : ∀ t ∈ (System.init (PaymentService.opening accounts) calls).threads,
          t.pc.numbers = [] := by
        intro t member
        rw [(mem_init member).2]
        rfl
      have two : ((System.init (PaymentService.opening accounts) calls).threads.map fun t =>
          t.pc.toDraw).sum = 2 * calls.length := by
        simp [System.init, Function.comp_def, Pc.toDraw, Int.mul_comm]
      constructor
      · rw [two]
        simp [System.init, PaymentService.opening]
      · exact (by decide : 0 < (1 : Int64).toInt)
      · intro t member n now
        rw [quiet t member] at now
        cases now
      · exact fun e entered => absurd entered List.not_mem_nil
      · intro i j t u n at_ _ now
        rw [quiet t (List.mem_of_getElem? at_)] at now
        cases now
      · intro t member n now
        rw [quiet t member] at now
        cases now
      · intro t member n m now
        rw [quiet t member] at now
        cases now
      · intro t member n now
        rw [quiet t member] at now
        cases now
      · exact fun account => List.Pairwise.nil
      · trivial
  exact ⟨numbered.increasing, numbered.consecutive⟩

/-! ## Two payers -/

/-- A second wallet of 1000.00 INR. -/
def twoPayers : InMemoryAccountRepository := userAndMerchant.save ⟨"v", ⟨100000, .inr⟩⟩

/-- Two payments, of different payers, to the same merchant. -/
def twoPayments : List Call := [upiCall "key-1" "u" "m" 30000, upiCall "key-2" "v" "m" 500]

/-- The two draw in turns, and the later numbers are posted first: the merchant's entries
come in the wrong order, and no posting has consecutive numbers. -/
theorem journal_disordered : ∃ sched sys,
    Reaches mainChain (PaymentService.opening twoPayers) twoPayments sched sys ∧
    ¬ Increasing (InMemoryLedgerRepository.entriesFor sys.service.journal "m") ∧
    ¬ Consecutive sys.service.journal := by
  have ran : (exec (System.step mainChain)
      (System.init (PaymentService.opening twoPayers) twoPayments)
      (List.replicate 12 0 ++ List.replicate 12 1 ++ [0, 0, 1, 1, 1, 0])).any
        (fun sys => decide (¬ Increasing
            (InMemoryLedgerRepository.entriesFor sys.service.journal "m")) &&
          decide (¬ Consecutive sys.service.journal)) = true := by decide +kernel
  obtain ⟨sys, reached, found⟩ := exec_any ran
  rw [Bool.and_eq_true, decide_eq_true_eq, decide_eq_true_eq] at found
  exact ⟨_, sys, reached, found⟩

/-- The same two, interleaved but for their draws and postings. -/
theorem journal_ordered_two : ∃ sched sys,
    Reaches mainChain (PaymentService.opening twoPayers) twoPayments sched sys ∧
    Increasing (InMemoryLedgerRepository.entriesFor sys.service.journal "m") := by
  have ran : (exec (guarded (System.step mainChain) Orderly)
      (System.init (PaymentService.opening twoPayers) twoPayments)
      (List.replicate 11 0 ++ List.replicate 11 1 ++ List.replicate 6 0 ++ List.replicate 6 1)).any
        (fun sys => decide (sys.service.journal.length = 4)) = true := by decide +kernel
  obtain ⟨sys, run, -⟩ := exec_any ran
  obtain ⟨reached, orderly⟩ := exec_guarded run
  exact ⟨_, sys, reached, (journal_ordered reached (by decide) orderly).1 "m"⟩

end PaymentSystem.Service
