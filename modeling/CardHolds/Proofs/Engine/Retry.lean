import CardHolds.Proofs.Engine.Races

/-!
# A retried call is as good as an uncontended one

A call that has lost some races goes on as if it had just been started: the lost attempts have left
nothing but what others wrote to the ledger.  So it reports what a call with a single attempt reports
that is started on the engine as the last attempt finds it, or, when no attempt is left, that it gave
up, with nothing recorded (`Engine.retried_call`).

An attempt that fails in any other way ends the call.  The only other failure that is tried again is
a statement stream that is refused for a version.
-/

namespace CardHolds

deriving instance DecidableEq for Flow.Attempt

open Execution (answer ownChange ownEntries)
open CardHolds.Flow (Task)
open Program

/-- The call is about to make its attempts. -/
def Instruction.Opens (e : Engine) (i : Interference) (t : Task) (x : Execution) :
    Instruction → Prop
  | .authorize request =>
    request.merchant ≠ request.customer ∧
      t = ⟨request.customer, request.merchant, decideAuthorization request⟩ ∧ x = { engine := e }
  | .react reaction id amount =>
    ∃ referenced, (paymentById id).run (answer i) { engine := e } = (.ok referenced, x) ∧
      accepts referenced reaction.operation = true ∧
      t = ⟨referenced.customer, referenced.merchant,
        fun customer merchant => reaction.decide referenced customer merchant amount⟩

namespace Instruction
variable {e : Engine} {i : Interference} {t : Task} {x y : Execution} {instruction : Instruction}

theorem find_of_paymentById {id : PaymentId} {p : Payment}
    (h : (paymentById id).run (answer i) y = (.ok p, x)) :
    (Ask.find id).run (answer i) y = (.ok (some p), x) := by
  obtain ⟨reply, z, hreply, h⟩ := run_of_bind h
  match reply with
  | .error error => cases h
  | .ok none => cases h
  | .ok (some p) =>
    cases h
    exact hreply

theorem Opens.sound (h : instruction.Opens e i t x) :
    Flow.Sound t.customer t.merchant t.decide := by
  cases instruction with
  | authorize request =>
    obtain ⟨-, rfl, -⟩ := h
    exact sound_authorization request
  | react reaction id amount =>
    obtain ⟨referenced, -, -, rfl⟩ := h
    exact sound_reaction reaction referenced amount

/-- The payment is looked up, and nothing else has happened yet. -/
theorem Opens.leavesRest (h : instruction.Opens e i t x) : Execution.LeavesRest { engine := e } x := by
  cases instruction with
  | authorize request =>
    obtain ⟨-, -, rfl⟩ := h
    exact .refl _
  | react reaction id amount =>
    obtain ⟨referenced, hfind, -, -⟩ := h
    have hleaves := Execution.find_leavesRest (i := i) id { engine := e }
    rw [find_of_paymentById hfind] at hleaves
    exact hleaves

theorem Opens.names (h : instruction.Opens e i t x) (fresh : e.NamesFresh) :
    i.Alone ∨ x.engine.NamesFresh := by
  cases instruction with
  | authorize request =>
    obtain ⟨-, -, rfl⟩ := h
    exact Or.inr fresh
  | react reaction id amount =>
    obtain ⟨referenced, hfind, -, -⟩ := h
    have hfound := Execution.logCall_spec (i := i) (x := { engine := e }) (.start (Or.inr fresh))
      (.find id) (fun h => by cases h) rfl
    rw [show Execution.logCall i { engine := e } (.find id) = (.ok (some referenced), x) from
      find_of_paymentById hfind] at hfound
    exact hfound.agrees.names

/-- From here on the call is its attempts. -/
theorem Opens.run_program (h : instruction.Opens e i t x) (retries : Nat) :
    (instruction.program retries).run (answer i) { engine := e } =
      (t.program retries).run (answer i) x := by
  cases instruction with
  | authorize request =>
    obtain ⟨hne, rfl, rfl⟩ := h
    show (if request.merchant = request.customer then _ else _ : Program _ _).run _ _ = _
    rw [if_neg hne]
    rfl
  | react reaction id amount =>
    obtain ⟨referenced, hfind, haccepts, rfl⟩ := h
    show (reactToPayment retries reaction id amount).run _ _ = _
    unfold reactToPayment
    rw [run_bind_of hfind]
    simp only [haccepts, if_true]
    rfl

theorem Opens.accrued_program {M : Type} [AddMonoid M] {worth : LifecycleCall → Execution → M}
    (h : instruction.Opens e i t x) (retries : Nat) (hlog : ∀ c v, worth (.log c) v = 0) :
    (instruction.program retries).accrued (answer i) worth { engine := e } =
      (t.program retries).accrued (answer i) worth x := by
  cases instruction with
  | authorize request =>
    obtain ⟨hne, rfl, rfl⟩ := h
    show (if request.merchant = request.customer then _ else _ : Program _ _).accrued _ _ _ = _
    rw [if_neg hne]
    rfl
  | react reaction id amount =>
    obtain ⟨referenced, hfind, haccepts, rfl⟩ := h
    show (reactToPayment retries reaction id amount).accrued _ _ _ = _
    unfold reactToPayment
    have hlookup : (paymentById id).accrued (answer i) worth { engine := e } = 0 := by
      have hask : (Ask.find id).accrued (answer i) worth { engine := e } = 0 :=
        (add_zero _).trans (hlog (.find id) _)
      unfold paymentById
      rw [accrued_bind_of (find_of_paymentById hfind), hask, zero_add]
      rfl
    rw [accrued_bind_of hfind, hlookup, zero_add]
    simp only [haccepts, if_true]
    rfl

end Instruction

/-! ## Attempts -/

namespace Flow.Task
variable {t : Task} {i : Interference} {x y w : Execution} {M : Type} [AddMonoid M]
  {worth : LifecycleCall → Execution → M}

/-- The attempts of a call. -/
def attempts (t : Task) (total left : Nat) : Program lifecycleCalls (Except FlowError Payment) :=
  Flow.attempts t.customer t.merchant t.decide total left

/-- How a call goes on after an attempt. -/
def goOn (t : Task) (total left : Nat) :
    Attempt → Program lifecycleCalls (Except FlowError Payment)
  | .recorded payment => do
    Ask.publish (.paymentRecorded ⟨payment⟩)
    return .ok payment
  | .failed e => return .error e
  | .lost => t.attempts total left

theorem attempts_succ (t : Task) (total left : Nat) :
    t.attempts total (left + 1) = t.attempt >>= t.goOn total left := by
  have hnext : ∀ r, (match r with
      | .recorded payment => do
        Ask.publish (.paymentRecorded ⟨payment⟩)
        return .ok payment
      | .failed e => return .error e
      | .lost => Flow.attempts t.customer t.merchant t.decide total left :
        Program lifecycleCalls (Except FlowError Payment)) = t.goOn total left r := by
    intro r
    cases r <;> rfl
  exact congrArg (t.attempt >>= ·) (funext hnext)

/-- After a lost attempt the call goes on with the next. -/
theorem run_attempts_of_lost (worth : LifecycleCall → Execution → M)
    (h : t.attempt.run (answer i) x = (.lost, y)) (total left : Nat) :
    (t.attempts total (left + 1)).run (answer i) x = (t.attempts total left).run (answer i) y ∧
      (t.attempts total (left + 1)).accrued (answer i) worth x =
        t.attempt.accrued (answer i) worth x + (t.attempts total left).accrued (answer i) worth y := by
  rw [attempts_succ]
  exact ⟨run_bind_of h _, accrued_bind_of h worth _⟩

theorem run_attempts_of_recorded {p : Payment} (h : t.attempt.run (answer i) x = (.recorded p, y))
    (total left : Nat) :
    (t.attempts total (left + 1)).run (answer i) x =
      (.ok p, { y with engine := y.engine.publish (.paymentRecorded ⟨p⟩) }) := by
  rw [attempts_succ, run_bind_of h]
  rfl

theorem run_attempts_of_failed {e : FlowError} (h : t.attempt.run (answer i) x = (.failed e, y))
    (total left : Nat) : (t.attempts total (left + 1)).run (answer i) x = (.error e, y) := by
  rw [attempts_succ, run_bind_of h]
  rfl

/-- **Lost races do not show**: what is left of the call is what it makes of the attempts that are
left. -/
theorem run_attempts_of_races {k : Nat} (h : t.LosesRaces i k x w) (Inv : Execution → Prop)
    (hrace : ∀ x w, Inv x → t.LosesRace i x w → t.attempt.accrued (answer i) worth x = 0 ∧ Inv w)
    (hx : Inv x) (total left : Nat) :
    (t.attempts total (k + left)).run (answer i) x = (t.attempts total left).run (answer i) w ∧
      (t.attempts total (k + left)).accrued (answer i) worth x =
        (t.attempts total left).accrued (answer i) worth w := by
  induction k generalizing x with
  | zero =>
    cases h
    rw [Nat.zero_add]
    exact ⟨rfl, rfl⟩
  | succ k ih =>
    obtain ⟨y, hlost, hrest⟩ := h
    obtain ⟨hzero, hy⟩ := hrace x y hx hlost
    obtain ⟨hrun, haccrued⟩ := ih hrest hy
    obtain ⟨hstep, hstep'⟩ := run_attempts_of_lost worth hlost.run_attempt total (k + left)
    rw [Nat.succ_add, hstep, hstep', hzero, zero_add]
    exact ⟨hrun, haccrued⟩

theorem LosesRaces.leavesRest {k : Nat} (h : t.LosesRaces i k x w) (hx : x.transaction = {}) :
    x.LeavesRest w := by
  induction k generalizing x with
  | zero =>
    cases h
    exact .refl _
  | succ k ih =>
    obtain ⟨y, hlost, hrest⟩ := h
    have hleaves := hlost.leavesRest hx
    exact hleaves.trans (ih hrest (hleaves.transaction.trans hx))

/-- An attempt that is not lost is the last one, however many are left. -/
theorem run_attempts_of_not_lost (worth : LifecycleCall → Execution → M)
    (h : ∀ w, t.attempt.run (answer i) x ≠ (.lost, w))
    (total left total' left' : Nat) :
    (t.attempts total (left + 1)).run (answer i) x = (t.attempts total' (left' + 1)).run (answer i) x ∧
      (t.attempts total (left + 1)).accrued (answer i) worth x =
        (t.attempts total' (left' + 1)).accrued (answer i) worth x := by
  rw [attempts_succ, attempts_succ]
  cases hattempt : t.attempt.run (answer i) x with
  | mk r y =>
    have hsame : t.goOn total left r = t.goOn total' left' r := by
      cases r with
      | recorded payment => rfl
      | failed e => rfl
      | lost => exact absurd hattempt (h y)
    rw [run_bind_of hattempt, run_bind_of hattempt, accrued_bind_of hattempt,
      accrued_bind_of hattempt, hsame]
    exact ⟨rfl, rfl⟩

/-- The result of a call, from that of its attempts. -/
def conclude : Except FlowError Payment → Program lifecycleCalls (Except FlowError PaymentOutcome)
  | .ok payment => return .ok (.ofPayment payment)
  | .error e => return .error e

theorem program_eq (t : Task) (retries : Nat) :
    t.program retries = t.attempts (attemptsFor retries) (attemptsFor retries) >>= conclude := by
  have hnext : ∀ r, (match r with
      | .ok payment => return .ok (.ofPayment payment)
      | .error e => return .error e :
        Program lifecycleCalls (Except FlowError PaymentOutcome)) = conclude r := by
    intro r
    cases r <;> rfl
  exact congrArg (t.attempts _ _ >>= ·) (funext hnext)

end Flow.Task

/-! ## Whole calls -/

/-- What is left by a call that starts on an engine. -/
def Engine.report (e : Engine) (i : Interference)
    (p : Program lifecycleCalls (Except FlowError PaymentOutcome)) : Report :=
  Execution.report i p { engine := e }

namespace Execution
variable {i : Interference} {x y w : Execution} {t : Task}

theorem report_eq {p q : Program lifecycleCalls (Except FlowError PaymentOutcome)}
    (run_eq : p.run (answer i) x = q.run (answer i) y)
    (change_eq : p.accrued (answer i) (ownChange i) x = q.accrued (answer i) (ownChange i) y)
    (entries_eq : p.accrued (answer i) (ownEntries i) x = q.accrued (answer i) (ownEntries i) y) :
    report i p x = report i q y := by
  have run_eq : run i p x = run i q y := run_eq
  rw [report, run_eq, change_eq, entries_eq]
  rfl

theorem report_bind {α : Type} {p q : Program lifecycleCalls α}
    {f : α → Program lifecycleCalls (Except FlowError PaymentOutcome)}
    (run_eq : p.run (answer i) x = q.run (answer i) y)
    (change_eq : p.accrued (answer i) (ownChange i) x = q.accrued (answer i) (ownChange i) y)
    (entries_eq : p.accrued (answer i) (ownEntries i) x = q.accrued (answer i) (ownEntries i) y) :
    report i (p >>= f) x = report i (q >>= f) y := by
  refine report_eq ?_ ?_ ?_
  · rw [bind_eq, bind_eq, run_bind, run_bind, run_eq]
  · rw [bind_eq, bind_eq, accrued_bind, accrued_bind, run_eq, change_eq]
  · rw [bind_eq, bind_eq, accrued_bind, accrued_bind, run_eq, entries_eq]

/-- A call that has left everything but the ledger as it was is as good as started anew. -/
theorem LeavesRest.eq_since {e : Engine} (h : LeavesRest { engine := e } x) :
    x = since x.history { engine := x.engine } := by
  obtain ⟨engine, transaction, peer, history⟩ := x
  obtain ⟨-, rfl, rfl⟩ := h
  exact congrArg (Execution.mk engine _ _) (List.append_nil history).symm

/-- **Lost races do not show in a report.** -/
theorem report_of_races {k : Nat} (h : t.LosesRaces i k x w)
    (sound : Flow.Sound t.customer t.merchant t.decide) (names : i.Alone ∨ x.engine.NamesFresh)
    (total left : Nat) :
    report i (t.attempts total (k + left) >>= Task.conclude) x =
      report i (t.attempts total left >>= Task.conclude) w := by
  obtain ⟨hrun, hchange⟩ := Task.run_attempts_of_races h (fun x => i.Alone ∨ x.engine.NamesFresh)
    (fun x w hx hlost => hlost.accrued_ownChange sound hx) names total left
  obtain ⟨-, hentries⟩ := Task.run_attempts_of_races h (fun _ => True)
    (fun x w _ hlost => ⟨hlost.accrued_ownEntries, trivial⟩) trivial total left
  exact report_bind hrun hchange hentries

theorem report_of_not_lost (h : ∀ w, t.attempt.run (answer i) x ≠ (.lost, w))
    (total left total' left' : Nat) :
    report i (t.attempts total (left + 1) >>= Task.conclude) x =
      report i (t.attempts total' (left' + 1) >>= Task.conclude) x := by
  obtain ⟨hrun, hchange⟩ := Task.run_attempts_of_not_lost (ownChange i) h total left total'
    left'
  obtain ⟨-, hentries⟩ := Task.run_attempts_of_not_lost (ownEntries i) h total left total'
    left'
  exact report_bind hrun hchange hentries

end Execution

namespace Engine
variable {e : Engine} {i : Interference} {instruction : Instruction} {t : Task} {x₀ x : Execution}
  {k : Nat}

/-- **A retried call reports what an uncontended one does.**  When `k` attempts have lost races and
one more is allowed, which is not lost, the call reports what a call with a single attempt does that is
started on the engine as this attempt finds it; if the attempt fails, the call ends with it.  When no
more is allowed, the call gives up and has recorded nothing.  In the meantime nothing but the ledger
has changed. -/
theorem retried_call (fresh : e.NamesFresh) (opens : instruction.Opens e i t x₀)
    (races : t.LosesRaces i k x₀ x) :
    x.engine = { e with ledger := x.engine.ledger, accountsOpened := x.engine.accountsOpened } ∧
      (k = attemptsFor e.retries →
        e.report i (instruction.program e.retries) =
          ⟨.error (.retriesExhausted k), x.engine, 0, 0⟩) ∧
      (k < attemptsFor e.retries → (∀ w, ¬ t.LosesRace i x w) → (∀ w, ¬ t.LosesOpening i x w) →
        e.report i (instruction.program e.retries) =
            x.engine.report (i.after x.history) (t.program 0) ∧
          ∀ error y, t.attempt.run (answer i) x = (.failed error, y) →
            e.call i (instruction.program e.retries) = (.error error, y)) := by
  have hstart : e.report i (instruction.program e.retries) =
      Execution.report i (t.program e.retries) x₀ :=
    Execution.report_eq (opens.run_program _) (opens.accrued_program _ fun _ _ => rfl)
      (opens.accrued_program _ fun _ _ => rfl)
  have hopened := opens.leavesRest
  have hleaves := hopened.trans (races.leavesRest hopened.transaction)
  refine ⟨hleaves.engine, fun hk => ?_, fun hk hrace hopening => ?_⟩
  · subst hk
    have hraces := Execution.report_of_races races opens.sound (opens.names fresh)
      (attemptsFor e.retries) 0
    rw [Nat.add_zero] at hraces
    rw [hstart, t.program_eq, hraces]
    rfl
  · obtain ⟨left, hleft⟩ : ∃ left, attemptsFor e.retries = k + (left + 1) :=
      ⟨attemptsFor e.retries - k - 1, by omega⟩
    have hnot : ∀ w, t.attempt.run (answer i) x ≠ (.lost, w) := fun w hlost =>
      (Task.lost_cases hlost).elim (hrace w) (hopening w)
    have hraces := Execution.report_of_races races opens.sound (opens.names fresh)
      (attemptsFor e.retries) (left + 1)
    rw [← hleft] at hraces
    constructor
    · rw [hstart, t.program_eq, hraces, Execution.report_of_not_lost hnot _ left 1 0, Engine.report,
        ← Execution.report_since, ← hleaves.eq_since, t.program_eq]
      rfl
    · intro error y hfailed
      obtain ⟨hrun, -⟩ := Task.run_attempts_of_races races (fun _ => True)
        (fun x w _ hlost => ⟨hlost.accrued_ownEntries, trivial⟩) trivial (attemptsFor e.retries)
        (left + 1)
      rw [← hleft, Task.run_attempts_of_failed hfailed] at hrun
      show (instruction.program e.retries).run (answer i) { engine := e } = _
      rw [opens.run_program, t.program_eq, run_bind_of hrun]
      rfl

end Engine

/-! ## Two lost races -/

namespace FasterWriters

open Sample

/-- Somebody else writes the merchant in the first attempt; in the second he takes most of the money
of the customer. -/
def interference : Interference := .ofFaults
  [{ site := .updateBalance, account := some merchant,
     before := [.deposit merchantDetails.card.number (units 5)] },
    { site := .updateBalance, account := some customer, first := 3,
      before := [.updateBalance customer { balance := some (units 10) }] }]

def task : Task := ⟨customer, merchant, decideAuthorization (request (units 40))⟩

/-- The call with the given number of retries, when it starts. -/
def start (retries : Nat) : Execution := { engine := { engine with retries := retries } }

/-- After the first attempt. -/
def first (retries : Nat) : Execution := (task.attempt.run (answer interference) (start retries)).2

/-- After the second. -/
def second (retries : Nat) : Execution := (task.attempt.run (answer interference) (first retries)).2

theorem opens (retries : Nat) : (Instruction.authorize (request (units 40))).Opens { engine with retries := retries }
    interference task (start retries) :=
  ⟨by decide, rfl, rfl⟩

theorem not_losesOpening (x w : Execution) : ¬ task.LosesOpening interference x w :=
  Task.not_losesOpening (fun _ => ⟨rfl, rfl⟩) task x w

theorem races (retries : Nat)
    (hfirst : (task.attempt.run (answer interference) (start retries)).1 = .lost)
    (hsecond : (task.attempt.run (answer interference) (first retries)).1 = .lost) :
    task.LosesRaces interference 2 (start retries) (second retries) := by
  refine ⟨first retries, ?_, second retries, ?_, ?_⟩
  · exact Task.losesRace_of_lost (not_losesOpening _) hfirst
  · exact Task.losesRace_of_lost (not_losesOpening _) hsecond
  · rw [Task.LosesRaces]

/-- With three retries the third attempt tells that the money is gone; with one retry there is no third
attempt. -/
theorem retried_call_fasterWriters :
    (∀ retries, ({ engine with retries := retries } : Engine).NamesFresh) ∧
      (∀ retries, (Instruction.authorize (request (units 40))).Opens { engine with retries := retries } interference
        task (start retries)) ∧
      task.LosesRaces interference 2 (start 3) (second 3) ∧
      task.LosesRaces interference 2 (start 1) (second 1) ∧
      2 < attemptsFor 3 ∧ 2 = attemptsFor 1 ∧
      (∀ w, ¬ task.LosesRace interference (second 3) w) ∧
      (∀ w, ¬ task.LosesOpening interference (second 3) w) ∧
      engine.report interference ((Instruction.authorize (request (units 40))).program 3) =
        (second 3).engine.report (interference.after (second 3).history) (task.program 0) ∧
      (engine.report interference ((Instruction.authorize (request (units 40))).program 3)).result =
        .ok ⟨Mint.unary.paymentId 0, .insufficientFunds⟩ ∧
      ({ engine with retries := 1 } : Engine).report interference
          ((Instruction.authorize (request (units 40))).program 1) =
        ⟨.error (.retriesExhausted 2), (second 1).engine, 0, 0⟩ := by
  have fresh : ∀ retries, ({ engine with retries := retries } : Engine).NamesFresh := fun _ =>
    ⟨namesFresh_engine.injective, namesFresh_engine.unused⟩
  have hraces₃ := races 3 (by decide +kernel) (by decide +kernel)
  have hraces₁ := races 1 (by decide +kernel) (by decide +kernel)
  have hrecorded : (task.attempt.run (answer interference) (second 3)).1 ≠ .lost := by decide +kernel
  have hrace : ∀ w, ¬ task.LosesRace interference (second 3) w := fun w h =>
    hrecorded (congrArg Prod.fst h.run_attempt)
  obtain ⟨-, -, hreport⟩ := Engine.retried_call (fresh 3) (opens 3) hraces₃
  obtain ⟨-, hgaveUp, -⟩ := Engine.retried_call (fresh 1) (opens 1) hraces₁
  refine ⟨fresh, opens, hraces₃, hraces₁, by decide, by decide, hrace, not_losesOpening _,
    (hreport (by decide) hrace (not_losesOpening _)).1, by decide +kernel, hgaveUp rfl⟩

end FasterWriters

/-! ## A refused opening -/

namespace RefusedOpening

open Sample

/-- The first statement stream is refused for a version. -/
def interference : Interference := .ofFaults
  [{ site := .openStream, instead := some (.ledger (.versionConflict customer 0 1)) }]

def task : Task := ⟨customer, merchant, decideAuthorization (request (units 40))⟩

/-- The call when it starts. -/
def start : Execution := { engine := engine }

/-- The first attempt loses no race, and yet there is a second one, which is recorded. -/
theorem retried_without_race :
    (Instruction.authorize (request (units 40))).Opens engine interference task start ∧
      (∀ w, ¬ task.LosesRace interference start w) ∧
      (∃ w, task.LosesOpening interference start w) ∧
      (engine.call interference ((Instruction.authorize (request (units 40))).program engine.retries)).1 =
        .ok ⟨Mint.unary.paymentId 1, .approved⟩ := by
  have hlost : (task.attempt.run (answer interference) start).1 = .lost := by
    decide +kernel
  have hinserted : (task.attempt.run (answer interference) start).2.engine.paymentsInserted = 1 := by
    decide +kernel
  have hrace : ∀ w, ¬ task.LosesRace interference start w := by
    intro w h
    -- a race is lost before any row is inserted
    have hnone : w.engine.paymentsInserted = 0 := congrArg Engine.paymentsInserted
      (h.leavesRest rfl).engine
    rw [h.run_attempt, hnone] at hinserted
    cases hinserted
  exact ⟨⟨by decide, rfl, rfl⟩, hrace,
    ⟨_, (Task.lost_cases (Prod.ext hlost rfl)).resolve_left (hrace _)⟩, by decide +kernel⟩

end RefusedOpening

end CardHolds
