import CardHolds.Proofs.Lifecycle.Instruction
import CardHolds.Proofs.Program.Lockstep

/-!
# What lifecycle calls do with accounts

After reading both accounts a lifecycle call decides, and all that it looks at after that are the
quantities and versions of accounts.  So if accounts are changed in nothing else (`KeepsFunds`), a call
goes on as before, provided that it comes to the same decisions (`Flow.run_lockstep`).

The rules for reactions look at nothing else either.  Only the rule for authorizations compares cards,
which makes `Instruction.Alike` a matter of authorizations.
-/

namespace CardHolds

open Program

/-- Accounts are changed in nothing that a plan is made from. -/
structure KeepsFunds (f : Account → Account) : Prop where
  id : ∀ a, (f a).id = a.id
  balance : ∀ a, (f a).balance = a.balance
  blocked : ∀ a, (f a).blocked = a.blocked
  version : ∀ a, (f a).version = a.version

theorem keepsFunds_id : KeepsFunds id := ⟨fun _ => rfl, fun _ => rfl, fun _ => rfl, fun _ => rfl⟩

/-- The reply of the ledger with another account in it. -/
def LedgerCall.changed (f : Account → Account) : (c : LedgerCall) → ledgerCalls.Reply c →
    ledgerCalls.Reply c
  | .account _, r => r.map f
  | .updateBalance _ _, r => r.map f
  | .openStream, r => r

/-- The reply with another account in it. -/
def LifecycleCall.changed (f : Account → Account) : (c : LifecycleCall) → lifecycleCalls.Reply c →
    lifecycleCalls.Reply c
  | .ledger c, r => c.changed f r
  | .log _, r => r
  | .stream _, r => r
  | .publish _, r => r

theorem LifecycleCall.changed_id (c : LifecycleCall) (r : lifecycleCalls.Reply c) :
    c.changed id r = r := by
  match c, r with
  | .ledger (.account _), .ok _ => rfl
  | .ledger (.account _), .error _ => rfl
  | .ledger (.updateBalance _ _), .ok _ => rfl
  | .ledger (.updateBalance _ _), .error _ => rfl
  | .ledger .openStream, _ => rfl
  | .log _, _ => rfl
  | .stream _, _ => rfl
  | .publish _, _ => rfl

/-- An account that the call reads is as it should be. -/
def LifecycleCall.Reads (Good : AccountId → Account → Prop) : (c : LifecycleCall) →
    lifecycleCalls.Reply c → Prop
  | .ledger (.account id), .ok a => Good id a
  | _, _ => True

theorem LifecycleCall.Reads.and {Good Good' : AccountId → Account → Prop} {c : LifecycleCall}
    {r : lifecycleCalls.Reply c} (h : c.Reads Good r) (h' : c.Reads Good' r) :
    c.Reads (fun id a => Good id a ∧ Good' id a) r := by
  unfold Reads at h h' ⊢
  split
  · exact ⟨h, h'⟩
  · trivial

theorem LifecycleCall.reads_of_forall {Good : AccountId → Account → Prop} (h : ∀ id a, Good id a)
    (c : LifecycleCall) (r : lifecycleCalls.Reply c) : c.Reads Good r := by
  unfold Reads
  split
  · exact h _ _
  · trivial

instance (Good : AccountId → Account → Prop) [∀ id a, Decidable (Good id a)] (c : LifecycleCall)
    (r : lifecycleCalls.Reply c) : Decidable (c.Reads Good r) :=
  match c, r with
  | .ledger (.account id), .ok a => inferInstanceAs (Decidable (Good id a))
  | .ledger (.account _), .error _ => .isTrue trivial
  | .ledger (.updateBalance _ _), _ => .isTrue trivial
  | .ledger .openStream, _ => .isTrue trivial
  | .log _, _ => .isTrue trivial
  | .stream _, _ => .isTrue trivial
  | .publish _, _ => .isTrue trivial

section
variable {α β : Type} {f : Account → Account} {R : α → β → Prop}
  {Shown : ∀ c, lifecycleCalls.Reply c → Prop}

theorem Program.Lockstep.onLedger {p : Program ledgerCalls α} {q : Program ledgerCalls β}
    (h : Lockstep (LedgerCall.changed f) (fun _ _ => True) R p q) :
    Lockstep (LifecycleCall.changed f) Shown R p.onLedger q.onLedger :=
  h.embed _ _ (fun _ _ => rfl) fun _ _ _ => trivial

theorem Program.lockstep_onStream (p : Program streamCalls α) :
    Lockstep (LifecycleCall.changed f) Shown Eq p.onStream p.onStream := by
  have hself : Lockstep (fun _ r => r) (fun _ _ => True) Eq p p := .refl (fun _ _ => rfl) p
  exact hself.embed _ _ (fun _ _ => rfl) fun _ _ _ => trivial

end

/-! ## Moves -/

namespace BalanceMove
variable {f : Account → Account}

theorem on_changed (hf : KeepsFunds f) (a : Account) (label : String) : on (f a) label = on a label := by
  simp only [on, hf.id, hf.balance, hf.blocked, hf.version]

theorem undoOn_changed (hf : KeepsFunds f) (m : BalanceMove) (a : Account) :
    m.undoOn (f a) = m.undoOn a := by
  simp only [undoOn, hf.balance, hf.blocked, hf.version]

/-- A move is undone alike, whatever account comes back. -/
theorem undo_lockstep (hf : KeepsFunds f) (m : BalanceMove) (attempts : Nat) :
    Lockstep (LedgerCall.changed f) (fun _ _ => True) (fun r r' => r' = r.map f) (m.undo attempts)
      (m.undo attempts) := by
  -- a lost attempt reads the account again, so the induction is on the attempts
  induction attempts with
  | zero => exact .done rfl
  | succ attempts ih =>
    refine .ask fun r _ => ?_
    cases r with
    | error e => exact .done rfl
    | ok current =>
      have hundo : m.undoOn (f current) = m.undoOn current := undoOn_changed hf m current
      simp only [LedgerCall.changed, Except.map, bind_done, hundo]
      cases m.undoOn current with
      | error e => exact .done rfl
      | ok update =>
        refine .ask fun r _ => ?_
        cases r with
        | ok a => exact .done rfl
        | error e =>
          show Lockstep _ _ _ (if e.isVersionConflict then _ else _)
            (if e.isVersionConflict then _ else _)
          split
          · exact ih
          · exact .done rfl

end BalanceMove

namespace Saga
variable {f : Account → Account}

theorem applyAll_lockstep (saga : Saga) (moves : List BalanceMove) :
    Lockstep (LedgerCall.changed f) (fun _ _ => True) Eq (saga.applyAll moves)
      (saga.applyAll moves) := by
  induction moves generalizing saga with
  | nil => exact .done rfl
  | cons m rest ih =>
    refine .ask fun r _ => ?_
    cases r with
    | ok a => exact ih _
    | error e => exact .done rfl

theorem undoAll_lockstep (hf : KeepsFunds f) (moves : List BalanceMove) :
    Lockstep (LedgerCall.changed f) (fun _ _ => True) Eq (undoAll moves) (undoAll moves) := by
  induction moves with
  | nil => exact .done rfl
  | cons m rest ih =>
    refine (m.undo_lockstep hf _).bind fun r r' hr => ?_
    rw [hr]
    cases r with
    | ok a => exact ih
    | error fault =>
      refine ih.andThen fun failures => ?_
      exact .done rfl

end Saga

/-! ## Calls -/

namespace Flow
variable {f : Account → Account} {Shown : ∀ c, lifecycleCalls.Reply c → Prop}

theorem record_lockstep (d : Decision) :
    Lockstep (LifecycleCall.changed f) Shown Eq (record d) (record d) := by
  refine .ask fun r _ => ?_
  cases r with
  | error e => exact .done rfl
  | ok payment =>
    refine .ask fun r _ => ?_
    cases r with
    | error e => exact .done rfl
    | ok _ =>
      refine (lockstep_onStream _).andThen fun r => ?_
      cases r <;> exact .done rfl

theorem applyAndRecord_lockstep (d : Decision) :
    Lockstep (LifecycleCall.changed f) Shown Eq (applyAndRecord d) (applyAndRecord d) := by
  refine (Saga.applyAll_lockstep _ _).onLedger.andThen fun r => ?_
  match r with
  | (.error e, saga) => exact .done rfl
  | (.ok (), saga) =>
    refine (record_lockstep d).andThen fun r => ?_
    exact .done rfl

theorem publishFailures_lockstep (failures : List CompensationFailure) :
    Lockstep (LifecycleCall.changed f) Shown Eq (publishFailures failures)
      (publishFailures failures) := by
  induction failures with
  | nil => exact .done rfl
  | cons failure rest ih => exact .ask fun _ _ => ih

theorem compensate_lockstep (hf : KeepsFunds f) (saga : Saga) (e : FlowError) :
    Lockstep (LifecycleCall.changed f) Shown Eq (compensate saga e) (compensate saga e) := by
  refine (Saga.undoAll_lockstep hf _).onLedger.andThen fun failures => ?_
  refine (publishFailures_lockstep failures).andThen fun _ => ?_
  show Lockstep _ _ _ (if failures.isEmpty then _ else _) (if failures.isEmpty then _ else _)
  split <;> exact .done rfl

theorem finish_lockstep (result : Except FlowError Payment) :
    Lockstep (LifecycleCall.changed f) Shown Eq (finish result) (finish result) := by
  cases result with
  | ok payment =>
    refine .ask fun r _ => ?_
    cases r <;> exact .done rfl
  | error e => exact .ask fun _ _ => .done rfl

/-- **A decision is carried out alike.** -/
theorem execute_lockstep (hf : KeepsFunds f) (d : Decision) :
    Lockstep (LifecycleCall.changed f) Shown Eq (execute d) (execute d) := by
  refine .ask fun r _ => ?_
  cases r with
  | error e => exact .done rfl
  | ok _ =>
    refine (applyAndRecord_lockstep d).andThen fun ⟨result, saga⟩ => ?_
    refine (finish_lockstep result).andThen fun r => ?_
    cases r with
    | ok payment => exact .done rfl
    | error e =>
      refine (compensate_lockstep hf saga e).andThen fun e => ?_
      exact .done rfl

/-- Accounts that may be read lead to the same decision. -/
def DecidesAlike (f : Account → Account) (Good : AccountId → Account → Prop)
    (customer merchant : AccountId) (decide decide' : Account → Account → Except MoveError Decision) :
    Prop :=
  ∀ c m, Good customer c → Good merchant m → decide' (f c) (f m) = decide c m

variable {Good : AccountId → Account → Prop} {customer merchant : AccountId}
  {decide decide' : Account → Account → Except MoveError Decision}

theorem attempt_lockstep (hf : KeepsFunds f)
    (h : DecidesAlike f Good customer merchant decide decide') :
    Lockstep (LifecycleCall.changed f) (LifecycleCall.Reads Good) Eq
      (attempt customer merchant decide) (attempt customer merchant decide') := by
  refine .ask fun r hc => ?_
  cases r with
  | error e => exact .done rfl
  | ok c =>
    refine .ask fun r hm => ?_
    cases r with
    | error e => exact .done rfl
    | ok m =>
      have hdecide : decide' (f c) (f m) = decide c m := h c m hc hm
      -- from here on the accounts themselves do not matter
      simp only [LifecycleCall.changed, LedgerCall.changed, Except.map, embed, bind_done, hdecide]
      cases decide c m with
      | error e => exact .done rfl
      | ok d =>
        refine (execute_lockstep hf d).andThen fun r => ?_
        cases r <;> exact .done rfl

theorem attempts_lockstep (hf : KeepsFunds f)
    (h : DecidesAlike f Good customer merchant decide decide') (total left : Nat) :
    Lockstep (LifecycleCall.changed f) (LifecycleCall.Reads Good) Eq
      (attempts customer merchant decide total left)
      (attempts customer merchant decide' total left) := by
  induction left with
  | zero => exact .done rfl
  | succ left ih =>
    refine (attempt_lockstep hf h).andThen fun r => ?_
    cases r with
    | recorded payment => exact .ask fun _ _ => .done rfl
    | failed e => exact .done rfl
    | lost => exact ih

/-- **A call that decides alike goes alike.** -/
theorem run_lockstep (hf : KeepsFunds f)
    (h : DecidesAlike f Good customer merchant decide decide') (retries : Nat) :
    Lockstep (LifecycleCall.changed f) (LifecycleCall.Reads Good) Eq
      (run retries customer merchant decide) (run retries customer merchant decide') :=
  attempts_lockstep hf h _ _

end Flow

/-- The rules for reactions look at the quantities alone. -/
theorem Reaction.decide_changed {f : Account → Account} (hf : KeepsFunds f) (reaction : Reaction)
    (referenced : Payment) (customer merchant : Account) (amount : Amount) :
    reaction.decide referenced (f customer) (f merchant) amount =
      reaction.decide referenced customer merchant amount := by
  cases reaction <;>
    simp only [Reaction.decide, decideCapture, decideCancel, decideRefund, BalanceMove.on_changed hf]

/-- The rule for authorizations looks at nothing else but the card of the customer, and whether it is
the one that was presented. -/
theorem decideAuthorization_changed {f : Account → Account} (hf : KeepsFunds f)
    {request : PaymentRequest} {card : Card} {customer : Account} (merchant : Account)
    (hsnapshot : card.snapshot = request.card.snapshot)
    (hcard : (f customer).card = card ↔ customer.card = request.card) :
    decideAuthorization { request with card := card } (f customer) (f merchant) =
      decideAuthorization request customer merchant := by
  simp only [decideAuthorization, authorizationRow, BalanceMove.on_changed hf, hsnapshot, hf.id,
    hf.balance, ne_eq, hcard]

namespace Instruction
variable {f : Account → Account} {Good : AccountId → Account → Prop}

/-- The same call, but for the card that is presented.  Accounts that may be read have it or not as
before, and its snapshot is the same. -/
inductive Alike (f : Account → Account) (Good : AccountId → Account → Prop) :
    Instruction → Instruction → Prop
  | authorize {request : PaymentRequest} {card : Card}
    (hsnapshot : card.snapshot = request.card.snapshot)
    (hcard : ∀ a, Good request.customer a → ((f a).card = card ↔ a.card = request.card)) :
    Alike f Good (.authorize request) (.authorize { request with card := card })
  | react (reaction : Reaction) (id : PaymentId) (amount : Amount) :
    Alike f Good (.react reaction id amount) (.react reaction id amount)

/-- **Calls that are alike go alike.** -/
theorem Alike.lockstep {instruction instruction' : Instruction} (hf : KeepsFunds f)
    (h : Alike f Good instruction instruction') (retries : Nat) :
    Lockstep (LifecycleCall.changed f) (LifecycleCall.Reads Good) Eq (instruction.program retries)
      (instruction'.program retries) := by
  cases h with
  | @authorize request card hsnapshot hcard =>
    show Lockstep _ _ _ (if request.merchant = request.customer then _ else _)
      (if request.merchant = request.customer then _ else _)
    split
    · exact .done rfl
    · have hdecide : Flow.DecidesAlike f Good request.customer request.merchant
          (decideAuthorization request) (decideAuthorization { request with card := card }) :=
        fun c m hc _ => decideAuthorization_changed hf m hsnapshot (hcard c hc)
      refine (Flow.run_lockstep hf hdecide retries).andThen fun r => ?_
      cases r <;> exact .done rfl
  | react reaction id amount =>
    refine .ask fun r _ => ?_
    match r with
    | .error e => exact .done rfl
    | .ok none => exact .done rfl
    | .ok (some referenced) =>
      show Lockstep _ _ _ (if accepts referenced reaction.operation then _ else _)
        (if accepts referenced reaction.operation then _ else _)
      split
      · have hdecide : Flow.DecidesAlike f Good referenced.customer referenced.merchant
            (fun c m => reaction.decide referenced c m amount)
            (fun c m => reaction.decide referenced c m amount) :=
          fun c m _ _ => reaction.decide_changed hf referenced c m amount
        refine (Flow.run_lockstep hf hdecide retries).andThen fun r => ?_
        cases r <;> exact .done rfl
      · exact .done rfl

end Instruction

end CardHolds
