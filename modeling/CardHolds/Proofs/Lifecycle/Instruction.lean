import CardHolds.Proofs.Lifecycle.Bookkeeping

/-!
# The lifecycle calls as data

An `Instruction` is one of the four lifecycle calls with its arguments, and `Instruction.program` is
the call.  `Decides` says which decisions it can come to, given the payment that it found in the log.

Main statement (`Instruction.program_spec`): whatever its environment replies, a call that succeeds
has recorded one such decision with all its moves, or was told that the payment is in no state to be
reacted to; a call that fails has recorded nothing and left the moves that its error lists.
-/

namespace CardHolds

open BalanceMove (effects)
open Program

/-- A lifecycle call with its arguments. -/
inductive Instruction where
  | authorize (request : PaymentRequest)
  | react (reaction : Reaction) (id : PaymentId) (amount : Amount)
deriving DecidableEq

namespace Instruction

/-- The call that carries an instruction out. -/
def program (retries : Nat) : Instruction → Program lifecycleCalls (Except FlowError PaymentOutcome)
  | .authorize request => createPayment retries request
  | .react reaction id amount => reactToPayment retries reaction id amount

/-- The decisions that an instruction can come to, whatever the two accounts hold.  A reaction needs
the payment that it refers to, in the right state. -/
def Decides (found : Option Payment) : Instruction → Decision → Prop
  | .authorize request, d =>
    request.merchant ≠ request.customer ∧
      Flow.Plans request.customer request.merchant (decideAuthorization request) d
  | .react reaction id amount, d =>
    ∃ referenced, found = some referenced ∧ referenced.id = id ∧
      accepts referenced reaction.operation = true ∧
      Flow.Plans referenced.customer referenced.merchant
        (fun customer merchant => reaction.decide referenced customer merchant amount) d

/-- How the book of a call looks at its end: a decision was recorded with all its moves, or the call
was refused without any, or it failed and left the moves that its error lists. -/
def Concludes (instruction : Instruction) (result : Except FlowError PaymentOutcome) (b : Book) :
    Prop :=
  match result with
  | .ok outcome =>
    (∃ d p, instruction.Decides b.log.found d ∧ (∃ id now, p = d.row.recorded id now) ∧
      outcome = .ofPayment p ∧ b.log.committed = [p] ∧ b.ledger.moved = d.effect) ∨
    (outcome.status = .invalidTransaction ∧ b.log.committed = [] ∧ b.ledger.moved = 0)
  | .error e =>
    b.log.committed = [] ∧ ∃ stranded, e.Reports stranded ∧ b.ledger.moved = effects stranded ∧
      (stranded ≠ [] → ∃ d, instruction.Decides b.log.found d ∧ stranded.Sublist d.moves.reverse)

section Start
variable {instruction : Instruction} {b : Book}

theorem concludes_of_records (found : Option Payment) {d : Decision} {p : Payment}
    (h : ({ log := { found := found } } : Book).Records b d p)
    (hd : instruction.Decides b.log.found d) : instruction.Concludes (.ok (.ofPayment p)) b :=
  Or.inl ⟨d, p, hd, h.payment, rfl, h.committed, h.moved.trans (zero_add _)⟩

theorem concludes_of_fails (found : Option Payment) {Plans : Decision → Prop} {e : FlowError}
    (h : ({ log := { found := found } } : Book).Fails b Plans e)
    (hd : ∀ d, Plans d → instruction.Decides b.log.found d) :
    instruction.Concludes (.error e) b := by
  obtain ⟨stranded, hreports, hmoved, hplans⟩ := h.moved
  refine ⟨h.committed, stranded, hreports, hmoved.trans (zero_add _), fun hne => ?_⟩
  obtain ⟨d, hp, hsub⟩ := hplans hne
  exact ⟨d, hd d hp, hsub⟩

end Start

theorem sound_authorization (request : PaymentRequest) :
    Flow.Sound request.customer request.merchant (decideAuthorization request) :=
  fun _ _ _ _ _ h => decideAuthorization_planned h

theorem sound_reaction (reaction : Reaction) (referenced : Payment) (amount : Amount) :
    Flow.Sound referenced.customer referenced.merchant
      (fun customer merchant => reaction.decide referenced customer merchant amount) :=
  fun _ _ _ hc hm h => reaction.decide_planned hc hm h

/-- The accounts that an instruction is about, given the payment that it found. -/
theorem Decides.plans {instruction : Instruction} {found : Option Payment} {d : Decision}
    (h : instruction.Decides found d) :
    ∃ customer merchant decide, Flow.Sound customer merchant decide ∧
      Flow.Plans customer merchant decide d := by
  cases instruction with
  | authorize request => exact ⟨_, _, _, sound_authorization request, h.2⟩
  | react reaction id amount =>
    obtain ⟨referenced, -, -, -, hplans⟩ := h
    exact ⟨_, _, _, sound_reaction reaction referenced amount, hplans⟩

/-- **A decision does what its row says.** -/
theorem Decides.effect_eq {instruction : Instruction} {found : Option Payment} {d : Decision}
    (h : instruction.Decides found d) : d.effect = d.row.effect := by
  obtain ⟨_, _, _, sound, c, m, hc, hm, hd⟩ := h.plans
  exact (sound c m d hc hm hd).effect_eq

/-- Every decision has a status of its own. -/
theorem Decides.status_ne {instruction : Instruction} {found : Option Payment} {d : Decision}
    (h : instruction.Decides found d) : d.row.status ≠ .invalidTransaction := by
  cases instruction with
  | authorize request =>
    obtain ⟨-, c, m, -, -, hd⟩ := h
    obtain ⟨status, hrow, hstatus⟩ := decideAuthorization_row hd
    rw [hrow]
    rcases hstatus with rfl | rfl | rfl <;> exact PaymentStatus.noConfusion
  | react reaction id amount =>
    obtain ⟨referenced, -, -, -, c, m, -, -, hd⟩ := h
    obtain ⟨status, hrow, hstatus⟩ := reaction.decide_row hd
    rw [hrow]
    rcases hstatus with rfl | rfl
    · exact PaymentStatus.noConfusion
    · cases reaction <;> exact PaymentStatus.noConfusion

/-- **What a lifecycle call comes to, in any environment.** -/
theorem program_spec (instruction : Instruction) (retries : Nat) :
    (instruction.program retries).Ensures bookkeeping {} instruction.Concludes := by
  cases instruction with
  | authorize request =>
    show Ensures _ (if request.merchant = request.customer then _ else _) _ _
    split
    · exact ⟨rfl, [], rfl, rfl, fun hne => absurd rfl hne⟩
    · rename_i hne
      refine (Flow.attempts_spec (sound_authorization request) _ _ _).bind fun r b hr => ?_
      cases r with
      | ok p =>
        obtain ⟨d, hd, hrecords⟩ := hr
        exact concludes_of_records none hrecords ⟨hne, hd⟩
      | error e => exact concludes_of_fails none hr fun d hd => ⟨hne, hd⟩
  | react reaction id amount =>
    refine ⟨rfl, fun reply hreply => ?_⟩
    cases reply with
    | error e =>
      exact ⟨rfl, [], FlowError.reports_nil_ofLog e, rfl, fun hne => absurd rfl hne⟩
    | ok found =>
      cases found with
      | none => exact ⟨rfl, [], rfl, rfl, fun hne => absurd rfl hne⟩
      | some referenced =>
        show Ensures _ (if accepts referenced reaction.operation = true then _ else _) _ _
        split
        · rename_i haccepts
          have hattempts := Flow.attempts_spec (sound_reaction reaction referenced amount)
            (attemptsFor retries) (attemptsFor retries) { log := { found := some referenced } }
          refine hattempts.bind fun r b hr => ?_
          cases r with
          | ok p =>
            obtain ⟨d, hd, hrecords⟩ := hr
            exact concludes_of_records _ hrecords
              ⟨referenced, hrecords.found, hreply, haccepts, hd⟩
          | error e =>
            exact concludes_of_fails _ hr fun d hd =>
              ⟨referenced, hr.found, hreply, haccepts, hd⟩
        · exact Or.inr ⟨rfl, rfl, rfl⟩

/-! ## Calls in progress -/

/-- How the book of a call looks at any time: its decision is recorded with all its moves, or nothing
is recorded and some moves of one of its decisions are in place. -/
def InProgress (instruction : Instruction) (b : Book) : Prop :=
  (∃ d p, instruction.Decides b.log.found d ∧ (∃ id now, p = d.row.recorded id now) ∧
    b.log.committed = [p] ∧ b.ledger.moved = d.effect) ∨
  (b.log.committed = [] ∧ ∃ moves, b.ledger.moved = effects moves ∧
    (moves ≠ [] → ∃ d, instruction.Decides b.log.found d ∧ moves.Sublist d.moves.reverse))

theorem Concludes.inProgress {instruction : Instruction}
    {result : Except FlowError PaymentOutcome} {b : Book} (h : instruction.Concludes result b) :
    instruction.InProgress b := by
  cases result with
  | ok outcome =>
    rcases h with ⟨d, p, hd, hp, -, hcommitted, hmoved⟩ | ⟨-, hcommitted, hmoved⟩
    · exact Or.inl ⟨d, p, hd, hp, hcommitted, hmoved⟩
    · exact Or.inr ⟨hcommitted, [], hmoved, fun hne => absurd rfl hne⟩
  | error e =>
    obtain ⟨hcommitted, moves, -, hmoved, hplans⟩ := h
    exact Or.inr ⟨hcommitted, moves, hmoved, hplans⟩

/-- Nothing was moved, committed or found in between. -/
theorem InProgress.of_unmoved {instruction : Instruction} {b b' : Book} (h : b.Unmoved b')
    (h' : instruction.InProgress b') : instruction.InProgress b := by
  obtain ⟨hmoved, hcommitted, hfound⟩ := h
  unfold InProgress at h' ⊢
  rwa [hmoved, hcommitted, hfound] at h'

/-- Every call may be refused. -/
theorem exists_refusal (b : Book) (c : lifecycleCalls.Call) :
    ∃ r, bookkeeping.Replies b c r ∧ b.Unmoved (bookkeeping.observe b c r) := by
  cases c with
  | ledger c =>
    cases c with
    | account id => exact ⟨.error .cardNotFound, trivial, rfl, rfl, rfl⟩
    | updateBalance id u => exact ⟨.error .cardNotFound, trivial, rfl, rfl, rfl⟩
    | openStream => exact ⟨.error .cardNotFound, trivial, rfl, rfl, rfl⟩
  | log c =>
    cases c with
    | begin => exact ⟨.error (.database .closed), trivial, rfl, rfl, rfl⟩
    | insert payment => exact ⟨.error (.database .closed), trivial, rfl, rfl, rfl⟩
    | commit => exact ⟨.error (.database .closed), trivial, rfl, rfl, rfl⟩
    | rollback => exact ⟨.error (.database .closed), trivial, rfl, rfl, rfl⟩
    | find id => exact ⟨.error (.database .closed), trivial, rfl, rfl, rfl⟩
    | involving account => exact ⟨.error (.database .closed), trivial, rfl, rfl, rfl⟩
  | stream c =>
    cases c with
    | send request => exact ⟨false, trivial, rfl, rfl, rfl⟩
    | receive => exact ⟨none, trivial, rfl, rfl, rfl⟩
    | hangUp => exact ⟨(), trivial, rfl, rfl, rfl⟩
    | drain => exact ⟨none, trivial, rfl, rfl, rfl⟩
  | publish event => exact ⟨(), trivial, rfl, rfl, rfl⟩

/-- **What has to be true of a call already**, since it may meet nothing but refusals from now on. -/
theorem inProgress_of_ensures {instruction : Instruction} {b : Book}
    {p : Program lifecycleCalls (Except FlowError PaymentOutcome)}
    (h : p.Ensures bookkeeping b instruction.Concludes) : instruction.InProgress b := by
  -- from here on every call is refused, which changes nothing in the book
  obtain ⟨result, b', hconcludes, hunmoved⟩ := h.exists_end (fun b' => b.Unmoved b')
    (fun c b₁ h₁ _ => by
      obtain ⟨r, hr, h₂⟩ := exists_refusal b₁ c
      exact ⟨r, hr, h₂.moved.trans h₁.moved, h₂.committed.trans h₁.committed,
        h₂.found.trans h₁.found⟩)
    ⟨rfl, rfl, rfl⟩
  exact hconcludes.inProgress.of_unmoved hunmoved

end Instruction

end CardHolds
