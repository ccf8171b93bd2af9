import CardHolds.Proofs.Lifecycle.Filing

/-!
# What a lifecycle call publishes

`telling` is a contract that only listens: its record is what was published so far.  A call tells of the
payment that it recorded after everything else is done (`Flow.attempts_tells`), and of the moves that
stay in place when it gives up, each as it stands in the error (`Flow.compensate_tells`).  A lost
attempt tells nothing, so there is one such story in a call, however many attempts it takes.

`Instruction.program_announces` puts this together with the file of the call: what is told of is the
payment that is in the log.
-/

namespace CardHolds

open Program

/-! ## Moves -/

namespace BalanceMove

/-- The account and the label of a move. -/
def title (m : BalanceMove) : AccountId × String := (m.account, m.label)

theorem title_of_take {m m' : BalanceMove} (step : Step) (h : m.take step = .ok m') :
    m'.title = m.title := by
  cases step with
  | creditBalance amount =>
    simp only [take, creditBalance] at h
    split at h
    · cases h
      rfl
    · cases h
  | debitBalance amount =>
    simp only [take, debitBalance] at h
    split at h
    · cases h
      rfl
    · cases h
  | block amount =>
    simp only [take, block] at h
    split at h
    · cases h
      rfl
    · cases h
  | release amount =>
    simp only [take, release] at h
    split at h
    · cases h
      rfl
    · cases h

end BalanceMove

/-- What a step calls its moves on the customer and on the merchant. -/
def Operation.moveLabels : Operation → String × String
  | authorization => ("customer hold", "merchant hold")
  | capture => ("customer capture", "merchant capture")
  | cancel => ("customer release", "merchant release")
  | refund => ("customer refund", "merchant refund")

/-- The titles of the moves that a row can stand for: on its customer, then on its merchant. -/
def NewPayment.moveTitles (row : NewPayment) : List (AccountId × String) :=
  [(row.customer, row.operation.moveLabels.1), (row.merchant, row.operation.moveLabels.2)]

/-- A decision moves nothing, or money on both accounts of its row. -/
def Decision.Titled (d : Decision) : Prop :=
  d.moves = [] ∨ d.moves.map BalanceMove.title = d.row.moveTitles

section Rules
open BalanceMove (title_of_take)
variable {customer merchant : Account} {d : Decision}

/-- Two moves that bear the names of the two accounts. -/
theorem Decision.titled_settled {row : NewPayment} {customerMove merchantMove : BalanceMove}
    (hc : customerMove.title = (row.customer, row.operation.moveLabels.1))
    (hm : merchantMove.title = (row.merchant, row.operation.moveLabels.2)) :
    (settled row customerMove merchantMove).Titled :=
  Or.inr (by rw [settled, List.map_cons, List.map_cons, hc, hm]; rfl)

theorem decideAuthorization_titled {request : PaymentRequest}
    (h : decideAuthorization request customer merchant = .ok d) : d.Titled := by
  unfold decideAuthorization at h
  split at h
  · cases h
    exact Or.inl rfl
  split at h
  · cases h
    exact Or.inl rfl
  obtain ⟨held, hheld, h⟩ := ok_of_bind h
  obtain ⟨customerMove, hcustomer, h⟩ := ok_of_bind h
  obtain ⟨merchantMove, hmerchant, h⟩ := ok_of_bind h
  cases h
  refine Decision.titled_settled ?_ (title_of_take (.block request.amount) hmerchant)
  exact (title_of_take (.block request.amount) hcustomer).trans
    (title_of_take (.debitBalance request.amount) hheld)

variable {referenced : Payment} {amount : Amount}

theorem Reaction.decide_titled (reaction : Reaction) (hc : customer.id = referenced.customer)
    (hm : merchant.id = referenced.merchant)
    (h : reaction.decide referenced customer merchant amount = .ok d) : d.Titled := by
  have hcustomer : ∀ label, (BalanceMove.on customer label).title = (referenced.customer, label) :=
    fun label => congrArg (·, label) hc
  have hmerchant : ∀ label, (BalanceMove.on merchant label).title = (referenced.merchant, label) :=
    fun label => congrArg (·, label) hm
  cases reaction with
  | capture =>
    simp only [decide, decideCapture] at h
    split at h
    · cases h
      exact Or.inl rfl
    · obtain ⟨customerMove, hreleased, h⟩ := ok_of_bind h
      obtain ⟨credited, hcredited, h⟩ := ok_of_bind h
      obtain ⟨merchantMove, hpaid, h⟩ := ok_of_bind h
      cases h
      exact Decision.titled_settled ((title_of_take (.release amount) hreleased).trans (hcustomer _))
        ((title_of_take (.release amount) hpaid).trans
          ((title_of_take (.creditBalance amount) hcredited).trans (hmerchant _)))
  | cancel =>
    simp only [decide, decideCancel] at h
    split at h
    · cases h
      exact Or.inl rfl
    · obtain ⟨credited, hcredited, h⟩ := ok_of_bind h
      obtain ⟨customerMove, hreleased, h⟩ := ok_of_bind h
      obtain ⟨merchantMove, hpaid, h⟩ := ok_of_bind h
      cases h
      exact Decision.titled_settled ((title_of_take (.release amount) hreleased).trans
        ((title_of_take (.creditBalance amount) hcredited).trans (hcustomer _)))
        ((title_of_take (.release amount) hpaid).trans (hmerchant _))
  | refund =>
    simp only [decide, decideRefund] at h
    split at h
    · cases h
      exact Or.inl rfl
    · obtain ⟨customerMove, hcredited, h⟩ := ok_of_bind h
      obtain ⟨merchantMove, hpaid, h⟩ := ok_of_bind h
      cases h
      exact Decision.titled_settled
        ((title_of_take (.creditBalance amount) hcredited).trans (hcustomer _))
        ((title_of_take (.debitBalance amount) hpaid).trans (hmerchant _))

/-- **A decision moves money on the customer first**, under the labels of its step. -/
theorem Instruction.Decides.titled {instruction : Instruction} {found : Option Payment}
    (h : instruction.Decides found d) : d.Titled := by
  cases instruction with
  | authorize request =>
    obtain ⟨-, c, m, -, -, hd⟩ := h
    exact decideAuthorization_titled hd
  | react reaction id amount =>
    obtain ⟨referenced, -, -, -, c, m, hc, hm, hd⟩ := h
    exact reaction.decide_titled hc hm hd

end Rules

/-! ## Moves that stay in place -/

/-- Whoever undoes moves reports some of them, in the order in which they are undone. -/
theorem Saga.undoAll_returns (ms : List BalanceMove) :
    (undoAll ms).Returns fun failures =>
      ∃ stranded, stranded.Sublist ms ∧
        List.Forall₂ (fun f m => ∃ fault, f = m.stranded fault) failures stranded := by
  induction ms with
  | nil => exact ⟨[], .slnil, .nil⟩
  | cons m rest ih =>
    refine (returns_true (m.undo compensationAttempts)).bind fun r _ => ?_
    cases r with
    | ok account => exact ih.mono fun failures ⟨stranded, hsub, hfail⟩ => ⟨stranded, hsub.cons m, hfail⟩
    | error fault =>
      exact ih.bind fun failures ⟨stranded, hsub, hfail⟩ =>
        ⟨m :: stranded, hsub.cons_cons m, .cons ⟨fault, rfl⟩ hfail⟩

/-- Whoever carries moves out remembers some of them, in order. -/
theorem Saga.applyAll_returns (saga : Saga) (ms : List BalanceMove) :
    (saga.applyAll ms).Returns fun r =>
      ∃ carried, carried.Sublist ms ∧ r.2.applied = saga.applied ++ carried := by
  induction ms generalizing saga with
  | nil => exact ⟨[], .slnil, (List.append_nil _).symm⟩
  | cons m rest ih =>
    refine ⟨trivial, fun reply _ => ?_⟩
    cases reply with
    | error e => exact ⟨[], List.nil_sublist _, (List.append_nil _).symm⟩
    | ok account =>
      refine (ih { applied := saga.applied ++ [m] }).mono fun r ⟨carried, hsub, happlied⟩ => ?_
      exact ⟨m :: carried, hsub.cons_cons m, by simpa using happlied⟩

/-! ## What is told -/

/-- What was published so far.  Accounts and payments are those that were asked for, and a payment is
one that the log holds. -/
@[reducible] def telling (InLog : Payment → Prop) : Contract lifecycleCalls where
  State := List Event
  Asks _ _ := True
  Replies
    | _, .ledger (.account id), .ok a => a.id = id
    | _, .log (.find id), .ok (some p) => p.id = id ∧ InLog p
    | _, _, _ => True
  observe
    | told, .publish event, _ => told ++ [event]
    | told, _, _ => told

namespace Program
variable {α : Type} {InLog : Payment → Prop} {told : List Event} {post : α → List Event → Prop}
  {result : α → Prop}

theorem Returns.tells_onLedger {p : Program ledgerCalls α} (h : p.Returns result)
    (hpost : ∀ a, result a → post a told) : p.onLedger.Ensures (telling InLog) told post := by
  induction p with
  | done a => exact hpost a h
  | ask c next ih => exact ⟨trivial, fun r _ => ih r (h.2 r trivial)⟩

theorem tells_onStream {p : Program streamCalls α} (hpost : ∀ a, post a told) :
    p.onStream.Ensures (telling InLog) told post := by
  induction p with
  | done a => exact hpost a
  | ask c next ih => exact ⟨trivial, fun r _ => ih r⟩

end Program

/-- The event tells that the move stays in place. -/
def Event.TellsOf (event : Event) (m : BalanceMove) : Prop :=
  ∃ fault, event = .compensationFailed (m.stranded fault).event

/-- What was told when a call failed: the moves that the error lists, which are some moves of one of the
planned decisions, newest first. -/
def FlowError.Told (e : FlowError) (Plans : Decision → Prop) (told : List Event) : Prop :=
  ∃ stranded, e.Reports stranded ∧ List.Forall₂ Event.TellsOf told stranded ∧
    (stranded ≠ [] → ∃ d, Plans d ∧ stranded.Sublist d.moves.reverse)

namespace FlowError
variable {e : FlowError} {Plans Plans' : Decision → Prop} {told : List Event}

theorem told_nil (he : e.Reports []) : e.Told Plans [] :=
  ⟨[], he, .nil, fun hne => absurd rfl hne⟩

theorem Told.mono (h : e.Told Plans told) (weaker : ∀ d, Plans d → Plans' d) : e.Told Plans' told := by
  obtain ⟨stranded, hreports, htold, hplans⟩ := h
  refine ⟨stranded, hreports, htold, fun hne => ?_⟩
  obtain ⟨d, hd, hsub⟩ := hplans hne
  exact ⟨d, weaker d hd, hsub⟩

/-- Nothing is told of an attempt that lost against another writer. -/
theorem Told.eq_nil_of_conflict (h : e.Told Plans told) (hc : e.isBalanceConflict = true) :
    told = [] := by
  obtain ⟨stranded, hreports, htold, -⟩ := h
  rw [hreports.of_conflict hc] at htold
  cases htold
  rfl

end FlowError

namespace Flow
variable {InLog : Payment → Prop}

theorem publishFailures_tells (failures : List CompensationFailure) (told : List Event) :
    (publishFailures failures).Ensures (telling InLog) told fun _ told' =>
      told' = told ++ failures.map fun f => .compensationFailed f.event := by
  induction failures generalizing told with
  | nil => exact (List.append_nil told).symm
  | cons f rest ih =>
    refine ⟨trivial, fun _ _ => (ih (told ++ [Event.compensationFailed f.event])).mono fun _ told' h => ?_⟩
    rw [h, List.append_assoc, List.map_cons, List.singleton_append]

/-- **A compensation tells of exactly the moves that its error lists.** -/
theorem compensate_tells (saga : Saga) {error : FlowError} (herror : error.Reports []) :
    (compensate saga error).Ensures (telling InLog) [] fun e told =>
      ∃ stranded, stranded.Sublist saga.applied.reverse ∧ e.Reports stranded ∧
        List.Forall₂ Event.TellsOf told stranded := by
  refine ensures_bind.mpr ((Saga.undoAll_returns _).tells_onLedger fun failures hfailures => ?_)
  obtain ⟨stranded, hsub, hfail⟩ := hfailures
  refine (publishFailures_tells failures []).bind fun _ told htold => ?_
  have htells : List.Forall₂ Event.TellsOf told stranded := by
    rw [htold, List.nil_append, List.forall₂_map_left_iff]
    exact hfail.imp fun f m ⟨fault, hf⟩ => ⟨fault, by rw [hf]⟩
  show Ensures _ (if failures.isEmpty then _ else _) _ _
  cases hfail with
  | nil => exact ⟨[], hsub, herror, htells⟩
  | @cons f m fs ms hf hrest =>
    exact ⟨m :: ms, hsub, ⟨List.cons_ne_nil _ _, accounts_of_stranded (.cons hf hrest)⟩, htells⟩

theorem record_tells (d : Decision) (told : List Event) :
    (record d).Ensures (telling InLog) told fun r told' =>
      told' = told ∧ ∀ e, r = .error e → e.Reports [] := by
  refine ⟨trivial, fun reply _ => ?_⟩
  cases reply with
  | error e =>
    refine ⟨rfl, fun e' he => ?_⟩
    cases he
    exact FlowError.reports_nil_ofLog e
  | ok p =>
    refine ⟨trivial, fun reply _ => ?_⟩
    cases reply with
    | error e =>
      refine ⟨rfl, fun e' he => ?_⟩
      cases he
      exact FlowError.reports_nil_ofLedger e
    | ok _ =>
      refine (ensures_bind (p := (propagate _).onStream)).mpr (tells_onStream fun r => ?_)
      cases r with
      | error e =>
        refine ⟨rfl, fun e' he => ?_⟩
        cases he
        rfl
      | ok acks => exact ⟨rfl, fun e' he => by cases he⟩

theorem applyAndRecord_tells (d : Decision) (told : List Event) :
    (applyAndRecord d).Ensures (telling InLog) told fun r told' =>
      told' = told ∧ r.2.applied.Sublist d.moves ∧ ∀ e, r.1 = .error e → e.Reports [] := by
  refine ensures_bind.mpr ((Saga.applyAll_returns _ _).tells_onLedger ?_)
  rintro ⟨r, saga⟩ ⟨carried, hsub, happlied⟩
  have happlied : saga.applied = carried := happlied
  rw [← happlied] at hsub
  cases r with
  | error e =>
    refine ⟨rfl, hsub, fun e' he => ?_⟩
    cases he
    exact FlowError.reports_nil_ofLedger e
  | ok _ => exact (record_tells d told).bind fun r told' h => ⟨h.1, hsub, h.2⟩

theorem finish_tells {r : Except FlowError Payment} (hr : ∀ e, r = .error e → e.Reports [])
    (told : List Event) :
    (finish r).Ensures (telling InLog) told fun r' told' =>
      told' = told ∧ ∀ e, r' = .error e → e.Reports [] := by
  cases r with
  | error e => exact ⟨trivial, fun _ _ => ⟨rfl, hr⟩⟩
  | ok p =>
    refine ⟨trivial, fun reply _ => ?_⟩
    cases reply with
    | error e =>
      refine ⟨rfl, fun e' he => ?_⟩
      cases he
      exact FlowError.reports_nil_ofLog e
    | ok _ => exact ⟨rfl, fun e' he => by cases he⟩

theorem execute_tells (d : Decision) :
    (execute d).Ensures (telling InLog) [] fun r told =>
      match r with
      | .ok _ => told = []
      | .error e => e.Told (· = d) told := by
  refine ⟨trivial, fun reply _ => ?_⟩
  cases reply with
  | error e => exact FlowError.told_nil (FlowError.reports_nil_ofLog e)
  | ok _ =>
    refine (applyAndRecord_tells d []).bind ?_
    rintro ⟨r, saga⟩ told ⟨rfl, hsub, hr⟩
    refine (finish_tells hr []).bind ?_
    rintro r' told ⟨rfl, hr'⟩
    cases r' with
    | ok p => exact rfl
    | error e =>
      -- the error may become another one, which lists what was told
      refine (compensate_tells saga (hr' e rfl)).bind fun e' told h => ?_
      obtain ⟨stranded, hsub', hreports, htells⟩ := h
      exact ⟨stranded, hreports, htells, fun _ => ⟨d, rfl, hsub'.trans hsub.reverse⟩⟩

variable {customer merchant : AccountId} {decide : Account → Account → Except MoveError Decision}

theorem attempt_tells :
    (attempt customer merchant decide).Ensures (telling InLog) [] fun r told =>
      match r with
      | .recorded _ => told = []
      | .failed e => e.Told (Plans customer merchant decide) told
      | .lost => told = [] := by
  refine ⟨trivial, fun reply hreply => ?_⟩
  cases reply with
  | error e => exact FlowError.told_nil (FlowError.reports_nil_ofLedger e)
  | ok c =>
    have hc : c.id = customer := hreply
    refine ⟨trivial, fun reply hreply => ?_⟩
    cases reply with
    | error e => exact FlowError.told_nil (FlowError.reports_nil_ofLedger e)
    | ok m =>
      have hm : m.id = merchant := hreply
      simp only [embed, bind_done]
      cases hd : decide c m with
      | error e => exact FlowError.told_nil rfl
      | ok d =>
        refine (execute_tells d).bind fun r told hr => ?_
        cases r with
        | ok p => exact hr
        | error e =>
          have hr : e.Told (· = d) told := hr
          show Ensures _ (Program.done (if e.isBalanceConflict then _ else _)) _ _
          split
          · rename_i hconflict
            exact hr.eq_nil_of_conflict hconflict
          · exact hr.mono fun d' hd' => ⟨c, m, hc, hm, hd' ▸ hd⟩

/-- **One story is told, however many attempts there are.** -/
theorem attempts_tells (total left : Nat) :
    (attempts customer merchant decide total left).Ensures (telling InLog) [] fun r told =>
      match r with
      | .ok p => told = [.paymentRecorded ⟨p⟩]
      | .error e => e.Told (Plans customer merchant decide) told := by
  -- a lost attempt has told nothing, so the next one begins the story
  induction left with
  | zero => exact FlowError.told_nil rfl
  | succ left ih =>
    refine attempt_tells.bind fun r told hr => ?_
    cases r with
    | recorded p =>
      have hr : told = [] := hr
      rw [hr]
      exact ⟨trivial, fun _ _ => rfl⟩
    | failed e => exact hr
    | lost =>
      have hr : told = [] := hr
      rw [hr]
      exact ih

/-- The file and the story of one run. -/
theorem attempts_files_tells {Lawful : Option Payment → Decision → Prop} {f : File}
    (found : Option Payment) (lawful : ∀ d, Plans customer merchant decide d → Lawful found d)
    (retries : Nat) (hf : f.Blank found) :
    (attempts customer merchant decide (attemptsFor retries) (attemptsFor retries)).Ensures
      ((filing Lawful).both (telling InLog)) (f, []) fun r s =>
        (∀ p, r = .ok p → s.1.filed = .certain p) ∧
          match r with
          | .ok p => s.2 = [.paymentRecorded ⟨p⟩]
          | .error e => e.Told (Plans customer merchant decide) s.2 :=
  (attempts_files found lawful _ _ hf).both (attempts_tells _ _)

end Flow

namespace Instruction
variable {InLog : Payment → Prop}

/-- The decisions that an instruction can come to, where it refers to a payment that the log holds. -/
def DecidesWithin (InLog : Payment → Prop) (instruction : Instruction) (d : Decision) : Prop :=
  ∃ found, (∀ p, found = some p → InLog p) ∧ instruction.Decides found d

/-- What a call has told when it ends: of the payment that it recorded; of nothing, if it recorded
nothing and succeeded; of the moves that it could not undo, if it failed. -/
def Announces (InLog : Payment → Prop) (instruction : Instruction)
    (result : Except FlowError PaymentOutcome) (f : File) (told : List Event) : Prop :=
  match result with
  | .ok outcome =>
    (∃ p, f.filed = .certain p ∧ outcome = .ofPayment p ∧ told = [.paymentRecorded ⟨p⟩]) ∨
      (f.filed = .nothing ∧ outcome.status = .invalidTransaction ∧ told = [])
  | .error e => e.Told (instruction.DecidesWithin InLog) told

theorem announces_error {instruction : Instruction} {e : FlowError} (he : e.Reports []) (f : File) :
    instruction.Announces InLog (.error e) f [] :=
  FlowError.told_nil he

/-- **A call tells of what it came to**, in any environment. -/
theorem program_announces (InLog : Payment → Prop) (instruction : Instruction) (retries : Nat) :
    (instruction.program retries).Ensures
      ((filing fun found => instruction.Decides found).both (telling InLog)) ({}, [])
      fun result s => instruction.Announces InLog result s.1 s.2 := by
  cases instruction with
  | authorize request =>
    show Ensures _ (if request.merchant = request.customer then _ else _) _ _
    split
    · exact announces_error (e := .merchantIsCustomer _) rfl {}
    · rename_i hne
      refine (Flow.attempts_files_tells none (fun d hd => ⟨hne, hd⟩) retries ⟨rfl, rfl, rfl⟩).bind ?_
      rintro r ⟨f, told⟩ ⟨hf, htold⟩
      cases r with
      | ok p => exact Or.inl ⟨p, hf p rfl, rfl, htold⟩
      | error e => exact htold.mono fun d hd => ⟨none, fun _ h => (by cases h), hne, hd⟩
  | react reaction id amount =>
    refine ⟨⟨rfl, trivial⟩, fun reply hreply => ?_⟩
    match reply with
    | .error e => exact announces_error (FlowError.reports_nil_ofLog e) {}
    | .ok none => exact announces_error (e := .paymentNotFound _) rfl {}
    | .ok (some referenced) =>
      obtain ⟨hid, -, hlog⟩ := hreply
      show Ensures _ (if accepts referenced reaction.operation = true then _ else _) _ _
      split
      · rename_i haccepts
        refine (Flow.attempts_files_tells (some referenced)
          (fun d hd => ⟨referenced, rfl, hid, haccepts, hd⟩) retries ⟨rfl, rfl, rfl⟩).bind ?_
        rintro r ⟨f, told⟩ ⟨hf, htold⟩
        cases r with
        | ok p => exact Or.inl ⟨p, hf p rfl, rfl, htold⟩
        | error e =>
          refine htold.mono fun d hd => ⟨some referenced, fun p hp => ?_, referenced, rfl, hid,
            haccepts, hd⟩
          cases hp
          exact hlog
      · exact Or.inr ⟨rfl, rfl, rfl⟩

end Instruction

end CardHolds
