import CardHolds.Proofs.Lifecycle.Instruction

/-!
# No quantity overflows

A store holds quantities below `2 ^ 63`, and amounts are kept below `2 ^ 64`.  So the sum of two
quantities that were read is an amount: no plan made from such readings overflows
(`decideAuthorization_avoids`, `Reaction.decide_avoids`), nor does an undo (`BalanceMove.undo_avoids`).

`storedReadings` is the contract with an environment that shows nothing but what a store can hold.
Under it a lifecycle call neither ends with an overflow nor tells the observers of one
(`Instruction.program_avoids`).
-/

namespace CardHolds

open Program

/-- The error, if there is one, is not of the given kind. -/
def Avoids {ε α : Type} (kind : ε → Bool) : Except ε α → Prop
  | .ok _ => True
  | .error e => kind e = false

theorem Avoids.of_error {ε α : Type} {kind : ε → Bool} {x : Except ε α} (h : Avoids kind x) {e : ε}
    (he : x = .error e) : kind e = false := by
  rw [he] at h
  exact h

theorem Avoids.bind {ε α β : Type} {kind : ε → Bool} {x : Except ε α} {f : α → Except ε β}
    (h : Avoids kind x) (next : ∀ a, x = .ok a → Avoids kind (f a)) : Avoids kind (x >>= f) := by
  cases x with
  | error e => exact h
  | ok a => exact next a rfl

/-- Whether an impossible move would have gone beyond the amounts. -/
def MoveError.isOverflow : MoveError → Bool
  | overflow .. => true
  | underflow .. => false

/-- Whether a move stays in place because its undo would overflow. -/
def UndoFault.isOverflow : UndoFault → Bool
  | move error => error.isOverflow
  | _ => false

/-- Whether a call failed because its plan would overflow. -/
def FlowError.isOverflow : FlowError → Bool
  | move error => error.isOverflow
  | _ => false

theorem FlowError.isOverflow_ofLedger (e : LedgerError) : (ofLedger e).isOverflow = false := by
  cases e <;> rfl

theorem FlowError.isOverflow_ofLog (e : LogError) : (ofLog e).isOverflow = false := by
  cases e <;> rfl

/-! ## Plans -/

/-- Both quantities of the account can be stored. -/
structure Account.Storable (a : Account) : Prop where
  balance : a.balance.units < 2 ^ 63
  blocked : a.blocked.units < 2 ^ 63

namespace BalanceMove
variable {m : BalanceMove} {amount : Amount}

/-- The move starts from quantities that can be stored. -/
structure FromStorable (m : BalanceMove) : Prop where
  balance : m.oldBalance.units < 2 ^ 63
  blocked : m.oldBlocked.units < 2 ^ 63

theorem PlannedOn.fromStorable {a : Account} (h : m.PlannedOn a) (ha : a.Storable) :
    m.FromStorable :=
  ⟨h.balance ▸ ha.balance, h.blocked ▸ ha.blocked⟩

theorem creditBalance_avoids (h : m.newBalance.units + amount.units < 2 ^ 64) :
    Avoids MoveError.isOverflow (m.creditBalance amount) := by
  unfold creditBalance
  cases hsum : m.newBalance.add? amount with
  | none =>
    have hlarge := Amount.add?_eq_none_iff.mp hsum
    omega
  | some balance => trivial

theorem block_avoids (h : m.newBlocked.units + amount.units < 2 ^ 64) :
    Avoids MoveError.isOverflow (m.block amount) := by
  unfold block
  cases hsum : m.newBlocked.add? amount with
  | none =>
    have hlarge := Amount.add?_eq_none_iff.mp hsum
    omega
  | some blocked => trivial

theorem debitBalance_avoids (m : BalanceMove) (amount : Amount) :
    Avoids MoveError.isOverflow (m.debitBalance amount) := by
  unfold debitBalance
  cases m.newBalance.sub? amount with
  | none => rfl
  | some balance => trivial

theorem release_avoids (m : BalanceMove) (amount : Amount) :
    Avoids MoveError.isOverflow (m.release amount) := by
  unfold release
  cases m.newBlocked.sub? amount with
  | none => rfl
  | some blocked => trivial

/-- Taking from the balance leaves the blocked money of a plan alone. -/
theorem newBlocked_of_debitBalance {m' : BalanceMove} (h : m.debitBalance amount = .ok m') :
    m'.newBlocked = m.newBlocked := by
  unfold debitBalance at h
  split at h
  · cases h
    rfl
  · cases h

end BalanceMove

section Rules
variable {customer merchant : Account}
open BalanceMove

/-- **An authorization does not overflow**: what is blocked was available before. -/
theorem decideAuthorization_avoids (request : PaymentRequest) (hc : customer.Storable)
    (hm : merchant.Storable) :
    Avoids MoveError.isOverflow (decideAuthorization request customer merchant) := by
  unfold decideAuthorization
  split
  · trivial
  split
  · trivial
  · rename_i hcovered
    have hamount : request.amount.units < 2 ^ 63 :=
      lt_of_le_of_lt (Nat.not_lt.mp hcovered) hc.balance
    have hcustomer := hc.blocked
    have hmerchant := hm.blocked
    refine (debitBalance_avoids _ _).bind fun held hheld => ?_
    refine (block_avoids ?_).bind fun customerMove _ => ?_
    · rw [newBlocked_of_debitBalance hheld]
      show customer.blocked.units + request.amount.units < 2 ^ 64
      omega
    refine (block_avoids ?_).bind fun merchantMove _ => trivial
    show merchant.blocked.units + request.amount.units < 2 ^ 64
    omega

/-- **A reaction does not overflow**: its amount is at most that of a stored payment. -/
theorem Reaction.decide_avoids (reaction : Reaction) {referenced : Payment} (amount : Amount)
    (hreferenced : referenced.amount.units < 2 ^ 63) (hc : customer.Storable)
    (hm : merchant.Storable) :
    Avoids MoveError.isOverflow (reaction.decide referenced customer merchant amount) := by
  have hcustomer := hc.balance
  have hmerchant := hm.balance
  have credit : ∀ (a : Account) (label : String), a.balance.units < 2 ^ 63 →
      ¬ referenced.amount < amount →
        Avoids MoveError.isOverflow ((on a label).creditBalance amount) := by
    intro a label ha hle
    have hamount : amount.units ≤ referenced.amount.units := Nat.not_lt.mp hle
    refine creditBalance_avoids ?_
    show a.balance.units + amount.units < 2 ^ 64
    omega
  cases reaction with
  | capture =>
    simp only [decide, decideCapture]
    split
    · trivial
    · rename_i hle
      refine (release_avoids _ _).bind fun customerMove _ => ?_
      refine (credit merchant _ hmerchant hle).bind fun credited _ => ?_
      exact (release_avoids _ _).bind fun merchantMove _ => trivial
  | cancel =>
    simp only [decide, decideCancel]
    split
    · trivial
    · rename_i hle
      refine (credit customer _ hcustomer hle).bind fun credited _ => ?_
      refine (release_avoids _ _).bind fun customerMove _ => ?_
      exact (release_avoids _ _).bind fun merchantMove _ => trivial
  | refund =>
    simp only [decide, decideRefund]
    split
    · trivial
    · rename_i hle
      refine (credit customer _ hcustomer hle).bind fun customerMove _ => ?_
      exact (debitBalance_avoids _ _).bind fun merchantMove _ => trivial

end Rules

/-! ## Undoing moves -/

namespace BalanceMove
variable {m : BalanceMove}

theorem reverse_avoids (m : BalanceMove) (q : Quantity) {current old : Amount} (new : Amount)
    (hcurrent : current.units < 2 ^ 63) (hold : old.units < 2 ^ 63) :
    Avoids MoveError.isOverflow (m.reverse q current old new) := by
  unfold reverse
  cases new.sub? old with
  | some added =>
    simp only
    cases current.sub? added with
    | none => rfl
    | some result => trivial
  | none =>
    -- what was removed is no more than there was
    simp only
    cases hsum : current.add? (old.minus new) with
    | none =>
      have hlarge := Amount.add?_eq_none_iff.mp hsum
      simp only [Amount.minus] at hlarge
      omega
    | some result => trivial

theorem undoOn_avoids (h : m.FromStorable) {current : Account} (hcurrent : current.Storable) :
    Avoids MoveError.isOverflow (m.undoOn current) := by
  unfold undoOn
  refine (m.reverse_avoids .balance _ hcurrent.balance h.balance).bind fun balance _ => ?_
  exact (m.reverse_avoids .blocked _ hcurrent.blocked h.blocked).bind fun blocked _ => trivial

end BalanceMove

/-! ## What is told of a move that stays in place -/

/-- A text begins as its first part does. -/
theorem head?_append {s : String} {c : Char} (h : s.toList.head? = some c) (t : String) :
    (s ++ t).toList.head? = some c := by
  rw [String.toList_append, List.head?_append, h, Option.some_or]

/-- The digits of a number end where the text goes on with something else. -/
theorem dropWhile_toString (n : Nat) {c : Char} (rest : List Char) (hc : c.isDigit = false) :
    ((toString n).toList ++ c :: rest).dropWhile Char.isDigit = c :: rest := by
  rw [List.dropWhile_append_of_pos, List.dropWhile_cons_of_neg]
  · rw [hc]
    exact Bool.false_ne_true
  · intro d hd
    rw [Nat.toString_eq_repr, Nat.toList_repr] at hd
    exact Nat.isDigit_of_mem_toDigits (by decide) (by decide) hd

theorem MoveError.message_underflow_ne (account account' : AccountId)
    (quantity quantity' : Quantity) (amount amount' : Amount) :
    (underflow account quantity amount).message ≠
      (overflow account' quantity' amount').message := by
  intro h
  -- after the two amounts the texts differ
  have hchars := congrArg String.toList h
  simp only [message, String.append_assoc, String.toList_append, List.append_cancel_left_eq]
    at hchars
  have hrest := (dropWhile_toString amount.units _ rfl).symm.trans
    ((congrArg (List.dropWhile Char.isDigit) hchars).trans
      (dropWhile_toString amount'.units _ rfl))
  cases congrArg (fun chars : List Char => chars[7]?) hrest

/-- Errors of the ledger are told in other words than impossible moves. -/
theorem LedgerError.head?_message (error : LedgerError) :
    ∃ c, error.message.toList.head? = some c ∧ c ≠ 'M' := by
  cases error with
  | accountNotFound id => exact ⟨'A', head?_append (head?_append rfl _) _, by decide⟩
  | cardNotFound => exact ⟨'N', rfl, by decide⟩
  | versionConflict id expected actual =>
    refine ⟨'A', head?_append (head?_append (head?_append (head?_append ?_ _) _) _) _, by decide⟩
    exact head?_append rfl _
  | streamClosed reason => exact ⟨'T', head?_append rfl _, by decide⟩
  | database cause => exact ⟨'D', head?_append rfl _, by decide⟩
  | conversion cause => exact ⟨'C', head?_append rfl _, by decide⟩

theorem MoveError.head?_message_overflow (account : AccountId) (quantity : Quantity)
    (amount : Amount) : (overflow account quantity amount).message.toList.head? = some 'M' := by
  refine head?_append (head?_append (head?_append (head?_append ?_ _) _) _) _
  exact head?_append rfl _

/-- A fault that is no overflow is not told as one. -/
theorem UndoFault.message_ne_overflow {fault : UndoFault} (h : fault.isOverflow = false)
    (account : AccountId) (quantity : Quantity) (amount : Amount) :
    fault.message ≠ (MoveError.overflow account quantity amount).message := by
  intro hreason
  have hfirst : fault.message.toList.head? = some 'M' := by
    rw [hreason]
    exact MoveError.head?_message_overflow account quantity amount
  cases fault with
  | ledger error =>
    obtain ⟨c, hc, hne⟩ := error.head?_message
    exact hne (Option.some.inj (hc.symm.trans hfirst))
  | move error =>
    cases error with
    | underflow account' quantity' amount' =>
      exact MoveError.message_underflow_ne account' account quantity' quantity amount' amount hreason
    | overflow account' quantity' amount' => cases h
  | contended =>
    have hother : UndoFault.contended.message.toList.head? = some 'T' :=
      head?_append (head?_append rfl _) _
    cases hother.symm.trans hfirst

/-- The reason is the text of an overflow. -/
def CompensationFailed.TellsOverflow (event : CompensationFailed) : Prop :=
  ∃ account quantity amount, event.reason = (MoveError.overflow account quantity amount).message

theorem CompensationFailure.not_tellsOverflow {failure : CompensationFailure}
    (h : failure.fault.isOverflow = false) : ¬ failure.event.TellsOverflow :=
  fun ⟨account, quantity, amount, hreason⟩ =>
    UndoFault.message_ne_overflow h account quantity amount hreason

/-! ## Lifecycle calls -/

/-- The environment shows nothing but what a store can hold, and the observers are told of no
overflow. -/
@[reducible] def storedReadings : Contract lifecycleCalls where
  State := Unit
  Asks
    | _, .publish (.compensationFailed event) => ¬ event.TellsOverflow
    | _, _ => True
  Replies
    | _, .ledger (.account id), .ok a => a.id = id ∧ a.Storable
    | _, .log (.find _), .ok (some p) => p.amount.units < 2 ^ 63
    | _, _, _ => True
  observe _ _ _ := ()

/-- A contract for the programs that call the ledger alone. -/
@[reducible] def Contract.onLedger (K : Contract lifecycleCalls) : Contract ledgerCalls where
  State := K.State
  Asks s c := K.Asks s (.ledger c)
  Replies s c r := K.Replies s (.ledger c) r
  observe s c r := K.observe s (.ledger c) r

namespace Program
variable {α : Type} {post : α → Unit → Prop}

theorem ensures_onLedger_iff {K : Contract lifecycleCalls} {p : Program ledgerCalls α} {s : K.State}
    {post : α → K.State → Prop} :
    p.onLedger.Ensures K s post ↔ p.Ensures K.onLedger s post := by
  induction p generalizing s with
  | done a => exact Iff.rfl
  | ask c next ih =>
    exact and_congr Iff.rfl (forall_congr' fun r => imp_congr Iff.rfl (ih r))

/-- A statement stream shows no quantities. -/
theorem onStream_avoids {p : Program streamCalls α} (h : ∀ a, post a ()) :
    p.onStream.Ensures storedReadings () post := by
  induction p with
  | done a => exact h a
  | ask c next ih => exact ⟨trivial, fun r _ => ih r⟩

end Program

/-- **An undo does not overflow.** -/
theorem BalanceMove.undo_avoids {m : BalanceMove} (h : m.FromStorable) (attempts : Nat) :
    (m.undo attempts).Ensures storedReadings.onLedger () fun r _ =>
      Avoids UndoFault.isOverflow r := by
  induction attempts with
  | zero => rfl
  | succ attempts ih =>
    refine ⟨trivial, fun reply hreply => ?_⟩
    cases reply with
    | error e => rfl
    | ok current =>
      have hundo := undoOn_avoids h hreply.2
      simp only [bind_eq, bind_done]
      cases hu : m.undoOn current with
      | error e => exact hundo.of_error hu
      | ok update =>
        refine ⟨trivial, fun reply _ => ?_⟩
        cases reply with
        | ok account => trivial
        | error e =>
          show Ensures _ (if e.isVersionConflict then _ else _) _ _
          split
          · exact ih
          · rfl

namespace Saga

/-- No compensation reports an overflow. -/
theorem undoAll_avoids {ms : List BalanceMove} (h : ∀ m ∈ ms, m.FromStorable) :
    (undoAll ms).Ensures storedReadings.onLedger () fun failures _ =>
      ∀ failure ∈ failures, failure.fault.isOverflow = false := by
  induction ms with
  | nil => exact fun failure hmem => absurd hmem List.not_mem_nil
  | cons m rest ih =>
    have hrest := ih fun m' hm' => h m' (List.mem_cons_of_mem m hm')
    refine (BalanceMove.undo_avoids (h m List.mem_cons_self) _).bind fun r _ hr => ?_
    cases r with
    | ok account => exact hrest
    | error fault =>
      refine hrest.bind fun failures _ hfailures => ?_
      intro failure hmem
      rcases List.mem_cons.mp hmem with rfl | hmem
      · exact hr
      · exact hfailures failure hmem

/-- Only the given moves are remembered as carried out. -/
theorem applyAll_subset (saga : Saga) (ms : List BalanceMove) :
    (saga.applyAll ms).Ensures storedReadings.onLedger () fun r _ =>
      ∀ m ∈ r.2.applied, m ∈ saga.applied ∨ m ∈ ms := by
  induction ms generalizing saga with
  | nil => exact fun m hm => Or.inl hm
  | cons m rest ih =>
    refine ⟨trivial, fun reply _ => ?_⟩
    cases reply with
    | error e => exact fun m' hm' => Or.inl hm'
    | ok account =>
      refine (ih { applied := saga.applied ++ [m] }).mono fun r _ hr m' hm' => ?_
      rcases hr m' hm' with happlied | hrest
      · rcases List.mem_append.mp happlied with hbefore | hm
        · exact Or.inl hbefore
        · exact Or.inr (List.mem_singleton.mp hm ▸ List.mem_cons_self)
      · exact Or.inr (List.mem_cons_of_mem m hrest)

end Saga

namespace Flow

theorem record_avoids (d : Decision) :
    (record d).Ensures storedReadings () fun r _ => Avoids FlowError.isOverflow r := by
  refine ⟨trivial, fun r _ => ?_⟩
  cases r with
  | error e => exact FlowError.isOverflow_ofLog e
  | ok p =>
    refine ⟨trivial, fun r _ => ?_⟩
    cases r with
    | error e => exact FlowError.isOverflow_ofLedger e
    | ok _ =>
      refine (ensures_bind (p := (propagate _).onStream)).mpr (onStream_avoids fun r => ?_)
      cases r with
      | error e => rfl
      | ok acks => trivial

theorem applyAndRecord_avoids (d : Decision) :
    (applyAndRecord d).Ensures storedReadings () fun r _ =>
      Avoids FlowError.isOverflow r.1 ∧ ∀ m ∈ r.2.applied, m ∈ d.moves := by
  refine ensures_bind.mpr (ensures_onLedger_iff.mpr ((Saga.applyAll_subset {} d.moves).mono ?_))
  rintro ⟨r, saga⟩ _ happlied
  have hsubset : ∀ m ∈ saga.applied, m ∈ d.moves := fun m hm =>
    (happlied m hm).resolve_left List.not_mem_nil
  cases r with
  | error e => exact ⟨FlowError.isOverflow_ofLedger e, hsubset⟩
  | ok _ => exact (record_avoids d).bind fun r _ hr => ⟨hr, hsubset⟩

theorem finish_avoids {r : Except FlowError Payment} (h : Avoids FlowError.isOverflow r) :
    (finish r).Ensures storedReadings () fun r' _ => Avoids FlowError.isOverflow r' := by
  cases r with
  | error e => exact ⟨trivial, fun _ _ => h⟩
  | ok p =>
    refine ⟨trivial, fun reply _ => ?_⟩
    cases reply with
    | error e => exact FlowError.isOverflow_ofLog e
    | ok _ => trivial

theorem publishFailures_avoids {failures : List CompensationFailure}
    (h : ∀ failure ∈ failures, failure.fault.isOverflow = false) :
    (publishFailures failures).Ensures storedReadings () fun _ _ => True := by
  induction failures with
  | nil => trivial
  | cons failure rest ih =>
    exact ⟨CompensationFailure.not_tellsOverflow (h failure List.mem_cons_self), fun _ _ =>
      ih fun failure' hmem => h failure' (List.mem_cons_of_mem failure hmem)⟩

theorem compensate_avoids {saga : Saga} (h : ∀ m ∈ saga.applied, m.FromStorable) {error : FlowError}
    (herror : error.isOverflow = false) :
    (compensate saga error).Ensures storedReadings () fun e _ => e.isOverflow = false := by
  have hundo := Saga.undoAll_avoids fun m hm => h m (List.mem_reverse.mp hm)
  refine ensures_bind.mpr (ensures_onLedger_iff.mpr (hundo.mono fun failures _ hfailures => ?_))
  refine (publishFailures_avoids hfailures).bind fun _ _ _ => ?_
  show Ensures _ (if failures.isEmpty then _ else _) _ _
  split
  · exact herror
  · rfl

theorem execute_avoids {d : Decision} (h : ∀ m ∈ d.moves, m.FromStorable) :
    (execute d).Ensures storedReadings () fun r _ => Avoids FlowError.isOverflow r := by
  refine ⟨trivial, fun reply _ => ?_⟩
  cases reply with
  | error e => exact FlowError.isOverflow_ofLog e
  | ok _ =>
    refine (applyAndRecord_avoids d).bind ?_
    rintro ⟨r, saga⟩ _ ⟨hr, happlied⟩
    refine (finish_avoids hr).bind fun r' _ hr' => ?_
    cases r' with
    | ok p => trivial
    | error e =>
      exact (compensate_avoids (fun m hm => h m (happlied m hm)) hr').bind fun e' _ he' => he'

variable {customer merchant : AccountId} {decide : Account → Account → Except MoveError Decision}

/-- A decision that is made from what a store can hold does not overflow. -/
def Fits (decide : Account → Account → Except MoveError Decision) : Prop :=
  ∀ c m, c.Storable → m.Storable → Avoids MoveError.isOverflow (decide c m)

/-- What an attempt tells when it fails is no overflow. -/
theorem attempt_avoids (sound : Sound customer merchant decide) (fits : Fits decide) :
    (attempt customer merchant decide).Ensures storedReadings () fun r _ =>
      ∀ e, r = .failed e → e.isOverflow = false := by
  have failed : ∀ e : FlowError, e.isOverflow = false →
      ∀ e', Attempt.failed e = .failed e' → e'.isOverflow = false := by
    rintro e he e' ⟨⟩
    exact he
  refine ⟨trivial, fun reply hreply => ?_⟩
  cases reply with
  | error e => exact failed _ (FlowError.isOverflow_ofLedger e)
  | ok c =>
    obtain ⟨hc, hcustomer⟩ := hreply
    refine ⟨trivial, fun reply hreply => ?_⟩
    cases reply with
    | error e => exact failed _ (FlowError.isOverflow_ofLedger e)
    | ok m =>
      obtain ⟨hm, hmerchant⟩ := hreply
      simp only [embed, bind_done]
      cases hd : decide c m with
      | error e => exact failed _ ((fits c m hcustomer hmerchant).of_error hd)
      | ok d =>
        have hmoves : ∀ mv ∈ d.moves, mv.FromStorable := fun mv hmv =>
          ((sound c m d hc hm hd).moves mv hmv).elim (·.fromStorable hcustomer)
            (·.fromStorable hmerchant)
        refine (execute_avoids hmoves).bind fun r _ hr => ?_
        cases r with
        | ok p => exact fun e he => by cases he
        | error e =>
          show Ensures _ (Program.done (if e.isBalanceConflict then _ else _)) _ _
          split
          · exact fun e he => by cases he
          · exact failed e hr

theorem attempts_avoids (sound : Sound customer merchant decide) (fits : Fits decide)
    (total left : Nat) :
    (attempts customer merchant decide total left).Ensures storedReadings () fun r _ =>
      Avoids FlowError.isOverflow r := by
  induction left with
  | zero => rfl
  | succ left ih =>
    refine (attempt_avoids sound fits).bind fun r _ hr => ?_
    cases r with
    | recorded p => exact ⟨trivial, fun _ _ => trivial⟩
    | failed e => exact hr e rfl
    | lost => exact ih

end Flow

/-- **No lifecycle call overflows a quantity**, as long as it is shown nothing but what a store can
hold. -/
theorem Instruction.program_avoids (instruction : Instruction) (retries : Nat) :
    (instruction.program retries).Ensures storedReadings () fun r _ =>
      Avoids FlowError.isOverflow r := by
  cases instruction with
  | authorize request =>
    show Ensures _ (if request.merchant = request.customer then _ else _) _ _
    split
    · rfl
    · refine (Flow.attempts_avoids (sound_authorization request) (fun c m hc hm =>
        decideAuthorization_avoids request hc hm) _ _).bind fun r _ hr => ?_
      cases r with
      | ok p => trivial
      | error e => exact hr
  | react reaction id amount =>
    refine ⟨trivial, fun reply hreply => ?_⟩
    cases reply with
    | error e => exact FlowError.isOverflow_ofLog e
    | ok found =>
      cases found with
      | none => rfl
      | some referenced =>
        show Ensures _ (if accepts referenced reaction.operation = true then _ else _) _ _
        split
        · refine (Flow.attempts_avoids (sound_reaction reaction referenced amount) (fun c m hc hm =>
            reaction.decide_avoids amount hreply hc hm) _ _).bind fun r _ hr => ?_
          cases r with
          | ok p => trivial
          | error e => exact hr
        · trivial

end CardHolds
