import CardHolds.Proofs.Lifecycle.Book

/-!
# What a lifecycle call leaves behind

One statement for each part of a lifecycle call says what its book shows at the end, whatever the
ledger, the log and the statement streams reply.  A move that was undone leaves nothing (`undo_spec`),
a compensation leaves exactly the moves that it reports (`undoAll_spec`), and an attempt either
records its decision with all its moves or records nothing and leaves the moves that its error lists
(`execute_spec`).  Since a lost attempt leaves nothing, the same holds of a call with any number of
attempts (`attempts_spec`, `Instruction.program_spec`).
-/

namespace CardHolds

open BalanceMove (effects)
open Program

/-! ## Undoing moves -/

/-- **An undo takes a move back once or not at all**, however often it tries. -/
theorem BalanceMove.undo_spec (m : BalanceMove) (attempts : Nat) (b : LedgerBook) :
    (m.undo attempts).Ensures ledgerBookkeeping b fun r b' =>
      b'.moved = b.moved - (if r.isOk then m.effect else 0) := by
  -- by the number of attempts; the book may have grown by readings
  induction attempts generalizing b with
  | zero => exact (sub_zero _).symm
  | succ attempts ih =>
    refine ⟨trivial, fun r hr => ?_⟩
    cases r with
    | error e => exact (sub_zero _).symm
    | ok current =>
      obtain ⟨hid, -⟩ := hr
      simp only [bind_eq, bind_done]
      cases hu : m.undoOn current with
      | error e => exact (sub_zero _).symm
      | ok update =>
        refine ⟨⟨current.reading, current.version, hid ▸ LedgerBook.seen_read,
          (change_of_undoOn hu).1, Int64.le_refl _⟩, fun r _ => ?_⟩
        cases r with
        | ok account => exact congrArg LedgerBook.moved (LedgerBook.update_undo hid hu)
        | error e =>
          show Ensures _ (if e.isVersionConflict then _ else _) _ _
          split
          · -- lost against another writer: nothing was written, and the next attempt reads again
            exact ih (b.read current)
          · exact (sub_zero _).symm

/-- **A compensation leaves exactly the moves that it reports.** -/
theorem Saga.undoAll_spec (ms : List BalanceMove) (b : LedgerBook) :
    (undoAll ms).Ensures ledgerBookkeeping b fun failures b' =>
      ∃ stranded, stranded.Sublist ms ∧
        List.Forall₂ (fun f m => ∃ fault, f = m.stranded fault) failures stranded ∧
        b'.moved = b.moved - effects ms + effects stranded := by
  induction ms generalizing b with
  | nil => exact ⟨[], .slnil, .nil, by simp⟩
  | cons m rest ih =>
    refine (m.undo_spec compensationAttempts b).bind fun r b₁ h₁ => ?_
    cases r with
    | ok account =>
      refine (ih b₁).mono fun failures b₂ ⟨stranded, hsub, hfail, hmoved⟩ => ?_
      refine ⟨stranded, hsub.cons m, hfail, ?_⟩
      rw [hmoved, h₁, BalanceMove.effects_cons]
      simp [Except.isOk, Except.toBool]
      abel
    | error fault =>
      -- the move stays in place and is reported, and the rest is undone all the same
      refine (ih b₁).bind fun failures b₂ ⟨stranded, hsub, hfail, hmoved⟩ => ?_
      refine ⟨m :: stranded, hsub.cons_cons m, .cons ⟨fault, rfl⟩ hfail, ?_⟩
      rw [hmoved, h₁, BalanceMove.effects_cons, BalanceMove.effects_cons]
      simp [Except.isOk, Except.toBool]
      abel

/-! ## Carrying moves out -/

/-- Moves are entered one by one up to the first that fails. -/
theorem Saga.applyAll_spec (saga : Saga) (ms : List BalanceMove) (b : LedgerBook)
    (hb : ∀ m ∈ ms, b.Backs m) :
    (saga.applyAll ms).Ensures ledgerBookkeeping b fun r b' =>
      ∃ done, done.Sublist ms ∧ r.2.applied = saga.applied ++ done ∧
        b'.moved = b.moved + effects done ∧ (r.1.isOk → done = ms) := by
  induction ms generalizing saga b with
  | nil => exact ⟨[], .slnil, by simp, by simp, fun _ => rfl⟩
  | cons m rest ih =>
    have hm : b.Backs m := hb m List.mem_cons_self
    obtain ⟨r, hr, hle, -⟩ := id hm
    refine ⟨⟨r, m.fromVersion, hr, rfl, hle⟩, fun reply hreply => ?_⟩
    cases reply with
    | error e => exact ⟨[], List.nil_sublist _, by simp, (add_zero _).symm, fun h => by cases h⟩
    | ok account =>
      have hupdate := LedgerBook.update_forward hm hreply
      -- no reading was made, so the other moves are as well backed as before
      have hrest : ∀ m' ∈ rest, (b.update m.account m.forward).Backs m' := fun m' h' => by
        rw [hupdate]
        exact hb m' (List.mem_cons_of_mem _ h')
      refine (ih { applied := saga.applied ++ [m] } _ hrest).mono ?_
      rintro r b' ⟨done, hsub, happlied, hmoved, hall⟩
      refine ⟨m :: done, hsub.cons_cons m, by simpa using happlied, ?_, fun h => by rw [hall h]⟩
      rw [hmoved, hupdate, BalanceMove.effects_cons, add_assoc]

/-! ## Errors -/

namespace FlowError

/-- The error tells that exactly these moves are still in place. -/
def Reports (e : FlowError) (stranded : List BalanceMove) : Prop :=
  match e with
  | .compensationFailed _ accounts =>
    stranded ≠ [] ∧ accounts = stranded.map BalanceMove.account
  | _ => stranded = []

theorem reports_nil_ofLog (e : LogError) : (ofLog e).Reports [] := by
  cases e <;> rfl

theorem reports_nil_ofLedger (e : LedgerError) : (ofLedger e).Reports [] := by
  cases e <;> rfl

/-- Nothing is in place after an attempt that lost against another writer. -/
theorem Reports.of_conflict {e : FlowError} {stranded : List BalanceMove} (h : e.Reports stranded)
    (hc : e.isBalanceConflict = true) : stranded = [] := by
  cases e with
  | ledger e => exact h
  | _ => cases hc

end FlowError

/-! ## One attempt -/

namespace Flow

/-- A recorded payment is the row of the decision, and the last row drafted. -/
theorem record_spec (d : Decision) (b : Book) :
    (record d).Ensures bookkeeping b fun r b' =>
      b'.ledger = b.ledger ∧ b'.log.committed = b.log.committed ∧ b'.log.found = b.log.found ∧
        match r with
        | .ok p => (∃ id now, p = d.row.recorded id now) ∧
            b'.log.drafts = b.log.drafts.map (· ++ [p])
        | .error e => e.Reports [] := by
  refine ⟨trivial, fun r hr => ?_⟩
  cases r with
  | error e => exact ⟨rfl, rfl, rfl, FlowError.reports_nil_ofLog e⟩
  | ok p =>
    refine ⟨trivial, fun r _ => ?_⟩
    cases r with
    | error e => exact ⟨rfl, rfl, rfl, FlowError.reports_nil_ofLedger e⟩
    | ok _ =>
      refine (ensures_bind (p := (propagate _).onStream)).mpr (ensures_onStream fun r => ?_)
      cases r with
      | error e => exact ⟨rfl, rfl, rfl, rfl⟩
      | ok acks => exact ⟨rfl, rfl, rfl, hr, rfl⟩

theorem applyAndRecord_spec (d : Decision) (b : Book) (hb : ∀ m ∈ d.moves, b.ledger.Backs m) :
    (applyAndRecord d).Ensures bookkeeping b fun r b' =>
      r.2.applied.Sublist d.moves ∧ b'.ledger.moved = b.ledger.moved + effects r.2.applied ∧
        b'.log.committed = b.log.committed ∧ b'.log.found = b.log.found ∧
        match r.1 with
        | .ok p => r.2.applied = d.moves ∧ (∃ id now, p = d.row.recorded id now) ∧
            b'.log.drafts = b.log.drafts.map (· ++ [p])
        | .error e => e.Reports [] := by
  refine ensures_bind.mpr (ensures_onLedger.mpr ((Saga.applyAll_spec {} d.moves _ hb).mono ?_))
  rintro ⟨r, saga⟩ l ⟨done, hsub, happlied, hmoved, hall⟩
  have happlied : saga.applied = done := happlied
  cases r with
  | error e =>
    exact ⟨happlied ▸ hsub, by rw [happlied]; exact hmoved, rfl, rfl,
      FlowError.reports_nil_ofLedger e⟩
  | ok _ =>
    refine (record_spec d _).bind fun r b' ⟨hledger, hcommitted, hfound, hr⟩ => ?_
    refine ⟨happlied ▸ hsub, ?_, hcommitted, hfound, ?_⟩
    · rw [hledger, happlied]
      exact hmoved
    · cases r with
      | error e => exact hr
      | ok p => exact ⟨happlied.trans (hall rfl), hr⟩

/-- Telling the observers leaves the book as it is. -/
theorem publishFailures_spec (failures : List CompensationFailure) (b : Book) :
    (publishFailures failures).Ensures bookkeeping b fun _ b' => b' = b := by
  induction failures with
  | nil => rfl
  | cons f rest ih => exact ⟨trivial, fun _ _ => ih⟩

/-- The reported accounts are those of the moves that stay in place. -/
theorem accounts_of_stranded {failures : List CompensationFailure} {stranded : List BalanceMove}
    (h : List.Forall₂ (fun f m => ∃ fault, f = m.stranded fault) failures stranded) :
    failures.map CompensationFailure.account = stranded.map BalanceMove.account := by
  induction h with
  | nil => rfl
  | cons h _ ih =>
    obtain ⟨fault, rfl⟩ := h
    rw [List.map_cons, List.map_cons, ih]
    rfl

/-- A compensation takes back what was carried out, apart from the moves that its error lists. -/
theorem compensate_spec (saga : Saga) {error : FlowError} (herror : error.Reports []) (b : Book) :
    (compensate saga error).Ensures bookkeeping b fun e b' =>
      b'.log = b.log ∧ ∃ stranded, stranded.Sublist saga.applied.reverse ∧ e.Reports stranded ∧
        b'.ledger.moved = b.ledger.moved - effects saga.applied + effects stranded := by
  refine ensures_bind.mpr (ensures_onLedger.mpr ((Saga.undoAll_spec _ _).mono ?_))
  rintro failures l ⟨stranded, hsub, hfail, hmoved⟩
  rw [BalanceMove.effects_reverse] at hmoved
  refine (publishFailures_spec failures _).bind fun _ b' hb' => ?_
  subst hb'
  show Ensures _ (if failures.isEmpty then _ else _) _ _
  cases hfail with
  | nil => exact ⟨rfl, [], hsub, herror, hmoved⟩
  | @cons f m fs ms hf hrest =>
    exact ⟨rfl, m :: ms, hsub, ⟨List.cons_ne_nil _ _, accounts_of_stranded (.cons hf hrest)⟩, hmoved⟩

/-- The transaction can be ended with this result: it holds the recorded payment and nothing else, or
it failed with nothing left in place by its own doing. -/
def Ready (b : Book) : Except FlowError Payment → Prop
  | .ok p => b.log.drafts = some [p]
  | .error e => e.Reports []

/-- Only a recorded payment is committed. -/
theorem finish_spec (r : Except FlowError Payment) (b : Book) (hr : Ready b r) :
    (finish r).Ensures bookkeeping b fun r' b' =>
      b'.ledger = b.ledger ∧ b'.log.found = b.log.found ∧
        match r' with
        | .ok p => r = .ok p ∧ b'.log.committed = b.log.committed ++ [p]
        | .error e => b'.log.committed = b.log.committed ∧ e.Reports [] := by
  cases r with
  | error e => exact ⟨trivial, fun _ _ => ⟨rfl, rfl, rfl, hr⟩⟩
  | ok p =>
    have hr : b.log.drafts = some [p] := hr
    refine ⟨by simp [hr], fun reply _ => ?_⟩
    cases reply with
    | error e => exact ⟨rfl, rfl, rfl, FlowError.reports_nil_ofLog e⟩
    | ok _ =>
      refine ⟨rfl, rfl, rfl, ?_⟩
      show b.log.committed ++ b.log.drafts.getD [] = _
      rw [hr]
      rfl

end Flow

namespace Book

/-- Nothing was moved, committed or found in between. -/
structure Unmoved (b b' : Book) : Prop where
  moved : b'.ledger.moved = b.ledger.moved
  committed : b'.log.committed = b.log.committed
  found : b'.log.found = b.log.found

/-- A decision was recorded in between, with all its moves. -/
structure Records (b b' : Book) (d : Decision) (p : Payment) : Prop where
  payment : ∃ id now, p = d.row.recorded id now
  moved : b'.ledger.moved = b.ledger.moved + d.effect
  committed : b'.log.committed = b.log.committed ++ [p]
  found : b'.log.found = b.log.found

/-- Nothing was recorded in between, and of all moves those are in place that the error lists: some
moves of one of the planned decisions, newest first. -/
structure Fails (b b' : Book) (Plans : Decision → Prop) (e : FlowError) : Prop where
  moved : ∃ stranded, e.Reports stranded ∧
    b'.ledger.moved = b.ledger.moved + effects stranded ∧
    (stranded ≠ [] → ∃ d, Plans d ∧ stranded.Sublist d.moves.reverse)
  committed : b'.log.committed = b.log.committed
  found : b'.log.found = b.log.found

variable {b b₁ b' : Book} {Plans : Decision → Prop}

theorem Records.after {d : Decision} {p : Payment} (h : b.Unmoved b₁) (h' : b₁.Records b' d p) :
    b.Records b' d p :=
  ⟨h'.payment, h.moved ▸ h'.moved, h.committed ▸ h'.committed, h'.found.trans h.found⟩

theorem Fails.after {e : FlowError} (h : b.Unmoved b₁) (h' : b₁.Fails b' Plans e) :
    b.Fails b' Plans e :=
  ⟨h.moved ▸ h'.moved, h'.committed.trans h.committed, h'.found.trans h.found⟩

theorem Fails.mono {e : FlowError} {Plans' : Decision → Prop} (h : b.Fails b' Plans e)
    (weaker : ∀ d, Plans d → Plans' d) : b.Fails b' Plans' e := by
  obtain ⟨⟨stranded, hreports, hmoved, hplans⟩, hcommitted, hfound⟩ := h
  refine ⟨⟨stranded, hreports, hmoved, fun hne => ?_⟩, hcommitted, hfound⟩
  obtain ⟨d, hd, hsub⟩ := hplans hne
  exact ⟨d, weaker d hd, hsub⟩

/-- An error that reports nothing, when nothing happened. -/
theorem Fails.of_unmoved {e : FlowError} (h : b.Unmoved b') (he : e.Reports []) :
    b.Fails b' Plans e :=
  ⟨⟨[], he, by rw [h.moved, BalanceMove.effects_nil, add_zero], fun hne => absurd rfl hne⟩,
    h.committed, h.found⟩

/-- An attempt that was lost against another writer leaves nothing. -/
theorem Fails.unmoved_of_conflict {e : FlowError} (h : b.Fails b' Plans e)
    (hc : e.isBalanceConflict = true) : b.Unmoved b' := by
  obtain ⟨⟨stranded, hreports, hmoved, -⟩, hcommitted, hfound⟩ := h
  rw [hreports.of_conflict hc, BalanceMove.effects_nil, add_zero] at hmoved
  exact ⟨hmoved, hcommitted, hfound⟩

end Book

/-- The moves of a decision are backed by the readings that it was made from. -/
theorem Decision.PlannedFrom.backs {c m : Account} {d : Decision} (h : d.PlannedFrom c m)
    {l : LedgerBook} (hadmits : (l.read c).Admits m) : ∀ mv ∈ d.moves, ((l.read c).read m).Backs mv := by
  intro mv hmv
  -- the move of the customer is backed by the first reading, also if the second one is of the same
  -- account
  rcases h.moves mv hmv with h | h
  · exact (LedgerBook.backs_read_of_plannedOn h).read hadmits
  · exact LedgerBook.backs_read_of_plannedOn h

namespace Flow

/-- **A decision is recorded with all its moves, or not at all.** -/
theorem execute_spec (d : Decision) (b : Book) (hb : ∀ m ∈ d.moves, b.ledger.Backs m) :
    (execute d).Ensures bookkeeping b fun r b' =>
      match r with
      | .ok p => b.Records b' d p
      | .error e => b.Fails b' (· = d) e := by
  refine ⟨trivial, fun reply _ => ?_⟩
  cases reply with
  | error e => exact Book.Fails.of_unmoved ⟨rfl, rfl, rfl⟩ (FlowError.reports_nil_ofLog e)
  | ok _ =>
    -- the transaction is open and empty
    have happly := applyAndRecord_spec d { b with log := { b.log with drafts := some [] } } hb
    refine happly.bind ?_
    rintro ⟨r, saga⟩ b₁ ⟨hsub, hmoved, hcommitted, hfound, hr⟩
    have hfinish : Ready b₁ r := by
      cases r with
      | error e => exact hr
      | ok p => exact hr.2.2
    refine (finish_spec r b₁ hfinish).bind fun r' b₂ hfinished => ?_
    obtain ⟨hledger₂, hfound₂, hr'⟩ := hfinished
    cases r' with
    | ok p =>
      obtain ⟨rfl, hcommitted₂⟩ := hr'
      obtain ⟨happlied, hpayment, -⟩ := hr
      have happlied : saga.applied = d.moves := happlied
      refine ⟨hpayment, ?_, hcommitted₂.trans (by rw [hcommitted]), hfound₂.trans hfound⟩
      rw [hledger₂, hmoved, Decision.effect, happlied]
    | error e =>
      obtain ⟨hcommitted₂, he⟩ := hr'
      -- what was carried out is what is taken back, so only the stranded moves remain
      refine (compensate_spec saga he b₂).bind fun e' b₃ hcompensated => ?_
      obtain ⟨hlog, stranded, hsub', hreports, hmoved₃⟩ := hcompensated
      refine ⟨⟨stranded, hreports, ?_, fun _ => ⟨d, rfl, hsub'.trans hsub.reverse⟩⟩, ?_, ?_⟩
      · rw [hmoved₃, hledger₂, hmoved, add_sub_cancel_right]
      · rw [hlog, hcommitted₂, hcommitted]
      · rw [hlog, hfound₂, hfound]

variable {customer merchant : AccountId} {decide : Account → Account → Except MoveError Decision}

/-- The decisions that a call can come to, from whatever it reads. -/
def Plans (customer merchant : AccountId) (decide : Account → Account → Except MoveError Decision)
    (d : Decision) : Prop :=
  ∃ c m, c.id = customer ∧ m.id = merchant ∧ decide c m = .ok d

/-- Every decision starts from the accounts it was made from and does what its row says. -/
def Sound (customer merchant : AccountId) (decide : Account → Account → Except MoveError Decision) :
    Prop :=
  ∀ c m d, c.id = customer → m.id = merchant → decide c m = .ok d → d.PlannedFrom c m

theorem attempt_spec (sound : Sound customer merchant decide) (b : Book) :
    (attempt customer merchant decide).Ensures bookkeeping b fun r b' =>
      match r with
      | .recorded p => ∃ d, Plans customer merchant decide d ∧ b.Records b' d p
      | .failed e => b.Fails b' (Plans customer merchant decide) e
      | .lost => b.Unmoved b' := by
  refine ⟨trivial, fun reply hreply => ?_⟩
  cases reply with
  | error e => exact Book.Fails.of_unmoved ⟨rfl, rfl, rfl⟩ (FlowError.reports_nil_ofLedger e)
  | ok c =>
    obtain ⟨hc, -⟩ := hreply
    refine ⟨trivial, fun reply hreply => ?_⟩
    cases reply with
    | error e => exact Book.Fails.of_unmoved ⟨rfl, rfl, rfl⟩ (FlowError.reports_nil_ofLedger e)
    | ok m =>
      obtain ⟨hm, hadmits⟩ := hreply
      simp only [embed, bind_done]
      cases hd : decide c m with
      | error e => exact Book.Fails.of_unmoved ⟨rfl, rfl, rfl⟩ rfl
      | ok d =>
        refine (execute_spec d _ ((sound c m d hc hm hd).backs hadmits)).bind fun r b' hr => ?_
        have hread : b.Unmoved { b with ledger := (b.ledger.read c).read m } := ⟨rfl, rfl, rfl⟩
        cases r with
        | ok p => exact ⟨d, ⟨c, m, hc, hm, hd⟩, Book.Records.after hread hr⟩
        | error e =>
          have hfails := Book.Fails.after hread hr
          show Ensures _ (Program.done (if e.isBalanceConflict then _ else _)) _ _
          split
          · rename_i hconflict
            exact hfails.unmoved_of_conflict hconflict
          · exact hfails.mono fun d' hd' => ⟨c, m, hc, hm, hd' ▸ hd⟩

/-- **Any number of attempts records one decision or none.** -/
theorem attempts_spec (sound : Sound customer merchant decide) (total left : Nat) (b : Book) :
    (attempts customer merchant decide total left).Ensures bookkeeping b fun r b' =>
      match r with
      | .ok p => ∃ d, Plans customer merchant decide d ∧ b.Records b' d p
      | .error e => b.Fails b' (Plans customer merchant decide) e := by
  induction left generalizing b with
  | zero => exact Book.Fails.of_unmoved ⟨rfl, rfl, rfl⟩ rfl
  | succ left ih =>
    refine (attempt_spec sound b).bind fun r b₁ hr => ?_
    cases r with
    | recorded p => exact ⟨trivial, fun _ _ => hr⟩
    | failed e => exact hr
    | lost =>
      refine (ih b₁).mono fun r b' hr' => ?_
      cases r with
      | ok p =>
        obtain ⟨d, hd, hrecords⟩ := hr'
        exact ⟨d, hd, hrecords.after hr⟩
      | error e => exact Book.Fails.after hr hr'

end Flow

end CardHolds
