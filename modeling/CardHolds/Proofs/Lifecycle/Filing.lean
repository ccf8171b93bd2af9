import CardHolds.Proofs.Lifecycle.Outcome

/-!
# How a lifecycle call files its payment

A `File` is what one lifecycle call knows of the row it records: the payment it referred to, the rows
it drafted, whether one of them is in the log, and the statement requests that were acknowledged.

`filing` is the contract under which files are kept.  A call sends requests for its one drafted row
only, one at a time, and it commits when all of them are acknowledged; an error leaves it open whether
the last request was carried out.  `Instruction.program_files` says that every lifecycle call keeps
the contract, and what its file shows if the call succeeds.  Since a lost attempt has sent nothing
(`Flow.attempt_files`), nothing is filed twice.
-/

namespace CardHolds

open Program

/-- Whether the row of a call is in the log. -/
inductive Filed where
  | nothing
  /-- The commit was confirmed. -/
  | certain (payment : Payment)
  /-- The commit was answered with an error. -/
  | doubtful (payment : Payment)

/-- The payment that is in the log, or may be. -/
def Filed.payment? : Filed → Option Payment
  | nothing => none
  | certain p => some p
  | doubtful p => some p

/-- A statement stream as its caller knows it. -/
inductive Line where
  /-- Nothing can be sent. -/
  | idle
  /-- Every request was acknowledged. -/
  | ready
  | awaiting (request : StatementRequest)
  /-- No acknowledgement will come; the request may have been carried out. -/
  | broken (request : StatementRequest)

/-- What a call knows of its statement requests. -/
structure EntryFile where
  acknowledged : List StatementRequest := []
  line : Line := .idle

namespace EntryFile

/-- Enters the reply to the request that awaits it. -/
def receive (f : EntryFile) (reply : Option StatementReply) : EntryFile :=
  match f.line, reply with
  | .awaiting request, some (.ok _) =>
    { acknowledged := f.acknowledged ++ [request], line := .ready }
  | .awaiting request, some (.error _) => { f with line := .broken request }
  | .awaiting request, none => { f with line := .broken request }
  | _, _ => f

/-- Enters that nothing more is sent. -/
def hangUp (f : EntryFile) : EntryFile :=
  match f.line with
  | .ready => { f with line := .idle }
  | .awaiting request => { f with line := .broken request }
  | _ => f

end EntryFile

/-- How statement requests are entered.  Only allowed requests are sent, and one at a time. -/
@[reducible] def entryFiling (Allowed : StatementRequest → Prop) : Contract streamCalls where
  State := EntryFile
  Asks
    | f, .send request => f.line = .ready ∧ Allowed request
    | f, .receive => ∃ request, f.line = .awaiting request
    | _, .hangUp => True
    | f, .drain => f.line = .idle
  Replies _ _ _ := True
  observe
    | f, .send request, true => { f with line := .awaiting request }
    | f, .send _, false => f
    | f, .receive, reply => f.receive reply
    | f, .hangUp, _ => f.hangUp
    | f, .drain, _ => f

/-- What a call knows of the row it records. -/
structure File where
  /-- The payment that was looked up. -/
  found : Option Payment := none
  /-- The rows in the open transaction, as long as they are known. -/
  drafts : Option (List Payment) := none
  filed : Filed := .nothing
  entries : EntryFile := {}

namespace File

/-- A request for the drafted row, as long as it is not in the log. -/
def Allows (f : File) (request : StatementRequest) : Prop :=
  f.filed = .nothing ∧ ∃ p, f.drafts = some [p] ∧ request.payment = p.id

/-- The requests that put a payment on the statements that its decision lists. -/
def requests (d : Decision) (id : PaymentId) : List StatementRequest :=
  d.statements.map fun account => ⟨account, id⟩

/-- The row of a lawful decision has been put on all its statements. -/
def Backs (Lawful : Option Payment → Decision → Prop) (f : File) (p : Payment) : Prop :=
  ∃ d id now, Lawful f.found d ∧ p = d.row.recorded id now ∧
    f.entries = { acknowledged := requests d id, line := .idle }

/-- Nothing was sent and nothing was committed. -/
structure Blank (found : Option Payment) (f : File) : Prop where
  found : f.found = found
  filed : f.filed = .nothing
  entries : f.entries = {}

end File

/-- How rows and requests are entered, and what the environment is bound to. -/
@[reducible] def filing (Lawful : Option Payment → Decision → Prop) : Contract lifecycleCalls where
  State := File
  Asks
    | f, .ledger .openStream => f.filed = .nothing ∧ f.entries.line = .idle
    | f, .log (.find _) => f.filed = .nothing
    | f, .log .commit => f.filed = .nothing ∧ ∃ p, f.drafts = some [p] ∧ f.Backs Lawful p
    | f, .stream c => (entryFiling f.Allows).Asks f.entries c
    | _, _ => True
  Replies
    | _, .ledger (.account id), .ok a => a.id = id
    | _, .log (.find id), .ok (some p) => p.id = id
    | _, .log (.insert row), .ok p => ∃ id now, p = row.recorded id now
    | _, _, _ => True
  observe
    | f, .ledger .openStream, .ok _ => { f with entries := { f.entries with line := .ready } }
    | f, .log .begin, .ok _ => { f with drafts := some [] }
    | f, .log .begin, .error _ => { f with drafts := none }
    | f, .log (.insert _), .ok p => { f with drafts := f.drafts.map (· ++ [p]) }
    | f, .log (.insert _), .error _ => { f with drafts := none }
    | f, .log .commit, .ok _ =>
      { f with drafts := none, filed := ((f.drafts.bind List.head?).elim .nothing .certain) }
    | f, .log .commit, .error _ =>
      { f with drafts := none, filed := ((f.drafts.bind List.head?).elim .nothing .doubtful) }
    | f, .log .rollback, _ => { f with drafts := none }
    | f, .log (.find _), .ok p => { f with found := p }
    | f, .stream c, r => { f with entries := (entryFiling f.Allows).observe f.entries c r }
    | f, _, _ => f

/-! ## Statement streams -/

namespace Propagator
variable {Allowed : StatementRequest → Prop} {f : EntryFile} {p : Propagator}

/-- The next request can be sent. -/
structure Open (p : Propagator) : Prop where
  turn : p.turn = .readyToSend
  stream : p.stream.sendClosed = false

/-- An acknowledged request is entered, and the next one can be sent. -/
theorem append_files (hp : p.Open) (hf : f.line = .ready) {request : StatementRequest}
    (allowed : Allowed request) :
    (p.append request).Ensures (entryFiling Allowed) f fun r f' =>
      r.1.isOk = true →
        f' = { acknowledged := f.acknowledged ++ [request], line := .ready } ∧ r.2.Open := by
  obtain ⟨⟨closed⟩, turn, acks⟩ := p
  obtain ⟨rfl, rfl⟩ := hp
  refine ⟨⟨hf, allowed⟩, fun taken _ => ?_⟩
  cases taken with
  | false => exact ⟨trivial, fun _ _ => nofun⟩
  | true =>
    refine ⟨⟨request, rfl⟩, fun reply _ => ?_⟩
    -- any other reply than the acknowledgement closes the stream with an error
    match reply with
    | none => exact ⟨trivial, fun _ _ => nofun⟩
    | some (.error e) => exact ⟨trivial, fun _ _ => nofun⟩
    | some (.ok ack) =>
      show Ensures _ (if request.acknowledgedBy ack = true then _ else _) _ _
      split
      · exact fun _ => ⟨rfl, rfl, rfl⟩
      · exact ⟨trivial, fun _ _ => nofun⟩

/-- A stream that is closed between two turns has nothing more to send. -/
theorem close_files (hp : p.Open) (hf : f.line = .ready) :
    p.close.Ensures (entryFiling Allowed) f fun _ f' => f' = { f with line := .idle } := by
  obtain ⟨⟨closed⟩, turn, acks⟩ := p
  obtain ⟨rfl, rfl⟩ := hp
  have hup : f.hangUp = { f with line := .idle } := by rw [EntryFile.hangUp, hf]
  refine ⟨trivial, fun _ _ => ⟨congrArg EntryFile.line hup, fun error _ => ?_⟩⟩
  cases error with
  | none => exact hup
  | some e => exact hup

/-- Where all requests succeed, all were acknowledged, in order. -/
theorem appendAll_files (hp : p.Open) (hf : f.line = .ready) {requests : List StatementRequest}
    (allowed : ∀ r ∈ requests, Allowed r) :
    (p.appendAll requests).Ensures (entryFiling Allowed) f fun r f' =>
      r.1.isOk = true →
        f' = { acknowledged := f.acknowledged ++ requests, line := .ready } ∧ r.2.Open := by
  induction requests generalizing p f with
  | nil =>
    intro _
    rw [List.append_nil, ← hf]
    exact ⟨rfl, hp⟩
  | cons request rest ih =>
    refine (append_files hp hf (allowed request List.mem_cons_self)).bind ?_
    rintro ⟨r, p'⟩ f' hr
    cases r with
    | error e =>
      intro h
      cases h
    | ok ack =>
      obtain ⟨rfl, hp'⟩ := hr rfl
      refine (ih hp' rfl fun r hr => allowed r (List.mem_cons_of_mem _ hr)).mono ?_
      intro r f' h hr
      rw [(h hr).1, List.append_assoc, List.singleton_append]
      exact ⟨rfl, (h hr).2⟩

end Propagator

/-- A batch that succeeds was acknowledged as a whole, and no stream is left open. -/
theorem propagate_files {Allowed : StatementRequest → Prop} {f : EntryFile} (hf : f.line = .ready)
    {requests : List StatementRequest} (allowed : ∀ r ∈ requests, Allowed r) :
    (propagate requests).Ensures (entryFiling Allowed) f fun r f' =>
      r.isOk = true → f' = { acknowledged := f.acknowledged ++ requests, line := .idle } := by
  refine (Propagator.appendAll_files (p := {}) ⟨rfl, rfl⟩ hf allowed).bind ?_
  rintro ⟨r, p⟩ f' hr
  cases r with
  | error e =>
    intro h
    cases h
  | ok _ =>
    obtain ⟨rfl, hp⟩ := hr rfl
    refine (Propagator.close_files hp rfl).bind ?_
    rintro ⟨r, p'⟩ f'' rfl
    cases r with
    | error e =>
      intro h
      cases h
    | ok _ => exact fun _ => rfl

/-! ## Parts of a lifecycle call -/

namespace Program
variable {α : Type} {Lawful : Option Payment → Decision → Prop} {f : File} {post : α → File → Prop}

/-- A program that drives a statement stream changes nothing but what is known of the requests. -/
theorem ensures_onStream_filing {p : Program streamCalls α} :
    p.onStream.Ensures (filing Lawful) f post ↔
      p.Ensures (entryFiling f.Allows) f.entries fun a s => post a { f with entries := s } := by
  induction p generalizing f with
  | done a => exact Iff.rfl
  | ask c next ih =>
    exact and_congr Iff.rfl (forall_congr' fun r => imp_congr Iff.rfl (ih r))

/-- A program that opens no statement stream. -/
def Quiet : Program ledgerCalls α → Prop
  | done _ => True
  | ask c next => c ≠ .openStream ∧ ∀ r, (next r).Quiet

theorem Quiet.bind {β : Type} {p : Program ledgerCalls α} {g : α → Program ledgerCalls β}
    (h : p.Quiet) (next : ∀ a, (g a).Quiet) : (p.bind g).Quiet := by
  induction p with
  | done a => exact next a
  | ask c rest ih => exact ⟨h.1, fun r => ih r (h.2 r)⟩

/-- Reading and updating accounts leaves the file as it is. -/
theorem Quiet.files {p : Program ledgerCalls α} (h : p.Quiet) (hpost : ∀ a, post a f) :
    p.onLedger.Ensures (filing Lawful) f post := by
  induction p with
  | done a => exact hpost a
  | ask c next ih =>
    cases c with
    | account id => exact ⟨trivial, fun r _ => ih r (h.2 r)⟩
    | updateBalance id u => exact ⟨trivial, fun r _ => ih r (h.2 r)⟩
    | openStream => exact absurd rfl h.1

end Program

theorem BalanceMove.quiet_undo (m : BalanceMove) (attempts : Nat) : (m.undo attempts).Quiet := by
  induction attempts with
  | zero => trivial
  | succ attempts ih =>
    refine ⟨nofun, fun reply => ?_⟩
    cases reply with
    | error e => trivial
    | ok current =>
      simp only [bind_eq, bind_done]
      cases m.undoOn current with
      | error e => trivial
      | ok update =>
        refine ⟨nofun, fun reply => ?_⟩
        cases reply with
        | ok account => trivial
        | error e =>
          show Quiet (if e.isVersionConflict then _ else _)
          split
          · exact ih
          · trivial

theorem Saga.quiet_undoAll (ms : List BalanceMove) : (undoAll ms).Quiet := by
  induction ms with
  | nil => trivial
  | cons m rest ih =>
    refine (m.quiet_undo compensationAttempts).bind fun r => ?_
    cases r with
    | ok account => exact ih
    | error fault => exact ih.bind fun _ => trivial

theorem Saga.quiet_applyAll (saga : Saga) (ms : List BalanceMove) : (saga.applyAll ms).Quiet := by
  induction ms generalizing saga with
  | nil => trivial
  | cons m rest ih =>
    refine ⟨nofun, fun reply => ?_⟩
    cases reply with
    | ok account => exact ih _
    | error e => trivial

namespace Flow
variable {Lawful : Option Payment → Decision → Prop} {found : Option Payment} {f : File}

theorem not_isBalanceConflict_ofLog (e : LogError) : (FlowError.ofLog e).isBalanceConflict = false := by
  cases e <;> rfl

/-- A recorded payment is drafted, and all its requests are acknowledged. -/
theorem record_files (d : Decision) (filed : f.filed = .nothing) (drafts : f.drafts = some [])
    (entries : f.entries = {}) :
    (record d).Ensures (filing Lawful) f fun r f' =>
      f'.found = f.found ∧ f'.filed = .nothing ∧
        match r with
        | .ok p => f'.drafts = some [p] ∧ ∃ id now, p = d.row.recorded id now ∧
            f'.entries = { acknowledged := File.requests d id, line := .idle }
        | .error e => e.isBalanceConflict = true → f'.entries = {} := by
  refine ⟨trivial, fun reply hreply => ?_⟩
  cases reply with
  | error e =>
    refine ⟨rfl, filed, fun h => ?_⟩
    rw [not_isBalanceConflict_ofLog e] at h
    cases h
  | ok p =>
    obtain ⟨id, now, rfl⟩ := hreply
    have drafted : f.drafts.map (· ++ [d.row.recorded id now]) = some [d.row.recorded id now] := by
      rw [drafts]
      rfl
    refine ⟨⟨filed, by rw [entries]⟩, fun reply _ => ?_⟩
    cases reply with
    | error e => exact ⟨rfl, filed, fun _ => entries⟩
    | ok _ =>
      refine (ensures_bind (p := (propagate _).onStream)).mpr (ensures_onStream_filing.mpr ?_)
      have allowed : ∀ r ∈ File.requests d id, r.payment = id := by
        intro r hr
        obtain ⟨account, -, rfl⟩ := List.mem_map.mp hr
        rfl
      refine (propagate_files rfl fun r hr => ⟨filed, _, drafted, allowed r hr⟩).mono ?_
      intro r s hs
      cases r with
      | error e => exact ⟨rfl, filed, nofun⟩
      | ok acks =>
        refine ⟨rfl, filed, drafted, id, now, rfl, ?_⟩
        rw [hs rfl]
        exact congrArg (fun f : EntryFile => (⟨f.acknowledged ++ _, .idle⟩ : EntryFile)) entries

theorem applyAndRecord_files (d : Decision) (filed : f.filed = .nothing)
    (drafts : f.drafts = some []) (entries : f.entries = {}) :
    (applyAndRecord d).Ensures (filing Lawful) f fun r f' =>
      f'.found = f.found ∧ f'.filed = .nothing ∧
        match r.1 with
        | .ok p => f'.drafts = some [p] ∧ ∃ id now, p = d.row.recorded id now ∧
            f'.entries = { acknowledged := File.requests d id, line := .idle }
        | .error e => e.isBalanceConflict = true → f'.entries = {} := by
  refine ensures_bind.mpr (Quiet.files (Saga.quiet_applyAll _ _) ?_)
  rintro ⟨r, saga⟩
  cases r with
  | error e => exact ⟨rfl, filed, fun _ => entries⟩
  | ok _ => exact (record_files d filed drafts entries).bind fun _ _ h => h

theorem publishFailures_files (failures : List CompensationFailure) (f : File) :
    (publishFailures failures).Ensures (filing Lawful) f fun _ f' => f' = f := by
  induction failures with
  | nil => rfl
  | cons failure rest ih => exact ⟨trivial, fun _ _ => ih⟩

/-- A compensation has nothing to file, and makes no lost race of any other error. -/
theorem compensate_files (saga : Saga) (error : FlowError) (f : File) :
    (compensate saga error).Ensures (filing Lawful) f fun e f' =>
      f' = f ∧ (e.isBalanceConflict = true → error.isBalanceConflict = true) := by
  refine ensures_bind.mpr (Quiet.files (Saga.quiet_undoAll _) fun failures => ?_)
  refine (publishFailures_files failures f).bind fun _ f' hf' => ?_
  subst hf'
  show Ensures _ (if failures.isEmpty then _ else _) _ _
  split
  · exact ⟨rfl, id⟩
  · exact ⟨rfl, nofun⟩

/-- **A decision is filed as a whole**, or the next attempt starts from a blank file. -/
theorem execute_files (d : Decision) (lawful : Lawful found d) (hf : f.Blank found) :
    (execute d).Ensures (filing Lawful) f fun r f' =>
      match r with
      | .ok p => f'.filed = .certain p
      | .error e => e.isBalanceConflict = true → f'.Blank found := by
  refine ⟨trivial, fun reply _ => ?_⟩
  cases reply with
  | error e => exact fun _ => ⟨hf.found, hf.filed, hf.entries⟩
  | ok _ =>
    refine (applyAndRecord_files (f := { f with drafts := some [] }) d hf.filed rfl hf.entries).bind ?_
    rintro ⟨r, saga⟩ f₁ ⟨hfound, hfiled, hr⟩
    cases r with
    | error e =>
      -- rolled back and undone
      refine ⟨trivial, fun _ _ => ?_⟩
      refine (compensate_files saga e _).bind ?_
      rintro e' f₂ ⟨rfl, hconflict⟩ h
      exact ⟨hfound.trans hf.found, hfiled, hr (hconflict h)⟩
    | ok p =>
      obtain ⟨hdrafts, id, now, rfl, hentries⟩ := hr
      have hlawful : Lawful f₁.found d := by
        rw [hfound, hf.found]
        exact lawful
      refine ⟨⟨hfiled, _, hdrafts, d, id, now, hlawful, rfl, hentries⟩, fun reply _ => ?_⟩
      cases reply with
      | ok _ =>
        show (f₁.drafts.bind List.head?).elim Filed.nothing Filed.certain = _
        rw [hdrafts]
        rfl
      | error e =>
        refine (compensate_files saga _ _).bind ?_
        rintro e' f₂ ⟨-, hconflict⟩ h
        have hlog := hconflict h
        rw [not_isBalanceConflict_ofLog] at hlog
        cases hlog

variable {customer merchant : AccountId} {decide : Account → Account → Except MoveError Decision}

/-- **A lost attempt leaves the file blank.** -/
theorem attempt_files (Lawful : Option Payment → Decision → Prop) (found : Option Payment)
    (lawful : ∀ d, Plans customer merchant decide d → Lawful found d) (hf : f.Blank found) :
    (attempt customer merchant decide).Ensures (filing Lawful) f fun r f' =>
      match r with
      | .recorded p => f'.filed = .certain p
      | .failed _ => True
      | .lost => f'.Blank found := by
  refine ⟨trivial, fun reply hreply => ?_⟩
  cases reply with
  | error e => trivial
  | ok c =>
    have hc : c.id = customer := hreply
    refine ⟨trivial, fun reply hreply => ?_⟩
    cases reply with
    | error e => trivial
    | ok m =>
      have hm : m.id = merchant := hreply
      simp only [embed, bind_done]
      cases hd : decide c m with
      | error e => trivial
      | ok d =>
        refine (execute_files d (lawful d ⟨c, m, hc, hm, hd⟩) hf).bind fun r f' hr => ?_
        cases r with
        | ok p => exact hr
        | error e =>
          show Ensures _ (Program.done (if e.isBalanceConflict then _ else _)) _ _
          split
          · rename_i hconflict
            exact hr hconflict
          · trivial

/-- **Any number of attempts files one payment or none.** -/
theorem attempts_files (found : Option Payment)
    (lawful : ∀ d, Plans customer merchant decide d → Lawful found d)
    (total left : Nat) (hf : f.Blank found) :
    (attempts customer merchant decide total left).Ensures (filing Lawful) f fun r f' =>
      ∀ p, r = .ok p → f'.filed = .certain p := by
  induction left generalizing f with
  | zero =>
    intro p h
    cases h
  | succ left ih =>
    refine (attempt_files Lawful found lawful hf).bind fun r f' hr => ?_
    cases r with
    | recorded p =>
      refine ⟨trivial, fun _ _ p' hp' => ?_⟩
      cases hp'
      exact hr
    | failed e =>
      intro p h
      cases h
    | lost => exact ih hr

end Flow

namespace Instruction
variable {Lawful : Option Payment → Decision → Prop}

/-- The file of a call that succeeded: its payment is in the log, or it recorded nothing at all. -/
def Closes (result : Except FlowError PaymentOutcome) (f : File) : Prop :=
  ∀ outcome, result = .ok outcome →
    (∃ p, f.filed = .certain p ∧ outcome = .ofPayment p) ∨
      (f.filed = .nothing ∧ f.entries = {} ∧ outcome.status = .invalidTransaction)

theorem closes_error (e : FlowError) (f : File) : Closes (.error e) f := by
  intro outcome h
  cases h

theorem closes_ok {f : File} {p : Payment} (h : f.filed = .certain p) :
    Closes (.ok (.ofPayment p)) f := by
  intro outcome heq
  cases heq
  exact Or.inl ⟨p, h, rfl⟩

/-- **Every lifecycle call keeps its file in order**, in any environment. -/
theorem program_files (instruction : Instruction) (retries : Nat) :
    (instruction.program retries).Ensures (filing fun found => instruction.Decides found) {}
      Closes := by
  cases instruction with
  | authorize request =>
    show Ensures _ (if request.merchant = request.customer then _ else _) _ _
    split
    · exact closes_error _ _
    · rename_i hne
      refine (Flow.attempts_files none (fun d hd => ⟨hne, hd⟩) _ _
        ⟨rfl, rfl, rfl⟩).bind fun r f hr => ?_
      cases r with
      | ok p => exact closes_ok (hr p rfl)
      | error e => exact closes_error e f
  | react reaction id amount =>
    refine ⟨rfl, fun reply hreply => ?_⟩
    match reply with
    | .error e => exact closes_error _ _
    | .ok none => exact closes_error _ _
    | .ok (some referenced) =>
      show Ensures _ (if accepts referenced reaction.operation = true then _ else _) _ _
      split
      · rename_i haccepts
        refine (Flow.attempts_files (some referenced)
          (fun d hd => ⟨referenced, rfl, hreply, haccepts, hd⟩) _ _
          ⟨rfl, rfl, rfl⟩).bind fun r f hr => ?_
        cases r with
        | ok p => exact closes_ok (hr p rfl)
        | error e => exact closes_error e f
      · intro outcome h
        cases h
        exact Or.inr ⟨rfl, rfl, rfl⟩

end Instruction

/-! ## What is filed stays filed -/

namespace File
variable {Lawful : Option Payment → Decision → Prop} {f : File}

/-- A payment in the log has been put on all its statements. -/
def InOrder (Lawful : Option Payment → Decision → Prop) (f : File) : Prop :=
  ∀ p, f.filed.payment? = some p → f.Backs Lawful p

theorem inOrder_start : ({} : File).InOrder Lawful := by
  intro p h
  cases h

theorem inOrder_of_nothing (h : f.filed = .nothing) : f.InOrder Lawful := by
  intro p hp
  rw [h] at hp
  cases hp

theorem InOrder.of_eq {f' : File} (h : f.InOrder Lawful) (found : f'.found = f.found)
    (filed : f'.filed = f.filed) (entries : f'.entries = f.entries) : f'.InOrder Lawful := by
  intro p hp
  obtain ⟨d, id, now, hd, hp, hentries⟩ := h p (filed ▸ hp)
  exact ⟨d, id, now, found ▸ hd, hp, entries.trans hentries⟩

/-- Once a payment is in the log the line is idle. -/
theorem InOrder.filed_eq_nothing (h : f.InOrder Lawful) (hline : f.entries.line ≠ .idle) :
    f.filed = .nothing := by
  cases hfiled : f.filed with
  | nothing => rfl
  | certain p =>
    obtain ⟨d, id, now, -, -, hentries⟩ := h p (by rw [hfiled]; rfl)
    exact absurd (congrArg EntryFile.line hentries) hline
  | doubtful p =>
    obtain ⟨d, id, now, -, -, hentries⟩ := h p (by rw [hfiled]; rfl)
    exact absurd (congrArg EntryFile.line hentries) hline

/-- **What was filed stays in order**, whatever the call goes on to ask. -/
theorem InOrder.observe (h : f.InOrder Lawful) (c : LifecycleCall)
    (hask : (filing Lawful).Asks f c) (r : lifecycleCalls.Reply c) :
    ((filing Lawful).observe f c r).InOrder Lawful := by
  match c, r with
  | .ledger (.account _), _ => exact h
  | .ledger (.updateBalance _ _), _ => exact h
  | .ledger .openStream, .ok _ => exact inOrder_of_nothing hask.1
  | .ledger .openStream, .error _ => exact h
  | .log .begin, .ok _ => exact h.of_eq rfl rfl rfl
  | .log .begin, .error _ => exact h.of_eq rfl rfl rfl
  | .log (.insert _), .ok _ => exact h.of_eq rfl rfl rfl
  | .log (.insert _), .error _ => exact h.of_eq rfl rfl rfl
  | .log .commit, .ok _ =>
    obtain ⟨-, p, hdrafts, hp⟩ := hask
    intro p' hp'
    have hp' : ((f.drafts.bind List.head?).elim Filed.nothing Filed.certain).payment? = some p' := hp'
    rw [hdrafts] at hp'
    cases hp'
    exact hp
  | .log .commit, .error _ =>
    obtain ⟨-, p, hdrafts, hp⟩ := hask
    intro p' hp'
    have hp' : ((f.drafts.bind List.head?).elim Filed.nothing Filed.doubtful).payment? = some p' := hp'
    rw [hdrafts] at hp'
    cases hp'
    exact hp
  | .log .rollback, _ => exact h.of_eq rfl rfl rfl
  | .log (.find _), .ok _ => exact inOrder_of_nothing hask
  | .log (.find _), .error _ => exact h
  | .log (.involving _), _ => exact h
  | .stream (.send _), _ => exact inOrder_of_nothing hask.2.1
  | .stream .receive, _ =>
    obtain ⟨request, hline⟩ := hask
    exact inOrder_of_nothing (h.filed_eq_nothing (by rw [hline]; exact Line.noConfusion))
  | .stream .hangUp, _ =>
    by_cases hline : f.entries.line = .idle
    · exact h.of_eq rfl rfl (by show f.entries.hangUp = _; rw [EntryFile.hangUp, hline])
    · exact inOrder_of_nothing (h.filed_eq_nothing hline)
  | .stream .drain, _ => exact h
  | .publish _, _ => exact h

end File

end CardHolds
