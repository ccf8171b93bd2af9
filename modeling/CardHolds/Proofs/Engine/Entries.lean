import CardHolds.Proofs.Engine.Filing

/-!
# The statement entries of a call

Where other writers neither append to statements nor delete any (`Interference.KeepsStatements`), a
lifecycle call adds to the statement entries what its file shows as acknowledged, in order, and
nothing else but perhaps the one request of which this is not known (`EntryFile.Backed`).

Main statement (`Execution.answer_entries`): every call to the environment keeps it so.
-/

namespace CardHolds

open Program

/-- Other writers neither append to statements nor delete any. -/
def Interference.KeepsStatements (i : Interference) : Prop :=
  ∀ commands, i.Commands commands → ∀ c ∈ commands, c.keepsStatements = true

theorem Engine.entries_performAll {e : Engine} {commands : List Ledger.Command}
    (h : ∀ c ∈ commands, c.keepsStatements = true) :
    (e.performAll commands).ledger.store.entries = e.ledger.store.entries := by
  induction commands generalizing e with
  | nil => rfl
  | cons command rest ih =>
    have hcommand := e.ledger.entries_perform (e.mint.accountId e.accountsOpened) e.mint.now
      (h command List.mem_cons_self)
    exact (ih fun c hc => h c (List.mem_cons_of_mem _ hc)).trans hcommand

/-- The entry that a request asks for. -/
def StatementRequest.entry (request : StatementRequest) : StatementEntry :=
  ⟨request.account, request.payment⟩

namespace EntryFile

/-- The entries of the acknowledged requests. -/
def entries (f : EntryFile) : List StatementEntry := f.acknowledged.map StatementRequest.entry

/-- The file is right about what the call has appended, and about the replies that it has not taken.
A request that was not acknowledged may have been carried out. -/
def Backed (f : EntryFile) (replies : List StatementReply) (own : List StatementEntry) : Prop :=
  match f.line with
  | .idle => own = f.entries
  | .ready => own = f.entries ∧ replies = []
  | .awaiting request =>
    replies.length ≤ 1 ∧
      (own = f.entries ∧ (∀ reply ∈ replies, reply.isOk = false) ∨ own = f.entries ++ [request.entry])
  | .broken request => own = f.entries ∨ own = f.entries ++ [request.entry]

theorem backed_start (replies : List StatementReply) : ({} : EntryFile).Backed replies [] := rfl

section Receive
variable {f : EntryFile} {request : StatementRequest} {own : List StatementEntry}

/-- The next reply is entered as it is meant. -/
theorem Backed.receive {reply : StatementReply} {rest : List StatementReply}
    (hline : f.line = .awaiting request) (h : f.Backed (reply :: rest) own) :
    (f.receive (some reply)).Backed rest own := by
  obtain ⟨acknowledged, line⟩ := f
  cases hline
  obtain ⟨hlength, h⟩ := h
  have hrest : rest = [] := by
    rw [List.length_cons] at hlength
    exact List.eq_nil_of_length_eq_zero (by omega)
  cases reply with
  | ok ack =>
    refine ⟨?_, hrest⟩
    rcases h with ⟨-, hrefused⟩ | hown
    · have hrefused := hrefused _ List.mem_cons_self
      cases hrefused
    · show own = (acknowledged ++ [request]).map StatementRequest.entry
      rw [hown, List.map_append]
      rfl
  | error e => exact h.imp_left And.left

/-- No reply comes any more. -/
theorem Backed.receive_none {replies : List StatementReply} (hline : f.line = .awaiting request)
    (h : f.Backed replies own) : (f.receive none).Backed [] own := by
  obtain ⟨acknowledged, line⟩ := f
  cases hline
  exact h.2.imp_left And.left

theorem Backed.hangUp {replies replies' : List StatementReply} (h : f.Backed replies own) :
    f.hangUp.Backed replies' own := by
  obtain ⟨acknowledged, line⟩ := f
  cases line with
  | idle => exact h
  | ready => exact h.1
  | awaiting request => exact h.2.imp_left And.left
  | broken request => exact h

end Receive

end EntryFile

namespace Execution
variable {ε α : Type} {i : Interference} {x : Execution} {f : File}
  {Lawful : Option Payment → Decision → Prop}

/-- The statement entries of all accounts. -/
def entries (x : Execution) : List StatementEntry := x.engine.ledger.store.entries

theorem entries_others (x : Execution) {commands : List Ledger.Command}
    (h : ∀ c ∈ commands, c.keepsStatements = true) : (x.others commands).entries = x.entries :=
  Engine.entries_performAll h

/-- Statements and stream are left as they are. -/
structure LeavesEntries (x y : Execution) : Prop where
  entries : y.entries = x.entries
  peer : y.peer = x.peer

theorem interrupted_leavesEntries (x : Execution) (it : Interruption ε)
    (call : Execution → Except ε α × Execution)
    (before : ∀ c ∈ it.before, c.keepsStatements = true)
    (after : ∀ c ∈ it.after, c.keepsStatements = true)
    (called : ∀ y : Execution, y.LeavesEntries (call y).2) : x.LeavesEntries (x.interrupted it call).2 := by
  have hbefore : x.LeavesEntries (x.others it.before) := ⟨x.entries_others before, rfl⟩
  refine interrupted_rule x it call (fun _ y => x.LeavesEntries y) ?_ (fun _ => hbefore)
    (fun _ _ _ _ h => h) fun _ y h => ⟨(y.entries_others after).trans h.entries, h.peer⟩
  have hcall := called (x.others it.before)
  exact ⟨hcall.entries.trans hbefore.entries, hcall.peer.trans hbefore.peer⟩

/-- A call between the two executions has appended what is known to be acknowledged, or is as much in
doubt as the file says. -/
def Appends (f f' : File) (own : List StatementEntry) (x y : Execution) : Prop :=
  ∃ new, y.entries = x.entries ++ new ∧ f'.entries.Backed y.peer.replies (own ++ new) ∧
    ∀ entry ∈ new, ∃ request, f.Allows request ∧ entry = request.entry

theorem appends_nothing {f' : File} {own : List StatementEntry} {y : Execution}
    (hentries : y.entries = x.entries) (h : f'.entries.Backed y.peer.replies own) :
    Appends f f' own x y :=
  ⟨[], hentries.trans (List.append_nil _).symm, by rwa [List.append_nil],
    fun _ hmem => absurd hmem List.not_mem_nil⟩

theorem LeavesEntries.appends {f' : File} {own : List StatementEntry} {y : Execution}
    (h : x.LeavesEntries y) (hf : f.entries.Backed x.peer.replies own)
    (same : f'.entries = f.entries) : Appends f f' own x y :=
  appends_nothing h.entries (by rwa [same, h.peer])

theorem ledgerCall_appends (keeps : i.KeepsStatements) {own : List StatementEntry}
    (hf : f.entries.Backed x.peer.replies own) (c : LedgerCall)
    (hask : (filing Lawful).Asks f (.ledger c)) :
    Appends f ((filing Lawful).observe f (.ledger c) (x.ledgerCall i c).1) own x
      (x.ledgerCall i c).2 := by
  have hbefore := keeps _ (.beforeLedger x.history c)
  have hafter := keeps _ (.afterLedger x.history c)
  cases c with
  | account id =>
    have hcall := interrupted_leavesEntries x (i.ledger x.history (.account id))
      (fun x => (x.engine.ledger.account id, x)) hbefore hafter fun y => ⟨rfl, rfl⟩
    exact appends_nothing hcall.entries (hcall.peer.symm ▸ hf)
  | updateBalance id u =>
    have hcall := interrupted_leavesEntries x (i.ledger x.history (.updateBalance id u))
      (fun x => ((x.engine.ledger.updateBalance id u).1,
        { x with engine := { x.engine with ledger := (x.engine.ledger.updateBalance id u).2 } }))
      hbefore hafter fun y => ⟨y.engine.ledger.entries_updateBalance id u, rfl⟩
    exact appends_nothing hcall.entries (hcall.peer.symm ▸ hf)
  | openStream =>
    obtain ⟨-, hline⟩ := hask
    have hown : own = f.entries.entries := by
      unfold EntryFile.Backed at hf
      rwa [hline] at hf
    -- a stream that was not opened leaves the line idle, whatever is on it
    have hidle : ∀ replies, f.entries.Backed replies own := by
      intro replies
      unfold EntryFile.Backed
      rwa [hline]
    have hcall := interrupted_rule x (i.ledger x.history .openStream)
      (fun x => (.ok (), { x with peer := {} }))
      (fun r y => y.entries = x.entries ∧
        ((filing Lawful).observe f (.ledger .openStream) r).entries.Backed y.peer.replies own)
      ⟨x.entries_others hbefore, hown, rfl⟩
      (fun _ => ⟨x.entries_others hbefore, hidle _⟩)
      (fun _ _ y _ h => ⟨h.1, hidle _⟩)
      fun _ y h => ⟨(y.entries_others hafter).trans h.1, h.2⟩
    exact appends_nothing hcall.1 hcall.2

theorem logCall_leavesEntries (keeps : i.KeepsStatements) (x : Execution) (c : LogCall) :
    x.LeavesEntries (x.logCall i c).2 := by
  have hbefore := keeps _ (.beforeLog x.history c)
  have hafter := keeps _ (.afterLog x.history c)
  cases c with
  | begin =>
    have hcall := interrupted_leavesEntries x (i.log x.history .begin)
      (fun x => (x.engine.log.begin.map fun _ => (), { x with transaction := {} })) hbefore hafter
      fun y => ⟨rfl, rfl⟩
    exact ⟨hcall.entries, hcall.peer⟩
  | insert payment =>
    have hcall := interrupted_leavesEntries x (i.log x.history (.insert payment))
      (·.insertPayment payment) hbefore hafter fun y => ⟨rfl, rfl⟩
    exact ⟨hcall.entries, hcall.peer⟩
  | commit =>
    have hcall := interrupted_leavesEntries x (i.log x.history .commit) commitTransaction hbefore
      hafter fun y => by unfold commitTransaction; split <;> exact ⟨rfl, rfl⟩
    exact ⟨hcall.entries, hcall.peer⟩
  | rollback =>
    have hcall := interrupted_leavesEntries x (i.log x.history .rollback) (fun x => (.ok (), x))
      hbefore hafter fun y => ⟨rfl, rfl⟩
    exact ⟨hcall.entries, hcall.peer⟩
  | find id =>
    have hcall := interrupted_leavesEntries x (i.log x.history (.find id))
      (fun x => (x.engine.log.find id, x)) hbefore hafter fun y => ⟨rfl, rfl⟩
    exact ⟨hcall.entries, hcall.peer⟩
  | involving account =>
    have hcall := interrupted_leavesEntries x (i.log x.history (.involving account))
      (fun x => (x.engine.log.involving account, x)) hbefore hafter fun y => ⟨rfl, rfl⟩
    exact ⟨hcall.entries, hcall.peer⟩

/-- The entry of a request that is served is appended, or the reply to it is an error, or there is no
reply. -/
theorem serveRequest_entries (keeps : i.KeepsStatements) (x : Execution) (request : StatementRequest) :
    ((x.serveRequest i request).entries = x.entries ∧
        ((x.serveRequest i request).peer.replies = x.peer.replies ∨
          ∃ e, (x.serveRequest i request).peer.replies = x.peer.replies ++ [.error e])) ∨
      ((x.serveRequest i request).entries = x.entries ++ [request.entry] ∧
        ∃ reply, (x.serveRequest i request).peer.replies = x.peer.replies ++ [reply]) := by
  have hbefore := keeps _ (.beforeAppend x.history request)
  have hafter := keeps _ (.afterAppend x.history request)
  unfold serveRequest
  simp only
  split
  · exact Or.inl ⟨(x.note (.append request)).entries_others hbefore, Or.inl rfl⟩
  · have hcall := interrupted_rule (x.note (.append request))
      (i.append x.history request).toInterruption
      (fun x => ((Server.handle x.engine.ledger request).1,
        { x with engine := { x.engine with ledger := (Server.handle x.engine.ledger request).2 } }))
      (fun r y => y.peer = x.peer ∧
        (y.entries = x.entries ∧ r.isOk = false ∨ y.entries = x.entries ++ [request.entry]))
      ⟨rfl, ?_⟩
      (fun _ => ⟨rfl, Or.inl ⟨(x.note (.append request)).entries_others hbefore, rfl⟩⟩)
      (fun _ _ _ _ h => ⟨h.1, h.2.imp_left fun h => ⟨h.1, rfl⟩⟩)
      fun _ y h => ⟨h.1, by rw [y.entries_others hafter]; exact h.2⟩
    · obtain ⟨hpeer, hentries⟩ := hcall
      rcases hentries with ⟨hentries, hrefused⟩ | hentries
      · left
        refine ⟨hentries, Or.inr ?_⟩
        rw [← hpeer]
        cases hreply : (interrupted _ _ _).1 with
        | ok ack =>
          rw [hreply] at hrefused
          cases hrefused
        | error e => exact ⟨e, rfl⟩
      · exact Or.inr ⟨hentries, _, by rw [← hpeer]⟩
    · have hothers := (x.note (.append request)).entries_others hbefore
      rcases Ledger.handle_cases
        ((x.note (.append request)).others (i.append x.history request).before).engine.ledger request
        with ⟨hrefused, hentries⟩ | hentries
      · exact Or.inl ⟨hentries.trans hothers, hrefused⟩
      · exact Or.inr (hentries.trans (congrArg (· ++ [request.entry]) hothers))

theorem endStream_entries (keeps : i.KeepsStatements) (x : Execution) :
    (x.endStream i).entries = x.entries := by
  unfold endStream
  split
  · have hbefore := (x.note .streamEnd).entries_others (keeps _ (.beforeEnd x.history))
    exact (Engine.entries_performAll (keeps _ (.afterEnd x.history))).trans hbefore
  · rfl

theorem streamCall_appends (keeps : i.KeepsStatements) {own : List StatementEntry}
    (hf : f.entries.Backed x.peer.replies own) (c : StreamCall)
    (hask : (filing Lawful).Asks f (.stream c)) :
    Appends f ((filing Lawful).observe f (.stream c) (x.streamCall i c).1) own x
      (x.streamCall i c).2 := by
  cases c with
  | send request =>
    obtain ⟨hline, hallowed⟩ := hask
    unfold streamCall
    split
    · obtain ⟨hown, hreplies⟩ : own = f.entries.entries ∧ x.peer.replies = [] := by
        unfold EntryFile.Backed at hf
        rwa [hline] at hf
      rcases serveRequest_entries keeps x request with ⟨hentries, hreply⟩ | ⟨hentries, reply, hreply⟩
      · refine appends_nothing hentries ?_
        rw [hreplies] at hreply
        rcases hreply with hreply | ⟨e, hreply⟩
        · rw [hreply]
          exact ⟨Nat.zero_le _, Or.inl ⟨hown, nofun⟩⟩
        · rw [hreply]
          refine ⟨le_rfl, Or.inl ⟨hown, fun reply hmem => ?_⟩⟩
          rw [List.mem_singleton.mp hmem]
          rfl
      · refine ⟨[request.entry], hentries, ?_, fun entry hentry => ?_⟩
        · rw [hreply, hreplies]
          exact ⟨le_rfl, Or.inr (congrArg (· ++ [request.entry]) hown)⟩
        · exact ⟨request, hallowed, List.mem_singleton.mp hentry⟩
    · exact appends_nothing rfl hf
  | receive =>
    obtain ⟨request, hline⟩ := hask
    cases hreplies : x.peer.replies with
    | nil =>
      have hcall : x.streamCall i .receive = (none, x) := by simp only [streamCall, hreplies]
      rw [hcall]
      refine appends_nothing rfl ?_
      rw [hreplies]
      exact hf.receive_none hline
    | cons reply rest =>
      have hcall : x.streamCall i .receive =
          (some reply, { x with peer := { x.peer with replies := rest } }) := by
        simp only [streamCall, hreplies]
      rw [hcall]
      rw [hreplies] at hf
      exact appends_nothing rfl (hf.receive hline)
  | hangUp => exact appends_nothing (endStream_entries keeps x) hf.hangUp
  | drain =>
    refine appends_nothing rfl ?_
    have hline : f.entries.line = .idle := hask
    show f.entries.Backed [] own
    unfold EntryFile.Backed at hf ⊢
    rwa [hline] at hf ⊢

/-- **A call adds to the statements what its file shows.** -/
theorem answer_entries (keeps : i.KeepsStatements) {own : List StatementEntry}
    (hf : f.entries.Backed x.peer.replies own) (c : LifecycleCall)
    (hask : (filing Lawful).Asks f c) :
    Appends f ((filing Lawful).observe f c (answer i c x).1) own x (answer i c x).2 := by
  cases c with
  | ledger c => exact ledgerCall_appends keeps hf c hask
  | stream c => exact streamCall_appends keeps hf c hask
  | publish event =>
    refine appends_nothing ?_ hf
    show (x.engine.publish event).ledger.store.entries = _
    rw [ledger_publish]
    rfl
  | log c =>
    refine (logCall_leavesEntries keeps x c).appends hf ?_
    show ((filing Lawful).observe f (.log c) (x.logCall i c).1).entries = f.entries
    cases c with
    | begin => cases (x.logCall i .begin).1 <;> rfl
    | insert payment => cases (x.logCall i (.insert payment)).1 <;> rfl
    | commit => cases (x.logCall i .commit).1 <;> rfl
    | rollback => rfl
    | find id => cases (x.logCall i (.find id)).1 <;> rfl
    | involving account => rfl

end Execution

end CardHolds
