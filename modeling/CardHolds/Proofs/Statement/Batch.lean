import CardHolds.Proofs.Engine.Entries
import CardHolds.Proofs.Ledger.Versions
import CardHolds.Statement.Propagator

/-!
# A batch of statement requests on either side

For the caller a batch is a program with a few forms that recur for every request: the requests that
are left (`Batch.rest`), the wait for an acknowledgement (`Batch.awaiting`), and the two ends, after
an error (`Batch.giveUp`) and after the last request (`Batch.draining`).

For the ledger a batch is a list of entries that are appended one after the other.  Each
acknowledgement carries the length of the statement with its own entry as the last one
(`LedgerStore.acknowledgements`).  `Ledger.Carries` says what a ledger has become after some requests
of a batch, when others do nothing about statements or the accounts of the batch.
-/

namespace CardHolds

theorem Program.ask_congr {I : Interface} {α : Type} {call : I.Call}
    {next next' : I.Reply call → Program I α} (h : ∀ reply, next reply = next' reply) :
    ask call next = ask call next' :=
  congrArg (ask call) (funext h)

/-! ## What the caller has still to do -/

namespace Batch

/-- The end of a batch: the stream is closed, unless an append has failed. -/
def finish : Except StreamError Unit × Propagator →
    Program streamCalls (Except StreamError (List StatementAck))
  | (.error e, _) => .done (.error e)
  | (.ok (), p) => do
    match ← p.close with
    | (.error e, _) => return .error e
    | (.ok (), p') => return .ok p'.acknowledged

/-- The requests that are left of a batch, with what was acknowledged before. -/
def rest (acks : List StatementAck) (requests : List StatementRequest) :
    Program streamCalls (Except StreamError (List StatementAck)) :=
  (({ acknowledged := acks } : Propagator).appendAll requests).bind finish

/-- The caller closes its send side and reports an error. -/
def giveUp (e : StreamError) : Program streamCalls (Except StreamError (List StatementAck)) :=
  .ask .hangUp fun _ => .done (.error e)

/-- The caller waits for the acknowledgement of a request. -/
def awaiting (acks : List StatementAck) (request : StatementRequest)
    (requests : List StatementRequest) :
    Program streamCalls (Except StreamError (List StatementAck)) :=
  .ask .receive fun
    | none => giveUp .missingAck
    | some (.error e) => giveUp e
    | some (.ok ack) =>
      if request.acknowledgedBy ack then rest (acks ++ [ack]) requests
      else giveUp (.ackMismatch request.label ack.label)

/-- The caller has closed its send side and waits for the ledger side to end. -/
def draining (acks : List StatementAck) :
    Program streamCalls (Except StreamError (List StatementAck)) :=
  .ask .drain fun
    | none => .done (.ok acks)
    | some e => .done (.error e)

theorem propagate_eq (requests : List StatementRequest) : propagate requests = rest [] requests :=
  rfl

theorem rest_nil (acks : List StatementAck) :
    rest acks [] = .ask .hangUp fun _ => draining acks := by
  refine Program.ask_congr fun _ => ?_
  refine Program.ask_congr fun error => ?_
  cases error <;> rfl

theorem bind_awaitAck (acks : List StatementAck) (request : StatementRequest)
    (requests : List StatementRequest) :
    ((({ turn := .awaitingAck request, acknowledged := acks } : Propagator).awaitAck.bind fun
      | (.ok _, p) => p.appendAll requests
      | (.error e, p) => .done (.error e, p)).bind finish) = awaiting acks request requests := by
  refine Program.ask_congr fun reply => ?_
  rcases reply with _ | (e | ack)
  · rfl
  · rfl
  · simp only [Program.bind_done]
    cases request.acknowledgedBy ack <;> rfl

theorem rest_cons (acks : List StatementAck) (request : StatementRequest)
    (requests : List StatementRequest) :
    rest acks (request :: requests) = .ask (.send request) fun taken =>
      if taken then awaiting acks request requests else giveUp (.send "channel closed") := by
  refine Program.ask_congr fun taken => ?_
  cases taken with
  | false => rfl
  | true => exact bind_awaitAck acks request requests

end Batch

/-! ## What the ledger holds -/

/-- The store with the entries of some requests at the end. -/
def LedgerStore.appended (s : LedgerStore) (requests : List StatementRequest) : LedgerStore :=
  { s with entries := s.entries ++ requests.map StatementRequest.entry }

/-- The acknowledgement of a request, in a store in which its entry is the last one. -/
def StatementRequest.acknowledgement (request : StatementRequest) (s : LedgerStore) : StatementAck :=
  ⟨request.account, request.payment, (s.statement request.account).length⟩

/-- The acknowledgements of requests whose entries are appended one after the other. -/
def LedgerStore.acknowledgements (s : LedgerStore) : List StatementRequest → List StatementAck
  | [] => []
  | request :: rest =>
    request.acknowledgement (s.appended [request]) ::
      (s.appended [request]).acknowledgements rest

/-- The ledger refuses a request to an account that does not exist. -/
def StatementRequest.rejection (request : StatementRequest) : StreamError :=
  .rejected (LedgerError.accountNotFound request.account).message

namespace LedgerStore

theorem appended_appended (s : LedgerStore) (before after : List StatementRequest) :
    (s.appended before).appended after = s.appended (before ++ after) := by
  simp only [appended, List.map_append, List.append_assoc]

theorem acknowledgements_concat (s : LedgerStore) (before : List StatementRequest)
    (request : StatementRequest) :
    s.acknowledgements (before ++ [request]) = s.acknowledgements before ++
      [request.acknowledgement (s.appended (before ++ [request]))] := by
  induction before generalizing s with
  | nil => rfl
  | cons first rest ih =>
    rw [List.cons_append, acknowledgements, ih, appended_appended]
    rfl

end LedgerStore

theorem StatementRequest.acknowledgedBy_acknowledgement (request : StatementRequest)
    (s : LedgerStore) : request.acknowledgedBy (request.acknowledgement s) = true := by
  simp only [acknowledgedBy, acknowledgement, decide_true, Bool.and_self]

namespace Ledger

/-- What has become of a ledger to which some of the requests of a batch were appended, and to which
others may have done what is not about these accounts and no statement. -/
structure Carries (store : LedgerStore) (requests appended : List StatementRequest) (l : Ledger) :
    Prop where
  isOpen : l.closed = false
  entries : l.store.entries = (store.appended appended).entries
  same : ∀ r ∈ requests, l.store.accounts.contains r.account = store.accounts.contains r.account
  exist : ∀ r ∈ appended, store.accounts.contains r.account = true

variable {store : LedgerStore} {requests appended : List StatementRequest} {l : Ledger}

theorem carries_start (store : LedgerStore) (requests : List StatementRequest) :
    Carries store requests [] { store := store } :=
  ⟨rfl, (List.append_nil _).symm, fun _ _ => rfl, fun _ h => absurd h List.not_mem_nil⟩

/-- A request to an account that exists is acknowledged. -/
theorem Carries.handle {r : StatementRequest} (h : Carries store requests appended l)
    (hr : r ∈ requests) (hexists : store.accounts.contains r.account = true) :
    ∃ l', Server.handle l r = (.ok (r.acknowledgement (store.appended (appended ++ [r]))), l') ∧
      Carries store requests (appended ++ [r]) l' := by
  have hcontains : l.store.accounts.contains r.account = true := (h.same r hr).trans hexists
  have hentries : l.store.entries ++ [r.entry] = (store.appended (appended ++ [r])).entries := by
    rw [h.entries, LedgerStore.appended, LedgerStore.appended, List.map_append, List.append_assoc]
    rfl
  refine ⟨{ l with store := { l.store with entries := l.store.entries ++ [r.entry] } }, ?_,
    h.isOpen, hentries, h.same, fun r' hr' => ?_⟩
  · have hlength : (LedgerStore.statement { l.store with entries := l.store.entries ++ [r.entry] }
        r.account).length = ((store.appended (appended ++ [r])).statement r.account).length := by
      rw [LedgerStore.statement, LedgerStore.statement, ← hentries]
    rw [StatementRequest.acknowledgement, ← hlength]
    simp only [Server.handle, append, change, LedgerStore.append, h.isOpen, hcontains, if_true,
      Bool.false_eq_true, if_false]
    rfl
  · rcases List.mem_append.mp hr' with hmem | hmem
    · exact h.exist r' hmem
    · rw [List.mem_singleton.mp hmem]
      exact hexists

/-- A request to an account that does not exist is refused. -/
theorem Carries.handle_missing {r : StatementRequest} (h : Carries store requests appended l)
    (hr : r ∈ requests) (hmissing : store.accounts.contains r.account = false) :
    Server.handle l r = (.error r.rejection, l) := by
  obtain ⟨held, closed⟩ := l
  have hopen : closed = false := h.isOpen
  have hcontains : held.accounts.contains r.account = false := (h.same r hr).trans hmissing
  simp only [Server.handle, append, change, LedgerStore.append, hopen, hcontains,
    Bool.false_eq_true, if_false]
  rfl

/-- The operation neither writes statements nor opens one of the accounts. -/
def Command.Leaves (requests : List StatementRequest) (fresh : AccountId) (command : Command) :
    Prop :=
  command.keepsStatements = true ∧ (command.opens = true → ∀ r ∈ requests, r.account ≠ fresh)

instance (requests : List StatementRequest) (fresh : AccountId) (command : Command) :
    Decidable (command.Leaves requests fresh) :=
  inferInstanceAs (Decidable (_ ∧ _))

theorem advances_change {α : Type} {x : AccountId} (l : Ledger)
    {operation : LedgerStore → Except LedgerError α × LedgerStore}
    (h : LedgerStore.Advances x l.store (operation l.store).2) :
    LedgerStore.Advances x l.store (l.change operation).2.store := by
  rcases l.store_change operation with hstore | hstore
  · rw [hstore]
    exact LedgerStore.advances_of_eq rfl
  · rwa [hstore]

theorem advances_perform {x : AccountId} (l : Ledger) {fresh : AccountId} (now : Timestamp)
    {command : Command} (keeps : command.keepsStatements = true)
    (hx : command.opens = true → x ≠ fresh) :
    LedgerStore.Advances x l.store (l.perform fresh now command).2.store := by
  cases command with
  | create details => exact l.advances_change (LedgerStore.advances_insert (hx rfl) now details)
  | account id => exact LedgerStore.advances_of_eq rfl
  | statement id => exact LedgerStore.advances_of_eq rfl
  | amend id update => exact l.advances_change (LedgerStore.advances_amend id update)
  | delete id => cases keeps
  | deposit card amount => exact l.advances_change (LedgerStore.advances_deposit card amount)
  | updateBalance id update =>
    exact l.advances_change (LedgerStore.advances_updateBalance id update)
  | append id payment => cases keeps

theorem Carries.others {fresh : AccountId} {command : Command}
    (h : Carries store requests appended l) (hleaves : command.Leaves requests fresh)
    (now : Timestamp) : Carries store requests appended (l.perform fresh now command).2 := by
  refine ⟨(l.closed_perform fresh now command).trans h.isOpen,
    (l.entries_perform fresh now hleaves.1).trans h.entries, fun r hr => ?_, h.exist⟩
  have hadvances := l.advances_perform now hleaves.1 fun hopens => hleaves.2 hopens r hr
  rw [← h.same r hr, Table.contains, Table.contains, Bool.eq_iff_iff, Option.isSome_iff_ne_none,
    Option.isSome_iff_ne_none, ne_eq, ne_eq, hadvances.find?_eq_none_iff]

end Ledger

end CardHolds
