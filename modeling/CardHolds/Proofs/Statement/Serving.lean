import CardHolds.Proofs.Statement.Batch
import CardHolds.Proofs.Statement.Wire

/-!
# The ledger side with any caller

A caller need not take turns: it may queue several requests before it reads a reply, close its send
side whenever it likes, and stop listening at any time.  A `Serving` is the ledger side of a stream
with such a caller, together with the requests that were queued and the replies that were delivered so
far.

The ledger side appends first and replies afterwards, so at any time it has appended as many requests
as it has acknowledged, or one more.  `Serving.Stage` says where it stands, one case for each thing it
can be about to do or to have ended with, and no act leads out of these cases (`Stage.act`).

Main statement (`Serving.serves_any_caller`): whatever the caller does, what is appended is a part of
the requests from the front, each once, none of them refused; the replies are their acknowledgements
and perhaps a rejection; and the ledger side ends in one of three ways.
-/

namespace CardHolds

/-! ## Requests to a ledger -/

namespace Ledger

/-- Why the ledger refuses a request, if it does. -/
def refusal? (l : Ledger) (r : StatementRequest) : Option LedgerError :=
  match (l.append r.account r.payment).1 with
  | .ok _ => none
  | .error e => some e

/-- The ledger with the entries of some requests at the end. -/
def appended (l : Ledger) (requests : List StatementRequest) : Ledger :=
  { l with store := l.store.appended requests }

variable {l : Ledger} {r : StatementRequest} {e : LedgerError}

theorem appended_nil (l : Ledger) : l.appended [] = l := by
  rw [appended, LedgerStore.appended, List.map_nil, List.append_nil]

theorem appended_concat (l : Ledger) (requests : List StatementRequest) (r : StatementRequest) :
    (l.appended requests).appended [r] = l.appended (requests ++ [r]) := by
  simp only [appended, LedgerStore.appended_appended]

/-- An append is refused, or adds the entry and answers with the length of the statement. -/
theorem append_spec (l : Ledger) (id : AccountId) (payment : PaymentId) :
    (∃ e, l.append id payment = (.error e, l)) ∨ l.append id payment =
      (.ok ((l.store.appended [⟨id, payment⟩]).statement id).length, l.appended [⟨id, payment⟩]) := by
  obtain ⟨store, closed⟩ := l
  cases closed with
  | true => exact Or.inl ⟨_, rfl⟩
  | false =>
    cases hcontains : store.accounts.contains id with
    | true =>
      refine Or.inr ?_
      simp only [append, change, LedgerStore.append, hcontains, if_true, Bool.false_eq_true, if_false]
      rfl
    | false =>
      refine Or.inl ⟨.accountNotFound id, ?_⟩
      simp only [append, change, LedgerStore.append, hcontains, Bool.false_eq_true, if_false]

/-- A closed ledger refuses every request, an open one those to accounts that do not exist. -/
theorem refusal?_eq (l : Ledger) (r : StatementRequest) : l.refusal? r =
    if l.closed then some (.database .closed)
    else if l.store.accounts.contains r.account then none
    else some (.accountNotFound r.account) := by
  cases hclosed : l.closed with
  | true => simp only [refusal?, append, change, hclosed, if_true]
  | false =>
    cases hr : l.store.accounts.contains r.account <;>
      simp only [refusal?, append, change, LedgerStore.append, hclosed, hr, Bool.false_eq_true,
        if_true, if_false]

/-- Entries do not matter to what the ledger refuses. -/
theorem refusal?_appended (l : Ledger) (requests : List StatementRequest) (r : StatementRequest) :
    (l.appended requests).refusal? r = l.refusal? r := by
  rw [refusal?_eq, refusal?_eq]
  rfl

/-- A request that is refused leaves the ledger as it is. -/
theorem handle_refused (h : l.refusal? r = some e) :
    Server.handle l r = (.error (.rejected e.message), l) := by
  rcases l.append_spec r.account r.payment with ⟨e', he'⟩ | hok
  · rw [refusal?, he'] at h
    cases h
    rw [Server.handle, he']
  · rw [refusal?, hok] at h
    cases h

/-- A request that is not refused gets its entry and its acknowledgement. -/
theorem handle_accepted (h : l.refusal? r = none) :
    Server.handle l r = (.ok (r.acknowledgement (l.store.appended [r])), l.appended [r]) := by
  rcases l.append_spec r.account r.payment with ⟨e', he'⟩ | hok
  · rw [refusal?, he'] at h
    cases h
  · rw [Server.handle, hok]
    rfl

end Ledger

/-! ## Any caller -/

/-- The ledger side of a stream, with the requests that the caller has queued and the replies that
were delivered to it so far. -/
structure Serving where
  server : Server
  queued : List StatementRequest := []
  delivered : List StatementReply := []

namespace Serving

/-- Both sides of a fresh stream. -/
def start (l : Ledger) (capacity : Nat) : Serving where
  server := { ledger := l, exchange := .ofCapacity capacity }

/-- What happens next. -/
inductive Act where
  /-- The ledger side takes a step. -/
  | serve
  /-- The caller queues a request. -/
  | queue (request : StatementRequest)
  /-- The caller takes a reply. -/
  | takeReply
  /-- The caller closes its send side. -/
  | closeSend
  /-- The caller drops its reply end, and with it the replies that it has not taken. -/
  | stopListening

/-- A step of the ledger side; a reply that it puts on the wire is delivered. -/
def served (s : Serving) (server : Server) : Serving :=
  { s with
    server := server
    delivered := s.delivered ++
      server.exchange.replies.queue.drop s.server.exchange.replies.queue.length }

/-- The two channels after an act of the caller. -/
def withExchange (s : Serving) (x : Exchange) : Serving :=
  { s with server := { s.server with exchange := x } }

/-- The serving after an act.  A side that would have to wait does nothing, and so does a caller that
queues a request after it has closed its send side. -/
def act (s : Serving) : Act → Serving
  | .serve =>
    match s.server.step with
    | some server => s.served server
    | none => s
  | .queue request =>
    let x := s.server.exchange
    if x.requests.senderOpen then
      match x.requests.send request with
      | .sent requests =>
        { s.withExchange { x with requests := requests } with queued := s.queued ++ [request] }
      | .gone | .full => s
    else s
  | .takeReply =>
    let x := s.server.exchange
    match x.replies.receive with
    | .message _ replies => s.withExchange { x with replies := replies }
    | .ended | .empty => s
  | .closeSend =>
    let x := s.server.exchange
    s.withExchange { x with requests := x.requests.closeSender }
  | .stopListening =>
    let x := s.server.exchange
    s.withExchange { x with replies := x.replies.closeReceiver }

/-- The serving after some acts. -/
def run (s : Serving) (acts : List Act) : Serving := acts.foldl act s

/-- The replies that acknowledge some requests, appended one after the other. -/
def repliesTo (l : Ledger) (requests : List StatementRequest) : List StatementReply :=
  (l.store.acknowledgements requests).map .ok

theorem repliesTo_concat (l : Ledger) (requests : List StatementRequest) (r : StatementRequest) :
    repliesTo l (requests ++ [r]) = repliesTo l requests ++
      [.ok (r.acknowledgement (l.store.appended (requests ++ [r])))] := by
  rw [repliesTo, LedgerStore.acknowledgements_concat, List.map_append, List.map_singleton, repliesTo]

/-! ## Where the ledger side stands -/

/-- Where the ledger side stands: the requests that it has appended and those it has acknowledged. -/
inductive Stage (l : Ledger) (s : Serving) :
    List StatementRequest → List StatementRequest → Prop
  /-- It takes the next request. -/
  | listening {done : List StatementRequest} (phase : s.server.phase = .listening)
      (split : s.queued = done ++ s.server.exchange.requests.queue)
      (told : s.delivered = repliesTo l done) : Stage l s done done
  /-- It has appended a request and replies to it. -/
  | acknowledging {done : List StatementRequest} {r : StatementRequest}
      (phase : s.server.phase =
        .replying (.ok (r.acknowledgement (l.store.appended (done ++ [r])))))
      (split : s.queued = done ++ r :: s.server.exchange.requests.queue)
      (told : s.delivered = repliesTo l done) : Stage l s (done ++ [r]) done
  /-- It was refused a request and reports it. -/
  | rejecting {done : List StatementRequest} {r : StatementRequest} {e : LedgerError}
      (refused : l.refusal? r = some e)
      (phase : s.server.phase = .replying (.error (.rejected e.message)))
      (split : s.queued = done ++ r :: s.server.exchange.requests.queue)
      (told : s.delivered = repliesTo l done) : Stage l s done done
  /-- It has ended with the last request of a caller that has closed its send side. -/
  | completed {done : List StatementRequest} (phase : s.server.phase = .ended)
      (all : s.queued = done) (closed : s.server.exchange.requests.senderOpen = false)
      (told : s.delivered = repliesTo l done) : Stage l s done done
  /-- It has ended with a request that was refused; a caller that listened was told. -/
  | rejected {done rest : List StatementRequest} {r : StatementRequest} {e : LedgerError}
      (phase : s.server.phase = .ended) (refused : l.refusal? r = some e)
      (split : s.queued = done ++ r :: rest)
      (told : s.delivered = repliesTo l done ++ [.error (.rejected e.message)] ∨
        s.delivered = repliesTo l done ∧ s.server.exchange.replies.receiverOpen = false) :
      Stage l s done done
  /-- It has ended with an entry whose acknowledgement nobody listened to. -/
  | unheard {done rest : List StatementRequest} {r : StatementRequest}
      (phase : s.server.phase = .ended) (split : s.queued = done ++ r :: rest)
      (deaf : s.server.exchange.replies.receiverOpen = false)
      (told : s.delivered = repliesTo l done) : Stage l s (done ++ [r]) done

/-- What the ledger holds, and where the ledger side stands. -/
structure Keeps (l : Ledger) (s : Serving) (appended acknowledged : List StatementRequest) : Prop where
  ledger : s.server.ledger = l.appended appended
  accepted : ∀ r ∈ appended, l.refusal? r = none
  stage : Stage l s appended acknowledged

theorem keeps_start (l : Ledger) (capacity : Nat) : Keeps l (start l capacity) [] [] :=
  ⟨l.appended_nil.symm, fun _ h => absurd h List.not_mem_nil, .listening rfl rfl rfl⟩

/-- What an act of the caller leaves as it is: it only adds requests, and what it has closed stays
closed. -/
structure Leaves (s s' : Serving) (new : List StatementRequest) : Prop where
  ledger : s'.server.ledger = s.server.ledger
  phase : s'.server.phase = s.server.phase
  delivered : s'.delivered = s.delivered
  queued : s'.queued = s.queued ++ new
  waiting : s'.server.exchange.requests.queue = s.server.exchange.requests.queue ++ new
  closed : s.server.exchange.requests.senderOpen = false →
    s'.server.exchange.requests.senderOpen = false ∧ new = []
  deaf : s.server.exchange.replies.receiverOpen = false →
    s'.server.exchange.replies.receiverOpen = false

section Step
variable {l : Ledger} {s s' : Serving} {appended acknowledged new : List StatementRequest}

theorem Leaves.refl (s : Serving) : Leaves s s [] :=
  ⟨rfl, rfl, rfl, (List.append_nil _).symm, (List.append_nil _).symm, fun h => ⟨h, rfl⟩, id⟩

theorem Stage.leaves (h : Stage l s appended acknowledged) (hs : Leaves s s' new) :
    Stage l s' appended acknowledged := by
  have hdelivered := hs.delivered
  cases h with
  | listening phase split told =>
    refine .listening (hs.phase.trans phase) ?_ (hdelivered.trans told)
    rw [hs.queued, split, hs.waiting, List.append_assoc]
  | acknowledging phase split told =>
    refine .acknowledging (hs.phase.trans phase) ?_ (hdelivered.trans told)
    rw [hs.queued, split, hs.waiting, List.append_assoc, List.cons_append]
  | rejecting refused phase split told =>
    refine .rejecting refused (hs.phase.trans phase) ?_ (hdelivered.trans told)
    rw [hs.queued, split, hs.waiting, List.append_assoc, List.cons_append]
  | completed phase all closed told =>
    obtain ⟨hclosed, hnew⟩ := hs.closed closed
    refine .completed (hs.phase.trans phase) ?_ hclosed (hdelivered.trans told)
    rw [hs.queued, hnew, List.append_nil, all]
  | rejected phase refused split told =>
    rename_i rest r e
    have hsplit : s'.queued = appended ++ r :: (rest ++ new) := by
      rw [hs.queued, split, List.append_assoc, List.cons_append]
    exact .rejected (hs.phase.trans phase) refused hsplit
      (told.imp hdelivered.trans fun h => ⟨hdelivered.trans h.1, hs.deaf h.2⟩)
  | unheard phase split deaf told =>
    rename_i rest r
    have hsplit : s'.queued = acknowledged ++ r :: (rest ++ new) := by
      rw [hs.queued, split, List.append_assoc, List.cons_append]
    exact .unheard (hs.phase.trans phase) hsplit (hs.deaf deaf) (hdelivered.trans told)

/-- An act of the caller adds at most one request. -/
theorem exists_leaves (s : Serving) {a : Act} (h : a ≠ .serve) : ∃ new, Leaves s (s.act a) new := by
  cases a with
  | serve => exact absurd rfl h
  | queue request =>
    simp only [act]
    split
    · rename_i hopen
      split
      · rename_i requests hsent
        have hchannel := (Channel.send_sent hsent).2
        refine ⟨[request], rfl, rfl, rfl, rfl, ?_, fun hclosed => ?_, id⟩
        · simp only [withExchange, hchannel]
        · rw [hopen] at hclosed
          cases hclosed
      · exact ⟨[], .refl s⟩
      · exact ⟨[], .refl s⟩
    · exact ⟨[], .refl s⟩
  | takeReply =>
    simp only [act]
    split
    · rename_i reply replies hreceived
      refine ⟨[], rfl, rfl, rfl, (List.append_nil _).symm, (List.append_nil _).symm,
        fun hclosed => ⟨hclosed, rfl⟩, fun hdeaf => ?_⟩
      exact (congrArg Channel.receiverOpen (Channel.receive_message hreceived).2).trans hdeaf
    · exact ⟨[], .refl s⟩
    · exact ⟨[], .refl s⟩
  | closeSend =>
    exact ⟨[], rfl, rfl, rfl, (List.append_nil _).symm, (List.append_nil _).symm,
      fun _ => ⟨rfl, rfl⟩, id⟩
  | stopListening =>
    exact ⟨[], rfl, rfl, rfl, (List.append_nil _).symm, (List.append_nil _).symm,
      fun hclosed => ⟨hclosed, rfl⟩, fun _ => rfl⟩

/-- The ledger side takes the next request and handles it. -/
theorem Keeps.take (h : Keeps l s appended appended) {r : StatementRequest}
    {requests : Channel StatementRequest}
    (split : s.queued = appended ++ s.server.exchange.requests.queue)
    (told : s.delivered = repliesTo l appended)
    (taken : s.server.exchange.requests.receive = .message r requests) :
    ∃ appended', Keeps l
      (s.served ⟨(Server.handle s.server.ledger r).2,
        { s.server.exchange with requests := requests },
        .replying (Server.handle s.server.ledger r).1⟩) appended' appended := by
  obtain ⟨hqueue, -⟩ := Channel.receive_message taken
  rw [hqueue] at split
  have hdelivered : s.delivered ++ s.server.exchange.replies.queue.drop
      s.server.exchange.replies.queue.length = repliesTo l appended := by
    rw [List.drop_length, List.append_nil, told]
  rw [h.ledger]
  cases hrefusal : l.refusal? r with
  | some e =>
    rw [Ledger.handle_refused ((Ledger.refusal?_appended l appended r).trans hrefusal)]
    exact ⟨appended, rfl, h.accepted, .rejecting hrefusal rfl split hdelivered⟩
  | none =>
    rw [Ledger.handle_accepted ((Ledger.refusal?_appended l appended r).trans hrefusal),
      Ledger.appended_concat, Ledger.appended, LedgerStore.appended_appended]
    refine ⟨appended ++ [r], rfl, fun r' hr' => ?_, .acknowledging rfl split hdelivered⟩
    rcases List.mem_append.mp hr' with hmem | hmem
    · exact h.accepted r' hmem
    · rw [List.mem_singleton.mp hmem, hrefusal]

/-- How a reply turns out. -/
inductive Replied (s : Serving) (reply : StatementReply) (s' : Serving) : Prop
  | acknowledged (ok : reply.isOk = true) (phase : s'.server.phase = .listening)
      (requests : s'.server.exchange.requests = s.server.exchange.requests)
      (told : s'.delivered = s.delivered ++ [reply])
  | rejected (error : reply.isOk = false) (phase : s'.server.phase = .ended)
      (told : s'.delivered = s.delivered ++ [reply])
  | unheard (phase : s'.server.phase = .ended)
      (deaf : s'.server.exchange.replies.receiverOpen = false) (told : s'.delivered = s.delivered)

/-- The ledger side sends its reply, unless nobody listens. -/
theorem replied_of_step {reply : StatementReply} {server : Server}
    (phase : s.server.phase = .replying reply) (hstep : s.server.step = some server) :
    server.ledger = s.server.ledger ∧ Replied s reply (s.served server) := by
  simp only [Server.step, phase, Exchange.putReply] at hstep
  split at hstep
  · rename_i replies hsent
    have hchannel := (Channel.send_sent hsent).2
    have htold : s.delivered ++ replies.queue.drop s.server.exchange.replies.queue.length =
        s.delivered ++ [reply] := by
      rw [hchannel, List.drop_left]
    cases hstep
    cases hreply : reply.isOk with
    | true => exact ⟨rfl, .acknowledged hreply rfl rfl htold⟩
    | false => exact ⟨rfl, .rejected hreply rfl htold⟩
  · rename_i hgone
    cases hstep
    have hdeaf : s.server.exchange.replies.receiverOpen = false := Channel.send_gone hgone
    refine ⟨rfl, .unheard rfl hdeaf ?_⟩
    show s.delivered ++ s.server.exchange.replies.queue.drop
      s.server.exchange.replies.queue.length = s.delivered
    rw [List.drop_length, List.append_nil]
  · cases hstep

/-- A step of the ledger side leads to the next stage. -/
theorem Keeps.step (h : Keeps l s appended acknowledged) {server : Server}
    (hstep : s.server.step = some server) :
    ∃ appended' acknowledged', Keeps l (s.served server) appended' acknowledged' := by
  cases h.stage with
  | listening phase split told =>
    simp only [Server.step, phase, Exchange.takeRequest] at hstep
    split at hstep
    · rename_i r requests taken
      cases hstep
      obtain ⟨appended', h'⟩ := h.take split told taken
      exact ⟨appended', _, h'⟩
    · rename_i hended
      cases hstep
      obtain ⟨hqueue, hclosed⟩ := Channel.receive_ended hended
      rw [hqueue, List.append_nil] at split
      refine ⟨_, _, h.ledger, h.accepted, .completed rfl split hclosed ?_⟩
      show s.delivered ++ s.server.exchange.replies.queue.drop
        s.server.exchange.replies.queue.length = _
      rw [List.drop_length, List.append_nil, told]
    · cases hstep
  | acknowledging phase split told =>
    rename_i r
    obtain ⟨hledger, hreplied⟩ := replied_of_step phase hstep
    refine ⟨acknowledged ++ [r], ?_⟩
    cases hreplied with
    | acknowledged ok phase' requests' told' =>
      refine ⟨_, hledger.trans h.ledger, h.accepted, .listening phase' ?_ ?_⟩
      · rw [requests', List.append_assoc, List.singleton_append]
        exact split
      · rw [told', told, repliesTo_concat]
    | rejected error => cases error
    | unheard phase' deaf' told' =>
      exact ⟨_, hledger.trans h.ledger, h.accepted, .unheard phase' split deaf' (told'.trans told)⟩
  | rejecting refused phase split told =>
    obtain ⟨hledger, hreplied⟩ := replied_of_step phase hstep
    refine ⟨appended, appended, hledger.trans h.ledger, h.accepted, ?_⟩
    cases hreplied with
    | acknowledged ok => cases ok
    | rejected error phase' told' =>
      exact .rejected phase' refused split (Or.inl (by rw [told', told]))
    | unheard phase' deaf' told' =>
      exact .rejected phase' refused split (Or.inr ⟨told'.trans told, deaf'⟩)
  | completed phase | rejected phase | unheard phase =>
    rw [Server.step, phase] at hstep
    cases hstep

theorem Keeps.act (h : Keeps l s appended acknowledged) (a : Act) :
    ∃ appended' acknowledged', Keeps l (s.act a) appended' acknowledged' := by
  by_cases ha : a = .serve
  · rw [ha, Serving.act]
    split
    · rename_i server hstep
      exact h.step hstep
    · exact ⟨appended, acknowledged, h⟩
  · obtain ⟨new, hleaves⟩ := s.exists_leaves ha
    exact ⟨appended, acknowledged, hleaves.ledger.trans h.ledger, h.accepted, h.stage.leaves hleaves⟩

theorem Keeps.run (h : Keeps l s appended acknowledged) (acts : List Act) :
    ∃ appended' acknowledged', Keeps l (s.run acts) appended' acknowledged' := by
  induction acts generalizing s appended acknowledged with
  | nil => exact ⟨appended, acknowledged, h⟩
  | cons a rest ih =>
    obtain ⟨appended', acknowledged', h'⟩ := h.act a
    exact ih h'

end Step

/-! ## What any caller gets -/

/-- How the ledger side has ended. -/
inductive Ending (l : Ledger) (s : Serving) (appended acknowledged : List StatementRequest) : Prop
  /-- The caller has closed its send side, and all its requests are appended and acknowledged. -/
  | completed (same : acknowledged = appended) (all : appended = s.queued)
      (closed : s.server.exchange.requests.senderOpen = false)
      (told : s.delivered = repliesTo l appended)
  /-- The next request is refused, and the caller was told so, unless it no longer listened. -/
  | rejected (same : acknowledged = appended) (r : StatementRequest) (e : LedgerError)
      (next : appended ++ [r] <+: s.queued) (refused : l.refusal? r = some e)
      (told : s.delivered = repliesTo l appended ++ [.error (.rejected e.message)] ∨
        s.delivered = repliesTo l appended ∧ s.server.exchange.replies.receiverOpen = false)
  /-- The caller no longer listened to the acknowledgement of the last request. -/
  | unheard (r : StatementRequest) (last : appended = acknowledged ++ [r])
      (deaf : s.server.exchange.replies.receiverOpen = false)
      (told : s.delivered = repliesTo l acknowledged)

/-- What holds of the ledger side at any time, with the requests that it has appended and those whose
acknowledgements it has delivered. -/
structure Serves (l : Ledger) (s : Serving) (appended acknowledged : List StatementRequest) : Prop where
  /-- The entries of the appended requests, one each, are all that was written. -/
  ledger : s.server.ledger = l.appended appended
  /-- They are the first of the requests that the caller has queued. -/
  inOrder : appended <+: s.queued
  accepted : ∀ r ∈ appended, l.refusal? r = none
  /-- One request at most is appended and not acknowledged. -/
  inTurn : appended = acknowledged ∨ ∃ r, appended = acknowledged ++ [r]
  replies : s.server.phase ≠ .ended → s.delivered = repliesTo l acknowledged
  ending : s.server.phase = .ended → Ending l s appended acknowledged
  /-- The ledger side waits only for the next request, or for a caller that listens and has to take a
  reply first. -/
  waits : s.server.step = none → s.server.phase = .ended ∨
    (acknowledged = s.queued ∧ s.server.exchange.requests.senderOpen = true) ∨
      (s.server.exchange.replies.receiverOpen = true ∧
        s.server.exchange.replies.capacity ≤ s.server.exchange.replies.queue.length)

section Outcome
variable {l : Ledger} {s : Serving} {appended acknowledged : List StatementRequest}

theorem prefix_of_split {queued done rest : List StatementRequest} {r : StatementRequest}
    (h : queued = done ++ r :: rest) : done ++ [r] <+: queued :=
  ⟨rest, h ▸ (List.append_cons done r rest).symm⟩

theorem waits_of_replying {reply : StatementReply} (phase : s.server.phase = .replying reply)
    (h : s.server.step = none) : s.server.exchange.replies.receiverOpen = true ∧
      s.server.exchange.replies.capacity ≤ s.server.exchange.replies.queue.length := by
  simp only [Server.step, phase, Exchange.putReply] at h
  split at h
  · cases h
  · cases h
  · rename_i hfull
    exact Channel.send_full hfull

theorem Keeps.serves (h : Keeps l s appended acknowledged) : Serves l s appended acknowledged := by
  cases h.stage with
  | listening phase split told =>
    refine ⟨h.ledger, ⟨_, split.symm⟩, h.accepted, Or.inl rfl, fun _ => told, fun hended => ?_,
      fun hwaits => Or.inr (Or.inl ?_)⟩
    · rw [phase] at hended
      cases hended
    · simp only [Server.step, phase, Exchange.takeRequest] at hwaits
      split at hwaits
      · cases hwaits
      · cases hwaits
      · rename_i hempty
        obtain ⟨hqueue, hopen⟩ := Channel.receive_empty hempty
        rw [hqueue, List.append_nil] at split
        exact ⟨split.symm, hopen⟩
  | acknowledging phase split told =>
    rename_i r
    have hprefix : acknowledged ++ [r] <+: s.queued := prefix_of_split split
    refine ⟨h.ledger, hprefix, h.accepted, Or.inr ⟨r, rfl⟩, fun _ => told, fun hended => ?_,
      fun hwaits => Or.inr (Or.inr (waits_of_replying phase hwaits))⟩
    rw [phase] at hended
    cases hended
  | rejecting refused phase split told =>
    refine ⟨h.ledger, ⟨_, split.symm⟩, h.accepted, Or.inl rfl, fun _ => told, fun hended => ?_,
      fun hwaits => Or.inr (Or.inr (waits_of_replying phase hwaits))⟩
    rw [phase] at hended
    cases hended
  | completed phase all closed told =>
    exact ⟨h.ledger, all ▸ List.prefix_rfl, h.accepted, Or.inl rfl, fun hne => absurd phase hne,
      fun _ => .completed rfl all.symm closed told, fun _ => Or.inl phase⟩
  | rejected phase refused split told =>
    rename_i rest r e
    have hnext : appended ++ [r] <+: s.queued := prefix_of_split split
    exact ⟨h.ledger, ⟨_, split.symm⟩, h.accepted, Or.inl rfl, fun hne => absurd phase hne,
      fun _ => .rejected rfl r e hnext refused told, fun _ => Or.inl phase⟩
  | unheard phase split deaf told =>
    rename_i rest r
    have hprefix : acknowledged ++ [r] <+: s.queued := prefix_of_split split
    exact ⟨h.ledger, hprefix, h.accepted, Or.inr ⟨r, rfl⟩, fun hne => absurd phase hne,
      fun _ => .unheard r rfl deaf told, fun _ => Or.inl phase⟩

/-- **The ledger side serves any caller safely.**  Over a stream of any capacity, and whatever the
caller and the ledger side do in turn: what has been appended are the first of the queued requests,
each once, up to the first that the ledger refuses at most; the replies are their acknowledgements in
order, one fewer perhaps, and after a refusal the rejection. -/
theorem serves_any_caller (l : Ledger) (capacity : Nat) (acts : List Act) :
    ∃ appended acknowledged, Serves l ((start l capacity).run acts) appended acknowledged := by
  obtain ⟨appended, acknowledged, h⟩ := (keeps_start l capacity).run acts
  exact ⟨appended, acknowledged, h.serves⟩

end Outcome

end Serving

end CardHolds
