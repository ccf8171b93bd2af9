import CardHolds.Proofs.Statement.Batch
import CardHolds.Proofs.Statement.Moves

/-!
# The two sides of a statement stream together

A `Dialogue` is the caller of a batch and the ledger side of its stream, each with its next step.  The
two take turns by themselves: at every stage of a dialogue one side can take a step and the other has
to wait (`Dialogue.Follows.next`), so a schedule decides only when the next step is taken.

Main statement (`Dialogue.run_outcome`): whatever the capacity of the channels and the schedule, no
channel ever holds more than one message, the number of steps is bounded, and when neither side can
take one both have ended, with the outcome that the requests and the accounts determine.
-/

namespace CardHolds

open Exchange

/-! ## Both sides -/

/-- The caller of a batch and the ledger side of its stream, which also keeps the two channels. -/
structure Dialogue where
  caller : Program streamCalls (Except StreamError (List StatementAck))
  server : Server

namespace Dialogue

/-- A batch over a fresh stream to an open ledger. -/
def start (store : LedgerStore) (requests : List StatementRequest) (capacity : Nat) : Dialogue where
  caller := propagate requests
  server := { ledger := { store := store }, exchange := .ofCapacity capacity }

/-- The next move of the caller, if it can make one. -/
def callerStep (d : Dialogue) : Option Dialogue :=
  (d.server.exchange.advance d.caller).map fun (caller, exchange) =>
    { caller := caller, server := { d.server with exchange := exchange } }

/-- The next step of the ledger side, if it can take one. -/
def serverStep (d : Dialogue) : Option Dialogue :=
  d.server.step.map fun server => { d with server := server }

/-- Who acts next. -/
inductive Act where
  | caller
  | server
  /-- Somebody else changes the ledger. -/
  | others (fresh : AccountId) (now : Timestamp) (command : Ledger.Command)

/-- Others leave the statements and the accounts of the batch as they are. -/
def Act.Quiet (requests : List StatementRequest) : Act → Prop
  | caller | server => True
  | others fresh _ command => command.Leaves requests fresh

instance (requests : List StatementRequest) (a : Act) : Decidable (a.Quiet requests) :=
  match a with
  | .caller | .server => inferInstanceAs (Decidable True)
  | .others fresh _ command => inferInstanceAs (Decidable (command.Leaves requests fresh))

/-- The step that is taken, if any: a side that waits takes none. -/
def step? (d : Dialogue) : Act → Option Dialogue
  | .caller => d.callerStep
  | .server => d.serverStep
  | .others _ _ _ => none

/-- The dialogue after an act. -/
def act (d : Dialogue) : Act → Dialogue
  | .others fresh now command =>
    { d with server := { d.server with ledger := (d.server.ledger.perform fresh now command).2 } }
  | side => (d.step? side).getD d

/-- The dialogue after some acts. -/
def run (d : Dialogue) (acts : List Act) : Dialogue := acts.foldl act d

/-- How many steps the two sides have taken in some acts. -/
def stepsTaken (d : Dialogue) : List Act → Nat
  | [] => 0
  | a :: rest => ((d.step? a).elim 0 fun _ => 1) + (d.act a).stepsTaken rest

/-- What the caller has been told, once it is done. -/
def result? (d : Dialogue) : Option (Except StreamError (List StatementAck)) :=
  match d.caller with
  | .done result => some result
  | .ask _ _ => none

/-! ## The stages of a dialogue -/

/-- Two open channels with these messages in them. -/
def wire (capacity : Nat) (requests : List StatementRequest) (replies : List StatementReply) :
    Exchange where
  requests := { capacity := max 1 capacity, queue := requests }
  replies := { capacity := max 1 capacity, queue := replies }

/-- The ledger side has ended; the caller may have some replies to take. -/
def abandoned (capacity : Nat) (replies : List StatementReply) : Exchange :=
  (wire capacity [] replies).dropRequests.dropReplies

/-- The caller has closed its send side. -/
def hungUp (x : Exchange) : Exchange :=
  { x with requests := x.requests.closeSender }

/-- How far a dialogue has come: the requests that were appended, the number of steps, what the caller
has still to do, the channels, and what the ledger side does next. -/
inductive Stage (store : LedgerStore) (requests : List StatementRequest) (capacity : Nat) :
    List StatementRequest → Nat → Program streamCalls (Except StreamError (List StatementAck)) →
      Exchange → ServerPhase → Prop
  | ready {before rest : List StatementRequest} (split : requests = before ++ rest) :
    Stage store requests capacity before (4 * before.length)
      (Batch.rest (store.acknowledgements before) rest) (wire capacity [] []) .listening
  | sent {before rest : List StatementRequest} {r : StatementRequest}
      (split : requests = before ++ r :: rest) :
    Stage store requests capacity before (4 * before.length + 1)
      (Batch.awaiting (store.acknowledgements before) r rest) (wire capacity [r] []) .listening
  | handled {before rest : List StatementRequest} {r : StatementRequest}
      (split : requests = before ++ r :: rest) :
    Stage store requests capacity (before ++ [r]) (4 * before.length + 2)
      (Batch.awaiting (store.acknowledgements before) r rest) (wire capacity [] [])
      (.replying (.ok (r.acknowledgement (store.appended (before ++ [r])))))
  | acknowledged {before rest : List StatementRequest} {r : StatementRequest}
      (split : requests = before ++ r :: rest) :
    Stage store requests capacity (before ++ [r]) (4 * before.length + 3)
      (Batch.awaiting (store.acknowledgements before) r rest)
      (wire capacity [] [.ok (r.acknowledgement (store.appended (before ++ [r])))]) .listening
  | refused {before rest : List StatementRequest} {r : StatementRequest}
      (split : requests = before ++ r :: rest)
      (missing : store.accounts.contains r.account = false) :
    Stage store requests capacity before (4 * before.length + 2)
      (Batch.awaiting (store.acknowledgements before) r rest) (wire capacity [] [])
      (.replying (.error r.rejection))
  | rejected {before rest : List StatementRequest} {r : StatementRequest}
      (split : requests = before ++ r :: rest)
      (missing : store.accounts.contains r.account = false) :
    Stage store requests capacity before (4 * before.length + 3)
      (Batch.awaiting (store.acknowledgements before) r rest)
      (abandoned capacity [.error r.rejection]) .ended
  | givingUp {before rest : List StatementRequest} {r : StatementRequest}
      (split : requests = before ++ r :: rest)
      (missing : store.accounts.contains r.account = false) :
    Stage store requests capacity before (4 * before.length + 4)
      (Batch.giveUp r.rejection) (abandoned capacity []) .ended
  | failed {before rest : List StatementRequest} {r : StatementRequest}
      (split : requests = before ++ r :: rest)
      (missing : store.accounts.contains r.account = false) :
    Stage store requests capacity before (4 * before.length + 5)
      (.done (.error r.rejection)) (hungUp (abandoned capacity [])) .ended
  | closing :
    Stage store requests capacity requests (4 * requests.length + 1)
      (Batch.draining (store.acknowledgements requests)) (hungUp (wire capacity [] [])) .listening
  | closed :
    Stage store requests capacity requests (4 * requests.length + 2)
      (Batch.draining (store.acknowledgements requests)) (hungUp (abandoned capacity [])) .ended
  | completed :
    Stage store requests capacity requests (4 * requests.length + 3)
      (.done (.ok (store.acknowledgements requests))) (hungUp (abandoned capacity [])) .ended

theorem send_wire (capacity : Nat) (r : StatementRequest) :
    (wire capacity [] []).move (.send r) = .answered true (wire capacity [r] []) := by
  have hroom : (0 : Nat) < max 1 capacity := by omega
  simp only [move, answer, wire, Channel.send, List.length_nil, hroom, if_true, List.nil_append,
    Bool.not_true, Bool.false_eq_true, if_false]
  rfl

theorem callerStep_of {d : Dialogue} {x : Exchange}
    {caller : Program streamCalls (Except StreamError (List StatementAck))}
    (h : d.server.exchange.advance d.caller = some (caller, x)) :
    d.callerStep = some ⟨caller, { d.server with exchange := x }⟩ := by
  rw [callerStep, h, Option.map_some]

theorem serverStep_of {d : Dialogue} {server : Server} (h : d.server.step = some server) :
    d.serverStep = some ⟨d.caller, server⟩ := by
  rw [serverStep, h, Option.map_some]

/-- A list has one first element without a property. -/
theorem first_unique {α : Type} (p : α → Bool) {before after before' after' : List α} {a a' : α}
    (h : before ++ a :: after = before' ++ a' :: after') (hbefore : ∀ b ∈ before, p b = true)
    (ha : p a = false) (hbefore' : ∀ b ∈ before', p b = true) (ha' : p a' = false) :
    before = before' ∧ a = a' := by
  have htake : before = before' := by
    have hwhile := congrArg (List.takeWhile p) h
    rwa [List.takeWhile_append_of_pos hbefore, List.takeWhile_cons_of_neg (by simp [ha]),
      List.takeWhile_append_of_pos hbefore', List.takeWhile_cons_of_neg (by simp [ha']),
      List.append_nil, List.append_nil] at hwhile
  rw [htake] at h
  exact ⟨htake, (List.cons.inj (List.append_cancel_left h)).1⟩

/-- The ledger side takes the request that was sent and handles it. -/
theorem step_sent {ledger ledger' : Ledger} {r : StatementRequest} {reply : StatementReply}
    (h : Server.handle ledger r = (reply, ledger')) (capacity : Nat) :
    (Server.mk ledger (wire capacity [r] []) .listening).step =
      some ⟨ledger', wire capacity [] [], .replying reply⟩ := by
  simp only [Server.step, takeRequest, wire, Channel.receive, h]

/-- The ledger side sends its reply, and ends if it was a refusal. -/
theorem step_replying (ledger : Ledger) (capacity : Nat) (reply : StatementReply) :
    (Server.mk ledger (wire capacity [] []) (.replying reply)).step =
      some (if reply.isOk then ⟨ledger, wire capacity [] [reply], .listening⟩
        else ⟨ledger, abandoned capacity [reply], .ended⟩) := by
  have hroom : (0 : Nat) < max 1 capacity := by omega
  simp only [Server.step, putReply, wire, Channel.send, List.length_nil, hroom, if_true,
    List.nil_append, Bool.not_true, Bool.false_eq_true, if_false]
  rfl

variable {store : LedgerStore} {requests : List StatementRequest} {capacity n : Nat} {d : Dialogue}

namespace Stage
variable {appended : List StatementRequest} {x : Exchange} {phase : ServerPhase}
  {caller : Program streamCalls (Except StreamError (List StatementAck))}

/-- Each channel carries one message at most. -/
theorem queues (h : Stage store requests capacity appended n caller x phase) :
    x.requests.queue.length ≤ 1 ∧ x.replies.queue.length ≤ 1 := by
  cases h with
  | sent split => exact ⟨le_refl 1, Nat.zero_le 1⟩
  | acknowledged split | rejected split => exact ⟨Nat.zero_le 1, le_refl 1⟩
  | _ => exact ⟨Nat.zero_le 1, Nat.zero_le 1⟩

/-- Both sides together take four steps for a request, and three at the end. -/
theorem steps_le (h : Stage store requests capacity appended n caller x phase) :
    n ≤ 4 * requests.length + 3 := by
  cases h with
  | ready split =>
    rw [split, List.length_append]
    omega
  | sent split | handled split | acknowledged split | refused split | rejected split
  | givingUp split | failed split =>
    rw [split, List.length_append, List.length_cons]
    omega
  | closing | closed | completed => omega

end Stage

/-- The dialogue is at some stage after so many steps, and the ledger holds what was appended. -/
def Follows (store : LedgerStore) (requests : List StatementRequest) (capacity n : Nat)
    (d : Dialogue) : Prop :=
  ∃ appended, Stage store requests capacity appended n d.caller d.server.exchange d.server.phase ∧
    d.server.ledger.Carries store requests appended

theorem follows_start (store : LedgerStore) (requests : List StatementRequest) (capacity : Nat) :
    (start store requests capacity).Follows store requests capacity 0 :=
  ⟨[], .ready (List.nil_append requests).symm, Ledger.carries_start store requests⟩

/-- How a dialogue ends. -/
structure Over (store : LedgerStore) (requests : List StatementRequest) (d : Dialogue) : Prop where
  ended : d.server.phase = .ended
  answered : d.result?.isSome = true
  completed : (∀ r ∈ requests, store.accounts.contains r.account = true) →
    d.result? = some (.ok (store.acknowledgements requests)) ∧
      d.server.ledger.store.entries = store.entries ++ requests.map StatementRequest.entry
  rejected : ∀ before r after, requests = before ++ r :: after →
    (∀ r' ∈ before, store.accounts.contains r'.account = true) →
    store.accounts.contains r.account = false →
    d.result? = some (.error (.rejected (LedgerError.accountNotFound r.account).message)) ∧
      d.server.ledger.store.entries = store.entries ++ before.map StatementRequest.entry

theorem over_of_missing {ledger : Ledger} {x : Exchange} {before after : List StatementRequest}
    {r : StatementRequest} (split : requests = before ++ r :: after)
    (missing : store.accounts.contains r.account = false)
    (hcarries : ledger.Carries store requests before) :
    Over store requests
      ⟨.done (.error (.rejected (LedgerError.accountNotFound r.account).message)),
        ⟨ledger, x, .ended⟩⟩ := by
  refine ⟨rfl, rfl, fun hall => ?_, fun before' r' after' h hbefore' hr' => ?_⟩
  · have hexists := hall r (split ▸ List.mem_append_right _ List.mem_cons_self)
    rw [missing] at hexists
    cases hexists
  · obtain ⟨hsame, rfl⟩ := first_unique (fun r => store.accounts.contains r.account)
      (split.symm.trans h) hcarries.exist missing hbefore' hr'
    exact ⟨rfl, hsame ▸ hcarries.entries⟩

theorem over_of_carries {ledger : Ledger} {x : Exchange}
    (hcarries : ledger.Carries store requests requests) :
    Over store requests
      ⟨.done (.ok (store.acknowledgements requests)), ⟨ledger, x, .ended⟩⟩ := by
  refine ⟨rfl, rfl, fun _ => ⟨rfl, hcarries.entries⟩, fun before r after h _ hr => ?_⟩
  have hexists := hcarries.exist r (h ▸ List.mem_append_right _ List.mem_cons_self)
  rw [hr] at hexists
  cases hexists

/-- **At every stage one side can take a step and the other waits, until both have ended.** -/
theorem Follows.next (h : d.Follows store requests capacity n) :
    (∃ d', d.callerStep = some d' ∧ d.serverStep = none ∧
        d'.Follows store requests capacity (n + 1)) ∨
      (∃ d', d.callerStep = none ∧ d.serverStep = some d' ∧
        d'.Follows store requests capacity (n + 1)) ∨
      (d.callerStep = none ∧ d.serverStep = none ∧ d.Over store requests) := by
  obtain ⟨caller, ledger, exchange, phase⟩ := d
  obtain ⟨appended, hstage, hcarries⟩ := h
  replace hstage : Stage store requests capacity appended n caller exchange phase := hstage
  replace hcarries : ledger.Carries store requests appended := hcarries
  cases hstage with
  | ready split =>
    rename_i rest
    cases rest with
    | nil =>
      rw [List.append_nil] at split
      subst split
      exact Or.inl ⟨_, callerStep_of (Batch.rest_nil _ ▸ advance_of_answered rfl), rfl, requests,
        .closing, hcarries⟩
    | cons r rest =>
      exact Or.inl ⟨_, callerStep_of (Batch.rest_cons _ r rest ▸
        advance_of_answered (send_wire capacity r)), rfl, appended, .sent split, hcarries⟩
  | sent split =>
    rename_i rest r
    have hr : r ∈ requests := split ▸ List.mem_append_right _ List.mem_cons_self
    cases hexists : store.accounts.contains r.account with
    | true =>
      obtain ⟨ledger', hhandle, hcarries'⟩ := hcarries.handle hr hexists
      exact Or.inr (Or.inl ⟨_, rfl, serverStep_of (step_sent hhandle capacity), appended ++ [r],
        .handled split, hcarries'⟩)
    | false =>
      exact Or.inr (Or.inl ⟨_, rfl,
        serverStep_of (step_sent (hcarries.handle_missing hr hexists) capacity), appended,
        .refused split hexists, hcarries⟩)
  | handled split =>
    exact Or.inr (Or.inl ⟨_, rfl, serverStep_of (step_replying ledger capacity _), _,
      .acknowledged split, hcarries⟩)
  | acknowledged split =>
    rename_i before rest r
    have hready : Stage store requests capacity (before ++ [r]) _ _ _ _ :=
      .ready (split.trans (List.append_cons before r rest))
    rw [List.length_append, LedgerStore.acknowledgements_concat] at hready
    refine Or.inl ⟨_, callerStep_of (advance_of_answered rfl), rfl, _, ?_, hcarries⟩
    simp only [StatementRequest.acknowledgedBy_acknowledgement, if_true]
    exact hready
  | refused split missing =>
    exact Or.inr (Or.inl ⟨_, rfl, serverStep_of (step_replying ledger capacity _), appended,
      .rejected split missing, hcarries⟩)
  | rejected split missing =>
    exact Or.inl ⟨_, callerStep_of (advance_of_answered rfl), rfl, appended, .givingUp split missing,
      hcarries⟩
  | givingUp split missing =>
    exact Or.inl ⟨_, callerStep_of (advance_of_answered rfl), rfl, appended, .failed split missing,
      hcarries⟩
  | failed split missing => exact Or.inr (Or.inr ⟨rfl, rfl, over_of_missing split missing hcarries⟩)
  | closing =>
    exact Or.inr (Or.inl ⟨_, rfl, serverStep_of rfl, requests, .closed, hcarries⟩)
  | closed =>
    exact Or.inl ⟨_, callerStep_of (advance_of_answered rfl), rfl, requests, .completed, hcarries⟩
  | completed => exact Or.inr (Or.inr ⟨rfl, rfl, over_of_carries hcarries⟩)

/-- A step leads to the next stage. -/
theorem Follows.step {d' : Dialogue} {a : Act} (h : d.Follows store requests capacity n)
    (hstep : d.step? a = some d') : d'.Follows store requests capacity (n + 1) := by
  cases a with
  | others fresh now command => cases hstep
  | caller =>
    replace hstep : d.callerStep = some d' := hstep
    rcases h.next with ⟨d₁, hcaller, -, h₁⟩ | ⟨d₁, hcaller, -, -⟩ | ⟨hcaller, -, -⟩
    · cases hcaller.symm.trans hstep
      exact h₁
    · cases hcaller.symm.trans hstep
    · cases hcaller.symm.trans hstep
  | server =>
    replace hstep : d.serverStep = some d' := hstep
    rcases h.next with ⟨d₁, -, hserver, -⟩ | ⟨d₁, -, hserver, h₁⟩ | ⟨-, hserver, -⟩
    · cases hserver.symm.trans hstep
    · cases hserver.symm.trans hstep
      exact h₁
    · cases hserver.symm.trans hstep

theorem Follows.getD {o : Option Dialogue} (h : d.Follows store requests capacity n)
    (next : ∀ d', o = some d' → d'.Follows store requests capacity (n + 1)) :
    (o.getD d).Follows store requests capacity (n + o.elim 0 fun _ => 1) := by
  cases o with
  | none => exact h
  | some d' => exact next d' rfl

/-- An act takes the dialogue to the next stage, or leaves it at the stage where it is. -/
theorem Follows.act {a : Act} (h : d.Follows store requests capacity n) (quiet : a.Quiet requests) :
    (d.act a).Follows store requests capacity (n + (d.step? a).elim 0 fun _ => 1) := by
  cases a with
  | others fresh now command =>
    obtain ⟨appended, hstage, hcarries⟩ := h
    exact ⟨appended, hstage, hcarries.others quiet now⟩
  | caller => exact h.getD fun d' hd' => h.step hd'
  | server => exact h.getD fun d' hd' => h.step hd'

theorem Follows.run (h : d.Follows store requests capacity n) {acts : List Act}
    (quiet : ∀ a ∈ acts, a.Quiet requests) :
    (d.run acts).Follows store requests capacity (n + d.stepsTaken acts) := by
  induction acts generalizing d n with
  | nil => exact h
  | cons a rest ih =>
    have hrest := ih (h.act (quiet a List.mem_cons_self)) fun b hb =>
      quiet b (List.mem_cons_of_mem a hb)
    rw [Nat.add_assoc] at hrest
    exact hrest

/-- **The two sides of a statement stream together.**  A batch is appended over a stream of any
capacity, both sides take their steps in any order, and others do what is not about statements or the
accounts of the batch.  Then each channel never holds more than one message, both sides together take
a bounded number of steps, and where neither can take one the stream is over: every request was
acknowledged and appended in order, or those before the first one to an account that does not
exist. -/
theorem run_outcome (store : LedgerStore) (requests : List StatementRequest) (capacity : Nat)
    (acts : List Act) (quiet : ∀ a ∈ acts, a.Quiet requests) :
    let d := (start store requests capacity).run acts
    d.server.exchange.requests.queue.length ≤ 1 ∧ d.server.exchange.replies.queue.length ≤ 1 ∧
      (start store requests capacity).stepsTaken acts ≤ 4 * requests.length + 3 ∧
      (d.callerStep = none → d.serverStep = none → d.Over store requests) := by
  have hfollows := (follows_start store requests capacity).run quiet
  rw [Nat.zero_add] at hfollows
  obtain ⟨appended, hstage, -⟩ := id hfollows
  refine ⟨hstage.queues.1, hstage.queues.2, hstage.steps_le, fun hcaller hserver => ?_⟩
  rcases hfollows.next with ⟨d', hstep, -, -⟩ | ⟨d', -, hstep, -⟩ | ⟨-, -, hover⟩
  · cases hcaller.symm.trans hstep
  · cases hserver.symm.trans hstep
  · exact hover

end Dialogue

namespace GhostEntry

open Sample Dialogue

def ghost : AccountId := ⟨"ghost"⟩

def payment : PaymentId := ⟨"payment"⟩

def requests : List StatementRequest :=
  [⟨customer, payment⟩, ⟨merchant, payment⟩, ⟨ghost, payment⟩, ⟨customer, payment⟩]

/-- The ledger side waits at first, and between two of its steps somebody makes a deposit. -/
def acts : List Act :=
  [.server, .caller, .caller, .server, .others ghost Mint.unary.now (.deposit card.number (units 5)),
    .server, .caller, .caller, .server, .server, .caller, .caller, .server, .server, .caller, .caller]

/-- The dialogue after these acts. -/
def ended : Dialogue := (start engine.ledger.store requests 0).run acts

/-- The third of four requests is to an account that does not exist. -/
theorem run_outcome_ghostEntry :
    (∀ a ∈ acts, a.Quiet requests) ∧ ended.callerStep = none ∧ ended.serverStep = none ∧
      ended.result? =
        some (.error (.rejected (LedgerError.accountNotFound ghost).message)) ∧
      ended.server.ledger.store.entries = [⟨customer, payment⟩, ⟨merchant, payment⟩] := by
  have quiet : ∀ a ∈ acts, a.Quiet requests := by decide +kernel
  have hcaller : ended.callerStep = none := rfl
  have hserver : ended.serverStep = none := rfl
  obtain ⟨-, -, -, hover⟩ := run_outcome engine.ledger.store requests 0 acts quiet
  obtain ⟨hresult, hentries⟩ := (hover hcaller hserver).rejected
    [⟨customer, payment⟩, ⟨merchant, payment⟩] ⟨ghost, payment⟩ [⟨customer, payment⟩] rfl
    (by decide +kernel) (by decide +kernel)
  exact ⟨quiet, hcaller, hserver, hresult, hentries.trans (by decide +kernel)⟩

end GhostEntry

end CardHolds
