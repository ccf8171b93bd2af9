import CardHolds.Proofs.Statement.Wire
import Mathlib.Data.List.Forall2
import Mathlib.Logic.Relation

/-!
# Taking turns against any peer

A `Session` is a propagator with its wire between two calls.  Calls are made on it one after the
other, in any order, while the far end of the wire does what it likes (`Session.Step`).

A call out of turn is answered at once and changes nothing (`Propagator.program_out_of_turn`).  For a
call in its turn there is one lemma per call that says what it comes to (`Propagator.Returns`).  From
these follows that a propagator stays in order with the wire (`Propagator.Orderly`).

Main statement (`Session.turns_kept`): what holds in every state that a session can reach.
-/

namespace CardHolds

open Program

/-! ## A propagator and its calls -/

/-- The calls on a propagator. -/
inductive PropagatorCall where
  | send (request : StatementRequest)
  | awaitAck
  | append (request : StatementRequest)
  | close

/-- A call as a program; what it answers is put in one form for all calls. -/
def Propagator.program (p : Propagator) :
    PropagatorCall → Program streamCalls (Except StreamError (Option StatementAck) × Propagator)
  | .send request => (p.send request).bind fun out => .done (out.1.map fun _ => none, out.2)
  | .awaitAck => p.awaitAck.bind fun out => .done (out.1.map some, out.2)
  | .append request => (p.append request).bind fun out => .done (out.1.map some, out.2)
  | .close => p.close.bind fun out => .done (out.1.map fun _ => none, out.2)

/-- A propagator and its wire between two calls. -/
structure Session where
  propagator : Propagator
  wire : Wire

namespace Session

/-- A propagator on a fresh stream whose channels have these capacities. -/
def start (requests replies : Nat) : Session :=
  ⟨{}, { exchange := ⟨.ofCapacity requests, .ofCapacity replies⟩ }⟩

/-- The call is made, and answered after these ticks. -/
def Makes (s : Session) (call : PropagatorCall) (ticks : List Tick)
    (answer : Except StreamError (Option StatementAck)) (s' : Session) : Prop :=
  Wire.converse ticks (s.propagator.program call, s.wire) = (.done (answer, s'.propagator), s'.wire)

/-- Between two calls the far end acts; or a call is made and answered. -/
inductive Step : Session → Session → Prop
  | peer (s : Session) (a : PeerAct) : Step s ⟨s.propagator, s.wire.peer a⟩
  | call {s s' : Session} {call : PropagatorCall} {ticks : List Tick}
      {answer : Except StreamError (Option StatementAck)} (h : s.Makes call ticks answer s') : Step s s'

/-- The second session is reached from the first. -/
def Leads : Session → Session → Prop := Relation.ReflTransGen Step

end Session

/-! ## The order of a session -/

/-- The errors that refuse a call out of turn, or on a closed stream. -/
def StreamError.isRefusal : StreamError → Bool
  | .closed | .invalidState _ => true
  | _ => false

/-- The requests that may be unanswered at a turn. -/
def Turn.Leaves (pending : List StatementRequest) : Turn → Prop
  | .readyToSend | .closed => pending = []
  | .awaitingAck request => pending = [request]
  | .failed => pending.length ≤ 1

/-- No further request can be sent. -/
def Turn.Final (turn : Turn) : Prop := turn = .closed ∨ turn = .failed

/-- A propagator is in order with what was seen of the wire. -/
structure Propagator.Orderly (p : Propagator) (w : Wired) : Prop where
  flag : p.stream.sendClosed = w.hungUp
  final_iff : w.hungUp = true ↔ p.turn.Final
  matching : ∃ answered pending, w.sent = answered ++ pending ∧ p.turn.Leaves pending ∧
    List.Forall₂ (fun r ack => r.acknowledgedBy ack = true) answered p.acknowledged

/-! ## The calls -/

/-- It is the turn for the call. -/
def PropagatorCall.inTurn : PropagatorCall → Turn → Bool
  | .send _, .readyToSend | .append _, .readyToSend | .close, .readyToSend => true
  | .awaitAck, .awaitingAck _ => true
  | _, _ => false

/-- It is the turn of an acknowledgement only after a request. -/
theorem PropagatorCall.turn_of_inTurn {call : PropagatorCall} {turn : Turn}
    (h : call.inTurn turn = true) :
    turn = .readyToSend ∧ call ≠ .awaitAck ∨
      (∃ request, turn = .awaitingAck request) ∧ call = .awaitAck := by
  cases call with
  | awaitAck => cases turn <;> first | exact Or.inr ⟨⟨_, rfl⟩, rfl⟩ | cases h
  | _ => cases turn <;> first | exact Or.inl ⟨rfl, nofun⟩ | cases h

namespace Propagator
variable {p : Propagator} {w : Wired}

/-- A call out of turn is answered at once, and nothing changes; a stream that is closed can be closed
again. -/
theorem program_out_of_turn {call : PropagatorCall} (h : call.inTurn p.turn = false) :
    ∃ answer, p.program call = .done (answer, p) ∧ answer ≠ .error .closed := by
  obtain ⟨stream, turn, acks⟩ := p
  cases call <;> cases turn <;> first | exact ⟨_, rfl, nofun⟩ | cases h

/-- What a call in its turn comes to: the propagator is in order again, an error leaves it failed, and
an error of the kind that refuses a call was sent by the far end. -/
structure Returns (w : Wired) {α : Type} (out : Except StreamError α × Propagator) : Prop where
  orderly : out.2.Orderly w
  failed : ∀ e, out.1 = .error e →
    out.2.turn = .failed ∧ (e.isRefusal = true → e ∈ w.refused)

theorem Orderly.sendClosed_eq_false (h : p.Orderly w) (hturn : ¬ p.turn.Final) :
    p.stream.sendClosed = false := by
  rw [h.flag, Bool.eq_false_iff, ne_eq, h.final_iff]
  exact hturn

/-- After an error the propagator is in order as failed, with what was acknowledged before. -/
theorem fail_ensures {α : Type} {e : StreamError} (hflag : p.stream.sendClosed = w.hungUp)
    {answered pending : List StatementRequest} (hsent : w.sent = answered ++ pending)
    (hpending : pending.length ≤ 1)
    (hmatch : List.Forall₂ (fun r ack => r.acknowledgedBy ack = true) answered p.acknowledged)
    (he : e.isRefusal = true → e ∈ w.refused) :
    (p.fail.bind fun p' => .done ((.error e, p') : Except StreamError α × Propagator)).Ensures wiring w
      fun out w' => out.1 = .error e ∧ Returns w' out ∧ out.2.acknowledged = p.acknowledged := by
  obtain ⟨⟨closed⟩, turn, acks⟩ := p
  have herror : ∀ e', (.error e : Except StreamError α) = .error e' →
      Turn.failed = .failed ∧ (e'.isRefusal = true → e' ∈ w.refused) := by
    rintro e' ⟨⟩
    exact ⟨rfl, he⟩
  cases closed with
  | true =>
    have hhungUp : w.hungUp = true := hflag.symm
    exact ⟨rfl, ⟨⟨hflag, iff_of_true hhungUp (Or.inr rfl), answered, pending, hsent, hpending,
      hmatch⟩, herror⟩, rfl⟩
  | false =>
    exact ⟨trivial, fun _ _ => ⟨rfl, ⟨⟨rfl, iff_of_true rfl (Or.inr rfl), answered, pending, hsent,
      hpending, hmatch⟩, herror⟩, rfl⟩⟩

theorem send_ensures (h : p.Orderly w) (hturn : p.turn = .readyToSend) (request : StatementRequest) :
    (p.send request).Ensures wiring w fun out w' =>
      Returns w' out ∧ (out.1 = .ok () → out.2.turn = .awaitingAck request) := by
  obtain ⟨⟨closed⟩, turn, acks⟩ := p
  cases (hturn : turn = .readyToSend)
  have hclosed : closed = false := h.sendClosed_eq_false (by simp [Turn.Final])
  subst hclosed
  obtain ⟨hflag, -, answered, pending, hsent, rfl, hmatch⟩ := h
  refine ⟨trivial, fun taken _ => ?_⟩
  cases taken with
  | true =>
    rw [List.append_nil] at hsent
    exact ⟨⟨⟨hflag, iff_of_false (by simp [wiring, ← hflag]) (by simp [Turn.Final]), answered,
      [request], congrArg (· ++ [request]) hsent, rfl, hmatch⟩, nofun⟩, fun _ => rfl⟩
  | false =>
    refine (fail_ensures hflag hsent (Nat.zero_le 1) hmatch fun he => by cases he).mono ?_
    rintro out w' ⟨herror, hreturns, -⟩
    exact ⟨hreturns, fun hok => by cases herror.symm.trans hok⟩

/-- Whatever reply is taken: the acknowledgement of the request ends the turn, and all else fails. -/
theorem awaitAck_ensures {request : StatementRequest} (h : p.Orderly w)
    (hturn : p.turn = .awaitingAck request) :
    p.awaitAck.Ensures wiring w fun out w' => Returns w' out := by
  obtain ⟨⟨closed⟩, turn, acks⟩ := p
  cases (hturn : turn = .awaitingAck request)
  have hclosed : closed = false := h.sendClosed_eq_false (by simp [Turn.Final])
  subst hclosed
  obtain ⟨hflag, -, answered, pending, hsent, rfl, hmatch⟩ := h
  refine ⟨trivial, fun reply _ => ?_⟩
  rcases reply with _ | (e | ack)
  · exact (fail_ensures hflag hsent (Nat.le_refl 1) hmatch fun he => by cases he).mono
      fun _ _ hout => hout.2.1
  · exact (fail_ensures (w := w.took (.error e)) hflag hsent (Nat.le_refl 1) hmatch fun _ =>
      List.mem_append_right _ List.mem_cons_self).mono fun _ _ hout => hout.2.1
  · simp only [bind_done]
    cases hack : request.acknowledgedBy ack with
    | true =>
      refine ⟨⟨hflag, iff_of_false (by simp [wiring, Wired.took, ← hflag]) (by simp [Turn.Final]),
        answered ++ [request], [], ?_, rfl, ?_⟩, nofun⟩
      · rw [List.append_nil]
        exact hsent
      · exact List.rel_append hmatch (.cons hack .nil)
    | false =>
      exact (fail_ensures hflag hsent (Nat.le_refl 1) hmatch fun he => by cases he).mono
        fun _ _ hout => hout.2.1

theorem append_ensures (h : p.Orderly w) (hturn : p.turn = .readyToSend) (request : StatementRequest) :
    (p.append request).Ensures wiring w fun out w' => Returns w' out := by
  refine (send_ensures h hturn request).bind fun out w' hout => ?_
  obtain ⟨answer, p'⟩ := out
  obtain ⟨hreturns, hawaiting⟩ := hout
  cases answer with
  | ok _ => exact awaitAck_ensures hreturns.orderly (hawaiting rfl)
  | error e =>
    refine ⟨hreturns.orderly, fun e' he' => ?_⟩
    cases he'
    exact hreturns.failed e rfl

theorem close_ensures (h : p.Orderly w) (hturn : p.turn = .readyToSend) :
    p.close.Ensures wiring w fun out w' =>
      Returns w' out ∧ out.2.acknowledged = p.acknowledged := by
  obtain ⟨⟨closed⟩, turn, acks⟩ := p
  cases (hturn : turn = .readyToSend)
  have hclosed : closed = false := h.sendClosed_eq_false (by simp [Turn.Final])
  subst hclosed
  obtain ⟨hflag, -, answered, pending, hsent, rfl, hmatch⟩ := h
  refine ⟨trivial, fun _ _ => ⟨trivial, fun error _ => ?_⟩⟩
  cases error with
  | none =>
    exact ⟨⟨⟨rfl, iff_of_true rfl (Or.inl rfl), answered, [], hsent, rfl, hmatch⟩, nofun⟩, rfl⟩
  | some e =>
    let w' : Wired := { w with hungUp := true, refused := w.refused ++ [e] }
    exact (fail_ensures (p := ⟨⟨true⟩, .readyToSend, acks⟩) (w := w') rfl hsent (Nat.zero_le 1)
      hmatch fun _ => List.mem_append_right _ List.mem_cons_self).mono fun _ _ hout => hout.2

/-- The answer of a call is put in another form. -/
theorem Returns.map {α β : Type} {out : Except StreamError α × Propagator} (h : Returns w out)
    (f : α → β) : Returns w (out.1.map f, out.2) := by
  obtain ⟨answer, p'⟩ := out
  refine ⟨h.orderly, fun e he => ?_⟩
  cases answer with
  | ok a => cases he
  | error e' =>
    cases he
    exact h.failed e rfl

theorem program_ensures {call : PropagatorCall} (h : p.Orderly w) (hturn : call.inTurn p.turn = true) :
    (p.program call).Ensures wiring w fun out w' =>
      Returns w' out ∧ (call = .close → out.2.acknowledged = p.acknowledged) := by
  rcases PropagatorCall.turn_of_inTurn hturn with ⟨hready, hcall⟩ | ⟨⟨request, hawaiting⟩, rfl⟩
  · cases call with
    | send request =>
      exact (send_ensures h hready request).bind fun out w' hout => ⟨hout.1.map _, nofun⟩
    | awaitAck => exact absurd rfl hcall
    | append request =>
      exact (append_ensures h hready request).bind fun out w' hout => ⟨hout.map _, nofun⟩
    | close => exact (close_ensures h hready).bind fun out w' hout => ⟨hout.1.map _, fun _ => hout.2⟩
  · exact (awaitAck_ensures h hawaiting).bind fun out w' hout => ⟨hout.map _, nofun⟩

end Propagator

/-! ## Sessions -/

theorem PropagatorCall.inTurn_of_final {turn : Turn} (h : turn.Final) (call : PropagatorCall) :
    call.inTurn turn = false := by
  rcases h with rfl | rfl <;> cases call <;> rfl

namespace Session
variable {s s' : Session} {call : PropagatorCall} {ticks : List Tick}
  {answer : Except StreamError (Option StatementAck)}

/-- The record at the start of a call. -/
def wired (s : Session) : Wired := ⟨s.wire.sent, !s.wire.exchange.requests.senderOpen, []⟩

/-- The propagator is in order with the wire. -/
def Orderly (s : Session) : Prop := s.propagator.Orderly s.wired

/-- The call has taken this error reply off the wire, and the propagator is failed. -/
def PassesOn (s : Session) (e : StreamError) (s' : Session) : Prop :=
  s'.propagator.turn = .failed ∧ ∃ more, s'.wire.taken = s.wire.taken ++ more ∧ .error e ∈ more

theorem shows_wired (s : Session) : s.wire.Shows s.wire.taken s.wired :=
  s.wire.shows_start _ (Bool.not_not _).symm

theorem orderly_of_shows {before : List StatementReply} {w : Wired}
    (hshows : s.wire.Shows before w) (h : s.propagator.Orderly w) : s.Orderly := by
  have hhungUp : (!s.wire.exchange.requests.senderOpen) = w.hungUp := by
    rw [hshows.hungUp, Bool.not_not]
  refine ⟨h.flag.trans hhungUp.symm, ?_, ?_⟩
  · rw [wired, hhungUp]
    exact h.final_iff
  · rw [wired, hshows.sent]
    exact h.matching

theorem orderly_start (requests replies : Nat) : (start requests replies).Orderly :=
  ⟨rfl, iff_of_false nofun (by simp [start, Turn.Final]), [], [], rfl, rfl, .nil⟩

/-- A call out of turn: only the far end has acted. -/
theorem Makes.out_of_turn (h : s.Makes call ticks answer s')
    (hturn : call.inTurn s.propagator.turn = false) :
    s'.propagator = s.propagator ∧ s'.wire = s.wire.peers ticks ∧ answer ≠ .error .closed := by
  obtain ⟨answer', hprogram, hclosed⟩ := Propagator.program_out_of_turn hturn
  obtain ⟨p', l'⟩ := s'
  rw [Makes, hprogram, Wire.converse_done] at h
  cases h
  exact ⟨rfl, rfl, hclosed⟩

/-- A call in its turn. -/
theorem Makes.in_turn (h : s.Makes call ticks answer s') (horderly : s.Orderly)
    (hturn : call.inTurn s.propagator.turn = true) :
    s'.Orderly ∧ (call = .close → s'.propagator.acknowledged = s.propagator.acknowledged) ∧
      ∀ e, answer = .error e → e.isRefusal = true → s.PassesOn e s' := by
  obtain ⟨w, hshows, hreturns, hclose⟩ :=
    s.shows_wired.converse (Propagator.program_ensures horderly hturn) h
  obtain ⟨more, htaken, hrefused⟩ := hshows.taken
  refine ⟨orderly_of_shows hshows hreturns.orderly, hclose, fun e he hrefusal => ?_⟩
  obtain ⟨hfailed, hmem⟩ := hreturns.failed e he
  exact ⟨hfailed, more, htaken, hrefused e (hmem hrefusal)⟩

theorem Orderly.peer (h : s.Orderly) (a : PeerAct) : Orderly ⟨s.propagator, s.wire.peer a⟩ :=
  orderly_of_shows (s.shows_wired.peer a) h

theorem Orderly.step (h : s.Orderly) (hstep : s.Step s') : s'.Orderly := by
  cases hstep with
  | peer a => exact h.peer a
  | call hmakes =>
    rename_i call ticks answer
    cases hturn : call.inTurn s.propagator.turn with
    | true => exact (hmakes.in_turn h hturn).1
    | false =>
      obtain ⟨hpropagator, hwire, -⟩ := hmakes.out_of_turn hturn
      have hshows : s'.wire.Shows s.wire.taken s.wired := hwire ▸ s.shows_wired.peers ticks
      exact orderly_of_shows hshows (hpropagator ▸ h)

theorem Orderly.leads (h : s.Orderly) (hleads : s.Leads s') : s'.Orderly := by
  induction hleads with
  | refl => exact h
  | tail _ hstep ih => exact ih.step hstep

/-- A stream that is closed or failed stays so, and nothing is sent on it. -/
theorem Leads.of_final (hleads : s.Leads s') (hfinal : s.propagator.turn.Final) :
    s'.propagator = s.propagator ∧ s'.wire.sent = s.wire.sent := by
  induction hleads with
  | refl => exact ⟨rfl, rfl⟩
  | tail _ hstep ih =>
    rename_i mid last hleads
    obtain ⟨hpropagator, hsent⟩ := ih
    cases hstep with
    | peer a => exact ⟨hpropagator, ((mid.shows_wired.peer a).sent).trans hsent⟩
    | call hmakes =>
      rename_i call ticks answer
      obtain ⟨hsame, hwire, -⟩ := hmakes.out_of_turn
        (PropagatorCall.inTurn_of_final (hpropagator ▸ hfinal) call)
      refine ⟨hsame.trans hpropagator, ?_⟩
      rw [hwire]
      exact (mid.shows_wired.peers ticks).sent.trans hsent

/-- **Turns are kept against any peer.**  In every state between two calls: the requests on the wire
are those that were acknowledged, each matched by its acknowledgement, and at most one more, which is
the one that is awaited or was left by a failure; the send side is closed exactly when the stream is
closed or failed, which it then stays, and nothing is sent any more.  Closing records no
acknowledgement, and an error that refuses a call was either passed on from the far end, or the call
has changed nothing and the error is not that the send side is closed. -/
theorem turns_kept (requests replies : Nat) {s : Session} (h : (start requests replies).Leads s) :
    (∃ answered pending, s.wire.sent = answered ++ pending ∧ s.propagator.turn.Leaves pending ∧
      List.Forall₂ (fun r ack => r.acknowledgedBy ack = true) answered s.propagator.acknowledged) ∧
    (s.wire.exchange.requests.senderOpen = false ↔ s.propagator.turn.Final) ∧
    (s.propagator.turn.Final → ∀ s', s.Leads s' →
      s'.propagator = s.propagator ∧ s'.wire.sent = s.wire.sent) ∧
    ∀ call ticks answer s', s.Makes call ticks answer s' →
      (call = .close → s'.propagator.acknowledged = s.propagator.acknowledged) ∧
      ∀ e, answer = .error e → e.isRefusal = true → s.PassesOn e s' ∨
        e ≠ .closed ∧ s'.propagator = s.propagator ∧ s'.wire = s.wire.peers ticks := by
  have horderly : s.Orderly := (orderly_start requests replies).leads h
  refine ⟨horderly.matching, ?_, fun hfinal s' hleads => hleads.of_final hfinal,
    fun call ticks answer s' hmakes => ?_⟩
  · rw [← horderly.final_iff, wired, Bool.not_eq_true']
  · cases hturn : call.inTurn s.propagator.turn with
    | true =>
      obtain ⟨-, hclose, hrefusal⟩ := hmakes.in_turn horderly hturn
      exact ⟨hclose, fun e he hr => Or.inl (hrefusal e he hr)⟩
    | false =>
      obtain ⟨hpropagator, hwire, hclosed⟩ := hmakes.out_of_turn hturn
      refine ⟨fun _ => by rw [hpropagator], fun e he _ => Or.inr ⟨?_, hpropagator, hwire⟩⟩
      rintro rfl
      exact hclosed he

end Session

namespace PassedOn

def request : StatementRequest := ⟨⟨"m"⟩, ⟨"p1"⟩⟩

/-- A request was sent. -/
def sent : Session :=
  ⟨{ turn := .awaitingAck request },
    { exchange := ⟨{ capacity := 1, queue := [request] }, .ofCapacity 1⟩, sent := [request] }⟩

/-- The reply to it was an error that otherwise refuses a call out of turn. -/
def refused : Session :=
  ⟨{ stream := ⟨true⟩, turn := .failed },
    { exchange := ⟨{ capacity := 1, queue := [request], senderOpen := false }, .ofCapacity 1⟩,
      sent := [request], taken := [.error (.invalidState (.other "busy"))] }⟩

theorem makes_send : (Session.start 1 1).Makes (.send request) [.caller] (.ok none) sent := rfl

theorem makes_awaitAck : sent.Makes .awaitAck
    [.caller, .peer (.reply (.error (.invalidState (.other "busy")))), .caller, .caller]
    (.error (.invalidState (.other "busy"))) refused := rfl

theorem leads_sent : (Session.start 1 1).Leads sent := .single (.call makes_send)

/-- The awaited request is the one more on the wire, and the far end's error is passed on. -/
theorem turns_kept_passedOn :
    (Session.start 1 1).Leads sent ∧ sent.wire.exchange.requests.senderOpen = true ∧
      sent.PassesOn (.invalidState (.other "busy")) refused := by
  obtain ⟨-, hopen, -, hcalls⟩ := Session.turns_kept 1 1 leads_sent
  obtain ⟨-, herror⟩ := hcalls _ _ _ _ makes_awaitAck
  refine ⟨leads_sent, ?_, ?_⟩
  · rw [← Bool.not_eq_false, hopen]
    simp [sent, Turn.Final]
  · rcases herror _ rfl rfl with hpasses | ⟨-, hsame, -⟩
    · exact hpasses
    · exact absurd (congrArg Propagator.turn hsame) (by decide)

/-- An `invalidState` is not always the answer to a call that has changed nothing. -/
theorem invalidState_not_inert :
    ¬ ∀ s call ticks m s', (Session.start 1 1).Leads s →
      s.Makes call ticks (.error (.invalidState m)) s' → s'.propagator.turn = s.propagator.turn :=
  fun h => absurd (h _ _ _ _ _ leads_sent makes_awaitAck) (by decide)

end PassedOn

end CardHolds
