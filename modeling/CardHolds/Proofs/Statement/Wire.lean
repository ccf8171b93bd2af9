import CardHolds.Proofs.Program.Contract
import CardHolds.Proofs.Statement.Channel
import CardHolds.Proofs.Statement.Moves

/-!
# A stream with any far end

A `Wire` is the pair of channels of a statement stream together with what the caller has put on the
wire and taken off it.  A program of the caller's end runs on it move by move, and the far end may act
between any two moves (`Wire.converse`): reply whatever it likes, take requests, or drop its ends.

What a program sees of the wire is entered in a record (`Wired`, `wiring`), which the far end cannot
change.  Hence what a program promises of its record holds of the wire when it is done, whatever the
far end has done meanwhile (`Wire.Shows.converse`).
-/

namespace CardHolds

open Program

/-- The requests that a move has put on the wire. -/
def Exchange.requestsPut (x y : Exchange) : List StatementRequest :=
  y.requests.queue.drop x.requests.queue.length

/-- The replies that a move has taken off the wire. -/
def Exchange.repliesTaken (x y : Exchange) : List StatementReply :=
  x.replies.queue.take (x.replies.queue.length - y.replies.queue.length)

/-- The channels of a stream, with all requests that the caller has put on the wire and all replies
that it has taken off. -/
structure Wire where
  exchange : Exchange
  sent : List StatementRequest := []
  taken : List StatementReply := []

/-- What the far end of a stream may do at any time. -/
inductive PeerAct where
  | reply (reply : StatementReply)
  | takeRequest
  | dropRequests
  | dropReplies

/-- Who acts next while a call is under way. -/
inductive Tick where
  | caller
  | peer (a : PeerAct)

namespace Wire

/-- The far end acts; it has no effect to reply after its end was dropped or to a full channel, and
to take a request where there is none. -/
def peer (l : Wire) : PeerAct → Wire
  | .reply reply =>
    if l.exchange.replies.senderOpen then
      match l.exchange.putReply reply with
      | .sent replies => { l with exchange := { l.exchange with replies := replies } }
      | .gone | .full => l
    else l
  | .takeRequest =>
    match l.exchange.takeRequest with
    | .message _ requests => { l with exchange := { l.exchange with requests := requests } }
    | .ended | .empty => l
  | .dropRequests => { l with exchange := l.exchange.dropRequests }
  | .dropReplies => { l with exchange := l.exchange.dropReplies }

/-- The wire after a move of the caller's end. -/
def moved (l : Wire) (x : Exchange) : Wire :=
  ⟨x, l.sent ++ l.exchange.requestsPut x, l.taken ++ l.exchange.repliesTaken x⟩

/-- The next move of a program of the caller's end, if it can make one. -/
def advance {α : Type} (l : Wire) (p : Program streamCalls α) : Option (Program streamCalls α × Wire) :=
  (l.exchange.advance p).map fun (q, x) => (q, l.moved x)

/-- A program of the caller's end, and the far end, act as the ticks say. -/
def converse {α : Type} : List Tick → Program streamCalls α × Wire → Program streamCalls α × Wire
  | [], s => s
  | .caller :: rest, (p, l) => converse rest ((l.advance p).getD (p, l))
  | .peer a :: rest, (p, l) => converse rest (p, l.peer a)

/-- What the far end alone does in some ticks. -/
def peers (l : Wire) : List Tick → Wire
  | [] => l
  | .caller :: rest => l.peers rest
  | .peer a :: rest => (l.peer a).peers rest

theorem converse_done {α : Type} (a : α) (ticks : List Tick) (l : Wire) :
    converse ticks (.done a, l) = (.done a, l.peers ticks) := by
  induction ticks generalizing l with
  | nil => rfl
  | cons tick rest ih =>
    cases tick with
    | caller => exact ih l
    | peer act => exact ih (l.peer act)

end Wire

/-! ## The record of a program -/

/-- What was seen of the wire in a call: the requests sent so far, whether the caller has closed its
send side, and the error replies that the call has taken. -/
structure Wired where
  sent : List StatementRequest
  hungUp : Bool
  refused : List StreamError := []

/-- The record with a reply that is taken: it is entered if it is an error. -/
def Wired.took (w : Wired) : StatementReply → Wired
  | .ok _ => w
  | .error e => { w with refused := w.refused ++ [e] }

namespace Wired
variable (w : Wired) (reply : StatementReply)

@[simp] theorem sent_took : (w.took reply).sent = w.sent := by cases reply <;> rfl

@[simp] theorem hungUp_took : (w.took reply).hungUp = w.hungUp := by cases reply <;> rfl

theorem mem_refused_took {e : StreamError} (h : e ∈ (w.took reply).refused) :
    e ∈ w.refused ∨ reply = .error e := by
  cases reply with
  | ok ack => exact Or.inl h
  | error e' => exact (List.mem_append.mp h).imp_right fun hmem => by rw [List.mem_singleton.mp hmem]

end Wired

/-- The record of a call. -/
def wiring : Contract streamCalls where
  State := Wired
  Asks _ _ := True
  Replies _ _ _ := True
  observe w
    | .send request, true => { w with sent := w.sent ++ [request] }
    | .send _, false => w
    | .receive, some reply => w.took reply
    | .receive, none => w
    | .hangUp, _ => { w with hungUp := true }
    | .drain, some e => w.took (.error e)
    | .drain, none => w

/-- The wire is as the record of the call says, of which this was taken before. -/
structure Wire.Shows (before : List StatementReply) (l : Wire) (w : Wired) : Prop where
  sent : l.sent = w.sent
  hungUp : l.exchange.requests.senderOpen = !w.hungUp
  taken : ∃ more, l.taken = before ++ more ∧ ∀ e ∈ w.refused, Except.error e ∈ more

namespace Wire
variable {before : List StatementReply} {l l' : Wire} {w : Wired}

theorem shows_start (l : Wire) (hungUp : Bool) (h : l.exchange.requests.senderOpen = !hungUp) :
    l.Shows l.taken ⟨l.sent, hungUp, []⟩ :=
  ⟨rfl, h, [], (List.append_nil _).symm, fun _ he => absurd he List.not_mem_nil⟩

/-- The far end changes nothing that the record shows. -/
theorem Shows.peer (h : l.Shows before w) (a : PeerAct) : (l.peer a).Shows before w := by
  obtain ⟨hsent, hhungUp, htaken⟩ := h
  cases a with
  | reply reply =>
    simp only [Wire.peer]
    split
    · split <;> exact ⟨hsent, hhungUp, htaken⟩
    · exact ⟨hsent, hhungUp, htaken⟩
  | takeRequest =>
    obtain ⟨⟨⟨capacity, queue, senderOpen, receiverOpen⟩, replies⟩, sent, taken⟩ := l
    cases queue with
    | nil => cases senderOpen <;> exact ⟨hsent, hhungUp, htaken⟩
    | cons request rest => exact ⟨hsent, hhungUp, htaken⟩
  | dropRequests => exact ⟨hsent, hhungUp, htaken⟩
  | dropReplies => exact ⟨hsent, hhungUp, htaken⟩

theorem Shows.peers (h : l.Shows before w) (ticks : List Tick) : (l.peers ticks).Shows before w := by
  induction ticks generalizing l with
  | nil => exact h
  | cons tick rest ih =>
    cases tick with
    | caller => exact ih h
    | peer a => exact ih (h.peer a)

theorem sent_moved {x : Exchange} (hqueue : x.requests.queue = l.exchange.requests.queue) :
    (l.moved x).sent = l.sent := by
  rw [moved, Exchange.requestsPut, hqueue, List.drop_length, List.append_nil]

theorem taken_moved {x : Exchange} (hqueue : x.replies.queue = l.exchange.replies.queue) :
    (l.moved x).taken = l.taken := by
  rw [moved, Exchange.repliesTaken, hqueue, Nat.sub_self, List.take_zero, List.append_nil]

theorem moved_send {request : StatementRequest} {requests : Channel StatementRequest}
    (hsend : l.exchange.requests.send request = .sent requests) :
    (l.moved { l.exchange with requests := requests }).sent = l.sent ++ [request] ∧
      requests.senderOpen = l.exchange.requests.senderOpen := by
  unfold Channel.send at hsend
  split at hsend
  · cases hsend
  · split at hsend
    · cases hsend
      exact ⟨by rw [moved, Exchange.requestsPut, List.drop_left], rfl⟩
    · cases hsend

theorem taken_moved_receive {reply : StatementReply} {replies : Channel StatementReply}
    (hreceive : l.exchange.replies.receive = .message reply replies) :
    (l.moved { l.exchange with replies := replies }).taken = l.taken ++ [reply] := by
  rw [moved, Exchange.repliesTaken, (Channel.receive_message hreceive).1, List.length_cons,
    Nat.add_sub_cancel_left, List.take_succ_cons, List.take_zero]

/-- A reply that is taken is entered if it is an error. -/
theorem Shows.take {reply : StatementReply} {replies : Channel StatementReply}
    (h : l.Shows before w) (hreceive : l.exchange.replies.receive = .message reply replies) :
    (l.moved { l.exchange with replies := replies }).Shows before (w.took reply) := by
  obtain ⟨more, htaken, hrefused⟩ := h.taken
  refine ⟨(sent_moved rfl).trans (h.sent.trans (w.sent_took reply).symm),
    h.hungUp.trans (congrArg not (w.hungUp_took reply).symm), more ++ [reply], ?_, fun e he => ?_⟩
  · rw [taken_moved_receive hreceive, htaken, List.append_assoc]
  · rcases w.mem_refused_took reply he with hmem | rfl
    · exact List.mem_append_left _ (hrefused e hmem)
    · exact List.mem_append_right _ List.mem_cons_self

/-- A move that touches neither queue. -/
theorem Shows.same {x : Exchange} (h : l.Shows before w)
    (hrequests : x.requests.queue = l.exchange.requests.queue)
    (hreplies : x.replies.queue = l.exchange.replies.queue)
    (hopen : x.requests.senderOpen = l.exchange.requests.senderOpen) :
    (l.moved x).Shows before w :=
  ⟨(sent_moved hrequests).trans h.sent, hopen.trans h.hungUp, (taken_moved hreplies).symm ▸ h.taken⟩

/-- A move is entered if it answers the call; a reply that is passed over is not. -/
def Enters (before : List StatementReply) (l : Wire) (w : Wired) {call : StreamCall} :
    Exchange.Moved call → Prop
  | .waits => True
  | .passed x => (l.moved x).Shows before w
  | .answered reply x => (l.moved x).Shows before (wiring.observe w call reply)

theorem Shows.enters (h : l.Shows before w) (call : StreamCall) :
    l.Enters before w (l.exchange.move call) := by
  cases call with
  | send request =>
    cases hsend : l.exchange.requests.send request with
    | sent requests =>
      simp only [Exchange.move, Exchange.answer, hsend, Exchange.Moved.ofAnswer]
      obtain ⟨hsent, hopen⟩ := moved_send hsend
      refine ⟨?_, hopen.trans h.hungUp, (taken_moved rfl).symm ▸ h.taken⟩
      rw [hsent, h.sent]
      rfl
    | gone =>
      simp only [Exchange.move, Exchange.answer, hsend, Exchange.Moved.ofAnswer]
      exact h.same rfl rfl rfl
    | full =>
      simp only [Exchange.move, Exchange.answer, hsend, Exchange.Moved.ofAnswer]
      trivial
  | receive =>
    cases hreceive : l.exchange.replies.receive with
    | message first replies =>
      simp only [Exchange.move, Exchange.answer, hreceive, Exchange.Moved.ofAnswer]
      exact h.take hreceive
    | ended =>
      simp only [Exchange.move, Exchange.answer, hreceive, Exchange.Moved.ofAnswer]
      exact h.same rfl rfl rfl
    | empty =>
      simp only [Exchange.move, Exchange.answer, hreceive, Exchange.Moved.ofAnswer]
      trivial
  | hangUp => exact ⟨(sent_moved rfl).trans h.sent, rfl, (taken_moved rfl).symm ▸ h.taken⟩
  | drain =>
    cases hreceive : l.exchange.replies.receive with
    | message first replies =>
      simp only [Exchange.move, hreceive]
      cases first with
      | ok ack => exact h.take hreceive
      | error e => exact h.take hreceive
    | ended =>
      simp only [Exchange.move, hreceive]
      exact h.same rfl rfl rfl
    | empty =>
      simp only [Exchange.move, hreceive]
      trivial

/-- The record of a program that has made a move. -/
theorem Shows.advance {α : Type} {p q : Program streamCalls α} {post : α → Wired → Prop}
    (h : l.Shows before w) (hp : p.Ensures wiring w post) (hadvance : l.advance p = some (q, l')) :
    ∃ w', l'.Shows before w' ∧ q.Ensures wiring w' post := by
  cases p with
  | done a => cases hadvance
  | ask call next =>
    have henters := h.enters call
    cases hmove : l.exchange.move call with
    | waits =>
      rw [Wire.advance, Exchange.advance_of_waits hmove] at hadvance
      cases hadvance
    | passed x =>
      rw [Wire.advance, Exchange.advance_of_passed hmove] at hadvance
      cases hadvance
      rw [hmove] at henters
      exact ⟨w, henters, hp⟩
    | answered reply x =>
      rw [Wire.advance, Exchange.advance_of_answered hmove] at hadvance
      cases hadvance
      rw [hmove] at henters
      exact ⟨_, henters, hp.2 reply trivial⟩

/-- A program that keeps its contract ends as promised, whatever the far end does meanwhile. -/
theorem Shows.converse {α : Type} {p : Program streamCalls α} {post : α → Wired → Prop} {a : α}
    {ticks : List Tick} (h : l.Shows before w) (hp : p.Ensures wiring w post)
    (hdone : converse ticks (p, l) = (.done a, l')) : ∃ w', l'.Shows before w' ∧ post a w' := by
  induction ticks generalizing p l w with
  | nil =>
    cases hdone
    exact ⟨w, h, hp⟩
  | cons tick rest ih =>
    cases tick with
    | peer act => exact ih (h.peer act) hp hdone
    | caller =>
      rw [Wire.converse] at hdone
      cases hadvance : l.advance p with
      | none =>
        rw [hadvance] at hdone
        exact ih h hp hdone
      | some next =>
        obtain ⟨q, l₁⟩ := next
        rw [hadvance] at hdone
        obtain ⟨w₁, h₁, hq⟩ := h.advance hp hadvance
        exact ih h₁ hq hdone

end Wire

end CardHolds
