import CardHolds.Proofs.Statement.Script
import CardHolds.Proofs.Statement.Wire

/-!
# Scripts and conversations

A far end that replies, takes requests and drops its ends at any time has played some script, and to
the caller the conversation is a run against it (`Wire.converse_script`): each move of the caller, and
whatever the far end does between two of them, is part of a script that goes on as the rest of the
conversation (`Wire.Plays.advance`, `Wire.Plays.peer`).

Conversely every script is played by a far end that replies when the caller waits for it and takes each
request at once, so that the caller comes to the end of its program over channels of any capacity
(`Wire.Waits.exists_converse`).

Main statement (`Script.batch_decided`): the replies decide what a batch comes to.
-/

namespace CardHolds

open Program

/-! ## The script of a conversation -/

/-- What the far end of a wire does between two of its states, as a script. -/
structure Wire.Plays (s : Script) (l l' : Wire) : Prop where
  /-- The replies are those that the caller takes, and those that are left in the end. -/
  replies : ∃ more, l'.taken = l.taken ++ more ∧ s.replies = more ++ l'.exchange.replies.queue
  /-- Where the far end has ended its side, these are the ones that are queued. -/
  ended : l.exchange.replies.senderOpen = false → s.replies = l.exchange.replies.queue
  /-- Where it has dropped its request end, no request is taken. -/
  dropped : l.exchange.requests.receiverOpen = false → s.takes = some 0
  /-- It takes every request, unless it has dropped its end. -/
  drops : s.takes ≠ none → l'.exchange.requests.receiverOpen = false

namespace Wire
variable {s : Script} {l l₁ l' : Wire} {reply : StatementReply} {α : Type}

theorem exists_plays_self (l : Wire) : ∃ s, Plays s l l := by
  refine ⟨⟨l.exchange.replies.queue, if l.exchange.requests.receiverOpen then none else some 0⟩,
    ⟨[], (List.append_nil _).symm, rfl⟩, fun _ => rfl, fun h => ?_, fun h => ?_⟩
  · rw [h, if_neg Bool.false_ne_true]
  · rw [← Bool.not_eq_true]
    exact fun hopen => h (by rw [hopen, if_pos rfl])

theorem sent_peer (l : Wire) (a : PeerAct) : (l.peer a).sent = l.sent := by
  cases a with
  | reply reply =>
    simp only [Wire.peer]
    split
    · split <;> rfl
    · rfl
  | takeRequest =>
    simp only [Wire.peer]
    split <;> rfl
  | dropRequests => rfl
  | dropReplies => rfl

/-- Whatever the far end does between two moves of the caller, the script is the same. -/
theorem Plays.peer {a : PeerAct} (h : Plays s (l.peer a) l') : Plays s l l' := by
  obtain ⟨hreplies, hended, hdropped, hdrops⟩ := h
  obtain ⟨⟨requests, replies⟩, sent, taken⟩ := l
  cases a with
  | reply reply =>
    obtain ⟨capacity, queue, senderOpen, receiverOpen⟩ := replies
    cases senderOpen with
    | false => exact ⟨hreplies, hended, hdropped, hdrops⟩
    | true =>
      simp only [Wire.peer, if_true] at hreplies hdropped
      refine ⟨?_, fun h => (by cases h), ?_, hdrops⟩
      · split at hreplies <;> exact hreplies
      · split at hdropped <;> exact hdropped
  | takeRequest =>
    obtain ⟨capacity, queue, senderOpen, receiverOpen⟩ := requests
    cases queue with
    | nil => cases senderOpen <;> exact ⟨hreplies, hended, hdropped, hdrops⟩
    | cons request rest => exact ⟨hreplies, hended, hdropped, hdrops⟩
  | dropRequests => exact ⟨hreplies, hended, fun _ => hdropped rfl, hdrops⟩
  | dropReplies => exact ⟨hreplies, fun _ => hended rfl, hdropped, hdrops⟩

/-- A move that touches no queue. -/
theorem Plays.same {x : Exchange} (h : Plays s (l.moved x) l')
    (hreplies : x.replies = l.exchange.replies)
    (hopen : x.requests.receiverOpen = l.exchange.requests.receiverOpen) : Plays s l l' where
  replies := taken_moved (l := l) (congrArg Channel.queue hreplies) ▸ h.replies
  ended := hreplies ▸ h.ended
  dropped := hopen ▸ h.dropped
  drops := h.drops

/-- A reply is taken, so it is the first of the script. -/
theorem Plays.take {replies : Channel StatementReply}
    (h : Plays s (l.moved { l.exchange with replies := replies }) l')
    (hreceive : l.exchange.replies.receive = .message reply replies) :
    Plays ⟨reply :: s.replies, s.takes⟩ l l' := by
  obtain ⟨more, htaken, hreplies⟩ := h.replies
  rw [taken_moved_receive hreceive, List.append_assoc] at htaken
  obtain ⟨hqueue, hchannel⟩ := Channel.receive_message hreceive
  refine ⟨⟨reply :: more, htaken, congrArg (reply :: ·) hreplies⟩, fun hended => ?_, h.dropped,
    h.drops⟩
  rw [hqueue]
  exact congrArg (reply :: ·) (h.ended ((congrArg Channel.senderOpen hchannel).trans hended))

/-- A request is sent, so the script takes one more. -/
theorem Plays.put {request : StatementRequest} {requests : Channel StatementRequest}
    (h : Plays s (l.moved { l.exchange with requests := requests }) l')
    (hsend : l.exchange.requests.send request = .sent requests) :
    Plays ⟨s.replies, s.takes.map (· + 1)⟩ l l' := by
  refine ⟨taken_moved (l := l) (x := { l.exchange with requests := requests }) rfl ▸ h.replies,
    h.ended, fun hdropped => ?_, fun htakes => h.drops fun hnone => ?_⟩
  · rw [Channel.send, hdropped] at hsend
    cases hsend
  · exact htakes (by rw [hnone, Option.map_none])

/-- The far end that goes on as `s₁` after a move was some script before it, whose answer to the call
is that of the move. -/
def Replays (s₁ : Script) (l l' : Wire) {call : StreamCall} : Exchange.Moved call → Prop
  | .waits => True
  | .passed x => Plays s₁ (l.moved x) l' → ∃ s, Plays s l l' ∧
      Script.answer call (s, l.sent) = Script.answer call (s₁, (l.moved x).sent)
  | .answered reply x => Plays s₁ (l.moved x) l' → ∃ s, Plays s l l' ∧
      Script.answer call (s, l.sent) = (reply, s₁, (l.moved x).sent)

theorem replays (s₁ : Script) (l l' : Wire) (call : StreamCall) :
    Replays s₁ l l' (l.exchange.move call) := by
  cases call with
  | send request =>
    cases hsend : l.exchange.requests.send request with
    | sent requests =>
      simp only [Exchange.move, Exchange.answer, hsend, Exchange.Moved.ofAnswer]
      intro h
      refine ⟨_, h.put hsend, ?_⟩
      have htakes : s₁.takes.map (· + 1) ≠ some 0 := by cases s₁.takes <;> simp
      simp only [Script.answer, if_neg htakes, Script.left, Option.map_map, (moved_send hsend).1]
      simp [Function.comp_def]
    | gone =>
      simp only [Exchange.move, Exchange.answer, hsend, Exchange.Moved.ofAnswer]
      intro h
      have hplays : Plays s₁ l l' := h.same rfl rfl
      refine ⟨s₁, hplays, ?_⟩
      simp only [Script.answer, if_pos (hplays.dropped (Channel.send_gone hsend)), sent_moved]
    | full =>
      simp only [Exchange.move, Exchange.answer, hsend, Exchange.Moved.ofAnswer]
      trivial
  | receive =>
    cases hreceive : l.exchange.replies.receive with
    | message first replies =>
      simp only [Exchange.move, Exchange.answer, hreceive, Exchange.Moved.ofAnswer]
      intro h
      exact ⟨_, h.take hreceive, by simp only [sent_moved]; rfl⟩
    | ended =>
      simp only [Exchange.move, Exchange.answer, hreceive, Exchange.Moved.ofAnswer]
      intro h
      have hplays : Plays s₁ l l' := h.same rfl rfl
      obtain ⟨hqueue, hopen⟩ := Channel.receive_ended hreceive
      obtain ⟨replies, takes⟩ := s₁
      cases (hplays.ended hopen).trans hqueue
      exact ⟨_, hplays, by simp only [sent_moved]; rfl⟩
    | empty =>
      simp only [Exchange.move, Exchange.answer, hreceive, Exchange.Moved.ofAnswer]
      trivial
  | hangUp =>
    intro h
    exact ⟨s₁, h.same rfl rfl, congrArg (fun sent => ((), s₁, sent)) (sent_moved rfl).symm⟩
  | drain =>
    cases hreceive : l.exchange.replies.receive with
    | message first replies =>
      simp only [Exchange.move, hreceive]
      cases first with
      | ok ack =>
        intro h
        exact ⟨_, h.take hreceive, by simp only [sent_moved]; rfl⟩
      | error e =>
        intro h
        exact ⟨_, h.take hreceive, by simp only [sent_moved]; rfl⟩
    | ended =>
      simp only [Exchange.move, hreceive]
      intro h
      have hplays : Plays s₁ l l' := h.same rfl rfl
      obtain ⟨hqueue, hopen⟩ := Channel.receive_ended hreceive
      obtain ⟨replies, takes⟩ := s₁
      cases (hplays.ended hopen).trans hqueue
      exact ⟨_, hplays, by simp only [sent_moved]; rfl⟩
    | empty =>
      simp only [Exchange.move, hreceive]
      trivial

/-- A move of the caller is one of a run against a script. -/
theorem Plays.advance {p q : Program streamCalls α} (h : Plays s l₁ l')
    (hadvance : l.advance p = some (q, l₁)) :
    ∃ s₀, Plays s₀ l l' ∧
      p.run Script.answer (s₀, l.sent) = q.run Script.answer (s, l₁.sent) := by
  cases p with
  | done a => cases hadvance
  | ask call next =>
    have hreplays := replays s l l' call
    cases hmove : l.exchange.move call with
    | waits =>
      rw [Wire.advance, Exchange.advance_of_waits hmove] at hadvance
      cases hadvance
    | passed x =>
      rw [Wire.advance, Exchange.advance_of_passed hmove] at hadvance
      cases hadvance
      rw [hmove] at hreplays
      obtain ⟨s₀, hplays, hanswer⟩ := hreplays h
      exact ⟨s₀, hplays, by rw [run_ask, run_ask, hanswer]⟩
    | answered reply x =>
      rw [Wire.advance, Exchange.advance_of_answered hmove] at hadvance
      cases hadvance
      rw [hmove] at hreplays
      obtain ⟨s₀, hplays, hanswer⟩ := hreplays h
      exact ⟨s₀, hplays, by rw [run_ask, hanswer]⟩

/-- **A conversation is a run against a script**, whenever the far end acts and whatever it does. -/
theorem converse_script {p : Program streamCalls α} {a : α} {ticks : List Tick}
    (hdone : converse ticks (p, l) = (.done a, l')) :
    ∃ s, Plays s l l' ∧ (p.run Script.answer (s, l.sent)).1 = a ∧
      (p.run Script.answer (s, l.sent)).2.2 = l'.sent := by
  induction ticks generalizing p l with
  | nil =>
    cases hdone
    obtain ⟨s, hplays⟩ := l'.exists_plays_self
    exact ⟨s, hplays, rfl, rfl⟩
  | cons tick rest ih =>
    cases tick with
    | peer act =>
      obtain ⟨s, hplays, hrun⟩ := ih hdone
      rw [sent_peer] at hrun
      exact ⟨s, hplays.peer, hrun⟩
    | caller =>
      rw [Wire.converse] at hdone
      cases hadvance : l.advance p with
      | none =>
        rw [hadvance] at hdone
        exact ih hdone
      | some next =>
        obtain ⟨q, l₁⟩ := next
        rw [hadvance] at hdone
        obtain ⟨s₁, hplays₁, hrun⟩ := ih hdone
        obtain ⟨s, hplays, heq⟩ := hplays₁.advance hadvance
        exact ⟨s, hplays, heq ▸ hrun⟩

/-! ## A conversation for each script -/

variable {whole : Script} {later : List StatementReply}

theorem converse_append (ticks more : List Tick) (st : Program streamCalls α × Wire) :
    converse (ticks ++ more) st = converse more (converse ticks st) := by
  induction ticks generalizing st with
  | nil => rfl
  | cons tick rest ih =>
    cases tick with
    | caller => exact ih _
    | peer a => exact ih _

/-- A call that is answered in one move. -/
theorem converse_answered {call : StreamCall} {x : Exchange} {reply : streamCalls.Reply call}
    (hmove : l.exchange.move call = .answered reply x)
    (next : streamCalls.Reply call → Program streamCalls α) :
    converse [.caller] (.ask call next, l) = (next reply, l.moved x) := by
  rw [converse, Wire.advance, Exchange.advance_of_answered hmove]
  rfl

/-- A move after which the call goes on. -/
theorem converse_passed {call : StreamCall} {x : Exchange} (hmove : l.exchange.move call = .passed x)
    (next : streamCalls.Reply call → Program streamCalls α) :
    converse [.caller] (.ask call next, l) = (.ask call next, l.moved x) := by
  rw [converse, Wire.advance, Exchange.advance_of_passed hmove]
  rfl

/-- A wire with no request under way, and these replies. -/
def offering (replies : List StatementReply) (n m : ℕ) (sending listening replying : Bool)
    (sent : List StatementRequest) (taken : List StatementReply) : Wire :=
  ⟨⟨⟨n, [], sending, listening⟩, ⟨m, replies, replying, true⟩⟩, sent, taken⟩

/-- A wire with nothing under way. -/
@[reducible] def idle := offering []

section Idle
variable {n m : ℕ} {sending listening replying : Bool} {sent : List StatementRequest}
  {taken : List StatementReply}

/-- What a move puts on an idle wire is sent. -/
theorem moved_idle (x : Exchange) :
    (idle n m sending listening replying sent taken).moved x =
      ⟨x, sent ++ x.requests.queue, taken⟩ := by
  rw [moved, Exchange.repliesTaken]
  exact congrArg (Wire.mk x _) (by simp [offering])

theorem moved_idle_self :
    (idle n m sending listening replying sent taken).moved
      (idle n m sending listening replying sent taken).exchange =
        idle n m sending listening replying sent taken := by
  rw [moved_idle]
  exact congrArg (Wire.mk _ · taken) (List.append_nil sent)

theorem moved_offering (reply : StatementReply) :
    (offering [reply] n m sending listening replying sent taken).moved
      (idle n m sending listening replying sent taken).exchange =
        idle n m sending listening replying sent (taken ++ [reply]) := by
  rw [moved]
  exact congrArg (Wire.mk _ · _) (List.append_nil sent)

theorem converse_send (hn : 0 < n) (request : StatementRequest) (next : Bool → Program streamCalls α) :
    converse [.caller, .peer .takeRequest]
        (.ask (.send request) next, idle n m sending true replying sent taken) =
      (next true, idle n m sending true replying (sent ++ [request]) taken) := by
  have hmove : (idle n m sending true replying sent taken).exchange.move (.send request) =
      .answered true ⟨⟨n, [request], sending, true⟩, ⟨m, [], replying, true⟩⟩ := by
    simp only [Exchange.move, Exchange.answer, Channel.send, offering, List.length_nil, hn, if_true]
    rfl
  refine (converse_append [.caller] [.peer .takeRequest] _).trans ?_
  rw [converse_answered hmove, moved_idle]
  rfl

theorem converse_dropped (request : StatementRequest) (next : Bool → Program streamCalls α) :
    converse [.peer .dropRequests, .caller]
        (.ask (.send request) next, idle n m sending listening replying sent taken) =
      (next false, idle n m sending false replying sent taken) := by
  show converse [.caller] (_, idle n m sending false replying sent taken) = _
  rw [converse_answered rfl]
  exact congrArg (Prod.mk _) moved_idle_self

theorem converse_hangUp (next : Unit → Program streamCalls α) :
    converse [.caller] (.ask .hangUp next, idle n m sending listening replying sent taken) =
      (next (), idle n m false listening replying sent taken) := by
  rw [converse_answered rfl, moved_idle]
  exact congrArg (fun sent => (next (), idle n m false listening replying sent taken))
    (List.append_nil sent)

theorem peer_reply (hm : 0 < m) (reply : StatementReply) :
    (idle n m sending listening true sent taken).peer (.reply reply) =
      offering [reply] n m sending listening true sent taken := by
  simp [offering, peer, Exchange.putReply, Channel.send, hm]

theorem converse_receive (hm : 0 < m) (reply : StatementReply)
    (next : Option StatementReply → Program streamCalls α) :
    converse [.peer (.reply reply), .caller]
        (.ask .receive next, idle n m sending listening true sent taken) =
      (next (some reply), idle n m sending listening true sent (taken ++ [reply])) := by
  rw [converse, peer_reply hm, converse_answered rfl]
  exact congrArg (Prod.mk _) (moved_offering reply)

theorem converse_drain (hm : 0 < m) (reply : StatementReply)
    (next : Option StreamError → Program streamCalls α) :
    converse [.peer (.reply reply), .caller]
        (.ask .drain next, idle n m sending listening true sent taken) =
      (match reply with
        | .ok _ => .ask .drain next
        | .error e => next (some e), idle n m sending listening true sent (taken ++ [reply])) := by
  rw [converse, peer_reply hm]
  cases reply with
  | ok ack =>
    rw [converse_passed rfl]
    exact congrArg (Prod.mk _) (moved_offering (.ok ack))
  | error e =>
    rw [converse_answered rfl]
    exact congrArg (Prod.mk _) (moved_offering (.error e))

theorem converse_receive_ended (next : Option StatementReply → Program streamCalls α) :
    converse [.peer .dropReplies, .caller]
        (.ask .receive next, idle n m sending listening replying sent taken) =
      (next none, idle n m sending listening false sent taken) := by
  show converse [.caller] (_, idle n m sending listening false sent taken) = _
  rw [converse_answered rfl]
  exact congrArg (Prod.mk _) moved_idle_self

theorem converse_drain_ended (next : Option StreamError → Program streamCalls α) :
    converse [.peer .dropReplies, .caller]
        (.ask .drain next, idle n m sending listening replying sent taken) =
      (next none, idle n m sending listening false sent taken) := by
  show converse [.caller] (_, idle n m sending listening false sent taken) = _
  rw [converse_answered rfl]
  exact congrArg (Prod.mk _) moved_idle_self

end Idle

/-- The far end has done a part of the script `whole`, has still the other part to do, and waits. -/
inductive Waits (whole : Script) : Script → Wire → Prop
  | mk {n m sending listening replying sent taken s} (room : 0 < n ∧ 0 < m)
      (replies : whole.replies = taken ++ s.replies)
      (takes : whole.takes = s.takes.map (· + sent.length))
      (ended : replying = false → s.replies = []) (dropped : listening = false → s.takes = some 0) :
      Waits whole s (idle n m sending listening replying sent taken)

/-- The far end can act so that the call is answered in this way, with this much of the script left. -/
def Answers (whole : Script) (l : Wire) {call : StreamCall}
    (outcome : streamCalls.Reply call × Script × List StatementRequest) : Prop :=
  ∀ (α : Type) (next : streamCalls.Reply call → Program streamCalls α), ∃ ticks l',
    converse ticks (.ask call next, l) = (next outcome.1, l') ∧ Waits whole outcome.2.1 l' ∧
      l'.sent = outcome.2.2

variable {n m : ℕ} {sending listening replying : Bool} {sent : List StatementRequest}
  {taken : List StatementReply}

/-- The drain of what is left of a script. -/
theorem answers_drain (room : 0 < n ∧ 0 < m) (replies : whole.replies = taken ++ s.replies)
    (takes : whole.takes = s.takes.map (· + sent.length)) (ended : replying = false → s.replies = [])
    (dropped : listening = false → s.takes = some 0) :
    Answers whole (idle n m sending listening replying sent taken)
      (Script.answer .drain (s, sent)) := by
  intro α next
  obtain ⟨left, takes'⟩ := s
  induction left generalizing taken replying with
  | nil =>
    exact ⟨_, _, converse_drain_ended next, .mk room replies takes (fun _ => rfl) dropped, rfl⟩
  | cons reply later ih =>
    cases replying with
    | false => cases ended rfl
    | true =>
      have hreplies : whole.replies = (taken ++ [reply]) ++ later := by
        rw [List.append_assoc]
        exact replies
      cases reply with
      | ok ack =>
        obtain ⟨ticks, l', hconverse, hwaits, hsent⟩ :=
          @ih true (taken ++ [.ok ack]) hreplies takes nofun dropped
        refine ⟨[.peer (.reply (.ok ack)), .caller] ++ ticks, l', ?_, hwaits, hsent⟩
        rw [converse_append, converse_drain room.2]
        exact hconverse
      | error e =>
        exact ⟨_, _, converse_drain room.2 (.error e) next, .mk room hreplies takes nofun dropped, rfl⟩

/-- **The far end can act so that a call is answered as its script says.** -/
theorem Waits.answers (h : Waits whole s l) (call : StreamCall) :
    Answers whole l (Script.answer call (s, l.sent)) := by
  obtain @⟨n, m, sending, listening, replying, sent, taken, s, room, replies, takes, ended,
    dropped⟩ := h
  show Answers whole _ (Script.answer call (s, sent))
  cases call with
  | drain => exact answers_drain room replies takes ended dropped
  | hangUp =>
    intro α next
    exact ⟨_, _, converse_hangUp next, .mk room replies takes ended dropped, rfl⟩
  | send request =>
    intro α next
    by_cases htakes : s.takes = some 0
    · rw [Script.answer, if_pos htakes]
      exact ⟨_, _, converse_dropped request next, .mk room replies takes ended fun _ => htakes, rfl⟩
    · rw [Script.answer, if_neg htakes]
      cases listening with
      | false => exact absurd (dropped rfl) htakes
      | true =>
        refine ⟨_, _, converse_send room.1 request next,
          .mk room replies ?_ ended (fun h => by cases h), rfl⟩
        rw [takes]
        cases htakes' : s.takes with
        | none => simp [Script.left, htakes']
        | some k =>
          have hk : k ≠ 0 := fun hk => htakes (htakes'.trans (congrArg some hk))
          simp only [Script.left, htakes', Option.map_some, List.length_append, List.length_singleton]
          exact congrArg some (by omega)
  | receive =>
    intro α next
    obtain ⟨left, takes'⟩ := s
    cases left with
    | nil =>
      exact ⟨_, _, converse_receive_ended next, .mk room replies takes (fun _ => rfl) dropped, rfl⟩
    | cons reply later =>
      cases replying with
      | false => cases ended rfl
      | true =>
        refine ⟨_, _, converse_receive room.2 reply next,
          .mk room ?_ takes (fun h => by cases h) dropped, rfl⟩
        rw [List.append_assoc]
        exact replies

/-- A program can be run to its end as against a script. -/
theorem Waits.exists_converse (h : Waits whole s l) (p : Program streamCalls α) : ∃ ticks s' l',
    converse ticks (p, l) = (.done (p.run Script.answer (s, l.sent)).1, l') ∧ Waits whole s' l' ∧
      l'.sent = (p.run Script.answer (s, l.sent)).2.2 := by
  induction p generalizing s l with
  | done a => exact ⟨[], s, l, rfl, h, rfl⟩
  | ask call next ih =>
    obtain ⟨ticks, l₁, hconverse, hwaits, hsent⟩ := h.answers call α next
    obtain ⟨more, s', l', hconverse', hwaits', hsent'⟩ :=
      ih (Script.answer call (s, l.sent)).1 hwaits
    refine ⟨ticks ++ more, s', l', ?_, hwaits', ?_⟩
    · rw [converse_append, hconverse, hconverse', hsent]
      rfl
    · rw [hsent', hsent]
      rfl

/-! ## The batch -/

/-- A fresh stream whose channels have these capacities. -/
def start (requests replies : ℕ) : Wire := { exchange := ⟨.ofCapacity requests, .ofCapacity replies⟩ }

/-- The far end of a fresh stream has played a script up to the state of the wire. -/
structure Follows (s : Script) (l : Wire) : Prop where
  /-- The caller has taken the first replies of the script. -/
  replies : l.taken <+: s.replies
  /-- Where the far end has ended its side, these are all. -/
  ended : l.exchange.replies.senderOpen = false → l.taken = s.replies
  /-- Where it has dropped its request end, it has done so after as many requests as it was to take. -/
  dropped : l.exchange.requests.receiverOpen = false → s.takes = some l.sent.length

theorem Waits.follows {left : Script} (h : Waits whole left l) : Follows whole l := by
  obtain ⟨room, replies, takes, ended, dropped⟩ := h
  refine ⟨⟨left.replies, replies.symm⟩, fun h => ?_, fun h => ?_⟩
  · rw [replies, ended h, List.append_nil]
    rfl
  · rw [takes, dropped h, Option.map_some, Nat.zero_add]
    rfl

theorem waits_start (s : Script) (n m : ℕ) : Waits s s (start n m) :=
  .mk ⟨lt_of_lt_of_le Nat.zero_lt_one (Nat.le_max_left 1 n),
    lt_of_lt_of_le Nat.zero_lt_one (Nat.le_max_left 1 m)⟩ rfl Option.map_id'.symm
    (fun h => (by cases h)) fun h => by cases h

end Wire

namespace Script
variable {requests : List StatementRequest} {result : Except StreamError (List StatementAck)}
  {ticks : List Tick} {l' : Wire} {n m : ℕ}

/-- A batch over a fresh stream comes to what it comes to against the script that is played. -/
theorem propagate_of_converse
    (hdone : Wire.converse ticks (CardHolds.propagate requests, Wire.start n m) =
      (.done result, l')) :
    ∃ s, Wire.Plays s (Wire.start n m) l' ∧ s.propagate requests = (result, l'.sent) := by
  obtain ⟨s, hplays, hresult, hsent⟩ := Wire.converse_script hdone
  exact ⟨s, hplays, Prod.ext hresult hsent⟩

/-- A batch against a script is one over channels of any capacity. -/
theorem exists_converse_propagate (s : Script) (requests : List StatementRequest) (n m : ℕ) :
    ∃ ticks l', Wire.converse ticks (CardHolds.propagate requests, Wire.start n m) =
        (.done (s.propagate requests).1, l') ∧
      l'.sent = (s.propagate requests).2 ∧ Wire.Follows s l' := by
  obtain ⟨ticks, left, l', hconverse, hwaits, hsent⟩ :=
    (Wire.waits_start s n m).exists_converse (CardHolds.propagate requests)
  exact ⟨ticks, l', hconverse, hsent, hwaits.follows⟩

/-- **The replies decide a batch.**  Against every script a batch succeeds just if its requests are all
taken, are acknowledged one after the other, and no error follows, and answers with these
acknowledgements; otherwise it fails with the error of the first deviation, and the requests up to it
are on the wire.  This is so over two channels of any capacity: for every script some far end that
follows it lets the batch end in this way, and however a conversation has gone, it has ended as the
script says that the far end has played. -/
theorem batch_decided (requests : List StatementRequest) :
    (∀ s : Script, s.Decides requests (s.propagate requests) ∧
      ∀ n m, ∃ ticks l', Wire.converse ticks (CardHolds.propagate requests, Wire.start n m) =
          (.done (s.propagate requests).1, l') ∧
        l'.sent = (s.propagate requests).2 ∧ Wire.Follows s l') ∧
    ∀ n m ticks result l',
      Wire.converse ticks (CardHolds.propagate requests, Wire.start n m) = (.done result, l') →
        ∃ s, Wire.Plays s (Wire.start n m) l' ∧ s.Decides requests (result, l'.sent) := by
  refine ⟨fun s => ⟨s.decides_propagate requests, s.exists_converse_propagate requests⟩,
    fun n m ticks result l' hdone => ?_⟩
  obtain ⟨s, hplays, hpropagate⟩ := propagate_of_converse hdone
  exact ⟨s, hplays, hpropagate ▸ s.decides_propagate requests⟩

end Script

namespace QueuedAhead

def first : StatementRequest := ⟨⟨"customer"⟩, ⟨"payment"⟩⟩

def second : StatementRequest := ⟨⟨"merchant"⟩, ⟨"payment"⟩⟩

/-- Both replies are there before the first request, and both acknowledge it; the far end takes one
request, and leaves after the second was sent. -/
def ticks : List Tick :=
  [.peer (.reply (.ok ⟨first.account, first.payment, 1⟩)),
    .peer (.reply (.ok ⟨first.account, first.payment, 2⟩)), .caller, .peer .takeRequest, .caller,
    .caller, .peer .dropRequests, .caller, .caller]

/-- The wire in the end. -/
def ended : Wire := (Wire.converse ticks (propagate [first, second], Wire.start 1 2)).2

/-- The acknowledgement that is queued for the second request is for the first. -/
theorem batch_decided_queuedAhead :
    Wire.converse ticks (propagate [first, second], Wire.start 1 2) =
        (.done (.error (.ackMismatch "payment@merchant" "payment@customer")), ended) ∧
      ended.sent = [first, second] ∧
      ∃ s, Wire.Plays s (Wire.start 1 2) ended ∧
        s.Deviates [first, second] (.ackMismatch "payment@merchant" "payment@customer")
          [first, second] := by
  have hdone : Wire.converse ticks (propagate [first, second], Wire.start 1 2) =
      (.done (.error (.ackMismatch "payment@merchant" "payment@customer")), ended) := by
    rfl
  obtain ⟨s, hplays, hdecides⟩ := (Script.batch_decided [first, second]).2 1 2 ticks _ ended hdone
  exact ⟨hdone, rfl, s, hplays, hdecides.error_sent _ rfl⟩

end QueuedAhead

end CardHolds
