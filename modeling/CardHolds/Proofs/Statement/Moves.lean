import CardHolds.Statement.Exchange

/-!
# The caller's end, one move at a time

`Exchange.answer` carries out a call of the caller's end in one go.  Between two replies that a
closing caller passes over, the ledger side may act as well, so here a call is carried out in moves,
each of which touches one message at most (`Exchange.move`), and a program is advanced by the next
move of its next call (`Exchange.advance`).

Moves that the ledger side does not interrupt add up to the call (`Exchange.finish_move`) and to the
run of the program (`Exchange.run?_of_advance`).
-/

namespace CardHolds

namespace Exchange

/-- What comes of one move of a call. -/
inductive Moved (call : StreamCall) where
  /-- The call has to wait for the ledger side. -/
  | waits
  /-- A message was passed over, and the call goes on. -/
  | passed (x : Exchange)
  | answered (reply : streamCalls.Reply call) (x : Exchange)

/-- A call that takes one move. -/
def Moved.ofAnswer {call : StreamCall} : Option (streamCalls.Reply call × Exchange) → Moved call
  | some (reply, x) => .answered reply x
  | none => .waits

/-- The next move of a call. -/
def move : (call : StreamCall) → Exchange → Moved call
  | .send request, x => .ofAnswer (x.answer (.send request))
  | .receive, x => .ofAnswer (x.answer .receive)
  | .hangUp, x => .ofAnswer (x.answer .hangUp)
  | .drain, x =>
    match x.replies.receive with
    | .message (.ok _) replies => .passed { x with replies := replies }
    | .message (.error e) replies => .answered (some e) { x with replies := replies }
    | .ended => .answered none x
    | .empty => .waits

/-- The rest of a call after a move, in one go. -/
def Moved.finish {call : StreamCall} : Moved call → Option (streamCalls.Reply call × Exchange)
  | .waits => none
  | .passed x => x.answer call
  | .answered reply x => some (reply, x)

theorem Moved.finish_ofAnswer {call : StreamCall}
    (answer : Option (streamCalls.Reply call × Exchange)) :
    (Moved.ofAnswer answer).finish = answer := by
  cases answer <;> rfl

/-- The moves of a call come to the call. -/
theorem finish_move (call : StreamCall) (x : Exchange) : (x.move call).finish = x.answer call := by
  cases call with
  | send request => exact Moved.finish_ofAnswer _
  | receive => exact Moved.finish_ofAnswer _
  | hangUp => rfl
  | drain =>
    obtain ⟨requests, capacity, queue, senderOpen, receiverOpen⟩ := x
    cases queue with
    | nil => cases senderOpen <;> rfl
    | cons reply rest => cases reply <;> rfl

/-- The program after the next move of its next call, unless it is done or has to wait. -/
def advance {α : Type} (x : Exchange) :
    Program streamCalls α → Option (Program streamCalls α × Exchange)
  | .done _ => none
  | .ask call next =>
    match x.move call with
    | .waits => none
    | .passed y => some (.ask call next, y)
    | .answered reply y => some (next reply, y)

theorem advance_of_waits {α : Type} {x : Exchange} {call : StreamCall}
    {next : streamCalls.Reply call → Program streamCalls α} (h : x.move call = .waits) :
    x.advance (.ask call next) = none := by
  simp only [advance, h]

theorem advance_of_passed {α : Type} {x y : Exchange} {call : StreamCall}
    {next : streamCalls.Reply call → Program streamCalls α} (h : x.move call = .passed y) :
    x.advance (.ask call next) = some (.ask call next, y) := by
  simp only [advance, h]

theorem advance_of_answered {α : Type} {x y : Exchange} {call : StreamCall}
    {reply : streamCalls.Reply call} {next : streamCalls.Reply call → Program streamCalls α}
    (h : x.move call = .answered reply y) :
    x.advance (.ask call next) = some (next reply, y) := by
  simp only [advance, h]

theorem run?_ask {α : Type} {x : Exchange} {call : StreamCall}
    {next : streamCalls.Reply call → Program streamCalls α} :
    x.run? (.ask call next) = (x.answer call).bind fun answered => answered.2.run? (next answered.1) := by
  unfold run?
  rw [Program.run?]
  cases x.answer call <;> rfl

/-- The moves of a program come to its run. -/
theorem run?_of_advance {α : Type} {x y : Exchange} {p q : Program streamCalls α}
    (h : x.advance p = some (q, y)) : x.run? p = y.run? q := by
  cases p with
  | done a => cases h
  | ask call next =>
    have hfinish := finish_move call x
    cases hmove : x.move call with
    | waits => rw [advance_of_waits hmove] at h; cases h
    | passed z =>
      rw [advance_of_passed hmove] at h
      cases h
      rw [hmove] at hfinish
      rw [run?_ask, run?_ask, ← hfinish]
      rfl
    | answered reply z =>
      rw [advance_of_answered hmove] at h
      cases h
      rw [hmove] at hfinish
      rw [run?_ask, ← hfinish]
      rfl

/-- A program that can make no move is done or waits. -/
theorem run?_of_advance_eq_none {α : Type} {x : Exchange} {p : Program streamCalls α}
    (h : x.advance p = none) : (∃ a, p = .done a) ∨ x.run? p = none := by
  cases p with
  | done a => exact Or.inl ⟨a, rfl⟩
  | ask call next =>
    refine Or.inr ?_
    have hfinish := finish_move call x
    cases hmove : x.move call with
    | waits =>
      rw [hmove] at hfinish
      rw [run?_ask, ← hfinish]
      rfl
    | passed z => rw [advance_of_passed hmove] at h; cases h
    | answered reply z => rw [advance_of_answered hmove] at h; cases h

end Exchange

end CardHolds
