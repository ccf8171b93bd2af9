import CardHolds.Proofs.Statement.Batch
import Mathlib.Data.List.Forall2

/-!
# A batch and the replies to it

To the caller the far end of a stream is a `Script`: the replies that it sends before it ends its side,
and how many requests it takes before it drops its request end.  `Script.propagate` is a batch against
a script.

A script acknowledges some requests at the front of a batch (`Script.Acknowledges`).  Either these are
all and no error follows (`Script.Honours`), or there is a first deviation (`Script.Deviates`).  Which
of the two it is decides what the batch comes to (`Script.decides_propagate`).
-/

namespace CardHolds

open Program

/-- What the far end of a stream has still to do. -/
structure Script where
  /-- The replies that it sends before it ends its side. -/
  replies : List StatementReply
  /-- How many requests it takes before it drops its request end, if it ever does. -/
  takes : Option ℕ := none

namespace Script

/-- What is left of a script after some requests, with these replies to go. -/
def left (s : Script) (taken : ℕ) (later : List StatementReply) : Script :=
  ⟨later, s.takes.map (· - taken)⟩

/-- A script answers a call of the caller's end, which keeps what it has put on the wire. -/
def answer : (c : StreamCall) → Script × List StatementRequest →
    streamCalls.Reply c × Script × List StatementRequest
  | .send request, (s, sent) =>
    if s.takes = some 0 then (false, s, sent) else (true, s.left 1 s.replies, sent ++ [request])
  | .receive, (s, sent) => (s.replies.head?, { s with replies := s.replies.tail }, sent)
  | .hangUp, (s, sent) => ((), s, sent)
  | .drain, (s, sent) =>
    (firstError? s.replies,
      { s with replies := (s.replies.dropWhile fun reply => reply.isOk).tail }, sent)

/-- The batch over a fresh stream: what it answers, and the requests that it has put on the wire. -/
def propagate (s : Script) (requests : List StatementRequest) :
    Except StreamError (List StatementAck) × List StatementRequest :=
  let outcome := (CardHolds.propagate requests).run answer (s, [])
  (outcome.1, outcome.2.2)

/-! ## What a script comes to -/

/-- The script takes these requests, acknowledges them one after the other and has `later` to reply
after that. -/
structure Acknowledges (s : Script) (requests : List StatementRequest) (acks : List StatementAck)
    (later : List StatementReply) : Prop where
  takes : ∀ n, s.takes = some n → requests.length ≤ n
  replies : s.replies = acks.map .ok ++ later
  matching : List.Forall₂ (fun r ack => r.acknowledgedBy ack = true) requests acks

/-- The script acknowledges the batch, and no error follows. -/
def Honours (s : Script) (requests : List StatementRequest) (acks : List StatementAck) : Prop :=
  ∃ surplus, s.Acknowledges requests acks surplus ∧ ∀ reply ∈ surplus, reply.isOk = true

/-- The first deviation of a script from a batch: the error that it is reported as, and the requests
that are on the wire by then. -/
inductive Deviates (s : Script) (requests : List StatementRequest) :
    StreamError → List StatementRequest → Prop
  /-- The next request could not be sent. -/
  | unsent {before after request acks later} (split : requests = before ++ request :: after)
      (acknowledged : s.Acknowledges before acks later) (dropped : s.takes = some before.length) :
      Deviates s requests (.send "channel closed") before
  /-- The replies ended. -/
  | missing {before after request acks} (split : requests = before ++ request :: after)
      (acknowledged : s.Acknowledges before acks []) (taken : s.takes ≠ some before.length) :
      Deviates s requests .missingAck (before ++ [request])
  /-- Something else was acknowledged. -/
  | mismatch {before after request acks ack later} (split : requests = before ++ request :: after)
      (acknowledged : s.Acknowledges before acks (.ok ack :: later))
      (taken : s.takes ≠ some before.length) (wrong : request.acknowledgedBy ack = false) :
      Deviates s requests (.ackMismatch request.label ack.label) (before ++ [request])
  /-- The reply was an error. -/
  | refused {before after request acks e later} (split : requests = before ++ request :: after)
      (acknowledged : s.Acknowledges before acks (.error e :: later))
      (taken : s.takes ≠ some before.length) : Deviates s requests e (before ++ [request])
  /-- All requests were acknowledged, and an error came while the stream was closed. -/
  | closing {acks later e} (acknowledged : s.Acknowledges requests acks later)
      (error : firstError? later = some e) : Deviates s requests e requests

variable {s : Script} {requests before after sent : List StatementRequest}
  {request : StatementRequest} {acks acks' : List StatementAck} {ack : StatementAck}
  {later : List StatementReply} {e : StreamError}

theorem acknowledges_nil (s : Script) : s.Acknowledges [] [] s.replies :=
  ⟨fun _ _ => Nat.zero_le _, rfl, .nil⟩

theorem Acknowledges.lt (h : s.Acknowledges before acks later) (htaken : s.takes ≠ some before.length)
    {n : ℕ} (hn : s.takes = some n) : before.length < n :=
  lt_of_le_of_ne (h.takes n hn) fun heq => htaken (hn.trans (congrArg some heq.symm))

theorem Acknowledges.snoc (h : s.Acknowledges before acks (.ok ack :: later))
    (htaken : s.takes ≠ some before.length) (hack : request.acknowledgedBy ack = true) :
    s.Acknowledges (before ++ [request]) (acks ++ [ack]) later where
  takes n hn := by
    rw [List.length_append, List.length_singleton]
    exact h.lt htaken hn
  replies := by
    rw [h.replies, List.map_append, List.append_assoc]
    rfl
  matching := List.rel_append h.matching (.cons hack .nil)

theorem firstError?_eq_none_iff {replies : List StatementReply} :
    firstError? replies = none ↔ ∀ reply ∈ replies, reply.isOk = true := by
  induction replies with
  | nil => exact iff_of_true rfl fun _ h => absurd h List.not_mem_nil
  | cons reply rest ih =>
    rw [List.forall_mem_cons]
    cases reply with
    | ok ack => exact ih.trans (and_iff_right rfl).symm
    | error e => exact iff_of_false (Option.some_ne_none e) fun h => absurd h.1 Bool.false_ne_true

/-- **A script honours a batch or deviates from it.** -/
theorem honours_or_deviates (s : Script) (requests : List StatementRequest) :
    (∃ acks, s.Honours requests acks) ∨ ∃ e sent, s.Deviates requests e sent := by
  suffices ∀ after before acks later, requests = before ++ after →
      s.Acknowledges before acks later →
      (∃ acks, s.Honours requests acks) ∨ ∃ e sent, s.Deviates requests e sent from
    this requests [] [] s.replies rfl s.acknowledges_nil
  -- by the requests that are left, after those that are acknowledged
  intro after
  induction after with
  | nil =>
    intro before acks later hsplit hack
    rw [List.append_nil] at hsplit
    subst hsplit
    cases herror : firstError? later with
    | none => exact Or.inl ⟨acks, later, hack, firstError?_eq_none_iff.mp herror⟩
    | some e => exact Or.inr ⟨e, _, .closing hack herror⟩
  | cons request after ih =>
    intro before acks later hsplit hack
    by_cases htaken : s.takes = some before.length
    · exact Or.inr ⟨_, _, .unsent hsplit hack htaken⟩
    rcases later with _ | ⟨e | ack, later⟩
    · exact Or.inr ⟨_, _, .missing hsplit hack htaken⟩
    · exact Or.inr ⟨_, _, .refused hsplit hack htaken⟩
    · cases hmatch : request.acknowledgedBy ack with
      | false => exact Or.inr ⟨_, _, .mismatch hsplit hack htaken hmatch⟩
      | true =>
        refine ih (before ++ [request]) _ later ?_ (hack.snoc htaken hmatch)
        rw [hsplit, List.append_assoc]
        rfl

/-! ## Runs of a batch -/

theorem run_rest_taken (htakes : s.takes ≠ some 0) :
    (Batch.rest acks (request :: after)).run answer (s, sent) =
      (Batch.awaiting acks request after).run answer (s.left 1 s.replies, sent ++ [request]) := by
  have hanswer : answer (.send request) (s, sent) = (true, s.left 1 s.replies, sent ++ [request]) :=
    if_neg htakes
  rw [Batch.rest_cons, run_ask, hanswer]
  rfl

theorem run_rest_dropped (htakes : s.takes = some 0) :
    (Batch.rest acks (request :: after)).run answer (s, sent) =
      (.error (.send "channel closed"), s, sent) := by
  have hanswer : answer (.send request) (s, sent) = (false, s, sent) := if_pos htakes
  rw [Batch.rest_cons, run_ask, hanswer]
  rfl

theorem run_awaiting_ok (hreplies : s.replies = .ok ack :: later) :
    (Batch.awaiting acks request after).run answer (s, sent) =
      (if request.acknowledgedBy ack then Batch.rest (acks ++ [ack]) after
        else Batch.giveUp (.ackMismatch request.label ack.label)).run answer
          (s.left 0 later, sent) := by
  have hanswer : answer .receive (s, sent) = (some (.ok ack), s.left 0 later, sent) := by
    obtain ⟨replies, takes⟩ := s
    cases hreplies
    cases takes <;> rfl
  rw [Batch.awaiting, run_ask, hanswer]

theorem run_awaiting_error (hreplies : s.replies = .error e :: later) :
    (Batch.awaiting acks request after).run answer (s, sent) =
      (.error e, { s with replies := later }, sent) := by
  obtain ⟨replies, takes⟩ := s
  cases hreplies
  rfl

theorem run_awaiting_ended (hreplies : s.replies = []) :
    (Batch.awaiting acks request after).run answer (s, sent) = (.error .missingAck, s, sent) := by
  obtain ⟨replies, takes⟩ := s
  cases hreplies
  rfl

/-- After the requests that the script acknowledges the batch goes on with the others. -/
theorem run_rest_acknowledged (h : s.Acknowledges before acks later) :
    (Batch.rest acks' (before ++ after)).run answer (s, sent) =
      (Batch.rest (acks' ++ acks) after).run answer (s.left before.length later, sent ++ before) := by
  induction before generalizing s acks acks' sent with
  | nil =>
    cases h.matching
    have hleft : s.left 0 later = s := by
      obtain ⟨replies, takes⟩ := s
      cases h.replies
      cases takes <;> rfl
    simp only [List.nil_append, List.append_nil, List.length_nil, hleft]
  | cons request before ih =>
    obtain ⟨htakes, hreplies, hmatching⟩ := h
    cases hmatching with
    | @cons _ ack _ acks hack hrest =>
      have htaken : s.takes ≠ some 0 := fun hzero => absurd (htakes 0 hzero) (Nat.not_succ_le_zero _)
      have hreplies : s.replies = .ok ack :: (acks.map .ok ++ later) := hreplies
      have hnext : ((s.left 1 s.replies).left 0 (acks.map .ok ++ later)).Acknowledges before acks
          later := by
        refine ⟨fun n hn => ?_, rfl, hrest⟩
        simp only [left, Option.map_map, Option.map_eq_some_iff] at hn
        obtain ⟨k, hk, rfl⟩ := hn
        have hle := htakes k hk
        simp only [Function.comp_apply]
        rw [List.length_cons] at hle
        omega
      have hleft : ((s.left 1 s.replies).left 0 (acks.map .ok ++ later)).left before.length later =
          s.left (request :: before).length later := by
        simp only [left, Option.map_map, List.length_cons]
        refine congrArg (Script.mk later) (congrArg (fun f => s.takes.map f) (funext fun k => ?_))
        simp only [Function.comp_apply]
        omega
      rw [List.cons_append, run_rest_taken htaken, run_awaiting_ok (s := s.left 1 s.replies) hreplies,
        if_pos hack, ih hnext, hleft, List.append_assoc, List.append_assoc]
      rfl

theorem propagate_eq_run (s : Script) (requests : List StatementRequest) :
    s.propagate requests = (((Batch.rest [] requests).run answer (s, [])).1,
      ((Batch.rest [] requests).run answer (s, [])).2.2) := by
  rw [propagate, Batch.propagate_eq]

/-- The batch up to the first request that is not acknowledged. -/
theorem propagate_of_acknowledges (h : s.Acknowledges before acks later) :
    s.propagate (before ++ after) =
      (((Batch.rest acks after).run answer (s.left before.length later, before)).1,
        ((Batch.rest acks after).run answer (s.left before.length later, before)).2.2) := by
  rw [propagate_eq_run, run_rest_acknowledged h, List.nil_append, List.nil_append]

/-- Once all is acknowledged, the stream is closed and what is left of the replies is drained. -/
theorem propagate_of_all (h : s.Acknowledges requests acks later) :
    s.propagate requests = (match firstError? later with
      | none => .ok acks
      | some e => .error e, requests) := by
  have hrun : s.propagate (requests ++ []) = _ := propagate_of_acknowledges h
  rw [List.append_nil, Batch.rest_nil] at hrun
  rw [hrun]
  simp only [run_ask, answer, Batch.draining, left]
  cases firstError? later <;> rfl

theorem propagate_of_honours (h : s.Honours requests acks) :
    s.propagate requests = (.ok acks, requests) := by
  obtain ⟨surplus, hack, hok⟩ := h
  rw [propagate_of_all hack, firstError?_eq_none_iff.mpr hok]

theorem propagate_of_deviates (h : s.Deviates requests e sent) :
    s.propagate requests = (.error e, sent) := by
  have hsend : ∀ {before : List StatementRequest} {acks later}, s.Acknowledges before acks later →
      s.takes ≠ some before.length → (s.left before.length later).takes ≠ some 0 := by
    intro before acks later hack htaken hzero
    obtain ⟨n, hn, hsub⟩ := Option.map_eq_some_iff.mp hzero
    have hlt := hack.lt htaken hn
    omega
  cases h with
  | unsent split acknowledged dropped =>
    rw [split, propagate_of_acknowledges acknowledged, run_rest_dropped]
    rw [left, dropped, Option.map_some, Nat.sub_self]
  | missing split acknowledged taken =>
    rw [split, propagate_of_acknowledges acknowledged, run_rest_taken (hsend acknowledged taken),
      run_awaiting_ended rfl]
  | mismatch split acknowledged taken wrong =>
    rw [split, propagate_of_acknowledges acknowledged, run_rest_taken (hsend acknowledged taken),
      run_awaiting_ok rfl, wrong, if_neg Bool.false_ne_true]
    rfl
  | refused split acknowledged taken =>
    rw [split, propagate_of_acknowledges acknowledged, run_rest_taken (hsend acknowledged taken),
      run_awaiting_error rfl]
  | closing acknowledged error => rw [propagate_of_all acknowledged, error]

/-- What a batch comes to against a script. -/
structure Decides (s : Script) (requests : List StatementRequest)
    (outcome : Except StreamError (List StatementAck) × List StatementRequest) : Prop where
  /-- It succeeds just if the script honours it, and answers with the first acknowledgements. -/
  ok_iff : ∀ acks, outcome.1 = .ok acks ↔ s.Honours requests acks
  /-- Then all requests are on the wire. -/
  ok_sent : ∀ acks, outcome.1 = .ok acks → outcome.2 = requests
  /-- It fails just if the script deviates, and with the error of the first deviation. -/
  error_iff : ∀ e, outcome.1 = .error e ↔ ∃ sent, s.Deviates requests e sent
  /-- Then the requests up to the deviation are on the wire. -/
  error_sent : ∀ e, outcome.1 = .error e → s.Deviates requests e outcome.2

theorem decides_propagate (s : Script) (requests : List StatementRequest) :
    s.Decides requests (s.propagate requests) := by
  have hdeviates : ∀ e sent, s.Deviates requests e sent →
      s.propagate requests = (.error e, sent) := fun _ _ => propagate_of_deviates
  have hhonours : ∀ acks, s.Honours requests acks →
      s.propagate requests = (.ok acks, requests) := fun _ => propagate_of_honours
  rcases s.honours_or_deviates requests with ⟨acks, h⟩ | ⟨e, sent, h⟩
  · rw [hhonours acks h]
    refine ⟨fun acks' => ⟨fun heq => ?_, fun h' => ?_⟩, fun _ _ => rfl,
      fun e => ⟨fun heq => (by cases heq), fun ⟨sent, h'⟩ => ?_⟩, fun e heq => (by cases heq)⟩
    · cases heq
      exact h
    · exact congrArg Prod.fst ((hhonours acks h).symm.trans (hhonours acks' h'))
    · cases (hhonours acks h).symm.trans (hdeviates e sent h')
  · rw [hdeviates e sent h]
    refine ⟨fun acks => ⟨fun heq => (by cases heq), fun h' => ?_⟩, fun acks heq => (by cases heq),
      fun e' => ⟨fun heq => ?_, fun ⟨sent', h'⟩ => ?_⟩, fun e' heq => ?_⟩
    · cases (hdeviates e sent h).symm.trans (hhonours acks h')
    · cases heq
      exact ⟨sent, h⟩
    · exact congrArg Prod.fst ((hdeviates e sent h).symm.trans (hdeviates e' sent' h'))
    · cases heq
      exact h

end Script

end CardHolds
