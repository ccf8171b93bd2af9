import CardHolds.Proofs.Engine.Filing
import CardHolds.Proofs.PaymentLog.Queries

/-!
# What callers see of the payment log

Whoever asks for payments sees those that the rows of the log stand for, whatever goes on beside the
question, unless an error takes the place of the answer (`Engine.Shows`).  Asking changes nothing.
-/

namespace CardHolds

open PaymentRow (ReadAs)
open Program

/-- A question changes nothing; an error may take the place of its answer. -/
theorem Execution.interrupted_question {ε α : Type} (x : Execution) (it : Interruption ε)
    (question : Execution → Except ε α) :
    x.interrupted it (fun x => (question x, x)) =
      (match it.replacing.or it.instead with
        | some error => .error error
        | none => question (x.others it.before),
        (x.others it.before).others it.after) := by
  unfold interrupted
  cases it.replacing with
  | some error =>
    cases it.instead with
    | some _ => rfl
    | none => rfl
  | none =>
    cases it.instead with
    | some error => rfl
    | none => rfl

namespace Engine
variable {e : Engine} {ps : List Payment} {α : Type}

/-- What a question to the log comes to: an error in the place of the answer or of a closed log, or the
value. -/
def lookup (e : Engine) (it : Interruption LogError) (value : Except FlowError α) :
    Except FlowError α :=
  match it.replacing.or it.instead with
  | some error => .error (.ofLog error)
  | none => if e.log.closed then .error (.database .closed) else value

/-- Callers see these payments and nothing else: each by its name, and those of an account in the order
of the list.  A caller who asks changes nothing, though others may act around the question. -/
structure Shows (e : Engine) (ps : List Payment) : Prop where
  payment : ∀ (i : Interference) (id : PaymentId),
    (e.call i (paymentById id)).1 = e.lookup (i.log [] (.find id))
      (match ps.find? fun p => decide (p.id = id) with
        | some p => .ok p
        | none => .error (.paymentNotFound id))
  payments : ∀ (i : Interference) (x : AccountId),
    (e.call i (paymentsForAccount x)).1 = e.lookup (i.log [] (.involving x))
      (.ok (ps.filter fun p => p.involves x))
  afterPayment : ∀ (i : Interference) (id : PaymentId),
    (e.call i (paymentById id)).2.engine =
      (e.performAll (i.log [] (.find id)).before).performAll (i.log [] (.find id)).after
  afterPayments : ∀ (i : Interference) (x : AccountId),
    (e.call i (paymentsForAccount x)).2.engine =
      (e.performAll (i.log [] (.involving x)).before).performAll (i.log [] (.involving x)).after

/-- **A log that reads back shows what it reads as**, under any interference. -/
theorem shows_of_readAs (h : ReadAs e.log.rows.rows ps) : e.Shows ps := by
  have hpayment : ∀ (i : Interference) (id : PaymentId),
      (e.call i (paymentById id)).1 = e.lookup (i.log [] (.find id))
        (match ps.find? fun p => decide (p.id = id) with
          | some p => .ok p
          | none => .error (.paymentNotFound id)) ∧
      (e.call i (paymentById id)).2.engine =
        (e.performAll (i.log [] (.find id)).before).performAll (i.log [] (.find id)).after := by
    intro i id
    have hfind : (e.performAll (i.log [] (.find id)).before).log.find id =
        if e.log.closed then .error (.database .closed)
        else .ok (ps.find? fun p => decide (p.id = id)) := by
      rw [log_performAll, PaymentLog.find_eq h]
    unfold call Execution.run paymentById Ask.find lookup
    simp only [bind_eq, bind_ask, bind_done, run_ask, Execution.answer, Execution.logCall,
      Execution.interrupted_question, Execution.others, hfind]
    cases (i.log [] (.find id)).replacing.or (i.log [] (.find id)).instead with
    | some error => exact ⟨rfl, rfl⟩
    | none =>
      cases e.log.closed with
      | true => exact ⟨rfl, rfl⟩
      | false =>
        cases ps.find? fun p => decide (p.id = id) with
        | none => exact ⟨rfl, rfl⟩
        | some p => exact ⟨rfl, rfl⟩
  have hpayments : ∀ (i : Interference) (x : AccountId),
      (e.call i (paymentsForAccount x)).1 = e.lookup (i.log [] (.involving x))
        (.ok (ps.filter fun p => p.involves x)) ∧
      (e.call i (paymentsForAccount x)).2.engine =
        (e.performAll (i.log [] (.involving x)).before).performAll
          (i.log [] (.involving x)).after := by
    intro i x
    have hinvolving : (e.performAll (i.log [] (.involving x)).before).log.involving x =
        if e.log.closed then .error (.database .closed)
        else .ok (ps.filter fun p => p.involves x) := by
      rw [log_performAll, PaymentLog.involving_eq h]
    unfold call Execution.run paymentsForAccount Ask.involving lookup
    simp only [bind_eq, bind_ask, bind_done, run_ask, Execution.answer, Execution.logCall,
      Execution.interrupted_question, Execution.others, hinvolving]
    cases (i.log [] (.involving x)).replacing.or (i.log [] (.involving x)).instead with
    | some error => exact ⟨rfl, rfl⟩
    | none =>
      cases e.log.closed with
      | true => exact ⟨rfl, rfl⟩
      | false => exact ⟨rfl, rfl⟩
  exact ⟨fun i id => (hpayment i id).1, fun i x => (hpayments i x).1,
    fun i id => (hpayment i id).2, fun i x => (hpayments i x).2⟩

/-- No caller gets to see a payment with this name. -/
def Hides (e : Engine) (id : PaymentId) : Prop :=
  ∀ i : Interference, (∀ p, (e.call i (paymentById id)).1 ≠ .ok p) ∧
    ∀ x qs, (e.call i (paymentsForAccount x)).1 = .ok qs → ∀ p ∈ qs, p.id ≠ id

theorem lookup_ok {it : Interruption LogError} {value : Except FlowError α} {a : α}
    (h : e.lookup it value = .ok a) : value = .ok a := by
  unfold lookup at h
  split at h
  · cases h
  · split at h
    · cases h
    · exact h

theorem Shows.payments_ok (h : e.Shows ps) {i : Interference} {x : AccountId} {qs : List Payment}
    (hqs : (e.call i (paymentsForAccount x)).1 = .ok qs) :
    qs = ps.filter fun p => p.involves x := by
  rw [h.payments i x] at hqs
  have hvalue := lookup_ok hqs
  cases hvalue
  rfl

theorem Shows.hides (h : e.Shows ps) {id : PaymentId} (hid : ∀ p ∈ ps, p.id ≠ id) : e.Hides id := by
  intro i
  constructor
  · intro p hp
    rw [h.payment i id] at hp
    have hvalue := lookup_ok hp
    have hnone : ps.find? (fun p => decide (p.id = id)) = none :=
      List.find?_eq_none.mpr fun p hp => by simpa using hid p hp
    rw [hnone] at hvalue
    cases hvalue
  · intro x qs hqs p hp
    rw [h.payments_ok hqs] at hp
    exact hid p (List.mem_filter.mp hp).1

end Engine

end CardHolds
