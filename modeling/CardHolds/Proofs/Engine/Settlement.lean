import CardHolds.Proofs.Engine.Recording
import Mathlib.Data.List.Forall2

/-!
# Only the totals matter

A client captures and cancels an authorization in parts, in any order, and refunds its captures.  What
is captured and cancelled is together no more than was authorized, a refund is no more than the capture
that it refers to, and at no time more was refunded than captured (`Within`).  Then every call succeeds,
and what both accounts hold depends on the three totals alone (`Client.Ends`).

Main statement: `Client.only_totals_matter`, by induction on the calls.  `Client.Reached` is what every
call keeps.
-/

namespace CardHolds

/-! ## Parts of a payment -/

/-- What a client asks for after an authorization. -/
inductive FollowUp where
  | capture (amount : Amount)
  | cancel (amount : Amount)
  /-- Refunds one of the captures, which are counted from zero. -/
  | refund (capture : Nat) (amount : Amount)
deriving DecidableEq

namespace FollowUp

def reaction : FollowUp → Reaction
  | capture _ => .capture
  | cancel _ => .cancel
  | refund _ _ => .refund

def amount : FollowUp → Amount
  | capture amount | cancel amount | refund _ amount => amount

/-- The amount that is captured. -/
def captured? : FollowUp → Option Amount
  | capture amount => some amount
  | cancel _ | refund _ _ => none

end FollowUp

/-- The amounts of the captures. -/
def amountsCaptured (steps : List FollowUp) : List Amount := steps.filterMap FollowUp.captured?

/-- How much is captured, cancelled or refunded in all. -/
def sumOf (reaction : Reaction) (steps : List FollowUp) : Nat :=
  (steps.map fun s => if s.reaction = reaction then s.amount.units else 0).sum

theorem sumOf_snoc (reaction : Reaction) (steps : List FollowUp) (s : FollowUp) :
    sumOf reaction (steps ++ [s]) =
      sumOf reaction steps + if s.reaction = reaction then s.amount.units else 0 := by
  simp [sumOf]

theorem amountsCaptured_snoc (steps : List FollowUp) (s : FollowUp) :
    amountsCaptured (steps ++ [s]) = amountsCaptured steps ++ s.captured?.toList := by
  cases s <;> simp [amountsCaptured, FollowUp.captured?]

/-- The parts of an authorization of `a`. -/
structure Within (a : Amount) (steps : List FollowUp) : Prop where
  parts : sumOf .capture steps + sumOf .cancel steps ≤ a.units
  /-- A refund refers to an earlier capture, and is no more than this. -/
  refunds : ∀ before capture amount, before ++ [.refund capture amount] <+: steps →
    ∃ captured, (amountsCaptured before)[capture]? = some captured ∧ amount ≤ captured
  running : ∀ before, before <+: steps → sumOf .refund before ≤ sumOf .capture before

theorem Within.nil (a : Amount) : Within a [] where
  parts := Nat.zero_le _
  refunds before capture amount hbefore := by
    have hlength := hbefore.length_le
    rw [List.length_append] at hlength
    simp at hlength
  running before hbefore := by
    rw [List.prefix_nil.mp hbefore]
    exact le_rfl

theorem Within.snoc {a : Amount} {steps : List FollowUp} {s : FollowUp} (h : Within a steps)
    (parts : sumOf .capture (steps ++ [s]) + sumOf .cancel (steps ++ [s]) ≤ a.units)
    (refund : ∀ capture amount, s = .refund capture amount →
      ∃ captured, (amountsCaptured steps)[capture]? = some captured ∧ amount ≤ captured)
    (running : sumOf .refund (steps ++ [s]) ≤ sumOf .capture (steps ++ [s])) :
    Within a (steps ++ [s]) where
  parts := parts
  refunds before capture amount hbefore := by
    rcases List.prefix_concat_iff.mp hbefore with heq | hbefore
    · obtain ⟨rfl, hs⟩ := List.append_inj' heq rfl
      exact refund capture amount (List.singleton_inj.mp hs).symm
    · exact h.refunds before capture amount hbefore
  running before hbefore := by
    rcases List.prefix_concat_iff.mp hbefore with rfl | hbefore
    · exact running
    · exact h.running before hbefore

theorem Within.init {a : Amount} {steps : List FollowUp} {s : FollowUp}
    (h : Within a (steps ++ [s])) : Within a steps where
  parts := by
    have hparts := h.parts
    rw [sumOf_snoc, sumOf_snoc] at hparts
    omega
  refunds before capture amount hbefore :=
    h.refunds before capture amount (hbefore.trans (List.prefix_append _ _))
  running before hbefore := h.running before (hbefore.trans (List.prefix_append _ _))

/-- What an authorization of `a` and its parts do to the customer. -/
def customerChange (a : Amount) (steps : List FollowUp) : Delta :=
  (-a.units + sumOf .cancel steps + sumOf .refund steps,
    a.units - sumOf .capture steps - sumOf .cancel steps)

/-- What an authorization of `a` and its parts do to the merchant. -/
def merchantChange (a : Amount) (steps : List FollowUp) : Delta :=
  (sumOf .capture steps - sumOf .refund steps,
    a.units - sumOf .capture steps - sumOf .cancel steps)

/-- Without parts there is what the row of the authorization settles. -/
theorem change_nil (a : Amount) : (customerChange a [], merchantChange a []) =
    PaymentStatus.approved.settlement a.units := by
  simp [customerChange, merchantChange, sumOf, PaymentStatus.settlement]

/-- A part does what its row settles. -/
theorem change_snoc (a : Amount) (steps : List FollowUp) (s : FollowUp) :
    (customerChange a (steps ++ [s]), merchantChange a (steps ++ [s])) =
      (customerChange a steps, merchantChange a steps) +
        s.reaction.settled.settlement s.amount.units := by
  cases s <;>
    simp only [customerChange, merchantChange, sumOf_snoc, FollowUp.reaction, FollowUp.amount,
      Reaction.settled, PaymentStatus.settlement, Prod.mk_add_mk, Prod.mk.injEq, reduceCtorEq,
      if_true, if_false] <;>
    omega

/-! ## Quantities in range -/

/-- Quantities that the ledger can hold. -/
structure Holdable (held : Delta) : Prop where
  balance : 0 ≤ held.1 ∧ held.1 < 2 ^ 63
  blocked : 0 ≤ held.2 ∧ held.2 < 2 ^ 63

theorem inRange_of_holdable {c m : Account} {row : NewPayment}
    (hc : Holdable (c.held + (row.status.settlement row.amount.units).1))
    (hm : Holdable (m.held + (row.status.settlement row.amount.units).2)) : InRange c m row := by
  intro p hp
  rcases List.mem_append.mp hp with hp | hp
  · rcases List.mem_pair.mp hp with rfl | rfl
    · exact hc.balance
    · exact hc.blocked
  · rcases List.mem_pair.mp hp with rfl | rfl
    · exact hm.balance
    · exact hm.blocked

/-- The accounts have room for an authorization of `a`. -/
structure Room (a : Amount) (c m : Account) : Prop where
  funds : a ≤ c.balance
  customer_blocked : c.blocked.units + a.units < 2 ^ 63
  merchant_blocked : m.blocked.units + a.units < 2 ^ 63
  merchant_balance : m.balance.units + a.units < 2 ^ 63

theorem Within.holdable {a : Amount} {steps : List FollowUp} (h : Within a steps) {c m : Account}
    (room : Room a c m) (hc : c.Storable) :
    Holdable (c.held + customerChange a steps) ∧ Holdable (m.held + merchantChange a steps) := by
  have hparts := h.parts
  have hrunning := h.running steps (List.prefix_refl _)
  have hfunds : a.units ≤ c.balance.units := room.funds
  have hbalance := hc.balance
  have hcustomer := room.customer_blocked
  have hblocked := room.merchant_blocked
  have hmerchant := room.merchant_balance
  constructor <;> constructor <;>
    simp only [Account.held, customerChange, merchantChange, Prod.mk_add_mk] <;> omega

/-! ## What is in the log -/

namespace Engine
variable {e : Engine} {c m : Account} {row : NewPayment}
  {outcome : Except FlowError PaymentOutcome × Execution}

/-- Rows get names that are not given twice, and that no row has had before. -/
structure RowNamesFresh (e : Engine) : Prop where
  injective : Function.Injective e.mint.paymentId
  unused : ∀ n, e.paymentsInserted ≤ n → e.log.rows.find? (e.mint.paymentId n) = none

/-- The log has a payment between two accounts, in this state and of this amount. -/
def HasPayment (e : Engine) (c m : Account) (state : Operation × PaymentStatus) (id : PaymentId)
    (amount : Amount) : Prop :=
  ∃ p, p.id = id ∧ e.log.find id = .ok (some p) ∧ (p.operation, p.status) = state ∧
    p.customer = c.id ∧ p.merchant = m.id ∧ p.amount = amount

theorem find_of_mem (hopen : e.log.closed = false) {stored : PaymentRow} {p : Payment}
    (hmem : stored ∈ e.log.rows.rows) (hread : stored.read = .ok p) :
    e.log.find p.id = .ok (some p) := by
  unfold PaymentLog.find PaymentLog.query
  rw [hopen]
  exact findPayment_of_mem hmem hread

namespace Records

theorem opened (h : e.Records c m row outcome) (hopen : e.log.closed = false) :
    outcome.2.engine.log.closed = false :=
  h.closed.trans hopen

/-- A payment stays in the log. -/
theorem hasPayment (h : e.Records c m row outcome) (hopen : e.log.closed = false) {c' m' : Account}
    {state : Operation × PaymentStatus} {id : PaymentId} {amount : Amount}
    (hhas : e.HasPayment c' m' state id amount) : outcome.2.engine.HasPayment c' m' state id amount := by
  obtain ⟨p, rfl, hfind, hp⟩ := hhas
  obtain ⟨-, stored, hmem, hread⟩ := PaymentLog.find_spec hfind
  obtain ⟨new, hrows, -⟩ := h.rows
  refine ⟨p, rfl, find_of_mem (h.opened hopen) ?_ hread, hp⟩
  rw [hrows]
  exact List.mem_append_left _ hmem

theorem hasPayment_row (h : e.Records c m row outcome) (hopen : e.log.closed = false)
    {c' m' : Account} (hrow : row.customer = c'.id ∧ row.merchant = m'.id) :
    outcome.2.engine.HasPayment c' m' (row.operation, row.status) (e.mint.paymentId e.paymentsInserted)
      row.amount := by
  obtain ⟨new, hrows, hread⟩ := h.rows
  have hmem : new ∈ outcome.2.engine.log.rows.rows := by
    rw [hrows]
    exact List.mem_append_right _ List.mem_cons_self
  exact ⟨_, rfl, find_of_mem (h.opened hopen) hmem hread, rfl, hrow.1, hrow.2, rfl⟩

theorem rowNamesFresh (h : e.Records c m row outcome) (fresh : e.RowNamesFresh) :
    outcome.2.engine.RowNamesFresh := by
  refine ⟨h.mint ▸ fresh.injective, fun n hn => ?_⟩
  rw [h.inserted] at hn
  obtain ⟨new, hrows, hread⟩ := h.rows
  have hid : new.id = e.mint.paymentId e.paymentsInserted := (PaymentRow.id_of_read hread).symm
  have hunused := Table.find?_eq_none_iff.mp (fresh.unused n (by omega))
  rw [h.mint, Table.find?_eq_none_iff, hrows, List.map_append, List.mem_append]
  rintro (hmem | hmem)
  · exact hunused hmem
  · -- the name of the new row was given before
    have heq := fresh.injective ((List.mem_singleton.mp hmem).trans hid)
    omega

end Records

end Engine

/-! ## The client -/

/-- A client of an engine, and what it knows of a payment that was authorized. -/
structure Client where
  engine : Engine
  authorization : PaymentId
  /-- The names of its captures, oldest first. -/
  captures : List PaymentId := []
  /-- What its calls were answered with, oldest first. -/
  answers : List (Except FlowError PaymentOutcome) := []

namespace Client

/-- The payment that a call refers to.  (A refund of a capture that was not made refers to the
authorization.) -/
def target (k : Client) : FollowUp → PaymentId
  | .capture _ | .cancel _ => k.authorization
  | .refund capture _ => k.captures[capture]?.getD k.authorization

/-- Makes a call, with no other writer and no fault. -/
def call (k : Client) (s : FollowUp) : Except FlowError PaymentOutcome × Execution :=
  k.engine.reactToPayment .undisturbed s.reaction (k.target s) s.amount

/-- The name of a capture that succeeded. -/
def captured? : FollowUp → Except FlowError PaymentOutcome → Option PaymentId
  | .capture _, .ok outcome => some outcome.paymentId
  | _, _ => none

/-- Makes a call and takes note of the answer. -/
def step (k : Client) (s : FollowUp) : Client :=
  { k with
    engine := (k.call s).2.engine
    captures := k.captures ++ (captured? s (k.call s).1).toList
    answers := k.answers ++ [(k.call s).1] }

/-- Makes calls one after the other. -/
def run (k : Client) (steps : List FollowUp) : Client := steps.foldl step k

/-- Where a client is after the given calls, on a customer and a merchant as they were before an
authorization of `a`. -/
structure Reached (k : Client) (a : Amount) (c m : Account) (steps : List FollowUp) : Prop where
  opened : k.engine.log.closed = false
  fresh : k.engine.RowNamesFresh
  authorized : k.engine.HasPayment c m (.authorization, .approved) k.authorization a
  captured : List.Forall₂ (k.engine.HasPayment c m (.capture, .successfulPayment)) k.captures
    (amountsCaptured steps)
  succeeded : k.answers.map (fun answer => answer.map PaymentOutcome.status) =
    steps.map fun s => .ok s.reaction.settled
  customer : k.engine.ledger.Shows c.id (c.held + customerChange a steps)
    (c.version.toInt + 1 + steps.length)
  merchant : k.engine.ledger.Shows m.id (m.held + merchantChange a steps)
    (m.version.toInt + 1 + steps.length)

section Step
variable {k : Client} {a : Amount} {c m : Account} {steps : List FollowUp} {s : FollowUp}

/-- The payment that the next call refers to is worth what the call asks for. -/
theorem Reached.target (h : k.Reached a c m steps) (hwithin : Within a (steps ++ [s])) :
    ∃ p, p.id = k.target s ∧ k.engine.log.find p.id = .ok (some p) ∧
      accepts p s.reaction.operation = true ∧ p.customer = c.id ∧ p.merchant = m.id ∧
      s.amount ≤ p.amount := by
  have hparts := hwithin.parts
  rw [sumOf_snoc, sumOf_snoc] at hparts
  cases s with
  | capture amount | cancel amount =>
    obtain ⟨p, hid, hfind, hstate, hcustomer, hmerchant, hamount⟩ := h.authorized
    refine ⟨p, hid, hid ▸ hfind, decide_eq_true hstate, hcustomer, hmerchant, hamount ▸ ?_⟩
    simp only [FollowUp.reaction, FollowUp.amount, if_true] at hparts
    show amount.units ≤ a.units
    omega
  | refund capture amount =>
    obtain ⟨captured, hcaptured, hle⟩ := hwithin.refunds steps capture amount (List.prefix_refl _)
    obtain ⟨id, hk, p, hid, hfind, hstate, hcustomer, hmerchant, hamount⟩ :
        ∃ id, k.captures[capture]? = some id ∧
          k.engine.HasPayment c m (.capture, .successfulPayment) id captured := by
      obtain ⟨hlt, hget⟩ := List.getElem?_eq_some_iff.mp hcaptured
      have hlt' : capture < k.captures.length := h.captured.length_eq ▸ hlt
      exact ⟨_, List.getElem?_eq_getElem hlt', hget ▸ h.captured.get hlt' hlt⟩
    refine ⟨p, hid.trans ?_, hid ▸ hfind, decide_eq_true hstate, hcustomer, hmerchant, hamount ▸ hle⟩
    rw [Client.target, hk, Option.getD_some]

/-- The next call records its row, and the accounts show what the calls have done with it. -/
theorem Reached.records (h : k.Reached a c m steps) (hwithin : Within a (steps ++ [s]))
    (room : Room a c m) (hc : c.Storable) (hne : c.id ≠ m.id)
    (hvc : c.version.toInt + 1 + (steps ++ [s]).length < 2 ^ 63)
    (hvm : m.version.toInt + 1 + (steps ++ [s]).length < 2 ^ 63) :
    ∃ c' m' p, p.customer = c.id ∧ p.merchant = m.id ∧
      k.engine.Records c' m' (.reactingTo p s.reaction.operation s.reaction.settled s.amount)
        (k.call s) ∧
      (k.call s).2.engine.ledger.Shows c.id (c.held + customerChange a (steps ++ [s]))
        (c.version.toInt + 1 + (steps ++ [s]).length) ∧
      (k.call s).2.engine.ledger.Shows m.id (m.held + merchantChange a (steps ++ [s]))
        (m.version.toInt + 1 + (steps ++ [s]).length) := by
  obtain ⟨p, hid, hfind, haccepts, hpc, hpm, hle⟩ := h.target hwithin
  obtain ⟨c', hcustomer, hcheld, hcversion⟩ := h.customer
  obtain ⟨m', hmerchant, hmheld, hmversion⟩ := h.merchant
  obtain ⟨-, -, hcid, -⟩ := Ledger.account_spec hcustomer
  obtain ⟨-, -, hmid, -⟩ := Ledger.account_spec hmerchant
  obtain ⟨hcchange, hmchange⟩ := Prod.mk.inj (change_snoc a steps s)
  have hlength : ∀ v : ℤ, v + (steps ++ [s]).length = v + steps.length + 1 := fun v => by
    rw [List.length_append, List.length_singleton, Nat.cast_succ, add_assoc]
  rw [hlength] at hvc hvm
  -- what the call leaves is in range
  have hcafter : c'.held + (s.reaction.settled.settlement s.amount.units).1 =
      c.held + customerChange a (steps ++ [s]) := by
    rw [hcheld, hcchange, add_assoc]
  have hmafter : m'.held + (s.reaction.settled.settlement s.amount.units).2 =
      m.held + merchantChange a (steps ++ [s]) := by
    rw [hmheld, hmchange, add_assoc]
  obtain ⟨hcholdable, hmholdable⟩ := hwithin.holdable room hc
  have hrange : InRange c' m' (.reactingTo p s.reaction.operation s.reaction.settled s.amount) :=
    inRange_of_holdable (hcafter ▸ hcholdable) (hmafter ▸ hmholdable)
  have hrecords := Engine.records_reactToPayment h.opened (h.fresh.unused _ le_rfl) (by omega)
    (by omega) hfind haccepts (hpc ▸ hpm ▸ hne) (hpc ▸ hcustomer) (hpm ▸ hmerchant) hle hrange
  rw [hid] at hrecords
  refine ⟨c', m', p, hpc, hpm, hrecords, ?_, ?_⟩
  · rw [hlength, ← hcafter, ← hcversion, ← hcid]
    exact hrecords.customer
  · rw [hlength, ← hmafter, ← hmversion, ← hmid]
    exact hrecords.merchant

/-- **A call that stays within the authorization succeeds.** -/
theorem Reached.step (h : k.Reached a c m steps) (hwithin : Within a (steps ++ [s]))
    (room : Room a c m) (hc : c.Storable) (hne : c.id ≠ m.id)
    (hvc : c.version.toInt + 1 + (steps ++ [s]).length < 2 ^ 63)
    (hvm : m.version.toInt + 1 + (steps ++ [s]).length < 2 ^ 63) :
    (k.step s).Reached a c m (steps ++ [s]) := by
  obtain ⟨c', m', p, hpc, hpm, hrecords, hcustomer, hmerchant⟩ :=
    h.records hwithin room hc hne hvc hvm
  exact {
    opened := hrecords.opened h.opened
    fresh := hrecords.rowNamesFresh h.fresh
    authorized := hrecords.hasPayment h.opened h.authorized
    captured := by
      have hold := h.captured.imp fun _ _ => hrecords.hasPayment h.opened
      have hnew := hrecords.hasPayment_row h.opened ⟨hpc, hpm⟩
      rw [amountsCaptured_snoc]
      refine List.rel_append hold ?_
      rw [hrecords.result]
      cases s with
      | capture amount => exact .cons hnew .nil
      | cancel amount | refund capture amount => exact .nil
    succeeded := by
      show (k.answers ++ [(k.call s).1]).map _ = _
      rw [List.map_append, List.map_append, h.succeeded, hrecords.result]
      rfl
    customer := hcustomer
    merchant := hmerchant }

/-- Where a client is after any calls that stay within the authorization. -/
theorem Reached.run (h : k.Reached a c m []) (hwithin : Within a steps) (room : Room a c m)
    (hc : c.Storable) (hne : c.id ≠ m.id) (hvc : c.version.toInt + 1 + steps.length < 2 ^ 63)
    (hvm : m.version.toInt + 1 + steps.length < 2 ^ 63) : (k.run steps).Reached a c m steps := by
  induction steps using List.reverseRecOn with
  | nil => exact h
  | append_singleton steps s ih =>
    have hlength : (steps ++ [s]).length = steps.length + 1 := List.length_append
    rw [Client.run, List.foldl_append]
    exact (ih hwithin.init (by omega) (by omega)).step hwithin room hc hne hvc hvm

end Step

end Client

/-! ## From the authorization on -/

/-- A call that ends softly has no other status. -/
theorem Engine.EndsSoftly.status_eq {e : Engine} {new : NewPayment} {merchant : AccountId}
    {result : PaymentOutcome} {x : Execution}
    (h : e.EndsSoftly new merchant (.ok result, x)) : result.status = new.status := by
  by_cases hamount : new.amount.units < 2 ^ 63
  · cases (h.recorded hamount).1
    rfl
  · cases (h.refused (Nat.le_of_not_lt hamount)).1

section Authorized
variable {e : Engine} {request : PaymentRequest} {c m : Account} {id : PaymentId} {x : Execution}
  (hopen : e.log.closed = false) (hcustomer : e.ledger.account request.customer = .ok c)
  (hmerchant : e.ledger.account request.merchant = .ok m)
  (happroved : e.createPayment .undisturbed request = (.ok ⟨id, .approved⟩, x))
include hopen hcustomer hmerchant happroved

/-- What an approval tells of the request. -/
theorem Engine.approved_spec
    (unused : e.log.rows.find? (e.mint.paymentId e.paymentsInserted) = none) :
    request.merchant ≠ request.customer ∧ request.card = c.card ∧ request.amount ≤ c.balance := by
  have hne : request.merchant ≠ request.customer := by
    intro heq
    have hfailed : e.createPayment .undisturbed request =
        (.error (.merchantIsCustomer request.customer), { engine := e }) := by
      unfold createPayment call Execution.run CardHolds.createPayment
      rw [if_pos heq]
      rfl
    rw [hfailed] at happroved
    cases happroved
  obtain ⟨hsoft, -⟩ := Engine.soft_outcomes hopen unused
  obtain ⟨hwrongCard, hnoFunds⟩ := hsoft request c m hne hcustomer hmerchant
  rw [happroved] at hwrongCard hnoFunds
  have hcard : request.card = c.card := by
    by_contra hcard
    exact PaymentStatus.noConfusion (hwrongCard hcard).status_eq
  refine ⟨hne, hcard, Nat.le_of_not_lt fun hlt => ?_⟩
  exact PaymentStatus.noConfusion (hnoFunds hcard hlt).status_eq

/-- A client whose authorization was just approved. -/
theorem Client.reached_approved (fresh : e.RowNamesFresh) (room : Room request.amount c m)
    (hvc : c.version.toInt + 1 < 2 ^ 63) (hvm : m.version.toInt + 1 < 2 ^ 63) :
    ({ engine := x.engine, authorization := id } : Client).Reached request.amount c m [] := by
  have unused := fresh.unused _ le_rfl
  obtain ⟨hne, hcard, hle⟩ := Engine.approved_spec hopen hcustomer hmerchant happroved unused
  obtain ⟨hcholdable, hmholdable⟩ := (Within.nil request.amount).holdable room
    (Ledger.storable_of_account hcustomer)
  obtain ⟨hcchange, hmchange⟩ := Prod.mk.inj (change_nil request.amount)
  rw [hcchange] at hcholdable
  rw [hmchange] at hmholdable
  have hrecords := Engine.records_createPayment hopen unused hvc hvm hne hcustomer hmerchant hcard hle
    (inRange_of_holdable hcholdable hmholdable)
  rw [happroved] at hrecords
  have hid : id = e.mint.paymentId e.paymentsInserted :=
    congrArg PaymentOutcome.paymentId (Except.ok.inj hrecords.result)
  exact {
    opened := hrecords.opened hopen
    fresh := hrecords.rowNamesFresh fresh
    authorized := hid ▸ hrecords.hasPayment_row hopen ⟨rfl, rfl⟩
    captured := .nil
    succeeded := rfl
    customer := by
      rw [hcchange, List.length_nil, Nat.cast_zero, add_zero]
      exact hrecords.customer
    merchant := by
      rw [hmchange, List.length_nil, Nat.cast_zero, add_zero]
      exact hrecords.merchant }

end Authorized

/-- How a client ends that has captured, cancelled and refunded in parts an authorization of `a`, on a
customer and a merchant as they were before it. -/
structure Client.Ends (k : Client) (a : Amount) (c m : Account) (steps : List FollowUp) : Prop where
  succeeded : k.answers.map (fun answer => answer.map PaymentOutcome.status) =
    steps.map fun s => .ok s.reaction.settled
  customer : k.engine.ledger.Shows c.id
    (c.balance.units - a.units + sumOf .cancel steps + sumOf .refund steps,
      c.blocked.units + a.units - sumOf .capture steps - sumOf .cancel steps)
    (c.version.toInt + 1 + steps.length)
  merchant : k.engine.ledger.Shows m.id
    (m.balance.units + sumOf .capture steps - sumOf .refund steps,
      m.blocked.units + a.units - sumOf .capture steps - sumOf .cancel steps)
    (m.version.toInt + 1 + steps.length)
  /-- A full cancel. -/
  restored : sumOf .cancel steps = a.units →
    k.engine.ledger.Shows c.id c.held (c.version.toInt + 1 + steps.length) ∧
      k.engine.ledger.Shows m.id m.held (m.version.toInt + 1 + steps.length)
  /-- A full capture. -/
  transferred : sumOf .capture steps = a.units → sumOf .refund steps = 0 →
    k.engine.ledger.Shows c.id (c.held - ((a.units : ℤ), (0 : ℤ))) (c.version.toInt + 1 + steps.length) ∧
      k.engine.ledger.Shows m.id (m.held + ((a.units : ℤ), (0 : ℤ))) (m.version.toInt + 1 + steps.length)

theorem Client.Reached.ends {k : Client} {a : Amount} {c m : Account} {steps : List FollowUp}
    (h : k.Reached a c m steps) (hwithin : Within a steps) : k.Ends a c m steps := by
  have hparts := hwithin.parts
  have hrunning := hwithin.running steps (List.prefix_refl _)
  have hcustomer : ∀ held : Delta, c.held + customerChange a steps = held →
      k.engine.ledger.Shows c.id held (c.version.toInt + 1 + steps.length) :=
    fun held heq => heq ▸ h.customer
  have hmerchant : ∀ held : Delta, m.held + merchantChange a steps = held →
      k.engine.ledger.Shows m.id held (m.version.toInt + 1 + steps.length) :=
    fun held heq => heq ▸ h.merchant
  refine ⟨h.succeeded, hcustomer _ ?_, hmerchant _ ?_,
    fun hcancel => ⟨hcustomer _ ?_, hmerchant _ ?_⟩,
    fun hcapture hrefund => ⟨hcustomer _ ?_, hmerchant _ ?_⟩⟩
  all_goals
    simp only [Account.held, customerChange, merchantChange, Prod.mk_add_mk, Prod.mk_sub_mk,
      Prod.mk.injEq]
    omega

/-- **Only the totals matter.** -/
theorem Client.only_totals_matter {e : Engine} {request : PaymentRequest} {c m : Account}
    {id : PaymentId} {x : Execution} (hopen : e.log.closed = false) (fresh : e.RowNamesFresh)
    (hcustomer : e.ledger.account request.customer = .ok c)
    (hmerchant : e.ledger.account request.merchant = .ok m)
    (happroved : e.createPayment .undisturbed request = (.ok ⟨id, .approved⟩, x))
    (hkc : c.blocked.units + request.amount.units ≤ 2 ^ 63 - 1)
    (hkm : m.blocked.units + request.amount.units ≤ 2 ^ 63 - 1)
    (hbm : m.balance.units + request.amount.units ≤ 2 ^ 63 - 1) {steps : List FollowUp}
    (hwithin : Within request.amount steps)
    (hvc : c.version.toInt + 1 + steps.length < 2 ^ 63)
    (hvm : m.version.toInt + 1 + steps.length < 2 ^ 63) :
    (({ engine := x.engine, authorization := id } : Client).run steps).Ends request.amount c m steps := by
  obtain ⟨hne, -, hle⟩ :=
    Engine.approved_spec hopen hcustomer hmerchant happroved (fresh.unused _ le_rfl)
  obtain ⟨-, -, hcid, -⟩ := Ledger.account_spec hcustomer
  obtain ⟨-, -, hmid, -⟩ := Ledger.account_spec hmerchant
  have room : Room request.amount c m := ⟨hle, by omega, by omega, by omega⟩
  have hstart := Client.reached_approved hopen hcustomer hmerchant happroved fresh room (by omega)
    (by omega)
  exact (hstart.run hwithin room (Ledger.storable_of_account hcustomer)
    (hcid ▸ hmid ▸ hne.symm) hvc hvm).ends hwithin

/-! ## An authorization in parts -/

namespace InParts

open Sample

theorem rowNamesFresh_engine : engine.RowNamesFresh where
  injective := Mint.injective_paymentId_unary
  unused n _ := by
    have hlog : engine.log = {} := by decide +kernel
    rw [hlog]
    rfl

def approved : Except FlowError PaymentOutcome × Execution :=
  engine.createPayment .undisturbed (request (units 40))

def client : Client := { engine := approved.2.engine, authorization := Mint.unary.paymentId 0 }

/-- The first capture is refunded twice. -/
def steps : List FollowUp :=
  [.capture (units 15), .refund 0 (units 10), .cancel (units 5), .capture (units 20),
    .refund 0 (units 15)]

theorem within_steps : Within (units 40) steps := by
  have h₁ := (Within.nil (units 40)).snoc (s := .capture (units 15)) (by decide) (by simp) (by decide)
  have h₂ := h₁.snoc (s := .refund 0 (units 10)) (by decide)
    (by rintro _ _ ⟨⟩; exact ⟨_, rfl, by decide⟩) (by decide)
  have h₃ := h₂.snoc (s := .cancel (units 5)) (by decide) (by simp) (by decide)
  have h₄ := h₃.snoc (s := .capture (units 20)) (by decide) (by simp) (by decide)
  exact h₄.snoc (by decide) (by rintro _ _ ⟨⟩; exact ⟨_, rfl, by decide⟩) (by decide)

/-- Of an authorization of 40 units from a hundred, 35 are captured, 5 cancelled and 25 refunded. -/
theorem only_totals_matter_inParts :
    engine.log.closed = false ∧ engine.RowNamesFresh ∧
      engine.ledger.account customer = .ok (shown engine.ledger customer) ∧
      engine.ledger.account merchant = .ok (shown engine.ledger merchant) ∧
      approved = (.ok ⟨Mint.unary.paymentId 0, .approved⟩, approved.2) ∧
      Within (units 40) steps ∧
      (client.run steps).Ends (units 40) (shown engine.ledger customer) (shown engine.ledger merchant) steps ∧
      [customer, merchant].map (fun id =>
        ((client.run steps).engine.ledger.account id).toOption.map fun a => (a.held, a.version)) =
          [some ((90, 0), 7), some ((10, 0), 6)] := by
  have hopen : engine.log.closed = false := by decide +kernel
  have hcustomer : engine.ledger.account customer = .ok (shown engine.ledger customer) := by decide +kernel
  have hmerchant : engine.ledger.account merchant = .ok (shown engine.ledger merchant) := by decide +kernel
  have happroved : approved = (.ok ⟨Mint.unary.paymentId 0, .approved⟩, approved.2) :=
    Prod.ext (by decide +kernel) rfl
  have hends := Client.only_totals_matter hopen rowNamesFresh_engine hcustomer hmerchant happroved
    (by decide +kernel) (by decide +kernel) (by decide +kernel) within_steps (by decide +kernel)
    (by decide +kernel)
  exact ⟨hopen, rowNamesFresh_engine, hcustomer, hmerchant, happroved, within_steps, hends,
    by decide +kernel⟩

end InParts

end CardHolds
