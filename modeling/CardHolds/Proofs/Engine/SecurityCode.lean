import CardHolds.Engine.Fault
import CardHolds.Proofs.Engine.Deeds
import CardHolds.Proofs.Engine.Translation
import CardHolds.Proofs.Ledger.Recoding

/-!
# Security codes are compared and nothing else

Take a run and replace every security code in it by another one, equal codes by equal ones and different
codes by different ones: those that accounts have, those that identity updates write, and those that are
presented.  Then nothing else changes.  Every deed comes to the same, but for the codes of the accounts
in the answers; the same events are published; both stores hold the same, but for the codes.

Nor does it matter which wrong code is presented (`Engine.AlikeAll`).

`Engine.codes_hidden` states both.  Behind it is `Engine.call_alike`: two calls that differ in the
presented card alone go alike, if every account that they read has both cards or neither.
-/

namespace CardHolds

open Program

/-! ## Two runs -/

/-- Whoever hears of events does so after the translation too. -/
def Translation.Publishes (t : Translation) : Prop :=
  ∀ (e : Engine) event, (t.engine e).publish event = t.engine (e.publish event)

namespace Execution
variable {α β : Type} {t : Translation}

/-- Every call is answered with the translated reply, also those to the observers. -/
theorem answer_publishes (ht : t.Publishes) (i : Interference) (c : LifecycleCall) (x : Execution) :
    answer (t.interference i) c (t.execution x) =
      (c.changed t.account (answer i c x).1, t.execution (answer i c x).2) := by
  by_cases hc : ∃ event, c = .publish event
  · obtain ⟨event, rfl⟩ := hc
    exact congrArg (fun e => ((), { x with engine := e })) (ht x.engine event)
  · exact answer_translated t i x fun event he => hc ⟨event, he⟩

/-- **Runs in lockstep** end alike, tell the same and leave translated engines. -/
theorem run_lockstep (ht : t.Publishes) {Shown : ∀ c, lifecycleCalls.Reply c → Prop}
    {R : α → β → Prop} {p : Program lifecycleCalls α} {q : Program lifecycleCalls β}
    (h : Lockstep (LifecycleCall.changed t.account) Shown R p q) {i : Interference} {x : Execution}
    (hx : p.Sees (answer i) Shown x) :
    R (run i p x).1 (run (t.interference i) q (t.execution x)).1 ∧
      (run (t.interference i) q (t.execution x)).2 = t.execution (run i p x).2 ∧
        told (t.interference i) q (t.execution x) = told i p x := by
  have hanswer := answer_publishes ht i
  obtain ⟨hvalue, hend⟩ := h.run_eq hanswer hx
  exact ⟨hvalue, hend, congrArg FreeAddMonoid.toList (h.accrued_eq hanswer (fun _ _ => rfl) hx)⟩

end Execution

/-- The accounts that a call reads in a run are as they should be. -/
def Engine.Reads (e : Engine) (faults : Interference) (instruction : Instruction)
    (Good : AccountId → Account → Prop) : Prop :=
  (instruction.program e.retries).Sees (Execution.answer faults) (LifecycleCall.Reads Good)
    { engine := e }

/-- **Calls that are alike go alike**, if the accounts that are read are as they should be. -/
theorem Engine.call_alike {t : Translation} (ht : t.Publishes) (hfunds : KeepsFunds t.account)
    {Good : AccountId → Account → Prop} {instruction instruction' : Instruction}
    (h : Instruction.Alike t.account Good instruction instruction') {e : Engine}
    {faults : Interference} (hreads : e.Reads faults instruction Good) :
    (t.engine e).resultOf (.call (t.interference faults) instruction') =
        e.resultOf (.call faults instruction) ∧
      (t.engine e).told (.call (t.interference faults) instruction') =
        e.told (.call faults instruction) ∧
      (t.engine e).after (.call (t.interference faults) instruction') =
        t.engine (e.after (.call faults instruction)) := by
  obtain ⟨hvalue, hend, htold⟩ := Execution.run_lockstep ht (h.lockstep hfunds e.retries) hreads
  exact ⟨congrArg Deed.Result.call hvalue.symm, htold, congrArg Execution.engine hend⟩

/-! ## Other codes -/

section
variable (ρ : Secret → Secret)

/-- Other security codes in the ledger and in what it is told and answers. -/
def Translation.codes : Translation where
  ledger := Ledger.recode ρ
  account := Account.recode ρ
  command := Ledger.Command.recode ρ
  hearing h := h
  answer := Ledger.Answer.recode ρ
  opens_command c := by cases c <;> rfl
  perform_ledger l fresh now c := l.perform_recode fresh now c
  account_ledger l id := l.account_recode id
  updateBalance_ledger l id u := l.updateBalance_recode id u
  append_ledger l id payment := l.append_recode id payment

/-- The same call with another security code on the card that is presented. -/
def Instruction.recode : Instruction → Instruction
  | authorize request => authorize { request with card := request.card.recode ρ }
  | react reaction id amount => react reaction id amount

def Deed.recode : Deed → Deed
  | call faults instruction => call ((Translation.codes ρ).interference faults) (instruction.recode ρ)
  | operate command => operate (command.recode ρ)
  | setClock now => setClock now
  | closeLedger => closeLedger
  | closeLog => closeLog
  | reopen => reopen

/-- Only what the ledger answers has security codes in it. -/
def Deed.Result.recode : Deed.Result → Deed.Result
  | call result => call result
  | operate result => operate (result.map (Ledger.Answer.recode ρ))
  | silent => silent

/-- The engine with other security codes in its ledger. -/
def Engine.recode (e : Engine) : Engine := { e with ledger := e.ledger.recode ρ }

end

section
variable {ρ : Secret → Secret}

theorem Translation.publishes_codes : (codes ρ).Publishes := by
  intro e event
  obtain ⟨_, _, _, _, observers, _, _, _, _⟩ := e
  cases observers <;> cases event <;> rfl

/-- A renaming that is one-to-one makes no codes equal that were different. -/
theorem Instruction.alike_recode (hρ : Function.Injective ρ) (instruction : Instruction) :
    Alike (Account.recode ρ) (fun _ _ => True) instruction (instruction.recode ρ) := by
  cases instruction with
  | authorize request => exact .authorize rfl fun a _ => Card.recode_inj hρ
  | react reaction id amount => exact .react reaction id amount

namespace Engine

theorem deed_recode (hρ : Function.Injective ρ) (e : Engine) (d : Deed) :
    (e.recode ρ).resultOf (d.recode ρ) = (e.resultOf d).recode ρ ∧
      (e.recode ρ).told (d.recode ρ) = e.told d ∧
      (e.recode ρ).after (d.recode ρ) = (e.after d).recode ρ := by
  cases d with
  | call faults instruction =>
    -- nothing is asked of the accounts, since equal cards stay equal and different ones different
    have hreads : e.Reads faults instruction fun _ _ => True :=
      sees_of_forall (LifecycleCall.reads_of_forall fun _ _ => trivial) _ _
    exact call_alike Translation.publishes_codes
      ⟨fun _ => rfl, fun _ => rfl, fun _ => rfl, fun _ => rfl⟩ (instruction.alike_recode hρ) hreads
  | operate command =>
    have hperform : (e.recode ρ).perform (command.recode ρ) = _ :=
      (Translation.codes ρ).perform_engine e command
    exact ⟨congrArg (Deed.Result.operate ∘ Prod.fst) hperform, rfl, congrArg Prod.snd hperform⟩
  | setClock now => exact ⟨rfl, rfl, rfl⟩
  | closeLedger => exact ⟨rfl, rfl, rfl⟩
  | closeLog => exact ⟨rfl, rfl, rfl⟩
  | reopen => exact ⟨rfl, rfl, rfl⟩

/-- **A whole run with other security codes.** -/
theorem run_recode (hρ : Function.Injective ρ) (e : Engine) (deeds : List Deed) :
    (e.recode ρ).results (deeds.map (Deed.recode ρ)) = (e.results deeds).map (Deed.Result.recode ρ) ∧
      (e.recode ρ).toldAll (deeds.map (Deed.recode ρ)) = e.toldAll deeds ∧
      (e.recode ρ).afterAll (deeds.map (Deed.recode ρ)) = (e.afterAll deeds).recode ρ := by
  induction deeds generalizing e with
  | nil => exact ⟨rfl, rfl, rfl⟩
  | cons d rest ih =>
    obtain ⟨hresult, htold, hafter⟩ := e.deed_recode hρ d
    obtain ⟨hresults, htoldAll, hafterAll⟩ := ih (e.after d)
    refine ⟨?_, ?_, ?_⟩
    · rw [List.map_cons, results, results, List.map_cons, hresult, hafter, hresults]
    · rw [List.map_cons, toldAll, toldAll, htold, hafter, htoldAll]
    · rw [List.map_cons, afterAll_cons, afterAll_cons, hafter, hafterAll]

end Engine

end

/-! ## Wrong codes -/

namespace Engine

/-- Whenever the authorization reads the account of the customer, it has another card than this one.  It
is so if it has another security code. -/
def Denies (e : Engine) (faults : Interference) (request : PaymentRequest) (card : Card) : Prop :=
  e.Reads faults (.authorize request) fun id a => id = request.customer → a.card ≠ card

instance (e : Engine) (faults : Interference) (request : PaymentRequest) (card : Card) :
    Decidable (e.Denies faults request card) :=
  decidableSees ..

/-- The same deed, or an authorization with another security code, where both codes are wrong. -/
inductive Alike (e : Engine) : Deed → Deed → Prop
  | same (d : Deed) : e.Alike d d
  | wrong {faults : Interference} {request : PaymentRequest} {card : Card}
    (hsnapshot : card.snapshot = request.card.snapshot) (h : e.Denies faults request request.card)
    (h' : e.Denies faults request card) :
    e.Alike (.call faults (.authorize request))
      (.call faults (.authorize { request with card := card }))

/-- The same deeds but for the wrong codes in them. -/
inductive AlikeAll : Engine → List Deed → List Deed → Prop
  | nil {e : Engine} : e.AlikeAll [] []
  | cons {e : Engine} {d d' : Deed} {rest rest' : List Deed} (first : e.Alike d d')
    (later : (e.after d).AlikeAll rest rest') : e.AlikeAll (d :: rest) (d' :: rest')

variable {e : Engine}

/-- **It does not matter which wrong code is presented.** -/
theorem Alike.deed_eq {d d' : Deed} (h : e.Alike d d') :
    e.resultOf d' = e.resultOf d ∧ e.told d' = e.told d ∧ e.after d' = e.after d := by
  cases h with
  | same d => exact ⟨rfl, rfl, rfl⟩
  | @wrong faults request card hsnapshot h h' =>
    have hfaults : Translation.identity.interference faults = faults :=
      Translation.identity.interference_eq_self (fun _ => rfl) faults
    have hreads : e.Reads faults (.authorize request) fun id a =>
        (id = request.customer → a.card ≠ request.card) ∧ (id = request.customer → a.card ≠ card) :=
      (h.and h').mono fun _ _ hr => hr.1.and hr.2
    -- both comparisons fail, and nothing else looks at the card
    have halike := call_alike (t := .identity) (fun _ _ => rfl) keepsFunds_id
      (.authorize hsnapshot fun a ha => iff_of_false (ha.2 rfl) (ha.1 rfl)) hreads
    rw [hfaults] at halike
    exact halike

theorem AlikeAll.run_eq {deeds deeds' : List Deed} (h : e.AlikeAll deeds deeds') :
    e.results deeds' = e.results deeds ∧ e.toldAll deeds' = e.toldAll deeds ∧
      e.afterAll deeds' = e.afterAll deeds := by
  induction h with
  | nil => exact ⟨rfl, rfl, rfl⟩
  | cons first _ ih =>
    obtain ⟨hresult, htold, hafter⟩ := first.deed_eq
    obtain ⟨hresults, htoldAll, hafterAll⟩ := ih
    refine ⟨?_, ?_, ?_⟩
    · rw [results, results, hresult, hafter, hresults]
    · rw [toldAll, toldAll, htold, hafter, htoldAll]
    · rw [afterAll_cons, afterAll_cons, hafter, hafterAll]

/-- With other security codes all deeds come to the same, but for the codes of the accounts in their
answers; the same is published and heard; and the engine is the same afterwards, but for the codes in
the ledger, so that whoever reads accounts gets the same ones with other codes.  No card is shown
differently.  And it does not matter at all which wrong codes are presented. -/
structure CodesHidden (ρ : Secret → Secret) (e : Engine) (deeds : List Deed) : Prop where
  results : (e.recode ρ).results (deeds.map (Deed.recode ρ)) =
    (e.results deeds).map (Deed.Result.recode ρ)
  told : (e.recode ρ).toldAll (deeds.map (Deed.recode ρ)) = e.toldAll deeds
  after : (e.recode ρ).afterAll (deeds.map (Deed.recode ρ)) =
    { e.afterAll deeds with ledger := (e.afterAll deeds).ledger.recode ρ }
  account : ∀ id, ((e.recode ρ).afterAll (deeds.map (Deed.recode ρ))).ledger.account id =
    ((e.afterAll deeds).ledger.account id).map (Account.recode ρ)
  statement : ∀ id, ((e.recode ρ).afterAll (deeds.map (Deed.recode ρ))).ledger.statement id =
    (e.afterAll deeds).ledger.statement id
  page : ∀ after limit, ((e.recode ρ).afterAll (deeds.map (Deed.recode ρ))).ledger.page after limit =
    ((e.afterAll deeds).ledger.page after limit).map (List.map (Account.recode ρ))
  scan : ∀ pageSize,
    Scan.complete ((e.recode ρ).afterAll (deeds.map (Deed.recode ρ))).ledger pageSize =
      ((Scan.complete (e.afterAll deeds).ledger pageSize).1.map (Except.map (Account.recode ρ)),
        (Scan.complete (e.afterAll deeds).ledger pageSize).2)
  described : ∀ card : Card, (card.recode ρ).describe = card.describe
  wrong : ∀ deeds', e.AlikeAll deeds deeds' → e.results deeds' = e.results deeds ∧
    e.toldAll deeds' = e.toldAll deeds ∧ e.afterAll deeds' = e.afterAll deeds

/-- **The security code acts only through equality, and is never shown.** -/
theorem codes_hidden {ρ : Secret → Secret} (injective : Function.Injective ρ) (e : Engine)
    (deeds : List Deed) : e.CodesHidden ρ deeds := by
  obtain ⟨hresults, htold, hafter⟩ := e.run_recode injective deeds
  refine ⟨hresults, htold, hafter, fun id => ?_, fun id => ?_, fun after limit => ?_,
    fun pageSize => ?_, Card.describe_recode, fun deeds' h => h.run_eq⟩
  · rw [hafter]
    exact (e.afterAll deeds).ledger.account_recode id
  · rw [hafter]
    exact (e.afterAll deeds).ledger.statement_recode id
  · rw [hafter]
    exact (e.afterAll deeds).ledger.page_recode after limit
  · rw [hafter]
    exact Scan.complete_recode _ pageSize

end Engine

/-! ## A code that is changed meanwhile -/

namespace ChangedCode

open Sample

/-- Two codes are swapped. -/
def swapped : Secret → Secret := Equiv.swap ⟨"123"⟩ ⟨"321"⟩

def engine : Engine := { mint := .unary }

/-- Before the first reading of an account, the customer is given another code. -/
def faults : Interference := .ofFaults
  [{ site := .account, before := [.amend customer { securityCode := some ⟨"777"⟩ }] }]

def requestWith (code : Secret) : PaymentRequest :=
  { request (units 40) with card := { card with securityCode := code } }

/-- Two authorizations, the second of which comes too late. -/
def deeds (late : Secret) : List Deed :=
  [.operate (.create customerDetails), .operate (.create merchantDetails),
    .operate (.deposit card.number (units 100)), .call .undisturbed (.authorize (requestWith ⟨"123"⟩)),
    .call faults (.authorize (requestWith late))]

/-- The code that used to be right is as wrong as any other. -/
theorem codes_hidden_changedCode :
    Function.Injective swapped ∧ engine.CodesHidden swapped (deeds ⟨"123"⟩) ∧
      engine.AlikeAll (deeds ⟨"123"⟩) (deeds ⟨"321"⟩) ∧
      (engine.afterAll (deeds ⟨"123"⟩)).log.rows.rows.map PaymentRow.status =
        ["Approved", "wrong payment request"] ∧
      ((engine.recode swapped).afterAll ((deeds ⟨"123"⟩).map (Deed.recode swapped))).log.rows.rows.map
        PaymentRow.status = ["Approved", "wrong payment request"] := by
  have injective : Function.Injective swapped := (Equiv.swap _ _).injective
  refine ⟨injective, Engine.codes_hidden injective engine _, ?_, by decide +kernel, by decide +kernel⟩
  have hlate : (engine.afterAll ((deeds ⟨"123"⟩).take 4)).Alike
      (.call faults (.authorize (requestWith ⟨"123"⟩)))
      (.call faults (.authorize { requestWith ⟨"123"⟩ with card := (requestWith ⟨"321"⟩).card })) :=
    .wrong rfl (by decide +kernel) (by decide +kernel)
  exact .cons (.same _) (.cons (.same _) (.cons (.same _) (.cons (.same _) (.cons hlate .nil))))

end ChangedCode

end CardHolds
