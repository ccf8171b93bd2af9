import CardHolds.Proofs.Engine.Deeds
import CardHolds.Proofs.Engine.Translation
import CardHolds.Proofs.Lifecycle.Announcement

/-!
# Events tell what happened, and change nothing

Under any interference a lifecycle call tells of the row that it committed if it returns a row, of the
moves that it could not undo if its error lists any, and otherwise of nothing (`Engine.call_announced`).

What is published goes to the observers, if there are any that listen, and nowhere else.  Two runs that
differ in the observers alone have the same results and leave the same engine but for what was heard
(`Engine.run_heardBy`).

`Engine.events_match` says both of whole runs.
-/

namespace CardHolds

open Program

/-! ## One call -/

namespace Engine

/-- The call has told what it came to: of the row that it added to the log, or of the moves that stay in
place, merchant before customer and each under its label, or of nothing. -/
def Announced (e : Engine) (i : Interference) (instruction : Instruction) : Prop :=
  let told := e.told (.call i instruction)
  let after := (e.call i (instruction.program e.retries)).2.engine
  match (e.call i (instruction.program e.retries)).1 with
  | .ok outcome =>
    if outcome.status = .invalidTransaction then
      told = [] ∧ after.log.rows = e.log.rows
    else
      ∃ row p, after.log.rows.rows = e.log.rows.rows ++ [row] ∧ row.read = .ok p ∧
        outcome = .ofPayment p ∧ told = [.paymentRecorded ⟨p⟩]
  | .error (.compensationFailed _ accounts) =>
    ∃ d events, instruction.DecidesOn e d ∧ events ≠ [] ∧ told = events.map .compensationFailed ∧
      accounts = events.map CompensationFailed.account ∧
      (events.map fun event => (event.account, event.step)).Sublist d.row.moveTitles.reverse
  | .error _ => told = []

end Engine

/-- Events that tell of moves have the accounts and the labels of the moves. -/
theorem Event.exists_of_tellsOf {told : List Event} {stranded : List BalanceMove}
    (h : List.Forall₂ Event.TellsOf told stranded) :
    ∃ events : List CompensationFailed, told = events.map .compensationFailed ∧
      events.map CompensationFailed.account = stranded.map BalanceMove.account ∧
      events.map (fun event => (event.account, event.step)) = stranded.map BalanceMove.title := by
  induction h with
  | nil => exact ⟨[], rfl, rfl, rfl⟩
  | cons h _ ih =>
    obtain ⟨fault, rfl⟩ := h
    obtain ⟨events, rfl, haccounts, htitles⟩ := ih
    refine ⟨_ :: events, rfl, ?_, ?_⟩
    · rw [List.map_cons, List.map_cons, haccounts]
      rfl
    · rw [List.map_cons, List.map_cons, htitles]
      rfl

namespace Engine
variable {e : Engine} {i : Interference} {instruction : Instruction}

/-- The engine finds no payment but one that its log holds. -/
theorem telling_replies {Lawful : Option Payment → Decision → Prop} {x : Execution} {f : File}
    (hx : f.Holds Lawful e x) (c : LifecycleCall) (hask : (filing Lawful).Asks f c)
    (told : List Event) :
    (telling fun p => findPayment e.log.rows p.id = .ok (some p)).Replies told c
      (Execution.answer i c x).1 := by
  have hreplies : (filing Lawful).Replies f c (Execution.answer i c x).1 :=
    Execution.answer_replies i x f c
  have hholds := hx.answer (i := i) c hask
  generalize (Execution.answer i c x).1 = reply at hreplies hholds
  match c, reply with
  | .ledger (.account _), .ok _ => exact hreplies
  | .ledger (.account _), .error _ => trivial
  | .ledger (.updateBalance _ _), _ => trivial
  | .ledger .openStream, _ => trivial
  | .log (.find _), .ok (some p) =>
    obtain ⟨row, hrow, hread⟩ := hholds.found p rfl
    exact ⟨hreplies, findPayment_of_mem hrow hread⟩
  | .log (.find _), .ok none => trivial
  | .log (.find _), .error _ => trivial
  | .log .begin, _ => trivial
  | .log (.insert _), _ => trivial
  | .log .commit, _ => trivial
  | .log .rollback, _ => trivial
  | .log (.involving _), _ => trivial
  | .stream _, _ => trivial
  | .publish _, _ => trivial

/-- What the file of a call shows at its end, and what was told. -/
theorem call_story (e : Engine) (i : Interference) (instruction : Instruction) :
    ∃ f : File, f.Holds (fun found => instruction.Decides found) e
        (e.call i (instruction.program e.retries)).2 ∧
      instruction.Announces (fun p => findPayment e.log.rows p.id = .ok (some p))
        (e.call i (instruction.program e.retries)).1 f (e.told (.call i instruction)) := by
  obtain ⟨⟨f, told⟩, hannounces, hholds, htold⟩ :=
    (instruction.program_announces (fun p => findPayment e.log.rows p.id = .ok (some p))
      e.retries).run_accrued (Execution.answer i) (fun (c : LifecycleCall) _ => FreeAddMonoid.ofList c.events)
      (fun x s => s.1.Holds (fun found => instruction.Decides found) e x)
      (fun s => FreeAddMonoid.ofList s.2)
      (fun c x s hx hask => by
        refine ⟨⟨Execution.answer_replies i x s.1 c, telling_replies hx c hask.1 s.2⟩,
          hx.answer c hask.1, ?_⟩
        cases c with
        | publish event => rfl
        | ledger c => exact (add_zero _).symm
        | log c => exact (add_zero _).symm
        | stream c => exact (add_zero _).symm)
      (x := { engine := e }) (File.holds_start e)
  refine ⟨f, hholds, ?_⟩
  have htold : told = e.told (.call i instruction) := htold.trans (zero_add _)
  rw [← htold]
  exact hannounces

/-- **A call tells of what it came to.** -/
theorem call_announced (e : Engine) (i : Interference) (instruction : Instruction) :
    e.Announced i instruction := by
  obtain ⟨f, hholds, hannounces⟩ := e.call_story i instruction
  unfold Announced
  cases hresult : (e.call i (instruction.program e.retries)).1 with
  | ok outcome =>
    rw [hresult] at hannounces
    show if outcome.status = .invalidTransaction then _ else _
    -- the file of the call knows whether a row was added, and which one
    rcases hannounces with ⟨p, hfiled, rfl, htold⟩ | ⟨hnothing, hstatus, htold⟩
    · obtain ⟨d, id, now, hd, rfl, -⟩ := hholds.inOrder p (by rw [hfiled]; rfl)
      have hstatus : (PaymentOutcome.ofPayment (d.row.recorded id now)).status ≠
        .invalidTransaction := hd.status_ne
      rw [if_neg hstatus]
      rcases hholds.rows with ⟨-, hnot⟩ | ⟨row, p', hp', hread, -, hrows⟩
      · exact absurd hfiled (hnot _)
      · rw [hfiled] at hp'
        cases hp'
        exact ⟨row, _, hrows, hread, rfl, htold⟩
    · rw [if_pos hstatus]
      rcases hholds.rows with ⟨hrows, -⟩ | ⟨row, p', hp', -⟩
      · exact ⟨htold, hrows⟩
      · rw [hnothing] at hp'
        cases hp'
  | error error =>
    rw [hresult] at hannounces
    obtain ⟨stranded, hreports, htells, hplans⟩ := hannounces
    cases error with
    | compensationFailed message accounts =>
      obtain ⟨hne, haccounts⟩ := hreports
      obtain ⟨d, ⟨found, hfound, hd⟩, hsub⟩ := hplans hne
      obtain ⟨events, htold, hsame, htitles⟩ := Event.exists_of_tellsOf htells
      refine ⟨d, events, ⟨found, hfound, hd⟩, ?_, htold, haccounts.trans hsame.symm, ?_⟩
      · intro hnil
        rw [hnil] at hsame
        exact hne (List.map_eq_nil_iff.mp hsame.symm)
      · rw [htitles]
        rcases hd.titled with hnone | hmoves
        · rw [hnone] at hsub
          exact absurd (List.sublist_nil.mp hsub) hne
        · rw [← hmoves, ← List.map_reverse]
          exact hsub.map _
    | _ =>
      have hreports : stranded = [] := hreports
      rw [hreports] at htells
      exact List.forall₂_nil_right_iff.mp htells

end Engine

/-! ## Observers -/

namespace Hearing

/-- What is heard of an event, by observers that listen. -/
def hear (h : Hearing) (event : Event) : Hearing :=
  match h.observers, event with
  | .listening, .paymentRecorded event => { h with recorded := h.recorded ++ [event.payment] }
  | .listening, .compensationFailed event => { h with stranded := h.stranded ++ [event] }
  | .absent, _ => h
  | .gone, _ => h

/-- What is heard of several events, one after the other. -/
def hearAll (h : Hearing) (events : List Event) : Hearing := events.foldl hear h

theorem hearAll_append (h : Hearing) (events events' : List Event) :
    h.hearAll (events ++ events') = (h.hearAll events).hearAll events' := List.foldl_append

end Hearing

/-- The recorded payment that an event tells of. -/
def Event.recorded? : Event → Option Payment
  | paymentRecorded event => some event.payment
  | compensationFailed _ => none

/-- The stranded move that an event tells of. -/
def Event.stranded? : Event → Option CompensationFailed
  | paymentRecorded _ => none
  | compensationFailed event => some event

namespace Hearing
variable {h : Hearing}

/-- Observers that listen hear everything, in order. -/
theorem hearAll_of_listening (hlistening : h.observers = .listening) (events : List Event) :
    h.hearAll events =
      { h with
        recorded := h.recorded ++ events.filterMap Event.recorded?
        stranded := h.stranded ++ events.filterMap Event.stranded? } := by
  induction events generalizing h with
  | nil => simp [hearAll]
  | cons event rest ih =>
    obtain ⟨observers, recorded, stranded⟩ := h
    cases hlistening
    cases event with
    | paymentRecorded event =>
      refine (ih (h := ⟨.listening, recorded ++ [event.payment], stranded⟩) rfl).trans ?_
      exact congrArg (Hearing.mk .listening · _) (List.append_assoc ..)
    | compensationFailed event =>
      refine (ih (h := ⟨.listening, recorded, stranded ++ [event]⟩) rfl).trans ?_
      exact congrArg (Hearing.mk .listening _ ·) (List.append_assoc ..)

/-- Nobody else hears anything. -/
theorem hearAll_of_not_listening (hnot : h.observers ≠ .listening) (events : List Event) :
    h.hearAll events = h := by
  have hhear : ∀ event, h.hear event = h := by
    intro event
    unfold hear
    split
    · exact absurd ‹_› hnot
    · exact absurd ‹_› hnot
    · rfl
    · rfl
  induction events with
  | nil => rfl
  | cons event rest ih =>
    show (h.hear event).hearAll rest = h
    rw [hhear, ih]

end Hearing

/-- The translation that replaces the observers, and nothing else. -/
def Translation.observers (h : Hearing) : Translation :=
  { identity with hearing := fun _ => h }

/-- Observers that are told hear what they hear, and nothing else changes. -/
theorem Engine.publish_heardBy (e : Engine) (h : Hearing) (event : Event) :
    (e.heardBy h).publish event = (e.publish event).heardBy (h.hear event) := by
  have hothers : (e.publish event).heardBy (h.hear event) = e.heardBy (h.hear event) := by
    unfold publish
    split <;> rfl
  rw [hothers]
  obtain ⟨observers, recorded, stranded⟩ := h
  cases observers with
  | listening => cases event <;> rfl
  | absent => rfl
  | gone => rfl

namespace Execution
variable {α : Type}

/-- The execution on an engine with other observers. -/
def heardBy (x : Execution) (h : Hearing) : Execution := { x with engine := x.engine.heardBy h }

/-- Only what is published is heard. -/
theorem answer_heardBy (i : Interference) (x : Execution) (h : Hearing) {c : LifecycleCall}
    (hc : ∀ event, c ≠ .publish event) :
    answer i c (x.heardBy h) = ((answer i c x).1, (answer i c x).2.heardBy h) := by
  have hinterference : (Translation.observers h).interference i = i :=
    Translation.interference_eq_self _ (fun _ => rfl) i
  have hreply : ∀ r, c.changed (Translation.observers h).account r = r := c.changed_id
  have hanswer := answer_translated (Translation.observers h) i x hc
  rw [hinterference, hreply] at hanswer
  exact hanswer

/-- **Whoever hears of events, a run is the same**, and what is heard is what it tells. -/
theorem run_heardBy (i : Interference) (p : Program lifecycleCalls α) (x : Execution) (h : Hearing) :
    run i p (x.heardBy h) = ((run i p x).1, (run i p x).2.heardBy (h.hearAll (told i p x))) ∧
      told i p (x.heardBy h) = told i p x := by
  unfold run
  induction p generalizing x h with
  | done a => exact ⟨rfl, rfl⟩
  | ask c next ih =>
    by_cases hc : ∃ event, c = .publish event
    · obtain ⟨event, rfl⟩ := hc
      -- both engines tell their own observers
      have htold : (answer i (.publish event) (x.heardBy h)).2 =
          (answer i (.publish event) x).2.heardBy (h.hear event) :=
        congrArg (fun e => { x with engine := e }) (x.engine.publish_heardBy h event)
      rw [run_ask, run_ask, htold, told_ask, told_ask, htold]
      obtain ⟨hrun, hsame⟩ := ih () (answer i (.publish event) x).2 (h.hear event)
      exact ⟨hrun, congrArg (_ ++ ·) hsame⟩
    · have hc : ∀ event, c ≠ .publish event := fun event he => hc ⟨event, he⟩
      rw [run_ask, run_ask, answer_heardBy i x h hc, told_ask, told_ask, answer_heardBy i x h hc,
        LifecycleCall.events_eq_nil hc]
      exact ih _ (answer i c x).2 h

end Execution

/-! ## Whole runs -/

/-- The payment that a deed recorded, as its result tells of it. -/
def Deed.Result.recorded? : Deed.Result → Option PaymentOutcome
  | call (.ok outcome) => if outcome.status = .invalidTransaction then none else some outcome
  | call (.error _) => none
  | operate _ => none
  | silent => none

/-- The accounts whose moves a deed could not undo, as its result lists them. -/
def Deed.Result.stranded : Deed.Result → List AccountId
  | call (.error (.compensationFailed _ accounts)) => accounts
  | _ => []

namespace Engine
variable {e : Engine}

/-- Whoever hears of events, a deed comes to the same. -/
theorem deed_heardBy (e : Engine) (h : Hearing) (d : Deed) :
    (e.heardBy h).resultOf d = e.resultOf d ∧ (e.heardBy h).told d = e.told d ∧
      (e.heardBy h).after d = (e.after d).heardBy (h.hearAll (e.told d)) := by
  cases d with
  | call faults instruction =>
    obtain ⟨hrun, htold⟩ := Execution.run_heardBy faults (instruction.program e.retries)
      { engine := e } h
    have hcall : (e.heardBy h).call faults (instruction.program (e.heardBy h).retries) = _ := hrun
    refine ⟨?_, htold, ?_⟩
    · rw [resultOf, hcall]
      rfl
    · rw [after, hcall]
      rfl
  | operate command => exact ⟨rfl, rfl, rfl⟩
  | setClock now => exact ⟨rfl, rfl, rfl⟩
  | closeLedger => exact ⟨rfl, rfl, rfl⟩
  | closeLog => exact ⟨rfl, rfl, rfl⟩
  | reopen => exact ⟨rfl, rfl, rfl⟩

/-- **Whoever hears of events, a run comes to the same**, and leaves the same but for what was heard. -/
theorem run_heardBy (e : Engine) (h : Hearing) (deeds : List Deed) :
    (e.heardBy h).results deeds = e.results deeds ∧ (e.heardBy h).toldAll deeds = e.toldAll deeds ∧
      (e.heardBy h).afterAll deeds = (e.afterAll deeds).heardBy (h.hearAll (e.toldAll deeds)) := by
  induction deeds generalizing e h with
  | nil => exact ⟨rfl, rfl, rfl⟩
  | cons d rest ih =>
    obtain ⟨hresult, htold, hafter⟩ := e.deed_heardBy h d
    obtain ⟨hresults, htoldAll, hafterAll⟩ := ih (e.after d) (h.hearAll (e.told d))
    refine ⟨?_, ?_, ?_⟩
    · rw [results, results, hresult, hafter, hresults]
    · rw [toldAll, toldAll, htold, hafter, htoldAll]
    · rw [afterAll_cons, afterAll_cons, hafter, hafterAll, toldAll, Hearing.hearAll_append]

/-- What the observers heard in a run is what was told. -/
theorem hearing_afterAll (e : Engine) (deeds : List Deed) :
    (e.afterAll deeds).hearing = e.hearing.hearAll (e.toldAll deeds) :=
  congrArg hearing (e.run_heardBy e.hearing deeds).2.2

theorem Announced.matches {faults : Interference} {instruction : Instruction}
    (h : e.Announced faults instruction) :
    ((e.told (.call faults instruction)).filterMap Event.recorded?).map .ofPayment =
        (e.resultOf (.call faults instruction)).recorded?.toList ∧
      ((e.told (.call faults instruction)).filterMap Event.stranded?).map CompensationFailed.account =
        (e.resultOf (.call faults instruction)).stranded := by
  have hresultOf : e.resultOf (.call faults instruction) =
      .call (e.call faults (instruction.program e.retries)).1 := rfl
  unfold Announced at h
  rw [hresultOf]
  generalize (e.call faults (instruction.program e.retries)).1 = result at h
  cases result with
  | ok outcome =>
    by_cases hinvalid : outcome.status = .invalidTransaction
    · simp only [if_pos hinvalid] at h
      rw [h.1, Deed.Result.recorded?, if_pos hinvalid]
      exact ⟨rfl, rfl⟩
    · simp only [if_neg hinvalid] at h
      obtain ⟨_, p, -, -, rfl, htold⟩ := h
      rw [htold, Deed.Result.recorded?, if_neg hinvalid]
      exact ⟨rfl, rfl⟩
  | error error =>
    cases error with
    | compensationFailed message accounts =>
      obtain ⟨_, events, -, -, htold, rfl, -⟩ := h
      have hrecorded : (events.map Event.compensationFailed).filterMap Event.recorded? = [] := by
        rw [List.filterMap_map]
        exact List.filterMap_eq_nil_iff.mpr fun _ _ => rfl
      have hstranded : (events.map Event.compensationFailed).filterMap Event.stranded? = events := by
        rw [List.filterMap_map]
        exact List.filterMap_some
      rw [htold, hrecorded, hstranded]
      exact ⟨rfl, rfl⟩
    | _ =>
      have htold : e.told (.call faults instruction) = [] := h
      rw [htold]
      exact ⟨rfl, rfl⟩

/-- Events of a run match what its deeds came to, and do not matter to them.  `calls` says of each call
what it told of.  Over the whole run, the payments and the moves that were told of are those of the
results, in order; observers hear all of it if they listen, and nothing else; and whoever they are and
whatever they heard before, the results and both stores are the same. -/
structure EventsMatch (e : Engine) (deeds : List Deed) : Prop where
  calls : ∀ before faults instruction later, deeds = before ++ .call faults instruction :: later →
    (e.afterAll before).Announced faults instruction
  recorded : ((e.toldAll deeds).filterMap Event.recorded?).map .ofPayment =
    (e.results deeds).filterMap Deed.Result.recorded?
  stranded : ((e.toldAll deeds).filterMap Event.stranded?).map CompensationFailed.account =
    (e.results deeds).flatMap Deed.Result.stranded
  heard : e.observers = .listening →
    (e.afterAll deeds).recorded = e.recorded ++ (e.toldAll deeds).filterMap Event.recorded? ∧
      (e.afterAll deeds).stranded = e.stranded ++ (e.toldAll deeds).filterMap Event.stranded?
  unheard : e.observers ≠ .listening →
    (e.afterAll deeds).recorded = e.recorded ∧ (e.afterAll deeds).stranded = e.stranded
  results : ∀ h : Hearing, (e.heardBy h).results deeds = e.results deeds
  toldAll : ∀ h : Hearing, (e.heardBy h).toldAll deeds = e.toldAll deeds
  ledger : ∀ h : Hearing, ((e.heardBy h).afterAll deeds).ledger = (e.afterAll deeds).ledger
  log : ∀ h : Hearing, ((e.heardBy h).afterAll deeds).log = (e.afterAll deeds).log

theorem toldAll_matches (e : Engine) (deeds : List Deed) :
    ((e.toldAll deeds).filterMap Event.recorded?).map .ofPayment =
        (e.results deeds).filterMap Deed.Result.recorded? ∧
      ((e.toldAll deeds).filterMap Event.stranded?).map CompensationFailed.account =
        (e.results deeds).flatMap Deed.Result.stranded := by
  have hdeed : ∀ (e : Engine) (d : Deed),
      ((e.told d).filterMap Event.recorded?).map .ofPayment = (e.resultOf d).recorded?.toList ∧
        ((e.told d).filterMap Event.stranded?).map CompensationFailed.account =
          (e.resultOf d).stranded := by
    intro e d
    cases d with
    | call faults instruction => exact (e.call_announced faults instruction).matches
    | _ => exact ⟨rfl, rfl⟩
  induction deeds generalizing e with
  | nil => exact ⟨rfl, rfl⟩
  | cons d rest ih =>
    obtain ⟨hrecorded, hstranded⟩ := hdeed e d
    obtain ⟨hrecordedRest, hstrandedRest⟩ := ih (e.after d)
    refine ⟨?_, ?_⟩
    · rw [Engine.toldAll, Engine.results, List.filterMap_append, List.map_append, hrecorded,
        hrecordedRest, List.filterMap_cons]
      cases (e.resultOf d).recorded? <;> rfl
    · rw [Engine.toldAll, Engine.results, List.filterMap_append, List.map_append, hstranded,
        hstrandedRest, List.flatMap_cons]

/-- **Events match what happened and never influence it.** -/
theorem events_match (e : Engine) (deeds : List Deed) : e.EventsMatch deeds := by
  obtain ⟨hrecorded, hstranded⟩ := e.toldAll_matches deeds
  have hheard := e.hearing_afterAll deeds
  refine ⟨fun before faults instruction _ _ => (e.afterAll before).call_announced faults instruction,
    hrecorded, hstranded, fun hlistening => ?_, fun hnot => ?_, fun h => (e.run_heardBy h deeds).1,
    fun h => (e.run_heardBy h deeds).2.1, fun h => ?_, fun h => ?_⟩
  · rw [Hearing.hearAll_of_listening hlistening] at hheard
    exact ⟨congrArg Hearing.recorded hheard, congrArg Hearing.stranded hheard⟩
  · rw [Hearing.hearAll_of_not_listening hnot] at hheard
    exact ⟨congrArg Hearing.recorded hheard, congrArg Hearing.stranded hheard⟩
  · rw [(e.run_heardBy h deeds).2.2]
    rfl
  · rw [(e.run_heardBy h deeds).2.2]
    rfl

end Engine

end CardHolds
