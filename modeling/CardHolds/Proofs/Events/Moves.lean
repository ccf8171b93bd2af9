import CardHolds.Events.Delivery
import CardHolds.Proofs.Statement.Channel
import Mathlib.Algebra.Order.Group.Multiset
import Mathlib.Data.Multiset.Filter
import Mathlib.Tactic.Abel

/-!
# The steps of a delivery

`Delivery.Moves` lists all that a step of an actor can be, with what has to be so before it.  By cases
on it, each step uses up some of the work that is left (`Moves.work_lt`), the phase of the handler
keeps telling what channel and hooks look like (`Phased.step`), and no event is lost or doubled: those
whose hooks were started, those whose hooks are set up, those on the channel and those yet to be
published are together the events of the producers (`Accounted.step`).
-/

namespace CardHolds

namespace Delivery
variable {ε : Type} {fails : ε → Bool} {d d' : Delivery ε}

/-! ## What a step can be -/

theorem exists_of_getElem? {α : Type} {l : List α} {i : Nat} {a : α} (h : l[i]? = some a) (b : α) :
    ∃ pre post, l = pre ++ a :: post ∧ l.set i b = pre ++ b :: post := by
  obtain ⟨hi, rfl⟩ := List.getElem?_eq_some_iff.mp h
  obtain ⟨pre, post, hl, -, hset⟩ : ∃ pre post, l = pre ++ l[i] :: post ∧ pre.length = i ∧
      l.set i b = pre ++ b :: post := List.exists_of_set hi
  exact ⟨pre, post, hl, hset⟩

/-- All that a step of an actor can be. -/
inductive Moves (fails : ε → Bool) (d : Delivery ε) : Actor → Delivery ε → Prop
  | publish {index : Nat} {pre post : List (Option (List ε))} {event : ε} {rest : List ε}
      (listed : d.producers = pre ++ some (event :: rest) :: post)
      (listening : d.channel.receiverOpen = true) :
      Moves fails d (.producer index) { d with
        producers := pre ++ some rest :: post
        channel := { d.channel with queue := d.channel.queue ++ [event] } }
  | publishToNobody {index : Nat} {pre post : List (Option (List ε))} {event : ε} {rest : List ε}
      (listed : d.producers = pre ++ some (event :: rest) :: post)
      (deaf : d.channel.receiverOpen = false) :
      Moves fails d (.producer index) { d with producers := pre ++ some rest :: post }
  | dropProducer {index : Nat} {pre post : List (Option (List ε))}
      (listed : d.producers = pre ++ some [] :: post) :
      Moves fails d (.producer index) (release { d with producers := pre ++ none :: post })
  | startHandler (phase : d.phase = .created) :
      Moves fails d .handler (release { d with phase := .receiving })
  | receive {event : ε} {queue : List ε} (phase : d.phase = .receiving)
      (queued : d.channel.queue = event :: queue) :
      Moves fails d .handler { d with
        channel := { d.channel with queue := queue }
        hooks := d.hooks ++ [⟨event, .waiting⟩]
        phase := .reaping }
  | stopReceiving (phase : d.phase = .receiving) (empty : d.channel.queue = [])
      (closed : d.channel.senderOpen = false) : Moves fails d .handler { d with phase := .joining }
  | join {pre post : List (Hook ε)} {event : ε} (phase : d.phase = .reaping ∨ d.phase = .joining)
      (listed : d.hooks = pre ++ ⟨event, .ended⟩ :: post) :
      Moves fails d .handler { d with hooks := pre ++ post }
  | stopReaping (phase : d.phase = .reaping) : Moves fails d .handler { d with phase := .receiving }
  | stop (phase : d.phase = .joining) (joined : d.hooks = []) :
      Moves fails d .handler { d with phase := .stopped }
  | startHook {index : Nat} {pre post : List (Hook ε)} {event : ε}
      (listed : d.hooks = pre ++ ⟨event, .waiting⟩ :: post) :
      Moves fails d (.hook index) { d with
        hooks := pre ++ ⟨event, .running⟩ :: post
        started := d.started ++ [event] }
  | endHook {index : Nat} {pre post : List (Hook ε)} {event : ε}
      (listed : d.hooks = pre ++ ⟨event, .running⟩ :: post) :
      Moves fails d (.hook index) { d with
        hooks := pre ++ ⟨event, .ended⟩ :: post
        finished := if fails event then d.finished else d.finished ++ [event] }
  | dropHandler (phase : d.phase = .created) : Moves fails d .owner d.abandon

theorem moves_produce {index : Nat} (h : d.produce index = some d') :
    Moves fails d (.producer index) d' := by
  unfold produce at h
  split at h
  · rename_i event rest hindex
    obtain ⟨pre, post, hlisted, hset⟩ := exists_of_getElem? hindex (some rest)
    simp only [hset] at h
    split at h
    · rename_i channel hsent
      obtain ⟨hlistening, rfl⟩ := Channel.send_sent hsent
      cases h
      exact .publish hlisted hlistening
    · rename_i hgone
      cases h
      exact .publishToNobody hlisted (Channel.send_gone hgone)
    · cases h
  · rename_i hindex
    obtain ⟨pre, post, hlisted, hset⟩ := exists_of_getElem? hindex none
    simp only [hset] at h
    cases h
    exact .dropProducer hlisted
  · cases h
  · cases h

/-- A hook is joined, if one has ended. -/
theorem moves_join (phase : d.phase = .reaping ∨ d.phase = .joining)
    (h : d.hooks.any Hook.isEnded = true) :
    Moves fails d .handler { d with hooks := d.hooks.eraseP Hook.isEnded } := by
  obtain ⟨hook, hmem, hjoinable⟩ := List.any_eq_true.mp h
  obtain ⟨⟨event, stage⟩, pre, post, -, hjoined, hlisted, herase⟩ := List.exists_of_eraseP hmem hjoinable
  cases (of_decide_eq_true hjoined : stage = .ended)
  rw [herase]
  exact .join phase hlisted

theorem moves_handle (h : d.handle = some d') : Moves fails d .handler d' := by
  unfold handle at h
  split at h
  · rename_i hphase
    cases h
    exact .startHandler hphase
  · rename_i hphase
    split at h
    · rename_i event channel hreceive
      obtain ⟨hqueue, hchannel⟩ := Channel.receive_message hreceive
      rw [hchannel] at h
      cases h
      exact .receive hphase hqueue
    · rename_i hended
      obtain ⟨hempty, hclosed⟩ := Channel.receive_ended hended
      cases h
      exact .stopReceiving hphase hempty hclosed
    · cases h
  · rename_i hphase
    split at h
    · rename_i hjoinable
      cases h
      exact moves_join (Or.inl hphase) hjoinable
    · cases h
      exact .stopReaping hphase
  · rename_i hphase
    split at h
    · rename_i hjoinable
      cases h
      exact moves_join (Or.inr hphase) hjoinable
    · split at h
      · rename_i hempty
        cases h
        exact .stop hphase (List.isEmpty_iff.mp hempty)
      · cases h
  · cases h
  · cases h

theorem moves_advance {index : Nat} (h : d.advance fails index = some d') :
    Moves fails d (.hook index) d' := by
  unfold advance at h
  split at h
  · rename_i event hindex
    obtain ⟨pre, post, hlisted, hset⟩ := exists_of_getElem? hindex ⟨event, .running⟩
    rw [hset] at h
    cases h
    exact .startHook hlisted
  · rename_i event hindex
    obtain ⟨pre, post, hlisted, hset⟩ := exists_of_getElem? hindex ⟨event, .ended⟩
    rw [hset] at h
    cases h
    exact .endHook hlisted
  · cases h
  · cases h

theorem moves_of_step {actor : Actor} (h : d.step fails actor = some d') :
    Moves fails d actor d' := by
  cases actor with
  | producer index => exact moves_produce h
  | handler => exact moves_handle h
  | hook index => exact moves_advance h
  | owner =>
    have h : (if d.phase = .created then some d.abandon else none) = some d' := h
    split at h
    · rename_i hphase
      cases h
      exact .dropHandler hphase
    · cases h

/-! ## The work that is left -/

/-- Giving up a sender does nothing but close the channel, if it was the last one. -/
theorem release_eq (d : Delivery ε) : d.release =
    { d with channel := { d.channel with senderOpen := d.channel.senderOpen && d.senderHeld } } := by
  unfold release
  split
  · rename_i hheld
    rw [hheld, Bool.and_true]
  · rename_i hheld
    rw [Bool.eq_false_iff.mpr hheld, Bool.and_false]
    rfl

@[simp] theorem workOf_nil {α : Type} (work : α → Nat) : workOf work [] = 0 := rfl

@[simp] theorem workOf_cons {α : Type} (work : α → Nat) (member : α) (rest : List α) :
    workOf work (member :: rest) = work member + workOf work rest := rfl

@[simp] theorem workOf_append {α : Type} (work : α → Nat) (members rest : List α) :
    workOf work (members ++ rest) = workOf work members + workOf work rest := by
  induction members with
  | nil => simp
  | cons member members ih =>
    simp only [List.cons_append, workOf_cons, ih]
    omega

/-- Every step uses up some of the work. -/
theorem Moves.work_lt {actor : Actor} (h : Moves fails d actor d') : d'.work < d.work := by
  cases h with
  | publish listed listening =>
    simp only [work, listed, workOf_append, workOf_cons, producerWork, List.length_cons,
      List.length_append, List.length_nil]
    omega
  | publishToNobody listed deaf =>
    simp only [work, listed, workOf_append, workOf_cons, producerWork, List.length_cons]
    omega
  | dropProducer listed =>
    simp only [release_eq, work, listed, workOf_append, workOf_cons, producerWork, List.length_nil]
    omega
  | startHandler phase =>
    simp only [release_eq, work, phase, HandlerPhase.work]
    omega
  | receive phase queued =>
    simp only [work, phase, queued, HandlerPhase.work, workOf_append, workOf_cons, workOf_nil,
      Hook.work, List.length_cons]
    omega
  | stopReceiving phase empty closed =>
    simp only [work, phase, HandlerPhase.work]
    omega
  | join phase listed =>
    simp only [work, listed, workOf_append, workOf_cons, Hook.work]
    omega
  | stopReaping phase =>
    simp only [work, phase, HandlerPhase.work]
    omega
  | stop phase joined =>
    simp only [work, phase, HandlerPhase.work]
    omega
  | startHook listed =>
    simp only [work, listed, workOf_append, workOf_cons, Hook.work]
    omega
  | endHook listed =>
    simp only [work, listed, workOf_append, workOf_cons, Hook.work]
    omega
  | dropHandler phase =>
    simp only [abandon, release_eq, work, phase, HandlerPhase.work, Channel.closeReceiver,
      List.length_nil]
    omega

/-- The delivery after some steps, if all of them can be taken. -/
def follow? (fails : ε → Bool) (d : Delivery ε) (actors : List Actor) : Option (Delivery ε) :=
  actors.foldlM (step fails) d

/-- Steps are no more than the work that they use up. -/
theorem length_add_work_le {actors : List Actor} (h : d.follow? fails actors = some d') :
    actors.length + d'.work ≤ d.work := by
  induction actors generalizing d with
  | nil =>
    cases h
    simp
  | cons actor actors ih =>
    obtain ⟨next, hstep, hrest⟩ := Option.bind_eq_some_iff.mp h
    have hlt := (moves_of_step hstep).work_lt
    have hle := ih hrest
    rw [List.length_cons]
    omega

/-! ## What each phase has left behind -/

/-- What is known of channel, producers and hooks in a phase of the handler. -/
structure Phased (d : Delivery ε) : Prop where
  room : 0 < d.channel.capacity
  listening : d.channel.receiverOpen = true ↔ d.phase ≠ .dropped
  sending : d.channel.senderOpen = d.senderHeld
  idle : d.phase = .created ∨ d.phase = .dropped → d.hooks = [] ∧ d.started = [] ∧ d.finished = []
  drained : d.phase = .joining ∨ d.phase = .stopped → d.channel.queue = [] ∧ d.producing = false
  joined : d.phase = .stopped → d.hooks = []

theorem phased_start (producers : List (List ε)) (buffer : Nat) :
    Phased ({ producers := producers.map some, channel := .ofCapacity buffer } : Delivery ε) where
  room := Nat.le_max_left 1 buffer
  listening := ⟨fun _ => nofun, fun _ => rfl⟩
  sending := rfl
  idle _ := ⟨rfl, rfl, rfl⟩
  drained h := h.elim nofun nofun
  joined := nofun

theorem producing_of_listed {pre post : List (Option (List ε))} {events : List ε}
    (listed : d.producers = pre ++ some events :: post) : d.producing = true := by
  simp [producing, listed]

theorem and_senderHeld (h : d.senderHeld = true → d.channel.senderOpen = true) :
    (d.channel.senderOpen && d.senderHeld) = d.senderHeld := by
  cases hheld : d.senderHeld with
  | true => rw [h hheld, Bool.and_true]
  | false => rw [Bool.and_false]

/-- A producer that is dropped stays so. -/
theorem Moves.producing {actor : Actor} (h : Moves fails d actor d') (hd : d'.producing = true) :
    d.producing = true := by
  cases h with
  | publish listed _ => exact producing_of_listed listed
  | publishToNobody listed _ => exact producing_of_listed listed
  | dropProducer listed => exact producing_of_listed listed
  | startHandler _ =>
    rw [release_eq] at hd
    exact hd
  | dropHandler _ =>
    rw [abandon, release_eq] at hd
    exact hd
  | receive _ _ => exact hd
  | stopReceiving _ _ _ => exact hd
  | join _ _ => exact hd
  | stopReaping _ => exact hd
  | stop _ _ => exact hd
  | startHook _ => exact hd
  | endHook _ => exact hd

section Phased
variable {phase : HandlerPhase} {pre post : List (Option (List ε))} {events : List ε}

/-- Who still has a producer is not near the end. -/
theorem Phased.not_drained (h : Phased d) (listed : d.producers = pre ++ some events :: post) :
    ¬ (d.phase = .joining ∨ d.phase = .stopped) := by
  intro hphase
  have hlive := producing_of_listed listed
  rw [(h.drained hphase).2] at hlive
  cases hlive

theorem senderHeld_of_listed (listed : d.producers = pre ++ some events :: post) :
    d.senderHeld = true :=
  Bool.or_eq_true_iff.mpr (Or.inr (producing_of_listed listed))

/-- A handler that is at work listens, and has no sender of its own. -/
theorem Phased.at_work (h : Phased d) (hphase : d.phase = phase) (hcreated : phase ≠ .created)
    (hdropped : phase ≠ .dropped) :
    d.channel.receiverOpen = true ∧ d.channel.senderOpen = d.producing := by
  subst hphase
  refine ⟨h.listening.mpr hdropped, h.sending.trans ?_⟩
  rw [senderHeld, decide_eq_false hcreated, Bool.false_or]

theorem Phased.step {actor : Actor} (h : Phased d) (hmove : Moves fails d actor d') : Phased d' := by
  cases hmove with
  | publish listed listening =>
    exact ⟨h.room, h.listening,
      h.sending.trans ((senderHeld_of_listed listed).trans (senderHeld_of_listed rfl).symm), h.idle,
      fun hphase => absurd hphase (h.not_drained listed), h.joined⟩
  | publishToNobody listed deaf =>
    exact ⟨h.room, h.listening,
      h.sending.trans ((senderHeld_of_listed listed).trans (senderHeld_of_listed rfl).symm), h.idle,
      fun hphase => absurd hphase (h.not_drained listed), h.joined⟩
  | dropProducer listed =>
    rw [release_eq]
    exact ⟨h.room, h.listening, and_senderHeld fun _ => h.sending.trans (senderHeld_of_listed listed),
      h.idle, fun hphase => absurd hphase (h.not_drained listed), h.joined⟩
  | startHandler phase =>
    rw [release_eq]
    exact ⟨h.room, iff_of_true (h.listening.mpr (by simp [phase])) nofun,
      and_senderHeld fun _ => h.sending.trans (by simp [senderHeld, phase]),
      fun h => h.elim nofun nofun, fun h => h.elim nofun nofun, nofun⟩
  | receive phase queued =>
    obtain ⟨hlistening, hsending⟩ := h.at_work phase nofun nofun
    exact ⟨h.room, iff_of_true hlistening nofun, hsending, fun h => h.elim nofun nofun,
      fun h => h.elim nofun nofun, nofun⟩
  | stopReceiving phase empty closed =>
    obtain ⟨hlistening, hsending⟩ := h.at_work phase nofun nofun
    exact ⟨h.room, iff_of_true hlistening nofun, hsending, fun h => h.elim nofun nofun,
      fun _ => ⟨empty, hsending.symm.trans closed⟩, nofun⟩
  | join phase listed =>
    refine ⟨h.room, h.listening, h.sending, fun hidle => ?_, h.drained, fun hstopped => ?_⟩
    · rcases phase with phase | phase <;> simp [phase] at hidle
    · rcases phase with phase | phase <;> cases phase.symm.trans hstopped
  | stopReaping phase =>
    obtain ⟨hlistening, hsending⟩ := h.at_work phase nofun nofun
    exact ⟨h.room, iff_of_true hlistening nofun, hsending, fun h => h.elim nofun nofun,
      fun h => h.elim nofun nofun, nofun⟩
  | stop phase joined =>
    obtain ⟨hlistening, hsending⟩ := h.at_work phase nofun nofun
    exact ⟨h.room, iff_of_true hlistening nofun, hsending, fun h => h.elim nofun nofun,
      fun _ => h.drained (Or.inl phase), fun _ => joined⟩
  | startHook listed =>
    refine ⟨h.room, h.listening, h.sending, fun hidle => ?_, h.drained, fun hstopped => ?_⟩
    · simpa [listed] using (h.idle hidle).1
    · simpa [listed] using h.joined hstopped
  | endHook listed =>
    refine ⟨h.room, h.listening, h.sending, fun hidle => ?_, h.drained, fun hstopped => ?_⟩
    · simpa [listed] using (h.idle hidle).1
    · simpa [listed] using h.joined hstopped
  | dropHandler phase =>
    rw [abandon, release_eq]
    exact ⟨h.room, iff_of_false nofun (fun h => h rfl),
      and_senderHeld fun _ => h.sending.trans (by simp [senderHeld, phase]),
      fun _ => h.idle (Or.inl phase), fun h => h.elim nofun nofun, nofun⟩

end Phased

/-! ## Where the events are -/

/-- The events whose hooks are at a stage. -/
def eventsIn (stage : HookStage) (hooks : List (Hook ε)) : Multiset ε :=
  ((hooks.filter fun hook => decide (hook.stage = stage)).map Hook.event : List ε)

/-- The events that are yet to be published. -/
def unpublished (producers : List (Option (List ε))) : Multiset ε :=
  (producers.flatMap fun left => left.getD [] : List ε)

section Multisets
variable {stage : HookStage}

theorem coe_concat (events : List ε) (event : ε) :
    ((events ++ [event] : List ε) : Multiset ε) = events + {event} :=
  (Multiset.coe_add events [event]).symm

theorem eventsIn_append (hooks hooks' : List (Hook ε)) :
    eventsIn stage (hooks ++ hooks') = eventsIn stage hooks + eventsIn stage hooks' := by
  rw [eventsIn, List.filter_append, List.map_append, ← Multiset.coe_add]
  rfl

theorem eventsIn_cons (hook : Hook ε) (hooks : List (Hook ε)) : eventsIn stage (hook :: hooks) =
    (if hook.stage = stage then {hook.event} else 0) + eventsIn stage hooks := by
  by_cases h : hook.stage = stage
  · rw [eventsIn, List.filter_cons_of_pos (by simpa using h), if_pos h]
    rfl
  · rw [eventsIn, List.filter_cons_of_neg (by simpa using h), if_neg h, zero_add]
    rfl

theorem eventsIn_nil : eventsIn stage ([] : List (Hook ε)) = 0 := rfl

theorem unpublished_append (producers producers' : List (Option (List ε))) :
    unpublished (producers ++ producers') = unpublished producers + unpublished producers' := by
  rw [unpublished, List.flatMap_append, ← Multiset.coe_add]
  rfl

theorem unpublished_cons (left : List ε) (producers : List (Option (List ε))) :
    unpublished (some left :: producers) = left + unpublished producers :=
  (Multiset.coe_add left _).symm

end Multisets

/-- No event is lost or doubled, as long as the handler is not dropped; and of the hooks that were
started those have ended normally that no longer run and do not fail. -/
structure Accounted (fails : ε → Bool) (events : Multiset ε) (d : Delivery ε) : Prop where
  all : d.phase ≠ .dropped →
    (d.started : Multiset ε) + eventsIn .waiting d.hooks + (d.channel.queue : Multiset ε) +
      unpublished d.producers = events
  ended : (d.finished : Multiset ε) + (eventsIn .running d.hooks).filter (fails · = false) =
    (d.started : Multiset ε).filter (fails · = false)

section Accounted
variable {events : Multiset ε} {actor : Actor}

theorem Accounted.step (h : Accounted fails events d) (phased : Phased d)
    (hmove : Moves fails d actor d') : Accounted fails events d' := by
  cases hmove with
  | publish listed listening =>
    refine ⟨fun hphase => Eq.trans ?_ (h.all hphase), h.ended⟩
    simp only [listed, unpublished_append, unpublished_cons, coe_concat, ← Multiset.cons_coe,
      ← Multiset.singleton_add]
    abel
  | publishToNobody listed deaf =>
    have hdropped : d.phase = .dropped := by
      by_contra hphase
      rw [phased.listening.mpr hphase] at deaf
      cases deaf
    exact ⟨fun hphase => absurd hdropped hphase, h.ended⟩
  | dropProducer listed =>
    rw [release_eq]
    refine ⟨fun hphase => Eq.trans ?_ (h.all hphase), h.ended⟩
    simp only [listed, unpublished_append]
    rfl
  | startHandler phase =>
    rw [release_eq]
    exact ⟨fun _ => h.all (by simp [phase]), h.ended⟩
  | receive phase queued =>
    refine ⟨fun _ => Eq.trans ?_ (h.all (by simp [phase])), Eq.trans ?_ h.ended⟩
    · simp only [queued, eventsIn_append, eventsIn_cons, eventsIn_nil, if_true, ← Multiset.cons_coe,
        ← Multiset.singleton_add]
      abel
    · simp [eventsIn_append, eventsIn_cons, eventsIn_nil]
  | stopReceiving phase empty closed => exact ⟨fun _ => h.all (by simp [phase]), h.ended⟩
  | join phase listed =>
    refine ⟨fun hphase => Eq.trans ?_ (h.all hphase), Eq.trans ?_ h.ended⟩
    · simp [listed, eventsIn_append, eventsIn_cons]
    · simp [listed, eventsIn_append, eventsIn_cons]
  | stopReaping phase => exact ⟨fun _ => h.all (by simp [phase]), h.ended⟩
  | stop phase joined => exact ⟨fun _ => h.all (by simp [phase]), h.ended⟩
  | startHook listed =>
    refine ⟨fun hphase => Eq.trans ?_ (h.all hphase), ?_⟩
    · simp only [listed, eventsIn_append, eventsIn_cons, coe_concat, if_true, reduceCtorEq, if_false]
      abel
    · have hended := h.ended
      simp only [listed, eventsIn_append, eventsIn_cons, coe_concat, if_true, reduceCtorEq, if_false,
        Multiset.filter_add, zero_add] at hended ⊢
      rw [← hended]
      abel
  | endHook listed =>
    refine ⟨fun hphase => Eq.trans ?_ (h.all hphase), Eq.trans ?_ h.ended⟩
    · simp only [listed, eventsIn_append, eventsIn_cons, reduceCtorEq, if_false]
    · simp only [listed, eventsIn_append, eventsIn_cons, reduceCtorEq, if_false, if_true,
        Multiset.filter_add, Multiset.filter_singleton]
      split
      · rename_i hfails
        simp [hfails]
      · rename_i hfails
        simp only [coe_concat, Bool.eq_false_iff.mpr hfails, if_true]
        abel
  | dropHandler phase =>
    rw [abandon, release_eq]
    exact ⟨fun h => absurd rfl h, h.ended⟩

end Accounted

end Delivery

end CardHolds
