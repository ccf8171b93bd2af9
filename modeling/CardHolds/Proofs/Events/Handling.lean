import CardHolds.Proofs.Events.Moves

/-!
# Every event is handled once

Producers, handler and hooks take turns in any order (`Delivery.play`); who cannot take a step lets
the turn pass.  As long as there are producers one of them or the handler can go on, since a channel
that is full has something for the handler (`Phased.step_of_producing`); and once there are none the
handler or a hook can (`Phased.step_of_not_producing`).  Each step uses up some of the work that is
left, so the handler gets to its end (`Phased.exists_ending`).

Main statement (`Delivery.handles_every_event`): at any time hooks were started for some of the events
and for none of them twice; when the handler stops they were started for all, and have ended normally
where they do not fail; before, somebody can always go on; and a handler that is dropped instead of
started handles nothing and holds up nobody.
-/

namespace CardHolds

namespace Delivery
variable {ε : Type} {fails : ε → Bool} {d d' : Delivery ε}

/-! ## Somebody can go on -/

/-- A producer that is not dropped can go on, unless the channel is full. -/
theorem produce_or_full (h : d.producing = true) : (∃ index, (d.produce index).isSome = true) ∨
    d.channel.receiverOpen = true ∧ d.channel.capacity ≤ d.channel.queue.length := by
  obtain ⟨left, hmem, hleft⟩ := List.any_eq_true.mp h
  obtain ⟨index, hindex⟩ := List.mem_iff_getElem?.mp hmem
  obtain ⟨events, rfl⟩ := Option.isSome_iff_exists.mp hleft
  cases events with
  | nil => exact Or.inl ⟨index, by simp [produce, hindex]⟩
  | cons event rest =>
    cases hsend : d.channel.send event with
    | sent channel => exact Or.inl ⟨index, by simp [produce, hindex, hsend]⟩
    | gone => exact Or.inl ⟨index, by simp [produce, hindex, hsend]⟩
    | full => exact Or.inr (Channel.send_full hsend)

theorem handle_of_queued (h : d.phase = .receiving) (hqueue : d.channel.queue ≠ []) :
    d.handle.isSome = true := by
  obtain ⟨event, queue, hqueue⟩ := List.exists_cons_of_ne_nil hqueue
  simp [handle, h, Channel.receive, hqueue]

theorem handle_of_reaping (h : d.phase = .reaping) : d.handle.isSome = true := by
  simp only [handle, h]
  split <;> rfl

/-- **Producers and handler are not stuck**, as long as there are producers. -/
theorem Phased.step_of_producing (h : Phased d) (hlive : d.producing = true) :
    (∃ index, (d.produce index).isSome = true) ∨ d.handle.isSome = true := by
  rcases produce_or_full hlive with hproduce | ⟨hlistening, hfull⟩
  · exact Or.inl hproduce
  · have hroom := h.room
    have hqueue : d.channel.queue ≠ [] := List.ne_nil_of_length_pos (by omega)
    refine Or.inr ?_
    cases hphase : d.phase with
    | created => simp [handle, hphase]
    | receiving => exact handle_of_queued hphase hqueue
    | reaping => exact handle_of_reaping hphase
    | joining => exact absurd (h.drained (Or.inl hphase)).1 hqueue
    | stopped => exact absurd (h.drained (Or.inr hphase)).1 hqueue
    | dropped => exact absurd hphase (h.listening.mp hlistening)

/-- A hook that cannot be joined can go on. -/
theorem advance_of_not_over {hook : Hook ε} {hooks : List (Hook ε)} (h : d.hooks = hook :: hooks)
    (hjoinable : hook.isEnded = false) : (d.advance fails 0).isSome = true := by
  obtain ⟨event, stage⟩ := hook
  cases stage with
  | waiting => simp [advance, h]
  | running => simp [advance, h]
  | ended => cases hjoinable

/-- **Handler and hooks are not stuck** once there are no producers, before the handler stops. -/
theorem Phased.step_of_not_producing (h : Phased d) (hended : d.producing = false)
    (hstopped : d.phase ≠ .stopped) (hdropped : d.phase ≠ .dropped) :
    d.handle.isSome = true ∨ (d.advance fails 0).isSome = true := by
  cases hphase : d.phase with
  | created => exact Or.inl (by simp [handle, hphase])
  | receiving =>
    refine Or.inl ?_
    cases hqueue : d.channel.queue with
    | nil =>
      have hclosed : d.channel.senderOpen = false := by
        rw [h.sending, senderHeld, hphase, hended]
        rfl
      simp [handle, hphase, Channel.receive, hqueue, hclosed]
    | cons event queue => exact handle_of_queued hphase (by simp [hqueue])
  | reaping => exact Or.inl (handle_of_reaping hphase)
  | joining =>
    cases hhooks : d.hooks with
    | nil => exact Or.inl (by simp [handle, hphase, hhooks])
    | cons hook hooks =>
      cases hjoinable : hook.isEnded with
      | true => exact Or.inl (by simp [handle, hphase, hhooks, hjoinable])
      | false => exact Or.inr (advance_of_not_over hhooks hjoinable)
  | stopped => exact absurd hphase hstopped
  | dropped => exact absurd hphase hdropped

/-! ## Turns -/

/-- The delivery after the turn of an actor, who lets it pass if it cannot take a step. -/
def turn (fails : ε → Bool) (d : Delivery ε) (actor : Actor) : Delivery ε :=
  (d.step fails actor).getD d

/-- The delivery after some turns. -/
def play (fails : ε → Bool) (d : Delivery ε) (turns : List Actor) : Delivery ε :=
  turns.foldl (turn fails) d

section Runs
variable {events : Multiset ε} {actor : Actor} {turns : List Actor}

/-- What is known of a delivery at any time. -/
structure Known (fails : ε → Bool) (events : Multiset ε) (d : Delivery ε) : Prop where
  phased : Phased d
  accounted : Accounted fails events d

theorem Known.step (h : Known fails events d) (hmove : Moves fails d actor d') :
    Known fails events d' :=
  ⟨h.phased.step hmove, h.accounted.step h.phased hmove⟩

theorem Known.turn (h : Known fails events d) (actor : Actor) :
    Known fails events (d.turn fails actor) := by
  unfold Delivery.turn
  cases hstep : d.step fails actor with
  | none => exact h
  | some d' => exact h.step (moves_of_step hstep)

theorem Known.play (h : Known fails events d) (turns : List Actor) :
    Known fails events (d.play fails turns) := by
  induction turns generalizing d with
  | nil => exact h
  | cons actor turns ih => exact ih (h.turn actor)

theorem known_start (fails : ε → Bool) (producers : List (List ε)) (buffer : Nat) (dropped : Bool) :
    Known fails (producers.flatten : List ε) (start producers buffer dropped) := by
  have hcreated : Known fails (producers.flatten : List ε)
      { producers := producers.map some, channel := .ofCapacity buffer } := by
    refine ⟨phased_start producers buffer, fun _ => ?_, rfl⟩
    have hall : unpublished (producers.map some) = (producers.flatten : List ε) := by
      simp [unpublished, List.flatMap_map]
    simp only [eventsIn_nil, Multiset.coe_nil, hall, Channel.ofCapacity, zero_add]
  cases dropped with
  | false => exact hcreated
  | true => exact hcreated.step (.dropHandler rfl)

theorem unpublished_of_not_producing (h : d.producing = false) : unpublished d.producers = 0 := by
  have hnone : (d.producers.flatMap fun left => left.getD []) = [] := by
    refine List.flatMap_eq_nil_iff.mpr fun left hleft => ?_
    cases left with
    | none => rfl
    | some events => exact absurd rfl (List.any_eq_false.mp h _ hleft)
  rw [unpublished, hnone, Multiset.coe_nil]

theorem Known.complete (h : Known fails events d) (hstopped : d.phase = .stopped) :
    (d.started : Multiset ε) = events ∧
      (d.finished : Multiset ε) = events.filter (fails · = false) := by
  obtain ⟨hqueue, hended⟩ := h.phased.drained (Or.inr hstopped)
  have hall := h.accounted.all (by simp [hstopped])
  rw [hqueue, h.phased.joined hstopped, unpublished_of_not_producing hended, eventsIn_nil,
    Multiset.coe_nil, add_zero, add_zero, add_zero] at hall
  have hnormal := h.accounted.ended
  rw [h.phased.joined hstopped, eventsIn_nil, Multiset.filter_zero, add_zero, hall] at hnormal
  exact ⟨hall, hnormal⟩

theorem Known.started_le (h : Known fails events d) : (d.started : Multiset ε) ≤ events := by
  by_cases hdropped : d.phase = .dropped
  · rw [(h.phased.idle (Or.inr hdropped)).2.1]
    exact Multiset.zero_le events
  · rw [← h.accounted.all hdropped, add_assoc, add_assoc]
    exact Multiset.le_add_right _ _

theorem Moves.phase_eq (h : Moves fails d actor d') (hhandler : actor ≠ .handler)
    (howner : actor ≠ .owner) : d'.phase = d.phase := by
  cases h with
  | publish _ _ => rfl
  | publishToNobody _ _ => rfl
  | dropProducer _ => rw [release_eq]
  | startHook _ => rfl
  | endHook _ => rfl
  | dropHandler _ => exact absurd rfl howner
  | startHandler _ => exact absurd rfl hhandler
  | receive _ _ => exact absurd rfl hhandler
  | stopReceiving _ _ _ => exact absurd rfl hhandler
  | join _ _ => exact absurd rfl hhandler
  | stopReaping _ => exact absurd rfl hhandler
  | stop _ _ => exact absurd rfl hhandler

/-- A handler that takes a step is started and will not be dropped. -/
theorem Moves.phase_of_handler (h : Moves fails d .handler d') :
    d'.phase ≠ .created ∧ d'.phase ≠ .dropped := by
  cases h with
  | startHandler _ =>
    rw [release_eq]
    exact ⟨nofun, nofun⟩
  | join phase _ => rcases phase with phase | phase <;> simp [phase]
  | receive _ _ => exact ⟨nofun, nofun⟩
  | stopReceiving _ _ _ => exact ⟨nofun, nofun⟩
  | stopReaping _ => exact ⟨nofun, nofun⟩
  | stop _ _ => exact ⟨nofun, nofun⟩

/-- **The handler can get to its end** once there are no producers, with its own steps and those of
the hooks. -/
theorem Phased.exists_ending (h : Phased d) (hended : d.producing = false)
    (hdropped : d.phase ≠ .dropped) :
    ∃ turns : List Actor, (∀ actor ∈ turns, actor = .handler ∨ ∃ index, actor = .hook index) ∧
      (d.play fails turns).phase = .stopped := by
  -- by induction on the work that is left
  induction hwork : d.work using Nat.strong_induction_on generalizing d with
  | _ n ih =>
  by_cases hstopped : d.phase = .stopped
  · exact ⟨[], nofun, hstopped⟩
  obtain ⟨actor, hactor, d', hstep⟩ : ∃ actor : Actor,
      (actor = .handler ∨ ∃ index, actor = .hook index) ∧ ∃ d', d.step fails actor = some d' := by
    have hgo : d.handle.isSome = true ∨ (d.advance fails 0).isSome = true :=
      h.step_of_not_producing hended hstopped hdropped
    rcases hgo with hgo | hgo
    · exact ⟨.handler, Or.inl rfl, Option.isSome_iff_exists.mp hgo⟩
    · exact ⟨.hook 0, Or.inr ⟨0, rfl⟩, Option.isSome_iff_exists.mp hgo⟩
  have hmove := moves_of_step hstep
  have hdropped' : d'.phase ≠ .dropped := by
    obtain rfl | ⟨index, rfl⟩ := hactor
    · exact hmove.phase_of_handler.2
    · rwa [hmove.phase_eq nofun nofun]
  have hended' : d'.producing = false :=
    Bool.eq_false_iff.mpr fun hlive => Bool.eq_false_iff.mp hended (hmove.producing hlive)
  obtain ⟨turns, hturns, hend⟩ := ih d'.work (hwork ▸ hmove.work_lt) (h.step hmove) hended'
    hdropped' rfl
  refine ⟨actor :: turns, List.forall_mem_cons.mpr ⟨hactor, hturns⟩, ?_⟩
  rw [play, List.foldl_cons, turn, hstep]
  exact hend

/-- An event that nobody listens to is published at once. -/
theorem produce_of_deaf (h : d.channel.receiverOpen = false) {index : Nat} {event : ε} {rest : List ε}
    (hindex : d.producers[index]? = some (some (event :: rest))) :
    d.produce index = some { d with producers := d.producers.set index (some rest) } := by
  simp [produce, hindex, Channel.send, h]

theorem phase_turn (hhandler : actor ≠ .handler) (howner : actor ≠ .owner) :
    (d.turn fails actor).phase = d.phase := by
  unfold turn
  cases hstep : d.step fails actor with
  | none => rfl
  | some d' => exact (moves_of_step hstep).phase_eq hhandler howner

theorem phase_turn_handler (fails : ε → Bool) (d : Delivery ε) :
    ((d.turn fails .handler).phase = .dropped ↔ d.phase = .dropped) ∧
      (d.turn fails .handler).phase ≠ .created := by
  unfold turn
  cases hstep : d.step fails .handler with
  | none =>
    refine ⟨Iff.rfl, fun hcreated => ?_⟩
    have hnone : d.handle = none := hstep
    simp [handle, show d.phase = .created from hcreated] at hnone
  | some d' =>
    obtain ⟨hcreated, hdropped⟩ := (moves_of_step hstep).phase_of_handler
    refine ⟨iff_of_false hdropped fun h => ?_, hcreated⟩
    have hsome : d.handle = some d' := hstep
    simp [handle, h] at hsome

theorem phase_turn_owner (fails : ε → Bool) (d : Delivery ε) :
    ((d.turn fails .owner).phase = .dropped ↔ d.phase = .dropped ∨ d.phase = .created) ∧
      (d.turn fails .owner).phase ≠ .created := by
  by_cases hcreated : d.phase = .created
  · have hturn : d.turn fails .owner = d.abandon := by
      simp only [turn, step, if_pos hcreated, Option.getD_some]
    rw [hturn, abandon, release_eq]
    exact ⟨iff_of_true rfl (Or.inr hcreated), fun h => by cases h⟩
  · have hturn : d.turn fails .owner = d := by
      simp only [turn, step, if_neg hcreated, Option.getD_none]
    rw [hturn]
    exact ⟨(or_iff_left hcreated).symm, hcreated⟩

/-- Whether the handler is dropped is decided by the first turn of it or its owner. -/
theorem phase_play (turns : List Actor) : (d.play fails turns).phase = .dropped ↔
    d.phase = .dropped ∨ d.phase = .created ∧
      turns.find? (fun actor => actor = .handler ∨ actor = .owner) = some .owner := by
  induction turns generalizing d with
  | nil => simp [play]
  | cons actor turns ih =>
    rw [play, List.foldl_cons, ← play, ih]
    cases actor with
    | handler =>
      obtain ⟨hdropped, hcreated⟩ := phase_turn_handler fails d
      simp [hdropped, hcreated]
    | owner =>
      obtain ⟨hdropped, hcreated⟩ := phase_turn_owner fails d
      simp [hdropped, hcreated]
    | producer index =>
      have hphase : (d.turn fails (.producer index)).phase = d.phase := phase_turn nofun nofun
      simp [hphase]
    | hook index =>
      have hphase : (d.turn fails (.hook index)).phase = d.phase := phase_turn nofun nofun
      simp [hphase]

end Runs

/-! ## Deliveries -/

/-- What is so of a delivery of events after some turns. -/
structure Delivers (fails : ε → Bool) (events : Multiset ε) (d : Delivery ε) : Prop where
  /-- No hook is started but for an event, and none twice. -/
  started_le : (d.started : Multiset ε) ≤ events
  /-- Where a hook fails it does not end normally. -/
  finished_le : (d.finished : Multiset ε) ≤ (d.started : Multiset ε).filter (fails · = false)
  /-- When the handler stops, all hooks were started, and have ended normally unless they fail. -/
  complete : d.phase = .stopped → (d.started : Multiset ε) = events ∧
    (d.finished : Multiset ε) = events.filter (fails · = false)
  /-- As long as there are producers one of them or the handler can go on. -/
  progress : d.producing = true →
    (∃ index, (d.step fails (.producer index)).isSome = true) ∨
      (d.step fails .handler).isSome = true
  /-- Without producers the handler gets to its end. -/
  ending : d.producing = false → d.phase ≠ .dropped →
    ∃ turns : List Actor, (∀ actor ∈ turns, actor = .handler ∨ ∃ index, actor = .hook index) ∧
      (d.play fails turns).phase = .stopped
  /-- No run is longer than the work that is left. -/
  bounded : ∀ actors d', d.follow? fails actors = some d' → actors.length ≤ d.work
  /-- A handler that is dropped handles nothing, and nobody waits for it. -/
  dropped : d.phase = .dropped → d.started = [] ∧ d.finished = [] ∧
    ∀ index event rest, d.producers[index]? = some (some (event :: rest)) →
      d.step fails (.producer index) = some { d with producers := d.producers.set index (some rest) }

theorem Known.delivers {events : Multiset ε} (h : Known fails events d) : Delivers fails events d where
  started_le := h.started_le
  finished_le := by
    rw [← h.accounted.ended]
    exact Multiset.le_add_right _ _
  complete := h.complete
  progress := h.phased.step_of_producing
  ending := h.phased.exists_ending
  bounded actors d' hfollow := le_trans (Nat.le_add_right _ _) (length_add_work_le hfollow)
  dropped hdropped := by
    obtain ⟨-, hstarted, hfinished⟩ := h.phased.idle (Or.inr hdropped)
    have hdeaf : d.channel.receiverOpen = false :=
      Bool.eq_false_iff.mpr fun hlistening => h.phased.listening.mp hlistening hdropped
    exact ⟨hstarted, hfinished, fun _ _ _ => produce_of_deaf hdeaf⟩

/-- **Every event is handled once**, whatever the order of the turns, as long as the handler is not
dropped; it is dropped if its owner has the first turn of the two. -/
theorem handles_every_event (fails : ε → Bool) (producers : List (List ε)) (buffer : Nat)
    (dropped : Bool) (turns : List Actor) :
    Delivers fails (producers.flatten : List ε) ((start producers buffer dropped).play fails turns) ∧
      (((start producers buffer dropped).play fails turns).phase = .dropped ↔ dropped = true ∨
        turns.find? (fun actor => actor = .handler ∨ actor = .owner) = some .owner) := by
  refine ⟨((known_start fails producers buffer dropped).play turns).delivers, ?_⟩
  rw [phase_play]
  cases dropped with
  | false => simp [start]
  | true => simp [start, abandon, release_eq]

/-! ## The order of preference -/

/-- The steps of a run are turns of others than the owner, and with enough of them nobody who is
asked can go on. -/
theorem exists_turns_steps (fails : ε → Bool) (n : Nat) (d : Delivery ε) :
    (∃ turns, .owner ∉ turns ∧ d.steps fails n = d.play fails turns) ∧
      (d.work ≤ n →
        ∀ actor ∈ (d.steps fails n).actors, (d.steps fails n).step fails actor = none) := by
  induction n generalizing d with
  | zero =>
    refine ⟨⟨[], nofun, rfl⟩, fun hwork actor _ => ?_⟩
    cases hstep : d.step fails actor with
    | none => exact hstep
    | some d' =>
      have hlt := (moves_of_step hstep).work_lt
      omega
  | succ n ih =>
    cases hfind : d.actors.findSome? (d.step fails) with
    | none =>
      have hsteps : d.steps fails (n + 1) = d := by rw [steps, hfind]
      rw [hsteps]
      exact ⟨⟨[], nofun, rfl⟩, fun _ actor hactor => List.findSome?_eq_none_iff.mp hfind actor hactor⟩
    | some d' =>
      have hsteps : d.steps fails (n + 1) = d'.steps fails n := by rw [steps, hfind]
      obtain ⟨actor, hactor, hstep⟩ := List.exists_of_findSome?_eq_some hfind
      obtain ⟨⟨turns, howner, hturns⟩, hstuck⟩ := ih d'
      have hlt := (moves_of_step hstep).work_lt
      have hne : Actor.owner ≠ actor := by
        rintro rfl
        simp [actors] at hactor
      rw [hsteps]
      refine ⟨⟨actor :: turns, List.not_mem_cons_of_ne_of_not_mem hne howner, ?_⟩,
        fun hwork => hstuck (by omega)⟩
      rw [hturns, play, play, List.foldl_cons, turn, hstep, Option.getD_some]

theorem lt_length_of_produce {index : Nat} (h : (d.produce index).isSome = true) :
    index < d.producers.length := by
  by_contra hle
  simp [produce, List.getElem?_eq_none (Nat.not_lt.mp hle)] at h

theorem lt_length_of_advance {index : Nat} (h : (d.advance fails index).isSome = true) :
    index < d.hooks.length := by
  by_contra hle
  simp [advance, List.getElem?_eq_none (Nat.not_lt.mp hle)] at h

/-- **A run in the order of preference gets to the end of the handler**, so it handles every event. -/
theorem stopped_run (fails : ε → Bool) (producers : List (List ε)) (buffer : Nat) :
    ((start producers buffer false).run fails).phase = .stopped ∧
      (((start producers buffer false).run fails).started : Multiset ε) = producers.flatten ∧
      (((start producers buffer false).run fails).finished : Multiset ε) =
        (producers.flatten.filter fun event => fails event = false : List ε) := by
  obtain ⟨⟨turns, howner, hturns⟩, hstuck⟩ :=
    exists_turns_steps fails (start producers buffer false).work (start producers buffer false)
  set d := (start producers buffer false).run fails
  replace hstuck : ∀ actor ∈ d.actors, d.step fails actor = none := hstuck le_rfl
  replace hturns : d = (start producers buffer false).play fails turns := hturns
  have known : Known fails (producers.flatten : List ε) d :=
    hturns ▸ (known_start fails producers buffer false).play turns
  have hdropped : d.phase ≠ .dropped := by
    rw [hturns]
    intro hphase
    obtain hphase | ⟨-, hfind⟩ := (phase_play turns).mp hphase
    · cases hphase
    · exact howner (List.mem_of_find?_eq_some hfind)
  have hhandler : ¬ d.handle.isSome = true := by
    rw [show d.handle = none from hstuck .handler (by simp [actors])]
    nofun
  have hended : d.producing = false := by
    refine Bool.eq_false_iff.mpr fun hlive => ?_
    obtain ⟨index, hproduce⟩ := (known.phased.step_of_producing hlive).resolve_right hhandler
    rw [show d.produce index = none from
      hstuck (.producer index) (by simp [actors, lt_length_of_produce hproduce])] at hproduce
    cases hproduce
  have hstopped : d.phase = .stopped := by
    by_contra hphase
    have hhook : (d.advance fails 0).isSome = true :=
      (known.phased.step_of_not_producing hended hphase hdropped).resolve_left hhandler
    rw [show d.advance fails 0 = none from
      hstuck (.hook 0) (by simp [actors, lt_length_of_advance hhook])] at hhook
    cases hhook
  exact ⟨hstopped, known.complete hstopped⟩

/-- The hook fails on one of three events, and a channel without room has room for one. -/
example : ((start [[1, 2], [3]] 0 false).run fun event => event = 2).finished = [1, 3] := by decide

end Delivery

end CardHolds
