import CardHolds.Statement.Channel

/-!
# Delivery of events

Several producers publish their events into one bounded channel and are dropped when they have
published all of them.  The handler takes events off the channel and sets up a hook for each; hooks
run on their own and end at any time, some of them abnormally, which does not touch the others.
After each event the handler joins the hooks that have ended.  Once the channel is empty and nobody can
send any more it waits for the hooks that are left.

The handler has a sender of its own, from which those of the producers come, and gives it up when it
starts; otherwise the channel would never end.  A handler that is dropped instead of started takes
nothing, and every publication returns at once.

`Delivery.step` is one step of one actor, or none when it cannot take one; `Delivery.run` lets the
actors act in a fixed order of preference until nobody can.
-/

namespace CardHolds

/-- How far a hook has come. -/
inductive HookStage where
  /-- Set up, but not started. -/
  | waiting
  | running
  | ended
deriving DecidableEq

/-- The hook of one event. -/
structure Hook (ε : Type) where
  event : ε
  stage : HookStage

namespace Hook

/-- Whether a hook can be joined. -/
def isEnded {ε : Type} (hook : Hook ε) : Bool := hook.stage = .ended

/-- The steps of a hook that are left: it starts, ends and is joined. -/
def work {ε : Type} (hook : Hook ε) : Nat :=
  match hook.stage with
  | .waiting => 3
  | .running => 2
  | .ended => 1

end Hook

/-- What the handler is doing. -/
inductive HandlerPhase where
  /-- Not yet started. -/
  | created
  /-- Waiting for the next event. -/
  | receiving
  /-- Joining the hooks that have ended, before the next event. -/
  | reaping
  /-- Waiting for the hooks that are left. -/
  | joining
  | stopped
  /-- Dropped instead of started. -/
  | dropped
deriving DecidableEq

/-- The steps of a handler that are left without events and hooks. -/
def HandlerPhase.work : HandlerPhase → Nat
  | created => 3
  | receiving => 2
  | reaping => 3
  | joining => 1
  | stopped => 0
  | dropped => 0

/-- Producers, channel, handler and hooks for events of type `ε`. -/
structure Delivery (ε : Type) where
  /-- What each producer has yet to publish, and nothing if it was dropped. -/
  producers : List (Option (List ε))
  channel : Channel ε
  phase : HandlerPhase := .created
  /-- The hooks that the handler has yet to join. -/
  hooks : List (Hook ε) := []
  /-- The events whose hooks have been started, in this order. -/
  started : List ε := []
  /-- The events whose hooks have ended normally, in this order. -/
  finished : List ε := []

namespace Delivery

variable {ε : Type}

/-- Who can take a step. -/
inductive Actor where
  | producer (index : Nat)
  | handler
  /-- The hook at this place among those that are not joined. -/
  | hook (index : Nat)
  /-- The owner of a handler that is not started drops it. -/
  | owner
deriving DecidableEq

/-! ## Steps -/

/-- Whether some producer has not been dropped. -/
def producing (d : Delivery ε) : Bool :=
  d.producers.any Option.isSome

/-- Whether anybody has a sender: a producer, or a handler that is not started. -/
def senderHeld (d : Delivery ε) : Bool :=
  d.phase = .created || d.producing

/-- Once nobody has a sender the channel is closed for sending. -/
def release (d : Delivery ε) : Delivery ε :=
  if d.senderHeld then d else { d with channel := d.channel.closeSender }

/-- A producer publishes its next event, unless the channel is full; after the last one it is
dropped. -/
def produce (d : Delivery ε) (index : Nat) : Option (Delivery ε) :=
  match d.producers[index]? with
  | some (some (event :: rest)) =>
    match d.channel.send event with
    | .sent channel =>
      some { d with producers := d.producers.set index (some rest), channel := channel }
    | .gone => some { d with producers := d.producers.set index (some rest) }
    | .full => none
  | some (some []) => some (release { d with producers := d.producers.set index none })
  | some none => none
  | none => none

/-- The handler starts, sets up the hook of the next event, joins a hook, or gets on to its end. -/
def handle (d : Delivery ε) : Option (Delivery ε) :=
  match d.phase with
  | .created => some (release { d with phase := .receiving })
  | .receiving =>
    match d.channel.receive with
    | .message event channel =>
      some { d with
        channel := channel
        hooks := d.hooks ++ [⟨event, .waiting⟩]
        phase := .reaping }
    | .ended => some { d with phase := .joining }
    | .empty => none
  | .reaping =>
    if d.hooks.any Hook.isEnded then some { d with hooks := d.hooks.eraseP Hook.isEnded }
    else some { d with phase := .receiving }
  | .joining =>
    if d.hooks.any Hook.isEnded then some { d with hooks := d.hooks.eraseP Hook.isEnded }
    else if d.hooks.isEmpty then some { d with phase := .stopped }
    else none
  | .stopped => none
  | .dropped => none

/-- A hook starts, or ends: normally, unless it fails on its event. -/
def advance (fails : ε → Bool) (d : Delivery ε) (index : Nat) : Option (Delivery ε) :=
  match d.hooks[index]? with
  | some ⟨event, .waiting⟩ =>
    some { d with
      hooks := d.hooks.set index ⟨event, .running⟩
      started := d.started ++ [event] }
  | some ⟨event, .running⟩ =>
    some { d with
      hooks := d.hooks.set index ⟨event, .ended⟩
      finished := if fails event then d.finished else d.finished ++ [event] }
  | some ⟨_, .ended⟩ => none
  | none => none

/-- The handler is dropped, with its sender and all that is queued. -/
def abandon (d : Delivery ε) : Delivery ε :=
  release { d with phase := .dropped, channel := d.channel.closeReceiver }

/-- One step of an actor, if it can take one. -/
def step (fails : ε → Bool) (d : Delivery ε) : Actor → Option (Delivery ε)
  | .producer index => d.produce index
  | .handler => d.handle
  | .hook index => d.advance fails index
  | .owner => if d.phase = .created then some d.abandon else none

/-! ## Runs -/

/-- A delivery before its first step.  The channel holds at least one event. -/
def start (producers : List (List ε)) (buffer : Nat) (dropped : Bool) : Delivery ε :=
  let created : Delivery ε := { producers := producers.map some, channel := .ofCapacity buffer }
  if dropped then created.abandon else created

/-- The actors in order of preference.  A handler that was not dropped at the beginning is started. -/
def actors (d : Delivery ε) : List Actor :=
  (List.range d.producers.length).map .producer ++ [.handler] ++
    (List.range d.hooks.length).map .hook

/-- At most `n` steps, each of the first actor that can take one. -/
def steps (fails : ε → Bool) : Nat → Delivery ε → Delivery ε
  | 0, d => d
  | n + 1, d =>
    match d.actors.findSome? (d.step fails) with
    | some d' => steps fails n d'
    | none => d

/-- The steps that a producer can take and cause: an event is published and taken, the handler gets
ready for the next one, and the hook starts, ends and is joined. -/
def producerWork : Option (List ε) → Nat
  | some events => 6 * events.length + 1
  | none => 0

/-- The work of all members of a list. -/
def workOf {α : Type} (work : α → Nat) : List α → Nat
  | [] => 0
  | member :: rest => work member + workOf work rest

/-- All steps that are still possible, or more. -/
def work (d : Delivery ε) : Nat :=
  workOf producerWork d.producers + 5 * d.channel.queue.length + workOf Hook.work d.hooks +
    d.phase.work

/-- Lets the actors act until nobody can. -/
def run (fails : ε → Bool) (d : Delivery ε) : Delivery ε :=
  steps fails d.work d

end Delivery

end CardHolds
