/-!
# Bounded channels

A channel carries messages in order from one side to the other and holds at most `capacity` of them.
Either side may end: a message cannot be sent when nobody receives, and once nobody sends, what is
queued can still be received.  `send` and `receive` tell apart what they did from the two reasons
for which they could not: the other side has ended, or has to act first.
-/

namespace CardHolds

/-- A channel with its queue, oldest message first. -/
structure Channel (α : Type) where
  capacity : Nat
  queue : List α := []
  /-- Whether the sending side can still send. -/
  senderOpen : Bool := true
  /-- Whether the receiving side still takes messages. -/
  receiverOpen : Bool := true
deriving DecidableEq

namespace Channel

variable {α : Type}

/-- An empty channel; it holds at least one message. -/
def ofCapacity (capacity : Nat) : Channel α where
  capacity := max 1 capacity

/-- What became of a message that was to be sent. -/
inductive Sent (α : Type) where
  | sent (channel : Channel α)
  /-- Nobody receives any more. -/
  | gone
  /-- The channel is full. -/
  | full

/-- What an attempt to receive yields. -/
inductive Received (α : Type) where
  | message (value : α) (channel : Channel α)
  /-- The queue is empty and nobody sends any more. -/
  | ended
  /-- The queue is empty. -/
  | empty

/-- Puts a message at the end of the queue. -/
def send (c : Channel α) (value : α) : Sent α :=
  if !c.receiverOpen then .gone
  else if c.queue.length < c.capacity then .sent { c with queue := c.queue ++ [value] }
  else .full

/-- Takes the message at the front of the queue. -/
def receive (c : Channel α) : Received α :=
  match c.queue with
  | value :: rest => .message value { c with queue := rest }
  | [] => if c.senderOpen then .empty else .ended

/-- The sending side ends. -/
def closeSender (c : Channel α) : Channel α :=
  { c with senderOpen := false }

/-- The receiving side ends; what is queued is lost. -/
def closeReceiver (c : Channel α) : Channel α :=
  { c with receiverOpen := false, queue := [] }

end Channel

end CardHolds
