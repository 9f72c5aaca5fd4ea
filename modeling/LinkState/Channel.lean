/-!
# Channels

A queue of messages towards another party. The other party may take any number of messages, or only
some more before it is gone; a channel without room refuses.
-/

namespace LinkState

/-- A queue of messages, the oldest first. -/
structure Channel (α : Type u) where
  queue : List α
  /-- How many more messages the receiver takes; any number if none is given. -/
  room : Option Nat
deriving DecidableEq, Repr

namespace Channel

variable {α : Type u}

/-- An empty channel whose receiver takes any number of messages. -/
def empty : Channel α := ⟨[], none⟩

instance : Inhabited (Channel α) := ⟨empty⟩

/-- Puts a message at the end of the queue, if the receiver still takes one. -/
def send? (channel : Channel α) (message : α) : Option (Channel α) :=
  match channel.room with
  | none => some { channel with queue := channel.queue ++ [message] }
  | some 0 => none
  | some (room + 1) => some ⟨channel.queue ++ [message], some room⟩

/-- Sends a message whose loss does not matter. -/
def offer (channel : Channel α) (message : α) : Channel α :=
  (channel.send? message).getD channel

/-- The receiver is gone, and with it the messages that it has not taken. -/
def close (_channel : Channel α) : Channel α := ⟨[], some 0⟩

/-- The receiver takes all messages. -/
def drained (channel : Channel α) : Channel α := { channel with queue := [] }

end Channel

end LinkState
