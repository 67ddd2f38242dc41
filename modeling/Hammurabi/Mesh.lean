/-
This file is the mesh: the append-only feed every component posts to.

A post takes three atomic steps. It takes its sequence number from a counter, pushes
the line to the log under the write lock, which also trims the log, and sends the
line to the live subscribers. The live channel is a ring: a subscriber that lags
more than its capacity behind loses the oldest lines it has not received.
-/

import Hammurabi.Library.Runs

namespace Hammurabi

/-! ### Lines -/

/-- The operations channel. -/
def opsChannel : String := "#handoff-ops"

/-- Capacity of the live broadcast ring. -/
@[irreducible] def liveCapacity : Nat := 256

/-- Cap on the retained log. -/
@[irreducible] def maxLogLen : Nat := 2000

/-- Classification of a line. -/
inductive MeshEventKind where
  | intent
  | restriction
  | payment
  | credential
  | settlement
  | info
  deriving DecidableEq, Repr

/-- One line in the feed. -/
structure MeshMessage where
  seq : UInt64
  channel : String
  sender : String
  kind : MeshEventKind
  body : String
  at_ : String
  deriving DecidableEq, Repr

/-- A line as a classic chat line, its number right-aligned in four columns. -/
def MeshMessage.render (message : MeshMessage) : String :=
  let number := toString message.seq.toNat
  let padding := String.ofList (List.replicate (4 - number.length) ' ')
  s!"[{padding}{number}] <{message.sender}> {message.body}"

/-! ### The bus -/

/-- A live subscriber: the lines waiting for it in the ring, and the lines it has received. -/
structure Receiver where
  waiting : List MeshMessage
  received : List MeshMessage
  deriving DecidableEq, Repr

/-- A sent line waits for the subscriber; the oldest one is lost when the ring is full. -/
def Receiver.deliver (receiver : Receiver) (message : MeshMessage) : Receiver :=
  let waiting := receiver.waiting ++ [message]
  { receiver with waiting := waiting.drop (waiting.length - liveCapacity) }

/-- The subscriber receives the oldest line that waits for it. -/
def Receiver.recv (receiver : Receiver) : Receiver :=
  match receiver.waiting with
  | [] => receiver
  | message :: waiting => ⟨waiting, receiver.received ++ [message]⟩

/-- The bus: the counter, the log and the live subscribers. -/
structure MeshBus where
  seq : UInt64
  log : List MeshMessage
  live : List Receiver
  deriving DecidableEq, Repr

namespace MeshBus

def new : MeshBus := ⟨0, [], []⟩

/-- First step of a post: the line, under the next sequence number. -/
def next (bus : MeshBus) (sender : String) (kind : MeshEventKind) (body at_ : String) :
    MeshMessage × MeshBus :=
  ({ seq := bus.seq, channel := opsChannel, sender, kind, body, at_ },
    { bus with seq := bus.seq + 1 })

/-- How many lines a log that has just grown is over its cap. -/
def excess (log : List MeshMessage) : Nat := log.length - maxLogLen

/-- Second step: push the line, and trim the log. -/
def push (bus : MeshBus) (message : MeshMessage) : MeshBus :=
  let log := bus.log ++ [message]
  { bus with log := log.drop (excess log) }

/-- The lines that a push evicts. -/
def evictedBy (bus : MeshBus) (message : MeshMessage) : List MeshMessage :=
  let log := bus.log ++ [message]
  log.take (excess log)

/-- Third step: send the line to the live subscribers. -/
def send (bus : MeshBus) (message : MeshMessage) : MeshBus :=
  { bus with live := bus.live.map fun receiver => receiver.deliver message }

/-- A whole post, with nothing in between. -/
def post (bus : MeshBus) (sender : String) (kind : MeshEventKind) (body at_ : String) :
    MeshMessage × MeshBus :=
  let (message, bus) := bus.next sender kind body at_
  (message, (bus.push message).send message)

/-- Snapshot of the whole feed. -/
def feed (bus : MeshBus) : List MeshMessage := bus.log

/-- A new live subscriber. -/
def subscribe (bus : MeshBus) : MeshBus := { bus with live := bus.live ++ [⟨[], []⟩] }

/-- The feed rendered line by line. -/
def transcript (bus : MeshBus) : String :=
  "\n".intercalate (bus.feed.map MeshMessage.render)

/-- A push loses nothing: what it evicts and what it keeps is the log with the new line. -/
theorem evictedBy_append_push (bus : MeshBus) (message : MeshMessage) :
    bus.evictedBy message ++ (bus.push message).log = bus.log ++ [message] :=
  List.take_append_drop _ _

theorem length_push (bus : MeshBus) (message : MeshMessage) :
    (bus.push message).log.length ≤ maxLogLen := by
  simp only [push, excess, List.length_drop]
  omega

/-- A line that is pushed is in the log. -/
theorem mem_push (bus : MeshBus) (message : MeshMessage) : message ∈ (bus.push message).log := by
  have cap : 0 < maxLogLen := by simp [maxLogLen]
  have kept : excess (bus.log ++ [message]) ≤ bus.log.length := by
    rw [excess, List.length_append, List.length_singleton]
    omega
  change message ∈ List.drop (excess (bus.log ++ [message])) (bus.log ++ [message])
  rw [List.drop_append_of_le_length kept]
  exact List.mem_append_right _ (List.mem_singleton_self message)

/-- A log under its cap takes the line and evicts none. -/
theorem push_log_of_room (bus : MeshBus) (message : MeshMessage)
    (room : bus.log.length < maxLogLen) : (bus.push message).log = bus.log ++ [message] := by
  have within : excess (bus.log ++ [message]) = 0 := by
    rw [excess, List.length_append, List.length_singleton]
    omega
  change List.drop (excess (bus.log ++ [message])) (bus.log ++ [message]) = _
  rw [within, List.drop_zero]

end MeshBus

end Hammurabi
