/-
This file is a broadcast channel of a bounded capacity, read at the reader's own pace.

A reader is a position in the sequence of all that was ever sent. The channel holds the
last messages only, as many as its capacity: a reader further behind than that is told by
how many it lags, and stands at the oldest message held. So whatever the pace, the reads
account for every message up to the reader's position: each one was got in its turn, or
was among those that a lag passed over, and the lags say how many these are.
-/

import Mathlib.Algebra.Ring.Nat

namespace Broadcast

variable {Message : Type}

/-! ### Reading -/

/-- What one read of the channel gives. -/
inductive Read (Message : Type) where
  | message (message : Message)
  | lagged (skipped : Nat)
  deriving DecidableEq, Repr

/-- Read at a position: how many messages are lost if it is too far behind, else the message at the
position; nothing when there is none yet. -/
def recv (capacity : Nat) (sent : List Message) (position : Nat) :
    Option (Read Message × Nat) :=
  if capacity < sent.length - position then
    some (.lagged (sent.length - capacity - position), sent.length - capacity)
  else sent[position]?.map fun message => (.message message, position + 1)

/-- The messages that some reads give. -/
def got (reads : List (Read Message)) : List Message :=
  reads.filterMap fun read =>
    match read with
    | .message message => some message
    | .lagged _ => none

/-- How many messages some reads say are lost. -/
def lost (reads : List (Read Message)) : Nat :=
  (reads.map fun read =>
    match read with
    | .message _ => 0
    | .lagged skipped => skipped).sum

theorem got_append (front back : List (Read Message)) :
    got (front ++ back) = got front ++ got back := List.filterMap_append

theorem lost_append (front back : List (Read Message)) :
    lost (front ++ back) = lost front + lost back := by
  rw [lost, List.map_append, List.sum_append]
  rfl

/-! ### What the reads account for -/

/-- The reads account for the messages up to a position: every message was got in its turn, or was
passed over by a lag, which says how many were. -/
inductive Accounts (sent : List Message) :
    List (Read Message) → List Message → Nat → Prop where
  | start : Accounts sent [] [] 0
  | message {reads : List (Read Message)} {skipped : List Message} {position : Nat}
      (message : Message) (earlier : Accounts sent reads skipped position)
      (here : sent[position]? = some message) :
      Accounts sent (reads ++ [.message message]) skipped (position + 1)
  | lagged {reads : List (Read Message)} {skipped : List Message} {position : Nat}
      (gap : List Message) (earlier : Accounts sent reads skipped position) (some : gap ≠ [])
      (here : gap = (sent.drop position).take gap.length) :
      Accounts sent (reads ++ [.lagged gap.length]) (skipped ++ gap) (position + gap.length)

namespace Accounts

variable {sent : List Message} {reads : List (Read Message)} {skipped : List Message}
  {position : Nat}

/-- The position is one in the channel. -/
theorem position_le (accounts : Accounts sent reads skipped position) :
    position ≤ sent.length := by
  induction accounts with
  | start => exact Nat.zero_le _
  | message message earlier here inductionHypothesis =>
    exact (List.getElem?_eq_some_iff.mp here).1
  | @lagged _ _ position gap earlier some here inductionHypothesis =>
    have length := congrArg List.length here
    rw [List.length_take, List.length_drop] at length
    omega

/-- More messages sent change nothing of what the reads account for. -/
theorem append (accounts : Accounts sent reads skipped position) (more : List Message) :
    Accounts (sent ++ more) reads skipped position := by
  induction accounts with
  | start => exact .start
  | message message earlier here inductionHypothesis =>
    refine .message message inductionHypothesis ?_
    rw [List.getElem?_append_left (List.getElem?_eq_some_iff.mp here).1, here]
  | @lagged _ _ position gap earlier some here inductionHypothesis =>
    have length := congrArg List.length here
    rw [List.length_take, List.length_drop] at length
    refine .lagged gap inductionHypothesis some ?_
    rw [List.drop_append_of_le_length earlier.position_le, List.take_append_of_le_length]
    · exact here
    · rw [List.length_drop]
      omega

/-- One more read accounts for what it moves past: nothing but its message, or a gap. -/
theorem recv (accounts : Accounts sent reads skipped position) (capacity next : Nat)
    (read : Read Message) (received : Broadcast.recv capacity sent position = some (read, next)) :
    ∃ gap, Accounts sent (reads ++ [read]) (skipped ++ gap) next := by
  rw [Broadcast.recv] at received
  split at received
  · rename_i behind
    cases received
    have length : ((sent.drop position).take (sent.length - capacity - position)).length =
        sent.length - capacity - position := by
      rw [List.length_take, List.length_drop]
      omega
    have reached : position + (sent.length - capacity - position) = sent.length - capacity := by
      omega
    refine ⟨(sent.drop position).take (sent.length - capacity - position), ?_⟩
    have moved := accounts.lagged ((sent.drop position).take (sent.length - capacity - position))
      (List.ne_nil_of_length_pos (by omega)) (by rw [length])
    rwa [length, reached] at moved
  · obtain ⟨message, here, same⟩ := Option.map_eq_some_iff.mp received
    cases same
    refine ⟨[], ?_⟩
    rw [List.append_nil]
    exact accounts.message message here

/-- What was got and what was passed over is together all up to the position. -/
theorem perm (accounts : Accounts sent reads skipped position) :
    (sent.take position).Perm (got reads ++ skipped) := by
  induction accounts with
  | start => exact .nil
  | @message reads skipped position message earlier here inductionHypothesis =>
    rw [List.take_add_one, here, got_append]
    refine (inductionHypothesis.append_right _).trans ?_
    rw [List.append_assoc, List.append_assoc]
    exact List.perm_append_comm.append_left _
  | @lagged reads skipped position gap earlier some here inductionHypothesis =>
    have none : got ([.lagged gap.length] : List (Read Message)) = [] := rfl
    rw [List.take_add, ← here, got_append, none, List.append_nil, ← List.append_assoc]
    exact inductionHypothesis.append_right gap

/-- What was got is in the order of the sends. -/
theorem sublist (accounts : Accounts sent reads skipped position) :
    (got reads).Sublist (sent.take position) := by
  induction accounts with
  | start => exact .slnil
  | @message reads skipped position message earlier here inductionHypothesis =>
    rw [List.take_add_one, here, got_append]
    exact inductionHypothesis.append (.refl _)
  | @lagged reads skipped position gap earlier some here inductionHypothesis =>
    rw [List.take_add, got_append]
    exact inductionHypothesis.append (List.nil_sublist _)

/-- The lags say how many messages were passed over. -/
theorem lost_eq (accounts : Accounts sent reads skipped position) :
    lost reads = skipped.length := by
  induction accounts with
  | start => rfl
  | message message earlier here inductionHypothesis =>
    rw [lost_append, inductionHypothesis]
    rfl
  | lagged gap earlier some here inductionHypothesis =>
    rw [lost_append, inductionHypothesis, List.length_append]
    rfl

/-- A message up to the position was got or passed over. -/
theorem got_or_skipped (accounts : Accounts sent reads skipped position) (message : Message)
    (before : message ∈ sent.take position) : message ∈ got reads ∨ message ∈ skipped :=
  List.mem_append.mp (accounts.perm.mem_iff.mp before)

end Accounts

/-! ### The ring -/

/-- What the channel still holds for a reader at a position. -/
def held (capacity : Nat) (sent : List Message) (position : Nat) : List Message :=
  sent.drop (max position (sent.length - capacity))

/-- Reading a message takes the oldest one held; a lag takes none. -/
theorem held_recv (capacity : Nat) (sent : List Message) (position next : Nat)
    (read : Read Message) (received : recv capacity sent position = some (read, next)) :
    held capacity sent position = got [read] ++ held capacity sent next := by
  rw [recv] at received
  split at received
  · rename_i behind
    cases received
    have same : max position (sent.length - capacity) =
        max (sent.length - capacity) (sent.length - capacity) := by omega
    rw [held, held, same]
    rfl
  · rename_i close
    obtain ⟨message, here, same⟩ := Option.map_eq_some_iff.mp received
    cases same
    obtain ⟨inside, rfl⟩ := List.getElem?_eq_some_iff.mp here
    have first : max position (sent.length - capacity) = position := by omega
    have second : max (position + 1) (sent.length - capacity) = position + 1 := by omega
    rw [held, held, first, second, List.drop_eq_getElem_cons inside]
    rfl

end Broadcast
