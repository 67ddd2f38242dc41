/-
This file is about the order of the feed when posts run concurrently.

The sequence number is taken before the lock that orders the log, and the line is
sent after it, so the three orders can come apart: two posts may push, or send, in
the other order than they took their numbers. They do not come apart in a run in
which posts push in turn, and send in turn as long as someone listens, each one only
when no post with a smaller number still has to. In such a run the log, the evicted
lines before it and what a subscriber hears are all sorted by number.
-/

import Mathlib.Algebra.Ring.Nat
import Mathlib.Data.List.Perm.Basic
import Hammurabi.Mesh

namespace Hammurabi

open Runs

/-! ### Concurrent posts -/

/-- A bus with posts under way: those that have their number and have yet to push, and those that
have pushed and have yet to send. The evicted lines and the number of posts are kept for the
statements; no step reads them. -/
structure FeedRun where
  bus : MeshBus
  toPush : List MeshMessage
  toSend : List MeshMessage
  evicted : List MeshMessage
  taken : Nat
  deriving DecidableEq, Repr

inductive FeedAction where
  | next (sender : String) (kind : MeshEventKind) (body at_ : String)
  | push (message : MeshMessage)
  | send (message : MeshMessage)
  | subscribe
  | recv (index : Nat)
  | unsubscribe (index : Nat)

namespace FeedRun

def start : FeedRun := ⟨.new, [], [], [], 0⟩

/-- One atomic step of some post or some subscriber. -/
def step (run : FeedRun) : FeedAction → Option FeedRun
  | .next sender kind body at_ =>
    let (message, bus) := run.bus.next sender kind body at_
    some { run with bus, toPush := run.toPush ++ [message], taken := run.taken + 1 }
  | .push message =>
    if message ∈ run.toPush then some { run with
      bus := run.bus.push message
      toPush := run.toPush.erase message
      toSend := run.toSend ++ [message]
      evicted := run.evicted ++ run.bus.evictedBy message }
    else none
  | .send message =>
    if message ∈ run.toSend then some { run with
      bus := run.bus.send message
      toSend := run.toSend.erase message }
    else none
  | .subscribe => some { run with bus := run.bus.subscribe }
  | .recv index =>
    some { run with bus := { run.bus with live := run.bus.live.modify index Receiver.recv } }
  | .unsubscribe index =>
    some { run with bus := { run.bus with live := run.bus.live.eraseIdx index } }

/-- The posts that have their number and have yet to send. -/
def unsent (run : FeedRun) : List MeshMessage := run.toPush ++ run.toSend

/-- All the lines pushed so far, in the order of the pushes. -/
def pushed (run : FeedRun) : List MeshMessage := run.evicted ++ run.bus.log

end FeedRun

/-- A line has a smaller number than another. -/
def Before (line other : MeshMessage) : Prop := line.seq < other.seq

instance : DecidableRel Before := fun line other =>
  inferInstanceAs (Decidable (line.seq < other.seq))

/-- What the feed promises: a snapshot is sorted by number, every evicted line comes before every
retained one, and every live subscriber has received its lines in order. -/
def FeedOrdered (run : FeedRun) : Prop :=
  run.bus.feed.Pairwise Before ∧
    (∀ old ∈ run.evicted, ∀ line ∈ run.bus.feed, Before old line) ∧
    ∀ receiver ∈ run.bus.live, receiver.received.Pairwise Before

/-- A step is taken in turn: the counter has not wrapped, no post with a smaller number still has
to push before a push, or to push or send before a send that someone listens to. -/
def InTurn (run : FeedRun) : FeedAction → Prop
  | .next _ _ _ _ => run.taken < 2 ^ 64
  | .push message => ∀ other ∈ run.toPush, ¬ Before other message
  | .send message => run.bus.live = [] ∨ ∀ other ∈ run.unsent, ¬ Before other message
  | _ => True

instance (run : FeedRun) (action : FeedAction) : Decidable (InTurn run action) :=
  match action with
  | .next _ _ _ _ => inferInstanceAs (Decidable (run.taken < 2 ^ 64))
  | .push message => inferInstanceAs (Decidable (∀ other ∈ run.toPush, ¬ Before other message))
  | .send message => inferInstanceAs
    (Decidable (run.bus.live = [] ∨ ∀ other ∈ run.unsent, ¬ Before other message))
  | .subscribe => .isTrue trivial
  | .recv _ => .isTrue trivial
  | .unsubscribe _ => .isTrue trivial

/-- A step of the feed, taken in turn. -/
def StepInTurn (before : FeedRun) (action : FeedAction) (after : FeedRun) : Prop :=
  before.step action = some after ∧ InTurn before action

/-! ### The invariant -/

/-- What a subscriber has heard of, received or not yet, is sorted, and comes before every line that
is still to be sent. -/
structure Heard (run : FeedRun) (receiver : Receiver) : Prop where
  sorted : (receiver.received ++ receiver.waiting).Pairwise Before
  early : ∀ line ∈ receiver.received ++ receiver.waiting, ∀ other ∈ run.unsent, Before line other
  below : ∀ line ∈ receiver.received ++ receiver.waiting, line.seq.toNat < run.taken

/-- The numbers of the posts under way are distinct; the pushed lines are sorted and come before
every line that is still to be pushed; and every number is below the counter. -/
structure Sorted (run : FeedRun) : Prop where
  counter : run.bus.seq = UInt64.ofNat run.taken
  distinct : (run.unsent.map MeshMessage.seq).Nodup
  unsentBelow : ∀ line ∈ run.unsent, line.seq.toNat < run.taken
  pushedBelow : ∀ line ∈ run.pushed, line.seq.toNat < run.taken
  sorted : run.pushed.Pairwise Before
  early : ∀ line ∈ run.pushed, ∀ other ∈ run.toPush, Before line other
  heard : ∀ receiver ∈ run.bus.live, Heard run receiver

theorem sorted_start : Sorted .start where
  counter := rfl
  distinct := List.nodup_nil
  unsentBelow _ member := nomatch member
  pushedBelow _ member := nomatch member
  sorted := .nil
  early _ member := nomatch member
  heard _ member := nomatch member

/-- A sorted run keeps the promises of the feed. -/
theorem Sorted.feedOrdered {run : FeedRun} (sorted : Sorted run) : FeedOrdered run := by
  obtain ⟨-, retained, between⟩ := List.pairwise_append.mp sorted.sorted
  refine ⟨retained, between, fun receiver live => ?_⟩
  exact (List.pairwise_append.mp (sorted.heard receiver live).sorted).1

/-! ### Taking one line out of turn -/

/-- Among lines with distinct numbers, one that no other is before is before every other. -/
theorem before_of_minimal (lines : List MeshMessage) (message : MeshMessage)
    (distinct : (lines.map MeshMessage.seq).Nodup) (inside : message ∈ lines)
    (minimal : ∀ other ∈ lines, ¬ Before other message) :
    ∀ other ∈ lines.erase message, Before message other := by
  intro other member
  have split := (List.perm_cons_erase inside).map MeshMessage.seq
  rw [split.nodup_iff, List.map_cons, List.nodup_cons] at distinct
  have different : message.seq ≠ other.seq := by
    intro same
    exact distinct.1 (same ▸ List.mem_map_of_mem member)
  have below := UInt64.not_lt.mp (minimal other (List.mem_of_mem_erase member))
  exact UInt64.lt_of_le_of_ne below different

/-- Pushing a line moves it from the one list of posts under way to the other. -/
theorem unsent_push (toPush toSend : List MeshMessage) (message : MeshMessage)
    (inside : message ∈ toPush) :
    (toPush.erase message ++ (toSend ++ [message])).Perm (toPush ++ toSend) := by
  rw [← List.append_assoc]
  refine (List.perm_append_singleton message _).trans ?_
  exact ((List.perm_cons_erase inside).symm.append_right toSend)

/-- Every line gets its number from the counter, so it comes after all the numbers given out. -/
theorem before_next (run : FeedRun) (sorted : Sorted run) (room : run.taken < 2 ^ 64)
    (line new : MeshMessage) (below : line.seq.toNat < run.taken) (number : new.seq = run.bus.seq) :
    Before line new := by
  rw [Before, number, sorted.counter, UInt64.lt_iff_toNat_lt, UInt64.toNat_ofNat_of_lt' room]
  exact below

/-! ### The steps -/

theorem sorted_next (run : FeedRun) (sorted : Sorted run) (room : run.taken < 2 ^ 64)
    (new : MeshMessage) (number : new.seq = run.bus.seq) :
    Sorted { run with
      bus := { run.bus with seq := run.bus.seq + 1 }
      toPush := run.toPush ++ [new]
      taken := run.taken + 1 } := by
  have value : new.seq.toNat = run.taken := by
    rw [number, sorted.counter, UInt64.toNat_ofNat_of_lt' room]
  have unsent : ∀ line, line ∈ run.toPush ++ [new] ++ run.toSend →
      line = new ∨ line ∈ run.unsent := by
    intro line member
    simp only [List.mem_append, List.mem_singleton] at member
    rw [FeedRun.unsent, List.mem_append]
    tauto
  have after := before_next run sorted room
  refine ⟨?_, ?_, ?_, ?_, sorted.sorted, ?_, ?_⟩
  · rw [sorted.counter, UInt64.ofNat_add]
    rfl
  · have fresh : new.seq ∉ run.unsent.map MeshMessage.seq := by
      intro member
      obtain ⟨line, inside, same⟩ := List.mem_map.mp member
      have below := sorted.unsentBelow line inside
      rw [same, value] at below
      omega
    have moved : (run.toPush ++ [new] ++ run.toSend).Perm (new :: run.unsent) := by
      rw [List.append_assoc]
      exact List.perm_middle
    rw [FeedRun.unsent, (moved.map MeshMessage.seq).nodup_iff, List.map_cons, List.nodup_cons]
    exact ⟨fresh, sorted.distinct⟩
  · intro line member
    rcases unsent line member with rfl | before
    · exact value ▸ Nat.lt_succ_self _
    · exact Nat.lt_succ_of_lt (sorted.unsentBelow line before)
  · exact fun line member => Nat.lt_succ_of_lt (sorted.pushedBelow line member)
  · intro line member other waits
    rcases List.mem_append.mp waits with before | last
    · exact sorted.early line member other before
    · rw [List.mem_singleton.mp last]
      exact after line new (sorted.pushedBelow line member) number
  · intro receiver live
    obtain ⟨order, early, below⟩ := sorted.heard receiver live
    refine ⟨order, fun line member other waits => ?_,
      fun line member => Nat.lt_succ_of_lt (below line member)⟩
    rcases unsent other waits with rfl | before
    · exact after line other (below line member) number
    · exact early line member other before

theorem sorted_push (run : FeedRun) (sorted : Sorted run) (message : MeshMessage)
    (inside : message ∈ run.toPush) (inTurn : ∀ other ∈ run.toPush, ¬ Before other message) :
    Sorted { run with
      bus := run.bus.push message
      toPush := run.toPush.erase message
      toSend := run.toSend ++ [message]
      evicted := run.evicted ++ run.bus.evictedBy message } := by
  have moved := unsent_push run.toPush run.toSend message inside
  have grown : run.evicted ++ run.bus.evictedBy message ++ (run.bus.push message).log =
      run.pushed ++ [message] := by
    rw [List.append_assoc, MeshBus.evictedBy_append_push, ← List.append_assoc, FeedRun.pushed]
  have distinctToPush : (run.toPush.map MeshMessage.seq).Nodup := by
    have distinct := sorted.distinct
    rw [FeedRun.unsent, List.map_append] at distinct
    exact (List.nodup_append.mp distinct).1
  have first := before_of_minimal run.toPush message distinctToPush inside inTurn
  have inUnsent : message ∈ run.unsent := List.mem_append_left _ inside
  refine ⟨sorted.counter, ?_, ?_, ?_, ?_, ?_, ?_⟩
  · exact (moved.map MeshMessage.seq).nodup_iff.mpr sorted.distinct
  · exact fun line member => sorted.unsentBelow line (moved.mem_iff.mp member)
  · intro line member
    rw [FeedRun.pushed, grown, List.mem_append, List.mem_singleton] at member
    rcases member with before | rfl
    · exact sorted.pushedBelow line before
    · exact sorted.unsentBelow line inUnsent
  · rw [FeedRun.pushed, grown, List.pairwise_append]
    refine ⟨sorted.sorted, List.pairwise_singleton _ _, fun line member other last => ?_⟩
    rw [List.mem_singleton.mp last]
    exact sorted.early line member message inside
  · intro line member other waits
    rw [FeedRun.pushed, grown, List.mem_append, List.mem_singleton] at member
    rcases member with before | rfl
    · exact sorted.early line before other (List.mem_of_mem_erase waits)
    · exact first other waits
  · intro receiver live
    obtain ⟨order, early, below⟩ := sorted.heard receiver live
    exact ⟨order, fun line member other waits => early line member other (moved.mem_iff.mp waits),
      below⟩

/-- What a subscriber hears of after a send: at most the line sent, after what it had heard of. -/
theorem deliver_sublist (receiver : Receiver) (message : MeshMessage) :
    ((receiver.deliver message).received ++ (receiver.deliver message).waiting).Sublist
      (receiver.received ++ receiver.waiting ++ [message]) := by
  rw [List.append_assoc]
  exact (List.Sublist.refl _).append (List.drop_sublist _ _)

theorem sorted_send (run : FeedRun) (sorted : Sorted run) (message : MeshMessage)
    (inside : message ∈ run.toSend)
    (inTurn : run.bus.live = [] ∨ ∀ other ∈ run.unsent, ¬ Before other message) :
    Sorted { run with bus := run.bus.send message, toSend := run.toSend.erase message } := by
  have kept : (run.toPush ++ run.toSend.erase message).Sublist run.unsent :=
    (List.Sublist.refl _).append List.erase_sublist
  refine ⟨sorted.counter, sorted.distinct.sublist (kept.map _),
    fun line member => sorted.unsentBelow line (kept.subset member), sorted.pushedBelow,
    sorted.sorted, sorted.early, fun receiver live => ?_⟩
  obtain ⟨earlier, wasLive, rfl⟩ := List.mem_map.mp live
  obtain ⟨order, early, below⟩ := sorted.heard earlier wasLive
  have inUnsent : message ∈ run.unsent := List.mem_append_right _ inside
  have minimal : ∀ other ∈ run.unsent, ¬ Before other message := by
    rcases inTurn with nobody | minimal
    · rw [nobody] at wasLive
      cases wasLive
    · exact minimal
  have rest : ∀ other ∈ run.toPush ++ run.toSend.erase message, Before message other := by
    have single : (run.unsent.erase message).Perm (run.toPush ++ run.toSend.erase message) := by
      refine List.Perm.cons_inv (a := message) ((List.perm_cons_erase inUnsent).symm.trans ?_)
      refine ((List.perm_cons_erase inside).append_left run.toPush).trans ?_
      exact List.perm_middle
    intro other member
    exact before_of_minimal run.unsent message sorted.distinct inUnsent minimal other
      (single.mem_iff.mpr member)
  have heard := deliver_sublist earlier message
  refine ⟨List.Pairwise.sublist heard ?_, fun line member other waits => ?_,
    fun line member => ?_⟩
  · rw [List.pairwise_append]
    refine ⟨order, List.pairwise_singleton _ _, fun line member other last => ?_⟩
    rw [List.mem_singleton.mp last]
    exact early line member message inUnsent
  · rcases List.mem_append.mp (heard.subset member) with before | last
    · exact early line before other (kept.subset waits)
    · rw [List.mem_singleton.mp last]
      exact rest other waits
  · rcases List.mem_append.mp (heard.subset member) with before | last
    · exact below line before
    · rw [List.mem_singleton.mp last]
      exact sorted.unsentBelow message inUnsent

/-- Changing the subscribers keeps the invariant when every subscriber has heard of what one had
heard of before. -/
theorem sorted_live (run : FeedRun) (sorted : Sorted run) (live : List Receiver)
    (same : ∀ receiver ∈ live, receiver.received ++ receiver.waiting = [] ∨
      ∃ earlier ∈ run.bus.live, receiver.received ++ receiver.waiting =
        earlier.received ++ earlier.waiting) :
    Sorted { run with bus := { run.bus with live := live } } := by
  refine ⟨sorted.counter, sorted.distinct, sorted.unsentBelow, sorted.pushedBelow, sorted.sorted,
    sorted.early, fun receiver member => ?_⟩
  rcases same receiver member with nothing | ⟨earlier, wasLive, lines⟩
  · constructor
    · rw [nothing]
      exact .nil
    · rw [nothing]
      exact fun line none => nomatch none
    · rw [nothing]
      exact fun line none => nomatch none
  · obtain ⟨order, early, below⟩ := sorted.heard earlier wasLive
    constructor
    · rwa [lines]
    · rwa [lines]
    · rwa [lines]

theorem recv_lines (receiver : Receiver) :
    receiver.recv.received ++ receiver.recv.waiting = receiver.received ++ receiver.waiting := by
  unfold Receiver.recv
  split
  · rfl
  · rename_i message waiting same
    rw [same, List.append_assoc, List.singleton_append]

/-- A step taken in turn keeps the feed sorted. -/
theorem sorted_step (before : FeedRun) (action : FeedAction) (after : FeedRun)
    (step : StepInTurn before action after) (sorted : Sorted before) : Sorted after := by
  obtain ⟨taken, inTurn⟩ := step
  cases action with
  | next sender kind body at_ =>
    cases taken
    exact sorted_next before sorted inTurn _ rfl
  | push message =>
    rw [FeedRun.step, Option.ite_none_right_eq_some] at taken
    obtain ⟨inside, same⟩ := taken
    cases same
    exact sorted_push before sorted message inside inTurn
  | send message =>
    rw [FeedRun.step, Option.ite_none_right_eq_some] at taken
    obtain ⟨inside, same⟩ := taken
    cases same
    exact sorted_send before sorted message inside inTurn
  | subscribe =>
    cases taken
    refine sorted_live before sorted _ fun receiver member => ?_
    rcases List.mem_append.mp member with earlier | last
    · exact .inr ⟨receiver, earlier, rfl⟩
    · rw [List.mem_singleton.mp last]
      exact .inl rfl
  | recv index =>
    cases taken
    refine sorted_live before sorted _ fun receiver member => ?_
    obtain ⟨position, inside, rfl⟩ := List.mem_iff_getElem.mp member
    rw [List.length_modify] at inside
    rw [List.getElem_modify]
    split
    · exact .inr ⟨_, List.getElem_mem inside, recv_lines _⟩
    · exact .inr ⟨_, List.getElem_mem inside, rfl⟩
  | unsubscribe index =>
    cases taken
    refine sorted_live before sorted _ fun receiver member => ?_
    exact .inr ⟨receiver, (List.eraseIdx_sublist _ _).subset member, rfl⟩

/-- In every run whose steps are all taken in turn, the feed keeps its promises. -/
theorem feedOrdered_of_inTurn (actions : List FeedAction) (run : FeedRun)
    (reached : Run StepInTurn .start actions run) : FeedOrdered run :=
  (reached.kept sorted_step sorted_start).feedOrdered

/-- Two overlapping posts that push and send in turn, with one subscriber. -/
theorem feedOrdered_of_inTurn_overlap :
    let first : MeshMessage := ⟨0, opsChannel, "a", .info, "x", ""⟩
    let second : MeshMessage := ⟨1, opsChannel, "b", .info, "y", ""⟩
    FeedOrdered ⟨⟨2, [first, second], [⟨[], [first, second]⟩]⟩, [], [], [], 2⟩ := by
  intro first second
  refine feedOrdered_of_inTurn [.subscribe, .next "a" .info "x" "", .next "b" .info "y" "",
    .push first, .push second, .send first, .send second, .recv 0, .recv 0] _
    (Run.mono ?_ (run_of_foldlM (fun run action =>
      if InTurn run action then run.step action else none) _ .start _ (by decide +kernel)))
  intro before action after taken
  exact (Option.ite_none_right_eq_some.mp taken).symm

/-- Two posts that push and send in the other order than they took their numbers leave the feed, and
what the subscriber received, out of order. -/
theorem feed_out_of_turn :
    let first : MeshMessage := ⟨0, opsChannel, "a", .info, "x", ""⟩
    let second : MeshMessage := ⟨1, opsChannel, "b", .info, "y", ""⟩
    ∃ run, Run (fun before action after => FeedRun.step before action = some after) .start
        [.subscribe, .next "a" .info "x" "", .next "b" .info "y" "", .push second, .push first,
          .send second, .send first, .recv 0, .recv 0] run ∧
      run.bus.feed = [second, first] ∧ run.bus.live = [⟨[], [second, first]⟩] ∧
      ¬ FeedOrdered run := by
  intro first second
  refine ⟨⟨⟨2, [second, first], [⟨[], [second, first]⟩]⟩, [], [], [], 2⟩, ?_, rfl, rfl, ?_⟩
  · exact run_of_foldlM FeedRun.step _ _ _ (by decide +kernel)
  · rintro ⟨snapshot, -⟩
    exact absurd snapshot (by decide)

end Hammurabi
